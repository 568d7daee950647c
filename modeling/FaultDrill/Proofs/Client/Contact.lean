import FaultDrill.Proofs.Engine.Turn
/-!
# Contacts of a client

The clients there are, for machines of a catalog and for instances of a provider, reach the world
outside in four ways: they run the provider's command, log in to a machine, run a command over the
login, and log out. A noted client is the same client on worlds that also hold the contacts made,
each with its answer. `Course` lists the ways in which an attempt may go, each with the contacts
that it makes; `exists_course` says that there are no others, and `noted_perform` that noting changes
neither the attempt nor the world.
-/
namespace FaultDrill

/-- A contact with the world outside, and the answer to it. -/
inductive Contact where
  /-- The provider's command was run. -/
  | command (words : List String) (limit : Span) (answer : CommandEnd)
  /-- A login was tried. -/
  | connect (endpoint : String) (c : Credentials) (answer : Except Fault Unit)
  /-- A command was run over a login. -/
  | exec (command : String) (input : List UInt8) (limit : Span)
    (answer : Except Remote.Fault Remote.Output)
  /-- A login was ended. -/
  | close

/-- A world and the contacts so far, the latest last. -/
structure Noted (σ : Type) where
  world : σ
  contacts : List Contact

/-- An action that is a contact, with its answer noted. -/
def Noted.contact (contact : α → Contact) (m : StateM σ α) : StateM (Noted σ) α := fun w =>
  ((m w.world).1, ⟨(m w.world).2, w.contacts ++ [contact (m w.world).1]⟩)

/-- The session with its contacts noted. -/
def Session.noted (session : Session σ) : Session (Noted σ) where
  exec command input limit :=
    Noted.contact (.exec command input limit) (session.exec command input limit)
  close := Noted.contact (fun _ => .close) session.close

/-- The connector with its logins noted; so are the contacts of the sessions that it opens. -/
def Connector.noted (connector : Connector σ) : Connector (Noted σ) := fun endpoint c => do
  let found ← Noted.contact (fun found => .connect endpoint c (found.map fun _ => ()))
    (connector endpoint c)
  return found.map Session.noted

/-- The client with its contacts noted. -/
def LocalClient.noted (l : LocalClient σ) : LocalClient (Noted σ) where
  machine? w := l.machine? w.world
  connector := Connector.noted l.connector
  defaults := l.defaults
  scriptTimeout := l.scriptTimeout

/-- The client with its contacts noted. -/
def CommandClient.noted (c : CommandClient σ) : CommandClient (Noted σ) where
  command := c.command
  timeout := c.timeout
  runner words limit := Noted.contact (.command words limit) (c.runner words limit)
  scripts := c.scripts.noted

variable {s t : σ}

theorem Noted.contact_run {contact : α → Contact} {m : StateM σ α} {answer : α}
    (h : m s = (answer, t)) (before : List Contact) :
    Noted.contact contact m ⟨s, before⟩ = (answer, ⟨t, before ++ [contact answer]⟩) := by
  simp only [Noted.contact, h]

theorem Connector.noted_run {connector : Connector σ} {endpoint : String} {c : Credentials}
    {found : Except Fault (Session σ)} (h : connector endpoint c s = (found, t))
    (before : List Contact) :
    Connector.noted connector endpoint c ⟨s, before⟩ =
      (found.map Session.noted,
        ⟨t, before ++ [.connect endpoint c (found.map fun _ => ())]⟩) := by
  rw [Connector.noted, bind_run, Noted.contact_run h before]
  rfl

/-! ## Scripts -/

theorem get_run (s : σ) : (get : StateM σ σ) s = (s, s) := rfl

namespace LocalClient

/-- The catalog's machine of an id, with its key, and the credentials for it. -/
structure Login (l : LocalClient σ) (id : String) (s : σ) (m : Machine) (c : Credentials) :
    Prop where
  listed : l.machine? s id = some m
  keyed : m.keyError = none
  resolved : Credentials.resolve m.login l.defaults = c

/-- How the attempt to run a script goes, the world that it leaves, and the contacts it makes. -/
inductive Course (l : LocalClient σ) (id : String) (x : Script) (s : σ) :
    Attempt → σ → List Contact → Prop where
  | missing (h : l.machine? s id = none) :
    Course l id x s (.ofFault x.label (.instanceNotFound id)) s []
  | keyless {m : Machine} (reason : String) (h : l.machine? s id = some m)
    (hk : m.keyError = some reason) :
    Course l id x s (.ofFault x.label (.keyUnavailable id reason)) s []
  | disabled {m : Machine} {c : Credentials} (h : l.Login id s m c) (hc : c.isEnabled = false) :
    Course l id x s (.ofFault x.label (.credentialsDisabled id)) s []
  | refused {m : Machine} {c : Credentials} {t : σ} (why : Fault) (h : l.Login id s m c)
    (hc : c.isEnabled = true) (ho : l.connector m.endpoint c s = (.error why, t)) :
    Course l id x s (.ofFault x.label why) t [.connect m.endpoint c (.error why)]
  | ran {m : Machine} {c : Credentials} {t u : σ} (session : Session σ) (command : String)
    (input : List UInt8) (result : Except Remote.Fault Remote.Output) (h : l.Login id s m c)
    (hc : c.isEnabled = true) (ho : l.connector m.endpoint c s = (.ok session, t))
    (hi : Credentials.invocation c x = (command, input))
    (hx : session.exec command input l.scriptTimeout t = (result, u)) :
    Course l id x s (.ofResult x.label (resultOf l.scriptTimeout id result)) (session.close u).2
      [.connect m.endpoint c (.ok ()), .exec command input l.scriptTimeout result, .close]

variable {l : LocalClient σ} {id : String} {x : Script} {m : Machine} {c : Credentials}
  {a : Attempt} {ks : List Contact}

theorem Login.noted (h : l.Login id s m c) (before : List Contact) :
    l.noted.Login id ⟨s, before⟩ m c := ⟨h.listed, h.keyed, h.resolved⟩

theorem credentials_run (l : LocalClient σ) (id : String) (s : σ) :
    l.client.credentials id s = (credentialsOf l.defaults id (l.machine? s id), s) := rfl

theorem Login.credentials (h : l.Login id s m c) : l.client.credentials id s = (.ok c, s) := by
  rw [credentials_run, h.listed, ← h.resolved]
  simp only [credentialsOf, h.keyed]

theorem attempt_of_error {why : Fault}
    (h : credentialsOf l.defaults id (l.machine? s id) = .error why) :
    Attempt.runScript l.client id x s = (.ofFault x.label why, s) := by
  rw [Attempt.runScript, bind_run, credentials_run, h]
  rfl

/-- An attempt with credentials that are enabled is what the client's script comes to. -/
theorem attempt_of_enabled (h : l.Login id s m c) (hc : c.isEnabled = true) :
    Attempt.runScript l.client id x s =
      (.ofResult x.label (l.runScript id c x s).1, (l.runScript id c x s).2) := by
  rw [Attempt.runScript, bind_run, h.credentials]
  simp only [hc]
  rfl

/-- The client's script once the machine is found: what the connector answers decides. -/
theorem runScript_run (h : l.Login id s m c) (hc : c.isEnabled = true) :
    l.runScript id c x s =
      match l.connector m.endpoint c s with
      | (.error why, t) => (.error why, t)
      | (.ok session, t) =>
        let (command, input) := Credentials.invocation c x
        let (result, u) := session.exec command input l.scriptTimeout t
        (resultOf l.scriptTimeout id result, (session.close u).2) := by
  simp only [runScript, hc, Bool.not_true, Bool.false_eq_true, if_false]
  rw [bind_run, get_run, h.listed]
  simp only
  rw [bind_run]
  cases hcon : l.connector m.endpoint c s with
  | mk opened t =>
    cases opened <;> rfl

/-- The attempt goes as its course says. -/
theorem Course.attempt (h : l.Course id x s a t ks) :
    Attempt.runScript l.client id x s = (a, t) := by
  cases h with
  | missing h =>
    apply attempt_of_error
    rw [h, credentialsOf]
  | keyless reason h hk =>
    apply attempt_of_error
    simp only [h, credentialsOf, hk]
  | disabled h hc =>
    rw [Attempt.runScript, bind_run, h.credentials]
    simp only [hc]
    rfl
  | refused why h hc ho =>
    rw [attempt_of_enabled h hc, runScript_run h hc, ho]
    rfl
  | ran session command input result h hc ho hi hx =>
    rw [attempt_of_enabled h hc, runScript_run h hc, ho]
    simp only [hi, hx]

/-- Noting the contacts of an attempt leaves its course. -/
theorem Course.noted (h : l.Course id x s a t ks) (before : List Contact) :
    l.noted.Course id x ⟨s, before⟩ a ⟨t, before ++ ks⟩ ks := by
  cases h with
  | missing h =>
    rw [List.append_nil]
    exact .missing h
  | keyless reason h hk =>
    rw [List.append_nil]
    exact .keyless reason h hk
  | disabled h hc =>
    rw [List.append_nil]
    exact .disabled (h.noted before) hc
  | refused why h hc ho => exact .refused why (h.noted before) hc (Connector.noted_run ho before)
  | ran session command input result h hc ho hi hx =>
    have hran := Course.ran session.noted command input result (h.noted before) hc
      (Connector.noted_run ho before) hi (Noted.contact_run hx _)
    rw [List.append_cons before, List.append_cons (before ++ _)]
    exact hran

/-- Every attempt to run a script takes one of the courses. -/
theorem exists_course (l : LocalClient σ) (id : String) (x : Script) (s : σ) :
    ∃ a t ks, l.Course id x s a t ks := by
  cases hm : l.machine? s id with
  | none => exact ⟨_, _, _, .missing hm⟩
  | some m =>
    cases hk : m.keyError with
    | some reason => exact ⟨_, _, _, .keyless reason hm hk⟩
    | none =>
      have h : l.Login id s m (Credentials.resolve m.login l.defaults) := ⟨hm, hk, rfl⟩
      cases hc : (Credentials.resolve m.login l.defaults).isEnabled with
      | false => exact ⟨_, _, _, .disabled h hc⟩
      | true =>
        cases ho : l.connector m.endpoint (Credentials.resolve m.login l.defaults) s with
        | mk opened t =>
          cases opened with
          | error why => exact ⟨_, _, _, .refused why h hc ho⟩
          | ok session => exact ⟨_, _, _, .ran session _ _ _ h hc ho rfl rfl⟩

end LocalClient

/-! ## Attempts -/

/-- The clients there are. -/
inductive Provider (σ : Type) where
  | machines (l : LocalClient σ)
  | command (c : CommandClient σ)

namespace Provider

/-- The client. -/
def client : Provider σ → Client σ
  | machines l => l.client
  | command c => c.client

/-- The client that runs the scripts. -/
def scripts : Provider σ → LocalClient σ
  | machines l => l
  | command c => c.scripts

/-- The client with its contacts noted. -/
def noted : Provider σ → Provider (Noted σ)
  | machines l => machines l.noted
  | command c => command c.noted

/-- Every backend's client is one of them; scripts log in over the connector, on the machines of the
site's catalog and with the defaults of the configuration. -/
theorem exists_of_backend {config : Config} {connector : Connector (Site κ)}
    {runner : CommandRunner (Site κ)} {choice : Backend.Choice} {b : Backend κ}
    (h : Backend.ofChoice config connector runner choice = .ok b) :
    ∃ p : Provider (Site κ), p.client = b.client ∧
      p.scripts = Backend.localClient config connector := by
  cases choice with
  | machines =>
    cases h
    exact ⟨.machines (Backend.localClient config connector), rfl, rfl⟩
  | command =>
    cases hcheck : CommandClient.check config.terminateCommand with
    | error why =>
      rw [Backend.ofChoice, hcheck] at h
      cases h
    | ok _ =>
      rw [Backend.ofChoice, hcheck] at h
      cases h
      exact ⟨.command ⟨config.terminateCommand, config.terminateTimeout, runner,
        Backend.localClient config connector⟩, rfl, rfl⟩

/-- The client answers that it cannot terminate the instance. -/
def Unsupported (p : Provider σ) (id : String) (s : σ) : Prop :=
  ∃ backend operation, (p.client.terminate id s).1 = .error (.unsupported backend operation)

/-- The script that an attempt has to run: the one asked for, or the fallback where an instance
cannot be terminated. -/
inductive Due (p : Provider σ) (fallback : Option Script) (id : String) (s : σ) :
    Disruption → Script → Prop where
  | script (x : Script) : Due p fallback id s (.script x) x
  | fallback (x : Script) (hf : fallback = some x) (hu : p.Unsupported id s) :
    Due p fallback id s .terminate x

end Provider

/-- The attempt to terminate an instance, from the client's answer. -/
def Attempt.ofTermination : Except Fault Unit → Attempt
  | .ok () => ⟨Disruption.terminate.label, .succeeded, none⟩
  | .error why => .ofFault Disruption.terminate.label why

namespace Provider

/-- How an attempt goes, the world that it leaves, and the contacts it makes. -/
inductive Course (p : Provider σ) (fallback : Option Script) (id : String) (s : σ) :
    Disruption → Attempt → σ → List Contact → Prop where
  | script {d : Disruption} {x : Script} {a : Attempt} {t : σ} {ks : List Contact}
    (hd : p.Due fallback id s d x) (h : p.scripts.Course id x s a t ks) :
    Course p fallback id s d a t ks
  | unsupported {backend operation : String} (hf : fallback = none)
    (hu : p.client.terminate id s = (.error (.unsupported backend operation), s)) :
    Course p fallback id s .terminate
      (.ofFault Disruption.terminate.label (.unsupported backend operation)) s []
  | command {t : σ} (c : CommandClient σ) (hp : p = .command c) (answer : CommandEnd)
    (h : c.runner (CommandClient.commandFor c.command id) c.timeout s = (answer, t)) :
    Course p fallback id s .terminate
      (.ofTermination (CommandClient.resultOf c.timeout id answer)) t
      [.command (CommandClient.commandFor c.command id) c.timeout answer]

variable {p : Provider σ} {fallback : Option Script} {id : String} {s t : σ} {d : Disruption}
  {x : Script} {a : Attempt} {ks : List Contact}

theorem attempt_script (p : Provider σ) (id : String) (x : Script) :
    Attempt.runScript p.client id x = Attempt.runScript p.scripts.client id x := by
  cases p <;> rfl

theorem terminate_machines (l : LocalClient σ) (id : String) (s : σ) :
    (machines l).client.terminate id s = (.error (.unsupported "local" "terminate"), s) := rfl

theorem terminate_command {c : CommandClient σ} {answer : CommandEnd}
    (h : c.runner (CommandClient.commandFor c.command id) c.timeout s = (answer, t)) :
    (command c).client.terminate id s = (CommandClient.resultOf c.timeout id answer, t) := by
  rw [Provider.client, CommandClient.client]
  simp only
  rw [bind_run, h]
  rfl

/-- The client of a command never answers that it cannot terminate. -/
theorem resultOf_ne_unsupported (limit : Span) (answer : CommandEnd) (backend operation : String) :
    CommandClient.resultOf limit id answer ≠ .error (.unsupported backend operation) := by
  cases answer with
  | ended status stderr =>
    rw [CommandClient.resultOf]
    split <;> simp
  | notStarted reason => simp [CommandClient.resultOf]
  | timedOut => simp [CommandClient.resultOf]

theorem not_unsupported_command (c : CommandClient σ) (id : String) (s : σ) :
    ¬(command c).Unsupported id s := by
  rintro ⟨backend, operation, hu⟩
  rw [terminate_command rfl] at hu
  exact resultOf_ne_unsupported _ _ _ _ hu

/-- An attempt with a script to run is the attempt to run it. -/
theorem Due.perform (h : p.Due fallback id s d x) :
    Attempt.perform p.client fallback id d s = Attempt.runScript p.scripts.client id x s := by
  cases h with
  | script x => rw [Attempt.perform, attempt_script]
  | fallback x hf hu =>
    cases p with
    | machines l =>
      rw [Attempt.perform, Attempt.terminate, bind_run, terminate_machines, hf]
      rfl
    | command c => exact absurd hu (not_unsupported_command c id s)

theorem Due.noted (h : p.Due fallback id s d x) (before : List Contact) :
    p.noted.Due fallback id ⟨s, before⟩ d x := by
  cases h with
  | script x => exact .script x
  | fallback x hf hu =>
    cases p with
    | machines l => exact .fallback x hf hu
    | command c => exact absurd hu (not_unsupported_command c id s)

/-- An attempt to terminate that is answered for good. -/
theorem terminate_of_command {c : CommandClient σ} {answer : CommandEnd}
    (h : c.runner (CommandClient.commandFor c.command id) c.timeout s = (answer, t)) :
    Attempt.perform (command c).client fallback id .terminate s =
      (.ofTermination (CommandClient.resultOf c.timeout id answer), t) := by
  rw [Attempt.perform, Attempt.terminate, bind_run, terminate_command h]
  cases hr : CommandClient.resultOf c.timeout id answer with
  | ok _ => rfl
  | error why =>
    cases why <;> first | rfl | exact absurd hr (resultOf_ne_unsupported _ _ _ _)

/-- The attempt goes as its course says. -/
theorem Course.attempt (h : p.Course fallback id s d a t ks) :
    Attempt.perform p.client fallback id d s = (a, t) := by
  cases h with
  | script hd h => rw [hd.perform, h.attempt]
  | unsupported hf hu =>
    rw [Attempt.perform, Attempt.terminate, bind_run, hu, hf]
    rfl
  | command c hp answer h => rw [hp, terminate_of_command h]

/-- Noting the contacts of an attempt leaves its course. -/
theorem Course.noted (h : p.Course fallback id s d a t ks) (before : List Contact) :
    p.noted.Course fallback id ⟨s, before⟩ d a ⟨t, before ++ ks⟩ ks := by
  cases h with
  | script hd h =>
    have hn := h.noted before
    cases p <;> exact .script (hd.noted before) hn
  | unsupported hf hu =>
    rw [List.append_nil]
    cases p with
    | machines l =>
      cases hu
      exact .unsupported hf rfl
    | command c => exact absurd ⟨_, _, fst_of_eq hu⟩ (not_unsupported_command c id s)
  | command c hp answer h =>
    rw [hp]
    exact .command c.noted rfl answer (Noted.contact_run h before)

/-- Every attempt takes one of the courses. -/
theorem exists_course (p : Provider σ) (fallback : Option Script) (id : String) (d : Disruption)
    (s : σ) : ∃ a t ks, p.Course fallback id s d a t ks := by
  cases d with
  | script x =>
    obtain ⟨a, t, ks, h⟩ := p.scripts.exists_course id x s
    exact ⟨a, t, ks, .script (.script x) h⟩
  | terminate =>
    cases p with
    | command c => exact ⟨_, _, _, .command c rfl _ rfl⟩
    | machines l =>
      cases fallback with
      | none => exact ⟨_, _, _, .unsupported rfl rfl⟩
      | some x =>
        obtain ⟨a, t, ks, h⟩ := l.exists_course id x s
        exact ⟨a, t, ks, .script (.fallback x rfl ⟨_, _, rfl⟩) h⟩

/-- The contacts of an attempt. -/
def contacts (p : Provider σ) (fallback : Option Script) (id : String) (d : Disruption) (s : σ) :
    List Contact :=
  (Attempt.perform p.noted.client fallback id d ⟨s, []⟩).2.contacts

/-- The course of an attempt, with its contacts. -/
theorem course (p : Provider σ) (fallback : Option Script) (id : String) (d : Disruption) (s : σ) :
    p.Course fallback id s d (Attempt.perform p.client fallback id d s).1
      (Attempt.perform p.client fallback id d s).2 (p.contacts fallback id d s) := by
  obtain ⟨a, t, ks, h⟩ := p.exists_course fallback id d s
  have hn := (h.noted []).attempt
  rw [contacts, hn, h.attempt]
  exact h

/-- Noting the contacts of an attempt changes neither the attempt nor the world that it leaves; the
contacts come behind those before. -/
theorem noted_perform (p : Provider σ) (fallback : Option Script) (id : String) (d : Disruption)
    (s : σ) (before : List Contact) :
    Attempt.perform p.noted.client fallback id d ⟨s, before⟩ =
      ((Attempt.perform p.client fallback id d s).1,
        ⟨(Attempt.perform p.client fallback id d s).2,
          before ++ p.contacts fallback id d s⟩) :=
  ((p.course fallback id d s).noted before).attempt

end Provider
end FaultDrill
