import FaultDrill.Proofs.Client.Contact
/-!
# What an attempt is recorded as

The outcome of an attempt tells what happened on the instance. `Contact.tells` says what each
contact means for it, and `Provider.Recorded` what each outcome is recorded for. `Provider.Proper`
has the rules that the contacts keep to: there is at most one login and at most one command over it,
no login without usable credentials, and every session that was opened is closed. `perform_truthful`
proves both of every attempt, for a connector that fails only to connect.
-/
namespace FaultDrill

namespace Contact

/-- What a contact tells about the disruption, if it decides it. -/
def tells : Contact → Option Outcome
  | command _ _ (.ended status _) => some (if status = some 0 then .succeeded else .failed)
  | command _ _ .timedOut => some .timedOut
  | command _ _ (.notStarted _) => some .failed
  | connect _ _ (.ok _) => none
  | connect _ _ (.error _) => some .failed
  | exec _ _ _ (.ok output) => some (if output.status = 0 then .succeeded else .failed)
  | exec _ _ _ (.error .timedOut) => some .timedOut
  | exec _ _ _ (.error (.interrupted _)) => some .timedOut
  | exec _ _ _ (.error (.notStarted _)) => some .failed
  | close => none

/-- Whether the contact is a login that was tried. -/
def isConnect : Contact → Bool
  | connect .. => true
  | _ => false

/-- Whether the contact opens a session. -/
def opens : Contact → Bool
  | connect _ _ (.ok _) => true
  | _ => false

/-- Whether the contact is a command over a login. -/
def isExec : Contact → Bool
  | exec .. => true
  | _ => false

/-- Whether the contact closes a session. -/
def isClose : Contact → Bool
  | close => true
  | _ => false

/-- What a contact tells is that something was tried. -/
theorem tells_ne {k : Contact} {o : Outcome} (h : k.tells = some o) :
    o ≠ .skipped ∧ o ≠ .unsupported := by
  revert h
  fun_cases tells k <;> grind

theorem tells_opened (endpoint : String) (c : Credentials) :
    (connect endpoint c (.ok ())).tells = none := rfl

theorem tells_close : close.tells = none := rfl

theorem tells_command (words : List String) (limit : Span) (id : String) (answer : CommandEnd) :
    (command words limit answer).tells =
      some (Attempt.ofTermination (CommandClient.resultOf limit id answer)).outcome := by
  cases answer with
  | ended status stderr =>
    rw [tells, CommandClient.resultOf]
    split <;> rfl
  | notStarted reason => rfl
  | timedOut => rfl

theorem tells_exec (command : String) (input : List UInt8) (limit : Span) (label id : String)
    (result : Except Remote.Fault Remote.Output) :
    (exec command input limit result).tells =
      some (Attempt.ofResult label (LocalClient.resultOf limit id result)).outcome := by
  cases result with
  | error why => cases why <;> rfl
  | ok output =>
    rw [tells, LocalClient.resultOf]
    split <;> rfl

end Contact

/-- The contacts that an attempt may make, in their order: a session that is opened serves one
command and is closed. -/
inductive Orderly : List Contact → Prop where
  | none : Orderly []
  | command (words : List String) (limit : Span) (answer : CommandEnd) :
    Orderly [.command words limit answer]
  | refused (endpoint : String) (c : Credentials) (why : Fault) :
    Orderly [.connect endpoint c (.error why)]
  | session (endpoint : String) (c : Credentials) (command : String) (input : List UInt8)
    (limit : Span) (result : Except Remote.Fault Remote.Output) :
    Orderly [.connect endpoint c (.ok ()), .exec command input limit result, .close]

namespace Orderly

variable {ks : List Contact}

theorem loginOnce (h : Orderly ks) : ks.countP Contact.isConnect ≤ 1 := by
  cases h with
  | none | command => exact Nat.zero_le 1
  | refused | session => exact Nat.le_refl 1

theorem execOnce (h : Orderly ks) : ks.countP Contact.isExec ≤ 1 := by
  cases h with
  | none | command | refused => exact Nat.zero_le 1
  | session => exact Nat.le_refl 1

theorem closed (h : Orderly ks) : ks.countP Contact.isClose = ks.countP Contact.opens := by
  cases h <;> rfl

end Orderly

/-- The connector fails only with a failure to connect. -/
def Connector.FailsToConnect (connector : Connector σ) : Prop :=
  ∀ endpoint c s why, (connector endpoint c s).1 = .error why →
    ∃ place reason, why = .connectFailure place reason

namespace LocalClient

/-- There are no credentials to be had: the instance is not in the catalog, or its key is not. -/
def Unresolved (l : LocalClient σ) (id : String) (s : σ) : Prop :=
  l.machine? s id = none ∨ ∃ m reason, l.machine? s id = some m ∧ m.keyError = some reason

/-- There are credentials, and no login can be tried with them. -/
def Barred (l : LocalClient σ) (id : String) (s : σ) : Prop :=
  ∃ m c, l.Login id s m c ∧ c.isEnabled = false

end LocalClient

/-- The contacts tell the outcome, and no other. -/
def Told (ks : List Contact) (o : Outcome) : Prop :=
  ∀ o', (∃ k ∈ ks, k.tells = some o') ↔ o = o'

theorem told_single {k : Contact} {o : Outcome} (h : k.tells = some o) : Told [k] o := by
  intro o'
  simp [h]

/-- What contacts tell is that something was tried. -/
theorem Told.tried {ks : List Contact} {o : Outcome} (h : Told ks o) :
    o ≠ .skipped ∧ o ≠ .unsupported := by
  obtain ⟨k, -, hk⟩ := (h o).mpr rfl
  exact Contact.tells_ne hk

namespace Provider

variable (p : Provider σ) (fallback : Option Script) (id : String) (d : Disruption) (s : σ)

/-- What each outcome is recorded for. -/
structure Recorded (o : Outcome) (ks : List Contact) : Prop where
  succeeded : o = .succeeded ↔ ∃ k ∈ ks, k.tells = some .succeeded
  timedOut : o = .timedOut ↔ ∃ k ∈ ks, k.tells = some .timedOut
  skipped : o = .skipped ↔ (∃ x, p.Due fallback id s d x) ∧ p.scripts.Barred id s
  unsupported : o = .unsupported ↔ d = .terminate ∧ p.Unsupported id s ∧ fallback = none
  failed : o = .failed ↔
    (∃ x, p.Due fallback id s d x) ∧ p.scripts.Unresolved id s ∨ ∃ k ∈ ks, k.tells = some .failed

/-- What the contacts of an attempt are: at most one login, with the credentials of a machine of the
catalog, at most one command over it, and the session is closed if there was one. -/
structure Proper (ks : List Contact) : Prop where
  commands : ∀ words limit answer, .command words limit answer ∈ ks →
    d = .terminate ∧ ∃ c, p = .command c ∧ words = CommandClient.commandFor c.command id ∧
      limit = c.timeout
  logins : ∀ endpoint c answer, .connect endpoint c answer ∈ ks →
    ∃ m, p.scripts.Login id s m c ∧ endpoint = m.endpoint ∧ c.isEnabled = true
  execs : ∀ command input limit result, .exec command input limit result ∈ ks →
    ∃ x m c, p.Due fallback id s d x ∧ p.scripts.Login id s m c ∧
      Credentials.invocation c x = (command, input) ∧ limit = p.scripts.scriptTimeout
  orderly : Orderly ks
  loginOnce : ks.countP Contact.isConnect ≤ 1 := orderly.loginOnce
  execOnce : ks.countP Contact.isExec ≤ 1 := orderly.execOnce
  closed : ks.countP Contact.isClose = ks.countP Contact.opens := orderly.closed

end Provider

/-! ## Scripts -/

namespace LocalClient

variable {l : LocalClient σ} {id : String} {x : Script} {s t : σ} {m : Machine} {c : Credentials}
  {a : Attempt} {ks : List Contact}

theorem Login.not_unresolved (h : l.Login id s m c) : ¬l.Unresolved id s := by
  rintro (hm | ⟨m', reason, hm, hk⟩)
  · exact absurd (h.listed.symm.trans hm) (by simp)
  · cases h.listed.symm.trans hm
    exact absurd (h.keyed.symm.trans hk) (by simp)

theorem Unresolved.not_barred (h : l.Unresolved id s) : ¬l.Barred id s := by
  rintro ⟨m, c, hlogin, -⟩
  exact hlogin.not_unresolved h

theorem Login.not_barred (h : l.Login id s m c) (hc : c.isEnabled = true) : ¬l.Barred id s := by
  rintro ⟨m', c', h', hc'⟩
  cases h.listed.symm.trans h'.listed
  rw [← h.resolved, h'.resolved, hc'] at hc
  exact absurd hc (by decide)

theorem told_ran (endpoint : String) (c : Credentials) (command : String) (input : List UInt8)
    (limit : Span) (result : Except Remote.Fault Remote.Output) (label id : String) :
    Told [.connect endpoint c (.ok ()), .exec command input limit result, .close]
      (Attempt.ofResult label (resultOf limit id result)).outcome := by
  intro o
  simp [Contact.tells_exec command input limit label id, Contact.tells_opened, Contact.tells_close]

/-- An attempt to run a script ends for want of credentials, ends because no login can be tried with
them, or makes contacts that tell how it ended. -/
theorem Course.outcome (hfails : Connector.FailsToConnect l.connector)
    (h : l.Course id x s a t ks) :
    (l.Unresolved id s ∧ a.outcome = .failed ∧ ks = []) ∨
      (l.Barred id s ∧ a.outcome = .skipped ∧ ks = []) ∨
      (¬l.Unresolved id s ∧ ¬l.Barred id s ∧ Told ks a.outcome) := by
  cases h with
  | missing h => exact .inl ⟨.inl h, rfl, rfl⟩
  | keyless reason h hk => exact .inl ⟨.inr ⟨_, _, h, hk⟩, rfl, rfl⟩
  | disabled h hc => exact .inr (.inl ⟨⟨_, _, h, hc⟩, rfl, rfl⟩)
  | refused why h hc ho =>
    obtain ⟨place, reason, rfl⟩ := hfails _ _ _ _ (fst_of_eq ho)
    exact .inr (.inr ⟨h.not_unresolved, h.not_barred hc, told_single rfl⟩)
  | ran session command input result h hc ho hi hx =>
    refine .inr (.inr ⟨h.not_unresolved, h.not_barred hc, ?_⟩)
    apply told_ran

theorem Course.orderly (h : l.Course id x s a t ks) : Orderly ks := by
  cases h with
  | missing | keyless | disabled => exact .none
  | refused => exact .refused ..
  | ran => exact .session ..

theorem Course.login (h : l.Course id x s a t ks) {endpoint : String} {answer : Except Fault Unit}
    (hk : .connect endpoint c answer ∈ ks) :
    ∃ m, l.Login id s m c ∧ endpoint = m.endpoint ∧ c.isEnabled = true := by
  cases h with
  | missing | keyless | disabled => cases hk
  | refused why h hc ho =>
    cases List.mem_singleton.mp hk
    exact ⟨_, h, rfl, hc⟩
  | ran session command input result h hc ho hi hx =>
    cases List.mem_cons.mp hk with
    | inl heq =>
      cases heq
      exact ⟨_, h, rfl, hc⟩
    | inr hk => simp at hk

theorem Course.exec (h : l.Course id x s a t ks) {command : String} {input : List UInt8}
    {limit : Span} {result : Except Remote.Fault Remote.Output}
    (hk : .exec command input limit result ∈ ks) :
    ∃ m c, l.Login id s m c ∧ Credentials.invocation c x = (command, input) ∧
      limit = l.scriptTimeout := by
  cases h with
  | missing | keyless | disabled => cases hk
  | refused => simp at hk
  | ran session command' input' result' h hc ho hi hx =>
    have hk' : command = command' ∧ input = input' ∧ limit = l.scriptTimeout ∧
        result = result' := by
      simpa using hk
    obtain ⟨rfl, rfl, rfl, -⟩ := hk'
    exact ⟨_, _, h, hi, rfl⟩

theorem Course.no_command (h : l.Course id x s a t ks) (words : List String) (limit : Span)
    (answer : CommandEnd) : .command words limit answer ∉ ks := by
  cases h <;> simp

end LocalClient

/-! ## Attempts -/

namespace Provider

variable {p : Provider σ} {fallback : Option Script} {id : String} {d : Disruption} {s t : σ}
  {x : Script} {a : Attempt} {o : Outcome} {ks : List Contact}

/-- With a script to run, an attempt is not one that nothing can be done about. -/
theorem Due.not_unsupported (h : p.Due fallback id s d x) :
    ¬(d = .terminate ∧ p.Unsupported id s ∧ fallback = none) := by
  rintro ⟨rfl, -, rfl⟩
  cases h with
  | fallback x hf => cases hf

theorem recorded_of_unresolved (hd : p.Due fallback id s d x) (h : p.scripts.Unresolved id s) :
    p.Recorded fallback id d s .failed [] where
  succeeded := by simp
  timedOut := by simp
  skipped := by simp [h.not_barred]
  unsupported := by simp [hd.not_unsupported]
  failed := by
    have hdue : ∃ x, p.Due fallback id s d x := ⟨x, hd⟩
    simp [hdue, h]

theorem recorded_of_barred (hd : p.Due fallback id s d x) (h : p.scripts.Barred id s) :
    p.Recorded fallback id d s .skipped [] where
  succeeded := by simp
  timedOut := by simp
  skipped := by
    have hdue : ∃ x, p.Due fallback id s d x := ⟨x, hd⟩
    simp [hdue, h]
  unsupported := by simp [hd.not_unsupported]
  failed := by
    have hu : ¬p.scripts.Unresolved id s := fun hu => hu.not_barred h
    simp [hu]

theorem recorded_of_unsupported (h : p.Unsupported id s) :
    p.Recorded none id .terminate s .unsupported [] := by
  have hdue : ¬∃ x, p.Due none id s .terminate x := by
    rintro ⟨x, hd⟩
    exact hd.not_unsupported ⟨rfl, h, rfl⟩
  constructor <;> simp [h, hdue]

/-- Where contacts tell the outcome, it is recorded for them alone. -/
theorem recorded_of_told (h : Told ks o)
    (hscript : ∀ x, p.Due fallback id s d x → ¬p.scripts.Unresolved id s ∧ ¬p.scripts.Barred id s)
    (hsupported : ¬(d = .terminate ∧ p.Unsupported id s ∧ fallback = none)) :
    p.Recorded fallback id d s o ks where
  succeeded := (h .succeeded).symm
  timedOut := (h .timedOut).symm
  skipped := by
    refine iff_of_false h.tried.1 ?_
    rintro ⟨⟨x, hd⟩, hb⟩
    exact (hscript x hd).2 hb
  unsupported := iff_of_false h.tried.2 hsupported
  failed := by
    have hresolved : ¬((∃ x, p.Due fallback id s d x) ∧ p.scripts.Unresolved id s) := by
      rintro ⟨⟨x, hd⟩, hu⟩
      exact (hscript x hd).1 hu
    rw [h, or_iff_right hresolved]

/-- An attempt with a script to run is recorded for what became of the script. -/
theorem recorded_of_script (hfails : Connector.FailsToConnect p.scripts.connector)
    (hd : p.Due fallback id s d x) (h : p.scripts.Course id x s a t ks) :
    p.Recorded fallback id d s a.outcome ks := by
  obtain ⟨hu, ho, rfl⟩ | ⟨hb, ho, rfl⟩ | ⟨hu, hb, htold⟩ := h.outcome hfails
  · rw [ho]
    exact recorded_of_unresolved hd hu
  · rw [ho]
    exact recorded_of_barred hd hb
  · exact recorded_of_told htold (fun _ _ => ⟨hu, hb⟩) hd.not_unsupported

/-- An attempt that the provider's command ends is recorded for how the command ended. -/
theorem recorded_of_command (c : CommandClient σ) (words : List String) (limit : Span)
    (answer : CommandEnd) :
    (command c).Recorded fallback id .terminate s
      (Attempt.ofTermination (CommandClient.resultOf limit id answer)).outcome
      [.command words limit answer] := by
  apply recorded_of_told (told_single (Contact.tells_command words limit id answer))
  · intro x hd
    cases hd with
    | fallback x hf hu => exact absurd hu (not_unsupported_command c id s)
  · rintro ⟨-, hu, -⟩
    exact not_unsupported_command c id s hu

theorem Course.recorded (hfails : Connector.FailsToConnect p.scripts.connector)
    (h : p.Course fallback id s d a t ks) : p.Recorded fallback id d s a.outcome ks := by
  cases h with
  | script hd h => exact recorded_of_script hfails hd h
  | unsupported hf hu =>
    rw [hf]
    exact recorded_of_unsupported ⟨_, _, fst_of_eq hu⟩
  | command c hp answer h =>
    rw [hp]
    exact recorded_of_command c ..

theorem proper_of_script (hd : p.Due fallback id s d x) (h : p.scripts.Course id x s a t ks) :
    p.Proper fallback id d s ks where
  commands words limit answer hk := absurd hk (h.no_command words limit answer)
  logins _ _ _ hk := h.login hk
  execs _ _ _ _ hk := by
    obtain ⟨m, c, hlogin, hi, hlimit⟩ := h.exec hk
    exact ⟨x, m, c, hd, hlogin, hi, hlimit⟩
  orderly := h.orderly

theorem proper_nil : p.Proper fallback id d s [] where
  commands _ _ _ hk := absurd hk (by simp)
  logins _ _ _ hk := absurd hk (by simp)
  execs _ _ _ _ hk := absurd hk (by simp)
  orderly := .none

theorem proper_of_command (c : CommandClient σ) (answer : CommandEnd) :
    (command c).Proper fallback id .terminate s
      [.command (CommandClient.commandFor c.command id) c.timeout answer] where
  commands words limit answer' hk := by
    cases List.mem_singleton.mp hk
    exact ⟨rfl, c, rfl, rfl, rfl⟩
  logins _ _ _ hk := absurd hk (by simp)
  execs _ _ _ _ hk := absurd hk (by simp)
  orderly := .command ..

theorem Course.proper (h : p.Course fallback id s d a t ks) : p.Proper fallback id d s ks := by
  cases h with
  | script hd h => exact proper_of_script hd h
  | unsupported => exact proper_nil
  | command c hp answer h =>
    rw [hp]
    exact proper_of_command c answer

/-- The outcome of an attempt tells the truth about what happened on the instance, and the attempt's
contacts with it keep to the rules. -/
theorem perform_truthful (p : Provider σ) (hfails : Connector.FailsToConnect p.scripts.connector)
    (fallback : Option Script) (id : String) (d : Disruption) (s : σ) :
    p.Recorded fallback id d s (Attempt.perform p.client fallback id d s).1.outcome
        (p.contacts fallback id d s) ∧
      p.Proper fallback id d s (p.contacts fallback id d s) :=
  ⟨(p.course fallback id d s).recorded hfails, (p.course fallback id d s).proper⟩

end Provider

/-- A client for one machine, which is up or down; the connection breaks while a script runs. -/
def Provider.cutOff : Provider Bool :=
  .machines {
    machine? := fun _ id => if id = "i-1" then some
      { Machine.bare "i-1" "10.1.1.1" with username := some "scott", password := some "tiger" }
      else none
    connector := fun endpoint _ isUp =>
      if isUp then
        (.ok ⟨fun _ _ _ => return .error (.interrupted "connection reset"), return ()⟩, isUp)
      else (.error (.connectFailure endpoint "connection refused"), isUp)
    defaults := ⟨none, none, none⟩
    scriptTimeout := ⟨60000⟩ }

theorem Provider.cutOff_fails : Connector.FailsToConnect cutOff.scripts.connector := by
  intro endpoint c isUp why h
  cases isUp with
  | true => cases h
  | false =>
    cases h
    exact ⟨endpoint, "connection refused", rfl⟩

/-- The machine cannot be terminated and the fallback script is cut off: its result is unknown, and
the session is closed. -/
theorem cutOff_truthful :
    Connector.FailsToConnect Provider.cutOff.scripts.connector ∧
      (Provider.cutOff.contacts (some .shutdown) "i-1" .terminate true).map Contact.tells =
        [none, some .timedOut, none] ∧
      Provider.cutOff.Recorded (some .shutdown) "i-1" .terminate true .timedOut
        (Provider.cutOff.contacts (some .shutdown) "i-1" .terminate true) ∧
      Provider.cutOff.Proper (some .shutdown) "i-1" .terminate true
        (Provider.cutOff.contacts (some .shutdown) "i-1" .terminate true) := by
  have htells : (Provider.cutOff.contacts (some .shutdown) "i-1" .terminate true).map
      Contact.tells = [none, some .timedOut, none] := by decide +kernel
  have houtcome : (Attempt.perform Provider.cutOff.client (some .shutdown) "i-1" .terminate
      true).1.outcome = .timedOut := by decide +kernel
  have htruth := Provider.perform_truthful Provider.cutOff Provider.cutOff_fails (some .shutdown)
    "i-1" .terminate true
  rw [houtcome] at htruth
  exact ⟨Provider.cutOff_fails, htells, htruth⟩

end FaultDrill
