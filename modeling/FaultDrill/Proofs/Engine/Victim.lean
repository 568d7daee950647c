import FaultDrill.Proofs.Catalog.Crawl
import FaultDrill.Proofs.Client.Truth
import FaultDrill.Proofs.Engine.Outage
/-!
# Victims are found

The crawl of a cycle loads the catalog, and nothing else in the cycle does. So the machines that a
client finds in the cycle are those of the crawl, and the instance that is drawn is one of them:
every call on the client meets a catalog that has its instance, and no event tells of an instance
that was not found (`Backend.victims_found`).
-/
namespace FaultDrill

/-! ## What leaves a view of the state alone -/

/-- A connector that leaves a view of the state alone, in its sessions too. -/
structure Connector.Spares (connector : Connector σ) (view : σ → β) : Prop where
  connect : ∀ endpoint c, Leaves view (connector endpoint c)
  exec : ∀ endpoint c s session, (connector endpoint c s).1 = .ok session →
    ∀ command input limit, Leaves view (session.exec command input limit)
  close : ∀ endpoint c s session, (connector endpoint c s).1 = .ok session →
    Leaves view session.close

theorem Leaves.snd_eq {view : σ → β} {m : StateM σ α} (h : Leaves view m) {s t : σ} {a : α}
    (hrun : m s = (a, t)) : view t = view s := by
  rw [← h s, hrun]

/-- Scripts leave alone what the connector does. -/
theorem LocalClient.Course.leaves {l : LocalClient σ} {view : σ → β} {id : String} {x : Script}
    {s t : σ} {a : Attempt} {ks : List Contact} (hspares : Connector.Spares l.connector view)
    (h : l.Course id x s a t ks) : view t = view s := by
  cases h with
  | missing | keyless | disabled => rfl
  | refused why h hc ho => exact (hspares.connect _ _).snd_eq ho
  | ran session command input result h hc ho hi hx =>
    have hopened := fst_of_eq ho
    rw [hspares.close _ _ _ _ hopened, (hspares.exec _ _ _ _ hopened _ _ _).snd_eq hx,
      (hspares.connect _ _).snd_eq ho]

namespace Provider

variable {p : Provider σ} {view : σ → β} {fallback : Option Script} {id : String} {d : Disruption}
  {s t : σ} {a : Attempt} {ks : List Contact}

/-- A client whose connector and whose provider's command leave a view of the state alone. -/
structure Spares (p : Provider σ) (view : σ → β) : Prop where
  scripts : Connector.Spares p.scripts.connector view
  command : ∀ c, p = .command c → ∀ words limit, Leaves view (c.runner words limit)

theorem Course.leaves (hspares : p.Spares view) (h : p.Course fallback id s d a t ks) :
    view t = view s := by
  cases h with
  | script hd h => exact h.leaves hspares.scripts
  | unsupported => rfl
  | command c hp answer h => exact (hspares.command c hp _ _).snd_eq h

theorem perform_spares (hspares : p.Spares view) (fallback : Option Script) (id : String)
    (d : Disruption) : Leaves view (Attempt.perform p.client fallback id d) :=
  fun s => (p.course fallback id d s).leaves hspares

/-! ## The calls of an attempt -/

theorem credentials_world (p : Provider σ) (id : String) (s : σ) :
    (p.client.credentials id s).2 = s := by
  cases p <;> rfl

theorem runScript_meets (p : Provider σ) (id : String) (x : Script) (s : σ) :
    ∀ c ∈ callsOf (Attempt.runScript p.client.watched id x) s, c.2 = s := by
  rw [Attempt.runScript_calls, credentials_world, List.forall_mem_cons]
  refine ⟨rfl, ?_⟩
  split
  · split
    · exact List.forall_mem_singleton.mpr rfl
    · exact nofun
  · exact nofun

/-- Where an instance cannot be terminated, the client leaves the world to the fallback script as it
is; a command of the provider is the last call. -/
theorem terminate_meets (p : Provider σ) (fallback : Option Script) (id : String) (s : σ) :
    ∀ c ∈ callsOf (Attempt.terminate p.client.watched fallback id) s, c.2 = s := by
  cases p with
  | machines l =>
    have hfirst : (machines l).client.watched.terminate id ⟨s, []⟩ =
        (.error (.unsupported "local" "terminate"), ⟨s, [(.terminate id, s)]⟩) := rfl
    rw [callsOf, Attempt.terminate, bind_run, hfirst]
    cases fallback with
    | none => exact List.forall_mem_singleton.mpr rfl
    | some x =>
      dsimp only
      rw [Attempt.runScript_follows _ id x _ _]
      exact List.forall_mem_append.mpr
        ⟨List.forall_mem_singleton.mpr rfl, (machines l).runScript_meets id x s⟩
  | command c =>
    have hfirst : (command c).client.watched.terminate id ⟨s, []⟩ =
        (((command c).client.terminate id s).1,
          ⟨((command c).client.terminate id s).2, [(.terminate id, s)]⟩) := rfl
    rw [callsOf, Attempt.terminate, bind_run, hfirst]
    cases hended : ((command c).client.terminate id s).1 with
    | ok _ => exact List.forall_mem_singleton.mpr rfl
    | error why =>
      dsimp only
      split
      · exact absurd ⟨_, _, hended⟩ (not_unsupported_command c id s)
      · exact List.forall_mem_singleton.mpr rfl

/-- All calls of an attempt meet the world that it begins in: what comes before the last of them
leaves the world as it is. -/
theorem perform_meets (p : Provider σ) (fallback : Option Script) (id : String) (d : Disruption)
    (s : σ) : ∀ c ∈ callsOf (Attempt.perform p.client.watched fallback id d) s, c.2 = s := by
  cases d with
  | terminate => exact p.terminate_meets fallback id s
  | script x => exact p.runScript_meets id x s

end Provider

/-! ## Instances that are not found -/

/-- An attempt that tells of an instance that was not found. -/
def Attempt.TellsMissing (a : Attempt) : Prop :=
  a.outcome = .failed ∧ ∃ id, a.detail = some (Fault.instanceNotFound id).message

/-- What a text begins with. -/
theorem head?_append {s t : String} {c : Char} (h : s.toList.head? = some c) :
    (s ++ t).toList.head? = some c := by
  rw [String.toList_append, List.head?_append, h]
  rfl

namespace Attempt

/-- The messages of other faults begin with other letters, where these faults fail an attempt. -/
theorem not_tellsMissing_of_head {why : Fault} {c : Char} (h : why.message.toList.head? = some c)
    (hc : c ≠ 'i') (label : String) : ¬ (ofFault label why).TellsMissing := by
  rintro ⟨-, id, hdetail⟩
  have hi : (Fault.instanceNotFound id).message.toList.head? = some 'i' :=
    head?_append (head?_append (by decide))
  rw [← Option.some.inj hdetail, h] at hi
  exact hc (Option.some.inj hi)

theorem not_tellsMissing_of_outcome {a : Attempt} (h : a.outcome ≠ .failed) : ¬ a.TellsMissing :=
  fun hmissing => h hmissing.1

theorem not_tellsMissing_script (limit : Span) (label id : String)
    (result : Except Remote.Fault Remote.Output) :
    ¬ (ofResult label (LocalClient.resultOf limit id result)).TellsMissing := by
  have hfailure (status : Option Int) (reason : String) :
      (Fault.scriptFailure id status reason).message.toList.head? = some 's' :=
    head?_append (head?_append (head?_append (head?_append (head?_append (by decide)))))
  cases result with
  | error why =>
    cases why with
    | notStarted reason => exact not_tellsMissing_of_head (hfailure none reason) (by decide) label
    | timedOut => exact not_tellsMissing_of_outcome Outcome.noConfusion
    | interrupted reason => exact not_tellsMissing_of_outcome Outcome.noConfusion
  | ok output =>
    rw [LocalClient.resultOf]
    split
    · exact not_tellsMissing_of_outcome Outcome.noConfusion
    · exact not_tellsMissing_of_head (hfailure _ _) (by decide) label

theorem not_tellsMissing_command (limit : Span) (id : String) (answer : CommandEnd) :
    ¬ (ofTermination (CommandClient.resultOf limit id answer)).TellsMissing := by
  have hfailure (reason : String) :
      (Fault.terminateFailure id reason).message.toList.head? = some 't' :=
    head?_append (head?_append (head?_append (by decide)))
  cases answer with
  | notStarted reason => exact not_tellsMissing_of_head (hfailure reason) (by decide) _
  | timedOut => exact not_tellsMissing_of_outcome Outcome.noConfusion
  | ended status stderr =>
    rw [CommandClient.resultOf]
    split
    · exact not_tellsMissing_of_outcome Outcome.noConfusion
    · exact not_tellsMissing_of_head (hfailure _) (by decide) _

end Attempt

theorem LocalClient.Course.not_tellsMissing {l : LocalClient σ} {id : String} {x : Script} {s t : σ}
    {a : Attempt} {ks : List Contact} (hfails : Connector.FailsToConnect l.connector)
    (hfound : ∃ m, l.machine? s id = some m) (h : l.Course id x s a t ks) : ¬ a.TellsMissing := by
  cases h with
  | missing h =>
    obtain ⟨m, hm⟩ := hfound
    exact nomatch hm.symm.trans h
  | keyless reason h hk =>
    have hhead : (Fault.keyUnavailable id reason).message.toList.head? = some 'p' :=
      head?_append (head?_append (head?_append (by decide)))
    exact Attempt.not_tellsMissing_of_head hhead (by decide) _
  | disabled h hc => exact Attempt.not_tellsMissing_of_outcome Outcome.noConfusion
  | refused why h hc ho =>
    obtain ⟨place, reason, rfl⟩ := hfails _ _ _ _ (fst_of_eq ho)
    have hhead : (Fault.connectFailure place reason).message.toList.head? = some 'u' :=
      head?_append (head?_append (head?_append (by decide)))
    exact Attempt.not_tellsMissing_of_head hhead (by decide) _
  | ran => exact Attempt.not_tellsMissing_script _ _ _ _

/-- An attempt on a machine that is found does not tell otherwise. -/
theorem Provider.Course.not_tellsMissing {p : Provider σ} {fallback : Option Script} {id : String}
    {d : Disruption} {s t : σ} {a : Attempt} {ks : List Contact}
    (hfails : Connector.FailsToConnect p.scripts.connector)
    (hfound : ∃ m, p.scripts.machine? s id = some m) (h : p.Course fallback id s d a t ks) :
    ¬ a.TellsMissing := by
  cases h with
  | script hd h => exact h.not_tellsMissing hfails hfound
  | unsupported => exact Attempt.not_tellsMissing_of_outcome Outcome.noConfusion
  | command => exact Attempt.not_tellsMissing_command _ _ _

/-! ## Turns -/

namespace Engine

variable {e : Engine σ} {view : σ → β} {now : Instant}

/-- An engine whose turns leave a view of the state alone. -/
structure Spares (e : Engine σ) (view : σ → β) : Prop where
  attempt : ∀ id d, Leaves view (Attempt.perform e.client e.config.fallbackScript id d)
  asking : ∀ group start, Leaves view (e.log.hasRecent group start)
  append : ∀ ev, Leaves view (e.log.append ev)
  elapsed : Leaves view e.elapsed

theorem Spares.asked (h : e.Spares view) (now : Instant) (g : Group) (s : σ) :
    view (e.asked now g s).2 = view s := by
  rw [Engine.asked, h.asking, h.elapsed]

theorem Spares.appended (h : e.Spares view) (now : Instant) (g : Group) (id : String) (s : σ) :
    view (e.appended now g id s).2 = view s := by
  rw [Engine.appended, h.append]
  show view (e.elapsed (e.attempted g id s).2).2 = _
  rw [h.elapsed]
  exact h.attempt _ _ s

theorem Spares.evaluate (h : e.Spares view) (now : Instant) (g : Group) (seed : UInt64) :
    Leaves view (e.evaluate now g seed) := by
  intro s
  rw [evaluate_world]
  have hjudged := e.judged now g seed s
  generalize e.judge now g seed s = verdict at hjudged ⊢
  cases hjudged with
  | late | disabled | empty => exact h.elapsed s
  | disrupted id =>
    rw [disrupt_run, h.appended, h.asked]
  | _ => exact h.asked now g s

theorem Spares.turnsFrom (h : e.Spares view) {seeded : List (Group × UInt64)} {s : σ} {t : Turn σ}
    (ht : t ∈ e.turnsFrom now seeded s) : view t.world = view s := by
  induction seeded generalizing s with
  | nil => cases ht
  | cons turn more ih =>
    rcases List.mem_cons.mp ht with rfl | ht
    · rfl
    · rw [ih ht, h.evaluate]

/-- Every turn of a cycle begins with what the crawl left in view. -/
theorem Spares.turns (h : e.Spares view) {r : Running σ} {t : Turn σ} (ht : t ∈ e.turns now r) :
    view t.world = view (e.crawled r.world).2 := by
  rw [Engine.turns] at ht
  split at ht
  · cases ht
  · exact h.turnsFrom ht

end Engine

/-! ## Cycles of a backend -/

/-- An event that tells of an instance that was not found. -/
def Event.TellsMissing (ev : Event) : Prop :=
  ev.outcome = .failed ∧ ∃ id, ev.detail = some (Fault.instanceNotFound id).message

theorem Engine.tellsMissing_eventOn {e : Engine σ} {now : Instant} {t : Turn σ} {id : String} :
    (e.eventOn now t id).TellsMissing ↔
      (e.attempted t.group id (e.asked now t.group t.world).2).1.TellsMissing := Iff.rfl

theorem Site.append_catalog (ev : Event) : Leaves Site.catalog (Site.append ev : StateM (Site κ) _) := by
  intro s
  rw [Site.append]
  split <;> rfl

namespace Backend

variable {κ : Type} {config : Config} {connector : Connector (Site κ)}
  {runner : CommandRunner (Site κ)} {backend : Backend κ}

/-- A backend's client leaves the catalog alone if what it is built over does. -/
theorem exists_provider {choice : Choice} (h : ofChoice config connector runner choice = .ok backend)
    (hconnector : Connector.Spares connector Site.catalog)
    (hrunner : ∀ words limit, Leaves Site.catalog (runner words limit)) :
    ∃ p : Provider (Site κ), backend.client = p.client ∧ p.scripts = localClient config connector ∧
      p.Spares Site.catalog := by
  cases choice with
  | machines =>
    cases h
    exact ⟨.machines (localClient config connector), rfl, rfl, hconnector, nofun⟩
  | command =>
    cases hcheck : CommandClient.check config.terminateCommand with
    | error why =>
      rw [ofChoice, hcheck] at h
      cases h
    | ok _ =>
      rw [ofChoice, hcheck] at h
      cases h
      refine ⟨.command ⟨config.terminateCommand, config.terminateTimeout, runner,
        localClient config connector⟩, rfl, rfl, hconnector, ?_⟩
      intro c hc
      cases hc
      exact hrunner

theorem exists_choice {files : FileTree} {web : Catalog.Web} {home : Option String} {name : String}
    {catalog : Catalog}
    (h : build files web home name config connector runner = .ok (backend, catalog)) :
    ∃ choice, ofChoice config connector runner choice = .ok backend := by
  rw [build] at h
  split at h
  · cases h
  · rename_i choice _
    obtain ⟨c, -, h⟩ := bind_eq_ok_iff.mp h
    obtain ⟨b, hb, h⟩ := bind_eq_ok_iff.mp h
    cases h
    exact ⟨choice, hb⟩

variable {elapsed : StateM (Site κ) Nat} {now : Instant} {r : Engine.Running (Site κ)}

theorem engine_spares {p : Provider (Site κ)} (hclient : backend.client = p.client)
    (hp : p.Spares Site.catalog) (helapsed : Leaves Site.catalog elapsed) :
    (Engine.ofBackend config backend elapsed).Spares Site.catalog where
  attempt id d := by
    show Leaves Site.catalog (Attempt.perform backend.client config.fallbackScript id d)
    rw [hclient]
    exact p.perform_spares hp _ id d
  asking _ _ _ := rfl
  append := Site.append_catalog
  elapsed := helapsed

/-- The member that a turn acts on is found where the attempt begins. -/
theorem found_of_acts (hspares : (Engine.ofBackend config backend elapsed).Spares Site.catalog)
    {t : Engine.Turn (Site κ)} {id : String}
    (ht : t ∈ (Engine.ofBackend config backend elapsed).turns now r)
    (hacts : (Engine.ofBackend config backend elapsed).Acts now t id) :
    ∃ m, ((Engine.ofBackend config backend elapsed).asked now t.group t.world).2.machine? id =
      some m := by
  obtain ⟨⟨groups, hcrawl, hgroup⟩, -⟩ := Engine.listed_of_mem_turns ht
  cases hcrawl
  obtain ⟨hmember, -, -⟩ := Draw.select_eq_member hacts.drawn
  obtain ⟨m, hm⟩ := Catalog.crawl_found hgroup hmember
  refine ⟨m, ?_⟩
  rw [Site.machine?, hspares.asked, hspares.turns ht]
  exact hm

/-- A crawl is the filtered document, and in a cycle every victim is found: each call on the client
meets a catalog that has its instance, and no event tells of a missing one. -/
theorem victims_found {files : FileTree} {web : Catalog.Web} {home : Option String} {name : String}
    {catalog : Catalog}
    (hbuild : build files web home name config connector runner = .ok (backend, catalog))
    (hconnector : Connector.Spares connector Site.catalog)
    (hrunner : ∀ words limit, Leaves Site.catalog (runner words limit))
    (helapsed : Leaves Site.catalog elapsed) (hfails : Connector.FailsToConnect connector)
    (now : Instant) (r : Engine.Running (Site κ)) :
    let e := Engine.ofBackend config backend elapsed
    (∀ files web home c kind names,
      Catalog.Crawled files web home c kind names (c.crawl files web home kind names).1) ∧
    (∀ c ∈ e.calls now r, ∃ m, c.2.machine? c.1.instanceId = some m) ∧
    ∀ t ∈ e.turns now r, ∀ id, e.Acts now t id → ¬ (e.eventOn now t id).TellsMissing := by
  intro e
  obtain ⟨choice, hchoice⟩ := exists_choice hbuild
  obtain ⟨p, hclient, hscripts, hp⟩ := exists_provider hchoice hconnector hrunner
  have hspares : e.Spares Site.catalog := engine_spares hclient hp helapsed
  have heclient : e.client = p.client := hclient
  refine ⟨Catalog.crawl_exact, ?_, ?_⟩
  · intro c hc
    rw [Engine.calls_eq, List.mem_flatMap] at hc
    obtain ⟨t, ht, hc⟩ := hc
    by_cases hacts : ∃ id, e.Acts now t id
    · obtain ⟨id, hacts⟩ := hacts
      rw [hacts.turnCalls_eq, heclient] at hc
      have hkeeps := Attempt.perform_keepsTo p.client.spares_nothing e.config.fallbackScript id
        (e.config.disruption t.group.name)
      rw [p.perform_meets _ _ _ _ c hc, (hkeeps.about hc).1]
      exact found_of_acts hspares ht hacts
    · rw [Engine.turnCalls_of_not_acts (not_exists.mp hacts)] at hc
      cases hc
  · intro t ht id hacts
    have hfound : ∃ m, p.scripts.machine? (e.asked now t.group t.world).2 id = some m := by
      rw [hscripts]
      exact found_of_acts hspares ht hacts
    rw [Engine.tellsMissing_eventOn, Engine.attempted, heclient]
    refine (p.course _ _ _ _).not_tellsMissing ?_ hfound
    rw [hscripts]
    exact hfails

end Backend

/-! ## A site whose document has changed -/

/-- A site whose catalog holds an older document than its file does now. -/
def Site.drifted : Site Unit where
  files := ⟨[(["fleet"], .file <| Text.Utf8.bytes <|
    "[\x7b\"id\":\"web\",\"instances\":[" ++
      "\x7b\"id\":\"i-2\",\"hostname\":\"h\",\"userpass\":\"p\"\x7d]\x7d]")], []⟩
  web := .offline
  home := none
  catalog := ⟨.file "fleet", ⟨[⟨"web", .localMachines, ["i-1"]⟩], [.bare "i-1" "h"]⟩⟩
  ledger := .memory []
  connections := ()

/-- A drill by command; a script is run on its victims. -/
def Config.byCommand : Config :=
  { Config.standard with
    catalog := "fleet"
    groupDefaults := ⟨true, .ofNat 1, .script .shutdown⟩
    terminateCommand := ["end", CommandClient.placeholder] }

/-- Machines whose connections break while a script runs. -/
def Connector.breaking : Connector (Site Unit) := fun _ _ =>
  return .ok ⟨fun _ _ _ => return .error (.interrupted "connection reset"), return ()⟩

theorem Connector.breaking_spares : Spares breaking Site.catalog where
  connect _ _ _ := rfl
  exec _ _ _ session h := by
    cases h
    exact fun _ _ _ _ => rfl
  close _ _ _ session h := by
    cases h
    exact fun _ => rfl

/-- The victim is an instance of the new document, which the client knows after the crawl. -/
theorem drifted_victims_found :
    let runner : CommandRunner (Site Unit) := fun _ _ => return .ended (some 0) []
    let built := Backend.build Site.drifted.files .offline none " Command" .byCommand .breaking runner
    let r : Engine.Running (Site Unit) := ⟨.seeded 7, .drifted⟩
    (built.toOption.map fun b =>
      ((Engine.ofBackend .byCommand b.1 (return 0)).calls ⟨0, 0⟩ r).map (·.1.instanceId)) =
        some ["i-2", "i-2"] ∧
      (Site.drifted.machine? "i-2").isNone ∧
      ∃ backend catalog, built = .ok (backend, catalog) ∧
        let e := Engine.ofBackend .byCommand backend (return 0)
        (∀ files web home c kind names,
          Catalog.Crawled files web home c kind names (c.crawl files web home kind names).1) ∧
        (∀ c ∈ e.calls ⟨0, 0⟩ r, ∃ m, c.2.machine? c.1.instanceId = some m) ∧
        ∀ t ∈ e.turns ⟨0, 0⟩ r, ∀ id, e.Acts ⟨0, 0⟩ t id →
          ¬ (e.eventOn ⟨0, 0⟩ t id).TellsMissing := by
  intro runner built r
  have hcalls : (built.toOption.map fun b =>
      ((Engine.ofBackend .byCommand b.1 (return 0)).calls ⟨0, 0⟩ r).map (·.1.instanceId)) =
        some ["i-2", "i-2"] := by decide +kernel
  refine ⟨hcalls, by decide +kernel, ?_⟩
  cases hbuilt : built with
  | error why =>
    rw [hbuilt] at hcalls
    cases hcalls
  | ok b =>
    exact ⟨b.1, b.2, rfl, Backend.victims_found hbuilt Connector.breaking_spares (fun _ _ _ => rfl)
      (fun _ => rfl) (fun _ _ _ _ h => nomatch h) ⟨0, 0⟩ r⟩

end FaultDrill
