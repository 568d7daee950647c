import FaultDrill.Proofs.Draw.Selection
import FaultDrill.Proofs.Engine.Keeping
import FaultDrill.Proofs.Engine.Watch
/-!
# Clearance

When a cycle may touch an instance. `Cleared` gathers every condition that an instance, its group
and the configuration have to meet. All calls of a turn are about the member that was drawn for it,
and are made only where these conditions are met.
-/
namespace FaultDrill

/-! ## The calls of an attempt -/

/-- A watched action that calls about one instance only, and leaves the ledger as it is throughout. -/
def KeepsTo (ledger : σ → List Event) (id : String) (m : StateM (Watched σ) α) : Prop :=
  ∀ w, ledger (m w).2.world = ledger w.world ∧
    ∃ new, (m w).2.calls = w.calls ++ new ∧
      ∀ c ∈ new, c.1.instanceId = id ∧ ledger c.2 = ledger w.world

namespace KeepsTo

variable {ledger : σ → List Event} {id : String}

theorem pure (a : α) : KeepsTo ledger id (Pure.pure a : StateM (Watched σ) α) :=
  fun _ => ⟨rfl, [], (List.append_nil _).symm, fun _ h => nomatch h⟩

theorem noted {c : Call} {m : StateM σ α} (hc : c.instanceId = id) (hm : Leaves ledger m) :
    KeepsTo ledger id (Watched.noted c m) := by
  refine fun w => ⟨hm w.world, [(c, w.world)], rfl, ?_⟩
  intro d hd
  obtain rfl := List.mem_singleton.mp hd
  exact ⟨hc, rfl⟩

theorem bind {m : StateM (Watched σ) α} {f : α → StateM (Watched σ) β} (hm : KeepsTo ledger id m)
    (hf : ∀ a, KeepsTo ledger id (f a)) : KeepsTo ledger id (m >>= f) := by
  intro w
  obtain ⟨hfirst, first, hcalls, habout⟩ := hm w
  obtain ⟨hthen, more, hcalls', habout'⟩ := hf (m w).1 (m w).2
  refine ⟨hthen.trans hfirst, first ++ more, ?_, ?_⟩
  · rw [bind_run, hcalls', hcalls, List.append_assoc]
  · intro c hc
    rcases List.mem_append.mp hc with hc | hc
    · exact habout c hc
    · exact ⟨(habout' c hc).1, (habout' c hc).2.trans hfirst⟩

theorem ite {p : Prop} [Decidable p] {m m' : StateM (Watched σ) α} (h : KeepsTo ledger id m)
    (h' : KeepsTo ledger id m') : KeepsTo ledger id (if p then m else m') := by
  split
  · exact h
  · exact h'

/-- The calls of an action that finds none noted before it. -/
theorem about {m : StateM (Watched σ) α} (h : KeepsTo ledger id m) {s : σ} {c : Call × σ}
    (hc : c ∈ (m ⟨s, []⟩).2.calls) : c.1.instanceId = id ∧ ledger c.2 = ledger s := by
  obtain ⟨-, new, hcalls, habout⟩ := h ⟨s, []⟩
  rw [hcalls, List.nil_append] at hc
  exact habout c hc

end KeepsTo

/-- Every client leaves alone a view that shows nothing. -/
theorem Client.spares_nothing (client : Client σ) : client.Spares fun _ => [] :=
  ⟨fun _ _ => rfl, fun _ _ => rfl, fun _ _ _ _ => rfl⟩

namespace Attempt

variable {client : Client σ} {ledger : σ → List Event}

theorem runScript_keepsTo (h : client.Spares ledger) (id : String) (s : Script) :
    KeepsTo ledger id (runScript client.watched id s) := by
  apply (KeepsTo.noted rfl (h.credentials id)).bind
  intro found
  cases found with
  | error why => exact .pure _
  | ok c => exact .ite (.pure _) ((KeepsTo.noted rfl (h.runScript id c s)).bind fun _ => .pure _)

theorem terminate_keepsTo (h : client.Spares ledger) (fallback : Option Script) (id : String) :
    KeepsTo ledger id (terminate client.watched fallback id) := by
  apply (KeepsTo.noted rfl (h.terminate id)).bind
  intro ended
  cases ended with
  | ok _ => exact .pure _
  | error why =>
    dsimp only
    split
    · exact runScript_keepsTo h id _
    · exact .pure _

theorem perform_keepsTo (h : client.Spares ledger) (fallback : Option Script) (id : String)
    (d : Disruption) : KeepsTo ledger id (perform client.watched fallback id d) := by
  cases d with
  | terminate => exact terminate_keepsTo h fallback id
  | script s => exact runScript_keepsTo h id s

end Attempt

/-! ## The calls of a turn -/

namespace Engine

variable {e : Engine σ} {ledger : σ → List Event}

/-- Where a turn calls, its group draws, a member is drawn, the engine is not leashed, and all calls
are about that member. They meet the ledger that the log was asked about, if the client spares it. -/
theorem turnCalls_cases (now : Instant) (t : Turn σ) :
    e.turnCalls now t = [] ∨ ∃ id, e.Draws now t.group t.world ∧
      e.drawn t.group t.seed = .member id ∧ e.config.leashed = false ∧
      ∀ c ∈ e.turnCalls now t, c.1.instanceId = id ∧
        (e.client.Spares ledger → ledger c.2 = ledger (e.asked now t.group t.world).2) := by
  have hcalls : e.turnCalls now t =
      (e.watched.judge now t.group t.seed ⟨t.world, []⟩).2.calls := by
    rw [turnCalls, callsOf, evaluate_world]
  have hjudged := e.watched.judged now t.group t.seed ⟨t.world, []⟩
  rw [hcalls]
  generalize e.watched.judge now t.group t.seed ⟨t.world, []⟩ = verdict at hjudged ⊢
  cases hjudged with
  | disrupted id hd hdrawn hleashed =>
    right
    refine ⟨id, ⟨⟨hd.inTime, hd.enabled, hd.inhabited⟩, hd.unspent⟩, hdrawn, hleashed, ?_⟩
    rw [disrupt_run]
    -- Which instance the calls are about does not hang on the ledger, so a view that shows nothing
    -- will do for it.
    have habout {view : σ → List Event} (h : e.client.Spares view) :=
      Attempt.perform_keepsTo h e.config.fallbackScript id (e.config.disruption t.group.name)
    intro c hc
    exact ⟨((habout e.client.spares_nothing).about hc).1, fun h => ((habout h).about hc).2⟩
  | _ => exact .inl rfl

theorem mem_of_mem_turnsFrom {now : Instant} {seeded : List (Group × UInt64)} {s : σ} {t : Turn σ}
    (h : t ∈ e.turnsFrom now seeded s) : (t.group, t.seed) ∈ seeded := by
  induction seeded generalizing s with
  | nil => cases h
  | cons turn more ih =>
    rcases List.mem_cons.mp h with rfl | h
    · exact List.mem_cons_self
    · exact List.mem_cons_of_mem _ (ih h)

/-- A turn is the turn of a group that was crawled and that the lists let through. -/
theorem listed_of_mem_turns {now : Instant} {r : Running σ} {t : Turn σ}
    (h : t ∈ e.turns now r) :
    (∃ groups, (e.crawled r.world).1 = .ok groups ∧ t.group ∈ groups) ∧
      e.config.isListed t.group.name = true := by
  rw [turns] at h
  split at h
  · cases h
  · rename_i groups hcrawled
    have hmem := (List.of_mem_zip (mem_of_mem_turnsFrom h)).1
    obtain ⟨hmem, hlisted⟩ := List.mem_filter.mp hmem
    exact ⟨⟨groups, hcrawled, hmem⟩, hlisted⟩

/-- Whether all events of a group since an instant were skipped. -/
def OnlySkipped (es : List Event) (group : String) (start : Instant) : Prop :=
  ∀ ev ∈ es, ev.group = group → start ≤ ev.time → ev.outcome = .skipped

/-- What has to hold for a call about an instance in a turn. The ledger is the one that the log was
asked about before the group drew. -/
structure Cleared (e : Engine σ) (ledger : σ → List Event) (now : Instant) (r : Running σ)
    (t : Turn σ) (id : String) : Prop where
  crawled : ∃ groups, (e.crawl e.config.allow r.world).1 = .ok groups ∧ t.group ∈ groups
  member : id ∈ t.group.members
  switchedOn : e.config.enabled = true
  enabled : ((e.config.policy? t.group.name).bind (·.enabled)).getD
    e.config.groupDefaults.enabled = true
  allowed : e.config.allow = [] ∨ t.group.name ∈ e.config.allow
  notDenied : t.group.name ∉ e.config.deny
  inTime : (e.elapsed t.world).1 < e.deadline
  unleashed : e.config.leashed = false
  unspent : OnlySkipped (ledger (e.asked now t.group t.world).2) t.group.name
    (windowStart now e.config.window)
  probable : Binary64.zero.lt (e.config.probability t.group.name) = true
  rolled : (Draw.rollOf t.seed).lt (e.config.probability t.group.name) = true

/-- The ledger that a group draws under holds only skipped events of its window. -/
theorem Draws.skipped (hlog : e.log.Tells ledger) {now : Instant} {g : Group} {s : σ}
    (hd : e.Draws now g s) :
    OnlySkipped (ledger (e.asked now g s).2) g.name (windowStart now e.config.window) := by
  intro ev hev hgroup htime
  rw [asked, hlog.asking] at hev
  have hnone := List.any_eq_false.mp (hlog.answer _ _ _ _ hd.unspent).symm ev hev
  simp only [Event.countsFor, hgroup, htime, beq_self_eq_true, decide_true, Bool.true_and] at hnone
  cases hout : ev.outcome with
  | skipped => rfl
  | _ => rw [hout] at hnone; exact absurd rfl hnone

end Engine

/-- The calls of a cycle are those of its turns, and all calls of a turn are about one instance that
is cleared for them. The ledger holds only skipped events of the window at each of these calls, too,
if the client leaves it alone. -/
theorem Engine.calls_cleared {e : Engine σ} {ledger : σ → List Event} (hlog : e.log.Tells ledger)
    (now : Instant) (r : Running σ) :
    e.calls now r = (e.turns now r).flatMap (e.turnCalls now) ∧
      ∀ t ∈ e.turns now r, ∃ id, ∀ c ∈ e.turnCalls now t,
        c.1.instanceId = id ∧ e.Cleared ledger now r t id ∧
          (e.client.Spares ledger →
            OnlySkipped (ledger c.2) t.group.name (windowStart now e.config.window)) := by
  refine ⟨calls_eq e now r, ?_⟩
  intro t ht
  obtain ⟨hcrawled, hlisted⟩ := listed_of_mem_turns ht
  rw [Config.isListed, Bool.and_eq_true] at hlisted
  rcases turnCalls_cases now t with hnone | ⟨id, hd, hdrawn, hleashed, hcalls⟩
  · exact ⟨"", by rw [hnone]; intro c hc; cases hc⟩
  · obtain ⟨hmember, hprobable, hrolled⟩ := Draw.select_eq_member hdrawn
    have hskipped := hd.skipped hlog
    have henabled := hd.enabled
    rw [Config.groupEnabled, Bool.and_eq_true] at henabled
    refine ⟨id, ?_⟩
    intro c hc
    obtain ⟨habout, hmeets⟩ := hcalls c hc
    refine ⟨habout, ?_, ?_⟩
    · exact {
        crawled := hcrawled
        member := hmember
        switchedOn := henabled.1
        enabled := henabled.2
        allowed := by simpa using hlisted.1
        notDenied := by simpa using hlisted.2
        inTime := hd.inTime
        unleashed := hleashed
        unspent := hskipped
        probable := hprobable
        rolled := hrolled }
    · intro hspares
      rw [hmeets hspares]
      exact hskipped

/-- A drill of a group with two members, whose client cannot terminate and runs a script instead. -/
def Engine.fallingBack : Engine (List Event × Unit) :=
  .beside { Config.standard with
      groupDefaults := ⟨true, .ofNat 1, .terminate⟩
      fallbackScript := some Script.shutdown }
    (fun _ n => (.ok [⟨"web", .localMachines, ["i-1", "i-2"]⟩], n))
    { backend := "local"
      terminate := fun _ n => (.error (.unsupported "local" "terminate"), n)
      credentials := fun _ n => (.ok (.withPassword "root" "secret"), n)
      runScript := fun _ _ _ n => (.ok ⟨0, "", ""⟩, n) }
    (fun n => (0, n))

theorem Engine.fallingBack_keeps : fallingBack.Keeps Prod.fst := beside_keeps ..

/-- Termination, login and script of the drill that falls back are all about one member. -/
theorem fallingBack_calls_cleared :
    ((Engine.fallingBack.calls ⟨0, 0⟩ ⟨.seeded 7, [], ()⟩).map (·.1.instanceId) =
        ["i-2", "i-2", "i-2"]) ∧
      Engine.fallingBack.calls ⟨0, 0⟩ ⟨.seeded 7, [], ()⟩ =
        (Engine.fallingBack.turns ⟨0, 0⟩ ⟨.seeded 7, [], ()⟩).flatMap
          (Engine.fallingBack.turnCalls ⟨0, 0⟩) ∧
      ∀ t ∈ Engine.fallingBack.turns ⟨0, 0⟩ ⟨.seeded 7, [], ()⟩, ∃ id,
        ∀ c ∈ Engine.fallingBack.turnCalls ⟨0, 0⟩ t,
          c.1.instanceId = id ∧
            Engine.fallingBack.Cleared Prod.fst ⟨0, 0⟩ ⟨.seeded 7, [], ()⟩ t id ∧
            (Engine.fallingBack.client.Spares Prod.fst →
              Engine.OnlySkipped c.2.1 t.group.name
                (windowStart ⟨0, 0⟩ Engine.fallingBack.config.window)) :=
  ⟨by decide +kernel,
    Engine.calls_cleared Engine.fallingBack_keeps.log.toTells ⟨0, 0⟩ ⟨.seeded 7, [], ()⟩⟩

end FaultDrill
