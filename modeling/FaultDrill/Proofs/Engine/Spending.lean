import FaultDrill.Proofs.Engine.Keeping
import FaultDrill.Proofs.Instant.Window
/-!
# Spending windows

What a run of cycles adds to the ledger. A cycle as of `now` adds an event only where nothing
counts for its group since the start of the window of `now` (`cycle_grown`), and the event is not
older than `now`. So in the order of the ledger the counting events of a group stand in windows with
ever higher numbers, in whatever order the cycles came.
-/
namespace FaultDrill

/-- An event that a cycle as of `now` may add: no older than `now`, for a group with no counting
event in the ledger since the window of `now` began. -/
structure Event.Timely (window : Span) (now : Instant) (log : List Event) (ev : Event) : Prop where
  time : ∃ n, ev.time = now.after n
  unspent : log.any (·.countsFor ev.group (windowStart now window)) = false

namespace Engine

variable {e : Engine σ} {ledger : σ → List Event}

/-- A negative answer of the log is about the ledger as the turn found it. -/
theorem Draws.any_countsFor (h : e.Keeps ledger) {now : Instant} {g : Group} {s : σ}
    (hd : e.Draws now g s) :
    (ledger s).any (·.countsFor g.name (windowStart now e.config.window)) = false := by
  rw [← h.elapsed s]
  exact (h.log.answer _ _ _ _ hd.unspent).symm

/-- A turn leaves the ledger as it is or adds one timely event. -/
theorem judge_grown (h : e.Keeps ledger) (now : Instant) (g : Group) (seed : UInt64) (s : σ) :
    Grown (Event.Timely e.config.window now) (ledger s) (ledger (e.judge now g seed s).2) := by
  have hasked := asked_leaves h.adds now g s
  -- A turn that ends before anything was tried leaves the ledger as it is.
  have hstill {s' : σ} (hs : ledger s' = ledger s) :
      Grown (Event.Timely e.config.window now) (ledger s) (ledger s') := by
    rw [hs]
    exact .refl _
  have hjudged := e.judged now g seed s
  generalize e.judge now g seed s = verdict at hjudged ⊢
  cases hjudged with
  | late => exact hstill (h.elapsed s)
  | disabled => exact hstill (h.elapsed s)
  | empty => exact hstill (h.elapsed s)
  | unread => exact hstill hasked
  | alreadyHit => exact hstill hasked
  | passed => exact hstill hasked
  | nobody => exact hstill hasked
  | leashed => exact hstill hasked
  | disrupted id hd =>
    rw [disrupt_run]
    have hrec := recorded_leaves h.adds now g id (e.asked now g s).2
    cases hr : (e.appended now g id (e.asked now g s).2).1 with
    | ok _ =>
      rw [appended, h.log.append_ok _ _ hr, hrec, hasked]
      exact .snoc (.refl _) ⟨recorded_time .., hd.any_countsFor h⟩
    | error why =>
      rw [appended, h.log.append_error _ _ why hr]
      exact hstill (hrec.trans hasked)

theorem evaluateAll_grown (h : e.Keeps ledger) (now : Instant) (seeded : List (Group × UInt64))
    (s : σ) :
    Grown (Event.Timely e.config.window now) (ledger s)
      (ledger (e.evaluateAll now seeded s).2) := by
  induction seeded generalizing s with
  | nil => exact .refl _
  | cons turn more ih =>
    obtain ⟨g, seed⟩ := turn
    have hfirst := judge_grown h now g seed s
    rw [← evaluate_world] at hfirst
    rw [evaluateAll_cons]
    generalize e.evaluate now g seed s = first at hfirst ⊢
    exact hfirst.trans (ih first.2)

theorem cycle_grown (h : e.Keeps ledger) (now : Instant) (r : Running σ) :
    Grown (Event.Timely e.config.window now) (ledger r.world)
      (ledger (e.cycle now r).2.world) := by
  have hcrawl : ledger (e.crawled r.world).2 = ledger r.world := h.crawl _ _
  cases hc : (e.crawled r.world).1 with
  | error why =>
    rw [cycle_of_crawl_error hc, hcrawl]
    exact .refl _
  | ok groups =>
    have hturns := evaluateAll_grown h now (e.seeded r.draws groups) (e.crawled r.world).2
    rw [hcrawl] at hturns
    rw [cycle_of_crawl_ok hc]
    split
    · exact hturns
    · rw [h.elapsed]
      exact hturns

/-- What goes on after cycles as of the given times, in their order. -/
def afterCycles (e : Engine σ) : List Instant → Running σ → Running σ
  | [], r => r
  | now :: more, r => e.afterCycles more (e.cycle now r).2

theorem afterCycles_grown (h : e.Keeps ledger) (times : List Instant) (r : Running σ) :
    Grown (fun log ev => ∃ now ∈ times, Event.Timely e.config.window now log ev)
      (ledger r.world) (ledger (e.afterCycles times r).world) := by
  induction times generalizing r with
  | nil => exact .refl _
  | cons now more ih =>
    have hfirst := (cycle_grown h now r).mono
      (Q := fun log ev => ∃ t ∈ now :: more, Event.Timely e.config.window t log ev)
      fun _ _ hev => ⟨now, by simp, hev⟩
    refine hfirst.trans ((ih (e.cycle now r).2).mono ?_)
    rintro log ev ⟨t, ht, hev⟩
    exact ⟨t, by simp [ht], hev⟩

end Engine

/-! ## Windows of the events in a ledger -/

namespace Event

/-- An event behind all counting events of its group: its window has a higher number than theirs. -/
def Ascends (w : Nat) (log : List Event) (ev : Event) : Prop :=
  ∀ old ∈ log, old.group = ev.group → old.outcome.counts = true →
    old.time.windowIndex w < ev.time.windowIndex w

/-- Whether an event spends the window with a number. -/
def spends (w : Nat) (group : String) (index : Int) (ev : Event) : Bool :=
  ev.group == group && ev.outcome.counts && ev.time.windowIndex w == index

theorem Timely.noLeap {window : Span} {now : Instant} {log : List Event} {ev : Event}
    (h : ev.Timely window now log) (hnow : now.OnClock) : ¬ ev.time.inLeapSecond := by
  obtain ⟨n, hn⟩ := h.time
  rw [hn]
  exact Instant.inLeapSecond_after hnow.noLeap n

theorem Timely.ascends {window : Span} {now : Instant} {log : List Event} {ev : Event}
    (h : ev.Timely window now log) (hnow : now.OnClock) (hpos : 1 ≤ window.millis)
    (hlt : window.millis < twoPow 63) (hlog : ∀ old ∈ log, ¬ old.time.inLeapSecond) :
    ev.Ascends window.millis log := by
  intro old hold hgroup hcounts
  obtain ⟨n, hn⟩ := h.time
  have hunspent := List.any_eq_false.mp h.unspent old hold
  simp only [countsFor, hgroup, hcounts, beq_self_eq_true, Bool.true_and, Bool.and_true,
    decide_eq_true_eq, windowStart_le_iff hnow hpos hlt (hlog old hold), Int.not_le] at hunspent
  have hle := Instant.windowIndex_le_after hnow.noLeap n hpos
  rw [hn]
  omega

theorem Ascends.countP_spends_eq_zero {w : Nat} {log : List Event} {ev : Event}
    (h : ev.Ascends w log) {group : String} {index : Int} (hev : ev.spends w group index = true) :
    log.countP (spends w group index) = 0 := by
  rw [List.countP_eq_zero]
  intro old hold hspends
  simp only [spends, Bool.and_eq_true, beq_iff_eq] at hev hspends
  have := h old hold (hspends.1.1.trans hev.1.1.symm) hspends.1.2
  omega

theorem countP_spends_snoc {w : Nat} {log : List Event} {ev : Event} (h : ev.Ascends w log)
    (group : String) (index : Int) :
    (log ++ [ev]).countP (spends w group index) ≤ max 1 (log.countP (spends w group index)) := by
  rw [List.countP_append, List.countP_singleton]
  split
  · rw [h.countP_spends_eq_zero ‹_›]
    omega
  · omega

end Event

namespace Grown

variable {window : Span} {times : List Instant} {l m : List Event}

/-- Over timely events that are on a clock no event of the ledger comes to lie in a leap second. -/
theorem noLeap_of_timely (htimes : ∀ now ∈ times, now.OnClock)
    (h : Grown (fun log ev => ∃ now ∈ times, Event.Timely window now log ev) l m)
    (hl : ∀ old ∈ l, ¬ old.time.inLeapSecond) : ∀ old ∈ m, ¬ old.time.inLeapSecond := by
  induction h with
  | refl => exact hl
  | snoc _ hev ih =>
    obtain ⟨now, hnow, htimely⟩ := hev
    intro old hold
    rcases List.mem_append.mp hold with hold | hold
    · exact ih old hold
    · obtain rfl := List.mem_singleton.mp hold
      exact htimely.noLeap (htimes now hnow)

theorem ascends_of_timely (htimes : ∀ now ∈ times, now.OnClock) (hpos : 1 ≤ window.millis)
    (hlt : window.millis < twoPow 63)
    (h : Grown (fun log ev => ∃ now ∈ times, Event.Timely window now log ev) l m)
    (hl : ∀ old ∈ l, ¬ old.time.inLeapSecond) :
    Grown (fun log ev => ev.Ascends window.millis log) l m := by
  induction h with
  | refl => exact .refl _
  | snoc hprev hev ih =>
    obtain ⟨now, hnow, htimely⟩ := hev
    exact .snoc ih
      (htimely.ascends (htimes now hnow) hpos hlt (noLeap_of_timely htimes hprev hl))

theorem countP_spends_le {w : Nat} (h : Grown (fun log ev => ev.Ascends w log) l m)
    (group : String) (index : Int) :
    m.countP (Event.spends w group index) ≤ max 1 (l.countP (Event.spends w group index)) := by
  induction h with
  | refl => omega
  | snoc _ hev ih =>
    have := Event.countP_spends_snoc hev group index
    omega

end Grown

/-- How a ledger `l` may become `m`: by events at its end, each counting or not, that stand in a window
with a higher number than every counting event of their group before them; so that no window is
spent a second time. -/
def AscendsFrom (w : Nat) (l m : List Event) : Prop :=
  ∃ added, m = l ++ added ∧
    (∀ before ev after, added = before ++ ev :: after →
      ∀ old ∈ l ++ before, old.group = ev.group → old.outcome.counts = true →
        old.time.windowIndex w < ev.time.windowIndex w) ∧
    ∀ group index, m.countP (Event.spends w group index) ≤
      max 1 (l.countP (Event.spends w group index))

/-- A run of cycles, in whatever order their times come, lets the ledger only ascend. -/
theorem Engine.afterCycles_ascendsFrom {e : Engine σ} {ledger : σ → List Event} (h : e.Keeps ledger)
    (hpos : 1 ≤ e.config.window.millis) (hlt : e.config.window.millis < twoPow 63)
    (times : List Instant) (htimes : ∀ now ∈ times, now.OnClock) (r : Running σ)
    (hold : ∀ old ∈ ledger r.world, ¬ old.time.inLeapSecond) :
    AscendsFrom e.config.window.millis (ledger r.world)
      (ledger (e.afterCycles times r).world) := by
  have hgrown := (afterCycles_grown h times r).ascends_of_timely htimes hpos hlt hold
  obtain ⟨added, heq, hadded⟩ := hgrown.exists_append
  exact ⟨added, heq, hadded, fun group index => hgrown.countP_spends_le group index⟩

/-- A drill of one group with one member, which it terminates at every chance. Every look at the
clock finds forty seconds more. -/
def Engine.patient : Engine (List Event × Nat) :=
  .beside { Config.standard with
      window := .seconds 60
      groupDefaults := ⟨true, .ofNat 1, .terminate⟩ }
    (fun _ n => (.ok [⟨"web", .cloud, ["i-1"]⟩], n))
    { backend := "command"
      terminate := fun _ n => (.ok (), n)
      credentials := fun id n => (.error (.credentialsDisabled id), n)
      runScript := fun id _ _ n => (.error (.instanceNotFound id), n) }
    (fun n => (n, n + 40000000000))

theorem Engine.patient_keeps : patient.Keeps Prod.fst := beside_keeps ..

/-- Three cycles of the patient drill, the last one back in the window of the first. The first event
lies in the cycle's own window, the second four windows on, and the third cycle adds none. -/
theorem patient_ascendsFrom :
    ((Engine.patient.afterCycles [⟨0, 0⟩, ⟨100, 0⟩, ⟨50, 0⟩] ⟨.seeded 7, [], 0⟩).world.1.map
        (·.time.windowIndex 60000)) = [0, 4] ∧
      AscendsFrom 60000 []
        (Engine.patient.afterCycles [⟨0, 0⟩, ⟨100, 0⟩, ⟨50, 0⟩] ⟨.seeded 7, [], 0⟩).world.1 := by
  have htimes : ∀ now ∈ [⟨0, 0⟩, ⟨100, 0⟩, (⟨50, 0⟩ : Instant)], now.OnClock := by
    intro now hnow
    simp only [List.mem_cons, List.not_mem_nil, or_false] at hnow
    rcases hnow with rfl | rfl | rfl <;> exact ⟨by decide, by decide, by decide⟩
  refine ⟨by decide +kernel, ?_⟩
  exact Engine.afterCycles_ascendsFrom Engine.patient_keeps (by decide) (by decide) _ htimes
    ⟨.seeded 7, [], 0⟩ (by intro old hold; cases hold)

end FaultDrill
