import FaultDrill.Engine
/-!
# The turn of a group

In a cycle each listed group has its turn. `Judged` lists the ways in which a turn may go, each with
what was found on the way and the world that it leaves; `judged` says that there are no others.
Statements about cycles split on these cases and leave the engine's own definitions closed.
-/
namespace FaultDrill

theorem bind_run (m : StateM σ α) (f : α → StateM σ β) (s : σ) :
    (m >>= f) s = f (m s).1 (m s).2 := rfl

theorem pure_run (a : α) (s : σ) : (pure a : StateM σ α) s = (a, s) := rfl

-- Stated for any pair: on the pair of a verdict and its world the kernel would open the verdict to
-- compare the two sides, and count the deadline down one by one.
theorem snd_of_eq {p : α × β} {a : α} {b : β} (h : p = (a, b)) : p.2 = b := by rw [h]

theorem fst_of_eq {p : α × β} {a : α} {b : β} (h : p = (a, b)) : p.1 = a := by rw [h]

namespace Engine

/-- The nanoseconds that a cycle has. -/
def deadline (e : Engine σ) : Nat := e.config.cycleDeadline.millis * 1000000

/-- The log's answer on a group, with the clock looked at before. -/
def asked (e : Engine σ) (now : Instant) (g : Group) (s : σ) : Except Fault Bool × σ :=
  e.log.hasRecent g.name (windowStart now e.config.window) (e.elapsed s).2

/-- What the draws of a group come to. -/
def drawn (e : Engine σ) (g : Group) (seed : UInt64) : Draw.Selection :=
  Draw.select (e.eligibility g) g.members seed

/-- A group that the log is asked about: in time, enabled and with members. -/
structure Asks (e : Engine σ) (g : Group) (s : σ) : Prop where
  inTime : (e.elapsed s).1 < e.deadline
  enabled : e.config.groupEnabled g.name = true
  inhabited : g.isEmpty = false

/-- A group that draws: its window is unspent by the log. -/
structure Draws (e : Engine σ) (now : Instant) (g : Group) (s : σ) : Prop
    extends e.Asks g s where
  unspent : (e.asked now g s).1 = .ok false

/-- How the verdict on a group comes about, and the world after it. -/
inductive Judged (e : Engine σ) (now : Instant) (g : Group) (seed : UInt64) (s : σ) :
    Except Fault Verdict × σ → Prop where
  | late (h : e.deadline ≤ (e.elapsed s).1) :
    Judged e now g seed s (.ok .deadlineExceeded, (e.elapsed s).2)
  | disabled (h : e.config.groupEnabled g.name = false) :
    Judged e now g seed s (.ok .disabled, (e.elapsed s).2)
  | empty (h : g.isEmpty = true) : Judged e now g seed s (.ok .emptyGroup, (e.elapsed s).2)
  | unread (why : Fault) (ha : e.Asks g s) (h : (e.asked now g s).1 = .error why) :
    Judged e now g seed s (.error why, (e.asked now g s).2)
  | alreadyHit (ha : e.Asks g s) (h : (e.asked now g s).1 = .ok true) :
    Judged e now g seed s (.ok .alreadyHit, (e.asked now g s).2)
  | passed (roll : Binary64) (h : e.Draws now g s) (hd : e.drawn g seed = .passed roll) :
    Judged e now g seed s
      (.ok (.notSelected roll (e.config.probability g.name)), (e.asked now g s).2)
  | nobody (h : e.Draws now g s) (hd : e.drawn g seed = .nobody) :
    Judged e now g seed s (.ok .emptyGroup, (e.asked now g s).2)
  | leashed (id : String) (h : e.Draws now g s) (hd : e.drawn g seed = .member id)
    (hl : e.config.leashed = true) :
    Judged e now g seed s (.ok (.leashed id), (e.asked now g s).2)
  | disrupted (id : String) (h : e.Draws now g s) (hd : e.drawn g seed = .member id)
    (hl : e.config.leashed = false) :
    Judged e now g seed s (e.disrupt now g id (e.asked now g s).2)

theorem isLate_run (e : Engine σ) (s : σ) :
    e.isLate s = (decide (e.deadline ≤ (e.elapsed s).1), (e.elapsed s).2) := by
  rw [deadline]
  rfl

theorem asked_run (e : Engine σ) (now : Instant) (g : Group) (s : σ) :
    e.log.hasRecent g.name (windowStart now e.config.window) (e.elapsed s).2 = e.asked now g s := rfl

section Judging

variable {e : Engine σ} {g : Group} {s : σ}

theorem judge_of_late (h : e.deadline ≤ (e.elapsed s).1) (now : Instant) (seed : UInt64) :
    e.judge now g seed s = (.ok .deadlineExceeded, (e.elapsed s).2) := by
  rw [judge, bind_run, isLate_run, if_pos (by simpa using h), pure_run]

/-- In time the clock is of no more interest. -/
theorem judge_of_inTime (h : (e.elapsed s).1 < e.deadline) (now : Instant) (seed : UInt64) :
    e.judge now g seed s = (if !e.config.groupEnabled g.name then pure (.ok .disabled)
      else if g.isEmpty then pure (.ok .emptyGroup)
      else do
        match ← e.log.hasRecent g.name (windowStart now e.config.window) with
        | .error why => return .error why
        | .ok true => return .ok .alreadyHit
        | .ok false => e.actOn now g (e.drawn g seed) : StateM σ (Except Fault Verdict))
        (e.elapsed s).2 := by
  rw [judge, bind_run, isLate_run, if_neg (by simpa using h)]
  rfl

theorem judge_of_disabled (h : (e.elapsed s).1 < e.deadline)
    (hoff : e.config.groupEnabled g.name = false) (now : Instant) (seed : UInt64) :
    e.judge now g seed s = (.ok .disabled, (e.elapsed s).2) := by
  rw [judge_of_inTime h, if_pos (by rw [hoff]; rfl), pure_run]

theorem judge_of_empty (h : (e.elapsed s).1 < e.deadline)
    (hon : e.config.groupEnabled g.name = true) (hempty : g.isEmpty = true) (now : Instant)
    (seed : UInt64) : e.judge now g seed s = (.ok .emptyGroup, (e.elapsed s).2) := by
  rw [judge_of_inTime h, if_neg (by rw [hon]; decide), if_pos hempty, pure_run]

theorem judge_of_asks (h : e.Asks g s) (now : Instant) (seed : UInt64) :
    e.judge now g seed s = (match (e.asked now g s).1 with
      | .error why => pure (.error why)
      | .ok true => pure (.ok .alreadyHit)
      | .ok false => e.actOn now g (e.drawn g seed) : StateM σ (Except Fault Verdict))
        (e.asked now g s).2 := by
  rw [judge_of_inTime h.inTime, if_neg (by rw [h.enabled]; decide),
    if_neg (by rw [h.inhabited]; decide), bind_run, asked_run]

theorem judge_of_draws {now : Instant} (h : e.Draws now g s) (seed : UInt64) :
    e.judge now g seed s = e.actOn now g (e.drawn g seed) (e.asked now g s).2 := by
  rw [judge_of_asks h.toAsks, h.unspent]

end Judging

/-- A turn goes in one of the listed ways. -/
theorem judged (e : Engine σ) (now : Instant) (g : Group) (seed : UInt64) (s : σ) :
    e.Judged now g seed s (e.judge now g seed s) := by
  by_cases hlate : e.deadline ≤ (e.elapsed s).1
  · rw [judge_of_late hlate]
    exact .late hlate
  have htime : (e.elapsed s).1 < e.deadline := Nat.lt_of_not_le hlate
  cases henabled : e.config.groupEnabled g.name with
  | false =>
    rw [judge_of_disabled htime henabled]
    exact .disabled henabled
  | true =>
    cases hempty : g.isEmpty with
    | true =>
      rw [judge_of_empty htime henabled hempty]
      exact .empty hempty
    | false =>
      have hasks : e.Asks g s := ⟨htime, henabled, hempty⟩
      rw [judge_of_asks hasks]
      cases hasked : (e.asked now g s).1 with
      | error why => exact .unread why hasks hasked
      | ok hit =>
        cases hit with
        | true => exact .alreadyHit hasks hasked
        | false =>
          have hdraws : e.Draws now g s := ⟨hasks, hasked⟩
          cases hdrawn : e.drawn g seed with
          | passed roll => exact .passed roll hdraws hdrawn
          | nobody => exact .nobody hdraws hdrawn
          | member id =>
            cases hleashed : e.config.leashed with
            | true =>
              rw [actOn, if_pos hleashed]
              exact .leashed id hdraws hdrawn hleashed
            | false =>
              rw [actOn, if_neg (by rw [hleashed]; decide)]
              exact .disrupted id hdraws hdrawn hleashed

/-! ## Disruptions -/

/-- The attempt on an instance, made as the group's settings say. -/
def attempted (e : Engine σ) (g : Group) (id : String) (s : σ) : Attempt × σ :=
  Attempt.perform e.client e.config.fallbackScript id (e.config.disruption g.name) s

/-- The event of an attempt, with the clock looked at after it, and the world in which it is added to
the log. -/
def recorded (e : Engine σ) (now : Instant) (g : Group) (id : String) (s : σ) : Event × σ :=
  let (attempt, s) := e.attempted g id s
  let (n, s) := e.elapsed s
  (⟨g.name, g.kind, id, attempt.disruption, now.after n, attempt.outcome, attempt.detail⟩, s)

/-- The log's answer to the event of an attempt. -/
def appended (e : Engine σ) (now : Instant) (g : Group) (id : String) (s : σ) :
    Except Fault Unit × σ :=
  e.log.append (e.recorded now g id s).1 (e.recorded now g id s).2

theorem disrupt_of_appended (e : Engine σ) (now : Instant) (g : Group) (id : String) (s : σ) :
    e.disrupt now g id s = (match (e.appended now g id s).1 with
      | .ok () => pure (.ok (.disrupted id (e.recorded now g id s).1.outcome))
      | .error why => pure (.error why) : StateM σ (Except Fault Verdict))
        (e.appended now g id s).2 := rfl

theorem disrupt_run (e : Engine σ) (now : Instant) (g : Group) (id : String) (s : σ) :
    e.disrupt now g id s =
      ((e.appended now g id s).1.map fun _ => .disrupted id (e.recorded now g id s).1.outcome,
        (e.appended now g id s).2) := by
  rw [disrupt_of_appended]
  cases (e.appended now g id s).1 <;> rfl

theorem recorded_time (e : Engine σ) (now : Instant) (g : Group) (id : String) (s : σ) :
    ∃ n, (e.recorded now g id s).1.time = now.after n := ⟨_, rfl⟩

/-! ## Whole cycles -/

theorem evaluate_run (e : Engine σ) (now : Instant) (g : Group) (seed : UInt64) (s : σ) :
    e.evaluate now g seed s =
      ((e.judge now g seed s).1.map (⟨g.name, g.kind, g.members.length, ·⟩),
        (e.judge now g seed s).2) := by
  rw [evaluate, bind_run]
  cases (e.judge now g seed s).1 <;> rfl

theorem evaluate_world (e : Engine σ) (now : Instant) (g : Group) (seed : UInt64) (s : σ) :
    (e.evaluate now g seed s).2 = (e.judge now g seed s).2 :=
  snd_of_eq (e.evaluate_run now g seed s)

theorem evaluateAll_cons (e : Engine σ) (now : Instant) (g : Group) (seed : UInt64)
    (more : List (Group × UInt64)) (s : σ) :
    e.evaluateAll now ((g, seed) :: more) s =
      ((e.evaluate now g seed s).1 :: (e.evaluateAll now more (e.evaluate now g seed s).2).1,
        (e.evaluateAll now more (e.evaluate now g seed s).2).2) := by
  rw [evaluateAll, bind_run, bind_run, pure_run]

/-- The result of a crawl and the world after it. -/
def crawled (e : Engine σ) (s : σ) : Except Fault (List Group) × σ := e.crawl e.config.allow s

/-- The listed groups of a crawl, each with its seed. -/
def seeded (e : Engine σ) (draws : Draw.Source) (groups : List Group) : List (Group × UInt64) :=
  (e.listed groups).zip (draws.words64 (e.listed groups).length).1

theorem seeded_groups (e : Engine σ) (draws : Draw.Source) (groups : List Group) :
    (e.seeded draws groups).map Prod.fst = e.listed groups := by
  rw [seeded, List.map_fst_zip]
  exact Nat.le_of_eq (Draw.Source.length_words64 ..).symm

theorem crawl_run (e : Engine σ) (r : Running σ) :
    Running.onWorld (e.crawl e.config.allow) r =
      ((e.crawled r.world).1, ⟨r.draws, (e.crawled r.world).2⟩) := rfl

theorem seeds_run (n : Nat) (r : Running σ) :
    seeds n r = ((r.draws.words64 n).1, ⟨(r.draws.words64 n).2, r.world⟩) := rfl

theorem zip_words (e : Engine σ) (draws : Draw.Source) (groups : List Group) :
    (e.listed groups).zip (draws.words64 (e.listed groups).length).1 = e.seeded draws groups := rfl

/-- The running engine when the crawl is over. -/
def opened (e : Engine σ) (r : Running σ) (groups : List Group) : Running σ :=
  ⟨(r.draws.words64 (e.listed groups).length).2, (e.crawled r.world).2⟩

theorem opening_of_crawl_error {e : Engine σ} {r : Running σ} {why : Fault}
    (h : (e.crawled r.world).1 = .error why) :
    e.opening r = (.error why, ⟨r.draws, (e.crawled r.world).2⟩) := by
  rw [opening, bind_run, crawl_run, h]
  rfl

theorem opening_of_crawl_ok {e : Engine σ} {r : Running σ} {groups : List Group}
    (h : (e.crawled r.world).1 = .ok groups) :
    e.opening r = (.ok (e.seeded r.draws groups), e.opened r groups) := by
  rw [opening, bind_run, crawl_run, h]
  simp only [bind_run, seeds_run, zip_words]
  rfl

theorem closing_run (e : Engine σ) (now : Instant) (results : List (Except Fault GroupReport))
    (r : Running σ) :
    e.closing now results r =
      match allOrFirst results with
      | .error why => (.error why, r)
      | .ok reports =>
        (.ok ⟨now, now.after (e.elapsed r.world).1, windowStart now e.config.window, reports⟩,
          ⟨r.draws, (e.elapsed r.world).2⟩) := by
  rw [closing]
  cases allOrFirst results <;> rfl

theorem cycle_of_crawl_error {e : Engine σ} {now : Instant} {r : Running σ} {why : Fault}
    (h : (e.crawled r.world).1 = .error why) :
    e.cycle now r = (.error why, ⟨r.draws, (e.crawled r.world).2⟩) := by
  rw [cycle, bind_run, opening_of_crawl_error h]
  rfl

/-- The world after all turns of a cycle. -/
def turnsEnd (e : Engine σ) (now : Instant) (r : Running σ) (groups : List Group) : σ :=
  (e.evaluateAll now (e.seeded r.draws groups) (e.crawled r.world).2).2

theorem turns_run (e : Engine σ) (now : Instant) (r : Running σ) (groups : List Group) :
    Running.onWorld (e.evaluateAll now (e.seeded r.draws groups)) (e.opened r groups) =
      ((e.evaluateAll now (e.seeded r.draws groups) (e.crawled r.world).2).1,
        ⟨(r.draws.words64 (e.listed groups).length).2, e.turnsEnd now r groups⟩) := rfl

theorem cycle_of_crawl_ok {e : Engine σ} {now : Instant} {r : Running σ} {groups : List Group}
    (h : (e.crawled r.world).1 = .ok groups) :
    e.cycle now r =
      match allOrFirst (e.evaluateAll now (e.seeded r.draws groups) (e.crawled r.world).2).1 with
      | .error why =>
        (.error why, ⟨(r.draws.words64 (e.listed groups).length).2, e.turnsEnd now r groups⟩)
      | .ok reports =>
        (.ok ⟨now, now.after (e.elapsed (e.turnsEnd now r groups)).1,
            windowStart now e.config.window, reports⟩,
          ⟨(r.draws.words64 (e.listed groups).length).2,
            (e.elapsed (e.turnsEnd now r groups)).2⟩) := by
  rw [cycle, bind_run, opening_of_crawl_ok h]
  simp only [bind_run, turns_run, closing_run]

/-- The draws left over by a cycle depend on the number of listed groups alone. -/
theorem cycle_draws {e : Engine σ} {now : Instant} {r : Running σ} {groups : List Group}
    (hc : (e.crawled r.world).1 = .ok groups) :
    (e.cycle now r).2.draws = (r.draws.words64 (e.listed groups).length).2 := by
  rw [cycle_of_crawl_ok hc]
  split <;> rfl

end Engine
end FaultDrill
