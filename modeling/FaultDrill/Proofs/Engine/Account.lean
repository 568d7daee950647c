import Mathlib.Data.List.Forall2
import FaultDrill.Proofs.Engine.Clearance
/-!
# Accounts

What a cycle reports and what it adds to the ledger, turn by turn. Every listed group has one turn,
in the order of the crawl. A turn in which an attempt is made adds the event of the attempt, if the
log takes it; every other turn makes no call and leaves the ledger alone. So the ledger grows by the
entries of the turns in their order, and a report that is given names just these events in its
verdicts (`headlines_of_ok`).
-/
namespace FaultDrill

/-- What a report says of a group itself. -/
def GroupReport.subject (r : GroupReport) : String × GroupKind × Nat := (r.group, r.kind, r.members)

/-- What a report has to say of a group itself. -/
def Group.subject (g : Group) : String × GroupKind × Nat := (g.name, g.kind, g.members.length)

/-- What an event says of a disruption. -/
def Event.headline (ev : Event) : String × GroupKind × String × Outcome :=
  (ev.group, ev.kind, ev.instanceId, ev.outcome)

/-- What a report says of a disruption, if it tells of one. -/
def GroupReport.headline? (r : GroupReport) : Option (String × GroupKind × String × Outcome) :=
  match r.verdict with
  | .disrupted id outcome => some (r.group, r.kind, id, outcome)
  | _ => none

theorem GroupReport.headline?_eq_none {rep : GroupReport}
    (h : ∀ id outcome, rep.verdict ≠ .disrupted id outcome) : rep.headline? = none := by
  rw [headline?]
  split
  · rename_i hverdict
    exact absurd hverdict (h _ _)
  · rfl

namespace Engine

variable {e : Engine σ} {ledger : σ → List Event} {now : Instant} {t : Turn σ} {id : String}

/-! ## Turns that act -/

/-- A turn in which a member is drawn and the attempt on it is made. -/
structure Acts (e : Engine σ) (now : Instant) (t : Turn σ) (id : String) : Prop where
  draws : e.Draws now t.group t.world
  drawn : e.drawn t.group t.seed = .member id
  unleashed : e.config.leashed = false

/-- The event of the attempt in a turn, if it acts on an instance. -/
def eventOn (e : Engine σ) (now : Instant) (t : Turn σ) (id : String) : Event :=
  (e.recorded now t.group id (e.asked now t.group t.world).2).1

/-- What the log answers to that event, and the world after it. -/
def answerOn (e : Engine σ) (now : Instant) (t : Turn σ) (id : String) : Except Fault Unit × σ :=
  e.appended now t.group id (e.asked now t.group t.world).2

theorem Acts.judge_eq (h : e.Acts now t id) :
    e.judge now t.group t.seed t.world =
      ((e.answerOn now t id).1.map fun _ => .disrupted id (e.eventOn now t id).outcome,
        (e.answerOn now t id).2) := by
  have hjudged := e.judged now t.group t.seed t.world
  generalize e.judge now t.group t.seed t.world = verdict at hjudged ⊢
  cases hjudged with
  | late hlate => exact absurd h.draws.inTime (Nat.not_lt.mpr hlate)
  | disabled hoff => exact absurd (h.draws.enabled.symm.trans hoff) (by decide)
  | empty hempty => exact absurd (h.draws.inhabited.symm.trans hempty) (by decide)
  | unread why _ hasked => exact nomatch h.draws.unspent.symm.trans hasked
  | alreadyHit _ hasked => exact nomatch h.draws.unspent.symm.trans hasked
  | passed roll _ hdrawn => exact nomatch h.drawn.symm.trans hdrawn
  | nobody _ hdrawn => exact nomatch h.drawn.symm.trans hdrawn
  | leashed _ _ _ hleashed => exact absurd (h.unleashed.symm.trans hleashed) (by decide)
  | disrupted id' _ hdrawn =>
    obtain rfl : id = id' := by simpa using h.drawn.symm.trans hdrawn
    exact disrupt_run ..

/-- A turn that acts on nobody disrupts nobody, and leaves the world as the clock or the log did. -/
theorem judge_of_not_acts (h : ∀ id, ¬ e.Acts now t id) :
    (∀ id o, (e.judge now t.group t.seed t.world).1 ≠ .ok (.disrupted id o)) ∧
      ((e.judge now t.group t.seed t.world).2 = (e.elapsed t.world).2 ∨
        (e.judge now t.group t.seed t.world).2 = (e.asked now t.group t.world).2) := by
  have hjudged := e.judged now t.group t.seed t.world
  generalize e.judge now t.group t.seed t.world = verdict at hjudged ⊢
  cases hjudged with
  | late => exact ⟨nofun, .inl rfl⟩
  | disabled => exact ⟨nofun, .inl rfl⟩
  | empty => exact ⟨nofun, .inl rfl⟩
  | disrupted id hd hdrawn hleashed => exact absurd ⟨hd, hdrawn, hleashed⟩ (h id)
  | _ => exact ⟨nofun, .inr rfl⟩

theorem turnCalls_of_not_acts (h : ∀ id, ¬ e.Acts now t id) : e.turnCalls now t = [] := by
  rcases @turnCalls_cases σ e (fun _ => []) now t with hnone | ⟨id, hd, hdrawn, hleashed, -⟩
  · exact hnone
  · exact absurd ⟨hd, hdrawn, hleashed⟩ (h id)

/-! ## What comes of a turn -/

/-- What is reported of a turn, and the world that it leaves. -/
def turned (e : Engine σ) (now : Instant) (t : Turn σ) : Except Fault GroupReport × σ :=
  e.evaluate now t.group t.seed t.world

/-- The event that goes with a report, if the report tells of a disruption. -/
def entryOf (event : (id : String) → Event) : Except Fault GroupReport → Option Event
  | .ok ⟨_, _, _, .disrupted id _⟩ => some (event id)
  | _ => none

/-- The event that a turn adds to the ledger, if it adds one. -/
def entry (e : Engine σ) (now : Instant) (t : Turn σ) : Option Event :=
  entryOf (e.eventOn now t) (e.turned now t).1

theorem turned_eq (e : Engine σ) (now : Instant) (t : Turn σ) :
    e.turned now t = ((e.judge now t.group t.seed t.world).1.map
        (⟨t.group.name, t.group.kind, t.group.members.length, ·⟩),
      (e.judge now t.group t.seed t.world).2) := by
  rw [turned, evaluate_run]

theorem Acts.turned_eq (h : e.Acts now t id) :
    e.turned now t = ((e.answerOn now t id).1.map fun _ =>
        ⟨t.group.name, t.group.kind, t.group.members.length,
          .disrupted id (e.eventOn now t id).outcome⟩,
      (e.answerOn now t id).2) := by
  rw [Engine.turned_eq, h.judge_eq]
  cases (e.answerOn now t id).1 <;> rfl

theorem Acts.entry_of_ok (h : e.Acts now t id) (hok : (e.answerOn now t id).1 = .ok ()) :
    e.entry now t = some (e.eventOn now t id) := by
  rw [entry, fst_of_eq h.turned_eq, hok]
  rfl

theorem Acts.entry_of_error (h : e.Acts now t id) {why : Fault}
    (herr : (e.answerOn now t id).1 = .error why) : e.entry now t = none := by
  rw [entry, fst_of_eq h.turned_eq, herr]
  rfl

/-- A report on a turn is about its group and has the verdict on it. -/
theorem reported {rep : GroupReport} (h : (e.turned now t).1 = .ok rep) :
    rep.subject = t.group.subject ∧ (e.judge now t.group t.seed t.world).1 = .ok rep.verdict := by
  rw [fst_of_eq (Engine.turned_eq e now t)] at h
  cases hj : (e.judge now t.group t.seed t.world).1 with
  | error why => rw [hj] at h; cases h
  | ok verdict => rw [hj] at h; cases h; exact ⟨rfl, rfl⟩

theorem verdict_of_not_acts (h : ∀ id, ¬ e.Acts now t id) {rep : GroupReport}
    (hrep : (e.turned now t).1 = .ok rep) (id : String) (outcome : Outcome) :
    rep.verdict ≠ .disrupted id outcome := by
  intro hverdict
  exact (judge_of_not_acts h).1 id outcome (hverdict ▸ (reported hrep).2)

theorem entry_of_not_acts (h : ∀ id, ¬ e.Acts now t id) : e.entry now t = none := by
  rw [entry]
  cases hturn : (e.turned now t).1 with
  | error why => rfl
  | ok rep =>
    rw [entryOf.eq_def]
    split
    · rename_i hdisrupted
      cases hdisrupted
      exact absurd rfl (verdict_of_not_acts h hturn _ _)
    · rfl

/-- A turn adds an event where it acts on a member and the log takes the event of the attempt. -/
theorem entry_eq_some_iff {ev : Event} :
    e.entry now t = some ev ↔
      ∃ id, e.Acts now t id ∧ ev = e.eventOn now t id ∧ (e.answerOn now t id).1 = .ok () := by
  constructor
  · intro hentry
    by_cases hacts : ∃ id, e.Acts now t id
    · obtain ⟨id, hacts⟩ := hacts
      cases hanswer : (e.answerOn now t id).1 with
      | ok u =>
        rw [hacts.entry_of_ok hanswer] at hentry
        exact ⟨id, hacts, (Option.some.inj hentry).symm, hanswer⟩
      | error why =>
        rw [hacts.entry_of_error hanswer] at hentry
        cases hentry
    · rw [entry_of_not_acts (not_exists.mp hacts)] at hentry
      cases hentry
  · rintro ⟨id, hacts, rfl, hok⟩
    exact hacts.entry_of_ok hok

/-- What is reported of a turn names its group, and the event that the turn adds. -/
theorem turned_eq_ok {rep : GroupReport} (h : (e.turned now t).1 = .ok rep) :
    rep.subject = t.group.subject ∧ (e.entry now t).map Event.headline = rep.headline? := by
  refine ⟨(reported h).1, ?_⟩
  by_cases hacts : ∃ id, e.Acts now t id
  · obtain ⟨id, hacts⟩ := hacts
    rw [fst_of_eq hacts.turned_eq] at h
    cases hanswer : (e.answerOn now t id).1 with
    | error why => rw [hanswer] at h; cases h
    | ok _ =>
      rw [hanswer] at h
      cases h
      rw [hacts.entry_of_ok hanswer]
      rfl
  · have hnot := not_exists.mp hacts
    rw [entry_of_not_acts hnot, GroupReport.headline?_eq_none (verdict_of_not_acts hnot h)]
    rfl

/-! ## All turns of a cycle -/

theorem turnsFrom_cons (e : Engine σ) (now : Instant) (g : Group) (seed : UInt64)
    (more : List (Group × UInt64)) (s : σ) :
    e.turnsFrom now ((g, seed) :: more) s =
      ⟨g, seed, s⟩ :: e.turnsFrom now more (e.turned now ⟨g, seed, s⟩).2 := by
  rw [turnsFrom, turned]

theorem evaluateAll_of_cons (e : Engine σ) (now : Instant) (g : Group) (seed : UInt64)
    (more : List (Group × UInt64)) (s : σ) :
    e.evaluateAll now ((g, seed) :: more) s =
      ((e.turned now ⟨g, seed, s⟩).1 :: (e.evaluateAll now more (e.turned now ⟨g, seed, s⟩).2).1,
        (e.evaluateAll now more (e.turned now ⟨g, seed, s⟩).2).2) := by
  rw [evaluateAll_cons, turned]

theorem evaluateAll_turned (e : Engine σ) (now : Instant) (seeded : List (Group × UInt64)) (s : σ) :
    (e.evaluateAll now seeded s).1 = (e.turnsFrom now seeded s).map fun t => (e.turned now t).1 := by
  induction seeded generalizing s with
  | nil => rfl
  | cons turn more ih =>
    obtain ⟨g, seed⟩ := turn
    rw [evaluateAll_of_cons, turnsFrom_cons, List.map_cons, ih]

/-- Every seeded group has one turn, whatever becomes of the turns before it. -/
theorem turnsFrom_map (e : Engine σ) (now : Instant) (seeded : List (Group × UInt64)) (s : σ) :
    (e.turnsFrom now seeded s).map (fun t => (t.group, t.seed)) = seeded := by
  induction seeded generalizing s with
  | nil => rfl
  | cons turn more ih => rw [turnsFrom, List.map_cons, ih]

theorem turnsFrom_groups (e : Engine σ) (now : Instant) (seeded : List (Group × UInt64)) (s : σ) :
    (e.turnsFrom now seeded s).map (·.group) = seeded.map Prod.fst := by
  conv_rhs => rw [← turnsFrom_map e now seeded s, List.map_map]
  rfl

theorem turns_of_crawl_ok {r : Running σ} {groups : List Group}
    (h : (e.crawled r.world).1 = .ok groups) :
    e.turns now r = e.turnsFrom now (e.seeded r.draws groups) (e.crawled r.world).2 := by
  rw [turns, h]

theorem turns_of_crawl_error {r : Running σ} {why : Fault}
    (h : (e.crawled r.world).1 = .error why) : e.turns now r = [] := by
  rw [turns, h]

/-- Every listed group has one turn, in the order of the crawl. -/
theorem turns_groups {r : Running σ} {groups : List Group} (h : (e.crawled r.world).1 = .ok groups) :
    (e.turns now r).map (·.group) = e.listed groups := by
  rw [turns_of_crawl_ok h, turnsFrom_groups, seeded_groups]

theorem allOrFirst_eq_ok {results : List (Except Fault α)} {values : List α}
    (h : allOrFirst results = .ok values) : results = values.map .ok := by
  induction results generalizing values with
  | nil => cases h; rfl
  | cons result more ih =>
    cases result with
    | error why => cases h
    | ok a =>
      rw [allOrFirst] at h
      cases hmore : allOrFirst more with
      | error why => rw [hmore] at h; cases h
      | ok rest =>
        rw [hmore] at h
        cases h
        rw [ih hmore, List.map_cons]

/-- A cycle with a report: what the report says of the groups is what came of their turns. -/
theorem cycle_eq_ok {r : Running σ} {report : CycleReport} (h : (e.cycle now r).1 = .ok report) :
    ∃ groups, (e.crawled r.world).1 = .ok groups ∧
      (e.turns now r).map (fun t => (e.turned now t).1) = report.groups.map .ok := by
  cases hc : (e.crawled r.world).1 with
  | error why =>
    rw [cycle_of_crawl_error hc] at h
    cases h
  | ok groups =>
    refine ⟨groups, rfl, ?_⟩
    rw [cycle_of_crawl_ok hc] at h
    split at h
    · cases h
    · rename_i reports hall
      cases h
      rw [turns_of_crawl_ok hc, ← evaluateAll_turned]
      exact allOrFirst_eq_ok hall

/-! ## The ledger -/

/-- An engine whose log leaves the ledger as it is where it does not take an event. -/
def Rejects (e : Engine σ) (ledger : σ → List Event) : Prop :=
  ∀ ev s why, (e.log.append ev s).1 = .error why → ledger (e.log.append ev s).2 = ledger s

/-- The ledger grows by the entry of a turn. -/
theorem ledger_turned (h : e.Adds ledger)
    (hrejects : ∀ why, (e.turned now t).1 = .error why → e.Rejects ledger) :
    ledger (e.turned now t).2 = ledger t.world ++ (e.entry now t).toList := by
  by_cases hacts : ∃ id, e.Acts now t id
  · obtain ⟨id, hacts⟩ := hacts
    have hbefore := recorded_leaves h now t.group id (e.asked now t.group t.world).2
    rw [asked_leaves h] at hbefore
    rw [snd_of_eq hacts.turned_eq]
    cases hanswer : (e.answerOn now t id).1 with
    | ok _ =>
      rw [hacts.entry_of_ok hanswer, answerOn, appended, h.append_ok _ _ hanswer, hbefore]
      rfl
    | error why =>
      have herr : (e.turned now t).1 = .error why := by rw [fst_of_eq hacts.turned_eq, hanswer]; rfl
      rw [hacts.entry_of_error hanswer, answerOn, appended, hrejects why herr _ _ why hanswer,
        hbefore, Option.toList_none, List.append_nil]
  · have hnot := not_exists.mp hacts
    rw [entry_of_not_acts hnot, snd_of_eq (turned_eq e now t), Option.toList_none, List.append_nil]
    rcases (judge_of_not_acts hnot).2 with hleft | hleft
    · rw [hleft, h.elapsed]
    · rw [hleft, asked_leaves h]

theorem ledger_evaluateAll (h : e.Adds ledger) (seeded : List (Group × UInt64)) (s : σ)
    (hrejects : ∀ t ∈ e.turnsFrom now seeded s, ∀ why, (e.turned now t).1 = .error why →
      e.Rejects ledger) :
    ledger (e.evaluateAll now seeded s).2 =
      ledger s ++ (e.turnsFrom now seeded s).filterMap (e.entry now) := by
  induction seeded generalizing s with
  | nil => rw [turnsFrom, List.filterMap_nil, List.append_nil]; rfl
  | cons turn more ih =>
    obtain ⟨g, seed⟩ := turn
    rw [turnsFrom_cons, List.forall_mem_cons] at hrejects
    rw [evaluateAll_of_cons, turnsFrom_cons, ih _ hrejects.2, ledger_turned h hrejects.1,
      List.append_assoc, List.filterMap_cons]
    cases e.entry now ⟨g, seed, s⟩ <;> rfl

/-! ## Reports and ledgers -/

theorem ledger_cycle (h : e.Adds ledger) (r : Running σ)
    (hrejects : ∀ t ∈ e.turns now r, ∀ why, (e.turned now t).1 = .error why → e.Rejects ledger) :
    ledger (e.cycle now r).2.world =
      ledger r.world ++ (e.turns now r).filterMap (e.entry now) := by
  have hcrawl : ledger (e.crawled r.world).2 = ledger r.world := h.crawl _ _
  cases hc : (e.crawled r.world).1 with
  | error why =>
    rw [cycle_of_crawl_error hc, turns_of_crawl_error hc, List.filterMap_nil, List.append_nil,
      hcrawl]
  | ok groups =>
    rw [turns_of_crawl_ok hc] at hrejects ⊢
    rw [← hcrawl, ← ledger_evaluateAll h _ _ hrejects, cycle_of_crawl_ok hc]
    split
    · rfl
    · exact h.elapsed _

theorem map_eq_map_iff_forall₂ {f : α → γ} {g : β → γ} {l : List α} {m : List β} :
    l.map f = m.map g ↔ List.Forall₂ (fun a b => f a = g b) l m := by
  rw [← List.forall₂_eq_eq_eq, List.forall₂_map_left_iff, List.forall₂_map_right_iff]

/-- A report has one entry for each crawled group that the lists let through. -/
theorem subjects_of_ok {r : Running σ} {report : CycleReport}
    (hok : (e.cycle now r).1 = .ok report) :
    ∃ groups, (e.crawl e.config.allow r.world).1 = .ok groups ∧
      report.groups.map GroupReport.subject =
        (groups.filter fun g => e.config.isListed g.name).map Group.subject := by
  obtain ⟨groups, hcrawl, hmap⟩ := cycle_eq_ok hok
  have hsubjects := (map_eq_map_iff_forall₂.mp hmap).imp fun t rep hrep =>
    (turned_eq_ok hrep).1.symm
  refine ⟨groups, hcrawl, ?_⟩
  rw [← listed, ← turns_groups hcrawl, List.map_map]
  exact (map_eq_map_iff_forall₂.mpr hsubjects).symm

/-- The events behind the old ones are those that a report tells of, in the order of the report. -/
theorem headlines_of_ok (h : e.Adds ledger) {r : Running σ} {report : CycleReport}
    (hok : (e.cycle now r).1 = .ok report) :
    ∃ added, ledger (e.cycle now r).2.world = ledger r.world ++ added ∧
      added.map Event.headline = report.groups.filterMap GroupReport.headline? := by
  obtain ⟨groups, -, hmap⟩ := cycle_eq_ok hok
  have hrejects : ∀ t ∈ e.turns now r, ∀ why, (e.turned now t).1 = .error why →
      e.Rejects ledger := by
    -- no turn of a cycle with a report failed
    intro t ht why herr
    have hmem := List.mem_map_of_mem (f := fun t => (e.turned now t).1) ht
    rw [hmap, herr] at hmem
    obtain ⟨rep, -, hrep⟩ := List.mem_map.mp hmem
    cases hrep
  refine ⟨_, ledger_cycle h r hrejects, ?_⟩
  have hentries := (map_eq_map_iff_forall₂.mp hmap).imp fun t rep hrep => (turned_eq_ok hrep).2
  have hlists := congrArg (List.filterMap id) (map_eq_map_iff_forall₂.mpr hentries)
  rw [List.filterMap_map, List.filterMap_map, Function.id_comp, Function.id_comp] at hlists
  rw [List.map_filterMap, hlists]

end Engine
end FaultDrill
