import FaultDrill.Proofs.Engine.Account
import FaultDrill.Proofs.Engine.Spending
import FaultDrill.Proofs.Engine.Workers
/-!
# Groups that are left alone

A configuration exempts a group from disruption where it denies or disables the group, is switched
off, or is leashed. The turn of an exempt group makes no call and adds no event, and neither does its
work beside that of other groups (`work_beside`). The log is never given an event of such a group:
whatever it would do with one, cycles stay the same (`cycle_withAppend`). So over any cycles the
ledger grows by events of other groups alone (`afterCycles_exempt`).
-/
namespace FaultDrill

/-- Why a group is left alone. -/
inductive Config.Exempts (c : Config) (group : String) : Prop where
  | denied (h : group ∈ c.deny)
  /-- The settings of its own disable the group, or those for all groups where it has none. -/
  | disabled (h : ((c.policy? group).bind (·.enabled)).getD c.groupDefaults.enabled = false)
  | leashed (h : c.leashed = true)
  | switchedOff (h : c.enabled = false)

theorem Config.exempts_iff {c : Config} {group : String} :
    c.Exempts group ↔ group ∈ c.deny ∨ c.groupEnabled group = false ∨ c.leashed = true := by
  rw [groupEnabled, Bool.and_eq_false_iff]
  constructor
  · intro h
    cases h with
    | denied h => exact .inl h
    | disabled h => exact .inr (.inl (.inr h))
    | leashed h => exact .inr (.inr h)
    | switchedOff h => exact .inr (.inl (.inl h))
  · rintro (h | (h | h) | h)
    · exact .denied h
    · exact .switchedOff h
    · exact .disabled h
    · exact .leashed h

instance (c : Config) (group : String) : Decidable (c.Exempts group) :=
  decidable_of_iff _ Config.exempts_iff.symm

/-- A group that the lists let through is exempt only where it is not enabled or the engine is
leashed. -/
theorem Config.Exempts.of_listed {c : Config} {group : String} (h : c.Exempts group)
    (hlisted : c.isListed group = true) : c.groupEnabled group = false ∨ c.leashed = true := by
  rw [isListed, Bool.and_eq_true] at hlisted
  rcases exempts_iff.mp h with hdenied | hrest
  · exact absurd hdenied (by simpa using hlisted.2)
  · exact hrest

namespace Engine

variable {e : Engine σ} {ledger : σ → List Event} {now : Instant} {r : Running σ} {t : Turn σ}

/-! ## The turns of exempt groups -/

theorem not_acts_of_exempt (ht : t ∈ e.turns now r) (hexempt : e.config.Exempts t.group.name)
    (id : String) : ¬ e.Acts now t id := by
  intro hacts
  rcases hexempt.of_listed (listed_of_mem_turns ht).2 with hoff | hleashed
  · rw [hacts.draws.enabled] at hoff
    cases hoff
  · rw [hacts.unleashed] at hleashed
    cases hleashed

theorem entry_not_exempt {ev : Event} (ht : t ∈ e.turns now r) (hentry : e.entry now t = some ev) :
    ¬ e.config.Exempts ev.group := by
  obtain ⟨id, hacts, rfl, -⟩ := entry_eq_some_iff.mp hentry
  exact fun hexempt => not_acts_of_exempt ht hexempt id hacts

/-! ## Their work -/

/-- However the workers move, an exempt group's work makes no call and adds no event. -/
theorem work_beside (e : Engine σ) (moves : List Nat) (now : Instant) {r : Running σ}
    {groups : List Group} (hc : (e.crawled r.world).1 = .ok groups) {i : Nat} {g : Group}
    (hg : (e.listed groups)[i]? = some g) (hexempt : e.config.Exempts g.name) :
    ∀ st ∈ Pool.own i (e.deeds moves now r), st.deed.isCall = false ∧ st.deed.isAppend = false := by
  intro st hst
  have hlisted := (List.mem_filter.mp (List.mem_of_getElem? hg)).2
  rw [← seeded_groups e r.draws groups, List.getElem?_map] at hg
  obtain ⟨turn, hturn, rfl⟩ := Option.map_eq_some_iff.mp hg
  have hlicensed := licensed hc hturn st hst
  rw [← Bool.not_eq_true, ← Bool.not_eq_true, ← not_or]
  intro hdeed
  obtain ⟨henabled, hleashed, -⟩ := hlicensed hdeed
  rcases hexempt.of_listed hlisted with hoff | hon
  · exact absurd (henabled.symm.trans hoff) (by decide)
  · exact absurd (hleashed.symm.trans hon) (by decide)

/-! ## Logs that differ in the events of exempt groups -/

/-- The engine with another way to add events to the log. -/
def withAppend (e : Engine σ) (append : Event → StateM σ (Except Fault Unit)) : Engine σ :=
  { e with log := { e.log with append } }

variable {append : Event → StateM σ (Except Fault Unit)}

theorem disrupt_withAppend {g : Group} (h : ∀ ev, ev.group = g.name → append ev = e.log.append ev)
    (now : Instant) (id : String) : (e.withAppend append).disrupt now g id = e.disrupt now g id := by
  funext s
  have happended : (e.withAppend append).appended now g id s = e.appended now g id s :=
    congrFun (h (e.recorded now g id s).1 rfl) _
  rw [disrupt_run, disrupt_run, happended]
  rfl

theorem actOn_withAppend {g : Group}
    (h : e.config.leashed = false → ∀ ev, ev.group = g.name → append ev = e.log.append ev)
    (now : Instant) (drawn : Draw.Selection) :
    (e.withAppend append).actOn now g drawn = e.actOn now g drawn := by
  cases drawn with
  | passed roll => rfl
  | nobody => rfl
  | member id =>
    show (if e.config.leashed then _ else _) = if e.config.leashed then _ else _
    cases hleashed : e.config.leashed with
    | true => rfl
    | false => rw [if_neg (by decide), if_neg (by decide), disrupt_withAppend (h hleashed)]

/-- A turn is the same where the two ways agree on events of groups that are not exempt. -/
theorem evaluate_withAppend {g : Group} (hlisted : e.config.isListed g.name = true)
    (h : ∀ ev, ¬ e.config.Exempts ev.group → append ev = e.log.append ev) (now : Instant)
    (seed : UInt64) : (e.withAppend append).evaluate now g seed = e.evaluate now g seed := by
  have hjudge : (e.withAppend append).judge now g seed = e.judge now g seed := by
    cases henabled : e.config.groupEnabled g.name with
    | false =>
      have henabled' : (e.withAppend append).config.groupEnabled g.name = false := henabled
      simp only [judge, henabled, henabled']
      rfl
    | true =>
      have hagree : e.config.leashed = false → ∀ ev, ev.group = g.name →
          append ev = e.log.append ev := by
        intro hleashed ev hev
        refine h ev fun hexempt => ?_
        rw [hev] at hexempt
        rcases hexempt.of_listed hlisted with hoff | hleashed'
        · exact absurd (henabled.symm.trans hoff) (by decide)
        · exact absurd (hleashed.symm.trans hleashed') (by decide)
      have hact := actOn_withAppend hagree now
      simp only [judge, hact]
      rfl
  rw [evaluate, hjudge]
  rfl

theorem evaluateAll_withAppend {seeded : List (Group × UInt64)}
    (hlisted : ∀ turn ∈ seeded, e.config.isListed turn.1.name = true)
    (h : ∀ ev, ¬ e.config.Exempts ev.group → append ev = e.log.append ev) (now : Instant) :
    (e.withAppend append).evaluateAll now seeded = e.evaluateAll now seeded := by
  induction seeded with
  | nil => rfl
  | cons turn more ih =>
    rw [List.forall_mem_cons] at hlisted
    rw [evaluateAll, evaluateAll, evaluate_withAppend hlisted.1 h, ih hlisted.2]

theorem isListed_of_mem_seeded {draws : Draw.Source} {groups : List Group}
    {turn : Group × UInt64} (h : turn ∈ e.seeded draws groups) :
    e.config.isListed turn.1.name = true :=
  (List.mem_filter.mp (List.of_mem_zip h).1).2

/-- A cycle is the same whatever the log would do with events of exempt groups: it is given none. -/
theorem cycle_withAppend (h : ∀ ev, ¬ e.config.Exempts ev.group → append ev = e.log.append ev)
    (now : Instant) (r : Running σ) : (e.withAppend append).cycle now r = e.cycle now r := by
  cases hc : (e.crawled r.world).1 with
  | error why =>
    have hc' : ((e.withAppend append).crawled r.world).1 = .error why := hc
    rw [cycle_of_crawl_error hc, cycle_of_crawl_error hc']
    rfl
  | ok groups =>
    have hc' : ((e.withAppend append).crawled r.world).1 = .ok groups := hc
    have hlisted : ∀ turn ∈ e.seeded r.draws groups, e.config.isListed turn.1.name = true :=
      fun _ => isListed_of_mem_seeded
    have hall := evaluateAll_withAppend hlisted h now
    have hturns : (e.withAppend append).evaluateAll now ((e.withAppend append).seeded r.draws groups)
        ((e.withAppend append).crawled r.world).2 =
      e.evaluateAll now (e.seeded r.draws groups) (e.crawled r.world).2 := congrFun hall _
    rw [cycle_of_crawl_ok hc, cycle_of_crawl_ok hc', turnsEnd, turnsEnd, hturns]
    rfl

/-! ## Ledgers -/

/-- A cycle adds no event of an exempt group. -/
theorem cycle_exempt (h : e.Adds ledger) (hrejects : e.Rejects ledger) (now : Instant)
    (r : Running σ) :
    ∃ added, ledger (e.cycle now r).2.world = ledger r.world ++ added ∧
      ∀ ev ∈ added, ¬ e.config.Exempts ev.group := by
  refine ⟨_, ledger_cycle h r fun _ _ _ _ => hrejects, ?_⟩
  intro ev hev
  obtain ⟨t, ht, hentry⟩ := List.mem_filterMap.mp hev
  exact entry_not_exempt ht hentry

/-- Nor do any number of cycles. -/
theorem afterCycles_exempt (h : e.Adds ledger) (hrejects : e.Rejects ledger) (times : List Instant)
    (r : Running σ) :
    ∃ added, ledger (e.afterCycles times r).world = ledger r.world ++ added ∧
      ∀ ev ∈ added, ¬ e.config.Exempts ev.group := by
  induction times generalizing r with
  | nil => exact ⟨[], (List.append_nil _).symm, nofun⟩
  | cons now more ih =>
    obtain ⟨first, hfirst, hnone⟩ := cycle_exempt h hrejects now r
    obtain ⟨rest, hrest, hnone'⟩ := ih (e.cycle now r).2
    refine ⟨first ++ rest, ?_, ?_⟩
    · rw [afterCycles, hrest, hfirst, List.append_assoc]
    · intro ev hev
      rcases List.mem_append.mp hev with hev | hev
      · exact hnone ev hev
      · exact hnone' ev hev

/-- An engine that leaves alone the groups of the given names. -/
structure LeavesAlone (e : Engine σ) (exempt : String → Prop) : Prop where
  /-- All calls of a cycle are made in turns, and none in the turn of such a group. -/
  uncalled : ∀ now r, e.calls now r = (e.turns now r).flatMap (e.turnCalls now) ∧
    ∀ t ∈ e.turns now r, exempt t.group.name → e.turnCalls now t = []
  /-- Nor is any made, or an event added, in the work for such a group beside others. -/
  beside : ∀ moves now r groups, (e.crawled r.world).1 = .ok groups →
    ∀ i g, (e.listed groups)[i]? = some g → exempt g.name →
      ∀ st ∈ Pool.own i (e.deeds moves now r), st.deed.isCall = false ∧ st.deed.isAppend = false
  /-- The log is given no event of such a group, so it does not matter what it would do with one. -/
  unrecorded : ∀ append : Event → StateM σ (Except Fault Unit),
    (∀ ev, ¬ exempt ev.group → append ev = e.log.append ev) →
    ∀ now r, (e.withAppend append).cycle now r = e.cycle now r
  /-- Over any cycles the ledger grows by events of other groups. -/
  ledger : ∀ ledger : σ → List Event, e.Adds ledger → e.Rejects ledger → ∀ times r,
    ∃ added, ledger (e.afterCycles times r).world = ledger r.world ++ added ∧
      ∀ ev ∈ added, ¬ exempt ev.group

theorem leavesAlone (e : Engine σ) : e.LeavesAlone e.config.Exempts where
  uncalled now r := ⟨calls_eq e now r, fun _ ht hexempt =>
    turnCalls_of_not_acts (not_acts_of_exempt ht hexempt)⟩
  beside moves now _ _ hc _ _ hg hexempt := work_beside e moves now hc hg hexempt
  unrecorded _ h now r := cycle_withAppend h now r
  ledger _ h hrejects times r := afterCycles_exempt h hrejects times r

/-- What leaves alone some groups leaves alone any of them. -/
theorem LeavesAlone.mono {P Q : String → Prop} (h : e.LeavesAlone P) (hPQ : ∀ name, Q name → P name) :
    e.LeavesAlone Q where
  uncalled now r :=
    ⟨(h.uncalled now r).1, fun t ht hQ => (h.uncalled now r).2 t ht (hPQ _ hQ)⟩
  beside moves now r groups hc i g hg hQ := h.beside moves now r groups hc i g hg (hPQ _ hQ)
  unrecorded append hagree now r :=
    h.unrecorded append (fun ev hP => hagree ev fun hQ => hP (hPQ _ hQ)) now r
  ledger ledger hadds hrejects times r := by
    obtain ⟨added, hadded, hnone⟩ := h.ledger ledger hadds hrejects times r
    exact ⟨added, hadded, fun ev hev hQ => hnone ev hev (hPQ _ hQ)⟩

end Engine
end FaultDrill
