import FaultDrill.Proofs.Draw.Odds
import FaultDrill.Proofs.Engine.Keeping
import FaultDrill.Proofs.Except
/-!
# Odds of a turn

Two engines that differ in nothing but the probabilities of groups are held side by side over the
turn of a group that draws. Either the turn passes the group over, and `judge_passed_iff` says when,
or it comes to a member that the probability has no part in. So a turn with the greater probability
does all that one with the smaller does, unless that one passes the group over
(`selection_monotone`).
-/
namespace FaultDrill

/-! ## Settings other than probabilities -/

/-- The settings without a word on the probability. -/
def GroupPolicy.withoutOdds (p : GroupPolicy) : GroupPolicy := { p with probability := none }

namespace Config

/-- The configuration without a word on probabilities. -/
def withoutOdds (c : Config) : Config :=
  { c with
    groupDefaults := { c.groupDefaults with probability := .zero }
    groups := c.groups.map fun own => (own.1, own.2.withoutOdds) }

theorem lookup_map_snd (f : β → γ) (own : List (String × β)) (name : String) :
    (own.map fun p => (p.1, f p.2)).lookup name = (own.lookup name).map f := by
  induction own with
  | nil => rfl
  | cons p more ih =>
    rw [List.map_cons, List.lookup_cons, List.lookup_cons, ih]
    cases name == p.1 <;> rfl

theorem policy?_withoutOdds (c : Config) (name : String) :
    c.withoutOdds.policy? name = (c.policy? name).map GroupPolicy.withoutOdds :=
  lookup_map_snd GroupPolicy.withoutOdds c.groups name

theorem groupEnabled_withoutOdds (c : Config) (name : String) :
    c.withoutOdds.groupEnabled name = c.groupEnabled name := by
  rw [groupEnabled, groupEnabled, policy?_withoutOdds]
  cases c.policy? name <;> rfl

theorem disruption_withoutOdds (c : Config) (name : String) :
    c.withoutOdds.disruption name = c.disruption name := by
  rw [disruption, disruption, policy?_withoutOdds]
  cases c.policy? name <;> rfl

end Config

namespace Engine

/-- Engines that have everything but the probabilities of groups in common. -/
structure SameButOdds (e e' : Engine σ) : Prop where
  config : e.config.withoutOdds = e'.config.withoutOdds
  crawl : e.crawl = e'.crawl
  client : e.client = e'.client
  log : e.log = e'.log
  elapsed : e.elapsed = e'.elapsed

variable {e e' : Engine σ} {now : Instant} {g : Group} {s : σ}

namespace SameButOdds

theorem groupEnabled (h : e.SameButOdds e') (name : String) :
    e'.config.groupEnabled name = e.config.groupEnabled name := by
  rw [← Config.groupEnabled_withoutOdds, ← h.config, Config.groupEnabled_withoutOdds]

theorem disruption (h : e.SameButOdds e') (name : String) :
    e'.config.disruption name = e.config.disruption name := by
  rw [← Config.disruption_withoutOdds, ← h.config, Config.disruption_withoutOdds]

theorem leashed (h : e.SameButOdds e') : e'.config.leashed = e.config.leashed :=
  (congrArg Config.leashed h.config).symm

theorem window (h : e.SameButOdds e') : e'.config.window = e.config.window :=
  (congrArg Config.window h.config).symm

theorem deadline (h : e.SameButOdds e') : e'.deadline = e.deadline :=
  (congrArg (fun c => c.cycleDeadline.millis * 1000000) h.config).symm

theorem fallbackScript (h : e.SameButOdds e') :
    e'.config.fallbackScript = e.config.fallbackScript :=
  (congrArg Config.fallbackScript h.config).symm

theorem asked (h : e.SameButOdds e') (now : Instant) (g : Group) (s : σ) :
    e'.asked now g s = e.asked now g s := by
  rw [Engine.asked, Engine.asked, h.log, h.elapsed, h.window]

theorem draws (h : e.SameButOdds e') (hdraws : e.Draws now g s) : e'.Draws now g s where
  inTime := by
    rw [← h.elapsed, h.deadline]
    exact hdraws.inTime
  enabled := by
    rw [h.groupEnabled]
    exact hdraws.enabled
  inhabited := hdraws.inhabited
  unspent := by
    rw [h.asked]
    exact hdraws.unspent

theorem disrupt (h : e.SameButOdds e') (now : Instant) (g : Group) (id : String) :
    e'.disrupt now g id = e.disrupt now g id := by
  rw [Engine.disrupt, Engine.disrupt, Engine.clock, Engine.clock, h.client, h.log, h.elapsed,
    h.fallbackScript, h.disruption]

end SameButOdds

/-! ## Turns that draw -/

theorem judge_of_loses (hdraws : e.Draws now g s) {seed : UInt64}
    (h : Draw.loses (e.eligibility g) seed = true) : e.judge now g seed s =
      (.ok (.notSelected (Draw.rollOf seed) (e.config.probability g.name)),
        (e.asked now g s).2) := by
  rw [judge_of_draws hdraws, drawn, Draw.select_of_loses h]
  rfl

theorem Draws.members_ne_nil (hdraws : e.Draws now g s) : g.members ≠ [] := by
  have hinhabited := hdraws.inhabited
  rwa [Group.isEmpty, List.isEmpty_eq_false_iff] at hinhabited

theorem judge_of_wins (hdraws : e.Draws now g s) {seed : UInt64}
    (hwins : Draw.loses (e.eligibility g) seed = false) :
    ∃ id ∈ g.members, e.judge now g seed s = e.actOn now g (.member id) (e.asked now g s).2 := by
  obtain ⟨id, hid, hselect⟩ := Draw.exists_select hdraws.members_ne_nil seed
  refine ⟨id, hid, ?_⟩
  rw [judge_of_draws hdraws, drawn, hselect _ hwins]

/-- What a turn does that wins with either probability is not up to them. -/
theorem judge_sameButOdds (h : e.SameButOdds e') (hdraws : e.Draws now g s) {seed : UInt64}
    (hwins : Draw.loses (e.eligibility g) seed = false)
    (hwins' : Draw.loses (e'.eligibility g) seed = false) :
    e'.judge now g seed s = e.judge now g seed s := by
  obtain ⟨id, -, hselect⟩ := Draw.exists_select hdraws.members_ne_nil seed
  rw [judge_of_draws hdraws, judge_of_draws (h.draws hdraws), drawn, drawn, hselect _ hwins,
    hselect _ hwins', h.asked, actOn, actOn, h.leashed, h.disrupt]

/-- What loses with the greater probability loses with the smaller one. -/
theorem loses_anti {seed : UInt64} (hp : (e.config.probability g.name).InUnit)
    (hq : (e'.config.probability g.name).InUnit)
    (hle : (e.config.probability g.name).le (e'.config.probability g.name) = true)
    (h : Draw.loses (e.eligibility g) seed = false) :
    Draw.loses (e'.eligibility g) seed = false := by
  have hunits := (Binary64.le_iff_units hp.1 hq.1).mp hle
  have hnonneg := hp.2.1
  rw [← Bool.not_eq_true, Draw.loses_iff rfl rfl hp] at h
  rw [← Bool.not_eq_true, Draw.loses_iff rfl rfl hq]
  simp only [eligibility] at h ⊢
  omega

theorem loses_iff (hp : (e.config.probability g.name).InUnit) (seed : UInt64) :
    Draw.loses (e.eligibility g) seed = true ↔ (e.config.probability g.name).units = 0 ∨
      (e.config.probability g.name).units ≤ (Draw.rollOf seed).units :=
  Draw.loses_iff rfl rfl hp seed

end Engine

/-- The instance that a verdict names: it would be disrupted, or was. -/
def Verdict.victim? : Verdict → Option String
  | .leashed id => some id
  | .disrupted id _ => some id
  | _ => none

namespace Engine

variable {e e' : Engine σ} {now : Instant} {g : Group} {s : σ}

/-- A turn that comes to a member names it, unless the log refuses the event. -/
theorem victim?_of_actOn {id : String} {verdict : Verdict}
    (h : (e.actOn now g (.member id) s).1 = .ok verdict) : verdict.victim? = some id := by
  rw [actOn] at h
  split at h
  · cases h
    rfl
  · rw [disrupt_run] at h
    cases happended : (e.appended now g id s).1 with
    | error why =>
      rw [happended] at h
      cases h
    | ok _ =>
      rw [happended] at h
      cases h
      rfl

/-- The verdict of a turn that comes to a member is not that the group was passed over. -/
theorem not_passed_of_actOn {id : String} {r x : Binary64} :
    (e.actOn now g (.member id) s).1 ≠ .ok (.notSelected r x) := by
  intro h
  cases victim?_of_actOn h

/-- A turn that draws passes the group over with the numbers of its draw, or comes to a member. -/
theorem judge_passed_iff (hdraws : e.Draws now g s) {seed : UInt64} {r x : Binary64} :
    (e.judge now g seed s).1 = .ok (.notSelected r x) ↔ Draw.loses (e.eligibility g) seed = true ∧
      r = Draw.rollOf seed ∧ x = e.config.probability g.name := by
  cases hloses : Draw.loses (e.eligibility g) seed with
  | true =>
    rw [judge_of_loses hdraws hloses]
    simp [eq_comm]
  | false =>
    obtain ⟨id, -, hjudge⟩ := judge_of_wins hdraws hloses
    rw [hjudge]
    simp [not_passed_of_actOn]

theorem wins_of_not_passed (hdraws : e.Draws now g s) {seed : UInt64}
    (h : ∀ r x, (e.judge now g seed s).1 ≠ .ok (.notSelected r x)) :
    Draw.loses (e.eligibility g) seed = false := by
  rw [← Bool.not_eq_true]
  intro hloses
  exact h _ _ ((judge_passed_iff hdraws).mpr ⟨hloses, rfl, rfl⟩)

end Engine

/-- The turn of a group that draws, with a probability and with one that is no smaller. The number
drawn is as many parts of 2^53 as its bits say, and below one. The turn passes the group over
exactly where the probability is zero or not above that number. Where it does not, it does the same
with the greater probability: the same member is left at that or disrupted, in the same way, also if
the log refuses the event. With the probability one it always comes to a member. -/
theorem Engine.selection_monotone {e e' : Engine σ} (h : e.SameButOdds e') {now : Instant}
    {g : Group} {s : σ} (hdraws : e.Draws now g s) {p q : Binary64}
    (hp : e.config.probability g.name = p) (hq : e'.config.probability g.name = q)
    (hunit : p.InUnit) (hunit' : q.InUnit) (hle : p.le q = true) (seed : UInt64) :
    let roll := Draw.rollOf seed
    (roll.units * twoPow 53 = (Draw.Source.seeded seed).rollBits * Binary64.one ∧
      0 ≤ roll.units ∧ roll.units < Binary64.one) ∧
    ((e.judge now g seed s).1 = .ok (.notSelected roll p) ↔ p.units = 0 ∨ p.units ≤ roll.units) ∧
    (∀ r x, (e.judge now g seed s).1 = .ok (.notSelected r x) → r = roll ∧ x = p) ∧
    (∀ verdict id, (e.judge now g seed s).1 = .ok verdict → verdict.victim? = some id →
      id ∈ g.members ∧ e'.judge now g seed s = e.judge now g seed s) ∧
    (∀ why, (e.judge now g seed s).1 = .error why →
      e'.judge now g seed s = e.judge now g seed s) ∧
    (q.units = Binary64.one → ∃ id ∈ g.members,
      e'.judge now g seed s = e'.actOn now g (.member id) (e'.asked now g s).2 ∧
      ∀ verdict, (e'.judge now g seed s).1 = .ok verdict → verdict.victim? = some id) := by
  intro roll
  obtain ⟨-, hroll, hbits⟩ := Draw.roll_exact seed
  subst hp hq
  refine ⟨⟨hbits, hroll, Draw.units_roll_lt seed⟩, ?_, ?_, ?_, ?_, ?_⟩
  · rw [judge_passed_iff hdraws, ← loses_iff hunit]
    exact and_iff_left ⟨rfl, rfl⟩
  · intro r x hpassed
    exact ((judge_passed_iff hdraws).mp hpassed).2
  · intro verdict id hverdict hid
    have hwins : Draw.loses (e.eligibility g) seed = false := by
      refine wins_of_not_passed hdraws fun r x hpassed => ?_
      cases hpassed.symm.trans hverdict
      cases hid
    obtain ⟨victim, hmember, hjudge⟩ := judge_of_wins hdraws hwins
    rw [hjudge] at hverdict
    obtain rfl : victim = id := Option.some.inj ((victim?_of_actOn hverdict).symm.trans hid)
    exact ⟨hmember, judge_sameButOdds h hdraws hwins (loses_anti hunit hunit' hle hwins)⟩
  · intro why herror
    have hwins : Draw.loses (e.eligibility g) seed = false :=
      wins_of_not_passed hdraws fun r x hpassed => nomatch hpassed.symm.trans herror
    exact judge_sameButOdds h hdraws hwins (loses_anti hunit hunit' hle hwins)
  · intro hone
    have hwins : Draw.loses (e'.eligibility g) seed = false := by
      rw [← Bool.not_eq_true, loses_iff hunit', hone]
      have hlt := Draw.units_roll_lt seed
      omega
    obtain ⟨id, hid, hjudge⟩ := judge_of_wins (h.draws hdraws) hwins
    exact ⟨id, hid, hjudge, fun verdict hverdict => victim?_of_actOn (hjudge ▸ hverdict)⟩

/-- A drill of one group whose members are terminated with some probability. -/
def Engine.chancy (p : Binary64) : Engine (List Event × Unit) :=
  .beside { Config.standard with groupDefaults := ⟨true, p, .terminate⟩ }
    (fun _ => pure (.ok [⟨"web", .cloud, ["i-1", "i-2", "i-3"]⟩]))
    { backend := "command"
      terminate := fun _ => pure (.ok ())
      credentials := fun id => pure (.error (.credentialsDisabled id))
      runScript := fun id _ _ => pure (.error (.instanceNotFound id)) }
    (pure 0)

-- Stated for any probability: with a number in its place the number would be computed.
theorem Engine.chancy_sameButOdds (p q : Binary64) : (chancy p).SameButOdds (chancy q) :=
  ⟨rfl, rfl, rfl, rfl, rfl⟩

theorem Engine.chancy_probability (p : Binary64) (name : String) :
    (chancy p).config.probability name = p := rfl

theorem Engine.chancy_draws (p : Binary64) {g : Group} (h : g.isEmpty = false) :
    (chancy p).Draws ⟨0, 0⟩ g ([], ()) where
  inTime := by
    show 0 < Config.standard.cycleDeadline.millis * 1000000
    decide
  enabled := rfl
  inhabited := h
  unspent := rfl

/-- What is done to a member with one half is done with three quarters, too. -/
theorem chancy_selection_monotone :
    let half := Binary64.ofFraction53 (twoPow 52)
    let more := Binary64.ofFraction53 (3 * twoPow 51)
    let g : Group := ⟨"web", .cloud, ["i-1", "i-2", "i-3"]⟩
    ((Engine.chancy half).judge ⟨0, 0⟩ g 3 ([], ())).1 = .ok (.disrupted "i-2" .succeeded) ∧
      (Engine.chancy more).judge ⟨0, 0⟩ g 3 ([], ()) =
        (Engine.chancy half).judge ⟨0, 0⟩ g 3 ([], ()) := by
  intro half more g
  obtain ⟨verdict, hverdict, hdisrupted⟩ := exists_of_any
    (x := ((Engine.chancy half).judge ⟨0, 0⟩ g 3 ([], ())).1)
    (p := (· == .disrupted "i-2" .succeeded)) (by decide +kernel)
  obtain rfl := beq_iff_eq.mp hdisrupted
  obtain ⟨-, -, -, hselected, -⟩ := Engine.selection_monotone
    (Engine.chancy_sameButOdds half more) (Engine.chancy_draws half (g := g) rfl)
    (Engine.chancy_probability half _) (Engine.chancy_probability more _)
    (by rw [Binary64.inUnit_iff]; decide +kernel) (by rw [Binary64.inUnit_iff]; decide +kernel)
    (by decide +kernel) 3
  exact ⟨hverdict, (hselected _ _ hverdict rfl).2⟩

end FaultDrill
