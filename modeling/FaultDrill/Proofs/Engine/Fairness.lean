import FaultDrill.Proofs.Draw.Fairness
import FaultDrill.Proofs.Engine.Odds
/-!
# Fair victims

Only a turn that draws names an instance, and it names the one that was drawn (`drawn_of_victim`).
So whatever is known of the index that a source draws for a number of members is known of the
instance in the verdict.
-/
namespace FaultDrill

/-- A member that is drawn stands at the index that the source gives behind the number for the
probability. -/
theorem Draw.getElem?_of_select {e : Eligibility} {members : List String} {seed : UInt64}
    {id : String} (h : select e members seed = .member id) :
    members[(Source.seeded seed).roll.2.pick members.length]? = some id := by
  cases hloses : loses e seed with
  | true =>
    rw [select_of_loses hloses] at h
    cases h
  | false =>
    have hroll : (!e.isEligible || e.probability.le (Lot.ofSeed seed).roll) = false := hloses
    rw [select_eq_selection, Lot.selection, hroll] at h
    show members[(Lot.ofSeed seed).index members.length]? = some id
    cases hindex : members[(Lot.ofSeed seed).index members.length]? with
    | none =>
      rw [hindex] at h
      cases h
    | some found =>
      rw [hindex] at h
      cases h
      rfl

namespace Engine

variable {e : Engine σ} {now : Instant} {g : Group} {s : σ}

/-- The instance in a verdict was drawn. -/
theorem drawn_of_victim {seed : UInt64} {verdict : Verdict} {id : String}
    (h : (e.judge now g seed s).1 = .ok verdict) (hid : verdict.victim? = some id) :
    e.drawn g seed = .member id := by
  have hjudged := e.judged now g seed s
  generalize e.judge now g seed s = result at h hjudged
  cases hjudged with
  | late _ | disabled _ | empty _ | alreadyHit _ _ | passed _ _ _ | nobody _ _ =>
    cases h
    cases hid
  | unread _ _ _ => cases h
  | leashed found _ hdrawn _ =>
    cases h
    cases hid
    exact hdrawn
  | disrupted found _ hdrawn hleashed =>
    have hacted : (e.actOn now g (.member found) (e.asked now g s).2).1 = .ok verdict := by
      rwa [actOn, if_neg (by rw [hleashed]; decide)]
    rw [hdrawn, Option.some.inj ((victim?_of_actOn hacted).symm.trans hid)]

end Engine

/-- The instance that a verdict on a group names is a member of the group. Of the words behind the
number that was held against the probability, the first that gives an index gives the one at which
the instance stands, if it comes before the draws are given up. A word gives no index but those of
members, for each member as many of the words of 32 bits give its index, and at least half of them
give one. -/
theorem Engine.victims_fair (e : Engine σ) (now : Instant) (g : Group) (seed : UInt64) (s : σ)
    (hmembers : g.members ≠ []) (hcount : g.members.length < 2 ^ 32) :
    let n := g.members.length
    let source := (Draw.Source.seeded seed).roll.2
    (∀ verdict id, (e.judge now g seed s).1 = .ok verdict → verdict.victim? = some id →
      id ∈ g.members ∧
      ∀ k i, k ≤ twoPow 32 → (∀ j < k, Draw.Source.answer n (source.halfWordAt j) = none) →
        Draw.Source.answer n (source.halfWordAt k) = some i → g.members[i]? = some id) ∧
    (∀ v i, Draw.Source.answer n v = some i → i < n) ∧
    (∀ i < n, ({v | Draw.Source.answer n v = some i} : Finset UInt32).card =
      2 ^ Draw.Source.leadingZeros n) ∧
    2 ^ 32 ≤ 2 * ({v | (Draw.Source.answer n v).isSome} : Finset UInt32).card := by
  intro n source
  have hn : 0 < n := List.length_pos_iff.mpr hmembers
  refine ⟨?_, fun _ _ => Draw.Source.answer_lt hn hcount, fun _ => Draw.Source.card_answer hcount,
    Draw.Source.half_answered hn hcount⟩
  intro verdict id hverdict hid
  have hpick : g.members[source.pick n]? = some id :=
    Draw.getElem?_of_select (drawn_of_victim hverdict hid)
  refine ⟨List.mem_of_getElem? hpick, fun k i hk hnone hsome => ?_⟩
  rwa [← Draw.Source.pick_of_first hn hcount hk hnone hsome]

/-- With three members, one in four of all words stands for each of them. -/
theorem chancy_victims_fair :
    let g : Group := ⟨"web", .cloud, ["i-1", "i-2", "i-3"]⟩
    ((Engine.chancy (.ofNat 1)).judge ⟨0, 0⟩ g 3 ([], ())).1 =
        .ok (.disrupted "i-2" .succeeded) ∧ "i-2" ∈ g.members ∧
      ({v | Draw.Source.answer 3 v = some 1} : Finset UInt32).card = 2 ^ 30 := by
  intro g
  obtain ⟨verdict, hverdict, hdisrupted⟩ := exists_of_any
    (x := ((Engine.chancy (.ofNat 1)).judge ⟨0, 0⟩ g 3 ([], ())).1)
    (p := (· == .disrupted "i-2" .succeeded)) (by decide +kernel)
  obtain rfl := beq_iff_eq.mp hdisrupted
  obtain ⟨hvictim, -, hcard, -⟩ :=
    Engine.victims_fair (Engine.chancy (.ofNat 1)) ⟨0, 0⟩ g 3 ([], ()) (by decide) (by decide)
  have hzeros : Draw.Source.leadingZeros 3 = 30 := by decide
  refine ⟨hverdict, (hvictim _ _ hverdict rfl).1, ?_⟩
  rw [← hzeros]
  exact hcard 1 (by decide)

end FaultDrill
