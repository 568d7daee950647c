import FaultDrill.Proofs.Binary64.Exact
import FaultDrill.Proofs.Draw.Selection
/-!
# Lots

What stands behind the draws of a group. The words of a source stand in one endless table,
read from where the source stands (`getElem?_words64`), and the source that is left stands behind
those that were read (`words64_snd`). The seed of a group fixes its lot: the number that is held
against the probability, and for every count of members the index that is drawn. Nothing else goes
into a selection (`select_eq_selection`). A group that loses its draws is left alone
(`select_of_loses`), and whom any other comes to its probability has no part in (`exists_select`).
The number is always below one, so a group with the probability one never passes
(`select_of_certain`).
-/
namespace FaultDrill.Draw

namespace Source

/-! ## The words of a source -/

/-- The source with some words of 64 bits drawn from it. -/
def skip (s : Source) (n : Nat) : Source := { s with place := s.place + 2 * n }

/-- The word of 64 bits with a number, counted from where the source stands. -/
def wordAt (s : Source) (i : Nat) : UInt64 := (s.skip i).word64.1

theorem skip_skip (s : Source) (m n : Nat) : (s.skip m).skip n = s.skip (m + n) := by
  simp only [skip, Source.mk.injEq, true_and]
  omega

theorem wordAt_skip (s : Source) (m i : Nat) : (s.skip m).wordAt i = s.wordAt (m + i) := by
  rw [wordAt, skip_skip, wordAt]

theorem words64_succ (n : Nat) (s : Source) :
    s.words64 (n + 1) = (s.wordAt 0 :: ((s.skip 1).words64 n).1, ((s.skip 1).words64 n).2) := rfl

/-- However the words come out, as many as were drawn are behind the source. -/
theorem words64_snd (n : Nat) (s : Source) : (s.words64 n).2 = s.skip n := by
  induction n generalizing s with
  | zero => rfl
  | succ n ih =>
    rw [words64_succ, ih, skip_skip, Nat.add_comm]

/-- How many words are drawn does not change the words that come first. -/
theorem getElem?_words64 (n i : Nat) (s : Source) :
    (s.words64 n).1[i]? = if i < n then some (s.wordAt i) else none := by
  induction n generalizing i s with
  | zero => simp [words64]
  | succ n ih =>
    rw [words64_succ]
    cases i with
    | zero => simp
    | succ i =>
      have hword : (s.skip 1).wordAt i = s.wordAt (i + 1) := by rw [wordAt_skip, Nat.add_comm]
      simp only [List.getElem?_cons_succ, ih, hword, Nat.add_lt_add_iff_right]

/-! ## Members -/

/-- A word gives an index below the number of members, whether it is accepted or not. -/
theorem product_fst_lt (v : UInt32) {n : Nat} (hn : 0 < n) : (product v n).1 < n := by
  have hv : v.toNat < 2 ^ 32 := v.toNat_lt
  show v.toNat * n / 2 ^ 32 < n
  apply Nat.div_lt_of_lt_mul
  exact Nat.mul_lt_mul_of_pos_right hv hn

theorem indexWithin_lt {draws n i : Nat} (hn : 0 < n) {s : Source}
    (h : (indexWithin draws n s).1 = some i) : i < n := by
  induction draws generalizing s with
  | zero => cases h
  | succ draws ih =>
    have hstep : (if accepted s.word32.1 n then (some (product s.word32.1 n).1, s.word32.2)
      else indexWithin draws n s.word32.2).1 = some i := h
    split at hstep
    · obtain rfl := Option.some.inj hstep
      exact product_fst_lt _ hn
    · exact ih hstep

/-- The index that a source gives for a number of members. -/
def pick (s : Source) (count : Nat) : Nat := (s.index count).1

theorem pick_eq (s : Source) (count : Nat) :
    s.pick count = (indexWithin (twoPow 32 + 1) count s).1.getD 0 := by
  rw [pick, index]

theorem getD_indexWithin_lt (draws : Nat) {n : Nat} (hn : 0 < n) (s : Source) :
    (indexWithin draws n s).1.getD 0 < n := by
  cases h : (indexWithin draws n s).1 with
  | none => exact hn
  | some i => exact indexWithin_lt hn h

theorem pick_lt {count : Nat} (h : 0 < count) (s : Source) : s.pick count < count := by
  rw [pick_eq]
  exact getD_indexWithin_lt _ h s

theorem choose_fst (xs : List α) (s : Source) : (s.choose xs).1 = xs[s.pick xs.length]? := by
  rw [choose]
  split
  · rename_i hempty
    rw [List.isEmpty_iff.mp hempty]
    rfl
  · rfl

end Source

/-! ## Lots -/

/-- The draws that a group may need. -/
structure Lot where
  /-- The number held against the probability. -/
  roll : Binary64
  /-- The index that is drawn, for each count of members. -/
  index : (count : Nat) → Nat

namespace Lot

/-- The lot of the groups with a seed. -/
def ofSeed (seed : UInt64) : Lot := ⟨rollOf seed, (Source.seeded seed).roll.2.pick⟩

/-- What a lot comes to for a group. -/
def selection (lot : Lot) (e : Eligibility) (members : List String) : Selection :=
  if !e.isEligible || e.probability.le lot.roll then .passed lot.roll
  else match members[lot.index members.length]? with
    | some id => .member id
    | none => .nobody

-- Stated for any lot: to compare the two sides for the lot of a seed would be to compute its draws.
theorem selection_mk (roll : Binary64) (index : Nat → Nat) (e : Eligibility)
    (members : List String) :
    selection ⟨roll, index⟩ e members =
      if !e.isEligible || e.probability.le roll then .passed roll
      else match members[index members.length]? with
        | some id => .member id
        | none => .nobody := rfl

end Lot

/-- The seed enters a selection through the lot alone. -/
theorem select_eq_selection (e : Eligibility) (members : List String) (seed : UInt64) :
    select e members seed = (Lot.ofSeed seed).selection e members := by
  have hselect := select_eq e members seed
  rw [Source.choose_fst] at hselect
  rw [Lot.ofSeed, Lot.selection_mk]
  exact hselect

/-! ## Lost draws -/

/-- Whether a group is left alone by its draws: it is not eligible, or the number that is drawn is
not below its probability. -/
def loses (e : Eligibility) (seed : UInt64) : Bool :=
  !e.isEligible || e.probability.le (rollOf seed)

theorem select_of_loses {e : Eligibility} {seed : UInt64} (h : loses e seed = true)
    (members : List String) : select e members seed = .passed (rollOf seed) := by
  rw [select_eq]
  exact if_pos h

/-- Whom a group comes to that does not lose is up to its seed and its members, not to its
probability. -/
theorem exists_select {members : List String} (hmembers : members ≠ []) (seed : UInt64) :
    ∃ id ∈ members, ∀ e, loses e seed = false → select e members seed = .member id := by
  have hindex : (Lot.ofSeed seed).index members.length < members.length :=
    Source.pick_lt (List.length_pos_iff.mpr hmembers) (Source.seeded seed).roll.2
  refine ⟨_, List.getElem_mem hindex, fun e hwins => ?_⟩
  have hlot : (!e.isEligible || e.probability.le (Lot.ofSeed seed).roll) = false := hwins
  rw [select_eq_selection, Lot.selection, hlot, List.getElem?_eq_getElem hindex]
  rfl

/-! ## Certain draws -/

/-- The bits of the number that a source draws: the upper 53 of the 64 of a word. -/
def Source.rollBits (s : Source) : Nat := (s.word64.1 >>> 11).toNat

theorem Source.rollBits_lt (s : Source) : s.rollBits < twoPow 53 := by
  have hword : s.word64.1.toNat < 2 ^ 64 := s.word64.1.toNat_lt
  rw [rollBits, UInt64.toNat_shiftRight]
  show s.word64.1.toNat >>> 11 < 2 ^ 53
  rw [Nat.shiftRight_eq_div_pow]
  omega

theorem Source.roll_fst (s : Source) : s.roll.1 = .ofFraction53 s.rollBits := by
  rw [roll, rollBits]

theorem Source.roll_lt_one (s : Source) : s.roll.1.lt (.ofNat 1) = true := by
  rw [roll_fst]
  exact Binary64.ofFraction53_lt_one s.rollBits_lt

/-- With the probability one, one of the members is drawn whatever the seed. -/
theorem select_of_certain {e : Eligibility} (henabled : e.enabled = true)
    (hunspent : e.alreadyHit = false) (hone : e.probability = .ofNat 1) {members : List String}
    (hmembers : members ≠ []) (seed : UInt64) :
    ∃ id ∈ members, select e members seed = .member id := by
  have heligible : e.isEligible = true := by
    rw [Eligibility.isEligible, henabled, hunspent, hone]
    decide +kernel
  have hroll : e.probability.le (rollOf seed) = false := by
    rw [hone]
    exact Binary64.not_le_of_lt (Source.seeded seed).roll_lt_one
  obtain ⟨id, hid, hselect⟩ := exists_select hmembers seed
  refine ⟨id, hid, hselect e ?_⟩
  rw [loses, heligible, hroll]
  rfl

end FaultDrill.Draw
