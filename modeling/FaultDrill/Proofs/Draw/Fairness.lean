import Mathlib.Algebra.BigOperators.Group.Finset.Basic
import Mathlib.Algebra.Order.Floor.Div
import Mathlib.Data.FinEnum
import Mathlib.Order.Interval.Finset.Nat
import FaultDrill.Proofs.Draw.Lot
/-!
# Fair draws

How an index comes out of the words of a source. The words that give a certain index are those whose
product with the count lies in an interval as long as the count times a power of two
(`answer_eq_some_iff`). So there are as many of them for one index as for another (`card_answer`),
and at least half of all words give one (`half_answered`). The index that is drawn is that of the
first word that gives one (`pick_of_first`).
-/
namespace FaultDrill.Draw.Source

/-! ## The zone of accepted words -/

/-- How many of the 32 bits of a number stand before its first bit that is set. -/
def leadingZeros (n : Nat) : Nat := (BitVec.ofNat 32 n).clz.toNat

variable {n : Nat}

theorem leadingZeros_eq (hn : 0 < n) (hlt : n < 2 ^ 32) : leadingZeros n = 31 - n.log2 := by
  have hval : (BitVec.ofNat 32 n).toNat = n := by rw [BitVec.toNat_ofNat, Nat.mod_eq_of_lt hlt]
  have hne : BitVec.ofNat 32 n ≠ 0#32 := by
    intro h
    rw [h] at hval
    exact absurd hval (Nat.ne_of_lt hn)
  have hzeros : leadingZeros n < 32 := BitVec.lt_def.mp (BitVec.clz_lt_iff_ne_zero.mpr hne)
  have hle := BitVec.two_pow_sub_clz_le_toNat_of_ne_zero (by decide) hne
  have hgt := BitVec.toNat_lt_two_pow_sub_clz (x := BitVec.ofNat 32 n)
  rw [hval, ← leadingZeros] at hle hgt
  have hlog : n.log2 = 31 - leadingZeros n := by
    rw [Nat.log2_eq_iff (Nat.ne_of_gt hn)]
    refine ⟨hle, ?_⟩
    rwa [show 31 - leadingZeros n + 1 = 32 - leadingZeros n by omega]
  omega

/-- The count with its first bit shifted to the upper end of a word. -/
theorem shifted_between (hn : 0 < n) (hlt : n < 2 ^ 32) :
    2 ^ 31 ≤ n * 2 ^ leadingZeros n ∧ n * 2 ^ leadingZeros n ≤ 2 ^ 32 := by
  have hlog : n.log2 < 32 := (Nat.log2_lt (Nat.ne_of_gt hn)).mpr hlt
  rw [leadingZeros_eq hn hlt]
  constructor
  · calc 2 ^ 31 = 2 ^ n.log2 * 2 ^ (31 - n.log2) := by
          rw [← Nat.pow_add]
          congr 1
          omega
      _ ≤ n * 2 ^ (31 - n.log2) := Nat.mul_le_mul_right _ (Nat.log2_self_le (Nat.ne_of_gt hn))
  · calc n * 2 ^ (31 - n.log2) ≤ 2 ^ (n.log2 + 1) * 2 ^ (31 - n.log2) :=
          Nat.mul_le_mul_right _ (Nat.le_of_lt Nat.lt_log2_self)
      _ = 2 ^ 32 := by
          rw [← Nat.pow_add]
          congr 1
          omega

/-- The index that a word gives for a count, where the word is accepted: the upper half of their
product, of which the lower half must be in the zone. -/
def answer (n : Nat) (v : UInt32) : Option Nat :=
  if v.toNat * n % 2 ^ 32 ≤ (n <<< leadingZeros n) - 1 then some ((v.toNat * n) >>> 32) else none

theorem answer_eq (hn : 0 < n) (hlt : n < 2 ^ 32) (v : UInt32) :
    answer n v = if accepted v n then some (product v n).1 else none := by
  have hzone : zone n = (n <<< leadingZeros n) - 1 := by
    rw [Nat.shiftLeft_eq, leadingZeros_eq hn hlt]
    rfl
  have hproduct : product v n = ((v.toNat * n) >>> 32, v.toNat * n % 2 ^ 32) := by
    rw [Nat.shiftRight_eq_div_pow]
    rfl
  simp only [accepted, decide_eq_true_iff, hzone, hproduct, answer]

theorem answer_lt (hn : 0 < n) (hlt : n < 2 ^ 32) {v : UInt32} {i : Nat} (h : answer n v = some i) :
    i < n := by
  rw [answer_eq hn hlt, Option.ite_none_right_eq_some, Option.some.injEq] at h
  obtain ⟨-, rfl⟩ := h
  exact product_fst_lt v hn

/-- A quotient and a bound on the remainder say in which interval a number lies. -/
theorem div_eq_and_mod_lt_iff {d m x i : Nat} (hm : m ≤ d) :
    x / d = i ∧ x % d < m ↔ i * d ≤ x ∧ x < i * d + m := by
  constructor
  · rintro ⟨rfl, hmod⟩
    have hx := Nat.div_add_mod' x d
    omega
  · rintro ⟨hle, hlt⟩
    have hdiv : x / d = i := by
      apply Nat.div_eq_of_lt_le hle
      rw [Nat.succ_mul]
      omega
    have hx := Nat.div_add_mod' x d
    rw [hdiv] at hx
    exact ⟨hdiv, by omega⟩

/-- The words that give an index are those whose products with the count lie in one interval. -/
theorem answer_eq_some_iff (hn : 0 < n) (hlt : n < 2 ^ 32) {v : UInt32} {i : Nat} :
    answer n v = some i ↔
      i * 2 ^ 32 ≤ v.toNat * n ∧ v.toNat * n < i * 2 ^ 32 + n * 2 ^ leadingZeros n := by
  have hpos : 0 < n * 2 ^ leadingZeros n := Nat.mul_pos hn (Nat.two_pow_pos _)
  rw [← div_eq_and_mod_lt_iff (shifted_between hn hlt).2, answer, Option.ite_none_right_eq_some,
    Option.some.injEq, Nat.shiftLeft_eq, Nat.shiftRight_eq_div_pow]
  omega

/-! ## Counting words -/

theorem card_words_between (a : Nat) {b : Nat} (hb : b ≤ 2 ^ 32) :
    ({v | a ≤ v.toNat ∧ v.toNat < b} : Finset UInt32).card = b - a := by
  rw [← Nat.card_Ico]
  apply Finset.card_nbij' UInt32.toNat UInt32.ofNat
  · intro v hv
    simpa using hv
  · intro x hx
    obtain ⟨hax, hxb⟩ : a ≤ x ∧ x < b := by simpa using hx
    have hval : (UInt32.ofNat x).toNat = x := UInt32.toNat_ofNat_of_lt (Nat.lt_of_lt_of_le hxb hb)
    simp [hval, hax, hxb]
  · intro v _
    exact UInt32.ofNat_toNat
  · intro x hx
    obtain ⟨-, hxb⟩ : a ≤ x ∧ x < b := by simpa using hx
    exact UInt32.toNat_ofNat_of_lt (Nat.lt_of_lt_of_le hxb hb)

/-- The words that give an index are as many as the power of two that fills the zone. -/
theorem card_answer (hlt : n < 2 ^ 32) {i : Nat} (hi : i < n) :
    ({v | answer n v = some i} : Finset UInt32).card = 2 ^ leadingZeros n := by
  have hn : 0 < n := Nat.zero_lt_of_lt hi
  obtain ⟨-, hfits⟩ := shifted_between hn hlt
  -- the bounds on the product, divided by the count and rounded up, are bounds on the word
  have hwords : ({v | answer n v = some i} : Finset UInt32) =
      ({v | i * 2 ^ 32 ⌈/⌉ n ≤ v.toNat ∧
        v.toNat < (i * 2 ^ 32 + n * 2 ^ leadingZeros n) ⌈/⌉ n} : Finset UInt32) := by
    ext v
    simp only [Finset.mem_filter, Finset.mem_univ, true_and]
    rw [answer_eq_some_iff hn hlt, ceilDiv_le_iff_le_mul hn, ← Nat.not_le, ← Nat.not_le,
      ceilDiv_le_iff_le_mul hn, Nat.mul_comm n v.toNat]
  -- the interval is a multiple of the count long, so the rounding does not change how many
  have hend : (i * 2 ^ 32 + n * 2 ^ leadingZeros n) ⌈/⌉ n =
      i * 2 ^ 32 ⌈/⌉ n + 2 ^ leadingZeros n := by
    rw [Nat.ceilDiv_eq_add_pred_div, Nat.ceilDiv_eq_add_pred_div, ← Nat.add_mul_div_left _ _ hn]
    congr 1
    omega
  have hwithin : (i * 2 ^ 32 + n * 2 ^ leadingZeros n) ⌈/⌉ n ≤ 2 ^ 32 := by
    rw [ceilDiv_le_iff_le_mul hn]
    omega
  rw [hwords, card_words_between _ hwithin, hend, Nat.add_sub_cancel_left]

/-- All accepted words, taken index by index. -/
theorem card_answered (hn : 0 < n) (hlt : n < 2 ^ 32) :
    ({v | (answer n v).isSome} : Finset UInt32).card = n * 2 ^ leadingZeros n := by
  have hanswered : ({v | (answer n v).isSome} : Finset UInt32) =
      (Finset.range n).biUnion fun i => {v | answer n v = some i} := by
    ext v
    simp only [Finset.mem_filter, Finset.mem_univ, true_and, Finset.mem_biUnion, Finset.mem_range,
      Option.isSome_iff_exists]
    exact ⟨fun ⟨i, hi⟩ => ⟨i, answer_lt hn hlt hi, hi⟩, fun ⟨i, _, hi⟩ => ⟨i, hi⟩⟩
  rw [hanswered, Finset.card_biUnion, Finset.sum_const_nat (m := 2 ^ leadingZeros n),
    Finset.card_range]
  · intro i hi
    exact card_answer hlt (Finset.mem_range.mp hi)
  · intro i _ j _ hij
    rw [Function.onFun, Finset.disjoint_filter]
    intro v _ hi hj
    exact hij (Option.some.inj (hi.symm.trans hj))

theorem half_answered (hn : 0 < n) (hlt : n < 2 ^ 32) :
    2 ^ 32 ≤ 2 * ({v | (answer n v).isSome} : Finset UInt32).card := by
  obtain ⟨hhalf, -⟩ := shifted_between hn hlt
  rw [card_answered hn hlt]
  omega

/-! ## The word that is taken -/

/-- The word of 32 bits with a number, counted from where the source stands. -/
def halfWordAt (s : Source) (i : Nat) : UInt32 := s.key.word (s.place + i)

theorem indexWithin_of_first {draws k : Nat} {s : Source} (hk : k < draws)
    (hrejected : ∀ j < k, accepted (s.halfWordAt j) n = false)
    (haccepted : accepted (s.halfWordAt k) n = true) :
    (indexWithin draws n s).1 = some (product (s.halfWordAt k) n).1 := by
  -- a rejected word takes one draw, so those that are left still reach the accepted word
  induction draws generalizing k s with
  | zero => cases hk
  | succ draws ih =>
    have hstep : indexWithin (draws + 1) n s =
        if accepted (s.halfWordAt 0) n then (some (product (s.halfWordAt 0) n).1, s.word32.2)
        else indexWithin draws n s.word32.2 := rfl
    have hnext : ∀ j, s.word32.2.halfWordAt j = s.halfWordAt (j + 1) := by
      intro j
      rw [halfWordAt, halfWordAt, Nat.add_comm j, ← Nat.add_assoc]
      rfl
    rw [hstep]
    cases k with
    | zero => rw [if_pos haccepted]
    | succ k =>
      rw [hrejected 0 (Nat.zero_lt_succ k), if_neg Bool.false_ne_true, ← hnext]
      apply ih (Nat.lt_of_succ_lt_succ hk)
      · intro j hj
        rw [hnext]
        exact hrejected (j + 1) (Nat.succ_lt_succ hj)
      · rwa [hnext]

/-- The index that is drawn is the one that the first accepted word gives. -/
theorem pick_of_first (hn : 0 < n) (hlt : n < 2 ^ 32) {k i : Nat} {s : Source}
    (hk : k ≤ twoPow 32) (hnone : ∀ j < k, answer n (s.halfWordAt j) = none)
    (hsome : answer n (s.halfWordAt k) = some i) : s.pick n = i := by
  rw [answer_eq hn hlt, Option.ite_none_right_eq_some, Option.some.injEq] at hsome
  obtain ⟨haccepted, rfl⟩ := hsome
  have hrefused : ∀ j < k, accepted (s.halfWordAt j) n = false := by
    intro j hj
    have hrejected := hnone j hj
    rw [answer_eq hn hlt, ite_eq_right_iff] at hrejected
    simpa using hrejected
  rw [pick_eq, indexWithin_of_first (Nat.lt_add_one_of_le hk) hrefused haccepted]
  rfl

end FaultDrill.Draw.Source
