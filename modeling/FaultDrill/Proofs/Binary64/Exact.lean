import FaultDrill.Binary64.Basic
/-!
# Numbers without rounding

A number of units that is a mantissa below 2^53 times a power of two is not rounded
(`ofUnits_exact`). So a fraction of 53 random bits is exact, and below one, and natural numbers
below 2^53 are themselves, as are their products below it (`IsNatural.mul`).
-/
namespace FaultDrill

theorem twoPow_add (m n : Nat) : twoPow (m + n) = twoPow m * twoPow n := Nat.pow_add 2 m n

theorem twoPow_pos (n : Nat) : 0 < twoPow n := Nat.two_pow_pos n

theorem twoPow_le {m n : Nat} (h : m ≤ n) : twoPow m ≤ twoPow n :=
  Nat.pow_le_pow_right (by decide) h

namespace Binary64

theorem divNearest_mul (q : Nat) {den : Nat} (h : 0 < den) : divNearest (q * den) den = q := by
  simp only [divNearest, Nat.mul_div_cancel _ h, Nat.mul_mod_left, Nat.mul_zero, if_pos h]

/-- The scale of a number of units leaves a mantissa of at most 53 bits. -/
theorem lt_twoPow_scale (units : Nat) : units < twoPow (units.log2 - 52 + 53) := by
  have hlog : units < twoPow (units.log2 + 1) := Nat.lt_log2_self
  exact Nat.lt_of_lt_of_le hlog (twoPow_le (by omega))

/-- The scale of a mantissa below 2^53 that was scaled by `k` is at most `k`. -/
theorem scale_le {m : Nat} (hm : m < twoPow 53) (k : Nat) : (m * twoPow k).log2 - 52 ≤ k := by
  by_cases hzero : m * twoPow k = 0
  · simp [hzero]
  · have hlt : m * twoPow k < twoPow (53 + k) := by
      rw [twoPow_add]
      exact Nat.mul_lt_mul_of_pos_right hm (twoPow_pos k)
    have hlog : (m * twoPow k).log2 < 53 + k := (Nat.log2_lt hzero).mpr hlt
    omega

/-- A mantissa of at most 53 bits, scaled, is not rounded. -/
theorem ofUnits_exact (negative : Bool) {m k den : Nat} (hm : m < twoPow 53) (hk : k ≤ maxScale)
    (hden : 0 < den) :
    ∃ m' k', ofUnits negative (m * twoPow k * den) den = .finite negative m' k' ∧
      m' * twoPow k' = m * twoPow k := by
  have hunits : m * twoPow k * den / den = m * twoPow k := Nat.mul_div_cancel _ hden
  have hscale := scale_le hm k
  have hbits := lt_twoPow_scale (m * twoPow k)
  rw [ofUnits, hunits]
  generalize (m * twoPow k).log2 - 52 = scale at hscale hbits ⊢
  -- the scale that is chosen divides the scale that was given
  have hquot : m * twoPow k = m * twoPow (k - scale) * twoPow scale := by
    rw [Nat.mul_assoc, ← twoPow_add, Nat.sub_add_cancel hscale]
  have hround : divNearest (m * twoPow k * den) (den * twoPow scale) = m * twoPow (k - scale) := by
    rw [hquot, Nat.mul_assoc, Nat.mul_comm (twoPow scale) den]
    exact divNearest_mul _ (Nat.mul_pos hden (twoPow_pos scale))
  have hmantissa : m * twoPow (k - scale) < twoPow 53 := by
    rw [hquot, Nat.add_comm scale 53, twoPow_add] at hbits
    exact Nat.lt_of_mul_lt_mul_right hbits
  refine ⟨m * twoPow (k - scale), scale, ?_, hquot.symm⟩
  simp only [hround, if_pos hmantissa, if_pos (Nat.le_trans hscale hk)]

/-- A fraction of 53 random bits is the number that it is meant to be: `n` of 2^53 parts of one. -/
theorem ofFraction53_exact {n : Nat} (h : n < twoPow 53) :
    ∃ m k, ofFraction53 n = .finite false m k ∧ m * twoPow k * twoPow 53 = n * one := by
  have hunits : n * one = n * twoPow 1021 * twoPow 53 := by
    rw [one, Nat.mul_assoc, ← twoPow_add]
  obtain ⟨m, k, hfinite, hvalue⟩ :=
    ofUnits_exact false (k := 1021) h (by decide) (twoPow_pos 53)
  refine ⟨m, k, ?_, ?_⟩
  · rw [ofFraction53, ofRatio, hunits, hfinite]
  · rw [hvalue, ← hunits]

theorem ofNat_one : ofNat 1 = .finite false (twoPow 52) 1022 := by decide +kernel

theorem ofFraction53_lt_one {n : Nat} (h : n < twoPow 53) :
    (ofFraction53 n).lt (ofNat 1) = true := by
  obtain ⟨m, k, hfinite, hvalue⟩ := ofFraction53_exact h
  have hone : twoPow 52 * twoPow 1022 = one := (twoPow_add 52 1022).symm
  have hlt : m * twoPow k < one := by
    apply Nat.lt_of_mul_lt_mul_right (a := twoPow 53)
    rw [hvalue, Nat.mul_comm one]
    exact Nat.mul_lt_mul_of_pos_right h (twoPow_pos 1074)
  rw [hfinite, ofNat_one]
  simp only [lt, units, hone, decide_eq_true_eq]
  exact_mod_cast hlt

/-! ## Natural numbers -/

/-- A number that is a certain natural number, with the sign bit clear. -/
structure IsNatural (x : Binary64) (n : Nat) : Prop where
  finite : x.isFinite = true
  unsigned : x.isNegative = false
  magnitude : x.magnitude = n * one

theorem isNatural_of_exact {x : Binary64} {n m k : Nat} (h : x = .finite false m k)
    (hvalue : m * twoPow k = n * one) : x.IsNatural n := by
  subst h
  exact ⟨rfl, rfl, hvalue⟩

theorem isNatural_ofNat {n : Nat} (h : n < twoPow 53) : (ofNat n).IsNatural n := by
  obtain ⟨m, k, hfinite, hvalue⟩ :=
    ofUnits_exact false (k := 1074) h (by decide) Nat.one_pos
  rw [Nat.mul_one, ← one] at hfinite
  exact isNatural_of_exact hfinite hvalue

variable {x y : Binary64} {p q : Nat}

/-- A product of natural numbers is exact below 2^53. -/
theorem IsNatural.mul (hx : x.IsNatural p) (hy : y.IsNatural q) (h : p * q < twoPow 53) :
    (x.mul y).IsNatural (p * q) := by
  obtain ⟨hfinite, hunsigned, hvalue⟩ := hx
  obtain ⟨hfinite', hunsigned', hvalue'⟩ := hy
  cases x with
  | nan => cases hfinite
  | infinite _ => cases hfinite
  | finite a m s =>
    cases y with
    | nan => cases hfinite'
    | infinite _ => cases hfinite'
    | finite b n t =>
      obtain rfl : a = false := hunsigned
      obtain rfl : b = false := hunsigned'
      have hp : m * twoPow s = p * one := hvalue
      have hq : n * twoPow t = q * one := hvalue'
      have hunits : m * twoPow s * (n * twoPow t) = p * q * twoPow 1074 * one := by
        rw [hp, hq, ← one, Nat.mul_mul_mul_comm, Nat.mul_assoc (p * q)]
      obtain ⟨m', k', hproduct, hexact⟩ :=
        ofUnits_exact false (k := 1074) h (by decide) (show 0 < one from twoPow_pos 1074)
      rw [← hunits] at hproduct
      exact isNatural_of_exact hproduct hexact

theorem IsNatural.roundNat_eq (hx : x.IsNatural p) : x.roundNat = p := by
  have hone : 0 < one := twoPow_pos 1074
  have hdouble : 2 * (p * one) + one = (2 * p + 1) * one := by
    rw [Nat.add_mul, Nat.one_mul, Nat.mul_assoc]
  rw [roundNat, hx.magnitude, hdouble, Nat.mul_div_mul_right _ _ hone]
  omega

end Binary64
end FaultDrill
