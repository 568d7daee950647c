import FaultDrill.Proofs.Binary64.Exact
/-!
# Numbers from zero to one

Probabilities and the numbers held against them are finite numbers from zero to one. Their order is
that of their values in units, so what is said of them can be said of integers.
-/
namespace FaultDrill.Binary64

/-- A number from zero to one. Neither an infinite number nor `nan` is. -/
def InUnit (x : Binary64) : Prop := x.isFinite = true ∧ 0 ≤ x.units ∧ x.units ≤ one

theorem units_one : (ofNat 1).units = one := by rw [ofNat_one, units, one, ← twoPow_add]

theorem isFinite_one : (ofNat 1).isFinite = true := by
  rw [ofNat_one]
  rfl

theorem inUnit_one : (ofNat 1).InUnit :=
  ⟨isFinite_one, by rw [units_one]; omega, Int.le_of_eq units_one⟩

/-- The order of finite numbers is that of their units. -/
theorem le_iff_units {x y : Binary64} (hx : x.isFinite = true) (hy : y.isFinite = true) :
    x.le y = true ↔ x.units ≤ y.units := by
  cases x with
  | nan => cases hx
  | infinite _ => cases hx
  | finite a m s =>
    cases y with
    | nan => cases hy
    | infinite _ => cases hy
    | finite b n t => simp [le, lt]

/-- The strict order of finite numbers is that of their units. -/
theorem lt_iff_units {x y : Binary64} (hx : x.isFinite = true) (hy : y.isFinite = true) :
    x.lt y = true ↔ x.units < y.units := by
  cases x with
  | nan => cases hx
  | infinite _ => cases hx
  | finite a m s =>
    cases y with
    | nan => cases hy
    | infinite _ => cases hy
    | finite b n t => simp [lt]

theorem units_zero : zero.units = 0 := rfl

theorem inUnit_iff (x : Binary64) : x.InUnit ↔ (zero.le x && x.le (ofNat 1)) = true := by
  rw [Bool.and_eq_true]
  cases x with
  | nan => exact iff_of_false (fun h => nomatch h.1) (fun h => nomatch h.1)
  | infinite negative =>
    rw [ofNat_one]
    cases negative with
    | true => exact iff_of_false (fun h => nomatch h.1) (fun h => nomatch h.1)
    | false => exact iff_of_false (fun h => nomatch h.1) (fun h => nomatch h.2)
  | finite negative m s =>
    rw [le_iff_units rfl rfl, le_iff_units rfl isFinite_one, units_one, units_zero]
    exact and_iff_right rfl

end FaultDrill.Binary64
