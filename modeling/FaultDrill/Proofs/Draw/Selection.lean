import FaultDrill.Draw.Selection
/-!
# Selection against a roll

`rollOf` is the number that a group with a seed draws; the group's probability has to exceed it for
one of the members to be drawn.
-/
namespace FaultDrill

namespace Binary64

theorem ofFraction53_ne_nan (n : Nat) : ofFraction53 n ≠ nan := by
  rw [ofFraction53, ofRatio, ofUnits]
  split <;> split <;> simp

/-- Numbers of which neither is `nan` are in order one way or the other. -/
theorem lt_of_not_le {x y : Binary64} (hx : x ≠ nan) (hy : y ≠ nan) (h : ¬ x.le y = true) :
    y.lt x = true := by
  cases x with
  | nan => exact absurd rfl hx
  | infinite a => cases y <;> simp_all [le]
  | finite a m s => cases y <;> simp_all [le]

theorem not_le_of_lt {x y : Binary64} (h : x.lt y = true) : y.le x = false := by
  cases x <;> cases y <;> simp_all [lt, le]

end Binary64

theorem Eligibility.pos_of_isEligible {e : Eligibility} (h : e.isEligible = true) :
    Binary64.zero.lt e.probability = true := by
  rw [isEligible, Bool.and_eq_true] at h
  exact h.2

namespace Draw

/-- The number that a group with a seed draws. -/
def rollOf (seed : UInt64) : Binary64 := (Source.seeded seed).roll.1

theorem rollOf_ne_nan (seed : UInt64) : rollOf seed ≠ .nan := Binary64.ofFraction53_ne_nan _

/-- Roll and victim come from one source, the roll first. -/
theorem select_eq (e : Eligibility) (members : List String) (seed : UInt64) :
    select e members seed =
      if !e.isEligible || e.probability.le (rollOf seed) then .passed (rollOf seed)
      else match ((Source.seeded seed).roll.2.choose members).1 with
        | some id => .member id
        | none => .nobody := by
  unfold select rollOf
  rcases (Source.seeded seed).roll with ⟨roll, source⟩
  rfl

theorem mem_of_choose {xs : List α} {s : Source} {a : α} (h : (s.choose xs).1 = some a) :
    a ∈ xs := by
  rw [Source.choose] at h
  split at h
  · cases h
  · exact List.mem_of_getElem? h

/-- A member is drawn only with a probability above zero and above the number drawn. -/
theorem select_eq_member {e : Eligibility} {members : List String} {seed : UInt64} {id : String}
    (h : select e members seed = .member id) :
    id ∈ members ∧ Binary64.zero.lt e.probability = true ∧
      (rollOf seed).lt e.probability = true := by
  rw [select_eq] at h
  split at h
  · cases h
  · rename_i hgate
    rw [Bool.or_eq_true, Bool.not_eq_true', not_or, Bool.not_eq_false] at hgate
    have hpos := Eligibility.pos_of_isEligible hgate.1
    have hnan : e.probability ≠ .nan := by
      intro heq
      rw [heq] at hpos
      cases hpos
    refine ⟨?_, hpos, Binary64.lt_of_not_le hnan (rollOf_ne_nan seed) hgate.2⟩
    split at h
    · rename_i hsome
      cases h
      exact mem_of_choose hsome
    · cases h

end Draw
end FaultDrill
