import FaultDrill.Proofs.Binary64.Unit
import FaultDrill.Proofs.Draw.Lot
/-!
# Odds

What the probability of a group has to do with its draws, in exact numbers. The number that is drawn
is a count of 2^53 parts of one (`roll_exact`), and a group loses the draw where its probability is
zero or not above that number (`loses_iff`).
-/
namespace FaultDrill.Draw

variable {e : Eligibility}

/-- The number that is drawn is exactly as many parts of 2^53 as its bits say. -/
theorem roll_exact (seed : UInt64) : (rollOf seed).isFinite = true ∧ 0 ≤ (rollOf seed).units ∧
    (rollOf seed).units * twoPow 53 = (Source.seeded seed).rollBits * Binary64.one := by
  obtain ⟨m, k, hfinite, hvalue⟩ := Binary64.ofFraction53_exact (Source.seeded seed).rollBits_lt
  rw [rollOf, Source.roll_fst, hfinite]
  refine ⟨rfl, Int.natCast_nonneg _, ?_⟩
  rw [Binary64.units]
  exact_mod_cast hvalue

theorem units_roll_lt (seed : UInt64) : (rollOf seed).units < Binary64.one := by
  rw [← Binary64.units_one, ← Binary64.lt_iff_units (roll_exact seed).1 Binary64.isFinite_one]
  exact (Source.seeded seed).roll_lt_one

/-- What makes a group be passed over, with a probability from zero to one: the probability is zero,
or the number that is drawn is not below it. -/
theorem loses_iff (he : e.enabled = true) (hhit : e.alreadyHit = false) (hp : e.probability.InUnit)
    (seed : UInt64) : loses e seed = true ↔
      e.probability.units = 0 ∨ e.probability.units ≤ (rollOf seed).units := by
  have hzero : Binary64.zero.isFinite = true := rfl
  rw [loses, Bool.or_eq_true, Bool.not_eq_true', Eligibility.isEligible, he, hhit,
    Binary64.le_iff_units hp.1 (roll_exact seed).1]
  show (Binary64.zero.lt e.probability) = false ∨ _ ↔ _
  rw [← Bool.not_eq_true, Binary64.lt_iff_units hzero hp.1, Binary64.units_zero]
  have hnonneg := hp.2.1
  omega

end FaultDrill.Draw
