import FaultDrill.Draw
/-!
# Selection

A group that is eligible draws from a source of its own: first the number that is held against its
probability, then the member that is disrupted.
-/
namespace FaultDrill

/-- Whether a group may be disrupted at all; it still has to win the draw. -/
structure Eligibility where
  enabled : Bool
  alreadyHit : Bool
  probability : Binary64
  deriving Repr

/-- Enabled, not hit in this window, and a probability above zero. -/
def Eligibility.isEligible (e : Eligibility) : Bool :=
  e.enabled && !e.alreadyHit && Binary64.zero.lt e.probability

namespace Draw

/-- What the draws of a group come to. -/
inductive Selection where
  /-- The group is left alone. -/
  | passed (roll : Binary64)
  /-- This member is disrupted. -/
  | member (id : String)
  /-- There is no member to disrupt. -/
  | nobody
  deriving DecidableEq, Repr

/-- The draws of a group with the given seed. The group is left alone when it is not eligible or the
number drawn is not below its probability. -/
def select (e : Eligibility) (members : List String) (seed : UInt64) : Selection :=
  let (roll, source) := (Source.seeded seed).roll
  if !e.isEligible || e.probability.le roll then .passed roll
  else match (source.choose members).1 with
    | some id => .member id
    | none => .nobody

end Draw
end FaultDrill
