import FaultDrill.Schedule
/-!
# The pace of a schedule

Between two cycles a schedule waits until the next one is due. It sleeps in naps, short enough not
to miss for long that it was asked to stop: it looks before each nap, and once more when the cycle
is due.
-/
namespace FaultDrill

/-- What a schedule keeps its pace by; the actions take place in the monad `m`. -/
structure Pace (m : Type → Type) where
  /-- Whether the schedule was asked to stop. -/
  isStopped : m Bool
  /-- Whether the next cycle is due. -/
  isDue : m Bool
  /-- Sleeps for a moment, no longer than until the next cycle is due. -/
  nap : m Unit

namespace Pace

/-- The longest nap, in milliseconds. -/
def longestNap : Nat := 50

/-- The naps that a wait of some milliseconds takes at most. -/
def napsIn (millis : Nat) : Nat := millis / longestNap + 1

/-- Waits until the next cycle is due, in at most `naps` naps, and says whether the schedule was
asked to stop. -/
def wait [Monad m] (p : Pace m) : (naps : Nat) → m Bool
  | 0 => p.isStopped
  | naps + 1 => do
    if ← p.isDue then p.isStopped
    else if ← p.isStopped then return true
    else
      p.nap
      p.wait naps

/-- The schedule that runs cycles at this pace. -/
def schedule [Monad m] (p : Pace m) (naps : Nat) (cycle : m (Except Fault CycleReport))
    (report : CycleReport → m Unit) : Schedule m where
  cycle
  report
  isStopped := p.isStopped
  wait := p.wait naps

end Pace
end FaultDrill
