import FaultDrill.Engine
/-!
# Schedules

A schedule runs cycles one after the other until it is asked to stop, enough cycles were run, or a
cycle meets a fault that stops the control loop. Cycles with other faults count as run.
-/
namespace FaultDrill

/-- What a schedule works with; its actions take place in the monad `m`. -/
structure Schedule (m : Type → Type) where
  /-- Runs one cycle. -/
  cycle : m (Except Fault CycleReport)
  /-- Takes the report of a cycle. -/
  report : CycleReport → m Unit
  /-- Whether the schedule was asked to stop. -/
  isStopped : m Bool
  /-- Waits until the next cycle is due, and says whether the schedule was asked to stop. -/
  wait : m Bool

namespace Schedule

/-- How a schedule ended. -/
inductive Ending where
  /-- After so many cycles. -/
  | completed (cycles : Nat)
  | fault (why : Fault)
  /-- The schedule was not followed to its end. -/
  | unfinished (cycles : Nat)
  deriving DecidableEq, Repr, Inhabited

/-- Whether a number of cycles is enough. -/
def isEnough (most : Option Nat) (completed : Nat) : Bool :=
  match most with
  | some n => decide (n ≤ completed)
  | none => false

/-- Takes the result of a cycle: the fault that ends the schedule, if there is one. -/
def take [Monad m] (s : Schedule m) : Except Fault CycleReport → m (Option Fault)
  | .ok report => do
    s.report report
    return none
  | .error why => return if why.isFatal then some why else none

/-- Follows a schedule for at most `rounds` more cycles. Whether there were enough cycles is looked
at after each. -/
def follow [Monad m] (s : Schedule m) (most : Option Nat) : (rounds completed : Nat) → m Ending
  | 0, completed => return .unfinished completed
  | rounds + 1, completed => do
    if ← s.isStopped then return .completed completed
    match ← s.take (← s.cycle) with
    | some why => return .fault why
    | none =>
      if isEnough most (completed + 1) then return .completed (completed + 1)
      if ← s.wait then return .completed (completed + 1)
      s.follow most rounds (completed + 1)

/-- Follows a schedule to its end. Without a number of cycles it is followed for `rounds` cycles. -/
def run [Monad m] (s : Schedule m) (most : Option Nat) (rounds : Nat) : m Ending :=
  s.follow most (match most with | some n => max n 1 | none => rounds) 0

end Schedule
end FaultDrill
