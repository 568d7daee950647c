import FaultDrill.Engine.Workers
import FaultDrill.Shell
/-!
# Outside

What a drill meets that is not in files: the machines that it logs in to, the commands that end
instances, the time, the workers, and whoever may ask it to stop. Requests are carried out whatever
these do. `Outside.still` is an outside in which nothing moves.
-/
namespace FaultDrill.CommandLine

/-- The outside of a drill. What it changes is a site, with connections of type `κ`. -/
structure Outside (κ : Type) where
  connections : κ
  connector : Connector (Site κ)
  /-- Runs the commands of a provider. -/
  runner : CommandRunner (Site κ)
  /-- The time at which a cycle begins. -/
  now : StateM (Site κ) Instant
  /-- The nanoseconds since the cycle began. -/
  elapsed : StateM (Site κ) Nat
  /-- How the workers of a cycle move. -/
  moves : List Nat
  /-- Whether a schedule was asked to stop. -/
  isStopped : StateM (Site κ) Bool
  /-- Waits until the next cycle is due, and says whether the schedule was asked to stop. -/
  wait : StateM (Site κ) Bool

namespace Outside

/-- No machine takes a login. -/
def refusing : Connector σ := fun endpoint _ =>
  return .error (.connectFailure endpoint "Connection refused (os error 111)")

/-- An outside without machines, in which it is always `now` and nobody asks a schedule to stop. The
commands that there are need no more than their arguments and the files. -/
def still (now : Instant) : Outside Unit where
  connections := ()
  connector := refusing
  runner := Shell.runner Site.files
  now := return now
  elapsed := return 0
  moves := []
  isStopped := return false
  wait := return false

/-- Runs a cycle of an engine. -/
def cycle (out : Outside κ) (e : Engine (Site κ)) :
    StateM (Engine.Running (Site κ)) (Except Fault CycleReport) := do
  let now ← Engine.Running.onWorld out.now
  e.cycleAs out.moves now

end Outside
end FaultDrill.CommandLine
