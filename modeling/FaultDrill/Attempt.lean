import FaultDrill.Client
import FaultDrill.Event
/-!
# Attempts

An attempt is one disruption of one instance and how it ended. A script is tried only with
credentials that allow a login. Where the backend cannot terminate an instance, a fallback script
runs instead, if there is one.
-/
namespace FaultDrill

/-- What one disruption came to. -/
structure Attempt where
  /-- What the disruption is recorded as. -/
  disruption : String
  outcome : Outcome
  detail : Option String
  deriving DecidableEq, Repr, Inhabited

namespace Attempt

/-- The outcome of an attempt that met a fault. -/
def outcomeOf : Fault → Outcome
  | .credentialsDisabled _ => .skipped
  | .unsupported .. => .unsupported
  | .timedOut .. => .timedOut
  | .scriptInterrupted .. => .timedOut
  | _ => .failed

/-- The attempt that met a fault. -/
def ofFault (disruption : String) (why : Fault) : Attempt :=
  ⟨disruption, outcomeOf why, some why.message⟩

/-- The attempt of a script that ran: its detail is what it printed, if it printed anything. -/
def ofOutput (disruption : String) (output : Remote.Output) : Attempt :=
  ⟨disruption, .succeeded, some (Text.trim output.stdout) |>.filter (· != "")⟩

/-- The attempt of a script, from the result of running it. -/
def ofResult (disruption : String) : Except Fault Remote.Output → Attempt
  | .ok output => ofOutput disruption output
  | .error why => ofFault disruption why

/-- Tries to run a script on an instance. -/
def runScript (client : Client σ) (id : String) (s : Script) : StateM σ Attempt := do
  match ← client.credentials id with
  | .error why => return ofFault s.label why
  | .ok credentials =>
    if !credentials.isEnabled then return ofFault s.label (.credentialsDisabled id)
    return ofResult s.label (← client.runScript id credentials s)

/-- Tries to terminate an instance. -/
def terminate (client : Client σ) (fallback : Option Script) (id : String) : StateM σ Attempt := do
  match ← client.terminate id with
  | .ok () => return ⟨Disruption.terminate.label, .succeeded, none⟩
  | .error why =>
    match why, fallback with
    | .unsupported .., some s => runScript client id s
    | _, _ => return ofFault Disruption.terminate.label why

/-- Tries to disrupt an instance. -/
def perform (client : Client σ) (fallback : Option Script) (id : String) :
    Disruption → StateM σ Attempt
  | .terminate => terminate client fallback id
  | .script s => runScript client id s

end Attempt
end FaultDrill
