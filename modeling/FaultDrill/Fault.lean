import FaultDrill.Span
import FaultDrill.Text.Quoted
/-!
# Faults of a drill

Everything that can go wrong between reading the catalog and recording an event. Two causes stop the
control loop; the others become the outcome of one attempt.
-/
namespace FaultDrill

/-- Why something could not be done. -/
inductive Fault where
  /-- A catalog location names nothing that can be read. -/
  | catalogUnresolved (location : String)
  /-- A catalog was found and is not sound. -/
  | catalogUnusable (location reason : String)
  | instanceNotFound (id : String)
  /-- There is no key and no password to log in with. -/
  | credentialsDisabled (id : String)
  /-- The instance's own key could not be read. -/
  | keyUnavailable (id reason : String)
  | connectFailure (endpoint reason : String)
  /-- A script ended with a status other than zero, or did not start. -/
  | scriptFailure (id : String) (status : Option Int) (reason : String)
  /-- A script started and its connection broke before there was a result. -/
  | scriptInterrupted (id reason : String)
  | timedOut (operation id : String) (limit : Span)
  | unsupported (backend operation : String)
  | terminateFailure (id reason : String)
  | ledgerUnavailable (reason : String)
  | config (reason : String)
  deriving DecidableEq, Repr

namespace Fault

/-- What went wrong, in one line. -/
def message : Fault → String
  | catalogUnresolved location =>
    "instance catalog at '" ++ location ++
      "' did not resolve to a file, URL, or embedded resource"
  | catalogUnusable location reason =>
    "instance catalog at " ++ location ++ " could not be parsed: " ++ reason
  | instanceNotFound id => "instance " ++ id ++ " not found in catalog"
  | credentialsDisabled id => "no usable ssh credentials for instance " ++ id
  | keyUnavailable id reason =>
    "private key for instance " ++ id ++ " could not be loaded: " ++ reason
  | connectFailure endpoint reason => "unable to connect to " ++ endpoint ++ ": " ++ reason
  | scriptFailure id status reason =>
    "script on " ++ id ++ " failed (exit status " ++ Text.Quoted.option toString status ++ "): " ++
      reason
  | scriptInterrupted id reason =>
    "script on " ++ id ++ " was interrupted, result unknown: " ++ reason
  | timedOut operation id limit =>
    operation ++ " on " ++ id ++ " did not finish within " ++ limit.message
  | unsupported backend operation => backend ++ " backend does not support " ++ operation
  | terminateFailure id reason => "terminate of " ++ id ++ " failed: " ++ reason
  | ledgerUnavailable reason => "event ledger unavailable: " ++ reason
  | config reason => "configuration error: " ++ reason

/-- Whether the fault stops the control loop. -/
def isFatal : Fault → Bool
  | catalogUnresolved _ | ledgerUnavailable _ => true
  | _ => false

end Fault
end FaultDrill
