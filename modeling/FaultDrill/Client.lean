import FaultDrill.Credentials
import FaultDrill.Fault
import FaultDrill.Remote
/-!
# Clients

A client carries out one disruptive action on one instance. It never tries twice: a fault is
reported to its caller. What a client changes is a state of type `σ`.
-/
namespace FaultDrill

/-- What can be done to instances. -/
structure Client (σ : Type) where
  /-- The backend's name in faults. -/
  backend : String
  /-- Ends an instance by way of its provider. -/
  terminate : (id : String) → StateM σ (Except Fault Unit)
  /-- How to log in to an instance. -/
  credentials : (id : String) → StateM σ (Except Fault Credentials)
  /-- Logs in and runs a script. -/
  runScript : (id : String) → Credentials → Script → StateM σ (Except Fault Remote.Output)

/-- An open login on a machine. -/
structure Session (σ : Type) where
  /-- Runs a command with an input, within a time. -/
  exec : (command : String) → (input : List UInt8) → (limit : Span) →
    StateM σ (Except Remote.Fault Remote.Output)
  /-- Logs out. -/
  close : StateM σ Unit

/-- Opens sessions on the machine at an endpoint. -/
abbrev Connector (σ : Type) :=
  (endpoint : String) → Credentials → StateM σ (Except Fault (Session σ))

/-- How a command of the provider ended. -/
inductive CommandEnd where
  /-- The command could not be started. -/
  | notStarted (reason : String)
  /-- The command ended, with a status unless it was killed. -/
  | ended (status : Option Int) (stderr : List UInt8)
  /-- The command was stopped because its time was up. -/
  | timedOut
  deriving DecidableEq, Repr, Inhabited

/-- Runs a command, given as program and arguments, within a time. -/
abbrev CommandRunner (σ : Type) := (command : List String) → (limit : Span) → StateM σ CommandEnd

end FaultDrill
