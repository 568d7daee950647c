import FaultDrill.Catalog.Machine
import FaultDrill.Client
/-!
# Machines of a catalog

The client for machines that a catalog describes. There is no provider that could terminate them; a
script is run over a login, which is closed again whatever happens.
-/
namespace FaultDrill

/-- What the client for machines of a catalog needs. -/
structure LocalClient (σ : Type) where
  /-- The machine of an id, as the catalog has it now. -/
  machine? : σ → String → Option Machine
  connector : Connector σ
  defaults : Credentials.Defaults
  scriptTimeout : Span

namespace LocalClient

/-- The fault of a script on an instance. -/
def faultOf (limit : Span) (id : String) : Remote.Fault → Fault
  | .timedOut => .timedOut "script" id limit
  | .notStarted reason => .scriptFailure id none reason
  | .interrupted reason => .scriptInterrupted id reason

/-- The result of a script on an instance: only an exit status of zero is a success. -/
def resultOf (limit : Span) (id : String) :
    Except Remote.Fault Remote.Output → Except Fault Remote.Output
  | .error why => .error (faultOf limit id why)
  | .ok output =>
    if output.status = 0 then .ok output
    else .error (.scriptFailure id (some output.status) (Text.trim output.stderr))

/-- The credentials for a machine, unless its own key is missing. -/
def credentialsOf (defaults : Credentials.Defaults) (id : String) :
    Option Machine → Except Fault Credentials
  | none => .error (.instanceNotFound id)
  | some m =>
    match m.keyError with
    | some reason => .error (.keyUnavailable id reason)
    | none => .ok (Credentials.resolve m.login defaults)

/-- Runs a script on an instance. -/
def runScript (l : LocalClient σ) (id : String) (c : Credentials) (s : Script) :
    StateM σ (Except Fault Remote.Output) := do
  if !c.isEnabled then return .error (.credentialsDisabled id)
  match l.machine? (← get) id with
  | none => return .error (.instanceNotFound id)
  | some m =>
    match ← l.connector m.endpoint c with
    | .error why => return .error why
    | .ok session => do
      let (command, input) := Credentials.invocation c s
      let result ← session.exec command input l.scriptTimeout
      session.close
      return resultOf l.scriptTimeout id result

/-- The client for machines of a catalog. -/
def client (l : LocalClient σ) : Client σ where
  backend := "local"
  terminate _ := return .error (.unsupported "local" "terminate")
  credentials id := return credentialsOf l.defaults id (l.machine? (← get) id)
  runScript := l.runScript

end LocalClient
end FaultDrill
