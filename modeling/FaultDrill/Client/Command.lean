import FaultDrill.Client.Local
/-!
# Instances that a command terminates

The client for instances whose provider has a command to terminate them. The command is configured
as a list of words in which a placeholder stands for the instance. Scripts run as on machines of a
catalog.
-/
namespace FaultDrill

/-- What the client for instances of a provider needs. -/
structure CommandClient (σ : Type) where
  /-- The program and its arguments. -/
  command : List String
  timeout : Span
  runner : CommandRunner σ
  scripts : LocalClient σ

namespace CommandClient

/-- What stands for the instance in a command. -/
def placeholder : String := "\x7binstance\x7d"

/-- Checks that a command can work: there is a program, and the instance is named somewhere. -/
def check (command : List String) : Except Fault Unit :=
  if command.isEmpty then .error (.config "terminate_command must name a program")
  else if command.any fun word => Text.occurs placeholder.toList word.toList then .ok ()
  else .error (.config ("terminate_command must contain " ++ placeholder))

/-- The command for an instance. -/
def commandFor (command : List String) (id : String) : List String :=
  command.map fun word =>
    String.ofList (Text.replaceAll placeholder.toList id.toList word.toList)

/-- What the end of the command says about the instance. -/
def resultOf (limit : Span) (id : String) : CommandEnd → Except Fault Unit
  | .notStarted reason => .error (.terminateFailure id reason)
  | .timedOut => .error (.timedOut "terminate" id limit)
  | .ended status stderr =>
    if status = some 0 then .ok ()
    else .error <| .terminateFailure id <|
      "exit code " ++ Text.Quoted.option toString status ++ ": " ++
        Text.trim (Text.Utf8.stringLossy stderr)

/-- The client for instances of a provider. -/
def client (c : CommandClient σ) : Client σ where
  backend := "command"
  terminate id := return resultOf c.timeout id (← c.runner (commandFor c.command id) c.timeout)
  credentials := c.scripts.client.credentials
  runScript := c.scripts.client.runScript

end CommandClient
end FaultDrill
