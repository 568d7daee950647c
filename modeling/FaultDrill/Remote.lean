import FaultDrill.Text.Utf8
/-!
# Remote scripts

A script that was sent to a machine leaves an exit status and two outputs, or it is unknown how it
ended. Calls on a connection may stall: they have to be made again later. Every other fault of a
connection is final.
-/
namespace FaultDrill.Remote

/-- What a script left behind. -/
structure Output where
  status : Int
  stdout : String
  stderr : String
  deriving DecidableEq, Repr, Inhabited

/-- The output of a script from the bytes that arrived. Bytes that are no text are replaced. -/
def Output.ofBytes (status : Int) (stdout stderr : List UInt8) : Output :=
  ⟨status, Text.Utf8.stringLossy stdout, Text.Utf8.stringLossy stderr⟩

/-- Why a script has no output. -/
inductive Fault where
  /-- The script never reached the machine. -/
  | notStarted (reason : String)
  /-- The script was sent and did not end in time. -/
  | timedOut
  /-- The script was sent and the connection broke; its effect is unknown. -/
  | interrupted (reason : String)
  deriving DecidableEq, Repr, Inhabited

/-! ## Calls on a connection -/

/-- What kind of trouble a call met. -/
inductive Trouble.Kind where
  | reset
  | aborted
  | brokenPipe
  | timedOut
  | wouldBlock
  | interrupted
  | endOfFile
  | writeZero
  | notConnected
  | other
  deriving DecidableEq, Repr, Inhabited

/-- The wording of a kind of trouble. -/
def Trouble.Kind.message : Trouble.Kind → String
  | reset => "connection reset"
  | aborted => "connection aborted"
  | brokenPipe => "broken pipe"
  | timedOut => "timed out"
  | wouldBlock => "operation would block"
  | interrupted => "operation interrupted"
  | endOfFile => "unexpected end of file"
  | writeZero => "write zero"
  | notConnected => "not connected"
  | other => "other error"

/-- Trouble with a call. -/
structure Trouble where
  kind : Trouble.Kind
  reason : String
  deriving DecidableEq, Repr, Inhabited

namespace Trouble

/-- Trouble of a kind; without a reason of its own it has the wording of its kind. -/
def ofKind (kind : Kind) (reason : Option String) : Trouble := ⟨kind, reason.getD kind.message⟩

/-- Whether the call only has to be made again. -/
def isStall (t : Trouble) : Bool := t.kind == .wouldBlock || t.kind == .interrupted

/-- The trouble of a script that is not done in time. -/
def deadlinePassed : Trouble := ⟨.timedOut, "script deadline passed"⟩

end Trouble

/-- How a script ended that met trouble after it was sent. -/
def Fault.afterStart (t : Trouble) : Fault :=
  match t.kind with
  | .timedOut => .timedOut
  | _ => .interrupted t.reason

/-- Makes a call again as long as it stalls, and counts the calls. A stall at or after the deadline
is the end. The list holds what the calls answer, and all later ones answer `final`; `clock n` is
the time after `n` calls. -/
def poll (deadline : Nat) (clock : Nat → Nat) (final : α) :
    (calls : Nat) → List (Except Trouble α) → Except Trouble α × Nat
  | calls, [] => (.ok final, calls + 1)
  | calls, .ok a :: _ => (.ok a, calls + 1)
  | calls, .error t :: more =>
    if t.isStall then
      if deadline ≤ clock (calls + 1) then (.error .deadlinePassed, calls + 1)
      else poll deadline clock final (calls + 1) more
    else (.error t, calls + 1)

end FaultDrill.Remote
