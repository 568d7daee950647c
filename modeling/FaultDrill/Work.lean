import FaultDrill.Client
import FaultDrill.Event
/-!
# Work

What one worker does, step by step, in a world that it shares with others. Work is made of deeds,
which the world answers, and of locks that are taken and given back. Between any two of its steps
the others may change the world.
-/
namespace FaultDrill

/-- What a worker does in the world. -/
inductive Deed where
  /-- Looks at the clock. -/
  | clock
  /-- Asks whether an event spends the window of a group that begins at an instant. -/
  | ask (group : String) (start : Instant)
  /-- Adds an event to the log. -/
  | append (ev : Event)
  | terminate (id : String)
  | credentials (id : String)
  | runScript (id : String) (c : Credentials) (s : Script)

namespace Deed

/-- What the world answers to a deed. -/
@[reducible]
def Answer : Deed → Type
  | clock => Nat
  | ask .. => Except Fault Bool
  | append _ => Except Fault Unit
  | terminate _ => Except Fault Unit
  | credentials _ => Except Fault Credentials
  | runScript .. => Except Fault Remote.Output

/-- The instance that a deed is about, if it is a call on the client. -/
def callee? : Deed → Option String
  | terminate id => some id
  | credentials id => some id
  | runScript id .. => some id
  | _ => none

/-- Whether a deed is a call on the client. -/
def isCall (d : Deed) : Bool := d.callee?.isSome

/-- Whether a deed adds to the log. -/
def isAppend : Deed → Bool
  | append _ => true
  | _ => false

end Deed

/-- What only one worker has at a time. -/
inductive Lock where
  | group (name : String)
  | member (id : String)
  deriving DecidableEq, Repr

/-- Work that comes to a result. -/
inductive Work (α : Type) where
  | done (a : α)
  /-- A deed, and what follows on the answer. -/
  | deed (d : Deed) (next : d.Answer → Work α)
  /-- Waits until nobody has the lock, and takes it. -/
  | lock (l : Lock) (rest : Work α)
  | unlock (l : Lock) (rest : Work α)

namespace Work

/-- Work, and more work on its result. -/
def bind : Work α → (α → Work β) → Work β
  | done a, f => f a
  | deed d next, f => .deed d fun answer => (next answer).bind f
  | lock l rest, f => .lock l (rest.bind f)
  | unlock l rest, f => .unlock l (rest.bind f)

instance : Monad Work where
  pure := done
  bind := bind

/-- Work under a lock. -/
def holding (l : Lock) (w : Work α) : Work α := .lock l (w >>= fun a => .unlock l (.done a))

/-- Looks at the clock. -/
def clock : Work Nat := .deed .clock .done

/-- Asks whether an event spends the window of a group that begins at an instant. -/
def ask (group : String) (start : Instant) : Work (Except Fault Bool) := .deed (.ask group start) .done

/-- Adds an event to the log. -/
def append (ev : Event) : Work (Except Fault Unit) := .deed (.append ev) .done

/-- Ends an instance by way of its provider. -/
def terminate (id : String) : Work (Except Fault Unit) := .deed (.terminate id) .done

/-- Asks how to log in to an instance. -/
def credentials (id : String) : Work (Except Fault Credentials) := .deed (.credentials id) .done

/-- Logs in and runs a script. -/
def runScript (id : String) (c : Credentials) (s : Script) : Work (Except Fault Remote.Output) :=
  .deed (.runScript id c s) .done

/-- The result of work that is over. -/
def result? : Work α → Option α
  | done a => some a
  | _ => none

/-- Work done without a break, in a world that nobody else changes. Then locks do not matter. -/
def run (does : (d : Deed) → StateM σ d.Answer) : Work α → StateM σ α
  | done a => return a
  | deed d next => fun s =>
    let (answer, s) := does d s
    (next answer).run does s
  | lock _ rest => rest.run does
  | unlock _ rest => rest.run does

end Work
end FaultDrill
