import FaultDrill.Group
import FaultDrill.Instant.Text
import FaultDrill.Json.Printer
import FaultDrill.Json.Reader
/-!
# Events

An event records one attempt to disrupt an instance: what was tried, when, and how it ended. An
attempt that was skipped leaves the group's window unspent; every other event counts.
-/
namespace FaultDrill
open Document

/-- How a disruption ended. -/
inductive Outcome where
  | succeeded
  | failed
  /-- Nothing was tried, for want of a way to log in. -/
  | skipped
  /-- The backend cannot do what was asked. -/
  | unsupported
  /-- The disruption began and its result is unknown. -/
  | timedOut
  deriving DecidableEq, Repr, Inhabited

namespace Outcome

/-- The outcome in a document. -/
def word : Outcome → String
  | succeeded => "succeeded"
  | failed => "failed"
  | skipped => "skipped"
  | unsupported => "unsupported"
  | timedOut => "timed_out"

/-- The outcome that a word of a document names. -/
def ofWord : String → Option Outcome
  | "succeeded" => some succeeded
  | "failed" => some failed
  | "skipped" => some skipped
  | "unsupported" => some unsupported
  | "timed_out" => some timedOut
  | _ => none

/-- The outcome in a report for people. -/
def display : Outcome → String
  | succeeded => "SUCCEEDED"
  | failed => "FAILED"
  | skipped => "SKIPPED"
  | unsupported => "UNSUPPORTED"
  | timedOut => "TIMED_OUT"

/-- Whether an event with this outcome spends its group's window. -/
def counts : Outcome → Bool
  | skipped => false
  | _ => true

/-- Reads an outcome. -/
def reader : Reader Outcome := Reader.oneOf ofWord

@[simp]
theorem ofWord_word (o : Outcome) : ofWord o.word = some o := by cases o <;> rfl

end Outcome

/-- Reads a timestamp. -/
def Instant.reader : Reader Instant := fun n => do
  let s ← Reader.text n
  match Instant.parse? s with
  | some t => .ok t
  | none => .error .refused

/-- One attempt to disrupt an instance. -/
structure Event where
  group : String
  kind : GroupKind
  instanceId : String
  disruption : String
  time : Instant
  outcome : Outcome
  detail : Option String
  deriving DecidableEq, Repr, Inhabited

namespace Event

/-- How an event is read. -/
def form : Form Event :=
  Event.mk <$> Form.required "group" Reader.text <*> Form.required "group_type" GroupKind.reader <*>
    Form.required "instance" Reader.text <*> Form.required "disruption" Reader.text <*>
    Form.required "timestamp" Instant.reader <*> Form.required "outcome" Outcome.reader <*>
    Form.defaulting "detail" none (Reader.optional Reader.text)

/-- Reads an event. -/
def reader : Reader Event := form.reader .ignored

/-- The event as a document; a detail only if there is one. -/
def document (e : Event) : Value :=
  .record <|
    [("group", .text e.group), ("group_type", .text e.kind.word), ("instance", .text e.instanceId),
      ("disruption", .text e.disruption), ("timestamp", .text e.time.document),
      ("outcome", .text e.outcome.word)] ++
    match e.detail with
    | some d => [("detail", .text d)]
    | none => []

/-- The event on one line. -/
def line (e : Event) : String := Json.compact e.document

/-- Reads an event from a line. -/
def ofLine (s : String) : Except Document.Fault Event := Json.read reader s

/-- Whether the event spends the window of `group` that begins at `start`. -/
def countsFor (e : Event) (group : String) (start : Instant) : Bool :=
  e.group == group && decide (start ≤ e.time) && e.outcome.counts

end Event
end FaultDrill
