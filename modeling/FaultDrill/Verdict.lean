import FaultDrill.Event
import FaultDrill.Binary64.Text
/-!
# Verdicts and cycle reports

A cycle gives every group it looks at a verdict. The report of a cycle lists them with the group's
kind and size. In documents the verdict's name and its fields stand among the fields of the group.
-/
namespace FaultDrill
open Document

/-- What a cycle decides about a group. -/
inductive Verdict where
  /-- The group is switched off. -/
  | disabled
  /-- The group's window is spent. -/
  | alreadyHit
  /-- The draw went against it. -/
  | notSelected (roll probability : Binary64)
  /-- The group has no members. -/
  | emptyGroup
  /-- The instance would have been disrupted. -/
  | leashed (instanceId : String)
  /-- The instance was disrupted, with this outcome. -/
  | disrupted (instanceId : String) (outcome : Outcome)
  /-- The cycle's time was up before the group was looked at. -/
  | deadlineExceeded
  deriving DecidableEq, Repr, Inhabited

namespace Verdict

/-- The verdict's name in a document. -/
def tag : Verdict → String
  | disabled => "disabled"
  | alreadyHit => "already_hit"
  | notSelected .. => "not_selected"
  | emptyGroup => "empty_group"
  | leashed _ => "leashed"
  | disrupted .. => "disrupted"
  | deadlineExceeded => "deadline_exceeded"

/-- The names of the verdicts, in the order that numbers them. -/
def tags : List String :=
  ["disabled", "already_hit", "not_selected", "empty_group", "leashed", "disrupted",
    "deadline_exceeded"]

/-- The fields of a verdict in a document, its name first. -/
def members (v : Verdict) : List (String × Value) :=
  ("verdict", .text v.tag) ::
    match v with
    | notSelected roll probability => [("roll", .real roll), ("probability", .real probability)]
    | leashed id => [("instance", .text id)]
    | disrupted id outcome => [("instance", .text id), ("outcome", .text outcome.word)]
    | _ => []

/-- How the verdict with a given name is read. -/
def formOf : String → Option (Form Verdict)
  | "disabled" => some (pure disabled)
  | "already_hit" => some (pure alreadyHit)
  | "not_selected" => some
      (notSelected <$> Form.required "roll" Reader.real <*> Form.required "probability" Reader.real)
  | "empty_group" => some (pure emptyGroup)
  | "leashed" => some (leashed <$> Form.required "instance" Reader.text)
  | "disrupted" => some
      (disrupted <$> Form.required "instance" Reader.text <*>
        Form.required "outcome" Outcome.reader)
  | "deadline_exceeded" => some (pure deadlineExceeded)
  | _ => none

/-- The form that goes with a name. -/
def formNamed (name : String) : Except Document.Fault (Form Verdict) :=
  match formOf name with
  | some f => .ok f
  | none => .error (.unknownVariant name)

/-- Reads the name of a verdict. -/
def tagReader : Reader (Form Verdict) := fun n => do formNamed (← Reader.text n)

/-- Reads the name of a verdict, or its number in place of the name. -/
def tagOrNumberReader : Reader (Form Verdict)
  | .scalar (.atom (.number (.nat i))) =>
    match tags[i]? with
    | some name => formNamed name
    | none => .error .wrongValue
  | n => tagReader n

/-- Reads a verdict that stands among other fields. -/
def amongFields (r : Reader (Form Verdict)) : Reader Verdict := fun n => do
  let form ← (Form.required "verdict" r).reader .ignored n
  form.reader .ignored n

/-- Reads a verdict. As a list it begins with the name. -/
def reader : Reader Verdict
  | .list [] true _ => .error (.missingField "verdict")
  | .list (name :: rest) whole positional => do
    let form ← tagReader name
    form.reader .ignored (.list rest whole positional)
  | n => amongFields tagReader n

/-- The verdict in one line for people. -/
def describe : Verdict → String
  | disabled => "disabled"
  | alreadyHit => "already disrupted this window"
  | notSelected roll p => "not selected (roll " ++ roll.fixed 3 ++ " vs p " ++ p.fixed 3 ++ ")"
  | emptyGroup => "no instances"
  | leashed id => "leashed, would disrupt " ++ id
  | disrupted id outcome => outcome.display ++ " " ++ id
  | deadlineExceeded => "cycle deadline exceeded"

end Verdict

/-- The verdict on a group, with the group's kind and size. -/
structure GroupReport where
  group : String
  kind : GroupKind
  members : Nat
  verdict : Verdict
  deriving DecidableEq, Repr, Inhabited

namespace GroupReport

/-- The fields of a group report other than those of its verdict. -/
def head : Form (Verdict → GroupReport) :=
  (fun group kind members verdict => ⟨group, kind, members, verdict⟩) <$>
    Form.required "group" Reader.text <*> Form.required "group_type" GroupKind.reader <*>
    Form.required "members" (Reader.natural (twoPow 64 - 1))

/-- Reads a group report; it must be a record. -/
def reader : Reader GroupReport
  | .list .. => .error .wrongType
  | n => do
    let withVerdict ← head.reader .ignored n
    return withVerdict (← Verdict.amongFields Verdict.tagOrNumberReader n)

/-- The group report as a document. -/
def document (r : GroupReport) : Value :=
  .record <|
    [("group", .text r.group), ("group_type", .text r.kind.word), ("members", .nat r.members)] ++
    r.verdict.members

end GroupReport

/-- The report of a cycle. -/
structure CycleReport where
  startedAt : Instant
  finishedAt : Instant
  windowStart : Instant
  groups : List GroupReport
  deriving DecidableEq, Repr, Inhabited

namespace CycleReport

/-- How a cycle report is read. -/
def form : Form CycleReport :=
  CycleReport.mk <$> Form.required "started_at" Instant.reader <*>
    Form.required "finished_at" Instant.reader <*> Form.required "window_start" Instant.reader <*>
    Form.required "groups" (Reader.list GroupReport.reader)

/-- Reads a cycle report. -/
def reader : Reader CycleReport := form.reader .ignored

/-- The cycle report as a document. -/
def document (r : CycleReport) : Value :=
  .record [("started_at", .text r.startedAt.document), ("finished_at", .text r.finishedAt.document),
    ("window_start", .text r.windowStart.document), ("groups", .list (r.groups.map (·.document)))]

/-- The instances that were disrupted: group, instance and outcome. -/
def disruptions (r : CycleReport) : List (String × String × Outcome) :=
  r.groups.filterMap fun g =>
    match g.verdict with
    | .disrupted id outcome => some (g.group, id, outcome)
    | _ => none

end CycleReport
end FaultDrill
