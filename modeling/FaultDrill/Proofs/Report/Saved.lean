import FaultDrill.Proofs.Event
import FaultDrill.Proofs.FileTree
import FaultDrill.Proofs.Json.Layout
import FaultDrill.Report.Save
/-!
# Reports read back

A report that was saved as JSON is read back as it was (`json_reads_back`), whatever texts and times
are in it. The verdict of a group stands among the other fields of the group, its name first; each of
its readers takes the fields that it knows and leaves the others to the rest, so a text in one field
is never taken for another one. Verdicts of the draw are left out here, as their numbers are written
in decimal form.
-/
namespace FaultDrill
open Document Json

/-! ## Groups -/

namespace GroupReport
open Event (text_reader groupKind_reader outcome_reader)

/-- The fields of a group and its verdict. -/
def entries (g : GroupReport) : List (String × Value) :=
  [("group", .text g.group), ("group_type", .text g.kind.word), ("members", .nat g.members)] ++
    g.verdict.members

variable {g : GroupReport}

theorem head_reader (hmembers : g.members < twoPow 64) :
    head.reader .ignored g.document.node = .ok fun v => ⟨g.group, g.kind, g.members, v⟩ := by
  have hgroup : (Form.required "group" Reader.text).read 0 (Value.fields g.entries) =
      .ok g.group := Form.required_read (p := 0) rfl (text_reader g.group)
  have hkind : (Form.required "group_type" GroupKind.reader).read 1 (Value.fields g.entries) =
      .ok g.kind := Form.required_read (p := 1) rfl (groupKind_reader g.kind)
  have hsize : (Form.required "members" (Reader.natural (twoPow 64 - 1))).read 2
      (Value.fields g.entries) = .ok g.members :=
    Form.required_read (p := 2) rfl (Reader.natural_node (Nat.le_pred_of_lt hmembers))
  refine Form.reader_record ?_ ?_
  · rcases g with ⟨_, _, _, _ | _ | _ | _ | _ | _ | _⟩ <;> rfl
  · exact Form.read_seq (Form.read_seq (Form.read_map hgroup) hkind) hsize

/-- A verdict among other fields is read by the form that goes with its name. -/
theorem amongFields_of_form {form : Form Verdict} (hform : Verdict.formOf g.verdict.tag = some form)
    (hkeys : Form.keyFault? form.names .ignored true 0 [] (Value.memberNodes g.entries) = none)
    (hread : form.read 0 (Value.fields g.entries) = .ok g.verdict) :
    Verdict.amongFields Verdict.tagOrNumberReader g.document.node = .ok g.verdict := by
  have hname : Verdict.tagOrNumberReader (Value.text g.verdict.tag).node = .ok form := by
    show Verdict.formNamed g.verdict.tag = .ok form
    rw [Verdict.formNamed, hform]
  have htag : (Form.required "verdict" Verdict.tagOrNumberReader).reader .ignored
      g.document.node = .ok form := by
    refine Form.reader_record ?_ (Form.required_read (p := 3) rfl hname)
    rcases g with ⟨_, _, _, _ | _ | _ | _ | _ | _ | _⟩ <;> rfl
  rw [Verdict.amongFields, htag]
  exact Form.reader_record hkeys hread

theorem verdict_reader (h : ∀ roll p, g.verdict ≠ .notSelected roll p) :
    Verdict.amongFields Verdict.tagOrNumberReader g.document.node = .ok g.verdict := by
  obtain ⟨group, kind, members, verdict⟩ := g
  cases verdict with
  | disabled => exact amongFields_of_form rfl rfl rfl
  | alreadyHit => exact amongFields_of_form rfl rfl rfl
  | notSelected roll p => exact absurd rfl (h roll p)
  | emptyGroup => exact amongFields_of_form rfl rfl rfl
  | leashed id =>
    refine amongFields_of_form rfl rfl ?_
    exact Form.read_map (Form.required_read (p := 4) rfl (text_reader id))
  | disrupted id outcome =>
    refine amongFields_of_form rfl rfl ?_
    exact Form.read_seq (Form.read_map (Form.required_read (p := 4) rfl (text_reader id)))
      (Form.required_read (p := 5) rfl (outcome_reader outcome))
  | deadlineExceeded => exact amongFields_of_form rfl rfl rfl

theorem reader_node (hmembers : g.members < twoPow 64)
    (hdrawn : ∀ roll p, g.verdict ≠ .notSelected roll p) :
    reader g.document.node = .ok g := by
  have hrecord : reader g.document.node = (do
      let withVerdict ← head.reader .ignored g.document.node
      return withVerdict (← Verdict.amongFields Verdict.tagOrNumberReader g.document.node)) := rfl
  rw [hrecord, head_reader hmembers, verdict_reader hdrawn]
  rfl

theorem firm_document (hmembers : g.members < twoPow 64)
    (hdrawn : ∀ roll p, g.verdict ≠ .notSelected roll p) : Firm g.document := by
  refine firm_record ?_
  have hsize : Firm (Value.nat g.members) := firm_nat (Nat.le_pred_of_lt hmembers)
  obtain ⟨group, kind, members, verdict⟩ := g
  rw [List.forall_mem_append]
  refine ⟨by simp [firm_text, hsize], ?_⟩
  cases verdict with
  | notSelected roll p => exact absurd rfl (hdrawn roll p)
  | _ => simp [Verdict.members, firm_text]

end GroupReport

/-! ## Reports -/

namespace CycleReport
open Event (instant_reader)

/-- A report without numbers in decimal form: its times are ones that a text can tell
(`Instant.representable_iff`), its groups have as many members as can be counted, and in none of them
did the draw decide. -/
structure Plain (r : CycleReport) : Prop where
  startedAt : r.startedAt.Representable
  finishedAt : r.finishedAt.Representable
  windowStart : r.windowStart.Representable
  members : ∀ g ∈ r.groups, g.members < twoPow 64
  drawn : ∀ g ∈ r.groups, ∀ roll p, g.verdict ≠ .notSelected roll p

/-- The fields of a report. -/
def entries (r : CycleReport) : List (String × Value) :=
  [("started_at", .text r.startedAt.document), ("finished_at", .text r.finishedAt.document),
    ("window_start", .text r.windowStart.document), ("groups", .list (r.groups.map (·.document)))]

variable {r : CycleReport}

theorem reader_node (h : r.Plain) : reader r.document.node = .ok r := by
  have hstarted : (Form.required "started_at" Instant.reader).read 0 (Value.fields r.entries) =
      .ok r.startedAt := Form.required_read (p := 0) rfl (instant_reader h.startedAt)
  have hfinished : (Form.required "finished_at" Instant.reader).read 1 (Value.fields r.entries) =
      .ok r.finishedAt := Form.required_read (p := 1) rfl (instant_reader h.finishedAt)
  have hwindow : (Form.required "window_start" Instant.reader).read 2 (Value.fields r.entries) =
      .ok r.windowStart := Form.required_read (p := 2) rfl (instant_reader h.windowStart)
  have hgroups : (Form.required "groups" (Reader.list GroupReport.reader)).read 3
      (Value.fields r.entries) = .ok r.groups := by
    refine Form.required_read (p := 3) rfl (Reader.list_node fun g hg => ?_)
    exact GroupReport.reader_node (h.members g hg) (h.drawn g hg)
  have hkeys : Form.keyFault? form.names .ignored true 0 [] (Value.memberNodes r.entries) = none :=
    rfl
  refine Form.reader_record hkeys ?_
  exact Form.read_seq (Form.read_seq (Form.read_seq (Form.read_map hstarted) hfinished) hwindow)
    hgroups

theorem firm_document (h : r.Plain) : Firm r.document := by
  refine firm_record ?_
  have hgroups : Firm (.list (r.groups.map (·.document))) := by
    refine firm_list (List.forall_mem_map.mpr fun g hg => ?_)
    exact GroupReport.firm_document (h.members g hg) (h.drawn g hg)
  simp [firm_text, hgroups]

theorem read_json (h : r.Plain) :
    Json.read reader (Report.Format.json.render r.document) = .ok r := by
  have hrender : Report.Format.json.render r.document = Json.pretty r.document := rfl
  rw [hrender, read_pretty reader (firm_document h)]
  exact reader_node h

end CycleReport

/-- What is written to a file by saving a report is the report's document. -/
theorem Report.readText_of_save {files files' : FileTree} {r : CycleReport} {path saved : String}
    (h : save files r path = .ok (saved, files')) :
    files'.readText saved = .ok ((destination path).1.render r.document) := by
  unfold save at h
  generalize destination path = place at h ⊢
  obtain ⟨format, target⟩ := place
  dsimp only at h ⊢
  cases hwrite : files.write target (Text.Utf8.bytes (format.render r.document)) with
  | error why =>
    rw [hwrite] at h
    cases h
  | ok written =>
    rw [hwrite] at h
    cases h
    exact FileTree.readText_of_write hwrite

/-- A report is read back from its JSON text, and from the file that it was saved in as JSON. -/
theorem CycleReport.json_reads_back {r : CycleReport} (h : r.Plain) :
    Json.read reader (Report.Format.json.render r.document) = .ok r ∧
      ∀ files path saved files', Report.save files r path = .ok (saved, files') →
        (Report.destination path).1 = .json →
          ∃ text, files'.readText saved = .ok text ∧ Json.read reader text = .ok r := by
  refine ⟨read_json h, ?_⟩
  intro files path saved files' hsave hformat
  have htext := Report.readText_of_save hsave
  rw [hformat] at htext
  exact ⟨_, htext, read_json h⟩

namespace CycleReport

/-- A report from a leap second to a year before the first, in a window of a year with five digits.
It has a verdict of every other kind, and names that look like fields and verdicts or have to be escaped. -/
def odd : CycleReport where
  startedAt := ⟨1483228799, 1500000000⟩
  finishedAt := ⟨-62198755200, 0⟩
  windowStart := ⟨253402300800, 1⟩
  groups := [
    ⟨"verdict", .localMachines, 18446744073709551615, .disabled⟩,
    ⟨"not_selected", .cloud, 1, .alreadyHit⟩,
    ⟨"", .localMachines, 0, .emptyGroup⟩,
    ⟨"\"leashed\"", .localMachines, 1, .leashed "\x7b\"roll\":1\x7d"⟩,
    ⟨"line\nend\x01", .cloud, 2, .disrupted "outcome" .timedOut⟩,
    ⟨"\\u00e9é", .cloud, 3, .deadlineExceeded⟩]

theorem odd_plain : odd.Plain where
  startedAt := by decide
  finishedAt := by decide
  windowStart := by decide
  members := by decide
  drawn := by
    simp only [odd, List.forall_mem_cons]
    exact ⟨nofun, nofun, nofun, nofun, nofun, nofun, nofun⟩

/-- It is read back from its text and from a file that it was saved in. -/
theorem odd_reads_back :
    odd.Plain ∧ Json.read reader (Report.Format.json.render odd.document) = .ok odd ∧
      ∃ files' text, Report.save (.bare []) odd "cycle" = .ok ("cycle.json", files') ∧
        files'.readText "cycle.json" = .ok text ∧ Json.read reader text = .ok odd := by
  have hwrite (content : List UInt8) : (FileTree.bare []).write "cycle.json" content =
      .ok ⟨[(["cycle.json"], .file content)], []⟩ := rfl
  have hdestination : Report.destination "cycle" = (.json, "cycle.json") := by decide
  have hsave : ∃ files', Report.save (.bare []) odd "cycle" = .ok ("cycle.json", files') := by
    unfold Report.save
    rw [hdestination]
    dsimp only
    rw [hwrite]
    exact ⟨_, rfl⟩
  obtain ⟨files', hsave⟩ := hsave
  obtain ⟨hread, hsaved⟩ := json_reads_back odd_plain
  obtain ⟨text, htext, hagain⟩ := hsaved _ _ _ _ hsave (by rw [hdestination])
  exact ⟨odd_plain, hread, files', text, hsave, htext, hagain⟩

end CycleReport
end FaultDrill
