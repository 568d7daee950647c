import FaultDrill.Event
import FaultDrill.Proofs.Document.Written
import FaultDrill.Proofs.Instant.Text
import FaultDrill.Proofs.Json.Damage
/-!
# Events on their lines

An event is read back from its line (`ofLine_line`). A line that is cut off before its last character
holds no event (`ofLine_of_isPrefix`), and no line end stands inside a line.
-/
namespace FaultDrill.Event
open Document Json

/-- The members of an event's document. -/
def members (e : Event) : List (String × Value) :=
  [("group", .text e.group), ("group_type", .text e.kind.word), ("instance", .text e.instanceId),
    ("disruption", .text e.disruption), ("timestamp", .text e.time.document),
    ("outcome", .text e.outcome.word)] ++
  match e.detail with
  | some d => [("detail", .text d)]
  | none => []

theorem document_eq (e : Event) : e.document = .record e.members := rfl

theorem lasting_document (e : Event) : Lasting e.document := by
  rcases e with ⟨_, _, _, _, _, _, _ | _⟩ <;>
    simp [document_eq, members, Lasting, tokens, memberTokens, Value.text, atomToken, Token.Lasting]

theorem memberTokens_closes (e : Event) : ∀ t ∈ memberTokens e.members, t.closes = false := by
  rcases e with ⟨_, _, _, _, _, _, _ | _⟩ <;>
    simp [members, tokens, memberTokens, Value.text, atomToken, Token.closes]

/-- The fields of an event's document. -/
def fields (e : Event) : Fields where
  get? := fun _ name => Form.find? name 0 (Value.memberNodes e.members)
  stop := (Value.memberNodes e.members).length
  positional := false

theorem text_reader (s : String) : Reader.text (Value.text s).node = .ok s := rfl

theorem groupKind_reader (k : GroupKind) :
    GroupKind.reader (Value.text k.word).node = .ok k := by
  cases k <;> rfl

theorem outcome_reader (o : FaultDrill.Outcome) :
    FaultDrill.Outcome.reader (Value.text o.word).node = .ok o := by
  cases o <;> rfl

theorem instant_reader {t : Instant} (ht : t.Representable) :
    Instant.reader (Value.text t.document).node = .ok t := by
  rw [Instant.reader, text_reader]
  simp [bind, Except.bind, Instant.parse?_document ht]

/-- The keys of an event's document are in order. -/
theorem keyFault?_members (e : Event) :
    Form.keyFault? form.names .ignored true 0 [] (Value.memberNodes e.members) = none := by
  rcases e with ⟨_, _, _, _, _, _, _ | _⟩ <;> rfl

/-- A reader finds in the document of an event the event. -/
theorem reader_node {e : Event} (he : e.time.Representable) : reader e.document.node = .ok e := by
  have hgroup : (Form.required "group" Reader.text).read 0 e.fields = .ok e.group :=
    Form.required_read (p := 0) rfl (text_reader e.group)
  have hkind : (Form.required "group_type" GroupKind.reader).read 1 e.fields = .ok e.kind :=
    Form.required_read (p := 1) rfl (groupKind_reader e.kind)
  have hid : (Form.required "instance" Reader.text).read 2 e.fields = .ok e.instanceId :=
    Form.required_read (p := 2) rfl (text_reader e.instanceId)
  have hdisruption : (Form.required "disruption" Reader.text).read 3 e.fields = .ok e.disruption :=
    Form.required_read (p := 3) rfl (text_reader e.disruption)
  have htime : (Form.required "timestamp" Instant.reader).read 4 e.fields = .ok e.time :=
    Form.required_read (p := 4) rfl (instant_reader he)
  have houtcome : (Form.required "outcome" FaultDrill.Outcome.reader).read 5 e.fields =
      .ok e.outcome := Form.required_read (p := 5) rfl (outcome_reader e.outcome)
  have hdetail : (Form.defaulting "detail" none (Reader.optional Reader.text)).read 6 e.fields =
      .ok e.detail := by
    rcases e with ⟨_, _, _, _, _, _, _ | _⟩ <;> rfl
  refine Form.reader_record (keyFault?_members e) ?_
  exact Form.read_seq (Form.read_seq (Form.read_seq (Form.read_seq (Form.read_seq (Form.read_seq
    (Form.read_map hgroup) hkind) hid) hdisruption) htime) houtcome) hdetail

/-- An event is read back from its line. -/
theorem ofLine_line {e : Event} (he : e.time.Representable) : ofLine e.line = .ok e := by
  rw [ofLine, line, read_compact reader (lasting_document e), reader_node he]

/-! ## The characters of a line -/

theorem toList_line (e : Event) : e.line.toList = compactChars (.record e.members) :=
  String.toList_ofList

theorem toList_line_shape (e : Event) : ∃ cs, e.line.toList = '\x7b' :: (cs ++ ['\x7d']) := by
  rw [toList_line, compactChars]
  exact ⟨_, rfl⟩

theorem printable_line {e : Event} {c : Char} (h : c ∈ e.line.toList) : 0x20 ≤ c.toNat := by
  rw [toList_line] at h
  exact printable_compactChars (lasting_document e) h

/-- A line that is cut off before its last character holds no event. -/
theorem ofLine_of_isPrefix {e : Event} {p : List Char} (hp : p <+: e.line.toList)
    (hne : p ≠ e.line.toList) (a : Event) : ofLine (String.ofList p) ≠ .ok a := by
  rw [toList_line] at hp hne
  exact read_of_isPrefix reader (lasting_document e) (memberTokens_closes e) hp hne a

end FaultDrill.Event
