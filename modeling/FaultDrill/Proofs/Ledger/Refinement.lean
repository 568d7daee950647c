import FaultDrill.Ledger
import FaultDrill.Proofs.FileTree
import FaultDrill.Proofs.Ledger.Journal
/-!
# A ledger in a file is a ledger in memory

Ledgers are asked for one thing after another: to record an event, whether a window is spent, for
all events, and to be opened again. Whatever is in the file, its ledger gives the answers of a ledger
in memory that begins with the events read from the file, and the file only grows
(`answers_file`).
-/
namespace FaultDrill.Ledger

/-! ## Asking a ledger -/

/-- What a ledger is asked for. -/
inductive Request where
  | append (e : Event)
  | hasRecent (group : String) (start : Instant)
  | events
  | reopen
  deriving DecidableEq, Repr

/-- What a ledger answers. -/
inductive Answer where
  | done
  | spent (recent : Bool)
  | listed (es : List Event)
  deriving DecidableEq, Repr

/-- A ledger opened again. One in memory stays what it is. -/
def reopen (files : FileTree) : Ledger → Except Fault (Ledger × FileTree)
  | memory es => .ok (.memory es, files)
  | file path => openFile files path

/-- The answer to one request, the ledger and the files after it. -/
def answer (files : FileTree) (l : Ledger) : Request → Except Fault (Answer × Ledger × FileTree)
  | .append e => do
    let (l, files) ← l.append files e
    return (.done, l, files)
  | .hasRecent group start => do
    let recent ← l.hasRecent files group start
    return (.spent recent, l, files)
  | .events => do
    let es ← l.events files
    return (.listed es, l, files)
  | .reopen => do
    let (l, files) ← l.reopen files
    return (.done, l, files)

/-- The answers to requests, one after another. -/
def answers (files : FileTree) (l : Ledger) :
    List Request → Except Fault (List Answer × Ledger × FileTree)
  | [] => .ok ([], l, files)
  | r :: rs => do
    let (a, l, files) ← answer files l r
    let (as, l, files) ← answers files l rs
    return (a :: as, l, files)

/-- The events that a request records. -/
def Request.recorded : Request → List Event
  | .append e => [e]
  | _ => []

/-- The events that requests record, in order. -/
def recorded (rs : List Request) : List Event := rs.flatMap Request.recorded

/-! ## One request -/

section
variable {files : FileTree} {path : String} {loc : Location} {bytes : List UInt8}
  {es : List Event}

theorem events_of_read_error {why : FileTree.Fault} (h : files.read path = .error why) :
    (file path).events files = .error (unavailable path why) := by
  rw [events, h]
  rfl

theorem events_of_read (h : files.read path = .ok bytes) : (file path).events files =
    match Journal.events bytes with
    | some es => .ok es
    | none => .error (unavailable path .notText) := by
  rw [events, h]
  rfl

theorem events_file_eq_ok : (file path).events files = .ok es ↔
    ∃ bytes, files.read path = .ok bytes ∧ Journal.events bytes = some es := by
  cases hread : files.read path with
  | error why => simp [events_of_read_error hread]
  | ok bytes => cases hevents : Journal.events bytes <;> simp [events_of_read hread, hevents]

theorem append_file (h : files.Holds path loc bytes) (e : Event) :
    (file path).append files e = .ok (file path,
      files.set loc (.file (bytes ++ Journal.addition bytes e))) := by
  have hread := FileTree.read_eq_ok_iff.2 ⟨loc, h⟩
  simp [append, hread, h.extend, bind, Except.bind]

theorem openFile_file (h : files.Holds path loc bytes) :
    openFile files path = .ok (file path, files.set loc (.file bytes)) := by
  have happend := h.append []
  rw [List.append_nil] at happend
  unfold openFile
  cases hparent : Path.parent? path with
  | none => simp [happend, bind, Except.bind, pure, Except.pure]
  | some parent =>
    by_cases hne : parent = ""
    · simp [hne, happend, bind, Except.bind, pure, Except.pure]
    · simp [hne, h.makeParent hparent hne, happend, bind, Except.bind]

/-- One request to the file's ledger: it is answered as in memory, and the file keeps what it held.
-/
theorem answer_file (h : files.Holds path loc bytes) (hes : Journal.events bytes = some es)
    {r : Request} (hr : ∀ e ∈ r.recorded, e.time.Representable) :
    ∃ a files' more, answer files (file path) r = .ok (a, file path, files') ∧
      (∀ world, answer world (memory es) r = .ok (a, memory (es ++ r.recorded), world)) ∧
      files'.Holds path loc (bytes ++ more) ∧
      Journal.events (bytes ++ more) = some (es ++ r.recorded) := by
  have hevents : (file path).events files = .ok es :=
    events_file_eq_ok.2 ⟨bytes, FileTree.read_eq_ok_iff.2 ⟨loc, h⟩, hes⟩
  cases r with
  | append e =>
    have he := hr e (List.mem_singleton_self e)
    refine ⟨.done, _, Journal.addition bytes e, ?_, fun world => rfl, h.set _, ?_⟩
    · rw [answer, append_file h]
      rfl
    · rw [Journal.events_addition bytes he, hes]
      rfl
  | hasRecent group start =>
    simp only [Request.recorded, List.append_nil]
    refine ⟨.spent (es.any (·.countsFor group start)), files, [], ?_, fun world => rfl, ?_, ?_⟩
    · rw [answer, hasRecent, hevents]
      rfl
    · rwa [List.append_nil]
    · rwa [List.append_nil]
  | events =>
    simp only [Request.recorded, List.append_nil]
    refine ⟨.listed es, files, [], ?_, fun world => rfl, ?_, ?_⟩
    · rw [answer, hevents]
      rfl
    · rwa [List.append_nil]
    · rwa [List.append_nil]
  | reopen =>
    simp only [Request.recorded, List.append_nil]
    refine ⟨.done, files.set loc (.file bytes), [], ?_, fun world => rfl, ?_, ?_⟩
    · rw [answer, reopen, openFile_file h]
      rfl
    · rw [List.append_nil]
      exact h.set bytes
    · rwa [List.append_nil]

/-- A request that is answered, and then the others. -/
theorem answers_cons {l l' l'' : Ledger} {files' files'' : FileTree} {r : Request} {a : Answer}
    {rs : List Request} {as : List Answer} (h : answer files l r = .ok (a, l', files'))
    (hs : answers files' l' rs = .ok (as, l'', files'')) :
    answers files l (r :: rs) = .ok (a :: as, l'', files'') := by
  simp [answers, h, hs, bind, Except.bind, pure, Except.pure]

/-- Requests one after another: by induction on them, with the file's content as it grows. -/
theorem answers_of_holds (h : files.Holds path loc bytes) (hes : Journal.events bytes = some es)
    {rs : List Request} (hrs : ∀ e ∈ recorded rs, e.time.Representable) :
    ∃ as files' more, answers files (file path) rs = .ok (as, file path, files') ∧
      (∀ world, answers world (memory es) rs = .ok (as, memory (es ++ recorded rs), world)) ∧
      files'.Holds path loc (bytes ++ more) ∧
      Journal.events (bytes ++ more) = some (es ++ recorded rs) := by
  induction rs generalizing files bytes es with
  | nil =>
    refine ⟨[], files, [], rfl, ?_, ?_, ?_⟩
    · intro world
      rw [recorded, List.flatMap_nil, List.append_nil]
      rfl
    · rwa [List.append_nil]
    · rwa [recorded, List.flatMap_nil, List.append_nil, List.append_nil]
  | cons r rs ih =>
    have hcons : recorded (r :: rs) = r.recorded ++ recorded rs := List.flatMap_cons
    rw [hcons] at hrs ⊢
    obtain ⟨a, files₁, more, hfile, hmemory, hholds, hread⟩ :=
      answer_file h hes (r := r) fun e he => hrs e (List.mem_append_left _ he)
    obtain ⟨as, files₂, more', hfile', hmemory', hholds', hread'⟩ :=
      ih hholds hread fun e he => hrs e (List.mem_append_right _ he)
    -- what the first request adds to the file stands before what the others add
    rw [List.append_assoc] at hholds' hread'
    rw [List.append_assoc] at hread'
    refine ⟨a :: as, files₂, more ++ more', answers_cons hfile hfile', ?_, hholds', hread'⟩
    intro world
    rw [← List.append_assoc]
    exact answers_cons (hmemory world) (hmemory' world)

/-- The ledger of a file answers any requests as a ledger in memory that begins with the events of
the file. Every request succeeds, and the file only grows. -/
theorem answers_file (h : (file path).events files = .ok es) {rs : List Request}
    (hrs : ∀ e ∈ recorded rs, e.time.Representable) :
    ∃ as files', answers files (file path) rs = .ok (as, file path, files') ∧
      answers files (memory es) rs = .ok (as, memory (es ++ recorded rs), files) ∧
      (file path).events files' = .ok (es ++ recorded rs) ∧
      ∃ old more, files.read path = .ok old ∧ files'.read path = .ok (old ++ more) := by
  obtain ⟨bytes, hread, hes⟩ := events_file_eq_ok.1 h
  obtain ⟨loc, hholds⟩ := FileTree.read_eq_ok_iff.1 hread
  obtain ⟨as, files', more, hfile, hmemory, hholds', hes'⟩ := answers_of_holds hholds hes hrs
  have hread' := FileTree.read_eq_ok_iff.2 ⟨loc, hholds'⟩
  exact ⟨as, files', hfile, hmemory files, events_file_eq_ok.2 ⟨_, hread', hes'⟩,
    bytes, more, hread, hread'⟩

end

/-! ## A file with a torn line -/

/-- A file with a line that holds no event and one that broke off within a text. -/
def tornFiles : FileTree :=
  ⟨[(["journal"], .file (Text.Utf8.bytes "no event\n\x7b\"group\":\"r"))], []⟩

/-- An event in a leap second, with a control character, a quote and no ASCII letter in its texts. -/
def quotedEvent : Event where
  group := "é\x01"
  kind := .cloud
  instanceId := "\""
  disruption := "Ω"
  time := ⟨1483228799, 1500000000⟩
  outcome := .failed
  detail := some ""

/-- The event recorded behind the torn line, looked for, and read after opening again. -/
def tornRequests : List Request :=
  [.append quotedEvent, .hasRecent "é\x01" ⟨0, 0⟩, .reopen, .events]

theorem tornFiles_answers : (file "journal").events tornFiles = .ok [] ∧
    ∃ as files', answers tornFiles (file "journal") tornRequests =
        .ok (as, file "journal", files') ∧
      answers tornFiles (memory []) tornRequests =
        .ok (as, memory ([] ++ recorded tornRequests), tornFiles) ∧
      (file "journal").events files' = .ok ([] ++ recorded tornRequests) ∧
      ∃ old more, tornFiles.read "journal" = .ok old ∧ files'.read "journal" = .ok (old ++ more) := by
  have h : (file "journal").events tornFiles = .ok [] :=
    events_file_eq_ok.2 ⟨_, rfl, by decide +kernel⟩
  exact ⟨h, answers_file h (by decide)⟩

end FaultDrill.Ledger
