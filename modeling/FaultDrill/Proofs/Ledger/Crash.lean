import FaultDrill.Proofs.Ledger.Refinement
/-!
# A ledger after a crash

A crash leaves a part of the ledger's file, cut at any byte. If the cut falls between two characters,
the ledger goes on with exactly the events whose texts were written to their ends. If it falls within
one, the last line is no text, and no event can be read any more, also when others are recorded
later (`crashed`).
-/
namespace FaultDrill.Journal
open Text

/-- The file of a ledger that recorded nothing but the given events. -/
def journal (es : List Event) : List UInt8 := es.flatMap entry

/-- The events whose texts end within the first `n` bytes, the first of them starting at `offset`. -/
def written (n offset : Nat) : List Event → List Event
  | [] => []
  | e :: es =>
    let stop := offset + (Utf8.bytes e.line).length
    if stop ≤ n then e :: written n (stop + 1) es else written n (stop + 1) es

@[simp]
theorem journal_nil : journal [] = [] := rfl

theorem journal_cons (e : Event) (es : List Event) : journal (e :: es) = entry e ++ journal es :=
  List.flatMap_cons

theorem journal_concat (es : List Event) (e : Event) :
    journal (es ++ [e]) = journal es ++ entry e := by
  simp [journal]

/-- A file of complete lines is not torn. -/
theorem isTorn_journal (es : List Event) : isTorn (journal es) = false := by
  rcases List.eq_nil_or_concat es with rfl | ⟨es, e, rfl⟩
  · rfl
  · rw [List.concat_eq_append, journal_concat, entry, ← List.append_assoc, isTorn,
      List.getLast?_concat]
    rfl

theorem addition_journal (es : List Event) (e : Event) : addition (journal es) e = entry e := by
  rw [addition, isTorn_journal]
  rfl

/-! ## A part of a file -/

theorem written_of_lt {n offset : Nat} (h : n < offset) (es : List Event) :
    written n offset es = [] := by
  induction es generalizing offset with
  | nil => rfl
  | cons e es ih =>
    rw [written, if_neg (by omega), ih (by omega)]

/-- Where a file begins does not matter. -/
theorem written_add (n offset k : Nat) (es : List Event) :
    written (n + k) (offset + k) es = written n offset es := by
  induction es generalizing offset with
  | nil => rfl
  | cons e es ih =>
    have hstop : offset + k + (Utf8.bytes e.line).length =
        offset + (Utf8.bytes e.line).length + k := by omega
    have hnext : offset + k + (Utf8.bytes e.line).length + 1 =
        offset + (Utf8.bytes e.line).length + 1 + k := by omega
    simp only [written]
    rw [hnext, ih, hstop]
    simp only [Nat.add_le_add_iff_right]

/-- A first line that is complete. -/
theorem events_entry_append {e : Event} (he : e.time.Representable) (bs : List UInt8) :
    events (entry e ++ bs) = (events bs).map (e :: ·) := by
  have hlines : lines (entry e ++ bs) = Utf8.bytes e.line :: lines bs := by
    rw [entry, List.append_assoc, List.singleton_append, lines_append_newline,
      pieces_of_not_mem (newline_not_mem_line e), List.map_singleton, stripReturn_line]
    rfl
  rw [events_eq, events_eq, hlines, eventsOn_cons, Utf8.string?_bytes, Option.bind_some,
    eventOf_line he]
  rfl

theorem eventOf_of_isPrefix {e : Event} {p : List Char} (hp : p <+: e.line.toList)
    (hne : p ≠ e.line.toList) : eventOf (String.ofList p) = none := by
  unfold eventOf
  split
  · rfl
  · cases h : Event.ofLine (String.ofList p) with
    | error why => rfl
    | ok a => exact absurd h (Event.ofLine_of_isPrefix hp hne a)

/-- A line that is cut off holds its event only if it is all there. -/
theorem events_take_line {e : Event} (he : e.time.Representable) (n : Nat) :
    events ((Utf8.bytes e.line).take n) = (Utf8.decode? ((Utf8.bytes e.line).take n)).map fun _ =>
      if (Utf8.bytes e.line).length ≤ n then [e] else [] := by
  have hno : newline ∉ (Utf8.bytes e.line).take n := fun h =>
    newline_not_mem_line e (List.mem_of_mem_take h)
  rw [events_eq, lines_of_not_mem hno]
  by_cases hn : (Utf8.bytes e.line).length ≤ n
  · have hne : Utf8.bytes e.line ≠ [] := by
      obtain ⟨cs, hcs⟩ := Event.toList_line_shape e
      rw [Utf8.bytes, Ne, Utf8.encode_eq_nil_iff, hcs]
      simp
    have hdecode : Utf8.decode? (Utf8.bytes e.line) = some e.line.toList := Utf8.decode?_encode _
    rw [List.take_of_length_le hn, if_neg hne, if_pos hn, hdecode, eventsOn_cons,
      Utf8.string?_bytes, Option.bind_some, eventOf_line he]
    rfl
  · rw [if_neg hn]
    -- what is left of the line is no text, or it is a text that is no whole record
    cases h : Utf8.decode? ((Utf8.bytes e.line).take n) with
    | none =>
      have hne : (Utf8.bytes e.line).take n ≠ [] := by
        intro hnil
        rw [hnil, Utf8.decode?] at h
        cases h
      rw [if_neg hne, eventsOn_cons, Utf8.string?, h]
      rfl
    | some cs =>
      have hcs := Utf8.eq_encode_of_decode? h
      have hprefix : cs <+: e.line.toList := by
        rw [← Utf8.encode_prefix_iff, ← hcs]
        exact List.take_prefix n _
      have hproper : cs ≠ e.line.toList := by
        intro heq
        rw [heq] at hcs
        have hlength := congrArg List.length hcs
        rw [List.length_take] at hlength
        exact hn (by unfold Utf8.bytes at hlength ⊢; omega)
      split
      · rfl
      · rw [eventsOn_cons, Utf8.string?, h, Option.map_some, Option.bind_some,
          eventOf_of_isPrefix hprefix hproper]
        rfl

/-- What is read of a part of a file: the events that were written to their ends, if the part is a
text. -/
theorem events_take {es : List Event} (hes : ∀ e ∈ es, e.time.Representable) (n : Nat) :
    events ((journal es).take n) =
      (Utf8.decode? ((journal es).take n)).map fun _ => written n 0 es := by
  induction es generalizing n with
  | nil =>
    rw [journal_nil, List.take_nil, Utf8.decode?]
    rfl
  | cons e es ih =>
    have he := hes e List.mem_cons_self
    have hlength : (entry e).length = (Utf8.bytes e.line).length + 1 := by simp [entry]
    rw [journal_cons]
    by_cases hn : (entry e).length ≤ n
    · -- the first line is complete
      obtain ⟨k, hk⟩ := Nat.exists_eq_add_of_le' hn
      have htake : (entry e ++ journal es).take (k + (entry e).length) =
          entry e ++ (journal es).take k := by
        rw [List.take_append, List.take_of_length_le (by omega), Nat.add_sub_cancel]
      have htext : entry e = Utf8.encode (e.line.toList ++ ['\n']) := by
        have hend : Utf8.encode ['\n'] = [newline] := rfl
        rw [Utf8.encode_append, hend, entry, Utf8.bytes]
      have hwritten : written (k + (entry e).length) 0 (e :: es) = e :: written k 0 es := by
        have hnext : 0 + (Utf8.bytes e.line).length + 1 = 0 + (entry e).length := by omega
        rw [written, if_pos (by omega), hnext, written_add]
      rw [hk, htake, events_entry_append he, ih (fun e' h => hes e' (List.mem_cons_of_mem e h)),
        hwritten, htext, Utf8.decode?_encode_append, Option.map_map, Option.map_map]
      rfl
    · -- the cut falls into the first line or right behind it
      have htake : (entry e ++ journal es).take n = (Utf8.bytes e.line).take n := by
        rw [List.take_append_of_le_length (by omega), entry,
          List.take_append_of_le_length (by omega)]
      rw [htake, events_take_line he, written, Nat.zero_add, written_of_lt (by omega)]

end FaultDrill.Journal

namespace FaultDrill.Ledger
open Journal Text

/-- A ledger that goes on with the given events: it lists them, finds recent ones among them, and
records others behind them. -/
structure GoesOn (files : FileTree) (path : String) (es : List Event) : Prop where
  lists : (file path).events files = .ok es
  finds : ∀ group start,
    (file path).hasRecent files group start = .ok (es.any (·.countsFor group start))
  records : ∀ e : Event, e.time.Representable → ∃ files',
    (file path).append files e = .ok (file path, files') ∧
      (file path).events files' = .ok (es ++ [e])

/-- A ledger that can answer nothing, also after it recorded another event. -/
structure Wedged (files : FileTree) (path : String) : Prop where
  lists : (file path).events files = .error (unavailable path .notText)
  finds : ∀ group start,
    (file path).hasRecent files group start = .error (unavailable path .notText)
  records : ∀ e : Event, e.time.Representable → ∃ files',
    (file path).append files e = .ok (file path, files') ∧
      (file path).events files' = .error (unavailable path .notText)

/-- Whether the first `n` bytes of a file end between two characters. -/
def CutBetween (n : Nat) (bs : List UInt8) : Prop := ∃ cs, bs.take n = Utf8.encode cs

section
variable {files : FileTree} {path : String} {loc : Location} {bytes : List UInt8}
  {es : List Event}

theorem events_of_none (h : files.Holds path loc bytes) (hnone : Journal.events bytes = none) :
    (file path).events files = .error (unavailable path .notText) := by
  have hread := FileTree.read_eq_ok_iff.2 ⟨loc, h⟩
  rw [events_of_read hread, hnone]

theorem goesOn_of_holds (h : files.Holds path loc bytes) (hes : Journal.events bytes = some es) :
    GoesOn files path es := by
  have hread := FileTree.read_eq_ok_iff.2 ⟨loc, h⟩
  have hevents := events_file_eq_ok.2 ⟨bytes, hread, hes⟩
  refine ⟨hevents, ?_, ?_⟩
  · intro group start
    rw [hasRecent, hevents]
    rfl
  · intro e he
    refine ⟨_, append_file h e, ?_⟩
    refine events_file_eq_ok.2 ⟨_, FileTree.read_eq_ok_iff.2 ⟨loc, h.set _⟩, ?_⟩
    rw [events_addition bytes he, hes]
    rfl

theorem wedged_of_holds (h : files.Holds path loc bytes) (hnone : Journal.events bytes = none) :
    Wedged files path := by
  have hevents := events_of_none h hnone
  refine ⟨hevents, ?_, ?_⟩
  · intro group start
    rw [hasRecent, hevents]
    rfl
  · intro e he
    refine ⟨_, append_file h e, ?_⟩
    apply events_of_none (h.set _)
    rw [events_addition bytes he, hnone]
    rfl

/-- Events recorded one after another stand one after another in the file. -/
theorem answers_appends (h : files.Holds path loc (journal es)) (more : List Event) :
    ∃ as files', answers files (file path) (more.map .append) = .ok (as, file path, files') ∧
      files'.Holds path loc (journal (es ++ more)) := by
  induction more generalizing files es with
  | nil => exact ⟨[], files, rfl, by rwa [List.append_nil]⟩
  | cons e more ih =>
    have happend := append_file h e
    have hset := h.set (journal es ++ addition (journal es) e)
    rw [addition_journal, ← journal_concat] at happend hset
    obtain ⟨as, files', has, hholds⟩ := ih hset
    have hanswer : answer files (file path) (.append e) =
        .ok (.done, file path, files.set loc (.file (journal (es ++ [e])))) := by
      rw [answer, happend]
      rfl
    refine ⟨.done :: as, files', answers_cons hanswer has, ?_⟩
    rwa [List.append_assoc] at hholds

/-- After a crash the ledger of a file can be opened again. It goes on with the events whose texts
were written to their ends, unless the cut fell within a character: then it is wedged. -/
theorem crashed (hfresh : files.read path = .ok []) (hes : ∀ e ∈ es, e.time.Representable) :
    ∃ as files', answers files (file path) (es.map .append) = .ok (as, file path, files') ∧
      files'.read path = .ok (journal es) ∧
      ∀ n left, FileTree.read left path = .ok ((journal es).take n) →
        ∃ reopened, openFile left path = .ok (file path, reopened) ∧
          (CutBetween n (journal es) → GoesOn reopened path (written n 0 es)) ∧
          (¬ CutBetween n (journal es) → Wedged reopened path) := by
  obtain ⟨loc, hholds⟩ := FileTree.read_eq_ok_iff.1 hfresh
  obtain ⟨as, files', has, hholds'⟩ := answers_appends (journal_nil ▸ hholds) es
  refine ⟨as, files', has, FileTree.read_eq_ok_iff.2 ⟨loc, hholds'⟩, ?_⟩
  intro n left hleft
  obtain ⟨loc', hcut⟩ := FileTree.read_eq_ok_iff.1 hleft
  have hopened := hcut.set ((journal es).take n)
  have hevents := events_take hes n
  refine ⟨_, openFile_file hcut, ?_, ?_⟩
  · rintro ⟨cs, hcs⟩
    rw [Utf8.decode?_eq_some_iff.2 hcs] at hevents
    exact goesOn_of_holds hopened hevents
  · intro hbetween
    cases hdecode : Utf8.decode? ((journal es).take n) with
    | some cs => exact absurd ⟨cs, Utf8.decode?_eq_some_iff.1 hdecode⟩ hbetween
    | none =>
      rw [hdecode] at hevents
      exact wedged_of_holds hopened hevents

end

/-! ## A cut within a letter -/

/-- An event of a group whose name is a letter of two bytes. -/
def accented : Event where
  group := "é"
  kind := .localMachines
  instanceId := "i-1"
  disruption := "shutdown"
  time := ⟨1709600400, 0⟩
  outcome := .succeeded
  detail := none

/-- A file with the given content in the working directory. -/
def oneFile (content : List UInt8) : FileTree := ⟨[(["journal"], .file content)], []⟩

theorem oneFile_holds (content : List UInt8) :
    (oneFile content).Holds "journal" ["journal"] content :=
  FileTree.holds_iff.2 ⟨rfl, rfl, rfl, rfl⟩

theorem accented_crashed : (oneFile []).read "journal" = .ok [] ∧
    ∃ as files', answers (oneFile []) (file "journal") ([accented, accented].map .append) =
        .ok (as, file "journal", files') ∧
      files'.read "journal" = .ok (journal [accented, accented]) ∧
      ∀ n left, FileTree.read left "journal" = .ok ((journal [accented, accented]).take n) →
        ∃ reopened, openFile left "journal" = .ok (file "journal", reopened) ∧
          (CutBetween n (journal [accented, accented]) →
            GoesOn reopened "journal" (written n 0 [accented, accented])) ∧
          (¬ CutBetween n (journal [accented, accented]) → Wedged reopened "journal") :=
  ⟨rfl, crashed rfl (by decide)⟩

/-- The event is recorded in a fresh file, and the file is cut within the group's name. No event was
written to its end, and yet the ledger that is opened again cannot list its events. -/
theorem accented_split : ∃ as files',
    answers (oneFile []) (file "journal") [.append accented] = .ok (as, file "journal", files') ∧
      files'.read "journal" = .ok (journal [accented]) ∧
      written 11 0 [accented] = [] ∧
      ∃ reopened, openFile (oneFile ((journal [accented]).take 11)) "journal" =
          .ok (file "journal", reopened) ∧
        (file "journal").events reopened =
          .error (.ledgerUnavailable "journal: stream did not contain valid UTF-8") := by
  have hfresh : (oneFile []).Holds "journal" ["journal"] (journal []) := oneFile_holds []
  obtain ⟨as, files', has, hholds⟩ := answers_appends hfresh [accented]
  have hcut := oneFile_holds ((journal [accented]).take 11)
  have hnone : Journal.events ((journal [accented]).take 11) = none := by decide +kernel
  refine ⟨as, files', has, FileTree.read_eq_ok_iff.2 ⟨_, hholds⟩, by decide +kernel, _,
    openFile_file hcut, ?_⟩
  exact events_of_none (hcut.set _) hnone

end FaultDrill.Ledger
