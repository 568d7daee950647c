import FaultDrill.Ledger.Journal
import FaultDrill.Proofs.Event
/-!
# Events added to a journal

Whatever a journal holds, recording an event adds this event to the ones that are read from it, and
nothing else (`events_addition`). A last line that was torn off is ended first; the event it may hold
stays what it was.
-/
namespace FaultDrill.Journal
open Text

/-! ## Lines -/

theorem pieces_eq_splitOn (bs : List UInt8) : pieces bs = bs.splitOn newline := by
  induction bs with
  | nil => simp [pieces]
  | cons b bs ih =>
    rw [pieces, List.splitOn_cons_eq_if_modifyHead, ih]
    by_cases hb : b = newline
    · simp [hb]
    · rw [if_neg hb, if_neg (by simpa using hb)]
      rcases hs : bs.splitOn newline with _ | ⟨piece, rest⟩
      · exact absurd hs (List.splitOn_ne_nil newline bs)
      · rfl

theorem pieces_of_not_mem {bs : List UInt8} (h : newline ∉ bs) : pieces bs = [bs] := by
  rw [pieces_eq_splitOn, List.splitOn_eq_singleton h]

theorem linesOf_append (ps : List (List UInt8)) {qs : List (List UInt8)} (hqs : qs ≠ []) :
    linesOf (ps ++ qs) = ps.map stripReturn ++ linesOf qs := by
  induction ps with
  | nil => rfl
  | cons p ps ih =>
    rcases h : ps ++ qs with _ | ⟨q, more⟩
    · exact absurd (List.append_eq_nil_iff.1 h).2 hqs
    · rw [List.cons_append, h, linesOf, ← h, ih, List.map_cons, List.cons_append]
      exact fun he => by cases he

theorem lines_append_newline (bs cs : List UInt8) :
    lines (bs ++ newline :: cs) = (pieces bs).map stripReturn ++ lines cs := by
  simp only [lines, pieces_eq_splitOn, List.splitOn_append_cons_self]
  exact linesOf_append _ (List.splitOn_ne_nil newline cs)

theorem lines_of_not_mem {bs : List UInt8} (h : newline ∉ bs) :
    lines bs = if bs = [] then [] else [bs] := by
  rw [lines, pieces_of_not_mem h, linesOf]
  simp only [List.isEmpty_iff]

/-- What follows the last line end of a file. -/
theorem exists_last (bs : List UInt8) :
    newline ∉ bs ∨ ∃ front last, bs = front ++ newline :: last ∧ newline ∉ last := by
  induction bs with
  | nil => exact .inl (by simp)
  | cons b bs ih =>
    rcases ih with h | ⟨front, last, rfl, hlast⟩
    · by_cases hb : b = newline
      · exact .inr ⟨[], bs, by rw [hb]; rfl, h⟩
      · refine .inl ?_
        rw [List.mem_cons, not_or]
        exact ⟨Ne.symm hb, h⟩
    · exact .inr ⟨b :: front, last, rfl, hlast⟩

theorem isTorn_concat {bs : List UInt8} {b : UInt8} (hb : b ≠ newline) :
    isTorn (bs ++ [b]) = true := by
  rw [isTorn, List.getLast?_concat]
  exact bne_iff_ne.2 hb

/-- A file is torn when something follows its last line end. -/
theorem isTorn_of_last (front : List UInt8) {last : List UInt8} (hlast : newline ∉ last) :
    isTorn (front ++ newline :: last) = true ↔ last ≠ [] := by
  rcases List.eq_nil_or_concat last with rfl | ⟨more, b, rfl⟩
  · simp [isTorn]
  · rw [List.concat_eq_append] at hlast ⊢
    have hb : b ≠ newline := by
      rintro rfl
      exact hlast (by simp)
    have hshape : front ++ newline :: (more ++ [b]) = (front ++ newline :: more) ++ [b] := by simp
    rw [hshape, isTorn_concat hb]
    simp

theorem isTorn_of_not_mem {bs : List UInt8} (h : newline ∉ bs) : isTorn bs = true ↔ bs ≠ [] := by
  rcases List.eq_nil_or_concat bs with rfl | ⟨more, b, rfl⟩
  · simp [isTorn]
  · rw [List.concat_eq_append] at h ⊢
    have hb : b ≠ newline := by
      rintro rfl
      exact h (by simp)
    rw [isTorn_concat hb]
    simp

/-! ## One event more -/

theorem newline_not_mem_line (e : Event) : newline ∉ Utf8.bytes e.line := by
  intro h
  have hc : '\n' ∈ e.line.toList := Utf8.mem_of_mem_encode h rfl (by decide)
  exact absurd (Event.printable_line hc) (by decide)

theorem stripReturn_line (e : Event) : stripReturn (Utf8.bytes e.line) = Utf8.bytes e.line := by
  refine if_neg ?_
  intro h
  have hmem : 0x0D ∈ Utf8.bytes e.line := List.mem_of_getLast? h
  have hc : '\r' ∈ e.line.toList := Utf8.mem_of_mem_encode hmem rfl (by decide)
  exact absurd (Event.printable_line hc) (by decide)

theorem lines_entry (e : Event) : lines (entry e) = [Utf8.bytes e.line] := by
  have h : lines [] = [] := rfl
  rw [entry, lines_append_newline, pieces_of_not_mem (newline_not_mem_line e), h]
  simp [stripReturn_line]

/-- Recording an event adds its line at the end. Of the lines before, only one that was not ended
can lose a carriage return. -/
theorem lines_addition (bs : List UInt8) (e : Event) :
    ∃ ls last, lines bs = ls ++ (if last = [] then [] else [last]) ∧
      lines (bs ++ addition bs e) =
        ls ++ (if last = [] then [] else [stripReturn last]) ++ [Utf8.bytes e.line] := by
  -- the file has no line end at all, or something that may be empty follows the last one
  rcases exists_last bs with h | ⟨front, last, rfl, hlast⟩
  · refine ⟨[], bs, by rw [lines_of_not_mem h, List.nil_append], ?_⟩
    have htorn := isTorn_of_not_mem h
    by_cases hbs : bs = []
    · rw [addition, if_neg (fun ht => htorn.1 ht hbs), hbs, List.nil_append, lines_entry, if_pos rfl]
      rfl
    · rw [addition, if_pos (htorn.2 hbs), lines_append_newline, lines_entry, pieces_of_not_mem h,
        if_neg hbs]
      rfl
  · refine ⟨(pieces front).map stripReturn, last,
      by rw [lines_append_newline, lines_of_not_mem hlast], ?_⟩
    have htorn := isTorn_of_last front hlast
    by_cases hnil : last = []
    · rw [addition, if_neg (fun ht => htorn.1 ht hnil), hnil, List.append_assoc, List.cons_append,
        List.nil_append, lines_append_newline, lines_entry, if_pos rfl, List.append_nil]
    · rw [addition, if_pos (htorn.2 hnil), List.append_assoc, List.cons_append,
        lines_append_newline, lines_append_newline, lines_entry, pieces_of_not_mem hlast,
        if_neg hnil, List.append_assoc]
      rfl

/-! ## What is read -/

/-- The events on lines; nothing when a line is no text at all. -/
def eventsOn (ls : List (List UInt8)) : Option (List Event) :=
  (ls.mapM Utf8.string?).map (·.filterMap eventOf)

theorem events_eq (bs : List UInt8) : events bs = eventsOn (lines bs) := by
  unfold events eventsOn
  cases (lines bs).mapM Utf8.string? <;> rfl

@[simp]
theorem eventsOn_nil : eventsOn [] = some [] := rfl

theorem eventsOn_cons (bs : List UInt8) (ls : List (List UInt8)) :
    eventsOn (bs :: ls) =
      (Utf8.string? bs).bind fun s => (eventsOn ls).map ((eventOf s).toList ++ ·) := by
  unfold eventsOn
  rw [List.mapM_cons]
  cases Utf8.string? bs with
  | none => rfl
  | some s =>
    cases ls.mapM Utf8.string? with
    | none => rfl
    | some ss =>
      simp only [Option.bind_eq_bind, Option.bind_some, Option.pure_def, Option.map_some,
        List.filterMap_cons]
      cases eventOf s <;> rfl

theorem eventsOn_append (ls ks : List (List UInt8)) :
    eventsOn (ls ++ ks) = (eventsOn ls).bind fun l => (eventsOn ks).map (l ++ ·) := by
  induction ls with
  | nil => simp
  | cons bs ls ih =>
    rw [List.cons_append, eventsOn_cons, eventsOn_cons, ih]
    cases Utf8.string? bs with
    | none => rfl
    | some s =>
      cases eventsOn ls with
      | none => rfl
      | some l =>
        cases eventsOn ks with
        | none => rfl
        | some k => simp

theorem eventOf_line {e : Event} (he : e.time.Representable) : eventOf e.line = some e := by
  have hblank : allBlank e.line = false := by
    obtain ⟨cs, hcs⟩ := Event.toList_line_shape e
    rw [allBlank, hcs]
    rfl
  rw [eventOf, hblank, Event.ofLine_line he]
  rfl

/-- A carriage return at the end of a line changes nothing in what it holds. -/
theorem eventOf_concat_return (cs : List Char) :
    eventOf (String.ofList (cs ++ ['\r'])) = eventOf (String.ofList cs) := by
  have hline : Event.ofLine (String.ofList (cs ++ ['\r'])) = Event.ofLine (String.ofList cs) := by
    simp only [Event.ofLine, Json.read, Json.tree, String.toList_ofList,
      Json.lex_concat_space (b := '\r') rfl]
  have hblank : allBlank (String.ofList (cs ++ ['\r'])) = allBlank (String.ofList cs) := by
    have hr : isBlank '\r' = true := rfl
    simp [allBlank, hr]
  rw [eventOf, eventOf, hblank, hline]

theorem string?_concat_return (bs : List UInt8) :
    Utf8.string? (bs ++ [0x0D]) =
      (Utf8.decode? bs).map fun cs => String.ofList (cs ++ ['\r']) := by
  have hr : Utf8.encode ['\r'] = [0x0D] := rfl
  cases h : Utf8.decode? bs with
  | some cs =>
    rw [Utf8.eq_encode_of_decode? h, ← hr, ← Utf8.encode_append, Utf8.string?, Utf8.decode?_encode]
    rfl
  | none =>
    cases hcs : Utf8.decode? (bs ++ [0x0D]) with
    | none => rw [Utf8.string?, hcs]; rfl
    | some cs =>
      obtain ⟨ds, -, hds⟩ := Utf8.eq_concat_of_encode (c := '\r')
        (Utf8.eq_encode_of_decode? hcs).symm rfl (by decide)
      rw [hds, Utf8.decode?_encode] at h
      cases h

theorem eventsOn_stripReturn (bs : List UInt8) : eventsOn [stripReturn bs] = eventsOn [bs] := by
  unfold stripReturn
  split
  · rename_i h
    -- the line that lost its carriage return was a text before if and only if it is one now
    obtain ⟨front, rfl⟩ : ∃ front, bs = front ++ [0x0D] := by
      rcases List.eq_nil_or_concat bs with rfl | ⟨front, b, rfl⟩
      · cases h
      · rw [List.concat_eq_append, List.getLast?_concat, Option.some.injEq] at h
        exact ⟨front, by rw [List.concat_eq_append, h]⟩
    rw [List.dropLast_concat, eventsOn_cons, eventsOn_cons, string?_concat_return, Utf8.string?]
    cases Utf8.decode? front with
    | none => rfl
    | some cs => simp only [Option.map_some, Option.bind_some, eventOf_concat_return]
  · rfl

/-- What a journal holds after an event was recorded: what it held, and the event. -/
theorem events_addition (bs : List UInt8) {e : Event} (he : e.time.Representable) :
    events (bs ++ addition bs e) = (events bs).map (· ++ [e]) := by
  obtain ⟨ls, last, hbefore, hafter⟩ := lines_addition bs e
  have hline : eventsOn [Utf8.bytes e.line] = some [e] := by
    rw [eventsOn_cons, Utf8.string?_bytes, Option.bind_some, eventOf_line he]
    rfl
  have hlast : eventsOn (if last = [] then [] else [stripReturn last]) =
      eventsOn (if last = [] then [] else [last]) := by
    split
    · rfl
    · exact eventsOn_stripReturn last
  rw [events_eq, events_eq, hbefore, hafter, eventsOn_append, eventsOn_append, hlast,
    ← eventsOn_append, hline]
  cases eventsOn (ls ++ if last = [] then [] else [last]) <;> rfl

end FaultDrill.Journal
