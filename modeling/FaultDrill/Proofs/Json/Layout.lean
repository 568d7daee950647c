import FaultDrill.Proofs.Binary64.Numeral
import FaultDrill.Proofs.Json.Structure
/-!
# Values over several lines

Over several lines a value is spelled by its tokens with blanks among them, so that a reader finds in
its text what it finds in the value (`read_pretty`). Most tokens end by themselves; a whole number
is read as far as there is something that can go on with it (`Stops`), and what follows a value in a
text never can.
-/
namespace FaultDrill.Json
open FaultDrill.Document

/-! ## Whole numbers -/

/-- What cannot go on with a whole number: nothing, or what begins with neither a digit nor a point
nor the mark of an exponent. -/
def Stops (rest : List Char) : Prop :=
  ∀ c ∈ rest.head?, c.isDigit = false ∧ c ≠ '.' ∧ c ≠ 'e' ∧ c ≠ 'E'

variable {ds rest : List Char} {n : Nat}

theorem digits?_append (hd : ∀ d ∈ ds, d.isDigit = true) (hne : ds ≠ []) (hrest : Stops rest) :
    digits? (ds ++ rest) = some (ds, rest) := by
  have htake : rest.takeWhile Char.isDigit = [] := by
    cases rest with
    | nil => rfl
    | cons c rest => exact List.takeWhile_cons_of_neg (by simp [(hrest c rfl).1])
  have hempty : ds.isEmpty = false := by simpa using hne
  rw [digits?, List.takeWhile_append_of_pos hd, htake, List.append_nil]
  simp [hempty]

theorem readExponent_of_stops (hrest : Stops rest) : readExponent rest = some (none, rest) := by
  cases rest with
  | nil => rfl
  | cons c rest =>
    obtain ⟨-, -, hlower, hupper⟩ := hrest c rfl
    simp [readExponent.eq_def, hlower, hupper]

/-- Only zero begins with the digit zero. -/
theorem head?_toDigits (hn : n ≠ 0) : (Nat.toDigits 10 n).head? ≠ some '0' := by
  induction n using Nat.strong_induction_on with
  | _ n ih =>
    by_cases hlt : n < 10
    · rw [Nat.toDigits_of_lt_base hlt]
      have hdigits : ∀ m < 10, m ≠ 0 → [Nat.digitChar m].head? ≠ some '0' := by decide
      exact hdigits n hlt hn
    · rw [Nat.toDigits_of_base_le (by omega) (by omega),
        List.head?_append_of_ne_nil _ Nat.toDigits_ne_nil]
      exact ih (n / 10) (by omega) (by omega)

theorem no_leading_zero (n : Nat) : ((Nat.toDigits 10 n).head? == some '0' &&
    decide (1 < (Nat.toDigits 10 n).length)) = false := by
  by_cases hn : n = 0
  · subst hn
    decide
  · rw [beq_eq_false_iff_ne.mpr (head?_toDigits hn), Bool.false_and]

/-- More digits do not make a number smaller. -/
theorem le_ofDigitChars (ds : List Char) (s : Nat) : s ≤ Nat.ofDigitChars 10 ds s := by
  induction ds generalizing s with
  | nil => exact Nat.le_refl s
  | cons d ds ih =>
    rw [Nat.ofDigitChars_cons]
    exact Nat.le_trans (by omega) (ih _)

/-- All digits of a number within the limit are kept. -/
theorem absorb_eq {s : Nat} (h : Nat.ofDigitChars 10 ds s ≤ significandLimit) :
    absorb s ds = (Nat.ofDigitChars 10 ds s, ds.length) := by
  induction ds generalizing s with
  | nil => rfl
  | cons d ds ih =>
    rw [Nat.ofDigitChars_cons] at h ⊢
    have hkept := Nat.le_trans (le_ofDigitChars ds (10 * s + (d.toNat - '0'.toNat))) h
    rw [absorb]
    dsimp only
    rw [if_neg (Nat.not_lt.mpr hkept), ih h]
    rfl

theorem numberOf_toDigits (h : n ≤ significandLimit) :
    numberOf false (Nat.toDigits 10 n) [] none = some (.nat n) := by
  have habsorb : absorb 0 (Nat.toDigits 10 n) = (n, (Nat.toDigits 10 n).length) := by
    rw [absorb_eq] <;> rw [Nat.ofDigitChars_ten_toDigits]
    exact h
  rw [numberOf, habsorb]
  simp

theorem readUnsigned_toDigits (h : n ≤ significandLimit) (hrest : Stops rest) :
    readUnsigned false (Nat.toDigits 10 n ++ rest) = some (some (.nat n), rest) := by
  have hdigits : digits? (Nat.toDigits 10 n ++ rest) = some (Nat.toDigits 10 n, rest) :=
    digits?_append (fun _ => Nat.isDigit_of_mem_toDigits (by decide) (by decide))
      Nat.toDigits_ne_nil hrest
  rw [readUnsigned, hdigits]
  dsimp only
  rw [no_leading_zero, if_neg (by decide)]
  split
  · exact absurd rfl (hrest '.' rfl).2.1
  · rw [readExponent_of_stops hrest, Option.map_some, numberOf_toDigits h]

theorem front_digit {c : Char} (hc : c.isDigit = true) {cs : List Char} {m : Option Number}
    (h : readUnsigned false (c :: cs) = some (m, rest)) : front c cs = (.number m, rest) := by
  have hne {d : Char} (hd : d.isDigit = false) : c ≠ d := by
    rintro rfl
    rw [hd] at hc
    cases hc
  have hnumber : readNumber (c :: cs) = some (m, rest) := by
    unfold readNumber
    split
    · rename_i heq
      exact absurd (List.cons.inj heq).1 (hne rfl)
    · exact h
  rw [front, if_neg (hne rfl), if_neg (hne rfl), if_neg (hne rfl), if_neg (hne rfl),
    if_neg (hne rfl), if_neg (hne rfl), if_neg (hne rfl), if_pos (by simp [hc]), hnumber]

theorem lex_natural (h : n ≤ significandLimit) (hrest : Stops rest) :
    lex (Nat.toDigits 10 n ++ rest) = .number (some (.nat n)) :: lex rest := by
  have hread := readUnsigned_toDigits h hrest
  obtain ⟨c, cs, hcs⟩ := List.exists_cons_of_ne_nil (Nat.toDigits_ne_nil (n := n) (b := 10))
  have hc : c.isDigit = true :=
    Nat.isDigit_of_mem_toDigits (by decide) (by decide) (hcs ▸ List.mem_cons_self : c ∈ _)
  have hspace : isSpace c = false := by
    have hrange := Text.toNat_of_isDigit hc
    simp only [isSpace, Bool.or_eq_false_iff, beq_eq_false_iff_ne]
    refine ⟨⟨⟨?_, ?_⟩, ?_⟩, ?_⟩ <;>
    · rintro rfl
      cases hc
  rw [hcs, List.cons_append] at hread ⊢
  exact lex_front hspace (front_digit hc hread) (by simp)

/-! ## Tokens and blanks -/

/-- Tokens that are read back where a number is not gone on with. -/
def Token.Firm (t : Token) : Prop :=
  t.Lasting ∨ ∃ n ≤ significandLimit, t = .number (some (.nat n))

theorem lex_firm {t : Token} (ht : t.Firm) (hrest : Stops rest) :
    lex (spell t ++ rest) = t :: lex rest := by
  rcases ht with ht | ⟨n, hn, rfl⟩
  · exact lex_spell ht rest
  · exact lex_natural hn hrest

theorem lex_blanks {cs : List Char} (h : ∀ c ∈ cs, isSpace c = true) (rest : List Char) :
    lex (cs ++ rest) = lex rest := by
  induction cs with
  | nil => rfl
  | cons c cs ih =>
    rw [List.cons_append, lex_space (h c List.mem_cons_self)]
    exact ih fun d hd => h d (List.mem_cons_of_mem c hd)

theorem lex_newline (depth : Nat) (rest : List Char) : lex (newline depth ++ rest) = lex rest := by
  apply lex_blanks
  intro c hc
  rcases List.mem_cons.mp hc with rfl | hc
  · rfl
  · rw [List.eq_of_mem_replicate hc]
    rfl

theorem stops_newline (depth : Nat) (rest : List Char) : Stops (newline depth ++ rest) := by
  rintro c ⟨⟩
  decide

theorem stops_comma (rest : List Char) : Stops (spell .comma ++ rest) := by
  rintro c ⟨⟩
  decide

/-! ## Values -/

mutual

/-- A value over several lines is read as its tokens. -/
theorem lex_prettyChars : (v : Value) → (depth : Nat) → (∀ t ∈ tokens v, t.Firm) →
    {rest : List Char} → Stops rest → lex (prettyChars depth v ++ rest) = tokens v ++ lex rest
  | .atom a, depth, hv, rest, hrest => by
    have ha : (atomToken a).Firm := hv _ (by rw [tokens]; exact List.mem_singleton_self _)
    rw [prettyChars, tokens, ← spell_atomToken, lex_firm ha hrest]
    rfl
  | .list [], depth, hv, rest, hrest => by
    have hsplit : prettyChars depth (.list []) ++ rest =
        spell .openArray ++ (spell .closeArray ++ rest) := by simp [prettyChars, spell]
    rw [hsplit, lex_spell (t := .openArray) trivial, lex_spell (t := .closeArray) trivial]
    simp [tokens, elementTokens]
  | .list (v :: vs), depth, hv, rest, hrest => by
    have hsplit : prettyChars depth (.list (v :: vs)) ++ rest = spell .openArray ++
        (prettyElements (depth + 1) (v :: vs) ++ (newline depth ++ (spell .closeArray ++ rest))) := by
      simp [prettyChars, spell]
    have hvs : ∀ t ∈ elementTokens (v :: vs), t.Firm := fun t ht => hv t (by simp [tokens, ht])
    rw [hsplit, lex_spell (t := .openArray) trivial,
      lex_prettyElements (v :: vs) _ hvs (stops_newline _ _), lex_newline,
      lex_spell (t := .closeArray) trivial]
    simp [tokens]
  | .record [], depth, hv, rest, hrest => by
    have hsplit : prettyChars depth (.record []) ++ rest =
        spell .openObject ++ (spell .closeObject ++ rest) := by simp [prettyChars, spell]
    rw [hsplit, lex_spell (t := .openObject) trivial, lex_spell (t := .closeObject) trivial]
    simp [tokens, memberTokens]
  | .record (m :: ms), depth, hv, rest, hrest => by
    have hsplit : prettyChars depth (.record (m :: ms)) ++ rest = spell .openObject ++
        (prettyMembers (depth + 1) (m :: ms) ++ (newline depth ++ (spell .closeObject ++ rest))) := by
      simp [prettyChars, spell]
    have hms : ∀ t ∈ memberTokens (m :: ms), t.Firm := fun t ht => hv t (by simp [tokens, ht])
    rw [hsplit, lex_spell (t := .openObject) trivial,
      lex_prettyMembers (m :: ms) _ hms (stops_newline _ _), lex_newline,
      lex_spell (t := .closeObject) trivial]
    simp [tokens]

theorem lex_prettyElements : (vs : List Value) → (depth : Nat) →
    (∀ t ∈ elementTokens vs, t.Firm) → {rest : List Char} → Stops rest →
      lex (prettyElements depth vs ++ rest) = elementTokens vs ++ lex rest
  | [], _, _, _, _ => rfl
  | [v], depth, hvs, rest, hrest => by
    rw [prettyElements, List.append_assoc, lex_newline, lex_prettyChars v depth hvs hrest]
    rfl
  | v :: w :: vs, depth, hvs, rest, hrest => by
    have hsplit : prettyElements depth (v :: w :: vs) ++ rest = newline depth ++
        (prettyChars depth v ++ (spell .comma ++ (prettyElements depth (w :: vs) ++ rest))) := by
      simp [prettyElements, spell]
    have hv : ∀ t ∈ tokens v, t.Firm := fun t ht => hvs t (by simp [elementTokens, ht])
    have hmore : ∀ t ∈ elementTokens (w :: vs), t.Firm :=
      fun t ht => hvs t (by simp [elementTokens, ht])
    rw [hsplit, lex_newline, lex_prettyChars v depth hv (stops_comma _),
      lex_spell (t := .comma) trivial, lex_prettyElements (w :: vs) depth hmore hrest]
    simp [elementTokens]

theorem lex_prettyMembers : (ms : List (String × Value)) → (depth : Nat) →
    (∀ t ∈ memberTokens ms, t.Firm) → {rest : List Char} → Stops rest →
      lex (prettyMembers depth ms ++ rest) = memberTokens ms ++ lex rest
  | [], _, _, _, _ => rfl
  | [(k, v)], depth, hms, rest, hrest => by
    have hsplit : prettyMembers depth [(k, v)] ++ rest = newline depth ++
        (spell (.string (some k)) ++ (spell .colon ++ (' ' :: (prettyChars depth v ++ rest)))) := by
      simp [prettyMembers, spell]
    have hv : ∀ t ∈ tokens v, t.Firm := fun t ht => hms t (by simp [memberTokens, ht])
    rw [hsplit, lex_newline, lex_spell (t := .string (some k)) trivial,
      lex_spell (t := .colon) trivial, lex_space rfl,
      lex_prettyChars v depth hv hrest]
    simp [memberTokens]
  | (k, v) :: m :: ms, depth, hms, rest, hrest => by
    have hsplit : prettyMembers depth ((k, v) :: m :: ms) ++ rest = newline depth ++
        (spell (.string (some k)) ++ (spell .colon ++ (' ' :: (prettyChars depth v ++
          (spell .comma ++ (prettyMembers depth (m :: ms) ++ rest)))))) := by
      simp [prettyMembers, spell]
    have hv : ∀ t ∈ tokens v, t.Firm := fun t ht => hms t (by simp [memberTokens, ht])
    have hmore : ∀ t ∈ memberTokens (m :: ms), t.Firm :=
      fun t ht => hms t (by simp [memberTokens, ht])
    rw [hsplit, lex_newline, lex_spell (t := .string (some k)) trivial,
      lex_spell (t := .colon) trivial, lex_space rfl,
      lex_prettyChars v depth hv (stops_comma _),
      lex_spell (t := .comma) trivial, lex_prettyMembers (m :: ms) depth hmore hrest]
    simp [memberTokens]

end

/-! ## Reading -/

/-- A value whose tokens are all read back. -/
def Firm (v : Value) : Prop := ∀ t ∈ tokens v, t.Firm

theorem firm_text (s : String) : Firm (Value.text s) := by
  intro t ht
  rw [List.mem_singleton.mp ht]
  exact .inl trivial

theorem firm_nat (h : n ≤ significandLimit) : Firm (Value.nat n) := by
  intro t ht
  rw [List.mem_singleton.mp ht]
  exact .inr ⟨n, h, rfl⟩

theorem firm_list {vs : List Value} (h : ∀ v ∈ vs, Firm v) : Firm (.list vs) := by
  have helements : ∀ t ∈ elementTokens vs, t.Firm := by
    induction vs with
    | nil => exact List.forall_mem_nil _
    | cons v vs ih =>
      obtain ⟨hv, hvs⟩ := List.forall_mem_cons.mp h
      cases vs with
      | nil => exact hv
      | cons w vs =>
        rw [elementTokens, List.forall_mem_append, List.forall_mem_cons]
        · exact ⟨hv, .inl trivial, ih hvs⟩
        · exact List.cons_ne_nil w vs
  rw [Firm, tokens, List.forall_mem_cons, List.forall_mem_append, List.forall_mem_singleton]
  exact ⟨.inl trivial, helements, .inl trivial⟩

theorem firm_record {ms : List (String × Value)} (h : ∀ m ∈ ms, Firm m.2) :
    Firm (.record ms) := by
  have hmembers : ∀ t ∈ memberTokens ms, t.Firm := by
    induction ms with
    | nil => exact List.forall_mem_nil _
    | cons m ms ih =>
      obtain ⟨k, v⟩ := m
      obtain ⟨hv, hms⟩ := List.forall_mem_cons.mp h
      cases ms with
      | nil =>
        rw [memberTokens, List.forall_mem_cons, List.forall_mem_cons]
        exact ⟨.inl trivial, .inl trivial, hv⟩
      | cons m ms =>
        rw [memberTokens, List.forall_mem_cons, List.forall_mem_cons, List.forall_mem_append,
          List.forall_mem_cons]
        · exact ⟨.inl trivial, .inl trivial, hv, .inl trivial, ih hms⟩
        · exact List.cons_ne_nil m ms
  rw [Firm, tokens, List.forall_mem_cons, List.forall_mem_append, List.forall_mem_singleton]
  exact ⟨.inl trivial, hmembers, .inl trivial⟩

/-- A reader finds in a value's text over several lines what it finds in the value. -/
theorem read_pretty {α : Type} (r : Reader α) {v : Value} (hv : Firm v) :
    read r (pretty v) = r v.node := by
  refine read_of_lex r ?_
  have hstops : Stops [] := fun _ hc => nomatch hc
  have h := lex_prettyChars v 0 hv hstops
  rw [List.append_nil, lex, List.append_nil] at h
  rw [pretty, String.toList_ofList, h]

end FaultDrill.Json
