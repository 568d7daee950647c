import FaultDrill.Json.Printer
import FaultDrill.Json.Token
import FaultDrill.Proofs.Text.Utf8
/-!
# Tokens and their spellings

A text on one line is the spellings of its tokens, one after another. Reading it gives the tokens
again (`lex_spelled`), and a text that breaks off anywhere gives the first of them and perhaps the
token `bad` (`lex_of_isPrefix`).
-/
namespace FaultDrill.Json

/-- What is in front of two texts ends within the first, or takes all of it. -/
theorem prefix_append_cases {α : Type} {p a b : List α} (h : p <+: a ++ b) :
    (p <+: a ∧ p ≠ a) ∨ ∃ q, p = a ++ q ∧ q <+: b := by
  rcases List.prefix_or_prefix_of_prefix h (List.prefix_append a b) with hp | ⟨q, rfl⟩
  · by_cases he : p = a
    · exact .inr ⟨[], by simp [he], List.nil_prefix⟩
    · exact .inl ⟨hp, he⟩
  · exact .inr ⟨q, rfl, (List.prefix_append_right_inj a).1 h⟩

/-! ## Strings -/

/-- A character of a string as it is read: control characters without a letter of their own come
back as units. -/
def pieceOf (c : Char) : Piece :=
  if c.toNat < 0x20 && !(['\x08', '\x0c', '\n', '\r', '\t'].contains c) then .unit c.toNat
  else .char c

theorem hexValue?_hexDigit : ∀ n < 16, hexValue? (hexDigit n) = some n := by decide

theorem pieces_plain {c : Char} (h1 : c ≠ '"') (h2 : c ≠ '\\') (h3 : ¬ c.toNat < 0x20)
    (rest : List Char) :
    pieces (c :: rest) = (pieces rest).map fun (ps, rest) => (.char c :: ps, rest) := by
  rw [pieces.eq_5 c rest h1 (fun _ _ _ _ _ h => absurd h h2) (fun _ _ h => absurd h h2)]
  simp only [h2, h3, decide_false, Bool.or_self, Bool.false_eq_true, if_false]
  cases pieces rest <;> rfl

theorem pieces_short {c e : Char} (hu : c ≠ 'u') (h : shortEscape? c = some e) (rest : List Char) :
    pieces ('\\' :: c :: rest) = (pieces rest).map fun (ps, rest) => (.char e :: ps, rest) := by
  rw [pieces.eq_4 c rest (fun _ _ _ _ _ h => absurd h hu), h]
  cases pieces rest <;> rfl

theorem pieces_unit {a b c d : Char} {n : Nat} (h : hex4? a b c d = some n) (rest : List Char) :
    pieces ('\\' :: 'u' :: a :: b :: c :: d :: rest) =
      (pieces rest).map fun (ps, rest) => (.unit n :: ps, rest) := by
  rw [pieces.eq_3, h]
  cases pieces rest <;> rfl

/-- How a character is written: with a letter, as a unit, or as itself. -/
theorem escape_cases (c : Char) :
    (∃ e, escape c = ['\\', e] ∧ e ≠ 'u' ∧ shortEscape? e = some c ∧ pieceOf c = .char c) ∨
    (escape c = ['\\', 'u', '0', '0', hexDigit (c.toNat / 16), hexDigit (c.toNat % 16)] ∧
      c.toNat < 0x20 ∧ pieceOf c = .unit c.toNat) ∨
    (escape c = [c] ∧ c ≠ '"' ∧ c ≠ '\\' ∧ ¬ c.toNat < 0x20 ∧ pieceOf c = .char c) := by
  unfold escape pieceOf
  repeat' split
  all_goals simp_all
  all_goals first | rfl | omega

theorem hex4?_hexDigit {n : Nat} (h : n < 0x20) :
    hex4? '0' '0' (hexDigit (n / 16)) (hexDigit (n % 16)) = some n := by
  have h1 := hexValue?_hexDigit (n / 16) (by omega)
  have h2 := hexValue?_hexDigit (n % 16) (by omega)
  have h0 : hexValue? '0' = some 0 := rfl
  simp only [hex4?, h0, h1, h2, Option.bind_eq_bind, Option.bind_some, Option.pure_def,
    Option.some.injEq]
  omega

theorem pieces_escape (c : Char) (rest : List Char) :
    pieces (escape c ++ rest) = (pieces rest).map fun (ps, rest) => (pieceOf c :: ps, rest) := by
  rcases escape_cases c with ⟨e, hc, hu, he, hp⟩ | ⟨hc, hlt, hp⟩ | ⟨hc, h1, h2, h3, hp⟩
  · rw [hc, hp]
    exact pieces_short hu he rest
  · rw [hc, hp]
    exact pieces_unit (hex4?_hexDigit hlt) rest
  · rw [hc, hp]
    exact pieces_plain h1 h2 h3 rest

theorem pieces_escaped (cs rest : List Char) :
    pieces (cs.flatMap escape ++ '"' :: rest) = some (cs.map pieceOf, rest) := by
  induction cs with
  | nil => exact pieces.eq_2 rest
  | cons c cs ih =>
    rw [List.flatMap_cons, List.append_assoc, pieces_escape, ih]
    rfl

theorem joinPieces_pieceOf (cs : List Char) : joinPieces (cs.map pieceOf) = some cs := by
  induction cs with
  | nil => rfl
  | cons c cs ih =>
    rw [List.map_cons]
    rcases escape_cases c with ⟨_, -, -, -, hp⟩ | ⟨-, hlt, hp⟩ | ⟨-, -, -, -, hp⟩
    · rw [hp, joinPieces, ih]
      rfl
    · -- a unit of a control character is no surrogate, so it stands for a character alone
      have h1 : ¬ (0xD800 ≤ c.toNat && c.toNat ≤ 0xDBFF) = true := by simp; omega
      have h2 : ¬ (0xDC00 ≤ c.toNat && c.toNat ≤ 0xDFFF) = true := by simp; omega
      rw [hp, joinPieces.eq_def]
      simp only [if_neg h1, if_neg h2, ih, Char.ofNat_toNat, Option.map_some]
    · rw [hp, joinPieces, ih]
      rfl

theorem pieces_of_prefix_escape {c : Char} {p : List Char} (h : p <+: escape c)
    (hne : p ≠ escape c) : pieces p = none := by
  rcases escape_cases c with ⟨e, hc, hu, he, -⟩ | ⟨hc, hlt, -⟩ | ⟨hc, h1, h2, h3, -⟩
  all_goals
    rw [hc] at h hne
    simp only [List.prefix_cons_iff, List.prefix_nil] at h
  · rcases h with rfl | ⟨_, rfl, rfl | ⟨_, rfl, rfl⟩⟩
    · rfl
    · simp [pieces]
    · exact absurd rfl hne
  · rcases h with rfl | ⟨_, rfl, rfl | ⟨_, rfl, rfl | ⟨_, rfl, rfl | ⟨_, rfl, rfl | ⟨_, rfl, rfl |
      ⟨_, rfl, rfl⟩⟩⟩⟩⟩⟩
    · rfl
    · simp [pieces]
    iterate 4 rfl
    exact absurd rfl hne
  · rcases h with rfl | ⟨_, rfl, rfl⟩
    · rfl
    · exact absurd rfl hne

/-- A string that breaks off is none. -/
theorem pieces_of_isPrefix {cs p : List Char} (h : p <+: cs.flatMap escape) : pieces p = none := by
  induction cs generalizing p with
  | nil =>
    rw [List.flatMap_nil, List.prefix_nil] at h
    rw [h, pieces]
  | cons c cs ih =>
    rw [List.flatMap_cons] at h
    -- it breaks off within the first character or behind it
    rcases prefix_append_cases h with ⟨hp, hne⟩ | ⟨q, rfl, hq⟩
    · exact pieces_of_prefix_escape hp hne
    · rw [pieces_escape, ih hq]
      rfl

/-! ## Tokens -/

theorem lex_space {c : Char} (h : isSpace c = true) (cs : List Char) : lex (c :: cs) = lex cs := by
  rw [lex, if_pos h]

theorem lex_front {c : Char} {cs rest : List Char} {t : Token} (hs : isSpace c = false)
    (h : front c cs = (t, rest)) (ht : t ≠ .bad) : lex (c :: cs) = t :: lex rest := by
  rw [lex, if_neg (by simp [hs])]
  split
  · rename_i heq
    rw [h] at heq
    cases heq
    exact absurd rfl ht
  · rename_i heq
    rw [h] at heq
    cases heq
    rfl

theorem lex_bad {c : Char} {cs : List Char} (hs : isSpace c = false)
    (h : (front c cs).1 = .bad) : lex (c :: cs) = [.bad] := by
  rw [lex, if_neg (by simp [hs])]
  split
  · rfl
  · rename_i hne heq
    rw [heq] at h
    exact absurd h hne

/-- How a token is written on one line. -/
def spell : Token → List Char
  | .null => atom .null
  | .bool b => atom (.flag b)
  | .number (some n) => number n
  | .string (some s) => string s
  | .openArray => ['[']
  | .closeArray => [']']
  | .openObject => ['\x7b']
  | .closeObject => ['\x7d']
  | .comma => [',']
  | .colon => [':']
  | .number none | .string none | .bad => []

/-- Tokens that are read back whatever follows them. Of a number more digits could follow. -/
def Token.Lasting : Token → Prop
  | .number _ | .string none | .bad => False
  | _ => True

theorem front_quote (cs : List Char) : front '"' cs = match pieces cs with
    | some (ps, rest) => (.string ((joinPieces ps).map String.ofList), rest)
    | none => (.bad, []) := rfl

theorem lex_string (s : String) (rest : List Char) :
    lex (string s ++ rest) = .string (some s) :: lex rest := by
  have hf : front '"' (s.toList.flatMap escape ++ '"' :: rest) = (.string (some s), rest) := by
    rw [front_quote, pieces_escaped]
    simp only [joinPieces_pieceOf, Option.map_some, String.ofList_toList]
  have ht : string s ++ rest = '"' :: (s.toList.flatMap escape ++ '"' :: rest) := by
    simp [string]
  rw [ht]
  exact lex_front rfl hf (by simp)

theorem lex_spell {t : Token} (ht : t.Lasting) (rest : List Char) :
    lex (spell t ++ rest) = t :: lex rest := by
  cases t with
  | string s =>
    cases s with
    | some s => exact lex_string s rest
    | none => exact ht.elim
  | bool b => cases b <;> exact lex_front rfl rfl (by simp)
  | number n => exact ht.elim
  | bad => exact ht.elim
  | _ => exact lex_front rfl rfl (by simp)

/-- Texts that are spelled out on one line are read as their tokens. -/
theorem lex_spelled {ts : List Token} (hts : ∀ t ∈ ts, t.Lasting) (rest : List Char) :
    lex (ts.flatMap spell ++ rest) = ts ++ lex rest := by
  induction ts with
  | nil => rfl
  | cons t ts ih =>
    rw [List.flatMap_cons, List.append_assoc, lex_spell (hts t List.mem_cons_self),
      ih fun u hu => hts u (List.mem_cons_of_mem t hu)]
    rfl

theorem lex_of_prefix_string {s : String} {p : List Char} (h : p <+: string s)
    (hne : p ≠ string s) : lex p = [] ∨ lex p = [.bad] := by
  have hs : string s = ('"' :: s.toList.flatMap escape) ++ ['"'] := rfl
  rw [hs, List.prefix_concat_iff] at h
  rcases h with rfl | h
  · exact absurd rfl hne
  rcases List.prefix_cons_iff.1 h with rfl | ⟨q, rfl, hq⟩
  · exact .inl (by rw [lex])
  · refine .inr (lex_bad rfl ?_)
    rw [front_quote, pieces_of_isPrefix hq]

theorem printable_escape {c d : Char} (h : d ∈ escape c) : 0x20 ≤ d.toNat := by
  have hhex : ∀ n < 16, 0x20 ≤ (hexDigit n).toNat := by decide
  rcases escape_cases c with ⟨e, hc, -, he, -⟩ | ⟨hc, hlt, -⟩ | ⟨hc, -, -, hge, -⟩
  · rw [hc, List.mem_cons, List.mem_singleton] at h
    rcases h with rfl | rfl
    · decide
    · unfold shortEscape? at he
      repeat' split at he
      all_goals first | (subst d; decide) | cases he
  · rw [hc] at h
    simp only [List.mem_cons, List.not_mem_nil, or_false] at h
    rcases h with rfl | rfl | rfl | rfl | rfl | rfl
    iterate 4 decide
    · exact hhex _ (by omega)
    · exact hhex _ (by omega)
  · rw [hc, List.mem_singleton] at h
    rw [h]
    omega

/-- No control character stands in the spelling of a token. -/
theorem printable_spell {t : Token} (ht : t.Lasting) {c : Char} (h : c ∈ spell t) :
    0x20 ≤ c.toNat := by
  have hmark {l : List Char} (hl : l.all (0x20 ≤ ·.toNat) = true) (hc : c ∈ l) :
      0x20 ≤ c.toNat := by
    simpa using List.all_eq_true.1 hl c hc
  cases t with
  | string s =>
    cases s with
    | some s =>
      simp only [spell, string, List.cons_append, List.mem_cons, List.mem_append, List.mem_flatMap,
        List.not_mem_nil, or_false] at h
      rcases h with rfl | ⟨d, -, hd⟩ | rfl
      · decide
      · exact printable_escape hd
      · decide
    | none => exact ht.elim
  | bool b => cases b <;> exact hmark (by decide) h
  | number n => exact ht.elim
  | bad => exact ht.elim
  | _ => exact hmark (by decide) h

/-- Whether the first character of a text starts no token. -/
def startsBad : List Char → Bool
  | [] => false
  | c :: cs => !isSpace c && (front c cs).1 matches .bad

theorem lex_of_startsBad {cs : List Char} (h : startsBad cs = true) : lex cs = [.bad] := by
  cases cs with
  | nil => cases h
  | cons c cs =>
    rw [startsBad, Bool.and_eq_true, Bool.not_eq_true'] at h
    refine lex_bad h.1 ?_
    cases hf : (front c cs).1 with
    | bad => rfl
    | _ => rw [hf] at h; cases h.2

/-- The words of a text. -/
def words : List (List Char) :=
  [['n', 'u', 'l', 'l'], ['t', 'r', 'u', 'e'], ['f', 'a', 'l', 's', 'e']]

/-- A word that breaks off is bad. -/
theorem lex_of_prefix_word {w p : List Char} (hw : w ∈ words) (h : p <+: w) (hne : p ≠ w) :
    lex p = [] ∨ lex p = [.bad] := by
  -- there are three words, so every part of each can be looked at
  have hbad : ∀ w ∈ words, ∀ n < w.length, w.take n = [] ∨ startsBad (w.take n) = true := by decide
  have hlt : p.length < w.length := by
    refine Nat.lt_of_le_of_ne h.length_le ?_
    intro hlength
    exact hne (h.eq_of_length hlength)
  have hcut := hbad w hw p.length hlt
  rw [← List.prefix_iff_eq_take.1 h] at hcut
  rcases hcut with rfl | hcut
  · exact .inl (by rw [lex])
  · exact .inr (lex_of_startsBad hcut)

theorem lex_of_prefix_mark {c : Char} {p : List Char} (h : p <+: [c]) (hne : p ≠ [c]) :
    lex p = [] ∨ lex p = [.bad] := by
  rcases List.prefix_cons_iff.1 h with rfl | ⟨q, rfl, hq⟩
  · exact .inl (by rw [lex])
  · rw [List.prefix_nil.1 hq] at hne
    exact absurd rfl hne

/-- A token that breaks off is bad. -/
theorem lex_of_prefix_spell {t : Token} (ht : t.Lasting) {p : List Char} (h : p <+: spell t)
    (hne : p ≠ spell t) : lex p = [] ∨ lex p = [.bad] := by
  cases t with
  | string s =>
    cases s with
    | some s => exact lex_of_prefix_string h hne
    | none => exact ht.elim
  | null => exact lex_of_prefix_word (by simp [words, spell, atom]) h hne
  | bool b => cases b <;> exact lex_of_prefix_word (by simp [words, spell, atom]) h hne
  | number n => exact ht.elim
  | bad => exact ht.elim
  | _ => exact lex_of_prefix_mark h hne

/-- What is read of a text that breaks off: the first of its tokens, and perhaps that the next one
is bad. -/
theorem lex_of_isPrefix {ts : List Token} (hts : ∀ t ∈ ts, t.Lasting) {p : List Char}
    (h : p <+: ts.flatMap spell) :
    ∃ n, lex p = ts.take n ∨ lex p = ts.take n ++ [.bad] := by
  induction ts generalizing p with
  | nil =>
    rw [List.flatMap_nil, List.prefix_nil] at h
    exact ⟨0, .inl (by rw [h, lex, List.take_nil])⟩
  | cons t ts ih =>
    rw [List.flatMap_cons] at h
    have ht := hts t List.mem_cons_self
    rcases prefix_append_cases h with ⟨hp, hne⟩ | ⟨q, rfl, hq⟩
    · exact ⟨0, lex_of_prefix_spell ht hp hne⟩
    · obtain ⟨n, hn⟩ := ih (fun u hu => hts u (List.mem_cons_of_mem t hu)) hq
      refine ⟨n + 1, ?_⟩
      rw [lex_spell ht, List.take_succ_cons]
      rcases hn with hn | hn
      · exact .inl (by rw [hn])
      · exact .inr (by rw [hn]; rfl)

end FaultDrill.Json
