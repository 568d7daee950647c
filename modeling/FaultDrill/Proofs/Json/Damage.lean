import FaultDrill.Proofs.Json.Structure
/-!
# Texts that end early or late

A blank behind a text changes nothing in its tokens (`lex_concat_space`). A record of single values
that is cut off in the middle has no value (`read_of_isPrefix`).
-/
namespace FaultDrill.Json
open FaultDrill.Document

/-! ## A blank at the end -/

section
variable {b : Char}

theorem isSpace_cases (hb : isSpace b = true) : b = ' ' ∨ b = '\n' ∨ b = '\t' ∨ b = '\r' := by
  simpa [isSpace, or_assoc] using hb

theorem digits?_concat (hb : isSpace b = true) (cs : List Char) :
    digits? (cs ++ [b]) = (digits? cs).map fun (ds, rest) => (ds, rest ++ [b]) := by
  have hd : b.isDigit = false := by
    rcases isSpace_cases hb with rfl | rfl | rfl | rfl <;> rfl
  have ht : (cs ++ [b]).takeWhile Char.isDigit = cs.takeWhile Char.isDigit := by
    induction cs with
    | nil => simp [hd]
    | cons c cs ih => simp [List.takeWhile_cons, ih]
  have hle := (List.takeWhile_prefix Char.isDigit (l := cs)).length_le
  unfold digits?
  simp only [ht]
  split
  · rfl
  · rw [List.drop_append_of_le_length hle]
    rfl

/-- The digits of an exponent, its sign before them or none. -/
theorem exponent_concat (hb : isSpace b = true) (cs : List Char) (down : Bool) :
    (digits? (cs ++ [b])).map (fun (ds, r) => (some (down, ds), r)) =
      ((digits? cs).map fun (ds, r) => (some (down, ds), r)).map
        fun (e, rest) => (e, rest ++ [b]) := by
  rw [digits?_concat hb, Option.map_map, Option.map_map]
  rfl

theorem readExponent_concat (hb : isSpace b = true) (cs : List Char) :
    readExponent (cs ++ [b]) = (readExponent cs).map fun (e, rest) => (e, rest ++ [b]) := by
  rcases cs with _ | ⟨c, cs⟩
  · rcases isSpace_cases hb with rfl | rfl | rfl | rfl <;> rfl
  by_cases hc : (c = 'e' || c = 'E') = true
  · rcases cs with _ | ⟨d, cs⟩
    · simp only [List.cons_append, List.nil_append, readExponent, if_pos hc]
      rcases isSpace_cases hb with rfl | rfl | rfl | rfl <;> rfl
    simp only [List.cons_append, readExponent, if_pos hc]
    by_cases h1 : d = '-'
    · subst h1
      exact exponent_concat hb cs true
    by_cases h2 : d = '+'
    · subst h2
      exact exponent_concat hb cs false
    have h := exponent_concat hb (d :: cs) false
    split
    · simp_all
    · simp_all
    · split
      · simp_all
      · simp_all
      · exact h
  · simp only [List.cons_append, readExponent, if_neg hc]
    rfl

theorem readUnsigned_concat (hb : isSpace b = true) (negative : Bool) (cs : List Char) :
    readUnsigned negative (cs ++ [b]) =
      (readUnsigned negative cs).map fun (n, rest) => (n, rest ++ [b]) := by
  unfold readUnsigned
  rw [digits?_concat hb]
  cases digits? cs with
  | none => rfl
  | some whole =>
    obtain ⟨whole, rest⟩ := whole
    simp only [Option.map_some]
    split
    · rfl
    rcases rest with _ | ⟨d, rest⟩
    · rcases isSpace_cases hb with rfl | rfl | rfl | rfl <;> rfl
    by_cases h1 : d = '.'
    · subst h1
      simp only [List.cons_append, digits?_concat hb]
      cases digits? rest with
      | none => rfl
      | some fraction =>
        simp only [Option.map_some, readExponent_concat hb, Option.map_map]
        rfl
    · -- no fraction, so the exponent follows at once
      have h := readExponent_concat hb (d :: rest)
      simp only [List.cons_append] at h ⊢
      split
      · simp_all
      · split
        · simp_all
        · rw [h, Option.map_map, Option.map_map]
          rfl

theorem readNumber_concat (hb : isSpace b = true) (c : Char) (cs : List Char) :
    readNumber (c :: cs ++ [b]) =
      (readNumber (c :: cs)).map fun (n, rest) => (n, rest ++ [b]) := by
  by_cases h : c = '-'
  · subst h
    exact readUnsigned_concat hb true cs
  · have hu := readUnsigned_concat hb false (c :: cs)
    unfold readNumber
    split
    · simp_all
    · split
      · simp_all
      · exact hu

theorem after?_concat {start : List Char} (hs : b ∉ start) (cs : List Char) :
    Text.after? start (cs ++ [b]) = (Text.after? start cs).map (· ++ [b]) := by
  induction start generalizing cs with
  | nil => simp [Text.after?]
  | cons p ps ih =>
    rw [List.mem_cons, not_or] at hs
    rcases cs with _ | ⟨c, cs⟩
    · simp [Text.after?, Ne.symm hs.1]
    · simp only [List.cons_append, Text.after?]
      split
      · exact ih hs.2 cs
      · rfl

theorem hex4?_space (hb : isSpace b = true) (x y z : Char) : hex4? x y z b = none := by
  have hv : hexValue? b = none := by
    rcases isSpace_cases hb with rfl | rfl | rfl | rfl <;> rfl
  simp only [hex4?, hv]
  cases hexValue? x <;> cases hexValue? y <;> cases hexValue? z <;> rfl

theorem pieces_concat (hb : isSpace b = true) (cs : List Char) :
    pieces (cs ++ [b]) = (pieces cs).map fun (ps, rest) => (ps, rest ++ [b]) := by
  fun_induction pieces cs with
  | case1 => rcases isSpace_cases hb with rfl | rfl | rfl | rfl <;> simp [pieces]
  | case2 rest => exact pieces.eq_2 (rest ++ [b])
  | case3 x y z w rest n ps rest' hp hn ih =>
    rw [hp] at ih
    exact (pieces_unit hn (rest ++ [b])).trans (by rw [ih]; rfl)
  | case4 x y z w rest hnone ih =>
    refine (pieces.eq_3 x y z w (rest ++ [b])).trans ?_
    rw [ih]
    cases hn : hex4? x y z w with
    | none => rfl
    | some n =>
      cases hp : pieces rest with
      | none => rfl
      | some p => exact (hnone n p.1 p.2 hn hp).elim
  | case5 c rest hu e ps rest' hp he ih =>
    have hc : c ≠ 'u' := by
      rintro rfl
      simp [shortEscape?] at he
    rw [hp] at ih
    exact (pieces_short hc he (rest ++ [b])).trans (by rw [ih]; rfl)
  | case6 c rest hu hnone ih =>
    by_cases hc : c = 'u'
    · -- fewer than four characters are left, and the blank is no digit
      subst hc
      rcases rest with _ | ⟨x, _ | ⟨y, _ | ⟨z, _ | ⟨w, rest⟩⟩⟩⟩
      · simp [pieces, shortEscape?]
      · simp [pieces, shortEscape?]
      · simp [pieces, shortEscape?]
      · simp [pieces, hex4?_space hb]
      · exact (hu x y z w rest rfl rfl).elim
    · refine (pieces.eq_4 c (rest ++ [b]) fun _ _ _ _ _ h => absurd h hc).trans ?_
      rw [ih]
      cases he : shortEscape? c with
      | none => rfl
      | some e =>
        cases hp : pieces rest with
        | none => rfl
        | some p => exact (hnone e p.1 p.2 he hp).elim
  | case7 c rest h1 h2 h3 hbad =>
    by_cases hc : c = '\\'
    · subst hc
      rcases rest with _ | ⟨d, rest⟩
      · rcases isSpace_cases hb with rfl | rfl | rfl | rfl <;> simp [pieces, shortEscape?]
      · exact (h3 d rest rfl rfl).elim
    · refine (pieces.eq_5 c (rest ++ [b]) h1 (fun _ _ _ _ _ h => absurd h hc)
        fun _ _ h => absurd h hc).trans ?_
      rw [if_pos hbad]
      rfl
  | case8 c rest h1 h2 h3 hgood ps rest' hp ih =>
    simp only [Bool.or_eq_true, decide_eq_true_eq, not_or] at hgood
    rw [hp] at ih
    exact (pieces_plain h1 hgood.2 hgood.1 (rest ++ [b])).trans (by rw [ih]; rfl)
  | case9 c rest h1 h2 h3 hgood hp ih =>
    simp only [Bool.or_eq_true, decide_eq_true_eq, not_or] at hgood
    rw [hp] at ih
    exact (pieces_plain h1 hgood.2 hgood.1 (rest ++ [b])).trans (by rw [ih]; rfl)

/-- A blank at the end changes nothing in the first token. -/
theorem front_concat (hb : isSpace b = true) (c : Char) (cs : List Char) :
    front c (cs ++ [b]) =
      if (front c cs).1 = .bad then (.bad, []) else ((front c cs).1, (front c cs).2 ++ [b]) := by
  by_cases h1 : c = '['
  · subst h1; rfl
  by_cases h2 : c = ']'
  · subst h2; rfl
  by_cases h3 : c = '\x7b'
  · subst h3; rfl
  by_cases h4 : c = '\x7d'
  · subst h4; rfl
  by_cases h5 : c = ','
  · subst h5; rfl
  by_cases h6 : c = ':'
  · subst h6; rfl
  by_cases h7 : c = '"'
  · subst h7
    rw [front_quote, front_quote, pieces_concat hb]
    cases pieces cs <;> rfl
  -- numbers and words are left; a blank ends a number and stands in no word
  simp only [front, h1, h2, h3, h4, h5, h6, h7, if_false]
  by_cases h8 : (c = '-' || c.isDigit) = true
  · have hn := readNumber_concat hb c cs
    rw [List.cons_append] at hn
    simp only [if_pos h8, hn]
    cases readNumber (c :: cs) <;> rfl
  · have hw (w : List Char) (hne : b ∉ w) := after?_concat hne (c :: cs)
    simp only [List.cons_append] at hw
    simp only [if_neg h8]
    rw [hw ['n', 'u', 'l', 'l'], hw ['t', 'r', 'u', 'e'], hw ['f', 'a', 'l', 's', 'e']]
    · cases Text.after? ['n', 'u', 'l', 'l'] (c :: cs) <;>
        cases Text.after? ['t', 'r', 'u', 'e'] (c :: cs) <;>
          cases Text.after? ['f', 'a', 'l', 's', 'e'] (c :: cs) <;> rfl
    all_goals rcases isSpace_cases hb with rfl | rfl | rfl | rfl <;> decide

/-- A blank at the end of a text is no part of its tokens. -/
theorem lex_concat_space (hb : isSpace b = true) (cs : List Char) : lex (cs ++ [b]) = lex cs := by
  fun_induction lex cs with
  | case1 =>
    rw [List.nil_append, lex_space hb, lex]
  | case2 c cs hs ih =>
    rw [List.cons_append, lex_space hs, ih]
  | case3 c cs hs rest hf =>
    have h := front_concat hb c cs
    rw [hf, if_pos rfl] at h
    rw [List.cons_append, lex_bad (by simpa using hs) (by rw [h])]
  | case4 c cs hs t rest hne hf ih =>
    have h := front_concat hb c cs
    have ht : t ≠ .bad := hne
    rw [hf, if_neg ht] at h
    rw [List.cons_append, lex_front (by simpa using hs) h ht, ih]

end

/-! ## A record that breaks off -/

/-- Whether a token ends a container. -/
def Token.closes : Token → Bool
  | .closeArray => true
  | .closeObject => true
  | _ => false

/-- Containers that are never closed leave the text broken. -/
theorem broken_mem_items {expect : Expect} {open_ : List Bool} {ts : List Token}
    (hopen : open_ ≠ []) (hts : ∀ t ∈ ts, t.closes = false) : .broken ∈ items expect open_ ts := by
  fun_induction items expect open_ ts
  -- without a closing token the open containers stay open until the tokens are used up
  all_goals simp_all [Token.closes]

theorem sound_abandon (positional : Bool) (root : Option Node) (fs : List Frame) :
    (abandon positional root fs).sound = false := by
  cases fs <;> rfl

/-- A document with a break in it is not sound. -/
theorem sound_build {positional : Bool} {root : Option Node} {fs : List Frame} {is : List Item}
    (h : .broken ∈ is) : (build positional root fs is).sound = false := by
  fun_induction build positional root fs is
  case case10 hne _ _ _ ih | case11 hne _ _ _ ih =>
    exact ih ((List.mem_cons.1 h).resolve_left fun he => hne he.symm)
  all_goals simp_all [sound_abandon]

/-- No reader finds a value in a document that is not sound. -/
theorem document_ne_ok {α : Type} {r : Reader α} {t : Tree} (h : t.sound = false) (a : α) :
    r.document t ≠ .ok a := by
  intro hok
  rcases t with ⟨_ | n, sound⟩
  · cases hok
  · subst h
    simp only [Reader.document] at hok
    cases hn : r n <;> simp [hn, bind, Except.bind] at hok

/-- The characters of a record of single values, cut off anywhere before its end, hold no value. -/
theorem read_of_isPrefix {α : Type} (r : Reader α) {ms : List (String × Value)}
    (hlast : Lasting (.record ms)) (hflat : ∀ t ∈ memberTokens ms, t.closes = false)
    {p : List Char} (hp : p <+: compactChars (.record ms)) (hne : p ≠ compactChars (.record ms))
    (a : α) : read r (String.ofList p) ≠ .ok a := by
  have hshape : tokens (.record ms) = (.openObject :: memberTokens ms) ++ [.closeObject] := rfl
  have hpre : p <+: ((.openObject :: memberTokens ms : List Token).flatMap spell) := by
    rw [compactChars_eq, hshape, List.flatMap_append] at hp hne
    have hbrace : ([.closeObject] : List Token).flatMap spell = ['\x7d'] := rfl
    rw [hbrace] at hp hne
    rcases List.prefix_concat_iff.1 hp with heq | hp
    · exact absurd heq hne
    · exact hp
  obtain ⟨n, hn⟩ := lex_of_isPrefix (fun t ht => hlast t (hshape ▸ List.mem_append_left _ ht)) hpre
  refine document_ne_ok (sound_build ?_) a
  rw [String.toList_ofList]
  cases n with
  | zero => rcases hn with hn | hn <;> simp [hn, items, scalar?]
  | succ n =>
    -- the brace in front is read and nothing behind it closes the record
    have hbody : ∃ ts, lex p = .openObject :: ts ∧ ∀ t ∈ ts, t.closes = false := by
      rcases hn with hn | hn
      · exact ⟨_, hn, fun t ht => hflat t (List.mem_of_mem_take ht)⟩
      · refine ⟨_, hn, ?_⟩
        intro t ht
        rcases List.mem_append.1 ht with ht | ht
        · exact hflat t (List.mem_of_mem_take ht)
        · rw [List.mem_singleton.1 ht]
          rfl
    obtain ⟨ts, hts, hclosed⟩ := hbody
    rw [hts, items_openObject (.inl rfl)]
    exact List.mem_cons_of_mem _ (broken_mem_items (by simp) hclosed)

end FaultDrill.Json
