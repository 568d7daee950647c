import FaultDrill.Binary64.Numeral
import FaultDrill.Proofs.Binary64.Exact
import FaultDrill.Proofs.Text.Blank
/-!
# Numerals read

Digits are read as the natural number that they write (`ofNumeral_digits`), and nothing that begins
with a minus is read as a finite number with its sign clear (`minus_of_ofNumeral`). All that stands
in a numeral are digits and a few marks (`marks_of_ofNumeral`), and the case of its letters does not
matter (`ofNumeral_lower`).
-/
namespace FaultDrill.Binary64
open Text

variable {cs ds : List Char} {negative : Bool} {x : Binary64}

/-! ## Digits -/

theorem digitsValue_eq (ds : List Char) : digitsValue ds = Nat.ofDigitChars 10 ds 0 := by
  rw [Nat.ofDigitChars_eq_foldl]
  rfl

theorem digitsValue_toDigits (n : Nat) : digitsValue (Nat.toDigits 10 n) = n := by
  rw [digitsValue_eq, Nat.ofDigitChars_ten_toDigits]

theorem spanDigits_digits (hd : ∀ d ∈ ds, d.isDigit = true) : spanDigits ds = (ds, []) := by
  have htake : (ds ++ []).takeWhile Char.isDigit = ds ++ [] := List.takeWhile_append_of_pos hd
  have hdrop : (ds ++ []).dropWhile Char.isDigit = [] := List.dropWhile_append_of_pos hd
  rw [List.append_nil] at htake hdrop
  rw [spanDigits, htake, hdrop]

theorem isDigit_of_mem_spanDigits {d : Char} (h : d ∈ (spanDigits cs).1) : d.isDigit = true :=
  List.all_eq_true.mp List.all_takeWhile d h

theorem spanDigits_append (cs : List Char) : (spanDigits cs).1 ++ (spanDigits cs).2 = cs :=
  List.takeWhile_append_dropWhile

theorem ofDecimal_natural (n : Nat) : ofDecimal false n 0 = if n = 0 then zero else ofNat n := by
  rw [ofDecimal]
  split
  · rfl
  · rw [if_neg (by decide), if_neg (by omega), if_pos (by decide)]
    show ofRatio false (n * 1) 1 = ofNat n
    rw [Nat.mul_one, ofNat]

theorem isNatural_ofDecimal {n : Nat} (h : n < twoPow 53) : (ofDecimal false n 0).IsNatural n := by
  rw [ofDecimal_natural]
  split
  · rename_i hzero
    subst hzero
    exact ⟨rfl, rfl, (Nat.zero_mul one).symm⟩
  · exact isNatural_ofNat h

/-! ## Signs -/

theorem isNegative_ofUnits (negative : Bool) (num den : Nat) :
    (ofUnits negative num den).isNegative = negative := by
  rw [ofUnits]
  split <;> split <;> rfl

theorem isNegative_ofDecimal (negative : Bool) (n : Nat) (e : Int) :
    (ofDecimal negative n e).isNegative = negative := by
  rw [ofDecimal]
  split
  · rfl
  split
  · rfl
  split
  · rfl
  split <;> exact isNegative_ofUnits ..

theorem named?_eq_some {word : List Char} (h : named? negative word = some x) :
    (word = "inf".toList ∨ word = "infinity".toList) ∧ x = .infinite negative ∨
      word = "nan".toList ∧ x = .nan := by
  rw [named?] at h
  split at h
  · rename_i hword
    simp only [Bool.or_eq_true, decide_eq_true_eq] at hword
    exact .inl ⟨hword, (Option.some.inj h).symm⟩
  split at h
  · rename_i hword
    exact .inr ⟨hword, (Option.some.inj h).symm⟩
  · cases h

theorem figures?_eq_some (h : figures? negative cs = some x) :
    ∃ e, exponent? (spanFraction (spanDigits cs).2).2 = some e ∧
      ∃ n e', x = ofDecimal negative n e' := by
  rw [figures?] at h
  dsimp only at h
  split at h
  · cases h
  · obtain ⟨e, he, rfl⟩ := Option.map_eq_some_iff.mp h
    exact ⟨e, he, _, _, rfl⟩

/-- A number that is read behind a sign has the sign. -/
theorem isNegative_of_unsigned? (h : unsigned? negative cs = some x) :
    x.isNegative = negative ∨ x = .nan := by
  rw [unsigned?, Option.or_eq_some_iff] at h
  rcases h with hname | ⟨-, hfigures⟩
  · rcases named?_eq_some hname with ⟨-, rfl⟩ | ⟨-, rfl⟩
    · exact .inl rfl
    · exact .inr rfl
  · obtain ⟨-, -, n, e, rfl⟩ := figures?_eq_some hfigures
    exact .inl (isNegative_ofDecimal negative n e)

theorem ofNumeral_eq_ok :
    ofNumeral (String.ofList cs) = .ok x ↔ unsigned? (spanSign cs).1 (spanSign cs).2 = some x := by
  rw [ofNumeral, String.toList_ofList]
  cases cs with
  | nil => exact iff_of_false (fun h => nomatch h) (fun h => nomatch h)
  | cons c cs =>
    dsimp only
    cases unsigned? (spanSign (c :: cs)).1 (spanSign (c :: cs)).2 <;> simp

/-- What begins with a minus is read as no finite number with its sign clear. -/
theorem minus_of_ofNumeral (h : ofNumeral (String.ofList ('-' :: cs)) = .ok x) :
    x.isNegative = true ∨ x = .nan :=
  isNegative_of_unsigned? (ofNumeral_eq_ok.mp h)

/-! ## Digits alone -/

/-- Digits are no name of a number. -/
theorem named?_digits (hd : ∀ d ∈ ds, d.isDigit = true) :
    named? negative (ds.map Char.toLower) = none := by
  have hne (w : List Char) (hw : w.any (!·.isDigit) = true) : ds.map Char.toLower ≠ w := by
    rintro rfl
    obtain ⟨c, hc, hletter⟩ := List.any_eq_true.mp hw
    obtain ⟨d, hmem, rfl⟩ := List.mem_map.mp hc
    rw [isDigit_toLower, hd d hmem] at hletter
    cases hletter
  have hinf := hne "inf".toList (by decide)
  have hinfinity := hne "infinity".toList (by decide)
  have hnan := hne "nan".toList (by decide)
  simp only [named?, hinf, hinfinity, hnan, decide_false, Bool.or_self, Bool.false_eq_true,
    if_false]

theorem figures?_digits (hd : ∀ d ∈ ds, d.isDigit = true) (hne : ds ≠ []) :
    figures? negative ds = some (ofDecimal negative (digitsValue ds) 0) := by
  have hempty : ds.isEmpty = false := by simpa using hne
  rw [figures?, spanDigits_digits hd]
  simp only [spanFraction, hempty, Bool.false_and, Bool.false_eq_true, if_false, exponent?,
    Option.map_some, List.append_nil, List.length_nil]
  rfl

theorem spanSign_digits (hd : ∀ d ∈ ds, d.isDigit = true) : spanSign ds = (false, ds) := by
  unfold spanSign
  split
  · cases hd '-' List.mem_cons_self
  · cases hd '+' List.mem_cons_self
  · rfl

theorem ofNumeral_digits (hd : ∀ d ∈ ds, d.isDigit = true) (hne : ds ≠ []) :
    ofNumeral (String.ofList ds) = .ok (ofDecimal false (digitsValue ds) 0) := by
  have hunsigned : unsigned? false ds = some (ofDecimal false (digitsValue ds) 0) := by
    rw [unsigned?, named?_digits hd, Option.none_or, figures?_digits hd hne]
  rwa [ofNumeral_eq_ok, spanSign_digits hd]

/-! ## Marks -/

/-- What may stand in a numeral: a digit, a sign, a point, or a letter of an exponent or a name. -/
def IsMark (c : Char) : Prop := c.isDigit = true ∨ c.toLower ∈ "+-.einftya".toList

theorem isBlank_of_isMark {c : Char} (h : IsMark c) : isBlank c = false := by
  rcases h with hdigit | hmark
  · exact isBlank_of_isDigit hdigit
  · have hall : "+-.einftya".toList.all (isBlank · = false) = true := by decide
    rw [← isBlank_toLower]
    exact decide_eq_true_iff.mp (List.all_eq_true.mp hall _ hmark)

theorem marks_of_spanDigits (h : ∀ c ∈ (spanDigits cs).2, IsMark c) : ∀ c ∈ cs, IsMark c := by
  intro c hc
  rw [← spanDigits_append cs, List.mem_append] at hc
  rcases hc with hc | hc
  · exact .inl (isDigit_of_mem_spanDigits hc)
  · exact h c hc

theorem marks_of_spanFraction (h : ∀ c ∈ (spanFraction cs).2, IsMark c) : ∀ c ∈ cs, IsMark c := by
  intro c hc
  unfold spanFraction at h
  split at h
  · rcases List.mem_cons.mp hc with rfl | hc
    · exact .inr (by decide)
    · exact marks_of_spanDigits h c hc
  · exact h c hc

theorem marks_of_spanSign (h : ∀ c ∈ (spanSign cs).2, IsMark c) : ∀ c ∈ cs, IsMark c := by
  intro c hc
  unfold spanSign at h
  split at h
  · rcases List.mem_cons.mp hc with rfl | hc
    · exact .inr (by decide)
    · exact h c hc
  · rcases List.mem_cons.mp hc with rfl | hc
    · exact .inr (by decide)
    · exact h c hc
  · exact h c hc

theorem marks_of_exponent? {e : Int} (h : exponent? cs = some e) : ∀ c ∈ cs, IsMark c := by
  cases cs with
  | nil => exact List.forall_mem_nil _
  | cons c cs =>
    rw [exponent?] at h
    split at h
    · rename_i hc
      have hmark : IsMark c := by
        rcases (by simpa using hc : c = 'e' ∨ c = 'E') with rfl | rfl <;> exact .inr (by decide)
      have hmore : ∀ d ∈ cs, IsMark d := by
        apply marks_of_spanSign
        apply marks_of_spanDigits
        dsimp only at h
        generalize spanDigits (spanSign cs).2 = parts at h ⊢
        obtain ⟨ds, more⟩ := parts
        cases ds with
        | nil => cases h
        | cons d ds =>
          cases more with
          | nil => exact List.forall_mem_nil _
          | cons d more => cases h
      intro d hd
      rcases List.mem_cons.mp hd with rfl | hd
      · exact hmark
      · exact hmore d hd
    · cases h

theorem marks_of_unsigned? (h : unsigned? negative cs = some x) : ∀ c ∈ cs, IsMark c := by
  rw [unsigned?, Option.or_eq_some_iff] at h
  rcases h with hname | ⟨-, hfigures⟩
  · have hword : (cs.map Char.toLower).all (· ∈ "+-.einftya".toList) = true := by
      rcases named?_eq_some hname with ⟨hword | hword, -⟩ | ⟨hword, -⟩ <;>
      · rw [hword]
        decide
    intro c hc
    exact .inr (decide_eq_true_iff.mp (List.all_eq_true.mp hword _ (List.mem_map_of_mem hc)))
  · obtain ⟨e, he, -⟩ := figures?_eq_some hfigures
    exact marks_of_spanDigits (marks_of_spanFraction (marks_of_exponent? he))

theorem marks_of_ofNumeral (h : ofNumeral (String.ofList cs) = .ok x) : ∀ c ∈ cs, IsMark c :=
  marks_of_spanSign (marks_of_unsigned? (ofNumeral_eq_ok.mp h))

/-! ## Lower case -/

theorem spanDigits_lower (cs : List Char) :
    spanDigits (cs.map Char.toLower) = ((spanDigits cs).1, (spanDigits cs).2.map Char.toLower) := by
  have hdigit : Char.isDigit ∘ Char.toLower = Char.isDigit := funext isDigit_toLower
  have hsame : (cs.takeWhile Char.isDigit).map Char.toLower = cs.takeWhile Char.isDigit :=
    (List.map_congr_left fun d hd => toLower_of_isDigit (isDigit_of_mem_spanDigits hd)).trans
      (List.map_id' _)
  rw [spanDigits, List.takeWhile_map, List.dropWhile_map, hdigit, hsame]
  rfl

theorem spanSign_lower (cs : List Char) :
    spanSign (cs.map Char.toLower) = ((spanSign cs).1, (spanSign cs).2.map Char.toLower) := by
  cases cs with
  | nil => rfl
  | cons c cs =>
    have hminus : c.toLower = '-' ↔ c = '-' := toLower_eq_iff (by decide)
    have hplus : c.toLower = '+' ↔ c = '+' := toLower_eq_iff (by decide)
    rw [List.map_cons]
    unfold spanSign
    split <;> split <;> simp_all

theorem spanFraction_lower (cs : List Char) : spanFraction (cs.map Char.toLower) =
    ((spanFraction cs).1, (spanFraction cs).2.map Char.toLower) := by
  cases cs with
  | nil => rfl
  | cons c cs =>
    have hpoint : c.toLower = '.' ↔ c = '.' := toLower_eq_iff (by decide)
    have hdigits := spanDigits_lower cs
    rw [List.map_cons]
    unfold spanFraction
    split <;> split <;> simp_all

theorem toLower_eq_e (c : Char) : c.toLower = 'e' ↔ c = 'e' ∨ c = 'E' := by
  have hlower : 'e'.toNat = 101 := rfl
  have hupper : 'E'.toNat = 69 := rfl
  rw [← Char.toNat_inj, ← Char.toNat_inj, ← Char.toNat_inj, toNat_toLower, hlower, hupper]
  split <;> omega

theorem exponent?_lower (cs : List Char) : exponent? (cs.map Char.toLower) = exponent? cs := by
  cases cs with
  | nil => rfl
  | cons c cs =>
    -- no letter in lower case is an `E`
    have hmark : (c.toLower = 'e' ∨ c.toLower = 'E') ↔ (c = 'e' ∨ c = 'E') := by
      rw [toLower_eq_e c, or_iff_left_iff_imp, ← toLower_eq_e c]
      intro hupper
      rw [← toLower_toLower, hupper]
      rfl
    rw [List.map_cons]
    simp only [exponent?, Bool.or_eq_true, decide_eq_true_eq, hmark, spanSign_lower,
      spanDigits_lower]
    obtain ⟨ds, more⟩ := spanDigits (spanSign cs).2
    cases ds <;> cases more <;> rfl

theorem unsigned?_lower (negative : Bool) (cs : List Char) :
    unsigned? negative (cs.map Char.toLower) = unsigned? negative cs := by
  have hword : (cs.map Char.toLower).map Char.toLower = cs.map Char.toLower := by
    rw [List.map_map]
    exact List.map_congr_left fun c _ => toLower_toLower c
  have hfigures : figures? negative (cs.map Char.toLower) = figures? negative cs := by
    simp only [figures?, spanDigits_lower, spanFraction_lower, exponent?_lower]
  rw [unsigned?, unsigned?, hword, hfigures]

/-- The case of letters does not matter to a numeral. -/
theorem ofNumeral_lower (h : ofNumeral (String.ofList cs) = .ok x) :
    ofNumeral (String.ofList (cs.map Char.toLower)) = .ok x := by
  rw [ofNumeral_eq_ok] at h ⊢
  rwa [spanSign_lower, unsigned?_lower]

end FaultDrill.Binary64
