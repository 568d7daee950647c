import Mathlib.Data.List.Basic
import Mathlib.Data.List.TakeWhile
import FaultDrill.Text.Blank
/-!
# Blanks, cases and endings

Blanks at the ends of a text make no difference to what trimming leaves of it (`trimChars_append`),
and a text that has none there is left as it is. The case of letters does not matter to a property
that no letter has (`apply_toLower`). A text has an ending where it is something with the ending
behind it (`before?_eq_some`).
-/
namespace FaultDrill.Text

variable {c : Char} {cs : List Char}

/-! ## Characters -/

theorem toNat_of_isDigit (h : c.isDigit = true) : 48 ≤ c.toNat ∧ c.toNat ≤ 57 := by
  simp only [Char.isDigit, Bool.and_eq_true, decide_eq_true_eq, UInt32.le_iff_toNat_le] at h
  exact h

/-- A digit is no blank. -/
theorem isBlank_of_isDigit (h : c.isDigit = true) : isBlank c = false := by
  have hc := toNat_of_isDigit h
  simp only [isBlank, Bool.or_eq_false_iff, Bool.and_eq_false_iff, decide_eq_false_iff_not,
    beq_eq_false_iff_ne]
  omega

theorem isAlpha_iff :
    c.isAlpha = true ↔ 65 ≤ c.toNat ∧ c.toNat ≤ 90 ∨ 97 ≤ c.toNat ∧ c.toNat ≤ 122 := by
  delta Char.isAlpha Char.isUpper Char.isLower
  simp only [Bool.or_eq_true, Bool.and_eq_true, decide_eq_true_eq]
  rfl

theorem isBlank_of_isAlpha (h : c.isAlpha = true) : isBlank c = false := by
  rw [isAlpha_iff] at h
  simp only [isBlank, Bool.or_eq_false_iff, Bool.and_eq_false_iff, decide_eq_false_iff_not,
    beq_eq_false_iff_ne]
  omega

theorem isDigit_of_isAlpha (h : c.isAlpha = true) : c.isDigit = false := by
  rw [← Bool.not_eq_true]
  intro hdigit
  have hc := toNat_of_isDigit hdigit
  rw [isAlpha_iff] at h
  omega

theorem toNat_toLower (c : Char) :
    c.toLower.toNat = if 65 ≤ c.toNat ∧ c.toNat ≤ 90 then c.toNat + 32 else c.toNat := by
  delta Char.toLower
  split
  · rename_i hupper
    have hrange : 65 ≤ c.toNat ∧ c.toNat ≤ 90 := hupper
    rw [if_pos hrange]
    show (c.val + ('a'.val - 'A'.val)).toNat = c.val.toNat + 32
    have hc : c.val.toNat ≤ 90 := hrange.2
    have hval : ('a'.val - 'A'.val).toNat = 32 := rfl
    rw [UInt32.toNat_add, hval, Nat.mod_eq_of_lt (by omega)]
  · rename_i hupper
    have hrange : ¬ (65 ≤ c.toNat ∧ c.toNat ≤ 90) := hupper
    rw [if_neg hrange]

/-- Only a letter has another form in lower case, and that is a letter. -/
theorem toLower_cases (c : Char) :
    c.toLower = c ∨ c.isAlpha = true ∧ c.toLower.isAlpha = true := by
  have hnat := toNat_toLower c
  split at hnat
  · rw [isAlpha_iff, isAlpha_iff]
    omega
  · exact .inl (Char.toNat_inj.mp hnat)

/-- The case of letters does not matter to a property that no letter has. -/
theorem apply_toLower {p : Char → Bool} (hp : ∀ c, c.isAlpha = true → p c = false) (c : Char) :
    p c.toLower = p c := by
  rcases toLower_cases c with h | ⟨hc, hlower⟩
  · rw [h]
  · rw [hp c hc, hp _ hlower]

theorem isBlank_toLower (c : Char) : isBlank c.toLower = isBlank c :=
  apply_toLower (fun _ => isBlank_of_isAlpha) c

theorem isBlank_map_toLower {b : Bool} (h : ∀ c ∈ cs, isBlank c = b) :
    ∀ c ∈ cs.map Char.toLower, isBlank c = b := by
  intro c hc
  obtain ⟨d, hd, rfl⟩ := List.mem_map.mp hc
  rw [isBlank_toLower]
  exact h d hd

theorem isDigit_toLower (c : Char) : c.toLower.isDigit = c.isDigit :=
  apply_toLower (p := Char.isDigit) (fun _ => isDigit_of_isAlpha) c

/-- A character that is no letter is the lower case of itself alone. -/
theorem toLower_eq_iff {d : Char} (hd : d.isAlpha = false) : c.toLower = d ↔ c = d := by
  have h := apply_toLower (p := (· == d)) (fun c hc => by
    rw [beq_eq_false_iff_ne]
    rintro rfl
    exact absurd hc (by rw [hd]; decide)) c
  rwa [Bool.eq_iff_iff, beq_iff_eq, beq_iff_eq] at h

theorem toLower_toLower (c : Char) : c.toLower.toLower = c.toLower := by
  apply Char.toNat_inj.mp
  rw [toNat_toLower c.toLower, if_neg]
  rw [toNat_toLower]
  split <;> omega

theorem toLower_of_isDigit (h : c.isDigit = true) : c.toLower = c := by
  rcases toLower_cases c with hc | ⟨hc, -⟩
  · exact hc
  · rw [isDigit_of_isAlpha hc] at h
    cases h

/-! ## Trimming -/

theorem trimLeft_cons (h : isBlank c = false) (cs : List Char) : trimLeft (c :: cs) = c :: cs := by
  simp [trimLeft, h]

theorem trimLeft_eq_self (h : ∀ c ∈ cs.head?, isBlank c = false) : trimLeft cs = cs := by
  cases cs with
  | nil => rfl
  | cons c cs => exact trimLeft_cons (h c rfl) cs

theorem trimRight_eq_self (h : ∀ c ∈ cs.getLast?, isBlank c = false) : trimRight cs = cs := by
  rw [← List.head?_reverse] at h
  rw [trimRight, ← trimLeft, trimLeft_eq_self h, List.reverse_reverse]

/-- What begins with something else than a blank still does when it is trimmed. -/
theorem trimChars_cons (h : isBlank c = false) (cs : List Char) :
    trimChars (c :: cs) = c :: trimRight cs := by
  rw [trimChars, trimLeft_cons h, trimRight, trimRight, List.reverse_cons, List.dropWhile_append]
  split
  · rename_i hempty
    simp [List.isEmpty_iff.mp hempty, h]
  · simp

/-- Without blanks at its ends a text is trimmed. -/
theorem trimChars_eq_self (hfirst : ∀ c ∈ cs.head?, isBlank c = false)
    (hlast : ∀ c ∈ cs.getLast?, isBlank c = false) : trimChars cs = cs := by
  rw [trimChars, trimLeft_eq_self hfirst, trimRight_eq_self hlast]

variable {before after : List Char}

theorem trimLeft_of_blank (h : ∀ c ∈ cs, isBlank c = true) : trimLeft cs = [] := by
  have hdrop : (cs ++ []).dropWhile isBlank = [] := List.dropWhile_append_of_pos h
  rwa [List.append_nil] at hdrop

theorem trimRight_append (h : ∀ c ∈ after, isBlank c = true) (cs : List Char) :
    trimRight (cs ++ after) = trimRight cs := by
  rw [trimRight, List.reverse_append, List.dropWhile_append_of_pos, ← trimRight]
  intro c hc
  exact h c (List.mem_reverse.mp hc)

/-- Blanks before and after a text do not matter. -/
theorem trimChars_append (hbefore : ∀ c ∈ before, isBlank c = true)
    (hafter : ∀ c ∈ after, isBlank c = true) (cs : List Char) :
    trimChars (before ++ cs ++ after) = trimChars cs := by
  rw [trimChars, trimChars, List.append_assoc, trimLeft, List.dropWhile_append_of_pos hbefore,
    List.dropWhile_append, ← trimLeft, ← trimLeft]
  split
  · rename_i hempty
    rw [trimLeft_of_blank hafter, List.isEmpty_iff.mp hempty]
  · exact trimRight_append hafter _

/-- A text without blanks is what trimming leaves of it with blanks behind. -/
theorem trimChars_append_blank (h : ∀ c ∈ cs, isBlank c = false)
    (hafter : ∀ c ∈ after, isBlank c = true) : trimChars (cs ++ after) = cs := by
  have htrim : trimChars ([] ++ cs ++ after) = trimChars cs :=
    trimChars_append (List.forall_mem_nil _) hafter cs
  rw [List.nil_append] at htrim
  rw [htrim]
  exact trimChars_eq_self (fun c hc => h c (List.mem_of_head? hc))
    fun c hc => h c (List.mem_of_getLast? hc)

/-- What trimming takes from the end is blanks. -/
theorem exists_trimRight (cs : List Char) :
    ∃ after, cs = trimRight cs ++ after ∧ ∀ c ∈ after, isBlank c = true := by
  refine ⟨(cs.reverse.takeWhile isBlank).reverse, ?_, fun c hc => ?_⟩
  · rw [trimRight, ← List.reverse_append, List.takeWhile_append_dropWhile, List.reverse_reverse]
  · exact List.mem_takeWhile_imp (List.mem_reverse.mp hc)

theorem trimChars_trimRight (cs : List Char) : trimChars (trimRight cs) = trimChars cs := by
  obtain ⟨after, hcs, hafter⟩ := exists_trimRight cs
  have htrim : trimChars ([] ++ trimRight cs ++ after) = trimChars (trimRight cs) :=
    trimChars_append (List.forall_mem_nil _) hafter (trimRight cs)
  rw [List.nil_append, ← hcs] at htrim
  exact htrim.symm

/-- Trimming the end stops at something else than a blank. -/
theorem trimRight_append_left {front : List Char} (h : ∀ c ∈ front.getLast?, isBlank c = false)
    (cs : List Char) : trimRight (front ++ cs) = front ++ trimRight cs := by
  rw [trimRight, trimRight, List.reverse_append, List.dropWhile_append]
  split
  · rename_i hempty
    have hfront : trimRight front = front := trimRight_eq_self h
    rw [List.isEmpty_iff.mp hempty, ← trimRight, hfront, List.reverse_nil, List.append_nil]
  · rw [List.reverse_append, List.reverse_reverse]

theorem trimChars_of_blank (h : ∀ c ∈ cs, isBlank c = true) : trimChars cs = [] := by
  rw [trimChars, trimLeft_of_blank h]
  rfl

/-! ## Endings -/

theorem after?_eq_some {start rest : List Char} :
    after? start cs = some rest ↔ cs = start ++ rest := by
  induction start generalizing cs with
  | nil => simp [after?, eq_comm]
  | cons p start ih =>
    cases cs with
    | nil => simp [after?]
    | cons c cs =>
      rw [after?]
      split
      · rename_i hp
        subst hp
        rw [ih, List.cons_append, List.cons.injEq, eq_self, true_and]
      · rename_i hp
        simp [Ne.symm hp]

variable {stop : List Char}

theorem before?_eq_some {front : List Char} :
    before? stop cs = some front ↔ cs = front ++ stop := by
  rw [before?, Option.map_eq_some_iff]
  constructor
  · rintro ⟨rest, hrest, rfl⟩
    have h := congrArg List.reverse (after?_eq_some.mp hrest)
    simpa using h
  · rintro rfl
    refine ⟨front.reverse, after?_eq_some.mpr ?_, List.reverse_reverse _⟩
    rw [List.reverse_append]

theorem before?_eq_none (h : cs.getLast? ≠ stop.getLast?) (hstop : stop ≠ []) :
    before? stop cs = none := by
  rw [Option.eq_none_iff_forall_ne_some]
  intro front hfront
  rw [before?_eq_some.mp hfront, List.getLast?_append_of_ne_nil _ hstop] at h
  exact h rfl

end FaultDrill.Text
