import FaultDrill.Proofs.Binary64.Numeral
import FaultDrill.Proofs.Text.Blank
import FaultDrill.Span
/-!
# Spans read

A text that writes a number and a unit is taken apart as it was written (`splitUnit_written`), so
what is read is the number's value in the unit (`parse_of_written`). Digits count their unit exactly
below 2^53 milliseconds, and what is no number from zero on is refused (`parse_written`).
-/
namespace FaultDrill.Span
open Binary64 (ofNumeral digitsValue IsMark)
open Text

variable {raw : String} {number cs : List Char} {u : Unit}

/-! ## Units -/

/-- A name of a unit, in any case; seconds may go without one. -/
def Unit.Names (u : Unit) (name : List Char) : Prop :=
  name.map Char.toLower = u.ending ∨ u = .second ∧ name = []

/-- A text that writes a number part and a unit, with blanks before, between and after them. -/
inductive Written (number : List Char) (u : Unit) : String → Prop where
  | text (before between name after : List Char) (hbefore : ∀ c ∈ before, isBlank c = true)
    (hbetween : ∀ c ∈ between, isBlank c = true) (hname : u.Names name)
    (hafter : ∀ c ∈ after, isBlank c = true) :
    Written number u (String.ofList (before ++ (number ++ between ++ name) ++ after))

theorem ending_ne_nil (u : Unit) : u.ending ≠ [] := by
  cases u <;> decide

theorem splitUnitAmong_of_none {us : List Unit} (h : before? u.ending cs = none) :
    splitUnitAmong (u :: us) cs = splitUnitAmong us cs := by
  rw [splitUnitAmong, h]

theorem splitUnitAmong_ending (u : Unit) (us : List Unit) (front : List Char) :
    splitUnitAmong (u :: us) (front ++ u.ending) = (front, u) := by
  rw [splitUnitAmong, before?_eq_some.mpr rfl]

/-- The end of a text rules out the units whose names end otherwise. -/
theorem splitUnitAmong_of_last {us : List Unit} (h : ∀ u ∈ us, cs.getLast? ≠ u.ending.getLast?)
    (more : List Unit) : splitUnitAmong (us ++ more) cs = splitUnitAmong more cs := by
  induction us with
  | nil => rfl
  | cons u us ih =>
    rw [List.cons_append, splitUnitAmong_of_none]
    · exact ih fun v hv => h v (List.mem_cons_of_mem u hv)
    · exact before?_eq_none (h u List.mem_cons_self) (ending_ne_nil u)

/-- Behind anything but an `m`, a unit is found where it was written. -/
theorem splitUnit_ending {front : List Char} (h : front.getLast? ≠ some 'm') (u : Unit) :
    splitUnit (front ++ u.ending) = (front, u) := by
  have hlast : (front ++ u.ending).getLast? = u.ending.getLast? :=
    List.getLast?_append_of_ne_nil front (ending_ne_nil u)
  have hskip (us more : List Unit) (hus : ∀ v ∈ us, u.ending.getLast? ≠ v.ending.getLast?) :
      splitUnitAmong (us ++ u :: more) (front ++ u.ending) = (front, u) := by
    rw [splitUnitAmong_of_last fun v hv => hlast ▸ hus v hv, splitUnitAmong_ending]
  cases u with
  | milli => exact hskip [] _ (by decide)
  | second =>
    rw [splitUnit, splitUnitAmong_of_none, splitUnitAmong_ending]
    -- what would stand before `ms` ends in an `m` when the `s` is taken from it
    rw [Option.eq_none_iff_forall_ne_some]
    intro rest hrest
    have hsplit : front ++ ['s'] = (rest ++ ['m']) ++ ['s'] := by
      rw [List.append_assoc]
      exact before?_eq_some.mp hrest
    rw [List.append_cancel_right hsplit] at h
    simp at h
  | minute => exact hskip [.milli, .second] _ (by decide)
  | hour => exact hskip [.milli, .second, .minute] _ (by decide)
  | day => exact hskip [.milli, .second, .minute, .hour] _ (by decide)

/-- A text with no unit at its end counts seconds. -/
theorem splitUnit_bare (h : ∀ c ∈ cs.getLast?, c ∉ ['s', 'm', 'h', 'd']) :
    splitUnit cs = (cs, .second) := by
  have hlast : ∀ u ∈ [Unit.milli, .second, .minute, .hour, .day],
      cs.getLast? ≠ u.ending.getLast? := by
    intro u _ hlast
    cases u <;> exact h _ hlast (by decide)
  exact splitUnitAmong_of_last hlast []

theorem splitUnitAmong_prefix (us : List Unit) (cs : List Char) :
    (splitUnitAmong us cs).1 <+: cs := by
  induction us with
  | nil => exact List.prefix_rfl
  | cons u us ih =>
    rw [splitUnitAmong]
    split
    · rename_i value hvalue
      rw [before?_eq_some.mp hvalue]
      exact List.prefix_append value u.ending
    · exact ih

/-! ## Texts -/

/-- The text that is split: what trimming leaves, in lower case. -/
def core (raw : String) : List Char := (trimChars raw.toList).map Char.toLower

theorem toList_core (raw : String) : (lowerAscii (trim raw)).toList = core raw := by
  rw [lowerAscii, trim, String.toList_ofList, String.toList_ofList, core]

theorem parse_of_error {why : Binary64.NumeralFault} (hne : core raw ≠ [])
    (h : ofNumeral (String.ofList (trimChars (splitUnit (core raw)).1)) = .error why) :
    parse raw = .error (.numeral raw why) := by
  have hempty : (core raw).isEmpty = false := by simpa using hne
  simp only [parse, toList_core, hempty, Bool.false_eq_true, if_false, h]

theorem parse_of_ok {x : Binary64} (hne : core raw ≠ [])
    (h : ofNumeral (String.ofList (trimChars (splitUnit (core raw)).1)) = .ok x) :
    parse raw = if x.isNegative || !x.isFinite then .error (.notPositive raw)
      else .ok (scale x (splitUnit (core raw)).2) := by
  have hempty : (core raw).isEmpty = false := by simpa using hne
  simp only [parse, toList_core, hempty, Bool.false_eq_true, if_false, h]

theorem parse_of_blank (h : ∀ c ∈ raw.toList, isBlank c = true) : parse raw = .error .empty := by
  rw [parse, trim, trimChars_of_blank h]
  rfl

theorem core_ofList {before after : List Char} (hbefore : ∀ c ∈ before, isBlank c = true)
    (hafter : ∀ c ∈ after, isBlank c = true) (cs : List Char) :
    core (String.ofList (before ++ cs ++ after)) = (trimChars cs).map Char.toLower := by
  rw [core, String.toList_ofList, trimChars_append hbefore hafter]

/-- What begins with a minus is no span, whatever follows. -/
theorem parse_of_minus {before : List Char} (hbefore : ∀ c ∈ before, isBlank c = true)
    (rest : List Char) : ∃ why, parse (String.ofList (before ++ '-' :: rest)) = .error why := by
  have hcore : ∃ more, core (String.ofList (before ++ '-' :: rest)) = '-' :: more := by
    have hall := core_ofList hbefore (List.forall_mem_nil _) ('-' :: rest)
    rw [List.append_nil, trimChars_cons (by decide)] at hall
    exact ⟨_, hall⟩
  obtain ⟨more, hcore⟩ := hcore
  generalize String.ofList (before ++ '-' :: rest) = raw at hcore ⊢
  have hne : core raw ≠ [] := by
    rw [hcore]
    exact List.cons_ne_nil _ _
  -- a unit is taken from the end, so what stays begins with the minus or is nothing
  have hprefix : (splitUnit (core raw)).1 <+: '-' :: more := by
    rw [← hcore]
    exact splitUnitAmong_prefix _ _
  cases hread : ofNumeral (String.ofList (trimChars (splitUnit (core raw)).1)) with
  | error why => exact ⟨_, parse_of_error hne hread⟩
  | ok x =>
    refine ⟨.notPositive raw, (parse_of_ok hne hread).trans (if_pos ?_)⟩
    generalize (splitUnit (core raw)).1 = value at hprefix hread
    cases value with
    | nil => cases hread
    | cons c value =>
      obtain ⟨rfl, -⟩ := List.cons_prefix_cons.mp hprefix
      rw [trimChars_cons (by decide)] at hread
      rcases Binary64.minus_of_ofNumeral hread with hnegative | rfl
      · rw [hnegative, Bool.true_or]
      · rfl

/-! ## Written texts -/

theorem isBlank_ending {c : Char} (hc : c ∈ u.ending) : isBlank c = false := by
  have hall : u.ending.all (isBlank · = false) = true := by cases u <;> decide
  exact decide_eq_true_iff.mp (List.all_eq_true.mp hall c hc)

theorem Unit.Names.not_blank {name : List Char} (h : u.Names name) :
    ∀ c ∈ name, isBlank c = false := by
  intro c hc
  rcases h with hname | ⟨-, rfl⟩
  · rw [← isBlank_toLower]
    exact isBlank_ending (hname ▸ List.mem_map_of_mem hc)
  · cases hc

/-- No numeral has a letter of the end of a unit in it. -/
theorem not_last_of_isMark {c : Char} (h : IsMark c) : c.toLower ∉ ['s', 'm', 'h', 'd'] := by
  rcases h with hdigit | hmark
  · have hletters : ['s', 'm', 'h', 'd'].all (!·.isDigit) = true := by decide
    intro hmem
    have hletter := List.all_eq_true.mp hletters _ hmem
    rw [isDigit_toLower, hdigit] at hletter
    cases hletter
  · have hapart : "+-.einftya".toList.all (· ∉ ['s', 'm', 'h', 'd']) = true := by decide
    exact decide_eq_true_iff.mp (List.all_eq_true.mp hapart _ hmark)

theorem marks_not_blank (h : ∀ c ∈ number, IsMark c) : ∀ c ∈ number, isBlank c = false :=
  fun c hc => Binary64.isBlank_of_isMark (h c hc)

/-- Neither a numeral nor the blanks behind it end in the letter that `ms` begins with. -/
theorem getLast?_ne_m {between : List Char} (hmarks : ∀ c ∈ number, IsMark c)
    (hbetween : ∀ c ∈ between, isBlank c = true) :
    (number.map Char.toLower ++ between.map Char.toLower).getLast? ≠ some 'm' := by
  intro hlast
  rcases List.mem_append.mp (List.mem_of_getLast? hlast) with hm | hm
  · obtain ⟨c, hc, hlower⟩ := List.mem_map.mp hm
    exact not_last_of_isMark (hmarks c hc) (by rw [hlower]; decide)
  · have hblank := isBlank_map_toLower hbetween 'm' hm
    exact absurd hblank (by decide)

/-- What is written from the number to the name of the unit has no blanks around it. -/
theorem trimChars_named {between name : List Char} (hne : number ≠ [])
    (hnumber : ∀ c ∈ number, isBlank c = false) (hnamed : name ≠ [])
    (hname : ∀ c ∈ name, isBlank c = false) :
    trimChars (number ++ between ++ name) = number ++ between ++ name := by
  apply trimChars_eq_self
  · rw [List.append_assoc, List.head?_append_of_ne_nil _ hne]
    exact fun c hc => hnumber c (List.mem_of_head? hc)
  · rw [List.getLast?_append_of_ne_nil _ hnamed]
    exact fun c hc => hname c (List.mem_of_getLast? hc)

/-- A text that writes a numeral is split into the numeral and its unit. -/
theorem splitUnit_written (h : Written number u raw) (hne : number ≠ [])
    (hmarks : ∀ c ∈ number, IsMark c) : ∃ between, (∀ c ∈ between, isBlank c = true) ∧
      core raw ≠ [] ∧ splitUnit (core raw) = (number.map Char.toLower ++ between, u) := by
  obtain ⟨before, between, name, after, hbefore, hbetween, hname, hafter⟩ := h
  have hnumber := marks_not_blank hmarks
  have hnotBlank := hname.not_blank
  rw [core_ofList hbefore hafter]
  rcases hname with hname | ⟨rfl, rfl⟩
  · have hnamed : name ≠ [] := by
      rintro rfl
      exact ending_ne_nil u hname.symm
    rw [trimChars_named hne hnumber hnamed hnotBlank, List.map_append, List.map_append, hname]
    exact ⟨between.map Char.toLower, isBlank_map_toLower hbetween, by simp [hne],
      splitUnit_ending (getLast?_ne_m hmarks hbetween) u⟩
  · rw [List.append_nil, trimChars_append_blank hnumber hbetween]
    refine ⟨[], List.forall_mem_nil _, by simpa using hne, ?_⟩
    rw [List.append_nil]
    apply splitUnit_bare
    intro c hc
    obtain ⟨d, hd, rfl⟩ := List.mem_map.mp (List.mem_of_getLast? hc)
    exact not_last_of_isMark (hmarks d hd)

/-- What is read is the value of the number in the unit. -/
theorem parse_of_written {x : Binary64} (h : Written number u raw)
    (hx : ofNumeral (String.ofList number) = .ok x) : parse raw =
      if x.isNegative || !x.isFinite then .error (.notPositive raw) else .ok (scale x u) := by
  have hne : number ≠ [] := by
    rintro rfl
    cases hx
  have hmarks := Binary64.marks_of_ofNumeral hx
  obtain ⟨between, hbetween, hcore, hsplit⟩ := splitUnit_written h hne hmarks
  have hread : ofNumeral (String.ofList (trimChars (splitUnit (core raw)).1)) = .ok x := by
    rw [hsplit]
    show ofNumeral (String.ofList (trimChars (number.map Char.toLower ++ between))) = .ok x
    rw [trimChars_append_blank (isBlank_map_toLower (marks_not_blank hmarks)) hbetween]
    exact Binary64.ofNumeral_lower hx
  rw [parse_of_ok hcore hread, hsplit]

/-- Without a number a text that names a unit is no span. -/
theorem parse_of_no_number (h : Written [] u raw) : ∃ why, parse raw = .error why := by
  obtain ⟨before, between, name, after, hbefore, hbetween, hname, hafter⟩ := h
  have hnone : ∀ c ∈ ([] : List Char), isBlank c = true := List.forall_mem_nil _
  have hnamed := hname.not_blank
  rw [List.nil_append]
  rcases hname with hname | ⟨rfl, rfl⟩
  · have hcore : core (String.ofList (before ++ (between ++ name) ++ after)) = u.ending := by
      have htrim := trimChars_append hbetween hnone name
      have hself := trimChars_append_blank hnamed hnone
      rw [List.append_nil] at htrim hself
      rw [core_ofList hbefore hafter, htrim, hself, hname]
    have hsplit : splitUnit ([] ++ u.ending) = ([], u) := splitUnit_ending (by decide) u
    rw [List.nil_append] at hsplit
    refine ⟨.numeral _ .empty, parse_of_error (hcore ▸ ending_ne_nil u) ?_⟩
    rw [hcore, hsplit]
    rfl
  · refine ⟨_, parse_of_blank ?_⟩
    rw [String.toList_ofList, List.append_nil]
    exact List.forall_mem_append.mpr ⟨List.forall_mem_append.mpr ⟨hbefore, hbetween⟩, hafter⟩

/-! ## Natural numbers -/

theorem millis_lt (u : Unit) : u.millis < twoPow 53 := by
  cases u <;> decide

/-- A natural number of a unit is that many milliseconds. -/
theorem scale_natural {x : Binary64} {n : Nat} (hx : x.IsNatural n)
    (h : n * u.millis < twoPow 53) : scale x u = ⟨n * u.millis⟩ := by
  have hms : (if u = .milli then x else x.mul (.ofNat u.millis)).IsNatural (n * u.millis) := by
    split
    · rename_i hmilli
      rw [hmilli, Unit.millis, Nat.mul_one]
      exact hx
    · exact hx.mul (Binary64.isNatural_ofNat (millis_lt u)) h
  have hlimit : n * u.millis ≤ limit := Nat.le_trans (Nat.le_of_lt h) (by decide)
  rw [scale]
  generalize (if u = .milli then x else x.mul (.ofNat u.millis)) = ms at hms
  have hround := hms.roundNat_eq
  cases ms with
  | nan => cases hms.finite
  | infinite _ => cases hms.finite
  | finite a m s =>
    dsimp only
    rw [hround, Nat.min_eq_left hlimit]

theorem parse_digits {ds : List Char} (h : Written ds u raw) (hne : ds ≠ [])
    (hd : ∀ d ∈ ds, d.isDigit = true) (hlt : digitsValue ds * u.millis < twoPow 53) :
    parse raw = .ok ⟨digitsValue ds * u.millis⟩ := by
  have hpos : 0 < u.millis := by cases u <;> decide
  have hnatural := Binary64.isNatural_ofDecimal
    (Nat.lt_of_le_of_lt (Nat.le_mul_of_pos_right (digitsValue ds) hpos) hlt)
  rw [parse_of_written h (Binary64.ofNumeral_digits hd hne), hnatural.unsigned, hnatural.finite,
    scale_natural hnatural hlt]
  rfl

theorem parse_toString {n : Nat} {name : List Char} (hname : u.Names name)
    (hlt : n * u.millis < twoPow 53) :
    parse (toString n ++ String.ofList name) = .ok ⟨n * u.millis⟩ := by
  have hnone : ∀ c ∈ ([] : List Char), isBlank c = true := List.forall_mem_nil _
  have hwritten : Written (Nat.toDigits 10 n) u (toString n ++ String.ofList name) := by
    have htext : Written (Nat.toDigits 10 n) u _ := .text [] [] name [] hnone hnone hname hnone
    rwa [List.nil_append, List.append_nil, List.append_nil, String.ofList_append,
      ← Nat.toString_eq_ofList_toDigits] at htext
  rw [← Binary64.digitsValue_toDigits n] at hlt
  rw [parse_digits hwritten Nat.toDigits_ne_nil
    (fun d => Nat.isDigit_of_mem_toDigits (by decide) (by decide)) hlt,
    Binary64.digitsValue_toDigits]

/-- A text of digits and a unit is read as exactly that many times the unit, below 2^53
milliseconds, in any case of letters and with any blanks around; so a number of days is as much as
it comes to in each other unit, or as a bare number of seconds. What begins with a minus is refused
whatever follows, and so is a text without a number, one whose number is infinite or none, and a
blank one. -/
theorem parse_written :
    (∀ raw ds u, Written ds u raw → ds ≠ [] → (∀ d ∈ ds, d.isDigit = true) →
      digitsValue ds * u.millis < twoPow 53 → parse raw = .ok ⟨digitsValue ds * u.millis⟩) ∧
    (∀ n, n * 86400000 < twoPow 53 →
      ∀ raw ∈ [toString n ++ "d", toString (24 * n) ++ "h", toString (1440 * n) ++ "m",
        toString (86400 * n) ++ "s", toString (86400000 * n) ++ "ms", toString (86400 * n)],
      parse raw = .ok ⟨n * 86400000⟩) ∧
    (∀ before rest, (∀ c ∈ before, isBlank c = true) →
      ∃ why, parse (String.ofList (before ++ '-' :: rest)) = .error why) ∧
    (∀ raw number u, Written number u raw →
      (number = [] ∨ ∃ x, ofNumeral (String.ofList number) = .ok x ∧ x.isFinite = false) →
      ∃ why, parse raw = .error why) ∧
    (∀ raw, (∀ c ∈ raw.toList, isBlank c = true) → parse raw = .error .empty) := by
  refine ⟨fun _ _ _ => parse_digits, ?_, fun _ rest hbefore => parse_of_minus hbefore rest, ?_,
    fun _ => parse_of_blank⟩
  · intro n hlt
    have hunit (k : Nat) (u : Unit) (hk : k * u.millis = 86400000) (name : List Char)
        (hname : u.Names name) : parse (toString (k * n) ++ String.ofList name) =
          .ok ⟨n * 86400000⟩ := by
      have hmillis : k * n * u.millis = n * 86400000 := by
        rw [Nat.mul_right_comm, hk, Nat.mul_comm]
      rw [parse_toString hname (by rwa [hmillis]), hmillis]
    have hday := hunit 1 .day rfl ['d'] (.inl rfl)
    have hbare := hunit 86400 .second rfl [] (.inr ⟨rfl, rfl⟩)
    rw [Nat.one_mul] at hday
    rw [String.ofList_nil, String.append_empty] at hbare
    simp only [List.forall_mem_cons]
    exact ⟨hday, hunit 24 .hour rfl ['h'] (.inl rfl), hunit 1440 .minute rfl ['m'] (.inl rfl),
      hunit 86400 .second rfl ['s'] (.inl rfl), hunit 86400000 .milli rfl ['m', 's'] (.inl rfl),
      hbare, List.forall_mem_nil _⟩
  · rintro raw number u h (rfl | ⟨x, hx, hinfinite⟩)
    · exact parse_of_no_number h
    · rw [parse_of_written h hx, hinfinite, Bool.not_false, Bool.or_true]
      exact ⟨_, rfl⟩

/-- Five milliseconds are not taken for minutes, and what is no number is refused with any unit. -/
theorem five_parse_written :
    parse "\t05 mS\n" = .ok ⟨5⟩ ∧ parse "5M" = .ok ⟨300000⟩ ∧ parse "5" = .ok ⟨5000⟩ ∧
      (∃ why, parse " -05 ms" = .error why) ∧ (∃ why, parse "NaN d" = .error why) ∧
      parse " " = .error .empty := by
  obtain ⟨hdigits, -, hminus, hnumber, hblank⟩ := parse_written
  have hnone : ∀ c ∈ ([] : List Char), isBlank c = true := List.forall_mem_nil _
  have hspace : ∀ c ∈ [' '], isBlank c = true := List.forall_mem_singleton.mpr (by decide)
  have htab : ∀ c ∈ ['\t'], isBlank c = true := List.forall_mem_singleton.mpr (by decide)
  have hline : ∀ c ∈ ['\n'], isBlank c = true := List.forall_mem_singleton.mpr (by decide)
  have hfive : ∀ d ∈ ['5'], d.isDigit = true := List.forall_mem_singleton.mpr (by decide)
  have hzero : ∀ d ∈ ['0', '5'], d.isDigit = true := List.forall_mem_cons.mpr ⟨by decide, hfive⟩
  have hmilli : Written ['0', '5'] .milli "\t05 mS\n" :=
    .text ['\t'] [' '] ['m', 'S'] ['\n'] htab hspace (.inl rfl) hline
  have hminute : Written ['5'] .minute "5M" := .text [] [] ['M'] [] hnone hnone (.inl rfl) hnone
  have hsecond : Written ['5'] .second "5" := .text [] [] [] [] hnone hnone (.inr ⟨rfl, rfl⟩) hnone
  have hnan : Written ['N', 'a', 'N'] .day "NaN d" :=
    .text [] [' '] ['d'] [] hnone hspace (.inl rfl) hnone
  exact ⟨hdigits _ _ _ hmilli (by decide) hzero (by decide),
    hdigits _ _ _ hminute (by decide) hfive (by decide),
    hdigits _ _ _ hsecond (by decide) hfive (by decide),
    hminus [' '] "05 ms".toList hspace,
    hnumber _ _ _ hnan (.inr ⟨.nan, by decide +kernel, rfl⟩),
    hblank " " hspace⟩

end FaultDrill.Span
