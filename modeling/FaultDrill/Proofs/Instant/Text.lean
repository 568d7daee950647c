import FaultDrill.Instant.Text
import FaultDrill.Proofs.Binary64.Numeral
import FaultDrill.Proofs.Instant.Calendar
import FaultDrill.Proofs.Text.Blank
/-!
# Timestamps read back

Every instant of the calendar's range is read back from its text, in any year and inside a leap
second too (`parse?_document`). No text is read as any other instant (`representable_iff`).
-/
namespace FaultDrill.Instant
open Binary64 (digitsValue)

/-- Whether an instant has a timestamp: it lies in the range of dates, and where its nanoseconds run
past a whole second it lies in the last second of a minute. -/
def Representable (t : Instant) : Prop :=
  inRange t.seconds = true ∧
    (t.nanos < second ∨ t.nanos < 2 * second ∧ t.seconds % 60 = 59)

instance (t : Instant) : Decidable t.Representable := inferInstanceAs (Decidable (_ ∧ _))

/-! ## Digits -/

theorem isDigit_padded {width n : Nat} : ∀ c ∈ padded width n, c.isDigit = true := by
  intro c hc
  rcases List.mem_append.1 hc with hc | hc
  · rw [List.eq_of_mem_replicate hc]
    rfl
  · exact Nat.isDigit_of_mem_toDigits (by decide) (by decide) hc

theorem digitsValue_padded (width n : Nat) : digitsValue (padded width n) = n := by
  rw [Binary64.digitsValue_eq, padded, Nat.ofDigitChars_append, Nat.ofDigitChars_replicate_zero, Nat.mul_zero,
    Nat.ofDigitChars_ten_toDigits]

theorem padded_ne_nil (width n : Nat) : padded width n ≠ [] := by
  intro h
  exact Nat.toDigits_ne_nil (List.append_eq_nil_iff.1 h).2

theorem length_padded {width n : Nat} (hw : 0 < width) (hn : n < tenPow width) :
    (padded width n).length = width := by
  have hle := (Nat.length_toDigits_le_iff (b := 10) (by decide) hw).2 hn
  simp only [padded, List.length_append, List.length_replicate]
  omega

/-- Digits stand for a number below the power of ten of their count. -/
theorem digitsValue_lt {ds : List Char} (hd : ∀ c ∈ ds, c.isDigit = true) :
    digitsValue ds < tenPow ds.length := by
  -- over the digits, from any number that stands in front of them
  have hfold (n : Nat) : ds.foldl (fun n d => 10 * n + (d.toNat - '0'.toNat)) n <
      (n + 1) * tenPow ds.length := by
    induction ds generalizing n with
    | nil => simp [tenPow]
    | cons d ds ih =>
      have hdigit := Text.toNat_of_isDigit (hd d List.mem_cons_self)
      have hle : d.toNat - '0'.toNat ≤ 9 := by
        have h0 : '0'.toNat = 48 := rfl
        omega
      have hpow : tenPow (d :: ds).length = 10 * tenPow ds.length := by
        simp only [tenPow, List.length_cons, Nat.pow_eq, Nat.pow_succ, Nat.mul_comm]
      rw [List.foldl_cons, hpow]
      refine Nat.lt_of_lt_of_le (ih (fun c hc => hd c (List.mem_cons_of_mem d hc)) _) ?_
      rw [← Nat.mul_assoc]
      exact Nat.mul_le_mul_right _ (by omega)
  have hall := hfold 0
  rwa [Nat.zero_add, Nat.one_mul] at hall

theorem trimLeft_digits {ds : List Char} (hd : ∀ c ∈ ds, c.isDigit = true) (hne : ds ≠ [])
    (rest : List Char) : Text.trimLeft (ds ++ rest) = ds ++ rest := by
  rcases ds with _ | ⟨d, ds⟩
  · exact absurd rfl hne
  · exact Text.trimLeft_cons (Text.isBlank_of_isDigit (hd d List.mem_cons_self)) _

theorem takeWhile_digits {ds : List Char} (hd : ∀ c ∈ ds, c.isDigit = true) {c : Char}
    (hc : c.isDigit = false) (rest : List Char) :
    (ds ++ c :: rest).takeWhile Char.isDigit = ds := by
  rw [List.takeWhile_append_of_pos hd, List.takeWhile_cons_of_neg (by simp [hc]),
    List.append_nil]

/-- Digits that fill their place are read whatever follows. -/
theorem number?_padded {width n : Nat} (hw : 0 < width) (hn : n < tenPow width)
    (rest : List Char) : number? width (padded width n ++ rest) = some (n, rest) := by
  have hlen := length_padded hw hn
  have htake : (padded width n ++ rest).take width = padded width n := List.take_left' hlen
  have hwhile : (padded width n ++ []).takeWhile Char.isDigit =
      padded width n ++ [].takeWhile Char.isDigit := List.takeWhile_append_of_pos isDigit_padded
  rw [List.append_nil, List.takeWhile_nil, List.append_nil] at hwhile
  have hne : (padded width n).isEmpty = false := by simp [padded_ne_nil]
  simp only [number?, trimLeft_digits isDigit_padded (padded_ne_nil width n), htake, hwhile, hne,
    digitsValue_padded, List.drop_left, Bool.false_eq_true, if_false]

/-- A sign and digits up to something else are a year. -/
theorem signed_digits (n : Nat) {c : Char} (hc : c.isDigit = false) (rest : List Char) :
    year?.digits? (padded 4 n ++ c :: rest) = some (n, c :: rest) := by
  have hne : (padded 4 n).isEmpty = false := by simp [padded_ne_nil]
  simp only [year?.digits?, takeWhile_digits isDigit_padded hc, hne, digitsValue_padded,
    List.drop_left, Bool.false_eq_true, if_false]

/-! ## The parts of a timestamp -/

theorem year?_yearText (y : Int) (rest : List Char) :
    year? (yearText y ++ '-' :: rest) = some (y, '-' :: rest) := by
  unfold yearText
  split
  · rename_i hy
    have hdigits := @isDigit_padded 4 y.toNat
    have hread := @number?_padded 4 y.toNat (by decide)
      (by rw [show tenPow 4 = 10000 from rfl]; omega) ('-' :: rest)
    rw [year?, trimLeft_digits hdigits (padded_ne_nil 4 _)]
    rcases h : padded 4 y.toNat with _ | ⟨d, ds⟩
    · exact absurd h (padded_ne_nil 4 _)
    rw [h] at hdigits hread
    have hd := hdigits d List.mem_cons_self
    rw [List.cons_append] at hread ⊢
    split
    · rename_i heq
      cases heq
      cases hd
    · rename_i heq
      cases heq
      cases hd
    · rw [hread]
      simp only [Option.map_some, Int.toNat_of_nonneg hy.1]
  · rename_i hy
    have hsign := signed_digits y.natAbs (c := '-') rfl rest
    split
    · have hread : year? ('-' :: padded 4 y.natAbs ++ '-' :: rest) =
          (year?.digits? (padded 4 y.natAbs ++ '-' :: rest)).map fun p => (-(p.1 : Int), p.2) := rfl
      rw [hread, hsign]
      simp only [Option.map_some, Option.some.injEq, Prod.mk.injEq, and_true]
      omega
    · have hread : year? ('+' :: padded 4 y.natAbs ++ '-' :: rest) =
          (year?.digits? (padded 4 y.natAbs ++ '-' :: rest)).map fun p => ((p.1 : Int), p.2) := rfl
      rw [hread, hsign]
      simp only [Option.map_some, Option.some.injEq, Prod.mk.injEq, and_true]
      omega

theorem skip?_cons {c : Char} (hc : Text.isBlank c = false) (rest : List Char) :
    skip? c (c :: rest) = some rest := by
  rw [skip?, Text.trimLeft_cons hc]
  exact if_pos rfl

theorem fraction?_point {width n : Nat} (hw : 0 < width) (h9 : width ≤ 9)
    (hn : n < tenPow width) {c : Char} (hc : c.isDigit = false) (rest : List Char) :
    fraction? ('.' :: padded width n ++ c :: rest) =
      some (n * tenPow (9 - width), c :: rest) := by
  have hlen := length_padded hw hn
  have hne : (padded width n).isEmpty = false := by simp [padded_ne_nil]
  have htake : (padded width n).take 9 = padded width n := List.take_of_length_le (by omega)
  simp only [List.cons_append, fraction?, takeWhile_digits isDigit_padded hc, hne, htake,
    digitsValue_padded, hlen, List.drop_left' hlen, Bool.false_eq_true, if_false]

theorem fraction?_fractionText (t : Instant) :
    fraction? (t.fractionText ++ ['Z']) = some (t.nanos % second, ['Z']) := by
  have hlt : t.nanos % second < 1000000000 := Nat.mod_lt _ (by decide)
  have h3 : tenPow 3 = 1000 := rfl
  have h6 : tenPow 6 = 1000000 := rfl
  have h9 : tenPow 9 = 1000000000 := rfl
  have h0 : tenPow 0 = 1 := rfl
  simp only [fractionText]
  split
  · rename_i h
    rw [h]
    rfl
  split
  · rw [fraction?_point (by decide) (by decide) (by omega) rfl, h6]
    simp only [Option.some.injEq, Prod.mk.injEq, and_true]
    omega
  split
  · rw [fraction?_point (by decide) (by decide) (by omega) rfl, h3]
    simp only [Option.some.injEq, Prod.mk.injEq, and_true]
    omega
  · rw [fraction?_point (by decide) (by decide) (by omega) rfl, h0, Nat.mul_one]

/-! ## Timestamps -/

/-- The parts of a day and a time of day make the instant again. -/
theorem assemble_date {t : Instant} (ht : t.Representable) :
    assemble t.date (t.secondOfDay / 3600) (t.secondOfDay / 60 % 60)
      (t.secondOfDay % 60 + t.nanos / second) (t.nanos % second) 0 = some t := by
  obtain ⟨hrange, hnanos⟩ := ht
  have hday : Calendar.dayNumber t.date = t.seconds / 86400 := Calendar.dayNumber_dateOf _
  have hvalid : t.date.valid = true := Calendar.valid_dateOf _
  have hof : (t.secondOfDay : Int) = t.seconds % 86400 := by
    unfold secondOfDay
    omega
  simp only [second] at hnanos ⊢
  -- the second is the sixtieth in a leap second only, and then one is counted twice
  have hleap : t.secondOfDay % 60 + t.nanos / 1000000000 = 60 ∧ 1000000000 ≤ t.nanos ∨
      t.secondOfDay % 60 + t.nanos / 1000000000 = t.secondOfDay % 60 ∧
        t.nanos < 1000000000 := by
    omega
  have hlocal : Calendar.dayNumber t.date * 86400 + ((t.secondOfDay / 3600 * 3600 +
      t.secondOfDay / 60 % 60 * 60 + min (t.secondOfDay % 60 + t.nanos / 1000000000) 59 : Nat) :
        Int) = t.seconds := by
    rw [hday]
    omega
  have hvalid' : (t.date.valid && t.secondOfDay / 3600 ≤ 23 && t.secondOfDay / 60 % 60 ≤ 59 &&
      t.secondOfDay % 60 + t.nanos / 1000000000 ≤ 60) = true := by
    simp only [hvalid, Bool.true_and, Bool.and_eq_true, decide_eq_true_eq]
    omega
  simp only [assemble, if_pos hvalid', hlocal, Int.sub_zero, hrange, Bool.and_self, if_true]
  rcases hleap with ⟨h60, hn⟩ | ⟨hs, hn⟩
  · rw [h60, if_pos rfl]
    have hmod : t.nanos % 1000000000 + 1000000000 = t.nanos := by omega
    rw [second, hmod]
  · rw [hs, if_neg (by omega), Nat.mod_eq_of_lt hn]

theorem toList_document (t : Instant) : t.document.toList =
    yearText t.date.year ++ '-' :: (padded 2 t.date.month ++ '-' :: (padded 2 t.date.day ++
      'T' :: (padded 2 (t.secondOfDay / 3600) ++ ':' :: (padded 2 (t.secondOfDay / 60 % 60) ++
        ':' :: (padded 2 (t.secondOfDay % 60 + t.nanos / second) ++
          (t.fractionText ++ ['Z'])))))) := by
  simp [document, stamp, dateText, timeText]

theorem secondOfDay_lt (t : Instant) : t.secondOfDay < 86400 := by
  unfold secondOfDay
  omega

theorem day_lt (t : Instant) : t.date.month < 100 ∧ t.date.day < 100 := by
  have hvalid : t.date.valid = true := Calendar.valid_dateOf _
  simp only [Calendar.Date.valid, Bool.and_eq_true, decide_eq_true_eq] at hvalid
  have hle : Calendar.monthLength t.date.year t.date.month ≤ 31 := by
    unfold Calendar.monthLength
    repeat' split
    all_goals omega
  omega

theorem bind_of_eq_some {α β : Type} {o : Option α} {a : α} (h : o = some a) (f : α → Option β) :
    (o >>= f) = f a := by
  rw [h]
  rfl

/-- A timestamp is read back. -/
theorem parse?_document {t : Instant} (ht : t.Representable) : parse? t.document = some t := by
  have h2 : tenPow 2 = 100 := rfl
  have hday := secondOfDay_lt t
  have hleap : t.nanos / second ≤ 1 := by
    rcases ht.2 with h | ⟨h, -⟩ <;> simp only [second] at h ⊢ <;> omega
  rw [parse?, toList_document]
  refine (bind_of_eq_some (year?_yearText _ _) _).trans ?_
  refine (bind_of_eq_some (skip?_cons rfl _) _).trans ?_
  refine (bind_of_eq_some (number?_padded (by decide) (h2 ▸ (day_lt t).1) _) _).trans ?_
  refine (bind_of_eq_some (skip?_cons rfl _) _).trans ?_
  refine (bind_of_eq_some (number?_padded (by decide) (h2 ▸ (day_lt t).2) _) _).trans ?_
  refine (bind_of_eq_some rfl _).trans ?_
  refine (bind_of_eq_some (number?_padded (by decide) (by omega) _) _).trans ?_
  refine (bind_of_eq_some (skip?_cons rfl _) _).trans ?_
  refine (bind_of_eq_some (number?_padded (by decide) (by omega) _) _).trans ?_
  refine (bind_of_eq_some (skip?_cons rfl _) _).trans ?_
  refine (bind_of_eq_some (number?_padded (by decide) (by omega) _) _).trans ?_
  refine (bind_of_eq_some (fraction?_fractionText t) _).trans ?_
  exact assemble_date ht

/-! ## Which instants have a timestamp -/

theorem fraction?_lt {cs : List Char} {n : Nat} {r : List Char} (h : fraction? cs = some (n, r)) :
    n < second := by
  unfold fraction? at h
  split at h
  · rename_i rest
    dsimp only at h
    split at h
    · cases h
    · cases h
      generalize hkept : (rest.takeWhile Char.isDigit).take 9 = kept
      have hlen : kept.length ≤ 9 := by
        rw [← hkept, List.length_take]
        omega
      have hvalue : digitsValue kept < tenPow kept.length := by
        apply digitsValue_lt
        intro c hc
        rw [← hkept] at hc
        exact List.all_eq_true.1 List.all_takeWhile c (List.mem_of_mem_take hc)
      calc digitsValue kept * tenPow (9 - kept.length)
          < tenPow kept.length * tenPow (9 - kept.length) :=
            Nat.mul_lt_mul_of_pos_right hvalue (Nat.pow_pos (by decide))
        _ = tenPow 9 := by
            simp only [tenPow, Nat.pow_eq, ← Nat.pow_add]
            congr 1
            omega
  · cases h
    decide

/-- Offsets are whole minutes. -/
theorem amount_emod {sign off : Int} {cs r : List Char}
    (h : offset?.amount sign cs = some (off, r)) : off % 60 = 0 := by
  unfold offset?.amount at h
  obtain ⟨⟨hours, r₁⟩, -, h⟩ := Option.bind_eq_some_iff.1 h
  obtain ⟨⟨minutes, r₂⟩, -, h⟩ := Option.bind_eq_some_iff.1 h
  dsimp only at h
  split at h
  · cases h
  · cases h
    have hsixty : ((hours * 3600 + minutes * 60 : Nat) : Int) =
        60 * (hours * 60 + minutes : Nat) := by
      omega
    rw [hsixty, Int.mul_left_comm]
    exact Int.mul_emod_right _ _

theorem offset?_emod {cs r : List Char} {off : Int} (h : offset? cs = some (off, r)) :
    off % 60 = 0 := by
  unfold offset? at h
  split at h
  · cases h; rfl
  · cases h; rfl
  · exact amount_emod h
  · exact amount_emod h
  · exact amount_emod h
  · split at h
    · cases h; rfl
    · cases h
  · cases h

theorem representable_of_assemble {d : Calendar.Date} {h m s n : Nat} {off : Int} {t : Instant}
    (hn : n < second) (hoff : off % 60 = 0) (ht : assemble d h m s n off = some t) :
    t.Representable := by
  unfold assemble at ht
  split at ht
  · dsimp only at ht
    split at ht
    · rename_i hrange
      cases ht
      rw [Bool.and_eq_true] at hrange
      refine ⟨hrange.2, ?_⟩
      by_cases hs : s = 60
      · -- the second that is counted twice is the last one of its minute in every offset
        right
        simp only [hs, if_true]
        omega
      · left
        simpa only [if_neg hs] using hn
    · cases ht
  · cases ht

theorem representable_of_parse? {text : String} {t : Instant} (h : parse? text = some t) :
    t.Representable := by
  unfold parse? at h
  obtain ⟨⟨y, r₁⟩, -, h⟩ := Option.bind_eq_some_iff.1 h
  obtain ⟨r₂, -, h⟩ := Option.bind_eq_some_iff.1 h
  obtain ⟨⟨mo, r₃⟩, -, h⟩ := Option.bind_eq_some_iff.1 h
  obtain ⟨r₄, -, h⟩ := Option.bind_eq_some_iff.1 h
  obtain ⟨⟨d, r₅⟩, -, h⟩ := Option.bind_eq_some_iff.1 h
  dsimp only at h
  split at h
  case h_1 => cases h
  split at h
  case isFalse => cases h
  obtain ⟨r₆, -, h⟩ := Option.bind_eq_some_iff.1 h
  obtain ⟨⟨hour, r₇⟩, -, h⟩ := Option.bind_eq_some_iff.1 h
  obtain ⟨r₈, -, h⟩ := Option.bind_eq_some_iff.1 h
  obtain ⟨⟨mi, r₉⟩, -, h⟩ := Option.bind_eq_some_iff.1 h
  obtain ⟨r₁₀, -, h⟩ := Option.bind_eq_some_iff.1 h
  obtain ⟨⟨s, r₁₁⟩, -, h⟩ := Option.bind_eq_some_iff.1 h
  obtain ⟨⟨n, r₁₂⟩, hfraction, h⟩ := Option.bind_eq_some_iff.1 h
  obtain ⟨⟨off, r₁₃⟩, hoffset, h⟩ := Option.bind_eq_some_iff.1 h
  dsimp only at h
  split at h
  · exact representable_of_assemble (fraction?_lt hfraction) (offset?_emod hoffset) h
  · cases h

/-- The instants that have a timestamp are those that some text is read as. -/
theorem representable_iff {t : Instant} : t.Representable ↔ ∃ text, parse? text = some t :=
  ⟨fun h => ⟨_, parse?_document h⟩, fun ⟨_, h⟩ => representable_of_parse? h⟩

end FaultDrill.Instant
