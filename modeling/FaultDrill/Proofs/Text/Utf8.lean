import FaultDrill.Text.Utf8
/-!
# UTF-8 in both directions

Bytes are the text of some characters exactly when they are the encoding of these characters
(`decode?_eq_some_iff`). The bytes of a character from U+0080 on are all above 0x7F, so an ASCII
byte always stands for itself.
-/
namespace FaultDrill.Text.Utf8

theorem toNat_toUInt8 {n : Nat} (h : n < 256) : n.toUInt8.toNat = n := by
  simp only [Nat.toUInt8, UInt8.toNat_ofNat']
  omega

theorem isTail_iff {b : UInt8} : isTail b = true ↔ 0x80 ≤ b.toNat ∧ b.toNat ≤ 0xBF := by
  simp [isTail, UInt8.le_iff_toNat_le]

/-- The second bytes of characters of three and four bytes, by their numbers. -/
theorem secondOk_iff {lead second : UInt8} : secondOk lead second = true ↔
    0x80 ≤ second.toNat ∧ second.toNat ≤ 0xBF ∧ (lead.toNat = 0xE0 → 0xA0 ≤ second.toNat) ∧
      (lead.toNat = 0xED → second.toNat ≤ 0x9F) ∧ (lead.toNat = 0xF0 → 0x90 ≤ second.toNat) ∧
      (lead.toNat = 0xF4 → second.toNat ≤ 0x8F) := by
  simp only [secondOk, ← UInt8.toNat_inj, isTail]
  -- four leads have a range of their own
  split
  · simp [UInt8.le_iff_toNat_le] at *
    omega
  · split
    · simp [UInt8.le_iff_toNat_le] at *
      omega
    · split
      · simp [UInt8.le_iff_toNat_le] at *
        omega
      · split <;> simp [UInt8.le_iff_toNat_le] at * <;> omega

theorem toNat_valid (c : Char) :
    c.toNat < 0xD800 ∨ 0xDFFF < c.toNat ∧ c.toNat < 0x110000 := c.valid

theorem toNat_ofNat {n : Nat} (h : n < 0xD800 ∨ 0xDFFF < n ∧ n < 0x110000) :
    (Char.ofNat n).toNat = n := by
  have hv : n.isValidChar := h
  rw [Char.ofNat, dif_pos hv]
  rfl

/-! ## One character -/

theorem encodeChar_one {c : Char} (h : c.toNat < 0x80) : encodeChar c = [c.toNat.toUInt8] := by
  simp only [encodeChar, if_pos h]

theorem encodeChar_two {c : Char} (h1 : ¬ c.toNat < 0x80) (h2 : c.toNat < 0x800) :
    encodeChar c = [(0xC0 + c.toNat / 64).toUInt8, (0x80 + c.toNat % 64).toUInt8] := by
  simp only [encodeChar, if_neg h1, if_pos h2]

theorem encodeChar_three {c : Char} (h1 : ¬ c.toNat < 0x80) (h2 : ¬ c.toNat < 0x800)
    (h3 : c.toNat < 0x10000) :
    encodeChar c = [(0xE0 + c.toNat / 4096).toUInt8, (0x80 + c.toNat / 64 % 64).toUInt8,
      (0x80 + c.toNat % 64).toUInt8] := by
  simp only [encodeChar, if_neg h1, if_neg h2, if_pos h3]

theorem encodeChar_four {c : Char} (h1 : ¬ c.toNat < 0x80) (h2 : ¬ c.toNat < 0x800)
    (h3 : ¬ c.toNat < 0x10000) :
    encodeChar c = [(0xF0 + c.toNat / 262144).toUInt8, (0x80 + c.toNat / 4096 % 64).toUInt8,
      (0x80 + c.toNat / 64 % 64).toUInt8, (0x80 + c.toNat % 64).toUInt8] := by
  simp only [encodeChar, if_neg h1, if_neg h2, if_neg h3]

theorem step_one {lead : UInt8} (h : lead.toNat < 0x80) (rest : List UInt8) :
    step lead rest = .char (Char.ofNat lead.toNat) rest := by
  simp [step, UInt8.lt_iff_toNat_lt, h]

theorem step_two {lead b : UInt8} (h1 : 0xC2 ≤ lead.toNat) (h2 : lead.toNat ≤ 0xDF)
    (hb : isTail b = true) (rest : List UInt8) :
    step lead (b :: rest) = .char (Char.ofNat ((lead.toNat - 0xC0) * 64 + payload b)) rest := by
  have h0 : ¬ lead.toNat < 0x80 := by omega
  simp [step, UInt8.lt_iff_toNat_lt, UInt8.le_iff_toNat_le, h0, h1, h2, hb]

theorem step_three {lead b c : UInt8} (h1 : 0xE0 ≤ lead.toNat) (h2 : lead.toNat ≤ 0xEF)
    (hb : secondOk lead b = true) (hc : isTail c = true) (rest : List UInt8) :
    step lead (b :: c :: rest) =
      .char (Char.ofNat (((lead.toNat - 0xE0) * 64 + payload b) * 64 + payload c)) rest := by
  have h0 : ¬ lead.toNat < 0x80 := by omega
  have h3 : ¬ lead.toNat ≤ 0xDF := by omega
  simp [step, UInt8.lt_iff_toNat_lt, UInt8.le_iff_toNat_le, h0, h1, h2, h3, hb, hc]

theorem step_four {lead b c d : UInt8} (h1 : 0xF0 ≤ lead.toNat) (h2 : lead.toNat ≤ 0xF4)
    (hb : secondOk lead b = true) (hc : isTail c = true) (hd : isTail d = true)
    (rest : List UInt8) :
    step lead (b :: c :: d :: rest) = .char (Char.ofNat
      ((((lead.toNat - 0xF0) * 64 + payload b) * 64 + payload c) * 64 + payload d)) rest := by
  have h0 : ¬ lead.toNat < 0x80 := by omega
  have h3 : ¬ lead.toNat ≤ 0xDF := by omega
  have h4 : ¬ lead.toNat ≤ 0xEF := by omega
  simp [step, UInt8.lt_iff_toNat_lt, UInt8.le_iff_toNat_le, h0, h1, h2, h3, h4, hb, hc, hd]

theorem payload_toUInt8 {n : Nat} (h : n < 64) : payload (0x80 + n).toUInt8 = n := by
  have hn := toNat_toUInt8 (n := 0x80 + n) (by omega)
  unfold payload
  omega

theorem isTail_toUInt8 {n : Nat} (h : n < 64) : isTail (0x80 + n).toUInt8 = true := by
  have hn := toNat_toUInt8 (n := 0x80 + n) (by omega)
  rw [isTail_iff]
  omega

/-- The bytes of a character are read back as the character. -/
theorem step_encodeChar (c : Char) :
    ∃ lead tail, encodeChar c = lead :: tail ∧
      ∀ rest, step lead (tail ++ rest) = .char c rest := by
  have hvalid := toNat_valid c
  by_cases h1 : c.toNat < 0x80
  · rw [encodeChar_one h1]
    refine ⟨_, _, rfl, ?_⟩
    intro rest
    have hl := toNat_toUInt8 (n := c.toNat) (by omega)
    rw [List.nil_append, step_one (by omega), hl, Char.ofNat_toNat]
  by_cases h2 : c.toNat < 0x800
  · rw [encodeChar_two h1 h2]
    refine ⟨_, _, rfl, ?_⟩
    intro rest
    have hl := toNat_toUInt8 (n := 0xC0 + c.toNat / 64) (by omega)
    have hb := payload_toUInt8 (n := c.toNat % 64) (by omega)
    rw [List.singleton_append, step_two (by omega) (by omega) (isTail_toUInt8 (by omega))]
    rw [show ((0xC0 + c.toNat / 64).toUInt8.toNat - 0xC0) * 64 +
      payload (0x80 + c.toNat % 64).toUInt8 = c.toNat by omega, Char.ofNat_toNat]
  by_cases h3 : c.toNat < 0x10000
  · -- no surrogate and no longer form than needed: this is what the range of the second byte says
    rw [encodeChar_three h1 h2 h3]
    refine ⟨_, _, rfl, ?_⟩
    intro rest
    have hl := toNat_toUInt8 (n := 0xE0 + c.toNat / 4096) (by omega)
    have hb := payload_toUInt8 (n := c.toNat / 64 % 64) (by omega)
    have hb' := toNat_toUInt8 (n := 0x80 + c.toNat / 64 % 64) (by omega)
    have hc := payload_toUInt8 (n := c.toNat % 64) (by omega)
    simp only [List.cons_append, List.nil_append]
    rw [step_three (by omega) (by omega) (by rw [secondOk_iff]; omega)
      (isTail_toUInt8 (by omega))]
    rw [show (((0xE0 + c.toNat / 4096).toUInt8.toNat - 0xE0) * 64 +
      payload (0x80 + c.toNat / 64 % 64).toUInt8) * 64 + payload (0x80 + c.toNat % 64).toUInt8 =
        c.toNat by omega, Char.ofNat_toNat]
  · rw [encodeChar_four h1 h2 h3]
    refine ⟨_, _, rfl, ?_⟩
    intro rest
    have hl := toNat_toUInt8 (n := 0xF0 + c.toNat / 262144) (by omega)
    have hb := payload_toUInt8 (n := c.toNat / 4096 % 64) (by omega)
    have hb' := toNat_toUInt8 (n := 0x80 + c.toNat / 4096 % 64) (by omega)
    have hc := payload_toUInt8 (n := c.toNat / 64 % 64) (by omega)
    have hd := payload_toUInt8 (n := c.toNat % 64) (by omega)
    simp only [List.cons_append, List.nil_append]
    rw [step_four (by omega) (by omega) (by rw [secondOk_iff]; omega)
      (isTail_toUInt8 (by omega)) (isTail_toUInt8 (by omega))]
    rw [show ((((0xF0 + c.toNat / 262144).toUInt8.toNat - 0xF0) * 64 +
      payload (0x80 + c.toNat / 4096 % 64).toUInt8) * 64 +
        payload (0x80 + c.toNat / 64 % 64).toUInt8) * 64 + payload (0x80 + c.toNat % 64).toUInt8 =
          c.toNat by omega, Char.ofNat_toNat]

/-- A byte is what its number makes. -/
theorem eq_toUInt8 {b : UInt8} {n : Nat} (h : b.toNat = n) : b = n.toUInt8 := by
  rw [← UInt8.toNat_inj, toNat_toUInt8 (h ▸ UInt8.toNat_lt b), h]

/-- A character is read from its own bytes only. -/
theorem eq_encodeChar_of_step {lead : UInt8} {rest rest' : List UInt8} {c : Char}
    (h : step lead rest = .char c rest') : lead :: rest = encodeChar c ++ rest' := by
  unfold step at h
  repeat' split at h
  -- a character came out on four ways only, one for each length
  all_goals try (simp at h; done)
  all_goals
    simp only [UInt8.lt_iff_toNat_lt, UInt8.le_iff_toNat_le, Bool.and_eq_true, decide_eq_true_eq,
      secondOk_iff, isTail_iff, Front.char.injEq, UInt8.reduceToNat] at *
    obtain ⟨rfl, rfl⟩ := h
  · have hc := toNat_ofNat (n := lead.toNat) (by omega)
    rw [encodeChar_one (by omega), hc, ← eq_toUInt8 rfl]
    rfl
  · rename_i b _ _ _ _
    have hc := toNat_ofNat (n := (lead.toNat - 0xC0) * 64 + payload b) (by unfold payload; omega)
    have hp : payload b = b.toNat - 0x80 := rfl
    rw [encodeChar_two (by omega) (by omega), hc, ← eq_toUInt8 (b := lead) (by omega),
      ← eq_toUInt8 (b := b) (by omega)]
    rfl
  · rename_i b _ c _ _ _ _ _ _
    have hc := toNat_ofNat (n := ((lead.toNat - 0xE0) * 64 + payload b) * 64 + payload c)
      (by unfold payload; omega)
    have hp : payload b = b.toNat - 0x80 := rfl
    have hq : payload c = c.toNat - 0x80 := rfl
    rw [encodeChar_three (by omega) (by omega) (by omega), hc, ← eq_toUInt8 (b := lead) (by omega),
      ← eq_toUInt8 (b := b) (by omega), ← eq_toUInt8 (b := c) (by omega)]
    rfl
  · rename_i b _ c _ d _ _ _ _ _ _ _ _
    have hc := toNat_ofNat (n := (((lead.toNat - 0xF0) * 64 + payload b) * 64 + payload c) * 64 +
      payload d) (by unfold payload; omega)
    have hp : payload b = b.toNat - 0x80 := rfl
    have hq : payload c = c.toNat - 0x80 := rfl
    have hr : payload d = d.toNat - 0x80 := rfl
    rw [encodeChar_four (by omega) (by omega) (by omega), hc, ← eq_toUInt8 (b := lead) (by omega),
      ← eq_toUInt8 (b := b) (by omega), ← eq_toUInt8 (b := c) (by omega),
      ← eq_toUInt8 (b := d) (by omega)]
    rfl

/-! ## Texts -/

@[simp]
theorem encode_nil : encode [] = [] := rfl

theorem encode_cons (c : Char) (cs : List Char) : encode (c :: cs) = encodeChar c ++ encode cs :=
  rfl

theorem encode_append (cs ds : List Char) : encode (cs ++ ds) = encode cs ++ encode ds :=
  List.flatMap_append

theorem decode?_encodeChar_append (c : Char) (bs : List UInt8) :
    decode? (encodeChar c ++ bs) = (decode? bs).map (c :: ·) := by
  obtain ⟨lead, tail, hc, hstep⟩ := step_encodeChar c
  rw [hc, List.cons_append, decode?.eq_def]
  simp only
  split
  · rename_i c' rest h
    rw [hstep] at h
    simp only [Front.char.injEq] at h
    rw [h.1, h.2]
  · rename_i rest h
    rw [hstep] at h
    cases h

theorem decode?_encode_append (cs : List Char) (bs : List UInt8) :
    decode? (encode cs ++ bs) = (decode? bs).map (cs ++ ·) := by
  induction cs with
  | nil => simp
  | cons c cs ih =>
    rw [encode_cons, List.append_assoc, decode?_encodeChar_append, ih, Option.map_map]
    rfl

theorem decode?_encode (cs : List Char) : decode? (encode cs) = some cs := by
  have h := decode?_encode_append cs []
  rw [List.append_nil] at h
  rw [h]
  simp [decode?]

theorem eq_encode_of_decode? {bs : List UInt8} {cs : List Char} (h : decode? bs = some cs) :
    bs = encode cs := by
  fun_induction decode? bs generalizing cs with
  | case1 =>
    cases h
    rfl
  | case2 lead rest c rest' hstep ih =>
    obtain ⟨cs', hcs, rfl⟩ := Option.map_eq_some_iff.1 h
    rw [eq_encodeChar_of_step hstep, encode_cons, ← ih hcs]
  | case3 => cases h

/-- The bytes of a text, and no others, are read as the text. -/
theorem decode?_eq_some_iff {bs : List UInt8} {cs : List Char} :
    decode? bs = some cs ↔ bs = encode cs := by
  constructor
  · exact eq_encode_of_decode?
  · intro h
    rw [h, decode?_encode]

theorem encode_inj {cs ds : List Char} (h : encode cs = encode ds) : cs = ds := by
  have hcs := decode?_encode cs
  rw [h, decode?_encode] at hcs
  exact (Option.some.inj hcs).symm

theorem encode_prefix_iff {cs ds : List Char} : encode ds <+: encode cs ↔ ds <+: cs := by
  constructor
  · rintro ⟨bs, hbs⟩
    have hcs := decode?_encode cs
    rw [← hbs, decode?_encode_append] at hcs
    obtain ⟨es, -, hes⟩ := Option.map_eq_some_iff.1 hcs
    exact ⟨es, hes⟩
  · rintro ⟨es, rfl⟩
    rw [encode_append]
    exact List.prefix_append ..

/-! ## ASCII bytes -/

theorem encodeChar_of_mem {b : UInt8} {c : Char} (hb : b ∈ encodeChar c) (hlt : b.toNat < 0x80) :
    c.toNat = b.toNat ∧ encodeChar c = [b] := by
  have hvalid := toNat_valid c
  by_cases h1 : c.toNat < 0x80
  · rw [encodeChar_one h1, List.mem_singleton] at hb
    have hc := toNat_toUInt8 (n := c.toNat) (by omega)
    rw [encodeChar_one h1, hb, hc]
    exact ⟨rfl, rfl⟩
  -- every byte of a longer character is at least 0x80
  exfalso
  by_cases h2 : c.toNat < 0x800
  · rw [encodeChar_two h1 h2] at hb
    simp only [List.mem_cons, List.not_mem_nil, or_false] at hb
    rcases hb with rfl | rfl <;> rw [toNat_toUInt8 (by omega)] at hlt <;> omega
  by_cases h3 : c.toNat < 0x10000
  · rw [encodeChar_three h1 h2 h3] at hb
    simp only [List.mem_cons, List.not_mem_nil, or_false] at hb
    rcases hb with rfl | rfl | rfl <;> rw [toNat_toUInt8 (by omega)] at hlt <;> omega
  · rw [encodeChar_four h1 h2 h3] at hb
    simp only [List.mem_cons, List.not_mem_nil, or_false] at hb
    rcases hb with rfl | rfl | rfl | rfl <;> rw [toNat_toUInt8 (by omega)] at hlt <;> omega

/-- An ASCII byte among the bytes of a text is a character of it. -/
theorem mem_of_mem_encode {b : UInt8} {c : Char} {cs : List Char} (hb : b ∈ encode cs)
    (hc : c.toNat = b.toNat) (hlt : b.toNat < 0x80) : c ∈ cs := by
  obtain ⟨d, hd, hbd⟩ := List.mem_flatMap.1 hb
  have hdc := (encodeChar_of_mem hbd hlt).1
  rwa [← Char.ofNat_toNat c, hc, ← hdc, Char.ofNat_toNat]

theorem encode_eq_nil_iff {cs : List Char} : encode cs = [] ↔ cs = [] := by
  constructor
  · intro h
    exact encode_inj h
  · rintro rfl
    rfl

/-- A text that ends in an ASCII byte ends in its character. -/
theorem eq_concat_of_encode {bs : List UInt8} {b : UInt8} {c : Char} {cs : List Char}
    (h : encode cs = bs ++ [b]) (hc : c.toNat = b.toNat) (hlt : b.toNat < 0x80) :
    ∃ ds, cs = ds ++ [c] ∧ bs = encode ds := by
  rcases List.eq_nil_or_concat cs with rfl | ⟨ds, d, rfl⟩
  · simp at h
  · rw [List.concat_eq_append] at h ⊢
    rw [encode_append, encode_cons, encode_nil, List.append_nil] at h
    have hne : encodeChar d ≠ [] := by
      obtain ⟨lead, tail, hd, -⟩ := step_encodeChar d
      simp [hd]
    have hlast : b ∈ encodeChar d := by
      have hl := congrArg List.getLast? h
      rw [List.getLast?_append, List.getLast?_eq_some_getLast hne, List.getLast?_concat,
        Option.some_or, Option.some.injEq] at hl
      rw [← hl]
      exact List.getLast_mem hne
    -- only the character of an ASCII byte holds this byte, and it holds nothing else
    obtain ⟨hd, hbytes⟩ := encodeChar_of_mem hlast hlt
    rw [hbytes] at h
    refine ⟨ds, ?_, (List.append_inj_left' h rfl).symm⟩
    rw [← Char.ofNat_toNat d, hd, ← hc, Char.ofNat_toNat]

/-! ## Strings -/

@[simp]
theorem string?_bytes (s : String) : string? (bytes s) = some s := by
  simp [string?, bytes, decode?_encode]

end FaultDrill.Text.Utf8
