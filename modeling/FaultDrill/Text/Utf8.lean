/-!
# Bytes and text

Text is stored as UTF-8. `decode?` reads bytes that are well formed throughout; `decodeLossy` reads
any bytes and puts one replacement character for each longest run of bytes that starts a character
and does not finish it. Both read one character at a time through `step`.
-/
namespace FaultDrill.Text.Utf8

/-- What stands at the front of a byte sequence. -/
inductive Front where
  /-- A complete character and what follows it. -/
  | char (c : Char) (rest : List UInt8)
  /-- Bytes that begin no character, and what follows the longest run that could have begun one. -/
  | broken (rest : List UInt8)

/-- Whether a byte continues a character. -/
def isTail (b : UInt8) : Bool := 0x80 ≤ b && b ≤ 0xBF

/-- The six low bits of a continuation byte. -/
def payload (b : UInt8) : Nat := b.toNat - 0x80

/-- Whether `second` may follow the lead byte `lead` of a character of three or four bytes. The
narrower ranges exclude overlong forms, surrogates and values above U+10FFFF. -/
def secondOk (lead second : UInt8) : Bool :=
  if lead = 0xE0 then 0xA0 ≤ second && second ≤ 0xBF
  else if lead = 0xED then 0x80 ≤ second && second ≤ 0x9F
  else if lead = 0xF0 then 0x90 ≤ second && second ≤ 0xBF
  else if lead = 0xF4 then 0x80 ≤ second && second ≤ 0x8F
  else isTail second

/-- The front of `lead :: rest`. -/
def step (lead : UInt8) (rest : List UInt8) : Front :=
  if lead < 0x80 then .char (Char.ofNat lead.toNat) rest
  else if 0xC2 ≤ lead && lead ≤ 0xDF then
    match rest with
    | b :: rest' =>
      if isTail b then .char (Char.ofNat ((lead.toNat - 0xC0) * 64 + payload b)) rest'
      else .broken rest
    | [] => .broken []
  else if 0xE0 ≤ lead && lead ≤ 0xEF then
    match rest with
    | b :: rest' =>
      if secondOk lead b then
        match rest' with
        | c :: rest'' =>
          if isTail c then
            .char (Char.ofNat (((lead.toNat - 0xE0) * 64 + payload b) * 64 + payload c)) rest''
          else .broken rest'
        | [] => .broken []
      else .broken rest
    | [] => .broken []
  else if 0xF0 ≤ lead && lead ≤ 0xF4 then
    match rest with
    | b :: rest' =>
      if secondOk lead b then
        match rest' with
        | c :: rest'' =>
          if isTail c then
            match rest'' with
            | d :: rest''' =>
              if isTail d then
                .char (Char.ofNat ((((lead.toNat - 0xF0) * 64 + payload b) * 64 + payload c) * 64
                  + payload d)) rest'''
              else .broken rest''
            | [] => .broken []
          else .broken rest'
        | [] => .broken []
      else .broken rest
    | [] => .broken []
  else .broken rest

/-- What `step` leaves. -/
def Front.rest : Front → List UInt8
  | .char _ rest => rest
  | .broken rest => rest

/-- A step never gives bytes back. -/
theorem length_rest_step (lead : UInt8) (rest : List UInt8) :
    (step lead rest).rest.length ≤ rest.length := by
  unfold step
  repeat' split
  all_goals simp [Front.rest]
  all_goals omega

/-- The text of bytes that are well-formed UTF-8, and nothing for any others. -/
def decode? : List UInt8 → Option (List Char)
  | [] => some []
  | lead :: rest =>
    match _h : step lead rest with
    | .char c rest' => (decode? rest').map (c :: ·)
    | .broken _ => none
termination_by bytes => bytes.length
decreasing_by
  have := length_rest_step lead rest
  rw [_h] at this
  simp only [Front.rest, List.length_cons] at *
  omega

/-- The text of any bytes, with U+FFFD where they are not well formed. -/
def decodeLossy : List UInt8 → List Char
  | [] => []
  | lead :: rest =>
    match _h : step lead rest with
    | .char c rest' => c :: decodeLossy rest'
    | .broken rest' => Char.ofNat 0xFFFD :: decodeLossy rest'
termination_by bytes => bytes.length
decreasing_by
  all_goals
    have := length_rest_step lead rest
    rw [_h] at this
    simp only [Front.rest, List.length_cons] at *
    omega

/-- The UTF-8 bytes of one character. -/
def encodeChar (c : Char) : List UInt8 :=
  let n := c.toNat
  if n < 0x80 then [n.toUInt8]
  else if n < 0x800 then [(0xC0 + n / 64).toUInt8, (0x80 + n % 64).toUInt8]
  else if n < 0x10000 then
    [(0xE0 + n / 4096).toUInt8, (0x80 + n / 64 % 64).toUInt8, (0x80 + n % 64).toUInt8]
  else
    [(0xF0 + n / 262144).toUInt8, (0x80 + n / 4096 % 64).toUInt8, (0x80 + n / 64 % 64).toUInt8,
      (0x80 + n % 64).toUInt8]

/-- The UTF-8 bytes of a text. -/
def encode (cs : List Char) : List UInt8 := cs.flatMap encodeChar

/-- The UTF-8 bytes of a string. -/
def bytes (s : String) : List UInt8 := encode s.toList

/-- `decode?` as a string. -/
def string? (bs : List UInt8) : Option String := (decode? bs).map String.ofList

/-- `decodeLossy` as a string. -/
def stringLossy (bs : List UInt8) : String := String.ofList (decodeLossy bs)

end FaultDrill.Text.Utf8
