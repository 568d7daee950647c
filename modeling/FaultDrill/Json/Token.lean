import FaultDrill.Binary64.Numeral
import FaultDrill.Document.Atom
import FaultDrill.Text.Blank
/-!
# Tokens of JSON

`lex` turns a text into tokens and ends with the token `bad` where the text stops being JSON. Two
kinds of damage do not stop it: a number too large to be finite, and an escaped surrogate without
its partner. Their tokens carry no value, so they are faults only where the value is asked for.
-/
namespace FaultDrill.Json
open FaultDrill.Document (Number)

/-- A token. -/
inductive Token where
  | null
  | bool (b : Bool)
  | number (n : Option Number)
  | string (s : Option String)
  | openArray
  | closeArray
  | openObject
  | closeObject
  | comma
  | colon
  /-- The text is not JSON from here on. -/
  | bad
  deriving DecidableEq, Repr

/-- The characters that may stand between tokens. -/
def isSpace (c : Char) : Bool := c == ' ' || c == '\n' || c == '\t' || c == '\r'

/-- The largest significand that is kept while the digits of a number are read. -/
def significandLimit : Nat := twoPow 64 - 1

/-- Digits appended to a significand as long as it stays within its limit, and how many were. -/
def absorb (significand : Nat) : List Char → Nat × Nat
  | [] => (significand, 0)
  | d :: ds =>
    let next := 10 * significand + (d.toNat - '0'.toNat)
    if significandLimit < next then (significand, 0)
    else
      let (s, taken) := absorb next ds
      (s, taken + 1)

/-- A significand times a power of ten, in floating-point steps: one multiplication or division by a
power up to 10^308, after divisions by 10^308 for exponents below that. Nothing when the value is
too large. Four steps reach zero from any significand. -/
def scaleReal : (steps : Nat) → Binary64 → Int → Option Binary64
  | 0, x, _ => some x
  | steps + 1, x, e =>
    if e.natAbs ≤ 308 then
      if 0 ≤ e then
        match x.mul (.ofNat (tenPow e.toNat)) with
        | .infinite _ => none
        | y => some y
      else some (x.div (.ofNat (tenPow (-e).toNat)))
    else if x.magnitude = 0 then some x
    else if 0 ≤ e then none
    else scaleReal steps (x.div (.ofNat (tenPow 308))) (e + 308)

/-- The number with the given parts; nothing when it is too large. The exponent is absent in a
number without one. Digits that do not fit the significand raise the exponent before the point and
are dropped behind it. -/
def numberOf (negative : Bool) (whole fraction : List Char) (exponent : Option (Bool × List Char)) :
    Option Number :=
  let sign (x : Binary64) : Binary64 := if negative then x.neg else x
  let (s, taken) := absorb 0 whole
  let dropped := whole.length - taken
  if fraction.isEmpty && exponent.isNone && dropped = 0 then
    if !negative then some (.nat s)
    else if s = 0 || twoPow 63 < s then some (.real (Binary64.ofNat s).neg)
    else some (.negative s)
  else
    let (s, used) := absorb s fraction
    let base : Int := (dropped : Int) - (used : Int)
    match exponent with
    | none => (scaleReal 5 (.ofNat s) base).map fun x => .real (sign x)
    | some (down, ds) =>
      let e := Binary64.digitsValue ds
      if twoPow 31 ≤ e then
        if s ≠ 0 && !down then none else some (.real (sign .zero))
      else
        let e : Int := if down then base - e else base + e
        (scaleReal 5 (.ofNat s) e).map fun x => .real (sign x)

/-- The digits in front and what follows them, when there is a digit. -/
def digits? (cs : List Char) : Option (List Char × List Char) :=
  let ds := cs.takeWhile Char.isDigit
  if ds.isEmpty then none else some (ds, cs.drop ds.length)

/-- The exponent part in front: nothing wrong without one; with a mark, at least one digit. -/
def readExponent : List Char → Option (Option (Bool × List Char) × List Char)
  | [] => some (none, [])
  | c :: cs =>
    if c = 'e' || c = 'E' then
      match cs with
      | '-' :: r => (digits? r).map fun (ds, r) => (some (true, ds), r)
      | '+' :: r => (digits? r).map fun (ds, r) => (some (false, ds), r)
      | r => (digits? r).map fun (ds, r) => (some (false, ds), r)
    else some (none, c :: cs)

/-- The number without its sign in front: a digit zero alone or digits without a leading zero, then
a fraction and an exponent if they are there. -/
def readUnsigned (negative : Bool) (cs : List Char) : Option (Option Number × List Char) :=
  match digits? cs with
  | none => none
  | some (whole, rest) =>
    if whole.head? == some '0' && 1 < whole.length then none
    else match rest with
      | '.' :: r =>
        match digits? r with
        | none => none
        | some (fraction, r) =>
          (readExponent r).map fun (e, r) => (numberOf negative whole fraction e, r)
      | r => (readExponent r).map fun (e, r) => (numberOf negative whole [] e, r)

/-- The number in front. -/
def readNumber : List Char → Option (Option Number × List Char)
  | '-' :: cs => readUnsigned true cs
  | cs => readUnsigned false cs

/-- The value of a hexadecimal digit. -/
def hexValue? (c : Char) : Option Nat :=
  if c.isDigit then some (c.toNat - '0'.toNat)
  else if 'a' ≤ c && c ≤ 'f' then some (c.toNat - 'a'.toNat + 10)
  else if 'A' ≤ c && c ≤ 'F' then some (c.toNat - 'A'.toNat + 10)
  else none

/-- The value of four hexadecimal digits. -/
def hex4? (a b c d : Char) : Option Nat := do
  let a ← hexValue? a
  let b ← hexValue? b
  let c ← hexValue? c
  let d ← hexValue? d
  return ((a * 16 + b) * 16 + c) * 16 + d

/-- The character of an escape with one letter. -/
def shortEscape? (c : Char) : Option Char :=
  if c = '"' then some '"'
  else if c = '\\' then some '\\'
  else if c = '/' then some '/'
  else if c = 'b' then some '\x08'
  else if c = 'f' then some '\x0c'
  else if c = 'n' then some '\n'
  else if c = 'r' then some '\r'
  else if c = 't' then some '\t'
  else none

/-- A part of a string: a character, or an escaped unit of 16 bits. -/
inductive Piece where
  | char (c : Char)
  | unit (n : Nat)
  deriving DecidableEq, Repr

/-- The parts of a string up to the closing quote, and what follows it. Nothing when a control
character, an unknown escape or the end of the text stands in the way. -/
def pieces : List Char → Option (List Piece × List Char)
  | [] => none
  | '"' :: rest => some ([], rest)
  | '\\' :: 'u' :: a :: b :: c :: d :: rest =>
    match hex4? a b c d, pieces rest with
    | some n, some (ps, rest) => some (.unit n :: ps, rest)
    | _, _ => none
  | '\\' :: c :: rest =>
    match shortEscape? c, pieces rest with
    | some e, some (ps, rest) => some (.char e :: ps, rest)
    | _, _ => none
  | c :: rest =>
    if c.toNat < 0x20 || c = '\\' then none
    else match pieces rest with
      | some (ps, rest) => some (.char c :: ps, rest)
      | none => none

/-- Reading a string leaves less than it was given. -/
theorem length_pieces {cs : List Char} {ps rest} (h : pieces cs = some (ps, rest)) :
    rest.length < cs.length := by
  fun_induction pieces cs generalizing ps rest
  case case2 => simp_all
  case case3 ih | case5 ih | case8 ih =>
    have := ih (by assumption)
    simp only [Option.some.injEq, Prod.mk.injEq] at h
    simp only [← h.2, List.length_cons] at *
    omega
  all_goals simp at h

/-- The text of a string. An escaped unit is a character of its own unless it is a surrogate; a high
surrogate and the low one right after it make one character. Half a pair has no text. -/
def joinPieces : List Piece → Option (List Char)
  | [] => some []
  | .char c :: ps => (joinPieces ps).map (c :: ·)
  | .unit n :: ps =>
    if 0xD800 ≤ n && n ≤ 0xDBFF then
      match ps with
      | .unit m :: ps =>
        if 0xDC00 ≤ m && m ≤ 0xDFFF then
          (joinPieces ps).map (Char.ofNat (0x10000 + (n - 0xD800) * 0x400 + (m - 0xDC00)) :: ·)
        else none
      | _ => none
    else if 0xDC00 ≤ n && n ≤ 0xDFFF then none
    else (joinPieces ps).map (Char.ofNat n :: ·)

/-- The token that begins with `c`, and what follows it. -/
def front (c : Char) (cs : List Char) : Token × List Char :=
  if c = '[' then (.openArray, cs)
  else if c = ']' then (.closeArray, cs)
  else if c = '\x7b' then (.openObject, cs)
  else if c = '\x7d' then (.closeObject, cs)
  else if c = ',' then (.comma, cs)
  else if c = ':' then (.colon, cs)
  else if c = '"' then
    match pieces cs with
    | some (ps, rest) => (.string ((joinPieces ps).map String.ofList), rest)
    | none => (.bad, [])
  else if c = '-' || c.isDigit then
    match readNumber (c :: cs) with
    | some (n, rest) => (.number n, rest)
    | none => (.bad, [])
  else
    match Text.after? ['n', 'u', 'l', 'l'] (c :: cs), Text.after? ['t', 'r', 'u', 'e'] (c :: cs),
      Text.after? ['f', 'a', 'l', 's', 'e'] (c :: cs) with
    | some rest, _, _ => (.null, rest)
    | _, some rest, _ => (.bool true, rest)
    | _, _, some rest => (.bool false, rest)
    | none, none, none => (.bad, [])

theorem length_digits? {cs ds rest : List Char} (h : digits? cs = some (ds, rest)) :
    rest.length < cs.length := by
  unfold digits? at h
  dsimp only at h
  split at h
  · simp at h
  · rename_i hne
    simp only [Option.some.injEq, Prod.mk.injEq] at h
    have hle := (List.takeWhile_prefix Char.isDigit (l := cs)).length_le
    have hpos : 0 < (cs.takeWhile Char.isDigit).length :=
      List.length_pos_iff.2 (by simpa using hne)
    rw [← h.2, List.length_drop]
    omega

theorem length_readExponent {cs : List Char} {e rest} (h : readExponent cs = some (e, rest)) :
    rest.length ≤ cs.length := by
  unfold readExponent at h
  split at h
  · simp_all
  · split at h
    · split at h <;>
        · obtain ⟨⟨ds, r⟩, hd, he⟩ := Option.map_eq_some_iff.1 h
          have := length_digits? hd
          simp only [Prod.mk.injEq] at he
          simp only [← he.2, List.length_cons] at *
          omega
    · simp_all

theorem length_readUnsigned {b : Bool} {cs : List Char} {n rest}
    (h : readUnsigned b cs = some (n, rest)) : rest.length < cs.length := by
  unfold readUnsigned at h
  split at h
  · simp at h
  · have := length_digits? ‹_›
    split at h
    · simp at h
    · split at h
      · split at h
        · simp at h
        · have := length_digits? ‹_›
          obtain ⟨⟨e, r⟩, he, hr⟩ := Option.map_eq_some_iff.1 h
          have := length_readExponent he
          simp only [Prod.mk.injEq] at hr
          simp only [← hr.2, List.length_cons] at *
          omega
      · obtain ⟨⟨e, r⟩, he, hr⟩ := Option.map_eq_some_iff.1 h
        have := length_readExponent he
        simp only [Prod.mk.injEq] at hr
        simp only [← hr.2] at *
        omega

theorem length_readNumber {cs : List Char} {n rest} (h : readNumber cs = some (n, rest)) :
    rest.length < cs.length := by
  unfold readNumber at h
  split at h
  · have := length_readUnsigned h
    simp only [List.length_cons]
    omega
  · exact length_readUnsigned h

theorem length_after? {start cs rest : List Char} (h : Text.after? start cs = some rest) :
    rest.length + start.length = cs.length := by
  fun_induction Text.after? start cs <;> simp_all
  omega

/-- A token takes at least the character it begins with. -/
theorem length_front (c : Char) (cs : List Char) : (front c cs).2.length ≤ cs.length := by
  unfold front
  repeat' split
  all_goals simp only [List.length_nil, Nat.zero_le, Nat.le_refl]
  case _ h => exact Nat.le_of_lt (length_pieces h)
  case _ h => exact Nat.lt_succ_iff.1 (length_readNumber h)
  all_goals
    have := length_after? (by assumption)
    simp only [List.length_cons, List.length_nil] at this
    omega

/-- The tokens of a text. Nothing follows the token `bad`. -/
def lex : List Char → List Token
  | [] => []
  | c :: cs =>
    if isSpace c then lex cs
    else match _h : front c cs with
      | (.bad, _) => [.bad]
      | (t, rest) => t :: lex rest
termination_by cs => cs.length
decreasing_by
  · simp
  · have := length_front c cs
    rw [_h] at this
    simp only [List.length_cons] at *
    omega

end FaultDrill.Json
