/-!
# Faults of documents

What can be wrong with a document that is read into a record. A document is read from its start, so
the first fault in its order is the one reported; a missing field is noticed where its record ends.
-/
namespace FaultDrill.Document

/-- Why a document does not give the value it should. -/
inductive Fault where
  /-- A record ends without a field it must have. -/
  | missingField (name : String)
  /-- A record that takes only its own fields has another. -/
  | unknownField (name : String)
  /-- A record has a field twice. -/
  | duplicateField (name : String)
  /-- A word is none of the words of an enumeration. -/
  | unknownVariant (name : String)
  /-- A value has the wrong kind. -/
  | wrongType
  /-- A value of the right kind is out of range. -/
  | wrongValue
  /-- A list that stands for a record is too short. -/
  | wrongLength
  /-- The text is not in the format at all. -/
  | malformed
  /-- A text was read and then refused by the type it should have, as a timestamp is. -/
  | refused
  /-- An enumeration is written neither as a word nor as a record. -/
  | notAWord
  /-- A list that stands for a record has elements left over. -/
  | leftOver
  /-- A record that stands for a word has not exactly one field. -/
  | notOneField
  deriving DecidableEq, Repr

/-- What a fault is called. A text in which an enumeration or the end of a record is expected breaks
off there, so its last three faults are breaches of the format. -/
def Fault.message : Fault → String
  | .missingField n => "missing field `" ++ n ++ "`"
  | .unknownField n => "unknown field `" ++ n ++ "`"
  | .duplicateField n => "duplicate field `" ++ n ++ "`"
  | .unknownVariant n => "unknown variant `" ++ n ++ "`"
  | .wrongType => "invalid type"
  | .wrongValue => "invalid value"
  | .wrongLength => "invalid length"
  | .malformed | .notAWord | .leftOver | .notOneField => "syntax error"
  | .refused => "invalid data"

/-- What a fault is called in a value that was already read: its form is known to be sound. -/
def Fault.messageInValue : Fault → String
  | .notAWord => "invalid type"
  | .leftOver => "invalid length"
  | .notOneField => "invalid value"
  | f => f.message

end FaultDrill.Document
