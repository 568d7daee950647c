import FaultDrill.Remote
/-!
# Draining output

A script writes to two streams. They are read in turn, a piece at a time, until both have ended, so
that neither holds up the other. Stalled reads are made again; the deadline is looked at before each
round.
-/
namespace FaultDrill.Remote

/-- One read of a stream. -/
inductive Step where
  /-- These bytes; none means the end of the stream. -/
  | data (bytes : List UInt8)
  | trouble (t : Trouble)
  deriving DecidableEq, Repr, Inhabited

/-- A stream that is being read. -/
structure Stream where
  /-- The bytes that arrived. -/
  arrived : List UInt8
  /-- Whether the end was read. -/
  ended : Bool
  /-- The reads to come; after the last one the stream ends. -/
  left : List Step
  deriving DecidableEq, Repr, Inhabited

namespace Stream

/-- A stream that was not read yet. -/
def start (steps : List Step) : Stream := ⟨[], false, steps⟩

/-- One more read, unless the stream has ended, and the trouble with it other than a stall. -/
def read (s : Stream) : Option Trouble × Stream :=
  if s.ended then (none, s)
  else match s.left with
    | [] => (none, { s with ended := true })
    | .data [] :: more => (none, { s with ended := true, left := more })
    | .data bytes :: more => (none, { s with arrived := s.arrived ++ bytes, left := more })
    | .trouble t :: more => (if t.isStall then none else some t, { s with left := more })

/-- How many reads the stream can still take. -/
def unread (s : Stream) : Nat := if s.ended then 0 else s.left.length + 1

theorem unread_read_lt {s : Stream} (h : s.ended = false) : s.read.2.unread < s.unread := by
  unfold read
  split
  · simp_all
  · split <;> simp_all [unread]

theorem unread_read_le (s : Stream) : s.read.2.unread ≤ s.unread := by
  cases h : s.ended
  · exact Nat.le_of_lt (unread_read_lt h)
  · simp [read, h]

end Stream

/-- Reads both streams to their ends: the trouble that stopped it, if any, and the streams as they
are then. `clock n` is the time before round `n`. -/
def drain (deadline : Nat) (clock : Nat → Nat) (round : Nat) (out err : Stream) :
    Option Trouble × Stream × Stream :=
  if _h : out.ended && err.ended then (none, out, err)
  else if deadline ≤ clock round then (some .deadlinePassed, out, err)
  else match out.read.1 with
    | some t => (some t, out.read.2, err)
    | none =>
      match err.read.1 with
      | some t => (some t, out.read.2, err.read.2)
      | none => drain deadline clock (round + 1) out.read.2 err.read.2
termination_by out.unread + err.unread
decreasing_by
  have ho := out.unread_read_le
  have he := err.unread_read_le
  cases hout : out.ended
  · have := Stream.unread_read_lt hout
    omega
  · cases herr : err.ended
    · have := Stream.unread_read_lt herr
      omega
    · simp_all

end FaultDrill.Remote
