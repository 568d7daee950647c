import FaultDrill.Instant.Calendar
import FaultDrill.Span
/-!
# Instants

An instant is a count of seconds since 1970-01-01T00:00:00Z and nanoseconds within the second. In a
leap second the nanoseconds run on past 999 999 999 while the count of seconds stands still.
-/
namespace FaultDrill

/-- A point in time, in UTC. -/
structure Instant where
  seconds : Int
  nanos : Nat
  deriving DecidableEq, Repr, Inhabited

namespace Instant

/-- Nanoseconds in a second. -/
def second : Nat := 1000000000

/-- Whether an instant lies inside a leap second. -/
def inLeapSecond (t : Instant) : Prop := second ≤ t.nanos

/-- Whether `a` is no later than `b`. -/
def le (a b : Instant) : Bool :=
  decide (a.seconds < b.seconds) || (a.seconds == b.seconds && decide (a.nanos ≤ b.nanos))

instance : LE Instant := ⟨fun a b => a.le b = true⟩

instance (a b : Instant) : Decidable (a ≤ b) := inferInstanceAs (Decidable (a.le b = true))

/-- Whole milliseconds since the epoch, the fraction dropped. -/
def millis (t : Instant) : Int := t.seconds * 1000 + ((t.nanos / 1000000 : Nat) : Int)

/-- Whether a count of seconds lies in the years that an instant may have. -/
def inRange (seconds : Int) : Bool :=
  decide (Calendar.firstDay ≤ seconds / 86400) && decide (seconds / 86400 ≤ Calendar.lastDay)

/-- The instant a number of milliseconds after the epoch, if it is in range. -/
def ofMillis? (ms : Int) : Option Instant :=
  let s := ms / 1000
  if inRange s then some ⟨s, (ms % 1000).toNat * 1000000⟩ else none

/-- The instant `n` nanoseconds later. From inside a leap second the rest of it passes first. -/
def after (t : Instant) (n : Nat) : Instant :=
  if t.nanos < second then
    let total := t.nanos + n
    ⟨t.seconds + ((total / second : Nat) : Int), total % second⟩
  else if t.nanos + n < 2 * second then ⟨t.seconds, t.nanos + n⟩
  else
    let total := t.nanos + n - second
    ⟨t.seconds + ((total / second : Nat) : Int), total % second⟩

/-- The seconds of the day. -/
def secondOfDay (t : Instant) : Nat := (t.seconds % 86400).toNat

/-- Nanoseconds from `a` to `b`. Where the time of day of the two differs, a leap second that the
earlier time of day lies in counts as one second more. -/
def nanosBetween (a b : Instant) : Int :=
  let adjust : Int :=
    if a.secondOfDay < b.secondOfDay then (if second ≤ a.nanos then 1 else 0)
    else if b.secondOfDay < a.secondOfDay then (if second ≤ b.nanos then -1 else 0)
    else 0
  (b.seconds - a.seconds + adjust) * second + ((b.nanos : Int) - a.nanos)

/-- Milliseconds from `a` to `b`, the fraction dropped. -/
def millisBetween (a b : Instant) : Int := (nanosBetween a b).tdiv 1000000

end Instant

/-- The width of a window in milliseconds: at least one, and reduced to the signed 64-bit range. -/
def windowWidth (window : Span) : Int := max (Int.bmod window.millis (twoPow 64)) 1

/-- The start of the window that holds `now`: the last multiple of the window's width since the
epoch that is not after it. Where that instant is out of range, `now` itself. -/
def windowStart (now : Instant) (window : Span) : Instant :=
  (Instant.ofMillis? (now.millis - now.millis % windowWidth window)).getD now

end FaultDrill
