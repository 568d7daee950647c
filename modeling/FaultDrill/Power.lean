/-!
# Powers of two and ten

The sizes of machine words are powers of two, and decimal places are powers of ten.
-/
namespace FaultDrill

/-- The power of two with a given exponent. -/
def twoPow (n : Nat) : Nat := Nat.pow 2 n

/-- The power of ten with a given exponent. -/
def tenPow (n : Nat) : Nat := Nat.pow 10 n

end FaultDrill
