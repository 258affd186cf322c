/-!
# Word — numbers of so many bits

`wordBound bits` is the number of values that `bits` bits hold.  An unsigned number of that many
bits is below it; a signed one gives up a bit for its sign.
-/

namespace PoolExchange

/-- Two to the power `bits`. -/
def wordBound (bits : Nat) : Nat := Nat.pow 2 bits

theorem wordBound_pos (bits : Nat) : 0 < wordBound bits := Nat.two_pow_pos bits

/-- The number, if it is an unsigned one of `bits` bits. -/
def unsignedWord? (bits : Nat) (n : Int) : Option Nat :=
  if 0 ≤ n ∧ n < wordBound bits then some n.toNat else none

/-- The number is a signed one of 64 bits. -/
def isSigned64 (n : Int) : Bool :=
  -(wordBound 63 : Int) ≤ n && n < wordBound 63

end PoolExchange
