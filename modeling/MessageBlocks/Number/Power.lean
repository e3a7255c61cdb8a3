/-!
# Powers

The powers of two and ten by which numbers are scaled.
-/

namespace MessageBlocks.Number

def powerOfTwo (exponent : Nat) : Nat :=
  Nat.pow 2 exponent

def powerOfTen (exponent : Nat) : Nat :=
  Nat.pow 10 exponent

end MessageBlocks.Number
