/-!
# DepositSync.Width

Numbers of a fixed width: the largest and the smallest that so many bits hold.
-/

namespace DepositSync.Width

/-- How many numbers so many bits hold. -/
def count (bits : Nat) : Nat := Nat.pow 2 bits

/-- The largest natural number of so many bits. -/
def maxNat (bits : Nat) : Nat := count bits - 1

/-- The largest whole number of so many bits, one of them for the sign. -/
def maxInt (bits : Nat) : Int := maxNat (bits - 1)

/-- The smallest whole number of so many bits, one of them for the sign. -/
def minInt (bits : Nat) : Int := -count (bits - 1)

end DepositSync.Width
