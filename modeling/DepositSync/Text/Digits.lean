/-!
# DepositSync.Text.Digits

Whole numbers as text: plain decimal digits, and digits behind one optional sign. Reading allows
leading zeros and has no size limit of its own; a caller that wants a limit puts it on the value.
-/

namespace DepositSync.Text

/-- The value of one or more ASCII digits, and of nothing else. -/
def digits? (cs : List Char) : Option Nat :=
  if cs ≠ [] ∧ cs.all Char.isDigit then some (Nat.ofDigitChars 10 cs 0) else none

/-- The value of digits that one plus sign may precede. -/
def natural? : List Char → Option Nat
  | '+' :: cs => digits? cs
  | cs => digits? cs

/-- The value of digits that one plus or minus sign may precede. -/
def integer? : List Char → Option Int
  | '-' :: cs => (digits? cs).map fun n => -(n : Int)
  | cs => (natural? cs).map fun n => (n : Int)

/-- The decimal digits of a number, without leading zeros. -/
def ofNat (n : Nat) : List Char :=
  Nat.toDigits 10 n

/-- The decimal digits of a number, behind a minus sign if it is negative. -/
def ofInt : Int → List Char
  | .ofNat n => ofNat n
  | .negSucc n => '-' :: ofNat (n + 1)

@[simp] theorem digits?_nil : digits? [] = none := rfl

/-- Reading undoes writing. -/
@[simp] theorem digits?_ofNat (n : Nat) : digits? (ofNat n) = some n := by
  have hne : Nat.toDigits 10 n ≠ [] := Nat.toDigits_ne_nil
  have hall : (Nat.toDigits 10 n).all Char.isDigit = true := by
    simp only [List.all_eq_true]
    exact fun c hc => Nat.isDigit_of_mem_toDigits (by decide) (by decide) hc
  simp only [digits?, ofNat, ne_eq, hne, not_false_eq_true, hall, and_self, if_true]
  rw [Nat.ofDigitChars_ten_toDigits]

/-- Digits padded with zeros on the left up to a width. -/
def padded (width n : Nat) : List Char :=
  let ds := ofNat n
  List.replicate (width - ds.length) '0' ++ ds

end DepositSync.Text
