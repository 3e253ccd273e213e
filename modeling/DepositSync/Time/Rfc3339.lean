import DepositSync.Text.Blank
import DepositSync.Text.Digits
import DepositSync.Time.Moment

/-!
# DepositSync.Time.Rfc3339

Points in time as text, `2024-06-01T05:30:00.5+05:30`. Reading is lenient about blanks, about the
number of digits, and about how the offset from UTC is written, but the offset has to be there.
Writing gives the time in UTC, with as many groups of three fraction digits as are needed. People
are shown the same with blanks in it, `2024-06-01 00:00:00.500 UTC`.
-/

namespace DepositSync.Time

/-- A reader: the value and the rest of the text, or nothing. -/
abbrev Scan (α : Type) := List Char → Option (α × List Char)

/-- The text without the blanks in front. -/
def skipBlank (cs : List Char) : List Char :=
  cs.dropWhile Text.isBlank

/-- One digit or more, but no more than `most`. -/
def scanDigits (most : Nat) : Scan (List Char) := fun cs =>
  let ds := (cs.take most).takeWhile Char.isDigit
  if ds.isEmpty then none else some (ds, cs.drop ds.length)

/-- A number of at most `most` digits, blanks in front of it not counting. -/
def scanNumber (most : Nat) : Scan Nat := fun cs => do
  let (ds, rest) ← scanDigits most (skipBlank cs)
  some (Nat.ofDigitChars 10 ds 0, rest)

/-- A year: four digits at most, or any number of digits behind a sign. -/
def scanYear : Scan Int := fun cs =>
  match skipBlank cs with
  | '-' :: cs => do
    let (ds, rest) ← scanDigits cs.length cs
    some (-(Nat.ofDigitChars 10 ds 0 : Int), rest)
  | '+' :: cs => do
    let (ds, rest) ← scanDigits cs.length cs
    some ((Nat.ofDigitChars 10 ds 0 : Int), rest)
  | cs => (scanNumber 4 cs).map fun (n, rest) => ((n : Int), rest)

/-- A mark that blanks may precede. -/
def scanMark (mark : Char) : Scan Unit := fun cs =>
  match skipBlank cs with
  | c :: rest => if c = mark then some ((), rest) else none
  | [] => none

/-- A date. -/
def scanDate : Scan Date := fun cs => do
  let (year, cs) ← scanYear cs
  let ((), cs) ← scanMark '-' cs
  let (month, cs) ← scanNumber 2 cs
  let ((), cs) ← scanMark '-' cs
  let (day, cs) ← scanNumber 2 cs
  let date : Date := ⟨year, month, day⟩
  if date.Valid then some (date, cs) else none

/-- The mark between date and time. -/
def scanSeparator : Scan Unit
  | 'T' :: cs => some ((), cs)
  | 't' :: cs => some ((), cs)
  | ' ' :: cs => some ((), cs)
  | _ => none

/-- The nanoseconds of a fraction; digits beyond the ninth do not count. Without a point there is
no fraction. -/
def scanFraction : Scan Nat
  | '.' :: cs => do
    let (ds, rest) ← scanDigits 9 cs
    some (Nat.ofDigitChars 10 ds 0 * Nat.pow 10 (9 - ds.length), rest.dropWhile Char.isDigit)
  | cs => some (0, cs)

/-- A time of day: the seconds since midnight, and the nanoseconds. -/
def scanTime : Scan (Nat × Nat) := fun cs => do
  let (hour, cs) ← scanNumber 2 cs
  let ((), cs) ← scanMark ':' cs
  let (minute, cs) ← scanNumber 2 cs
  let ((), cs) ← scanMark ':' cs
  let (second, cs) ← scanNumber 2 cs
  let (nanos, cs) ← scanFraction cs
  if hour ≤ 23 ∧ minute ≤ 59 ∧ second ≤ 60 then
    let start := hour * 3600 + minute * 60
    if second = 60 then some ((start + 59, nanosPerSecond + nanos), cs)
    else some ((start + second, nanos), cs)
  else none

/-- Exactly two digits. -/
def scanTwoDigits : Scan Nat
  | a :: b :: cs =>
    if a.isDigit && b.isDigit then some (Nat.ofDigitChars 10 [a, b] 0, cs) else none
  | _ => none

/-- Hours and minutes of an offset behind its sign, in seconds. -/
def scanOffsetBody : Scan Nat := fun cs => do
  let (hours, cs) ← scanTwoDigits cs
  let (minutes, cs) ← scanTwoDigits (cs.dropWhile fun c => c == ':' || Text.isBlank c)
  if minutes ≤ 59 then some (hours * 3600 + minutes * 60, cs) else none

/-- The minus sign that is not a hyphen. -/
def minusSign : Char := Char.ofNat 0x2212

/-- An offset from UTC in seconds: `UTC`, `Z`, or hours and minutes behind a sign. -/
def scanOffset : Scan Int := fun cs =>
  let cs := skipBlank cs
  if (cs.take 3).map Char.toUpper = ['U', 'T', 'C'] then some (0, cs.drop 3)
  else match cs with
    | c :: rest =>
      if c = 'Z' ∨ c = 'z' then some (0, rest)
      else if c = '+' then (scanOffsetBody rest).map fun (n, rest) => ((n : Int), rest)
      else if c = '-' ∨ c = minusSign then
        (scanOffsetBody rest).map fun (n, rest) => (-(n : Int), rest)
      else none
    | [] => none

namespace Moment

/-- Reads a point in time. -/
def parse? (s : String) : Option Moment := do
  let (date, cs) ← scanDate s.toList
  let ((), cs) ← scanSeparator cs
  let ((second, nanos), cs) ← scanTime cs
  let (offset, cs) ← scanOffset cs
  let clock : Moment := ⟨date.toDays * secondsPerDay + second, nanos⟩
  let m : Moment := ⟨clock.seconds - offset, nanos⟩
  if (skipBlank cs).isEmpty ∧ offset.natAbs < secondsPerDay.toNat ∧ clock.InRange ∧ m.InRange
  then some m else none

/-- A year: four digits, or more behind a sign when four do not suffice. -/
def yearText (year : Int) : List Char :=
  if 0 ≤ year ∧ year ≤ 9999 then Text.padded 4 year.toNat
  else (if year < 0 then '-' else '+') :: Text.padded 4 year.natAbs

/-- The fraction of a second, in groups of three digits. -/
def fractionText (nanos : Nat) : List Char :=
  if nanos = 0 then []
  else if nanos % 1000000 = 0 then '.' :: Text.padded 3 (nanos / 1000000)
  else if nanos % 1000 = 0 then '.' :: Text.padded 6 (nanos / 1000)
  else '.' :: Text.padded 9 nanos

/-- The date, the time of day in whole seconds as `HH:MM:SS`, and the nanoseconds left. -/
def parts (m : Moment) : Date × List Char × Nat :=
  let time := (m.seconds % secondsPerDay).toNat
  let (second, nanos) :=
    if nanosPerSecond ≤ m.nanos then (time % 60 + 1, m.nanos - nanosPerSecond)
    else (time % 60, m.nanos)
  (Date.ofDays (m.seconds / secondsPerDay),
    Text.padded 2 (time / 3600) ++ ':' :: Text.padded 2 (time / 60 % 60) ++
      ':' :: Text.padded 2 second,
    nanos)

/-- Date and time of day in UTC, with a mark between them. -/
def clockText (mark : Char) (m : Moment) : List Char :=
  let (date, time, nanos) := m.parts
  yearText date.year ++ '-' :: Text.padded 2 date.month ++
    '-' :: Text.padded 2 date.day ++ mark :: time ++ fractionText nanos

/-- The point in time as text, in UTC. -/
def text (m : Moment) : String := String.ofList (m.clockText 'T' ++ ['Z'])

/-- The point in time as it is shown to people. -/
def shown (m : Moment) : String := String.ofList (m.clockText ' ') ++ " UTC"

end Moment

end DepositSync.Time
