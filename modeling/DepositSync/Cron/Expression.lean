import DepositSync.Text.Blank
import DepositSync.Text.Digits

/-!
# DepositSync.Cron.Expression

Cron expressions of six fields: second, minute, hour, day of the month, month, day of the week.
A field is a list of items, and an item a span of values, with a step perhaps; days can also be the
last one, the working day nearest to one, or the n-th of their weekday in the month. Months and
weekdays have names, and common schedules have names of their own.

Reading an expression tells whether a schedule can be made of it; when it fires is not said here.
-/

namespace DepositSync.Cron

/-- What a field counts. -/
inductive Measure where
  | second
  | minute
  | hour
  | dayOfMonth
  | month
  | dayOfWeek
  deriving DecidableEq, Repr, Inhabited

namespace Measure

/-- The smallest value. -/
def least : Measure → Nat
  | .dayOfMonth | .month => 1
  | _ => 0

/-- The largest value. Sunday is both the first and the last day of the week. -/
def greatest : Measure → Nat
  | .second | .minute => 59
  | .hour => 23
  | .dayOfMonth => 31
  | .month => 12
  | .dayOfWeek => 7

/-- Is the value one that the field can have? -/
def admits (m : Measure) (n : Nat) : Bool :=
  m.least ≤ n && n ≤ m.greatest

/-- The letters and signs that only some fields may hold. -/
def marks : Measure → List Char
  | .dayOfMonth => ['l', 'w']
  | .dayOfWeek => ['l', '#']
  | _ => []

end Measure

/-- Which of the weekdays of a month are meant. -/
inductive Occurrence where
  | every
  | nth (n : Nat)
  | last
  deriving DecidableEq, Repr, Inhabited

/-- An item of a field. -/
inductive Item where
  /-- The values from one to another, in steps. -/
  | span (first last step : Nat) (which : Occurrence)
  /-- The last day of the month or the week. -/
  | lastDay
  /-- The working day nearest to a day of the month. -/
  | nearestWorkday (day : Nat)
  deriving DecidableEq, Repr, Inhabited

/-- An expression: the items of each field. -/
structure Expression where
  seconds : List Item
  minutes : List Item
  hours : List Item
  daysOfMonth : List Item
  months : List Item
  daysOfWeek : List Item
  deriving DecidableEq, Repr, Inhabited

/-! ### Items -/

/-- The largest number that can be written. -/
def maxNumber : Nat := 255

/-- A number of a field. -/
def number? (cs : List Char) : Option Nat :=
  (Text.digits? cs).filter (· ≤ maxNumber)

/-- The text divided at every occurrence of a character. -/
def divide (c : Char) (cs : List Char) : List (List Char) :=
  cs.splitOn c

/-- Values from one to another that a field can have. -/
def bounds? (m : Measure) (first last : Nat) : Option (Nat × Nat) :=
  if m.admits first ∧ m.admits last ∧ first ≤ last then some (first, last) else none

/-- The values between two numbers with a hyphen between them. -/
def range? (m : Measure) (cs : List Char) : Option (Nat × Nat) :=
  match divide '-' cs with
  | [a, b] => do bounds? m (← number? a) (← number? b)
  | _ => none

/-- The last value of a span that steps reach. -/
def lastReached (first last step : Nat) : Nat :=
  first + (last - first) / step * step

/-- A span in steps. A single number stands for everything from there on. The value that the first
step beyond the span leads to must still be a number. -/
def stepped? (m : Measure) (cs : List Char) : Option Item :=
  match divide '/' cs with
  | [span, step] => do
    let step ← (number? step).filter (0 < ·)
    let (first, last) ←
      if span = ['*'] then some (m.least, m.greatest)
      else if span.contains '-' then range? m span
      else do bounds? m (← number? span) m.greatest
    if lastReached first last step + step ≤ maxNumber then some (.span first last step .every)
    else none
  | _ => none

/-- Which weekdays the text behind a number sign means. -/
def occurrence? : List Char → Option Occurrence
  | ['l'] => some .last
  | cs => ((number? cs).filter fun n => 1 ≤ n && n ≤ 5).map .nth

/-- The part of an item that says which weekdays it means, taken from its end. -/
def splitOccurrence? (cs : List Char) : Option (List Char × Occurrence) :=
  match divide '#' cs with
  | [days] => if days.getLast? = some 'l' then some (days.dropLast, .last) else some (days, .every)
  | [days, which] => (occurrence? which).map fun o => (days, o)
  | _ => none

/-- An item of a field. Which weekdays are meant can be said of weekdays only. -/
def item? (m : Measure) (cs : List Char) : Option Item :=
  if cs = ['*'] then some (.span m.least m.greatest 1 .every)
  else if cs.contains '/' then stepped? m cs
  else if cs = ['l'] then some .lastDay
  else if cs.getLast? = some 'w' then do
    let day ← number? cs.dropLast
    if m.admits day then some (.nearestWorkday day) else none
  else do
    let (days, which) ← splitOccurrence? cs
    if which ≠ .every ∧ m ≠ .dayOfWeek then none
    let (first, last) ←
      if days.contains '-' then range? m days
      else do
        let n ← number? days
        bounds? m n n
    some (.span first last 1 which)

/-- The items of a field; an empty one does not count. -/
def field? (m : Measure) (cs : List Char) : Option (List Item) :=
  if cs.all fun c => c.isDigit || ['*', '-', ',', '/'].contains c || m.marks.contains c then
    ((divide ',' cs).filter (!·.isEmpty)).mapM (item? m)
  else none

/-! ### Names -/

/-- The text with every occurrence of a part replaced. -/
def replaceAll (part replacement : List Char) : (fuel : Nat) → List Char → List Char
  | 0, cs => cs
  | _ + 1, [] => []
  | fuel + 1, c :: cs =>
    if part.isPrefixOf (c :: cs) then
      replacement ++ replaceAll part replacement fuel ((c :: cs).drop part.length)
    else c :: replaceAll part replacement fuel cs

/-- The names of days and months, with the numbers they stand for. At the end of a range Sunday is
the last day of the week. -/
def names : List (String × String) :=
  [("-sun", "-7"), ("sun", "0"), ("mon", "1"), ("tue", "2"), ("wed", "3"), ("thu", "4"),
    ("fri", "5"), ("sat", "6"), ("jan", "1"), ("feb", "2"), ("mar", "3"), ("apr", "4"),
    ("may", "5"), ("jun", "6"), ("jul", "7"), ("aug", "8"), ("sep", "9"), ("oct", "10"),
    ("nov", "11"), ("dec", "12")]

/-- The text with numbers in the place of names. -/
def replaceNames (cs : List Char) : List Char :=
  names.foldl (fun cs (name, number) => replaceAll name.toList number.toList cs.length cs) cs

/-- The schedules that have a name. -/
def namedSchedules : List (String × String) :=
  [("@yearly", "0 0 0 1 1 *"), ("@annually", "0 0 0 1 1 *"), ("@monthly", "0 0 0 1 * *"),
    ("@weekly", "0 0 0 * * 0"), ("@daily", "0 0 0 * * *"), ("@hourly", "0 0 * * * *")]

/-- The expression a named schedule stands for, or the text itself. -/
def replaceSchedule (cs : List Char) : List Char :=
  ((namedSchedules.lookup (String.ofList cs)).map String.toList).getD cs

/-! ### Expressions -/

/-- The parts of a text between blanks. -/
def words (cs : List Char) : List (List Char) :=
  (cs.splitOnP Text.isBlank).filter (!·.isEmpty)

/-- The expression a text stands for. Upper and lower case mean the same. -/
def Expression.ofText? (s : String) : Option Expression := do
  let cs := replaceSchedule ((Text.trimmed s.toList).map Char.toLower)
  match words (replaceNames cs) with
  | [a, b, c, d, e, f] =>
    some ⟨← field? .second a, ← field? .minute b, ← field? .hour c, ← field? .dayOfMonth d,
      ← field? .month e, ← field? .dayOfWeek f⟩
  | _ => none

end DepositSync.Cron
