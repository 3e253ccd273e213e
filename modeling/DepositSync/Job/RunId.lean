import DepositSync.Text.Digits
import DepositSync.Text.Hex

/-!
# DepositSync.Job.RunId

Identifiers of runs: numbers of 128 bits, written as 32 hexadecimal digits in five groups. They
are read in four forms: grouped, bare, grouped in braces, and grouped behind `urn:uuid:`.
-/

namespace DepositSync

/-- The identifier of a run. -/
structure RunId where
  value : Nat
  deriving DecidableEq, Repr, Inhabited

namespace RunId

/-- How many digits are in each group. -/
def groups : List Nat := [8, 4, 4, 4, 12]

/-- The digits of the groups, if hyphens separate them. -/
def ungroup? : List Nat → List Char → Option (List Char)
  | [], cs => if cs.isEmpty then some [] else none
  | [n], cs => if cs.length = n then some cs else none
  | n :: more, cs =>
    match cs.drop n with
    | '-' :: rest => (ungroup? more rest).map (cs.take n ++ ·)
    | _ => none

/-- The digits in groups with hyphens between them. -/
def group : List Nat → List Char → List Char
  | [], _ => []
  | [n], ds => ds.take n
  | n :: more, ds => ds.take n ++ '-' :: group more (ds.drop n)

/-- The identifier of 32 digits. -/
def ofDigits? (ds : List Char) : Option RunId :=
  if ds.length = 32 then (Text.hexNumber? ds).map RunId.mk else none

/-- The mark in front of an identifier written as a resource name. -/
def resourceMark : List Char := "urn:uuid:".toList

/-- Reads an identifier. -/
def parse? (s : String) : Option RunId :=
  let cs := s.toList
  let grouped (cs : List Char) := (ungroup? groups cs).bind ofDigits?
  if cs.length = 32 then ofDigits? cs
  else if cs.take 1 = ['\x7b'] ∧ cs.getLast? = some '\x7d' then grouped (cs.drop 1).dropLast
  else if resourceMark.isPrefixOf cs then grouped (cs.drop resourceMark.length)
  else grouped cs

/-- The identifier in groups. -/
def text (id : RunId) : String :=
  let ds := Text.lowerHex id.value
  String.ofList (group groups (List.replicate (32 - ds.length) '0' ++ ds))

end RunId

end DepositSync
