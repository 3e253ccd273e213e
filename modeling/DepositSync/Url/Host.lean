import DepositSync.Text.Digits
import DepositSync.Text.Hex
import DepositSync.Text.Percent

/-!
# DepositSync.Url.Host

The host of a web address: an address of four or of sixteen bytes, or a domain name. Addresses
have many spellings and are written in one. Domain names are those in ASCII, in lower case.
-/

namespace DepositSync

/-- A host. -/
inductive Host where
  | domain (name : List Char)
  /-- An address of 32 bits. -/
  | ipv4 (address : Nat)
  /-- An address of eight pieces of 16 bits. -/
  | ipv6 (pieces : List Nat)
  deriving DecidableEq, Repr, Inhabited

namespace Host

/-! ### Addresses of four bytes -/

/-- The value of digits in a base of at most sixteen. -/
def numberIn? (base : Nat) (cs : List Char) : Option Nat :=
  cs.foldlM (fun n c => do
    let d ← Text.hexValue? c
    if d < base then some (n * base + d) else none) 0

/-- A part of an address: decimal, octal behind a zero, or hexadecimal behind a zero and an x. -/
def addressPart? : List Char → Option Nat
  | [] => none
  | '0' :: 'x' :: ds => numberIn? 16 ds
  | '0' :: 'X' :: ds => numberIn? 16 ds
  | '0' :: d :: ds => numberIn? 8 (d :: ds)
  | ds => numberIn? 10 ds

/-- The parts between full stops, of which the last may be empty. -/
def addressParts (cs : List Char) : List (List Char) :=
  let parts := cs.splitOn '.'
  if parts.getLast? = some [] ∧ 1 < parts.length then parts.dropLast else parts

/-- Is the host meant as an address, its last part being a number? -/
def looksLikeAddress (cs : List Char) : Bool :=
  match (addressParts cs).getLast? with
  | some part => (!part.isEmpty && part.all Char.isDigit) || (addressPart? part).isSome
  | none => false

/-- The address of which the first parts are one byte each, and the last one is the rest. -/
def ipv4Of? : List Nat → Option Nat
  | [] => none
  | parts =>
    let bytes := parts.dropLast
    let last := parts.getLast?.getD 0
    if 3 < bytes.length ∨ bytes.any (255 < ·) ∨ Nat.pow 256 (4 - bytes.length) ≤ last then none
    else
      let high := bytes.foldl (fun n b => n * 256 + b) 0
      some (high * Nat.pow 256 (4 - bytes.length) + last)

/-- The address of four bytes that a text stands for. -/
def ipv4? (cs : List Char) : Option Nat := do
  ipv4Of? (← (addressParts cs).mapM addressPart?)

/-- The four bytes of an address with full stops between them. -/
def ipv4Text (address : Nat) : List Char :=
  List.intercalate ['.'] <| [3, 2, 1, 0].map fun i => Text.ofNat (address / Nat.pow 256 i % 256)

/-! ### Addresses of sixteen bytes -/

/-- The text divided at the first double colon. -/
def divideAtGap : List Char → Option (List Char × List Char)
  | [] => none
  | ':' :: ':' :: rest => some ([], rest)
  | c :: rest => (divideAtGap rest).map fun (before, after) => (c :: before, after)

/-- A byte in decimal, without leading zeros. -/
def plainByte? (cs : List Char) : Option Nat :=
  if cs.head? = some '0' ∧ cs ≠ ['0'] then none
  else (Text.digits? cs).filter (· ≤ 255)

/-- The two pieces that an address of four bytes stands for inside a longer one. -/
def dottedPieces? (cs : List Char) : Option (List Nat) := do
  match ← (cs.splitOn '.').mapM plainByte? with
  | [a, b, c, d] => some [a * 256 + b, c * 256 + d]
  | _ => none

/-- The pieces of an address. The last ones may be written as four bytes. -/
def pieces? : List (List Char) → Option (List Nat)
  | [] => some []
  | [last] =>
    if last.contains '.' then dottedPieces? last
    else if last.isEmpty ∨ 4 < last.length then none
    else (Text.hexNumber? last).map ([·])
  | part :: rest => do
    if part.isEmpty ∨ 4 < part.length then none
    else return (← Text.hexNumber? part) :: (← pieces? rest)

/-- The pieces of a part of an address that may be empty. -/
def piecesOf? (cs : List Char) : Option (List Nat) :=
  if cs.isEmpty then some [] else pieces? (cs.splitOn ':')

/-- The eight pieces that a text stands for; a double colon stands for zeros. -/
def ipv6? (cs : List Char) : Option (List Nat) := do
  match divideAtGap cs with
  | none =>
    let ps ← piecesOf? cs
    if ps.length = 8 then some ps else none
  | some (before, after) =>
    let first ← if before.contains '.' then none else piecesOf? before
    let last ← piecesOf? after
    if first.length + last.length ≤ 7 then
      some (first ++ List.replicate (8 - first.length - last.length) 0 ++ last)
    else none

/-- How many zeros the pieces begin with. -/
def leadingZeros (pieces : List Nat) : Nat :=
  (pieces.takeWhile (· = 0)).length

/-- The longest run of zeros, the first of several: where it begins, and its length. -/
def longestRun : (position : Nat) → List Nat → Nat × Nat
  | _, [] => (0, 0)
  | position, p :: rest =>
    let here := leadingZeros (p :: rest)
    let later := longestRun (position + 1) rest
    if 0 < here ∧ later.2 ≤ here then (position, here) else later

/-- The pieces of an address with colons between them; the longest run of at least two zeros is
left out. -/
def ipv6Text (pieces : List Nat) : List Char :=
  let part (ps : List Nat) : List Char := List.intercalate [':'] (ps.map Text.lowerHex)
  let (position, length) := longestRun 0 pieces
  if length < 2 then part pieces
  else part (pieces.take position) ++ [':', ':'] ++ part (pieces.drop (position + length))

/-! ### Hosts -/

/-- May the character not stand in a domain name? -/
def isForbidden (c : Char) : Bool :=
  c.toNat ≤ 0x20 || 0x7F ≤ c.toNat ||
    ['#', '/', ':', '<', '>', '?', '@', '[', '\\', ']', '^', '|', '%'].contains c

/-- The host a text stands for. -/
def ofText? (cs : List Char) : Option Host :=
  if cs.head? = some '[' then
    if cs.getLast? = some ']' then (ipv6? ((cs.drop 1).dropLast)).map .ipv6 else none
  else
    let name := (Text.Utf8.lossy (Text.percentDecode cs)).toList.map Char.toLower
    if name.isEmpty ∨ name.any isForbidden then none
    else if looksLikeAddress name then (ipv4? name).map .ipv4
    else some (.domain name)

/-- The host as text. -/
def text : Host → List Char
  | domain name => name
  | ipv4 address => ipv4Text address
  | ipv6 pieces => '[' :: ipv6Text pieces ++ [']']

end Host

end DepositSync
