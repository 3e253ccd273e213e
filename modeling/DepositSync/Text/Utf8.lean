/-!
# DepositSync.Text.Utf8

Bytes read as UTF-8. Decoding is total: what is not UTF-8 becomes a `Symbol.stray`, one for each
longest run of bytes that begins a character and cannot complete it. `text?` accepts well-formed
input only; `lossy` puts one replacement character in the place of each stray run.
-/

namespace DepositSync.Text

/-- One item of decoded input. -/
inductive Symbol where
  /-- A character. -/
  | char (c : Char)
  /-- Bytes that are no part of a well-formed character. -/
  | stray (bytes : List UInt8)
  deriving DecidableEq, Repr, Inhabited

namespace Symbol

/-- The bytes the symbol stands for. -/
def bytes : Symbol → List UInt8
  | .char c => String.utf8EncodeChar c
  | .stray bs => bs

/-- The character, if the symbol is one. -/
def char? : Symbol → Option Char
  | .char c => some c
  | .stray _ => none

/-- The character, or the replacement character U+FFFD. -/
def orReplacement : Symbol → Char
  | .char c => c
  | .stray _ => Char.ofNat 0xFFFD

end Symbol

/-- The symbols of a text: its characters. -/
def symbols (cs : List Char) : List Symbol :=
  cs.map .char

namespace Utf8

/-- A character that has begun: how many bytes it still needs, the value so far, the range the
next byte must lie in, and the bytes taken. -/
structure Partial where
  need : Nat
  value : Nat
  low : Nat
  high : Nat
  taken : List UInt8

/-- What a byte begins when no character is under way. -/
inductive Lead where
  /-- A whole character. -/
  | ascii (c : Char)
  /-- The first byte of a longer character. -/
  | opens (p : Partial)
  /-- No character starts with this byte. -/
  | none

/-- Classifies a first byte. The narrowed ranges for the second byte rule out overlong forms,
surrogates and values above U+10FFFF. -/
def lead (b : UInt8) : Lead :=
  let n := b.toNat
  if n < 0x80 then .ascii (Char.ofNat n)
  else if 0xC2 ≤ n ∧ n ≤ 0xDF then .opens ⟨1, n - 0xC0, 0x80, 0xBF, [b]⟩
  else if n = 0xE0 then .opens ⟨2, 0, 0xA0, 0xBF, [b]⟩
  else if n = 0xED then .opens ⟨2, 0xD, 0x80, 0x9F, [b]⟩
  else if 0xE1 ≤ n ∧ n ≤ 0xEF then .opens ⟨2, n - 0xE0, 0x80, 0xBF, [b]⟩
  else if n = 0xF0 then .opens ⟨3, 0, 0x90, 0xBF, [b]⟩
  else if 0xF1 ≤ n ∧ n ≤ 0xF3 then .opens ⟨3, n - 0xF0, 0x80, 0xBF, [b]⟩
  else if n = 0xF4 then .opens ⟨3, 4, 0x80, 0x8F, [b]⟩
  else .none

/-- Decodes the bytes, `begun` being the character under way. -/
def decodeFrom (begun : Option Partial) : List UInt8 → List Symbol
  | [] => match begun with
    | none => []
    | some p => [.stray p.taken]
  | b :: bs =>
    let fresh (_ : Unit) : List Symbol := match lead b with
      | .ascii c => .char c :: decodeFrom none bs
      | .opens p => decodeFrom (some p) bs
      | .none => .stray [b] :: decodeFrom none bs
    match begun with
    | none => fresh ()
    | some p =>
      if p.low ≤ b.toNat ∧ b.toNat ≤ p.high then
        let value := p.value * 64 + (b.toNat - 0x80)
        if p.need ≤ 1 then .char (Char.ofNat value) :: decodeFrom none bs
        else decodeFrom (some ⟨p.need - 1, value, 0x80, 0xBF, p.taken ++ [b]⟩) bs
      else .stray p.taken :: fresh ()

/-- The characters and stray bytes of the input, in order. -/
def decode (bs : List UInt8) : List Symbol :=
  decodeFrom none bs

/-- The text, if the bytes are well-formed UTF-8. -/
def text? (bs : List UInt8) : Option String :=
  ((decode bs).mapM Symbol.char?).map String.ofList

/-- The text, with U+FFFD in the place of each stray run. -/
def lossy (bs : List UInt8) : String :=
  String.ofList ((decode bs).map Symbol.orReplacement)

/-- The bytes of a text. -/
def encode (cs : List Char) : List UInt8 :=
  cs.flatMap String.utf8EncodeChar

end Utf8

end DepositSync.Text
