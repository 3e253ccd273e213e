import DepositSync.Text.Hex
import DepositSync.Text.Utf8

/-!
# DepositSync.Text.Percent

Percent-encoding of bytes, and the encoding of form fields that builds on it. A percent sign
that two hexadecimal digits do not follow stands for itself when it is read.
-/

namespace DepositSync.Text

/-- One byte as a percent sign and two upper-case hexadecimal digits. -/
def percentByte (b : UInt8) : List Char :=
  '%' :: upperHexByte b

/-- Percent-encodes every character for which `escapes` holds, byte by byte. -/
def percentEncode (escapes : Char → Bool) (cs : List Char) : List Char :=
  cs.flatMap fun c =>
    if escapes c then (String.utf8EncodeChar c).flatMap percentByte else [c]

/-- The bytes a percent-encoded text stands for. -/
def percentDecode : List Char → List UInt8
  | '%' :: a :: b :: cs =>
    match hexValue? a, hexValue? b with
    | some x, some y => UInt8.ofNat (x * 16 + y) :: percentDecode cs
    | _, _ => 0x25 :: percentDecode (a :: b :: cs)
  | c :: cs => String.utf8EncodeChar c ++ percentDecode cs
  | [] => []
  termination_by cs => cs.length

/-- Characters a form field keeps as they are. -/
def isFormSafe (c : Char) : Bool :=
  c.isAlphanum || c == '*' || c == '-' || c == '.' || c == '_'

/-- One form field's text: a space becomes a plus sign, and any other unsafe character is
percent-encoded. -/
def formEncode (cs : List Char) : List Char :=
  cs.flatMap fun c =>
    if c == ' ' then ['+']
    else if isFormSafe c then [c]
    else (String.utf8EncodeChar c).flatMap percentByte

/-- Fields joined as `name=value` with ampersands between them. -/
def formFields (fields : List (String × String)) : List Char :=
  List.intercalate ['&'] <| fields.map fun (name, value) =>
    formEncode name.toList ++ '=' :: formEncode value.toList

end DepositSync.Text
