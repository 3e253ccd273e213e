import DepositSync.Text.Hex
import DepositSync.Text.Unprintable

/-!
# DepositSync.Text.Quoted

A text between double quotes as a log shows it: quotes and backslashes are escaped, the common
controls have their letters, and any other unprintable character is given by its number in braces.
-/

namespace DepositSync.Text

/-- One character inside a quoted text. -/
def quotedChar (c : Char) : List Char :=
  if c == '\x22' then ['\\', '\x22']
  else if c == '\\' then ['\\', '\\']
  else if c == '\n' then ['\\', 'n']
  else if c == '\r' then ['\\', 'r']
  else if c == '\t' then ['\\', 't']
  else if c.toNat == 0 then ['\\', '0']
  else if isUnprintable c then ['\\', 'u', '\x7b'] ++ lowerHex c.toNat ++ ['\x7d']
  else [c]

/-- The text between double quotes. -/
def quoted (s : String) : String :=
  String.ofList ('\x22' :: s.toList.flatMap quotedChar ++ ['\x22'])

end DepositSync.Text
