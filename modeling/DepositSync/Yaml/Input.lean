import DepositSync.Text.Digits

/-!
# DepositSync.Yaml.Input

The characters of a YAML text, each with its place. Where a character stands decides much in this
format: indentation is a column, and a key has to lie on one line. `locate` fixes the places once,
so that whatever reads the text works on plain lists.
-/

namespace DepositSync.Yaml

/-- A character, its line and its column, both counted from zero. -/
structure Glyph where
  char : Char
  line : Nat
  column : Nat
  deriving DecidableEq, Repr, Inhabited

/-- What is still to be read. -/
abbrev Input := List Glyph

/-! ### Kinds of characters -/

/-- The byte order mark. -/
def byteOrderMark : Char := Char.ofNat 0xFEFF

/-- Does a line end with the character? A carriage return and U+0085 are turned into line feeds
before this is asked. -/
def isBreak (c : Char) : Bool :=
  c == '\n' || c == Char.ofNat 0x2028 || c == Char.ofNat 0x2029

/-- Is the character a blank inside a line? -/
def isBlank (c : Char) : Bool :=
  c == ' ' || c == '\t'

/-- Is the character a blank or a line break? -/
def isWhite (c : Char) : Bool :=
  isBlank c || isBreak c

/-- May the character stand in a name? -/
def isNameChar (c : Char) : Bool :=
  c.isAlphanum || c == '-' || c == '_'

/-- May the character stand in a text at all? Controls may not, other than tabs and line ends. -/
def isAllowed (c : Char) : Bool :=
  let n := c.toNat
  n == 0x09 || n == 0x0A || n == 0x0D || (0x20 ≤ n && n ≤ 0x7E) || n == 0x85 ||
    (0xA0 ≤ n && n ≤ 0xD7FF) || (0xE000 ≤ n && n ≤ 0xFFFD) || 0x10000 ≤ n

/-! ### Places -/

/-- The text with every line end that is a carriage return, a carriage return and a line feed, or
U+0085 made a line feed. -/
def uniformBreaks : List Char → List Char
  | [] => []
  | '\r' :: '\n' :: rest => '\n' :: uniformBreaks rest
  | c :: rest =>
    (if c = '\r' ∨ c = Char.ofNat 0x85 then '\n' else c) :: uniformBreaks rest

/-- The characters with their places, beginning at a line and a column. -/
def locate (line column : Nat) : List Char → Input
  | [] => []
  | c :: rest =>
    ⟨c, line, column⟩ ::
      if isBreak c then locate (line + 1) 0 rest else locate line (column + 1) rest

/-- The characters of a text with their places. A byte order mark in front is no part of it, and a
text with a character that is not allowed cannot be read. -/
def Input.ofText? (s : String) : Option Input :=
  let cs := if s.toList.head? == some byteOrderMark then s.toList.drop 1 else s.toList
  if cs.all isAllowed then some (locate 0 0 (uniformBreaks cs)) else none

namespace Input

/-- The next character. -/
def char? (input : Input) : Option Char :=
  input.head?.map Glyph.char

/-- Is the next character this one? -/
def startsWith (c : Char) (input : Input) : Bool :=
  input.char? == some c

/-- Is a blank, a line break or the end of the text next? -/
def atWordEnd (input : Input) : Bool :=
  input.char?.all isWhite

/-- The characters up to the first that is not of a kind, and what follows them. -/
def spanOf (kind : Char → Bool) (input : Input) : List Char × Input :=
  let (taken, rest) := input.span fun g => kind g.char
  (taken.map Glyph.char, rest)

/-- What follows the characters of a kind. -/
def skip (kind : Char → Bool) (input : Input) : Input :=
  input.dropWhile fun g => kind g.char

/-- Does a line begin here that starts with three of the characters, and then a blank or the end of
the line? -/
def atMarker (c : Char) : Input → Bool
  | x :: y :: z :: rest =>
    x.column == 0 && x.char == c && y.char == c && z.char == c && atWordEnd rest
  | _ => false

/-- Does a line begin here that starts or ends a document? -/
def atDocumentMarker (input : Input) : Bool :=
  input.atMarker '-' || input.atMarker '.'

/-- The rest of a line that may hold nothing but blanks and a comment, taken away with its
line break. -/
def endLine? (input : Input) : Option Input :=
  let rest := input.skip isBlank
  let rest := if rest.startsWith '#' then rest.skip (!isBreak ·) else rest
  match rest with
  | [] => some []
  | g :: rest => if isBreak g.char then some rest else none

end Input

end DepositSync.Yaml
