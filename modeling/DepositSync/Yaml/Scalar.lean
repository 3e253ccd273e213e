import DepositSync.Text.Hex
import DepositSync.Yaml.Input

/-!
# DepositSync.Yaml.Scalar

The four ways to write a scalar: plain, between quotes, and as a block of lines that are kept or
folded. Inside a plain or quoted scalar a line break counts as one space, and of several line
breaks in a row the first does not count.
-/

namespace DepositSync.Yaml

open Text (hexNumber?)

/-! ### Folding -/

/-- What a run of line breaks stands for. -/
def foldBreaks : List Char → List Char
  | ['\n'] => [' ']
  | '\n' :: more => more
  | breaks => breaks

/-- What a run of blanks and line breaks between two parts of a scalar stands for. Blanks next to a
line break do not count. -/
def foldWhite (white : List Char) : List Char :=
  let breaks := white.filter isBreak
  if breaks.isEmpty then white else foldBreaks breaks

/-! ### Plain scalars -/

/-- The marks that mean something in a flow collection. -/
def flowMarks : List Char := [',', '[', ']', '\x7b', '\x7d']

/-- The characters of a plain scalar up to the next blank, line break or mark that ends it. In a
flow collection a colon may not stand directly before a mark. -/
def plainWord? (inFlow : Bool) : Input → Option (List Char × Input)
  | [] => some ([], [])
  | g :: rest =>
    if isWhite g.char then some ([], g :: rest)
    else if g.char = ':' ∧ inFlow ∧ (Input.char? rest).any ('?' :: flowMarks).contains then none
    else if g.char = ':' ∧ Input.atWordEnd rest then some ([], g :: rest)
    else if inFlow ∧ flowMarks.contains g.char then some ([], g :: rest)
    else (plainWord? inFlow rest).map fun (cs, rest) => (g.char :: cs, rest)

/-- A plain scalar that has been read, and whether the line was left after it. -/
structure Plain where
  text : List Char
  leftLine : Bool
  rest : Input

/-- The rest of a plain scalar: `text` is what came before, `white` the blanks after that.
A line that is indented less than `indent` is no part of it. -/
def plainFrom (inFlow : Bool) (indent : Nat) (text white : List Char) :
    (fuel : Nat) → Input → Option Plain
  | 0, _ => none
  | fuel + 1, input => do
    let leftLine := white.any isBreak
    if input.atDocumentMarker || input.startsWith '#' then return ⟨text, leftLine, input⟩
    let (word, rest) ← plainWord? inFlow input
    if word.isEmpty then return ⟨text, leftLine, rest⟩
    let text := text ++ foldWhite white ++ word
    let (gap, rest) := rest.span fun g => isWhite g.char
    if gap.isEmpty then return ⟨text, false, rest⟩
    let indentation := gap.dropWhile fun g => !isBreak g.char
    if indentation.any fun g => g.char == '\t' && g.column < indent then none
    let white := gap.map Glyph.char
    if !inFlow && rest.head?.any (·.column < indent) then
      return ⟨text, white.any isBreak, rest⟩
    plainFrom inFlow indent text white fuel rest

/-- The plain scalar at the front of the text. -/
def plain? (inFlow : Bool) (indent : Nat) (input : Input) : Option Plain :=
  plainFrom inFlow indent [] [] (input.length + 1) input

/-! ### Quoted scalars -/

/-- The character a letter escape stands for. -/
def escaped? : Char → Option Char
  | '0' => some (Char.ofNat 0)
  | 'a' => some (Char.ofNat 0x07)
  | 'b' => some (Char.ofNat 0x08)
  | 't' => some '\t'
  | '\t' => some '\t'
  | 'n' => some '\n'
  | 'v' => some (Char.ofNat 0x0B)
  | 'f' => some (Char.ofNat 0x0C)
  | 'r' => some '\r'
  | 'e' => some (Char.ofNat 0x1B)
  | ' ' => some ' '
  | '\x22' => some '\x22'
  | '/' => some '/'
  | '\\' => some '\\'
  | 'N' => some (Char.ofNat 0x85)
  | '_' => some (Char.ofNat 0xA0)
  | 'L' => some (Char.ofNat 0x2028)
  | 'P' => some (Char.ofNat 0x2029)
  | _ => none

/-- How many hexadecimal digits follow the letter of a numeric escape. -/
def escapeLength? : Char → Option Nat
  | 'x' => some 2
  | 'u' => some 4
  | 'U' => some 8
  | _ => none

/-- The character an escape stands for whose backslash has been seen. -/
def escape? : Input → Option (Char × Input)
  | [] => none
  | g :: rest =>
    match escaped? g.char, escapeLength? g.char with
    | some c, _ => some (c, rest)
    | none, some length => do
      let digits := (rest.take length).map Glyph.char
      let n ← hexNumber? digits
      if digits.length = length ∧ n.isValidChar then some (Char.ofNat n, rest.drop length)
      else none
    | none, none => none

/-- The rest of a quoted scalar. Only between double quotes is there an escape, one of them for a
line break that does not count. -/
def quotedFrom (quote : Char) : (fuel : Nat) → Input → Option (List Char × Input)
  | 0, _ => none
  | _ + 1, [] => none
  | fuel + 1, g :: rest =>
    let continueWith (cs : List Char) (rest : Input) : Option (List Char × Input) :=
      (quotedFrom quote fuel rest).map fun (more, rest) => (cs ++ more, rest)
    if Input.atDocumentMarker (g :: rest) then none
    else if g.char = quote then
      if quote = '\'' ∧ Input.startsWith quote rest then continueWith [quote] (rest.drop 1)
      else some ([], rest)
    else if g.char = '\\' ∧ quote ≠ '\'' then
      if (Input.char? rest).any isBreak then
        let (white, rest) := Input.spanOf isWhite (rest.drop 1)
        continueWith (white.filter isBreak) rest
      else match escape? rest with
        | some (c, rest) => continueWith [c] rest
        | none => none
    else if isWhite g.char then
      let (white, rest) := Input.spanOf isWhite (g :: rest)
      continueWith (foldWhite white) rest
    else continueWith [g.char] rest

/-- The quoted scalar at the front of the text. -/
def quoted? : Input → Option (List Char × Input)
  | [] => none
  | g :: rest => quotedFrom g.char (rest.length + 1) rest

/-! ### Block scalars -/

/-- What becomes of the line breaks at the end of a block. -/
inductive Chomping where
  /-- All go. -/
  | strip
  /-- One stays. -/
  | clip
  /-- All stay. -/
  | keep
  deriving DecidableEq, Repr, Inhabited

/-- What the first line of a block scalar says. -/
structure BlockHeader where
  chomping : Chomping
  /-- How far the block is indented, if that is said. -/
  indentation : Option Nat
  deriving DecidableEq, Repr, Inhabited

/-- The way of chomping at the front of the text. -/
def chomping? : Input → Option (Chomping × Input)
  | [] => none
  | g :: rest =>
    if g.char = '-' then some (.strip, rest)
    else if g.char = '+' then some (.keep, rest)
    else none

/-- The indentation at the front of the text: a digit that is not zero. -/
def indentation? : Input → Option (Option Nat × Input)
  | [] => some (none, [])
  | g :: rest =>
    if g.char = '0' then none
    else if g.char.isDigit then some (some (g.char.toNat - 48), rest)
    else some (none, g :: rest)

/-- The first line of a block scalar behind its mark: chomping and indentation in either order. -/
def blockHeader? (input : Input) : Option (BlockHeader × Input) := do
  match chomping? input with
  | some (chomping, rest) =>
    let (indentation, rest) ← indentation? rest
    return (⟨chomping, indentation⟩, ← rest.endLine?)
  | none =>
    let (indentation, rest) ← indentation? input
    match indentation, chomping? rest with
    | some _, some (chomping, rest) => return (⟨chomping, indentation⟩, ← rest.endLine?)
    | _, _ => return (⟨.clip, indentation⟩, ← rest.endLine?)

/-- The empty lines at the front: their line breaks, the deepest column that their blanks reach,
and what follows. With an indentation, blanks beyond it are no longer empty space. -/
def emptyLines? (indent : Option Nat) (deepest : Nat) : Input → Option (List Char × Nat × Input)
  | [] => some ([], deepest, [])
  | g :: rest =>
    let within := indent.all (g.column < ·)
    if within && g.char == ' ' then emptyLines? indent (max deepest (g.column + 1)) rest
    else if within && g.char == '\t' then none
    else if isBreak g.char then
      (emptyLines? indent deepest rest).map fun (breaks, deepest, rest) =>
        (g.char :: breaks, deepest, rest)
    else some ([], deepest, g :: rest)

/-- A line of a block: its text behind the indentation, its line break, and the line breaks of the
empty lines after it. -/
structure BlockLine where
  text : List Char
  lineBreak : List Char
  emptyAfter : List Char
  deriving Repr, Inhabited

/-- The lines of a block with a given indentation. -/
def blockLines? (indent : Nat) : (fuel : Nat) → Input → Option (List BlockLine × Input)
  | 0, _ => none
  | fuel + 1, input =>
    if input.head?.any (·.column == indent) then do
      let (text, rest) := input.spanOf (!isBreak ·)
      let (emptyAfter, _, after) ← emptyLines? (some indent) 0 (rest.drop 1)
      let (lines, after) ← blockLines? indent fuel after
      return (⟨text, rest.char?.toList, emptyAfter⟩ :: lines, after)
    else some ([], input)

/-- Does the line begin with a blank? -/
def BlockLine.isIndented (l : BlockLine) : Bool :=
  l.text.head?.any isBlank

/-- What stands between two lines of a block. A folded line break is a space, or nothing before
empty lines; next to a line that begins with a blank nothing is folded. -/
def BlockLine.between (folded : Bool) (l next : BlockLine) : List Char :=
  if folded && l.lineBreak == ['\n'] && !l.isIndented && !next.isIndented then
    if l.emptyAfter.isEmpty then [' '] else l.emptyAfter
  else l.lineBreak ++ l.emptyAfter

/-- The text of the lines of a block. -/
def joinLines (folded : Bool) (chomping : Chomping) : List BlockLine → List Char
  | [] => []
  | [l] => l.text ++ match chomping with
    | .strip => []
    | .clip => l.lineBreak
    | .keep => l.lineBreak ++ l.emptyAfter
  | l :: next :: rest => l.text ++ l.between folded next ++ joinLines folded chomping (next :: rest)

/-- The text of a block that begins with empty lines. -/
def blockText (folded : Bool) (chomping : Chomping) (emptyBefore : List Char)
    (lines : List BlockLine) : List Char :=
  if lines.isEmpty && chomping != .keep then []
  else emptyBefore ++ joinLines folded chomping lines

/-- The block scalar behind its mark, in a collection that is indented to `parent`. Where its
first line does not say how far it is indented, its first line of text does. -/
def block? (folded : Bool) (parent : Option Nat) (input : Input) :
    Option (List Char × Input) := do
  let (header, rest) ← blockHeader? input
  let stated := header.indentation.map fun n => parent.getD 0 + n
  let (emptyBefore, deepest, rest) ← emptyLines? stated 0 rest
  let least := (parent.map (· + 1)).getD 1
  let (lines, rest) ← blockLines? (stated.getD (max deepest least)) (rest.length + 1) rest
  return (blockText folded header.chomping emptyBefore lines, rest)

end DepositSync.Yaml
