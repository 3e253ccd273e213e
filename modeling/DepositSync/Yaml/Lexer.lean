import DepositSync.Text.Utf8
import DepositSync.Yaml.Scalar
import DepositSync.Yaml.Token

/-!
# DepositSync.Yaml.Lexer

A YAML text as a list of tokens. That something was a key shows only when its colon is met; so the
lexer remembers where a key may have begun, one place for each flow collection it is in, and puts
the key's token there afterwards. Such a place is given up when the line ends, or after 1024
characters.

Every token takes at least one character, which bounds the number of steps.
-/

namespace DepositSync.Yaml

/-- A place where a key may have begun. -/
structure PendingKey where
  /-- Can nothing but a key stand there? -/
  required : Bool
  /-- How many tokens come before it. -/
  position : Nat
  line : Nat
  column : Nat
  deriving DecidableEq, Repr, Inhabited

/-- The state of reading. -/
structure Lexer where
  input : Input
  /-- The tokens so far, the last one first. -/
  tokens : List Token
  /-- The columns of the open block collections, the innermost first. -/
  indents : List Nat
  /-- Where a key may have begun in the innermost flow collection. -/
  pending : Option PendingKey
  /-- The same for the collections around it, down to the block that is outside of all of them. -/
  outer : List (Option PendingKey)
  /-- May a key begin here? -/
  keyAllowed : Bool
  deriving Repr, Inhabited

namespace Lexer

/-- The state before anything is read. -/
def start (input : Input) : Lexer :=
  ⟨input, [], [], none, [], true⟩

/-- Is the place inside a flow collection? -/
def inFlow (s : Lexer) : Bool :=
  !s.outer.isEmpty

/-- The column of the innermost block collection. -/
def indent? (s : Lexer) : Option Nat :=
  s.indents.head?

/-- Adds a token. -/
def push (t : Token) (s : Lexer) : Lexer :=
  { s with tokens := t :: s.tokens }

/-- Adds a token behind the first `position` ones. -/
def insertAt (position : Nat) (t : Token) (s : Lexer) : Lexer :=
  { s with tokens := s.tokens.insertIdx (s.tokens.length - position) t }

/-- Passes over characters. -/
def drop (n : Nat) (s : Lexer) : Lexer :=
  { s with input := s.input.drop n }

/-! ### Keys -/

/-- A key may be this many characters long. -/
def maxKeyLength : Nat := 1024

/-- Is it too late for the key's colon? -/
def PendingKey.isStale (k : PendingKey) (input : Input) : Bool :=
  match input with
  | [] => true
  | g :: _ => k.line < g.line || k.column + maxKeyLength < g.column

/-- Gives up a place for a key; that fails if nothing else can stand there. -/
def giveUp? : Option PendingKey → Option (Option PendingKey)
  | some k => if k.required then none else some none
  | none => some none

/-- Gives up the places that the colon has come too late for. -/
def dropStale? (s : Lexer) : Option Lexer := do
  let check (k : Option PendingKey) : Option (Option PendingKey) :=
    if k.any (PendingKey.isStale · s.input) then giveUp? k else some k
  return { s with pending := ← check s.pending, outer := ← s.outer.mapM check }

/-- Gives up the innermost place. -/
def dropPending? (s : Lexer) : Option Lexer := do
  return { s with pending := ← giveUp? s.pending }

/-- Remembers this place, if a key may begin here. -/
def markKey? (s : Lexer) : Option Lexer :=
  match s.input with
  | [] => some s
  | g :: _ =>
    if s.keyAllowed then do
      let s ← s.dropPending?
      let required := !s.inFlow && s.indent? == some g.column
      return { s with pending := some ⟨required, s.tokens.length, g.line, g.column⟩ }
    else some s

/-! ### Indentation -/

/-- Ends the block collections that are indented deeper than the column. -/
def closeFrom (column : Nat) : List Nat → List Token → List Nat × List Token
  | [], tokens => ([], tokens)
  | i :: rest, tokens =>
    if column < i then closeFrom column rest (.blockEnd :: tokens) else (i :: rest, tokens)

/-- Ends the block collections that the place is no longer inside of. -/
def unindentTo (column : Nat) (s : Lexer) : Lexer :=
  if s.inFlow then s
  else
    let (indents, tokens) := closeFrom column s.indents s.tokens
    { s with indents := indents, tokens := tokens }

/-- Ends all block collections. -/
def unindent (s : Lexer) : Lexer :=
  if s.inFlow then s
  else { s with indents := [], tokens := s.indents.map (fun _ => .blockEnd) ++ s.tokens }

/-- Starts a block collection at a column, if there is none at that column already. -/
def indentTo (column position : Nat) (t : Token) (s : Lexer) : Lexer :=
  if s.inFlow || s.indent?.any (column ≤ ·) then s
  else { s.insertAt position t with indents := column :: s.indents }

/-- The column of the next character. -/
def column (s : Lexer) : Nat :=
  (s.input.head?.map Glyph.column).getD 0

/-! ### Blanks -/

/-- Passes over blanks, comments and line breaks. In a block, a tab may not stand where a key may
begin, and a key may begin on a new line. -/
def passBlanks (inFlow comment keyAllowed : Bool) : Input → Bool × Input
  | [] => (keyAllowed, [])
  | g :: rest =>
    if isBreak g.char then passBlanks inFlow false (keyAllowed || !inFlow) rest
    else if comment then passBlanks inFlow true keyAllowed rest
    else if g.char = ' ' ∨ (g.char = '\t' ∧ (inFlow ∨ !keyAllowed)) ∨
        (g.char = byteOrderMark ∧ g.line = 0 ∧ g.column = 0) then
      passBlanks inFlow false keyAllowed rest
    else if g.char = '#' then passBlanks inFlow true keyAllowed rest
    else (keyAllowed, g :: rest)

/-- Passes over what stands between two tokens. -/
def toNextToken (s : Lexer) : Lexer :=
  let (keyAllowed, input) := passBlanks s.inFlow false s.keyAllowed s.input
  { s with keyAllowed := keyAllowed, input := input }

/-! ### Tags -/

/-- May the character stand in a tag? -/
def isTagChar (c : Char) : Bool :=
  isNameChar c || [';', '/', '?', ':', '@', '&', '=', '+', '$', '.', '%', '!', '~', '*', '\'', '(',
    ')'].contains c

/-- May the character stand in a tag that is written in full? -/
def isFullTagChar (c : Char) : Bool :=
  isTagChar c || [',', '[', ']'].contains c

/-- The bytes of a tag, in which a percent sign and two digits stand for one. -/
def tagBytes? : List Char → Option (List UInt8)
  | [] => some []
  | '%' :: a :: b :: rest => do
    let n ← Text.hexNumber? [a, b]
    return UInt8.ofNat n :: (← tagBytes? rest)
  | '%' :: _ => none
  | c :: rest => (tagBytes? rest).map (String.utf8EncodeChar c ++ ·)

/-- The text of a tag or of a part of one. -/
def tagText? (cs : List Char) : Option String := do
  Text.Utf8.text? (← tagBytes? cs)

/-- The handle at the front of a tag, and whether an exclamation mark closes it. -/
def handle? : Input → Option (List Char × Bool × Input)
  | [] => none
  | g :: rest =>
    if g.char = '!' then
      let (name, rest) := Input.spanOf isNameChar rest
      if rest.startsWith '!' then some ('!' :: name ++ ['!'], true, rest.drop 1)
      else some ('!' :: name, false, rest)
    else none

/-- The tag at the front of the text: in full between angle brackets, or a handle and the rest. A
lone exclamation mark is a tag of its own. -/
def shortTag? (input : Input) : Option (ShortTag × Input) := do
  if Input.startsWith '<' (input.drop 1) then
    let (cs, rest) := Input.spanOf isFullTagChar (input.drop 2)
    if cs.isEmpty || !rest.startsWith '>' then none
    return (⟨"", ← tagText? cs⟩, rest.drop 1)
  else
    let (handle, closed, rest) ← handle? input
    let (cs, rest) := rest.spanOf isTagChar
    if closed then
      if cs.isEmpty then none
      return (⟨String.ofList handle, ← tagText? cs⟩, rest)
    else
      let text ← tagText? (handle.drop 1 ++ cs)
      return (if text.isEmpty then ⟨"", "!"⟩ else ⟨"!", text⟩, rest)

/-! ### Directives -/

/-- A version number has at most this many digits. -/
def maxVersionDigits : Nat := 9

/-- The part of a version number at the front of the text. -/
def versionPart? (input : Input) : Option (Nat × Input) := do
  let (digits, rest) := input.spanOf Char.isDigit
  if maxVersionDigits < digits.length then none
  return (← Text.digits? digits, rest)

/-- The directive whose percent sign has been seen. -/
def directive? (input : Input) : Option (Token × Input) := do
  let (name, rest) := input.spanOf isNameChar
  if !rest.atWordEnd then none
  let rest := rest.skip isBlank
  match String.ofList name with
  | "YAML" =>
    let (major, rest) ← versionPart? rest
    if !rest.startsWith '.' then none
    let (minor, rest) ← versionPart? (rest.drop 1)
    return (.version major minor, ← rest.endLine?)
  | "TAG" =>
    let (handle, closed, rest) ← handle? rest
    if !closed && handle.length != 1 then none
    if !rest.char?.any isBlank then none
    let (cs, rest) := (rest.skip isBlank).spanOf isFullTagChar
    if cs.isEmpty || !rest.atWordEnd then none
    return (.tagHandle (String.ofList handle) (← tagText? cs), ← rest.endLine?)
  | _ => none

/-! ### Tokens -/

/-- The name of an anchor or an alias at the front of the text. -/
def name? (input : Input) : Option (String × Input) :=
  let (name, rest) := input.spanOf isNameChar
  let ends := rest.atWordEnd ||
    rest.char?.any ['?', ':', ',', ']', '\x7d', '%', '@', Char.ofNat 96].contains
  if name.isEmpty || !ends then none else some (String.ofList name, rest)

/-- A line that starts or ends a document. -/
def documentMarker? (t : Token) (s : Lexer) : Option Lexer := do
  let s ← s.unindent.dropPending?
  return { (s.push t).drop 3 with keyAllowed := false }

/-- A directive. -/
def readDirective? (s : Lexer) : Option Lexer := do
  let s ← s.unindent.dropPending?
  let (t, rest) ← directive? (s.input.drop 1)
  return { s.push t with input := rest, keyAllowed := false }

/-- The opening bracket of a flow collection. -/
def openFlow? (t : Token) (s : Lexer) : Option Lexer := do
  let s ← s.markKey?
  return { (s.push t).drop 1 with
    outer := s.pending :: s.outer, pending := none, keyAllowed := true }

/-- The closing bracket of a flow collection. -/
def closeFlow? (t : Token) (s : Lexer) : Option Lexer := do
  let s ← s.dropPending?
  let s := { (s.push t).drop 1 with keyAllowed := false }
  match s.outer with
  | [] => return s
  | k :: outer => return { s with pending := k, outer := outer }

/-- The comma of a flow collection. -/
def flowComma? (s : Lexer) : Option Lexer := do
  let s ← s.dropPending?
  return { (s.push .flowEntry).drop 1 with keyAllowed := true }

/-- The hyphen of a block sequence. -/
def hyphen? (s : Lexer) : Option Lexer := do
  if !s.inFlow && !s.keyAllowed then none
  let s := s.indentTo s.column s.tokens.length .blockSequenceStart
  let s ← s.dropPending?
  return { (s.push .blockEntry).drop 1 with keyAllowed := true }

/-- The question mark before a key. -/
def questionMark? (s : Lexer) : Option Lexer := do
  if !s.inFlow && !s.keyAllowed then none
  let s := s.indentTo s.column s.tokens.length .blockMappingStart
  let s ← s.dropPending?
  return { (s.push .key).drop 1 with keyAllowed := !s.inFlow }

/-- The colon between a key and its value. -/
def colon? (s : Lexer) : Option Lexer :=
  match s.pending with
  | some k =>
    let s := (s.insertAt k.position .key).indentTo k.column k.position .blockMappingStart
    some { (s.push .value).drop 1 with pending := none, keyAllowed := false }
  | none =>
    if !s.inFlow && !s.keyAllowed then none
    else
      let s := s.indentTo s.column s.tokens.length .blockMappingStart
      some { (s.push .value).drop 1 with keyAllowed := !s.inFlow }

/-- An alias or an anchor. -/
def named? (token : String → Token) (s : Lexer) : Option Lexer := do
  let s ← s.markKey?
  let (name, rest) ← name? (s.input.drop 1)
  return { s.push (token name) with input := rest, keyAllowed := false }

/-- A tag. -/
def tag? (s : Lexer) : Option Lexer := do
  let s ← s.markKey?
  let (t, rest) ← shortTag? s.input
  if !(rest.atWordEnd || (s.inFlow && rest.startsWith ',')) then none
  return { s.push (.tag t) with input := rest, keyAllowed := false }

/-- A block scalar. -/
def blockScalar? (folded : Bool) (s : Lexer) : Option Lexer := do
  let s ← s.dropPending?
  let (text, rest) ← block? folded s.indent? (s.input.drop 1)
  let style : Style := if folded then .folded else .literal
  return { s.push (.scalar style (String.ofList text)) with input := rest, keyAllowed := true }

/-- A quoted scalar. -/
def quotedScalar? (s : Lexer) : Option Lexer := do
  let s ← s.markKey?
  let (text, rest) ← quoted? s.input
  return { s.push (.scalar .quoted (String.ofList text)) with input := rest, keyAllowed := false }

/-- A plain scalar. -/
def plainScalar? (s : Lexer) : Option Lexer := do
  let s ← s.markKey?
  let p ← plain? s.inFlow ((s.indent?.map (· + 1)).getD 0) s.input
  return { s.push (.scalar .plain (String.ofList p.text)) with
    input := p.rest, keyAllowed := p.leftLine }

/-- The marks that a plain scalar cannot begin with. -/
def marks : List Char :=
  ['-', '?', ':', ',', '[', ']', '\x7b', '\x7d', '#', '&', '*', '!', '|', '>', '\'', '\x22', '%',
    '@', Char.ofNat 96]

/-- Can a plain scalar begin with the character, `rest` being what follows it? -/
def startsPlain (inFlow : Bool) (c : Char) (rest : Input) : Bool :=
  !(isWhite c || marks.contains c) || (c == '-' && !rest.char?.any isBlank) ||
    (!inFlow && (c == '?' || c == ':') && !rest.atWordEnd)

/-- Reads the token that begins with the character, `rest` being what follows it. -/
def read? (g : Glyph) (rest : Input) (s : Lexer) : Option Lexer :=
  let c := g.char
  let alone := s.inFlow || rest.atWordEnd
  if g.column = 0 ∧ c = '%' then s.readDirective?
  else if s.input.atMarker '-' then s.documentMarker? .documentStart
  else if s.input.atMarker '.' then s.documentMarker? .documentEnd
  else if c = '[' then s.openFlow? .flowSequenceStart
  else if c = '\x7b' then s.openFlow? .flowMappingStart
  else if c = ']' then s.closeFlow? .flowSequenceEnd
  else if c = '\x7d' then s.closeFlow? .flowMappingEnd
  else if c = ',' then s.flowComma?
  else if c = '-' ∧ rest.atWordEnd then s.hyphen?
  else if c = '?' ∧ alone then s.questionMark?
  else if c = ':' ∧ alone then s.colon?
  else if c = '*' then s.named? .alias
  else if c = '&' then s.named? .anchor
  else if c = '!' then s.tag?
  else if c = '|' ∧ !s.inFlow then s.blockScalar? false
  else if c = '>' ∧ !s.inFlow then s.blockScalar? true
  else if c = '\'' ∨ c = '\x22' then s.quotedScalar?
  else if startsPlain s.inFlow c rest then s.plainScalar?
  else none

/-- The tokens up to the end of the text. -/
def run? : (fuel : Nat) → Lexer → Option (List Token)
  | 0, _ => none
  | fuel + 1, s => do
    let s ← s.toNextToken.dropStale?
    match s.input with
    | [] =>
      let s ← s.unindent.dropPending?
      return s.tokens.reverse
    | g :: rest =>
      let s ← (s.unindentTo g.column).read? g rest
      run? fuel s

end Lexer

/-- The tokens of a text, if it can be read. -/
def tokens? (s : String) : Option (List Token) := do
  let input ← Input.ofText? s
  Lexer.run? (input.length + 1) (.start input)

end DepositSync.Yaml
