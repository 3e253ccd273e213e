import DepositSync.Json.Numeral
import DepositSync.Text.Hex
import DepositSync.Text.Utf8

/-!
# DepositSync.Json.Tree

A JSON document as far as it can be read. Reading never fails: where the text stops being JSON,
the tree holds a `Stop`, and nothing behind that place is in the tree. Whoever takes values out
of the tree in document order therefore meets a wrong value and the end of the readable part in
the order in which the text has them, and the first of the two decides the error.

Some checks depend on what a value is used for. A string that is kept must pair its surrogates and
be well-formed UTF-8, and a number that is kept must not exceed the largest double; a value that is
skipped need not. So strings and numbers stay as written, and `Stop.cutWord` and `Stop.cutNumeral`
are kept apart from the other stops.
-/

namespace DepositSync.Json

open Text (Symbol)

/-- Why reading stopped. -/
inductive Stop where
  /-- The text ended. -/
  | truncated
  /-- The text is not JSON. -/
  | malformed
  /-- The text ended inside a word: it ends early for all but those who want no word here. -/
  | cutWord
  /-- The text ended inside a number: it ends early for one who wants the number, and is not JSON
  for one who skips it. -/
  | cutNumeral
  deriving DecidableEq, Repr, Inhabited

/-- How a string, an array or an object ends. -/
inductive Ending where
  /-- With its closing mark. -/
  | closed
  /-- Nowhere: reading stopped inside it. -/
  | stopped (why : Stop)
  deriving DecidableEq, Repr, Inhabited

/-- One item of a string. -/
inductive Piece where
  /-- A character, as itself or as a letter escape. -/
  | char (c : Char)
  /-- A sixteen-bit unit given by number. -/
  | unit (n : Nat)
  /-- Bytes that are not UTF-8. -/
  | stray
  deriving DecidableEq, Repr, Inhabited

/-- A string as written. -/
structure RawString where
  pieces : List Piece
  ending : Ending
  deriving DecidableEq, Repr, Inhabited

/-- A document, or a part of one. -/
inductive Tree where
  | null
  | bool (b : Bool)
  | number (n : Numeral)
  | string (s : RawString)
  | array (items : List Tree) (ending : Ending)
  | object (members : List (RawString × Tree)) (ending : Ending)
  /-- No value: reading stopped where one should begin, or inside a word or a number. -/
  | unread (why : Stop)
  deriving Repr, Inhabited

/-- Where reading a part of the document stopped, if it did. -/
def Tree.stop? : Tree → Option Stop
  | .string s => match s.ending with
    | .closed => none
    | .stopped why => some why
  | .array _ ending => match ending with
    | .closed => none
    | .stopped why => some why
  | .object _ ending => match ending with
    | .closed => none
    | .stopped why => some why
  | .unread why => some why
  | .null | .bool _ | .number _ => none

/-! ### Blanks and words -/

/-- Is the symbol one of the four blanks of JSON? -/
def isSpace : Symbol → Bool
  | .char c => c == ' ' || c == '\n' || c == '\t' || c == '\r'
  | .stray _ => false

/-- The text from its first symbol that is no blank. -/
def skipSpace (input : List Symbol) : List Symbol :=
  input.dropWhile isSpace

/-- The rest of a word whose first letter has been seen. -/
def word (value : Tree) : List Char → List Symbol → Tree × List Symbol
  | [], input => (value, input)
  | _ :: _, [] => (.unread .cutWord, [])
  | c :: cs, s :: input =>
    if s = .char c then word value cs input else (.unread .malformed, s :: input)

/-! ### Numbers -/

/-- The digits at the front of the text, and what follows them. -/
def spanDigits : List Symbol → List Char × List Symbol
  | .char c :: input =>
    if c.isDigit then
      let (ds, rest) := spanDigits input
      (c :: ds, rest)
    else ([], .char c :: input)
  | input => ([], input)

/-- What stops a number that lacks a digit here. -/
def digitStop : List Symbol → Stop
  | [] => .cutNumeral
  | _ :: _ => .malformed

/-- The exponent of a number, if one follows. -/
def readExponent (n : Numeral) (input : List Symbol) : Tree × List Symbol :=
  let digits (sign : List Char) (input : List Symbol) : Tree × List Symbol :=
    match spanDigits input with
    | ([], rest) => (.unread (digitStop rest), rest)
    | (ds, rest) => (.number { n with exponent := sign ++ ds }, rest)
  let marked (input : List Symbol) : Tree × List Symbol := match input with
    | .char '+' :: input => digits ['+'] input
    | .char '-' :: input => digits ['-'] input
    | input => digits [] input
  match input with
  | .char 'e' :: input => marked input
  | .char 'E' :: input => marked input
  | input => (.number n, input)

/-- The number at the front of the text, whose sign has been seen. A leading zero stands alone. -/
def readNumber (negative : Bool) (input : List Symbol) : Tree × List Symbol :=
  match spanDigits input with
  | ([], rest) => (.unread (digitStop rest), rest)
  | ('0' :: _ :: _, rest) => (.unread .malformed, rest)
  | (whole, rest) =>
    match rest with
    | .char '.' :: rest =>
      match spanDigits rest with
      | ([], rest) => (.unread (digitStop rest), rest)
      | (fraction, rest) => readExponent ⟨negative, whole, fraction, []⟩ rest
    | rest => readExponent ⟨negative, whole, [], []⟩ rest

/-! ### Strings -/

/-- The character a letter escape stands for. -/
def escaped? : Char → Option Char
  | '\x22' => some '\x22'
  | '\\' => some '\\'
  | '/' => some '/'
  | 'b' => some '\x08'
  | 'f' => some '\x0c'
  | 'n' => some '\n'
  | 'r' => some '\r'
  | 't' => some '\t'
  | _ => none

/-- A unit given by four hexadecimal digits. Four bytes must be there before they are looked at. -/
def readUnit (input : List Symbol) : Except Stop (Nat × List Symbol) :=
  if ((input.take 4).flatMap Symbol.bytes).length < 4 then .error .truncated
  else match (input.take 4).mapM Symbol.char? with
    | none => .error .malformed
    | some cs => match Text.hexNumber? cs with
      | none => .error .malformed
      | some n => .ok (n, input.drop 4)

/-- The string whose opening quote has been seen. -/
def readString (pieces : List Piece) : (fuel : Nat) → List Symbol → RawString × List Symbol
  | 0, input => (⟨pieces.reverse, .stopped .malformed⟩, input)
  | _ + 1, [] => (⟨pieces.reverse, .stopped .truncated⟩, [])
  | fuel + 1, .stray _ :: input => readString (.stray :: pieces) fuel input
  | fuel + 1, .char c :: input =>
    if c = '\x22' then (⟨pieces.reverse, .closed⟩, input)
    else if c = '\\' then
      match input with
      | [] => (⟨pieces.reverse, .stopped .truncated⟩, [])
      | .char 'u' :: input =>
        match readUnit input with
        | .error why => (⟨pieces.reverse, .stopped why⟩, input)
        | .ok (n, rest) => readString (.unit n :: pieces) fuel rest
      | .char e :: input =>
        match escaped? e with
        | some c => readString (.char c :: pieces) fuel input
        | none => (⟨pieces.reverse, .stopped .malformed⟩, input)
      | .stray bs :: input => (⟨pieces.reverse, .stopped .malformed⟩, .stray bs :: input)
    else if c.toNat < 0x20 then (⟨pieces.reverse, .stopped .malformed⟩, .char c :: input)
    else readString (.char c :: pieces) fuel input

/-- The string whose opening quote has been seen. -/
def stringAt (input : List Symbol) : RawString × List Symbol :=
  readString [] (input.length + 1) input

/-! ### Values -/

mutual

/-- The value at the front of the text. Each level of nesting and each further item takes one unit
of fuel. -/
def readValue : (fuel : Nat) → List Symbol → Tree × List Symbol
  | 0, input => (.unread .malformed, input)
  | fuel + 1, input =>
    match skipSpace input with
    | [] => (.unread .truncated, [])
    | .stray bs :: rest => (.unread .malformed, .stray bs :: rest)
    | .char c :: rest =>
      if c = '\x7b' then readMembers fuel true [] rest
      else if c = '[' then readItems fuel true [] rest
      else if c = '\x22' then
        let (s, rest) := stringAt rest
        (.string s, rest)
      else if c = 'n' then word .null ['u', 'l', 'l'] rest
      else if c = 't' then word (.bool true) ['r', 'u', 'e'] rest
      else if c = 'f' then word (.bool false) ['a', 'l', 's', 'e'] rest
      else if c = '-' then readNumber true rest
      else if c.isDigit then readNumber false (.char c :: rest)
      else (.unread .malformed, .char c :: rest)

/-- The items of an array that are still to come, behind those in `items`; `first` tells that
there are none yet. -/
def readItems (fuel : Nat) (first : Bool) (items : List Tree) (input : List Symbol) :
    Tree × List Symbol :=
  match fuel with
  | 0 => (.array items.reverse (.stopped .malformed), input)
  | fuel + 1 =>
    let item (input : List Symbol) : Tree × List Symbol :=
      let (t, rest) := readValue fuel input
      match t.stop? with
      | some why => (.array (t :: items).reverse (.stopped why), rest)
      | none => readItems fuel false (t :: items) rest
    match skipSpace input with
    | [] => (.array items.reverse (.stopped .truncated), [])
    | s :: rest =>
      if s = .char ']' then (.array items.reverse .closed, rest)
      else if first then item (s :: rest)
      else if s = .char ',' then
        match skipSpace rest with
        | .char ']' :: rest => (.array items.reverse (.stopped .malformed), .char ']' :: rest)
        | rest => item rest
      else (.array items.reverse (.stopped .malformed), s :: rest)

/-- The members of an object that are still to come, behind those in `members`; `first` tells that
there are none yet. A member whose key cannot be read is a member all the same, with a key that
has no end; where another value stands in the place of the key, it becomes the member's value. -/
def readMembers (fuel : Nat) (first : Bool) (members : List (RawString × Tree))
    (input : List Symbol) : Tree × List Symbol :=
  match fuel with
  | 0 => (.object members.reverse (.stopped .malformed), input)
  | fuel + 1 =>
    let lastMember (key : RawString) (t : Tree) (why : Stop) (rest : List Symbol) :
        Tree × List Symbol :=
      (.object ((key, t) :: members).reverse (.stopped why), rest)
    let member (input : List Symbol) : Tree × List Symbol :=
      match skipSpace input with
      | .char '\x22' :: rest =>
        let (key, rest) := stringAt rest
        match key.ending with
        | .stopped why => lastMember key (.unread why) why rest
        | .closed =>
          match skipSpace rest with
          | [] => lastMember key (.unread .truncated) .truncated []
          | .char ':' :: rest =>
            let (t, rest) := readValue fuel rest
            match t.stop? with
            | some why => lastMember key t why rest
            | none => readMembers fuel false ((key, t) :: members) rest
          | rest => lastMember key (.unread .malformed) .malformed rest
      | [] => lastMember ⟨[], .stopped .truncated⟩ (.unread .truncated) .truncated []
      | rest =>
        let (t, rest) := readValue fuel rest
        lastMember ⟨[], .stopped .malformed⟩ t .malformed rest
    match skipSpace input with
    | [] => (.object members.reverse (.stopped .truncated), [])
    | s :: rest =>
      if s = .char '\x7d' then (.object members.reverse .closed, rest)
      else if first then member (s :: rest)
      else if s = .char ',' then member rest
      else (.object members.reverse (.stopped .malformed), s :: rest)

end

/-! ### Documents -/

/-- A whole text: its value, and whether anything but blanks follows it. -/
structure Document where
  root : Tree
  trailing : Bool
  deriving Repr, Inhabited

/-- Reads decoded input. -/
def Document.ofSymbols (input : List Symbol) : Document :=
  let (root, rest) := readValue (2 * input.length + 2) input
  ⟨root, !(skipSpace rest).isEmpty⟩

/-- Reads a text. -/
def Document.ofText (s : String) : Document :=
  .ofSymbols (Text.symbols s.toList)

/-- Reads bytes. -/
def Document.ofBytes (bs : List UInt8) : Document :=
  .ofSymbols (Text.Utf8.decode bs)

end DepositSync.Json
