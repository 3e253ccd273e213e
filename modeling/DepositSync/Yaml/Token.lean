/-!
# DepositSync.Yaml.Token

The tokens of a YAML text. Indentation has become tokens of its own: a block collection has a
token where it starts and one where it ends, as a flow collection has its brackets.
-/

namespace DepositSync.Yaml

/-- How a scalar is written. -/
inductive Style where
  | plain
  /-- Between single or double quotes. -/
  | quoted
  /-- As a block whose line breaks are kept. -/
  | literal
  /-- As a block whose line breaks are folded. -/
  | folded
  deriving DecidableEq, Repr, Inhabited

/-- A tag as written: a handle, which stands for the beginning of the tag, and the rest of it. A tag
that is written in full has no handle. -/
structure ShortTag where
  handle : String
  rest : String
  deriving DecidableEq, Repr, Inhabited

/-- A token. -/
inductive Token where
  /-- The version of the format a document is in. -/
  | version (major minor : Nat)
  /-- What a handle stands for in the tags of a document. -/
  | tagHandle (handle beginning : String)
  /-- A line of three hyphens. -/
  | documentStart
  /-- A line of three full stops. -/
  | documentEnd
  | blockSequenceStart
  | blockMappingStart
  /-- The end of the innermost block collection. -/
  | blockEnd
  | flowSequenceStart
  | flowSequenceEnd
  | flowMappingStart
  | flowMappingEnd
  /-- The hyphen before an item of a block sequence. -/
  | blockEntry
  /-- The comma between the items of a flow collection. -/
  | flowEntry
  /-- What follows is a key. -/
  | key
  /-- What follows is the value of the key before. -/
  | value
  /-- A node that was given a name before. -/
  | alias (name : String)
  /-- A name for the node that follows. -/
  | anchor (name : String)
  /-- A tag for the node that follows. -/
  | tag (t : ShortTag)
  | scalar (style : Style) (text : String)
  deriving DecidableEq, Repr, Inhabited

end DepositSync.Yaml
