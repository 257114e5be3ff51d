/-!
# Tokens of YAML

A text is a sequence of tokens. Indentation shows as starts and ends of blocks; a key that is recognised only by the
colon behind it has its token put in front of it.
-/

namespace CallContract.Yaml

/-- The smallest parts of a YAML text. -/
inductive Token where
  /-- The version a document is written in. -/
  | version (major minor : Nat)
  /-- An abbreviation for tags. -/
  | tagShorthand (handle expansion : String)
  | documentStart
  | documentEnd
  | blockSequenceStart
  | blockMappingStart
  | blockEnd
  | flowSequenceStart
  | flowSequenceEnd
  | flowMappingStart
  | flowMappingEnd
  | blockEntry
  | flowEntry
  | key
  | value
  | aliasOf (name : String)
  | anchor (name : String)
  | tag (handle suffix : String)
  /-- A scalar; only one that is neither quoted nor a block is plain. -/
  | scalar (plain : Bool) (text : String)
  deriving DecidableEq

/-- A value read from the front of a text, and the number of characters it takes. -/
structure Lexeme (α : Type) where
  value : α
  width : Nat

end CallContract.Yaml
