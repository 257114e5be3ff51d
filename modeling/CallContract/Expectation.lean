import CallContract.Json.Basic
import CallContract.Text.Blank
import CallContract.Value.Kind

/-!
# Expectations

An expectation says which kinds of value a position accepts. It is written as words from a vocabulary of six, joined
by `|`, and is nothing but the list of these words: `Expectation.parse` reads the text, `Expectation.raw` gives it
back.
-/

namespace CallContract

/-- A word of the vocabulary. -/
inductive TypeTag where
  | object
  | function
  | string
  | number
  | boolean
  | any
  deriving DecidableEq, Inhabited

namespace TypeTag

/-- The vocabulary. -/
def all : List TypeTag :=
  [.object, .function, .string, .number, .boolean, .any]

/-- How a word is spelled. -/
def spelling : TypeTag → String
  | .object => "object"
  | .function => "function"
  | .string => "string"
  | .number => "number"
  | .boolean => "boolean"
  | .any => "*"

/-- The word with a spelling. -/
def ofSpelling? (s : String) : Option TypeTag :=
  all.find? (·.spelling == s)

/-- Whether a value of the kind satisfies the word. -/
def accepts : TypeTag → Kind → Bool
  | .any, _ => true
  | .object, k => k == .object
  | .function, k => k == .function
  | .string, k => k == .string
  | .number, k => k == .number
  | .boolean, k => k == .boolean

end TypeTag

/-- A list of alternatives, at least one. -/
structure Expectation where
  first : TypeTag
  others : List TypeTag
  deriving DecidableEq, Inhabited

/-- Why a text, or a list of texts, is not an expectation. -/
inductive Expectation.Error where
  /-- The list is empty. -/
  | missing
  /-- A segment is not a word of the vocabulary. -/
  | malformed (segment : String)
  deriving DecidableEq

/-- The message of an error. -/
def Expectation.Error.message : Expectation.Error → String
  | .missing => "Expectations are required."
  | .malformed segment => "A malformed string of expectation was detected - `" ++ segment ++ "`."

namespace Expectation

/-- The character between alternatives. -/
def separator : Char := '|'

/-- The alternatives in order. -/
def tags (e : Expectation) : List TypeTag :=
  e.first :: e.others

/-- The text of the expectation. -/
def raw (e : Expectation) : String :=
  (String.singleton separator).intercalate (e.tags.map TypeTag.spelling)

/-- Whether some alternative accepts everything. -/
def isWildcard (e : Expectation) : Bool :=
  e.tags.contains .any

/-- Whether some alternative accepts the kind. -/
def accepts (e : Expectation) (k : Kind) : Bool :=
  e.tags.any (·.accepts k)

/-- The expectation as JSON. -/
def toJson (e : Expectation) : Json :=
  .object [("raw", .string e.raw), ("tags", .strings (e.tags.map TypeTag.spelling))]

/-! ## Reading -/

/-- The word of a segment. -/
def readTag (segment : String) : Except Error TypeTag :=
  match TypeTag.ofSpelling? segment with
  | some tag => .ok tag
  | none => .error (.malformed segment)

/-- The expectation that a text writes; otherwise the first segment that is no word. -/
def parse (text : String) : Except Error Expectation :=
  match Text.pieces separator text with
  | [] => .error (.malformed text)
  | piece :: pieces => do
    let first ← readTag piece
    let others ← pieces.mapM readTag
    pure ⟨first, others⟩

/-- The expectations that a list of texts writes, one for each position. -/
def parseList (texts : List String) : Except Error (List Expectation) :=
  if texts.isEmpty then .error .missing else texts.mapM parse

/-- Expectations as a list to be read by people. -/
def render (expectations : List Expectation) : String :=
  ", ".intercalate (expectations.map raw)

end Expectation

end CallContract
