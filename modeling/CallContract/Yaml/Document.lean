import CallContract.Yaml.Node.Reader
import CallContract.Yaml.Scalar
import CallContract.Yaml.Token.Lexer

/-!
# Documents as JSON

`Yaml.ofString?` reads the only document of a text, and `Document.toJson?` its value: keys are the texts of scalars,
the last of several equal ones counts, local tags are refused, and collections may stand 128 deep. How often aliases
are followed is bounded by the size of the document, so that no text grows without measure.
-/

namespace CallContract.Yaml

/-- The document of a text: failure when the text is malformed or holds several, and nothing when it holds none. -/
def ofString? (text : String) : Option (Option Document) :=
  (Token.readAll? text.toList).bind Document.ofTokens?

namespace Document

/-- A step of reading values, which may fail and which may follow so many aliases. -/
abbrev Valuation := StateT Nat Option

/-- The node itself, or the one it is an alias of. -/
def followOnce (d : Document) (node : Node) : Valuation Node := do
  match node with
  | .aliasOf _ =>
    match ← get with
    | 0 => failure
    | jumps + 1 =>
      set jumps
      StateT.lift (d.follow node)
  | node => return node

/-- The text of a key. -/
def keyText (d : Document) (node : Node) : Valuation String := do
  match ← d.followOnce node with
  | .scalar _ _ text => return text
  | _ => failure

/-- A tag that a collection may have. -/
def admitsTag (tag : Option String) : Bool :=
  !(tag.any Scalar.isLocalTag)

/-- The value of a node with at most so many collections inside one another. -/
def jsonOf (d : Document) : (depth : Nat) → Node → Valuation Json
  | 0, node => do
    match ← d.followOnce node with
    | .scalar tag plain text => StateT.lift (Scalar.toJson? tag plain text)
    | _ => failure
  | depth + 1, node => do
    match ← d.followOnce node with
    | .scalar tag plain text => StateT.lift (Scalar.toJson? tag plain text)
    | .sequence tag items =>
      if !admitsTag tag then failure
      return .array (← items.mapM (jsonOf d depth))
    | .mapping tag pairs =>
      if !admitsTag tag then failure
      let members ← pairs.mapM fun (pair : Node × Node) => do
        let key ← d.keyText pair.1
        let value ← jsonOf d depth pair.2
        return (key, value)
      return .ofMembers members
    | .aliasOf _ => failure

/-- The value of a document. -/
def toJson? (d : Document) : Option Json :=
  (d.jsonOf maxDepth d.root).run' d.maxJumps

end Document

/-- The value of a text; a text without a document is null. -/
def toJson? (text : String) : Option Json :=
  (ofString? text).bind fun document =>
    match document with
    | some d => d.toJson?
    | none => some .null

end CallContract.Yaml
