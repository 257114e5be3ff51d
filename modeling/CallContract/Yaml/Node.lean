/-!
# Nodes of YAML

A document is a node: a scalar, a sequence, a mapping, or an alias of an anchored node. Anchors are numbers. A tag is
kept with its handle expanded.

A `Document` is a node together with the nodes that its anchors stand for and the number of events it is made of, a
collection counting twice, which bounds how often aliases may be followed.
-/

namespace CallContract.Yaml

/-- A node. -/
inductive Node where
  | scalar (tag : Option String) (plain : Bool) (text : String)
  | sequence (tag : Option String) (items : List Node)
  | mapping (tag : Option String) (pairs : List (Node × Node))
  | aliasOf (anchor : Nat)
  deriving Inhabited

/-- The scalar that stands where nothing is written. -/
def Node.empty : Node :=
  .scalar none true ""

/-- A document. -/
structure Document where
  root : Node
  anchored : List (Nat × Node)
  events : Nat

namespace Document

/-- The most collections that may stand inside one another where values are read. -/
def maxDepth : Nat := 128

/-- How often aliases may be followed. -/
def maxJumps (d : Document) : Nat :=
  100 * d.events

/-- The node itself, or the one it is an alias of. -/
def follow (d : Document) : Node → Option Node
  | .aliasOf anchor => d.anchored.lookup anchor
  | node => some node

end Document

end CallContract.Yaml
