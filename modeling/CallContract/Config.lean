import CallContract.Json.Basic

/-!
# Configuration

What a validation can be configured with: where its documentation stands and how a report attributes a mismatch.
-/

namespace CallContract

/-- How a report attributes a mismatch. -/
inductive Indexing where
  /-- Every position is looked at, and an entry describes its own argument. -/
  | consistent
  /-- An entry describes the argument after its own, and the position of that argument is not looked at. -/
  | legacy
  deriving DecidableEq, Inhabited

namespace Indexing

/-- The name of an indexing. -/
def name : Indexing → String
  | .consistent => "consistent"
  | .legacy => "legacy"

/-- The indexing with a name. -/
def ofName? (name : String) : Option Indexing :=
  [.consistent, .legacy].find? (·.name == name)

end Indexing

/-- The configuration of a validation. -/
structure Config where
  /-- The root of the documentation that exceptions link to. -/
  docsUrl : String := "https://docs.rs/argcheck-core"
  /-- How a report attributes a mismatch. -/
  indexing : Indexing := .consistent
  deriving DecidableEq, Inhabited

/-- The configuration as JSON. -/
def Config.toJson (c : Config) : Json :=
  .object [("docs_url", .string c.docsUrl), ("indexing", .string c.indexing.name)]

end CallContract
