/-!
# Folding of lines

Inside plain and quoted scalars the blanks and line breaks between two words are a `Gap`. Blanks on one line are kept;
of a gap over several lines only the breaks count: a single break becomes a space, and of several the first is
dropped. A separator U+2028 or U+2029 in the place of the first break is kept.
-/

namespace CallContract.Yaml

/-- The blanks and line breaks since the last character of a word, latest first. -/
inductive Gap where
  /-- Nothing. -/
  | none
  /-- Blanks on the same line. -/
  | blanks (blanks : List Char)
  /-- Line breaks; the first is absent when it was escaped. -/
  | lines (first : Option Char) (more : List Char)

namespace Gap

/-- One more blank. -/
def addBlank (c : Char) : Gap → Gap
  | .none => .blanks [c]
  | .blanks cs => .blanks (c :: cs)
  | .lines first more => .lines first more

/-- One more line break. -/
def addBreak (c : Char) : Gap → Gap
  | .lines first more => .lines first (c :: more)
  | _ => .lines (some c) []

/-- Whether the gap goes over a line break. -/
def isLines : Gap → Bool
  | .lines .. => true
  | _ => false

/-- There is no gap. -/
def isNone : Gap → Bool
  | .none => true
  | _ => false

/-- What the gap leaves in the scalar, latest character first. -/
def folded : Gap → List Char
  | .none => []
  | .blanks cs => cs
  | .lines (some '\n') [] => [' ']
  | .lines (some '\n') more => more
  | .lines first more => more ++ first.toList

end Gap

end CallContract.Yaml
