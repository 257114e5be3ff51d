import CallContract.Yaml.Character
import CallContract.Yaml.Token
import CallContract.Yaml.Token.Folding

/-!
# Plain scalars

A plain scalar goes on over blanks and line breaks until something ends it: a colon before a gap, a comment, a line
that is indented too little, a marker between documents, or a bracket or comma inside a flow collection.
-/

namespace CallContract.Yaml

/-- A plain scalar, and whether it was ended behind a line break. -/
structure PlainScalar where
  text : String
  endsOnNewLine : Bool

namespace PlainScalar

/-- Where reading stands: column, text and gap so far (latest first), and the number of characters passed. -/
structure Progress where
  column : Nat
  text : List Char := []
  gap : Gap := .none
  width : Nat := 0

/-- The scalar as far as it was read. -/
def Progress.finish (p : Progress) : Lexeme PlainScalar :=
  ⟨⟨String.ofList p.text.reverse, p.gap.isLines⟩, p.width⟩

/-- One more blank. -/
def Progress.passBlank (p : Progress) (c : Char) : Progress :=
  { p with column := p.column + 1, gap := p.gap.addBlank c, width := p.width + 1 }

/-- One more line break. -/
def Progress.passBreak (p : Progress) (c : Char) : Progress :=
  { p with column := 0, gap := p.gap.addBreak c, width := p.width + 1 }

/-- One more character of a word. -/
def Progress.passChar (p : Progress) (c : Char) : Progress :=
  { column := p.column + 1, text := c :: (p.gap.folded ++ p.text), gap := .none, width := p.width + 1 }

/-- A bracket, a brace or a comma. -/
def isFlowIndicator (c : Char) : Bool :=
  c == ',' || c == '[' || c == ']' || c == '\x7b' || c == '\x7d'

/-- What ends the scalar behind a gap: too little indentation in a block, a marker, a comment. -/
def endsAfterGap (inFlow : Bool) (indent : Int) (p : Progress) (cs : List Char) : Bool :=
  !p.gap.isNone &&
    ((!inFlow && decide ((p.column : Int) < indent)) || (p.column == 0 && atMarker cs) || cs.head? == some '#')

/-- What ends the scalar anywhere: a colon before a gap, and in a flow collection its punctuation. -/
def endsHere (inFlow : Bool) : List Char → Bool
  | [] => true
  | c :: cs => (c == ':' && atGap cs) || (inFlow && isFlowIndicator c)

/-- A colon directly before the punctuation of a flow collection is refused. -/
def isRefused (inFlow : Bool) : List Char → Bool
  | ':' :: c :: _ => inFlow && (isFlowIndicator c || c == '?')
  | _ => false

/-- Reads on. The scalar needs `indent` columns in a block; a tab must not stand in for them. -/
def readFrom (inFlow : Bool) (indent : Int) (p : Progress) : List Char → Option (Lexeme PlainScalar)
  | [] => some p.finish
  | c :: cs =>
    if isBlank c then
      if p.gap.isLines && decide ((p.column : Int) < indent) && c == '\t' then none
      else readFrom inFlow indent (p.passBlank c) cs
    else if isBreak c then readFrom inFlow indent (p.passBreak c) cs
    else if endsAfterGap inFlow indent p (c :: cs) then some p.finish
    else if isRefused inFlow (c :: cs) then none
    else if endsHere inFlow (c :: cs) then some p.finish
    else readFrom inFlow indent (p.passChar c) cs

/-- The plain scalar in front of a text. -/
def read? (inFlow : Bool) (indent : Int) (column : Nat) (cs : List Char) : Option (Lexeme PlainScalar) :=
  readFrom inFlow indent { column } cs

end PlainScalar

end CallContract.Yaml
