import CallContract.Text.Digit

/-!
# Characters of YAML

The classes of characters that the other modules of YAML speak of. A text is read after its line breaks have been
made uniform (`Yaml.uniformBreaks`): carriage returns and U+0085 become line feeds, the separators U+2028 and U+2029
stay what they are.
-/

namespace CallContract.Yaml

/-- A space or a tab. -/
def isBlank (c : Char) : Bool :=
  c == ' ' || c == '\t'

/-- A line break. -/
def isBreak (c : Char) : Bool :=
  c == '\n' || c == '\r' || c == '\x85' || c == '\u2028' || c == '\u2029'

/-- The rest of a text starts with a blank or a line break, or is empty. -/
def atGap : List Char → Bool
  | [] => true
  | c :: _ => isBlank c || isBreak c

/-- The rest of a text starts with a line break, or is empty. -/
def atLineEnd : List Char → Bool
  | [] => true
  | c :: _ => isBreak c

/-- A character of an anchor, a directive or a tag handle. -/
def isWordChar (c : Char) : Bool :=
  c.isAlphanum || c == '_' || c == '-'

/-- A character that a text may hold; control characters stand only as escapes. -/
def isAdmitted (c : Char) : Bool :=
  let n := c.toNat
  n == 0x09 || n == 0x0A || n == 0x0D || (0x20 ≤ n && n ≤ 0x7E) || n == 0x85 || (0xA0 ≤ n && n ≤ 0xD7FF) ||
    (0xE000 ≤ n && n ≤ 0xFFFD) || 0x10000 ≤ n

/-- The text with line feeds for carriage returns, pairs of both, and U+0085. -/
def uniformBreaks : List Char → List Char
  | [] => []
  | '\r' :: '\n' :: cs => '\n' :: uniformBreaks cs
  | c :: cs => (if c = '\r' ∨ c = '\x85' then '\n' else c) :: uniformBreaks cs

/-- A line that starts here is a marker between documents: three hyphens or three full stops before a gap. -/
def isMarker (mark : Char) : List Char → Bool
  | a :: b :: c :: rest => a == mark && b == mark && c == mark && atGap rest
  | _ => false

/-- A line that starts here is a marker of either kind. -/
def atMarker (cs : List Char) : Bool :=
  isMarker '-' cs || isMarker '.' cs

/-- The number that the first `count` characters write in hexadecimal digits. -/
def hexNumber? (count : Nat) (cs : List Char) : Option Nat :=
  if cs.length < count then none else Text.natural? 16 (cs.take count)

end CallContract.Yaml
