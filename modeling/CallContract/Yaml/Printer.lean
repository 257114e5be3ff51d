import CallContract.Yaml.Character
import CallContract.Yaml.Scalar

/-!
# Printing YAML

A string is written in the first of four styles that gives it back: as a literal block when it holds a line feed,
plain when nothing in it could be taken for something else, in single quotes, and in double quotes, which can write
everything. `Yaml.scalarChars` writes a string behind a key or a hyphen; the lines of a string that goes over several
are indented by two spaces.
-/

namespace CallContract.Yaml

/-! ## What a string holds -/

/-- A character that is written as it is: no control character but the line feed, no byte order mark, and nothing
beyond the basic plane. -/
def isPrintable (c : Char) : Bool :=
  let n := c.toNat
  n == 0x0A || (0x20 ≤ n && n ≤ 0x7E) || (0xA0 ≤ n && n ≤ 0xD7FF) || (0xE000 ≤ n && n ≤ 0xFFFD && n != 0xFEFF)

/-- A space behind which a line break comes, or the other way around. -/
def hasPair (first second : Char → Bool) (cs : List Char) : Bool :=
  (cs.zip (cs.drop 1)).any fun (a, b) => first a && second b

/-- A space. -/
def isSpace (c : Char) : Bool := c == ' '

/-- The characters that start something else than a plain scalar wherever they are its first. -/
def leadingIndicators : List Char :=
  "#,[]\x7b\x7d&*!|>'\"%@\x60".toList

/-- The first character, or a marker of documents, would be taken for an indicator. -/
def startsLikeIndicator : List Char → Bool
  | '-' :: '-' :: '-' :: _ => true
  | '.' :: '.' :: '.' :: _ => true
  | c :: rest => leadingIndicators.contains c || ((c == '?' || c == ':' || c == '-') && atGap rest)
  | [] => false

/-- A colon before a gap, or a number sign behind one, stands after the first character. -/
def holdsIndicator : List Char → Bool
  | a :: b :: rest => (b == ':' && atGap rest) || (b == '#' && (isBlank a || isBreak a)) || holdsIndicator (b :: rest)
  | _ => false

/-- A blank or a break at either end. -/
def hasOuterGap (cs : List Char) : Bool :=
  cs.head?.any (fun c => isSpace c || isBreak c) || cs.getLast?.any (fun c => isSpace c || isBreak c)

/-- All characters may be written as they are, and no line ends in a space. -/
def admitsLines (cs : List Char) : Bool :=
  cs.all isPrintable && !hasPair isSpace isBreak cs

/-- The string can be written plain. -/
def admitsPlain (cs : List Char) : Bool :=
  !startsLikeIndicator cs && !holdsIndicator cs && !hasOuterGap cs && cs.all isPrintable && !cs.any isBreak

/-- The string can be written in single quotes. -/
def admitsSingle (cs : List Char) : Bool :=
  admitsLines cs && !hasPair isBreak isSpace cs

/-- The string can be written as a literal block. -/
def admitsLiteral (cs : List Char) : Bool :=
  admitsLines cs && !(cs.getLast?.any isSpace)

/-! ## Styles -/

/-- The indentation of further lines. -/
def indentation : List Char := [' ', ' ']

/-- Characters with the indentation in front of each one that follows a line break. -/
def indentLines (afterBreak : Bool) : List Char → List Char
  | [] => []
  | c :: cs =>
    if isBreak c then c :: indentLines true cs
    else (if afterBreak then indentation else []) ++ c :: indentLines false cs

/-- Single quotes around the string, those inside doubled. -/
def singleQuoted (cs : List Char) : List Char :=
  let doubled := cs.flatMap fun c => if c = '\'' then ['\'', '\''] else [c]
  '\'' :: indentLines false doubled ++ (if cs.getLast?.any isBreak then indentation else []) ++ ['\'']

/-- The digits of a code in upper case, so many as asked for. -/
def upperHex : (digits : Nat) → Nat → List Char
  | 0, _ => []
  | digits + 1, n => upperHex digits (n / 16) ++ [(Nat.digitChar (n % 16)).toUpper]

/-- A character that is not written as it is, behind a backslash. -/
def escaped (c : Char) : List Char :=
  if c = '\x00' then ['0']
  else if c = '\x07' then ['a']
  else if c = '\x08' then ['b']
  else if c = '\t' then ['t']
  else if c = '\n' then ['n']
  else if c = '\x0b' then ['v']
  else if c = '\x0c' then ['f']
  else if c = '\r' then ['r']
  else if c = '\x1b' then ['e']
  else if c = '"' ∨ c = '\\' then [c]
  else if c = '\x85' then ['N']
  else if c = '\u2028' then ['L']
  else if c = '\u2029' then ['P']
  else if c.toNat ≤ 0xFF then 'x' :: upperHex 2 c.toNat
  else if c.toNat ≤ 0xFFFF then 'u' :: upperHex 4 c.toNat
  else 'U' :: upperHex 8 c.toNat

/-- Double quotes around the string, with escapes inside. -/
def doubleQuoted (cs : List Char) : List Char :=
  let escapes (c : Char) := !isPrintable c || isBreak c || c == '"' || c == '\\'
  '"' :: (cs.flatMap fun c => if escapes c then '\\' :: escaped c else [c]) ++ ['"']

/-- The header of a literal block: the indentation is named when the first line starts with a blank, and a sign says
whether the string ends without a line break or with more than one. -/
def literalHeader (cs : List Char) : List Char :=
  let indent := if cs.head?.any (fun c => isSpace c || isBreak c) then ['2'] else []
  let chomping := match cs.reverse with
    | [] => ['-']
    | [c] => if isBreak c then ['+'] else ['-']
    | c :: d :: _ => if isBreak c then (if isBreak d then ['+'] else []) else ['-']
  '|' :: indent ++ chomping

/-- A literal block. -/
def literal (cs : List Char) : List Char :=
  literalHeader cs ++ '\n' :: indentLines true cs

/-- A string behind a key or a hyphen. -/
def scalarChars (text : String) : List Char :=
  let cs := text.toList
  if cs.contains '\n' then if admitsLiteral cs then literal cs else doubleQuoted cs
  else if !Scalar.isAmbiguous text && admitsPlain cs then cs
  else if admitsSingle cs then singleQuoted cs
  else doubleQuoted cs

/-- A line break unless the text ends in one. -/
def endLine (cs : List Char) : List Char :=
  if cs.getLast?.any isBreak then cs else cs ++ ['\n']

/-- A key with a string. -/
def stringEntry (key value : String) : List Char :=
  endLine (key.toList ++ ':' :: ' ' :: scalarChars value)

/-- A key with a list of strings, which stand below it without an indentation of their own. -/
def stringsEntry (key : String) (values : List String) : List Char :=
  key.toList ++ ':' :: '\n' :: values.flatMap fun value => endLine ('-' :: ' ' :: scalarChars value)

end CallContract.Yaml
