import CallContract.Yaml.Character
import CallContract.Yaml.Token
import CallContract.Yaml.Token.Folding

/-!
# Quoted scalars

Between single quotes only a doubled quote is special. Between double quotes a backslash starts an escape; at the end
of a line it also swallows the break. Both fold their lines, and neither may hold a marker between documents at the
start of a line.
-/

namespace CallContract.Yaml.QuotedScalar

/-- Where reading stands: column, text and gap so far (latest first), the number of characters passed, and how many
of the next ones have been dealt with. -/
structure Progress where
  column : Nat
  text : List Char := []
  gap : Gap := .none
  width : Nat := 0
  ahead : Nat := 0

/-- A character already dealt with. -/
def Progress.pass (p : Progress) (c : Char) : Progress :=
  { p with column := if isBreak c then 0 else p.column + 1, width := p.width + 1, ahead := p.ahead - 1 }

/-- One more blank. -/
def Progress.passBlank (p : Progress) (c : Char) : Progress :=
  { p with column := p.column + 1, gap := p.gap.addBlank c, width := p.width + 1 }

/-- One more line break. -/
def Progress.passBreak (p : Progress) (c : Char) : Progress :=
  { p with column := 0, gap := p.gap.addBreak c, width := p.width + 1 }

/-- One character that stands for `c`, and `ahead` more that belong to it. -/
def Progress.passChar (p : Progress) (c : Char) (ahead : Nat) : Progress :=
  { column := p.column + 1, text := c :: (p.gap.folded ++ p.text), gap := .none, width := p.width + 1, ahead }

/-- A backslash at the end of a line, and the break that belongs to it. -/
def Progress.passEscapedBreak (p : Progress) : Progress :=
  { column := p.column + 1, text := p.gap.folded ++ p.text, gap := .lines none [], width := p.width + 1, ahead := 1 }

/-- The scalar, closing quote included. -/
def Progress.finish (p : Progress) : Lexeme String :=
  ⟨String.ofList (p.gap.folded ++ p.text).reverse, p.width + 1⟩

/-- The character with a code, unless it is a surrogate or too large. -/
def charOfCode? (n : Nat) : Option Char :=
  if n.isValidChar then some (Char.ofNat n) else none

/-- An escape with a code of `digits` hexadecimal digits, and how many characters follow the backslash. -/
def codeEscape? (digits : Nat) (cs : List Char) : Option (Char × Nat) :=
  ((hexNumber? digits cs).bind charOfCode?).map fun c => (c, digits + 1)

/-- The character that an escape stands for, and how many characters follow the backslash. -/
def escape? : List Char → Option (Char × Nat)
  | [] => none
  | c :: cs =>
    if c = '0' then some ('\x00', 1)
    else if c = 'a' then some ('\x07', 1)
    else if c = 'b' then some ('\x08', 1)
    else if c = 't' ∨ c = '\t' then some ('\t', 1)
    else if c = 'n' then some ('\n', 1)
    else if c = 'v' then some ('\x0b', 1)
    else if c = 'f' then some ('\x0c', 1)
    else if c = 'r' then some ('\r', 1)
    else if c = 'e' then some ('\x1b', 1)
    else if c = ' ' ∨ c = '"' ∨ c = '/' ∨ c = '\\' then some (c, 1)
    else if c = 'N' then some ('\x85', 1)
    else if c = '_' then some ('\xa0', 1)
    else if c = 'L' then some ('\u2028', 1)
    else if c = 'P' then some ('\u2029', 1)
    else if c = 'x' then codeEscape? 2 cs
    else if c = 'u' then codeEscape? 4 cs
    else if c = 'U' then codeEscape? 8 cs
    else none

/-- Reads on up to the closing quote. -/
def readFrom (double : Bool) (p : Progress) : List Char → Option (Lexeme String)
  | [] => none
  | c :: cs =>
    if 0 < p.ahead then readFrom double (p.pass c) cs
    else if isBlank c then readFrom double (p.passBlank c) cs
    else if isBreak c then readFrom double (p.passBreak c) cs
    else if p.column = 0 && atMarker (c :: cs) then none
    else if c = (if double then '"' else '\'') then
      if !double && cs.head? == some '\'' then readFrom double (p.passChar '\'' 1) cs
      else some p.finish
    else if double && c == '\\' then
      if !cs.isEmpty && atLineEnd cs then readFrom double p.passEscapedBreak cs
      else match escape? cs with
        | some (e, ahead) => readFrom double (p.passChar e ahead) cs
        | none => none
    else readFrom double (p.passChar c 0) cs

/-- The quoted scalar in front of a text, without its opening quote, which counts as one character. -/
def read? (double : Bool) (column : Nat) (cs : List Char) : Option (Lexeme String) :=
  readFrom double { column := column + 1, width := 1 } cs

end CallContract.Yaml.QuotedScalar
