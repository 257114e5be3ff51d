import CallContract.Yaml.Character
import CallContract.Yaml.Token

/-!
# Block scalars

A block scalar is a header line and the lines below it that are indented deep enough. The header may say what becomes
of the line breaks at the end (chomping) and how deep the lines are indented; otherwise the first line that is not
empty decides, or an emptier line above it that is longer. A literal scalar keeps its line breaks, a folded one joins
two lines that start with a word.
-/

namespace CallContract.Yaml.BlockScalar

/-- What becomes of the line breaks at the end of a block scalar. -/
inductive Chomping where
  /-- None stays. -/
  | strip
  /-- The first one stays. -/
  | clip
  /-- All stay. -/
  | keep
  deriving DecidableEq

/-- What a header says. -/
structure Header where
  chomping : Chomping := .clip
  indent : Option Nat := none

/-! ## Header -/

/-- The chomping that a sign asks for. -/
def chomping? (c : Char) : Option Chomping :=
  if c = '+' then some .keep else if c = '-' then some .strip else none

/-- An indentation from one to nine; zero is refused. -/
def indentDigit? (c : Char) : Option (Option Nat) :=
  if c = '0' then none else some (some (Text.decimalDigit c))

/-- The two signs of a header in either order, each at most once, and the rest of the line. -/
def readSigns? : List Char → Option (Header × List Char)
  | [] => some ({}, [])
  | c :: cs =>
    match chomping? c with
    | some chomping => match cs with
      | d :: rest =>
        if d.isDigit then (indentDigit? d).map fun indent => ({ chomping, indent }, rest)
        else some ({ chomping }, cs)
      | [] => some ({ chomping }, [])
    | none =>
      if c.isDigit then (indentDigit? c).map fun indent =>
        match cs with
        | d :: rest => match chomping? d with
          | some chomping => ({ chomping, indent }, rest)
          | none => ({ indent }, cs)
        | [] => ({ indent }, [])
      else some ({}, c :: cs)

/-- The rest of a line after blanks, and after a comment. -/
def dropLine (cs : List Char) : List Char :=
  match cs.dropWhile isBlank with
  | '#' :: rest => rest.dropWhile (!isBreak ·)
  | rest => rest

/-- The header after its indicator, up to and with its line break, and the lines below. -/
def readHeader? (cs : List Char) : Option (Header × List Char) := do
  let (header, rest) ← readSigns? cs
  match dropLine rest with
  | [] => some (header, [])
  | c :: below => if isBreak c then some (header, below) else none

/-! ## Lines -/

/-- Where reading stands: the indentation once it is known, the longest run of spaces before that, the column, whether
a line's content is being read, the text so far with the break before it and those of empty lines (latest first),
whether the last line started with a blank, and the number of characters passed. -/
structure Progress where
  indent : Option Nat
  longest : Nat := 0
  column : Nat := 0
  inLine : Bool := false
  text : List Char := []
  lineBreak : Option Char := none
  emptyLines : List Char := []
  startedBlank : Bool := false
  width : Nat := 0

/-- The scalar when its lines end here. -/
def Progress.finish (chomping : Chomping) (p : Progress) : Lexeme String :=
  let lineBreak := if chomping = .strip then [] else p.lineBreak.toList
  let emptyLines := if chomping = .keep then p.emptyLines else []
  ⟨String.ofList (emptyLines ++ (lineBreak ++ p.text)).reverse, p.width⟩

/-- Inside the margin, where spaces are indentation. -/
def Progress.inMargin (p : Progress) : Bool :=
  match p.indent with
  | some indent => decide (p.column < indent)
  | none => true

/-- The first character of a line. -/
def Progress.startLine (folds : Bool) (p : Progress) (c : Char) : Progress :=
  let blank := isBlank c
  let joins := folds && p.lineBreak == some '\n' && !p.startedBlank && !blank
  let joint := if joins then (if p.emptyLines.isEmpty then [' '] else []) else p.lineBreak.toList
  { p with
    column := p.column + 1, inLine := true, text := c :: (p.emptyLines ++ (joint ++ p.text))
    lineBreak := none, emptyLines := [], startedBlank := blank, width := p.width + 1 }

/-- Reads on. The content is indented `least` columns at the least where the header does not say how many. -/
def readFrom (folds : Bool) (chomping : Chomping) (least : Nat) (p : Progress) : List Char → Option (Lexeme String)
  | [] => some (p.finish chomping)
  | c :: cs =>
    let passed := { p with column := p.column + 1, width := p.width + 1 }
    if p.inLine then
      if isBreak c then
        readFrom folds chomping least
          { p with column := 0, inLine := false, lineBreak := some c, width := p.width + 1 } cs
      else readFrom folds chomping least { passed with text := c :: p.text } cs
    else if p.inMargin && c == ' ' then readFrom folds chomping least passed cs
    else if p.inMargin && c == '\t' then none
    else if isBreak c then
      readFrom folds chomping least
        { p with
          column := 0, longest := max p.longest p.column, emptyLines := c :: p.emptyLines, width := p.width + 1 } cs
    else
      let indent := p.indent.getD (max (max p.longest p.column) least)
      if p.column = indent then readFrom folds chomping least ({ p with indent := some indent }.startLine folds c) cs
      else some (p.finish chomping)

/-- The block scalar in front of a text, without its indicator, which counts as one character. Its lines are indented
deeper than `parentIndent`, which is negative outside of all blocks. -/
def read? (folds : Bool) (parentIndent : Int) (cs : List Char) : Option (Lexeme String) := do
  let (header, below) ← readHeader? cs
  let least := max (parentIndent + 1).toNat 1
  let indent := header.indent.map fun n => if 0 ≤ parentIndent then parentIndent.toNat + n else n
  readFrom folds header.chomping least { indent, width := 1 + (cs.length - below.length) } below

end CallContract.Yaml.BlockScalar
