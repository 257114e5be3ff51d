import CallContract.Yaml.Token.Block
import CallContract.Yaml.Token.Plain
import CallContract.Yaml.Token.Quoted
import CallContract.Yaml.Token.Tag

/-!
# Reading tokens

`Token.readAll?` walks over a text once. Between two tokens it skips blanks, comments and line breaks; at the start of
a token it closes the blocks that the column is too small for, reads the token, and passes its characters.

Whether a token starts a key shows only at a later colon on the same line. A `KeyCandidate` remembers where the token
stands; there is one for the block or flow collection under way and one for each that surrounds it. A candidate that
its block needs as a key must be followed by a colon.

The state holds no position in the text but the column, so that a text is read alike wherever it starts.
-/

namespace CallContract.Yaml

/-- A token that turns out to start a key if a colon follows it. -/
structure KeyCandidate where
  /-- The number of tokens in front of it. -/
  position : Nat
  column : Nat
  /-- It stands where its block mapping needs a key. -/
  required : Bool

/-- A key may be at most this long. -/
def KeyCandidate.maxLength : Nat := 1024

/-- Where reading stands: the tokens so far (latest first) with their number, the column, the indentation of the
innermost block and of those around it, the key candidates of the collection under way and of those around it, and
whether a key may start here. -/
structure Lexer where
  tokens : List Token := []
  count : Nat := 0
  column : Nat := 0
  indent : Int := -1
  outerIndents : List Int := []
  candidate : Option KeyCandidate := none
  outerCandidates : List (Option KeyCandidate) := []
  keyAllowed : Bool := true

namespace Lexer

/-- Inside a flow collection. -/
def inFlow (l : Lexer) : Bool :=
  !l.outerCandidates.isEmpty

/-- One more token. -/
def emit (l : Lexer) (token : Token) : Lexer :=
  { l with tokens := token :: l.tokens, count := l.count + 1 }

/-- One more token in front of those after the first `position`. -/
def emitAt (l : Lexer) (position : Nat) (token : Token) : Lexer :=
  let later := l.count - position
  { l with tokens := l.tokens.take later ++ token :: l.tokens.drop later, count := l.count + 1 }

/-! ## Blocks -/

/-- Ends the blocks that are indented deeper than the column. -/
def closeBlocks (l : Lexer) (column : Int) : Lexer :=
  if l.inFlow then l else go l l.outerIndents
where
  go (l : Lexer) (outer : List Int) : Lexer :=
    if column < l.indent then
      match outer with
      | [] => l
      | indent :: outer => go { l.emit .blockEnd with indent, outerIndents := outer } outer
    else l

/-- Starts a block at a column that is deeper than the block under way; its token goes to the given position. -/
def openBlock (l : Lexer) (column position : Nat) (token : Token) : Lexer :=
  if l.inFlow || !decide (l.indent < (column : Int)) then l
  else { l.emitAt position token with indent := column, outerIndents := l.indent :: l.outerIndents }

/-! ## Keys -/

/-- Drops the candidate; a required one cannot be dropped. -/
def dropCandidate (l : Lexer) : Option Lexer :=
  if l.candidate.any (·.required) then none else some { l with candidate := none }

/-- Makes the token that starts here the candidate, where a key may start. -/
def saveCandidate (l : Lexer) : Option Lexer :=
  if l.keyAllowed then
    l.dropCandidate.map fun l' => { l' with
      candidate := some {
        position := l.count, column := l.column, required := !l.inFlow && decide (l.indent = (l.column : Int)) } }
  else some l

/-- Drops the candidates that fail a test; a required one cannot be dropped. -/
def keepCandidates (l : Lexer) (test : KeyCandidate → Bool) : Option Lexer :=
  let lost (candidate : Option KeyCandidate) := candidate.any fun k => k.required && !test k
  if lost l.candidate || l.outerCandidates.any lost then none
  else some { l with
    candidate := l.candidate.filter test, outerCandidates := l.outerCandidates.map (·.filter test) }

/-- Drops the candidates that are too long by now. -/
def dropLongCandidates (l : Lexer) : Option Lexer :=
  l.keepCandidates fun k => decide (l.column ≤ k.column + KeyCandidate.maxLength)

/-! ## Characters between and inside tokens -/

/-- Passes a character; no candidate survives a line break. -/
def pass (l : Lexer) (c : Char) : Option Lexer :=
  if isBreak c then ({ l with column := 0 } : Lexer).keepCandidates fun _ => false
  else some { l with column := l.column + 1 }

/-- Passes a line break between tokens, after which a key may start in a block. -/
def passLine (l : Lexer) (c : Char) : Option Lexer :=
  (l.pass c).map fun l => { l with keyAllowed := l.keyAllowed || !l.inFlow }

/-- A blank that separates tokens: a tab does so only where it cannot be taken for indentation. -/
def skips (l : Lexer) (c : Char) : Bool :=
  c == ' ' || (c == '\t' && (l.inFlow || !l.keyAllowed))

/-! ## Tokens -/

/-- The result of reading a token: the state, still at the token's first character, and the token's width. -/
abbrev Step := Option (Lexer × Nat)

/-- A marker or directive, which ends all blocks. -/
def readDocumentToken (l : Lexer) (token : Token) (width : Nat) : Step :=
  (l.closeBlocks (-1)).dropCandidate.map fun l => ({ l with keyAllowed := false }.emit token, width)

/-- The start of a flow collection, which may itself be a key. -/
def readFlowStart (l : Lexer) (token : Token) : Step :=
  l.saveCandidate.map fun l =>
    let outerCandidates := l.candidate :: l.outerCandidates
    ({ l with candidate := none, outerCandidates, keyAllowed := true }.emit token, 1)

/-- The end of a flow collection. -/
def readFlowEnd (l : Lexer) (token : Token) : Step :=
  l.dropCandidate.map fun l =>
    let l := match l.outerCandidates with
      | candidate :: outer => { l with candidate, outerCandidates := outer }
      | [] => l
    ({ l with keyAllowed := false }.emit token, 1)

/-- A comma. -/
def readFlowEntry (l : Lexer) : Step :=
  l.dropCandidate.map fun l => ({ l with keyAllowed := true }.emit .flowEntry, 1)

/-- A hyphen in front of an item. -/
def readBlockEntry (l : Lexer) : Step :=
  if !l.inFlow && !l.keyAllowed then none
  else (l.openBlock l.column l.count .blockSequenceStart).dropCandidate.map fun l =>
    ({ l with keyAllowed := true }.emit .blockEntry, 1)

/-- A question mark in front of a key. -/
def readKey (l : Lexer) : Step :=
  if !l.inFlow && !l.keyAllowed then none
  else (l.openBlock l.column l.count .blockMappingStart).dropCandidate.map fun l =>
    ({ l with keyAllowed := !l.inFlow }.emit .key, 1)

/-- A colon in front of a value: the candidate turns out to be a key, or the key was marked as one. -/
def readValue (l : Lexer) : Step :=
  match l.candidate with
  | some k =>
    let l := (l.emitAt k.position .key).openBlock k.column k.position .blockMappingStart
    some ({ l with candidate := none, keyAllowed := false }.emit .value, 1)
  | none =>
    if !l.inFlow && !l.keyAllowed then none
    else
      let l := l.openBlock l.column l.count .blockMappingStart
      some ({ l with keyAllowed := !l.inFlow }.emit .value, 1)

/-- A token that may start a key. -/
def readKeyable (l : Lexer) (lexeme : Option (Lexeme Token)) : Step := do
  let l ← l.saveCandidate
  let lexeme ← lexeme
  some ({ l with keyAllowed := false }.emit lexeme.value, lexeme.width)

/-- A plain scalar; behind a line break that ends it a key may start. -/
def readPlain (l : Lexer) (cs : List Char) : Step := do
  let l' ← l.saveCandidate
  let plain ← PlainScalar.read? l.inFlow (l.indent + 1) l.column cs
  some ({ l' with keyAllowed := plain.value.endsOnNewLine }.emit (.scalar true plain.value.text), plain.width)

/-- A block scalar, behind which a key may start. -/
def readBlock (l : Lexer) (folds : Bool) (cs : List Char) : Step := do
  let l ← l.dropCandidate
  let block ← BlockScalar.read? folds l.indent cs
  some ({ l with keyAllowed := true }.emit (.scalar false block.value), block.width)

/-- The characters that no plain scalar starts with, unless more of the text says so. -/
def indicators : List Char :=
  "-?:,[]\x7b\x7d#&*!|>'\"%@\x60".toList

/-- A plain scalar starts here: no indicator, or one of three that is not followed by what makes it an indicator. -/
def startsPlain (l : Lexer) (c : Char) (cs : List Char) : Bool :=
  (!isBlank c && !isBreak c && !indicators.contains c) || (c == '-' && !(cs.head?.any isBlank)) ||
    (!l.inFlow && (c == '?' || c == ':') && !atGap cs)

/-- Reads the token that starts with `c`. -/
def readToken (l : Lexer) (c : Char) (cs : List Char) : Step :=
  if l.column = 0 && c == '%' then match readDirective? cs with
    | some directive => l.readDocumentToken directive.value directive.width
    | none => none
  else if l.column = 0 && isMarker '-' (c :: cs) then l.readDocumentToken .documentStart 3
  else if l.column = 0 && isMarker '.' (c :: cs) then l.readDocumentToken .documentEnd 3
  else if c = '[' then l.readFlowStart .flowSequenceStart
  else if c = '\x7b' then l.readFlowStart .flowMappingStart
  else if c = ']' then l.readFlowEnd .flowSequenceEnd
  else if c = '\x7d' then l.readFlowEnd .flowMappingEnd
  else if c = ',' then l.readFlowEntry
  else if c = '-' && atGap cs then l.readBlockEntry
  else if c = '?' && (l.inFlow || atGap cs) then l.readKey
  else if c = ':' && (l.inFlow || atGap cs) then l.readValue
  else if c = '*' then l.readKeyable ((readName? cs).map fun name => ⟨.aliasOf name.value, name.width⟩)
  else if c = '&' then l.readKeyable ((readName? cs).map fun name => ⟨.anchor name.value, name.width⟩)
  else if c = '!' then l.readKeyable (readTag? l.inFlow (c :: cs))
  else if (c = '|' || c = '>') && !l.inFlow then l.readBlock (c == '>') cs
  else if c = '\'' || c = '"' then
    l.readKeyable ((QuotedScalar.read? (c == '"') l.column cs).map fun text =>
      ⟨.scalar false text.value, text.width⟩)
  else if l.startsPlain c cs then l.readPlain (c :: cs)
  else none

/-- Reads the token that starts with `c`, after what its place settles: long candidates and deep blocks are over. -/
def startToken (l : Lexer) (c : Char) (cs : List Char) : Step :=
  match l.dropLongCandidates with
  | some l => (l.closeBlocks l.column).readToken c cs
  | none => none

/-- The tokens when the text ends here. -/
def finish (l : Lexer) : Option (List Token) :=
  (l.closeBlocks (-1)).dropCandidate.map fun l => l.tokens.reverse

/-- What the next character is part of. -/
inductive Mode where
  /-- The space between tokens. -/
  | between
  /-- A comment. -/
  | comment
  /-- The remaining characters of a token. -/
  | token (remaining : Nat)

/-- Walks over the rest of a text. -/
def walk (l : Lexer) : Mode → List Char → Option (List Token)
  | _, [] => l.finish
  | .token (remaining + 1), c :: cs => match l.pass c with
    | some l => walk l (.token remaining) cs
    | none => none
  | .comment, c :: cs => match if isBreak c then l.passLine c else l.pass c with
    | some l => walk l (if isBreak c then .between else .comment) cs
    | none => none
  | _, c :: cs =>
    if l.skips c then match l.pass c with
      | some l => walk l .between cs
      | none => none
    else if c = '#' then match l.pass c with
      | some l => walk l .comment cs
      | none => none
    else if isBreak c then match l.passLine c with
      | some l => walk l .between cs
      | none => none
    else match l.startToken c cs with
      | some (l, width) => match l.pass c with
        | some l => walk l (.token (width - 1)) cs
        | none => none
      | none => none

end Lexer

/-- The tokens of a text. A byte order mark in front takes up a column, and no character may be a control character. -/
def Token.readAll? (text : List Char) : Option (List Token) :=
  if !text.all isAdmitted then none
  else match uniformBreaks text with
    | '\ufeff' :: cs => Lexer.walk { column := 1 } .between cs
    | cs => Lexer.walk {} .between cs

end CallContract.Yaml
