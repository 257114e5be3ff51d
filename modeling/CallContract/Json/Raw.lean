import CallContract.Json.Numeral

/-!
# JSON as written

`Raw` is the tree of a JSON text whose strings and numbers have not been given a value yet. `Raw.ofString?` reads it
in two folds, characters to tokens and tokens to a tree, and accepts exactly the grammar of JSON: any nesting depth,
any escape of four digits, any size of number. `Raw.toJson?` is where values are required: no lone surrogate, no
number out of range, nesting up to a limit.
-/

namespace CallContract.Json

/-- A unit of a string between quotes: a character, or the code of an escape of four digits. -/
inductive StringUnit where
  | char (c : Char)
  | code (n : Nat)

/-- A JSON text as a tree of what was written. -/
inductive Raw where
  | null
  | bool (b : Bool)
  | number (numeral : Numeral)
  | string (units : List StringUnit)
  | array (items : List Raw)
  | object (members : List (List StringUnit × Raw))

/-! ## Tokens -/

/-- The smallest parts of a JSON text. A word is a run of characters that is neither blank nor punctuation. -/
inductive Token where
  | arrayOpen
  | arrayClose
  | objectOpen
  | objectClose
  | comma
  | colon
  | string (units : List StringUnit)
  | word (chars : List Char)

namespace Token

/-- The four blanks of JSON. -/
def isBlank (c : Char) : Bool :=
  c == ' ' || c == '\t' || c == '\n' || c == '\r'

/-- Punctuation, each character a token of its own. -/
def punctuation? (c : Char) : Option Token :=
  if c = '[' then some .arrayOpen
  else if c = ']' then some .arrayClose
  else if c = '\x7b' then some .objectOpen
  else if c = '\x7d' then some .objectClose
  else if c = ',' then some .comma
  else if c = ':' then some .colon
  else none

/-- What the token under way has collected, last part first. -/
inductive Pending where
  | nothing
  | word (chars : List Char)
  | string (units : List StringUnit)
  | escape (units : List StringUnit)
  | code (units : List StringUnit) (missing : Nat) (value : Nat)

/-- Where a fold over the characters stands: finished tokens, last one first, and the one under way. -/
structure Lexer where
  done : List Token
  pending : Pending

/-- The character after a backslash, when it stands for one character. -/
def escaped? (c : Char) : Option Char :=
  if c = '"' ∨ c = '\\' ∨ c = '/' then some c
  else if c = 'b' then some '\x08'
  else if c = 'f' then some '\x0c'
  else if c = 'n' then some '\n'
  else if c = 'r' then some '\r'
  else if c = 't' then some '\t'
  else none

/-- A character between tokens. -/
def Lexer.begin (done : List Token) (c : Char) : Lexer :=
  if isBlank c then ⟨done, .nothing⟩
  else if c = '"' then ⟨done, .string []⟩
  else match punctuation? c with
    | some token => ⟨token :: done, .nothing⟩
    | none => ⟨done, .word [c]⟩

/-- One more character. -/
def Lexer.step : Lexer → Char → Option Lexer
  | ⟨done, .nothing⟩, c => some (.begin done c)
  | ⟨done, .word chars⟩, c =>
    if isBlank c || c == '"' || (punctuation? c).isSome then some (.begin (.word chars.reverse :: done) c)
    else some ⟨done, .word (c :: chars)⟩
  | ⟨done, .string units⟩, c =>
    if c = '"' then some ⟨.string units.reverse :: done, .nothing⟩
    else if c = '\\' then some ⟨done, .escape units⟩
    else if c.toNat < 0x20 then none
    else some ⟨done, .string (.char c :: units)⟩
  | ⟨done, .escape units⟩, c =>
    if c = 'u' then some ⟨done, .code units 3 0⟩
    else (escaped? c).map fun e => ⟨done, .string (.char e :: units)⟩
  | ⟨done, .code units missing value⟩, c =>
    (Text.digit? 16 c).map fun d =>
      match missing with
      | 0 => ⟨done, .string (.code (16 * value + d) :: units)⟩
      | n + 1 => ⟨done, .code units n (16 * value + d)⟩

/-- The tokens when the text ends here. -/
def Lexer.finish? : Lexer → Option (List Token)
  | ⟨done, .nothing⟩ => some done.reverse
  | ⟨done, .word chars⟩ => some (Token.word chars.reverse :: done).reverse
  | _ => none

/-- The tokens of a text. -/
def readAll? (cs : List Char) : Option (List Token) :=
  (cs.foldlM Lexer.step ⟨[], .nothing⟩).bind Lexer.finish?

end Token

/-! ## Trees -/

namespace Raw

/-- A container under way: what it holds so far, last part first, and for an object the key that waits for a value. -/
inductive Frame where
  | array (items : List Raw)
  | object (members : List (List StringUnit × Raw)) (key : List StringUnit)

/-- What the next token may be. -/
inductive Focus where
  /-- A value. -/
  | value
  /-- A value, or the end of the array just opened. -/
  | firstItem
  /-- A key, or the end of the object just opened. -/
  | firstKey
  /-- A key after a comma; the members before it, last one first. -/
  | key (members : List (List StringUnit × Raw))
  /-- The colon after a key. -/
  | colon (members : List (List StringUnit × Raw)) (key : List StringUnit)
  /-- A comma or an end, after a value. -/
  | after (value : Raw)

/-- Where a fold over the tokens stands: the open containers, innermost first, and what may come next. -/
structure Builder where
  stack : List Frame
  focus : Focus

/-- The value of a word. -/
def ofWord? (chars : List Char) : Option Raw :=
  if chars = "null".toList then some .null
  else if chars = "true".toList then some (.bool true)
  else if chars = "false".toList then some (.bool false)
  else (Numeral.ofChars? chars).map .number

/-- A token where a value has to start. -/
def Builder.startValue? (stack : List Frame) : Token → Option Builder
  | .arrayOpen => some ⟨stack, .firstItem⟩
  | .objectOpen => some ⟨stack, .firstKey⟩
  | .string units => some ⟨stack, .after (.string units)⟩
  | .word chars => (ofWord? chars).map fun v => ⟨stack, .after v⟩
  | _ => none

/-- One more token. -/
def Builder.step : Builder → Token → Option Builder
  | ⟨stack, .value⟩, token => startValue? stack token
  | ⟨stack, .firstItem⟩, .arrayClose => some ⟨stack, .after (.array [])⟩
  | ⟨stack, .firstItem⟩, token => startValue? (.array [] :: stack) token
  | ⟨stack, .firstKey⟩, .objectClose => some ⟨stack, .after (.object [])⟩
  | ⟨stack, .firstKey⟩, .string units => some ⟨stack, .colon [] units⟩
  | ⟨stack, .key members⟩, .string units => some ⟨stack, .colon members units⟩
  | ⟨stack, .colon members key⟩, .colon => some ⟨.object members key :: stack, .value⟩
  | ⟨.array items :: stack, .after v⟩, .comma => some ⟨.array (v :: items) :: stack, .value⟩
  | ⟨.array items :: stack, .after v⟩, .arrayClose => some ⟨stack, .after (.array (v :: items).reverse)⟩
  | ⟨.object members key :: stack, .after v⟩, .comma => some ⟨stack, .key ((key, v) :: members)⟩
  | ⟨.object members key :: stack, .after v⟩, .objectClose =>
    some ⟨stack, .after (.object ((key, v) :: members).reverse)⟩
  | _, _ => none

/-- The tree when the text ends here. -/
def Builder.finish? : Builder → Option Raw
  | ⟨[], .after v⟩ => some v
  | _ => none

/-- The tree of a list of tokens. -/
def ofTokens? (tokens : List Token) : Option Raw :=
  (tokens.foldlM Builder.step ⟨[], .value⟩).bind Builder.finish?

/-- The tree of a JSON text. -/
def ofString? (text : String) : Option Raw :=
  (Token.readAll? text.toList).bind ofTokens?

/-! ## Values -/

/-- The character of two surrogate codes. -/
def surrogatePair (high low : Nat) : Char :=
  Char.ofNat (0x10000 + (high - 0xD800) * 0x400 + (low - 0xDC00))

/-- The characters of a string; none when a surrogate has no partner. -/
def chars? : List StringUnit → Option (List Char)
  | [] => some []
  | .char c :: units => (chars? units).map (c :: ·)
  | .code high :: .code low :: units =>
    if 0xD800 ≤ high ∧ high < 0xDC00 then
      if 0xDC00 ≤ low ∧ low < 0xE000 then (chars? units).map (surrogatePair high low :: ·) else none
    else if 0xDC00 ≤ high ∧ high < 0xE000 then none
    else (chars? (.code low :: units)).map (Char.ofNat high :: ·)
  | .code n :: units => if 0xD800 ≤ n ∧ n < 0xE000 then none else (chars? units).map (Char.ofNat n :: ·)

/-- The text of a string; none when a surrogate has no partner. -/
def text? (units : List StringUnit) : Option String :=
  (chars? units).map String.ofList

/-- The name of a case among several: a string, or an object with the name as its only key and null under it. -/
def caseName? : Raw → Option String
  | .string units => text? units
  | .object [(name, .null)] => text? name
  | _ => none

/-- The value of a tree with at most `depth` containers inside one another: strings and numbers must have a value,
and members are brought into the order of their keys. -/
def toJson? : (depth : Nat) → Raw → Option Json
  | _, .null => some .null
  | _, .bool b => some (.bool b)
  | _, .number numeral => numeral.value?.map .number
  | _, .string units => (text? units).map .string
  | 0, .array _ => none
  | 0, .object _ => none
  | depth + 1, .array items => (items.mapM (toJson? depth)).map .array
  | depth + 1, .object members => (members.mapM fun (m : List StringUnit × Raw) =>
      (text? m.1).bind fun key => (toJson? depth m.2).map fun value => (key, value)).map ofMembers

end Raw

/-- Containers may stand at most 127 deep inside one another. -/
def maxDepth : Nat := 127

/-- The value of a JSON text. -/
def ofString? (text : String) : Option Json :=
  (Raw.ofString? text).bind (Raw.toJson? maxDepth)

end CallContract.Json
