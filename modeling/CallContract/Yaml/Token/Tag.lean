import CallContract.Yaml.Character
import CallContract.Yaml.Token

/-!
# Anchors, tags and directives

The properties that stand before a node, and the directives that stand before a document. A tag is a handle, which
stands for an expansion, and a suffix; the verbatim form has no handle.
-/

namespace CallContract.Yaml

/-! ## Anchors and aliases -/

/-- What may follow the name of an anchor or alias. -/
def endsName (cs : List Char) : Bool :=
  atGap cs || (cs.head?.any fun c => "?:,]\x7d%@\x60".toList.contains c)

/-- The name in front of a text, without its indicator, which counts as one character. -/
def readName? (cs : List Char) : Option (Lexeme String) :=
  let name := cs.takeWhile isWordChar
  if name.isEmpty || !endsName (cs.drop name.length) then none
  else some ⟨String.ofList name, name.length + 1⟩

/-! ## Tags -/

/-- A character of a tag; commas and square brackets only where they cannot be punctuation. -/
def isTagChar (verbatim : Bool) (c : Char) : Bool :=
  isWordChar c || ";/?:@&=+$.%!~*'()".toList.contains c || (verbatim && ",[]".toList.contains c)

/-- The number of octets of the character that starts with an octet. -/
def octetCount? (first : Nat) : Option Nat :=
  if first < 0x80 then some 1
  else if first / 0x20 = 0x06 then some 2
  else if first / 0x10 = 0x0E then some 3
  else if first / 0x08 = 0x1E then some 4
  else none

/-- The octet that a percent sign and two digits write. -/
def octet? : List Char → Option (Nat × List Char)
  | '%' :: a :: b :: cs => (hexNumber? 2 [a, b]).map (·, cs)
  | _ => none

/-- The payload of `count` further octets. -/
def trailingOctets? : (count : Nat) → Nat → List Char → Option (Nat × List Char)
  | 0, code, cs => some (code, cs)
  | count + 1, code, cs => match octet? cs with
    | some (octet, rest) =>
      if octet / 0x40 = 0x02 then trailingOctets? count (0x40 * code + octet % 0x40) rest else none
    | none => none

/-- The character that a run of octets in front of a text writes, and the number of characters it takes. -/
def readOctets? (cs : List Char) : Option (Lexeme Char) := do
  let (first, rest) ← octet? cs
  let count ← octetCount? first
  let payload := if count = 1 then first else first % Nat.pow 2 (7 - count)
  let (code, _) ← trailingOctets? (count - 1) payload rest
  some ⟨Char.ofNat code, 3 * count⟩

/-- The tag characters in front of a text, octets decoded; `ahead` characters have been dealt with. -/
def readTagChars (verbatim : Bool) (ahead : Nat) (text : List Char) (width : Nat) :
    List Char → Option (Lexeme (List Char))
  | [] => some ⟨text.reverse, width⟩
  | c :: cs =>
    match ahead with
    | n + 1 => readTagChars verbatim n text (width + 1) cs
    | 0 =>
      if c = '%' then match readOctets? (c :: cs) with
        | some octets => readTagChars verbatim (octets.width - 1) (octets.value :: text) (width + 1) cs
        | none => none
      else if isTagChar verbatim c then readTagChars verbatim 0 (c :: text) (width + 1) cs
      else some ⟨text.reverse, width⟩

/-- The longest handle in front of a text that starts with an exclamation mark: word characters, and a second mark
if one follows them. -/
def handleChars (cs : List Char) : List Char :=
  let word := (cs.drop 1).takeWhile isWordChar
  let closing := if (cs.drop (1 + word.length)).head? == some '!' then ['!'] else []
  '!' :: word ++ closing

/-- A tag between angle brackets; the width counts from its exclamation mark. -/
def readVerbatimTag? (cs : List Char) : Option (Lexeme Token) := do
  let uri ← readTagChars true 0 [] 0 (cs.drop 2)
  if uri.value.isEmpty then none
  else if (cs.drop (2 + uri.width)).head? == some '>' then
    some ⟨.tag "" (String.ofList uri.value), uri.width + 3⟩
  else none

/-- A tag with a handle of its own, or with the primary one. -/
def readShorthandTag? (cs : List Char) : Option (Lexeme Token) := do
  let handle := handleChars cs
  let suffix ← readTagChars false 0 [] 0 (cs.drop handle.length)
  if 1 < handle.length && handle.getLast? == some '!' then
    if suffix.value.isEmpty then none
    else some ⟨.tag (String.ofList handle) (String.ofList suffix.value), handle.length + suffix.width⟩
  else
    let suffixChars := handle.drop 1 ++ suffix.value
    let token := if suffixChars.isEmpty then Token.tag "" "!" else .tag "!" (String.ofList suffixChars)
    some ⟨token, handle.length + suffix.width⟩

/-- The tag in front of a text. -/
def readTag? (inFlow : Bool) (cs : List Char) : Option (Lexeme Token) := do
  let tag ← if (cs.drop 1).head? == some '<' then readVerbatimTag? cs else readShorthandTag? cs
  let rest := cs.drop tag.width
  if atGap rest || (inFlow && rest.head? == some ',') then some tag else none

/-! ## Directives -/

/-- A number of at most nine digits, and what follows it. -/
def readVersionNumber? (cs : List Char) : Option (Nat × List Char) :=
  let digits := cs.takeWhile Char.isDigit
  if digits.isEmpty || 9 < digits.length then none
  else some (Text.decimal digits, cs.drop digits.length)

/-- The version after the name of its directive. -/
def readVersion? (cs : List Char) : Option (Token × List Char) := do
  let (major, rest) ← readVersionNumber? (cs.dropWhile isBlank)
  match rest with
  | '.' :: rest =>
    let (minor, rest) ← readVersionNumber? rest
    some (.version major minor, rest)
  | _ => none

/-- The handle and the expansion after the name of their directive. -/
def readTagShorthand? (cs : List Char) : Option (Token × List Char) := do
  let cs := cs.dropWhile isBlank
  let handle := handleChars cs
  if cs.head? != some '!' || (handle != ['!'] && handle.getLast? != some '!') then none
  else
    let rest := cs.drop handle.length
    if !(rest.head?.any isBlank) then none
    else
      let rest := rest.dropWhile isBlank
      let expansion ← readTagChars true 0 [] 0 rest
      let rest := rest.drop expansion.width
      if expansion.value.isEmpty || !atGap rest then none
      else some (.tagShorthand (String.ofList handle) (String.ofList expansion.value), rest)

/-- The directive in front of a text, without its percent sign; the width counts the sign and goes up to the end of
the line. -/
def readDirective? (cs : List Char) : Option (Lexeme Token) := do
  let name := cs.takeWhile isWordChar
  let rest := cs.drop name.length
  if !atGap rest then none
  else
    let (token, rest) ←
      if name = "YAML".toList then readVersion? rest
      else if name = "TAG".toList then readTagShorthand? rest
      else none
    let rest := match rest.dropWhile isBlank with
      | '#' :: comment => comment.dropWhile (!isBreak ·)
      | rest => rest
    if atLineEnd rest then some ⟨token, 1 + (cs.length - rest.length)⟩ else none

end CallContract.Yaml
