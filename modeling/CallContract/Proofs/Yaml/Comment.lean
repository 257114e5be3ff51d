import CallContract.Yaml.Document

/-!
# Comments in front of a text

A comment line in front of a YAML text changes nothing: the text reads as it does alone (`Yaml.toJson?_comment`). The
line must be one line, and a character that no text may hold makes the text malformed there as anywhere
(`Yaml.toJson?_of_not_admitted`).

`Lexer.walk_comment` holds at the start of any line outside flow collections where no key is under way.
-/

namespace CallContract.Yaml

/-- A character that a comment may hold: the text may hold it, and no line ends there. -/
def isCommentChar (c : Char) : Bool :=
  isAdmitted c && !isBreak c

/-! ## Line breaks -/

theorem uniformBreaks_line {line : List Char} (h : ∀ c ∈ line, isBreak c = false) (rest : List Char) :
    uniformBreaks (line ++ '\n' :: rest) = line ++ '\n' :: uniformBreaks rest := by
  induction line with
  | nil =>
    rw [List.nil_append, uniformBreaks, if_neg (by decide)]
    · rfl
    · nofun
  | cons c line ih =>
    obtain ⟨hc, hline⟩ := List.forall_mem_cons.1 h
    simp only [isBreak, Bool.or_eq_false_iff, beq_eq_false_iff_ne] at hc
    obtain ⟨⟨⟨⟨-, hr⟩, hnext⟩, -⟩, -⟩ := hc
    rw [List.cons_append, uniformBreaks, if_neg (by simp [hr, hnext]), ih hline]
    · rfl
    · simp [hr]

/-- Only a text that starts with a byte order mark does so with uniform breaks. -/
theorem head?_of_uniformBreaks {cs ds : List Char} (h : uniformBreaks cs = '\ufeff' :: ds) :
    cs.head? = some '\ufeff' := by
  unfold uniformBreaks at h
  split at h
  · exact nomatch h
  · exact nomatch h
  · have hc := (List.cons.inj h).1
    split at hc
    · exact nomatch hc
    · rw [hc]
      rfl

/-! ## Walking over a comment -/

namespace Lexer

/-- A new line starts here, no flow collection is open and no key is under way. -/
structure AtLineStart (l : Lexer) : Prop where
  column : l.column = 0
  candidate : l.candidate = none
  outerCandidates : l.outerCandidates = []
  keyAllowed : l.keyAllowed = true

theorem walk_in_comment {line : List Char} (h : ∀ c ∈ line, isBreak c = false) (l : Lexer) (rest : List Char) :
    l.walk .comment (line ++ rest) =
      ({ l with column := l.column + line.length } : Lexer).walk .comment rest := by
  induction line generalizing l with
  | nil => rfl
  | cons c line ih =>
    obtain ⟨hc, hline⟩ := List.forall_mem_cons.1 h
    rw [List.cons_append, walk]
    simp only [hc, pass, Bool.false_eq_true, if_false]
    rw [ih hline]
    simp [Nat.add_assoc, Nat.add_comm 1]

/-- A comment takes the rest of its line and leaves no trace. -/
theorem walk_comment {l : Lexer} (hl : l.AtLineStart) {line : List Char} (h : ∀ c ∈ line, isBreak c = false)
    (rest : List Char) : l.walk .between ('#' :: line ++ '\n' :: rest) = l.walk .between rest := by
  have hopen : l.walk .between ('#' :: (line ++ '\n' :: rest)) =
      ({ l with column := l.column + 1 } : Lexer).walk .comment (line ++ '\n' :: rest) := by
    rw [walk]
    · rfl
    · nofun
    · nofun
  have hclose (n : Nat) : ({ l with column := n } : Lexer).walk .comment ('\n' :: rest) = l.walk .between rest := by
    obtain ⟨tokens, count, column, indent, outerIndents, candidate, outerCandidates, keyAllowed⟩ := l
    obtain ⟨rfl, rfl, rfl, rfl⟩ := hl
    rw [walk]
    rfl
  rw [List.cons_append, hopen, walk_in_comment h, hclose]

end Lexer

/-! ## Texts -/

theorem toJson?_of_tokens {text : String} {tokens : List Token} {d : Document} {j : Json}
    (htokens : Token.readAll? text.toList = some tokens) (hd : Document.ofTokens? tokens = some (some d))
    (hj : d.toJson? = some j) : toJson? text = some j := by
  rw [toJson?, ofString?, htokens]
  show (Document.ofTokens? tokens).bind _ = _
  rw [hd]
  exact hj

/-- A text with a character that no text may hold is malformed. -/
theorem toJson?_of_not_admitted {text : String} (h : text.toList.all isAdmitted = false) : toJson? text = none := by
  rw [toJson?, ofString?, Token.readAll?, h]
  rfl

variable {line body : List Char}

theorem readAll?_comment (h : ∀ c ∈ line, isCommentChar c = true) (hbody : body.head? ≠ some '\ufeff') :
    Token.readAll? ('#' :: line ++ '\n' :: body) = Token.readAll? body := by
  simp only [isCommentChar, Bool.and_eq_true, Bool.not_eq_true'] at h
  have hbreak : ∀ c ∈ line, isBreak c = false := fun c hc => (h c hc).2
  have hadmitted : ('#' :: line ++ '\n' :: body).all isAdmitted = body.all isAdmitted := by
    have hline : line.all isAdmitted = true := List.all_eq_true.2 fun c hc => (h c hc).1
    rw [List.all_append, List.all_cons, List.all_cons, hline]
    rfl
  rw [Token.readAll?, Token.readAll?, hadmitted, uniformBreaks_line (List.forall_mem_cons.2 ⟨rfl, hbreak⟩)]
  have hline := Lexer.walk_comment (l := {}) ⟨rfl, rfl, rfl, rfl⟩ hbreak (uniformBreaks body)
  split
  · rfl
  · split
    case h_1 hbom => exact nomatch (List.cons.inj hbom).1
    case h_2 =>
      split
      case h_1 hbom => exact absurd (head?_of_uniformBreaks hbom) hbody
      case h_2 => exact hline

/-- **A comment line is not part of the document**: the text below it reads as it does alone. -/
theorem toJson?_comment (h : ∀ c ∈ line, isCommentChar c = true) (hbody : body.head? ≠ some '\ufeff') :
    toJson? (String.ofList ('#' :: line ++ '\n' :: body)) = toJson? (String.ofList body) := by
  rw [toJson?, toJson?, ofString?, ofString?, String.toList_ofList, String.toList_ofList, readAll?_comment h hbody]

end CallContract.Yaml
