import CallContract.Proofs.Json.RoundTrip

/-!
# JSON over several lines

The indenter goes through a text, counts the containers that are open and breaks lines at brackets and commas
(`Indenter.indent`). Whatever the text is, its tokens stay the same: blanks are added only beside punctuation
outside of strings, which the lexer and the indenter see in step (`InStep.step`). What `Json.pretty` writes is the text
without blanks as the indenter lays it out (`toList_pretty`), so it reads as that text does.
-/

namespace CallContract.Json

/-! ## Indenting a text -/

/-- Where the next character of a text stands. -/
inductive Indenter.Place where
  /-- Outside of strings. -/
  | outside
  /-- Outside of strings, right behind an opening bracket. -/
  | opened
  | string
  /-- In a string, behind a backslash. -/
  | escape

/-- Where the indenter stands: the number of open containers, and the place of the next character. -/
structure Indenter where
  depth : Nat
  place : Indenter.Place

/-- The end of a line, and the blanks in front of the next one, two for each open container. -/
def lineBreak (depth : Nat) : List Char :=
  '\n' :: List.replicate (2 * depth) ' '

namespace Indenter

def isOpening (c : Char) : Bool :=
  c == '[' || c == '\x7b'

def isClosing (c : Char) : Bool :=
  c == ']' || c == '\x7d'

/-- The blanks before a character: a new line starts with a closing bracket, and behind an opening one; there is none
between the two of an empty container. -/
def before : Indenter → Char → List Char
  | ⟨depth, .outside⟩, c => if isClosing c then lineBreak (depth - 1) else []
  | ⟨depth, .opened⟩, c => if isClosing c then [] else lineBreak depth
  | ⟨_, .string⟩, _ | ⟨_, .escape⟩, _ => []

/-- The blanks behind a character: a new line behind a comma, one blank behind a colon. -/
def behind : Indenter → Char → List Char
  | ⟨depth, .outside⟩, c | ⟨depth, .opened⟩, c => if c = ',' then lineBreak depth else if c = ':' then [' '] else []
  | ⟨_, .string⟩, _ | ⟨_, .escape⟩, _ => []

/-- One more character. -/
def step : Indenter → Char → Indenter
  | ⟨depth, .outside⟩, c | ⟨depth, .opened⟩, c =>
    if c = '"' then ⟨depth, .string⟩
    else if isOpening c then ⟨depth + 1, .opened⟩
    else if isClosing c then ⟨depth - 1, .outside⟩
    else ⟨depth, .outside⟩
  | ⟨depth, .string⟩, c => ⟨depth, if c = '"' then .outside else if c = '\\' then .escape else .string⟩
  | ⟨depth, .escape⟩, _ => ⟨depth, .string⟩

/-- The text laid out over lines. -/
def indent : Indenter → List Char → List Char
  | _, [] => []
  | s, c :: cs => s.before c ++ c :: s.behind c ++ (s.step c).indent cs

end Indenter

/-! ## Tokens -/

open Token (Lexer isBlank punctuation?)

theorem isBlank_of_mem_lineBreak {depth : Nat} {c : Char} (h : c ∈ lineBreak depth) : isBlank c = true := by
  rcases List.mem_cons.1 h with rfl | h
  · rfl
  · exact (List.mem_replicate.1 h).2 ▸ rfl

/-- The lexer stands where the indenter does: between tokens or in a word, behind a bracket, or in a string. -/
inductive InStep : Indenter → Lexer → Prop where
  | outside {depth : Nat} {l : Lexer} {ts : List Token} (h : l.finish? = some ts) : InStep ⟨depth, .outside⟩ l
  | opened {depth : Nat} {done : List Token} : InStep ⟨depth, .opened⟩ ⟨done, .nothing⟩
  | string {depth : Nat} {done : List Token} {units : List StringUnit} :
      InStep ⟨depth, .string⟩ ⟨done, .string units⟩
  | escape {depth : Nat} {done : List Token} {units : List StringUnit} :
      InStep ⟨depth, .escape⟩ ⟨done, .escape units⟩
  | code {depth : Nat} {done : List Token} {units : List StringUnit} {missing value : Nat} :
      InStep ⟨depth, .string⟩ ⟨done, .code units missing value⟩

section Lexing

variable {s : Indenter} {l l' : Lexer} {c : Char} {ts : List Token} {depth : Nat}

theorem exists_punctuation?_of_isClosing (h : Indenter.isClosing c = true) : ∃ t, punctuation? c = some t := by
  simp only [Indenter.isClosing, Bool.or_eq_true, beq_iff_eq] at h
  rcases h with rfl | rfl <;> exact ⟨_, rfl⟩

theorem exists_punctuation?_of_isOpening (h : Indenter.isOpening c = true) : ∃ t, punctuation? c = some t := by
  simp only [Indenter.isOpening, Bool.or_eq_true, beq_iff_eq] at h
  rcases h with rfl | rfl <;> exact ⟨_, rfl⟩

theorem foldlM_lineBreak (hl : l.finish? = some ts) :
    (lineBreak depth).foldlM Lexer.step l = some ⟨ts.reverse, .nothing⟩ := by
  rw [lineBreak, List.foldlM_cons, Lexer.step_of_blank hl rfl]
  exact Lexer.foldlM_blanks (fun _ hb => isBlank_of_mem_lineBreak (List.mem_cons_of_mem _ hb)) _

/-- The blanks before a character change nothing: behind them a closing bracket ends the word under way as it does
without them. -/
theorem InStep.foldlM_before (h : InStep s l) : (s.before c ++ [c]).foldlM Lexer.step l = l.step c := by
  have hone (l : Lexer) : [c].foldlM Lexer.step l = l.step c := by
    rw [List.foldlM_cons]
    exact Option.bind_fun_some _
  cases h with
  | @outside depth l ts hl =>
    rw [Indenter.before]
    split
    case isTrue hclosing =>
      obtain ⟨t, ht⟩ := exists_punctuation?_of_isClosing hclosing
      rw [List.foldlM_append, foldlM_lineBreak hl, Lexer.step_of_punctuation hl ht]
      show [c].foldlM Lexer.step ⟨ts.reverse, .nothing⟩ = _
      rw [hone, Lexer.step_of_punctuation rfl ht, List.reverse_reverse]
    case isFalse => exact hone l
  | @opened depth done =>
    rw [Indenter.before]
    split
    case isTrue => exact hone _
    case isFalse =>
      rw [List.foldlM_append, foldlM_lineBreak rfl, List.reverse_reverse]
      exact hone ⟨done, .nothing⟩
  | string => exact hone _
  | escape => exact hone _
  | code => exact hone _

/-- The blanks behind a character follow punctuation, where no token is under way. -/
theorem InStep.foldlM_behind (h : InStep s l) (hstep : l.step c = some l') :
    (s.behind c).foldlM Lexer.step l' = some l' := by
  have hpunctuation {t : Token} {ts : List Token} {bs : List Char} (hl : l.finish? = some ts)
      (ht : punctuation? c = some t) (hbs : ∀ b ∈ bs, isBlank b = true) : bs.foldlM Lexer.step l' = some l' := by
    rw [Lexer.step_of_punctuation hl ht] at hstep
    obtain rfl := Option.some.inj hstep
    exact Lexer.foldlM_blanks hbs _
  have houtside {depth : Nat} {ts : List Token} (hl : l.finish? = some ts) :
      (if c = ',' then lineBreak depth else if c = ':' then [' '] else []).foldlM Lexer.step l' = some l' := by
    split
    case isTrue hcomma => exact hpunctuation hl (by rw [hcomma]; rfl) fun _ => isBlank_of_mem_lineBreak
    case isFalse =>
      split
      case isTrue hcolon => exact hpunctuation hl (by rw [hcolon]; rfl) (by simp [isBlank])
      case isFalse => rfl
  cases h with
  | outside hl => exact houtside hl
  | opened => exact houtside rfl
  | string => rfl
  | escape => rfl
  | code => rfl

/-- Outside of strings the lexer stays outside unless a quote comes. -/
theorem exists_finish?_step (hl : l.finish? = some ts) (hquote : c ≠ '"') (hstep : l.step c = some l') :
    ∃ ts', l'.finish? = some ts' := by
  have hbegin (done : List Token) : ∃ ts', (Lexer.begin done c).finish? = some ts' := by
    unfold Lexer.begin
    simp only [if_neg hquote]
    split
    · exact ⟨_, rfl⟩
    · split <;> exact ⟨_, rfl⟩
  obtain ⟨done, pending⟩ := l
  cases pending with
  | nothing =>
    obtain rfl := Option.some.inj hstep
    exact hbegin done
  | word chars =>
    rw [Lexer.step] at hstep
    split at hstep
    · obtain rfl := Option.some.inj hstep
      exact hbegin _
    · obtain rfl := Option.some.inj hstep
      exact ⟨_, rfl⟩
  | string units => cases hl
  | escape units => cases hl
  | code units missing value => cases hl

/-- Outside of strings one more character leads both to the same place. -/
theorem inStep_of_outside (hl : l.finish? = some ts) (hstep : l.step c = some l') :
    InStep (Indenter.step ⟨depth, .outside⟩ c) l' := by
  rw [Indenter.step]
  split
  case isTrue hquote =>
    rw [hquote, Lexer.step_of_not_isWordChar hl rfl] at hstep
    obtain rfl := Option.some.inj hstep
    exact .string
  case isFalse hquote =>
    split
    case isTrue hopening =>
      obtain ⟨t, ht⟩ := exists_punctuation?_of_isOpening hopening
      rw [Lexer.step_of_punctuation hl ht] at hstep
      obtain rfl := Option.some.inj hstep
      exact .opened
    case isFalse =>
      obtain ⟨ts', hl'⟩ := exists_finish?_step hl hquote hstep
      split <;> exact .outside hl'

/-- One more character leads both to the same place. -/
theorem InStep.step (h : InStep s l) (hstep : l.step c = some l') : InStep (s.step c) l' := by
  cases h with
  | outside hl => exact inStep_of_outside hl hstep
  | opened => exact inStep_of_outside rfl hstep
  | @string depth done units =>
    rw [Lexer.step] at hstep
    rw [Indenter.step]
    split at hstep
    case isTrue hquote =>
      obtain rfl := Option.some.inj hstep
      rw [if_pos hquote]
      exact .outside rfl
    case isFalse hquote =>
      rw [if_neg hquote]
      split at hstep
      case isTrue hbackslash =>
        obtain rfl := Option.some.inj hstep
        rw [if_pos hbackslash]
        exact .escape
      case isFalse hbackslash =>
        rw [if_neg hbackslash]
        split at hstep
        · cases hstep
        · obtain rfl := Option.some.inj hstep
          exact .string
  | @escape depth done units =>
    rw [Lexer.step] at hstep
    split at hstep
    · obtain rfl := Option.some.inj hstep
      exact .code
    · obtain ⟨e, -, rfl⟩ := Option.map_eq_some_iff.1 hstep
      exact .string
  | @code depth done units missing value =>
    rw [Lexer.step] at hstep
    obtain ⟨d, hd, rfl⟩ := Option.map_eq_some_iff.1 hstep
    have hquote : c ≠ '"' := by
      rintro rfl
      cases hd
    have hbackslash : c ≠ '\\' := by
      rintro rfl
      cases hd
    rw [Indenter.step, if_neg hquote, if_neg hbackslash]
    cases missing with
    | zero => exact .string
    | succ n => exact .code

/-- The lexer goes the same way through a text and through what the indenter makes of it. -/
theorem InStep.foldlM_indent (h : InStep s l) (cs : List Char) :
    (s.indent cs).foldlM Lexer.step l = cs.foldlM Lexer.step l := by
  induction cs generalizing s l with
  | nil => rfl
  | cons c cs ih =>
    have hindent : s.indent (c :: cs) = (s.before c ++ [c]) ++ (s.behind c ++ (s.step c).indent cs) := by
      simp [Indenter.indent]
    rw [hindent, List.foldlM_append, h.foldlM_before, List.foldlM_cons]
    cases hstep : l.step c with
    | none => rfl
    | some l' =>
      show (s.behind c ++ (s.step c).indent cs).foldlM Lexer.step l' = cs.foldlM Lexer.step l'
      rw [List.foldlM_append, h.foldlM_behind hstep]
      exact ih (h.step hstep)

/-- **Indenting a text leaves its tokens as they are**, whether it is JSON or not. -/
theorem readAll?_indent (depth : Nat) (cs : List Char) :
    Token.readAll? (Indenter.indent ⟨depth, .outside⟩ cs) = Token.readAll? cs := by
  have hstart : InStep ⟨depth, .outside⟩ ⟨[], .nothing⟩ := .outside rfl
  rw [Token.readAll?, hstart.foldlM_indent, Token.readAll?]

end Lexing

/-! ## What the indenter makes of printed JSON -/

/-- From `s` to `t` the indenter makes `ds` of `cs`. -/
def Indents (s : Indenter) (cs ds : List Char) (t : Indenter) : Prop :=
  s.indent cs = ds ∧ cs.foldl Indenter.step s = t

section Layout

variable {s t u : Indenter} {cs cs' ds ds' : List Char} {depth : Nat}

theorem Indents.nil : Indents s [] [] s :=
  ⟨rfl, rfl⟩

theorem Indents.cons {c : Char} (h : Indents (s.step c) cs ds t) :
    Indents s (c :: cs) (s.before c ++ c :: s.behind c ++ ds) t :=
  ⟨congrArg _ h.1, h.2⟩

theorem Indents.append (h : Indents s cs ds t) (h' : Indents t cs' ds' u) : Indents s (cs ++ cs') (ds ++ ds') u := by
  induction cs generalizing s ds with
  | nil =>
    obtain ⟨rfl, rfl⟩ := h
    exact h'
  | cons c cs ih =>
    obtain ⟨rfl, hfold⟩ := h
    rw [Indenter.indent, List.append_assoc]
    exact (ih ⟨rfl, hfold⟩).cons

/-- A character that takes no blanks and leads nowhere else. -/
def Indenter.Copies (s : Indenter) (c : Char) : Prop :=
  s.before c = [] ∧ s.behind c = [] ∧ s.step c = s

theorem indents_of_copies (h : ∀ c ∈ cs, s.Copies c) : Indents s cs cs s := by
  induction cs with
  | nil => exact .nil
  | cons c cs ih =>
    obtain ⟨⟨hbefore, hbehind, hstep⟩, hcs⟩ := List.forall_mem_cons.1 h
    have htail : Indents (s.step c) cs cs s := by
      rw [hstep]
      exact ih hcs
    have hcons := htail.cons
    rw [hbefore, hbehind] at hcons
    exact hcons

/-- Behind an opening bracket a text starts on a new line, if it does not end the container. -/
theorem Indents.opened {c : Char} (h : Indents ⟨depth, .outside⟩ (c :: cs) ds t)
    (hc : Indenter.isClosing c = false) : Indents ⟨depth, .opened⟩ (c :: cs) (lineBreak depth ++ ds) t := by
  obtain ⟨rfl, hfold⟩ := h
  refine ⟨?_, hfold⟩
  simp [Indenter.indent, Indenter.before, Indenter.behind, Indenter.step, hc]

/-! ### Words and strings -/

theorem isClosing_of_isWordChar {c : Char} (h : Token.isWordChar c = true) : Indenter.isClosing c = false := by
  refine Bool.eq_false_iff.2 fun hclosing => ?_
  obtain ⟨t, ht⟩ := exists_punctuation?_of_isClosing hclosing
  exact nomatch (Token.isWordChar_iff.1 h).2.2.symm.trans ht

theorem copies_of_isWordChar {c : Char} (h : Token.isWordChar c = true) : Indenter.Copies ⟨depth, .outside⟩ c := by
  obtain ⟨-, hquote, hnone⟩ := Token.isWordChar_iff.1 h
  have hopening : ¬Indenter.isOpening c = true := by
    intro hopening
    obtain ⟨t, ht⟩ := exists_punctuation?_of_isOpening hopening
    exact nomatch hnone.symm.trans ht
  have hclosing : ¬Indenter.isClosing c = true := Bool.eq_false_iff.1 (isClosing_of_isWordChar h)
  have hcomma : c ≠ ',' := by
    rintro rfl
    exact nomatch hnone
  have hcolon : c ≠ ':' := by
    rintro rfl
    exact nomatch hnone
  refine ⟨if_neg hclosing, (if_neg hcomma).trans (if_neg hcolon), ?_⟩
  rw [Indenter.step, if_neg hquote, if_neg hopening, if_neg hclosing]

theorem indents_word (h : cs.all Token.isWordChar = true) : Indents ⟨depth, .outside⟩ cs cs ⟨depth, .outside⟩ :=
  indents_of_copies fun c hc => copies_of_isWordChar (List.all_eq_true.1 h c hc)

/-- In a string a character other than a quote and a backslash is copied. -/
theorem indents_plain (h : ∀ c ∈ cs, c ≠ '"' ∧ c ≠ '\\') : Indents ⟨depth, .string⟩ cs cs ⟨depth, .string⟩ := by
  refine indents_of_copies fun c hc => ⟨rfl, rfl, ?_⟩
  rw [Indenter.step, if_neg (h c hc).1, if_neg (h c hc).2]

theorem indents_escaped (c : Char) : Indents ⟨depth, .string⟩ ['\\', c] ['\\', c] ⟨depth, .string⟩ :=
  ⟨rfl, rfl⟩

theorem plain_of_mem_hexDigits4 {n : Nat} {c : Char} (h : c ∈ hexDigits4 n) : c ≠ '"' ∧ c ≠ '\\' := by
  have hdigit : ∀ d < 16, Nat.digitChar d ≠ '"' ∧ Nat.digitChar d ≠ '\\' := by decide
  obtain ⟨d, -, rfl⟩ := List.mem_map.1 h
  exact hdigit _ (Nat.mod_lt d (by decide))

theorem indents_escapeChar (c : Char) :
    Indents ⟨depth, .string⟩ (escapeChar c) (escapeChar c) ⟨depth, .string⟩ := by
  unfold escapeChar
  split
  · exact indents_escaped _
  rename_i hquote
  split
  · exact indents_escaped _
  rename_i hbackslash
  repeat' split
  any_goals exact indents_escaped _
  · exact (indents_escaped 'u').append (indents_plain fun _ => plain_of_mem_hexDigits4)
  · exact indents_plain (List.forall_mem_singleton.2 ⟨hquote, hbackslash⟩)

theorem indents_quoted (text : String) :
    Indents ⟨depth, .outside⟩ (quoted text) (quoted text) ⟨depth, .outside⟩ := by
  have hchars : Indents ⟨depth, .string⟩ (text.toList.flatMap escapeChar) (text.toList.flatMap escapeChar)
      ⟨depth, .string⟩ := by
    induction text.toList with
    | nil => exact .nil
    | cons c cs ih => exact (indents_escapeChar c).append ih
  exact Indents.cons (hchars.append ⟨rfl, rfl⟩)

/-! ### Containers -/

/-- The two pairs of brackets. -/
def IsBrackets (opening closing : Char) : Prop :=
  opening = '[' ∧ closing = ']' ∨ opening = '\x7b' ∧ closing = '\x7d'

/-- A part of a container is laid out as its lines, and does not start like the end of a container. -/
def IndentsPart (depth : Nat) (part lines : List Char) : Prop :=
  Indents ⟨depth, .outside⟩ part lines ⟨depth, .outside⟩ ∧
    ∃ c cs, part = c :: cs ∧ Indenter.isClosing c = false

/-- The parts of a container after its first one: each starts on a new line behind a comma. -/
theorem indents_parts {parts lines : List (List Char)} (h : List.Forall₂ (IndentsPart depth) parts lines) :
    Indents ⟨depth, .outside⟩ (parts.flatMap (',' :: ·)) ((lines.map (lineBreak depth ++ ·)).flatMap (',' :: ·))
      ⟨depth, .outside⟩ := by
  induction h with
  | nil => exact .nil
  | @cons part line parts lines hpart _ ih =>
    have hcomma : Indents ⟨depth, .outside⟩ [','] (',' :: lineBreak depth) ⟨depth, .outside⟩ :=
      ⟨by simp [Indenter.indent, Indenter.before, Indenter.behind, Indenter.isClosing], rfl⟩
    have hall := (hcomma.append hpart.1).append ih
    simpa using hall

/-- A container is laid out over lines, one part a line, and an empty one is not. -/
theorem Indents.bracket {opening closing : Char} (hbrackets : IsBrackets opening closing)
    {parts lines : List (List Char)} (h : List.Forall₂ (IndentsPart (depth + 1)) parts lines) :
    Indents ⟨depth, .outside⟩ (bracket opening closing parts) (bracketLines opening closing depth lines)
      ⟨depth, .outside⟩ := by
  cases h with
  | nil => rcases hbrackets with ⟨rfl, rfl⟩ | ⟨rfl, rfl⟩ <;> exact ⟨rfl, rfl⟩
  | @cons part line parts lines hpart hparts =>
    have hopen : Indents ⟨depth, .outside⟩ [opening] [opening] ⟨depth + 1, .opened⟩ := by
      rcases hbrackets with ⟨rfl, rfl⟩ | ⟨rfl, rfl⟩ <;> exact ⟨rfl, rfl⟩
    have hclose : Indents ⟨depth + 1, .outside⟩ [closing] (lineBreak depth ++ [closing]) ⟨depth, .outside⟩ := by
      rcases hbrackets with ⟨rfl, rfl⟩ | ⟨rfl, rfl⟩ <;>
        exact ⟨by simp [Indenter.indent, Indenter.before, Indenter.behind, Indenter.isClosing], rfl⟩
    obtain ⟨hfirst, c, cs, rfl, hc⟩ := hpart
    have hall := hopen.append ((hfirst.opened hc).append ((indents_parts hparts).append hclose))
    simp only [Json.bracket, bracketLines, List.isEmpty_cons, Bool.false_eq_true, if_false, List.map_cons,
      Traversal.intercalate_cons]
    simpa [lineBreak] using hall

/-! ### Values -/

/-- No value starts like the end of a container. -/
theorem exists_compactChars_eq_cons (j : Json) :
    ∃ c cs, j.compactChars = c :: cs ∧ Indenter.isClosing c = false := by
  cases j with
  | null =>
    rw [compactChars]
    exact ⟨_, _, rfl, rfl⟩
  | bool b =>
    rw [compactChars]
    cases b <;> exact ⟨_, _, rfl, rfl⟩
  | number n =>
    rw [compactChars]
    obtain ⟨c, cs, hn⟩ := List.exists_cons_of_ne_nil n.chars_ne_nil
    refine ⟨c, cs, hn, isClosing_of_isWordChar ?_⟩
    exact List.all_eq_true.1 n.all_isWordChar c (hn ▸ List.mem_cons_self)
  | string s =>
    rw [compactChars]
    exact ⟨_, _, rfl, rfl⟩
  | array items =>
    rw [compactChars]
    exact ⟨_, _, rfl, rfl⟩
  | object members =>
    rw [compactChars]
    exact ⟨_, _, rfl, rfl⟩

theorem indents_compactChars (j : Json) (depth : Nat) :
    Indents ⟨depth, .outside⟩ j.compactChars (prettyChars depth j) ⟨depth, .outside⟩ := by
  induction j generalizing depth with
  | null =>
    rw [compactChars, prettyChars]
    exact indents_word rfl
  | bool b =>
    rw [compactChars, prettyChars]
    cases b <;> exact indents_word rfl
  | number n =>
    rw [compactChars, prettyChars]
    exact indents_word n.all_isWordChar
  | string s =>
    rw [compactChars, prettyChars]
    exact indents_quoted s
  | array items ih =>
    rw [compactChars, prettyChars]
    refine .bracket (.inl ⟨rfl, rfl⟩) (List.forall₂_map_left_iff.2 (List.forall₂_map_right_iff.2 ?_))
    exact List.forall₂_same.2 fun j hj => ⟨ih j hj (depth + 1), exists_compactChars_eq_cons j⟩
  | object members ih =>
    rw [compactChars, prettyChars]
    refine .bracket (.inr ⟨rfl, rfl⟩) (List.forall₂_map_left_iff.2 (List.forall₂_map_right_iff.2 ?_))
    refine List.forall₂_same.2 fun m hm => ⟨?_, '"', _, rfl, rfl⟩
    have hcolon : Indents ⟨depth + 1, .outside⟩ [':'] [':', ' '] ⟨depth + 1, .outside⟩ := ⟨rfl, rfl⟩
    exact (indents_quoted m.1).append (hcolon.append (ih m hm (depth + 1)))

end Layout

/-- What is written over lines is the text without blanks, laid out. -/
theorem toList_pretty (j : Json) : j.pretty.toList = Indenter.indent ⟨0, .outside⟩ j.compact.toList := by
  rw [pretty, compact, String.toList_ofList, String.toList_ofList]
  exact (indents_compactChars j 0).1.symm

/-- Brackets in a string are none. -/
example : Indenter.indent ⟨0, .outside⟩ "\x7b\"a\":[],\"b\":[1,\"[\"]\x7d".toList =
    "\x7b\n  \"a\": [],\n  \"b\": [\n    1,\n    \"[\"\n  ]\n\x7d".toList := by decide

/-- The output is the value over lines, the last one ended: it has the layout of the indenter, it is a JSON text however
deep the value is, and it reads as the text without blanks. -/
structure WrittenOverLines (j : Json) (output : String) : Prop where
  layout : output.toList = Indenter.indent ⟨0, .outside⟩ j.compact.toList ++ ['\n']
  tokens : Token.readAll? output.toList = Token.readAll? j.compact.toList
  tree : ∃ v, Raw.ofString? output = some v ∧ Raw.ofString? j.compact = some v
  reads : ofString? output = ofString? j.compact

/-- **What is printed over lines reads as it does without blanks.** -/
theorem writtenOverLines_pretty (j : Json) : j.WrittenOverLines (j.pretty ++ "\n") := by
  have hlayout : (j.pretty ++ "\n").toList = Indenter.indent ⟨0, .outside⟩ j.compact.toList ++ ['\n'] := by
    rw [String.toList_append, toList_pretty]
    rfl
  have htokens : Token.readAll? (j.pretty ++ "\n").toList = Token.readAll? j.compact.toList := by
    rw [hlayout, Token.readAll?_append_newline, readAll?_indent]
  have htree : Raw.ofString? (j.pretty ++ "\n") = Raw.ofString? j.compact := by
    rw [Raw.ofString?, htokens, Raw.ofString?]
  obtain ⟨v, hv⟩ := exists_readsRaw j
  have hcompact : Raw.ofString? j.compact = some v := ofString?_of_readsRaw hv
  exact ⟨hlayout, htokens, ⟨v, htree.trans hcompact, hcompact⟩, by rw [ofString?, htree, ofString?]⟩

end CallContract.Json
