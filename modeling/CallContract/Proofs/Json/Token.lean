import CallContract.Json.Printer
import CallContract.Json.Raw
import CallContract.Proofs.Traversal

/-!
# Tokens of printed JSON

`Lexes cs ts` says that `cs` is read as the tokens `ts` wherever no token is under way. It holds of words
(`lexes_word`) and of every string between quotes (`exists_lexes_quoted`), it goes through punctuation (`Lexes.join`),
and so through the printed containers (`Lexes.bracket`). Blanks outside of strings end words and are passed over
(`Lexer.step_of_blank`).
-/

namespace CallContract.Json.Token

/-- Where no token is under way, the characters are read as the tokens. The last one may still be open. -/
def Lexes (cs : List Char) (ts : List Token) : Prop :=
  ∀ done, ∃ l, cs.foldlM Lexer.step ⟨done, .nothing⟩ = some l ∧ l.finish? = some (done.reverse ++ ts)

theorem readAll?_of_lexes {cs : List Char} {ts : List Token} (h : Lexes cs ts) : readAll? cs = some ts := by
  obtain ⟨l, hl, hf⟩ := h []
  rw [readAll?, hl]
  exact hf

theorem Lexes.nil : Lexes [] [] :=
  fun done => ⟨⟨done, .nothing⟩, rfl, by simp [Lexer.finish?]⟩

/-! ## Characters that end a word -/

/-- A character that is neither blank nor a quote nor punctuation. -/
def isWordChar (c : Char) : Bool :=
  !isBlank c && c != '"' && (punctuation? c).isNone

theorem isWordChar_iff {c : Char} :
    isWordChar c = true ↔ isBlank c = false ∧ c ≠ '"' ∧ punctuation? c = none := by
  simp only [isWordChar, Bool.and_eq_true, Bool.not_eq_true', bne_iff_ne, Option.isNone_iff_eq_none, and_assoc]

theorem isWordChar_of_isDigit {c : Char} (h : c.isDigit = true) : isWordChar c = true := by
  have hne : ∀ d : Char, d.isDigit = false → c ≠ d := by
    rintro d hd rfl
    exact absurd (hd.symm.trans h) (by decide)
  simp [isWordChar, isBlank, punctuation?, hne ' ' rfl, hne '\t' rfl, hne '\n' rfl, hne '\r' rfl,
    hne '"' rfl, hne '[' rfl, hne ']' rfl, hne '\x7b' rfl, hne '\x7d' rfl, hne ',' rfl, hne ':' rfl]

/-- Where no string is under way, a character that is part of no word ends the token and starts anew. -/
theorem Lexer.step_of_not_isWordChar {l : Lexer} {c : Char} {ts : List Token} (hl : l.finish? = some ts)
    (hc : isWordChar c = false) : l.step c = some (.begin ts.reverse c) := by
  obtain ⟨done, pending⟩ := l
  cases pending with
  | nothing =>
    obtain rfl := Option.some.inj hl
    rw [Lexer.step, List.reverse_reverse]
  | word chars =>
    obtain rfl := Option.some.inj hl
    have hend : (isBlank c || c == '"' || (punctuation? c).isSome) = true := by
      rw [isWordChar] at hc
      cases hb : isBlank c <;> cases hp : punctuation? c <;> simp_all
    rw [Lexer.step, if_pos hend, List.reverse_reverse]
  | string units => exact nomatch hl
  | escape units => exact nomatch hl
  | code units missing value => exact nomatch hl

/-! ## Blanks -/

/-- A blank ends the token under way. -/
theorem Lexer.step_of_blank {l : Lexer} {c : Char} {ts : List Token} (hl : l.finish? = some ts)
    (h : isBlank c = true) : l.step c = some ⟨ts.reverse, .nothing⟩ := by
  rw [Lexer.step_of_not_isWordChar hl (by simp [isWordChar, h]), Lexer.begin, if_pos h]

theorem Lexer.foldlM_blanks {cs : List Char} (h : ∀ c ∈ cs, isBlank c = true) (done : List Token) :
    cs.foldlM Lexer.step ⟨done, .nothing⟩ = some ⟨done, .nothing⟩ := by
  induction cs with
  | nil => rfl
  | cons c cs ih =>
    obtain ⟨hc, hcs⟩ := List.forall_mem_cons.1 h
    rw [List.foldlM_cons, Lexer.step_of_blank rfl hc, List.reverse_reverse]
    exact ih hcs

/-- The end of the last line is no part of any token: in a string it could not stand. -/
theorem readAll?_append_newline (cs : List Char) : readAll? (cs ++ ['\n']) = readAll? cs := by
  have hlast (l : Lexer) : (l.step '\n').bind Lexer.finish? = l.finish? := by
    cases hl : l.finish? with
    | some ts =>
      rw [Lexer.step_of_blank hl rfl, Option.bind_some, Lexer.finish?, List.reverse_reverse]
    | none =>
      obtain ⟨done, pending⟩ := l
      cases pending with
      | nothing => exact nomatch hl
      | word chars => exact nomatch hl
      | string units => rfl
      | escape units => rfl
      | code units missing value => rfl
  rw [readAll?, readAll?, List.foldlM_append]
  cases cs.foldlM Lexer.step ⟨[], .nothing⟩ with
  | none => rfl
  | some l =>
    show (['\n'].foldlM Lexer.step l).bind Lexer.finish? = l.finish?
    rw [List.foldlM_cons, ← hlast l]
    cases l.step '\n' <;> rfl

/-! ## Punctuation -/

theorem Lexer.begin_of_punctuation {c : Char} {t : Token} (done : List Token) (h : punctuation? c = some t) :
    Lexer.begin done c = ⟨t :: done, .nothing⟩ := by
  have hb : isBlank c = false := by
    refine Bool.eq_false_iff.2 fun hb => ?_
    simp only [isBlank, Bool.or_eq_true, beq_iff_eq] at hb
    rcases hb with ((rfl | rfl) | rfl) | rfl <;> exact nomatch h
  have hq : c ≠ '"' := by
    rintro rfl
    exact nomatch h
  simp [Lexer.begin, hb, hq, h]

/-- Punctuation ends the token under way and is a token of its own. -/
theorem Lexer.step_of_punctuation {l : Lexer} {c : Char} {t : Token} {ts : List Token} (hl : l.finish? = some ts)
    (h : punctuation? c = some t) : l.step c = some ⟨t :: ts.reverse, .nothing⟩ := by
  rw [Lexer.step_of_not_isWordChar hl (by simp [isWordChar, h]), Lexer.begin_of_punctuation _ h]

/-- Two texts with punctuation between them. -/
theorem Lexes.join {cs ds : List Char} {ts us : List Token} {c : Char} {t : Token} (hcs : Lexes cs ts)
    (hc : punctuation? c = some t) (hds : Lexes ds us) : Lexes (cs ++ c :: ds) (ts ++ t :: us) := by
  intro done
  obtain ⟨l, hl, hf⟩ := hcs done
  obtain ⟨l', hl', hf'⟩ := hds (t :: (done.reverse ++ ts).reverse)
  refine ⟨l', ?_, ?_⟩
  · rw [List.foldlM_append, hl]
    show (c :: ds).foldlM Lexer.step l = some l'
    rw [List.foldlM_cons, Lexer.step_of_punctuation hf hc]
    exact hl'
  · simpa using hf'

/-- Parts between brackets, separated by commas. -/
theorem Lexes.bracket {opening closing : Char} {t u : Token} {parts : List (List Char)} {tss : List (List Token)}
    (ho : punctuation? opening = some t) (hc : punctuation? closing = some u) (h : List.Forall₂ Lexes parts tss) :
    Lexes (Json.bracket opening closing parts) (t :: [Token.comma].intercalate tss ++ [u]) := by
  have hparts : Lexes ([','].intercalate parts) ([Token.comma].intercalate tss) := by
    cases h with
    | nil => exact Lexes.nil
    | @cons part ts parts tss hpart h =>
      rw [Traversal.intercalate_cons, Traversal.intercalate_cons]
      induction h generalizing part ts with
      | nil => simpa using hpart
      | cons hnext _ ih =>
        rw [List.flatMap_cons, List.flatMap_cons]
        exact hpart.join rfl (ih hnext)
  exact Lexes.join (Lexes.join Lexes.nil ho hparts) hc Lexes.nil

/-! ## Words -/

theorem foldlM_word {cs : List Char} (h : ∀ c ∈ cs, isWordChar c = true) (done : List Token) (read : List Char) :
    cs.foldlM Lexer.step ⟨done, .word read⟩ = some ⟨done, .word (cs.reverse ++ read)⟩ := by
  induction cs generalizing read with
  | nil => rfl
  | cons c cs ih =>
    obtain ⟨hc, hcs⟩ := List.forall_mem_cons.1 h
    have hstep : Lexer.step ⟨done, .word read⟩ c = some ⟨done, .word (c :: read)⟩ := by
      obtain ⟨hblank, hquote, hpunctuation⟩ := isWordChar_iff.1 hc
      simp [Lexer.step, hblank, hquote, hpunctuation]
    rw [List.foldlM_cons, hstep]
    show cs.foldlM Lexer.step ⟨done, .word (c :: read)⟩ = _
    rw [ih hcs]
    simp

theorem lexes_word {cs : List Char} (hne : cs ≠ []) (h : ∀ c ∈ cs, isWordChar c = true) : Lexes cs [.word cs] := by
  intro done
  obtain ⟨c, cs, rfl⟩ := List.exists_cons_of_ne_nil hne
  obtain ⟨hc, hcs⟩ := List.forall_mem_cons.1 h
  have hstep : Lexer.step ⟨done, .nothing⟩ c = some ⟨done, .word [c]⟩ := by
    obtain ⟨hblank, hquote, hpunctuation⟩ := isWordChar_iff.1 hc
    simp [Lexer.step, Lexer.begin, hblank, hquote, hpunctuation]
  refine ⟨⟨done, .word (cs.reverse ++ [c])⟩, ?_, by simp [Lexer.finish?]⟩
  rw [List.foldlM_cons, hstep]
  exact foldlM_word hcs done [c]

/-! ## Strings -/

/-- A unit that stands for a character in any string. -/
def Stands (u : StringUnit) (c : Char) : Prop :=
  ∀ units, Raw.chars? (u :: units) = (Raw.chars? units).map (c :: ·)

theorem stands_char (c : Char) : Stands (.char c) c :=
  fun _ => by rw [Raw.chars?]

/-- The code of a character is no surrogate. -/
theorem stands_code (c : Char) : Stands (.code c.toNat) c := by
  intro units
  have hc : c.toNat < 0xD800 ∨ 0xDFFF < c.toNat ∧ c.toNat < 0x110000 := c.valid
  have hhigh : ¬ (0xD800 ≤ c.toNat ∧ c.toNat < 0xDC00) := by omega
  have hlow : ¬ (0xDC00 ≤ c.toNat ∧ c.toNat < 0xE000) := by omega
  have hany : ¬ (0xD800 ≤ c.toNat ∧ c.toNat < 0xE000) := by omega
  cases units with
  | nil => simp [Raw.chars?, hany]
  | cons u units =>
    cases u with
    | char d => simp [Raw.chars?, hany]
    | code low => rw [Raw.chars?, if_neg hhigh, if_neg hlow, Char.ofNat_toNat]

theorem digit?_digitChar {d : Nat} (h : d < 16) : Text.digit? 16 (Nat.digitChar d) = some d := by
  revert d
  decide

theorem step_digitChar {d : Nat} (h : d < 16) (done : List Token) (units : List StringUnit) (missing value : Nat) :
    Lexer.step ⟨done, .code units missing value⟩ (Nat.digitChar d) =
      some (match missing with
        | 0 => ⟨done, .string (.code (16 * value + d) :: units)⟩
        | n + 1 => ⟨done, .code units n (16 * value + d)⟩) := by
  rw [Lexer.step, digit?_digitChar h]
  cases missing <;> rfl

/-- Four digits behind `u` are a code. -/
theorem foldlM_hexDigits4 {n : Nat} (h : n < 0x10000) (done : List Token) (units : List StringUnit) :
    ('\\' :: 'u' :: hexDigits4 n).foldlM Lexer.step ⟨done, .string units⟩ =
      some ⟨done, .string (.code n :: units)⟩ := by
  have hopen : Lexer.step ⟨done, .string units⟩ '\\' = some ⟨done, .escape units⟩ := rfl
  have hu : Lexer.step ⟨done, .escape units⟩ 'u' = some ⟨done, .code units 3 0⟩ := rfl
  have hmod (m : Nat) : m % 16 < 16 := Nat.mod_lt m (by decide)
  have hn : 16 * (16 * (16 * (16 * 0 + n / 4096 % 16) + n / 256 % 16) + n / 16 % 16) + n % 16 = n := by omega
  simp only [hexDigits4, List.map_cons, List.map_nil, List.foldlM_cons, List.foldlM_nil, hopen, hu,
    Option.bind_eq_bind, Option.bind_some, step_digitChar (hmod _), hn]
  rfl

/-- A character is written as one unit that stands for it. -/
theorem exists_stands (c : Char) : ∃ u, Stands u c ∧ ∀ done units,
    (escapeChar c).foldlM Lexer.step ⟨done, .string units⟩ = some ⟨done, .string (u :: units)⟩ := by
  by_cases hnamed : c ∈ ['"', '\\', '\x08', '\x0c', '\n', '\r', '\t']
  · refine ⟨.char c, stands_char c, fun done units => ?_⟩
    simp only [List.mem_cons, List.not_mem_nil, or_false] at hnamed
    rcases hnamed with rfl | rfl | rfl | rfl | rfl | rfl | rfl <;> rfl
  · simp only [List.mem_cons, List.not_mem_nil, or_false, not_or] at hnamed
    obtain ⟨hquote, hbackslash, hb, hf, hn, hr, ht⟩ := hnamed
    rw [escapeChar, if_neg hquote, if_neg hbackslash, if_neg hb, if_neg hf, if_neg hn, if_neg hr, if_neg ht]
    split
    case isTrue hcontrol =>
      exact ⟨.code c.toNat, stands_code c, foldlM_hexDigits4 (by omega)⟩
    case isFalse hcontrol =>
      refine ⟨.char c, stands_char c, fun done units => ?_⟩
      rw [List.foldlM_cons, Lexer.step, if_neg hquote, if_neg hbackslash, if_neg hcontrol]
      rfl

theorem exists_foldlM_escapeChar (cs : List Char) : ∃ units, Raw.chars? units = some cs ∧ ∀ done read,
    (cs.flatMap escapeChar).foldlM Lexer.step ⟨done, .string read⟩ = some ⟨done, .string (units.reverse ++ read)⟩ := by
  induction cs with
  | nil => exact ⟨[], rfl, fun _ _ => rfl⟩
  | cons c cs ih =>
    obtain ⟨units, hcs, hread⟩ := ih
    obtain ⟨u, hu, hstep⟩ := exists_stands c
    refine ⟨u :: units, by rw [hu, hcs]; rfl, fun done read => ?_⟩
    rw [List.flatMap_cons, List.foldlM_append, hstep]
    show (cs.flatMap escapeChar).foldlM Lexer.step ⟨done, .string (u :: read)⟩ = _
    rw [hread]
    simp

/-- A string between quotes is one token, whose units stand for its characters. -/
theorem exists_lexes_quoted (s : String) :
    ∃ units, Raw.text? units = some s ∧ Lexes (quoted s) [.string units] := by
  obtain ⟨units, htext, hread⟩ := exists_foldlM_escapeChar s.toList
  refine ⟨units, by rw [Raw.text?, htext]; simp, fun done => ⟨⟨.string units :: done, .nothing⟩, ?_, ?_⟩⟩
  · have hopen : Lexer.step ⟨done, .nothing⟩ '"' = some ⟨done, .string []⟩ := rfl
    have hclose : Lexer.step ⟨done, .string units.reverse⟩ '"' = some ⟨.string units :: done, .nothing⟩ := by
      rw [Lexer.step, if_pos rfl, List.reverse_reverse]
    rw [quoted, List.cons_append, List.foldlM_cons, hopen]
    show (s.toList.flatMap escapeChar ++ ['"']).foldlM Lexer.step ⟨done, .string []⟩ = _
    rw [List.foldlM_append, hread, List.append_nil]
    show ['"'].foldlM Lexer.step ⟨done, .string units.reverse⟩ = _
    rw [List.foldlM_cons, hclose]
    rfl
  · simp [Lexer.finish?]

end CallContract.Json.Token
