import CallContract.Proofs.Json.Numeral
import CallContract.Proofs.Json.Token

/-!
# How numbers are spelled

A `Spelling` is a numeral by its parts: digits without a superfluous zero, perhaps a fraction and an exponent, and a
sign. Its characters are a numeral of JSON (`Spelling.exists_ofChars?`) and one word (`Spelling.isWordChar_of_mem`).
A decimal in any layout is spelled like this (`Decimal.Layout.exists_spelling`): zeros are written only behind digits
that do not start with one, as the shortest decimal of a positive number is positive (`Decimal.shortest_pos`). So a
JSON number is printed as a word that can be read (`Number.exists_ofWord?`).
-/

namespace CallContract.Json

namespace Numeral

/-! ## Spellings -/

/-- A numeral by its parts. -/
structure Spelling where
  negative : Bool
  whole : List Char
  fraction : Option (List Char)
  exponent : Option (Bool × List Char)
  isWhole : IsWhole whole
  isFraction : ∀ ds, fraction = some ds → IsDigits ds
  isExponent : ∀ e, exponent = some e → IsDigits e.2

def fractionPart : Option (List Char) → List Char
  | none => []
  | some ds => '.' :: ds

def exponentPart : Option (Bool × List Char) → List Char
  | none => []
  | some (negative, ds) => 'e' :: (if negative then '-' else '+') :: ds

/-- The characters behind the sign. -/
def Spelling.magnitude (s : Spelling) : List Char :=
  s.whole ++ (fractionPart s.fraction ++ exponentPart s.exponent)

def Spelling.chars (s : Spelling) : List Char :=
  (if s.negative then ['-'] else []) ++ s.magnitude

/-! ### Reading the parts -/

section Parts

variable {fraction : Option (List Char)} {exponent : Option (Bool × List Char)} {c : Char}

theorem head?_exponentPart (h : (exponentPart exponent).head? = some c) : c = 'e' := by
  cases exponent with
  | none => exact nomatch h
  | some e => exact (Option.some.inj h).symm

/-- No digit follows the whole part. -/
theorem isDigit_of_head?_fractionPart (h : (fractionPart fraction ++ exponentPart exponent).head? = some c) :
    c.isDigit = false := by
  cases fraction with
  | none =>
    rw [head?_exponentPart h]
    rfl
  | some ds =>
    rw [← Option.some.inj h]
    rfl

theorem takeFraction?_fractionPart (h : ∀ ds, fraction = some ds → IsDigits ds) :
    takeFraction? (fractionPart fraction ++ exponentPart exponent) =
      some (fraction.map (·.map Text.decimalDigit), exponentPart exponent) := by
  cases fraction with
  | some ds =>
    have hrest : ∀ c, (exponentPart exponent).head? = some c → c.isDigit = false := by
      intro c hc
      rw [head?_exponentPart hc]
      rfl
    show (takeDigits1? (ds ++ exponentPart exponent)).map _ = _
    rw [takeDigits1?_append (h ds rfl) hrest]
    rfl
  | none => cases exponent <;> rfl

theorem exists_takeExponent?_exponentPart (h : ∀ e, exponent = some e → IsDigits e.2) :
    ∃ found, takeExponent? (exponentPart exponent) = some (found, []) := by
  cases exponent with
  | none => exact ⟨none, rfl⟩
  | some e =>
    obtain ⟨negative, ds⟩ := e
    have hds : takeDigits1? (ds ++ []) = _ := takeDigits1?_append (h _ rfl) nofun
    rw [List.append_nil] at hds
    cases negative <;> simp [exponentPart, takeExponent?, takeExponentDigits?, hds]

end Parts

/-- What is spelled is a numeral. -/
theorem Spelling.exists_ofChars? (s : Spelling) : ∃ numeral, ofChars? s.chars = some numeral := by
  have hwhole : takeWhole? s.magnitude = some (s.whole.map Text.decimalDigit, _) :=
    takeWhole?_append s.isWhole fun _ => isDigit_of_head?_fractionPart
  have hfraction : takeFraction? (fractionPart s.fraction ++ exponentPart s.exponent) = _ :=
    takeFraction?_fractionPart s.isFraction
  obtain ⟨found, hexponent⟩ := exists_takeExponent?_exponentPart s.isExponent
  rw [chars]
  cases s.negative with
  | true => simp [ofChars?, hwhole, hfraction, hexponent]
  | false =>
    obtain ⟨c, cs, hc⟩ := List.exists_cons_of_ne_nil s.isWhole.digits.1
    have hminus : c ≠ '-' := by
      rintro rfl
      exact absurd (s.isWhole.digits.2 '-' (hc ▸ List.mem_cons_self)) (by decide)
    rw [if_neg Bool.false_ne_true, List.nil_append, ofChars?]
    · simp [hwhole, hfraction, hexponent]
    · simp [magnitude, hc, hminus]

/-! ### Words -/

theorem IsDigits.isWordChar {ds : List Char} (h : IsDigits ds) {c : Char} (hc : c ∈ ds) :
    Token.isWordChar c = true :=
  Token.isWordChar_of_isDigit (h.2 c hc)

theorem isWordChar_of_mem_fractionPart {fraction : Option (List Char)} (h : ∀ ds, fraction = some ds → IsDigits ds)
    {c : Char} (hc : c ∈ fractionPart fraction) : Token.isWordChar c = true := by
  cases fraction with
  | none => exact nomatch hc
  | some ds =>
    rcases List.mem_cons.1 hc with rfl | hc
    · rfl
    · exact (h ds rfl).isWordChar hc

theorem isWordChar_of_mem_exponentPart {exponent : Option (Bool × List Char)}
    (h : ∀ e, exponent = some e → IsDigits e.2) {c : Char} (hc : c ∈ exponentPart exponent) :
    Token.isWordChar c = true := by
  cases exponent with
  | none => exact nomatch hc
  | some e =>
    simp only [exponentPart, List.mem_cons] at hc
    rcases hc with rfl | rfl | hc
    · rfl
    · split <;> rfl
    · exact (h e rfl).isWordChar hc

/-- What is spelled is one word. -/
theorem Spelling.isWordChar_of_mem (s : Spelling) {c : Char} (h : c ∈ s.chars) : Token.isWordChar c = true := by
  simp only [chars, magnitude, List.mem_append] at h
  rcases h with hsign | hwhole | hfraction | hexponent
  · split at hsign
    · rw [List.mem_singleton.1 hsign]
      rfl
    · exact nomatch hsign
  · exact s.isWhole.digits.isWordChar hwhole
  · exact isWordChar_of_mem_fractionPart s.isFraction hfraction
  · exact isWordChar_of_mem_exponentPart s.isExponent hexponent

/-! ### Digits and a point -/

section Digits

variable {ds fraction : List Char}

theorem IsDigits.of_sublist {es : List Char} (h : IsDigits ds) (hsub : es.Sublist ds) (hne : es ≠ []) : IsDigits es :=
  ⟨hne, fun c hc => h.2 c (hsub.subset hc)⟩

theorem IsDigits.append_zeros (h : IsDigits ds) (n : Nat) : IsDigits (ds ++ List.replicate n '0') := by
  refine ⟨List.append_ne_nil_of_left_ne_nil h.1 _, fun c hc => ?_⟩
  rcases List.mem_append.1 hc with hc | hc
  · exact h.2 c hc
  · rw [(List.mem_replicate.1 hc).2]
    rfl

theorem IsDigits.zeros_append (h : IsDigits ds) (n : Nat) : IsDigits (List.replicate n '0' ++ ds) := by
  refine ⟨List.append_ne_nil_of_right_ne_nil _ h.1, fun c hc => (h.append_zeros n).2 c ?_⟩
  exact List.mem_append.2 (List.mem_append.1 hc).symm

theorem IsWhole.exists_spelling (h : IsWhole ds) : ∃ s : Spelling, s.magnitude = ds :=
  ⟨⟨false, ds, none, none, h, nofun, nofun⟩, List.append_nil ds⟩

theorem IsWhole.exists_spelling_point (h : IsWhole ds) (h' : IsDigits fraction) :
    ∃ s : Spelling, s.magnitude = ds ++ '.' :: fraction := by
  refine ⟨⟨false, ds, some fraction, none, h, ?_, nofun⟩, by simp [Spelling.magnitude, fractionPart, exponentPart]⟩
  rintro _ ⟨⟩
  exact h'

end Digits

end Numeral

end CallContract.Json

/-! ## Decimals -/

namespace CallContract.Decimal

open Json.Numeral

/-! ### The shortest decimal -/

theorem Interval.contains_zero {i : Interval} (h : 0 < i.lower) : i.contains 0 = false := by
  simp only [Interval.contains, Nat.zero_mul, Nat.le_zero, Nat.not_lt_zero, decide_false, Bool.false_and]
  split <;> simp [h.ne']

theorem Interval.contains_of_nearest? {tie : Tie} {i : Interval} {n : Nat} (h : i.nearest? tie = some n) :
    i.contains n = true := by
  simp only [Interval.nearest?] at h
  split at h
  · obtain rfl := Option.some.inj h
    split <;> assumption
  · obtain rfl := Option.some.inj h
    assumption
  · obtain rfl := Option.some.inj h
    assumption
  · exact nomatch h

/-- What rounds to a positive number is positive. -/
theorem Interval.lower_pos {m : Nat} (hm : 0 < m) (q k : Int) : 0 < ((ofMagnitude m q).inSteps k).lower := by
  have hpow (b : Nat) (hb : 0 < b) (n : Nat) : 0 < Nat.pow b n := Nat.pow_pos hb
  have hlower : 0 < (ofMagnitude m q).lower := by
    refine Nat.mul_pos ?_ (hpow 2 (by decide) _)
    split <;> omega
  exact Nat.mul_pos hlower (hpow 10 (by decide) _)

theorem shortest_pos (tie : Tie) {m : Nat} (hm : 0 < m) (q : Int) : 0 < (shortest tie m q).digits := by
  unfold shortest
  simp only
  generalize hfound : List.findSome? _ _ = found
  cases found with
  | none => exact hm
  | some d =>
    obtain ⟨steps, -, hsteps⟩ := List.exists_of_findSome?_eq_some hfound
    obtain ⟨n, hn, rfl⟩ := Option.map_eq_some_iff.1 hsteps
    refine Nat.pos_of_ne_zero ?_
    rintro rfl
    have hzero := Interval.contains_of_nearest? hn
    rw [Interval.contains_zero (Interval.lower_pos hm q _)] at hzero
    exact nomatch hzero

/-! ### Layouts -/

section Layout

variable {digits : List Char} {exponent : Int}

/-- Zeros are put behind digits that start with no zero, and behind no others. -/
theorem exists_spelling_positional (keepsPoint : Bool) (h : IsWhole digits)
    (hzero : digits.head? ≠ some '0' ∨ exponent = 0) :
    ∃ s : Spelling, s.magnitude = positionalChars keepsPoint digits exponent := by
  unfold positionalChars
  split
  case isTrue hexponent =>
    have hwhole : IsWhole (digits ++ List.replicate exponent.toNat '0') := by
      refine ⟨h.digits.append_zeros _, ?_⟩
      rcases hzero with hhead | rfl
      · right
        obtain ⟨c, cs, rfl⟩ := List.exists_cons_of_ne_nil h.digits.1
        exact hhead
      · simpa using h.noZero
    cases keepsPoint with
    | false =>
      rw [if_neg Bool.false_ne_true, List.append_nil]
      exact hwhole.exists_spelling
    | true => exact hwhole.exists_spelling_point (isDigits_toDigits 0)
  case isFalse hexponent =>
    have hhead : digits.head? ≠ some '0' := hzero.resolve_right (by omega)
    simp only
    split
    case isTrue hplaces =>
      have htake : IsWhole (digits.take (digits.length - (-exponent).toNat)) := by
        refine ⟨h.digits.of_sublist (List.take_sublist _ _) ?_, .inr ?_⟩
        · rw [← List.length_pos_iff_ne_nil, List.length_take]
          omega
        · rwa [List.head?_take, if_neg (by omega)]
      refine htake.exists_spelling_point (h.digits.of_sublist (List.drop_sublist _ _) ?_)
      rw [← List.length_pos_iff_ne_nil, List.length_drop]
      omega
    case isFalse => exact (isWhole_toDigits 0).exists_spelling_point (h.digits.zeros_append _)

/-- One digit stands before the point. -/
theorem exists_spelling_exponent (h : IsDigits digits) (leading : Int) :
    ∃ s : Spelling, s.magnitude = exponentChars digits leading := by
  obtain ⟨c, cs, rfl⟩ := List.exists_cons_of_ne_nil h.1
  obtain ⟨hc, hcs⟩ := List.forall_mem_cons.1 h.2
  have hfirst : IsWhole [c] := by
    refine ⟨⟨List.cons_ne_nil _ _, List.forall_mem_singleton.2 hc⟩, ?_⟩
    by_cases hzero : c = '0'
    · exact .inl (congrArg ([·]) hzero)
    · exact .inr fun hhead => hzero (Option.some.inj hhead)
  have hexponent : ∀ e, some (decide (leading < 0), Nat.toDigits 10 leading.natAbs) = some e → IsDigits e.2 := by
    rintro _ ⟨⟩
    exact isDigits_toDigits _
  cases cs with
  | nil =>
    refine ⟨⟨false, [c], none, some _, hfirst, nofun, hexponent⟩, ?_⟩
    simp [Spelling.magnitude, exponentPart, exponentChars, digitChars, fractionPart]
  | cons d ds =>
    refine ⟨⟨false, [c], some (d :: ds), some _, hfirst, ?_, hexponent⟩, ?_⟩
    · rintro _ ⟨⟩
      exact ⟨List.cons_ne_nil d ds, hcs⟩
    · simp [Spelling.magnitude, exponentPart, exponentChars, digitChars, fractionPart]

theorem Layout.exists_spelling_chars (layout : Layout) {d : Shortest} (h : 0 < d.digits ∨ d = ⟨0, 0⟩) :
    ∃ s : Spelling, s.magnitude = layout.chars d := by
  simp only [Layout.chars]
  split
  · refine exists_spelling_positional _ (isWhole_toDigits d.digits) ?_
    exact h.imp head?_toDigits (congrArg Shortest.exponent)
  · exact exists_spelling_exponent (isDigits_toDigits d.digits) _

/-- **A number is a numeral in any layout.** -/
theorem Layout.exists_spelling (layout : Layout) (negative : Bool) (m : Nat) (q : Int) :
    ∃ s : Spelling, s.chars = layout.numberChars negative m q := by
  have hshortest : ∀ d, (if m = 0 then ⟨0, 0⟩ else shortest layout.tie m q) = d → 0 < d.digits ∨ d = ⟨0, 0⟩ := by
    rintro d rfl
    split
    case isTrue => exact .inr rfl
    case isFalse hm => exact .inl (shortest_pos _ (Nat.pos_of_ne_zero hm) q)
  obtain ⟨s, hs⟩ := layout.exists_spelling_chars (hshortest _ rfl)
  exact ⟨{ s with negative }, congrArg _ hs⟩

end Layout

end CallContract.Decimal

/-! ## JSON numbers -/

namespace CallContract.Json

/-- No numeral is one of the three words of JSON. -/
theorem ofWord?_of_numeral {cs : List Char} {numeral : Numeral} (h : Numeral.ofChars? cs = some numeral) :
    Raw.ofWord? cs = some (.number numeral) := by
  have hnull : cs ≠ "null".toList := by rintro rfl; exact nomatch h
  have htrue : cs ≠ "true".toList := by rintro rfl; exact nomatch h
  have hfalse : cs ≠ "false".toList := by rintro rfl; exact nomatch h
  rw [Raw.ofWord?, if_neg hnull, if_neg htrue, if_neg hfalse, h]
  rfl

namespace Number

/-- A number is printed as a numeral, or as null where it has none. -/
theorem exists_spelling (n : Number) : (∃ s : Numeral.Spelling, s.chars = n.chars) ∨ n.chars = "null".toList := by
  cases n with
  | integer n =>
    obtain ⟨s, hs⟩ := (Numeral.isWhole_toDigits n.natAbs).exists_spelling
    refine .inl ⟨{ s with negative := decide (n < 0) }, ?_⟩
    rw [Numeral.chars_integer, ← hs]
    simp [Numeral.Spelling.chars, Numeral.Spelling.magnitude]
  | float x =>
    cases x with
    | nan => exact .inr rfl
    | infinity negative => exact .inr rfl
    | finite negative m q canonical => exact .inl (floatLayout.exists_spelling negative m q)

theorem exists_ofWord? (n : Number) : ∃ v, Raw.ofWord? n.chars = some v := by
  rcases n.exists_spelling with ⟨s, hs⟩ | hnull
  · obtain ⟨numeral, hnumeral⟩ := s.exists_ofChars?
    exact ⟨_, ofWord?_of_numeral (hs ▸ hnumeral)⟩
  · exact ⟨.null, hnull ▸ rfl⟩

theorem all_isWordChar (n : Number) : n.chars.all Token.isWordChar = true := by
  rcases n.exists_spelling with ⟨s, hs⟩ | hnull
  · rw [← hs]
    exact List.all_eq_true.2 fun _ => s.isWordChar_of_mem
  · rw [hnull]
    rfl

theorem chars_ne_nil (n : Number) : n.chars ≠ [] := by
  intro hnil
  obtain ⟨v, hv⟩ := n.exists_ofWord?
  rw [hnil] at hv
  exact nomatch hv

end Number

end CallContract.Json
