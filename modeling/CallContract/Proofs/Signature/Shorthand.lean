import CallContract.Proofs.Expectation.Grammar
import CallContract.Proofs.Signature.Document

/-!
# Shorthand

A shorthand lists the texts of expectations in one text, with commas between them and any blanks around each. What an
expectation writes has no comma and no blank in it, so no list can be mistaken for another: writing expectations in
shorthand and reading them gives them back (`Signature.shorthandTexts_intercalate`), and so does reading a rendering,
which is a shorthand with a blank behind each comma (`Signature.shorthandTexts_render`).

What comes of any shorthand is settled by the first of four objections, to a blank name, to a blank shorthand and to the
first piece that is not well-formed between its blanks (`Signature.Written`). The main statement is
`Signature.shorthand_inverse`.
-/

namespace CallContract

/-! ## Characters of expectations -/

namespace Expectation

theorem not_blank_of_mem_raw (e : Expectation) : ∀ c ∈ e.raw.toList, Text.isBlank c = false := by
  intro c hc
  have hgiven := e.forall_mem_raw (p := fun c => !Text.isBlank c) rfl fun tag => by cases tag <;> rfl
  simpa using hgiven c hc

theorem ne_comma_of_mem_raw (e : Expectation) : ∀ c ∈ e.raw.toList, c ≠ ',' := by
  intro c hc
  have hne := e.forall_mem_raw (p := (· != ',')) rfl fun tag => by cases tag <;> rfl
  simpa using hne c hc

theorem trimmed_raw (e : Expectation) : Text.Trimmed e.raw where
  head c hc := e.not_blank_of_mem_raw c (List.mem_of_mem_head? hc)
  last c hc := e.not_blank_of_mem_raw c (List.mem_of_getLast? hc)

theorem allBlank_raw (e : Expectation) : Text.allBlank e.raw = false := by
  obtain ⟨c, hc⟩ : ∃ c, c ∈ e.raw.toList := by
    refine List.exists_mem_of_ne_nil _ fun hnil => e.raw_ne_empty ?_
    exact String.toList_injective hnil
  exact Text.allBlank_eq_false_iff.2 ⟨c, hc, e.not_blank_of_mem_raw c hc⟩

theorem raw_injective : Function.Injective raw := by
  intro e f h
  exact Except.ok.inj (e.parse_raw.symm.trans (h ▸ f.parse_raw))

end Expectation

namespace Signature

variable {name shorthand : String} {texts pieces : List String} {es : List Expectation} {s : Signature}

/-! ## Reading what is written -/

theorem shorthandTexts_of_given (h : Text.allBlank shorthand = false) :
    shorthandTexts shorthand = (Text.pieces ',' shorthand).map Text.trim := by
  rw [shorthandTexts, h, if_neg Bool.false_ne_true]

/-- A piece is an expectation with blanks around it, so no comma is in it. -/
theorem not_mem_of_pads {e : Expectation} {piece : String} (h : Text.Pads e.raw piece) : ',' ∉ piece.toList := by
  obtain ⟨before, after, hbefore, hafter, rfl⟩ := h
  have hblank : ∀ t : String, Text.allBlank t = true → ',' ∉ t.toList := fun t ht hmem =>
    Bool.false_ne_true (List.all_eq_true.1 ht ',' hmem)
  simp only [String.toList_append, List.mem_append, not_or]
  exact ⟨⟨hblank before hbefore, fun hmem => e.ne_comma_of_mem_raw ',' hmem rfl⟩, hblank after hafter⟩

theorem not_mem_of_forall_pads
    (h : List.Forall₂ (fun (e : Expectation) piece => Text.Pads e.raw piece) es pieces) :
    ∀ piece ∈ pieces, ',' ∉ piece.toList := by
  induction h with
  | nil => nofun
  | cons hpads _ ih => exact List.forall_mem_cons.2 ⟨not_mem_of_pads hpads, ih⟩

theorem trim_of_pads_raw {e : Expectation} {piece : String} (h : Text.Pads e.raw piece) : Text.trim piece = e.raw :=
  Text.trim_eq_iff.2 ⟨h, e.trimmed_raw⟩

theorem map_trim_of_pads (h : List.Forall₂ (fun (e : Expectation) piece => Text.Pads e.raw piece) es pieces) :
    pieces.map Text.trim = es.map Expectation.raw := by
  induction h with
  | nil => rfl
  | cons hpads _ ih => rw [List.map_cons, List.map_cons, ih, trim_of_pads_raw hpads]

/-- A list of expectations with blanks around them and commas between them is not blank. -/
theorem allBlank_intercalate {e : Expectation} {piece : String} (h : Text.Pads e.raw piece) (pieces : List String) :
    Text.allBlank (",".intercalate (piece :: pieces)) = false := by
  obtain ⟨c, hc, hblank⟩ := Text.allBlank_eq_false_iff.1 e.allBlank_raw
  refine Text.allBlank_eq_false_iff.2 ⟨c, ?_, hblank⟩
  have hjoin : (",".intercalate (piece :: pieces)).toList =
      piece.toList ++ (pieces.map String.toList).flatMap (',' :: ·) := by
    rw [String.toList_intercalate, List.map_cons]
    exact Traversal.intercalate_cons ',' _ _
  obtain ⟨before, after, -, -, rfl⟩ := h
  rw [hjoin]
  simp only [String.toList_append, List.mem_append]
  exact .inl (.inl (.inr hc))

/-- **A shorthand lists what was written in it**, whatever blanks stand around it. -/
theorem shorthandTexts_intercalate
    (h : List.Forall₂ (fun (e : Expectation) piece => Text.Pads e.raw piece) es pieces) :
    shorthandTexts (",".intercalate pieces) = es.map Expectation.raw := by
  have hfree := not_mem_of_forall_pads h
  have hmap := map_trim_of_pads h
  cases h with
  | nil => rfl
  | @cons e piece es pieces hpads hrest =>
    have hsplits : Text.Splits ',' (",".intercalate (piece :: pieces)) (piece :: pieces) :=
      ⟨List.cons_ne_nil piece pieces, hfree, rfl⟩
    rw [shorthandTexts_of_given (allBlank_intercalate hpads pieces), Text.pieces_eq_iff.2 hsplits, hmap]

/-! ## Renderings -/

/-- A comma and a blank between texts are a comma between texts of which all but the first start with a blank. -/
theorem intercalate_comma_blank (text : String) (texts : List String) :
    ", ".intercalate (text :: texts) = ",".intercalate (text :: texts.map (" " ++ ·)) := by
  induction texts generalizing text with
  | nil => rw [List.map_nil, String.intercalate_singleton, String.intercalate_singleton]
  | cons next texts ih =>
    have hcomma : ", " = "," ++ " " := rfl
    rw [String.intercalate_cons_cons, ih next, List.map_cons, String.intercalate_cons_cons,
      String.intercalate_cons_append, hcomma]
    simp only [String.append_assoc]

/-- **A rendering is a shorthand** for the expectations in it. -/
theorem shorthandTexts_render (es : List Expectation) :
    shorthandTexts (Expectation.render es) = es.map Expectation.raw := by
  cases es with
  | nil => rfl
  | cons e es =>
    have hpads : List.Forall₂ (fun (e : Expectation) piece => Text.Pads e.raw piece) (e :: es)
        (e.raw :: (es.map Expectation.raw).map (" " ++ ·)) := by
      refine .cons ⟨"", "", rfl, rfl, by simp⟩ ?_
      rw [List.map_map, List.forall₂_map_right_iff]
      exact List.forall₂_same.2 fun f _ => ⟨" ", "", rfl, rfl, by simp⟩
    rw [Expectation.render, List.map_cons, intercalate_comma_blank, shorthandTexts_intercalate hpads, List.map_cons]

theorem render_injective : Function.Injective Expectation.render := by
  intro es fs h
  refine List.map_injective_iff.2 Expectation.raw_injective ?_
  rw [← shorthandTexts_render, ← shorthandTexts_render, h]

/-! ## Any shorthand -/

/-- What comes of a name and a shorthand, by the first objection to them. -/
inductive Written (name shorthand : String) : Except Error Signature → Prop where
  | blankName (blank : ∀ c ∈ name.toList, Text.isBlank c = true) :
      Written name shorthand (.error (.missingField "name"))
  | blankShorthand (named : ∃ c ∈ name.toList, Text.isBlank c = false)
      (blank : ∀ c ∈ shorthand.toList, Text.isBlank c = true) :
      Written name shorthand (.error (.expectation .missing))
  | malformed {before after : List String} {piece text segment : String}
      (named : ∃ c ∈ name.toList, Text.isBlank c = false) (given : ∃ c ∈ shorthand.toList, Text.isBlank c = false)
      (split : Text.Splits ',' shorthand (before ++ piece :: after))
      (wellFormed : ∀ p ∈ before, ∃ t, Text.TrimsTo p t ∧ Expectation.WellFormed t)
      (trims : Text.TrimsTo piece text) (bad : Expectation.FirstBadSegment text segment) :
      Written name shorthand (.error (.expectation (.malformed segment)))
  | signature {pieces texts : List String} {compiled : List Expectation}
      (named : ∃ c ∈ name.toList, Text.isBlank c = false) (given : ∃ c ∈ shorthand.toList, Text.isBlank c = false)
      (split : Text.Splits ',' shorthand pieces) (trims : List.Forall₂ Text.TrimsTo pieces texts)
      (wellFormed : ∀ text ∈ texts, Expectation.WellFormed text)
      (parses : Expectation.parseList texts = .ok compiled) :
      Written name shorthand (.ok { name, expects := texts, compiled })

variable {result : Except Error Signature}

theorem ofShorthand_eq_compile (name shorthand : String) :
    ofShorthand name shorthand = compile { name, expects := shorthandTexts shorthand } := rfl

/-- What is said to come of a shorthand comes of it. -/
theorem Written.ofShorthand_eq (h : Written name shorthand result) : ofShorthand name shorthand = result := by
  rw [ofShorthand_eq_compile]
  cases h with
  | blankName blank => exact compile_of_blank (List.all_eq_true.2 blank)
  | blankShorthand named blank =>
    have htexts : shorthandTexts shorthand = [] := if_pos (List.all_eq_true.2 blank)
    rw [htexts]
    exact compile_of_parse_error (Text.allBlank_eq_false_iff.2 named) rfl
  | @malformed before after piece text segment named given split wellFormed trims bad =>
    have htexts : shorthandTexts shorthand = before.map Text.trim ++ text :: after.map Text.trim := by
      rw [shorthandTexts_of_given (Text.allBlank_eq_false_iff.2 given), Text.pieces_eq_iff.2 split, List.map_append,
        List.map_cons, Text.trim_eq_iff.2 trims]
    have hbefore : ∀ t ∈ before.map Text.trim, Expectation.WellFormed t := by
      intro t ht
      obtain ⟨p, hp, rfl⟩ := List.mem_map.1 ht
      obtain ⟨t, htrims, hwell⟩ := wellFormed p hp
      exact Text.trim_eq_iff.2 htrims ▸ hwell
    rw [htexts]
    exact compile_of_parse_error (Text.allBlank_eq_false_iff.2 named)
      (Expectation.parseList_of_firstBadSegment _ hbefore bad)
  | @signature pieces texts compiled named given split trims wellFormed parses =>
    have htexts : shorthandTexts shorthand = texts := by
      rw [shorthandTexts_of_given (Text.allBlank_eq_false_iff.2 given), Text.pieces_eq_iff.2 split]
      clear split wellFormed parses
      induction trims with
      | nil => rfl
      | cons htrims _ ih => rw [List.map_cons, ih, Text.trim_eq_iff.2 htrims]
    rw [htexts]
    exact Compiled.compile (s := { name, expects := texts, compiled }) ⟨Text.allBlank_eq_false_iff.2 named, parses⟩ []

/-- Something comes of every shorthand. -/
theorem exists_written (name shorthand : String) : ∃ result, Written name shorthand result := by
  cases hname : Text.allBlank name with
  | true => exact ⟨_, .blankName (List.all_eq_true.1 hname)⟩
  | false =>
    have named := Text.allBlank_eq_false_iff.1 hname
    cases hgiven : Text.allBlank shorthand with
    | true => exact ⟨_, .blankShorthand named (List.all_eq_true.1 hgiven)⟩
    | false =>
      have given := Text.allBlank_eq_false_iff.1 hgiven
      have split := Text.splits_pieces ',' shorthand
      by_cases hwell : ∀ text ∈ (Text.pieces ',' shorthand).map Text.trim, Expectation.WellFormed text
      · have hne : (Text.pieces ',' shorthand).map Text.trim ≠ [] := fun h => split.ne_nil (List.map_eq_nil_iff.1 h)
        obtain ⟨compiled, parses⟩ := Expectation.exists_parseList_eq_ok hne hwell
        refine ⟨_, .signature named given split (List.forall₂_map_right_iff.2 ?_) hwell parses⟩
        exact List.forall₂_same.2 fun piece _ => Text.trim_eq_iff.1 rfl
      · obtain ⟨before, text, after, htexts, hbefore, hbad⟩ := Expectation.exists_append_of_not_wellFormed hwell
        obtain ⟨segment, bad⟩ := Expectation.exists_firstBadSegment hbad
        obtain ⟨ps, rest, hpieces, rfl, hrest⟩ := List.map_eq_append_iff.1 htexts
        obtain ⟨piece, qs, rfl, rfl, rfl⟩ := List.map_eq_cons_iff.1 hrest
        refine ⟨_, .malformed named given (hpieces ▸ split) (fun p hp => ?_) (Text.trim_eq_iff.1 rfl) bad⟩
        exact ⟨_, Text.trim_eq_iff.1 rfl, hbefore _ (List.mem_map_of_mem hp)⟩

/-- Reading a shorthand gives what comes of it and nothing else. -/
theorem ofShorthand_eq_iff : ofShorthand name shorthand = result ↔ Written name shorthand result := by
  refine ⟨?_, Written.ofShorthand_eq⟩
  rintro rfl
  obtain ⟨result, h⟩ := exists_written name shorthand
  exact h.ofShorthand_eq.symm ▸ h

/-! ## Both directions -/

theorem ofShorthand_of_texts (h : ofTexts name texts = .ok s) (hpads : List.Forall₂ Text.Pads texts pieces) :
    ofShorthand name (",".intercalate pieces) = .ok s := by
  obtain ⟨hcompiled, hs⟩ := compile_eq_ok h
  have hraw : s.compiled.map Expectation.raw = texts := by
    rw [Expectation.map_raw_of_parseList hcompiled.expects, hs]
  rw [← hraw, List.forall₂_map_left_iff] at hpads
  rw [ofShorthand_eq_compile, shorthandTexts_intercalate hpads, hraw]
  exact h

/-- A compiled signature is rebuilt from its rendering, but for a description. -/
theorem ofShorthand_render (h : s.Compiled) :
    ofShorthand s.name (Expectation.render s.compiled) = .ok { s with description := none } := by
  rw [ofShorthand_eq_compile, shorthandTexts_render, Expectation.map_raw_of_parseList h.expects]
  exact Compiled.compile (s := { s with description := none }) ⟨h.name, h.expects⟩ []

/-- **Shorthand and rendering are inverse.** -/
theorem shorthand_inverse :
    (∀ name texts s, ofTexts name texts = .ok s → ∀ pieces, List.Forall₂ Text.Pads texts pieces →
      ofShorthand name (",".intercalate pieces) = .ok s) ∧
    (∀ s : Signature, s.Loaded →
      ofShorthand s.name (Expectation.render s.compiled) = .ok { s with description := none }) ∧
    Function.Injective Expectation.render ∧
    ∀ name shorthand result, ofShorthand name shorthand = result ↔ Written name shorthand result :=
  ⟨fun _ _ _ h _ hpads => ofShorthand_of_texts h hpads, fun _ h => ofShorthand_render h.compiled, render_injective,
    fun _ _ _ => ofShorthand_eq_iff⟩

/-- A tabulator in front, a blank behind and a wide blank in front; a blank inside a piece, which stays there. -/
theorem shorthand_inverse_blanks :
    let s : Signature := ⟨"f", none, ["string", "number|boolean"], [⟨.string, []⟩, ⟨.number, [.boolean]⟩]⟩
    ofTexts "f" ["string", "number|boolean"] = .ok s ∧
      List.Forall₂ Text.Pads ["string", "number|boolean"] ["\tstring ", "\u2003number|boolean"] ∧
      ofShorthand "f" "\tstring ,\u2003number|boolean" = .ok s ∧ s.Loaded ∧
      ofShorthand "f" "string, number|boolean" = .ok s ∧
      Written "f" "string, number |boolean" (.error (.expectation (.malformed "number "))) := by
  intro s
  have hloaded : ofTexts "f" ["string", "number|boolean"] = .ok s := rfl
  have hpads : List.Forall₂ Text.Pads ["string", "number|boolean"] ["\tstring ", "\u2003number|boolean"] :=
    .cons ⟨"\t", " ", rfl, rfl, rfl⟩ (.cons ⟨"\u2003", "", rfl, rfl, rfl⟩ .nil)
  obtain ⟨hread, hrender, -, hiff⟩ := shorthand_inverse
  exact ⟨hloaded, hpads, hread _ _ _ hloaded _ hpads, .texts hloaded, hrender s (.texts hloaded), (hiff _ _ _).1 rfl⟩

end Signature

end CallContract
