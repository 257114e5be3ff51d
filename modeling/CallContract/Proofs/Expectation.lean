import CallContract.Expectation
import CallContract.Proofs.Text.Pieces
import CallContract.Proofs.Traversal

/-!
# Expectations and their texts

An expectation that was read from a text writes the text back (`raw_eq_of_parse`), so a message quotes what the caller
wrote. A list of texts is read position by position (`parseList_eq_ok_iff`); it can be read when all of them are
well-formed (`exists_parseList_eq_ok`) and else fails with the first segment that is no word of the first text that is
not (`parseList_of_firstBadSegment`).
-/

namespace CallContract

namespace Expectation

theorem raw_eq (e : Expectation) : e.raw = "|".intercalate (e.tags.map TypeTag.spelling) := rfl

theorem spelling_of_readTag {segment : String} {tag : TypeTag} (h : readTag segment = .ok tag) :
    tag.spelling = segment := by
  unfold readTag at h
  split at h
  · cases h
    simpa using List.find?_some ‹TypeTag.ofSpelling? segment = some tag›
  · exact nomatch h

/-- The words of a text that can be read are the words of its pieces, in order. -/
theorem mapM_readTag_of_parse {text : String} {e : Expectation} (h : parse text = .ok e) :
    (Text.pieces separator text).mapM readTag = .ok e.tags := by
  unfold parse at h
  split at h
  · exact nomatch h
  · rename_i piece pieces hp
    rw [hp]
    cases hfirst : readTag piece with
    | error err => rw [hfirst] at h; exact nomatch h
    | ok first =>
      rw [hfirst] at h
      rw [Traversal.mapM_cons_ok pieces hfirst]
      cases hothers : pieces.mapM readTag with
      | error err =>
        simp only [hothers, bind, Except.bind] at h
        exact nomatch h
      | ok others =>
        simp only [hothers, bind, Except.bind] at h
        cases h
        rfl

/-- **An expectation writes the text it was read from.** -/
theorem raw_eq_of_parse {text : String} {e : Expectation} (h : parse text = .ok e) : e.raw = text := by
  have hs := Traversal.map_eq_of_mapM_eq_ok (g := TypeTag.spelling) (fun _ _ => spelling_of_readTag)
    (mapM_readTag_of_parse h)
  rw [raw, hs, Text.intercalate_pieces]

theorem parseList_eq_ok_iff {texts : List String} {es : List Expectation} :
    parseList texts = .ok es ↔ texts ≠ [] ∧ List.Forall₂ (fun text e => parse text = .ok e) texts es := by
  unfold parseList
  cases texts with
  | nil => simp
  | cons text texts =>
    rw [List.isEmpty_cons, if_neg Bool.false_ne_true, Traversal.mapM_eq_ok_iff]
    exact ⟨fun h => ⟨List.cons_ne_nil text texts, h⟩, And.right⟩

/-- Expectations that were read from a list of texts write the list back. -/
theorem map_raw_of_parseList {texts : List String} {es : List Expectation} (h : parseList texts = .ok es) :
    es.map raw = texts := by
  obtain ⟨-, hread⟩ := parseList_eq_ok_iff.1 h
  exact Traversal.map_eq_of_mapM_eq_ok (fun _ _ => raw_eq_of_parse) (Traversal.mapM_eq_ok_iff.2 hread)

/-! ## Well-formed texts -/

/-- The words that a segment can be. -/
def vocabulary : List String :=
  ["object", "function", "string", "number", "boolean", "*"]

/-- A text whose segments between bars are all words. -/
def WellFormed (text : String) : Prop :=
  ∀ segment ∈ Text.pieces separator text, segment ∈ vocabulary

instance (text : String) : Decidable (WellFormed text) :=
  inferInstanceAs (Decidable (∀ segment ∈ Text.pieces separator text, segment ∈ vocabulary))

/-- A segment that is no word, behind segments that are. -/
def FirstBadSegment (text segment : String) : Prop :=
  ∃ before after, Text.pieces separator text = before ++ segment :: after ∧ (∀ s ∈ before, s ∈ vocabulary) ∧
    segment ∉ vocabulary

theorem readTag_of_mem {segment : String} (h : segment ∈ vocabulary) : ∃ tag, readTag segment = .ok tag := by
  have hall : ∀ s ∈ vocabulary, (TypeTag.ofSpelling? s).isSome = true := by decide
  obtain ⟨tag, htag⟩ := Option.isSome_iff_exists.1 (hall segment h)
  exact ⟨tag, by rw [readTag, htag]⟩

theorem readTag_of_not_mem {segment : String} (h : segment ∉ vocabulary) :
    readTag segment = .error (.malformed segment) := by
  cases hread : TypeTag.ofSpelling? segment with
  | none => rw [readTag, hread]
  | some tag =>
    have hspelling : tag.spelling = segment := by simpa using List.find?_some hread
    have htag : tag.spelling ∈ vocabulary := by cases tag <;> decide
    exact absurd (hspelling ▸ htag) h

/-- A text fails like the list of its segments. -/
theorem parse_eq_error_iff {text : String} {err : Error} :
    parse text = .error err ↔ (Text.pieces separator text).mapM readTag = .error err := by
  unfold parse
  split
  · rename_i hp
    exact absurd (List.map_eq_nil_iff.1 hp) (List.splitOn_ne_nil separator text.toList)
  · rename_i piece pieces hp
    cases hfirst : readTag piece with
    | error e =>
      rw [hp, Traversal.mapM_cons_error pieces hfirst]
      exact ⟨fun h => congrArg _ (Except.error.inj h), fun h => congrArg _ (Except.error.inj h)⟩
    | ok first =>
      rw [hp, Traversal.mapM_cons_ok pieces hfirst]
      cases pieces.mapM readTag with
      | error e => exact ⟨fun h => congrArg _ (Except.error.inj h), fun h => congrArg _ (Except.error.inj h)⟩
      | ok others => exact ⟨nofun, nofun⟩

/-- Texts that can be read are the well-formed ones. -/
theorem exists_parse_eq_ok_iff {text : String} : (∃ e, parse text = .ok e) ↔ WellFormed text := by
  constructor
  · rintro ⟨e, he⟩ segment hsegment
    by_contra hbad
    obtain ⟨tag, htag⟩ := Traversal.exists_of_mapM_eq_ok (mapM_readTag_of_parse he) segment hsegment
    rw [readTag_of_not_mem hbad] at htag
    exact nomatch htag
  · intro h
    cases hparse : parse text with
    | ok e => exact ⟨e, rfl⟩
    | error err =>
      obtain ⟨tags, htags⟩ := Traversal.exists_mapM_eq_ok (f := readTag) fun segment hs => readTag_of_mem (h segment hs)
      rw [parse_eq_error_iff, htags] at hparse
      exact nomatch hparse

/-- A text that is not well-formed fails with its first segment that is no word. -/
theorem parse_of_firstBadSegment {text segment : String} (h : FirstBadSegment text segment) :
    parse text = .error (.malformed segment) := by
  obtain ⟨before, after, hp, hbefore, hbad⟩ := h
  rw [parse_eq_error_iff, hp]
  exact Traversal.mapM_append_error after (fun s hs => readTag_of_mem (hbefore s hs)) (readTag_of_not_mem hbad)

theorem exists_firstBadSegment {text : String} (h : ¬WellFormed text) : ∃ segment, FirstBadSegment text segment := by
  cases hparse : parse text with
  | ok e => exact absurd (exists_parse_eq_ok_iff.1 ⟨e, hparse⟩) h
  | error err =>
    obtain ⟨before, segment, after, hp, hbefore, hsegment⟩ :=
      Traversal.mapM_eq_error_iff.1 (parse_eq_error_iff.1 hparse)
    refine ⟨segment, before, after, hp, fun s hs => ?_, fun hmem => ?_⟩
    · by_contra hbad
      obtain ⟨tag, htag⟩ := hbefore s hs
      rw [readTag_of_not_mem hbad] at htag
      exact nomatch htag
    · obtain ⟨tag, htag⟩ := readTag_of_mem hmem
      rw [htag] at hsegment
      exact nomatch hsegment

/-! ## Lists of texts -/

theorem exists_parseList_eq_ok {texts : List String} (hne : texts ≠ []) (h : ∀ text ∈ texts, WellFormed text) :
    ∃ es, parseList texts = .ok es := by
  obtain ⟨es, hes⟩ := Traversal.exists_mapM_eq_ok fun text htext => exists_parse_eq_ok_iff.2 (h text htext)
  exact ⟨es, parseList_eq_ok_iff.2 ⟨hne, Traversal.mapM_eq_ok_iff.1 hes⟩⟩

/-- A list fails with the first segment that is no word of its first text that is not well-formed. -/
theorem parseList_of_firstBadSegment {before : List String} {text segment : String} (after : List String)
    (hbefore : ∀ t ∈ before, WellFormed t) (h : FirstBadSegment text segment) :
    parseList (before ++ text :: after) = .error (.malformed segment) := by
  rw [parseList, if_neg (by simp)]
  exact Traversal.mapM_append_error after (fun t ht => exists_parse_eq_ok_iff.2 (hbefore t ht))
    (parse_of_firstBadSegment h)

/-- A list that is not well-formed throughout has a first text that is not. -/
theorem exists_append_of_not_wellFormed {texts : List String} (h : ¬∀ text ∈ texts, WellFormed text) :
    ∃ before text after, texts = before ++ text :: after ∧ (∀ t ∈ before, WellFormed t) ∧ ¬WellFormed text := by
  cases hread : texts.mapM parse with
  | ok es =>
    exact absurd (fun text ht => exists_parse_eq_ok_iff.1 (Traversal.exists_of_mapM_eq_ok hread text ht)) h
  | error err =>
    obtain ⟨before, text, after, rfl, hbefore, htext⟩ := Traversal.mapM_eq_error_iff.1 hread
    refine ⟨before, text, after, rfl, fun t ht => exists_parse_eq_ok_iff.1 (hbefore t ht), fun hwell => ?_⟩
    obtain ⟨e, he⟩ := exists_parse_eq_ok_iff.2 hwell
    exact nomatch he.symm.trans htext

end Expectation

end CallContract
