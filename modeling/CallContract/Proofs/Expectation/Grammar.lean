import CallContract.Proofs.Expectation
import CallContract.Proofs.Json.RoundTrip

/-!
# The grammar of expectations

An expectation is written as one or more words of the vocabulary with a bar between each two and nothing else
(`Expectation.Spells`). Reading is the inverse of writing: a text is read as an expectation exactly when the expectation
writes the text (`parse_eq_ok_iff`). So a text has one list of words at most, every list of words has one text, and what
is not written in this way is rejected for its first segment that is no word (`parse_grammar`).
-/

namespace CallContract

/-! ## Words -/

namespace TypeTag

theorem spelling_mem_vocabulary (tag : TypeTag) : tag.spelling ∈ Expectation.vocabulary := by
  cases tag <;> decide

theorem readTag_spelling (tag : TypeTag) : Expectation.readTag tag.spelling = .ok tag := by
  cases tag <;> rfl

end TypeTag

namespace Expectation

/-- The words, at least one and all from the vocabulary, make the text when bars are put between them. -/
structure Spells (words : List String) (text : String) : Prop where
  ne_nil : words ≠ []
  known : ∀ word ∈ words, word ∈ vocabulary
  joined : "|".intercalate words = text

variable {text : String} {e : Expectation} {words : List String}

theorem Spells.splits (h : Spells words text) : Text.Splits separator text words where
  ne_nil := h.ne_nil
  free word hword := by
    have hfree : ∀ word ∈ vocabulary, separator ∉ word.toList := by decide
    exact hfree word (h.known word hword)
  joined := h.joined

theorem spells_raw (e : Expectation) : Spells (e.tags.map TypeTag.spelling) e.raw where
  ne_nil := List.cons_ne_nil _ _
  known word hword := by
    obtain ⟨tag, -, rfl⟩ := List.mem_map.1 hword
    exact tag.spelling_mem_vocabulary
  joined := rfl

theorem pieces_raw (e : Expectation) : Text.pieces separator e.raw = e.tags.map TypeTag.spelling :=
  Text.pieces_eq_iff.2 e.spells_raw.splits

/-- The words of a text are those of the expectation that writes it. -/
theorem Spells.eq_tags (h : Spells words e.raw) : words = e.tags.map TypeTag.spelling := by
  rw [← pieces_raw, Text.pieces_eq_iff.2 h.splits]

/-- Words of the vocabulary are those of an expectation. -/
theorem Spells.exists_raw_eq (h : Spells words text) : ∃ e : Expectation, e.raw = text := by
  obtain ⟨tags, htags⟩ := Traversal.exists_mapM_eq_ok (f := readTag) fun word hw => readTag_of_mem (h.known word hw)
  obtain rfl : tags.map TypeTag.spelling = words :=
    Traversal.map_eq_of_mapM_eq_ok (fun _ _ => spelling_of_readTag) htags
  cases tags with
  | nil => exact absurd rfl h.ne_nil
  | cons first others => exact ⟨⟨first, others⟩, h.joined⟩

/-! ## Reading what is written -/

/-- **An expectation is read from the text that it writes.** -/
theorem parse_raw (e : Expectation) : parse e.raw = .ok e := by
  have hothers : (e.others.map TypeTag.spelling).mapM readTag = .ok e.others :=
    Traversal.mapM_eq_ok_iff.2 (List.forall₂_map_left_iff.2 (List.forall₂_same.2 fun tag _ => tag.readTag_spelling))
  have hpieces : Text.pieces separator e.raw = e.first.spelling :: e.others.map TypeTag.spelling := e.pieces_raw
  unfold parse
  rw [hpieces]
  simp only [TypeTag.readTag_spelling, hothers]
  rfl

theorem parse_eq_ok_iff : parse text = .ok e ↔ e.raw = text :=
  ⟨raw_eq_of_parse, fun h => h ▸ e.parse_raw⟩

/-- What can be read is what words spell. -/
theorem exists_parse_eq_ok_iff_spells : (∃ e, parse text = .ok e) ↔ ∃ words, Spells words text := by
  constructor
  · rintro ⟨e, he⟩
    exact ⟨_, raw_eq_of_parse he ▸ e.spells_raw⟩
  · rintro ⟨words, h⟩
    obtain ⟨e, rfl⟩ := h.exists_raw_eq
    exact ⟨e, e.parse_raw⟩

/-- A text is rejected exactly for its first segment that is no word. -/
theorem parse_eq_error_malformed_iff {err : Error} : parse text = .error err ↔ ∃ before segment after,
    err = .malformed segment ∧ Text.Splits separator text (before ++ segment :: after) ∧
      (∀ word ∈ before, word ∈ vocabulary) ∧ segment ∉ vocabulary := by
  constructor
  · intro h
    obtain ⟨segment, bad⟩ : ∃ segment, FirstBadSegment text segment := by
      refine exists_firstBadSegment fun hwell => ?_
      obtain ⟨e, he⟩ := exists_parse_eq_ok_iff.2 hwell
      exact nomatch he.symm.trans h
    have herr : err = .malformed segment := Except.error.inj (h.symm.trans (parse_of_firstBadSegment bad))
    obtain ⟨before, after, hpieces, hbefore, hbad⟩ := bad
    exact ⟨before, segment, after, herr, Text.pieces_eq_iff.1 hpieces, hbefore, hbad⟩
  · rintro ⟨before, segment, after, rfl, hsplits, hbefore, hbad⟩
    exact parse_of_firstBadSegment ⟨before, after, Text.pieces_eq_iff.2 hsplits, hbefore, hbad⟩

/-! ## Characters -/

/-- What holds of the bar and of the characters of all words holds of the characters of an expectation. -/
theorem forall_mem_raw {p : Char → Bool} (hbar : p separator = true)
    (hwords : ∀ tag : TypeTag, tag.spelling.toList.all p = true) (e : Expectation) :
    ∀ c ∈ e.raw.toList, p c = true := by
  intro c hc
  rw [raw, String.toList_intercalate, String.toList_singleton] at hc
  rcases Traversal.mem_or_exists_of_mem_intercalate hc with h | ⟨cs, hcs, hc⟩
  · exact List.mem_singleton.1 h ▸ hbar
  · simp only [List.map_map, List.mem_map] at hcs
    obtain ⟨tag, -, rfl⟩ := hcs
    exact List.all_eq_true.1 (hwords tag) c hc

/-- Words are lower-case letters or a star. -/
theorem isLower_of_mem_raw {c : Char} (h : c ∈ e.raw.toList) : c.isLower = true ∨ c = '*' ∨ c = '|' := by
  have hplain := e.forall_mem_raw (p := fun c => c.isLower || c == '*' || c == '|') rfl fun tag => by
    cases tag <;> rfl
  simpa [or_assoc] using hplain c h

theorem raw_ne_empty (e : Expectation) : e.raw ≠ "" := by
  intro hempty
  have hpieces := e.pieces_raw
  have hfirst := e.first.spelling_mem_vocabulary
  rw [hempty] at hpieces
  rw [List.cons_eq_cons.1 hpieces.symm |>.1] at hfirst
  exact absurd hfirst (by decide)

/-- An empty segment is no word. -/
theorem parse_ne_ok_of_empty_mem (h : "" ∈ Text.pieces separator text) : parse text ≠ .ok e := by
  intro he
  have hempty := exists_parse_eq_ok_iff.1 ⟨e, he⟩ "" h
  exact absurd hempty (by decide)

/-- A text that is empty, or has a bar in front, at the end or behind another one, has an empty segment. -/
theorem empty_mem_pieces (h : text = "" ∨ (∃ t, text = "|" ++ t) ∨ (∃ s, text = s ++ "|") ∨
    ∃ s t, text = s ++ "||" ++ t) : "" ∈ Text.pieces separator text := by
  have happend (s t : String) : Text.pieces separator (s ++ "|" ++ t) =
      Text.pieces separator s ++ Text.pieces separator t := Text.pieces_append separator s t
  have hnone : "" ∈ Text.pieces separator "" := List.mem_cons_self
  rcases h with rfl | ⟨t, rfl⟩ | ⟨s, rfl⟩ | ⟨s, t, rfl⟩
  · exact hnone
  · rw [← String.empty_append (s := "|"), happend]
    exact List.mem_append_left _ hnone
  · rw [← String.append_empty (s := s ++ "|"), happend]
    exact List.mem_append_right _ hnone
  · have hbars : "||" = "|" ++ "" ++ "|" := rfl
    rw [hbars, ← String.append_assoc, ← String.append_assoc, happend, happend]
    exact List.mem_append_left _ (List.mem_append_right _ hnone)

/-! ## The grammar -/

/-- How a text is read. -/
structure ReadsByGrammar (text : String) : Prop where
  /-- What can be read is what words spell. -/
  accepted : (∃ e, parse text = .ok e) ↔ ∃ words, Spells words text
  /-- The words are the alternatives, in order and as often as they are written, and no others spell the text. -/
  words : ∀ e, parse text = .ok e → e.raw = text ∧ ∀ words, Spells words text ↔ words = e.tags.map TypeTag.spelling
  /-- The words can be read off the JSON text of the expectation. -/
  json : ∀ e, parse text = .ok e → ∃ words, Spells words text ∧
    Json.ofString? e.toJson.compact = some (.object [("raw", .string text), ("tags", .strings words)])
  /-- No other characters stand in a text that can be read, so no blanks and no capitals. -/
  plain : ∀ e, parse text = .ok e → ∀ c ∈ text.toList, c.isLower = true ∨ c = '*' ∨ c = '|'
  /-- No segment is empty. -/
  filled : (text = "" ∨ (∃ t, text = "|" ++ t) ∨ (∃ s, text = s ++ "|") ∨ ∃ s t, text = s ++ "||" ++ t) →
    ∀ e, parse text ≠ .ok e
  /-- What cannot be read is blamed on the first segment that is no word, as it is written. -/
  rejected : ∀ err, parse text = .error err ↔ ∃ before segment after, err = .malformed segment ∧
    Text.Splits '|' text (before ++ segment :: after) ∧ (∀ word ∈ before, word ∈ vocabulary) ∧ segment ∉ vocabulary

theorem ofString?_toJson_compact (e : Expectation) : Json.ofString? e.toJson.compact = some e.toJson := by
  refine Json.ofString?_compact (.object (List.pairwise_pair.2 (by decide : "raw" < "tags")) ?_)
  exact List.forall_mem_cons.2 ⟨.string e.raw, List.forall_mem_singleton.2 (.strings _ _)⟩

theorem readsByGrammar (text : String) : ReadsByGrammar text where
  accepted := exists_parse_eq_ok_iff_spells
  words e he := by
    obtain rfl := raw_eq_of_parse he
    exact ⟨rfl, fun words => ⟨Spells.eq_tags, fun h => h ▸ e.spells_raw⟩⟩
  json e he := by
    obtain rfl := raw_eq_of_parse he
    exact ⟨_, e.spells_raw, e.ofString?_toJson_compact⟩
  plain e he := by
    obtain rfl := raw_eq_of_parse he
    exact fun c hc => isLower_of_mem_raw hc
  filled h e := parse_ne_ok_of_empty_mem (empty_mem_pieces h)
  rejected _ := parse_eq_error_malformed_iff

/-- **The grammar of expectations**: every text is read as the grammar says, and words and texts determine each
other. -/
theorem parse_grammar : (∀ text, ReadsByGrammar text) ∧
    (∀ text text' e e', parse text = .ok e → parse text' = .ok e' → e.tags = e'.tags → text = text') ∧
    ∀ tags : List TypeTag, tags ≠ [] →
      ∃ e, parse ("|".intercalate (tags.map TypeTag.spelling)) = .ok e ∧ e.tags = tags := by
  refine ⟨readsByGrammar, fun text text' e e' he he' htags => ?_, fun tags hne => ?_⟩
  · rw [← raw_eq_of_parse he, ← raw_eq_of_parse he', raw_eq, raw_eq, htags]
  · cases tags with
    | nil => exact absurd rfl hne
    | cons first others => exact ⟨⟨first, others⟩, parse_raw ⟨first, others⟩, rfl⟩

/-- The second of two faults is not seen, and the first is quoted as it is written. -/
example : parse "string|Number |||object" = .error (.malformed "Number ") := rfl

end Expectation

end CallContract
