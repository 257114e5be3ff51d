import CallContract.Proofs.Expectation.Grammar

/-!
# Alternation is union

Two expectations with a bar in between are one expectation, whose alternatives are those of the first and then those of
the second (`Expectation.union`): it writes both texts (`raw_union`) and accepts what either of the two accepts
(`accepts_union`). A text with a bar anywhere in it is read part by part (`parse_union_eq_ok_iff`), and when it is
rejected the first part that is to blame is blamed (`parse_union_eq_error_iff`).

What an expectation accepts can be read off the segments of its text: the star, or the name of the kind
(`accepts_iff_mem_words`). Kinds whose name is no word are accepted by the star only (`accepts_eq_isWildcard`).
-/

namespace CallContract

namespace Expectation

variable {s t text : String} {e f u : Expectation} {k : Kind}

/-! ## Alternatives of both -/

/-- The alternatives of the first expectation, and behind them those of the second. -/
def union (e f : Expectation) : Expectation :=
  ⟨e.first, e.others ++ f.tags⟩

@[simp]
theorem tags_union (e f : Expectation) : (e.union f).tags = e.tags ++ f.tags := rfl

/-- The union writes both texts with a bar in between. -/
theorem raw_union (e f : Expectation) : (e.union f).raw = e.raw ++ "|" ++ f.raw := by
  have hpieces : Text.pieces separator (e.raw ++ "|" ++ f.raw) = (e.union f).tags.map TypeTag.spelling := by
    rw [tags_union, List.map_append, ← pieces_raw, ← pieces_raw]
    exact Text.pieces_append separator e.raw f.raw
  rw [raw, ← hpieces, Text.intercalate_pieces]

theorem accepts_union (e f : Expectation) (k : Kind) : (e.union f).accepts k = (e.accepts k || f.accepts k) := by
  rw [accepts, tags_union, List.any_append, accepts, accepts]

theorem isWildcard_union (e f : Expectation) : (e.union f).isWildcard = (e.isWildcard || f.isWildcard) := by
  rw [isWildcard, tags_union, List.contains_eq_any_beq, List.any_append, isWildcard, isWildcard,
    List.contains_eq_any_beq, List.contains_eq_any_beq]

/-! ## Reading part by part -/

/-- A part that can be read leaves the blame to the next one. -/
theorem parse_union_eq_error_iff {err : Error} : parse (s ++ "|" ++ t) = .error err ↔
    parse s = .error err ∨ (∃ e, parse s = .ok e) ∧ parse t = .error err := by
  have hpieces : Text.pieces separator (s ++ "|" ++ t) = Text.pieces separator s ++ Text.pieces separator t :=
    Text.pieces_append separator s t
  have hread : (∃ tags, (Text.pieces separator s).mapM readTag = .ok tags) ↔ ∃ e, parse s = .ok e := by
    cases hs : parse s with
    | error err' => simp [parse_eq_error_iff.1 hs]
    | ok e => simp [mapM_readTag_of_parse hs]
  rw [parse_eq_error_iff, hpieces, Traversal.mapM_append_eq_error_iff, hread, parse_eq_error_iff, parse_eq_error_iff]

/-- A text with a bar is read when both its parts are, as the union. -/
theorem parse_union_eq_ok_iff : parse (s ++ "|" ++ t) = .ok u ↔
    ∃ e f, parse s = .ok e ∧ parse t = .ok f ∧ u = e.union f := by
  constructor
  · intro h
    cases hs : parse s with
    | error err =>
      rw [parse_union_eq_error_iff.2 (.inl hs)] at h
      exact nomatch h
    | ok e =>
      cases ht : parse t with
      | error err =>
        rw [parse_union_eq_error_iff.2 (.inr ⟨⟨e, hs⟩, ht⟩)] at h
        exact nomatch h
      | ok f =>
        refine ⟨e, f, rfl, rfl, Except.ok.inj (h.symm.trans (parse_eq_ok_iff.2 ?_))⟩
        rw [raw_union, raw_eq_of_parse hs, raw_eq_of_parse ht]
  · rintro ⟨e, f, hs, ht, rfl⟩
    rw [parse_eq_ok_iff, raw_union, raw_eq_of_parse hs, raw_eq_of_parse ht]

theorem exists_segment_of_parse_eq_error {err : Error} (h : parse text = .error err) :
    ∃ segment, err = .malformed segment := by
  obtain ⟨-, segment, -, rfl, -⟩ := parse_eq_error_malformed_iff.1 h
  exact ⟨segment, rfl⟩

/-! ## What is accepted -/

theorem accepts_tag_iff (tag : TypeTag) (k : Kind) :
    tag.accepts k = true ↔ tag.spelling = "*" ∨ tag.spelling = k.name := by
  cases tag <;> cases k <;> decide

/-- A kind is accepted when the star or its own name is a word of the text. -/
theorem accepts_iff_mem_words : e.accepts k = true ↔
    "*" ∈ e.tags.map TypeTag.spelling ∨ k.name ∈ e.tags.map TypeTag.spelling := by
  simp only [accepts, List.any_eq_true, accepts_tag_iff, List.mem_map, and_or_left, exists_or]

theorem isWildcard_iff_mem_words : e.isWildcard = true ↔ "*" ∈ e.tags.map TypeTag.spelling := by
  have hstar : ∀ tag : TypeTag, tag.spelling = "*" ↔ tag = .any := by
    intro tag
    cases tag <;> decide
  simp only [isWildcard, List.contains_iff_mem, List.mem_map, hstar, exists_eq_right]

/-- A kind whose name is no word is accepted by the star only. -/
theorem accepts_eq_isWildcard (h : k.name ∉ vocabulary) : e.accepts k = e.isWildcard := by
  have hname : k.name ∉ e.tags.map TypeTag.spelling := fun hmem => h (e.spells_raw.known _ hmem)
  rw [Bool.eq_iff_iff, accepts_iff_mem_words, isWildcard_iff_mem_words, or_iff_left hname]

/-! ## Alternation -/

/-- How a text of two parts with a bar in between is read. -/
structure ReadsAsUnion (s t : String) : Prop where
  /-- It can be read when both parts can. -/
  accepted : (∃ u, parse (s ++ "|" ++ t) = .ok u) ↔ (∃ e, parse s = .ok e) ∧ ∃ f, parse t = .ok f
  /-- It has the alternatives of both parts, and accepts what one of them accepts. -/
  union : ∀ u e f, parse (s ++ "|" ++ t) = .ok u → parse s = .ok e → parse t = .ok f →
    u.tags = e.tags ++ f.tags ∧ (∀ k, u.accepts k = true ↔ e.accepts k = true ∨ f.accepts k = true) ∧
      (u.isWildcard = true ↔ e.isWildcard = true ∨ f.isWildcard = true)
  /-- It is rejected for the segment that the first part is rejected for, or else for that of the second. -/
  rejected : ∀ err, parse (s ++ "|" ++ t) = .error err ↔ ∃ segment, err = .malformed segment ∧
    (parse s = .error (.malformed segment) ∨ (∃ e, parse s = .ok e) ∧ parse t = .error (.malformed segment))

theorem readsAsUnion (s t : String) : ReadsAsUnion s t where
  accepted := by
    simp only [parse_union_eq_ok_iff]
    constructor
    · rintro ⟨u, e, f, hs, ht, -⟩
      exact ⟨⟨e, hs⟩, ⟨f, ht⟩⟩
    · rintro ⟨⟨e, hs⟩, ⟨f, ht⟩⟩
      exact ⟨_, e, f, hs, ht, rfl⟩
  union u e f hu hs ht := by
    obtain rfl : u = e.union f := Except.ok.inj (hu.symm.trans (parse_union_eq_ok_iff.2 ⟨e, f, hs, ht, rfl⟩))
    refine ⟨tags_union e f, fun k => ?_, ?_⟩
    · rw [accepts_union, Bool.or_eq_true]
    · rw [isWildcard_union, Bool.or_eq_true]
  rejected err := by
    constructor
    · intro h
      obtain ⟨segment, rfl⟩ := exists_segment_of_parse_eq_error h
      exact ⟨segment, rfl, parse_union_eq_error_iff.1 h⟩
    · rintro ⟨segment, rfl, h⟩
      exact parse_union_eq_error_iff.2 h

/-- **Alternation is union**: a bar between two texts joins what they accept, and the words of a text are all that
settles what it accepts. -/
theorem alternation_is_union : (∀ s t, ReadsAsUnion s t) ∧ ∀ text e, parse text = .ok e →
    (∃ segments, Text.Splits '|' text segments ∧
      ∀ k : Kind, e.accepts k = true ↔ "*" ∈ segments ∨ k.name ∈ segments) ∧
    ∀ k ∈ [Kind.undefined, .symbol, .bigint], (e.accepts k = true ↔ e.isWildcard = true) := by
  refine ⟨readsAsUnion, fun text e he => ?_⟩
  obtain rfl := raw_eq_of_parse he
  refine ⟨⟨_, e.spells_raw.splits, fun k => accepts_iff_mem_words⟩, fun k hk => ?_⟩
  have hname : k.name ∉ vocabulary := by
    have hall : ∀ k ∈ [Kind.undefined, .symbol, .bigint], k.name ∉ vocabulary := by decide
    exact hall k hk
  rw [accepts_eq_isWildcard hname]

/-- Both parts are malformed, and the one in front is quoted. -/
example : parse ("*|Number" ++ "|" ++ "") = .error (.malformed "Number") := rfl

end Expectation

end CallContract
