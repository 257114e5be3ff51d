import CallContract.Proofs.Phases

/-!
# What a report records

For arguments with as many well-formed texts a report is described position by position.

* **Legacy indexing** (`check_legacy`): the recorded positions are the only ones that obey the recursion "a position
  is recorded when it mismatches and the one before it is not" (`LegacyPositions`), and an entry shows the argument
  behind its own.
* **Consistent indexing** (`check_consistent`): the recorded positions are the mismatching ones, and an entry shows
  its own argument.

Positions count from one. Under both indexings an entry is about the mismatch of its own position
(`DescribesMismatch`).
-/

namespace CallContract

/-! ## Mismatching positions -/

/-- The argument at a position is of a kind that the text at the position does not accept. -/
def Arguments.mismatches (a : Arguments) (texts : List String) : Nat → Bool
  | 0 => false
  | i + 1 => match a.get? i, texts[i]?.map Expectation.parse with
    | some value, some (.ok e) => !e.accepts value.kind
    | _, _ => false

/-- A failure shows a value, lists the alternatives of its position in order, and has a message that quotes the text
at its position and names the kind of the argument there. -/
def DescribesMismatch (a : Arguments) (texts : List String) (position : Nat) (shown : Value) (f : Failure) : Prop :=
  ∃ value text e, a.get? (position - 1) = some value ∧ texts[position - 1]? = some text ∧
    Expectation.parse text = .ok e ∧ "|".intercalate (e.tags.map TypeTag.spelling) = text ∧
    f = {
      passedData := shown
      passedKind := shown.kind
      expects := e.tags
      message := "Argument number " ++ toString position ++ " must be " ++ text ++ ", " ++ value.kind.name ++
        " was passed." }

namespace Call

variable {a : Arguments} {texts : List String} {es : List Expectation} {i : Nat}

section Positions

variable (hparse : Expectation.parseList texts = .ok es) (hlength : es.length = a.size)
include hparse

/-- What stands at an index below the number of arguments. -/
theorem exists_at (hi : i < a.size) : ∃ value text e, a.get? i = some value ∧ texts[i]? = some text ∧
    Expectation.parse text = .ok e ∧ (ofLengthEq a es hlength).kindAt i = value.kind ∧
    (ofLengthEq a es hlength).expectationAt i = e := by
  have hforall := (Expectation.parseList_eq_ok_iff.1 hparse).2
  have hes : i < es.length := hlength ▸ hi
  have htexts : i < texts.length := hforall.length_eq ▸ hes
  refine ⟨a.values[i], texts[i], es[i], Array.getElem?_eq_getElem hi, List.getElem?_eq_getElem htexts,
    hforall.get htexts hes, ?_, ?_⟩
  · rw [kindAt, ofLengthEq, Array.getD_eq_getD_getElem?, Array.getElem?_eq_getElem hi]
    rfl
  · rw [expectationAt, ofLengthEq, Array.getD_eq_getD_getElem?, List.getElem?_toArray, List.getElem?_eq_getElem hes]
    rfl

/-- The mismatches of the call are those of the positions. -/
theorem mismatches_ofLengthEq : (ofLengthEq a es hlength).mismatches i = a.mismatches texts (i + 1) := by
  by_cases hi : i < a.size
  · obtain ⟨value, text, e, hvalue, htext, he, hkind, hexpectation⟩ := exists_at hparse hlength hi
    have hsize : i < (ofLengthEq a es hlength).values.size := hi
    rw [mismatches, hkind, hexpectation, decide_eq_true hsize, Bool.true_and, Arguments.mismatches, hvalue, htext,
      Option.map_some, he]
  · have hnone : a.get? i = none := Array.getElem?_eq_none (Nat.le_of_not_lt hi)
    have hsize : ¬i < (ofLengthEq a es hlength).values.size := hi
    rw [mismatches, decide_eq_false hsize, Bool.false_and, Arguments.mismatches, hnone]

theorem forall_mismatches_ofLengthEq : (∀ i, (ofLengthEq a es hlength).mismatches i = false) ↔
    ∀ p, a.mismatches texts p = false := by
  constructor
  · intro hall p
    cases p with
    | zero => rfl
    | succ i => exact (mismatches_ofLengthEq hparse hlength).symm.trans (hall i)
  · intro hall i
    exact (mismatches_ofLengthEq hparse hlength).trans (hall (i + 1))

/-- The entry of an index describes the mismatch of its position and shows the reported argument. -/
theorem describesMismatch_entryAt (indexing : Indexing) (hi : i < a.size) : DescribesMismatch a texts (i + 1)
    ((a.get? (reportedIndex indexing i)).getD .undefined) ((ofLengthEq a es hlength).entryAt indexing i).2 := by
  obtain ⟨value, text, e, hvalue, htext, he, hkind, hexpectation⟩ := exists_at hparse hlength hi
  have hraw := Expectation.raw_eq_of_parse he
  refine ⟨value, text, e, hvalue, htext, he, Expectation.raw_eq e ▸ hraw, ?_⟩
  rw [entryAt, faultAt, hkind, hexpectation, Fault.message_mismatch, hraw]
  rfl

end Positions

end Call

/-! ## Reports on well-formed texts -/

section Check

variable {v : Validator} {a : Arguments} {texts : List String}

/-- Arguments with as many well-formed texts get a report, with the recorded entries of their call. -/
theorem Validator.exists_check (v : Validator) (hwell : ∀ text ∈ texts, ∃ e, Expectation.parse text = .ok e)
    (hlength : texts.length = a.size) (hpos : 0 < a.size) :
    ∃ es, ∃ h : es.length = a.size, Expectation.parseList texts = .ok es ∧ ∃ r, v.check a texts = .ok r ∧
      r.entries = (Call.ofLengthEq a es h).entriesBelow v.config.indexing a.size := by
  obtain ⟨es, hes⟩ := Traversal.exists_mapM_eq_ok hwell
  have hforall := Traversal.mapM_eq_ok_iff.1 hes
  have hne : texts ≠ [] := List.ne_nil_of_length_pos (hlength ▸ hpos)
  have hparse := Expectation.parseList_eq_ok_iff.2 ⟨hne, hforall⟩
  have h : es.length = a.size := hforall.length_eq ▸ hlength
  obtain ⟨r, hr, hentries⟩ := (Call.ofLengthEq a es h).report_reporting v.config.indexing
  have hvalidate : v.validate .reporting a texts = .ok r := by
    rw [v.validate_of_parse hparse, v.reportOn_of_eq hpos h, hr]
  exact ⟨es, h, hparse, r, v.check_of_ok hvalidate, hentries⟩

/-- As many well-formed texts as there are arguments, at least one. -/
structure Fits (count : Nat) (texts : List String) : Prop where
  given : texts ≠ []
  wellFormed : ∀ text ∈ texts, Expectation.WellFormed text
  length_eq : texts.length = count

/-- There is a report exactly where the texts fit. -/
theorem Validator.exists_check_iff_fits (v : Validator) : (∃ r, v.check a texts = .ok r) ↔ Fits a.size texts := by
  constructor
  · rintro ⟨r, hcheck⟩
    rcases validate_phases a texts with ⟨fault, -, hfault⟩ | ⟨es, hlength, hparse, -⟩
    · simp [v.check_of_error (hfault v .reporting)] at hcheck
    · obtain ⟨hgiven, hforall⟩ := Expectation.parseList_eq_ok_iff.1 hparse
      refine ⟨hgiven, ?_, hforall.length_eq.trans hlength⟩
      intro text htext
      have hread := Traversal.exists_of_mapM_eq_ok (Traversal.mapM_eq_ok_iff.2 hforall)
      exact Expectation.exists_parse_eq_ok_iff.1 (hread text htext)
  · intro h
    have hpos : 0 < a.size := by
      rw [← h.length_eq]
      exact List.length_pos_iff.2 h.given
    have hread : ∀ text ∈ texts, ∃ e, Expectation.parse text = .ok e := by
      intro text htext
      exact Expectation.exists_parse_eq_ok_iff.2 (h.wellFormed text htext)
    obtain ⟨_, _, _, r, hcheck, _⟩ := v.exists_check hread h.length_eq hpos
    exact ⟨r, hcheck⟩

/-- A report is that of the call of the arguments with the expectations of the texts. -/
theorem Validator.report_of_check {r : Report} (h : v.check a texts = .ok r) :
    ∃ es, ∃ hlength : es.length = a.size, Expectation.parseList texts = .ok es ∧
      (Call.ofLengthEq a es hlength).report .reporting v.config.indexing = .ok r := by
  rcases validate_phases a texts with ⟨fault, -, hfault⟩ | ⟨es, hlength, hparse, hmatch⟩
  · simp [v.check_of_error (hfault v .reporting)] at h
  · obtain ⟨s, hs, -⟩ := (Call.ofLengthEq a es hlength).report_reporting v.config.indexing
    have hcheck := v.check_of_ok ((hmatch v .reporting).trans hs)
    obtain rfl : s = r := Except.ok.inj (hcheck.symm.trans h)
    exact ⟨es, hlength, hparse, hs⟩

/-- A report has passed when every argument is of a kind that its text accepts. -/
theorem Validator.passed_iff_of_check {r : Report} (h : v.check a texts = .ok r) :
    r.passed = true ↔ ∀ p, a.mismatches texts p = false := by
  obtain ⟨es, hlength, hparse, hr⟩ := v.report_of_check h
  rw [Call.passed_iff_of_report hr, Call.forall_mismatches_ofLengthEq hparse hlength]

/-- An entry of a report describes the mismatch of its position under either indexing. -/
theorem Validator.describesMismatch_of_check {r : Report} {p : Nat} {f : Failure} (h : v.check a texts = .ok r)
    (hf : r.failure? p = some f) : 1 ≤ p ∧
      DescribesMismatch a texts p ((a.get? (Call.reportedIndex v.config.indexing (p - 1))).getD .undefined) f := by
  obtain ⟨es, hlength, hparse, hr⟩ := v.report_of_check h
  obtain ⟨s, hs, hentries⟩ := (Call.ofLengthEq a es hlength).report_reporting v.config.indexing
  obtain rfl : s = r := Except.ok.inj (hs.symm.trans hr)
  obtain ⟨i, rfl, hrecords, rfl⟩ := (Call.failure?_eq_some_iff hentries).1 hf
  refine ⟨Nat.le_add_left 1 i, Call.describesMismatch_entryAt hparse hlength v.config.indexing ?_⟩
  exact Call.lt_size_of_mismatches (Call.mismatches_of_records hrecords)

/-- Three texts that can be read, one of them with two alternatives. -/
theorem wellFormed_three : ∀ text ∈ ["string|object", "number", "string"], ∃ e, Expectation.parse text = .ok e := by
  simp only [List.forall_mem_cons]
  exact ⟨⟨⟨.string, [.object]⟩, rfl⟩, ⟨⟨.number, []⟩, rfl⟩, ⟨⟨.string, []⟩, rfl⟩, nofun⟩

/-! ## Legacy indexing -/

/-- A set of positions such that a position of the call is in it exactly when it mismatches and the one before is not
in it. -/
structure LegacyPositions (a : Arguments) (texts : List String) (recorded : Nat → Prop) : Prop where
  bounds : ∀ p, recorded p → 1 ≤ p ∧ p ≤ a.size
  recursion : ∀ p, 1 ≤ p → p ≤ a.size → (recorded p ↔ a.mismatches texts p = true ∧ ¬recorded (p - 1))

/-- There is only one such set. -/
theorem LegacyPositions.iff {R S : Nat → Prop} (hR : LegacyPositions a texts R) (hS : LegacyPositions a texts S)
    (p : Nat) : R p ↔ S p := by
  induction p with
  | zero => exact ⟨fun h => absurd (hR.bounds 0 h).1 (by omega), fun h => absurd (hS.bounds 0 h).1 (by omega)⟩
  | succ p ih =>
    by_cases hp : p + 1 ≤ a.size
    · rw [hR.recursion (p + 1) (by omega) hp, hS.recursion (p + 1) (by omega) hp, Nat.add_sub_cancel, ih]
    · exact ⟨fun h => absurd (hR.bounds _ h).2 hp, fun h => absurd (hS.bounds _ h).2 hp⟩

/-- What a report under legacy indexing holds. -/
structure LegacyReport (a : Arguments) (texts : List String) (r : Report) : Prop where
  /-- The recorded positions are the set of the recursion, and no other set is. -/
  recorded : ∀ R : Nat → Prop, LegacyPositions a texts R ↔ ∀ p, R p ↔ ∃ f, r.failure? p = some f
  not_adjacent : ∀ p f, r.failure? p = some f → r.failure? (p + 1) = none
  /-- An entry shows the argument behind its own, which is undefined past the end. -/
  entry : ∀ p f, r.failure? p = some f → DescribesMismatch a texts p ((a.get? p).getD .undefined) f
  passed : r.passed = true ↔ ∀ p, r.failure? p = none

section Legacy

variable {es : List Expectation} {h : es.length = a.size} {r : Report}
  (hparse : Expectation.parseList texts = .ok es)
  (hr : r.entries = (Call.ofLengthEq a es h).entriesBelow .legacy a.size)
include hparse hr

theorem legacyPositions_recorded : LegacyPositions a texts fun p => ∃ f, r.failure? p = some f := by
  refine ⟨fun p hp => ?_, fun p h1 _ => ?_⟩
  · obtain ⟨f, hf⟩ := hp
    obtain ⟨i, rfl, hrecords, _⟩ := (Call.failure?_eq_some_iff hr).1 hf
    exact ⟨by omega, Call.lt_size_of_mismatches (Call.mismatches_of_records hrecords)⟩
  · obtain ⟨i, rfl⟩ : ∃ i, p = i + 1 := ⟨p - 1, by omega⟩
    rw [Call.recorded_succ_iff hr, ← Call.mismatches_ofLengthEq hparse h, Nat.add_sub_cancel]
    cases i with
    | zero =>
      have hzero := Call.recorded_zero hr
      exact ⟨fun hrecords => ⟨Call.mismatches_of_records hrecords, hzero⟩, fun hm => Call.records_of_first hm.1 nofun⟩
    | succ i =>
      rw [Call.recorded_succ_iff hr, Call.records_legacy_succ, Bool.and_eq_true, Bool.not_eq_true', Bool.not_eq_true]

theorem legacyReport_of_entries : LegacyReport a texts r := by
  have hpositions := legacyPositions_recorded hparse hr
  refine ⟨fun R => ⟨fun hR => hR.iff hpositions, fun hR => ?_⟩, fun p f hf => ?_, fun p f hf => ?_,
    r.passed_iff_failure?⟩
  · obtain rfl : R = fun p => ∃ f, r.failure? p = some f := funext fun p => propext (hR p)
    exact hpositions
  · rw [Option.eq_none_iff_forall_ne_some]
    intro g hg
    have hp := hpositions.bounds (p + 1) ⟨g, hg⟩
    exact ((hpositions.recursion (p + 1) hp.1 hp.2).1 ⟨g, hg⟩).2 ⟨f, hf⟩
  · obtain ⟨i, rfl, hrecords, rfl⟩ := (Call.failure?_eq_some_iff hr).1 hf
    exact Call.describesMismatch_entryAt hparse h .legacy
      (Call.lt_size_of_mismatches (Call.mismatches_of_records hrecords))

end Legacy

/-- **Legacy indexing**: arguments with as many well-formed texts get the report described by `LegacyReport`. -/
theorem check_legacy (hindexing : v.config.indexing = .legacy)
    (hwell : ∀ text ∈ texts, ∃ e, Expectation.parse text = .ok e) (hlength : texts.length = a.size)
    (hpos : 0 < a.size) : ∃ r, v.check a texts = .ok r ∧ LegacyReport a texts r := by
  obtain ⟨es, h, hparse, r, hcheck, hr⟩ := v.exists_check hwell hlength hpos
  rw [hindexing] at hr
  exact ⟨r, hcheck, legacyReport_of_entries hparse hr⟩

/-- Three mismatches in a row: the second is passed over, and the third reads past the end. -/
theorem check_legacy_three :
    (∀ text ∈ ["string|object", "number", "string"], ∃ e, Expectation.parse text = .ok e) ∧
      ∃ r, ({ config := { indexing := .legacy } } : Validator).check
          (.ofList [.ofNat 1, .string "b", .bool true]) ["string|object", "number", "string"] = .ok r ∧
        LegacyReport (.ofList [.ofNat 1, .string "b", .bool true]) ["string|object", "number", "string"] r :=
  ⟨wellFormed_three, check_legacy rfl wellFormed_three rfl (by decide)⟩

/-! ## Consistent indexing -/

/-- What a report under consistent indexing holds. -/
structure ConsistentReport (a : Arguments) (texts : List String) (r : Report) : Prop where
  recorded : ∀ p, (∃ f, r.failure? p = some f) ↔ 1 ≤ p ∧ p ≤ a.size ∧ a.mismatches texts p = true
  /-- An entry shows the argument of its own position. -/
  entry : ∀ p f, r.failure? p = some f → ∃ value, a.get? (p - 1) = some value ∧ DescribesMismatch a texts p value f
  passed : r.passed = true ↔ ∀ p, r.failure? p = none
  errorCount : r.errorCount = (List.range' 1 a.size).countP (a.mismatches texts)
  /-- The messages are those of the mismatching positions in increasing order. -/
  messages : r.messages.map some =
    ((List.range' 1 a.size).filter (a.mismatches texts)).map fun p => (r.failure? p).map (·.message)

section Consistent

variable {es : List Expectation} {h : es.length = a.size} {r : Report}
  (hparse : Expectation.parseList texts = .ok es)
  (hr : r.entries = (Call.ofLengthEq a es h).entriesBelow .consistent a.size)
include hparse hr

/-- The positions of the report are the mismatching ones in increasing order. -/
theorem positions_consistent : r.positions = (List.range' 1 a.size).filter (a.mismatches texts) := by
  have hmap : List.range' 1 a.size = (List.range a.size).map (· + 1) := by
    rw [List.range'_eq_map_range]
    exact List.map_congr_left fun i _ => Nat.add_comm 1 i
  rw [Call.positions_eq hr, hmap, List.filter_map]
  refine congrArg _ (List.filter_congr fun i _ => ?_)
  rw [Call.records_consistent, Call.mismatches_ofLengthEq hparse h]
  rfl

theorem consistentReport_of_entries : ConsistentReport a texts r := by
  have hpositions := positions_consistent hparse hr
  refine ⟨fun p => ?_, fun p f hf => ?_, r.passed_iff_failure?, ?_, ?_⟩
  · rw [← r.mem_positions_iff, hpositions, List.mem_filter, List.mem_range'_1]
    constructor
    · rintro ⟨⟨h1, hp⟩, hm⟩
      exact ⟨h1, by omega, hm⟩
    · rintro ⟨h1, hp, hm⟩
      exact ⟨⟨h1, by omega⟩, hm⟩
  · obtain ⟨i, rfl, hrecords, rfl⟩ := (Call.failure?_eq_some_iff hr).1 hf
    have hi : i < a.size := Call.lt_size_of_mismatches (Call.mismatches_of_records hrecords)
    have hvalue : a.get? i = some a.values[i] := Array.getElem?_eq_getElem hi
    have hdescribes := Call.describesMismatch_entryAt hparse h .consistent hi
    rw [Call.reportedIndex, hvalue, Option.getD_some] at hdescribes
    exact ⟨a.values[i], hvalue, hdescribes⟩
  · rw [r.errorCount_eq_length, hpositions, List.countP_eq_length_filter]
  · rw [r.messages_eq, hpositions]

end Consistent

/-- **Consistent indexing**: arguments with as many well-formed texts get the report described by
`ConsistentReport`. -/
theorem check_consistent (hindexing : v.config.indexing = .consistent)
    (hwell : ∀ text ∈ texts, ∃ e, Expectation.parse text = .ok e) (hlength : texts.length = a.size)
    (hpos : 0 < a.size) : ∃ r, v.check a texts = .ok r ∧ ConsistentReport a texts r := by
  obtain ⟨es, h, hparse, r, hcheck, hr⟩ := v.exists_check hwell hlength hpos
  rw [hindexing] at hr
  exact ⟨r, hcheck, consistentReport_of_entries hparse hr⟩

/-- Three mismatches in a row get three entries. -/
theorem check_consistent_three :
    (∀ text ∈ ["string|object", "number", "string"], ∃ e, Expectation.parse text = .ok e) ∧
      ∃ r, ({ config := { indexing := .consistent } } : Validator).check
          (.ofList [.ofNat 1, .string "b", .bool true]) ["string|object", "number", "string"] = .ok r ∧
        ConsistentReport (.ofList [.ofNat 1, .string "b", .bool true]) ["string|object", "number", "string"] r :=
  ⟨wellFormed_three, check_consistent rfl wellFormed_three rfl (by decide)⟩

end Check

end CallContract
