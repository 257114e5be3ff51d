import CallContract.Proofs.Comparison
import CallContract.Proofs.Indexing

/-!
# More alternatives

Texts are widened when alternatives are added (`Expectation.Widened`); the same alternatives may also be written in
another order or several times (`Expectation.SameTags`). More alternatives accept more kinds
(`Expectation.Within.accepts`), so every mismatch of the wider texts is one of the narrower ones. Hence widening
never breaks a call that passes, and under consistent indexing it only takes entries away (`widening_safe`). Under
legacy indexing, where an entry hides the mismatch behind it, it can also bring one to light
(`exists_recorded_of_widened`).
-/

namespace CallContract

/-! ## Alternatives -/

namespace Expectation

/-- Every alternative of the first is one of the second. -/
def Within (e f : Expectation) : Prop :=
  ∀ tag ∈ e.tags, tag ∈ f.tags

instance (e f : Expectation) : Decidable (e.Within f) :=
  inferInstanceAs (Decidable (∀ tag ∈ e.tags, tag ∈ f.tags))

/-- Both have the same alternatives, in any order and any number. -/
def SameAlternatives (e f : Expectation) : Prop :=
  ∀ tag, tag ∈ e.tags ↔ tag ∈ f.tags

/-- The texts can be read position by position, as expectations that are related. -/
def Reads₂ (R : Expectation → Expectation → Prop) (texts texts' : List String) : Prop :=
  List.Forall₂ (fun text text' => ∃ e f, parse text = .ok e ∧ parse text' = .ok f ∧ R e f) texts texts'

/-- At every position the second list has the alternatives of the first one. -/
def Widened : List String → List String → Prop :=
  Reads₂ Within

/-- At every position both lists have the same alternatives. -/
def SameTags : List String → List String → Prop :=
  Reads₂ SameAlternatives

variable {e f : Expectation} {texts texts' : List String}

theorem Within.accepts (h : e.Within f) {k : Kind} (hk : e.accepts k = true) : f.accepts k = true := by
  obtain ⟨tag, htag, haccepts⟩ := List.any_eq_true.1 hk
  exact List.any_eq_true.2 ⟨tag, h tag htag, haccepts⟩

theorem SameAlternatives.accepts (h : e.SameAlternatives f) (k : Kind) : e.accepts k = f.accepts k := by
  rw [Bool.eq_iff_iff]
  constructor
  · exact Within.accepts fun tag => (h tag).1
  · exact Within.accepts fun tag => (h tag).2

theorem SameTags.widened (h : SameTags texts texts') : Widened texts texts' :=
  h.imp fun _ _ ⟨e, f, he, hf, htags⟩ => ⟨e, f, he, hf, fun tag => (htags tag).1⟩

theorem Reads₂.exists_parse {R : Expectation → Expectation → Prop} (h : Reads₂ R texts texts') :
    ∃ es fs, List.Forall₂ (fun text e => parse text = .ok e) texts es ∧
      List.Forall₂ (fun text f => parse text = .ok f) texts' fs ∧ List.Forall₂ R es fs := by
  have hsplit : List.Forall₂ (fun text text' => ∃ e, parse text = .ok e ∧ ∃ f, R e f ∧ parse text' = .ok f)
      texts texts' := h.imp fun _ _ ⟨e, f, he, hf, hR⟩ => ⟨e, he, f, hR, hf⟩
  obtain ⟨es, hes, hrest⟩ := Traversal.exists_forall₂_of_forall₂_exists hsplit
  obtain ⟨fs, hR, hfs⟩ := Traversal.exists_forall₂_of_forall₂_exists hrest
  exact ⟨es, fs, hes, hfs.flip, hR⟩

end Expectation

/-- What a failure shows. -/
def Failure.shown (f : Failure) : Value × Kind :=
  (f.passedData, f.passedKind)

/-! ## Two calls on the same arguments -/

namespace Call

/-- The same arguments with expectations that are related. -/
structure SameValues (R : Expectation → Expectation → Prop) (c d : Call) : Prop where
  values : c.values = d.values
  expectationAt : ∀ i, R (c.expectationAt i) (d.expectationAt i)

variable {R : Expectation → Expectation → Prop} {c d : Call} {indexing : Indexing}

theorem sameValues_ofLengthEq {a : Arguments} {es fs : List Expectation} (hR : ∀ e, R e e)
    (h : List.Forall₂ R es fs) (hes : es.length = a.size) (hfs : fs.length = a.size) :
    SameValues R (ofLengthEq a es hes) (ofLengthEq a fs hfs) := by
  refine ⟨rfl, fun i => ?_⟩
  rw [expectationAt, expectationAt, Array.getD_eq_getD_getElem?, Array.getD_eq_getD_getElem?, ofLengthEq, ofLengthEq,
    List.getElem?_toArray, List.getElem?_toArray]
  exact Traversal.getD_of_forall₂ (hR default) h i

theorem SameValues.kindAt (h : SameValues R c d) (i : Nat) : c.kindAt i = d.kindAt i := by
  rw [Call.kindAt, Call.kindAt, h.values]

theorem SameValues.shown_entryAt (h : SameValues R c d) (i : Nat) :
    (c.entryAt indexing i).2.shown = (d.entryAt indexing i).2.shown := by
  simp only [Failure.shown, entryAt, failureAt, h.values]

/-- A mismatch with more alternatives is one with fewer. -/
theorem SameValues.mismatches_of_within (h : SameValues Expectation.Within c d) {i : Nat}
    (hm : d.mismatches i = true) : c.mismatches i = true := by
  have hnot : ¬(c.expectationAt i).accepts (c.kindAt i) = true := by
    intro haccepts
    rw [h.kindAt] at haccepts
    exact not_accepts_of_mismatches hm ((h.expectationAt i).accepts haccepts)
  rw [mismatches, h.values, decide_eq_true (lt_size_of_mismatches hm), Bool.true_and, Bool.not_eq_true',
    Bool.eq_false_iff]
  exact hnot

theorem SameValues.mismatches_congr (h : SameValues Expectation.SameAlternatives c d) (i : Nat) :
    c.mismatches i = d.mismatches i := by
  rw [mismatches, mismatches, h.values, h.kindAt, (h.expectationAt i).accepts]

end Call

/-! ## Two validations of the same arguments -/

namespace Validator

variable {a : Arguments} {texts texts' : List String}

/-- Texts that are related position by position lead to faults of one category before matching, or to matching. -/
theorem validate_reads₂ {R : Expectation → Expectation → Prop} (hR : ∀ e, R e e)
    (h : Expectation.Reads₂ R texts texts') (a : Arguments) :
    (∃ fault fault' : Fault, fault.category = fault'.category ∧ ∀ (v : Validator) (mode : Mode),
        v.validate mode a texts = .error fault ∧ v.validate mode a texts' = .error fault') ∨
      ∃ c d, Call.SameValues R c d ∧ ∀ (v : Validator) (mode : Mode),
        v.validate mode a texts = c.report mode v.config.indexing ∧
          v.validate mode a texts' = d.report mode v.config.indexing := by
  obtain ⟨es, fs, hes, hfs, hread⟩ := h.exists_parse
  by_cases hnil : texts = []
  · subst hnil
    obtain rfl : texts' = [] := List.forall₂_nil_left_iff.1 h
    exact Or.inl ⟨_, _, rfl, fun v mode => ⟨v.validate_of_parse_error rfl, v.validate_of_parse_error rfl⟩⟩
  have hnil' : texts' ≠ [] := fun hnil' => hnil (List.forall₂_nil_right_iff.1 (hnil' ▸ h))
  have hparse := Expectation.parseList_eq_ok_iff.2 ⟨hnil, hes⟩
  have hparse' := Expectation.parseList_eq_ok_iff.2 ⟨hnil', hfs⟩
  rcases Nat.eq_zero_or_pos a.size with hzero | hpos
  · refine Or.inl ⟨.noArguments es, .noArguments fs, rfl, fun v mode => ?_⟩
    rw [v.validate_of_parse hparse, v.validate_of_parse hparse']
    exact ⟨v.reportOn_of_size_eq_zero hzero, v.reportOn_of_size_eq_zero hzero⟩
  by_cases hlength : es.length = a.size
  · have hlength' : fs.length = a.size := hread.length_eq ▸ hlength
    refine Or.inr ⟨_, _, Call.sameValues_ofLengthEq hR hread hlength hlength', fun v mode => ?_⟩
    rw [v.validate_of_parse hparse, v.validate_of_parse hparse']
    exact ⟨v.reportOn_of_eq hpos hlength, v.reportOn_of_eq hpos hlength'⟩
  · have hlength' : fs.length ≠ a.size := hread.length_eq ▸ hlength
    refine Or.inl ⟨.arity, .arity, rfl, fun v mode => ?_⟩
    rw [v.validate_of_parse hparse, v.validate_of_parse hparse']
    exact ⟨v.reportOn_of_ne hpos hlength, v.reportOn_of_ne hpos hlength'⟩

end Validator

/-- Exceptions of one category. -/
def Exception.SameKind (e e' : Exception) : Prop :=
  e.kind = e'.kind

/-- The second report has entries at positions of the first only, which show the same. -/
def Report.Covers (r s : Report) : Prop :=
  ∀ p f, s.failure? p = some f → ∃ g, r.failure? p = some g ∧ g.shown = f.shown

/-- What becomes of a validation when its texts are widened. -/
structure WideningSafe (a : Arguments) (texts texts' : List String) : Prop where
  /-- As many texts as arguments, and at least one, give a report before and after. -/
  reports : ∀ v : Validator, texts.length = a.size → 0 < a.size →
    ∃ r s, v.check a texts = .ok r ∧ v.check a texts' = .ok s
  /-- A call that passes still does, under any configuration. -/
  passes : ∀ v w : Validator, v.expect a texts = .ok true → w.expect a texts' = .ok true
  consistent : ∀ v : Validator, v.config.indexing = .consistent →
    SameOutcome Exception.SameKind Report.Covers (v.check a texts) (v.check a texts')
  /-- The same alternatives give the same verdict, and entries that show the same. -/
  sameTags : Expectation.SameTags texts texts' → ∀ v : Validator,
    SameOutcome Exception.SameKind (· = ·) (v.expect a texts) (v.expect a texts') ∧
      SameOutcome Exception.SameKind (Report.AgreeOn Failure.shown) (v.check a texts) (v.check a texts')

section Widening

variable {a : Arguments} {texts texts' : List String}

theorem sameKind_raise (v : Validator) {fault fault' : Fault} (h : fault.category = fault'.category) :
    (fault.raise v.config).SameKind (fault'.raise v.config) := by
  rw [Exception.SameKind, Fault.kind_raise, Fault.kind_raise, h]

theorem exists_check_of_reads₂ {R : Expectation → Expectation → Prop} (h : Expectation.Reads₂ R texts texts')
    (v : Validator) (hlength : texts.length = a.size) (hpos : 0 < a.size) :
    ∃ r s, v.check a texts = .ok r ∧ v.check a texts' = .ok s := by
  obtain ⟨es, fs, hes, hfs, _⟩ := h.exists_parse
  have hread := Traversal.exists_of_mapM_eq_ok (Traversal.mapM_eq_ok_iff.2 hes)
  have hread' := Traversal.exists_of_mapM_eq_ok (Traversal.mapM_eq_ok_iff.2 hfs)
  obtain ⟨_, _, _, r, hr, _⟩ := v.exists_check hread hlength hpos
  obtain ⟨_, _, _, s, hs, _⟩ := v.exists_check hread' (h.length_eq ▸ hlength) hpos
  exact ⟨r, s, hr, hs⟩

theorem expect_of_widened (h : Expectation.Widened texts texts') (v w : Validator)
    (hv : v.expect a texts = .ok true) : w.expect a texts' = .ok true := by
  rcases Validator.validate_reads₂ (fun _ _ htag => htag) h a with ⟨fault, _, _, hfault⟩ | ⟨c, d, hcd, hmatch⟩
  · rw [v.expect_of_error (hfault v .strict).1] at hv
    exact nomatch hv
  · rcases c.report_strict v.config.indexing with ⟨_, hall⟩ | ⟨i, hs, _, _⟩
    · have hall' : ∀ i, d.mismatches i = false := by
        intro i
        rw [← Bool.not_eq_true]
        exact fun hm => nomatch (hall i).symm.trans (hcd.mismatches_of_within hm)
      rcases d.report_strict w.config.indexing with ⟨hs', _⟩ | ⟨i, _, hm, _⟩
      · exact w.expect_of_ok ((hmatch w .strict).2.trans hs')
      · exact nomatch (hall' i).symm.trans hm
    · rw [v.expect_of_error ((hmatch v .strict).1.trans hs)] at hv
      exact nomatch hv

theorem check_of_widened (h : Expectation.Widened texts texts') (v : Validator)
    (hindexing : v.config.indexing = .consistent) :
    SameOutcome Exception.SameKind Report.Covers (v.check a texts) (v.check a texts') := by
  rcases Validator.validate_reads₂ (fun _ _ htag => htag) h a with ⟨_, _, hcategory, hfault⟩ | ⟨c, d, hcd, hmatch⟩
  · rw [v.check_of_error (hfault v _).1, v.check_of_error (hfault v _).2]
    exact .error (sameKind_raise v hcategory)
  · obtain ⟨r, hr, hentries⟩ := c.report_reporting .consistent
    obtain ⟨s, hs, hentries'⟩ := d.report_reporting .consistent
    rw [← hindexing] at hr hs
    rw [v.check_of_ok ((hmatch v _).1.trans hr), v.check_of_ok ((hmatch v _).2.trans hs)]
    refine .ok fun p f hf => ?_
    have hrecords : ∀ i, d.records .consistent i = true → c.records .consistent i = true := by
      intro i hi
      rw [Call.records_consistent] at hi ⊢
      exact hcd.mismatches_of_within hi
    obtain ⟨i, _, rfl, hg⟩ := Call.exists_failure?_of_records hentries hentries' hrecords hf
    exact ⟨_, hg, hcd.shown_entryAt i⟩

theorem expect_check_of_sameTags (h : Expectation.SameTags texts texts') (v : Validator) :
    SameOutcome Exception.SameKind (· = ·) (v.expect a texts) (v.expect a texts') ∧
      SameOutcome Exception.SameKind (Report.AgreeOn Failure.shown) (v.check a texts) (v.check a texts') := by
  rcases Validator.validate_reads₂ (fun _ _ => Iff.rfl) h a with ⟨_, _, hcategory, hfault⟩ | ⟨c, d, hcd, hmatch⟩
  · rw [v.expect_of_error (hfault v _).1, v.expect_of_error (hfault v _).2, v.check_of_error (hfault v _).1,
      v.check_of_error (hfault v _).2]
    exact ⟨.error (sameKind_raise v hcategory), .error (sameKind_raise v hcategory)⟩
  · have hm := hcd.mismatches_congr
    constructor
    · have hstrict : SameOutcome (fun fault fault' : Fault => fault.category = fault'.category) (· = ·)
          (c.report .strict v.config.indexing) (d.report .strict v.config.indexing) :=
        Call.report_strict_related hm fun _ _ => rfl
      rw [Validator.expect, Validator.expect, (hmatch v _).1, (hmatch v _).2]
      exact (hstrict.mapError fun _ _ => sameKind_raise v).map fun _ _ => congrArg Report.passed
    · obtain ⟨r, hr, hentries⟩ := c.report_reporting v.config.indexing
      obtain ⟨s, hs, hentries'⟩ := d.report_reporting v.config.indexing
      rw [v.check_of_ok ((hmatch v _).1.trans hr), v.check_of_ok ((hmatch v _).2.trans hs)]
      exact .ok (Call.agreeOn_of_entries hentries hentries' (congrArg Array.size hcd.values) hm
        fun i _ => hcd.shown_entryAt i)

/-- **Widening the texts breaks nothing** as far as `WideningSafe` says. -/
theorem widening_safe (h : Expectation.Widened texts texts') (a : Arguments) : WideningSafe a texts texts' where
  reports := exists_check_of_reads₂ h
  passes := expect_of_widened h
  consistent := check_of_widened h
  sameTags hsame := expect_check_of_sameTags hsame

/-- A text with an alternative written twice, and one with alternatives added. -/
theorem widening_safe_two :
    let a := Arguments.ofList [.ofNat 1, .string "x"]
    let texts := ["string|number", "boolean"]
    Expectation.SameTags texts ["number|string|number", "boolean"] ∧
      WideningSafe a texts ["number|string|number", "boolean"] ∧
      Expectation.Widened texts ["*|number|string", "boolean|object"] ∧
      WideningSafe a texts ["*|number|string", "boolean|object"] := by
  intro a texts
  have hsame : Expectation.SameTags texts ["number|string|number", "boolean"] := by
    refine .cons ⟨_, _, rfl, rfl, fun tag => ?_⟩ (.cons ⟨_, _, rfl, rfl, fun tag => Iff.rfl⟩ .nil)
    cases tag <;> decide
  have hwider : Expectation.Widened texts ["*|number|string", "boolean|object"] := by
    refine .cons ⟨_, _, rfl, rfl, ?_⟩ (.cons ⟨_, _, rfl, rfl, ?_⟩ .nil)
    · decide
    · decide
  exact ⟨hsame, widening_safe hsame.widened a, hwider, widening_safe hwider a⟩

/-- Under legacy indexing widening can bring a mismatch to light: the first position matches the wider text, so that
the second one is no longer passed over. -/
theorem exists_recorded_of_widened :
    let v : Validator := { config := { indexing := .legacy } }
    ∃ a texts texts' r s, Expectation.Widened texts texts' ∧ v.check a texts = .ok r ∧ v.check a texts' = .ok s ∧
      ¬r.Covers s := by
  intro v
  let a := Arguments.ofList [.ofNat 1, .ofNat 2]
  have hstring : ∃ e, Expectation.parse "string" = .ok e := ⟨⟨.string, []⟩, rfl⟩
  have hread : ∀ text ∈ ["string", "string"], ∃ e, Expectation.parse text = .ok e := by
    simpa using hstring
  have hread' : ∀ text ∈ ["number|string", "string"], ∃ e, Expectation.parse text = .ok e := by
    simpa using ⟨⟨⟨.number, [.string]⟩, rfl⟩, hstring⟩
  obtain ⟨es, h, hparse, r, hcheck, hr⟩ := v.exists_check hread (rfl : _ = a.size) (by decide)
  obtain ⟨fs, h', hparse', s, hcheck', hs⟩ := v.exists_check hread' (rfl : _ = a.size) (by decide)
  obtain rfl : [⟨.string, []⟩, ⟨.string, []⟩] = es := Except.ok.inj hparse
  obtain rfl : [⟨.number, [.string]⟩, ⟨.string, []⟩] = fs := Except.ok.inj hparse'
  refine ⟨a, _, _, r, s, ?_, hcheck, hcheck', fun hcovers => ?_⟩
  · refine .cons ⟨_, _, rfl, rfl, ?_⟩ (.cons ⟨_, _, rfl, rfl, fun _ htag => htag⟩ .nil)
    decide
  · obtain ⟨f, hf⟩ := (Call.recorded_succ_iff hs (i := 1)).2 rfl
    obtain ⟨g, hg, _⟩ := hcovers 2 f hf
    exact Bool.false_ne_true ((Call.recorded_succ_iff hr (i := 1)).1 ⟨g, hg⟩)

end Widening

end CallContract
