import CallContract.Proofs.Comparison
import CallContract.Proofs.Precedence

/-!
# Only kinds matter

Two runs on arguments of the same kinds, position by position, tell the same: one exception, or reports that differ in
the data shown and nowhere else (`only_kinds_matter`). No text is made from an argument but from its kind.

The two runs are compared phase by phase. Two calls with the same kinds (`Call.SameKinds`) have the same mismatches and
the same faults, also under legacy indexing, which shows the argument behind a mismatch; everything before matching
looks at the number of arguments.
-/

namespace CallContract

/-- The kinds of the arguments in order. -/
def Arguments.kinds (a : Arguments) : List Kind :=
  a.toList.map Value.kind

namespace Arguments

variable {a b : Arguments}

theorem getElem?_kinds (a : Arguments) (i : Nat) : a.kinds[i]? = (a.get? i).map Value.kind := by
  rw [kinds, List.getElem?_map, toList, Array.getElem?_toList, get?]

theorem size_eq_of_kinds (h : a.kinds = b.kinds) : a.size = b.size := by
  have hlength := congrArg List.length h
  rwa [kinds, kinds, List.length_map, List.length_map] at hlength

theorem kinds_eq_of_get? (hsize : a.size = b.size)
    (h : ∀ i < a.size, (a.get? i).map Value.kind = (b.get? i).map Value.kind) : a.kinds = b.kinds := by
  refine List.ext_getElem? fun i => ?_
  rw [getElem?_kinds, getElem?_kinds]
  by_cases hi : i < a.size
  · exact h i hi
  · have hnone : a.get? i = none := Array.getElem?_eq_none (Nat.le_of_not_lt hi)
    have hnone' : b.get? i = none := Array.getElem?_eq_none (Nat.le_of_not_lt fun hlt => hi (hsize ▸ hlt))
    rw [hnone, hnone']

end Arguments

/-- What a failure tells but for the data itself. -/
def Failure.told (f : Failure) : Kind × List TypeTag × String :=
  (f.passedKind, f.expects, f.message)

/-- The same error, or reports that agree but for the data. -/
abbrev SameButData {ε : Type} : Except ε Report → Except ε Report → Prop :=
  SameOutcome (· = ·) (Report.AgreeOn Failure.told)

/-! ## Two calls -/

namespace Call

/-- The same kinds and the same expectations at every index. -/
structure SameKinds (c d : Call) : Prop where
  size : c.values.size = d.values.size
  kindAt : ∀ i, c.kindAt i = d.kindAt i
  expectationAt : ∀ i, c.expectationAt i = d.expectationAt i

variable {c d : Call} {indexing : Indexing}

theorem SameKinds.mismatches (h : c.SameKinds d) (i : Nat) : c.mismatches i = d.mismatches i := by
  rw [Call.mismatches, Call.mismatches, h.size, h.kindAt, h.expectationAt]

theorem SameKinds.faultAt (h : c.SameKinds d) (i : Nat) : c.faultAt i = d.faultAt i := by
  rw [Call.faultAt, Call.faultAt, h.kindAt, h.expectationAt]

theorem told_entryAt (c : Call) (i : Nat) : (c.entryAt indexing i).2.told =
    (c.kindAt (reportedIndex indexing i), (c.expectationAt i).tags, (c.faultAt i).message) := by
  rw [kindAt, Array.getD_eq_getD_getElem?]
  rfl

theorem SameKinds.told_entryAt (h : c.SameKinds d) (i : Nat) :
    (c.entryAt indexing i).2.told = (d.entryAt indexing i).2.told := by
  rw [Call.told_entryAt, Call.told_entryAt, h.kindAt, h.expectationAt, h.faultAt]

/-- Calls with the same kinds are matched alike in either mode. -/
theorem SameKinds.report (h : c.SameKinds d) (mode : Mode) (indexing : Indexing) :
    SameButData (c.report mode indexing) (d.report mode indexing) := by
  cases mode with
  | strict =>
    rw [report_strict_congr h.mismatches fun i _ => h.faultAt i]
    exact SameOutcome.refl (fun _ => rfl) (Report.AgreeOn.refl _) _
  | reporting =>
    obtain ⟨r, hr, hentries⟩ := c.report_reporting indexing
    obtain ⟨s, hs, hentries'⟩ := d.report_reporting indexing
    rw [hr, hs]
    exact .ok (agreeOn_of_entries hentries hentries' h.size h.mismatches fun i _ => h.told_entryAt i)

theorem sameKinds_ofLengthEq {a b : Arguments} {es : List Expectation} (h : a.kinds = b.kinds)
    (ha : es.length = a.size) (hb : es.length = b.size) : (ofLengthEq a es ha).SameKinds (ofLengthEq b es hb) := by
  refine ⟨ha.symm.trans hb, fun i => ?_, fun i => rfl⟩
  have hget : (a.get? i).map Value.kind = (b.get? i).map Value.kind := by
    rw [← a.getElem?_kinds, ← b.getElem?_kinds, h]
  have hkind : ∀ x : Option Value, (x.getD .undefined).kind = (x.map Value.kind).getD .undefined := by
    intro x
    cases x <;> rfl
  rw [kindAt, kindAt, Array.getD_eq_getD_getElem?, Array.getD_eq_getD_getElem?, hkind, hkind]
  exact congrArg (Option.getD · Kind.undefined) hget

end Call

/-! ## Two validations -/

namespace Validator

variable (v : Validator) {a b : Arguments} {object object' : Value} {n : Nat}

theorem reportOn_of_kinds (h : a.kinds = b.kinds) (mode : Mode) (es : List Expectation) :
    SameButData (v.reportOn mode a es) (v.reportOn mode b es) := by
  have hsize := Arguments.size_eq_of_kinds h
  rcases Nat.eq_zero_or_pos a.size with hzero | hpos
  · rw [v.reportOn_of_size_eq_zero hzero, v.reportOn_of_size_eq_zero (hsize ▸ hzero)]
    exact .error rfl
  · by_cases hlength : es.length = a.size
    · have hlength' := hlength.trans hsize
      rw [v.reportOn_of_eq hpos hlength, v.reportOn_of_eq (hsize ▸ hpos) hlength']
      exact (Call.sameKinds_ofLengthEq h hlength hlength').report mode v.config.indexing
    · rw [v.reportOn_of_ne hpos hlength, v.reportOn_of_ne (hsize ▸ hpos) (hsize ▸ hlength)]
      exact .error rfl

theorem validate_of_kinds (h : a.kinds = b.kinds) (mode : Mode) (texts : List String) :
    SameButData (v.validate mode a texts) (v.validate mode b texts) := by
  cases hparse : Expectation.parseList texts with
  | error e =>
    rw [v.validate_of_parse_error hparse, v.validate_of_parse_error hparse]
    exact .error rfl
  | ok es =>
    rw [v.validate_of_parse hparse, v.validate_of_parse hparse]
    exact v.reportOn_of_kinds h mode es

/-- Objects that declare one length, with entries of the same kinds below it. -/
structure SameEntryKinds (object object' : Value) (n : Nat) : Prop where
  declares : Arguments.Declares object n
  declares' : Arguments.Declares object' n
  kind : ∀ i < n, (Arguments.entryAt object i).kind = (Arguments.entryAt object' i).kind

theorem reportDynamic_of_kinds (h : SameEntryKinds object object' n) (mode : Mode) (expectations : Value) :
    SameButData (v.reportDynamic mode object expectations) (v.reportDynamic mode object' expectations) := by
  rw [v.reportDynamic_of_declares h.declares, v.reportDynamic_of_declares h.declares']
  cases parseDynamic expectations with
  | error fault => exact .error rfl
  | ok es =>
    show SameButData (Call.checkArity n es >>= _) (Call.checkArity n es >>= _)
    cases Call.checkArity n es with
    | error fault => exact .error rfl
    | ok =>
      by_cases hle : n ≤ Arguments.maxRead
      · obtain ⟨a, ha, hsize, hget⟩ := Arguments.exists_ofObject? h.declares hle
        obtain ⟨b, hb, hsize', hget'⟩ := Arguments.exists_ofObject? h.declares' hle
        have hkinds : a.kinds = b.kinds := by
          refine Arguments.kinds_eq_of_get? (hsize.trans hsize'.symm) fun i hi => ?_
          rw [hsize] at hi
          rw [hget i hi, hget' i hi, Option.map_some, Option.map_some, h.kind i hi]
        rw [ha, hb]
        exact v.reportOn_of_kinds hkinds mode es
      · rw [Arguments.ofObject?_of_lt h.declares (Nat.lt_of_not_le hle),
          Arguments.ofObject?_of_lt h.declares' (Nat.lt_of_not_le hle)]
        exact .error rfl

theorem sameButData_raising {x y : Except Fault Report} (h : SameButData x y) :
    SameButData (v.raising x) (v.raising y) :=
  h.mapError fun _ _ => congrArg (Fault.raise v.config)

theorem passed_raising {x y : Except Fault Report} (h : SameButData x y) :
    (v.raising x).map Report.passed = (v.raising y).map Report.passed :=
  ((v.sameButData_raising h).map fun _ _ hagree => hagree.passed).eq

/-- Strict dynamic validation calls nothing. -/
theorem expectDynamicM_eq_pure {m : Type → Type} [Monad m] (call : Function → List Value → m Value)
    (object expectations : Value) {callback : Value} (h : callback.Falsy) :
    v.expectDynamicM call object expectations callback =
      pure ((v.raising (v.reportDynamic .strict object expectations)).map Report.passed) := by
  have hfalsy := Value.truthy_eq_false_iff.2 h
  cases hr : v.raising (v.reportDynamic .strict object expectations) with
  | error e =>
    refine v.expectDynamicM_eq_error call ?_
    rw [modeOf, hfalsy]
    exact hr
  | ok r => exact v.expectDynamicM_eq_passed call hfalsy hr

/-- With a callback two runs raise one exception and call nothing, or call the function with reports that agree but for
the data. -/
inductive SameCalls (expectations callback object object' : Value) : Prop
  | raised (e : Exception) (runs : ∀ (m : Type → Type) [Monad m] (call : Function → List Value → m Value),
      v.expectDynamicM call object expectations callback = pure (.error e) ∧
        v.expectDynamicM call object' expectations callback = pure (.error e))
  | called (f : Function) (r s : Report) (function : callback = .function f) (agree : r.AgreeOn Failure.told s)
      (runs : ∀ (m : Type → Type) [Monad m] (call : Function → List Value → m Value),
        v.expectDynamicM call object expectations callback =
            (do let _ ← call f [r.toValue]; pure (.ok r.passed)) ∧
          v.expectDynamicM call object' expectations callback =
            (do let _ ← call f [s.toValue]; pure (.ok s.passed)))

theorem sameCalls_of_kinds (expectations : Value) {callback : Value} (hc : ¬callback.Falsy)
    (h : SameEntryKinds object object' n) : v.SameCalls expectations callback object object' := by
  have hgiven := Value.truthy_eq_true_iff.2 hc
  have hmode : modeOf callback = .reporting := if_pos hgiven
  have hreport := v.sameButData_raising (v.reportDynamic_of_kinds h .reporting expectations)
  generalize hx : v.raising (v.reportDynamic .reporting object expectations) = x at hreport
  generalize hy : v.raising (v.reportDynamic .reporting object' expectations) = y at hreport
  cases hreport with
  | @error e e' he =>
    subst he
    refine .raised e fun m _ call => ?_
    exact ⟨v.expectDynamicM_eq_error call (hmode ▸ hx), v.expectDynamicM_eq_error call (hmode ▸ hy)⟩
  | @ok r s hagree =>
    by_cases hf : ∃ f, callback = .function f
    · obtain ⟨f, rfl⟩ := hf
      refine .called f r s rfl hagree fun m _ call => ?_
      exact ⟨v.expectDynamicM_eq_call call f hx, v.expectDynamicM_eq_call call f hy⟩
    · have hne : ∀ f, callback ≠ .function f := fun f hcf => hf ⟨f, hcf⟩
      refine .raised (Fault.raise v.config (.callback callback.kind)) fun m _ call => ?_
      exact ⟨v.expectDynamicM_eq_callback_error call hgiven hne hx,
        v.expectDynamicM_eq_callback_error call hgiven hne hy⟩

/-- What two runs on the same kinds have in common. -/
structure OnlyKindsMatter : Prop where
  expect : ∀ (texts : List String) {a b : Arguments}, a.kinds = b.kinds → v.expect a texts = v.expect b texts
  check : ∀ (texts : List String) {a b : Arguments}, a.kinds = b.kinds →
    SameButData (v.check a texts) (v.check b texts)
  /-- Dynamic validation in strict mode, whatever stands for expectations. -/
  dynamic : ∀ (expectations : Value) {callback object object' : Value} {n : Nat}, callback.Falsy →
    SameEntryKinds object object' n →
    v.expectDynamic object expectations callback = v.expectDynamic object' expectations callback ∧
      ∀ (m : Type → Type) [Monad m] (call : Function → List Value → m Value),
        v.expectDynamicM call object expectations callback = v.expectDynamicM call object' expectations callback
  callback : ∀ (expectations : Value) {callback object object' : Value} {n : Nat}, ¬callback.Falsy →
    SameEntryKinds object object' n → v.SameCalls expectations callback object object'

/-- **Only kinds matter**, under either indexing and for any expectations. -/
theorem only_kinds_matter (v : Validator) : v.OnlyKindsMatter where
  expect texts a b h := by
    rw [Validator.expect, Validator.expect]
    exact v.passed_raising (v.validate_of_kinds h .strict texts)
  check texts a b h := v.sameButData_raising (v.validate_of_kinds h .reporting texts)
  dynamic expectations callback object object' n hc h := by
    have hM : ∀ (m : Type → Type) [Monad m] (call : Function → List Value → m Value),
        v.expectDynamicM call object expectations callback =
          v.expectDynamicM call object' expectations callback := by
      intro m _ call
      rw [v.expectDynamicM_eq_pure call _ _ hc, v.expectDynamicM_eq_pure call _ _ hc,
        v.passed_raising (v.reportDynamic_of_kinds h .strict expectations)]
    exact ⟨congrArg Delivery.ofRun (hM _ _), hM⟩
  callback expectations callback object object' n hc h := v.sameCalls_of_kinds expectations hc h

/-- Two lists of arguments, and two objects, with other data of the same kinds; the second entry of the one object is
missing, that of the other undefined. -/
theorem only_kinds_matter_two :
    let a := Arguments.ofList [.ofNat 1, .object [("x", .null)]]
    let b := Arguments.ofList [.ofNat 7, .object []]
    let object := Value.object [("0", .ofNat 1), ("length", .ofNat 2)]
    let object' := Value.object [("0", .ofNat 7), ("1", .undefined), ("2", .null), ("length", .ofNat 2)]
    a.kinds = b.kinds ∧ SameEntryKinds object object' 2 ∧
      ({} : Validator).expect a ["string", "number"] = ({} : Validator).expect b ["string", "number"] ∧
      SameButData (({} : Validator).check a ["string", "number"]) (({} : Validator).check b ["string", "number"]) ∧
      ({} : Validator).expectDynamic object (.strings ["*", "function"]) .undefined =
        ({} : Validator).expectDynamic object' (.strings ["*", "function"]) .undefined ∧
      ({} : Validator).SameCalls (.strings ["*", "function"]) (.string "no function") object object' := by
  intro a b object object'
  have hkinds : a.kinds = b.kinds := rfl
  have hentries : SameEntryKinds object object' 2 := by
    refine ⟨Arguments.declaredLength?_eq_some_iff.1 rfl, Arguments.declaredLength?_eq_some_iff.1 rfl, fun i hi => ?_⟩
    match i, hi with
    | 0, _ => rfl
    | 1, _ => rfl
  have h := only_kinds_matter {}
  exact ⟨hkinds, hentries, h.expect _ hkinds, h.check _ hkinds, (h.dynamic _ .undefined hentries).1,
    h.callback _ (Value.truthy_eq_true_iff.1 rfl) hentries⟩

end Validator

end CallContract
