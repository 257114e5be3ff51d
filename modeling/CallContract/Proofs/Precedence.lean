import CallContract.Proofs.Dynamic
import CallContract.Proofs.Indexing

/-!
# The order of failures

A dynamic validation of any three values is settled by the first phase that objects. `Rejection` lists the phases in
order: each constructor asks for what the phases before it have accepted, and says what its own phase objects to, with
the category and the message of the exception. `expectDynamicM_precedence` says that a rejected call raises that
exception and calls nothing, whatever the later inputs are, and that a call without a rejection passes or hands its
report to the callback.
-/

namespace CallContract

/-! ## What each phase asks for -/

/-- An array of at least one well-formed text. -/
structure Expectation.Lists (expectations : Value) (texts : List String) : Prop where
  eq_strings : expectations = .strings texts
  ne_nil : texts ≠ []
  wellFormed : ∀ text ∈ texts, Expectation.WellFormed text

/-- Everything that matching asks for: as many arguments as texts, at least one and not too many, each the entry at its
position. -/
structure Matchable (object expectations : Value) (a : Arguments) (texts : List String) : Prop where
  declares : Arguments.Declares object a.size
  lists : Expectation.Lists expectations texts
  length_eq : texts.length = a.size
  pos : 0 < a.size
  le_max : a.size ≤ 65535
  entries : ∀ i < a.size, a.get? i = some (Arguments.entryAt object i)

/-- The objections to a dynamic call in the order in which they are raised, with category and message. -/
inductive Rejection (object expectations callback : Value) : Exception.Kind → String → Prop where
  | argumentsMissing (falsy : object.Falsy) :
    Rejection object expectations callback .missingArguments "Function arguments are required."
  | argumentsShape (given : ¬object.Falsy) (undeclared : ∀ n, ¬Arguments.Declares object n) :
    Rejection object expectations callback .missingArguments
      "Function arguments must be an instance of a function's arguments."
  | expectationsMissing {n : Nat} (declares : Arguments.Declares object n)
      (missing : expectations.Falsy ∨ expectations = .array []) :
    Rejection object expectations callback .invalidExpectations "Expectations are required."
  | expectationsShape {n : Nat} (declares : Arguments.Declares object n) (given : ¬expectations.Falsy)
      (shape : ∀ items, expectations ≠ .array items) :
    Rejection object expectations callback .invalidExpectations
      ("Expectations must be an array of string expectations, " ++ expectations.kind.name ++ " was passed.")
  | item {n : Nat} {texts : List String} {item : Value} {rest : List Value}
      (declares : Arguments.Declares object n) (split : expectations = .array (texts.map .string ++ item :: rest))
      (before : ∀ text ∈ texts, Expectation.WellFormed text) (shape : ∀ text, item ≠ .string text) :
    Rejection object expectations callback .invalidExpectations
      ("Expectations must only contain valid string expectations, " ++ item.kind.name ++ " was detected - `" ++
        item.text ++ "`.")
  | segment {n : Nat} {texts : List String} {text segment : String} {rest : List Value}
      (declares : Arguments.Declares object n)
      (split : expectations = .array (texts.map .string ++ .string text :: rest))
      (before : ∀ text ∈ texts, Expectation.WellFormed text) (bad : Expectation.FirstBadSegment text segment) :
    Rejection object expectations callback .invalidExpectations
      ("A malformed string of expectation was detected - `" ++ segment ++ "`.")
  | noArguments {texts : List String} (declares : Arguments.Declares object 0)
      (lists : Expectation.Lists expectations texts) :
    Rejection object expectations callback .noArguments
      ("There were no arguments passed. Function expects arguments to be: (" ++ ", ".intercalate texts ++ ").")
  | arity {n : Nat} {texts : List String} (declares : Arguments.Declares object n)
      (lists : Expectation.Lists expectations texts) (pos : 0 < n) (length_ne : texts.length ≠ n) :
    Rejection object expectations callback .arityMismatch
      "The number of function arguments does not match the number of expected arguments."
  | tooMany {n : Nat} {texts : List String} (declares : Arguments.Declares object n)
      (lists : Expectation.Lists expectations texts) (length_eq : texts.length = n) (gt_max : 65535 < n) :
    Rejection object expectations callback .missingArguments
      "Function arguments must be an instance of a function's arguments."
  | mismatch {a : Arguments} {texts : List String} {p : Nat} {value : Value} {text : String}
      (matchable : Matchable object expectations a texts) (strict : callback.Falsy)
      (mismatches : a.mismatches texts p = true) (first : ∀ q < p, a.mismatches texts q = false)
      (value_at : a.get? (p - 1) = some value) (text_at : texts[p - 1]? = some text) :
    Rejection object expectations callback .argumentType
      ("Argument number " ++ toString p ++ " must be " ++ text ++ ", " ++ value.kind.name ++ " was passed.")
  | callback {a : Arguments} {texts : List String} (matchable : Matchable object expectations a texts)
      (given : ¬callback.Falsy) (shape : ∀ f, callback ≠ .function f) :
    Rejection object expectations callback .invalidCallback
      ("Callback function must be a function, " ++ callback.kind.name ++ " was passed.")

/-! ## Expectations -/

namespace Validator

variable {expectations : Value} {texts : List String}

theorem parseDynamic_of_missing (h : expectations.Falsy ∨ expectations = .array []) :
    parseDynamic expectations = .error (.expectation .missing) := by
  rcases h with h | rfl
  · unfold parseDynamic
    rw [Value.truthy_eq_false_iff.2 h]
    rfl
  · rfl

theorem parseDynamic_of_ne_array (hgiven : ¬expectations.Falsy) (h : ∀ items, expectations ≠ .array items) :
    parseDynamic expectations = .error (.expectationsShape expectations.kind) := by
  unfold parseDynamic
  rw [Value.truthy_eq_true_iff.2 hgiven]
  cases expectations with
  | array items => exact absurd rfl (h items)
  | _ => rfl

theorem parseDynamic_array {items : List Value} (h : items ≠ []) :
    parseDynamic (.array items) = items.mapM parseItem := by
  cases items with
  | nil => exact absurd rfl h
  | cons item items => rfl

theorem parseItem_of_ne_string {item : Value} (h : ∀ text, item ≠ .string text) :
    parseItem item = .error (.expectationItem item.kind item.text) := by
  cases item with
  | string text => exact absurd rfl (h text)
  | _ => rfl

theorem parseItem_string (text : String) :
    parseItem (.string text) = (Expectation.parse text).mapError .expectation := rfl

theorem exists_parseItem_iff {text : String} :
    (∃ e, parseItem (.string text) = .ok e) ↔ Expectation.WellFormed text := by
  rw [← Expectation.exists_parse_eq_ok_iff, parseItem_string]
  cases Expectation.parse text with
  | error err => exact ⟨nofun, nofun⟩
  | ok e => exact ⟨fun _ => ⟨e, rfl⟩, fun _ => ⟨e, rfl⟩⟩

/-- The first item that is no well-formed text settles the fault. -/
theorem parseDynamic_of_item {item : Value} (rest : List Value) {fault : Fault}
    (hbefore : ∀ text ∈ texts, Expectation.WellFormed text) (h : parseItem item = .error fault) :
    parseDynamic (.array (texts.map .string ++ item :: rest)) = .error fault := by
  rw [parseDynamic_array (by simp)]
  refine Traversal.mapM_append_error rest (fun z hz => ?_) h
  obtain ⟨text, htext, rfl⟩ := List.mem_map.1 hz
  exact exists_parseItem_iff.2 (hbefore text htext)

/-- Readable items are well-formed texts. -/
theorem eq_strings_of_items {items : List Value} (h : ∀ item ∈ items, ∃ e, parseItem item = .ok e) :
    ∃ texts : List String, items = texts.map .string ∧ ∀ text ∈ texts, Expectation.WellFormed text := by
  induction items with
  | nil => exact ⟨[], rfl, nofun⟩
  | cons item items ih =>
    obtain ⟨texts, rfl, htexts⟩ := ih fun z hz => h z (List.mem_cons_of_mem item hz)
    obtain ⟨e, he⟩ := h item List.mem_cons_self
    cases item with
    | string text =>
      exact ⟨text :: texts, rfl, List.forall_mem_cons.2 ⟨exists_parseItem_iff.1 ⟨e, he⟩, htexts⟩⟩
    | _ => exact nomatch he

theorem parse_of_lists (h : Expectation.Lists expectations texts) : ∃ es, parseDynamic expectations = .ok es ∧
    Expectation.parseList texts = .ok es ∧ es.length = texts.length ∧ es.map Expectation.raw = texts := by
  obtain ⟨es, hparse⟩ := Expectation.exists_parseList_eq_ok h.ne_nil h.wellFormed
  have hraw := Expectation.map_raw_of_parseList hparse
  refine ⟨es, ?_, hparse, by rw [← hraw, List.length_map], hraw⟩
  rw [h.eq_strings, parseDynamic_strings, parse, hparse]
  rfl

/-! ## Reports -/

section Report

variable (v : Validator) {mode : Mode} {object : Value} {a : Arguments} {es : List Expectation} {n : Nat}
  {fault : Fault}

theorem reportDynamic_of_falsy (h : object.Falsy) :
    v.reportDynamic mode object expectations = .error .argumentsMissing := by
  rw [reportDynamic, Value.truthy_eq_false_iff.2 h]
  rfl

theorem reportDynamic_of_undeclared (hgiven : ¬object.Falsy) (h : ∀ n, ¬Arguments.Declares object n) :
    v.reportDynamic mode object expectations = .error .argumentsShape := by
  have hnone : Arguments.declaredLength? object = none :=
    Option.eq_none_iff_forall_ne_some.2 fun n hn => h n (Arguments.declaredLength?_eq_some_iff.1 hn)
  rw [reportDynamic, Value.truthy_eq_true_iff.2 hgiven, hnone]
  rfl

/-- The phases that are left once a length is declared. -/
theorem reportDynamic_of_declares (h : Arguments.Declares object n) : v.reportDynamic mode object expectations = (do
    let es ← parseDynamic expectations
    let _ ← Call.checkArity n es
    match Arguments.ofObject? object with
    | some a => v.reportOn mode a es
    | none => .error .argumentsShape) := by
  rw [reportDynamic, h.truthy, Arguments.declaredLength?_eq_some_iff.2 h]
  cases Arguments.ofObject? object <;> rfl

theorem reportDynamic_of_parse_error (h : Arguments.Declares object n)
    (hparse : parseDynamic expectations = .error fault) :
    v.reportDynamic mode object expectations = .error fault := by
  rw [v.reportDynamic_of_declares h, hparse]
  rfl

theorem reportDynamic_of_arity_error (h : Arguments.Declares object n) (hparse : parseDynamic expectations = .ok es)
    (harity : Call.checkArity n es = .error fault) : v.reportDynamic mode object expectations = .error fault := by
  rw [v.reportDynamic_of_declares h, hparse]
  show (Call.checkArity n es >>= _) = _
  rw [harity]
  rfl

theorem reportDynamic_of_tooMany (h : Arguments.Declares object n) (hparse : parseDynamic expectations = .ok es)
    (hlength : es.length = n) (hlt : Arguments.maxRead < n) :
    v.reportDynamic mode object expectations = .error .argumentsShape := by
  rw [v.reportDynamic_of_declares h, hparse]
  show (Call.checkArity n es >>= _) = _
  rw [Call.checkArity_of_eq (Nat.zero_lt_of_lt hlt) hlength, Arguments.ofObject?_of_lt h hlt]
  rfl

end Report

end Validator

namespace Matchable

variable {object expectations : Value} {a : Arguments} {texts : List String}

theorem ofObject? (h : Matchable object expectations a texts) : Arguments.ofObject? object = some a :=
  Arguments.ofObject?_eq_some_iff.2 ⟨h.declares, h.le_max, h.entries⟩

/-- What can be matched is matched, in either mode. -/
theorem exists_call (v : Validator) (h : Matchable object expectations a texts) :
    ∃ es, ∃ hlength : es.length = a.size, Expectation.parseList texts = .ok es ∧ ∀ mode,
      v.reportDynamic mode object expectations = (Call.ofLengthEq a es hlength).report mode v.config.indexing := by
  obtain ⟨es, hdynamic, hparse, hlen, _⟩ := Validator.parse_of_lists h.lists
  have hlength : es.length = a.size := hlen.trans h.length_eq
  refine ⟨es, hlength, hparse, fun mode => ?_⟩
  rw [h.lists.eq_strings, v.reportDynamic_eq_validate h.ofObject?, v.validate_of_parse hparse,
    v.reportOn_of_eq h.pos hlength]

end Matchable

/-! ## The order -/

namespace Validator

variable (v : Validator) {object expectations callback : Value}

/-- The call raises a fault and calls no function, whatever functions do. -/
def RaisesDynamic (object expectations callback : Value) (fault : Fault) : Prop :=
  ∀ (m : Type → Type) [Monad m] (call : Function → List Value → m Value),
    v.expectDynamicM call object expectations callback = pure (.error (fault.raise v.config))

variable {v} in
theorem raisesDynamic_of_fault {fault : Fault}
    (h : v.reportDynamic (modeOf callback) object expectations = .error fault) :
    v.RaisesDynamic object expectations callback fault := by
  intro m _ call
  refine v.expectDynamicM_eq_error call ?_
  rw [h]
  rfl

/-- The fault of the first mismatch quotes the text and names the kind at its position. -/
theorem message_of_first_mismatch {a : Arguments} {texts : List String} {es : List Expectation} {i : Nat}
    {value : Value} {text : String} (hparse : Expectation.parseList texts = .ok es) (hlength : es.length = a.size)
    (hi : i < a.size) (hvalue : a.get? i = some value) (htext : texts[i]? = some text) :
    ((Call.ofLengthEq a es hlength).faultAt i).message =
      "Argument number " ++ toString (i + 1) ++ " must be " ++ text ++ ", " ++ value.kind.name ++ " was passed." := by
  obtain ⟨value', text', e, hvalue', htext', he, hkind, hexpectation⟩ := Call.exists_at hparse hlength hi
  obtain rfl : value = value' := Option.some.inj (hvalue.symm.trans hvalue')
  obtain rfl : text = text' := Option.some.inj (htext.symm.trans htext')
  rw [Call.faultAt, hkind, hexpectation, Fault.message_mismatch, Expectation.raw_eq_of_parse he]

/-- Strict matching ends with the first mismatch, if there is one. -/
theorem reportDynamic_strict {a : Arguments} {texts : List String} (h : Matchable object expectations a texts) :
    (v.reportDynamic .strict object expectations = .ok .empty ∧ ∀ p, a.mismatches texts p = false) ∨
      ∃ i value text fault, i < a.size ∧ a.get? i = some value ∧ texts[i]? = some text ∧
        a.mismatches texts (i + 1) = true ∧ (∀ q < i + 1, a.mismatches texts q = false) ∧
        v.reportDynamic .strict object expectations = .error fault ∧ fault.category = .argumentType ∧
        fault.message = "Argument number " ++ toString (i + 1) ++ " must be " ++ text ++ ", " ++ value.kind.name ++
          " was passed." := by
  obtain ⟨es, hlength, hparse, hreport⟩ := h.exists_call v
  have hmismatches : ∀ i, (Call.ofLengthEq a es hlength).mismatches i = a.mismatches texts (i + 1) := fun i =>
    Call.mismatches_ofLengthEq hparse hlength
  rw [hreport .strict]
  rcases (Call.ofLengthEq a es hlength).report_strict v.config.indexing with ⟨hs, hall⟩ | ⟨i, hs, hm, hfirst⟩
  · exact Or.inl ⟨hs, (Call.forall_mismatches_ofLengthEq hparse hlength).1 hall⟩
  · have hi : i < a.size := Call.lt_size_of_mismatches hm
    obtain ⟨value, text, _, hvalue, htext, _⟩ := Call.exists_at hparse hlength hi
    refine Or.inr ⟨i, value, text, _, hi, hvalue, htext, (hmismatches i).symm.trans hm, fun q hq => ?_, hs, rfl,
      message_of_first_mismatch hparse hlength hi hvalue htext⟩
    cases q with
    | zero => rfl
    | succ j => exact (hmismatches j).symm.trans (hfirst j (Nat.lt_of_succ_lt_succ hq))

/-- Reporting on what can be matched gives a report, which has passed when nothing mismatches. -/
theorem reportDynamic_reporting {a : Arguments} {texts : List String} (h : Matchable object expectations a texts) :
    ∃ r, v.reportDynamic .reporting object expectations = .ok r ∧ v.check a texts = .ok r ∧
      (r.passed = true ↔ ∀ p, a.mismatches texts p = false) := by
  obtain ⟨es, hlength, hparse, hreport⟩ := h.exists_call v
  obtain ⟨r, hr, _⟩ := (Call.ofLengthEq a es hlength).report_reporting v.config.indexing
  have hreporting := (hreport .reporting).trans hr
  refine ⟨r, hreporting, ?_, ?_⟩
  · rw [← v.raising_reportDynamic h.ofObject?, ← h.lists.eq_strings, hreporting]
    rfl
  · rw [Call.passed_iff_of_report hr, Call.forall_mismatches_ofLengthEq hparse hlength]

/-- A rejected call raises the fault of its rejection. -/
theorem exists_fault_of_rejection {kind : Exception.Kind} {message : String}
    (h : Rejection object expectations callback kind message) :
    ∃ fault : Fault, fault.category = kind ∧ fault.message = message ∧
      v.RaisesDynamic object expectations callback fault := by
  cases h with
  | argumentsMissing hfalsy =>
    exact ⟨.argumentsMissing, rfl, rfl, raisesDynamic_of_fault (v.reportDynamic_of_falsy hfalsy)⟩
  | argumentsShape hgiven hundeclared =>
    exact ⟨.argumentsShape, rfl, rfl, raisesDynamic_of_fault (v.reportDynamic_of_undeclared hgiven hundeclared)⟩
  | expectationsMissing hdeclares hmissing =>
    have hparse := parseDynamic_of_missing hmissing
    exact ⟨.expectation .missing, rfl, rfl, raisesDynamic_of_fault (v.reportDynamic_of_parse_error hdeclares hparse)⟩
  | expectationsShape hdeclares hgiven hshape =>
    have hparse := parseDynamic_of_ne_array hgiven hshape
    exact ⟨.expectationsShape expectations.kind, rfl, rfl,
      raisesDynamic_of_fault (v.reportDynamic_of_parse_error hdeclares hparse)⟩
  | @item _ _ item rest hdeclares hsplit hbefore hshape =>
    subst hsplit
    have hparse := parseDynamic_of_item rest hbefore (parseItem_of_ne_string hshape)
    exact ⟨.expectationItem item.kind item.text, rfl, rfl,
      raisesDynamic_of_fault (v.reportDynamic_of_parse_error hdeclares hparse)⟩
  | @segment _ _ text segment rest hdeclares hsplit hbefore hbad =>
    subst hsplit
    have hitem : parseItem (.string text) = .error (.expectation (.malformed segment)) := by
      rw [parseItem_string, Expectation.parse_of_firstBadSegment hbad]
      rfl
    have hparse := parseDynamic_of_item rest hbefore hitem
    exact ⟨.expectation (.malformed segment), rfl, rfl,
      raisesDynamic_of_fault (v.reportDynamic_of_parse_error hdeclares hparse)⟩
  | noArguments hdeclares hlists =>
    obtain ⟨es, hparse, _, _, hraw⟩ := parse_of_lists hlists
    have harity : Call.checkArity 0 es = .error (.noArguments es) := Call.checkArity_of_eq_zero rfl
    refine ⟨.noArguments es, rfl, ?_, raisesDynamic_of_fault (v.reportDynamic_of_arity_error hdeclares hparse harity)⟩
    rw [Fault.message_noArguments, hraw]
  | arity hdeclares hlists hpos hne =>
    obtain ⟨es, hparse, _, hlength, _⟩ := parse_of_lists hlists
    have harity := Call.checkArity_of_ne hpos (hlength ▸ hne)
    exact ⟨.arity, rfl, rfl, raisesDynamic_of_fault (v.reportDynamic_of_arity_error hdeclares hparse harity)⟩
  | tooMany hdeclares hlists heq hlt =>
    obtain ⟨es, hparse, _, hlength, _⟩ := parse_of_lists hlists
    exact ⟨.argumentsShape, rfl, rfl,
      raisesDynamic_of_fault (v.reportDynamic_of_tooMany hdeclares hparse (hlength.trans heq) hlt)⟩
  | @mismatch a texts p value text hmatchable hstrict hm hfirst hvalue htext =>
    rcases v.reportDynamic_strict hmatchable with ⟨_, hall⟩ |
      ⟨i, value', text', fault, _, hvalue', htext', hm', hfirst', hreport, hkind, hmessage⟩
    · exact nomatch (hall p).symm.trans hm
    · obtain rfl : p = i + 1 := Call.eq_of_first hm hfirst hm' hfirst'
      obtain rfl : value' = value := Option.some.inj (hvalue'.symm.trans hvalue)
      obtain rfl : text' = text := Option.some.inj (htext'.symm.trans htext)
      refine ⟨fault, hkind, hmessage, raisesDynamic_of_fault ?_⟩
      rw [modeOf, Value.truthy_eq_false_iff.2 hstrict]
      exact hreport
  | callback hmatchable hgiven hshape =>
    obtain ⟨r, hr, _, _⟩ := v.reportDynamic_reporting hmatchable
    exact ⟨.callback callback.kind, rfl, Fault.message_callback callback.kind, fun _ _ call =>
      v.expectDynamicM_eq_callback_error call (Value.truthy_eq_true_iff.2 hgiven) hshape (congrArg v.raising hr)⟩

/-- What no phase before matching objects to can be matched. -/
theorem exists_matchable (h : ∀ kind message, ¬Rejection object expectations callback kind message) :
    ∃ a texts, Matchable object expectations a texts := by
  have hgiven : ¬object.Falsy := fun hfalsy => h _ _ (.argumentsMissing hfalsy)
  obtain ⟨n, hdeclares⟩ : ∃ n, Arguments.Declares object n := by
    by_contra hnone
    exact h _ _ (.argumentsShape hgiven fun n hn => hnone ⟨n, hn⟩)
  have hexpectations : ¬expectations.Falsy ∧ expectations ≠ .array [] :=
    ⟨fun hfalsy => h _ _ (.expectationsMissing hdeclares (Or.inl hfalsy)),
      fun hnil => h _ _ (.expectationsMissing hdeclares (Or.inr hnil))⟩
  obtain ⟨items, rfl⟩ : ∃ items, expectations = .array items := by
    by_contra hnone
    exact h _ _ (.expectationsShape hdeclares hexpectations.1 fun items hitems => hnone ⟨items, hitems⟩)
  have hne : items ≠ [] := fun hnil => hexpectations.2 (congrArg Value.array hnil)
  obtain ⟨texts, hlists⟩ : ∃ texts, Expectation.Lists (.array items) texts := by
    cases hitems : items.mapM parseItem with
    | ok es =>
      obtain ⟨texts, rfl, htexts⟩ := eq_strings_of_items (Traversal.exists_of_mapM_eq_ok hitems)
      exact ⟨texts, rfl, fun hnil => hne (by rw [hnil]; rfl), htexts⟩
    | error fault =>
      obtain ⟨good, item, rest, rfl, hgood, hitem⟩ := Traversal.mapM_eq_error_iff.1 hitems
      obtain ⟨texts, rfl, htexts⟩ := eq_strings_of_items hgood
      by_cases hstring : ∃ text, item = .string text
      · obtain ⟨text, rfl⟩ := hstring
        obtain ⟨segment, hbad⟩ : ∃ segment, Expectation.FirstBadSegment text segment := by
          refine Expectation.exists_firstBadSegment fun hwell => ?_
          obtain ⟨e, he⟩ := exists_parseItem_iff.2 hwell
          exact nomatch he.symm.trans hitem
        exact absurd (.segment hdeclares rfl htexts hbad) (h _ _)
      · exact absurd (.item hdeclares rfl htexts fun text htext => hstring ⟨text, htext⟩) (h _ _)
  have hpos : 0 < n := by
    by_contra hzero
    obtain rfl : n = 0 := Nat.eq_zero_of_not_pos hzero
    exact h _ _ (.noArguments hdeclares hlists)
  have hlength : texts.length = n := by
    by_contra hne
    exact h _ _ (.arity hdeclares hlists hpos hne)
  have hle : n ≤ 65535 := by
    by_contra hgt
    exact h _ _ (.tooMany hdeclares hlists hlength (Nat.lt_of_not_le hgt))
  obtain ⟨a, _, rfl, hentries⟩ := Arguments.exists_ofObject? hdeclares hle
  exact ⟨a, texts, hdeclares, hlists, hlength, hpos, hle, hentries⟩

/-- A dynamic validation in the order of its phases. Functions are called in any monad, so that what they do and answer
is left open. -/
structure DynamicPrecedence (object expectations callback : Value) : Prop where
  /-- A rejection settles the exception, and no function is called. -/
  rejected : ∀ {kind : Exception.Kind} {message : String}, Rejection object expectations callback kind message →
    ∃ e : Exception, e.kind = kind ∧ e.message = message ∧
      (∀ (m : Type → Type) [Monad m] (call : Function → List Value → m Value),
        v.expectDynamicM call object expectations callback = pure (.error e)) ∧
      v.expectDynamic object expectations callback = ⟨.error e, []⟩
  /-- Without a rejection everything is there for matching: a call without a callback matches in all positions and
  passes, and any other hands its report to the function, once. -/
  accepted : (∀ kind message, ¬Rejection object expectations callback kind message) →
    ∃ a texts, Matchable object expectations a texts ∧
      ((callback.Falsy ∧ (∀ p, a.mismatches texts p = false) ∧
          (∀ (m : Type → Type) [Monad m] (call : Function → List Value → m Value),
            v.expectDynamicM call object expectations callback = pure (.ok true)) ∧
          v.expectDynamic object expectations callback = ⟨.ok true, []⟩) ∨
        ∃ f, ∃ r : Report, callback = .function f ∧ v.check a texts = .ok r ∧
          (r.passed = true ↔ ∀ p, a.mismatches texts p = false) ∧
          (∀ (m : Type → Type) [Monad m] (call : Function → List Value → m Value),
            v.expectDynamicM call object expectations callback =
              (do let _ ← call f [r.toValue]; pure (.ok r.passed))) ∧
          v.expectDynamic object expectations callback = ⟨.ok r.passed, [⟨f, [r.toValue]⟩]⟩)

/-- **The order of failures** of a dynamic validation, for any three values. -/
theorem expectDynamicM_precedence (object expectations callback : Value) :
    v.DynamicPrecedence object expectations callback := by
  constructor
  · intro kind message hrejection
    obtain ⟨fault, hkind, hmessage, hraises⟩ := v.exists_fault_of_rejection hrejection
    refine ⟨fault.raise v.config, (Fault.kind_raise _ _).trans hkind, (Fault.message_raise _ _).trans hmessage,
      hraises, ?_⟩
    rw [expectDynamic, hraises]
    rfl
  · intro hnone
    obtain ⟨a, texts, hmatchable⟩ := exists_matchable hnone
    refine ⟨a, texts, hmatchable, ?_⟩
    cases hc : callback.truthy with
    | false =>
      rcases v.reportDynamic_strict hmatchable with ⟨hreport, hall⟩ | ⟨i, _, _, _, _, hvalue, htext, hm, hfirst, _⟩
      · have hok := fun (m : Type → Type) [Monad m] (call : Function → List Value → m Value) =>
          v.expectDynamicM_eq_passed call hc (congrArg v.raising hreport)
        refine Or.inl ⟨Value.truthy_eq_false_iff.1 hc, hall, hok, ?_⟩
        rw [expectDynamic, hok]
        rfl
      · exact absurd (.mismatch hmatchable (Value.truthy_eq_false_iff.1 hc) hm hfirst hvalue htext) (hnone _ _)
    | true =>
      obtain ⟨r, hreport, hcheck, hpassed⟩ := v.reportDynamic_reporting hmatchable
      by_cases hfunction : ∃ f, callback = .function f
      · obtain ⟨f, rfl⟩ := hfunction
        have hok := fun (m : Type → Type) [Monad m] (call : Function → List Value → m Value) =>
          v.expectDynamicM_eq_call call f (congrArg v.raising hreport)
        refine Or.inr ⟨f, r, rfl, hcheck, hpassed, hok, ?_⟩
        rw [expectDynamic, hok]
        rfl
      · exact absurd (.callback hmatchable (Value.truthy_eq_true_iff.1 hc) fun f hf => hfunction ⟨f, hf⟩) (hnone _ _)

end Validator

end CallContract
