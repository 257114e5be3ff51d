import CallContract.Proofs.CommandLine.ExitCode
import CallContract.Proofs.Value.Tame

/-!
# Values of a check

A value that is read from JSON is tame (`readsTamely`), so the value of a text is undefined where the text says so and
nowhere else (`kind_of_readValue?`). A message about a mismatch names the kind of the value at its position: it names
undefined at such positions only, and never a kind that no text writes (`TellsKind`). This holds of the exception of
strict mode and of the entries of a report, under any configuration (`tellsKinds`) and for the command
(`checkTells`).
-/

namespace CallContract.CommandLine

/-! ## Reading -/

/-- What is read from a JSON text. -/
structure ReadsTamely (text : String) : Prop where
  tame : ∀ value, Value.ofJsonText? text = some value → value.Tame
  /-- The value equals itself. -/
  isSame : ∀ value, Value.ofJsonText? text = some value → value.isSame value = true
  kind : ∀ value, Value.ofJsonText? text = some value → value.kind ∈ [Kind.object, .string, .number, .boolean]

theorem readsTamely (text : String) : ReadsTamely text where
  tame _ := Value.tame_of_ofJsonText?
  isSame value h := (Value.isSame_self_iff value).2 (Value.tame_of_ofJsonText? h).numeric
  kind _ h := (Value.tame_of_ofJsonText? h).kind_mem

/-- The value of a text is undefined where the text says so, and never of a kind that JSON lacks. -/
theorem kind_of_readValue? {text : String} {value : Value} (h : readValue? text = some value) :
    (value.kind = .undefined ↔ text = "undefined") ∧
      value.kind ≠ .function ∧ value.kind ≠ .symbol ∧ value.kind ≠ .bigint := by
  unfold readValue? at h
  split at h
  case isTrue htext =>
    obtain rfl := Option.some.inj h
    simp [Value.kind, htext]
  case isFalse htext =>
    have hkind := (readsTamely text).kind value h
    generalize value.kind = kind at hkind ⊢
    cases kind <;> simp_all

/-- In quotes the word is a string. -/
example : (["undefined", "[]", "\"undefined\""].map fun text => (readValue? text).map Value.kind) =
    [some .undefined, some .object, some .string] := by cbv

/-! ## Messages -/

/-- The message about the mismatch at a position quotes the expectation there and names a kind: undefined where the
text of the value says so, and never one that no text writes. -/
structure TellsKind (values expects : List String) (position : Nat) (message : String) (kind : Kind) : Prop where
  bounds : 1 ≤ position ∧ position ≤ values.length
  message : ∃ text, expects[position - 1]? = some text ∧ message =
    "Argument number " ++ toString position ++ " must be " ++ text ++ ", " ++ kind.name ++ " was passed."
  undefined_iff : kind = .undefined ↔ values[position - 1]? = some "undefined"
  readable : kind ≠ .function ∧ kind ≠ .symbol ∧ kind ≠ .bigint

section Messages

variable {values expects : List String} {a : Arguments} {v : Validator}

/-- The argument at an index is the value of the text there. -/
theorem exists_text_of_get? (hread : readValues values = .ok a) {i : Nat} {value : Value}
    (h : a.get? i = some value) : ∃ text, values[i]? = some text ∧ readValue? text = some value := by
  have hforall := (readValues_eq_ok_iff.1 hread).imp fun _ _ => readValue?_eq_some_iff.2
  rw [Arguments.get?, ← Array.getElem?_toList] at h
  obtain ⟨hi, rfl⟩ := List.getElem?_eq_some_iff.1 h
  have hi' : i < values.length := hforall.length_eq.symm ▸ hi
  exact ⟨values[i], List.getElem?_eq_getElem hi', hforall.get hi' hi⟩

theorem exists_tellsKind (hread : readValues values = .ok a) {p : Nat} {shown : Value} {f : Failure} (hp : 1 ≤ p)
    (h : DescribesMismatch a expects p shown f) :
    ∃ value, a.get? (p - 1) = some value ∧ TellsKind values expects p f.message value.kind := by
  obtain ⟨value, expectation, e, hvalue, hexpectation, -, -, rfl⟩ := h
  obtain ⟨text, htext, hreads⟩ := exists_text_of_get? hread hvalue
  obtain ⟨hi, -⟩ := List.getElem?_eq_some_iff.1 htext
  obtain ⟨hundefined, hreadable⟩ := kind_of_readValue? hreads
  refine ⟨value, hvalue, ⟨⟨hp, by omega⟩, ⟨expectation, hexpectation, rfl⟩, ?_, hreadable⟩⟩
  rw [hundefined, htext, Option.some.injEq]

/-- What is said about the kinds of arguments whose texts are known. -/
structure TellsKinds (values expects : List String) (v : Validator) (a : Arguments) : Prop where
  strict : ∀ e, v.expect a expects = .error e → e.kind = .argumentType →
    ∃ p kind, TellsKind values expects p e.message kind
  /-- Under consistent indexing an entry has the kind that its message names. -/
  reported : ∀ r p f, v.check a expects = .ok r → r.failure? p = some f →
    ∃ kind, TellsKind values expects p f.message kind ∧ (v.config.indexing = .consistent → f.passedKind = kind)

theorem exists_tellsKind_of_check (hread : readValues values = .ok a) {r : Report} {p : Nat} {f : Failure}
    (hcheck : v.check a expects = .ok r) (hf : r.failure? p = some f) :
    ∃ kind, TellsKind values expects p f.message kind ∧ (v.config.indexing = .consistent → f.passedKind = kind) := by
  obtain ⟨hp, hdescribes⟩ := v.describesMismatch_of_check hcheck hf
  obtain ⟨value, hvalue, htells⟩ := exists_tellsKind hread hp hdescribes
  refine ⟨value.kind, htells, ?_⟩
  intro hindexing
  obtain ⟨_, _, _, _, _, _, _, rfl⟩ := hdescribes
  simp only [hindexing, Call.reportedIndex, hvalue, Option.getD_some]

theorem tellsKinds (hread : readValues values = .ok a) (v : Validator) (expects : List String) :
    TellsKinds values expects v a where
  strict e h hkind := by
    obtain ⟨r, p, f, hcheck, hf, -, hmessage⟩ := Validator.exists_of_expect_eq_error h hkind
    obtain ⟨kind, htells, -⟩ := exists_tellsKind_of_check hread hcheck hf
    exact ⟨p, kind, hmessage ▸ htells⟩
  reported r p f := exists_tellsKind_of_check hread

end Messages

/-! ## The command -/

/-- What a check writes about the kinds of its values. -/
structure CheckTells (files : Files) (o : CheckOptions) : Prop where
  strict : o.report = false → (check files o).exit = 1 → ∃ expects p kind e,
    loadExpectations files o = .ok expects ∧ check files o = ⟨1, "", Exception.text e ++ "\n"⟩ ∧
      TellsKind o.values expects p e.message kind
  reported : o.report = true → (check files o).exit ≠ 2 → ∃ config expects r,
    loadConfig files o = .ok config ∧ loadExpectations files o = .ok expects ∧
      (check files o).stdout = (Report.toJson r).pretty ++ "\n" ∧ ∀ p f, r.failure? p = some f →
        ∃ kind, TellsKind o.values expects p f.message kind ∧ (config.indexing = .consistent → f.passedKind = kind)

theorem checkTells (files : Files) (o : CheckOptions) : CheckTells files o where
  strict hplain hexit := by
    obtain ⟨fields, expects, a, loads⟩ := exists_loads_of_exit_ne (hexit.trans_ne (by decide))
    rw [check_of_strict loads.load_eq hplain] at hexit ⊢
    obtain ⟨e, hexpect, hkind, houtcome⟩ := exists_of_strictOutcome_exit_one hexit
    obtain ⟨p, kind, htells⟩ := (tellsKinds (readValues_eq_ok_iff.2 loads.values) _ expects).strict e hexpect hkind
    exact ⟨expects, p, kind, e, loadExpectations_eq_ok_iff.2 loads.expected, houtcome, htells⟩
  reported hreport hexit := by
    obtain ⟨fields, expects, a, loads⟩ := exists_loads_of_exit_ne hexit
    rw [check_of_report loads.load_eq hreport] at hexit ⊢
    obtain ⟨r, hcheck, houtput, -⟩ := exists_of_reportOutcome hexit
    refine ⟨o.override fields.complete, expects, r, loadConfig_eq_ok_iff.2 ⟨fields, loads.configured, rfl⟩,
      loadExpectations_eq_ok_iff.2 loads.expected, houtput, ?_⟩
    intro p f hf
    exact (tellsKinds (readValues_eq_ok_iff.2 loads.values) _ expects).reported r p f hcheck hf

/-- **Values that are read from texts are tame.** Every numeral that has a value converts to a finite number, so what
is read from JSON has only the forms of JSON; and the kinds that are told of the values of a check are those that their
texts write. -/
theorem values_are_tame :
    (∀ (numeral : Json.Numeral) (n : Json.Number), numeral.value? = some n →
        ∃ x, n.toBinary64? = some x ∧ x.isFinite = true) ∧
      (∀ text, ReadsTamely text) ∧
      (∀ values a, readValues values = .ok a → ∀ (v : Validator) (expects : List String),
        TellsKinds values expects v a) ∧
      ∀ files o, CheckTells files o := by
  refine ⟨?_, readsTamely, ?_, checkTells⟩
  · intro numeral n h
    exact ⟨n.toBinary64, Json.Numeral.toBinary64?_of_value? h, Json.Numeral.isFinite_of_value? h⟩
  · intro values a hread v expects
    exact tellsKinds hread v expects

end CallContract.CommandLine
