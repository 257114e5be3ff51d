import CallContract.CommandLine
import CallContract.Proofs.CommandLine.Path
import CallContract.Proofs.Config
import CallContract.Proofs.Signature.Loading
import CallContract.Proofs.Traversal

/-!
# The stages of loading

A check loads its configuration, its expectations and its values. Each stage is given by what the options name and what
the files say: the fields of the configuration file (`Configured`), the texts of the signature file or of the options
(`Expected`), and the values that the texts write (`Writes`). All of them load exactly when everything is there
(`load_eq_ok_iff`), and otherwise the first stage that fails decides (`load_eq_error_iff`).
-/

namespace CallContract.CommandLine

/-! ## What is there -/

/-- A configuration under what the options say. -/
def CheckOptions.override (o : CheckOptions) (config : Config) : Config where
  docsUrl := o.docsUrl.getD config.docsUrl
  indexing := if o.legacyIndexing then .legacy else config.indexing

/-- The fields that the configuration file gives; none, if there is no file. -/
structure Configured (files : Files) (o : CheckOptions) (fields : Config.Fields) : Prop where
  default : o.config = none → fields = {}
  file : ∀ path, o.config = some path → Config.Says (files path) fields

/-- The format in which a signature file is read. -/
def ReadsAs (path : String) (format : Signature.Format) : Prop :=
  format = .json ↔ Path.NamesJson path

/-- The texts of the expectations: those of the signature file, if one is named, or else those of the options. -/
structure Expected (files : Files) (o : CheckOptions) (texts : List String) : Prop where
  given : o.signature = none → o.expectations = texts
  file : ∀ path, o.signature = some path →
    ∃ format s, ReadsAs path format ∧ Signature.FromFile format (files path) (.ok s) ∧ s.expects = texts

/-- A text writes a value: the word undefined, or JSON. -/
inductive Writes : String → Value → Prop where
  | undefined : Writes "undefined" .undefined
  | json {text : String} {j : Json} (h : text ≠ "undefined") (read : Json.ofString? text = some j) :
      Writes text (.ofJson j)

/-- A text that writes no value. -/
def IsMalformed (text : String) : Prop :=
  text ≠ "undefined" ∧ Json.ofString? text = none

/-- Everything that a check asks for is there. -/
structure Loads (files : Files) (o : CheckOptions) (fields : Config.Fields) (texts : List String) (a : Arguments) :
    Prop where
  configured : Configured files o fields
  expected : Expected files o texts
  values : List.Forall₂ Writes o.values a.toList

section Stages

variable {files : Files} {o : CheckOptions} {fields : Config.Fields} {config : Config} {texts : List String}
  {a : Arguments} {trouble : Trouble}

/-! ## The configuration -/

theorem loadConfig_of_none (h : o.config = none) : loadConfig files o = .ok (o.override {}) := by
  unfold loadConfig
  rw [h]
  rfl

theorem loadConfig_of_some {path : String} (h : o.config = some path) :
    loadConfig files o = ((Config.ofYamlFile (files path)).mapError (.ofConfig path)).map o.override := by
  unfold loadConfig
  rw [h]
  show ((Config.ofYamlFile (files path)).mapError (Trouble.ofConfig path)).bind
    (fun config => .ok (o.override config)) = _
  cases Config.ofYamlFile (files path) <;> rfl

theorem configured_of_none (h : o.config = none) : Configured files o fields ↔ fields = {} := by
  refine ⟨fun hconfigured => hconfigured.default h, fun hfields => ⟨fun _ => hfields, ?_⟩⟩
  intro path hpath
  exact nomatch h.symm.trans hpath

theorem configured_of_some {path : String} (h : o.config = some path) :
    Configured files o fields ↔ Config.Says (files path) fields := by
  refine ⟨fun hconfigured => hconfigured.file path h, fun hsays => ⟨fun hnone => ?_, ?_⟩⟩
  · exact nomatch h.symm.trans hnone
  · intro other hother
    obtain rfl := Option.some.inj (h.symm.trans hother)
    exact hsays

theorem loadConfig_eq_ok_iff :
    loadConfig files o = .ok config ↔ ∃ fields, Configured files o fields ∧ o.override fields.complete = config := by
  cases hpath : o.config with
  | none =>
    simp only [loadConfig_of_none hpath, configured_of_none hpath, Except.ok.injEq, exists_eq_left]
    exact Iff.rfl
  | some path =>
    have hmap (result : Except Config.Error Config) :
        (result.mapError (Trouble.ofConfig path)).map o.override = .ok config ↔
          ∃ file, result = .ok file ∧ o.override file = config := by
      cases result <;> simp [Except.mapError, Except.map]
    simp only [loadConfig_of_some hpath, hmap, configured_of_some hpath, Config.ofYamlFile_eq_ok_iff]
    constructor
    · rintro ⟨_, ⟨fields, hsays, rfl⟩, hoverride⟩
      exact ⟨fields, hsays, hoverride⟩
    · rintro ⟨fields, hsays, hoverride⟩
      exact ⟨_, ⟨fields, hsays, rfl⟩, hoverride⟩

theorem loadConfig_eq_error_iff : loadConfig files o = .error trouble ↔
    ∃ path e, o.config = some path ∧ Config.Refuses (files path) e ∧ Trouble.ofConfig path e = trouble := by
  simp only [← Config.ofYamlFile_eq_error_iff]
  cases hpath : o.config with
  | none => simp [loadConfig_of_none hpath]
  | some path =>
    cases hfile : Config.ofYamlFile (files path) <;>
      simp [loadConfig_of_some hpath, hfile, Except.mapError, Except.map]

theorem indexing_override_complete :
    (o.override fields.complete).indexing = .legacy ↔ o.legacyIndexing = true ∨ fields.indexing = some .legacy := by
  cases hflag : o.legacyIndexing <;> cases hindexing : fields.indexing <;>
    simp [CheckOptions.override, Config.Fields.complete, hflag, hindexing]

/-- The options go before the fields of the file, and these before the defaults. -/
theorem override_complete_eq_iff : o.override fields.complete = config ↔
    config.docsUrl = (o.docsUrl.or fields.docsUrl).getD "https://docs.rs/argcheck-core" ∧
      (config.indexing = .legacy ↔ o.legacyIndexing = true ∨ fields.indexing = some .legacy) := by
  have hdocsUrl : (o.override fields.complete).docsUrl =
      (o.docsUrl.or fields.docsUrl).getD "https://docs.rs/argcheck-core" := by
    cases hflag : o.docsUrl <;> simp [CheckOptions.override, Config.Fields.complete, hflag]
  rw [← hdocsUrl, ← indexing_override_complete]
  generalize o.override fields.complete = overridden
  constructor
  · rintro rfl
    exact ⟨rfl, Iff.rfl⟩
  · rintro ⟨hurl, hindexing⟩
    obtain ⟨url, indexing⟩ := config
    obtain ⟨url', indexing'⟩ := overridden
    cases indexing <;> cases indexing' <;> simp_all

/-! ## The expectations -/

theorem readsAs_iff {path : String} {format : Signature.Format} :
    ReadsAs path format ↔ format = if Path.isJson path then .json else .yaml := by
  rw [ReadsAs, ← Path.isJson_iff]
  cases format <;> cases Path.isJson path <;> simp

theorem loadSignature_eq_ok_iff {path : String} {s : Signature} : loadSignature files path = .ok s ↔
    ∃ format, ReadsAs path format ∧ Signature.FromFile format (files path) (.ok s) := by
  simp only [readsAs_iff, exists_eq_left, loadSignature, ← Signature.ofFile_eq_iff]
  generalize Signature.ofFile _ _ = result
  cases result <;> simp [Except.mapError]

theorem loadSignature_eq_error_iff {path : String} : loadSignature files path = .error trouble ↔
    ∃ format e, ReadsAs path format ∧ Signature.FromFile format (files path) (.error e) ∧
      Trouble.ofSignature path e = trouble := by
  simp only [readsAs_iff, exists_and_left, exists_eq_left, loadSignature, ← Signature.ofFile_eq_iff]
  generalize Signature.ofFile _ _ = result
  cases result <;> simp [Except.mapError]

theorem loadExpectations_of_none (h : o.signature = none) : loadExpectations files o = .ok o.expectations := by
  unfold loadExpectations
  rw [h]

theorem loadExpectations_of_some {path : String} (h : o.signature = some path) :
    loadExpectations files o = (loadSignature files path).map Signature.expects := by
  unfold loadExpectations
  rw [h]

theorem expected_of_none (h : o.signature = none) : Expected files o texts ↔ o.expectations = texts := by
  refine ⟨fun hexpected => hexpected.given h, fun htexts => ⟨fun _ => htexts, ?_⟩⟩
  intro path hpath
  exact nomatch h.symm.trans hpath

theorem expected_of_some {path : String} (h : o.signature = some path) : Expected files o texts ↔
    ∃ format s, ReadsAs path format ∧ Signature.FromFile format (files path) (.ok s) ∧ s.expects = texts := by
  refine ⟨fun hexpected => hexpected.file path h, fun hfile => ⟨fun hnone => ?_, ?_⟩⟩
  · exact nomatch h.symm.trans hnone
  · intro other hother
    obtain rfl := Option.some.inj (h.symm.trans hother)
    exact hfile

theorem loadExpectations_eq_ok_iff : loadExpectations files o = .ok texts ↔ Expected files o texts := by
  cases hpath : o.signature with
  | none => rw [loadExpectations_of_none hpath, expected_of_none hpath, Except.ok.injEq]
  | some path =>
    have hmap (result : Except Trouble Signature) :
        result.map Signature.expects = .ok texts ↔ ∃ s, result = .ok s ∧ s.expects = texts := by
      cases result <;> simp [Except.map]
    rw [loadExpectations_of_some hpath, hmap, expected_of_some hpath]
    simp only [loadSignature_eq_ok_iff]
    constructor
    · rintro ⟨s, ⟨format, hreads, hfile⟩, hexpects⟩
      exact ⟨format, s, hreads, hfile, hexpects⟩
    · rintro ⟨format, s, hreads, hfile, hexpects⟩
      exact ⟨s, ⟨format, hreads, hfile⟩, hexpects⟩

theorem loadExpectations_eq_error_iff : loadExpectations files o = .error trouble ↔
    ∃ path, o.signature = some path ∧ loadSignature files path = .error trouble := by
  cases hpath : o.signature with
  | none => simp [loadExpectations_of_none hpath]
  | some path => cases hs : loadSignature files path <;> simp [loadExpectations_of_some hpath, hs, Except.map]

/-! ## The values -/

theorem readValue?_eq_some_iff {text : String} {value : Value} : readValue? text = some value ↔ Writes text value := by
  unfold readValue?
  split
  · rename_i htext
    subst htext
    constructor
    · rintro ⟨⟩
      exact .undefined
    · intro h
      cases h with
      | undefined => rfl
      | json h => exact absurd rfl h
  · rename_i htext
    rw [Value.ofJsonText?, Option.map_eq_some_iff]
    constructor
    · rintro ⟨j, hread, rfl⟩
      exact .json htext hread
    · intro h
      cases h with
      | undefined => exact absurd rfl htext
      | json _ read => exact ⟨_, read, rfl⟩

theorem readValue?_eq_none_iff {text : String} : readValue? text = none ↔ IsMalformed text := by
  unfold readValue? IsMalformed
  split <;> simp [*, Value.ofJsonText?]

theorem readValueAt_eq_ok_iff {item : String × Nat} {value : Value} :
    readValueAt item = .ok value ↔ Writes item.1 value := by
  rw [← readValue?_eq_some_iff]
  simp only [readValueAt]
  cases readValue? item.1 <;> simp

theorem readValueAt_eq_error_iff {item : String × Nat} :
    readValueAt item = .error trouble ↔ IsMalformed item.1 ∧ Trouble.ofValue item.2 item.1 = trouble := by
  rw [← readValue?_eq_none_iff]
  simp only [readValueAt]
  cases readValue? item.1 <;> simp

theorem exists_readValueAt_iff {item : String × Nat} :
    (∃ value, readValueAt item = .ok value) ↔ ¬IsMalformed item.1 := by
  rw [← readValue?_eq_none_iff, ← ne_eq, Option.ne_none_iff_exists']
  simp only [readValueAt_eq_ok_iff, readValue?_eq_some_iff]

theorem mapM_readValueAt_eq_ok_iff {values : List Value} :
    texts.zipIdx.mapM readValueAt = .ok values ↔ List.Forall₂ Writes texts values := by
  have htexts : texts = texts.zipIdx.map Prod.fst := (List.zipIdx_map_fst 0 texts).symm
  conv_rhs => rw [htexts, List.forall₂_map_left_iff]
  simp only [Traversal.mapM_eq_ok_iff, readValueAt_eq_ok_iff]

theorem readValues_eq_ok_iff : readValues texts = .ok a ↔ List.Forall₂ Writes texts a.toList := by
  rw [← mapM_readValueAt_eq_ok_iff, readValues]
  cases texts.zipIdx.mapM readValueAt with
  | error trouble => simp [Except.map]
  | ok values =>
    simp only [Except.map, Except.ok.injEq]
    constructor
    · rintro rfl
      simp [Arguments.ofList, Arguments.toList]
    · rintro rfl
      simp [Arguments.ofList, Arguments.toList]

/-- The first text that writes no value is the one that is told of. -/
theorem readValues_eq_error_iff : readValues texts = .error trouble ↔ ∃ index text, texts[index]? = some text ∧
    IsMalformed text ∧ (∀ i < index, ∀ earlier, texts[i]? = some earlier → ¬IsMalformed earlier) ∧
      Trouble.ofValue index text = trouble := by
  have hmap : readValues texts = .error trouble ↔ texts.zipIdx.mapM readValueAt = .error trouble := by
    unfold readValues
    cases texts.zipIdx.mapM readValueAt <;> simp [Except.map]
  rw [hmap, Traversal.mapM_eq_error_iff_getElem?]
  simp only [List.getElem?_zipIdx, Option.map_eq_some_iff, readValueAt_eq_error_iff, exists_readValueAt_iff]
  constructor
  · rintro ⟨i, _, ⟨text, htext, rfl⟩, ⟨hmalformed, htrouble⟩, hfirst⟩
    rw [Nat.zero_add] at htrouble
    exact ⟨i, text, htext, hmalformed, fun j hj earlier h => hfirst j hj _ ⟨earlier, h, rfl⟩, htrouble⟩
  · rintro ⟨index, text, htext, hmalformed, hfirst, htrouble⟩
    refine ⟨index, _, ⟨text, htext, rfl⟩, ⟨hmalformed, by rwa [Nat.zero_add]⟩, ?_⟩
    rintro j hj _ ⟨earlier, h, rfl⟩
    exact hfirst j hj earlier h

/-! ## All stages -/

/-- What the stages load, or the trouble of the first that fails. -/
def load (files : Files) (o : CheckOptions) : Except Trouble (Config × List String × Arguments) := do
  let config ← loadConfig files o
  let texts ← loadExpectations files o
  let a ← readValues o.values
  pure (config, texts, a)

theorem withLoaded_eq_load (validate : Config → Arguments → List String → Outcome) : withLoaded files o validate =
    match load files o with
    | .ok (config, texts, a) => validate config a texts
    | .error trouble => trouble.outcome := by
  unfold withLoaded load
  cases loadConfig files o <;> cases loadExpectations files o <;> cases readValues o.values <;> rfl

theorem withLoaded_of_load (h : load files o = .ok (config, texts, a))
    (validate : Config → Arguments → List String → Outcome) :
    withLoaded files o validate = validate config a texts := by
  rw [withLoaded_eq_load, h]

theorem withLoaded_of_load_error (h : load files o = .error trouble)
    (validate : Config → Arguments → List String → Outcome) : withLoaded files o validate = trouble.outcome := by
  rw [withLoaded_eq_load, h]

theorem check_of_report (h : load files o = .ok (config, texts, a)) (hreport : o.report = true) :
    check files o = reportOutcome (({ config } : Validator).check a texts) := by
  rw [check, withLoaded_of_load h, if_pos hreport]

theorem check_of_strict (h : load files o = .ok (config, texts, a)) (hplain : o.report = false) :
    check files o = strictOutcome (({ config } : Validator).expect a texts) := by
  rw [check, withLoaded_of_load h, if_neg (Bool.eq_false_iff.1 hplain)]

theorem load_eq_ok_iff : load files o = .ok (config, texts, a) ↔
    ∃ fields, Loads files o fields texts a ∧ o.override fields.complete = config := by
  have hload : load files o = .ok (config, texts, a) ↔
      loadConfig files o = .ok config ∧ loadExpectations files o = .ok texts ∧ readValues o.values = .ok a := by
    unfold load
    cases loadConfig files o <;> cases loadExpectations files o <;> cases readValues o.values <;>
      simp [bind, Except.bind, pure, Except.pure]
  rw [hload, loadConfig_eq_ok_iff, loadExpectations_eq_ok_iff, readValues_eq_ok_iff]
  constructor
  · rintro ⟨⟨fields, configured, hoverride⟩, expected, values⟩
    exact ⟨fields, ⟨configured, expected, values⟩, hoverride⟩
  · rintro ⟨fields, loads, hoverride⟩
    exact ⟨⟨fields, loads.configured, hoverride⟩, loads.expected, loads.values⟩

theorem Loads.load_eq (h : Loads files o fields texts a) : load files o = .ok (o.override fields.complete, texts, a) :=
  load_eq_ok_iff.2 ⟨fields, h, rfl⟩

/-- Either everything is there, or there is trouble. -/
theorem exists_loads (files : Files) (o : CheckOptions) :
    (∃ fields texts a, Loads files o fields texts a) ∨ ∃ trouble, load files o = .error trouble := by
  cases hload : load files o with
  | error trouble => exact .inr ⟨trouble, rfl⟩
  | ok loaded =>
    obtain ⟨config, texts, a⟩ := loaded
    obtain ⟨fields, loads, -⟩ := load_eq_ok_iff.1 hload
    exact .inl ⟨fields, texts, a, loads⟩

/-- The first stage that fails decides. -/
theorem load_eq_error_iff : load files o = .error trouble ↔ loadConfig files o = .error trouble ∨
    (∃ config, loadConfig files o = .ok config) ∧ (loadExpectations files o = .error trouble ∨
      (∃ texts, loadExpectations files o = .ok texts) ∧ readValues o.values = .error trouble) := by
  unfold load
  cases loadConfig files o <;> cases loadExpectations files o <;> cases readValues o.values <;>
    simp [bind, Except.bind, pure, Except.pure]

/-- No stage looks at the expectations among the options where another stage fails. -/
theorem load_error_of_expectations (h : load files o = .error trouble) (expectations : List String) :
    load files { o with expectations } = .error trouble := by
  have hload := load_eq_error_iff.1 h
  rw [load_eq_error_iff]
  cases hpath : o.signature <;> simpa [loadConfig, loadExpectations, hpath] using hload

end Stages

end CallContract.CommandLine
