import CallContract.Proofs.CommandLine.Stages

/-!
# The order of loading

A check loads its configuration, then its signature, then its values, and validates only when all of them are there.
`Ends` says how that ends: each way to stop assumes of the stages in front of it that they load, and nothing of those
behind it. Loading has exactly one ending (`ends_iff`), which settles what is written or what reaches the validation
(`check_loads_in_order`).
-/

namespace CallContract.CommandLine

/-- What loading comes to: a message, or what is validated. -/
inductive Ending where
  | stops (message : String)
  | loads (config : Config) (texts : List String) (a : Arguments)

/-- How loading ends. -/
inductive Ends (files : Files) (o : CheckOptions) : Ending → Prop where
  | config {path : String} {e : Config.Error} (named : o.config = some path)
      (fails : Config.Refuses (files path) e) :
      Ends files o (.stops ("failed to load config " ++ path ++ ": " ++ e.message))
  | signature {fields : Config.Fields} {path : String} {format : Signature.Format} {e : Signature.Error}
      (configured : Configured files o fields) (named : o.signature = some path) (reads : ReadsAs path format)
      (fails : Signature.FromFile format (files path) (.error e)) :
      Ends files o (.stops ("failed to load signature " ++ path ++ ": " ++ e.message))
  | value {fields : Config.Fields} {texts : List String} {index : Nat} {text : String}
      (configured : Configured files o fields) (expected : Expected files o texts)
      (given : o.values[index]? = some text) (malformed : IsMalformed text)
      (first : ∀ i < index, ∀ earlier, o.values[i]? = some earlier → ¬IsMalformed earlier) :
      Ends files o (.stops ("value " ++ toString (index + 1) ++ " is not a JSON literal: " ++ text))
  | loaded {fields : Config.Fields} {config : Config} {a : Arguments} {texts : List String}
      (configured : Configured files o fields) (expected : Expected files o texts)
      (values : List.Forall₂ Writes o.values a.toList)
      (docsUrl : config.docsUrl = (o.docsUrl.or fields.docsUrl).getD "https://docs.rs/argcheck-core")
      (indexing : config.indexing = .legacy ↔ o.legacyIndexing = true ∨ fields.indexing = some .legacy) :
      Ends files o (.loads config texts a)

/-! ## Endings -/

/-- How the line of an error starts: the two outermost causes. -/
def Trouble.headline (t : Trouble) : String :=
  ": ".intercalate (t.causes.take 2)

section Endings

variable {files : Files} {o : CheckOptions} {ending : Ending} {trouble : Trouble}

/-- A joined list starts with its joined prefixes. -/
theorem exists_intercalate_append (separator : String) (xs ys : List String) :
    ∃ rest, separator.intercalate (xs ++ ys) = separator.intercalate xs ++ rest := by
  by_cases hxs : xs = []
  · exact ⟨separator.intercalate ys, by simp [hxs]⟩
  by_cases hys : ys = []
  · exact ⟨"", by simp [hys]⟩
  · exact ⟨_, (String.intercalate_append_of_ne_nil hxs hys).trans String.append_assoc⟩

theorem exists_outcome_eq (trouble : Trouble) :
    ∃ rest, trouble.outcome = ⟨2, "", "error: " ++ trouble.headline ++ rest⟩ := by
  obtain ⟨rest, hrest⟩ := exists_intercalate_append ": " (trouble.causes.take 2) (trouble.causes.drop 2)
  refine ⟨rest ++ if trouble.isOpen then "" else "\n", ?_⟩
  rw [List.take_append_drop] at hrest
  rw [Trouble.outcome, hrest, Trouble.headline]
  simp only [String.append_assoc]

@[simp] theorem headline_ofConfig (path : String) (e : Config.Error) :
    (Trouble.ofConfig path e).headline = "failed to load config " ++ path ++ ": " ++ e.message := by
  cases e <;> rfl

@[simp] theorem headline_ofSignature (path : String) (e : Signature.Error) :
    (Trouble.ofSignature path e).headline = "failed to load signature " ++ path ++ ": " ++ e.message := by
  cases e <;> rfl

@[simp] theorem headline_ofValue (index : Nat) (text : String) : (Trouble.ofValue index text).headline =
    "value " ++ toString (index + 1) ++ " is not a JSON literal: " ++ text := by
  have hcolon : " is not a JSON literal" ++ ": " = " is not a JSON literal: " := by decide
  calc
    "value " ++ toString (index + 1) ++ " is not a JSON literal" ++ ": " ++ text =
        "value " ++ toString (index + 1) ++ (" is not a JSON literal" ++ ": ") ++ text := by
      simp only [String.append_assoc]
    _ = "value " ++ toString (index + 1) ++ " is not a JSON literal: " ++ text := by rw [hcolon]

/-- What loading comes to. -/
def Ending.ofLoad : Except Trouble (Config × List String × Arguments) → Ending
  | .error trouble => .stops trouble.headline
  | .ok (config, texts, a) => .loads config texts a

theorem Ends.ofLoad_eq (h : Ends files o ending) : .ofLoad (load files o) = ending := by
  cases h with
  | @config path e named fails =>
    have hload := load_eq_error_iff.2 (.inl (loadConfig_eq_error_iff.2 ⟨path, e, named, fails, rfl⟩))
    rw [hload, Ending.ofLoad, headline_ofConfig]
  | @signature fields path format e configured named reads fails =>
    have hconfig := loadConfig_eq_ok_iff.2 ⟨fields, configured, rfl⟩
    have hsignature := loadSignature_eq_error_iff.2 ⟨format, e, reads, fails, rfl⟩
    have hload := load_eq_error_iff.2
      (.inr ⟨⟨_, hconfig⟩, .inl (loadExpectations_eq_error_iff.2 ⟨path, named, hsignature⟩)⟩)
    rw [hload, Ending.ofLoad, headline_ofSignature]
  | @value fields texts index text configured expected given malformed first =>
    have hconfig := loadConfig_eq_ok_iff.2 ⟨fields, configured, rfl⟩
    have htexts := loadExpectations_eq_ok_iff.2 expected
    have hvalues := readValues_eq_error_iff.2 ⟨index, text, given, malformed, first, rfl⟩
    have hload := load_eq_error_iff.2 (.inr ⟨⟨_, hconfig⟩, .inr ⟨⟨texts, htexts⟩, hvalues⟩⟩)
    rw [hload, Ending.ofLoad, headline_ofValue]
  | @loaded fields config a texts configured expected values docsUrl indexing =>
    have hconfig := override_complete_eq_iff.2 ⟨docsUrl, indexing⟩
    rw [load_eq_ok_iff.2 ⟨fields, ⟨configured, expected, values⟩, hconfig⟩, Ending.ofLoad]

theorem ends_ofLoad (files : Files) (o : CheckOptions) : Ends files o (.ofLoad (load files o)) := by
  cases hload : load files o with
  | ok loaded =>
    obtain ⟨config, texts, a⟩ := loaded
    obtain ⟨fields, loads, hoverride⟩ := load_eq_ok_iff.1 hload
    obtain ⟨hdocsUrl, hindexing⟩ := override_complete_eq_iff.1 hoverride
    exact .loaded loads.configured loads.expected loads.values hdocsUrl hindexing
  | error trouble =>
    rcases load_eq_error_iff.1 hload with hconfig | ⟨⟨config, hconfig⟩, hsignature | ⟨⟨texts, htexts⟩, hvalues⟩⟩
    · obtain ⟨path, e, named, fails, rfl⟩ := loadConfig_eq_error_iff.1 hconfig
      rw [Ending.ofLoad, headline_ofConfig]
      exact .config named fails
    · obtain ⟨fields, configured, -⟩ := loadConfig_eq_ok_iff.1 hconfig
      obtain ⟨path, named, hpath⟩ := loadExpectations_eq_error_iff.1 hsignature
      obtain ⟨format, e, reads, fails, rfl⟩ := loadSignature_eq_error_iff.1 hpath
      rw [Ending.ofLoad, headline_ofSignature]
      exact .signature configured named reads fails
    · obtain ⟨fields, configured, -⟩ := loadConfig_eq_ok_iff.1 hconfig
      obtain ⟨index, text, given, malformed, first, rfl⟩ := readValues_eq_error_iff.1 hvalues
      rw [Ending.ofLoad, headline_ofValue]
      exact .value configured (loadExpectations_eq_ok_iff.1 htexts) given malformed first

/-- Loading ends in one way. -/
theorem ends_iff : Ends files o ending ↔ .ofLoad (load files o) = ending :=
  ⟨Ends.ofLoad_eq, fun h => h ▸ ends_ofLoad files o⟩

/-- Nothing is validated: whatever a validation would be, and whatever expectations the options give, the outcome is
that of the message. -/
def Stops (files : Files) (o : CheckOptions) (message : String) : Prop :=
  ∃ rest, (∀ validate, withLoaded files o validate = ⟨2, "", "error: " ++ message ++ rest⟩) ∧
    ∀ expectations, check files { o with expectations } = ⟨2, "", "error: " ++ message ++ rest⟩

/-- What is loaded is validated. -/
structure HandsOn (files : Files) (o : CheckOptions) (config : Config) (texts : List String) (a : Arguments) :
    Prop where
  validates : ∀ validate, withLoaded files o validate = validate config a texts
  reported : o.report = true → check files o = reportOutcome (({ config } : Validator).check a texts)
  strict : o.report = false → check files o = strictOutcome (({ config } : Validator).expect a texts)

/-- A check ends in one way, and does what that way says. -/
structure LoadsInOrder (files : Files) (o : CheckOptions) : Prop where
  ends : ∃! ending, Ends files o ending
  stops : ∀ message, Ends files o (.stops message) → Stops files o message
  loads : ∀ config texts a, Ends files o (.loads config texts a) → HandsOn files o config texts a

theorem stops_of_load (h : load files o = .error trouble) : Stops files o trouble.headline := by
  obtain ⟨rest, hrest⟩ := exists_outcome_eq trouble
  refine ⟨rest, fun validate => ?_, fun expectations => ?_⟩
  · rw [withLoaded_of_load_error h, hrest]
  · rw [check, withLoaded_of_load_error (load_error_of_expectations h expectations), hrest]

theorem handsOn_of_load {config : Config} {texts : List String} {a : Arguments}
    (h : load files o = .ok (config, texts, a)) : HandsOn files o config texts a where
  validates := withLoaded_of_load h
  reported := check_of_report h
  strict := check_of_strict h

/-- **Loading is in order**: the first stage that fails ends a check with its message and nothing is validated; when
none fails, what the stages load is validated. -/
theorem check_loads_in_order (files : Files) (o : CheckOptions) : LoadsInOrder files o where
  ends := by
    simp only [ends_iff]
    exact existsUnique_eq'
  stops message h := by
    have hload := ends_iff.1 h
    cases hresult : load files o with
    | error trouble =>
      rw [hresult] at hload
      obtain rfl := Ending.stops.inj hload
      exact stops_of_load hresult
    | ok loaded =>
      rw [hresult] at hload
      exact nomatch hload
  loads config texts a h := by
    have hload := ends_iff.1 h
    cases hresult : load files o with
    | error trouble =>
      rw [hresult] at hload
      exact nomatch hload
    | ok loaded =>
      rw [hresult] at hload
      obtain ⟨rfl, rfl, rfl⟩ := Ending.loads.inj hload
      exact handsOn_of_load hresult

end Endings

end CallContract.CommandLine
