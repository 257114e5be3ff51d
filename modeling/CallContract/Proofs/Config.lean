import CallContract.Config.Reader
import Mathlib.Data.List.Basic

/-!
# What a configuration file says

A configuration file says which fields are given (`Says`): nothing, when there is no document or an empty one, and
otherwise what a mapping has under the known keys, each of them there once at most. `ofYamlFile_eq_ok_iff` says that a
file is loaded exactly when it says something, with the defaults for the fields that it does not give, and
`ofYamlFile_eq_error_iff` that it is refused exactly when it does not.
-/

namespace CallContract.Config

/-- The values that a mapping has under a key. -/
def valuesUnder (d : Yaml.Document) (pairs : List (Yaml.Node × Yaml.Node)) (key : String) : List Yaml.Node :=
  (pairs.filter fun pair => nodeText? d pair.1 == some key).map Prod.snd

/-- A mapping gives fields: its keys are texts, and it has one value under the key of a field that is given and none
under the key of another. -/
structure Gives (d : Yaml.Document) (pairs : List (Yaml.Node × Yaml.Node)) (fields : Fields) : Prop where
  keys : ∀ pair ∈ pairs, ∃ key, nodeText? d pair.1 = some key
  docsUrl : (valuesUnder d pairs "docs_url").map (nodeText? d) = fields.docsUrl.toList.map some
  indexing : (valuesUnder d pairs "indexing").map (nodeIndexing? d) = fields.indexing.toList.map some

/-- A document says which fields are given. -/
inductive DocumentSays (d : Yaml.Document) : Fields → Prop where
  | empty {tag : Option String} (root : d.follow d.root = some (.scalar tag true "")) : DocumentSays d {}
  | mapping {tag : Option String} {pairs : List (Yaml.Node × Yaml.Node)} {fields : Fields}
      (root : d.follow d.root = some (.mapping tag pairs)) (gives : Gives d pairs fields) : DocumentSays d fields

/-- A file with these contents says which fields are given. -/
inductive Says : Except String String → Fields → Prop where
  | nothing {text : String} (read : Yaml.ofString? text = some none) : Says (.ok text) {}
  | document {text : String} {d : Yaml.Document} {fields : Fields} (read : Yaml.ofString? text = some (some d))
      (content : DocumentSays d fields) : Says (.ok text) fields

/-- A file is refused: it cannot be read, or its text says nothing about the fields. -/
inductive Refuses : Except String String → Error → Prop where
  | unreadable {reason : String} : Refuses (.error reason) (.unreadable reason)
  | yaml {text : String} (silent : ∀ fields, ¬Says (.ok text) fields) : Refuses (.ok text) .yaml

/-! ## Fields -/

/-- Gives a field a value, which it may not have yet. -/
def put {α : Type} (field value? : Option α) : Option (Option α) :=
  if field.isSome then none else value?.map some

/-- Giving a field values succeeds only with one at most. -/
theorem foldlM_put_eq_some_iff {α : Type} {values : List (Option α)} {field result : Option α} :
    values.foldlM put field = some result ↔ field.toList.map some ++ values = result.toList.map some := by
  induction values generalizing field with
  | nil => cases field <;> cases result <;> simp
  | cons value? values ih =>
    rw [List.foldlM_cons]
    cases field with
    | some given => cases result <;> simp [put]
    | none =>
      cases value? with
      | none => cases result <;> simp [put]
      | some value =>
        have hvalues : values.foldlM put (some value) = some result ↔ _ := ih
        simpa [put] using hvalues

theorem Fields.add_eq (f : Fields) (key : String) (text? : Option String) (indexing? : Option Indexing) :
    f.add key text? indexing? =
      if key = "docs_url" then (put f.docsUrl text?).map fun docsUrl => { f with docsUrl }
      else if key = "indexing" then (put f.indexing indexing?).map fun indexing => { f with indexing }
      else some f := by
  unfold Fields.add put
  split
  · split <;> simp [Option.map_map, Function.comp_def]
  · split
    · split <;> simp [Option.map_map, Function.comp_def]
    · rfl

section Mappings

variable {d : Yaml.Document} {pairs : List (Yaml.Node × Yaml.Node)} {f g : Fields}

/-- One more pair of a mapping. -/
def addPair (d : Yaml.Document) (f : Fields) (pair : Yaml.Node × Yaml.Node) : Option Fields :=
  (nodeText? d pair.1).bind fun key => f.add key (nodeText? d pair.2) (nodeIndexing? d pair.2)

theorem valuesUnder_cons {pair : Yaml.Node × Yaml.Node} {key : String} (h : nodeText? d pair.1 = some key)
    (other : String) : valuesUnder d (pair :: pairs) other =
      if key = other then pair.2 :: valuesUnder d pairs other else valuesUnder d pairs other := by
  simp only [valuesUnder, List.filter_cons, h, beq_iff_eq, Option.some.injEq]
  split <;> rfl

/-- A mapping gives each field the values under its key. -/
theorem foldlM_addPair_eq_some_iff : pairs.foldlM (addPair d) f = some g ↔
    (∀ pair ∈ pairs, ∃ key, nodeText? d pair.1 = some key) ∧
      ((valuesUnder d pairs "docs_url").map (nodeText? d)).foldlM put f.docsUrl = some g.docsUrl ∧
      ((valuesUnder d pairs "indexing").map (nodeIndexing? d)).foldlM put f.indexing = some g.indexing := by
  induction pairs generalizing f with
  | nil =>
    cases f
    cases g
    simp [valuesUnder]
  | cons pair pairs ih =>
    rw [List.foldlM_cons, List.forall_mem_cons]
    cases hkey : nodeText? d pair.1 with
    | none => simp [addPair, hkey]
    | some key =>
      rw [addPair, hkey, Option.bind_some, Fields.add_eq, valuesUnder_cons hkey, valuesUnder_cons hkey]
      by_cases hdocsUrl : key = "docs_url"
      · subst hdocsUrl
        cases hput : put f.docsUrl (nodeText? d pair.2) <;> simp [ih, hput]
      by_cases hindexing : key = "indexing"
      · subst hindexing
        cases hput : put f.indexing (nodeIndexing? d pair.2) <;> simp [ih, hput]
      simp [ih, hdocsUrl, hindexing]

theorem gives_iff : pairs.foldlM (addPair d) {} = some g ↔ Gives d pairs g := by
  rw [foldlM_addPair_eq_some_iff, foldlM_put_eq_some_iff, foldlM_put_eq_some_iff]
  exact ⟨fun ⟨hkeys, hdocsUrl, hindexing⟩ => ⟨hkeys, hdocsUrl, hindexing⟩,
    fun h => ⟨h.keys, h.docsUrl, h.indexing⟩⟩

end Mappings

/-! ## Files -/

section Files

variable {config : Config}

theorem ofDocument?_eq_some_iff {d : Yaml.Document} :
    ofDocument? d = some config ↔ ∃ fields, DocumentSays d fields ∧ fields.complete = config := by
  unfold ofDocument?
  constructor
  · intro h
    split at h
    · rename_i tag hroot
      exact ⟨{}, .empty hroot, Option.some.inj h⟩
    · rename_i tag pairs hroot
      obtain ⟨fields, hfields, hcomplete⟩ := Option.map_eq_some_iff.1 h
      exact ⟨fields, .mapping hroot (gives_iff.1 hfields), hcomplete⟩
    · exact nomatch h
  · rintro ⟨fields, hsays, rfl⟩
    cases hsays with
    | empty root =>
      rw [root]
      rfl
    | mapping root gives =>
      rw [root]
      exact congrArg (Option.map Fields.complete) (gives_iff.2 gives)

/-- **A configuration file is loaded exactly when it says something**, and then with the defaults for what it does not
give. -/
theorem ofYamlFile_eq_ok_iff {contents : Except String String} :
    ofYamlFile contents = .ok config ↔ ∃ fields, Says contents fields ∧ fields.complete = config := by
  constructor
  · intro h
    cases contents with
    | error reason => exact nomatch h
    | ok text =>
      simp only [ofYamlFile, ofYamlText] at h
      split at h
      · rename_i hread
        exact ⟨{}, .nothing hread, Except.ok.inj h⟩
      · rename_i d hread
        split at h
        · rename_i config' hdocument
          obtain ⟨fields, hsays, hcomplete⟩ := ofDocument?_eq_some_iff.1 hdocument
          exact ⟨fields, .document hread hsays, hcomplete.trans (Except.ok.inj h)⟩
        · exact nomatch h
      · exact nomatch h
  · rintro ⟨fields, hsays, hcomplete⟩
    cases hsays with
    | nothing read =>
      rw [← hcomplete, ofYamlFile, ofYamlText, read]
      rfl
    | document read content =>
      simp only [ofYamlFile, ofYamlText, read, ofDocument?_eq_some_iff.2 ⟨fields, content, hcomplete⟩]

/-- A text is loaded, or it is no configuration in YAML. -/
theorem ofYamlFile_ok_cases (text : String) :
    (∃ config, ofYamlFile (.ok text) = .ok config) ∨ ofYamlFile (.ok text) = .error .yaml := by
  simp only [ofYamlFile, ofYamlText]
  split
  · exact .inl ⟨_, rfl⟩
  · split
    · exact .inl ⟨_, rfl⟩
    · exact .inr rfl
  · exact .inr rfl

/-- A file that says nothing about the fields is refused, and no other is. -/
theorem ofYamlFile_eq_error_iff {contents : Except String String} {e : Error} :
    ofYamlFile contents = .error e ↔ Refuses contents e := by
  constructor
  · intro h
    cases contents with
    | error reason =>
      obtain rfl := Except.error.inj h
      exact .unreadable
    | ok text =>
      have hsilent : ∀ fields, ¬Says (.ok text) fields := by
        intro fields hsays
        exact nomatch h.symm.trans (ofYamlFile_eq_ok_iff.2 ⟨fields, hsays, rfl⟩)
      rcases ofYamlFile_ok_cases text with ⟨config, hconfig⟩ | hyaml
      · exact nomatch hconfig.symm.trans h
      · obtain rfl := Except.error.inj (hyaml.symm.trans h)
        exact .yaml hsilent
  · intro h
    cases h with
    | unreadable => rfl
    | @yaml text silent =>
      rcases ofYamlFile_ok_cases text with ⟨config, hconfig⟩ | hyaml
      · obtain ⟨fields, hsays, -⟩ := ofYamlFile_eq_ok_iff.1 hconfig
        exact absurd hsays (silent fields)
      · exact hyaml

end Files

end CallContract.Config
