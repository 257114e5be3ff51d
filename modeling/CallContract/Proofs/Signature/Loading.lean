import CallContract.Proofs.Expectation
import CallContract.Proofs.Signature.Document
import CallContract.Proofs.Yaml.Comment

/-!
# Loading a document

What comes of a document is settled by the first of three questions that it fails: whether it has the shape of a
signature, whether its name has more than blanks in it, and whether its expectations are well-formed, where the first
text that is not is blamed for its first segment that is no word. A document that fails none is loaded as what it
describes (`Signature.Loads`). This is all that loading a text that writes the document can give
(`ofText_eq_iff_loads`): what the shape lets pass can always be read. A file may fail before that, for its contents
cannot be read or are no text of the format (`FromFile`).
-/

namespace CallContract.Signature

/-- What comes of a document, by the first question that it fails. -/
inductive Loads (document : Json) : Except Error Signature → Prop where
  | misshapen (h : Misshapen document) : Loads document (.error (.shape (violations document)))
  | blankName {name : String} {description : Option String} {expects : List String}
      (describes : Describes document name description expects) (blank : ∀ c ∈ name.toList, Text.isBlank c = true) :
      Loads document (.error (.missingField "name"))
  | malformed {name : String} {description : Option String} {before after : List String} {text segment : String}
      (describes : Describes document name description (before ++ text :: after))
      (named : ∃ c ∈ name.toList, Text.isBlank c = false)
      (wellFormed : ∀ t ∈ before, Expectation.WellFormed t) (bad : Expectation.FirstBadSegment text segment) :
      Loads document (.error (.expectation (.malformed segment)))
  | signature {s : Signature} (describes : Describes document s.name s.description s.expects)
      (named : ∃ c ∈ s.name.toList, Text.isBlank c = false)
      (wellFormed : ∀ text ∈ s.expects, Expectation.WellFormed text)
      (compiled : Expectation.parseList s.expects = .ok s.compiled) : Loads document (.ok s)

variable {document : Json} {result : Except Error Signature}

/-- What is said to come of a document comes of it. -/
theorem Loads.ofDocument_eq (h : Loads document result) : ofDocument document = result := by
  cases h with
  | misshapen h => exact ofDocument_of_misshapen h
  | blankName describes blank =>
    rw [ofDocument_of_describes describes]
    exact compile_of_blank (List.all_eq_true.2 blank)
  | malformed describes named wellFormed bad =>
    rw [ofDocument_of_describes describes]
    exact compile_of_parse_error (Text.allBlank_eq_false_iff.2 named)
      (Expectation.parseList_of_firstBadSegment _ wellFormed bad)
  | signature describes named _ compiled =>
    rw [ofDocument_of_describes describes]
    exact Compiled.compile ⟨Text.allBlank_eq_false_iff.2 named, compiled⟩ []

/-- Something comes of every document. -/
theorem exists_loads (document : Json) : ∃ result, Loads document result := by
  by_cases hshape : violations document = []
  · obtain ⟨name, description, expects, describes⟩ := exists_describes hshape
    cases hname : Text.allBlank name with
    | true => exact ⟨_, .blankName describes (List.all_eq_true.1 hname)⟩
    | false =>
      have named := Text.allBlank_eq_false_iff.1 hname
      by_cases wellFormed : ∀ text ∈ expects, Expectation.WellFormed text
      · obtain ⟨compiled, hparse⟩ := Expectation.exists_parseList_eq_ok describes.expects_ne_nil wellFormed
        exact ⟨.ok { name, description, expects, compiled }, .signature describes named wellFormed hparse⟩
      · obtain ⟨before, text, after, rfl, hbefore, htext⟩ := Expectation.exists_append_of_not_wellFormed wellFormed
        obtain ⟨segment, bad⟩ := Expectation.exists_firstBadSegment htext
        exact ⟨_, .malformed describes named hbefore bad⟩
  · exact ⟨_, .misshapen (misshapen_of_violations hshape)⟩

/-- Loading a document gives what comes of it and nothing else. -/
theorem ofDocument_eq_iff : ofDocument document = result ↔ Loads document result := by
  refine ⟨?_, Loads.ofDocument_eq⟩
  rintro rfl
  obtain ⟨result, h⟩ := exists_loads document
  exact h.ofDocument_eq.symm ▸ h

/-! ## Texts -/

/-- The result is that of loading a JSON text or a YAML text that writes the document. -/
inductive OfText (document : Json) : Except Error Signature → Prop where
  | json {text : String} (h : Json.ofString? text = some document) : OfText document (ofJsonText text)
  | yaml {text : String} (h : Yaml.toJson? text = some document) : OfText document (ofYamlText text)

theorem OfText.eq_ofDocument (h : OfText document result) : result = ofDocument document := by
  cases h with
  | json h => rw [ofJsonText, h]
  | yaml h => rw [ofYamlText, h]

/-- **A text is loaded as its document says**: the result is the one that comes of the document. It is a violated shape
exactly where the document breaks the shape, and never an error of the text, of a missing list or of a file. -/
theorem ofText_eq_iff_loads (h : OfText document result) :
    (∀ r, result = r ↔ Loads document r) ∧ ((∃ vs, result = .error (.shape vs)) ↔ Misshapen document) ∧
      result ≠ .error .json ∧ result ≠ .error .yaml ∧ result ≠ .error (.expectation .missing) ∧
      ∀ reason, result ≠ .error (.unreadable reason) := by
  have hno {e : Error} (he : ¬Loads document (.error e)) : ofDocument document ≠ .error e :=
    fun heq => he (ofDocument_eq_iff.1 heq)
  rw [h.eq_ofDocument]
  refine ⟨fun _ => ofDocument_eq_iff, ⟨?_, fun hshape => ⟨_, ofDocument_of_misshapen hshape⟩⟩, hno nofun, hno nofun,
    hno nofun, fun _ => hno nofun⟩
  rintro ⟨vs, hvs⟩
  cases ofDocument_eq_iff.1 hvs with
  | misshapen hshape => exact hshape

/-- A JSON text with a name of blanks and a bad expectation fails for its name; a YAML text with two bad expectations
fails for the first bad segment of the first one. -/
theorem ofText_eq_iff_loads_two_faults :
    Json.ofString? "\x7b\"expects\":[\"int\"],\"name\":\" \u00a0\"\x7d" =
      some (.object [("expects", .strings ["int"]), ("name", .string " \u00a0")]) ∧
    ofJsonText "\x7b\"expects\":[\"int\"],\"name\":\" \u00a0\"\x7d" = .error (.missingField "name") ∧
    Yaml.toJson? "expects:\n- '*'\n- number|int|x\n- ''\nname: f\n" =
      some (.object [("expects", .strings ["*", "number|int|x", ""]), ("name", .string "f")]) ∧
    ofYamlText "expects:\n- '*'\n- number|int|x\n- ''\nname: f\n" = .error (.expectation (.malformed "int")) := by
  have hsorted (expects : List String) (name : String) :
      Json.ofMembers [("expects", .strings expects), ("name", .string name)] =
        .object [("expects", .strings expects), ("name", .string name)] := by
    rw [Json.ofMembers, Entries.ofList_of_sorted (List.pairwise_pair.2 (by decide : "expects" < "name"))]
  have hjson : Json.ofString? "\x7b\"expects\":[\"int\"],\"name\":\" \u00a0\"\x7d" =
      some (.object [("expects", .strings ["int"]), ("name", .string " \u00a0")]) :=
    hsorted ["int"] " \u00a0" ▸ rfl
  have hblank : Describes (.object [("expects", .strings ["int"]), ("name", .string " \u00a0")]) " \u00a0" none
      ["int"] :=
    .object rfl (by decide) rfl rfl (by decide) (by simp)
  have htokens : Yaml.Token.readAll? "expects:\n- '*'\n- number|int|x\n- ''\nname: f\n".toList = some
      [.blockMappingStart, .key, .scalar true "expects", .value, .blockEntry, .scalar false "*", .blockEntry,
        .scalar true "number|int|x", .blockEntry, .scalar false "", .key, .scalar true "name", .value,
        .scalar true "f", .blockEnd] := by decide +kernel
  have hyaml : Yaml.toJson? "expects:\n- '*'\n- number|int|x\n- ''\nname: f\n" =
      some (.object [("expects", .strings ["*", "number|int|x", ""]), ("name", .string "f")]) :=
    Yaml.toJson?_of_tokens htokens rfl (hsorted ["*", "number|int|x", ""] "f" ▸ rfl)
  have hmalformed : Describes (.object [("expects", .strings ["*", "number|int|x", ""]), ("name", .string "f")])
      "f" none (["*"] ++ "number|int|x" :: [""]) :=
    .object rfl (by decide) rfl rfl (by decide) (by simp)
  have hbad : Expectation.FirstBadSegment "number|int|x" "int" :=
    ⟨["number"], ["x"], rfl, by decide, by decide⟩
  exact ⟨hjson, ((ofText_eq_iff_loads (.json hjson)).1 _).2 (.blankName hblank (List.all_eq_true.1 rfl)), hyaml,
    ((ofText_eq_iff_loads (.yaml hyaml)).1 _).2 (.malformed hmalformed (Text.allBlank_eq_false_iff.1 rfl)
      (List.forall_mem_singleton.2 (by decide)) hbad)⟩

/-! ## Files -/

/-- What comes of the contents of a file that is read in a format: nothing can be read, the text is none of the
format, or it writes a document, and what comes of that. -/
inductive FromFile : Format → Except String String → Except Error Signature → Prop where
  | unreadable {format : Format} {reason : String} :
      FromFile format (.error reason) (.error (.unreadable reason))
  | noJson {text : String} (read : Json.ofString? text = none) : FromFile .json (.ok text) (.error .json)
  | noYaml {text : String} (read : Yaml.toJson? text = none) : FromFile .yaml (.ok text) (.error .yaml)
  | json {text : String} {document : Json} {result : Except Error Signature}
      (read : Json.ofString? text = some document) (loads : Loads document result) :
      FromFile .json (.ok text) result
  | yaml {text : String} {document : Json} {result : Except Error Signature}
      (read : Yaml.toJson? text = some document) (loads : Loads document result) :
      FromFile .yaml (.ok text) result

section Files

variable {format : Format} {contents : Except String String}

theorem FromFile.ofFile_eq (h : FromFile format contents result) : ofFile format contents = result := by
  cases h with
  | unreadable => rfl
  | noJson read => rw [ofFile, ofJsonText, read]
  | noYaml read => rw [ofFile, ofYamlText, read]
  | json read loads => exact (OfText.json read).eq_ofDocument.trans loads.ofDocument_eq
  | yaml read loads => exact (OfText.yaml read).eq_ofDocument.trans loads.ofDocument_eq

/-- Something comes of every file. -/
theorem exists_fromFile (format : Format) (contents : Except String String) :
    ∃ result, FromFile format contents result := by
  cases contents with
  | error reason => exact ⟨_, .unreadable⟩
  | ok text =>
    cases format with
    | json =>
      cases read : Json.ofString? text with
      | none => exact ⟨_, .noJson read⟩
      | some document =>
        obtain ⟨result, loads⟩ := exists_loads document
        exact ⟨result, .json read loads⟩
    | yaml =>
      cases read : Yaml.toJson? text with
      | none => exact ⟨_, .noYaml read⟩
      | some document =>
        obtain ⟨result, loads⟩ := exists_loads document
        exact ⟨result, .yaml read loads⟩

/-- Reading a file gives what comes of it and nothing else. -/
theorem ofFile_eq_iff : ofFile format contents = result ↔ FromFile format contents result := by
  refine ⟨?_, FromFile.ofFile_eq⟩
  rintro rfl
  obtain ⟨result, h⟩ := exists_fromFile format contents
  exact h.ofFile_eq.symm ▸ h

end Files

end CallContract.Signature
