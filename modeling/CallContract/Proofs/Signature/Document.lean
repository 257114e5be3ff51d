import CallContract.Proofs.Entries
import CallContract.Proofs.Json.RoundTrip
import CallContract.Proofs.Signature.Shape

/-!
# Signatures and their documents

A signature that was loaded is compiled, whatever way it came: its name is not blank, and its parsed expectations are
those of its texts (`Signature.Loaded.compiled`). The document of a compiled signature has the shape of a signature
and says what the signature says (`Signature.Compiled.describes`), so loading it gives the signature
(`Signature.ofDocument_members`), and so does loading the text that writes it (`Signature.ofJsonText_compact`).
-/

namespace CallContract

theorem Text.allBlank_eq_false_iff {s : String} : allBlank s = false ↔ ∃ c ∈ s.toList, isBlank c = false := by
  simp [allBlank]

namespace Signature

variable {s t : Signature}

/-! ## Compiled signatures -/

/-- The name is not blank, and the parsed expectations are those of the texts. -/
structure Compiled (s : Signature) : Prop where
  name : Text.allBlank s.name = false
  expects : Expectation.parseList s.expects = .ok s.compiled

theorem compile_eq_ok (h : s.compile = .ok t) : t.Compiled ∧ t = { s with compiled := t.compiled } := by
  rw [compile] at h
  split at h
  · exact nomatch h
  · rename_i hname
    split at h
    · rename_i compiled hparse
      obtain rfl := Except.ok.inj h
      exact ⟨⟨Bool.eq_false_iff.2 hname, hparse⟩, rfl⟩
    · exact nomatch h

/-- Compiling again, whatever stands for the parsed expectations, gives the signature. -/
theorem Compiled.compile (h : s.Compiled) (compiled : List Expectation) :
    Signature.compile { s with compiled } = .ok s := by
  rw [Signature.compile, if_neg (Bool.eq_false_iff.1 h.name)]
  simp only [h.expects]

theorem Compiled.name_ne_empty (h : s.Compiled) : s.name ≠ "" := by
  intro hempty
  have hname := h.name
  rw [hempty] at hname
  exact nomatch hname

theorem Compiled.expects_ne_nil (h : s.Compiled) : s.expects ≠ [] := by
  intro hnil
  have hparse := h.expects
  rw [hnil] at hparse
  exact nomatch hparse

/-- A blank name is refused before the expectations are looked at. -/
theorem compile_of_blank (h : Text.allBlank s.name = true) : s.compile = .error (.missingField "name") := by
  rw [compile, if_pos h]

theorem compile_of_parse_error {e : Expectation.Error} (hname : Text.allBlank s.name = false)
    (h : Expectation.parseList s.expects = .error e) : s.compile = .error (.expectation e) := by
  rw [compile, if_neg (Bool.eq_false_iff.1 hname)]
  simp only [h]

/-! ## Loading -/

theorem compiled_of_ofDocument {document : Json} (h : ofDocument document = .ok s) : s.Compiled := by
  by_cases hshape : violations document = []
  · obtain ⟨name, description, expects, describes⟩ := exists_describes hshape
    rw [ofDocument_of_describes describes] at h
    exact (compile_eq_ok h).1
  · rw [ofDocument_of_misshapen (misshapen_of_violations hshape)] at h
    exact nomatch h

theorem compiled_of_ofJsonText {text : String} (h : ofJsonText text = .ok s) : s.Compiled := by
  rw [ofJsonText] at h
  split at h
  · exact compiled_of_ofDocument h
  · exact nomatch h

theorem compiled_of_ofYamlText {text : String} (h : ofYamlText text = .ok s) : s.Compiled := by
  rw [ofYamlText] at h
  split at h
  · exact compiled_of_ofDocument h
  · exact nomatch h

theorem compiled_of_ofFile {format : Format} {contents : Except String String} (h : ofFile format contents = .ok s) :
    s.Compiled := by
  unfold ofFile at h
  split at h
  · exact nomatch h
  · split at h
    · exact compiled_of_ofJsonText h
    · exact compiled_of_ofYamlText h

/-- The signature is what one of the ways to a signature gave. -/
inductive Loaded (s : Signature) : Prop where
  | texts {name : String} {expects : List String} (h : ofTexts name expects = .ok s)
  | shorthand {name shorthand : String} (h : ofShorthand name shorthand = .ok s)
  | json {text : String} (h : ofJsonText text = .ok s)
  | yaml {text : String} (h : ofYamlText text = .ok s)
  | file {format : Format} {contents : Except String String} (h : ofFile format contents = .ok s)

/-- **A loaded signature is compiled**, whatever way it comes. -/
theorem Loaded.compiled (h : s.Loaded) : s.Compiled := by
  cases h with
  | texts h => exact (compile_eq_ok h).1
  | shorthand h => exact (compile_eq_ok h).1
  | json h => exact compiled_of_ofJsonText h
  | yaml h => exact compiled_of_ofYamlText h
  | file h => exact compiled_of_ofFile h

/-! ## Documents -/

theorem keys_members_sublist (s : Signature) :
    (s.members.map (·.1)).Sublist ["name", "description", "expects"] := by
  rw [members]
  cases s.description with
  | none => exact show ["name", "expects"].Sublist ["name", "description", "expects"] by decide
  | some d => exact List.Sublist.refl _

theorem nodup_members (s : Signature) : (s.members.map (·.1)).Nodup :=
  s.keys_members_sublist.nodup (by decide)

/-- The document of a compiled signature has the shape of a signature and says what the signature says. -/
theorem Compiled.describes (h : s.Compiled) : Describes (.ofMembers s.members) s.name s.description s.expects := by
  have hfind := Entries.find?_ofList s.nodup_members
  refine .object ?_ h.name_ne_empty ?_ ?_ h.expects_ne_nil fun m hm => ?_
  · rw [hfind, members]
    rfl
  · rw [hfind, members]
    cases s.description <;> rfl
  · rw [hfind, members]
    cases s.description <;> rfl
  · exact s.keys_members_sublist.subset (List.mem_map_of_mem ((Entries.ofList_perm s.nodup_members).mem_iff.1 hm))

/-- **The document of a compiled signature is loaded as the signature.** -/
theorem ofDocument_members (h : s.Compiled) : ofDocument (.ofMembers s.members) = .ok s := by
  rw [ofDocument_of_describes h.describes]
  exact h.compile []

/-! ## Texts of documents -/

theorem readable_of_mem_members {m : String × Json} (h : m ∈ s.members) :
    Json.Readable (Json.maxDepth - 1) m.2 := by
  simp only [members, List.mem_append, List.mem_singleton, Option.mem_toList, Option.map_eq_some_iff] at h
  rcases h with (rfl | ⟨d, -, rfl⟩) | rfl
  · exact .string s.name
  · exact .string d
  · exact .strings _ s.expects

/-- The text of a signature writes its document, whatever the characters of the name and the description. -/
theorem ofString?_toJson_compact (s : Signature) : Json.ofString? s.toJson.compact = some (.ofMembers s.members) :=
  Json.ofString?_compact_object fun _ => readable_of_mem_members

/-- **A signature is read from the text it writes**: the text of a loaded signature has the shape of a signature,
without a description where there is none, and loading it gives the signature, which writes the same text again. -/
theorem ofJsonText_compact (h : s.Loaded) :
    (∃ document, Json.ofString? s.toJson.compact = some document ∧
        Describes document s.name s.description s.expects) ∧
      ofJsonText s.toJson.compact = .ok s ∧
      (ofJsonText s.toJson.compact).map (fun t => t.toJson.compact) = .ok s.toJson.compact := by
  have hread : ofJsonText s.toJson.compact = .ok s := by
    rw [ofJsonText, ofString?_toJson_compact]
    exact ofDocument_members h.compiled
  refine ⟨⟨_, s.ofString?_toJson_compact, h.compiled.describes⟩, hread, ?_⟩
  rw [hread]
  rfl

/-- A name of characters that JSON escapes, and no description. -/
theorem ofJsonText_compact_escaped :
    ofTexts "a\"\u0007é\\" ["number|*"] = .ok ⟨"a\"\u0007é\\", none, ["number|*"], [⟨.number, [.any]⟩]⟩ ∧
    ofJsonText "\x7b\"name\":\"a\\\"\\u0007é\\\\\",\"expects\":[\"number|*\"]\x7d" =
      .ok ⟨"a\"\u0007é\\", none, ["number|*"], [⟨.number, [.any]⟩]⟩ := by
  have hloaded : ofTexts "a\"\u0007é\\" ["number|*"] =
      .ok ⟨"a\"\u0007é\\", none, ["number|*"], [⟨.number, [.any]⟩]⟩ := rfl
  have htext : (toJson ⟨"a\"\u0007é\\", none, ["number|*"], [⟨.number, [.any]⟩]⟩).compact =
      "\x7b\"name\":\"a\\\"\\u0007é\\\\\",\"expects\":[\"number|*\"]\x7d" := by
    simp only [toJson, members, Option.map_none, Option.toList_none, List.append_nil, List.cons_append, List.nil_append,
      Json.strings, Json.compact, Json.compactChars, List.map_cons, List.map_nil]
    rfl
  have hread := (ofJsonText_compact (.texts hloaded)).2.1
  rw [htext] at hread
  exact ⟨hloaded, hread⟩

end Signature

end CallContract
