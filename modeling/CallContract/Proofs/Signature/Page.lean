import CallContract.CommandLine
import CallContract.Proofs.Expectation.Grammar
import CallContract.Proofs.Signature.Document
import CallContract.Proofs.Yaml.Comment

/-!
# Printed signatures as signature files

What the command prints for a signature is a YAML document below a comment with the rendering.

- `Signature.ofYamlText_page`: for a name of one line the page is a signature file for the same signature where a text
  may hold the characters of the name, and no YAML otherwise;
- `CommandLine.signature_page`: printing such a file prints it again;
- `CommandLine.signature_page_of_line_break`: the rendering shows the name as it is, so a line break in it ends the
  comment early.
-/

namespace CallContract

/-! ## Renderings -/

namespace Expectation

theorem isCommentChar_of_mem_raw {e : Expectation} {c : Char} (h : c ∈ e.raw.toList) :
    Yaml.isCommentChar c = true :=
  e.forall_mem_raw rfl (fun tag => by cases tag <;> rfl) c h

theorem isCommentChar_of_mem_render {es : List Expectation} {c : Char} (h : c ∈ (render es).toList) :
    Yaml.isCommentChar c = true := by
  rw [render, String.toList_intercalate] at h
  rcases Traversal.mem_or_exists_of_mem_intercalate h with h | ⟨cs, hcs, hc⟩
  · exact List.all_eq_true.1 (show ", ".toList.all Yaml.isCommentChar = true from rfl) c h
  · simp only [List.map_map, List.mem_map] at hcs
    obtain ⟨e, -, rfl⟩ := hcs
    exact isCommentChar_of_mem_raw hc

end Expectation

namespace Signature

variable {s : Signature}

/-- A rendering is one line where the name is. -/
theorem isCommentChar_of_mem_render (hname : ∀ c ∈ s.name.toList, Yaml.isCommentChar c = true) :
    ∀ c ∈ s.render.toList, Yaml.isCommentChar c = true := by
  intro c hc
  simp only [render, String.toList_append, List.mem_append] at hc
  rcases hc with ((hc | hc) | hc) | hc
  · exact hname c hc
  · exact List.all_eq_true.1 (show "(".toList.all Yaml.isCommentChar = true from rfl) c hc
  · exact Expectation.isCommentChar_of_mem_render hc
  · exact List.all_eq_true.1 (show ")".toList.all Yaml.isCommentChar = true from rfl) c hc

/-! ## Pages -/

theorem page_eq (s : Signature) :
    s.page = String.ofList ('#' :: (' ' :: s.render.toList) ++ '\n' :: s.yamlChars) := by
  apply String.toList_injective
  simp [page, toYaml]

/-- The document starts with the key of the name, so with no byte order mark. -/
theorem head?_yamlChars (s : Signature) : s.yamlChars.head? = some 'n' := by
  have hentry (cs : List Char) : (Yaml.endLine ('n' :: cs)).head? = some 'n' := by
    rw [Yaml.endLine]
    split <;> rfl
  rw [yamlChars, List.append_assoc, List.head?_append, Yaml.stringEntry]
  exact congrArg (Option.or · _) (hentry _)

/-- Below its rendering the document of a signature reads as it does alone. -/
theorem toJson?_page (hname : ∀ c ∈ s.name.toList, Yaml.isCommentChar c = true) :
    Yaml.toJson? s.page = Yaml.toJson? s.toYaml := by
  rw [page_eq, toYaml]
  refine Yaml.toJson?_comment (List.forall_mem_cons.2 ⟨rfl, isCommentChar_of_mem_render hname⟩) ?_
  rw [head?_yamlChars]
  decide

theorem toJson?_page_of_not_admitted (h : s.name.toList.all Yaml.isAdmitted = false) :
    Yaml.toJson? s.page = none := by
  refine Yaml.toJson?_of_not_admitted ?_
  simp [page, render, List.all_append, h]

/-- The page of a compiled signature whose name is one line is loaded as the signature where the name can stand in a
text at all, and is no YAML otherwise. -/
theorem ofYamlText_page (h : s.Compiled) (oneLine : s.name.toList.any Yaml.isBreak = false)
    (roundTrip : Yaml.toJson? s.toYaml = some (.ofMembers s.members)) :
    ofYamlText s.page = if s.name.toList.all Yaml.isAdmitted then .ok s else .error .yaml := by
  by_cases hadmitted : s.name.toList.all Yaml.isAdmitted = true
  · have hname : ∀ c ∈ s.name.toList, Yaml.isCommentChar c = true := fun c hc => by
      rw [Yaml.isCommentChar, List.all_eq_true.1 hadmitted c hc,
        Bool.eq_false_iff.2 (List.any_eq_false.1 oneLine c hc)]
      rfl
    rw [ofYamlText, toJson?_page hname, roundTrip, if_pos hadmitted]
    exact ofDocument_members h
  · rw [ofYamlText, toJson?_page_of_not_admitted (Bool.eq_false_iff.2 hadmitted), if_neg hadmitted]

end Signature

/-! ## The command -/

namespace CommandLine

variable {files : Files} {path : String} {s : Signature}

theorem compiled_of_loadSignature (h : loadSignature files path = .ok s) : s.Compiled := by
  rw [loadSignature] at h
  cases hfile : Signature.ofFile (if Path.isJson path then .json else .yaml) (files path) with
  | error e => rw [hfile] at h; exact nomatch h
  | ok t =>
    rw [hfile] at h
    obtain rfl := Except.ok.inj h
    exact Signature.compiled_of_ofFile hfile

theorem loadSignature_of_yaml {text : String} (hpath : Path.isJson path = false) (hfile : files path = .ok text) :
    loadSignature files path = (Signature.ofYamlText text).mapError (.ofSignature path) := by
  rw [loadSignature, hpath, hfile]
  rfl

theorem loadSignature_of_json {text : String} (hs : s.Compiled) (hpath : Path.isJson path = true)
    (hfile : files path = .ok text) (hjson : Json.ofString? text = some (.ofMembers s.members)) :
    loadSignature files path = .ok s := by
  rw [loadSignature, hpath, hfile]
  simp only [if_true, Signature.ofFile, Signature.ofJsonText, hjson, Signature.ofDocument_members hs]
  rfl

theorem signature_of_loadSignature (h : loadSignature files path = .ok s) :
    signature files path = ⟨0, s.page, ""⟩ := by
  rw [signature, h]

/-- **A printed signature is a signature file** for a name of one line: what the command prints is loaded as the
signature it printed where the name can stand in a text at all, and printing the file prints it again. -/
theorem signature_page (loaded : loadSignature files path = .ok s)
    (oneLine : s.name.toList.any Yaml.isBreak = false)
    (roundTrip : Yaml.toJson? s.toYaml = some (.ofMembers s.members)) :
    Signature.ofYamlText (signature files path).stdout =
        (if s.name.toList.all Yaml.isAdmitted then .ok s else .error .yaml) ∧
      (s.name.toList.all Yaml.isAdmitted = true → ∀ (files' : Files) (path' : String), Path.isJson path' = false →
        files' path' = .ok (signature files path).stdout → signature files' path' = signature files path) := by
  have hprint := signature_of_loadSignature loaded
  have hpage := Signature.ofYamlText_page (compiled_of_loadSignature loaded) oneLine roundTrip
  rw [hprint]
  refine ⟨hpage, fun hadmitted files' path' hpath hfile => ?_⟩
  rw [if_pos hadmitted] at hpage
  refine signature_of_loadSignature ?_
  rw [loadSignature_of_yaml hpath hfile, hpage]
  rfl

/-- A name that needs quotes and a description of two lines. -/
theorem signature_page_quoted :
    loadSignature (fun _ => .ok "\x7b\"name\":\"n: é\",\"description\":\"a\\nb\",\"expects\":[\"*\"]\x7d") "s.json" =
      .ok ⟨"n: é", some "a\nb", ["*"], [⟨.any, []⟩]⟩ ∧
    Signature.ofYamlText "# n: é(*)\nname: 'n: é'\ndescription: |-\n  a\n  b\nexpects:\n- '*'\n" =
      .ok ⟨"n: é", some "a\nb", ["*"], [⟨.any, []⟩]⟩ ∧
    signature (fun _ => .ok "# n: é(*)\nname: 'n: é'\ndescription: |-\n  a\n  b\nexpects:\n- '*'\n") "s.yaml" =
      ⟨0, "# n: é(*)\nname: 'n: é'\ndescription: |-\n  a\n  b\nexpects:\n- '*'\n", ""⟩ := by
  have loaded : loadSignature
      (fun _ => .ok "\x7b\"name\":\"n: é\",\"description\":\"a\\nb\",\"expects\":[\"*\"]\x7d") "s.json" =
      .ok ⟨"n: é", some "a\nb", ["*"], [⟨.any, []⟩]⟩ :=
    loadSignature_of_json ⟨by decide, rfl⟩ rfl rfl rfl
  have htokens : Yaml.Token.readAll? "name: 'n: é'\ndescription: |-\n  a\n  b\nexpects:\n- '*'\n".toList = some
      [.blockMappingStart, .key, .scalar true "name", .value, .scalar false "n: é", .key, .scalar true "description",
        .value, .scalar false "a\nb", .key, .scalar true "expects", .value, .blockEntry, .scalar false "*",
        .blockEnd] := by decide +kernel
  have h := signature_page loaded rfl (Yaml.toJson?_of_tokens htokens rfl rfl)
  rw [signature_of_loadSignature loaded] at h
  exact ⟨loaded, h.1, h.2 rfl _ _ rfl rfl⟩

/-- A line break in the name ends the comment: what is left of the rendering is read as part of the document. -/
theorem signature_page_of_line_break :
    loadSignature (fun _ => .ok "\x7b\"name\":\"a\\nb\",\"expects\":[\"string\"]\x7d") "s.json" =
      .ok ⟨"a\nb", none, ["string"], [⟨.string, []⟩]⟩ ∧
    Yaml.toJson? (Signature.toYaml ⟨"a\nb", none, ["string"], [⟨.string, []⟩]⟩) =
      some (.ofMembers (Signature.members ⟨"a\nb", none, ["string"], [⟨.string, []⟩]⟩)) ∧
    signature (fun _ => .ok "\x7b\"name\":\"a\\nb\",\"expects\":[\"string\"]\x7d") "s.json" =
      ⟨0, "# a\nb(string)\nname: |-\n  a\n  b\nexpects:\n- string\n", ""⟩ ∧
    Signature.ofYamlText "# a\nb(string)\nname: |-\n  a\n  b\nexpects:\n- string\n" = .error .yaml := by
  have loaded : loadSignature (fun _ => .ok "\x7b\"name\":\"a\\nb\",\"expects\":[\"string\"]\x7d") "s.json" =
      .ok ⟨"a\nb", none, ["string"], [⟨.string, []⟩]⟩ :=
    loadSignature_of_json ⟨by decide, rfl⟩ rfl rfl rfl
  have htokens : Yaml.Token.readAll? "name: |-\n  a\n  b\nexpects:\n- string\n".toList = some
      [.blockMappingStart, .key, .scalar true "name", .value, .scalar false "a\nb", .key, .scalar true "expects",
        .value, .blockEntry, .scalar true "string", .blockEnd] := by decide +kernel
  have hpage : Yaml.Token.readAll? "# a\nb(string)\nname: |-\n  a\n  b\nexpects:\n- string\n".toList = none := by
    decide +kernel
  refine ⟨loaded, ?_, signature_of_loadSignature loaded, ?_⟩
  · exact Yaml.toJson?_of_tokens htokens rfl rfl
  · rw [Signature.ofYamlText, Yaml.toJson?, Yaml.ofString?, hpage]
    rfl

end CommandLine

end CallContract
