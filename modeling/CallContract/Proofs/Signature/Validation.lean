import CallContract.Proofs.Phases
import CallContract.Proofs.Signature.Document

/-!
# Validating against a signature

A loaded signature holds its expectations twice, as texts and parsed. The operations that take the parsed ones and
the operations that parse the texts again agree (`Validator.AgreesWithTexts`), whatever the validator and the
arguments. A signature of which the fields alone were read has no parsed expectations, and no arguments pass it
(`Validator.exists_error_of_not_compiled`).
-/

namespace CallContract

/-! ## Parsed expectations of a signature -/

namespace Signature

variable {s : Signature}

theorem Compiled.arity_eq (h : s.Compiled) : s.arity = s.expects.length := by
  rw [← Expectation.map_raw_of_parseList h.expects, List.length_map, arity]

theorem compiled_of_complete? {f : Fields} (h : f.complete? = some s) : s.compiled = [] := by
  simp only [Fields.complete?, Option.bind_eq_bind, Option.bind_eq_some_iff, Option.some.injEq] at h
  obtain ⟨_, -, _, -, rfl⟩ := h
  rfl

theorem compiled_of_ofRaw? {raw : Json.Raw} (h : ofRaw? raw = some s) : s.compiled = [] := by
  unfold ofRaw? at h
  split at h
  · obtain ⟨f, -, hf⟩ := Option.bind_eq_some_iff.1 h
    exact compiled_of_complete? hf
  · simp only [Option.bind_eq_bind, Option.bind_eq_some_iff, Option.some.injEq] at h
    obtain ⟨_, -, _, -, _, -, rfl⟩ := h
    rfl
  · exact nomatch h

/-- Reading the fields alone parses nothing. -/
theorem compiled_of_ofRawText {text : String} (h : ofRawText text = .ok s) : s.compiled = [] := by
  unfold ofRawText at h
  split at h
  · rename_i t ht
    obtain rfl := Except.ok.inj h
    obtain ⟨raw, -, hraw⟩ := Option.bind_eq_some_iff.1 ht
    exact compiled_of_ofRaw? hraw
  · exact nomatch h

end Signature

namespace Validator

variable {v : Validator} {mode : Mode} {a : Arguments} {es : List Expectation} {s : Signature}

/-! ## Faults behind the expectations -/

/-- Parsed expectations are never found to be at fault. -/
theorem category_ne_of_reportOn {fault : Fault} (h : v.reportOn mode a es = .error fault) :
    fault.category ≠ .invalidExpectations := by
  intro hcategory
  have hraises := v.raises_of_reportOn h
  rw [hcategory] at hraises
  exact nomatch hraises

theorem kind_ne_of_checkSignature {e : Exception} (h : v.checkSignature a s = .error e) :
    e.kind ≠ .invalidExpectations := by
  cases hreport : v.reportOn .reporting a s.compiled with
  | ok r => simp [v.checkSignature_of_ok hreport] at h
  | error fault =>
    rw [v.checkSignature_of_error hreport] at h
    rw [← Except.error.inj h, Fault.kind_raise]
    exact category_ne_of_reportOn hreport

theorem kind_ne_of_expectSignature {e : Exception} (h : v.expectSignature a s = .error e) :
    e.kind ≠ .invalidExpectations := by
  cases hreport : v.reportOn .strict a s.compiled with
  | ok r => simp [v.expectSignature_of_ok hreport] at h
  | error fault =>
    rw [v.expectSignature_of_error hreport] at h
    rw [← Except.error.inj h, Fault.kind_raise]
    exact category_ne_of_reportOn hreport

/-! ## Loaded signatures -/

/-- A validation against a signature is the validation against its texts. -/
structure AgreesWithTexts (v : Validator) (a : Arguments) (s : Signature) : Prop where
  named : ∃ c ∈ s.name.toList, Text.isBlank c = false
  expects_ne_nil : s.expects ≠ []
  parseList_eq : Expectation.parseList s.expects = .ok s.compiled
  arity_eq : s.arity = s.expects.length
  map_raw : s.compiled.map Expectation.raw = s.expects
  expect_eq : v.expectSignature a s = v.expect a s.expects
  check_eq : v.checkSignature a s = v.check a s.expects
  expect_kind_ne : ∀ e, v.expectSignature a s = .error e → e.kind ≠ .invalidExpectations
  check_kind_ne : ∀ e, v.checkSignature a s = .error e → e.kind ≠ .invalidExpectations

theorem agreesWithTexts_of_compiled (v : Validator) (a : Arguments) (h : s.Compiled) : v.AgreesWithTexts a s where
  named := Text.allBlank_eq_false_iff.1 h.name
  expects_ne_nil := h.expects_ne_nil
  parseList_eq := h.expects
  arity_eq := h.arity_eq
  map_raw := Expectation.map_raw_of_parseList h.expects
  expect_eq := by rw [expectSignature, expect, v.validate_of_parse h.expects]
  check_eq := by rw [checkSignature, check, v.validate_of_parse h.expects]
  expect_kind_ne _ := kind_ne_of_expectSignature
  check_kind_ne _ := kind_ne_of_checkSignature

/-! ## Signatures that were never compiled -/

/-- Without parsed expectations every call is one without arguments or one of the wrong number of arguments. -/
theorem exists_error_of_not_compiled (v : Validator) (a : Arguments) (h : s.compiled = []) :
    ∃ e : Exception, v.expectSignature a s = .error e ∧ v.checkSignature a s = .error e ∧
      e.kind = if a.size = 0 then .noArguments else .arityMismatch := by
  rcases Nat.eq_zero_or_pos a.size with hzero | hpos
  · have hfault : ∀ mode, v.reportOn mode a s.compiled = .error (.noArguments s.compiled) :=
      fun _ => v.reportOn_of_size_eq_zero hzero
    exact ⟨_, v.expectSignature_of_error (hfault .strict), v.checkSignature_of_error (hfault .reporting),
      by rw [Fault.kind_raise, if_pos hzero]; rfl⟩
  · have hlength : s.compiled.length ≠ a.size := by
      rw [h]
      exact Nat.ne_of_lt hpos
    have hfault : ∀ mode, v.reportOn mode a s.compiled = .error .arity := fun _ => v.reportOn_of_ne hpos hlength
    exact ⟨_, v.expectSignature_of_error (hfault .strict), v.checkSignature_of_error (hfault .reporting),
      by rw [Fault.kind_raise, if_neg (Nat.ne_of_gt hpos)]; rfl⟩

/-- **A loaded signature validates like its texts**, for every validator and all arguments, and its expectations are
never at fault. A signature of which the fields alone were read, or which has no parsed expectations for whatever
reason, passes no arguments. -/
theorem signatures_validate_like_texts (v : Validator) (a : Arguments) :
    (∀ s : Signature, s.Loaded → v.AgreesWithTexts a s) ∧
      (∀ (text : String) (s : Signature), Signature.ofRawText text = .ok s → s.compiled = []) ∧
      ∀ s : Signature, s.compiled = [] → ∃ e : Exception, v.expectSignature a s = .error e ∧
        v.checkSignature a s = .error e ∧ e.kind = if a.size = 0 then .noArguments else .arityMismatch :=
  ⟨fun _ h => v.agreesWithTexts_of_compiled a h.compiled, fun _ _ => Signature.compiled_of_ofRawText,
    fun _ => v.exists_error_of_not_compiled a⟩

/-- A signature from a shorthand and a call with a mismatch; fields with three faults that loading would refuse, with no
argument and with as many arguments as texts. -/
theorem signatures_validate_like_texts_shorthand :
    Signature.ofShorthand "f" " string, number|boolean " =
      .ok ⟨"f", none, ["string", "number|boolean"], [⟨.string, []⟩, ⟨.number, [.boolean]⟩]⟩ ∧
    (default : Validator).checkSignature (.ofList [.string "x", .null])
        ⟨"f", none, ["string", "number|boolean"], [⟨.string, []⟩, ⟨.number, [.boolean]⟩]⟩ =
      (default : Validator).check (.ofList [.string "x", .null]) ["string", "number|boolean"] ∧
    Signature.ofRawText "\x7b\"name\":\"\",\"expects\":[\"int\"],\"x\":0\x7d" = .ok ⟨"", none, ["int"], []⟩ ∧
    (∃ e : Exception, (default : Validator).expectSignature (.ofList []) ⟨"", none, ["int"], []⟩ = .error e ∧
      e.kind = .noArguments) ∧
    ∃ e : Exception, (default : Validator).expectSignature (.ofList [.null]) ⟨"", none, ["int"], []⟩ = .error e ∧
      e.kind = .arityMismatch := by
  have hloaded : Signature.ofShorthand "f" " string, number|boolean " =
      .ok ⟨"f", none, ["string", "number|boolean"], [⟨.string, []⟩, ⟨.number, [.boolean]⟩]⟩ := rfl
  have hraw : Signature.ofRawText "\x7b\"name\":\"\",\"expects\":[\"int\"],\"x\":0\x7d" =
      .ok ⟨"", none, ["int"], []⟩ := rfl
  have hagree := (signatures_validate_like_texts default (.ofList [.string "x", .null])).1 _ (.shorthand hloaded)
  have hnone := (signatures_validate_like_texts default (.ofList [])).2
  have hone := (signatures_validate_like_texts default (.ofList [.null])).2
  obtain ⟨e, he, -, hkind⟩ := hnone.2 _ (hnone.1 _ _ hraw)
  obtain ⟨e', he', -, hkind'⟩ := hone.2 _ (hone.1 _ _ hraw)
  exact ⟨hloaded, hagree.check_eq, hraw, ⟨e, he, hkind⟩, e', he', hkind'⟩

end Validator

end CallContract
