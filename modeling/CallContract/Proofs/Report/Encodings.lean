import CallContract.Proofs.Arguments
import CallContract.Proofs.Json.Members
import CallContract.Proofs.Report

/-!
# The two encodings of a report

A report is written in two ways: as JSON, entry by entry (`Report.toJson`), and as the value that a callback is given
(`Report.toValue`), whose entries are sorted by their keys. Both are one document (`Report.encodings_agree`): labels of
different positions differ (`Report.label_injective`), so that sorting merges no entries, and each of the two describes
the report (`Report.Describes`). They differ in the order of members: the first goes by position, where `argument 10`
comes after `argument 9`, the second by the bytes of the keys, where it comes before.
-/

namespace CallContract

/-! ## Failures -/

namespace Failure

variable (f : Failure)

/-- The document is an object with the four members of the failure and no other. -/
def Describes (document : Json) : Prop :=
  ∃ members, document = .object members ∧ members.length = 4 ∧
    Entries.find? members "passedData" = some f.passedData.toJson ∧
    Entries.find? members "passedDataType" = some (.string f.passedKind.name) ∧
    Entries.find? members "expects" = some (.strings (f.expects.map TypeTag.spelling)) ∧
    Entries.find? members "message" = some (.string f.message)

theorem describes_toJson : f.Describes f.toJson :=
  ⟨_, rfl, rfl, rfl, rfl, rfl, rfl⟩

/-- The four members in some order. -/
theorem exists_toJson_toValue : ∃ members, f.toValue.toJson = .object members ∧
    [("passedData", f.passedData.toJson), ("passedDataType", .string f.passedKind.name),
      ("expects", .strings (f.expects.map TypeTag.spelling)), ("message", .string f.message)].Perm members := by
  obtain ⟨members, htoJson, hperm⟩ := Value.exists_toJson_ofEntries [
    ("passedData", f.passedData), ("passedDataType", .string f.passedKind.name),
    ("expects", .strings (f.expects.map TypeTag.spelling)), ("message", .string f.message)] (by simp)
  refine ⟨members, htoJson, ?_⟩
  simpa [Value.toJson] using hperm

theorem describes_toValue : f.Describes f.toValue.toJson := by
  obtain ⟨members, htoJson, hperm⟩ := f.exists_toJson_toValue
  have hfind := Entries.find?_of_perm hperm.symm (by simp)
  refine ⟨members, htoJson, hperm.length_eq.symm, ?_, ?_, ?_, ?_⟩
  all_goals
    rw [hfind]
    rfl

theorem sameDocument : f.toJson.SameDocument f.toValue.toJson := by
  obtain ⟨members, htoJson, hperm⟩ := f.exists_toJson_toValue
  rw [htoJson]
  exact .object rfl (List.forall₂_same.2 fun j _ => .refl j) hperm

theorem ordered_toValue (h : f.passedData.Ordered) : f.toValue.Ordered := by
  refine Value.ordered_ofEntries (by simp) ?_
  simp only [List.forall_mem_cons]
  exact ⟨h, Value.ordered_string _, Value.ordered_strings _, Value.ordered_string _, nofun⟩

end Failure

/-! ## Reports -/

namespace Report

theorem label_injective : Function.Injective label := by
  intro p q h
  exact Arguments.toString_injective (String.append_right_inj _ |>.1 h)

variable (r : Report)

theorem pairwise_positions : r.positions.Pairwise (· < ·) :=
  List.pairwise_map.2 r.pairwise_entries

theorem nodup_labels : (r.positions.map label).Nodup :=
  List.Nodup.map label_injective (r.pairwise_positions.imp Nat.ne_of_lt)

/-- The document says whether the report has passed, and has a description of each failure under the label of its
position. Every position has a member, under a key of its own, and there are no other members. -/
def Describes (document : Json) : Prop :=
  ∃ members errors, document = .object members ∧ members.length = 2 ∧
    Entries.find? members "passed" = some (.bool r.passed) ∧
    Entries.find? members "errors" = some (.object errors) ∧
    (errors.map (·.1)).Perm (r.positions.map label) ∧ (errors.map (·.1)).Nodup ∧
    ∀ p f, r.failure? p = some f → ∃ j, Entries.find? errors (label p) = some j ∧ f.Describes j

variable {r} in
/-- Members in any order describe the report when those of the failures do. -/
theorem describes_of_perm {encode : Failure → Json} (hencode : ∀ f : Failure, f.Describes (encode f))
    {members errors : List (String × Json)}
    (hmembers : [("errors", .object errors), ("passed", .bool r.passed)].Perm members)
    (herrors : (r.entries.map fun e => (label e.1, encode e.2)).Perm errors) : r.Describes (.object members) := by
  have hfind := Entries.find?_of_perm hmembers.symm (by simp)
  have hkeys : (errors.map (·.1)).Perm (r.positions.map label) := by
    simpa [positions, Function.comp_def] using (herrors.map (·.1)).symm
  have hdistinct := hkeys.nodup_iff.2 r.nodup_labels
  refine ⟨members, errors, rfl, hmembers.length_eq.symm, ?_, ?_, hkeys, hdistinct, ?_⟩
  · rw [hfind]
    rfl
  · rw [hfind]
    rfl
  · intro p f hf
    refine ⟨encode f, ?_, hencode f⟩
    rw [Entries.find?, Entries.lookup_eq_some_iff hdistinct, ← herrors.mem_iff]
    exact List.mem_map.2 ⟨(p, f), r.failure?_eq_some_iff.1 hf, rfl⟩

theorem describes_toJson : r.Describes r.toJson :=
  describes_of_perm Failure.describes_toJson (.refl _) (.refl _)

/-- The entries of the value before they are sorted. -/
theorem nodup_toValue_keys : ((r.entries.map fun e => (label e.1, e.2.toValue)).map (·.1)).Nodup := by
  simpa [positions, Function.comp_def] using r.nodup_labels

/-- The members of the value's form, in some order. -/
theorem exists_toJson_toValue : ∃ members errors, r.toValue.toJson = .object members ∧
    [("errors", .object errors), ("passed", .bool r.passed)].Perm members ∧
    (r.entries.map fun e => (label e.1, e.2.toValue.toJson)).Perm errors := by
  obtain ⟨errors, herrors, hperm⟩ := Value.exists_toJson_ofEntries _ r.nodup_toValue_keys
  obtain ⟨members, hmembers, hperm'⟩ := Value.exists_toJson_ofEntries [
    ("errors", .ofEntries (r.entries.map fun e => (label e.1, e.2.toValue))), ("passed", .bool r.passed)] (by simp)
  refine ⟨members, errors, hmembers, ?_, ?_⟩
  · simpa [herrors, Value.toJson] using hperm'
  · simpa [Function.comp_def] using hperm

theorem describes_toValue : r.Describes r.toValue.toJson := by
  obtain ⟨members, errors, htoJson, hmembers, herrors⟩ := r.exists_toJson_toValue
  rw [htoJson]
  exact describes_of_perm Failure.describes_toValue hmembers herrors

theorem sameDocument : r.toJson.SameDocument r.toValue.toJson := by
  obtain ⟨members, errors, htoJson, hmembers, herrors⟩ := r.exists_toJson_toValue
  have hentries : Json.SameDocument (.object (r.entries.map fun e => (label e.1, e.2.toJson))) (.object errors) := by
    refine .object ?_ ?_ herrors
    · rw [List.map_map, List.map_map]
      rfl
    · rw [List.map_map, List.map_map, List.forall₂_map_left_iff, List.forall₂_map_right_iff, List.forall₂_same]
      intro e _
      exact e.2.sameDocument
  rw [htoJson, toJson]
  refine .object ?_ ?_ hmembers
  · rfl
  · exact .cons hentries (.cons (.bool r.passed) .nil)

theorem ordered_toValue (h : ∀ p f, r.failure? p = some f → f.passedData.Ordered) : r.toValue.Ordered := by
  refine Value.ordered_ofEntries (by simp) ?_
  simp only [List.forall_mem_cons]
  refine ⟨Value.ordered_ofEntries r.nodup_toValue_keys ?_, Value.ordered_bool _, nofun⟩
  intro entry hentry
  obtain ⟨⟨p, f⟩, hmem, rfl⟩ := List.mem_map.1 hentry
  exact f.ordered_toValue (h p f (r.failure?_eq_some_iff.2 hmem))

/-- The text is that of an object whose errors are written by increasing positions, each under its label. -/
def WrittenByPosition (text : List Char) : Prop :=
  ∃ parts, text = Json.bracket '\x7b' '\x7d' [
      Json.quoted "errors" ++ ':' :: Json.bracket '\x7b' '\x7d' parts,
      Json.quoted "passed" ++ ':' :: (Json.bool r.passed).compactChars] ∧
    List.Forall₂ (fun p part => ∃ f, r.failure? p = some f ∧
      part = Json.quoted (label p) ++ ':' :: f.toJson.compactChars) r.positions parts

theorem writtenByPosition_toJson : r.WrittenByPosition r.toJson.compactChars := by
  refine ⟨r.entries.map fun e => Json.quoted (label e.1) ++ ':' :: e.2.toJson.compactChars, ?_, ?_⟩
  · simp only [toJson, Json.compactChars, List.map_cons, List.map_nil, List.map_map]
    rfl
  · rw [positions, List.forall₂_map_left_iff, List.forall₂_map_right_iff, List.forall₂_same]
    rintro ⟨p, f⟩ hmem
    exact ⟨f, r.failure?_eq_some_iff.2 hmem, rfl⟩

/-! ## Both encodings -/

/-- What the encodings of a report made by the calls say, and in which order. -/
structure EncodingsAgree (calls : List (Nat × Failure)) (r : Report) : Prop where
  passed : r.passed = calls.isEmpty
  failures : ∀ p, r.failure? p = calls.reverse.lookup p
  same : r.toJson.SameDocument r.toValue.toJson
  describes_toJson : r.Describes r.toJson
  describes_toValue : r.Describes r.toValue.toJson
  increasing : r.positions.Pairwise (· < ·)
  byPosition : r.WrittenByPosition r.toJson.compactChars
  byKey : (∀ p f, r.failure? p = some f → f.passedData.Ordered) → Json.KeysIncrease r.toValue.toJson.compactChars

/-- **The two encodings of a report are one document**, whatever has been recorded. Data whose objects have increasing
keys are written in this order as well. -/
theorem encodings_agree (calls : List (Nat × Failure)) : EncodingsAgree calls (empty.recordAll calls) where
  passed := empty.passed_recordAll calls
  failures p := by
    rw [failure?_recordAll]
    exact Option.or_none
  same := sameDocument _
  describes_toJson := describes_toJson _
  describes_toValue := describes_toValue _
  increasing := pairwise_positions _
  byPosition := writtenByPosition_toJson _
  byKey h := Value.keysIncrease_toJson (ordered_toValue _ h)

/-- Positions nine and ten, which the two encodings list in different orders; the first call for the tenth is void. -/
theorem encodings_agree_ten :
    let nested := Value.ofEntries [("b", .strings ["x"]), ("a", .bool true)]
    let calls := [(10, ⟨.null, .number, [], ""⟩), (9, ⟨nested, .string, [.any, .any], "nine"⟩),
      (10, ⟨.string "x", .string, [.number], "ten"⟩)]
    EncodingsAgree calls (empty.recordAll calls) ∧ (empty.recordAll calls).positions = [9, 10] ∧
      Text.bytes (label 10) < Text.bytes (label 9) ∧
      Json.KeysIncrease (empty.recordAll calls).toValue.toJson.compactChars := by
  intro nested calls
  have hagree := encodings_agree calls
  refine ⟨hagree, by decide, by decide, hagree.byKey ?_⟩
  intro p f hf
  have hmem : (p, f) ∈ [(9, _), (10, _)] := (failure?_eq_some_iff _).1 hf
  rcases List.mem_pair.1 hmem with hf | hf
  · rw [(Prod.mk.inj hf).2]
    refine Value.ordered_ofEntries (by simp) ?_
    simp only [List.forall_mem_cons]
    exact ⟨Value.ordered_strings _, Value.ordered_bool true, nofun⟩
  · rw [(Prod.mk.inj hf).2]
    exact Value.ordered_string "x"

end Report

end CallContract
