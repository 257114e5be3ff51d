import CallContract.Proofs.Traversal
import CallContract.Signature.Reader
import Mathlib.Data.Set.List

/-!
# The shape of signature documents

A document describes a signature when it is an object of known members, each of its type, with the required ones there
and not empty (`Signature.Describes`); each fault that keeps it from this has a form of its own
(`Signature.Misshapen`). A document without violations describes a signature (`exists_describes`), and one with
violations has a fault (`misshapen_of_violations`). What a document describes is read (`ofDocument_of_describes`): the
look at the shape and the look for the fields agree.
-/

namespace CallContract.Signature

/-! ## Documents that describe a signature, and faults -/

/-- The document has the shape of a signature and says this name, this description and these expectations. -/
inductive Describes : Json → String → Option String → List String → Prop where
  | object {members : List (String × Json)} {name : String} {description : Option String} {expects : List String}
      (name_eq : Entries.find? members "name" = some (.string name)) (name_ne : name ≠ "")
      (description_eq : Entries.find? members "description" = description.map .string)
      (expects_eq : Entries.find? members "expects" = some (.strings expects)) (expects_ne : expects ≠ [])
      (known : ∀ m ∈ members, m.1 ∈ ["name", "description", "expects"]) :
      Describes (.object members) name description expects

/-- The document breaks the shape of a signature. -/
inductive Misshapen : Json → Prop where
  /-- It is no object. -/
  | notObject {document : Json} (h : ∀ members, document ≠ .object members) : Misshapen document
  /-- A required member is missing. -/
  | missing {members : List (String × Json)} {key : String} (required : key ∈ ["name", "expects"])
      (h : Entries.find? members key = none) : Misshapen (.object members)
  /-- There is a member beside the known ones. -/
  | unknown {members : List (String × Json)} {m : String × Json} (hm : m ∈ members)
      (h : m.1 ∉ ["name", "description", "expects"]) : Misshapen (.object members)
  /-- The name is anything but a string with something in it. -/
  | name {members : List (String × Json)} {j : Json} (given : Entries.find? members "name" = some j)
      (h : ∀ s, j = .string s → s = "") : Misshapen (.object members)
  /-- The description is anything but a string; null is no string. -/
  | description {members : List (String × Json)} {j : Json} (given : Entries.find? members "description" = some j)
      (h : ∀ s, j ≠ .string s) : Misshapen (.object members)
  /-- The expectations are anything but an array of strings with something in it. -/
  | expects {members : List (String × Json)} {j : Json} (given : Entries.find? members "expects" = some j)
      (h : ∀ texts, j = .strings texts → texts = []) : Misshapen (.object members)

/-! ## Violations of one member -/

theorem nameViolations_eq_nil_iff {j : Json} : nameViolations j = [] ↔ ∃ s, j = .string s ∧ s ≠ "" := by
  cases j with
  | string s => simp [nameViolations]
  | _ => simp [nameViolations]

theorem descriptionViolations_eq_nil_iff {j : Json} : descriptionViolations j = [] ↔ ∃ s, j = .string s := by
  cases j <;> simp [descriptionViolations]

theorem itemViolation?_eq_none_iff {j : Json} {index : Nat} :
    itemViolation? (j, index) = none ↔ ∃ s, j = .string s := by
  cases j <;> simp [itemViolation?]

theorem filterMap_itemViolation?_eq_nil_iff {items : List Json} :
    items.zipIdx.filterMap itemViolation? = [] ↔ ∃ texts : List String, items = texts.map .string := by
  rw [List.filterMap_eq_nil_iff]
  constructor
  · intro h
    have hrange : items ∈ Set.range (List.map Json.string) := by
      rw [Set.range_list_map]
      intro j hj
      obtain ⟨index, hindex⟩ := List.mem_iff_getElem?.1 hj
      obtain ⟨s, rfl⟩ := itemViolation?_eq_none_iff.1 (h (j, index) (List.mem_zipIdx_iff_getElem?.2 hindex))
      exact ⟨s, rfl⟩
    obtain ⟨texts, htexts⟩ := hrange
    exact ⟨texts, htexts.symm⟩
  · rintro ⟨texts, rfl⟩ ⟨j, index⟩ hj
    obtain ⟨text, -, rfl⟩ := List.mem_map.1 (List.fst_mem_of_mem_zipIdx hj)
    rfl

theorem expectsViolations_eq_nil_iff {j : Json} :
    expectsViolations j = [] ↔ ∃ texts, j = .strings texts ∧ texts ≠ [] := by
  cases j with
  | array items =>
    rw [expectsViolations, List.append_eq_nil_iff, filterMap_itemViolation?_eq_nil_iff]
    constructor
    · rintro ⟨hne, texts, rfl⟩
      exact ⟨texts, rfl, by rintro rfl; exact nomatch hne⟩
    · rintro ⟨texts, h, hne⟩
      obtain rfl := Json.array.inj h
      exact ⟨if_neg (by simpa using hne), texts, rfl⟩
  | _ => simp [expectsViolations, Json.strings]

/-! ## Violations of a document -/

section Members

variable {members : List (String × Json)}

theorem memberViolations_eq_nil_iff : memberViolations members = [] ↔
    (∀ j, Entries.find? members "description" = some j → ∃ s, j = .string s) ∧
      (∀ j, Entries.find? members "expects" = some j → ∃ texts, j = .strings texts ∧ texts ≠ []) ∧
      (∀ j, Entries.find? members "name" = some j → ∃ s, j = .string s ∧ s ≠ "") ∧
      (∀ m ∈ members, m.1 ∈ knownKeys) ∧ ∀ key ∈ requiredKeys, Entries.find? members key ≠ none := by
  have hat (o : Option Json) (check : Json → List Violation) :
      (o.map check).getD [] = [] ↔ ∀ j, o = some j → check j = [] := by
    cases o <;> simp
  have hunknown (keys : List String) :
      (if keys.isEmpty then [] else [Violation.unknownKeys keys]) = [] ↔ keys = [] := by
    cases keys <;> simp
  simp only [memberViolations, List.append_eq_nil_iff, hat, hunknown, List.map_eq_nil_iff, List.filter_eq_nil_iff,
    List.forall_mem_map, descriptionViolations_eq_nil_iff, expectsViolations_eq_nil_iff, nameViolations_eq_nil_iff,
    and_assoc]
  simp

theorem mem_knownKeys_iff {key : String} : key ∈ knownKeys ↔ key ∈ ["name", "description", "expects"] :=
  have h : knownKeys.Perm ["name", "description", "expects"] := by decide
  h.mem_iff

end Members

theorem Describes.violations_eq_nil {document : Json} {name : String} {description : Option String}
    {expects : List String} (h : Describes document name description expects) : violations document = [] := by
  cases h with
  | object name_eq name_ne description_eq expects_eq expects_ne known =>
    refine memberViolations_eq_nil_iff.2 ⟨fun j hj => ?_, fun j hj => ?_, fun j hj => ?_, fun m hm => ?_, ?_⟩
    · rw [description_eq] at hj
      obtain ⟨s, -, rfl⟩ := Option.map_eq_some_iff.1 hj
      exact ⟨s, rfl⟩
    · exact ⟨expects, Option.some.inj (hj.symm.trans expects_eq), expects_ne⟩
    · exact ⟨name, Option.some.inj (hj.symm.trans name_eq), name_ne⟩
    · exact mem_knownKeys_iff.2 (known m hm)
    · simp [requiredKeys, name_eq, expects_eq]

theorem Misshapen.violations_ne_nil {document : Json} (h : Misshapen document) : violations document ≠ [] := by
  cases h with
  | notObject h =>
    cases document with
    | object members => exact absurd rfl (h members)
    | _ => exact List.cons_ne_nil _ _
  | missing required h => exact fun hnil => (memberViolations_eq_nil_iff.1 hnil).2.2.2.2 _ required h
  | unknown hm h => exact fun hnil => h (mem_knownKeys_iff.1 ((memberViolations_eq_nil_iff.1 hnil).2.2.2.1 _ hm))
  | name given h =>
    intro hnil
    obtain ⟨s, hs, hne⟩ := (memberViolations_eq_nil_iff.1 hnil).2.2.1 _ given
    exact hne (h s hs)
  | description given h =>
    intro hnil
    obtain ⟨s, hs⟩ := (memberViolations_eq_nil_iff.1 hnil).1 _ given
    exact h s hs
  | expects given h =>
    intro hnil
    obtain ⟨texts, htexts, hne⟩ := (memberViolations_eq_nil_iff.1 hnil).2.1 _ given
    exact hne (h texts htexts)

/-- A document without violations describes a signature. -/
theorem exists_describes {document : Json} (h : violations document = []) :
    ∃ name description expects, Describes document name description expects := by
  cases document with
  | object members =>
    obtain ⟨hdescription, hexpects, hname, hknown, hrequired⟩ := memberViolations_eq_nil_iff.1 h
    obtain ⟨n, name_eq⟩ := Option.ne_none_iff_exists'.1 (hrequired "name" (by decide))
    obtain ⟨name, rfl, name_ne⟩ := hname n name_eq
    obtain ⟨e, expects_eq⟩ := Option.ne_none_iff_exists'.1 (hrequired "expects" (by decide))
    obtain ⟨expects, rfl, expects_ne⟩ := hexpects e expects_eq
    have hd : ∃ description : Option String, Entries.find? members "description" = description.map Json.string := by
      cases hfind : Entries.find? members "description" with
      | none => exact ⟨none, rfl⟩
      | some d =>
        obtain ⟨description, rfl⟩ := hdescription d hfind
        exact ⟨some description, rfl⟩
    obtain ⟨description, description_eq⟩ := hd
    exact ⟨name, description, expects, .object name_eq name_ne description_eq expects_eq expects_ne
      fun m hm => mem_knownKeys_iff.1 (hknown m hm)⟩
  | _ => exact nomatch h

/-- A document with violations has one of the faults. -/
theorem misshapen_of_violations {document : Json} (h : violations document ≠ []) : Misshapen document := by
  by_contra hshape
  refine h ?_
  cases document with
  | object members =>
    refine memberViolations_eq_nil_iff.2 ⟨fun j hj => ?_, fun j hj => ?_, fun j hj => ?_, fun m hm => ?_,
      fun key hkey hnone => hshape (.missing hkey hnone)⟩
    all_goals by_contra hno
    · exact hshape (.description hj fun s hs => hno ⟨s, hs⟩)
    · exact hshape (.expects hj fun texts htexts => by_contra fun hne => hno ⟨texts, htexts, hne⟩)
    · exact hshape (.name hj fun s hs => by_contra fun hne => hno ⟨s, hs, hne⟩)
    · exact hshape (.unknown hm fun hmem => hno (mem_knownKeys_iff.2 hmem))
  | _ => exact absurd (.notObject nofun) hshape

/-! ## Reading a document of the right shape -/

section Describes

variable {document : Json} {name : String} {description : Option String} {expects : List String}

theorem Describes.expects_ne_nil (h : Describes document name description expects) : expects ≠ [] := by
  cases h with
  | object _ _ _ _ expects_ne _ => exact expects_ne

theorem mapM_string? (texts : List String) : (texts.map Json.string).mapM string? = some texts :=
  Traversal.mapM_eq_some_iff.2 (List.forall₂_map_left_iff.2 (List.forall₂_same.2 fun _ _ => rfl))

/-- **What a document describes is read**: a document of the right shape always has its fields. -/
theorem Describes.fields?_eq (h : Describes document name description expects) :
    fields? document = some { name, description, expects } := by
  cases h with
  | @object members _ _ _ name_eq _ description_eq expects_eq _ _ =>
    have hdescription : (Entries.find? members "description").bind string? = description := by
      rw [description_eq]
      cases description <;> rfl
    simp only [fields?, name_eq, expects_eq, Json.strings, mapM_string?, hdescription]
    rfl

theorem ofDocument_of_describes (h : Describes document name description expects) :
    ofDocument document = compile { name, description, expects } := by
  rw [ofDocument, h.violations_eq_nil, h.fields?_eq]

theorem ofDocument_of_misshapen (h : Misshapen document) :
    ofDocument document = .error (.shape (violations document)) := by
  rw [ofDocument]
  cases hviolations : violations document with
  | nil => exact absurd hviolations h.violations_ne_nil
  | cons violation rest => rfl

end Describes

end CallContract.Signature
