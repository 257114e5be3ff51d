import CallContract.Proofs.Signature.Schema
import CallContract.Proofs.Signature.Shape
import CallContract.Proofs.Arguments

/-!
# Violations are complete and located

`Signature.Breaks` lists the faults of a document and the place of each: one at the root for a document that is no
object; for an object one at the root for each missing member and one for all unknown members together, one at each
member that is not what it should be, and one at each expectation that is no string. A document's violations are
exactly its faults, each of them once, and each message ends in the place (`violations_located`). They are also what
the schema of signatures has reported (`reports_schema_iff`).
-/

namespace CallContract.Signature

/-! ## Faults and their places -/

/-- A place in a document as text: the keys and indices that lead to it, each behind a slash. -/
def placeText (place : List String) : String :=
  String.join (place.map ("/" ++ ·))

/-- The keys that no signature has. -/
def unknownKeys (members : List (String × Json)) : List String :=
  (members.map (·.1)).filter fun key => key ∉ ["name", "description", "expects"]

/-- The document has a fault, and where it has it. -/
inductive Breaks : Json → Violation → List String → Prop where
  /-- It is no object; then there is nothing else to say. -/
  | document {d : Json} (h : ∀ members, d ≠ .object members) : Breaks d (.documentType d) []
  | missing {members : List (String × Json)} {key : String} (required : key ∈ ["name", "expects"])
      (h : Entries.find? members key = none) : Breaks (.object members) (.missingKey key) []
  | unknown {members : List (String × Json)} (h : unknownKeys members ≠ []) :
      Breaks (.object members) (.unknownKeys (unknownKeys members)) []
  | nameType {members : List (String × Json)} {j : Json} (given : Entries.find? members "name" = some j)
      (h : ∀ s, j ≠ .string s) : Breaks (.object members) (.nameType j) ["name"]
  | nameEmpty {members : List (String × Json)} (given : Entries.find? members "name" = some (.string "")) :
      Breaks (.object members) .nameEmpty ["name"]
  | descriptionType {members : List (String × Json)} {j : Json} (given : Entries.find? members "description" = some j)
      (h : ∀ s, j ≠ .string s) : Breaks (.object members) (.descriptionType j) ["description"]
  | expectsType {members : List (String × Json)} {j : Json} (given : Entries.find? members "expects" = some j)
      (h : ∀ items, j ≠ .array items) : Breaks (.object members) (.expectsType j) ["expects"]
  | expectsEmpty {members : List (String × Json)} (given : Entries.find? members "expects" = some (.array [])) :
      Breaks (.object members) .expectsEmpty ["expects"]
  | item {members : List (String × Json)} {items : List Json} {i : Nat} {j : Json}
      (given : Entries.find? members "expects" = some (.array items)) (item : items[i]? = some j)
      (h : ∀ s, j ≠ .string s) : Breaks (.object members) (.itemType i j) ["expects", toString i]

/-! ## The violations of one member -/

section Members

variable {j : Json} {v : Violation} {items : List Json} {members : List (String × Json)}

theorem mem_descriptionViolations_iff :
    v ∈ descriptionViolations j ↔ (∀ s, j ≠ .string s) ∧ v = .descriptionType j := by
  cases j <;> simp [descriptionViolations]

theorem mem_nameViolations_iff :
    v ∈ nameViolations j ↔ (∀ s, j ≠ .string s) ∧ v = .nameType j ∨ j = .string "" ∧ v = .nameEmpty := by
  cases j with
  | string s => by_cases h : s = "" <;> simp [nameViolations, h]
  | _ => simp [nameViolations]

theorem itemViolation?_eq_some_iff {i : Nat} :
    itemViolation? (j, i) = some v ↔ (∀ s, j ≠ .string s) ∧ v = .itemType i j := by
  cases j <;> simp [itemViolation?, eq_comm]

theorem mem_itemViolations_iff : v ∈ items.zipIdx.filterMap itemViolation? ↔
    ∃ i j, items[i]? = some j ∧ (∀ s, j ≠ .string s) ∧ v = .itemType i j := by
  simp only [List.mem_filterMap, Prod.exists, List.mem_zipIdx_iff_getElem?, itemViolation?_eq_some_iff]
  exact exists_comm

theorem mem_expectsViolations_iff : v ∈ expectsViolations j ↔
    (∀ items, j ≠ .array items) ∧ v = .expectsType j ∨ j = .array [] ∧ v = .expectsEmpty ∨
      ∃ items, j = .array items ∧ ∃ i x, items[i]? = some x ∧ (∀ s, x ≠ .string s) ∧ v = .itemType i x := by
  cases j with
  | array items =>
    rw [expectsViolations, List.mem_append, mem_itemViolations_iff]
    by_cases h : items = [] <;> simp [h]
  | _ => simp [expectsViolations]

theorem mem_memberViolations_iff : v ∈ memberViolations members ↔
    (∃ j, Entries.find? members "description" = some j ∧ v ∈ descriptionViolations j) ∨
    (∃ j, Entries.find? members "expects" = some j ∧ v ∈ expectsViolations j) ∨
    (∃ j, Entries.find? members "name" = some j ∧ v ∈ nameViolations j) ∨
    (unknownKeys members ≠ [] ∧ v = .unknownKeys (unknownKeys members)) ∨
    ∃ key ∈ requiredKeys, Entries.find? members key = none ∧ .missingKey key = v := by
  have hat (o : Option Json) (check : Json → List Violation) :
      v ∈ (o.map check).getD [] ↔ ∃ j, o = some j ∧ v ∈ check j := by
    cases o <;> simp
  have hunknown (keys : List String) :
      v ∈ (if keys.isEmpty then [] else [Violation.unknownKeys keys]) ↔ keys ≠ [] ∧ v = .unknownKeys keys := by
    cases keys <;> simp
  have hkeys : (members.map (·.1)).filter (fun key => !knownKeys.contains key) = unknownKeys members := by
    refine List.filter_congr fun key _ => ?_
    rw [Bool.eq_iff_iff, Bool.not_eq_true', List.contains_eq_mem, decide_eq_false_iff_not, decide_eq_true_eq,
      mem_knownKeys_iff]
  have hmissing : v ∈ (requiredKeys.filter fun key => (Entries.find? members key).isNone).map Violation.missingKey ↔
      ∃ key ∈ requiredKeys, Entries.find? members key = none ∧ .missingKey key = v := by
    simp only [List.mem_map, List.mem_filter, Option.isNone_iff_eq_none, and_assoc]
  simp only [memberViolations, List.mem_append, hat, hkeys, hunknown, hmissing, or_assoc]

end Members

/-- **The violations of a document are its faults.** -/
theorem mem_violations_iff {d : Json} {v : Violation} : v ∈ violations d ↔ ∃ place, Breaks d v place := by
  cases d with
  | object members =>
    rw [violations, mem_memberViolations_iff]
    constructor
    · rintro (⟨j, given, hv⟩ | ⟨j, given, hv⟩ | ⟨j, given, hv⟩ | ⟨h, rfl⟩ | ⟨key, required, h, rfl⟩)
      · obtain ⟨h, rfl⟩ := mem_descriptionViolations_iff.1 hv
        exact ⟨_, .descriptionType given h⟩
      · obtain ⟨h, rfl⟩ | ⟨rfl, rfl⟩ | ⟨items, rfl, i, x, item, h, rfl⟩ := mem_expectsViolations_iff.1 hv
        · exact ⟨_, .expectsType given h⟩
        · exact ⟨_, .expectsEmpty given⟩
        · exact ⟨_, .item given item h⟩
      · obtain ⟨h, rfl⟩ | ⟨rfl, rfl⟩ := mem_nameViolations_iff.1 hv
        · exact ⟨_, .nameType given h⟩
        · exact ⟨_, .nameEmpty given⟩
      · exact ⟨_, .unknown h⟩
      · exact ⟨_, .missing required h⟩
    · rintro ⟨place, h⟩
      cases h with
      | document h => exact absurd rfl (h members)
      | missing required h => exact .inr (.inr (.inr (.inr ⟨_, required, h, rfl⟩)))
      | unknown h => exact .inr (.inr (.inr (.inl ⟨h, rfl⟩)))
      | nameType given h => exact .inr (.inr (.inl ⟨_, given, mem_nameViolations_iff.2 (.inl ⟨h, rfl⟩)⟩))
      | nameEmpty given => exact .inr (.inr (.inl ⟨_, given, mem_nameViolations_iff.2 (.inr ⟨rfl, rfl⟩)⟩))
      | descriptionType given h => exact .inl ⟨_, given, mem_descriptionViolations_iff.2 ⟨h, rfl⟩⟩
      | expectsType given h => exact .inr (.inl ⟨_, given, mem_expectsViolations_iff.2 (.inl ⟨h, rfl⟩)⟩)
      | expectsEmpty given => exact .inr (.inl ⟨_, given, mem_expectsViolations_iff.2 (.inr (.inl ⟨rfl, rfl⟩))⟩)
      | item given item h =>
        exact .inr (.inl ⟨_, given, mem_expectsViolations_iff.2 (.inr (.inr ⟨_, rfl, _, _, item, h, rfl⟩))⟩)
  | _ =>
    constructor
    · intro h
      obtain rfl := List.mem_singleton.1 h
      exact ⟨_, .document nofun⟩
    · rintro ⟨place, h⟩
      cases h with
      | document => exact List.mem_singleton.2 rfl

/-! ## Each once, and in order -/

/-- The violation stands in front of another one in a list: it is another, and items come by their index. -/
def Violation.Before (v w : Violation) : Prop :=
  v ≠ w ∧ ∀ i j found found', v = .itemType i found → w = .itemType j found' → i < j

/-- The part of the list of violations in which a violation is found. -/
def Violation.part : Violation → Nat
  | .descriptionType _ => 0
  | .expectsType _ | .expectsEmpty | .itemType .. => 1
  | .nameType _ | .nameEmpty => 2
  | .unknownKeys _ => 3
  | .missingKey _ => 4
  | .documentType _ => 5

section Order

variable {v w : Violation}

theorem Violation.before_of_part_ne (h : v.part ≠ w.part) : v.Before w := by
  refine ⟨fun heq => h (congrArg part heq), ?_⟩
  rintro i j found found' rfl rfl
  exact absurd rfl h

theorem Violation.before_of_item {i j : Nat} {x y : Json} (h : i < j) : (itemType i x).Before (itemType j y) := by
  constructor
  · intro heq
    injection heq with hij
    exact h.ne hij
  · rintro i' j' found found' ⟨⟩ ⟨⟩
    exact h

theorem pairwise_itemViolations (items : List Json) :
    (items.zipIdx.filterMap itemViolation?).Pairwise Violation.Before := by
  have hindex : items.zipIdx.Pairwise fun x y => x.2 < y.2 := by
    rw [← List.pairwise_map (f := Prod.snd), List.zipIdx_map_snd]
    exact List.pairwise_lt_range'
  refine List.pairwise_filterMap.2 (hindex.imp ?_)
  rintro ⟨x, i⟩ ⟨y, j⟩ hij v hv w hw
  obtain ⟨-, rfl⟩ := itemViolation?_eq_some_iff.1 hv
  obtain ⟨-, rfl⟩ := itemViolation?_eq_some_iff.1 hw
  exact Violation.before_of_item hij

/-- The list is in order, and all of it is found in one part. -/
def InPart (n : Nat) (l : List Violation) : Prop :=
  l.Pairwise Violation.Before ∧ ∀ v ∈ l, v.part = n

/-- The list is in order, and all of it is found in the parts below. -/
def InPartsBelow (n : Nat) (l : List Violation) : Prop :=
  l.Pairwise Violation.Before ∧ ∀ v ∈ l, v.part < n

theorem InPartsBelow.append {n : Nat} {l l' : List Violation} (h : InPartsBelow n l) (h' : InPart n l') :
    InPartsBelow (n + 1) (l ++ l') := by
  constructor
  · refine List.pairwise_append.2 ⟨h.1, h'.1, fun v hv w hw => ?_⟩
    exact Violation.before_of_part_ne (h'.2 w hw ▸ (h.2 v hv).ne)
  · intro v hv
    rcases List.mem_append.1 hv with hv | hv
    · exact Nat.lt_succ_of_lt (h.2 v hv)
    · exact h'.2 v hv ▸ Nat.lt_succ_self _

theorem inPart_nil (n : Nat) : InPart n [] :=
  ⟨.nil, nofun⟩

theorem inPart_singleton (v : Violation) : InPart v.part [v] :=
  ⟨List.pairwise_singleton _ v, fun _ hw => List.mem_singleton.1 hw ▸ rfl⟩

theorem inPart_descriptionViolations (j : Json) : InPart 0 (descriptionViolations j) := by
  cases j with
  | string s => exact inPart_nil 0
  | _ => exact inPart_singleton _

theorem inPart_expectsViolations (j : Json) : InPart 1 (expectsViolations j) := by
  cases j with
  | array items =>
    cases items with
    | nil => exact inPart_singleton .expectsEmpty
    | cons item items =>
      refine ⟨pairwise_itemViolations (item :: items), fun v hv => ?_⟩
      obtain ⟨i, x, -, -, rfl⟩ := mem_itemViolations_iff.1 (hv : v ∈ (item :: items).zipIdx.filterMap itemViolation?)
      rfl
  | _ => exact inPart_singleton _

theorem inPart_nameViolations (j : Json) : InPart 2 (nameViolations j) := by
  cases j with
  | string s =>
    rw [nameViolations]
    split
    · exact inPart_singleton .nameEmpty
    · exact inPart_nil 2
  | _ => exact inPart_singleton _

theorem inPart_missing (members : List (String × Json)) :
    InPart 4 ((requiredKeys.filter fun key => (Entries.find? members key).isNone).map .missingKey) := by
  have hnodup : requiredKeys.Nodup := by decide
  constructor
  · refine List.pairwise_map.2 ((hnodup.filter _).imp ?_)
    intro key key' hne
    exact ⟨fun heq => hne (Violation.missingKey.inj heq), nofun⟩
  · intro v hv
    obtain ⟨key, -, rfl⟩ := List.mem_map.1 hv
    rfl

/-- The violations of a document are in order. -/
theorem pairwise_violations (d : Json) : (violations d).Pairwise Violation.Before := by
  cases d with
  | object members =>
    have hat {n : Nat} {check : Json → List Violation} (h : ∀ j, InPart n (check j)) (o : Option Json) :
        InPart n ((o.map check).getD []) := by
      cases o with
      | none => exact inPart_nil n
      | some j => exact h j
    have hunknown (keys : List String) : InPart 3 (if keys.isEmpty then [] else [.unknownKeys keys]) := by
      split
      · exact inPart_nil 3
      · exact inPart_singleton _
    have hnil : InPartsBelow 0 [] := ⟨.nil, nofun⟩
    exact ((((hnil.append (hat inPart_descriptionViolations _)).append (hat inPart_expectsViolations _)).append
      (hat inPart_nameViolations _)).append (hunknown _)).append (inPart_missing members) |>.1
  | _ => exact List.pairwise_singleton _ _

/-- No violation is listed twice. -/
theorem nodup_violations (d : Json) : (violations d).Nodup :=
  (pairwise_violations d).imp And.left

/-- Items that are no strings are listed by increasing index. -/
theorem pairwise_itemIndex (d : Json) : (violations d).Pairwise fun v w =>
    ∀ i j found found', v = .itemType i found → w = .itemType j found' → i < j :=
  (pairwise_violations d).imp And.right

end Order

/-! ## Places -/

section Places

variable {d : Json} {v w : Violation} {place : List String}

/-- Below the root there is one fault at each place. -/
theorem Breaks.eq_of_place {place' : List String} (h : Breaks d v place) (h' : Breaks d w place')
    (heq : place = place') (below : place ≠ []) : v = w := by
  cases h with
  | document | missing | unknown => exact absurd rfl below
  | nameType given h =>
    cases h' with
    | nameType given' => exact congrArg _ (Option.some.inj (given.symm.trans given'))
    | nameEmpty given' => exact absurd (Option.some.inj (given.symm.trans given')) (h "")
    | _ => exact absurd heq (by simp)
  | nameEmpty given =>
    cases h' with
    | nameType given' hother => exact absurd (Option.some.inj (given'.symm.trans given)) (hother "")
    | nameEmpty => rfl
    | _ => exact absurd heq (by simp)
  | descriptionType given =>
    cases h' with
    | descriptionType given' => exact congrArg _ (Option.some.inj (given.symm.trans given'))
    | _ => exact absurd heq (by simp)
  | expectsType given h =>
    cases h' with
    | expectsType given' => exact congrArg _ (Option.some.inj (given.symm.trans given'))
    | expectsEmpty given' => exact absurd (Option.some.inj (given.symm.trans given')) (h [])
    | _ => exact absurd heq (by simp)
  | expectsEmpty given =>
    cases h' with
    | expectsType given' h' => exact absurd (Option.some.inj (given'.symm.trans given)) (h' [])
    | expectsEmpty => rfl
    | _ => exact absurd heq (by simp)
  | @item _ _ i _ given item _ =>
    cases h' with
    | @item _ _ i' _ given' item' _ =>
      obtain rfl := Json.array.inj (Option.some.inj (given.symm.trans given'))
      obtain rfl : i = i' := Arguments.toString_injective (by simpa using heq)
      exact congrArg _ (Option.some.inj (item.symm.trans item'))
    | _ => exact absurd heq (by simp)

theorem Breaks.path_eq (h : Breaks d v place) : v.path = placeText place := by
  cases h with
  | item => simp [Violation.path, placeText, ← String.append_assoc]
  | _ => simp [Violation.path, placeText]

theorem Breaks.message_eq (h : Breaks d v place) : v.message = v.complaint ++ " at " ++ placeText place := by
  rw [Violation.message, h.path_eq]

end Places

/-! ## The schema -/

/-- What a violation breaks of the schema. -/
def Violation.breach : Violation → Schema.Breach
  | .documentType found => .form found .object
  | .nameType found | .descriptionType found | .itemType _ found => .form found .string
  | .expectsType found => .form found .array
  | .nameEmpty => .minLength
  | .expectsEmpty => .minItems
  | .missingKey key => .required key
  | .unknownKeys keys => .additional keys

section Schemas

variable {d : Json} {v : Violation} {place : List String} {b : Schema.Breach}

theorem Breaks.reports (h : Breaks d v place) : schema.Reports d place v.breach := by
  have hname : ("name", .text 1) ∈ schema.properties := .head _
  have hdescription : ("description", .text 0) ∈ schema.properties := .tail _ (.head _)
  have hexpects : ("expects", .list 1 (.text 0)) ∈ schema.properties := .tail _ (.tail _ (.head _))
  cases h with
  | document h => exact .form rfl (Json.form_ne_object_iff.2 h)
  | missing required h => exact .required required h
  | unknown h => exact .additional rfl h
  | nameType given h => exact .property hname given (.form rfl (Json.form_ne_string_iff.2 h))
  | nameEmpty given => exact .property hname given (.minLength Nat.zero_lt_one)
  | descriptionType given h => exact .property hdescription given (.form rfl (Json.form_ne_string_iff.2 h))
  | expectsType given h => exact .property hexpects given (.form rfl (Json.form_ne_array_iff.2 h))
  | expectsEmpty given => exact .property hexpects given (.minItems Nat.zero_lt_one)
  | item given item h => exact .property hexpects given (.item rfl item (.form rfl (Json.form_ne_string_iff.2 h)))

theorem exists_breaks_of_reports (h : schema.Reports d place b) : ∃ v, Breaks d v place ∧ v.breach = b := by
  rcases Schema.reports_record_iff.1 h with
    ⟨rfl, ⟨hform, rfl⟩ | ⟨members, rfl, ⟨key, required, hkey, rfl⟩ | ⟨hne, rfl⟩⟩⟩ |
    ⟨members, key, property, j, rest, rfl, asked, given, rfl, hproperty⟩
  · exact ⟨_, .document hform, rfl⟩
  · exact ⟨_, .missing required hkey, rfl⟩
  · exact ⟨_, .unknown hne, rfl⟩
  · have hcases : (key = "name" ∧ property = .text 1) ∨ (key = "description" ∧ property = .text 0) ∨
        key = "expects" ∧ property = .list 1 (.text 0) := by
      simpa using asked
    rcases hcases with ⟨rfl, rfl⟩ | ⟨rfl, rfl⟩ | ⟨rfl, rfl⟩
    · rcases Schema.reports_text_iff.1 hproperty with ⟨rfl, ⟨hform, rfl⟩ | ⟨s, rfl, hlength, rfl⟩⟩
      · exact ⟨_, .nameType given hform, rfl⟩
      · obtain rfl : s = "" := String.length_eq_zero_iff.1 (Nat.lt_one_iff.1 hlength)
        exact ⟨_, .nameEmpty given, rfl⟩
    · rcases Schema.reports_text_iff.1 hproperty with ⟨rfl, ⟨hform, rfl⟩ | ⟨s, -, hlength, -⟩⟩
      · exact ⟨_, .descriptionType given hform, rfl⟩
      · exact absurd hlength (Nat.not_lt_zero _)
    · rcases Schema.reports_list_iff.1 hproperty with ⟨rfl, ⟨hform, rfl⟩ | ⟨items, rfl, hlength, rfl⟩⟩ |
        ⟨items, i, x, rest, rfl, hitem, rfl, hreports⟩
      · exact ⟨_, .expectsType given hform, rfl⟩
      · obtain rfl : items = [] := List.length_eq_zero_iff.1 (Nat.lt_one_iff.1 hlength)
        exact ⟨_, .expectsEmpty given, rfl⟩
      · rcases Schema.reports_text_iff.1 hreports with ⟨rfl, ⟨hform, rfl⟩ | ⟨s, -, hlength, -⟩⟩
        · exact ⟨_, .item given hitem hform, rfl⟩
        · exact absurd hlength (Nat.not_lt_zero _)

/-- **What the schema has reported are the faults.** -/
theorem reports_schema_iff : schema.Reports d place b ↔ ∃ v, Breaks d v place ∧ v.breach = b := by
  refine ⟨exists_breaks_of_reports, ?_⟩
  rintro ⟨v, h, rfl⟩
  exact h.reports

end Schemas

/-! ## The list of violations -/

/-- The violations of a document are complete, and each says where it is. -/
structure ViolationsLocated (d : Json) : Prop where
  shape : violations d = [] ↔ ∃ name description expects, Describes d name description expects
  /-- Every fault is listed and nothing else. -/
  mem_iff : ∀ v, v ∈ violations d ↔ ∃ place, Breaks d v place
  nodup : (violations d).Nodup
  /-- Below the root there is one at each place. -/
  unique : ∀ v w place, Breaks d v place → Breaks d w place → place ≠ [] → v = w
  /-- Items come by increasing index. -/
  ordered : (violations d).Pairwise fun v w =>
    ∀ i j found found', v = .itemType i found → w = .itemType j found' → i < j
  message : ∀ v place, Breaks d v place → v.message = v.complaint ++ " at " ++ placeText place
  /-- They are what the schema has reported, breach by breach. -/
  reported : ∀ place b, schema.Reports d place b ↔ ∃ v ∈ violations d, Breaks d v place ∧ v.breach = b

/-- **Violations are complete and located.** -/
theorem violations_located (d : Json) : ViolationsLocated d where
  shape := ⟨exists_describes, fun ⟨_, _, _, h⟩ => h.violations_eq_nil⟩
  mem_iff _ := mem_violations_iff
  nodup := nodup_violations d
  unique _ _ _ h h' := h.eq_of_place h' rfl
  ordered := pairwise_itemIndex d
  message _ _ := Breaks.message_eq
  reported place b := by
    rw [reports_schema_iff]
    exact exists_congr fun v => ⟨fun h => ⟨mem_violations_iff.2 ⟨place, h.1⟩, h⟩, And.right⟩

/-- Two items that are no strings, an unknown member and a missing name. -/
example : (violations
      (.object [("expects", .array [.string "a", .null, .bool true]), ("x", .null)])).map Violation.path =
    ["/expects/1", "/expects/2", "", ""] := by decide

end CallContract.Signature
