import CallContract.Value.Text
import Mathlib.Logic.Relation

/-!
# The text of nested arrays

The text of an array does not show how its items are nested: it joins one text for each leaf, from left to right
(`itemText_eq_leaves`), where a leaf is what is no array, or an empty one (`Value.leaves`). So an array inside an array
can be opened in its place (`leaves_open`), an empty one counts as null, and whether a leaf is null or undefined cannot
be seen (`itemText_of_replacesNull`). `text_flattens` puts this together.
-/

namespace CallContract

/-- Joining joined parts is joining all of them, if no part is without items. -/
theorem Text.intercalate_flatten {separator : String} {parts : List (List String)} (h : ∀ part ∈ parts, part ≠ []) :
    separator.intercalate (parts.map separator.intercalate) = separator.intercalate parts.flatten := by
  induction parts with
  | nil => rfl
  | cons part parts ih =>
    obtain ⟨hpart, hparts⟩ := List.forall_mem_cons.1 h
    rw [List.map_cons, List.flatten_cons]
    cases parts with
    | nil => simp
    | cons next parts =>
      have hflatten : (next :: parts).flatten ≠ [] := by
        rw [List.flatten_cons]
        exact List.append_ne_nil_of_left_ne_nil (hparts next List.mem_cons_self) _
      rw [String.intercalate_append_of_ne_nil hpart hflatten, ← ih hparts,
        String.intercalate_cons_of_ne_nil (mt List.map_eq_nil_iff.1 (List.cons_ne_nil next parts))]

namespace Value

/-! ## Items and leaves -/

/-- The text of a value as an item of an array. -/
def itemText (v : Value) : String :=
  if v.isNil then "" else v.text

theorem text_array (items : List Value) : (array items).text = ",".intercalate (items.map itemText) := by
  have hitem : String.toList ∘ itemText = fun v => if v.isNil then [] else v.chars := by
    funext v
    by_cases h : v.isNil = true <;> simp [itemText, text, h]
  apply String.toList_injective
  rw [text, chars, String.toList_ofList, String.toList_intercalate, List.map_map, hitem]
  rfl

theorem itemText_array (items : List Value) : (array items).itemText = (array items).text := rfl

/-- The leaves of a value from left to right: an array with items in it is none, but has those of its items. -/
def leaves : Value → List Value
  | .array items => if items.isEmpty then [.array items] else items.flatMap fun v => leaves v
  | v => [v]
termination_by v => v
decreasing_by
  have := List.sizeOf_lt_of_mem ‹_›
  simp; omega

/-- What a leaf adds to the text of an array: null, undefined and an empty array nothing, any other its own text. -/
def leafText : Value → String
  | .undefined | .null | .array _ => ""
  | v => v.text

section Leaves

variable {v : Value} {items : List Value}

/-- Induction on a value as an item: no array, an empty array, or an array through its items. -/
theorem item_induction {motive : Value → Prop} (other : ∀ v, (∀ items, v ≠ .array items) → motive v)
    (empty : motive (.array [])) (array : ∀ items, items ≠ [] → (∀ v ∈ items, motive v) → motive (.array items))
    (v : Value) : motive v := by
  induction v with
  | array items ih =>
    by_cases h : items = []
    · exact h ▸ empty
    · exact array items h ih
  | _ =>
    refine other _ ?_
    rintro _ ⟨⟩

theorem leaves_array_nil : (array []).leaves = [array []] := by
  rw [leaves]
  rfl

theorem leaves_array (h : items ≠ []) : (array items).leaves = items.flatMap leaves := by
  rw [leaves, if_neg (by simpa using h)]

theorem leaves_of_ne_array (h : ∀ items, v ≠ .array items) : v.leaves = [v] := by
  cases v with
  | array items => exact absurd rfl (h items)
  | _ => simp only [leaves]

theorem itemText_of_ne_array (h : ∀ items, v ≠ .array items) : v.itemText = v.leafText := by
  cases v with
  | array items => exact absurd rfl (h items)
  | _ => rfl

theorem leaves_ne_nil (v : Value) : v.leaves ≠ [] := by
  induction v using item_induction with
  | other v h =>
    rw [leaves_of_ne_array h]
    exact List.cons_ne_nil v []
  | empty =>
    rw [leaves_array_nil]
    exact List.cons_ne_nil _ []
  | array items h ih =>
    obtain ⟨v, hv⟩ := List.exists_mem_of_ne_nil items h
    obtain ⟨leaf, hleaf⟩ := List.exists_mem_of_ne_nil v.leaves (ih v hv)
    rw [leaves_array h]
    exact List.ne_nil_of_mem (List.mem_flatMap.2 ⟨v, hv, hleaf⟩)

/-- A leaf is no array, or an empty one. -/
theorem eq_nil_of_mem_leaves (h : array items ∈ v.leaves) : items = [] := by
  induction v using item_induction with
  | other v hv =>
    rw [leaves_of_ne_array hv, List.mem_singleton] at h
    exact absurd h.symm (hv items)
  | empty =>
    rw [leaves_array_nil, List.mem_singleton] at h
    exact array.inj h
  | array all hall ih =>
    rw [leaves_array hall] at h
    obtain ⟨w, hw, hmem⟩ := List.mem_flatMap.1 h
    exact ih w hw hmem

/-- **A value inside an array is written leaf by leaf.** -/
theorem itemText_eq_leaves (v : Value) : v.itemText = ",".intercalate (v.leaves.map leafText) := by
  induction v using item_induction with
  | other v h => rw [itemText_of_ne_array h, leaves_of_ne_array h, List.map_singleton, String.intercalate_singleton]
  | empty =>
    rw [itemText_array, text_array, leaves_array_nil]
    rfl
  | array items h ih =>
    have hparts : ∀ part ∈ items.map fun v => v.leaves.map leafText, part ≠ [] := by
      intro part hpart
      obtain ⟨v, -, rfl⟩ := List.mem_map.1 hpart
      exact mt List.map_eq_nil_iff.1 v.leaves_ne_nil
    calc (array items).itemText
      _ = ",".intercalate (items.map itemText) := text_array items
      _ = ",".intercalate ((items.map fun v => v.leaves.map leafText).map ",".intercalate) := by
        rw [List.map_map]
        exact congrArg _ (List.map_congr_left ih)
      _ = ",".intercalate (items.map fun v => v.leaves.map leafText).flatten := Text.intercalate_flatten hparts
      _ = ",".intercalate ((array items).leaves.map leafText) := by
        rw [leaves_array h, List.map_flatMap, List.flatMap_def]

theorem text_array_eq_leaves (items : List Value) :
    (array items).text = ",".intercalate ((array items).leaves.map leafText) :=
  itemText_eq_leaves (array items)

/-! An array inside an array. -/

variable (before after : List Value)

/-- An array with items in it can be opened in its place. -/
theorem leaves_open (h : items ≠ []) :
    (array (before ++ [array items] ++ after)).leaves = (array (before ++ items ++ after)).leaves := by
  rw [leaves_array (by simp), leaves_array (by simp [h])]
  simp only [List.flatMap_append, List.flatMap_singleton, leaves_array h]

theorem text_open (h : items ≠ []) :
    (array (before ++ [array items] ++ after)).text = (array (before ++ items ++ after)).text := by
  rw [text_array_eq_leaves, text_array_eq_leaves, leaves_open before after h]

/-- An empty array inside an array counts as null. -/
theorem text_array_nil_eq_null :
    (array (before ++ [array []] ++ after)).text = (array (before ++ [null] ++ after)).text := by
  have hnull : (array []).itemText = null.itemText := text_array []
  simp only [text_array, List.map_append, List.map_singleton, hnull]

end Leaves

/-! ## Null and undefined -/

/-- Some null inside the value, at any depth, becomes undefined. -/
inductive ReplacesNull : Value → Value → Prop
  | here : ReplacesNull .null .undefined
  | item (before : List Value) {v w : Value} (after : List Value) (h : ReplacesNull v w) :
    ReplacesNull (.array (before ++ [v] ++ after)) (.array (before ++ [w] ++ after))
  | entry (before : List (String × Value)) (key : String) {v w : Value} (after : List (String × Value))
    (h : ReplacesNull v w) :
    ReplacesNull (.object (before ++ [(key, v)] ++ after)) (.object (before ++ [(key, w)] ++ after))

section Replacing

variable {v w : Value} {items : List Value}

/-- One replacement cannot be seen in the text of an item. -/
theorem itemText_of_replacesNull (h : ReplacesNull v w) : v.itemText = w.itemText := by
  induction h with
  | here => rfl
  | item before after _ ih =>
    rw [itemText_array, itemText_array, text_array, text_array]
    simp only [List.map_append, List.map_singleton, ih]
  | entry before key after _ _ => simp [itemText, isNil, text, chars]

theorem exists_items_of_replacesNull (h : ReplacesNull (array items) w) : ∃ items', w = array items' := by
  generalize hv : array items = v at h
  cases h with
  | here => exact nomatch hv
  | item before after _ => exact ⟨_, rfl⟩
  | entry before key after _ => exact nomatch hv

/-- Nor can any number of them be seen in the text of an array. -/
theorem text_of_replacesNull (h : Relation.ReflTransGen ReplacesNull (array items) w) :
    w.text = (array items).text := by
  have hkept : (∃ items', w = array items') ∧ w.itemText = (array items).itemText := by
    induction h with
    | refl => exact ⟨⟨items, rfl⟩, rfl⟩
    | tail _ step ih =>
      obtain ⟨⟨items', rfl⟩, htext⟩ := ih
      exact ⟨exists_items_of_replacesNull step, (itemText_of_replacesNull step).symm.trans htext⟩
  obtain ⟨⟨items', rfl⟩, htext⟩ := hkept
  exact htext

end Replacing

/-- **The text of an array flattens.** An array inside an array is written as its items would be in its place, an empty
one as null; so the text joins one text for each leaf, and undefined cannot be told from null. -/
theorem text_flattens :
    (∀ before items after : List Value, items ≠ [] →
      (array (before ++ [array items] ++ after)).text = (array (before ++ items ++ after)).text) ∧
    (∀ before after : List Value,
      (array (before ++ [array []] ++ after)).text = (array (before ++ [null] ++ after)).text) ∧
    (∀ items : List Value, (array items).text = ",".intercalate ((array items).leaves.map leafText)) ∧
    (∀ v : Value, ∀ leaf ∈ v.leaves, ∀ items, leaf = array items → items = []) ∧
    ∀ (items : List Value) (w : Value), Relation.ReflTransGen ReplacesNull (array items) w →
      w.text = (array items).text := by
  refine ⟨fun before items after => text_open before after, text_array_nil_eq_null, text_array_eq_leaves, ?_,
    fun items w => text_of_replacesNull⟩
  rintro v _ hleaf items rfl
  exact eq_nil_of_mem_leaves hleaf

/-- A list that holds null, an empty list and an object with null in it, between two items: opened in its place, and
with both nulls replaced by undefined. -/
theorem text_flattens_nested :
    let inner (nil : Value) := [nil, .array [], .object [("k", nil)]]
    let outer (nil : Value) := [.bool true, .array (inner nil), .string "x"]
    (array (outer .null)).text = (array ([.bool true] ++ inner .null ++ [.string "x"])).text ∧
      (array (outer .undefined)).text = (array (outer .null)).text ∧
      (array (outer .null)).text = "true,,,[object Object],x" := by
  intro inner outer
  have hfirst : ReplacesNull (.array (inner .null)) (.array [.undefined, .array [], .object [("k", .null)]]) :=
    .item [] [.array [], .object [("k", .null)]] .here
  have hsecond : ReplacesNull (.array [.undefined, .array [], .object [("k", .null)]]) (.array (inner .undefined)) :=
    .item [.undefined, .array []] [] (.entry [] "k" [] .here)
  have hreplaced : Relation.ReflTransGen ReplacesNull (.array (outer .null)) (.array (outer .undefined)) :=
    (Relation.ReflTransGen.single (.item [.bool true] [.string "x"] hfirst)).tail
      (.item [.bool true] [.string "x"] hsecond)
  have hleaves : (array (outer .null)).leaves = .bool true :: inner .null ++ [.string "x"] := by
    simp [outer, inner, leaves]
  refine ⟨text_flattens.1 [.bool true] (inner .null) [.string "x"] (List.cons_ne_nil _ _),
    text_flattens.2.2.2.2 _ _ hreplaced, ?_⟩
  rw [text_flattens.2.2.1, hleaves]
  simp [inner, leafText, text, chars]

end Value

end CallContract
