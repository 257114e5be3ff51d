import CallContract.Proofs.Entries
import CallContract.Proofs.Text.Bytes
import CallContract.Proofs.Value.Normal

/-!
# The order of members

An object lists its members in the order in which its text writes them. Two values are one document when they differ in
this order only (`Json.SameDocument`). The text of a value whose objects have increasing keys has increasing keys at
every level (`Value.keysIncrease_toJson`), in the order of the bytes that write them.
-/

namespace CallContract

namespace Json

/-! ## Documents -/

/-- The two are one document: they differ at most in the order in which objects list their members. -/
inductive SameDocument : Json → Json → Prop
  | null : SameDocument .null .null
  | bool (b : Bool) : SameDocument (.bool b) (.bool b)
  | number (n : Number) : SameDocument (.number n) (.number n)
  | string (s : String) : SameDocument (.string s) (.string s)
  | array {xs ys : List Json} (items : List.Forall₂ SameDocument xs ys) : SameDocument (.array xs) (.array ys)
  | object {ms ns ns' : List (String × Json)} (keys : ms.map (·.1) = ns'.map (·.1))
      (values : List.Forall₂ SameDocument (ms.map (·.2)) (ns'.map (·.2))) (perm : ns'.Perm ns) :
      SameDocument (.object ms) (.object ns)

theorem SameDocument.refl (j : Json) : j.SameDocument j := by
  induction j with
  | null => exact .null
  | bool b => exact .bool b
  | number n => exact .number n
  | string s => exact .string s
  | array items ih => exact .array (List.forall₂_same.2 ih)
  | object members ih =>
    refine .object rfl (List.forall₂_same.2 ?_) (.refl members)
    intro j hj
    obtain ⟨m, hm, rfl⟩ := List.mem_map.1 hj
    exact ih m hm

/-! ## Increasing keys -/

/-- A text in which the keys of every object increase in the order of their bytes, at every level. -/
inductive KeysIncrease : List Char → Prop
  | null : KeysIncrease Json.null.compactChars
  | bool (b : Bool) : KeysIncrease (Json.bool b).compactChars
  | number (n : Number) : KeysIncrease (Json.number n).compactChars
  | string (s : String) : KeysIncrease (Json.string s).compactChars
  | array {parts : List (List Char)} (h : ∀ part ∈ parts, KeysIncrease part) : KeysIncrease (bracket '[' ']' parts)
  | object {members : List (String × List Char)} (keys : members.Pairwise fun m n => Text.bytes m.1 < Text.bytes n.1)
      (h : ∀ m ∈ members, KeysIncrease m.2) :
      KeysIncrease (bracket '\x7b' '\x7d' (members.map fun m => quoted m.1 ++ ':' :: m.2))

end Json

namespace Value

/-- The entries of every object inside have increasing keys. -/
def Ordered (v : Value) : Prop :=
  ∀ entries, Within (.object entries) v → Entries.Sorted entries

theorem ordered_string (s : String) : (string s).Ordered := by
  intro entries h
  cases h

theorem ordered_bool (b : Bool) : (bool b).Ordered := by
  intro entries h
  cases h

theorem ordered_strings (items : List String) : (strings items).Ordered := by
  intro entries h
  rcases within_array.1 h with h | ⟨v, hv, h⟩
  · exact nomatch h
  · obtain ⟨s, _, rfl⟩ := List.mem_map.1 hv
    exact ordered_string s entries h

/-- A value made of entries under distinct keys has increasing keys as far as the entries have. -/
theorem ordered_ofEntries {entries : List (String × Value)} (distinct : (entries.map (·.1)).Nodup)
    (h : ∀ e ∈ entries, e.2.Ordered) : (ofEntries entries).Ordered := by
  intro inner hwithin
  rcases within_object.1 hwithin with heq | ⟨e, he, hwithin⟩
  · cases heq
    exact Entries.sorted_ofList distinct
  · exact h e ((Entries.ofList_perm distinct).mem_iff.1 he) inner hwithin

@[simp]
theorem toJson_strings (items : List String) : (strings items).toJson = .strings items := by
  simp [strings, Json.strings, toJson]

/-- A value made of entries under distinct keys is written with all of them. -/
theorem exists_toJson_ofEntries (entries : List (String × Value)) (distinct : (entries.map (·.1)).Nodup) :
    ∃ members, (ofEntries entries).toJson = .object members ∧
      (entries.map fun e => (e.1, e.2.toJson)).Perm members := by
  refine ⟨(Entries.ofList entries).map fun e => (e.1, e.2.toJson), by rw [ofEntries, toJson], ?_⟩
  exact (Entries.ofList_perm distinct).symm.map _

theorem keysIncrease_number (x : Binary64) : Json.KeysIncrease x.toJson.compactChars := by
  unfold Binary64.toJson
  split
  · exact .null
  · split
    · exact .number _
    · exact .number _

/-- **A value with increasing keys is written with increasing keys.** -/
theorem keysIncrease_toJson {v : Value} (h : v.Ordered) : Json.KeysIncrease v.toJson.compactChars := by
  induction v with
  | undefined => rw [toJson]; exact .null
  | null => rw [toJson]; exact .null
  | bool b => rw [toJson]; exact .bool b
  | number x => rw [toJson]; exact keysIncrease_number x
  | bigint n => rw [toJson]; exact .string _
  | string s => rw [toJson]; exact .string s
  | symbol d => rw [toJson]; exact .string _
  | array items ih =>
    rw [toJson, Json.compactChars, List.map_map]
    refine .array fun part hpart => ?_
    obtain ⟨v, hv, rfl⟩ := List.mem_map.1 hpart
    exact ih v hv fun entries hwithin => h entries (.item hv hwithin)
  | object entries ih =>
    rw [toJson, Json.compactChars, List.map_map]
    have hkeys : (entries.map fun e => (e.1, e.2.toJson.compactChars)).Pairwise
        fun m n => Text.bytes m.1 < Text.bytes n.1 :=
      List.pairwise_map.2 ((h entries .self).imp Text.lt_iff_bytes_lt.1)
    have hobject := Json.KeysIncrease.object hkeys fun m hm => by
      obtain ⟨e, he, rfl⟩ := List.mem_map.1 hm
      exact ih e he fun inner hwithin => h inner (.entry he hwithin)
    rwa [List.map_map] at hobject
  | function f => rw [toJson]; exact .string _

end Value

end CallContract
