import CallContract.Arguments
import CallContract.Proofs.Binary64
import CallContract.Proofs.Entries
import Mathlib.Data.List.Nodup
import Std.Data.String.ToNat

/-!
# Arguments and the objects that encode them

An object encodes arguments by a `length` and the entries under the decimal texts of the indices below it.
`Arguments.Declares` and `Arguments.entryAt` are these two questions to an object; decoding asks no other
(`Arguments.ofObject?_eq_some_iff`). Encoding writes exactly these entries (`Arguments.get?_toObject_eq_some_iff`),
since decimal texts of different indices differ and none is `length`. So decoding undoes encoding, as far as a length
can be read and declared (`Arguments.objectCodec`).
-/

namespace CallContract.Arguments

/-- An object with an integral number below `2^32` under `length` declares this length. -/
def Declares (object : Value) (n : Nat) : Prop :=
  ∃ entries x, object = .object entries ∧ Entries.find? entries "length" = some (.number x) ∧ x.isIntegral = true ∧
    x.toInt = n ∧ n ≤ 4294967295

/-- What an object holds for a position: the entry under the decimal text of the index, undefined without one. -/
def entryAt (object : Value) (index : Nat) : Value :=
  (object.get? (toString index)).getD .undefined

variable {object : Value} {a : Arguments} {n : Nat}

/-! ## Declared lengths -/

theorem declaredLength?_object (entries : List (String × Value)) : declaredLength? (.object entries) =
    match Entries.find? entries "length" with
    | some (.number x) => if x.isIntegral && 0 ≤ x.toInt && x.toInt ≤ maxDeclared then some x.natAbs else none
    | _ => none := by
  rw [declaredLength?, Value.get?]
  cases Entries.find? entries "length" with
  | none => rfl
  | some v => cases v <;> rfl

theorem declaredLength?_eq_some_iff : declaredLength? object = some n ↔ Declares object n := by
  constructor
  · intro h
    cases object with
    | object entries =>
      rw [declaredLength?_object] at h
      split at h
      · rename_i x hx
        split at h
        · rename_i hcond
          simp only [Bool.and_eq_true, decide_eq_true_eq] at hcond
          obtain ⟨⟨hwhole, hpos⟩, hle⟩ := hcond
          cases h
          have hint := Binary64.toInt_eq_natAbs hpos
          exact ⟨entries, x, rfl, hx, hwhole, hint, by rw [maxDeclared] at hle; omega⟩
        · exact nomatch h
      · exact nomatch h
    | _ => exact nomatch h
  · rintro ⟨entries, x, rfl, hx, hwhole, hn, hle⟩
    have hpos : 0 ≤ x.toInt := by omega
    have hmax : x.toInt ≤ (maxDeclared : Int) := by rw [maxDeclared]; omega
    have hn' : x.natAbs = n := by have := Binary64.toInt_eq_natAbs hpos; omega
    simp [declaredLength?_object, hx, hwhole, hpos, hmax, hn']

theorem Declares.truthy (h : Declares object n) : object.truthy = true := by
  obtain ⟨entries, x, rfl, _⟩ := h
  rfl

/-! ## Decoding -/

/-- The entries of an object, each looked up on its own. -/
theorem readEntries_eq (entries : List (String × Value)) (length : Nat) :
    readEntries entries length =
      .ofList ((List.range length).map fun i => (Entries.find? entries (toString i)).getD .undefined) := by
  simp only [readEntries, Entries.getElem?_index]
  rw [ofList, ← List.map_toArray, List.toArray_range]

/-- An object that declares a length which can be read encodes arguments, whatever its other entries are. -/
theorem ofObject?_object {entries : List (String × Value)} {length : Nat}
    (h : declaredLength? (.object entries) = some length) (hle : length ≤ maxRead) :
    ofObject? (.object entries) = some (readEntries entries length) := by
  rw [ofObject?, h, Option.bind_eq_bind, Option.bind_some, if_neg (Nat.not_lt_of_le hle)]

/-- An object that declares a length which can be read gives its entries for arguments. -/
theorem exists_ofObject? (h : Declares object n) (hle : n ≤ maxRead) :
    ∃ a, ofObject? object = some a ∧ a.size = n ∧ ∀ i < n, a.get? i = some (entryAt object i) := by
  obtain ⟨entries, x, rfl, _⟩ := id h
  refine ⟨_, ofObject?_object (declaredLength?_eq_some_iff.2 h) hle, ?_⟩
  rw [readEntries_eq]
  refine ⟨by simp [size, ofList], fun i hi => ?_⟩
  simp [get?, ofList, entryAt, Value.get?, hi]

theorem ofObject?_of_lt (h : Declares object n) (hlt : maxRead < n) : ofObject? object = none := by
  rw [ofObject?, declaredLength?_eq_some_iff.2 h]
  exact if_pos hlt

theorem exists_declares_of_ofObject? (h : ofObject? object = some a) : ∃ n ≤ maxRead, Declares object n := by
  cases hlength : declaredLength? object with
  | none =>
    rw [ofObject?, hlength] at h
    exact nomatch h
  | some n =>
    have hdeclares := declaredLength?_eq_some_iff.1 hlength
    refine ⟨n, Nat.le_of_not_lt fun hlt => ?_, hdeclares⟩
    rw [ofObject?_of_lt hdeclares hlt] at h
    exact nomatch h

/-- Arguments are settled by their number and the argument at each position. -/
theorem ext_get? {b : Arguments} (hsize : a.size = b.size) (h : ∀ i < a.size, a.get? i = b.get? i) : a = b := by
  have hvalues : a.values = b.values := by
    apply Array.ext_getElem?
    intro i
    by_cases hi : i < a.size
    · exact h i hi
    · rw [Array.getElem?_eq_none (Nat.le_of_not_lt hi),
        Array.getElem?_eq_none (Nat.le_of_not_lt (show ¬i < b.size from hsize ▸ hi))]
  cases a
  cases b
  exact congrArg _ hvalues

/-- **Decoding asks an object for its length and for the entries below it**, and for nothing else. -/
theorem ofObject?_eq_some_iff : ofObject? object = some a ↔
    Declares object a.size ∧ a.size ≤ maxRead ∧ ∀ i < a.size, a.get? i = some (entryAt object i) := by
  constructor
  · intro h
    obtain ⟨n, hle, hdeclares⟩ := exists_declares_of_ofObject? h
    obtain ⟨b, hb, hsize, hentries⟩ := exists_ofObject? hdeclares hle
    obtain rfl : b = a := Option.some.inj (hb.symm.trans h)
    subst hsize
    exact ⟨hdeclares, hle, hentries⟩
  · rintro ⟨hdeclares, hle, hentries⟩
    obtain ⟨b, hb, hsize, hb'⟩ := exists_ofObject? hdeclares hle
    have heq : a = b := ext_get? hsize.symm fun i hi => (hentries i hi).trans (hb' i hi).symm
    rw [hb, heq]

/-- An object that encodes arguments declares their number and is truthy. -/
theorem declaredLength?_of_ofObject? (h : ofObject? object = some a) :
    declaredLength? object = some a.size ∧ object.truthy = true := by
  obtain ⟨hdeclares, -⟩ := ofObject?_eq_some_iff.1 h
  exact ⟨declaredLength?_eq_some_iff.2 hdeclares, hdeclares.truthy⟩

/-! ## Keys -/

theorem toString_injective : Function.Injective (toString : Nat → String) :=
  fun _ _ h => Nat.repr_inj.1 h

/-- A text that is not the decimal text of its own decimal value is that of no number. -/
theorem toString_ne {key : String} (h : toString (Nat.ofDigitChars 10 key.toList 0) ≠ key) (i : Nat) :
    toString i ≠ key := by
  rintro rfl
  refine h (congrArg toString ?_)
  rw [Nat.toString_eq_repr, Nat.toList_repr, Nat.ofDigitChars_ten_toDigits]

theorem toString_ne_length (i : Nat) : toString i ≠ "length" :=
  toString_ne (by decide) i

/-! ## Encoding -/

/-- The entries of the object before they are sorted: the arguments by index, and their number. -/
def objectEntries (a : Arguments) : List (String × Value) :=
  a.toList.zipIdx.map (fun (v, i) => (toString i, v)) ++ [("length", .ofNat a.size)]

theorem mem_objectEntries_iff {key : String} {v : Value} : (key, v) ∈ a.objectEntries ↔
    (∃ i, a.get? i = some v ∧ toString i = key) ∨ key = "length" ∧ v = .ofNat a.size := by
  rw [objectEntries, List.mem_append, List.mem_singleton, Prod.mk.injEq]
  refine or_congr_left ?_
  constructor
  · intro h
    obtain ⟨⟨w, i⟩, hw, hentry⟩ := List.mem_map.1 h
    obtain ⟨rfl, rfl⟩ := Prod.mk.inj hentry
    rw [List.mem_zipIdx_iff_getElem?] at hw
    exact ⟨i, by simpa [get?, toList] using hw, rfl⟩
  · rintro ⟨i, hi, rfl⟩
    refine List.mem_map.2 ⟨(v, i), ?_, rfl⟩
    rw [List.mem_zipIdx_iff_getElem?]
    simpa [get?, toList] using hi

theorem nodup_objectEntries (a : Arguments) : (a.objectEntries.map (·.1)).Nodup := by
  have hkeys : a.objectEntries.map (·.1) = (a.toList.zipIdx.map (·.2)).map toString ++ ["length"] := by
    simp only [objectEntries, List.map_append, List.map_map]
    rfl
  rw [hkeys, List.zipIdx_map_snd, List.nodup_append]
  refine ⟨List.Nodup.map toString_injective List.nodup_range', List.nodup_singleton _, ?_⟩
  intro key hkey _ hlength
  obtain ⟨i, -, rfl⟩ := List.mem_map.1 hkey
  rw [List.mem_singleton.1 hlength]
  exact toString_ne_length i

/-- The object that encodes arguments has an entry for each of them and one for their number. -/
theorem get?_toObject_eq_some_iff {key : String} {v : Value} : a.toObject.get? key = some v ↔
    (∃ i, a.get? i = some v ∧ toString i = key) ∨ key = "length" ∧ v = .ofNat a.size := by
  have hdistinct := nodup_objectEntries a
  have hfind : a.toObject.get? key = Entries.find? a.objectEntries key := Entries.find?_ofList hdistinct key
  rw [hfind, Entries.find?, Entries.lookup_eq_some_iff hdistinct, mem_objectEntries_iff]

/-- Arguments are read back from the entries that encode them. -/
theorem entryAt_toObject {i : Nat} (hi : i < a.size) : a.get? i = some (entryAt a.toObject i) := by
  obtain ⟨v, hv⟩ : ∃ v, a.get? i = some v := ⟨_, Array.getElem?_eq_getElem hi⟩
  rw [entryAt, get?_toObject_eq_some_iff.2 (Or.inl ⟨i, hv, rfl⟩), hv]
  rfl

theorem declares_toObject (h : a.size ≤ 4294967295) : Declares a.toObject a.size := by
  have hlength := (get?_toObject_eq_some_iff (a := a)).2 (Or.inr ⟨rfl, rfl⟩)
  have hsmall : (a.size : Int).natAbs < Nat.pow 2 53 := by
    rw [show Nat.pow 2 53 = 9007199254740992 from rfl]
    omega
  obtain ⟨hwhole, hint⟩ := Binary64.toInt_ofInt hsmall
  exact ⟨_, _, rfl, hlength, hwhole, hint, h⟩

/-! ## Encoding and decoding -/

/-- How encoding and decoding fit together, for arguments and for any value. -/
structure ObjectCodec (a : Arguments) (object : Value) : Prop where
  /-- Encoded arguments are read back as they are, up to the most that are read. -/
  decode_encode : a.size ≤ 65535 → ofObject? a.toObject = some a
  /-- More of them still declare their number, as far as one can be declared, and are not read. -/
  oversized : 65535 < a.size → a.size ≤ 4294967295 →
    ofObject? a.toObject = none ∧ declaredLength? a.toObject = some a.size
  /-- A value is read exactly when it declares a length that can be read. -/
  decodable_iff : (∃ b, ofObject? object = some b) ↔ ∃ n ≤ 65535, Declares object n
  /-- What is read: as many arguments as the value declares, each the entry under the decimal text of its index. -/
  decodes_iff : ofObject? object = some a ↔
    Declares object a.size ∧ a.size ≤ 65535 ∧ ∀ i < a.size, a.get? i = some (entryAt object i)
  /-- Nothing else counts: an object that declares the same length and has the same entries under the decimal texts of
  the indices below it is read alike. -/
  unread : ofObject? object = some a → ∀ entries, Declares (.object entries) a.size →
    (∀ i < a.size, Entries.find? entries (toString i) = object.get? (toString i)) →
    ofObject? (.object entries) = some a
  /-- A sign, a leading zero and `length` itself make no decimal text of an index. -/
  other_keys : ∀ i : Nat, toString i ≠ "-1" ∧ toString i ≠ "01" ∧ toString i ≠ "length"
  /-- What is read is read again from its own object. -/
  decode_encode_decode : ofObject? object = some a → ofObject? a.toObject = some a

theorem ofObject?_toObject (h : a.size ≤ maxRead) : ofObject? a.toObject = some a :=
  ofObject?_eq_some_iff.2 ⟨declares_toObject (Nat.le_trans h (by decide)), h, fun _ => entryAt_toObject⟩

theorem ofObject?_congr {entries : List (String × Value)} (h : ofObject? object = some a)
    (hdeclares : Declares (.object entries) a.size)
    (hentries : ∀ i < a.size, Entries.find? entries (toString i) = object.get? (toString i)) :
    ofObject? (.object entries) = some a := by
  obtain ⟨-, hle, hread⟩ := ofObject?_eq_some_iff.1 h
  refine ofObject?_eq_some_iff.2 ⟨hdeclares, hle, fun i hi => ?_⟩
  rw [hread i hi, entryAt, entryAt, ← hentries i hi]
  rfl

/-- **Decoding undoes encoding**, and reads nothing but the length and the entries below it. -/
theorem objectCodec (a : Arguments) (object : Value) : ObjectCodec a object where
  decode_encode := ofObject?_toObject
  oversized hlt hle := by
    have hdeclares := declares_toObject hle
    exact ⟨ofObject?_of_lt hdeclares hlt, declaredLength?_eq_some_iff.2 hdeclares⟩
  decodable_iff := by
    constructor
    · rintro ⟨b, hb⟩
      exact exists_declares_of_ofObject? hb
    · rintro ⟨n, hle, hdeclares⟩
      obtain ⟨b, hb, -⟩ := exists_ofObject? hdeclares hle
      exact ⟨b, hb⟩
  decodes_iff := ofObject?_eq_some_iff
  unread h _ hdeclares hentries := ofObject?_congr h hdeclares hentries
  other_keys i := ⟨toString_ne (by decide) i, toString_ne (by decide) i, toString_ne_length i⟩
  decode_encode_decode h := ofObject?_toObject (ofObject?_eq_some_iff.1 h).2.1

/-- Of five entries two are read: the length, and the one under `1`. -/
theorem objectCodec_sparse :
    ofObject? (.object [("-1", .null), ("01", .null), ("1", .number .nan), ("2", .null), ("length", .ofNat 2)]) =
        some (.ofList [.undefined, .number .nan]) ∧
      ofObject? (toObject (.ofList [.undefined, .number .nan])) = some (.ofList [.undefined, .number .nan]) := by
  have codec := objectCodec (.ofList [.undefined, .number .nan])
    (.object [("-1", .null), ("01", .null), ("1", .number .nan), ("2", .null), ("length", .ofNat 2)])
  have hdeclares : Declares
      (.object [("-1", .null), ("01", .null), ("1", .number .nan), ("2", .null), ("length", .ofNat 2)]) 2 :=
    declaredLength?_eq_some_iff.1 rfl
  have hread := codec.decodes_iff.2 ⟨hdeclares, by decide, fun i hi => by
    obtain rfl | rfl : i = 0 ∨ i = 1 := by
      have : i < 2 := hi
      omega
    · rfl
    · rfl⟩
  exact ⟨hread, codec.decode_encode_decode hread⟩

end CallContract.Arguments
