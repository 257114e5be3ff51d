import CallContract.Proofs.Value.Normal

/-!
# Equality of values

Equality compares numbers by the arithmetic standard and functions by identity. It is symmetric and transitive
(`isSame_symm`, `isSame_trans`), and a value equals itself when not-a-number is nowhere inside it (`isSame_self_iff`).
Equal values differ in the signs of zeros only, at any depth, if functions are equal as copies only; so they are of one
kind, count alike as given and are written alike, as texts and as JSON (`isSame_congruence`).

`isSame_induction` is the induction on two equal values that all of this goes by.
-/

namespace CallContract

/-! ## Equal numbers -/

namespace Binary64

variable {x y : Binary64}

theorem withoutSignedZero_of_isZero (h : x.isZero = true) : x.withoutSignedZero = zero false :=
  if_pos h

theorem withoutSignedZero_of_not_isZero (h : ¬x.isZero = true) : x.withoutSignedZero = x :=
  if_neg h

theorem isZero_withoutSignedZero (x : Binary64) : x.withoutSignedZero.isZero = x.isZero := by
  by_cases h : x.isZero = true
  · rw [withoutSignedZero_of_isZero h, h]
    rfl
  · rw [withoutSignedZero_of_not_isZero h]

/-- Equal numbers are those that the sign of zero alone tells apart, not-a-number excepted. -/
theorem ieeeEq_iff : x.ieeeEq y = true ↔ x ≠ .nan ∧ x.withoutSignedZero = y.withoutSignedZero := by
  have hunfold : x.ieeeEq y = true ↔ x ≠ .nan ∧ (x = y ∨ x.isZero = true ∧ y.isZero = true) := by
    cases x <;> simp [ieeeEq]
  rw [hunfold]
  refine and_congr_right fun _ => ⟨?_, fun h => ?_⟩
  · rintro (rfl | ⟨hx, hy⟩)
    · rfl
    · rw [withoutSignedZero_of_isZero hx, withoutSignedZero_of_isZero hy]
  · have hzero : x.isZero = y.isZero := by rw [← isZero_withoutSignedZero x, h, isZero_withoutSignedZero]
    by_cases hx : x.isZero = true
    · exact .inr ⟨hx, hzero ▸ hx⟩
    · rw [withoutSignedZero_of_not_isZero hx, withoutSignedZero_of_not_isZero (hzero ▸ hx)] at h
      exact .inl h

theorem ieeeEq_symm (h : x.ieeeEq y = true) : y.ieeeEq x = true := by
  obtain ⟨hx, heq⟩ := ieeeEq_iff.1 h
  refine ieeeEq_iff.2 ⟨?_, heq.symm⟩
  rintro rfl
  by_cases hzero : x.isZero = true
  · rw [withoutSignedZero_of_isZero hzero] at heq
    exact nomatch heq
  · rw [withoutSignedZero_of_not_isZero hzero] at heq
    exact hx heq

theorem ieeeEq_trans {z : Binary64} (h : x.ieeeEq y = true) (h' : y.ieeeEq z = true) : x.ieeeEq z = true :=
  ieeeEq_iff.2 ⟨(ieeeEq_iff.1 h).1, (ieeeEq_iff.1 h).2.trans (ieeeEq_iff.1 h').2⟩

theorem ieeeEq_self_iff : x.ieeeEq x = true ↔ x ≠ .nan := by
  rw [ieeeEq_iff, and_iff_left rfl]

/-- What does not look at the sign of zero does not tell equal numbers apart. -/
theorem congr_of_ieeeEq {α : Type} {f : Binary64 → α} (hf : ∀ x, f x.withoutSignedZero = f x)
    (h : x.ieeeEq y = true) : f x = f y := by
  rw [← hf x, (ieeeEq_iff.1 h).2, hf y]

theorem chars_of_integral (whole : x.isIntegral = true) (small : x.natAbs < Nat.pow 10 21) :
    x.chars = (toString x.toInt).toList := by
  cases x with
  | nan => exact nomatch whole
  | infinity negative => exact nomatch whole
  | finite negative m q canonical =>
    simp only [chars, whole, decide_eq_true small, Bool.and_self, if_true]

theorem chars_zero (negative : Bool) : (zero negative).chars = ['0'] := by
  rw [chars_of_integral (isIntegral_zero negative) (by rw [natAbs_zero]; decide), toInt_zero]
  rfl

theorem chars_withoutSignedZero (x : Binary64) : x.withoutSignedZero.chars = x.chars := by
  by_cases h : x.isZero = true
  · obtain ⟨negative, rfl⟩ := exists_eq_zero h
    rw [withoutSignedZero_of_isZero h, chars_zero, chars_zero]
  · rw [withoutSignedZero_of_not_isZero h]

/-- Zero with the opposite sign; any other number as it is. -/
def negZero (x : Binary64) : Binary64 :=
  if x.isZero then x.neg else x

theorem withoutSignedZero_negZero (x : Binary64) : x.negZero.withoutSignedZero = x.withoutSignedZero := by
  rw [negZero]
  split
  case isTrue h =>
    obtain ⟨negative, rfl⟩ := exists_eq_zero h
    rfl
  case isFalse => rfl

end Binary64

namespace Value

/-! ## Two equal values -/

section Forms

variable {a b v w : Value}

/-- A value that is equal to itself only: no number, no container and no function. -/
def isAtom : Value → Bool
  | .undefined | .null | .bool _ | .bigint _ | .string _ | .symbol _ => true
  | .number _ | .array _ | .object _ | .function _ => false

theorem isSameItems_iff {xs ys : List Value} :
    isSameItems xs ys = true ↔ List.Forall₂ (fun v w => v.isSame w = true) xs ys := by
  induction xs generalizing ys with
  | nil => cases ys <;> simp [isSameItems]
  | cons x xs ih => cases ys <;> simp [isSameItems, ih]

theorem isSameEntries_iff {es fs : List (String × Value)} :
    isSameEntries es fs = true ↔ List.Forall₂ (fun e f => e.1 = f.1 ∧ e.2.isSame f.2 = true) es fs := by
  induction es generalizing fs with
  | nil => cases fs <;> simp [isSameEntries]
  | cons e es ih => cases fs <;> simp [isSameEntries, ih]

theorem isSame_atom_iff (h : a.isAtom = true) : a.isSame b = true ↔ a = b := by
  cases a with
  | number | array | object | function => exact nomatch h
  | _ => cases b <;> simp [isSame]

theorem isSame_number_iff {x : Binary64} : (number x).isSame b = true ↔ ∃ y, b = .number y ∧ x.ieeeEq y = true := by
  cases b <;> simp [isSame]

theorem isSame_array_iff {xs : List Value} : (array xs).isSame b = true ↔
    ∃ ys, b = .array ys ∧ List.Forall₂ (fun v w => v.isSame w = true) xs ys := by
  cases b <;> simp [isSame, isSameItems_iff]

theorem isSame_object_iff {es : List (String × Value)} : (object es).isSame b = true ↔
    ∃ fs, b = .object fs ∧ List.Forall₂ (fun e f => e.1 = f.1 ∧ e.2.isSame f.2 = true) es fs := by
  cases b <;> simp [isSame, isSameEntries_iff]

theorem isSame_function_iff {f : Function} : (function f).isSame b = true ↔
    ∃ g, b = .function g ∧ f.identity = g.identity := by
  cases b <;> simp [isSame]

/-- Induction on two equal values: they are one atom, equal numbers, containers of equal parts, or functions of one
identity. -/
theorem isSame_induction {motive : Value → Value → Prop} (atom : ∀ a : Value, a.isAtom = true → motive a a)
    (number : ∀ x y : Binary64, x.ieeeEq y = true → motive (.number x) (.number y))
    (array : ∀ xs ys : List Value,
      List.Forall₂ (fun v w => v ∈ xs ∧ w ∈ ys ∧ v.isSame w = true ∧ motive v w) xs ys →
      motive (.array xs) (.array ys))
    (object : ∀ es fs : List (String × Value),
      List.Forall₂ (fun e f => e ∈ es ∧ f ∈ fs ∧ e.1 = f.1 ∧ motive e.2 f.2) es fs →
      motive (.object es) (.object fs))
    (function : ∀ f g : Function, f.identity = g.identity → motive (.function f) (.function g))
    (h : a.isSame b = true) : motive a b := by
  induction a generalizing b with
  | number x =>
    obtain ⟨y, rfl, hxy⟩ := isSame_number_iff.1 h
    exact number x y hxy
  | array xs ih =>
    obtain ⟨ys, rfl, hitems⟩ := isSame_array_iff.1 h
    refine array xs ys ((Traversal.mem_of_forall₂ hitems).imp fun v w hvw => ?_)
    exact ⟨hvw.1, hvw.2.1, hvw.2.2, ih v hvw.1 hvw.2.2⟩
  | object es ih =>
    obtain ⟨fs, rfl, hentries⟩ := isSame_object_iff.1 h
    refine object es fs ((Traversal.mem_of_forall₂ hentries).imp fun e f hef => ?_)
    exact ⟨hef.1, hef.2.1, hef.2.2.1, ih e hef.1 hef.2.2.2⟩
  | function f =>
    obtain ⟨g, rfl, hfg⟩ := isSame_function_iff.1 h
    exact function f g hfg
  | _ =>
    obtain rfl := (isSame_atom_iff rfl).1 h
    exact atom _ rfl

end Forms

/-! ## A partial equivalence -/

section Equivalence

variable {a b c v : Value}

theorem isSame_symm (h : a.isSame b = true) : b.isSame a = true := by
  refine isSame_induction (motive := fun a b => b.isSame a = true) ?atom ?number ?array ?object ?function h
  case atom => exact fun a ha => (isSame_atom_iff ha).2 rfl
  case number => exact fun x y hxy => isSame_number_iff.2 ⟨x, rfl, Binary64.ieeeEq_symm hxy⟩
  case array =>
    intro xs ys hitems
    exact isSame_array_iff.2 ⟨xs, rfl, (hitems.imp fun _ _ hvw => hvw.2.2.2).flip⟩
  case object =>
    intro es fs hentries
    exact isSame_object_iff.2 ⟨es, rfl, (hentries.imp fun _ _ hef => ⟨hef.2.2.1.symm, hef.2.2.2⟩).flip⟩
  case function => exact fun f g hfg => isSame_function_iff.2 ⟨f, rfl, hfg.symm⟩

theorem isSame_comm (a b : Value) : a.isSame b = b.isSame a :=
  Bool.eq_iff_iff.2 ⟨isSame_symm, isSame_symm⟩

theorem isSame_trans (h : a.isSame b = true) (h' : b.isSame c = true) : a.isSame c = true := by
  refine isSame_induction (motive := fun a b => ∀ c, b.isSame c = true → a.isSame c = true)
    ?atom ?number ?array ?object ?function h c h'
  case atom => exact fun a _ c hc => hc
  case number =>
    intro x y hxy c hc
    obtain ⟨z, rfl, hyz⟩ := isSame_number_iff.1 hc
    exact isSame_number_iff.2 ⟨z, rfl, Binary64.ieeeEq_trans hxy hyz⟩
  case array =>
    intro xs ys hxy c hc
    obtain ⟨zs, rfl, hyz⟩ := isSame_array_iff.1 hc
    exact isSame_array_iff.2 ⟨zs, rfl, Traversal.forall₂_trans (fun _ _ _ hvw => hvw.2.2.2 _) hxy hyz⟩
  case object =>
    intro es fs hef c hc
    obtain ⟨gs, rfl, hfg⟩ := isSame_object_iff.1 hc
    refine isSame_object_iff.2 ⟨gs, rfl, Traversal.forall₂_trans (fun e f g hef hfg => ?_) hef hfg⟩
    exact ⟨hef.2.2.1.trans hfg.1, hef.2.2.2 _ hfg.2⟩
  case function =>
    intro f g hfg c hc
    obtain ⟨k, rfl, hgk⟩ := isSame_function_iff.1 hc
    exact isSame_function_iff.2 ⟨k, rfl, hfg.trans hgk⟩

/-- Nothing inside the value is not-a-number. -/
def Numeric (v : Value) : Prop :=
  ∀ x, Within (.number x) v → x ≠ .nan

theorem numeric_array {items : List Value} : (array items).Numeric ↔ ∀ v ∈ items, v.Numeric := by
  simp only [Numeric, within_array, reduceCtorEq, false_or]
  constructor
  · intro h v hv x hx
    exact h x ⟨v, hv, hx⟩
  · rintro h x ⟨v, hv, hx⟩
    exact h v hv x hx

theorem numeric_object {entries : List (String × Value)} : (object entries).Numeric ↔ ∀ e ∈ entries, e.2.Numeric := by
  simp only [Numeric, within_object, reduceCtorEq, false_or]
  constructor
  · intro h e he x hx
    exact h x ⟨e, he, hx⟩
  · rintro h x ⟨e, he, hx⟩
    exact h e he x hx

/-- **A value equals itself when not-a-number is nowhere inside it.** -/
theorem isSame_self_iff (v : Value) : v.isSame v = true ↔ v.Numeric := by
  induction v with
  | number x =>
    rw [isSame_number_iff]
    simp [Numeric, within_iff_eq, Binary64.ieeeEq_self_iff]
  | array items ih =>
    rw [isSame, isSameItems_iff, List.forall₂_same, numeric_array]
    exact forall₂_congr ih
  | object entries ih =>
    have hself : (object entries).isSame (object entries) = true ↔ ∀ e ∈ entries, e.2.isSame e.2 = true := by
      rw [isSame, isSameEntries_iff, List.forall₂_same]
      simp
    rw [hself, numeric_object]
    exact forall₂_congr ih
  | _ => simp [Numeric, isSame, within_iff_eq]

end Equivalence

/-! ## What equal values have in common -/

section Observations

variable {a b v w : Value}

theorem kind_eq_of_isSame (h : a.isSame b = true) : a.kind = b.kind := by
  refine isSame_induction (motive := fun a b => a.kind = b.kind) ?atom ?number ?array ?object ?function h
  all_goals
    intros
    rfl

theorem isNil_eq_of_isSame (h : a.isSame b = true) : a.isNil = b.isNil := by
  refine isSame_induction (motive := fun a b => a.isNil = b.isNil) ?atom ?number ?array ?object ?function h
  all_goals
    intros
    rfl

theorem truthy_withoutSignedZero (x : Binary64) : (number x.withoutSignedZero).truthy = (number x).truthy := by
  by_cases h : x.isZero = true
  · obtain ⟨negative, rfl⟩ := Binary64.exists_eq_zero h
    rw [Binary64.withoutSignedZero_of_isZero h]
    rfl
  · rw [Binary64.withoutSignedZero_of_not_isZero h]

theorem truthy_eq_of_isSame (h : a.isSame b = true) : a.truthy = b.truthy := by
  refine isSame_induction (motive := fun a b => a.truthy = b.truthy) ?atom ?number ?array ?object ?function h
  case number =>
    intro x y hxy
    exact Binary64.congr_of_ieeeEq (f := fun x => (number x).truthy) truthy_withoutSignedZero hxy
  all_goals
    intros
    rfl

/-- Functions inside the two values that share an identity are copies of one another. -/
def CopiesOnly (a b : Value) : Prop :=
  ∀ f g, Within (.function f) a → Within (.function g) b → f.identity = g.identity → f = g

theorem CopiesOnly.item {xs ys : List Value} (h : CopiesOnly (.array xs) (.array ys)) (hv : v ∈ xs) (hw : w ∈ ys) :
    CopiesOnly v w :=
  fun f g hf hg => h f g (.item hv hf) (.item hw hg)

theorem CopiesOnly.entry {es fs : List (String × Value)} {e f : String × Value}
    (h : CopiesOnly (.object es) (.object fs)) (he : e ∈ es) (hf : f ∈ fs) : CopiesOnly e.2 f.2 :=
  fun g k hg hk => h g k (.entry he hg) (.entry hf hk)

theorem chars_eq_of_isSame (copies : CopiesOnly a b) (h : a.isSame b = true) : a.chars = b.chars := by
  refine isSame_induction (motive := fun a b => CopiesOnly a b → a.chars = b.chars)
    ?atom ?number ?array ?object ?function h copies
  case atom => exact fun a _ _ => rfl
  case number =>
    intro x y hxy _
    rw [chars, chars]
    exact Binary64.congr_of_ieeeEq Binary64.chars_withoutSignedZero hxy
  case array =>
    intro xs ys hitems copies
    rw [chars, chars]
    refine congrArg _ (Traversal.map_eq_map_of_forall₂ (hitems.imp ?_))
    rintro v w ⟨hv, hw, hsame, htext⟩
    rw [isNil_eq_of_isSame hsame, htext (copies.item hv hw)]
  case object =>
    intro es fs _ _
    rw [chars, chars]
  case function =>
    intro f g hfg copies
    rw [copies f g .self .self hfg]

/-- Equal values are one JSON document. -/
theorem toJson_eq_of_isSame (copies : CopiesOnly a b) (h : a.isSame b = true) : a.toJson = b.toJson := by
  refine isSame_induction (motive := fun a b => CopiesOnly a b → a.toJson = b.toJson)
    ?atom ?number ?array ?object ?function h copies
  case atom => exact fun a _ _ => rfl
  case number =>
    intro x y hxy _
    rw [toJson, toJson]
    exact Binary64.congr_of_ieeeEq toJson_withoutSignedZero hxy
  case array =>
    intro xs ys hitems copies
    rw [toJson, toJson]
    refine congrArg _ (Traversal.map_eq_map_of_forall₂ (hitems.imp ?_))
    rintro v w ⟨hv, hw, -, hjson⟩
    exact hjson (copies.item hv hw)
  case object =>
    intro es fs hentries copies
    rw [toJson, toJson]
    refine congrArg _ (Traversal.map_eq_map_of_forall₂ (hentries.imp ?_))
    rintro e f ⟨he, hf, hkey, hjson⟩
    rw [hkey, hjson (copies.entry he hf)]
  case function =>
    intro f g hfg copies
    rw [copies f g .self .self hfg]

end Observations

/-! ## The signs of zeros -/

section Zeros

variable {v : Value}

/-- The value with the opposite sign for every zero inside it. -/
def negZeros : Value → Value
  | .number x => .number x.negZero
  | .array items => .array (items.map fun v => negZeros v)
  | .object entries => .object (entries.map fun e => (e.1, negZeros e.2))
  | v => v
termination_by v => v
decreasing_by
  · have := List.sizeOf_lt_of_mem ‹_›
    simp; omega
  · have := Entries.sizeOf_snd_lt ‹_›
    simp; omega

theorem negZeros_of_isAtom (h : v.isAtom = true) : v.negZeros = v := by
  cases v with
  | number | array | object | function => exact nomatch h
  | _ => simp [negZeros]

/-- The signs of zeros do not matter, wherever the zeros are. -/
theorem isSame_negZeros (h : v.Numeric) : v.isSame v.negZeros = true := by
  induction v with
  | number x =>
    rw [negZeros, isSame_number_iff]
    exact ⟨_, rfl, Binary64.ieeeEq_iff.2 ⟨h x .self, (Binary64.withoutSignedZero_negZero x).symm⟩⟩
  | array items ih =>
    rw [negZeros, isSame_array_iff]
    refine ⟨_, rfl, List.forall₂_map_right_iff.2 (List.forall₂_same.2 fun v hv => ?_)⟩
    exact ih v hv fun x hx => h x (.item hv hx)
  | object entries ih =>
    rw [negZeros, isSame_object_iff]
    refine ⟨_, rfl, List.forall₂_map_right_iff.2 (List.forall₂_same.2 fun e he => ⟨rfl, ?_⟩)⟩
    exact ih e he fun x hx => h x (.entry he hx)
  | function f => simp [negZeros, isSame_function_iff]
  | _ => exact (isSame_atom_iff rfl).2 (negZeros_of_isAtom rfl).symm

end Zeros

/-! ## Congruence -/

/-- **Equality of values is a congruence**, though not of bit patterns: it is symmetric and transitive, holds of a value
and itself when not-a-number is nowhere inside, and is respected by every question that is asked about a value. -/
theorem isSame_congruence :
    (∀ a b : Value, a.isSame b = b.isSame a) ∧
    (∀ a b c : Value, a.isSame b = true → b.isSame c = true → a.isSame c = true) ∧
    (∀ v : Value, v.isSame v = true ↔ ∀ x, Within (.number x) v → x ≠ .nan) ∧
    (∀ a b : Value, a.isSame b = true → a.kind = b.kind ∧ a.truthy = b.truthy ∧
      (CopiesOnly a b → a.text = b.text ∧ a.jsonText = b.jsonText)) ∧
    (∀ v : Value, (∀ x, Within (.number x) v → x ≠ .nan) → v.isSame v.negZeros = true) ∧
    ∀ x : Binary64, x.isZero = true → x.negZero.isZero = true ∧ x.negZero.toBits ≠ x.toBits := by
  refine ⟨isSame_comm, fun a b c => isSame_trans, isSame_self_iff, fun a b h => ?_, fun v => isSame_negZeros, ?_⟩
  · refine ⟨kind_eq_of_isSame h, truthy_eq_of_isSame h, fun copies => ⟨?_, ?_⟩⟩
    · rw [text, text, chars_eq_of_isSame copies h]
    · rw [jsonText, jsonText, toJson_eq_of_isSame copies h]
  · intro x hx
    obtain ⟨negative, rfl⟩ := Binary64.exists_eq_zero hx
    cases negative <;> decide

/-- The two zeros side by side with copies of one function, under a key and in a list. -/
theorem isSame_congruence_zeros :
    let f : Function := ⟨7, some "f", .count⟩
    let a := Value.object [("k", .array [.number (.zero true), .function f, .undefined])]
    let b := Value.object [("k", .array [.number (.zero false), .function f, .undefined])]
    a.isSame b = true ∧ CopiesOnly a b ∧ a.text = b.text ∧ a.jsonText = b.jsonText := by
  intro f a b
  have hsame : a.isSame b = true := by
    simp [a, b, isSame, isSameItems, isSameEntries, Binary64.ieeeEq, Binary64.zero, Binary64.isZero]
  have hcopies : CopiesOnly a b := by
    intro g k hg hk _
    obtain rfl : g = f := by simpa [a, within_iff_eq] using hg
    obtain rfl : k = f := by simpa [b, within_iff_eq] using hk
    rfl
  exact ⟨hsame, hcopies, (isSame_congruence.2.2.2.1 a b hsame).2.2 hcopies⟩

end Value

end CallContract
