import Mathlib.Data.List.Forall2

/-!
# Lists read item by item

Reading a list with a reader that may fail succeeds exactly when every item can be read (`mapM_eq_ok_iff`), and the
first failure is the failure of the list (`mapM_eq_error_iff`). What the reader does to an item it does to the list: a
reader with a printer gives a list with a printer (`map_eq_of_mapM_eq_ok`).
-/

namespace CallContract.Traversal

variable {α β ε : Type} {f : α → Except ε β}

theorem mapM_cons_ok {x : α} {y : β} (xs : List α) (h : f x = .ok y) :
    (x :: xs).mapM f = (xs.mapM f).map (y :: ·) := by
  rw [List.mapM_cons, h]
  cases xs.mapM f <;> rfl

theorem mapM_cons_error {x : α} {e : ε} (xs : List α) (h : f x = .error e) : (x :: xs).mapM f = .error e := by
  rw [List.mapM_cons, h]
  rfl

/-- A list can be read exactly when its items can, one result for each item. -/
theorem mapM_eq_ok_iff {xs : List α} {ys : List β} :
    xs.mapM f = .ok ys ↔ List.Forall₂ (fun x y => f x = .ok y) xs ys := by
  induction xs generalizing ys with
  | nil =>
    rw [List.forall₂_nil_left_iff]
    exact ⟨fun h => (Except.ok.inj h).symm, fun h => h ▸ rfl⟩
  | cons x xs ih =>
    rw [List.forall₂_cons_left_iff]
    cases hx : f x with
    | error e =>
      rw [mapM_cons_error xs hx]
      exact ⟨nofun, fun ⟨_, _, h, _⟩ => nomatch h⟩
    | ok y =>
      rw [mapM_cons_ok xs hx]
      constructor
      · intro h
        cases hxs : xs.mapM f with
        | error e => rw [hxs] at h; exact nomatch h
        | ok zs =>
          rw [hxs] at h
          exact ⟨y, zs, rfl, ih.1 hxs, (Except.ok.inj h).symm⟩
      · rintro ⟨z, zs, hz, hzs, rfl⟩
        rw [ih.2 hzs, Except.ok.inj hz]
        rfl

/-- Items that can be read one by one can be read as a list. -/
theorem exists_mapM_eq_ok {xs : List α} (h : ∀ x ∈ xs, ∃ y, f x = .ok y) : ∃ ys, xs.mapM f = .ok ys := by
  induction xs with
  | nil => exact ⟨[], rfl⟩
  | cons x xs ih =>
    obtain ⟨y, hy⟩ := h x List.mem_cons_self
    obtain ⟨ys, hys⟩ := ih fun z hz => h z (List.mem_cons_of_mem x hz)
    exact ⟨y :: ys, by rw [mapM_cons_ok xs hy, hys]; rfl⟩

/-- Items of a list that can be read can be read one by one. -/
theorem exists_of_mapM_eq_ok {xs : List α} {ys : List β} (h : xs.mapM f = .ok ys) : ∀ x ∈ xs, ∃ y, f x = .ok y := by
  induction mapM_eq_ok_iff.1 h with
  | nil => nofun
  | cons hxy _ ih => exact List.forall_mem_cons.2 ⟨⟨_, hxy⟩, ih (mapM_eq_ok_iff.2 ‹_›)⟩

/-- A list in which everything before some item can be read fails like that item. -/
theorem mapM_append_error {x : α} {e : ε} {good : List α} (rest : List α) (hgood : ∀ z ∈ good, ∃ y, f z = .ok y)
    (h : f x = .error e) : (good ++ x :: rest).mapM f = .error e := by
  induction good with
  | nil => exact mapM_cons_error rest h
  | cons z good ih =>
    obtain ⟨y, hy⟩ := hgood z List.mem_cons_self
    rw [List.cons_append, mapM_cons_ok _ hy, ih fun w hw => hgood w (List.mem_cons_of_mem z hw)]
    rfl

/-- A list that cannot be read fails with its first item that cannot. -/
theorem mapM_eq_error_iff {xs : List α} {e : ε} : xs.mapM f = .error e ↔
    ∃ good x rest, xs = good ++ x :: rest ∧ (∀ z ∈ good, ∃ y, f z = .ok y) ∧ f x = .error e := by
  constructor
  · intro h
    induction xs with
    | nil => exact nomatch h
    | cons x xs ih =>
      cases hx : f x with
      | error e' =>
        rw [mapM_cons_error xs hx] at h
        exact ⟨[], x, xs, rfl, nofun, hx.trans (congrArg Except.error (Except.error.inj h))⟩
      | ok y =>
        have hxs : xs.mapM f = .error e := by
          rw [mapM_cons_ok xs hx] at h
          cases hxs : xs.mapM f with
          | error e' => rw [hxs] at h; exact congrArg Except.error (Except.error.inj h)
          | ok ys => rw [hxs] at h; exact nomatch h
        obtain ⟨good, z, rest, rfl, hgood, hz⟩ := ih hxs
        exact ⟨x :: good, z, rest, rfl, List.forall_mem_cons.2 ⟨⟨y, hx⟩, hgood⟩, hz⟩
  · rintro ⟨good, x, rest, rfl, hgood, hx⟩
    exact mapM_append_error rest hgood hx

/-- The item that fails is the one at the first index where reading fails. -/
theorem mapM_eq_error_iff_getElem? {xs : List α} {e : ε} : xs.mapM f = .error e ↔
    ∃ (i : Nat) (x : α), xs[i]? = some x ∧ f x = .error e ∧ ∀ j < i, ∀ z, xs[j]? = some z → ∃ y, f z = .ok y := by
  rw [mapM_eq_error_iff]
  constructor
  · rintro ⟨good, x, rest, rfl, hgood, hx⟩
    refine ⟨good.length, x, by simp, hx, fun j hj z hz => hgood z ?_⟩
    rw [List.getElem?_append_left hj] at hz
    exact List.mem_of_getElem? hz
  · rintro ⟨i, x, hi, hx, hfirst⟩
    obtain ⟨hlt, rfl⟩ := List.getElem?_eq_some_iff.1 hi
    refine ⟨xs.take i, xs[i], xs.drop (i + 1), ?_, fun z hz => ?_, hx⟩
    · rw [List.getElem_cons_drop, List.take_append_drop]
    · obtain ⟨j, hj, rfl⟩ := List.mem_take_iff_getElem.1 hz
      exact hfirst j (by omega) _ (List.getElem?_eq_getElem _)

/-- A list in two parts fails like the first part, or like the second when the first can be read. -/
theorem mapM_append_eq_error_iff {xs ys : List α} {e : ε} : (xs ++ ys).mapM f = .error e ↔
    xs.mapM f = .error e ∨ (∃ zs, xs.mapM f = .ok zs) ∧ ys.mapM f = .error e := by
  rw [List.mapM_append]
  cases xs.mapM f with
  | error e' => simp [bind, Except.bind]
  | ok zs => cases ys.mapM f <;> simp [bind, Except.bind, pure, Except.pure]

/-- A reader that a printer undoes: the printed results are the list. -/
theorem map_eq_of_mapM_eq_ok {g : β → α} (hg : ∀ x y, f x = .ok y → g y = x) {xs : List α} {ys : List β}
    (h : xs.mapM f = .ok ys) : ys.map g = xs := by
  induction mapM_eq_ok_iff.1 h with
  | nil => rfl
  | cons hxy _ ih => rw [List.map_cons, hg _ _ hxy, ih (mapM_eq_ok_iff.2 ‹_›)]

/-- Two readings, one after the other: the results in between form a list. -/
theorem exists_forall₂_of_forall₂_exists {γ : Type} {R : α → γ → Prop} {S : γ → β → Prop} {xs : List α} {ys : List β}
    (h : List.Forall₂ (fun x y => ∃ z, R x z ∧ S z y) xs ys) :
    ∃ zs, List.Forall₂ R xs zs ∧ List.Forall₂ S zs ys := by
  induction h with
  | nil => exact ⟨[], .nil, .nil⟩
  | cons hxy _ ih =>
    obtain ⟨z, hR, hS⟩ := hxy
    obtain ⟨zs, hRs, hSs⟩ := ih
    exact ⟨z :: zs, .cons hR hRs, .cons hS hSs⟩

theorem exists_forall₂ {R : α → β → Prop} {xs : List α} (h : ∀ x ∈ xs, ∃ y, R x y) : ∃ ys, List.Forall₂ R xs ys := by
  induction xs with
  | nil => exact ⟨[], .nil⟩
  | cons x xs ih =>
    obtain ⟨⟨y, hy⟩, hxs⟩ := List.forall_mem_cons.1 h
    obtain ⟨ys, hys⟩ := ih hxs
    exact ⟨y :: ys, .cons hy hys⟩

/-- The values that related lists relate are in the lists. -/
theorem mem_of_forall₂ {R : α → β → Prop} {xs : List α} {ys : List β} (h : List.Forall₂ R xs ys) :
    List.Forall₂ (fun x y => x ∈ xs ∧ y ∈ ys ∧ R x y) xs ys := by
  rw [List.forall₂_iff_get] at h ⊢
  exact ⟨h.1, fun i hx hy => ⟨List.get_mem xs ⟨i, hx⟩, List.get_mem ys ⟨i, hy⟩, h.2 i hx hy⟩⟩

theorem exists_of_mem_right {R : α → β → Prop} {xs : List α} {ys : List β} {y : β} (h : List.Forall₂ R xs ys)
    (hy : y ∈ ys) : ∃ x ∈ xs, R x y := by
  obtain ⟨i, hi, rfl⟩ := List.getElem_of_mem hy
  have hx : i < xs.length := h.length_eq.symm ▸ hi
  exact ⟨xs[i], List.getElem_mem hx, h.get hx hi⟩

/-- Relations between items, one after the other, are relations between lists. -/
theorem forall₂_trans {γ : Type} {R : α → β → Prop} {S : β → γ → Prop} {T : α → γ → Prop}
    (htrans : ∀ x y z, R x y → S y z → T x z) {xs : List α} {ys : List β} {zs : List γ} (h : List.Forall₂ R xs ys)
    (h' : List.Forall₂ S ys zs) : List.Forall₂ T xs zs := by
  induction h generalizing zs with
  | nil =>
    cases h'
    exact .nil
  | cons hxy _ ih =>
    cases h' with
    | cons hyz h' => exact .cons (htrans _ _ _ hxy hyz) (ih h')

/-- Lists whose items have equal images have equal images. -/
theorem map_eq_map_of_forall₂ {γ : Type} {f : α → γ} {g : β → γ} {xs : List α} {ys : List β}
    (h : List.Forall₂ (fun x y => f x = g y) xs ys) : xs.map f = ys.map g := by
  rw [← List.forall₂_eq_eq_eq, List.forall₂_map_left_iff, List.forall₂_map_right_iff]
  exact h

/-- Related lists are related at every index, with related values past the end. -/
theorem getD_of_forall₂ {R : α → β → Prop} {xs : List α} {ys : List β} {x : α} {y : β} (hend : R x y)
    (h : List.Forall₂ R xs ys) (i : Nat) : R (xs[i]?.getD x) (ys[i]?.getD y) := by
  induction h generalizing i with
  | nil => exact hend
  | cons hxy _ ih =>
    cases i with
    | zero => exact hxy
    | succ i => exact ih i

theorem intercalate_cons (separator : α) (xs : List α) (xss : List (List α)) :
    [separator].intercalate (xs :: xss) = xs ++ xss.flatMap (separator :: ·) := by
  induction xss generalizing xs with
  | nil => simp
  | cons ys xss ih =>
    rw [List.intercalate_cons_of_ne_nil (List.cons_ne_nil ys xss), ih]
    simp

theorem mem_or_exists_of_mem_intercalate {x : α} {separator : List α} {xss : List (List α)}
    (h : x ∈ separator.intercalate xss) : x ∈ separator ∨ ∃ xs ∈ xss, x ∈ xs := by
  induction xss with
  | nil => exact nomatch h
  | cons xs xss ih =>
    cases xss with
    | nil => exact .inr ⟨xs, List.mem_cons_self, by simpa using h⟩
    | cons ys xss =>
      rw [List.intercalate_cons_of_ne_nil (List.cons_ne_nil ys xss), List.append_assoc] at h
      rcases List.mem_append.1 h with h | h
      · exact .inr ⟨xs, List.mem_cons_self, h⟩
      rcases List.mem_append.1 h with h | h
      · exact .inl h
      · exact (ih h).imp_right fun ⟨zs, hzs, hx⟩ => ⟨zs, List.mem_cons_of_mem xs hzs, hx⟩

theorem mapM_eq_some_iff {g : α → Option β} {xs : List α} {ys : List β} :
    xs.mapM g = some ys ↔ List.Forall₂ (fun x y => g x = some y) xs ys := by
  induction xs generalizing ys with
  | nil => simp [eq_comm]
  | cons x xs ih =>
    simp only [List.mapM_cons, Option.bind_eq_bind, Option.bind_eq_some_iff, ih, List.forall₂_cons_left_iff]
    exact ⟨fun ⟨y, hy, ys, hys, he⟩ => ⟨y, ys, hy, hys, (Option.some.inj he).symm⟩,
      fun ⟨y, ys, hy, hys, he⟩ => ⟨y, hy, ys, hys, congrArg some he.symm⟩⟩

/-- Reading with an error in other words, over a list that is an image. -/
theorem mapM_map_mapError {γ ε' : Type} {g : γ → α} {f' : γ → Except ε' β} {w : ε' → ε}
    (hg : ∀ x, f (g x) = (f' x).mapError w) (xs : List γ) : (xs.map g).mapM f = (xs.mapM f').mapError w := by
  induction xs with
  | nil => rfl
  | cons x xs ih =>
    rw [List.map_cons]
    cases hx : f' x with
    | error e => rw [mapM_cons_error xs hx, mapM_cons_error _ (by rw [hg, hx]; rfl)]; rfl
    | ok y =>
      rw [mapM_cons_ok xs hx, mapM_cons_ok _ (by rw [hg, hx]; rfl), ih]
      cases xs.mapM f' <;> rfl

end CallContract.Traversal
