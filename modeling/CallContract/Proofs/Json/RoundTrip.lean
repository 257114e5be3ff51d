import CallContract.Proofs.Json.Spelling
import CallContract.Proofs.Traversal

/-!
# Reading printed JSON

The text of a value without blanks reads back (`ofString?_compact`) when the value is `Readable`: no more containers
inside one another than allowed, integers of 64 bits for numbers, and members in the order of their keys. Members in
another order are read in the order of their keys (`ofString?_compact_object`).

`ReadsRaw` carries the two folds of the reader at once, characters to tokens and tokens to a tree, and `Reads` asks for
the value of the tree as well; both go through arrays and objects. Every printed value has a tree, whatever its numbers
and however deep it is (`exists_readsRaw`).
-/

namespace CallContract.Json

/-! ## Trees of tokens -/

namespace Raw

variable {ts : List Token} {tss : List (List Token)} {v : Raw} {vs : List Raw}

/-- The tokens are those of the tree, whatever containers are open around it. -/
def Builds (ts : List Token) (v : Raw) : Prop :=
  ∀ stack, ts.foldlM Builder.step ⟨stack, .value⟩ = some ⟨stack, .after v⟩

theorem ofTokens?_of_builds (h : Builds ts v) : ofTokens? ts = some v := by
  rw [ofTokens?, h []]
  rfl

theorem builds_string (units : List StringUnit) : Builds [.string units] (.string units) :=
  fun _ => rfl

theorem builds_word {chars : List Char} (h : ofWord? chars = some v) : Builds [.word chars] v := by
  intro stack
  rw [List.foldlM_cons, Builder.step, Builder.startValue?, h]
  rfl

/-! ### Containers -/

/-- The parts of a container after its first one, up to its end: a comma moves the part just read to those before it
and opens the next one, and the end takes them all. -/
theorem foldlM_parts {α : Type} (opened : List α → Builder) (read : List α → α → Builder)
    (closed : List α → Builder) {close : Token} {xs : List α}
    (hcomma : ∀ before x, (read before x).step .comma = some (opened (x :: before)))
    (hclose : ∀ before x, (read before x).step close = some (closed (x :: before).reverse))
    (h : List.Forall₂ (fun ts x => ∀ before, ts.foldlM Builder.step (opened before) = some (read before x)) tss xs)
    (before : List α) (x : α) :
    (tss.flatMap (Token.comma :: ·) ++ [close]).foldlM Builder.step (read before x) =
      some (closed (before.reverse ++ x :: xs)) := by
  induction h generalizing before x with
  | nil =>
    rw [List.flatMap_nil, List.nil_append, List.foldlM_cons, hclose, List.reverse_cons]
    rfl
  | @cons ts y tss ys hy _ ih =>
    rw [List.flatMap_cons, List.append_assoc, List.cons_append, List.foldlM_cons, hcomma]
    show (ts ++ _).foldlM Builder.step (opened (x :: before)) = _
    rw [List.foldlM_append, hy]
    show (tss.flatMap _ ++ _).foldlM Builder.step (read (x :: before) y) = _
    rw [ih, List.reverse_cons, List.append_assoc]
    rfl

/-- Behind an opening bracket the tokens of a value do what they do after a comma. -/
theorem Builds.foldlM_firstItem (h : Builds ts v) (stack : List Frame) :
    ts.foldlM Builder.step ⟨stack, .firstItem⟩ = some ⟨.array [] :: stack, .after v⟩ := by
  have hv := h (.array [] :: stack)
  cases ts with
  | nil => exact nomatch hv
  | cons t ts =>
    cases t with
    | arrayClose => exact nomatch hv
    | _ => exact hv

theorem builds_array (h : List.Forall₂ Builds tss vs) :
    Builds (.arrayOpen :: [Token.comma].intercalate tss ++ [.arrayClose]) (.array vs) := by
  intro stack
  cases h with
  | nil => rfl
  | @cons ts v tss vs hv h =>
    rw [Traversal.intercalate_cons, List.cons_append, List.foldlM_cons]
    show (ts ++ tss.flatMap (Token.comma :: ·) ++ [Token.arrayClose]).foldlM Builder.step ⟨stack, .firstItem⟩ = _
    rw [List.append_assoc, List.foldlM_append, hv.foldlM_firstItem]
    exact foldlM_parts (⟨.array · :: stack, .value⟩) (⟨.array · :: stack, .after ·⟩) (⟨stack, .after <| .array ·⟩)
      (fun _ _ => rfl) (fun _ _ => rfl) (h.imp fun _ _ hw items => hw (.array items :: stack)) [] v

/-- The tokens are those of a member: its key, a colon and its value. -/
def BuildsMember (ts : List Token) (m : List StringUnit × Raw) : Prop :=
  ∃ us, ts = .string m.1 :: .colon :: us ∧ Builds us m.2

theorem BuildsMember.foldlM_key {m : List StringUnit × Raw} (h : BuildsMember ts m) (stack : List Frame)
    (members : List (List StringUnit × Raw)) : ts.foldlM Builder.step ⟨stack, .key members⟩ =
      some ⟨.object members m.1 :: stack, .after m.2⟩ := by
  obtain ⟨us, rfl, hus⟩ := h
  exact hus (.object members m.1 :: stack)

theorem builds_object {ms : List (List StringUnit × Raw)} (h : List.Forall₂ BuildsMember tss ms) :
    Builds (.objectOpen :: [Token.comma].intercalate tss ++ [.objectClose]) (.object ms) := by
  intro stack
  cases h with
  | nil => rfl
  | @cons ts m tss ms hm h =>
    -- the first key stands where a key after a comma would, with no members before it
    have hfirst : ts.foldlM Builder.step ⟨stack, .firstKey⟩ = some ⟨.object [] m.1 :: stack, .after m.2⟩ := by
      rw [← hm.foldlM_key stack []]
      obtain ⟨us, rfl, -⟩ := hm
      rfl
    rw [Traversal.intercalate_cons, List.cons_append, List.foldlM_cons]
    show (ts ++ tss.flatMap (Token.comma :: ·) ++ [Token.objectClose]).foldlM Builder.step ⟨stack, .firstKey⟩ = _
    rw [List.append_assoc, List.foldlM_append, hfirst]
    exact foldlM_parts (⟨stack, .key ·⟩) (fun members m => ⟨.object members m.1 :: stack, .after m.2⟩)
      (⟨stack, .after <| .object ·⟩) (fun _ _ => rfl) (fun _ _ => rfl) (h.imp fun _ _ hn => hn.foldlM_key stack) [] m

end Raw

/-! ## Values of texts -/

/-- The characters are read as the tree. -/
def ReadsRaw (cs : List Char) (v : Raw) : Prop :=
  ∃ ts, Token.Lexes cs ts ∧ Raw.Builds ts v

/-- The characters are read as the value where `depth` more containers may be opened. -/
def Reads (depth : Nat) (cs : List Char) (j : Json) : Prop :=
  ∃ v, ReadsRaw cs v ∧ v.toJson? depth = some j

theorem ofString?_of_readsRaw {cs : List Char} {v : Raw} (h : ReadsRaw cs v) :
    Raw.ofString? (String.ofList cs) = some v := by
  obtain ⟨ts, hts, hv⟩ := h
  rw [Raw.ofString?, String.toList_ofList, Token.readAll?_of_lexes hts]
  exact Raw.ofTokens?_of_builds hv

theorem ofString?_of_reads {cs : List Char} {j : Json} (h : Reads maxDepth cs j) :
    ofString? (String.ofList cs) = some j := by
  obtain ⟨v, hv, hj⟩ := h
  rw [ofString?, ofString?_of_readsRaw hv]
  exact hj

variable {depth : Nat}

/-! ### Words and strings -/

theorem readsRaw_word {cs : List Char} {v : Raw} (hne : cs ≠ []) (h : cs.all Token.isWordChar = true)
    (hv : Raw.ofWord? cs = some v) : ReadsRaw cs v :=
  ⟨_, Token.lexes_word hne (List.all_eq_true.1 h), Raw.builds_word hv⟩

theorem readsRaw_null : ReadsRaw "null".toList .null :=
  readsRaw_word (by decide) rfl rfl

theorem readsRaw_bool (b : Bool) : ReadsRaw (if b then "true" else "false").toList (.bool b) := by
  cases b <;> exact readsRaw_word (by decide) rfl rfl

theorem reads_integer {n : Int} (lower : -0x8000000000000000 ≤ n) (upper : n < 0x10000000000000000) :
    Reads depth (Number.integer n).chars (.number (.integer n)) := by
  refine ⟨_, readsRaw_word (Number.integer n).chars_ne_nil (Number.integer n).all_isWordChar
    (ofWord?_of_numeral (Numeral.ofChars?_integer n)), ?_⟩
  rw [Raw.toJson?, Numeral.value?_ofInt lower upper]
  rfl

theorem exists_readsRaw_quoted (s : String) :
    ∃ units, Raw.text? units = some s ∧ ReadsRaw (quoted s) (.string units) := by
  obtain ⟨units, htext, hlex⟩ := Token.exists_lexes_quoted s
  exact ⟨units, htext, _, hlex, Raw.builds_string units⟩

theorem reads_quoted (s : String) : Reads depth (quoted s) (.string s) := by
  obtain ⟨units, htext, hread⟩ := exists_readsRaw_quoted s
  exact ⟨_, hread, by rw [Raw.toJson?, htext]; rfl⟩

/-! ### Containers -/

theorem ReadsRaw.array {parts : List (List Char)} {vs : List Raw} (h : List.Forall₂ ReadsRaw parts vs) :
    ReadsRaw (bracket '[' ']' parts) (.array vs) := by
  obtain ⟨tss, hlex, hbuild⟩ := Traversal.exists_forall₂_of_forall₂_exists h
  exact ⟨_, Token.Lexes.bracket rfl rfl hlex, Raw.builds_array hbuild⟩

/-- The characters are read as the member of a tree: its key in quotes, a colon and its value. -/
def ReadsRawMember (cs : List Char) (n : List StringUnit × Raw) : Prop :=
  ∃ ts, Token.Lexes cs ts ∧ Raw.BuildsMember ts n

theorem ReadsRaw.object {parts : List (List Char)} {ns : List (List StringUnit × Raw)}
    (h : List.Forall₂ ReadsRawMember parts ns) : ReadsRaw (bracket '\x7b' '\x7d' parts) (.object ns) := by
  obtain ⟨tss, hlex, hbuild⟩ := Traversal.exists_forall₂_of_forall₂_exists h
  exact ⟨_, Token.Lexes.bracket rfl rfl hlex, Raw.builds_object hbuild⟩

theorem exists_readsRawMember (key : String) {value : List Char} {v : Raw} (h : ReadsRaw value v) :
    ∃ units, Raw.text? units = some key ∧ ReadsRawMember (quoted key ++ ':' :: value) (units, v) := by
  obtain ⟨units, htext, hkey⟩ := Token.exists_lexes_quoted key
  obtain ⟨ts, hts, hv⟩ := h
  exact ⟨units, htext, [.string units] ++ .colon :: ts, hkey.join rfl hts, ts, rfl, hv⟩

theorem Reads.array {parts : List (List Char)} {items : List Json} (h : List.Forall₂ (Reads depth) parts items) :
    Reads (depth + 1) (bracket '[' ']' parts) (.array items) := by
  obtain ⟨vs, hread, hvalue⟩ := Traversal.exists_forall₂_of_forall₂_exists h
  refine ⟨.array vs, .array hread, ?_⟩
  rw [Raw.toJson?, Traversal.mapM_eq_some_iff.2 hvalue]
  rfl

/-- The characters are read as the member: its key in quotes, a colon and its value. -/
def ReadsMember (depth : Nat) (cs : List Char) (m : String × Json) : Prop :=
  ∃ value, cs = quoted m.1 ++ ':' :: value ∧ Reads depth value m.2

theorem ReadsMember.split {cs : List Char} {m : String × Json} (h : ReadsMember depth cs m) :
    ∃ n, ReadsRawMember cs n ∧
      ((Raw.text? n.1).bind fun key => (n.2.toJson? depth).map fun value => (key, value)) = some m := by
  obtain ⟨value, rfl, v, hv, hj⟩ := h
  obtain ⟨units, htext, hmember⟩ := exists_readsRawMember m.1 hv
  refine ⟨_, hmember, ?_⟩
  rw [htext, hj]
  rfl

/-- An object is read with its members in the order of their keys, the last of several equal ones. -/
theorem Reads.object {parts : List (List Char)} {members : List (String × Json)}
    (h : List.Forall₂ (ReadsMember depth) parts members) :
    Reads (depth + 1) (bracket '\x7b' '\x7d' parts) (ofMembers members) := by
  obtain ⟨ns, hread, hvalue⟩ := Traversal.exists_forall₂_of_forall₂_exists (h.imp fun _ _ => ReadsMember.split)
  refine ⟨.object ns, .object hread, ?_⟩
  rw [Raw.toJson?, Traversal.mapM_eq_some_iff.2 hvalue]
  rfl

/-- The text of an object is read with its members in the order of their keys when their values are read. -/
theorem reads_object {members : List (String × Json)} (h : ∀ m ∈ members, Reads depth m.2.compactChars m.2) :
    Reads (depth + 1) (Json.object members).compactChars (ofMembers members) := by
  rw [compactChars]
  refine Reads.object (List.forall₂_map_left_iff.2 ?_)
  exact List.forall₂_same.2 fun m hm => ⟨_, rfl, h m hm⟩

/-- A printed value is a JSON text. -/
theorem exists_readsRaw (j : Json) : ∃ v, ReadsRaw j.compactChars v := by
  induction j with
  | null =>
    rw [compactChars]
    exact ⟨_, readsRaw_null⟩
  | bool b =>
    rw [compactChars]
    exact ⟨_, readsRaw_bool b⟩
  | number n =>
    rw [compactChars]
    obtain ⟨v, hv⟩ := n.exists_ofWord?
    exact ⟨v, readsRaw_word n.chars_ne_nil n.all_isWordChar hv⟩
  | string s =>
    rw [compactChars]
    obtain ⟨units, -, hread⟩ := exists_readsRaw_quoted s
    exact ⟨_, hread⟩
  | array items ih =>
    rw [compactChars]
    obtain ⟨vs, hvs⟩ := Traversal.exists_forall₂ ih
    exact ⟨_, .array (List.forall₂_map_left_iff.2 hvs)⟩
  | object members ih =>
    rw [compactChars]
    have hmembers : ∀ m ∈ members, ∃ n, ReadsRawMember (quoted m.1 ++ ':' :: m.2.compactChars) n := by
      intro m hm
      obtain ⟨v, hv⟩ := ih m hm
      obtain ⟨units, -, hmember⟩ := exists_readsRawMember m.1 hv
      exact ⟨_, hmember⟩
    obtain ⟨ns, hns⟩ := Traversal.exists_forall₂ hmembers
    exact ⟨_, .object (List.forall₂_map_left_iff.2 hns)⟩

/-! ## Round trip -/

/-- A value whose text reads back where `depth` more containers may be opened: its numbers are integers of 64 bits and
its members stand in the order of their keys. -/
inductive Readable : Nat → Json → Prop
  | null {depth : Nat} : Readable depth .null
  | bool {depth : Nat} (b : Bool) : Readable depth (.bool b)
  | integer {depth : Nat} {n : Int} (lower : -0x8000000000000000 ≤ n) (upper : n < 0x10000000000000000) :
    Readable depth (.number (.integer n))
  | string {depth : Nat} (s : String) : Readable depth (.string s)
  | array {depth : Nat} {items : List Json} (h : ∀ j ∈ items, Readable depth j) : Readable (depth + 1) (.array items)
  | object {depth : Nat} {members : List (String × Json)} (sorted : Entries.Sorted members)
      (h : ∀ m ∈ members, Readable depth m.2) : Readable (depth + 1) (.object members)

theorem Readable.reads {j : Json} (h : Readable depth j) : Reads depth j.compactChars j := by
  induction h with
  | null =>
    rw [compactChars]
    exact ⟨_, readsRaw_null, by rw [Raw.toJson?]⟩
  | bool b =>
    rw [compactChars]
    exact ⟨_, readsRaw_bool b, by rw [Raw.toJson?]⟩
  | integer lower upper =>
    rw [compactChars]
    exact reads_integer lower upper
  | string s =>
    rw [compactChars]
    exact reads_quoted s
  | @array depth items _ ih =>
    rw [compactChars]
    refine Reads.array (List.forall₂_map_left_iff.2 ?_)
    exact List.forall₂_same.2 ih
  | @object depth members sorted _ ih =>
    have hread := reads_object ih
    rw [ofMembers, Entries.ofList_of_sorted sorted] at hread
    exact hread

theorem Readable.strings (depth : Nat) (texts : List String) : Readable (depth + 1) (.strings texts) := by
  refine .array fun j hj => ?_
  obtain ⟨text, -, rfl⟩ := List.mem_map.1 hj
  exact .string text

/-- A readable value is what its text reads as. -/
theorem ofString?_compact {j : Json} (h : Readable maxDepth j) : ofString? j.compact = some j :=
  ofString?_of_reads h.reads

/-- Members in any order with readable values are read in the order of their keys. -/
theorem ofString?_compact_object {members : List (String × Json)} (h : ∀ m ∈ members, Readable (maxDepth - 1) m.2) :
    ofString? (Json.object members).compact = some (ofMembers members) :=
  ofString?_of_reads (reads_object fun m hm => (h m hm).reads)

end CallContract.Json
