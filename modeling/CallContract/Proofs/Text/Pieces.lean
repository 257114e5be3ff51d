import CallContract.Text.Blank
import Mathlib.Data.List.DropRight

/-!
# What splitting and trimming undo

Each function that takes a text apart is given by what it undoes.

* Splitting undoes joining: a text has exactly one list of segments without the separator (`pieces_eq_iff`), and the
  segments of two texts with a separator in between are those of the one and those of the other (`pieces_append`).
* Trimming undoes putting blanks around a text that neither starts nor ends with one (`trim_eq_iff`).
* Dropping a character at the end undoes appending it any number of times (`dropTrailing_eq_iff`).
-/

namespace CallContract.Text

theorem map_ofList_toList (texts : List String) : (texts.map String.toList).map String.ofList = texts := by
  have h : String.ofList ∘ String.toList = id := funext fun s => String.ofList_toList
  rw [List.map_map, h, List.map_id]

/-! ## Segments -/

/-- The segments, with the separator between them and in none of them, make the text. -/
structure Splits (separator : Char) (s : String) (segments : List String) : Prop where
  ne_nil : segments ≠ []
  free : ∀ segment ∈ segments, separator ∉ segment.toList
  joined : (String.singleton separator).intercalate segments = s

section Splits

variable {separator : Char} {s t : String} {segments : List String}

/-- The pieces of a text, joined again, are the text. -/
theorem intercalate_pieces (separator : Char) (s : String) :
    (String.singleton separator).intercalate (pieces separator s) = s := by
  apply String.toList_injective
  rw [String.toList_intercalate, pieces, List.map_map]
  have h : String.toList ∘ String.ofList = id := funext fun cs => String.toList_ofList
  rw [h, List.map_id, String.toList_singleton, List.intercalate_splitOn]

theorem not_mem_of_mem_splitOn {cs segment : List Char} (h : segment ∈ cs.splitOn separator) :
    separator ∉ segment := by
  induction cs generalizing segment with
  | nil =>
    rw [List.splitOn_nil, List.mem_singleton] at h
    exact h ▸ List.not_mem_nil
  | cons c cs ih =>
    rw [List.splitOn_cons_eq_if_modifyHead] at h
    split at h
    · rcases List.mem_cons.1 h with rfl | h
      · exact List.not_mem_nil
      · exact ih h
    · rename_i hne
      cases hsplit : cs.splitOn separator with
      | nil => exact absurd hsplit (List.splitOn_ne_nil separator cs)
      | cons first rest =>
        rw [hsplit] at h ih
        rcases List.mem_cons.1 h with rfl | h
        · rw [List.mem_cons, not_or]
          exact ⟨fun heq => hne (beq_iff_eq.2 heq.symm), ih List.mem_cons_self⟩
        · exact ih (List.mem_cons_of_mem first h)

theorem splitOn_of_not_mem {cs : List Char} (h : separator ∉ cs) : cs.splitOn separator = [cs] := by
  have hsplit := List.splitOn_intercalate separator (List.forall_mem_singleton.2 h) (List.cons_ne_nil cs [])
  rwa [List.intercalate_singleton] at hsplit

theorem splitOn_eq_nil_singleton_iff {cs : List Char} : cs.splitOn separator = [[]] ↔ cs = [] := by
  refine ⟨fun h => ?_, fun h => h ▸ List.splitOn_nil separator⟩
  calc
    cs = [separator].intercalate (cs.splitOn separator) := (List.intercalate_splitOn separator).symm
    _ = [] := by rw [h, List.intercalate_singleton]

theorem splits_pieces (separator : Char) (s : String) : Splits separator s (pieces separator s) where
  ne_nil h := List.splitOn_ne_nil separator s.toList (List.map_eq_nil_iff.1 h)
  free segment h := by
    obtain ⟨cs, hcs, rfl⟩ := List.mem_map.1 h
    rw [String.toList_ofList]
    exact not_mem_of_mem_splitOn hcs
  joined := intercalate_pieces separator s

/-- **A text has one split.** -/
theorem pieces_eq_iff : pieces separator s = segments ↔ Splits separator s segments := by
  refine ⟨fun h => h ▸ splits_pieces separator s, fun h => ?_⟩
  rw [pieces, ← h.joined, String.toList_intercalate, String.toList_singleton, List.splitOn_intercalate,
    map_ofList_toList]
  · intro cs hcs
    obtain ⟨segment, hsegment, rfl⟩ := List.mem_map.1 hcs
    exact h.free segment hsegment
  · rw [ne_eq, List.map_eq_nil_iff]
    exact h.ne_nil

/-- A separator between two texts keeps their segments apart. -/
theorem pieces_append (separator : Char) (s t : String) :
    pieces separator (s ++ String.singleton separator ++ t) = pieces separator s ++ pieces separator t := by
  rw [pieces, String.toList_append, String.toList_append, String.toList_singleton, List.append_assoc,
    List.singleton_append, List.splitOn_append_cons_self, List.map_append, pieces, pieces]

end Splits

/-! ## Characters at the end -/

section End

variable {p : Char → Bool} {cs : List Char} {c : Char}

theorem rdropWhile_append {after : List Char} (h : ∀ c ∈ after, p c = true) (cs : List Char) :
    (cs ++ after).rdropWhile p = cs.rdropWhile p := by
  rw [List.rdropWhile, List.reverse_append, List.dropWhile_append_of_pos, List.rdropWhile]
  intro c hc
  exact h c (List.mem_reverse.1 hc)

theorem rdropWhile_of_getLast? (h : ∀ c, cs.getLast? = some c → p c = false) : cs.rdropWhile p = cs := by
  rw [List.rdropWhile_eq_self_iff]
  intro hne
  rw [h _ (List.getLast?_eq_some_getLast hne)]
  exact Bool.false_ne_true

theorem of_getLast?_rdropWhile (h : (cs.rdropWhile p).getLast? = some c) : p c = false := by
  have hne : cs.rdropWhile p ≠ [] := by
    intro hnil
    rw [hnil] at h
    exact nomatch h
  rw [List.getLast?_eq_some_getLast hne] at h
  obtain rfl := Option.some.inj h
  exact Bool.eq_false_iff.2 (List.rdropWhile_last_not p cs hne)

/-- **Dropping a character at the end undoes appending it.** -/
theorem dropTrailing_eq_iff {s root : String} : dropTrailing c s = root ↔
    (∃ n, s = root ++ String.ofList (List.replicate n c)) ∧ root.toList.getLast? ≠ some c := by
  have hdrop : dropTrailing c s = String.ofList (s.toList.rdropWhile (· == c)) := rfl
  rw [hdrop]
  constructor
  · rintro rfl
    rw [String.toList_ofList]
    refine ⟨⟨(s.toList.rtakeWhile (· == c)).length, ?_⟩, fun hlast => ?_⟩
    · have hall : ∀ d ∈ s.toList.rtakeWhile (· == c), d = c := by
        intro d hd
        have heq := List.mem_rtakeWhile_imp hd
        exact beq_iff_eq.1 heq
      rw [← List.eq_replicate_of_mem hall, ← String.ofList_append, List.rdropWhile_append_rtakeWhile,
        String.ofList_toList]
    · have hne := of_getLast?_rdropWhile hlast
      rw [beq_self_eq_true] at hne
      exact nomatch hne
  · rintro ⟨⟨n, rfl⟩, hlast⟩
    rw [String.toList_append, String.toList_ofList,
      rdropWhile_append fun d hd => beq_iff_eq.2 (List.eq_of_mem_replicate hd), rdropWhile_of_getLast?,
      String.ofList_toList]
    rintro d hd
    rw [beq_eq_false_iff_ne]
    rintro rfl
    exact hlast hd

end End

/-! ## Blanks around a text -/

/-- The text with nothing but blanks around it. -/
def Pads (core s : String) : Prop :=
  ∃ before after, allBlank before = true ∧ allBlank after = true ∧ s = before ++ core ++ after

/-- The text neither starts nor ends with a blank. -/
structure Trimmed (s : String) : Prop where
  head : ∀ c, s.toList.head? = some c → isBlank c = false
  last : ∀ c, s.toList.getLast? = some c → isBlank c = false

/-- The core is the text without the blanks at its ends. -/
structure TrimsTo (s core : String) : Prop where
  pads : Pads core s
  trimmed : Trimmed core

section Trim

variable {s core : String}

theorem toList_trim (s : String) : (trim s).toList = (s.toList.dropWhile isBlank).rdropWhile isBlank :=
  String.toList_ofList

/-- Blanks around a text do not matter to what is left of it. -/
theorem trim_of_pads (h : Pads core s) : trim s = trim core := by
  obtain ⟨before, after, hbefore, hafter, rfl⟩ := h
  apply String.toList_injective
  rw [toList_trim, toList_trim, String.toList_append, String.toList_append, List.append_assoc,
    List.dropWhile_append_of_pos (List.all_eq_true.1 hbefore), List.dropWhile_append]
  split
  · rename_i hnone
    rw [List.isEmpty_iff.1 hnone, List.dropWhile_eq_nil_iff.2 (List.all_eq_true.1 hafter)]
  · exact rdropWhile_append (List.all_eq_true.1 hafter) _

theorem trim_of_trimmed (h : Trimmed s) : trim s = s := by
  have hhead : s.toList.dropWhile isBlank = s.toList := by
    rw [List.dropWhile_eq_self_iff]
    intro hpos
    rw [h.head _ (List.head?_eq_getElem?.trans (List.getElem?_eq_getElem hpos))]
    exact Bool.false_ne_true
  apply String.toList_injective
  rw [toList_trim, hhead, rdropWhile_of_getLast? h.last]

theorem pads_trim (s : String) : Pads (trim s) s := by
  refine ⟨String.ofList (s.toList.takeWhile isBlank),
    String.ofList ((s.toList.dropWhile isBlank).rtakeWhile isBlank), ?_, ?_, ?_⟩
  · rw [allBlank, String.toList_ofList]
    exact List.all_takeWhile
  · rw [allBlank, String.toList_ofList, List.all_eq_true]
    exact fun c hc => List.mem_rtakeWhile_imp hc
  · apply String.toList_injective
    rw [String.toList_append, String.toList_append, toList_trim, String.toList_ofList, String.toList_ofList,
      List.append_assoc, List.rdropWhile_append_rtakeWhile, List.takeWhile_append_dropWhile]

theorem trimmed_trim (s : String) : Trimmed (trim s) where
  head c hc := by
    rw [toList_trim] at hc
    obtain ⟨rest, hrest⟩ := List.rdropWhile_prefix isBlank (s.toList.dropWhile isBlank)
    have hfirst : (s.toList.dropWhile isBlank).head? = some c := by
      rw [← hrest, List.head?_append, hc]
      rfl
    have hnot := List.head?_dropWhile_not isBlank s.toList
    rwa [hfirst] at hnot
  last c hc := by
    rw [toList_trim] at hc
    exact of_getLast?_rdropWhile hc

/-- **A text has one trimmed form.** -/
theorem trim_eq_iff : trim s = core ↔ TrimsTo s core := by
  constructor
  · rintro rfl
    exact ⟨pads_trim s, trimmed_trim s⟩
  · rintro ⟨hpads, htrimmed⟩
    rw [trim_of_pads hpads, trim_of_trimmed htrimmed]

end Trim

end CallContract.Text
