import CallContract.CommandLine.Path
import CallContract.Proofs.Text.Pieces

/-!
# Extensions of paths

The last name of a path is the last segment between slashes that leads somewhere (`getLast?_names_eq_some_iff`), and
its extension is what stands behind the last dot of it, if that dot is not in front (`extension?_eq_some_iff`).
`isJson_iff` says which paths name a JSON file.
-/

namespace CallContract.CommandLine.Path

section Names

variable {path name : String}

theorem names_eq_filter_pieces (path : String) :
    names path = (Text.pieces '/' path).filter fun name => decide (name ≠ "" ∧ name ≠ ".") := by
  rw [names, Text.pieces, List.filter_map]
  congr 1
  apply List.filter_congr
  intro cs _
  have hofList : ∀ ds, String.ofList cs = String.ofList ds ↔ cs = ds := fun ds => String.ofList_inj
  have hnil := hofList []
  have hdot := hofList ['.']
  rw [Bool.eq_iff_iff]
  simp only [Function.comp_apply, Bool.and_eq_true, Bool.not_eq_true', List.isEmpty_eq_false_iff, bne_iff_ne,
    decide_eq_true_iff, ne_eq]
  exact and_congr (not_congr hnil.symm) (not_congr hdot.symm)

/-- The last name of a path has only empty segments and single dots behind it. -/
theorem getLast?_names_eq_some_iff : (names path).getLast? = some name ↔ (name ≠ "" ∧ name ≠ ".") ∧
    ∃ before after, Text.Splits '/' path (before ++ name :: after) ∧ ∀ other ∈ after, other = "" ∨ other = "." := by
  have hidle : ∀ other : String, (!decide (other ≠ "" ∧ other ≠ ".")) = true ↔ other = "" ∨ other = "." := by
    intro other
    simp only [Bool.not_eq_true', decide_eq_false_iff_not]
    tauto
  rw [names_eq_filter_pieces, List.getLast?_filter, List.find?_eq_some_iff_append, decide_eq_true_iff]
  simp only [hidle, List.reverse_eq_append_iff, List.reverse_cons, List.append_assoc, List.singleton_append,
    Text.pieces_eq_iff]
  refine and_congr_right fun _ => ⟨?_, ?_⟩
  · rintro ⟨as, bs, hsplits, has⟩
    exact ⟨bs.reverse, as.reverse, hsplits, fun other hother => has other (List.mem_reverse.1 hother)⟩
  · rintro ⟨before, after, hsplits, hafter⟩
    refine ⟨after.reverse, before.reverse, ?_, fun other hother => hafter other (List.mem_reverse.1 hother)⟩
    rwa [List.reverse_reverse, List.reverse_reverse]

end Names

/-! ## Extensions -/

section Extensions

variable {path extension : String}

theorem extension?_of_not_mem {name : String} (h : (names path).getLast? = some name) (hfree : '.' ∉ name.toList) :
    extension? path = none := by
  unfold extension?
  split
  · rfl
  · rfl
  · rename_i hlast
    obtain rfl := Option.some.inj (h.symm.trans hlast)
    rw [Text.splitOn_of_not_mem hfree]
    rfl

/-- A name with a dot has an extension, unless its last dot is its first character. -/
theorem extension?_of_dot {stem : String} (hfree : '.' ∉ extension.toList) (hdots : stem ++ "." ++ extension ≠ "..")
    (h : (names path).getLast? = some (stem ++ "." ++ extension)) :
    extension? path = if stem = "" then none else some extension := by
  have hsplit : (stem ++ "." ++ extension).toList.splitOn '.' = stem.toList.splitOn '.' ++ [extension.toList] := by
    rw [String.toList_append, String.toList_append, List.append_assoc, ← Text.splitOn_of_not_mem hfree]
    exact List.splitOn_append_cons_self stem.toList extension.toList
  obtain ⟨more, piece, hstem⟩ := (List.eq_nil_or_concat (stem.toList.splitOn '.')).resolve_left
    (List.splitOn_ne_nil '.' stem.toList)
  have hempty : more = [] ∧ piece = [] ↔ stem = "" := by
    have hpieces : stem.toList.splitOn '.' = [[]] ↔ stem.toList = [] := Text.splitOn_eq_nil_singleton_iff
    rw [← String.toList_eq_nil_iff, ← hpieces, hstem]
    simp [List.append_eq_singleton_iff]
  unfold extension?
  split
  · rename_i hlast
    exact nomatch h.symm.trans hlast
  · rename_i hlast
    exact absurd (Option.some.inj (h.symm.trans hlast)) hdots
  · rename_i hlast
    obtain rfl := Option.some.inj (h.symm.trans hlast)
    rw [hsplit, hstem]
    simp [hempty]

theorem exists_stem {name : String} (h : '.' ∈ name.toList) :
    ∃ stem extension : String, name = stem ++ "." ++ extension ∧ '.' ∉ extension.toList := by
  obtain ⟨last, stem, hname, hfree⟩ := List.eq_append_cons_of_mem (List.mem_reverse.2 h)
  refine ⟨String.ofList stem.reverse, String.ofList last.reverse, ?_, by simpa using hfree⟩
  rw [← String.toList_inj, ← List.reverse_reverse name.toList, hname]
  simp

/-- The extension of a path is what stands behind the last dot of its last name, unless that dot is in front. -/
theorem extension?_eq_some_iff : extension? path = some extension ↔ ∃ stem : String,
    (names path).getLast? = some (stem ++ "." ++ extension) ∧ stem ≠ "" ∧ '.' ∉ extension.toList ∧
      stem ++ "." ++ extension ≠ ".." := by
  constructor
  · intro h
    cases hlast : (names path).getLast? with
    | none => simp [extension?, hlast] at h
    | some name =>
      have hdots : name ≠ ".." := by
        rintro rfl
        simp [extension?, hlast] at h
      have hdot : '.' ∈ name.toList := by
        by_contra hfree
        exact nomatch (extension?_of_not_mem hlast hfree).symm.trans h
      obtain ⟨stem, extension', rfl, hfree⟩ := exists_stem hdot
      rw [extension?_of_dot hfree hdots hlast] at h
      by_cases hstem : stem = ""
      · rw [if_pos hstem] at h
        exact nomatch h
      · rw [if_neg hstem] at h
        obtain rfl := Option.some.inj h
        exact ⟨stem, rfl, hstem, hfree, hdots⟩
  · rintro ⟨stem, hlast, hstem, hfree, hdots⟩
    rw [extension?_of_dot hfree hdots hlast, if_neg hstem]

/-- The path names a JSON file: its last name that leads somewhere is a stem, a dot, and `json` in letters of either
case. -/
def NamesJson (path : String) : Prop :=
  ∃ before stem extension after, Text.Splits '/' path (before ++ (stem ++ "." ++ extension) :: after) ∧ stem ≠ "" ∧
    extension.toList.map Char.toLower = "json".toList ∧ ∀ name ∈ after, name = "" ∨ name = "."

theorem isJson_iff_extension : isJson path = true ↔
    ∃ extension, extension? path = some extension ∧ extension.toList.map Char.toLower = "json".toList := by
  rw [isJson, Option.any_eq_true]
  simp only [beq_iff_eq]

theorem isJson_iff : isJson path = true ↔ NamesJson path := by
  rw [isJson_iff_extension]
  constructor
  · rintro ⟨extension, hextension, hlower⟩
    obtain ⟨stem, hlast, hstem, -, -⟩ := extension?_eq_some_iff.1 hextension
    obtain ⟨-, before, after, hsplits, hafter⟩ := getLast?_names_eq_some_iff.1 hlast
    exact ⟨before, stem, extension, after, hsplits, hstem, hlower, hafter⟩
  · rintro ⟨before, stem, extension, after, hsplits, hstem, hlower, hafter⟩
    have hlength : extension.toList.length = 4 := by
      simpa using congrArg List.length hlower
    have hfree : '.' ∉ extension.toList := by
      intro hdot
      have hmem : Char.toLower '.' ∈ extension.toList.map Char.toLower := List.mem_map_of_mem hdot
      rw [hlower] at hmem
      exact absurd hmem (by decide)
    have hlong : ∀ short : String, short.toList.length < 4 → stem ++ "." ++ extension ≠ short := by
      rintro _ hshort rfl
      simp only [String.toList_append, List.length_append] at hshort
      omega
    refine ⟨extension, extension?_eq_some_iff.2 ⟨stem, ?_, hstem, hfree, hlong ".." (by decide)⟩, hlower⟩
    rw [getLast?_names_eq_some_iff]
    exact ⟨⟨hlong "" (by decide), hlong "." (by decide)⟩, before, after, hsplits, hafter⟩

example : ["a.JSON", "a/b.json/./", "a.json.yaml", "a/.json"].map isJson = [true, true, false, false] := by decide

end Extensions

end CallContract.CommandLine.Path
