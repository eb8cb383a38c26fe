import RaftAdmin.Proofs.Text.Split

/-!
# The lines of a text

A text is taken apart into lines and put together from lines again. A carriage return just before a
line feed goes with it, any other one belongs to its line, and nothing more is lost.

## What is proved

* `lines_line` — the first line of a text, and the text after it.
* `lines_last` — a text without line feeds is one line, unless it is empty.
* `newline_notMem_of_mem_lines` — lines hold no line feeds.
* `lines_unlines` — what is put together from lines has these lines.
-/

namespace RaftAdmin.Text

variable {line rest : List Char} {s l : String} {ls : List String}

/-! ### Carriage returns -/

theorem dropReturn_append (line : List Char) : dropReturn (line ++ ['\r']) = line := by
  rw [dropReturn, dropBack?_append]

/-- A line that does not end with a carriage return loses nothing. -/
theorem dropReturn_eq_self (h : line.getLast? ≠ some '\r') : dropReturn line = line := by
  cases line using List.reverseRecOn with
  | nil => rfl
  | append_singleton front c =>
    rw [List.getLast?_concat, ne_eq, Option.some.injEq] at h
    simp [dropReturn, dropBack?, dropFront?, Ne.symm h]

theorem dropReturn_prefix (line : List Char) : dropReturn line <+: line := by
  by_cases h : line.getLast? = some '\r'
  · obtain ⟨front, rfl⟩ := List.getLast?_eq_some_iff.mp h
    rw [dropReturn_append]
    exact List.prefix_append _ _
  · exact (dropReturn_eq_self h).symm ▸ List.prefix_refl line

/-! ### Taking a text apart -/

/-- What precedes the first line feed is the first line, and the others are those of the rest. -/
theorem lines_line (h : '\n' ∉ line) (rest : List Char) :
    lines (String.ofList (line ++ '\n' :: rest))
      = String.ofList (dropReturn line) :: lines (String.ofList rest) := by
  have hsplit : splitBy (· == '\n') (line ++ '\n' :: rest) = line :: splitBy (· == '\n') rest := by
    rw [splitBy_eq_splitOnP, splitBy_eq_splitOnP]
    refine List.splitOnP_append_cons_of_forall_mem (fun c hc => ?_) '\n' (by rfl) rest
    exact beq_eq_false_iff_ne.mpr fun heq => h (heq ▸ hc)
  rw [lines, lines, String.toList_ofList, String.toList_ofList, hsplit]
  cases hrest : splitBy (· == '\n') rest with
  | nil =>
    rw [splitBy_eq_splitOnP] at hrest
    exact absurd hrest (List.splitOnP_ne_nil _ _)
  | cons part parts => rfl

/-- A text without line feeds is one line, unless it is empty. -/
theorem lines_last (h : '\n' ∉ s.toList) : lines s = if s = "" then [] else [s] := by
  have hsplit : splitBy (· == '\n') s.toList = [s.toList] :=
    splitBy_of_forall fun c hc => beq_eq_false_iff_ne.mpr fun heq => h (heq ▸ hc)
  rw [lines, hsplit, lineParts]
  by_cases hs : s = ""
  · subst hs
    rfl
  · have hne : s.toList.isEmpty = false := by simpa using hs
    rw [hne, if_neg Bool.false_ne_true, if_neg hs, List.map_singleton, String.ofList_toList]

/-- A line is the beginning of a part between two line feeds. -/
theorem exists_prefix_of_mem_lineParts {parts : List (List Char)} (h : line ∈ lineParts parts) :
    ∃ part ∈ parts, line <+: part := by
  induction parts with
  | nil => cases h
  | cons part parts ih =>
    cases parts with
    | nil =>
      rw [lineParts] at h
      split at h
      · cases h
      · exact ⟨line, h, List.prefix_rfl⟩
    | cons next parts =>
      rcases List.mem_cons.mp h with rfl | h
      · exact ⟨part, List.mem_cons_self, dropReturn_prefix part⟩
      · obtain ⟨found, hfound, hstart⟩ := ih h
        exact ⟨found, List.mem_cons_of_mem part hfound, hstart⟩

/-- Lines hold no line feeds. -/
theorem newline_notMem_of_mem_lines (h : l ∈ lines s) : '\n' ∉ l.toList := by
  obtain ⟨line, hline, rfl⟩ := List.mem_map.mp h
  obtain ⟨part, hpart, hstart⟩ := exists_prefix_of_mem_lineParts hline
  rw [String.toList_ofList]
  exact fun hmem => by simpa using not_sep_of_mem_splitBy hpart '\n' (hstart.subset hmem)

/-! ### Putting lines together -/

/-- Lines, each with its end. -/
def unlines (lines : List String) : String := String.join (lines.map (· ++ "\n"))

theorem toList_unlines_cons (l : String) (ls : List String) :
    (unlines (l :: ls)).toList = l.toList ++ '\n' :: (unlines ls).toList := by
  simp [unlines, String.join_cons]

/-- What is put together from lines has these lines. -/
theorem lines_unlines (hnewline : ∀ l ∈ ls, '\n' ∉ l.toList)
    (hreturn : ∀ l ∈ ls, l.toList.getLast? ≠ some '\r') : lines (unlines ls) = ls := by
  induction ls with
  | nil => rfl
  | cons l ls ih =>
    obtain ⟨hl, hls⟩ := List.forall_mem_cons.mp hnewline
    obtain ⟨hlast, hlasts⟩ := List.forall_mem_cons.mp hreturn
    rw [← String.ofList_toList (s := unlines (l :: ls)), toList_unlines_cons, lines_line hl,
      dropReturn_eq_self hlast, String.ofList_toList, String.ofList_toList, ih hls hlasts]

end RaftAdmin.Text
