import Mathlib.Data.List.Basic

/-!
# Library — lines of a text that grows

A text is split at a separator.  What comes before the last separator are its complete lines, what
comes after it is the rest, which may still grow.

* `complete_append`: reading a text in two parts gives the same complete lines.
* `terminated_append`: lines that were terminated arrive whole, some of them earlier.
* `complete_terminated`: the complete lines of lines that were terminated, and of anything without
  a separator after them.
-/

namespace Lines

universe u
variable {α : Type u} [DecidableEq α] {sep : α}

/-- The lines that a separator ends. -/
def complete (sep : α) (text : List α) : List (List α) := (text.splitOn sep).dropLast

/-- What no separator ends. -/
def rest (sep : α) (text : List α) : List α := (text.splitOn sep).getLastD []

theorem splitOn_append (text more : List α) :
    (text ++ more).splitOn sep = complete sep text ++ (rest sep text ++ more).splitOn sep := by
  induction text with
  | nil => simp [complete, rest, List.splitOn_eq_splitOnP]
  | cons c text ih =>
    have hne := List.splitOn_ne_nil sep text
    rw [List.cons_append, List.splitOn_cons_eq_if_modifyHead]
    unfold complete rest at ih ⊢
    rw [List.splitOn_cons_eq_if_modifyHead]
    cases hsplit : text.splitOn sep with
    | nil => exact absurd hsplit hne
    | cons line lines =>
      rw [hsplit] at ih
      split
      · rw [ih, List.dropLast_cons_of_ne_nil (List.cons_ne_nil _ _), List.cons_append]
        rfl
      · rename_i hc
        cases lines with
        | nil =>
          rw [ih]
          simp [List.splitOn_cons_eq_if_modifyHead, hc]
        | cons second lines =>
          rw [ih]
          rfl

theorem splitOn_eq (text : List α) : text.splitOn sep = complete sep text ++ [rest sep text] := by
  have hne := List.splitOn_ne_nil sep text
  rw [complete, rest, List.getLastD_eq_getLast?, List.getLast?_eq_some_getLast hne,
    Option.getD_some, List.dropLast_append_getLast hne]

/-- What the rest of a text and more come to is split alone. -/
theorem complete_append (text more : List α) :
    complete sep (text ++ more) = complete sep text ++ complete sep (rest sep text ++ more) := by
  rw [complete, splitOn_append, List.dropLast_append_of_ne_nil (List.splitOn_ne_nil _ _), complete,
    complete]

theorem rest_append (text more : List α) :
    rest sep (text ++ more) = rest sep (rest sep text ++ more) := by
  have hne := List.splitOn_ne_nil sep (rest sep text ++ more)
  have hlast : ((text ++ more).splitOn sep).getLastD [] =
      ((rest sep text ++ more).splitOn sep).getLastD [] := by
    rw [splitOn_append, List.getLastD_eq_getLast?, List.getLastD_eq_getLast?,
      List.getLast?_append_of_ne_nil _ hne]
  exact hlast

theorem complete_of_notMem {text : List α} (h : sep ∉ text) :
    complete sep text = [] ∧ rest sep text = text := by
  rw [complete, rest, List.splitOn_eq_singleton h]
  exact ⟨rfl, rfl⟩

/-- Lines that are terminated are the complete ones. -/
theorem complete_terminated {lines : List (List α)} (h : ∀ line ∈ lines, sep ∉ line)
    {text : List α} (htext : sep ∉ text) :
    complete sep (lines.flatMap (· ++ [sep]) ++ text) = lines := by
  induction lines with
  | nil => exact (complete_of_notMem htext).1
  | cons line lines ih =>
    obtain ⟨hline, hlines⟩ := List.forall_mem_cons.mp h
    have hcons : ((line :: lines).flatMap (· ++ [sep]) ++ text) =
        line ++ sep :: (lines.flatMap (· ++ [sep]) ++ text) := by simp
    rw [hcons, complete, List.splitOn_append_cons_self_of_not_mem hline,
      List.dropLast_cons_of_ne_nil (List.splitOn_ne_nil _ _)]
    exact congrArg _ (ih hlines)

theorem complete_all {lines : List (List α)} (h : ∀ line ∈ lines, sep ∉ line) :
    complete sep (lines.flatMap (· ++ [sep])) = lines := by
  have hcomplete : complete sep (lines.flatMap (· ++ [sep]) ++ []) = lines :=
    complete_terminated h List.not_mem_nil
  rwa [List.append_nil] at hcomplete

theorem intercalate_append_singleton (lines : List (List α)) (line : List α) :
    [sep].intercalate (lines ++ [line]) = lines.flatMap (· ++ [sep]) ++ line := by
  induction lines with
  | nil => exact List.intercalate_singleton
  | cons first lines ih =>
    rw [List.cons_append, List.intercalate_cons_of_ne_nil (by simp), ih, List.flatMap_cons,
      List.append_assoc, List.append_assoc, List.append_assoc]

/-- Lines that are joined and ended are lines each of which is ended. -/
theorem intercalate_terminated {lines : List (List α)} (h : lines ≠ []) :
    [sep].intercalate lines ++ [sep] = lines.flatMap (· ++ [sep]) := by
  rw [← List.dropLast_append_getLast h, intercalate_append_singleton, List.flatMap_append,
    List.flatMap_singleton, List.append_assoc]

theorem intercalate_append {first second : List (List α)} (hfirst : first ≠ [])
    (hsecond : second ≠ []) :
    [sep].intercalate (first ++ second) =
      [sep].intercalate first ++ sep :: [sep].intercalate second := by
  induction first with
  | nil => exact absurd rfl hfirst
  | cons line lines ih =>
    by_cases hlines : lines = []
    · subst hlines
      rw [List.singleton_append, List.intercalate_cons_of_ne_nil hsecond,
        List.intercalate_singleton, List.append_assoc, List.singleton_append]
    · rw [List.cons_append, List.intercalate_cons_of_ne_nil (by simp [hlines]), ih hlines,
        List.intercalate_cons_of_ne_nil hlines, List.append_assoc, List.append_assoc,
        List.append_assoc]

/-- A text is its complete lines, each with its separator, and the rest. -/
theorem flatMap_complete (sep : α) (text : List α) :
    (complete sep text).flatMap (· ++ [sep]) ++ rest sep text = text := by
  rw [← intercalate_append_singleton, ← splitOn_eq, List.intercalate_splitOn]

theorem mem_of_mem_splitOn {text line : List α} {c : α} (h : line ∈ text.splitOn sep)
    (mem : c ∈ line) : c ∈ text := by
  rw [← flatMap_complete sep text, List.mem_append, List.mem_flatMap]
  rw [splitOn_eq, List.mem_append, List.mem_singleton] at h
  rcases h with h | rfl
  · exact .inl ⟨line, h, List.mem_append_left _ mem⟩
  · exact .inr mem

theorem notMem_of_mem_splitOn {text line : List α} (h : line ∈ text.splitOn sep) : sep ∉ line := by
  induction text generalizing line with
  | nil =>
    rw [List.splitOn_nil, List.mem_singleton] at h
    exact h ▸ List.not_mem_nil
  | cons c text ih =>
    rw [List.splitOn_cons_eq_if_modifyHead] at h
    split at h
    · rcases List.mem_cons.mp h with rfl | h
      · exact List.not_mem_nil
      · exact ih h
    · rename_i hc
      cases hsplit : text.splitOn sep with
      | nil => exact absurd hsplit (List.splitOn_ne_nil sep text)
      | cons first lines =>
        rw [hsplit] at h ih
        rcases List.mem_cons.mp h with rfl | h
        · have hfirst : sep ∉ first := ih List.mem_cons_self
          simpa [Ne.symm (by simpa using hc : c ≠ sep)] using hfirst
        · exact ih (List.mem_cons_of_mem _ h)

theorem notMem_rest (text : List α) : sep ∉ rest sep text := by
  have hmem : rest sep text ∈ text.splitOn sep := by
    rw [splitOn_eq]
    exact List.mem_append_right _ (List.mem_singleton_self _)
  exact notMem_of_mem_splitOn hmem

theorem rest_terminated {lines : List (List α)} (h : ∀ line ∈ lines, sep ∉ line) :
    rest sep (lines.flatMap (· ++ [sep])) = [] := by
  have htext := flatMap_complete sep (lines.flatMap (· ++ [sep]))
  rw [complete_all h] at htext
  exact List.append_right_eq_self.mp htext

/-- Terminated lines that arrive in two parts: some with the first, and the others later. -/
theorem terminated_append {lines : List (List α)} (h : ∀ line ∈ lines, sep ∉ line)
    {text more : List α} (htext : text ++ more = lines.flatMap (· ++ [sep])) :
    ∃ later, lines = complete sep text ++ later ∧
      rest sep text ++ more = later.flatMap (· ++ [sep]) := by
  refine ⟨complete sep (rest sep text ++ more), ?_, ?_⟩
  · rw [← complete_append, htext, complete_all h]
  · have hrest : rest sep (rest sep text ++ more) = [] := by
      rw [← rest_append, htext, rest_terminated h]
    have hparts := flatMap_complete sep (rest sep text ++ more)
    rw [hrest, List.append_nil] at hparts
    exact hparts.symm

end Lines
