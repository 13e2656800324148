import Mathlib.Data.List.Basic

namespace ProductionStack.Separated

variable {α : Type} [BEq α] [LawfulBEq α] {x : α} {xs part : List α} {parts : List (List α)}

theorem splitOn_intercalate_eq_flatMap (h : parts ≠ []) :
    ([x].intercalate parts).splitOn x = parts.flatMap (List.splitOn x) := by
  induction parts with
  | nil => exact absurd rfl h
  | cons part parts ih =>
    by_cases hrest : parts = []
    · simp [hrest]
    · rw [List.intercalate_cons_of_ne_nil hrest, List.append_assoc, List.singleton_append,
        List.splitOn_append_cons_self, ih hrest, List.flatMap_cons]

theorem notMem_of_mem_splitOn (h : part ∈ xs.splitOn x) : x ∉ part := by
  induction xs generalizing part with
  | nil =>
    rw [List.splitOn_nil, List.mem_singleton] at h
    simp [h]
  | cons y ys ih =>
    rw [List.splitOn_cons_eq_if_modifyHead] at h
    split at h
    · rcases List.mem_cons.mp h with rfl | h
      · exact List.not_mem_nil
      · exact ih h
    next hy =>
      cases hsplit : ys.splitOn x with
      | nil => exact absurd hsplit (List.splitOn_ne_nil x ys)
      | cons first rest =>
        rw [hsplit] at h ih
        rcases List.mem_cons.mp h with rfl | h
        · have hne : x ≠ y := fun heq => hy (by simp [heq])
          simpa [hne] using ih (List.mem_cons_self)
        · exact ih (List.mem_cons_of_mem _ h)

omit [BEq α] [LawfulBEq α] in
theorem isInfix_intercalate (h : part ∈ parts) : part <:+: [x].intercalate parts := by
  induction parts with
  | nil => cases h
  | cons first parts ih =>
    by_cases hrest : parts = []
    · subst hrest
      have hsingle : [x].intercalate [first] = part := by rw [List.intercalate_singleton, List.mem_singleton.mp h]
      exact hsingle ▸ List.infix_rfl
    · rw [List.intercalate_cons_of_ne_nil hrest]
      rcases List.mem_cons.mp h with rfl | h
      · exact ⟨[], [x] ++ [x].intercalate parts, by simp⟩
      · exact (ih h).trans (List.suffix_append _ _).isInfix

theorem isInfix_of_mem_splitOn (h : part ∈ xs.splitOn x) : part <:+: xs := by
  have hwithin := isInfix_intercalate (x := x) h
  rwa [List.intercalate_splitOn] at hwithin

end ProductionStack.Separated
