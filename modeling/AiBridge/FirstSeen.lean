import Mathlib.Data.List.Induction
import Mathlib.Data.List.Nodup
import Mathlib.Tactic.Common

namespace FirstSeen

variable {α : Type*} [DecidableEq α] {known xs ys : List α} {x : α}

/-- The members of a list that are not known yet, behind the known ones and each of them once. -/
def gather (known xs : List α) : List α :=
  xs.foldl (fun known x => if x ∈ known then known else known ++ [x]) known

@[simp]
theorem gather_nil : gather known [] = known := rfl

theorem gather_cons_of_mem (h : x ∈ known) : gather known (x :: xs) = gather known xs := by
  rw [gather, List.foldl_cons, if_pos h, gather]

theorem gather_cons_of_not_mem (h : x ∉ known) :
    gather known (x :: xs) = gather (known ++ [x]) xs := by
  rw [gather, List.foldl_cons, if_neg h, gather]

theorem gather_append : gather known (xs ++ ys) = gather (gather known xs) ys :=
  List.foldl_append

@[simp]
theorem mem_gather {y : α} : y ∈ gather known xs ↔ y ∈ known ∨ y ∈ xs := by
  induction xs generalizing known with
  | nil => simp
  | cons x xs ih =>
    by_cases hx : x ∈ known
    · rw [gather_cons_of_mem hx, ih, List.mem_cons]
      constructor
      · intro h
        rcases h with hknown | hlater
        · exact Or.inl hknown
        · exact Or.inr (Or.inr hlater)
      · intro h
        rcases h with hknown | heq | hlater
        · exact Or.inl hknown
        · exact Or.inl (heq ▸ hx)
        · exact Or.inr hlater
    · rw [gather_cons_of_not_mem hx, ih, List.mem_append, List.mem_singleton, List.mem_cons, or_assoc]

theorem nodup_gather (h : known.Nodup) : (gather known xs).Nodup := by
  induction xs generalizing known with
  | nil => exact h
  | cons x xs ih =>
    by_cases hx : x ∈ known
    · rw [gather_cons_of_mem hx]
      exact ih h
    · rw [gather_cons_of_not_mem hx]
      have hmore : (known ++ [x]).Nodup := by
        rw [← List.concat_eq_append]
        exact h.concat hx
      exact ih hmore

/-- What is gathered behind the known ones is what is gathered from nothing, less the known ones. -/
theorem gather_eq_append : gather known xs = known ++ (gather [] xs).filter (· ∉ known) := by
  induction xs using List.reverseRecOn with
  | nil => simp
  | append_singleton xs x ih =>
    rw [gather_append, gather_append, ih]
    by_cases hx : x ∈ gather [] xs
    · have hfound : x ∈ known ++ (gather [] xs).filter (· ∉ known) := by
        rw [← ih, mem_gather]
        exact Or.inr (by simpa using hx)
      rw [gather_cons_of_mem hx, gather_cons_of_mem hfound, gather_nil, gather_nil]
    · rw [gather_cons_of_not_mem hx, gather_nil, List.filter_append, ← List.append_assoc]
      by_cases hknown : x ∈ known
      · have hfound : x ∈ known ++ (gather [] xs).filter (· ∉ known) :=
          List.mem_append_left _ hknown
        rw [gather_cons_of_mem hfound, gather_nil]
        simp [hknown]
      · have hfresh : x ∉ known ++ (gather [] xs).filter (· ∉ known) := by
          rw [← ih, mem_gather]
          intro h
          rcases h with h | h
          · exact hknown h
          · exact hx (mem_gather.mpr (Or.inr h))
        rw [gather_cons_of_not_mem hfresh, gather_nil]
        simp [hknown]

end FirstSeen
