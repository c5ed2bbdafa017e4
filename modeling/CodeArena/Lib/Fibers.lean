import Mathlib.Algebra.BigOperators.Finprod
import Mathlib.Algebra.Order.BigOperators.Group.List

/-!
# Counting by fibers

The members of a list that a test accepts are counted by the values of a function: only
finitely many values count any (`finite_support_countP`), and the counts of all values sum up to
the count of the accepted members (`finsum_countP`).
-/

universe u v

namespace CodeArena.Lib.Fibers

variable {α : Type u} {β : Type v} [DecidableEq β] (q : α → Bool) (f : α → β)

/-- The accepted members with a value. -/
def fiberCount (xs : List α) (b : β) : Nat := xs.countP fun x ↦ q x && f x = b

/-- The values of a list are all that count. -/
theorem support_fiberCount (xs : List α) :
    Function.support (fiberCount q f xs) ⊆ ((xs.map f).toFinset : Set β) := by
  intro b hb
  obtain ⟨x, hx, hxb⟩ := List.countP_pos_iff.mp (Nat.pos_of_ne_zero hb)
  have hf : f x = b := of_decide_eq_true (Bool.and_eq_true_iff.mp hxb).2
  exact List.mem_toFinset.mpr (List.mem_map.mpr ⟨x, hx, hf⟩)

theorem finite_support_countP (xs : List α) : (Function.support (fiberCount q f xs)).Finite :=
  (Finset.finite_toSet _).subset (support_fiberCount q f xs)

/-- The counts over finitely many values that include all of the list. -/
theorem sum_fiberCount (xs : List α) {s : Finset β} (h : ∀ x ∈ xs, f x ∈ s) :
    ∑ b ∈ s, fiberCount q f xs b = xs.countP q := by
  induction xs with
  | nil => exact Finset.sum_const_zero
  | cons x xs ih =>
      have hstep (b : β) : fiberCount q f (x :: xs) b =
          fiberCount q f xs b + if f x = b then (if q x then 1 else 0) else 0 := by
        rw [fiberCount, fiberCount, List.countP_cons]
        by_cases hx : f x = b <;> simp [hx]
      simp only [hstep, Finset.sum_add_distrib]
      rw [ih fun y hy ↦ h y (List.mem_cons_of_mem x hy), Finset.sum_ite_eq,
        if_pos (h x List.mem_cons_self), List.countP_cons]

/-- **The counts of all values sum up to the count of the list.** -/
theorem finsum_countP (xs : List α) : ∑ᶠ b, fiberCount q f xs b = xs.countP q := by
  rw [finsum_eq_sum_of_support_subset _ (support_fiberCount q f xs)]
  exact sum_fiberCount q f xs fun x hx ↦ List.mem_toFinset.mpr (List.mem_map_of_mem hx)

end CodeArena.Lib.Fibers
