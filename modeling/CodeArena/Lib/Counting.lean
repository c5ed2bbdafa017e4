import Mathlib.Data.List.Basic

/-!
# Counting after a change

What becomes of a count and of an existence in a list when one of its elements is replaced,
and when a count is smaller than another one.
-/

universe u

namespace CodeArena.Lib.Counting

variable {α : Type u} {P : α → Prop} {Q : Prop} {p q : α → Bool} {i : Nat} {a b : α} {l : List α}

/-- What becomes of an existence when one element is replaced. -/
theorem exists_mem_set (ha : l[i]? = some a) (hb : P b ↔ P a ∨ Q) :
    (∃ x ∈ l.set i b, P x) ↔ (∃ x ∈ l, P x) ∨ Q := by
  induction l generalizing i with
  | nil => cases ha
  | cons x l ih =>
      cases i with
      | zero =>
          obtain rfl : x = a := Option.some.inj ha
          simp only [List.set_cons_zero, List.exists_mem_cons_iff]
          rw [hb, or_right_comm]
      | succ i =>
          simp only [List.set_cons_succ, List.exists_mem_cons_iff]
          rw [ih ha, or_assoc]

/-- What becomes of a count when an element that does not count is replaced. -/
theorem countP_set_add (ha : l[i]? = some a) (hp : p a = false) :
    (l.set i b).countP p = l.countP p + if p b then 1 else 0 := by
  obtain ⟨hlt, heq⟩ := List.getElem?_eq_some_iff.mp ha
  rw [List.countP_set hlt, heq, hp]
  exact congrArg (· + _) (Nat.sub_zero _)

/-- What implies another and is missing where the other holds counts less. -/
theorem countP_lt_countP (hpq : ∀ x ∈ l, p x = true → q x = true)
    (hex : ∃ x ∈ l, q x = true ∧ p x = false) : l.countP p < l.countP q := by
  induction l with
  | nil =>
      obtain ⟨x, hx, -⟩ := hex
      cases hx
  | cons x l ih =>
      have hrest : ∀ y ∈ l, p y = true → q y = true := fun y hy ↦ hpq y (List.mem_cons_of_mem _ hy)
      rw [List.countP_cons, List.countP_cons]
      obtain ⟨y, hy, hqy, hpy⟩ := hex
      rcases List.mem_cons.mp hy with rfl | hy
      · rw [hqy, hpy]
        exact Nat.lt_succ_of_le (List.countP_mono_left hrest)
      · have hlt := ih hrest ⟨y, hy, hqy, hpy⟩
        have hle : (if p x then 1 else 0) ≤ if q x then 1 else 0 := by
          cases hx : p x with
          | false => exact Nat.zero_le _
          | true =>
              exact Nat.le_of_eq (by rw [hpq x List.mem_cons_self hx])
        exact Nat.add_lt_add_of_lt_of_le hlt hle

end CodeArena.Lib.Counting
