import Mathlib.Data.List.Forall2

/-!
# Lists that differ in what is not looked at

Two lists that are related element by element, by a relation that keeps what a function
looks at, are the same to that function.  This file has the three ways in which a query
looks at a list: it maps it, filters it, or finds an element.  A relation that is no
equality can lose some of what is counted (`countP_lt_of_related`).
-/

universe u v w

namespace CodeArena.Lib

variable {α : Type u} {β : Type v} {R : α → α → Prop} {xs ys : List α} {p : α → Bool}

/-- A function that is the same on related elements maps related lists to one list. -/
theorem map_eq_of_related {f : α → β} (h : List.Forall₂ R xs ys)
    (hf : ∀ x y, R x y → f x = f y) : xs.map f = ys.map f := by
  induction h with
  | nil => rfl
  | cons hxy _ ih => rw [List.map_cons, List.map_cons, hf _ _ hxy, ih]

/-- The same, for a function that is so on the elements of the list. -/
theorem map_eq_of_related_mem {f : α → β} (h : List.Forall₂ R xs ys)
    (hf : ∀ x ∈ xs, ∀ y, R x y → f x = f y) : xs.map f = ys.map f := by
  induction h with
  | nil => rfl
  | @cons x y xs ys hxy _ ih =>
      rw [List.map_cons, List.map_cons, hf x List.mem_cons_self y hxy,
        ih fun x' hx' ↦ hf x' (List.mem_cons_of_mem x hx')]

/-- Filtering keeps lists related, where the filter does not tell related elements
apart. -/
theorem filter_related (h : List.Forall₂ R xs ys) (hp : ∀ x y, R x y → p x = p y) :
    List.Forall₂ R (xs.filter p) (ys.filter p) := by
  induction h with
  | nil => exact .nil
  | @cons x y xs ys hxy _ ih =>
      rw [List.filter_cons, List.filter_cons, ← hp x y hxy]
      split
      · exact .cons hxy ih
      · exact ih

/-- A filter that passes equal elements only makes related lists equal. -/
theorem filter_eq_of_related (h : List.Forall₂ R xs ys) (hp : ∀ x y, R x y → p x = p y)
    (heq : ∀ x y, R x y → p x = true → x = y) : xs.filter p = ys.filter p := by
  induction h with
  | nil => rfl
  | @cons x y xs ys hxy _ ih =>
      rw [List.filter_cons, List.filter_cons, ← hp x y hxy, ih]
      split
      · rename_i hx
        rw [heq x y hxy hx]
      · rfl

/-- What is found in related lists is related. -/
theorem find?_related (h : List.Forall₂ R xs ys) (hp : ∀ x y, R x y → p x = p y) :
    (xs.find? p = none ∧ ys.find? p = none) ∨
      ∃ x y, xs.find? p = some x ∧ ys.find? p = some y ∧ R x y := by
  induction h with
  | nil => exact .inl ⟨rfl, rfl⟩
  | @cons x y xs ys hxy _ ih =>
      rw [List.find?_cons, List.find?_cons, ← hp x y hxy]
      cases p x with
      | true => exact .inr ⟨x, y, rfl, rfl, hxy⟩
      | false => exact ih

/-- An element can be replaced by a related one that a function tells apart from it. -/
theorem exists_related_map_ne {f : α → β} (hrefl : ∀ x, R x x) {x y : α} (hx : x ∈ xs)
    (hxy : R x y) (hf : f y ≠ f x) : ∃ ys, List.Forall₂ R xs ys ∧ ys.map f ≠ xs.map f := by
  obtain ⟨l, r, rfl⟩ := List.append_of_mem hx
  have hsame : ∀ zs : List α, List.Forall₂ R zs zs := fun zs ↦
    List.forall₂_same.mpr fun z _ ↦ hrefl z
  refine ⟨l ++ y :: r, List.rel_append (hsame l) (.cons hxy (hsame r)), fun h ↦ hf ?_⟩
  rw [List.map_append, List.map_append, List.map_cons, List.map_cons] at h
  exact (List.cons.inj (List.append_cancel_left h)).1

/-! ## Lists of two types -/

section Pairs

variable {R : α → β → Prop} {xs : List α} {ys : List β} {p : α → Bool} {q : β → Bool}

theorem exists_of_mem_right (h : List.Forall₂ R xs ys) {y : β} (hy : y ∈ ys) : ∃ x ∈ xs, R x y := by
  induction h with
  | nil => cases hy
  | @cons x y' xs ys hxy _ ih =>
      rcases List.mem_cons.mp hy with rfl | hy
      · exact ⟨x, List.mem_cons_self, hxy⟩
      · obtain ⟨x', hx', hxy'⟩ := ih hy
        exact ⟨x', List.mem_cons_of_mem x hx', hxy'⟩

/-- Related lists compose. -/
theorem related_comp {γ : Type w} {S : β → γ → Prop} {T : α → γ → Prop} {zs : List γ}
    (hT : ∀ x y z, R x y → S y z → T x z) (h : List.Forall₂ R xs ys) (h' : List.Forall₂ S ys zs) :
    List.Forall₂ T xs zs := by
  induction h generalizing zs with
  | nil =>
      cases h'
      exact .nil
  | cons hxy _ ih =>
      cases h' with
      | cons hyz hrest => exact .cons (hT _ _ _ hxy hyz) (ih hrest)

/-- As many elements count on either side, where related elements count alike. -/
theorem countP_eq_of_related (h : List.Forall₂ R xs ys) (hpq : ∀ x y, R x y → p x = q y) :
    xs.countP p = ys.countP q := by
  induction h with
  | nil => rfl
  | cons hxy _ ih => rw [List.countP_cons, List.countP_cons, ih, hpq _ _ hxy]

theorem countP_le_of_related (h : List.Forall₂ R xs ys)
    (hpq : ∀ x ∈ xs, ∀ y, R x y → q y = true → p x = true) : ys.countP q ≤ xs.countP p := by
  induction h with
  | nil => exact Nat.le_refl 0
  | @cons x y xs ys hxy _ ih =>
      have hrest := ih fun x' hx' ↦ hpq x' (List.mem_cons_of_mem x hx')
      rw [List.countP_cons, List.countP_cons]
      cases hq : q y with
      | false => exact Nat.le_trans hrest (Nat.le_add_right _ _)
      | true =>
          rw [hpq x List.mem_cons_self y hxy hq]
          exact Nat.succ_le_succ hrest

/-- Fewer elements count on the right, where one that counts on the left is related to none
that does. -/
theorem countP_lt_of_related (h : List.Forall₂ R xs ys)
    (hpq : ∀ x ∈ xs, ∀ y, R x y → q y = true → p x = true)
    (hex : ∃ x ∈ xs, p x = true ∧ ∀ y, R x y → q y = false) : ys.countP q < xs.countP p := by
  induction h with
  | nil =>
      obtain ⟨x, hx, -⟩ := hex
      cases hx
  | @cons x y xs ys hxy hrest ih =>
      have hpq' : ∀ x' ∈ xs, ∀ y', R x' y' → q y' = true → p x' = true :=
        fun x' hx' ↦ hpq x' (List.mem_cons_of_mem x hx')
      obtain ⟨x', hx', hpx, hqy⟩ := hex
      rw [List.countP_cons, List.countP_cons]
      rcases List.mem_cons.mp hx' with rfl | hx'
      · rw [hqy y hxy, hpx]
        exact Nat.lt_succ_of_le (countP_le_of_related hrest hpq')
      · have hlt := ih hpq' ⟨x', hx', hpx, hqy⟩
        cases hq : q y with
        | false => exact Nat.lt_of_lt_of_le hlt (Nat.le_add_right _ _)
        | true =>
            rw [hpq x List.mem_cons_self y hxy hq]
            exact Nat.succ_lt_succ hlt

end Pairs

end CodeArena.Lib
