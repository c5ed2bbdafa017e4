import Mathlib.Data.List.Sort

/-!
# Sorting by keys that are not unique

A sort by a key leaves open in which order it returns elements with equal keys.  `Arranges r
xs ys` says that `ys` is one of the orders in which a sort of `xs` by `r` may come out; `r` is
a total preorder, and elements with equal keys are those related both ways.

What does not depend on the choice is where a key starts and where it ends: an element stands
after all that are strictly before it, and not after all that it does not come before
(`countP_lt_le_index`, `index_lt_countP_le`).  So a cut that no key straddles separates the same
elements in every arrangement (`Arranges.take_perm`).
-/

namespace CodeArena.Lib

universe u v

variable {α : Type u} {r : α → α → Prop}

/-- Any two elements can be compared, and different ones may have equal keys. -/
structure TotalPreorder (r : α → α → Prop) : Prop where
  total : ∀ a b, r a b ∨ r b a
  trans : ∀ {a b c}, r a b → r b c → r a c

namespace TotalPreorder

theorem refl (hr : TotalPreorder r) (a : α) : r a a := (hr.total a a).elim id id

/-- What does not come after is before. -/
theorem of_not (hr : TotalPreorder r) {a b : α} (h : ¬ r a b) : r b a :=
  (hr.total a b).resolve_left h

theorem swap (hr : TotalPreorder r) : TotalPreorder fun a b ↦ r b a :=
  ⟨fun a b ↦ hr.total b a, fun hab hbc ↦ hr.trans hbc hab⟩

/-- The order of keys. -/
theorem ofKey {κ : Type v} [LinearOrder κ] (key : α → κ) :
    TotalPreorder fun a b ↦ key a ≤ key b :=
  ⟨fun a b ↦ le_total (key a) (key b), fun hab hbc ↦ le_trans hab hbc⟩

end TotalPreorder

/-- An order in which a sort of `xs` may return its elements. -/
structure Arranges (r : α → α → Prop) (xs ys : List α) : Prop where
  perm : ys.Perm xs
  sorted : ys.Pairwise r

namespace Arranges

variable {xs ys zs : List α}

theorem mem_iff (h : Arranges r xs ys) {a : α} : a ∈ ys ↔ a ∈ xs := h.perm.mem_iff

theorem perm_of (h : Arranges r xs ys) (h' : Arranges r xs zs) : ys.Perm zs :=
  h.perm.trans h'.perm.symm

/-- A stable sort is one of the orders. -/
theorem insertionSort [DecidableRel r] (hr : TotalPreorder r) (xs : List α) :
    Arranges r xs (xs.insertionSort r) := by
  have : Std.Total r := ⟨hr.total⟩
  have : IsTrans α r := ⟨fun _ _ _ ↦ hr.trans⟩
  exact ⟨List.perm_insertionSort r xs, List.pairwise_insertionSort r xs⟩

/-- Neighbours with equal keys may come in either order. -/
theorem swap {us vs : List α} {a b : α} (h : Arranges r xs (us ++ a :: b :: vs)) (hba : r b a) :
    Arranges r xs (us ++ b :: a :: vs) := by
  refine ⟨((List.Perm.swap a b vs).append_left us).trans h.perm, ?_⟩
  obtain ⟨hus, habv, hcross⟩ := List.pairwise_append.mp h.sorted
  obtain ⟨ha, hbv⟩ := List.pairwise_cons.mp habv
  obtain ⟨hb, hvs⟩ := List.pairwise_cons.mp hbv
  refine List.pairwise_append.mpr ⟨hus, ?_, fun x hx y hy ↦ hcross x hx y ?_⟩
  · refine List.pairwise_cons.mpr ⟨?_, List.pairwise_cons.mpr ⟨?_, hvs⟩⟩
    · intro y hy
      rcases List.mem_cons.mp hy with rfl | hy
      · exact hba
      · exact hb y hy
    · exact fun y hy ↦ ha y (List.mem_cons_of_mem b hy)
  · simp only [List.mem_cons] at hy ⊢
    tauto

/-- An element may come first among those with its key. -/
theorem exists_front [DecidableRel r] (hr : TotalPreorder r) {x : α} (hx : x ∈ xs) :
    ∃ before after, Arranges r xs (before ++ x :: after) ∧ ∀ a ∈ before, ¬ r x a := by
  obtain ⟨us, vs, rfl⟩ := List.append_of_mem hx
  have hperm : (us ++ x :: vs).Perm (x :: (us ++ vs)) := List.perm_middle
  let before := (us ++ vs).filter fun a ↦ ¬ r x a
  let after := (us ++ vs).filter fun a ↦ r x a
  have hbefore := Arranges.insertionSort hr before
  have hafter := Arranges.insertionSort hr after
  have hfront : ∀ a ∈ before.insertionSort r, ¬ r x a := by
    intro a ha
    simpa using List.of_mem_filter (hbefore.mem_iff.mp ha)
  have hback : ∀ a ∈ after.insertionSort r, r x a := by
    intro a ha
    simpa using List.of_mem_filter (hafter.mem_iff.mp ha)
  refine ⟨before.insertionSort r, after.insertionSort r, ⟨?_, ?_⟩, hfront⟩
  · have hsplit : (before ++ after).Perm (us ++ vs) := by
      have h := List.filter_append_perm (fun a ↦ decide (¬ r x a)) (us ++ vs)
      simpa only [before, after, decide_not, Bool.not_not] using h
    exact List.perm_middle.trans
      ((((hbefore.perm.append hafter.perm).trans hsplit).cons x).trans hperm.symm)
  · refine List.pairwise_append.mpr
      ⟨hbefore.sorted, List.pairwise_cons.mpr ⟨hback, hafter.sorted⟩, fun a ha b hb ↦ ?_⟩
    have hax : r a x := hr.of_not (hfront a ha)
    rcases List.mem_cons.mp hb with rfl | hb
    · exact hax
    · exact hr.trans hax (hback b hb)

end Arranges

/-- A sort by `r`, which may bring elements with equal keys in any order. -/
structure Sorting (r : α → α → Prop) where
  run : List α → List α
  arranges : ∀ xs, Arranges r xs (run xs)

namespace Sorting

/-- The sort that keeps the order of equal keys. -/
def stable [DecidableRel r] (hr : TotalPreorder r) : Sorting r :=
  ⟨List.insertionSort r, Arranges.insertionSort hr⟩

/-- Every arrangement of a list is the result of some sort. -/
theorem exists_run_eq [DecidableRel r] (hr : TotalPreorder r) {xs ys : List α}
    (h : Arranges r xs ys) : ∃ s : Sorting r, s.run xs = ys := by
  classical
  refine ⟨⟨fun zs ↦ if zs = xs then ys else zs.insertionSort r, fun zs ↦ ?_⟩, if_pos rfl⟩
  by_cases hzs : zs = xs
  · subst hzs
    simpa using h
  · simpa [hzs] using Arranges.insertionSort hr zs

end Sorting

namespace Arranges

variable {xs ys zs : List α}

/-! ## Where a key starts and ends -/

variable [DecidableRel r]

/-- What stands in front of an element that comes first among those with its key is what is
strictly before it; here only the elements counted by `p` have to be. -/
theorem countP_before (hr : TotalPreorder r) {before after : List α} {x : α} {p : α → Bool}
    (h : Arranges r xs (before ++ x :: after)) (hb : ∀ a ∈ before, p a → ¬ r x a) :
    before.countP p = xs.countP fun a ↦ p a && decide (¬ r x a) := by
  obtain ⟨-, hx, -⟩ := List.pairwise_append.mp h.sorted
  have hnot : ∀ a ∈ x :: after, ¬ (p a && decide (¬ r x a)) = true := by
    intro a ha
    have hxa : r x a := by
      rcases List.mem_cons.mp ha with rfl | ha
      · exact hr.refl a
      · exact (List.pairwise_cons.mp hx).1 a ha
    simp [hxa]
  rw [← h.perm.countP_eq, List.countP_append, List.countP_eq_zero.mpr hnot, Nat.add_zero]
  apply List.countP_congr
  intro a ha
  constructor
  · intro hp
    simpa [hp] using hb a ha hp
  · intro hp
    exact (Bool.and_eq_true_iff.mp hp).1

omit [DecidableRel r] in
/-- A position cuts a list in two. -/
theorem exists_split {i : ℕ} {x : α} (hx : ys[i]? = some x) :
    ∃ us vs, ys = us ++ x :: vs ∧ us.length = i := by
  obtain ⟨hi, rfl⟩ := List.getElem?_eq_some_iff.mp hx
  refine ⟨ys.take i, ys.drop (i + 1), ?_, List.length_take_of_le (Nat.le_of_lt hi)⟩
  rw [List.getElem_cons_drop, List.take_append_drop]

/-- An element stands after all that are strictly before it. -/
theorem countP_lt_le_index (hr : TotalPreorder r) (h : Arranges r xs ys) {i : ℕ} {x : α}
    (hx : ys[i]? = some x) : xs.countP (fun a ↦ decide (¬ r x a)) ≤ i := by
  obtain ⟨us, vs, rfl, rfl⟩ := exists_split hx
  obtain ⟨-, hback, -⟩ := List.pairwise_append.mp h.sorted
  have hnot : ∀ a ∈ x :: vs, ¬ decide (¬ r x a) = true := by
    intro a ha
    have hxa : r x a := by
      rcases List.mem_cons.mp ha with rfl | ha
      · exact hr.refl _
      · exact (List.pairwise_cons.mp hback).1 a ha
    simp [hxa]
  rw [← h.perm.countP_eq, List.countP_append, List.countP_eq_zero.mpr hnot, Nat.add_zero]
  exact List.countP_le_length

/-- An element does not stand after all that it does not come before. -/
theorem index_lt_countP_le (hr : TotalPreorder r) (h : Arranges r xs ys) {i : ℕ} {x : α}
    (hx : ys[i]? = some x) : i < xs.countP (fun a ↦ decide (r a x)) := by
  obtain ⟨us, vs, rfl, rfl⟩ := exists_split hx
  obtain ⟨-, -, hcross⟩ := List.pairwise_append.mp h.sorted
  have hall : ∀ a ∈ us, decide (r a x) = true :=
    fun a ha ↦ decide_eq_true (hcross a ha x List.mem_cons_self)
  have hx : 0 < (x :: vs).countP fun a ↦ decide (r a x) :=
    List.countP_pos_iff.mpr ⟨x, List.mem_cons_self, decide_eq_true (hr.refl x)⟩
  rw [← h.perm.countP_eq, List.countP_append, List.countP_eq_length.mpr hall]
  exact Nat.lt_add_of_pos_right hx

/-- What stands after all that are strictly before an element does not come before it. -/
theorem rel_of_countP_lt_le (hr : TotalPreorder r) (h : Arranges r xs ys) {i : ℕ} {x a : α}
    (ha : ys[i]? = some a) (hi : xs.countP (fun b ↦ decide (¬ r x b)) ≤ i) : r x a := by
  obtain ⟨us, vs, rfl, rfl⟩ := exists_split ha
  obtain ⟨-, -, hcross⟩ := List.pairwise_append.mp h.sorted
  by_contra hxa
  have hall : ∀ b ∈ us, decide (¬ r x b) = true :=
    fun b hb ↦ decide_eq_true fun hxb ↦ hxa (hr.trans hxb (hcross b hb a List.mem_cons_self))
  have hpos : 0 < (a :: vs).countP fun b ↦ decide (¬ r x b) :=
    List.countP_pos_iff.mpr ⟨a, List.mem_cons_self, decide_eq_true hxa⟩
  rw [← h.perm.countP_eq, List.countP_append, List.countP_eq_length.mpr hall] at hi
  omega

/-- What does not stand after all that an element does not come before, it does not come
before either. -/
theorem rel_of_lt_countP_le (hr : TotalPreorder r) (h : Arranges r xs ys) {i : ℕ} {x a : α}
    (ha : ys[i]? = some a) (hi : i < xs.countP (fun b ↦ decide (r b x))) : r a x := by
  obtain ⟨us, vs, rfl, rfl⟩ := exists_split ha
  obtain ⟨-, hback, -⟩ := List.pairwise_append.mp h.sorted
  by_contra hax
  have hnone : ∀ b ∈ a :: vs, ¬ decide (r b x) = true := by
    intro b hb
    rw [decide_eq_true_eq]
    rcases List.mem_cons.mp hb with rfl | hb
    · exact hax
    · exact fun hbx ↦ hax (hr.trans ((List.pairwise_cons.mp hback).1 b hb) hbx)
  rw [← h.perm.countP_eq, List.countP_append, List.countP_eq_zero.mpr hnone] at hi
  exact absurd List.countP_le_length (Nat.not_le.mpr hi)

/-- **A cut that no key straddles separates the same elements in every arrangement.** -/
theorem take_perm (hr : TotalPreorder r) {n : ℕ} (h : Arranges r xs ys) (h' : Arranges r xs zs)
    (hcut : ∀ x ∈ xs, xs.countP (fun a ↦ decide (¬ r x a)) < n →
      xs.countP (fun a ↦ decide (r a x)) ≤ n) : (ys.take n).Perm (zs.take n) := by
  have hfilter : ∀ {ws : List α}, Arranges r xs ws →
      ws.take n = ws.filter fun x ↦ decide (xs.countP (fun a ↦ decide (r a x)) ≤ n) := by
    intro ws hws
    have hfront : ∀ x ∈ ws.take n, decide (xs.countP (fun a ↦ decide (r a x)) ≤ n) = true := by
      intro x hx
      obtain ⟨i, hi, rfl⟩ := List.mem_take_iff_getElem.mp hx
      have hget : ws[i]? = some ws[i] := List.getElem?_eq_getElem (Nat.lt_of_lt_of_le hi (Nat.min_le_right _ _))
      exact decide_eq_true (hcut _ (hws.mem_iff.mp (List.getElem_mem _))
        (Nat.lt_of_le_of_lt (countP_lt_le_index hr hws hget) (Nat.lt_of_lt_of_le hi (Nat.min_le_left _ _))))
    have hback : ∀ x ∈ ws.drop n, ¬ decide (xs.countP (fun a ↦ decide (r a x)) ≤ n) = true := by
      intro x hx
      obtain ⟨i, hi, rfl⟩ := List.mem_drop_iff_getElem.mp hx
      have hget : ws[n + i]? = some ws[n + i] := List.getElem?_eq_getElem (by omega)
      have hlt := index_lt_countP_le hr hws hget
      rw [decide_eq_true_eq]
      exact Nat.not_le.mpr (Nat.lt_of_le_of_lt (Nat.le_add_right n i) hlt)
    conv_rhs => rw [← List.take_append_drop n ws]
    rw [List.filter_append, List.filter_eq_self.mpr hfront, List.filter_eq_nil_iff.mpr hback,
      List.append_nil]
  rw [hfilter h, hfilter h']
  exact (h.perm_of h').filter _

end Arranges

end CodeArena.Lib
