import Mathlib.Data.List.Basic

/-!
# Texts joined with a separator

Parts of a text with a separator between them, and when they can be told apart again.
-/

universe u

namespace CodeArena.Lib.Separated

variable {α : Type u} {a : α}

/-- The last separator of a text splits it in one way only. -/
theorem append_separator_inj {k k' r r' : List α} (hr : a ∉ r) (hr' : a ∉ r') :
    k ++ a :: r = k' ++ a :: r' ↔ k = k' ∧ r = r' := by
  constructor
  · intro heq
    rcases List.append_eq_append_iff.mp heq with ⟨c, hk, hc⟩ | ⟨c, hk, hc⟩
    · cases c with
      | nil => exact ⟨(hk.trans (List.append_nil _)).symm, (List.cons.inj hc).2⟩
      | cons x c =>
          obtain ⟨-, hcr⟩ := List.cons.inj hc
          exact absurd (hcr ▸ List.mem_append_right c List.mem_cons_self) hr
    · cases c with
      | nil => exact ⟨hk.trans (List.append_nil _), (List.cons.inj hc).2.symm⟩
      | cons x c =>
          obtain ⟨-, hcr⟩ := List.cons.inj hc
          exact absurd (hcr ▸ List.mem_append_right c List.mem_cons_self) hr'
  · rintro ⟨rfl, rfl⟩
    rfl

/-- And the first one. -/
theorem separator_append_inj {k k' r r' : List α} (hk : a ∉ k) (hk' : a ∉ k') :
    k ++ a :: r = k' ++ a :: r' ↔ k = k' ∧ r = r' := by
  have hreverse (k r : List α) : (k ++ a :: r).reverse = r.reverse ++ a :: k.reverse := by
    rw [List.reverse_append, List.reverse_cons, List.append_assoc, List.singleton_append]
  rw [← List.reverse_inj, hreverse, hreverse,
    append_separator_inj (mt List.mem_reverse.mp hk) (mt List.mem_reverse.mp hk'),
    List.reverse_inj, List.reverse_inj]
  exact And.comm

/-! ## Splitting at every separator -/

section SplitOn

variable [BEq α] [LawfulBEq α]

/-- The parts of a text contain no separator, and nothing that is not in the text. -/
theorem mem_splitOn {xs p : List α} (hp : p ∈ xs.splitOn a) : a ∉ p ∧ p ⊆ xs := by
  induction xs generalizing p with
  | nil =>
      rw [List.splitOn_nil, List.mem_singleton] at hp
      rw [hp]
      exact ⟨List.not_mem_nil, List.nil_subset _⟩
  | cons x xs ih =>
      rw [List.splitOn_cons_eq_if_modifyHead] at hp
      obtain ⟨q, qs, hq⟩ := List.exists_cons_of_ne_nil (List.splitOn_ne_nil a xs)
      have hhead := ih (hq ▸ List.mem_cons_self)
      have htail {r : List α} (hr : r ∈ qs) : a ∉ r ∧ r ⊆ x :: xs :=
        (ih (hq ▸ List.mem_cons_of_mem q hr)).imp_right fun h ↦ List.subset_cons_of_subset x h
      rw [hq] at hp
      split at hp
      case isTrue =>
        rcases List.mem_cons.mp hp with rfl | hp
        · exact ⟨List.not_mem_nil, List.nil_subset _⟩
        · rcases List.mem_cons.mp hp with rfl | hp
          · exact ⟨hhead.1, List.subset_cons_of_subset x hhead.2⟩
          · exact htail hp
      case isFalse hx =>
        rcases List.mem_cons.mp hp with rfl | hp
        · constructor
          · intro ha
            rcases List.mem_cons.mp ha with rfl | ha
            · exact hx BEq.rfl
            · exact hhead.1 ha
          · exact List.cons_subset_cons x hhead.2
        · exact htail hp

/-- Two parts. -/
theorem splitOn_pair {x y : List α} (hx : a ∉ x) (hy : a ∉ y) :
    (x ++ a :: y).splitOn a = [x, y] := by
  rw [List.splitOn_append_cons_self_of_not_mem hx, List.splitOn_eq_singleton hy]

/-- Three parts. -/
theorem splitOn_triple {x y z : List α} (hx : a ∉ x) (hy : a ∉ y) (hz : a ∉ z) :
    (x ++ a :: y ++ a :: z).splitOn a = [x, y, z] := by
  rw [List.append_assoc, List.cons_append, List.splitOn_append_cons_self_of_not_mem hx,
    splitOn_pair hy hz]

end SplitOn

end CodeArena.Lib.Separated
