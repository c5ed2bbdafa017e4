import CodeArena.Lib.Ties
import Mathlib.Data.List.Nodup
import Mathlib.Data.List.Perm.Basic

/-!
# Pages of a sorted result

Page `k` of a list, counted from zero, is what is left of `L` elements after `k * L` were
skipped.  The pages of one list make up the list (`flatMap_page`).  Where every page is cut out
of a sort of its own, and sorts are free in the order of equal keys, that is not so any more:
the pages make up a sort of the elements, whatever the sorts do, exactly if no key straddles
two pages (`arranges_pages_iff`).
-/

namespace CodeArena.Lib

universe u

variable {α : Type u} {r : α → α → Prop} {xs ys zs : List α} {L : ℕ}

/-- A page: what is returned after `skip` and `limit`. -/
def page (L k : ℕ) (xs : List α) : List α := (xs.drop (k * L)).take L

/-- `Math.ceil(n / L) || 1`. -/
def pageCount (L n : ℕ) : ℕ := max ((n + L - 1) / L) 1

/-- The pages hold everything. -/
theorem le_pageCount_mul (hL : 0 < L) (n : ℕ) : n ≤ pageCount L n * L := by
  have hceil : n ≤ (n + L - 1) / L * L := by
    have hdiv := Nat.div_add_mod (n + L - 1) L
    have hmod := Nat.mod_lt (n + L - 1) hL
    rw [Nat.mul_comm] at hdiv
    omega
  exact hceil.trans (Nat.mul_le_mul_right L (Nat.le_max_left _ _))

/-- A page that starts before the end is counted. -/
theorem lt_pageCount {n k : ℕ} (hL : 0 < L) (h : k * L < n) : k < pageCount L n :=
  Nat.lt_of_mul_lt_mul_right (Nat.lt_of_lt_of_le h (le_pageCount_mul hL n))

theorem page_eq_nil {k : ℕ} (h : xs.length ≤ k * L) : page L k xs = [] := by
  rw [page, List.drop_eq_nil_of_le h, List.take_nil]

theorem mem_of_mem_page {k : ℕ} {x : α} (h : x ∈ page L k xs) : x ∈ xs :=
  List.mem_of_mem_drop (List.mem_of_mem_take h)

theorem page_sublist (k : ℕ) (xs : List α) : (page L k xs).Sublist xs :=
  (List.take_sublist _ _).trans (List.drop_sublist _ _)

theorem take_append_page (k : ℕ) (xs : List α) :
    xs.take (k * L) ++ page L k xs = xs.take ((k + 1) * L) := by
  rw [Nat.succ_mul, List.take_add]
  rfl

/-- **The pages of a list make up the list.** -/
theorem flatMap_page (n : ℕ) (xs : List α) :
    (List.range n).flatMap (page L · xs) = xs.take (n * L) := by
  induction n with
  | zero => simp
  | succ n ih =>
      rw [List.range_succ, List.flatMap_append, ih, List.flatMap_singleton, take_append_page]

theorem flatMap_page_eq_self {n : ℕ} (h : xs.length ≤ n * L) :
    (List.range n).flatMap (page L · xs) = xs := by
  rw [flatMap_page, List.take_of_length_le h]

/-! ## Pages of different sorts -/

section

variable [DecidableRel r]

/-- The elements with the key of an element start and end on the same page: before its key come
those that it is strictly after, and with them those that are not after it. -/
def NoStraddle (r : α → α → Prop) [DecidableRel r] (L : ℕ) (xs : List α) : Prop :=
  ∀ x ∈ xs, xs.countP (fun a ↦ decide (¬ r x a)) / L = (xs.countP (fun a ↦ decide (r a x)) - 1) / L

instance (L : ℕ) (xs : List α) : Decidable (NoStraddle r L xs) :=
  inferInstanceAs (Decidable (∀ x ∈ xs, _))

/-- No key straddles the boundary between two pages. -/
theorem NoStraddle.cut (h : NoStraddle r L xs) (hL : 0 < L) (k : ℕ) {x : α} (hx : x ∈ xs)
    (hlt : xs.countP (fun a ↦ decide (¬ r x a)) < k * L) :
    xs.countP (fun a ↦ decide (r a x)) ≤ k * L := by
  have hpage : (xs.countP (fun a ↦ decide (r a x)) - 1) / L < k := by
    rw [← h x hx]
    exact (Nat.div_lt_iff_lt_mul hL).mpr hlt
  have := (Nat.div_lt_iff_lt_mul hL).mp hpage
  omega

/-- Then every sort has the same elements on a page. -/
theorem NoStraddle.page_perm (h : NoStraddle r L xs) (hL : 0 < L) (hr : TotalPreorder r)
    (hy : Arranges r xs ys) (hz : Arranges r xs zs) (k : ℕ) :
    (page L k ys).Perm (page L k zs) := by
  have hbefore : (ys.take (k * L)).Perm (zs.take (k * L)) :=
    hy.take_perm hr hz fun x hx ↦ h.cut hL k hx
  have hafter : (ys.take ((k + 1) * L)).Perm (zs.take ((k + 1) * L)) :=
    hy.take_perm hr hz fun x hx ↦ h.cut hL (k + 1) hx
  rw [← take_append_page, ← take_append_page] at hafter
  exact (List.perm_append_left_iff _).mp
    (hafter.trans ((List.perm_append_right_iff _).mpr hbefore.symm))

/-- The pages of different sorts make up a sort. -/
theorem NoStraddle.arranges_pages (h : NoStraddle r L xs) (hL : 0 < L) (hr : TotalPreorder r)
    {sorts : ℕ → List α} (hsorts : ∀ k, Arranges r xs (sorts k)) {n : ℕ} (hn : xs.length ≤ n * L) :
    Arranges r xs ((List.range n).flatMap fun k ↦ page L k (sorts k)) := by
  have hperm : ∀ k, (page L k (sorts k)).Perm (page L k (sorts 0)) :=
    fun k ↦ h.page_perm hL hr (hsorts k) (hsorts 0) k
  have hzero : (List.range n).flatMap (page L · (sorts 0)) = sorts 0 :=
    flatMap_page_eq_self ((hsorts 0).perm.length_eq ▸ hn)
  constructor
  · refine List.Perm.trans ?_ (hzero ▸ (hsorts 0).perm)
    exact List.Perm.flatMap_left _ fun k _ ↦ hperm k
  · -- in order on one page because its sort is, and across pages because one sort is
    obtain ⟨-, hcross⟩ := List.pairwise_flatMap.mp (hzero.symm ▸ (hsorts 0).sorted)
    refine List.pairwise_flatMap.mpr ⟨fun k _ ↦ (hsorts k).sorted.sublist (page_sublist k _), ?_⟩
    refine hcross.imp fun {j k} hjk x hx y hy ↦ ?_
    exact hjk x ((hperm j).mem_iff.mp hx) y ((hperm k).mem_iff.mp hy)

/-- Where different elements have different keys, no key straddles anything. -/
theorem noStraddle_of_antisymm (hr : TotalPreorder r) (hn : xs.Nodup)
    (hanti : ∀ x ∈ xs, ∀ y ∈ xs, r x y → r y x → x = y) (L : ℕ) : NoStraddle r L xs := by
  intro x hx
  have hz := Arranges.insertionSort hr xs
  -- the first and the last place with the key of `x` both hold `x`
  have hplace : ∀ {i a}, (xs.insertionSort r)[i]? = some a →
      xs.countP (fun b ↦ decide (¬ r x b)) ≤ i → i < xs.countP (fun b ↦ decide (r b x)) →
      a = x := by
    intro i a ha hle hlt
    exact (hanti x hx a (hz.mem_iff.mp (List.mem_of_getElem? ha)) (hz.rel_of_countP_lt_le hr ha hle)
      (hz.rel_of_lt_countP_le hr ha hlt)).symm
  obtain ⟨j, hj, hget⟩ := List.getElem_of_mem (hz.mem_iff.mpr hx)
  have hget : (xs.insertionSort r)[j]? = some x := List.getElem?_eq_some_iff.mpr ⟨hj, hget⟩
  have hle := hz.countP_lt_le_index hr hget
  have hlt := hz.index_lt_countP_le hr hget
  have hlen : xs.countP (fun b ↦ decide (r b x)) ≤ (xs.insertionSort r).length :=
    hz.perm.length_eq ▸ List.countP_le_length
  have hsame : ∀ i, xs.countP (fun b ↦ decide (¬ r x b)) ≤ i →
      i < xs.countP (fun b ↦ decide (r b x)) → i = j := by
    intro i hi hi'
    have ha := List.getElem?_eq_getElem (Nat.lt_of_lt_of_le hi' hlen)
    rw [hplace ha hi hi', ← hget] at ha
    exact (List.getElem?_inj (Nat.lt_of_lt_of_le hi' hlen)
      (hz.perm.nodup_iff.mpr hn)).mp ha
  have hfirst := hsame _ le_rfl (Nat.lt_of_le_of_lt hle hlt)
  have hlast := hsame _ (Nat.le_sub_one_of_lt (Nat.lt_of_le_of_lt hle hlt))
    (Nat.sub_one_lt_of_lt hlt)
  rw [hfirst, hlast]

omit [DecidableRel r] in
theorem mem_page {i k : ℕ} {x : α} (hx : ys[i]? = some x) (hle : k * L ≤ i)
    (hlt : i < (k + 1) * L) : x ∈ page L k ys := by
  obtain ⟨hi, rfl⟩ := List.getElem?_eq_some_iff.mp hx
  have hget : (page L k ys)[i - k * L]? = some ys[i] := by
    have hsub : i - k * L < L := by
      rw [Nat.succ_mul] at hlt
      omega
    rw [page, List.getElem?_take_of_lt hsub, List.getElem?_drop, Nat.add_sub_cancel' hle]
    exact List.getElem?_eq_getElem hi
  exact List.mem_of_getElem? hget

/-- A key that straddles two pages leaves the elements at the boundary free to be swapped. -/
theorem exists_boundary (hL : 0 < L) (hr : TotalPreorder r) (h : ¬ NoStraddle r L xs) :
    ∃ us a b vs k, Arranges r xs (us ++ a :: b :: vs) ∧ r b a ∧ us.length + 1 = (k + 1) * L := by
  unfold NoStraddle at h
  push Not at h
  obtain ⟨x, hx, hne⟩ := h
  let before := xs.countP fun a ↦ decide (¬ r x a)
  let upto := xs.countP fun a ↦ decide (r a x)
  have hz := Arranges.insertionSort hr xs
  have hlt : before < upto := by
    obtain ⟨i, hi, hget⟩ := List.getElem_of_mem (hz.mem_iff.mpr hx)
    have hget : (xs.insertionSort r)[i]? = some x := List.getElem?_eq_some_iff.mpr ⟨hi, hget⟩
    exact Nat.lt_of_le_of_lt (hz.countP_lt_le_index hr hget) (hz.index_lt_countP_le hr hget)
  have hdiv : before / L < (upto - 1) / L :=
    Nat.lt_of_le_of_ne (Nat.div_le_div_right (by omega)) hne
  obtain ⟨k, hk⟩ : ∃ k, (upto - 1) / L = k + 1 :=
    Nat.exists_eq_succ_of_ne_zero (Nat.ne_of_gt (Nat.lt_of_le_of_lt (Nat.zero_le _) hdiv))
  rw [hk] at hdiv
  have hbefore : before < (k + 1) * L := (Nat.div_lt_iff_lt_mul hL).mp hdiv
  have hupto : (k + 1) * L < upto := by
    have := Nat.div_mul_le_self (upto - 1) L
    rw [hk] at this
    omega
  have hlen : upto ≤ (xs.insertionSort r).length := hz.perm.length_eq ▸ List.countP_le_length
  obtain ⟨i, hi⟩ : ∃ i, (k + 1) * L = i + 1 :=
    Nat.exists_eq_succ_of_ne_zero (Nat.mul_ne_zero (Nat.succ_ne_zero k) hL.ne')
  rw [hi] at hbefore hupto
  have ha : (xs.insertionSort r)[i]? = some (xs.insertionSort r)[i] :=
    List.getElem?_eq_getElem (by omega)
  have hb : (xs.insertionSort r)[i + 1]? = some (xs.insertionSort r)[i + 1] :=
    List.getElem?_eq_getElem (by omega)
  have hba : r (xs.insertionSort r)[i + 1] (xs.insertionSort r)[i] :=
    hr.trans (hz.rel_of_lt_countP_le hr hb hupto)
      (hz.rel_of_countP_lt_le hr ha (Nat.le_of_lt_succ hbefore))
  refine ⟨(xs.insertionSort r).take i, _, _, (xs.insertionSort r).drop (i + 2), k, ?_, hba, ?_⟩
  · rw [List.getElem_cons_drop, List.getElem_cons_drop, List.take_append_drop]
    exact hz
  · rw [List.length_take_of_le (by omega), hi]

/-- **Where a key straddles two pages** an element can be returned twice. -/
theorem noStraddle_of_arranges (hL : 0 < L) (hr : TotalPreorder r) (hn : xs.Nodup)
    (h : ∀ sorts : ℕ → List α, (∀ k, Arranges r xs (sorts k)) →
      ((List.range (pageCount L xs.length)).flatMap fun k ↦ page L k (sorts k)).Perm xs) :
    NoStraddle r L xs := by
  by_contra hstraddle
  obtain ⟨us, a, b, vs, k, hz, hba, hlen⟩ := exists_boundary hL hr hstraddle
  have hz' := hz.swap hba
  -- the page before the boundary ends with `b`, and the page behind it starts with `b`
  let sorts : ℕ → List α := fun j ↦ if j = k then us ++ b :: a :: vs else us ++ a :: b :: vs
  have hsorts : ∀ j, Arranges r xs (sorts j) := by
    intro j
    by_cases hj : j = k
    · simpa [sorts, hj] using hz'
    · simpa [sorts, hj] using hz
  have hlast : b ∈ page L k (sorts k) := by
    have hget : (us ++ b :: a :: vs)[us.length]? = some b := by simp
    rw [show sorts k = us ++ b :: a :: vs from if_pos rfl]
    exact mem_page hget (by rw [Nat.succ_mul] at hlen; omega) (by omega)
  have hfirst : b ∈ page L (k + 1) (sorts (k + 1)) := by
    have hget : (us ++ a :: b :: vs)[us.length + 1]? = some b := by simp
    rw [show sorts (k + 1) = us ++ a :: b :: vs from if_neg (Nat.succ_ne_self k)]
    exact mem_page hget hlen.ge (by rw [Nat.succ_mul (k + 1)]; omega)
  have hcount : k + 1 < pageCount L xs.length := by
    apply lt_pageCount hL
    rw [← hlen, ← hz.perm.length_eq]
    simp
  have hdisjoint := (List.nodup_flatMap.mp ((h sorts hsorts).nodup_iff.mpr hn)).2
  rw [List.pairwise_iff_getElem] at hdisjoint
  have := hdisjoint k (k + 1) (by simp; omega) (by simpa using hcount) (Nat.lt_succ_self k)
  simp only [Function.onFun, List.getElem_range] at this
  exact this hlast hfirst

/-- **Pages of different sorts** make up a sort of the elements, whatever the sorts do with
equal keys, exactly if no key straddles two pages. -/
theorem arranges_pages_iff (hL : 0 < L) (hr : TotalPreorder r) (hn : xs.Nodup) :
    (∀ sorts : ℕ → Sorting r, Arranges r xs
      ((List.range (pageCount L xs.length)).flatMap fun k ↦ page L k ((sorts k).run xs))) ↔
      NoStraddle r L xs := by
  constructor
  · intro h
    apply noStraddle_of_arranges hL hr hn
    intro lists hlists
    choose sorts hsorts using fun k ↦ Sorting.exists_run_eq hr (hlists k)
    simpa only [hsorts] using (h sorts).perm
  · exact fun h sorts ↦
      h.arranges_pages hL hr (fun k ↦ (sorts k).arranges xs) (le_pageCount_mul hL _)

end

end CodeArena.Lib
