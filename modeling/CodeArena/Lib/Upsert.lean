import CodeArena.Lib.Related
import Mathlib.Data.List.Basic
import Mathlib.Data.List.Nodup
import Mathlib.Data.List.Perm.Basic
import Mathlib.Tactic.Common

/-!
# Upserts

`upsert p f new xs` changes the first member of a list that meets `p` by `f`, and adds `new` at
the end where there is none.  What a program wants of it is a slot: `f` leads into `p` and not out
of it, and `new` meets `p` (`Slot`), so that afterwards the member found under `p` is the one that
was set, and everything that a disjoint query finds is as it was.

Two queries are disjoint where nothing meets both.  That is all the rules ask for:
`find?_upsert` is about the slot itself, `find?_upsert_of_disjoint` and
`filter_upsert_of_disjoint` about the rest.  `forall₂_upsert` is for an upsert that finds what it
would set.  `Upserted` forgets how a list was changed and keeps what is found afterwards.

A group is set item by item, each item in its own slot, and then the members of the group that
no item has left are deleted: what is there then is what the items say, once each and nothing
else, whatever the group was before (`Found.perm`).
-/

universe u v w

namespace CodeArena.Lib

variable {α : Type u}

/-- The list with its first member that meets `p` changed. -/
def modifyFirst (p : α → Bool) (f : α → α) : List α → List α
  | [] => []
  | x :: xs => if p x then f x :: xs else x :: modifyFirst p f xs

/-- The first member that meets `p` changed, or a new one added. -/
def upsert (p : α → Bool) (f : α → α) (new : α) (xs : List α) : List α :=
  if xs.any p then modifyFirst p f xs else xs ++ [new]

/-- What an upsert sets meets its own query. -/
structure Slot (p : α → Bool) (f : α → α) (new : α) : Prop where
  change : ∀ x, p x = true → p (f x) = true
  new : p new = true

/-- Nothing meets both. -/
def Apart (p q : α → Bool) : Prop := ∀ x, p x = true → q x = false

section

variable {p q : α → Bool} {f : α → α} {new : α} {xs : List α}

theorem any_eq_false_iff_find? : xs.any p = false ↔ xs.find? p = none := by
  rw [List.find?_eq_none, List.any_eq_false]

/-- The list where nothing is found. -/
theorem upsert_of_none (h : xs.find? p = none) : upsert p f new xs = xs ++ [new] := by
  rw [upsert, any_eq_false_iff_find?.mpr h, if_neg Bool.false_ne_true]

theorem upsert_of_some {x : α} (h : xs.find? p = some x) :
    upsert p f new xs = modifyFirst p f xs := by
  rw [upsert, if_pos (List.any_eq_true.mpr ⟨x, List.mem_of_find?_eq_some h, List.find?_some h⟩)]

/-! ## What is found -/

theorem find?_modifyFirst (h : ∀ x, p x = true → p (f x) = true) (xs : List α) :
    (modifyFirst p f xs).find? p = (xs.find? p).map f := by
  induction xs with
  | nil => rfl
  | cons x xs ih =>
      rw [modifyFirst]
      by_cases hx : p x = true
      · rw [if_pos hx, List.find?_cons_of_pos (h x hx), List.find?_cons_of_pos hx]
        rfl
      · rw [if_neg hx, List.find?_cons_of_neg hx, List.find?_cons_of_neg hx, ih]

/-- **The slot.**  What an upsert leaves is found: what was there, changed, or the new
member. -/
theorem find?_upsert (h : Slot p f new) (xs : List α) :
    (upsert p f new xs).find? p = some (((xs.find? p).map f).getD new) := by
  cases hf : xs.find? p with
  | none =>
      rw [upsert_of_none hf, List.find?_append, hf, List.find?_cons_of_pos h.new]
      rfl
  | some x => rw [upsert_of_some hf, find?_modifyFirst h.change, hf]; rfl

theorem filter_modifyFirst_of_disjoint (hpq : Apart p q)
    (h : ∀ x, p x = true → p (f x) = true) (xs : List α) :
    (modifyFirst p f xs).filter q = xs.filter q := by
  induction xs with
  | nil => rfl
  | cons x xs ih =>
      rw [modifyFirst]
      by_cases hx : p x = true
      · rw [if_pos hx, List.filter_cons_of_neg (by simp [hpq _ (h x hx)]),
          List.filter_cons_of_neg (by simp [hpq x hx])]
      · rw [if_neg hx, List.filter_cons, List.filter_cons, ih]

/-- **The rest.**  An upsert leaves what meets a disjoint query as it was. -/
theorem filter_upsert_of_disjoint (h : Slot p f new) (hpq : Apart p q) (xs : List α) :
    (upsert p f new xs).filter q = xs.filter q := by
  unfold upsert
  split
  · exact filter_modifyFirst_of_disjoint hpq h.change xs
  · rw [List.filter_append, List.filter_cons_of_neg (by simp [hpq _ h.new]), List.filter_nil,
      List.append_nil]

/-- What a disjoint query finds stays as it was. -/
theorem find?_upsert_of_disjoint (h : Slot p f new) (hpq : Apart p q) (xs : List α) :
    (upsert p f new xs).find? q = xs.find? q := by
  rw [← List.head?_filter, filter_upsert_of_disjoint h hpq, List.head?_filter]

/-! ## Keys -/

variable {κ : Type v} {key : α → κ}

theorem map_modifyFirst (hk : ∀ x, key (f x) = key x) (xs : List α) :
    (modifyFirst p f xs).map key = xs.map key := by
  induction xs with
  | nil => rfl
  | cons x xs ih =>
      rw [modifyFirst]
      split
      · rw [List.map_cons, List.map_cons, hk]
      · rw [List.map_cons, List.map_cons, ih]

/-- The keys after an upsert that keeps the key of what it finds. -/
theorem prefix_map_upsert (hk : ∀ x, key (f x) = key x) (xs : List α) :
    xs.map key <+: (upsert p f new xs).map key := by
  unfold upsert
  split
  · exact (map_modifyFirst hk xs).symm ▸ List.prefix_refl _
  · rw [List.map_append]
    exact List.prefix_append _ _

/-- Where keys occur once, the member that is found is the only one to change. -/
theorem modifyFirst_eq_map [DecidableEq κ] (hn : (xs.map key).Nodup) {x : α}
    (h : xs.find? p = some x) :
    modifyFirst p f xs = xs.map fun y ↦ if key y = key x then f x else y := by
  induction xs with
  | nil => cases h
  | cons z xs ih =>
      have hn' := List.nodup_cons.mp hn
      rw [modifyFirst]
      by_cases hz : p z = true
      · rw [List.find?_cons_of_pos hz] at h
        cases h
        rw [if_pos hz, List.map_cons, if_pos rfl]
        congr 1
        refine (List.map_id _).symm.trans (List.map_congr_left fun y hy ↦ (if_neg fun hkey ↦ ?_).symm)
        exact hn'.1 (hkey ▸ List.mem_map_of_mem hy)
      · rw [List.find?_cons_of_neg hz] at h
        have hne : ¬ key z = key x := fun hkey ↦
          hn'.1 (hkey ▸ List.mem_map_of_mem (List.mem_of_find?_eq_some h))
        rw [if_neg hz, List.map_cons, if_neg hne, ih hn'.2 h]

/-! ## Upserts that find what they set -/

theorem forall₂_modifyFirst {R : α → α → Prop} (hrefl : ∀ x, R x x) {x : α}
    (h : xs.find? p = some x) (hx : R x (f x)) : List.Forall₂ R xs (modifyFirst p f xs) := by
  induction xs with
  | nil => cases h
  | cons z xs ih =>
      rw [modifyFirst]
      by_cases hz : p z = true
      · rw [List.find?_cons_of_pos hz] at h
        cases h
        rw [if_pos hz]
        exact .cons hx (List.forall₂_same.mpr fun y _ ↦ hrefl y)
      · rw [List.find?_cons_of_neg hz] at h
        rw [if_neg hz]
        exact .cons (hrefl z) (ih h)

/-- **A fixed point.**  Where what is found is as it would be set, the list stays as it is. -/
theorem forall₂_upsert {R : α → α → Prop} (hrefl : ∀ x, R x x) {x : α} (h : xs.find? p = some x)
    (hx : R x (f x)) : List.Forall₂ R xs (upsert p f new xs) := by
  rw [upsert_of_some h]
  exact forall₂_modifyFirst hrefl h hx

/-! ## The list before and after -/

variable {κ : Type v} {key : α → κ}

/-- `ys` is `xs` after an upsert under `p` that leaves `x`; what is changed keeps its key. -/
def Upserted (key : α → κ) (p : α → Bool) (xs : List α) (x : α) (ys : List α) : Prop :=
  ∃ f new, Slot p f new ∧ (∀ y, key (f y) = key y) ∧ x = ((xs.find? p).map f).getD new ∧
    ys = upsert p f new xs

namespace Upserted

variable {x : α} {ys : List α}

/-- An upsert that finds something. -/
theorem modified {y : α} (hslot : Slot p f new) (hkey : ∀ y, key (f y) = key y)
    (hy : xs.find? p = some y) : Upserted key p xs (f y) (modifyFirst p f xs) :=
  ⟨f, new, hslot, hkey, by rw [hy]; rfl, (upsert_of_some hy).symm⟩

/-- An upsert that finds nothing. -/
theorem added (hnew : p new = true) (h : xs.find? p = none) :
    Upserted key p xs new (xs ++ [new]) :=
  ⟨id, new, ⟨fun _ hx ↦ hx, hnew⟩, fun _ ↦ rfl, by rw [h]; rfl, (upsert_of_none h).symm⟩

/-- No key is lost, and the order of the keys stays. -/
theorem keys_prefix (h : Upserted key p xs x ys) : xs.map key <+: ys.map key := by
  obtain ⟨f, new, hslot, hkey, rfl, rfl⟩ := h
  exact prefix_map_upsert hkey xs

theorem find? (h : Upserted key p xs x ys) : ys.find? p = some x := by
  obtain ⟨f, new, hslot, -, rfl, rfl⟩ := h
  exact find?_upsert hslot xs

theorem find?_of_disjoint (h : Upserted key p xs x ys) (hpq : Apart p q) :
    ys.find? q = xs.find? q := by
  obtain ⟨f, new, hslot, -, rfl, rfl⟩ := h
  exact find?_upsert_of_disjoint hslot hpq xs

theorem filter_of_disjoint (h : Upserted key p xs x ys) (hpq : Apart p q) :
    ys.filter q = xs.filter q := by
  obtain ⟨f, new, hslot, -, rfl, rfl⟩ := h
  exact filter_upsert_of_disjoint hslot hpq xs

/-- **A fixed point.**  Where what is left is much what was found, the lists are alike. -/
theorem forall₂ (h : Upserted key p xs x ys) {R : α → α → Prop} (hrefl : ∀ z, R z z) {y : α}
    (hy : xs.find? p = some y) (hR : R y x) : List.Forall₂ R xs ys := by
  obtain ⟨f, new, hslot, -, rfl, rfl⟩ := h
  rw [hy, Option.map_some, Option.getD_some] at hR
  exact forall₂_upsert hrefl hy hR

/-- Where what is left is what was found, nothing changes. -/
theorem eq_of_found (h : Upserted key p xs x ys) (hx : xs.find? p = some x) : ys = xs :=
  (List.forall₂_eq_eq_eq ▸ h.forall₂ (fun _ ↦ rfl) hx rfl : xs = ys).symm

end Upserted

/-! ## A group that is set item by item -/

variable {ι : Type w} {slot : ι → α → Bool} {P : ι → α → Prop}

/-- What is found in the slots of the items is as they say, and has the keys. -/
def Found (slot : ι → α → Bool) (key : α → κ) (P : ι → α → Prop) (xs : List α) (items : List ι)
    (keys : List κ) : Prop :=
  List.Forall₂ (fun i k ↦ ∃ x, xs.find? (slot i) = some x ∧ key x = k ∧ P i x) items keys

namespace Found

variable {items : List ι} {keys : List κ} {ys : List α}

/-- What is found stays so while the slots are left alone. -/
theorem of_find? (h : Found slot key P xs items keys)
    (hfind : ∀ i ∈ items, ys.find? (slot i) = xs.find? (slot i)) :
    Found slot key P ys items keys := by
  unfold Found at h ⊢
  induction h with
  | nil => exact .nil
  | cons hi _ ih =>
      refine .cons ?_ (ih fun i hmem ↦ hfind i (List.mem_cons_of_mem _ hmem))
      rw [hfind _ List.mem_cons_self]
      exact hi

/-- **One more item.**  The slots of the items before it are other slots. -/
theorem snoc (h : Found slot key P xs items keys) {i : ι} {x : α}
    (hset : Upserted key (slot i) xs x ys) (hx : P i x) (hapart : ∀ j ∈ items, Apart (slot i) (slot j)) :
    Found slot key P ys (items ++ [i]) (keys ++ [key x]) := by
  have hbefore := h.of_find? fun j hj ↦ hset.find?_of_disjoint (hapart j hj)
  exact List.rel_append hbefore (.cons ⟨x, hset.find?, rfl, hx⟩ .nil)

/-- The members that are found, in the order of the items. -/
theorem members (h : Found slot key P xs items keys) :
    ∃ ys, List.Forall₂ (fun i y ↦ xs.find? (slot i) = some y ∧ P i y) items ys ∧
      ys.map key = keys := by
  unfold Found at h
  induction h with
  | nil => exact ⟨[], .nil, rfl⟩
  | cons hi _ ih =>
      obtain ⟨x, hx, hkey, hP⟩ := hi
      obtain ⟨ys, hys, hkeys⟩ := ih
      exact ⟨x :: ys, .cons ⟨hx, hP⟩ hys, by rw [List.map_cons, hkey, hkeys]⟩

/-- What is found in slots that are apart occurs once. -/
theorem members_nodup (h : List.Forall₂ (fun i y ↦ xs.find? (slot i) = some y ∧ P i y) items ys)
    (hapart : items.Pairwise fun i j ↦ Apart (slot i) (slot j)) : ys.Nodup := by
  induction h with
  | nil => exact List.nodup_nil
  | @cons i y items ys hi hrest ih =>
      obtain ⟨hfirst, hpair⟩ := List.pairwise_cons.mp hapart
      refine List.nodup_cons.mpr ⟨fun hmem ↦ ?_, ih hpair⟩
      obtain ⟨j, hj, hfind, -⟩ := exists_of_mem_right hrest hmem
      have hmiss := hfirst j hj y (List.find?_some hi.1)
      exact Bool.false_ne_true (hmiss.symm.trans (List.find?_some hfind))

theorem mem_keys (h : Found slot key P xs items keys) {i : ι} (hi : i ∈ items) {x : α}
    (hx : xs.find? (slot i) = some x) : key x ∈ keys := by
  unfold Found at h
  induction h with
  | nil => cases hi
  | cons hj _ ih =>
      rcases List.mem_cons.mp hi with rfl | hi
      · obtain ⟨y, hy, rfl, -⟩ := hj
        rw [Option.some.inj (hx.symm.trans hy)]
        exact List.mem_cons_self
      · exact List.mem_cons_of_mem _ (ih hi)

/-- **The group.**  Without the members that no item has left, a group is what the items say, once
each. -/
theorem perm [DecidableEq κ] (h : Found slot key P xs items keys)
    (hapart : items.Pairwise fun i j ↦ Apart (slot i) (slot j))
    (hgroup : ∀ i ∈ items, ∀ x, slot i x = true → q x = true) (hn : (xs.map key).Nodup) :
    ∃ ys, List.Forall₂ P items ys ∧ (xs.filter fun x ↦ q x && decide (key x ∈ keys)).Perm ys := by
  obtain ⟨ys, hys, rfl⟩ := h.members
  refine ⟨ys, hys.imp fun _ _ h ↦ h.2, ?_⟩
  rw [List.perm_ext_iff_of_nodup (hn.of_map.filter _) (members_nodup hys hapart)]
  have hslot : ∀ y ∈ ys, ∃ i ∈ items, xs.find? (slot i) = some y := by
    intro y hy
    obtain ⟨i, hi, hfind, -⟩ := exists_of_mem_right hys hy
    exact ⟨i, hi, hfind⟩
  intro x
  rw [List.mem_filter, Bool.and_eq_true, decide_eq_true_eq]
  constructor
  · rintro ⟨hx, -, hkey⟩
    obtain ⟨y, hy, heq⟩ := List.mem_map.mp hkey
    obtain ⟨i, -, hfind⟩ := hslot y hy
    rwa [← List.inj_on_of_nodup_map hn (List.mem_of_find?_eq_some hfind) hx heq]
  · intro hx
    obtain ⟨i, hi, hfind⟩ := hslot x hx
    exact ⟨List.mem_of_find?_eq_some hfind, hgroup i hi x (List.find?_some hfind),
      List.mem_map_of_mem hx⟩

end Found

end

end CodeArena.Lib
