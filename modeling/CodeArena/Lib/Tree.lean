import CodeArena.Lib.OrderedMap
import CodeArena.Lib.Related
import Mathlib.Data.Option.Basic

/-!
# Trees with secrets

Finite trees of lists and records, in which the values under some keys are secret.  Two trees
are `Alike` if they differ only in secret values, wherever these are.

`mask` hides the secret values in the levels at the top of a tree.  What it shows does not
depend on the secret values exactly if no secret key lies below those levels
(`mask_alike_iff`): one that does lets a value through.
-/

namespace CodeArena.Lib

universe u v

/-- A tree of lists and records. -/
inductive Tree (κ : Type u) (β : Type v) where
  | leaf (b : β)
  | list (items : List (Tree κ β))
  | record (entries : List (κ × Tree κ β))

namespace Tree

variable {κ : Type u} {β : Type v}

/-- Induction over the items of a list and the values of a record. -/
@[elab_as_elim]
theorem ind {motive : Tree κ β → Prop} (leaf : ∀ b, motive (leaf b))
    (list : ∀ ts, (∀ t ∈ ts, motive t) → motive (list ts))
    (record : ∀ es, (∀ e ∈ es, motive e.2) → motive (record es)) (t : Tree κ β) : motive t :=
  @Tree.rec κ β motive (fun ts ↦ ∀ t ∈ ts, motive t) (fun es ↦ ∀ e ∈ es, motive e.2)
    (fun e ↦ motive e.2) leaf list record
    (List.forall_mem_nil _) (fun _ _ ht hts ↦ List.forall_mem_cons.mpr ⟨ht, hts⟩)
    (List.forall_mem_nil _) (fun _ _ he hes ↦ List.forall_mem_cons.mpr ⟨he, hes⟩)
    (fun _ _ ht ↦ ht) t

variable (secret : κ → Bool)

mutual

/-- Trees that differ only in values under secret keys. -/
inductive Alike : Tree κ β → Tree κ β → Prop
  | leaf (b : β) : Alike (leaf b) (leaf b)
  | list {ts us : List (Tree κ β)} : List.Forall₂ Alike ts us → Alike (list ts) (list us)
  | record {es fs : List (κ × Tree κ β)} :
      List.Forall₂ AlikeEntry es fs → Alike (record es) (record fs)

/-- Entries that differ only in values under secret keys. -/
inductive AlikeEntry : κ × Tree κ β → κ × Tree κ β → Prop
  | secret {k : κ} (t u : Tree κ β) : secret k = true → AlikeEntry (k, t) (k, u)
  | open {k : κ} {t u : Tree κ β} : Alike t u → AlikeEntry (k, t) (k, u)

end

/-- A secret key at a level of a tree that is not itself in a secret value. -/
inductive Exposes : Nat → Tree κ β → Prop
  | here {k : κ} {t : Tree κ β} {es : List (κ × Tree κ β)} :
      (k, t) ∈ es → secret k = true → Exposes 0 (record es)
  | list {d : Nat} {t : Tree κ β} {ts : List (Tree κ β)} :
      t ∈ ts → Exposes d t → Exposes (d + 1) (list ts)
  | record {d : Nat} {k : κ} {t : Tree κ β} {es : List (κ × Tree κ β)} :
      (k, t) ∈ es → secret k = false → Exposes d t → Exposes (d + 1) (record es)

/-- Hides the secret values in so many levels. -/
def mask (hidden : β) : Nat → Tree κ β → Tree κ β
  | 0, t => t
  | _ + 1, leaf b => leaf b
  | n + 1, list ts => list (ts.map (mask hidden n))
  | n + 1, record es => record (es.map fun e ↦
      (e.1, if secret e.1 then leaf hidden else mask hidden n e.2))

variable {secret}

theorem Alike.refl (t : Tree κ β) : Alike secret t t := by
  induction t using Tree.ind with
  | leaf b => exact .leaf b
  | list ts ih => exact .list (List.forall₂_same.mpr ih)
  | record es ih => exact .record (List.forall₂_same.mpr fun e he ↦ .open (ih e he))

theorem AlikeEntry.key_eq {e f : κ × Tree κ β} (h : AlikeEntry secret e f) : e.1 = f.1 := by
  cases h with
  | secret t u hk => rfl
  | «open» h => rfl

/-- Under a key that is not secret, alike records have alike values. -/
theorem find?_alike [DecidableEq κ] {k : κ} {es fs : List (κ × Tree κ β)}
    (h : List.Forall₂ (AlikeEntry secret) es fs) (hk : secret k = false) :
    Option.Rel (Alike secret) (OrderedMap.find? k es) (OrderedMap.find? k fs) := by
  induction h with
  | nil => exact .none
  | @cons e f es fs hef _ ih =>
      obtain ⟨k', t⟩ := e
      obtain ⟨k'', u⟩ := f
      obtain rfl : k' = k'' := hef.key_eq
      rw [OrderedMap.find?, OrderedMap.find?]
      split
      · rename_i heq
        subst heq
        cases hef with
        | secret t u hk' => rw [hk] at hk'; cases hk'
        | «open» h => exact .some h
      · exact ih

/-- A value can always be changed. -/
theorem list_singleton_ne (t : Tree κ β) : list [t] ≠ t := by
  induction t using Tree.ind with
  | leaf b => exact nofun
  | list ts ih =>
      intro h
      have hmem : list ts ∈ [list ts] := List.mem_singleton_self _
      rw [Tree.list.inj h] at hmem
      exact ih (list ts) hmem h
  | record es _ => exact nofun

/-! ## What a mask hides -/

section

variable {hidden : β} {n : Nat}

theorem mask_zero (t : Tree κ β) : mask secret hidden 0 t = t := by
  rw [mask]

theorem mask_leaf (b : β) : mask secret hidden n (leaf b) = leaf b := by
  cases n with
  | zero => rfl
  | succ n => rfl

theorem mask_list (ts : List (Tree κ β)) :
    mask secret hidden n (list ts) = list (ts.map (mask secret hidden (n - 1))) := by
  cases n with
  | zero => simp [mask]
  | succ n => rfl

/-- An entry, with its value hidden where it is secret and in the levels at the top. -/
def maskEntry (secret : κ → Bool) (hidden : β) (n : Nat) (e : κ × Tree κ β) : κ × Tree κ β :=
  (e.1, if 0 < n ∧ secret e.1 = true then leaf hidden else mask secret hidden (n - 1) e.2)

theorem maskEntry_of_secret {k : κ} (hn : 0 < n) (hk : secret k = true) (t : Tree κ β) :
    maskEntry secret hidden n (k, t) = (k, leaf hidden) := congrArg (Prod.mk k) (if_pos ⟨hn, hk⟩)

theorem maskEntry_of_not {k : κ} (h : ¬ (0 < n ∧ secret k = true)) (t : Tree κ β) :
    maskEntry secret hidden n (k, t) = (k, mask secret hidden (n - 1) t) :=
  congrArg (Prod.mk k) (if_neg h)

theorem mask_record (es : List (κ × Tree κ β)) :
    mask secret hidden n (record es) = record (es.map (maskEntry secret hidden n)) := by
  cases n with
  | zero =>
      have hentry : maskEntry secret hidden 0 = id := by
        funext e
        exact (maskEntry_of_not (fun h ↦ Nat.lt_irrefl 0 h.1) e.2).trans
          (congrArg (Prod.mk e.1) (mask_zero e.2))
      rw [hentry, List.map_id, mask_zero]
  | succ n =>
      refine congrArg Tree.record (List.map_congr_left fun e _ ↦ congrArg (Prod.mk e.1) ?_)
      simp

/-- **Without secret keys below them**, the levels at the top show the same of alike trees. -/
theorem Alike.mask_eq {t u : Tree κ β} (h : Alike secret t u)
    (hn : ∀ d, Exposes secret d t → d < n) : mask secret hidden n t = mask secret hidden n u := by
  induction t using Tree.ind generalizing n u with
  | leaf b =>
      cases h
      rfl
  | list ts ih =>
      obtain _ | hts := h
      rw [mask_list, mask_list]
      refine congrArg Tree.list (map_eq_of_related_mem hts fun t ht u htu ↦ ?_)
      exact ih t ht htu fun d hd ↦ Nat.lt_sub_of_add_lt (hn (d + 1) (.list ht hd))
  | record es ih =>
      obtain _ | _ | hes := h
      rw [mask_record, mask_record]
      refine congrArg Tree.record (map_eq_of_related_mem hes fun e he f hef ↦ ?_)
      cases hef with
      | @secret k t u hk =>
          have hpos : 0 < n := hn 0 (.here he hk)
          rw [maskEntry_of_secret hpos hk, maskEntry_of_secret hpos hk]
      | @«open» k t u htu =>
          cases hk : secret k with
          | true =>
              have hpos : 0 < n := hn 0 (.here he hk)
              rw [maskEntry_of_secret hpos hk, maskEntry_of_secret hpos hk]
          | false =>
              have hnot : ¬ (0 < n ∧ secret k = true) := by simp [hk]
              rw [maskEntry_of_not hnot, maskEntry_of_not hnot]
              exact congrArg (Prod.mk k) (ih (k, t) he htu fun d hd ↦
                Nat.lt_sub_of_add_lt (hn (d + 1) (.record he hk hd)))

/-- **A secret key below the levels** lets its value through. -/
theorem Exposes.leaks {d : Nat} {t : Tree κ β} (h : Exposes secret d t) (hn : n ≤ d) :
    ∃ u, Alike secret t u ∧ mask secret hidden n u ≠ mask secret hidden n t := by
  induction h generalizing n with
  | @here k t es he hk =>
      obtain rfl := Nat.le_zero.mp hn
      have hentry : (k, Tree.list [t]) ≠ (k, t) := fun h ↦ list_singleton_ne t (Prod.mk.inj h).2
      obtain ⟨fs, hfs, hne⟩ := exists_related_map_ne (f := id) (R := AlikeEntry secret)
        (fun e ↦ .open (Alike.refl e.2)) he (.secret t (Tree.list [t]) hk) hentry
      rw [List.map_id, List.map_id] at hne
      exact ⟨Tree.record fs, .record hfs, fun h ↦ hne (Tree.record.inj h)⟩
  | @list d t ts ht _ ih =>
      obtain ⟨u, hu, hne⟩ := ih (Nat.sub_le_of_le_add hn)
      obtain ⟨us, hus, hmap⟩ := exists_related_map_ne Alike.refl ht hu hne
      refine ⟨Tree.list us, .list hus, fun h ↦ hmap ?_⟩
      rw [mask_list, mask_list] at h
      exact Tree.list.inj h
  | @record d k t es he hk _ ih =>
      obtain ⟨u, hu, hne⟩ := ih (Nat.sub_le_of_le_add hn)
      have hnot : ¬ (0 < n ∧ secret k = true) := by simp [hk]
      have hentry : maskEntry secret hidden n (k, u) ≠ maskEntry secret hidden n (k, t) := by
        rw [maskEntry_of_not hnot, maskEntry_of_not hnot]
        exact fun h ↦ hne (Prod.mk.inj h).2
      obtain ⟨fs, hfs, hmap⟩ := exists_related_map_ne (R := AlikeEntry secret)
        (fun e ↦ .open (Alike.refl e.2)) he (.open hu) hentry
      refine ⟨Tree.record fs, .record hfs, fun h ↦ hmap ?_⟩
      rw [mask_record, mask_record] at h
      exact Tree.record.inj h

/-- **What a mask shows does not depend on the secrets** exactly if no secret key lies below the
levels that it hides. -/
theorem mask_alike_iff {t : Tree κ β} :
    (∀ u, Alike secret t u → mask secret hidden n u = mask secret hidden n t) ↔
      ∀ d, Exposes secret d t → d < n := by
  constructor
  · intro h d hd
    by_contra hlt
    obtain ⟨u, hu, hne⟩ := hd.leaks (Nat.not_lt.mp hlt)
    exact hne (h u hu)
  · exact fun h u hu ↦ (hu.mask_eq h).symm

end

end Tree

end CodeArena.Lib
