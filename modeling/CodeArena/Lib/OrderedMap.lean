import Mathlib.Data.List.Dedup
import Mathlib.Data.List.Induction
import Mathlib.Data.List.Nodup
import Mathlib.Data.List.Perm.Basic
import Mathlib.Tactic.Common

/-!
# Maps that keep the order of insertion

A map as a list of its entries, every key once, a new key at the end: the maps that a
program iterates over in the order in which their keys came up.  `update` sets an entry
from what was there, `tally` counts the occurrences of each key in a list, and `group` folds
the members of a list that share a key.

The rules that carry the proofs: `get?_update` is the spec of one update, `value_tally` and
`entries_group_perm` say what a tally and a grouping come to, `foldl_increment_if` what counts
that a loop over the keys increments come to, and `foldl_assign` is about the loop that picks
one entry out of all.
-/

universe u v w

namespace CodeArena.Lib

/-- A map that keeps the order of insertion. -/
structure OrderedMap (κ : Type u) (β : Type v) where
  /-- The entries, the first one inserted first. -/
  entries : List (κ × β)
  /-- Every key occurs once. -/
  nodup : (entries.map Prod.fst).Nodup

namespace OrderedMap

variable {κ : Type u} {β : Type v}

@[ext] theorem ext {m n : OrderedMap κ β} (h : m.entries = n.entries) : m = n := by
  cases m
  cases n
  cases h
  rfl

/-- The map without entries. -/
def empty : OrderedMap κ β := ⟨[], List.nodup_nil⟩

/-- The keys, in their order. -/
def keys (m : OrderedMap κ β) : List κ := m.entries.map Prod.fst

variable [DecidableEq κ]

/-- The entries with one set: in its place, or at the end. -/
def setEntry (k : κ) (v : β) : List (κ × β) → List (κ × β)
  | [] => [(k, v)]
  | (k', v') :: es => if k' = k then (k, v) :: es else (k', v') :: setEntry k v es

theorem map_fst_setEntry (k : κ) (v : β) (es : List (κ × β)) :
    (setEntry k v es).map Prod.fst =
      if k ∈ es.map Prod.fst then es.map Prod.fst else es.map Prod.fst ++ [k] := by
  induction es with
  | nil => simp [setEntry]
  | cons e es ih =>
      obtain ⟨k', v'⟩ := e
      rw [setEntry]
      by_cases h : k' = k
      · simp [h]
      · rw [if_neg h, List.map_cons, ih]
        by_cases hk : k ∈ es.map Prod.fst
        · simp [hk]
        · simp [hk, Ne.symm h]

/-- `map.set(k, v)`. -/
def set (m : OrderedMap κ β) (k : κ) (v : β) : OrderedMap κ β where
  entries := setEntry k v m.entries
  nodup := by
    rw [map_fst_setEntry]
    split
    · exact m.nodup
    · rename_i h
      apply List.Nodup.append m.nodup (List.nodup_singleton k)
      intro a ha hk
      rw [List.mem_singleton.mp hk] at ha
      exact h ha

/-- The value of the first entry with a key. -/
def find? (k : κ) : List (κ × β) → Option β
  | [] => none
  | (k', v) :: es => if k' = k then some v else find? k es

/-- `map.get(k)`. -/
def get? (m : OrderedMap κ β) (k : κ) : Option β := find? k m.entries

@[simp] theorem get?_empty (k : κ) : (empty : OrderedMap κ β).get? k = none := rfl

theorem find?_setEntry (k k' : κ) (v : β) (es : List (κ × β)) :
    find? k' (setEntry k v es) = if k' = k then some v else find? k' es := by
  induction es with
  | nil => simp [setEntry, find?, eq_comm]
  | cons e es ih =>
      obtain ⟨a, b⟩ := e
      rw [setEntry]
      by_cases h : a = k
      · subst h
        rw [if_pos rfl, find?, find?]
        by_cases h' : k' = a
        · simp [h']
        · simp [h', Ne.symm h']
      · rw [if_neg h, find?, find?, ih]
        by_cases h' : a = k'
        · subst h'
          simp [h]
        · simp [h']

theorem get?_set (m : OrderedMap κ β) (k k' : κ) (v : β) :
    (m.set k v).get? k' = if k' = k then some v else m.get? k' :=
  find?_setEntry k k' v m.entries

/-- Setting a value in place keeps the keys. -/
theorem keys_set {m : OrderedMap κ β} {k : κ} (hk : k ∈ m.keys) (v : β) :
    (m.set k v).keys = m.keys :=
  (map_fst_setEntry k v m.entries).trans (if_pos hk)

theorem find?_eq_some_of_mem {k : κ} {v : β} {es : List (κ × β)}
    (hn : (es.map Prod.fst).Nodup) (h : (k, v) ∈ es) : find? k es = some v := by
  induction es with
  | nil => cases h
  | cons e es ih =>
      obtain ⟨a, b⟩ := e
      rw [find?]
      rcases List.mem_cons.mp h with heq | h
      · cases heq
        rw [if_pos rfl]
      · have hne : a ≠ k := by
          rintro rfl
          exact (List.nodup_cons.mp hn).1 (List.mem_map.mpr ⟨_, h, rfl⟩)
        rw [if_neg hne]
        exact ih (List.nodup_cons.mp hn).2 h

theorem mem_of_find?_eq_some {k : κ} {v : β} {es : List (κ × β)} (h : find? k es = some v) :
    (k, v) ∈ es := by
  induction es with
  | nil => cases h
  | cons e es ih =>
      obtain ⟨a, b⟩ := e
      rw [find?] at h
      split at h
      · rename_i ha
        cases h
        rw [ha]
        exact List.mem_cons_self
      · exact List.mem_cons_of_mem _ (ih h)

/-- The entries are the values under their keys. -/
theorem mem_entries_iff {m : OrderedMap κ β} {k : κ} {v : β} :
    (k, v) ∈ m.entries ↔ m.get? k = some v := by
  constructor
  · exact find?_eq_some_of_mem m.nodup
  · exact mem_of_find?_eq_some

/-- `map.set(k, f(map.get(k)))`. -/
def update (m : OrderedMap κ β) (k : κ) (f : Option β → β) : OrderedMap κ β :=
  m.set k (f (m.get? k))

/-- **One update.** -/
theorem get?_update (m : OrderedMap κ β) (k k' : κ) (f : Option β → β) :
    (m.update k f).get? k' = if k' = k then some (f (m.get? k)) else m.get? k' :=
  get?_set m k k' _

/-! ## Picking an entry -/

/-- **The loop that keeps the value of one key** comes to the value under that key, or to
what it started with. -/
theorem foldl_assign (m : OrderedMap κ β) (k : κ) (a : β) :
    m.entries.foldl (fun acc e ↦ if e.1 = k then e.2 else acc) a = (m.get? k).getD a := by
  obtain ⟨es, hn⟩ := m
  show es.foldl _ a = (find? k es).getD a
  induction es generalizing a with
  | nil => rfl
  | cons e es ih =>
      obtain ⟨k', v⟩ := e
      have hn' := List.nodup_cons.mp hn
      rw [List.foldl_cons, ih _ hn'.2, find?]
      by_cases h : k' = k
      · have hnone : find? k es = none := by
          cases hf : find? k es with
          | none => rfl
          | some w =>
              have hmem := List.mem_map_of_mem (f := Prod.fst) (mem_of_find?_eq_some hf)
              rw [← h] at hmem
              exact absurd hmem hn'.1
        simp [h, hnone]
      · simp [h]

/-! ## Tallies -/

/-- `map.set(k, (map.get(k) || 0) + 1)`. -/
def increment (m : OrderedMap κ Nat) (k : κ) : OrderedMap κ Nat :=
  m.update k fun n ↦ n.getD 0 + 1

/-- The value under a key, zero where there is none. -/
def value (m : OrderedMap κ Nat) (k : κ) : Nat := (m.get? k).getD 0

@[simp] theorem value_empty (k : κ) : (empty : OrderedMap κ Nat).value k = 0 := rfl

theorem value_increment (m : OrderedMap κ Nat) (k k' : κ) :
    (m.increment k).value k' = m.value k' + if k' = k then 1 else 0 := by
  rw [value, increment, get?_update]
  by_cases h : k' = k
  · subst h
    simp [value]
  · simp [h, value]

/-- A loop that increments some of the keys that are there adds none. -/
theorem keys_foldl_increment_if {p : κ → Prop} [DecidablePred p] {ks : List κ}
    {m : OrderedMap κ Nat} (h : ∀ k ∈ ks, k ∈ m.keys) :
    (ks.foldl (fun m k ↦ if p k then m.increment k else m) m).keys = m.keys := by
  induction ks generalizing m with
  | nil => rfl
  | cons k ks ih =>
      have hstep : (if p k then m.increment k else m).keys = m.keys := by
        split
        · exact keys_set (h k List.mem_cons_self) _
        · rfl
      have hrest : ∀ k' ∈ ks, k' ∈ (if p k then m.increment k else m).keys := by
        rw [hstep]
        exact fun k' hk' ↦ h k' (List.mem_cons_of_mem _ hk')
      rw [List.foldl_cons, ih hrest, hstep]

/-- And it increments each of them once. -/
theorem value_foldl_increment_if {p : κ → Prop} [DecidablePred p] {ks : List κ}
    {m : OrderedMap κ Nat} (hn : ks.Nodup) (k : κ) :
    (ks.foldl (fun m k ↦ if p k then m.increment k else m) m).value k =
      m.value k + if k ∈ ks ∧ p k then 1 else 0 := by
  induction ks generalizing m with
  | nil => simp
  | cons k' ks ih =>
      obtain ⟨hk', hn⟩ := List.nodup_cons.mp hn
      rw [List.foldl_cons, ih hn]
      by_cases heq : k = k'
      · subst heq
        by_cases hp : p k
        · simp [hk', hp, value_increment]
        · simp [hp]
      · have hstep : (if p k' then m.increment k' else m).value k = m.value k := by
          split
          · rw [value_increment, if_neg heq]
            rfl
          · rfl
        simp [hstep, heq]

/-- A loop that sets new keys adds them in their order. -/
theorem keys_foldl_set {v : β} {ks : List κ} {m : OrderedMap κ β} (h : (m.keys ++ ks).Nodup) :
    (ks.foldl (fun m k ↦ m.set k v) m).keys = m.keys ++ ks := by
  induction ks generalizing m with
  | nil => exact (List.append_nil _).symm
  | cons k ks ih =>
      have hk : k ∉ m.keys := fun hmem ↦
        (List.nodup_append.mp h).2.2 k hmem k List.mem_cons_self rfl
      have hkeys : (m.set k v).keys = m.keys ++ [k] :=
        (map_fst_setEntry k v m.entries).trans (if_neg hk)
      have happ : m.keys ++ [k] ++ ks = m.keys ++ k :: ks := List.append_assoc _ _ _
      rw [List.foldl_cons, ih (by rw [hkeys, happ]; exact h), hkeys, happ]

/-- And no others. -/
theorem value_foldl_set_zero {ks : List κ} {m : OrderedMap κ Nat} {k : κ} (h : m.value k = 0) :
    (ks.foldl (fun m k ↦ m.set k 0) m).value k = 0 := by
  induction ks generalizing m with
  | nil => exact h
  | cons k' ks ih =>
      apply ih
      rw [value, get?_set]
      split
      · rfl
      · exact h

/-- **Cumulative counts**: from zeros, each member of a list increments the keys that it is
related to, and a key comes to how many members are. -/
theorem foldl_increment_if {α : Type w} {p : α → κ → Prop} [∀ x, DecidablePred (p x)]
    {ks : List κ} (hn : ks.Nodup) (xs : List α) :
    let m := xs.foldl (fun m x ↦ ks.foldl (fun m k ↦ if p x k then m.increment k else m) m)
      (ks.foldl (fun m k ↦ m.set k 0) empty)
    m.keys = ks ∧ ∀ k ∈ ks, m.value k = xs.countP fun x ↦ p x k := by
  induction xs using List.reverseRecOn with
  | nil => exact ⟨keys_foldl_set hn, fun k _ ↦ value_foldl_set_zero rfl⟩
  | append_singleton xs x ih =>
      obtain ⟨hkeys, hvalue⟩ := ih
      dsimp only
      rw [List.foldl_concat]
      refine ⟨(keys_foldl_increment_if fun k hk ↦ hkeys.symm ▸ hk).trans hkeys, fun k hk ↦ ?_⟩
      rw [value_foldl_increment_if hn, hvalue k hk, List.countP_append]
      by_cases hp : p x k
      · simp [hk, hp]
      · simp [hp]

/-- The entries of a map of numbers are the values under its keys. -/
theorem entries_eq_map_value (m : OrderedMap κ Nat) :
    m.entries = m.keys.map fun k ↦ (k, m.value k) := by
  rw [keys, List.map_map]
  refine (List.map_id _).symm.trans (List.map_congr_left fun e he ↦ ?_)
  have hget : m.get? e.1 = some e.2 := mem_entries_iff.mp he
  show e = (e.1, m.value e.1)
  rw [value, hget]
  rfl

/-- The occurrences of each key in a list, in the order of the first ones. -/
def tally (ks : List κ) : OrderedMap κ Nat := ks.foldl increment empty

theorem value_foldl_increment (ks : List κ) (m : OrderedMap κ Nat) (k : κ) :
    (ks.foldl increment m).value k = m.value k + ks.countP (· = k) := by
  induction ks generalizing m with
  | nil => simp
  | cons a ks ih =>
      rw [List.foldl_cons, ih, value_increment, List.countP_cons]
      by_cases h : k = a
      · subst h
        simp only [decide_true, if_true]
        omega
      · have h' : ¬ a = k := fun ha ↦ h ha.symm
        simp [h, h']

/-- A key counts as often as it occurs. -/
theorem value_tally (ks : List κ) (k : κ) : (tally ks).value k = ks.countP (· = k) := by
  rw [tally, value_foldl_increment, value_empty, Nat.zero_add]

/-! ## Grouping -/

section Group

variable {α : Type w}

/-- The values of a list that have one key, folded into one value for each key. -/
def group (key : α → κ) (step : β → α → β) (start : β) (xs : List α) : OrderedMap κ β :=
  xs.foldl (fun m x ↦ m.update (key x) fun v ↦ step (v.getD start) x) empty

variable {key : α → κ} {step : β → α → β} {start : β}

/-- The value of a key comes from the members with that key. -/
theorem get?_group (xs : List α) (k : κ) :
    (group key step start xs).get? k =
      if k ∈ xs.map key then some ((xs.filter (key · = k)).foldl step start) else none := by
  induction xs using List.reverseRecOn with
  | nil => rfl
  | append_singleton xs x ih =>
      rw [group, List.foldl_concat, get?_update]
      by_cases h : k = key x
      · subst h
        have hmem : key x ∈ (xs ++ [x]).map key := by simp
        have hfilter : (xs ++ [x]).filter (key · = key x) = xs.filter (key · = key x) ++ [x] := by
          simp
        rw [if_pos rfl, if_pos hmem, hfilter, List.foldl_concat]
        show some (step (((group key step start xs).get? (key x)).getD start) x) = _
        rw [ih]
        by_cases hold : key x ∈ xs.map key
        · rw [if_pos hold]
          rfl
        · have hnone : xs.filter (key · = key x) = [] := by
            simpa [List.filter_eq_nil_iff] using hold
          rw [if_neg hold, hnone]
          rfl
      · have hfilter : (xs ++ [x]).filter (key · = k) = xs.filter (key · = k) := by
          simp [Ne.symm h]
        have hmem : k ∈ (xs ++ [x]).map key ↔ k ∈ xs.map key := by
          simp [h]
        rw [if_neg h, hfilter]
        simp only [hmem]
        exact ih

/-- An entry of a grouping has the key of a member. -/
theorem exists_of_mem_entries_group {xs : List α} {e : κ × β}
    (he : e ∈ (group key step start xs).entries) : ∃ x ∈ xs, e.1 = key x := by
  have hget : (group key step start xs).get? e.1 = some e.2 := mem_entries_iff.mp he
  rw [get?_group] at hget
  split at hget
  case isTrue hk =>
    obtain ⟨x, hx, heq⟩ := List.mem_map.mp hk
    exact ⟨x, hx, heq.symm⟩
  case isFalse => cases hget

/-- **A grouping lists every key that occurs, with what its members come to.** -/
theorem entries_group_perm (xs : List α) :
    (group key step start xs).entries.Perm
      ((xs.map key).dedup.map fun k ↦ (k, (xs.filter (key · = k)).foldl step start)) := by
  apply (List.perm_ext_iff_of_nodup (List.Nodup.of_map Prod.fst (nodup _)) ?_).mpr
  · rintro ⟨k, v⟩
    rw [mem_entries_iff, get?_group]
    constructor
    · intro h
      split at h
      case isTrue hk =>
        cases h
        exact List.mem_map.mpr ⟨k, List.mem_dedup.mpr hk, rfl⟩
      case isFalse => cases h
    · intro h
      obtain ⟨k', hk', heq⟩ := List.mem_map.mp h
      cases heq
      exact if_pos (List.mem_dedup.mp hk')
  · exact List.Nodup.map (fun k k' h ↦ (Prod.mk.inj h).1) (List.nodup_dedup _)

/-- Values without repetitions, through a function that tells them apart. -/
theorem dedup_map_perm {τ : Type w} [DecidableEq τ] {f : τ → κ} {ts : List τ}
    (hf : ∀ t ∈ ts, ∀ t' ∈ ts, f t = f t' → t = t') :
    (ts.map f).dedup.Perm (ts.dedup.map f) := by
  apply (List.perm_ext_iff_of_nodup (List.nodup_dedup _) ?_).mpr
  · intro k
    simp only [List.mem_dedup, List.mem_map]
  · apply List.Nodup.map_on _ (List.nodup_dedup _)
    intro t ht t' ht'
    exact hf t (List.mem_dedup.mp ht) t' (List.mem_dedup.mp ht')

/-- A grouping by keys that stand for something else, one for each. -/
theorem entries_group_perm_of_inj {τ : Type w} [DecidableEq τ] {f : τ → κ} {g : α → τ}
    (xs : List α) (hf : ∀ x ∈ xs, ∀ y ∈ xs, f (g x) = f (g y) → g x = g y) :
    (group (fun x ↦ f (g x)) step start xs).entries.Perm
      ((xs.map g).dedup.map fun t ↦ (f t, (xs.filter (g · = t)).foldl step start)) := by
  have hf' : ∀ t ∈ xs.map g, ∀ t' ∈ xs.map g, f t = f t' → t = t' := by
    intro t ht t' ht'
    obtain ⟨x, hx, rfl⟩ := List.mem_map.mp ht
    obtain ⟨y, hy, rfl⟩ := List.mem_map.mp ht'
    exact hf x hx y hy
  have hmap : xs.map (fun x ↦ f (g x)) = (xs.map g).map f := List.map_map.symm
  refine (entries_group_perm xs).trans ?_
  rw [hmap]
  refine ((dedup_map_perm hf').map _).trans (List.Perm.of_eq ?_)
  rw [List.map_map]
  apply List.map_congr_left
  intro t ht
  have hfilter : xs.filter (fun x ↦ f (g x) = f t) = xs.filter (g · = t) := by
    apply List.filter_congr
    intro x hx
    have hiff : f (g x) = f t ↔ g x = t :=
      ⟨hf' (g x) (List.mem_map_of_mem hx) t (List.mem_dedup.mp ht), congrArg f⟩
    simp only [hiff]
  show (f t, _) = _
  rw [hfilter]

end Group

end OrderedMap

end CodeArena.Lib
