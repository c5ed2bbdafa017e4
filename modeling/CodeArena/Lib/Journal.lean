import CodeArena.Lib.Machine
import CodeArena.Lib.OrderedMap
import Mathlib.Data.List.Nodup
import Mathlib.Data.List.Perm.Basic
import Mathlib.Data.List.Perm.Subperm

/-!
# Journals that are written behind

Each of any number of writers acts, and writes an entry about what it did to a journal some
time later; others act and write in between, and an entry may be dropped.  So the journal need
not have the order of the acts, but nothing in it was made up, and nothing is in it twice
(`subperm_of_run`); and where nothing is dropped, only what waits to be written is missing
(`perm_of_run`).

An entry is about a key.  If nobody acts about a key while an entry about it waits, then for
every key the journal is in the order of the acts (`inOrder_of_run`).
-/

universe u v w

namespace CodeArena.Lib

open OrderedMap (find? mem_of_find?_eq_some find?_eq_some_of_mem)

/-- A journal, with what has been done. -/
structure Journal (ι : Type u) (ε : Type v) where
  /-- The acts, in their order. -/
  made : List ε
  /-- What waits to be written, and by whom. -/
  waiting : List (ι × ε)
  /-- What is in the journal. -/
  written : List ε

namespace Journal

variable {ι : Type u} {ε : Type v} {κ : Type w}

/-- What a writer does. -/
inductive Move (ι : Type u) (ε : Type v) where
  | act (i : ι) (e : ε)
  | write (i : ι)
  | drop (i : ι)

/-- What waits without a writer. -/
def others [DecidableEq ι] (i : ι) (waiting : List (ι × ε)) : List (ι × ε) :=
  waiting.filter (·.1 ≠ i)

/-- The entries about a key. -/
def about [DecidableEq κ] (key : ε → κ) (k : κ) (es : List ε) : List ε := es.filter (key · = k)

/-- All entries that have been made and not been dropped. -/
def entries (s : Journal ι ε) : List ε := s.written ++ s.waiting.map Prod.snd

/-- Entries about a key wait once. -/
def Orderly (key : ε → κ) (s : Journal ι ε) : Move ι ε → Prop
  | .act _ e => ∀ p ∈ s.waiting, key p.2 ≠ key e
  | .write _ => True
  | .drop _ => False

/-- No entry is dropped. -/
def Kept (_ : Journal ι ε) : Move ι ε → Prop
  | .drop _ => False
  | _ => True

section Machine

variable [DecidableEq ι]

/-- One move. -/
def move (s : Journal ι ε) : Move ι ε → Option (Journal ι ε)
  | .act i e =>
    if i ∈ s.waiting.map Prod.fst then none
    else some ⟨s.made ++ [e], s.waiting ++ [(i, e)], s.written⟩
  | .write i =>
    (find? i s.waiting).map fun e ↦ ⟨s.made, others i s.waiting, s.written ++ [e]⟩
  | .drop i => (find? i s.waiting).map fun _ ↦ ⟨s.made, others i s.waiting, s.written⟩

/-- Journals that start empty. -/
def machine : Machine (Journal ι ε) (Move ι ε) := ⟨⟨[], [], []⟩, move⟩

end Machine

section

variable [DecidableEq ι] {i : ι} {e : ε} {waiting : List (ι × ε)}

theorem others_eq_self (h : i ∉ waiting.map Prod.fst) : others i waiting = waiting := by
  rw [others, List.filter_eq_self]
  rintro p hp
  exact decide_eq_true fun heq ↦ h (List.mem_map.mpr ⟨p, hp, heq⟩)

/-- What waits is one entry and the others. -/
theorem perm_others (h : (i, e) ∈ waiting) (hn : (waiting.map Prod.fst).Nodup) :
    waiting.Perm ((i, e) :: others i waiting) := by
  induction waiting with
  | nil => cases h
  | cons p waiting ih =>
      obtain ⟨hp, hn⟩ := List.nodup_cons.mp hn
      rcases List.mem_cons.mp h with rfl | h
      · rw [others, List.filter_cons_of_neg (by simp)]
        rw [show waiting.filter (·.1 ≠ i) = waiting from others_eq_self hp]
      · have hne : p.1 ≠ i := by
          rintro rfl
          exact hp (List.mem_map.mpr ⟨_, h, rfl⟩)
        rw [others, List.filter_cons_of_pos (by simpa using hne)]
        exact ((ih h hn).cons p).trans (List.Perm.swap _ _ _)

theorem nodup_others (hn : (waiting.map Prod.fst).Nodup) :
    ((others i waiting).map Prod.fst).Nodup :=
  hn.sublist (List.filter_sublist.map _)

/-- An entry that is written was waiting. -/
theorem perm_write (h : (i, e) ∈ waiting) (hn : (waiting.map Prod.fst).Nodup) (written : List ε) :
    (written ++ waiting.map Prod.snd).Perm
      ((written ++ [e]) ++ (others i waiting).map Prod.snd) := by
  rw [List.append_assoc]
  exact ((perm_others h hn).map Prod.snd).append_left written

/-- Who waits without a writer. -/
theorem mem_others {j : ι} : (j, e) ∈ others i waiting ↔ (j, e) ∈ waiting ∧ j ≠ i := by
  rw [others, List.mem_filter, decide_eq_true_iff]

end

/-! ## Every run -/

section

variable {s t : Journal ι ε}

/-- Everybody waits with one entry, and it was made. -/
structure Sound (s : Journal ι ε) : Prop where
  writers : (s.waiting.map Prod.fst).Nodup
  entries : s.entries.Subperm s.made

theorem nodup_act {i : ι} (hn : (s.waiting.map Prod.fst).Nodup) (hi : i ∉ s.waiting.map Prod.fst)
    (e : ε) : ((s.waiting ++ [(i, e)]).map Prod.fst).Nodup := by
  rw [List.map_append]
  exact List.nodup_append_comm.mp (List.nodup_cons.mpr ⟨hi, hn⟩)

/-- What an act adds. -/
theorem entries_act {i : ι} {e : ε} {made : List ε} :
    entries ⟨made, s.waiting ++ [(i, e)], s.written⟩ = s.entries ++ [e] := by
  rw [entries, entries, List.map_append, List.append_assoc]
  rfl

variable [DecidableEq ι] {m : Move ι ε} {ok : Journal ι ε → Move ι ε → Prop}
  {ms : List (Move ι ε)}

theorem sound_of_move (hs : Sound s) (h : s.move m = some t) : Sound t := by
  cases m with
  | act i e =>
      simp only [move] at h
      split at h
      · cases h
      · rename_i hi
        cases h
        refine ⟨nodup_act hs.writers hi e, ?_⟩
        rw [entries_act]
        exact (List.subperm_append_right [e]).mpr hs.entries
  | write i =>
      obtain ⟨e, hfound, rfl⟩ := Option.map_eq_some_iff.mp h
      exact ⟨nodup_others hs.writers,
        (perm_write (mem_of_find?_eq_some hfound) hs.writers s.written).symm.subperm.trans
          hs.entries⟩
  | drop i =>
      obtain ⟨e, hfound, rfl⟩ := Option.map_eq_some_iff.mp h
      refine ⟨nodup_others hs.writers, List.Subperm.trans ?_ hs.entries⟩
      exact ((List.filter_sublist.map _).append_left s.written).subperm

theorem sound_of_run (h : machine.Run ok machine.init ms s) : Sound s :=
  h.invariant ⟨List.nodup_nil, List.Subperm.refl _⟩ fun _ _ _ hs _ hm ↦ sound_of_move hs hm

/-- **Nothing in a journal was made up**, and nothing is in it twice. -/
theorem subperm_of_run (h : machine.Run ok machine.init ms s) : s.written.Subperm s.made :=
  (List.sublist_append_left _ _).subperm.trans (sound_of_run h).entries

/-- **Nothing but what waits is missing**, where no entry is dropped. -/
theorem perm_of_run (h : machine.Run Kept machine.init ms s) : s.entries.Perm s.made := by
  refine (h.invariant (I := fun s ↦ Sound s ∧ s.entries.Perm s.made)
    ⟨⟨List.nodup_nil, List.Subperm.refl _⟩, .refl _⟩ ?_).2
  rintro s m t ⟨hs, hperm⟩ hkept h
  refine ⟨sound_of_move hs h, ?_⟩
  cases m with
  | act i e =>
      simp only [machine, move] at h
      split at h
      · cases h
      · cases h
        rw [entries_act]
        exact hperm.append_right [e]
  | write i =>
      obtain ⟨e, hfound, rfl⟩ := Option.map_eq_some_iff.mp h
      exact (perm_write (mem_of_find?_eq_some hfound) hs.writers s.written).symm.trans hperm
  | drop i => exact hkept.elim

end

/-! ## Runs that are orderly -/

section

variable [DecidableEq κ] {key : ε → κ} {k : κ}

/-- **What entries come to for a key** depends on those about it only. -/
theorem foldl_about {β ρ : Type*} {f : β → ε → β} {g : ρ → ε → ρ} (get : β → ρ)
    (h : ∀ b e, get (f b e) = if key e = k then g (get b) e else get b) (es : List ε) (b : β) :
    get (es.foldl f b) = (about key k es).foldl g (get b) := by
  induction es generalizing b with
  | nil => rfl
  | cons e es ih =>
      rw [List.foldl_cons, ih, h, about, about]
      by_cases hk : key e = k
      · rw [if_pos hk, List.filter_cons_of_pos (by simpa using hk), List.foldl_cons]
      · rw [if_neg hk, List.filter_cons_of_neg (by simpa using hk)]

theorem about_append (xs ys : List ε) : about key k (xs ++ ys) = about key k xs ++ about key k ys :=
  List.filter_append ..

variable [DecidableEq ι]

/-- For every key, entries are in the order of the acts, and at most one waits. -/
structure InOrder (key : ε → κ) (s : Journal ι ε) : Prop where
  writers : (s.waiting.map Prod.fst).Nodup
  keys : (s.waiting.map fun p ↦ key p.2).Nodup
  entries : ∀ k, about key k s.entries = about key k s.made

/-- **An entry that is written is the next one about its key.** -/
theorem about_write {i : ι} {e : ε} {waiting : List (ι × ε)} (h : (i, e) ∈ waiting)
    (hwriters : (waiting.map Prod.fst).Nodup) (hkeys : (waiting.map fun p ↦ key p.2).Nodup) :
    about key k (waiting.map Prod.snd) =
      about key k [e] ++ about key k ((others i waiting).map Prod.snd) := by
  have hperm := ((perm_others h hwriters).map Prod.snd).filter (key · = k)
  by_cases hk : key e = k
  · -- No other entry about the key waits.
    have hnone : about key k ((others i waiting).map Prod.snd) = [] := by
      have hnodup := (((perm_others h hwriters).map fun p ↦ key p.2).nodup_iff).mp hkeys
      refine List.filter_eq_nil_iff.mpr fun e' he' heq ↦ ?_
      obtain ⟨p, hp, rfl⟩ := List.mem_map.mp he'
      refine (List.nodup_cons.mp hnodup).1 (List.mem_map.mpr ⟨p, hp, ?_⟩)
      exact (of_decide_eq_true heq).trans hk.symm
    rw [List.map_cons, List.filter_cons_of_pos (by simpa using hk)] at hperm
    rw [hnone, List.append_nil, about, about, List.filter_cons_of_pos (by simpa using hk),
      List.filter_nil]
    refine List.perm_singleton.mp (hperm.trans ?_)
    rw [show List.filter _ _ = _ from hnone]
  · -- What waits about other keys plays no part.
    have hone : about key k [e] = [] := by simp [about, hk]
    rw [hone, List.nil_append, about, about, others, List.filter_map, List.filter_map,
      List.filter_filter]
    congr 1
    refine List.filter_congr fun p hp ↦ ?_
    have hne : key p.2 = k → p.1 ≠ i := by
      intro hp' hi
      have heq : p = (i, e) := List.inj_on_of_nodup_map hwriters hp h hi
      rw [heq] at hp'
      exact hk hp'
    by_cases hp' : key p.2 = k
    · simp [hp', hne hp']
    · simp [hp']

variable {s : Journal ι ε} {ms : List (Move ι ε)}

/-- **For every key a journal is in the order of the acts**, but for an entry that waits. -/
theorem inOrder_of_run (h : machine.Run (Orderly key) machine.init ms s) : InOrder key s := by
  refine h.invariant (I := InOrder key) ⟨List.nodup_nil, List.nodup_nil, fun _ ↦ rfl⟩ ?_
  intro s m t hs hok h
  cases m with
  | act i e =>
      simp only [machine, move] at h
      split at h
      · cases h
      · rename_i hi
        cases h
        refine ⟨nodup_act hs.writers hi e, ?_, fun k ↦ ?_⟩
        · rw [List.map_append]
          refine List.nodup_append_comm.mp (List.nodup_cons.mpr ⟨fun hmem ↦ ?_, hs.keys⟩)
          obtain ⟨p, hp, heq⟩ := List.mem_map.mp hmem
          exact hok p hp heq
        · rw [entries_act, about_append, about_append, hs.entries]
  | write i =>
      obtain ⟨e, hfound, rfl⟩ := Option.map_eq_some_iff.mp h
      refine ⟨nodup_others hs.writers, hs.keys.sublist (List.filter_sublist.map _), fun k ↦ ?_⟩
      rw [← hs.entries k, entries, entries, about_append, about_append, about_append,
        about_write (mem_of_find?_eq_some hfound) hs.writers hs.keys, List.append_assoc]
  | drop i => exact hok.elim

end

end Journal

end CodeArena.Lib
