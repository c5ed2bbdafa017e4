import Mathlib.Data.List.Infix
import Mathlib.Tactic.Common

/-!
# File trees with symbolic links

A tree of files, directories and symbolic links, as a function from the real paths: the names
from the root on, with no link on the way.  `walk` is how a path is resolved to a directory.
It follows the links it meets, which may lead anywhere, and at most a given number of them.

`Walks` is the same as a relation, and the rules are about it: a walk through two paths in a
row is two walks (`walks_append_iff`), it ends in a directory (`Walks.directory`), and without
a link it ends where the names say (`Walks.eq_append`).

`prune` removes an entry with all that is below it, and does not follow links there.
-/

universe u

namespace CodeArena.Lib

/-- A component of a path. -/
inductive Component (ν : Type u) where
  /-- `.` -/
  | current
  /-- `..` -/
  | parent
  | name (n : ν)
deriving DecidableEq

/-- What a symbolic link holds: a path from the root, or from the directory of the link. -/
structure Target (ν : Type u) where
  absolute : Bool
  components : List (Component ν)
deriving DecidableEq

/-- Where a link leads to, from its directory. -/
def Target.start {ν : Type u} (target : Target ν) (dir : List ν) : List ν :=
  if target.absolute then [] else dir

/-- What there is under a real path. -/
inductive Entry (ν : Type u) where
  | file
  | directory
  | link (target : Target ν)
deriving DecidableEq

/-- A tree of files. -/
@[ext] structure FileTree (ν : Type u) where
  entry : List ν → Option (Entry ν)
  root : entry [] = some .directory
  /-- What there is, is in a directory. -/
  closed {dir : List ν} {n : ν} : entry (dir ++ [n]) ≠ none → entry dir = some .directory

namespace FileTree

variable {ν : Type u} (t : FileTree ν)

/-- What is above an entry is a directory. -/
theorem directory_of_append {dir ns : List ν} (hns : ns ≠ []) (h : t.entry (dir ++ ns) ≠ none) :
    t.entry dir = some .directory := by
  induction ns using List.reverseRecOn with
  | nil => exact absurd rfl hns
  | append_singleton ns n ih =>
      rw [← List.append_assoc] at h
      have hdir := t.closed h
      by_cases hnil : ns = []
      · rwa [hnil, List.append_nil] at hdir
      · exact ih hnil (by rw [hdir]; exact Option.some_ne_none _)

/-- Where there is no entry, there is none below. -/
theorem entry_eq_none_of_prefix {dir p : List ν} (h : t.entry dir = none) (hp : dir <+: p) :
    t.entry p = none := by
  obtain ⟨ns, rfl⟩ := hp
  by_cases hns : ns = []
  · rwa [hns, List.append_nil]
  · by_contra hentry
    exact absurd (h.symm.trans (t.directory_of_append hns hentry)) nofun

/-- The directory of a directory. -/
theorem directory_dropLast {dir : List ν} (h : t.entry dir = some .directory) :
    t.entry dir.dropLast = some .directory := by
  cases dir using List.reverseRecOn with
  | nil => exact h
  | append_singleton dir n =>
      rw [List.dropLast_concat]
      exact t.closed (by rw [h]; exact Option.some_ne_none _)

/-! ## Walks -/

/-- A walk until the next link, and what is then done. -/
def walkWith (links : Nat) (jump : List ν → List (Component ν) → Option (Nat × List ν)) :
    List ν → List (Component ν) → Option (Nat × List ν)
  | dir, [] => some (links, dir)
  | dir, .current :: cs => walkWith links jump dir cs
  | dir, .parent :: cs => walkWith links jump dir.dropLast cs
  | dir, .name n :: cs =>
    match t.entry (dir ++ [n]) with
    | some .directory => walkWith links jump (dir ++ [n]) cs
    | some (.link target) => jump (target.start dir) (target.components ++ cs)
    | some .file | none => none

/-- The directory that a path leads to from another one, and how many more links may be
followed from there. -/
def walk : Nat → List ν → List (Component ν) → Option (Nat × List ν)
  | 0 => t.walkWith 0 fun _ _ ↦ none
  | links + 1 => t.walkWith (links + 1) (walk links)

/-- A path leads from one directory to another one. -/
inductive Walks : Nat → List ν → List (Component ν) → Nat → List ν → Prop where
  | done {links : Nat} {dir : List ν} : Walks links dir [] links dir
  | current {links links' : Nat} {dir dir' : List ν} {cs : List (Component ν)} :
      Walks links dir cs links' dir' → Walks links dir (.current :: cs) links' dir'
  | parent {links links' : Nat} {dir dir' : List ν} {cs : List (Component ν)} :
      Walks links dir.dropLast cs links' dir' → Walks links dir (.parent :: cs) links' dir'
  | down {links links' : Nat} {dir dir' : List ν} {n : ν} {cs : List (Component ν)} :
      t.entry (dir ++ [n]) = some .directory → Walks links (dir ++ [n]) cs links' dir' →
        Walks links dir (.name n :: cs) links' dir'
  | follow {links links' : Nat} {dir dir' : List ν} {n : ν} {cs : List (Component ν)}
      {target : Target ν} : t.entry (dir ++ [n]) = some (.link target) →
        Walks links (target.start dir) (target.components ++ cs) links' dir' →
          Walks (links + 1) dir (.name n :: cs) links' dir'

variable {t}

/-- What a walk until the next link finds, if what is then done does. -/
theorem walks_of_walkWith {links links' : Nat} {dir dir' : List ν} {cs : List (Component ν)}
    {jump : List ν → List (Component ν) → Option (Nat × List ν)}
    (hjump : ∀ dir n cs target, t.entry (dir ++ [n]) = some (.link target) →
      jump (target.start dir) (target.components ++ cs) = some (links', dir') →
        t.Walks links dir (.name n :: cs) links' dir')
    (h : t.walkWith links jump dir cs = some (links', dir')) :
    t.Walks links dir cs links' dir' := by
  induction cs generalizing dir with
  | nil =>
      cases h
      exact .done
  | cons c cs ih =>
      cases c with
      | current => exact .current (ih h)
      | parent => exact .parent (ih h)
      | name n =>
          rw [walkWith] at h
          split at h
          case h_1 hentry => exact .down hentry (ih h)
          case h_2 target hentry => exact hjump dir n cs target hentry h
          case h_3 => cases h
          case h_4 => cases h

/-- `walk` as a relation. -/
theorem walk_eq_some_iff {links links' : Nat} {dir dir' : List ν} {cs : List (Component ν)} :
    t.walk links dir cs = some (links', dir') ↔ t.Walks links dir cs links' dir' := by
  constructor
  · intro h
    induction links generalizing dir cs with
    | zero => exact walks_of_walkWith (fun _ _ _ _ _ h ↦ (Option.some_ne_none _ h.symm).elim) h
    | succ links ih => exact walks_of_walkWith (fun _ _ _ _ hentry h ↦ .follow hentry (ih h)) h
  · intro h
    induction h with
    | @done links dir => cases links <;> rfl
    | @current links _ _ _ _ _ ih => cases links <;> exact ih
    | @parent links _ _ _ _ _ ih => cases links <;> exact ih
    | @down links _ _ _ _ _ hentry _ ih =>
        cases links
        all_goals
          rw [walk, walkWith, hentry]
          exact ih
    | follow hentry _ ih =>
        rw [walk, walkWith, hentry]
        exact ih

/-- **A walk through two paths in a row.** -/
theorem walks_append_iff {links links' : Nat} {dir dir' : List ν} {cs ds : List (Component ν)} :
    t.Walks links dir (cs ++ ds) links' dir' ↔
      ∃ rest mid, t.Walks links dir cs rest mid ∧ t.Walks rest mid ds links' dir' := by
  constructor
  · intro h
    generalize hes : cs ++ ds = es at h
    induction h generalizing cs with
    | done =>
        obtain ⟨rfl, rfl⟩ := List.append_eq_nil_iff.mp hes
        exact ⟨_, _, .done, .done⟩
    | current h ih =>
        rcases List.append_eq_cons_iff.mp hes with ⟨rfl, rfl⟩ | ⟨cs, rfl, happ⟩
        · exact ⟨_, _, .done, .current h⟩
        · obtain ⟨rest, mid, hcs, hds⟩ := ih happ.symm
          exact ⟨rest, mid, .current hcs, hds⟩
    | parent h ih =>
        rcases List.append_eq_cons_iff.mp hes with ⟨rfl, rfl⟩ | ⟨cs, rfl, happ⟩
        · exact ⟨_, _, .done, .parent h⟩
        · obtain ⟨rest, mid, hcs, hds⟩ := ih happ.symm
          exact ⟨rest, mid, .parent hcs, hds⟩
    | down hentry h ih =>
        rcases List.append_eq_cons_iff.mp hes with ⟨rfl, rfl⟩ | ⟨cs, rfl, happ⟩
        · exact ⟨_, _, .done, .down hentry h⟩
        · obtain ⟨rest, mid, hcs, hds⟩ := ih happ.symm
          exact ⟨rest, mid, .down hentry hcs, hds⟩
    | follow hentry h ih =>
        rcases List.append_eq_cons_iff.mp hes with ⟨rfl, rfl⟩ | ⟨cs, rfl, rfl⟩
        · exact ⟨_, _, .done, .follow hentry h⟩
        · obtain ⟨rest, mid, hcs, hds⟩ := ih (List.append_assoc _ _ _)
          exact ⟨rest, mid, .follow hentry hcs, hds⟩
  · rintro ⟨rest, mid, hcs, hds⟩
    induction hcs with
    | done => exact hds
    | current _ ih => exact .current (ih hds)
    | parent _ ih => exact .parent (ih hds)
    | down hentry _ ih => exact .down hentry (ih hds)
    | follow hentry _ ih =>
        have h := ih hds
        rw [List.append_assoc] at h
        exact .follow hentry h

theorem walk_append_eq_some_iff {links links' : Nat} {dir dir' : List ν}
    {cs ds : List (Component ν)} :
    t.walk links dir (cs ++ ds) = some (links', dir') ↔
      ∃ rest mid, t.walk links dir cs = some (rest, mid) ∧
        t.walk rest mid ds = some (links', dir') := by
  simp only [walk_eq_some_iff, walks_append_iff]

namespace Walks

variable {links links' : Nat} {dir dir' : List ν} {cs : List (Component ν)}

/-- **A walk from a directory ends in one.** -/
theorem directory (h : t.Walks links dir cs links' dir') (hdir : t.entry dir = some .directory) :
    t.entry dir' = some .directory := by
  induction h with
  | done => exact hdir
  | current _ ih => exact ih hdir
  | parent _ ih => exact ih (t.directory_dropLast hdir)
  | down hentry _ ih => exact ih hentry
  | @follow _ _ dir _ _ _ target _ _ ih =>
      apply ih
      rw [Target.start]
      split
      · exact t.root
      · exact hdir

/-- **Where no link is met, a walk ends where the names say.** -/
theorem eq_append {ns : List ν} (h : t.Walks links dir (ns.map .name) links' dir')
    (hlinks : ∀ ms, ms <+: ns → ∀ target, t.entry (dir ++ ms) ≠ some (.link target)) :
    dir' = dir ++ ns := by
  induction ns generalizing dir with
  | nil =>
      cases h
      exact (List.append_nil _).symm
  | cons n ns ih =>
      cases h with
      | down _ h =>
          rw [List.append_cons]
          apply ih h
          intro ms hms target
          rw [← List.append_cons]
          exact hlinks (n :: ms) (List.cons_prefix_cons.mpr ⟨rfl, hms⟩) target
      | follow hentry _ =>
          exact absurd hentry (hlinks [n] (List.cons_prefix_cons.mpr ⟨rfl, List.nil_prefix⟩) _)

end Walks

/-! ## Changing a tree -/

/-- The tree with nothing but its root. -/
def empty : FileTree ν where
  entry p := if p.isEmpty then some .directory else none
  root := rfl
  closed {dir n} h := by
    cases dir <;> exact absurd rfl h

section Changes

variable [DecidableEq ν] (t) (dir : List ν) (n : ν)

/-- A new entry in a directory. -/
def create (e : Entry ν) : FileTree ν where
  entry p :=
    if p = dir ++ [n] ∧ t.entry dir = some .directory ∧ t.entry p = none then some e
    else t.entry p
  root := by
    rw [if_neg fun h ↦ List.append_ne_nil_of_right_ne_nil dir (List.cons_ne_nil n []) h.1.symm]
    exact t.root
  closed {d m} h := by
    have hd : t.entry d = some .directory := by
      by_cases hm : d ++ [m] = dir ++ [n] ∧ t.entry dir = some .directory ∧ t.entry (d ++ [m]) = none
      · rw [List.append_inj_left' hm.1 rfl]
        exact hm.2.1
      · rw [if_neg hm] at h
        exact t.closed h
    rw [if_neg fun hnone ↦ absurd (hd.symm.trans hnone.2.2) (Option.some_ne_none _)]
    exact hd

/-- An entry is removed with all that is below it. -/
def prune : FileTree ν where
  entry p := if dir ++ [n] <+: p then none else t.entry p
  root := by
    rw [if_neg fun h ↦
      List.append_ne_nil_of_right_ne_nil dir (List.cons_ne_nil n []) (List.prefix_nil.mp h)]
    exact t.root
  closed {d m} h := by
    by_cases hm : dir ++ [n] <+: d ++ [m]
    · rw [if_pos hm] at h
      exact absurd rfl h
    · rw [if_neg hm] at h
      rw [if_neg fun hd ↦ hm (hd.trans (List.prefix_append d [m]))]
      exact t.closed h

/-- An entry that is no directory is removed. -/
def unlink : FileTree ν where
  entry p := if p = dir ++ [n] ∧ t.entry p ≠ some .directory then none else t.entry p
  root := by
    rw [if_neg fun h ↦ h.2 t.root]
    exact t.root
  closed {d m} h := by
    by_cases hm : d ++ [m] = dir ++ [n] ∧ t.entry (d ++ [m]) ≠ some .directory
    · rw [if_pos hm] at h
      exact absurd rfl h
    · rw [if_neg hm] at h
      rw [if_neg fun hd ↦ hd.2 (t.closed h)]
      exact t.closed h

/-- A real path is there before, and not after. -/
def Removed (t t' : FileTree ν) (p : List ν) : Prop := t.entry p ≠ none ∧ t'.entry p = none

variable {t dir n}

/-- **What `prune` removes**: what is there at the entry and below it. -/
theorem removed_prune_iff {p : List ν} :
    Removed t (t.prune dir n) p ↔ t.entry p ≠ none ∧ dir ++ [n] <+: p := by
  refine and_congr_right fun hp ↦ ?_
  show (if dir ++ [n] <+: p then none else t.entry p) = none ↔ _
  by_cases h : dir ++ [n] <+: p
  · exact iff_of_true (if_pos h) h
  · rw [if_neg h]
    exact iff_of_false hp h

/-- Where there is no entry, there is nothing to remove. -/
theorem prune_eq_self (h : t.entry (dir ++ [n]) = none) : t.prune dir n = t := by
  apply FileTree.ext
  funext p
  show (if dir ++ [n] <+: p then none else t.entry p) = t.entry p
  by_cases hp : dir ++ [n] <+: p
  · rw [if_pos hp, t.entry_eq_none_of_prefix h hp]
  · rw [if_neg hp]

/-- What is no directory has nothing below it. -/
theorem unlink_eq_prune (h : t.entry (dir ++ [n]) ≠ some .directory) :
    t.unlink dir n = t.prune dir n := by
  apply FileTree.ext
  funext p
  show (if _ then _ else _) = (if _ then _ else _)
  by_cases hp : p = dir ++ [n]
  · rw [hp, if_pos ⟨rfl, h⟩, if_pos (List.prefix_refl _)]
  · rw [if_neg fun hunlink ↦ hp hunlink.1]
    by_cases hprune : dir ++ [n] <+: p
    · rw [if_pos hprune]
      obtain ⟨ns, rfl⟩ := hprune
      have hns : ns ≠ [] := by
        rintro rfl
        exact hp (List.append_nil _)
      by_contra hentry
      exact h (t.directory_of_append hns hentry)
    · rw [if_neg hprune]

end Changes

end FileTree

end CodeArena.Lib
