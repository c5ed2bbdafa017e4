import Mathlib.Data.List.Basic
import Mathlib.Tactic.Common

/-!
# Replacing every match

A global replacement scans a text from left to right, puts a fixed text where a match
begins, skips the match, and goes on behind it.  What a match is, is a function: the length
of the match at the start of a text, zero where there is none.  Two of them are here, for a
pattern that is a list of classes of symbols.

A symbol that no match contains and that the replacement does not bring in is in the text
afterwards exactly if it was before (`mem_replaceAll`).
-/

universe u

namespace CodeArena.Lib.Replace

variable {α : Type u}

/-- Replaces every match, after the rest of a match of which `n` symbols are left. -/
def replaceFrom (matchLength : List α → Nat) (replacement : List α) : Nat → List α → List α
  | _, [] => []
  | n + 1, _ :: xs => replaceFrom matchLength replacement n xs
  | 0, x :: xs =>
    match matchLength (x :: xs) with
    | 0 => x :: replaceFrom matchLength replacement 0 xs
    | n + 1 => replacement ++ replaceFrom matchLength replacement n xs

/-- Replaces every match. -/
def replaceAll (matchLength : List α → Nat) (replacement xs : List α) : List α :=
  replaceFrom matchLength replacement 0 xs

section Mem

variable {matchLength : List α → Nat} {replacement : List α} {a : α}

/-- A symbol that is in no match outlives the replacement, and none comes to be. -/
theorem mem_replaceFrom (hr : a ∉ replacement) (hm : ∀ xs : List α, a ∉ xs.take (matchLength xs))
    (n : Nat) (xs : List α) :
    a ∈ replaceFrom matchLength replacement n xs ↔ a ∈ xs.drop n := by
  induction xs generalizing n with
  | nil => cases n <;> rfl
  | cons x xs ih =>
      cases n with
      | succ n => exact ih n
      | zero =>
          rw [replaceFrom, List.drop_zero]
          cases hlen : matchLength (x :: xs) with
          | zero =>
              simp only [List.mem_cons]
              rw [ih 0, List.drop_zero]
          | succ n =>
              have hskip : a ∉ (x :: xs).take (n + 1) := hlen ▸ hm (x :: xs)
              have hsplit : a ∈ x :: xs ↔ a ∈ xs.drop n := by
                rw [← List.take_append_drop (n + 1) (x :: xs), List.mem_append,
                  List.drop_succ_cons]
                exact or_iff_right hskip
              rw [hsplit]
              simp only [List.mem_append]
              rw [ih n]
              exact or_iff_right hr

/-- **What a replacement does not touch is kept.** -/
theorem mem_replaceAll (hr : a ∉ replacement) (hm : ∀ xs : List α, a ∉ xs.take (matchLength xs))
    (xs : List α) : a ∈ replaceAll matchLength replacement xs ↔ a ∈ xs :=
  mem_replaceFrom hr hm 0 xs

end Mem

/-! ## Classes of symbols -/

/-- A text starts with one symbol of each class. -/
def startsWith : List (α → Bool) → List α → Bool
  | [], _ => true
  | _ :: _, [] => false
  | p :: ps, x :: xs => p x && startsWith ps xs

/-- The length of the match of a list of classes. -/
def classLength (classes : List (α → Bool)) (xs : List α) : Nat :=
  if startsWith classes xs then classes.length else 0

/-- A symbol of a match is in one of the classes. -/
theorem exists_class_of_mem_take {ps : List (α → Bool)} {xs : List α} {a : α}
    (h : startsWith ps xs = true) (ha : a ∈ xs.take ps.length) : ∃ p ∈ ps, p a = true := by
  induction ps generalizing xs with
  | nil => cases ha
  | cons p ps ih =>
      cases xs with
      | nil => cases ha
      | cons x xs =>
          obtain ⟨hp, hps⟩ := Bool.and_eq_true_iff.mp h
          rcases List.mem_cons.mp ha with rfl | ha
          · exact ⟨p, List.mem_cons_self, hp⟩
          · obtain ⟨q, hq, hqa⟩ := ih hps ha
            exact ⟨q, List.mem_cons_of_mem _ hq, hqa⟩

/-- A symbol that is in none of the classes is in no match. -/
theorem not_mem_take_classLength {ps : List (α → Bool)} {a : α} (h : ∀ p ∈ ps, p a = false)
    (xs : List α) : a ∉ xs.take (classLength ps xs) := by
  unfold classLength
  split
  case isTrue hstart =>
    intro ha
    obtain ⟨p, hp, hpa⟩ := exists_class_of_mem_take hstart ha
    exact absurd (hpa.symm.trans (h p hp)) nofun
  case isFalse => exact List.not_mem_nil

end CodeArena.Lib.Replace
