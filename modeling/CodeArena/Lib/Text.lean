import Mathlib.Data.List.Infix

/-!
# Removing a literal text

A global replacement of a literal by the empty string scans from left to right,
skips what it matches, and never looks at a match again.  Here the literal may be
followed by an optional separator that is removed with it.

The scan is structural: `removeAll w sep n xs` has still to skip `n` symbols of a
match.  A text without the literal is left alone (`removeAll_of_not_infix`), and a
text with it loses every symbol of the literal at least once
(`count_removeAll_lt`).
-/

namespace CodeArena.Lib.Text

universe u

variable {α : Type u} [DecidableEq α]

/-- Whether `text` contains `needle`. -/
def includes (text needle : List α) : Bool := decide (needle <:+: text)

/-- The length of the match of `w` at the start of `xs`, with a separator after it. -/
def matchLength (w : List α) (sep : α → Bool) (xs : List α) : Nat :=
  if ((xs.drop w.length).head?).any sep then w.length + 1 else w.length

/-- Removes every match of `w`, with one separator after it where there is one; the
first `n` symbols belong to a match already. -/
def removeAll (w : List α) (sep : α → Bool) : Nat → List α → List α
  | _, [] => []
  | n + 1, _ :: xs => removeAll w sep n xs
  | 0, x :: xs =>
    if w <+: x :: xs then removeAll w sep (matchLength w sep (x :: xs) - 1) xs
    else x :: removeAll w sep 0 xs

variable {w : List α} {sep : α → Bool} {xs : List α}

omit [DecidableEq α] in
theorem le_matchLength : w.length ≤ matchLength w sep xs := by
  unfold matchLength
  split
  · exact Nat.le_succ _
  · exact Nat.le_refl _

/-- Skipping is dropping. -/
theorem removeAll_eq_drop (n : Nat) (xs : List α) :
    removeAll w sep n xs = removeAll w sep 0 (xs.drop n) := by
  induction n generalizing xs with
  | zero => rfl
  | succ n ih =>
      cases xs with
      | nil => rfl
      | cons x xs => exact ih xs

/-- The scan over a match. -/
theorem removeAll_of_match (hw : w ≠ []) (h : w <+: xs) :
    removeAll w sep 0 xs = removeAll w sep 0 (xs.drop (matchLength w sep xs)) := by
  cases xs with
  | nil => exact absurd (List.prefix_nil.mp h) hw
  | cons x xs =>
      obtain ⟨n, hn⟩ : ∃ n, matchLength w sep (x :: xs) = n + 1 :=
        Nat.exists_eq_succ_of_ne_zero fun h0 ↦
          hw (List.length_eq_zero_iff.mp (Nat.le_zero.mp (h0 ▸ le_matchLength)))
      rw [removeAll, if_pos h, hn, Nat.add_sub_cancel, removeAll_eq_drop, List.drop_succ_cons]

/-- What is left of a text is a part of it. -/
theorem removeAll_sublist (n : Nat) (xs : List α) : (removeAll w sep n xs).Sublist xs := by
  induction xs generalizing n with
  | nil => cases n <;> exact List.Sublist.refl _
  | cons x xs ih =>
      cases n with
      | succ n => exact (ih n).cons x
      | zero =>
          rw [removeAll]
          split
          · exact (ih _).cons x
          · exact (ih 0).cons_cons x

/-- A text that does not contain the literal is left alone. -/
theorem removeAll_of_not_infix (h : ¬ w <:+: xs) : removeAll w sep 0 xs = xs := by
  induction xs with
  | nil => rfl
  | cons x xs ih =>
      rw [List.infix_cons_iff, not_or] at h
      rw [removeAll, if_neg h.1, ih h.2]

/-- A text that contains the literal loses each symbol of the literal at least once. -/
theorem count_removeAll_lt {a : α} (ha : a ∈ w) (h : w <:+: xs) :
    (removeAll w sep 0 xs).count a < xs.count a := by
  have hw : w ≠ [] := List.ne_nil_of_mem ha
  induction xs with
  | nil => exact absurd (List.infix_nil.mp h) hw
  | cons x xs ih =>
      by_cases hpre : w <+: x :: xs
      · obtain ⟨rest, hrest⟩ := hpre
        have hdrop : ((x :: xs).drop (matchLength w sep (x :: xs))).Sublist rest := by
          have hle : w.length ≤ matchLength w sep (x :: xs) := le_matchLength
          rw [← Nat.sub_add_cancel hle, Nat.add_comm, ← List.drop_drop, ← hrest, List.drop_left]
          exact List.drop_sublist _ _
        calc (removeAll w sep 0 (x :: xs)).count a
            ≤ rest.count a := by
              rw [removeAll_of_match hw ⟨rest, hrest⟩]
              exact ((removeAll_sublist 0 _).trans hdrop).count_le a
          _ < (w ++ rest).count a := by
              rw [List.count_append]
              exact Nat.lt_add_of_pos_left (List.count_pos_iff.mpr ha)
          _ = (x :: xs).count a := by rw [hrest]
      · have hlt := ih ((List.infix_cons_iff.mp h).resolve_left hpre)
        rw [removeAll, if_neg hpre, List.count_cons, List.count_cons]
        exact Nat.add_lt_add_right hlt _

end CodeArena.Lib.Text
