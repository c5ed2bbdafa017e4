import Mathlib.Algebra.GroupWithZero.Nat
import Mathlib.Algebra.Order.BigOperators.Group.List
import Mathlib.Data.List.Count

/-!
# Run-length codes

A code that writes how often a character comes between braces, behind the character.  No text with
a count in it is its own expansion (`Run.count_eq_none`).

Two things are counted in a text and in what it stands for.  A count starts with an opening brace
in front of something that stands between braces: a text has as many of these starts as what it
stands for only if no count is wasted on a character that comes, unless that character is an
opening brace itself.  Then no closing brace comes more than once, and every count leaves the text
with one closing brace more than what it stands for.
-/

namespace CodeArena.Lib.RunLength

/-- A character, as far as counted repetitions are concerned. -/
inductive Kind where
  /-- The opening brace. -/
  | opening
  /-- The closing brace. -/
  | closing
  /-- What may stand between the braces. -/
  | inner
  | other
deriving DecidableEq, Repr

/-- A character with its counted repetition, if it has one: how often the character is to come
at least, and how much stands between the braces, in addition to the one character that must. -/
structure Run where
  kind : Kind
  count : Option (Nat × Nat)

namespace Run

/-- The run as it is written. -/
def text (r : Run) : List Kind :=
  r.kind :: match r.count with
    | none => []
    | some (_, n) => .opening :: .inner :: (List.replicate n .inner ++ [.closing])

/-- What the run stands for. -/
def word (r : Run) : List Kind :=
  match r.count with
  | none => [r.kind]
  | some (min, _) => List.replicate min r.kind

/-- How often an opening brace is right before what may stand inside of braces; `b` says whether
an opening brace is before the list. -/
def starts : Bool → List Kind → Nat
  | _, [] => 0
  | b, k :: ks => (b && k = .inner).toNat + starts (k = .opening) ks

/-- A counted repetition of a character that is no opening brace, and is to come. -/
def wasted (r : Run) : Nat :=
  match r.count with
  | some (_ + 1, _) => if r.kind = .opening then 0 else 1
  | _ => 0

theorem starts_counted (k : Kind) (min n : Nat) (b : Bool) (ks : List Kind) :
    starts b (text ⟨k, some (min, n)⟩ ++ ks) = (b && k = .inner).toNat + 1 + starts false ks := by
  have hinner : ∀ n,
      starts false (List.replicate n .inner ++ .closing :: ks) = starts false ks := by
    intro n
    induction n with
    | zero => simp [starts]
    | succ n ih => simpa [List.replicate_succ, starts] using ih
  simp [text, starts, hinner, Nat.add_assoc]

theorem starts_replicate (k : Kind) (m : Nat) (b : Bool) (ks : List Kind) :
    starts b (List.replicate (m + 1) k ++ ks) =
      (b && k = .inner).toNat + starts (k = .opening) ks := by
  induction m generalizing b with
  | zero => simp [starts]
  | succ m ih =>
      rw [List.replicate_succ, List.cons_append, starts, ih]
      cases k <;> simp

theorem toNat_and_le {b b' : Bool} {n : Nat} (hb : b.toNat ≤ b'.toNat + n) (c : Bool) :
    (b && c).toNat ≤ (b' && c).toNat + n := by
  cases c with
  | false => simp
  | true => rwa [Bool.and_true, Bool.and_true]

/-- What is written starts more counted repetitions than what it stands for, by those that are
wasted.  The word may be one start ahead. -/
theorem starts_word_le (rs : List Run) {b c : Bool} {n : Nat} (hb : b.toNat ≤ c.toNat + n) :
    starts b (rs.flatMap word) + (rs.map wasted).sum ≤ starts c (rs.flatMap text) + n := by
  induction rs generalizing b c n with
  | nil => exact Nat.zero_le _
  | cons r rs ih =>
      obtain ⟨k, count⟩ := r
      rw [List.flatMap_cons, List.flatMap_cons, List.map_cons, List.sum_cons]
      match count with
      | none =>
          have hrest := ih (b := decide (k = .opening)) (c := decide (k = .opening)) (n := 0)
            (Nat.le_refl _)
          have hinner := toNat_and_le hb (k = .inner)
          simp only [word, text, wasted, List.singleton_append, starts]
          omega
      | some (0, l) =>
          have hrest := ih (b := b) (c := false) (n := 1) (Bool.toNat_le b)
          rw [starts_counted]
          simp only [word, wasted, List.replicate_zero, List.nil_append]
          omega
      | some (m + 1, l) =>
          rw [starts_counted, word, starts_replicate]
          by_cases hk : k = .opening
          · have hrest := ih (b := true) (c := false) (n := 1) (Nat.le_refl _)
            simp [wasted, hk] at hrest ⊢
            omega
          · have hrest := ih (b := false) (c := false) (n := 0) (Nat.le_refl _)
            have hinner := toNat_and_le hb (k = .inner)
            simp [wasted, hk] at hrest ⊢
            omega

/-- What closes braces, in what is written and in what it stands for. -/
theorem count_closing (rs : List Run) (h : ∀ r ∈ rs, r.wasted = 0) :
    (rs.flatMap word).count .closing + (rs.filter fun r ↦ r.count.isSome).length ≤
      (rs.flatMap text).count .closing := by
  induction rs with
  | nil => exact Nat.le_refl _
  | cons r rs ih =>
      obtain ⟨hr, hrs⟩ := List.forall_mem_cons.mp h
      have hrest := ih hrs
      obtain ⟨k, count⟩ := r
      rw [List.flatMap_cons, List.flatMap_cons, List.count_append, List.count_append]
      match count with
      | none =>
          simp only [word, text, List.filter_cons, Option.isSome_none, Bool.false_eq_true, if_false]
          omega
      | some (0, l) =>
          simp [word, text, List.count_cons, List.count_replicate] at hrest ⊢
          omega
      | some (m + 1, l) =>
          obtain rfl : k = .opening := by
            by_contra hk
            simp [wasted, hk] at hr
          simp [word, text, List.count_replicate] at hrest ⊢
          omega

/-- **No text is its own run-length expansion**, unless nothing in it is counted. -/
theorem count_eq_none {rs : List Run} (h : rs.flatMap word = rs.flatMap text) :
    ∀ r ∈ rs, r.count = none := by
  have hstarts := starts_word_le rs (b := false) (c := false) (n := 0) (Nat.le_refl _)
  rw [h] at hstarts
  have hwasted : ∀ r ∈ rs, r.wasted = 0 := by
    have hsum : (rs.map wasted).sum = 0 := by omega
    exact fun r hr ↦ List.sum_eq_zero_iff_forall_eq_nat.mp hsum _ (List.mem_map_of_mem hr)
  have hclosing := count_closing rs hwasted
  rw [h] at hclosing
  have hnil : (rs.filter fun r ↦ r.count.isSome) = [] := List.eq_nil_of_length_eq_zero (by omega)
  intro r hr
  have hnot := List.filter_eq_nil_iff.mp hnil r hr
  simpa using hnot

end Run

end CodeArena.Lib.RunLength
