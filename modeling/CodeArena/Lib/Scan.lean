import CodeArena.Lib.Replace

/-!
# What a replacement leaves

A global replacement does not look again at what it has written, so that the text afterwards
may contain what was to be replaced.  Here is where, for any function that goes over a text as
the search for matches does (`Rewrites`).

* Every suffix of the result is what is made of a suffix of the text, behind some of a
  replacement where the search has just found a match (`Rewrites.suffix_iff`).
* A text of some classes is at the start of the result exactly if it is at the start of the
  text and no match is in it, where replacements start with a symbol of none of the classes
  (`Rewrites.startsWith_iff`).
* Where matches are removed, a word is at the start of the result exactly if the text starts
  with the word cut into pieces by matches (`Rewrites.prefix_iff`).
-/

universe u

namespace CodeArena.Lib.Replace

variable {α : Type u}

/-- The search in a text, suffix by suffix, comes to a suffix with no match under way. -/
inductive Reaches (matchLength : List α → Nat) : List α → List α → Prop
  | refl {xs} : Reaches matchLength xs xs
  | skip {x xs ys} : matchLength (x :: xs) = 0 → Reaches matchLength xs ys →
      Reaches matchLength (x :: xs) ys
  | found {x xs ys n} : matchLength (x :: xs) = n + 1 → Reaches matchLength (xs.drop n) ys →
      Reaches matchLength (x :: xs) ys

/-- A match that the search in a text finds ends where a suffix begins. -/
def Follows (matchLength : List α → Nat) (xs ys : List α) : Prop :=
  ∃ z zs n, Reaches matchLength xs (z :: zs) ∧ matchLength (z :: zs) = n + 1 ∧ zs.drop n = ys

/-- No match starts at one of the first symbols. -/
def Unmatched (matchLength : List α → Nat) (k : Nat) (xs : List α) : Prop :=
  ∀ j < k, matchLength (xs.drop j) = 0

/-- A text has a text of some classes in it. -/
def Occurs (ps : List (α → Bool)) (xs : List α) : Prop := ∃ ys, ys <:+ xs ∧ startsWith ps ys = true

/-! ## Texts of some classes -/

section Classes

variable {ps qs : List (α → Bool)} {xs d rest : List α} {p : α → Bool}

theorem startsWith_append :
    startsWith (ps ++ qs) xs = (startsWith ps xs && startsWith qs (xs.drop ps.length)) := by
  induction ps generalizing xs with
  | nil => rfl
  | cons p ps ih =>
      cases xs with
      | nil => rfl
      | cons x xs =>
          show (p x && startsWith (ps ++ qs) xs) = _
          rw [ih, ← Bool.and_assoc]
          rfl

theorem startsWith_replicate_add (m n : Nat) : startsWith (.replicate (m + n) p) xs =
    (startsWith (.replicate m p) xs && startsWith (.replicate n p) (xs.drop m)) := by
  rw [← List.replicate_append_replicate, startsWith_append, List.length_replicate]

/-- Symbols of one class. -/
theorem startsWith_replicate (hd : ∀ a ∈ d, p a = true) {n : Nat} (hn : n ≤ d.length) :
    startsWith (.replicate n p) (d ++ rest) = true := by
  induction n generalizing d with
  | zero => rfl
  | succ n ih =>
      cases d with
      | nil => cases hn
      | cons a d =>
          exact Bool.and_eq_true_iff.mpr ⟨hd a List.mem_cons_self,
            ih (fun b hb ↦ hd b (List.mem_cons_of_mem a hb)) (Nat.le_of_succ_le_succ hn)⟩

theorem exists_cons_of_startsWith (h : startsWith (p :: ps) xs = true) :
    ∃ x ys, xs = x :: ys ∧ p x = true ∧ startsWith ps ys = true := by
  cases xs with
  | nil => cases h
  | cons x ys => exact ⟨x, ys, rfl, Bool.and_eq_true_iff.mp h⟩

/-- Each of the first symbols is in a class. -/
theorem exists_drop_eq_of_startsWith (h : startsWith ps xs = true) {j : Nat} (hj : j < ps.length) :
    ∃ p ∈ ps, ∃ x ys, xs.drop j = x :: ys ∧ p x = true := by
  induction ps generalizing xs j with
  | nil => cases hj
  | cons p ps ih =>
      obtain ⟨x, ys, rfl, hp, hps⟩ := exists_cons_of_startsWith h
      cases j with
      | zero => exact ⟨p, List.mem_cons_self, x, ys, rfl, hp⟩
      | succ j =>
          obtain ⟨q, hq, hdrop⟩ := ih hps (Nat.lt_of_succ_lt_succ hj)
          exact ⟨q, List.mem_cons_of_mem p hq, hdrop⟩

/-- What a text starts with has as many symbols as there are classes. -/
theorem length_le_of_startsWith (h : startsWith ps xs = true) : ps.length ≤ xs.length := by
  induction ps generalizing xs with
  | nil => exact Nat.zero_le _
  | cons p ps ih =>
      cases xs with
      | nil => cases h
      | cons x xs => exact Nat.succ_le_succ (ih (Bool.and_eq_true_iff.mp h).2)

/-- A text that ends early, or goes on with a symbol of no class, does not start with a text of
the classes. -/
theorem startsWith_append_eq_false (hlen : d.length < ps.length)
    (hrest : ∀ a ∈ rest.head?, ∀ p ∈ ps, p a = false) : startsWith ps (d ++ rest) = false := by
  induction ps generalizing d with
  | nil => cases hlen
  | cons p ps ih =>
      cases d with
      | nil =>
          cases rest with
          | nil => rfl
          | cons a rest =>
              show (p a && _) = false
              rw [hrest a rfl p List.mem_cons_self]
              rfl
      | cons x d =>
          show (p x && startsWith ps (d ++ rest)) = false
          rw [ih (Nat.lt_of_succ_lt_succ hlen)
            fun a ha q hq ↦ hrest a ha q (List.mem_cons_of_mem p hq), Bool.and_false]

theorem classLength_of_startsWith (h : startsWith ps xs = true) : classLength ps xs = ps.length :=
  if_pos h

theorem classLength_eq_zero_iff (hps : ps ≠ []) :
    classLength ps xs = 0 ↔ startsWith ps xs = false := by
  unfold classLength
  split
  case isTrue h =>
    rw [h]
    exact ⟨fun hlen ↦ absurd (List.length_eq_zero_iff.mp hlen) hps, nofun⟩
  case isFalse h => exact ⟨fun _ ↦ Bool.eq_false_iff.mpr h, fun _ ↦ rfl⟩

end Classes

section Search

variable {matchLength : List α → Nat} {xs ys zs : List α} {x : α} {k : Nat}

theorem Reaches.trans (h : Reaches matchLength xs ys) (h' : Reaches matchLength ys zs) :
    Reaches matchLength xs zs := by
  induction h with
  | refl => exact h'
  | skip hlen _ ih => exact .skip hlen (ih h')
  | found hlen _ ih => exact .found hlen (ih h')

theorem Reaches.suffix (h : Reaches matchLength xs ys) : ys <:+ xs := by
  induction h with
  | refl => exact List.suffix_refl _
  | skip _ _ ih => exact ih.trans (List.suffix_cons _ _)
  | found _ _ ih => exact (ih.trans (List.drop_suffix _ _)).trans (List.suffix_cons _ _)

/-! ## The search step by step -/

/-- Induction on the steps of a search. -/
@[elab_as_elim]
theorem searchInduction {motive : List α → Prop} (matchLength : List α → Nat) (nil : motive [])
    (skip : ∀ x xs, matchLength (x :: xs) = 0 → motive xs → motive (x :: xs))
    (found : ∀ x xs n, matchLength (x :: xs) = n + 1 → motive (xs.drop n) → motive (x :: xs))
    (xs : List α) : motive xs := by
  -- A match takes the search several symbols further, so the induction is on the length.
  induction hn : xs.length using Nat.strongRecOn generalizing xs with
  | ind _ ih =>
      subst hn
      cases xs with
      | nil => exact nil
      | cons x xs =>
          cases hlen : matchLength (x :: xs) with
          | zero => exact skip x xs hlen (ih _ (Nat.lt_succ_self _) xs rfl)
          | succ n =>
              have hlt : (xs.drop n).length < (x :: xs).length :=
                Nat.lt_succ_of_le (List.drop_sublist n xs).length_le
              exact found x xs n hlen (ih _ hlt _ rfl)

theorem Unmatched.cons (h : matchLength (x :: xs) = 0) (h' : Unmatched matchLength k xs) :
    Unmatched matchLength (k + 1) (x :: xs) := by
  intro j hj
  cases j with
  | zero => exact h
  | succ j => exact h' j (Nat.lt_of_succ_lt_succ hj)

theorem unmatched_succ_cons : Unmatched matchLength (k + 1) (x :: xs) ↔
    matchLength (x :: xs) = 0 ∧ Unmatched matchLength k xs :=
  ⟨fun h ↦ ⟨h 0 (Nat.succ_pos k), fun j hj ↦ h (j + 1) (Nat.succ_lt_succ hj)⟩,
    fun h ↦ Unmatched.cons h.1 h.2⟩

/-- A function goes over a text as a search does, and puts something where a match is. -/
structure Rewrites (matchLength : List α → Nat) (replacement f : List α → List α) : Prop where
  nil : f [] = []
  skip {x : α} {xs : List α} : matchLength (x :: xs) = 0 → f (x :: xs) = x :: f xs
  found {x : α} {xs : List α} {n : Nat} : matchLength (x :: xs) = n + 1 →
    f (x :: xs) = replacement (x :: xs) ++ f (xs.drop n)

/-- Skipping is dropping. -/
theorem replaceFrom_eq_drop (r : List α) (n : Nat) (xs : List α) :
    replaceFrom matchLength r n xs = replaceAll matchLength r (xs.drop n) := by
  induction n generalizing xs with
  | zero => rfl
  | succ n ih =>
      cases xs with
      | nil => rfl
      | cons x xs => exact ih xs

/-- `replaceAll` does. -/
theorem rewrites_replaceAll (matchLength : List α → Nat) (r : List α) :
    Rewrites matchLength (fun _ ↦ r) (replaceAll matchLength r) where
  nil := rfl
  skip h := by
    rw [replaceAll, replaceFrom, h]
    rfl
  found {x xs n} h := by
    rw [replaceAll, replaceFrom, h]
    exact congrArg (r ++ ·) (replaceFrom_eq_drop r n xs)

namespace Rewrites

variable {replacement f : List α → List α} (hf : Rewrites matchLength replacement f)

include hf

/-- Symbols at which no match starts are kept. -/
theorem append (h : Unmatched matchLength ys.length (ys ++ zs)) : f (ys ++ zs) = ys ++ f zs := by
  induction ys with
  | nil => rfl
  | cons y ys ih =>
      obtain ⟨hzero, hrest⟩ := unmatched_succ_cons.mp h
      exact (hf.skip hzero).trans (congrArg (y :: ·) (ih hrest))

/-- Symbols at which no match starts are kept, and the search goes on behind them. -/
theorem take_append_drop (h : Unmatched matchLength k xs) : f xs = xs.take k ++ f (xs.drop k) := by
  have hsplit : Unmatched matchLength (xs.take k).length (xs.take k ++ xs.drop k) := by
    rw [List.take_append_drop]
    exact fun j hj ↦ h j (Nat.lt_of_lt_of_le hj (List.length_take_le k xs))
  rw [← hf.append hsplit, List.take_append_drop]

/-- A text without a match is kept. -/
theorem eq_self (h : ∀ ys, ys <:+ xs → matchLength ys = 0) : f xs = xs := by
  have hsplit : Unmatched matchLength xs.length (xs ++ []) := by
    rw [List.append_nil]
    exact fun j _ ↦ h _ (List.drop_suffix j xs)
  have hkeep := hf.append hsplit
  rwa [List.append_nil, hf.nil, List.append_nil] at hkeep

/-- Something is left of a text where matches are replaced by something. -/
theorem ne_nil (h : ∀ xs, replacement xs ≠ []) (hxs : xs ≠ []) : f xs ≠ [] := by
  obtain ⟨x, xs, rfl⟩ := List.exists_cons_of_ne_nil hxs
  cases hlen : matchLength (x :: xs) with
  | zero =>
      rw [hf.skip hlen]
      exact List.cons_ne_nil _ _
  | succ n =>
      rw [hf.found hlen]
      exact List.append_ne_nil_of_left_ne_nil (h _) _

/-- **The texts of some classes at the start of the result.** -/
theorem startsWith_iff {ps : List (α → Bool)}
    (h : ∀ xs, ∃ c r, replacement xs = c :: r ∧ ∀ p ∈ ps, p c = false) (xs : List α) :
    startsWith ps (f xs) = true ↔ startsWith ps xs = true ∧ Unmatched matchLength ps.length xs := by
  induction ps generalizing xs with
  | nil => exact ⟨fun _ ↦ ⟨rfl, nofun⟩, fun _ ↦ rfl⟩
  | cons p ps ih =>
      have hrest (xs : List α) : ∃ c r, replacement xs = c :: r ∧ ∀ p ∈ ps, p c = false := by
        obtain ⟨c, r, hr, hc⟩ := h xs
        exact ⟨c, r, hr, fun q hq ↦ hc q (List.mem_cons_of_mem p hq)⟩
      cases xs with
      | nil =>
          rw [hf.nil]
          exact ⟨nofun, fun h ↦ absurd h.1 nofun⟩
      | cons x xs =>
          cases hlen : matchLength (x :: xs) with
          | zero =>
              rw [hf.skip hlen, List.length_cons, unmatched_succ_cons]
              simp only [startsWith, Bool.and_eq_true, ih hrest xs, hlen, true_and, and_assoc]
          | succ n =>
              obtain ⟨c, r, hr, hc⟩ := h (x :: xs)
              rw [hf.found hlen, hr]
              constructor
              · intro hstart
                rw [List.cons_append, startsWith, hc p List.mem_cons_self] at hstart
                cases hstart
              · rintro ⟨-, hnot⟩
                cases (hnot 0 (Nat.succ_pos _)).symm.trans hlen

end Rewrites

/-! ## The suffixes of the result -/

/-- A suffix of two texts in a row. -/
theorem suffix_append_iff {s as bs : List α} :
    s <:+ as ++ bs ↔ s <:+ bs ∨ ∃ as', as' <:+ as ∧ s = as' ++ bs := by
  constructor
  · intro h
    induction as with
    | nil => exact .inl h
    | cons a as ih =>
        rcases List.suffix_cons_iff.mp h with rfl | h
        · exact .inr ⟨a :: as, List.suffix_refl _, rfl⟩
        · rcases ih h with h | ⟨as', has', rfl⟩
          · exact .inl h
          · exact .inr ⟨as', has'.trans (List.suffix_cons a as), rfl⟩
  · rintro (h | ⟨as', ⟨front, rfl⟩, rfl⟩)
    · exact h.trans (List.suffix_append as bs)
    · rw [List.append_assoc]
      exact List.suffix_append front (as' ++ bs)

namespace Rewrites

variable {replacement f : List α → List α} (hf : Rewrites matchLength replacement f)

include hf

theorem suffix_of_reaches (h : Reaches matchLength xs ys) : f ys <:+ f xs := by
  induction h with
  | refl => exact List.suffix_refl _
  | skip hlen _ ih =>
      rw [hf.skip hlen]
      exact ih.trans (List.suffix_cons _ _)
  | found hlen _ ih =>
      rw [hf.found hlen]
      exact ih.trans (List.suffix_append _ _)

/-- **The suffixes of the result.** -/
theorem suffix_iff {s : List α} : s <:+ f xs ↔
    (∃ ys, Reaches matchLength xs ys ∧ s = f ys) ∨
      ∃ z zs n r, Reaches matchLength xs (z :: zs) ∧ matchLength (z :: zs) = n + 1 ∧
        r <:+ replacement (z :: zs) ∧ s = r ++ f (zs.drop n) := by
  constructor
  · intro h
    induction xs using searchInduction matchLength with
    | nil =>
        rw [hf.nil] at h
        exact .inl ⟨[], .refl, (List.suffix_nil.mp h).trans hf.nil.symm⟩
    | skip x xs hlen ih =>
        rw [hf.skip hlen] at h
        rcases List.suffix_cons_iff.mp h with rfl | h
        · exact .inl ⟨x :: xs, .refl, (hf.skip hlen).symm⟩
        · rcases ih h with ⟨ys, hys, hs⟩ | ⟨z, zs, m, r, hz, hs⟩
          · exact .inl ⟨ys, .skip hlen hys, hs⟩
          · exact .inr ⟨z, zs, m, r, .skip hlen hz, hs⟩
    | found x xs n hlen ih =>
        rw [hf.found hlen] at h
        rcases suffix_append_iff.mp h with h | ⟨r, hr, hs⟩
        · rcases ih h with ⟨ys, hys, hs⟩ | ⟨z, zs, m, r, hz, hs⟩
          · exact .inl ⟨ys, .found hlen hys, hs⟩
          · exact .inr ⟨z, zs, m, r, .found hlen hz, hs⟩
        · exact .inr ⟨x, xs, n, r, .refl, hlen, hr, hs⟩
  · rintro (⟨ys, hys, rfl⟩ | ⟨z, zs, n, r, hreach, hlen, hr, rfl⟩)
    · exact hf.suffix_of_reaches hys
    · have hstep := hf.suffix_of_reaches hreach
      rw [hf.found hlen] at hstep
      exact (suffix_append_iff.mpr (.inr ⟨r, hr, rfl⟩)).trans hstep

end Rewrites

end Search

/-! ## Removing -/

/-- A text starts with pieces, one match after each but the last, as the search in it finds
them. -/
inductive Cut (matchLength : List α → Nat) : List (List α) → List α → Prop
  | last {p rest} : Unmatched matchLength p.length (p ++ rest) → Cut matchLength [p] (p ++ rest)
  | piece {p ps y ys n} : Unmatched matchLength p.length (p ++ y :: ys) →
      matchLength (y :: ys) = n + 1 → Cut matchLength ps (ys.drop n) →
      Cut matchLength (p :: ps) (p ++ y :: ys)

section Remove

variable {matchLength : List α → Nat} {ps : List (List α)} {word p ys : List α} {y : α}

/-- A symbol at which no match starts belongs to the first piece. -/
theorem Cut.cons (h : Cut matchLength (p :: ps) ys) (hlen : matchLength (y :: ys) = 0) :
    Cut matchLength ((y :: p) :: ps) (y :: ys) := by
  cases h with
  | last hp => exact .last (p := y :: p) (hp.cons hlen)
  | piece hp hm hps => exact .piece (p := y :: p) (hp.cons hlen) hm hps

/-- **The prefixes of what a removal leaves.** -/
theorem Rewrites.prefix_iff {f : List α → List α} (hf : Rewrites matchLength (fun _ ↦ []) f) :
    word <+: f ys ↔ ∃ ps, Cut matchLength ps ys ∧ ps.flatten = word := by
  constructor
  · intro h
    induction ys using searchInduction matchLength generalizing word with
    | nil =>
        rw [hf.nil] at h
        exact ⟨[[]], .last (p := []) nofun, (List.prefix_nil.mp h).symm⟩
    | skip y ys hlen ih =>
        cases word with
        | nil => exact ⟨[[]], .last (p := []) nofun, rfl⟩
        | cons a word =>
            rw [hf.skip hlen] at h
            obtain ⟨rfl, hword⟩ := List.cons_prefix_cons.mp h
            obtain ⟨ps, hcut, rfl⟩ := ih hword
            cases ps with
            | nil => cases hcut
            | cons p ps => exact ⟨(a :: p) :: ps, hcut.cons hlen, rfl⟩
    | found y ys n hlen ih =>
        rw [hf.found hlen, List.nil_append] at h
        obtain ⟨ps, hcut, hflat⟩ := ih h
        exact ⟨[] :: ps, .piece (p := []) nofun hlen hcut, hflat⟩
  · rintro ⟨ps, hcut, rfl⟩
    induction hcut with
    | last hp =>
        rw [hf.append hp, List.flatten_singleton]
        exact List.prefix_append _ _
    | piece hp hlen _ ih =>
        rw [hf.append hp, hf.found hlen, List.nil_append, List.flatten_cons]
        exact (List.prefix_append_right_inj _).mpr ih

end Remove

end CodeArena.Lib.Replace
