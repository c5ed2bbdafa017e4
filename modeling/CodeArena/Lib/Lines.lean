import CodeArena.Lib.Separated
import Mathlib.Data.List.DropRight

/-!
# Lines without white space at their ends

A text is trimmed line by line, the empty lines at its end are dropped, and the lines are
joined again.  Trimming the joined text once more does the same as dropping empty lines
(`rdropWhile_intercalate`), and the lines can be read off the text that is left
(`intercalate_inj`).
-/

universe u

namespace CodeArena.Lib.Lines

variable {α : Type u} {white : α → Bool} {sep : α}

/-- The lines, trimmed at their ends, without the empty ones that come last. -/
def trimLines (white : α → Bool) (ls : List (List α)) : List (List α) :=
  (ls.map (List.rdropWhile white)).rdropWhile List.isEmpty

/-- Lines of a text: they contain no separator, and the last one is not empty. -/
structure Tidy (sep : α) (ls : List (List α)) : Prop where
  not_mem : ∀ l ∈ ls, sep ∉ l
  last : ls.rdropWhile List.isEmpty = ls

theorem intercalate_concat {s l : List α} {ls : List (List α)} (h : ls ≠ []) :
    s.intercalate (ls ++ [l]) = s.intercalate ls ++ s ++ l := by
  induction ls with
  | nil => exact absurd rfl h
  | cons k ls ih =>
      cases ls with
      | nil => simp [List.intercalate]
      | cons k' ls =>
          have hrest := ih (List.cons_ne_nil k' ls)
          rw [List.cons_append, List.cons_append, List.intercalate_cons_cons, ← List.cons_append,
            hrest, List.intercalate_cons_cons]
          simp only [List.append_assoc]

/-- A text contains what its lines contain, and separators. -/
theorem mem_intercalate {x : α} {ls : List (List α)} (h : x ∈ [sep].intercalate ls) :
    x = sep ∨ ∃ l ∈ ls, x ∈ l := by
  induction ls with
  | nil => cases h
  | cons l ls ih =>
      cases ls with
      | nil => exact .inr ⟨l, List.mem_singleton_self l, by simpa using h⟩
      | cons l' ls =>
          rw [List.intercalate_cons_cons, List.mem_append, List.mem_append, List.mem_singleton] at h
          rcases h with (h | h) | h
          · exact .inr ⟨l, List.mem_cons_self, h⟩
          · exact .inl h
          · exact (ih h).imp_right fun ⟨k, hk, hx⟩ ↦ ⟨k, List.mem_cons_of_mem l hk, hx⟩

/-- The last symbol of a trimmed text is not white space. -/
theorem getLast?_of_trimmed {l : List α} (h : l.rdropWhile white = l) {x : α}
    (hx : x ∈ l.getLast?) : white x = false := by
  have hne : l ≠ [] := by
    rintro rfl
    cases hx
  rw [List.getLast?_eq_some_getLast hne] at hx
  obtain rfl := Option.some.inj hx
  exact Bool.eq_false_iff.mpr (List.rdropWhile_eq_self_iff.mp h hne)

/-- Trimmed text after a text is not trimmed any further. -/
theorem rdropWhile_append {ks l : List α} (h : l.rdropWhile white = l) (hl : l ≠ []) :
    (ks ++ l).rdropWhile white = ks ++ l := by
  rw [List.rdropWhile_eq_self_iff]
  intro hne
  rw [List.getLast_append_of_ne_nil hne hl]
  exact List.rdropWhile_eq_self_iff.mp h hl

/-- **Trimming joined lines drops the empty ones at the end.** -/
theorem rdropWhile_intercalate (hsep : white sep = true) (ls : List (List α))
    (h : ∀ l ∈ ls, l.rdropWhile white = l) :
    ([sep].intercalate ls).rdropWhile white = [sep].intercalate (ls.rdropWhile List.isEmpty) := by
  induction ls using List.reverseRecOn with
  | nil => rfl
  | append_singleton ls l ih =>
      have hls : ∀ k ∈ ls, k.rdropWhile white = k := fun k hk ↦ h k (List.mem_append_left _ hk)
      have hl : l.rdropWhile white = l := h l (List.mem_append_right _ (List.mem_singleton_self l))
      by_cases hempty : l = []
      · subst hempty
        rw [List.rdropWhile_concat_pos _ _ _ rfl, ← ih hls]
        by_cases hnil : ls = []
        · rw [hnil]
          rfl
        · rw [intercalate_concat hnil, List.append_nil, List.rdropWhile_concat_pos _ _ _ hsep]
      · rw [List.rdropWhile_concat_neg _ _ _ (by simpa using hempty)]
        by_cases hnil : ls = []
        · rw [hnil, List.nil_append, List.intercalate_singleton, hl]
        · rw [intercalate_concat hnil, rdropWhile_append hl hempty]

theorem trimLines_trimmed {ls : List (List α)} {l : List α} (h : l ∈ trimLines white ls) :
    l.rdropWhile white = l := by
  obtain ⟨k, -, rfl⟩ := List.mem_map.mp ((List.rdropWhile_prefix _ _).subset h)
  exact List.rdropWhile_idempotent _ _

theorem trimLines_tidy {ls : List (List α)} (h : ∀ l ∈ ls, sep ∉ l) :
    Tidy sep (trimLines white ls) := by
  refine ⟨fun l hl ↦ ?_, List.rdropWhile_idempotent _ _⟩
  obtain ⟨k, hk, rfl⟩ := List.mem_map.mp ((List.rdropWhile_prefix _ _).subset hl)
  exact fun hm ↦ h k hk ((List.rdropWhile_prefix _ _).subset hm)

/-- Lines that are trimmed already, without empty ones at the end, are left alone. -/
theorem trimLines_eq_self {ls : List (List α)} (h : ∀ l ∈ ls, l.rdropWhile white = l)
    (hlast : ls.rdropWhile List.isEmpty = ls) : trimLines white ls = ls := by
  rw [trimLines, List.map_congr_left h, List.map_id', hlast]

namespace Tidy

variable {ls ms : List (List α)}

/-- Only no lines at all have an empty text. -/
theorem intercalate_eq_nil (h : Tidy sep ls) : [sep].intercalate ls = [] ↔ ls = [] := by
  constructor
  · intro hnil
    by_contra hne
    rcases List.eq_nil_or_concat ls with rfl | ⟨ks, l, rfl⟩
    · exact hne rfl
    have hl : l ≠ [] := by
      intro hl
      have hlast := h.last
      rw [hl, List.concat_eq_append, List.rdropWhile_concat_pos _ _ _ rfl] at hlast
      have hlen := (List.rdropWhile_prefix List.isEmpty ks).length_le
      rw [hlast, List.length_append, List.length_singleton] at hlen
      exact Nat.not_succ_le_self _ hlen
    rw [List.concat_eq_append] at hnil
    by_cases hks : ks = []
    · rw [hks, List.nil_append, List.intercalate_singleton] at hnil
      exact hl hnil
    · rw [intercalate_concat hks] at hnil
      exact hl (List.append_eq_nil_iff.mp hnil).2
  · rintro rfl
    rfl

/-- The lines of a text are read off it. -/
theorem splitOn_intercalate [BEq α] [LawfulBEq α] (h : Tidy sep ls) (hne : ls ≠ []) :
    ([sep].intercalate ls).splitOn sep = ls := List.splitOn_intercalate sep h.not_mem hne

/-- **Texts are equal only where their lines are.** -/
theorem intercalate_inj [BEq α] [LawfulBEq α] (h : Tidy sep ls) (h' : Tidy sep ms) :
    [sep].intercalate ls = [sep].intercalate ms ↔ ls = ms := by
  constructor
  · intro heq
    by_cases hls : ls = []
    · rw [hls] at heq
      rw [hls, h'.intercalate_eq_nil.mp heq.symm]
    by_cases hms : ms = []
    · rw [hms] at heq
      exact absurd (h.intercalate_eq_nil.mp heq) hls
    rw [← h.splitOn_intercalate hls, heq, h'.splitOn_intercalate hms]
  · exact congrArg _

end Tidy

end CodeArena.Lib.Lines
