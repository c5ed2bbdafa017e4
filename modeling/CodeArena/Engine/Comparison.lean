import CodeArena.Engine.Output
import CodeArena.Lib.Lines

/-!
# The policy of the comparison

Outputs are compared by their lines: a text is split at every CRLF, lone CR or LF, every
line is trimmed at its end, and the empty lines at the end are dropped (`comparedLines`).
`normalizeOutput` comes to these lines in five passes over the text, and it loses nothing
else: two normalized texts are equal exactly if their lines are.
-/

namespace CodeArena.Engine

open CodeArena.Lib CodeArena.Lib.Utf

/-! ## The policy -/

/-- The lines of a text, with a line end at every CRLF, lone CR or LF. -/
def splitLines : JsString → List JsString
  | [] => [[]]
  | [u] => if u = 0x0D ∨ u = 0x0A then [[], []] else [[u]]
  | u :: v :: s =>
    if u = 0x0D ∧ v = 0x0A then [] :: splitLines s
    else if u = 0x0D ∨ u = 0x0A then [] :: splitLines (v :: s)
    else (splitLines (v :: s)).modifyHead (u :: ·)

/-- The lines that are compared. -/
def comparedLines (s : JsString) : List JsString := Lines.trimLines isWhitespace (splitLines s)

/-! ## What `normalizeOutput` computes -/

theorem replaceCr_cons (u : CodeUnit) (s : JsString) :
    replaceCr (u :: s) = (if u = 0x0D then 0x0A else u) :: replaceCr s := rfl

/-- The two replacements leave a line end at every line end. -/
theorem splitLines_eq (s : JsString) :
    splitLines s = (replaceCr (replaceCrLf s)).splitOn 0x0A := by
  induction s using splitLines.induct with
  | case1 => rfl
  | case2 u h =>
      rw [splitLines, if_pos h, replaceCrLf, replaceCr_cons]
      rcases h with rfl | rfl
      · rfl
      · rfl
  | case3 u h =>
      obtain ⟨hcr, hlf⟩ := not_or.mp h
      rw [splitLines, if_neg h, replaceCrLf, replaceCr_cons, if_neg hcr]
      exact (List.splitOn_eq_singleton (by simpa [replaceCr] using Ne.symm hlf)).symm
  | case4 u v s h ih =>
      rw [splitLines, if_pos h, replaceCrLf, if_pos h, replaceCr_cons, if_neg (by decide), ih,
        List.splitOn_cons_eq_if_modifyHead]
      rfl
  | case5 u v s h hend ih =>
      rw [splitLines, if_neg h, if_pos hend, replaceCrLf, if_neg h, replaceCr_cons, ih,
        List.splitOn_cons_eq_if_modifyHead]
      rcases hend with rfl | rfl
      · rfl
      · rfl
  | case6 u v s h hend ih =>
      obtain ⟨hcr, hlf⟩ := not_or.mp hend
      rw [splitLines, if_neg h, if_neg hend, replaceCrLf, if_neg h, replaceCr_cons, if_neg hcr, ih,
        List.splitOn_cons_eq_if_modifyHead, if_neg (by simpa using hlf)]

theorem splitLines_not_mem {s l : JsString} (h : l ∈ splitLines s) : (0x0A : CodeUnit) ∉ l := by
  rw [splitLines_eq] at h
  exact (Separated.mem_splitOn h).1

theorem comparedLines_tidy (s : JsString) : Lines.Tidy (0x0A : CodeUnit) (comparedLines s) :=
  Lines.trimLines_tidy fun _ ↦ splitLines_not_mem

/-- **`normalizeOutput` is the text of the compared lines.** -/
theorem normalizeOutput_eq (s : JsString) :
    normalizeOutput s = [0x0A].intercalate (comparedLines s) := by
  rw [normalizeOutput, ← splitLines_eq]
  apply Lines.rdropWhile_intercalate (by decide)
  intro l hl
  obtain ⟨k, -, rfl⟩ := List.mem_map.mp hl
  exact List.rdropWhile_idempotent _ _

/-- Outputs match exactly if their compared lines are equal. -/
theorem normalizeOutput_inj {a e : JsString} :
    normalizeOutput a = normalizeOutput e ↔ comparedLines a = comparedLines e := by
  rw [normalizeOutput_eq, normalizeOutput_eq]
  exact (comparedLines_tidy a).intercalate_inj (comparedLines_tidy e)

/-! ## Normal forms -/

/-- A normalized text. -/
structure Normalized (t : JsString) : Prop where
  no_cr : (0x0D : CodeUnit) ∉ t
  no_trailing_space : ∀ l ∈ t.splitOn 0x0A, ∀ u ∈ l.getLast?, isWhitespace u = false
  no_trailing_newline : t.getLast? ≠ some 0x0A

theorem not_mem_replaceCr (s : JsString) : (0x0D : CodeUnit) ∉ replaceCr s := by
  intro h
  obtain ⟨u, -, hu⟩ := List.mem_map.mp h
  split at hu
  · cases hu
  · rename_i hne
    exact hne hu

theorem comparedLines_not_mem_cr {s l : JsString} (h : l ∈ comparedLines s) :
    (0x0D : CodeUnit) ∉ l := by
  obtain ⟨k, hk, rfl⟩ := List.mem_map.mp ((List.rdropWhile_prefix _ _).subset h)
  rw [splitLines_eq] at hk
  exact fun hcr ↦ not_mem_replaceCr _
    ((Separated.mem_splitOn hk).2 ((List.rdropWhile_prefix _ _).subset hcr))

/-- The lines of a normalized text; an empty text is one empty line. -/
theorem splitOn_normalizeOutput (s : JsString) :
    (normalizeOutput s).splitOn 0x0A = if comparedLines s = [] then [[]] else comparedLines s := by
  rw [normalizeOutput_eq]
  split
  · rename_i h
    rw [h]
    rfl
  · rename_i h
    exact (comparedLines_tidy s).splitOn_intercalate h

theorem normalizeOutput_normalized (s : JsString) : Normalized (normalizeOutput s) where
  no_cr := by
    rw [normalizeOutput_eq]
    intro h
    rcases Lines.mem_intercalate h with h | ⟨l, hl, h⟩
    · cases h
    · exact comparedLines_not_mem_cr hl h
  no_trailing_space := by
    rw [splitOn_normalizeOutput]
    intro l hl u hu
    split at hl
    · rw [List.mem_singleton.mp hl] at hu
      cases hu
    · exact Lines.getLast?_of_trimmed (Lines.trimLines_trimmed hl) hu
  no_trailing_newline := by
    intro h
    exact absurd (Lines.getLast?_of_trimmed (List.rdropWhile_idempotent _ _) h) (by decide)

/-- A text without CR has its line ends where it has LF. -/
theorem splitLines_of_no_cr {t : JsString} (h : (0x0D : CodeUnit) ∉ t) :
    splitLines t = t.splitOn 0x0A := by
  have hcrlf : replaceCrLf t = t := by
    induction t using replaceCrLf.induct with
    | case1 => rfl
    | case2 u => rfl
    | case3 u v s hend ih => exact absurd (hend.1 ▸ List.mem_cons_self) h
    | case4 u v s hend ih =>
        rw [replaceCrLf, if_neg hend, ih fun hm ↦ h (List.mem_cons_of_mem u hm)]
  have hcr : replaceCr t = t := by
    have hsame : ∀ u ∈ t, (if u = 0x0D then 0x0A else u) = u :=
      fun u hu ↦ if_neg fun heq : u = 0x0D ↦ h (heq ▸ hu)
    rw [replaceCr, List.map_congr_left hsame, List.map_id']
  rw [splitLines_eq, hcrlf, hcr]

/-- A normalized text has the lines of the text it is made from. -/
theorem comparedLines_normalizeOutput (s : JsString) :
    comparedLines (normalizeOutput s) = comparedLines s := by
  rw [comparedLines, splitLines_of_no_cr (normalizeOutput_normalized s).no_cr,
    splitOn_normalizeOutput]
  split
  · rename_i h
    rw [h]
    rfl
  · exact Lines.trimLines_eq_self (fun _ ↦ Lines.trimLines_trimmed) (comparedLines_tidy s).last

/-- **The comparison implements its policy.**  Outputs are ACCEPTED exactly if their compared
lines are equal, and what is compared is in normal form. -/
theorem comparison_policy :
    (∀ a e, (evaluateOutput a e).verdict = .accepted ↔ comparedLines a = comparedLines e) ∧
    ∀ s, normalizeOutput (normalizeOutput s) = normalizeOutput s ∧ Normalized (normalizeOutput s) := by
  constructor
  · intro a e
    rw [evaluateOutput_verdict, ← normalizeOutput_inj]
    constructor
    · intro h
      by_contra hne
      rw [if_neg hne] at h
      cases h
    · exact fun h ↦ if_pos h
  · intro s
    refine ⟨?_, normalizeOutput_normalized s⟩
    rw [normalizeOutput_eq, comparedLines_normalizeOutput, ← normalizeOutput_eq]

example : comparedLines (js "a \r\r\nb\u2028\n\n") = [js "a", [], js "b"] := by decide +kernel

end CodeArena.Engine
