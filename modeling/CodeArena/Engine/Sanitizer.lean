import CodeArena.Engine.Output
import CodeArena.Lib.Pattern
import CodeArena.Lib.Scan

/-!
# Taking the workspace out of the output

`sanitizeOutput` with the regular expression that it builds.  Its escaping is complete, so that
the expression is the path, literally, with an optional separator behind it
(`fileRegex_eq`), and every occurrence that the search comes to is removed.

The search does not look again at what it leaves: what stands before a match and what stands
behind it may come together as the path.  That happens exactly where the output has the path cut
into pieces by matches (`sanitizeOutput_removes_iff`).
-/

namespace CodeArena.Engine.Sanitizer

open CodeArena.Lib CodeArena.Lib.Utf CodeArena.Lib.Replace
open CodeArena.Lib.Pattern (Item)

/-! ## The regular expression -/

/-- `[.*+?^${}()|[\]\\]`. -/
def specialCharacters : List CodeUnit :=
  [0x2E, 0x2A, 0x2B, 0x3F, 0x5E, 0x24, 0x7B, 0x7D, 0x28, 0x29, 0x7C, 0x5B, 0x5D, 0x5C]

/-- `escapedWorkspaceDir`. -/
def escapedWorkspaceDir (workspaceDir : JsString) : JsString :=
  Pattern.escape specialCharacters workspaceDir

/-- `fileRegex`, nothing where the constructor throws. -/
def fileRegex (workspaceDir : JsString) : Option (List Item) :=
  Pattern.read (escapedWorkspaceDir workspaceDir ++ js "[/\\\\]?")

/-- `sanitizeOutput`. -/
def sanitizeOutput (output workspaceDir : JsString) : Option JsString :=
  if output = [] then some []
  else if workspaceDir = [] then some output
  else (fileRegex workspaceDir).map fun items ↦
    replaceAll (fun s ↦ (Pattern.matchItems items s).getD 0) [] output

/-- The path, literally, and an optional separator. -/
def literalItems (workspaceDir : JsString) : List Item :=
  workspaceDir.map Item.unit ++ [.optional [0x2F, 0x5C]]

/-- What the expression matches at the start of a text. -/
def matchLength (workspaceDir s : JsString) : Nat :=
  if workspaceDir <+: s then Text.matchLength workspaceDir isSeparator s else 0

theorem mem_specialCharacters (u : CodeUnit) :
    u ∈ specialCharacters ↔ u ∈ Pattern.syntaxCharacters := by
  constructor
  · exact fun h ↦ of_decide_eq_true (List.all_eq_true.mp
      (by decide : specialCharacters.all (· ∈ Pattern.syntaxCharacters) = true) u h)
  · exact fun h ↦ of_decide_eq_true (List.all_eq_true.mp
      (by decide : Pattern.syntaxCharacters.all (· ∈ specialCharacters) = true) u h)

/-- **The escaping is complete.** -/
theorem fileRegex_eq (workspaceDir : JsString) :
    fileRegex workspaceDir = some (literalItems workspaceDir) := by
  have hclass : Pattern.readFrom .plain (js "[/\\\\]?") = some [.optional [0x2F, 0x5C]] := by
    decide +kernel
  rw [fileRegex, Pattern.read, escapedWorkspaceDir, Pattern.readFrom_escape mem_specialCharacters,
    hclass]
  rfl

theorem matchItems_literalItems (workspaceDir : JsString) :
    (fun s ↦ (Pattern.matchItems (literalItems workspaceDir) s).getD 0) =
      matchLength workspaceDir := by
  funext s
  have hsep : (fun u ↦ decide (u ∈ ([0x2F, 0x5C] : List CodeUnit))) = isSeparator := by
    funext u
    simp [isSeparator]
  rw [literalItems, Pattern.matchItems_units_optional, hsep, matchLength, Text.matchLength]
  split
  · show workspaceDir.length + _ = _
    split <;> rfl
  · rfl

/-! ## What it removes -/

section

variable {output workspaceDir : JsString}

theorem matchLength_eq_zero (h : ¬ workspaceDir <+: output) : matchLength workspaceDir output = 0 :=
  if_neg h

theorem matchLength_ne_zero (hdir : workspaceDir ≠ []) (h : workspaceDir <+: output) :
    matchLength workspaceDir output ≠ 0 := by
  rw [matchLength, if_pos h]
  exact Nat.ne_of_gt (Nat.lt_of_lt_of_le (List.length_pos_of_ne_nil hdir) Text.le_matchLength)

/-- The removal of the literal, once more. -/
theorem replaceFrom_matchLength (hdir : workspaceDir ≠ []) (n : Nat) (output : JsString) :
    replaceFrom (matchLength workspaceDir) [] n output =
      Text.removeAll workspaceDir isSeparator n output := by
  induction output generalizing n with
  | nil => cases n <;> rfl
  | cons u s ih =>
      cases n with
      | succ n => exact ih n
      | zero =>
          rw [replaceFrom, Text.removeAll]
          by_cases h : workspaceDir <+: u :: s
          · obtain ⟨n, hn⟩ := Nat.exists_eq_succ_of_ne_zero (matchLength_ne_zero hdir h)
            have hlen : Text.matchLength workspaceDir isSeparator (u :: s) = n + 1 :=
              (if_pos h).symm.trans hn
            rw [if_pos h, hn, hlen]
            exact ih n
          · rw [if_neg h, matchLength_eq_zero h]
            exact congrArg (u :: ·) (ih 0)

/-- **`sanitizeOutput` never throws, and removes the path as a literal.** -/
theorem sanitizeOutput_eq (output workspaceDir : JsString) :
    sanitizeOutput output workspaceDir = some (Engine.sanitizeOutput output workspaceDir) := by
  unfold sanitizeOutput Engine.sanitizeOutput
  split
  case isTrue h =>
    subst h
    split <;> rfl
  case isFalse =>
    split
    case isTrue => rfl
    case isFalse hdir =>
      rw [fileRegex_eq, Option.map_some, matchItems_literalItems]
      exact congrArg some (replaceFrom_matchLength hdir 0 output)

/-! ## What is left -/

/-- Somewhere the search in the output leaves pieces that are the path, put together, with one
match after each of them but the last. -/
def CutApart (workspaceDir output : JsString) : Prop :=
  ∃ s pieces, Reaches (matchLength workspaceDir) output s ∧
    Cut (matchLength workspaceDir) pieces s ∧ pieces.flatten = workspaceDir

/-- What the sanitizer is for: the path is gone, nothing changes in a text without it, and a
second time changes nothing. -/
def Removes (output workspaceDir : JsString) : Prop :=
  ∃ result, sanitizeOutput output workspaceDir = some result ∧ ¬ workspaceDir <:+: result ∧
    (¬ workspaceDir <:+: output → result = output) ∧ sanitizeOutput result workspaceDir = some result

/-- The path is left exactly if the output has it cut apart. -/
theorem infix_sanitizeOutput_iff (hdir : workspaceDir ≠ []) :
    workspaceDir <:+: Engine.sanitizeOutput output workspaceDir ↔ CutApart workspaceDir output := by
  have hrewrites := rewrites_replaceAll (matchLength workspaceDir) []
  rw [Engine.sanitizeOutput, if_neg hdir, ← replaceFrom_matchLength hdir 0 output]
  show workspaceDir <:+: replaceAll (matchLength workspaceDir) [] output ↔ _
  rw [List.infix_iff_prefix_suffix]
  constructor
  · rintro ⟨s, hprefix, hsuffix⟩
    rcases hrewrites.suffix_iff.mp hsuffix with ⟨ys, hreach, rfl⟩ | ⟨z, zs, n, r, hreach, hlen, hr, rfl⟩
    · obtain ⟨pieces, hcut, hflat⟩ := hrewrites.prefix_iff.mp hprefix
      exact ⟨ys, pieces, hreach, hcut, hflat⟩
    · cases List.suffix_nil.mp hr
      obtain ⟨pieces, hcut, hflat⟩ := hrewrites.prefix_iff.mp hprefix
      exact ⟨zs.drop n, pieces, hreach.trans (.found hlen .refl), hcut, hflat⟩
  · rintro ⟨ys, pieces, hreach, hcut, hflat⟩
    exact ⟨_, hrewrites.prefix_iff.mpr ⟨pieces, hcut, hflat⟩, hrewrites.suffix_of_reaches hreach⟩

end

/-- **The sanitizer removes the path exactly if the output does not have it cut apart.** -/
theorem sanitizeOutput_removes_iff {workspaceDir : JsString} (hdir : workspaceDir ≠ [])
    (output : JsString) : Removes output workspaceDir ↔ ¬ CutApart workspaceDir output := by
  rw [← infix_sanitizeOutput_iff hdir]
  constructor
  · rintro ⟨result, hresult, hclean, -⟩
    rw [sanitizeOutput_eq] at hresult
    cases hresult
    exact hclean
  · intro hclean
    refine ⟨_, sanitizeOutput_eq output workspaceDir, hclean, sanitizeOutput_of_not_infix, ?_⟩
    rw [sanitizeOutput_eq, sanitizeOutput_of_not_infix hclean]

/-- An error message with the path in it. -/
theorem sanitizeOutput_removes_message :
    Removes (js "/tmp/codearena-workspaces/sbx-a1B2c3/main.cpp:1: error")
        (js "/tmp/codearena-workspaces/sbx-a1B2c3") ↔
      ¬ CutApart (js "/tmp/codearena-workspaces/sbx-a1B2c3")
        (js "/tmp/codearena-workspaces/sbx-a1B2c3/main.cpp:1: error") :=
  sanitizeOutput_removes_iff (by decide) _

/-- The path inside of the path is removed, and leaves the outer one. -/
theorem sanitizeOutput_nested : js "/tmp/codearena-workspaces/sbx-a1B2c3" ≠ [] ∧
    ¬ Removes (js "/tmp/codearena-workspaces/sbx-/tmp/codearena-workspaces/sbx-a1B2c3a1B2c3")
      (js "/tmp/codearena-workspaces/sbx-a1B2c3") := by
  refine ⟨by decide, ?_⟩
  rintro ⟨result, hresult, hclean, -⟩
  have heval : sanitizeOutput
      (js "/tmp/codearena-workspaces/sbx-/tmp/codearena-workspaces/sbx-a1B2c3a1B2c3")
      (js "/tmp/codearena-workspaces/sbx-a1B2c3") =
        some (js "/tmp/codearena-workspaces/sbx-a1B2c3") := by decide +kernel
  rw [heval] at hresult
  cases hresult
  exact hclean (List.infix_refl _)

end CodeArena.Engine.Sanitizer
