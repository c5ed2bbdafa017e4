import CodeArena.Submissions.Model
import CodeArena.Engine.Config
import Mathlib.Tactic.Common

/-!
# The test loop of `executeSubmission`

The part of `executeSubmission` between loading the test cases and the final save:
it runs the adapter on one test case after another, stops at the first verdict
that settles the submission, and computes the tuple that is then stored.  No step
of it touches the stored submission, so it is a function of the test cases and of
how every call of the execution engine comes out.
-/

namespace CodeArena.Submissions

open CodeArena.Lib.Utf

/-- What the loop reads of the engine's result. -/
structure ExecResult where
  verdict : Engine.Verdict
  runtimeMs : Option Nat
deriving DecidableEq, Repr

/-- What the loop reads of a test case. -/
structure TestCase where
  input : JsString
  expectedOutput : JsString
deriving DecidableEq, Repr

/-- What a call of the engine comes to: `none` when the engine module did not
load. -/
abbrev EngineReply := Option (Except JsError ExecResult)

/-- `executeTestCase` of the adapter: a validation error of the engine becomes a
client error, every other error an internal one. -/
def executeTestCase : EngineReply → Except JsError ExecResult
  | none => .error (appError "Execution Engine is currently unavailable" 500 none)
  | some (.ok result) => .ok result
  | some (.error err) =>
    if err.name = "ValidationError" then .error (appError err.message 400 none)
    else .error (appError "Internal execution engine failure" 500 none)

/-- `PROBLEM_NOT_READY`, thrown when a problem has no active test case. -/
def problemNotReady : JsError :=
  appError "This problem has no active test cases and is not ready for submissions." 422
    (some "PROBLEM_NOT_READY")

/-- The local variables of the loop. -/
structure Tally where
  testsPassed : Nat
  totalRuntimeMs : Nat
  finalVerdict : Verdict
deriving DecidableEq, Repr

/-- How the loop is left. -/
inductive Loop where
  /-- A call of the adapter threw. -/
  | threw (error : JsError)
  /-- The program does not compile. -/
  | compilationError (testsPassed : Nat)
  /-- The list was exhausted, or a verdict broke the loop. -/
  | ended (tally : Tally)
deriving DecidableEq, Repr

/-- The loop over the remaining test cases; `engine i` is the reply to call `i`. -/
def runTests (engine : Nat → TestCase → EngineReply) : List TestCase → Nat → Tally → Loop
  | [], _, tally => .ended tally
  | tc :: rest, i, tally =>
    match executeTestCase (engine i tc) with
    | .error e => .threw e
    | .ok result =>
      let tally := { tally with totalRuntimeMs := tally.totalRuntimeMs + result.runtimeMs.getD 0 }
      match result.verdict with
      | .compilationError => .compilationError tally.testsPassed
      | .accepted => runTests engine rest (i + 1) { tally with testsPassed := tally.testsPassed + 1 }
      | .wrongAnswer =>
        if tally.finalVerdict ∈ [.timeLimitExceeded, .memoryLimitExceeded, .runtimeError] then
          runTests engine rest (i + 1) tally
        else runTests engine rest (i + 1) { tally with finalVerdict := .wrongAnswer }
      | .timeLimitExceeded => .ended { tally with finalVerdict := .timeLimitExceeded }
      | .memoryLimitExceeded => .ended { tally with finalVerdict := .memoryLimitExceeded }
      | .outputLimitExceeded => .ended { tally with finalVerdict := .runtimeError }
      | .runtimeError => .ended { tally with finalVerdict := .runtimeError }
      | .pending => runTests engine rest (i + 1) tally

/-- How often the loop over the remaining test cases awaits the adapter. -/
def testCalls (engine : Nat → TestCase → EngineReply) : List TestCase → Nat → Nat
  | [], _ => 0
  | tc :: rest, i =>
    match executeTestCase (engine i tc) with
    | .error _ => 1
    | .ok result =>
      match result.verdict with
      | .accepted | .wrongAnswer | .pending => 1 + testCalls engine rest (i + 1)
      | _ => 1

/-- `// Determine final verdict`, and the fields stored with it. -/
def conclude (totalTests : Nat) (tally : Tally) : Judgement where
  verdict :=
    if tally.testsPassed = totalTests ∧ tally.finalVerdict = .accepted then .accepted
    else if tally.testsPassed ≠ totalTests ∧ tally.finalVerdict = .accepted then .wrongAnswer
    else tally.finalVerdict
  testsPassed := tally.testsPassed
  totalTests := totalTests
  runtimeMs := some tally.totalRuntimeMs

/-- The `try` block of `executeSubmission` up to its save. -/
def executeTests (engine : Nat → TestCase → EngineReply) (testCases : List TestCase) :
    Except JsError Judgement :=
  match runTests engine testCases 0 ⟨0, 0, .accepted⟩ with
  | .threw e => .error e
  | .compilationError testsPassed =>
    .ok ⟨.compilationError, testsPassed, testCases.length, none⟩
  | .ended tally => .ok (conclude testCases.length tally)

/-! ## What the loop computes -/

/-- The loop calls the adapter at most once for each test case. -/
theorem testCalls_le (engine : Nat → TestCase → EngineReply) (tests : List TestCase) (i : Nat) :
    testCalls engine tests i ≤ tests.length := by
  induction tests generalizing i with
  | nil => exact Nat.le_refl _
  | cons tc rest ih =>
      have hrest := ih (i + 1)
      rw [testCalls, List.length_cons]
      split
      · omega
      · split <;> omega

/-- A judgement is sound: it counts within the tests there are, and accepts exactly
when all of them passed. -/
structure Judgement.Sound (j : Judgement) : Prop where
  verdict_ne_pending : j.verdict ≠ .pending
  totalTests_pos : 0 < j.totalTests
  testsPassed_le : j.testsPassed ≤ j.totalTests
  accepted_iff : j.verdict = .accepted ↔ j.testsPassed = j.totalTests

/-- The tally after `k` test cases: a verdict other than ACCEPTED was paid for with
a test that did not pass. -/
structure Tally.Sound (k : Nat) (t : Tally) : Prop where
  testsPassed_le : t.testsPassed ≤ k
  lt_of_ne : t.finalVerdict ≠ .accepted → t.testsPassed < k
  ne_pending : t.finalVerdict ≠ .pending

/-- What leaving the loop after at most `k` test cases guarantees. -/
def Loop.Sound (k : Nat) : Loop → Prop
  | .threw _ => True
  | .compilationError testsPassed => testsPassed < k
  | .ended tally => tally.Sound k

theorem Tally.Sound.mono {k l : Nat} {t : Tally} (h : t.Sound k) (hkl : k ≤ l) : t.Sound l :=
  ⟨Nat.le_trans h.testsPassed_le hkl, fun hne ↦ Nat.lt_of_lt_of_le (h.lt_of_ne hne) hkl,
    h.ne_pending⟩

/-- A test that did not pass keeps the tally sound, under any verdict but PENDING. -/
theorem Tally.Sound.fail {k : Nat} {t : Tally} (h : t.Sound k) (ms : Nat) {v : Verdict}
    (hv : v ≠ .pending) : Tally.Sound (k + 1) ⟨t.testsPassed, ms, v⟩ :=
  ⟨Nat.le_succ_of_le h.testsPassed_le, fun _ ↦ Nat.lt_succ_of_le h.testsPassed_le, hv⟩

/-- A test that passed keeps the tally sound. -/
theorem Tally.Sound.pass {k : Nat} {t : Tally} (h : t.Sound k) (ms : Nat) :
    Tally.Sound (k + 1) ⟨t.testsPassed + 1, ms, t.finalVerdict⟩ :=
  ⟨Nat.succ_le_succ h.testsPassed_le, fun hne ↦ Nat.succ_lt_succ (h.lt_of_ne hne), h.ne_pending⟩

/-- The loop is left soundly from a sound tally. -/
theorem runTests_sound (engine : Nat → TestCase → EngineReply) (tests : List TestCase) :
    ∀ (i k : Nat) (t : Tally), t.Sound k →
      (runTests engine tests i t).Sound (k + tests.length) := by
  induction tests with
  | nil => intro i k t h; exact h
  | cons tc rest ih =>
      intro i k t h
      have hlen : k + (tc :: rest).length = k + 1 + rest.length := by
        simp only [List.length_cons]; omega
      have hle : k + 1 ≤ k + 1 + rest.length := Nat.le_add_right _ _
      rw [hlen, runTests]
      cases executeTestCase (engine i tc) with
      | error e => trivial
      | ok result =>
          dsimp only
          cases result.verdict with
          | pending => exact ih _ _ _ (h.fail _ h.ne_pending)
          | accepted => exact ih _ _ _ (h.pass _)
          | wrongAnswer =>
              dsimp only
              split
              · exact ih _ _ _ (h.fail _ h.ne_pending)
              · exact ih _ _ _ (h.fail _ (by decide))
          | compilationError =>
              exact Nat.lt_of_lt_of_le (Nat.lt_succ_of_le h.testsPassed_le) hle
          | runtimeError => exact (h.fail _ (by decide)).mono hle
          | timeLimitExceeded => exact (h.fail _ (by decide)).mono hle
          | memoryLimitExceeded => exact (h.fail _ (by decide)).mono hle
          | outputLimitExceeded => exact (h.fail _ (by decide)).mono hle

/-- The fields stored after an ended loop are sound. -/
theorem conclude_sound {n : Nat} {t : Tally} (hn : 0 < n) (h : t.Sound n) :
    Judgement.Sound (conclude n t) where
  verdict_ne_pending := by
    unfold conclude
    dsimp only
    split
    · decide
    split
    · decide
    exact h.ne_pending
  totalTests_pos := hn
  testsPassed_le := h.testsPassed_le
  accepted_iff := by
    by_cases hv : t.finalVerdict = .accepted
    · by_cases hp : t.testsPassed = n <;> simp [conclude, hv, hp]
    · have hlt := h.lt_of_ne hv
      simp [conclude, hv, Nat.ne_of_lt hlt]

/-- **Every judgement `executeSubmission` stores is sound.** -/
theorem executeTests_sound {engine : Nat → TestCase → EngineReply} {tests : List TestCase}
    {j : Judgement} (hne : tests ≠ []) (h : executeTests engine tests = .ok j) :
    Judgement.Sound j := by
  have hpos : 0 < tests.length := List.length_pos_iff.mpr hne
  have hstart : Tally.Sound 0 ⟨0, 0, .accepted⟩ := ⟨Nat.le_refl _, fun hc ↦ absurd rfl hc, by decide⟩
  have hloop := runTests_sound engine tests 0 0 _ hstart
  rw [Nat.zero_add] at hloop
  unfold executeTests at h
  split at h
  · cases h
  · rename_i p hp
    cases h
    rw [hp] at hloop
    exact ⟨Verdict.noConfusion, hpos, Nat.le_of_lt hloop,
      ⟨Verdict.noConfusion, fun hc ↦ absurd hc (Nat.ne_of_lt hloop)⟩⟩
  · rename_i t ht
    cases h
    rw [ht] at hloop
    exact conclude_sound hpos hloop

end CodeArena.Submissions
