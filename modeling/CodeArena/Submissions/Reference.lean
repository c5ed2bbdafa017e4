import CodeArena.Submissions.Adapter
import CodeArena.Lib.Async

/-!
# `executeSubmission` against its reference

`executeSubmission` as one call that nothing interferes with: what it calls the adapter
with and what it saves are the effects of an asynchronous computation, in order.  The steps
that an attempt takes there come to the same record (`Attempt.executes`).

The reference is a closed form.  Of the results that the test cases would return, those up
to the first that settles the submission count (`stopIndex`); the verdict is that of this
result, and where there is none it says whether all tests passed.  The loop computes it
because working through results that settle nothing only adds them up (`testLoop_append`).
-/

namespace CodeArena.Submissions

open CodeArena.Lib CodeArena.Lib.Utf

/-! ## The call -/

/-- What `executeSubmission` does to the world around it. -/
inductive Effect where
  /-- A call of the adapter. -/
  | executeTestCase (language : String) (sourceCode : JsString) (testCase : TestCase)
  /-- A save of the document in memory over the one that was loaded or saved before. -/
  | save (loaded doc : Submission)
deriving DecidableEq

/-- What a call of `executeSubmission` meets: the outcomes of its calls to MongoDB, the
replies of the engine, and the clock where it is read. -/
structure Surroundings where
  findById : Except JsError (Option Submission)
  findTestCases : Except JsError (List TestCase)
  engine : Nat → TestCase → EngineReply
  saveRunning : Mongo
  saveCompleted : Mongo
  startedAt : Time
  completedAt : Time

/-- `await submission.save()`. -/
def saveDocument (loaded doc : Submission) : Mongo → Async Effect JsError PUnit
  | some e => .throw e
  | none => .perform (.save loaded doc)

/-- `await executionAdapter.executeTestCase(...)`. -/
def callAdapter (submission : Submission) (tc : TestCase) (reply : EngineReply) :
    Async Effect JsError ExecResult := do
  Async.perform (.executeTestCase submission.language submission.sourceCode tc)
  Async.lift (.ofExcept (executeTestCase reply))

/-- The loop over the remaining test cases.  It comes to nothing where it has completed the
submission itself, and to its local variables elsewhere. -/
def testLoop (env : Surroundings) (submission : Submission) (totalTests : Nat) :
    List TestCase → Nat → Tally → Async Effect JsError (Option Tally)
  | [], _, tally => pure (some tally)
  | tc :: rest, i, tally => do
    let result ← callAdapter submission tc (env.engine i tc)
    let tally := { tally with totalRuntimeMs := tally.totalRuntimeMs + result.runtimeMs.getD 0 }
    match result.verdict with
    | .compilationError => do
      saveDocument submission (submission.complete env.completedAt
        ⟨.compilationError, tally.testsPassed, totalTests, none⟩) env.saveCompleted
      pure none
    | .accepted =>
      testLoop env submission totalTests rest (i + 1)
        { tally with testsPassed := tally.testsPassed + 1 }
    | .wrongAnswer =>
      if tally.finalVerdict ∈ [.timeLimitExceeded, .memoryLimitExceeded, .runtimeError] then
        testLoop env submission totalTests rest (i + 1) tally
      else testLoop env submission totalTests rest (i + 1) { tally with finalVerdict := .wrongAnswer }
    | .timeLimitExceeded => pure (some { tally with finalVerdict := .timeLimitExceeded })
    | .memoryLimitExceeded => pure (some { tally with finalVerdict := .memoryLimitExceeded })
    | .outputLimitExceeded => pure (some { tally with finalVerdict := .runtimeError })
    | .runtimeError => pure (some { tally with finalVerdict := .runtimeError })
    | .pending => testLoop env submission totalTests rest (i + 1) tally

/-- The `try` block. -/
def judgeSubmission (env : Surroundings) (submission : Submission) (testCases : List TestCase) :
    Async Effect JsError PUnit := do
  match ← testLoop env submission testCases.length testCases 0 ⟨0, 0, .accepted⟩ with
  | none => pure ⟨⟩
  | some tally =>
    saveDocument submission
      (submission.complete env.completedAt (conclude testCases.length tally)) env.saveCompleted

/-- `executeSubmission`. -/
def executeSubmission (env : Surroundings) : Async Effect JsError PUnit := do
  match ← Async.lift (.ofExcept env.findById) with
  | none => pure ⟨⟩
  | some submission =>
    if submission.language ∈ supportedLanguages then do
      let testCases ← Async.lift (.ofExcept env.findTestCases)
      if testCases = [] then Async.throw problemNotReady
      else if submission.status = .running then judgeSubmission env submission testCases
      else do
        saveDocument submission (submission.rerun env.startedAt) env.saveRunning
        judgeSubmission env (submission.rerun env.startedAt) testCases
    else saveDocument submission submission.rejectLanguage env.saveCompleted

/-- What an effect makes of the stored record. -/
def Effect.store : Submission → Effect → Submission
  | d, .executeTestCase _ _ _ => d
  | d, .save loaded doc => Submission.save loaded doc d

/-- The record after effects that nothing interferes with. -/
def storedAfter (d : Submission) (effects : List Effect) : Submission := effects.foldl Effect.store d

/-- The calls of the adapter among effects. -/
def adapterCalls (effects : List Effect) : List (String × JsString × TestCase) :=
  effects.filterMap fun
    | .executeTestCase language sourceCode tc => some (language, sourceCode, tc)
    | .save _ _ => none

/-! ## The reference -/

/-- A result at which the loop stops settles the submission. -/
def ExecResult.stops (r : ExecResult) : Bool := r.verdict.stops

/-- The number of the first result that settles the submission, counted from one, or the
number of all results where there is none. -/
def stopIndex (results : List ExecResult) : Nat :=
  min (results.findIdx ExecResult.stops + 1) results.length

/-- The verdict that is stored for the results of all test cases. -/
def referenceVerdict (results : List ExecResult) : Verdict :=
  match results.find? ExecResult.stops with
  | some r => stoppedVerdict r.verdict
  | none => if results.all (·.verdict = .accepted) then .accepted else .wrongAnswer

/-- The number of tests that are stored as passed. -/
def referencePassed (results : List ExecResult) : Nat :=
  (results.take (stopIndex results)).countP (·.verdict = .accepted)

/-- The numeric runtimes of some results, added up. -/
def totalRuntime (results : List ExecResult) : Nat :=
  results.foldl (fun n r ↦ n + r.runtimeMs.getD 0) 0

/-- The runtime that is stored. -/
def referenceRuntime (results : List ExecResult) : Option Nat :=
  if referenceVerdict results = .compilationError then none
  else some (totalRuntime (results.take (stopIndex results)))

/-- Call `i` of the adapter, on test case `i`, throws. -/
def Throws (engine : Nat → TestCase → EngineReply) (tests : List TestCase) (i : Nat)
    (e : JsError) : Prop :=
  ∃ tc, tests[i]? = some tc ∧ executeTestCase (engine i tc) = .error e

/-- The test cases would return these results: call `i` of the adapter returns result `i` or
throws. -/
structure Replies (engine : Nat → TestCase → EngineReply) (tests : List TestCase)
    (results : List ExecResult) : Prop where
  length_eq : tests.length = results.length
  returns_or_throws : ∀ i tc r, tests[i]? = some tc → results[i]? = some r →
    executeTestCase (engine i tc) = .ok r ∨ ∃ e, executeTestCase (engine i tc) = .error e

/-! ## Results that settle nothing -/

/-- A result that settles nothing, entered into the local variables. -/
def Tally.add (t : Tally) (r : ExecResult) : Tally where
  testsPassed := if r.verdict = .accepted then t.testsPassed + 1 else t.testsPassed
  totalRuntimeMs := t.totalRuntimeMs + r.runtimeMs.getD 0
  finalVerdict := if r.verdict = .wrongAnswer then .wrongAnswer else t.finalVerdict

/-- No result has settled the submission yet. -/
def Tally.Undecided (t : Tally) : Prop := t.finalVerdict = .accepted ∨ t.finalVerdict = .wrongAnswer

theorem Tally.Undecided.add {t : Tally} (h : t.Undecided) (r : ExecResult) : (t.add r).Undecided := by
  unfold Undecided Tally.add
  dsimp only
  split
  · exact .inr rfl
  · exact h

theorem Tally.Undecided.foldl {t : Tally} (h : t.Undecided) (rs : List ExecResult) :
    (rs.foldl Tally.add t).Undecided := by
  induction rs generalizing t with
  | nil => exact h
  | cons r rs ih => exact ih (h.add r)

theorem Tally.Undecided.notMem {t : Tally} (h : t.Undecided) :
    t.finalVerdict ∉ [Verdict.timeLimitExceeded, .memoryLimitExceeded, .runtimeError] := by
  rcases h with h | h
  · rw [h]; decide
  · rw [h]; decide

theorem testsPassed_foldl (rs : List ExecResult) (t : Tally) :
    (rs.foldl Tally.add t).testsPassed = t.testsPassed + rs.countP (·.verdict = .accepted) := by
  induction rs generalizing t with
  | nil => rfl
  | cons r rs ih =>
      rw [List.foldl_cons, ih, List.countP_cons, Tally.add]
      by_cases hr : r.verdict = .accepted
      · simp only [hr, if_pos, decide_true]; omega
      · simp [hr]

theorem totalRuntimeMs_foldl (rs : List ExecResult) (t : Tally) :
    (rs.foldl Tally.add t).totalRuntimeMs =
      rs.foldl (fun n r ↦ n + r.runtimeMs.getD 0) t.totalRuntimeMs := by
  induction rs generalizing t with
  | nil => rfl
  | cons r rs ih => exact ih (t.add r)

theorem finalVerdict_foldl (rs : List ExecResult) (t : Tally) :
    (rs.foldl Tally.add t).finalVerdict =
      if rs.any (·.verdict = .wrongAnswer) then .wrongAnswer else t.finalVerdict := by
  induction rs generalizing t with
  | nil => rfl
  | cons r rs ih =>
      rw [List.foldl_cons, ih, List.any_cons, Tally.add]
      by_cases hr : r.verdict = .wrongAnswer <;> simp [hr]

/-- **Where no result settles the submission**, it is accepted if all tests passed, and wrong
elsewhere. -/
theorem conclude_foldl (rs : List ExecResult) :
    conclude rs.length (rs.foldl Tally.add ⟨0, 0, .accepted⟩) =
      ⟨if rs.all (·.verdict = .accepted) then .accepted else .wrongAnswer,
        rs.countP (·.verdict = .accepted), rs.length, some (totalRuntime rs)⟩ := by
  have hpassed := testsPassed_foldl rs ⟨0, 0, .accepted⟩
  have hfinal := finalVerdict_foldl rs ⟨0, 0, .accepted⟩
  rw [Nat.zero_add] at hpassed
  unfold conclude
  rw [hpassed, hfinal, totalRuntimeMs_foldl]
  congr 1
  have hall : rs.countP (·.verdict = .accepted) = rs.length ↔
      rs.all (·.verdict = .accepted) = true := by
    rw [List.countP_eq_length, List.all_eq_true]
  by_cases h : rs.all (·.verdict = .accepted) = true
  · have hany : rs.any (·.verdict = .wrongAnswer) = false := by
      rw [List.any_eq_false]
      intro r hr hw
      have ha := List.all_eq_true.mp h r hr
      rw [of_decide_eq_true hw] at ha
      cases ha
    rw [if_pos h, hany, if_pos ⟨hall.mpr h, rfl⟩]
  · rw [if_neg h]
    have hne := mt hall.mp h
    by_cases hw : rs.any (·.verdict = .wrongAnswer) = true
    · simp [hw]
    · simp [hw, hne]

/-- A verdict that settles the submission is stored as it is. -/
theorem conclude_stopped (n passed ms : Nat) (v : Engine.Verdict) :
    conclude n ⟨passed, ms, stoppedVerdict v⟩ = ⟨stoppedVerdict v, passed, n, some ms⟩ := by
  have hne : stoppedVerdict v ≠ .accepted := by
    cases v <;> simp [stoppedVerdict]
  simp [conclude, hne]

/-! ## The loop -/

section

variable {env : Surroundings} {d : Submission} {n : Nat}

/-- The call of the adapter on a test case of a submission. -/
def Submission.call (d : Submission) (tc : TestCase) : Effect :=
  .executeTestCase d.language d.sourceCode tc

@[simp] theorem callAdapter_ok {tc : TestCase} {reply : EngineReply} {r : ExecResult}
    (h : executeTestCase reply = .ok r) : callAdapter d tc reply = ⟨[d.call tc], .resolved r⟩ := by
  unfold callAdapter
  rw [h]
  rfl

@[simp] theorem callAdapter_error {tc : TestCase} {reply : EngineReply} {e : JsError}
    (h : executeTestCase reply = .error e) : callAdapter d tc reply = ⟨[d.call tc], .rejected e⟩ := by
  unfold callAdapter
  rw [h]
  rfl

/-- A call that throws ends the loop. -/
theorem testLoop_throws {tc : TestCase} {rest : List TestCase} {i : Nat} {t : Tally} {e : JsError}
    (h : executeTestCase (env.engine i tc) = .error e) :
    testLoop env d n (tc :: rest) i t = ⟨[d.call tc], .rejected e⟩ := by
  rw [testLoop, callAdapter_error h, Async.bind_rejected]

/-- A result that settles nothing leads on to the next test case. -/
theorem testLoop_add {tc : TestCase} {rest : List TestCase} {i : Nat} {t : Tally} {r : ExecResult}
    (h : executeTestCase (env.engine i tc) = .ok r) (hgoes : r.verdict.stops = false)
    (ht : t.Undecided) :
    testLoop env d n (tc :: rest) i t =
      ⟨d.call tc :: (testLoop env d n rest (i + 1) (t.add r)).effects,
        (testLoop env d n rest (i + 1) (t.add r)).outcome⟩ := by
  rw [testLoop, callAdapter_ok h, Async.bind_resolved, Tally.add]
  cases hv : r.verdict with
  | accepted => rfl
  | pending => rfl
  | wrongAnswer =>
      dsimp only
      rw [if_neg ht.notMem]
      rfl
  | compilationError | runtimeError | timeLimitExceeded | memoryLimitExceeded
  | outputLimitExceeded => rw [hv] at hgoes; cases hgoes

/-- A compilation error is stored at once. -/
theorem testLoop_compilationError {tc : TestCase} {rest : List TestCase} {i : Nat} {t : Tally}
    {r : ExecResult} (h : executeTestCase (env.engine i tc) = .ok r)
    (hv : r.verdict = .compilationError) (hsave : env.saveCompleted = none) :
    testLoop env d n (tc :: rest) i t =
      ⟨[d.call tc, .save d (d.complete env.completedAt ⟨.compilationError, t.testsPassed, n, none⟩)],
        .resolved none⟩ := by
  rw [testLoop, callAdapter_ok h, Async.bind_resolved]
  simp only [hv, hsave]
  rfl

/-- Every other result that settles the submission breaks the loop. -/
theorem testLoop_breaks {tc : TestCase} {rest : List TestCase} {i : Nat} {t : Tally}
    {r : ExecResult} (h : executeTestCase (env.engine i tc) = .ok r)
    (hstops : r.verdict.stops = true) (hv : r.verdict ≠ .compilationError) :
    testLoop env d n (tc :: rest) i t =
      ⟨[d.call tc], .resolved (some ⟨t.testsPassed, t.totalRuntimeMs + r.runtimeMs.getD 0,
        stoppedVerdict r.verdict⟩)⟩ := by
  rw [testLoop, callAdapter_ok h, Async.bind_resolved]
  cases hr : r.verdict with
  | runtimeError | timeLimitExceeded | memoryLimitExceeded | outputLimitExceeded => rfl
  | compilationError => exact absurd hr hv
  | pending | accepted | wrongAnswer => rw [hr] at hstops; cases hstops

/-- **Results that settle nothing only add up.** -/
theorem testLoop_append {done rest : List TestCase} {rs : List ExecResult} {i : Nat} {t : Tally}
    (hlen : done.length = rs.length)
    (h : ∀ j tc r, done[j]? = some tc → rs[j]? = some r →
      executeTestCase (env.engine (i + j) tc) = .ok r)
    (hgoes : ∀ r ∈ rs, r.verdict.stops = false) (ht : t.Undecided) :
    testLoop env d n (done ++ rest) i t =
      ⟨done.map d.call ++
          (testLoop env d n rest (i + done.length) (rs.foldl Tally.add t)).effects,
        (testLoop env d n rest (i + done.length) (rs.foldl Tally.add t)).outcome⟩ := by
  induction done generalizing rs i t with
  | nil =>
      obtain rfl := List.length_eq_zero_iff.mp hlen.symm
      rfl
  | cons tc done ih =>
      cases rs with
      | nil => cases hlen
      | cons r rs =>
          obtain ⟨hr, hrs⟩ := List.forall_mem_cons.mp hgoes
          have hshift : ∀ j, i + 1 + j = i + (j + 1) := fun j ↦ by omega
          have hnext := @ih rs (i + 1) (t.add r) (Nat.succ.inj hlen)
            (fun j tc' r' htc hr' ↦ by rw [hshift]; exact h (j + 1) tc' r' htc hr') hrs (ht.add r)
          rw [hshift] at hnext
          have hfirst : executeTestCase (env.engine i tc) = .ok r := h 0 tc r rfl rfl
          rw [List.cons_append, testLoop_add hfirst hr ht, hnext]
          rfl

end

section

variable {engine : Nat → TestCase → EngineReply} {tests : List TestCase} {results : List ExecResult}
  {i : Nat}

/-- A call that does not throw returns the result of its test case. -/
theorem Replies.returns (h : Replies engine tests results) {tc : TestCase} {r : ExecResult}
    (hnot : ∀ e, ¬ Throws engine tests i e) (htc : tests[i]? = some tc) (hr : results[i]? = some r) :
    executeTestCase (engine i tc) = .ok r := by
  rcases h.returns_or_throws i tc r htc hr with hok | ⟨e, he⟩
  · exact hok
  · exact absurd ⟨tc, htc, he⟩ (hnot e)

/-- Before the first result that settles the submission none does. -/
theorem stops_of_mem_take (hi : i ≤ results.findIdx ExecResult.stops) {r : ExecResult}
    (hr : r ∈ results.take i) : r.verdict.stops = false := by
  obtain ⟨j, hj, rfl⟩ := List.mem_take_iff_getElem.mp hr
  exact List.not_of_lt_findIdx
    (Nat.lt_of_lt_of_le (Nat.lt_of_lt_of_le hj (Nat.min_le_left _ _)) hi)

/-- The loop works through the results before the first one that settles the submission, as
long as no call throws. -/
theorem testLoop_take {env : Surroundings} {d : Submission} {n : Nat}
    (h : Replies env.engine tests results) (hi : i ≤ results.findIdx ExecResult.stops)
    (hnot : ∀ j < i, ∀ e, ¬ Throws env.engine tests j e) :
    testLoop env d n tests 0 ⟨0, 0, .accepted⟩ =
      ⟨(tests.take i).map d.call ++ (testLoop env d n (tests.drop i) i
          ((results.take i).foldl Tally.add ⟨0, 0, .accepted⟩)).effects,
        (testLoop env d n (tests.drop i) i
          ((results.take i).foldl Tally.add ⟨0, 0, .accepted⟩)).outcome⟩ := by
  have hle : i ≤ tests.length := by
    rw [h.length_eq]
    exact Nat.le_trans hi List.findIdx_le_length
  have hlen : (tests.take i).length = i := List.length_take_of_le hle
  have happ := @testLoop_append env d n (tests.take i) (tests.drop i) (results.take i) 0
    ⟨0, 0, .accepted⟩ (by rw [List.length_take, List.length_take, h.length_eq])
    (fun j tc r htc hr ↦ by
      rw [List.getElem?_take] at htc hr
      split at htc
      · rename_i hj
        rw [if_pos hj] at hr
        rw [Nat.zero_add]
        exact h.returns (hnot j hj) htc hr
      · cases htc)
    (fun r hr ↦ stops_of_mem_take hi hr) (.inl rfl)
  rw [List.take_append_drop, Nat.zero_add, hlen] at happ
  exact happ

/-! ### What the reference is -/

/-- Where no result settles the submission, all of them count. -/
theorem stopIndex_of_none (h : results.find? ExecResult.stops = none) :
    results.findIdx ExecResult.stops = results.length ∧ stopIndex results = results.length := by
  have hidx : results.findIdx ExecResult.stops = results.length :=
    List.findIdx_eq_length.mpr fun r hr ↦ Bool.eq_false_iff.mpr (List.find?_eq_none.mp h r hr)
  refine ⟨hidx, ?_⟩
  rw [stopIndex, hidx]
  exact Nat.min_eq_right (Nat.le_succ _)

/-- The first result that settles the submission is the last one that counts. -/
theorem stopIndex_of_some {r : ExecResult} (h : results.find? ExecResult.stops = some r) :
    results[results.findIdx ExecResult.stops]? = some r ∧
      stopIndex results = results.findIdx ExecResult.stops + 1 ∧
      results.take (stopIndex results) =
        results.take (results.findIdx ExecResult.stops) ++ [r] := by
  have hidx : results.findIdx ExecResult.stops < results.length :=
    List.findIdx_lt_length.mpr ⟨r, List.mem_of_find?_eq_some h, List.find?_some h⟩
  have hr : results[results.findIdx ExecResult.stops]? = some r := by
    rw [← h, List.find?_eq_getElem?_findIdx]
  have hstop : stopIndex results = results.findIdx ExecResult.stops + 1 := Nat.min_eq_left hidx
  exact ⟨hr, hstop, by rw [hstop, List.take_add_one, hr]; rfl⟩

end

/-- What the reference stores. -/
def referenceJudgement (results : List ExecResult) : Judgement :=
  ⟨referenceVerdict results, referencePassed results, results.length, referenceRuntime results⟩

section

variable {results : List ExecResult}

theorem referenceJudgement_of_none (h : results.find? ExecResult.stops = none) :
    referenceJudgement results =
      conclude results.length (results.foldl Tally.add ⟨0, 0, .accepted⟩) := by
  obtain ⟨-, hstop⟩ := stopIndex_of_none h
  have hverdict : referenceVerdict results =
      if results.all (·.verdict = .accepted) then .accepted else .wrongAnswer := by
    rw [referenceVerdict, h]
  have hne : referenceVerdict results ≠ .compilationError := by
    rw [hverdict]
    split
    · decide
    · decide
  rw [conclude_foldl, referenceJudgement, referencePassed, referenceRuntime, if_neg hne, hverdict,
    hstop, List.take_length]

/-- The reference where a result settles the submission: its verdict, over the tests that
passed before. -/
theorem referenceJudgement_of_some {r : ExecResult} (h : results.find? ExecResult.stops = some r) :
    referenceJudgement results =
      ⟨stoppedVerdict r.verdict,
        ((results.take (results.findIdx ExecResult.stops)).foldl Tally.add
          ⟨0, 0, .accepted⟩).testsPassed,
        results.length,
        if r.verdict = .compilationError then none
        else some (((results.take (results.findIdx ExecResult.stops)).foldl Tally.add
          ⟨0, 0, .accepted⟩).totalRuntimeMs + r.runtimeMs.getD 0)⟩ := by
  obtain ⟨-, -, htake⟩ := stopIndex_of_some h
  have hstops : r.stops = true := List.find?_some h
  have hverdict : referenceVerdict results = stoppedVerdict r.verdict := by
    rw [referenceVerdict, h]
  have hcompile : referenceVerdict results = .compilationError ↔ r.verdict = .compilationError := by
    rw [hverdict]
    cases r.verdict <;> simp [stoppedVerdict]
  have hfailed : decide (r.verdict = .accepted) = false := by
    cases hv : r.verdict <;> simp [hv, ExecResult.stops, Engine.Verdict.stops] at hstops ⊢
  have hpassed : referencePassed results =
      ((results.take (results.findIdx ExecResult.stops)).foldl Tally.add
        ⟨0, 0, .accepted⟩).testsPassed := by
    rw [referencePassed, htake, List.countP_append, testsPassed_foldl, Nat.zero_add,
      List.countP_singleton, hfailed]
    rfl
  have hruntime : totalRuntime (results.take (stopIndex results)) =
      ((results.take (results.findIdx ExecResult.stops)).foldl Tally.add
        ⟨0, 0, .accepted⟩).totalRuntimeMs + r.runtimeMs.getD 0 := by
    rw [totalRuntime, htake, List.foldl_append, totalRuntimeMs_foldl]
    rfl
  rw [referenceJudgement, hpassed, referenceRuntime, hruntime, hverdict]
  congr 1
  exact if_congr (by rw [← hverdict]; exact hcompile) rfl rfl

end

/-! ## The call computes the reference -/

section

variable {env : Surroundings} {d : Submission} {tests : List TestCase} {results : List ExecResult}

/-- **The `try` block computes the reference**, where none of the calls that count throws. -/
theorem judgeSubmission_returns (h : Replies env.engine tests results)
    (hnot : ∀ j < stopIndex results, ∀ e, ¬ Throws env.engine tests j e)
    (hsave : env.saveCompleted = none) :
    judgeSubmission env d tests =
      ⟨(tests.take (stopIndex results)).map d.call ++
          [.save d (d.complete env.completedAt (referenceJudgement results))],
        .resolved ⟨⟩⟩ := by
  have hbefore : ∀ j < results.findIdx ExecResult.stops, ∀ e, ¬ Throws env.engine tests j e :=
    fun j hj ↦ hnot j (Nat.lt_min.mpr
      ⟨Nat.lt_succ_of_lt hj, Nat.lt_of_lt_of_le hj List.findIdx_le_length⟩)
  have hloop := @testLoop_take tests results _ env d tests.length h (Nat.le_refl _) hbefore
  unfold judgeSubmission
  rw [hloop]
  cases hfind : results.find? ExecResult.stops with
  | none =>
      obtain ⟨hidx, hstop⟩ := stopIndex_of_none hfind
      rw [hidx, hstop, ← h.length_eq, List.drop_length, List.take_length, testLoop,
        referenceJudgement_of_none hfind, List.take_of_length_le (Nat.le_of_eq h.length_eq.symm),
        ← h.length_eq]
      simp only [pure, List.append_nil, Async.bind_resolved, hsave]
      rfl
  | some r =>
      obtain ⟨hr, hstop, -⟩ := stopIndex_of_some hfind
      have hstops : r.stops = true := List.find?_some hfind
      generalize hk : results.findIdx ExecResult.stops = k at *
      have hlt : k < tests.length := by
        rw [h.length_eq]
        exact (List.getElem?_eq_some_iff.mp hr).1
      have htc : tests[k]? = some tests[k] := List.getElem?_eq_getElem hlt
      have hok : executeTestCase (env.engine k tests[k]) = .ok r :=
        h.returns (hnot k (by rw [hstop]; exact Nat.lt_succ_self k)) htc hr
      have htake : tests.take (k + 1) = tests.take k ++ [tests[k]] := by
        rw [List.take_add_one, htc]
        rfl
      rw [List.drop_eq_getElem_cons hlt, hstop, htake, referenceJudgement_of_some hfind, hk]
      by_cases hv : r.verdict = .compilationError
      · rw [testLoop_compilationError hok hv hsave, if_pos hv, hv, ← h.length_eq, Async.bind_resolved,
          List.map_append, List.append_assoc, List.append_assoc]
        rfl
      · rw [testLoop_breaks hok hstops hv, if_neg hv, ← h.length_eq, Async.bind_resolved, hsave]
        dsimp only
        rw [conclude_stopped, List.map_append]
        rfl

/-- **A call that throws is rethrown**, and the `try` block has saved nothing. -/
theorem judgeSubmission_throws {i : Nat} {e : JsError} (h : Replies env.engine tests results)
    (hi : i < stopIndex results) (hnot : ∀ j < i, ∀ e, ¬ Throws env.engine tests j e)
    (hthrows : Throws env.engine tests i e) :
    judgeSubmission env d tests = ⟨(tests.take (i + 1)).map d.call, .rejected e⟩ := by
  obtain ⟨tc, htc, he⟩ := hthrows
  obtain ⟨hlt, htests⟩ := List.getElem?_eq_some_iff.mp htc
  have hidx : i ≤ results.findIdx ExecResult.stops :=
    Nat.le_of_lt_succ (Nat.lt_of_lt_of_le hi (Nat.min_le_left _ _))
  have htake : tests.take (i + 1) = tests.take i ++ [tc] := by
    rw [List.take_add_one, htc]
    rfl
  unfold judgeSubmission
  rw [testLoop_take h hidx hnot, List.drop_eq_getElem_cons hlt, htests, testLoop_throws he,
    Async.bind_rejected, htake, List.map_append]
  rfl

end

/-- The calls to MongoDB succeed: they find this document and these test cases. -/
structure Surroundings.Answers (env : Surroundings) (d : Submission) (tests : List TestCase) :
    Prop where
  findById : env.findById = .ok (some d)
  findTestCases : env.findTestCases = .ok tests
  saveRunning : env.saveRunning = none
  saveCompleted : env.saveCompleted = none

/-- The document that the test cases are run for. -/
def Submission.started (d : Submission) (now : Time) : Submission :=
  if d.status = .running then d else d.rerun now

/-- The save of RUNNING, where it is needed. -/
def Submission.starting (d : Submission) (now : Time) : List Effect :=
  if d.status = .running then [] else [.save d (d.rerun now)]

section

variable {env : Surroundings} {d : Submission} {tests : List TestCase} {results : List ExecResult}

theorem executeSubmission_eq (hlang : d.language ∈ supportedLanguages) (hne : tests ≠ [])
    (henv : env.Answers d tests) :
    executeSubmission env =
      ⟨d.starting env.startedAt ++ (judgeSubmission env (d.started env.startedAt) tests).effects,
        (judgeSubmission env (d.started env.startedAt) tests).outcome⟩ := by
  unfold executeSubmission
  rw [henv.findById, henv.findTestCases, henv.saveRunning]
  by_cases hs : d.status = .running
  · simp [Async.lift, Outcome.ofExcept, Async.bind_resolved, hlang, hne, hs, Submission.starting,
      Submission.started]
  · simp [Async.lift, Outcome.ofExcept, Async.bind_resolved, hlang, hne, hs, Submission.starting,
      Submission.started, saveDocument, Async.perform]

/-- The record, once RUNNING is saved. -/
theorem storedAfter_starting (d : Submission) (now : Time) (effects : List Effect) :
    storedAfter d (d.starting now ++ effects) = storedAfter (d.started now) effects := by
  unfold Submission.starting Submission.started
  split
  · rfl
  · simp [storedAfter, Effect.store]

/-- Calls of the adapter save nothing. -/
theorem storedAfter_calls (s : Submission) (tests : List TestCase) (effects : List Effect) :
    storedAfter s (tests.map d.call ++ effects) = storedAfter s effects := by
  induction tests with
  | nil => rfl
  | cons tc tests ih => exact ih

theorem adapterCalls_append (es fs : List Effect) :
    adapterCalls (es ++ fs) = adapterCalls es ++ adapterCalls fs := List.filterMap_append

/-- The program is that of the submission, started or not. -/
theorem adapterCalls_started (now : Time) (tests : List TestCase) :
    adapterCalls (d.starting now ++ tests.map (d.started now).call) =
      tests.map fun tc ↦ (d.language, d.sourceCode, tc) := by
  have hprogram : (d.started now).language = d.language ∧
      (d.started now).sourceCode = d.sourceCode := by
    unfold Submission.started
    split
    · exact ⟨rfl, rfl⟩
    · exact ⟨rfl, rfl⟩
  have hnone : adapterCalls (d.starting now) = [] := by
    unfold Submission.starting
    split
    · rfl
    · rfl
  rw [adapterCalls_append, hnone, List.nil_append, adapterCalls, List.filterMap_map]
  simp [Submission.call, hprogram, Function.comp_def]

/-- Starting a submission leaves alone what a judgement stores. -/
theorem started_results (d : Submission) (now : Time) :
    (d.started now).verdict = d.verdict ∧ (d.started now).testsPassed = d.testsPassed ∧
      (d.started now).totalTests = d.totalTests ∧ (d.started now).runtimeMs = d.runtimeMs ∧
      (d.started now).completedAt = d.completedAt := by
  unfold Submission.started
  split
  · exact ⟨rfl, rfl, rfl, rfl, rfl⟩
  · exact ⟨rfl, rfl, rfl, rfl, rfl⟩

/-- The record, where none of the calls that count throws. -/
theorem storedAfter_executeSubmission (hlang : d.language ∈ supportedLanguages) (hne : tests ≠ [])
    (henv : env.Answers d tests) (h : Replies env.engine tests results)
    (hnot : ∀ i < stopIndex results, ∀ e, ¬ Throws env.engine tests i e) :
    storedAfter d (executeSubmission env).effects =
      (d.started env.startedAt).complete env.completedAt (referenceJudgement results) := by
  rw [executeSubmission_eq hlang hne henv, judgeSubmission_returns h hnot henv.saveCompleted,
    storedAfter_starting, storedAfter_calls]
  simp [storedAfter, Effect.store]

/-- **`executeSubmission` computes the reference.**  Where none of the calls that count throws,
the adapter is called on exactly these test cases, in order, and the record has the verdict,
the counts and the runtime of the reference.  The first of these calls that throws is
rethrown, and nothing of that is stored. -/
theorem executeSubmission_reference (hlang : d.language ∈ supportedLanguages) (hne : tests ≠ [])
    (henv : env.Answers d tests) (h : Replies env.engine tests results) :
    ((∀ i < stopIndex results, ∀ e, ¬ Throws env.engine tests i e) →
      (executeSubmission env).outcome = .resolved ⟨⟩ ∧
      adapterCalls (executeSubmission env).effects =
        (tests.take (stopIndex results)).map (fun tc ↦ (d.language, d.sourceCode, tc)) ∧
      (storedAfter d (executeSubmission env).effects).status = .completed ∧
      (storedAfter d (executeSubmission env).effects).totalTests = some tests.length ∧
      (storedAfter d (executeSubmission env).effects).testsPassed = some (referencePassed results) ∧
      (storedAfter d (executeSubmission env).effects).verdict = referenceVerdict results ∧
      (storedAfter d (executeSubmission env).effects).runtimeMs = referenceRuntime results) ∧
    (∀ i < stopIndex results, ∀ e, Throws env.engine tests i e →
      (∀ j < i, ∀ e', ¬ Throws env.engine tests j e') →
      (executeSubmission env).outcome = .rejected e ∧
      adapterCalls (executeSubmission env).effects =
        (tests.take (i + 1)).map (fun tc ↦ (d.language, d.sourceCode, tc)) ∧
      (storedAfter d (executeSubmission env).effects).verdict = d.verdict ∧
      (storedAfter d (executeSubmission env).effects).testsPassed = d.testsPassed ∧
      (storedAfter d (executeSubmission env).effects).totalTests = d.totalTests ∧
      (storedAfter d (executeSubmission env).effects).runtimeMs = d.runtimeMs ∧
      (storedAfter d (executeSubmission env).effects).completedAt = d.completedAt) := by
  constructor
  · intro hnot
    rw [storedAfter_executeSubmission hlang hne henv h hnot, executeSubmission_eq hlang hne henv,
      judgeSubmission_returns h hnot henv.saveCompleted, ← List.append_assoc, adapterCalls_append,
      adapterCalls_started]
    exact ⟨rfl, List.append_nil _, rfl, congrArg some h.length_eq.symm, rfl, rfl, rfl⟩
  · intro i hi e hthrows hnot
    rw [executeSubmission_eq hlang hne henv, judgeSubmission_throws h hi hnot hthrows, storedAfter_starting, adapterCalls_started,
      ← List.append_nil (List.map _ _), storedAfter_calls]
    exact ⟨rfl, rfl, started_results d env.startedAt⟩

end

/-- All calls to MongoDB succeed, and the engine returns these results in turn. -/
def Surroundings.returning (d : Submission) (tests : List TestCase) (results : List ExecResult) :
    Surroundings where
  findById := .ok (some d)
  findTestCases := .ok tests
  engine i _ := results[i]?.map .ok
  saveRunning := none
  saveCompleted := none
  startedAt := 1
  completedAt := 2

theorem Surroundings.returning_answers (d : Submission) (tests : List TestCase)
    (results : List ExecResult) : (returning d tests results).Answers d tests := ⟨rfl, rfl, rfl, rfl⟩

theorem Surroundings.returning_replies {d : Submission} {tests : List TestCase}
    {results : List ExecResult} (h : tests.length = results.length) :
    Replies (returning d tests results).engine tests results where
  length_eq := h
  returns_or_throws i tc r _ hr := by
    left
    simp only [returning, hr]
    rfl

theorem Surroundings.not_throws_returning {d : Submission} {tests : List TestCase}
    {results : List ExecResult} (h : tests.length = results.length) (i : Nat) (e : JsError) :
    ¬ Throws (returning d tests results).engine tests i e := by
  rintro ⟨tc, htc, he⟩
  have hi : i < results.length := h ▸ (List.getElem?_eq_some_iff.mp htc).1
  simp only [returning, List.getElem?_eq_getElem hi] at he
  cases he

/-- One test passes, one fails and one writes too much; the last one is not run. -/
theorem executeSubmission_reference_outputLimit :
    let tests : List TestCase := [⟨[0x31], [0x31]⟩, ⟨[0x32], [0x32]⟩, ⟨[0x33], [0x33]⟩, ⟨[0x34], [0x34]⟩]
    let results : List ExecResult :=
      [⟨.accepted, some 5⟩, ⟨.wrongAnswer, none⟩, ⟨.outputLimitExceeded, some 7⟩, ⟨.accepted, some 5⟩]
    let d := Submission.create Label.sampleRequest
    let effects := (executeSubmission (.returning d tests results)).effects
    (adapterCalls effects).map (·.2.2) = tests.take 3 ∧
      (storedAfter d effects).verdict = .runtimeError ∧
      (storedAfter d effects).testsPassed = some 1 ∧
      (storedAfter d effects).totalTests = some 4 ∧
      (storedAfter d effects).runtimeMs = some 12 := by
  intro tests results d effects
  have hok : ∀ i < stopIndex results, ∀ e,
      ¬ Throws (Surroundings.returning d tests results).engine tests i e :=
    fun i _ e ↦ Surroundings.not_throws_returning rfl i e
  obtain ⟨-, hcalls, -, htotal, hpassed, hverdict, hruntime⟩ :=
    (executeSubmission_reference (by decide) (by decide) (Surroundings.returning_answers d tests results)
      (Surroundings.returning_replies rfl)).1 hok
  refine ⟨?_, hverdict, hpassed, htotal, hruntime⟩
  rw [hcalls, List.map_map]
  rfl

/-! ## The steps of an attempt -/

/-- The steps of an attempt that nothing interferes with: each finds what the one before it
left. -/
def Attempt.runAlone (cfg : Config) :
    Attempt → Submission → List (Time × Act) → Option (Attempt × Submission)
  | a, d, [] => some (a, d)
  | a, d, (now, act) :: rest =>
    match a.step cfg now (some d) act with
    | none => none
    | some (a', w) => runAlone cfg a' ((w.map Write.after).getD d) rest

/-- Where an attempt stands once its call of `executeSubmission` has settled. -/
def Settles : Outcome JsError PUnit → Pc → Prop
  | .resolved _, pc => pc = .saved
  | .rejected e, pc => pc = .caught e
  | .pending, _ => False

/-- Steps of the attempt, alone, leave the record that a call leaves, and the attempt where the
call settles. -/
def Attempt.ComesTo (cfg : Config) (a : Attempt) (d : Submission) (call : Async Effect JsError PUnit) :
    Prop :=
  ∃ acts a', a.runAlone cfg d acts = some (a', storedAfter d call.effects) ∧
    Settles call.outcome a'.pc

/-- A call that has nothing left to do has been come to. -/
theorem Attempt.ComesTo.here {cfg : Config} {a : Attempt} {d : Submission}
    {call : Async Effect JsError PUnit} (hs : storedAfter d call.effects = d)
    (h : Settles call.outcome a.pc) : a.ComesTo cfg d call :=
  ⟨[], a, by rw [hs]; rfl, h⟩

/-- A step comes to what is come to after it. -/
theorem Attempt.ComesTo.step {cfg : Config} {a a' : Attempt} {d d' : Submission} {now : Time}
    {act : Act} {w : Option Write} {call call' : Async Effect JsError PUnit}
    (hstep : a.step cfg now (some d) act = some (a', w)) (hd : (w.map Write.after).getD d = d')
    (h : a'.ComesTo cfg d' call') (hout : call.outcome = call'.outcome)
    (hs : storedAfter d call.effects = storedAfter d' call'.effects) : a.ComesTo cfg d call := by
  obtain ⟨acts, b, hrun, hsettles⟩ := h
  refine ⟨(now, act) :: acts, b, ?_, by rw [hout]; exact hsettles⟩
  rw [runAlone, hstep, hs, ← hrun, ← hd]

/-- A step that writes nothing. -/
theorem Attempt.ComesTo.silent {cfg : Config} {a a' : Attempt} {d : Submission} {now : Time}
    {act : Act} {call : Async Effect JsError PUnit}
    (hstep : a.step cfg now (some d) act = some (a', none)) (h : a'.ComesTo cfg d call) :
    a.ComesTo cfg d call := .step hstep rfl h rfl rfl

/-- A step that raises what the call rejects with. -/
theorem Attempt.ComesTo.raise {cfg : Config} {a : Attempt} {d : Submission} {now : Time}
    {act : Act} {e : JsError} (hstep : a.step cfg now (some d) act = some (a.goto (.caught e), none)) :
    a.ComesTo cfg d (.throw e) := .silent hstep (.here rfl rfl)

section

variable {env : Surroundings} {d : Submission} {n : Nat}

/-- The save of a judgement. -/
def saveJudgement (env : Surroundings) (d : Submission) (j : Judgement) : Async Effect JsError PUnit :=
  saveDocument d (d.complete env.completedAt j) env.saveCompleted

/-- How the loop is left, with its effects on the record. -/
def Loop.Describes (env : Surroundings) (d : Submission) (n : Nat) :
    Loop → Async Effect JsError (Option Tally) → Prop
  | .threw e, x => x.outcome = .rejected e ∧ ∀ s, storedAfter s x.effects = s
  | .compilationError passed, x =>
    x.outcome =
        (saveJudgement env d ⟨.compilationError, passed, n, none⟩ >>= fun _ ↦ pure none).outcome ∧
      ∀ s, storedAfter s x.effects =
        storedAfter s (saveJudgement env d ⟨.compilationError, passed, n, none⟩).effects
  | .ended tally, x => x.outcome = .resolved (some tally) ∧ ∀ s, storedAfter s x.effects = s

/-- A call of the adapter in front changes nothing about it. -/
theorem Loop.Describes.call {loop : Loop} {x : Async Effect JsError (Option Tally)}
    (h : loop.Describes env d n x) (tc : TestCase) :
    loop.Describes env d n ⟨d.call tc :: x.effects, x.outcome⟩ := by
  cases loop with
  | threw e => exact h
  | compilationError passed => exact h
  | ended tally => exact h

/-- The loop with its effects is the loop. -/
theorem describes_testLoop (tests : List TestCase) (i : Nat) (t : Tally) :
    (runTests env.engine tests i t).Describes env d n (testLoop env d n tests i t) := by
  induction tests generalizing i t with
  | nil => exact ⟨rfl, fun _ ↦ rfl⟩
  | cons tc rest ih =>
      rw [runTests]
      cases hcall : executeTestCase (env.engine i tc) with
      | error e =>
          rw [testLoop_throws hcall]
          exact ⟨rfl, fun _ ↦ rfl⟩
      | ok r =>
          rw [testLoop, callAdapter_ok hcall, Async.bind_resolved]
          dsimp only
          cases r.verdict with
          | pending | accepted => exact (ih _ _).call tc
          | wrongAnswer =>
              dsimp only
              split
              · exact (ih _ _).call tc
              · exact (ih _ _).call tc
          | compilationError =>
              apply Loop.Describes.call
              refine ⟨rfl, fun s ↦ ?_⟩
              unfold saveJudgement
              cases env.saveCompleted with
              | none => rfl
              | some e => rfl
          | runtimeError | timeLimitExceeded | memoryLimitExceeded | outputLimitExceeded =>
              exact ⟨rfl, fun _ ↦ rfl⟩

/-- The loop calls the adapter as often as `testCalls` counts. -/
theorem length_adapterCalls_testLoop (tests : List TestCase) (i : Nat) (t : Tally) :
    (adapterCalls (testLoop env d n tests i t).effects).length = testCalls env.engine tests i := by
  induction tests generalizing i t with
  | nil => rfl
  | cons tc rest ih =>
      have hcall (es : List Effect) : (adapterCalls (d.call tc :: es)).length =
          1 + (adapterCalls es).length := Nat.add_comm _ _
      rw [testCalls]
      cases hreply : executeTestCase (env.engine i tc) with
      | error e =>
          rw [testLoop_throws hreply]
          rfl
      | ok r =>
          rw [testLoop, callAdapter_ok hreply, Async.bind_resolved]
          dsimp only
          cases r.verdict with
          | pending | accepted => exact (hcall _).trans (congrArg (1 + ·) (ih _ _))
          | wrongAnswer =>
              dsimp only
              split
              · exact (hcall _).trans (congrArg (1 + ·) (ih _ _))
              · exact (hcall _).trans (congrArg (1 + ·) (ih _ _))
          | compilationError =>
              refine (hcall _).trans ?_
              cases env.saveCompleted with
              | none => rfl
              | some e => rfl
          | runtimeError | timeLimitExceeded | memoryLimitExceeded | outputLimitExceeded => rfl

/-- The `try` block comes to the save of what `executeTests` computes. -/
theorem judgeSubmission_executeTests (tests : List TestCase) :
    match executeTests env.engine tests with
    | .error e => (judgeSubmission env d tests).outcome = .rejected e ∧
        ∀ s, storedAfter s (judgeSubmission env d tests).effects = s
    | .ok j => (judgeSubmission env d tests).outcome = (saveJudgement env d j).outcome ∧
        ∀ s, storedAfter s (judgeSubmission env d tests).effects =
          storedAfter s (saveJudgement env d j).effects := by
  have hloop := @describes_testLoop env d tests.length tests 0 ⟨0, 0, .accepted⟩
  unfold judgeSubmission executeTests
  generalize testLoop env d tests.length tests 0 ⟨0, 0, .accepted⟩ = x at hloop ⊢
  obtain ⟨es, outcome⟩ := x
  cases hl : runTests env.engine tests 0 ⟨0, 0, .accepted⟩ with
  | threw e =>
      rw [hl] at hloop
      obtain ⟨rfl, hs⟩ := hloop
      exact ⟨rfl, hs⟩
  | compilationError passed =>
      rw [hl] at hloop
      obtain ⟨rfl, hs⟩ := hloop
      unfold saveJudgement at hs ⊢
      cases hsave : env.saveCompleted with
      | none =>
          rw [hsave] at hs
          refine ⟨rfl, fun s ↦ ?_⟩
          rw [← hs, saveDocument, Async.perform, Async.bind_resolved]
          exact congrArg (storedAfter s) (List.append_nil es)
      | some e =>
          rw [hsave] at hs
          exact ⟨rfl, hs⟩
  | ended tally =>
      rw [hl] at hloop
      obtain ⟨rfl, hs⟩ := hloop
      refine ⟨rfl, fun s ↦ ?_⟩
      rw [Async.bind_resolved, storedAfter, List.foldl_append]
      exact congrArg (fun s ↦ storedAfter s _) (hs s)

/-- An attempt that is about to save comes to the save. -/
theorem Attempt.saves (cfg : Config) {a : Attempt} {f : Finding} (ha : a.pc = .saving d f) :
    a.ComesTo cfg d (saveDocument d (f.enter d) env.saveCompleted) := by
  cases hsave : env.saveCompleted with
  | none =>
      have hstep : a.step cfg 0 (some d) (.save none) =
          some (a.goto .saved, some ⟨.complete, Submission.save d (f.enter d) d⟩) := by
        simp [step, ha, stepSave]
      exact @ComesTo.step _ _ _ _ _ _ _ _ _ (pure ⟨⟩) hstep rfl (.here rfl rfl) rfl rfl
  | some e =>
      have hstep : a.step cfg 0 (some d) (.save (some e)) = some (a.goto (.caught e), none) := by
        simp [step, ha, stepSave]
      exact .raise hstep

/-- An attempt at its test loop comes to the `try` block. -/
theorem Attempt.judges (cfg : Config) {a : Attempt} {s : RunningDoc} {ts : TestCases}
    (ha : a.pc = .testing s ts) : a.ComesTo cfg s.doc (judgeSubmission env s.doc ts.1) := by
  have hcall := @judgeSubmission_executeTests env s.doc ts.1
  cases he : executeTests env.engine ts.1 with
  | error e =>
      rw [he] at hcall
      have hstep : a.step cfg env.completedAt (some s.doc) (.runTests env.engine) =
          some (a.goto (.caught e), none) := by
        simp [step, ha, stepRunTests, he]
      exact @ComesTo.step _ _ _ _ _ _ _ _ _ (.throw e) hstep rfl (.here rfl rfl) hcall.1 (hcall.2 _)
  | ok j =>
      rw [he] at hcall
      have hstep : a.step cfg env.completedAt (some s.doc) (.runTests env.engine) =
          some ({ a with pc := .saving s.doc (.judged j env.completedAt), judgement := some j },
            none) := by
        simp [step, ha, stepRunTests, he]
      exact .step hstep rfl (saves cfg rfl) hcall.1 (hcall.2 _)

/-- An attempt that has found test cases comes to the rest of `executeSubmission`. -/
theorem Attempt.starts (cfg : Config) {a : Attempt} {tests : List TestCase} (hne : tests ≠ [])
    (ha : a.pc = .loaded d) (hfind : env.findTestCases = .ok tests) :
    a.ComesTo cfg d (if d.status = .running then judgeSubmission env d tests
      else do
        saveDocument d (d.rerun env.startedAt) env.saveRunning
        judgeSubmission env (d.rerun env.startedAt) tests) := by
  by_cases hs : d.status = .running
  · rw [if_pos hs]
    have hstep : a.step cfg env.startedAt (some d) (.findTestCases env.findTestCases) =
        some (a.goto (.testing ⟨d, hs⟩ ⟨tests, hne⟩), none) := by
      simp [step, ha, stepFindTestCases, hfind, hne, hs]
    exact .silent hstep (@judges env cfg _ ⟨d, hs⟩ ⟨tests, hne⟩ rfl)
  · rw [if_neg hs]
    have hstep : a.step cfg env.startedAt (some d) (.findTestCases env.findTestCases) =
        some (a.goto (.rerunning d env.startedAt ⟨tests, hne⟩), none) := by
      simp [step, ha, stepFindTestCases, hfind, hne, hs]
    apply ComesTo.silent hstep
    cases hsave : env.saveRunning with
    | none =>
        have hrerun : (a.goto (.rerunning d env.startedAt ⟨tests, hne⟩)).step cfg 0 (some d)
            (.rerun none) = some ((a.goto (.rerunning d env.startedAt ⟨tests, hne⟩)).goto
              (.testing ⟨d.rerun env.startedAt, rfl⟩ ⟨tests, hne⟩),
                some ⟨.rerun, Submission.save d (d.rerun env.startedAt) d⟩) := by
          simp [step, stepSave]
        refine .step hrerun (Submission.save_loaded _ _)
          (@judges env cfg _ ⟨d.rerun env.startedAt, rfl⟩ ⟨tests, hne⟩ rfl) rfl ?_
        change storedAfter (Submission.save d (d.rerun env.startedAt) d) _ = _
        rw [Submission.save_loaded]
        rfl
    | some e =>
        have hrerun : (a.goto (.rerunning d env.startedAt ⟨tests, hne⟩)).step cfg 0 (some d)
            (.rerun (some e)) = some ((a.goto (.rerunning d env.startedAt ⟨tests, hne⟩)).goto
              (.caught e), none) := by
          simp [step, stepSave]
        exact .raise hrerun

/-- **The steps of an attempt are `executeSubmission`.** -/
theorem Attempt.executes (cfg : Config) {a : Attempt} (ha : a.pc = .claimed)
    (hfind : env.findById = .ok (some d)) : a.ComesTo cfg d (executeSubmission env) := by
  unfold executeSubmission
  rw [hfind, Outcome.ofExcept_ok, Async.lift_resolved_bind]
  by_cases hlang : d.language ∈ supportedLanguages
  · have hload : a.step cfg 0 (some d) (.load none) = some (a.goto (.loaded d), none) := by
      simp [step, ha, stepLoad, hlang]
    dsimp only
    rw [if_pos hlang]
    apply ComesTo.silent hload
    cases htests : env.findTestCases with
    | error e =>
        have hstep : (a.goto (.loaded d)).step cfg 0 (some d) (.findTestCases (.error e)) =
            some ((a.goto (.loaded d)).goto (.caught e), none) := by
          simp [step, stepFindTestCases]
        exact .raise hstep
    | ok tests =>
        rw [Outcome.ofExcept_ok, Async.lift_resolved_bind]
        by_cases hne : tests = []
        · have hstep : (a.goto (.loaded d)).step cfg 0 (some d) (.findTestCases (.ok tests)) =
              some ((a.goto (.loaded d)).goto (.caught problemNotReady), none) := by
            simp [step, stepFindTestCases, hne]
          rw [if_pos hne]
          exact .raise hstep
        · rw [if_neg hne]
          exact starts cfg hne rfl htests
  · have hload : a.step cfg 0 (some d) (.load none) =
        some (a.goto (.saving d .unsupportedLanguage), none) := by
      simp [step, ha, stepLoad, hlang]
    dsimp only
    rw [if_neg hlang]
    exact .silent hload (@saves env d cfg _ .unsupportedLanguage rfl)

end

end CodeArena.Submissions
