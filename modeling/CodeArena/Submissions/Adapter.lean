import CodeArena.Engine.Container
import CodeArena.Submissions.System

/-!
# The execution adapter

The boundary between the backend and the execution engine: what `executeTestCase` calls
the engine with, and what becomes of the engine's results and errors.  Here the calls of
`Engine.execute` meet the test loop of `executeSubmission`.

The loop throws what the adapter throws, and takes everything else for a verdict.  A
container that does not start is a verdict to the engine, so it is one to the loop as
well, at whatever position (`container_failure_completes`).
-/

namespace CodeArena.Submissions

open CodeArena.Lib CodeArena.Lib.Utf

/-- What the adapter calls the engine with. -/
def engineRequest (language : String) (sourceCode : JsString) (tc : TestCase) :
    Engine.RawRequest where
  language := .string (js language)
  sourceCode := .string sourceCode
  testCase := some ⟨.string tc.input, .string tc.expectedOutput⟩

/-- What the loop calls the engine with on a test case. -/
def RunningDoc.engineRequest (submission : RunningDoc) (tc : TestCase) : Engine.RawRequest :=
  Submissions.engineRequest submission.doc.language submission.doc.sourceCode tc

/-- An error of the engine as the adapter inspects it. -/
def engineError (e : Engine.EngineError) : JsError :=
  ⟨e.name, .ofList (utf16Decode e.message), none, e.errorCode, false⟩

/-- A call of the engine as the adapter finds it, once it has settled. -/
def reply : Outcome Engine.EngineError Engine.ExecutionResult → Option EngineReply
  | .pending => none
  | .rejected e => some (some (.error (engineError e)))
  | .resolved result => some (some (.ok ⟨result.verdict, result.runtimeMs⟩))

/-- The verdict that a submission is completed with where the loop stops. -/
def stoppedVerdict : Engine.Verdict → Verdict
  | .compilationError => .compilationError
  | .timeLimitExceeded => .timeLimitExceeded
  | .memoryLimitExceeded => .memoryLimitExceeded
  | _ => .runtimeError

/-! ## Where the loop stops -/

section

variable {engine : Nat → TestCase → EngineReply} {tc : TestCase} {result : ExecResult}

/-- A test at which the loop stops decides how it is left. -/
theorem runTests_stops {rest : List TestCase} {n : Nat} {tally : Tally}
    (h : engine n tc = some (.ok result)) (hstops : result.verdict.stops = true) :
    (result.verdict = .compilationError ∧
      runTests engine (tc :: rest) n tally = .compilationError tally.testsPassed) ∨
    (result.verdict ≠ .compilationError ∧ ∃ ms, runTests engine (tc :: rest) n tally =
      .ended ⟨tally.testsPassed, ms, stoppedVerdict result.verdict⟩) := by
  rw [runTests, h]
  cases hv : result.verdict with
  | compilationError => exact .inl ⟨rfl, by simp [executeTestCase, hv]⟩
  | runtimeError | timeLimitExceeded | memoryLimitExceeded | outputLimitExceeded =>
      exact .inr ⟨by rintro ⟨⟩, _, by simp [executeTestCase, hv, stoppedVerdict]; rfl⟩
  | pending | accepted | wrongAnswer => rw [hv] at hstops; cases hstops

/-- A test at which the loop does not stop leads on to the next one. -/
theorem runTests_continues {rest : List TestCase} {n : Nat} {tally : Tally}
    (h : engine n tc = some (.ok result)) (hgoes : result.verdict.stops = false) :
    ∃ tally', runTests engine (tc :: rest) n tally = runTests engine rest (n + 1) tally' := by
  rw [runTests, h]
  cases hv : result.verdict with
  | accepted => exact ⟨_, by simp [executeTestCase, hv]; rfl⟩
  | pending => exact ⟨_, by simp [executeTestCase, hv]; rfl⟩
  | wrongAnswer =>
      simp only [executeTestCase, hv]
      split
      · exact ⟨_, rfl⟩
      · exact ⟨_, rfl⟩
  | compilationError | runtimeError | timeLimitExceeded | memoryLimitExceeded
  | outputLimitExceeded => rw [hv] at hgoes; cases hgoes

/-- **The first test at which the loop stops decides the verdict**, whatever the tests
before it and after it are. -/
theorem runTests_of_stop {tests : List TestCase} {k : Nat} (n : Nat) (tally : Tally)
    (hbefore : ∀ i < k, ∀ t, tests[i]? = some t →
      ∃ r : ExecResult, engine (n + i) t = some (.ok r) ∧ r.verdict.stops = false)
    (hk : tests[k]? = some tc) (h : engine (n + k) tc = some (.ok result))
    (hstops : result.verdict.stops = true) :
    (result.verdict = .compilationError ∧ ∃ passed, runTests engine tests n tally =
      .compilationError passed) ∨
    (result.verdict ≠ .compilationError ∧ ∃ passed ms, runTests engine tests n tally =
      .ended ⟨passed, ms, stoppedVerdict result.verdict⟩) := by
  induction tests generalizing k n tally with
  | nil => cases hk
  | cons t rest ih =>
      cases k with
      | zero =>
          obtain rfl : t = tc := Option.some.inj hk
          exact (runTests_stops h hstops).imp (fun h ↦ ⟨h.1, _, h.2⟩) fun h ↦ ⟨h.1, _, h.2⟩
      | succ k =>
          obtain ⟨r, hr, hgoes⟩ := hbefore 0 (Nat.zero_lt_succ k) t rfl
          obtain ⟨tally', heq⟩ := @runTests_continues engine t r rest n tally hr hgoes
          rw [heq]
          have hshift : ∀ i, n + (i + 1) = n + 1 + i := fun i ↦ by omega
          apply ih (k := k)
          · intro i hi t ht
            rw [← hshift]
            exact hbefore (i + 1) (Nat.succ_lt_succ hi) t ht
          · exact hk
          · rw [← hshift]
            exact h

/-- The tuple that is stored then has the verdict of that test. -/
theorem executeTests_of_stop {tests : List TestCase} {k : Nat}
    (hbefore : ∀ i < k, ∀ t, tests[i]? = some t →
      ∃ r : ExecResult, engine i t = some (.ok r) ∧ r.verdict.stops = false)
    (hk : tests[k]? = some tc) (h : engine k tc = some (.ok result))
    (hstops : result.verdict.stops = true) :
    ∃ j, executeTests engine tests = .ok j ∧ j.verdict = stoppedVerdict result.verdict := by
  have hshift : ∀ i, 0 + i = i := Nat.zero_add
  rcases runTests_of_stop (k := k) 0 ⟨0, 0, .accepted⟩ (by simpa only [hshift] using hbefore) hk
    (by simpa only [hshift] using h) hstops with ⟨hv, passed, hloop⟩ | ⟨hv, passed, ms, hloop⟩
  · exact ⟨⟨.compilationError, passed, tests.length, none⟩, by simp [executeTests, hloop],
      by rw [hv]; rfl⟩
  · refine ⟨conclude tests.length ⟨passed, ms, stoppedVerdict result.verdict⟩,
      by simp [executeTests, hloop], ?_⟩
    cases hr : result.verdict with
    | pending | accepted | wrongAnswer => rw [hr] at hstops; cases hstops
    | compilationError => exact absurd hr hv
    | runtimeError | timeLimitExceeded | memoryLimitExceeded | outputLimitExceeded =>
        simp [conclude, stoppedVerdict]

end

/-! ## The exit on a compilation error -/

/-- A call of the engine that the test loop makes reports COMPILATION_ERROR; the loop is
about to make call `n`. -/
def reportsCompilationError (engine : Nat → TestCase → EngineReply) : List TestCase → Nat → Bool
  | [], _ => false
  | tc :: rest, n =>
    match engine n tc with
    | some (.ok result) => result.verdict = .compilationError ||
        (!result.verdict.stops && reportsCompilationError engine rest (n + 1))
    | _ => false

/-- How the loop is left, where such a report is or is not made. -/
def Loop.Reported (reported : Bool) : Loop → Prop
  | .threw _ => reported = false
  | .compilationError _ => reported = true
  | .ended tally => reported = false ∧ tally.finalVerdict ≠ .compilationError

theorem executeTestCase_error {reply : EngineReply} {e : JsError}
    (h : executeTestCase reply = .error e) : ∀ result, reply ≠ some (.ok result) := by
  rintro result rfl
  cases h

theorem executeTestCase_ok {reply : EngineReply} {result : ExecResult}
    (h : executeTestCase reply = .ok result) : reply = some (.ok result) := by
  unfold executeTestCase at h
  split at h
  case h_1 => cases h
  case h_2 => cases h; rfl
  case h_3 => split at h <;> cases h

theorem runTests_reported (engine : Nat → TestCase → EngineReply) (tests : List TestCase) :
    ∀ (n : Nat) (t : Tally), t.finalVerdict ≠ .compilationError →
      (runTests engine tests n t).Reported (reportsCompilationError engine tests n) := by
  induction tests with
  | nil => exact fun n t ht ↦ ⟨rfl, ht⟩
  | cons tc rest ih =>
      intro n t ht
      rw [runTests, reportsCompilationError]
      cases hcall : executeTestCase (engine n tc) with
      | error e =>
          have hne := executeTestCase_error hcall
          split
          · exact absurd ‹_› (hne _)
          · rfl
      | ok result =>
          rw [executeTestCase_ok hcall]
          dsimp only
          cases hv : result.verdict with
          | compilationError => rfl
          | pending | accepted => exact ih _ _ ht
          | wrongAnswer =>
              dsimp only
              split
              · exact ih _ _ ht
              · exact ih _ _ Verdict.noConfusion
          | runtimeError | timeLimitExceeded | memoryLimitExceeded | outputLimitExceeded =>
              exact ⟨rfl, Verdict.noConfusion⟩

/-- The loop throws only where no such report is made. -/
theorem reports_of_error {engine : Nat → TestCase → EngineReply} {tests : List TestCase}
    {e : JsError} (h : executeTests engine tests = .error e) :
    reportsCompilationError engine tests 0 = false := by
  have hloop := runTests_reported engine tests 0 ⟨0, 0, .accepted⟩ (by decide)
  unfold executeTests at h
  split at h
  case h_1 heq => rw [heq] at hloop; exact hloop
  all_goals cases h

/-- **The verdict is COMPILATION_ERROR exactly if such a report is made.** -/
theorem verdict_eq_compilationError_iff {engine : Nat → TestCase → EngineReply}
    {tests : List TestCase} {j : Judgement} (h : executeTests engine tests = .ok j) :
    j.verdict = .compilationError ↔ reportsCompilationError engine tests 0 = true := by
  have hloop := runTests_reported engine tests 0 ⟨0, 0, .accepted⟩ (by decide)
  unfold executeTests at h
  split at h
  case h_1 => cases h
  case h_2 heq =>
    cases h
    rw [heq] at hloop
    exact iff_of_true rfl hloop
  case h_3 tally heq =>
    cases h
    rw [heq] at hloop
    obtain ⟨hfalse, hne⟩ := hloop
    refine iff_of_false ?_ (by rw [hfalse]; decide)
    unfold conclude
    dsimp only
    split
    · decide
    split
    · decide
    exact hne

/-! ## Containers that do not start -/

/-- The attempt, about to run its tests on what it loaded, completes the submission: it
stores COMPLETED, under this verdict where the record has the verdict that was loaded, and
the handler returns. -/
def Attempt.Completes (a : Attempt) (loaded : Submission) (engine : Nat → TestCase → EngineReply)
    (verdict : Verdict) : Prop :=
  ∀ (cfg : Config) (t₁ t₂ t₃ : Time) (d₁ d₂ d₃ : Submission), ∃ a₁ a₂ a₃ after stamped,
    a.step cfg t₁ (some d₁) (.runTests engine) = some (a₁, none) ∧
    a₁.step cfg t₂ (some d₂) (.save none) = some (a₂, some ⟨.complete, after⟩) ∧
    after.status = .completed ∧ (d₂.verdict = loaded.verdict → after.verdict = verdict) ∧
    a₂.step cfg t₃ (some d₃) (.stampCompleted none) = some (a₃, stamped) ∧
    a₃.pc = .returned .completed

/-- An attempt whose tests come to a tuple completes the submission with it. -/
theorem Attempt.completes_of_judged {a : Attempt} {submission : RunningDoc} {tests : TestCases}
    {engine : Nat → TestCase → EngineReply} {j : Judgement} (ha : a.pc = .testing submission tests)
    (hj : executeTests engine tests.1 = .ok j) : a.Completes submission.doc engine j.verdict := by
  intro cfg t₁ t₂ t₃ d₁ d₂ d₃
  let judged : Attempt :=
    { a with pc := .saving submission.doc (.judged j t₁), judgement := some j }
  refine ⟨judged, judged.goto .saved, judged.goto (.returned .completed),
    .save submission.doc (submission.doc.complete t₁ j) d₂, _, ?_, rfl, ?_, ?_, rfl, rfl⟩
  · simp [step, ha, stepRunTests, hj, judged]
  · simp [Submission.save, Submission.complete, Submission.changed, submission.running]
  · intro hd
    simp [Submission.save, Submission.complete, hd]

/-- **A container that does not start completes the submission.**  At whatever test the
loop has got to, and on the compile step as well as on the run step: the engine comes to a
verdict, and the attempt stores it as that of the submission and returns. -/
theorem container_failure_completes {hosts : Nat → Engine.Host}
    {engine : Nat → TestCase → EngineReply} {a : Attempt} {submission : RunningDoc}
    {tests : TestCases} {k : Nat} {tc : TestCase} (ha : a.pc = .testing submission tests)
    (hmode : (hosts k).isLocalMode = false)
    (hengine : ∀ i ≤ k, ∀ t, tests.1[i]? = some t →
      reply (Engine.execute (hosts i) (some (submission.engineRequest t))).outcome =
        some (engine i t))
    (hbefore : ∀ i < k, ∀ t, tests.1[i]? = some t → ∃ result,
      (Engine.execute (hosts i) (some (submission.engineRequest t))).outcome =
        .resolved result ∧ result.verdict.stops = false)
    (hk : tests.1[k]? = some tc)
    (hfails : Engine.ContainerFails (hosts k) (some (submission.engineRequest tc))) :
    ∃ result, (Engine.execute (hosts k) (some (submission.engineRequest tc))).outcome =
        .resolved result ∧
      a.Completes submission.doc engine (stoppedVerdict result.verdict) := by
  obtain ⟨result, hresult, hstops⟩ := hfails.judged hmode
  have hreply : ∀ i ≤ k, ∀ t, tests.1[i]? = some t → ∀ r,
      (Engine.execute (hosts i) (some (submission.engineRequest t))).outcome = .resolved r →
        engine i t = some (.ok ⟨r.verdict, r.runtimeMs⟩) := by
    intro i hi t ht r hr
    have h := hengine i hi t ht
    rw [hr] at h
    exact (Option.some.inj h).symm
  have hat := hreply k (Nat.le_refl k) tc hk result hresult
  obtain ⟨j, hj, hv⟩ := executeTests_of_stop (k := k)
    (fun i hi t ht ↦
      have ⟨r, hr, hgoes⟩ := hbefore i hi t ht
      ⟨_, hreply i (Nat.le_of_lt hi) t ht r hr, hgoes⟩)
    hk hat hstops
  refine ⟨result, hresult, ?_⟩
  rw [← hv]
  exact Attempt.completes_of_judged ha hj

/-- A host on which no container starts. -/
def failingHost : Engine.Host :=
  .sample false fun _ ↦ ⟨true, .spawned
    [.stderr (Engine.bytes "docker: Error response from daemon: failed to create task")]
    (.close ⟨some 125, none, 5⟩)⟩

/-- The document that an attempt at the sample submission works on. -/
def RunningDoc.sample : RunningDoc :=
  ⟨{ Submission.create Label.sampleRequest with status := .running }, rfl⟩

theorem failingHost_outcome :
    reply (Engine.execute failingHost
      (some (RunningDoc.sample.engineRequest Label.sampleTest))).outcome =
        some (some (.ok ⟨.runtimeError, some 5⟩)) := by
  decide +kernel

/-- On such a host a program that needs no compiler does not start. -/
theorem failingHost_fails : Engine.ContainerFails failingHost
    (some (RunningDoc.sample.engineRequest Label.sampleTest)) := by
  have hr := failingHost_outcome
  cases h : (Engine.execute failingHost
      (some (RunningDoc.sample.engineRequest Label.sampleTest))).outcome with
  | pending | rejected e => rw [h] at hr; cases hr
  | resolved result =>
      rw [h] at hr
      have hv : result.verdict = .runtimeError := congrArg ExecResult.verdict
        (Except.ok.inj (Option.some.inj (Option.some.inj hr)))
      obtain ⟨_, _, _, hp⟩ := Engine.prepared_of_judged h (by rw [hv]; decide)
      exact .running hp rfl ⟨_, _, rfl, rfl, rfl⟩

/-- A host on which the program ends and writes nothing. -/
def workingHost : Engine.Host :=
  .sample false fun _ ↦ ⟨true, .spawned [] (.close ⟨some 0, none, 5⟩)⟩

theorem workingHost_outcome : (Engine.execute workingHost
      (some (RunningDoc.sample.engineRequest Label.sampleTest))).outcome =
    .resolved ⟨.accepted, [], [], some 5, []⟩ := by
  decide +kernel

/-- A submission with two test cases, in a language that is not compiled: the container of the
second one does not start. -/
theorem container_failure_completes_second : ∃ result,
    (Engine.execute failingHost
      (some (RunningDoc.sample.engineRequest Label.sampleTest))).outcome = .resolved result ∧
      Attempt.Completes
        ⟨⟨"a", true, none⟩, .testing .sample ⟨[Label.sampleTest, Label.sampleTest], by decide⟩,
          none, none⟩
        RunningDoc.sample.doc
        (fun i _ ↦ some (.ok ⟨if i = 0 then .accepted else .runtimeError, some 5⟩))
        (stoppedVerdict result.verdict) := by
  refine @container_failure_completes (fun i ↦ if i = 0 then workingHost else failingHost)
    _ _ _ _ 1 _ rfl rfl ?_ ?_ rfl failingHost_fails
  · intro i hi t ht
    cases i with
    | zero =>
        obtain rfl : Label.sampleTest = t := Option.some.inj ht
        exact congrArg reply workingHost_outcome
    | succ i =>
        obtain rfl : i = 0 := Nat.le_zero.mp (Nat.le_of_succ_le_succ hi)
        obtain rfl : Label.sampleTest = t := Option.some.inj ht
        exact failingHost_outcome
  · intro i hi t ht
    obtain rfl : i = 0 := Nat.lt_one_iff.mp hi
    obtain rfl : Label.sampleTest = t := Option.some.inj ht
    exact ⟨_, workingHost_outcome, rfl⟩

/-- **A container that does not start becomes RUNTIME_ERROR.**  The submission is delivered
once, its container does not start, and the record shows a verdict. -/
theorem container_failure_is_verdict :
    Engine.ContainerFails failingHost (some (RunningDoc.sample.engineRequest Label.sampleTest)) ∧
    reply (Engine.execute failingHost
      (some (RunningDoc.sample.engineRequest Label.sampleTest))).outcome =
        some (some (.ok ⟨.runtimeError, some 5⟩)) ∧
    ∃ s, (system ⟨30000, 3⟩).Run Reliable State.init
        (Label.submit ++ [.deliver 0 "a"] ++ Label.claims 0 ++ Label.loads 0 ++
          Label.tests 0 .runtimeError ++ [.attempt 0 (.save none)]) s ∧
      (s.submission.any fun d ↦ d.status = .completed ∧ d.verdict = .runtimeError) = true :=
  ⟨failingHost_fails, failingHost_outcome,
    (system ⟨30000, 3⟩).exists_run_of_exec Reliable State.init _ _ (by decide)⟩

end CodeArena.Submissions
