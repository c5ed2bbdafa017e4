import CodeArena.Engine.Execute

/-!
# Output is judged only after a clean run

`CleanRun` is what a run has to be for its output to count: the program left with exit
code zero and without a signal, the timer did not fire, and the two streams stayed below
the limit all along.  Both runners report `success` for clean runs only, the one in the
sandbox under one condition more.

The flags are set by handlers that run in any order, but what they say at the end does
not depend on that order: it is a fact about the events (`capture_isTimedOut`,
`capture_isOutputLimit`).
-/

namespace CodeArena.Engine

open CodeArena.Lib CodeArena.Lib.Utf

/-- A run whose output counts. -/
structure CleanRun (activity : List Activity) (close : Close) : Prop where
  code : close.code = some 0
  signal : close.signal = none
  not_timedOut : .timer ∉ activity
  below : (stdoutText activity).length + (stderrText activity).length < maxOutputBytes

variable {activity : List Activity} {close : Close} {workspaceDir : JsString}

/-! ## Success -/

theorem cleanRun_iff : CleanRun activity close ↔
    close.code = some 0 ∧ close.signal = none ∧ (capture activity).isTimedOut = false ∧
      (capture activity).isOutputLimit = false := by
  have ht := capture_isTimedOut activity
  have ho := capture_isOutputLimit activity
  constructor
  · rintro ⟨hc, hs, htimer, hbelow⟩
    exact ⟨hc, hs, Bool.eq_false_iff.mpr fun h ↦ htimer (ht.mp h),
      Bool.eq_false_iff.mpr fun h ↦ Nat.not_le.mpr hbelow (ho.mp h)⟩
  · rintro ⟨hc, hs, htimer, hbelow⟩
    refine ⟨hc, hs, fun h ↦ ?_, Nat.lt_of_not_le fun h ↦ ?_⟩
    · rw [ht.mpr h] at htimer
      cases htimer
    · rw [ho.mpr h] at hbelow
      cases hbelow

/-- On the host a run succeeds when it is clean. -/
theorem closeProcess_success :
    (closeProcess workspaceDir (capture activity) close).success = true ↔
      CleanRun activity close := by
  simp [closeProcess, cleanRun_iff, and_assoc]

/-- In the sandbox a run succeeds when it is clean and stderr has none of the texts that
stand for a lack of memory. -/
theorem closeSandbox_success :
    (closeSandbox workspaceDir (capture activity) close).success = true ↔
      CleanRun activity close ∧
        hasOomMarker (report workspaceDir (stderrText activity)) = false := by
  rw [cleanRun_iff]
  simp only [closeSandbox, capture_stderrData, Bool.and_eq_true, decide_eq_true_eq,
    Bool.not_eq_true', Bool.or_eq_false_iff]
  constructor
  · rintro ⟨⟨⟨⟨hc, hs⟩, ht⟩, ho⟩, -, hm⟩
    exact ⟨⟨hc, hs, ht, ho⟩, hm⟩
  · rintro ⟨⟨hc, hs, ht, ho⟩, hm⟩
    refine ⟨⟨⟨⟨hc, hs⟩, ht⟩, ho⟩, ?_, hm⟩
    simp [hc]

/-- The `'close'` handler of the mode's runner. -/
def closeRun (isLocalMode : Bool) : JsString → Captured → Close → RunResult :=
  if isLocalMode then closeProcess else closeSandbox

theorem closeRun_stdout (isLocalMode : Bool) (c : Captured) :
    (closeRun isLocalMode workspaceDir c close).stdout = report workspaceDir c.stdoutData := by
  cases isLocalMode <;> rfl

/-- In either mode a run that succeeds is clean. -/
theorem cleanRun_of_success {isLocalMode : Bool}
    (h : (closeRun isLocalMode workspaceDir (capture activity) close).success = true) :
    CleanRun activity close := by
  cases isLocalMode with
  | true => exact closeProcess_success.mp h
  | false => exact (closeSandbox_success.mp h).1

/-- A run in either mode resolves when its child closes. -/
theorem run_eq_resolved {host : Host} {invocation : Invocation} {r : RunResult} :
    (run host invocation).outcome = .resolved r ↔
      (host.isLocalMode = true ∨ (host.program invocation).dockerAvailable = true) ∧
        ∃ activity close, (host.program invocation).child = .spawned activity (.close close) ∧
          r = closeRun host.isLocalMode invocation.workspaceDir (capture activity) close := by
  unfold run closeRun
  cases host.isLocalMode with
  | true => simpa using runProcess_eq_resolved
  | false => simpa using runInDockerSandbox_eq_resolved

/-- The mode's runner finds what it needs, and its child closes after `activity`. -/
structure Runs (host : Host) (invocation : Invocation) (activity : List Activity)
    (close : Close) : Prop where
  available : host.isLocalMode = true ∨ (host.program invocation).dockerAvailable = true
  child : (host.program invocation).child = .spawned activity (.close close)

theorem Runs.outcome_run {host : Host} {invocation : Invocation}
    (h : Runs host invocation activity close) :
    (run host invocation).outcome = .resolved
      (closeRun host.isLocalMode invocation.workspaceDir (capture activity) close) :=
  run_eq_resolved.mpr ⟨h.available, activity, close, h.child, rfl⟩

/-- A prepared call whose program runs comes out as the verdict on the run. -/
theorem Prepared.outcome_of_runs {host : Host} {raw : Option RawRequest}
    {request : ExecutionRequest} {config : LanguageConfig} {dir : Path}
    (hp : Prepared host raw request config dir)
    (h : Runs host (runInvocation dir config request) activity close) :
    (execute host raw).outcome = .resolved
      (judge (closeRun host.isLocalMode dir.render (capture activity) close)
        request.expectedOutput) :=
  hp.outcome_execute.trans (runAndJudge_eq_resolved.mpr ⟨_, h.outcome_run, rfl⟩)

/-- A stream of a clean run is kept whole. -/
theorem CleanRun.truncate_stdoutText (h : CleanRun activity close) :
    truncate (stdoutText activity) = stdoutText activity :=
  truncate_of_le (Nat.le_trans (Nat.le_add_right _ _) (Nat.le_of_lt h.below))

/-- A stream of a clean run is kept whole. -/
theorem CleanRun.truncate_stderrText (h : CleanRun activity close) :
    truncate (stderrText activity) = stderrText activity :=
  truncate_of_le (Nat.le_trans (Nat.le_add_left _ _) (Nat.le_of_lt h.below))

/-- A clean run is below the limit at every moment. -/
theorem CleanRun.below_of_prefix (h : CleanRun activity close) {before : List Activity}
    (hb : before <+: activity) :
    (stdoutText before).length + (stderrText before).length < maxOutputBytes := by
  obtain ⟨after, rfl⟩ := hb
  have hbelow := h.below
  simp only [stdoutText_append, stderrText_append, List.length_append] at hbelow
  omega

/-! ## Judging -/

/-- A compile step that succeeded: the compiler left with exit code zero, before the timer
fired. -/
theorem compile_success {host : Host} {invocation : Invocation} {r : CompileResult}
    (h : (compile host invocation).outcome = .resolved r) (hs : r.success = true) :
    ∃ activity close, (host.compiler invocation).child = .spawned activity (.close close) ∧
      close.code = some 0 ∧ .timer ∉ activity := by
  unfold compile at h
  split at h
  · obtain ⟨activity, close, hchild, rfl⟩ := Handlers.outcome_eq_resolved.mp h
    obtain ⟨ht, hc⟩ := closeCompiler_success.mp hs
    rw [compilerHandlers, foldl_compiler_isTimedOut] at ht
    exact ⟨activity, close, hchild, hc, by simpa using ht⟩
  · obtain ⟨docker, hd, h⟩ := Async.bind_outcome_eq_resolved.mp h
    obtain ⟨-, activity, close, hchild, rfl⟩ := runInDockerSandbox_eq_resolved.mp hd
    cases h
    have hclean := (closeSandbox_success.mp hs).1
    exact ⟨activity, close, hchild, hclean.code, hclean.not_timedOut⟩

/-- ACCEPTED and WRONG_ANSWER are the verdicts on output, and only a run that succeeded
comes to one of them. -/
theorem judge_of_judged {r : RunResult} {expected : JsString}
    (h : (judge r expected).verdict = .accepted ∨ (judge r expected).verdict = .wrongAnswer) :
    r.success = true ∧
      (judge r expected).verdict = (evaluateOutput r.stdout expected).verdict := by
  unfold judge at h ⊢
  dsimp only at h ⊢
  split at h
  · simp at h
  split at h
  · simp at h
  split at h
  · simp at h
  split at h
  · simp at h
  · rename_i h₁ h₂ h₃ h₄
    rw [if_neg h₁, if_neg h₂, if_neg h₃, if_neg h₄]
    exact ⟨by simpa using h₄, rfl⟩

/-- A verdict on output is ACCEPTED exactly when the normalized outputs are equal. -/
theorem judge_accepted_iff {r : RunResult} {expected : JsString}
    (h : (judge r expected).verdict = .accepted ∨ (judge r expected).verdict = .wrongAnswer) :
    (judge r expected).verdict = .accepted ↔
      normalizeOutput r.stdout = normalizeOutput expected := by
  rw [(judge_of_judged h).2, evaluateOutput_verdict]
  split
  · rename_i heq
    exact iff_of_true rfl heq
  · rename_i hne
    exact iff_of_false Verdict.noConfusion hne

/-- What stands behind a verdict on output: the source was compiled, where its language is
compiled, by a compiler that left with exit code zero before its timer fired; the program
left with exit code zero and without a signal before its timer fired, its two streams
below the limit at every moment and neither of them cut; and ACCEPTED is the verdict
exactly when the whole of stdout, sanitized and normalized, is the expected output
normalized. -/
structure CleanlyJudged (host : Host) (raw : Option RawRequest) (result : ExecutionResult)
    (request : ExecutionRequest) (config : LanguageConfig) (dir : Path)
    (activity : List Activity) (close : Close) : Prop where
  prepared : Prepared host raw request config dir
  compiled : ∀ c, config.compilation = some c → ∃ activity close,
    (host.compiler (compileInvocation dir c)).child = .spawned activity (.close close) ∧
      close.code = some 0 ∧ .timer ∉ activity
  ran : (host.program (runInvocation dir config request)).child =
    .spawned activity (.close close)
  code : close.code = some 0
  signal : close.signal = none
  not_timedOut : .timer ∉ activity
  below : ∀ before, before <+: activity →
    (stdoutText before).length + (stderrText before).length < maxOutputBytes
  stdout_whole : truncate (stdoutText activity) = stdoutText activity
  stderr_whole : truncate (stderrText activity) = stderrText activity
  accepted_iff : result.verdict = .accepted ↔
    normalizeOutput (sanitizeOutput (stdoutText activity) dir.render) =
      normalizeOutput request.expectedOutput

/-- **Output is judged only after a clean, complete run**, in either mode. -/
theorem judged_after_clean_run {host : Host} {raw : Option RawRequest}
    {result : ExecutionResult} (h : (execute host raw).outcome = .resolved result)
    (hv : result.verdict = .accepted ∨ result.verdict = .wrongAnswer) :
    ∃ request config dir activity close,
      CleanlyJudged host raw result request config dir activity close := by
  have hne : result.verdict ≠ .compilationError := by
    cases hv with
    | inl ha => rw [ha]; exact Verdict.noConfusion
    | inr hw => rw [hw]; exact Verdict.noConfusion
  obtain ⟨request, config, dir, hp⟩ := prepared_of_judged h hne
  rw [hp.outcome_execute] at h
  obtain ⟨r, hr, rfl⟩ := runAndJudge_eq_resolved.mp h
  obtain ⟨-, activity, close, hchild, rfl⟩ := run_eq_resolved.mp hr
  have hclean := cleanRun_of_success (judge_of_judged hv).1
  have hiff := judge_accepted_iff hv
  rw [closeRun_stdout, capture_stdoutData, report, hclean.truncate_stdoutText] at hiff
  exact ⟨request, config, dir, activity, close,
    { prepared := hp
      compiled := fun c hc ↦
        have ⟨_, hr, hs⟩ := hp.compiled c hc
        compile_success hr hs
      ran := hchild
      code := hclean.code
      signal := hclean.signal
      not_timedOut := hclean.not_timedOut
      below := fun _ hb ↦ hclean.below_of_prefix hb
      stdout_whole := hclean.truncate_stdoutText
      stderr_whole := hclean.truncate_stderrText
      accepted_iff := hiff }⟩

/-- A compiled program, judged in the sandbox: it writes in two chunks, with a warning on
stderr in between. -/
theorem judged_after_clean_run_accepted :
    ∃ request config dir activity close, CleanlyJudged
      (.sample false (exits
        [.stdout (bytes "3 "), .stderr (bytes "slow"), .stdout (bytes "4\r\n")]))
      (some (.sample .cpp (js "3 4")))
      ⟨.accepted, js "3 4\r\n", js "slow", some 20, []⟩ request config dir activity close :=
  judged_after_clean_run (by decide +kernel) (.inl rfl)

end CodeArena.Engine
