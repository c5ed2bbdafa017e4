import CodeArena.Engine.Comparison
import CodeArena.Engine.Container

/-!
# What a verdict says about the program

A verdict, read without the engine: `Cause host raw v` says what the compiler or the program
has to do for a call to come out as `v`.  Every verdict that `execute` resolves with has its
cause, and no two verdicts share one, so the verdict of a call is the one whose cause took
place (`verdict_iff_cause`).

The causes of a run exclude each other because `judge` asks for them in an order; each row of
`RunCause` says in full what the rows above it leave.
-/

namespace CodeArena.Engine

open CodeArena.Lib CodeArena.Lib.Utf

/-! ## A run -/

/-- The runner takes a run for one that lacked memory, as far as the timer lets it: in the
sandbox it left with 137 below the limit of the output, or the text that is kept of stderr
has one of the markers. -/
def OutOfMemory (isLocalMode : Bool) (workspaceDir : JsString) (activity : List Activity)
    (close : Close) : Prop :=
  isLocalMode = false ∧
    ((close.code = some 137 ∧
        (stdoutText activity).length + (stderrText activity).length < maxOutputBytes) ∨
      hasOomMarker (report workspaceDir (stderrText activity)) = true)

/-- What a run that closed did, for its verdict. -/
inductive RunCause (isLocalMode : Bool) (workspaceDir expected : JsString)
    (activity : List Activity) (close : Close) : Verdict → Prop
  | timedOut : .timer ∈ activity →
      RunCause isLocalMode workspaceDir expected activity close .timeLimitExceeded
  | outOfMemory : .timer ∉ activity → OutOfMemory isLocalMode workspaceDir activity close →
      RunCause isLocalMode workspaceDir expected activity close .memoryLimitExceeded
  | excessive : .timer ∉ activity → ¬ OutOfMemory isLocalMode workspaceDir activity close →
      maxOutputBytes ≤ (stdoutText activity).length + (stderrText activity).length →
      RunCause isLocalMode workspaceDir expected activity close .outputLimitExceeded
  | failed : .timer ∉ activity → ¬ OutOfMemory isLocalMode workspaceDir activity close →
      (stdoutText activity).length + (stderrText activity).length < maxOutputBytes →
      ¬ (close.code = some 0 ∧ close.signal = none) →
      RunCause isLocalMode workspaceDir expected activity close .runtimeError
  | differs : CleanRun activity close → ¬ OutOfMemory isLocalMode workspaceDir activity close →
      comparedLines (sanitizeOutput (stdoutText activity) workspaceDir) ≠ comparedLines expected →
      RunCause isLocalMode workspaceDir expected activity close .wrongAnswer
  | matched : CleanRun activity close → ¬ OutOfMemory isLocalMode workspaceDir activity close →
      comparedLines (sanitizeOutput (stdoutText activity) workspaceDir) = comparedLines expected →
      RunCause isLocalMode workspaceDir expected activity close .accepted

section

variable {isLocalMode : Bool} {workspaceDir expected : JsString} {activity : List Activity}
  {close : Close} {v w : Verdict}

/-- A run has one verdict. -/
theorem RunCause.unique (hv : RunCause isLocalMode workspaceDir expected activity close v)
    (hw : RunCause isLocalMode workspaceDir expected activity close w) : v = w := by
  cases hv with
  | timedOut ht =>
      cases hw with
      | timedOut => rfl
      | outOfMemory hn | excessive hn | failed hn => exact absurd ht hn
      | differs hc | matched hc => exact absurd ht hc.not_timedOut
  | outOfMemory hn hm =>
      cases hw with
      | timedOut ht => exact absurd ht hn
      | outOfMemory => rfl
      | excessive _ ho | failed _ ho | differs _ ho | matched _ ho => exact absurd hm ho
  | excessive hn ho hle =>
      cases hw with
      | timedOut ht => exact absurd ht hn
      | outOfMemory _ hm => exact absurd hm ho
      | excessive => rfl
      | failed _ _ hlt => exact absurd hlt (Nat.not_lt.mpr hle)
      | differs hc | matched hc => exact absurd hc.below (Nat.not_lt.mpr hle)
  | failed hn ho hlt hf =>
      cases hw with
      | timedOut ht => exact absurd ht hn
      | outOfMemory _ hm => exact absurd hm ho
      | excessive _ _ hle => exact absurd hlt (Nat.not_lt.mpr hle)
      | failed => rfl
      | differs hc | matched hc => exact absurd ⟨hc.code, hc.signal⟩ hf
  | differs hc ho hne =>
      cases hw with
      | timedOut ht => exact absurd ht hc.not_timedOut
      | outOfMemory _ hm => exact absurd hm ho
      | excessive _ _ hle => exact absurd hc.below (Nat.not_lt.mpr hle)
      | failed _ _ _ hf => exact absurd ⟨hc.code, hc.signal⟩ hf
      | differs => rfl
      | matched _ _ heq => exact absurd heq hne
  | matched hc ho heq =>
      cases hw with
      | timedOut ht => exact absurd ht hc.not_timedOut
      | outOfMemory _ hm => exact absurd hm ho
      | excessive _ _ hle => exact absurd hc.below (Nat.not_lt.mpr hle)
      | failed _ _ _ hf => exact absurd ⟨hc.code, hc.signal⟩ hf
      | differs _ _ hne => exact absurd heq hne
      | matched => rfl

/-- The runner's flag, before the timer has fired. -/
theorem closeRun_isOom (hn : .timer ∉ activity) :
    (closeRun isLocalMode workspaceDir (capture activity) close).isOom = true ↔
      OutOfMemory isLocalMode workspaceDir activity close := by
  have ht : (capture activity).isTimedOut = false :=
    Bool.eq_false_iff.mpr fun h ↦ hn ((capture_isTimedOut activity).mp h)
  have ho : (capture activity).isOutputLimit = false ↔
      (stdoutText activity).length + (stderrText activity).length < maxOutputBytes := by
    rw [Bool.eq_false_iff, Ne, capture_isOutputLimit, Nat.not_le]
  cases isLocalMode with
  | true => exact iff_of_false Bool.false_ne_true fun h ↦ Bool.false_ne_true h.1.symm
  | false => simp [closeRun, closeSandbox, OutOfMemory, ht, ho]

theorem closeRun_isTimedOut :
    (closeRun isLocalMode workspaceDir (capture activity) close).isTimedOut = true ↔
      .timer ∈ activity := by
  rw [← capture_isTimedOut]
  cases isLocalMode with
  | true => rfl
  | false => rfl

theorem closeRun_isOutputLimit :
    (closeRun isLocalMode workspaceDir (capture activity) close).isOutputLimit = true ↔
      maxOutputBytes ≤ (stdoutText activity).length + (stderrText activity).length := by
  rw [← capture_isOutputLimit]
  cases isLocalMode with
  | true => rfl
  | false => rfl

/-- In either mode a run succeeds when it is clean and does not lack memory. -/
theorem closeRun_success :
    (closeRun isLocalMode workspaceDir (capture activity) close).success = true ↔
      CleanRun activity close ∧ ¬ OutOfMemory isLocalMode workspaceDir activity close := by
  cases isLocalMode with
  | true =>
      exact closeProcess_success.trans
        (and_iff_left fun h ↦ Bool.false_ne_true h.1.symm).symm
  | false =>
      refine closeSandbox_success.trans (and_congr_right fun hc ↦ ?_)
      rw [OutOfMemory, and_iff_right rfl, ← Bool.not_eq_true]
      -- A clean run left with code zero, so only the markers can tell.
      refine not_congr (or_iff_right fun h ↦ ?_).symm
      rw [hc.code] at h
      exact absurd h.1 (by decide)

/-- **A run that closed is judged by its cause.** -/
theorem judge_cause : RunCause isLocalMode workspaceDir expected activity close
    (judge (closeRun isLocalMode workspaceDir (capture activity) close) expected).verdict := by
  unfold judge
  dsimp only
  by_cases ht : .timer ∈ activity
  · rw [if_pos (closeRun_isTimedOut.mpr ht)]
    exact .timedOut ht
  rw [if_neg (mt closeRun_isTimedOut.mp ht)]
  by_cases hm : OutOfMemory isLocalMode workspaceDir activity close
  · rw [if_pos ((closeRun_isOom ht).mpr hm)]
    exact .outOfMemory ht hm
  rw [if_neg (mt (closeRun_isOom ht).mp hm)]
  by_cases ho : maxOutputBytes ≤ (stdoutText activity).length + (stderrText activity).length
  · rw [if_pos (closeRun_isOutputLimit.mpr ho)]
    exact .excessive ht hm ho
  rw [if_neg (mt closeRun_isOutputLimit.mp ho)]
  have hlt := Nat.not_le.mp ho
  by_cases he : close.code = some 0 ∧ close.signal = none
  · have hclean : CleanRun activity close := ⟨he.1, he.2, ht, hlt⟩
    rw [closeRun_success.mpr ⟨hclean, hm⟩, Bool.not_true, if_neg Bool.false_ne_true]
    dsimp only
    rw [evaluateOutput_verdict, closeRun_stdout, capture_stdoutData, report,
      hclean.truncate_stdoutText]
    by_cases heq : comparedLines (sanitizeOutput (stdoutText activity) workspaceDir) =
        comparedLines expected
    · rw [if_pos (normalizeOutput_inj.mpr heq)]
      exact .matched hclean hm heq
    · rw [if_neg (mt normalizeOutput_inj.mp heq)]
      exact .differs hclean hm heq
  · have hs : ¬ (closeRun isLocalMode workspaceDir (capture activity) close).success = true :=
      fun h ↦ he ⟨(closeRun_success.mp h).1.code, (closeRun_success.mp h).1.signal⟩
    rw [Bool.eq_false_iff.mpr hs, Bool.not_false, if_pos rfl]
    exact .failed ht hm hlt he

end

/-! ## What is run -/

/-- A child is started by the mode's runner. -/
def Host.start (host : Host) (invocation : Invocation) : Effect :=
  if host.isLocalMode then .spawnProcess invocation else .spawnContainer invocation

/-- What a call does before it can judge a run: it makes its workspace, writes the source
there, compiles it where the language is compiled, and starts the program in it. -/
def runSteps (host : Host) (config : LanguageConfig) (request : ExecutionRequest) (dir : Path) :
    List Effect :=
  [.mkdtemp dir.render, .writeFile dir.render config.sourceFilename request.sourceCode] ++
    config.compilation.toList.map (fun c ↦ host.start (compileInvocation dir c)) ++
    [host.start (runInvocation dir config request)]

section

variable {host : Host} {raw : Option RawRequest} {request : ExecutionRequest}
  {config : LanguageConfig} {dir : Path} {result : ExecutionResult} {invocation : Invocation}

theorem runInDockerSandbox_effects {launch : Invocation → Launch} {r : RunResult}
    (h : (runInDockerSandbox launch invocation).outcome = .resolved r) :
    (runInDockerSandbox launch invocation).effects = [.spawnContainer invocation] := by
  have hd := (runInDockerSandbox_eq_resolved.mp h).1
  rw [runInDockerSandbox, if_pos hd]

theorem run_effects {r : RunResult} (h : (run host invocation).outcome = .resolved r) :
    (run host invocation).effects = [host.start invocation] := by
  unfold run Host.start at *
  split at h
  · rename_i hmode
    rw [if_pos hmode, if_pos hmode]
    rfl
  · rename_i hmode
    rw [if_neg hmode, if_neg hmode]
    exact runInDockerSandbox_effects h

theorem compile_effects {r : CompileResult}
    (h : (compile host invocation).outcome = .resolved r) :
    (compile host invocation).effects = [host.start invocation] := by
  unfold compile Host.start at *
  split at h
  · rename_i hmode
    rw [if_pos hmode, if_pos hmode]
    rfl
  · rename_i hmode
    obtain ⟨docker, hd, -⟩ := Async.bind_outcome_eq_resolved.mp h
    rw [if_neg hmode, if_neg hmode, Async.bind_effects_of_resolved hd,
      runInDockerSandbox_effects hd]
    rfl

theorem mkdtemp_mem_createWorkspace {fs : FileSystem}
    (h : (createWorkspace fs).outcome = .resolved dir) :
    .mkdtemp dir.render ∈ (createWorkspace fs).effects := by
  obtain ⟨suffix, hm, h⟩ := Async.bind_outcome_eq_resolved.mp h
  obtain ⟨_, hp, h⟩ := Async.bind_outcome_eq_resolved.mp h
  obtain ⟨_, hc, h⟩ := Async.bind_outcome_eq_resolved.mp h
  cases h
  unfold createWorkspace
  rw [Async.bind_effects_of_resolved hm, Async.bind_effects_of_resolved hp]
  exact List.mem_append_right _ (List.mem_append_left _ (List.mem_singleton_self _))

/-- From the run on, the call starts the program. -/
theorem runAndJudge_effects
    (h : (runAndJudge host config request dir).outcome = .resolved result) :
    (runAndJudge host config request dir).effects =
      [host.start (runInvocation dir config request)] := by
  obtain ⟨r, hr, -⟩ := runAndJudge_eq_resolved.mp h
  unfold runAndJudge
  rw [Async.bind_effects_of_resolved hr, run_effects hr]
  rfl

/-- The `try` block of a call that ran. -/
theorem Prepared.executeIn_effects (hp : Prepared host raw request config dir)
    (h : (runAndJudge host config request dir).outcome = .resolved result) :
    (executeIn host config request dir).effects =
      .writeFile dir.render config.sourceFilename request.sourceCode ::
        (config.compilation.toList.map (fun c ↦ host.start (compileInvocation dir c)) ++
          [host.start (runInvocation dir config request)]) := by
  have hwrite : (writeSourceFile host.fs dir config.sourceFilename request.sourceCode).outcome =
      .resolved ⟨⟩ :=
    writeSourceFile_outcome.trans (call_outcome_eq_resolved.mpr hp.written)
  have heffect : (writeSourceFile host.fs dir config.sourceFilename request.sourceCode).effects =
      [.writeFile dir.render config.sourceFilename request.sourceCode] := by
    unfold writeSourceFile
    rw [Async.bind_effects_of_resolved (Async.outcome_perform _), hp.written]
    rfl
  unfold executeIn
  rw [Async.bind_effects_of_resolved hwrite, heffect]
  cases hc : config.compilation with
  | none => exact congrArg (_ :: ·) (runAndJudge_effects h)
  | some c =>
      obtain ⟨r, hr, hsuccess⟩ := hp.compiled c hc
      dsimp only
      rw [Async.bind_effects_of_resolved hr, compile_effects hr, if_pos hsuccess,
        runAndJudge_effects h]
      rfl

/-- **A verdict on a run is one on the source of the request**: written to the workspace of
the call, compiled there where it has to be, and started there, in this order. -/
theorem Prepared.runSteps_sublist (hp : Prepared host raw request config dir)
    (h : (execute host raw).outcome = .resolved result) :
    (runSteps host config request dir).Sublist (execute host raw).effects := by
  have hin := h
  rw [hp.toStarted.outcome_execute] at hin
  have hrun := h
  rw [hp.outcome_execute] at hrun
  have hmode : (!host.isLocalMode && !host.dockerAvailable) = false := by
    cases hp.available with
    | inl hl => simp [hl]
    | inr hd => simp [hd]
  unfold execute
  rw [Async.bind_effects_of_resolved (Outcome.ofExcept_eq_resolved.mpr hp.validated),
    Async.bind_effects_of_resolved (Outcome.ofExcept_eq_resolved.mpr hp.resolved), hmode,
    if_neg Bool.false_ne_true, Async.bind_effects_of_resolved hp.created,
    Async.effects_ensuring (cleanupWorkspace_resolves _ _) (by rw [hin]; rintro ⟨⟩),
    hp.executeIn_effects hrun]
  exact (List.singleton_sublist.mpr (mkdtemp_mem_createWorkspace hp.created)).append
    (List.sublist_append_left _ _)

end

/-! ## A call -/

/-- A compiler that closed leaves a program: it left with exit code zero before its timer
fired, and in the sandbox its run was clean besides and did not lack memory. -/
def Compiles (isLocalMode : Bool) (workspaceDir : JsString) (activity : List Activity)
    (close : Close) : Prop :=
  close.code = some 0 ∧ .timer ∉ activity ∧
    (isLocalMode = false → CleanRun activity close ∧
      ¬ OutOfMemory isLocalMode workspaceDir activity close)

/-- What happened in a call, for its verdict. -/
inductive Cause (host : Host) (raw : Option RawRequest) : Verdict → Prop
  /-- The compiler closed and left no program. -/
  | uncompiled {request : ExecutionRequest} {config : LanguageConfig} {dir : Path}
      {c : Compilation} {activity : List Activity} {close : Close} :
      Started host raw request config dir → config.compilation = some c →
      (host.compiler (compileInvocation dir c)).child = .spawned activity (.close close) →
      ¬ Compiles host.isLocalMode dir.render activity close → Cause host raw .compilationError
  /-- The program, which was compiled where its language is, ran and closed. -/
  | ran {request : ExecutionRequest} {config : LanguageConfig} {dir : Path}
      {activity : List Activity} {close : Close} {v : Verdict} :
      Prepared host raw request config dir →
      (host.program (runInvocation dir config request)).child = .spawned activity (.close close) →
      RunCause host.isLocalMode dir.render request.expectedOutput activity close v →
      Cause host raw v

section

variable {host : Host} {raw : Option RawRequest} {result : ExecutionResult}

/-- A compile step that resolved did so with what its compiler did. -/
theorem compile_success_iff {invocation : Invocation} {r : CompileResult}
    (h : (compile host invocation).outcome = .resolved r) : ∃ activity close,
      (host.compiler invocation).child = .spawned activity (.close close) ∧
        (r.success = true ↔
          Compiles host.isLocalMode invocation.workspaceDir activity close) := by
  unfold compile at h
  split at h
  · rename_i hmode
    obtain ⟨activity, close, hchild, rfl⟩ := Handlers.outcome_eq_resolved.mp h
    refine ⟨activity, close, hchild, closeCompiler_success.trans ?_⟩
    rw [compilerHandlers, foldl_compiler_isTimedOut, Compiles, hmode]
    simp [and_comm]
  · rename_i hmode
    obtain ⟨docker, hd, h⟩ := Async.bind_outcome_eq_resolved.mp h
    obtain ⟨-, activity, close, hchild, rfl⟩ := runInDockerSandbox_eq_resolved.mp hd
    cases h
    have hmode := Bool.eq_false_iff.mpr hmode
    refine ⟨activity, close, hchild,
      (@closeRun_success false _ _ _).trans ⟨fun hc ↦ ?_, fun hc ↦ ?_⟩⟩
    · exact ⟨hc.1.code, hc.1.not_timedOut, fun _ ↦ hmode ▸ hc⟩
    · exact hmode ▸ hc.2.2 hmode

/-- Every verdict has its cause. -/
theorem cause_of_resolved (h : (execute host raw).outcome = .resolved result) :
    Cause host raw result.verdict := by
  obtain ⟨request, config, dir, hs⟩ := started_of_resolved h
  by_cases hp : Prepared host raw request config dir
  · rw [hp.outcome_execute] at h
    obtain ⟨r, hr, rfl⟩ := runAndJudge_eq_resolved.mp h
    obtain ⟨-, activity, close, hchild, rfl⟩ := run_eq_resolved.mp hr
    exact .ran hp hchild judge_cause
  rw [hs.outcome_execute] at h
  obtain ⟨_, hw, h⟩ := Async.bind_outcome_eq_resolved.mp h
  have hw := call_outcome_eq_resolved.mp (writeSourceFile_outcome.symm.trans hw)
  cases hc : config.compilation with
  | none => exact absurd ⟨hs, hw, fun _ hc' ↦ by cases hc.symm.trans hc'⟩ hp
  | some c =>
      rw [hc] at h
      obtain ⟨r, hr, h⟩ := Async.bind_outcome_eq_resolved.mp h
      obtain ⟨activity, close, hchild, hiff⟩ := compile_success_iff hr
      have hfails : ¬ r.success = true := fun hsuccess ↦ hp ⟨hs, hw, fun c' hc' ↦ by
        obtain rfl : c = c' := Option.some.inj (hc.symm.trans hc')
        exact ⟨r, hr, hsuccess⟩⟩
      rw [if_neg hfails] at h
      cases h
      exact .uncompiled hs hc hchild (mt hiff.mpr hfails)

/-- **The verdict of a call is the one whose cause took place.** -/
theorem verdict_iff_cause (h : (execute host raw).outcome = .resolved result) (v : Verdict) :
    result.verdict = v ↔ Cause host raw v := by
  constructor
  · rintro rfl
    exact cause_of_resolved h
  intro hc
  cases hc with
  | ran hp hchild hrun =>
      rw [hp.outcome_execute] at h
      obtain ⟨r, hr, rfl⟩ := runAndJudge_eq_resolved.mp h
      obtain ⟨-, activity, close, hchild', rfl⟩ := run_eq_resolved.mp hr
      cases hchild.symm.trans hchild'
      exact judge_cause.unique hrun
  | uncompiled hs hcomp hchild hfails =>
      rw [hs.outcome_execute] at h
      obtain ⟨_, -, h⟩ := Async.bind_outcome_eq_resolved.mp h
      rw [hcomp] at h
      obtain ⟨r, hr, h⟩ := Async.bind_outcome_eq_resolved.mp h
      obtain ⟨activity, close, hchild', hiff⟩ := compile_success_iff hr
      cases hchild.symm.trans hchild'
      rw [if_neg (mt hiff.mp hfails)] at h
      cases h
      rfl

/-- A program that the sandbox ends with 137, before its timer fired. -/
theorem verdict_iff_cause_killed : Cause
    (.sample false fun _ ↦ ⟨true, .spawned [.stdout (bytes "1")] (.close ⟨some 137, none, 40⟩)⟩)
    (some (.sample .python (js "1"))) .memoryLimitExceeded :=
  (verdict_iff_cause (show (execute _ _).outcome = .resolved
    ⟨.memoryLimitExceeded, js "1", js "Memory limit exceeded", some 40, []⟩ by decide +kernel) _).mp
      rfl

end

end CodeArena.Engine
