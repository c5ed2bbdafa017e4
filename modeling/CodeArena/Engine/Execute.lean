import CodeArena.Engine.Workspace

/-!
# `execute`

The whole call, from the validation of a request to its verdict.  A `Host` says how
the call finds the world: the mode, the answers of the Docker check, the file system and
the children that are started.

The proofs take a call apart in two steps.  `Started` is what holds once the workspace
is there, and `Prepared` what holds once the program is about to run; up to there a call
throws or ends as COMPILATION_ERROR, and from there on it comes out as `runAndJudge`
does (`Prepared.outcome_execute`, `prepared_of_judged`).
-/

namespace CodeArena.Engine

open CodeArena.Lib CodeArena.Lib.Utf

/-- How one call of `execute` finds the world. -/
structure Host where
  /-- `process.env.EXECUTION_MODE === 'local'`. -/
  isLocalMode : Bool
  /-- What `checkDockerAvailable` answers. -/
  dockerAvailable : Bool
  fs : FileSystem
  /-- What becomes of the compiler when it is started. -/
  compiler : Invocation → Launch
  /-- What becomes of the program when it is started. -/
  program : Invocation → Launch

/-- The host on which the program does something else. -/
def Host.withProgram (host : Host) (program : Invocation → Launch) : Host :=
  { host with program }

/-- What `execute` resolves with. -/
structure ExecutionResult where
  verdict : Verdict
  stdout : JsString
  stderr : JsString
  runtimeMs : Option Nat
  compileOutput : JsString
deriving DecidableEq, Repr

/-- The result of a program that does not compile. -/
def compilationError (stderr : JsString) : ExecutionResult :=
  ⟨.compilationError, [], stderr, none, stderr⟩

/-- `exitReason`. -/
def exitReason (r : RunResult) : JsString :=
  match r.signal with
  | some (u :: signal) => js "Process terminated by signal: " ++ u :: signal
  | _ => js "Process exited with code " ++ codeText r.exitCode

/-- The verdict on a run: the flags in their order of priority, and then the output. -/
def judge (r : RunResult) (expectedOutput : JsString) : ExecutionResult :=
  let result (verdict : Verdict) (stderr : JsString) : ExecutionResult :=
    ⟨verdict, r.stdout, stderr, some r.runtimeMs, []⟩
  if r.isTimedOut then
    result .timeLimitExceeded (orElse r.stderr (js "Time limit exceeded"))
  else if r.isOom then
    result .memoryLimitExceeded (orElse r.stderr (js "Memory limit exceeded"))
  else if r.isOutputLimit then
    result .outputLimitExceeded (orElse r.stderr
      (js "Output limit exceeded: program generated excessive stdout/stderr"))
  else if !r.success then
    result .runtimeError (orElse r.stderr (exitReason r))
  else
    result (evaluateOutput r.stdout expectedOutput).verdict r.stderr

/-- What the compiler is started with. -/
def compileInvocation (workspaceDir : Path) (c : Compilation) : Invocation :=
  ⟨workspaceDir.render, c.compiler, c.compileArgs, [], compileTimeoutMs⟩

/-- What the program is started with. -/
def runInvocation (workspaceDir : Path) (config : LanguageConfig) (request : ExecutionRequest) :
    Invocation :=
  ⟨workspaceDir.render, config.command, config.args, request.input.getD [], executionTimeoutMs⟩

/-- `// 6. Compile`. -/
def compile (host : Host) (invocation : Invocation) : Call CompileResult :=
  if host.isLocalMode then compileCpp host.compiler invocation
  else do
    let dockerCompile ← runInDockerSandbox host.compiler invocation
    return ⟨dockerCompile.success, dockerCompile.stderr, dockerCompile.stdout,
      dockerCompile.exitCode⟩

/-- `// 7. Execute program`. -/
def run (host : Host) (invocation : Invocation) : Call RunResult :=
  if host.isLocalMode then runProcess host.program invocation
  else runInDockerSandbox host.program invocation

/-- `execute`, from the run on. -/
def runAndJudge (host : Host) (config : LanguageConfig) (request : ExecutionRequest)
    (workspaceDir : Path) : Call ExecutionResult := do
  let runResult ← run host (runInvocation workspaceDir config request)
  return judge runResult request.expectedOutput

/-- The `try` block of `execute`, once there is a workspace. -/
def executeIn (host : Host) (config : LanguageConfig) (request : ExecutionRequest)
    (workspaceDir : Path) : Call ExecutionResult := do
  writeSourceFile host.fs workspaceDir config.sourceFilename request.sourceCode
  match config.compilation with
  | none => runAndJudge host config request workspaceDir
  | some c => do
    let compileResult ← compile host (compileInvocation workspaceDir c)
    if compileResult.success then runAndJudge host config request workspaceDir
    else return compilationError compileResult.stderr

/-- `execute`.  Until `createWorkspace` returns, `workspaceDir` is null and the `finally`
block has nothing to do. -/
def execute (host : Host) (request : Option RawRequest) : Call ExecutionResult := do
  let request ← .lift (.ofExcept (validateExecutionRequest request))
  let config ← .lift (.ofExcept (resolveLanguage request.language))
  if !host.isLocalMode && !host.dockerAvailable then .throw executionUnavailable
  else do
    let workspaceDir ← createWorkspace host.fs
    (executeIn host config request workspaceDir).ensuring
      (cleanupWorkspace host.fs workspaceDir)

/-! ## A host for examples -/

/-- A file system on which every call succeeds. -/
def FileSystem.sample : FileSystem where
  workspaceBaseDir := [js "tmp", js "codearena-workspaces"]
  tmpdir := [js "tmp"]
  ensureBaseDir := .ok ()
  mkdtemp := .ok (js "a1b2c3")
  chmod := .ok ()
  writeFile := .ok ()
  lstat := .ok false

/-- A host on which Docker is there and programs compile. -/
def Host.sample (isLocalMode : Bool) (program : Invocation → Launch) : Host where
  isLocalMode := isLocalMode
  dockerAvailable := true
  fs := .sample
  compiler := fun _ ↦ ⟨true, .spawned [] (.close ⟨some 0, none, 100⟩)⟩
  program := program

/-- A program that leaves with exit code zero after 20 ms. -/
def exits (activity : List Activity) (_ : Invocation) : Launch :=
  ⟨true, .spawned activity (.close ⟨some 0, none, 20⟩)⟩

/-- A request without input. -/
def RawRequest.sample (language : Language) (expectedOutput : JsString) : RawRequest where
  language := .string language.identifier
  sourceCode := .string (js "main")
  testCase := some ⟨.undefined, .string expectedOutput⟩

/-- The chunk with the bytes of a literal. -/
def bytes (s : String) : List UInt8 := encode s.toList

/-! ## Taking a call apart -/

/-- The call got as far as its workspace. -/
structure Started (host : Host) (raw : Option RawRequest) (request : ExecutionRequest)
    (config : LanguageConfig) (dir : Path) : Prop where
  validated : validateExecutionRequest raw = .ok request
  resolved : resolveLanguage request.language = .ok config
  available : host.isLocalMode = true ∨ host.dockerAvailable = true
  created : (createWorkspace host.fs).outcome = .resolved dir

/-- The call got as far as its run: the source is written, and compiled where the
language is compiled. -/
structure Prepared (host : Host) (raw : Option RawRequest) (request : ExecutionRequest)
    (config : LanguageConfig) (dir : Path) : Prop extends
    Started host raw request config dir where
  written : host.fs.writeFile = .ok ()
  compiled : ∀ c, config.compilation = some c →
    ∃ r, (compile host (compileInvocation dir c)).outcome = .resolved r ∧ r.success = true

section

variable {host : Host} {raw : Option RawRequest} {request : ExecutionRequest}
  {config : LanguageConfig} {dir : Path} {result : ExecutionResult}

/-- From the workspace on, a call comes out as its `try` block does. -/
theorem Started.outcome_execute (h : Started host raw request config dir) :
    (execute host raw).outcome = (executeIn host config request dir).outcome := by
  have hmode : (!host.isLocalMode && !host.dockerAvailable) = false := by
    cases h.available with
    | inl hl => simp [hl]
    | inr hd => simp [hd]
  unfold execute
  rw [Async.bind_outcome_of_resolved (Outcome.ofExcept_eq_resolved.mpr h.validated),
    Async.bind_outcome_of_resolved (Outcome.ofExcept_eq_resolved.mpr h.resolved), hmode,
    if_neg Bool.false_ne_true, Async.bind_outcome_of_resolved h.created,
    Async.outcome_ensuring (cleanupWorkspace_resolves _ _)]

/-- A call that resolved had a workspace. -/
theorem started_of_resolved (h : (execute host raw).outcome = .resolved result) :
    ∃ request config dir, Started host raw request config dir := by
  obtain ⟨request, hv, h⟩ := Async.bind_outcome_eq_resolved.mp h
  obtain ⟨config, hr, h⟩ := Async.bind_outcome_eq_resolved.mp h
  split at h
  · cases h
  · rename_i hmode
    obtain ⟨dir, hc, -⟩ := Async.bind_outcome_eq_resolved.mp h
    refine ⟨request, config, dir, Outcome.ofExcept_eq_resolved.mp hv,
      Outcome.ofExcept_eq_resolved.mp hr, ?_, hc⟩
    cases hl : host.isLocalMode with
    | true => exact .inl rfl
    | false => exact .inr (by simpa [hl] using hmode)

/-- What the program does plays no part in the preparation. -/
theorem Prepared.withProgram (h : Prepared host raw request config dir)
    (program : Invocation → Launch) :
    Prepared (host.withProgram program) raw request config dir :=
  { h with }

theorem writeSourceFile_outcome {fs : FileSystem} {filename source : JsString} :
    (writeSourceFile fs dir filename source).outcome = (call fs.writeFile).outcome :=
  Async.bind_outcome_of_resolved (Async.outcome_perform _)

/-- From the run on, a call comes out as the run does. -/
theorem Prepared.outcome_execute (h : Prepared host raw request config dir) :
    (execute host raw).outcome = (runAndJudge host config request dir).outcome := by
  rw [h.toStarted.outcome_execute]
  unfold executeIn
  rw [Async.bind_outcome_of_resolved
    (writeSourceFile_outcome.trans (call_outcome_eq_resolved.mpr h.written))]
  cases hc : config.compilation with
  | none => rfl
  | some c =>
      obtain ⟨r, hr, hs⟩ := h.compiled c hc
      dsimp only
      rw [Async.bind_outcome_of_resolved hr, if_pos hs]

/-- **What is judged has run.**  A call that did not come out as COMPILATION_ERROR got
as far as its run. -/
theorem prepared_of_judged (h : (execute host raw).outcome = .resolved result)
    (hv : result.verdict ≠ .compilationError) :
    ∃ request config dir, Prepared host raw request config dir := by
  obtain ⟨request, config, dir, hs⟩ := started_of_resolved h
  rw [hs.outcome_execute] at h
  obtain ⟨_, hw, h⟩ := Async.bind_outcome_eq_resolved.mp h
  refine ⟨request, config, dir, hs,
    call_outcome_eq_resolved.mp (writeSourceFile_outcome.symm.trans hw), fun c hc ↦ ?_⟩
  rw [hc] at h
  obtain ⟨r, hr, h⟩ := Async.bind_outcome_eq_resolved.mp h
  split at h
  · rename_i hsuccess
    exact ⟨r, hr, hsuccess⟩
  · cases h
    exact absurd rfl hv

/-- A child whose promise rejects does so with an error of the engine. -/
theorem Handlers.rejected_name {σ α : Type} {h : Handlers σ α} {child : Child} {e : EngineError}
    (hspawn : ∀ e, (h.onSpawnError e).name = "ExecutionEngineError")
    (herror : ∀ e, (h.onError e).name = "ExecutionEngineError")
    (hr : h.outcome child = .rejected e) : e.name = "ExecutionEngineError" := by
  cases child with
  | notSpawned error => cases hr; exact hspawn error
  | spawned activity ending =>
      cases ending with
      | never | close close => cases hr
      | error error => cases hr; exact herror error

theorem runInDockerSandbox_rejected_name {launch : Invocation → Launch} {invocation : Invocation}
    {e : EngineError} (h : (runInDockerSandbox launch invocation).outcome = .rejected e) :
    e.name = "ExecutionEngineError" := by
  unfold runInDockerSandbox at h
  split at h
  · exact Handlers.rejected_name (fun _ ↦ rfl) (fun _ ↦ rfl) h
  · cases h
    rfl

theorem run_rejected_name {invocation : Invocation} {e : EngineError}
    (h : (run host invocation).outcome = .rejected e) : e.name = "ExecutionEngineError" := by
  unfold run at h
  split at h
  · exact Handlers.rejected_name (fun _ ↦ rfl) (fun _ ↦ rfl) h
  · exact runInDockerSandbox_rejected_name h

theorem compile_rejected_name {invocation : Invocation} {e : EngineError}
    (h : (compile host invocation).outcome = .rejected e) : e.name = "ExecutionEngineError" := by
  unfold compile at h
  split at h
  · apply Handlers.rejected_name (fun _ ↦ rfl) _ h
    intro e
    simp only [compilerHandlers]
    split <;> rfl
  · rcases Async.bind_outcome_eq_rejected.mp h with h | ⟨_, _, h⟩
    · exact runInDockerSandbox_rejected_name h
    · cases h

theorem runAndJudge_rejected_name {e : EngineError}
    (h : (runAndJudge host config request dir).outcome = .rejected e) :
    e.name = "ExecutionEngineError" := by
  rcases Async.bind_outcome_eq_rejected.mp h with h | ⟨_, _, h⟩
  · exact run_rejected_name h
  · cases h

/-- From the workspace on, the errors are those of the file system and of the runners. -/
theorem executeIn_rejected_name {e : EngineError}
    (h : (executeIn host config request dir).outcome = .rejected e) :
    e.name = "Error" ∨ e.name = "ExecutionEngineError" := by
  rcases Async.bind_outcome_eq_rejected.mp h with h | ⟨_, _, h⟩
  · rw [writeSourceFile_outcome] at h
    exact .inl (call_rejected_name h)
  right
  split at h
  · exact runAndJudge_rejected_name h
  · rcases Async.bind_outcome_eq_rejected.mp h with h | ⟨_, _, h⟩
    · exact compile_rejected_name h
    · split at h
      · exact runAndJudge_rejected_name h
      · cases h

/-- A request that does not pass its checks is refused. -/
theorem execute_of_not_checked (h : ¬ Checked raw) :
    ∃ e, (execute host raw).outcome = .rejected e := by
  unfold execute
  cases hv : validateExecutionRequest raw with
  | error e => exact ⟨e, rfl⟩
  | ok request =>
      rw [Async.bind_outcome_of_resolved (a := request) rfl]
      cases hr : resolveLanguage request.language with
      | error e => exact ⟨e, rfl⟩
      | ok config => exact absurd ⟨request, config, hv, hr⟩ h

/-- **Only a request that does not pass its checks is answered by a `ValidationError`.** -/
theorem execute_rejected_name {e : EngineError} (h : (execute host raw).outcome = .rejected e) :
    e.name = "ValidationError" ↔ ¬ Checked raw := by
  rcases Async.bind_outcome_eq_rejected.mp h with h | ⟨request, hv, h⟩
  · have hraw := Outcome.ofExcept_eq_rejected.mp h
    apply iff_of_true (validateExecutionRequest_error hraw)
    rintro ⟨_, _, hv, -⟩
    cases hraw.symm.trans hv
  have hv := Outcome.ofExcept_eq_resolved.mp hv
  rcases Async.bind_outcome_eq_rejected.mp h with h | ⟨config, hr, h⟩
  · have hlanguage := Outcome.ofExcept_eq_rejected.mp h
    apply iff_of_true (resolveLanguage_error hlanguage)
    rintro ⟨request', _, hv', hr⟩
    obtain rfl : request = request' := Except.ok.inj (hv.symm.trans hv')
    cases hlanguage.symm.trans hr
  apply iff_of_false
  · intro hname
    have hother : e.name = "Error" ∨ e.name = "ExecutionEngineError" := by
      split at h
      · cases h
        exact .inr rfl
      rcases Async.bind_outcome_eq_rejected.mp h with h | ⟨dir, _, h⟩
      · exact .inl (createWorkspace_rejected_name h)
      · rw [Async.outcome_ensuring (cleanupWorkspace_resolves _ _)] at h
        exact executeIn_rejected_name h
    rw [hname] at hother
    rcases hother with h | h <;> exact absurd h (by decide)
  · exact fun hn ↦ hn ⟨request, config, hv, Outcome.ofExcept_eq_resolved.mp hr⟩

/-- A call that ran comes out as the verdict on its run. -/
theorem runAndJudge_eq_resolved :
    (runAndJudge host config request dir).outcome = .resolved result ↔
      ∃ r, (run host (runInvocation dir config request)).outcome = .resolved r ∧
        result = judge r request.expectedOutput := by
  unfold runAndJudge
  rw [Async.bind_outcome_eq_resolved]
  simp [eq_comm]

end

end CodeArena.Engine
