import CodeArena.Engine.CleanRun

/-!
# Containers that do not start

The docker CLI leaves with exit code 125 when the daemon cannot create or start the
container.  To `runInDockerSandbox` this is an exit code like any other: it resolves, and
`execute` comes to a verdict on the program, on the compile step (`compile_failsToStart`)
as well as on the run step (`run_failsToStart`).
-/

namespace CodeArena.Engine

open CodeArena.Lib CodeArena.Lib.Utf

/-- The docker CLI leaves with exit code 125, and there is no output of the program. -/
def FailsToStart (child : Child) : Prop :=
  ∃ activity close, child = .spawned activity (.close close) ∧ close.code = some 125 ∧
    stdoutText activity = []

/-- The position in a call of `execute` at which a container does not start. -/
inductive ContainerFails (host : Host) (raw : Option RawRequest) : Prop
  /-- The compile step. -/
  | compiling {request : ExecutionRequest} {config : LanguageConfig} {dir : Path}
      {c : Compilation} : Started host raw request config dir → host.fs.writeFile = .ok () →
      config.compilation = some c →
      (host.compiler (compileInvocation dir c)).dockerAvailable = true →
      FailsToStart (host.compiler (compileInvocation dir c)).child → ContainerFails host raw
  /-- The run step. -/
  | running {request : ExecutionRequest} {config : LanguageConfig} {dir : Path} :
      Prepared host raw request config dir →
      (host.program (runInvocation dir config request)).dockerAvailable = true →
      FailsToStart (host.program (runInvocation dir config request)).child →
      ContainerFails host raw

/-- The verdicts at which the loop over the test cases stops. -/
def Verdict.stops : Verdict → Bool
  | .pending | .accepted | .wrongAnswer => false
  | _ => true

/-- A run that did not succeed is judged by a verdict at which the loop stops. -/
theorem judge_stops {r : RunResult} {expected : JsString} (h : r.success = false) :
    (judge r expected).verdict.stops = true := by
  unfold judge
  dsimp only
  split
  · rfl
  split
  · rfl
  split
  · rfl
  · rw [h, Bool.not_false, if_pos rfl]
    rfl

section

variable {host : Host} {raw : Option RawRequest} {request : ExecutionRequest}
  {config : LanguageConfig} {dir : Path}

/-- In the sandbox, a child that leaves with exit code 125 has not succeeded. -/
theorem closeSandbox_failsToStart {workspaceDir : JsString} {captured : Captured} {close : Close}
    (h : close.code = some 125) :
    (closeSandbox workspaceDir captured close).success = false := by
  simp [closeSandbox, h]

/-- A container of the compile step that does not start is a compilation error. -/
theorem compile_failsToStart {c : Compilation} (hmode : host.isLocalMode = false)
    (hs : Started host raw request config dir) (hw : host.fs.writeFile = .ok ())
    (hc : config.compilation = some c)
    (hd : (host.compiler (compileInvocation dir c)).dockerAvailable = true)
    (hf : FailsToStart (host.compiler (compileInvocation dir c)).child) :
    ∃ result, (execute host raw).outcome = .resolved result ∧
      result.verdict = .compilationError := by
  obtain ⟨activity, close, hchild, hcode, -⟩ := hf
  obtain ⟨r, hdocker, hsuccess⟩ : ∃ r,
      (runInDockerSandbox host.compiler (compileInvocation dir c)).outcome = .resolved r ∧
        r.success = false :=
    ⟨_, runInDockerSandbox_eq_resolved.mpr ⟨hd, activity, close, hchild, rfl⟩,
      closeSandbox_failsToStart hcode⟩
  have hcompile : (compile host (compileInvocation dir c)).outcome =
      .resolved ⟨r.success, r.stderr, r.stdout, r.exitCode⟩ := by
    rw [compile, if_neg (by simp [hmode])]
    exact Async.bind_outcome_of_resolved hdocker
  rw [hs.outcome_execute]
  unfold executeIn
  rw [Async.bind_outcome_of_resolved
    (writeSourceFile_outcome.trans (call_outcome_eq_resolved.mpr hw)), hc]
  dsimp only
  rw [Async.bind_outcome_of_resolved hcompile, hsuccess, if_neg Bool.false_ne_true]
  exact ⟨_, rfl, rfl⟩

/-- A container of the run step that does not start is a failure of the program. -/
theorem run_failsToStart (hmode : host.isLocalMode = false)
    (hp : Prepared host raw request config dir)
    (hd : (host.program (runInvocation dir config request)).dockerAvailable = true)
    (hf : FailsToStart (host.program (runInvocation dir config request)).child) :
    ∃ result, (execute host raw).outcome = .resolved result ∧ result.verdict.stops = true := by
  obtain ⟨activity, close, hchild, hcode, -⟩ := hf
  have hrun : Runs host (runInvocation dir config request) activity close := ⟨.inr hd, hchild⟩
  refine ⟨_, hp.outcome_of_runs hrun, judge_stops ?_⟩
  rw [hmode, closeRun, if_neg Bool.false_ne_true]
  exact closeSandbox_failsToStart hcode

/-- **A container that does not start comes to a verdict on the program.** -/
theorem ContainerFails.judged (h : ContainerFails host raw) (hmode : host.isLocalMode = false) :
    ∃ result, (execute host raw).outcome = .resolved result ∧ result.verdict.stops = true := by
  cases h with
  | compiling hs hw hc hd hf =>
      obtain ⟨result, hr, hv⟩ := compile_failsToStart hmode hs hw hc hd hf
      exact ⟨result, hr, by rw [hv]; rfl⟩
  | running hp hd hf => exact run_failsToStart hmode hp hd hf

end

end CodeArena.Engine
