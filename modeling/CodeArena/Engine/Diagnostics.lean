import CodeArena.Engine.CleanRun

/-!
# What a program writes to stderr

The runner in the sandbox looks for a lack of memory in two places, the exit code and
the text of stderr, and the second it searches whatever the exit code is.  So a clean
run with one of the texts on stderr is MEMORY_LIMIT_EXCEEDED, and this is all that
stderr can change about its verdict (`verdict_closeSandbox`).  The runner on the host
does not look at stderr.
-/

namespace CodeArena.Engine

open CodeArena.Lib CodeArena.Lib.Utf

variable {activity activity₁ activity₂ : List Activity} {close close₁ close₂ : Close}

/-- The verdict on a clean run in the sandbox. -/
theorem verdict_closeSandbox (h : CleanRun activity close) (workspaceDir expected : JsString) :
    (judge (closeSandbox workspaceDir (capture activity) close) expected).verdict =
      if hasOomMarker (sanitizeOutput (stderrText activity) workspaceDir) then
        .memoryLimitExceeded
      else (evaluateOutput (sanitizeOutput (stdoutText activity) workspaceDir) expected).verdict := by
  obtain ⟨hc, hs, ht, ho⟩ := cleanRun_iff.mp h
  have hout : report workspaceDir (stdoutText activity) =
      sanitizeOutput (stdoutText activity) workspaceDir := by
    rw [report, h.truncate_stdoutText]
  have herr : report workspaceDir (stderrText activity) =
      sanitizeOutput (stderrText activity) workspaceDir := by
    rw [report, h.truncate_stderrText]
  cases hm : hasOomMarker (sanitizeOutput (stderrText activity) workspaceDir) with
  | true => simp [judge, closeSandbox, hout, herr, hc, ht, ho, hm]
  | false => simp [judge, closeSandbox, hout, herr, hc, hs, ht, ho, hm]

theorem evaluateOutput_ne_memoryLimitExceeded (actual expected : JsString) :
    (evaluateOutput actual expected).verdict ≠ .memoryLimitExceeded := by
  rw [evaluateOutput_verdict]
  split <;> exact Verdict.noConfusion

/-- **Stderr does not change the verdict of a clean run in the sandbox, unless it says
that memory ran out.**  Two clean runs of a prepared call with the same stdout get the
same verdict if and only if the text of stderr stands for a lack of memory in both of
them or in neither. -/
theorem verdict_independent_of_stderr {host : Host} {raw : Option RawRequest}
    {request : ExecutionRequest} {config : LanguageConfig} {dir : Path}
    (hp : Prepared host raw request config dir) (hmode : host.isLocalMode = false)
    {program₁ program₂ : Invocation → Launch}
    (h₁ : Runs (host.withProgram program₁) (runInvocation dir config request) activity₁ close₁)
    (h₂ : Runs (host.withProgram program₂) (runInvocation dir config request) activity₂ close₂)
    (hclean₁ : CleanRun activity₁ close₁) (hclean₂ : CleanRun activity₂ close₂)
    (hstdout : stdoutText activity₁ = stdoutText activity₂) :
    ∃ result₁ result₂,
      (execute (host.withProgram program₁) raw).outcome = .resolved result₁ ∧
      (execute (host.withProgram program₂) raw).outcome = .resolved result₂ ∧
      (result₁.verdict = result₂.verdict ↔
        hasOomMarker (sanitizeOutput (stderrText activity₁) dir.render) =
          hasOomMarker (sanitizeOutput (stderrText activity₂) dir.render)) := by
  refine ⟨_, _, (hp.withProgram program₁).outcome_of_runs h₁,
    (hp.withProgram program₂).outcome_of_runs h₂, ?_⟩
  have hrun : ∀ program, closeRun (host.withProgram program).isLocalMode = closeSandbox :=
    fun _ ↦ by rw [Host.withProgram, closeRun, hmode]; rfl
  have hne := evaluateOutput_ne_memoryLimitExceeded
    (sanitizeOutput (stdoutText activity₂) dir.render) request.expectedOutput
  rw [hrun, hrun, verdict_closeSandbox hclean₁, verdict_closeSandbox hclean₂, hstdout]
  cases hasOomMarker (sanitizeOutput (stderrText activity₁) dir.render) <;>
    cases hasOomMarker (sanitizeOutput (stderrText activity₂) dir.render) <;>
    simp [hne, hne.symm]

/-- A program that prints the answer. -/
def silent : List Activity := [.stdout (bytes "42\n")]

/-- The same program with a line on stderr. -/
def warning (line : String) : List Activity := [.stdout (bytes "42\n"), .stderr (bytes line)]

theorem cleanRun_silent : CleanRun silent ⟨some 0, none, 20⟩ :=
  ⟨rfl, rfl, by decide, by decide +kernel⟩

/-- A line on stderr that has nothing to do with memory. -/
theorem verdict_independent_of_stderr_warning :
    ∃ dir : Path, ∃ result₁ result₂,
      (execute (.sample false (exits silent)) (some (.sample .python (js "42")))).outcome =
        .resolved result₁ ∧
      (execute (.sample false (exits (warning "slow")))
        (some (.sample .python (js "42")))).outcome = .resolved result₂ ∧
      (result₁.verdict = result₂.verdict ↔
        hasOomMarker (sanitizeOutput (stderrText silent) dir.render) =
          hasOomMarker (sanitizeOutput (stderrText (warning "slow")) dir.render)) := by
  have h : (execute (.sample false (exits silent))
      (some (.sample .python (js "42")))).outcome =
        .resolved ⟨.accepted, js "42\n", [], some 20, []⟩ := by decide +kernel
  obtain ⟨request, config, dir, hp⟩ := prepared_of_judged h Verdict.noConfusion
  have hclean : CleanRun (warning "slow") ⟨some 0, none, 20⟩ :=
    ⟨rfl, rfl, by decide +kernel, by decide +kernel⟩
  exact ⟨dir, verdict_independent_of_stderr hp rfl ⟨.inr rfl, rfl⟩ ⟨.inr rfl, rfl⟩
    cleanRun_silent hclean (by decide +kernel)⟩

/-- **A line on stderr decides a verdict.**  Both programs print the answer and leave with
exit code zero; the second reports an exception it has caught. -/
theorem verdict_depends_on_stderr :
    CleanRun silent ⟨some 0, none, 20⟩ ∧
    CleanRun (warning "caught MemoryError\n") ⟨some 0, none, 20⟩ ∧
    stdoutText silent = stdoutText (warning "caught MemoryError\n") ∧
    (execute (.sample false (exits silent)) (some (.sample .python (js "42")))).outcome =
      .resolved ⟨.accepted, js "42\n", [], some 20, []⟩ ∧
    (execute (.sample false (exits (warning "caught MemoryError\n")))
      (some (.sample .python (js "42")))).outcome =
        .resolved ⟨.memoryLimitExceeded, js "42\n", js "caught MemoryError\n", some 20, []⟩ :=
  ⟨cleanRun_silent, ⟨rfl, rfl, by decide +kernel, by decide +kernel⟩, by decide +kernel,
    by decide +kernel, by decide +kernel⟩

end CodeArena.Engine
