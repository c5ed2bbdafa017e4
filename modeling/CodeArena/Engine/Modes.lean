import CodeArena.Engine.CleanRun

/-!
# The two modes

`execute` runs a program on the host in local mode and in a container otherwise.  The
two runners capture a run alike and differ in one thing: the one in the sandbox looks for
a lack of memory, in the exit code and in the text of stderr, while on the host there is
no limit to memory and the flag is never set.

So the modes agree on every run that does not look like a lack of memory
(`modes_agree`), and a program that fails and looks like one is RUNTIME_ERROR on the host
and MEMORY_LIMIT_EXCEEDED in the sandbox.
-/

namespace CodeArena.Engine

open CodeArena.Lib CodeArena.Lib.Utf

/-- A run that writes these texts and leaves with this exit code, without a signal and
before the timer fires. -/
structure Behaves (stdout stderr : JsString) (code : Option Nat) (activity : List Activity)
    (close : Close) : Prop where
  stdout : stdoutText activity = stdout
  stderr : stderrText activity = stderr
  code : close.code = code
  signal : close.signal = none
  not_timedOut : .timer ∉ activity

namespace Behaves

variable {stdout stderr workspaceDir : JsString} {code : Option Nat}
  {activity : List Activity} {close : Close}

theorem isTimedOut (h : Behaves stdout stderr code activity close) :
    (capture activity).isTimedOut = false := by
  apply Bool.eq_false_iff.mpr
  intro ht
  exact h.not_timedOut ((capture_isTimedOut activity).mp ht)

theorem isOutputLimit (h : Behaves stdout stderr code activity close)
    (hbelow : stdout.length + stderr.length < maxOutputBytes) :
    (capture activity).isOutputLimit = false := by
  apply Bool.eq_false_iff.mpr
  intro ho
  have hle := (capture_isOutputLimit activity).mp ho
  rw [h.stdout, h.stderr] at hle
  exact Nat.not_le_of_lt hbelow hle

/-- A text below the limit that does not contain the path is reported as it is. -/
theorem report_eq {text : JsString} (hlen : text.length < maxOutputBytes)
    (hpath : ¬ workspaceDir <:+: text) : report workspaceDir text = text := by
  rw [report, truncate_of_le (Nat.le_of_lt hlen), sanitizeOutput_of_not_infix hpath]

/-- The verdict on the host. -/
theorem verdict_closeProcess (h : Behaves stdout stderr code activity close)
    (hbelow : stdout.length + stderr.length < maxOutputBytes)
    (hout : ¬ workspaceDir <:+: stdout) (expected : JsString) :
    (judge (closeProcess workspaceDir (capture activity) close) expected).verdict =
      if code = some 0 then (evaluateOutput stdout expected).verdict else .runtimeError := by
  have hreport : report workspaceDir stdout = stdout :=
    report_eq (Nat.lt_of_le_of_lt (Nat.le_add_right _ _) hbelow) hout
  by_cases hc : code = some 0
  · simp [judge, closeProcess, h.stdout, hreport, h.code, h.signal, h.isTimedOut,
      h.isOutputLimit hbelow, hc]
  · simp [judge, closeProcess, h.code, h.isTimedOut, h.isOutputLimit hbelow, hc]

/-- The verdict in the sandbox. -/
theorem verdict_closeSandbox (h : Behaves stdout stderr code activity close)
    (hbelow : stdout.length + stderr.length < maxOutputBytes)
    (hout : ¬ workspaceDir <:+: stdout) (herr : ¬ workspaceDir <:+: stderr)
    (expected : JsString) :
    (judge (closeSandbox workspaceDir (capture activity) close) expected).verdict =
      if code = some 137 ∨ hasOomMarker stderr = true then .memoryLimitExceeded
      else if code = some 0 then (evaluateOutput stdout expected).verdict
      else .runtimeError := by
  have hreport : report workspaceDir stdout = stdout :=
    report_eq (Nat.lt_of_le_of_lt (Nat.le_add_right _ _) hbelow) hout
  have hreport' : report workspaceDir stderr = stderr :=
    report_eq (Nat.lt_of_le_of_lt (Nat.le_add_left _ _) hbelow) herr
  by_cases hoom : code = some 137 ∨ hasOomMarker stderr = true
  · simp [judge, closeSandbox, h.stderr, hreport', h.code, h.isTimedOut,
      h.isOutputLimit hbelow, hoom]
  · rw [if_neg hoom]
    obtain ⟨hcode, hmarker⟩ := not_or.mp hoom
    by_cases hc : code = some 0
    · simp [judge, closeSandbox, h.stdout, h.stderr, hreport, hreport', h.code, h.signal,
        h.isTimedOut, h.isOutputLimit hbelow, hc, hmarker]
    · simp [judge, closeSandbox, h.stderr, hreport', h.code, h.isTimedOut,
        h.isOutputLimit hbelow, hc, hcode, hmarker]

end Behaves

/-- **The modes agree on every run that does not look like a lack of memory.**  Two calls
for the same request, one in either mode, got as far as the run, and the program behaves
alike in both: then both come to the same verdict if the exit code is not 137 and stderr
has none of the texts that stand for a lack of memory.  A program that fails and looks
like a lack of memory is RUNTIME_ERROR on the host and MEMORY_LIMIT_EXCEEDED in the
sandbox. -/
theorem modes_agree {host₁ host₂ : Host} {raw : Option RawRequest}
    {request : ExecutionRequest} {config : LanguageConfig} {dir₁ dir₂ : Path}
    (hp₁ : Prepared host₁ raw request config dir₁) (hp₂ : Prepared host₂ raw request config dir₂)
    (hmode₁ : host₁.isLocalMode = true) (hmode₂ : host₂.isLocalMode = false)
    {activity₁ activity₂ : List Activity} {close₁ close₂ : Close}
    (h₁ : Runs host₁ (runInvocation dir₁ config request) activity₁ close₁)
    (h₂ : Runs host₂ (runInvocation dir₂ config request) activity₂ close₂)
    {stdout stderr : JsString} {code : Option Nat}
    (hb₁ : Behaves stdout stderr code activity₁ close₁)
    (hb₂ : Behaves stdout stderr code activity₂ close₂)
    (hbelow : stdout.length + stderr.length < maxOutputBytes)
    (hpath₁ : ¬ dir₁.render <:+: stdout) (hpath₂ : ¬ dir₂.render <:+: stdout)
    (hpath₃ : ¬ dir₂.render <:+: stderr) :
    ∃ result₁ result₂, (execute host₁ raw).outcome = .resolved result₁ ∧
      (execute host₂ raw).outcome = .resolved result₂ ∧
      (code ≠ some 137 → hasOomMarker stderr = false → result₁.verdict = result₂.verdict) ∧
      (code = some 137 ∨ (code ≠ some 0 ∧ hasOomMarker stderr = true) →
        result₁.verdict = .runtimeError ∧ result₂.verdict = .memoryLimitExceeded) := by
  refine ⟨_, _, hp₁.outcome_of_runs h₁, hp₂.outcome_of_runs h₂, ?_⟩
  rw [hmode₁, hmode₂]
  have hlocal := hb₁.verdict_closeProcess hbelow hpath₁ request.expectedOutput
  have hdocker := hb₂.verdict_closeSandbox hbelow hpath₂ hpath₃ request.expectedOutput
  rw [closeRun, closeRun, if_pos rfl, if_neg Bool.false_ne_true, hlocal, hdocker]
  constructor
  · intro hcode hmarker
    have hoom : ¬ (code = some 137 ∨ hasOomMarker stderr = true) := by
      rintro (hc | hm)
      · exact hcode hc
      · rw [hmarker] at hm
        cases hm
    rw [if_neg hoom]
  · intro hfails
    have hcode : code ≠ some 0 := by
      rcases hfails with rfl | ⟨hc, -⟩
      · decide
      · exact hc
    have hoom : code = some 137 ∨ hasOomMarker stderr = true := hfails.imp_right And.right
    rw [if_neg hcode, if_pos hoom]
    exact ⟨rfl, rfl⟩

/-- A program that prints the answer and leaves with the given exit code. -/
def leaves (code : Nat) (_ : Invocation) : Launch :=
  ⟨true, .spawned [.stdout (bytes "42\n")] (.close ⟨some code, none, 20⟩)⟩

theorem behaves_leaves (code : Nat) :
    Behaves (js "42\n") [] (some code) [.stdout (bytes "42\n")] ⟨some code, none, 20⟩ :=
  ⟨by decide, rfl, rfl, rfl, by decide⟩

/-- A program that leaves with exit code zero, in both modes. -/
theorem modes_agree_accepted : ∃ result₁ result₂,
    (execute (.sample true (leaves 0)) (some (.sample .python (js "42")))).outcome =
      .resolved result₁ ∧
    (execute (.sample false (leaves 0)) (some (.sample .python (js "42")))).outcome =
      .resolved result₂ ∧
    result₁.verdict = result₂.verdict := by
  have h : (execute (.sample false (leaves 0)) (some (.sample .python (js "42")))).outcome =
      .resolved ⟨.accepted, js "42\n", [], some 20, []⟩ := by decide +kernel
  obtain ⟨request, config, dir, hp₂⟩ := prepared_of_judged h Verdict.noConfusion
  have h' : (execute (.sample true (leaves 0)) (some (.sample .python (js "42")))).outcome =
      .resolved ⟨.accepted, js "42\n", [], some 20, []⟩ := by decide +kernel
  obtain ⟨request', config', dir', hp₁⟩ := prepared_of_judged h' Verdict.noConfusion
  obtain rfl : request = request' := Except.ok.inj (hp₂.validated.symm.trans hp₁.validated)
  obtain rfl : config = config' := Except.ok.inj (hp₂.resolved.symm.trans hp₁.resolved)
  have hpath : ∀ dir : Path, ¬ dir.render <:+: js "42\n" := fun dir hin ↦
    absurd (hin.subset (slash_mem_render dir)) (by decide)
  obtain ⟨result₁, result₂, hr₁, hr₂, hagree, -⟩ := modes_agree hp₁ hp₂ rfl rfl ⟨.inl rfl, rfl⟩
    ⟨.inr rfl, rfl⟩ (behaves_leaves 0) (behaves_leaves 0) (by decide) (hpath _) (hpath _)
    (fun hin ↦ absurd (hin.subset (slash_mem_render dir)) List.not_mem_nil)
  exact ⟨result₁, result₂, hr₁, hr₂, hagree (by decide) (by decide +kernel)⟩

/-- **The modes disagree about exit code 137.**  The program prints the answer and leaves
with this code by itself. -/
theorem modes_disagree :
    Behaves (js "42\n") [] (some 137) [.stdout (bytes "42\n")] ⟨some 137, none, 20⟩ ∧
    (execute (.sample true (leaves 137)) (some (.sample .python (js "42")))).outcome =
      .resolved ⟨.runtimeError, js "42\n", js "Process exited with code 137", some 20, []⟩ ∧
    (execute (.sample false (leaves 137)) (some (.sample .python (js "42")))).outcome =
      .resolved ⟨.memoryLimitExceeded, js "42\n", js "Memory limit exceeded", some 20, []⟩ :=
  ⟨behaves_leaves 137, by decide +kernel, by decide +kernel⟩

end CodeArena.Engine
