import CodeArena.Engine.CleanRun
import CodeArena.Lib.Pieces

/-!
# How the pipe cuts the output

Both runners decode every chunk of stdout on its own and append the strings.  For valid
UTF-8 this is the decoding of the whole output if and only if no cut falls into a
character (`report_eq_iff`), so two runs that differ in nothing but the cuts can come
out with different verdicts.

A cut inside of a character cannot be made good by what follows: it adds U+FFFD and no
other code unit, while taking a path out of the text removes at least one that is not
U+FFFD, and cutting the text off leaves one that is too long.
-/

namespace CodeArena.Engine

open CodeArena.Lib CodeArena.Lib.Utf

/-- The chunks of stdout. -/
def stdoutChunks (activity : List Activity) : List (List UInt8) :=
  activity.filterMap fun
    | .stdout chunk => some chunk
    | _ => none

theorem stdoutText_eq (activity : List Activity) :
    stdoutText activity = utf16Encode (decodePieces (stdoutChunks activity)) := by
  induction activity with
  | nil => rfl
  | cons a activity ih =>
      have hcons : stdoutText (a :: activity) = stdoutText [a] ++ stdoutText activity :=
        stdoutText_append [a] activity
      rw [hcons, ih]
      cases a <;> simp [stdoutText, stdoutChunks, chunkText]

/-! ## One stream -/

theorem count_truncate_le (s : JsString) (u : CodeUnit) : (truncate s).count u ≤ s.count u := by
  unfold truncate
  split
  · exact (List.take_sublist _ _).count_le u
  · exact Nat.le_refl _

/-- A text that contains the path is reported with fewer slashes than it has. -/
theorem count_sanitizeOutput_lt {s : JsString} {dir : Path} (h : dir.render <:+: s) :
    (sanitizeOutput s dir.render).count 0x2F < s.count 0x2F := by
  have hslash := slash_mem_render dir
  unfold sanitizeOutput
  rw [if_neg (List.ne_nil_of_mem hslash)]
  exact Text.count_removeAll_lt hslash h

/-- **A marred text is not reported as the text.** -/
theorem report_marred {k : Nat} {cs ds : List Char} {dir : Path} (h : Marred k cs ds)
    (hk : k ≠ 0) (hlen : (utf16Encode cs).length < maxBufferBytes) :
    report dir.render (utf16Encode ds) ≠ utf16Encode cs := by
  intro heq
  by_cases hpath : dir.render <:+: truncate (utf16Encode ds)
  · have hlt : (utf16Encode cs).count 0x2F < (utf16Encode cs).count 0x2F :=
      calc (utf16Encode cs).count 0x2F
          = (sanitizeOutput (truncate (utf16Encode ds)) dir.render).count 0x2F := by
            rw [← heq, report]
        _ < (truncate (utf16Encode ds)).count 0x2F := count_sanitizeOutput_lt hpath
        _ ≤ (utf16Encode ds).count 0x2F := count_truncate_le _ _
        _ ≤ (utf16Encode cs).count 0x2F := h.count_le (by decide)
    exact Nat.lt_irrefl _ hlt
  · rw [report, sanitizeOutput_of_not_infix hpath] at heq
    by_cases hlong : maxBufferBytes < (utf16Encode ds).length
    · rw [truncate, if_pos hlong] at heq
      have hl := congrArg List.length heq
      rw [List.length_take, Nat.min_eq_left (Nat.le_of_lt hlong)] at hl
      omega
    · rw [truncate, if_neg hlong] at heq
      have hcount := h.count_replacement
      rw [heq] at hcount
      omega

/-- Aligned chunks are decoded to the text. -/
theorem stdoutText_of_aligned {activity : List Activity} {cs : List Char}
    (hbytes : (stdoutChunks activity).flatten = encode cs)
    (h : Aligned (stdoutChunks activity)) : stdoutText activity = utf16Encode cs := by
  obtain ⟨k, hm, hk⟩ := decode_pieces hbytes
  obtain rfl := hk.mp h
  rw [stdoutText_eq, hm.eq_of_zero]

/-- **The chunks of a text are reported as the text exactly when they are aligned.** -/
theorem report_eq_iff {activity : List Activity} {cs : List Char} {dir : Path}
    (hbytes : (stdoutChunks activity).flatten = encode cs)
    (hpath : ¬ dir.render <:+: utf16Encode cs)
    (hlen : (utf16Encode cs).length < maxBufferBytes) :
    report dir.render (stdoutText activity) = utf16Encode cs ↔
      Aligned (stdoutChunks activity) := by
  constructor
  · intro heq
    obtain ⟨k, hm, hk⟩ := decode_pieces hbytes
    rw [stdoutText_eq] at heq
    by_contra hal
    exact report_marred hm (mt hk.mpr hal) hlen heq
  · intro hal
    rw [stdoutText_of_aligned hbytes hal, report, truncate_of_le (Nat.le_of_lt hlen),
      sanitizeOutput_of_not_infix hpath]

/-! ## Two cuts of one output -/

/-- Two runs that differ in how their streams are cut into chunks, and in their runtime. -/
structure Recut (activity₁ activity₂ : List Activity) (close₁ close₂ : Close) : Prop where
  stdout : (stdoutChunks activity₁).flatten = (stdoutChunks activity₂).flatten
  stderr : stderrText activity₁ = stderrText activity₂
  timer : .timer ∈ activity₁ ↔ .timer ∈ activity₂
  code : close₁.code = close₂.code
  signal : close₁.signal = close₂.signal

variable {activity₁ activity₂ : List Activity} {close₁ close₂ : Close}

/-- What is captured is the texts and whether the timer fired. -/
theorem capture_congr (hout : stdoutText activity₁ = stdoutText activity₂)
    (herr : stderrText activity₁ = stderrText activity₂)
    (htimer : .timer ∈ activity₁ ↔ .timer ∈ activity₂) :
    capture activity₁ = capture activity₂ := by
  have ht : (capture activity₁).isTimedOut = (capture activity₂).isTimedOut := by
    rw [Bool.eq_iff_iff, capture_isTimedOut, capture_isTimedOut, htimer]
  have ho : (capture activity₁).isOutputLimit = (capture activity₂).isOutputLimit := by
    rw [Bool.eq_iff_iff, capture_isOutputLimit, capture_isOutputLimit, hout, herr]
  have ho' := capture_stdoutData activity₁
  have he' := capture_stderrData activity₁
  rw [hout, ← capture_stdoutData] at ho'
  rw [herr, ← capture_stderrData] at he'
  cases h₁ : capture activity₁
  cases h₂ : capture activity₂
  simp_all

/-- The runtime plays no part in a verdict. -/
theorem verdict_closeRun_congr {isLocalMode : Bool} {workspaceDir expected : JsString}
    {c : Captured} (hcode : close₁.code = close₂.code) (hsignal : close₁.signal = close₂.signal) :
    (judge (closeRun isLocalMode workspaceDir c close₁) expected).verdict =
      (judge (closeRun isLocalMode workspaceDir c close₂) expected).verdict := by
  cases isLocalMode <;>
    simp only [closeRun, closeProcess, closeSandbox, judge, hcode, hsignal,
      apply_ite ExecutionResult.verdict, if_true, if_false, Bool.false_eq_true]

/-- **The cuts do not matter if and only if they fall between characters.**  Take two
runs of a prepared call, in either mode, that write the same valid UTF-8 to stdout,
without the path of the workspace in it and with less than the limit altogether, and
differ in nothing but how it is cut.  Both runners resolve with the decoding of what was
written, and `execute` with the same verdict, exactly when no chunk of either run starts
inside of a character. -/
theorem cuts_between_characters {host : Host} {raw : Option RawRequest}
    {request : ExecutionRequest} {config : LanguageConfig} {dir : Path} {cs : List Char}
    (hp : Prepared host raw request config dir) {program₁ program₂ : Invocation → Launch}
    (h₁ : Runs (host.withProgram program₁) (runInvocation dir config request) activity₁ close₁)
    (h₂ : Runs (host.withProgram program₂) (runInvocation dir config request) activity₂ close₂)
    (hcut : Recut activity₁ activity₂ close₁ close₂)
    (hbytes : (stdoutChunks activity₁).flatten = encode cs)
    (hpath : ¬ dir.render <:+: utf16Encode cs)
    (hbelow : (utf16Encode cs).length + (stderrText activity₁).length < maxOutputBytes) :
    (∃ run₁ run₂ result₁ result₂,
      (run (host.withProgram program₁) (runInvocation dir config request)).outcome =
        .resolved run₁ ∧
      (run (host.withProgram program₂) (runInvocation dir config request)).outcome =
        .resolved run₂ ∧
      (execute (host.withProgram program₁) raw).outcome = .resolved result₁ ∧
      (execute (host.withProgram program₂) raw).outcome = .resolved result₂ ∧
      run₁.stdout = utf16Encode cs ∧ run₂.stdout = utf16Encode cs ∧
      result₁.verdict = result₂.verdict) ↔
    Aligned (stdoutChunks activity₁) ∧ Aligned (stdoutChunks activity₂) := by
  have hlen : (utf16Encode cs).length < maxBufferBytes :=
    Nat.lt_of_le_of_lt (Nat.le_add_right _ _) hbelow
  have hbytes₂ := hcut.stdout.symm.trans hbytes
  rw [← report_eq_iff hbytes hpath hlen, ← report_eq_iff hbytes₂ hpath hlen]
  constructor
  · rintro ⟨run₁, run₂, -, -, hr₁, hr₂, -, -, hout₁, hout₂, -⟩
    rw [h₁.outcome_run] at hr₁
    rw [h₂.outcome_run] at hr₂
    cases hr₁
    cases hr₂
    rw [closeRun_stdout, capture_stdoutData] at hout₁ hout₂
    exact ⟨hout₁, hout₂⟩
  · rintro ⟨hout₁, hout₂⟩
    have htext : stdoutText activity₁ = stdoutText activity₂ :=
      (stdoutText_of_aligned hbytes ((report_eq_iff hbytes hpath hlen).mp hout₁)).trans
        (stdoutText_of_aligned hbytes₂ ((report_eq_iff hbytes₂ hpath hlen).mp hout₂)).symm
    refine ⟨_, _, _, _, h₁.outcome_run, h₂.outcome_run, (hp.withProgram _).outcome_of_runs h₁,
      (hp.withProgram _).outcome_of_runs h₂, ?_, ?_, ?_⟩
    · rw [closeRun_stdout, capture_stdoutData]
      exact hout₁
    · rw [closeRun_stdout, capture_stdoutData]
      exact hout₂
    · rw [capture_congr htext hcut.stderr hcut.timer]
      exact verdict_closeRun_congr hcut.code hcut.signal

/-- One character in one chunk. -/
def whole : List Activity := [.stdout [0xC3, 0xA9]]

/-- The same character, the pipe having cut it in two. -/
def halves : List Activity := [.stdout [0xC3], .stdout [0xA9]]

theorem recut_halves : Recut whole halves ⟨some 0, none, 20⟩ ⟨some 0, none, 20⟩ :=
  ⟨rfl, rfl, by decide, rfl, rfl⟩

/-- The theorem on that character, in the sandbox. -/
theorem cuts_between_characters_halves :
    ∃ request config dir,
      (∃ run₁ run₂ result₁ result₂,
        (run (.sample false (exits whole)) (runInvocation dir config request)).outcome =
          .resolved run₁ ∧
        (run (.sample false (exits halves)) (runInvocation dir config request)).outcome =
          .resolved run₂ ∧
        (execute (.sample false (exits whole)) (some (.sample .python (js "é")))).outcome =
          .resolved result₁ ∧
        (execute (.sample false (exits halves)) (some (.sample .python (js "é")))).outcome =
          .resolved result₂ ∧
        run₁.stdout = utf16Encode ['é'] ∧ run₂.stdout = utf16Encode ['é'] ∧
        result₁.verdict = result₂.verdict) ↔
      Aligned (stdoutChunks whole) ∧ Aligned (stdoutChunks halves) := by
  have h : (execute (.sample false (exits whole))
      (some (.sample .python (js "é")))).outcome =
        .resolved ⟨.accepted, [0xE9], [], some 20, []⟩ := by decide +kernel
  obtain ⟨request, config, dir, hp⟩ := prepared_of_judged h Verdict.noConfusion
  have hpath : ¬ dir.render <:+: utf16Encode ['é'] := fun hin ↦
    absurd (hin.subset (slash_mem_render dir)) (by decide)
  exact ⟨request, config, dir, cuts_between_characters hp ⟨.inr rfl, rfl⟩ ⟨.inr rfl, rfl⟩
    recut_halves (by decide) hpath (by decide +kernel)⟩

/-- **A cut changes a verdict.**  The program prints the answer in both runs. -/
theorem cut_changes_verdict :
    Recut whole halves ⟨some 0, none, 20⟩ ⟨some 0, none, 20⟩ ∧
    (stdoutChunks whole).flatten = encode ['é'] ∧
    (execute (.sample false (exits whole)) (some (.sample .python (js "é")))).outcome =
      .resolved ⟨.accepted, [0xE9], [], some 20, []⟩ ∧
    (execute (.sample false (exits halves)) (some (.sample .python (js "é")))).outcome =
      .resolved ⟨.wrongAnswer, [0xFFFD, 0xFFFD], [], some 20, []⟩ ∧
    (execute (.sample true (exits whole)) (some (.sample .python (js "é")))).outcome =
      .resolved ⟨.accepted, [0xE9], [], some 20, []⟩ ∧
    (execute (.sample true (exits halves)) (some (.sample .python (js "é")))).outcome =
      .resolved ⟨.wrongAnswer, [0xFFFD, 0xFFFD], [], some 20, []⟩ :=
  ⟨recut_halves, by decide, by decide +kernel, by decide +kernel, by decide +kernel,
    by decide +kernel⟩

end CodeArena.Engine
