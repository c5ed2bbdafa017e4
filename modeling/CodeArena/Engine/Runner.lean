import CodeArena.Engine.Output

/-!
# Running a process

The two runners, `runProcess` on the host and `runInDockerSandbox` in a container, and
the compiler on the host.  Each starts a child process, listens to it and settles one
promise when it is over.

A child is given by its life: the chunks it writes to its two streams and the moment
the timer fires, in the order their handlers run, and how it ends.  Whichever comes
first of `'error'` and `'close'` ends it, for either settles the promise and clears the
timer, and no handler that runs after it has anything left to change.

Every handler of a chunk decodes the chunk on its own.  The data handlers are those of
both runners (`Captured`), while the compiler on the host has its own.

## Honest boundary

The runtime is read off the clock and is part of how a child ends.  What the engine
does to end a child or to remove a container has no result that it reads, so it is left
out, and so are the flags of the `docker run` command: they decide what the child does,
and this is given.
-/

namespace CodeArena.Engine

open CodeArena.Lib CodeArena.Lib.Utf

/-! ## Children -/

/-- What a child is started with. -/
structure Invocation where
  workspaceDir : JsString
  command : JsString
  args : List JsString
  input : JsString
  timeoutMs : Nat
deriving DecidableEq, Repr

/-- An error of Node.js itself. -/
structure SystemError where
  code : String
  message : JsString
deriving DecidableEq, Repr

/-- What happens while a child lives. -/
inductive Activity where
  /-- A `'data'` event of stdout. -/
  | stdout (chunk : List UInt8)
  /-- A `'data'` event of stderr. -/
  | stderr (chunk : List UInt8)
  /-- The timer fires. -/
  | timer
deriving DecidableEq, Repr

/-- A `'close'` event, with the runtime measured in its handler. -/
structure Close where
  code : Option Nat
  signal : Option JsString
  runtimeMs : Nat
deriving DecidableEq, Repr

/-- How a child ends. -/
inductive Ending where
  /-- It never does. -/
  | never
  /-- An `'error'` event. -/
  | error (error : SystemError)
  /-- A `'close'` event. -/
  | close (close : Close)
deriving DecidableEq, Repr

/-- A child, or the failure to start one. -/
inductive Child where
  | notSpawned (error : SystemError)
  | spawned (activity : List Activity) (ending : Ending)
deriving DecidableEq, Repr

/-- The handlers of a child. -/
structure Handlers (σ α : Type) where
  /-- `spawn` threw. -/
  onSpawnError : SystemError → EngineError
  /-- The variables the handlers share. -/
  start : σ
  onActivity : σ → Activity → σ
  onError : SystemError → EngineError
  onClose : σ → Close → α

/-- What the promise comes to. -/
def Handlers.outcome {σ α : Type} (h : Handlers σ α) : Child → Outcome EngineError α
  | .notSpawned e => .rejected (h.onSpawnError e)
  | .spawned _ .never => .pending
  | .spawned _ (.error e) => .rejected (h.onError e)
  | .spawned activity (.close close) =>
    .resolved (h.onClose (activity.foldl h.onActivity h.start) close)

theorem Handlers.outcome_eq_resolved {σ α : Type} {h : Handlers σ α} {child : Child} {a : α} :
    h.outcome child = .resolved a ↔ ∃ activity close,
      child = .spawned activity (.close close) ∧
        a = h.onClose (activity.foldl h.onActivity h.start) close := by
  constructor
  · intro hr
    match child, hr with
    | .spawned activity (.close close), hr => cases hr; exact ⟨activity, close, rfl, rfl⟩
  · rintro ⟨activity, close, rfl, rfl⟩
    rfl

/-! ## What is captured -/

/-- `chunk.toString()`. -/
def chunkText (chunk : List UInt8) : JsString := utf16Encode (decode chunk)

/-- The variables of a runner. -/
structure Captured where
  stdoutData : JsString
  stderrData : JsString
  isTimedOut : Bool
  isOutputLimit : Bool
deriving DecidableEq, Repr

namespace Captured

/-- The variables before the first event. -/
def start : Captured := ⟨[], [], false, false⟩

/-- The length both data handlers compare with the limit. -/
def total (c : Captured) : Nat := c.stdoutData.length + c.stderrData.length

/-- The check at the end of both data handlers. -/
def measure (c : Captured) : Captured :=
  if maxOutputBytes ≤ c.total then { c with isOutputLimit := true } else c

/-- The data handlers and the timer. -/
def on (c : Captured) : Activity → Captured
  | .stdout chunk => measure { c with stdoutData := c.stdoutData ++ chunkText chunk }
  | .stderr chunk => measure { c with stderrData := c.stderrData ++ chunkText chunk }
  | .timer => { c with isTimedOut := true }

@[simp] theorem measure_stdoutData (c : Captured) : c.measure.stdoutData = c.stdoutData := by
  unfold measure; split <;> rfl

@[simp] theorem measure_stderrData (c : Captured) : c.measure.stderrData = c.stderrData := by
  unfold measure; split <;> rfl

@[simp] theorem measure_isTimedOut (c : Captured) : c.measure.isTimedOut = c.isTimedOut := by
  unfold measure; split <;> rfl

/-- The flag of the output limit says that the limit is reached. -/
def Measured (c : Captured) : Prop := c.isOutputLimit = true ↔ maxOutputBytes ≤ c.total

theorem measured_start : start.Measured := by
  simp [Measured, start, total, maxOutputBytes]

theorem measured_measure {c : Captured} (h : c.isOutputLimit = true → maxOutputBytes ≤ c.total) :
    c.measure.Measured := by
  unfold measure
  split
  · rename_i hle
    exact iff_of_true rfl hle
  · rename_i hle
    exact iff_of_false (fun ht ↦ hle (h ht)) hle

theorem Measured.on {c : Captured} (h : c.Measured) (a : Activity) : (c.on a).Measured := by
  cases a with
  | stdout chunk =>
      refine measured_measure fun ht ↦ Nat.le_trans (h.mp ht) ?_
      simp only [total, List.length_append]
      omega
  | stderr chunk =>
      refine measured_measure fun ht ↦ Nat.le_trans (h.mp ht) ?_
      simp only [total, List.length_append]
      omega
  | timer => exact h

end Captured

/-- The variables of a runner when the child ends. -/
def capture (activity : List Activity) : Captured := activity.foldl Captured.on .start

/-- The text of the chunks of stdout, one after another. -/
def stdoutText (activity : List Activity) : JsString :=
  activity.flatMap fun
    | .stdout chunk => chunkText chunk
    | _ => []

/-- The text of the chunks of stderr, one after another. -/
def stderrText (activity : List Activity) : JsString :=
  activity.flatMap fun
    | .stderr chunk => chunkText chunk
    | _ => []

@[simp] theorem stdoutText_append (as bs : List Activity) :
    stdoutText (as ++ bs) = stdoutText as ++ stdoutText bs :=
  List.flatMap_append

@[simp] theorem stderrText_append (as bs : List Activity) :
    stderrText (as ++ bs) = stderrText as ++ stderrText bs :=
  List.flatMap_append

theorem foldl_on_stdoutData (activity : List Activity) (c : Captured) :
    (activity.foldl Captured.on c).stdoutData = c.stdoutData ++ stdoutText activity := by
  induction activity generalizing c with
  | nil => simp [stdoutText]
  | cons a activity ih =>
      rw [List.foldl_cons, ih]
      cases a <;> simp [Captured.on, stdoutText]

theorem foldl_on_stderrData (activity : List Activity) (c : Captured) :
    (activity.foldl Captured.on c).stderrData = c.stderrData ++ stderrText activity := by
  induction activity generalizing c with
  | nil => simp [stderrText]
  | cons a activity ih =>
      rw [List.foldl_cons, ih]
      cases a <;> simp [Captured.on, stderrText]

theorem foldl_on_isTimedOut (activity : List Activity) (c : Captured) :
    (activity.foldl Captured.on c).isTimedOut = (c.isTimedOut || activity.contains .timer) := by
  induction activity generalizing c with
  | nil => simp
  | cons a activity ih =>
      rw [List.foldl_cons, ih]
      cases a <;> simp [Captured.on]

theorem foldl_on_measured (activity : List Activity) {c : Captured} (h : c.Measured) :
    (activity.foldl Captured.on c).Measured := by
  induction activity generalizing c with
  | nil => exact h
  | cons a activity ih => exact ih (h.on a)

@[simp] theorem capture_stdoutData (activity : List Activity) :
    (capture activity).stdoutData = stdoutText activity :=
  foldl_on_stdoutData activity .start

@[simp] theorem capture_stderrData (activity : List Activity) :
    (capture activity).stderrData = stderrText activity :=
  foldl_on_stderrData activity .start

/-- The timer's flag is set exactly when the timer fired. -/
theorem capture_isTimedOut (activity : List Activity) :
    (capture activity).isTimedOut = true ↔ .timer ∈ activity := by
  rw [capture, foldl_on_isTimedOut]
  simp [Captured.start]

/-- The flag of the output limit is set exactly when the two streams together reach the
limit. -/
theorem capture_isOutputLimit (activity : List Activity) :
    (capture activity).isOutputLimit = true ↔
      maxOutputBytes ≤ (stdoutText activity).length + (stderrText activity).length := by
  have h := foldl_on_measured activity Captured.measured_start
  rwa [Captured.Measured, Captured.total, ← capture, capture_stdoutData, capture_stderrData] at h

/-- What is kept of a stream. -/
def truncate (s : JsString) : JsString :=
  if maxBufferBytes < s.length then s.take maxBufferBytes else s

theorem truncate_of_le {s : JsString} (h : s.length ≤ maxBufferBytes) : truncate s = s :=
  if_neg (Nat.not_lt.mpr h)

/-- A stream as a runner reports it. -/
def report (workspaceDir data : JsString) : JsString :=
  sanitizeOutput (truncate data) workspaceDir

/-! ## The runners -/

/-- What a runner resolves with.  `runProcess` sets neither `isOom` nor
`isProcessLimit`, and a field that is not set is read as false. -/
structure RunResult where
  success : Bool
  exitCode : Option Nat
  signal : Option JsString
  stdout : JsString
  stderr : JsString
  runtimeMs : Nat
  isTimedOut : Bool
  isOom : Bool
  isOutputLimit : Bool
  isProcessLimit : Bool
deriving DecidableEq, Repr

/-- The `'close'` handler of `runProcess`. -/
def closeProcess (workspaceDir : JsString) (c : Captured) (close : Close) : RunResult where
  success := close.code = some 0 && close.signal = none && !c.isTimedOut && !c.isOutputLimit
  exitCode := close.code
  signal := close.signal
  stdout := report workspaceDir c.stdoutData
  stderr := report workspaceDir c.stderrData
  runtimeMs := close.runtimeMs
  isTimedOut := c.isTimedOut
  isOom := false
  isOutputLimit := c.isOutputLimit
  isProcessLimit := false

/-- `// Detect OOM`: what is searched for in stderr. -/
def hasOomMarker (stderr : JsString) : Bool :=
  Text.includes stderr (js "bad_alloc") ||
  Text.includes stderr (js "MemoryError") ||
  Text.includes stderr (js "out of memory") ||
  Text.includes stderr (js "JavaScript heap out of memory")

/-- The `'close'` handler of `runInDockerSandbox`. -/
def closeSandbox (workspaceDir : JsString) (c : Captured) (close : Close) : RunResult :=
  let stdout := report workspaceDir c.stdoutData
  let stderr := report workspaceDir c.stderrData
  let isOom := (close.code = some 137 && !c.isTimedOut && !c.isOutputLimit) || hasOomMarker stderr
  { success :=
      close.code = some 0 && close.signal = none && !c.isTimedOut && !c.isOutputLimit && !isOom
    exitCode := close.code
    signal := close.signal
    stdout
    stderr
    runtimeMs := close.runtimeMs
    isTimedOut := c.isTimedOut
    isOom
    isOutputLimit := c.isOutputLimit
    isProcessLimit :=
      Text.includes stderr (js "Resource temporarily unavailable") ||
      Text.includes stderr (js "EAGAIN") ||
      (Text.includes stderr (js "Cannot allocate memory") && !isOom) }

/-- The handlers of `runProcess`. -/
def processHandlers (workspaceDir : JsString) : Handlers Captured RunResult where
  onSpawnError e := executionEngineError (js "Failed to spawn process: " ++ e.message)
  start := .start
  onActivity := .on
  onError e := executionEngineError (js "Process execution error: " ++ e.message)
  onClose := closeProcess workspaceDir

/-- The handlers of `runInDockerSandbox`. -/
def sandboxHandlers (workspaceDir : JsString) : Handlers Captured RunResult where
  onSpawnError e := executionEngineError (js "Failed to spawn Docker sandbox: " ++ e.message)
  start := .start
  onActivity := .on
  onError e := executionEngineError (js "Docker sandbox process error: " ++ e.message)
  onClose := closeSandbox workspaceDir

/-- What `execute` does to the world outside of it. -/
inductive Effect where
  /-- `mkdtemp` made a directory. -/
  | mkdtemp (dir : JsString)
  /-- A source file is written. -/
  | writeFile (dir filename sourceCode : JsString)
  /-- A process is started on the host. -/
  | spawnProcess (invocation : Invocation)
  /-- A process is started in a container. -/
  | spawnContainer (invocation : Invocation)
  /-- `cleanupWorkspace` is called. -/
  | cleanupWorkspace (dir : JsString)
  /-- A symbolic link is removed. -/
  | unlink (dir : JsString)
  /-- A directory is removed with all it contains. -/
  | rm (dir : JsString)
deriving DecidableEq, Repr

/-- A call inside of the engine. -/
abbrev Call := Async Effect EngineError

/-- How a call of a runner finds the world: what its own availability check answers,
which only `runInDockerSandbox` makes, and the child it starts. -/
structure Launch where
  dockerAvailable : Bool
  child : Child
deriving DecidableEq, Repr

/-- `runProcess`. -/
def runProcess (host : Invocation → Launch) (invocation : Invocation) : Call RunResult :=
  ⟨[.spawnProcess invocation],
    (processHandlers invocation.workspaceDir).outcome (host invocation).child⟩

/-- `runInDockerSandbox`. -/
def runInDockerSandbox (host : Invocation → Launch) (invocation : Invocation) :
    Call RunResult :=
  if (host invocation).dockerAvailable then
    ⟨[.spawnContainer invocation],
      (sandboxHandlers invocation.workspaceDir).outcome (host invocation).child⟩
  else .throw executionUnavailable

/-- `runProcess` resolves when its child closes. -/
theorem runProcess_eq_resolved {host : Invocation → Launch} {invocation : Invocation}
    {r : RunResult} :
    (runProcess host invocation).outcome = .resolved r ↔
      ∃ activity close, (host invocation).child = .spawned activity (.close close) ∧
        r = closeProcess invocation.workspaceDir (capture activity) close :=
  Handlers.outcome_eq_resolved

/-- `runInDockerSandbox` resolves when its check passed and its child closes. -/
theorem runInDockerSandbox_eq_resolved {host : Invocation → Launch} {invocation : Invocation}
    {r : RunResult} :
    (runInDockerSandbox host invocation).outcome = .resolved r ↔
      (host invocation).dockerAvailable = true ∧
        ∃ activity close, (host invocation).child = .spawned activity (.close close) ∧
          r = closeSandbox invocation.workspaceDir (capture activity) close := by
  unfold runInDockerSandbox
  split
  · rename_i h
    exact Handlers.outcome_eq_resolved.trans (and_iff_right h).symm
  · rename_i h
    simp [h]

/-! ## The compiler on the host -/

/-- What `execute` reads of a compilation. -/
structure CompileResult where
  success : Bool
  stderr : JsString
  stdout : JsString
  exitCode : Option Nat
deriving DecidableEq, Repr

/-- The variables of `compileCpp`. -/
structure CompilerOutput where
  stdoutData : JsString
  stderrData : JsString
  isTimedOut : Bool
deriving DecidableEq, Repr

/-- The data handlers and the timer of `compileCpp`: a stream is read until its buffer is
full. -/
def CompilerOutput.on (c : CompilerOutput) : Activity → CompilerOutput
  | .stdout chunk =>
    if c.stdoutData.length < maxBufferBytes then
      { c with stdoutData := c.stdoutData ++ chunkText chunk }
    else c
  | .stderr chunk =>
    if c.stderrData.length < maxBufferBytes then
      { c with stderrData := c.stderrData ++ chunkText chunk }
    else c
  | .timer => { c with isTimedOut := true }

/-- `${code}`. -/
def codeText : Option Nat → JsString
  | some n => js (toString n)
  | none => js "null"

/-- `s || other`. -/
def orElse (s other : JsString) : JsString := if s = [] then other else s

/-- The `'close'` handler of `compileCpp`. -/
def closeCompiler (workspaceDir : JsString) (c : CompilerOutput) (close : Close) :
    CompileResult :=
  let stderr := sanitizeOutput c.stderrData workspaceDir
  let stdout := sanitizeOutput c.stdoutData workspaceDir
  if c.isTimedOut then
    { success := false, stderr := js "Compilation timed out.", stdout, exitCode := close.code }
  else if close.code ≠ some 0 then
    { success := false
      stderr := orElse stderr (js "Compilation failed with exit code " ++ codeText close.code)
      stdout
      exitCode := close.code }
  else { success := true, stderr, stdout, exitCode := some 0 }

/-- The handlers of `compileCpp`. -/
def compilerHandlers (workspaceDir compiler : JsString) :
    Handlers CompilerOutput CompileResult where
  onSpawnError e := executionEngineError (js "Failed to start compiler: " ++ e.message)
  start := ⟨[], [], false⟩
  onActivity := .on
  onError e :=
    if e.code = "ENOENT" then
      executionEngineError (js "Compiler '" ++ compiler ++ js "' is not available on this system.")
    else executionEngineError (js "Compilation process error: " ++ e.message)
  onClose := closeCompiler workspaceDir

/-- `compileCpp`. -/
def compileCpp (host : Invocation → Launch) (invocation : Invocation) : Call CompileResult :=
  ⟨[.spawnProcess invocation],
    (compilerHandlers invocation.workspaceDir invocation.command).outcome (host invocation).child⟩

theorem foldl_compiler_isTimedOut (activity : List Activity) (c : CompilerOutput) :
    (activity.foldl CompilerOutput.on c).isTimedOut =
      (c.isTimedOut || activity.contains .timer) := by
  induction activity generalizing c with
  | nil => simp
  | cons a activity ih =>
      rw [List.foldl_cons, ih]
      cases a with
      | stdout chunk => by_cases h : c.stdoutData.length < maxBufferBytes <;>
          simp [CompilerOutput.on, h]
      | stderr chunk => by_cases h : c.stderrData.length < maxBufferBytes <;>
          simp [CompilerOutput.on, h]
      | timer => simp [CompilerOutput.on]

/-- The compiler succeeds when it leaves with exit code zero before the timer fires. -/
theorem closeCompiler_success {workspaceDir : JsString} {c : CompilerOutput} {close : Close} :
    (closeCompiler workspaceDir c close).success = true ↔
      c.isTimedOut = false ∧ close.code = some 0 := by
  unfold closeCompiler
  by_cases ht : c.isTimedOut = true
  · simp [ht]
  by_cases hc : close.code = some 0
  · simp [ht, hc]
  · simp [ht, hc]

end CodeArena.Engine
