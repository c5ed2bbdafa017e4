import CodeArena.Lib.Machine
import CodeArena.Observability.Metrics
import CodeArena.Submissions.System
import Mathlib.Logic.Function.Basic

/-!
# A worker process and its metrics

The calls of `processSubmission` in one worker process, on any submissions and any number of
them at a time, and the metrics that they record into.  A call is an `Attempt` with the
local variables that its metrics are recorded from.

Metrics are recorded where the handler goes on from an `await`: once the update of
`execution.completedAt` is through, and at the start of the `catch` block.

Everyone else may create submissions and change them at any time.  Nobody changes the
language of a submission, and nobody deletes one.

## Honest boundary

The durations of the jobs and the texts of the log are left out.  A process that crashes
loses its metrics, so a handler does not crash here.
-/

namespace CodeArena.Workers

open CodeArena.Lib CodeArena.Submissions CodeArena.Observability

/-- A verdict as it is stored. -/
def verdictText : Submissions.Verdict → Text
  | .pending => "PENDING".toList
  | .accepted => "ACCEPTED".toList
  | .wrongAnswer => "WRONG_ANSWER".toList
  | .compilationError => "COMPILATION_ERROR".toList
  | .runtimeError => "RUNTIME_ERROR".toList
  | .timeLimitExceeded => "TIME_LIMIT_EXCEEDED".toList
  | .memoryLimitExceeded => "MEMORY_LIMIT_EXCEEDED".toList

/-- What `executeSubmission` returns after its final save.  Only the exit at the end of the
test loop returns the document; no other finding than that of the exit on a compilation
error has that verdict. -/
def returned (submission : Submission) : Finding → Option Submission
  | .unsupportedLanguage => none
  | .judged j completedAt =>
    if j.verdict = .compilationError then none else some (submission.complete completedAt j)

/-- A call of `processSubmission`. -/
structure Handler where
  submissionId : ObjectId
  startTime : Time
  attempt : Attempt
  claimedSubmission : Option Submission
  evaluatedSubmission : Option Submission
  durationMs : Nat
  /-- What its `executeSubmission` stored with the status COMPLETED; no step reads it. -/
  stored : Option Submission

namespace Handler

/-- A call that just started. -/
def start (submissionId : ObjectId) (now : Time) (call : Submissions.Call) : Handler :=
  ⟨submissionId, now, .start call, none, none, 0, none⟩

/-- The local variables after a step of the attempt. -/
def next (now : Time) (h : Handler) (a : Attempt) (w : Option Write) : Handler :=
  match h.attempt.pc, w with
  | .claiming _ _, some w => { h with attempt := a, claimedSubmission := some w.after }
  | .saving submission finding, some _ =>
    { h with
      attempt := a
      evaluatedSubmission := returned submission finding
      durationMs := now - h.startTime
      stored := some (finding.enter submission) }
  | _, _ => { h with attempt := a }

variable (toLowerCase : Text → Text)

/-- What is recorded of an evaluated submission. -/
def recordEvaluated (h : Handler) (m : Metrics) : Metrics :=
  match h.claimedSubmission, h.evaluatedSubmission with
  | some claimed, some evaluated =>
    recordExecutionDuration toLowerCase claimed.language.toList h.durationMs
      (recordSubmissionVerdict toLowerCase claimed.language.toList
        (verdictText evaluated.verdict) m)
  | _, _ => m

/-- What the handler records on its way to where it then stands. -/
def record (h : Handler) (m : Metrics) : Metrics :=
  match h.attempt.pc with
  | .caught e =>
    recordWorkerFailure
      (if isNonRetryableError e then "domain_failure".toList else "infrastructure_failure".toList)
      (recordWorkerJob "failed".toList m)
  | .returned .completed => h.recordEvaluated toLowerCase (recordWorkerJob "completed".toList m)
  | _ => m

end Handler

/-- A state of the process. -/
structure Process where
  now : Time
  submissions : ObjectId → Option Submission
  /-- The calls, the first one first. -/
  handlers : List Handler
  metrics : Metrics

namespace Process

/-- What happens next. -/
inductive Label where
  /-- Time passes. -/
  | wait (d : Nat)
  /-- Somebody else creates a submission or changes it. -/
  | other (id : ObjectId) (d : Submission)
  /-- `processSubmission` is called. -/
  | call (id : ObjectId) (call : Submissions.Call)
  /-- A step of a call. -/
  | handler (i : Nat) (act : Act)

/-- The submissions after a write, if one was issued. -/
def written (s : Process) (id : ObjectId) : Option Write → ObjectId → Option Submission
  | none => s.submissions
  | some w => Function.update s.submissions id (some w.after)

/-- A step of the call `h`, the `i`th one. -/
def stepHandler (toLowerCase : Text → Text) (cfg : Config) (s : Process) (i : Nat) (h : Handler)
    (act : Act) : Option Process :=
  (h.attempt.step cfg s.now (s.submissions h.submissionId) act).map fun (a, w) ↦
    { s with
      submissions := s.written h.submissionId w
      handlers := s.handlers.set i (h.next s.now a w)
      metrics := (h.next s.now a w).record toLowerCase s.metrics }

/-- One step, where it is enabled. -/
def step (toLowerCase : Text → Text) (cfg : Config) (s : Process) : Label → Option Process
  | .wait d => some { s with now := s.now + d }
  | .other id d =>
    if (s.submissions id).all fun old ↦ old.language = d.language then
      some { s with submissions := Function.update s.submissions id (some d) }
    else none
  | .call id call => some { s with handlers := s.handlers ++ [.start id s.now call] }
  | .handler _ .crash => none
  | .handler i act => s.handlers[i]?.bind fun h ↦ s.stepHandler toLowerCase cfg i h act

/-- The metrics have just been reset, and no call has been made. -/
def init : Process where
  now := 0
  submissions := fun _ ↦ none
  handlers := []
  metrics := resetMetrics

/-- The steps in which a MongoDB call fails. -/
def Label.mongoFails : Label → Bool
  | .handler _ act => act.mongoFails
  | _ => false

/-- Every MongoDB call succeeds. -/
def Reliable (_ : Process) (l : Label) : Prop := l.mongoFails = false

instance (s : Process) (l : Label) : Decidable (Reliable s l) :=
  inferInstanceAs (Decidable (_ = _))

end Process

/-- The worker process. -/
def process (toLowerCase : Text → Text) (cfg : Config) : Machine Process Process.Label :=
  ⟨Process.init, Process.step toLowerCase cfg⟩

end CodeArena.Workers
