import CodeArena.Lib.Machine
import CodeArena.Engine.Config
import CodeArena.Submissions.Model

/-!
# The submission panel

The Run and the Submit button of `ProblemDetails`, as a machine.  Its parties are the user
who clicks, the timers of the browser, and the server, whose answers arrive in any order and
at any time.

## What is a step

JavaScript runs a handler up to its next `await`.  A click is one step; the rest of
`handleSubmit` is the step in which the answer to `createSubmission` arrives; each run of
the interval makes one call of `getSubmissionById`, and what follows it is the step in which
its answer arrives.  An interval does not wait for the calls of its earlier runs, so there
may be any number of them in flight.

A timer never runs before it is due; `fire` takes the clock there if need be.

## Honest boundary

Setting the state of a component that is not mounted does nothing, but its timers and its
calls go on.  The `disabled` buttons are the guards of `run` and `submit`: React renders
between two clicks.  The texts that a demonstration shows beside its verdict, the tab that is
active and the editor are left out.  An answer without a submission in it does not occur:
the server sends none.
-/

namespace CodeArena.Client

open CodeArena.Engine (trim)
open CodeArena.Lib
open CodeArena.Lib.Utf (JsString)
open CodeArena.Submissions (ObjectId Submission)

/-- A point in time, in milliseconds. -/
abbrev Time := Nat

/-- The handle of a timer, as `setTimeout` and `setInterval` return it. -/
abbrev TimerId := Nat

/-- The identity of a call of the API. -/
abbrev CallId := Nat

/-! ## What is shown -/

/-- A submission, as the API sends it: `toSafeObject`. -/
structure Answer where
  id : ObjectId
  record : Submission
deriving DecidableEq

/-- The results that the page makes up by itself, ACCEPTED each. -/
inductive Demo where
  /-- Of `handleRun`. -/
  | run
  /-- Of `handleSubmit` without a user who is logged in. -/
  | anonymous
  /-- Of `handleSubmit` where `createSubmission` threw. -/
  | fallback
deriving DecidableEq, Repr

/-- What the panel shows as a result. -/
inductive Result where
  | demo (kind : Demo)
  | answer (a : Answer)
deriving DecidableEq

/-- The verdict that a result shows. -/
def Result.verdict : Result → Submissions.Verdict
  | .demo _ => .accepted
  | .answer a => a.record.verdict

/-- The state of the component. -/
structure View where
  isRunning : Bool
  isSubmitting : Bool
  statusMessage : String
  submissionResult : Option Result
  submitError : Option String
  submissionsHistory : List Result
deriving DecidableEq

namespace View

/-- `setSubmissionsHistory((prev) => [result, ...prev])`. -/
def record (v : View) (r : Result) : View :=
  { v with submissionsHistory := r :: v.submissionsHistory }

/-- `setIsSubmitting(false)` and `setStatusMessage('')`. -/
def endSubmit (v : View) : View := { v with isSubmitting := false, statusMessage := "" }

/-- `setSubmissionResult(result)`. -/
def showResult (v : View) (r : Result) : View := { v with submissionResult := some r }

/-- `setSubmitError(message)`. -/
def fail (v : View) (message : String) : View := { v with submitError := some message }

/-- The answer is shown, and the submission has come to its end. -/
def finish (v : View) (a : Answer) : View :=
  ((v.showResult (.answer a)).endSubmit).record (.answer a)

end View

/-! ## Timers and calls -/

/-- The timers of the panel, with the time at which they are due. -/
inductive Timer where
  /-- The interval that polls a submission, since `startTime`. -/
  | interval (submissionId : ObjectId) (startTime due : Time)
  /-- The timeout of a demonstration. -/
  | timeout (kind : Demo) (due : Time)
deriving DecidableEq

/-- The calls of the API in flight. -/
inductive Call where
  /-- `createSubmission`. -/
  | creating
  /-- `getSubmissionById`, of an interval that runs since `startTime`. -/
  | polling (submissionId : ObjectId) (startTime : Time)
deriving DecidableEq

/-- How a call of the API comes out: the submission, or the message of its error. -/
abbrev Reply := Except String Answer

/-- The period of the interval. -/
def pollPeriod : Time := 1200

/-- For how long the panel waits for a worker. -/
def pollTimeout : Time := 25000

/-! ## The panel -/

/-- A state of the panel.  `created` and `polls` list the submissions it was told of and the
submissions it asked for, the newest first; no step reads them. -/
structure Panel where
  now : Time
  mounted : Bool
  view : View
  pollTimerRef : Option TimerId
  timers : List (TimerId × Timer)
  calls : List (CallId × Call)
  /-- The handle of the next timer. -/
  nextTimer : TimerId
  /-- The identity of the next call. -/
  nextCall : CallId
  created : List ObjectId
  polls : List ObjectId
deriving DecidableEq

/-- What happens next. -/
inductive Label where
  /-- Time passes. -/
  | wait (d : Nat)
  /-- A click on Run. -/
  | run
  /-- A click on Submit: the source code, and whether a user is logged in. -/
  | submit (sourceCode : JsString) (loggedIn : Bool)
  /-- A timer runs. -/
  | fire (t : TimerId)
  /-- A call is answered. -/
  | answer (c : CallId) (reply : Reply)
  /-- The effect on `problemId`: another problem is loaded. -/
  | load
  /-- The component is unmounted. -/
  | unmount

namespace Panel

/-- The state set by `f`, where the component is mounted. -/
def set (s : Panel) (f : View → View) : Panel :=
  if s.mounted then { s with view := f s.view } else s

/-- `setTimeout` and `setInterval`. -/
def start (s : Panel) (timer : Timer) : Panel :=
  { s with timers := (s.nextTimer, timer) :: s.timers, nextTimer := s.nextTimer + 1 }

/-- `clearInterval`. -/
def clear (s : Panel) (t : TimerId) : Panel :=
  { s with timers := s.timers.filter fun x ↦ x.1 ≠ t }

/-- `clearInterval(pollTimerRef.current)`, where there is one. -/
def clearPoll (s : Panel) : Panel :=
  match s.pollTimerRef with
  | some t => { s.clear t with pollTimerRef := none }
  | none => s

/-- A call of the API. -/
def call (s : Panel) (c : Call) : Panel :=
  { s with calls := (s.nextCall, c) :: s.calls, nextCall := s.nextCall + 1 }

/-- The buttons are enabled. -/
def Enabled (s : Panel) : Prop :=
  s.mounted = true ∧ s.view.isRunning = false ∧ s.view.isSubmitting = false

instance (s : Panel) : Decidable s.Enabled := inferInstanceAs (Decidable (_ ∧ _))

/-- `handleRun`. -/
def handleRun (s : Panel) : Panel :=
  (s.set fun v ↦ { v with
    isRunning := true
    statusMessage := "Compiling and running sample test cases..." }).start
    (.timeout .run (s.now + 1200))

/-- `handleSubmit`, up to its call of `createSubmission`. -/
def handleSubmit (s : Panel) (sourceCode : JsString) (loggedIn : Bool) : Panel :=
  if trim sourceCode = [] then s.set fun v ↦ v.fail "Source code cannot be empty."
  else
    let s := s.clearPoll.set fun v ↦ { v with
      isSubmitting := true
      submitError := none
      statusMessage := "Submitting code to judge..."
      submissionResult := none }
    if loggedIn then s.call .creating else s.start (.timeout .anonymous (s.now + 1500))

/-- The interval that polls a submission. -/
def poll (s : Panel) (submissionId : ObjectId) : Panel :=
  { s.start (.interval submissionId s.now (s.now + pollPeriod)) with
    pollTimerRef := some s.nextTimer }

/-- `handleSubmit`, from the answer to `createSubmission` on. -/
def submitted (s : Panel) : Reply → Panel
  | .ok a =>
    let s := { s with created := a.id :: s.created }
    if a.record.status.terminal then s.set fun v ↦ v.finish a
    else
      (s.set fun v ↦
        { v.showResult (.answer a) with statusMessage := "Evaluation queued..." }).poll a.id
  | .error _ => s.set fun v ↦ ((v.endSubmit).showResult (.demo .fallback)).record (.demo .fallback)

/-- The function of the interval, from the answer to `getSubmissionById` on. -/
def polled (s : Panel) (startTime : Time) : Reply → Panel
  | .ok a =>
    if a.record.status.terminal then s.clearPoll.set fun v ↦ v.finish a
    else
      let s := s.set fun v ↦ { v.showResult (.answer a) with
        statusMessage :=
          if a.record.status = .running then "Running test cases..." else v.statusMessage }
      if s.now - startTime > pollTimeout then
        s.clearPoll.set fun v ↦
          v.endSubmit.fail "Execution timed out while waiting for worker."
      else s
  | .error message => s.clearPoll.set fun v ↦
      v.endSubmit.fail (if message = "" then "Error checking status" else message)

/-- A timer runs: an interval calls the API and stays, a timeout shows its demonstration. -/
def fire (s : Panel) (t : TimerId) : Timer → Panel
  | .interval submissionId startTime due =>
    let now := s.now.max due
    { s with
      now
      timers := (t, .interval submissionId startTime (now + pollPeriod)) ::
        s.timers.filter fun x ↦ x.1 ≠ t
      polls := submissionId :: s.polls }.call (.polling submissionId startTime)
  | .timeout .run due =>
    ({ s with now := s.now.max due }.clear t).set fun v ↦
      ({ v with isRunning := false, statusMessage := "" }).showResult (.demo .run)
  | .timeout kind due =>
    ({ s with now := s.now.max due }.clear t).set fun v ↦
      ((v.endSubmit).showResult (.demo kind)).record (.demo kind)

/-- A call is answered. -/
def answer (s : Panel) (c : CallId) (reply : Reply) : Call → Panel
  | .creating => { s with calls := s.calls.filter fun x ↦ x.1 ≠ c }.submitted reply
  | .polling _ startTime =>
    { s with calls := s.calls.filter fun x ↦ x.1 ≠ c }.polled startTime reply

/-- One step, where it is enabled. -/
def step (s : Panel) : Label → Option Panel
  | .wait d => some { s with now := s.now + d }
  | .run => if s.Enabled then some s.handleRun else none
  | .submit sourceCode loggedIn =>
    if s.Enabled then some (s.handleSubmit sourceCode loggedIn) else none
  | .fire t => (s.timers.lookup t).map fun timer ↦ s.fire t timer
  | .answer c reply => (s.calls.lookup c).map fun call ↦ s.answer c reply call
  | .load => some (s.set fun v ↦ { v with submitError := none })
  | .unmount => if s.mounted then some { s.clearPoll with mounted := false } else none

/-- The page has just been opened. -/
def init : Panel where
  now := 0
  mounted := true
  view := ⟨false, false, "", none, none, []⟩
  pollTimerRef := none
  timers := []
  calls := []
  nextTimer := 1
  nextCall := 0
  created := []
  polls := []

end Panel

/-- The submission panel. -/
def panel : Machine Panel Label := ⟨Panel.init, Panel.step⟩

end CodeArena.Client
