import CodeArena.Lib.Utf

/-!
# The stored submission

The document of `submission.model.js` and every update the code issues on it.
Three functions of the source write it — `createSubmission`, `processSubmission`
and `executeSubmission` — and each of their writes is a definition of this file,
under the words of the source.

## How a write meets the stored document

There are two kinds.  `findOneAndUpdate` and `updateOne` act on the document as it
is stored at that moment, so they are functions of it.  `save()` is different: it
sets only the paths whose value in memory differs from the one loaded, on whatever
is stored by then.  `Submission.save` takes all three documents, and it is the
place where two attempts can mix their results field by field.

## Honest boundary

`createdAt` and `updatedAt` (the schema's `timestamps`) are left out: no modelled
function reads them.  Dates are milliseconds.
-/

namespace CodeArena.Submissions

open CodeArena.Lib.Utf

/-- A point in time, in milliseconds: the value of `Date.now()`. -/
abbrev Time := Nat

/-- The identity of a stored document. -/
abbrev ObjectId := Nat

/-- A worker's identity: the value of `resolveWorkerId`. -/
abbrev WorkerId := String

/-- `status`. -/
inductive Status where
  | pending
  | queued
  | running
  | completed
  | failed
deriving DecidableEq, Repr

/-- The terminal statuses, `['COMPLETED', 'FAILED']` in `processSubmission`. -/
def Status.terminal : Status → Bool
  | .completed | .failed => true
  | _ => false

/-- `verdict`, as the schema enumerates it. -/
inductive Verdict where
  | pending
  | accepted
  | wrongAnswer
  | compilationError
  | runtimeError
  | timeLimitExceeded
  | memoryLimitExceeded
deriving DecidableEq, Repr

/-- The `execution` subdocument. -/
structure Execution where
  workerId : Option WorkerId
  startedAt : Option Time
  completedAt : Option Time
deriving DecidableEq, Repr

/-- A document of the submissions collection. -/
structure Submission where
  userId : ObjectId
  problemId : ObjectId
  language : String
  sourceCode : JsString
  status : Status
  verdict : Verdict
  runtimeMs : Option Nat
  memoryKb : Option Nat
  testsPassed : Option Nat
  totalTests : Option Nat
  queuedAt : Option Time
  startedAt : Option Time
  completedAt : Option Time
  failedAt : Option Time
  errorMessage : Option String
  execution : Execution
deriving DecidableEq, Repr

/-- What one attempt computed: the fields of a judged submission. -/
structure Judgement where
  verdict : Verdict
  testsPassed : Nat
  totalTests : Nat
  runtimeMs : Option Nat
deriving DecidableEq, Repr

/-- The languages of the schema, and of `SUPPORTED_LANGUAGES`. -/
def supportedLanguages : List String := ["CPP", "PYTHON", "JAVASCRIPT"]

/-- An error as the code inspects it. -/
structure JsError where
  name : String
  message : String
  statusCode : Option Nat
  errorCode : Option String
  isNonRetryable : Bool
deriving DecidableEq, Repr

/-- `new AppError(message, statusCode, errorCode)`; the class leaves `name` at
the one of `Error`. -/
def appError (message : String) (statusCode : Nat) (errorCode : Option String) : JsError :=
  ⟨"Error", message, some statusCode, errorCode, false⟩

/-- What Mongoose throws when a document to save is not stored. -/
def documentNotFoundError : JsError :=
  ⟨"DocumentNotFoundError", "No document found for query", none, none, false⟩

/-- What Mongoose throws when a document to create does not meet its schema. -/
def mongooseValidationError : JsError :=
  ⟨"ValidationError", "Submission validation failed", none, none, false⟩

/-- `isNonRetryableError`. -/
def isNonRetryableError (error : JsError) : Bool :=
  if error.isNonRetryable then true
  else if error.errorCode = some "PROBLEM_NOT_READY" ∨ error.errorCode = some "VALIDATION_ERROR" then
    true
  else if error.name = "ValidationError" then true
  else match error.statusCode with
    | some code => decide (400 ≤ code ∧ code < 500)
    | none => false

/-! ## Creation -/

/-- What `createSubmission` is called with: the validated body and the user. -/
structure Request where
  userId : ObjectId
  problemId : ObjectId
  language : String
  sourceCode : JsString
deriving DecidableEq, Repr

/-- The schema's checks on what a request supplies: `language` is one of the
enumeration, `sourceCode` is there and not too long. -/
def schemaAccepts (req : Request) : Bool :=
  req.language ∈ supportedLanguages ∧ req.sourceCode ≠ [] ∧ req.sourceCode.length ≤ 65536

namespace Submission

/-- The document `Submission.create` stores in `createSubmission`. -/
def create (req : Request) : Submission where
  userId := req.userId
  problemId := req.problemId
  language := req.language
  sourceCode := req.sourceCode
  status := .pending
  verdict := .pending
  runtimeMs := none
  memoryKb := none
  testsPassed := none
  totalTests := none
  queuedAt := none
  startedAt := none
  completedAt := none
  failedAt := none
  errorMessage := none
  execution := ⟨none, none, none⟩

/-- `status = 'QUEUED'; queuedAt = new Date()`. -/
def queue (now : Time) (d : Submission) : Submission :=
  { d with status := .queued, queuedAt := some now }

/-- The message of a refused submission. -/
def enqueueFailedMessage : String := "Failed to enqueue submission for processing"

/-- `status = 'FAILED'` with its date and message, after `queue.add` threw. -/
def refuse (now : Time) (d : Submission) : Submission :=
  { d with status := .failed, failedAt := some now, errorMessage := some enqueueFailedMessage }

/-! ## The claim -/

/-- `{ $lt: cutoff }` on a date: null is not below anything. -/
def Before (t : Option Time) (cutoff : Time) : Prop := ∃ u, t = some u ∧ u < cutoff

instance (t : Option Time) (cutoff : Time) : Decidable (Before t cutoff) :=
  match t with
  | none => isFalse (by rintro ⟨_, h, _⟩; cases h)
  | some u => decidable_of_iff (u < cutoff)
      ⟨fun h ↦ ⟨u, rfl, h⟩, by rintro ⟨_, h, hlt⟩; cases h; exact hlt⟩

@[simp] theorem before_some {u cutoff : Time} : Before (some u) cutoff ↔ u < cutoff := by
  simp [Before]

@[simp] theorem not_before_none {cutoff : Time} : ¬ Before none cutoff := by
  simp [Before]

/-- `claimFilter`: QUEUED, or RUNNING with a start older than the cutoff.  A
document without `execution.startedAt` is judged by its `startedAt`. -/
def ClaimFilter (staleCutoff : Time) (d : Submission) : Prop :=
  d.status = .queued ∨
    (d.status = .running ∧
      (Before d.execution.startedAt staleCutoff ∨
        (d.execution.startedAt = none ∧ Before d.startedAt staleCutoff)))

instance (staleCutoff : Time) (d : Submission) : Decidable (ClaimFilter staleCutoff d) :=
  inferInstanceAs (Decidable (_ ∨ _))

/-- The update of the claim. -/
def claim (workerId : WorkerId) (now : Time) (d : Submission) : Submission :=
  { d with
    status := .running
    startedAt := some now
    execution := { d.execution with workerId := some workerId, startedAt := some now } }

/-! ## Execution -/

/-- `status = 'RUNNING'; startedAt = startedAt || new Date()`, where a document
was loaded in another status. -/
def rerun (now : Time) (d : Submission) : Submission :=
  { d with status := .running, startedAt := d.startedAt <|> some now }

/-- The final state of a judged submission. -/
def complete (now : Time) (j : Judgement) (d : Submission) : Submission :=
  { d with
    status := .completed
    verdict := j.verdict
    testsPassed := some j.testsPassed
    totalTests := some j.totalTests
    runtimeMs := j.runtimeMs
    memoryKb := none
    completedAt := some now }

/-- The final state of a submission in an unsupported language. -/
def rejectLanguage (d : Submission) : Submission :=
  { d with
    status := .completed
    verdict := .runtimeError
    testsPassed := some 0
    totalTests := some 0 }

/-- `{ $set: { 'execution.completedAt': new Date() } }`. -/
def stampCompleted (now : Time) (d : Submission) : Submission :=
  { d with execution := { d.execution with completedAt := some now } }

/-- `{ $set: { status: 'QUEUED' } }`, under the filter on RUNNING. -/
def revert (d : Submission) : Submission := { d with status := .queued }

/-- The two updates to FAILED; they differ in the message. -/
def fail (now : Time) (message : String) (d : Submission) : Submission :=
  { d with
    status := .failed
    failedAt := some now
    errorMessage := some message
    execution := { d.execution with completedAt := some now } }

/-! ## `save()` -/

/-- One path of a saved document: set when it differs from what was loaded. -/
def changed {α : Type} [DecidableEq α] (loaded doc stored : α) : α :=
  if doc = loaded then stored else doc

@[simp] theorem changed_self {α : Type} [DecidableEq α] (loaded stored : α) :
    changed loaded loaded stored = stored := by simp [changed]

/-- Saving over the very document that was loaded stores the document in memory. -/
@[simp] theorem changed_stored {α : Type} [DecidableEq α] (loaded doc : α) :
    changed loaded doc loaded = doc := by
  by_cases h : doc = loaded <;> simp [changed, h]

/-- `save()` of `doc`, loaded as `loaded`, over `stored`. -/
def save (loaded doc stored : Submission) : Submission where
  userId := changed loaded.userId doc.userId stored.userId
  problemId := changed loaded.problemId doc.problemId stored.problemId
  language := changed loaded.language doc.language stored.language
  sourceCode := changed loaded.sourceCode doc.sourceCode stored.sourceCode
  status := changed loaded.status doc.status stored.status
  verdict := changed loaded.verdict doc.verdict stored.verdict
  runtimeMs := changed loaded.runtimeMs doc.runtimeMs stored.runtimeMs
  memoryKb := changed loaded.memoryKb doc.memoryKb stored.memoryKb
  testsPassed := changed loaded.testsPassed doc.testsPassed stored.testsPassed
  totalTests := changed loaded.totalTests doc.totalTests stored.totalTests
  queuedAt := changed loaded.queuedAt doc.queuedAt stored.queuedAt
  startedAt := changed loaded.startedAt doc.startedAt stored.startedAt
  completedAt := changed loaded.completedAt doc.completedAt stored.completedAt
  failedAt := changed loaded.failedAt doc.failedAt stored.failedAt
  errorMessage := changed loaded.errorMessage doc.errorMessage stored.errorMessage
  execution :=
    { workerId := changed loaded.execution.workerId doc.execution.workerId
        stored.execution.workerId
      startedAt := changed loaded.execution.startedAt doc.execution.startedAt
        stored.execution.startedAt
      completedAt := changed loaded.execution.completedAt doc.execution.completedAt
        stored.execution.completedAt }

/-- Saving over the very document that was loaded stores the document in memory. -/
@[simp] theorem save_loaded (loaded doc : Submission) : save loaded doc loaded = doc := by
  simp [save]

end Submission

end CodeArena.Submissions
