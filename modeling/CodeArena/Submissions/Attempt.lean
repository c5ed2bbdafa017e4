import CodeArena.Submissions.Execution

/-!
# One call of `processSubmission`

A call of `processSubmission` on the submission is an *attempt*.  It is cut into
steps at every `await` on MongoDB: between two of them the handler runs on its own,
and at each of them every other party may move.  `Attempt.step` is one step; it
depends on the clock and on the stored document, and issues at most one write.

The calls inside `executeSubmission` are steps of the same attempt: `processSubmission`
awaits it, and its errors arrive in the same `catch` block.  The test loop of
`executeSubmission` does not touch the stored submission and is a single step.

## Calls that fail

A MongoDB call carries its outcome in the label: `none` where it succeeds, `some e`
where it rejects with `e` without having had an effect.  Where the call lies inside
the `try` block of `processSubmission` the error is caught and classified; outside
of it, it is thrown.

## Reading the clock

The cutoff and the start of a claim are read before the `findOneAndUpdate` that
carries them takes effect, so these are two steps, and time may pass in between.
-/

namespace CodeArena.Submissions

/-- The configuration shared by all workers. -/
structure Config where
  /-- `staleTimeoutMs`, one value for all workers. -/
  staleTimeoutMs : Nat
  /-- `attempts` of the queue's `defaultJobOptions`. -/
  attempts : Nat
deriving DecidableEq, Repr

/-- What `processSubmission` reads of a BullMQ job besides its payload; `none`
where the field is not a number. -/
structure JobInfo where
  attemptsMade : Option Nat
  attempts : Option Nat
deriving DecidableEq, Repr

/-- A call of `processSubmission` on the submission: the worker, whether the
payload passes validation, and the job, where it is one and not a bare id. -/
structure Call where
  workerId : WorkerId
  validId : Bool
  job : Option JobInfo
deriving DecidableEq, Repr

namespace Call

/-- `attemptsMade`: zero unless a job states it. -/
def attemptsMade (c : Call) : Nat := (c.job.bind JobInfo.attemptsMade).getD 0

/-- `maxAttempts`: one unless a job states it, and then not as zero. -/
def maxAttempts (c : Call) : Nat :=
  match c.job.bind JobInfo.attempts with
  | some (n + 1) => n + 1
  | _ => 1

/-- `hasRetriesRemaining`. -/
def hasRetriesRemaining (c : Call) : Bool := c.attemptsMade + 1 < c.maxAttempts

end Call

/-- A document in memory whose status is RUNNING: what the test loop works on. -/
structure RunningDoc where
  doc : Submission
  running : doc.status = .running
deriving DecidableEq

/-- A list of test cases that is not empty: what passes the defensive check. -/
abbrev TestCases := { tests : List TestCase // tests ≠ [] }

/-- What `executeSubmission` is about to save over the document it loaded. -/
inductive Finding where
  /-- The language is not supported. -/
  | unsupportedLanguage
  /-- The submission was judged. -/
  | judged (j : Judgement) (completedAt : Time)
deriving DecidableEq

/-- The document in memory once a finding is entered. -/
def Finding.enter : Finding → Submission → Submission
  | .unsupportedLanguage, d => d.rejectLanguage
  | .judged j completedAt, d => d.complete completedAt j

/-- The reasons for which `processSubmission` skips a job. -/
inductive Skip where
  /-- The payload carries no valid id. -/
  | malformed
  | notFound
  | terminal
  | running (isFresh : Bool)
  | notClaimable
deriving DecidableEq

/-- The branch taken on the document found after a claim that matched nothing. -/
def skipReason (now staleTimeoutMs : Nat) : Option Submission → Skip
  | none => .notFound
  | some existing =>
    if existing.status.terminal then .terminal
    else if existing.status = .running then
      .running (match existing.execution.startedAt <|> existing.startedAt with
        | some activeStartedAt => decide (now < activeStartedAt + staleTimeoutMs)
        | none => false)
    else .notClaimable

/-- How `processSubmission` returns. -/
inductive Return where
  | skipped (reason : Skip)
  | completed
  | failedNonRetryable
deriving DecidableEq

/-- Where an attempt stands: what it awaits next, with the local variables it
needs. -/
inductive Pc where
  /-- Called, nothing done yet. -/
  | started
  /-- Awaiting the claim. -/
  | claiming (staleCutoff startedAt : Time)
  /-- The claim matched nothing; awaiting the document it missed. -/
  | unclaimed
  /-- The claim won; `executeSubmission` awaits the document. -/
  | claimed
  /-- `executeSubmission` awaits the test cases. -/
  | loaded (submission : Submission)
  /-- `executeSubmission` awaits the save of the status RUNNING. -/
  | rerunning (submission : Submission) (startedAt : Time) (testCases : TestCases)
  /-- The test loop. -/
  | testing (submission : RunningDoc) (testCases : TestCases)
  /-- `executeSubmission` awaits its final save. -/
  | saving (submission : Submission) (finding : Finding)
  /-- Awaiting the update of `execution.completedAt`. -/
  | saved
  /-- In the `catch` block, awaiting its update. -/
  | caught (error : JsError)
  | returned (how : Return)
  | threw (error : JsError)
  | crashed
deriving DecidableEq

/-- What a won claim fixed: the start it wrote, and when it took effect. -/
structure Claim where
  startedAt : Time
  wonAt : Time
deriving DecidableEq, Repr

/-- An attempt.  `claim` and `judgement` are kept once known: what its claim wrote,
and what its test loop computed. -/
structure Attempt where
  call : Call
  pc : Pc
  claim : Option Claim
  judgement : Option Judgement
deriving DecidableEq

namespace Attempt

/-- A call that just started. -/
def start (call : Call) : Attempt := ⟨call, .started, none, none⟩

/-- The attempt, standing elsewhere. -/
def goto (a : Attempt) (pc : Pc) : Attempt := { a with pc }

@[simp] theorem goto_call (a : Attempt) (pc : Pc) : (a.goto pc).call = a.call := rfl
@[simp] theorem goto_pc (a : Attempt) (pc : Pc) : (a.goto pc).pc = pc := rfl
@[simp] theorem goto_claim (a : Attempt) (pc : Pc) : (a.goto pc).claim = a.claim := rfl
@[simp] theorem goto_judgement (a : Attempt) (pc : Pc) :
    (a.goto pc).judgement = a.judgement := rfl

end Attempt

/-- The writes on a submission, by the line that issues them. -/
inductive WriteKind where
  /-- `Submission.create` in `createSubmission`. -/
  | create
  /-- The save of QUEUED in `createSubmission`. -/
  | queue
  /-- The save of FAILED in `createSubmission`. -/
  | refuse
  /-- The claim. -/
  | claim
  /-- The save of RUNNING in `executeSubmission`. -/
  | rerun
  /-- The final save of `executeSubmission`. -/
  | complete
  /-- The update of `execution.completedAt`. -/
  | stamp
  /-- The update to FAILED, for a non-retryable error or the last attempt. -/
  | fail
  /-- The update back to QUEUED. -/
  | revert
deriving DecidableEq, Repr

/-- A write that took effect, with the document after it. -/
structure Write where
  kind : WriteKind
  after : Submission
deriving DecidableEq

/-- The outcome of a MongoDB call: the error it rejects with, if any. -/
abbrev Mongo := Option JsError

/-- One step of an attempt, with the outcome of the call it completes. -/
inductive Act where
  | readClock
  | claim (r : Mongo)
  | inspect (r : Mongo)
  | load (r : Mongo)
  | findTestCases (r : Except JsError (List TestCase))
  | rerun (r : Mongo)
  | runTests (engine : Nat → TestCase → EngineReply)
  | save (r : Mongo)
  | stampCompleted (r : Mongo)
  | recover (r : Mongo)
  | crash

/-- `error.message || fallback`. -/
def messageOr (error : JsError) (fallback : String) : String :=
  if error.message = "" then fallback else error.message

/-- The message stored with the status FAILED. -/
def failureMessage (error : JsError) : String :=
  messageOr error (if isNonRetryableError error then "Non-retryable execution error"
    else "Execution infrastructure failure")

/-- The attempts that are over: the handler returned or threw, or its worker
crashed. -/
def Pc.over : Pc → Bool
  | .returned _ | .threw _ | .crashed => true
  | _ => false

namespace Attempt

variable (cfg : Config) (now : Time)

/-- The claim: `findOneAndUpdate` under `claimFilter`. -/
def stepClaim (stored : Option Submission) (a : Attempt) (staleCutoff startedAt : Time) :
    Mongo → Attempt × Option Write
  | some e => (a.goto (.threw e), none)
  | none =>
    match stored with
    | none => (a.goto .unclaimed, none)
    | some d =>
      if d.ClaimFilter staleCutoff then
        ({ a with pc := .claimed, claim := some ⟨startedAt, now⟩ },
          some ⟨.claim, d.claim a.call.workerId startedAt⟩)
      else (a.goto .unclaimed, none)

/-- `findById` of `executeSubmission`, and its check of the language.  Without a
document `executeSubmission` returns. -/
def stepLoad (stored : Option Submission) (a : Attempt) : Mongo → Attempt
  | some e => a.goto (.caught e)
  | none =>
    match stored with
    | none => a.goto .saved
    | some d =>
      if d.language ∈ supportedLanguages then a.goto (.loaded d)
      else a.goto (.saving d .unsupportedLanguage)

/-- `TestCase.find`, the defensive check, and whether the status is RUNNING
already. -/
def stepFindTestCases (a : Attempt) (submission : Submission) :
    Except JsError (List TestCase) → Attempt
  | .error e => a.goto (.caught e)
  | .ok tests =>
    if h : tests ≠ [] then
      if hs : submission.status = .running then a.goto (.testing ⟨submission, hs⟩ ⟨tests, h⟩)
      else a.goto (.rerunning submission now ⟨tests, h⟩)
    else a.goto (.caught problemNotReady)

/-- `save()` of a document in memory. -/
def stepSave (stored : Option Submission) (a : Attempt) (kind : WriteKind)
    (loaded doc : Submission) (next : Pc) : Mongo → Attempt × Option Write
  | some e => (a.goto (.caught e), none)
  | none =>
    match stored with
    | none => (a.goto (.caught documentNotFoundError), none)
    | some d => (a.goto next, some ⟨kind, Submission.save loaded doc d⟩)

/-- The test loop. -/
def stepRunTests (a : Attempt) (submission : RunningDoc) (testCases : TestCases)
    (engine : Nat → TestCase → EngineReply) : Attempt :=
  match executeTests engine testCases.1 with
  | .error e => a.goto (.caught e)
  | .ok j => { a with pc := .saving submission.doc (.judged j now), judgement := some j }

/-- The update of `execution.completedAt`. -/
def stepStampCompleted (stored : Option Submission) (a : Attempt) :
    Mongo → Attempt × Option Write
  | some e => (a.goto (.caught e), none)
  | none => (a.goto (.returned .completed), stored.map fun d ↦ ⟨.stamp, d.stampCompleted now⟩)

/-- The `catch` block. -/
def stepRecover (stored : Option Submission) (a : Attempt) (error : JsError) :
    Mongo → Attempt × Option Write
  | some e => (a.goto (.threw e), none)
  | none =>
    let failed : Option Write := stored.map fun d ↦ ⟨.fail, d.fail now (failureMessage error)⟩
    if isNonRetryableError error then (a.goto (.returned .failedNonRetryable), failed)
    else if a.call.hasRetriesRemaining then
      (a.goto (.threw error),
        stored.bind fun d ↦ if d.status = .running then some ⟨.revert, d.revert⟩ else none)
    else (a.goto (.threw error), failed)

/-- The `catch` block answers `error` by the update back to QUEUED. -/
def reverts (a : Attempt) (error : JsError) : Bool :=
  !isNonRetryableError error && a.call.hasRetriesRemaining

/-- One step of an attempt, where it is enabled: the attempt after it, and the
write it issued. -/
def step (stored : Option Submission) (a : Attempt) (act : Act) :
    Option (Attempt × Option Write) :=
  match a.pc, act with
  | .started, .readClock =>
    if a.call.validId then some (a.goto (.claiming (now - cfg.staleTimeoutMs) now), none)
    else some (a.goto (.returned (.skipped .malformed)), none)
  | .claiming staleCutoff startedAt, .claim r =>
    some (stepClaim now stored a staleCutoff startedAt r)
  | .unclaimed, .inspect none =>
    some (a.goto (.returned (.skipped (skipReason now cfg.staleTimeoutMs stored))), none)
  | .unclaimed, .inspect (some e) => some (a.goto (.threw e), none)
  | .claimed, .load r => some (stepLoad stored a r, none)
  | .loaded submission, .findTestCases r => some (stepFindTestCases now a submission r, none)
  | .rerunning submission startedAt testCases, .rerun r =>
    some (stepSave stored a .rerun submission (submission.rerun startedAt)
      (.testing ⟨submission.rerun startedAt, rfl⟩ testCases) r)
  | .testing submission testCases, .runTests engine =>
    some (stepRunTests now a submission testCases engine, none)
  | .saving submission finding, .save r =>
    some (stepSave stored a .complete submission (finding.enter submission) .saved r)
  | .saved, .stampCompleted r => some (stepStampCompleted now stored a r)
  | .caught error, .recover r => some (stepRecover now stored a error r)
  | pc, .crash => if pc.over then none else some (a.goto .crashed, none)
  | _, _ => none

/-! ## Everything a step can be

The inversion of `Attempt.step` over a stored document, with one constructor per
branch of the source.  Proofs about attempts are case analyses on `Step` and never
unfold `Attempt.step`. -/

/-- The errors that reach the `catch` block, by the await they come from. -/
inductive Raises : Pc → Act → JsError → Prop
  | load {e : JsError} : Raises .claimed (.load (some e)) e
  | findTestCases {d : Submission} {e : JsError} :
      Raises (.loaded d) (.findTestCases (.error e)) e
  | noTestCases {d : Submission} : Raises (.loaded d) (.findTestCases (.ok [])) problemNotReady
  | rerun {d : Submission} {t : Time} {ts : TestCases} {e : JsError} :
      Raises (.rerunning d t ts) (.rerun (some e)) e
  | runTests {d : RunningDoc} {ts : TestCases} {engine : Nat → TestCase → EngineReply}
      {e : JsError} :
      executeTests engine ts.1 = .error e → Raises (.testing d ts) (.runTests engine) e
  | save {d : Submission} {f : Finding} {e : JsError} : Raises (.saving d f) (.save (some e)) e
  | stampCompleted {e : JsError} : Raises .saved (.stampCompleted (some e)) e

/-- The errors thrown out of `processSubmission` by a call outside of its `try`
block: the claim, the look at a missed document, and the update of the `catch`
block itself. -/
inductive Rejects : Pc → Act → JsError → Prop
  | claim {staleCutoff startedAt : Time} {e : JsError} :
      Rejects (.claiming staleCutoff startedAt) (.claim (some e)) e
  | inspect {e : JsError} : Rejects .unclaimed (.inspect (some e)) e
  | recover {error e : JsError} : Rejects (.caught error) (.recover (some e)) e

/-- The steps of an attempt `a` while `d` is stored. -/
inductive Step (d : Submission) (a : Attempt) : Act → Attempt → Option Write → Prop
  | malformed : a.pc = .started → a.call.validId = false →
      Step d a .readClock (a.goto (.returned (.skipped .malformed))) none
  | readClock : a.pc = .started → a.call.validId = true →
      Step d a .readClock (a.goto (.claiming (now - cfg.staleTimeoutMs) now)) none
  | claimWon {staleCutoff startedAt : Time} : a.pc = .claiming staleCutoff startedAt →
      d.ClaimFilter staleCutoff →
      Step d a (.claim none) { a with pc := .claimed, claim := some ⟨startedAt, now⟩ }
        (some ⟨.claim, d.claim a.call.workerId startedAt⟩)
  | claimLost {staleCutoff startedAt : Time} : a.pc = .claiming staleCutoff startedAt →
      ¬ d.ClaimFilter staleCutoff → Step d a (.claim none) (a.goto .unclaimed) none
  | skipped : a.pc = .unclaimed →
      Step d a (.inspect none)
        (a.goto (.returned (.skipped (skipReason now cfg.staleTimeoutMs (some d))))) none
  | unsupported : a.pc = .claimed → d.language ∉ supportedLanguages →
      Step d a (.load none) (a.goto (.saving d .unsupportedLanguage)) none
  | loaded : a.pc = .claimed → d.language ∈ supportedLanguages →
      Step d a (.load none) (a.goto (.loaded d)) none
  | foundRunning {s : RunningDoc} {ts : TestCases} : a.pc = .loaded s.doc →
      Step d a (.findTestCases (.ok ts.1)) (a.goto (.testing s ts)) none
  | foundOther {s : Submission} {ts : TestCases} : a.pc = .loaded s → s.status ≠ .running →
      Step d a (.findTestCases (.ok ts.1)) (a.goto (.rerunning s now ts)) none
  | rerun {s : Submission} {t : Time} {ts : TestCases} : a.pc = .rerunning s t ts →
      Step d a (.rerun none) (a.goto (.testing ⟨s.rerun t, rfl⟩ ts))
        (some ⟨.rerun, Submission.save s (s.rerun t) d⟩)
  | judged {s : RunningDoc} {ts : TestCases} {engine : Nat → TestCase → EngineReply}
      {j : Judgement} : a.pc = .testing s ts → executeTests engine ts.1 = .ok j →
      Step d a (.runTests engine)
        { a with pc := .saving s.doc (.judged j now), judgement := some j } none
  | saved {s : Submission} {f : Finding} : a.pc = .saving s f →
      Step d a (.save none) (a.goto .saved) (some ⟨.complete, Submission.save s (f.enter s) d⟩)
  | stamped : a.pc = .saved →
      Step d a (.stampCompleted none) (a.goto (.returned .completed))
        (some ⟨.stamp, d.stampCompleted now⟩)
  | caught {act : Act} {e : JsError} : Raises a.pc act e → Step d a act (a.goto (.caught e)) none
  | failedNonRetryable {e : JsError} : a.pc = .caught e → isNonRetryableError e = true →
      Step d a (.recover none) (a.goto (.returned .failedNonRetryable))
        (some ⟨.fail, d.fail now (failureMessage e)⟩)
  | failedExhausted {e : JsError} : a.pc = .caught e → isNonRetryableError e = false →
      a.call.hasRetriesRemaining = false →
      Step d a (.recover none) (a.goto (.threw e))
        (some ⟨.fail, d.fail now (failureMessage e)⟩)
  | reverted {e : JsError} : a.pc = .caught e → isNonRetryableError e = false →
      a.call.hasRetriesRemaining = true → d.status = .running →
      Step d a (.recover none) (a.goto (.threw e)) (some ⟨.revert, d.revert⟩)
  | notReverted {e : JsError} : a.pc = .caught e → isNonRetryableError e = false →
      a.call.hasRetriesRemaining = true → d.status ≠ .running →
      Step d a (.recover none) (a.goto (.threw e)) none
  | threw {act : Act} {e : JsError} : Rejects a.pc act e → Step d a act (a.goto (.threw e)) none
  | crashed : a.pc.over = false → Step d a .crash (a.goto .crashed) none

/-- **Inversion.**  A step of an attempt over a stored document is one of `Step`. -/
theorem step_inv {d : Submission} {a a' : Attempt} {act : Act} {w : Option Write}
    (h : a.step cfg now (some d) act = some (a', w)) : Step cfg now d a act a' w := by
  unfold step at h
  split at h
  case h_1 hpc =>
      split at h <;> cases h
      · exact .readClock hpc ‹_›
      · rename_i hv
        exact .malformed hpc (by simpa using hv)
  case h_2 c s r hpc =>
      cases r with
      | some e => cases h; exact .threw (hpc ▸ .claim)
      | none =>
          simp only [stepClaim] at h
          split at h <;> cases h
          · exact .claimWon hpc ‹_›
          · exact .claimLost hpc ‹_›
  case h_3 hpc => cases h; exact .skipped hpc
  case h_4 e hpc => cases h; exact .threw (hpc ▸ .inspect)
  case h_5 r hpc =>
      cases r with
      | some e => cases h; exact .caught (hpc ▸ .load)
      | none =>
          simp only [stepLoad] at h
          split at h <;> cases h
          · exact .loaded hpc ‹_›
          · exact .unsupported hpc ‹_›
  case h_6 s r hpc =>
      cases r with
      | error e => cases h; exact .caught (hpc ▸ .findTestCases)
      | ok tests =>
          simp only [stepFindTestCases] at h
          split at h
          · rename_i hne
            split at h <;> cases h
            · exact @Step.foundRunning _ _ _ _ ⟨s, ‹_›⟩ ⟨tests, hne⟩ hpc
            · exact @Step.foundOther _ _ _ _ s ⟨tests, hne⟩ hpc ‹_›
          · rename_i hne
            cases h
            obtain rfl : tests = [] := by simpa using hne
            exact .caught (hpc ▸ .noTestCases)
  case h_7 s t ts r hpc =>
      cases r with
      | some e => cases h; exact .caught (hpc ▸ .rerun)
      | none => cases h; exact .rerun hpc
  case h_8 s ts engine hpc =>
      simp only [stepRunTests] at h
      split at h <;> cases h
      · exact .caught (hpc ▸ .runTests ‹_›)
      · exact .judged hpc ‹_›
  case h_9 s f r hpc =>
      cases r with
      | some e => cases h; exact .caught (hpc ▸ .save)
      | none => cases h; exact .saved hpc
  case h_10 r hpc =>
      cases r with
      | some e => cases h; exact .caught (hpc ▸ .stampCompleted)
      | none => cases h; exact .stamped hpc
  case h_11 error r hpc =>
      cases r with
      | some e => cases h; exact .threw (hpc ▸ .recover)
      | none =>
          simp only [stepRecover] at h
          split at h
          · cases h; exact .failedNonRetryable hpc ‹_›
          rename_i hn
          split at h
          · rename_i hr
            simp only [Option.bind_some] at h
            split at h <;> cases h
            · exact .reverted hpc (by simpa using hn) hr ‹_›
            · exact .notReverted hpc (by simpa using hn) hr ‹_›
          · rename_i hr
            cases h
            exact .failedExhausted hpc (by simpa using hn) (by simpa using hr)
  case h_12 =>
      split at h <;> cases h
      rename_i ho
      exact .crashed (by simpa using ho)
  case h_13 => cases h

end Attempt

end CodeArena.Submissions
