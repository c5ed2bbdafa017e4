import CodeArena.Lib.Machine
import CodeArena.Submissions.Attempt
import Mathlib.Logic.Function.Basic

/-!
# The submission system

One submission, the call of `createSubmission` that makes it, its BullMQ job, and
any number of attempts on it, as one labelled machine.  A label says which party
moves and how the call it completes comes out; interleavings are lists of labels.

## The queue

`queue.add` uses the submission's id as the job's id, so a submission has at most
one job.  A job that waits (or is delayed by its backoff) is delivered to a worker;
when its handler returns it is removed, when it throws it is delivered again while
attempts remain, and when the worker crashed it is delivered again at some later
time.  That is `deliver`, `settle` and `stalled`.  BullMQ promises delivery at least
once only, so `duplicate` is a further call on the submission at any time after the
job was placed, with any job information; statements that assume BullMQ as just
described rule it out.

## The log

`log` lists the writes that took effect, newest first.  No step reads it.  It is the
write history that statements about orders of writes are about.
-/

namespace CodeArena.Submissions

open CodeArena.Lib

/-! ## `createSubmission` -/

/-- What `createSubmission` reads of a problem. -/
structure Problem where
  isActive : Bool
deriving DecidableEq, Repr

/-- The outcomes of `queue.add`. -/
inductive Enqueue where
  /-- The job was placed. -/
  | added
  /-- The job was placed, and the call threw all the same. -/
  | addedThenThrew (error : JsError)
  /-- The job was not placed. -/
  | rejected (error : JsError)
deriving DecidableEq

/-- Where the call of `createSubmission` stands: what it awaits next. -/
inductive ApiPc where
  /-- Not called yet. -/
  | idle
  /-- Awaiting the creation of the record. -/
  | checked (req : Request)
  /-- Awaiting the save of QUEUED. -/
  | queueing (created : Submission) (queuedAt : Time)
  /-- Awaiting `queue.add`. -/
  | enqueueing (queued : Submission)
  /-- `queue.add` threw; awaiting the save of FAILED. -/
  | refusing (queued : Submission) (failedAt : Time)
  | returned
  | threw (error : JsError)
deriving DecidableEq

/-- One step of `createSubmission`, with the outcome of the call it completes. -/
inductive ApiAct where
  | check (req : Request) (problem : Except JsError (Option Problem))
      (activeTestCasesCount : Except JsError Nat)
  | create (r : Mongo)
  | queue (r : Mongo)
  | enqueue (o : Enqueue)
  | refuse (r : Mongo)

/-- The checks of `createSubmission` before it creates anything. -/
def checkProblem (problem : Except JsError (Option Problem))
    (activeTestCasesCount : Except JsError Nat) : Except JsError Unit :=
  match problem with
  | .error e => .error e
  | .ok none => .error (appError "Problem not found" 404 none)
  | .ok (some p) =>
    if p.isActive then
      match activeTestCasesCount with
      | .error e => .error e
      | .ok 0 => .error problemNotReady
      | .ok (_ + 1) => .ok ()
    else .error (appError "Cannot submit to an inactive problem" 400 none)

/-- What `createSubmission` throws when `queue.add` threw. -/
def queueUnavailable : JsError :=
  appError "Failed to queue submission for processing. Please try again." 503
    (some "QUEUE_UNAVAILABLE")

/-- One step of `createSubmission`, where it is enabled: where it then stands, the
write it issued, and whether it placed the job. -/
def ApiPc.step (now : Time) (stored : Option Submission) (pc : ApiPc) (act : ApiAct) :
    Option (ApiPc × Option Write × Bool) :=
  match pc, act with
  | .idle, .check req problem count =>
    match checkProblem problem count with
    | .error e => some (.threw e, none, false)
    | .ok () => some (.checked req, none, false)
  | .checked _, .create (some e) => some (.threw e, none, false)
  | .checked req, .create none =>
    if schemaAccepts req then
      some (.queueing (.create req) now, some ⟨.create, .create req⟩, false)
    else some (.threw mongooseValidationError, none, false)
  -- This save is outside of the `try` block: its error leaves the record PENDING.
  | .queueing _ _, .queue (some e) => some (.threw e, none, false)
  | .queueing created queuedAt, .queue none =>
    match stored with
    | none => some (.threw documentNotFoundError, none, false)
    | some d =>
      some (.enqueueing (created.queue queuedAt),
        some ⟨.queue, .save created (created.queue queuedAt) d⟩, false)
  | .enqueueing _, .enqueue .added => some (.returned, none, true)
  | .enqueueing queued, .enqueue (.addedThenThrew _) => some (.refusing queued now, none, true)
  | .enqueueing queued, .enqueue (.rejected _) => some (.refusing queued now, none, false)
  -- An error of this save is logged and dropped.
  | .refusing _ _, .refuse (some _) => some (.threw queueUnavailable, none, false)
  | .refusing queued failedAt, .refuse none =>
    some (.threw queueUnavailable,
      stored.map fun d ↦ ⟨.refuse, .save queued (queued.refuse failedAt) d⟩, false)
  | _, _ => none

/-! ## The machine -/

/-- The identity of a call of `processSubmission`. -/
abbrev AttemptId := Nat

/-- The job of the submission. -/
inductive Job where
  /-- Never placed. -/
  | absent
  /-- Waiting or delayed. -/
  | waiting (attemptsMade : Nat)
  /-- Delivered to the call `i`. -/
  | active (attemptsMade : Nat) (i : AttemptId)
  /-- Removed after its handler returned. -/
  | completed
  /-- Removed after its handler threw for the last time. -/
  | failed
deriving DecidableEq, Repr

/-- The jobs that are still to be worked on. -/
def Job.open : Job → Bool
  | .waiting _ | .active _ _ => true
  | _ => false

/-- An entry of the write history: who wrote, `none` for `createSubmission`. -/
structure Entry where
  writer : Option AttemptId
  kind : WriteKind
  time : Time
  after : Submission
deriving DecidableEq

/-- A state of the system. -/
structure State where
  now : Time
  submission : Option Submission
  api : ApiPc
  job : Job
  attempts : AttemptId → Option Attempt
  log : List Entry

namespace State

/-- The state after a write, if one was issued. -/
def write (s : State) (writer : Option AttemptId) : Option Write → State
  | none => s
  | some w =>
    { s with submission := some w.after, log := ⟨writer, w.kind, s.now, w.after⟩ :: s.log }

/-- The state with an attempt replaced or added. -/
def setAttempt (s : State) (i : AttemptId) (a : Attempt) : State :=
  { s with attempts := Function.update s.attempts i (some a) }

section

variable (s : State) (i : AttemptId) (a : Attempt) (writer : Option AttemptId)

@[simp] theorem write_none : s.write writer none = s := rfl

@[simp] theorem write_now (w : Option Write) : (s.write writer w).now = s.now := by
  cases w <;> rfl

@[simp] theorem write_api (w : Option Write) : (s.write writer w).api = s.api := by
  cases w <;> rfl

@[simp] theorem write_job (w : Option Write) : (s.write writer w).job = s.job := by
  cases w <;> rfl

@[simp] theorem write_attempts (w : Option Write) :
    (s.write writer w).attempts = s.attempts := by
  cases w <;> rfl

@[simp] theorem write_submission (w : Write) :
    (s.write writer (some w)).submission = some w.after := rfl

@[simp] theorem write_log (w : Write) :
    (s.write writer (some w)).log = ⟨writer, w.kind, s.now, w.after⟩ :: s.log := rfl

@[simp] theorem setAttempt_now : (s.setAttempt i a).now = s.now := rfl
@[simp] theorem setAttempt_api : (s.setAttempt i a).api = s.api := rfl
@[simp] theorem setAttempt_job : (s.setAttempt i a).job = s.job := rfl
@[simp] theorem setAttempt_submission : (s.setAttempt i a).submission = s.submission := rfl
@[simp] theorem setAttempt_log : (s.setAttempt i a).log = s.log := rfl

@[simp] theorem setAttempt_attempts_self : (s.setAttempt i a).attempts i = some a :=
  Function.update_self ..

theorem setAttempt_attempts_of_ne {j : AttemptId} (h : j ≠ i) :
    (s.setAttempt i a).attempts j = s.attempts j :=
  Function.update_of_ne h ..

/-- The attempts after one was replaced: that one, or one of the others. -/
theorem setAttempt_attempts_eq_some {j : AttemptId} {b : Attempt} :
    (s.setAttempt i a).attempts j = some b ↔
      (j = i ∧ b = a) ∨ (j ≠ i ∧ s.attempts j = some b) := by
  by_cases h : j = i
  · subst h
    simp [eq_comm]
  · simp [setAttempt_attempts_of_ne, h]

end

end State

/-- Who moves, and how the call it completes comes out. -/
inductive Label where
  /-- Time passes. -/
  | wait (d : Nat)
  /-- A step of `createSubmission`. -/
  | api (act : ApiAct)
  /-- The waiting job is delivered: `processSubmission` is called on it. -/
  | deliver (i : AttemptId) (workerId : WorkerId)
  /-- A further call on the submission. -/
  | duplicate (i : AttemptId) (call : Call)
  /-- A step of an attempt. -/
  | attempt (i : AttemptId) (act : Act)
  /-- The queue learns that the handler of the active job returned or threw. -/
  | settle
  /-- The queue recovers the active job from a crashed worker. -/
  | stalled

/-- The call a delivered job makes. -/
def deliveredCall (cfg : Config) (workerId : WorkerId) (attemptsMade : Nat) : Call :=
  ⟨workerId, true, some ⟨some attemptsMade, some cfg.attempts⟩⟩

/-- The job once its handler ended at `pc`. -/
def Job.settle (cfg : Config) (attemptsMade : Nat) : Pc → Option Job
  | .returned _ => some .completed
  | .threw _ =>
    if attemptsMade + 1 < cfg.attempts then some (.waiting (attemptsMade + 1)) else some .failed
  | _ => none

/-- One step of the system, where it is enabled. -/
def State.step (cfg : Config) (s : State) : Label → Option State
  | .wait d => some { s with now := s.now + d }
  | .api act =>
    (s.api.step s.now s.submission act).map fun (pc, w, placed) ↦
      { s with api := pc, job := if placed then .waiting 0 else s.job }.write none w
  | .deliver i workerId =>
    match s.job, s.attempts i with
    | .waiting n, none =>
      some ({ s with job := .active n i }.setAttempt i
        (.start (deliveredCall cfg workerId n)))
    | _, _ => none
  | .duplicate i call =>
    if s.job ≠ .absent ∧ s.attempts i = none then some (s.setAttempt i (.start call)) else none
  | .attempt i act =>
    (s.attempts i).bind fun a ↦ (a.step cfg s.now s.submission act).map fun (a', w) ↦
      (s.setAttempt i a').write (some i) w
  | .settle =>
    match s.job with
    | .active n i =>
      (s.attempts i).bind fun a ↦ (Job.settle cfg n a.pc).map fun job ↦ { s with job }
    | _ => none
  | .stalled =>
    match s.job with
    | .active n i =>
      (s.attempts i).bind fun a ↦
        if a.pc = .crashed then some { s with job := .waiting n } else none
    | _ => none

/-- Nothing has happened yet. -/
def State.init : State where
  now := 0
  submission := none
  api := .idle
  job := .absent
  attempts := fun _ ↦ none
  log := []

/-- The submission system. -/
def system (cfg : Config) : Machine State Label := ⟨State.init, State.step cfg⟩

@[simp] theorem system_init (cfg : Config) : (system cfg).init = State.init := rfl

@[simp] theorem system_step (cfg : Config) : (system cfg).step = State.step cfg := rfl

/-! ## Which calls fail -/

/-- The steps of an attempt in which a MongoDB call fails. -/
def Act.mongoFails : Act → Bool
  | .claim r | .inspect r | .load r | .rerun r | .save r | .stampCompleted r | .recover r => r.isSome
  | .findTestCases (.error _) => true
  | _ => false

/-- The steps of `createSubmission` in which a MongoDB call fails. -/
def ApiAct.mongoFails : ApiAct → Bool
  | .create r | .queue r | .refuse r => r.isSome
  | .check _ (.error _) _ | .check _ _ (.error _) => true
  | _ => false

/-- The steps in which a MongoDB call fails. -/
def Label.mongoFails : Label → Bool
  | .api act => act.mongoFails
  | .attempt _ act => act.mongoFails
  | _ => false

/-- The steps in which a MongoDB write fails. -/
def Label.mongoWriteFails : Label → Bool
  | .api (.create r) | .api (.queue r) | .api (.refuse r) => r.isSome
  | .attempt _ (.claim r) | .attempt _ (.rerun r) | .attempt _ (.save r)
  | .attempt _ (.stampCompleted r) | .attempt _ (.recover r) => r.isSome
  | _ => false

/-- Every MongoDB call succeeds. -/
def Reliable (_ : State) (l : Label) : Prop := l.mongoFails = false

instance (s : State) (l : Label) : Decidable (Reliable s l) :=
  inferInstanceAs (Decidable (_ = _))

/-- The calls on the submission beyond those the queue makes. -/
def Label.isDuplicate : Label → Bool
  | .duplicate _ _ => true
  | _ => false

/-! ## Label sequences

The pieces that concrete interleavings are put together from. -/

namespace Label

/-- The request of the sample runs. -/
def sampleRequest : Request := ⟨1, 2, "PYTHON", [112]⟩

/-- A test case of the sample runs. -/
def sampleTest : TestCase := ⟨[], []⟩

/-- `createSubmission` up to `queue.add`. -/
def create : List Label :=
  [.api (.check sampleRequest (.ok (some ⟨true⟩)) (.ok 1)), .api (.create none),
    .api (.queue none)]

/-- `createSubmission`, successful. -/
def submit : List Label := create ++ [.api (.enqueue .added)]

/-- An attempt up to the outcome of its claim. -/
def claims (i : AttemptId) : List Label := [.attempt i .readClock, .attempt i (.claim none)]

/-- An attempt that won its claim, up to its test loop over one test case. -/
def loads (i : AttemptId) : List Label :=
  [.attempt i (.load none), .attempt i (.findTestCases (.ok [sampleTest]))]

/-- A test loop in which the engine reports `verdict`. -/
def tests (i : AttemptId) (verdict : Engine.Verdict) : List Label :=
  [.attempt i (.runTests fun _ _ ↦ some (.ok ⟨verdict, some 5⟩))]

/-- A test loop in which the engine is not available. -/
def engineFails (i : AttemptId) : List Label := [.attempt i (.runTests fun _ _ ↦ none)]

/-- A delivery on which the engine is not available, with retries remaining. -/
def retried (i : AttemptId) (workerId : WorkerId) : List Label :=
  [.deliver i workerId] ++ claims i ++ loads i ++ engineFails i ++
    [.attempt i (.recover none), .settle]

end Label

/-! ## Everything a step can be -/

/-- The steps of `createSubmission` while `stored` is stored. -/
inductive ApiPc.Step (now : Time) (stored : Option Submission) :
    ApiPc → ApiAct → ApiPc → Option Write → Bool → Prop
  | refused {req : Request} {problem : Except JsError (Option Problem)}
      {count : Except JsError Nat} {e : JsError} : checkProblem problem count = .error e →
      Step now stored .idle (.check req problem count) (.threw e) none false
  | checked {req : Request} {problem : Except JsError (Option Problem)}
      {count : Except JsError Nat} : checkProblem problem count = .ok () →
      Step now stored .idle (.check req problem count) (.checked req) none false
  | createThrew {req : Request} {r : Mongo} {e : JsError} :
      r = some e ∨ (r = none ∧ schemaAccepts req = false) →
      Step now stored (.checked req) (.create r) (.threw e) none false
  | created {req : Request} : schemaAccepts req = true →
      Step now stored (.checked req) (.create none) (.queueing (.create req) now)
        (some ⟨.create, .create req⟩) false
  | queueThrew {c : Submission} {t : Time} {r : Mongo} {e : JsError} :
      r = some e ∨ (r = none ∧ stored = none) →
      Step now stored (.queueing c t) (.queue r) (.threw e) none false
  | queued {c : Submission} {t : Time} {d : Submission} : stored = some d →
      Step now stored (.queueing c t) (.queue none) (.enqueueing (c.queue t))
        (some ⟨.queue, .save c (c.queue t) d⟩) false
  | added {q : Submission} :
      Step now stored (.enqueueing q) (.enqueue .added) .returned none true
  | addedThenThrew {q : Submission} {e : JsError} :
      Step now stored (.enqueueing q) (.enqueue (.addedThenThrew e)) (.refusing q now) none true
  | rejected {q : Submission} {e : JsError} :
      Step now stored (.enqueueing q) (.enqueue (.rejected e)) (.refusing q now) none false
  | refuseThrew {q : Submission} {t : Time} {r : Mongo} :
      r ≠ none ∨ stored = none →
      Step now stored (.refusing q t) (.refuse r) (.threw queueUnavailable) none false
  | refusedStored {q : Submission} {t : Time} {d : Submission} : stored = some d →
      Step now stored (.refusing q t) (.refuse none) (.threw queueUnavailable)
        (some ⟨.refuse, .save q (q.refuse t) d⟩) false

/-- **Inversion** for `createSubmission`. -/
theorem ApiPc.step_inv {now : Time} {stored : Option Submission} {pc pc' : ApiPc} {act : ApiAct}
    {w : Option Write} {placed : Bool}
    (h : pc.step now stored act = some (pc', w, placed)) :
    ApiPc.Step now stored pc act pc' w placed := by
  unfold ApiPc.step at h
  split at h
  case h_1 =>
      split at h <;> cases h
      · exact .refused ‹_›
      · exact .checked ‹_›
  case h_2 => cases h; exact .createThrew (.inl rfl)
  case h_3 =>
      split at h <;> cases h
      · exact .created ‹_›
      · rename_i hs
        exact .createThrew (.inr ⟨rfl, by simpa using hs⟩)
  case h_4 => cases h; exact .queueThrew (.inl rfl)
  case h_5 =>
      cases stored with
      | none => cases h; exact .queueThrew (.inr ⟨rfl, rfl⟩)
      | some d => cases h; exact .queued rfl
  case h_6 => cases h; exact .added
  case h_7 => cases h; exact .addedThenThrew
  case h_8 => cases h; exact .rejected
  case h_9 => cases h; exact .refuseThrew (.inl (by simp))
  case h_10 =>
      cases stored with
      | none => cases h; exact .refuseThrew (.inr rfl)
      | some d => cases h; exact .refusedStored rfl
  case h_11 => cases h

/-- The steps of the system. -/
inductive State.Step (cfg : Config) (s : State) : Label → State → Prop
  | wait {d : Nat} : Step cfg s (.wait d) { s with now := s.now + d }
  | api {act : ApiAct} {pc : ApiPc} {w : Option Write} {placed : Bool} :
      ApiPc.Step s.now s.submission s.api act pc w placed →
      Step cfg s (.api act)
        ({ s with api := pc, job := if placed then .waiting 0 else s.job }.write none w)
  | deliver {i : AttemptId} {workerId : WorkerId} {n : Nat} :
      s.job = .waiting n → s.attempts i = none →
      Step cfg s (.deliver i workerId)
        ({ s with job := .active n i }.setAttempt i (.start (deliveredCall cfg workerId n)))
  | duplicate {i : AttemptId} {call : Call} : s.job ≠ .absent → s.attempts i = none →
      Step cfg s (.duplicate i call) (s.setAttempt i (.start call))
  | attempt {i : AttemptId} {act : Act} {a a' : Attempt} {w : Option Write} :
      s.attempts i = some a → a.step cfg s.now s.submission act = some (a', w) →
      Step cfg s (.attempt i act) ((s.setAttempt i a').write (some i) w)
  | settle {n : Nat} {i : AttemptId} {a : Attempt} {job : Job} :
      s.job = .active n i → s.attempts i = some a → Job.settle cfg n a.pc = some job →
      Step cfg s .settle { s with job }
  | stalled {n : Nat} {i : AttemptId} {a : Attempt} :
      s.job = .active n i → s.attempts i = some a → a.pc = .crashed →
      Step cfg s .stalled { s with job := .waiting n }

/-- **Inversion** for the system. -/
theorem State.step_inv {cfg : Config} {s t : State} {l : Label} (h : s.step cfg l = some t) :
    State.Step cfg s l t := by
  cases l with
  | wait d => cases h; exact .wait
  | api act =>
      obtain ⟨⟨pc, w, placed⟩, hs, rfl⟩ := Option.map_eq_some_iff.mp h
      exact .api (ApiPc.step_inv hs)
  | deliver i workerId =>
      simp only [State.step] at h
      split at h <;> cases h
      exact .deliver ‹_› ‹_›
  | duplicate i call =>
      simp only [State.step] at h
      split at h <;> cases h
      rename_i hg
      exact .duplicate hg.1 hg.2
  | attempt i act =>
      obtain ⟨a, ha, hm⟩ := Option.bind_eq_some_iff.mp h
      obtain ⟨⟨a', w⟩, hs, rfl⟩ := Option.map_eq_some_iff.mp hm
      exact .attempt ha hs
  | settle =>
      simp only [State.step] at h
      split at h
      · rename_i n i hj
        obtain ⟨a, ha, hm⟩ := Option.bind_eq_some_iff.mp h
        obtain ⟨job, hs, rfl⟩ := Option.map_eq_some_iff.mp hm
        exact .settle hj ha hs
      · cases h
  | stalled =>
      simp only [State.step] at h
      split at h
      · rename_i n i hj
        obtain ⟨a, ha, hm⟩ := Option.bind_eq_some_iff.mp h
        split at hm <;> cases hm
        exact .stalled hj ha ‹_›
      · cases h

end CodeArena.Submissions
