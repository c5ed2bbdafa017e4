import CodeArena.Submissions.System

/-!
# What every run keeps: calls, documents and the owner

The facts about the system that hold in every reachable state, whatever fails and
however often the submission is delivered.  They come in three layers.

* `Attempt.Formed` is about one attempt on its own: what its local variables were
  computed from.
* `State.Formed` is about `createSubmission`, the record and the job: no call of
  `processSubmission` comes before the record and its job.
* `State.Owned` is about the *owner*, the attempt that won the latest claim: the
  record carries its worker and its start, and no other write touches these.

Each layer is a step lemma on the inversion relations, and the invariant rule makes
it one of every reachable state.
-/

namespace CodeArena.Submissions

open CodeArena.Lib

/-- The document stored after a step that issued `w`. -/
def Submission.after (d : Submission) : Option Write → Submission
  | none => d
  | some w => w.after

@[simp] theorem Submission.after_none (d : Submission) : d.after none = d := rfl

@[simp] theorem Submission.after_some (d : Submission) (w : Write) :
    d.after (some w) = w.after := rfl

/-- The points of an attempt between its won claim and its last write. -/
def Pc.executing : Pc → Bool
  | .claimed | .loaded _ | .rerunning _ _ _ | .testing _ _ | .saving _ _ | .saved | .caught _ => true
  | _ => false

/-- The points of an attempt before its claim came out. -/
def Pc.before : Pc → Bool
  | .started | .claiming _ _ => true
  | _ => false

/-- The document an attempt holds in memory, while its result is not stored yet. -/
def Pc.memory : Pc → Option Submission
  | .loaded d | .rerunning d _ _ | .saving d _ => some d
  | .testing d _ => some d.doc
  | _ => none

/-- An attempt that is executing is not over. -/
theorem Pc.over_eq_false_of_executing {pc : Pc} (h : pc.executing = true) : pc.over = false := by
  cases pc <;> first | rfl | cases h

/-! ## One attempt -/

/-- What holds of an attempt on its own, at a given time. -/
structure Attempt.Formed (cfg : Config) (now : Time) (a : Attempt) : Prop where
  /-- The cutoff and the start of a claim come from one reading of the clock. -/
  claiming : ∀ {staleCutoff startedAt : Time}, a.pc = .claiming staleCutoff startedAt →
    staleCutoff = startedAt - cfg.staleTimeoutMs ∧ startedAt ≤ now
  /-- A claim takes effect after its clock was read. -/
  claim_le : ∀ {c : Claim}, a.claim = some c → c.startedAt ≤ c.wonAt ∧ c.wonAt ≤ now
  /-- Only a won claim leads into the `try` block. -/
  claim_of_executing : a.pc.executing = true → ∃ c, a.claim = some c
  /-- A claim is won once. -/
  claim_of_before : a.pc.before = true ∨ a.pc = .unclaimed → a.claim = none
  /-- The language was checked where the record was created. -/
  ne_unsupported : ∀ {d : Submission}, a.pc ≠ .saving d .unsupportedLanguage
  /-- What is saved is what the test loop computed, over a document in status RUNNING. -/
  judgement : ∀ {d : Submission} {j : Judgement} {t : Time}, a.pc = .saving d (.judged j t) →
    a.judgement = some j ∧ d.status = .running
  /-- What the test loop computed is sound. -/
  sound : ∀ {j : Judgement}, a.judgement = some j → j.Sound

namespace Attempt

variable {cfg : Config} {now : Time} {d : Submission} {a a' : Attempt} {act : Act}
  {w : Option Write}

theorem Formed.start (call : Call) : (Attempt.start call).Formed cfg now where
  claiming := by rintro _ _ ⟨⟩
  claim_le := by rintro _ ⟨⟩
  claim_of_executing := by rintro ⟨⟩
  claim_of_before _ := rfl
  ne_unsupported := by rintro _ ⟨⟩
  judgement := by rintro _ _ _ ⟨⟩
  sound := by rintro _ ⟨⟩

/-- Time passing changes nothing about an attempt. -/
theorem Formed.mono {now' : Time} (h : a.Formed cfg now) (hle : now ≤ now') :
    a.Formed cfg now' where
  claiming hpc := ⟨(h.claiming hpc).1, Nat.le_trans (h.claiming hpc).2 hle⟩
  claim_le hc := ⟨(h.claim_le hc).1, Nat.le_trans (h.claim_le hc).2 hle⟩
  claim_of_executing := h.claim_of_executing
  claim_of_before := h.claim_of_before
  ne_unsupported := h.ne_unsupported
  judgement := h.judgement
  sound := h.sound

/-- An attempt stays formed wherever it goes without claiming or judging, as long as
it does not go where something is to be shown. -/
theorem Formed.goto (h : a.Formed cfg now) {pc : Pc} (hbefore : pc.before = false)
    (hun : pc = .unclaimed → a.claim = none)
    (hexec : pc.executing = true → a.pc.executing = true) (hsaving : ∀ d f, pc ≠ .saving d f) :
    (a.goto pc).Formed cfg now where
  claiming hpc := by
    obtain rfl : pc = _ := hpc
    cases hbefore
  claim_le := h.claim_le
  claim_of_executing he := h.claim_of_executing (hexec he)
  claim_of_before hb := by
    rcases hb with hb | hb
    · exact absurd (hbefore.symm.trans hb) (by decide)
    · exact hun hb
  ne_unsupported hpc := hsaving _ _ hpc
  judgement hpc := absurd hpc (hsaving _ _)
  sound := h.sound

/-- The points from which an error reaches the `catch` block lie in the `try` block. -/
theorem Raises.executing {pc : Pc} {e : JsError} (h : Raises pc act e) : pc.executing = true := by
  cases h <;> rfl

/-- **Step lemma.**  An attempt stays formed. -/
theorem Step.formed (h : Step cfg now d a act a' w) (ha : a.Formed cfg now)
    (hd : d.language ∈ supportedLanguages) : a'.Formed cfg now := by
  cases h with
  | malformed hpc | skipped hpc | stamped hpc | failedNonRetryable hpc _
  | failedExhausted hpc _ _ | reverted hpc _ _ _ | notReverted hpc _ _ _ | threw _ | crashed _ =>
      exact ha.goto rfl (by rintro ⟨⟩) (by rintro ⟨⟩) (by rintro _ _ ⟨⟩)
  | claimLost hpc _ =>
      have hnone := ha.claim_of_before (.inl (by rw [hpc]; rfl))
      exact ha.goto rfl (fun _ ↦ hnone) (by rintro ⟨⟩) (by rintro _ _ ⟨⟩)
  | loaded hpc _ | foundRunning hpc | foundOther hpc _ | rerun hpc | saved hpc =>
      exact ha.goto rfl (by rintro ⟨⟩) (fun _ ↦ by rw [hpc]; rfl) (by rintro _ _ ⟨⟩)
  | caught hr => exact ha.goto rfl (by rintro ⟨⟩) (fun _ ↦ hr.executing) (by rintro _ _ ⟨⟩)
  | unsupported _ hl => exact absurd hd hl
  | readClock hpc _ =>
      exact {
        claiming := by rintro _ _ ⟨⟩; exact ⟨rfl, Nat.le_refl _⟩
        claim_le := ha.claim_le
        claim_of_executing := by rintro ⟨⟩
        claim_of_before := fun _ ↦ ha.claim_of_before (.inl (by rw [hpc]; rfl))
        ne_unsupported := by rintro _ ⟨⟩
        judgement := by rintro _ _ _ ⟨⟩
        sound := ha.sound }
  | claimWon hpc _ =>
      exact {
        claiming := by rintro _ _ ⟨⟩
        claim_le := by rintro _ ⟨⟩; exact ⟨(ha.claiming hpc).2, Nat.le_refl _⟩
        claim_of_executing := fun _ ↦ ⟨_, rfl⟩
        claim_of_before := by rintro (⟨⟨⟩⟩ | ⟨⟨⟩⟩)
        ne_unsupported := by rintro _ ⟨⟩
        judgement := by rintro _ _ _ ⟨⟩
        sound := ha.sound }
  | @judged s ts engine j hpc hj =>
      exact {
        claiming := by rintro _ _ ⟨⟩
        claim_le := ha.claim_le
        claim_of_executing := fun _ ↦ ha.claim_of_executing (by rw [hpc]; rfl)
        claim_of_before := by rintro (⟨⟨⟩⟩ | ⟨⟨⟩⟩)
        ne_unsupported := by rintro _ ⟨⟩
        judgement := by rintro _ _ _ ⟨⟩; exact ⟨rfl, s.running⟩
        sound := by rintro _ ⟨⟩; exact executeTests_sound ts.2 hj }

/-- An attempt that moves is not over. -/
theorem Step.not_over (h : Step cfg now d a act a' w) : a.pc.over = false := by
  cases h with
  | crashed ho => exact ho
  | caught hr => exact Pc.over_eq_false_of_executing hr.executing
  | threw hr => generalize a.pc = pc at hr; cases hr <;> rfl
  | malformed hpc | readClock hpc | claimWon hpc | claimLost hpc | skipped hpc | unsupported hpc
  | loaded hpc | foundRunning hpc | foundOther hpc | rerun hpc | judged hpc | saved hpc
  | stamped hpc | failedNonRetryable hpc | failedExhausted hpc | reverted hpc
  | notReverted hpc => rw [hpc]; rfl

/-- An attempt is a call on the same job for as long as it lasts. -/
theorem Step.call_eq (h : Step cfg now d a act a' w) : a'.call = a.call := by
  cases h <;> rfl

/-- No step of an attempt changes the language. -/
theorem Step.language (h : Step cfg now d a act a' w) : (d.after w).language = d.language := by
  cases h with
  | @saved s f hpc => cases f <;> exact Submission.changed_self _ _
  | @rerun s t ts hpc => exact Submission.changed_self _ _
  | _ => rfl

end Attempt

/-- Two documents are marked by the same claim. -/
def Submission.SameMark (d d' : Submission) : Prop :=
  d'.execution.workerId = d.execution.workerId ∧ d'.execution.startedAt = d.execution.startedAt

namespace Attempt

variable {cfg : Config} {now : Time} {d : Submission} {a a' : Attempt} {act : Act}
  {w : Option Write}

/-- A step wins the claim, or it issues no claim and keeps the mark of the latest
one. -/
theorem Step.claim_or (h : Step cfg now d a act a' w) :
    (∃ staleCutoff startedAt, a.pc = .claiming staleCutoff startedAt ∧ act = .claim none ∧
      d.ClaimFilter staleCutoff ∧ a' = { a with pc := .claimed, claim := some ⟨startedAt, now⟩ } ∧
      w = some ⟨.claim, d.claim a.call.workerId startedAt⟩) ∨
    (a'.claim = a.claim ∧ (∀ x, w = some x → x.kind ≠ .claim) ∧ d.SameMark (d.after w)) := by
  cases h with
  | claimWon hpc hf => exact .inl ⟨_, _, hpc, rfl, hf, rfl, rfl⟩
  | @rerun s t ts hpc =>
      exact .inr ⟨rfl, by rintro _ ⟨⟩; exact nofun,
        Submission.changed_self _ _, Submission.changed_self _ _⟩
  | @saved s f hpc =>
      refine .inr ⟨rfl, by rintro _ ⟨⟩; exact nofun, ?_⟩
      cases f <;> exact ⟨Submission.changed_self _ _, Submission.changed_self _ _⟩
  | stamped | failedNonRetryable | failedExhausted | reverted =>
      exact .inr ⟨rfl, by rintro _ ⟨⟩; exact nofun, rfl, rfl⟩
  | _ => exact .inr ⟨rfl, by rintro _ ⟨⟩, rfl, rfl⟩

/-- Only a won claim leads to where an attempt executes. -/
theorem Step.executing_back (h : Step cfg now d a act a' w) (hclaim : a'.claim = a.claim)
    (ha : a.Formed cfg now) (hexec : a'.pc.executing = true) : a.pc.executing = true := by
  cases h with
  | claimWon hpc =>
      have hnone := ha.claim_of_before (.inl (by rw [hpc]; rfl))
      cases hclaim.trans hnone
  | loaded hpc | unsupported hpc | foundRunning hpc | foundOther hpc | rerun hpc | judged hpc
  | saved hpc => rw [hpc]; rfl
  | caught hr => exact hr.executing
  | _ => cases hexec

/-- Only an executing attempt writes, its claim apart. -/
theorem Step.executing_of_write {x : Write} (h : Step cfg now d a act a' (some x))
    (hx : x.kind ≠ .claim) : a.pc.executing = true := by
  cases h with
  | claimWon => exact absurd rfl hx
  | rerun hpc | saved hpc | stamped hpc | failedNonRetryable hpc | failedExhausted hpc
  | reverted hpc => rw [hpc]; rfl

end Attempt

/-! ## The record and its job -/

/-- A settled job was placed. -/
theorem Job.settle_ne_absent {cfg : Config} {n : Nat} {pc : Pc} {job : Job}
    (h : Job.settle cfg n pc = some job) : job ≠ .absent := by
  cases pc with
  | returned => cases h; nofun
  | threw =>
      simp only [Job.settle] at h
      split at h <;> cases h <;> nofun
  | _ => cases h

namespace State

variable {s : State} {d : Submission} {w : Option Write}

/-- What is stored after a write on a stored document. -/
theorem write_submission_of {x : Option AttemptId} (hd : s.submission = some d) :
    (s.write x w).submission = some (d.after w) := by
  cases w
  · exact hd
  · rfl

/-- What is stored after the step of an attempt. -/
theorem attempt_submission {x : Option AttemptId} {i : AttemptId} {a : Attempt}
    (hd : s.submission = some d) :
    ((s.setAttempt i a).write x w).submission = some (d.after w) :=
  write_submission_of hd

/-- The attempts after the step of one of them. -/
theorem attempts_after {x : Option AttemptId} {i j : AttemptId} {a b : Attempt} :
    ((s.setAttempt i a).write x w).attempts j = some b ↔
      (j = i ∧ b = a) ∨ (j ≠ i ∧ s.attempts j = some b) := by
  rw [write_attempts, setAttempt_attempts_eq_some]

end State

/-- The document in the hands of `createSubmission` between its two saves. -/
def Submission.Queued (q : Submission) : Prop :=
  ∃ req t, schemaAccepts req = true ∧ q = (Submission.create req).queue t

/-- How far `createSubmission` got says what is stored and whether the job exists. -/
def ApiPc.Formed (submission : Option Submission) (job : Job) : ApiPc → Prop
  | .idle | .checked _ => submission = none ∧ job = .absent
  | .queueing c _ => submission = some c ∧ job = .absent ∧
      ∃ req, schemaAccepts req = true ∧ c = .create req
  | .enqueueing q => submission = some q ∧ job = .absent ∧ q.Queued
  | .refusing q _ => submission.isSome = true ∧ q.Queued
  | .returned => job ≠ .absent
  | .threw _ => True

/-- Once the job was placed, `createSubmission` only needs the record to be there. -/
theorem ApiPc.Formed.of_ne_absent {pc : ApiPc} {submission submission' : Option Submission}
    {job job' : Job} (h : pc.Formed submission job) (hj : job ≠ .absent) (hj' : job' ≠ .absent)
    (hs : submission'.isSome = true) : pc.Formed submission' job' := by
  cases pc with
  | idle | checked => exact absurd h.2 hj
  | queueing | enqueueing => exact absurd h.2.1 hj
  | refusing => exact ⟨hs, h.2⟩
  | returned => exact hj'
  | threw => trivial

/-- What holds of the parts of every reachable state. -/
structure State.Formed (cfg : Config) (s : State) : Prop where
  api : s.api.Formed s.submission s.job
  /-- A job is placed for a record. -/
  stored : s.job ≠ .absent → s.submission.isSome = true
  /-- No call comes before the job. -/
  absent : s.job = .absent → ∀ i, s.attempts i = none
  language : ∀ {d}, s.submission = some d → d.language ∈ supportedLanguages
  attempts : ∀ {i a}, s.attempts i = some a → a.Formed cfg s.now

namespace State.Formed

variable {cfg : Config} {s t : State} {d : Submission} {l : Label} {i : AttemptId}
  {a a' : Attempt} {act : Act} {w : Option Write}

theorem init : State.init.Formed cfg where
  api := ⟨rfl, rfl⟩
  stored h := absurd rfl h
  absent _ _ := rfl
  language := by rintro _ ⟨⟩
  attempts := by rintro _ _ ⟨⟩

theorem job_ne_absent (h : s.Formed cfg) (ha : s.attempts i = some a) : s.job ≠ .absent :=
  fun hj ↦ by cases (h.absent hj i).symm.trans ha

/-- Where there is an attempt there is a record. -/
theorem exists_stored (h : s.Formed cfg) (ha : s.attempts i = some a) :
    ∃ d, s.submission = some d :=
  Option.isSome_iff_exists.mp (h.stored (h.job_ne_absent ha))

/-- **Inversion** for an attempt of a formed state. -/
theorem attempt_step (h : s.Formed cfg) (ha : s.attempts i = some a)
    (hstep : a.step cfg s.now s.submission act = some (a', w)) :
    ∃ d, s.submission = some d ∧ Attempt.Step cfg s.now d a act a' w := by
  obtain ⟨d, hd⟩ := h.exists_stored ha
  rw [hd] at hstep
  exact ⟨d, hd, Attempt.step_inv cfg s.now hstep⟩

/-- What `createSubmission` wrote keeps `stored` and `language`, and where it placed
the job there is a record. -/
theorem api_step {pc : ApiPc} {aact : ApiAct} {placed : Bool} (h : s.Formed cfg)
    (hstep : ApiPc.Step s.now s.submission s.api aact pc w placed) :
    ({ s with api := pc, job := if placed then .waiting 0 else s.job }.write none w).Formed cfg := by
  have hapi := h.api
  obtain ⟨now, submission, api, job, attempts, log⟩ := s
  cases hstep with
  | refused | createThrew | queueThrew | refuseThrew =>
      exact ⟨trivial, h.stored, h.absent, h.language, h.attempts⟩
  | checked => exact ⟨hapi, h.stored, h.absent, h.language, h.attempts⟩
  | @created req hs =>
      obtain ⟨-, rfl⟩ := hapi
      have hl : req.language ∈ supportedLanguages := by
        simp only [schemaAccepts, decide_eq_true_eq] at hs
        exact hs.1
      exact ⟨⟨rfl, rfl, req, hs, rfl⟩, fun _ ↦ rfl, h.absent, by rintro _ ⟨⟩; exact hl, h.attempts⟩
  | @queued c t d hd =>
      obtain ⟨hc, rfl, req, hs, rfl⟩ := hapi
      obtain rfl : d = .create req := Option.some.inj (hd.symm.trans hc)
      have hl := h.language hd
      refine ⟨⟨?_, rfl, req, t, hs, rfl⟩, fun _ ↦ rfl, h.absent, ?_, h.attempts⟩
      · simp
      · simp only [State.write_submission, Submission.save_loaded]
        rintro _ ⟨⟩
        exact hl
  | added =>
      obtain ⟨hc, -, -⟩ := hapi
      exact ⟨nofun, fun _ ↦ by rw [hc]; rfl, nofun, h.language, h.attempts⟩
  | addedThenThrew =>
      obtain ⟨hc, -, hq⟩ := hapi
      exact ⟨⟨by rw [hc]; rfl, hq⟩, fun _ ↦ by rw [hc]; rfl, nofun, h.language, h.attempts⟩
  | rejected =>
      obtain ⟨hc, -, hq⟩ := hapi
      exact ⟨⟨by rw [hc]; rfl, hq⟩, h.stored, h.absent, h.language, h.attempts⟩
  | @refusedStored q t d hd =>
      have hl := h.language hd
      refine ⟨trivial, fun _ ↦ rfl, h.absent, ?_, h.attempts⟩
      rintro _ ⟨⟩
      exact (congrArg (· ∈ supportedLanguages) (Submission.changed_self _ _)).mpr hl

/-- The attempts after one of them was replaced by a formed one. -/
theorem attempts_setAttempt (h : s.Formed cfg) (ha : a.Formed cfg s.now) {x : Option AttemptId}
    {j : AttemptId} {b : Attempt} (hb : ((s.setAttempt i a).write x w).attempts j = some b) :
    b.Formed cfg s.now := by
  rcases State.attempts_after.mp hb with ⟨-, rfl⟩ | ⟨-, hb⟩
  · exact ha
  · exact h.attempts hb

/-- **Step lemma** for the parts of the state. -/
theorem step (h : s.Formed cfg) (hstep : s.step cfg l = some t) : t.Formed cfg := by
  cases State.step_inv hstep with
  | wait =>
      exact ⟨h.api, h.stored, h.absent, h.language,
        fun ha ↦ (h.attempts ha).mono (Nat.le_add_right _ _)⟩
  | api hs => exact h.api_step hs
  | deliver hj hi =>
      have hne : s.job ≠ .absent := by rw [hj]; nofun
      exact ⟨h.api.of_ne_absent hne nofun (h.stored hne), fun _ ↦ h.stored hne, nofun,
        h.language, h.attempts_setAttempt (w := none) (x := none) (.start _)⟩
  | duplicate hne hi =>
      exact ⟨h.api, h.stored, fun hj ↦ absurd hj hne, h.language,
        h.attempts_setAttempt (w := none) (x := none) (.start _)⟩
  | @attempt i act a a' w ha hs =>
      obtain ⟨d, hd, hs⟩ := h.attempt_step ha hs
      have hne := h.job_ne_absent ha
      have hsub : ((s.setAttempt i a').write (some i) w).submission = some (d.after w) :=
        State.attempt_submission hd
      have ha' : a'.Formed cfg s.now := hs.formed (h.attempts ha) (h.language hd)
      refine ⟨?_, fun _ ↦ by rw [hsub]; rfl, ?_, ?_, ?_⟩
      · simp only [State.write_api, State.write_job, State.setAttempt_api, State.setAttempt_job]
        exact h.api.of_ne_absent hne hne (by rw [hsub]; rfl)
      · simp only [State.write_job, State.setAttempt_job]
        exact fun hj ↦ absurd hj hne
      · intro d' hd'
        obtain rfl : d.after w = d' := Option.some.inj (hsub.symm.trans hd')
        rw [hs.language]
        exact h.language hd
      · rw [State.write_now]
        exact h.attempts_setAttempt ha'
  | settle hj ha hjob =>
      have hne := h.job_ne_absent ha
      have hjob : _ ≠ Job.absent := Job.settle_ne_absent hjob
      exact ⟨h.api.of_ne_absent hne hjob (h.stored hne), fun _ ↦ h.stored hne,
        fun hc ↦ absurd hc hjob, h.language, h.attempts⟩
  | stalled hj ha hc =>
      have hne := h.job_ne_absent ha
      exact ⟨h.api.of_ne_absent hne nofun (h.stored hne), fun _ ↦ h.stored hne, nofun,
        h.language, h.attempts⟩

end State.Formed

/-- **The parts of every reachable state are formed.** -/
theorem formed_of_reachable {cfg : Config} {ok : State → Label → Prop} {s : State}
    (h : (system cfg).Reachable ok s) : s.Formed cfg :=
  h.invariant .init fun _ _ _ hs _ hstep ↦ hs.step hstep

/-! ## Calls -/

/-- The call of `processSubmission` that a label starts. -/
def Label.starts : Label → Option AttemptId
  | .deliver i _ | .duplicate i _ => some i
  | _ => none

/-- Only the calls that a run started are there after it. -/
theorem exists_starts_of_run {cfg : Config} {ok : State → Label → Prop} {s t : State}
    {ls : List Label} {i : AttemptId} (h : (system cfg).Run ok s ls t)
    (hi : s.attempts i = none) (ht : t.attempts i ≠ none) :
    ∃ l ∈ ls, l.starts = some i := by
  induction h with
  | nil _ => exact absurd hi ht
  | @cons s r t l ls hok hs _ ih =>
      by_cases hr : r.attempts i = none
      · obtain ⟨k, hk, hki⟩ := ih hr ht
        exact ⟨k, List.mem_cons_of_mem _ hk, hki⟩
      refine ⟨l, List.mem_cons_self .., ?_⟩
      by_contra hl
      refine hr ?_
      cases State.step_inv hs with
      | wait | settle | stalled => exact hi
      | api => simpa using hi
      | @deliver j | @duplicate j =>
          have hne : i ≠ j := fun hij ↦ hl (by rw [hij]; rfl)
          exact (State.setAttempt_attempts_of_ne _ _ _ hne).trans hi
      | @attempt j act a a' w ha =>
          have hne : i ≠ j := by rintro rfl; cases hi.symm.trans ha
          rw [State.write_attempts]
          exact (State.setAttempt_attempts_of_ne _ _ _ hne).trans hi

/-! ## The owner -/

/-- `createSubmission` claims nothing. -/
theorem ApiPc.Step.kind_ne_claim {now : Time} {stored : Option Submission} {pc pc' : ApiPc}
    {act : ApiAct} {w : Option Write} {placed : Bool}
    (h : ApiPc.Step now stored pc act pc' w placed) : ∀ x, w = some x → x.kind ≠ .claim := by
  cases h <;> rintro _ ⟨⟩ <;> nofun

/-- The writer of the latest claim in a write history, newest first. -/
def ownerOf (log : List Entry) : Option AttemptId :=
  (log.find? fun e ↦ e.kind = .claim).bind Entry.writer

namespace State

/-- The owner of the submission: the attempt that won the latest claim. -/
def owner (s : State) : Option AttemptId := ownerOf s.log

section

variable (s : State) (x : Option AttemptId) (w : Write)

theorem owner_write_claim (h : w.kind = .claim) : (s.write x (some w)).owner = x := by
  simp [owner, ownerOf, h]

theorem owner_write_of_ne (h : w.kind ≠ .claim) : (s.write x (some w)).owner = s.owner := by
  simp [owner, ownerOf, h]

/-- A step that wins no claim keeps the owner. -/
theorem owner_write_of_forall_ne {w : Option Write} (h : ∀ v, w = some v → v.kind ≠ .claim) :
    (s.write x w).owner = s.owner := by
  cases w with
  | none => rfl
  | some v => exact s.owner_write_of_ne x v (h v rfl)

end

/-- What holds of the owner in every reachable state. -/
structure Owned (s : State) : Prop where
  /-- Without an owner no claim was won. -/
  unowned : s.owner = none → ∀ {i a}, s.attempts i = some a → a.claim = none
  /-- Without an owner the record is as `createSubmission` left it. -/
  refusing : s.owner = none → ∀ {q t}, s.api = .refusing q t → s.submission = some q
  /-- The record carries the owner's worker and start. -/
  marked : ∀ {o}, s.owner = some o → ∃ a c d, s.attempts o = some a ∧ a.claim = some c ∧
    s.submission = some d ∧ d.execution.workerId = some a.call.workerId ∧
    d.execution.startedAt = some c.startedAt

namespace Owned

variable {cfg : Config} {s t : State} {d : Submission} {l : Label} {i : AttemptId}
  {a a' : Attempt} {act : Act} {w : Option Write}

theorem init : State.init.Owned where
  unowned _ := by rintro _ _ ⟨⟩
  refusing _ := by rintro _ _ ⟨⟩
  marked := by rintro _ ⟨⟩

/-- A new call leaves the owner alone. -/
theorem call (h : s.Owned) {call : Call} (job : Job) (hi : s.attempts i = none) :
    State.Owned ({ s with job }.setAttempt i (.start call)) where
  unowned ho _ _ hb := by
    rcases (State.setAttempt_attempts_eq_some ..).mp hb with ⟨-, rfl⟩ | ⟨-, hb⟩
    · rfl
    · exact h.unowned ho hb
  refusing := h.refusing
  marked {o} ho := by
    obtain ⟨a, c, d, ha, hrest⟩ := h.marked ho
    have hne : o ≠ i := by rintro rfl; cases hi.symm.trans ha
    exact ⟨a, c, d, (State.setAttempt_attempts_eq_some ..).mpr (.inr ⟨hne, ha⟩), hrest⟩

/-- The writes of `createSubmission` are no claims and keep the mark. -/
theorem api_step {pc : ApiPc} {aact : ApiAct} {placed : Bool} (h : s.Owned) (hf : s.Formed cfg)
    (hstep : ApiPc.Step s.now s.submission s.api aact pc w placed) :
    State.Owned
      ({ s with api := pc, job := if placed then .waiting 0 else s.job }.write none w) := by
  have hapi := hf.api
  have habsent := hf.absent
  obtain ⟨now, submission, api, job, attempts, log⟩ := s
  -- Before the job is placed there is no attempt, and so no owner.
  have hno : ∀ {o}, job = .absent → ownerOf log ≠ some o := fun {o} hj ho ↦ by
    obtain ⟨_, _, _, ha, -⟩ := h.marked ho
    cases (habsent hj o).symm.trans ha
  cases hstep with
  | refused | checked | createThrew | queueThrew | added | refuseThrew =>
      exact ⟨h.unowned, fun _ ↦ by rintro _ _ ⟨⟩, h.marked⟩
  | created =>
      exact ⟨h.unowned, fun _ ↦ by rintro _ _ ⟨⟩, fun ho ↦ absurd ho (hno hapi.2)⟩
  | queued hd =>
      exact ⟨h.unowned, fun _ ↦ by rintro _ _ ⟨⟩, fun ho ↦ absurd ho (hno hapi.2.1)⟩
  | addedThenThrew | rejected =>
      exact ⟨h.unowned, fun _ ↦ by rintro _ _ ⟨⟩; exact hapi.1, h.marked⟩
  | @refusedStored q t d hd =>
      constructor
      case unowned => exact h.unowned
      case refusing =>
        intro _
        rintro _ _ ⟨⟩
      case marked =>
        intro _ ho
        obtain ⟨a, c, d', ha, hc, hd', hw, hs⟩ := h.marked ho
        obtain rfl : d = d' := Option.some.inj (hd.symm.trans hd')
        exact ⟨a, c, _, ha, hc, rfl, (Submission.changed_self _ _).trans hw,
          (Submission.changed_self _ _).trans hs⟩

/-- **Step lemma** for an attempt that wins no claim. -/
theorem attempt_step (h : s.Owned) (hf : s.Formed cfg) (ha : s.attempts i = some a)
    (hd : s.submission = some d) (hs : Attempt.Step cfg s.now d a act a' w)
    (hclaim : a'.claim = a.claim) (hw : ∀ x, w = some x → x.kind ≠ .claim)
    (hmark : d.SameMark (d.after w)) : State.Owned ((s.setAttempt i a').write (some i) w) := by
  have howner : ((s.setAttempt i a').write (some i) w).owner = s.owner :=
    State.owner_write_of_forall_ne _ _ hw
  constructor
  case unowned =>
    intro ho j b hb
    rw [howner] at ho
    rcases State.attempts_after.mp hb with ⟨-, rfl⟩ | ⟨-, hb⟩
    · exact hclaim.trans (h.unowned ho ha)
    · exact h.unowned ho hb
  case refusing =>
    intro ho q t hapi
    rw [State.write_api] at hapi
    rw [howner] at ho
    cases w with
    | none => exact h.refusing ho hapi
    | some x =>
        -- Only an executing attempt writes, and without an owner none executes.
        obtain ⟨c, hc⟩ := (hf.attempts ha).claim_of_executing
          (hs.executing_of_write (hw x rfl))
        cases (h.unowned ho ha).symm.trans hc
  case marked =>
    intro o ho
    rw [howner] at ho
    obtain ⟨b, c, d', hb, hc, hd', hworker, hstart⟩ := h.marked ho
    obtain rfl : d = d' := Option.some.inj (hd.symm.trans hd')
    have hsub := State.attempt_submission (w := w) (x := some i) (i := i) (a := a') hd
    by_cases hoi : o = i
    · subst hoi
      obtain rfl : a = b := Option.some.inj (ha.symm.trans hb)
      refine ⟨a', c, _, State.attempts_after.mpr (.inl ⟨rfl, rfl⟩), hclaim.trans hc, hsub, ?_,
        hmark.2.trans hstart⟩
      rw [hs.call_eq]
      exact hmark.1.trans hworker
    · exact ⟨b, c, _, State.attempts_after.mpr (.inr ⟨hoi, hb⟩), hc, hsub,
        hmark.1.trans hworker, hmark.2.trans hstart⟩

/-- **Step lemma** for the owner. -/
theorem step (h : s.Owned) (hf : s.Formed cfg) (hstep : s.step cfg l = some t) : t.Owned := by
  cases State.step_inv hstep with
  | wait => exact ⟨h.unowned, h.refusing, h.marked⟩
  | api hs => exact h.api_step hf hs
  | deliver hj hi => exact h.call _ hi
  | duplicate hne hi => exact h.call s.job hi
  | @attempt i act a a' w ha hs =>
      obtain ⟨d, hd, hs⟩ := hf.attempt_step ha hs
      rcases hs.claim_or with ⟨c, t, hpc, -, -, rfl, rfl⟩ | ⟨hclaim, hw, hmark⟩
      · have howner : ∀ u : State, (u.write (some i) (some ⟨.claim, d.claim a.call.workerId t⟩)).owner
            = some i := fun u ↦ u.owner_write_claim _ _ rfl
        constructor
        case unowned =>
          intro ho
          cases (howner _).symm.trans ho
        case refusing =>
          intro ho
          cases (howner _).symm.trans ho
        case marked =>
          intro o ho
          obtain rfl : i = o := Option.some.inj ((howner _).symm.trans ho)
          exact ⟨{ a with pc := .claimed, claim := some ⟨t, s.now⟩ }, ⟨t, s.now⟩, _, by simp, rfl, rfl,
            rfl, rfl⟩
      · exact h.attempt_step hf ha hd hs hclaim hw hmark
  | settle => exact ⟨h.unowned, h.refusing, h.marked⟩
  | stalled => exact ⟨h.unowned, h.refusing, h.marked⟩

end Owned

end State

/-- **The owner of every reachable state is marked in the record.** -/
theorem owned_of_reachable {cfg : Config} {ok : State → Label → Prop} {s : State}
    (h : (system cfg).Reachable ok s) : s.Owned :=
  h.invariant_with (fun _ ↦ formed_of_reachable) .init fun _ _ _ hf hs _ hstep ↦ hs.step hf hstep

end CodeArena.Submissions
