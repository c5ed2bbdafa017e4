import CodeArena.Submissions.Owner

/-!
# Refused submissions

`createSubmission` writes to two systems in three steps, and takes back what it wrote in
one of its error paths: where `queue.add` threw, it saves FAILED over the record.  That
save is unconditional and prepared on the document as it was before the job existed, so
what it achieves depends on the workers: `queue.add` may have placed the job although it
threw.  The save of QUEUED has no such path at all.

`Compensated` is the condition under which a refusal is one: the save of QUEUED does not
fail, and the compensation comes while no attempt is judging the submission and none has
stored a verdict.
-/

namespace CodeArena.Submissions

open CodeArena.Lib

/-! ## The assumption and the condition -/

/-- Of all MongoDB calls only the creation of the record and the save of QUEUED may
fail. -/
def OnlySubmitFails (_ : State) : Label → Prop
  | .api (.create _) | .api (.queue _) => True
  | l => l.mongoFails = false

/-- `OnlySubmitFails`, decided. -/
def onlySubmitFails : Label → Bool
  | .api (.create _) | .api (.queue _) => true
  | l => !l.mongoFails

theorem onlySubmitFails_iff {s : State} {l : Label} :
    onlySubmitFails l = true ↔ OnlySubmitFails s l := by
  unfold onlySubmitFails OnlySubmitFails
  split <;> simp

instance (s : State) (l : Label) : Decidable (OnlySubmitFails s l) :=
  decidable_of_iff _ onlySubmitFails_iff

/-- The points of an attempt from which it can still store a result. -/
def Pc.judging : Pc → Bool
  | .claimed | .loaded _ | .rerunning _ _ _ | .testing _ _ | .saving _ _ => true
  | _ => false

/-- The steps under which a refusal is one: the save of QUEUED succeeds, and the save of
FAILED finds no verdict and no attempt that is about to store one. -/
def Compensated (s : State) : Label → Prop
  | .api (.queue r) => r = none
  | .api (.refuse none) => (∀ d ∈ s.submission, d.verdict = .pending) ∧
      ∀ i, ∀ a ∈ s.attempts i, a.pc.judging = false
  | _ => True

/-! ## A refused record stays refused -/

/-- A record that was refused: failed, with its date and message, and not judged. -/
structure Submission.Refused (d : Submission) : Prop where
  status : d.status = .failed
  verdict : d.verdict = .pending
  failedAt : d.failedAt ≠ none
  errorMessage : d.errorMessage ≠ none

/-- The save of FAILED refuses a record without a verdict. -/
theorem Submission.Queued.refused {q d : Submission} (hq : q.Queued) (hd : d.verdict = .pending)
    (t : Time) : (Submission.save q (q.refuse t) d).Refused := by
  have hverdict : (Submission.save q (q.refuse t) d).verdict = d.verdict := changed_self _ _
  obtain ⟨req, u, -, rfl⟩ := hq
  exact ⟨rfl, hverdict.trans hd, nofun, nofun⟩

/-- **Step lemma.**  An attempt that is not judging leaves a refused record refused, and
does not get to judge it. -/
theorem Attempt.Step.refused {cfg : Config} {now : Time} {d : Submission} {a a' : Attempt}
    {act : Act} {w : Option Write} (h : Attempt.Step cfg now d a act a' w) (hd : d.Refused)
    (ha : a.pc.judging = false) : (d.after w).Refused ∧ a'.pc.judging = false := by
  have hfailed := hd.status
  cases h with
  | claimWon _ hfilter =>
      rcases hfilter with hq | ⟨hr, -⟩
      · cases hfailed.symm.trans hq
      · cases hfailed.symm.trans hr
  | loaded hpc | unsupported hpc | foundRunning hpc | foundOther hpc | rerun hpc | judged hpc
  | saved hpc => rw [hpc] at ha; cases ha
  | stamped => exact ⟨⟨hd.status, hd.verdict, hd.failedAt, hd.errorMessage⟩, rfl⟩
  | failedNonRetryable | failedExhausted => exact ⟨⟨rfl, hd.verdict, nofun, nofun⟩, rfl⟩
  | reverted _ _ _ hr => cases hfailed.symm.trans hr
  | _ => exact ⟨hd, rfl⟩

namespace State

variable {cfg : Config} {s t : State} {d : Submission} {l : Label} {i : AttemptId}
  {a a' : Attempt} {act : Act} {w : Option Write}

/-- Nothing was created, or the record was refused and nobody is judging it. -/
def Refused (s : State) : Prop :=
  s.submission = none ∨
    ∃ d, s.submission = some d ∧ d.Refused ∧
      ∀ i a, s.attempts i = some a → a.pc.judging = false

namespace Refused

/-- **Step lemma**, once `createSubmission` threw. -/
theorem step (h : s.Refused) (hf : s.Formed cfg) {e : JsError} (hapi : s.api = .threw e)
    (hstep : s.step cfg l = some t) : t.Refused := by
  rcases h with hnone | ⟨d, hd, hrefused, hjudging⟩
  · -- Without a record there is no job, and no call.
    have hjob : s.job = .absent := by
      by_contra hj
      cases (Option.isSome_iff_exists.mp (hf.stored hj)) with
      | intro d hd => cases hnone.symm.trans hd
    left
    cases State.step_inv hstep with
    | wait => exact hnone
    | api hs => rw [hapi] at hs; cases hs
    | deliver hj => cases hjob.symm.trans hj
    | duplicate hj => exact absurd hjob hj
    | attempt ha => cases (hf.absent hjob _).symm.trans ha
    | settle hj | stalled hj => cases hjob.symm.trans hj
  · right
    have hcall : ∀ {i call}, ∀ j a, (s.setAttempt i (.start call)).attempts j = some a →
        a.pc.judging = false := by
      intro i call j a ha
      rcases (State.setAttempt_attempts_eq_some ..).mp ha with ⟨-, rfl⟩ | ⟨-, ha⟩
      · rfl
      · exact hjudging j a ha
    cases State.step_inv hstep with
    | wait | settle | stalled => exact ⟨d, hd, hrefused, hjudging⟩
    | api hs => rw [hapi] at hs; cases hs
    | deliver | duplicate => exact ⟨d, hd, hrefused, hcall⟩
    | attempt ha hs =>
        obtain ⟨d', hd', hs⟩ := hf.attempt_step ha hs
        obtain rfl : d = d' := Option.some.inj (hd.symm.trans hd')
        obtain ⟨hrefused', hpc⟩ := hs.refused hrefused (hjudging _ _ ha)
        refine ⟨_, State.attempt_submission hd, hrefused', fun j b hb ↦ ?_⟩
        rcases State.attempts_after.mp hb with ⟨-, rfl⟩ | ⟨-, hb⟩
        · exact hpc
        · exact hjudging j b hb

/-- `createSubmission` throws over nothing, or over a record it refused. -/
theorem of_threw (hf : s.Formed cfg) {aact : ApiAct} {e : JsError} {placed : Bool}
    (hstep : ApiPc.Step s.now s.submission s.api aact (.threw e) w placed)
    (hok : OnlySubmitFails s (.api aact)) (hcomp : Compensated s (.api aact)) :
    State.Refused
      ({ s with api := .threw e, job := if placed then .waiting 0 else s.job }.write none w) := by
  have hapi := hf.api
  generalize hpc : s.api = pc at hstep hapi
  cases hstep with
  | refused | createThrew => exact .inl hapi.1
  | queueThrew hr =>
      have hr' : _ = none := hcomp
      rcases hr with hr | ⟨-, hnone⟩
      · cases hr'.symm.trans hr
      · cases hnone.symm.trans hapi.1
  | @refuseThrew q t r hr =>
      rcases hr with hr | hnone
      · have hm : r.isSome = false := hok
        cases r with
        | none => exact absurd rfl hr
        | some e => cases hm
      · rw [hnone] at hapi
        cases hapi.1
  | refusedStored hd =>
      obtain ⟨hverdict, hjudging⟩ := hcomp
      exact .inr ⟨_, rfl, hapi.2.refused (hverdict _ hd) _, fun i a ha ↦ hjudging i a ha⟩

end Refused

end State

/-- **A refused submission is never judged and never left pending**, in every run whose
refusals are compensated: when `createSubmission` threw, there is no record, or it is
FAILED with its date and message and has no verdict. -/
theorem refused_never_judged {cfg : Config} {s : State} {e : JsError}
    (h : (system cfg).Reachable (fun s l ↦ OnlySubmitFails s l ∧ Compensated s l) s)
    (hapi : s.api = .threw e) :
    s.submission = none ∨ ∃ d, s.submission = some d ∧ d.status = .failed ∧
      d.verdict = .pending ∧ d.failedAt ≠ none ∧ d.errorMessage ≠ none := by
  have hrefused : s.Refused := by
    refine h.invariant_with (I := fun s ↦ ∀ e, s.api = .threw e → s.Refused)
      (fun _ ↦ formed_of_reachable) (by rintro _ ⟨⟩) (fun s l t hf hI hok hstep e ht ↦ ?_) e hapi
    by_cases hs : ∃ e, s.api = .threw e
    · obtain ⟨e', he'⟩ := hs
      exact (hI e' he').step hf he' hstep
    · cases State.step_inv hstep with
      | @api act pc w placed hs' =>
          obtain rfl : pc = .threw e := by simpa using ht
          exact .of_threw hf hs' hok.1 hok.2
      | attempt => exact absurd ⟨e, by simpa using ht⟩ hs
      | _ => exact absurd ⟨e, ht⟩ hs
  rcases hrefused with hnone | ⟨d, hd, hr, -⟩
  · exact .inl hnone
  · exact .inr ⟨d, hd, hr.status, hr.verdict, hr.failedAt, hr.errorMessage⟩

/-- The steps of a refusal before its compensation. -/
def Label.beforeRefusal : Label → Bool
  | .api (.queue r) => r.isNone
  | .api (.refuse _) => false
  | _ => true

theorem Label.compensated_of_beforeRefusal {s : State} {l : Label} (h : l.beforeRefusal = true) :
    Compensated s l := by
  unfold Compensated
  split
  · simpa [beforeRefusal] using h
  · cases h
  · trivial

/-- A refusal whose job was placed all the same, and delivered. -/
def Label.refusedThenDelivered : List Label :=
  create ++ [.api (.enqueue (.addedThenThrew ⟨"Error", "timed out", none, none, false⟩)),
    .deliver 0 "a", .attempt 0 .readClock]

/-- The refusal of a job that a worker holds already, but has not claimed yet. -/
theorem refused_never_judged_delivered : ∃ s e,
    (system ⟨30000, 3⟩).Run (fun s l ↦ OnlySubmitFails s l ∧ Compensated s l) State.init
        (Label.refusedThenDelivered ++ [.api (.refuse none)]) s ∧
      s.api = .threw e ∧
      (s.submission = none ∨ ∃ d, s.submission = some d ∧ d.status = .failed ∧
        d.verdict = .pending ∧ d.failedAt ≠ none ∧ d.errorMessage ≠ none) := by
  obtain ⟨s, hs, hP⟩ := (system ⟨30000, 3⟩).exists_run_of_exec
    (fun s l ↦ OnlySubmitFails s l ∧ l.beforeRefusal = true) State.init Label.refusedThenDelivered
    (fun s ↦ decide ((∀ d ∈ s.submission, d.verdict = .pending) ∧
        ∀ a ∈ s.attempts 0, a.pc.judging = false) &&
      (s.step ⟨30000, 3⟩ (.api (.refuse none))).any fun t ↦ t.api = .threw queueUnavailable)
    (by decide)
  obtain ⟨hstate, hstep⟩ := Bool.and_eq_true_iff.mp hP
  obtain ⟨hverdict, hjudging⟩ := of_decide_eq_true hstate
  obtain ⟨t, ht, hthrew⟩ := (Option.any_eq_true _ _).mp hstep
  -- The only call is the one on the delivered job.
  have hcalls : ∀ l ∈ Label.refusedThenDelivered, ∀ i ∈ l.starts, i = 0 := by decide
  have hall : ∀ i, ∀ a ∈ s.attempts i, a.pc.judging = false := by
    intro i a ha
    obtain ⟨l, hl, hi⟩ := exists_starts_of_run hs rfl (i := i) (by rw [Option.mem_def.mp ha]; nofun)
    obtain rfl : i = 0 := hcalls l hl i hi
    exact hjudging a ha
  have hrefuse : OnlySubmitFails s (.api (.refuse none)) ∧ Compensated s (.api (.refuse none)) :=
    ⟨rfl, hverdict, hall⟩
  have hrun : (system ⟨30000, 3⟩).Run (fun s l ↦ OnlySubmitFails s l ∧ Compensated s l)
      State.init (Label.refusedThenDelivered ++ [.api (.refuse none)]) t :=
    (hs.mono fun _ _ hok ↦ ⟨hok.1, Label.compensated_of_beforeRefusal hok.2⟩).append
      (.cons hrefuse ht (.nil t))
  exact ⟨t, _, hrun, of_decide_eq_true hthrew,
    refused_never_judged ⟨_, hrun⟩ (of_decide_eq_true hthrew)⟩

/-- A refusal whose job was placed all the same, and judged before the compensation. -/
def Label.judgedThenRefused : List Label :=
  create ++ [.api (.enqueue (.addedThenThrew ⟨"Error", "timed out", none, none, false⟩)),
      .deliver 0 "a"] ++ claims 0 ++ loads 0 ++ tests 0 .accepted ++
    [.attempt 0 (.save none), .attempt 0 (.stampCompleted none), .settle, .api (.refuse none)]

/-- Two refusals that are none, with every call over and no job left: where the save of
QUEUED fails the record stays PENDING, and where a worker was faster than the
compensation the record is FAILED with a verdict. -/
theorem refused_not_compensated :
    (∃ s d e, (system ⟨30000, 3⟩).Run OnlySubmitFails State.init
        [.api (.check Label.sampleRequest (.ok (some ⟨true⟩)) (.ok 1)), .api (.create none),
          .api (.queue (some ⟨"MongoNetworkError", "timed out", none, none, false⟩))] s ∧
      s.api = .threw e ∧ s.job = .absent ∧ (∀ i, s.attempts i = none) ∧
      s.submission = some d ∧ d.status = .pending) ∧
    ∃ s d e, (system ⟨30000, 3⟩).Run OnlySubmitFails State.init Label.judgedThenRefused s ∧
      s.api = .threw e ∧ s.job = .completed ∧
      (∀ i a, s.attempts i = some a → a.pc.over = true) ∧
      s.submission = some d ∧ d.status = .failed ∧ d.verdict = .accepted := by
  refine ⟨?_, ?_⟩
  · obtain ⟨s, hs, hP⟩ := (system ⟨30000, 3⟩).exists_run_of_exec OnlySubmitFails State.init
      ([.api (.check Label.sampleRequest (.ok (some ⟨true⟩)) (.ok 1)), .api (.create none),
        .api (.queue (some ⟨"MongoNetworkError", "timed out", none, none, false⟩))])
      (fun s ↦ decide (s.job = .absent ∧
          s.api = .threw ⟨"MongoNetworkError", "timed out", none, none, false⟩) &&
        s.submission.any fun d ↦ d.status = .pending) (by decide)
    obtain ⟨hstate, hrecord⟩ := Bool.and_eq_true_iff.mp hP
    obtain ⟨hjob, hapi⟩ := of_decide_eq_true hstate
    obtain ⟨d, hd, hdp⟩ := (Option.any_eq_true _ _).mp hrecord
    exact ⟨s, d, _, hs, hapi, hjob, (formed_of_reachable ⟨_, hs⟩).absent hjob, hd,
      of_decide_eq_true hdp⟩
  · obtain ⟨s, hs, hP⟩ := (system ⟨30000, 3⟩).exists_run_of_exec OnlySubmitFails State.init
      Label.judgedThenRefused
      (fun s ↦ decide (s.job = .completed ∧ s.api = .threw queueUnavailable ∧
          ∀ a ∈ s.attempts 0, a.pc.over = true) &&
        s.submission.any fun d ↦ d.status = .failed ∧ d.verdict = .accepted) (by decide)
    obtain ⟨hstate, hrecord⟩ := Bool.and_eq_true_iff.mp hP
    obtain ⟨hjob, hapi, hover⟩ := of_decide_eq_true hstate
    obtain ⟨d, hd, hdf⟩ := (Option.any_eq_true _ _).mp hrecord
    have hcalls : ∀ l ∈ Label.judgedThenRefused, ∀ i ∈ l.starts, i = 0 := by decide
    refine ⟨s, d, _, hs, hapi, hjob, fun i a ha ↦ ?_, hd, of_decide_eq_true hdf⟩
    obtain ⟨l, hl, hi⟩ := exists_starts_of_run hs rfl (i := i) (by rw [ha]; nofun)
    obtain rfl : i = 0 := hcalls l hl i hi
    exact hover a ha

end CodeArena.Submissions
