import CodeArena.Submissions.Phase

/-!
# Accepted submissions and their job

The queue knows of a submission only what its handler did: a job is removed when the
handler returns and delivered again when it throws or its worker crashed.  So an
accepted submission is judged or failed in the end if the handler never returns while
it is neither — `Pc.Tracks` says at each point of the handler what the stored status is
then, and `Tracked` that the job follows it.

One exit breaks this.  A job that is redelivered after a crash, while the claim of the
crashed attempt is still younger than `staleTimeoutMs`, finds a RUNNING record it may
not claim; the handler then returns, and the queue removes the last job there is.
`Reclaims` is the condition that no claim is refused by a RUNNING record.
-/

namespace CodeArena.Submissions

open CodeArena.Lib

/-! ## The assumptions and the condition -/

/-- MongoDB calls succeed, and the queue delivers as its retry machine says. -/
def QueueReliable (s : State) (l : Label) : Prop := Reliable s l ∧ l.isDuplicate = false

instance (s : State) (l : Label) : Decidable (QueueReliable s l) :=
  inferInstanceAs (Decidable (_ ∧ _))

/-- The claim the attempt awaits is not refused by a RUNNING record. -/
def Attempt.Reclaims (s : State) (a : Attempt) : Prop :=
  match a.pc with
  | .claiming staleCutoff _ =>
    ∀ d ∈ s.submission, d.status = .running → d.ClaimFilter staleCutoff
  | _ => True

/-- `Attempt.Reclaims`, decided. -/
def Attempt.reclaims (s : State) (a : Attempt) : Bool :=
  match a.pc with
  | .claiming staleCutoff _ =>
    ∀ d ∈ s.submission, d.status = .running → d.ClaimFilter staleCutoff
  | _ => true

theorem Attempt.reclaims_iff {s : State} {a : Attempt} : a.reclaims s = true ↔ a.Reclaims s := by
  unfold Attempt.reclaims Attempt.Reclaims
  split <;> simp

instance (s : State) (a : Attempt) : Decidable (a.Reclaims s) :=
  decidable_of_iff _ Attempt.reclaims_iff

/-- The steps in which no claim is refused by a RUNNING record. -/
def Reclaims (s : State) : Label → Prop
  | .attempt i (.claim none) => ∀ a ∈ s.attempts i, a.Reclaims s
  | _ => True

/-- `Reclaims`, decided. -/
def reclaims (s : State) : Label → Bool
  | .attempt i (.claim none) => ∀ a ∈ s.attempts i, a.Reclaims s
  | _ => true

theorem reclaims_iff {s : State} {l : Label} : reclaims s l = true ↔ Reclaims s l := by
  unfold reclaims Reclaims
  split <;> simp

instance (s : State) (l : Label) : Decidable (Reclaims s l) := decidable_of_iff _ reclaims_iff

/-- A delivered call knows whether the queue will deliver again. -/
theorem deliveredCall_hasRetriesRemaining (cfg : Config) (workerId : WorkerId) (n : Nat) :
    (deliveredCall cfg workerId n).hasRetriesRemaining = decide (n + 1 < cfg.attempts) := by
  unfold Call.hasRetriesRemaining Call.maxAttempts Call.attemptsMade deliveredCall
  cases h : cfg.attempts with
  | zero => simp
  | succ m => simp

/-! ## The job -/

/-- A settled job is not with a worker. -/
theorem Job.settle_ne_active {cfg : Config} {n m : Nat} {i : AttemptId} {pc : Pc} {job : Job}
    (h : Job.settle cfg n pc = some job) : job ≠ .active m i := by
  cases pc with
  | returned => cases h; rintro ⟨⟩
  | threw =>
      simp only [Job.settle] at h
      split at h <;> cases h <;> rintro ⟨⟩
  | _ => cases h

/-- A job is settled once its handler is over. -/
theorem Job.over_of_settle {cfg : Config} {n : Nat} {pc : Pc} {job : Job}
    (h : Job.settle cfg n pc = some job) : pc.over = true := by
  cases pc <;> first | rfl | cases h

namespace State

variable {cfg : Config} {s t : State} {d : Submission} {l : Label} {i : AttemptId}
  {a a' : Attempt} {act : Act} {w : Option Write}

/-- The job of an accepted submission follows its record. -/
structure Tracked (cfg : Config) (s : State) : Prop where
  active : ∀ {n i}, s.job = .active n i → ∃ a workerId, s.attempts i = some a ∧
    a.call = deliveredCall cfg workerId n ∧
    ∀ d, s.submission = some d → a.pc.Tracks a.call.hasRetriesRemaining d.status
  /-- Every call but the one on the active job is over. -/
  others : ∀ {j b}, s.attempts j = some b → (∀ n, s.job ≠ .active n j) → b.pc.over = true
  waiting : ∀ {n}, s.job = .waiting n → ∀ d, s.submission = some d → d.status ≠ .pending
  done : s.job = .completed ∨ s.job = .failed → ∀ d, s.submission = some d →
    d.status.terminal = true

namespace Tracked

/-- Once the attempt on the active job is over, every attempt is. -/
theorem all_over (h : s.Tracked cfg) {n : Nat} (hj : s.job = .active n i)
    (ha : s.attempts i = some a) (hover : a.pc.over = true) {j : AttemptId} {b : Attempt}
    (hb : s.attempts j = some b) : b.pc.over = true := by
  by_cases hji : j = i
  · subst hji
    obtain rfl : a = b := Option.some.inj (ha.symm.trans hb)
    exact hover
  · refine h.others hb fun m hm ↦ hji ?_
    rw [hj] at hm
    cases hm
    rfl

/-- **Step lemma** for the attempt on the active job; no other moves. -/
theorem attempt_step (h : s.Tracked cfg) (hok : QueueReliable s (.attempt i act))
    (hreclaims : Reclaims s (.attempt i act)) (ha : s.attempts i = some a)
    (hd : s.submission = some d) (hs : Attempt.Step cfg s.now d a act a' w) :
    State.Tracked cfg ((s.setAttempt i a').write (some i) w) := by
  have hsub : ((s.setAttempt i a').write (some i) w).submission = some (d.after w) :=
    State.attempt_submission hd
  have hjob : ((s.setAttempt i a').write (some i) w).job = s.job := by simp
  obtain ⟨n, hactive⟩ : ∃ n, s.job = .active n i := by
    by_contra hc
    have hover := h.others ha fun n hn ↦ hc ⟨n, hn⟩
    cases hs.not_over.symm.trans hover
  obtain ⟨b, workerId, hb, hcall, htracks⟩ := h.active hactive
  obtain rfl : a = b := Option.some.inj (ha.symm.trans hb)
  have htracks' : a'.pc.Tracks a'.call.hasRetriesRemaining (d.after w).status := by
    rw [hs.call_eq]
    refine hs.tracks (fun _ ↦ by rw [hcall]; rfl) hok.1 (fun staleCutoff startedAt hpc hact hrun ↦ ?_)
      (htracks d hd)
    subst hact
    have hrec : a.Reclaims s := hreclaims a ha
    unfold Attempt.Reclaims at hrec
    rw [hpc] at hrec
    exact hrec d hd hrun
  constructor
  case active =>
    intro m k hk
    rw [hjob, hactive] at hk
    cases hk
    refine ⟨a', workerId, State.attempts_after.mpr (.inl ⟨rfl, rfl⟩), hs.call_eq.trans hcall,
      fun e he ↦ ?_⟩
    obtain rfl : d.after w = e := Option.some.inj (hsub.symm.trans he)
    exact htracks'
  case others =>
    intro k b hb hk
    rcases State.attempts_after.mp hb with ⟨rfl, -⟩ | ⟨-, hb⟩
    · exact absurd (hjob.trans hactive) (hk n)
    · exact h.others hb fun m hm ↦ hk m (hjob.trans hm)
  case waiting =>
    intro _ hk
    cases hactive.symm.trans (hjob.symm.trans hk)
  case done =>
    intro hk
    rcases hk with hk | hk <;> cases hactive.symm.trans (hjob.symm.trans hk)

/-- The record and the job right after `queue.add`. -/
theorem added (hf : s.Formed cfg) {q : Submission} (hapi : s.api = .enqueueing q) :
    State.Tracked cfg { s with api := .returned, job := .waiting 0 } := by
  have hformed := hf.api
  rw [hapi] at hformed
  obtain ⟨hstored, hjob, req, t, -, rfl⟩ := hformed
  constructor
  case active => nofun
  case others =>
    intro j b hb _
    cases (hf.absent hjob j).symm.trans hb
  case waiting =>
    intro _ _ d hd
    cases hstored.symm.trans hd
    nofun
  case done => nofun

/-- **Step lemma**, once `createSubmission` returned. -/
theorem step (h : s.Tracked cfg) (hf : s.Formed cfg) (hapi : s.api = .returned)
    (hok : QueueReliable s l) (hreclaims : Reclaims s l) (hstep : s.step cfg l = some t) :
    t.Tracked cfg := by
  cases State.step_inv hstep with
  | wait => exact ⟨h.active, h.others, h.waiting, h.done⟩
  | api hs =>
      rw [hapi] at hs
      cases hs
  | @deliver i workerId n hj hi =>
      constructor
      case active =>
        intro m k hk
        cases hk
        exact ⟨.start (deliveredCall cfg workerId n), workerId,
          (State.setAttempt_attempts_eq_some ..).mpr (.inl ⟨rfl, rfl⟩), rfl,
          fun d hd ↦ h.waiting hj d hd⟩
      case others =>
        intro k b hb hk
        rcases (State.setAttempt_attempts_eq_some ..).mp hb with ⟨rfl, -⟩ | ⟨-, hb⟩
        · exact absurd rfl (hk n)
        · exact h.others hb fun m hm ↦ by rw [hj] at hm; cases hm
      case waiting =>
        intro _ hk
        cases hk
      case done =>
        intro hk
        rcases hk with hk | hk <;> cases hk
  | duplicate => cases hok.2
  | attempt ha hs =>
      obtain ⟨d, hd, hs⟩ := hf.attempt_step ha hs
      exact h.attempt_step hok hreclaims ha hd hs
  | @settle n i a job hj ha hjob =>
      obtain ⟨b, workerId, hb, hcall, htracks⟩ := h.active hj
      obtain rfl : a = b := Option.some.inj (ha.symm.trans hb)
      have hretries : a.call.hasRetriesRemaining = decide (n + 1 < cfg.attempts) := by
        rw [hcall]
        exact deliveredCall_hasRetriesRemaining cfg workerId n
      constructor
      case active =>
        intro _ _ hk
        exact absurd hk (Job.settle_ne_active hjob)
      case others => exact fun hb _ ↦ h.all_over hj ha (Job.over_of_settle hjob) hb
      case waiting =>
        intro _ hk d hd
        exact (htracks d hd).ne_pending
      case done =>
        intro hk d hd
        have hpc := htracks d hd
        generalize a.pc = pc at hjob hpc
        cases pc with
        | returned => exact hpc
        | threw e =>
            rw [hretries] at hpc
            simp only [Job.settle] at hjob
            split at hjob
            · cases hjob
              rcases hk with hk | hk <;> cases hk
            · rename_i hlast
              exact hpc.2.resolve_left fun hc ↦ hlast (of_decide_eq_true hc)
        | _ => cases hjob
  | @stalled n i a hj ha hc =>
      obtain ⟨b, workerId, hb, -, htracks⟩ := h.active hj
      obtain rfl : a = b := Option.some.inj (ha.symm.trans hb)
      constructor
      case active =>
        intro _ _ hk
        cases hk
      case others => exact fun hb _ ↦ h.all_over hj ha (by rw [hc]; rfl) hb
      case waiting => exact fun _ d hd ↦ (htracks d hd).ne_pending
      case done =>
        intro hk
        rcases hk with hk | hk <;> cases hk

end Tracked

end State

/-- The job of an accepted submission follows its record in every run in which no claim
is refused by a RUNNING record. -/
theorem tracked_of_reachable {cfg : Config} {s : State}
    (h : (system cfg).Reachable (fun s l ↦ QueueReliable s l ∧ Reclaims s l) s)
    (hapi : s.api = .returned) : s.Tracked cfg := by
  refine h.invariant_with (I := fun s ↦ s.api = .returned → s.Tracked cfg)
    (fun _ ↦ formed_of_reachable) (by rintro ⟨⟩) (fun s l t hf hI hok hstep hret ↦ ?_) hapi
  by_cases hs : s.api = .returned
  · exact (hI hs).step hf hs hok.1 hok.2 hstep
  · -- Only a successful `queue.add` makes `createSubmission` return.
    cases State.step_inv hstep with
    | @api act pc w placed hs' =>
        have hpc : pc = .returned := by simpa using hret
        subst hpc
        generalize hq : s.api = api at hs'
        cases hs' with
        | added => exact .added hf hq
    | attempt => exact absurd (by simpa using hret) hs
    | _ => exact absurd hret hs

/-- **No accepted submission is lost**, as long as no claim is refused by a RUNNING
record: once the job is gone and no call is in progress, the submission is completed or
failed. -/
theorem accepted_not_lost {cfg : Config} {s : State}
    (h : (system cfg).Reachable (fun s l ↦ QueueReliable s l ∧ Reclaims s l) s)
    (hapi : s.api = .returned) (hjob : s.job.open = false) :
    ∃ d, s.submission = some d ∧ d.status.terminal = true := by
  have hf := formed_of_reachable h
  have hplaced : s.job ≠ .absent := by
    have hformed := hf.api
    rw [hapi] at hformed
    exact hformed
  obtain ⟨d, hd⟩ := Option.isSome_iff_exists.mp (hf.stored hplaced)
  refine ⟨d, hd, (tracked_of_reachable h hapi).done ?_ d hd⟩
  cases hj : s.job with
  | absent => exact absurd hj hplaced
  | waiting | active => rw [hj] at hjob; cases hjob
  | completed => exact .inl rfl
  | failed => exact .inr rfl

/-- A delivery whose worker crashes in its test loop; the job is recovered once the
claim is stale, and judged. -/
def Label.reclaimed : List Label :=
  submit ++ [.deliver 0 "a"] ++ claims 0 ++ loads 0 ++
    [.attempt 0 .crash, .stalled, .wait 30001, .deliver 1 "b"] ++ claims 1 ++ loads 1 ++
    tests 1 .accepted ++
    [.attempt 1 (.save none), .attempt 1 (.stampCompleted none), .settle]

/-- The submission of a crashed worker, reclaimed in time. -/
theorem accepted_not_lost_reclaimed : ∃ s d,
    (system ⟨30000, 3⟩).Run (fun s l ↦ QueueReliable s l ∧ Reclaims s l) State.init
        Label.reclaimed s ∧
      s.submission = some d ∧ d.status.terminal = true := by
  obtain ⟨s, hs, hP⟩ := (system ⟨30000, 3⟩).exists_run_of_exec
    (fun s l ↦ QueueReliable s l ∧ Reclaims s l) State.init
    Label.reclaimed (fun s ↦ s.api = .returned && !s.job.open) (by decide)
  obtain ⟨hapi, hjob⟩ := Bool.and_eq_true_iff.mp hP
  obtain ⟨d, hd, hterm⟩ := accepted_not_lost ⟨_, hs⟩ (of_decide_eq_true hapi)
    (by simpa using hjob)
  exact ⟨s, d, hs, hd, hterm⟩

/-- A delivery whose worker crashes in its test loop; the job is recovered while the
claim is still fresh. -/
def Label.recoveredEarly : List Label :=
  submit ++ [.deliver 0 "a"] ++ claims 0 ++ loads 0 ++
    [.attempt 0 .crash, .stalled, .wait 1000, .deliver 1 "b"] ++ claims 1 ++
    [.attempt 1 (.inspect none), .settle]

/-- An accepted submission is lost: its job is removed, every call on it is over, and it
stays RUNNING. -/
theorem accepted_lost : ∃ s d,
    (system ⟨30000, 3⟩).Run QueueReliable State.init Label.recoveredEarly s ∧
      s.api = .returned ∧ s.job = .completed ∧
      (∀ i a, s.attempts i = some a → a.pc.over = true) ∧
      s.submission = some d ∧ d.status = .running := by
  obtain ⟨s, hs, hP⟩ := (system ⟨30000, 3⟩).exists_run_of_exec QueueReliable State.init
    Label.recoveredEarly
    (fun s ↦ decide (s.api = .returned ∧ s.job = .completed ∧
        ∀ i ∈ ([0, 1] : List AttemptId), ∀ a ∈ s.attempts i, a.pc.over = true) &&
      s.submission.any fun d ↦ d.status = .running) (by decide)
  obtain ⟨hstate, hrecord⟩ := Bool.and_eq_true_iff.mp hP
  obtain ⟨hapi, hjob, hover⟩ := of_decide_eq_true hstate
  obtain ⟨d, hd, hdr⟩ := (Option.any_eq_true _ _).mp hrecord
  refine ⟨s, d, hs, hapi, hjob, fun i a ha ↦ ?_, hd, of_decide_eq_true hdr⟩
  obtain ⟨l, hl, hi⟩ := exists_starts_of_run (i := i) hs rfl (by rw [ha]; nofun)
  have hcalls : ∀ l ∈ Label.recoveredEarly, ∀ i ∈ l.starts, i ∈ [0, 1] := by decide
  exact hover i (hcalls l hl i hi) a ha

end CodeArena.Submissions
