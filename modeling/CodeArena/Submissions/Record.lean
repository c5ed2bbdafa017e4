import CodeArena.Submissions.Terminal

/-!
# The record as a whole

What the fields of a stored submission say together: a verdict exactly where the
status is COMPLETED, counts that fit it, dates and messages where the status asks for
them.  None of the writes clears what another one set, so this holds for as long as no
write meets a record that another one has finished — which is what the fenced runs of
`Terminal.lean` are.

`Submission.Recorded` is `Submission.Consistent` made inductive: it also says which
fields are still at their initial value.  Every update of the source keeps it on the
documents that the fenced runs apply it to; these are the lemmas of the first half.
The second half is the state: a document in memory is as untouched as the stored one,
for as long as the stored one is not terminal.
-/

namespace CodeArena.Submissions

open CodeArena.Lib

/-- The fields of a stored submission fit together. -/
structure Submission.Consistent (d : Submission) : Prop where
  /-- A verdict exactly where completed. -/
  verdict_iff : d.verdict ≠ .pending ↔ d.status = .completed
  /-- Counts that fit the verdict, and no trace of a failure. -/
  completed : d.status = .completed → ∃ p n, d.testsPassed = some p ∧ d.totalTests = some n ∧
    p ≤ n ∧ 0 < n ∧ (d.verdict = .accepted ↔ p = n) ∧ d.failedAt = none ∧ d.errorMessage = none
  failed : d.status = .failed → d.failedAt ≠ none ∧ d.errorMessage ≠ none
  queued : d.status = .queued → d.queuedAt ≠ none
  running : d.status = .running → d.execution.startedAt ≠ none

/-- No result was entered yet. -/
structure Submission.Unjudged (d : Submission) : Prop where
  verdict : d.verdict = .pending
  testsPassed : d.testsPassed = none
  totalTests : d.totalTests = none

/-- The result in the record is the judgement `j`, up to its running time. -/
structure Submission.Judged (d : Submission) (j : Judgement) : Prop where
  verdict : d.verdict = j.verdict
  testsPassed : d.testsPassed = some j.testsPassed
  totalTests : d.totalTests = some j.totalTests

/-- No failure was entered yet. -/
def Submission.Unfailed (d : Submission) : Prop := d.failedAt = none ∧ d.errorMessage = none

/-- The inductive form of consistency. -/
structure Submission.Recorded (d : Submission) : Prop where
  unjudged : d.status ≠ .completed → d.Unjudged
  judged : d.status = .completed → ∃ j : Judgement, j.Sound ∧ d.Judged j
  unfailed : d.status ≠ .failed → d.Unfailed
  failed : d.status = .failed → d.failedAt ≠ none ∧ d.errorMessage ≠ none
  queuedAt : d.status ≠ .pending → d.queuedAt ≠ none
  startedAt : d.status = .running → d.execution.startedAt ≠ none

namespace Submission

variable {d r : Submission}

/-- What is recorded is consistent. -/
theorem Recorded.consistent (h : d.Recorded) : d.Consistent where
  verdict_iff := by
    refine ⟨fun hv ↦ ?_, fun hs hv ↦ ?_⟩
    · by_contra hs
      exact hv (h.unjudged hs).verdict
    · obtain ⟨j, hj, hd⟩ := h.judged hs
      exact hj.verdict_ne_pending (hd.verdict.symm.trans hv)
  completed hs := by
    obtain ⟨j, hj, hd⟩ := h.judged hs
    obtain ⟨hf, he⟩ := h.unfailed (by rw [hs]; nofun)
    refine ⟨_, _, hd.testsPassed, hd.totalTests, hj.testsPassed_le, hj.totalTests_pos, ?_, hf, he⟩
    rw [hd.verdict]
    exact hj.accepted_iff
  failed := h.failed
  queued hs := h.queuedAt (by rw [hs]; nofun)
  running := h.startedAt

/-! ## Every update keeps it -/

namespace Recorded

theorem create (req : Request) : (Submission.create req).Recorded where
  unjudged _ := ⟨rfl, rfl, rfl⟩
  judged := nofun
  unfailed _ := ⟨rfl, rfl⟩
  failed := nofun
  queuedAt h := absurd rfl h
  startedAt := nofun

theorem queue (req : Request) (t : Time) : ((Submission.create req).queue t).Recorded where
  unjudged _ := ⟨rfl, rfl, rfl⟩
  judged := nofun
  unfailed _ := ⟨rfl, rfl⟩
  failed := nofun
  queuedAt _ := nofun
  startedAt := nofun

/-- A change to a status that is neither terminal nor PENDING, of fields that
consistency does not speak of. -/
theorem of_open (h : d.Recorded) (hd : d.status.terminal = false) {d' : Submission}
    (hstatus : d'.status = d.status ∨ d'.status = .running ∨ d'.status = .queued)
    (hverdict : d'.verdict = d.verdict) (hp : d'.testsPassed = d.testsPassed)
    (ht : d'.totalTests = d.totalTests) (hf : d'.failedAt = d.failedAt)
    (he : d'.errorMessage = d.errorMessage) (hq : d'.queuedAt = d.queuedAt)
    (hpending : d.status ≠ .pending)
    (hs : d'.status = .running → d'.execution.startedAt ≠ none) : d'.Recorded := by
  have hc : d.status ≠ .completed := by rintro hc; rw [hc] at hd; cases hd
  have hfl : d.status ≠ .failed := by rintro hc; rw [hc] at hd; cases hd
  have hj := h.unjudged hc
  obtain ⟨hfa, hem⟩ := h.unfailed hfl
  have hnc : d'.status ≠ .completed ∧ d'.status ≠ .failed := by
    rcases hstatus with hst | hst | hst <;> rw [hst]
    · exact ⟨hc, hfl⟩
    · exact ⟨nofun, nofun⟩
    · exact ⟨nofun, nofun⟩
  exact {
    unjudged := fun _ ↦ ⟨hverdict.trans hj.verdict, hp.trans hj.testsPassed,
      ht.trans hj.totalTests⟩
    judged := fun hst ↦ absurd hst hnc.1
    unfailed := fun _ ↦ ⟨hf.trans hfa, he.trans hem⟩
    failed := fun hst ↦ absurd hst hnc.2
    queuedAt := fun _ ↦ by rw [hq]; exact h.queuedAt hpending
    startedAt := hs }

/-- The claim. -/
theorem claim (h : d.Recorded) {cutoff : Time} (hf : d.ClaimFilter cutoff) (worker : WorkerId)
    (t : Time) : (d.claim worker t).Recorded := by
  have hd : d.status.terminal = false ∧ d.status ≠ .pending := by
    rcases hf with hq | ⟨hr, -⟩
    · rw [hq]; exact ⟨rfl, nofun⟩
    · rw [hr]; exact ⟨rfl, nofun⟩
  exact h.of_open hd.1 (.inr (.inl rfl)) rfl rfl rfl rfl rfl rfl hd.2 fun _ ↦ nofun

/-- The revert to QUEUED. -/
theorem revert (h : d.Recorded) (hd : d.status = .running) : d.revert.Recorded := by
  refine h.of_open ?_ (.inr (.inr rfl)) rfl rfl rfl rfl rfl rfl ?_ nofun
  · rw [hd]; rfl
  · rw [hd]; nofun

/-- The save of RUNNING, where the record carries a claim. -/
theorem rerun (h : d.Recorded) (hd : d.status.terminal = false) (hpending : d.status ≠ .pending)
    (hstart : d.execution.startedAt ≠ none) (t : Time) : (save r (r.rerun t) d).Recorded := by
  refine h.of_open hd ?_ (changed_self _ _) (changed_self _ _) (changed_self _ _)
    (changed_self _ _) (changed_self _ _) (changed_self _ _) hpending fun _ ↦ ?_
  · by_cases hr : Status.running = r.status
    · exact .inl (by simp [save, Submission.rerun, changed, hr])
    · exact .inr (.inl (by simp [save, Submission.rerun, changed, hr]))
  · simpa [save, Submission.rerun] using hstart

/-- The update of `execution.completedAt`. -/
theorem stampCompleted (h : d.Recorded) (t : Time) : (d.stampCompleted t).Recorded :=
  ⟨fun hs ↦ ⟨(h.unjudged hs).verdict, (h.unjudged hs).testsPassed, (h.unjudged hs).totalTests⟩,
    fun hs ↦ (h.judged hs).imp fun _ hj ↦ ⟨hj.1, hj.2.verdict, hj.2.testsPassed, hj.2.totalTests⟩,
    h.unfailed, h.failed, h.queuedAt, h.startedAt⟩

/-- The updates to FAILED. -/
theorem fail (h : d.Recorded) (hd : d.status.terminal = false) (hpending : d.status ≠ .pending)
    (t : Time) (message : String) : (d.fail t message).Recorded where
  unjudged _ :=
    have hj := h.unjudged (by rintro hc; rw [hc] at hd; cases hd)
    ⟨hj.verdict, hj.testsPassed, hj.totalTests⟩
  judged := nofun
  unfailed hs := absurd rfl hs
  failed _ := ⟨nofun, nofun⟩
  queuedAt _ := h.queuedAt hpending
  startedAt := nofun

/-- The save of FAILED in `createSubmission`. -/
theorem refuse (h : d.Recorded) (hd : d.status.terminal = false) (hpending : d.status ≠ .pending)
    (hr : r.status = .queued) (hrf : r.Unfailed) (t : Time) :
    (save r (r.refuse t) d).Recorded := by
  have hstatus : (save r (r.refuse t) d).status = .failed := by
    simp [save, Submission.refuse, changed, hr]
  have hqueued : (save r (r.refuse t) d).queuedAt = d.queuedAt := changed_self _ _
  have hj := h.unjudged (by rintro hc; rw [hc] at hd; cases hd)
  exact {
    unjudged := fun _ ↦ ⟨(changed_self _ _).trans hj.verdict,
      (changed_self _ _).trans hj.testsPassed, (changed_self _ _).trans hj.totalTests⟩
    judged := fun hs ↦ by rw [hstatus] at hs; cases hs
    unfailed := fun hs ↦ absurd hstatus hs
    failed := fun _ ↦ by
      simp [save, Submission.refuse, changed, hrf.1, hrf.2]
    queuedAt := fun _ ↦ by rw [hqueued]; exact h.queuedAt hpending
    startedAt := fun hs ↦ by rw [hstatus] at hs; cases hs }

/-- The final save, of a document that was loaded without a result. -/
theorem complete (h : d.Recorded) (hd : d.status.terminal = false) (hpending : d.status ≠ .pending)
    (hr : r.Unjudged) (hrun : r.status = .running) {j : Judgement} (hj : j.Sound) (t : Time) :
    (save r (r.complete t j) d).Recorded := by
  have hstatus : (save r (r.complete t j) d).status = .completed := by
    simp [save, Submission.complete, changed, hrun]
  have hqueued : (save r (r.complete t j) d).queuedAt = d.queuedAt := changed_self _ _
  obtain ⟨hfa, hem⟩ := h.unfailed (by rintro hc; rw [hc] at hd; cases hd)
  exact {
    unjudged := fun hs ↦ absurd hstatus hs
    judged := fun _ ↦ ⟨j, hj, by
      simp [save, Submission.complete, changed, hr.verdict, hj.verdict_ne_pending], by
      simp [save, Submission.complete, changed, hr.testsPassed], by
      simp [save, Submission.complete, changed, hr.totalTests]⟩
    unfailed := fun _ ↦ ⟨(changed_self _ _).trans hfa, (changed_self _ _).trans hem⟩
    failed := fun hs ↦ by rw [hstatus] at hs; cases hs
    queuedAt := fun _ ↦ by rw [hqueued]; exact h.queuedAt hpending
    startedAt := fun hs ↦ by rw [hstatus] at hs; cases hs }

end Recorded

end Submission

/-! ## The state -/

/-- An attempt holds what it loaded, with no result entered. -/
theorem Attempt.Step.memory {cfg : Config} {now : Time} {d : Submission} {a a' : Attempt}
    {act : Act} {w : Option Write} (h : Attempt.Step cfg now d a act a' w) (hd : d.Unjudged)
    (ha : ∀ r, a.pc.memory = some r → r.Unjudged) :
    ∀ r, a'.pc.memory = some r → r.Unjudged := by
  cases h with
  | loaded | unsupported => rintro _ ⟨⟩; exact hd
  | foundRunning hpc | foundOther hpc | judged hpc =>
      rintro _ ⟨⟩
      exact ha _ (by rw [hpc]; rfl)
  | @rerun r t ts hpc =>
      rintro _ ⟨⟩
      have hr := ha r (by rw [hpc]; rfl)
      exact ⟨hr.verdict, hr.testsPassed, hr.totalTests⟩
  | _ => rintro _ ⟨⟩

namespace State

variable {cfg : Config} {s t : State} {d : Submission} {l : Label} {i : AttemptId}
  {a a' : Attempt} {act : Act} {w : Option Write}

/-- Whoever executes finds the start of a claim in the record. -/
theorem Owned.startedAt_ne_none (h : s.Owned) (hf : s.Formed cfg) (ha : s.attempts i = some a)
    (hexec : a.pc.executing = true) (hd : s.submission = some d) :
    d.execution.startedAt ≠ none := by
  obtain ⟨c, hc⟩ := (hf.attempts ha).claim_of_executing hexec
  cases ho : s.owner with
  | none => cases (h.unowned ho ha).symm.trans hc
  | some o =>
      obtain ⟨_, _, e, -, -, he, -, hs⟩ := h.marked ho
      obtain rfl : d = e := Option.some.inj (hd.symm.trans he)
      rw [hs]
      nofun

/-- A terminal record stays terminal. -/
theorem KeepsTerminal.not_terminal (h : s.KeepsTerminal t) (ht : t.terminal = false) :
    s.terminal = false := by
  by_contra hs
  obtain ⟨d, hd, hterm⟩ := (Option.any_eq_true _ _).mp ((Bool.not_eq_false _).mp hs)
  obtain ⟨e, he, hes, -⟩ := h d hd hterm
  rw [terminal_of_stored he, hes, hterm] at ht
  cases ht

/-- The record and the documents in memory. -/
structure Recorded (s : State) : Prop where
  record : ∀ {d}, s.submission = some d → d.Recorded
  /-- Where the job was placed the record is not PENDING any more. -/
  placed : s.job ≠ .absent → ∀ {d}, s.submission = some d → d.status ≠ .pending
  /-- Until the record is terminal, nobody holds a result in memory. -/
  memory : s.terminal = false → ∀ {i a}, s.attempts i = some a →
    ∀ r, a.pc.memory = some r → r.Unjudged

namespace Recorded

theorem init : State.init.Recorded where
  record := by rintro _ ⟨⟩
  placed h := absurd rfl h
  memory _ := by rintro _ _ ⟨⟩

/-- The documents of a state that is not terminal hold no result. -/
theorem unjudged (h : s.Recorded) (hd : s.submission = some d) (hs : s.terminal = false) :
    d.Unjudged := by
  refine (h.record hd).unjudged fun hc ↦ ?_
  rw [terminal_of_stored hd, hc] at hs
  cases hs

/-- What an attempt stores is recorded. -/
theorem after (h : s.Recorded) (hI : s.Fine cfg) (hok : Fenced s (.attempt i act))
    (ha : s.attempts i = some a) (hd : s.submission = some d)
    (hs : Attempt.Step cfg s.now d a act a' w) :
    (d.after w).Recorded ∧ (d.status ≠ .pending → (d.after w).status ≠ .pending) := by
  have hr := h.record hd
  have hpending := h.placed (hI.formed.job_ne_absent ha) hd
  have hopen : (∃ x, w = some x ∧ x.kind ≠ .claim) → ¬ a.Done → s.terminal = false := by
    rintro ⟨x, rfl, hx⟩ hnot
    exact hI.settled.not_terminal (hs.entitled hx hnot ha hok).1 ha hnot
  have hterm := terminal_of_stored hd
  cases hs with
  | claimWon _ hfilter => exact ⟨hr.claim hfilter _ _, fun _ ↦ by rintro ⟨⟩⟩
  | @rerun r t ts hpc =>
      have hnot := hopen ⟨_, rfl, by rintro ⟨⟩⟩ fun hc ↦ by simp [Attempt.Done, hpc, Pc.over] at hc
      rw [hterm] at hnot
      have hstart := hI.owned.startedAt_ne_none hI.formed ha (by rw [hpc]; rfl) hd
      refine ⟨hr.rerun hnot hpending hstart t, fun _ ↦ ?_⟩
      by_cases hrs : Status.running = r.status
      · simpa [Submission.save, Submission.rerun, Submission.changed, hrs] using hpending
      · simp [Submission.save, Submission.rerun, Submission.changed, hrs]
  | @saved r f hpc =>
      have hnot := hopen ⟨_, rfl, by rintro ⟨⟩⟩ fun hc ↦ by simp [Attempt.Done, hpc, Pc.over] at hc
      have hmem := h.memory hnot ha r (by rw [hpc]; rfl)
      rw [hterm] at hnot
      cases f with
      | unsupportedLanguage => exact absurd hpc (hI.formed.attempts ha).ne_unsupported
      | judged j t =>
          obtain ⟨hj, hrun⟩ := (hI.formed.attempts ha).judgement hpc
          have hsound := (hI.formed.attempts ha).sound hj
          refine ⟨hr.complete hnot hpending hmem hrun hsound t, fun _ ↦ ?_⟩
          simp [Submission.save, Finding.enter, Submission.complete, Submission.changed, hrun]
  | stamped => exact ⟨hr.stampCompleted _, id⟩
  | failedNonRetryable hpc hn | failedExhausted hpc _ hn =>
      have hnot := hopen ⟨_, rfl, by rintro ⟨⟩⟩ fun hc ↦ by
        simp [Attempt.Done, hpc, Attempt.reverts, hn] at hc
      rw [hterm] at hnot
      exact ⟨hr.fail hnot hpending _ _, fun _ ↦ by rintro ⟨⟩⟩
  | reverted _ _ _ hrun => exact ⟨hr.revert hrun, fun _ ↦ by rintro ⟨⟩⟩
  | _ => exact ⟨hr, id⟩

/-- **Step lemma** for an attempt. -/
theorem attempt_step (h : s.Recorded) (hI : s.Fine cfg) (hok : Fenced s (.attempt i act))
    (ha : s.attempts i = some a) (hd : s.submission = some d)
    (hs : Attempt.Step cfg s.now d a act a' w) :
    State.Recorded ((s.setAttempt i a').write (some i) w) := by
  have hsub : ((s.setAttempt i a').write (some i) w).submission = some (d.after w) :=
    State.attempt_submission hd
  have hafter := h.after hI hok ha hd hs
  have hkeeps := (hI.settled.attempt_step ha hd hs hok).2
  constructor
  case record =>
    intro _ he
    obtain rfl : d.after w = _ := Option.some.inj (hsub.symm.trans he)
    exact hafter.1
  case placed =>
    intro hj e he
    obtain rfl : d.after w = e := Option.some.inj (hsub.symm.trans he)
    rw [write_job] at hj
    exact hafter.2 (h.placed hj hd)
  case memory =>
    intro ht j b hb
    have hopen := hkeeps.not_terminal ht
    rcases State.attempts_after.mp hb with ⟨-, rfl⟩ | ⟨-, hb⟩
    · exact hs.memory (h.unjudged hd hopen) (h.memory hopen ha)
    · exact h.memory hopen hb

/-- **Step lemma** for `createSubmission`. -/
theorem api_step {pc : ApiPc} {aact : ApiAct} {placed : Bool} (h : s.Recorded)
    (hI : s.Fine cfg) (hok : Fenced s (.api aact))
    (hstep : ApiPc.Step s.now s.submission s.api aact pc w placed) :
    State.Recorded
      ({ s with api := pc, job := if placed then .waiting 0 else s.job }.write none w) := by
  have hapi := hI.formed.api
  have habsent := hI.formed.absent
  have howned := hI.owned
  obtain ⟨now, submission, api, job, attempts, log⟩ := s
  cases hstep with
  | refused | checked | createThrew | queueThrew | rejected | refuseThrew =>
      exact ⟨h.record, h.placed, h.memory⟩
  | @created req =>
      obtain ⟨-, rfl⟩ := hapi
      constructor
      case record =>
        rintro _ ⟨⟩
        exact .create req
      case placed => exact fun hj ↦ absurd rfl hj
      case memory =>
        intro _ i a ha
        cases (habsent rfl i).symm.trans ha
  | @queued c t d hd =>
      obtain ⟨hc, rfl, req, -, rfl⟩ := hapi
      obtain rfl : d = .create req := Option.some.inj (hd.symm.trans hc)
      constructor
      case record =>
        simp only [write_submission, Submission.save_loaded]
        rintro _ ⟨⟩
        exact .queue req t
      case placed => exact fun hj ↦ absurd rfl hj
      case memory =>
        intro _ i a ha
        cases (habsent rfl i).symm.trans ha
  | added | addedThenThrew =>
      obtain ⟨rfl, -, req, t, -, rfl⟩ := hapi
      exact ⟨h.record, fun _ ↦ by rintro _ ⟨⟩; nofun, h.memory⟩
  | @refusedStored q t d hd =>
      obtain ⟨-, req, t', -, rfl⟩ := hapi
      have hopen : d.status.terminal = false ∧ d.status ≠ .pending := by
        rcases hok with hnone | ⟨hover, hnot⟩
        · obtain rfl : d = _ := Option.some.inj (hd.symm.trans (howned.refusing hnone rfl))
          exact ⟨rfl, nofun⟩
        · rw [terminal_of_stored hd] at hnot
          refine ⟨hnot, fun hp ↦ ?_⟩
          -- Somebody claimed, so the job was placed.
          have hjob : job ≠ .absent := fun hj ↦ by
            obtain ⟨a, ha, -⟩ := (Option.any_eq_true _ _).mp hover
            obtain ⟨o, -, ho⟩ := Option.bind_eq_some_iff.mp ha
            cases (habsent hj o).symm.trans ho
          exact h.placed hjob hd hp
      have hrec := (h.record hd).refuse (r := (Submission.create req).queue t') hopen.1 hopen.2
        rfl ⟨rfl, rfl⟩ t
      constructor
      case record =>
        rintro _ ⟨⟩
        exact hrec
      case placed =>
        intro _
        rintro _ ⟨⟩
        nofun
      case memory =>
        intro ht
        cases ht

/-- A new call holds nothing in memory. -/
theorem call (h : s.Recorded) {call : Call} (job : Job) (hj : job ≠ .absent → s.job ≠ .absent) :
    State.Recorded ({ s with job }.setAttempt i (.start call)) where
  record := h.record
  placed hjob := h.placed (hj hjob)
  memory ht {j b} hb := by
    rcases (State.setAttempt_attempts_eq_some ..).mp hb with ⟨-, rfl⟩ | ⟨-, hb⟩
    · rintro _ ⟨⟩
    · exact h.memory ht hb

/-- **Step lemma.** -/
theorem step (h : s.Recorded) (hI : s.Fine cfg) (hok : Fenced s l)
    (hstep : s.step cfg l = some t) : t.Recorded := by
  cases State.step_inv hstep with
  | wait => exact ⟨h.record, h.placed, h.memory⟩
  | api hs => exact h.api_step hI hok hs
  | deliver hj hi => exact h.call _ fun _ ↦ by rw [hj]; nofun
  | duplicate hne hi => exact h.call s.job id
  | attempt ha hs =>
      obtain ⟨d, hd, hs⟩ := hI.formed.attempt_step ha hs
      exact h.attempt_step hI hok ha hd hs
  | settle hj | stalled hj =>
      exact ⟨h.record, fun _ ↦ h.placed (by rw [hj]; nofun), h.memory⟩

end Recorded

end State

/-- **The record is consistent** in every state that a fenced run reaches. -/
theorem record_consistent {cfg : Config} {s : State} {d : Submission}
    (h : (system cfg).Reachable Fenced s) (hd : s.submission = some d) : d.Consistent := by
  have hr : s.Recorded := h.invariant_with (fun _ ↦ fine_of_reachable) .init
    fun _ _ _ hI hs hok hstep ↦ hs.step hI hok hstep
  exact (hr.record hd).consistent

/-- A run over a judgement and its completion, whose record is consistent. -/
theorem record_consistent_judged : ∃ s d,
    (system ⟨30000, 3⟩).Run Fenced State.init
        (Label.submit ++ [.deliver 0 "a"] ++ Label.claims 0 ++ Label.loads 0 ++
          Label.tests 0 .accepted ++ [.attempt 0 (.save none), .attempt 0 (.stampCompleted none)])
        s ∧
      s.submission = some d ∧ d.status = .completed ∧ d.Consistent := by
  obtain ⟨s, hs, hP⟩ := (system ⟨30000, 3⟩).exists_run_of_exec Fenced State.init
    (Label.submit ++ [.deliver 0 "a"] ++ Label.claims 0 ++ Label.loads 0 ++
      Label.tests 0 .accepted ++ [.attempt 0 (.save none), .attempt 0 (.stampCompleted none)])
    (fun s ↦ s.submission.any fun d ↦ d.status = .completed) (by decide)
  obtain ⟨d, hd, hdc⟩ := (Option.any_eq_true _ _).mp hP
  exact ⟨s, d, hs, hd, of_decide_eq_true hdc, record_consistent ⟨_, hs⟩ hd⟩

/-- The labels of `record_inconsistent`: the engine is not available to two attempts,
the third judges and saves, and then its update of `execution.completedAt` fails. -/
def Label.lastCompletionFails : List Label :=
  submit ++ retried 0 "a" ++ retried 1 "a" ++ [.deliver 2 "a"] ++ claims 2 ++ loads 2 ++
    tests 2 .accepted ++ [.attempt 2 (.save none),
      .attempt 2 (.stampCompleted (some ⟨"MongoNetworkError", "timed out", none, none, false⟩)),
      .attempt 2 (.recover none)]

/-- One failing write on the last attempt stores FAILED beside a verdict. -/
theorem record_inconsistent : ∃ s d,
    (system ⟨30000, 3⟩).Run Machine.anyStep State.init Label.lastCompletionFails s ∧
      Label.lastCompletionFails.countP Label.mongoWriteFails = 1 ∧
      s.submission = some d ∧ d.status = .failed ∧ d.verdict = .accepted ∧ ¬ d.Consistent := by
  obtain ⟨s, hs, hP⟩ := (system ⟨30000, 3⟩).exists_run_of_exec Machine.anyStep State.init
    Label.lastCompletionFails
    (fun s ↦ s.submission.any fun d ↦ d.status = .failed ∧ d.verdict = .accepted) (by decide)
  obtain ⟨d, hd, hdf⟩ := (Option.any_eq_true _ _).mp hP
  obtain ⟨hfailed, haccepted⟩ := of_decide_eq_true hdf
  refine ⟨s, d, hs, by decide, hd, hfailed, haccepted, fun hc ↦ ?_⟩
  have := hc.verdict_iff.mp (by rw [haccepted]; nofun)
  rw [hfailed] at this
  cases this

end CodeArena.Submissions
