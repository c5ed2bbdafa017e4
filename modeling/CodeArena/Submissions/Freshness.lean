import CodeArena.Submissions.Owner

/-!
# Fresh ownership

Whether a claim can be taken from an attempt that is still at work.  `claimFilter`
protects a RUNNING submission for `staleTimeoutMs` after `execution.startedAt`.  What it
does not see is who reverts: the update back to QUEUED is filtered on the status alone,
so an attempt that was taken over reopens the submission over the head of the attempt
that took it.  Nor does it see when a claim took effect: `execution.startedAt` is the
clock as it was read before the `findOneAndUpdate`, so an owner whose claim was slow to
arrive is taken for older than it is.

`Undisturbed` rules out these two, and leaves alone whatever takes the submission from
nobody: a claim on QUEUED may arrive as late as it likes.  The invariant `Guarded` then
says that whoever is not the owner has been at it for too long, and so has the owner once
the status is QUEUED.
-/

namespace CodeArena.Submissions

open CodeArena.Lib

/-- The writes that end the execution of an attempt: those that store a terminal
status, and the revert. -/
def WriteKind.ends : WriteKind → Bool
  | .complete | .fail | .revert => true
  | _ => false

namespace State

/-- The attempt won a claim and has neither crashed, nor stored a terminal status, nor
reverted the submission. -/
def StillExecuting (s : State) (i : AttemptId) : Prop :=
  (∃ a ∈ s.attempts i, a.claim ≠ none ∧ a.pc ≠ .crashed) ∧
    ∀ e ∈ s.log, e.writer = some i → e.kind.ends = false

instance (s : State) (i : AttemptId) : Decidable (s.StillExecuting i) :=
  inferInstanceAs (Decidable (_ ∧ _))

/-- The attempt won its claim at most `staleTimeoutMs` ago. -/
def ClaimedWithin (cfg : Config) (s : State) (i : AttemptId) : Prop :=
  ∃ a ∈ s.attempts i, ∃ c ∈ a.claim, s.now ≤ c.wonAt + cfg.staleTimeoutMs

instance (cfg : Config) (s : State) (i : AttemptId) : Decidable (s.ClaimedWithin cfg i) :=
  inferInstanceAs (Decidable (∃ a ∈ s.attempts i, _))

/-- A claim protected by `staleTimeoutMs`: its attempt is executing, and has not been
for longer. -/
def Protected (cfg : Config) (s : State) (i : AttemptId) : Prop :=
  s.StillExecuting i ∧ s.ClaimedWithin cfg i

instance (cfg : Config) (s : State) (i : AttemptId) : Decidable (s.Protected cfg i) :=
  inferInstanceAs (Decidable (_ ∧ _))

/-- A claim with this cutoff that matches while the status is RUNNING takes the submission
over: from an owner that is over, or whose own claim took effect before the cutoff, and
was not only computed before it. -/
def TakesOverStale (s : State) (staleCutoff : Time) : Prop :=
  ∀ d ∈ s.submission, d.status = .running → d.ClaimFilter staleCutoff →
    ∀ o ∈ s.owner, s.StillExecuting o → ∀ b ∈ s.attempts o, ∀ c ∈ b.claim, c.wonAt < staleCutoff

instance (s : State) (staleCutoff : Time) : Decidable (s.TakesOverStale staleCutoff) :=
  inferInstanceAs (Decidable (∀ d ∈ s.submission, _))

end State

/-- The cutoff of the claim the attempt awaits. -/
def Attempt.cutoff (a : Attempt) : Option Time :=
  match a.pc with
  | .claiming staleCutoff _ => some staleCutoff
  | _ => none

/-- The steps that disturb no protected claim: a claim that takes over finds the claim it
takes over stale, and an attempt reverts the status only while no other claim is
protected. -/
def Undisturbed (cfg : Config) (s : State) : Label → Prop
  | .attempt i (.claim none) => ∀ a ∈ s.attempts i, ∀ c ∈ a.cutoff, s.TakesOverStale c
  | .attempt i (.recover none) => ∀ a ∈ s.attempts i, ∀ e, a.pc = .caught e →
      a.reverts e = true → (∃ d ∈ s.submission, d.status = .running) →
      ∀ j, j ≠ i → ¬ s.Protected cfg j
  | _ => True

/-- A step that leaves the status QUEUED found it so, or was the revert. -/
theorem Attempt.Step.queued {cfg : Config} {now : Time} {d : Submission} {a a' : Attempt}
    {act : Act} {w : Option Write} (h : Attempt.Step cfg now d a act a' w)
    (hq : (d.after w).status = .queued) :
    d.status = .queued ∨ (act = .recover none ∧ (∃ e, a.pc = .caught e ∧ a.reverts e = true) ∧
      d.status = .running ∧ w = some ⟨.revert, d.revert⟩) := by
  cases h with
  | reverted hpc hn hr hrun =>
      exact .inr ⟨rfl, ⟨_, hpc, by simp [reverts, hn, hr]⟩, hrun, rfl⟩
  | claimWon | failedNonRetryable | failedExhausted => cases hq
  | @rerun r t ts hpc =>
      by_cases hr : Status.running = r.status
      · exact .inl (by simpa [Submission.save, Submission.rerun, Submission.changed, hr] using hq)
      · simp [Submission.save, Submission.rerun, Submission.changed, hr] at hq
  | @saved r f hpc =>
      by_cases hr : Status.completed = r.status
      · left
        cases f <;> simpa [Submission.save, Finding.enter, Submission.complete,
          Submission.rejectLanguage, Submission.changed, hr] using hq
      · cases f <;> simp [Submission.save, Finding.enter, Submission.complete,
          Submission.rejectLanguage, Submission.changed, hr] at hq
  | _ => exact .inl hq

namespace State

variable {cfg : Config} {s t : State} {d : Submission} {l : Label} {i j : AttemptId}
  {a a' : Attempt} {act : Act} {w : Option Write}

/-- If an attempt executes after a step then it did before, unless the step won its
claim. -/
theorem Protected.back (h : t.Protected cfg j) (hnow : s.now ≤ t.now)
    (hlog : ∀ e ∈ s.log, e ∈ t.log)
    (hat : ∀ a', t.attempts j = some a' → a'.claim ≠ none → a'.pc ≠ .crashed →
      ∃ a, s.attempts j = some a ∧ a.claim = a'.claim ∧ a.pc ≠ .crashed) :
    s.Protected cfg j := by
  obtain ⟨⟨⟨a', ha', hclaim, hpc⟩, hends⟩, b, hb, c, hc, hle⟩ := h
  obtain rfl : a' = b := Option.some.inj (ha'.symm.trans hb)
  obtain ⟨a, ha, hac, hapc⟩ := hat a' ha' hclaim hpc
  exact ⟨⟨⟨a, ha, by rw [hac]; exact hclaim, hapc⟩, fun e he ↦ hends e (hlog e he)⟩,
    a, ha, c, by rw [hac]; exact hc, Nat.le_trans hnow hle⟩

/-- The write history only grows. -/
theorem mem_log_write {x : Option AttemptId} {e : Entry} (he : e ∈ s.log) :
    e ∈ (s.write x w).log := by
  cases w with
  | none => exact he
  | some w => exact List.mem_cons_of_mem _ he

/-- A claim protected after the step of an attempt was protected before, unless the
step won it. -/
theorem Protected.back_attempt
    (h : ((s.setAttempt i a').write (some i) w).Protected cfg j) (ha : s.attempts i = some a)
    (hs : Attempt.Step cfg s.now d a act a' w) (hclaim : j ≠ i ∨ a'.claim = a.claim) :
    s.Protected cfg j := by
  refine h.back (by simp) (fun e he ↦ mem_log_write (s := s.setAttempt i a') he) ?_
  intro b hb _ hpc
  rcases State.attempts_after.mp hb with ⟨rfl, rfl⟩ | ⟨-, hb⟩
  · have hac : b.claim = a.claim := hclaim.resolve_left fun hne ↦ hne rfl
    refine ⟨a, ha, hac.symm, fun hc ↦ ?_⟩
    have hover := hs.not_over
    rw [hc] at hover
    cases hover
  · exact ⟨b, hb, rfl, hpc⟩

/-- Whose claim can still be protected. -/
structure Guarded (cfg : Config) (s : State) : Prop where
  /-- Only the owner's claim is protected. -/
  owner : ∀ {j}, s.Protected cfg j → s.owner = some j
  /-- No claim is, while the status is QUEUED. -/
  queued : ∀ {d}, s.submission = some d → d.status = .queued → ∀ j, ¬ s.Protected cfg j

namespace Guarded

theorem init : State.init.Guarded cfg where
  owner := by rintro _ ⟨⟨⟨_, ⟨⟩, -⟩, -⟩, -⟩
  queued := by rintro _ ⟨⟩

/-- A claim that wins, and finds stale what it takes over, finds no claim protected. -/
theorem not_protected (h : s.Guarded cfg) (hf : s.Formed cfg) (ha : s.attempts i = some a)
    (hd : s.submission = some d) {staleCutoff startedAt : Time}
    (hpc : a.pc = .claiming staleCutoff startedAt) (hfilter : d.ClaimFilter staleCutoff)
    (hstale : s.TakesOverStale staleCutoff) : ¬ s.Protected cfg j := by
  intro hj
  rcases hfilter with hq | ⟨hrun, hold⟩
  · exact h.queued hd hq j hj
  -- Only the owner can be protected, and its claim took effect before the cutoff.
  obtain ⟨hexec, b, hb, c, hc, hle⟩ := hj
  have howner : s.owner = some j := h.owner ⟨hexec, b, hb, c, hc, hle⟩
  have hwon : c.wonAt < staleCutoff :=
    hstale d hd hrun (.inr ⟨hrun, hold⟩) j howner hexec b hb c hc
  obtain ⟨hcut, hnow⟩ := (hf.attempts ha).claiming hpc
  rw [hcut] at hwon
  have hlt : c.wonAt + cfg.staleTimeoutMs < s.now :=
    Nat.lt_of_lt_of_le (Nat.add_lt_of_lt_sub hwon) hnow
  exact Nat.not_le_of_lt hlt hle

/-- **Step lemma** for an attempt. -/
theorem attempt_step (h : s.Guarded cfg) (hf : s.Formed cfg)
    (hok : Undisturbed cfg s (.attempt i act)) (ha : s.attempts i = some a)
    (hd : s.submission = some d) (hs : Attempt.Step cfg s.now d a act a' w) :
    State.Guarded cfg ((s.setAttempt i a').write (some i) w) := by
  have hsub : ((s.setAttempt i a').write (some i) w).submission = some (d.after w) :=
    State.attempt_submission hd
  rcases hs.claim_or with ⟨staleCutoff, startedAt, hpc, rfl, hfilter, rfl, rfl⟩ | ⟨hclaim, hw, -⟩
  · have hstale : s.TakesOverStale staleCutoff :=
      hok a ha staleCutoff (by rw [Attempt.cutoff, hpc]; rfl)
    have hnone : ∀ k, ¬ s.Protected cfg k := fun _ ↦
      h.not_protected hf ha hd hpc hfilter hstale
    constructor
    case owner =>
      intro k hk
      rw [owner_write_claim _ _ _ rfl]
      by_cases hki : k = i
      · rw [hki]
      · exact absurd (hk.back_attempt ha hs (.inl hki)) (hnone k)
    case queued =>
      intro _ he hq
      cases hsub.symm.trans he
      cases hq
  have howner : ((s.setAttempt i a').write (some i) w).owner = s.owner :=
    owner_write_of_forall_ne _ _ hw
  constructor
  case owner =>
    intro k hk
    rw [howner]
    exact h.owner (hk.back_attempt ha hs (.inr hclaim))
  case queued =>
    intro e he hq k hk
    have hback := hk.back_attempt ha hs (.inr hclaim)
    obtain rfl : d.after w = e := Option.some.inj (hsub.symm.trans he)
    rcases hs.queued hq with hdq | ⟨rfl, ⟨e, hpc, hrev⟩, hrun, rfl⟩
    · exact h.queued hd hdq k hback
    · by_cases hki : k = i
      · -- The attempt that reverted ended its own execution.
        subst hki
        have hends := hk.1.2 _ (List.mem_cons_self ..) rfl
        cases hends
      · exact hok a ha e hpc hrev ⟨d, hd, hrun⟩ k hki hback

/-- No claim is protected before the job is placed. -/
theorem not_protected_of_absent (hf : s.Formed cfg) (hj : s.job = .absent) :
    ¬ s.Protected cfg i := by
  rintro ⟨⟨⟨a, ha, -⟩, -⟩, -⟩
  cases (hf.absent hj i).symm.trans ha

/-- **Step lemma** for `createSubmission`. -/
theorem api_step {pc : ApiPc} {aact : ApiAct} {placed : Bool} (h : s.Guarded cfg)
    (hf : s.Formed cfg) (hstep : ApiPc.Step s.now s.submission s.api aact pc w placed) :
    State.Guarded cfg
      ({ s with api := pc, job := if placed then .waiting 0 else s.job }.write none w) := by
  have hback : ∀ {k}, State.Protected cfg
      ({ s with api := pc, job := if placed then .waiting 0 else s.job }.write none w) k →
      s.Protected cfg k := fun {k} hk ↦ by
    refine hk.back (by simp) (fun e he ↦ ?_) fun b hb _ hpc ↦ ⟨b, by simpa using hb, rfl, hpc⟩
    exact mem_log_write (s := { s with api := pc, job := if placed then .waiting 0 else s.job }) he
  have howner : State.owner
      ({ s with api := pc, job := if placed then .waiting 0 else s.job }.write none w) =
      s.owner :=
    owner_write_of_forall_ne _ _ hstep.kind_ne_claim
  constructor
  case owner => exact fun hk ↦ howner.trans (h.owner (hback hk))
  case queued =>
    intro e he hq k hk
    have hapi := hf.api
    generalize hpc : s.api = api at hstep hapi
    cases hstep with
    | created => exact not_protected_of_absent hf hapi.2 (hback hk)
    | queued hd => exact not_protected_of_absent hf hapi.2.1 (hback hk)
    | @refusedStored q t d hd =>
        obtain ⟨-, req, t', -, rfl⟩ := hapi
        cases he
        cases hq
    | _ => exact h.queued he hq k (hback hk)

/-- A new call protects nothing. -/
theorem call (h : s.Guarded cfg) {call : Call} (job : Job) :
    State.Guarded cfg ({ s with job }.setAttempt i (.start call)) := by
  have hback : ∀ {k}, State.Protected cfg ({ s with job }.setAttempt i (.start call)) k →
      s.Protected cfg k := fun {k} hk ↦ by
    refine hk.back (Nat.le_refl _) (fun _ he ↦ he) fun b hb hclaim hpc ↦ ?_
    rcases (State.setAttempt_attempts_eq_some ..).mp hb with ⟨-, rfl⟩ | ⟨-, hb⟩
    · exact absurd rfl hclaim
    · exact ⟨b, hb, rfl, hpc⟩
  constructor
  case owner => exact fun hk ↦ h.owner (hback hk)
  case queued => exact fun he hq k hk ↦ h.queued he hq k (hback hk)

/-- **Step lemma.** -/
theorem step (h : s.Guarded cfg) (hf : s.Formed cfg)
    (hok : Undisturbed cfg s l) (hstep : s.step cfg l = some t) : t.Guarded cfg := by
  cases State.step_inv hstep with
  | @wait d =>
      have hback : ∀ {k}, State.Protected cfg { s with now := s.now + d } k → s.Protected cfg k :=
        fun {k} hk ↦ hk.back (Nat.le_add_right _ _) (fun _ he ↦ he)
          fun b hb _ hpc ↦ ⟨b, hb, rfl, hpc⟩
      exact ⟨fun hk ↦ h.owner (hback hk), fun he hq k hk ↦ h.queued he hq k (hback hk)⟩
  | api hs => exact h.api_step hf hs
  | deliver | duplicate => exact h.call _
  | attempt ha hs =>
      obtain ⟨d, hd, hs⟩ := hf.attempt_step ha hs
      exact h.attempt_step hf hok ha hd hs
  | settle | stalled => exact ⟨h.owner, h.queued⟩

end Guarded

end State

/-- **Fresh ownership is protected from theft** in every undisturbed run: when a claim
wins, no other attempt is executing under a claim it won at most `staleTimeoutMs`
ago. -/
theorem fresh_ownership_protected {cfg : Config} {s t : State} {k j : AttemptId}
    {d : Submission} (hs : (system cfg).Reachable (Undisturbed cfg) s)
    (hok : Undisturbed cfg s (.attempt k (.claim none)))
    (hstep : s.step cfg (.attempt k (.claim none)) = some t)
    (hwon : t.log = ⟨some k, .claim, s.now, d⟩ :: s.log) :
    ¬ (s.StillExecuting j ∧ s.ClaimedWithin cfg j) := by
  have hf := formed_of_reachable hs
  have hg : s.Guarded cfg := hs.invariant_with (Q := State.Formed cfg)
    (fun _ hs ↦ formed_of_reachable hs) .init fun _ _ _ hf hs hok hstep ↦ hs.step hf hok hstep
  cases State.step_inv hstep with
  | attempt ha hs =>
      obtain ⟨e, he, hs⟩ := hf.attempt_step ha hs
      cases hs with
      | claimWon hpc hfilter =>
          exact hg.not_protected hf ha he hpc hfilter (hok _ ha _ (by rw [Attempt.cutoff, hpc]; rfl))
      | claimLost | threw | caught => exact absurd hwon (by simp)

/-- Undisturbed steps that are easily recognised: none of the updates of the `catch`
block. -/
def Prompt (s : State) : Label → Prop
  | .attempt i (.claim none) => ∀ a ∈ s.attempts i, ∀ c ∈ a.cutoff, s.TakesOverStale c
  | .attempt _ (.recover _) => False
  | _ => True

/-- `Prompt`, decided. -/
def prompt (s : State) : Label → Bool
  | .attempt i (.claim none) => ∀ a ∈ s.attempts i, ∀ c ∈ a.cutoff, s.TakesOverStale c
  | .attempt _ (.recover _) => false
  | _ => true

theorem prompt_iff {s : State} {l : Label} : prompt s l = true ↔ Prompt s l := by
  unfold prompt Prompt
  split <;> simp

instance (s : State) (l : Label) : Decidable (Prompt s l) := decidable_of_iff _ prompt_iff

theorem Prompt.undisturbed (cfg : Config) {s : State} {l : Label} (h : Prompt s l) :
    Undisturbed cfg s l := by
  unfold Undisturbed
  split
  · exact h
  · exact h.elim
  · trivial

/-- A run after which a claim wins, found by executing both. -/
theorem State.exists_claim_of_exec (cfg : Config) (ok : State → Label → Prop)
    [∀ s l, Decidable (ok s l)] (ls : List Label) (k : AttemptId) (P : State → Bool)
    (h : ((system cfg).exec ok State.init ls).any (fun s ↦ P s &&
      (s.step cfg (.attempt k (.claim none))).any fun t ↦
        ∃ d ∈ t.submission, t.log = ⟨some k, .claim, s.now, d⟩ :: s.log) = true) :
    ∃ s t d, (system cfg).Run ok State.init ls s ∧ P s = true ∧
      s.step cfg (.attempt k (.claim none)) = some t ∧
      t.log = ⟨some k, .claim, s.now, d⟩ :: s.log := by
  obtain ⟨s, hs, h⟩ := (system cfg).exists_run_of_exec ok State.init ls _ h
  obtain ⟨hP, hstep⟩ := Bool.and_eq_true_iff.mp h
  obtain ⟨t, ht, hlog⟩ := (Option.any_eq_true _ _).mp hstep
  obtain ⟨d, -, hd⟩ := of_decide_eq_true hlog
  exact ⟨s, t, d, hs, hP, ht, hd⟩

/-- A submission owned by attempt 0, whose claim took effect `delay` after it read the
clock, and attempt 1 about to claim it, `age` later. -/
def Label.takeoverAfter (delay age : Nat) : List Label :=
  submit ++ [.deliver 0 "a", .attempt 0 .readClock, .wait delay, .attempt 0 (.claim none)] ++
    loads 0 ++ [.wait age, .duplicate 1 ⟨"b", true, none⟩, .attempt 1 .readClock]

/-- A takeover in time: the owner of a submission has executed for longer than
`staleTimeoutMs` when another attempt claims it. -/
def Label.takeover : List Label := takeoverAfter 5 30001

/-- The claim that takes over finds the executing attempt unprotected. -/
theorem fresh_ownership_protected_takeover : ∃ s t d,
    (system ⟨30000, 3⟩).Run (Undisturbed ⟨30000, 3⟩) State.init Label.takeover s ∧
      s.step ⟨30000, 3⟩ (.attempt 1 (.claim none)) = some t ∧
      t.log = ⟨some 1, .claim, s.now, d⟩ :: s.log ∧
      s.StillExecuting 0 ∧ ¬ (s.StillExecuting 0 ∧ s.ClaimedWithin ⟨30000, 3⟩ 0) := by
  obtain ⟨s, t, d, hs, hP, ht, hd⟩ := State.exists_claim_of_exec ⟨30000, 3⟩ Prompt Label.takeover 1
    (fun s ↦ s.StillExecuting 0 && prompt s (.attempt 1 (.claim none))) (by decide)
  obtain ⟨hexec, hok⟩ := Bool.and_eq_true_iff.mp hP
  have hrun := hs.mono fun _ _ ↦ Prompt.undisturbed ⟨30000, 3⟩
  have hok := (prompt_iff.mp hok).undisturbed ⟨30000, 3⟩
  exact ⟨s, t, d, hrun, ht, hd, of_decide_eq_true hexec,
    fresh_ownership_protected ⟨_, hrun⟩ hok ht hd⟩

/-- The labels of `fresh_ownership_stolen`: the attempt that was taken over finds the
engine unavailable, reverts, and its job is delivered again. -/
def Label.theft : List Label :=
  takeover ++ [.attempt 1 (.claim none)] ++ engineFails 0 ++
    [.attempt 0 (.recover none), .settle, .deliver 2 "c", .attempt 2 .readClock]

/-- A claim wins in the very millisecond in which another attempt won its own, with no
call failing. -/
theorem fresh_ownership_stolen : ∃ s t d,
    (system ⟨30000, 3⟩).Run Reliable State.init Label.theft s ∧
      s.step ⟨30000, 3⟩ (.attempt 2 (.claim none)) = some t ∧
      t.log = ⟨some 2, .claim, s.now, d⟩ :: s.log ∧
      s.StillExecuting 1 ∧ s.ClaimedWithin ⟨30000, 3⟩ 1 := by
  obtain ⟨s, t, d, hs, hP, ht, hd⟩ := State.exists_claim_of_exec ⟨30000, 3⟩ Reliable Label.theft 2
    (fun s ↦ s.Protected ⟨30000, 3⟩ 1) (by decide +kernel)
  obtain ⟨hexec, hwithin⟩ := of_decide_eq_true hP
  exact ⟨s, t, d, hs, ht, hd, hexec, hwithin⟩

/-- No attempt reverts, and still a claim wins less than `staleTimeoutMs` after the claim
it overrides: the owner's claim took effect five milliseconds after it read the clock, and
is judged by the clock it read. -/
theorem fresh_ownership_stolen_early : ∃ s t d,
    (system ⟨30000, 3⟩).Run Reliable State.init (Label.takeoverAfter 5 29996) s ∧
      s.step ⟨30000, 3⟩ (.attempt 1 (.claim none)) = some t ∧
      t.log = ⟨some 1, .claim, s.now, d⟩ :: s.log ∧
      s.StillExecuting 0 ∧ s.ClaimedWithin ⟨30000, 3⟩ 0 := by
  obtain ⟨s, t, d, hs, hP, ht, hd⟩ := State.exists_claim_of_exec ⟨30000, 3⟩ Reliable
    (Label.takeoverAfter 5 29996) 1 (fun s ↦ s.Protected ⟨30000, 3⟩ 0) (by decide +kernel)
  obtain ⟨hexec, hwithin⟩ := of_decide_eq_true hP
  exact ⟨s, t, d, hs, ht, hd, hexec, hwithin⟩

end CodeArena.Submissions
