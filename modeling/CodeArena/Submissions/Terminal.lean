import CodeArena.Submissions.Owner

/-!
# Terminal states

A submission is COMPLETED or FAILED for good only while the writers that set its
status without looking at it stay within bounds.  Four of them do not look: the save
of RUNNING and the final save of `executeSubmission`, the updates to FAILED of
`processSubmission`, and the save of FAILED of `createSubmission`.  Only the claim and
the revert to QUEUED are filtered on the status.

`Fenced` is the condition those bounds come to.  A writer that does not look must be
*entitled*: it made the latest claim, or whoever made it is over and the record is not
terminal.  And an update of `execution.completedAt` may fail only where the attempt
then still reverts, since the other branches of the `catch` block store FAILED over the
result just saved.

## How the proof goes

One invariant carries it, `Settled`: over a terminal record the owner is done writing
the status, and without an owner `createSubmission` is over.  So an entitled writer that
has not finished never finds a terminal record (`Settled.not_terminal`), and the step
lemma has nothing to show for it.
-/

namespace CodeArena.Submissions

open CodeArena.Lib

/-! ## The condition -/

namespace State

/-- The stored status is terminal. -/
def terminal (s : State) : Bool := s.submission.any fun d ↦ d.status.terminal

/-- The attempt that made the latest claim returned, threw or crashed. -/
def ownerOver (s : State) : Bool := (s.owner.bind s.attempts).any fun a ↦ a.pc.over

/-- A writer may set the status without looking at it: it made the latest claim, or
whoever made it is over and the status is not terminal. -/
def Entitled (s : State) (writer : Option AttemptId) : Prop :=
  s.owner = writer ∨ (s.ownerOver = true ∧ s.terminal = false)

instance (s : State) (writer : Option AttemptId) : Decidable (s.Entitled writer) :=
  inferInstanceAs (Decidable (_ ∨ _))

end State

/-- The update in the `catch` block of `a` is a revert, or `a` is entitled to it. -/
def Attempt.FencedRecover (s : State) (i : AttemptId) (a : Attempt) : Prop :=
  match a.pc with
  | .caught e => a.reverts e = true ∨ s.Entitled (some i)
  | _ => True

/-- `FencedRecover`, decided. -/
def Attempt.fencedRecover (s : State) (i : AttemptId) (a : Attempt) : Bool :=
  match a.pc with
  | .caught e => a.reverts e || s.Entitled (some i)
  | _ => true

theorem Attempt.fencedRecover_iff {s : State} {i : AttemptId} {a : Attempt} :
    a.fencedRecover s i = true ↔ a.FencedRecover s i := by
  unfold Attempt.fencedRecover Attempt.FencedRecover
  split <;> simp

instance (s : State) (i : AttemptId) (a : Attempt) : Decidable (a.FencedRecover s i) :=
  decidable_of_iff _ Attempt.fencedRecover_iff

/-- The steps that keep a terminal record: the writers that set the status without
looking at it are entitled, and the completion of a saved result fails only where the
attempt reverts. -/
def Fenced (s : State) : Label → Prop
  | .api (.refuse none) => s.Entitled none
  | .attempt i (.rerun none) => s.Entitled (some i)
  | .attempt i (.save none) => s.Entitled (some i)
  | .attempt i (.recover none) => ∀ a ∈ s.attempts i, a.FencedRecover s i
  | .attempt i (.stampCompleted (some e)) => ∀ a ∈ s.attempts i, a.reverts e = true
  | _ => True

/-- `Fenced`, decided. -/
def fenced (s : State) : Label → Bool
  | .api (.refuse none) => s.Entitled none
  | .attempt i (.rerun none) => s.Entitled (some i)
  | .attempt i (.save none) => s.Entitled (some i)
  | .attempt i (.recover none) => ∀ a ∈ s.attempts i, a.FencedRecover s i
  | .attempt i (.stampCompleted (some e)) => ∀ a ∈ s.attempts i, a.reverts e = true
  | _ => true

theorem fenced_iff {s : State} {l : Label} : fenced s l = true ↔ Fenced s l := by
  unfold fenced Fenced
  split <;> simp

instance (s : State) (l : Label) : Decidable (Fenced s l) := decidable_of_iff _ fenced_iff

/-! ## The invariant -/

/-- The attempt will not set the status over a terminal record any more. -/
def Attempt.Done (a : Attempt) : Prop :=
  match a.pc with
  | .saved => True
  | .caught e => a.reverts e = true
  | pc => pc.over = true

namespace Attempt

variable {cfg : Config} {now : Time} {d : Submission} {a a' : Attempt} {act : Act}
  {w : Option Write}

/-- An attempt that is over is done. -/
theorem Done.of_over (h : a.pc.over = true) : a.Done := by
  unfold Done
  split
  · trivial
  · rename_i hpc; rw [hpc] at h; cases h
  · exact h

/-- A done attempt stays done, as long as the failure of its `execution.completedAt`
update leads to a revert. -/
theorem Step.done (h : Step cfg now d a act a' w) (ha : a.Done)
    (hstamp : ∀ e, act = .stampCompleted (some e) → a.reverts e = true) : a'.Done := by
  cases h with
  | stamped | failedNonRetryable | failedExhausted | reverted | notReverted | threw | crashed
  | malformed | skipped => exact .of_over rfl
  | saved => trivial
  | caught hr =>
      unfold Done at ha
      generalize hpc : a.pc = pc at hr ha
      cases hr with
      | stampCompleted => exact hstamp _ rfl
      | _ => cases ha
  | readClock hpc | claimWon hpc | claimLost hpc | unsupported hpc | loaded hpc
  | foundRunning hpc | foundOther hpc | rerun hpc | judged hpc =>
      unfold Done at ha
      rw [hpc] at ha
      cases ha

/-- Over a terminal record a done attempt changes neither status nor verdict. -/
theorem Step.keeps_of_done (h : Step cfg now d a act a' w) (ha : a.Done)
    (hd : d.status.terminal = true) :
    (d.after w).status = d.status ∧ (d.after w).verdict = d.verdict := by
  unfold Done at ha
  cases h with
  | claimWon hpc | rerun hpc | saved hpc => rw [hpc] at ha; cases ha
  | failedNonRetryable hpc hn => rw [hpc] at ha; simp [reverts, hn] at ha
  | failedExhausted hpc hn hr => rw [hpc] at ha; simp [reverts, hr] at ha
  | reverted _ _ _ hrun => rw [hrun] at hd; cases hd
  | _ => exact ⟨rfl, rfl⟩

/-- A done attempt does not make a record terminal. -/
theorem Step.terminal_of_done (h : Step cfg now d a act a' w) (ha : a.Done)
    (hd : (d.after w).status.terminal = true) : d.status.terminal = true := by
  unfold Done at ha
  cases h with
  | claimWon hpc | rerun hpc | saved hpc => rw [hpc] at ha; cases ha
  | failedNonRetryable hpc hn => rw [hpc] at ha; simp [reverts, hn] at ha
  | failedExhausted hpc hn hr => rw [hpc] at ha; simp [reverts, hr] at ha
  | reverted => cases hd
  | _ => exact hd

/-- What the condition says of a write by an attempt that is not done: it is
entitled, and it makes the record terminal only as its last write of the status. -/
theorem Step.entitled {s : State} {i : AttemptId} {x : Write}
    (h : Step cfg now d a act a' (some x)) (hx : x.kind ≠ .claim) (ha : ¬ a.Done)
    (hi : s.attempts i = some a) (hf : Fenced s (.attempt i act)) :
    s.Entitled (some i) ∧
      (a'.Done ∨ (x.after.status.terminal = true → d.status.terminal = true)) := by
  cases h with
  | claimWon => exact absurd rfl hx
  | @rerun r t ts hpc =>
      refine ⟨hf, .inr fun hterm ↦ ?_⟩
      by_cases hr : Status.running = r.status
      · simpa [Submission.save, Submission.rerun, Submission.changed, hr] using hterm
      · simp [Submission.save, Submission.rerun, Submission.changed, hr, Status.terminal] at hterm
  | saved hpc => exact ⟨hf, .inl trivial⟩
  | stamped hpc => exact absurd (by simp [Done, hpc]) ha
  | @failedNonRetryable e hpc hn =>
      refine ⟨?_, .inl (.of_over rfl)⟩
      have := hf a hi
      simpa [FencedRecover, hpc, reverts, hn] using this
  | @failedExhausted e hpc hn hr =>
      refine ⟨?_, .inl (.of_over rfl)⟩
      have := hf a hi
      simpa [FencedRecover, hpc, reverts, hr] using this
  | reverted hpc hn hr => exact absurd (by simp [Done, hpc, reverts, hn, hr]) ha

end Attempt

/-- Over a terminal record everyone who is entitled is done. -/
structure State.Settled (s : State) : Prop where
  owner_done : s.terminal = true → ∀ {o a}, s.owner = some o → s.attempts o = some a → a.Done
  api_done : s.terminal = true → s.owner = none → ∃ e, s.api = .threw e

/-- What the later of two states keeps of a terminal record of the earlier. -/
def State.KeepsTerminal (s t : State) : Prop :=
  ∀ d, s.submission = some d → d.status.terminal = true →
    ∃ d', t.submission = some d' ∧ d'.status = d.status ∧ d'.verdict = d.verdict

namespace State

variable {cfg : Config} {s t u : State} {d d' : Submission} {l : Label} {i : AttemptId}
  {a a' : Attempt} {act : Act} {w : Option Write}

theorem terminal_of_stored (hd : s.submission = some d) : s.terminal = d.status.terminal := by
  simp [terminal, hd]

/-- Whoever made the latest claim is over, where `ownerOver` says so. -/
theorem over_of_ownerOver (h : s.ownerOver = true) {o : AttemptId} (ho : s.owner = some o)
    (ha : s.attempts o = some a) : a.pc.over = true := by
  simpa [ownerOver, ho, ha] using h

namespace KeepsTerminal

theorem refl (s : State) : s.KeepsTerminal s := fun d hd _ ↦ ⟨d, hd, rfl, rfl⟩

theorem of_eq (h : t.submission = s.submission) : s.KeepsTerminal t :=
  fun d hd _ ↦ ⟨d, h.trans hd, rfl, rfl⟩

theorem trans (h : s.KeepsTerminal t) (h' : t.KeepsTerminal u) : s.KeepsTerminal u := by
  intro d hd hterm
  obtain ⟨e, he, hes, hev⟩ := h d hd hterm
  obtain ⟨f, hf, hfs, hfv⟩ := h' e he (by rw [hes]; exact hterm)
  exact ⟨f, hf, hfs.trans hes, hfv.trans hev⟩

/-- There is nothing to keep of a record that is not terminal. -/
theorem of_not_terminal (h : s.terminal = false) : s.KeepsTerminal t := by
  intro d hd hterm
  rw [terminal_of_stored hd, hterm] at h
  cases h

end KeepsTerminal

namespace Settled

theorem init : State.init.Settled where
  owner_done := by rintro ⟨⟩
  api_done := by rintro ⟨⟩

/-- A record that is not terminal settles everything. -/
theorem of_not_terminal (h : s.terminal = false) : s.Settled where
  owner_done ht := by rw [h] at ht; cases ht
  api_done ht := by rw [h] at ht; cases ht

/-- An entitled attempt that is not done finds no terminal record. -/
theorem not_terminal (h : s.Settled) (he : s.Entitled (some i)) (ha : s.attempts i = some a)
    (hnot : ¬ a.Done) : s.terminal = false := by
  rcases he with ho | ⟨-, ht⟩
  · by_contra hc
    exact hnot (h.owner_done (by simpa using hc) ho ha)
  · exact ht

/-- After an entitled attempt wrote, everyone entitled is done if that attempt is. -/
theorem of_entitled (he : s.Entitled (some i)) (hdone : a'.Done)
    (howner : ((s.setAttempt i a').write (some i) w).owner = s.owner) :
    State.Settled ((s.setAttempt i a').write (some i) w) where
  owner_done _ {o b} ho hb := by
    rw [howner] at ho
    rcases State.attempts_after.mp hb with ⟨-, rfl⟩ | ⟨hne, hb⟩
    · exact hdone
    rcases he with ho' | ⟨hover, -⟩
    · exact absurd (Option.some.inj (ho.symm.trans ho')) hne
    · exact .of_over (over_of_ownerOver hover ho hb)
  api_done _ ho := by
    rw [howner] at ho
    rcases he with ho' | ⟨hover, -⟩
    · cases ho.symm.trans ho'
    · simp [ownerOver, ho] at hover

/-- A step without a write keeps the owner done. -/
theorem of_silent (h : s.Settled)
    (hdone : s.terminal = true → s.owner = some i → a'.Done) :
    State.Settled (s.setAttempt i a') where
  owner_done ht {o b} ho hb := by
    rcases (State.setAttempt_attempts_eq_some ..).mp hb with ⟨rfl, rfl⟩ | ⟨-, hb⟩
    · exact hdone ht ho
    · exact h.owner_done ht ho hb
  api_done := h.api_done

/-- **Step lemma** for an attempt. -/
theorem attempt_step (h : s.Settled) (ha : s.attempts i = some a) (hd : s.submission = some d)
    (hs : Attempt.Step cfg s.now d a act a' w) (hok : Fenced s (.attempt i act)) :
    State.Settled ((s.setAttempt i a').write (some i) w) ∧
      s.KeepsTerminal ((s.setAttempt i a').write (some i) w) := by
  have hsub : ((s.setAttempt i a').write (some i) w).submission = some (d.after w) :=
    State.attempt_submission hd
  have hs_terminal := terminal_of_stored hd
  have ht_terminal := terminal_of_stored hsub
  rcases hs.claim_or with ⟨c, t, -, -, hfilter, rfl, rfl⟩ | ⟨-, hw, -⟩
  · -- The claim finds a status that is not terminal, and leaves one.
    refine ⟨.of_not_terminal ht_terminal, .of_not_terminal ?_⟩
    rcases hfilter with hq | ⟨hr, -⟩
    · rw [hs_terminal, hq]; rfl
    · rw [hs_terminal, hr]; rfl
  have howner : ((s.setAttempt i a').write (some i) w).owner = s.owner :=
    owner_write_of_forall_ne _ _ hw
  by_cases hdone : a.Done
  · have hstamp : ∀ e, act = .stampCompleted (some e) → a.reverts e = true := by
      rintro e rfl
      exact hok a ha
    have hkeeps := hs.keeps_of_done hdone
    have hback := hs.terminal_of_done hdone
    refine ⟨⟨fun hterm o b ho hb ↦ ?_, fun hterm ho ↦ ?_⟩, fun e he hterm ↦ ?_⟩
    · rw [howner] at ho
      rcases State.attempts_after.mp hb with ⟨rfl, rfl⟩ | ⟨-, hb⟩
      · exact hs.done hdone hstamp
      · exact h.owner_done (hs_terminal.trans (hback (ht_terminal.symm.trans hterm))) ho hb
    · rw [howner] at ho
      rw [write_api]
      exact h.api_done (hs_terminal.trans (hback (ht_terminal.symm.trans hterm))) ho
    · obtain rfl : d = e := Option.some.inj (hd.symm.trans he)
      exact ⟨_, hsub, hkeeps hterm⟩
  cases w with
  | none =>
      refine ⟨h.of_silent fun hterm ho ↦ absurd (h.owner_done hterm ho ha) hdone, .of_eq rfl⟩
  | some x =>
      obtain ⟨he, hout⟩ := hs.entitled (hw x rfl) hdone ha hok
      have hnot := h.not_terminal he ha hdone
      refine ⟨?_, .of_not_terminal hnot⟩
      rcases hout with hdone' | hback
      · exact .of_entitled he hdone' howner
      · refine .of_not_terminal ?_
        rw [ht_terminal]
        by_contra hc
        rw [hs_terminal] at hnot
        rw [hback (by simpa using hc)] at hnot
        cases hnot

/-- **Step lemma** for `createSubmission`. -/
theorem api_step {pc : ApiPc} {aact : ApiAct} {placed : Bool} (h : s.Settled)
    (hf : s.Formed cfg) (ho : s.Owned) (hok : Fenced s (.api aact))
    (hstep : ApiPc.Step s.now s.submission s.api aact pc w placed) :
    State.Settled
        ({ s with api := pc, job := if placed then .waiting 0 else s.job }.write none w) ∧
      s.KeepsTerminal
        ({ s with api := pc, job := if placed then .waiting 0 else s.job }.write none w) := by
  have hapi := hf.api
  have hfinal := h.api_done
  obtain ⟨now, submission, api, job, attempts, log⟩ := s
  cases hstep with
  | refused | checked | createThrew | queueThrew | added | addedThenThrew | rejected
  | refuseThrew =>
      refine ⟨⟨h.owner_done, fun hterm hnone ↦ ?_⟩, .of_eq rfl⟩
      obtain ⟨e, he⟩ := hfinal hterm hnone
      cases he
  | created =>
      obtain ⟨rfl, -⟩ := hapi
      exact ⟨.of_not_terminal rfl, .of_not_terminal rfl⟩
  | @queued c t d hd =>
      obtain ⟨hc, -, req, -, rfl⟩ := hapi
      obtain rfl : d = .create req := Option.some.inj (hd.symm.trans hc)
      refine ⟨.of_not_terminal ?_, .of_not_terminal ?_⟩
      · simp [terminal, Submission.queue, Status.terminal]
      · rw [terminal_of_stored hd]; rfl
  | @refusedStored q t d hd =>
      obtain ⟨-, req, t', -, rfl⟩ := hapi
      rcases hok with hnone | ⟨hover, hnot⟩
      · -- Nobody claimed: the record is the one this save was prepared on.
        have hq := ho.refusing hnone rfl
        obtain rfl : d = _ := Option.some.inj (hd.symm.trans hq)
        refine ⟨⟨fun _ o a hown ↦ ?_, fun _ _ ↦ ⟨_, rfl⟩⟩, .of_not_terminal ?_⟩
        · cases (show ownerOf log = some o from hown).symm.trans hnone
        · rw [terminal_of_stored hd]; rfl
      · exact ⟨⟨fun _ o a hown hat ↦ .of_over (over_of_ownerOver hover hown hat),
          fun _ _ ↦ ⟨_, rfl⟩⟩, .of_not_terminal hnot⟩

/-- A new call leaves everything settled. -/
theorem call (h : s.Settled) (ho : s.Owned) {call : Call} (job : Job)
    (hi : s.attempts i = none) :
    State.Settled ({ s with job }.setAttempt i (.start call)) where
  owner_done ht {o b} hown hb := by
    rcases (State.setAttempt_attempts_eq_some ..).mp hb with ⟨rfl, rfl⟩ | ⟨-, hb⟩
    · obtain ⟨_, _, _, ha, -⟩ := ho.marked hown
      cases hi.symm.trans ha
    · exact h.owner_done ht hown hb
  api_done := h.api_done

/-- **Step lemma.** -/
theorem step (h : s.Settled) (hf : s.Formed cfg) (ho : s.Owned) (hok : Fenced s l)
    (hstep : s.step cfg l = some t) : t.Settled ∧ s.KeepsTerminal t := by
  cases State.step_inv hstep with
  | wait => exact ⟨⟨h.owner_done, h.api_done⟩, .of_eq rfl⟩
  | api hs => exact h.api_step hf ho hok hs
  | deliver hj hi => exact ⟨h.call ho _ hi, .of_eq rfl⟩
  | duplicate hne hi => exact ⟨h.call ho s.job hi, .of_eq rfl⟩
  | attempt ha hs =>
      obtain ⟨d, hd, hs⟩ := hf.attempt_step ha hs
      exact h.attempt_step ha hd hs hok
  | settle => exact ⟨⟨h.owner_done, h.api_done⟩, .of_eq rfl⟩
  | stalled => exact ⟨⟨h.owner_done, h.api_done⟩, .of_eq rfl⟩

end Settled

/-- Everything the fenced runs keep. -/
structure Fine (cfg : Config) (s : State) : Prop where
  formed : s.Formed cfg
  owned : s.Owned
  settled : s.Settled

namespace Fine

theorem init : State.init.Fine cfg := ⟨.init, .init, .init⟩

theorem step (h : s.Fine cfg) (hok : Fenced s l) (hstep : s.step cfg l = some t) :
    t.Fine cfg :=
  ⟨h.formed.step hstep, h.owned.step h.formed hstep,
    (h.settled.step h.formed h.owned hok hstep).1⟩

end Fine

end State

/-- Every state a fenced run reaches is settled. -/
theorem fine_of_reachable {cfg : Config} {s : State} (h : (system cfg).Reachable Fenced s) :
    s.Fine cfg :=
  h.invariant .init fun _ _ _ hs hok hstep ↦ hs.step hok hstep

/-- **Terminal states are absorbing** in every run whose steps are fenced: no later
step changes the stored status or verdict of a completed or failed submission. -/
theorem terminal_absorbing {cfg : Config} {s t : State} {ls : List Label} {d : Submission}
    (hs : (system cfg).Reachable Fenced s) (hrun : (system cfg).Run Fenced s ls t)
    (hd : s.submission = some d) (hterm : d.status.terminal = true) :
    ∃ d', t.submission = some d' ∧ d'.status = d.status ∧ d'.verdict = d.verdict := by
  have hkeeps : s.KeepsTerminal t :=
    hrun.related (I := State.Fine cfg) (fine_of_reachable hs)
      (fun _ _ _ hI hok hstep ↦
        ⟨hI.step hok hstep, (hI.settled.step hI.formed hI.owned hok hstep).2⟩)
      State.KeepsTerminal.refl fun _ _ _ ↦ State.KeepsTerminal.trans
  exact hkeeps d hd hterm

/-- A judged submission is delivered once more, and stays as it was judged. -/
theorem terminal_absorbing_redelivered : ∃ s t d d',
    (system ⟨30000, 3⟩).Run Fenced State.init
        (Label.submit ++ [.deliver 0 "a"] ++ Label.claims 0 ++ Label.loads 0 ++
          Label.tests 0 .accepted ++ [.attempt 0 (.save none)]) s ∧
      (system ⟨30000, 3⟩).Run Fenced s
        ([.attempt 0 (.stampCompleted none), .settle, .duplicate 1 ⟨"b", true, none⟩] ++
          Label.claims 1) t ∧
      s.submission = some d ∧ t.submission = some d' ∧
      d'.status = d.status ∧ d'.verdict = d.verdict := by
  obtain ⟨s, hs, hP⟩ := (system ⟨30000, 3⟩).exists_run_of_exec Fenced State.init
    (Label.submit ++ [.deliver 0 "a"] ++ Label.claims 0 ++ Label.loads 0 ++
      Label.tests 0 .accepted ++ [.attempt 0 (.save none)])
    (fun s ↦ s.terminal && ((system ⟨30000, 3⟩).exec Fenced s
      ([.attempt 0 (.stampCompleted none), .settle, .duplicate 1 ⟨"b", true, none⟩] ++
        Label.claims 1)).isSome) (by decide)
  obtain ⟨hterm, hexec⟩ := Bool.and_eq_true_iff.mp hP
  obtain ⟨t, ht⟩ := Option.isSome_iff_exists.mp hexec
  obtain ⟨d, hd, hdt⟩ := (Option.any_eq_true _ _).mp hterm
  obtain ⟨d', hd', hkept⟩ := terminal_absorbing ⟨_, hs⟩ (.of_exec ht) hd hdt
  exact ⟨s, t, d, d', hs, .of_exec ht, hd, hd', hkept⟩

/-- A worker that lost its claim to a takeover stores its own verdict over the one
already stored, with no call failing. -/
theorem terminal_overwritten : ∃ s t,
    (system ⟨30000, 3⟩).Run Reliable State.init
        (Label.submit ++ [.deliver 0 "a"] ++ Label.claims 0 ++ Label.loads 0 ++
          [.wait 30001, .duplicate 1 ⟨"b", true, none⟩] ++ Label.claims 1 ++ Label.loads 1 ++
          Label.tests 1 .accepted ++ [.attempt 1 (.save none)]) s ∧
      (system ⟨30000, 3⟩).Run Reliable s
        (Label.tests 0 .timeLimitExceeded ++ [.attempt 0 (.save none)]) t ∧
      s.submission.map (fun d ↦ (d.status, d.verdict)) = some (.completed, .accepted) ∧
      t.submission.map (fun d ↦ (d.status, d.verdict)) =
        some (.completed, .timeLimitExceeded) := by
  obtain ⟨s, hs, hP⟩ := (system ⟨30000, 3⟩).exists_run_of_exec Reliable State.init
    (Label.submit ++ [.deliver 0 "a"] ++ Label.claims 0 ++ Label.loads 0 ++
      [.wait 30001, .duplicate 1 ⟨"b", true, none⟩] ++ Label.claims 1 ++ Label.loads 1 ++
      Label.tests 1 .accepted ++ [.attempt 1 (.save none)])
    (fun s ↦ s.submission.map (fun d ↦ (d.status, d.verdict)) = some (.completed, .accepted) &&
      ((system ⟨30000, 3⟩).exec Reliable s
        (Label.tests 0 .timeLimitExceeded ++ [.attempt 0 (.save none)])).any fun t ↦
          t.submission.map (fun d ↦ (d.status, d.verdict)) =
            some (.completed, .timeLimitExceeded)) (by decide)
  obtain ⟨hfirst, hthen⟩ := Bool.and_eq_true_iff.mp hP
  obtain ⟨t, ht, hP'⟩ := Machine.exists_run_of_exec _ _ _ _ _ hthen
  exact ⟨s, t, hs, ht, of_decide_eq_true hfirst, of_decide_eq_true hP'⟩

end CodeArena.Submissions
