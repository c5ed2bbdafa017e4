import CodeArena.Submissions.Owner

/-!
# The handler and the stored status

Where MongoDB does not fail and nobody else writes, the point at which an attempt stands
says what status is stored.  `Pc.Tracks` is that table, and its step lemma is what ties
the state machine of the database to that of the queue: the handler returns only over a
terminal record, and throws only over one that is terminal or will be claimed again.

The one premise is about lost claims: a claim is not refused by a RUNNING record.
-/

namespace CodeArena.Submissions

/-- What the stored status is while the handler stands at a point, `retries` telling
whether the job will be delivered again should it throw. -/
def Pc.Tracks (retries : Bool) (status : Status) : Pc → Prop
  | .started | .claiming _ _ | .crashed => status ≠ .pending
  | .unclaimed | .returned _ => status.terminal = true
  | .claimed | .testing _ _ | .caught _ => status = .running
  | .loaded r | .saving r _ => status = .running ∧ r.status = .running
  | .rerunning _ _ _ => False
  | .saved => status = .completed
  | .threw _ => status ≠ .pending ∧ (retries = true ∨ status.terminal = true)

/-- No attempt meets a record that is still PENDING. -/
theorem Pc.Tracks.ne_pending {retries : Bool} {status : Status} {pc : Pc}
    (h : pc.Tracks retries status) : status ≠ .pending := by
  rintro rfl
  cases pc <;> simp [Tracks, Status.terminal] at h

namespace Attempt

variable {cfg : Config} {now : Time} {s : State} {d : Submission} {a a' : Attempt} {act : Act}
  {w : Option Write} {i : AttemptId}

/-- A call outside of the `try` block rejects only where MongoDB fails. -/
theorem Rejects.mongoFails {pc : Pc} {e : JsError} (h : Rejects pc act e) :
    act.mongoFails = true := by
  cases h <;> rfl

/-- Where MongoDB does not fail, the `catch` block is entered with the status RUNNING. -/
theorem Raises.running {pc : Pc} {e : JsError} (h : Raises pc act e)
    (hm : act.mongoFails = false) {retries : Bool} {status : Status}
    (ht : pc.Tracks retries status) : status = .running := by
  cases h with
  | noTestCases => exact ht.1
  | runTests => exact ht
  | _ => cases hm

/-- **Step lemma.**  The stored status goes along with the attempt. -/
theorem Step.tracks (h : Step cfg now d a act a' w) (hvalid : a.pc = .started → a.call.validId = true)
    (hm : act.mongoFails = false)
    (hreclaims : ∀ staleCutoff startedAt, a.pc = .claiming staleCutoff startedAt →
      act = .claim none → d.status = .running → d.ClaimFilter staleCutoff)
    (ha : a.pc.Tracks a.call.hasRetriesRemaining d.status) :
    a'.pc.Tracks a.call.hasRetriesRemaining (d.after w).status := by
  have hpending := ha.ne_pending
  cases h with
  | malformed hpc hv => cases (hvalid hpc).symm.trans hv
  | readClock => exact hpending
  | claimWon => rfl
  | claimLost hpc hlost =>
      have hrunning := hreclaims _ _ hpc rfl
      simp only [goto_pc, Pc.Tracks, Submission.after_none]
      cases hstatus : d.status with
      | pending => exact absurd hstatus hpending
      | queued => exact absurd (.inl hstatus) hlost
      | running => exact absurd (hrunning hstatus) hlost
      | completed | failed => rfl
  | skipped hpc => rw [hpc] at ha; exact ha
  | unsupported hpc | loaded hpc => rw [hpc] at ha; exact ⟨ha, ha⟩
  | foundRunning hpc => rw [hpc] at ha; exact ha.1
  | foundOther hpc hne => rw [hpc] at ha; exact absurd ha.2 hne
  | rerun hpc => rw [hpc] at ha; exact ha.elim
  | @judged r _ _ _ hpc => rw [hpc] at ha; exact ⟨ha, r.running⟩
  | @saved r f hpc =>
      rw [hpc] at ha
      have hr : r.status = .running := ha.2
      cases f <;> simp [Pc.Tracks, Submission.save, Finding.enter, Submission.complete,
        Submission.rejectLanguage, Submission.changed, hr]
  | stamped hpc =>
      rw [hpc] at ha
      have hd : d.status = .completed := ha
      simp [Pc.Tracks, Submission.stampCompleted, hd, Status.terminal]
  | caught hr => exact hr.running hm ha
  | failedNonRetryable => rfl
  | failedExhausted => exact ⟨by rintro ⟨⟩, .inr rfl⟩
  | reverted _ _ hretries => exact ⟨by rintro ⟨⟩, .inl hretries⟩
  | notReverted _ _ hretries => exact ⟨hpending, .inl hretries⟩
  | threw hr => cases hm.symm.trans hr.mongoFails
  | crashed => exact hpending

end Attempt

end CodeArena.Submissions
