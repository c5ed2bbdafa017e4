import CodeArena.Submissions.Owner

/-!
# Whose result is stored

The final save of `executeSubmission` writes the fields whose value differs from the
document it loaded, on whatever is stored by then, and it does not ask who owns the
submission.  A completed record can therefore be the work of an attempt that lost its
claim, or a mixture.

Where only the owner saves, it cannot: `Traced` says that the result fields of the
record are the ones the owner loaded, so its save stores its own result as a whole, and
that from then on the record shows the owner's result until it is claimed again.
-/

namespace CodeArena.Submissions

open CodeArena.Lib

/-- The result fields of a document. -/
structure ResultFields where
  verdict : Verdict
  testsPassed : Option Nat
  totalTests : Option Nat
  runtimeMs : Option Nat
deriving DecidableEq, Repr

/-- The result fields of a record. -/
def Submission.result (d : Submission) : ResultFields :=
  ⟨d.verdict, d.testsPassed, d.totalTests, d.runtimeMs⟩

/-- The result fields that a judgement is stored as. -/
def Judgement.result (j : Judgement) : ResultFields :=
  ⟨j.verdict, some j.testsPassed, some j.totalTests, j.runtimeMs⟩

/-- The stored result is the one that the owner of the submission computed, and the
record carries the owner's worker and start. -/
def State.ResultOfOwner (s : State) (d : Submission) : Prop :=
  ∃ o a c j, s.owner = some o ∧ s.attempts o = some a ∧ a.claim = some c ∧
    a.judgement = some j ∧ d.result = j.result ∧
    d.execution.workerId = some a.call.workerId ∧ d.execution.startedAt = some c.startedAt

/-- The steps in which only the owner saves a result. -/
def OwnerSaves (s : State) : Label → Prop
  | .attempt i (.save none) => s.owner = some i
  | _ => True

/-- `OwnerSaves`, decided. -/
def ownerSaves (s : State) : Label → Bool
  | .attempt i (.save none) => s.owner = some i
  | _ => true

theorem ownerSaves_iff {s : State} {l : Label} : ownerSaves s l = true ↔ OwnerSaves s l := by
  unfold ownerSaves OwnerSaves
  split <;> simp

instance (s : State) (l : Label) : Decidable (OwnerSaves s l) :=
  decidable_of_iff _ ownerSaves_iff

/-! ## What a step does to the result fields -/

/-- The points of an attempt from which it stores no result any more. -/
def Pc.stored : Pc → Bool
  | .saved | .caught _ => true
  | pc => pc.over

namespace Attempt

variable {cfg : Config} {now : Time} {d : Submission} {a a' : Attempt} {act : Act}
  {w : Option Write}

/-- An attempt holds what it held before, or what it just loaded, as far as the result
fields go. -/
theorem Step.memory_result (h : Step cfg now d a act a' w) {r' : Submission}
    (hr : a'.pc.memory = some r') :
    r' = d ∨ ∃ r, a.pc.memory = some r ∧ r'.result = r.result := by
  cases h with
  | loaded | unsupported => cases hr; exact .inl rfl
  | foundRunning hpc | foundOther hpc | judged hpc =>
      cases hr
      exact .inr ⟨_, by rw [hpc]; rfl, rfl⟩
  | @rerun s t ts hpc =>
      cases hr
      exact .inr ⟨s, by rw [hpc]; rfl, rfl⟩
  | _ => cases hr

/-- Every step but the final save keeps the result fields of the record, and completes
nothing. -/
theorem Step.result_or (h : Step cfg now d a act a' w) :
    ((d.after w).result = d.result ∧
      ((d.after w).status = .completed → d.status = .completed)) ∨
    (act = .save none ∧ ∃ r f, a.pc = .saving r f ∧ a' = a.goto .saved ∧
      d.after w = Submission.save r (f.enter r) d) := by
  cases h with
  | @saved r f hpc => exact .inr ⟨rfl, r, f, hpc, rfl, rfl⟩
  | @rerun r t ts hpc =>
      refine .inl ⟨?_, fun hc ↦ ?_⟩
      · simp [Submission.result, Submission.save, Submission.rerun]
      · by_cases hr : Status.running = r.status
        · simpa [Submission.save, Submission.rerun, Submission.changed, hr] using hc
        · simp [Submission.save, Submission.rerun, Submission.changed, hr] at hc
  | claimWon | failedNonRetryable | failedExhausted | reverted => exact .inl ⟨rfl, by rintro ⟨⟩⟩
  | _ => exact .inl ⟨rfl, id⟩

/-- An attempt that stores no result any more goes on so, with the judgement it has. -/
theorem Step.stored (h : Step cfg now d a act a' w) (ha : a.pc.stored = true) :
    a'.pc.stored = true ∧ a'.judgement = a.judgement := by
  cases h with
  | malformed hpc | readClock hpc | claimWon hpc | claimLost hpc | skipped hpc | unsupported hpc
  | loaded hpc | foundRunning hpc | foundOther hpc | rerun hpc | judged hpc | saved hpc =>
      rw [hpc] at ha
      cases ha
  | _ => exact ⟨rfl, rfl⟩

end Attempt

/-- A save over a record whose result fields are the loaded ones stores the judgement
as a whole. -/
theorem Submission.result_save {r d : Submission} (h : r.result = d.result) (j : Judgement)
    (t : Time) : (Submission.save r (r.complete t j) d).result = j.result := by
  simp only [Submission.result, ResultFields.mk.injEq] at h
  obtain ⟨hv, hp, ht, hm⟩ := h
  simp [Submission.result, Judgement.result, Submission.save, Submission.complete, hv, hp, ht, hm]

namespace State

variable {cfg : Config} {s t : State} {d : Submission} {l : Label} {i : AttemptId}
  {a a' : Attempt} {act : Act} {w : Option Write}

/-- Where the result fields of the record come from. -/
structure Traced (s : State) : Prop where
  /-- The owner holds the result fields of the record. -/
  memory : ∀ {o a r d}, s.owner = some o → s.attempts o = some a → a.pc.memory = some r →
    s.submission = some d → r.result = d.result
  /-- A completed record shows what the owner computed. -/
  completed : ∀ {d}, s.submission = some d → d.status = .completed →
    ∃ o a j, s.owner = some o ∧ s.attempts o = some a ∧ a.pc.stored = true ∧
      a.judgement = some j ∧ d.result = j.result

namespace Traced

theorem init : State.init.Traced where
  memory := by rintro _ _ _ _ ⟨⟩
  completed := by rintro _ ⟨⟩

/-- The final save of the owner. -/
theorem save_step (h : s.Traced) (hf : s.Formed cfg) (ho : s.owner = some i)
    (ha : s.attempts i = some a) (hd : s.submission = some d) {r : Submission} {f : Finding}
    (hpc : a.pc = .saving r f) {w : Write} (hw : w.kind ≠ .claim)
    (hafter : w.after = Submission.save r (f.enter r) d) :
    State.Traced ((s.setAttempt i (a.goto .saved)).write (some i) (some w)) := by
  have howner : ((s.setAttempt i (a.goto .saved)).write (some i) (some w)).owner = some i :=
    (owner_write_of_ne _ _ _ hw).trans ho
  have hat : ((s.setAttempt i (a.goto .saved)).write (some i) (some w)).attempts i =
      some (a.goto .saved) := by simp
  constructor
  case memory =>
    intro o b r' e ho' hb hr _
    obtain rfl : i = o := Option.some.inj (howner.symm.trans ho')
    obtain rfl : a.goto .saved = b := Option.some.inj (hat.symm.trans hb)
    cases hr
  case completed =>
    intro e he _
    cases f with
    | unsupportedLanguage => exact absurd hpc (hf.attempts ha).ne_unsupported
    | judged j t =>
        obtain rfl : w.after = e := Option.some.inj he
        have hmem : r.result = d.result := h.memory ho ha (by rw [hpc]; rfl) hd
        refine ⟨i, _, j, howner, hat, rfl, ((hf.attempts ha).judgement hpc).1, ?_⟩
        rw [hafter]
        exact Submission.result_save hmem j t

/-- **Step lemma** for an attempt. -/
theorem attempt_step (h : s.Traced) (hf : s.Formed cfg) (hok : OwnerSaves s (.attempt i act))
    (ha : s.attempts i = some a) (hd : s.submission = some d)
    (hs : Attempt.Step cfg s.now d a act a' w) :
    State.Traced ((s.setAttempt i a').write (some i) w) := by
  have hsub : ((s.setAttempt i a').write (some i) w).submission = some (d.after w) :=
    State.attempt_submission hd
  rcases hs.claim_or with ⟨_, _, -, -, -, rfl, rfl⟩ | ⟨-, hw, -⟩
  · constructor
    case memory =>
      intro o b r e ho hb hr _
      rw [owner_write_claim _ _ _ rfl] at ho
      rcases State.attempts_after.mp hb with ⟨-, rfl⟩ | ⟨hne, -⟩
      · cases hr
      · exact absurd (Option.some.inj ho).symm hne
    case completed =>
      intro _ he hc
      cases hsub.symm.trans he
      cases hc
  have howner : ((s.setAttempt i a').write (some i) w).owner = s.owner :=
    owner_write_of_forall_ne _ _ hw
  rcases hs.result_or with ⟨hresult, hcompleted⟩ | ⟨rfl, r, f, hpc, rfl, hafter⟩
  · constructor
    case memory =>
      intro o b r' e ho hb hr he
      rw [howner] at ho
      obtain rfl : d.after w = e := Option.some.inj (hsub.symm.trans he)
      rw [hresult]
      rcases State.attempts_after.mp hb with ⟨rfl, rfl⟩ | ⟨-, hb⟩
      · rcases hs.memory_result hr with rfl | ⟨r, hr, heq⟩
        · rfl
        · exact heq.trans (h.memory ho ha hr hd)
      · exact h.memory ho hb hr hd
    case completed =>
      intro e he hc
      obtain rfl : d.after w = e := Option.some.inj (hsub.symm.trans he)
      obtain ⟨o, b, j, ho, hb, hstored, hj, hres⟩ := h.completed hd (hcompleted hc)
      by_cases hoi : o = i
      · subst hoi
        obtain rfl : a = b := Option.some.inj (ha.symm.trans hb)
        obtain ⟨hstored', hj'⟩ := hs.stored hstored
        exact ⟨o, a', j, howner.trans ho, State.attempts_after.mpr (.inl ⟨rfl, rfl⟩), hstored',
          hj'.trans hj, hresult.trans hres⟩
      · exact ⟨o, b, j, howner.trans ho, State.attempts_after.mpr (.inr ⟨hoi, hb⟩), hstored, hj,
          hresult.trans hres⟩
  · cases w with
    | none => cases hs
    | some w => exact h.save_step hf hok ha hd hpc (hw w rfl) hafter

/-- **Step lemma** for `createSubmission`. -/
theorem api_step {pc : ApiPc} {aact : ApiAct} {placed : Bool} (h : s.Traced)
    (hf : s.Formed cfg) (ho : s.Owned)
    (hstep : ApiPc.Step s.now s.submission s.api aact pc w placed) :
    State.Traced
      ({ s with api := pc, job := if placed then .waiting 0 else s.job }.write none w) := by
  have hapi := hf.api
  have habsent := hf.absent
  obtain ⟨now, submission, api, job, attempts, log⟩ := s
  -- Before the job is placed there is no attempt, and so no owner.
  have hno : ∀ {o}, job = .absent → ownerOf log ≠ some o := fun {o} hj hown ↦ by
    obtain ⟨_, _, _, ha, -⟩ := ho.marked hown
    cases (habsent hj o).symm.trans ha
  cases hstep with
  | refused | checked | createThrew | queueThrew | added | addedThenThrew | rejected
  | refuseThrew => exact ⟨h.memory, h.completed⟩
  | created =>
      exact ⟨fun hown ↦ absurd hown (hno hapi.2), fun he hc ↦ by cases he; cases hc⟩
  | @queued c t d hd =>
      obtain ⟨hcreated, hj, req, -, rfl⟩ := hapi
      constructor
      case memory => exact fun hown ↦ absurd hown (hno hj)
      case completed =>
        intro _ he hc
        obtain rfl : d = .create req := Option.some.inj (hd.symm.trans hcreated)
        cases he
        cases hc
  | @refusedStored q t d hd =>
      obtain ⟨-, req, t', -, rfl⟩ := hapi
      constructor
      case memory =>
        intro o b r e hown hb hr he
        cases he
        exact (h.memory hown hb hr hd).trans (by simp [Submission.result, Submission.save,
          Submission.refuse])
      case completed =>
        intro _ he hc
        cases he
        cases hc

/-- A new call is not the owner. -/
theorem call (h : s.Traced) (ho : s.Owned) {call : Call} (job : Job) (hi : s.attempts i = none) :
    State.Traced ({ s with job }.setAttempt i (.start call)) := by
  have hne : ∀ {o}, s.owner = some o → o ≠ i := by
    rintro _ hown rfl
    obtain ⟨_, _, _, ha, -⟩ := ho.marked hown
    cases hi.symm.trans ha
  constructor
  case memory =>
    intro _ _ _ _ hown hb hr he
    rcases (State.setAttempt_attempts_eq_some ..).mp hb with ⟨hoi, -⟩ | ⟨-, hb⟩
    · exact absurd hoi (hne hown)
    · exact h.memory hown hb hr he
  case completed =>
    intro _ he hc
    obtain ⟨o, a, j, hown, ha, hrest⟩ := h.completed he hc
    exact ⟨o, a, j, hown, (State.setAttempt_attempts_eq_some ..).mpr (.inr ⟨hne hown, ha⟩), hrest⟩

/-- **Step lemma.** -/
theorem step (h : s.Traced) (hf : s.Formed cfg) (ho : s.Owned) (hok : OwnerSaves s l)
    (hstep : s.step cfg l = some t) : t.Traced := by
  cases State.step_inv hstep with
  | wait | settle | stalled => exact ⟨h.memory, h.completed⟩
  | api hs => exact h.api_step hf ho hs
  | deliver hj hi => exact h.call ho _ hi
  | duplicate hne hi => exact h.call ho s.job hi
  | attempt ha hs =>
      obtain ⟨d, hd, hs⟩ := hf.attempt_step ha hs
      exact h.attempt_step hf hok ha hd hs

end Traced

end State

/-- **A stored result comes from exactly one attempt, the recorded owner**, in every
run in which only the owner saves a result. -/
theorem result_of_owner {cfg : Config} {s : State} {d : Submission}
    (h : (system cfg).Reachable OwnerSaves s) (hd : s.submission = some d)
    (hcompleted : d.status = .completed) : s.ResultOfOwner d := by
  have ho := owned_of_reachable h
  have ht : s.Traced := h.invariant_with (Q := fun s ↦ s.Formed cfg ∧ s.Owned)
    (fun _ hs ↦ ⟨formed_of_reachable hs, owned_of_reachable hs⟩) .init
    fun _ _ _ hI hs hok hstep ↦ hs.step hI.1 hI.2 hok hstep
  obtain ⟨o, a, j, hown, ha, -, hj, hres⟩ := ht.completed hd hcompleted
  obtain ⟨a', c, d', ha', hc, hd', hworker, hstart⟩ := ho.marked hown
  obtain rfl : a = a' := Option.some.inj (ha.symm.trans ha')
  obtain rfl : d = d' := Option.some.inj (hd.symm.trans hd')
  exact ⟨o, a, c, j, hown, ha, hc, hj, hres, hworker, hstart⟩

/-- A takeover after which only the new owner saves. -/
def Label.ownerSaves : List Label :=
  submit ++ [.deliver 0 "a"] ++ claims 0 ++ loads 0 ++
    [.wait 30001, .duplicate 1 ⟨"b", true, none⟩] ++ claims 1 ++ loads 1 ++ tests 1 .accepted ++
    tests 0 .timeLimitExceeded ++ [.attempt 1 (.save none)]

/-- After a takeover the result is the one of the attempt that took over. -/
theorem result_of_owner_takeover : ∃ s d,
    (system ⟨30000, 3⟩).Run OwnerSaves State.init Label.ownerSaves s ∧
      s.submission = some d ∧ d.status = .completed ∧ s.ResultOfOwner d := by
  obtain ⟨s, hs, hP⟩ := (system ⟨30000, 3⟩).exists_run_of_exec OwnerSaves State.init
    Label.ownerSaves
    (fun s ↦ s.submission.any fun d ↦ d.status = .completed) (by decide)
  obtain ⟨d, hd, hdc⟩ := (Option.any_eq_true _ _).mp hP
  exact ⟨s, d, hs, hd, of_decide_eq_true hdc,
    result_of_owner ⟨_, hs⟩ hd (of_decide_eq_true hdc)⟩

/-- A takeover after which the attempt that was taken over saves first. -/
def Label.lateSave : List Label :=
  submit ++ [.deliver 0 "a"] ++ claims 0 ++ loads 0 ++
    [.wait 30001, .duplicate 1 ⟨"b", true, none⟩] ++ claims 1 ++ loads 1 ++
    tests 0 .timeLimitExceeded ++ [.attempt 0 (.save none)]

/-- A completed record shows one attempt's result under another attempt's name, with no
call failing: the owner has not even finished its test loop. -/
theorem result_not_of_owner : ∃ s d,
    (system ⟨30000, 3⟩).Run Reliable State.init Label.lateSave s ∧
      s.submission = some d ∧ d.status = .completed ∧ d.verdict = .timeLimitExceeded ∧
      d.execution.workerId = some "b" ∧ ¬ s.ResultOfOwner d := by
  obtain ⟨s, hs, hP⟩ := (system ⟨30000, 3⟩).exists_run_of_exec Reliable State.init
    Label.lateSave
    (fun s ↦ (s.owner = some 1 ∧ (s.attempts 1).map Attempt.judgement = some none) &&
      s.submission.any fun d ↦ d.status = .completed ∧ d.verdict = .timeLimitExceeded ∧
        d.execution.workerId = some "b") (by decide)
  obtain ⟨howner, hrecord⟩ := Bool.and_eq_true_iff.mp hP
  obtain ⟨ho, hj⟩ := of_decide_eq_true howner
  obtain ⟨d, hd, hdc⟩ := (Option.any_eq_true _ _).mp hrecord
  obtain ⟨hstatus, hverdict, hworker⟩ := of_decide_eq_true hdc
  refine ⟨s, d, hs, hd, hstatus, hverdict, hworker, ?_⟩
  rintro ⟨o, a, c, j, ho', ha, -, hja, -⟩
  obtain rfl : 1 = o := Option.some.inj (ho.symm.trans ho')
  rw [ha, Option.map_some, hja] at hj
  cases hj

end CodeArena.Submissions
