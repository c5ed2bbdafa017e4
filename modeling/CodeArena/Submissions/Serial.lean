import CodeArena.Submissions.Phase

/-!
# Timely attempts serialize

Nothing fences the writes of an attempt, so attempts can only be kept apart by time: an
attempt writes for at most `staleTimeoutMs` after the start it stored, and only then
may the next one claim a RUNNING record.  This file shows that this is enough.

## The sequential run

`Alone` is what one attempt does by itself: it wins its claim over a stored document and
goes on over what it wrote.  `Serial` is a write history put together from such solo
executions, one after another, behind the two writes of `createSubmission`.  Both are
made of `Attempt.step` itself, so a serial history is one that the code produces with
one attempt at a time.

## How the proof goes

`Serialized` says that the history up to the owner's claim is serial, that the owner has
been alone since, and that every other attempt that has not ended is overdue.  Where a
claim wins, the owner has ended or is overdue too: its record is RUNNING until it
ends (`Pc.Tracks`), so the claim matched the start in the record, which is the owner's.

An attempt that is overdue need not have crashed, but it has made its last write.  It may
still read, and then it reads what the attempt that took over left.
-/

namespace CodeArena.Submissions

open CodeArena.Lib

/-! ## The assumption -/

/-- Every write of an attempt takes effect at most `staleTimeoutMs` after the start that
its claim stored. -/
def Timely (cfg : Config) (s : State) : Label → Prop
  | .attempt i act => ∀ a ∈ s.attempts i, ∀ r ∈ a.step cfg s.now s.submission act,
      r.2.isSome = true → ∀ c ∈ r.1.claim, s.now ≤ c.startedAt + cfg.staleTimeoutMs
  | _ => True

/-- `Timely`, decided. -/
def timely (cfg : Config) (s : State) : Label → Bool
  | .attempt i act => ∀ a ∈ s.attempts i, ∀ r ∈ a.step cfg s.now s.submission act,
      r.2.isSome = true → ∀ c ∈ r.1.claim, s.now ≤ c.startedAt + cfg.staleTimeoutMs
  | _ => true

theorem timely_iff {cfg : Config} {s : State} {l : Label} :
    timely cfg s l = true ↔ Timely cfg s l := by
  unfold timely Timely
  split <;> simp

instance (cfg : Config) (s : State) (l : Label) : Decidable (Timely cfg s l) :=
  decidable_of_iff _ timely_iff

/-- The attempt is between its winning claim and its last write: it is executing, and
its time to write is not up. -/
def State.Writing (cfg : Config) (s : State) (i : AttemptId) : Prop :=
  ∃ a c, s.attempts i = some a ∧ a.pc.executing = true ∧ a.claim = some c ∧
    s.now ≤ c.startedAt + cfg.staleTimeoutMs

/-! ## Sequential histories -/

/-- The entry that a write of an attempt leaves in the history, if it issued one. -/
def entryOf (i : AttemptId) (now : Time) (w : Option Write) : List Entry :=
  (w.map fun w ↦ ⟨some i, w.kind, now, w.after⟩).toList

/-- `Alone cfg i τ d log τ' d' a`: not before `τ`, an attempt wins its claim over the
stored document `d` as attempt `i` and goes on alone; by `τ'` it has written `log`,
oldest first, it stands as `a`, and `d'` is stored. -/
inductive Alone (cfg : Config) (i : AttemptId) (τ : Time) (d : Submission) :
    List Entry → Time → Submission → Attempt → Prop
  | /-- The claim. -/
    claim {now : Time} {a a' : Attempt} {w : Write} : τ ≤ now → a.Formed cfg now →
      a.step cfg now (some d) (.claim none) = some (a', some w) → w.kind = .claim →
      Alone cfg i τ d (entryOf i now (some w)) now w.after a'
  | /-- A further step. -/
    step {log : List Entry} {τ' now : Time} {e : Submission} {a a' : Attempt} {act : Act}
      {w : Option Write} : Alone cfg i τ d log τ' e a → τ' ≤ now → act.mongoFails = false →
      a.step cfg now (some e) act = some (a', w) →
      Alone cfg i τ d (log ++ entryOf i now w) now (e.after w) a'

/-- `Serial cfg calls log τ d`: `log` is the history, oldest first, of a submission that
was created and then worked on by one attempt after another, each making its call of
`calls` alone; at `τ` the document `d` is stored. -/
inductive Serial (cfg : Config) (calls : AttemptId → Option Call) :
    List Entry → Time → Submission → Prop
  | /-- The writes of `createSubmission`. -/
    created {req : Request} {t τ τ' : Time} : schemaAccepts req = true → τ ≤ τ' →
      Serial cfg calls [⟨none, .create, τ, .create req⟩,
        ⟨none, .queue, τ', (Submission.create req).queue t⟩] τ'
        ((Submission.create req).queue t)
  | /-- The writes of the next attempt. -/
    attempt {log own : List Entry} {τ τ' : Time} {d e : Submission} {i : AttemptId}
      {a : Attempt} : Serial cfg calls log τ d → (∀ x ∈ log, x.writer ≠ some i) →
      calls i = some a.call → Alone cfg i τ d own τ' e a →
      Serial cfg calls (log ++ own) τ' e

/-- A history stays serial while further calls are made. -/
theorem Serial.mono {cfg : Config} {calls calls' : AttemptId → Option Call} {log : List Entry}
    {τ : Time} {d : Submission} (h : Serial cfg calls log τ d)
    (hcalls : ∀ i call, calls i = some call → calls' i = some call) :
    Serial cfg calls' log τ d := by
  induction h with
  | created hs hle => exact .created hs hle
  | attempt _ hfresh hcall halone ih => exact .attempt ih hfresh (hcalls _ _ hcall) halone

namespace Alone

variable {cfg : Config} {i : AttemptId} {τ τ' : Time} {d e : Submission} {log : List Entry}
  {a : Attempt}

/-- The points of an attempt from its won claim on. -/
def claimedPc (pc : Pc) : Bool := pc.executing || pc.over

/-- An attempt that is alone won its claim. -/
theorem claimed_or (h : Alone cfg i τ d log τ' e a) : claimedPc a.pc = true := by
  induction h with
  | claim _ _ hs hw =>
      cases Attempt.step_inv _ _ hs with
      | claimWon => rfl
  | @step log τ' now e a a' act w _ _ _ hs ih =>
      have hs := Attempt.step_inv _ _ hs
      cases hs with
      | malformed hpc | readClock hpc | claimWon hpc | claimLost hpc | skipped hpc =>
          rw [hpc] at ih
          cases ih
      | _ => rfl

/-- An attempt that is alone and did not load its document yet finds it as its own
claim left it. -/
theorem of_claimed (h : Alone cfg i τ d log τ' e a) (hpc : a.pc = .claimed) :
    ∃ now, log = [⟨some i, .claim, now, e⟩] := by
  cases h with
  | @claim _ a _ w _ _ _ hw => exact ⟨τ', by simp [entryOf, hw]⟩
  | @step log τ' now e a a' act w halone _ _ hs =>
      have hbefore := halone.claimed_or
      cases Attempt.step_inv _ _ hs with
      | claimWon hc => rw [hc] at hbefore; cases hbefore
      | _ => cases hpc

end Alone

/-! ## The system serializes -/

namespace State

variable {cfg : Config} {s t : State} {d : Submission} {l : Label} {i : AttemptId}
  {a a' : Attempt} {act : Act} {w : Option Write}

/-- The calls of a state. -/
def calls (s : State) (i : AttemptId) : Option Call := (s.attempts i).map Attempt.call

/-- The write history, oldest first, after a write. -/
theorem reverse_log_write :
    (s.write (some i) w).log.reverse = s.log.reverse ++ entryOf i s.now w := by
  cases w <;> simp [entryOf, write]

/-- The step of an attempt keeps the calls. -/
theorem calls_attempt (ha : s.attempts i = some a) (hcall : a'.call = a.call) :
    ((s.setAttempt i a').write (some i) w).calls = s.calls := by
  funext j
  by_cases hj : j = i
  · subst hj
    simp [calls, ha, hcall]
  · simp [calls, setAttempt_attempts_of_ne _ _ _ hj]

/-- How the write history of an accepted submission came about: the creation alone, or a
serial history and the owner alone behind it. -/
inductive History (cfg : Config) (s : State) : Prop
  | created {τ : Time} {d : Submission} : s.owner = none → τ ≤ s.now →
      s.submission = some d → Serial cfg s.calls s.log.reverse τ d → History cfg s
  | owned {o : AttemptId} {a : Attempt} {log own : List Entry} {τ τ' : Time}
      {d e : Submission} : s.owner = some o → s.attempts o = some a →
      Serial cfg s.calls log τ d → (∀ x ∈ log, x.writer ≠ some o) →
      Alone cfg o τ d own τ' e a → τ' ≤ s.now → s.submission = some e →
      s.log.reverse = log ++ own → History cfg s

/-- The history is serial. -/
theorem History.serial (h : s.History cfg) :
    ∃ τ d, τ ≤ s.now ∧ s.submission = some d ∧ Serial cfg s.calls s.log.reverse τ d := by
  cases h with
  | @created τ d _ hτ hd hserial => exact ⟨τ, d, hτ, hd, hserial⟩
  | @owned o a log own τ τ' d e _ ha hserial hfresh halone hτ he hlog =>
      refine ⟨τ', e, hτ, he, ?_⟩
      rw [hlog]
      exact .attempt hserial hfresh (by simp [calls, ha]) halone

/-- What holds of an accepted submission in every timely run. -/
structure Serialized (cfg : Config) (s : State) : Prop where
  history : s.History cfg
  /-- The stored status goes along with the owner. -/
  tracks : ∀ {o a d}, s.owner = some o → s.attempts o = some a → s.submission = some d →
    a.pc.Tracks a.call.hasRetriesRemaining d.status
  /-- Whoever else is executing is overdue. -/
  overdue : ∀ {j b c}, s.attempts j = some b → s.owner ≠ some j → b.pc.executing = true →
    b.claim = some c → c.startedAt + cfg.staleTimeoutMs < s.now
  /-- Only attempts that claimed have written. -/
  writers : ∀ {j}, ∀ x ∈ s.log, x.writer = some j → ∃ b, s.attempts j = some b ∧ b.claim ≠ none

namespace Serialized

/-- Where a claim wins, every attempt that has not ended is overdue. -/
theorem overdue_of_filter (h : s.Serialized cfg) (hf : s.Formed cfg) (ho : s.Owned)
    (ha : s.attempts i = some a) (hd : s.submission = some d) {staleCutoff startedAt : Time}
    (hpc : a.pc = .claiming staleCutoff startedAt) (hfilter : d.ClaimFilter staleCutoff)
    {j : AttemptId} {b : Attempt} {c : Claim} (hb : s.attempts j = some b)
    (hexec : b.pc.executing = true) (hc : b.claim = some c) :
    c.startedAt + cfg.staleTimeoutMs < s.now := by
  by_cases hown : s.owner = some j
  · rcases hfilter with hq | ⟨-, hstale⟩
    · -- While the owner executes the status is not QUEUED.
      have htracks := h.tracks hown hb hd
      rw [hq] at htracks
      generalize b.pc = pc at htracks hexec
      cases pc <;> simp [Pc.Tracks, Pc.executing] at htracks hexec
    · obtain ⟨b', c', e, hb', hc', he, -, hstart⟩ := ho.marked hown
      obtain rfl : b = b' := Option.some.inj (hb.symm.trans hb')
      obtain rfl : c = c' := Option.some.inj (hc.symm.trans hc')
      obtain rfl : d = e := Option.some.inj (hd.symm.trans he)
      obtain ⟨hcut, hnow⟩ := (hf.attempts ha).claiming hpc
      have hold : c.startedAt < startedAt - cfg.staleTimeoutMs := by
        simpa [hstart, hcut] using hstale
      exact Nat.lt_of_lt_of_le (Nat.add_lt_of_lt_sub hold) hnow
  · exact h.overdue hb hown hexec hc

/-- A won claim. -/
theorem claim_step (h : s.Serialized cfg) (hf : s.Formed cfg) (ho : s.Owned)
    (ha : s.attempts i = some a) (hd : s.submission = some d) {x : Write}
    (hs : a.step cfg s.now (some d) (.claim none) = some (a', some x)) (hx : x.kind = .claim) :
    State.Serialized cfg ((s.setAttempt i a').write (some i) (some x)) := by
  obtain ⟨staleCutoff, startedAt, hpc, hfilter, hcall, hpc', hclaim, hrunning⟩ :
      ∃ staleCutoff startedAt, a.pc = .claiming staleCutoff startedAt ∧
        d.ClaimFilter staleCutoff ∧ a'.call = a.call ∧ a'.pc = .claimed ∧ a'.claim ≠ none ∧
        x.after.status = .running := by
    cases Attempt.step_inv _ _ hs with
    | claimWon hpc hfilter => exact ⟨_, _, hpc, hfilter, rfl, rfl, nofun, rfl⟩
  have hnone : a.claim = none := (hf.attempts ha).claim_of_before (.inl (by rw [hpc]; rfl))
  have hfresh : ∀ y ∈ s.log.reverse, y.writer ≠ some i := by
    intro y hy hw
    obtain ⟨b, hb, hclaimed⟩ := h.writers y (List.mem_reverse.mp hy) hw
    obtain rfl : a = b := Option.some.inj (ha.symm.trans hb)
    exact hclaimed hnone
  have howner : ((s.setAttempt i a').write (some i) (some x)).owner = some i :=
    owner_write_claim _ _ _ hx
  have hself : ((s.setAttempt i a').write (some i) (some x)).attempts i = some a' :=
    State.attempts_after.mpr (.inl ⟨rfl, rfl⟩)
  obtain ⟨τ, e, hτ, he, hserial⟩ := h.history.serial
  obtain rfl : d = e := Option.some.inj (hd.symm.trans he)
  constructor
  case history =>
    refine .owned howner hself ?_ hfresh (.claim hτ (hf.attempts ha) hs hx) (by simp) rfl
      reverse_log_write
    rw [calls_attempt ha hcall]
    exact hserial
  case tracks =>
    intro o b e hown hb he
    obtain rfl : i = o := Option.some.inj (howner.symm.trans hown)
    obtain rfl : a' = b := Option.some.inj (hself.symm.trans hb)
    cases he
    rw [hpc', hrunning]
    rfl
  case overdue =>
    intro j b c hb hown hexec hc
    rcases State.attempts_after.mp hb with ⟨rfl, -⟩ | ⟨-, hb⟩
    · exact absurd howner hown
    · simpa using h.overdue_of_filter hf ho ha hd hpc hfilter hb hexec hc
  case writers =>
    intro j y hy hw
    rcases List.mem_cons.mp hy with rfl | hy
    · obtain rfl : i = j := Option.some.inj hw
      exact ⟨a', hself, hclaim⟩
    · obtain ⟨b, hb, hclaimed⟩ := h.writers y hy hw
      by_cases hji : j = i
      · exact ⟨a', hji ▸ hself, hclaim⟩
      · exact ⟨b, State.attempts_after.mpr (.inr ⟨hji, hb⟩), hclaimed⟩

/-- Nobody but the owner writes, a won claim apart. -/
theorem write_eq_none (h : s.Serialized cfg) (hf : s.Formed cfg)
    (htimely : Timely cfg s (.attempt i act)) (ha : s.attempts i = some a)
    (hd : s.submission = some d) (hs : a.step cfg s.now (some d) act = some (a', w))
    (hclaim : a'.claim = a.claim) (hw : ∀ x, w = some x → x.kind ≠ .claim)
    (hown : s.owner ≠ some i) : w = none := by
  cases w with
  | none => rfl
  | some x =>
      have hexec := (Attempt.step_inv _ _ hs).executing_of_write (hw x rfl)
      obtain ⟨c, hc⟩ := (hf.attempts ha).claim_of_executing hexec
      have hlate := h.overdue ha hown hexec hc
      have hle : s.now ≤ c.startedAt + cfg.staleTimeoutMs :=
        htimely a ha (a', some x) (by rw [hd]; exact hs) rfl c (hclaim.trans hc)
      exact absurd hle (Nat.not_le_of_lt hlate)

/-- **Step lemma** for an attempt that wins no claim. -/
theorem silent_step (h : s.Serialized cfg) (hf : s.Formed cfg) (ho : s.Owned)
    (hok : Reliable s (.attempt i act)) (htimely : Timely cfg s (.attempt i act))
    (ha : s.attempts i = some a) (hd : s.submission = some d)
    (hs : a.step cfg s.now (some d) act = some (a', w))
    (hclaim : a'.claim = a.claim) (hw : ∀ x, w = some x → x.kind ≠ .claim) :
    State.Serialized cfg ((s.setAttempt i a').write (some i) w) := by
  have hinv := Attempt.step_inv _ _ hs
  have hsub : ((s.setAttempt i a').write (some i) w).submission = some (d.after w) :=
    State.attempt_submission hd
  have howner : ((s.setAttempt i a').write (some i) w).owner = s.owner :=
    owner_write_of_forall_ne _ _ hw
  have hcalls := calls_attempt (w := w) ha hinv.call_eq
  have hlog : ((s.setAttempt i a').write (some i) w).log.reverse =
      s.log.reverse ++ entryOf i s.now w := reverse_log_write
  have hnow : ((s.setAttempt i a').write (some i) w).now = s.now := by simp
  have hback : a'.pc.executing = true → a.pc.executing = true :=
    hinv.executing_back hclaim (hf.attempts ha)
  constructor
  case history =>
    cases h.history with
    | @created τ e hown hτ he hserial =>
        have hnone := h.write_eq_none hf htimely ha hd hs hclaim hw (by rw [hown]; nofun)
        subst hnone
        exact .created hown hτ he (by rw [hcalls]; exact hserial)
    | @owned o b log own τ τ' e e' hown hb hserial hfresh halone hτ he hl =>
        obtain rfl : d = e' := Option.some.inj (hd.symm.trans he)
        by_cases hoi : o = i
        · subst hoi
          obtain rfl : a = b := Option.some.inj (ha.symm.trans hb)
          refine .owned (howner.trans hown) (State.attempts_after.mpr (.inl ⟨rfl, rfl⟩))
            (by rw [hcalls]; exact hserial) hfresh (.step halone hτ hok hs)
            (Nat.le_of_eq hnow.symm) hsub ?_
          rw [hlog, hl, List.append_assoc]
        · have hnone := h.write_eq_none hf htimely ha hd hs hclaim hw
            (by rw [hown]; exact fun hc ↦ hoi (Option.some.inj hc))
          subst hnone
          exact .owned hown (State.attempts_after.mpr (.inr ⟨hoi, hb⟩))
            (by rw [hcalls]; exact hserial) hfresh halone hτ he hl
  case tracks =>
    intro o b e hown hb he
    rw [howner] at hown
    obtain rfl : d.after w = e := Option.some.inj (hsub.symm.trans he)
    rcases State.attempts_after.mp hb with ⟨rfl, rfl⟩ | ⟨hne, hb'⟩
    · -- The owner won its claim before.
      obtain ⟨a₀, c, _, ha₀, hc, -⟩ := ho.marked hown
      obtain rfl : a = a₀ := Option.some.inj (ha.symm.trans ha₀)
      have hnever : a.pc.before ≠ true := fun hbefore ↦ by
        cases ((hf.attempts ha).claim_of_before (.inl hbefore)).symm.trans hc
      rw [hinv.call_eq]
      exact hinv.tracks (fun hpc ↦ absurd (by rw [hpc]; rfl) hnever) hok
        (fun _ _ hpc ↦ absurd (by rw [hpc]; rfl) hnever) (h.tracks hown ha hd)
    · have hnone := h.write_eq_none hf htimely ha hd hs hclaim hw
        (by rw [hown]; exact fun hc ↦ hne (Option.some.inj hc))
      subst hnone
      exact h.tracks hown hb' hd
  case overdue =>
    intro j b c hb hown hexec hc
    rw [howner] at hown
    rw [hnow]
    rcases State.attempts_after.mp hb with ⟨rfl, rfl⟩ | ⟨-, hb⟩
    · exact h.overdue ha hown (hback hexec) (hclaim.symm.trans hc)
    · exact h.overdue hb hown hexec hc
  case writers =>
    intro j x hx hxw
    have hwrote : ∃ b, s.attempts j = some b ∧ b.claim ≠ none := by
      cases w with
      | none => exact h.writers x hx hxw
      | some y =>
          rcases List.mem_cons.mp hx with rfl | hx
          · obtain rfl : i = j := Option.some.inj hxw
            obtain ⟨c, hc⟩ := (hf.attempts ha).claim_of_executing
              (hinv.executing_of_write (hw y rfl))
            exact ⟨a, ha, by rw [hc]; nofun⟩
          · exact h.writers x hx hxw
    obtain ⟨b, hb, hclaimed⟩ := hwrote
    by_cases hji : j = i
    · subst hji
      obtain rfl : a = b := Option.some.inj (ha.symm.trans hb)
      exact ⟨a', State.attempts_after.mpr (.inl ⟨rfl, rfl⟩), by rw [hclaim]; exact hclaimed⟩
    · exact ⟨b, State.attempts_after.mpr (.inr ⟨hji, hb⟩), hclaimed⟩

/-- A new call changes no history. -/
theorem call (h : s.Serialized cfg) (ho : s.Owned) {call : Call} (job : Job)
    (hi : s.attempts i = none) :
    State.Serialized cfg ({ s with job }.setAttempt i (.start call)) := by
  have hkeep : ∀ {j b}, s.attempts j = some b →
      ({ s with job }.setAttempt i (.start call)).attempts j = some b := fun {j b} hb ↦ by
    have hne : j ≠ i := by rintro rfl; cases hi.symm.trans hb
    exact (State.setAttempt_attempts_eq_some ..).mpr (.inr ⟨hne, hb⟩)
  have hcalls : ∀ j c, s.calls j = some c →
      ({ s with job }.setAttempt i (.start call)).calls j = some c := fun j c hc ↦ by
    obtain ⟨b, hb, hbc⟩ := Option.map_eq_some_iff.mp hc
    exact Option.map_eq_some_iff.mpr ⟨b, hkeep hb, hbc⟩
  constructor
  case history =>
    cases h.history with
    | created hown hτ hd hserial => exact .created hown hτ hd (hserial.mono hcalls)
    | owned hown hb hserial hfresh halone hτ he hl =>
        exact .owned hown (hkeep hb) (hserial.mono hcalls) hfresh halone hτ he hl
  case tracks =>
    intro o b d hown hb hd
    obtain ⟨b', _, _, hb', -⟩ := ho.marked hown
    obtain rfl : b' = b := Option.some.inj ((hkeep hb').symm.trans hb)
    exact h.tracks hown hb' hd
  case overdue =>
    intro _ _ _ hb hown hexec hc
    rcases (State.setAttempt_attempts_eq_some ..).mp hb with ⟨-, rfl⟩ | ⟨-, hb⟩
    · cases hexec
    · exact h.overdue hb hown hexec hc
  case writers =>
    intro j x hx hw
    obtain ⟨b, hb, hclaimed⟩ := h.writers x hx hw
    exact ⟨b, hkeep hb, hclaimed⟩

/-- **Step lemma**, once `createSubmission` returned. -/
theorem step (h : s.Serialized cfg) (hf : s.Formed cfg) (ho : s.Owned) (hapi : s.api = .returned)
    (hok : Reliable s l) (htimely : Timely cfg s l) (hstep : s.step cfg l = some t) :
    t.Serialized cfg := by
  cases State.step_inv hstep with
  | @wait n =>
      have hle : s.now ≤ s.now + n := Nat.le_add_right _ _
      refine ⟨?_, h.tracks, fun hb hown hexec hc ↦
        Nat.lt_of_lt_of_le (h.overdue hb hown hexec hc) hle, h.writers⟩
      cases h.history with
      | created hown hτ hd hserial => exact .created hown (Nat.le_trans hτ hle) hd hserial
      | owned hown hb hserial hfresh halone hτ he hl =>
          exact .owned hown hb hserial hfresh halone (Nat.le_trans hτ hle) he hl
  | api hs =>
      rw [hapi] at hs
      cases hs
  | deliver hj hi => exact h.call ho _ hi
  | duplicate hne hi => exact h.call ho s.job hi
  | @attempt i act a a' w ha hs =>
      obtain ⟨d, hd⟩ := hf.exists_stored ha
      rw [hd] at hs
      rcases (Attempt.step_inv _ _ hs).claim_or with ⟨_, _, -, rfl, -, rfl, rfl⟩ | ⟨hclaim, hw, -⟩
      · exact h.claim_step hf ho ha hd hs rfl
      · exact h.silent_step hf ho hok htimely ha hd hs hclaim hw
  | settle | stalled =>
      refine ⟨?_, h.tracks, h.overdue, h.writers⟩
      cases h.history with
      | created hown hτ hd hserial => exact .created hown hτ hd hserial
      | owned hown hb hserial hfresh halone hτ he hl =>
          exact .owned hown hb hserial hfresh halone hτ he hl

end Serialized

/-! ## Before the job is placed -/

/-- The write history while `createSubmission` is at work, newest first. -/
def Logged (s : State) : Prop :=
  match s.api with
  | .idle | .checked _ => s.log = []
  | .queueing c _ => ∃ τ ≤ s.now, s.log = [⟨none, .create, τ, c⟩]
  | .enqueueing q => ∃ req t τ τ', schemaAccepts req = true ∧ τ ≤ τ' ∧ τ' ≤ s.now ∧
      q = (Submission.create req).queue t ∧
      s.log = [⟨none, .queue, τ', q⟩, ⟨none, .create, τ, .create req⟩]
  | _ => True

/-- **Step lemma** for the history of the creation. -/
theorem Logged.step (h : s.Logged) (hf : s.Formed cfg) (hstep : s.step cfg l = some t) :
    t.Logged := by
  -- Once the job is placed there is nothing to show.
  have hplaced : ∀ {u : State}, s.job ≠ .absent → u.api = s.api → u.Logged := by
    intro u hj hu
    have hapi := hf.api
    unfold Logged
    rw [hu]
    generalize s.api = pc at hapi
    cases pc with
    | idle | checked => exact absurd hapi.2 hj
    | queueing | enqueueing => exact absurd hapi.2.1 hj
    | _ => trivial
  cases State.step_inv hstep with
  | @wait n =>
      unfold Logged at h ⊢
      dsimp only
      split at h
      · exact h
      · exact h
      · obtain ⟨τ, hτ, hlog⟩ := h
        exact ⟨τ, Nat.le_trans hτ (Nat.le_add_right _ _), hlog⟩
      · obtain ⟨req, u, τ, τ', hs, hle, hτ, hq, hlog⟩ := h
        exact ⟨req, u, τ, τ', hs, hle, Nat.le_trans hτ (Nat.le_add_right _ _), hq, hlog⟩
      · trivial
  | api hs =>
      have hapi := hf.api
      obtain ⟨now, submission, api, job, attempts, log⟩ := s
      cases hs with
      | checked => exact h
      | created =>
          obtain rfl : log = [] := h
          exact ⟨now, Nat.le_refl _, rfl⟩
      | @queued c u d hd =>
          obtain ⟨τ, hτ, rfl⟩ := h
          obtain ⟨hc, -, req, hs, rfl⟩ := hapi
          obtain rfl : d = .create req := Option.some.inj (hd.symm.trans hc)
          exact ⟨req, u, τ, now, hs, hτ, Nat.le_refl _, rfl, by simp⟩
      | _ => trivial
  | deliver hj => exact hplaced (by rw [hj]; nofun) rfl
  | duplicate hj => exact hplaced hj rfl
  | attempt ha => exact hplaced (hf.job_ne_absent ha) (by simp)
  | settle hj | stalled hj => exact hplaced (by rw [hj]; nofun) rfl

/-- Right after `queue.add` the history is the one of the creation. -/
theorem Serialized.added (hf : s.Formed cfg) (ho : s.Owned) (hl : s.Logged) {q : Submission}
    (hapi : s.api = .enqueueing q) :
    State.Serialized cfg { s with api := .returned, job := .waiting 0 } := by
  have hformed := hf.api
  rw [hapi] at hformed
  obtain ⟨hstored, hjob, -⟩ := hformed
  unfold Logged at hl
  rw [hapi] at hl
  obtain ⟨req, u, τ, τ', hs, hle, hτ, rfl, hlog⟩ := hl
  have hnone : ∀ i, s.attempts i = none := hf.absent hjob
  have hown : s.owner = none := by
    cases hown : s.owner with
    | none => rfl
    | some o =>
        obtain ⟨_, _, _, ha, -⟩ := ho.marked hown
        cases (hnone o).symm.trans ha
  constructor
  case history =>
    refine .created hown hτ hstored ?_
    rw [hlog]
    exact .created hs hle
  case tracks =>
    intro _ _ _ ho'
    cases hown.symm.trans ho'
  case overdue =>
    intro _ _ _ hb
    cases (hnone _).symm.trans hb
  case writers =>
    intro j x hx hw
    rw [hlog] at hx
    rcases List.mem_cons.mp hx with rfl | hx
    · cases hw
    · obtain rfl := List.mem_singleton.mp hx
      cases hw

end State

/-- The history of the creation in every reachable state. -/
theorem logged_of_reachable {cfg : Config} {ok : State → Label → Prop} {s : State}
    (h : (system cfg).Reachable ok s) : s.Logged :=
  h.invariant_with (Q := State.Formed cfg) (fun _ ↦ formed_of_reachable) rfl
    fun _ _ _ hf hl _ hstep ↦ hl.step hf hstep

/-- Every accepted submission of a timely run is serialized. -/
theorem serialized_of_reachable {cfg : Config} {s : State}
    (h : (system cfg).Reachable (fun s l ↦ Reliable s l ∧ Timely cfg s l) s)
    (hapi : s.api = .returned) : s.Serialized cfg := by
  refine h.invariant_with (I := fun s ↦ s.api = .returned → s.Serialized cfg)
    (Q := fun s ↦ s.Formed cfg ∧ s.Owned ∧ s.Logged)
    (fun _ hs ↦ ⟨formed_of_reachable hs, owned_of_reachable hs, logged_of_reachable hs⟩)
    (by rintro ⟨⟩) (fun s l t hQ hI hok hstep hret ↦ ?_) hapi
  obtain ⟨hf, ho, hl⟩ := hQ
  by_cases hs : s.api = .returned
  · exact (hI hs).step hf ho hs hok.1 hok.2 hstep
  · cases State.step_inv hstep with
    | @api act pc w placed hs' =>
        have hpc : pc = .returned := by simpa using hret
        subst hpc
        generalize hq : s.api = api at hs'
        cases hs' with
        | added => exact .added hf ho hl hq
    | attempt => exact absurd (by simpa using hret) hs
    | _ => exact absurd hret hs

/-- A worker crashes in its test loop, and its job is claimed again once the claim is
stale. -/
def Label.crashedThenClaimed : List Label :=
  submit ++ [.deliver 0 "a"] ++ claims 0 ++ loads 0 ++
    [.attempt 0 .crash, .stalled, .wait 30001, .deliver 1 "b"] ++ claims 1

/-- An attempt stalls between its claim and its load, until another attempt takes over. -/
def Label.stalledThenTaken : List Label :=
  submit ++ [.deliver 0 "a"] ++ claims 0 ++ [.wait 30001, .duplicate 1 ⟨"b", true, none⟩] ++ claims 1

end CodeArena.Submissions
