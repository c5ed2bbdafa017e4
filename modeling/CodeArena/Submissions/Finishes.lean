import CodeArena.Lib.Liveness
import CodeArena.Submissions.Delivery
import Mathlib.Data.Fintype.EquivFin

/-!
# Accepted submissions finish

`Delivery` says what holds of a submission once its job is gone.  This file says that the
job goes: the handler goes through its awaits once, the test loop among them, each delivery
of the job ends in a settlement that uses up one of `attempts`, and only a crash gives a
delivery back.  `State.left` counts what is left to do on a submission, and every step but
the passing of time takes from it, whichever calls fail.

A step of the machine is one await, but for two of them: the check of `createSubmission`
makes two calls, and the test loop calls the adapter once for each test case that it runs.
`State.work` counts these.  So the work on a submission is bounded by its deliveries, its
crashes and the number of test cases (`work_bounded`), and as long as somebody moves while
somebody can, an accepted submission is judged or failed in the end (`accepted_finishes`).
-/

namespace CodeArena.Submissions

open CodeArena.Lib

/-! ## The work that is left -/

/-- The steps in which somebody moves. -/
def Label.moves : Label → Bool
  | .wait _ => false
  | _ => true

/-- The crash of a worker. -/
def Act.crashes : Act → Bool
  | .crash => true
  | _ => false

/-- The steps in which the worker of an attempt crashes. -/
def Label.crashes : Label → Bool
  | .attempt _ act => act.crashes
  | _ => false

/-- How often a job is delivered that no crash gives back. -/
def Config.deliveries (cfg : Config) : Nat := cfg.attempts - 1 + 1

/-- The work of a delivery at most, with `n` for its test loop: the delivery itself, eight
awaits of the handler beside the loop, and its settlement. -/
def deliveryWork (n : Nat) : Nat := n + 10

/-- The work from a point of the handler to the settlement of its job, with `n` for the test
loop.  A crashed attempt is settled by a recovery and a further delivery. -/
def Pc.left (n : Nat) : Pc → Nat
  | .started => n + 9
  | .claiming _ _ => n + 8
  | .claimed => n + 7
  | .loaded _ => n + 6
  | .rerunning _ _ _ => n + 5
  | .testing _ _ => n + 4
  | .saving _ _ => 4
  | .saved => 3
  | .unclaimed | .caught _ => 2
  | .returned _ | .threw _ => 1
  | .crashed => deliveryWork n + 1

/-- The work of `createSubmission`. -/
def ApiPc.left : ApiPc → Nat
  | .idle => 6
  | .checked _ => 4
  | .queueing _ _ => 3
  | .enqueueing _ => 2
  | .refusing _ _ => 1
  | .returned | .threw _ => 0

/-- The work of the queue and the handlers on a job. -/
def Job.left (n : Nat) (cfg : Config) (attempts : AttemptId → Option Attempt) : Job → Nat
  | .absent => deliveryWork n * cfg.deliveries
  | .waiting k => deliveryWork n * (cfg.attempts - (k + 1) + 1)
  | .active k i =>
    deliveryWork n * (cfg.attempts - (k + 1)) + ((attempts i).map fun a ↦ a.pc.left n).getD 0
  | .completed | .failed => 0

theorem Job.left_active {n : Nat} {cfg : Config} {attempts : AttemptId → Option Attempt} {k : Nat}
    {i : AttemptId} {a : Attempt} (ha : attempts i = some a) :
    (Job.active k i).left n cfg attempts =
      deliveryWork n * (cfg.attempts - (k + 1)) + a.pc.left n := by
  simp only [Job.left, ha, Option.map_some, Option.getD_some]

/-- The work of everybody on the submission. -/
def State.left (n : Nat) (cfg : Config) (s : State) : Nat :=
  s.api.left + s.job.left n cfg s.attempts

/-- What a step of an attempt costs, with `n` for the test loop. -/
def Act.cost (n : Nat) : Act → Nat
  | .runTests _ => n
  | _ => 1

/-- What a step of `createSubmission` costs: the check is two calls. -/
def ApiAct.cost : ApiAct → Nat
  | .check _ _ _ => 2
  | _ => 1

/-- What a step costs, where somebody moves. -/
def Label.cost (n : Nat) : Label → Nat
  | .wait _ => 0
  | .api act => act.cost
  | .attempt _ act => act.cost n
  | .deliver _ _ | .duplicate _ _ | .settle | .stalled => 1

/-- Where somebody moves, a step costs something; the test loop counts as one here. -/
theorem Label.cost_ne_zero {l : Label} (h : l.moves = true) : l.cost 1 ≠ 0 := by
  cases l with
  | wait => cases h
  | api act => cases act <;> exact Nat.succ_ne_zero _
  | attempt i act => cases act <;> exact Nat.succ_ne_zero _
  | _ => exact Nat.succ_ne_zero _

/-- What a step gives back: a delivery, where a worker crashes. -/
def Label.credit (n : Nat) (l : Label) : Nat := if l.crashes then deliveryWork n else 0

/-! ### The parties -/

namespace Attempt

variable {n : Nat} {cfg : Config} {now : Time} {d : Submission} {a a' : Attempt} {act : Act}
  {w : Option Write}

/-- An error of an await is closer to the settlement than the await was. -/
theorem Raises.left {pc : Pc} {e : JsError} (h : Raises pc act e) :
    2 + act.cost n ≤ pc.left n := by
  cases h <;> simp only [Pc.left, Act.cost] <;> omega

theorem Rejects.left {pc : Pc} {e : JsError} (h : Rejects pc act e) :
    1 + act.cost n ≤ pc.left n := by
  cases h <;> simp only [Pc.left, Act.cost] <;> omega

theorem left_of_not_over {pc : Pc} (h : pc.over = false) : 1 < pc.left n := by
  cases pc with
  | returned | threw | crashed => cases h
  | _ => simp only [Pc.left]; omega

/-- **Step lemma** for attempts: an attempt comes closer to its settlement, unless its
worker crashes. -/
theorem Step.left (h : Step cfg now d a act a' w) :
    a'.pc.left n + act.cost n ≤ a.pc.left n + if act.crashes then deliveryWork n else 0 := by
  cases h with
  | caught hr => exact Nat.le_add_right_of_le hr.left
  | threw hr => exact Nat.le_add_right_of_le hr.left
  | crashed ho =>
      have hleft := left_of_not_over (n := n) ho
      change deliveryWork n + 1 + 1 ≤ a.pc.left n + deliveryWork n
      omega
  | malformed hpc | readClock hpc | claimWon hpc | claimLost hpc | skipped hpc | unsupported hpc
  | loaded hpc | foundRunning hpc | foundOther hpc | rerun hpc | judged hpc | saved hpc
  | stamped hpc | failedNonRetryable hpc | failedExhausted hpc | reverted hpc
  | notReverted hpc =>
      rw [hpc]
      simp only [Pc.left, Act.cost, goto_pc]
      omega

/-- An attempt that is not over awaits a call that may succeed. -/
theorem exists_step (cfg : Config) (now : Time) (stored : Option Submission)
    (h : a.pc.over = false) : ∃ act r, act.mongoFails = false ∧ act.crashes = false ∧
      a.step cfg now stored act = some r := by
  unfold Attempt.step
  cases hpc : a.pc with
  | started =>
      refine ⟨.readClock, ?_⟩
      cases a.call.validId
      · exact ⟨_, rfl, rfl, rfl⟩
      · exact ⟨_, rfl, rfl, rfl⟩
  | claiming => exact ⟨.claim none, _, rfl, rfl, rfl⟩
  | unclaimed => exact ⟨.inspect none, _, rfl, rfl, rfl⟩
  | claimed => exact ⟨.load none, _, rfl, rfl, rfl⟩
  | loaded => exact ⟨.findTestCases (.ok []), _, rfl, rfl, rfl⟩
  | rerunning => exact ⟨.rerun none, _, rfl, rfl, rfl⟩
  | testing => exact ⟨.runTests fun _ _ ↦ none, _, rfl, rfl, rfl⟩
  | saving => exact ⟨.save none, _, rfl, rfl, rfl⟩
  | saved => exact ⟨.stampCompleted none, _, rfl, rfl, rfl⟩
  | caught => exact ⟨.recover none, _, rfl, rfl, rfl⟩
  | returned | threw | crashed => rw [hpc] at h; cases h

end Attempt

/-- **Step lemma** for `createSubmission`. -/
theorem ApiPc.Step.left {now : Time} {stored : Option Submission} {pc pc' : ApiPc} {act : ApiAct}
    {w : Option Write} {placed : Bool} (h : ApiPc.Step now stored pc act pc' w placed) :
    pc'.left + act.cost ≤ pc.left := by
  cases h <;> simp [ApiPc.left, ApiAct.cost]

/-- Only `queue.add` places the job. -/
theorem ApiPc.Step.placed {now : Time} {stored : Option Submission} {pc pc' : ApiPc}
    {act : ApiAct} {w : Option Write} (h : ApiPc.Step now stored pc act pc' w true) :
    ∃ q, pc = .enqueueing q := by
  cases h <;> exact ⟨_, rfl⟩

/-- **Step lemma** for settlements: one of the deliveries is used up. -/
theorem Job.settle_left {n : Nat} {cfg : Config} {k : Nat} {pc : Pc} {job : Job}
    (attempts : AttemptId → Option Attempt) (h : Job.settle cfg k pc = some job) :
    job.left n cfg attempts + 1 ≤ deliveryWork n * (cfg.attempts - (k + 1)) + pc.left n := by
  cases pc with
  | returned => cases h; exact Nat.le_add_left _ _
  | threw =>
      simp only [Job.settle] at h
      split at h <;> cases h
      · simp only [Job.left, Pc.left]
        have hleft : cfg.attempts - (k + 1 + 1) + 1 = cfg.attempts - (k + 1) := by omega
        rw [hleft]
      · exact Nat.le_add_left _ _
  | _ => cases h

/-! ### One attempt at a time -/

namespace State

variable {cfg : Config} {s t : State} {l : Label} {i : AttemptId} {a : Attempt}

/-- Every attempt but the one on the active job is over. -/
structure Single (s : State) : Prop where
  active : ∀ {n i}, s.job = .active n i → ∃ a, s.attempts i = some a
  others : ∀ {j b}, s.attempts j = some b → (∀ n, s.job ≠ .active n j) → b.pc.over = true

namespace Single

theorem init : State.init.Single where
  active := nofun
  others := nofun

/-- An attempt that moves is the one on the active job. -/
theorem exists_active (h : s.Single) (ha : s.attempts i = some a) (hover : a.pc.over = false) :
    ∃ n, s.job = .active n i := by
  by_contra hc
  cases hover.symm.trans (h.others ha fun n hn ↦ hc ⟨n, hn⟩)

/-- The job leaves an attempt that is over. -/
theorem leaves (h : s.Single) {n : Nat} (hj : s.job = .active n i) (ha : s.attempts i = some a)
    (hover : a.pc.over = true) {job : Job} (hjob : ∀ m j, job ≠ .active m j) :
    Single { s with job } where
  active hk := absurd hk (hjob _ _)
  others {j b} hb _ := by
    by_cases hji : j = i
    · subst hji
      obtain rfl : a = b := Option.some.inj (ha.symm.trans hb)
      exact hover
    · refine h.others hb fun m hm ↦ hji ?_
      cases hj.symm.trans hm
      rfl

/-- **Step lemma.** -/
theorem step (h : s.Single) (hf : s.Formed cfg) (hl : l.isDuplicate = false)
    (hstep : s.step cfg l = some t) : t.Single := by
  cases State.step_inv hstep with
  | wait => exact ⟨h.active, h.others⟩
  | @api act pc w placed hs =>
      cases placed with
      | false =>
          constructor
          case active =>
            intro n i hj
            rw [State.write_job] at hj
            rw [State.write_attempts]
            exact h.active hj
          case others =>
            intro j b hb hj
            rw [State.write_job] at hj
            rw [State.write_attempts] at hb
            exact h.others hb hj
      | true =>
          -- No call was made before the job was there.
          obtain ⟨q, hq⟩ := hs.placed
          have hformed := hf.api
          rw [hq] at hformed
          constructor
          case active =>
            intro n i hj
            rw [State.write_job] at hj
            cases hj
          case others =>
            intro j b hb _
            rw [State.write_attempts] at hb
            cases (hf.absent hformed.2.1 j).symm.trans hb
  | @deliver i workerId n hj hi =>
      constructor
      case active =>
        intro m k hk
        cases hk
        exact ⟨_, State.setAttempt_attempts_self ..⟩
      case others =>
        intro k b hb hk
        rcases (State.setAttempt_attempts_eq_some ..).mp hb with ⟨rfl, -⟩ | ⟨-, hb⟩
        · exact absurd rfl (hk n)
        · exact h.others hb fun m hm ↦ by cases hj.symm.trans hm
  | duplicate => cases hl
  | @attempt i act a a' w ha hs =>
      obtain ⟨d, -, hs⟩ := hf.attempt_step ha hs
      obtain ⟨n, hj⟩ := h.exists_active ha hs.not_over
      constructor
      case active =>
        intro m k hk
        rw [State.write_job, State.setAttempt_job, hj] at hk
        cases hk
        exact ⟨a', State.attempts_after.mpr (.inl ⟨rfl, rfl⟩)⟩
      case others =>
        intro k b hb hk
        rw [State.write_job, State.setAttempt_job] at hk
        rcases State.attempts_after.mp hb with ⟨rfl, -⟩ | ⟨-, hb⟩
        · exact absurd hj (hk n)
        · exact h.others hb hk
  | settle hj ha hjob =>
      exact h.leaves hj ha (Job.over_of_settle hjob) fun _ _ ↦ Job.settle_ne_active hjob
  | stalled hj ha hc => exact h.leaves hj ha (by rw [hc]; rfl) nofun

end Single

/-! ### The system -/

/-- **Step lemma.**  A step takes its cost from what is left, and gives a delivery back where
a worker crashes. -/
theorem left_step {n : Nat} (h : s.Single) (hf : s.Formed cfg) (hl : l.isDuplicate = false)
    (hstep : s.step cfg l = some t) : t.left n cfg + l.cost n ≤ s.left n cfg + l.credit n := by
  cases State.step_inv hstep with
  | wait => exact Nat.le_refl _
  | @api act pc w placed hs =>
      have hapi := hs.left
      have hjob : (if placed then Job.waiting 0 else s.job).left n cfg s.attempts ≤
          s.job.left n cfg s.attempts := by
        cases placed with
        | false => exact Nat.le_refl _
        | true =>
            obtain ⟨q, hq⟩ := hs.placed
            have hformed := hf.api
            rw [hq] at hformed
            rw [hformed.2.1]
            exact Nat.le_refl _
      simp only [State.left, State.write_api, State.write_job, State.write_attempts]
      change _ + act.cost ≤ _ + 0
      omega
  | @deliver i workerId k hj hi =>
      simp only [State.left, State.setAttempt_api, State.setAttempt_job, hj,
        Job.left_active (State.setAttempt_attempts_self ..)]
      change _ + (_ + (n + 9)) + 1 ≤ _ + deliveryWork n * (_ + 1) + 0
      rw [Nat.mul_add, Nat.mul_one, deliveryWork]
      omega
  | duplicate => cases hl
  | @attempt i act a a' w ha hs =>
      obtain ⟨d, -, hs⟩ := hf.attempt_step ha hs
      obtain ⟨k, hj⟩ := h.exists_active ha hs.not_over
      have hleft := hs.left (n := n)
      simp only [State.left, State.write_api, State.write_job, State.write_attempts,
        State.setAttempt_api, State.setAttempt_job, hj, Job.left_active ha,
        Job.left_active (State.setAttempt_attempts_self ..)]
      change _ + act.cost n ≤ _ + if act.crashes then deliveryWork n else 0
      omega
  | @settle k i a job hj ha hjob =>
      have hleft := Job.settle_left (n := n) s.attempts hjob
      simp only [State.left, hj, Job.left_active ha]
      change _ + 1 ≤ _ + 0
      omega
  | @stalled k i a hj ha hc =>
      simp only [State.left, hj, Job.left_active ha, hc]
      change _ + deliveryWork n * (_ + 1) + 1 ≤ _ + (_ + (deliveryWork n + 1)) + 0
      rw [Nat.mul_add]
      omega

end State

/-- In every run without duplicate deliveries, one attempt at a time. -/
theorem single_of_reachable {cfg : Config} {ok : State → Label → Prop} {s : State}
    (hok : ∀ s l, ok s l → l.isDuplicate = false) (h : (system cfg).Reachable ok s) : s.Single :=
  h.invariant_with (fun _ ↦ formed_of_reachable) .init fun _ _ _ hf hs hl hstep ↦
    hs.step hf (hok _ _ hl) hstep

/-- What is left is a potential of the system, as long as the queue makes no calls twice. -/
theorem potential (n : Nat) {cfg : Config} {ok : State → Label → Prop}
    (hok : ∀ s l, ok s l → l.isDuplicate = false) :
    (system cfg).Potential ok ((system cfg).Reachable ok) (State.left n cfg) (Label.cost n)
      (Label.credit n) :=
  fun _ _ _ hs hl hstep ↦ ⟨hs.run (.cons hl hstep (.nil _)),
    State.left_step (single_of_reachable hok hs) (formed_of_reachable hs) (hok _ _ hl) hstep⟩

/-! ## The work that is done -/

/-- The calls that a step of `createSubmission` awaits. -/
def ApiAct.work : ApiAct → Nat
  | .check _ (.ok (some problem)) _ => if problem.isActive then 2 else 1
  | _ => 1

/-- The awaits of a step of an attempt. -/
def Attempt.work (a : Attempt) : Act → Nat
  | .runTests engine =>
    match a.pc with
    | .testing _ tests => testCalls engine tests.1 0
    | _ => 0
  | _ => 1

/-- What a step is in awaits, of the handlers and of the queue. -/
def State.work (s : State) : Label → Nat
  | .wait _ => 0
  | .api act => act.work
  | .attempt i act => ((s.attempts i).map fun a ↦ a.work act).getD 0
  | .deliver _ _ | .duplicate _ _ | .settle | .stalled => 1

/-- The queue calls nobody twice, and a query finds at most `n` test cases. -/
def Delivers (n : Nat) (_ : State) : Label → Prop
  | .duplicate _ _ => False
  | .attempt _ (.findTestCases (.ok tests)) => tests.length ≤ n
  | _ => True

instance (n : Nat) (s : State) (l : Label) : Decidable (Delivers n s l) := by
  unfold Delivers
  split <;> infer_instance

/-- The test cases that an attempt is about to run. -/
def Pc.testCount : Pc → Nat
  | .rerunning _ _ tests | .testing _ tests => tests.1.length
  | _ => 0

/-- No attempt has found more test cases than `n`. -/
def State.Within (n : Nat) (s : State) : Prop := ∀ i a, s.attempts i = some a → a.pc.testCount ≤ n

section

variable {n : Nat} {cfg : Config} {s t : State} {l : Label}

theorem Delivers.isDuplicate (h : Delivers n s l) : l.isDuplicate = false := by
  cases l with
  | duplicate => exact h.elim
  | _ => rfl

theorem Attempt.Step.testCount_le {now : Time} {d : Submission} {a a' : Attempt} {act : Act}
    {w : Option Write} {i : AttemptId} (h : Attempt.Step cfg now d a act a' w)
    (hl : Delivers n s (.attempt i act)) (ha : a.pc.testCount ≤ n) : a'.pc.testCount ≤ n := by
  cases h with
  | foundRunning | foundOther => exact hl
  | rerun hpc =>
      rw [hpc] at ha
      exact ha
  | _ => exact Nat.zero_le n

theorem State.within_init (n : Nat) : State.init.Within n := by
  intro i a ha
  cases ha

/-- A step stays within the number of test cases that are found. -/
theorem State.within_step (hf : s.Formed cfg) (h : s.Within n) (hl : Delivers n s l)
    (hstep : s.step cfg l = some t) : t.Within n := by
  intro j b hb
  cases State.step_inv hstep with
  | wait => exact h j b hb
  | api =>
      rw [State.write_attempts] at hb
      exact h j b hb
  | deliver =>
      rcases (State.setAttempt_attempts_eq_some ..).mp hb with ⟨rfl, rfl⟩ | ⟨-, hb⟩
      · exact Nat.zero_le n
      · exact h j b hb
  | duplicate => exact hl.elim
  | attempt ha hs =>
      obtain ⟨d, -, hs⟩ := hf.attempt_step ha hs
      rcases State.attempts_after.mp hb with ⟨rfl, rfl⟩ | ⟨-, hb⟩
      · exact hs.testCount_le hl (h j _ ha)
      · exact h j b hb
  | settle => exact h j b hb
  | stalled => exact h j b hb

/-- A step is at most the work that it costs. -/
theorem State.work_le (h : s.Within n) (l : Label) : s.work l ≤ l.cost n := by
  cases l with
  | api act =>
      cases act with
      | check req problem count =>
          simp only [State.work, ApiAct.work, Label.cost, ApiAct.cost]
          split
          · split <;> decide
          · decide
      | _ => exact Nat.le_refl _
  | attempt i act =>
      cases ha : s.attempts i with
      | none => simp [State.work, ha]
      | some a =>
          simp only [State.work, Label.cost, ha, Option.map_some, Option.getD_some]
          cases act with
          | runTests engine =>
              simp only [Attempt.work, Act.cost]
              split
              · rename_i d tests hpc
                have hn := h i a ha
                rw [hpc] at hn
                exact (testCalls_le engine tests.1 0).trans hn
              · exact Nat.zero_le n
          | _ => exact Nat.le_refl _
  | _ => exact Nat.le_refl _

end

/-- A submission that is judged on two test cases, after a crash of a worker that had found
them. -/
def Label.crashedThenJudged : List Label :=
  let finds (i : AttemptId) : List Label :=
    claims i ++ [.attempt i (.load none), .attempt i (.findTestCases (.ok [sampleTest, sampleTest]))]
  submit ++ [.deliver 0 "a"] ++ finds 0 ++
    [.attempt 0 .crash, .stalled, .wait 30001, .deliver 1 "b"] ++ finds 1 ++ tests 1 .accepted ++
    [.attempt 1 (.save none), .attempt 1 (.stampCompleted none), .settle]

/-- Somebody moves, and no call fails: what is asked of the parties in the long run. -/
def Proceeds (s : State) (l : Label) : Prop :=
  QueueReliable s l ∧ l.moves = true ∧ l.crashes = false

namespace State

variable {cfg : Config} {s : State} {i : AttemptId} {a : Attempt}

theorem offers_of_isSome {l : Label} (hl : Proceeds s l) (h : (s.step cfg l).isSome = true) :
    (system cfg).Offers Proceeds s := by
  obtain ⟨t, ht⟩ := Option.isSome_iff_exists.mp h
  exact ⟨l, t, hl, ht⟩

/-- While the job is open, somebody can move. -/
theorem offers (h : s.Single) (hfresh : ∃ i, s.attempts i = none) (hjob : s.job.open = true) :
    (system cfg).Offers Proceeds s := by
  cases hj : s.job with
  | absent | completed | failed => rw [hj] at hjob; cases hjob
  | waiting n =>
      obtain ⟨i, hi⟩ := hfresh
      refine offers_of_isSome (l := .deliver i "") ⟨⟨rfl, rfl⟩, rfl, rfl⟩ ?_
      simp [State.step, hj, hi]
  | active n i =>
      obtain ⟨a, ha⟩ := h.active hj
      cases hover : a.pc.over with
      | false =>
          obtain ⟨act, r, hfails, hcrashes, hr⟩ :=
            a.exists_step cfg s.now s.submission hover
          refine offers_of_isSome (l := .attempt i act) ⟨⟨hfails, rfl⟩, rfl, hcrashes⟩ ?_
          simp [State.step, ha, hr]
      | true =>
          cases hpc : a.pc with
          | returned | threw =>
              refine offers_of_isSome (l := .settle) ⟨⟨rfl, rfl⟩, rfl, rfl⟩ ?_
              simp only [State.step, hj, ha, hpc, Job.settle, Option.bind_some]
              first | rfl | split <;> rfl
          | crashed =>
              refine offers_of_isSome (l := .stalled) ⟨⟨rfl, rfl⟩, rfl, rfl⟩ ?_
              simp [State.step, hj, ha, hpc]
          | _ => rw [hpc] at hover; cases hover

/-- Where the job is gone, nobody moves. -/
theorem not_offers (h : s.Single) (hf : s.Formed cfg) (hapi : s.api = .returned) (hjob : s.job.open = false) :
    ¬ (system cfg).Offers Proceeds s := by
  rintro ⟨l, t, ⟨⟨-, hduplicate⟩, hmoves, -⟩, hstep⟩
  have hactive : ∀ n i, s.job ≠ .active n i := fun n i hj ↦ by rw [hj] at hjob; cases hjob
  cases State.step_inv hstep with
  | wait => cases hmoves
  | api hs =>
      rw [hapi] at hs
      cases hs
  | deliver hj => rw [hj] at hjob; cases hjob
  | duplicate => cases hduplicate
  | attempt ha hs =>
      obtain ⟨d, -, hs⟩ := hf.attempt_step ha hs
      obtain ⟨n, hj⟩ := h.exists_active ha hs.not_over
      exact hactive n _ hj
  | settle hj | stalled hj => exact hactive _ _ hj

end State

/-- A run makes finitely many calls. -/
theorem exists_fresh {cfg : Config} {ok : State → Label → Prop} {s : State}
    (h : (system cfg).Reachable ok s) : ∃ i, s.attempts i = none := by
  obtain ⟨ls, hls⟩ := h
  obtain ⟨i, hi⟩ := Infinite.exists_notMem_finset (ls.filterMap Label.starts).toFinset
  refine ⟨i, ?_⟩
  by_contra hne
  obtain ⟨l, hl, hstarts⟩ := exists_starts_of_run hls rfl hne
  exact hi (List.mem_toFinset.mpr (List.mem_filterMap.mpr ⟨l, hl, hstarts⟩))

/-- Once `createSubmission` returned, it is over. -/
theorem returned_step {cfg : Config} {s t : State} {l : Label} (h : s.api = .returned)
    (hstep : s.step cfg l = some t) : t.api = .returned := by
  cases State.step_inv hstep with
  | api hs =>
      rw [h] at hs
      cases hs
  | wait | deliver | duplicate | attempt | settle | stalled => simpa using h

/-- As long as somebody moves while somebody can, and once the workers crash no more, an
accepted job is removed in the end. -/
theorem job_closes {cfg : Config} {ok : State → Label → Prop}
    (hok : ∀ s l, ok s l → l.isDuplicate = false) (τ : (system cfg).Trace ok)
    (hinit : τ.state 0 = State.init) (fair : τ.WeaklyFair Proceeds) {n : Nat}
    (hapi : (τ.state n).api = .returned)
    (hcrash : ∀ m, n ≤ m → (τ.label m).crashes = false) :
    ∃ N, n ≤ N ∧ ∀ m, N ≤ m → (τ.state m).job.open = false := by
  have hμ : (system cfg).Potential ok
      (fun s ↦ (system cfg).Reachable ok s ∧ s.api = .returned) (State.left 1 cfg) (Label.cost 1)
      (Label.credit 1) := fun s l t hs hl hstep ↦ by
    obtain ⟨hreach, hpay⟩ := potential 1 hok s l t hs.1 hl hstep
    exact ⟨⟨hreach, returned_step hs.2 hstep⟩, hpay⟩
  refine τ.settles (P := fun s ↦ s.job.open = false) fair hμ (fun s l hl ↦ ?_)
    (fun s hs hopen ↦ ?_) (fun s l t hopen hfree hstep ↦ ?_) ⟨τ.reachable hinit n, hapi⟩
    (fun m hm ↦ ?_)
  · exact Label.cost_ne_zero hl.2.1
  · exact State.offers (single_of_reachable hok hs.1) (exists_fresh hs.1) (by simpa using hopen)
  · -- A free step is the passing of time.
    cases l with
    | wait d =>
        cases hstep
        exact hopen
    | _ => exact absurd hfree (Label.cost_ne_zero rfl)
  · simp [Label.credit, hcrash m hm]

/-- **Accepted submissions finish.**  Let MongoDB calls succeed, let the queue deliver as
its retry machine says, and let no claim be refused by a RUNNING record.  Then in every
infinite run with finitely many crashes in which somebody moves as long as somebody can,
an accepted submission is completed or failed from some point on, and all work on it is
over. -/
theorem accepted_finishes {cfg : Config}
    (τ : (system cfg).Trace fun s l ↦ QueueReliable s l ∧ Reclaims s l)
    (hinit : τ.state 0 = State.init) (fair : τ.WeaklyFair Proceeds) {n : Nat}
    (hapi : (τ.state n).api = .returned)
    (hcrash : ∀ m, n ≤ m → (τ.label m).crashes = false) :
    ∃ N, ∀ m, N ≤ m → (τ.state m).job.open = false ∧
      (∀ i a, (τ.state m).attempts i = some a → a.pc.over = true) ∧
      ∃ d, (τ.state m).submission = some d ∧ d.status.terminal = true := by
  obtain ⟨N, hN, hclosed⟩ := job_closes (fun _ _ hl ↦ hl.1.2) τ hinit fair hapi hcrash
  have hreturned : ∀ m, n ≤ m → (τ.state m).api = .returned :=
    τ.always (P := fun s ↦ s.api = .returned) hapi fun m _ h ↦ returned_step h (τ.follows m)
  refine ⟨N, fun m hm ↦ ?_⟩
  have hreach := τ.reachable hinit m
  have hf := formed_of_reachable hreach
  have ht := tracked_of_reachable hreach (hreturned m (by omega))
  have hjob := hclosed m hm
  have hplaced : (τ.state m).job ≠ .absent := by
    have hformed := hf.api
    rw [hreturned m (by omega)] at hformed
    exact hformed
  have hdone : (τ.state m).job = .completed ∨ (τ.state m).job = .failed := by
    cases hj : (τ.state m).job with
    | absent => exact absurd hj hplaced
    | waiting | active => rw [hj] at hjob; cases hjob
    | completed => exact .inl rfl
    | failed => exact .inr rfl
  obtain ⟨d, hd⟩ := Option.isSome_iff_exists.mp (hf.stored hplaced)
  refine ⟨hjob, fun i a ha ↦ ht.others ha fun k hk ↦ ?_, d, hd, ht.done hdone d hd⟩
  rw [hk] at hjob
  cases hjob

/-- A submission that is judged after a crash: its run goes on as a trace that meets the
assumptions, and the record is completed or failed from some point on. -/
theorem accepted_finishes_reclaimed :
    ∃ τ : (system ⟨30000, 3⟩).Trace fun s l ↦ QueueReliable s l ∧ Reclaims s l,
      τ.state 0 = State.init ∧ ∃ N, ∀ m, N ≤ m →
        ∃ d, (τ.state m).submission = some d ∧ d.status.terminal = true := by
  obtain ⟨s, hs, hP⟩ := (system ⟨30000, 3⟩).exists_run_of_exec
    (fun s l ↦ QueueReliable s l ∧ Reclaims s l) State.init
    Label.reclaimed (fun s ↦ s.api = .returned && !s.job.open) (by decide)
  obtain ⟨hapi, hjob⟩ := Bool.and_eq_true_iff.mp hP
  have hrest : ¬ (system ⟨30000, 3⟩).Offers Proceeds s := State.not_offers
    (single_of_reachable (fun _ _ hl ↦ hl.1.2) ⟨_, hs⟩) (formed_of_reachable ⟨_, hs⟩)
    (of_decide_eq_true hapi)
    (by simpa using hjob)
  have hwait : QueueReliable s (.wait 0) ∧ Reclaims s (.wait 0) := ⟨⟨rfl, rfl⟩, trivial⟩
  obtain ⟨τ, hinit, fair, hend⟩ := hs.fairTrace hwait rfl hrest
  obtain ⟨N, hN⟩ := accepted_finishes τ hinit fair
    (n := Label.reclaimed.length) (by rw [(hend _ (Nat.le_refl _)).1]; exact of_decide_eq_true hapi)
    fun m hm ↦ by rw [(hend m hm).2]; rfl
  exact ⟨τ, hinit, N, fun m hm ↦ (hN m hm).2.2⟩

end CodeArena.Submissions
