import CodeArena.Engine.Verdicts
import CodeArena.Submissions.Adapter
import CodeArena.Submissions.Result

/-!
# Where a stored verdict comes from

From the record back to the programs that ran.  `Judged req tests passed v` is the meaning of
a judgement without the test loop: it gives each test case the cause of an engine verdict, as
`Engine.Cause` has it, and says what these come to.  `Explained ls d j` adds where its parts
come from: the request is one that `createSubmission` checked in the run, and the test cases
are those that one attempt of the run found.

Whatever the parties do, the verdict of the record is that of some judgement, for no write but
the final save of an attempt sets it, and that one sets it to what the attempt computed or
leaves it alone.  It takes `OwnerSaves` for the other fields of the result to come from the
same judgement.
-/

namespace CodeArena.Submissions

open CodeArena.Lib CodeArena.Lib.Utf

/-! ## What a judgement means -/

/-- What a submission asks for. -/
def Submission.request (d : Submission) : Request :=
  ⟨d.userId, d.problemId, d.language, d.sourceCode⟩

/-- A call of `execute` on the source of a request and a test case resolved, and `v` had its
cause in it. -/
def Caused (req : Request) (tc : TestCase) (v : Engine.Verdict) : Prop :=
  ∃ host result,
    (Engine.execute host (some (engineRequest req.language req.sourceCode tc))).outcome =
      .resolved result ∧
    Engine.Cause host (some (engineRequest req.language req.sourceCode tc)) v

/-- The verdict on tests of which one more, before them, had a wrong answer. -/
def Verdict.afterWrongAnswer : Verdict → Verdict
  | .accepted => .wrongAnswer
  | v => v

/-- The verdict on a list of test cases and how many of them passed, from what caused the
engine's verdict on each; the tests behind the first at which the loop stops do not count. -/
inductive Judged (req : Request) : List TestCase → Nat → Verdict → Prop
  | nil : Judged req [] 0 .accepted
  | passed {tc : TestCase} {rest : List TestCase} {n : Nat} {v : Verdict} :
      Caused req tc .accepted → Judged req rest n v → Judged req (tc :: rest) (n + 1) v
  | failed {tc : TestCase} {rest : List TestCase} {n : Nat} {v : Verdict} :
      Caused req tc .wrongAnswer → Judged req rest n v → Judged req (tc :: rest) n v.afterWrongAnswer
  | stopped {tc : TestCase} {rest : List TestCase} {v : Engine.Verdict} :
      Caused req tc v → v.stops = true → Judged req (tc :: rest) 0 (stoppedVerdict v)

section

variable {req : Request} {tests : List TestCase} {n : Nat} {v : Verdict}

theorem afterWrongAnswer_ne_accepted : v.afterWrongAnswer ≠ .accepted := by
  cases v <;> exact Verdict.noConfusion

theorem stoppedVerdict_ne_accepted (w : Engine.Verdict) : stoppedVerdict w ≠ .accepted := by
  cases w <;> exact Verdict.noConfusion

theorem Judged.passed_le (h : Judged req tests n v) : n ≤ tests.length := by
  induction h with
  | nil => exact Nat.le_refl _
  | passed _ _ ih => exact Nat.succ_le_succ ih
  | failed _ _ ih => exact Nat.le_succ_of_le ih
  | stopped => exact Nat.zero_le _

/-- The tests came to ACCEPTED exactly if each of them passed. -/
theorem Judged.accepted_iff (h : Judged req tests n v) : v = .accepted ↔ n = tests.length := by
  induction h with
  | nil => exact iff_of_true rfl rfl
  | passed _ _ ih => exact ih.trans Nat.succ_inj.symm
  | failed _ hrest =>
      exact iff_of_false afterWrongAnswer_ne_accepted
        (Nat.ne_of_lt (Nat.lt_succ_of_le hrest.passed_le))
  | stopped => exact iff_of_false (stoppedVerdict_ne_accepted _) (Nat.ne_of_lt (Nat.succ_pos _))

/-- Where the tests came to ACCEPTED, every one of them has the cause of it. -/
theorem Judged.caused (h : Judged req tests n .accepted) : ∀ tc ∈ tests, Caused req tc .accepted := by
  generalize hv : Verdict.accepted = v at h
  induction h with
  | nil => exact fun _ hm ↦ absurd hm List.not_mem_nil
  | passed hc _ ih => exact List.forall_mem_cons.mpr ⟨hc, ih hv⟩
  | failed => exact absurd hv.symm afterWrongAnswer_ne_accepted
  | stopped => exact absurd hv.symm (stoppedVerdict_ne_accepted _)

/-- A call of `execute` does not end without a verdict. -/
theorem not_caused_pending (tc : TestCase) : ¬ Caused req tc .pending := by
  rintro ⟨_, _, -, hc⟩
  cases hc with
  | ran _ _ hrun => cases hrun

end

/-! ## What the test loop computes -/

/-- What the engine reports on test cases, from call `n` on, has its causes. -/
def Reported (req : Request) (engine : Nat → TestCase → EngineReply) (tests : List TestCase)
    (n : Nat) : Prop :=
  ∀ i tc result, tests[i]? = some tc → engine (n + i) tc = some (.ok result) →
    Caused req tc result.verdict

/-- How the loop is left, once it has worked through tests that came to `v`. -/
def Loop.Concludes (t : Tally) (passed : Nat) (v : Verdict) : Loop → Prop
  | .threw _ => False
  | .compilationError testsPassed =>
    v = .compilationError ∧ testsPassed = t.testsPassed + passed
  | .ended tally => tally.testsPassed = t.testsPassed + passed ∧
      tally.finalVerdict = if v = .accepted then t.finalVerdict else v

section

variable {req : Request} {engine : Nat → TestCase → EngineReply} {tests : List TestCase}

theorem Reported.head {tc : TestCase} {n : Nat} {result : ExecResult}
    (h : Reported req engine (tc :: tests) n) (hr : engine n tc = some (.ok result)) :
    Caused req tc result.verdict :=
  h 0 tc result rfl hr

theorem Reported.tail {tc : TestCase} {n : Nat} (h : Reported req engine (tc :: tests) n) :
    Reported req engine tests (n + 1) := by
  intro i t result ht hr
  exact h (i + 1) t result ht (by rwa [Nat.add_right_comm n 1 i] at hr)

/-- Working through the tests either throws or comes to what they are judged by. -/
theorem runTests_judged (tests : List TestCase) : ∀ (n : Nat) (t : Tally),
    t.finalVerdict = .accepted ∨ t.finalVerdict = .wrongAnswer → Reported req engine tests n →
      (∃ e, runTests engine tests n t = .threw e) ∨
        ∃ passed v, Judged req tests passed v ∧ (runTests engine tests n t).Concludes t passed v := by
  induction tests with
  | nil => exact fun n t _ _ ↦ .inr ⟨0, .accepted, .nil, rfl, rfl⟩
  | cons tc rest ih =>
      intro n t ht hrep
      rw [runTests]
      cases hcall : executeTestCase (engine n tc) with
      | error e => exact .inl ⟨e, rfl⟩
      | ok result =>
          have hc := hrep.head (executeTestCase_ok hcall)
          dsimp only
          cases hv : result.verdict with
          | pending => exact absurd (hv ▸ hc) (not_caused_pending tc)
          | accepted =>
              rw [hv] at hc
              rcases ih (n + 1) ⟨t.testsPassed + 1, _, t.finalVerdict⟩ ht hrep.tail with
                hthrew | ⟨passed, v, hj, hl⟩
              · exact .inl hthrew
              · refine .inr ⟨passed + 1, v, .passed hc hj, ?_⟩
                dsimp only
                revert hl
                cases runTests engine rest (n + 1) _ with
                | threw => exact False.elim
                | compilationError p =>
                    rintro ⟨rfl, rfl⟩
                    exact ⟨rfl, Nat.add_right_comm ..⟩
                | ended tally =>
                    rintro ⟨hp, hf⟩
                    exact ⟨hp.trans (Nat.add_right_comm ..), hf⟩
          | wrongAnswer =>
              rw [hv] at hc
              have hnot : t.finalVerdict ∉
                  [Verdict.timeLimitExceeded, .memoryLimitExceeded, .runtimeError] := by
                rcases ht with ht | ht
                · rw [ht]; decide
                · rw [ht]; decide
              dsimp only
              rw [if_neg hnot]
              rcases ih (n + 1) ⟨t.testsPassed, _, .wrongAnswer⟩ (.inr rfl) hrep.tail with
                hthrew | ⟨passed, v, hj, hl⟩
              · exact .inl hthrew
              · refine .inr ⟨passed, v.afterWrongAnswer, .failed hc hj, ?_⟩
                revert hl
                cases runTests engine rest (n + 1) _ with
                | threw => exact False.elim
                | compilationError p =>
                    rintro ⟨rfl, hp⟩
                    exact ⟨rfl, hp⟩
                | ended tally =>
                    rintro ⟨hp, hf⟩
                    refine ⟨hp, ?_⟩
                    rw [if_neg afterWrongAnswer_ne_accepted, hf]
                    cases v <;> rfl
          | compilationError =>
              exact .inr ⟨0, .compilationError, .stopped (hv ▸ hc) rfl, rfl, rfl⟩
          | timeLimitExceeded =>
              exact .inr ⟨0, .timeLimitExceeded, .stopped (hv ▸ hc) rfl, rfl, rfl⟩
          | memoryLimitExceeded =>
              exact .inr ⟨0, .memoryLimitExceeded, .stopped (hv ▸ hc) rfl, rfl, rfl⟩
          | outputLimitExceeded =>
              exact .inr ⟨0, .runtimeError, .stopped (hv ▸ hc) rfl, rfl, rfl⟩
          | runtimeError => exact .inr ⟨0, .runtimeError, .stopped (hv ▸ hc) rfl, rfl, rfl⟩

/-- **The judgement of the test loop is what the tests are judged by.** -/
theorem executeTests_judged {j : Judgement} (hrep : Reported req engine tests 0)
    (h : executeTests engine tests = .ok j) :
    Judged req tests j.testsPassed j.verdict ∧ j.totalTests = tests.length := by
  rcases runTests_judged tests 0 ⟨0, 0, .accepted⟩ (.inl rfl) hrep with
    ⟨e, hloop⟩ | ⟨passed, v, hj, hl⟩
  · rw [executeTests, hloop] at h
    cases h
  rw [executeTests] at h
  revert h hl
  cases runTests engine tests 0 ⟨0, 0, .accepted⟩ with
  | threw => exact fun _ hl ↦ hl.elim
  | compilationError p =>
      rintro ⟨⟩ ⟨rfl, rfl⟩
      exact ⟨(Nat.zero_add passed).symm ▸ hj, rfl⟩
  | ended tally =>
      obtain ⟨p, ms, f⟩ := tally
      rintro ⟨⟩ ⟨hp, hf⟩
      obtain rfl : p = passed := hp.trans (Nat.zero_add passed)
      have hf : f = v := by
        refine hf.trans ?_
        split
        · exact Eq.symm ‹_›
        · rfl
      subst hf
      refine ⟨?_, rfl⟩
      have hiff := hj.accepted_iff
      simp only [conclude]
      by_cases ha : f = .accepted
      · rw [if_pos ⟨hiff.mp ha, ha⟩]
        exact ha ▸ hj
      · rw [if_neg (fun h ↦ ha h.2), if_neg (fun h ↦ ha h.2)]
        exact hj

end

/-! ## Where the parts of a state come from -/

/-- The engine reports to a test loop what calls of `execute` resolved with. -/
def Executed (s : State) : Label → Prop
  | .attempt i (.runTests engine) => ∀ a submission tests, s.attempts i = some a →
      a.pc = .testing submission tests → ∀ n tc result, tests.1[n]? = some tc →
        engine n tc = some (.ok result) → ∃ host r,
          (Engine.execute host (some (submission.engineRequest tc))).outcome = .resolved r ∧
            result = ⟨r.verdict, r.runtimeMs⟩
  | _ => True

/-- `createSubmission` checked a request in the run. -/
def Asked (ls : List Label) (req : Request) : Prop :=
  ∃ problem count, .api (.check req problem count) ∈ ls

/-- A judgement on what a record asks for, from the tests that one attempt of the run
found. -/
structure Explained (ls : List Label) (req : Request) (j : Judgement) : Prop where
  found : ∃ i tests, .attempt i (.findTestCases (.ok tests)) ∈ ls ∧ tests ≠ [] ∧
    j.totalTests = tests.length ∧ Judged req tests j.testsPassed j.verdict

/-- The test cases of an attempt, from their query to their loop. -/
def Pc.tests : Pc → Option TestCases
  | .rerunning _ _ ts | .testing _ ts => some ts
  | _ => none

/-- Where an attempt at a record that asks for `req` has what it holds. -/
structure Attempt.Sourced (ls : List Label) (req : Request) (i : AttemptId) (a : Attempt) :
    Prop where
  memory : ∀ r, a.pc.memory = some r → r.request = req
  tests : ∀ ts, a.pc.tests = some ts → .attempt i (.findTestCases (.ok ts.1)) ∈ ls
  judgement : ∀ j, a.judgement = some j → Explained ls req j

namespace Attempt

variable {cfg : Config} {now : Time} {d : Submission} {a a' : Attempt} {act : Act}
  {w : Option Write} {ls : List Label} {i : AttemptId}

theorem Sourced.start (req : Request) (call : Call) : (Attempt.start call).Sourced ls req i where
  memory := by rintro _ ⟨⟩
  tests := by rintro _ ⟨⟩
  judgement := by rintro _ ⟨⟩

/-- An attempt that goes where it holds nothing. -/
theorem Sourced.goto {req : Request} (h : a.Sourced ls req i) {pc : Pc} (hm : pc.memory = none)
    (ht : pc.tests = none) : (a.goto pc).Sourced ls req i where
  memory := fun _ hr ↦ by cases hm.symm.trans hr
  tests := fun _ hr ↦ by cases ht.symm.trans hr
  judgement := h.judgement

/-- No step of an attempt changes what the record asks for. -/
theorem Step.request (h : Step cfg now d a act a' w) : (d.after w).request = d.request := by
  cases h with
  | rerun | @saved _ f =>
      simp only [Submission.after_some, Submission.request, Submission.save, Submission.rerun]
      first
        | cases f <;> simp [Finding.enter, Submission.complete, Submission.rejectLanguage]
        | simp
  | _ => rfl

/-- **Step lemma** for an attempt. -/
theorem Step.sourced (h : Step cfg now d a act a' w) (hl : .attempt i act ∈ ls)
    (hx : ∀ engine, act = .runTests engine → ∀ s ts, a.pc = .testing s ts →
      Reported s.doc.request engine ts.1 0)
    (ha : a.Sourced ls d.request i) : a'.Sourced ls d.request i := by
  cases h with
  | malformed | readClock | claimLost | skipped | saved | stamped | caught | failedNonRetryable
  | failedExhausted | reverted | notReverted | threw | crashed => exact ha.goto rfl rfl
  | claimWon => exact ⟨by rintro _ ⟨⟩, by rintro _ ⟨⟩, ha.judgement⟩
  | loaded | unsupported =>
      exact ⟨fun _ hr ↦ by cases hr; rfl, by rintro _ ⟨⟩, ha.judgement⟩
  | foundRunning hpc | foundOther hpc =>
      have hm := ha.memory
      rw [hpc] at hm
      exact ⟨hm, fun _ ht ↦ by cases ht; exact hl, ha.judgement⟩
  | @rerun s _ _ hpc =>
      have hm := ha.memory
      have ht := ha.tests
      rw [hpc] at hm ht
      exact ⟨fun _ hr ↦ by cases hr; exact hm s rfl, ht, ha.judgement⟩
  | @judged s ts engine j hpc hj =>
      have hm := ha.memory
      have ht := ha.tests
      rw [hpc] at hm ht
      refine ⟨hm, by rintro _ ⟨⟩, fun _ hj' ↦ ?_⟩
      cases hj'
      obtain ⟨hjudged, htotal⟩ := executeTests_judged (hx engine rfl s ts hpc) hj
      rw [hm _ rfl] at hjudged
      exact ⟨i, ts.1, ht _ rfl, ts.2, htotal, hjudged⟩

end Attempt

/-- A verdict that is stored was computed by an attempt of the run. -/
def Submission.VerdictExplained (ls : List Label) (d : Submission) : Prop :=
  d.verdict = .pending ∨ ∃ j : Judgement, j.verdict = d.verdict ∧ Explained ls d.request j

/-- Only the final save of an attempt sets the verdict. -/
theorem Attempt.Step.verdict_or {cfg : Config} {now : Time} {d : Submission} {a a' : Attempt}
    {act : Act} {w : Option Write} (h : Step cfg now d a act a' w) :
    (d.after w).verdict = d.verdict ∨
      ∃ r f, a.pc = .saving r f ∧ (d.after w).verdict = (f.enter r).verdict := by
  rcases h.result_or with ⟨hr, -⟩ | ⟨-, r, f, hpc, -, hafter⟩
  · exact .inl (congrArg ResultFields.verdict hr)
  · rw [hafter]
    simp only [Submission.save, Submission.changed]
    split
    · exact .inl rfl
    · exact .inr ⟨r, f, hpc, rfl⟩

/-- Where everything in a state comes from. -/
structure State.Sourced (ls : List Label) (s : State) : Prop where
  checked : ∀ req, s.api = .checked req → Asked ls req
  asked : ∀ d, s.submission = some d → Asked ls d.request
  attempts : ∀ i a d, s.attempts i = some a → s.submission = some d → a.Sourced ls d.request i
  verdict : ∀ d, s.submission = some d → d.VerdictExplained ls

namespace State.Sourced

variable {cfg : Config} {s t : State} {ls : List Label} {l : Label} {d : Submission}

theorem init : State.init.Sourced ls where
  checked := by rintro _ ⟨⟩
  asked := by rintro _ ⟨⟩
  attempts := by rintro _ _ _ ⟨⟩
  verdict := by rintro _ ⟨⟩

/-- A new call holds nothing. -/
theorem call (h : s.Sourced ls) (i : AttemptId) (c : Call) (job : Job) :
    State.Sourced ls ({ s with job }.setAttempt i (.start c)) where
  checked := h.checked
  asked := h.asked
  attempts := by
    intro j b d hb hd
    rcases (State.setAttempt_attempts_eq_some ..).mp hb with ⟨-, rfl⟩ | ⟨-, hb⟩
    · exact .start _ c
    · exact h.attempts j b d hb hd
  verdict := h.verdict

/-- A save of `createSubmission` over the record, which sets the status and dates of it. -/
theorem save (h : s.Sourced ls) (hd : s.submission = some d) {d' : Submission}
    (hrequest : d'.request = d.request) (hverdict : d'.verdict = d.verdict) {pc : ApiPc}
    (hpc : ∀ req, pc ≠ .checked req) {job : Job} {kind : WriteKind} :
    State.Sourced ls ({ s with api := pc, job }.write none (some ⟨kind, d'⟩)) where
  checked := fun req hreq ↦ absurd hreq (hpc req)
  asked := by
    rintro _ ⟨⟩
    rw [hrequest]
    exact h.asked d hd
  attempts := by
    rintro i a _ ha ⟨⟩
    rw [hrequest]
    exact h.attempts i a d ha hd
  verdict := by
    rintro _ ⟨⟩
    unfold Submission.VerdictExplained
    rw [hrequest, hverdict]
    exact h.verdict d hd

/-- **Step lemma** for `createSubmission`. -/
theorem api_step {pc : ApiPc} {aact : ApiAct} {w : Option Write} {placed : Bool}
    (h : s.Sourced ls) (hf : s.Formed cfg) (hl : .api aact ∈ ls)
    (hstep : ApiPc.Step s.now s.submission s.api aact pc w placed) :
    State.Sourced ls
      ({ s with api := pc, job := if placed then .waiting 0 else s.job }.write none w) := by
  have hapi := hf.api
  have habsent := hf.absent
  obtain ⟨now, submission, api, job, attempts, log⟩ := s
  cases hstep with
  | refused | createThrew | queueThrew | added | addedThenThrew | rejected | refuseThrew =>
      exact ⟨by rintro _ ⟨⟩, h.asked, h.attempts, h.verdict⟩
  | @checked req problem count =>
      exact ⟨by rintro _ ⟨⟩; exact ⟨problem, count, hl⟩, h.asked, h.attempts, h.verdict⟩
  | @created req =>
      -- There is no record yet, and so no attempt.
      refine ⟨by rintro _ ⟨⟩, ?_, fun i a _ ha ↦ ?_, ?_⟩
      · rintro _ ⟨⟩
        exact h.checked req rfl
      · cases (habsent hapi.2 i).symm.trans ha
      · rintro _ ⟨⟩
        exact .inl rfl
  | queued hd =>
      exact h.save hd (by simp [Submission.request, Submission.save, Submission.queue])
        (by simp [Submission.save, Submission.queue]) (by rintro _ ⟨⟩)
  | refusedStored hd =>
      exact h.save hd (by simp [Submission.request, Submission.save, Submission.refuse])
        (by simp [Submission.save, Submission.refuse]) (by rintro _ ⟨⟩)

/-- **Step lemma** for an attempt. -/
theorem attempt_step {i : AttemptId} {a a' : Attempt} {act : Act} {w : Option Write}
    (h : s.Sourced ls) (hf : s.Formed cfg) (hx : Executed s (.attempt i act))
    (hl : .attempt i act ∈ ls) (ha : s.attempts i = some a) (hd : s.submission = some d)
    (hs : Attempt.Step cfg s.now d a act a' w) :
    State.Sourced ls ((s.setAttempt i a').write (some i) w) := by
  have hsub : ((s.setAttempt i a').write (some i) w).submission = some (d.after w) :=
    State.attempt_submission hd
  have hat := h.attempts i a d ha hd
  constructor
  case checked =>
    intro req hreq
    rw [State.write_api, State.setAttempt_api] at hreq
    exact h.checked req hreq
  case asked =>
    intro _ he
    cases hsub.symm.trans he
    rw [hs.request]
    exact h.asked d hd
  case attempts =>
    intro j b _ hb he
    cases hsub.symm.trans he
    rw [hs.request]
    rcases State.attempts_after.mp hb with ⟨rfl, rfl⟩ | ⟨-, hb⟩
    · refine hs.sourced hl ?_ hat
      rintro engine rfl r ts hpc n tc result ht hreply
      rw [Nat.zero_add] at hreply
      obtain ⟨host, e, he, rfl⟩ := hx a r ts ha hpc n tc result ht hreply
      exact ⟨host, e, he, Engine.cause_of_resolved he⟩
    · exact h.attempts j b d hb hd
  case verdict =>
    intro _ he
    cases hsub.symm.trans he
    unfold Submission.VerdictExplained
    rw [hs.request]
    rcases hs.verdict_or with hv | ⟨r, f, hpc, hv⟩
    · rw [hv]
      exact h.verdict d hd
    · cases f with
      | unsupportedLanguage => exact absurd hpc (hf.attempts ha).ne_unsupported
      | judged j t =>
          exact .inr ⟨j, hv.symm, hat.judgement j ((hf.attempts ha).judgement hpc).1⟩

/-- **Step lemma.** -/
theorem step (h : s.Sourced ls) (hf : s.Formed cfg) (hx : Executed s l) (hl : l ∈ ls)
    (hstep : s.step cfg l = some t) : t.Sourced ls := by
  cases State.step_inv hstep with
  | wait | settle | stalled => exact ⟨h.checked, h.asked, h.attempts, h.verdict⟩
  | api hs => exact h.api_step hf hl hs
  | deliver => exact h.call _ _ _
  | duplicate => exact h.call _ _ s.job
  | attempt ha hs =>
      obtain ⟨d, hd, hs⟩ := hf.attempt_step ha hs
      exact h.attempt_step hf hx hl ha hd hs

end State.Sourced

/-- **Everything in a run has its source.** -/
theorem sourced_of_run {cfg : Config} {ok : State → Label → Prop} {ls : List Label} {t : State}
    (h : (system cfg).Run ok State.init ls t) (hok : ∀ s l, ok s l → Executed s l) :
    t.Sourced ls :=
  (h.labelled.invariant (I := fun s ↦ s.Formed cfg ∧ s.Sourced ls) ⟨.init, .init⟩
    fun _ _ _ hI hl hstep ↦
      ⟨hI.1.step hstep, hI.2.step hI.1 (hok _ _ hl.1) hl.2 hstep⟩).2

/-! ## The record -/

/-- A run of a program that writes nothing where nothing is expected. -/
def Label.accepted : List Label :=
  submit ++ [.deliver 0 "a"] ++ claims 0 ++ loads 0 ++ tests 0 .accepted ++ [.attempt 0 (.save none)]

/-- A host on which programs write nothing. -/
def silentHost : Engine.Host := .sample false fun _ ↦ ⟨true, .spawned [] (.close ⟨some 0, none, 5⟩)⟩

/-- The test loop is about to run the sample test on the sample submission, and the engine
reports that it passed. -/
def Attempt.samplePasses (engine : Nat → TestCase → EngineReply) (a : Attempt) : Bool :=
  match a.pc, engine 0 Label.sampleTest with
  | .testing s ts, some (.ok result) =>
    decide (s.doc.language = "PYTHON" ∧ s.doc.sourceCode = [112] ∧ ts.1 = [Label.sampleTest] ∧
      result = ⟨.accepted, some 5⟩)
  | _, _ => false

/-- The condition of the sample run, decided. -/
def acceptedStep (s : State) : Label → Bool
  | .attempt i (.runTests engine) => (s.attempts i).any (Attempt.samplePasses engine)
  | _ => true

theorem silentHost_accepts :
    (Engine.execute silentHost (some (engineRequest "PYTHON" [112] Label.sampleTest))).outcome =
      .resolved ⟨.accepted, [], [], some 5, []⟩ := by
  decide +kernel

theorem acceptedStep_executed {s : State} {l : Label} (h : acceptedStep s l = true) :
    Executed s l := by
  cases l with
  | attempt i act =>
      cases act with
      | runTests engine =>
          intro a sub ts ha hpc n tc result htc hreply
          obtain ⟨b, hb, hs⟩ := (Option.any_eq_true _ _).mp h
          obtain rfl : a = b := Option.some.inj (ha.symm.trans hb)
          unfold Attempt.samplePasses at hs
          rw [hpc] at hs
          cases he : engine 0 Label.sampleTest with
          | none => rw [he] at hs; cases hs
          | some reply =>
              cases reply with
              | error e => rw [he] at hs; cases hs
              | ok r =>
                  rw [he] at hs
                  obtain ⟨hlanguage, hsource, hts, rfl⟩ := of_decide_eq_true hs
                  rw [hts] at htc
                  obtain ⟨rfl, rfl⟩ : n = 0 ∧ Label.sampleTest = tc := by
                    cases n with
                    | zero => exact ⟨rfl, Option.some.inj htc⟩
                    | succ n => cases htc
                  cases he.symm.trans hreply
                  refine ⟨silentHost, ⟨.accepted, [], [], some 5, []⟩, ?_, rfl⟩
                  rw [RunningDoc.engineRequest, hlanguage, hsource]
                  exact silentHost_accepts
      | _ => trivial
  | _ => trivial

theorem exists_accepted : ∃ t d,
    (system ⟨30000, 3⟩).Run (fun s l ↦ Executed s l ∧ OwnerSaves s l) State.init Label.accepted t ∧
      t.submission = some d ∧ d.status = .completed ∧ d.verdict = .accepted := by
  obtain ⟨t, ht, hP⟩ := (system ⟨30000, 3⟩).exists_run_of_exec
    (fun s l ↦ acceptedStep s l = true ∧ OwnerSaves s l) State.init Label.accepted
    (fun s ↦ s.submission.any fun d ↦ d.status = .completed ∧ d.verdict = .accepted) (by decide)
  obtain ⟨d, hd, hdc⟩ := (Option.any_eq_true _ _).mp hP
  obtain ⟨hstatus, hverdict⟩ := of_decide_eq_true hdc
  exact ⟨t, d, ht.mono fun _ _ h ↦ ⟨acceptedStep_executed h.1, h.2⟩, hd, hstatus, hverdict⟩

/-- In a call of `execute` the source of a request was written, compiled where it has to be,
and started on the input of a test case; the program ran to a clean end, and its output has
the lines that are expected. -/
structure Passed (req : Request) (tc : TestCase) (host : Engine.Host)
    (config : Engine.LanguageConfig) (dir : Engine.Path) (activity : List Engine.Activity)
    (close : Engine.Close) : Prop where
  language : Engine.resolveLanguage (js req.language) = .ok config
  started : ([Engine.Effect.mkdtemp dir.render,
      Engine.Effect.writeFile dir.render config.sourceFilename req.sourceCode] ++
      config.compilation.toList.map (fun c ↦ host.start (Engine.compileInvocation dir c)) ++
      [host.start ⟨dir.render, config.command, config.args, tc.input,
        Engine.executionTimeoutMs⟩]).Sublist
    (Engine.execute host (some (engineRequest req.language req.sourceCode tc))).effects
  ran : (host.program ⟨dir.render, config.command, config.args, tc.input,
    Engine.executionTimeoutMs⟩).child = .spawned activity (.close close)
  clean : Engine.CleanRun activity close
  output : Engine.comparedLines (Engine.sanitizeOutput (Engine.stdoutText activity) dir.render) =
    Engine.comparedLines tc.expectedOutput

/-- The engine takes over what the adapter hands it. -/
theorem validate_engineRequest {language : String} {source : JsString} {tc : TestCase}
    {request : Engine.ExecutionRequest}
    (h : Engine.validateExecutionRequest (some (engineRequest language source tc)) = .ok request) :
    request.language = js language ∧ request.sourceCode = source ∧
      request.input = some tc.input ∧ request.expectedOutput = tc.expectedOutput := by
  simp only [Engine.validateExecutionRequest, engineRequest, Engine.validateTestCase] at h
  split at h
  · cases h
  split at h
  · cases h
  split at h
  · cases h
    exact ⟨rfl, rfl, rfl, rfl⟩
  · cases h

/-- The cause of ACCEPTED, spelled out. -/
theorem Caused.passed {req : Request} {tc : TestCase} (h : Caused req tc .accepted) :
    ∃ host config dir activity close, Passed req tc host config dir activity close := by
  obtain ⟨host, result, hresult, hc⟩ := h
  cases hc with
  | @ran request config dir activity close _ hp hchild hrun =>
      obtain ⟨hlanguage, hsource, hinput, hexpected⟩ := validate_engineRequest hp.validated
      have hinvocation : Engine.runInvocation dir config request =
          ⟨dir.render, config.command, config.args, tc.input, Engine.executionTimeoutMs⟩ := by
        rw [Engine.runInvocation, hinput]
        rfl
      have hsteps := hp.runSteps_sublist hresult
      rw [Engine.runSteps, hinvocation, hsource] at hsteps
      rw [hinvocation] at hchild
      cases hrun with
      | matched hclean _ hsame =>
          exact ⟨host, config, dir, activity, close, hlanguage ▸ hp.resolved, hsteps, hchild, hclean,
            hsame.trans (congrArg Engine.comparedLines hexpected)⟩

end CodeArena.Submissions
