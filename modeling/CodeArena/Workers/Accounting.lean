import CodeArena.Lib.Counting
import CodeArena.Lib.Separated
import CodeArena.Submissions.Adapter
import CodeArena.Submissions.Owner
import CodeArena.Workers.Process

/-!
# The metrics account for the submissions

What a worker process counts is what `executeSubmission` returned to it, and what counts is
what `executeSubmission` stored.  The two agree, once all calls are over, exactly if every
step `Evaluates`: no submission with an unsupported language is loaded, and no call of the
execution engine that a test loop makes reports COMPILATION_ERROR.  In both cases
`executeSubmission` completes the submission and returns nothing.

## How the proof goes

A call whose document is not going to be returned is `Early`, and stays so.  A step makes a
call early exactly if it does not evaluate (`Handler.Stands.early_iff`), so a run ends without
an early call exactly if all of its steps evaluate.  And the counters count the calls that
are not early (`Process.Counted`).
-/

namespace CodeArena.Workers

open CodeArena.Lib CodeArena.Lib.Counting CodeArena.Lib.Separated CodeArena.Submissions
  CodeArena.Observability

/-! ## The condition -/

/-- The loaded language is supported, and no report of a compilation error is made. -/
def Handler.Evaluates (stored : Option Submission) (h : Handler) : Act → Prop
  | .load none => ∀ d ∈ stored, d.language ∈ supportedLanguages
  | .runTests engine =>
    match h.attempt.pc with
    | .testing _ tests => reportsCompilationError engine tests.1 0 = false
    | _ => True
  | _ => True

/-- `Handler.Evaluates`, decided. -/
def Handler.evaluates (stored : Option Submission) (h : Handler) : Act → Bool
  | .load none => ∀ d ∈ stored, d.language ∈ supportedLanguages
  | .runTests engine =>
    match h.attempt.pc with
    | .testing _ tests => reportsCompilationError engine tests.1 0 = false
    | _ => true
  | _ => true

theorem Handler.evaluates_iff {stored : Option Submission} {h : Handler} {act : Act} :
    h.evaluates stored act = true ↔ h.Evaluates stored act := by
  unfold evaluates Evaluates
  split
  · simp
  · split <;> simp
  · simp

namespace Process

/-- The document that a step makes `executeSubmission` go for will be returned. -/
def Evaluates (s : Process) : Label → Prop
  | .handler i act => ∀ h ∈ s.handlers[i]?, h.Evaluates (s.submissions h.submissionId) act
  | _ => True

/-- `Evaluates`, decided. -/
def evaluates (s : Process) : Label → Bool
  | .handler i act => ∀ h ∈ s.handlers[i]?, h.evaluates (s.submissions h.submissionId) act = true
  | _ => true

theorem evaluates_iff {s : Process} {l : Label} : s.evaluates l = true ↔ s.Evaluates l := by
  unfold evaluates Evaluates
  split
  · simp [Handler.evaluates_iff]
  · simp

instance (s : Process) (l : Label) : Decidable (s.Evaluates l) :=
  decidable_of_iff _ evaluates_iff

/-- Every call of `processSubmission` is over. -/
def AllOver (s : Process) : Prop := ∀ h ∈ s.handlers, h.attempt.pc.over = true

end Process

/-! ## The property -/

section

variable (toLowerCase : Text → Text)

/-- The call stored COMPLETED in a language with this label. -/
def Handler.storedIn (language : String) (h : Handler) : Bool :=
  h.stored.any fun d ↦
    languageLabel toLowerCase language.toList = languageLabel toLowerCase d.language.toList

/-- The call stored COMPLETED in a language with this label, under the verdict. -/
def Handler.storedWith (language : String) (verdict : Submissions.Verdict) (h : Handler) : Bool :=
  h.storedIn toLowerCase language && h.stored.any fun d ↦ verdict = d.verdict

/-- The counters and the histograms say what was stored. -/
structure Process.Accounted (s : Process) : Prop where
  counter : ∀ language verdict,
    s.metrics.submissionsTotal.value
        (submissionKey toLowerCase language.toList (verdictText verdict)) =
      s.handlers.countP (Handler.storedWith toLowerCase language verdict)
  histogram : ∀ language,
    sampleCount s.metrics.executionDurationHistograms
        (languageLabel toLowerCase language.toList) =
      s.handlers.countP (Handler.storedIn toLowerCase language)

end

/-! ## One call -/

namespace Handler

variable {toLowerCase : Text → Text} {h : Handler}

/-- Nothing has been stored with the status COMPLETED. -/
def Unstored (h : Handler) : Prop := h.evaluatedSubmission = none ∧ h.stored = none

/-- What the local variables are, where the handler stands: the document that
`executeSubmission` works on has the language of the claimed one, and what it returned is
what it stored. -/
def Stands (h : Handler) : Prop :=
  match h.attempt.pc with
  | .started | .claiming _ _ | .unclaimed => h.claimedSubmission = none ∧ h.Unstored
  | .claimed | .caught _ => h.claimedSubmission.isSome = true ∧ h.Unstored
  | .loaded d | .rerunning d _ _ | .testing ⟨d, _⟩ _ | .saving d _ =>
    (∃ c ∈ h.claimedSubmission, c.language = d.language) ∧ h.Unstored
  | .saved | .returned .completed =>
    ∃ c ∈ h.claimedSubmission, ∃ d ∈ h.stored, c.language = d.language ∧
      (h.evaluatedSubmission = none ∨ h.evaluatedSubmission = some d)
  | .returned _ | .threw _ | .crashed => h.Unstored

/-- The document of the call is not going to be returned, or was not. -/
def Early (h : Handler) : Prop :=
  match h.attempt.pc with
  | .saving d finding => returned d finding = none
  | _ => h.stored.isSome = true ∧ h.evaluatedSubmission = none

variable {cfg : Config} {now : Submissions.Time} {d : Submission} {a : Attempt} {act : Act}
  {w : Option Write}

theorem next_none : h.next now a none = { h with attempt := a } := by
  unfold next
  split
  case h_1 heq => cases heq
  case h_2 heq => cases heq
  case h_3 => rfl

/-- What `executeSubmission` returns is what it stored, if anything. -/
theorem returned_eq (d : Submission) (f : Finding) :
    returned d f = none ∨ returned d f = some (f.enter d) := by
  cases f with
  | unsupportedLanguage => exact .inl rfl
  | judged j t =>
      by_cases hv : j.verdict = .compilationError
      · exact .inl (if_pos hv)
      · exact .inr (if_neg hv)

theorem returned_judged_eq_none {d : Submission} {j : Judgement} {t : Submissions.Time} :
    returned d (.judged j t) = none ↔ j.verdict = .compilationError := by
  show (if j.verdict = .compilationError then none else some _) = none ↔ _
  split
  case isTrue hv => exact iff_of_true rfl hv
  case isFalse hv => exact iff_of_false nofun hv

theorem enter_language (d : Submission) (f : Finding) : (f.enter d).language = d.language := by
  cases f <;> rfl

/-- A step keeps the local variables in order, where no MongoDB call fails. -/
theorem Stands.step (hs : h.Stands) (hlang : ∀ c ∈ h.claimedSubmission, c.language = d.language)
    (hr : act.mongoFails = false) (hc : act ≠ .crash)
    (hstep : Attempt.Step cfg now d h.attempt act a w) : (h.next now a w).Stands := by
  cases hstep with
  | malformed hpc =>
      rw [next_none]
      rw [Stands, hpc] at hs
      exact hs.2
  | readClock hpc =>
      rw [next_none]
      rw [Stands, hpc] at hs
      exact hs
  | claimWon hpc =>
      rw [Stands, hpc] at hs
      unfold next
      rw [hpc]
      exact ⟨rfl, hs.2⟩
  | claimLost hpc =>
      rw [next_none]
      rw [Stands, hpc] at hs
      exact hs
  | skipped hpc =>
      rw [next_none]
      rw [Stands, hpc] at hs
      exact hs.2
  | unsupported hpc | loaded hpc =>
      rw [next_none]
      rw [Stands, hpc] at hs
      obtain ⟨c, hclaimed⟩ := Option.isSome_iff_exists.mp hs.1
      exact ⟨⟨c, hclaimed, hlang c hclaimed⟩, hs.2⟩
  | foundRunning hpc | foundOther hpc =>
      rw [next_none]
      rw [Stands, hpc] at hs
      exact hs
  | rerun hpc =>
      rw [Stands, hpc] at hs
      unfold next
      rw [hpc]
      exact hs
  | judged hpc =>
      rw [next_none]
      rw [Stands, hpc] at hs
      exact hs
  | @saved r f hpc =>
      rw [Stands, hpc] at hs
      unfold next
      rw [hpc]
      obtain ⟨⟨c, hclaimed, hcr⟩, -⟩ := hs
      exact ⟨c, hclaimed, f.enter r, rfl, hcr.trans (enter_language r f).symm, returned_eq r f⟩
  | stamped hpc =>
      rw [Stands, hpc] at hs
      unfold next
      rw [hpc]
      exact hs
  | caught hraises =>
      rw [next_none]
      unfold Stands at hs
      generalize hpc : h.attempt.pc = pc at hs hraises
      cases hraises with
      | noTestCases | runTests =>
          obtain ⟨⟨c, hclaimed, -⟩, hun⟩ := hs
          exact ⟨Option.isSome_iff_exists.mpr ⟨c, hclaimed⟩, hun⟩
      | load | findTestCases | rerun | save | stampCompleted => cases hr
  | failedNonRetryable hpc | failedExhausted hpc | reverted hpc =>
      rw [Stands, hpc] at hs
      unfold next
      rw [hpc]
      exact hs.2
  | notReverted hpc =>
      rw [next_none]
      rw [Stands, hpc] at hs
      exact hs.2
  | threw hrejects =>
      generalize h.attempt.pc = pc at hrejects
      cases hrejects with
      | claim | inspect | recover => cases hr
  | crashed => exact absurd rfl hc

theorem Unstored.not_lost (hu : h.Unstored) :
    ¬ (h.stored.isSome = true ∧ h.evaluatedSubmission = none) := by
  rintro ⟨hstored, -⟩
  rw [hu.2] at hstored
  cases hstored

/-- **A step makes a call early exactly if it does not evaluate**, and keeps early what is. -/
theorem Stands.early_iff (hs : h.Stands) (hr : act.mongoFails = false) (hc : act ≠ .crash)
    (hstep : Attempt.Step cfg now d h.attempt act a w) :
    (h.next now a w).Early ↔ h.Early ∨ ¬ h.Evaluates (some d) act := by
  cases hstep with
  | malformed hpc | readClock hpc | claimLost hpc | skipped hpc | foundRunning hpc
  | foundOther hpc | notReverted hpc =>
      rw [next_none]
      rw [Stands, hpc] at hs
      refine iff_of_false hs.2.not_lost (not_or_intro ?_ (not_not_intro trivial))
      rw [Early, hpc]
      exact hs.2.not_lost
  | claimWon hpc | rerun hpc | failedNonRetryable hpc | failedExhausted hpc | reverted hpc =>
      rw [Stands, hpc] at hs
      unfold next
      rw [hpc]
      refine iff_of_false hs.2.not_lost (not_or_intro ?_ (not_not_intro trivial))
      rw [Early, hpc]
      exact hs.2.not_lost
  | loaded hpc hlang =>
      rw [next_none]
      rw [Stands, hpc] at hs
      refine iff_of_false hs.2.not_lost (not_or_intro ?_ (not_not_intro ?_))
      · rw [Early, hpc]
        exact hs.2.not_lost
      · rintro _ ⟨⟩
        exact hlang
  | unsupported hpc hlang =>
      rw [next_none]
      exact iff_of_true rfl (.inr fun he ↦ hlang (he d rfl))
  | @judged s ts engine j hpc hj =>
      rw [next_none]
      rw [Stands, hpc] at hs
      have hearly : ¬ h.Early := by
        rw [Early, hpc]
        exact hs.2.not_lost
      have hnot : h.Evaluates (some d) (.runTests engine) ↔
          reportsCompilationError engine ts.1 0 = false := by
        unfold Evaluates
        rw [hpc]
      rw [or_iff_right hearly, hnot, Bool.not_eq_false, ← verdict_eq_compilationError_iff hj]
      exact returned_judged_eq_none
  | @saved r f hpc =>
      have hearly : h.Early ↔ returned r f = none := by rw [Early, hpc]
      unfold next
      rw [hpc, hearly]
      constructor
      · exact fun hlost ↦ .inl hlost.2
      · rintro (hnone | hno)
        · exact ⟨rfl, hnone⟩
        · exact absurd trivial hno
  | stamped hpc =>
      have hearly : h.Early ↔ h.stored.isSome = true ∧ h.evaluatedSubmission = none := by
        rw [Early, hpc]
      unfold next
      rw [hpc, hearly]
      exact (or_iff_left (not_not_intro trivial)).symm
  | caught hraises =>
      rw [next_none]
      unfold Stands at hs
      generalize hpc : h.attempt.pc = pc at hs hraises
      cases hraises with
      | noTestCases =>
          refine iff_of_false hs.2.not_lost (not_or_intro ?_ (not_not_intro trivial))
          rw [Early, hpc]
          exact hs.2.not_lost
      | runTests herror =>
          refine iff_of_false hs.2.not_lost (not_or_intro ?_ (not_not_intro ?_))
          · rw [Early, hpc]
            exact hs.2.not_lost
          · unfold Evaluates
            rw [hpc]
            exact reports_of_error herror
      | load | findTestCases | rerun | save | stampCompleted => cases hr
  | threw hrejects =>
      generalize h.attempt.pc = pc at hrejects
      cases hrejects with
      | claim | inspect | recover => cases hr
  | crashed => exact absurd rfl hc

theorem next_submissionId : (h.next now a w).submissionId = h.submissionId := by
  unfold next
  split <;> rfl

/-- What is claimed was claimed before, or is what the step wrote. -/
theorem next_claimed : (h.next now a w).claimedSubmission = h.claimedSubmission ∨
    ∃ x ∈ w, (h.next now a w).claimedSubmission = some x.after := by
  unfold next
  split
  case h_1 x _ => exact .inr ⟨x, rfl, rfl⟩
  case h_2 => exact .inl rfl
  case h_3 => exact .inl rfl

/-- A call without a claim, whose submission is not stored: it is on its way to be skipped. -/
theorem Stands.step_none (hs : h.Stands) (hclaim : h.claimedSubmission = none)
    (hr : act.mongoFails = false) (hc : act ≠ .crash)
    (hstep : h.attempt.step cfg now none act = some (a, w)) :
    w = none ∧ h.attempt.pc.over = false ∧ { h with attempt := a }.Stands ∧ ¬ h.Early ∧
      ¬ { h with attempt := a }.Early ∧ h.Evaluates none act := by
  unfold Stands at hs
  unfold Attempt.step at hstep
  split at hstep
  case h_1 hpc =>
    rw [hpc] at hs ⊢
    have hearly : ¬ h.Early := by
      rw [Early, hpc]
      exact hs.2.not_lost
    split at hstep <;> cases hstep
    · exact ⟨rfl, rfl, hs, hearly, hs.2.not_lost, trivial⟩
    · exact ⟨rfl, rfl, hs.2, hearly, hs.2.not_lost, trivial⟩
  case h_2 t u r hpc =>
    cases r with
    | some e => cases hr
    | none =>
        rw [hpc] at hs ⊢
        cases hstep
        refine ⟨rfl, rfl, hs, ?_, hs.2.not_lost, trivial⟩
        rw [Early, hpc]
        exact hs.2.not_lost
  case h_3 hpc =>
    rw [hpc] at hs ⊢
    cases hstep
    refine ⟨rfl, rfl, hs.2, ?_, hs.2.not_lost, trivial⟩
    rw [Early, hpc]
    exact hs.2.not_lost
  case h_4 => cases hr
  case h_5 hpc | h_11 hpc =>
    rw [hpc, hclaim] at hs
    cases hs.1
  case h_6 hpc | h_7 hpc | h_8 hpc | h_9 hpc =>
    rw [hpc, hclaim] at hs
    obtain ⟨⟨c, hclaimed, -⟩, -⟩ := hs
    cases hclaimed
  case h_10 hpc =>
    rw [hpc, hclaim] at hs
    obtain ⟨c, hclaimed, -⟩ := hs
    cases hclaimed
  case h_12 => exact absurd rfl hc
  case h_13 => cases hstep

/-! ### What a call records -/

/-- The texts of the language and the verdict that a call has recorded. -/
def recorded (h : Handler) : Option (Text × Text) :=
  match h.attempt.pc, h.claimedSubmission, h.evaluatedSubmission with
  | .returned .completed, some claimed, some evaluated =>
    some (claimed.language.toList, verdictText evaluated.verdict)
  | _, _, _ => none

/-- A call that is not over has recorded nothing. -/
theorem recorded_of_not_over (ho : h.attempt.pc.over = false) : h.recorded = none := by
  unfold recorded
  split
  case h_1 hpc _ _ => rw [hpc] at ho; cases ho
  case h_2 => rfl

/-- The call has recorded under this key of `submissionsTotal`. -/
def countsUnder (toLowerCase : Text → Text) (key : Text) (h : Handler) : Bool :=
  h.recorded.any fun r ↦ key = submissionKey toLowerCase r.1 r.2

/-- The call has recorded under this key of `executionDurationHistograms`. -/
def countsIn (toLowerCase : Text → Text) (label : Text) (h : Handler) : Bool :=
  h.recorded.any fun r ↦ label = languageLabel toLowerCase r.1

theorem record_of_ne (m : Metrics) (hpc : h.attempt.pc ≠ .returned .completed) :
    (h.record toLowerCase m).submissionsTotal = m.submissionsTotal ∧
      (h.record toLowerCase m).executionDurationHistograms = m.executionDurationHistograms ∧
      h.recorded = none := by
  unfold record recorded
  split
  case h_1 heq =>
    rw [heq]
    exact ⟨rfl, rfl, rfl⟩
  case h_2 heq => exact absurd heq hpc
  case h_3 =>
    refine ⟨rfl, rfl, ?_⟩
    split
    case h_1 heq _ _ => exact absurd heq hpc
    case h_2 => rfl

/-- A call that completes has counted once, if it was evaluated. -/
theorem recordEvaluated_counts (m : Metrics) (key label : Text)
    (hpc : h.attempt.pc = .returned .completed) :
    (h.recordEvaluated toLowerCase m).submissionsTotal.value key =
        m.submissionsTotal.value key + (if h.countsUnder toLowerCase key then 1 else 0) ∧
      sampleCount (h.recordEvaluated toLowerCase m).executionDurationHistograms label =
        sampleCount m.executionDurationHistograms label +
          if h.countsIn toLowerCase label then 1 else 0 := by
  unfold recordEvaluated countsUnder countsIn recorded
  rw [hpc]
  cases h.claimedSubmission with
  | none => exact ⟨rfl, rfl⟩
  | some claimed =>
      cases h.evaluatedSubmission with
      | none => exact ⟨rfl, rfl⟩
      | some evaluated =>
          simp only [Option.any_some, decide_eq_true_eq]
          constructor
          · exact OrderedMap.value_increment m.submissionsTotal _ key
          · exact sampleCount_record m.executionDurationHistograms _ label h.durationMs _

/-- **A call counts once it is recorded**, under the labels of its language and verdict. -/
theorem record_counts (m : Metrics) (key label : Text) :
    (h.record toLowerCase m).submissionsTotal.value key =
        m.submissionsTotal.value key + (if h.countsUnder toLowerCase key then 1 else 0) ∧
      sampleCount (h.record toLowerCase m).executionDurationHistograms label =
        sampleCount m.executionDurationHistograms label +
          if h.countsIn toLowerCase label then 1 else 0 := by
  by_cases hpc : h.attempt.pc = .returned .completed
  · have heq : h.record toLowerCase m =
        h.recordEvaluated toLowerCase (recordWorkerJob "completed".toList m) := by
      unfold record
      rw [hpc]
    rw [heq]
    exact recordEvaluated_counts (recordWorkerJob _ m) key label hpc
  · obtain ⟨htotal, hhist, hnone⟩ := @record_of_ne toLowerCase h m hpc
    rw [htotal, hhist, countsUnder, countsIn, hnone]
    exact ⟨rfl, rfl⟩

/-! ### A call that is over -/

theorem recorded_of_not_evaluated (he : h.evaluatedSubmission = none) : h.recorded = none := by
  unfold recorded
  split
  case h_1 heq => exact absurd (he.symm.trans heq) nofun
  case h_2 => rfl

/-- A call that is over has recorded what it stored, unless it is early. -/
theorem Stands.over_cases (hs : h.Stands) (ho : h.attempt.pc.over = true) :
    (h.stored = none ∧ h.recorded = none ∧ ¬ h.Early) ∨
      ∃ d, h.stored = some d ∧
        ((h.recorded = none ∧ h.Early) ∨
          (h.recorded = some (d.language.toList, verdictText d.verdict) ∧ ¬ h.Early)) := by
  unfold Stands at hs
  cases hpc : h.attempt.pc with
  | returned how =>
      rw [hpc] at hs
      cases how with
      | completed =>
          obtain ⟨c, hclaimed, d, hstored, hlang, hevaluated⟩ := hs
          refine .inr ⟨d, hstored, ?_⟩
          rw [Early, hpc]
          rcases hevaluated with hnone | hsome
          · exact .inl ⟨recorded_of_not_evaluated hnone, by rw [hstored]; rfl, hnone⟩
          · refine .inr ⟨?_, fun hlost ↦ ?_⟩
            · unfold recorded
              rw [hpc, hclaimed, hsome, ← hlang]
            · exact absurd (hlost.2.symm.trans hsome) nofun
      | skipped | failedNonRetryable =>
          refine .inl ⟨hs.2, recorded_of_not_evaluated hs.1, ?_⟩
          rw [Early, hpc]
          exact Unstored.not_lost hs
  | threw | crashed =>
      rw [hpc] at hs
      refine .inl ⟨hs.2, recorded_of_not_evaluated hs.1, ?_⟩
      rw [Early, hpc]
      exact Unstored.not_lost hs
  | _ =>
      rw [hpc] at ho
      cases ho

end Handler

/-! ## The runs -/

/-- Every submission is kept, and its language. -/
def Keeps (before after : ObjectId → Option Submission) : Prop :=
  ∀ id, ∀ d ∈ before id, ∃ d' ∈ after id, d'.language = d.language

theorem Keeps.refl (f : ObjectId → Option Submission) : Keeps f f := fun _ d hd ↦ ⟨d, hd, rfl⟩

/-- A call, among the stored submissions. -/
structure Handler.Fine (submissions : ObjectId → Option Submission) (h : Handler) : Prop where
  stands : h.Stands
  claimed : ∀ c ∈ h.claimedSubmission, ∃ d ∈ submissions h.submissionId, d.language = c.language

theorem Handler.Fine.mono {f g : ObjectId → Option Submission} {h : Handler} (hf : h.Fine f)
    (hfg : Keeps f g) : h.Fine g where
  stands := hf.stands
  claimed c hc := by
    obtain ⟨d, hd, hlang⟩ := hf.claimed c hc
    obtain ⟨d', hd', hlang'⟩ := hfg h.submissionId d hd
    exact ⟨d', hd', hlang'.trans hlang⟩

theorem Handler.fine_start (submissions : ObjectId → Option Submission) (id : ObjectId)
    (now : Submissions.Time) (call : Submissions.Call) :
    (Handler.start id now call).Fine submissions where
  stands := ⟨rfl, rfl, rfl⟩
  claimed c hc := absurd hc (Option.not_mem_none c)

/-- A call that just started is not early, and has recorded nothing. -/
theorem Handler.start_not_early (id : ObjectId) (now : Submissions.Time)
    (call : Submissions.Call) :
    ¬ (Handler.start id now call).Early ∧ (Handler.start id now call).recorded = none :=
  ⟨Unstored.not_lost ⟨rfl, rfl⟩, rfl⟩

namespace Process

variable {toLowerCase : Text → Text} {cfg : Config} {s t : Process} {h : Handler} {i : Nat}
  {act : Act} {a : Attempt} {w : Option Write} {l : Process.Label}

/-- The document that a call writes on, once it has written. -/
theorem written_self {d : Submission} (hd : s.submissions h.submissionId = some d) :
    s.written h.submissionId w h.submissionId = some (d.after w) := by
  cases w with
  | none => exact hd
  | some w => exact Function.update_self h.submissionId _ s.submissions

theorem keeps_written {d : Submission} (hd : s.submissions h.submissionId = some d)
    (hlang : (d.after w).language = d.language) :
    Keeps s.submissions (s.written h.submissionId w) := by
  intro id e he
  by_cases hid : id = h.submissionId
  · subst hid
    obtain rfl : d = e := Option.some.inj (hd.symm.trans he)
    exact ⟨d.after w, written_self hd, hlang⟩
  · refine ⟨e, ?_, rfl⟩
    cases w with
    | none => exact he
    | some w => exact (Function.update_of_ne hid _ s.submissions).trans he

/-- **A step of a call**: what it leaves behind, and whether the call is then early. -/
theorem fine_step (hf : h.Fine s.submissions) (hr : act.mongoFails = false) (hc : act ≠ .crash)
    (hstep : h.attempt.step cfg s.now (s.submissions h.submissionId) act = some (a, w)) :
    Keeps s.submissions (s.written h.submissionId w) ∧
      (h.next s.now a w).Fine (s.written h.submissionId w) ∧ h.attempt.pc.over = false ∧
      ((h.next s.now a w).Early ↔
        h.Early ∨ ¬ h.Evaluates (s.submissions h.submissionId) act) := by
  cases hd : s.submissions h.submissionId with
  | none =>
      have hclaim : h.claimedSubmission = none := by
        cases hc' : h.claimedSubmission with
        | none => rfl
        | some c =>
            obtain ⟨d, hstored, -⟩ := hf.claimed c hc'
            exact absurd (hd.symm.trans hstored) nofun
      rw [hd] at hstep
      obtain ⟨rfl, ho, hstands, hearly, hearly', he⟩ := hf.stands.step_none hclaim hr hc hstep
      rw [Handler.next_none]
      refine ⟨.refl _, ⟨hstands, ?_⟩, ho,
        iff_of_false hearly' (not_or_intro hearly (not_not_intro he))⟩
      intro c hc'
      exact absurd (hclaim.symm.trans hc') nofun
  | some d =>
      rw [hd] at hstep
      have hs := Attempt.step_inv cfg s.now hstep
      have hlang : ∀ c ∈ h.claimedSubmission, c.language = d.language := by
        intro c hc'
        obtain ⟨e, he, hce⟩ := hf.claimed c hc'
        obtain rfl : d = e := Option.some.inj (hd.symm.trans he)
        exact hce.symm
      refine ⟨keeps_written hd hs.language, ⟨hf.stands.step hlang hr hc hs, ?_⟩, hs.not_over,
        hf.stands.early_iff hr hc hs⟩
      intro c hc'
      rw [Handler.next_submissionId]
      refine ⟨d.after w, written_self hd, ?_⟩
      rcases @Handler.next_claimed h s.now a w with hsame | ⟨x, rfl, hx⟩
      · exact hs.language.trans (hlang c (hsame ▸ hc')).symm
      · obtain rfl : x.after = c := Option.some.inj (hx.symm.trans hc')
        rfl

/-- The metrics count the calls that have recorded. -/
structure Counted (toLowerCase : Text → Text) (s : Process) : Prop where
  fine : ∀ h ∈ s.handlers, h.Fine s.submissions
  counter : ∀ key, s.metrics.submissionsTotal.value key =
    s.handlers.countP (Handler.countsUnder toLowerCase key)
  histogram : ∀ label, sampleCount s.metrics.executionDurationHistograms label =
    s.handlers.countP (Handler.countsIn toLowerCase label)

/-- Some call is early. -/
def SomeEarly (s : Process) : Prop := ∃ h ∈ s.handlers, h.Early

/-- A call that just started counts for nothing. -/
theorem Counted.call (hs : s.Counted toLowerCase) (id : ObjectId) (call : Submissions.Call) :
    ({ s with handlers := s.handlers ++ [.start id s.now call] } : Process).Counted toLowerCase ∧
      (({ s with handlers := s.handlers ++ [.start id s.now call] } : Process).SomeEarly ↔
        s.SomeEarly) := by
  obtain ⟨hearly, hnone⟩ := Handler.start_not_early id s.now call
  refine ⟨⟨?_, ?_, ?_⟩, ?_⟩
  · intro h hh
    rcases List.mem_append.mp hh with hh | hh
    · exact hs.fine h hh
    · rw [List.mem_singleton.mp hh]
      exact Handler.fine_start s.submissions id s.now call
  · intro key
    rw [List.countP_append, List.countP_singleton, Handler.countsUnder, hnone]
    exact hs.counter key
  · intro label
    rw [List.countP_append, List.countP_singleton, Handler.countsIn, hnone]
    exact hs.histogram label
  · constructor
    · rintro ⟨h, hh, he⟩
      rcases List.mem_append.mp hh with hh | hh
      · exact ⟨h, hh, he⟩
      · rw [List.mem_singleton.mp hh] at he
        exact absurd he hearly
    · rintro ⟨h, hh, he⟩
      exact ⟨h, List.mem_append_left _ hh, he⟩

theorem step_handler (hc : act ≠ .crash) : s.step toLowerCase cfg (.handler i act) =
    s.handlers[i]?.bind fun h ↦ s.stepHandler toLowerCase cfg i h act := by
  cases act <;> first | rfl | exact absurd rfl hc

theorem evaluates_handler (hi : s.handlers[i]? = some h) :
    s.Evaluates (.handler i act) ↔ h.Evaluates (s.submissions h.submissionId) act := by
  show (∀ h ∈ s.handlers[i]?, h.Evaluates (s.submissions h.submissionId) act) ↔ _
  rw [hi]
  constructor
  · exact fun he ↦ he h rfl
  · rintro he _ ⟨⟩
    exact he

/-- A step of a call: it may come to record, and to be early. -/
theorem Counted.handler (hs : s.Counted toLowerCase) (hr : act.mongoFails = false)
    (hc : act ≠ .crash) (hstep : s.step toLowerCase cfg (.handler i act) = some t) :
    t.Counted toLowerCase ∧ (t.SomeEarly ↔ s.SomeEarly ∨ ¬ s.Evaluates (.handler i act)) := by
  rw [step_handler hc] at hstep
  obtain ⟨h, hi, hstep⟩ := Option.bind_eq_some_iff.mp hstep
  obtain ⟨⟨a, w⟩, hx, rfl⟩ := Option.map_eq_some_iff.mp hstep
  obtain ⟨hkeeps, hfine, ho, hearly⟩ := fine_step (hs.fine h (List.mem_of_getElem? hi)) hr hc hx
  have hnone := Handler.recorded_of_not_over ho
  have hcounts := @Handler.record_counts toLowerCase (h.next s.now a w) s.metrics
  refine ⟨⟨?_, ?_, ?_⟩, ?_⟩
  · intro x hmem
    rcases List.mem_or_eq_of_mem_set hmem with hmem | rfl
    · exact (hs.fine x hmem).mono hkeeps
    · exact hfine
  · intro key
    have hzero : h.countsUnder toLowerCase key = false := by rw [Handler.countsUnder, hnone]; rfl
    rw [countP_set_add hi hzero, ← hs.counter]
    exact (hcounts key key).1
  · intro label
    have hzero : h.countsIn toLowerCase label = false := by rw [Handler.countsIn, hnone]; rfl
    rw [countP_set_add hi hzero, ← hs.histogram]
    exact (hcounts label label).2
  · rw [evaluates_handler hi]
    exact exists_mem_set hi hearly

/-- Someone else changes a submission, and not its language. -/
theorem keeps_update {id : ObjectId} {d : Submission}
    (hall : (s.submissions id).all (fun old ↦ old.language = d.language) = true) :
    Keeps s.submissions (Function.update s.submissions id (some d)) := by
  intro id' e he
  by_cases hid : id' = id
  · subst hid
    rw [he] at hall
    exact ⟨d, Function.update_self id' _ s.submissions, (of_decide_eq_true hall).symm⟩
  · exact ⟨e, (Function.update_of_ne hid _ s.submissions).trans he, rfl⟩

/-- **One step**: the metrics keep counting the calls that have recorded, and a call comes to
be early exactly if the step does not evaluate. -/
theorem Counted.step (hs : s.Counted toLowerCase) (hr : s.Reliable l)
    (hstep : s.step toLowerCase cfg l = some t) :
    t.Counted toLowerCase ∧ (t.SomeEarly ↔ s.SomeEarly ∨ ¬ s.Evaluates l) := by
  have quiet {P Q : Prop} (hP : P ↔ Q) : P ↔ Q ∨ ¬ True := by
    rw [hP, not_true, or_false]
  cases l with
  | wait d =>
      cases hstep
      exact ⟨⟨hs.fine, hs.counter, hs.histogram⟩, quiet Iff.rfl⟩
  | other id d =>
      simp only [Process.step] at hstep
      split at hstep
      case isFalse => cases hstep
      case isTrue hall =>
        cases hstep
        exact ⟨⟨fun h hh ↦ (hs.fine h hh).mono (keeps_update hall), hs.counter, hs.histogram⟩,
          quiet Iff.rfl⟩
  | call id call =>
      cases hstep
      exact ⟨(hs.call id call).1, quiet (hs.call id call).2⟩
  | handler i act =>
      have hc : act ≠ .crash := by
        rintro rfl
        cases hstep
      exact hs.handler hr hc hstep

theorem counted_init : init.Counted toLowerCase where
  fine _ hh := absurd hh List.not_mem_nil
  counter _ := rfl
  histogram _ := rfl

/-- A run to a state without early calls evaluates at every step, and no other run comes to
such a state. -/
theorem Counted.run_iff {ls : List Process.Label} (hs : s.Counted toLowerCase)
    (hrun : (process toLowerCase cfg).Run Reliable s ls t) :
    t.Counted toLowerCase ∧ (¬ t.SomeEarly ↔ ¬ s.SomeEarly ∧
      (process toLowerCase cfg).Run (fun s l ↦ s.Reliable l ∧ s.Evaluates l) s ls t) := by
  induction hrun with
  | nil s => exact ⟨hs, (and_iff_left (.nil s)).symm⟩
  | @cons s u t l ls hok hstep hrest ih =>
      obtain ⟨hu, hearly⟩ := hs.step hok hstep
      obtain ⟨ht, hiff⟩ := ih hu
      refine ⟨ht, hiff.trans ?_⟩
      rw [hearly, not_or, not_not]
      constructor
      · rintro ⟨⟨hnot, he⟩, hrun⟩
        exact ⟨hnot, .cons ⟨hok, he⟩ hstep hrun⟩
      · rintro ⟨hnot, hrun⟩
        cases hrun with
        | cons hboth hstep' hrun =>
            obtain rfl := Option.some.inj (hstep.symm.trans hstep')
            exact ⟨⟨hnot, hboth.2⟩, hrun⟩

/-! ## The accounts at the end -/

theorem separator_not_mem_verdictText (v : Submissions.Verdict) : '|' ∉ verdictText v := by
  cases v <;> decide

theorem orElse_verdictText (v : Submissions.Verdict) (fallback : Text) :
    orElse (verdictText v) fallback = verdictText v := by
  cases v <;> rfl

theorem verdictText_injective : Function.Injective verdictText := by
  intro v v' h
  cases v <;> cases v' <;> first | rfl | exact absurd h (by decide)

/-- The keys of two pairs are the same exactly if the labels and the verdicts are. -/
theorem submissionKey_eq_iff {language language' : Text} {v v' : Submissions.Verdict} :
    submissionKey toLowerCase language (verdictText v) =
        submissionKey toLowerCase language' (verdictText v') ↔
      languageLabel toLowerCase language = languageLabel toLowerCase language' ∧ v = v' := by
  rw [submissionKey, submissionKey, orElse_verdictText, orElse_verdictText,
    append_separator_inj (separator_not_mem_verdictText v) (separator_not_mem_verdictText v'),
    verdictText_injective.eq_iff]

/-- The call has recorded under the key of a pair exactly if it stored the pair, unless it is
early. -/
theorem over_counts (hs : h.Stands) (ho : h.attempt.pc.over = true) (language : String)
    (v : Submissions.Verdict) :
    (¬ h.Early →
      h.countsUnder toLowerCase (submissionKey toLowerCase language.toList (verdictText v)) =
          h.storedWith toLowerCase language v ∧
        h.countsIn toLowerCase (languageLabel toLowerCase language.toList) =
          h.storedIn toLowerCase language) ∧
    (h.Early → h.countsUnder toLowerCase
      (submissionKey toLowerCase language.toList (verdictText v)) = false) := by
  unfold Handler.countsUnder Handler.countsIn Handler.storedWith Handler.storedIn
  rcases hs.over_cases ho with ⟨hstored, hnone, hearly⟩ | ⟨d, hstored, ⟨hnone, hearly⟩ | ⟨hrec, hearly⟩⟩
  · rw [hstored, hnone]
    exact ⟨fun _ ↦ ⟨rfl, rfl⟩, fun _ ↦ rfl⟩
  · rw [hnone]
    exact ⟨fun hnot ↦ absurd hearly hnot, fun _ ↦ rfl⟩
  · refine ⟨fun _ ↦ ?_, fun he ↦ absurd he hearly⟩
    rw [hstored, hrec]
    simp only [Option.any_some, submissionKey_eq_iff]
    exact ⟨Bool.decide_and _ _, trivial⟩

/-- An early call that is over stored a pair, and has not recorded it. -/
theorem early_stored (hs : h.Stands) (ho : h.attempt.pc.over = true) (he : h.Early) :
    ∃ d : Submission, h.storedWith toLowerCase d.language d.verdict = true := by
  rcases hs.over_cases ho with ⟨-, -, hearly⟩ | ⟨d, hstored, -⟩
  · exact absurd he hearly
  · refine ⟨d, ?_⟩
    simp [Handler.storedWith, Handler.storedIn, hstored]

/-- **The metrics account for what was stored exactly if no call is early.** -/
theorem accounted_iff (hs : s.Counted toLowerCase) (hover : s.AllOver) :
    s.Accounted toLowerCase ↔ ¬ s.SomeEarly := by
  constructor
  · rintro hacc ⟨h, hh, hearly⟩
    obtain ⟨d, hd⟩ := @early_stored toLowerCase h (hs.fine h hh).stands (hover h hh) hearly
    have hcount := hacc.counter d.language d.verdict
    rw [hs.counter] at hcount
    refine absurd hcount (Nat.ne_of_lt (countP_lt_countP ?_ ⟨h, hh, hd, ?_⟩))
    · intro x hx hcounts
      obtain ⟨hlate, hnone⟩ := @over_counts toLowerCase x (hs.fine x hx).stands (hover x hx)
        d.language d.verdict
      by_cases he : x.Early
      · exact absurd (hcounts.symm.trans (hnone he)) nofun
      · exact (hlate he).1.symm.trans hcounts
    · exact (over_counts (hs.fine h hh).stands (hover h hh) d.language d.verdict).2 hearly
  · intro hnot
    have hlate := fun x hx ↦ (@over_counts toLowerCase x (hs.fine x hx).stands (hover x hx))
    constructor
    · intro language verdict
      rw [hs.counter]
      apply List.countP_congr
      intro x hx
      rw [((hlate x hx language verdict).1 fun he ↦ hnot ⟨x, hx, he⟩).1]
    · intro language
      rw [hs.histogram]
      apply List.countP_congr
      intro x hx
      rw [((hlate x hx language .pending).1 fun he ↦ hnot ⟨x, hx, he⟩).2]

end Process

/-- A submission in Python is queued and judged by one test, with the reply of the engine. -/
def Process.Label.judge (result : ExecResult) : List Process.Label :=
  [.other 0 ((Submission.create ⟨1, 2, "PYTHON", []⟩).queue 0), .call 0 ⟨"a", true, none⟩,
    .handler 0 .readClock, .handler 0 (.claim none), .handler 0 (.load none),
    .handler 0 (.findTestCases (.ok [⟨[], []⟩])),
    .handler 0 (.runTests fun _ _ ↦ some (.ok result)), .handler 0 (.save none), .wait 7,
    .handler 0 (.stampCompleted none)]

end CodeArena.Workers
