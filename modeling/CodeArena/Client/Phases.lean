import CodeArena.Client.Panel
import Mathlib.Data.List.Basic
import Mathlib.Tactic.Common

/-!
# The phases of the panel

What goes on in a panel whose polls do not overlap: nothing, a demonstration, a call of
`createSubmission`, or the polling of one submission.  A `Phase` says what timers and calls
there are, `At` that a panel is in it, and `Accounts` what its history and its polls come to.
The lemmas say what setting the state, clearing the interval, and the end of a submission make
of them.
-/

namespace CodeArena.Client

open CodeArena.Lib
open CodeArena.Submissions (ObjectId)

/-! ## The phases -/

/-- The polling of one submission. -/
structure Session where
  submissionId : ObjectId
  startTime : Time
  /-- When the interval is due. -/
  due : Time

/-- The interval of a session. -/
def Session.timer (p : Session) : Timer := .interval p.submissionId p.startTime p.due

/-- How often a submission is polled at most. -/
def maxPolls : Nat := pollTimeout / pollPeriod + 1

/-- What goes on in a panel whose polls do not overlap. -/
inductive Phase where
  | idle
  | running (t : TimerId) (due : Time)
  | anonymous (t : TimerId) (due : Time)
  | creating (c : CallId)
  /-- Between two polls. -/
  | waiting (t : TimerId) (p : Session)
  /-- During a poll. -/
  | asking (t : TimerId) (p : Session) (c : CallId)
  /-- During a poll whose interval the end of the component has cleared. -/
  | abandoned (c : CallId) (submissionId : ObjectId) (startTime : Time)

namespace Phase

/-- The timers of a phase. -/
def timers : Phase → List (TimerId × Timer)
  | running t due => [(t, .timeout .run due)]
  | anonymous t due => [(t, .timeout .anonymous due)]
  | waiting t p | asking t p _ => [(t, p.timer)]
  | idle | creating _ | abandoned _ _ _ => []

/-- The calls of a phase. -/
def calls : Phase → List (CallId × Call)
  | creating c => [(c, .creating)]
  | asking _ p c => [(c, .polling p.submissionId p.startTime)]
  | abandoned c submissionId startTime => [(c, .polling submissionId startTime)]
  | idle | running _ _ | anonymous _ _ | waiting _ _ => []

/-- The interval that `pollTimerRef` holds. -/
def ref : Phase → Option TimerId
  | waiting t _ | asking t _ _ => some t
  | _ => none

/-- The button that spins. -/
def isRunning : Phase → Bool
  | running _ _ => true
  | _ => false

def isSubmitting : Phase → Bool
  | anonymous _ _ | creating _ | waiting _ _ | asking _ _ _ => true
  | _ => false

def isAbandoned : Phase → Bool
  | abandoned _ _ _ => true
  | _ => false

/-- The steps that timers and calls take at most until nothing goes on, where `polls` were
made. -/
def left (polls : List ObjectId) : Phase → Nat
  | idle => 0
  | running _ _ | anonymous _ _ | abandoned _ _ _ => 1
  | creating _ => 2 * maxPolls + 1
  | waiting _ p => 2 * (maxPolls - polls.count p.submissionId)
  | asking _ p _ => 2 * (maxPolls - polls.count p.submissionId) + 1

/-- The session of a phase. -/
def session : Phase → Option Session
  | waiting _ p | asking _ p _ => some p
  | _ => none

end Phase

namespace Panel

variable {s t : Panel} {p q : Phase} {f : View → View}

/-- The panel is in the phase `p`. -/
structure At (s : Panel) (p : Phase) : Prop where
  timers : s.timers = p.timers
  calls : s.calls = p.calls
  ref : s.pollTimerRef = p.ref
  buttons : s.mounted = true →
    s.view.isRunning = p.isRunning ∧ s.view.isSubmitting = p.isSubmitting ∧ p.isAbandoned = false

/-- The submissions in the history. -/
def answered (s : Panel) : List Answer :=
  s.view.submissionsHistory.filterMap fun
    | .answer a => some a
    | .demo _ => none

/-! ### What setting the state leaves as it is -/

@[simp] theorem set_now : (s.set f).now = s.now := by unfold set; split <;> rfl
@[simp] theorem set_mounted : (s.set f).mounted = s.mounted := by unfold set; split <;> rfl
@[simp] theorem set_timers : (s.set f).timers = s.timers := by unfold set; split <;> rfl
@[simp] theorem set_calls : (s.set f).calls = s.calls := by unfold set; split <;> rfl
@[simp] theorem set_ref : (s.set f).pollTimerRef = s.pollTimerRef := by unfold set; split <;> rfl
@[simp] theorem set_created : (s.set f).created = s.created := by unfold set; split <;> rfl
@[simp] theorem set_polls : (s.set f).polls = s.polls := by unfold set; split <;> rfl

theorem set_view (h : s.mounted = true) : (s.set f).view = f s.view := by
  unfold set
  rw [if_pos h]

/-- Where the history stays, setting the state leaves its submissions. -/
theorem answered_set (hf : ∀ v, (f v).submissionsHistory = v.submissionsHistory) :
    (s.set f).answered = s.answered := by
  unfold set
  split
  · exact congrArg (List.filterMap _) (hf _)
  · rfl

/-- A result at the end of a submission is recorded, where the panel is there to see it. -/
theorem answered_finish (a : Answer) :
    (s.set fun v ↦ v.finish a).answered = if s.mounted then a :: s.answered else s.answered := by
  unfold set
  split <;> rfl

/-! ### What clearing the interval leaves as it is -/

@[simp] theorem clearPoll_now : s.clearPoll.now = s.now := by unfold clearPoll; split <;> rfl
@[simp] theorem clearPoll_mounted : s.clearPoll.mounted = s.mounted := by
  unfold clearPoll; split <;> rfl
@[simp] theorem clearPoll_view : s.clearPoll.view = s.view := by unfold clearPoll; split <;> rfl
@[simp] theorem clearPoll_calls : s.clearPoll.calls = s.calls := by unfold clearPoll; split <;> rfl
@[simp] theorem clearPoll_created : s.clearPoll.created = s.created := by
  unfold clearPoll; split <;> rfl
@[simp] theorem clearPoll_polls : s.clearPoll.polls = s.polls := by unfold clearPoll; split <;> rfl

@[simp] theorem clearPoll_answered : s.clearPoll.answered = s.answered := by
  unfold answered
  rw [clearPoll_view]

end Panel

/-- The phase once the interval is cleared. -/
def Phase.stopped : Phase → Phase
  | waiting _ _ => idle
  | asking _ p c => abandoned c p.submissionId p.startTime
  | p => p

namespace Panel

variable {s t : Panel} {p q : Phase} {f : View → View} {a : Answer}

namespace At

theorem clearPoll_timers (h : s.At p) : s.clearPoll.timers = p.stopped.timers := by
  unfold clearPoll
  rw [h.ref]
  cases p <;> simp [Phase.ref, clear, h.timers, Phase.timers, Phase.stopped]

theorem clearPoll_ref (h : s.At p) : s.clearPoll.pollTimerRef = p.stopped.ref := by
  unfold clearPoll
  rw [h.ref]
  cases p <;> simp [Phase.ref, h.ref, Phase.stopped]

/-- Where the buttons are enabled, nothing goes on. -/
theorem idle_of_enabled (h : s.At p) (he : s.Enabled) : p = .idle := by
  obtain ⟨hmounted, hrunning, hsubmitting⟩ := he
  obtain ⟨hr, hs, ha⟩ := h.buttons hmounted
  cases p with
  | idle => rfl
  | running => cases hrunning.symm.trans hr
  | abandoned => cases ha
  | anonymous | creating | waiting | asking => cases hsubmitting.symm.trans hs

/-- The phase after the state was set. -/
theorem of_set (htimers : s.timers = q.timers) (hcalls : s.calls = q.calls)
    (href : s.pollTimerRef = q.ref)
    (hbuttons : s.mounted = true → (f s.view).isRunning = q.isRunning ∧
      (f s.view).isSubmitting = q.isSubmitting ∧ q.isAbandoned = false) : (s.set f).At q where
  timers := set_timers.trans htimers
  calls := set_calls.trans hcalls
  ref := set_ref.trans href
  buttons hmounted := by
    rw [set_mounted] at hmounted
    rw [set_view hmounted]
    exact hbuttons hmounted

/-- Setting the state leaves the phase, where it leaves the buttons. -/
theorem set (h : s.At p) (hr : ∀ v, (f v).isRunning = v.isRunning)
    (hs : ∀ v, (f v).isSubmitting = v.isSubmitting) : (s.set f).At p :=
  of_set h.timers h.calls h.ref fun hmounted ↦ by
    rw [hr, hs]
    exact h.buttons hmounted

/-- A poll that comes to its end clears the interval and gives the buttons back. -/
theorem stop (h : s.At p) (hp : p.stopped = .idle) (hr : p.isRunning = false)
    (hf : ∀ v, (f v).isRunning = v.isRunning ∧ (f v).isSubmitting = false) :
    (s.clearPoll.set f).At .idle :=
  of_set (h.clearPoll_timers.trans (by rw [hp]))
    (by
      rw [clearPoll_calls, h.calls]
      cases p <;> first | rfl | cases hp)
    (h.clearPoll_ref.trans (by rw [hp]))
    fun hmounted ↦ by
      rw [clearPoll_mounted] at hmounted
      rw [clearPoll_view, (hf _).1, (hf _).2, (h.buttons hmounted).1, hr]
      exact ⟨rfl, rfl, rfl⟩

end At

/-! ### The accounts -/

/-- What the history, the submissions created and the polls made come to. -/
structure Accounts (s : Panel) (p : Phase) : Prop where
  nodup : (s.answered.map Answer.id).Nodup
  ended : ∀ a ∈ s.answered, a.record.status.terminal = true ∧ a.id ∈ s.created
  polled : ∀ id ∈ s.polls, id ∈ s.created
  bound : ∀ id, s.polls.count id ≤ maxPolls
  /-- A session is open, and its polls take their time. -/
  session : ∀ σ, p.session = some σ → σ.submissionId ∈ s.created ∧
    (∀ a ∈ s.answered, a.id ≠ σ.submissionId) ∧
    σ.startTime + pollPeriod * s.polls.count σ.submissionId ≤ s.now ∧
    σ.startTime + pollPeriod * (s.polls.count σ.submissionId + 1) ≤ σ.due
  waiting : ∀ t σ, p = .waiting t σ → s.polls.count σ.submissionId < maxPolls

namespace Accounts

/-- The accounts of a state with the same books. -/
theorem congr (h : s.Accounts p) (hnow : s.now ≤ t.now) (hanswered : t.answered = s.answered)
    (hcreated : t.created = s.created) (hpolls : t.polls = s.polls) : t.Accounts p where
  nodup := by rw [hanswered]; exact h.nodup
  ended := by rw [hanswered, hcreated]; exact h.ended
  polled := by rw [hpolls, hcreated]; exact h.polled
  bound := by rw [hpolls]; exact h.bound
  session σ hσ := by
    obtain ⟨hid, hopen, htime, hdue⟩ := h.session σ hσ
    rw [hanswered, hcreated, hpolls]
    exact ⟨hid, hopen, Nat.le_trans htime hnow, hdue⟩
  waiting := by rw [hpolls]; exact h.waiting

/-- A phase without a session has no accounts of its own. -/
theorem leave (h : s.Accounts p) (hq : q.session = none) : s.Accounts q where
  nodup := h.nodup
  ended := h.ended
  polled := h.polled
  bound := h.bound
  session σ hσ := by cases hq.symm.trans hσ
  waiting t σ hσ := by rw [hσ] at hq; cases hq

/-- A submission that has come to its end is recorded once. -/
theorem finish (h : s.Accounts p) (hterm : a.record.status.terminal = true)
    (hnew : s.mounted = true → a.id ∈ s.created ∧ ∀ b ∈ s.answered, b.id ≠ a.id)
    (hq : q.session = none) : (s.set fun v ↦ v.finish a).Accounts q := by
  have hleft := h.leave hq
  by_cases hm : s.mounted = true
  · obtain ⟨hid, hnew⟩ := hnew hm
    have hanswered : (s.set fun v ↦ v.finish a).answered = a :: s.answered := by
      rw [answered_finish, if_pos hm]
    constructor
    case nodup =>
      rw [hanswered, List.map_cons, List.nodup_cons]
      refine ⟨fun hmem ↦ ?_, h.nodup⟩
      obtain ⟨b, hb, hba⟩ := List.mem_map.mp hmem
      exact hnew b hb hba
    case ended =>
      rw [hanswered, set_created]
      intro b hb
      rcases List.mem_cons.mp hb with rfl | hb
      · exact ⟨hterm, hid⟩
      · exact h.ended b hb
    case polled => rw [set_polls, set_created]; exact h.polled
    case bound => rw [set_polls]; exact h.bound
    case session =>
      intro σ hσ
      cases hq.symm.trans hσ
    case waiting =>
      intro t σ hσ
      rw [hσ] at hq
      cases hq
  · refine hleft.congr (Nat.le_of_eq set_now.symm) ?_ set_created set_polls
    rw [answered_finish, if_neg hm]

/-- A submission is created. -/
theorem create (h : s.Accounts p) (hq : q.session = none) (id : ObjectId) :
    Accounts { s with created := id :: s.created } q where
  nodup := h.nodup
  ended b hb := ⟨(h.ended b hb).1, List.mem_cons_of_mem _ (h.ended b hb).2⟩
  polled b hb := List.mem_cons_of_mem _ (h.polled b hb)
  bound := h.bound
  session σ hσ := by cases hq.symm.trans hσ
  waiting t σ hσ := by rw [hσ] at hq; cases hq

/-- Nothing was polled or recorded of a submission that is new. -/
theorem count_eq_zero (h : s.Accounts p) {id : ObjectId} (hid : id ∉ s.created) :
    s.polls.count id = 0 :=
  List.count_eq_zero.mpr fun hmem ↦ hid (h.polled id hmem)

theorem not_answered (h : s.Accounts p) {id : ObjectId} (hid : id ∉ s.created) :
    ∀ b ∈ s.answered, b.id ≠ id :=
  fun b hb hbid ↦ hid (hbid ▸ (h.ended b hb).2)

/-- The polling of a new submission begins. -/
theorem poll (h : s.Accounts p) {id : ObjectId} (hid : id ∈ s.created)
    (hopen : ∀ b ∈ s.answered, b.id ≠ id) (hzero : s.polls.count id = 0) :
    (s.poll id).Accounts (.waiting s.nextTimer ⟨id, s.now, s.now + pollPeriod⟩) where
  nodup := h.nodup
  ended := h.ended
  polled := h.polled
  bound := h.bound
  session := by
    rintro σ ⟨⟩
    refine ⟨hid, hopen, ?_, ?_⟩
    · change s.now + pollPeriod * s.polls.count id ≤ s.now
      rw [hzero]
      exact Nat.le_refl _
    · change s.now + pollPeriod * (s.polls.count id + 1) ≤ s.now + pollPeriod
      rw [hzero]
      exact Nat.le_refl _
  waiting := by
    rintro t σ ⟨⟩
    change s.polls.count id < maxPolls
    rw [hzero]
    exact Nat.succ_pos _

end Accounts

end Panel

end CodeArena.Client
