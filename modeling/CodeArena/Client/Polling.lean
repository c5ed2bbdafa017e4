import CodeArena.Client.Phases

/-!
# Polling in time

The interval of the panel does not wait for the answers to its earlier calls.  Where every
poll is answered before the next is made, the panel is a sequential program all the same: it
is always in one `Phase`, with at most one timer and one call, and it comes back to `idle`,
where the buttons are.  This file proves that, and what it means for the user: a submission
comes to its end at most once, and is polled at most `maxPolls` times.

Where two polls overlap, it is not so (`listed_twice`): the first answer clears the interval,
and the second is recorded like the first.
-/

namespace CodeArena.Client

open CodeArena.Lib
open CodeArena.Lib.Utf (JsString)
open CodeArena.Submissions (ObjectId Submission)

/-! ## The assumptions -/

/-- `getSubmissionById`. -/
def Call.isPolling : Call → Bool
  | .polling _ _ => true
  | .creating => false

/-- The interval. -/
def Timer.isInterval : Timer → Bool
  | .interval _ _ _ => true
  | .timeout _ _ => false

/-- The interval runs only once its last call is answered. -/
def InTime (s : Panel) : Label → Prop
  | .fire t => (s.timers.lookup t).any Timer.isInterval = true →
      ∀ c ∈ s.calls, c.2.isPolling = false
  | _ => True

/-- `InTime`, decided. -/
def inTime (s : Panel) : Label → Bool
  | .fire t => (s.timers.lookup t).any Timer.isInterval = true →
      ∀ c ∈ s.calls, c.2.isPolling = false
  | _ => true

theorem inTime_iff {s : Panel} {l : Label} : inTime s l = true ↔ InTime s l := by
  unfold inTime InTime
  split
  · exact decide_eq_true_iff
  · simp

instance (s : Panel) (l : Label) : Decidable (InTime s l) := decidable_of_iff _ inTime_iff

/-- The server gives every submission an id of its own, and sends the submission that it is
asked for. -/
def Genuine (s : Panel) : Label → Prop
  | .answer c (.ok a) =>
    match s.calls.lookup c with
    | some .creating => a.id ∉ s.created
    | some (.polling submissionId _) => a.id = submissionId
    | none => True
  | _ => True

/-- `Genuine`, decided. -/
def genuine (s : Panel) : Label → Bool
  | .answer c (.ok a) =>
    match s.calls.lookup c with
    | some .creating => a.id ∉ s.created
    | some (.polling submissionId _) => a.id = submissionId
    | none => true
  | _ => true

theorem genuine_iff {s : Panel} {l : Label} : genuine s l = true ↔ Genuine s l := by
  unfold genuine Genuine
  split
  · split <;> simp
  · simp

instance (s : Panel) (l : Label) : Decidable (Genuine s l) := decidable_of_iff _ genuine_iff

namespace Panel

variable {s t : Panel} {p q : Phase} {f : View → View} {a : Answer}

/-! ## The steps -/

/-- The panel is in one phase with at most `n` steps left, and its accounts are in order. -/
def Orderly (s : Panel) (n : Nat) : Prop := ∃ p, s.At p ∧ s.Accounts p ∧ p.left s.polls ≤ n

theorem orderly_init : init.Orderly 0 := by
  have hanswered : init.answered = [] := rfl
  have hpolls : init.polls = [] := rfl
  refine ⟨.idle, ⟨rfl, rfl, rfl, fun _ ↦ ⟨rfl, rfl, rfl⟩⟩, ?_, Nat.le_refl _⟩
  constructor
  case nodup => exact List.nodup_nil
  case ended =>
    rw [hanswered]
    intro a ha
    cases ha
  case polled =>
    rw [hpolls]
    intro id hid
    cases hid
  case bound =>
    rw [hpolls]
    exact fun _ ↦ Nat.zero_le _
  case session =>
    intro σ hσ
    cases hσ
  case waiting =>
    intro t σ hσ
    cases hσ

/-- The interval is started. -/
theorem poll_at (htimers : s.timers = []) (hcalls : s.calls = [])
    (hbuttons : s.mounted = true → s.view.isRunning = false ∧ s.view.isSubmitting = true)
    (id : ObjectId) :
    (s.poll id).At (.waiting s.nextTimer ⟨id, s.now, s.now + pollPeriod⟩) where
  timers := congrArg (List.cons _) htimers
  calls := hcalls
  ref := rfl
  buttons hmounted := ⟨(hbuttons hmounted).1, (hbuttons hmounted).2, rfl⟩

/-- The polling of a new submission begins. -/
theorem orderly_poll (htimers : s.timers = []) (hcalls : s.calls = [])
    (hbuttons : s.mounted = true → s.view.isRunning = false ∧ s.view.isSubmitting = true)
    (ha : s.Accounts .idle) {id : ObjectId} (hid : id ∈ s.created)
    (hopen : ∀ b ∈ s.answered, b.id ≠ id) (hzero : s.polls.count id = 0) :
    (s.poll id).Orderly (2 * maxPolls) :=
  ⟨_, poll_at htimers hcalls hbuttons id, ha.poll hid hopen hzero,
    Nat.mul_le_mul_left _ (Nat.sub_le _ _)⟩

/-- The accounts after the state was set, where the history stays. -/
theorem Accounts.set (h : s.Accounts p)
    (hf : ∀ v, (f v).submissionsHistory = v.submissionsHistory) : (s.set f).Accounts p :=
  h.congr (Nat.le_of_eq set_now.symm) (answered_set hf) set_created set_polls

/-- A demonstration is no submission. -/
theorem answered_demo (kind : Demo) (hf : ∀ v, (f v).submissionsHistory = v.submissionsHistory) :
    (s.set fun v ↦ (f v).record (.demo kind)).answered = s.answered := by
  unfold set
  split
  · exact (List.filterMap_cons_none rfl).trans (congrArg (List.filterMap _) (hf _))
  · rfl

theorem Accounts.demo (h : s.Accounts p) (kind : Demo)
    (hf : ∀ v, (f v).submissionsHistory = v.submissionsHistory) :
    (s.set fun v ↦ (f v).record (.demo kind)).Accounts p :=
  h.congr (Nat.le_of_eq set_now.symm) (answered_demo kind hf) set_created set_polls

theorem Accounts.clearPoll (h : s.Accounts p) : s.clearPoll.Accounts p :=
  h.congr (Nat.le_of_eq clearPoll_now.symm) clearPoll_answered clearPoll_created clearPoll_polls

/-- The end of the component. -/
theorem At.unmounted (h : s.At p) : At { s.clearPoll with mounted := false } p.stopped where
  timers := h.clearPoll_timers
  calls := by
    refine (clearPoll_calls.trans h.calls).trans ?_
    cases p <;> rfl
  ref := h.clearPoll_ref
  buttons := nofun

theorem Accounts.stopped (h : s.Accounts p) : s.Accounts p.stopped := by
  cases p with
  | waiting | asking => exact h.leave rfl
  | _ => exact h

/-- **Step lemma** for the answer to `createSubmission`: the submission is polled, or
everything is over. -/
theorem orderly_submitted (htimers : s.timers = []) (hcalls : s.calls = [])
    (href : s.pollTimerRef = none)
    (hbuttons : s.mounted = true → s.view.isRunning = false ∧ s.view.isSubmitting = true)
    (ha : s.Accounts .idle) {reply : Reply}
    (hgenuine : ∀ a, reply = .ok a → a.id ∉ s.created) :
    (s.submitted reply).Orderly (2 * maxPolls) := by
  cases reply with
  | error e =>
      rw [submitted]
      refine ⟨.idle, At.of_set htimers hcalls href fun hmounted ↦ ?_, ha.demo _ fun _ ↦ rfl,
        Nat.zero_le _⟩
      exact ⟨(hbuttons hmounted).1, rfl, rfl⟩
  | ok a =>
      have hnew := hgenuine a rfl
      have hcreated : Accounts { s with created := a.id :: s.created } .idle := ha.create rfl a.id
      rw [submitted]
      split
      · rename_i hterm
        refine ⟨.idle, At.of_set htimers hcalls href fun hmounted ↦ ?_,
          hcreated.finish hterm (fun _ ↦ ⟨List.mem_cons_self .., ha.not_answered hnew⟩) rfl,
          Nat.zero_le _⟩
        exact ⟨(hbuttons hmounted).1, rfl, rfl⟩
      · refine orderly_poll ?_ ?_ (fun hmounted ↦ ?_) (hcreated.set (by intro _; rfl)) ?_ ?_ ?_
        · rw [set_timers]
          exact htimers
        · rw [set_calls]
          exact hcalls
        · rw [set_mounted] at hmounted
          rw [set_view hmounted]
          exact hbuttons hmounted
        · rw [set_created]
          exact List.mem_cons_self ..
        · rw [answered_set (by intro _; rfl)]
          exact ha.not_answered hnew
        · rw [set_polls]
          exact ha.count_eq_zero hnew

/-- **Step lemma** for the answer to a poll: the next one is waited for, or everything is
over. -/
theorem orderly_polled (h : s.At p) (hp : p.stopped = .idle) (hr : p.isRunning = false)
    (ha : s.Accounts .idle) {startTime : Time}
    (hgo : s.now - startTime ≤ pollTimeout → s.Accounts p) {reply : Reply}
    (hgenuine : ∀ a, reply = .ok a → s.mounted = true →
      a.id ∈ s.created ∧ ∀ b ∈ s.answered, b.id ≠ a.id) :
    (s.polled startTime reply).Orderly (p.left s.polls) := by
  cases reply with
  | error message =>
      rw [polled]
      exact ⟨.idle, h.stop hp hr fun _ ↦ ⟨rfl, rfl⟩, ha.clearPoll.set (by intro _; rfl),
        Nat.zero_le _⟩
  | ok a =>
      rw [polled]
      split
      · rename_i hterm
        refine ⟨.idle, h.stop hp hr fun _ ↦ ⟨rfl, rfl⟩, ha.clearPoll.finish hterm ?_ rfl,
          Nat.zero_le _⟩
        rw [clearPoll_mounted, clearPoll_created, clearPoll_answered]
        exact hgenuine a rfl
      · have hshown := h.set (f := fun v ↦ { v.showResult (.answer a) with
            statusMessage := if a.record.status = .running then "Running test cases..."
              else v.statusMessage }) (fun _ ↦ rfl) fun _ ↦ rfl
        simp only [set_now]
        split
        · exact ⟨.idle, hshown.stop hp hr fun _ ↦ ⟨rfl, rfl⟩,
            ((ha.set (by intro _; rfl)).clearPoll).set (by intro _; rfl), Nat.zero_le _⟩
        · rename_i hin
          refine ⟨p, hshown, (hgo (Nat.le_of_not_lt hin)).set (by intro _; rfl), ?_⟩
          rw [set_polls]

/-- **Step lemma** for the run of the interval. -/
theorem orderly_fire {t : TimerId} {σ : Session} (h : s.At (.waiting t σ))
    (ha : s.Accounts (.waiting t σ)) :
    (s.fire t σ.timer).Orderly (2 * (maxPolls - s.polls.count σ.submissionId) - 1) := by
  obtain ⟨hid, hopen, htime, hdue⟩ := ha.session σ rfl
  have hcount := ha.waiting t σ rfl
  have hself : (σ.submissionId :: s.polls).count σ.submissionId =
      s.polls.count σ.submissionId + 1 := List.count_cons_self
  refine ⟨.asking t ⟨σ.submissionId, σ.startTime, s.now.max σ.due + pollPeriod⟩ s.nextCall,
    ?_, ?_, ?_⟩
  · constructor
    case timers => simp [fire, Session.timer, call, h.timers, Phase.timers]
    case calls => simp [fire, Session.timer, call, h.calls, Phase.calls]
    case ref => exact h.ref
    case buttons => exact fun hmounted ↦ h.buttons hmounted
  · constructor
    case nodup => exact ha.nodup
    case ended => exact ha.ended
    case polled =>
      intro id hmem
      rcases List.mem_cons.mp hmem with rfl | hmem
      · exact hid
      · exact ha.polled id hmem
    case bound =>
      intro id
      change (σ.submissionId :: s.polls).count id ≤ maxPolls
      by_cases hσ : id = σ.submissionId
      · subst hσ
        rw [hself]
        exact hcount
      · rw [List.count_cons_of_ne (Ne.symm hσ)]
        exact ha.bound id
    case session =>
      rintro ρ ⟨⟩
      have hmax : σ.due ≤ s.now.max σ.due := Nat.le_max_right ..
      refine ⟨hid, hopen, ?_, ?_⟩
      · change σ.startTime + pollPeriod * (σ.submissionId :: s.polls).count σ.submissionId ≤
          s.now.max σ.due
        rw [hself]
        exact Nat.le_trans hdue hmax
      · change σ.startTime + pollPeriod * ((σ.submissionId :: s.polls).count σ.submissionId + 1) ≤
          s.now.max σ.due + pollPeriod
        rw [hself, Nat.mul_add pollPeriod (_ + 1), Nat.mul_one, ← Nat.add_assoc]
        exact Nat.add_le_add_right (Nat.le_trans hdue hmax) _
    case waiting =>
      intro t σ hσ
      cases hσ
  · change 2 * (maxPolls - (σ.submissionId :: s.polls).count σ.submissionId) + 1 ≤ _
    rw [hself]
    omega

/-- **Step lemma** for the run of a timeout: its demonstration is shown, and everything is
over. -/
theorem orderly_timeout {t : TimerId} {kind : Demo} {due : Time} (hk : kind ≠ .fallback)
    (htimers : s.timers = [(t, .timeout kind due)]) (hcalls : s.calls = [])
    (href : s.pollTimerRef = none)
    (hbuttons : s.mounted = true →
      s.view.isRunning = decide (kind = .run) ∧ s.view.isSubmitting = decide (kind ≠ .run))
    (ha : s.Accounts .idle) : (s.fire t (.timeout kind due)).Orderly 0 := by
  have hcleared : ({ s with now := s.now.max due }.clear t).timers = [] := by
    simp [clear, htimers]
  have haccounts : ({ s with now := s.now.max due }.clear t).Accounts .idle :=
    ha.congr (Nat.le_max_left ..) rfl rfl rfl
  cases kind with
  | run =>
      rw [fire]
      refine ⟨.idle, At.of_set hcleared hcalls href fun hmounted ↦ ?_,
        haccounts.set (by intro _; rfl), Nat.zero_le _⟩
      exact ⟨rfl, (hbuttons hmounted).2, rfl⟩
  | anonymous =>
      simp only [fire]
      refine ⟨.idle, At.of_set hcleared hcalls href fun hmounted ↦ ?_,
        haccounts.demo _ (by intro _; rfl), Nat.zero_le _⟩
      exact ⟨(hbuttons hmounted).1, rfl, rfl⟩
  | fallback => exact absurd rfl hk

theorem mem_of_lookup {α : Type} {xs : List (Nat × α)} {k : Nat} {x : α}
    (h : xs.lookup k = some x) : (k, x) ∈ xs := by
  obtain ⟨ys, zs, rfl, -⟩ := List.lookup_eq_some_iff.mp h
  exact List.mem_append_right _ (List.mem_cons_self ..)

/-- `createSubmission` is called. -/
theorem orderly_call (htimers : s.timers = []) (hcalls : s.calls = [])
    (href : s.pollTimerRef = none)
    (hbuttons : s.mounted = true → s.view.isRunning = false ∧ s.view.isSubmitting = true)
    (ha : s.Accounts .idle) : (s.call .creating).Orderly (2 * maxPolls + 1) := by
  refine ⟨.creating s.nextCall, ?_, (ha.leave rfl).congr (Nat.le_refl _) rfl rfl rfl,
    Nat.le_refl _⟩
  exact ⟨htimers, congrArg (List.cons _) hcalls, href,
    fun hmounted ↦ ⟨(hbuttons hmounted).1, (hbuttons hmounted).2, rfl⟩⟩

/-- A demonstration is awaited. -/
theorem orderly_start {kind : Demo} {due : Time} (hk : kind ≠ .fallback)
    (htimers : s.timers = []) (hcalls : s.calls = []) (href : s.pollTimerRef = none)
    (hbuttons : s.mounted = true →
      s.view.isRunning = decide (kind = .run) ∧ s.view.isSubmitting = decide (kind ≠ .run))
    (ha : s.Accounts .idle) : (s.start (.timeout kind due)).Orderly (2 * maxPolls + 1) := by
  cases kind with
  | run =>
      refine ⟨.running s.nextTimer due, ?_, (ha.leave rfl).congr (Nat.le_refl _) rfl rfl rfl,
        Nat.succ_le_succ (Nat.zero_le _)⟩
      exact ⟨congrArg (List.cons _) htimers, hcalls, href,
        fun hmounted ↦ ⟨(hbuttons hmounted).1, (hbuttons hmounted).2, rfl⟩⟩
  | anonymous =>
      refine ⟨.anonymous s.nextTimer due, ?_, (ha.leave rfl).congr (Nat.le_refl _) rfl rfl rfl,
        Nat.succ_le_succ (Nat.zero_le _)⟩
      exact ⟨congrArg (List.cons _) htimers, hcalls, href,
        fun hmounted ↦ ⟨(hbuttons hmounted).1, (hbuttons hmounted).2, rfl⟩⟩
  | fallback => exact absurd rfl hk

/-- A click on Submit where nothing goes on. -/
theorem orderly_handleSubmit (h : s.At .idle) (ha : s.Accounts .idle) (sourceCode : JsString)
    (loggedIn : Bool) : (s.handleSubmit sourceCode loggedIn).Orderly (2 * maxPolls + 1) := by
  unfold handleSubmit
  split
  · exact ⟨.idle, h.set (by intro _; rfl) (by intro _; rfl), ha.set (by intro _; rfl),
      Nat.zero_le _⟩
  · -- The panel with its message, whatever comes next.
    obtain ⟨r, hr⟩ : ∃ r, r = s.clearPoll.set fun v ↦ { v with
      isSubmitting := true
      submitError := none
      statusMessage := "Submitting code to judge..."
      submissionResult := none } := ⟨_, rfl⟩
    have hra : r.Accounts .idle := by
      rw [hr]
      exact ha.clearPoll.set (by intro _; rfl)
    have htimers : r.timers = [] := by
      rw [hr, set_timers]
      exact h.clearPoll_timers
    have hcalls : r.calls = [] := by
      rw [hr, set_calls, clearPoll_calls]
      exact h.calls
    have href : r.pollTimerRef = none := by
      rw [hr, set_ref]
      exact h.clearPoll_ref
    have hbuttons : r.mounted = true → r.view.isRunning = false ∧ r.view.isSubmitting = true := by
      intro hmounted
      rw [hr, set_mounted, clearPoll_mounted] at hmounted
      rw [hr, set_view (clearPoll_mounted.trans hmounted), clearPoll_view]
      exact ⟨(h.buttons hmounted).1, rfl⟩
    rw [← hr]
    cases loggedIn with
    | true => exact orderly_call htimers hcalls href hbuttons hra
    | false => exact orderly_start (by decide) htimers hcalls href hbuttons hra

/-- A click on Run where nothing goes on. -/
theorem orderly_handleRun (h : s.At .idle) (ha : s.Accounts .idle) :
    s.handleRun.Orderly (2 * maxPolls + 1) := by
  refine orderly_start (by decide) (set_timers.trans h.timers) (set_calls.trans h.calls)
    (set_ref.trans h.ref) (fun hmounted ↦ ?_) (ha.set (by intro _; rfl))
  rw [set_mounted] at hmounted
  rw [set_view hmounted]
  exact ⟨rfl, (h.buttons hmounted).2.1⟩

/-- A timer that runs has a step left. -/
theorem At.left_pos (h : s.At p) (ha : s.Accounts p) (hbusy : s.timers ≠ [] ∨ s.calls ≠ []) :
    0 < p.left s.polls := by
  rw [h.timers, h.calls] at hbusy
  cases p with
  | idle => exact absurd rfl (hbusy.resolve_right fun hne ↦ hne rfl)
  | waiting t σ =>
      have hcount := ha.waiting t σ rfl
      change 0 < 2 * (maxPolls - s.polls.count σ.submissionId)
      omega
  | running | anonymous | abandoned | creating | asking => exact Nat.succ_pos _

/-- **Step lemma** for the timers. -/
theorem At.orderly_fire (h : s.At p) (ha : s.Accounts p) {t : TimerId} {timer : Timer}
    (hok : InTime s (.fire t)) (ht : s.timers.lookup t = some timer) :
    (s.fire t timer).Orderly (p.left s.polls - 1) := by
  have hmem := mem_of_lookup ht
  rw [h.timers] at hmem
  cases p with
  | idle | creating | abandoned => cases hmem
  | running t' due =>
      obtain ⟨rfl, rfl⟩ := Prod.mk.inj (List.mem_singleton.mp hmem)
      exact orderly_timeout (by decide) h.timers h.calls h.ref
        (fun hmounted ↦ ⟨(h.buttons hmounted).1, (h.buttons hmounted).2.1⟩) (ha.leave rfl)
  | anonymous t' due =>
      obtain ⟨rfl, rfl⟩ := Prod.mk.inj (List.mem_singleton.mp hmem)
      exact orderly_timeout (by decide) h.timers h.calls h.ref
        (fun hmounted ↦ ⟨(h.buttons hmounted).1, (h.buttons hmounted).2.1⟩) (ha.leave rfl)
  | waiting t' σ =>
      obtain ⟨rfl, rfl⟩ := Prod.mk.inj (List.mem_singleton.mp hmem)
      exact Panel.orderly_fire h ha
  | asking t' σ c =>
      obtain ⟨rfl, rfl⟩ := Prod.mk.inj (List.mem_singleton.mp hmem)
      have hbusy := hok (by rw [ht]; rfl) (c, .polling σ.submissionId σ.startTime)
        (by rw [h.calls]; exact List.mem_cons_self ..)
      cases hbusy

/-- Each poll takes a period, so there are not many within the timeout. -/
theorem lt_maxPolls {now start n : Nat} (hin : now - start ≤ pollTimeout)
    (htime : start + pollPeriod * n ≤ now) : n < maxPolls := by
  change now - start ≤ 25000 at hin
  change start + 1200 * n ≤ now at htime
  change n < 21
  omega

/-- **Step lemma** for the answers. -/
theorem At.orderly_answer (h : s.At p) (ha : s.Accounts p) {c : CallId} {reply : Reply}
    {call : Call} (hok : Genuine s (.answer c reply)) (hc : s.calls.lookup c = some call) :
    (s.answer c reply call).Orderly (p.left s.polls - 1) := by
  have hmem := mem_of_lookup hc
  rw [h.calls] at hmem
  let r : Panel := { s with calls := s.calls.filter fun y ↦ y.1 ≠ c }
  have hrest : ∀ {x}, s.calls = [(c, x)] → s.calls.filter (fun y ↦ y.1 ≠ c) = [] := by
    intro x hx
    simp [hx]
  cases p with
  | idle | running | anonymous | waiting => cases hmem
  | creating c' =>
      obtain ⟨rfl, rfl⟩ := Prod.mk.inj (List.mem_singleton.mp hmem)
      refine orderly_submitted (s := r) h.timers (hrest h.calls) h.ref
        (fun hmounted ↦ ⟨(h.buttons hmounted).1, (h.buttons hmounted).2.1⟩)
        ((ha.leave rfl).congr (Nat.le_refl _) rfl rfl rfl) fun a hreply ↦ ?_
      subst hreply
      simpa [Genuine, hc] using hok
  | asking t σ c' =>
      obtain ⟨rfl, rfl⟩ := Prod.mk.inj (List.mem_singleton.mp hmem)
      obtain ⟨hid, hopen, htime, hdue⟩ := ha.session σ rfl
      refine orderly_polled (s := r) (p := .waiting t σ)
        ⟨h.timers, hrest h.calls, h.ref, fun hmounted ↦
          ⟨(h.buttons hmounted).1, (h.buttons hmounted).2.1, rfl⟩⟩ rfl rfl
        ((ha.leave rfl).congr (Nat.le_refl _) rfl rfl rfl) (fun hin ↦ ?_) fun a hreply _ ↦ ?_
      · refine ⟨ha.nodup, ha.ended, ha.polled, ha.bound, fun ρ hρ ↦ ha.session ρ hρ, ?_⟩
        rintro _ _ ⟨⟩
        exact lt_maxPolls hin htime
      · subst hreply
        have hsame : a.id = σ.submissionId := by simpa [Genuine, hc] using hok
        rw [hsame]
        exact ⟨hid, hopen⟩
  | abandoned c' id start =>
      obtain ⟨rfl, rfl⟩ := Prod.mk.inj (List.mem_singleton.mp hmem)
      have hunmounted : s.mounted ≠ true := fun hmounted ↦ by cases (h.buttons hmounted).2.2
      exact orderly_polled (s := r) (p := .idle) ⟨h.timers, hrest h.calls, h.ref,
        fun hmounted ↦ absurd hmounted hunmounted⟩ rfl rfl
        ((ha.leave rfl).congr (Nat.le_refl _) rfl rfl rfl)
        (fun _ ↦ (ha.leave rfl).congr (Nat.le_refl _) rfl rfl rfl)
        fun _ _ hmounted ↦ absurd hmounted hunmounted

/-- **Step lemma.** -/
theorem Orderly.step {l : Label} {n : Nat} (h : s.Orderly n) (hok : InTime s l)
    (hgenuine : Genuine s l) (hstep : s.step l = some t) : ∃ m, t.Orderly m := by
  obtain ⟨p, hp, ha, -⟩ := h
  cases l with
  | wait d =>
      cases hstep
      exact ⟨_, p, ⟨hp.timers, hp.calls, hp.ref, hp.buttons⟩,
        ha.congr (Nat.le_add_right ..) rfl rfl rfl, Nat.le_refl _⟩
  | run =>
      simp only [Panel.step] at hstep
      split at hstep <;> cases hstep
      obtain rfl := hp.idle_of_enabled ‹_›
      exact ⟨_, orderly_handleRun hp ha⟩
  | submit sourceCode loggedIn =>
      simp only [Panel.step] at hstep
      split at hstep <;> cases hstep
      obtain rfl := hp.idle_of_enabled ‹_›
      exact ⟨_, orderly_handleSubmit hp ha sourceCode loggedIn⟩
  | fire t =>
      obtain ⟨timer, ht, rfl⟩ := Option.map_eq_some_iff.mp hstep
      exact ⟨_, hp.orderly_fire ha hok ht⟩
  | answer c reply =>
      obtain ⟨call, hc, rfl⟩ := Option.map_eq_some_iff.mp hstep
      exact ⟨_, hp.orderly_answer ha hgenuine hc⟩
  | load =>
      cases hstep
      exact ⟨_, p, hp.set (by intro _; rfl) (by intro _; rfl), ha.set (by intro _; rfl),
        Nat.le_refl _⟩
  | unmount =>
      simp only [Panel.step] at hstep
      split at hstep <;> cases hstep
      exact ⟨_, p.stopped, hp.unmounted, (ha.stopped).clearPoll.congr (Nat.le_refl _) rfl rfl rfl,
        Nat.le_refl _⟩

end Panel

/-! ## The panel in time -/

theorem orderly_of_reachable {s : Panel}
    (h : panel.Reachable (fun s l ↦ InTime s l ∧ Genuine s l) s) : ∃ n, s.Orderly n := by
  refine h.invariant (I := fun s ↦ ∃ n, s.Orderly n) ⟨0, Panel.orderly_init⟩ ?_
  intro r l t hr hl hstep
  obtain ⟨n, hn⟩ := hr
  exact hn.step hl.1 hl.2 hstep

/-- **Polling in order.**  Where every poll is answered before the next is made, and the server
answers for the submission that it is asked for, no submission is recorded twice, and none
before it is completed or failed; none is polled more than `maxPolls` times; and where the
buttons are enabled no timer runs, no call is in flight, and no interval is left to be
cleared. -/
theorem polling_in_order {s : Panel}
    (h : panel.Reachable (fun s l ↦ InTime s l ∧ Genuine s l) s) :
    (s.answered.map Answer.id).Nodup ∧
      (∀ a ∈ s.answered, a.record.status.terminal = true ∧ a.id ∈ s.created) ∧
      (∀ id, s.polls.count id ≤ maxPolls) ∧
      (s.Enabled → s.timers = [] ∧ s.calls = [] ∧ s.pollTimerRef = none) := by
  obtain ⟨_, p, hp, ha, -⟩ := orderly_of_reachable h
  refine ⟨ha.nodup, ha.ended, ha.bound, fun henabled ↦ ?_⟩
  obtain rfl := hp.idle_of_enabled henabled
  exact ⟨hp.timers, hp.calls, hp.ref⟩

/-! ### Sample runs -/

/-- The submission of the sample runs, as it is created. -/
def queuedAnswer : Answer := ⟨7, (Submission.create ⟨1, 2, "PYTHON", [112]⟩).queue 0⟩

/-- The submission of the sample runs, judged. -/
def judgedAnswer : Answer :=
  ⟨7, { queuedAnswer.record with status := .completed, verdict := .accepted }⟩

/-- A submission that is judged between its first poll and its second. -/
def Label.judged : List Label :=
  [.submit [112] true, .answer 0 (.ok queuedAnswer), .fire 1, .answer 1 (.ok queuedAnswer), .fire 1,
    .answer 2 (.ok judgedAnswer)]

/-- A submission that is judged, with its polls in time. -/
theorem polling_in_order_judged : ∃ s,
    panel.Run (fun s l ↦ InTime s l ∧ Genuine s l) Panel.init Label.judged s ∧
      s.answered = [judgedAnswer] ∧ s.timers = [] ∧ s.calls = [] := by
  obtain ⟨s, hs, hP⟩ := panel.exists_run_of_exec (fun s l ↦ InTime s l ∧ Genuine s l) Panel.init
    Label.judged (fun s ↦ decide (s.Enabled ∧ s.answered = [judgedAnswer])) (by decide)
  obtain ⟨henabled, hanswered⟩ := of_decide_eq_true hP
  obtain ⟨-, -, -, hidle⟩ := polling_in_order ⟨_, hs⟩
  obtain ⟨htimers, hcalls, -⟩ := hidle henabled
  exact ⟨s, hs, hanswered, htimers, hcalls⟩

/-- A submission whose second poll is made before the first is answered, both after it was
judged. -/
def Label.overlapping : List Label :=
  [.submit [112] true, .answer 0 (.ok queuedAnswer), .fire 1, .fire 1, .answer 1 (.ok judgedAnswer),
    .answer 2 (.ok judgedAnswer)]

/-- Where polls overlap, a submission is listed twice. -/
theorem listed_twice : ∃ s,
    panel.Run Genuine Panel.init Label.overlapping s ∧ ¬ (s.answered.map Answer.id).Nodup := by
  obtain ⟨s, hs, hP⟩ := panel.exists_run_of_exec Genuine Panel.init Label.overlapping
    (fun s ↦ decide (s.answered = [judgedAnswer, judgedAnswer])) (by decide)
  refine ⟨s, hs, ?_⟩
  rw [of_decide_eq_true hP]
  simp

end CodeArena.Client
