import CodeArena.Client.Polling
import CodeArena.Lib.Liveness

/-!
# The panel comes to rest

A click starts a bounded amount of work, whatever the server answers: a demonstration takes
one step, a submission at most a call of `createSubmission` and `maxPolls` polls of two steps
each.  So a panel whose timers run and whose calls are answered gives its buttons back.
-/

namespace CodeArena.Client

open CodeArena.Lib
open CodeArena.Lib.Machine (weight weight_nil weight_cons)
open CodeArena.Submissions (ObjectId)

/-! ## The work that is left -/

/-- The steps that a timer brings about. -/
def Timer.left (polls : List ObjectId) : Timer → Nat
  | .interval submissionId _ _ => 2 * (maxPolls - polls.count submissionId)
  | .timeout _ _ => 1

/-- The steps that a call brings about. -/
def Call.left : Call → Nat
  | .creating => 2 * maxPolls + 1
  | .polling _ _ => 1

/-- The steps of timers and calls, and of the end of the component. -/
def Panel.left (s : Panel) : Nat :=
  weight (fun x ↦ x.2.left s.polls) s.timers + weight (fun x ↦ x.2.left) s.calls +
    if s.mounted then 1 else 0

/-- The clicks. -/
def Label.isClick : Label → Bool
  | .run | .submit _ _ => true
  | _ => false

/-- The steps of timers and calls. -/
def Label.works : Label → Bool
  | .fire _ | .answer _ _ => true
  | _ => false

/-- What a step costs: one, where it is not free. -/
def Label.cost : Label → Nat
  | .fire _ | .answer _ _ | .unmount => 1
  | _ => 0

/-- What a click starts. -/
def clickSteps : Nat := 2 * maxPolls + 1

/-- What a step gives: the work of a click. -/
def Label.credit (l : Label) : Nat := if l.isClick then clickSteps else 0

namespace Panel

variable {s t : Panel} {p : Phase} {l : Label} {n : Nat}

/-- A panel in a phase has the steps of its phase left. -/
theorem At.left_eq (h : s.At p) :
    s.left = p.left s.polls + if s.mounted then 1 else 0 := by
  unfold left
  rw [h.timers, h.calls]
  cases p <;> simp [Phase.timers, Phase.calls, Phase.left, Timer.left, Call.left, Session.timer]

theorem Orderly.left_le (h : s.Orderly n) : s.left ≤ n + if s.mounted then 1 else 0 := by
  obtain ⟨p, hp, -, hle⟩ := h
  rw [hp.left_eq]
  exact Nat.add_le_add_right hle _

/-! ### Only the end of the component unmounts it -/

theorem mounted_handleSubmit (sourceCode : Utf.JsString) (loggedIn : Bool) :
    (s.handleSubmit sourceCode loggedIn).mounted = s.mounted := by
  unfold handleSubmit
  split
  · exact set_mounted
  · cases loggedIn
    · exact set_mounted.trans clearPoll_mounted
    · exact set_mounted.trans clearPoll_mounted

theorem mounted_submitted (reply : Reply) : (s.submitted reply).mounted = s.mounted := by
  cases reply with
  | error => exact set_mounted
  | ok a =>
      rw [submitted]
      split <;> exact set_mounted

theorem mounted_polled (startTime : Time) (reply : Reply) :
    (s.polled startTime reply).mounted = s.mounted := by
  cases reply with
  | error => exact set_mounted.trans clearPoll_mounted
  | ok a =>
      rw [polled]
      split
      · exact set_mounted.trans clearPoll_mounted
      · simp only [set_now]
        split
        · exact set_mounted.trans (clearPoll_mounted.trans set_mounted)
        · exact set_mounted

theorem mounted_fire (i : TimerId) (timer : Timer) : (s.fire i timer).mounted = s.mounted := by
  cases timer with
  | interval => rfl
  | timeout kind => cases kind <;> exact set_mounted

theorem mounted_answer (c : CallId) (reply : Reply) (call : Call) :
    (s.answer c reply call).mounted = s.mounted := by
  cases call with
  | creating => exact mounted_submitted reply
  | polling => exact mounted_polled _ reply

/-! ### The steps -/

/-- **Step lemma.**  Timers, calls and the end of the component take what is left, and a click
gives it. -/
theorem Orderly.left_step (h : s.Orderly n) (hok : InTime s l) (hgenuine : Genuine s l)
    (hstep : s.step l = some t) : t.left + l.cost ≤ s.left + l.credit := by
  obtain ⟨p, hp, ha, -⟩ := h
  have hs := hp.left_eq
  cases l with
  | wait d =>
      cases hstep
      exact Nat.le_refl _
  | run =>
      simp only [Panel.step] at hstep
      split at hstep <;> cases hstep
      obtain rfl := hp.idle_of_enabled ‹_›
      have ht := (orderly_handleRun hp ha).left_le
      have hm : s.handleRun.mounted = s.mounted := set_mounted
      rw [hm] at ht
      change _ + 0 ≤ _ + clickSteps
      change s.left = 0 + _ at hs
      change _ ≤ clickSteps + _ at ht
      omega
  | submit sourceCode loggedIn =>
      simp only [Panel.step] at hstep
      split at hstep <;> cases hstep
      obtain rfl := hp.idle_of_enabled ‹_›
      have ht := (orderly_handleSubmit hp ha sourceCode loggedIn).left_le
      rw [mounted_handleSubmit] at ht
      change _ + 0 ≤ _ + clickSteps
      change s.left = 0 + _ at hs
      change _ ≤ clickSteps + _ at ht
      omega
  | fire i =>
      obtain ⟨timer, hi, rfl⟩ := Option.map_eq_some_iff.mp hstep
      have ht := (hp.orderly_fire ha hok hi).left_le
      have hpos := hp.left_pos ha (.inl (List.ne_nil_of_mem (mem_of_lookup hi)))
      rw [mounted_fire] at ht
      change _ + 1 ≤ _ + 0
      omega
  | answer c reply =>
      obtain ⟨call, hc, rfl⟩ := Option.map_eq_some_iff.mp hstep
      have ht := (hp.orderly_answer ha hgenuine hc).left_le
      have hpos := hp.left_pos ha (.inr (List.ne_nil_of_mem (mem_of_lookup hc)))
      rw [mounted_answer] at ht
      change _ + 1 ≤ _ + 0
      omega
  | load =>
      cases hstep
      unfold left
      rw [set_timers, set_calls, set_mounted, set_polls]
      exact Nat.le_refl _
  | unmount =>
      simp only [Panel.step] at hstep
      split at hstep <;> cases hstep
      rename_i hm
      have hle : p.stopped.left s.polls ≤ p.left s.polls := by
        cases p with
        | waiting => exact Nat.zero_le _
        | asking => exact Nat.le_add_left _ _
        | _ => exact Nat.le_refl _
      have ht : Panel.left { s.clearPoll with mounted := false } = p.stopped.left s.polls := by
        rw [hp.unmounted.left_eq]
        change p.stopped.left s.clearPoll.polls + 0 = _
        rw [clearPoll_polls, Nat.add_zero]
      rw [if_pos hm] at hs
      change Panel.left { s.clearPoll with mounted := false } + 1 ≤ _ + 0
      omega

/-- Where nothing goes on, a panel that is there has its buttons. -/
theorem At.enabled (h : s.At .idle) (hmounted : s.mounted = true) : s.Enabled :=
  ⟨hmounted, (h.buttons hmounted).1, (h.buttons hmounted).2.1⟩

theorem At.idle_of_rest (h : s.At p) (ht : s.timers = []) (hc : s.calls = []) : p = .idle := by
  rw [h.timers] at ht
  rw [h.calls] at hc
  cases p with
  | idle => rfl
  | creating | abandoned => cases hc
  | _ => cases ht

/-- While something goes on, a timer or a call moves. -/
theorem At.offers (h : s.At p) (hbusy : s.timers ≠ [] ∨ s.calls ≠ []) :
    panel.Offers (fun s l ↦ (InTime s l ∧ Genuine s l) ∧ l.works = true) s := by
  rw [h.timers, h.calls] at hbusy
  have hanswer : ∀ c x, s.calls = [(c, x)] →
      panel.Offers (fun s l ↦ (InTime s l ∧ Genuine s l) ∧ l.works = true) s := fun c x hx ↦
    ⟨.answer c (.error ""), s.answer c (.error "") x, ⟨⟨trivial, trivial⟩, rfl⟩, by
      change (s.calls.lookup c).map _ = _
      rw [hx, List.lookup_cons_self]
      rfl⟩
  have hfire : ∀ i x, s.timers = [(i, x)] → s.calls = [] →
      panel.Offers (fun s l ↦ (InTime s l ∧ Genuine s l) ∧ l.works = true) s := fun i x hx hc ↦
    ⟨.fire i, s.fire i x, ⟨⟨fun _ c hmem ↦ absurd hmem (by simp [hc]), trivial⟩, rfl⟩, by
      change (s.timers.lookup i).map _ = _
      rw [hx, List.lookup_cons_self]
      rfl⟩
  cases p with
  | idle => exact absurd rfl (hbusy.resolve_right fun hne ↦ hne rfl)
  | running | anonymous | waiting => exact hfire _ _ h.timers h.calls
  | creating | asking | abandoned => exact hanswer _ _ h.calls

/-- A free step ends neither a timer nor a call. -/
theorem busy_of_free (hbusy : ¬ (s.timers = [] ∧ s.calls = [])) (hfree : l.cost = 0)
    (hstep : s.step l = some t) : ¬ (t.timers = [] ∧ t.calls = []) := by
  cases l with
  | fire | answer | unmount => cases hfree
  | wait =>
      cases hstep
      exact hbusy
  | load =>
      cases hstep
      rw [set_timers, set_calls]
      exact hbusy
  | run =>
      simp only [Panel.step] at hstep
      split at hstep <;> cases hstep
      exact fun h ↦ by cases h.1
  | submit sourceCode loggedIn =>
      simp only [Panel.step] at hstep
      split at hstep <;> cases hstep
      unfold handleSubmit
      split
      · rw [set_timers, set_calls]
        exact hbusy
      · cases loggedIn with
        | true => exact fun h ↦ by cases h.2
        | false => exact fun h ↦ by cases h.1

end Panel

/-- What is left is a potential of a panel in time. -/
theorem left_potential :
    panel.Potential (fun s l ↦ InTime s l ∧ Genuine s l) (fun s ↦ ∃ n, s.Orderly n) Panel.left
      Label.cost Label.credit := by
  intro s l t hs hl hstep
  obtain ⟨n, hn⟩ := hs
  exact ⟨hn.step hl.1 hl.2 hstep, hn.left_step hl.1 hl.2 hstep⟩

/-- **The panel comes to rest.**  Let every poll be answered before the next is made, let the
server answer for the submission that it is asked for, and let timers run and calls be answered
as long as there are any.  Then from some point after the last click on nothing goes on, and a
panel that is still there has its buttons. -/
theorem panel_comes_to_rest (τ : panel.Trace fun s l ↦ InTime s l ∧ Genuine s l)
    (hinit : τ.state 0 = Panel.init)
    (fair : τ.WeaklyFair fun s l ↦ (InTime s l ∧ Genuine s l) ∧ l.works = true) {n : Nat}
    (hclicks : ∀ m, n ≤ m → (τ.label m).isClick = false) :
    ∃ N, ∀ m, N ≤ m → (τ.state m).timers = [] ∧ (τ.state m).calls = [] ∧
      ((τ.state m).mounted = true → (τ.state m).Enabled) := by
  have horderly : ∃ k, (τ.state n).Orderly k := orderly_of_reachable (τ.reachable hinit n)
  have hsettles : ∃ N, n ≤ N ∧
      ∀ m, N ≤ m → (τ.state m).timers = [] ∧ (τ.state m).calls = [] := by
    refine τ.settles (P := fun s ↦ s.timers = [] ∧ s.calls = []) fair left_potential
      (fun s l hl ↦ ?_) (fun s hs hbusy ↦ ?_)
      (fun s l t hbusy hfree hstep ↦ Panel.busy_of_free hbusy hfree hstep) horderly
      (fun m hm ↦ ?_)
    · -- Timers and calls are not free.
      obtain ⟨-, hworks⟩ := hl
      cases l <;> first | exact Nat.one_ne_zero | cases hworks
    · obtain ⟨_, p, hp, -, -⟩ := hs
      refine hp.offers ?_
      by_contra hc
      exact hbusy ⟨by_contra fun ht ↦ hc (.inl ht), by_contra fun hcalls ↦ hc (.inr hcalls)⟩
    · rw [Label.credit, hclicks m hm]
      exact if_neg Bool.false_ne_true
  obtain ⟨N, -, hrest⟩ := hsettles
  refine ⟨N, fun m hm ↦ ⟨(hrest m hm).1, (hrest m hm).2, ?_⟩⟩
  obtain ⟨_, p, hp, -, -⟩ := orderly_of_reachable (τ.reachable hinit m)
  obtain rfl := hp.idle_of_rest (hrest m hm).1 (hrest m hm).2
  exact hp.enabled

/-- A panel at rest offers nothing. -/
theorem not_offers {s : Panel} (ht : s.timers = []) (hc : s.calls = []) :
    ¬ panel.Offers (fun s l ↦ (InTime s l ∧ Genuine s l) ∧ l.works = true) s := by
  rintro ⟨l, t, ⟨-, hworks⟩, hstep⟩
  cases l with
  | fire i =>
      obtain ⟨timer, hi, -⟩ := Option.map_eq_some_iff.mp hstep
      rw [ht] at hi
      cases hi
  | answer c reply =>
      obtain ⟨call, hi, -⟩ := Option.map_eq_some_iff.mp hstep
      rw [hc] at hi
      cases hi
  | _ => cases hworks

/-- A submission that is judged, and its panel at rest. -/
theorem panel_comes_to_rest_judged :
    ∃ τ : panel.Trace fun s l ↦ InTime s l ∧ Genuine s l, τ.state 0 = Panel.init ∧
      ∃ N, ∀ m, N ≤ m → (τ.state m).timers = [] ∧ (τ.state m).calls = [] := by
  obtain ⟨s, hs, hP⟩ := panel.exists_run_of_exec (fun s l ↦ InTime s l ∧ Genuine s l) Panel.init
    Label.judged (fun s ↦ decide (s.timers = [] ∧ s.calls = [])) (by decide)
  obtain ⟨ht, hc⟩ := of_decide_eq_true hP
  have hwait : InTime s (.wait 0) ∧ Genuine s (.wait 0) := ⟨trivial, trivial⟩
  obtain ⟨τ, hinit, fair, hend⟩ := hs.fairTrace hwait rfl (not_offers ht hc)
  obtain ⟨N, hN⟩ := panel_comes_to_rest τ hinit fair (n := Label.judged.length)
    fun m hm ↦ by rw [(hend m hm).2]; rfl
  exact ⟨τ, hinit, N, fun m hm ↦ ⟨(hN m hm).1, (hN m hm).2.1⟩⟩

end CodeArena.Client
