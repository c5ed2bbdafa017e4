import CodeArena.Client.Polling
import CodeArena.Submissions.System

/-!
# The panel and its servers

The panel together with API, queue and workers, as one machine.  Every submission has its own
`Submissions.State`, and an answer carries what the database held after some write: a poll
reads the record, and its answer may arrive when the record has changed since.

What the world does with a panel is what the panel was assumed to meet: its answers are
`Genuine` (`World.panel_reachable`).  And what a panel shows of submissions is what the
database has held of them (`World.shows_of_reachable`).
-/

namespace CodeArena.Client

open CodeArena.Lib
open CodeArena.Submissions (Config ObjectId State Submission)

/-! ## The machine -/

/-- The panel, and the state of each submission. -/
structure World where
  panel : Panel
  servers : ObjectId → State

/-- Who moves. -/
inductive Move where
  /-- A step of the panel in which no submission arrives. -/
  | panel (l : Label)
  /-- The call `c` is answered with what the submission was after its last write but `n`. -/
  | reply (c : CallId) (id : ObjectId) (n : Nat)
  /-- A step of API, queue and workers. -/
  | server (id : ObjectId) (l : Submissions.Label)

/-- The answers with a submission in them. -/
def Label.isReply : Label → Bool
  | .answer _ (.ok _) => true
  | _ => false

namespace World

/-- Whether the call `c` is answered with the submission `id`: `createSubmission` with the one
that it made, once it has returned, `getSubmissionById` with the one that it asked for. -/
def replies (w : World) (c : CallId) (id : ObjectId) : Bool :=
  match w.panel.calls.lookup c with
  | some .creating => id ∉ w.panel.created ∧ (w.servers id).api = .returned
  | some (.polling submissionId _) => id = submissionId
  | none => false

/-- One step, where it is enabled. -/
def step (cfg : Config) (w : World) : Move → Option World
  | .panel l =>
    if l.isReply then none else (w.panel.step l).map fun panel ↦ { w with panel }
  | .reply c id n =>
    if w.replies c id then
      (w.servers id).log[n]?.bind fun e ↦
        (w.panel.step (.answer c (.ok ⟨id, e.after⟩))).map fun panel ↦ { w with panel }
    else none
  | .server id l =>
    ((w.servers id).step cfg l).map fun s ↦
      { w with servers := Function.update w.servers id s }

/-- Nothing has happened yet. -/
def init : World := ⟨Panel.init, fun _ ↦ State.init⟩

/-- The condition `ok` on the steps of the servers. -/
def OnServers (ok : State → Submissions.Label → Prop) (w : World) : Move → Prop
  | .server id l => ok (w.servers id) l
  | _ => True

instance (ok : State → Submissions.Label → Prop) [∀ s l, Decidable (ok s l)] (w : World) :
    (m : Move) → Decidable (w.OnServers ok m)
  | .server id l => inferInstanceAs (Decidable (ok (w.servers id) l))
  | .panel _ | .reply _ _ _ => .isTrue trivial

theorem OnServers.mono {ok ok' : State → Submissions.Label → Prop} {w : World} {m : Move}
    (h : w.OnServers ok m) (hok : ∀ s l, ok s l → ok' s l) : w.OnServers ok' m := by
  cases m with
  | server id l => exact hok _ _ h
  | panel | reply => trivial

end World

/-- The panel, the API, the queue and the workers. -/
def world (cfg : Config) : Machine World Move := ⟨World.init, World.step cfg⟩

/-! ## Everything a step can be -/

namespace World

variable {cfg : Config} {w w' : World} {m : Move}

/-- The steps of the world. -/
inductive Step (cfg : Config) (w : World) : Move → World → Prop
  | panel {l : Label} {s : Panel} : l.isReply ≠ true → w.panel.step l = some s →
      Step cfg w (.panel l) { w with panel := s }
  | reply {c : CallId} {id : ObjectId} {n : Nat} {e : Submissions.Entry} {s : Panel} :
      w.replies c id = true → e ∈ (w.servers id).log →
      w.panel.step (.answer c (.ok ⟨id, e.after⟩)) = some s →
      Step cfg w (.reply c id n) { w with panel := s }
  | server {id : ObjectId} {l : Submissions.Label} {s : State} :
      (w.servers id).step cfg l = some s →
      Step cfg w (.server id l) { w with servers := Function.update w.servers id s }

/-- **Inversion** for the world. -/
theorem step_inv (h : w.step cfg m = some w') : Step cfg w m w' := by
  cases m with
  | panel l =>
      simp only [World.step] at h
      split at h
      · cases h
      · obtain ⟨s, hs, rfl⟩ := Option.map_eq_some_iff.mp h
        exact .panel ‹_› hs
  | reply c id n =>
      simp only [World.step] at h
      split at h
      · obtain ⟨e, he, hm⟩ := Option.bind_eq_some_iff.mp h
        obtain ⟨s, hs, rfl⟩ := Option.map_eq_some_iff.mp hm
        exact .reply ‹_› (List.mem_of_getElem? he) hs
      · cases h
  | server id l =>
      obtain ⟨s, hs, rfl⟩ := Option.map_eq_some_iff.mp h
      exact .server hs

/-- What holds of every submission holds still, where it does of the one that moves. -/
theorem Step.servers {P : ObjectId → State → Prop} (h : Step cfg w m w')
    (hw : ∀ id, P id (w.servers id))
    (hstep : ∀ id l s, m = .server id l → (w.servers id).step cfg l = some s → P id s) :
    ∀ id, P id (w'.servers id) := by
  cases h with
  | panel | reply => exact hw
  | @server id l s hs =>
      exact (Function.forall_update_iff w.servers P).mpr
        ⟨hstep id l s rfl hs, fun j _ ↦ hw j⟩

end World

/-! ## The panel of a world -/

namespace World

variable {cfg : Config} {w w' : World} {m : Move}

/-- Every poll is answered before the next is made. -/
def InTime (w : World) : Move → Prop
  | .panel l => Client.InTime w.panel l
  | _ => True

theorem genuine_of_not_reply {s : Panel} {l : Label} (h : l.isReply ≠ true) : Genuine s l := by
  cases l with
  | answer c reply =>
      cases reply with
      | error => trivial
      | ok => exact absurd rfl h
  | _ => trivial

/-- The servers answer for the submission that they are asked for. -/
theorem genuine_reply {c : CallId} {id : ObjectId} (h : w.replies c id = true)
    (record : Submission) : Genuine w.panel (.answer c (.ok ⟨id, record⟩)) := by
  unfold replies at h
  unfold Genuine
  split at h
  · simp only [‹w.panel.calls.lookup c = _›]
    exact (of_decide_eq_true h).1
  · simp only [‹w.panel.calls.lookup c = _›]
    exact of_decide_eq_true h
  · cases h

/-- The panel of a world in time is a panel in time, with answers that are genuine. -/
theorem panel_reachable (h : (world cfg).Reachable InTime w) :
    Client.panel.Reachable (fun s l ↦ Client.InTime s l ∧ Genuine s l) w.panel := by
  refine h.invariant (I := fun w ↦
    Client.panel.Reachable (fun s l ↦ Client.InTime s l ∧ Genuine s l) w.panel) ⟨[], .nil _⟩ ?_
  intro w m w' hw hok hstep
  cases step_inv hstep with
  | panel hl hs => exact hw.run (.cons ⟨hok, genuine_of_not_reply hl⟩ hs (.nil _))
  | @reply c id _ e _ hr _ hs =>
      have hok : Client.InTime w.panel (.answer c (.ok ⟨id, e.after⟩)) := trivial
      exact hw.run (.cons ⟨hok, genuine_reply hr _⟩ hs (.nil _))
  | server => exact hw

end World

/-! ## What the panel shows -/

/-- What a view shows, in the history or as the result, meets `ok`, and the history lists the
ends of submissions only. -/
structure View.Shows (ok : Answer → Prop) (v : View) : Prop where
  listed : ∀ a, .answer a ∈ v.submissionsHistory → ok a ∧ a.record.status.terminal = true
  shown : ∀ a, v.submissionResult = some (.answer a) → ok a

namespace View.Shows

variable {ok ok' : Answer → Prop} {v v' : View} {a : Answer}

theorem mono (h : v.Shows ok) (hok : ∀ a, ok a → ok' a) : v.Shows ok' where
  listed a ha := ⟨hok a (h.listed a ha).1, (h.listed a ha).2⟩
  shown a ha := hok a (h.shown a ha)

/-- Buttons and messages show no submission. -/
theorem congr (h : v.Shows ok) (hlisted : v'.submissionsHistory = v.submissionsHistory)
    (hshown : v'.submissionResult = v.submissionResult) : v'.Shows ok where
  listed := by rw [hlisted]; exact h.listed
  shown := by rw [hshown]; exact h.shown

theorem showAnswer (h : v.Shows ok) (ha : ok a) : (v.showResult (.answer a)).Shows ok where
  listed := h.listed
  shown b hb := by
    cases hb
    exact ha

/-- A demonstration is no submission. -/
theorem showDemo (h : v.Shows ok) (kind : Demo) : (v.showResult (.demo kind)).Shows ok where
  listed := h.listed
  shown b hb := by cases hb

theorem recordDemo (h : v.Shows ok) (kind : Demo) : (v.record (.demo kind)).Shows ok where
  listed b hb := by
    rcases List.mem_cons.mp hb with hb | hb
    · cases hb
    · exact h.listed b hb
  shown := h.shown

theorem demo (h : v.Shows ok) (kind : Demo) :
    ((v.endSubmit.showResult (.demo kind)).record (.demo kind)).Shows ok := by
  have hend : v.endSubmit.Shows ok := h.congr rfl rfl
  exact (hend.showDemo kind).recordDemo kind

theorem finish (h : v.Shows ok) (ha : ok a) (hterm : a.record.status.terminal = true) :
    (v.finish a).Shows ok where
  listed b hb := by
    rcases List.mem_cons.mp hb with hb | hb
    · cases hb
      exact ⟨ha, hterm⟩
    · exact h.listed b hb
  shown := (h.showAnswer ha).shown

end View.Shows

namespace Panel

variable {s t : Panel} {f : View → View} {ok : Answer → Prop} {a : Answer} {l : Label}

theorem shows_set (h : s.view.Shows ok) (hf : ∀ v : View, v.Shows ok → (f v).Shows ok) :
    (s.set f).view.Shows ok := by
  unfold set
  split
  · exact hf _ h
  · exact h

theorem shows_clearPoll (h : s.view.Shows ok) : s.clearPoll.view.Shows ok := by
  rw [clearPoll_view]
  exact h

theorem shows_handleSubmit (h : s.view.Shows ok) (sourceCode : Utf.JsString) (loggedIn : Bool) :
    (s.handleSubmit sourceCode loggedIn).view.Shows ok := by
  unfold handleSubmit
  split
  · exact shows_set h fun v hv ↦ hv.congr rfl rfl
  · have hview := shows_set (shows_clearPoll h) (f := fun v ↦ { v with
      isSubmitting := true
      submitError := none
      statusMessage := "Submitting code to judge..."
      submissionResult := none }) fun v hv ↦ ⟨hv.listed, fun _ ha ↦ by cases ha⟩
    cases loggedIn with
    | true => exact hview
    | false => exact hview

theorem shows_submitted (h : s.view.Shows ok) {reply : Reply}
    (hreply : ∀ a, reply = .ok a → ok a) : (s.submitted reply).view.Shows ok := by
  cases reply with
  | error => exact shows_set h fun v hv ↦ hv.demo .fallback
  | ok a =>
      rw [submitted]
      split
      · exact shows_set h fun v hv ↦ hv.finish (hreply a rfl) ‹_›
      · exact shows_set h fun v hv ↦ (hv.showAnswer (hreply a rfl)).congr rfl rfl

theorem shows_polled (h : s.view.Shows ok) (startTime : Time) {reply : Reply}
    (hreply : ∀ a, reply = .ok a → ok a) : (s.polled startTime reply).view.Shows ok := by
  cases reply with
  | error => exact shows_set (shows_clearPoll h) fun v hv ↦ hv.congr rfl rfl
  | ok a =>
      rw [polled]
      split
      · exact shows_set (shows_clearPoll h) fun v hv ↦ hv.finish (hreply a rfl) ‹_›
      · have hview := shows_set h (f := fun v ↦ { v.showResult (.answer a) with
            statusMessage := if a.record.status = .running then "Running test cases..."
              else v.statusMessage }) fun v hv ↦
          (hv.showAnswer (hreply a rfl)).congr rfl rfl
        simp only [set_now]
        split
        · exact shows_set (shows_clearPoll hview) fun v hv ↦ hv.congr rfl rfl
        · exact hview

theorem shows_fire (h : s.view.Shows ok) (i : TimerId) (timer : Timer) :
    (s.fire i timer).view.Shows ok := by
  cases timer with
  | interval => exact h
  | timeout kind due =>
      have hcleared : ({ s with now := s.now.max due }.clear i).view.Shows ok := h
      cases kind with
      | run =>
          refine shows_set hcleared fun v hv ↦ View.Shows.showDemo ?_ .run
          exact hv.congr rfl rfl
      | anonymous => exact shows_set hcleared fun v hv ↦ hv.demo .anonymous
      | fallback => exact shows_set hcleared fun v hv ↦ hv.demo .fallback

/-- **Step lemma** for the panel: what it shows is what it was answered. -/
theorem shows_step (h : s.view.Shows ok) (hl : ∀ c a, l = .answer c (.ok a) → ok a)
    (hstep : s.step l = some t) : t.view.Shows ok := by
  cases l with
  | wait =>
      cases hstep
      exact h
  | run =>
      simp only [Panel.step] at hstep
      split at hstep <;> cases hstep
      exact shows_set h fun v hv ↦ hv.congr rfl rfl
  | submit sourceCode loggedIn =>
      simp only [Panel.step] at hstep
      split at hstep <;> cases hstep
      exact shows_handleSubmit h sourceCode loggedIn
  | fire i =>
      obtain ⟨timer, -, rfl⟩ := Option.map_eq_some_iff.mp hstep
      exact shows_fire h i timer
  | answer c reply =>
      obtain ⟨call, -, rfl⟩ := Option.map_eq_some_iff.mp hstep
      have hreply : ∀ a, reply = .ok a → ok a := by
        rintro a rfl
        exact hl c a rfl
      let r : Panel := { s with calls := s.calls.filter fun x ↦ x.1 ≠ c }
      cases call with
      | creating => exact shows_submitted (s := r) h hreply
      | polling => exact shows_polled (s := r) h _ hreply
  | load =>
      cases hstep
      exact shows_set h fun v hv ↦ hv.congr rfl rfl
  | unmount =>
      simp only [Panel.step] at hstep
      split at hstep <;> cases hstep
      exact shows_clearPoll h

end Panel

/-! ## What the database has held -/

/-- What the database held of the submission at some time. -/
def Held (s : State) (d : Submission) : Prop := ∃ e ∈ s.log, e.after = d

section

variable {cfg : Config} {s t : State} {d : Submission} {l : Submissions.Label}

theorem not_held_init : ¬ Held State.init d := by
  rintro ⟨e, he, -⟩
  cases he

/-- A step writes nothing, or one record. -/
theorem log_step (hstep : s.step cfg l = some t) :
    t.log = s.log ∨ ∃ e, t.log = e :: s.log ∧ t.submission = some e.after := by
  cases State.step_inv hstep with
  | wait | deliver | duplicate | settle | stalled => exact .inl rfl
  | @api _ _ w =>
      cases w with
      | none => exact .inl rfl
      | some w => exact .inr ⟨_, rfl, rfl⟩
  | @attempt _ _ _ _ w =>
      cases w with
      | none => exact .inl rfl
      | some w => exact .inr ⟨_, rfl, rfl⟩

theorem Held.step (h : Held s d) (hstep : s.step cfg l = some t) : Held t d := by
  obtain ⟨e, he, hed⟩ := h
  rcases log_step hstep with hlog | ⟨e', hlog, -⟩
  · exact ⟨e, by rw [hlog]; exact he, hed⟩
  · exact ⟨e, by rw [hlog]; exact List.mem_cons_of_mem _ he, hed⟩

/-- What the database has held after a step, it has held before, or it holds it now. -/
theorem Held.cases (h : Held t d) (hstep : s.step cfg l = some t) :
    Held s d ∨ t.submission = some d := by
  obtain ⟨e, he, rfl⟩ := h
  rcases log_step hstep with hlog | ⟨e', hlog, hsub⟩
  · exact .inl ⟨e, hlog ▸ he, rfl⟩
  · rw [hlog] at he
    rcases List.mem_cons.mp he with rfl | he
    · exact .inr hsub
    · exact .inl ⟨e, he, rfl⟩

end

namespace World

variable {cfg : Config} {w w' : World} {m : Move}

/-- The panel shows what the database has held. -/
def Shows (w : World) : Prop :=
  w.panel.view.Shows fun a ↦ Held (w.servers a.id) a.record

/-- **Step lemma** for what is shown. -/
theorem Shows.step (h : w.Shows) (hstep : w.step cfg m = some w') : w'.Shows := by
  cases step_inv hstep with
  | panel hl hs =>
      refine Panel.shows_step h ?_ hs
      rintro c a rfl
      exact absurd rfl hl
  | @reply c id _ e _ _ he hs =>
      refine Panel.shows_step h ?_ hs
      rintro _ _ ⟨⟩
      exact ⟨e, he, rfl⟩
  | @server id l s hs =>
      refine View.Shows.mono h fun a ha ↦ ?_
      by_cases hid : a.id = id
      · subst hid
        change Held (Function.update w.servers a.id s a.id) a.record
        rw [Function.update_self]
        exact ha.step hs
      · change Held (Function.update w.servers id s a.id) a.record
        rw [Function.update_of_ne hid]
        exact ha

/-- **What is shown was stored**, in every run of the world. -/
theorem shows_of_reachable {ok : World → Move → Prop} (h : (world cfg).Reachable ok w) :
    w.Shows :=
  h.invariant (I := World.Shows)
    ⟨fun _ ha ↦ absurd ha List.not_mem_nil, fun _ ha ↦ by cases ha⟩
    fun _ _ _ hw _ hstep ↦ hw.step hstep

end World

end CodeArena.Client
