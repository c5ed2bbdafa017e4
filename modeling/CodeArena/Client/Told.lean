import CodeArena.Client.World
import CodeArena.Submissions.Explained
import CodeArena.Submissions.Terminal

/-!
# What the user is told

A submission whose end the panel has shown is stored with that status and that verdict from then
on, and one that it has shown as accepted was accepted by programs that ran.  Neither makes an
assumption on when polls are answered: an answer may be shown in place of a later one, and what
is shown of an end stays true.

The demonstrations that the panel makes up by itself say ACCEPTED as well, and nothing of the
kind is true of them.
-/

namespace CodeArena.Client

open CodeArena.Lib
open CodeArena.Submissions (Asked Config Executed Fenced ObjectId Passed Reliable State Submission
  TestCase)

/-! ## The end stands -/

/-- The stored record has the status and the verdict of `d`. -/
def Stands (s : State) (d : Submission) : Prop :=
  ∃ d', s.submission = some d' ∧ d'.status = d.status ∧ d'.verdict = d.verdict

/-- Every end that the database has held stands. -/
def Final (s : State) : Prop := ∀ d, Held s d → d.status.terminal = true → Stands s d

section

variable {cfg : Config} {s t : State} {d : Submission} {l : Submissions.Label}

theorem Stands.keeps (h : Stands s d) (hterm : d.status.terminal = true)
    (hkeeps : s.KeepsTerminal t) : Stands t d := by
  obtain ⟨d', hd', hs, hv⟩ := h
  obtain ⟨d'', hd'', hs', hv'⟩ := hkeeps d' hd' (by rw [hs]; exact hterm)
  exact ⟨d'', hd'', hs'.trans hs, hv'.trans hv⟩

/-- **Step lemma** for a submission. -/
theorem Final.step (h : Final s) (hs : s.Fine cfg) (hok : Fenced s l)
    (hstep : s.step cfg l = some t) : Final t := by
  intro d hd hterm
  rcases hd.cases hstep with hd | hd
  · exact (h d hd hterm).keeps hterm (hs.settled.step hs.formed hs.owned hok hstep).2
  · exact ⟨d, hd, rfl, rfl⟩

end

/-- What fenced runs keep of every submission. -/
def World.Fine (cfg : Config) (w : World) : Prop :=
  ∀ id, (w.servers id).Fine cfg ∧ Final (w.servers id)

namespace World.Fine

variable {cfg : Config} {w w' : World} {m : Move}

theorem init : World.init.Fine cfg :=
  fun _ ↦ ⟨State.Fine.init, fun _ hd ↦ absurd hd not_held_init⟩

/-- **Step lemma** for the world. -/
theorem step (h : w.Fine cfg) (hok : w.OnServers Fenced m) (hstep : w.step cfg m = some w') :
    w'.Fine cfg := by
  refine (World.step_inv hstep).servers (P := fun _ s ↦ s.Fine cfg ∧ Final s) h ?_
  rintro id l s rfl hs
  obtain ⟨hfine, hfinal⟩ := h id
  exact ⟨hfine.step hok hs, hfinal.step hfine hok hs⟩

/-- A step keeps the end of every submission. -/
theorem keeps (h : w.Fine cfg) (hok : w.OnServers Fenced m) (hstep : w.step cfg m = some w') :
    ∀ id, (w.servers id).KeepsTerminal (w'.servers id) := by
  refine (World.step_inv hstep).servers (P := fun id s ↦ (w.servers id).KeepsTerminal s)
    (fun _ ↦ .refl _) ?_
  rintro id l s rfl hs
  obtain ⟨hfine, -⟩ := h id
  exact (hfine.settled.step hfine.formed hfine.owned hok hs).2

end World.Fine

/-- **What the user is told stays true.**  In every run of the panel, the API, the queue and
the workers whose steps on submissions are fenced, the history of the panel lists submissions
that are completed or failed, and a submission that the panel has shown so, there or as its
result, is stored with that status and that verdict ever after. -/
theorem told_stays_true {cfg : Config} {w w' : World} {ms : List Move}
    (h : (world cfg).Reachable (World.OnServers Fenced) w)
    (hrun : (world cfg).Run (World.OnServers Fenced) w ms w') :
    (∀ a, .answer a ∈ w.panel.view.submissionsHistory →
        a.record.status.terminal = true ∧ Stands (w'.servers a.id) a.record) ∧
      ∀ a, w.panel.view.submissionResult = some (.answer a) →
        a.record.status.terminal = true → Stands (w'.servers a.id) a.record := by
  have hw : w.Fine cfg := h.invariant .init fun _ _ _ hw hok hstep ↦ hw.step hok hstep
  have hshows := World.shows_of_reachable h
  have hkeeps : ∀ id, (w.servers id).KeepsTerminal (w'.servers id) :=
    hrun.related (I := World.Fine cfg) hw
      (fun _ _ _ hI hok hstep ↦ ⟨hI.step hok hstep, hI.keeps hok hstep⟩)
      (fun _ _ ↦ .refl _) fun _ _ _ hst htu id ↦ (hst id).trans (htu id)
  have hstands : ∀ a : Answer, Held (w.servers a.id) a.record →
      a.record.status.terminal = true → Stands (w'.servers a.id) a.record :=
    fun a ha hterm ↦ ((hw a.id).2 _ ha hterm).keeps hterm (hkeeps a.id)
  refine ⟨fun a ha ↦ ?_, fun a ha hterm ↦ hstands a (hshows.shown a ha) hterm⟩
  obtain ⟨hheld, hterm⟩ := hshows.listed a ha
  exact ⟨hterm, hstands a hheld hterm⟩

/-! ## ACCEPTED was run -/

/-- The steps on one submission. -/
def Move.labels (id : ObjectId) (ms : List Move) : List Submissions.Label :=
  ms.filterMap fun
    | .server j l => if j = id then some l else none
    | _ => none

theorem Move.mem_labels {id : ObjectId} {ms : List Move} {l : Submissions.Label} :
    l ∈ Move.labels id ms ↔ .server id l ∈ ms := by
  unfold Move.labels
  rw [List.mem_filterMap]
  constructor
  · rintro ⟨m, hm, hl⟩
    split at hl
    · split at hl <;> cases hl
      subst id
      exact hm
    · cases hl
  · exact fun hl ↦ ⟨_, hl, if_pos rfl⟩

/-- Where everything that the database has held comes from. -/
structure Recounted (cfg : Config) (ls : List Submissions.Label) (s : State) : Prop where
  formed : s.Formed cfg
  sourced : s.Sourced ls
  held : ∀ d, Held s d → Asked ls d.request ∧ d.VerdictExplained ls

namespace Recounted

variable {cfg : Config} {ls : List Submissions.Label} {s t : State} {l : Submissions.Label}

theorem init : Recounted cfg ls State.init :=
  ⟨.init, .init, fun _ hd ↦ absurd hd not_held_init⟩

/-- **Step lemma** for a submission. -/
theorem step (h : Recounted cfg ls s) (hok : Executed s l) (hl : l ∈ ls)
    (hstep : s.step cfg l = some t) : Recounted cfg ls t := by
  have ht := h.sourced.step h.formed hok hl hstep
  refine ⟨h.formed.step hstep, ht, fun d hd ↦ ?_⟩
  rcases hd.cases hstep with hd | hd
  · exact h.held d hd
  · exact ⟨ht.asked d hd, ht.verdict d hd⟩

end Recounted

theorem recounted_of_run {cfg : Config} {ms : List Move} {w : World}
    (h : (world cfg).Run (World.OnServers Executed) World.init ms w) (id : ObjectId) :
    Recounted cfg (Move.labels id ms) (w.servers id) := by
  refine h.labelled.invariant
    (I := fun w ↦ ∀ id, Recounted cfg (Move.labels id ms) (w.servers id)) (fun _ ↦ .init) ?_ id
  intro w m w' hw hm hstep
  refine (World.step_inv hstep).servers
    (P := fun id s ↦ Recounted cfg (Move.labels id ms) s) hw ?_
  rintro id l s rfl hs
  exact (hw id).step hm.1 (Move.mem_labels.mpr hm.2) hs

namespace Move

/-- A click on Submit, and `createSubmission`. -/
def submitted : List Move :=
  [.panel (.submit [112] true)] ++ Submissions.Label.submit.map (.server 7) ++ [.reply 0 7 0]

/-- A poll, answered with what is stored. -/
def polled : List Move := [.panel (.fire 1), .reply 1 7 0]

/-- A submission that is made and judged, and the poll that shows it. -/
def judged : List Move :=
  submitted ++ ([.deliver 0 "a"] ++ Submissions.Label.claims 0 ++ Submissions.Label.loads 0 ++
    Submissions.Label.tests 0 .accepted ++
      [.attempt 0 (.save none)] : List Submissions.Label).map (.server 7) ++ polled

/-- What is left of the job, and a second delivery. -/
def redelivered : List Move :=
  ([.attempt 0 (.stampCompleted none), .settle, .duplicate 1 ⟨"b", true, none⟩] ++
    Submissions.Label.claims 1 : List Submissions.Label).map (.server 7)

/-- A submission that a worker took over from another and judged, and the poll that shows
it. -/
def takenOver : List Move :=
  submitted ++ ([.deliver 0 "a"] ++ Submissions.Label.claims 0 ++ Submissions.Label.loads 0 ++
    [.wait 30001, .duplicate 1 ⟨"b", true, none⟩] ++ Submissions.Label.claims 1 ++
      Submissions.Label.loads 1 ++ Submissions.Label.tests 1 .accepted ++
        [.attempt 1 (.save none)] : List Submissions.Label).map (.server 7) ++ polled

/-- The first worker stores its own verdict. -/
def overwritten : List Move :=
  (Submissions.Label.tests 0 .timeLimitExceeded ++
    [.attempt 0 (.save none)] : List Submissions.Label).map (.server 7)

end Move

/-- The panel lists one submission, the seventh, as accepted. -/
def ListsAccepted (w : World) : Bool :=
  match w.panel.view.submissionsHistory with
  | [.answer a] => a.id = 7 ∧ a.record.verdict = .accepted
  | _ => false

theorem ListsAccepted.exists_answer {w : World} (h : ListsAccepted w = true) :
    ∃ a, w.panel.view.submissionsHistory = [.answer a] ∧ a.id = 7 ∧
      a.record.verdict = .accepted := by
  unfold ListsAccepted at h
  split at h
  · rename_i a ha
    exact ⟨a, ha, of_decide_eq_true h⟩
  · cases h

/-- A submission that is listed as accepted, and stays so. -/
theorem told_stays_true_redelivered : ∃ w w' a,
    (world ⟨30000, 3⟩).Run (World.OnServers Fenced) World.init Move.judged w ∧
      (world ⟨30000, 3⟩).Run (World.OnServers Fenced) w Move.redelivered w' ∧
      w.panel.view.submissionsHistory = [.answer a] ∧ a.record.verdict = .accepted ∧
      Stands (w'.servers 7) a.record := by
  obtain ⟨w, hw, hP⟩ := (world ⟨30000, 3⟩).exists_run_of_exec (World.OnServers Fenced) World.init
    Move.judged (fun w ↦ ListsAccepted w &&
      ((world ⟨30000, 3⟩).exec (World.OnServers Fenced) w Move.redelivered).isSome) (by decide)
  obtain ⟨hlists, hexec⟩ := Bool.and_eq_true_iff.mp hP
  obtain ⟨a, ha, hid, haccepted⟩ := ListsAccepted.exists_answer hlists
  obtain ⟨w', hw'⟩ := Option.isSome_iff_exists.mp hexec
  have hstands := ((told_stays_true ⟨_, hw⟩ (.of_exec hw')).1 a
    (by rw [ha]; exact List.mem_singleton_self _)).2
  rw [hid] at hstands
  exact ⟨w, w', a, hw, .of_exec hw', ha, haccepted, hstands⟩

/-- Where a worker that lost its claim stores its verdict all the same, a submission is listed
as accepted, and is stored with another verdict, with no call failing. -/
theorem told_otherwise : ∃ w w' a,
    (world ⟨30000, 3⟩).Run (World.OnServers Reliable) World.init Move.takenOver w ∧
      (world ⟨30000, 3⟩).Run (World.OnServers Reliable) w Move.overwritten w' ∧
      w.panel.view.submissionsHistory = [.answer a] ∧ a.record.verdict = .accepted ∧
      ¬ Stands (w'.servers 7) a.record := by
  obtain ⟨w, hw, hP⟩ := (world ⟨30000, 3⟩).exists_run_of_exec (World.OnServers Reliable)
    World.init Move.takenOver (fun w ↦ ListsAccepted w &&
      ((world ⟨30000, 3⟩).exec (World.OnServers Reliable) w Move.overwritten).any fun w' ↦
        (w'.servers 7).submission.map (·.verdict) = some .timeLimitExceeded) (by decide)
  obtain ⟨hlists, hthen⟩ := Bool.and_eq_true_iff.mp hP
  obtain ⟨a, ha, -, haccepted⟩ := ListsAccepted.exists_answer hlists
  obtain ⟨w', hw', hP'⟩ := Machine.exists_run_of_exec _ _ _ _ _ hthen
  refine ⟨w, w', a, hw, hw', ha, haccepted, ?_⟩
  rintro ⟨d, hd, -, hverdict⟩
  have hother := of_decide_eq_true hP'
  rw [hd] at hother
  exact absurd ((Option.some.inj hother).symm.trans (hverdict.trans haccepted)) (by decide)

end CodeArena.Client
