import CodeArena.Service.Books
import CodeArena.Lib.Journal
import CodeArena.Lib.Simulation

/-!
# What the audit log tells

A controller that has changed a problem or a test case adds an entry to the log after that, by a
call of its own, that may fail.  No change is without its entry (`audited_of_sound`), and the
log is a journal of these that is written behind: it tells nothing that was not done, and
nothing twice, in any order in which requests are answered (`log_accounts_for_changes`), and
where no entry is lost nothing is missing but what waits (`log_complete`).

What was done comes to what is stored where each document is stored as it was loaded when it is
saved (`Fresh`).  Two requests that load a problem before either saves it are enough for the log
to tell of a problem that is not the one stored (`overlapping_updates_diverge`).  Nor need the
order of the log be that of the changes; read from the front it comes to what is stored where
besides no document changes while an entry about it is under way (`log_replays`).  Both is so
where requests about the same document come one after another (`orderly_of_apart`).
-/

namespace CodeArena.Service

open CodeArena.Lib CodeArena.Lib.Utf
open CodeArena.Lib.OrderedMap (find?)
open CodeArena.Submissions (ObjectId Time)
open CodeArena.Api (Database)
open CodeArena.Accounts (Auth)

/-! ## What a step makes of the books -/

/-- The entry that a controller is to log after the call of a step. -/
def made (pf : Platform) (s : State) : Event → List AuditEntry
  | .perform i env =>
    match (s.phase i).run pf env s.world with
    | some (.ok out) => (out.next.bind Call.entry).toList
    | _ => []
  | _ => []

/-- The entry that a request adds to the log next. -/
def Phase.entry (p : Phase) : Option AuditEntry := p.call.bind Call.entry

/-- A document that is saved is stored as it was loaded. -/
def Fresh (s : State) : Event → Prop
  | .perform i _ => ∀ k ∈ (s.phase i).call, k.Copied s.world.db
  | _ => True

/-- A step has one entry for what it changes of problems and test cases, which tells of it. -/
def Audited (pf : Platform) (s : State) (a : Event) : Prop :=
  ∀ t, step pf s a = some t → made pf s a = [] ∧ SameContent s.world t.world ∨
    ∃ e, made pf s a = [e] ∧ Told pf.auth e s.world.db t.world.db

section

variable {pf : Platform} {s t : State} {a : Event} {env : Env} {c : Controller} {ctx : Context}
  {w w' : World} {out : Outcome} {call : Option Call} {i : Nat}

theorem made_of_ok (hrun : (s.phase i).run pf env s.world = some (.ok out)) :
    made pf s (.perform i env) = (out.next.bind Call.entry).toList := by
  simp only [made, hrun]

theorem made_of_error {e : Submissions.JsError}
    (hrun : (s.phase i).run pf env s.world = some (.error e)) :
    made pf s (.perform i env) = [] := by
  simp only [made, hrun]

theorem made_of_logged {entry : AuditEntry}
    (hphase : s.phase i = .awaiting c ctx (.logAuditAction entry)) :
    made pf s (.perform i env) = [] := by
  have hrun : (s.phase i).run pf env s.world =
      some (.ok ⟨logAuditAction env.now entry s.world, none⟩) := by
    rw [hphase]
    rfl
  exact made_of_ok hrun

theorem exists_of_made {e : AuditEntry} (h : e ∈ made pf s a) : ∃ i env out, a = .perform i env ∧
    (s.phase i).run pf env s.world = some (.ok out) ∧ out.next.bind Call.entry = some e := by
  cases a with
  | perform i env =>
      simp only [made] at h
      split at h
      · rename_i out hrun
        exact ⟨i, env, out, rfl, hrun, Option.mem_toList.mp h⟩
      · cases h
  | _ => cases h

theorem books_congr (h : SameContent w w') : books w'.db = books w.db := by
  unfold books Database.findProblem Database.findTestCase
  rw [h.1, h.2]

/-- A call changes nothing of problems and test cases, or it leaves an entry to be logged. -/
theorem Effect.changes (h : Effect pf env c ctx w call out) :
    out.next.bind Call.entry = none ∧ SameContent w out.world ∨
      ∃ e, out.next.bind Call.entry = some e ∧ Written pf.auth w.db call e out.world.db := by
  cases h with
  | goesOn hnext =>
      refine .inl ⟨?_, rfl, rfl⟩
      refine Option.bind_eq_none_iff.mpr fun k hk ↦ ?_
      exact (hnext k hk).2.1
  | account => exact .inl ⟨rfl, rfl, rfl⟩
  | written _ _ _ hwritten => exact .inr ⟨_, rfl, hwritten⟩
  | submission => exact .inl ⟨rfl, rfl, rfl⟩

/-- The ways in which a step changes problems and test cases. -/
theorem Moves.changes (hmove : Moves pf s a t) :
    made pf s a = [] ∧ SameContent s.world t.world ∨
      ∃ i env e, a = .perform i env ∧ made pf s a = [e] ∧
        Written pf.auth s.world.db (s.phase i).call e t.world.db := by
  cases hmove with
  | @performed i env c ctx out _ _ _ hrun heffect =>
      rw [made_of_ok hrun]
      rcases heffect.changes with ⟨hentry, hsame⟩ | ⟨e, hentry, hwritten⟩
      · rw [hentry]
        exact .inl ⟨rfl, hsame⟩
      · rw [hentry]
        exact .inr ⟨i, env, e, rfl, rfl, hwritten⟩
  | threw hrun _ => exact .inl ⟨made_of_error hrun, rfl, rfl⟩
  | logged hphase => exact .inl ⟨made_of_logged hphase, rfl, rfl⟩
  | _ => exact .inl ⟨rfl, rfl, rfl⟩

/-- **Every change has its entry**, which tells of it. -/
theorem audited_of_sound (hs : Sound pf s) (a : Event) : Audited pf s a := by
  intro t hstep
  rcases (moves_of_step hs hstep).changes with hnone | ⟨i, env, e, -, hmade, hwritten⟩
  · exact .inl hnone
  · exact .inr ⟨e, hmade, hwritten.told⟩

/-- **Step lemma.**  What a step does to the books is what its entry makes of them. -/
theorem Moves.books (hmove : Moves pf s a t) (hfresh : Fresh s a) :
    books t.world.db = replay pf.auth (books s.world.db) (made pf s a) := by
  rcases hmove.changes with ⟨hmade, hsame⟩ | ⟨i, env, e, rfl, hmade, hwritten⟩
  · rw [hmade]
    exact books_congr hsame
  · rw [hmade]
    exact hwritten.replays hfresh

end

/-! ## The log as a journal -/

/-- The entries that were added to a log. -/
def entries (log : List AuditLog) : List AuditEntry := log.map (·.toAuditEntry)

/-- The log is a journal of what controllers have made. -/
structure Represents (pf : Platform) (w : World) (s : State × List AuditEntry)
    (c : Journal Nat AuditEntry) : Prop where
  sound : Sound pf s.1
  journal : c.Sound
  waiting : ∀ i e, (i, e) ∈ c.waiting ↔ (s.1.phase i).entry = some e
  log : ∃ new, s.1.world.log = w.log ++ new ∧ c.written = entries new
  record : c.made = s.2

/-- What the writer of an entry does in a step. -/
inductive Writes (pf : Platform) (s : State) (a : Event) : Journal.Move Nat AuditEntry → Prop
  | act {i : Nat} {e : AuditEntry} : made pf s a = [e] → Writes pf s a (.act i e)
  | write {i : Nat} : Writes pf s a (.write i)
  | drop {i : Nat} {e : AuditEntry} : a = .fail i → (s.phase i).entry = some e →
      Writes pf s a (.drop i)

section

variable {pf : Platform} {w : World} {s t : State} {a : Event} {es : List AuditEntry}
  {c : Journal Nat AuditEntry} {i : Nat} {p : Phase} {e : AuditEntry} {world : World}

/-- What waits of the others is what waited. -/
theorem entry_put (s : State) (i : Nat) (p : Phase) (j : Nat) :
    ((s.put i p).phase j).entry = if j = i then p.entry else (s.phase j).entry := by
  rw [phase_put]
  split <;> rfl

/-- A request that has no entry to add stands where it has none. -/
theorem entry_put_none (hi : (s.phase i).entry = none) (hp : p.entry = none) (j : Nat) :
    ((s.put i p).phase j).entry = (s.phase j).entry := by
  rw [entry_put]
  split
  · rename_i hj
    rw [hj, hp, hi]
  · rfl

theorem entry_eq_none (h : ∀ k, p.call = some k → k.entry = none) : p.entry = none :=
  Option.bind_eq_none_iff.mpr h

theorem entry_after {c : Controller} {ctx : Context} (hp : p.request = some (c, ctx))
    (next : Option Call) : (p.after next).entry = next.bind Call.entry := by
  rw [Phase.entry, (Phase.after_eq hp next).1]

/-- A step that the log has no part in. -/
theorem Represents.stay (h : Represents pf w (s, es) c) (hsound : Sound pf t)
    (hentry : ∀ i, (t.phase i).entry = (s.phase i).entry)
    (hlog : t.world.log = s.world.log) : Represents pf w (t, es ++ []) c where
  sound := hsound
  journal := h.journal
  waiting i e := (h.waiting i e).trans (by rw [hentry])
  log := by
    show ∃ new, t.world.log = _ ∧ _
    rw [hlog]
    exact h.log
  record := h.record.trans (List.append_nil es).symm

/-- A controller makes an entry. -/
theorem Represents.act (h : Represents pf w (s, es) c)
    (hsound : Sound pf ({ s with world := world }.put i p))
    (hi : (s.phase i).entry = none) (hp : p.entry = some e) (hlog : world.log = s.world.log) :
    ∃ c', c.move (.act i e) = some c' ∧
      Represents pf w ({ s with world := world }.put i p, es ++ [e]) c' := by
  have hnew : i ∉ c.waiting.map Prod.fst := by
    intro hmem
    obtain ⟨⟨j, e'⟩, hwaits, rfl⟩ := List.mem_map.mp hmem
    cases hi.symm.trans ((h.waiting j e').mp hwaits)
  have hmove : c.move (.act i e) = some ⟨c.made ++ [e], c.waiting ++ [(i, e)], c.written⟩ :=
    if_neg hnew
  refine ⟨_, hmove, hsound, Journal.sound_of_move h.journal hmove, fun j e' ↦ ?_, ?_, ?_⟩
  · rw [entry_put, List.mem_append, List.mem_singleton, Prod.mk.injEq]
    by_cases hj : j = i
    · rw [if_pos hj, hj, h.waiting, hi, hp, Option.some.injEq]
      constructor
      · rintro (hnone | ⟨-, rfl⟩)
        · cases hnone
        · rfl
      · rintro rfl
        exact .inr ⟨rfl, rfl⟩
    · rw [if_neg hj]
      simp [hj, h.waiting]
  · show ∃ new, world.log = _ ∧ _
    rw [hlog]
    exact h.log
  · show c.made ++ [e] = es ++ [e]
    rw [h.record]

/-- Who has added its entry, or has lost it, waits no more. -/
theorem Represents.waiting_put (h : Represents pf w (s, es) c) (j : Nat) (e' : AuditEntry) :
    (j, e') ∈ Journal.others i c.waiting ↔
      ((State.put { s with world := world } i .idle).phase j).entry = some e' := by
  rw [Journal.mem_others, entry_put, h.waiting]
  by_cases hj : j = i
  · rw [if_pos hj]
    refine iff_of_false (fun h ↦ h.2 hj) fun h ↦ ?_
    cases h
  · rw [if_neg hj]
    exact and_iff_left hj

/-- An entry is lost. -/
theorem Represents.lost (h : Represents pf w (s, es) c) (hi : (s.phase i).entry = some e)
    (hsound : Sound pf (s.put i .idle)) :
    ∃ c', c.move (.drop i) = some c' ∧ Represents pf w (s.put i .idle, es ++ []) c' := by
  have hfound : find? i c.waiting = some e :=
    OrderedMap.find?_eq_some_of_mem h.journal.writers ((h.waiting i e).mpr hi)
  have hmove : c.move (.drop i) = some ⟨c.made, Journal.others i c.waiting, c.written⟩ :=
    congrArg (Option.map _) hfound
  exact ⟨_, hmove, hsound, Journal.sound_of_move h.journal hmove, h.waiting_put, h.log,
    h.record.trans (List.append_nil es).symm⟩

/-- An entry is added. -/
theorem Represents.logged (h : Represents pf w (s, es) c) (hi : (s.phase i).entry = some e)
    (now : Time)
    (hsound : Sound pf ({ s with world := logAuditAction now e s.world }.put i .idle)) :
    ∃ c', c.move (.write i) = some c' ∧ Represents pf w
      ({ s with world := logAuditAction now e s.world }.put i .idle, es ++ []) c' := by
  have hfound : find? i c.waiting = some e :=
    OrderedMap.find?_eq_some_of_mem h.journal.writers ((h.waiting i e).mpr hi)
  have hmove : c.move (.write i) =
      some ⟨c.made, Journal.others i c.waiting, c.written ++ [e]⟩ :=
    congrArg (Option.map _) hfound
  refine ⟨_, hmove, hsound, Journal.sound_of_move h.journal hmove, h.waiting_put, ?_,
    h.record.trans (List.append_nil es).symm⟩
  obtain ⟨new, hlog, hwritten⟩ := h.log
  refine ⟨new ++ [{ e with createdAt := now }], ?_, ?_⟩
  · show s.world.log ++ _ = _
    rw [hlog, List.append_assoc]
  · show c.written ++ [e] = entries (new ++ _)
    rw [hwritten, entries, entries, List.map_append]
    rfl

/-- **Step lemma.**  What a step does is a move of a writer, or none. -/
theorem Moves.journal (hmove : Moves pf s a t) (h : Represents pf w (s, es) c) :
    Represents pf w (t, es ++ made pf s a) c ∨ ∃ m c', c.move m = some c' ∧ Writes pf s a m ∧
      Represents pf w (t, es ++ made pf s a) c' := by
  have hsound := hmove.sound h.sound
  cases hmove with
  | refused => exact .inl (h.stay hsound (fun _ ↦ rfl) rfl)
  | admitted hidle _ =>
      refine .inl (h.stay hsound (entry_put_none ?_ rfl) rfl)
      rw [hidle]
      rfl
  | @failed i hne =>
      cases hi : (s.phase i).entry with
      | none => exact .inl (h.stay hsound (entry_put_none hi rfl) rfl)
      | some e =>
          obtain ⟨c', hmove, hR⟩ := h.lost hi hsound
          exact .inr ⟨_, c', hmove, .drop rfl hi, hR⟩
  | threw hrun hnone =>
      rw [made_of_error hrun]
      exact .inl (h.stay hsound (entry_put_none (entry_eq_none hnone) rfl) rfl)
  | @performed i env k ctx out hrequest _ hnone hrun heffect =>
      have hmade := made_of_ok hrun
      have hi := entry_eq_none hnone
      have hafter := entry_after hrequest out.next
      cases hnext : out.next.bind Call.entry with
      | none =>
          rw [hnext] at hmade hafter
          rw [hmade]
          exact .inl (h.stay hsound
            (entry_put_none (s := { s with world := out.world }) hi hafter) heffect.log)
      | some e =>
          rw [hnext] at hmade hafter
          rw [hmade]
          obtain ⟨c', hmove, hR⟩ := h.act hsound hi hafter heffect.log
          exact .inr ⟨_, c', hmove, .act hmade, hR⟩
  | @logged i env k ctx e hphase =>
      have hi : (s.phase i).entry = some e := by
        rw [hphase]
        rfl
      obtain ⟨c', hmove, hR⟩ := h.logged hi env.now hsound
      rw [made_of_logged hphase]
      exact .inr ⟨_, c', hmove, .write, hR⟩
  | progressed => exact .inl (h.stay hsound (fun _ ↦ rfl) rfl)

theorem represents_init (w : World) :
    Represents pf w ((service pf w).init, []) Journal.machine.init where
  sound := sound_init w
  journal := ⟨List.nodup_nil, List.Subperm.refl _⟩
  waiting i e := by
    refine iff_of_false List.not_mem_nil fun h ↦ ?_
    cases h
  log := ⟨[], (List.append_nil _).symm, rfl⟩
  record := rfl

/-- **The log is a journal that is written behind.** -/
theorem simulates_journal {ok : State → Event → Prop}
    {ok' : Journal Nat AuditEntry → Journal.Move Nat AuditEntry → Prop}
    (hok : ∀ {x c a m}, Represents pf w x c → ok x.1 a → Writes pf x.1 a m → ok' c m) :
    ((service pf w).recorded (made pf)).Simulates (fun x a ↦ ok x.1 a) Journal.machine ok'
      (Represents pf w) where
  init := represents_init w
  step x a y c hR hallowed hstep := by
    obtain ⟨t, ht, rfl⟩ := Option.map_eq_some_iff.mp hstep
    rcases (moves_of_step hR.sound ht).journal hR with hstay | ⟨m, c', hmove, hwrites, hnext⟩
    · exact ⟨[], c, .nil c, hstay⟩
    · exact ⟨[m], c', .cons (hok hR hallowed hwrites) hmove (.nil c'), hnext⟩

/-- A run of the service, and the journal of it. -/
theorem exists_journal {ok : State → Event → Prop}
    (ok' : Journal Nat AuditEntry → Journal.Move Nat AuditEntry → Prop)
    (hok : ∀ {x c a m}, Represents pf w x c → ok x.1 a → Writes pf x.1 a m → ok' c m)
    {as : List Event} (hrun : (service pf w).Run ok (service pf w).init as s) :
    ∃ ms c, Journal.machine.Run ok' Journal.machine.init ms c ∧
      Represents pf w (s, (service pf w).outputs (made pf) (service pf w).init as) c := by
  have hrecorded := hrun.recorded (made pf) []
  rw [List.nil_append] at hrecorded
  exact (simulates_journal hok).run hrecorded (represents_init w)

end

/-! ## Runs that are in order -/

/-- No entry is lost. -/
def Reliable (s : State) : Event → Prop
  | .fail i => (s.phase i).entry = none
  | _ => True

/-- No entry is lost, what is saved is stored as it was loaded, and no document changes while an
entry about it waits. -/
structure Orderly (pf : Platform) (s : State) (a : Event) : Prop where
  reliable : Reliable s a
  fresh : Fresh s a
  apart : ∀ e ∈ made pf s a, ∀ j, ∀ e' ∈ (s.phase j).entry, e'.target ≠ e.target

/-- The document that a call saves, or tells of. -/
def Call.about : Call → Option (TargetType × ObjectId)
  | .saveProblem loaded _ _ => some (.problem, loaded.id)
  | .saveTestCase loaded _ _ => some (.testCase, loaded.id)
  | .logAuditAction entry => some entry.target
  | _ => none

/-- The document that a request is busy with. -/
def Phase.about (p : Phase) : Option (TargetType × ObjectId) := p.call.bind Call.about

/-- No entry is lost, and nobody is busy with a document that another request is busy with. -/
structure Apart (pf : Platform) (s : State) (a : Event) : Prop where
  reliable : Reliable s a
  apart : ∀ i env, a = .perform i env → ∀ out, (s.phase i).run pf env s.world = some (.ok out) →
    ∀ x ∈ out.next.bind Call.about, ∀ j, j ≠ i → (s.phase j).about ≠ some x

/-- What requests are to save is stored as they have loaded it. -/
def Copied (s : State) : Prop := ∀ i, ∀ k ∈ (s.phase i).call, k.Copied s.world.db

section

variable {pf : Platform} {s t : State} {a : Event} {env : Env} {c : Controller} {ctx : Context}
  {w w' : World} {out : Outcome} {k : Call} {i : Nat} {p : Phase} {e : AuditEntry}
  {auth : Auth} {db db' : Database}

theorem about_of_entry {o : Option Call} (h : o.bind Call.entry = some e) :
    o.bind Call.about = some e.target := by
  obtain ⟨k, rfl, hk⟩ := Option.bind_eq_some_iff.mp h
  cases k with
  | logAuditAction entry =>
      cases hk
      rfl
  | _ => cases hk

theorem copied_of_same (h : SameContent w w') (hk : k.Copied w.db) : k.Copied w'.db := by
  cases k with
  | saveProblem loaded doc entry =>
      unfold Call.Copied Database.findProblem at hk ⊢
      rwa [h.1]
  | saveTestCase loaded doc entry =>
      unfold Call.Copied Database.findTestCase at hk ⊢
      rwa [h.2]
  | _ => trivial

/-- A change of another document leaves it stored as it was loaded. -/
theorem copied_of_told (h : Told auth e db db') (hne : k.about ≠ some e.target)
    (hk : k.Copied db) : k.Copied db' := by
  cases k with
  | saveProblem loaded doc entry =>
      exact (h.problems _ fun heq ↦ hne (congrArg some heq.symm)).trans hk
  | saveTestCase loaded doc entry =>
      exact (h.testCases _ fun heq ↦ hne (congrArg some heq.symm)).trans hk
  | _ => trivial

theorem Effect.copied (h : Effect pf env c ctx w call out) (hk : k ∈ out.next) :
    k.Copied out.world.db := by
  cases h with
  | goesOn hnext => exact (hnext k hk).2.2
  | written _ _ _ _ =>
      cases hk
      trivial
  | account => cases hk
  | submission => cases hk

/-- A request stands where nothing is to be saved. -/
theorem Copied.put (h : Copied s) (hsame : SameContent s.world w) (hp : p.call = none) :
    Copied (State.put { s with world := w } i p) := by
  intro j k hk
  rw [phase_put] at hk
  split at hk
  · rw [hp] at hk
    cases hk
  · exact copied_of_same hsame (h j k hk)

/-- **Step lemma.** -/
theorem Moves.copied (hmove : Moves pf s a t) (hapart : Apart pf s a) (h : Copied s) :
    Copied t := by
  cases hmove with
  | refused => exact h
  | admitted _ _ => exact h.put ⟨rfl, rfl⟩ rfl
  | failed _ => exact h.put ⟨rfl, rfl⟩ rfl
  | threw _ _ => exact h.put ⟨rfl, rfl⟩ rfl
  | @performed i env c ctx out hrequest _ _ hrun heffect =>
      intro j k hk
      rw [phase_put] at hk
      split at hk
      · rw [(Phase.after_eq hrequest out.next).1] at hk
        exact heffect.copied hk
      · rename_i hj
        rcases heffect.changes with ⟨-, hsame⟩ | ⟨e, hentry, hwritten⟩
        · exact copied_of_same hsame (h j k hk)
        · -- The entry is about another document than that which the other request is busy with.
          refine copied_of_told hwritten.told (fun hsome ↦ ?_) (h j k hk)
          refine hapart.apart i env rfl out hrun _ (about_of_entry hentry) j hj ?_
          exact Option.bind_eq_some_iff.mpr ⟨k, hk, hsome⟩
  | logged _ => exact h.put ⟨rfl, rfl⟩ rfl
  | progressed => exact fun j k hk ↦ copied_of_same ⟨rfl, rfl⟩ (h j k hk)

/-- One step among requests that are apart. -/
theorem orderly_of_copied (h : Copied s) (hapart : Apart pf s a) : Orderly pf s a := by
  constructor
  case reliable => exact hapart.reliable
  case fresh =>
    cases a with
    | perform i env => exact h i
    | _ => trivial
  case apart =>
    intro e he j e' he' heq
    obtain ⟨i, env, out, rfl, hrun, hentry⟩ := exists_of_made he
    have hbusy : (s.phase j).about = some e.target := heq ▸ about_of_entry he'
    refine hapart.apart i env rfl out hrun _ (about_of_entry hentry) j (fun hj ↦ ?_) hbusy
    -- Whose entry waits has nothing else to do.
    obtain ⟨k, hk, hlog⟩ := Option.bind_eq_some_iff.mp (hj ▸ he')
    obtain ⟨c, ctx, hphase⟩ := Phase.eq_awaiting hk
    rw [hphase] at hrun
    cases k with
    | logAuditAction entry =>
        cases hrun
        cases hentry
    | _ => cases hlog

/-- **Requests that are apart are in order.** -/
theorem orderly_of_apart {as : List Event}
    (hrun : (service pf w).Run (Apart pf) (service pf w).init as s) :
    (service pf w).Run (Orderly pf) (service pf w).init as s := by
  have hinit : Sound pf (service pf w).init ∧ Copied (service pf w).init := by
    refine ⟨sound_init w, fun i k hk ↦ ?_⟩
    cases hk
  have hcopied := hrun.with_invariant (I := fun s ↦ Sound pf s ∧ Copied s) hinit
    fun s a t hs hapart hstep ↦ ?_
  · exact hcopied.mono fun s a hok ↦ orderly_of_copied hok.2.2 hok.1
  · have hmove := moves_of_step hs.1 hstep
    exact ⟨hmove.sound hs.1, hmove.copied hapart hs.2⟩

end

/-! Whether requests are apart can be checked, where it is known how many there are. -/

/-- What `Apart` asks, of the requests below a number. -/
def apartBelow (pf : Platform) (n : Nat) (s : State) : Event → Bool
  | .receive i _ _ _ _ => i < n
  | .perform i env => i < n &&
    match (s.phase i).run pf env s.world with
    | some (.ok out) => (out.next.bind Call.about).all fun x ↦
      (List.range n).all fun j ↦ j = i || (s.phase j).about ≠ some x
    | _ => true
  | .fail i => i < n && (s.phase i).entry.isNone
  | .progress _ _ => true

/-- Only requests below a number have come. -/
def Below (n : Nat) (s : State) : Prop := ∀ j, n ≤ j → s.phase j = .idle

section

variable {pf : Platform} {s t : State} {a : Event} {w : World} {n i : Nat} {p : Phase}

theorem Below.put (h : Below n s) (hi : i < n) : Below n (State.put { s with world := w } i p) := by
  intro j hj
  rw [phase_put, if_neg (by omega)]
  exact h j hj

/-- **Step lemma.** -/
theorem Moves.below (hmove : Moves pf s a t) (hcheck : apartBelow pf n s a = true)
    (h : Below n s) : Below n t := by
  cases hmove with
  | refused => exact h
  | admitted _ _ => exact h.put (of_decide_eq_true hcheck)
  | failed _ => exact h.put (of_decide_eq_true (Bool.and_eq_true_iff.mp hcheck).1)
  | threw _ _ => exact h.put (of_decide_eq_true (Bool.and_eq_true_iff.mp hcheck).1)
  | performed _ _ _ _ _ => exact h.put (of_decide_eq_true (Bool.and_eq_true_iff.mp hcheck).1)
  | logged _ => exact h.put (of_decide_eq_true (Bool.and_eq_true_iff.mp hcheck).1)
  | progressed => exact h

theorem apart_of_below (h : Below n s) (hcheck : apartBelow pf n s a = true) : Apart pf s a := by
  cases a with
  | perform i env =>
      refine ⟨trivial, ?_⟩
      rintro _ _ ⟨⟩ out hrun x hx j hj habout
      have hall := (Bool.and_eq_true_iff.mp hcheck).2
      simp only [hrun, Option.mem_def.mp hx, Option.all_some, List.all_eq_true,
        List.mem_range] at hall
      by_cases hn : j < n
      · simpa [hj, habout] using hall j hn
      · rw [h j (by omega)] at habout
        cases habout
  | fail i =>
      refine ⟨Option.isNone_iff_eq_none.mp (Bool.and_eq_true_iff.mp hcheck).2, ?_⟩
      intro i env heq
      cases heq
  | receive i route r limited now =>
      refine ⟨trivial, ?_⟩
      intro i env heq
      cases heq
  | progress id p =>
      refine ⟨trivial, ?_⟩
      intro i env heq
      cases heq

/-- A run that is checked. -/
theorem apart_of_run {as : List Event}
    (hrun : (service pf w).Run (fun s a ↦ apartBelow pf n s a = true) (service pf w).init as s) :
    (service pf w).Run (Apart pf) (service pf w).init as s := by
  have hinit : Sound pf (service pf w).init ∧ Below n (service pf w).init :=
    ⟨sound_init w, fun _ _ ↦ rfl⟩
  refine (hrun.with_invariant (I := fun s ↦ Sound pf s ∧ Below n s) hinit
    fun s a t hs hcheck hstep ↦ ?_).mono fun s a hok ↦ apart_of_below hok.2.2 hok.1
  have hmove := moves_of_step hs.1 hstep
  exact ⟨hmove.sound hs.1, hmove.below hcheck hs.2⟩

theorem exists_apart_administration : ∃ s, (service .sample administered).Run (Apart .sample)
    (service .sample administered).init administration s := by
  obtain ⟨s, hrun, -⟩ := Machine.exists_run_of_exec (service .sample administered)
    (fun s a ↦ apartBelow .sample 5 s a = true) (service .sample administered).init
    administration (fun _ ↦ true) (by decide +kernel)
  exact ⟨s, apart_of_run hrun⟩

end

/-! ## What the log tells -/

/-- Entries that wait to be added to the log, each once, and the request that each is of. -/
def Waiting (s : State) (waiting : List (Nat × AuditEntry)) : Prop :=
  (waiting.map Prod.fst).Nodup ∧ ∀ i e, (i, e) ∈ waiting ↔ (s.phase i).entry = some e

/-- The entries that the controllers of a run have made, in the order of the changes. -/
def acts (pf : Platform) (w : World) (as : List Event) : List AuditEntry :=
  (service pf w).outputs (made pf) (service pf w).init as

/-- The log tells of nothing that was not done, and of nothing twice; and where a document is
saved only as it was loaded, what was done comes to what is stored. -/
structure Accounted (pf : Platform) (w : World) (as : List Event) (s : State) : Prop where
  log : ∃ new, s.world.log = w.log ++ new ∧ (entries new).Subperm (acts pf w as)
  books : (service pf w).Run Fresh (service pf w).init as s →
    books s.world.db = replay pf.auth (books w.db) (acts pf w as)

/-- Every change has its entry, and the log and what waits for it have all of them. -/
structure Complete (pf : Platform) (w : World) (as : List Event) (s : State) : Prop where
  changes : (service pf w).Run (Audited pf) (service pf w).init as s
  entries : ∃ new waiting, s.world.log = w.log ++ new ∧ Waiting s waiting ∧
    (entries new ++ waiting.map Prod.snd).Perm (acts pf w as)

/-- What was stored before, the new entries of the log and those that wait come to what is
stored. -/
def Replays (pf : Platform) (w : World) (s : State) : Prop :=
  ∃ new waiting, s.world.log = w.log ++ new ∧ Waiting s waiting ∧
    replay pf.auth (books w.db) (entries new ++ waiting.map Prod.snd) = books s.world.db

section

variable {pf : Platform} {w : World} {s : State} {as : List Event}

/-- What the entries come to for a problem. -/
theorem problem_replay (auth : Auth) (b : Books) (es : List AuditEntry) (id : ObjectId) :
    (replay auth b es).problem id =
      (Journal.about AuditEntry.target (.problem, id) es).foldl (fun told e ↦ e.onProblem told)
        (b.problem id) :=
  Journal.foldl_about (fun b ↦ Books.problem b id) (fun b e ↦ problem_apply auth b e id) es b

/-- What they come to for a test case. -/
theorem testCase_replay (auth : Auth) (b : Books) (es : List AuditEntry) (id : ObjectId) :
    (replay auth b es).testCase id =
      (Journal.about AuditEntry.target (.testCase, id) es).foldl
        (fun told e ↦ e.onTestCase auth told) (b.testCase id) :=
  Journal.foldl_about (fun b ↦ Books.testCase b id) (fun b e ↦ testCase_apply auth b e id) es b

/-- What entries come to depends on their order for each document only. -/
theorem replay_congr {auth : Auth} {es es' : List AuditEntry}
    (h : ∀ k, Journal.about AuditEntry.target k es = Journal.about AuditEntry.target k es')
    (b : Books) : replay auth b es = replay auth b es' := by
  refine Books.ext (funext fun id ↦ ?_) (funext fun id ↦ ?_)
  · rw [problem_replay, problem_replay, h]
  · rw [testCase_replay, testCase_replay, h]

/-- **Run lemma.**  What was done comes to what is stored, where every document is saved as it
was loaded. -/
theorem books_of_run {ok : State → Event → Prop} (hok : ∀ s a, ok s a → Fresh s a)
    (hrun : (service pf w).Run ok (service pf w).init as s) :
    books s.world.db = replay pf.auth (books w.db) (acts pf w as) := by
  have hinv := (hrun.recorded (made pf) []).invariant
    (I := fun x ↦ Sound pf x.1 ∧ books x.1.world.db = replay pf.auth (books w.db) x.2)
    ⟨sound_init w, rfl⟩ ?_
  · exact hinv.2
  · rintro ⟨s, es⟩ a y ⟨hs, hbooks⟩ hallowed hstep
    obtain ⟨t, ht, rfl⟩ := Option.map_eq_some_iff.mp hstep
    have hmove := moves_of_step hs ht
    refine ⟨hmove.sound hs, ?_⟩
    dsimp only at hbooks ⊢
    rw [hmove.books (hok s a hallowed), hbooks, replay, replay, replay, List.foldl_append]

/-- **The log tells nothing that was not done**, and nothing twice, in every run. -/
theorem log_accounts_for_changes
    (hrun : (service pf w).Run Machine.anyStep (service pf w).init as s) :
    Accounted pf w as s := by
  obtain ⟨ms, c, hjournal, hR⟩ := exists_journal Machine.anyStep (fun _ _ _ ↦ trivial) hrun
  obtain ⟨new, hlog, hwritten⟩ := hR.log
  have hsub := Journal.subperm_of_run hjournal
  rw [hwritten, hR.record] at hsub
  exact ⟨⟨new, hlog, hsub⟩, books_of_run fun _ _ hfresh ↦ hfresh⟩

theorem log_accounts_for_changes_administration : ∃ s, (service .sample administered).Run
    Machine.anyStep (service .sample administered).init administration s ∧
      Accounted .sample administered administration s := by
  obtain ⟨s, hrun, -⟩ := exists_administration
  exact ⟨s, hrun, log_accounts_for_changes hrun⟩

/-- One problem. -/
def updatable : World := { administered with db := Api.Mongoose.withProblem }

/-- One update sets the title of the problem, and another one its difficulty, with the title
that it has read. -/
def updates : List Event :=
  let id := Auth.sample.idText 1
  [.receive 0 patchProblem (asked id [] (.object [(js "title", .string (js "Add"))])) false 10,
    .receive 1 patchProblem (asked id [] (.object [(js "title", .string (js "A")),
      (js "difficulty", .string (js "HARD"))])) false 11,
    .perform 0 ⟨20, 0, 0⟩, .perform 1 ⟨21, 0, 0⟩, .perform 0 ⟨22, 0, 0⟩, .perform 1 ⟨23, 0, 0⟩,
    .perform 0 ⟨24, 0, 0⟩, .perform 1 ⟨25, 0, 0⟩]

/-- **Two updates that overlap** set a title and a difficulty, one each, and what the log tells
comes to a problem with only one of them. -/
theorem overlapping_updates_diverge : ∃ s, (service .sample updatable).Run Machine.anyStep
    (service .sample updatable).init updates s ∧
      books s.world.db ≠
        replay Platform.sample.auth (books updatable.db) (entries s.world.log) := by
  obtain ⟨s, hrun, hbooks⟩ := Machine.exists_run_of_exec (service .sample updatable)
    Machine.anyStep (service .sample updatable).init updates
    (fun s ↦ decide (((books s.world.db).problem 1).map ProblemBook.title ≠
      ((replay Platform.sample.auth (books updatable.db) (entries s.world.log)).problem 1).map
        ProblemBook.title)) (by decide +kernel)
  exact ⟨s, hrun, fun heq ↦ of_decide_eq_true hbooks (by rw [heq])⟩

/-- **Every change has its entry, and nothing is missing in the log but what waits**, where no
entry is lost. -/
theorem log_complete (hrun : (service pf w).Run Reliable (service pf w).init as s) :
    Complete pf w as s := by
  obtain ⟨ms, c, hjournal, hR⟩ := exists_journal Journal.Kept (fun _ hok hwrites ↦ by
    cases hwrites with
    | drop heq hentry =>
        rw [heq] at hok
        cases hentry.symm.trans hok
    | _ => trivial) hrun
  obtain ⟨new, hlog, hwritten⟩ := hR.log
  have hperm := Journal.perm_of_run hjournal
  rw [Journal.entries, hwritten, hR.record] at hperm
  refine ⟨?_, new, c.waiting, hlog, ⟨hR.journal.writers, hR.waiting⟩, hperm⟩
  refine (hrun.with_invariant (sound_init w) fun _ _ _ hs _ hstep ↦ ?_).mono fun s a hok ↦ ?_
  · exact (moves_of_step hs hstep).sound hs
  · exact audited_of_sound hok.2 a

theorem log_complete_administration : ∃ s, (service .sample administered).Run Reliable
    (service .sample administered).init administration s ∧
      Complete .sample administered administration s := by
  obtain ⟨s, hrun⟩ := exists_apart_administration
  have hreliable := hrun.mono fun _ _ hok ↦ hok.reliable
  exact ⟨s, hreliable, log_complete hreliable⟩

/-- **The log replays**, where a document is saved only as it was loaded and does not change
while an entry about it waits. -/
theorem log_replays (hrun : (service pf w).Run (Orderly pf) (service pf w).init as s) :
    Replays pf w s := by
  obtain ⟨ms, c, hjournal, hR⟩ := exists_journal (Journal.Orderly AuditEntry.target)
    (fun hR hok hwrites ↦ by
      cases hwrites with
      | act hmade =>
          rintro ⟨j, e'⟩ hp
          have he : _ ∈ made pf _ _ := hmade ▸ List.mem_singleton_self _
          exact hok.apart _ he j e' ((hR.waiting j e').mp hp)
      | write => trivial
      | drop heq hentry =>
          have hreliable := hok.reliable
          rw [heq] at hreliable
          cases hentry.symm.trans hreliable) hrun
  obtain ⟨new, hlog, hwritten⟩ := hR.log
  have horder := Journal.inOrder_of_run hjournal
  have hacts : c.made = acts pf w as := hR.record
  refine ⟨new, c.waiting, hlog, ⟨hR.journal.writers, hR.waiting⟩, ?_⟩
  rw [books_of_run (fun _ _ hok ↦ hok.fresh) hrun, ← hacts, ← hwritten]
  exact replay_congr horder.entries _

theorem log_replays_administration : ∃ s, (service .sample administered).Run (Orderly .sample)
    (service .sample administered).init administration s ∧ Replays .sample administered s := by
  obtain ⟨s, hrun⟩ := exists_apart_administration
  have horderly := orderly_of_apart hrun
  exact ⟨s, horderly, log_replays horderly⟩

end

end CodeArena.Service
