import CodeArena.Service.System

/-!
# Who may change what

No request writes a role after an account was created, and `register` creates users only; so
whoever is an administrator in some state was one from the start.  Only for such an account, by
a token that was verified for it, does anything change about the problems, the test cases and
the audit log, and every entry of the log names the account whose request has added it.  A
submission belongs to the account that was authenticated for its request, and what was
submitted stays as it was, whatever the queue and the workers make of it
(`only_administrators_change`).

Between the check of a request and the calls of its controller the accounts may have grown, but
whom the check has let through is let through still: an account is never changed.
-/

namespace CodeArena.Service

open CodeArena.Lib CodeArena.Lib.Utf
open CodeArena.Submissions (ObjectId Time)
open CodeArena.Api (Database Problem TestCase SubmissionDoc)
open CodeArena.Accounts (Auth User Users)

/-- An account of an administrator that may be used. -/
structure Administrator (us : Users) (u : User) : Prop where
  mem : u ∈ us.docs
  role : u.role = .admin
  isActive : u.isActive = true

/-- What was submitted, and by whom. -/
structure Submitted where
  id : ObjectId
  userId : ObjectId
  problemId : ObjectId
  language : String
  sourceCode : JsString
  createdAt : Time

/-- What was submitted. -/
def submitted (s : SubmissionDoc) : Submitted :=
  ⟨s.id, s.userId, s.problemId, s.language, s.sourceCode, s.createdAt⟩

/-- Everything that was submitted. -/
def World.submitted (w : World) : List Submitted := w.db.submissions.map Service.submitted

/-- The step is a call of a controller, for a request that was authenticated for an account. -/
def ByAccount (pf : Platform) (s : State) (a : Event) (allowed : Controller → Prop) (u : User) :
    Prop :=
  ∃ i env c ctx, a = .perform i env ∧ (s.phase i).request = some (c, ctx) ∧ allowed c ∧
    Known pf s.world.users ctx u

/-- The step is a call of a controller that may write, for a request of an administrator. -/
def ByAdministrator (pf : Platform) (start : Users) (s : State) (a : Event) (u : User) : Prop :=
  Administrator start u ∧ ByAccount pf s a (fun c ↦ c.isWriter = true) u

/-- What a step adds to a list is nothing, or one thing. -/
def AddsOne {α : Type} (P : α → Prop) (before after : List α) : Prop :=
  after = before ∨ ∃ x, after = before ++ [x] ∧ P x

/-- What is known of a state, of what was stored at the start. -/
structure Guarded (pf : Platform) (w : World) (s : State) : Prop where
  /-- The accounts of the start are as they were, and no other is an administrator's. -/
  accounts : ∃ new, s.world.users.docs = w.users.docs ++ new ∧ ∀ u ∈ new, u.role = .user
  /-- Problems and test cases change for administrators only. -/
  content : ∀ a t, step pf s a = some t →
    SameContent s.world t.world ∨ ∃ u, ByAdministrator pf w.users s a u
  /-- An entry is added to the log for an administrator, and names that one. -/
  logging : ∀ a t, step pf s a = some t →
    AddsOne (fun entry : AuditLog ↦ ∃ u, ByAdministrator pf w.users s a u ∧ entry.userId = u.id)
      s.world.log t.world.log
  /-- A submission is added for the account that its request was authenticated for. -/
  submitting : ∀ a t, step pf s a = some t →
    AddsOne (fun x : Submitted ↦ ∃ u, ByAccount pf s a (· = .createSubmission) u ∧
      x.userId = u.id) s.world.submitted t.world.submitted
  /-- So the log has grown, and every new entry names an administrator. -/
  log : ∃ new, s.world.log = w.log ++ new ∧
    ∀ entry ∈ new, ∃ u, Administrator w.users u ∧ entry.userId = u.id
  /-- What was submitted stays, and every new submission is one of an active account. -/
  submissions : ∃ new, s.world.submitted = w.submitted ++ new ∧
    ∀ x ∈ new, ∃ u ∈ s.world.users.docs, u.isActive = true ∧ x.userId = u.id
  /-- Where nobody is an administrator, nothing of this ever changes. -/
  nobody : (∀ u, ¬ Administrator w.users u) → SameContent w s.world ∧ s.world.log = w.log

/-- What one step preserves. -/
structure Inv (pf : Platform) (w : World) (s : State) : Prop where
  sound : Sound pf s
  accounts : ∃ new, s.world.users.docs = w.users.docs ++ new ∧ ∀ u ∈ new, u.role = .user
  log : ∃ new, s.world.log = w.log ++ new ∧
    ∀ entry ∈ new, ∃ u, Administrator w.users u ∧ entry.userId = u.id
  submissions : ∃ new, s.world.submitted = w.submitted ++ new ∧
    ∀ x ∈ new, ∃ u ∈ s.world.users.docs, u.isActive = true ∧ x.userId = u.id
  nobody : (∀ u, ¬ Administrator w.users u) → SameContent w s.world

section

variable {pf : Platform} {w : World} {s t : State} {a : Event} {env : Env} {c : Controller}
  {ctx : Context} {out : Outcome} {i : Nat} {call : Option Call}

theorem AddsOne.same {α : Type} {P : α → Prop} {xs : List α} : AddsOne P xs xs := .inl rfl

/-- What is added one by one is added. -/
theorem AddsOne.append {α : Type} {P Q : α → Prop} {start before after : List α}
    (h : AddsOne P before after) (hPQ : ∀ x, P x → Q x)
    (hstart : ∃ new, before = start ++ new ∧ ∀ x ∈ new, Q x) :
    ∃ new, after = start ++ new ∧ ∀ x ∈ new, Q x := by
  obtain ⟨new, rfl, hnew⟩ := hstart
  rcases h with rfl | ⟨x, rfl, hx⟩
  · exact ⟨new, rfl, hnew⟩
  · refine ⟨new ++ [x], List.append_assoc .., fun y hy ↦ ?_⟩
    rcases List.mem_append.mp hy with hy | hy
    · exact hnew y hy
    · rw [List.mem_singleton.mp hy]
      exact hPQ x hx

/-- Whose request is in a controller that may write is an administrator of the start. -/
theorem administrator_of_request (hs : Inv pf w s) (hi : (s.phase i).request = some (c, ctx))
    (hc : c.isWriter = true) (env : Env) : ∃ u, ctx.user = some u ∧
      ByAdministrator pf w.users s (.perform i env) u := by
  obtain ⟨u, hknown, hrole⟩ := (hs.sound.admitted i c ctx hi).admin hc
  obtain ⟨hmem, hactive⟩ := hknown.mem
  refine ⟨u, hknown.user, ⟨?_, hrole, hactive⟩, i, env, c, ctx, rfl, hi, hc, hknown⟩
  obtain ⟨new, hdocs, hnew⟩ := hs.accounts
  rw [hdocs] at hmem
  rcases List.mem_append.mp hmem with hold | hadded
  · exact hold
  · rw [hnew u hadded] at hrole
    cases hrole

theorem Written.submissions {auth : Auth} {db db' : Database} {entry : AuditEntry}
    (h : Written auth db call entry db') : db'.submissions = db.submissions := by
  cases h <;> rfl

/-- A call of a controller that does not write to problems and test cases leaves them. -/
theorem Effect.content (h : Effect pf env c ctx w call out) :
    SameContent w out.world ∨ c.isWriter = true := by
  cases h with
  | written hc => exact .inr hc
  | _ => exact .inl ⟨rfl, rfl⟩

/-- What was submitted after a call. -/
theorem Effect.submitted (h : Effect pf env c ctx w call out) :
    AddsOne (fun x ↦ ∃ u, c = .createSubmission ∧ ctx.user = some u ∧ x.userId = u.id)
      w.submitted out.world.submitted := by
  cases h with
  | goesOn => exact .same
  | account => exact .same
  | written _ _ _ hwritten =>
      rw [World.submitted, World.submitted, hwritten.submissions]
      exact .same
  | submission hc huser => exact .inr ⟨_, List.map_append, _, hc, huser, rfl⟩

/-- The workers leave what was submitted as it is. -/
theorem map_submitted_processed (id : ObjectId) (p : Progress) (db : Database) :
    (processed id p db).submissions.map submitted = db.submissions.map submitted := by
  rw [processed, List.map_map]
  refine List.map_congr_left fun s _ ↦ ?_
  rw [Function.comp_apply]
  split <;> rfl

/-! ## One step -/

/-- Accounts are added, and none of them is an administrator's. -/
theorem Moves.accounts (hmove : Moves pf s a t) : ∃ new,
    t.world.users.docs = s.world.users.docs ++ new ∧ ∀ u ∈ new, u.role = .user := by
  cases hmove with
  | performed _ _ _ _ heffect => exact heffect.users
  | _ => exact ⟨[], (List.append_nil _).symm, nofun⟩

/-- What a step changes of problems and test cases. -/
theorem Moves.content (hmove : Moves pf s a t) (hs : Inv pf w s) :
    SameContent s.world t.world ∨ ∃ u, ByAdministrator pf w.users s a u := by
  cases hmove with
  | performed hrequest _ _ _ heffect =>
      rcases heffect.content with hsame | hc
      · exact .inl hsame
      · obtain ⟨u, -, hu⟩ := administrator_of_request hs hrequest hc _
        exact .inr ⟨u, hu⟩
  | _ => exact .inl ⟨rfl, rfl⟩

/-- What it adds to the log. -/
theorem Moves.logging (hmove : Moves pf s a t) (hs : Inv pf w s) :
    AddsOne (fun entry : AuditLog ↦ ∃ u, ByAdministrator pf w.users s a u ∧ entry.userId = u.id)
      s.world.log t.world.log := by
  cases hmove with
  | performed _ _ _ _ heffect => exact .inl heffect.log
  | @logged i env c ctx entry hphase =>
      refine .inr ⟨_, rfl, ?_⟩
      cases hs.sound.pending i c ctx _ hphase with
      | logAuditAction hc huser hid =>
          have hrequest : (s.phase i).request = some (c, ctx) := by rw [hphase]; rfl
          obtain ⟨u, hu, hadmin⟩ := administrator_of_request hs hrequest hc env
          obtain rfl := Option.some.inj (hu.symm.trans huser)
          exact ⟨u, hadmin, hid⟩
  | _ => exact .same

/-- What it adds to the submissions. -/
theorem Moves.submitting (hmove : Moves pf s a t) :
    AddsOne (fun x : Submitted ↦ ∃ u, ByAccount pf s a (· = .createSubmission) u ∧
      x.userId = u.id) s.world.submitted t.world.submitted := by
  cases hmove with
  | @performed i env c ctx out hrequest hadmitted _ _ heffect =>
      rcases heffect.submitted with hsame | ⟨x, hadded, u, hc, huser, hid⟩
      · exact .inl hsame
      · obtain ⟨u', hknown⟩ := hadmitted.author hc
        obtain rfl := Option.some.inj (hknown.user.symm.trans huser)
        exact .inr ⟨x, hadded, u', ⟨i, env, c, ctx, rfl, hrequest, hc, hknown⟩, hid⟩
  | progressed => exact .inl (map_submitted_processed ..)
  | _ => exact .same

/-- **Step lemma.** -/
theorem Moves.inv (hmove : Moves pf s a t) (hs : Inv pf w s) : Inv pf w t := by
  obtain ⟨added, hadded, hrole⟩ := hmove.accounts
  have hgrown : s.world.users.docs ⊆ t.world.users.docs := by
    rw [hadded]
    exact List.subset_append_left ..
  constructor
  case sound => exact hmove.sound hs.sound
  case accounts =>
    obtain ⟨new, hold, hnew⟩ := hs.accounts
    refine ⟨new ++ added, ?_, fun u hu ↦ ?_⟩
    · rw [hadded, hold, List.append_assoc]
    · exact (List.mem_append.mp hu).elim (hnew u) (hrole u)
  case log =>
    refine (hmove.logging hs).append (fun entry hentry ↦ ?_) hs.log
    obtain ⟨u, hadmin, hid⟩ := hentry
    exact ⟨u, hadmin.1, hid⟩
  case submissions =>
    obtain ⟨new, hold, hnew⟩ := hs.submissions
    refine hmove.submitting.append (fun x hx ↦ ?_) ⟨new, hold, fun x hx ↦ ?_⟩
    · obtain ⟨u, ⟨_, _, _, _, _, _, _, hknown⟩, hid⟩ := hx
      exact ⟨u, hgrown hknown.mem.1, hknown.mem.2, hid⟩
    · obtain ⟨u, hu, hactive, hid⟩ := hnew x hx
      exact ⟨u, hgrown hu, hactive, hid⟩
  case nobody =>
    intro hnone
    rcases hmove.content hs with hsame | ⟨u, hadmin⟩
    · exact ⟨hsame.1.trans (hs.nobody hnone).1, hsame.2.trans (hs.nobody hnone).2⟩
    · exact absurd hadmin.1 (hnone u)

theorem inv_init (w : World) : Inv pf w (service pf w).init where
  sound := sound_init w
  accounts := ⟨[], (List.append_nil _).symm, nofun⟩
  log := ⟨[], (List.append_nil _).symm, nofun⟩
  submissions := ⟨[], (List.append_nil _).symm, nofun⟩
  nobody _ := ⟨rfl, rfl⟩

/-! ## Every run -/

/-- **Only administrators change anything**: in every run of the service, with any requests
under way. -/
theorem only_administrators_change {es : List Event}
    (hrun : (service pf w).Run Machine.anyStep (service pf w).init es s) : Guarded pf w s := by
  have hs : Inv pf w s := hrun.invariant (inv_init w) fun _ _ _ hs _ hstep ↦
    (moves_of_step hs.sound hstep).inv hs
  constructor
  case accounts => exact hs.accounts
  case content => exact fun a t hstep ↦ (moves_of_step hs.sound hstep).content hs
  case logging => exact fun a t hstep ↦ (moves_of_step hs.sound hstep).logging hs
  case submitting => exact fun a t hstep ↦ (moves_of_step hs.sound hstep).submitting
  case log => exact hs.log
  case submissions => exact hs.submissions
  case nobody =>
    intro hnone
    refine ⟨hs.nobody hnone, ?_⟩
    obtain ⟨new, hlog, hnew⟩ := hs.log
    have hempty : new = [] := by
      rw [List.eq_nil_iff_forall_not_mem]
      intro entry hentry
      obtain ⟨u, hu, -⟩ := hnew entry hentry
      exact hnone u hu
    rw [hlog, hempty, List.append_nil]

end

theorem only_administrators_change_administration : ∃ s, (service .sample administered).Run
    Machine.anyStep (service .sample administered).init administration s ∧
      Guarded .sample administered s := by
  obtain ⟨s, hrun, -⟩ := exists_administration
  exact ⟨s, hrun, only_administrators_change hrun⟩

end CodeArena.Service
