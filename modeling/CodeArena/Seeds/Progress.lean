import CodeArena.Seeds.Completed

/-!
# A process that is not cut off completes

A script that the schemas accept, over accounts that argon2 can read, throws nowhere: a process
takes as many calls as the script has, and has completed with the last of them
(`seeding_completes`), whatever earlier processes have left.
-/

namespace CodeArena.Seeds

open CodeArena.Lib CodeArena.Lib.Utf
open CodeArena.Engine (trim)
open CodeArena.Submissions (ObjectId Time JsError)
open CodeArena.Api (Database Problem ProblemData TestCase TestCaseData)
open CodeArena.Accounts (Auth LawfulAuth User Users isEmail)
open CodeArena.Service (World Env)

/-- The schemas accept what the script says, and there is an administrator in it. -/
structure Script.Acceptable (auth : Auth) (script : Script) : Prop where
  names : ∀ u ∈ script.users, trim u.name ≠ [] ∧ (trim u.name).length ≤ 100
  emails : ∀ u ∈ script.users, isEmail (auth.normalizeEmail u.email) = true
  admin : ∃ u ∈ script.users, u.role = .admin
  problems : ∀ p ∈ script.problems, p.accepted = true

/-- The accounts under the addresses of the script can be verified, and are accepted but for what
the script sets. -/
def Readable (auth : Auth) (script : Script) (us : Users) : Prop :=
  ∀ u ∈ script.users, ∀ existing, us.findByEmail auth u.email = some existing →
    existing.passwordHash ≠ [] ∧ isEmail existing.email = true ∧
      ∃ isMatch, auth.verify existing.passwordHash u.password = .ok isMatch

/-! ## The calls -/

section

variable {auth : Auth} {script : Script} {env : Env}

theorem accepted_of {user : User} (hname : user.name ≠ []) (hlength : user.name.length ≤ 100)
    (hemail : isEmail user.email = true) (hhash : user.passwordHash ≠ []) :
    user.accepted = true :=
  decide_eq_true ⟨hname, hlength, Accounts.ne_nil_of_isEmail hemail, hemail, hhash⟩

theorem SeedUser.accepted_assign (u : SeedUser) {passwordHash : JsString} (now : Time)
    {existing : User} (hname : trim u.name ≠ []) (hlength : (trim u.name).length ≤ 100)
    (hemail : isEmail existing.email = true) (hhash : passwordHash ≠ []) :
    (u.assign passwordHash now existing).accepted = true := by
  have hset : User.accepted { existing with
      name := trim u.name, role := u.role, isActive := u.isActive, passwordHash } = true :=
    accepted_of hname hlength hemail hhash
  unfold assign
  dsimp only
  split
  · rename_i heq
    rwa [heq] at hset
  · exact accepted_of hname hlength hemail hhash

theorem seedUser_ok (hauth : LawfulAuth auth) (hscript : script.Acceptable auth) {us : Users}
    (hus : Readable auth script us) (hid : env.id ∉ us.docs.map User.id) {u : SeedUser}
    (hu : u ∈ script.users) : ∃ user us', seedUser auth env u us = .ok (user, us') := by
  obtain ⟨hname, hlength⟩ := hscript.names u hu
  unfold seedUser
  split
  · rename_i existing hfind
    obtain ⟨hhash, hemail, isMatch, hverify⟩ := hus u hu existing hfind
    rw [hverify]
    have hnext : (if isMatch then existing.passwordHash else auth.hash env.salt u.password) ≠ [] := by
      split
      · exact hhash
      · exact hauth.hash_ne_nil _ _
    have haccepted := u.accepted_assign env.now hname hlength hemail hnext
    dsimp only
    rw [saveUser, if_pos haccepted]
    exact ⟨_, _, rfl⟩
  · rename_i hfind
    have haccepted : User.accepted ⟨env.id, trim u.name, auth.normalizeEmail u.email,
        auth.hash env.salt u.password, u.role, u.isActive, env.now, env.now⟩ = true :=
      accepted_of hname hlength (hscript.emails u hu) (hauth.hash_ne_nil _ _)
    have hfree : us.taken (auth.normalizeEmail u.email) = false := by
      rw [Users.taken, List.any_eq_false]
      exact List.find?_eq_none.mp hfind
    rw [Users.create]
    dsimp only
    rw [if_pos haccepted, dif_pos hid, dif_pos hfree]
    exact ⟨_, _, rfl⟩

/-- What is stored of a problem is accepted as the problem was. -/
theorem accepted_trimmed (d : ProblemData) : d.trimmed.accepted = d.accepted := by
  simp only [ProblemData.accepted, ProblemData.trimmed, Api.trim_trim]

theorem SeedProblem.accepted_assign {p : SeedProblem} (hp : p.accepted = true)
    (adminUser : ObjectId) (now : Time) {existing : Problem} (h : existing.title = trim p.title) :
    (p.assign adminUser now existing).accepted = true := by
  show ProblemData.accepted (p.assign adminUser now existing).toProblemData = true
  rw [(SeedProblem.isSeeded_assign now h).data, accepted_trimmed, hp]

theorem seedProblem_ok (hscript : script.Acceptable auth) {db : Database} {adminUser : ObjectId}
    (hid : env.id ∉ db.problems.map Problem.id) {p : SeedProblem} (hp : p ∈ script.problems) :
    ∃ problemId db', seedProblem env adminUser p db = .ok (problemId, db') := by
  have haccepted := hscript.problems p hp
  unfold seedProblem
  split
  · rename_i existing hfind
    have hmeets := List.find?_some hfind
    have hsaved := SeedProblem.accepted_assign haccepted adminUser env.now
      (of_decide_eq_true hmeets)
    dsimp only
    rw [if_pos hsaved]
    exact ⟨_, _, rfl⟩
  · rw [if_pos haccepted, dif_pos hid]
    exact ⟨_, _, rfl⟩

theorem upsertTestCase_ok {db : Database} {problemId : ObjectId}
    (hid : env.id ∉ db.testCases.map TestCase.id) (tc : TestCaseData) :
    ∃ id db', upsertTestCase env problemId tc db = .ok (id, db') := by
  unfold upsertTestCase
  split
  · exact ⟨_, _, rfl⟩
  · rw [dif_pos hid]
    exact ⟨_, _, rfl⟩

/-! ## Accounts stay readable -/

/-- An account as the script says is readable, under the address of the script. -/
theorem Readable.of_upserted (hauth : LawfulAuth auth) (hscript : script.Distinct auth) {us us' : Users} (hus : Readable auth script us)
    {u : SeedUser} (hu : u ∈ script.users) {user : User}
    (h : seedUser auth env u us = .ok (user, us')) : Readable auth script us' := by
  obtain ⟨hset, hseeded, haccepted, -⟩ := seedUser_spec hauth h
  obtain ⟨-, -, -, hemail, hhash⟩ := of_decide_eq_true haccepted
  intro v hv existing hfind
  by_cases heq : auth.normalizeEmail u.email = auth.normalizeEmail v.email
  · obtain rfl := List.inj_on_of_nodup_map hscript.emails hu hv heq
    obtain rfl := Option.some.inj (hset.find?.symm.trans hfind)
    exact ⟨hhash, hemail, true, hseeded.password⟩
  · rw [findByEmail_of_upserted hset heq] at hfind
    exact hus v hv existing hfind

/-! ## The calls that are left -/

/-- The calls for a list of problems. -/
def problemCalls : List SeedProblem → Nat
  | [] => 0
  | p :: rest => p.testCases.length + 2 + problemCalls rest

/-- The calls of the script. -/
def Script.calls (script : Script) : Nat :=
  script.users.length + 1 + (problemCalls script.problems + 1)

/-- The calls that a process still has before it. -/
def Phase.remaining (script : Script) : Phase → Nat
  | .idle | .completed => 0
  | .users rest _ => rest.length + 1 + (problemCalls script.problems + 1)
  | .problems _ rest => problemCalls rest + 1
  | .testCases _ _ tcs _ rest => tcs.length + 1 + (problemCalls rest + 1)

/-- The event is a call. -/
def Event.isCall : Event → Bool
  | .call _ => true
  | .start _ | .stop => false

variable {s t : State}

/-- A call that comes through goes on. -/
theorem attempt_of_ok {α : Type} {w : World} {x : Except JsError α} {next : α → State} {a : α}
    (h : x = .ok a) : some (attempt w x next) = some (next a) := by
  rw [h]
  rfl

/-- A process that has not ended has completed where no call is left. -/
theorem completed_iff (script : Script) (h : s.phase ≠ .idle) :
    s.phase = .completed ↔ s.phase.remaining script = 0 := by
  constructor
  · intro hphase
    rw [hphase]
    rfl
  · intro hzero
    obtain ⟨w, phase⟩ := s
    cases phase with
    | idle => exact absurd rfl h
    | completed => rfl
    | users | problems | testCases => simp only [Phase.remaining] at hzero; omega

theorem Moves.readable (hauth : LawfulAuth auth) (hscript : script.Distinct auth)
    (h : Moves auth script s t) (hs : s.Done auth script)
    (hus : Readable auth script s.world.users) : Readable auth script t.world.users := by
  cases h with
  | @user w u rest adminUser env user users h =>
      obtain ⟨done, heq, -⟩ := hs
      exact hus.of_upserted hauth hscript (heq ▸ List.mem_append_right done List.mem_cons_self) h
  | ended | started | initialized | problem | testCase | deleted | completed => exact hus

/-- The administrator has been found once all accounts are seeded. -/
theorem exists_adminOf (hscript : script.Acceptable auth) {us : Users}
    (h : ∀ u ∈ script.users, HasUser auth us u) : ∃ id, adminOf auth us script.users = some id := by
  obtain ⟨admin, hmem, hrole⟩ := hscript.admin
  unfold adminOf
  cases hfind : script.users.reverse.find? (·.role = .admin) with
  | none =>
      have hnone := List.find?_eq_none.mp hfind admin (List.mem_reverse.mpr hmem)
      exact absurd (decide_eq_true hrole) hnone
  | some u =>
      obtain ⟨user, huser, -⟩ := h u (List.mem_reverse.mp (List.mem_of_find?_eq_some hfind))
      exact ⟨user.id, by rw [Option.bind_some, huser]; rfl⟩

/-- **One call.**  It goes on, and one call less is left. -/
theorem call_goes_on (hauth : LawfulAuth auth) (hscript : script.Acceptable auth)
    (hs : s.Done auth script) (hus : Readable auth script s.world.users)
    (hfresh : Fresh s (.call env)) (hleft : s.phase.remaining script ≠ 0) :
    ∃ t, s.call auth script env = some t ∧ t.phase ≠ .idle ∧
      t.phase.remaining script + 1 = s.phase.remaining script := by
  obtain ⟨w, phase⟩ := s
  simp only [Fresh, used, List.mem_append, not_or] at hfresh
  obtain ⟨⟨⟨huser, hproblem⟩, htestCase⟩, -⟩ := hfresh
  cases phase with
  | idle => exact absurd rfl hleft
  | completed => exact absurd rfl hleft
  | users rest adminUser =>
      obtain ⟨done, heq, hdone, rfl⟩ := hs
      cases rest with
      | nil =>
          rw [List.append_nil] at heq
          subst heq
          obtain ⟨id, hid⟩ := exists_adminOf hscript hdone
          rw [hid]
          exact ⟨_, rfl, by simp, by simp only [Phase.remaining, List.length_nil]; omega⟩
      | cons u rest =>
          obtain ⟨user, users, hok⟩ := seedUser_ok hauth hscript hus huser
            (heq ▸ List.mem_append_right done List.mem_cons_self)
          exact ⟨_, attempt_of_ok hok, by simp, by simp only [Phase.remaining, List.length_cons]; omega⟩
  | problems adminUser rest =>
      cases rest with
      | nil => exact ⟨_, rfl, by simp, rfl⟩
      | cons p rest =>
          obtain ⟨-, done, heq, -⟩ := hs
          obtain ⟨problemId, db, hok⟩ := seedProblem_ok hscript hproblem
            (heq ▸ List.mem_append_right done List.mem_cons_self)
          refine ⟨_, attempt_of_ok hok, by simp, ?_⟩
          simp only [Phase.remaining, problemCalls]
          omega
  | testCases adminUser problemId tcs seededTcIds rest =>
      cases tcs with
      | nil => exact ⟨_, rfl, by simp, by simp only [Phase.remaining, List.length_nil]; omega⟩
      | cons tc tcs =>
          obtain ⟨id, db, hok⟩ := upsertTestCase_ok htestCase tc
          exact ⟨_, attempt_of_ok hok, by simp, by simp only [Phase.remaining, List.length_cons]; omega⟩

/-- A process starts with the accounts. -/
theorem step_start (h : s.step auth script (.start false) = some t) :
    t = ⟨s.world, .users script.users none⟩ := by
  unfold State.step at h
  dsimp only at h
  split at h
  · exact (Option.some.inj h).symm
  · exact (Option.some.inj h).symm
  · cases h

/-- **A run of calls.** -/
theorem remaining_of_run (hauth : LawfulAuth auth) (hdistinct : script.Distinct auth)
    (hscript : script.Acceptable auth) {w : World} {calls : List Event}
    (hrun : (seeding auth script w).Run Fresh s calls t) :
    (∀ e ∈ calls, e.isCall = true) → s.phase ≠ .idle → s.Done auth script →
      Readable auth script s.world.users →
      t.phase ≠ .idle ∧ t.phase.remaining script + calls.length = s.phase.remaining script := by
  induction hrun with
  | nil s => exact fun _ hphase _ _ ↦ ⟨hphase, rfl⟩
  | @cons s s' t e calls hfresh hstep hrest ih =>
      intro hcalls hphase hs hus
      have hmove := moves_of_step hstep
      cases e with
      | start production => exact absurd (hcalls _ List.mem_cons_self) Bool.false_ne_true
      | stop => exact absurd (hcalls _ List.mem_cons_self) Bool.false_ne_true
      | call env =>
          have hleft : s.phase.remaining script ≠ 0 := by
            intro hzero
            obtain ⟨w, phase⟩ := s
            obtain rfl : phase = .completed := (completed_iff script hphase).mpr hzero
            cases hstep
          obtain ⟨s'', hcall, hphase', hless⟩ := call_goes_on hauth hscript hs hus hfresh hleft
          obtain rfl := Option.some.inj (hcall.symm.trans hstep)
          obtain ⟨hend, hsum⟩ := ih (fun e he ↦ hcalls e (List.mem_cons_of_mem _ he)) hphase'
            (hmove.done hauth hdistinct hs) (hmove.readable hauth hdistinct hs hus)
          refine ⟨hend, ?_⟩
          rw [List.length_cons]
          omega

/-- **A process that is not cut off completes**, with the last call of the script; until then the
next call goes on. -/
theorem seeding_completes (hauth : LawfulAuth auth) (hdistinct : script.Distinct auth)
    (hscript : script.Acceptable auth) {w : World} (hw : Readable auth script w.users)
    {before calls : List Event}
    (hbefore : (seeding auth script w).Run Fresh ⟨w, .idle⟩ before s)
    (hrun : (seeding auth script w).Run Fresh s (.start false :: calls) t)
    (hcalls : ∀ e ∈ calls, e.isCall = true) :
    calls.length ≤ script.calls ∧ (t.phase = .completed ↔ calls.length = script.calls) ∧
      (calls.length < script.calls → ∀ env, Fresh t (.call env) →
        ∃ t', t.step auth script (.call env) = some t' ∧ t'.phase ≠ .idle) := by
  have hkept : ∀ {ls s'}, (seeding auth script w).Run Fresh ⟨w, .idle⟩ ls s' →
      s'.Done auth script ∧ Readable auth script s'.world.users := fun h ↦
    h.invariant (I := fun s ↦ s.Done auth script ∧ Readable auth script s.world.users)
      ⟨trivial, hw⟩ fun _ _ _ h _ hstep ↦
        ⟨(moves_of_step hstep).done hauth hdistinct h.1,
          (moves_of_step hstep).readable hauth hdistinct h.1 h.2⟩
  obtain ⟨hdone, hreadable⟩ := hkept (hbefore.append hrun)
  cases hrun with
  | @cons _ s' _ _ _ hfresh hstep hrest =>
      obtain rfl := step_start (show s.step auth script (.start false) = some s' from hstep)
      obtain ⟨hdone', hreadable'⟩ := hkept (hbefore.append (.cons hfresh hstep (.nil _)))
      obtain ⟨hphase, hsum⟩ := remaining_of_run hauth hdistinct hscript hrest hcalls nofun hdone'
        hreadable'
      have hcount : t.phase.remaining script + calls.length = script.calls := hsum
      refine ⟨by omega, ?_, fun hless env henv ↦ ?_⟩
      · rw [completed_iff script hphase]
        omega
      · obtain ⟨t', hcall, hphase', -⟩ := call_goes_on hauth hscript hdone hreadable henv (by omega)
        exact ⟨t', hcall, hphase'⟩

end

/-! ## An example -/

theorem Script.sample_acceptable : Script.sample.Acceptable .sample where
  names u hu := by
    cases List.mem_singleton.mp hu
    decide +kernel
  emails u hu := by
    cases List.mem_singleton.mp hu
    decide +kernel
  admin := ⟨_, List.mem_cons_self, rfl⟩
  problems p hp := by
    cases List.mem_singleton.mp hp
    decide +kernel

/-- Six calls, and the example has completed. -/
theorem seeding_completes_sample : ∃ t, (seeding .sample .sample emptyWorld).Run Fresh
    ⟨emptyWorld, .idle⟩ (.start false :: callsFrom 11 6) t ∧ t.phase = .completed := by
  obtain ⟨t, hrun, -⟩ := Machine.exists_run_of_exec (seeding .sample .sample emptyWorld) Fresh
    ⟨emptyWorld, .idle⟩ (.start false :: callsFrom 11 6) (fun _ ↦ true) (by decide +kernel)
  have hreadable : Readable .sample .sample emptyWorld.users := by
    intro u _ existing hfind
    cases hfind
  have hcalls : ∀ e ∈ callsFrom 11 6, e.isCall = true := by
    intro e he
    obtain ⟨i, -, rfl⟩ := List.mem_map.mp he
    rfl
  obtain ⟨-, hiff, -⟩ := seeding_completes Auth.sample_lawful Script.sample_distinct
    Script.sample_acceptable hreadable (.nil _) hrun hcalls
  exact ⟨t, hrun, hiff.mpr rfl⟩

end CodeArena.Seeds
