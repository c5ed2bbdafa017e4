import CodeArena.Seeds.Calls

/-!
# What a completed process leaves

The accounts and the problems of the script are in the database as the script says, each problem
with just the test cases of the script, whatever was there before: other data under the same
addresses and titles, stale test cases, or what earlier processes have left that were cut off
(`seeded_of_completed`).

The lists of the script are asked for distinct addresses, distinct titles, and distinct orders of
the test cases of a problem (`Script.Distinct`).
-/

namespace CodeArena.Seeds

open CodeArena.Lib CodeArena.Lib.Utf
open CodeArena.Engine (trim)
open CodeArena.Submissions (ObjectId Time JsError)
open CodeArena.Api (Database Problem TestCase TestCaseData)
open CodeArena.Accounts (Auth LawfulAuth User Users)
open CodeArena.Service (World Env)

/-! ## The script -/

/-- Nothing in the script gets in the way of something else in it. -/
structure Script.Distinct (auth : Auth) (script : Script) : Prop where
  emails : (script.users.map fun u ↦ auth.normalizeEmail u.email).Nodup
  titles : (script.problems.map fun p ↦ trim p.title).Nodup
  orders : ∀ p ∈ script.problems, (p.testCases.map (·.order)).Nodup

theorem apart_hasEmail {auth : Auth} {e e' : JsString}
    (h : auth.normalizeEmail e ≠ auth.normalizeEmail e') :
    Apart (hasEmail auth e) (hasEmail auth e') := by
  intro user huser
  exact decide_eq_false fun h' ↦ h ((of_decide_eq_true huser).symm.trans h')

theorem apart_hasTitle {t t' : JsString} (h : trim t ≠ trim t') :
    Apart (hasTitle t) (hasTitle t') := by
  intro problem hproblem
  exact decide_eq_false fun h' ↦ h ((of_decide_eq_true hproblem).symm.trans h')

theorem apart_isCase {problemId : ObjectId} {tc tc' : TestCaseData} (h : tc.order ≠ tc'.order) :
    Apart (isCase problemId tc) (isCase problemId tc') := by
  intro t ht
  exact decide_eq_false fun h' ↦ h ((of_decide_eq_true ht).2.symm.trans h'.2)

/-- The test cases of another problem. -/
theorem apart_isCase_of_ne {problemId problemId' : ObjectId} (tc : TestCaseData)
    (h : problemId ≠ problemId') :
    Apart (isCase problemId tc) (fun t ↦ t.problemId = problemId') := by
  intro t ht
  exact decide_eq_false fun h' ↦ h ((of_decide_eq_true ht).1.symm.trans h')

/-! ## The database as the script says -/

/-- The account is as the script says. -/
def HasUser (auth : Auth) (us : Users) (u : SeedUser) : Prop :=
  ∃ user, us.findByEmail auth u.email = some user ∧ u.IsSeeded auth user

/-- The administrator among the first accounts of the script, the last one where there are
several. -/
def adminOf (auth : Auth) (us : Users) (done : List SeedUser) : Option ObjectId :=
  (done.reverse.find? (·.role = .admin)).bind fun u ↦
    (us.findByEmail auth u.email).map User.id

/-- The problem is as the script says, under an id. -/
def HasData (db : Database) (adminUser problemId : ObjectId) (p : SeedProblem) : Prop :=
  ∃ problem, db.problems.find? (hasTitle p.title) = some problem ∧ problem.id = problemId ∧
    p.IsSeeded adminUser problem

/-- The problem has the test cases of the script and no others. -/
def HasCases (db : Database) (problemId : ObjectId) (p : SeedProblem) : Prop :=
  ∃ ts, List.Forall₂ IsSeededCase p.testCases ts ∧
    (db.testCases.filter (·.problemId = problemId)).Perm ts

/-- The problem is as the script says, with its test cases. -/
def HasProblem (db : Database) (adminUser : ObjectId) (p : SeedProblem) : Prop :=
  ∃ problemId, HasData db adminUser problemId p ∧ HasCases db problemId p

/-- **Everything is as the script says.** -/
def Seeded (auth : Auth) (script : Script) (w : World) : Prop :=
  (∀ u ∈ script.users, HasUser auth w.users u) ∧
    ∃ adminUser, adminOf auth w.users script.users = some adminUser ∧
      ∀ p ∈ script.problems, HasProblem w.db adminUser p

/-! ## What one step does -/

/-- The steps, with what the calls come to. -/
inductive Moves (auth : Auth) (script : Script) : State → State → Prop
  | ended (s : State) : Moves auth script s { s with phase := .idle }
  | started (s : State) : Moves auth script s { s with phase := .users script.users none }
  | user {w : World} {u : SeedUser} {rest : List SeedUser} {adminUser : Option ObjectId} {env : Env}
      {user : User} {users : Users} (h : seedUser auth env u w.users = .ok (user, users)) :
      Moves auth script ⟨w, .users (u :: rest) adminUser⟩
        ⟨{ w with users }, .users rest (if u.role = .admin then some user.id else adminUser)⟩
  | initialized (w : World) (adminUser : ObjectId) :
      Moves auth script ⟨w, .users [] (some adminUser)⟩ ⟨w, .problems adminUser script.problems⟩
  | problem {w : World} {p : SeedProblem} {rest : List SeedProblem} {adminUser problemId : ObjectId}
      {env : Env} {db : Database} (h : seedProblem env adminUser p w.db = .ok (problemId, db)) :
      Moves auth script ⟨w, .problems adminUser (p :: rest)⟩
        ⟨{ w with db }, .testCases adminUser problemId p.testCases [] rest⟩
  | testCase {w : World} {tc : TestCaseData} {tcs : List TestCaseData}
      {adminUser problemId id : ObjectId} {seededTcIds : List ObjectId} {rest : List SeedProblem}
      {env : Env} {db : Database} (h : upsertTestCase env problemId tc w.db = .ok (id, db)) :
      Moves auth script ⟨w, .testCases adminUser problemId (tc :: tcs) seededTcIds rest⟩
        ⟨{ w with db }, .testCases adminUser problemId tcs (seededTcIds ++ [id]) rest⟩
  | deleted (w : World) (adminUser problemId : ObjectId) (seededTcIds : List ObjectId)
      (rest : List SeedProblem) :
      Moves auth script ⟨w, .testCases adminUser problemId [] seededTcIds rest⟩
        ⟨{ w with db := deleteOthers problemId seededTcIds w.db }, .problems adminUser rest⟩
  | completed (w : World) (adminUser : ObjectId) :
      Moves auth script ⟨w, .problems adminUser []⟩ ⟨w, .completed⟩

section

variable {auth : Auth} {script : Script} {s t : State}

/-- A call that throws ends the process, and one that does not goes on. -/
theorem moves_of_attempt {α : Type} {x : Except JsError α} {next : α → State}
    (h : attempt s.world x next = t) (hok : ∀ a, x = .ok a → Moves auth script s (next a)) :
    Moves auth script s t := by
  subst h
  cases x with
  | error e => exact .ended s
  | ok a => exact hok a rfl

theorem moves_of_call {env : Env} (h : s.call auth script env = some t) :
    Moves auth script s t := by
  obtain ⟨w, phase⟩ := s
  cases phase with
  | idle => cases h
  | completed => cases h
  | users rest adminUser =>
      cases rest with
      | nil =>
          cases adminUser with
          | none =>
              cases h
              exact .ended _
          | some adminUser =>
              cases h
              exact .initialized w adminUser
      | cons u rest => exact moves_of_attempt (s := ⟨w, _⟩) (Option.some.inj h) fun _ hok ↦ .user hok
  | problems adminUser rest =>
      cases rest with
      | nil =>
          cases h
          exact .completed w adminUser
      | cons p rest => exact moves_of_attempt (s := ⟨w, _⟩) (Option.some.inj h) fun _ hok ↦ .problem hok
  | testCases adminUser problemId tcs seededTcIds rest =>
      cases tcs with
      | nil =>
          cases h
          exact .deleted w adminUser problemId seededTcIds rest
      | cons tc tcs => exact moves_of_attempt (s := ⟨w, _⟩) (Option.some.inj h) fun _ hok ↦ .testCase hok

/-- **What a step does.** -/
theorem moves_of_step {e : Event} (h : s.step auth script e = some t) : Moves auth script s t := by
  cases e with
  | start production =>
      unfold State.step at h
      dsimp only at h
      split at h
      · cases production <;> cases h
        · exact .started s
        · exact .ended s
      · cases production <;> cases h
        · exact .started s
        · exact .ended s
      · cases h
  | call env => exact moves_of_call h
  | stop =>
      cases h
      exact .ended s

/-! ## What is done stays done -/

variable {us us' : Users} {db db' : Database} {adminUser problemId : ObjectId}

/-- An account is found as before while another address is seeded. -/
theorem findByEmail_of_upserted {u v : SeedUser} {user : User}
    (h : Upserted userKey (hasEmail auth u.email) us.docs user us'.docs)
    (hne : auth.normalizeEmail u.email ≠ auth.normalizeEmail v.email) :
    us'.findByEmail auth v.email = us.findByEmail auth v.email :=
  h.find?_of_disjoint (apart_hasEmail hne)

theorem adminOf_congr {done : List SeedUser}
    (h : ∀ u ∈ done, us'.findByEmail auth u.email = us.findByEmail auth u.email) :
    adminOf auth us' done = adminOf auth us done := by
  unfold adminOf
  cases hfind : done.reverse.find? (·.role = .admin) with
  | none => rfl
  | some u =>
      rw [Option.bind_some, Option.bind_some,
        h u (List.mem_reverse.mp (List.mem_of_find?_eq_some hfind))]

theorem adminOf_snoc {done : List SeedUser} {u : SeedUser} {user : User}
    (h : us.findByEmail auth u.email = some user) :
    adminOf auth us (done ++ [u]) =
      if u.role = .admin then some user.id else adminOf auth us done := by
  rw [adminOf, List.reverse_append, List.reverse_singleton, List.singleton_append, List.find?_cons]
  by_cases hrole : u.role = .admin
  · rw [if_pos hrole, decide_eq_true hrole]
    show (us.findByEmail auth u.email).map User.id = _
    rw [h]
    rfl
  · rw [if_neg hrole, decide_eq_false hrole]
    rfl

theorem HasData.of_upserted {p q : SeedProblem} {problem : Problem} {j : ObjectId}
    (hq : HasData db adminUser j q)
    (h : Upserted problemKey (hasTitle p.title) db.problems problem db'.problems)
    (hne : trim p.title ≠ trim q.title) : HasData db' adminUser j q := by
  obtain ⟨found, hfind, hrest⟩ := hq
  exact ⟨found, (h.find?_of_disjoint (apart_hasTitle hne)).trans hfind, hrest⟩

theorem HasData.congr {p : SeedProblem} (h : HasData db adminUser problemId p)
    (heq : db'.problems = db.problems) : HasData db' adminUser problemId p := by
  unfold HasData
  rw [heq]
  exact h

/-- Problems under different titles have different ids. -/
theorem HasData.ne {p q : SeedProblem} {i j : ObjectId} (hp : HasData db adminUser i p)
    (hq : HasData db adminUser j q) (hne : trim p.title ≠ trim q.title) : i ≠ j := by
  obtain ⟨x, hx, rfl, -⟩ := hp
  obtain ⟨y, hy, rfl, -⟩ := hq
  intro hid
  obtain rfl := Database.eq_of_id_eq db.problems_nodup (List.mem_of_find?_eq_some hx)
    (List.mem_of_find?_eq_some hy) hid
  have hmiss := apart_hasTitle hne x (List.find?_some hx)
  exact Bool.false_ne_true (hmiss.symm.trans (List.find?_some hy))

theorem HasCases.congr {p : SeedProblem} (h : HasCases db problemId p)
    (heq : db'.testCases.filter (·.problemId = problemId) =
      db.testCases.filter (·.problemId = problemId)) : HasCases db' problemId p := by
  unfold HasCases
  rw [heq]
  exact h

/-- Deleting test cases of one problem leaves those of another. -/
theorem filter_deleteOthers {j : ObjectId} {seededTcIds : List ObjectId} (hne : problemId ≠ j) :
    (deleteOthers problemId seededTcIds db).testCases.filter (·.problemId = j) =
      db.testCases.filter (·.problemId = j) := by
  show (db.testCases.filter _).filter _ = _
  rw [List.filter_filter]
  apply List.filter_congr
  intro t _
  by_cases ht : t.problemId = j
  · rw [decide_eq_true ht, Bool.true_and]
    exact decide_eq_true (.inl (ht ▸ hne.symm))
  · rw [decide_eq_false ht, Bool.false_and]

/-- **The deletion.**  What is left of the test cases of a problem is what was set. -/
theorem hasCases_deleteOthers {p : SeedProblem} {seededTcIds : List ObjectId}
    (horders : (p.testCases.map (·.order)).Nodup)
    (h : Found (isCase problemId) TestCase.id IsSeededCase db.testCases p.testCases seededTcIds) :
    HasCases (deleteOthers problemId seededTcIds db) problemId p := by
  have hapart : p.testCases.Pairwise fun tc tc' ↦
      Apart (isCase problemId tc) (isCase problemId tc') :=
    (List.pairwise_map.mp horders).imp apart_isCase
  obtain ⟨ts, hts, hperm⟩ := h.perm (q := fun t ↦ decide (t.problemId = problemId)) hapart
    (fun tc _ t ht ↦ decide_eq_true (of_decide_eq_true ht).1) db.testCases_nodup
  refine ⟨ts, hts, .trans (.of_eq ?_) hperm⟩
  show (db.testCases.filter _).filter _ = _
  rw [List.filter_filter]
  apply List.filter_congr
  intro t _
  by_cases ht : t.problemId = problemId
  · rw [decide_eq_true ht, Bool.true_and, Bool.true_and, decide_eq_decide]
    exact ⟨fun h ↦ h.resolve_left (· ht), .inr⟩
  · rw [decide_eq_false ht, Bool.false_and, Bool.false_and]

/-! ## As far as the process has come -/

/-- The accounts are as the script says, with the administrator that the process has found. -/
def HasUsers (auth : Auth) (script : Script) (us : Users) (adminUser : ObjectId) : Prop :=
  (∀ u ∈ script.users, HasUser auth us u) ∧ adminOf auth us script.users = some adminUser

/-- What the process has come to is as the script says. -/
def State.Done (auth : Auth) (script : Script) : State → Prop
  | ⟨_, .idle⟩ => True
  | ⟨w, .users rest adminUser⟩ =>
    ∃ done, script.users = done ++ rest ∧ (∀ u ∈ done, HasUser auth w.users u) ∧
      adminUser = adminOf auth w.users done
  | ⟨w, .problems adminUser rest⟩ =>
    HasUsers auth script w.users adminUser ∧
      ∃ done, script.problems = done ++ rest ∧ ∀ p ∈ done, HasProblem w.db adminUser p
  | ⟨w, .testCases adminUser problemId tcs seededTcIds rest⟩ =>
    HasUsers auth script w.users adminUser ∧
      ∃ done p set, script.problems = done ++ p :: rest ∧ p.testCases = set ++ tcs ∧
        (∀ q ∈ done, HasProblem w.db adminUser q) ∧ HasData w.db adminUser problemId p ∧
        Found (isCase problemId) TestCase.id IsSeededCase w.db.testCases set seededTcIds
  | ⟨w, .completed⟩ => Seeded auth script w

/-- In a list with distinct keys, a member differs from those before it. -/
theorem ne_of_nodup_map {α β : Type} {f : α → β} {done rest : List α} {x : α}
    (h : ((done ++ x :: rest).map f).Nodup) : ∀ y ∈ done, f x ≠ f y := by
  intro y hy heq
  rw [List.map_append, List.map_cons, List.nodup_append] at h
  exact h.2.2 (f y) (List.mem_map_of_mem hy) (f x) List.mem_cons_self heq.symm

/-- **One step.** -/
theorem Moves.done (hauth : LawfulAuth auth) (hscript : script.Distinct auth)
    (h : Moves auth script s t) (hs : s.Done auth script) : t.Done auth script := by
  cases h with
  | ended => trivial
  | started => exact ⟨[], rfl, nofun, rfl⟩
  | @user w u rest adminUser env user users h =>
      obtain ⟨done, heq, hdone, rfl⟩ := hs
      obtain ⟨hset, hseeded, -⟩ := seedUser_spec hauth h
      have hemails := hscript.emails
      rw [heq] at hemails
      have hkept : ∀ v ∈ done, users.findByEmail auth v.email = w.users.findByEmail auth v.email :=
        fun v hv ↦ findByEmail_of_upserted hset (ne_of_nodup_map hemails v hv)
      refine ⟨done ++ [u], by rw [heq, List.append_assoc]; rfl, fun v hv ↦ ?_, ?_⟩
      · rcases List.mem_append.mp hv with hv | hv
        · obtain ⟨found, hfind, hfound⟩ := hdone v hv
          exact ⟨found, (hkept v hv).trans hfind, hfound⟩
        · cases List.mem_singleton.mp hv
          exact ⟨user, hset.find?, hseeded⟩
      · rw [adminOf_snoc hset.find?, adminOf_congr hkept]
  | initialized w adminUser =>
      obtain ⟨done, heq, hdone, hadmin⟩ := hs
      rw [List.append_nil] at heq
      subst heq
      exact ⟨⟨hdone, hadmin.symm⟩, [], rfl, nofun⟩
  | @problem w p rest adminUser problemId env db h =>
      obtain ⟨husers, done, heq, hdone⟩ := hs
      obtain ⟨problem, hid, hset, hseeded, hcases, -, -⟩ := seedProblem_spec h
      have htitles := hscript.titles
      rw [heq] at htitles
      refine ⟨husers, done, p, [], heq, rfl, fun q hq ↦ ?_, ⟨problem, hset.find?, hid, hseeded⟩,
        .nil⟩
      obtain ⟨j, hdata, hq'⟩ := hdone q hq
      exact ⟨j, hdata.of_upserted hset (ne_of_nodup_map htitles q hq),
        hq'.congr (congrArg (List.filter _) hcases)⟩
  | @testCase w tc tcs adminUser problemId id seededTcIds rest env db h =>
      obtain ⟨husers, done, p, set, heq, hcases, hdone, hdata, hfound⟩ := hs
      obtain ⟨t, rfl, hset, hseeded, hproblems, -, -⟩ := upsertTestCase_spec h
      have htitles := hscript.titles
      rw [heq] at htitles
      have horders := hscript.orders p (heq ▸ List.mem_append_right done List.mem_cons_self)
      rw [hcases] at horders
      refine ⟨husers, done, p, set ++ [tc], heq, by rw [hcases, List.append_assoc]; rfl,
        fun q hq ↦ ?_, hdata.congr hproblems,
        hfound.snoc hset hseeded fun tc' htc' ↦ apart_isCase (ne_of_nodup_map horders tc' htc')⟩
      obtain ⟨j, hdata', hq'⟩ := hdone q hq
      have hne := hdata.ne hdata' (ne_of_nodup_map htitles q hq)
      exact ⟨j, hdata'.congr hproblems,
        hq'.congr (hset.filter_of_disjoint (apart_isCase_of_ne tc hne))⟩
  | deleted w adminUser problemId seededTcIds rest =>
      obtain ⟨husers, done, p, set, heq, hcases, hdone, hdata, hfound⟩ := hs
      rw [List.append_nil] at hcases
      subst hcases
      have htitles := hscript.titles
      rw [heq] at htitles
      have horders := hscript.orders p (heq ▸ List.mem_append_right done List.mem_cons_self)
      refine ⟨husers, done ++ [p], by rw [heq, List.append_assoc]; rfl, fun q hq ↦ ?_⟩
      rcases List.mem_append.mp hq with hq | hq
      · obtain ⟨j, hdata', hq'⟩ := hdone q hq
        have hne := hdata.ne hdata' (ne_of_nodup_map htitles q hq)
        exact ⟨j, hdata'.congr rfl, hq'.congr (filter_deleteOthers hne)⟩
      · cases List.mem_singleton.mp hq
        exact ⟨problemId, hdata.congr rfl, hasCases_deleteOthers horders hfound⟩
  | completed w adminUser =>
      obtain ⟨⟨husers, hadmin⟩, done, heq, hdone⟩ := hs
      rw [List.append_nil] at heq
      subst heq
      exact ⟨husers, adminUser, hadmin, hdone⟩

theorem done_of_run (hauth : LawfulAuth auth) (hscript : script.Distinct auth) {w : World}
    {ok : State → Event → Prop} {ls : List Event}
    (hrun : (seeding auth script w).Run ok ⟨w, .idle⟩ ls s) : s.Done auth script :=
  hrun.invariant trivial fun _ _ _ hs _ hstep ↦ (moves_of_step hstep).done hauth hscript hs

theorem State.Done.seeded (hs : s.Done auth script) (hphase : s.phase = .completed) :
    Seeded auth script s.world := by
  obtain ⟨w, phase⟩ := s
  obtain rfl : phase = .completed := hphase
  exact hs

/-- **What a completed process leaves**, after any processes that were cut off anywhere, and
whatever was there before. -/
theorem seeded_of_completed (hauth : LawfulAuth auth) (hscript : script.Distinct auth) {w : World}
    {ok : State → Event → Prop} {ls : List Event}
    (hrun : (seeding auth script w).Run ok ⟨w, .idle⟩ ls s) (hphase : s.phase = .completed) :
    Seeded auth script s.world :=
  (done_of_run hauth hscript hrun).seeded hphase

end

/-! ## An example -/

/-- A process has completed. -/
def State.isCompleted (s : State) : Bool :=
  match s.phase with
  | .completed => true
  | .idle | .users _ _ | .problems _ _ | .testCases _ _ _ _ _ => false

theorem phase_of_isCompleted {s : State} (h : s.isCompleted = true) : s.phase = .completed := by
  obtain ⟨w, phase⟩ := s
  cases phase with
  | completed => rfl
  | idle | users | problems | testCases => cases h

theorem Script.sample_distinct : Script.sample.Distinct .sample where
  emails := by decide +kernel
  titles := by decide +kernel
  orders p hp := by
    cases List.mem_singleton.mp hp
    decide +kernel

/-- A process that is cut off after the problem, and one that completes. -/
def twoProcesses : List Event :=
  .start false :: callsFrom 1 3 ++ .stop :: .start false :: callsFrom 11 6

theorem exists_twoProcesses : ∃ s, (seeding .sample .sample emptyWorld).Run Fresh
    ⟨emptyWorld, .idle⟩ twoProcesses s ∧ s.isCompleted = true :=
  Machine.exists_run_of_exec _ _ _ _ State.isCompleted (by decide +kernel)

/-- After both of them the database is as the script says. -/
theorem seeded_of_completed_two : ∃ s, (seeding .sample .sample emptyWorld).Run Fresh
    ⟨emptyWorld, .idle⟩ twoProcesses s ∧ s.phase = .completed ∧
      Seeded .sample .sample s.world := by
  obtain ⟨s, hrun, hcompleted⟩ := exists_twoProcesses
  have hphase := phase_of_isCompleted hcompleted
  exact ⟨s, hrun, hphase,
    seeded_of_completed Auth.sample_lawful Script.sample_distinct hrun hphase⟩

end CodeArena.Seeds
