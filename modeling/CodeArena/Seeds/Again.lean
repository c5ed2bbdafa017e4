import CodeArena.Seeds.Completed

/-!
# What the seed script leaves alone

Whatever becomes of its processes, the script removes no account and no problem and renumbers
none, and what is not under its addresses and titles stays as it is, with the test cases of all
other problems (`seeding_leaves_others`).

Once the database is as the script says, further processes change nothing in it, wherever they are
cut off, but for the times at which test cases were updated last (`seeding_again`).
-/

namespace CodeArena.Seeds

open CodeArena.Lib CodeArena.Lib.Utf
open CodeArena.Engine (trim)
open CodeArena.Submissions (ObjectId Time)
open CodeArena.Api (Database Problem TestCase TestCaseData)
open CodeArena.Accounts (Auth LawfulAuth User Users)
open CodeArena.Service (World Env)

/-! ## What is not in the script -/

/-- The address is one of the script. -/
def Script.hasEmail (auth : Auth) (script : Script) (user : User) : Bool :=
  script.users.any fun u ↦ Seeds.hasEmail auth u.email user

/-- The title is one of the script. -/
def Script.hasTitle (script : Script) (problem : Problem) : Bool :=
  script.problems.any fun p ↦ Seeds.hasTitle p.title problem

/-- What `w'` has of `w`, and how far it may differ from it. -/
structure Spared (auth : Auth) (script : Script) (w w' : World) : Prop where
  log : w'.log = w.log
  submissions : w'.db.submissions = w.db.submissions
  /-- Accounts keep their ids and addresses. -/
  users_kept : w.users.docs.map userKey <+: w'.users.docs.map userKey
  /-- Problems keep their ids and titles. -/
  problems_kept : w.db.problems.map problemKey <+: w'.db.problems.map problemKey
  users : w'.users.docs.filter (!script.hasEmail auth ·) =
    w.users.docs.filter (!script.hasEmail auth ·)
  problems : w'.db.problems.filter (!script.hasTitle ·) =
    w.db.problems.filter (!script.hasTitle ·)
  /-- Test cases are left where they belong to no problem of the script. -/
  testCases : ∀ id, (∀ problem ∈ w'.db.problems, script.hasTitle problem = true →
    problem.id ≠ id) → w'.db.testCases.filter (·.problemId = id) =
      w.db.testCases.filter (·.problemId = id)

namespace Spared

variable {auth : Auth} {script : Script} {w w' w'' : World}

theorem refl (w : World) : Spared auth script w w :=
  ⟨rfl, rfl, List.prefix_refl _, List.prefix_refl _, rfl, rfl, fun _ _ ↦ rfl⟩

/-- A problem of the script stays one, under its id. -/
theorem exists_hasTitle (h : w.db.problems.map problemKey <+: w'.db.problems.map problemKey)
    {problem : Problem} (hmem : problem ∈ w.db.problems)
    (htitle : script.hasTitle problem = true) :
    ∃ problem' ∈ w'.db.problems, script.hasTitle problem' = true ∧ problem'.id = problem.id := by
  obtain ⟨problem', hmem', hkey⟩ := List.mem_map.mp (h.subset (List.mem_map_of_mem hmem))
  obtain ⟨hid, heq⟩ := Prod.mk.inj hkey
  refine ⟨problem', hmem', ?_, hid⟩
  obtain ⟨p, hp, hpt⟩ := List.any_eq_true.mp htitle
  refine List.any_eq_true.mpr ⟨p, hp, decide_eq_true ?_⟩
  rw [heq]
  exact of_decide_eq_true hpt

theorem trans (h : Spared auth script w w') (h' : Spared auth script w' w'') :
    Spared auth script w w'' where
  log := h'.log.trans h.log
  submissions := h'.submissions.trans h.submissions
  users_kept := h.users_kept.trans h'.users_kept
  problems_kept := h.problems_kept.trans h'.problems_kept
  users := h'.users.trans h.users
  problems := h'.problems.trans h.problems
  testCases id hid := by
    refine (h'.testCases id hid).trans (h.testCases id fun problem hmem htitle heq ↦ ?_)
    obtain ⟨problem', hmem', htitle', hid'⟩ := exists_hasTitle h'.problems_kept hmem htitle
    exact hid problem' hmem' htitle' (hid'.trans heq)

/-- A problem that is not in the script keeps its test cases. -/
theorem testCases_of_mem (h : Spared auth script w w') {problem : Problem}
    (hmem : problem ∈ w.db.problems) (htitle : script.hasTitle problem = false) :
    w'.db.testCases.filter (·.problemId = problem.id) =
      w.db.testCases.filter (·.problemId = problem.id) := by
  refine h.testCases problem.id fun problem' hmem' htitle' hid ↦ ?_
  have hfilter : problem ∈ w'.db.problems.filter (!script.hasTitle ·) := by
    rw [h.problems]
    exact List.mem_filter.mpr ⟨hmem, by rw [htitle]; rfl⟩
  have heq := Database.eq_of_id_eq w'.db.problems_nodup hmem' (List.mem_of_mem_filter hfilter) hid
  rw [heq, htitle] at htitle'
  cases htitle'

end Spared

section

variable {auth : Auth} {script : Script} {s t : State}

theorem apart_script_hasEmail {u : SeedUser} (hu : u ∈ script.users) :
    Apart (hasEmail auth u.email) (!script.hasEmail auth ·) := by
  intro user huser
  have hany : script.hasEmail auth user = true := List.any_eq_true.mpr ⟨u, hu, huser⟩
  exact congrArg (!·) hany

theorem apart_script_hasTitle {p : SeedProblem} (hp : p ∈ script.problems) :
    Apart (hasTitle p.title) (!script.hasTitle ·) := by
  intro problem hproblem
  have hany : script.hasTitle problem = true := List.any_eq_true.mpr ⟨p, hp, hproblem⟩
  exact congrArg (!·) hany

/-- The problem that the process is at is one of the script. -/
theorem HasData.ne_of_hasTitle {db : Database} {adminUser problemId id : ObjectId} {p : SeedProblem}
    (h : HasData db adminUser problemId p) (hp : p ∈ script.problems)
    (hid : ∀ problem ∈ db.problems, script.hasTitle problem = true → problem.id ≠ id) :
    problemId ≠ id := by
  obtain ⟨problem, hfind, rfl, -⟩ := h
  exact hid problem (List.mem_of_find?_eq_some hfind)
    (List.any_eq_true.mpr ⟨p, hp, List.find?_some hfind⟩)

/-- **One step.** -/
theorem Moves.spared (hauth : LawfulAuth auth) (h : Moves auth script s t)
    (hs : s.Done auth script) : Spared auth script s.world t.world := by
  cases h with
  | ended => exact .refl _
  | started => exact .refl _
  | @user w u rest adminUser env user users h =>
      obtain ⟨done, heq, -⟩ := hs
      have hu : u ∈ script.users := heq ▸ List.mem_append_right done List.mem_cons_self
      obtain ⟨hset, -⟩ := seedUser_spec hauth h
      exact ⟨rfl, rfl, hset.keys_prefix, List.prefix_refl _,
        hset.filter_of_disjoint (apart_script_hasEmail hu), rfl, fun _ _ ↦ rfl⟩
  | initialized w adminUser => exact .refl _
  | @problem w p rest adminUser problemId env db h =>
      obtain ⟨-, done, heq, -⟩ := hs
      have hp : p ∈ script.problems := heq ▸ List.mem_append_right done List.mem_cons_self
      obtain ⟨problem, -, hset, -, hcases, hsubmissions, -⟩ := seedProblem_spec h
      exact ⟨rfl, hsubmissions, List.prefix_refl _, hset.keys_prefix, rfl,
        hset.filter_of_disjoint (apart_script_hasTitle hp),
        fun _ _ ↦ congrArg (List.filter _) hcases⟩
  | @testCase w tc tcs adminUser problemId id seededTcIds rest env db h =>
      obtain ⟨-, done, p, set, heq, -, -, hdata, -⟩ := hs
      have hp : p ∈ script.problems := heq ▸ List.mem_append_right done List.mem_cons_self
      obtain ⟨t, -, hset, -, hproblems, hsubmissions, -⟩ := upsertTestCase_spec h
      refine ⟨rfl, hsubmissions, List.prefix_refl _, ?_, rfl, congrArg (List.filter _) hproblems,
        fun id hid ↦ ?_⟩
      · rw [hproblems]
      · exact hset.filter_of_disjoint
          (apart_isCase_of_ne tc ((hdata.congr hproblems).ne_of_hasTitle hp hid))
  | deleted w adminUser problemId seededTcIds rest =>
      obtain ⟨-, done, p, set, heq, -, -, hdata, -⟩ := hs
      have hp : p ∈ script.problems := heq ▸ List.mem_append_right done List.mem_cons_self
      exact ⟨rfl, rfl, List.prefix_refl _, List.prefix_refl _, rfl, rfl,
        fun id hid ↦ filter_deleteOthers (hdata.ne_of_hasTitle hp hid)⟩
  | completed w adminUser => exact .refl _

theorem spared_of_run (hauth : LawfulAuth auth) (hscript : script.Distinct auth) {w : World}
    {ok : State → Event → Prop} {ls : List Event}
    (hrun : (seeding auth script w).Run ok ⟨w, .idle⟩ ls s) : Spared auth script w s.world := by
  refine hrun.related (I := State.Done auth script)
    (R := fun s t ↦ Spared auth script s.world t.world) trivial ?_ (fun s ↦ .refl s.world) ?_
  · intro s e t hs _ hstep
    have hmove := moves_of_step hstep
    exact ⟨hmove.done hauth hscript hs, hmove.spared hauth hs⟩
  · intro s t u h h'
    exact h.trans h'

/-! ## From a seeded database on -/

/-- The times of the last updates of test cases apart. -/
structure Unchanged (w w' : World) : Prop where
  log : w'.log = w.log
  users : w'.users = w.users
  problems : w'.db.problems = w.db.problems
  submissions : w'.db.submissions = w.db.submissions
  testCases : List.Forall₂ SameCase w.db.testCases w'.db.testCases

theorem SameCase.trans {a b c : TestCase} (h : SameCase a b) (h' : SameCase b c) :
    SameCase a c := by
  unfold SameCase at h h'
  rw [SameCase, h', h]

namespace Unchanged

variable {w w' w'' : World}

theorem refl (w : World) : Unchanged w w :=
  ⟨rfl, rfl, rfl, rfl, List.forall₂_same.mpr fun t _ ↦ SameCase.refl t⟩

theorem trans (h : Unchanged w w') (h' : Unchanged w' w'') : Unchanged w w'' :=
  ⟨h'.log.trans h.log, h'.users.trans h.users, h'.problems.trans h.problems,
    h'.submissions.trans h.submissions,
    related_comp (T := SameCase) (fun _ _ _ h h' ↦ h.trans h') h.testCases h'.testCases⟩

/-- What is as the script says stays so. -/
theorem seeded (h : Unchanged w w') (hw : Seeded auth script w) : Seeded auth script w' := by
  obtain ⟨husers, adminUser, hadmin, hproblems⟩ := hw
  refine ⟨?_, adminUser, ?_, fun p hp ↦ ?_⟩
  · rwa [h.users]
  · rwa [h.users]
  · obtain ⟨problemId, hdata, ts, hts, hperm⟩ := hproblems p hp
    have hgroup := filter_related (p := fun t ↦ decide (t.problemId = problemId)) h.testCases
      fun t t' ht ↦ by rw [ht]
    obtain ⟨ts', hts', hperm'⟩ := List.perm_comp_forall₂ hperm.symm hgroup
    refine ⟨problemId, hdata.congr h.problems, ts', ?_, hperm'.symm⟩
    refine related_comp (fun tc t t' htc ht ↦ ?_) hts hts'
    rw [ht]
    exact ⟨htc.data, htc.isActive⟩

end Unchanged

/-- The problem that the process is at has its test cases in a seeded database. -/
theorem Seeded.hasCases {w : World} {adminUser problemId : ObjectId} {p : SeedProblem}
    (hw : Seeded auth script w) (hp : p ∈ script.problems) (hdata : HasData w.db adminUser problemId p) :
    HasCases w.db problemId p := by
  obtain ⟨-, _, -, hproblems⟩ := hw
  obtain ⟨problemId', ⟨problem', hfind', rfl, -⟩, hcases⟩ := hproblems p hp
  obtain ⟨problem, hfind, rfl, -⟩ := hdata
  obtain rfl := Option.some.inj (hfind.symm.trans hfind')
  exact hcases

section

variable {db : Database} {problemId : ObjectId} {p : SeedProblem}

/-- A test case that is found. -/
theorem mem_of_find?_isCase {tc : TestCaseData} {t : TestCase}
    (h : db.testCases.find? (isCase problemId tc) = some t) :
    t ∈ db.testCases.filter (·.problemId = problemId) ∧ t.order = tc.order := by
  have hmeets := List.find?_some h
  obtain ⟨hproblem, horder⟩ := of_decide_eq_true hmeets
  exact ⟨List.mem_filter.mpr ⟨List.mem_of_find?_eq_some h, decide_eq_true hproblem⟩, horder⟩

theorem HasCases.exists_mem (h : HasCases db problemId p) {tc : TestCaseData}
    (htc : tc ∈ p.testCases) :
    ∃ t ∈ db.testCases.filter (·.problemId = problemId), IsSeededCase tc t := by
  obtain ⟨ts, hts, hperm⟩ := h
  have hflip : List.Forall₂ (fun t tc ↦ IsSeededCase tc t) ts p.testCases := List.Forall₂.flip hts
  obtain ⟨t, ht, hseeded⟩ := exists_of_mem_right hflip htc
  exact ⟨t, hperm.mem_iff.mpr ht, hseeded⟩

theorem HasCases.of_mem (h : HasCases db problemId p) {t : TestCase}
    (ht : t ∈ db.testCases.filter (·.problemId = problemId)) :
    ∃ tc ∈ p.testCases, IsSeededCase tc t := by
  obtain ⟨ts, hts, hperm⟩ := h
  exact exists_of_mem_right hts (hperm.mem_iff.mp ht)

/-- The orders of the test cases are those of the script. -/
theorem HasCases.orders_nodup (h : HasCases db problemId p)
    (horders : (p.testCases.map (·.order)).Nodup) :
    ((db.testCases.filter (·.problemId = problemId)).map (·.order)).Nodup := by
  obtain ⟨ts, hts, hperm⟩ := h
  have heq : List.Forall₂ (· = ·) (p.testCases.map (·.order)) (ts.map (·.order)) := by
    rw [List.forall₂_map_left_iff, List.forall₂_map_right_iff]
    exact hts.imp fun tc t h ↦ by rw [← h.data]
  rw [List.forall₂_eq_eq_eq] at heq
  rw [heq] at horders
  exact (hperm.map _).nodup_iff.mpr horders

/-- In a seeded database a test case of the script is found, and it is as the script says. -/
theorem HasCases.find? (h : HasCases db problemId p)
    (horders : (p.testCases.map (·.order)).Nodup) {tc : TestCaseData} (htc : tc ∈ p.testCases) :
    ∃ t, db.testCases.find? (isCase problemId tc) = some t ∧ IsSeededCase tc t := by
  obtain ⟨t, ht, hseeded⟩ := h.exists_mem htc
  obtain ⟨hmem, hproblem⟩ := List.mem_filter.mp ht
  have hcase : isCase problemId tc t = true :=
    decide_eq_true ⟨of_decide_eq_true hproblem, by rw [hseeded.data]⟩
  cases hfind : db.testCases.find? (isCase problemId tc) with
  | none => exact absurd hcase (List.find?_eq_none.mp hfind t hmem)
  | some t' =>
      obtain ⟨ht', horder⟩ := mem_of_find?_isCase hfind
      rw [← hseeded.data] at horder
      rw [List.inj_on_of_nodup_map (h.orders_nodup horders) ht' ht horder]
      exact ⟨t, rfl, hseeded⟩

/-- In a seeded database the deletion deletes nothing. -/
theorem HasCases.deleteOthers_eq {seededTcIds : List ObjectId} (h : HasCases db problemId p)
    (horders : (p.testCases.map (·.order)).Nodup)
    (hfound : Found (isCase problemId) TestCase.id IsSeededCase db.testCases p.testCases
      seededTcIds) : (deleteOthers problemId seededTcIds db).testCases = db.testCases := by
  refine List.filter_eq_self.mpr fun t hmem ↦ decide_eq_true ?_
  by_cases hproblem : t.problemId = problemId
  · right
    have ht : t ∈ db.testCases.filter (·.problemId = problemId) :=
      List.mem_filter.mpr ⟨hmem, decide_eq_true hproblem⟩
    obtain ⟨tc, htc, hseeded⟩ := h.of_mem ht
    obtain ⟨t', hfind, hseeded'⟩ := h.find? horders htc
    obtain ⟨ht', -⟩ := mem_of_find?_isCase hfind
    have horder : t'.order = t.order := by rw [hseeded'.data, hseeded.data]
    rw [← List.inj_on_of_nodup_map (h.orders_nodup horders) ht' ht horder]
    exact hfound.mem_keys htc hfind
  · exact .inl hproblem

end

theorem users_eq {us us' : Users} (h : us'.docs = us.docs) : us' = us := by
  cases us
  cases us'
  cases h
  rfl

/-- **One step.** -/
theorem Moves.unchanged (hauth : LawfulAuth auth) (hscript : script.Distinct auth)
    (h : Moves auth script s t) (hs : s.Done auth script) (hw : Seeded auth script s.world) :
    Unchanged s.world t.world := by
  cases h with
  | ended => exact .refl _
  | started => exact .refl _
  | @user w u rest adminUser env user users h =>
      obtain ⟨done, heq, -⟩ := hs
      obtain ⟨existing, hfind, hexisting⟩ :=
        hw.1 u (heq ▸ List.mem_append_right done List.mem_cons_self)
      obtain ⟨hset, -, -, hsame⟩ := seedUser_spec hauth h
      obtain rfl := hsame existing hfind hexisting
      have hdocs := hset.eq_of_found hfind
      exact ⟨rfl, users_eq hdocs, rfl, rfl, List.forall₂_same.mpr fun t _ ↦ SameCase.refl t⟩
  | initialized w adminUser => exact .refl _
  | @problem w p rest adminUser problemId env db h =>
      obtain ⟨⟨-, hadmin⟩, done, heq, -⟩ := hs
      obtain ⟨-, adminUser', hadmin', hproblems⟩ := hw
      obtain rfl := Option.some.inj (hadmin.symm.trans hadmin')
      obtain ⟨-, ⟨existing, hfind, -, hexisting⟩, -⟩ :=
        hproblems p (heq ▸ List.mem_append_right done List.mem_cons_self)
      obtain ⟨problem, -, hset, -, hcases, hsubmissions, hsame⟩ := seedProblem_spec h
      obtain rfl := hsame existing hfind hexisting
      exact ⟨rfl, rfl, hset.eq_of_found hfind, hsubmissions,
        hcases ▸ List.forall₂_same.mpr fun t _ ↦ SameCase.refl t⟩
  | @testCase w tc tcs adminUser problemId id seededTcIds rest env db h =>
      obtain ⟨-, done, p, set, heq, hcases, -, hdata, -⟩ := hs
      have hp : p ∈ script.problems := heq ▸ List.mem_append_right done List.mem_cons_self
      obtain ⟨existing, hfind, hexisting⟩ := (hw.hasCases hp hdata).find?
        (hscript.orders p hp) (hcases ▸ List.mem_append_right set List.mem_cons_self)
      obtain ⟨t, -, hset, -, hproblems, hsubmissions, hsame⟩ := upsertTestCase_spec h
      exact ⟨rfl, rfl, hproblems, hsubmissions,
        hset.forall₂ SameCase.refl hfind (hsame existing hfind hexisting)⟩
  | deleted w adminUser problemId seededTcIds rest =>
      obtain ⟨-, done, p, set, heq, hcases, -, hdata, hfound⟩ := hs
      rw [List.append_nil] at hcases
      subst hcases
      have hp : p ∈ script.problems := heq ▸ List.mem_append_right done List.mem_cons_self
      refine ⟨rfl, rfl, rfl, rfl, ?_⟩
      rw [(hw.hasCases hp hdata).deleteOthers_eq (hscript.orders p hp) hfound]
      exact List.forall₂_same.mpr fun t _ ↦ SameCase.refl t
  | completed w adminUser => exact .refl _

theorem unchanged_of_run (hauth : LawfulAuth auth) (hscript : script.Distinct auth) {w : World}
    {ok : State → Event → Prop} {ls : List Event}
    (hrun : (seeding auth script w).Run ok s ls t) (hs : s.Done auth script)
    (hw : Seeded auth script s.world) : Unchanged s.world t.world := by
  refine hrun.related (I := fun s ↦ s.Done auth script ∧ Seeded auth script s.world)
    (R := fun s t ↦ Unchanged s.world t.world) ⟨hs, hw⟩ ?_ (fun s ↦ .refl s.world) ?_
  · rintro s e t ⟨hs, hw⟩ _ hstep
    have hmove := moves_of_step hstep
    have hsame := hmove.unchanged hauth hscript hs hw
    exact ⟨⟨hmove.done hauth hscript hs, hsame.seeded hw⟩, hsame⟩
  · intro s t u h h'
    exact h.trans h'

/-! ## Whole runs -/

/-- **What the script leaves alone**, in any run: accounts and problems keep their ids, addresses
and titles, and everything that is not under an address or a title of the script is as it was. -/
theorem seeding_leaves_others (hauth : LawfulAuth auth) (hscript : script.Distinct auth) {w : World}
    {ok : State → Event → Prop} {ls : List Event}
    (hrun : (seeding auth script w).Run ok ⟨w, .idle⟩ ls s) :
    s.world.log = w.log ∧ s.world.db.submissions = w.db.submissions ∧
      w.users.docs.map userKey <+: s.world.users.docs.map userKey ∧
      w.db.problems.map problemKey <+: s.world.db.problems.map problemKey ∧
      s.world.users.docs.filter (!script.hasEmail auth ·) =
        w.users.docs.filter (!script.hasEmail auth ·) ∧
      s.world.db.problems.filter (!script.hasTitle ·) =
        w.db.problems.filter (!script.hasTitle ·) ∧
      ∀ problem ∈ w.db.problems, script.hasTitle problem = false →
        s.world.db.testCases.filter (·.problemId = problem.id) =
          w.db.testCases.filter (·.problemId = problem.id) := by
  have h := spared_of_run hauth hscript hrun
  exact ⟨h.log, h.submissions, h.users_kept, h.problems_kept, h.users, h.problems,
    fun problem hmem htitle ↦ h.testCases_of_mem hmem htitle⟩

/-- **Seeding again**: from a completed process on, whatever processes follow and wherever they
are cut off, everything stays as it is but for the times of the test cases. -/
theorem seeding_again (hauth : LawfulAuth auth) (hscript : script.Distinct auth) {w : World}
    {ok : State → Event → Prop} {ls ls' : List Event}
    (hrun : (seeding auth script w).Run ok ⟨w, .idle⟩ ls s) (hphase : s.phase = .completed)
    (hrun' : (seeding auth script w).Run ok s ls' t) :
    t.world.log = s.world.log ∧ t.world.users = s.world.users ∧
      t.world.db.problems = s.world.db.problems ∧
      t.world.db.submissions = s.world.db.submissions ∧
      List.Forall₂ SameCase s.world.db.testCases t.world.db.testCases := by
  have hdone := done_of_run hauth hscript hrun
  have hseeded : Seeded auth script s.world := hdone.seeded hphase
  have h := unchanged_of_run hauth hscript hrun' hdone hseeded
  exact ⟨h.log, h.users, h.problems, h.submissions, h.testCases⟩

end

/-! ## Examples -/

/-- The processes of the example leave a problem alone that somebody else has. -/
def otherWorld : World :=
  { emptyWorld with db :=
    ⟨[{ Problem.sample 100 true with title := js "Other" }], [TestCase.sample 101 100 .pub], [],
      by decide, by decide⟩ }

theorem seeding_leaves_others_one : ∃ s, (seeding .sample .sample otherWorld).Run Fresh
    ⟨otherWorld, .idle⟩ twoProcesses s ∧
      s.world.db.testCases.filter (·.problemId = 100) =
        otherWorld.db.testCases.filter (·.problemId = 100) := by
  obtain ⟨s, hrun, -⟩ := Machine.exists_run_of_exec (seeding .sample .sample otherWorld) Fresh
    ⟨otherWorld, .idle⟩ twoProcesses State.isCompleted (by decide +kernel)
  obtain ⟨-, -, -, -, -, -, htestCases⟩ :=
    seeding_leaves_others Auth.sample_lawful Script.sample_distinct hrun
  exact ⟨s, hrun, htestCases _ List.mem_cons_self (by decide +kernel)⟩

/-- A third process, that is cut off. -/
def thirdProcess : List Event := .start false :: callsFrom 21 4

/-- The third process changes nothing after the two. -/
theorem seeding_again_third : ∃ s t, (seeding .sample .sample emptyWorld).Run Fresh
    ⟨emptyWorld, .idle⟩ twoProcesses s ∧ s.phase = .completed ∧
      (seeding .sample .sample emptyWorld).Run Fresh s thirdProcess t ∧
      t.world.users = s.world.users ∧ t.world.db.problems = s.world.db.problems := by
  obtain ⟨s, hrun, hboth⟩ := Machine.exists_run_of_exec (seeding .sample .sample emptyWorld) Fresh
    ⟨emptyWorld, .idle⟩ twoProcesses
    (fun s ↦ s.isCompleted && ((seeding .sample .sample emptyWorld).exec Fresh s thirdProcess).isSome)
    (by decide +kernel)
  obtain ⟨hcompleted, hthird⟩ := Bool.and_eq_true_iff.mp hboth
  obtain ⟨t, ht⟩ := Option.isSome_iff_exists.mp hthird
  have hphase := phase_of_isCompleted hcompleted
  have hrun' := Machine.Run.of_exec ht
  obtain ⟨-, husers, hproblems, -⟩ :=
    seeding_again Auth.sample_lawful Script.sample_distinct hrun hphase hrun'
  exact ⟨s, t, hrun, hphase, hrun', husers, hproblems⟩

end CodeArena.Seeds
