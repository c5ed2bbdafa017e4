import CodeArena.Api.Users
import CodeArena.Submissions.System

/-!
# Problems that were deactivated

Six paths show a problem or take a submission to it, and each of them checks its flag, or
does not.  Four do: the list, the page of a problem, the solved problems and
`createSubmission`.  The two that show test cases look at the flag of the test case only,
which the deactivation of its problem does not touch.

So a deactivated problem is out of reach for users just when none of its test cases is
active and public (`unavailable_iff`).
-/

namespace CodeArena.Api

open CodeArena.Lib
open CodeArena.Submissions (ObjectId Time JsError ApiPc ApiAct Request appError)

/-! ## Histories -/

/-- A call of an administrator that writes. -/
inductive Change where
  | createProblem (now : Time) (id : ObjectId) (data : ProblemData) (authorId : ObjectId)
  | updateProblem (now : Time) (problemId : ObjectId) (updateData : ProblemUpdate)
  | deactivateProblem (now : Time) (problemId : ObjectId)
  | createTestCase (now : Time) (id problemId : ObjectId) (data : TestCaseData)
  | updateTestCase (now : Time) (testCaseId : ObjectId) (updateData : TestCaseUpdate)
  | deactivateTestCase (now : Time) (testCaseId : ObjectId)

/-- The database after a call: as it was where the call threw. -/
def Database.after {α : Type} (db : Database) : Except JsError (α × Database) → Database
  | .error _ => db
  | .ok (_, db') => db'

/-- The database after a call that writes. -/
def Change.apply (db : Database) : Change → Database
  | .createProblem now id data authorId => db.after (Api.createProblem now id data authorId db)
  | .updateProblem now problemId updateData => db.after (Api.updateProblem now problemId updateData db)
  | .deactivateProblem now problemId => db.after (Api.deactivateProblem now problemId db)
  | .createTestCase now id problemId data => db.after (Api.createTestCase now id problemId data db)
  | .updateTestCase now testCaseId updateData =>
    db.after (Api.updateTestCase now testCaseId updateData db)
  | .deactivateTestCase now testCaseId => db.after (Api.deactivateTestCase now testCaseId db)

/-- The histories of a database that starts without problems. -/
def history (submissions : List SubmissionDoc) : Machine Database Change :=
  ⟨.init submissions, fun db c ↦ some (c.apply db)⟩

/-- What `createSubmission` finds for a request. -/
def checkRequest (db : Database) (req : Request) : ApiAct :=
  .check req (.ok ((db.findProblem req.problemId).map fun p ↦ ⟨p.isActive⟩))
    (.ok (db.testCases.countP fun t ↦ t.problemId = req.problemId ∧ t.isActive))

/-! ## Availability -/

/-- The problem is out of reach for users: no result of a read contains it or one of its
test cases, and a submission to it is refused before anything is stored. -/
structure Unavailable (ext : Externals) (db : Database) (p : Problem) : Prop where
  listProblems : ∀ q user result, listProblems ext q user db = .ok result →
    ∀ s ∈ result.problems, s.id ≠ p.id
  getProblemById : ∀ id result, getProblemById id db = .ok result → result.problem.id ≠ p.id
  getUserSolvedProblems : ∀ userId q result, getUserSolvedProblems userId q db = .ok result →
    ∀ s ∈ result.problems, s.id ≠ p.id
  getTestCasesForProblem : ∀ id result, getTestCasesForProblem id .user db = .ok result →
    ∀ t ∈ result, t.problemId ≠ p.id
  getTestCaseById : ∀ id result, getTestCaseById id .user db = .ok result →
    result.problemId ≠ p.id
  createSubmission : ∀ (req : Request) now stored, req.problemId = p.id →
    ∃ e, ApiPc.idle.step now stored (checkRequest db req) = some (.threw e, none, false)

section

variable {ext : Externals} {db : Database} {p : Problem}

/-- An active problem is not one that is not. -/
theorem id_ne_of_active {q : Problem} (hp : p ∈ db.problems) (hinactive : p.isActive = false)
    (hq : q ∈ db.problems) (hactive : q.isActive = true) : q.id ≠ p.id := by
  intro hid
  obtain rfl : q = p := Database.eq_of_id_eq db.problems_nodup hq hp hid
  cases hactive.symm.trans hinactive

theorem mem_sortProblems {sort : Param} {ps : List Problem} {q : Problem} :
    q ∈ sortProblems sort ps ↔ q ∈ ps := by
  unfold sortProblems
  split
  · exact List.mem_insertionSort _
  split
  · exact List.mem_insertionSort _
  split
  · exact List.mem_insertionSort _
  · exact List.mem_insertionSort _

/-- The list shows active problems. -/
theorem active_of_listed {q : ListParams} {user : Option ObjectId} {result : ProblemList}
    (h : listProblems ext q user db = .ok result) {s : ProblemSummary}
    (hs : s ∈ result.problems) : ∃ r ∈ db.problems, r.isActive = true ∧ s.id = r.id := by
  unfold listProblems at h
  split at h
  · cases h
  · cases h
    obtain ⟨r, hr, rfl⟩ := List.mem_map.mp hs
    have hmem := List.mem_filter.mp (mem_sortProblems.mp (Paging.mem_of_mem_slice hr))
    simp only [Bool.and_eq_true] at hmem
    exact ⟨r, hmem.1, hmem.2.1.1.1, rfl⟩

/-- The page of a problem shows an active one. -/
theorem active_of_get {id : ObjectId} {result : ProblemDetails}
    (h : getProblemById id db = .ok result) :
    result.problem ∈ db.problems ∧ result.problem.isActive = true := by
  unfold getProblemById at h
  split at h
  · cases h
  · rename_i problem hfind
    split at h
    · rename_i hactive
      cases h
      exact ⟨(Database.findProblem_eq_some.mp hfind).1, hactive⟩
    · cases h

/-- The solved problems that are shown are active. -/
theorem active_of_solved {userId : ObjectId} {q : SolvedParams} {result : SolvedList}
    (h : getUserSolvedProblems userId q db = .ok result) {s : SolvedProblem}
    (hs : s ∈ result.problems) : ∃ r ∈ db.problems, r.isActive = true ∧ s.id = r.id := by
  unfold getUserSolvedProblems at h
  dsimp only at h
  split at h
  · cases h
    cases hs
  · split at h
    · cases h
    · cases h
      obtain ⟨r, hr, rfl⟩ := List.mem_map.mp hs
      have hsort := (List.mem_insertionSort _).mp (Paging.mem_of_mem_slice hr)
      have hmem := List.mem_filter.mp hsort
      simp only [Bool.and_eq_true] at hmem
      exact ⟨r, hmem.1, hmem.2.1.2, rfl⟩

/-- The test cases that a user sees in a list are active public ones. -/
theorem mem_getTestCasesForProblem {id : ObjectId} {result : List TestCase}
    (h : getTestCasesForProblem id .user db = .ok result) {t : TestCase} :
    t ∈ result ↔ t ∈ db.testCases ∧ t.problemId = id ∧ t.isActive = true ∧
      t.visibility = .pub := by
  unfold getTestCasesForProblem at h
  split at h
  · cases h
  · cases h
    rw [List.mem_insertionSort, List.mem_filter]
    simp [TestCase.listedTo]

/-- The test case that a user sees under its id is an active public one. -/
theorem of_getTestCaseById {id : ObjectId} {t : TestCase}
    (h : getTestCaseById id .user db = .ok t) :
    t ∈ db.testCases ∧ t.isActive = true ∧ t.visibility = .pub := by
  unfold getTestCaseById at h
  split at h
  · cases h
  · rename_i hfind
    cases h
    have hshown := List.find?_some hfind
    simp only [TestCase.shownTo, Bool.and_eq_true, reduceCtorEq, decide_false, Bool.false_or,
      decide_eq_true_eq] at hshown
    exact ⟨List.mem_of_find?_eq_some hfind, hshown.2⟩

/-- A submission to an inactive problem is refused before anything is stored. -/
theorem submission_refused (hp : p ∈ db.problems) (hinactive : p.isActive = false) {req : Request}
    (hreq : req.problemId = p.id) (now : Time) (stored : Option Submissions.Submission) :
    ApiPc.idle.step now stored (checkRequest db req) =
      some (.threw (appError "Cannot submit to an inactive problem" 400 none), none, false) := by
  have hfind : db.findProblem req.problemId = some p :=
    Database.findProblem_eq_some.mpr ⟨hp, hreq.symm⟩
  simp [checkRequest, ApiPc.step, Submissions.checkProblem, hfind, hinactive]

/-- **A deactivated problem is out of reach for users just when none of its test cases is
active and public.** -/
theorem unavailable_iff (ext : Externals) (hp : p ∈ db.problems) (hinactive : p.isActive = false) :
    Unavailable ext db p ↔
      ∀ t ∈ db.testCases, t.problemId = p.id → t.isActive = true → t.visibility ≠ .pub := by
  constructor
  · intro h t ht hproblem hactive hpublic
    have hfind : db.findProblem p.id = some p := Database.findProblem_eq_some.mpr ⟨hp, rfl⟩
    obtain ⟨result, hresult⟩ : ∃ result, getTestCasesForProblem p.id .user db = .ok result := by
      unfold getTestCasesForProblem
      rw [hfind]
      exact ⟨_, rfl⟩
    have hmem := (mem_getTestCasesForProblem hresult).mpr ⟨ht, hproblem, hactive, hpublic⟩
    exact h.getTestCasesForProblem _ _ hresult t hmem hproblem
  · intro hnone
    constructor
    case listProblems =>
      intro q user result h s hs
      obtain ⟨r, hr, hactive, hid⟩ := active_of_listed h hs
      rw [hid]
      exact id_ne_of_active hp hinactive hr hactive
    case getProblemById =>
      intro id result h
      obtain ⟨hmem, hactive⟩ := active_of_get h
      exact id_ne_of_active hp hinactive hmem hactive
    case getUserSolvedProblems =>
      intro userId q result h s hs
      obtain ⟨r, hr, hactive, hid⟩ := active_of_solved h hs
      rw [hid]
      exact id_ne_of_active hp hinactive hr hactive
    case getTestCasesForProblem =>
      intro id result h t ht hproblem
      obtain ⟨hmem, -, hactive, hpublic⟩ := (mem_getTestCasesForProblem h).mp ht
      exact hnone t hmem hproblem hactive hpublic
    case getTestCaseById =>
      intro id t h hproblem
      obtain ⟨hmem, hactive, hpublic⟩ := of_getTestCaseById h
      exact hnone t hmem hproblem hactive hpublic
    case createSubmission =>
      intro req now stored hreq
      exact ⟨_, submission_refused hp hinactive hreq now stored⟩

end

/-- A database with one problem, which is not active.  It has a hidden test case, and a public
one that was deactivated. -/
def Database.inactive : Database where
  problems := [.sample 1 false]
  testCases := [.sample 2 1 .hidden, { TestCase.sample 3 1 .pub with isActive := false }]
  submissions := []
  problems_nodup := List.nodup_singleton _
  testCases_nodup := by decide

/-- A deactivated problem without public test cases that are active. -/
theorem unavailable_iff_untested : Unavailable .sample .inactive (.sample 1 false) := by
  have hmem : Problem.sample 1 false ∈ Database.inactive.problems := List.mem_cons_self
  refine (unavailable_iff .sample hmem rfl).mpr fun t ht _ hactive hpublic ↦ ?_
  rcases List.mem_cons.mp ht with rfl | ht
  · cases hpublic
  · cases List.mem_singleton.mp ht
    cases hactive

/-- **A deactivated problem shows its public test cases.**  The problem is created, gets a
public test case and is deactivated; a user still finds the test case, in the list of the
problem and under its id. -/
theorem available_after_deactivation : ∃ db, (history []).Run Machine.anyStep (.init [])
      [.createProblem 0 1 .sample 1, .createTestCase 0 2 1 (.sample .pub),
        .deactivateProblem 5 1] db ∧
    (db.findProblem 1).map (·.isActive) = some false ∧
    getTestCasesForProblem 1 .user db = .ok [.sample 2 1 .pub] ∧
    getTestCaseById 2 .user db = .ok (.sample 2 1 .pub) := by
  obtain ⟨db, hrun, hP⟩ := (history []).exists_run_of_exec Machine.anyStep (.init [])
    [.createProblem 0 1 .sample 1, .createTestCase 0 2 1 (.sample .pub), .deactivateProblem 5 1]
    (fun db ↦ (db.findProblem 1).map (·.isActive) = some false ∧
      getTestCasesForProblem 1 .user db = .ok [.sample 2 1 .pub] ∧
      getTestCaseById 2 .user db = .ok (.sample 2 1 .pub)) (by decide +kernel)
  exact ⟨db, hrun, of_decide_eq_true hP⟩

end CodeArena.Api
