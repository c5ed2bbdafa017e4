import CodeArena.Api.Users
import CodeArena.Lib.Related

/-!
# What a user cannot see does not interfere

Two databases look alike to a user where they differ in nothing but the content of test
cases that are hidden or inactive, and the submissions of others, of which there are the
same, by the same users.  Every read of a user who is no administrator is a function of
what the two have in common (`noninterference`).

The argument goes query by query: the tallies of test cases read ids, flags and
visibilities only, the lists of test cases pass active public ones only, and every query of
submissions passes the user's own only.  The one read that finds a submission by its id
looks at its user before it shows it.
-/

namespace CodeArena.Api

open CodeArena.Lib
open CodeArena.Submissions (ObjectId Time JsError)

/-! ## Reads -/

/-- A read operation with its parameters.  An id is `none` where the parameter is no id. -/
inductive Read where
  /-- The list of problems, as a visitor or signed in. -/
  | listProblems (signedIn : Bool) (queryParams : ListParams)
  | getProblemById (problemId : Option ObjectId)
  | getTestCasesForProblem (problemId : Option ObjectId)
  | getTestCaseById (testCaseId : Option ObjectId)
  | getSubmissionById (submissionId : Option ObjectId)
  | getMySubmissions (queryParams : MySubmissionsParams)
  | getUserStats
  | getUserSolvedProblems (queryParams : SolvedParams)
  | getUserActivity (now : Time) (range : Param)

/-- What a read comes to. -/
inductive Reply where
  | problemList (r : Except JsError ProblemList)
  | problem (r : Except JsError ProblemDetails)
  | testCases (r : Except JsError (List TestCase))
  | testCase (r : Except JsError TestCase)
  | submission (r : Except JsError SafeSubmission)
  | submissionList (r : Except JsError SubmissionList)
  | stats (r : UserStats)
  | solvedList (r : Except JsError SolvedList)
  | activity (r : Except JsError Activity)

/-- A call with an id, which throws where it is none. -/
def withId {α : Type} (id : Option ObjectId) (f : ObjectId → Except JsError α) :
    Except JsError α :=
  match id with
  | none => .error castError
  | some id => f id

/-- The reply to a read. -/
def Read.reply (ext : Externals) (user : User) (db : Database) : Read → Reply
  | .listProblems signedIn q =>
    .problemList (Api.listProblems ext q (if signedIn then some user.id else none) db)
  | .getProblemById id => .problem (withId id fun id ↦ Api.getProblemById id db)
  | .getTestCasesForProblem id =>
    .testCases (withId id fun id ↦ Api.getTestCasesForProblem id user.role db)
  | .getTestCaseById id => .testCase (withId id fun id ↦ Api.getTestCaseById id user.role db)
  | .getSubmissionById id => .submission (withId id fun id ↦ Api.getSubmissionById id user db)
  | .getMySubmissions q => .submissionList (Api.getMySubmissions ext user.id q db)
  | .getUserStats => .stats (Api.getUserStats ext user.id db)
  | .getUserSolvedProblems q => .solvedList (Api.getUserSolvedProblems user.id q db)
  | .getUserActivity now range => .activity (Api.getUserActivity ext now user.id range db)

/-! ## Databases that look alike -/

/-- Test cases that are equal, except for the content of one that is hidden or
inactive. -/
def TestCase.Alike (t t' : TestCase) : Prop :=
  t = t' ∨ ((t.visibility = .hidden ∨ t.isActive = false) ∧
    ∃ input expectedOutput, t' = { t with input, expectedOutput })

/-- Submissions with one id and one user that are equal where they are the reader's. -/
def SubmissionDoc.Alike (reader : ObjectId) (s s' : SubmissionDoc) : Prop :=
  s.id = s'.id ∧ s.userId = s'.userId ∧ (s.userId = reader → s = s')

/-- Databases that look alike to a reader. -/
structure Database.Alike (reader : ObjectId) (db db' : Database) : Prop where
  problems : db.problems = db'.problems
  testCases : List.Forall₂ TestCase.Alike db.testCases db'.testCases
  submissions : List.Forall₂ (SubmissionDoc.Alike reader) db.submissions db'.submissions

namespace TestCase.Alike

variable {t t' : TestCase}

theorem id (h : t.Alike t') : t.id = t'.id := by
  rcases h with rfl | ⟨_, _, _, rfl⟩ <;> rfl

theorem problemId (h : t.Alike t') : t.problemId = t'.problemId := by
  rcases h with rfl | ⟨_, _, _, rfl⟩ <;> rfl

theorem isActive (h : t.Alike t') : t.isActive = t'.isActive := by
  rcases h with rfl | ⟨_, _, _, rfl⟩ <;> rfl

theorem visibility (h : t.Alike t') : t.visibility = t'.visibility := by
  rcases h with rfl | ⟨_, _, _, rfl⟩ <;> rfl

/-- A test case that is active and public is the same on both sides. -/
theorem eq_of_shown (h : t.Alike t') (hactive : t.isActive = true)
    (hpublic : t.visibility = .pub) : t = t' := by
  rcases h with h | ⟨hhidden | hinactive, -⟩
  · exact h
  · cases hhidden.symm.trans hpublic
  · cases hinactive.symm.trans hactive

end TestCase.Alike

namespace Database.Alike

variable {reader : ObjectId} {db db' : Database}

/-! ## The queries -/

/-- Counting looks at nothing that differs. -/
theorem map_filter_testCases {β : Type} {p : TestCase → Bool} {f : TestCase → β}
    (h : db.Alike reader db') (hp : ∀ t t' : TestCase, t.Alike t' → p t = p t')
    (hf : ∀ t t' : TestCase, t.Alike t' → f t = f t') :
    (db.testCases.filter p).map f = (db'.testCases.filter p).map f :=
  map_eq_of_related (filter_related h.testCases hp) hf

theorem getProblemReadiness (h : db.Alike reader db') (problemId : ObjectId) :
    getProblemReadiness db problemId = getProblemReadiness db' problemId := by
  have hgroups : activeByVisibility db problemId = activeByVisibility db' problemId := by
    apply congrArg OrderedMap.tally
    apply h.map_filter_testCases
    · intro t t' ht
      rw [ht.problemId, ht.isActive]
    · exact fun _ _ ht ↦ ht.visibility
  rw [Api.getProblemReadiness, Api.getProblemReadiness, hgroups]

theorem activeTestCounts (h : db.Alike reader db') (problemIds : List ObjectId) :
    activeTestCounts db problemIds = activeTestCounts db' problemIds := by
  apply congrArg OrderedMap.tally
  apply h.map_filter_testCases
  · intro t t' ht
    rw [ht.problemId, ht.isActive]
  · intro t t' ht
    rw [ht.problemId, ht.visibility]

theorem findProblem (h : db.Alike reader db') (id : ObjectId) :
    db.findProblem id = db'.findProblem id := by
  rw [Database.findProblem, Database.findProblem, h.problems]

/-- A query of the reader's submissions passes the same ones. -/
theorem filter_submissions (h : db.Alike reader db') (p : SubmissionDoc → Bool) :
    (db.submissions.filter fun s ↦ s.userId = reader && p s) =
      db'.submissions.filter fun s ↦ s.userId = reader && p s := by
  apply filter_eq_of_related h.submissions
  · rintro s s' ⟨-, huser, heq⟩
    by_cases hs : s.userId = reader
    · rw [heq hs]
    · have hs' : ¬ s'.userId = reader := fun h ↦ hs (huser.trans h)
      simp [hs, hs']
  · rintro s s' ⟨-, -, heq⟩ hs
    exact heq (of_decide_eq_true (Bool.and_eq_true_iff.mp hs).1)

theorem solvedBy (h : db.Alike reader db') : db.solvedBy reader = db'.solvedBy reader := by
  have hfilter := h.filter_submissions fun s ↦ s.verdict = .accepted
  simp only [Database.solvedBy, Bool.decide_and, hfilter]

/-! ## The reads -/

variable {ext : Externals}

theorem listProblems (h : db.Alike reader db') (q : ListParams) (signedIn : Bool) :
    listProblems ext q (if signedIn then some reader else none) db =
      listProblems ext q (if signedIn then some reader else none) db' := by
  unfold Api.listProblems
  simp only [h.problems, h.activeTestCounts]
  cases signedIn with
  | true => simp only [if_true, h.solvedBy]
  | false => rfl

theorem getProblemById (h : db.Alike reader db') (id : ObjectId) :
    getProblemById id db = getProblemById id db' := by
  unfold Api.getProblemById
  simp only [h.findProblem, h.getProblemReadiness]

theorem getTestCasesForProblem (h : db.Alike reader db') (id : ObjectId) :
    getTestCasesForProblem id .user db = getTestCasesForProblem id .user db' := by
  have hfilter : (db.testCases.filter fun t ↦ t.problemId = id && t.listedTo .user) =
      db'.testCases.filter fun t ↦ t.problemId = id && t.listedTo .user := by
    apply filter_eq_of_related h.testCases
    · intro t t' ht
      simp only [TestCase.listedTo, ht.problemId, ht.isActive, ht.visibility]
    · intro t t' ht hp
      simp only [TestCase.listedTo, Bool.and_eq_true, reduceCtorEq, decide_false,
        Bool.false_or, decide_eq_true_eq] at hp
      exact ht.eq_of_shown hp.2.1 hp.2.2
  unfold Api.getTestCasesForProblem
  rw [h.findProblem, hfilter]

theorem getTestCaseById (h : db.Alike reader db') (id : ObjectId) :
    getTestCaseById id .user db = getTestCaseById id .user db' := by
  have hkeeps : ∀ t t' : TestCase, t.Alike t' →
      (t.id = id && t.shownTo .user) = (t'.id = id && t'.shownTo .user) := by
    intro t t' ht
    simp only [TestCase.shownTo, ht.id, ht.isActive, ht.visibility]
  unfold Api.getTestCaseById
  rcases find?_related h.testCases hkeeps with ⟨hn, hn'⟩ | ⟨t, t', hs, hs', ht⟩
  · rw [hn, hn']
  · have hshown := List.find?_some hs
    simp only [TestCase.shownTo, Bool.and_eq_true, reduceCtorEq, decide_false,
      Bool.false_or, decide_eq_true_eq] at hshown
    rw [hs, hs', ht.eq_of_shown hshown.2.1 hshown.2.2]

/-- The one read that finds documents of others: it does not show them. -/
theorem getSubmissionById (h : db.Alike reader db') (id : ObjectId) :
    getSubmissionById id ⟨reader, .user⟩ db = getSubmissionById id ⟨reader, .user⟩ db' := by
  have hkeeps : ∀ s s' : SubmissionDoc, s.Alike reader s' →
      decide (s.id = id) = decide (s'.id = id) := by
    rintro s s' ⟨hid, -⟩
    rw [hid]
  unfold Api.getSubmissionById Database.findSubmission
  rcases find?_related h.submissions hkeeps with ⟨hn, hn'⟩ | ⟨s, s', hs, hs', -, huser, heq⟩
  · rw [hn, hn']
  · rw [hs, hs']
    by_cases hreader : s.userId = reader
    · rw [heq hreader]
    · have hreader' : ¬ s'.userId = reader := fun h ↦ hreader (huser.trans h)
      simp [hreader, hreader']

theorem getMySubmissions (h : db.Alike reader db') (q : MySubmissionsParams) :
    getMySubmissions ext reader q db = getMySubmissions ext reader q db' := by
  unfold Api.getMySubmissions
  simp only [h.filter_submissions]

theorem getUserStats (h : db.Alike reader db') :
    getUserStats ext reader db = getUserStats ext reader db' := by
  have hmine := h.filter_submissions fun _ ↦ true
  simp only [Bool.and_true] at hmine
  unfold Api.getUserStats
  simp only [hmine, h.problems, h.solvedBy]

theorem getUserSolvedProblems (h : db.Alike reader db') (q : SolvedParams) :
    getUserSolvedProblems reader q db = getUserSolvedProblems reader q db' := by
  unfold Api.getUserSolvedProblems
  rw [h.solvedBy, h.problems]

theorem getUserActivity (h : db.Alike reader db') (now : Time) (range : Param) :
    getUserActivity ext now reader range db = getUserActivity ext now reader range db' := by
  unfold Api.getUserActivity
  simp only [h.filter_submissions]

end Database.Alike

/-- **What a user cannot see does not interfere with what the user reads.** -/
theorem noninterference {ext : Externals} {user : User} {db db' : Database}
    (hrole : user.role ≠ .admin) (h : db.Alike user.id db') (reads : List Read) :
    reads.map (Read.reply ext user db) = reads.map (Read.reply ext user db') := by
  obtain ⟨reader, role⟩ := user
  obtain rfl : role = .user := by
    cases role with
    | user => rfl
    | admin => exact absurd rfl hrole
  apply List.map_congr_left
  intro read _
  cases read with
  | listProblems signedIn q => exact congrArg Reply.problemList (h.listProblems q signedIn)
  | getProblemById id =>
      simp only [Read.reply, h.getProblemById]
  | getTestCasesForProblem id =>
      simp only [Read.reply, h.getTestCasesForProblem]
  | getTestCaseById id =>
      simp only [Read.reply, h.getTestCaseById]
  | getSubmissionById id =>
      simp only [Read.reply, h.getSubmissionById]
  | getMySubmissions q => exact congrArg Reply.submissionList (h.getMySubmissions q)
  | getUserStats => exact congrArg Reply.stats h.getUserStats
  | getUserSolvedProblems q => exact congrArg Reply.solvedList (h.getUserSolvedProblems q)
  | getUserActivity now range => exact congrArg Reply.activity (h.getUserActivity now range)

/-- A hidden test case whose expected output differs, and a submission of another user that
is judged in one database only. -/
theorem noninterference_hidden :
    [Read.getTestCasesForProblem (some 1), .getSubmissionById (some 4), .getUserStats].map
        (Read.reply .sample ⟨7, .user⟩
          ⟨[.sample 1 true], [.sample 2 1 .hidden],
            [⟨.create ⟨8, 1, "CPP", [0x41]⟩, 4, 0, 0⟩], by decide, by decide⟩) =
      [Read.getTestCasesForProblem (some 1), .getSubmissionById (some 4), .getUserStats].map
        (Read.reply .sample ⟨7, .user⟩
          ⟨[.sample 1 true], [{ TestCase.sample 2 1 .hidden with expectedOutput := [0x33] }],
            [⟨(Submissions.Submission.create ⟨8, 1, "CPP", [0x41]⟩).rejectLanguage, 4, 0, 5⟩],
            by decide, by decide⟩) := by
  refine noninterference (by decide) ?_ _
  exact
    { problems := rfl
      testCases := .cons (.inr ⟨.inl rfl, _, _, rfl⟩) .nil
      submissions := .cons ⟨rfl, rfl, by intro h; cases h⟩ .nil }

end CodeArena.Api
