import CodeArena.Api.Problems
import CodeArena.Api.TestCases

/-!
# What users read about themselves

The reads of `submission.service.js` and the functions of `user.service.js`: a user's
submissions, statistics, solved problems and activity.

## Honest boundary

`$dateToString` is given by the number of the day in UTC, which orders days as their texts
are ordered.
-/

namespace CodeArena.Api

open CodeArena.Lib CodeArena.Lib.Utf
open CodeArena.Engine (toUpperCase)
open CodeArena.Submissions (ObjectId WorkerId Time JsError Submission Status Verdict Execution
  appError)

/-- `req.user`. -/
structure User where
  id : ObjectId
  role : Role
deriving DecidableEq, Repr

/-! ## Submissions -/

/-- `toSafeObject` of a submission; without the source where it was not asked for. -/
structure SafeSubmission where
  id : ObjectId
  userId : ObjectId
  problemId : ObjectId
  language : String
  status : Status
  verdict : Verdict
  runtimeMs : Option Nat
  memoryKb : Option Nat
  testsPassed : Option Nat
  totalTests : Option Nat
  queuedAt : Option Time
  startedAt : Option Time
  completedAt : Option Time
  failedAt : Option Time
  errorMessage : Option String
  execution : Execution
  createdAt : Time
  updatedAt : Time
  sourceCode : Option JsString
deriving DecidableEq

/-- `toSafeObject`; an empty `workerId` is shown as null. -/
def SubmissionDoc.toSafeObject (s : SubmissionDoc) (includeCode : Bool) : SafeSubmission where
  id := s.id
  userId := s.userId
  problemId := s.problemId
  language := s.language
  status := s.status
  verdict := s.verdict
  runtimeMs := s.runtimeMs
  memoryKb := s.memoryKb
  testsPassed := s.testsPassed
  totalTests := s.totalTests
  queuedAt := s.queuedAt
  startedAt := s.startedAt
  completedAt := s.completedAt
  failedAt := s.failedAt
  errorMessage := s.errorMessage
  execution := { s.execution with workerId := s.execution.workerId.filter (· ≠ "") }
  createdAt := s.createdAt
  updatedAt := s.updatedAt
  sourceCode := if includeCode then some s.sourceCode else none

/-- `getSubmissionById`. -/
def getSubmissionById (submissionId : ObjectId) (requestingUser : User) (db : Database) :
    Except JsError SafeSubmission :=
  match db.findSubmission submissionId with
  | none => .error (appError "Submission not found" 404 none)
  | some submission =>
    if submission.userId = requestingUser.id ∨ requestingUser.role = .admin then
      .ok (submission.toSafeObject true)
    else
      .error (appError "Access denied: you do not have permission to view this submission" 403 none)

/-- The parameters of `getMySubmissions`. -/
structure MySubmissionsParams where
  problemId : Param
  language : Param
  verdict : Param
  page : Param
  limit : Param
  includeCode : Param
deriving DecidableEq, Repr

/-- The name of a verdict. -/
def verdictName : Verdict → JsString
  | .pending => js "PENDING"
  | .accepted => js "ACCEPTED"
  | .wrongAnswer => js "WRONG_ANSWER"
  | .compilationError => js "COMPILATION_ERROR"
  | .runtimeError => js "RUNTIME_ERROR"
  | .timeLimitExceeded => js "TIME_LIMIT_EXCEEDED"
  | .memoryLimitExceeded => js "MEMORY_LIMIT_EXCEEDED"

/-- A filter on a name, in any case of its letters. -/
def nameFilter : Param → JsString → Bool
  | .one (u :: s), name => name = toUpperCase (u :: s)
  | _, _ => true

/-- The filter on the problem, or what it throws. -/
def problemFilter (ext : Externals) (problemId : Param) : Except JsError (ObjectId → Bool) :=
  if problemId.truthy then
    if ext.isValidObjectId problemId then
      match ext.castObjectId problemId with
      | none => .error castError
      | some id => .ok fun i ↦ i = id
    else .error (appError "Invalid problem ID format" 400 none)
  else .ok fun _ ↦ true

/-- The result of `getMySubmissions`. -/
structure SubmissionList where
  submissions : List SafeSubmission
  pagination : Pagination
deriving DecidableEq

/-- `getMySubmissions`. -/
def getMySubmissions (ext : Externals) (userId : ObjectId) (queryParams : MySubmissionsParams)
    (db : Database) : Except JsError SubmissionList :=
  match problemFilter ext queryParams.problemId with
  | .error e => .error e
  | .ok ofProblem =>
    let found := db.submissions.filter fun s ↦ s.userId = userId && (ofProblem s.problemId &&
      nameFilter queryParams.language (js s.language) &&
      nameFilter queryParams.verdict (verdictName s.verdict))
    let paging := paging queryParams.page queryParams.limit
    let includeCode := queryParams.includeCode = .one (js "true")
    let submissions := paging.slice (found.insertionSort fun s t ↦ t.createdAt ≤ s.createdAt)
    .ok ⟨submissions.map (·.toSafeObject includeCode), paging.of found.length⟩

/-! ## Statistics -/

/-- The result of `getUserStats`. -/
structure UserStats where
  totalProblemsSolved : Nat
  easySolved : Nat
  mediumSolved : Nat
  hardSolved : Nat
  totalSubmissions : Nat
  acceptedSubmissions : Nat
  wrongAnswerSubmissions : Nat
  compilationErrorSubmissions : Nat
  runtimeErrorSubmissions : Nat
  timeLimitExceededSubmissions : Nat
  memoryLimitExceededSubmissions : Nat
  acceptanceRate : Nat
deriving DecidableEq, Repr

/-- `getUserStats`.  A loop that keeps the count of one group comes to the value under it
(`OrderedMap.foldl_assign`). -/
def getUserStats (ext : Externals) (userId : ObjectId) (db : Database) : UserStats :=
  let submissionStats : OrderedMap Verdict Nat :=
    .tally ((db.submissions.filter fun s ↦ s.userId = userId).map (·.verdict))
  let totalSubmissions := submissionStats.entries.foldl (fun n stat ↦ n + stat.2) 0
  let acceptedSubmissions := submissionStats.value .accepted
  let solvedProblemIds := db.solvedBy userId
  let difficultyCounts : OrderedMap Difficulty Nat :=
    .tally ((db.problems.filter fun p ↦ p.id ∈ solvedProblemIds ∧ p.isActive).map (·.difficulty))
  let easySolved := difficultyCounts.value .easy
  let mediumSolved := difficultyCounts.value .medium
  let hardSolved := difficultyCounts.value .hard
  { totalProblemsSolved := easySolved + mediumSolved + hardSolved
    easySolved
    mediumSolved
    hardSolved
    totalSubmissions
    acceptedSubmissions
    wrongAnswerSubmissions := submissionStats.value .wrongAnswer
    compilationErrorSubmissions := submissionStats.value .compilationError
    runtimeErrorSubmissions := submissionStats.value .runtimeError
    timeLimitExceededSubmissions := submissionStats.value .timeLimitExceeded
    memoryLimitExceededSubmissions := submissionStats.value .memoryLimitExceeded
    acceptanceRate :=
      if 0 < totalSubmissions then ext.percentage acceptedSubmissions totalSubmissions else 0 }

/-! ## Solved problems -/

/-- The parameters of `getUserSolvedProblems`. -/
structure SolvedParams where
  difficulty : Param
  page : Param
  limit : Param
deriving DecidableEq, Repr

/-- An entry of the solved problems. -/
structure SolvedProblem where
  id : ObjectId
  title : JsString
  difficulty : Difficulty
  tags : List JsString
  createdAt : Time
  solved : Bool
deriving DecidableEq, Repr

/-- The result of `getUserSolvedProblems`. -/
structure SolvedList where
  problems : List SolvedProblem
  pagination : Pagination
deriving DecidableEq, Repr

/-- The filter on the difficulty: an array has no `toUpperCase`. -/
def solvedDifficultyFilter : Param → Except JsError (Problem → Bool)
  | .many _ => .error typeError
  | p => .ok fun problem ↦ nameFilter p problem.difficulty.name

/-- `getUserSolvedProblems`. -/
def getUserSolvedProblems (userId : ObjectId) (queryParams : SolvedParams) (db : Database) :
    Except JsError SolvedList :=
  let paging := paging queryParams.page queryParams.limit
  match db.solvedBy userId with
  | [] => .ok ⟨[], ⟨paging.page, paging.limit, 0, 0⟩⟩
  | solvedProblemIds =>
    match solvedDifficultyFilter queryParams.difficulty with
    | .error e => .error e
    | .ok ofDifficulty =>
      let found := db.problems.filter fun p ↦
        p.id ∈ solvedProblemIds && p.isActive && ofDifficulty p
      let problems := paging.slice (found.insertionSort fun p q ↦ q.createdAt ≤ p.createdAt)
      .ok ⟨problems.map fun p ↦ ⟨p.id, p.title, p.difficulty, p.tags, p.createdAt, true⟩,
        paging.of found.length⟩

/-! ## Activity -/

/-- `normalizedRange`. -/
inductive Range where
  | days30
  | days90
  | year
  | all
deriving DecidableEq, Repr

/-- The range that a text names. -/
def rangeNamed (s : JsString) : Range :=
  if s = js "30d" then .days30
  else if s = js "90d" then .days90
  else if s = js "all" then .all
  else .year

/-- `startDate`. -/
def Range.startDate (ext : Externals) (now : Time) : Range → Time
  | days30 => ext.daysBefore 30 now
  | days90 => ext.daysBefore 90 now
  | all => 0
  | year => ext.yearBefore now

/-- The result of `getUserActivity`: the submissions of each day. -/
structure Activity where
  range : Range
  totalSubmissions : Nat
  activity : List (Nat × Nat)
deriving DecidableEq, Repr

/-- The day of a time. -/
def dayOf (t : Time) : Nat := t / 86400000

/-- `getUserActivity`: an array has no `toLowerCase`. -/
def getUserActivity (ext : Externals) (now : Time) (userId : ObjectId) (range : Param)
    (db : Database) : Except JsError Activity :=
  match range.or (.one (js "1y")) with
  | .one s =>
    let normalizedRange := rangeNamed (ext.toLowerCase s)
    let startDate := normalizedRange.startDate ext now
    let byDay : OrderedMap Nat Nat := .tally ((db.submissions.filter fun s ↦
      s.userId = userId && startDate ≤ s.createdAt).map fun s ↦ dayOf s.createdAt)
    let activityData := byDay.entries.insertionSort fun a b ↦ a.1 ≤ b.1
    .ok ⟨normalizedRange, activityData.foldl (fun sum item ↦ sum + item.2) 0, activityData⟩
  | _ => .error typeError

end CodeArena.Api
