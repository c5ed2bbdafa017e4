import CodeArena.Api.Database

/-!
# The problem service

The functions of `problem.service.js`.  Each takes the database as it finds it, and the ones
that write return the database they leave; where one throws nothing is written.

The readiness of a problem is computed twice, from one tally for one problem in
`getProblemReadiness` and from one tally for a whole page in `listProblems`, and it is
written down once, in `createProblem`.

## Honest boundary

The audit log is left out: no service that is modelled reads it, and what it throws is
caught.
-/

namespace CodeArena.Api

open CodeArena.Lib CodeArena.Lib.Utf
open CodeArena.Engine (trim toUpperCase)
open CodeArena.Submissions (ObjectId Time JsError Submission Verdict appError mongooseValidationError)

/-! ## Readiness -/

/-- `publicCount` and `hiddenCount`. -/
structure Counts where
  publicCount : Nat
  hiddenCount : Nat
deriving DecidableEq, Repr

/-- The counts before any group is seen. -/
def Counts.zero : Counts := ⟨0, 0⟩

/-- What the loops over the groups do with one of them. -/
def Counts.assign (c : Counts) : Visibility → Nat → Counts
  | .pub, n => { c with publicCount := n }
  | .hidden, n => { c with hiddenCount := n }

/-- The loop over the groups. -/
def Counts.ofGroups (groups : OrderedMap Visibility Nat) : Counts :=
  groups.entries.foldl (fun c e ↦ Counts.assign c e.1 e.2) Counts.zero

/-- The readiness object. -/
structure Readiness where
  isReady : Bool
  publicCount : Nat
  hiddenCount : Nat
  totalCount : Nat
  missingRequirements : List String
deriving DecidableEq, Repr

/-- The readiness object made from counts. -/
def Counts.readiness (c : Counts) : Readiness :=
  let totalCount := c.publicCount + c.hiddenCount
  { isReady := 0 < totalCount && 0 < c.publicCount
    publicCount := c.publicCount
    hiddenCount := c.hiddenCount
    totalCount
    missingRequirements :=
      (if c.publicCount = 0 then ["Missing active public test cases"] else []) ++
      (if c.hiddenCount = 0 then ["Missing active hidden test cases"] else []) ++
      (if totalCount = 0 then ["No active test cases configured"] else []) }

/-- The groups of `getProblemReadiness`: the active test cases of a problem, by their
visibility. -/
def activeByVisibility (db : Database) (problemId : ObjectId) : OrderedMap Visibility Nat :=
  .tally ((db.testCases.filter fun t ↦ t.problemId = problemId ∧ t.isActive).map (·.visibility))

/-- `getProblemReadiness`. -/
def getProblemReadiness (db : Database) (problemId : ObjectId) : Readiness :=
  (Counts.ofGroups (activeByVisibility db problemId)).readiness

/-- A problem with what the service adds to it. -/
structure ProblemDetails where
  problem : Problem
  testCasesCount : Option Nat
  readiness : Readiness
deriving DecidableEq, Repr

/-! ## `createProblem` -/

/-- The readiness that `createProblem` reports. -/
def createdReadiness : Readiness :=
  ⟨false, 0, 0, 0, ["No active test cases configured"]⟩

/-- `createProblem`, with the id that the new document gets. -/
def createProblem (now : Time) (id : ObjectId) (data : ProblemData) (authorId : ObjectId)
    (db : Database) : Except JsError (ProblemDetails × Database) :=
  if data.accepted then
    if h : id ∉ db.problems.map Problem.id then
      let problem : Problem :=
        { data.trimmed with id, authorId, isActive := true, createdAt := now, updatedAt := now }
      .ok (⟨problem, none, createdReadiness⟩, db.addProblem problem h)
    else .error duplicateKeyError
  else .error mongooseValidationError

/-! ## `updateProblem` -/

/-- The fields that an update may set. -/
structure ProblemUpdate where
  title : Option JsString
  description : Option JsString
  difficulty : Option Difficulty
  tags : Option (List JsString)
  inputFormat : Option JsString
  outputFormat : Option JsString
  constraints : Option JsString
  examples : Option (List Example)
deriving DecidableEq, Repr

/-- The content of a problem with the fields of an update set. -/
def ProblemUpdate.apply (u : ProblemUpdate) (d : ProblemData) : ProblemData where
  title := (u.title.map trim).getD d.title
  description := (u.description.map trim).getD d.description
  difficulty := u.difficulty.getD d.difficulty
  tags := u.tags.getD d.tags
  inputFormat := (u.inputFormat.map trim).getD d.inputFormat
  outputFormat := (u.outputFormat.map trim).getD d.outputFormat
  constraints := (u.constraints.map trim).getD d.constraints
  examples := u.examples.getD d.examples

/-- The document to save: it is stamped where its content changed. -/
def Problem.update (p : Problem) (now : Time) (d : ProblemData) : Problem :=
  if d = p.toProblemData then p else { p with toProblemData := d, updatedAt := now }

/-- What is thrown for a problem that is not there. -/
def problemNotFound : JsError := appError "Problem not found" 404 none

/-- `updateProblem`. -/
def updateProblem (now : Time) (problemId : ObjectId) (updateData : ProblemUpdate) (db : Database) :
    Except JsError (ProblemDetails × Database) :=
  match db.findProblem problemId with
  | none => .error problemNotFound
  | some problem =>
    let data := updateData.apply problem.toProblemData
    if data.accepted then
      let saved := problem.update now data
      let db' := db.saveProblem saved
      let readiness := getProblemReadiness db' problem.id
      .ok (⟨saved, some readiness.totalCount, readiness⟩, db')
    else .error mongooseValidationError

/-! ## `deactivateProblem` -/

/-- `deactivateProblem`. -/
def deactivateProblem (now : Time) (problemId : ObjectId) (db : Database) :
    Except JsError (String × Database) :=
  match db.findProblem problemId with
  | none => .error problemNotFound
  | some problem =>
    let message := "Problem deactivated successfully"
    if problem.isActive then
      .ok (message, db.saveProblem { problem with isActive := false, updatedAt := now })
    else .ok (message, db)

/-! ## `listProblems` -/

/-- The parameters of `listProblems`. -/
structure ListParams where
  difficulty : Param
  tag : Param
  tags : Param
  search : Param
  page : Param
  limit : Param
  sort : Param
deriving DecidableEq, Repr

/-- The difficulty a text names, in any case of its letters. -/
def difficultyNamed (s : JsString) : Option Difficulty :=
  [Difficulty.easy, .medium, .hard].find? fun d ↦ d.name = toUpperCase s

/-- The filter on the difficulty. -/
def difficultyFilter : Param → Problem → Bool
  | .many ds, p => p.difficulty ∈ ds.filterMap difficultyNamed
  | .one s, p =>
    match difficultyNamed s with
    | some d => p.difficulty = d
    | none => true
  | .absent, _ => true

/-- `tagsArray`. -/
def tagsArray (ext : Externals) : Param → List JsString
  | .absent => []
  | .one s => ((s.splitOn 0x2C).map fun t ↦ ext.toLowerCase (trim t)).filter (· ≠ [])
  | .many ts => ts

/-- The filter on the tags. -/
def tagsFilter (ext : Externals) (tag tags : Param) (p : Problem) : Bool :=
  match tagsArray ext (tag.or tags) with
  | [] => true
  | ts => p.tags.any (· ∈ ts)

/-- The filter on the title; `none` where the term is no regular expression. -/
def searchFilter (ext : Externals) : Param → Option (JsString → Bool)
  | .one s => if trim s = [] then some fun _ ↦ true else ext.regex (trim s)
  | _ => some fun _ ↦ true

/-- The order of titles: by the code points of their characters. -/
def titleLE (p q : Problem) : Prop := ¬ utf16Decode q.title < utf16Decode p.title

instance (p q : Problem) : Decidable (titleLE p q) := inferInstanceAs (Decidable (¬ _))

/-- `sortCriteria`. -/
def sortProblems (sort : Param) (ps : List Problem) : List Problem :=
  if sort = .one (js "title_asc") then ps.insertionSort titleLE
  else if sort = .one (js "title_desc") then ps.insertionSort fun p q ↦ titleLE q p
  else if sort = .one (js "oldest") then ps.insertionSort fun p q ↦ p.createdAt ≤ q.createdAt
  else ps.insertionSort fun p q ↦ q.createdAt ≤ p.createdAt

/-- An entry of the list. -/
structure ProblemSummary where
  id : ObjectId
  title : JsString
  difficulty : Difficulty
  tags : List JsString
  authorId : ObjectId
  createdAt : Time
  solved : Bool
  testCasesCount : Nat
  readiness : Readiness
deriving DecidableEq, Repr

/-- The groups of `listProblems`: the active test cases of the problems on the page, by
their problem and their visibility. -/
def activeTestCounts (db : Database) (problemIds : List ObjectId) :
    OrderedMap (ObjectId × Visibility) Nat :=
  .tally ((db.testCases.filter fun t ↦ t.problemId ∈ problemIds ∧ t.isActive).map
    fun t ↦ (t.problemId, t.visibility))

/-- `countsMap`. -/
def countsMap (counts : OrderedMap (ObjectId × Visibility) Nat) : OrderedMap ObjectId Counts :=
  counts.entries.foldl
    (fun m e ↦ m.update e.1.1 fun current ↦ (current.getD .zero).assign e.1.2 e.2) .empty

/-- The entry of a problem on the page. -/
def Problem.summary (p : Problem) (counts : OrderedMap ObjectId Counts)
    (solvedProblemSet : List ObjectId) : ProblemSummary :=
  let stats := (counts.get? p.id).getD .zero
  { id := p.id
    title := p.title
    difficulty := p.difficulty
    tags := p.tags
    authorId := p.authorId
    createdAt := p.createdAt
    solved := p.id ∈ solvedProblemSet
    testCasesCount := stats.publicCount + stats.hiddenCount
    readiness := stats.readiness }

/-- The result of `listProblems`. -/
structure ProblemList where
  problems : List ProblemSummary
  pagination : Pagination
deriving DecidableEq, Repr

/-- `listProblems`, for a user who may not be signed in. -/
def listProblems (ext : Externals) (queryParams : ListParams) (user : Option ObjectId)
    (db : Database) : Except JsError ProblemList :=
  match searchFilter ext queryParams.search with
  | none => .error serverError
  | some matchesTitle =>
    let found := db.problems.filter fun p ↦ p.isActive &&
      difficultyFilter queryParams.difficulty p &&
      tagsFilter ext queryParams.tag queryParams.tags p && matchesTitle p.title
    let paging := paging queryParams.page queryParams.limit
    let problems := paging.slice (sortProblems queryParams.sort found)
    let problemIds := problems.map Problem.id
    let counts := countsMap (activeTestCounts db problemIds)
    let solvedProblemSet := match user with
      | none => []
      | some userId => (db.solvedBy userId).filter (· ∈ problemIds)
    .ok ⟨problems.map fun p ↦ p.summary counts solvedProblemSet, paging.of found.length⟩

/-! ## `getProblemById` -/

/-- `getProblemById`. -/
def getProblemById (problemId : ObjectId) (db : Database) : Except JsError ProblemDetails :=
  match db.findProblem problemId with
  | none => .error problemNotFound
  | some problem =>
    if problem.isActive then
      let readiness := getProblemReadiness db problem.id
      .ok ⟨problem, some readiness.totalCount, readiness⟩
    else .error problemNotFound

end CodeArena.Api
