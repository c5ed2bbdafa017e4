import CodeArena.Accounts.Session
import CodeArena.Lib.Pipeline
import CodeArena.Submissions.Acceptance

/-!
# The service

The routes of the API with the middlewares in front of their controllers, and what the
controllers that write leave behind: accounts, problems, test cases, submissions, and entries
of the audit log.

First the middlewares of a request run: they refuse it, or leave it to its controller with the
user that they have found.  The controller makes its calls one after another, each some time
later and over what is stored by then: an update finds its document, sets fields of it in
memory, saves the fields that were modified, and adds an entry to the audit log after that.
Other requests go on between any two of the calls.

## Honest boundary

Which route a request is for is Express's to say: a request may come for any of them.  The
middlewares of a request run at one moment, and so does a controller that only reads, which
leaves everything as it is; what is answered, and what is read for an answer after the last
write, is the subject of other modules.  Of `createSubmission` this is the part up to the
record.  A call that fails has changed nothing.
The versions by which Mongoose refuses to set an array that was set since the document was
loaded are not modelled: any save may fail.
-/

namespace CodeArena.Service

open CodeArena.Lib CodeArena.Lib.Utf
open CodeArena.Lib.OrderedMap (find?)
open CodeArena.Engine (trim Value)
open CodeArena.Submissions (ObjectId Time JsError Body appError problemNotReady schemaAccepts
  mongooseValidationError documentNotFoundError)
open CodeArena.Submissions.Submission (changed changed_stored)
open CodeArena.Api (Role Fields Database Problem TestCase Mongoose SubmissionDoc badRequest
  bodyFields problemNotFound typeError tagItems)
open CodeArena.Accounts (Auth User Users UserData userData userExists)

/-! ## The audit log -/

/-- `action`. -/
inductive Action where
  | problemCreated
  | problemUpdated
  | problemDeleted
  | testCaseCreated
  | testCaseUpdated
  | testCaseDeleted
deriving DecidableEq, Repr

/-- `targetType`. -/
inductive TargetType where
  | problem
  | testCase
deriving DecidableEq, Repr

/-- What `logAuditAction` is called with; no controller has an `ip`. -/
structure AuditEntry where
  userId : ObjectId
  action : Action
  targetType : TargetType
  targetId : ObjectId
  details : Fields

/-- A document of the audit log. -/
structure AuditLog extends AuditEntry where
  createdAt : Time

/-- Everything that is stored. -/
structure World where
  users : Users
  db : Database
  log : List AuditLog

/-- `logAuditAction`: the log gets one more entry. -/
def logAuditAction (now : Time) (entry : AuditEntry) (w : World) : World :=
  { w with log := w.log ++ [{ entry with createdAt := now }] }

/-- `changedFields`: the allowed fields that an update sets, in their order. -/
def changedFields (allowed : List JsString) (updateData : Fields) : Fields :=
  allowed.filterMap fun k ↦ (find? k updateData).map fun v ↦ (k, v)

/-! ## What the service runs on -/

/-- What is not in the repository. -/
structure Platform where
  auth : Auth
  mongoose : Mongoose
  /-- `mongoose.Types.ObjectId.isValid`. -/
  isValidId : Json → Bool

/-- What a controller is given by the clock, by the driver and by the other services. -/
structure Env where
  now : Time
  /-- The id that a new document gets. -/
  id : ObjectId
  /-- The salt that argon2 draws. -/
  salt : Nat

/-! ## Requests -/

/-- A request, with what its middlewares have made of it. -/
structure Context where
  /-- `req.headers.authorization`. -/
  authorization : Option JsString
  /-- `req.params`. -/
  problemId : JsString
  testCaseId : JsString
  submissionId : JsString
  body : Option Json
  /-- The sanitized fields of a submission. -/
  submission : Option Body
  /-- `req.user`. -/
  user : Option User

/-- A value as `validateCreateSubmission` looks at it. -/
def valueOf : Option Json → Value
  | none => .undefined
  | some (.string s) => .string s
  | some _ => .other

/-- A middleware. -/
inductive Middleware where
  | registerLimiter
  | loginLimiter
  | submissionLimiter
  | authenticate
  | optionalAuthenticate
  | authorize (allowedRoles : List Role)
  | validateRegister
  | validateLogin
  | validateProblemId
  | validateTestCaseId
  | validateSubmissionId
  | validateCreateProblem
  | validateUpdateProblem
  | validateCreateTestCase
  | validateUpdateTestCase
  | validateCreateSubmission
deriving DecidableEq, Repr

/-- What a limiter answers. -/
def tooMany (message : String) : JsError := appError message 429 (some "RATE_LIMIT_EXCEEDED")

/-- A limiter; `limited` tells whether it lets no more through. -/
def limiter (limited : Bool) (message : String) (ctx : Context) : Except JsError Context :=
  if limited then .error (tooMany message) else .ok ctx

/-- `authorize`. -/
def authorize (allowedRoles : List Role) (ctx : Context) : Except JsError Context :=
  match ctx.user with
  | none => .error (appError "Authentication required before authorization" 401 none)
  | some user =>
    if allowedRoles.any (· = user.role) then .ok ctx
    else .error (appError "Access denied: insufficient permissions" 403 none)

/-- The check of an id in the path. -/
def validateId (pf : Platform) (id : JsString) (message : String) (ctx : Context) :
    Except JsError Context :=
  if id ≠ [] ∧ pf.isValidId (.string id) then .ok ctx else .error (badRequest message)

/-- A check of the body that leaves fields. -/
def validateBody (check : Option Json → Except JsError Fields) (ctx : Context) :
    Except JsError Context :=
  (check ctx.body).map fun fields ↦ { ctx with body := some (.object fields) }

/-- `validateCreateSubmission`. -/
def validateSubmission (pf : Platform) (ctx : Context) : Except JsError Context :=
  let fields := bodyFields ctx.body
  let isValid : Value → Bool := fun _ ↦
    match find? (js "problemId") fields with
    | none => false
    | some v => Accounts.truthy v && pf.isValidId v
  (Submissions.validateCreateSubmission isValid ⟨valueOf (find? (js "problemId") fields),
    valueOf (find? (js "language") fields), valueOf (find? (js "sourceCode") fields)⟩).map
      fun body ↦ { ctx with submission := some body }

/-- What a middleware makes of a request, over the accounts that are stored. -/
def Middleware.run (pf : Platform) (limited : Bool) (now : Time) (us : Users) :
    Middleware → Context → Except JsError Context
  | .registerLimiter => limiter limited
    "Too many registration attempts. Please try again in 15 minutes."
  | .loginLimiter => limiter limited "Too many login attempts. Please try again in 15 minutes."
  | .submissionLimiter => limiter limited
    "Submission rate limit exceeded. You may submit up to 10 solutions per minute."
  | .authenticate => fun ctx ↦
    (Accounts.authenticate pf.auth now ctx.authorization us).map fun user ↦
      { ctx with user := some user }
  | .optionalAuthenticate => fun ctx ↦
    .ok { ctx with user := Accounts.optionalAuthenticate pf.auth now ctx.authorization us }
  | .authorize allowedRoles => Service.authorize allowedRoles
  | .validateRegister => validateBody (Accounts.validateRegister pf.auth)
  | .validateLogin => validateBody (Accounts.validateLogin pf.auth)
  | .validateProblemId => fun ctx ↦ validateId pf ctx.problemId "Invalid problem ID format" ctx
  | .validateTestCaseId => fun ctx ↦
    validateId pf ctx.testCaseId "Invalid test case ID format" ctx
  | .validateSubmissionId => fun ctx ↦
    validateId pf ctx.submissionId "Invalid submission ID format" ctx
  | .validateCreateProblem => validateBody Api.validateCreateProblem
  | .validateUpdateProblem => validateBody Api.validateUpdateProblem
  | .validateCreateTestCase => validateBody Api.validateCreateTestCase
  | .validateUpdateTestCase => validateBody Api.validateUpdateTestCase
  | .validateCreateSubmission => validateSubmission pf

/-! ## Routes -/

/-- A method. -/
inductive Method where
  | get
  | post
  | patch
  | delete
deriving DecidableEq, Repr

/-- A controller. -/
inductive Controller where
  | register
  | login
  | getMe
  | getMyStats
  | getMySolvedProblems
  | getMyActivity
  | listProblems
  | getProblem
  | createProblem
  | updateProblem
  | deactivateProblem
  | createTestCase
  | getTestCasesForProblem
  | getTestCase
  | updateTestCase
  | deactivateTestCase
  | createSubmission
  | getMySubmissions
  | getSubmission
  | getAuditLogs
  | getQueueMetrics
  | getWorkers
deriving DecidableEq, Repr

/-- A route. -/
structure Route where
  method : Method
  path : String
  chain : List Middleware
  controller : Controller
deriving DecidableEq, Repr

/-- The routes under `/api/v1`, in their order. -/
def routes : List Route :=
  [⟨.post, "/auth/register", [.registerLimiter, .validateRegister], .register⟩,
    ⟨.post, "/auth/login", [.loginLimiter, .validateLogin], .login⟩,
    ⟨.get, "/users/me/stats", [.authenticate], .getMyStats⟩,
    ⟨.get, "/users/me/solved-problems", [.authenticate], .getMySolvedProblems⟩,
    ⟨.get, "/users/me/activity", [.authenticate], .getMyActivity⟩,
    ⟨.get, "/users/me", [.authenticate], .getMe⟩,
    ⟨.get, "/problems", [.optionalAuthenticate], .listProblems⟩,
    ⟨.get, "/problems/:problemId", [.validateProblemId], .getProblem⟩,
    ⟨.post, "/problems", [.authenticate, .authorize [.admin], .validateCreateProblem],
      .createProblem⟩,
    ⟨.patch, "/problems/:problemId",
      [.authenticate, .authorize [.admin], .validateProblemId, .validateUpdateProblem],
      .updateProblem⟩,
    ⟨.delete, "/problems/:problemId", [.authenticate, .authorize [.admin], .validateProblemId],
      .deactivateProblem⟩,
    ⟨.post, "/problems/:problemId/test-cases",
      [.authenticate, .authorize [.admin], .validateProblemId, .validateCreateTestCase],
      .createTestCase⟩,
    ⟨.get, "/problems/:problemId/test-cases", [.authenticate, .validateProblemId],
      .getTestCasesForProblem⟩,
    ⟨.get, "/test-cases/:testCaseId", [.authenticate, .validateTestCaseId], .getTestCase⟩,
    ⟨.patch, "/test-cases/:testCaseId",
      [.authenticate, .authorize [.admin], .validateTestCaseId, .validateUpdateTestCase],
      .updateTestCase⟩,
    ⟨.delete, "/test-cases/:testCaseId", [.authenticate, .authorize [.admin], .validateTestCaseId],
      .deactivateTestCase⟩,
    ⟨.post, "/submissions", [.authenticate, .submissionLimiter, .validateCreateSubmission],
      .createSubmission⟩,
    ⟨.get, "/submissions/me", [.authenticate], .getMySubmissions⟩,
    ⟨.get, "/submissions/:submissionId", [.authenticate, .validateSubmissionId], .getSubmission⟩,
    ⟨.get, "/admin/audit-logs", [.authenticate, .authorize [.admin]], .getAuditLogs⟩,
    ⟨.get, "/admin/queue-metrics", [.authenticate, .authorize [.admin]], .getQueueMetrics⟩,
    ⟨.get, "/admin/workers", [.authenticate, .authorize [.admin]], .getWorkers⟩]

/-! ## Saving a document that was loaded -/

/-- `problem.save()`, over what is stored by then: the paths that were modified are set. -/
def saveOver (loaded doc stored : Problem) : Problem where
  title := changed loaded.title doc.title stored.title
  description := changed loaded.description doc.description stored.description
  difficulty := changed loaded.difficulty doc.difficulty stored.difficulty
  tags := changed loaded.tags doc.tags stored.tags
  inputFormat := changed loaded.inputFormat doc.inputFormat stored.inputFormat
  outputFormat := changed loaded.outputFormat doc.outputFormat stored.outputFormat
  constraints := changed loaded.constraints doc.constraints stored.constraints
  examples := changed loaded.examples doc.examples stored.examples
  id := stored.id
  authorId := changed loaded.authorId doc.authorId stored.authorId
  isActive := changed loaded.isActive doc.isActive stored.isActive
  createdAt := changed loaded.createdAt doc.createdAt stored.createdAt
  updatedAt := changed loaded.updatedAt doc.updatedAt stored.updatedAt

/-- `testCase.save()`. -/
def saveCaseOver (loaded doc stored : TestCase) : TestCase where
  input := changed loaded.input doc.input stored.input
  expectedOutput := changed loaded.expectedOutput doc.expectedOutput stored.expectedOutput
  visibility := changed loaded.visibility doc.visibility stored.visibility
  order := changed loaded.order doc.order stored.order
  id := stored.id
  problemId := changed loaded.problemId doc.problemId stored.problemId
  isActive := changed loaded.isActive doc.isActive stored.isActive
  createdAt := changed loaded.createdAt doc.createdAt stored.createdAt
  updatedAt := changed loaded.updatedAt doc.updatedAt stored.updatedAt

/-- Over the document that was loaded, the one in memory is stored. -/
theorem saveOver_loaded {loaded doc : Problem} (hid : doc.id = loaded.id) :
    saveOver loaded doc loaded = doc := by
  simp only [saveOver, changed_stored]
  rw [← hid]

theorem saveCaseOver_loaded {loaded doc : TestCase} (hid : doc.id = loaded.id) :
    saveCaseOver loaded doc loaded = doc := by
  simp only [saveCaseOver, changed_stored]
  rw [← hid]

/-! ## The controllers that write -/

/-- What a controller awaits, after its first call. -/
inductive Call where
  /-- `hashPassword`. -/
  | hashPassword (data : UserData)
  /-- `User.create`. -/
  | createUser (data : UserData) (passwordHash : JsString)
  /-- `problem.save()`; `entry` is logged next. -/
  | saveProblem (loaded problem : Problem) (entry : AuditEntry)
  /-- `TestCase.create`, for the problem whose id stands in the path. -/
  | createTestCase (problemId : JsString) (id : ObjectId) (data : Fields) (user : User)
  /-- `testCase.save()`; `entry` is logged next. -/
  | saveTestCase (loaded testCase : TestCase) (entry : AuditEntry)
  /-- `TestCase.countDocuments`. -/
  | countTestCases (problemId : ObjectId) (body : Body) (user : User)
  /-- `Submission.create`. -/
  | createSubmission (problemId : ObjectId) (body : Body) (user : User)
  | logAuditAction (entry : AuditEntry)

/-- What a call leaves: what is stored, and what its controller awaits next, if anything. -/
structure Outcome where
  world : World
  next : Option Call

section

variable (pf : Platform) (env : Env)

/-- `register`, up to `User.findOne`. -/
def register (fields : Fields) (w : World) : Except JsError Outcome :=
  match userData fields with
  | none => .error typeError
  | some d =>
    match w.users.findByEmail pf.auth (pf.auth.normalizeEmail d.email) with
    | some _ => .error userExists
    | none => .ok ⟨w, some (.hashPassword d)⟩

/-- An id in the path, cast by the query. -/
def castId (id : JsString) : Except JsError ObjectId :=
  match pf.auth.castId (.string id) with
  | none => .error Api.castError
  | some id => .ok id

/-- `createProblem`, up to `Problem.create`. -/
def createProblem (data : Fields) (authorId : ObjectId) (w : World) : Except JsError Outcome :=
  match pf.mongoose.createProblem env.now env.id data authorId w.db with
  | .error e => .error e
  | .ok (created, db) =>
    .ok ⟨{ w with db }, some (.logAuditAction
      { userId := authorId
        action := .problemCreated
        targetType := .problem
        targetId := created.problem.id
        details := [(js "title", .string created.problem.title),
          (js "difficulty", .string created.problem.difficulty.name),
          (js "tags", tagItems created.problem.tags)] })⟩

/-- `updateProblem`, up to `Problem.findById`.  What is assigned is checked before the save. -/
def updateProblem (problemId : ObjectId) (updateData : Fields) (user : User) (w : World) :
    Except JsError Outcome :=
  match w.db.findProblem problemId with
  | none => .error problemNotFound
  | some problem =>
    match pf.mongoose.problemUpdate updateData with
    | none => .error mongooseValidationError
    | some u =>
      let data := u.apply problem.toProblemData
      if data.accepted then
        .ok ⟨w, some (.saveProblem problem (problem.update env.now data)
          { userId := user.id
            action := .problemUpdated
            targetType := .problem
            targetId := problem.id
            details := changedFields Api.problemFields updateData })⟩
      else .error mongooseValidationError

/-- `deactivateProblem`, up to `Problem.findById`; where the problem is not active, it is done. -/
def deactivateProblem (problemId : ObjectId) (user : User) (w : World) : Except JsError Outcome :=
  match w.db.findProblem problemId with
  | none => .error problemNotFound
  | some problem =>
    if problem.isActive then
      .ok ⟨w, some (.saveProblem problem { problem with isActive := false, updatedAt := env.now }
        { userId := user.id
          action := .problemDeleted
          targetType := .problem
          targetId := problem.id
          details := [(js "title", .string problem.title)] })⟩
    else .ok ⟨w, none⟩

/-- `createTestCase`, up to `Problem.findById`. -/
def createTestCase (problemId : JsString) (data : Fields) (user : User) (w : World) :
    Except JsError Outcome :=
  match castId pf problemId with
  | .error e => .error e
  | .ok id =>
    match w.db.findProblem id with
    | none => .error problemNotFound
    | some _ => .ok ⟨w, some (.createTestCase problemId id data user)⟩

/-- What is thrown for a test case that is not there. -/
def testCaseNotFound : JsError := appError "Test case not found" 404 none

/-- `updateTestCase`, up to `TestCase.findById`. -/
def updateTestCase (testCaseId : ObjectId) (updateData : Fields) (user : User) (w : World) :
    Except JsError Outcome :=
  match w.db.findTestCase testCaseId with
  | none => .error testCaseNotFound
  | some testCase =>
    match pf.mongoose.testCaseUpdate updateData with
    | none => .error mongooseValidationError
    | some u =>
      let data := u.apply testCase.toTestCaseData
      if data.accepted then
        .ok ⟨w, some (.saveTestCase testCase (testCase.update env.now data)
          { userId := user.id
            action := .testCaseUpdated
            targetType := .testCase
            targetId := testCase.id
            details := changedFields Api.testCaseFields updateData })⟩
      else .error mongooseValidationError

/-- `deactivateTestCase`, up to `TestCase.findById`; where it is not active, it is done. -/
def deactivateTestCase (testCaseId : ObjectId) (user : User) (w : World) :
    Except JsError Outcome :=
  match w.db.findTestCase testCaseId with
  | none => .error testCaseNotFound
  | some testCase =>
    if testCase.isActive then
      .ok ⟨w, some (.saveTestCase testCase { testCase with isActive := false, updatedAt := env.now }
        { userId := user.id
          action := .testCaseDeleted
          targetType := .testCase
          targetId := testCase.id
          details := [(js "problemId", .string (pf.auth.idText testCase.problemId))] })⟩
    else .ok ⟨w, none⟩

/-- `createSubmission`, up to `Problem.findById`. -/
def createSubmission (problemId : Json) (body : Body) (user : User) (w : World) :
    Except JsError Outcome :=
  match pf.auth.castId problemId with
  | none => .error Api.castError
  | some id =>
    match w.db.findProblem id with
    | none => .error problemNotFound
    | some problem =>
      if problem.isActive then .ok ⟨w, some (.countTestCases problem.id body user)⟩
      else .error (appError "Cannot submit to an inactive problem" 400 none)

/-- What a controller does for a user; without one there is no `_id` to read. -/
def forUser (user : Option User) (f : User → Except JsError Outcome) : Except JsError Outcome :=
  match user with
  | none => .error typeError
  | some user => f user

/-- What a controller does with an id in the path. -/
def forId (id : JsString) (f : ObjectId → Except JsError Outcome) : Except JsError Outcome :=
  match castId pf id with
  | .error e => .error e
  | .ok id => f id

/-- What the first call of a controller leaves, or what it answers with. -/
def Controller.run (c : Controller) (ctx : Context) (w : World) : Except JsError Outcome :=
  let fields := bodyFields ctx.body
  match c with
  | .register => Service.register pf fields w
  | .createProblem => forUser ctx.user fun user ↦ Service.createProblem pf env fields user.id w
  | .updateProblem => forUser ctx.user fun user ↦
    forId pf ctx.problemId fun id ↦ Service.updateProblem pf env id fields user w
  | .deactivateProblem => forUser ctx.user fun user ↦
    forId pf ctx.problemId fun id ↦ Service.deactivateProblem env id user w
  | .createTestCase => forUser ctx.user fun user ↦
    Service.createTestCase pf ctx.problemId fields user w
  | .updateTestCase => forUser ctx.user fun user ↦
    forId pf ctx.testCaseId fun id ↦ Service.updateTestCase pf env id fields user w
  | .deactivateTestCase => forUser ctx.user fun user ↦
    forId pf ctx.testCaseId fun id ↦ Service.deactivateTestCase pf env id user w
  | .createSubmission => forUser ctx.user fun user ↦
    match ctx.submission with
    | none => .error typeError
    | some body =>
      Service.createSubmission pf ((find? (js "problemId") fields).getD .null) body user w
  | .login | .getMe | .getMyStats | .getMySolvedProblems | .getMyActivity | .listProblems
  | .getProblem | .getTestCasesForProblem | .getTestCase | .getMySubmissions | .getSubmission
  | .getAuditLogs | .getQueueMetrics | .getWorkers => .ok ⟨w, none⟩

/-! ## The calls after the first -/

/-- `TestCase.create`; the entry has the id of the problem as it stands in the path. -/
def insertTestCase (problemId : JsString) (id : ObjectId) (data : Fields) (user : User)
    (w : World) : Except JsError Outcome :=
  match pf.mongoose.testCaseData data with
  | none => .error mongooseValidationError
  | some d =>
    if d.accepted then
      if h : env.id ∉ w.db.testCases.map TestCase.id then
        let testCase : TestCase :=
          { d with id := env.id, problemId := id, isActive := true, createdAt := env.now,
                   updatedAt := env.now }
        .ok ⟨{ w with db := w.db.addTestCase testCase h }, some (.logAuditAction
          { userId := user.id
            action := .testCaseCreated
            targetType := .testCase
            targetId := testCase.id
            details := [(js "problemId", .string problemId),
              (js "visibility", .string testCase.visibility.name),
              (js "order", .number testCase.order)] })⟩
      else .error Api.duplicateKeyError
    else .error mongooseValidationError

/-- The record of a submission, as it is created. -/
def newSubmission (body : Body) (userId problemId : ObjectId) : SubmissionDoc :=
  { Submissions.Submission.create (body.request userId problemId) with
    id := env.id
    createdAt := env.now
    updatedAt := env.now }

/-- What a call leaves, or what its controller answers with. -/
def Call.run (w : World) : Call → Except JsError Outcome
  | .hashPassword d => .ok ⟨w, some (.createUser d (pf.auth.hash env.salt d.password))⟩
  | .createUser d passwordHash =>
    match Accounts.createUser pf.auth w.users env.now env.id d passwordHash with
    | .error e => .error (Accounts.caught e)
    | .ok (_, users) => .ok ⟨{ w with users }, none⟩
  | .saveProblem loaded problem entry =>
    match w.db.findProblem loaded.id with
    | none => .error documentNotFoundError
    | some stored =>
      .ok ⟨{ w with db := w.db.saveProblem (saveOver loaded problem stored) },
        some (.logAuditAction entry)⟩
  | .createTestCase problemId id data user => insertTestCase pf env problemId id data user w
  | .saveTestCase loaded testCase entry =>
    match w.db.findTestCase loaded.id with
    | none => .error documentNotFoundError
    | some stored =>
      .ok ⟨{ w with db := w.db.saveTestCase (saveCaseOver loaded testCase stored) },
        some (.logAuditAction entry)⟩
  | .countTestCases problemId body user =>
    if w.db.testCases.any (fun t ↦ t.problemId = problemId && t.isActive) then
      .ok ⟨w, some (.createSubmission problemId body user)⟩
    else .error problemNotReady
  | .createSubmission problemId body user =>
    if schemaAccepts (body.request user.id problemId) then
      .ok ⟨{ w with db := { w.db with
        submissions := w.db.submissions ++ [newSubmission env body user.id problemId] } }, none⟩
    else .error mongooseValidationError
  | .logAuditAction entry => .ok ⟨Service.logAuditAction env.now entry w, none⟩

end

/-! ## With nothing in between -/

/-- The first call of a controller and the one after it. -/
def twoCalls (pf : Platform) (env : Env) (first : Except JsError Outcome) :
    Except JsError Outcome :=
  first.bind fun out ↦
    match out.next with
    | none => .ok out
    | some call => call.run pf env out.world

section

variable {pf : Platform} {env : Env} {w : World} {user : User} {fields : Fields} {id : ObjectId}

theorem twoCalls_ok (call : Call) :
    twoCalls pf env (.ok ⟨w, some call⟩) = call.run pf env w := rfl

theorem problem_update_id (p : Problem) (now : Time) (d : Api.ProblemData) :
    (p.update now d).id = p.id := by
  unfold Problem.update
  split <;> rfl

theorem testCase_update_id (t : TestCase) (now : Time) (d : Api.TestCaseData) :
    (t.update now d).id = t.id := by
  unfold TestCase.update
  split <;> rfl

/-- **An update that nothing gets in between** is `updateProblem` of the API. -/
theorem updateProblem_alone : twoCalls pf env (updateProblem pf env id fields user w) =
    (pf.mongoose.updateProblem env.now id fields w.db).map fun updated ↦
      ⟨{ w with db := updated.2 }, some (.logAuditAction ⟨user.id, .problemUpdated, .problem,
        updated.1.problem.id, changedFields Api.problemFields fields⟩)⟩ := by
  unfold updateProblem Api.Mongoose.updateProblem
  cases hfind : w.db.findProblem id with
  | none => rfl
  | some p =>
      obtain ⟨-, rfl⟩ := Database.findProblem_eq_some.mp hfind
      cases hu : pf.mongoose.problemUpdate fields with
      | none => rfl
      | some u =>
          dsimp only
          rw [Api.updateProblem, hfind]
          dsimp only
          split
          · rw [twoCalls_ok, Call.run, hfind]
            dsimp only
            rw [saveOver_loaded (problem_update_id ..)]
            simp only [Except.map, problem_update_id]
          · rfl

/-- The same of a test case. -/
theorem updateTestCase_alone : twoCalls pf env (updateTestCase pf env id fields user w) =
    (pf.mongoose.updateTestCase env.now id fields w.db).map fun updated ↦
      ⟨{ w with db := updated.2 }, some (.logAuditAction ⟨user.id, .testCaseUpdated, .testCase,
        updated.1.id, changedFields Api.testCaseFields fields⟩)⟩ := by
  unfold updateTestCase Api.Mongoose.updateTestCase
  cases hfind : w.db.findTestCase id with
  | none => rfl
  | some t =>
      obtain ⟨-, rfl⟩ := (Database.find?_id_eq_some w.db.testCases_nodup).mp hfind
      cases hu : pf.mongoose.testCaseUpdate fields with
      | none => rfl
      | some u =>
          dsimp only
          rw [Api.updateTestCase, hfind]
          dsimp only
          split
          · rw [twoCalls_ok, Call.run, hfind]
            dsimp only
            rw [saveCaseOver_loaded (testCase_update_id ..)]
            simp only [Except.map, testCase_update_id]
          · rfl

/-- A test case that is created with nothing in between is that of the API. -/
theorem createTestCase_alone {problemId : JsString} (hid : castId pf problemId = .ok id) :
    twoCalls pf env (createTestCase pf problemId fields user w) =
      (pf.mongoose.createTestCase env.now env.id id fields w.db).map fun created ↦
        ⟨{ w with db := created.2 }, some (.logAuditAction ⟨user.id, .testCaseCreated, .testCase,
          created.1.id, [(js "problemId", .string problemId),
            (js "visibility", .string created.1.visibility.name),
            (js "order", .number created.1.order)]⟩)⟩ := by
  rw [createTestCase, hid, Api.Mongoose.createTestCase]
  dsimp only
  cases hfind : w.db.findProblem id with
  | none => rfl
  | some p =>
      rw [twoCalls_ok, Call.run, insertTestCase]
      cases hd : pf.mongoose.testCaseData fields with
      | none => rfl
      | some d =>
          dsimp only
          rw [Api.createTestCase, hfind]
          dsimp only
          split
          · split <;> rfl
          · rfl

end

end CodeArena.Service
