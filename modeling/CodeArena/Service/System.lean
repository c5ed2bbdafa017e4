import CodeArena.Service.Model
import CodeArena.Lib.Machine

/-!
# Requests on their way

Requests for any of the routes, from anybody and with any header, of which any number are on
their way at the same time, together with the workers, that process submissions.  A step is one
call of one request, so that requests get in between the calls of each other.

`admitted_of_check` says what is known of a request that the middlewares of its route let
through.  That no route was forgotten is a check of the table of routes (`routes_checked`).
`Pending` is what a controller may await for such a request, `Effect` what one of its calls may
do, and `Moves` what the whole may do in one step; what holds over runs is derived from these.

## Honest boundary

Nobody but the API writes to the accounts.
-/

namespace CodeArena.Service

open CodeArena.Lib CodeArena.Lib.Utf
open CodeArena.Lib.OrderedMap (find?)
open CodeArena.Submissions (ObjectId Time JsError Status Verdict)
open CodeArena.Api (Role Fields Database Problem ProblemUpdate TestCase TestCaseUpdate
  SubmissionDoc bodyFields tagItems)
open CodeArena.Accounts (Auth User Users authenticate)

/-! ## The machine -/

/-- What is sent. -/
structure Request where
  authorization : Option JsString
  problemId : JsString
  testCaseId : JsString
  submissionId : JsString
  body : Option Json

/-- A request before its middlewares. -/
def Request.context (r : Request) : Context :=
  ⟨r.authorization, r.problemId, r.testCaseId, r.submissionId, r.body, none, none⟩

/-- What the queue and the workers make of a submission. -/
structure Progress where
  status : Status
  verdict : Verdict
  runtimeMs : Option Nat
  memoryKb : Option Nat
  testsPassed : Option Nat
  totalTests : Option Nat
  queuedAt : Option Time
  startedAt : Option Time
  completedAt : Option Time
  failedAt : Option Time
  errorMessage : Option String
  execution : Submissions.Execution
  updatedAt : Time

/-- A submission with the fields of its progress set. -/
def Progress.apply (p : Progress) (s : SubmissionDoc) : SubmissionDoc :=
  { s with
    status := p.status
    verdict := p.verdict
    runtimeMs := p.runtimeMs
    memoryKb := p.memoryKb
    testsPassed := p.testsPassed
    totalTests := p.totalTests
    queuedAt := p.queuedAt
    startedAt := p.startedAt
    completedAt := p.completedAt
    failedAt := p.failedAt
    errorMessage := p.errorMessage
    execution := p.execution
    updatedAt := p.updatedAt }

/-- Where a request stands. -/
inductive Phase where
  | idle
  /-- Its middlewares have let it through, and its controller makes its first call. -/
  | admitted (c : Controller) (ctx : Context)
  /-- Its controller awaits a call. -/
  | awaiting (c : Controller) (ctx : Context) (call : Call)

namespace Phase

/-- The controller that a request is in, and what it was called with. -/
def request : Phase → Option (Controller × Context)
  | .idle => none
  | .admitted c ctx | .awaiting c ctx _ => some (c, ctx)

/-- What a request awaits, after the first call of its controller. -/
def call : Phase → Option Call
  | .awaiting _ _ call => some call
  | _ => none

/-- Where a request stands after a call. -/
def after : Phase → Option Call → Phase
  | .admitted c ctx, some call | .awaiting c ctx _, some call => .awaiting c ctx call
  | _, _ => .idle

end Phase

/-- What is stored, and the requests. -/
structure State where
  world : World
  phase : Nat → Phase

/-- What happens next. -/
inductive Event where
  /-- A request comes for a route, and its middlewares run; `limited` is for the limiters. -/
  | receive (i : Nat) (route : Route) (r : Request) (limited : Bool) (now : Time)
  /-- The call that a request awaits is made, and the controller goes on to the next one. -/
  | perform (i : Nat) (env : Env)
  /-- The call that a request awaits fails.  The entry that was to be logged is lost; of any
  other call the error is answered. -/
  | fail (i : Nat)
  /-- A submission is processed. -/
  | progress (id : ObjectId) (p : Progress)

variable (pf : Platform)

/-- The middlewares of a route. -/
def Route.check (route : Route) (limited : Bool) (now : Time) (us : Users) (r : Request) :
    Except JsError Context :=
  Pipeline.run (route.chain.map (Middleware.run pf limited now us)) r.context

/-- A request stands somewhere else. -/
def State.put (s : State) (i : Nat) (p : Phase) : State :=
  { s with phase := Function.update s.phase i p }

/-- What the call leaves that a request makes next. -/
def Phase.run (env : Env) (w : World) : Phase → Option (Except JsError Outcome)
  | .idle => none
  | .admitted c ctx => some (c.run pf env ctx w)
  | .awaiting _ _ call => some (call.run pf env w)

/-- The database with a submission processed. -/
def processed (id : ObjectId) (p : Progress) (db : Database) : Database :=
  { db with submissions := db.submissions.map fun s ↦ if s.id = id then p.apply s else s }

/-- One step. -/
def step (s : State) : Event → Option State
  | .receive i route r limited now =>
    if route ∈ routes then
      match s.phase i with
      | .idle =>
        match route.check pf limited now s.world.users r with
        | .error _ => some s
        | .ok ctx => some (s.put i (.admitted route.controller ctx))
      | _ => none
    else none
  | .perform i env =>
    ((s.phase i).run pf env s.world).map fun
      | .error _ => s.put i .idle
      | .ok out => { s with world := out.world }.put i ((s.phase i).after out.next)
  | .fail i =>
    match s.phase i with
    | .idle => none
    | _ => some (s.put i .idle)
  | .progress id p => some { s with world := { s.world with db := processed id p s.world.db } }

/-- The service over what is stored. -/
def service (w : World) : Machine State Event := ⟨⟨w, fun _ ↦ .idle⟩, step pf⟩

/-! ## The table of routes -/

/-- The middlewares that leave `req.user` as it is. -/
def Middleware.keepsUser : Middleware → Bool
  | .authenticate | .optionalAuthenticate => false
  | _ => true

/-- Whether a chain authenticates its requests first, and does so once. -/
def authenticated : List Middleware → Bool
  | .authenticate :: rest => rest.all Middleware.keepsUser
  | _ => false

/-- Whether it lets administrators through only. -/
def guarded : List Middleware → Bool
  | .authenticate :: .authorize [.admin] :: rest => rest.all Middleware.keepsUser
  | _ => false

/-- The controllers that write to problems, test cases and the audit log. -/
def Controller.isWriter : Controller → Bool
  | .createProblem | .updateProblem | .deactivateProblem | .createTestCase | .updateTestCase
  | .deactivateTestCase => true
  | _ => false

/-- What the chain to a controller has to have in it. -/
def Controller.accepts (c : Controller) (chain : List Middleware) : Bool :=
  (!c.isWriter || guarded chain) &&
    (c ≠ .createSubmission || authenticated chain) &&
      (c ≠ .updateProblem || chain.getLast? = some .validateUpdateProblem) &&
        (c ≠ .updateTestCase || chain.getLast? = some .validateUpdateTestCase)

/-- **Every route has the chain that its controller needs.** -/
theorem routes_checked : routes.all (fun route ↦ route.controller.accepts route.chain) = true := by
  decide

/-! ## Who is let through -/

/-- The user of a request: an account that its header was verified for. -/
structure Known (us : Users) (ctx : Context) (u : User) : Prop where
  user : ctx.user = some u
  verified : ∃ now us', us'.docs <+: us.docs ∧
    authenticate pf.auth now ctx.authorization us' = .ok u

/-- What is known of a request for a controller that the middlewares let through. -/
structure Admitted (us : Users) (c : Controller) (ctx : Context) : Prop where
  /-- Who may write is an administrator. -/
  admin : c.isWriter = true → ∃ u, Known pf us ctx u ∧ u.role = .admin
  author : c = .createSubmission → ∃ u, Known pf us ctx u
  problem : c = .updateProblem → ∃ u : ProblemUpdate, u.IsIn (bodyFields ctx.body) ∧ u.Sanitized
  testCase : c = .updateTestCase → ∃ u : TestCaseUpdate, u.IsIn (bodyFields ctx.body)

section

variable {pf} {limited : Bool} {now : Time} {us us' : Users} {u : User} {ctx ctx' : Context}
  {c : Controller}

theorem Known.mem (h : Known pf us ctx u) : u ∈ us.docs ∧ u.isActive = true := by
  obtain ⟨now, us', hsub, hverified⟩ := h.verified
  obtain ⟨hmem, hactive⟩ := Accounts.mem_of_authenticate hverified
  exact ⟨hsub.subset hmem, hactive⟩

theorem Known.mono (h : Known pf us ctx u) (hsub : us.docs <+: us'.docs) : Known pf us' ctx u := by
  obtain ⟨now, before, hbefore, hverified⟩ := h.verified
  exact ⟨h.user, now, before, hbefore.trans hsub, hverified⟩

/-- Accounts that are added take nothing away. -/
theorem Admitted.mono (h : Admitted pf us c ctx) (hsub : us.docs <+: us'.docs) :
    Admitted pf us' c ctx where
  admin hc := by
    obtain ⟨u, hknown, hrole⟩ := h.admin hc
    exact ⟨u, hknown.mono hsub, hrole⟩
  author hc := by
    obtain ⟨u, hknown⟩ := h.author hc
    exact ⟨u, hknown.mono hsub⟩
  problem := h.problem
  testCase := h.testCase

theorem map_eq_ok {α β : Type} {f : α → β} {x : Except JsError α} {b : β} :
    x.map f = .ok b ↔ ∃ a, x = .ok a ∧ b = f a := by
  cases x with
  | error e => exact iff_of_false nofun nofun
  | ok a =>
      constructor
      · rintro ⟨⟩
        exact ⟨a, rfl, rfl⟩
      · rintro ⟨_, ⟨⟩, rfl⟩
        rfl

theorem validateBody_eq_ok {check : Option Json → Except JsError Fields}
    (h : validateBody check ctx = .ok ctx') :
    ∃ fields, check ctx.body = .ok fields ∧ ctx' = { ctx with body := some (.object fields) } :=
  map_eq_ok.mp h

theorem limiter_eq_ok {message : String} (h : limiter limited message ctx = .ok ctx') :
    ctx' = ctx := by
  unfold limiter at h
  split at h
  · cases h
  · cases h
    rfl

theorem validateId_eq_ok {id : JsString} {message : String}
    (h : validateId pf id message ctx = .ok ctx') : ctx' = ctx := by
  unfold validateId at h
  split at h
  · cases h
    rfl
  · cases h

theorem validateSubmission_eq_ok (h : validateSubmission pf ctx = .ok ctx') :
    ∃ body, ctx' = { ctx with submission := some body } := by
  obtain ⟨body, -, heq⟩ := map_eq_ok.mp h
  exact ⟨body, heq⟩

theorem authorize_eq_ok {allowedRoles : List Role} (h : authorize allowedRoles ctx = .ok ctx') :
    ctx' = ctx ∧ ∃ u, ctx.user = some u ∧ allowedRoles.any (· = u.role) = true := by
  unfold authorize at h
  split at h
  · cases h
  · rename_i u hu
    split at h
    · rename_i hallowed
      cases h
      exact ⟨rfl, u, hu, hallowed⟩
    · cases h

theorem authenticate_eq_ok (h : Middleware.authenticate.run pf limited now us ctx = .ok ctx') :
    ∃ u, authenticate pf.auth now ctx.authorization us = .ok u ∧
      ctx' = { ctx with user := some u } := by
  exact map_eq_ok.mp h

/-- **A middleware that is not to find the user** leaves the one that was found. -/
theorem Middleware.run_keepsUser {mw : Middleware} (hmw : mw.keepsUser = true)
    (h : mw.run pf limited now us ctx = .ok ctx') :
    ctx'.user = ctx.user ∧ ctx'.authorization = ctx.authorization := by
  have heq : ctx' = ctx → ctx'.user = ctx.user ∧ ctx'.authorization = ctx.authorization := by
    rintro rfl
    exact ⟨rfl, rfl⟩
  cases mw with
  | registerLimiter => exact heq (limiter_eq_ok h)
  | loginLimiter => exact heq (limiter_eq_ok h)
  | submissionLimiter => exact heq (limiter_eq_ok h)
  | authenticate => cases hmw
  | optionalAuthenticate => cases hmw
  | authorize allowedRoles => exact heq (authorize_eq_ok h).1
  | validateProblemId => exact heq (validateId_eq_ok h)
  | validateTestCaseId => exact heq (validateId_eq_ok h)
  | validateSubmissionId => exact heq (validateId_eq_ok h)
  | validateCreateSubmission =>
      obtain ⟨body, rfl⟩ := validateSubmission_eq_ok h
      exact ⟨rfl, rfl⟩
  | _ =>
      obtain ⟨fields, -, rfl⟩ := validateBody_eq_ok h
      exact ⟨rfl, rfl⟩

/-- The middlewares behind `authenticate` keep whom it knows. -/
theorem known_of_rest {rest : List Middleware} (hrest : rest.all Middleware.keepsUser = true)
    {u : User} (hknown : Known pf us ctx u)
    (h : Pipeline.run (rest.map (Middleware.run pf limited now us)) ctx = .ok ctx') :
    Known pf us ctx' u := by
  refine Pipeline.run_keeps (P := fun ctx ↦ Known pf us ctx u) (fun f hf s t hs hst ↦ ?_) hknown h
  obtain ⟨mw, hmw, rfl⟩ := List.mem_map.mp hf
  obtain ⟨huser, hheader⟩ := mw.run_keepsUser (List.all_eq_true.mp hrest mw hmw) hst
  refine ⟨huser.trans hs.user, ?_⟩
  rw [hheader]
  exact hs.verified

theorem known_of_authenticate (h : Middleware.authenticate.run pf limited now us ctx = .ok ctx') :
    ∃ u, Known pf us ctx' u := by
  obtain ⟨u, hverified, rfl⟩ := authenticate_eq_ok h
  exact ⟨u, rfl, now, us, List.prefix_refl _, hverified⟩

/-- **Behind a chain that authenticates** there is an account. -/
theorem of_authenticated {chain : List Middleware} (hchain : authenticated chain = true)
    (h : Pipeline.run (chain.map (Middleware.run pf limited now us)) ctx = .ok ctx') :
    ∃ u, Known pf us ctx' u := by
  unfold authenticated at hchain
  split at hchain
  · rename_i rest
    obtain ⟨m, hm, hrun⟩ := Pipeline.run_cons_eq_ok.mp h
    obtain ⟨u, hknown⟩ := known_of_authenticate hm
    exact ⟨u, known_of_rest hchain hknown hrun⟩
  · cases hchain

/-- **Behind a chain that is guarded** there is an administrator. -/
theorem of_guarded {chain : List Middleware} (hchain : guarded chain = true)
    (h : Pipeline.run (chain.map (Middleware.run pf limited now us)) ctx = .ok ctx') :
    ∃ u, Known pf us ctx' u ∧ u.role = .admin := by
  unfold guarded at hchain
  split at hchain
  · rename_i rest
    obtain ⟨m, hm, hrun⟩ := Pipeline.run_cons_eq_ok.mp h
    obtain ⟨m', hm', hrest⟩ := Pipeline.run_cons_eq_ok.mp hrun
    obtain ⟨u, hknown⟩ := known_of_authenticate hm
    obtain ⟨rfl, u', hu', hrole⟩ := authorize_eq_ok hm'
    obtain rfl : u' = u := Option.some.inj (hu'.symm.trans hknown.user)
    exact ⟨u', known_of_rest hchain hknown hrest, by simpa [eq_comm] using hrole⟩
  · cases hchain

/-- What the last middleware of a chain leaves. -/
theorem of_getLast {chain : List Middleware} {mw : Middleware} (hchain : chain.getLast? = some mw)
    (h : Pipeline.run (chain.map (Middleware.run pf limited now us)) ctx = .ok ctx') :
    ∃ m, mw.run pf limited now us m = .ok ctx' := by
  obtain ⟨front, rfl⟩ := List.getLast?_eq_some_iff.mp hchain
  rw [List.map_append, List.map_singleton] at h
  exact Pipeline.run_establishes (P := fun t ↦ ∃ m, mw.run pf limited now us m = .ok t)
    (fun s t hst ↦ ⟨s, hst⟩) (fun _ hg ↦ absurd hg List.not_mem_nil) h

/-- **What is known of a request that its route lets through.** -/
theorem admitted_of_check {route : Route} (hroute : route ∈ routes) {r : Request}
    (h : route.check pf limited now us r = .ok ctx) : Admitted pf us route.controller ctx := by
  have hchecked := List.all_eq_true.mp routes_checked route hroute
  simp only [Controller.accepts, Bool.and_eq_true, Bool.or_eq_true, Bool.not_eq_true',
    decide_eq_true_eq] at hchecked
  obtain ⟨⟨⟨hwriter, hauthor⟩, hproblem⟩, htestCase⟩ := hchecked
  constructor
  case admin =>
    intro hc
    exact of_guarded (hwriter.resolve_left (by simp [hc])) h
  case author =>
    intro hc
    exact of_authenticated (hauthor.resolve_left (not_not_intro hc)) h
  case problem =>
    intro hc
    obtain ⟨m, hm⟩ := of_getLast (hproblem.resolve_left (not_not_intro hc)) h
    obtain ⟨fields, hvalid, rfl⟩ := validateBody_eq_ok hm
    obtain ⟨u, hin, hsanitized, -, -⟩ := Api.validateUpdateProblem_ok hvalid
    exact ⟨u, hin, hsanitized⟩
  case testCase =>
    intro hc
    obtain ⟨m, hm⟩ := of_getLast (htestCase.resolve_left (not_not_intro hc)) h
    obtain ⟨fields, hvalid, rfl⟩ := validateBody_eq_ok hm
    obtain ⟨u, -, hin, -⟩ := Api.validateUpdateTestCase_ok hvalid
    exact ⟨u, hin⟩

end

/-! ## What a call does -/

/-- What an update or a deactivation makes of the problem that it has loaded, and its entry. -/
inductive ProblemEdit (userId : ObjectId) (p : Problem) : Problem → AuditEntry → Prop
  | updated {u : ProblemUpdate} {fields : Fields} (now : Time) : u.IsIn fields → u.Sanitized →
      ProblemEdit userId p (p.update now (u.apply p.toProblemData))
        ⟨userId, .problemUpdated, .problem, p.id, changedFields Api.problemFields fields⟩
  | deleted (now : Time) : p.isActive = true →
      ProblemEdit userId p { p with isActive := false, updatedAt := now }
        ⟨userId, .problemDeleted, .problem, p.id, [(js "title", .string p.title)]⟩

/-- The same of a test case. -/
inductive TestCaseEdit (auth : Auth) (userId : ObjectId) (t : TestCase) :
    TestCase → AuditEntry → Prop
  | updated {u : TestCaseUpdate} {fields : Fields} (now : Time) : u.IsIn fields →
      TestCaseEdit auth userId t (t.update now (u.apply t.toTestCaseData))
        ⟨userId, .testCaseUpdated, .testCase, t.id, changedFields Api.testCaseFields fields⟩
  | deleted (now : Time) : t.isActive = true →
      TestCaseEdit auth userId t { t with isActive := false, updatedAt := now }
        ⟨userId, .testCaseDeleted, .testCase, t.id,
          [(js "problemId", .string (auth.idText t.problemId))]⟩

/-- The entry that a call adds to the log. -/
def Call.entry : Call → Option AuditEntry
  | .logAuditAction entry => some entry
  | _ => none

/-- The document that a call is to save is as it is stored. -/
def Call.Copied (db : Database) : Call → Prop
  | .saveProblem loaded _ _ => db.findProblem loaded.id = some loaded
  | .saveTestCase loaded _ _ => db.findTestCase loaded.id = some loaded
  | _ => True

/-- What a controller may await for a request. -/
inductive Pending (c : Controller) (ctx : Context) : Call → Prop
  | hashPassword {d : Accounts.UserData} : Pending c ctx (.hashPassword d)
  | createUser {d : Accounts.UserData} {passwordHash : JsString} :
      Pending c ctx (.createUser d passwordHash)
  | saveProblem {u : User} {p p' : Problem} {entry : AuditEntry} : c.isWriter = true →
      ctx.user = some u → ProblemEdit u.id p p' entry → Pending c ctx (.saveProblem p p' entry)
  | createTestCase {u : User} {problemId : JsString} {id : ObjectId} {data : Fields} :
      c.isWriter = true → ctx.user = some u → pf.auth.castId (.string problemId) = some id →
      Pending c ctx (.createTestCase problemId id data u)
  | saveTestCase {u : User} {t t' : TestCase} {entry : AuditEntry} : c.isWriter = true →
      ctx.user = some u → TestCaseEdit pf.auth u.id t t' entry →
      Pending c ctx (.saveTestCase t t' entry)
  | countTestCases {u : User} {problemId : ObjectId} {body : Submissions.Body} :
      c = .createSubmission → ctx.user = some u → Pending c ctx (.countTestCases problemId body u)
  | createSubmission {u : User} {problemId : ObjectId} {body : Submissions.Body} :
      c = .createSubmission → ctx.user = some u → Pending c ctx (.createSubmission problemId body u)
  | logAuditAction {u : User} {entry : AuditEntry} : c.isWriter = true → ctx.user = some u →
      entry.userId = u.id → Pending c ctx (.logAuditAction entry)

/-- The change to the database that an entry tells of, by the call that makes it; it is `none`
for the first call of a controller. -/
inductive Written (auth : Auth) (db : Database) : Option Call → AuditEntry → Database → Prop
  | problemCreated {p : Problem} (hid : p.id ∉ db.problems.map Problem.id) : p.isActive = true →
      Written auth db none
        ⟨p.authorId, .problemCreated, .problem, p.id, [(js "title", .string p.title),
          (js "difficulty", .string p.difficulty.name), (js "tags", tagItems p.tags)]⟩
        (db.addProblem p hid)
  | problemSaved {userId : ObjectId} {p loaded doc : Problem} {entry : AuditEntry} :
      p ∈ db.problems → p.id = loaded.id → ProblemEdit userId loaded doc entry →
      Written auth db (some (.saveProblem loaded doc entry)) entry
        (db.saveProblem (saveOver loaded doc p))
  | testCaseCreated {u : User} {t : TestCase} {problemId : JsString} {id : ObjectId} {data : Fields}
      (hid : t.id ∉ db.testCases.map TestCase.id) : t.isActive = true → t.problemId = id →
      auth.castId (.string problemId) = some id →
      Written auth db (some (.createTestCase problemId id data u))
        ⟨u.id, .testCaseCreated, .testCase, t.id, [(js "problemId", .string problemId),
          (js "visibility", .string t.visibility.name), (js "order", .number t.order)]⟩
        (db.addTestCase t hid)
  | testCaseSaved {userId : ObjectId} {t loaded doc : TestCase} {entry : AuditEntry} :
      t ∈ db.testCases → t.id = loaded.id → TestCaseEdit auth userId loaded doc entry →
      Written auth db (some (.saveTestCase loaded doc entry)) entry
        (db.saveTestCase (saveCaseOver loaded doc t))

/-- What a call may leave that adds no entry to the log. -/
inductive Effect (env : Env) (c : Controller) (ctx : Context) (w : World) :
    Option Call → Outcome → Prop
  /-- It has changed nothing.  What it has loaded is what is stored now. -/
  | goesOn {call next : Option Call} :
      (∀ k, next = some k → Pending pf c ctx k ∧ k.entry = none ∧ k.Copied w.db) →
      Effect env c ctx w call ⟨w, next⟩
  /-- An account that is no administrator's. -/
  | account {call : Option Call} {u : User} {users : Users} :
      users.docs = w.users.docs ++ [u] → u.role = .user → u.isActive = true →
      Effect env c ctx w call ⟨{ w with users }, none⟩
  /-- Something that is logged next. -/
  | written {call : Option Call} {u : User} {entry : AuditEntry} {db : Database} :
      c.isWriter = true → ctx.user = some u → entry.userId = u.id →
      Written pf.auth w.db call entry db →
      Effect env c ctx w call ⟨{ w with db }, some (.logAuditAction entry)⟩
  | submission {call : Option Call} {u : User} {problemId : ObjectId} {body : Submissions.Body} :
      c = .createSubmission → ctx.user = some u →
      Effect env c ctx w call ⟨{ w with db := { w.db with
        submissions := w.db.submissions ++ [newSubmission env body u.id problemId] } }, none⟩

section

variable {pf} {env : Env} {us : Users} {ctx : Context} {c : Controller} {w : World} {out : Outcome}
  {fields : Fields} {user : User} {id : ObjectId} {call : Option Call}

theorem forUser_eq_ok {user : Option User} {f : User → Except JsError Outcome} :
    forUser user f = .ok out ↔ ∃ u, user = some u ∧ f u = .ok out := by
  cases user with
  | none => exact iff_of_false nofun nofun
  | some u =>
      constructor
      · exact fun h ↦ ⟨u, rfl, h⟩
      · rintro ⟨_, ⟨⟩, h⟩
        exact h

theorem castId_eq_ok {text : JsString} :
    castId pf text = .ok id ↔ pf.auth.castId (.string text) = some id := by
  unfold castId
  split
  · rename_i hnone
    rw [hnone]
    exact iff_of_false nofun nofun
  · rename_i id' hsome
    rw [hsome]
    constructor
    · rintro ⟨⟩
      rfl
    · rintro ⟨⟩
      rfl

theorem forId_eq_ok {text : JsString} {f : ObjectId → Except JsError Outcome}
    (h : forId pf text f = .ok out) : ∃ id, f id = .ok out := by
  unfold forId at h
  split at h
  · cases h
  · rename_i id hid
    exact ⟨id, h⟩

theorem createProblem_eq_ok {now : Time} {authorId : ObjectId} {db db' : Database}
    {created : Api.ProblemDetails}
    (h : pf.mongoose.createProblem now id fields authorId db = .ok (created, db')) :
    ∃ hid, db' = db.addProblem created.problem hid ∧ created.problem.isActive = true ∧
      created.problem.authorId = authorId := by
  unfold Api.Mongoose.createProblem at h
  split at h
  · cases h
  · unfold Api.createProblem at h
    split at h
    · split at h
      · rename_i hid
        cases h
        exact ⟨hid, rfl, rfl, rfl⟩
      · cases h
    · cases h

theorem create_eq_ok {auth : Auth} {us users : Users} {now : Time} {d : Accounts.UserData}
    {passwordHash : JsString} {u : User}
    (h : Accounts.createUser auth us now id d passwordHash = .ok (u, users)) :
    users.docs = us.docs ++ [u] ∧ u.role = .user ∧ u.isActive = true := by
  simp only [Accounts.createUser, Users.create] at h
  split at h
  · split at h
    · split at h
      · cases h
        exact ⟨rfl, rfl, rfl⟩
      · cases h
    · cases h
  · cases h

theorem Effect.nothing : Effect pf env c ctx w call ⟨w, none⟩ := by
  refine .goesOn fun k hk ↦ ?_
  cases hk

/-- A call that reads leaves the next one. -/
theorem Effect.next {k : Call} (hk : Pending pf c ctx k) (hentry : k.entry = none)
    (hcopied : k.Copied w.db) : Effect pf env c ctx w call ⟨w, some k⟩ := by
  refine .goesOn fun k' heq ↦ ?_
  cases heq
  exact ⟨hk, hentry, hcopied⟩

/-! One lemma for each controller, about its first call. -/

theorem register_effect (h : register pf fields w = .ok out) :
    Effect pf env c ctx w call out := by
  unfold register at h
  split at h
  · cases h
  · split at h
    · cases h
    · cases h
      exact .next .hashPassword rfl trivial

theorem createProblem_effect (hc : c.isWriter = true) (huser : ctx.user = some user)
    (h : createProblem pf env fields user.id w = .ok out) : Effect pf env c ctx w none out := by
  unfold createProblem at h
  split at h
  · cases h
  · rename_i created db hcreated
    cases h
    obtain ⟨hid, rfl, hactive, hauthor⟩ := createProblem_eq_ok hcreated
    rw [← hauthor]
    exact .written hc huser hauthor (.problemCreated hid hactive)

theorem updateProblem_effect (hc : c.isWriter = true) (huser : ctx.user = some user)
    {u : ProblemUpdate} (hin : u.IsIn fields) (hsanitized : u.Sanitized)
    (h : updateProblem pf env id fields user w = .ok out) : Effect pf env c ctx w call out := by
  unfold updateProblem at h
  split at h
  · cases h
  · rename_i p hfound
    rw [Api.Mongoose.problemUpdate_eq hin] at h
    dsimp only at h
    split at h
    · cases h
      have hcopied : w.db.findProblem p.id = some p := by
        rwa [(Database.findProblem_eq_some.mp hfound).2]
      exact .next (.saveProblem hc huser (.updated env.now hin hsanitized)) rfl hcopied
    · cases h

theorem deactivateProblem_effect (hc : c.isWriter = true) (huser : ctx.user = some user)
    (h : deactivateProblem env id user w = .ok out) : Effect pf env c ctx w call out := by
  unfold deactivateProblem at h
  split at h
  · cases h
  · rename_i p hfound
    split at h
    · rename_i hactive
      cases h
      have hcopied : w.db.findProblem p.id = some p := by
        rwa [(Database.findProblem_eq_some.mp hfound).2]
      exact .next (.saveProblem hc huser (.deleted env.now hactive)) rfl hcopied
    · cases h
      exact .nothing

theorem createTestCase_effect (hc : c.isWriter = true) (huser : ctx.user = some user)
    {problemId : JsString} (h : createTestCase pf problemId fields user w = .ok out) :
    Effect pf env c ctx w call out := by
  unfold createTestCase at h
  split at h
  · cases h
  · rename_i id hcast
    split at h
    · cases h
    · cases h
      exact .next (.createTestCase hc huser (castId_eq_ok.mp hcast)) rfl trivial

theorem updateTestCase_effect (hc : c.isWriter = true) (huser : ctx.user = some user)
    {u : TestCaseUpdate} (hin : u.IsIn fields)
    (h : updateTestCase pf env id fields user w = .ok out) : Effect pf env c ctx w call out := by
  unfold updateTestCase at h
  split at h
  · cases h
  · rename_i t hfound
    rw [Api.Mongoose.testCaseUpdate_eq hin] at h
    dsimp only at h
    split at h
    · cases h
      have hcopied : w.db.findTestCase t.id = some t := by
        rwa [((Database.find?_id_eq_some w.db.testCases_nodup).mp hfound).2]
      exact .next (.saveTestCase hc huser (.updated env.now hin)) rfl hcopied
    · cases h

theorem deactivateTestCase_effect (hc : c.isWriter = true) (huser : ctx.user = some user)
    (h : deactivateTestCase pf env id user w = .ok out) : Effect pf env c ctx w call out := by
  unfold deactivateTestCase at h
  split at h
  · cases h
  · rename_i t hfound
    split at h
    · rename_i hactive
      cases h
      have hcopied : w.db.findTestCase t.id = some t := by
        rwa [((Database.find?_id_eq_some w.db.testCases_nodup).mp hfound).2]
      exact .next (.saveTestCase hc huser (.deleted env.now hactive)) rfl hcopied
    · cases h
      exact .nothing

theorem createSubmission_effect (hc : c = .createSubmission) (huser : ctx.user = some user)
    {problemId : Json} {body : Submissions.Body}
    (h : createSubmission pf problemId body user w = .ok out) :
    Effect pf env c ctx w call out := by
  unfold createSubmission at h
  split at h
  · cases h
  · split at h
    · cases h
    · split at h
      · cases h
        exact .next (.countTestCases hc huser) rfl trivial
      · cases h

/-- **What the first call of a controller does** with a request that was let through. -/
theorem effect_of_run (hadmitted : Admitted pf us c ctx) (h : c.run pf env ctx w = .ok out) :
    Effect pf env c ctx w none out := by
  cases c with
  | register => exact register_effect h
  | createProblem =>
      obtain ⟨user, huser, h⟩ := forUser_eq_ok.mp h
      exact createProblem_effect rfl huser h
  | updateProblem =>
      obtain ⟨user, huser, h⟩ := forUser_eq_ok.mp h
      obtain ⟨id, h⟩ := forId_eq_ok h
      obtain ⟨u, hin, hsanitized⟩ := hadmitted.problem rfl
      exact updateProblem_effect rfl huser hin hsanitized h
  | deactivateProblem =>
      obtain ⟨user, huser, h⟩ := forUser_eq_ok.mp h
      obtain ⟨id, h⟩ := forId_eq_ok h
      exact deactivateProblem_effect rfl huser h
  | createTestCase =>
      obtain ⟨user, huser, h⟩ := forUser_eq_ok.mp h
      exact createTestCase_effect rfl huser h
  | updateTestCase =>
      obtain ⟨user, huser, h⟩ := forUser_eq_ok.mp h
      obtain ⟨id, h⟩ := forId_eq_ok h
      obtain ⟨u, hin⟩ := hadmitted.testCase rfl
      exact updateTestCase_effect rfl huser hin h
  | deactivateTestCase =>
      obtain ⟨user, huser, h⟩ := forUser_eq_ok.mp h
      obtain ⟨id, h⟩ := forId_eq_ok h
      exact deactivateTestCase_effect rfl huser h
  | createSubmission =>
      obtain ⟨user, huser, h⟩ := forUser_eq_ok.mp h
      split at h
      · cases h
      · exact createSubmission_effect rfl huser h
  | _ =>
      cases h
      exact .nothing

/-! The calls after the first. -/

theorem ProblemEdit.userId {p p' : Problem} {entry : AuditEntry} (h : ProblemEdit id p p' entry) :
    entry.userId = id := by
  cases h <;> rfl

theorem TestCaseEdit.userId {auth : Auth} {t t' : TestCase} {entry : AuditEntry}
    (h : TestCaseEdit auth id t t' entry) : entry.userId = id := by
  cases h <;> rfl

/-- **What a later call does**, but for one that adds an entry to the log. -/
theorem effect_of_call {k : Call} (hk : Pending pf c ctx k) (hentry : k.entry = none)
    (h : k.run pf env w = .ok out) : Effect pf env c ctx w (some k) out := by
  cases hk with
  | hashPassword =>
      cases h
      exact .next .createUser rfl trivial
  | createUser =>
      simp only [Call.run] at h
      split at h
      · cases h
      · rename_i u users hcreated
        cases h
        obtain ⟨hdocs, hrole, hactive⟩ := create_eq_ok hcreated
        exact .account hdocs hrole hactive
  | saveProblem hc huser hedit =>
      simp only [Call.run] at h
      split at h
      · cases h
      · rename_i stored hfound
        cases h
        obtain ⟨hstored, hid⟩ := Database.findProblem_eq_some.mp hfound
        exact .written hc huser hedit.userId (.problemSaved hstored hid hedit)
  | createTestCase hc huser hcast =>
      simp only [Call.run, insertTestCase] at h
      split at h
      · cases h
      · rename_i d hd
        split at h
        · split at h
          · rename_i hid
            cases h
            exact .written hc huser rfl (.testCaseCreated
              (t := ⟨d, env.id, _, true, env.now, env.now⟩) hid rfl rfl hcast)
          · cases h
        · cases h
  | saveTestCase hc huser hedit =>
      simp only [Call.run] at h
      split at h
      · cases h
      · rename_i stored hfound
        cases h
        obtain ⟨hstored, hid⟩ := (Database.find?_id_eq_some w.db.testCases_nodup).mp hfound
        exact .written hc huser hedit.userId (.testCaseSaved hstored hid hedit)
  | countTestCases hc huser =>
      simp only [Call.run] at h
      split at h
      · cases h
        exact .next (.createSubmission hc huser) rfl trivial
      · cases h
  | createSubmission hc huser =>
      simp only [Call.run] at h
      split at h
      · cases h
        exact .submission hc huser
      · cases h
  | logAuditAction => cases hentry

/-- What a call does to the accounts. -/
theorem Effect.users (h : Effect pf env c ctx w call out) :
    ∃ new, out.world.users.docs = w.users.docs ++ new ∧ ∀ u ∈ new, u.role = .user := by
  cases h with
  | account hdocs hrole _ => exact ⟨_, hdocs, fun u hu ↦ List.mem_singleton.mp hu ▸ hrole⟩
  | _ => exact ⟨[], (List.append_nil _).symm, nofun⟩

/-- It adds nothing to the log. -/
theorem Effect.log (h : Effect pf env c ctx w call out) : out.world.log = w.log := by
  cases h <;> rfl

/-- What a controller awaits next, it may await. -/
theorem Effect.pending (h : Effect pf env c ctx w call out) {k : Call} (hk : out.next = some k) :
    Pending pf c ctx k := by
  cases h with
  | goesOn hnext => exact (hnext k hk).1
  | written hc huser hid _ =>
      cases hk
      exact .logAuditAction hc huser hid
  | account => cases hk
  | submission => cases hk

end

/-! ## What a step does -/

/-- The problems and the test cases are the same. -/
def SameContent (w w' : World) : Prop :=
  w'.db.problems = w.db.problems ∧ w'.db.testCases = w.db.testCases

/-- The ways in which the service moves. -/
inductive Moves (s : State) : Event → State → Prop
  | refused {i : Nat} {route : Route} {r : Request} {limited : Bool} {now : Time} :
      Moves s (.receive i route r limited now) s
  | admitted {i : Nat} {route : Route} {r : Request} {limited : Bool} {now : Time}
      {ctx : Context} : s.phase i = .idle → Admitted pf s.world.users route.controller ctx →
      Moves s (.receive i route r limited now) (s.put i (.admitted route.controller ctx))
  | failed {i : Nat} : s.phase i ≠ .idle → Moves s (.fail i) (s.put i .idle)
  | threw {i : Nat} {env : Env} {e : JsError} :
      (s.phase i).run pf env s.world = some (.error e) →
      (∀ k, (s.phase i).call = some k → k.entry = none) →
      Moves s (.perform i env) (s.put i .idle)
  | performed {i : Nat} {env : Env} {c : Controller} {ctx : Context} {out : Outcome} :
      (s.phase i).request = some (c, ctx) → Admitted pf s.world.users c ctx →
      (∀ k, (s.phase i).call = some k → k.entry = none) →
      (s.phase i).run pf env s.world = some (.ok out) →
      Effect pf env c ctx s.world (s.phase i).call out →
      Moves s (.perform i env) ({ s with world := out.world }.put i ((s.phase i).after out.next))
  | logged {i : Nat} {env : Env} {c : Controller} {ctx : Context} {entry : AuditEntry} :
      s.phase i = .awaiting c ctx (.logAuditAction entry) →
      Moves s (.perform i env)
        ({ s with world := logAuditAction env.now entry s.world }.put i .idle)
  | progressed {id : ObjectId} {p : Progress} :
      Moves s (.progress id p) { s with world := { s.world with db := processed id p s.world.db } }

section

variable {pf} {s t : State} {a : Event} {i j : Nat} {p : Phase}

/-- What is known of the requests that are in their controllers. -/
structure Sound (pf : Platform) (s : State) : Prop where
  admitted : ∀ i c ctx, (s.phase i).request = some (c, ctx) → Admitted pf s.world.users c ctx
  pending : ∀ i c ctx k, s.phase i = .awaiting c ctx k → Pending pf c ctx k

theorem phase_put (s : State) (i : Nat) (p : Phase) (j : Nat) :
    (s.put i p).phase j = if j = i then p else s.phase j := by
  show Function.update s.phase i p j = _
  rw [Function.update_apply]

theorem Phase.eq_awaiting {p : Phase} {k : Call} (h : p.call = some k) :
    ∃ c ctx, p = .awaiting c ctx k := by
  cases p with
  | awaiting c ctx call =>
      cases h
      exact ⟨c, ctx, rfl⟩
  | _ => cases h

theorem Phase.after_some {p : Phase} {c : Controller} {ctx : Context}
    (hp : p.request = some (c, ctx)) (k : Call) : p.after (some k) = .awaiting c ctx k := by
  cases p with
  | idle => cases hp
  | admitted => cases hp; rfl
  | awaiting => cases hp; rfl

@[simp] theorem Phase.after_none (p : Phase) : p.after none = .idle := by
  cases p <;> rfl

/-- A request stands after a call where nothing has to be known, or it awaits the next one. -/
theorem Phase.after_eq {p : Phase} {c : Controller} {ctx : Context}
    (hp : p.request = some (c, ctx)) (next : Option Call) :
    (p.after next).call = next ∧ ((p.after next).request = none ∨
      (p.after next).request = some (c, ctx)) := by
  cases next with
  | none =>
      rw [Phase.after_none]
      exact ⟨rfl, .inl rfl⟩
  | some k =>
      rw [Phase.after_some hp]
      exact ⟨rfl, .inr rfl⟩

/-- What the call of a request does. -/
theorem moves_of_perform {env : Env} (hs : Sound pf s)
    (hstep : step pf s (.perform i env) = some t) : Moves pf s (.perform i env) t := by
  obtain ⟨r, hrun, rfl⟩ := Option.map_eq_some_iff.mp hstep
  cases hphase : s.phase i with
  | idle =>
      rw [hphase] at hrun
      cases hrun
  | admitted c ctx =>
      have hnone : ∀ k, (s.phase i).call = some k → k.entry = none := by
        rw [hphase]
        intro k hk
        cases hk
      have hrequest : (s.phase i).request = some (c, ctx) := by rw [hphase]; rfl
      have hadmitted := hs.admitted i c ctx hrequest
      cases r with
      | error e => exact .threw hrun hnone
      | ok out =>
          rw [← hphase]
          refine .performed hrequest hadmitted hnone hrun ?_
          rw [hphase] at hrun ⊢
          exact effect_of_run hadmitted (Option.some.inj hrun)
  | awaiting c ctx k =>
      have hrequest : (s.phase i).request = some (c, ctx) := by rw [hphase]; rfl
      have hadmitted := hs.admitted i c ctx hrequest
      have hpending := hs.pending i c ctx k hphase
      by_cases hk : k.entry = none
      · have hnone : ∀ k', (s.phase i).call = some k' → k'.entry = none := by
          rw [hphase]
          rintro _ ⟨⟩
          exact hk
        cases r with
        | error e => exact .threw hrun hnone
        | ok out =>
            rw [← hphase]
            refine .performed hrequest hadmitted hnone hrun ?_
            rw [hphase] at hrun ⊢
            exact effect_of_call hpending hk (Option.some.inj hrun)
      · rw [hphase] at hrun
        cases k with
        | logAuditAction entry =>
            cases hrun
            exact .logged hphase
        | _ => exact absurd rfl hk

/-- **Inversion.**  What a step does. -/
theorem moves_of_step (hs : Sound pf s) (hstep : step pf s a = some t) : Moves pf s a t := by
  cases a with
  | receive i route r limited now =>
      simp only [step] at hstep
      split at hstep
      · rename_i hroute
        split at hstep
        · rename_i hidle
          split at hstep
          · cases hstep
            exact .refused
          · rename_i ctx hcheck
            cases hstep
            exact .admitted hidle (admitted_of_check hroute hcheck)
        · cases hstep
      · cases hstep
  | perform i env => exact moves_of_perform hs hstep
  | fail i =>
      simp only [step] at hstep
      split at hstep
      · cases hstep
      · rename_i hne
        cases hstep
        exact .failed hne
  | progress id p =>
      cases hstep
      exact .progressed

/-- A request stands where nothing has to be known, or where it is. -/
theorem Sound.put (hs : Sound pf s)
    (hrequest : ∀ c ctx, p.request = some (c, ctx) → Admitted pf s.world.users c ctx)
    (hcall : ∀ c ctx k, p = .awaiting c ctx k → Pending pf c ctx k) : Sound pf (s.put i p) := by
  constructor
  case admitted =>
    intro j c ctx hj
    rw [phase_put] at hj
    split at hj
    · exact hrequest c ctx hj
    · exact hs.admitted j c ctx hj
  case pending =>
    intro j c ctx k hj
    rw [phase_put] at hj
    split at hj
    · exact hcall c ctx k hj
    · exact hs.pending j c ctx k hj

theorem Sound.put_idle (hs : Sound pf s) : Sound pf (s.put i .idle) := by
  refine hs.put (fun c ctx heq ↦ ?_) fun c ctx k heq ↦ ?_
  · cases heq
  · cases heq

/-- Accounts are added, and what was known of the requests is known still. -/
theorem Sound.grow (hs : Sound pf s) {w : World} (hdocs : s.world.users.docs <+: w.users.docs) :
    Sound pf { s with world := w } :=
  ⟨fun i c ctx hi ↦ (hs.admitted i c ctx hi).mono hdocs, hs.pending⟩

theorem Moves.sound (hmove : Moves pf s a t) (hs : Sound pf s) : Sound pf t := by
  cases hmove with
  | refused => exact hs
  | admitted _ hadmitted =>
      refine hs.put (fun c ctx heq ↦ ?_) fun c ctx k heq ↦ ?_
      · cases heq
        exact hadmitted
      · cases heq
  | failed _ => exact hs.put_idle
  | threw _ _ => exact hs.put_idle
  | @performed i env c ctx out hrequest hadmitted _ _ heffect =>
      obtain ⟨new, hdocs, -⟩ := heffect.users
      have hgrow : Sound pf { s with world := out.world } := hs.grow ⟨new, hdocs.symm⟩
      cases hnext : out.next with
      | none =>
          rw [Phase.after_none]
          exact hgrow.put_idle
      | some k =>
          rw [Phase.after_some hrequest]
          refine hgrow.put (fun c' ctx' heq ↦ ?_) fun c' ctx' k' heq ↦ ?_
          · cases heq
            exact hadmitted.mono ⟨new, hdocs.symm⟩
          · cases heq
            exact heffect.pending hnext
  | logged _ =>
      refine Sound.put_idle (hs.grow ?_)
      exact List.prefix_refl _
  | progressed => exact ⟨hs.admitted, hs.pending⟩

theorem sound_init (w : World) : Sound pf (service pf w).init := by
  constructor
  · intro i c ctx heq
    cases heq
  · intro i c ctx k heq
    cases heq

theorem sound_of_run {ok : State → Event → Prop} {w : World} {es : List Event}
    (hrun : (service pf w).Run ok (service pf w).init es s) : Sound pf s :=
  hrun.invariant (sound_init w) fun _ _ _ hs _ hstep ↦ (moves_of_step hs hstep).sound hs

end

/-! ## A run for examples -/

/-- Parameters for examples. -/
def Platform.sample : Platform := ⟨.sample, .sample, fun id ↦ (Auth.sampleCast id).isSome⟩

/-- One account, of an administrator, and nothing else. -/
def administered : World where
  users := {
    docs := [⟨1, js "Ann", js "ann@code.org", [0x24], .admin, true, 0, 0⟩]
    ids_nodup := List.nodup_singleton _
    emails_nodup := List.nodup_singleton _ }
  db := .init []
  log := []

/-- A request of the administrator. -/
def asked (problemId testCaseId : JsString) (body : Json) : Request :=
  ⟨Accounts.bearer (Auth.sample.sign (Auth.sample.payload 1 .admin) 0), problemId, testCaseId, [],
    some body⟩

/-- `POST /problems`. -/
def postProblem : Route :=
  ⟨.post, "/problems", [.authenticate, .authorize [.admin], .validateCreateProblem],
    .createProblem⟩

/-- `PATCH /problems/:problemId`. -/
def patchProblem : Route :=
  ⟨.patch, "/problems/:problemId",
    [.authenticate, .authorize [.admin], .validateProblemId, .validateUpdateProblem],
    .updateProblem⟩

/-- `POST /problems/:problemId/test-cases`. -/
def postTestCase : Route :=
  ⟨.post, "/problems/:problemId/test-cases",
    [.authenticate, .authorize [.admin], .validateProblemId, .validateCreateTestCase],
    .createTestCase⟩

/-- `POST /submissions`. -/
def postSubmission : Route :=
  ⟨.post, "/submissions", [.authenticate, .submissionLimiter, .validateCreateSubmission],
    .createSubmission⟩

/-- Two problems are created at once, one of them gets another title and a test case, and
something is submitted for it. -/
def administration : List Event :=
  let id := Auth.sample.idText 5
  [.receive 0 postProblem (asked [] [] (Api.Mongoose.problemBody [0x31] [0x32])) false 10,
    .receive 1 postProblem (asked [] [] (Api.Mongoose.problemBody [0x33] [0x34])) false 11,
    .perform 0 ⟨20, 5, 0⟩, .perform 1 ⟨21, 6, 0⟩, .perform 1 ⟨22, 0, 0⟩, .perform 0 ⟨23, 0, 0⟩,
    .receive 2 patchProblem (asked id [] (.object [(js "title", .string (js "Add"))])) false 30,
    .perform 2 ⟨31, 0, 0⟩, .perform 2 ⟨32, 0, 0⟩, .perform 2 ⟨33, 0, 0⟩,
    .receive 3 postTestCase (asked id [] (Api.Mongoose.testCaseBody [0x31] [0x32])) false 40,
    .perform 3 ⟨41, 0, 0⟩, .perform 3 ⟨42, 7, 0⟩, .perform 3 ⟨43, 0, 0⟩,
    .receive 4 postSubmission (asked [] [] (.object [(js "problemId", .string id),
      (js "language", .string (js "PYTHON")), (js "sourceCode", .string (js "print(2)"))]))
      false 50,
    .perform 4 ⟨51, 0, 0⟩, .perform 4 ⟨52, 0, 0⟩, .perform 4 ⟨53, 8, 0⟩]

theorem exists_administration : ∃ s, (service .sample administered).Run Machine.anyStep
    (service .sample administered).init administration s ∧
      decide (s.world.db.problems.map (fun p ↦ p.title) = [js "Add", js "Sum"] ∧
        s.world.db.testCases.length = 1 ∧ s.world.db.submissions.length = 1 ∧
          s.world.log.map (fun entry ↦ entry.targetId) = [6, 5, 5, 7]) = true :=
  Machine.exists_run_of_exec _ _ _ _ _ (by decide +kernel)

end CodeArena.Service
