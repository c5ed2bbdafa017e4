import CodeArena.Lib.Machine
import CodeArena.Lib.Upsert
import CodeArena.Service.Model

/-!
# The seed script

`seed.js` puts two accounts and a set of problems with their test cases into the database, and
may be run again at any time: what is there already is set to what the script says.  A call that
fails ends the process, which leaves what it has written so far.

`seeding` is the process with its calls in order, and every step is one of them; `stop` is a call
that fails, or the end of the process for any other reason.  A run is any number of processes,
one after another.

## Honest boundary

While a process runs nobody else writes, so a document that is read and saved is one step, and the
errors of a read are those of the step.  `dotenv`, the connection and the summary that is printed
at the end are left out.
-/

namespace CodeArena.Seeds

open CodeArena.Lib CodeArena.Lib.Utf
open CodeArena.Engine (trim)
open CodeArena.Submissions (ObjectId Time JsError mongooseValidationError)
open CodeArena.Api (Role Database Problem ProblemData TestCase TestCaseData duplicateKeyError)
open CodeArena.Accounts (Auth User Users)
open CodeArena.Service (World Env)

/-! ## What is seeded -/

/-- A member of `SEED_USERS`. -/
structure SeedUser where
  name : JsString
  email : JsString
  password : JsString
  role : Role
  isActive : Bool
deriving DecidableEq, Repr

/-- A member of `SEED_PROBLEMS`. -/
structure SeedProblem extends ProblemData where
  testCases : List TestCaseData
deriving DecidableEq, Repr

/-- The two lists of the script. -/
structure Script where
  users : List SeedUser
  problems : List SeedProblem

/-! ## Accounts -/

/-- `existing.save()` of a document that is changed to `user` under its id and address: the
document, and the collection with it. -/
def saveUser (us : Users) {existing user : User} (h : existing ∈ us.docs)
    (hid : user.id = existing.id) (hemail : user.email = existing.email) :
    Except JsError (User × Users) :=
  if user.accepted then
    .ok (user,
      { docs := Database.replace User.id user us.docs
        ids_nodup := by
          rw [Database.map_id_replace]
          exact us.ids_nodup
        emails_nodup := by
          have hmap : (Database.replace User.id user us.docs).map User.email =
              us.docs.map User.email := by
            rw [Database.replace, List.map_map]
            apply List.map_congr_left
            intro v hv
            simp only [Function.comp_apply]
            split
            · rename_i hv'
              rw [hemail, Database.eq_of_id_eq us.ids_nodup hv h (hv'.trans hid)]
            · rfl
          rw [hmap]
          exact us.emails_nodup })
  else .error mongooseValidationError

/-- The document that is found, with what the script sets; it is stamped where it changed. -/
def SeedUser.assign (u : SeedUser) (passwordHash : JsString) (now : Time) (existing : User) : User :=
  let user := { existing with name := trim u.name, role := u.role, isActive := u.isActive, passwordHash }
  if user = existing then existing else { user with updatedAt := now }

theorem SeedUser.assign_id (u : SeedUser) (passwordHash : JsString) (now : Time) (existing : User) :
    (u.assign passwordHash now existing).id = existing.id := by
  unfold assign
  dsimp only
  split <;> rfl

theorem SeedUser.assign_email (u : SeedUser) (passwordHash : JsString) (now : Time)
    (existing : User) : (u.assign passwordHash now existing).email = existing.email := by
  unfold assign
  dsimp only
  split <;> rfl

/-- One turn of `// 1. Seed Users`: the account, and the collection with it. -/
def seedUser (auth : Auth) (env : Env) (u : SeedUser) (us : Users) : Except JsError (User × Users) :=
  match h : us.findByEmail auth u.email with
  | some existing =>
    match auth.verify existing.passwordHash u.password with
    | .error e => .error e
    | .ok isMatch =>
      let passwordHash := if isMatch then existing.passwordHash else auth.hash env.salt u.password
      saveUser us (List.mem_of_find?_eq_some h) (u.assign_id passwordHash env.now existing)
        (u.assign_email passwordHash env.now existing)
  | none =>
    us.create auth env.now env.id u.name u.email (auth.hash env.salt u.password) u.role u.isActive

/-! ## Problems -/

/-- The filter for a problem; the schema casts the title. -/
def hasTitle (title : JsString) (problem : Problem) : Bool := problem.title = trim title

/-- The document that is found, with what the script sets; it is stamped where it changed. -/
def SeedProblem.assign (p : SeedProblem) (adminUser : ObjectId) (now : Time) (existing : Problem) :
    Problem :=
  let problem := { existing with
    toProblemData := { p.trimmed with title := existing.title }
    authorId := adminUser
    isActive := true }
  if problem = existing then existing else { problem with updatedAt := now }

/-- One turn of `// 2. Seed Problems & Test Cases` up to its test cases: the id of the problem,
and the collections with it. -/
def seedProblem (env : Env) (adminUser : ObjectId) (p : SeedProblem) (db : Database) :
    Except JsError (ObjectId × Database) :=
  match db.problems.find? (hasTitle p.title) with
  | some existing =>
    let problem := p.assign adminUser env.now existing
    if problem.accepted then .ok (problem.id, db.saveProblem problem)
    else .error mongooseValidationError
  | none =>
    if p.accepted then
      if h : env.id ∉ db.problems.map Problem.id then
        .ok (env.id, db.addProblem { p.trimmed with
          id := env.id, authorId := adminUser, isActive := true,
          createdAt := env.now, updatedAt := env.now } h)
      else .error duplicateKeyError
    else .error mongooseValidationError

/-! ## Test cases -/

/-- The filter of the upsert. -/
def isCase (problemId : ObjectId) (tc : TestCaseData) (t : TestCase) : Bool :=
  t.problemId = problemId ∧ t.order = tc.order

/-- The document that is found, with what the script sets; an update stamps in any case. -/
def assignCase (problemId : ObjectId) (tc : TestCaseData) (now : Time) (existing : TestCase) :
    TestCase :=
  { existing with toTestCaseData := tc, problemId, isActive := true, updatedAt := now }

/-- `TestCase.findOneAndUpdate` with `upsert`: the id of the test case, and the collections with
it.  Such an update does not run the checks of the schema. -/
def upsertTestCase (env : Env) (problemId : ObjectId) (tc : TestCaseData) (db : Database) :
    Except JsError (ObjectId × Database) :=
  match db.testCases.find? (isCase problemId tc) with
  | some existing => .ok (existing.id, db.saveTestCase (assignCase problemId tc env.now existing))
  | none =>
    if h : env.id ∉ db.testCases.map TestCase.id then
      .ok (env.id, db.addTestCase { tc with
        id := env.id, problemId, isActive := true, createdAt := env.now, updatedAt := env.now } h)
    else .error duplicateKeyError

/-- `TestCase.deleteMany({ problemId, _id: { $nin: seededTcIds } })`. -/
def deleteOthers (problemId : ObjectId) (seededTcIds : List ObjectId) (db : Database) : Database :=
  { db with
    testCases := db.testCases.filter fun t ↦ t.problemId ≠ problemId ∨ t.id ∈ seededTcIds
    testCases_nodup := db.testCases_nodup.sublist (List.filter_sublist.map _) }

/-! ## The process -/

/-- Where `seed` stands. -/
inductive Phase where
  /-- No process runs; the last one ended before its end, if there was one. -/
  | idle
  /-- Before the next account, with the administrator so far. -/
  | users (rest : List SeedUser) (adminUser : Option ObjectId)
  /-- Before the next problem. -/
  | problems (adminUser : ObjectId) (rest : List SeedProblem)
  /-- Before the next test case of a problem, or before the deletion of its others. -/
  | testCases (adminUser problemId : ObjectId) (testCases : List TestCaseData)
      (seededTcIds : List ObjectId) (rest : List SeedProblem)
  | completed

/-- A state of the seeding. -/
structure State where
  world : World
  phase : Phase

/-- What happens next. -/
inductive Event where
  /-- The script is started; whether in production, where it ends at once. -/
  | start (production : Bool)
  /-- The next call of the process, with what it is given. -/
  | call (env : Env)
  /-- The process ends before its next call. -/
  | stop

section

variable (auth : Auth) (script : Script)

/-- A call that throws ends the process. -/
def attempt {α : Type} (w : World) (x : Except JsError α) (next : α → State) : State :=
  match x with
  | .error _ => ⟨w, .idle⟩
  | .ok a => next a

/-- The next call of the process, where one runs. -/
def State.call (env : Env) : State → Option State
  | ⟨_, .idle⟩ | ⟨_, .completed⟩ => none
  | ⟨w, .users [] none⟩ => some ⟨w, .idle⟩
  | ⟨w, .users [] (some adminUser)⟩ => some ⟨w, .problems adminUser script.problems⟩
  | ⟨w, .users (u :: rest) adminUser⟩ =>
    some (attempt w (seedUser auth env u w.users) fun (user, users) ↦
      ⟨{ w with users }, .users rest (if u.role = .admin then some user.id else adminUser)⟩)
  | ⟨w, .problems _ []⟩ => some ⟨w, .completed⟩
  | ⟨w, .problems adminUser (p :: rest)⟩ =>
    some (attempt w (seedProblem env adminUser p w.db) fun (problemId, db) ↦
      ⟨{ w with db }, .testCases adminUser problemId p.testCases [] rest⟩)
  | ⟨w, .testCases adminUser problemId (tc :: tcs) seededTcIds rest⟩ =>
    some (attempt w (upsertTestCase env problemId tc w.db) fun (id, db) ↦
      ⟨{ w with db }, .testCases adminUser problemId tcs (seededTcIds ++ [id]) rest⟩)
  | ⟨w, .testCases adminUser problemId [] seededTcIds rest⟩ =>
    some ⟨{ w with db := deleteOthers problemId seededTcIds w.db }, .problems adminUser rest⟩

/-- One step, where it is enabled. -/
def State.step (s : State) : Event → Option State
  | .start production =>
    match s.phase with
    | .idle | .completed =>
      some { s with phase := if production then .idle else .users script.users none }
    | _ => none
  | .call env => s.call auth script env
  | .stop => some { s with phase := .idle }

/-- The seeding of a database. -/
def seeding (w : World) : Machine State Event := ⟨⟨w, .idle⟩, State.step auth script⟩

end

/-- The ids that are in use. -/
def used (w : World) : List ObjectId :=
  w.users.docs.map User.id ++ w.db.problems.map Problem.id ++ w.db.testCases.map TestCase.id ++
    w.db.testCases.map TestCase.problemId

/-- MongoDB gives new documents new ids. -/
def Fresh (s : State) : Event → Prop
  | .call env => env.id ∉ used s.world
  | _ => True

instance (s : State) (e : Event) : Decidable (Fresh s e) :=
  match e with
  | .call env => inferInstanceAs (Decidable (env.id ∉ used s.world))
  | .start _ | .stop => isTrue trivial

/-! ## A script for examples -/

/-- An administrator and a problem with one test case. -/
def Script.sample : Script where
  users := [⟨js "Ann", js "ann@code.org", js "secret", .admin, true⟩]
  problems := [{ ProblemData.sample with testCases := [TestCaseData.sample .pub] }]

/-- Nothing is stored. -/
def emptyWorld : World := ⟨.empty, .init [], []⟩

/-- Some calls, with ids from a number on. -/
def callsFrom (id n : Nat) : List Event := (List.range n).map fun i ↦ .call ⟨i, id + i, 0⟩

end CodeArena.Seeds
