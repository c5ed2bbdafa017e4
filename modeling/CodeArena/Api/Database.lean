import CodeArena.Api.Query
import CodeArena.Lib.Json
import Mathlib.Data.List.Sort

/-!
# The database

The collections that the services read and write: problems, test cases and submissions,
each as the list of its documents, under ids that occur once.

A query is a filter over a collection, in the order in which the documents are stored, and
a sort keeps that order among equal keys.  `$group` with `{ $sum: 1 }` is a tally of the
keys.

## Honest boundary

Collections are read at one moment: what a service reads in several queries does not change
in between.
-/

namespace CodeArena.Api

open CodeArena.Lib CodeArena.Lib.Utf
open CodeArena.Engine (trim)
open CodeArena.Submissions (ObjectId Time JsError Submission Verdict appError mongooseValidationError)

/-- `difficulty`. -/
inductive Difficulty where
  | easy
  | medium
  | hard
deriving DecidableEq, Repr

/-- The name of a difficulty. -/
def Difficulty.name : Difficulty → JsString
  | easy => js "EASY"
  | medium => js "MEDIUM"
  | hard => js "HARD"

/-- `visibility`. -/
inductive Visibility where
  | pub
  | hidden
deriving DecidableEq, Repr

/-- The name of a visibility. -/
def Visibility.name : Visibility → JsString
  | pub => js "PUBLIC"
  | hidden => js "HIDDEN"

/-- An example of a problem. -/
structure Example where
  input : JsString
  output : JsString
deriving DecidableEq, Repr

/-- The content of a problem: what a request may set. -/
structure ProblemData where
  title : JsString
  description : JsString
  difficulty : Difficulty
  tags : List JsString
  inputFormat : JsString
  outputFormat : JsString
  constraints : JsString
  examples : List Example
deriving DecidableEq, Repr

/-- A document of the problems collection; `toSafeObject` has all its fields. -/
structure Problem extends ProblemData where
  id : ObjectId
  authorId : ObjectId
  isActive : Bool
  createdAt : Time
  updatedAt : Time
deriving DecidableEq, Repr

/-- The content of a test case: what a request may set. -/
structure TestCaseData where
  input : JsString
  expectedOutput : JsString
  visibility : Visibility
  order : Number
deriving DecidableEq, Repr

/-- A document of the test cases collection; `toSafeObject` has all its fields. -/
structure TestCase extends TestCaseData where
  id : ObjectId
  problemId : ObjectId
  isActive : Bool
  createdAt : Time
  updatedAt : Time
deriving DecidableEq, Repr

/-- A document of the submissions collection. -/
structure SubmissionDoc extends Submission where
  id : ObjectId
  createdAt : Time
  updatedAt : Time
deriving DecidableEq

/-- The collections. -/
structure Database where
  problems : List Problem
  testCases : List TestCase
  submissions : List SubmissionDoc
  problems_nodup : (problems.map Problem.id).Nodup
  testCases_nodup : (testCases.map TestCase.id).Nodup

namespace Database

/-- A database with submissions only. -/
def init (submissions : List SubmissionDoc) : Database :=
  ⟨[], [], submissions, List.nodup_nil, List.nodup_nil⟩

/-! ## Reading -/

/-- `Problem.findById`. -/
def findProblem (db : Database) (id : ObjectId) : Option Problem :=
  db.problems.find? (·.id = id)

/-- `TestCase.findById`. -/
def findTestCase (db : Database) (id : ObjectId) : Option TestCase :=
  db.testCases.find? (·.id = id)

/-- `Submission.findById`. -/
def findSubmission (db : Database) (id : ObjectId) : Option SubmissionDoc :=
  db.submissions.find? (·.id = id)

/-- `Submission.find({ userId, verdict: 'ACCEPTED' }).distinct('problemId')`. -/
def solvedBy (db : Database) (userId : ObjectId) : List ObjectId :=
  ((db.submissions.filter fun s ↦ s.userId = userId ∧ s.verdict = .accepted).map
    (·.problemId)).dedup

/-- The active test cases of a problem under a visibility. -/
def countActive (db : Database) (problemId : ObjectId) (v : Visibility) : Nat :=
  db.testCases.countP fun t ↦ t.problemId = problemId ∧ t.isActive ∧ t.visibility = v

/-- Ids that occur once tell documents apart. -/
theorem eq_of_id_eq {α : Type} {id : α → ObjectId} {xs : List α} (hn : (xs.map id).Nodup)
    {x y : α} (hx : x ∈ xs) (hy : y ∈ xs) (h : id x = id y) : x = y :=
  List.inj_on_of_nodup_map hn hx hy h

/-- **`findById` finds the document with the id.** -/
theorem find?_id_eq_some {α : Type} {id : α → ObjectId} {xs : List α} (hn : (xs.map id).Nodup)
    {i : ObjectId} {x : α} : xs.find? (fun y ↦ id y = i) = some x ↔ x ∈ xs ∧ id x = i := by
  constructor
  · intro h
    exact ⟨List.mem_of_find?_eq_some h, by simpa using List.find?_some h⟩
  · rintro ⟨hmem, rfl⟩
    cases hf : xs.find? (fun y ↦ id y = id x) with
    | none =>
        have hne := List.find?_eq_none.mp hf x hmem
        exact absurd (decide_eq_true rfl) hne
    | some y =>
        have hy : id y = id x := by simpa using List.find?_some hf
        rw [eq_of_id_eq hn (List.mem_of_find?_eq_some hf) hmem hy]

theorem findProblem_eq_some {db : Database} {id : ObjectId} {p : Problem} :
    db.findProblem id = some p ↔ p ∈ db.problems ∧ p.id = id :=
  find?_id_eq_some db.problems_nodup

/-! ## Writing -/

/-- `Problem.create`, where the id is new. -/
def addProblem (db : Database) (p : Problem) (h : p.id ∉ db.problems.map Problem.id) : Database :=
  { db with
    problems := db.problems ++ [p]
    problems_nodup := by
      rw [List.map_append]
      exact List.nodup_append_comm.mp (List.nodup_cons.mpr ⟨h, db.problems_nodup⟩) }

/-- `TestCase.create`, where the id is new. -/
def addTestCase (db : Database) (t : TestCase) (h : t.id ∉ db.testCases.map TestCase.id) :
    Database :=
  { db with
    testCases := db.testCases ++ [t]
    testCases_nodup := by
      rw [List.map_append]
      exact List.nodup_append_comm.mp (List.nodup_cons.mpr ⟨h, db.testCases_nodup⟩) }

/-- The documents with the one of an id replaced. -/
def replace {α : Type} (id : α → ObjectId) (x : α) (xs : List α) : List α :=
  xs.map fun y ↦ if id y = id x then x else y

theorem map_id_replace {α : Type} (id : α → ObjectId) (x : α) (xs : List α) :
    (replace id x xs).map id = xs.map id := by
  rw [replace, List.map_map]
  apply List.map_congr_left
  intro y _
  simp only [Function.comp_apply]
  split
  · rename_i h
    exact h.symm
  · rfl

/-- `problem.save()`. -/
def saveProblem (db : Database) (p : Problem) : Database :=
  { db with
    problems := replace Problem.id p db.problems
    problems_nodup := by
      rw [map_id_replace]
      exact db.problems_nodup }

/-- `testCase.save()`. -/
def saveTestCase (db : Database) (t : TestCase) : Database :=
  { db with
    testCases := replace TestCase.id t db.testCases
    testCases_nodup := by
      rw [map_id_replace]
      exact db.testCases_nodup }

end Database

/-! ## The schemas -/

/-- The checks of the problem schema, on what is stored after trimming. -/
def ProblemData.accepted (d : ProblemData) : Bool :=
  (trim d.title ≠ [] ∧ (trim d.title).length ≤ 200 ∧ trim d.description ≠ [] ∧
    trim d.inputFormat ≠ [] ∧ trim d.outputFormat ≠ [] ∧ trim d.constraints ≠ []) ∧
  d.examples ≠ [] ∧ ∀ e ∈ d.examples, e.input ≠ [] ∧ e.output ≠ []

/-- The fields that the schema trims, trimmed. -/
def ProblemData.trimmed (d : ProblemData) : ProblemData :=
  { d with
    title := trim d.title
    description := trim d.description
    inputFormat := trim d.inputFormat
    outputFormat := trim d.outputFormat
    constraints := trim d.constraints }

/-- The checks of the test case schema: a required string is not empty. -/
def TestCaseData.accepted (d : TestCaseData) : Bool :=
  d.input ≠ [] ∧ d.expectedOutput ≠ [] ∧ 0 ≤ d.order

/-- What MongoDB answers to a second document with one id. -/
def duplicateKeyError : JsError :=
  ⟨"MongoServerError", "E11000 duplicate key error", none, none, false⟩

/-! ## Documents for examples -/

/-- The content of a problem. -/
def ProblemData.sample : ProblemData :=
  ⟨[0x41], [0x42], .easy, [], [0x43], [0x44], [0x45], [⟨[0x31], [0x32]⟩]⟩

/-- A problem. -/
def Problem.sample (id : ObjectId) (isActive : Bool) : Problem :=
  { ProblemData.sample with id, authorId := 1, isActive, createdAt := 0, updatedAt := 0 }

/-- The content of a test case. -/
def TestCaseData.sample (visibility : Visibility) : TestCaseData := ⟨[0x31], [0x32], visibility, 0⟩

/-- A test case. -/
def TestCase.sample (id problemId : ObjectId) (visibility : Visibility) : TestCase :=
  { TestCaseData.sample visibility with
    id, problemId, isActive := true, createdAt := 0, updatedAt := 0 }

/-- A submission. -/
def SubmissionDoc.sample (id userId problemId : ObjectId) (verdict : Verdict) : SubmissionDoc where
  userId := userId
  problemId := problemId
  language := "PYTHON"
  sourceCode := [0x41]
  status := .completed
  verdict := verdict
  runtimeMs := none
  memoryKb := none
  testsPassed := none
  totalTests := none
  queuedAt := none
  startedAt := none
  completedAt := none
  failedAt := none
  errorMessage := none
  execution := ⟨none, none, none⟩
  id := id
  createdAt := 0
  updatedAt := 0

end CodeArena.Api
