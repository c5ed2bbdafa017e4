import CodeArena.Api.Database

/-!
# The test case service

The functions of `test-case.service.js`.  Those that write are for administrators; those
that read show every other user active public test cases only.
-/

namespace CodeArena.Api

open CodeArena.Lib CodeArena.Lib.Utf
open CodeArena.Submissions (ObjectId Time JsError appError mongooseValidationError)

/-- `role`. -/
inductive Role where
  | user
  | admin
deriving DecidableEq, Repr

/-- `createTestCase`, with the id that the new document gets. -/
def createTestCase (now : Time) (id problemId : ObjectId) (data : TestCaseData) (db : Database) :
    Except JsError (TestCase × Database) :=
  match db.findProblem problemId with
  | none => .error (appError "Problem not found" 404 none)
  | some _ =>
    if data.accepted then
      if h : id ∉ db.testCases.map TestCase.id then
        let testCase : TestCase :=
          { data with id, problemId, isActive := true, createdAt := now, updatedAt := now }
        .ok (testCase, db.addTestCase testCase h)
      else .error duplicateKeyError
    else .error mongooseValidationError

/-- The test cases that a role may see in a list. -/
def TestCase.listedTo (userRole : Role) (t : TestCase) : Bool :=
  t.isActive && (userRole = .admin || t.visibility = .pub)

/-- `getTestCasesForProblem`. -/
def getTestCasesForProblem (problemId : ObjectId) (userRole : Role) (db : Database) :
    Except JsError (List TestCase) :=
  match db.findProblem problemId with
  | none => .error (appError "Problem not found" 404 none)
  | some _ =>
    .ok ((db.testCases.filter fun t ↦ t.problemId = problemId && t.listedTo userRole).insertionSort
      fun t u ↦ t.order ≤ u.order)

/-- The test cases that a role may see under their id. -/
def TestCase.shownTo (userRole : Role) (t : TestCase) : Bool :=
  userRole = .admin || (t.isActive && t.visibility = .pub)

/-- `getTestCaseById`. -/
def getTestCaseById (testCaseId : ObjectId) (userRole : Role) (db : Database) :
    Except JsError TestCase :=
  match db.testCases.find? fun t ↦ t.id = testCaseId && t.shownTo userRole with
  | none => .error (appError "Test case not found" 404 none)
  | some testCase => .ok testCase

/-- The fields that an update may set. -/
structure TestCaseUpdate where
  input : Option JsString
  expectedOutput : Option JsString
  visibility : Option Visibility
  order : Option Number
deriving DecidableEq, Repr

/-- The content of a test case with the fields of an update set. -/
def TestCaseUpdate.apply (u : TestCaseUpdate) (d : TestCaseData) : TestCaseData where
  input := u.input.getD d.input
  expectedOutput := u.expectedOutput.getD d.expectedOutput
  visibility := u.visibility.getD d.visibility
  order := u.order.getD d.order

/-- The document to save: it is stamped where its content changed. -/
def TestCase.update (t : TestCase) (now : Time) (d : TestCaseData) : TestCase :=
  if d = t.toTestCaseData then t else { t with toTestCaseData := d, updatedAt := now }

/-- `updateTestCase`. -/
def updateTestCase (now : Time) (testCaseId : ObjectId) (updateData : TestCaseUpdate)
    (db : Database) : Except JsError (TestCase × Database) :=
  match db.findTestCase testCaseId with
  | none => .error (appError "Test case not found" 404 none)
  | some testCase =>
    let data := updateData.apply testCase.toTestCaseData
    if data.accepted then
      let saved := testCase.update now data
      .ok (saved, db.saveTestCase saved)
    else .error mongooseValidationError

/-- `deactivateTestCase`. -/
def deactivateTestCase (now : Time) (testCaseId : ObjectId) (db : Database) :
    Except JsError (String × Database) :=
  match db.findTestCase testCaseId with
  | none => .error (appError "Test case not found" 404 none)
  | some testCase =>
    let message := "Test case deactivated successfully"
    if testCase.isActive then
      .ok (message, db.saveTestCase { testCase with isActive := false, updatedAt := now })
    else .ok (message, db)

end CodeArena.Api
