import CodeArena.Api.Problems
import CodeArena.Api.TestCases

/-!
# Request validation

The middleware of `problem.validation.js` and `test-case.validation.js`: what is checked of a
body, in which order and with which message, and what of the body is left for the service.

A check takes the value under a name; `required` and `optional` say what becomes of a name
that is not there.

## Honest boundary

A body is the value that Express parsed, and `none` where there was nothing to parse.
-/

namespace CodeArena.Api

universe u

open CodeArena.Lib CodeArena.Lib.Utf
open CodeArena.Lib.Entries (without assign)
open CodeArena.Lib.OrderedMap (find?)
open CodeArena.Engine (trim)
open CodeArena.Submissions (JsError appError)

/-- The fields of a body. -/
abbrev Fields := List (JsString × Json)

/-- `next(new AppError(message, 400))`. -/
def badRequest (message : String) : JsError := appError message 400 none

/-! ## Checks -/

section

variable {α : Type u}

/-- A field that has to be there. -/
def required (check : String → Json → Except JsError α) (message : String) :
    Option Json → Except JsError α
  | none => .error (badRequest message)
  | some v => check message v

/-- A field that is checked where it is there. -/
def optional (check : String → Json → Except JsError α) (message : String) :
    Option Json → Except JsError (Option α)
  | none => .ok none
  | some v => (check message v).map some

end

/-- `typeof v === 'string'`. -/
def aString (message : String) : Json → Except JsError JsString
  | .string s => .ok s
  | _ => .error (badRequest message)

/-- A string that is not blank, trimmed. -/
def aText (message : String) : Json → Except JsError JsString
  | .string s => if trim s = [] then .error (badRequest message) else .ok (trim s)
  | _ => .error (badRequest message)

/-- A text of at most 200 characters. -/
def aTitle (message : String) (v : Json) : Except JsError JsString :=
  match aText message v with
  | .error e => .error e
  | .ok s =>
    if 200 < s.length then .error (badRequest "Title cannot exceed 200 characters") else .ok s

/-- `names.includes(v)`. -/
def oneOf (names : List JsString) (message : String) : Json → Except JsError JsString
  | .string s => if names.any (· = s) then .ok s else .error (badRequest message)
  | _ => .error (badRequest message)

/-- `typeof v === 'number' && !isNaN(v) && v >= 0`; what was parsed is not `NaN`. -/
def aNonNegative (message : String) : Json → Except JsError Number
  | .number n => if n < 0 then .error (badRequest message) else .ok n
  | _ => .error (badRequest message)

/-- `typeof t === 'string' ? t.trim() : ''`. -/
def tagOf : Json → JsString
  | .string t => trim t
  | _ => []

/-- An array; its tags are trimmed, and the empty ones left out. -/
def someTags (message : String) : Json → Except JsError (List JsString)
  | .array items => .ok ((items.map tagOf).filter (· ≠ []))
  | _ => .error (badRequest message)

/-- Whether a value has a string under a name. -/
def hasString (j : Json) (name : JsString) : Bool :=
  match j.field name with
  | some (.string _) => true
  | _ => false

/-- What an example has to have. -/
def isExample (ex : Json) : Bool := hasString ex (js "input") && hasString ex (js "output")

/-- An array of examples, with at least one of them. -/
def someExamples (message : String) : Json → Except JsError (List Json)
  | .array [] => .error (badRequest message)
  | .array items =>
    match items.findIdx? fun ex ↦ !isExample ex with
    | some i =>
      .error (badRequest s!"Example at index {i} must contain string input and output")
    | none => .ok items
  | _ => .error (badRequest message)

/-! ## Test cases -/

/-- `VALID_VISIBILITIES`. -/
def validVisibilities : List JsString := [js "PUBLIC", js "HIDDEN"]

/-- The fields that the validators of test cases delete. -/
def testCaseImmutable : List JsString :=
  [js "problemId", js "isActive", js "createdAt", js "updatedAt", js "id", js "_id"]

/-- `allowedFields` of a test case. -/
def testCaseFields : List JsString :=
  [js "input", js "expectedOutput", js "visibility", js "order"]

/-- `req.body || {}`, by its fields. -/
def bodyFields : Option Json → Fields
  | none => []
  | some body => body.entries

/-- What is assigned to the body of a new test case. -/
def testCaseAssignments (input expectedOutput visibility : JsString) (order : Number) :
    List (JsString × Option Json) :=
  [(js "input", some (.string input)), (js "expectedOutput", some (.string expectedOutput)),
    (js "visibility", some (.string visibility)), (js "order", some (.number order))]

/-- `validateCreateTestCase`. -/
def validateCreateTestCase (body : Option Json) : Except JsError Fields := do
  let fields := bodyFields body
  let input ← required aString "Input is required and must be a string"
    (find? (js "input") fields)
  let expectedOutput ← required aString "Expected output is required and must be a string"
    (find? (js "expectedOutput") fields)
  let visibility ← required (oneOf validVisibilities) "Visibility must be either PUBLIC or HIDDEN"
    (find? (js "visibility") fields)
  let order ← required aNonNegative "Order must be a non-negative number"
    (find? (js "order") fields)
  return without testCaseImmutable
    (assign (testCaseAssignments input expectedOutput visibility order) fields)

/-- What `delete` throws where there is no object to delete from. -/
def noObjectError : JsError :=
  ⟨"TypeError", "Cannot convert undefined or null to object", none, none, false⟩

/-- The fields of the body of an update, without those that it may not set. -/
def updateFields (immutable allowed : List JsString) : Option Json → Except JsError Fields
  | none | some .null => .error noObjectError
  | some body =>
    let fields := without immutable body.entries
    if fields.any fun e ↦ allowed.any (· = e.1) then .ok fields
    else .error (badRequest "At least one valid field must be provided for update")

/-- `validateUpdateTestCase`. -/
def validateUpdateTestCase (body : Option Json) : Except JsError Fields := do
  let fields ← updateFields testCaseImmutable testCaseFields body
  let _ ← optional aString "Input must be a string" (find? (js "input") fields)
  let _ ← optional aString "Expected output must be a string"
    (find? (js "expectedOutput") fields)
  let _ ← optional (oneOf validVisibilities) "Visibility must be either PUBLIC or HIDDEN"
    (find? (js "visibility") fields)
  let _ ← optional aNonNegative "Order must be a non-negative number"
    (find? (js "order") fields)
  return fields

/-! ## Problems -/

/-- `VALID_DIFFICULTIES`. -/
def validDifficulties : List JsString := [js "EASY", js "MEDIUM", js "HARD"]

/-- The fields that the validators of problems delete. -/
def problemImmutable : List JsString :=
  [js "authorId", js "isActive", js "createdAt", js "updatedAt", js "id", js "_id"]

/-- `allowedFields` of a problem. -/
def problemFields : List JsString :=
  [js "title", js "description", js "difficulty", js "tags", js "inputFormat",
    js "outputFormat", js "constraints", js "examples"]

/-- `({ input: ex.input, output: ex.output })`. -/
def exampleOf (ex : Json) : Json :=
  .object [(js "input", .string (ex.text (js "input"))),
    (js "output", .string (ex.text (js "output")))]

/-- The array of tags. -/
def tagItems (tags : List JsString) : Json := .array (tags.map .string)

/-- What is assigned to the body of a new problem. -/
def problemAssignments (title description difficulty : JsString) (tags : List JsString)
    (inputFormat outputFormat constraints : JsString) (examples : List Json) :
    List (JsString × Option Json) :=
  [(js "title", some (.string title)), (js "description", some (.string description)),
    (js "difficulty", some (.string difficulty)), (js "tags", some (tagItems tags)),
    (js "inputFormat", some (.string inputFormat)),
    (js "outputFormat", some (.string outputFormat)),
    (js "constraints", some (.string constraints)),
    (js "examples", some (.array (examples.map exampleOf)))]

/-- `validateCreateProblem`. -/
def validateCreateProblem (body : Option Json) : Except JsError Fields := do
  let fields := bodyFields body
  let title ← required aTitle "Title is required and must not be empty"
    (find? (js "title") fields)
  let description ← required aText "Description is required and must not be empty"
    (find? (js "description") fields)
  let difficulty ← required (oneOf validDifficulties)
    "Difficulty must be one of: EASY, MEDIUM, HARD" (find? (js "difficulty") fields)
  let tags ← optional someTags "Tags must be an array of strings" (find? (js "tags") fields)
  let inputFormat ← required aText "Input format is required" (find? (js "inputFormat") fields)
  let outputFormat ← required aText "Output format is required"
    (find? (js "outputFormat") fields)
  let constraints ← required aText "Constraints are required" (find? (js "constraints") fields)
  let examples ← required someExamples "Examples must be a non-empty array"
    (find? (js "examples") fields)
  return without problemImmutable (assign (problemAssignments title description difficulty
    (tags.getD []) inputFormat outputFormat constraints examples) fields)

/-- What is assigned to the body of an update of a problem. -/
def problemReassignments (title description : Option JsString) (tags : Option (List JsString))
    (inputFormat outputFormat constraints : Option JsString) : List (JsString × Option Json) :=
  [(js "title", title.map .string), (js "description", description.map .string),
    (js "tags", tags.map tagItems), (js "inputFormat", inputFormat.map .string),
    (js "outputFormat", outputFormat.map .string), (js "constraints", constraints.map .string)]

/-- `validateUpdateProblem`; the examples stay as they are. -/
def validateUpdateProblem (body : Option Json) : Except JsError Fields := do
  let fields ← updateFields problemImmutable problemFields body
  let title ← optional aTitle "Title must be a non-empty string" (find? (js "title") fields)
  let description ← optional aText "Description must be a non-empty string"
    (find? (js "description") fields)
  let _ ← optional (oneOf validDifficulties) "Difficulty must be one of: EASY, MEDIUM, HARD"
    (find? (js "difficulty") fields)
  let tags ← optional someTags "Tags must be an array of strings" (find? (js "tags") fields)
  let inputFormat ← optional aText "Input format must be a non-empty string"
    (find? (js "inputFormat") fields)
  let outputFormat ← optional aText "Output format must be a non-empty string"
    (find? (js "outputFormat") fields)
  let constraints ← optional aText "Constraints must be a non-empty string"
    (find? (js "constraints") fields)
  let _ ← optional someExamples "Examples must be a non-empty array"
    (find? (js "examples") fields)
  return assign (problemReassignments title description tags inputFormat outputFormat constraints)
    fields

end CodeArena.Api
