import CodeArena.Lib.Utf
import CodeArena.Lib.Async
import Mathlib.Data.List.DropRight

/-!
# Requests to the execution engine

The constants, the languages and the checks every call of `execute` starts with.
`validateExecutionRequest` inspects a value of any shape; what passes it is an
`ExecutionRequest`, whose fields have the types and meet the bounds that the checks
are for, so that the code after it reads no value of a wrong type.

## Honest boundary

`toUpperCase` is the one of JavaScript as far as the names of the supported languages
can tell: on every other character it may leave in place what JavaScript would map to
something else that is not a capital letter from A to Z, or to two letters that occur
side by side in none of these names.
-/

namespace CodeArena.Engine

open CodeArena.Lib CodeArena.Lib.Utf

/-- `VERDICTS`. -/
inductive Verdict where
  | pending
  | accepted
  | wrongAnswer
  | compilationError
  | runtimeError
  | timeLimitExceeded
  | memoryLimitExceeded
  | outputLimitExceeded
deriving DecidableEq, Repr

/-! ## `LIMITS` -/

/-- `MAX_SOURCE_CODE_BYTES`. -/
def maxSourceCodeBytes : Nat := 65536

/-- `COMPILE_TIMEOUT_MS`. -/
def compileTimeoutMs : Nat := 10000

/-- `EXECUTION_TIMEOUT_MS`. -/
def executionTimeoutMs : Nat := 5000

/-- `MAX_OUTPUT_BYTES`: the threshold for termination. -/
def maxOutputBytes : Nat := 512 * 1024

/-- `MAX_BUFFER_BYTES`: what is kept of each stream. -/
def maxBufferBytes : Nat := 512 * 1024

/-! ## Errors -/

/-- An error as `execute` throws it. -/
structure EngineError where
  name : String
  message : JsString
  errorCode : Option String
deriving DecidableEq, Repr

/-- `new ExecutionEngineError(message)`. -/
def executionEngineError (message : JsString) : EngineError :=
  ⟨"ExecutionEngineError", message, some "EXECUTION_ENGINE_ERROR"⟩

/-- `new ValidationError(message)`. -/
def validationError (message : JsString) : EngineError :=
  ⟨"ValidationError", message, some "VALIDATION_ERROR"⟩

/-- Thrown where the Docker daemon is not reachable. -/
def executionUnavailable : EngineError :=
  executionEngineError
    (js "EXECUTION_UNAVAILABLE: Docker sandbox runtime is required but unavailable. " ++
      js "Untrusted code cannot be executed directly on the host.")

/-! ## Strings -/

/-- White space and line terminators, as `trim` removes them. -/
def isWhitespace (u : CodeUnit) : Bool :=
  u ∈ ([0x09, 0x0A, 0x0B, 0x0C, 0x0D, 0x20, 0xA0, 0x1680, 0x2000, 0x2001, 0x2002, 0x2003,
    0x2004, 0x2005, 0x2006, 0x2007, 0x2008, 0x2009, 0x200A, 0x2028, 0x2029, 0x202F, 0x205F,
    0x3000, 0xFEFF] : List CodeUnit)

/-- `trimEnd`. -/
def trimEnd (s : JsString) : JsString := s.rdropWhile isWhitespace

/-- `trim`. -/
def trim (s : JsString) : JsString := trimEnd (s.dropWhile isWhitespace)

/-- One code unit of `toUpperCase`: besides a to z, the dotless i and the long s have
a capital letter from A to Z. -/
def upperUnit (u : CodeUnit) : CodeUnit :=
  if 0x61 ≤ u ∧ u ≤ 0x7A then u - 0x20
  else if u = 0x131 then 0x49
  else if u = 0x17F then 0x53
  else u

/-- `toUpperCase`. -/
def toUpperCase (s : JsString) : JsString := s.map upperUnit

/-- `Buffer.byteLength(s, 'utf8')`: four bytes for a surrogate pair, and three for a
surrogate alone, which is encoded as U+FFFD. -/
def byteLength : JsString → Nat
  | [] => 0
  | [u] => if u < 0x80 then 1 else if u < 0x800 then 2 else 3
  | u :: v :: s =>
    if u < 0x80 then 1 + byteLength (v :: s)
    else if u < 0x800 then 2 + byteLength (v :: s)
    else if (0xD800 ≤ u ∧ u < 0xDC00) ∧ (0xDC00 ≤ v ∧ v < 0xE000) then 4 + byteLength s
    else 3 + byteLength (v :: s)

/-! ## Languages -/

/-- How a compiled language is compiled. -/
structure Compilation where
  compiler : JsString
  compileArgs : List JsString
deriving DecidableEq, Repr

/-- A trusted configuration; a language is compiled where it has a compiler. -/
structure LanguageConfig where
  sourceFilename : JsString
  compilation : Option Compilation
  command : JsString
  args : List JsString
deriving DecidableEq, Repr

/-- `SUPPORTED_LANGUAGES`. -/
inductive Language where
  | cpp
  | python
  | javascript
deriving DecidableEq, Repr

namespace Language

/-- The name of a language in a request. -/
def identifier : Language → JsString
  | cpp => js "CPP"
  | python => js "PYTHON"
  | javascript => js "JAVASCRIPT"

/-- `LANGUAGE_CONFIGS`. -/
def config : Language → LanguageConfig
  | cpp =>
    { sourceFilename := js "main.cpp"
      compilation := some
        { compiler := js "g++"
          compileArgs := [js "-O2", js "-std=c++17", js "main.cpp", js "-o", js "main"] }
      command := js "./main"
      args := [] }
  | python =>
    { sourceFilename := js "main.py"
      compilation := none
      command := js "python3"
      args := [js "main.py"] }
  | javascript =>
    { sourceFilename := js "main.js"
      compilation := none
      command := js "node"
      args := [js "main.js"] }

end Language

/-- The supported languages, in their order. -/
def supportedLanguages : List Language := [.cpp, .python, .javascript]

/-- Thrown for a request without a language. -/
def languageRequired : EngineError :=
  validationError (js "Language is required and must be a string")

/-- `resolveLanguage`.  Every supported language has a configuration, so its last check
has nothing to find. -/
def resolveLanguage (language : JsString) : Except EngineError LanguageConfig :=
  if language = [] then .error languageRequired
  else
    match supportedLanguages.find? (·.identifier = toUpperCase (trim language)) with
    | some l => .ok l.config
    | none => .error (validationError (js "Language '" ++ language ++
        js "' is not supported. Supported languages: CPP, PYTHON, JAVASCRIPT"))

/-! ## Validation -/

/-- A value as the checks tell it apart. -/
inductive Value where
  | undefined
  | string (s : JsString)
  /-- `null`, a number, an object and so on. -/
  | other
deriving DecidableEq, Repr

/-- The fields of a test case, before validation. -/
structure RawTestCase where
  input : Value
  expectedOutput : Value
deriving DecidableEq, Repr

/-- A request before validation; `testCase` is `none` where it is not an object. -/
structure RawRequest where
  language : Value
  sourceCode : Value
  testCase : Option RawTestCase
deriving DecidableEq, Repr

/-- A request that passes the checks. -/
structure ExecutionRequest where
  language : JsString
  sourceCode : JsString
  input : Option JsString
  expectedOutput : JsString
  language_ne_nil : language ≠ []
  sourceCode_not_blank : trim sourceCode ≠ []
  byteLength_le : byteLength sourceCode ≤ maxSourceCodeBytes

/-- The checks on `testCase`. -/
def validateTestCase : Option RawTestCase → Except EngineError (Option JsString × JsString)
  | none => .error (validationError (js "Test case is required and must be an object"))
  | some ⟨.other, _⟩ =>
    .error (validationError (js "Test case input must be a string if provided"))
  | some ⟨.undefined, .string expected⟩ => .ok (none, expected)
  | some ⟨.string input, .string expected⟩ => .ok (some input, expected)
  | some _ =>
    .error (validationError (js "Test case expectedOutput is required and must be a string"))

/-- `validateExecutionRequest`; `none` is a request that is not an object. -/
def validateExecutionRequest : Option RawRequest → Except EngineError ExecutionRequest
  | none => .error (validationError (js "Execution request must be an object"))
  | some request =>
    match request.language, request.sourceCode with
    | .string language, .string sourceCode =>
      if hl : language = [] then .error languageRequired
      else if hs : trim sourceCode = [] then
        .error (validationError (js "Source code is required and cannot be empty"))
      else if hb : byteLength sourceCode ≤ maxSourceCodeBytes then
        match validateTestCase request.testCase with
        | .error e => .error e
        | .ok (input, expectedOutput) =>
          .ok ⟨language, sourceCode, input, expectedOutput, hl, hs, hb⟩
      else
        .error (validationError
          (js "Source code exceeds maximum permitted size of 65536 bytes (64KB)"))
    | .string (_ :: _), _ =>
      .error (validationError (js "Source code is required and cannot be empty"))
    | _, _ => .error languageRequired

/-- The request passes the checks that every call starts with. -/
def Checked (raw : Option RawRequest) : Prop :=
  ∃ request config, validateExecutionRequest raw = .ok request ∧
    resolveLanguage request.language = .ok config

/-- `Checked`, decided. -/
def checked (raw : Option RawRequest) : Bool :=
  match validateExecutionRequest raw with
  | .error _ => false
  | .ok request =>
    match resolveLanguage request.language with
    | .error _ => false
    | .ok _ => true

theorem checked_iff {raw : Option RawRequest} : checked raw = true ↔ Checked raw := by
  unfold checked Checked
  cases validateExecutionRequest raw with
  | error e => simp
  | ok request => cases hr : resolveLanguage request.language <;> simp [hr]

instance (raw : Option RawRequest) : Decidable (Checked raw) := decidable_of_iff _ checked_iff

/-! ## What the checks throw -/

theorem validateTestCase_error {testCase : Option RawTestCase} {e : EngineError}
    (h : validateTestCase testCase = .error e) : e.name = "ValidationError" := by
  unfold validateTestCase at h
  split at h <;> cases h <;> rfl

/-- A request that does not pass is refused with a `ValidationError`. -/
theorem validateExecutionRequest_error {raw : Option RawRequest} {e : EngineError}
    (h : validateExecutionRequest raw = .error e) : e.name = "ValidationError" := by
  unfold validateExecutionRequest at h
  split at h
  · cases h; rfl
  · split at h
    · split at h
      · cases h; rfl
      split at h
      · cases h; rfl
      split at h
      · split at h
        · rename_i ht
          cases h
          exact validateTestCase_error ht
        · cases h
      · cases h; rfl
    · cases h; rfl
    · cases h; rfl

/-- A language that is not supported is refused with a `ValidationError`. -/
theorem resolveLanguage_error {language : JsString} {e : EngineError}
    (h : resolveLanguage language = .error e) : e.name = "ValidationError" := by
  unfold resolveLanguage at h
  split at h
  · cases h; rfl
  split at h <;> cases h
  rfl

end CodeArena.Engine
