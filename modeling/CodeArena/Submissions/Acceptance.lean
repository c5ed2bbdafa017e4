import CodeArena.Submissions.Adapter

/-!
# What the API accepts

`validateCreateSubmission` checks the body of a request before anything is stored, and
`validateExecutionRequest` checks every call of the engine.  They ask the same of the
language and of the source, except for its length: the one counts UTF-16 code units and
the other bytes of UTF-8, each up to 65536.

So the engine takes what the API accepted just when the source is not longer than 65536
bytes (`engine_accepts_iff`).  A longer one is answered with 201 and refused on its first
test case, by an error that is not retried.

## Honest boundary

`mongoose.Types.ObjectId.isValid` is a parameter, and what it takes for a problem id plays
no part.  A lone surrogate is stored as U+FFFD, which has as many bytes and is no white
space either, so it plays no part either.
-/

namespace CodeArena.Submissions

open CodeArena.Lib CodeArena.Lib.Utf
open CodeArena.Engine (Value trim toUpperCase byteLength isWhitespace Checked)

/-- The fields of a body that `validateCreateSubmission` reads. -/
structure RawBody where
  problemId : Value
  language : Value
  sourceCode : Value
deriving DecidableEq, Repr

/-- The sanitized fields of an accepted body. -/
structure Body where
  problemId : Value
  language : JsString
  sourceCode : JsString
deriving DecidableEq, Repr

/-- `MAX_SOURCE_CODE_LENGTH`. -/
def maxSourceCodeLength : Nat := 65536

/-- `validateCreateSubmission`; `isValid` tells whether a problem id is there and valid. -/
def validateCreateSubmission (isValid : Value → Bool) (body : RawBody) : Except JsError Body :=
  if isValid body.problemId then
    match body.language with
    | .string (u :: language) =>
      let normalizedLanguage := toUpperCase (trim (u :: language))
      if supportedLanguages.any (js · = normalizedLanguage) then
        match body.sourceCode with
        | .string sourceCode =>
          if trim sourceCode = [] then
            .error (appError "Source code is required and cannot be empty" 400 none)
          else if maxSourceCodeLength < sourceCode.length then
            .error (appError "Source code cannot exceed 64KB (65536 characters)" 400 none)
          else .ok ⟨body.problemId, normalizedLanguage, sourceCode⟩
        | _ => .error (appError "Source code is required and cannot be empty" 400 none)
      else
        .error (appError ("Unsupported language '" ++ .ofList (utf16Decode (u :: language)) ++
          "'. Supported languages: CPP, PYTHON, JAVASCRIPT") 400 none)
    | _ => .error (appError "Language is required" 400 none)
  else .error (appError "Valid problem ID is required" 400 none)

/-- What `createSubmission` stores of an accepted body, for the user and the problem. -/
def Body.request (b : Body) (userId problemId : ObjectId) : Request :=
  ⟨userId, problemId, .ofList (utf16Decode b.language), b.sourceCode⟩

/-- What `executeTestCase` calls the engine with for a stored submission. -/
def Request.engineRequest (req : Request) (tc : TestCase) : Engine.RawRequest :=
  Submissions.engineRequest req.language req.sourceCode tc

/-! ## Accepted bodies -/

/-- What an accepted body is: its language is a supported one, and its source is neither
blank nor too long. -/
structure Body.Accepted (b : Body) : Prop where
  language : supportedLanguages.any (js · = b.language) = true
  not_blank : trim b.sourceCode ≠ []
  length_le : b.sourceCode.length ≤ maxSourceCodeLength

theorem validateCreateSubmission_accepted {isValid : Value → Bool} {body : RawBody} {b : Body}
    (h : validateCreateSubmission isValid body = .ok b) : b.Accepted := by
  unfold validateCreateSubmission at h
  split at h
  · split at h
    · dsimp only at h
      split at h
      · rename_i hlanguage
        split at h
        · split at h
          · cases h
          · rename_i hblank
            split at h
            · cases h
            · rename_i hlength
              cases h
              exact ⟨hlanguage, hblank, Nat.le_of_not_lt hlength⟩
        · cases h
      · cases h
    · cases h
  · cases h

/-- A body is accepted where the checks on its fields pass. -/
theorem validateCreateSubmission_of_valid {isValid : Value → Bool} {problemId : Value}
    {language sourceCode : JsString} (hid : isValid problemId = true) (hne : language ≠ [])
    (hlanguage : supportedLanguages.any (js · = toUpperCase (trim language)) = true)
    (hblank : trim sourceCode ≠ []) (hlength : sourceCode.length ≤ maxSourceCodeLength) :
    validateCreateSubmission isValid ⟨problemId, .string language, .string sourceCode⟩ =
      .ok ⟨problemId, toUpperCase (trim language), sourceCode⟩ := by
  cases language with
  | nil => exact absurd rfl hne
  | cons u language =>
      unfold validateCreateSubmission
      simp only [if_pos hid, if_pos hlanguage, if_neg hblank, if_neg (Nat.not_lt.mpr hlength)]

/-- The name of a supported language is stored as it is, and the engine knows it. -/
theorem resolveLanguage_of_supported {language : JsString}
    (h : supportedLanguages.any (js · = language) = true) :
    js (.ofList (utf16Decode language)) = language ∧ language ≠ [] ∧
      ∃ config, Engine.resolveLanguage language = .ok config := by
  simp only [supportedLanguages, List.any_cons, List.any_nil, Bool.or_eq_true, decide_eq_true_eq,
    Bool.or_false] at h
  rcases h with rfl | rfl | rfl
  · exact ⟨by decide +kernel, by decide +kernel, Engine.Language.cpp.config, by decide +kernel⟩
  · exact ⟨by decide +kernel, by decide +kernel, Engine.Language.python.config, by decide +kernel⟩
  · exact ⟨by decide +kernel, by decide +kernel, Engine.Language.javascript.config,
      by decide +kernel⟩

/-- The engine's checks pass on an accepted body just when its source has not too many
bytes. -/
theorem Body.Accepted.checked_iff {b : Body} (h : b.Accepted) (userId problemId : ObjectId)
    (tc : TestCase) :
    Checked (some ((b.request userId problemId).engineRequest tc)) ↔
      byteLength b.sourceCode ≤ Engine.maxSourceCodeBytes := by
  obtain ⟨hstored, hne, config, hresolve⟩ := resolveLanguage_of_supported h.language
  have hraw : (b.request userId problemId).engineRequest tc =
      ⟨.string b.language, .string b.sourceCode, some ⟨.string tc.input, .string tc.expectedOutput⟩⟩ := by
    simp [Request.engineRequest, engineRequest, Body.request, hstored]
  rw [hraw]
  constructor
  · rintro ⟨request, -, hv, -⟩
    apply Decidable.byContradiction
    intro hbytes
    simp [Engine.validateExecutionRequest, hne, h.not_blank, hbytes] at hv
  · intro hbytes
    refine ⟨⟨b.language, b.sourceCode, some tc.input, tc.expectedOutput, hne, h.not_blank, hbytes⟩,
      config, ?_, hresolve⟩
    simp [Engine.validateExecutionRequest, Engine.validateTestCase, hne, h.not_blank, hbytes]

/-- A call of the engine is answered by a non-retryable error only where the request does
not pass its checks. -/
theorem nonRetryable_iff {host : Engine.Host} {raw : Option Engine.RawRequest} {r : EngineReply}
    {e : JsError} (hr : reply (Engine.execute host raw).outcome = some r)
    (he : executeTestCase r = .error e) : isNonRetryableError e = true ↔ ¬ Checked raw := by
  cases hout : (Engine.execute host raw).outcome with
  | pending => rw [hout] at hr; cases hr
  | resolved result => rw [hout] at hr; cases hr; cases he
  | rejected err =>
      rw [hout] at hr
      cases hr
      rw [← Engine.execute_rejected_name hout]
      by_cases hname : err.name = "ValidationError"
      · obtain rfl : appError (.ofList (utf16Decode err.message)) 400 none = e := by
          simpa [executeTestCase, engineError, hname] using he
        exact iff_of_true rfl hname
      · obtain rfl : appError "Internal execution engine failure" 500 none = e := by
          simpa [executeTestCase, engineError, hname] using he
        exact iff_of_false (by decide) hname

/-- **The engine takes what the API accepted just when the source has at most 65536
bytes.**  For every body that `validateCreateSubmission` lets through and every test case:
the call of the engine passes its checks, and no call comes to an error that is not
retried, if and only if the source is not longer than that in UTF-8. -/
theorem engine_accepts_iff {isValid : Value → Bool} {body : RawBody} {b : Body}
    (h : validateCreateSubmission isValid body = .ok b) (userId problemId : ObjectId)
    (tc : TestCase) :
    (Checked (some ((b.request userId problemId).engineRequest tc)) ∧
      ∀ host r e, reply (Engine.execute host
          (some ((b.request userId problemId).engineRequest tc))).outcome = some r →
        executeTestCase r = .error e → isNonRetryableError e = false) ↔
      byteLength b.sourceCode ≤ Engine.maxSourceCodeBytes := by
  rw [← (validateCreateSubmission_accepted h).checked_iff userId problemId tc]
  constructor
  · exact fun h ↦ h.1
  · intro hchecked
    refine ⟨hchecked, fun host r e hr he ↦ Bool.eq_false_iff.mpr fun hn ↦ ?_⟩
    exact (nonRetryable_iff hr he).mp hn hchecked

/-- A source that is well below both limits. -/
theorem engine_accepts_iff_short :
    (Checked (some (Request.engineRequest
        ((⟨.string (js "65a1b2c3d4e5f60718293a4b"), js "PYTHON", js "print(1)"⟩ : Body).request
          1 2) Label.sampleTest)) ∧
      ∀ host r e, reply (Engine.execute host (some (Request.engineRequest
          ((⟨.string (js "65a1b2c3d4e5f60718293a4b"), js "PYTHON", js "print(1)"⟩ : Body).request
            1 2) Label.sampleTest))).outcome = some r →
        executeTestCase r = .error e → isNonRetryableError e = false) ↔
      byteLength (js "print(1)") ≤ Engine.maxSourceCodeBytes :=
  @engine_accepts_iff (fun _ ↦ true)
    ⟨.string (js "65a1b2c3d4e5f60718293a4b"), .string (js " python "), .string (js "print(1)")⟩
    _ (by decide +kernel) 1 2 Label.sampleTest

/-! ## A source that is too long for the engine -/

/-- A text with a character that is not white space is not blank. -/
theorem trim_ne_nil {s : JsString} {u : CodeUnit} (hu : u ∈ s) (h : isWhitespace u = false) :
    trim s ≠ [] := by
  intro htrim
  have hall := List.rdropWhile_eq_nil_iff.mp htrim
  rw [← List.takeWhile_append_dropWhile (p := isWhitespace) (l := s), List.mem_append] at hu
  rcases hu with hu | hu
  · have := List.mem_takeWhile_imp hu
    rw [h] at this
    cases this
  · have := hall u hu
    rw [h] at this
    cases this

/-- A text of two-byte characters. -/
theorem byteLength_replicate (n : Nat) : byteLength (List.replicate n 0xE9) = 2 * n := by
  match n with
  | 0 => rfl
  | 1 => rfl
  | n + 2 =>
    have ih := byteLength_replicate (n + 1)
    rw [List.replicate_succ, List.replicate_succ, byteLength, if_neg (by decide),
      if_pos (by decide), ← List.replicate_succ, ih]
    omega

/-- A body whose source has 40000 characters of two bytes each. -/
def longBody : RawBody :=
  ⟨.string (js "65a1b2c3d4e5f60718293a4b"), .string (js "PYTHON"),
    .string (List.replicate 40000 0xE9)⟩

/-- What is left of it once it is accepted. -/
def longAccepted : Body :=
  ⟨.string (js "65a1b2c3d4e5f60718293a4b"), js "PYTHON", List.replicate 40000 0xE9⟩

theorem longBody_accepted :
    validateCreateSubmission (fun _ ↦ true) longBody = .ok longAccepted := by
  have hlength : (List.replicate 40000 (0xE9 : CodeUnit)).length ≤ maxSourceCodeLength := by
    rw [List.length_replicate]
    decide
  have hblank : trim (List.replicate 40000 0xE9) ≠ [] :=
    trim_ne_nil (List.mem_replicate.mpr ⟨by decide, rfl⟩) (by decide)
  have hupper : toUpperCase (trim (js "PYTHON")) = js "PYTHON" := by decide +kernel
  have h := @validateCreateSubmission_of_valid (fun _ ↦ true)
    (.string (js "65a1b2c3d4e5f60718293a4b")) (js "PYTHON") _ rfl
    (by decide +kernel) (by decide +kernel) hblank hlength
  rwa [hupper] at h

/-- **A source of 80000 bytes is accepted, and refused by the engine.**  It passes the API
and the schema; on every test case, whatever the host, the call of the engine fails its
checks and comes to an error that is not retried. -/
theorem engine_refuses_long :
    validateCreateSubmission (fun _ ↦ true) longBody = .ok longAccepted ∧
    schemaAccepts (longAccepted.request 1 2) = true ∧
    ∀ tc, ¬ Checked (some ((longAccepted.request 1 2).engineRequest tc)) ∧
      ∀ host, ∃ r e, reply (Engine.execute host
          (some ((longAccepted.request 1 2).engineRequest tc))).outcome = some r ∧
        executeTestCase r = .error e ∧ isNonRetryableError e = true := by
  have haccepted := validateCreateSubmission_accepted longBody_accepted
  refine ⟨longBody_accepted, ?_, fun tc ↦ ?_⟩
  · have hlanguage : (longAccepted.request 1 2).language ∈ supportedLanguages := by decide +kernel
    have hne : (longAccepted.request 1 2).sourceCode ≠ [] := List.replicate_succ_ne_nil
    have hlength : (longAccepted.request 1 2).sourceCode.length ≤ 65536 := haccepted.length_le
    exact decide_eq_true ⟨hlanguage, hne, hlength⟩
  have hchecked : ¬ Checked (some ((longAccepted.request 1 2).engineRequest tc)) := by
    rw [haccepted.checked_iff, show longAccepted.sourceCode = List.replicate 40000 0xE9 from rfl,
      byteLength_replicate]
    decide
  refine ⟨hchecked, fun host ↦ ?_⟩
  obtain ⟨e, he⟩ := @Engine.execute_of_not_checked host _ hchecked
  have hname := (Engine.execute_rejected_name he).mpr hchecked
  have hr : reply (Engine.execute host
      (some ((longAccepted.request 1 2).engineRequest tc))).outcome =
        some (some (.error (engineError e))) := by rw [he]; rfl
  have herror : executeTestCase (some (.error (engineError e))) =
      .error (appError (.ofList (utf16Decode e.message)) 400 none) := by
    simp [executeTestCase, engineError, hname]
  exact ⟨_, _, hr, herror, (nonRetryable_iff hr herror).mpr hchecked⟩

end CodeArena.Submissions
