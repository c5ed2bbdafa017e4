import CodeArena.Api.Validated

/-!
# Bodies and schemas

What Mongoose makes of a body that a validator let through: `TestCase.create`,
`Problem.create` and the assignments of an update cast the fields of the body to the types of
the schema, and the document is checked when it is saved.

The validators and the schemas are written down separately, and they disagree on the empty
string.  A validator takes any string for the input and the output of a test case or of an
example, and `required` refuses one that is empty.  Apart from that, a body that is created
from has fields that no validator looks at and that are paths of the schema all the same: the
version `__v`, and keys with a dot (`validators_agree_iff`).

## Honest boundary

The casts of Mongoose are a parameter, with what is documented of them for values that have
the type of the schema already.  In strict mode a field that is no path of the schema is left
out.
-/

namespace CodeArena.Api

universe u

open CodeArena.Lib CodeArena.Lib.Utf
open CodeArena.Lib.OrderedMap (find?)
open CodeArena.Engine (trim)
open CodeArena.Submissions (ObjectId Time JsError appError mongooseValidationError)

/-- The casts of Mongoose. -/
structure Mongoose where
  /-- A value on a path of type String; `none` where it does not cast, or casts to nothing. -/
  castString : Json → Option JsString
  /-- A value on a path of type Number. -/
  castNumber : Json → Option Number
  /-- Whether a value is accepted as the version of a document. -/
  acceptsVersion : Json → Bool
  /-- What the keys with a dot make of the tags and of the examples; an example whose input or
  output is not set has it empty. -/
  setPaths : Fields → List JsString × List Example → Option (List JsString × List Example)
  castString_string : ∀ s, castString (.string s) = some s
  castNumber_number : ∀ n, castNumber (.number n) = some n
  setPaths_nil : ∀ c, setPaths [] c = some c

namespace Mongoose

variable (m : Mongoose)

/-! ## Casts -/

/-- A value on a path with an array. -/
def castArray {α : Type u} (cast : Json → Option α) : Json → Option (List α)
  | .array items => items.mapM cast
  | v => (cast v).map fun a ↦ [a]

/-- An example. -/
def castExample (ex : Json) : Option Example := do
  let input ← (ex.field (js "input")).bind m.castString
  let output ← (ex.field (js "output")).bind m.castString
  return ⟨input, output⟩

/-- A value of `visibility`. -/
def castVisibility (v : Json) : Option Visibility :=
  (m.castString v).bind fun s ↦ [Visibility.pub, .hidden].find? fun w ↦ w.name = s

/-- A value of `difficulty`. -/
def castDifficulty (v : Json) : Option Difficulty :=
  (m.castString v).bind fun s ↦ [Difficulty.easy, .medium, .hard].find? fun d ↦ d.name = s

/-- The version of a new document, where one is given. -/
def versionAccepted (fields : Fields) : Bool :=
  match find? (js "__v") fields with
  | none => true
  | some v => m.acceptsVersion v

/-- The content of a new test case. -/
def testCaseData (data : Fields) : Option TestCaseData := do
  let input ← (find? (js "input") data).bind m.castString
  let expectedOutput ← (find? (js "expectedOutput") data).bind m.castString
  let visibility ← (find? (js "visibility") data).bind m.castVisibility
  let order ← (find? (js "order") data).bind m.castNumber
  if m.versionAccepted data then some ⟨input, expectedOutput, visibility, order⟩ else none

/-- The content of a new problem. -/
def problemData (data : Fields) : Option ProblemData := do
  let title ← (find? (js "title") data).bind m.castString
  let description ← (find? (js "description") data).bind m.castString
  let difficulty ← (find? (js "difficulty") data).bind m.castDifficulty
  let tags ← ((find? (js "tags") data).getD (.array []) |> castArray m.castString)
  let inputFormat ← (find? (js "inputFormat") data).bind m.castString
  let outputFormat ← (find? (js "outputFormat") data).bind m.castString
  let constraints ← (find? (js "constraints") data).bind m.castString
  let examples ← (find? (js "examples") data).bind (castArray m.castExample)
  let (tags, examples) ← m.setPaths (data.filter fun e ↦ isPath e.1) (tags, examples)
  if m.versionAccepted data then
    some ⟨title, description, difficulty, tags, inputFormat, outputFormat, constraints, examples⟩
  else none

/-- A field of an update, which may be absent. -/
def given {α : Type u} (cast : Json → Option α) : Option Json → Option (Option α)
  | none => some none
  | some v => (cast v).map some

/-- The fields of a test case that an update sets. -/
def testCaseUpdate (updateData : Fields) : Option TestCaseUpdate := do
  let input ← given m.castString (find? (js "input") updateData)
  let expectedOutput ← given m.castString (find? (js "expectedOutput") updateData)
  let visibility ← given m.castVisibility (find? (js "visibility") updateData)
  let order ← given m.castNumber (find? (js "order") updateData)
  return ⟨input, expectedOutput, visibility, order⟩

/-- The fields of a problem that an update sets. -/
def problemUpdate (updateData : Fields) : Option ProblemUpdate := do
  let title ← given m.castString (find? (js "title") updateData)
  let description ← given m.castString (find? (js "description") updateData)
  let difficulty ← given m.castDifficulty (find? (js "difficulty") updateData)
  let tags ← given (castArray m.castString) (find? (js "tags") updateData)
  let inputFormat ← given m.castString (find? (js "inputFormat") updateData)
  let outputFormat ← given m.castString (find? (js "outputFormat") updateData)
  let constraints ← given m.castString (find? (js "constraints") updateData)
  let examples ← given (castArray m.castExample) (find? (js "examples") updateData)
  return ⟨title, description, difficulty, tags, inputFormat, outputFormat, constraints, examples⟩

/-! ## The services, on what the validators leave -/

/-- `createTestCase`, from the body of a request. -/
def createTestCase (now : Time) (id problemId : ObjectId) (data : Fields) (db : Database) :
    Except JsError (TestCase × Database) :=
  match db.findProblem problemId with
  | none => .error (appError "Problem not found" 404 none)
  | some _ =>
    match m.testCaseData data with
    | none => .error mongooseValidationError
    | some d => Api.createTestCase now id problemId d db

/-- `updateTestCase`, from the body of a request. -/
def updateTestCase (now : Time) (testCaseId : ObjectId) (updateData : Fields) (db : Database) :
    Except JsError (TestCase × Database) :=
  match db.findTestCase testCaseId with
  | none => .error (appError "Test case not found" 404 none)
  | some _ =>
    match m.testCaseUpdate updateData with
    | none => .error mongooseValidationError
    | some u => Api.updateTestCase now testCaseId u db

/-- `createProblem`, from the body of a request. -/
def createProblem (now : Time) (id : ObjectId) (data : Fields) (authorId : ObjectId)
    (db : Database) : Except JsError (ProblemDetails × Database) :=
  match m.problemData data with
  | none => .error mongooseValidationError
  | some d => Api.createProblem now id d authorId db

/-- `updateProblem`, from the body of a request. -/
def updateProblem (now : Time) (problemId : ObjectId) (updateData : Fields) (db : Database) :
    Except JsError (ProblemDetails × Database) :=
  match db.findProblem problemId with
  | none => .error problemNotFound
  | some _ =>
    match m.problemUpdate updateData with
    | none => .error mongooseValidationError
    | some u => Api.updateProblem now problemId u db

/-! ## What has the type of its path -/

section

variable {m}

theorem mapM_eq_map {α β : Type} {f : α → Option β} {g : α → β} {xs : List α}
    (h : ∀ x ∈ xs, f x = some (g x)) : xs.mapM f = some (xs.map g) := by
  induction xs with
  | nil => rfl
  | cons x xs ih =>
      rw [List.mapM_cons, h x List.mem_cons_self, ih fun y hy ↦ h y (List.mem_cons_of_mem x hy)]
      rfl

theorem castVisibility_name (v : Visibility) : m.castVisibility (.string v.name) = some v := by
  rw [castVisibility, m.castString_string]
  cases v <;> rfl

theorem castDifficulty_name (d : Difficulty) : m.castDifficulty (.string d.name) = some d := by
  rw [castDifficulty, m.castString_string]
  cases d <;> rfl

theorem castArray_tagItems (tags : List JsString) :
    castArray m.castString (tagItems tags) = some tags := by
  rw [tagItems, castArray]
  induction tags with
  | nil => rfl
  | cons t ts ih =>
      rw [List.map_cons, List.mapM_cons, m.castString_string, ih]
      rfl

theorem field_of_hasString {j : Json} {name : JsString} (h : hasString j name = true) :
    j.field name = some (.string (j.text name)) := by
  unfold hasString at h
  split at h
  · rename_i s hfield
    rw [hfield, Json.text_of_field hfield]
  · cases h

theorem castExample_eq {ex : Json} (h : isExample ex = true) :
    m.castExample ex = some (Example.ofJson ex) := by
  obtain ⟨hinput, houtput⟩ := Bool.and_eq_true_iff.mp h
  rw [castExample, field_of_hasString hinput, field_of_hasString houtput]
  simp only [Option.bind_some, m.castString_string]
  rfl

theorem castArray_examples {items : List Json} (h : ∀ ex ∈ items, isExample ex = true) :
    castArray m.castExample (.array items) = some (items.map Example.ofJson) :=
  mapM_eq_map fun ex hex ↦ castExample_eq (h ex hex)

theorem given_map {α : Type} {cast : Json → Option α} {f : α → Json}
    (h : ∀ a, cast (f a) = some a) (a : Option α) : given cast (a.map f) = some a := by
  cases a with
  | none => rfl
  | some a => simp [given, h]

theorem testCaseData_eq {d : TestCaseData} {fields : Fields} (h : d.IsIn fields) :
    m.testCaseData fields = if m.versionAccepted fields then some d else none := by
  rw [testCaseData, h.input, h.expectedOutput, h.visibility, h.order]
  simp only [Option.bind_some, m.castString_string, castVisibility_name, m.castNumber_number]
  rfl

theorem testCaseUpdate_eq {u : TestCaseUpdate} {fields : Fields} (h : u.IsIn fields) :
    m.testCaseUpdate fields = some u := by
  rw [testCaseUpdate, h.input, h.expectedOutput, h.visibility, h.order,
    given_map m.castString_string, given_map m.castString_string, given_map castVisibility_name,
    given_map m.castNumber_number]
  rfl

theorem problemData_eq {d : ProblemData} {fields : Fields} (h : d.IsIn fields) :
    m.problemData fields =
      (m.setPaths (fields.filter fun e ↦ isPath e.1) (d.tags, d.examples)).bind fun c ↦
        if m.versionAccepted fields then some { d with tags := c.1, examples := c.2 } else none := by
  obtain ⟨items, hitems, hexamples, hall⟩ := h.examples
  rw [problemData, h.title, h.description, h.difficulty, h.tags, h.inputFormat, h.outputFormat,
    h.constraints, hitems]
  simp only [Option.bind_some, Option.getD_some, m.castString_string, castDifficulty_name,
    castArray_tagItems, castArray_examples hall, ← hexamples]
  rfl

theorem problemUpdate_eq {u : ProblemUpdate} {fields : Fields} (h : u.IsIn fields) :
    m.problemUpdate fields = some u := by
  obtain ⟨items, hitems, hexamples, hall⟩ := h.examples
  have hcast : given (castArray m.castExample) (items.map .array) = some u.examples := by
    rw [hexamples]
    cases items with
    | none => rfl
    | some xs => simp [given, castArray_examples (hall xs rfl)]
  rw [problemUpdate, h.title, h.description, h.difficulty, h.tags, h.inputFormat, h.outputFormat,
    h.constraints, hitems, hcast, given_map m.castString_string, given_map m.castString_string,
    given_map castDifficulty_name, given_map castArray_tagItems, given_map m.castString_string,
    given_map m.castString_string, given_map m.castString_string]
  rfl

end

/-! ## Where the validators and the schemas agree -/

/-- None of the fields is the empty string. -/
def NoneEmpty (names : List JsString) (fields : Fields) : Prop :=
  ∀ k ∈ names, find? k fields ≠ some (.string [])

/-- Every example of the body has something as its input and as its output. -/
def ExamplesFilled (fields : Fields) : Prop :=
  ∀ ex ∈ exampleItems fields, NoneEmpty [js "input", js "output"] ex.entries

/-- The same of the examples that the keys with a dot leave, where their values cast. -/
def PathsFilled (fields : Fields) : Prop :=
  ∃ tags examples, m.setPaths (fields.filter fun e ↦ isPath e.1)
      (tagsIn fields, (exampleItems fields).map Example.ofJson) = some (tags, examples) ∧
    examples ≠ [] ∧ ∀ e ∈ examples, e.input ≠ [] ∧ e.output ≠ []

section

variable {m} {body : Option Json} {fields : Fields} {now : Time} {db : Database}

theorem noneEmpty_pair {a b : JsString} :
    NoneEmpty [a, b] fields ↔
      find? a fields ≠ some (.string []) ∧ find? b fields ≠ some (.string []) := by
  simp [NoneEmpty]

theorem isExample_filled {ex : Json} (h : isExample ex = true) :
    NoneEmpty [js "input", js "output"] ex.entries ↔
      (Example.ofJson ex).input ≠ [] ∧ (Example.ofJson ex).output ≠ [] := by
  obtain ⟨hinput, houtput⟩ := Bool.and_eq_true_iff.mp h
  have hfield : ∀ {name}, hasString ex name = true →
      (find? name ex.entries ≠ some (.string []) ↔ ex.text name ≠ []) := by
    intro name hname
    have := field_of_hasString hname
    rw [Json.field] at this
    rw [this]
    simp
  rw [noneEmpty_pair, hfield hinput, hfield houtput]
  rfl

/-- The examples of a body, as the schema checks them. -/
theorem examplesFilled_iff (hall : ∀ ex ∈ exampleItems fields, isExample ex = true) :
    ExamplesFilled fields ↔
      ∀ e ∈ (exampleItems fields).map Example.ofJson, e.input ≠ [] ∧ e.output ≠ [] := by
  rw [ExamplesFilled, List.forall_mem_map]
  exact forall₂_congr fun ex hex ↦ isExample_filled (hall ex hex)

theorem testCase_accepted_iff {d : TestCaseData} (h : d.IsIn fields) (horder : 0 ≤ d.order) :
    d.accepted = true ↔ NoneEmpty [js "input", js "expectedOutput"] fields := by
  rw [noneEmpty_pair, h.input, h.expectedOutput]
  simp [TestCaseData.accepted, horder]

/-- **A new test case** is stored if its input and its expected output are not empty, and its
version is accepted. -/
theorem createTestCase_iff (h : validateCreateTestCase body = .ok fields) {id problemId : ObjectId}
    (hproblem : (db.findProblem problemId).isSome) (hid : id ∉ db.testCases.map TestCase.id) :
    (∃ t db', m.createTestCase now id problemId fields db = .ok (t, db')) ↔
      NoneEmpty [js "input", js "expectedOutput"] (bodyFields body) ∧
        m.versionAccepted (bodyFields body) = true := by
  obtain ⟨d, hbefore, hafter, horder, hothers⟩ := validateCreateTestCase_ok h
  obtain ⟨p, hp⟩ := Option.isSome_iff_exists.mp hproblem
  have hversion : m.versionAccepted fields = m.versionAccepted (bodyFields body) := by
    rw [versionAccepted, versionAccepted, hothers _ (by decide +kernel)]
  rw [createTestCase, hp, testCaseData_eq hafter, hversion, ← testCase_accepted_iff hbefore horder]
  by_cases hv : m.versionAccepted (bodyFields body) = true
  · by_cases ha : d.accepted = true
    · simp [hv, ha, Api.createTestCase, hp, hid]
    · simp [hv, ha, Api.createTestCase, hp]
  · simp [hv]

/-- The content of a test case after an update. -/
theorem testCaseUpdate_accepted_iff {u : TestCaseUpdate} {d : TestCaseData} (h : u.IsIn fields)
    (horder : ∀ n ∈ u.order, 0 ≤ n) (hd : d.accepted = true) :
    (u.apply d).accepted = true ↔ NoneEmpty [js "input", js "expectedOutput"] fields := by
  simp only [TestCaseData.accepted, decide_eq_true_iff] at hd
  have htext : ∀ {given : Option JsString} {s : JsString}, s ≠ [] →
      (given.getD s ≠ [] ↔ given.map Json.string ≠ some (.string [])) := by
    intro given s hs
    cases given <;> simp [hs]
  have hnonneg : 0 ≤ u.order.getD d.order := by
    cases hn : u.order with
    | none => exact hd.2.2
    | some n => exact horder n hn
  rw [noneEmpty_pair, h.input, h.expectedOutput, ← htext hd.1, ← htext hd.2.1]
  simp only [TestCaseData.accepted, TestCaseUpdate.apply, decide_eq_true_iff, hnonneg, and_true]

/-- **An update of a test case** is stored if the input and the expected output that it sets
are not empty; the test case stays the same one, of the same problem. -/
theorem updateTestCase_iff (h : validateUpdateTestCase body = .ok fields) {t : TestCase}
    (ht : t ∈ db.testCases) (haccepted : t.accepted = true) :
    (∃ t' db', m.updateTestCase now t.id fields db = .ok (t', db') ∧ t'.id = t.id ∧
      t'.problemId = t.problemId ∧ t'.isActive = t.isActive) ↔
      NoneEmpty [js "input", js "expectedOutput"] (bodyFields body) := by
  obtain ⟨u, hbefore, hafter, horder⟩ := validateUpdateTestCase_ok h
  have hfind : db.findTestCase t.id = some t :=
    (Database.find?_id_eq_some db.testCases_nodup).mpr ⟨ht, rfl⟩
  rw [updateTestCase, hfind, testCaseUpdate_eq hafter,
    ← testCaseUpdate_accepted_iff hbefore horder haccepted]
  simp only [Api.updateTestCase, hfind]
  by_cases ha : (u.apply t.toTestCaseData).accepted = true
  · rw [if_pos ha]
    refine ⟨fun _ ↦ ha, fun _ ↦ ⟨_, _, rfl, ?_⟩⟩
    unfold TestCase.update
    split
    · exact ⟨rfl, rfl, rfl⟩
    · exact ⟨rfl, rfl, rfl⟩
  · rw [if_neg ha]
    constructor
    · rintro ⟨_, _, heq, -⟩
      cases heq
    · exact fun h ↦ absurd h ha

/-- The content of a problem that a validator lets through, with tags and examples of its
own. -/
theorem problem_accepted_iff {d : ProblemData} (h : d.Sanitized) (tags : List JsString)
    (examples : List Example) :
    ({ d with tags, examples } : ProblemData).accepted = true ↔
      examples ≠ [] ∧ ∀ e ∈ examples, e.input ≠ [] ∧ e.output ≠ [] := by
  have hlength : (trim d.title).length ≤ 200 := by
    rw [h.title.trim_eq]
    exact h.title_length
  simp only [ProblemData.accepted, decide_eq_true_iff, h.title.trim_ne_nil, hlength,
    h.description.trim_ne_nil, h.inputFormat.trim_ne_nil, h.outputFormat.trim_ne_nil,
    h.constraints.trim_ne_nil, ne_eq, not_false_eq_true, true_and]

/-- **A new problem** is stored if its version is accepted and every example is filled, with
the keys that have a dot taken into account. -/
theorem createProblem_iff (h : validateCreateProblem body = .ok fields) {id authorId : ObjectId}
    (hid : id ∉ db.problems.map Problem.id) :
    (∃ r db', m.createProblem now id fields authorId db = .ok (r, db')) ↔
      m.versionAccepted (bodyFields body) = true ∧ m.PathsFilled (bodyFields body) := by
  obtain ⟨d, hin, hsane, htags, hexamples, -, hothers, hpaths⟩ := validateCreateProblem_ok h
  have hversion : m.versionAccepted fields = m.versionAccepted (bodyFields body) := by
    rw [versionAccepted, versionAccepted, hothers _ (by decide +kernel)]
  rw [createProblem, problemData_eq hin, hversion, hpaths, PathsFilled, ← htags, ← hexamples]
  cases hset : m.setPaths ((bodyFields body).filter fun e ↦ isPath e.1) (d.tags, d.examples) with
  | none => simp
  | some c =>
      obtain ⟨tags, examples⟩ := c
      rw [Option.bind_some]
      by_cases hv : m.versionAccepted (bodyFields body) = true
      · rw [if_pos hv]
        have haccepted := problem_accepted_iff hsane tags examples
        simp only [Api.createProblem, hv, true_and, Option.some.injEq, Prod.mk.injEq]
        by_cases ha : ({ d with tags, examples } : ProblemData).accepted = true
        · rw [if_pos ha, dif_pos hid]
          exact ⟨fun _ ↦ ⟨_, _, ⟨rfl, rfl⟩, haccepted.mp ha⟩, fun _ ↦ ⟨_, _, rfl⟩⟩
        · rw [if_neg ha]
          constructor
          · rintro ⟨_, _, heq⟩
            cases heq
          · rintro ⟨_, _, ⟨rfl, rfl⟩, hfilled⟩
            exact absurd (haccepted.mpr hfilled) ha
      · rw [if_neg hv]
        simp [hv]

/-- The content of a problem after an update. -/
theorem problemUpdate_accepted_iff {u : ProblemUpdate} {d : ProblemData} (h : u.Sanitized)
    (hd : d.accepted = true) :
    (u.apply d).accepted = true ↔
      ∀ e ∈ u.examples.getD [], e.input ≠ [] ∧ e.output ≠ [] := by
  simp only [ProblemData.accepted, decide_eq_true_iff] at hd
  obtain ⟨⟨htitle, hlength, hdescription, hinput, houtput, hconstraints⟩, hne, hfilled⟩ := hd
  have htext : ∀ {given : Option JsString} {s : JsString}, (∀ t ∈ given, Trimmed t) →
      trim s ≠ [] → trim ((given.map trim).getD s) ≠ [] := by
    intro given s hgiven hs
    cases given with
    | none => exact hs
    | some t =>
        show trim (trim t) ≠ []
        rw [trim_trim]
        exact (hgiven t rfl).trim_ne_nil
  have hlength' : (trim ((u.title.map trim).getD d.title)).length ≤ 200 := by
    cases ht : u.title with
    | none => exact hlength
    | some t =>
        show (trim (trim t)).length ≤ 200
        rw [trim_trim, (h.title t ht).1.trim_eq]
        exact (h.title t ht).2
  have hexamples : (u.examples.getD d.examples ≠ [] ∧
      ∀ e ∈ u.examples.getD d.examples, e.input ≠ [] ∧ e.output ≠ []) ↔
      ∀ e ∈ u.examples.getD [], e.input ≠ [] ∧ e.output ≠ [] := by
    cases hes : u.examples with
    | none =>
        constructor
        · exact fun _ e he ↦ nomatch he
        · exact fun _ ↦ ⟨hne, hfilled⟩
    | some es =>
        constructor
        · exact fun h ↦ h.2
        · exact fun h' ↦ ⟨h.examples es hes, h'⟩
  simp only [ProblemData.accepted, ProblemUpdate.apply, decide_eq_true_iff,
    htext (fun t ht ↦ (h.title t ht).1) htitle, hlength', htext h.description hdescription,
    htext h.inputFormat hinput, htext h.outputFormat houtput, htext h.constraints hconstraints,
    ne_eq, not_false_eq_true, true_and]
  exact hexamples

/-- **An update of a problem** is stored if the examples that it sets are filled; the problem
stays the same one, of the same author. -/
theorem updateProblem_iff (h : validateUpdateProblem body = .ok fields) {p : Problem}
    (hp : p ∈ db.problems) (haccepted : p.accepted = true) :
    (∃ r db', m.updateProblem now p.id fields db = .ok (r, db') ∧ r.problem.id = p.id ∧
      r.problem.authorId = p.authorId ∧ r.problem.isActive = p.isActive) ↔
      ExamplesFilled (bodyFields body) := by
  obtain ⟨u, hin, hsane, hexamples, hall⟩ := validateUpdateProblem_ok h
  have hfind : db.findProblem p.id = some p := Database.findProblem_eq_some.mpr ⟨hp, rfl⟩
  rw [updateProblem, hfind, problemUpdate_eq hin, examplesFilled_iff hall, ← hexamples,
    ← problemUpdate_accepted_iff hsane haccepted]
  simp only [Api.updateProblem, hfind]
  by_cases ha : (u.apply p.toProblemData).accepted = true
  · rw [if_pos ha]
    refine ⟨fun _ ↦ ha, fun _ ↦ ⟨_, _, rfl, ?_⟩⟩
    show (p.update now (u.apply p.toProblemData)).id = p.id ∧ _
    unfold Problem.update
    split
    · exact ⟨rfl, rfl, rfl⟩
    · exact ⟨rfl, rfl, rfl⟩
  · rw [if_neg ha]
    constructor
    · rintro ⟨_, _, heq, -⟩
      cases heq
    · exact fun h ↦ absurd h ha

end

/-! ## All four -/

/-- **Where the validators and the schemas agree.**  What a validator lets through is stored,
and an update leaves the document its own, exactly if no string that the schema requires is
empty; and of a body that is created from, if its version and its keys with a dot are
accepted. -/
theorem validators_agree_iff (m : Mongoose) (body : Option Json) (fields : Fields) (now : Time)
    (db : Database) :
    (validateCreateTestCase body = .ok fields → ∀ id problemId,
      (db.findProblem problemId).isSome → id ∉ db.testCases.map TestCase.id →
      ((∃ t db', m.createTestCase now id problemId fields db = .ok (t, db')) ↔
        NoneEmpty [js "input", js "expectedOutput"] (bodyFields body) ∧
          m.versionAccepted (bodyFields body) = true)) ∧
    (validateCreateProblem body = .ok fields → ∀ id authorId, id ∉ db.problems.map Problem.id →
      ((∃ r db', m.createProblem now id fields authorId db = .ok (r, db')) ↔
        m.versionAccepted (bodyFields body) = true ∧ m.PathsFilled (bodyFields body))) ∧
    (validateUpdateTestCase body = .ok fields → ∀ t ∈ db.testCases, t.accepted = true →
      ((∃ t' db', m.updateTestCase now t.id fields db = .ok (t', db') ∧ t'.id = t.id ∧
        t'.problemId = t.problemId ∧ t'.isActive = t.isActive) ↔
        NoneEmpty [js "input", js "expectedOutput"] (bodyFields body))) ∧
    (validateUpdateProblem body = .ok fields → ∀ p ∈ db.problems, p.accepted = true →
      ((∃ r db', m.updateProblem now p.id fields db = .ok (r, db') ∧ r.problem.id = p.id ∧
        r.problem.authorId = p.authorId ∧ r.problem.isActive = p.isActive) ↔
        ExamplesFilled (bodyFields body))) :=
  ⟨fun h _ _ hproblem hid ↦ createTestCase_iff h hproblem hid,
    fun h _ _ hid ↦ createProblem_iff h hid,
    fun h _ ht haccepted ↦ updateTestCase_iff h ht haccepted,
    fun h _ hp haccepted ↦ updateProblem_iff h hp haccepted⟩

/-- Casts for examples: of strings and of numbers only, without keys that have a dot. -/
def sample : Mongoose where
  castString
    | .string s => some s
    | _ => none
  castNumber
    | .number n => some n
    | _ => none
  acceptsVersion
    | .number _ => true
    | _ => false
  setPaths paths c := if paths.isEmpty then some c else none
  castString_string _ := rfl
  castNumber_number _ := rfl
  setPaths_nil _ := rfl

/-- The body of a request for a test case. -/
def testCaseBody (input expectedOutput : JsString) : Json :=
  .object [(js "input", .string input), (js "expectedOutput", .string expectedOutput),
    (js "visibility", .string (js "PUBLIC")), (js "order", .number 0)]

/-- The body of a request that sets the examples of a problem to one. -/
def examplesBody (input output : JsString) : Json :=
  .object [(js "examples", .array [.object
    [(js "input", .string input), (js "output", .string output)]])]

/-- The body of a request for a problem. -/
def problemBody (input output : JsString) : Json :=
  .object ([(js "title", .string (js "Sum")), (js "description", .string (js "Add")),
    (js "difficulty", .string (js "EASY")), (js "tags", .array [.string (js "math")]),
    (js "inputFormat", .string (js "two")), (js "outputFormat", .string (js "one")),
    (js "constraints", .string (js "none"))] ++ (examplesBody input output).entries)

/-- A database with a problem and a test case of it. -/
def withProblem : Database :=
  ⟨[.sample 1 true], [.sample 2 1 .pub], [], List.nodup_singleton _, List.nodup_singleton _⟩

/-- A test case, a problem and updates of both, with nothing empty. -/
theorem validators_agree_iff_filled :
    (∃ t db', sample.createTestCase 0 3 1 (testCaseBody (js "1") (js "2")).entries withProblem =
      .ok (t, db')) ∧
    (∃ r db', sample.createProblem 0 4 (problemBody (js "1") (js "2")).entries 5 withProblem =
      .ok (r, db')) ∧
    (∃ t db', sample.updateTestCase 0 2 (testCaseBody (js "1") (js "2")).entries withProblem =
      .ok (t, db') ∧ t.id = 2 ∧ t.problemId = 1 ∧ t.isActive = true) ∧
    (∃ r db', sample.updateProblem 0 1 (examplesBody (js "1") (js "2")).entries withProblem =
      .ok (r, db') ∧ r.problem.id = 1 ∧ r.problem.authorId = 1 ∧ r.problem.isActive = true) := by
  have hsome : ∀ {u : CodeUnit} {s : JsString}, some (Json.string (u :: s)) ≠ some (.string []) :=
    nofun
  have htest : NoneEmpty [js "input", js "expectedOutput"]
      (testCaseBody (js "1") (js "2")).entries := noneEmpty_pair.mpr ⟨hsome, hsome⟩
  have hexample : ∀ ex ∈ [Json.object [(js "input", .string (js "1")),
      (js "output", .string (js "2"))]], NoneEmpty [js "input", js "output"] ex.entries := by
    intro ex hex
    rw [List.mem_singleton.mp hex]
    exact noneEmpty_pair.mpr ⟨hsome, hsome⟩
  refine ⟨?_, ?_, ?_, ?_⟩
  · exact ((validators_agree_iff sample (some (testCaseBody (js "1") (js "2"))) _ 0
      withProblem).1 rfl 3 1 rfl (by decide)).mpr ⟨htest, rfl⟩
  · exact ((validators_agree_iff sample (some (problemBody (js "1") (js "2"))) _ 0
      withProblem).2.1 rfl 4 5 (by decide)).mpr ⟨rfl, [js "math"], [⟨js "1", js "2"⟩], rfl,
        by decide, by decide⟩
  · exact ((validators_agree_iff sample (some (testCaseBody (js "1") (js "2"))) _ 0
      withProblem).2.2.1 rfl (.sample 2 1 .pub) List.mem_cons_self (by decide +kernel)).mpr htest
  · exact ((validators_agree_iff sample (some (examplesBody (js "1") (js "2"))) _ 0
      withProblem).2.2.2 rfl (.sample 1 true) List.mem_cons_self (by decide +kernel)).mpr hexample

/-- **A test case for a program that reads nothing** is let through and not stored. -/
theorem empty_input_refused :
    validateCreateTestCase (some (testCaseBody [] (js "hello"))) =
      .ok (testCaseBody [] (js "hello")).entries ∧
    sample.createTestCase 0 3 1 (testCaseBody [] (js "hello")).entries withProblem =
      .error mongooseValidationError :=
  ⟨rfl, rfl⟩

end Mongoose

end CodeArena.Api
