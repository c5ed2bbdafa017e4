import CodeArena.Api.Validation

/-!
# What the validators let through

For each check, what it has found where it passes, and for each validator, what is left of a
body that it lets through.  `IsIn` says that fields hold the content that a service goes on to
write, and `Sanitized` what is known of the content of a problem.
-/

namespace CodeArena.Api

open CodeArena.Lib CodeArena.Lib.Utf
open CodeArena.Lib.Entries (without assign)
open CodeArena.Lib.OrderedMap (find?)
open CodeArena.Engine (trim trimEnd isWhitespace)
open CodeArena.Submissions (JsError)

/-! ## Checks -/

section

variable {α β ε : Type} {message : String} {v : Json}

theorem bind_eq_ok {x : Except ε α} {f : α → Except ε β} {b : β} :
    x >>= f = .ok b ↔ ∃ a, x = .ok a ∧ f a = .ok b := by
  cases x with
  | error e =>
      constructor
      · exact nofun
      · rintro ⟨a, h, -⟩
        cases h
  | ok a =>
      constructor
      · intro h
        exact ⟨a, rfl, h⟩
      · rintro ⟨a', h, hf⟩
        cases h
        exact hf

/-- A check that refuses under a condition. -/
theorem refuse_eq_ok {p : Prop} [Decidable p] {e : ε} {a b : α} :
    (if p then .error e else .ok a : Except ε α) = .ok b ↔ ¬ p ∧ a = b := by
  by_cases h : p
  · simp [h]
  · simp [h]

theorem required_eq_ok {check : String → Json → Except JsError α} {given : Option Json} {a : α} :
    required check message given = .ok a ↔ ∃ v, given = some v ∧ check message v = .ok a := by
  cases given with
  | none => simp [required]
  | some v => simp [required]

theorem optional_eq_ok {check : String → Json → Except JsError α} {given : Option Json}
    {a : Option α} :
    optional check message given = .ok a ↔
      (given = none ∧ a = none) ∨ ∃ v b, given = some v ∧ check message v = .ok b ∧ a = some b := by
  cases given with
  | none => simp [optional, eq_comm]
  | some v =>
      cases h : check message v with
      | error e => simp [optional, h, Except.map]
      | ok b => simp [optional, h, Except.map, eq_comm]

/-- A field that may be absent, where its check returns what determines it. -/
theorem optional_eq_map {check : String → Json → Except JsError α} {given : Option Json}
    {a : Option α} {f : α → Json} {P : α → Prop}
    (hcheck : ∀ v b, check message v = .ok b → v = f b ∧ P b)
    (h : optional check message given = .ok a) : given = a.map f ∧ ∀ b ∈ a, P b := by
  rcases optional_eq_ok.mp h with ⟨rfl, rfl⟩ | ⟨v, b, rfl, hv, rfl⟩
  · exact ⟨rfl, fun b hb ↦ nomatch hb⟩
  · obtain ⟨rfl, hP⟩ := hcheck v b hv
    refine ⟨rfl, fun b' hb' ↦ ?_⟩
    cases hb'
    exact hP

/-- A field that may be absent, where its check returns something made from it. -/
theorem optional_eq_maps {γ : Type} {check : String → Json → Except JsError α}
    {given : Option Json} {a : Option α} {f : γ → Json} {g : γ → α} {P : γ → Prop}
    (hcheck : ∀ v b, check message v = .ok b → ∃ c, v = f c ∧ b = g c ∧ P c)
    (h : optional check message given = .ok a) :
    ∃ c : Option γ, given = c.map f ∧ a = c.map g ∧ ∀ x ∈ c, P x := by
  rcases optional_eq_ok.mp h with ⟨rfl, rfl⟩ | ⟨v, b, rfl, hv, rfl⟩
  · exact ⟨none, rfl, rfl, fun x hx ↦ nomatch hx⟩
  · obtain ⟨c, rfl, rfl, hP⟩ := hcheck v b hv
    refine ⟨some c, rfl, rfl, fun x hx ↦ ?_⟩
    cases hx
    exact hP

theorem aString_eq_ok {s : JsString} : aString message v = .ok s ↔ v = .string s := by
  cases v <;> simp [aString]

theorem aText_eq_ok {s : JsString} :
    aText message v = .ok s ↔ ∃ t, v = .string t ∧ s = trim t ∧ trim t ≠ [] := by
  cases v with
  | string t =>
      rw [aText, refuse_eq_ok]
      constructor
      · rintro ⟨h, rfl⟩
        exact ⟨t, rfl, rfl, h⟩
      · rintro ⟨t', ht, rfl, hne⟩
        cases ht
        exact ⟨hne, rfl⟩
  | _ => simp [aText]

theorem aTitle_eq_ok {s : JsString} :
    aTitle message v = .ok s ↔
      ∃ t, v = .string t ∧ s = trim t ∧ trim t ≠ [] ∧ (trim t).length ≤ 200 := by
  rw [aTitle]
  split
  · rename_i h
    constructor
    · exact nofun
    · rintro ⟨t, hv, hs, hne, -⟩
      rw [aText_eq_ok.mpr ⟨t, hv, hs, hne⟩] at h
      cases h
  · rename_i s' h
    obtain ⟨t, rfl, rfl, hne⟩ := aText_eq_ok.mp h
    rw [refuse_eq_ok]
    constructor
    · rintro ⟨hlen, rfl⟩
      exact ⟨t, rfl, rfl, hne, Nat.not_lt.mp hlen⟩
    · rintro ⟨t', ht, rfl, -, hlen⟩
      cases ht
      exact ⟨Nat.not_lt.mpr hlen, rfl⟩

theorem oneOf_eq_ok {names : List JsString} {s : JsString} :
    oneOf names message v = .ok s ↔ v = .string s ∧ s ∈ names := by
  cases v with
  | string t =>
      have hany : names.any (· = t) = true ↔ t ∈ names := by simp
      rw [oneOf]
      by_cases h : t ∈ names
      · rw [if_pos (hany.mpr h)]
        constructor
        · intro heq
          cases heq
          exact ⟨rfl, h⟩
        · rintro ⟨heq, -⟩
          cases heq
          rfl
      · rw [if_neg fun h' ↦ h (hany.mp h')]
        constructor
        · exact nofun
        · rintro ⟨heq, hs⟩
          cases heq
          exact absurd hs h
  | _ => simp [oneOf]

theorem aNonNegative_eq_ok {n : Number} :
    aNonNegative message v = .ok n ↔ v = .number n ∧ 0 ≤ n := by
  cases v with
  | number n' =>
      rw [aNonNegative, refuse_eq_ok, not_lt]
      constructor
      · rintro ⟨h, rfl⟩
        exact ⟨rfl, h⟩
      · rintro ⟨heq, h⟩
        cases heq
        exact ⟨h, rfl⟩
  | _ => simp [aNonNegative]

theorem someTags_eq_ok {tags : List JsString} :
    someTags message v = .ok tags ↔
      ∃ items, v = .array items ∧ tags = (items.map tagOf).filter (· ≠ []) := by
  cases v with
  | array items =>
      constructor
      · intro h
        cases h
        exact ⟨items, rfl, rfl⟩
      · rintro ⟨items', h, rfl⟩
        cases h
        rfl
  | _ => simp [someTags]

theorem someExamples_eq_ok {items : List Json} :
    someExamples message v = .ok items ↔
      v = .array items ∧ items ≠ [] ∧ ∀ ex ∈ items, isExample ex = true := by
  cases v with
  | array xs =>
      cases xs with
      | nil =>
          constructor
          · exact nofun
          · rintro ⟨heq, hne, -⟩
            cases heq
            exact absurd rfl hne
      | cons x xs =>
          rw [someExamples]
          · cases h : (x :: xs).findIdx? fun ex ↦ !isExample ex with
            | some i =>
                constructor
                · exact nofun
                · rintro ⟨heq, -, hall⟩
                  cases heq
                  obtain ⟨hi, hx, -⟩ := List.findIdx?_eq_some_iff_getElem.mp h
                  simp [hall _ (List.getElem_mem hi)] at hx
            | none =>
                have hall := List.findIdx?_eq_none_iff.mp h
                constructor
                · intro heq
                  cases heq
                  exact ⟨rfl, List.cons_ne_nil x xs, fun ex hex ↦ by simpa using hall ex hex⟩
                · rintro ⟨heq, -, -⟩
                  cases heq
                  rfl
          · exact List.cons_ne_nil x xs
  | _ => simp [someExamples]

end

/-! ## Test cases -/

theorem testCaseFields_nodup : testCaseFields.Nodup := by decide +kernel

/-- No field that a test case may set is deleted. -/
theorem testCaseFields_kept {k : JsString} (hk : k ∈ testCaseFields) : k ∉ testCaseImmutable := by
  revert k
  decide +kernel

/-- The fields hold the content of a test case. -/
structure TestCaseData.IsIn (d : TestCaseData) (fields : Fields) : Prop where
  input : find? (js "input") fields = some (.string d.input)
  expectedOutput : find? (js "expectedOutput") fields = some (.string d.expectedOutput)
  visibility : find? (js "visibility") fields = some (.string d.visibility.name)
  order : find? (js "order") fields = some (.number d.order)

/-- The fields hold an update of a test case. -/
structure TestCaseUpdate.IsIn (u : TestCaseUpdate) (fields : Fields) : Prop where
  input : find? (js "input") fields = u.input.map .string
  expectedOutput : find? (js "expectedOutput") fields = u.expectedOutput.map .string
  visibility : find? (js "visibility") fields = u.visibility.map fun v ↦ .string v.name
  order : find? (js "order") fields = u.order.map .number

theorem exists_visibility {s : JsString} (h : s ∈ validVisibilities) :
    ∃ v : Visibility, s = v.name := by
  simp only [validVisibilities, List.mem_cons, List.not_mem_nil, or_false] at h
  rcases h with rfl | rfl
  · exact ⟨.pub, rfl⟩
  · exact ⟨.hidden, rfl⟩

/-- **A new test case that is let through** is in the body as it is in what is left of it, and
the other fields are there as they were. -/
theorem validateCreateTestCase_ok {body : Option Json} {fields : Fields}
    (h : validateCreateTestCase body = .ok fields) :
    ∃ d : TestCaseData, d.IsIn (bodyFields body) ∧ d.IsIn fields ∧ 0 ≤ d.order ∧
      ∀ k ∉ testCaseFields ++ testCaseImmutable,
        find? k fields = find? k (bodyFields body) := by
  simp only [validateCreateTestCase, bind_eq_ok, required_eq_ok, aString_eq_ok, oneOf_eq_ok,
    aNonNegative_eq_ok] at h
  obtain ⟨input, ⟨_, hinput, rfl⟩, expectedOutput, ⟨_, hexpected, rfl⟩, visibility,
    ⟨_, hvisibility, rfl, hname⟩, order, ⟨_, horder, rfl, hnonneg⟩, heq⟩ := h
  obtain ⟨v, rfl⟩ := exists_visibility hname
  cases heq
  have hkeys : (testCaseAssignments input expectedOutput v.name order).map Prod.fst =
      testCaseFields := rfl
  have hfield : ∀ {k w}, k ∈ testCaseFields →
      find? k (testCaseAssignments input expectedOutput v.name order) = some (some w) →
      find? k (without testCaseImmutable (assign
        (testCaseAssignments input expectedOutput v.name order) (bodyFields body))) = some w :=
    fun hk hw ↦ (Entries.find?_without_of_notMem (testCaseFields_kept hk) _).trans
      (Entries.find?_assign_of_some testCaseFields_nodup hkeys _ hw)
  refine ⟨⟨input, expectedOutput, v, order⟩, ⟨hinput, hexpected, hvisibility, horder⟩, ?_, hnonneg,
    ?_⟩
  · exact ⟨hfield (by decide +kernel) rfl, hfield (by decide +kernel) rfl,
      hfield (by decide +kernel) rfl, hfield (by decide +kernel) rfl⟩
  · intro k hk
    rw [List.mem_append, not_or] at hk
    rw [Entries.find?_without_of_notMem hk.2]
    exact Entries.find?_assign_of_notMem hkeys testCaseFields_nodup _ hk.1

/-- An update is one of an object, without the fields that it may not set. -/
theorem updateFields_ok {immutable allowed : List JsString} {body : Option Json} {fields : Fields}
    (h : updateFields immutable allowed body = .ok fields) :
    fields = without immutable (bodyFields body) := by
  match body with
  | none => cases h
  | some body =>
      unfold updateFields at h
      split at h
      · cases h
      · cases h
      · rename_i body' _ heq
        cases heq
        dsimp only at h
        split at h
        · cases h
          rfl
        · cases h

/-- **An update of a test case that is let through** is what is left of the body, which is as it
was but for the fields that are deleted. -/
theorem validateUpdateTestCase_ok {body : Option Json} {fields : Fields}
    (h : validateUpdateTestCase body = .ok fields) :
    ∃ u : TestCaseUpdate, u.IsIn (bodyFields body) ∧ u.IsIn fields ∧ ∀ n ∈ u.order, 0 ≤ n := by
  simp only [validateUpdateTestCase, bind_eq_ok] at h
  obtain ⟨_, hfields, input, hinput, expectedOutput, hexpected, visibility, hvisibility, order,
    horder, heq⟩ := h
  cases heq
  have hkept : ∀ {k}, k ∈ testCaseFields → find? k fields = find? k (bodyFields body) := by
    intro k hk
    rw [updateFields_ok hfields]
    exact Entries.find?_without_of_notMem (testCaseFields_kept hk) _
  obtain ⟨hinput, -⟩ := optional_eq_map (fun _ _ h ↦ ⟨aString_eq_ok.mp h, trivial⟩) hinput
  obtain ⟨hexpected, -⟩ := optional_eq_map (fun _ _ h ↦ ⟨aString_eq_ok.mp h, trivial⟩) hexpected
  obtain ⟨hvisibility, hnames⟩ := optional_eq_map (fun _ _ h ↦ oneOf_eq_ok.mp h) hvisibility
  obtain ⟨horder, hnonneg⟩ := optional_eq_map (fun _ _ h ↦ aNonNegative_eq_ok.mp h) horder
  obtain ⟨v, rfl⟩ : ∃ v : Option Visibility, visibility = v.map Visibility.name := by
    cases visibility with
    | none => exact ⟨none, rfl⟩
    | some s =>
        obtain ⟨v, rfl⟩ := exists_visibility (hnames s rfl)
        exact ⟨some v, rfl⟩
  rw [Option.map_map] at hvisibility
  have hin : (⟨input, expectedOutput, v, order⟩ : TestCaseUpdate).IsIn fields :=
    ⟨hinput, hexpected, hvisibility, horder⟩
  refine ⟨⟨input, expectedOutput, v, order⟩, ⟨?_, ?_, ?_, ?_⟩, hin, hnonneg⟩
  · exact (hkept (by decide +kernel)).symm.trans hin.input
  · exact (hkept (by decide +kernel)).symm.trans hin.expectedOutput
  · exact (hkept (by decide +kernel)).symm.trans hin.visibility
  · exact (hkept (by decide +kernel)).symm.trans hin.order

/-! ## Problems -/

/-- Nothing is left to trim of what was trimmed. -/
theorem trim_trim (s : JsString) : trim (trim s) = trim s := by
  have hfront : (trim s).dropWhile isWhitespace = trim s := by
    rw [List.dropWhile_eq_self_iff]
    intro hpos hwhite
    obtain ⟨rest, hrest⟩ : trim s <+: s.dropWhile isWhitespace := List.rdropWhile_prefix _ _
    have hlen : 0 < (s.dropWhile isWhitespace).length := by
      rw [← hrest, List.length_append]
      exact Nat.add_pos_left hpos _
    have hhead : (s.dropWhile isWhitespace)[0] = (trim s)[0] := by
      simp only [← hrest, List.getElem_append_left hpos]
    have hnot := List.dropWhile_get_zero_not isWhitespace s hlen
    rw [List.get_eq_getElem, hhead] at hnot
    exact hnot hwhite
  rw [trim, hfront]
  exact List.rdropWhile_idempotent _ _

theorem problemFields_nodup : problemFields.Nodup := by decide +kernel

/-- No field that a problem may set is deleted. -/
theorem problemFields_kept {k : JsString} (hk : k ∈ problemFields) : k ∉ problemImmutable := by
  revert k
  decide +kernel

/-- The example that a value stands for. -/
def Example.ofJson (ex : Json) : Example := ⟨ex.text (js "input"), ex.text (js "output")⟩

/-- The tags that a body stands for. -/
def tagsIn (fields : Fields) : List JsString :=
  match find? (js "tags") fields with
  | some (.array items) => (items.map tagOf).filter (· ≠ [])
  | _ => []

/-- The examples of a body. -/
def exampleItems (fields : Fields) : List Json :=
  match find? (js "examples") fields with
  | some (.array items) => items
  | _ => []

/-- The fields hold the content of a problem. -/
structure ProblemData.IsIn (d : ProblemData) (fields : Fields) : Prop where
  title : find? (js "title") fields = some (.string d.title)
  description : find? (js "description") fields = some (.string d.description)
  difficulty : find? (js "difficulty") fields = some (.string d.difficulty.name)
  tags : find? (js "tags") fields = some (tagItems d.tags)
  inputFormat : find? (js "inputFormat") fields = some (.string d.inputFormat)
  outputFormat : find? (js "outputFormat") fields = some (.string d.outputFormat)
  constraints : find? (js "constraints") fields = some (.string d.constraints)
  examples : ∃ items, find? (js "examples") fields = some (.array items) ∧
    d.examples = items.map Example.ofJson ∧ ∀ ex ∈ items, isExample ex = true

/-- A text without white space around it, and not empty. -/
structure Trimmed (s : JsString) : Prop where
  trim_eq : trim s = s
  ne_nil : s ≠ []

theorem Trimmed.trim_ne_nil {s : JsString} (h : Trimmed s) : trim s ≠ [] := by
  rw [h.trim_eq]
  exact h.ne_nil

theorem trimmed_trim {s : JsString} (h : trim s ≠ []) : Trimmed (trim s) := ⟨trim_trim s, h⟩

/-- What is known of the content of a problem that a validator lets through. -/
structure ProblemData.Sanitized (d : ProblemData) : Prop where
  title : Trimmed d.title
  title_length : d.title.length ≤ 200
  description : Trimmed d.description
  tags : ∀ t ∈ d.tags, Trimmed t
  inputFormat : Trimmed d.inputFormat
  outputFormat : Trimmed d.outputFormat
  constraints : Trimmed d.constraints
  examples : d.examples ≠ []

theorem exists_difficulty {s : JsString} (h : s ∈ validDifficulties) :
    ∃ d : Difficulty, s = d.name := by
  simp only [validDifficulties, List.mem_cons, List.not_mem_nil, or_false] at h
  rcases h with rfl | rfl | rfl
  · exact ⟨.easy, rfl⟩
  · exact ⟨.medium, rfl⟩
  · exact ⟨.hard, rfl⟩

/-- Tags are trimmed, and those that come out empty are left out. -/
theorem trimmed_of_mem_tags {items : List Json} {t : JsString}
    (ht : t ∈ (items.map tagOf).filter (· ≠ [])) : Trimmed t := by
  obtain ⟨hmem, hne⟩ := List.mem_filter.mp ht
  obtain ⟨item, -, rfl⟩ := List.mem_map.mp hmem
  refine ⟨?_, of_decide_eq_true hne⟩
  cases item with
  | string s => exact trim_trim s
  | _ => rfl

/-- A key that addresses something inside of an array. -/
def isPath (k : JsString) : Bool := k.any (· = 0x2E)

/-- **A new problem that is let through** is in what is left of the body, with its tags and its
examples made from those of the body; no other field is assigned. -/
theorem validateCreateProblem_ok {body : Option Json} {fields : Fields}
    (h : validateCreateProblem body = .ok fields) :
    ∃ d : ProblemData, d.IsIn fields ∧ d.Sanitized ∧ d.tags = tagsIn (bodyFields body) ∧
      d.examples = (exampleItems (bodyFields body)).map Example.ofJson ∧
      (∀ ex ∈ exampleItems (bodyFields body), isExample ex = true) ∧
      (∀ k ∉ problemFields ++ problemImmutable, find? k fields = find? k (bodyFields body)) ∧
      fields.filter (fun e ↦ isPath e.1) = (bodyFields body).filter fun e ↦ isPath e.1 := by
  simp only [validateCreateProblem, bind_eq_ok, required_eq_ok, aTitle_eq_ok, aText_eq_ok,
    oneOf_eq_ok, someExamples_eq_ok] at h
  obtain ⟨_, ⟨_, -, title, rfl, rfl, htitle, hlen⟩, _, ⟨_, -, description, rfl, rfl, hdescription⟩,
    difficulty, ⟨_, -, rfl, hname⟩, tags, htags, _, ⟨_, -, inputFormat, rfl, rfl, hinput⟩,
    _, ⟨_, -, outputFormat, rfl, rfl, houtput⟩, _, ⟨_, -, constraints, rfl, rfl, hconstraints⟩,
    examples, ⟨_, hexamples, rfl, hne, hall⟩, heq⟩ := h
  obtain ⟨d, rfl⟩ := exists_difficulty hname
  obtain ⟨items, hitems, rfl, -⟩ :=
    optional_eq_maps (fun _ _ h ↦ by
      obtain ⟨items, hv, htags⟩ := someTags_eq_ok.mp h
      exact ⟨items, hv, htags, trivial⟩) htags
  have htagsIn : ((items.map fun xs ↦ (xs.map tagOf).filter (· ≠ [])).getD []) =
      tagsIn (bodyFields body) := by
    rw [tagsIn, hitems]
    cases items with
    | none => rfl
    | some xs => rfl
  have hexamplesIn : exampleItems (bodyFields body) = examples := by
    rw [exampleItems, hexamples]
  rw [htagsIn] at heq
  let new := problemAssignments (trim title) (trim description) d.name (tagsIn (bodyFields body))
    (trim inputFormat) (trim outputFormat) (trim constraints) examples
  have hfields : fields = without problemImmutable (assign new (bodyFields body)) :=
    (Except.ok.inj heq).symm
  have hkeys : new.map Prod.fst = problemFields := rfl
  have hfield : ∀ {k w}, k ∈ problemFields → find? k new = some (some w) →
      find? k fields = some w := by
    intro k w hk hw
    rw [hfields, Entries.find?_without_of_notMem (problemFields_kept hk)]
    exact Entries.find?_assign_of_some problemFields_nodup hkeys _ hw
  refine ⟨⟨trim title, trim description, d, tagsIn (bodyFields body), trim inputFormat,
    trim outputFormat, trim constraints, examples.map Example.ofJson⟩, ?_, ?_, rfl, ?_, ?_, ?_, ?_⟩
  · refine ⟨hfield (by decide +kernel) rfl, hfield (by decide +kernel) rfl,
      hfield (by decide +kernel) rfl, hfield (by decide +kernel) rfl,
      hfield (by decide +kernel) rfl, hfield (by decide +kernel) rfl,
      hfield (by decide +kernel) rfl, examples.map exampleOf, hfield (by decide +kernel) rfl, ?_, ?_⟩
    · show examples.map Example.ofJson = (examples.map exampleOf).map Example.ofJson
      rw [List.map_map]
      rfl
    · intro ex hex
      obtain ⟨ex, -, rfl⟩ := List.mem_map.mp hex
      rfl
  · refine ⟨trimmed_trim htitle, hlen, trimmed_trim hdescription, ?_, trimmed_trim hinput,
      trimmed_trim houtput, trimmed_trim hconstraints, ?_⟩
    · intro t ht
      dsimp only at ht
      rw [← htagsIn] at ht
      cases items with
      | none => cases ht
      | some xs => exact trimmed_of_mem_tags ht
    · simpa using hne
  · rw [hexamplesIn]
  · rw [hexamplesIn]
    exact hall
  · intro k hk
    rw [List.mem_append, not_or] at hk
    rw [hfields, Entries.find?_without_of_notMem hk.2]
    exact Entries.find?_assign_of_notMem hkeys problemFields_nodup _ hk.1
  · rw [hfields, Entries.filter_without (by decide +kernel)]
    exact Entries.filter_assign (hkeys ▸ by decide +kernel) _

/-- The fields hold an update of a problem. -/
structure ProblemUpdate.IsIn (u : ProblemUpdate) (fields : Fields) : Prop where
  title : find? (js "title") fields = u.title.map .string
  description : find? (js "description") fields = u.description.map .string
  difficulty : find? (js "difficulty") fields = u.difficulty.map fun d ↦ .string d.name
  tags : find? (js "tags") fields = u.tags.map tagItems
  inputFormat : find? (js "inputFormat") fields = u.inputFormat.map .string
  outputFormat : find? (js "outputFormat") fields = u.outputFormat.map .string
  constraints : find? (js "constraints") fields = u.constraints.map .string
  examples : ∃ items : Option (List Json), find? (js "examples") fields = items.map .array ∧
    u.examples = items.map (·.map Example.ofJson) ∧
    ∀ xs ∈ items, ∀ ex ∈ xs, isExample ex = true

/-- What is known of an update of a problem that a validator lets through. -/
structure ProblemUpdate.Sanitized (u : ProblemUpdate) : Prop where
  title : ∀ t ∈ u.title, Trimmed t ∧ t.length ≤ 200
  description : ∀ t ∈ u.description, Trimmed t
  tags : ∀ ts ∈ u.tags, ∀ t ∈ ts, Trimmed t
  inputFormat : ∀ t ∈ u.inputFormat, Trimmed t
  outputFormat : ∀ t ∈ u.outputFormat, Trimmed t
  constraints : ∀ t ∈ u.constraints, Trimmed t
  examples : ∀ es ∈ u.examples, es ≠ []

/-- The keys that an update of a problem assigns to. -/
def reassigned : List JsString :=
  [js "title", js "description", js "tags", js "inputFormat", js "outputFormat", js "constraints"]

theorem reassigned_nodup : reassigned.Nodup := by decide +kernel

/-- What a check returns, assigned, stands in for what was given. -/
theorem optional_assigned {α : Type} {check : String → Json → Except JsError α} {message : String}
    {given : Option Json} {a : Option α} {P : α → Prop} (f : α → Json)
    (hcheck : ∀ v b, check message v = .ok b → P b)
    (h : optional check message given = .ok a) :
    (a.map f).or given = a.map f ∧ ∀ b ∈ a, P b := by
  rcases optional_eq_ok.mp h with ⟨rfl, rfl⟩ | ⟨v, b, rfl, hv, rfl⟩
  · exact ⟨rfl, fun b hb ↦ nomatch hb⟩
  · refine ⟨rfl, fun b' hb' ↦ ?_⟩
    cases hb'
    exact hcheck v b hv

/-- **An update of a problem that is let through** is in what is left of the body, with the
examples of the body. -/
theorem validateUpdateProblem_ok {body : Option Json} {fields : Fields}
    (h : validateUpdateProblem body = .ok fields) :
    ∃ u : ProblemUpdate, u.IsIn fields ∧ u.Sanitized ∧
      u.examples.getD [] = (exampleItems (bodyFields body)).map Example.ofJson ∧
      (∀ ex ∈ exampleItems (bodyFields body), isExample ex = true) := by
  simp only [validateUpdateProblem, bind_eq_ok] at h
  obtain ⟨before, hbefore, title, htitle, description, hdescription, difficulty, hdifficulty, tags,
    htags, inputFormat, hinput, outputFormat, houtput, constraints, hconstraints, examples,
    hexamples, heq⟩ := h
  have hfound : ∀ {k}, k ∈ problemFields → find? k before = find? k (bodyFields body) := by
    intro k hk
    rw [updateFields_ok hbefore]
    exact Entries.find?_without_of_notMem (problemFields_kept hk) _
  have htext : ∀ {message given} {a : Option JsString}, optional aText message given = .ok a →
      (a.map .string).or given = a.map .string ∧ ∀ t ∈ a, Trimmed t :=
    optional_assigned .string fun v b hv ↦ by
      obtain ⟨s, -, rfl, hne⟩ := aText_eq_ok.mp hv
      exact trimmed_trim hne
  obtain ⟨htitle, hPtitle⟩ := optional_assigned (P := fun t ↦ Trimmed t ∧ t.length ≤ 200) .string
    (fun v b hv ↦ by
      obtain ⟨s, -, rfl, hne, hlen⟩ := aTitle_eq_ok.mp hv
      exact ⟨trimmed_trim hne, hlen⟩) htitle
  obtain ⟨hdescription, hPdescription⟩ := htext hdescription
  obtain ⟨hinput, hPinput⟩ := htext hinput
  obtain ⟨houtput, hPoutput⟩ := htext houtput
  obtain ⟨hconstraints, hPconstraints⟩ := htext hconstraints
  obtain ⟨htags, hPtags⟩ := optional_assigned (P := fun ts ↦ ∀ t ∈ ts, Trimmed t) tagItems
    (fun v b hv t ht ↦ by
      obtain ⟨items, -, rfl⟩ := someTags_eq_ok.mp hv
      exact trimmed_of_mem_tags ht) htags
  obtain ⟨hdifficulty, hnames⟩ := optional_eq_map (fun _ _ h ↦ oneOf_eq_ok.mp h) hdifficulty
  obtain ⟨hexamples, hPexamples⟩ := optional_eq_map (fun _ _ h ↦ someExamples_eq_ok.mp h) hexamples
  obtain ⟨d, rfl⟩ : ∃ d : Option Difficulty, difficulty = d.map Difficulty.name := by
    cases difficulty with
    | none => exact ⟨none, rfl⟩
    | some s =>
        obtain ⟨d, rfl⟩ := exists_difficulty (hnames s rfl)
        exact ⟨some d, rfl⟩
  rw [Option.map_map] at hdifficulty
  let new := problemReassignments title description tags inputFormat outputFormat constraints
  have hfields : fields = assign new before := (Except.ok.inj heq).symm
  have hkeys : new.map Prod.fst = reassigned := rfl
  have hset : ∀ {k given}, find? k new = some given → find? k fields = given.or (find? k before) :=
    fun hk ↦ hfields ▸ Entries.find?_assign_of_given reassigned_nodup hkeys before hk
  have hkeep : ∀ {k}, k ∉ reassigned → find? k fields = find? k before :=
    fun hk ↦ hfields ▸ Entries.find?_assign_of_notMem hkeys reassigned_nodup before hk
  have hitems : exampleItems (bodyFields body) = examples.getD [] := by
    rw [exampleItems, ← hfound (by decide +kernel), hexamples]
    cases examples with
    | none => rfl
    | some items => rfl
  refine ⟨⟨title, description, d, tags, inputFormat, outputFormat, constraints,
    examples.map (·.map Example.ofJson)⟩, ?_, ?_, ?_, ?_⟩
  · exact
      { title := (hset rfl).trans htitle
        description := (hset rfl).trans hdescription
        difficulty := (hkeep (by decide +kernel)).trans hdifficulty
        tags := (hset rfl).trans htags
        inputFormat := (hset rfl).trans hinput
        outputFormat := (hset rfl).trans houtput
        constraints := (hset rfl).trans hconstraints
        examples := ⟨examples, (hkeep (by decide +kernel)).trans hexamples, rfl,
          fun xs hxs ↦ (hPexamples xs hxs).2⟩ }
  · refine ⟨hPtitle, hPdescription, hPtags, hPinput, hPoutput, hPconstraints, fun es hes ↦ ?_⟩
    obtain ⟨items, hmem, rfl⟩ := Option.map_eq_some_iff.mp hes
    simpa using (hPexamples items hmem).1
  · rw [hitems]
    cases examples with
    | none => rfl
    | some items => rfl
  · rw [hitems]
    cases examples with
    | none =>
        intro ex hex
        cases hex
    | some items => exact (hPexamples items rfl).2

end CodeArena.Api
