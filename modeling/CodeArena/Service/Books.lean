import CodeArena.Service.System

/-!
# What an entry of the log tells

`Books` is what the entries of the audit log speak of: of a problem who created it, its title,
its difficulty, its tags and whether it is active, and of a test case its problem, its
visibility, its order and whether it is active.

A document is saved some time after it was loaded, so an entry need not say all of what its
change did: where another request saved the document in between, a field that the one has set to
what it had loaded is left as the other has set it.  Of each field an entry tells what its
change has made of it, or the field is as it was, and no other document has changed
(`Written.told`).  Where the document was stored as it was loaded, the entry tells just what the
change did to the books (`Written.replays`).

## Honest boundary

What a reader makes of the details of an entry is not in the repository.
-/

namespace CodeArena.Service

open CodeArena.Lib CodeArena.Lib.Utf
open CodeArena.Lib.OrderedMap (find?)
open CodeArena.Submissions (ObjectId Time)
open CodeArena.Submissions.Submission (changed changed_self)
open CodeArena.Api (Fields Database Problem ProblemUpdate TestCase TestCaseUpdate Difficulty
  Visibility tagItems)
open CodeArena.Accounts (Auth)

/-! ## The books -/

/-- What the log tells of a problem. -/
structure ProblemBook where
  authorId : ObjectId
  title : JsString
  difficulty : Difficulty
  tags : List JsString
  isActive : Bool

/-- What the log tells of a test case. -/
structure TestCaseBook where
  problemId : ObjectId
  visibility : Visibility
  order : Number
  isActive : Bool

/-- What the log tells. -/
@[ext] structure Books where
  problem : ObjectId → Option ProblemBook
  testCase : ObjectId → Option TestCaseBook

/-- The books with another one of a problem. -/
def Books.setProblem (b : Books) (id : ObjectId) (told : Option ProblemBook) : Books :=
  { b with problem := Function.update b.problem id told }

/-- The books with another one of a test case. -/
def Books.setTestCase (b : Books) (id : ObjectId) (told : Option TestCaseBook) : Books :=
  { b with testCase := Function.update b.testCase id told }

@[simp] theorem Books.problem_setProblem (b : Books) (id : ObjectId) (told : Option ProblemBook)
    (i : ObjectId) : (b.setProblem id told).problem i = if i = id then told else b.problem i :=
  Function.update_apply ..

@[simp] theorem Books.testCase_setTestCase (b : Books) (id : ObjectId)
    (told : Option TestCaseBook) (i : ObjectId) :
    (b.setTestCase id told).testCase i = if i = id then told else b.testCase i :=
  Function.update_apply ..

/-- What is told of a problem. -/
def bookOf (p : Problem) : ProblemBook := ⟨p.authorId, p.title, p.difficulty, p.tags, p.isActive⟩

/-- What is told of a test case. -/
def testCaseBookOf (t : TestCase) : TestCaseBook := ⟨t.problemId, t.visibility, t.order, t.isActive⟩

/-- What is stored, as far as the log tells of it. -/
def books (db : Database) : Books where
  problem id := (db.findProblem id).map bookOf
  testCase id := (db.findTestCase id).map testCaseBookOf

/-! ## Reading an entry -/

/-- A text. -/
def readText : Json → Option JsString
  | .string s => some s
  | _ => none

/-- A difficulty, by its name. -/
def readDifficulty (v : Json) : Option Difficulty :=
  (readText v).bind fun s ↦ [Difficulty.easy, .medium, .hard].find? fun d ↦ d.name = s

/-- A visibility, by its name. -/
def readVisibility (v : Json) : Option Visibility :=
  (readText v).bind fun s ↦ [Visibility.pub, .hidden].find? fun w ↦ w.name = s

/-- Tags. -/
def readTags : Json → Option (List JsString)
  | .array items => items.mapM readText
  | _ => none

/-- A number. -/
def readNumber : Json → Option Number
  | .number n => some n
  | _ => none

/-- What the details of an entry have under a name. -/
def detail {α : Type} (read : Json → Option α) (name : JsString) (details : Fields) : Option α :=
  (find? name details).bind read

/-- What an entry makes of the book of its problem. -/
def AuditEntry.onProblem (e : AuditEntry) (b : Option ProblemBook) : Option ProblemBook :=
  let title := detail readText (js "title") e.details
  let difficulty := detail readDifficulty (js "difficulty") e.details
  let tags := detail readTags (js "tags") e.details
  match e.action with
  | .problemCreated => do return ⟨e.userId, ← title, ← difficulty, ← tags, true⟩
  | .problemUpdated => b.map fun b ↦ { b with
      title := title.getD b.title
      difficulty := difficulty.getD b.difficulty
      tags := tags.getD b.tags }
  | .problemDeleted => b.map fun b ↦ { b with isActive := false }
  | _ => b

/-- What an entry makes of the book of its test case. -/
def AuditEntry.onTestCase (auth : Auth) (e : AuditEntry) (b : Option TestCaseBook) :
    Option TestCaseBook :=
  let problemId := detail auth.castId (js "problemId") e.details
  let visibility := detail readVisibility (js "visibility") e.details
  let order := detail readNumber (js "order") e.details
  match e.action with
  | .testCaseCreated => do return ⟨← problemId, ← visibility, ← order, true⟩
  | .testCaseUpdated => b.map fun b ↦ { b with
      visibility := visibility.getD b.visibility
      order := order.getD b.order }
  | .testCaseDeleted => b.map fun b ↦ { b with isActive := false }
  | _ => b

/-- What an entry is about. -/
def AuditEntry.target (e : AuditEntry) : TargetType × ObjectId := (e.targetType, e.targetId)

/-- What an entry makes of the books. -/
def AuditEntry.apply (auth : Auth) (b : Books) (e : AuditEntry) : Books :=
  match e.targetType with
  | .problem => b.setProblem e.targetId (e.onProblem (b.problem e.targetId))
  | .testCase => b.setTestCase e.targetId (e.onTestCase auth (b.testCase e.targetId))

/-- The entries of a log, from the front. -/
def replay (auth : Auth) (b : Books) (es : List AuditEntry) : Books :=
  es.foldl (AuditEntry.apply auth) b

/-! ## What is read back -/

theorem readText_string (s : JsString) : readText (.string s) = some s := rfl

theorem readNumber_number (n : Number) : readNumber (.number n) = some n := rfl

theorem readDifficulty_name (d : Difficulty) : readDifficulty (.string d.name) = some d := by
  cases d <;> rfl

theorem readVisibility_name (v : Visibility) : readVisibility (.string v.name) = some v := by
  cases v <;> rfl

theorem readTags_tagItems (tags : List JsString) : readTags (tagItems tags) = some tags := by
  rw [tagItems, readTags]
  induction tags with
  | nil => rfl
  | cons t ts ih =>
      rw [List.map_cons, List.mapM_cons, ih]
      rfl

/-- What an update sets is in the details of its entry. -/
theorem find?_changedFields (allowed : List JsString) (fields : Fields) (k : JsString) :
    find? k (changedFields allowed fields) = if k ∈ allowed then find? k fields else none := by
  induction allowed with
  | nil => rfl
  | cons a allowed ih =>
      rw [changedFields] at ih ⊢
      cases hf : find? a fields with
      | none =>
          rw [List.filterMap_cons_none (by rw [hf]; rfl), ih]
          by_cases hk : k = a
          · rw [hk, hf, if_pos List.mem_cons_self, ite_self]
          · simp [hk]
      | some v =>
          rw [List.filterMap_cons_some (b := (a, v)) (by rw [hf]; rfl), find?, ih]
          by_cases hk : a = k
          · rw [if_pos hk, ← hk, hf, if_pos List.mem_cons_self]
          · simp [hk, Ne.symm hk]

/-- The field of an update is read back from the entry. -/
theorem detail_changedFields {α : Type} {read : Json → Option α} {write : α → Json}
    (hread : ∀ a, read (write a) = some a) {allowed : List JsString} {fields : Fields}
    {k : JsString} {given : Option α} (hk : k ∈ allowed)
    (hfield : find? k fields = given.map write) :
    detail read k (changedFields allowed fields) = given := by
  rw [detail, find?_changedFields, if_pos hk, hfield]
  cases given with
  | none => rfl
  | some a => exact hread a

/-! ## The books after a change -/

section

variable {α : Type} {id : α → ObjectId} {x : α} {xs : List α}

/-- Who is found after a document was added. -/
theorem find?_add (h : id x ∉ xs.map id) (i : ObjectId) :
    (xs ++ [x]).find? (fun y ↦ id y = i) =
      if i = id x then some x else xs.find? fun y ↦ id y = i := by
  rw [List.find?_append]
  by_cases hi : i = id x
  · have hnone : xs.find? (fun y ↦ id y = i) = none := by
      refine List.find?_eq_none.mpr fun y hy heq ↦ h (List.mem_map.mpr ⟨y, hy, ?_⟩)
      exact (of_decide_eq_true heq).trans hi
    rw [hnone, if_pos hi]
    simp [hi]
  · simp [hi, Ne.symm hi]

/-- Who is found after a document was saved. -/
theorem find?_replace (h : id x ∈ xs.map id) (i : ObjectId) :
    (Database.replace id x xs).find? (fun y ↦ id y = i) =
      if i = id x then some x else xs.find? fun y ↦ id y = i := by
  have hid : ((fun y ↦ decide (id y = i)) ∘ fun y ↦ if id y = id x then x else y) =
      fun y ↦ decide (id y = i) := by
    funext y
    rw [Function.comp_apply]
    split
    · rename_i hy
      rw [hy]
    · rfl
  rw [Database.replace, List.find?_map, hid]
  cases hf : xs.find? (fun y ↦ id y = i) with
  | none =>
      have hne : i ≠ id x := by
        rintro rfl
        obtain ⟨y, hy, heq⟩ := List.mem_map.mp h
        exact List.find?_eq_none.mp hf y hy (decide_eq_true heq)
      rw [if_neg hne]
      rfl
  | some y =>
      have hy : id y = i := by simpa using List.find?_some hf
      rw [Option.map_some, hy]
      split <;> rfl

end

section

variable {auth : Auth} {db : Database} {p : Problem} {t : TestCase}

theorem findProblem_add (hid : p.id ∉ db.problems.map Problem.id) (i : ObjectId) :
    (db.addProblem p hid).findProblem i = if i = p.id then some p else db.findProblem i :=
  find?_add hid i

theorem findProblem_save {q : Problem} (hp : p ∈ db.problems) (hid : q.id = p.id) (i : ObjectId) :
    (db.saveProblem q).findProblem i = if i = p.id then some q else db.findProblem i := by
  rw [← hid]
  exact find?_replace (hid ▸ List.mem_map_of_mem hp) i

theorem findTestCase_add (hid : t.id ∉ db.testCases.map TestCase.id) (i : ObjectId) :
    (db.addTestCase t hid).findTestCase i = if i = t.id then some t else db.findTestCase i :=
  find?_add hid i

theorem findTestCase_save {u : TestCase} (ht : t ∈ db.testCases) (hid : u.id = t.id)
    (i : ObjectId) :
    (db.saveTestCase u).findTestCase i = if i = t.id then some u else db.findTestCase i := by
  rw [← hid]
  exact find?_replace (hid ▸ List.mem_map_of_mem ht) i

theorem books_addProblem (hid : p.id ∉ db.problems.map Problem.id) :
    books (db.addProblem p hid) = (books db).setProblem p.id (some (bookOf p)) := by
  refine Books.ext (funext fun i ↦ ?_) rfl
  rw [Books.problem_setProblem]
  refine (congrArg (Option.map bookOf) (findProblem_add hid i)).trans ?_
  split <;> rfl

theorem books_saveProblem {q : Problem} (hp : p ∈ db.problems) (hid : q.id = p.id) :
    books (db.saveProblem q) = (books db).setProblem p.id (some (bookOf q)) := by
  refine Books.ext (funext fun i ↦ ?_) rfl
  rw [Books.problem_setProblem]
  refine (congrArg (Option.map bookOf) (findProblem_save hp hid i)).trans ?_
  split <;> rfl

theorem books_addTestCase (hid : t.id ∉ db.testCases.map TestCase.id) :
    books (db.addTestCase t hid) = (books db).setTestCase t.id (some (testCaseBookOf t)) := by
  refine Books.ext rfl (funext fun i ↦ ?_)
  rw [Books.testCase_setTestCase]
  refine (congrArg (Option.map testCaseBookOf) (findTestCase_add hid i)).trans ?_
  split <;> rfl

theorem books_saveTestCase {u : TestCase} (ht : t ∈ db.testCases) (hid : u.id = t.id) :
    books (db.saveTestCase u) = (books db).setTestCase t.id (some (testCaseBookOf u)) := by
  refine Books.ext rfl (funext fun i ↦ ?_)
  rw [Books.testCase_setTestCase]
  refine (congrArg (Option.map testCaseBookOf) (findTestCase_save ht hid i)).trans ?_
  split <;> rfl

/-- The book of a problem that is stored. -/
theorem problem_books_of_mem (hp : p ∈ db.problems) : (books db).problem p.id = some (bookOf p) :=
  congrArg (Option.map bookOf) (Database.findProblem_eq_some.mpr ⟨hp, rfl⟩)

theorem testCase_books_of_mem (ht : t ∈ db.testCases) :
    (books db).testCase t.id = some (testCaseBookOf t) :=
  congrArg (Option.map testCaseBookOf)
    ((Database.find?_id_eq_some db.testCases_nodup).mpr ⟨ht, rfl⟩)

/-- The book of a problem after an update. -/
theorem bookOf_update {u : ProblemUpdate} (h : u.Sanitized) (now : Time) :
    bookOf (p.update now (u.apply p.toProblemData)) = { bookOf p with
      title := u.title.getD p.title
      difficulty := u.difficulty.getD p.difficulty
      tags := u.tags.getD p.tags } := by
  have htitle : u.title.map CodeArena.Engine.trim = u.title := by
    cases ht : u.title with
    | none => rfl
    | some title => exact congrArg some (h.title title ht).1.trim_eq
  have hdata : bookOf (p.update now (u.apply p.toProblemData)) = { bookOf p with
      title := (u.apply p.toProblemData).title
      difficulty := (u.apply p.toProblemData).difficulty
      tags := (u.apply p.toProblemData).tags } := by
    rw [Problem.update]
    split
    · rename_i heq
      rw [heq]
      rfl
    · rfl
  rw [hdata, ProblemUpdate.apply, htitle]

/-- The book of a test case after an update. -/
theorem testCaseBookOf_update (u : TestCaseUpdate) (now : Time) :
    testCaseBookOf (t.update now (u.apply t.toTestCaseData)) = { testCaseBookOf t with
      visibility := u.visibility.getD t.visibility
      order := u.order.getD t.order } := by
  have hdata : testCaseBookOf (t.update now (u.apply t.toTestCaseData)) = { testCaseBookOf t with
      visibility := (u.apply t.toTestCaseData).visibility
      order := (u.apply t.toTestCaseData).order } := by
    rw [TestCase.update]
    split
    · rename_i heq
      rw [heq]
      rfl
    · rfl
  rw [hdata, TestCaseUpdate.apply]

end

/-! ## What an entry tells of an edit -/

/-- One book says of each field what one of two others says. -/
structure ProblemBook.Mixes (old new b : ProblemBook) : Prop where
  authorId : b.authorId = old.authorId ∨ b.authorId = new.authorId
  title : b.title = old.title ∨ b.title = new.title
  difficulty : b.difficulty = old.difficulty ∨ b.difficulty = new.difficulty
  tags : b.tags = old.tags ∨ b.tags = new.tags
  isActive : b.isActive = old.isActive ∨ b.isActive = new.isActive

/-- The same of test cases. -/
structure TestCaseBook.Mixes (old new b : TestCaseBook) : Prop where
  problemId : b.problemId = old.problemId ∨ b.problemId = new.problemId
  visibility : b.visibility = old.visibility ∨ b.visibility = new.visibility
  order : b.order = old.order ∨ b.order = new.order
  isActive : b.isActive = old.isActive ∨ b.isActive = new.isActive

section

variable {auth : Auth} {userId : ObjectId} {p p' stored : Problem} {t t' storedCase : TestCase}
  {e : AuditEntry}

/-- A field that an update sets, or not, is saved as told, or left. -/
theorem changed_getD {α : Type} [DecidableEq α] (given : Option α) (loaded stored : α) :
    changed loaded (given.getD loaded) stored = stored ∨
      changed loaded (given.getD loaded) stored = given.getD stored := by
  cases given with
  | none => exact .inl (changed_self ..)
  | some a =>
      unfold changed
      split
      · exact .inl rfl
      · exact .inr rfl

theorem changed_or {α : Type} [DecidableEq α] (loaded doc stored : α) :
    changed loaded doc stored = stored ∨ changed loaded doc stored = doc := by
  unfold changed
  split
  · exact .inl rfl
  · exact .inr rfl

/-- **What the entry of an edit makes of a book**, and that the edit makes the same of the
problem that was loaded. -/
theorem ProblemEdit.tells (h : ProblemEdit userId p p' e) :
    e.target = (.problem, p.id) ∧ p'.id = p.id ∧ ∃ tell : ProblemBook → ProblemBook,
      (∀ b, e.onProblem (some b) = some (tell b)) ∧ bookOf p' = tell (bookOf p) ∧
      ∀ stored, (bookOf stored).Mixes (tell (bookOf stored)) (bookOf (saveOver p p' stored)) := by
  cases h with
  | @updated u fields now hin hsanitized =>
      have htitle := detail_changedFields readText_string
        (show js "title" ∈ Api.problemFields by decide +kernel) hin.title
      have hdifficulty := detail_changedFields readDifficulty_name
        (show js "difficulty" ∈ Api.problemFields by decide +kernel) hin.difficulty
      have htags := detail_changedFields readTags_tagItems
        (show js "tags" ∈ Api.problemFields by decide +kernel) hin.tags
      have hbook := bookOf_update (p := p) hsanitized now
      refine ⟨rfl, problem_update_id .., fun b ↦ { b with
        title := u.title.getD b.title
        difficulty := u.difficulty.getD b.difficulty
        tags := u.tags.getD b.tags }, fun b ↦ ?_, hbook, fun stored ↦ ?_⟩
      · simp only [AuditEntry.onProblem, htitle, hdifficulty, htags]
        rfl
      · have hauthor := congrArg ProblemBook.authorId hbook
        have htitle := congrArg ProblemBook.title hbook
        have hdifficulty := congrArg ProblemBook.difficulty hbook
        have htags := congrArg ProblemBook.tags hbook
        have hactive := congrArg ProblemBook.isActive hbook
        simp only [bookOf] at hauthor htitle hdifficulty htags hactive
        constructor
        case authorId => simp only [bookOf, saveOver, hauthor, changed_self, true_or]
        case title => simpa only [bookOf, saveOver, htitle] using changed_getD ..
        case difficulty => simpa only [bookOf, saveOver, hdifficulty] using changed_getD ..
        case tags => simpa only [bookOf, saveOver, htags] using changed_getD ..
        case isActive => simp only [bookOf, saveOver, hactive, changed_self, true_or]
  | deleted now hactive =>
      refine ⟨rfl, rfl, fun b ↦ { b with isActive := false }, fun _ ↦ rfl, rfl, fun stored ↦ ?_⟩
      constructor
      case isActive => exact changed_or ..
      all_goals exact .inl (changed_self ..)

/-- The same of a test case. -/
theorem TestCaseEdit.tells (h : TestCaseEdit auth userId t t' e) :
    e.target = (.testCase, t.id) ∧ t'.id = t.id ∧ ∃ tell : TestCaseBook → TestCaseBook,
      (∀ b, e.onTestCase auth (some b) = some (tell b)) ∧
      testCaseBookOf t' = tell (testCaseBookOf t) ∧
      ∀ stored, (testCaseBookOf stored).Mixes (tell (testCaseBookOf stored))
        (testCaseBookOf (saveCaseOver t t' stored)) := by
  cases h with
  | @updated u fields now hin =>
      have hvisibility := detail_changedFields readVisibility_name
        (show js "visibility" ∈ Api.testCaseFields by decide +kernel) hin.visibility
      have horder := detail_changedFields readNumber_number
        (show js "order" ∈ Api.testCaseFields by decide +kernel) hin.order
      have hbook := testCaseBookOf_update (t := t) u now
      refine ⟨rfl, testCase_update_id .., fun b ↦ { b with
        visibility := u.visibility.getD b.visibility
        order := u.order.getD b.order }, fun b ↦ ?_, hbook, fun stored ↦ ?_⟩
      · simp only [AuditEntry.onTestCase, hvisibility, horder]
        rfl
      · have hproblem := congrArg TestCaseBook.problemId hbook
        have hvisibility := congrArg TestCaseBook.visibility hbook
        have horder := congrArg TestCaseBook.order hbook
        have hactive := congrArg TestCaseBook.isActive hbook
        simp only [testCaseBookOf] at hproblem hvisibility horder hactive
        constructor
        case problemId =>
          simp only [testCaseBookOf, saveCaseOver, hproblem, changed_self, true_or]
        case visibility =>
          simpa only [testCaseBookOf, saveCaseOver, hvisibility] using changed_getD ..
        case order => simpa only [testCaseBookOf, saveCaseOver, horder] using changed_getD ..
        case isActive => simp only [testCaseBookOf, saveCaseOver, hactive, changed_self, true_or]
  | deleted now hactive =>
      refine ⟨rfl, rfl, fun b ↦ { b with isActive := false }, fun _ ↦ rfl, rfl, fun stored ↦ ?_⟩
      constructor
      case isActive => exact changed_or ..
      all_goals exact .inl (changed_self ..)

end

/-! ## What the entry of a call tells -/

/-- A document is as is told, or each of its fields is as it was or as is told. -/
inductive Between {α : Type} (Mixes : α → α → α → Prop) (old told : Option α) : Option α → Prop
  | told : Between Mixes old told told
  | mixed {b b' now : α} : old = some b → told = some b' → Mixes b b' now →
      Between Mixes old told (some now)

/-- A change that an entry tells of. -/
structure Told (auth : Auth) (e : AuditEntry) (db db' : Database) : Prop where
  /-- No other document has changed. -/
  problems : ∀ id, e.target ≠ (.problem, id) → db'.findProblem id = db.findProblem id
  testCases : ∀ id, e.target ≠ (.testCase, id) → db'.findTestCase id = db.findTestCase id
  /-- What has changed about its own one is what it tells. -/
  problem : ∀ id, e.target = (.problem, id) → Between ProblemBook.Mixes ((books db).problem id)
    (e.onProblem ((books db).problem id)) ((books db').problem id)
  testCase : ∀ id, e.target = (.testCase, id) → Between TestCaseBook.Mixes
    ((books db).testCase id) (e.onTestCase auth ((books db).testCase id)) ((books db').testCase id)

section

variable {auth : Auth} {db db' : Database} {e : AuditEntry} {call : Option Call} {id : ObjectId}

theorem problem_apply (auth : Auth) (b : Books) (e : AuditEntry) (id : ObjectId) :
    (e.apply auth b).problem id =
      if e.target = (.problem, id) then e.onProblem (b.problem id) else b.problem id := by
  obtain ⟨userId, action, targetType, targetId, details⟩ := e
  cases targetType with
  | problem =>
      refine (Books.problem_setProblem ..).trans ?_
      by_cases hid : id = targetId
      · subst hid
        rw [if_pos rfl]
        exact (if_pos rfl).symm
      · rw [if_neg hid]
        exact (if_neg fun heq ↦ hid (congrArg Prod.snd heq).symm).symm
  | testCase => exact (if_neg nofun).symm

theorem testCase_apply (auth : Auth) (b : Books) (e : AuditEntry) (id : ObjectId) :
    (e.apply auth b).testCase id =
      if e.target = (.testCase, id) then e.onTestCase auth (b.testCase id) else b.testCase id := by
  obtain ⟨userId, action, targetType, targetId, details⟩ := e
  cases targetType with
  | problem => exact (if_neg nofun).symm
  | testCase =>
      refine (Books.testCase_setTestCase ..).trans ?_
      by_cases hid : id = targetId
      · subst hid
        rw [if_pos rfl]
        exact (if_pos rfl).symm
      · rw [if_neg hid]
        exact (if_neg fun heq ↦ hid (congrArg Prod.snd heq).symm).symm

/-- What an entry about a problem makes of the books. -/
theorem apply_problem (h : e.target = (.problem, id)) (b : Books) :
    e.apply auth b = b.setProblem id (e.onProblem (b.problem id)) := by
  obtain ⟨userId, action, targetType, targetId, details⟩ := e
  cases h
  rfl

theorem apply_testCase (h : e.target = (.testCase, id)) (b : Books) :
    e.apply auth b = b.setTestCase id (e.onTestCase auth (b.testCase id)) := by
  obtain ⟨userId, action, targetType, targetId, details⟩ := e
  cases h
  rfl

/-- The entry of a problem that is created tells everything. -/
theorem onProblem_created {p : Problem} (hactive : p.isActive = true) (b : Option ProblemBook) :
    AuditEntry.onProblem ⟨p.authorId, .problemCreated, .problem, p.id,
      [(js "title", .string p.title), (js "difficulty", .string p.difficulty.name),
        (js "tags", tagItems p.tags)]⟩ b = some (bookOf p) := by
  have htitle : js "title" ≠ js "difficulty" := by decide +kernel
  have htags : js "title" ≠ js "tags" ∧ js "difficulty" ≠ js "tags" := by decide +kernel
  simp only [AuditEntry.onProblem, detail, find?, if_pos, if_neg htitle, if_neg htags.1,
    if_neg htags.2, Option.bind_some, readDifficulty_name, readTags_tagItems]
  rw [bookOf, hactive]
  rfl

/-- So does that of a test case, with the id of its problem as it stood in the path. -/
theorem onTestCase_created {t : TestCase} {problemId : JsString} {userId : ObjectId}
    (hactive : t.isActive = true) (hcast : auth.castId (.string problemId) = some t.problemId)
    (b : Option TestCaseBook) : AuditEntry.onTestCase auth ⟨userId, .testCaseCreated, .testCase,
      t.id, [(js "problemId", .string problemId), (js "visibility", .string t.visibility.name),
        (js "order", .number t.order)]⟩ b = some (testCaseBookOf t) := by
  have hvisibility : js "problemId" ≠ js "visibility" := by decide +kernel
  have horder : js "problemId" ≠ js "order" ∧ js "visibility" ≠ js "order" := by decide +kernel
  simp only [AuditEntry.onTestCase, detail, find?, if_pos, if_neg hvisibility, if_neg horder.1,
    if_neg horder.2, Option.bind_some, readVisibility_name, hcast]
  rw [testCaseBookOf, hactive]
  rfl

/-- What is told of a change of one problem. -/
theorem told_of_problem (htarget : e.target = (.problem, id))
    (htestCases : db'.testCases = db.testCases)
    (hother : ∀ i, i ≠ id → db'.findProblem i = db.findProblem i)
    (hbook : Between ProblemBook.Mixes ((books db).problem id)
      (e.onProblem ((books db).problem id)) ((books db').problem id)) : Told auth e db db' where
  problems i hi := hother i fun heq ↦ hi (heq ▸ htarget)
  testCases i _ := by
    unfold Database.findTestCase
    rw [htestCases]
  problem i hi := by
    cases htarget.symm.trans hi
    exact hbook
  testCase i hi := by cases htarget.symm.trans hi

theorem told_of_testCase (htarget : e.target = (.testCase, id))
    (hproblems : db'.problems = db.problems)
    (hother : ∀ i, i ≠ id → db'.findTestCase i = db.findTestCase i)
    (hbook : Between TestCaseBook.Mixes ((books db).testCase id)
      (e.onTestCase auth ((books db).testCase id)) ((books db').testCase id)) :
    Told auth e db db' where
  problems i _ := by
    unfold Database.findProblem
    rw [hproblems]
  testCases i hi := hother i fun heq ↦ hi (heq ▸ htarget)
  problem i hi := by cases htarget.symm.trans hi
  testCase i hi := by
    cases htarget.symm.trans hi
    exact hbook

/-- **The entry of a change tells of it**, whatever was saved since the document was loaded. -/
theorem Written.told (h : Written auth db call e db') : Told auth e db db' := by
  cases h with
  | @problemCreated p hid hactive =>
      refine told_of_problem rfl rfl (fun i hi ↦ (findProblem_add hid i).trans (if_neg hi)) ?_
      rw [onProblem_created hactive, books_addProblem hid, Books.problem_setProblem, if_pos rfl]
      exact .told
  | @problemSaved userId p loaded doc entry hp hid hedit =>
      obtain ⟨htarget, -, tell, htell, -, hmixes⟩ := hedit.tells
      rw [← hid] at htarget
      refine told_of_problem htarget rfl
        (fun i hi ↦ (findProblem_save (q := saveOver loaded doc p) hp rfl i).trans (if_neg hi)) ?_
      rw [books_saveProblem (q := saveOver loaded doc p) hp rfl, Books.problem_setProblem,
        if_pos rfl, problem_books_of_mem hp]
      exact .mixed rfl (htell _) (hmixes p)
  | @testCaseCreated u t problemId id data hid hactive hproblem hcast =>
      refine told_of_testCase rfl rfl (fun i hi ↦ (findTestCase_add hid i).trans (if_neg hi)) ?_
      rw [onTestCase_created hactive (hproblem ▸ hcast), books_addTestCase hid,
        Books.testCase_setTestCase, if_pos rfl]
      exact .told
  | @testCaseSaved userId t loaded doc entry ht hid hedit =>
      obtain ⟨htarget, -, tell, htell, -, hmixes⟩ := hedit.tells
      rw [← hid] at htarget
      refine told_of_testCase htarget rfl
        (fun i hi ↦ (findTestCase_save (u := saveCaseOver loaded doc t) ht rfl i).trans
          (if_neg hi)) ?_
      rw [books_saveTestCase (u := saveCaseOver loaded doc t) ht rfl, Books.testCase_setTestCase,
        if_pos rfl, testCase_books_of_mem ht]
      exact .mixed rfl (htell _) (hmixes t)

/-- **An entry tells what its change did**, where the document was stored as it was loaded. -/
theorem Written.replays (h : Written auth db call e db')
    (hcopied : ∀ k, call = some k → k.Copied db) : books db' = e.apply auth (books db) := by
  cases h with
  | problemCreated hid hactive =>
      rw [books_addProblem hid, apply_problem rfl, onProblem_created hactive]
  | problemSaved hp hid hedit =>
      obtain ⟨htarget, hdoc, tell, htell, hbook, -⟩ := hedit.tells
      obtain rfl := Option.some.inj
        ((Database.findProblem_eq_some.mpr ⟨hp, hid⟩).symm.trans (hcopied _ rfl))
      rw [saveOver_loaded hdoc, books_saveProblem hp hdoc, apply_problem htarget,
        problem_books_of_mem hp, htell, hbook]
  | testCaseCreated hid hactive hproblem hcast =>
      rw [books_addTestCase hid, apply_testCase rfl, onTestCase_created hactive (hproblem ▸ hcast)]
  | testCaseSaved ht hid hedit =>
      obtain ⟨htarget, hdoc, tell, htell, hbook, -⟩ := hedit.tells
      obtain rfl := Option.some.inj (((Database.find?_id_eq_some db.testCases_nodup).mpr
        ⟨ht, hid⟩).symm.trans (hcopied _ rfl))
      rw [saveCaseOver_loaded hdoc, books_saveTestCase ht hdoc, apply_testCase htarget,
        testCase_books_of_mem ht, htell, hbook]

end

end CodeArena.Service
