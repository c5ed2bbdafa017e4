import CodeArena.Seeds.Model

/-!
# The calls of the seed script

What each call of the process leaves: it is an upsert of one document in one collection, under
the query of the script, and the document is then as the script says
(`seedUser_spec`, `seedProblem_spec`, `upsertTestCase_spec`).  A document that is so already stays as
it is, but for the time of a test case.
-/

namespace CodeArena.Seeds

open CodeArena.Lib CodeArena.Lib.Utf
open CodeArena.Engine (trim)
open CodeArena.Submissions (ObjectId Time JsError)
open CodeArena.Api (Database Problem TestCase TestCaseData)
open CodeArena.Accounts (Auth LawfulAuth User Users)
open CodeArena.Service (Env)

/-! ## The documents as the script says -/

/-- The filter for an account. -/
def hasEmail (auth : Auth) (email : JsString) (user : User) : Bool :=
  user.email = auth.normalizeEmail email

/-- An account as the script says. -/
structure SeedUser.IsSeeded (auth : Auth) (u : SeedUser) (user : User) : Prop where
  name : user.name = trim u.name
  role : user.role = u.role
  isActive : user.isActive = u.isActive
  password : auth.verify user.passwordHash u.password = .ok true

/-- A problem as the script says, but for its test cases. -/
structure SeedProblem.IsSeeded (adminUser : ObjectId) (p : SeedProblem) (problem : Problem) :
    Prop where
  data : problem.toProblemData = p.trimmed
  authorId : problem.authorId = adminUser
  isActive : problem.isActive = true

/-- A test case as the script says. -/
structure IsSeededCase (tc : TestCaseData) (t : TestCase) : Prop where
  data : t.toTestCaseData = tc
  isActive : t.isActive = true

/-- What an account keeps. -/
def userKey (user : User) : ObjectId × JsString := (user.id, user.email)

/-- What a problem keeps. -/
def problemKey (problem : Problem) : ObjectId × JsString := (problem.id, problem.title)

theorem SeedUser.assign_key (u : SeedUser) (passwordHash : JsString) (now : Time) (user : User) :
    userKey (u.assign passwordHash now user) = userKey user := by
  rw [userKey, u.assign_id, u.assign_email, userKey]

/-! ## Saving is an upsert -/

theorem replace_eq_modifyFirst {α : Type} {id : α → ObjectId} {xs : List α}
    (hn : (xs.map id).Nodup) {p : α → Bool} {f : α → α} {x : α} (hid : id (f x) = id x)
    (hx : xs.find? p = some x) : Database.replace id (f x) xs = modifyFirst p f xs := by
  rw [modifyFirst_eq_map hn hx, Database.replace, hid]

/-- A document that is found and saved, and still meets the query. -/
theorem upserted_replace {α κ : Type} {id : α → ObjectId} {key : α → κ} {xs : List α}
    (hn : (xs.map id).Nodup) {p : α → Bool} {f : α → α} {x : α} (hx : xs.find? p = some x)
    (hid : id (f x) = id x) (hkey : ∀ y, key (f y) = key y)
    (hp : ∀ y, p y = true → p (f y) = true) :
    Upserted key p xs (f x) (Database.replace id (f x) xs) := by
  rw [replace_eq_modifyFirst hn hid hx]
  exact .modified ⟨hp, List.find?_some hx⟩ hkey hx

section

variable {auth : Auth} {env : Env}

/-! ## Accounts -/

theorem SeedUser.assign_of_isSeeded {u : SeedUser} {existing : User} (now : Time)
    (h : u.IsSeeded auth existing) : u.assign existing.passwordHash now existing = existing := by
  rw [SeedUser.assign, ← h.name, ← h.role, ← h.isActive]
  exact if_pos rfl

theorem SeedUser.isSeeded_assign {u : SeedUser} {existing : User} {passwordHash : JsString}
    (now : Time) (h : auth.verify passwordHash u.password = .ok true) :
    u.IsSeeded auth (u.assign passwordHash now existing) := by
  unfold assign
  dsimp only
  split
  · rename_i heq
    rw [← heq]
    exact ⟨rfl, rfl, rfl, h⟩
  · exact ⟨rfl, rfl, rfl, h⟩

theorem saveUser_eq_ok {us us' : Users} {existing user user' : User} {h : existing ∈ us.docs}
    {hid : user.id = existing.id} {hemail : user.email = existing.email}
    (hsave : saveUser us h hid hemail = .ok (user', us')) :
    user' = user ∧ us'.docs = Database.replace User.id user us.docs ∧ user.accepted = true := by
  unfold saveUser at hsave
  split at hsave
  · rename_i haccepted
    cases hsave
    exact ⟨rfl, rfl, haccepted⟩
  · cases hsave

/-- **A seeded account.** -/
theorem seedUser_spec (hauth : LawfulAuth auth) {u : SeedUser} {us us' : Users} {user : User}
    (h : seedUser auth env u us = .ok (user, us')) :
    Upserted userKey (hasEmail auth u.email) us.docs user us'.docs ∧
      u.IsSeeded auth user ∧ user.accepted = true ∧
      ∀ existing, us.findByEmail auth u.email = some existing → u.IsSeeded auth existing →
        user = existing := by
  unfold seedUser at h
  split at h
  · rename_i existing hfind
    split at h
    · cases h
    · rename_i isMatch hverify
      obtain ⟨rfl, hdocs, haccepted⟩ := saveUser_eq_ok h
      have hgood : auth.verify (if isMatch then existing.passwordHash
          else auth.hash env.salt u.password) u.password = .ok true := by
        split
        · rename_i hmatch
          rw [hverify, hmatch]
        · exact hauth.verify_hash _ _
      refine ⟨hdocs ▸ upserted_replace (f := u.assign _ env.now) us.ids_nodup hfind
        (u.assign_id _ _ _) (u.assign_key _ _) fun y hy ↦ ?_, SeedUser.isSeeded_assign _ hgood, haccepted, ?_⟩
      · rw [hasEmail, u.assign_email]
        exact hy
      · intro existing' hfind' hseeded
        obtain rfl := Option.some.inj (hfind.symm.trans hfind')
        obtain rfl : isMatch = true := by simpa [hseeded.password] using hverify.symm
        exact SeedUser.assign_of_isSeeded env.now hseeded
  · rename_i hfind
    unfold Users.create at h
    dsimp only at h
    split at h
    · rename_i haccepted
      split at h
      · split at h
        · cases h
          refine ⟨.added (decide_eq_true rfl) hfind, ⟨rfl, rfl, rfl, hauth.verify_hash _ _⟩,
            haccepted, ?_⟩
          intro existing hsome
          rw [hfind] at hsome
          cases hsome
        · cases h
      · cases h
    · cases h

/-! ## Problems -/

theorem SeedProblem.assign_id (p : SeedProblem) (adminUser : ObjectId) (now : Time)
    (existing : Problem) : (p.assign adminUser now existing).id = existing.id := by
  unfold assign
  dsimp only
  split <;> rfl

theorem SeedProblem.assign_title (p : SeedProblem) (adminUser : ObjectId) (now : Time)
    (existing : Problem) : (p.assign adminUser now existing).title = existing.title := by
  unfold assign
  dsimp only
  split <;> rfl

theorem SeedProblem.assign_key (p : SeedProblem) (adminUser : ObjectId) (now : Time)
    (existing : Problem) :
    problemKey (p.assign adminUser now existing) = problemKey existing := by
  rw [problemKey, p.assign_id, p.assign_title, problemKey]

theorem SeedProblem.assign_of_isSeeded {p : SeedProblem} {adminUser : ObjectId}
    {existing : Problem} (now : Time) (h : p.IsSeeded adminUser existing) :
    p.assign adminUser now existing = existing := by
  have hdata : { p.trimmed with title := existing.title } = existing.toProblemData := by
    rw [h.data]
  unfold assign
  dsimp only
  rw [hdata, ← h.authorId, ← h.isActive]
  exact if_pos rfl

theorem SeedProblem.isSeeded_assign {p : SeedProblem} {adminUser : ObjectId} {existing : Problem}
    (now : Time) (h : existing.title = trim p.title) :
    p.IsSeeded adminUser (p.assign adminUser now existing) := by
  unfold assign
  dsimp only
  rw [h]
  split
  · rename_i heq
    rw [← heq]
    exact ⟨rfl, rfl, rfl⟩
  · exact ⟨rfl, rfl, rfl⟩

/-- **A seeded problem.** -/
theorem seedProblem_spec {adminUser problemId : ObjectId} {p : SeedProblem} {db db' : Database}
    (h : seedProblem env adminUser p db = .ok (problemId, db')) :
    ∃ problem, problem.id = problemId ∧
      Upserted problemKey (hasTitle p.title) db.problems problem db'.problems ∧
      p.IsSeeded adminUser problem ∧
      db'.testCases = db.testCases ∧ db'.submissions = db.submissions ∧
      ∀ existing, db.problems.find? (hasTitle p.title) = some existing →
        p.IsSeeded adminUser existing → problem = existing := by
  unfold seedProblem at h
  split at h
  · rename_i existing hfind
    have hmeets := List.find?_some hfind
    have htitle : existing.title = trim p.title := of_decide_eq_true hmeets
    dsimp only at h
    split at h
    · cases h
      refine ⟨_, rfl, upserted_replace (f := p.assign adminUser env.now) db.problems_nodup hfind
        (p.assign_id _ _ _) (p.assign_key _ _) fun y hy ↦ ?_, SeedProblem.isSeeded_assign env.now htitle,
        rfl, rfl, ?_⟩
      · rw [hasTitle, p.assign_title]
        exact hy
      · intro existing' hfind' hseeded
        obtain rfl := Option.some.inj (hfind.symm.trans hfind')
        exact SeedProblem.assign_of_isSeeded env.now hseeded
    · cases h
  · rename_i hfind
    split at h
    · split at h
      · cases h
        refine ⟨_, rfl, .added (decide_eq_true rfl) hfind, ⟨rfl, rfl, rfl⟩, rfl, rfl, ?_⟩
        intro existing hsome
        rw [hfind] at hsome
        cases hsome
      · cases h
    · cases h

/-! ## Test cases -/

/-- The time of the last update apart. -/
def SameCase (t t' : TestCase) : Prop := t' = { t with updatedAt := t'.updatedAt }

theorem SameCase.refl (t : TestCase) : SameCase t t := rfl

/-- **A seeded test case.** -/
theorem upsertTestCase_spec {problemId id : ObjectId} {tc : TestCaseData} {db db' : Database}
    (h : upsertTestCase env problemId tc db = .ok (id, db')) :
    ∃ t, t.id = id ∧ Upserted TestCase.id (isCase problemId tc) db.testCases t db'.testCases ∧
      IsSeededCase tc t ∧
      db'.problems = db.problems ∧ db'.submissions = db.submissions ∧
      ∀ existing, db.testCases.find? (isCase problemId tc) = some existing →
        IsSeededCase tc existing → SameCase existing t := by
  unfold upsertTestCase at h
  split at h
  · rename_i existing hfind
    cases h
    have hmeets := List.find?_some hfind
    have hproblem : existing.problemId = problemId := (of_decide_eq_true hmeets).1
    refine ⟨assignCase problemId tc env.now existing, rfl, upserted_replace
      (f := assignCase problemId tc env.now) db.testCases_nodup hfind rfl
      (fun _ ↦ rfl) fun y _ ↦ ?_, ⟨rfl, rfl⟩, rfl, rfl, ?_⟩
    · exact decide_eq_true ⟨rfl, rfl⟩
    · intro existing' hfind' hseeded
      obtain rfl := Option.some.inj (hfind.symm.trans hfind')
      rw [SameCase, assignCase, ← hseeded.data, ← hseeded.isActive, ← hproblem]
  · rename_i hfind
    split at h
    · cases h
      refine ⟨_, rfl, .added (decide_eq_true ⟨rfl, rfl⟩) hfind, ⟨rfl, rfl⟩, rfl, rfl, ?_⟩
      intro existing hsome
      rw [hfind] at hsome
      cases hsome
    · cases h

end

end CodeArena.Seeds
