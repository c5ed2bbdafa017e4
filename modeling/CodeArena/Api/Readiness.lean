import CodeArena.Api.Deactivation

/-!
# The readiness of a problem

`getProblemReadiness` and `listProblems` count alike: both come to the numbers of active
public and active hidden test cases (`getProblemReadiness_eq`, `listed_readiness`).  The
object made of these numbers is ready where there is a public test case, while its list of
what is missing asks for a hidden one as well; and `createProblem` reports an object of its
own, whose list no numbers come to.

So readiness has the documented meaning just for the problems that the last call on the
database did not create, and that have an active hidden test case, or no active public one
(`readiness_iff`).  What the last call was is no matter of the database alone: a database
comes with the calls that were made on it.
-/

namespace CodeArena.Api

open CodeArena.Lib
open CodeArena.Submissions (ObjectId Time JsError)

/-- The numbers of active public and active hidden test cases. -/
def Database.counts (db : Database) (problemId : ObjectId) : Counts :=
  ⟨db.countActive problemId .pub, db.countActive problemId .hidden⟩

/-! ## The loops over the groups -/

/-- The count of a visibility. -/
def Counts.get (c : Counts) : Visibility → Nat
  | .pub => c.publicCount
  | .hidden => c.hiddenCount

theorem Counts.ext_get {c d : Counts} (h : ∀ v, c.get v = d.get v) : c = d := by
  obtain ⟨p, q⟩ := c
  obtain ⟨p', q'⟩ := d
  obtain rfl : p = p' := h .pub
  obtain rfl : q = q' := h .hidden
  rfl

theorem Counts.get_assign (c : Counts) (v w : Visibility) (n : Nat) :
    (c.assign w n).get v = if w = v then n else c.get v := by
  cases v <;> cases w <;> rfl

theorem Database.get_counts (db : Database) (problemId : ObjectId) (v : Visibility) :
    (db.counts problemId).get v = db.countActive problemId v := by
  cases v <;> rfl

/-- The loop over the groups comes to the value of each of them. -/
theorem Counts.get_ofGroups (groups : OrderedMap Visibility Nat) (v : Visibility) :
    (Counts.ofGroups groups).get v = groups.value v := by
  have hfold : ∀ (es : List (Visibility × Nat)) (c : Counts),
      (es.foldl (fun c e ↦ Counts.assign c e.1 e.2) c).get v =
        es.foldl (fun acc e ↦ if e.1 = v then e.2 else acc) (c.get v) := by
    intro es
    induction es with
    | nil => exact fun _ ↦ rfl
    | cons e es ih =>
        intro c
        rw [List.foldl_cons, List.foldl_cons, ih, Counts.get_assign]
  have hzero : Counts.zero.get v = 0 := by cases v <;> rfl
  rw [Counts.ofGroups, hfold, hzero, OrderedMap.foldl_assign]
  rfl

/-- **`getProblemReadiness` counts the active test cases of the problem.** -/
theorem getProblemReadiness_eq (db : Database) (problemId : ObjectId) :
    getProblemReadiness db problemId = (db.counts problemId).readiness := by
  have hcounts : Counts.ofGroups (activeByVisibility db problemId) = db.counts problemId := by
    apply Counts.ext_get
    intro v
    rw [Counts.get_ofGroups, db.get_counts, activeByVisibility, OrderedMap.value_tally,
      List.countP_map, List.countP_filter, Database.countActive]
    apply List.countP_congr
    intro t _
    simp only [Function.comp_apply, Bool.and_eq_true, decide_eq_true_eq]
    constructor
    · rintro ⟨hv, hp, ha⟩
      exact ⟨hp, ha, hv⟩
    · rintro ⟨hp, ha, hv⟩
      exact ⟨hv, hp, ha⟩
  rw [getProblemReadiness, hcounts]

/-- The map that `listProblems` makes of the groups comes to the value of each of them. -/
theorem get_countsMap (groups : OrderedMap (ObjectId × Visibility) Nat) (id : ObjectId)
    (v : Visibility) :
    (((countsMap groups).get? id).getD .zero).get v = groups.value (id, v) := by
  have hfold : ∀ (es : List ((ObjectId × Visibility) × Nat)) (m : OrderedMap ObjectId Counts),
      (((es.foldl (fun m e ↦ m.update e.1.1
          fun current ↦ (current.getD Counts.zero).assign e.1.2 e.2) m).get? id).getD
            .zero).get v =
        es.foldl (fun acc e ↦ if e.1 = (id, v) then e.2 else acc)
          (((m.get? id).getD .zero).get v) := by
    intro es
    induction es with
    | nil => exact fun _ ↦ rfl
    | cons e es ih =>
        intro m
        obtain ⟨⟨id', w⟩, n⟩ := e
        rw [List.foldl_cons, List.foldl_cons, ih, OrderedMap.get?_update]
        by_cases hid : id = id'
        · subst hid
          simp [Counts.get_assign]
        · simp [hid, Ne.symm hid]
  have hzero : Counts.zero.get v = 0 := by cases v <;> rfl
  rw [countsMap, hfold, OrderedMap.get?_empty, Option.getD_none, hzero, OrderedMap.foldl_assign]
  rfl

/-- **`listProblems` counts the active test cases of every problem on the page.** -/
theorem countsMap_eq (db : Database) {problemIds : List ObjectId} {id : ObjectId}
    (h : id ∈ problemIds) :
    ((countsMap (activeTestCounts db problemIds)).get? id).getD .zero = db.counts id := by
  apply Counts.ext_get
  intro v
  rw [get_countsMap, db.get_counts, activeTestCounts, OrderedMap.value_tally, List.countP_map,
    List.countP_filter, Database.countActive]
  apply List.countP_congr
  intro t _
  simp only [Function.comp_apply, Bool.and_eq_true, Prod.mk.injEq, decide_eq_true_eq]
  constructor
  · rintro ⟨⟨hp, hv⟩, -, ha⟩
    exact ⟨hp, ha, hv⟩
  · rintro ⟨hp, ha, hv⟩
    exact ⟨⟨hp, hv⟩, hp ▸ h, ha⟩

/-! ## What is reported -/

/-- The database after calls, made one after another. -/
def Database.afterAll (db : Database) (calls : List Change) : Database :=
  calls.foldl Change.apply db

/-- The last of the calls created the problem, which has no test cases yet. -/
def JustCreated (start : Database) (calls : List Change) (p : Problem) : Prop :=
  ∃ earlier now data authorId details,
    calls = earlier ++ [.createProblem now p.id data authorId] ∧
    createProblem now p.id data authorId (start.afterAll earlier) =
      .ok (details, start.afterAll calls) ∧
    ∀ t ∈ (start.afterAll calls).testCases, t.problemId ≠ p.id

/-- The readiness objects reported for a problem, after calls on a database. -/
inductive Reports (ext : Externals) (start : Database) (calls : List Change) (p : Problem) :
    Readiness → Prop
  /-- By `createProblem`, right after the creation, with no test cases. -/
  | created {earlier : List Change} {now : Time} {data : ProblemData} {authorId : ObjectId}
      {details : ProblemDetails} : calls = earlier ++ [.createProblem now p.id data authorId] →
      createProblem now p.id data authorId (start.afterAll earlier) =
        .ok (details, start.afterAll calls) →
      (∀ t ∈ (start.afterAll calls).testCases, t.problemId ≠ p.id) →
      Reports ext start calls p details.readiness
  /-- By `updateProblem`. -/
  | updated {now : Time} {updateData : ProblemUpdate} {details : ProblemDetails} {db' : Database} :
      updateProblem now p.id updateData (start.afterAll calls) = .ok (details, db') →
      Reports ext start calls p details.readiness
  /-- By `listProblems`, on a page with the problem. -/
  | listed {q : ListParams} {user : Option ObjectId} {result : ProblemList} {s : ProblemSummary} :
      listProblems ext q user (start.afterAll calls) = .ok result → s ∈ result.problems →
      s.id = p.id → Reports ext start calls p s.readiness
  /-- By `getProblemById`. -/
  | shown {details : ProblemDetails} : getProblemById p.id (start.afterAll calls) = .ok details →
      Reports ext start calls p details.readiness

/-- Readiness has one meaning for the problem: what is reported is always the same, with
the numbers of active test cases, and ready just when nothing is missing, which is when
there is a public and a hidden one. -/
structure OneMeaning (ext : Externals) (start : Database) (calls : List Change) (p : Problem) :
    Prop where
  same : ∀ r r', Reports ext start calls p r → Reports ext start calls p r' → r = r'
  publicCount : ∀ r, Reports ext start calls p r →
    r.publicCount = (start.afterAll calls).countActive p.id .pub
  hiddenCount : ∀ r, Reports ext start calls p r →
    r.hiddenCount = (start.afterAll calls).countActive p.id .hidden
  isReady_iff : ∀ r, Reports ext start calls p r →
    (r.isReady = true ↔ r.missingRequirements = [])
  documented : ∀ r, Reports ext start calls p r →
    (r.isReady = true ↔ 0 < (start.afterAll calls).countActive p.id .pub ∧
      0 < (start.afterAll calls).countActive p.id .hidden)

/-! ## What is computed -/

theorem Counts.isReady_iff (c : Counts) : c.readiness.isReady = true ↔ 0 < c.publicCount := by
  simp only [readiness, Bool.and_eq_true, decide_eq_true_eq]
  constructor
  · exact fun h ↦ h.2
  · exact fun h ↦ ⟨Nat.add_pos_left h _, h⟩

/-- Nothing is missing where there is a test case of either visibility. -/
theorem Counts.missingRequirements_eq_nil (c : Counts) :
    c.readiness.missingRequirements = [] ↔ 0 < c.publicCount ∧ 0 < c.hiddenCount := by
  obtain ⟨p, h⟩ := c
  cases p with
  | zero => simp [readiness]
  | succ p =>
      cases h with
      | zero => simp [readiness]
      | succ h => simp [readiness]

/-- What `createProblem` reports is not made of any numbers. -/
theorem Counts.readiness_ne_created (c : Counts) : c.readiness ≠ createdReadiness := by
  intro h
  have hpublic : c.publicCount = 0 := congrArg Readiness.publicCount h
  have hhidden : c.hiddenCount = 0 := congrArg Readiness.hiddenCount h
  have hmissing := congrArg (fun r ↦ r.missingRequirements.length) h
  simp [readiness, createdReadiness, hpublic, hhidden] at hmissing

section

variable {ext : Externals} {db : Database} {p : Problem}

theorem createProblem_readiness {now : Time} {id : ObjectId} {data : ProblemData}
    {authorId : ObjectId} {db₀ : Database} {details : ProblemDetails}
    (h : createProblem now id data authorId db₀ = .ok (details, db)) :
    details.readiness = createdReadiness := by
  unfold createProblem at h
  split at h
  · split at h
    · cases h
      rfl
    · cases h
  · cases h

theorem updateProblem_readiness {now : Time} {id : ObjectId} {updateData : ProblemUpdate}
    {details : ProblemDetails} {db' : Database}
    (h : updateProblem now id updateData db = .ok (details, db')) :
    details.readiness = (db.counts id).readiness := by
  unfold updateProblem at h
  split at h
  · cases h
  · rename_i problem hfind
    dsimp only at h
    split at h
    · cases h
      -- The document that is saved is no test case.
      rw [← (Database.findProblem_eq_some.mp hfind).2]
      exact getProblemReadiness_eq _ _
    · cases h

theorem listed_readiness {q : ListParams} {user : Option ObjectId} {result : ProblemList}
    (h : listProblems ext q user db = .ok result) {s : ProblemSummary}
    (hs : s ∈ result.problems) : s.readiness = (db.counts s.id).readiness := by
  unfold listProblems at h
  split at h
  · cases h
  · cases h
    obtain ⟨r, hr, rfl⟩ := List.mem_map.mp hs
    exact congrArg Counts.readiness (countsMap_eq db (List.mem_map_of_mem hr))

theorem getProblemById_readiness {id : ObjectId} {details : ProblemDetails}
    (h : getProblemById id db = .ok details) :
    details.readiness = (db.counts id).readiness := by
  unfold getProblemById at h
  split at h
  · cases h
  · rename_i problem hfind
    split at h
    · cases h
      rw [← (Database.findProblem_eq_some.mp hfind).2]
      exact getProblemReadiness_eq _ _
    · cases h

end

section

variable {ext : Externals} {start : Database} {calls : List Change} {p : Problem}

/-- Whatever is reported is computed from the numbers, unless the problem has just been
created. -/
theorem Reports.eq_counts {r : Readiness} (h : Reports ext start calls p r)
    (hnot : ¬ JustCreated start calls p) : r = ((start.afterAll calls).counts p.id).readiness := by
  cases h with
  | created hcalls h hnone => exact absurd ⟨_, _, _, _, _, hcalls, h, hnone⟩ hnot
  | updated h => exact updateProblem_readiness h
  | listed h hs hid =>
      rw [listed_readiness h hs, hid]
  | shown h => exact getProblemById_readiness h

/-- Something is reported for every active problem. -/
theorem reports_shown (ext : Externals) (hp : p ∈ (start.afterAll calls).problems)
    (hactive : p.isActive = true) :
    Reports ext start calls p ((start.afterAll calls).counts p.id).readiness := by
  have hfind : (start.afterAll calls).findProblem p.id = some p :=
    Database.findProblem_eq_some.mpr ⟨hp, rfl⟩
  obtain ⟨details, hdetails⟩ : ∃ details,
      getProblemById p.id (start.afterAll calls) = .ok details := by
    unfold getProblemById
    rw [hfind]
    dsimp only
    rw [if_pos hactive]
    exact ⟨_, rfl⟩
  rw [← getProblemById_readiness hdetails]
  exact .shown hdetails

/-- **Readiness has one meaning just for the problems that the last call did not create, and
that have an active hidden test case, or no active public one.**  With no calls, `start` is
any database. -/
theorem readiness_iff (ext : Externals) (hp : p ∈ (start.afterAll calls).problems)
    (hactive : p.isActive = true) :
    OneMeaning ext start calls p ↔ ¬ JustCreated start calls p ∧
      (0 < (start.afterAll calls).countActive p.id .hidden ∨
        (start.afterAll calls).countActive p.id .pub = 0) := by
  have hshown := reports_shown ext hp hactive
  constructor
  · intro h
    constructor
    · rintro ⟨earlier, now, data, authorId, details, hcalls, hcreate, hnone⟩
      have hsame := h.same _ _ hshown (.created hcalls hcreate hnone)
      rw [createProblem_readiness hcreate] at hsame
      exact Counts.readiness_ne_created _ hsame
    · have hdocumented := h.documented _ hshown
      rw [Counts.isReady_iff] at hdocumented
      rcases Nat.eq_zero_or_pos ((start.afterAll calls).countActive p.id .pub) with hzero | hpos
      · exact .inr hzero
      · exact .inl (hdocumented.mp hpos).2
  · rintro ⟨hnot, hcounts⟩
    have hready : ((start.afterAll calls).counts p.id).readiness.isReady = true ↔
        0 < (start.afterAll calls).countActive p.id .pub ∧
          0 < (start.afterAll calls).countActive p.id .hidden := by
      rw [Counts.isReady_iff]
      constructor
      · intro hpos
        refine ⟨hpos, hcounts.resolve_right ?_⟩
        exact Nat.pos_iff_ne_zero.mp hpos
      · exact fun h ↦ h.1
    constructor
    case same =>
      intro r r' hr hr'
      rw [hr.eq_counts hnot, hr'.eq_counts hnot]
    case publicCount =>
      intro r hr
      rw [hr.eq_counts hnot]
      rfl
    case hiddenCount =>
      intro r hr
      rw [hr.eq_counts hnot]
      rfl
    case isReady_iff =>
      intro r hr
      rw [hr.eq_counts hnot, Counts.missingRequirements_eq_nil]
      exact hready
    case documented =>
      intro r hr
      rw [hr.eq_counts hnot]
      exact hready

end

/-- The calls that make a problem and a test case of either visibility. -/
def Change.prepared : List Change :=
  [.createProblem 0 1 .sample 1, .createTestCase 0 2 1 (.sample .pub),
    .createTestCase 0 3 1 (.sample .hidden)]

/-- A new problem with both test cases has one readiness. -/
theorem readiness_iff_prepared : OneMeaning .sample (.init []) Change.prepared (.sample 1 true) := by
  have hmem : Problem.sample 1 true ∈ ((Database.init []).afterAll Change.prepared).problems :=
    List.mem_singleton.mpr (by decide)
  refine (readiness_iff .sample hmem rfl).mpr ⟨?_, .inl (by decide)⟩
  -- The last call made a test case.
  rintro ⟨earlier, now, data, authorId, details, hcalls, -, -⟩
  have hlast := congrArg List.getLast? hcalls
  rw [List.getLast?_concat] at hlast
  cases hlast

/-- A database with an active problem and a public test case. -/
def Database.tested : Database :=
  ⟨[.sample 1 true], [.sample 2 1 .pub], [], by decide, by decide⟩

/-- **Readiness has more than one meaning.**  A problem that has just been created misses one
thing by the answer to its creation and three by its page, and a problem without hidden
test cases is ready although it misses them. -/
theorem readiness_differs :
    (∃ details db shown, createProblem 0 1 .sample 1 (.init []) = .ok (details, db) ∧
      getProblemById 1 db = .ok shown ∧
      details.readiness.missingRequirements.length = 1 ∧
      shown.readiness.missingRequirements.length = 3) ∧
    ∃ shown, getProblemById 1 .tested = .ok shown ∧ shown.readiness.isReady = true ∧
      shown.readiness.missingRequirements = ["Missing active hidden test cases"] := by
  constructor
  · exact ⟨_, _, _, rfl, rfl, rfl, rfl⟩
  · exact ⟨_, rfl, rfl, rfl⟩

end CodeArena.Api
