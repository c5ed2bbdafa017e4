import CodeArena.Api.Pages

/-!
# Solved problems

Three services say which problems a user has solved: `listProblems` marks the problems of its
page, `getUserSolvedProblems` lists them page by page, and `getUserStats` counts them by their
difficulty.  Each of them joins submissions with problems in its own way.  They agree
(`solved_views_agree`): all of them are about the active problems with an accepted submission of
the user, however many there are of these, and a submission to a problem that is gone counts in
none of them.
-/

namespace CodeArena.Api

open CodeArena.Lib CodeArena.Lib.Utf
open CodeArena.Engine (toUpperCase)
open CodeArena.Submissions (ObjectId JsError)

/-- The active problems on which a user has an accepted submission. -/
def solvedProblems (userId : ObjectId) (db : Database) : List Problem :=
  db.problems.filter fun p ↦ p.isActive && db.submissions.any fun s ↦
    s.userId = userId && s.problemId = p.id && s.verdict = .accepted

/-- The number of solved problems of a difficulty. -/
def UserStats.solved (stats : UserStats) : Difficulty → Nat
  | .easy => stats.easySolved
  | .medium => stats.mediumSolved
  | .hard => stats.hardSolved

/-- `getUserSolvedProblems`, with the sort of its query. -/
def getUserSolvedProblemsBy (order : List Problem → List Problem) (userId : ObjectId)
    (queryParams : SolvedParams) (db : Database) : Except JsError SolvedList :=
  let paging := paging queryParams.page queryParams.limit
  match db.solvedBy userId with
  | [] => .ok ⟨[], ⟨paging.page, paging.limit, 0, 0⟩⟩
  | solvedProblemIds =>
    match solvedDifficultyFilter queryParams.difficulty with
    | .error e => .error e
    | .ok ofDifficulty =>
      let found := db.problems.filter fun p ↦
        p.id ∈ solvedProblemIds && p.isActive && ofDifficulty p
      let problems := paging.slice (order found)
      .ok ⟨problems.map fun p ↦ ⟨p.id, p.title, p.difficulty, p.tags, p.createdAt, true⟩,
        paging.of found.length⟩

theorem getUserSolvedProblems_eq_by (userId : ObjectId) (q : SolvedParams) (db : Database) :
    getUserSolvedProblems userId q db =
      getUserSolvedProblemsBy (sortProblems .absent) userId q db := rfl

/-- A page of solved problems: their ids, in the order of the page. -/
def solvedPage (userId : ObjectId) (q : SolvedParams) (db : Database)
    (order : List Problem → List Problem) (k : Nat) : Except JsError (List ObjectId × Pagination) :=
  (getUserSolvedProblemsBy order userId { q with page := pageParam k } db).map fun result ↦
    (result.problems.map (·.id), result.pagination)

section

variable {userId : ObjectId} {db : Database}

theorem mem_solvedBy_iff {i : ObjectId} : i ∈ db.solvedBy userId ↔
    (db.submissions.any fun s ↦
      s.userId = userId && s.problemId = i && s.verdict = .accepted) = true := by
  rw [Database.solvedBy, List.mem_dedup, List.mem_map, List.any_eq_true]
  refine exists_congr fun s ↦ ?_
  simp only [List.mem_filter, Bool.decide_and, Bool.and_eq_true, decide_eq_true_eq]
  constructor
  · rintro ⟨⟨hs, huser, hverdict⟩, hproblem⟩
    exact ⟨hs, ⟨huser, hproblem⟩, hverdict⟩
  · rintro ⟨hs, ⟨huser, hproblem⟩, hverdict⟩
    exact ⟨⟨hs, huser, hverdict⟩, hproblem⟩

/-- The solved problems by the ids that the services read. -/
theorem solvedProblems_eq :
    solvedProblems userId db =
      db.problems.filter fun p ↦ p.id ∈ db.solvedBy userId && p.isActive := by
  refine List.filter_congr fun p _ ↦ ?_
  rw [Bool.and_comm]
  exact congrArg (· && p.isActive) (Bool.eq_iff_iff.mpr (mem_solvedBy_iff.symm.trans
    decide_eq_true_iff.symm))

theorem solvedProblems_eq_nil (h : db.solvedBy userId = []) : solvedProblems userId db = [] := by
  rw [solvedProblems_eq, h]
  exact List.filter_eq_nil_iff.mpr fun p _ ↦ by simp

theorem mem_solvedProblems_iff {p : Problem} :
    p ∈ solvedProblems userId db ↔
      p ∈ db.problems ∧ p.isActive = true ∧ p.id ∈ db.solvedBy userId := by
  rw [solvedProblems_eq, List.mem_filter, Bool.and_eq_true, decide_eq_true_iff,
    and_comm (a := p.id ∈ _)]

/-- Ids tell problems apart. -/
theorem mem_map_solvedProblems_iff {p : Problem} (hp : p ∈ db.problems)
    (hactive : p.isActive = true) :
    p.id ∈ (solvedProblems userId db).map Problem.id ↔ p.id ∈ db.solvedBy userId := by
  constructor
  · intro h
    obtain ⟨p', hp', hid⟩ := List.mem_map.mp h
    rw [← hid]
    exact (mem_solvedProblems_iff.mp hp').2.2
  · intro h
    exact List.mem_map_of_mem (mem_solvedProblems_iff.mpr ⟨hp, hactive, h⟩)

/-! ## Counting by difficulty -/

theorem Difficulty.name_injective : Function.Injective Difficulty.name := by
  intro d d' h
  cases d <;> cases d' <;> first | rfl | exact absurd h (by decide +kernel)

/-- Every problem has one of three difficulties. -/
theorem length_eq_countP_difficulty (ps : List Problem) :
    ps.length = ps.countP (·.difficulty = .easy) + ps.countP (·.difficulty = .medium) +
      ps.countP (·.difficulty = .hard) := by
  induction ps with
  | nil => rfl
  | cons p ps ih =>
      simp only [List.length_cons, List.countP_cons, ih]
      cases p.difficulty with
      | easy => simp; omega
      | medium => simp; omega
      | hard => simp; omega

/-- The statistics count the solved problems of a difficulty. -/
theorem stats_solved (ext : Externals) (d : Difficulty) :
    (getUserStats ext userId db).solved d =
      (solvedProblems userId db).countP (·.difficulty = d) := by
  have hvalue : (OrderedMap.tally ((db.problems.filter fun p ↦
      p.id ∈ db.solvedBy userId ∧ p.isActive).map (·.difficulty))).value d =
      (solvedProblems userId db).countP (·.difficulty = d) := by
    rw [OrderedMap.value_tally, List.countP_map, solvedProblems_eq]
    simp only [Bool.decide_and, Bool.decide_eq_true]
    rfl
  cases d with
  | easy => exact hvalue
  | medium => exact hvalue
  | hard => exact hvalue

theorem stats_totalProblemsSolved (ext : Externals) :
    (getUserStats ext userId db).totalProblemsSolved = (solvedProblems userId db).length := by
  rw [length_eq_countP_difficulty, ← stats_solved ext .easy, ← stats_solved ext .medium,
    ← stats_solved ext .hard]
  rfl

/-! ## The lists -/

theorem getUserSolvedProblemsBy_of_none (h : db.solvedBy userId = [])
    (order : List Problem → List Problem) (q : SolvedParams) :
    getUserSolvedProblemsBy order userId q db =
      .ok ⟨[], ⟨(paging q.page q.limit).page, (paging q.page q.limit).limit, 0, 0⟩⟩ := by
  rw [getUserSolvedProblemsBy, h]

theorem getUserSolvedProblemsBy_of_some (h : db.solvedBy userId ≠ [])
    (order : List Problem → List Problem) {q : SolvedParams} {ofDifficulty : Problem → Bool}
    (hq : solvedDifficultyFilter q.difficulty = .ok ofDifficulty) :
    getUserSolvedProblemsBy order userId q db =
      .ok ⟨((paging q.page q.limit).slice (order ((solvedProblems userId db).filter
          ofDifficulty))).map fun p ↦ ⟨p.id, p.title, p.difficulty, p.tags, p.createdAt, true⟩,
        (paging q.page q.limit).of ((solvedProblems userId db).filter ofDifficulty).length⟩ := by
  have hfound : (solvedProblems userId db).filter ofDifficulty = db.problems.filter fun p ↦
      p.id ∈ db.solvedBy userId && p.isActive && ofDifficulty p := by
    rw [solvedProblems_eq, List.filter_filter]
    exact List.filter_congr fun p _ ↦ Bool.and_comm _ _
  rw [getUserSolvedProblemsBy, hfound, hq]
  split
  · rename_i hnil
    exact absurd hnil h
  · rfl

/-- The total that is reported. -/
theorem getUserSolvedProblemsBy_total (order : List Problem → List Problem) {q : SolvedParams}
    {ofDifficulty : Problem → Bool}
    (hq : solvedDifficultyFilter q.difficulty = .ok ofDifficulty) :
    ∃ result, getUserSolvedProblemsBy order userId q db = .ok result ∧
      result.pagination.total = (solvedProblems userId db).countP ofDifficulty := by
  by_cases h : db.solvedBy userId = []
  · refine ⟨_, getUserSolvedProblemsBy_of_none h order q, ?_⟩
    rw [solvedProblems_eq_nil h]
    rfl
  · exact ⟨_, getUserSolvedProblemsBy_of_some h order hq, List.countP_eq_length_filter.symm⟩

/-- Without a filter on the difficulty every problem is found. -/
theorem solvedDifficultyFilter_of_not_truthy {p : Param} (h : p.truthy = false) :
    solvedDifficultyFilter p = .ok fun _ ↦ true := by
  cases p with
  | absent => rfl
  | one s =>
      cases s with
      | nil => rfl
      | cons u s => cases h
  | many ss => cases h

/-- The filter of a difficulty, in any case of its letters. -/
theorem solvedDifficultyFilter_of_name {t : JsString} {d : Difficulty}
    (h : toUpperCase t = d.name) :
    solvedDifficultyFilter (.one t) = .ok fun p ↦ p.difficulty = d := by
  refine congrArg Except.ok (funext fun p ↦ ?_)
  cases t with
  | nil =>
      cases d with
      | easy => exact absurd h (by decide +kernel)
      | medium => exact absurd h (by decide +kernel)
      | hard => exact absurd h (by decide +kernel)
  | cons u s =>
      show decide (p.difficulty.name = toUpperCase (u :: s)) = decide (p.difficulty = d)
      rw [h]
      exact decide_eq_decide.mpr Difficulty.name_injective.eq_iff

/-- **The pages of the solved problems** hold each of them once. -/
theorem solvedPage_partition (hdistinct : (db.problems.map (·.createdAt)).Nodup)
    {q : SolvedParams} (hq : q.difficulty.truthy = false) :
    PagesPartition (sortOrder .absent) Problem.id (some (solvedProblems userId db))
      (solvedPage userId q db) := by
  by_cases h : db.solvedBy userId = []
  · refine ⟨_, rfl, fun sorts ↦ ⟨0, fun _ ↦ [], fun k hk ↦ ⟨⟨k, pageLimit q.limit, 0, 0⟩, ?_, rfl⟩,
      ⟨[], ?_, rfl⟩, fun _ _ ↦ rfl⟩⟩
    · rw [solvedPage, getUserSolvedProblemsBy_of_none h, paging_pageParam hk]
      rfl
    · rw [solvedProblems_eq_nil h]
      exact ⟨.nil, .nil⟩
  · have hpaged : Paged Problem.id (pageLimit q.limit) (some (solvedProblems userId db))
        (solvedPage userId q db) := by
      intro xs hxs order k hk
      cases hxs
      have hpage := getUserSolvedProblemsBy_of_some h order (q := { q with page := pageParam k })
        (solvedDifficultyFilter_of_not_truthy hq)
      rw [solvedPage, hpage, paging_pageParam hk, List.filter_true]
      simp only [Except.map, List.map_map]
      rfl
    have hsub : (solvedProblems userId db).Sublist db.problems := List.filter_sublist
    refine (hpaged.partition_iff (pageLimit_pos q.limit) (sortOrder_total .absent) ?_).mpr
      ⟨_, rfl, noStraddle_createdAt (hdistinct.sublist (hsub.map _)) _⟩
    intro xs hxs
    cases hxs
    exact db.problems_nodup.sublist (hsub.map _)

/-- A problem on a page is marked exactly if it is solved. -/
theorem solved_of_listed {ext : Externals} {q : ListParams} (sorting : Sorting (sortOrder q.sort))
    {result : ProblemList} (h : listProblemsBy sorting.run ext q (some userId) db = .ok result)
    {p : ProblemSummary} (hp : p ∈ result.problems) :
    p.solved = true ↔ p.id ∈ (solvedProblems userId db).map Problem.id := by
  rw [listProblemsBy] at h
  split at h
  · cases h
  · rename_i found hfound
    cases h
    obtain ⟨problem, hmem, rfl⟩ := List.mem_map.mp hp
    have hmem' : problem ∈ found :=
      (sorting.arranges found).mem_iff.mp (Paging.mem_of_mem_slice hmem)
    obtain ⟨matchesTitle, -, rfl⟩ := Option.map_eq_some_iff.mp hfound
    obtain ⟨hproblem, hfilter⟩ := List.mem_filter.mp hmem'
    simp only [Bool.and_eq_true] at hfilter
    have hactive : problem.isActive = true := hfilter.1.1.1
    show decide (problem.id ∈ (db.solvedBy userId).filter _) = true ↔
      problem.id ∈ (solvedProblems userId db).map Problem.id
    rw [decide_eq_true_iff, List.mem_filter, mem_map_solvedProblems_iff hproblem hactive]
    exact and_iff_left (decide_eq_true (List.mem_map_of_mem hmem))

/-- **All views of the solved problems agree.**  The pages of `getUserSolvedProblems` hold the
active problems with an accepted submission, `listProblems` marks those of its page, and the
statistics are the totals. -/
theorem solved_views_agree (ext : Externals)
    (hdistinct : (db.problems.map (·.createdAt)).Nodup) (userId : ObjectId) :
    (∀ q : SolvedParams, q.difficulty.truthy = false →
      PagesPartition (sortOrder .absent) Problem.id (some (solvedProblems userId db))
        (solvedPage userId q db)) ∧
    (∀ (q : ListParams) (sorting : Sorting (sortOrder q.sort)) (result : ProblemList),
      listProblemsBy sorting.run ext q (some userId) db = .ok result →
      ∀ p ∈ result.problems,
        p.solved = true ↔ p.id ∈ (solvedProblems userId db).map Problem.id) ∧
    (getUserStats ext userId db).totalProblemsSolved = (solvedProblems userId db).length ∧
    (∀ (q : SolvedParams) (sorting : Sorting (sortOrder .absent)), q.difficulty.truthy = false →
      ∃ result, getUserSolvedProblemsBy sorting.run userId q db = .ok result ∧
        result.pagination.total = (solvedProblems userId db).length) ∧
    ∀ (d : Difficulty) (t : JsString), toUpperCase t = d.name →
      ∀ (q : SolvedParams) (sorting : Sorting (sortOrder .absent)), q.difficulty = .one t →
        ∃ result, getUserSolvedProblemsBy sorting.run userId q db = .ok result ∧
          result.pagination.total = (getUserStats ext userId db).solved d := by
  refine ⟨fun q hq ↦ solvedPage_partition hdistinct hq, fun q sorting result h p hp ↦
    solved_of_listed sorting h hp, stats_totalProblemsSolved ext, ?_, ?_⟩
  · intro q sorting hq
    obtain ⟨result, hresult, htotal⟩ :=
      getUserSolvedProblemsBy_total sorting.run (solvedDifficultyFilter_of_not_truthy hq)
    refine ⟨result, hresult, htotal.trans ?_⟩
    rw [List.countP_true]
  · intro d t ht q sorting hq
    have hfilter : solvedDifficultyFilter q.difficulty = .ok fun p ↦ p.difficulty = d :=
      hq ▸ solvedDifficultyFilter_of_name ht
    obtain ⟨result, hresult, htotal⟩ := getUserSolvedProblemsBy_total sorting.run hfilter
    exact ⟨result, hresult, htotal.trans (stats_solved ext d).symm⟩

end

theorem twoIds_nodup : ([1, 2] : List ObjectId).Nodup := by decide

/-- A problem that was solved twice, one that was not, and a submission to none. -/
def solvedTwice : Database :=
  ⟨[.sample 1 true, { Problem.sample 2 true with createdAt := 1 }], [],
    [.sample 3 7 1 .accepted, .sample 4 7 1 .accepted, .sample 5 7 9 .accepted,
      .sample 6 7 2 .wrongAnswer],
    twoIds_nodup, List.nodup_nil⟩

/-- It is counted once, and is on the pages once. -/
theorem solved_views_agree_twice :
    (getUserStats .sample 7 solvedTwice).totalProblemsSolved = 1 ∧
      PagesPartition (sortOrder .absent) Problem.id (some [.sample 1 true])
        (solvedPage 7 ⟨.absent, .absent, .absent⟩ solvedTwice) := by
  have hdistinct : (solvedTwice.problems.map (·.createdAt)).Nodup := by decide +kernel
  have h := solved_views_agree .sample hdistinct 7
  exact ⟨h.2.2.1, h.1 ⟨.absent, .absent, .absent⟩ rfl⟩

end CodeArena.Api
