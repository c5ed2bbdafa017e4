import CodeArena.Api.Users
import CodeArena.Lib.Pages

/-!
# Pages of a list

`listProblems` and `getMySubmissions` return one page of a sorted list at a time, each page
from a query of its own.  MongoDB may bring documents with equal sort keys in another order for
each of these queries, so that here a query comes with its sort.  The services as they are
modelled elsewhere are the ones whose sort keeps the order of equal keys.

The arithmetic of the pages is right: where the queries agree, the pages from 1 to `totalPages`
hold every document once, and the pages after them are empty.  The sort is not: its key does
not tell documents apart, and one with a key that straddles two pages can be returned twice
while another is never returned (`pages_partition_iff`).
-/

namespace CodeArena.Api

open CodeArena.Lib CodeArena.Lib.Utf
open CodeArena.Engine (isWhitespace)
open CodeArena.Submissions (ObjectId Time JsError)

/-! ## Page numbers -/

/-- The parameter for a page, as a client writes it. -/
def pageParam (k : Nat) : Param := .one (js (toString k))

/-- The code of a digit. -/
theorem toNat_of_isDigit {c : Char} (h : c.isDigit = true) : 0x30 ≤ c.toNat ∧ c.toNat ≤ 0x39 := by
  simp only [Char.isDigit, Bool.and_eq_true, decide_eq_true_eq, ge_iff_le, UInt32.le_iff_toNat_le]
    at h
  exact h

theorem utf16Encode_digits {cs : List Char} (h : ∀ c ∈ cs, c.isDigit = true) :
    utf16Encode cs = cs.map fun c ↦ UInt16.ofNat c.toNat := by
  induction cs with
  | nil => rfl
  | cons c cs ih =>
      have hsmall : c.toNat < 0x10000 :=
        Nat.lt_of_le_of_lt (toNat_of_isDigit (h c List.mem_cons_self)).2 (by decide)
      have hcs : utf16Encode cs = cs.map fun c ↦ UInt16.ofNat c.toNat :=
        ih fun c' hc' ↦ h c' (List.mem_cons_of_mem c hc')
      rw [utf16Encode, List.flatMap_cons, utf16EncodeChar, if_pos hsmall]
      exact congrArg (UInt16.ofNat c.toNat :: ·) hcs

theorem toNat_unit_of_isDigit {c : Char} (h : c.isDigit = true) :
    (UInt16.ofNat c.toNat).toNat = c.toNat := by
  rw [UInt16.toNat_ofNat']
  exact Nat.mod_eq_of_lt (Nat.lt_of_le_of_lt (toNat_of_isDigit h).2 (by decide))

theorem isDigit_unit {c : Char} (h : c.isDigit = true) :
    isDigit (UInt16.ofNat c.toNat) = true := by
  have hu := toNat_unit_of_isDigit h
  obtain ⟨hle, hge⟩ := toNat_of_isDigit h
  simp only [isDigit, decide_eq_true_eq, UInt16.le_iff_toNat_le, hu]
  exact ⟨hle, hge⟩

/-- White space is no digit. -/
theorem isDigit_of_isWhitespace {u : CodeUnit} (h : isWhitespace u = true) :
    isDigit u = false := by
  have hmem : u ∈ _ := of_decide_eq_true h
  have hdigit := List.all_eq_true (p := fun u ↦ !isDigit u).mp (by decide) u hmem
  simpa using hdigit

theorem foldl_digits {cs : List Char} (h : ∀ c ∈ cs, c.isDigit = true) (n : Nat) :
    (cs.map fun c ↦ UInt16.ofNat c.toNat).foldl (fun n u ↦ 10 * n + (u.toNat - 0x30)) n =
      Nat.ofDigitChars 10 cs n := by
  induction cs generalizing n with
  | nil => simp
  | cons c cs ih =>
      rw [List.map_cons, List.foldl_cons, toNat_unit_of_isDigit (h c List.mem_cons_self),
        ih fun c' hc' ↦ h c' (List.mem_cons_of_mem c hc'), Nat.ofDigitChars_cons]
      rfl

theorem leadingNumber_cons {s us : JsString} {u : CodeUnit}
    (h : s.takeWhile isDigit = u :: us) : leadingNumber s = some (digitsValue (u :: us)) := by
  rw [leadingNumber, h]

/-- `parseInt` reads a numeral back. -/
theorem parseInt_toString (n : Nat) : parseInt (js (toString n)) = some (n : Int) := by
  have hdigits : ∀ c ∈ Nat.toDigits 10 n, c.isDigit = true :=
    fun c hc ↦ Nat.isDigit_of_mem_toDigits (by decide) (by decide) hc
  have hjs : js (toString n) = (Nat.toDigits 10 n).map fun c ↦ UInt16.ofNat c.toNat := by
    rw [js, Nat.toString_eq_repr, Nat.toList_repr, utf16Encode_digits hdigits]
  have hall : ∀ u ∈ js (toString n), isDigit u = true := by
    intro u hu
    rw [hjs] at hu
    obtain ⟨c, hc, rfl⟩ := List.mem_map.mp hu
    exact isDigit_unit (hdigits c hc)
  have hvalue : digitsValue (js (toString n)) = n := by
    rw [hjs, digitsValue, foldl_digits hdigits, Nat.ofDigitChars_ten_toDigits]
  obtain ⟨u, us, hcons⟩ : ∃ u us, js (toString n) = u :: us := by
    apply List.exists_cons_of_ne_nil
    rw [hjs]
    simp
  have hleading : leadingNumber (js (toString n)) = some n := by
    have htake : (js (toString n)).takeWhile isDigit = u :: us :=
      (List.takeWhile_eq_self_iff.mpr hall).trans hcons
    rw [leadingNumber_cons htake, ← hcons, hvalue]
  have hu : isDigit u = true := hall u (hcons ▸ List.mem_cons_self)
  have hwhite : isWhitespace u = false := by
    by_contra h
    rw [isDigit_of_isWhitespace (by simpa using h)] at hu
    cases hu
  unfold parseInt
  rw [hcons, List.dropWhile_cons_of_neg (by simp [hwhite]), ← hcons]
  split
  · rename_i rest heq
    rw [hcons] at heq
    cases heq
    cases hu
  · rename_i rest heq
    rw [hcons] at heq
    cases heq
    cases hu
  · rw [hleading]
    rfl

theorem atLeastOne_pageParam {k : Nat} (hk : 0 < k) : (pageParam k).atLeastOne 1 = k := by
  have hparse : parseInt (pageParam k).text = some (k : Int) := parseInt_toString k
  unfold Param.atLeastOne
  rw [hparse]
  split
  · rename_i heq
    cases heq
  · rename_i heq
    have hzero : (k : Int) = 0 := Option.some.inj heq
    omega
  · rename_i n _ heq
    have hn : (k : Int) = n := Option.some.inj heq
    omega

/-- The limit of a request. -/
def pageLimit (limit : Param) : Nat := min (limit.atLeastOne 20) 100

theorem atLeastOne_pos (p : Param) (fallback : Nat) : 0 < p.atLeastOne fallback := by
  unfold Param.atLeastOne
  split
  · exact Nat.lt_of_lt_of_le Nat.zero_lt_one (Nat.le_max_right _ _)
  · exact Nat.lt_of_lt_of_le Nat.zero_lt_one (Nat.le_max_right _ _)
  · exact Nat.lt_of_lt_of_le Nat.zero_lt_one (Nat.le_max_right _ _)

theorem paging_pageParam {k : Nat} (hk : 0 < k) (limit : Param) :
    paging (pageParam k) limit = ⟨k, pageLimit limit⟩ := by
  rw [paging, atLeastOne_pageParam hk]
  rfl

theorem pageLimit_pos (limit : Param) : 0 < pageLimit limit :=
  Nat.lt_min.mpr ⟨atLeastOne_pos limit 20, by decide⟩

/-! ## Lists that are fetched page by page -/

section

variable {α : Type} {r : α → α → Prop} {id : α → ObjectId} {found : Option (List α)}
  {fetch : (List α → List α) → Nat → Except JsError (List ObjectId × Pagination)} {L : Nat}

/-- The pages of a list partition it: whatever order each query brings equal keys in, the
pages from 1 to `totalPages` hold every document that was found once, in the order of the sort,
and the pages after them are empty.  `fetch` is given the sort of its query and the page. -/
def PagesPartition (r : α → α → Prop) (id : α → ObjectId) (found : Option (List α))
    (fetch : (List α → List α) → Nat → Except JsError (List ObjectId × Pagination)) : Prop :=
  ∃ xs, found = some xs ∧ ∀ sorts : Nat → Sorting r, ∃ totalPages, ∃ ids : Nat → List ObjectId,
    (∀ k, 0 < k → ∃ p, fetch (sorts k).run k = .ok (ids k, p) ∧ p.totalPages = totalPages) ∧
    (∃ ys, Arranges r xs ys ∧
      (List.range totalPages).flatMap (fun k ↦ ids (k + 1)) = ys.map id) ∧
    ∀ k, totalPages < k → ids k = []

/-- A service that cuts its pages out of what it found and sorted. -/
def Paged (id : α → ObjectId) (L : Nat) (found : Option (List α))
    (fetch : (List α → List α) → Nat → Except JsError (List ObjectId × Pagination)) : Prop :=
  ∀ xs, found = some xs → ∀ order k, 0 < k →
    fetch order k = .ok ((page L (k - 1) (order xs)).map id,
      ⟨k, L, xs.length, pageCount L xs.length⟩)

theorem eq_of_map_eq {β : Type} {f : α → β} {xs ys : List α}
    (hinj : ∀ x ∈ xs, ∀ y ∈ ys, f x = f y → x = y) (h : xs.map f = ys.map f) : xs = ys := by
  induction xs generalizing ys with
  | nil => exact (List.map_eq_nil_iff.mp h.symm).symm
  | cons x xs ih =>
      cases ys with
      | nil => cases h
      | cons y ys =>
          rw [List.map_cons, List.map_cons, List.cons.injEq] at h
          rw [hinj x List.mem_cons_self y List.mem_cons_self h.1,
            ih (fun x' hx' y' hy' ↦ hinj x' (List.mem_cons_of_mem x hx') y'
              (List.mem_cons_of_mem y hy')) h.2]

/-- **The pages partition the list** exactly if no key straddles two of them. -/
theorem Paged.partition_iff [DecidableRel r] (h : Paged id L found fetch) (hL : 0 < L)
    (hr : TotalPreorder r) (hn : ∀ xs, found = some xs → (xs.map id).Nodup) :
    PagesPartition r id found fetch ↔ ∃ xs, found = some xs ∧ NoStraddle r L xs := by
  constructor
  · rintro ⟨xs, hxs, hall⟩
    refine ⟨xs, hxs, (arranges_pages_iff hL hr (hn xs hxs).of_map).mp fun sorts ↦ ?_⟩
    obtain ⟨totalPages, ids, hpages, ⟨ys, hys, heq⟩, -⟩ := hall fun k ↦ sorts (k - 1)
    have hids : ∀ k, ids (k + 1) = (page L k ((sorts k).run xs)).map id := by
      intro k
      obtain ⟨p, hp, -⟩ := hpages (k + 1) (Nat.succ_pos k)
      rw [h xs hxs _ (k + 1) (Nat.succ_pos k)] at hp
      exact (Prod.mk.inj (Except.ok.inj hp)).1.symm
    have htotal : totalPages = pageCount L xs.length := by
      obtain ⟨p, hp, rfl⟩ := hpages 1 Nat.zero_lt_one
      rw [h xs hxs _ 1 Nat.zero_lt_one] at hp
      rw [← (Prod.mk.inj (Except.ok.inj hp)).2]
    have hmap : ((List.range (pageCount L xs.length)).flatMap fun k ↦
        page L k ((sorts k).run xs)).map id = ys.map id := by
      rw [List.map_flatMap, ← heq, htotal]
      simp only [hids]
    have hmem : ∀ x ∈ (List.range (pageCount L xs.length)).flatMap fun k ↦
        page L k ((sorts k).run xs), x ∈ xs := by
      intro x hx
      obtain ⟨k, -, hx⟩ := List.mem_flatMap.mp hx
      exact ((sorts k).arranges xs).mem_iff.mp (mem_of_mem_page hx)
    rw [eq_of_map_eq (fun x hx y hy hid ↦ List.inj_on_of_nodup_map (hn xs hxs) (hmem x hx)
      (hys.mem_iff.mp hy) hid) hmap]
    exact hys
  · rintro ⟨xs, hxs, hstraddle⟩
    refine ⟨xs, hxs, fun sorts ↦ ⟨pageCount L xs.length,
      fun k ↦ (page L (k - 1) ((sorts k).run xs)).map id, ?_, ?_, ?_⟩⟩
    · exact fun k hk ↦ ⟨_, h xs hxs _ k hk, rfl⟩
    · refine ⟨_, (arranges_pages_iff hL hr (hn xs hxs).of_map).mpr hstraddle
        fun k ↦ sorts (k + 1), ?_⟩
      rw [List.map_flatMap]
      rfl
    · intro k hk
      have hlen : ((sorts k).run xs).length ≤ (k - 1) * L := by
        rw [((sorts k).arranges xs).perm.length_eq]
        exact (le_pageCount_mul hL _).trans (Nat.mul_le_mul_right L (Nat.le_sub_one_of_lt hk))
      show (page L (k - 1) ((sorts k).run xs)).map id = []
      rw [page_eq_nil hlen]
      rfl

/-- A document is on one of the pages. -/
def OnSomePage (fetch : (List α → List α) → Nat → Except JsError (List ObjectId × Pagination))
    (sorts : Nat → Sorting r) (i : ObjectId) : Prop :=
  ∃ k, 0 < k ∧ ∃ ids p, fetch (sorts k).run k = .ok (ids, p) ∧ i ∈ ids

/-- Pages that partition a list show what is in it. -/
theorem PagesPartition.onSomePage_iff {xs : List α} (h : PagesPartition r id (some xs) fetch)
    (sorts : Nat → Sorting r) {i : ObjectId} : OnSomePage fetch sorts i ↔ i ∈ xs.map id := by
  obtain ⟨xs', hxs, hall⟩ := h
  cases hxs
  obtain ⟨totalPages, ids, hpages, ⟨ys, hys, heq⟩, hafter⟩ := hall sorts
  have hmem : i ∈ ys.map id ↔ i ∈ xs.map id := (hys.perm.map id).mem_iff
  rw [← hmem, ← heq, List.mem_flatMap]
  constructor
  · rintro ⟨k, hk, ids', p, hfetch, hi⟩
    obtain ⟨p', hp, -⟩ := hpages k hk
    obtain ⟨rfl, -⟩ := Prod.mk.inj (Except.ok.inj (hp.symm.trans hfetch))
    have hle : k ≤ totalPages := by
      by_contra hlt
      rw [hafter k (Nat.not_le.mp hlt)] at hi
      cases hi
    refine ⟨k - 1, List.mem_range.mpr (Nat.lt_of_lt_of_le (Nat.sub_lt hk Nat.one_pos) hle), ?_⟩
    rwa [Nat.sub_add_cancel hk]
  · rintro ⟨k, -, hi⟩
    obtain ⟨p, hp, -⟩ := hpages (k + 1) (Nat.succ_pos k)
    exact ⟨k + 1, Nat.succ_pos k, _, p, hp, hi⟩

/-- Where no key straddles two pages, the pages show what was found. -/
theorem Paged.onSomePage_iff [DecidableRel r] (h : Paged id L found fetch) (hL : 0 < L)
    (hr : TotalPreorder r) {xs : List α} (hxs : found = some xs) (hstraddle : NoStraddle r L xs)
    (sorts : Nat → Sorting r) {i : ObjectId} : OnSomePage fetch sorts i ↔ i ∈ xs.map id := by
  constructor
  · rintro ⟨k, hk, ids, p, hfetch, hi⟩
    rw [h xs hxs _ k hk] at hfetch
    obtain ⟨rfl, -⟩ := Prod.mk.inj (Except.ok.inj hfetch)
    obtain ⟨x, hx, rfl⟩ := List.mem_map.mp hi
    exact List.mem_map_of_mem (((sorts k).arranges xs).mem_iff.mp (mem_of_mem_page hx))
  · intro hi
    obtain ⟨x, hx, rfl⟩ := List.mem_map.mp hi
    have hall := hstraddle.arranges_pages hL hr
      (fun k ↦ (sorts (k + 1)).arranges xs) (le_pageCount_mul hL xs.length)
    obtain ⟨k, -, hmem⟩ := List.mem_flatMap.mp (hall.mem_iff.mpr hx)
    exact ⟨k + 1, Nat.succ_pos k, _, _, h xs hxs _ (k + 1) (Nat.succ_pos k),
      List.mem_map_of_mem hmem⟩

end

/-! ## `listProblems` -/

/-- The order that `sortCriteria` sorts by. -/
def sortOrder (sort : Param) (p q : Problem) : Prop :=
  if sort = .one (js "title_asc") then titleLE p q
  else if sort = .one (js "title_desc") then titleLE q p
  else if sort = .one (js "oldest") then p.createdAt ≤ q.createdAt
  else q.createdAt ≤ p.createdAt

instance (sort : Param) : DecidableRel (sortOrder sort) :=
  fun _ _ ↦ inferInstanceAs (Decidable (ite _ _ _))

/-- The problems that a request asks for; `none` where its search is no regular expression. -/
def foundProblems (ext : Externals) (queryParams : ListParams) (db : Database) :
    Option (List Problem) :=
  (searchFilter ext queryParams.search).map fun matchesTitle ↦
    db.problems.filter fun p ↦ p.isActive &&
      difficultyFilter queryParams.difficulty p &&
      tagsFilter ext queryParams.tag queryParams.tags p && matchesTitle p.title

/-- `listProblems`, with the sort of its query. -/
def listProblemsBy (order : List Problem → List Problem) (ext : Externals)
    (queryParams : ListParams) (user : Option ObjectId) (db : Database) :
    Except JsError ProblemList :=
  match foundProblems ext queryParams db with
  | none => .error serverError
  | some found =>
    let paging := paging queryParams.page queryParams.limit
    let problems := paging.slice (order found)
    let problemIds := problems.map Problem.id
    let counts := countsMap (activeTestCounts db problemIds)
    let solvedProblemSet := match user with
      | none => []
      | some userId => (db.solvedBy userId).filter (· ∈ problemIds)
    .ok ⟨problems.map fun p ↦ p.summary counts solvedProblemSet, paging.of found.length⟩

/-- `listProblems` is what it comes to where the sort keeps the order of equal keys. -/
theorem listProblems_eq_by (ext : Externals) (q : ListParams) (user : Option ObjectId)
    (db : Database) :
    listProblems ext q user db = listProblemsBy (sortProblems q.sort) ext q user db := by
  unfold listProblems listProblemsBy foundProblems
  cases searchFilter ext q.search with
  | none => rfl
  | some matchesTitle => rfl

/-- A page of problems: their ids, in the order of the page. -/
def problemPage (ext : Externals) (q : ListParams) (user : Option ObjectId) (db : Database)
    (order : List Problem → List Problem) (k : Nat) : Except JsError (List ObjectId × Pagination) :=
  (listProblemsBy order ext { q with page := pageParam k } user db).map fun result ↦
    (result.problems.map (·.id), result.pagination)

theorem titleLE_total : TotalPreorder titleLE where
  total p q := List.le_total (utf16Decode p.title) (utf16Decode q.title)
  trans := fun {p q s} hpq hqs ↦ by
    have hpq : ¬ utf16Decode q.title < utf16Decode p.title := hpq
    have hqs : ¬ utf16Decode s.title < utf16Decode q.title := hqs
    exact List.le_trans hpq hqs

theorem sortOrder_total (sort : Param) : TotalPreorder (sortOrder sort) := by
  have hcase : ∀ {c : Prop} [Decidable c] {s t : Problem → Problem → Prop}, TotalPreorder s →
      TotalPreorder t → TotalPreorder fun p q ↦ if c then s p q else t p q := by
    intro c _ s t hs ht
    by_cases hc : c
    · simpa only [if_pos hc] using hs
    · simpa only [if_neg hc] using ht
  exact hcase titleLE_total (hcase titleLE_total.swap
    (hcase (.ofKey Problem.createdAt) (TotalPreorder.ofKey Problem.createdAt).swap))

theorem problemPage_paged (ext : Externals) (q : ListParams) (user : Option ObjectId)
    (db : Database) :
    Paged Problem.id (pageLimit q.limit) (foundProblems ext q db) (problemPage ext q user db) := by
  intro xs hxs order k hk
  have hfound : foundProblems ext { q with page := pageParam k } db = some xs := hxs
  rw [problemPage, listProblemsBy, hfound]
  simp only [paging_pageParam hk, Except.map, List.map_map]
  rfl

theorem foundProblems_nodup {ext : Externals} {q : ListParams} {db : Database}
    {xs : List Problem} (h : foundProblems ext q db = some xs) : (xs.map Problem.id).Nodup := by
  obtain ⟨matchesTitle, -, rfl⟩ := Option.map_eq_some_iff.mp h
  exact db.problems_nodup.sublist (List.filter_sublist.map _)

/-- Problems with different times of creation, from the latest one on, are on pages of which
none is cut through. -/
theorem noStraddle_createdAt {xs : List Problem} (hn : (xs.map (·.createdAt)).Nodup) (L : Nat) :
    NoStraddle (sortOrder .absent) L xs :=
  noStraddle_of_antisymm (sortOrder_total .absent) hn.of_map
    (fun _ hx _ hy hxy hyx ↦ List.inj_on_of_nodup_map hn hx hy (Nat.le_antisymm hyx hxy)) L

/-- **All pages of the latest problems** show what was found. -/
theorem onSomePage_problems_iff {ext : Externals} {q : ListParams} {user : Option ObjectId}
    {db : Database} {xs : List Problem} (hdistinct : (db.problems.map (·.createdAt)).Nodup)
    (hsort : q.sort = .absent) (hxs : foundProblems ext q db = some xs)
    (sorts : Nat → Sorting (sortOrder q.sort)) {i : ObjectId} :
    OnSomePage (problemPage ext q user db) sorts i ↔ i ∈ xs.map Problem.id := by
  have hn : (xs.map (·.createdAt)).Nodup := by
    obtain ⟨matchesTitle, -, rfl⟩ := Option.map_eq_some_iff.mp hxs
    exact hdistinct.sublist (List.filter_sublist.map _)
  have hstraddle : NoStraddle (sortOrder q.sort) (pageLimit q.limit) xs := by
    rw [hsort]
    exact noStraddle_createdAt hn _
  exact (problemPage_paged ext q user db).onSomePage_iff (pageLimit_pos q.limit)
    (sortOrder_total q.sort) hxs hstraddle sorts

/-! ## `getMySubmissions` -/

/-- The submissions that a request asks for; `none` where it is refused. -/
def foundSubmissions (ext : Externals) (userId : ObjectId) (queryParams : MySubmissionsParams)
    (db : Database) : Except JsError (List SubmissionDoc) :=
  (problemFilter ext queryParams.problemId).map fun ofProblem ↦
    db.submissions.filter fun s ↦ s.userId = userId && (ofProblem s.problemId &&
      nameFilter queryParams.language (js s.language) &&
      nameFilter queryParams.verdict (verdictName s.verdict))

/-- `getMySubmissions`, with the sort of its query. -/
def getMySubmissionsBy (order : List SubmissionDoc → List SubmissionDoc) (ext : Externals)
    (userId : ObjectId) (queryParams : MySubmissionsParams) (db : Database) :
    Except JsError SubmissionList :=
  match foundSubmissions ext userId queryParams db with
  | .error e => .error e
  | .ok found =>
    let paging := paging queryParams.page queryParams.limit
    let includeCode := queryParams.includeCode = .one (js "true")
    let submissions := paging.slice (order found)
    .ok ⟨submissions.map (·.toSafeObject includeCode), paging.of found.length⟩

/-- The order of submissions: the latest ones first. -/
def latestFirst (s t : SubmissionDoc) : Prop := t.createdAt ≤ s.createdAt

instance : DecidableRel latestFirst := fun _ _ ↦ inferInstanceAs (Decidable (_ ≤ _))

theorem getMySubmissions_eq_by (ext : Externals) (userId : ObjectId) (q : MySubmissionsParams)
    (db : Database) :
    getMySubmissions ext userId q db =
      getMySubmissionsBy (List.insertionSort latestFirst) ext userId q db := by
  unfold getMySubmissions getMySubmissionsBy foundSubmissions
  cases problemFilter ext q.problemId with
  | error e => rfl
  | ok ofProblem => rfl

/-- A page of submissions: their ids, in the order of the page. -/
def submissionPage (ext : Externals) (userId : ObjectId) (q : MySubmissionsParams) (db : Database)
    (order : List SubmissionDoc → List SubmissionDoc) (k : Nat) :
    Except JsError (List ObjectId × Pagination) :=
  (getMySubmissionsBy order ext userId { q with page := pageParam k } db).map fun result ↦
    (result.submissions.map (·.id), result.pagination)

theorem latestFirst_total : TotalPreorder latestFirst :=
  (TotalPreorder.ofKey fun s : SubmissionDoc ↦ s.createdAt).swap

theorem submissionPage_paged (ext : Externals) (userId : ObjectId) (q : MySubmissionsParams)
    (db : Database) :
    Paged (·.id) (pageLimit q.limit) (foundSubmissions ext userId q db).toOption
      (submissionPage ext userId q db) := by
  intro xs hxs order k hk
  have hfound : foundSubmissions ext userId { q with page := pageParam k } db = .ok xs := by
    cases h : foundSubmissions ext userId q db with
    | error e =>
        rw [h] at hxs
        cases hxs
    | ok ys =>
        rw [h] at hxs
        cases hxs
        exact h
  rw [submissionPage, getMySubmissionsBy, hfound]
  simp only [paging_pageParam hk, Except.map, List.map_map]
  rfl

theorem foundSubmissions_nodup {ext : Externals} {userId : ObjectId} {q : MySubmissionsParams}
    {db : Database} (hids : (db.submissions.map (·.id)).Nodup) {xs : List SubmissionDoc}
    (h : (foundSubmissions ext userId q db).toOption = some xs) : (xs.map (·.id)).Nodup := by
  unfold foundSubmissions at h
  cases hfilter : problemFilter ext q.problemId with
  | error e =>
      rw [hfilter] at h
      cases h
  | ok ofProblem =>
      rw [hfilter] at h
      cases h
      exact hids.sublist (List.filter_sublist.map _)

/-! ## Both lists -/

/-- **Where pages partition the result.**  The pages of the problems, and those of a user's
submissions, hold every document once whatever MongoDB does with equal sort keys exactly if the
request is answered and the documents with one key are all on one page. -/
theorem pages_partition_iff (ext : Externals) (db : Database)
    (hids : (db.submissions.map (·.id)).Nodup) :
    (∀ (q : ListParams) (user : Option ObjectId),
      PagesPartition (sortOrder q.sort) Problem.id (foundProblems ext q db)
          (problemPage ext q user db) ↔
        ∃ xs, foundProblems ext q db = some xs ∧
          NoStraddle (sortOrder q.sort) (pageLimit q.limit) xs) ∧
    ∀ (q : MySubmissionsParams) (userId : ObjectId),
      PagesPartition latestFirst (·.id) (foundSubmissions ext userId q db).toOption
          (submissionPage ext userId q db) ↔
        ∃ xs, (foundSubmissions ext userId q db).toOption = some xs ∧
          NoStraddle latestFirst (pageLimit q.limit) xs := by
  constructor
  · intro q user
    exact (problemPage_paged ext q user db).partition_iff (pageLimit_pos q.limit)
      (sortOrder_total q.sort) fun xs hxs ↦ foundProblems_nodup hxs
  · intro q userId
    exact (submissionPage_paged ext userId q db).partition_iff (pageLimit_pos q.limit)
      latestFirst_total fun xs hxs ↦ foundSubmissions_nodup hids hxs

/-- A request for all problems by their titles, one on each page. -/
def byTitle : ListParams :=
  ⟨.absent, .absent, .absent, .absent, .absent, .one (js "1"), .one (js "title_asc")⟩

/-- Two problems, the second with a title that is given, and a user's submissions to them. -/
def twoProblems (title : JsString) : Database :=
  ⟨[.sample 1 true, { Problem.sample 2 true with title }], [],
    [.sample 3 7 1 .accepted, .sample 4 7 2 .wrongAnswer],
    (by decide : ([1, 2] : List ObjectId).Nodup), by decide⟩

/-- Two problems with different titles, one on each page, and two submissions on one page. -/
theorem pages_partition_iff_titles :
    PagesPartition (sortOrder byTitle.sort) Problem.id
        (foundProblems .sample byTitle (twoProblems (js "B")))
        (problemPage .sample byTitle none (twoProblems (js "B"))) ∧
      PagesPartition latestFirst (·.id)
        (foundSubmissions .sample 7 ⟨.absent, .absent, .absent, .absent, .absent, .absent⟩
          (twoProblems (js "B"))).toOption
        (submissionPage .sample 7 ⟨.absent, .absent, .absent, .absent, .absent, .absent⟩
          (twoProblems (js "B"))) := by
  have h := pages_partition_iff .sample (twoProblems (js "B")) (by decide)
  exact ⟨(h.1 byTitle none).mpr ⟨_, rfl, by decide +kernel⟩,
    (h.2 ⟨.absent, .absent, .absent, .absent, .absent, .absent⟩ 7).mpr
      ⟨_, rfl, by decide +kernel⟩⟩

/-- **Two problems with one title**: the first page can show one of them, and the second page
the same one again. -/
theorem page_repeats_problem :
    ¬ PagesPartition (sortOrder byTitle.sort) Problem.id
      (foundProblems .sample byTitle (twoProblems (js "A")))
      (problemPage .sample byTitle none (twoProblems (js "A"))) := by
  rw [(problemPage_paged .sample byTitle none (twoProblems (js "A"))).partition_iff
    (pageLimit_pos byTitle.limit) (sortOrder_total byTitle.sort)
    fun xs hxs ↦ foundProblems_nodup hxs]
  rintro ⟨xs, hxs, hstraddle⟩
  cases hxs
  revert hstraddle
  decide +kernel

end CodeArena.Api
