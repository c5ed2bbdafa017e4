import CodeArena.Api.Pages
import CodeArena.Lib.Literal

/-!
# Searching for a title

`listProblems` hands the text of a search to MongoDB as a regular expression, and nothing is
escaped.  So the search is literal exactly if that text is plain, without special characters and
counted repetitions (`title_search_iff`): a search for `Two Sum (Easy)` or for `C++ Basics` does
not find the problem with that title, and one for `(` fails.

## Honest boundary

MongoDB is taken to match as a version of PCRE does, on the patterns whose reading is modelled
(`CodeArena.Lib.Pcre`); of its regular expressions for other patterns nothing is assumed.
MongoDB stores text, so that a surrogate that is not in a pair is replaced.
-/

namespace CodeArena.Api

open CodeArena.Lib CodeArena.Lib.Utf CodeArena.Lib.Pcre
open CodeArena.Engine (trim)
open CodeArena.Submissions (ObjectId Time JsError)

/-- MongoDB matches `{ $regex: s, $options: 'i' }` as PCRE does; `fold` is the same for letters
that differ in case. -/
def UsesPcre (ext : Externals) (v : Version) (fold : Char → Char) : Prop :=
  ∀ s, supported (utf16Decode s) = true →
    ext.regex s = (pcre v fold (utf16Decode s)).map fun matchesText title ↦
      matchesText (utf16Decode title)

/-- A request for the problems whose titles are searched for a text. -/
def bySearch (s : JsString) (limit : Param) : ListParams :=
  ⟨.absent, .absent, .absent, .one s, .absent, limit, .absent⟩

/-- A title contains a text, up to the case of letters. -/
def TitleContains (fold : Char → Char) (s title : JsString) : Prop :=
  (utf16Decode s).map fold <:+: (utf16Decode title).map fold

instance (fold : Char → Char) (s title : JsString) : Decidable (TitleContains fold s title) :=
  inferInstanceAs (Decidable (_ <:+: _))

/-- The active problems whose titles contain the text that is searched for. -/
def titledProblems (fold : Char → Char) (s : JsString) (db : Database) : List Problem :=
  db.problems.filter fun p ↦ p.isActive && decide (TitleContains fold (trim s) p.title)

/-- A search is literal: in every database of problems with different times of creation no page
of it fails, and the pages hold the problems whose titles contain the text. -/
def SearchLiteral (ext : Externals) (fold : Char → Char) (s : JsString) : Prop :=
  ∀ db : Database, (db.problems.map (·.createdAt)).Nodup → ∀ (user : Option ObjectId)
    (limit : Param), PagesPartition (sortOrder (bySearch s limit).sort) Problem.id
      (some (titledProblems fold s db)) (problemPage ext (bySearch s limit) user db)

section

variable {ext : Externals} {v : Version} {fold : Char → Char} {s : JsString}

theorem foundProblems_bySearch (hs : trim s ≠ []) (limit : Param) (db : Database) :
    foundProblems ext (bySearch s limit) db = (ext.regex (trim s)).map fun matchesTitle ↦
      db.problems.filter fun p ↦ p.isActive && matchesTitle p.title := by
  have hfilter : searchFilter ext (.one s) = ext.regex (trim s) := if_neg hs
  show (searchFilter ext (.one s)).map _ = _
  rw [hfilter]
  refine congrArg (fun f ↦ Option.map f (ext.regex (trim s))) (funext fun matchesTitle ↦ ?_)
  refine List.filter_congr fun p _ ↦ ?_
  show (p.isActive && true && true && matchesTitle p.title) = _
  rw [Bool.and_true, Bool.and_true]

/-- A database with one problem. -/
def oneProblem (title : JsString) : Database :=
  ⟨[{ Problem.sample 1 true with title }], [], [], List.nodup_singleton _, List.nodup_nil⟩

/-- The problem is found exactly if its title is matched. -/
theorem mem_oneProblem_iff (matchesTitle : JsString → Bool) (title : JsString) :
    1 ∈ ((oneProblem title).problems.filter fun p ↦ p.isActive && matchesTitle p.title).map
      Problem.id ↔ matchesTitle title = true := by
  show 1 ∈ (List.filter _ [_]).map _ ↔ _
  rw [List.filter_singleton]
  show 1 ∈ List.map _ (bif matchesTitle title then _ else _) ↔ _
  cases matchesTitle title with
  | false => exact ⟨nofun, nofun⟩
  | true => exact ⟨fun _ ↦ rfl, fun _ ↦ List.mem_singleton_self _⟩

/-- **A search is literal** exactly if the regular expression is one, and matches what contains
the text. -/
theorem searchLiteral_iff_regex (hs : trim s ≠ []) :
    SearchLiteral ext fold s ↔ ∃ matchesTitle, ext.regex (trim s) = some matchesTitle ∧
      ∀ title, matchesTitle title = true ↔ TitleContains fold (trim s) title := by
  constructor
  · intro h
    cases hregex : ext.regex (trim s) with
    | none =>
        obtain ⟨xs, -, hall⟩ := h (oneProblem []) (List.nodup_singleton _) none .absent
        obtain ⟨totalPages, ids, hpages, -⟩ := hall fun _ ↦ .stable (sortOrder_total _)
        obtain ⟨p, hp, -⟩ := hpages 1 Nat.one_pos
        have hfound : foundProblems ext { bySearch s .absent with page := pageParam 1 }
            (oneProblem []) = none := by
          refine Eq.trans (foundProblems_bySearch hs .absent (oneProblem [])) ?_
          rw [hregex]
          rfl
        rw [problemPage, listProblemsBy, hfound] at hp
        cases hp
    | some matchesTitle =>
        refine ⟨matchesTitle, rfl, fun title ↦ ?_⟩
        have hdistinct : ((oneProblem title).problems.map (·.createdAt)).Nodup :=
          List.nodup_singleton _
        have hfound : foundProblems ext (bySearch s .absent) (oneProblem title) = _ :=
          foundProblems_bySearch hs .absent (oneProblem title)
        rw [hregex] at hfound
        have hpage : OnSomePage (problemPage ext (bySearch s .absent) none (oneProblem title))
            (fun _ ↦ .stable (sortOrder_total _)) 1 ↔ _ :=
          onSomePage_problems_iff hdistinct rfl hfound _
        rw [PagesPartition.onSomePage_iff (h (oneProblem title) hdistinct none .absent),
          mem_oneProblem_iff matchesTitle, titledProblems,
          mem_oneProblem_iff fun t ↦ decide (TitleContains fold (trim s) t)] at hpage
        rw [← hpage, decide_eq_true_iff]
  · rintro ⟨matchesTitle, hregex, hall⟩ db hdistinct user limit
    have hfound : foundProblems ext (bySearch s limit) db = some (titledProblems fold s db) := by
      rw [foundProblems_bySearch hs, hregex]
      refine congrArg some (List.filter_congr fun p _ ↦ ?_)
      rw [Bool.eq_iff_iff.mpr ((hall p.title).trans decide_eq_true_iff.symm)]
    have hn : ((titledProblems fold s db).map (·.createdAt)).Nodup :=
      hdistinct.sublist (List.filter_sublist.map _)
    rw [← hfound]
    refine ((problemPage_paged ext (bySearch s limit) user db).partition_iff (pageLimit_pos limit)
      (sortOrder_total _) fun xs hxs ↦ foundProblems_nodup hxs).mpr ⟨_, hfound, ?_⟩
    exact noStraddle_createdAt hn _

/-- For the patterns whose reading is modelled, a search is literal exactly if the text is
plain. -/
theorem searchLiteral_iff_plain (hpcre : UsesPcre ext v fold) (hfold : KeepsSymbols fold)
    (hs : trim s ≠ []) (hsupported : supported (utf16Decode (trim s)) = true) :
    SearchLiteral ext fold s ↔ plain v (utf16Decode (trim s)) = true := by
  rw [searchLiteral_iff_regex hs, hpcre _ hsupported, ← pcre_literal_iff hfold]
  constructor
  · rintro ⟨matchesTitle, hm, hall⟩
    obtain ⟨matchesText, hm', rfl⟩ := Option.map_eq_some_iff.mp hm
    refine ⟨matchesText, hm', fun t ↦ ?_⟩
    have ht : matchesText (utf16Decode (utf16Encode t)) = true ↔ _ := hall (utf16Encode t)
    rwa [TitleContains, utf16Decode_utf16Encode] at ht
  · rintro ⟨matchesText, hm, hall⟩
    exact ⟨_, congrArg (Option.map _) hm, fun title ↦ hall (utf16Decode title)⟩

/-- **Where the title search is literal.**  It is for a plain text, and for no other text whose
reading as a pattern is modelled. -/
theorem title_search_iff (hpcre : UsesPcre ext v fold) (hfold : KeepsSymbols fold)
    (hs : trim s ≠ []) :
    (supported (utf16Decode (trim s)) = true ∧ plain v (utf16Decode (trim s)) = true →
      SearchLiteral ext fold s) ∧
    (supported (utf16Decode (trim s)) = true → SearchLiteral ext fold s →
      plain v (utf16Decode (trim s)) = true) := by
  constructor
  · rintro ⟨hsupported, hplain⟩
    exact (searchLiteral_iff_plain hpcre hfold hs hsupported).mpr hplain
  · intro hsupported h
    exact (searchLiteral_iff_plain hpcre hfold hs hsupported).mp h

end

/-- The version of PCRE in the examples. -/
def sampleVersion : Version := ⟨false, false, false⟩

/-- Externals with a MongoDB that ignores the case of the letters from A to Z. -/
def Externals.caseless : Externals :=
  { Externals.sample with
    regex s := (pcre sampleVersion Char.toLower (utf16Decode s)).map fun matchesText title ↦
      matchesText (utf16Decode title) }

theorem toNat_toLower (c : Char) : c.toLower.toNat =
    if 65 ≤ c.toNat ∧ c.toNat ≤ 90 then c.toNat + 32 else c.toNat := by
  unfold Char.toLower
  split
  · rename_i h
    have h' : 65 ≤ c.toNat ∧ c.toNat ≤ 90 := h
    rw [if_pos h']
    show (c.val + 32).toNat = c.val.toNat + 32
    rw [UInt32.toNat_add]
    exact Nat.mod_eq_of_lt (Nat.lt_of_le_of_lt (Nat.add_le_add_right h'.2 32) (by decide))
  · rename_i h
    exact (if_neg h).symm

/-- `toLower` changes letters only. -/
theorem keepsSymbols_toLower : KeepsSymbols Char.toLower := by
  intro c d hc h
  obtain ⟨-, hletter⟩ := isSymbol_iff.mp hc
  have hcode := congrArg Char.toNat h
  rw [toNat_toLower, toNat_toLower, if_neg hletter.1] at hcode
  apply Char.ext
  split at hcode
  · omega
  · exact UInt32.toNat_inj.mp hcode

/-- A search for words and numbers in braces is literal: `{1,2,3}` is no repetition. -/
theorem title_search_iff_subsets :
    SearchLiteral .caseless Char.toLower (js "Subsets of \x7b1,2,3\x7d") :=
  (title_search_iff (v := sampleVersion) (fun _ _ ↦ rfl) keepsSymbols_toLower (by decide +kernel)).1
    ⟨by decide +kernel, by decide +kernel⟩

/-- The search for a title, on its first page, where it is the title of the only problem. -/
def searchOwn (title : JsString) : Except JsError (List ObjectId × Pagination) :=
  problemPage .caseless (bySearch title .absent) none (oneProblem title) (sortProblems .absent) 1

/-- A search that does not find its own text is not literal. -/
theorem not_searchLiteral_of_self {ext : Externals} {fold : Char → Char} {s : JsString}
    (hs : trim s ≠ []) (hself : TitleContains fold (trim s) s)
    (h : (ext.regex (trim s)).map (· s) = some false) : ¬ SearchLiteral ext fold s := by
  rw [searchLiteral_iff_regex hs]
  rintro ⟨matchesTitle, hregex, hall⟩
  rw [hregex, Option.map_some, (hall s).mpr hself] at h
  cases h

/-- **Titles with parentheses or with plus signs** are not found by a search for themselves, and
a search for a parenthesis fails. -/
theorem own_title_not_found :
    ¬ SearchLiteral .caseless Char.toLower (js "Two Sum (Easy)") ∧
      searchOwn (js "Two Sum (Easy)") = .ok ([], ⟨1, 20, 0, 1⟩) ∧
      ¬ SearchLiteral .caseless Char.toLower (js "C++ Basics") ∧
      searchOwn (js "C++ Basics") = .ok ([], ⟨1, 20, 0, 1⟩) ∧
      problemPage .caseless (bySearch (js "(") .absent) none
        (oneProblem (js "Two Sum (Easy)")) (sortProblems .absent) 1 = .error serverError :=
  ⟨not_searchLiteral_of_self (by decide +kernel) (by decide +kernel) (by decide +kernel),
    by decide +kernel,
    not_searchLiteral_of_self (by decide +kernel) (by decide +kernel) (by decide +kernel),
    by decide +kernel, by decide +kernel⟩

end CodeArena.Api
