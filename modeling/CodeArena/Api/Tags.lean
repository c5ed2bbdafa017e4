import CodeArena.Api.Deactivation
import CodeArena.Api.Pages
import CodeArena.Api.Schemas

/-!
# Finding problems by their tags

The validators store a tag as it was written, without the white space around it.
`listProblems` lower-cases the tag it is asked for, and MongoDB compares the two as they are:
so a problem is found by one of its tags exactly if it has the lower-case form of the tag as
well (`found_by_own_tag_iff`), which a tag in lower case is itself.

## Honest boundary

What the keys with a dot make of the tags of a new problem is not checked by the validators;
the runs are those where they leave them trimmed.
-/

namespace CodeArena.Api

open CodeArena.Lib CodeArena.Lib.Utf
open CodeArena.Engine (trim)
open CodeArena.Submissions (ObjectId Time JsError)

/-- What is relied on of `toLowerCase`. -/
structure LawfulLowerCase (ext : Externals) : Prop where
  idempotent : ∀ s, ext.toLowerCase (ext.toLowerCase s) = ext.toLowerCase s
  ne_nil : ∀ s, s ≠ [] → ext.toLowerCase s ≠ []

/-! ## Histories of requests -/

/-- A request of an administrator about a problem. -/
inductive ProblemRequest where
  | create (now : Time) (id : ObjectId) (body : Option Json) (authorId : ObjectId)
  | update (now : Time) (problemId : ObjectId) (body : Option Json)
  | deactivate (now : Time) (problemId : ObjectId)

/-- The database after a request: validated, and written where nothing threw. -/
def ProblemRequest.apply (m : Mongoose) (db : Database) : ProblemRequest → Database
  | .create now id body authorId =>
    match validateCreateProblem body with
    | .error _ => db
    | .ok data => db.after (m.createProblem now id data authorId db)
  | .update now problemId body =>
    match validateUpdateProblem body with
    | .error _ => db
    | .ok updateData => db.after (m.updateProblem now problemId updateData db)
  | .deactivate now problemId => db.after (deactivateProblem now problemId db)

/-- The histories of the problems of a database that starts without any. -/
def requests (m : Mongoose) (submissions : List SubmissionDoc) : Machine Database ProblemRequest :=
  ⟨.init submissions, fun db a ↦ some (a.apply m db)⟩

/-- The keys with a dot, if there are any, leave tags that are trimmed and not empty. -/
def TagsKept (m : Mongoose) : Database → ProblemRequest → Prop
  | _, .create _ _ body _ => ∀ c, m.setPaths ((bodyFields body).filter fun e ↦ isPath e.1)
      (tagsIn (bodyFields body), (exampleItems (bodyFields body)).map Example.ofJson) = some c →
      ∀ t ∈ c.1, Trimmed t
  | _, _ => True

/-- The tags that are stored are trimmed. -/
def TagsTrimmed (db : Database) : Prop := ∀ p ∈ db.problems, ∀ t ∈ p.tags, Trimmed t

section

variable {m : Mongoose} {db : Database}

theorem tagsTrimmed_save {p : Problem} (h : TagsTrimmed db) (hp : ∀ t ∈ p.tags, Trimmed t) :
    TagsTrimmed (db.saveProblem p) := by
  intro q hq
  obtain ⟨q', hq', rfl⟩ := List.mem_map.mp hq
  split
  · exact hp
  · exact h q' hq'

theorem tagsTrimmed_create {now : Time} {id authorId : ObjectId} {body : Option Json}
    (h : TagsTrimmed db) (hkept : TagsKept m db (.create now id body authorId)) :
    TagsTrimmed ((ProblemRequest.create now id body authorId).apply m db) := by
  rw [ProblemRequest.apply]
  cases hvalid : validateCreateProblem body with
  | error e => exact h
  | ok data =>
      obtain ⟨d, hin, -, htags, hexamples, -, -, hpaths⟩ := validateCreateProblem_ok hvalid
      show TagsTrimmed (db.after (m.createProblem now id data authorId db))
      rw [Mongoose.createProblem, Mongoose.problemData_eq hin, hpaths, htags, hexamples]
      cases hset : m.setPaths ((bodyFields body).filter fun e ↦ isPath e.1)
          (tagsIn (bodyFields body), (exampleItems (bodyFields body)).map Example.ofJson) with
      | none => exact h
      | some c =>
          rw [Option.bind_some]
          split
          · exact h
          · rename_i d' hd'
            split at hd'
            · cases hd'
              rw [Api.createProblem]
              split
              · split
                · intro q hq
                  rcases List.mem_append.mp hq with hq | hq
                  · exact h q hq
                  · rw [List.mem_singleton.mp hq]
                    exact hkept c hset
                · exact h
              · exact h
            · cases hd'

/-- The tags after an update are those that it sets, or those that were there. -/
theorem tags_update {u : ProblemUpdate} (hu : u.Sanitized) {p : Problem}
    (hp : ∀ t ∈ p.tags, Trimmed t) (now : Time) :
    ∀ t ∈ (p.update now (u.apply p.toProblemData)).tags, Trimmed t := by
  have htags : ∀ t ∈ (u.apply p.toProblemData).tags, Trimmed t := by
    show ∀ t ∈ u.tags.getD p.tags, Trimmed t
    cases h : u.tags with
    | none => exact hp
    | some ts => exact hu.tags ts h
  unfold Problem.update
  split
  · exact hp
  · exact htags

theorem tagsTrimmed_update {now : Time} {problemId : ObjectId} {body : Option Json}
    (h : TagsTrimmed db) :
    TagsTrimmed ((ProblemRequest.update now problemId body).apply m db) := by
  rw [ProblemRequest.apply]
  cases hvalid : validateUpdateProblem body with
  | error e => exact h
  | ok data =>
      obtain ⟨u, hin, hsane, -, -⟩ := validateUpdateProblem_ok hvalid
      show TagsTrimmed (db.after (m.updateProblem now problemId data db))
      rw [Mongoose.updateProblem, Mongoose.problemUpdate_eq hin]
      cases hfind : db.findProblem problemId with
      | none => exact h
      | some p =>
          simp only [Api.updateProblem, hfind]
          split
          · exact tagsTrimmed_save h
              (tags_update hsane (h p (Database.findProblem_eq_some.mp hfind).1) now)
          · exact h

theorem tagsTrimmed_deactivate {now : Time} {problemId : ObjectId} (h : TagsTrimmed db) :
    TagsTrimmed ((ProblemRequest.deactivate now problemId).apply m db) := by
  show TagsTrimmed (db.after (deactivateProblem now problemId db))
  rw [deactivateProblem]
  cases hfind : db.findProblem problemId with
  | none => exact h
  | some p =>
      dsimp only
      split
      · exact tagsTrimmed_save h (h p (Database.findProblem_eq_some.mp hfind).1)
      · exact h

/-- **The tags that are stored are trimmed**, in every run whose keys with a dot leave them
so. -/
theorem tagsTrimmed_of_run {submissions : List SubmissionDoc} {rs : List ProblemRequest}
    (h : (requests m submissions).Run (TagsKept m) (.init submissions) rs db) :
    TagsTrimmed db := by
  refine h.invariant (fun p hp ↦ nomatch hp) fun db r db' hdb hkept hstep ↦ ?_
  cases hstep
  cases r with
  | create now id body authorId => exact tagsTrimmed_create hdb hkept
  | update now problemId body => exact tagsTrimmed_update hdb
  | deactivate now problemId => exact tagsTrimmed_deactivate hdb

end

/-! ## The search -/

section

variable {ext : Externals} {db : Database} {t : JsString}

/-- A request for the problems with a tag. -/
def byTag (t : JsString) (limit : Param) : ListParams :=
  ⟨.absent, .one t, .absent, .absent, .absent, limit, .absent⟩

/-- All pages for a tag show the problem, and every problem on them has the tag up to the case
of its letters. -/
def FoundByTag (ext : Externals) (db : Database) (p : Problem) (t : JsString) : Prop :=
  ∀ (user : Option ObjectId) (limit : Param)
    (sorts : Nat → Sorting (sortOrder (byTag t limit).sort)),
    OnSomePage (problemPage ext (byTag t limit) user db) sorts p.id ∧
    ∀ q ∈ db.problems, OnSomePage (problemPage ext (byTag t limit) user db) sorts q.id →
      ∃ t' ∈ q.tags, ext.toLowerCase t' = ext.toLowerCase t

/-- What a tag without a comma is turned into. -/
theorem tagsArray_one (hlower : LawfulLowerCase ext) (ht : Trimmed t) (hcomma : 0x2C ∉ t) :
    tagsArray ext (.one t) = [ext.toLowerCase t] := by
  rw [tagsArray, List.splitOn_eq_singleton hcomma, List.map_singleton, ht.trim_eq]
  simp [hlower.ne_nil t ht.ne_nil]

theorem tagsFilter_one (hlower : LawfulLowerCase ext) (ht : Trimmed t) (hcomma : 0x2C ∉ t)
    (p : Problem) :
    tagsFilter ext (.one t) .absent p = true ↔ ext.toLowerCase t ∈ p.tags := by
  have hor : (Param.one t).or .absent = .one t := by
    rw [Param.or]
    cases t with
    | nil => exact absurd rfl ht.ne_nil
    | cons u s => rfl
  rw [tagsFilter, hor, tagsArray_one hlower ht hcomma]
  simp [List.any_eq_true]

/-- **A tag finds the problems with its lower-case form.** -/
theorem onSomePage_byTag_iff (hlower : LawfulLowerCase ext)
    (hdistinct : (db.problems.map (·.createdAt)).Nodup) (ht : Trimmed t) (hcomma : 0x2C ∉ t)
    {user : Option ObjectId} {limit : Param}
    (sorts : Nat → Sorting (sortOrder (byTag t limit).sort)) {p : Problem}
    (hp : p ∈ db.problems) :
    OnSomePage (problemPage ext (byTag t limit) user db) sorts p.id ↔
      p.isActive = true ∧ ext.toLowerCase t ∈ p.tags := by
  have hfound : foundProblems ext (byTag t limit) db = some (db.problems.filter fun p ↦
      p.isActive && true && tagsFilter ext (.one t) .absent p && true) := rfl
  rw [onSomePage_problems_iff hdistinct rfl hfound sorts]
  have hmem : p.id ∈ (db.problems.filter fun p ↦
      p.isActive && true && tagsFilter ext (.one t) .absent p && true).map Problem.id ↔
      (p.isActive && true && tagsFilter ext (.one t) .absent p && true) = true := by
    constructor
    · intro h
      obtain ⟨q, hq, hid⟩ := List.mem_map.mp h
      obtain ⟨hmem, hfilter⟩ := List.mem_filter.mp hq
      rwa [Database.eq_of_id_eq db.problems_nodup hmem hp hid] at hfilter
    · exact fun h ↦ List.mem_map_of_mem (List.mem_filter.mpr ⟨hp, h⟩)
  rw [hmem, Bool.and_true, Bool.and_true, Bool.and_eq_true,
    tagsFilter_one hlower ht hcomma]

/-- **Finding a problem by its own tag**, after any history of requests: it is found, among
problems with the tag up to the case of its letters, exactly if the lower-case form of the tag
is one of its tags. -/
theorem found_by_own_tag_iff (hlower : LawfulLowerCase ext) {m : Mongoose}
    {submissions : List SubmissionDoc} {rs : List ProblemRequest}
    (hrun : (requests m submissions).Run (TagsKept m) (.init submissions) rs db)
    (hdistinct : (db.problems.map (·.createdAt)).Nodup) {p : Problem} (hp : p ∈ db.problems)
    (hactive : p.isActive = true) (ht : t ∈ p.tags) (hcomma : 0x2C ∉ t) :
    FoundByTag ext db p t ↔ ext.toLowerCase t ∈ p.tags := by
  have htrimmed : Trimmed t := tagsTrimmed_of_run hrun p hp t ht
  constructor
  · intro h
    exact ((onSomePage_byTag_iff hlower hdistinct htrimmed hcomma _ hp).mp
      (h none .absent fun _ ↦ .stable (sortOrder_total .absent)).1).2
  · intro h user limit sorts
    refine ⟨(onSomePage_byTag_iff hlower hdistinct htrimmed hcomma sorts hp).mpr ⟨hactive, h⟩, ?_⟩
    intro q hq hpage
    exact ⟨ext.toLowerCase t,
      ((onSomePage_byTag_iff hlower hdistinct htrimmed hcomma sorts hq).mp hpage).2,
      hlower.idempotent t⟩

end

/-! ## Two tags -/

/-- `toLowerCase` of a letter from A to Z. -/
def lowerUnit (u : CodeUnit) : CodeUnit := if 0x41 ≤ u ∧ u ≤ 0x5A then u + 0x20 else u

theorem lowerUnit_lowerUnit (u : CodeUnit) : lowerUnit (lowerUnit u) = lowerUnit u := by
  by_cases h : 0x41 ≤ u ∧ u ≤ 0x5A
  · have hu : lowerUnit u = u + 0x20 := if_pos h
    have hnot : ¬ (0x41 ≤ u + 0x20 ∧ u + 0x20 ≤ 0x5A) := by
      simp only [UInt16.le_iff_toNat_le, UInt16.toNat_add] at h ⊢
      have h41 : (0x41 : CodeUnit).toNat = 0x41 := rfl
      have h5A : (0x5A : CodeUnit).toNat = 0x5A := rfl
      have h20 : (0x20 : CodeUnit).toNat = 0x20 := rfl
      omega
    rw [hu]
    exact if_neg hnot
  · rw [show lowerUnit u = u from if_neg h]
    exact if_neg h

/-- Externals whose lower case is the one of the letters from A to Z. -/
def Externals.lettersAtoZ : Externals := { Externals.sample with toLowerCase := List.map lowerUnit }

theorem lettersAtoZ_lawful : LawfulLowerCase .lettersAtoZ where
  idempotent s := by
    show (s.map lowerUnit).map lowerUnit = s.map lowerUnit
    rw [List.map_map]
    exact List.map_congr_left fun u _ ↦ lowerUnit_lowerUnit u
  ne_nil s hs := by
    show s.map lowerUnit ≠ []
    simpa using hs

/-- The request for a problem with a tag. -/
def createTagged (tag : JsString) : ProblemRequest :=
  .create 0 1 (some (.object (Entries.assign [(js "tags", some (.array [.string tag]))]
    (Mongoose.problemBody (js "1") (js "2")).entries))) 5

/-- A problem with a tag in lower case is found by it. -/
theorem found_by_own_tag_iff_lower :
    ∃ p ∈ ((createTagged (js "dp")).apply .sample (.init [])).problems,
      FoundByTag .lettersAtoZ ((createTagged (js "dp")).apply .sample (.init [])) p (js "dp") := by
  have hkept : TagsKept .sample (.init []) (createTagged (js "dp")) := by
    intro c hc t ht
    obtain rfl : ([js "dp"], [⟨js "1", js "2"⟩]) = c := Option.some.inj hc
    rw [List.mem_singleton.mp ht]
    exact ⟨by decide +kernel, by decide +kernel⟩
  obtain ⟨p, hp, hactive, htag⟩ :
      ∃ p ∈ ((createTagged (js "dp")).apply .sample (.init [])).problems,
        p.isActive = true ∧ js "dp" ∈ p.tags := by
    decide +kernel
  exact ⟨p, hp, (found_by_own_tag_iff lettersAtoZ_lawful (.cons hkept rfl (.nil _))
    (by decide +kernel) hp hactive htag (by decide +kernel)).mpr htag⟩

/-- **A problem with a tag in capitals** is not found by it. -/
theorem capital_tag_not_found :
    ∃ p ∈ ((createTagged (js "DP")).apply .sample (.init [])).problems,
      p.isActive = true ∧ js "DP" ∈ p.tags ∧
      ¬ FoundByTag .lettersAtoZ ((createTagged (js "DP")).apply .sample (.init [])) p (js "DP") := by
  obtain ⟨p, hp, hactive, htag, hlower⟩ :
      ∃ p ∈ ((createTagged (js "DP")).apply .sample (.init [])).problems,
        p.isActive = true ∧ js "DP" ∈ p.tags ∧ js "dp" ∉ p.tags := by
    decide +kernel
  refine ⟨p, hp, hactive, htag, fun h ↦ hlower ?_⟩
  exact ((onSomePage_byTag_iff lettersAtoZ_lawful (by decide +kernel)
    ⟨by decide +kernel, by decide +kernel⟩ (by decide +kernel) _ hp).mp
      (h none .absent fun _ ↦ .stable (sortOrder_total .absent)).1).2

end CodeArena.Api
