import CodeArena.Lib.Ties
import CodeArena.Submissions.Reference

/-!
# Judging and the order of test cases

`executeSubmission` runs the test cases in the order in which MongoDB returns them under
`sort({ order: 1 })`, and nothing keeps two test cases of a problem from having the same
`order`.  The loop stops at the first result that settles the submission, so what is stored
depends on the tests in front of it.

With the results of the test cases fixed, what is stored is the same for every order that
MongoDB may choose exactly if the ties with the first result that settles the submission do
not matter (`TiesAgree`): none of them passes, and those that settle it as well do so with the
same verdict.
-/

namespace CodeArena.Submissions

open CodeArena.Lib

/-! ## The reference, from the parts of a list of results -/

section

variable {done rest : List ExecResult} {r : ExecResult}

/-- The tests before the first result that settles the submission are those that may pass. -/
theorem reference_of_split (hdone : ∀ a ∈ done, a.stops = false) (hr : r.stops = true) :
    referenceVerdict (done ++ r :: rest) = stoppedVerdict r.verdict ∧
      referencePassed (done ++ r :: rest) = done.countP (·.verdict = .accepted) := by
  have hnone : done.find? ExecResult.stops = none :=
    List.find?_eq_none.mpr fun a ha ↦ by simp [hdone a ha]
  have hfind : (done ++ r :: rest).find? ExecResult.stops = some r := by
    rw [List.find?_append, hnone, List.find?_cons_of_pos hr]
    rfl
  have hidx : (done ++ r :: rest).findIdx ExecResult.stops = done.length := by
    have hall : done.findIdx ExecResult.stops = done.length := List.findIdx_eq_length.mpr hdone
    rw [List.findIdx_append, hall, if_neg (Nat.lt_irrefl _), List.findIdx_cons, hr]
    exact Nat.zero_add _
  have h := referenceJudgement_of_some hfind
  refine ⟨congrArg Judgement.verdict h, ?_⟩
  have hpassed := congrArg Judgement.testsPassed h
  rw [hidx, List.take_left, testsPassed_foldl, Nat.zero_add] at hpassed
  exact hpassed

/-- Tests that pass before any result settles the submission count. -/
theorem countP_le_referencePassed (hdone : ∀ a ∈ done, a.stops = false) :
    done.countP (·.verdict = .accepted) ≤ referencePassed (done ++ rest) := by
  have hall : done.findIdx ExecResult.stops = done.length := List.findIdx_eq_length.mpr hdone
  have hle : done.length ≤ stopIndex (done ++ rest) := by
    rw [stopIndex, List.findIdx_append, hall, if_neg (Nat.lt_irrefl _), List.length_append]
    omega
  have hprefix : done <+: (done ++ rest).take (stopIndex (done ++ rest)) :=
    List.prefix_take_iff.mpr ⟨List.prefix_append done rest, hle⟩
  exact hprefix.sublist.countP_le

/-- Where no result settles the submission, their order does not matter. -/
theorem reference_of_perm {rs ss : List ExecResult} (hp : rs.Perm ss)
    (hrs : ∀ a ∈ rs, a.stops = false) :
    referenceVerdict rs = referenceVerdict ss ∧ referencePassed rs = referencePassed ss := by
  have hnone : ∀ {ts : List ExecResult}, (∀ a ∈ ts, a.stops = false) →
      ts.find? ExecResult.stops = none :=
    fun hts ↦ List.find?_eq_none.mpr fun a ha ↦ by simp [hts a ha]
  have hss : ∀ a ∈ ss, a.stops = false := fun a ha ↦ hrs a (hp.mem_iff.mpr ha)
  constructor
  · have hall : rs.all (·.verdict = .accepted) = ss.all (·.verdict = .accepted) := by
      rw [Bool.eq_iff_iff, List.all_eq_true, List.all_eq_true]
      simp only [hp.mem_iff]
    rw [referenceVerdict, referenceVerdict, hnone hrs, hnone hss, hall]
  · rw [referencePassed, referencePassed, (stopIndex_of_none (hnone hrs)).2,
      (stopIndex_of_none (hnone hss)).2, List.take_length, List.take_length]
    exact hp.countP_eq _

end

/-! ## Orders of test cases -/

/-- What `executeSubmission` reads of a stored test case, with the `order` it is sorted by. -/
structure StoredTestCase (κ : Type) where
  id : ObjectId
  order : κ
  testCase : TestCase
deriving DecidableEq

/-- The record that `executeSubmission` leaves, where it finds the test cases in this order and
each has its result. -/
def recordOf {κ : Type} (d : Submission) (found : List (StoredTestCase κ))
    (result : StoredTestCase κ → ExecResult) : Submission :=
  storedAfter d (executeSubmission
    (.returning d (found.map StoredTestCase.testCase) (found.map result))).effects

section

variable {κ : Type} [LinearOrder κ]

/-- `sort({ order: 1 })`. -/
def byOrder (s t : StoredTestCase κ) : Prop := s.order ≤ t.order

instance : DecidableRel (byOrder (κ := κ)) := fun _ _ ↦ inferInstanceAs (Decidable (_ ≤ _))

theorem byOrder_total : TotalPreorder (byOrder (κ := κ)) := .ofKey StoredTestCase.order

/-- A test case whose result settles the submission, and none that is sorted before it does. -/
structure StopsFirst (tests : List (StoredTestCase κ)) (result : StoredTestCase κ → ExecResult)
    (s : StoredTestCase κ) : Prop where
  mem : s ∈ tests
  stops : (result s).stops = true
  least : ∀ u ∈ tests, (result u).stops = true → s.order ≤ u.order

/-- Of the test cases with the order of one that settles the submission first, none passes, and
those that settle it as well do so with the same verdict. -/
def TiesAgree (tests : List (StoredTestCase κ)) (result : StoredTestCase κ → ExecResult) : Prop :=
  ∀ s, StopsFirst tests result s → ∀ t ∈ tests, t.order = s.order →
    (result t).verdict ≠ .accepted ∧
      ((result t).stops = true → stoppedVerdict (result t).verdict = stoppedVerdict (result s).verdict)

variable {tests ys zs : List (StoredTestCase κ)} {result : StoredTestCase κ → ExecResult}

omit [LinearOrder κ] in
/-- The number of passed tests among the results of test cases. -/
theorem countP_map_accepted (tests : List (StoredTestCase κ)) :
    (tests.map result).countP (·.verdict = .accepted) =
      tests.countP fun t ↦ (result t).verdict = .accepted := List.countP_map

/-- In every order there is a first test case that settles the submission, if there is any. -/
theorem exists_stopsFirst (h : Arranges byOrder tests ys)
    (hstop : ∃ u ∈ tests, (result u).stops = true) :
    ∃ before s after, ys = before ++ s :: after ∧ StopsFirst tests result s ∧
      ∀ a ∈ before, (result a).stops = false := by
  obtain ⟨u, hu, hus⟩ := hstop
  cases hfind : ys.find? fun t ↦ (result t).stops with
  | none => exact absurd hus (List.find?_eq_none.mp hfind u (h.mem_iff.mpr hu))
  | some s =>
      obtain ⟨hs, before, after, rfl, hbefore⟩ := List.find?_eq_some_iff_append.mp hfind
      have hnot : ∀ a ∈ before, (result a).stops = false := fun a ha ↦ by simpa using hbefore a ha
      refine ⟨before, s, after, rfl, ⟨h.mem_iff.mp (by simp), hs, fun v hv hvs ↦ ?_⟩, hnot⟩
      obtain ⟨-, hafter, -⟩ := List.pairwise_append.mp h.sorted
      rcases List.mem_append.mp (h.mem_iff.mpr hv) with hv | hv
      · rw [hnot v hv] at hvs
        cases hvs
      rcases List.mem_cons.mp hv with rfl | hv
      · exact le_refl _
      · exact (List.pairwise_cons.mp hafter).1 v hv

omit [LinearOrder κ] in
theorem forall_mem_map_result (h : ∀ a ∈ ys, (result a).stops = false) :
    ∀ r ∈ ys.map result, r.stops = false := by
  intro r hr
  obtain ⟨t, ht, rfl⟩ := List.mem_map.mp hr
  exact h t ht

/-- What is stored where the test cases are run in an order: the verdict of the first one that
settles the submission, over the tests that pass and are strictly before it, if these are all
that pass in front of it. -/
theorem reference_at {before after : List (StoredTestCase κ)} {s : StoredTestCase κ}
    (h : Arranges byOrder tests (before ++ s :: after)) (hs : (result s).stops = true)
    (hbefore : ∀ a ∈ before, (result a).stops = false)
    (hstrict : ∀ a ∈ before, (result a).verdict = .accepted → ¬ byOrder s a) :
    referenceVerdict ((before ++ s :: after).map result) = stoppedVerdict (result s).verdict ∧
      referencePassed ((before ++ s :: after).map result) =
        tests.countP fun a ↦ decide ((result a).verdict = .accepted) && decide (¬ byOrder s a) := by
  obtain ⟨hv, hp⟩ := @reference_of_split _ (after.map result) _ (forall_mem_map_result hbefore) hs
  rw [List.map_append, List.map_cons]
  refine ⟨hv, hp.trans ?_⟩
  rw [countP_map_accepted]
  apply Arranges.countP_before byOrder_total h
  exact fun a ha hacc ↦ hstrict a ha (of_decide_eq_true hacc)

/-- Where ties agree, what passes in front of the first test case that settles the submission is
strictly before it. -/
theorem TiesAgree.strict (hties : TiesAgree tests result) {before after : List (StoredTestCase κ)}
    {s : StoredTestCase κ} (h : Arranges byOrder tests (before ++ s :: after))
    (hs : StopsFirst tests result s) :
    ∀ a ∈ before, (result a).verdict = .accepted → ¬ byOrder s a := by
  intro a ha hacc hsa
  have has : byOrder a s := (List.pairwise_append.mp h.sorted).2.2 a ha s List.mem_cons_self
  have hmem : a ∈ tests := h.mem_iff.mp (List.mem_append_left _ ha)
  exact (hties s hs a hmem (le_antisymm has hsa)).1 hacc

/-- Where ties agree, what is stored does not depend on the order that was chosen. -/
theorem TiesAgree.reference_eq (hties : TiesAgree tests result) (hy : Arranges byOrder tests ys)
    (hz : Arranges byOrder tests zs) :
    referenceVerdict (ys.map result) = referenceVerdict (zs.map result) ∧
      referencePassed (ys.map result) = referencePassed (zs.map result) := by
  by_cases hstop : ∃ u ∈ tests, (result u).stops = true
  · obtain ⟨_, s, _, rfl, hs, hsbefore⟩ := exists_stopsFirst hy hstop
    obtain ⟨_, t, _, rfl, ht, htbefore⟩ := exists_stopsFirst hz hstop
    obtain ⟨hvs, hps⟩ := reference_at hy hs.stops hsbefore (hties.strict hy hs)
    obtain ⟨hvt, hpt⟩ := reference_at hz ht.stops htbefore (hties.strict hz ht)
    have heq : t.order = s.order :=
      le_antisymm (ht.least s hs.mem hs.stops) (hs.least t ht.mem ht.stops)
    constructor
    · rw [hvs, hvt]
      exact ((hties s hs t ht.mem heq).2 ht.stops).symm
    · rw [hps, hpt]
      exact List.countP_congr fun a _ ↦ by simp [byOrder, heq]
  · apply reference_of_perm ((hy.perm_of hz).map result)
    apply forall_mem_map_result
    exact fun t ht ↦ Bool.eq_false_iff.mpr fun hs ↦ hstop ⟨t, hy.mem_iff.mp ht, hs⟩

/-- Where what is stored never depends on the order, ties agree: a test case that is tied with the
first one that settles the submission may be run in front of it, or behind it. -/
theorem tiesAgree_of_reference_eq
    (h : ∀ ys zs, Arranges byOrder tests ys → Arranges byOrder tests zs →
      referenceVerdict (ys.map result) = referenceVerdict (zs.map result) ∧
        referencePassed (ys.map result) = referencePassed (zs.map result)) :
    TiesAgree tests result := by
  intro s hs t ht heq
  have hquiet : ∀ {before : List (StoredTestCase κ)}, (∀ a ∈ before, a ∈ tests) →
      (∀ a ∈ before, ¬ s.order ≤ a.order) → ∀ a ∈ before, (result a).stops = false :=
    fun hmem hb a ha ↦ Bool.eq_false_iff.mpr fun hstops ↦ hb a ha (hs.least a (hmem a ha) hstops)
  obtain ⟨before, after, hy, hb⟩ := Arranges.exists_front byOrder_total hs.mem
  obtain ⟨before', after', hz, hb'⟩ := Arranges.exists_front byOrder_total ht
  have hq : ∀ a ∈ before, (result a).stops = false :=
    hquiet (fun a ha ↦ hy.mem_iff.mp (List.mem_append_left _ ha)) hb
  have hq' : ∀ a ∈ before', (result a).stops = false :=
    hquiet (fun a ha ↦ hz.mem_iff.mp (List.mem_append_left _ ha)) fun a ha hsa ↦
      hb' a ha (heq.trans_le hsa)
  obtain ⟨hv, hp⟩ := reference_at hy hs.stops hq fun a ha _ ↦ hb a ha
  obtain ⟨hvz, hpz⟩ := h _ _ hy hz
  constructor
  · intro hacc
    have hgoes : ∀ a ∈ before' ++ [t], (result a).stops = false := by
      intro a ha
      rcases List.mem_append.mp ha with ha | ha
      · exact hq' a ha
      · rw [List.mem_singleton.mp ha, ExecResult.stops, hacc]
        rfl
    have hle := @countP_le_referencePassed _ (after'.map result) (forall_mem_map_result hgoes)
    rw [← List.map_append, List.append_assoc, List.singleton_append, ← hpz, hp, countP_map_accepted,
      List.countP_append, Arranges.countP_before byOrder_total hz fun a ha _ ↦ hb' a ha] at hle
    have hsame : (tests.countP fun a ↦ decide ((result a).verdict = .accepted) &&
          decide (¬ byOrder t a)) =
        tests.countP fun a ↦ decide ((result a).verdict = .accepted) && decide (¬ byOrder s a) :=
      List.countP_congr fun a _ ↦ by simp [byOrder, heq]
    rw [hsame, List.countP_singleton, if_pos (decide_eq_true hacc)] at hle
    exact absurd hle (Nat.not_succ_le_self _)
  · intro hstops
    obtain ⟨hv', -⟩ := reference_at hz hstops hq' fun a ha _ ↦ hb' a ha
    rw [← hv', ← hvz, hv]

omit [LinearOrder κ] in
/-- The record has what the reference stores. -/
theorem recordOf_eq {d : Submission} (hlang : d.language ∈ supportedLanguages) (hne : ys ≠ []) :
    recordOf d ys result =
      (d.started 1).complete 2 (referenceJudgement (ys.map result)) := by
  have hlen : (ys.map StoredTestCase.testCase).length = (ys.map result).length := by
    rw [List.length_map, List.length_map]
  exact storedAfter_executeSubmission hlang (by simpa using hne)
    (Surroundings.returning_answers _ _ _) (Surroundings.returning_replies hlen)
    fun i _ e ↦ Surroundings.not_throws_returning hlen i e

/-- **Judging does not depend on the order of ties exactly if ties agree.** -/
theorem judging_deterministic_iff {d : Submission} (hlang : d.language ∈ supportedLanguages) :
    (∀ ys zs, Arranges byOrder tests ys → Arranges byOrder tests zs →
      (recordOf d ys result).verdict = (recordOf d zs result).verdict ∧
      (recordOf d ys result).testsPassed = (recordOf d zs result).testsPassed ∧
      (recordOf d ys result).totalTests = (recordOf d zs result).totalTests) ↔
    TiesAgree tests result := by
  have hnil : ∀ {ws}, Arranges byOrder [] ws → ws = ([] : List (StoredTestCase κ)) :=
    fun h ↦ h.perm.eq_nil
  by_cases hne : tests = []
  · subst hne
    constructor
    · exact fun _ s hs ↦ absurd hs.mem List.not_mem_nil
    · intro _ ys zs hy hz
      rw [hnil hy, hnil hz]
      exact ⟨rfl, rfl, rfl⟩
  have hrecord : ∀ {ws}, Arranges byOrder tests ws → recordOf d ws result =
      (d.started 1).complete 2 (referenceJudgement (ws.map result)) := by
    intro ws hw
    apply recordOf_eq hlang
    rintro rfl
    exact hne hw.perm.symm.eq_nil
  constructor
  · intro h
    apply tiesAgree_of_reference_eq
    intro ys zs hy hz
    obtain ⟨hv, hp, -⟩ := h ys zs hy hz
    rw [hrecord hy, hrecord hz] at hv hp
    exact ⟨hv, Option.some.inj hp⟩
  · intro hties ys zs hy hz
    obtain ⟨hv, hp⟩ := hties.reference_eq hy hz
    rw [hrecord hy, hrecord hz]
    refine ⟨hv, congrArg some hp, congrArg some ?_⟩
    change (ys.map result).length = (zs.map result).length
    rw [List.length_map, List.length_map, (hy.perm_of hz).length_eq]

end

/-- Three test cases with one `order`. -/
def tiedTests : List (StoredTestCase Nat) :=
  [⟨1, 0, ⟨[0x31], [0x31]⟩⟩, ⟨2, 0, ⟨[0x32], [0x32]⟩⟩, ⟨3, 0, ⟨[0x33], [0x33]⟩⟩]

/-- The first of them passes, and the others settle the submission. -/
def tiedResult (t : StoredTestCase Nat) : ExecResult :=
  if t.id = 1 then ⟨.accepted, some 5⟩
  else if t.id = 2 then ⟨.timeLimitExceeded, none⟩
  else ⟨.runtimeError, some 5⟩

/-- **The order of ties decides.**  The test cases may be returned as they are listed, or the
other way round, and the records differ in the verdict and in the number of passed tests. -/
theorem judging_depends_on_ties :
    Arranges byOrder tiedTests tiedTests ∧ Arranges byOrder tiedTests tiedTests.reverse ∧
    (recordOf (.create Label.sampleRequest) tiedTests tiedResult).verdict = .timeLimitExceeded ∧
    (recordOf (.create Label.sampleRequest) tiedTests tiedResult).testsPassed = some 1 ∧
    (recordOf (.create Label.sampleRequest) tiedTests.reverse tiedResult).verdict = .runtimeError ∧
    (recordOf (.create Label.sampleRequest) tiedTests.reverse tiedResult).testsPassed = some 0 := by
  have hsorted : tiedTests.Pairwise byOrder ∧ tiedTests.reverse.Pairwise byOrder := by decide
  exact ⟨⟨.refl _, hsorted.1⟩, ⟨List.reverse_perm _, hsorted.2⟩, by decide, by decide, by decide,
    by decide⟩

/-- A program that fails on one of two tied test cases and is wrong on the other. -/
theorem judging_deterministic_iff_tied :
    let tests : List (StoredTestCase Nat) := [⟨1, 0, ⟨[0x31], [0x31]⟩⟩, ⟨2, 0, ⟨[0x32], [0x32]⟩⟩]
    let result : StoredTestCase Nat → ExecResult :=
      fun t ↦ ⟨if t.id = 1 then .wrongAnswer else .runtimeError, none⟩
    ∀ ys, Arranges byOrder tests ys →
      (recordOf (.create Label.sampleRequest) ys result).verdict =
        (recordOf (.create Label.sampleRequest) tests result).verdict := by
  intro tests result ys hy
  have hlang : (Submission.create Label.sampleRequest).language ∈ supportedLanguages := by decide
  have hties : TiesAgree tests result := by
    intro s hs t ht _
    have hs' : s = ⟨2, 0, ⟨[0x32], [0x32]⟩⟩ := by
      rcases List.mem_cons.mp hs.mem with rfl | hm
      · exact absurd hs.stops (by decide)
      · exact List.mem_singleton.mp hm
    subst hs'
    rcases List.mem_cons.mp ht with rfl | hm
    · exact ⟨by decide, by decide⟩
    · rw [List.mem_singleton.mp hm]
      exact ⟨by decide, by decide⟩
  exact ((judging_deterministic_iff hlang).mpr hties ys tests hy ⟨.refl _, by decide⟩).1

end CodeArena.Submissions
