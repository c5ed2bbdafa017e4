import CodeArena.Accounts.Session
import CodeArena.Api.Readiness
import CodeArena.Seeds.Data

/-!
# A seeded database in use

The accounts of the script can log in with its passwords, under its roles, and the readiness that
is reported for its problems counts the test cases of the script (`seeded_usable`).  Each of the
twelve problems has two public test cases and four hidden ones (`seedScript_counts`).
-/

namespace CodeArena.Seeds

open CodeArena.Lib CodeArena.Lib.Utf
open CodeArena.Engine (trim)
open CodeArena.Submissions (ObjectId Time)
open CodeArena.Api (Database Visibility Counts getProblemReadiness)
open CodeArena.Accounts (Auth LawfulAuth isEmail login IsSession)
open CodeArena.Service (World)

/-- The test cases of a problem of the script, counted. -/
def SeedProblem.counts (p : SeedProblem) : Counts :=
  ⟨p.testCases.countP (·.visibility = .pub), p.testCases.countP (·.visibility = .hidden)⟩

theorem HasCases.countActive {db : Database} {problemId : ObjectId} {p : SeedProblem}
    (h : HasCases db problemId p) (v : Visibility) :
    db.countActive problemId v = p.testCases.countP (·.visibility = v) := by
  obtain ⟨ts, hts, hperm⟩ := h
  have hcount : db.countActive problemId v =
      (db.testCases.filter (·.problemId = problemId)).countP fun t ↦ t.isActive ∧ t.visibility = v := by
    rw [List.countP_filter, Database.countActive]
    apply List.countP_congr
    intro t _
    simp only [Bool.and_eq_true, decide_eq_true_eq]
    exact and_comm
  rw [hcount, hperm.countP_eq]
  refine (countP_eq_of_related hts fun tc t ht ↦ ?_).symm
  rw [← ht.data, ht.isActive, decide_eq_decide]
  exact (and_iff_right rfl).symm

section

variable {auth : Auth} {script : Script} {s : State}

/-- **A seeded database in use.** -/
theorem seeded_usable (hauth : LawfulAuth auth) (hscript : script.Distinct auth) {w : World}
    {ok : State → Event → Prop} {ls : List Event}
    (hrun : (seeding auth script w).Run ok ⟨w, .idle⟩ ls s) (hphase : s.phase = .completed)
    (now : Time) :
    (∀ u ∈ script.users, u.isActive = true → isEmail (trim u.email) = true →
      ∃ user ∈ s.world.users.docs, user.role = u.role ∧
        ∃ token, login auth now u.email u.password s.world.users = .ok ⟨user.safe, token⟩ ∧
          IsSession auth user.id now token) ∧
      ∀ p ∈ script.problems, ∃ problem ∈ s.world.db.problems,
        problem.toProblemData = p.trimmed ∧ problem.isActive = true ∧
          getProblemReadiness s.world.db problem.id = p.counts.readiness := by
  obtain ⟨husers, adminUser, -, hproblems⟩ := (done_of_run hauth hscript hrun).seeded hphase
  constructor
  · intro u hu hactive hemail
    obtain ⟨user, hfind, hseeded⟩ := husers u hu
    have hmem := List.mem_of_find?_eq_some hfind
    have hstored : user.email = auth.normalizeEmail u.email := by
      have hmeets := List.find?_some hfind
      exact of_decide_eq_true hmeets
    exact ⟨user, hmem, hseeded.role, Accounts.login_eq_ok hauth hmem
      (hseeded.isActive.trans hactive) ((hauth.normalizeEmail_idem hemail).trans hstored.symm)
      hseeded.password⟩
  · intro p hp
    obtain ⟨problemId, ⟨problem, hfind, rfl, hseeded⟩, hcases⟩ := hproblems p hp
    refine ⟨problem, List.mem_of_find?_eq_some hfind, hseeded.data, hseeded.isActive, ?_⟩
    rw [Api.getProblemReadiness_eq, Database.counts, hcases.countActive, hcases.countActive]
    rfl

end

/-- The problems of the script are ready, with two public test cases and four hidden ones. -/
theorem seedScript_counts : seedScript.problems.all (fun p ↦ decide (p.counts = ⟨2, 4⟩)) = true := by
  decide +kernel

/-- The administrator of the example logs in. -/
theorem seeded_usable_two : ∃ s, (seeding .sample .sample emptyWorld).Run Fresh
    ⟨emptyWorld, .idle⟩ twoProcesses s ∧ s.phase = .completed ∧
      ∃ user ∈ s.world.users.docs, user.role = .admin ∧
        ∃ token, login .sample 5000 (js "ann@code.org") (js "secret") s.world.users =
          .ok ⟨user.safe, token⟩ ∧ IsSession .sample user.id 5000 token := by
  obtain ⟨s, hrun, hcompleted⟩ := exists_twoProcesses
  have hphase := phase_of_isCompleted hcompleted
  obtain ⟨hlogin, -⟩ := seeded_usable Auth.sample_lawful Script.sample_distinct hrun hphase 5000
  exact ⟨s, hrun, hphase, hlogin _ List.mem_cons_self rfl (by decide +kernel)⟩

end CodeArena.Seeds
