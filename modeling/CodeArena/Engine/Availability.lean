import CodeArena.Lib.Machine
import CodeArena.Engine.Execute

/-!
# The availability check of one worker process

`checkDockerAvailable` asks the daemon once in the life of its process and repeats the
answer ever after, whatever has become of the daemon since.  A worker process is a
machine over that cache: the daemon goes down and comes up, the readiness probe asks, and
calls of `execute` are made, each of which asks before it starts and again in every run in
the sandbox.

A call fails as unavailable exactly when the answer it gets is negative
(`outcome_eq_unavailable`), so what decides is the daemon at the first check of the
process and not the daemon at the call (`cache_of_run`).

## Honest boundary

Calls come one after another.  Where several of them ask before the first answer has
arrived, the last answer stays in the cache.
-/

namespace CodeArena.Engine

open CodeArena.Lib CodeArena.Lib.Utf

/-- `checkDockerAvailable` under a cache: the answer, and the cache after it.  `reachable`
is whether `docker info` succeeds now. -/
def checkDockerAvailable (reachable : Bool) : Option Bool → Bool × Option Bool
  | some answer => (answer, some answer)
  | none => (reachable, some reachable)

/-- The launch of a container as the check under a cache lets it find the world. -/
def Launch.underCache (cache : Option Bool) (launch : Launch) : Launch :=
  { launch with dockerAvailable := (checkDockerAvailable launch.dockerAvailable cache).1 }

/-- The host as a call in a process with a cache finds it.  The answers that `host` has
are those of `docker info` at each of the checks. -/
def Host.underCache (host : Host) (cache : Option Bool) : Host :=
  let first := checkDockerAvailable host.dockerAvailable cache
  { host with
    dockerAvailable := first.1
    compiler := fun invocation ↦ (host.compiler invocation).underCache first.2
    program := fun invocation ↦ (host.program invocation).underCache first.2 }

/-! ## The process -/

/-- A worker process in non-local mode. -/
structure Process where
  /-- Whether the daemon is reachable. -/
  reachable : Bool
  isDockerAvailableCache : Option Bool
deriving DecidableEq, Repr

/-- What happens to a process. -/
inductive Event where
  /-- The daemon goes down or comes up. -/
  | daemon (reachable : Bool)
  /-- The readiness probe asks. -/
  | probe
  /-- A call of `execute`, on a host in non-local mode. -/
  | execute (host : Host) (raw : Option RawRequest)

namespace Process

/-- The host of a call: in non-local mode, with the daemon as it is. -/
def host (p : Process) (host : Host) : Host :=
  { host with isLocalMode := false, dockerAvailable := p.reachable }.underCache
    p.isDockerAvailableCache

/-- How a call of `execute` comes out. -/
def outcome (p : Process) (host : Host) (raw : Option RawRequest) :
    Outcome EngineError ExecutionResult :=
  (Engine.execute (p.host host) raw).outcome

/-- The process after a check. -/
def check (p : Process) : Process :=
  { p with isDockerAvailableCache :=
      (checkDockerAvailable p.reachable p.isDockerAvailableCache).2 }

/-- The process after an event.  A call asks once its request is checked; what it asks
later on finds the cache filled. -/
def step (p : Process) : Event → Process
  | .daemon reachable => { p with reachable }
  | .probe => p.check
  | .execute _ raw => if Checked raw then p.check else p

/-- A process that has just started, with the daemon as it is then. -/
def start (reachable : Bool) : Process := ⟨reachable, none⟩

/-- The histories of a process. -/
def machine (reachable : Bool) : Machine Process Event :=
  ⟨start reachable, fun p e ↦ some (p.step e)⟩

end Process

/-- The daemon at each check of a history. -/
def checks : Bool → List Event → List Bool
  | _, [] => []
  | _, .daemon reachable :: events => checks reachable events
  | reachable, .probe :: events => reachable :: checks reachable events
  | reachable, .execute _ raw :: events =>
    if Checked raw then reachable :: checks reachable events else checks reachable events

/-- **The cache holds the daemon of the first check**, for the whole life of a process. -/
theorem cache_of_run {b : Bool} {p q : Process} {events : List Event}
    (h : (Process.machine b).Run Machine.anyStep p events q) :
    q.isDockerAvailableCache = p.isDockerAvailableCache.or (checks p.reachable events).head? := by
  have hcheck : ∀ (p : Process) (l : List Bool), p.check.isDockerAvailableCache.or l.head? =
      p.isDockerAvailableCache.or (p.reachable :: l).head? := by
    intro p l
    obtain ⟨reachable, cache⟩ := p
    cases cache <;> rfl
  induction h with
  | nil p => simp [checks]
  | @cons p t q e events _ hstep _ ih =>
      obtain rfl : p.step e = t := Option.some.inj hstep
      rw [ih]
      cases e with
      | daemon reachable => rfl
      | probe => exact hcheck p _
      | execute host raw =>
          simp only [Process.step, checks]
          split
          · exact hcheck p _
          · rfl

/-! ## The calls that fail as unavailable -/

/-- An error whose message starts with another letter. -/
theorem ne_executionUnavailable_of_message {s : String} {text : JsString} {u : CodeUnit}
    (hs : (js s).head? = some u) (hu : u ≠ 0x45) :
    executionEngineError (js s ++ text) ≠ executionUnavailable := by
  intro h
  have hhead : (js s ++ text).head? = executionUnavailable.message.head? :=
    congrArg (fun e ↦ e.message.head?) h
  have hE : executionUnavailable.message.head? = some 0x45 := by decide +kernel
  rw [List.head?_append, hs, hE] at hhead
  exact hu (Option.some.inj hhead)

/-- Where its own check passes, the sandbox throws other errors only. -/
theorem runInDockerSandbox_ne_unavailable {launch : Invocation → Launch} {invocation : Invocation}
    (h : (launch invocation).dockerAvailable = true) :
    (runInDockerSandbox launch invocation).outcome ≠ .rejected executionUnavailable := by
  unfold runInDockerSandbox
  rw [if_pos h]
  intro hr
  cases hc : (launch invocation).child with
  | notSpawned e =>
      rw [hc] at hr
      exact ne_executionUnavailable_of_message (u := 0x46) (by decide +kernel) (by decide)
        (Outcome.rejected.inj hr)
  | spawned activity ending =>
      rw [hc] at hr
      cases ending with
      | never => cases hr
      | error e =>
          exact ne_executionUnavailable_of_message (u := 0x44) (by decide +kernel) (by decide)
            (Outcome.rejected.inj hr)
      | close close => cases hr

section

variable {host : Host} {request : ExecutionRequest} {config : LanguageConfig} {dir : Path}

/-- In non-local mode, where the sandbox's own check passes, the `try` block of `execute`
throws other errors only. -/
theorem executeIn_ne_unavailable (hmode : host.isLocalMode = false)
    (hcompiler : ∀ invocation, (host.compiler invocation).dockerAvailable = true)
    (hprogram : ∀ invocation, (host.program invocation).dockerAvailable = true) :
    (executeIn host config request dir).outcome ≠ .rejected executionUnavailable := by
  have hcompile : ∀ invocation,
      (compile host invocation).outcome ≠ .rejected executionUnavailable := by
    intro invocation h
    rw [compile, if_neg (by simp [hmode])] at h
    rcases Async.bind_outcome_eq_rejected.mp h with h | ⟨_, _, h⟩
    · exact runInDockerSandbox_ne_unavailable (hcompiler invocation) h
    · cases h
  have hrun : (runAndJudge host config request dir).outcome ≠ .rejected executionUnavailable := by
    intro h
    rcases Async.bind_outcome_eq_rejected.mp h with h | ⟨_, _, h⟩
    · rw [run, if_neg (by simp [hmode])] at h
      exact runInDockerSandbox_ne_unavailable (hprogram _) h
    · cases h
  intro h
  rcases Async.bind_outcome_eq_rejected.mp h with h | ⟨_, _, h⟩
  · rw [writeSourceFile_outcome] at h
    exact absurd (call_rejected_name h) (by decide)
  · split at h
    · exact hrun h
    · rcases Async.bind_outcome_eq_rejected.mp h with h | ⟨_, _, h⟩
      · exact hcompile _ h
      · split at h
        · exact hrun h
        · cases h

end

/-- **A call fails as unavailable exactly when its first check is answered so.** -/
theorem Process.outcome_eq_unavailable {p : Process} {host : Host} {raw : Option RawRequest} :
    p.outcome host raw = .rejected executionUnavailable ↔
      Checked raw ∧ (checkDockerAvailable p.reachable p.isDockerAvailableCache).1 = false := by
  have hmode : (p.host host).isLocalMode = false := rfl
  have hdocker : (p.host host).dockerAvailable =
      (checkDockerAvailable p.reachable p.isDockerAvailableCache).1 := rfl
  constructor
  · intro h
    rcases Async.bind_outcome_eq_rejected.mp h with h | ⟨request, hv, h⟩
    · exact absurd (validateExecutionRequest_error (Outcome.ofExcept_eq_rejected.mp h)) (by decide)
    rcases Async.bind_outcome_eq_rejected.mp h with h | ⟨config, hr, h⟩
    · exact absurd (resolveLanguage_error (Outcome.ofExcept_eq_rejected.mp h)) (by decide)
    constructor
    · exact ⟨request, config, Outcome.ofExcept_eq_resolved.mp hv,
        Outcome.ofExcept_eq_resolved.mp hr⟩
    · apply Bool.eq_false_iff.mpr
      intro havailable
      -- The cache holds a positive answer now, so the sandbox's own checks pass as well.
      have hlaunch : ∀ launch : Launch,
          (launch.underCache (checkDockerAvailable p.reachable
            p.isDockerAvailableCache).2).dockerAvailable = true := by
        intro launch
        cases hcache : p.isDockerAvailableCache with
        | none => simpa [Launch.underCache, checkDockerAvailable, hcache] using havailable
        | some answer => simpa [Launch.underCache, checkDockerAvailable, hcache] using havailable
      rw [hmode, hdocker, havailable, Bool.not_true, Bool.and_false,
        if_neg Bool.false_ne_true] at h
      rcases Async.bind_outcome_eq_rejected.mp h with h | ⟨dir, _, h⟩
      · exact absurd (createWorkspace_rejected_name h) (by decide)
      · rw [Async.outcome_ensuring (cleanupWorkspace_resolves _ _)] at h
        exact executeIn_ne_unavailable hmode (fun _ ↦ hlaunch _) (fun _ ↦ hlaunch _) h
  · rintro ⟨⟨request, config, hv, hr⟩, hanswer⟩
    unfold outcome execute
    rw [Async.bind_outcome_of_resolved (Outcome.ofExcept_eq_resolved.mpr hv),
      Async.bind_outcome_of_resolved (Outcome.ofExcept_eq_resolved.mpr hr), hmode, hdocker,
      hanswer, Bool.not_false, Bool.true_and, if_pos rfl]
    rfl

/-- **Calls fail as unavailable exactly during an outage, as long as the daemon is what it
was at the first check.**  In every history of a process, a call fails as unavailable just
when the daemon is unreachable, if and only if the request passes its checks and the first
check of the process, where there has been one, found the daemon as it is at the call, or
the request is refused and there is no outage. -/
theorem unavailable_iff_outage {b : Bool} {events : List Event} {p : Process}
    (h : (Process.machine b).Run Machine.anyStep (.start b) events p) (host : Host)
    (raw : Option RawRequest) :
    (p.outcome host raw = .rejected executionUnavailable ↔ p.reachable = false) ↔
      (Checked raw ∧ ∀ first ∈ (checks b events).head?, first = p.reachable) ∨
        (¬ Checked raw ∧ p.reachable = true) := by
  have hcache : p.isDockerAvailableCache = (checks b events).head? := cache_of_run h
  rw [Process.outcome_eq_unavailable, hcache]
  by_cases hraw : Checked raw
  · simp only [hraw, true_and, not_true, false_and, or_false]
    cases (checks b events).head? with
    | none => simp [checkDockerAvailable]
    | some first => cases first <;> cases p.reachable <;> simp [checkDockerAvailable]
  · simp [hraw]

/-- A process that has asked while the daemon was there, and is called while it is not. -/
theorem unavailable_iff_outage_late :
    (Process.outcome ⟨false, some true⟩ (.sample false (exits []))
        (some (.sample .python [])) = .rejected executionUnavailable ↔ false = false) ↔
      (Checked (some (.sample .python [])) ∧
        ∀ first ∈ (checks true [.probe, .daemon false]).head?, first = false) ∨
      (¬ Checked (some (.sample .python [])) ∧ false = true) := by
  have h : (Process.machine true).Run Machine.anyStep (.start true) [.probe, .daemon false]
      ⟨false, some true⟩ := .cons trivial rfl (.cons trivial rfl (.nil _))
  exact unavailable_iff_outage h _ _

/-- **An outage outlasts its end.**  The daemon is down at the first call and back before the
second, which fails all the same and leaves the process as it was, so that every further
try fails too. -/
theorem unavailable_after_recovery : ∃ p : Process,
    (Process.machine false).Run Machine.anyStep (.start false)
      [.execute (.sample false (exits [])) (some (.sample .python [])), .daemon true] p ∧
    p.reachable = true ∧
    p.outcome (.sample false (exits [])) (some (.sample .python [])) =
      .rejected executionUnavailable ∧
    p.step (.execute (.sample false (exits [])) (some (.sample .python []))) = p :=
  ⟨⟨true, some false⟩, .of_exec (by decide +kernel), rfl, by decide +kernel, by decide +kernel⟩

end CodeArena.Engine
