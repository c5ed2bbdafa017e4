import CodeArena.Engine.Execute

/-!
# Workspaces that are left behind

`execute` cleans up in a `finally` block, which sees the workspace once `createWorkspace` has
returned it.  `createWorkspace` makes the directory and then sets its mode; where that throws
the directory is there, and nobody knows its name.

So every workspace is cleaned up exactly if the mode of the new directory can be set
(`cleanup_iff`).  The cleanup itself never shows in how the call comes out.
-/

namespace CodeArena.Engine

open CodeArena.Lib CodeArena.Lib.Utf

/-- `execute` without its `finally` block. -/
def executeSteps (host : Host) (request : Option RawRequest) : Call ExecutionResult := do
  let request ← .lift (.ofExcept (validateExecutionRequest request))
  let config ← .lift (.ofExcept (resolveLanguage request.language))
  if !host.isLocalMode && !host.dockerAvailable then .throw executionUnavailable
  else do
    let workspaceDir ← createWorkspace host.fs
    executeIn host config request workspaceDir

/-- A call that has settled has passed every directory it made to `cleanupWorkspace`. -/
def CleansUp (x : Call ExecutionResult) : Prop :=
  x.outcome ≠ .pending → ∀ dir, Effect.mkdtemp dir ∈ x.effects →
    [Effect.mkdtemp dir, .cleanupWorkspace dir].Sublist x.effects

/-- The call gets as far as setting the mode of a new directory. -/
structure MakesDirectory (host : Host) (raw : Option RawRequest) : Prop where
  checked : Checked raw
  available : host.isLocalMode = true ∨ host.dockerAvailable = true
  made : ∃ suffix, host.fs.mkdtemp = .ok suffix

/-! ## Who makes directories -/

/-- An effect other than a new directory. -/
def Effect.Other (e : Effect) : Prop := ∀ dir, e ≠ .mkdtemp dir

theorem call_emits {α : Type} {p : Effect → Prop} (x : Except SystemError α) :
    (call x).Emits p := by
  cases x with
  | error e => exact .lift _
  | ok a => exact .pure a

section

variable {host : Host} {config : LanguageConfig} {request : ExecutionRequest} {dir : Path}

theorem runInDockerSandbox_emits (launch : Invocation → Launch) (invocation : Invocation) :
    (runInDockerSandbox launch invocation).Emits Effect.Other := by
  unfold runInDockerSandbox
  split
  · exact List.forall_mem_singleton.mpr fun _ h ↦ nomatch h
  · exact .lift _

theorem run_emits (invocation : Invocation) : (run host invocation).Emits Effect.Other := by
  unfold run
  split
  · exact List.forall_mem_singleton.mpr fun _ h ↦ nomatch h
  · exact runInDockerSandbox_emits _ _

theorem compile_emits (invocation : Invocation) : (compile host invocation).Emits Effect.Other := by
  unfold compile
  split
  · exact List.forall_mem_singleton.mpr fun _ h ↦ nomatch h
  · exact (runInDockerSandbox_emits _ _).bind fun _ ↦ .pure _

theorem runAndJudge_emits : (runAndJudge host config request dir).Emits Effect.Other :=
  (run_emits _).bind fun _ ↦ .pure _

/-- Once there is a workspace, no other directory is made. -/
theorem executeIn_emits : (executeIn host config request dir).Emits Effect.Other := by
  unfold executeIn
  refine Async.Emits.bind ((Async.Emits.perform fun _ h ↦ nomatch h).bind fun _ ↦ call_emits _) ?_
  intro _
  split
  · exact runAndJudge_emits
  · refine (compile_emits _).bind fun r ↦ ?_
    split
    · exact runAndJudge_emits
    · exact .pure _

end

theorem cleanupWorkspace_emits (fs : FileSystem) (dir : Path) :
    (cleanupWorkspace fs dir).Emits Effect.Other := by
  refine (Async.Emits.perform fun _ h ↦ nomatch h).bind fun _ ↦ ?_
  split
  · exact .pure _
  split
  · exact .pure _
  split
  · exact .pure _
  · exact .perform fun _ h ↦ nomatch h
  · exact .perform fun _ h ↦ nomatch h

/-! ## How `createWorkspace` comes out -/

section

variable {fs : FileSystem} {suffix : JsString} {e : SystemError}

theorem createWorkspace_not_made (h : fs.mkdtemp = .error e) :
    createWorkspace fs = .throw ⟨"Error", e.message, none⟩ := by
  unfold createWorkspace
  rw [h]
  rfl

/-- The directory that `mkdtemp` makes. -/
def FileSystem.newDirectory (fs : FileSystem) (suffix : JsString) : Path :=
  fs.workspaceBaseDir ++ [js "sbx-" ++ suffix]

/-- Where the mode cannot be set, the directory is made and its name is lost. -/
theorem createWorkspace_lost (h : fs.mkdtemp = .ok suffix) (hc : fs.chmod = .error e) :
    createWorkspace fs =
      ⟨[.mkdtemp (fs.newDirectory suffix).render], .rejected ⟨"Error", e.message, none⟩⟩ := by
  unfold createWorkspace
  rw [h, hc]
  rfl

theorem createWorkspace_made (h : fs.mkdtemp = .ok suffix) (hc : fs.chmod = .ok ()) :
    createWorkspace fs =
      ⟨[.mkdtemp (fs.newDirectory suffix).render], .resolved (fs.newDirectory suffix)⟩ := by
  unfold createWorkspace
  rw [h, hc]
  rfl

end

/-! ## What the cleanup changes -/

/-- **The cleanup does not show in how a call comes out.** -/
theorem execute_outcome (host : Host) (raw : Option RawRequest) :
    (execute host raw).outcome = (executeSteps host raw).outcome := by
  apply Async.bind_outcome_congr
  intro request
  apply Async.bind_outcome_congr
  intro config
  split
  · rfl
  · apply Async.bind_outcome_congr
    exact fun dir ↦ Async.outcome_ensuring (cleanupWorkspace_resolves _ _)

section

variable {host : Host} {raw : Option RawRequest}

/-- A call that makes no directory has nothing to clean up. -/
theorem CleansUp.of_emits {x : Call ExecutionResult} (h : x.Emits Effect.Other) : CleansUp x :=
  fun _ dir hdir ↦ absurd rfl (h _ hdir dir)

/-- A call that gets as far as its workspace is the rest of the call, from there on. -/
theorem MakesDirectory.execute_eq (h : MakesDirectory host raw) :
    ∃ request config, execute host raw = createWorkspace host.fs >>= fun workspaceDir ↦
      (executeIn host config request workspaceDir).ensuring
        (cleanupWorkspace host.fs workspaceDir) := by
  obtain ⟨request, config, hv, hr⟩ := h.checked
  have hmode : (!host.isLocalMode && !host.dockerAvailable) = false := by
    cases h.available with
    | inl hl => simp [hl]
    | inr hd => simp [hd]
  refine ⟨request, config, ?_⟩
  unfold execute
  rw [hv, Outcome.ofExcept_ok, Async.lift_resolved_bind, hr, Outcome.ofExcept_ok,
    Async.lift_resolved_bind, hmode, if_neg Bool.false_ne_true]

/-- A call that does not get as far makes no directory. -/
theorem emits_of_not_makesDirectory (h : ¬ MakesDirectory host raw) :
    (execute host raw).Emits Effect.Other := by
  unfold execute
  cases hv : validateExecutionRequest raw with
  | error e => exact .lift _
  | ok request =>
      rw [Outcome.ofExcept_ok, Async.lift_resolved_bind]
      cases hr : resolveLanguage request.language with
      | error e => exact .lift _
      | ok config =>
          rw [Outcome.ofExcept_ok, Async.lift_resolved_bind]
          split
          · exact .lift _
          rename_i hmode
          cases hm : host.fs.mkdtemp with
          | error e =>
              rw [createWorkspace_not_made hm]
              exact .lift _
          | ok suffix =>
              have havailable : host.isLocalMode = true ∨ host.dockerAvailable = true := by
                cases hl : host.isLocalMode with
                | true => exact .inl rfl
                | false => exact .inr (by simpa [hl] using hmode)
              exact absurd ⟨⟨request, config, hv, hr⟩, havailable, suffix, hm⟩ h

/-- Where the mode of the new directory is set, it is cleaned up. -/
theorem MakesDirectory.cleansUp (h : MakesDirectory host raw) (hc : host.fs.chmod = .ok ()) :
    CleansUp (execute host raw) := by
  obtain ⟨suffix, hm⟩ := h.made
  obtain ⟨request, config, heq⟩ := h.execute_eq
  intro hsettled dir hdir
  rw [heq, createWorkspace_made hm hc, Async.bind_resolved] at hsettled hdir ⊢
  generalize hd : host.fs.newDirectory suffix = made at *
  have hresolves := cleanupWorkspace_resolves host.fs made
  have hin : (executeIn host config request made).outcome ≠ .pending := by
    rw [← Async.outcome_ensuring hresolves]
    exact hsettled
  rw [Async.effects_ensuring hresolves hin] at hdir ⊢
  have hcleanup : Effect.cleanupWorkspace made.render ∈ (cleanupWorkspace host.fs made).effects :=
    List.mem_cons_self
  have hmade : dir = made.render := by
    rcases List.mem_append.mp hdir with he | he
    · exact Effect.mkdtemp.inj (List.mem_singleton.mp he)
    rcases List.mem_append.mp he with he | he
    · exact absurd rfl (executeIn_emits _ he dir)
    · exact absurd rfl (cleanupWorkspace_emits _ _ _ he dir)
  subst hmade
  exact (List.singleton_sublist.mpr (List.mem_append_right _ hcleanup)).cons_cons _

/-- Where the mode of the new directory cannot be set, the directory is left behind. -/
theorem MakesDirectory.not_cleansUp (h : MakesDirectory host raw) (hc : host.fs.chmod ≠ .ok ()) :
    ¬ CleansUp (execute host raw) := by
  obtain ⟨suffix, hm⟩ := h.made
  obtain ⟨request, config, heq⟩ := h.execute_eq
  cases hchmod : host.fs.chmod with
  | ok u => exact absurd hchmod hc
  | error e =>
      intro hclean
      rw [heq, createWorkspace_lost hm hchmod, Async.bind_rejected] at hclean
      have hsub := hclean (fun hp ↦ nomatch hp) _ List.mem_cons_self
      exact Nat.not_succ_le_self 1 hsub.length_le

/-- **Every workspace is cleaned up exactly if the mode of a new directory can be set.** -/
theorem cleanup_iff (host : Host) (raw : Option RawRequest) :
    (CleansUp (execute host raw) ∧
      (∀ dir, (cleanupWorkspace host.fs dir).outcome = .resolved ⟨⟩) ∧
      (execute host raw).outcome = (executeSteps host raw).outcome) ↔
    (MakesDirectory host raw → host.fs.chmod = .ok ()) := by
  constructor
  · rintro ⟨hclean, -, -⟩ h
    by_contra hc
    exact h.not_cleansUp hc hclean
  · intro h
    refine ⟨?_, cleanupWorkspace_resolves host.fs, execute_outcome host raw⟩
    by_cases hm : MakesDirectory host raw
    · exact hm.cleansUp (h hm)
    · exact .of_emits (emits_of_not_makesDirectory hm)

end

/-- A host on which the mode of the new directory cannot be set. -/
def Host.withoutChmod : Host :=
  let host := Host.sample false (exits [])
  { host with fs := { host.fs with chmod := .error ⟨"EPERM", js "operation not permitted"⟩ } }

/-- **A workspace is left behind.**  The directory is made, setting its mode throws, and the call
settles without a cleanup. -/
theorem workspace_left_behind :
    (execute Host.withoutChmod (some (.sample .python []))).effects =
      [.mkdtemp (js "/tmp/codearena-workspaces/sbx-a1b2c3")] ∧
    (execute Host.withoutChmod (some (.sample .python []))).outcome =
      .rejected ⟨"Error", js "operation not permitted", none⟩ ∧
    ¬ CleansUp (execute Host.withoutChmod (some (.sample .python []))) := by
  have heffects : (execute Host.withoutChmod (some (.sample .python []))).effects =
      [.mkdtemp (js "/tmp/codearena-workspaces/sbx-a1b2c3")] := by decide +kernel
  have houtcome : (execute Host.withoutChmod (some (.sample .python []))).outcome =
      .rejected ⟨"Error", js "operation not permitted", none⟩ := by decide +kernel
  refine ⟨heffects, houtcome, fun hclean ↦ ?_⟩
  have hsub := hclean (by rw [houtcome]; exact fun h ↦ nomatch h) _
    (by rw [heffects]; exact List.mem_singleton_self _)
  rw [heffects] at hsub
  exact Nat.not_succ_le_self 1 hsub.length_le

end CodeArena.Engine
