import CodeArena.Engine.Runner

/-!
# Workspaces

Every call of `execute` works in a directory of its own, which `createWorkspace` makes
under the base directory and `cleanupWorkspace` removes.

Paths are resolved ones, as `path.resolve` returns them: the list of their segments.
Both base directories are resolved when they are read, and a workspace is a segment
under one of them, so resolving it once more changes nothing.
-/

namespace CodeArena.Engine

open CodeArena.Lib CodeArena.Lib.Utf

/-- A resolved path: its segments from the root on. -/
abbrev Path := List JsString

/-- A resolved path as a string. -/
def Path.render : Path → JsString
  | [] => [0x2F]
  | p => p.flatMap fun segment ↦ 0x2F :: segment

theorem slash_mem_render (dir : Path) : 0x2F ∈ dir.render := by
  cases dir with
  | nil => exact List.mem_singleton_self _
  | cons segment dir => simp [Path.render]

/-- Where the workspaces are, and how the calls of the file system come out. -/
structure FileSystem where
  /-- `WORKSPACE_BASE_DIR`. -/
  workspaceBaseDir : Path
  /-- `os.tmpdir()`. -/
  tmpdir : Path
  /-- Creating the base directory and setting its mode. -/
  ensureBaseDir : Except SystemError Unit
  /-- `mkdtemp`: the characters it appends. -/
  mkdtemp : Except SystemError JsString
  /-- `chmod` of the new directory. -/
  chmod : Except SystemError Unit
  /-- `writeFile` of the source. -/
  writeFile : Except SystemError Unit
  /-- `lstat` of the workspace: whether it is a symbolic link. -/
  lstat : Except SystemError Bool

/-- A call of the file system whose error is not caught. -/
def call {α : Type} : Except SystemError α → Call α
  | .error e => .throw ⟨"Error", e.message, none⟩
  | .ok a => pure a

@[simp] theorem call_outcome_eq_resolved {α : Type} {x : Except SystemError α} {a : α} :
    (call x).outcome = .resolved a ↔ x = .ok a := by
  cases x <;> simp [call]

/-- An error of the file system keeps its name. -/
theorem call_rejected_name {α : Type} {x : Except SystemError α} {e : EngineError}
    (h : (call x).outcome = .rejected e) : e.name = "Error" := by
  cases x <;> cases h
  rfl

/-- `createWorkspace`.  What becomes of the base directory is caught. -/
def createWorkspace (fs : FileSystem) : Call Path := do
  let suffix ← call fs.mkdtemp
  let workspaceDir := fs.workspaceBaseDir ++ [js "sbx-" ++ suffix]
  .perform (.mkdtemp workspaceDir.render)
  call fs.chmod
  return workspaceDir

/-- `writeSourceFile`. -/
def writeSourceFile (fs : FileSystem) (workspaceDir : Path) (filename sourceCode : JsString) :
    Call Unit := do
  .perform (.writeFile workspaceDir.render filename sourceCode)
  call fs.writeFile

/-- `resolved.startsWith(base + path.sep)`. -/
def isWithin (base dir : Path) : Bool := (base.render ++ [0x2F]).isPrefixOf dir.render

/-- A name of the kind `createWorkspace` makes, or an older one. -/
def isManaged (baseName : JsString) : Bool :=
  (js "sbx-").isPrefixOf baseName || (js "codearena-exec-").isPrefixOf baseName

/-- `cleanupWorkspace`.  What it throws it catches, whatever the removal comes to. -/
def cleanupWorkspace (fs : FileSystem) (workspaceDir : Path) : Call Unit := do
  .perform (.cleanupWorkspace workspaceDir.render)
  if !isWithin fs.workspaceBaseDir workspaceDir && !isWithin fs.tmpdir workspaceDir then
    return ⟨⟩
  else if !isManaged (workspaceDir.getLastD []) then
    return ⟨⟩
  else
    match fs.lstat with
    | .error _ => return ⟨⟩
    | .ok true => .perform (.unlink workspaceDir.render)
    | .ok false => .perform (.rm workspaceDir.render)

/-- A directory `createWorkspace` returned is a managed one under the base directory. -/
theorem createWorkspace_eq_resolved {fs : FileSystem} {dir : Path}
    (h : (createWorkspace fs).outcome = .resolved dir) :
    ∃ suffix, dir = fs.workspaceBaseDir ++ [js "sbx-" ++ suffix] := by
  obtain ⟨suffix, _, h⟩ := Async.bind_outcome_eq_resolved.mp h
  obtain ⟨_, _, h⟩ := Async.bind_outcome_eq_resolved.mp h
  obtain ⟨_, _, h⟩ := Async.bind_outcome_eq_resolved.mp h
  cases h
  exact ⟨suffix, rfl⟩

theorem createWorkspace_rejected_name {fs : FileSystem} {e : EngineError}
    (h : (createWorkspace fs).outcome = .rejected e) : e.name = "Error" := by
  rcases Async.bind_outcome_eq_rejected.mp h with h | ⟨_, _, h⟩
  · exact call_rejected_name h
  rcases Async.bind_outcome_eq_rejected.mp h with h | ⟨_, _, h⟩
  · cases h
  rcases Async.bind_outcome_eq_rejected.mp h with h | ⟨_, _, h⟩
  · exact call_rejected_name h
  · cases h

/-- **`cleanupWorkspace` never throws.** -/
theorem cleanupWorkspace_resolves (fs : FileSystem) (dir : Path) :
    (cleanupWorkspace fs dir).outcome = .resolved ⟨⟩ := by
  refine (Async.bind_outcome_of_resolved (Async.outcome_perform _)).trans ?_
  split
  · rfl
  split
  · rfl
  split <;> rfl

end CodeArena.Engine
