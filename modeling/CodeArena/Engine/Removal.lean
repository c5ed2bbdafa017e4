import CodeArena.Engine.Paths
import CodeArena.Lib.FileTree

/-!
# Removing a workspace

`cleanupWorkspace` on strings and a tree of files.  Its guards look at the path only, and
`lstat` at the last segment only, so that a symbolic link between the two is followed.  What is
removed is in the directory that the path leads to, and that one may be anywhere: exactly then
something is removed that is not below a base directory (`removes_inside_iff`).  Without a
symbolic link on the way from the base directory nothing is (`removes_inside_of_no_links`).

## Honest boundary

The platform is Linux: a name is a sequence of bytes, and a path may lead over forty links.
Nothing else keeps a call from doing what it does, neither permissions nor the length of a
path, and the tree changes in no other way meanwhile.
-/

namespace CodeArena.Engine.Removal

open CodeArena.Lib CodeArena.Lib.Utf

/-- A name in a directory. -/
abbrev Name := List UInt8

/-- The name of a segment: UTF-8, with a surrogate that is not in a pair replaced. -/
def fileName (segment : JsString) : Name := encode (utf16Decode segment)

/-- The components of a resolved path. -/
def components (p : Path) : List (Component Name) := (p.map fileName).map .name

/-- How many links a path may lead over. -/
def maxLinks : Nat := 40

/-- What the process has from its surroundings. -/
structure Environment where
  /-- `process.cwd()`. -/
  cwd : JsString
  /-- `process.env.CODEARENA_WORKSPACE_BASE`, empty where it is not set. -/
  codearenaWorkspaceBase : JsString
  /-- `os.tmpdir()`. -/
  tmpdir : JsString

namespace Environment

variable (env : Environment)

/-- `WORKSPACE_BASE_DIR`. -/
def workspaceBaseDir : JsString :=
  (resolve env.cwd (if env.codearenaWorkspaceBase = [] then js "/tmp/codearena-workspaces"
    else env.codearenaWorkspaceBase)).render

/-- `allowedBase`. -/
def allowedBase : Path := resolve env.cwd env.workspaceBaseDir

/-- `tmpBase`. -/
def tmpBase : Path := resolve env.cwd env.tmpdir

/-- The base directories. -/
def bases : List Path := [env.allowedBase, env.tmpBase]

end Environment

/-! ## Calls of the file system -/

section Calls

variable (t : FileTree Name)

/-- The directory and the name of a path: the links on the way are followed, and the last
segment is not. -/
def locate (resolved : Path) : Option (List Name × Name) :=
  if 0 ∈ resolved.render then none
  else
    resolved.getLast?.bind fun last ↦
      (t.walk maxLinks [] (components resolved.dropLast)).map fun r ↦ (r.2, fileName last)

/-- `fs.lstat`. -/
def lstat (resolved : Path) : Option (Entry Name) :=
  (locate t resolved).bind fun l ↦ t.entry (l.1 ++ [l.2])

/-- `fs.unlink`. -/
def unlink (resolved : Path) : FileTree Name :=
  match locate t resolved with
  | some (dir, name) => t.unlink dir name
  | none => t

/-- `fs.rm` with `recursive` and `force`. -/
def rm (resolved : Path) : FileTree Name :=
  match locate t resolved with
  | some (dir, name) => t.prune dir name
  | none => t

end Calls

/-- `cleanupWorkspace`. -/
def cleanupWorkspace (env : Environment) (t : FileTree Name) (workspaceDir : JsString) :
    FileTree Name :=
  if workspaceDir = [] then t
  else
    let resolved := resolve env.cwd workspaceDir
    if !isWithin env.allowedBase resolved && !isWithin env.tmpBase resolved then t
    else if !isManaged (resolved.getLastD []) then t
    else
      match lstat t resolved with
      | none => t
      | some (.link _) => unlink t resolved
      | some _ => rm t resolved

/-! ## What is removed -/

/-- The directory that a resolved path leads to. -/
def realPath (t : FileTree Name) (p : Path) : Option (List Name) :=
  (t.walk maxLinks [] (components p)).map Prod.snd

/-- A real path is a base directory, or below one. -/
def UnderBase (env : Environment) (t : FileTree Name) (p : List Name) : Prop :=
  ∃ base ∈ env.bases, ∃ real, realPath t base = some real ∧ real <+: p

/-- The name of a managed entry. -/
def ManagedName (name : Name) : Prop :=
  encode "sbx-".toList <+: name ∨ encode "codearena-exec-".toList <+: name

/-- **Nothing is removed outside of the managed areas.** -/
def RemovesInside (env : Environment) (t : FileTree Name) (workspaceDir : JsString) : Prop :=
  ∀ p, FileTree.Removed t (cleanupWorkspace env t workspaceDir) p →
    (∃ base ∈ env.bases, ∃ real, realPath t base = some real ∧ real <+: p ∧ real ≠ p) ∧
      ∃ dir name, ManagedName name ∧ dir ++ [name] <+: p

/-- The path leads out of the base directories: from the one that it starts with over links to a
directory below neither, in which there is an entry of the last name. -/
def LeadsOut (env : Environment) (t : FileTree Name) (workspaceDir : JsString) : Prop :=
  workspaceDir ≠ [] ∧ 0 ∉ (resolve env.cwd workspaceDir).render ∧
    ∃ base ∈ env.bases, base ≠ [] ∧ ∃ way last,
      resolve env.cwd workspaceDir = base ++ way ++ [last] ∧ isManaged last = true ∧
      ∃ rest real rest' dir, t.walk maxLinks [] (components base) = some (rest, real) ∧
        t.walk rest real (components way) = some (rest', dir) ∧
        t.entry (dir ++ [fileName last]) ≠ none ∧ ¬ UnderBase env t dir

/-! ## The guards -/

section Guards

variable {env : Environment} {t : FileTree Name} {workspaceDir : JsString}

/-- The guards let a path through. -/
def Accepted (env : Environment) (workspaceDir : JsString) : Prop :=
  workspaceDir ≠ [] ∧ (∃ base ∈ env.bases, isWithin base (resolve env.cwd workspaceDir) = true) ∧
    isManaged ((resolve env.cwd workspaceDir).getLastD []) = true

/-- Such a path goes from a base directory to a managed name. -/
theorem accepted_iff : Accepted env workspaceDir ↔
    workspaceDir ≠ [] ∧ ∃ base ∈ env.bases, base ≠ [] ∧ ∃ way last,
      resolve env.cwd workspaceDir = base ++ way ++ [last] ∧ isManaged last = true := by
  have hplain : ∀ base ∈ env.bases, ∀ s ∈ base, Plain s :=
    List.forall_mem_cons.mpr ⟨plain_resolve _ _, List.forall_mem_singleton.mpr (plain_resolve _ _)⟩
  refine and_congr_right fun _ ↦ ?_
  constructor
  · rintro ⟨⟨base, hbase, hwithin⟩, hmanaged⟩
    obtain ⟨hne, segment, p, heq⟩ :=
      (isWithin_iff (hplain base hbase) (plain_resolve _ _)).mp hwithin
    obtain ⟨way, last, hlast⟩ := (List.eq_nil_or_concat' (segment :: p)).resolve_left nofun
    rw [hlast, ← List.append_assoc] at heq
    rw [heq, List.getLastD_concat] at hmanaged
    exact ⟨base, hbase, hne, way, last, heq, hmanaged⟩
  · rintro ⟨base, hbase, hne, way, last, heq, hmanaged⟩
    constructor
    · obtain ⟨segment, p, hcons⟩ := List.exists_cons_of_ne_nil
        (List.append_ne_nil_of_right_ne_nil way (List.cons_ne_nil last []))
      refine ⟨base, hbase, (isWithin_iff (hplain base hbase) (plain_resolve _ _)).mpr ?_⟩
      rw [List.append_assoc, hcons] at heq
      exact ⟨hne, segment, p, heq⟩
    · rw [heq, List.getLastD_concat]
      exact hmanaged

/-- The boundary check. -/
theorem outside_eq_false_iff {resolved : Path} :
    (!isWithin env.allowedBase resolved && !isWithin env.tmpBase resolved) = false ↔
      ∃ base ∈ env.bases, isWithin base resolved = true := by
  have hmem : (∃ base ∈ env.bases, isWithin base resolved = true) ↔
      isWithin env.allowedBase resolved = true ∨ isWithin env.tmpBase resolved = true := by
    simp [Environment.bases]
  rw [hmem, Bool.and_eq_false_iff, Bool.not_eq_false', Bool.not_eq_false']

/-- What the guards refuse stays. -/
theorem cleanupWorkspace_of_not_accepted (h : ¬ Accepted env workspaceDir) :
    cleanupWorkspace env t workspaceDir = t := by
  unfold cleanupWorkspace
  split
  case isTrue => rfl
  case isFalse hne =>
    dsimp only
    split
    case isTrue => rfl
    case isFalse hwithin =>
      split
      case isTrue => rfl
      case isFalse hmanaged =>
        have hbases := outside_eq_false_iff.mp (Bool.eq_false_iff.mpr hwithin)
        rw [Bool.not_eq_true', Bool.not_eq_false] at hmanaged
        exact absurd ⟨hne, hbases, hmanaged⟩ h

/-- What they let through is removed, whatever it is. -/
theorem cleanupWorkspace_of_accepted (h : Accepted env workspaceDir) :
    cleanupWorkspace env t workspaceDir = rm t (resolve env.cwd workspaceDir) := by
  obtain ⟨hne, hbases, hmanaged⟩ := h
  rw [cleanupWorkspace, if_neg hne]
  dsimp only
  rw [outside_eq_false_iff.mpr hbases, hmanaged, lstat, unlink, rm]
  cases locate t (resolve env.cwd workspaceDir) with
  | none => rfl
  | some l =>
      obtain ⟨dir, name⟩ := l
      show (match t.entry (dir ++ [name]) with
        | none => t
        | some (.link _) => t.unlink dir name
        | some _ => t.prune dir name) = t.prune dir name
      split
      case h_1 hentry => exact (FileTree.prune_eq_self hentry).symm
      case h_2 hentry =>
        apply FileTree.unlink_eq_prune
        rw [hentry]
        exact nofun
      case h_3 => rfl

/-- **What `cleanupWorkspace` removes**: what is there at the path and below it, if the guards
let the path through. -/
theorem removed_cleanupWorkspace_iff {p : List Name} :
    FileTree.Removed t (cleanupWorkspace env t workspaceDir) p ↔
      Accepted env workspaceDir ∧ ∃ dir name,
        locate t (resolve env.cwd workspaceDir) = some (dir, name) ∧ t.entry p ≠ none ∧
          dir ++ [name] <+: p := by
  by_cases h : Accepted env workspaceDir
  · rw [cleanupWorkspace_of_accepted h, rm]
    cases locate t (resolve env.cwd workspaceDir) with
    | none => exact iff_of_false (fun hp ↦ hp.1 hp.2) (fun ⟨_, _, _, heq, _⟩ ↦ nomatch heq)
    | some l =>
        refine FileTree.removed_prune_iff.trans ⟨fun hp ↦ ⟨h, l.1, l.2, rfl, hp⟩, ?_⟩
        rintro ⟨-, dir, name, heq, hp⟩
        cases heq
        exact hp
  · rw [cleanupWorkspace_of_not_accepted h]
    exact iff_of_false (fun hp ↦ hp.1 hp.2) (fun haccepted ↦ h haccepted.1)

end Guards

/-! ## Where a path leads -/

theorem components_append (p q : Path) : components (p ++ q) = components p ++ components q := by
  rw [components, List.map_append, List.map_append]
  rfl

/-- The last segment is in the directory that the others lead to. -/
theorem locate_concat_eq_some_iff {t : FileTree Name} {p : Path} {last : JsString}
    {dir : List Name} {name : Name} :
    locate t (p ++ [last]) = some (dir, name) ↔
      0 ∉ Path.render (p ++ [last]) ∧
        (∃ rest, t.walk maxLinks [] (components p) = some (rest, dir)) ∧ fileName last = name := by
  rw [locate, List.getLast?_concat, List.dropLast_concat]
  split
  case isTrue hnul => exact iff_of_false nofun fun h ↦ h.1 hnul
  case isFalse hnul =>
    rw [and_iff_right hnul]
    cases t.walk maxLinks [] (components p) with
    | none => exact iff_of_false nofun fun ⟨⟨_, h⟩, _⟩ ↦ nomatch h
    | some r =>
        obtain ⟨rest, d⟩ := r
        constructor
        · intro h
          cases h
          exact ⟨⟨rest, rfl⟩, rfl⟩
        · rintro ⟨⟨_, h⟩, rfl⟩
          cases h
          rfl

/-- The name of a managed segment. -/
theorem managedName_fileName {segment : JsString} (h : isManaged segment = true) :
    ManagedName (fileName segment) := by
  have hpath {s : String} (hs : (js s).isPrefixOf segment = true) :
      encode s.toList <+: fileName segment := by
    obtain ⟨r, rfl⟩ := List.isPrefixOf_iff_prefix.mp hs
    rw [fileName, js, utf16Decode_utf16Encode_append]
    exact ⟨encode (utf16Decode r), List.flatMap_append.symm⟩
  rcases Bool.or_eq_true_iff.mp h with h | h
  · exact .inl (hpath h)
  · exact .inr (hpath h)

section Removing

variable {env : Environment} {t : FileTree Name} {workspaceDir : JsString}

/-- **What is removed is inside of the managed areas exactly if the path does not lead out of
the base directories.** -/
theorem removes_inside_iff : RemovesInside env t workspaceDir ↔ ¬ LeadsOut env t workspaceDir := by
  constructor
  · rintro hinside ⟨hne, hnul, base, hbase, hbasene, way, last, heq, hmanaged, rest, real, rest',
      dir, hreal, hdir, hentry, hout⟩
    have haccepted := accepted_iff.mpr ⟨hne, base, hbase, hbasene, way, last, heq, hmanaged⟩
    have hlocate : locate t (resolve env.cwd workspaceDir) = some (dir, fileName last) := by
      rw [heq] at hnul ⊢
      refine locate_concat_eq_some_iff.mpr ⟨hnul, ⟨rest', ?_⟩, rfl⟩
      rw [components_append]
      exact FileTree.walk_append_eq_some_iff.mpr ⟨rest, real, hreal, hdir⟩
    obtain ⟨⟨base', hbase', real', hreal', hpath, hstrict⟩, -⟩ := hinside _
      (removed_cleanupWorkspace_iff.mpr
        ⟨haccepted, dir, fileName last, hlocate, hentry, List.prefix_refl _⟩)
    rcases List.prefix_concat_iff.mp hpath with heq' | hbelow
    · exact hstrict heq'
    · exact hout ⟨base', hbase', real', hreal', hbelow⟩
  · intro hleads p hp
    obtain ⟨haccepted, dir, name, hlocate, hentry, hpath⟩ := removed_cleanupWorkspace_iff.mp hp
    obtain ⟨hne, base, hbase, hbasene, way, last, heq, hmanaged⟩ := accepted_iff.mp haccepted
    rw [heq] at hlocate
    obtain ⟨hnul, ⟨rest', hwalk⟩, rfl⟩ := locate_concat_eq_some_iff.mp hlocate
    rw [components_append] at hwalk
    obtain ⟨rest, real, hreal, hdir⟩ := FileTree.walk_append_eq_some_iff.mp hwalk
    have hunder : UnderBase env t dir := by
      by_contra hout
      refine hleads ⟨hne, heq ▸ hnul, base, hbase, hbasene, way, last, heq, hmanaged, rest, real,
        rest', dir, hreal, hdir, fun hnone ↦ ?_, hout⟩
      exact hentry (t.entry_eq_none_of_prefix hnone hpath)
    obtain ⟨base', hbase', real', hreal', hbelow⟩ := hunder
    refine ⟨⟨base', hbase', real', hreal', ?_, ?_⟩, dir, _, managedName_fileName hmanaged, hpath⟩
    · exact (hbelow.trans (List.prefix_append dir _)).trans hpath
    · rintro rfl
      have hlength := (hpath.trans hbelow).length_le
      rw [List.length_append, List.length_singleton] at hlength
      omega

/-- **Where no link is on the way from a base directory, nothing outside is removed.** -/
theorem removes_inside_of_no_links {base way : Path} {last : JsString} (hbase : base ∈ env.bases)
    (heq : resolve env.cwd workspaceDir = base ++ way ++ [last])
    (hlinks : ∀ real, realPath t base = some real → ∀ ms, ms <+: way.map fileName →
      ∀ target, t.entry (real ++ ms) ≠ some (.link target)) :
    RemovesInside env t workspaceDir := by
  rw [removes_inside_iff]
  rintro ⟨-, -, base', -, -, way', last', heq', -, rest', real', rest, dir, hreal', hdir', -, hout⟩
  -- Both ways are the same walk, so that they end in the same directory.
  have hway : base' ++ way' = base ++ way := List.append_inj_left' (heq'.symm.trans heq) rfl
  have hwalk : t.walk maxLinks [] (components (base' ++ way')) = some (rest, dir) := by
    rw [components_append]
    exact FileTree.walk_append_eq_some_iff.mpr ⟨rest', real', hreal', hdir'⟩
  rw [hway, components_append] at hwalk
  obtain ⟨_, real, hreal, hdir⟩ := FileTree.walk_append_eq_some_iff.mp hwalk
  have hrealPath : realPath t base = some real := congrArg (Option.map Prod.snd) hreal
  have happ : dir = real ++ way.map fileName :=
    (FileTree.walk_eq_some_iff.mp hdir).eq_append (hlinks real hrealPath)
  exact hout ⟨base, hbase, real, hrealPath, happ ▸ List.prefix_append real _⟩

/-- A real path is one of a directory. -/
theorem entry_of_realPath {p : Path} {real : List Name} (h : realPath t p = some real) :
    t.entry real = some .directory := by
  obtain ⟨⟨_, _⟩, hwalk, rfl⟩ := Option.map_eq_some_iff.mp h
  exact (FileTree.walk_eq_some_iff.mp hwalk).directory t.root

/-- A directory that `createWorkspace` made is removed, and nothing outside. -/
theorem removes_inside_createWorkspace {fs : FileSystem} {dir : Path}
    (h : (createWorkspace fs).outcome = .resolved dir)
    (hbase : fs.workspaceBaseDir = env.allowedBase) (hplain : ∀ s ∈ dir, Plain s) :
    RemovesInside env t dir.render := by
  obtain ⟨suffix, rfl⟩ := createWorkspace_eq_resolved h
  have heq : resolve env.cwd (Path.render (fs.workspaceBaseDir ++ [js "sbx-" ++ suffix])) =
      env.allowedBase ++ [] ++ [js "sbx-" ++ suffix] := by
    rw [resolve_render hplain, hbase, List.append_nil]
  apply removes_inside_of_no_links List.mem_cons_self heq
  intro real hreal ms hms target hentry
  rw [List.prefix_nil.mp hms, List.append_nil, entry_of_realPath hreal] at hentry
  cases hentry

end Removing

/-! ## The effects -/

/-- What an effect removes. -/
def remove (env : Environment) (t : FileTree Name) : Effect → FileTree Name
  | .unlink path => unlink t (resolve env.cwd path)
  | .rm path => rm t (resolve env.cwd path)
  | _ => t

/-- The calls of `cleanupWorkspace` as a tree answers them. -/
def answers (env : Environment) (t : FileTree Name) (resolved : Path) (fs : FileSystem) :
    FileSystem :=
  { fs with
    workspaceBaseDir := env.allowedBase
    tmpdir := env.tmpBase
    lstat :=
      match lstat t resolved with
      | none => .error ⟨"ENOENT", js "no such file or directory"⟩
      | some (.link _) => .ok true
      | some _ => .ok false }

/-- **The effects of `cleanupWorkspace` are what it does to the tree.** -/
theorem foldl_remove_effects (env : Environment) (t : FileTree Name) (fs : FileSystem)
    {workspaceDir : JsString} (hne : workspaceDir ≠ []) :
    (Engine.cleanupWorkspace (answers env t (resolve env.cwd workspaceDir) fs)
        (resolve env.cwd workspaceDir)).effects.foldl (remove env) t =
      cleanupWorkspace env t workspaceDir := by
  have hresolve : resolve env.cwd (resolve env.cwd workspaceDir).render =
      resolve env.cwd workspaceDir := resolve_render (plain_resolve _ _) _
  rw [cleanupWorkspace, if_neg hne]
  show (ite _ _ _ : Call Unit).effects.foldl (remove env) t = _
  dsimp only
  split
  case isTrue hrefused => exact (if_pos hrefused).symm
  case isFalse hwithin =>
    refine Eq.trans ?_ (if_neg hwithin).symm
    split
    case isTrue => rfl
    case isFalse =>
      dsimp only [answers]
      cases lstat t (resolve env.cwd workspaceDir) with
      | none => rfl
      | some e =>
          have hunlink : remove env t (.unlink (resolve env.cwd workspaceDir).render) =
              unlink t (resolve env.cwd workspaceDir) := congrArg (unlink t) hresolve
          have hrm : remove env t (.rm (resolve env.cwd workspaceDir).render) =
              rm t (resolve env.cwd workspaceDir) := congrArg (rm t) hresolve
          cases e with
          | file => exact hrm
          | directory => exact hrm
          | link => exact hunlink

/-! ## A link that leads out -/

/-- A link in the temporary directory leads to the home directories. -/
def linkedTree : FileTree Name :=
  (((FileTree.empty.create [] (fileName (js "tmp")) .directory).create [] (fileName (js "home"))
    .directory).create [fileName (js "tmp")] (fileName (js "link"))
      (.link ⟨true, [.name (fileName (js "home"))]⟩)).create [fileName (js "home")]
        (fileName (js "sbx-data")) .directory

/-- A directory of a user is removed. -/
theorem cleanupWorkspace_follows_link :
    ¬ RemovesInside ⟨js "/", [], js "/tmp"⟩ linkedTree (js "/tmp/link/sbx-data") := by
  intro hinside
  obtain ⟨⟨base, hbase, real, hreal, hpath, -⟩, -⟩ :=
    hinside [fileName (js "home"), fileName (js "sbx-data")] ⟨by decide +kernel, by decide +kernel⟩
  have hbases : ∀ base ∈ Environment.bases ⟨js "/", [], js "/tmp"⟩,
      (realPath linkedTree base).all (· = [fileName (js "tmp")]) = true := by decide +kernel
  have htmp := hbases base hbase
  rw [hreal] at htmp
  rw [of_decide_eq_true htmp] at hpath
  exact absurd (List.cons_prefix_cons.mp hpath).1 (by decide)

end CodeArena.Engine.Removal
