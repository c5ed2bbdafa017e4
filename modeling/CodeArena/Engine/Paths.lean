import CodeArena.Engine.Workspace
import CodeArena.Lib.Separated

/-!
# Resolving paths

`path.resolve`, which takes a path apart at its slashes and cancels `.` and `..` without a look
at the file system.  What is left are plain segments, and among paths of plain segments the
test `resolved.startsWith(base + path.sep)` is about segments: a path passes it exactly if it
goes on behind the base (`isWithin_iff`).  A sibling that only shares the first characters of
the name does not, and nothing is within the root.
-/

namespace CodeArena.Engine

open CodeArena.Lib CodeArena.Lib.Utf

/-- One more segment of a path. -/
def normalizeSegment (p : Path) (segment : JsString) : Path :=
  if segment = [] ∨ segment = js "." then p
  else if segment = js ".." then p.dropLast
  else p ++ [segment]

/-- `path.resolve` of one path, in a working directory. -/
def resolve (cwd path : JsString) : Path :=
  ((if path.head? = some 0x2F then path else cwd ++ 0x2F :: path).splitOn 0x2F).foldl
    normalizeSegment []

/-- A segment that names something in its directory. -/
structure Plain (segment : JsString) : Prop where
  ne_nil : segment ≠ []
  ne_current : segment ≠ js "."
  ne_parent : segment ≠ js ".."
  slash : 0x2F ∉ segment

/-- A plain segment stays. -/
theorem Plain.normalizeSegment {segment : JsString} (h : Plain segment) (p : Path) :
    normalizeSegment p segment = p ++ [segment] := by
  rw [Engine.normalizeSegment, if_neg (not_or.mpr ⟨h.ne_nil, h.ne_current⟩), if_neg h.ne_parent]

/-- Nothing but plain segments is kept. -/
theorem plain_normalizeSegment {p : Path} (hp : ∀ s ∈ p, Plain s) {segment : JsString}
    (hslash : 0x2F ∉ segment) : ∀ s ∈ normalizeSegment p segment, Plain s := by
  unfold normalizeSegment
  split
  case isTrue => exact hp
  case isFalse h =>
    obtain ⟨hnil, hcurrent⟩ := not_or.mp h
    split
    case isTrue => exact fun s hs ↦ hp s (List.mem_of_mem_dropLast hs)
    case isFalse hparent =>
      intro s hs
      rcases List.mem_append.mp hs with hs | hs
      · exact hp s hs
      · rw [List.mem_singleton.mp hs]
        exact ⟨hnil, hcurrent, hparent, hslash⟩

/-- **A resolved path has plain segments.** -/
theorem plain_resolve (cwd path : JsString) : ∀ s ∈ resolve cwd path, Plain s := by
  have hfold {ss : List JsString} (hss : ∀ s ∈ ss, 0x2F ∉ s) {p : Path} (hp : ∀ s ∈ p, Plain s) :
      ∀ s ∈ ss.foldl normalizeSegment p, Plain s := by
    induction ss generalizing p with
    | nil => exact hp
    | cons segment ss ih =>
        apply ih fun s hs ↦ hss s (List.mem_cons_of_mem segment hs)
        exact plain_normalizeSegment hp (hss segment List.mem_cons_self)
  exact hfold (fun s hs ↦ (Separated.mem_splitOn hs).1) nofun

/-! ## Paths as strings -/

/-- The segments with a slash before each. -/
def slashed (p : Path) : JsString := p.flatMap fun segment ↦ 0x2F :: segment

theorem render_of_ne_nil {p : Path} (h : p ≠ []) : p.render = slashed p := by
  cases p with
  | nil => exact absurd rfl h
  | cons => rfl

theorem slashed_append (p q : Path) : slashed (p ++ q) = slashed p ++ slashed q :=
  List.flatMap_append

/-- The segments are what the slashes separate. -/
theorem splitOn_slashed {p : Path} (hp : ∀ s ∈ p, Plain s) {x : JsString} (hx : 0x2F ∉ x)
    (r : JsString) :
    (x ++ (slashed p ++ 0x2F :: r)).splitOn 0x2F = x :: (p ++ r.splitOn 0x2F) := by
  induction p generalizing x with
  | nil => exact List.splitOn_append_cons_self_of_not_mem hx r
  | cons segment p ih =>
      obtain ⟨hsegment, hp⟩ := List.forall_mem_cons.mp hp
      have happ : slashed (segment :: p) ++ 0x2F :: r =
          0x2F :: (segment ++ (slashed p ++ 0x2F :: r)) :=
        congrArg (List.cons _) (List.append_assoc _ _ _)
      rw [happ, List.splitOn_append_cons_self_of_not_mem hx, ih hp hsegment.slash]
      rfl

theorem splitOn_slashed_self {p : Path} (hp : ∀ s ∈ p, Plain s) :
    (slashed p).splitOn 0x2F = [] :: p := by
  cases p using List.reverseRecOn with
  | nil => rfl
  | append_singleton p last =>
      obtain ⟨hp, hlast⟩ := List.forall_mem_append.mp hp
      have hsplit := splitOn_slashed hp (List.not_mem_nil (a := (0x2F : CodeUnit))) last
      rw [List.splitOn_eq_singleton (hlast last (List.mem_singleton_self last)).slash] at hsplit
      rw [slashed_append]
      exact (congrArg _ (congrArg _ (List.append_nil _))).trans hsplit

/-- **What is resolved is not changed by resolving it again.** -/
theorem resolve_render {p : Path} (hp : ∀ s ∈ p, Plain s) (cwd : JsString) :
    resolve cwd p.render = p := by
  have hfold (q : Path) : p.foldl normalizeSegment q = q ++ p := by
    induction p generalizing q with
    | nil => exact (List.append_nil q).symm
    | cons segment p ih =>
        obtain ⟨hsegment, hp⟩ := List.forall_mem_cons.mp hp
        rw [List.foldl_cons, hsegment.normalizeSegment, ih hp, ← List.append_cons]
  have hhead : p.render.head? = some 0x2F := by cases p <;> rfl
  rw [resolve, if_pos hhead]
  by_cases hnil : p = []
  · rw [hnil]
    rfl
  · rw [render_of_ne_nil hnil, splitOn_slashed_self hp]
    exact hfold []

/-- **A path is within a base exactly if it goes on behind it**, and the base is not the
root. -/
theorem isWithin_iff {base dir : Path} (hbase : ∀ s ∈ base, Plain s) (hdir : ∀ s ∈ dir, Plain s) :
    isWithin base dir = true ↔ base ≠ [] ∧ ∃ segment p, dir = base ++ segment :: p := by
  rw [isWithin, List.isPrefixOf_iff_prefix]
  constructor
  · rintro ⟨r, hr⟩
    rw [List.append_assoc, List.singleton_append] at hr
    have hdirne : dir ≠ [] := by
      rintro rfl
      have hlength := congrArg List.length hr
      rw [List.length_append, List.length_cons, Path.render, List.length_singleton] at hlength
      have hpos := List.length_pos_of_mem (slash_mem_render base)
      omega
    rw [render_of_ne_nil hdirne] at hr
    have hne : base ≠ [] := by
      rintro rfl
      have hsplit := splitOn_slashed_self hdir
      rw [← hr] at hsplit
      have hcons : (0x2F :: r).splitOn 0x2F = dir := (List.cons.inj hsplit).2
      have hempty : [] ∈ dir := by
        rw [← hcons]
        exact List.mem_cons_self
      exact (hdir [] hempty).ne_nil rfl
    refine ⟨hne, ?_⟩
    rw [render_of_ne_nil hne] at hr
    have hsplit := splitOn_slashed hbase (List.not_mem_nil (a := (0x2F : CodeUnit))) r
    rw [List.nil_append, hr, splitOn_slashed_self hdir] at hsplit
    obtain ⟨segment, p, hrest⟩ := List.exists_cons_of_ne_nil (List.splitOn_ne_nil (0x2F : CodeUnit) r)
    exact ⟨segment, p, hrest ▸ (List.cons.inj hsplit).2⟩
  · rintro ⟨hne, segment, p, rfl⟩
    rw [render_of_ne_nil hne, render_of_ne_nil (List.append_ne_nil_of_left_ne_nil hne _),
      slashed_append, List.prefix_append_right_inj]
    exact ⟨_, rfl⟩

end CodeArena.Engine
