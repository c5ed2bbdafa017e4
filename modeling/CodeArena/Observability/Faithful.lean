import CodeArena.Lib.Related
import CodeArena.Observability.Exposition
import CodeArena.Observability.Recording

/-!
# When the exposition is faithful

A text of the HTTP metrics is faithful to the calls if it can be read, and if every method,
route and status that was recorded has one sample, with these labels and the number of the
calls, and every method and route the samples of one histogram.

The keys are joined and split at a bar, and the labels are printed as they are.  So the text
is faithful exactly where no path has a bar, a double quote or a backslash
(`exposition_faithful`).  With a bar in a route, no line has that route.  With one of the
other two, the line of the route is read with a shorter one, if it is read, and the lengths
of all routes together come out too small.
-/

namespace CodeArena.Observability

open CodeArena.Lib CodeArena.Lib.Prometheus CodeArena.Lib.OrderedMap

/-! ## Faithful samples -/

/-- The sample of a method, a route and a status. -/
def requestSample (t : Text × Text × Text) (count : Nat) : Sample where
  name := requestsTotal
  labels := routeLabels t.1 t.2.1 ++ [("status".toList, t.2.2)]
  value := .ofNat count
  timestamp := none

/-- The sample of a bucket. -/
def bucketSample (p : Text × Text) (le : Text) (count : Nat) : Sample where
  name := durationSeconds "_bucket"
  labels := routeLabels p.1 p.2 ++ [("le".toList, le)]
  value := .ofNat count
  timestamp := none

/-- The samples of the buckets for the calls of a method and a route. -/
def bucketSamples (p : Text × Text) (calls : List HttpCall) : List Sample :=
  httpDurationBuckets.map (fun b ↦ bucketSample p b.le (within calls b).length) ++
    [bucketSample p "+Inf".toList calls.length]

/-- The sample of a count. -/
def countSample (p : Text × Text) (count : Nat) : Sample where
  name := durationSeconds "_count"
  labels := routeLabels p.1 p.2
  value := .ofNat count
  timestamp := none

/-- The samples say what was recorded, up to their order.  Of the sums only the labels are
compared. -/
structure IsFaithful (calls : List HttpCall) (samples : List Sample) : Prop where
  requests : (samples.filter (·.name = requestsTotal)).Perm
    ((calls.map HttpCall.triple).dedup.map fun t ↦
      requestSample t (calls.filter (·.triple = t)).length)
  buckets : (samples.filter (·.name = durationSeconds "_bucket")).Perm
    ((calls.map HttpCall.pair).dedup.flatMap fun p ↦
      bucketSamples p (calls.filter (·.pair = p)))
  counts : (samples.filter (·.name = durationSeconds "_count")).Perm
    ((calls.map HttpCall.pair).dedup.map fun p ↦
      countSample p (calls.filter (·.pair = p)).length)
  sums : ((samples.filter (·.name = durationSeconds "_sum")).map Sample.labels).Perm
    ((calls.map HttpCall.pair).dedup.map fun p ↦ routeLabels p.1 p.2)

/-- The text of the metrics can be read, and says what was recorded. -/
def Faithful (calls : List HttpCall) : Prop :=
  ∃ samples, parseText (httpText (recordAll calls)) = some samples ∧ IsFaithful calls samples

/-! ## The keys -/

/-- A special character of a part comes from the key. -/
theorem not_mem_part {key : Text} {a : Char} (ha : a ∈ special) (hkey : a ≠ '|' → a ∉ key)
    (i : Nat) : a ∉ part key i := by
  have hundefined : ∀ a ∈ special, a ∉ "undefined".toList := forall_mem_of_all (by decide)
  intro hmem
  rcases mem_part hmem with ⟨hbar, hin⟩ | hother
  · exact hkey hbar hin
  · exact hundefined a ha hother

/-- A special character of a key, other than its bars, comes from the path. -/
theorem not_mem_part_tripleKey {a : Char} (ha : a ∈ special) {c : HttpCall}
    (h : a = '|' ∨ a ∉ c.path) (i : Nat) : a ∉ part (tripleKey c.triple) i := by
  apply not_mem_part ha
  intro hbar
  have hroute : a ∉ c.route := fun hr ↦ h.resolve_left hbar ((c.mem_route ha).mp hr)
  show a ∉ c.method ++ '|' :: c.route ++ '|' :: decimal c.statusCode
  simp [c.not_mem_method ha, hroute, not_mem_decimal ha, hbar]

theorem not_mem_part_pairKey {a : Char} (ha : a ∈ special) {c : HttpCall}
    (h : a = '|' ∨ a ∉ c.path) (i : Nat) : a ∉ part (pairKey c.pair) i := by
  apply not_mem_part ha
  intro hbar
  have hroute : a ∉ c.route := fun hr ↦ h.resolve_left hbar ((c.mem_route ha).mp hr)
  show a ∉ c.method ++ '|' :: c.route
  simp [c.not_mem_method ha, hroute, hbar]

section Clean

variable {calls : List HttpCall} (hbar : ∀ c ∈ calls, '|' ∉ c.path)
include hbar

/-- The parts of a key, where there is no other bar. -/
theorem part_tripleKey {c : HttpCall} (hc : c ∈ calls) :
    part (tripleKey c.triple) 0 = c.method ∧ part (tripleKey c.triple) 1 = c.route ∧
      part (tripleKey c.triple) 2 = decimal c.statusCode := by
  have hspecial : '|' ∈ special := by decide
  have hroute : '|' ∉ c.route := fun h ↦ hbar c hc ((c.mem_route hspecial).mp h)
  exact part_requestKey (c.not_mem_method hspecial) hroute (not_mem_decimal hspecial _)

theorem part_pairKey {c : HttpCall} (hc : c ∈ calls) :
    part (pairKey c.pair) 0 = c.method ∧ part (pairKey c.pair) 1 = c.route := by
  have hspecial : '|' ∈ special := by decide
  have hroute : '|' ∉ c.route := fun h ↦ hbar c hc ((c.mem_route hspecial).mp h)
  exact part_durationKey (c.not_mem_method hspecial) hroute

/-- The entries of the map of requests. -/
theorem entries_requests_perm : (recordAll calls).httpRequestsTotal.entries.Perm
    ((calls.map HttpCall.triple).dedup.map fun t ↦
      (tripleKey t, (calls.filter (·.triple = t)).length)) := by
  rw [httpRequestsTotal_recordAll]
  have hinj : ∀ c ∈ calls, ∀ c' ∈ calls, tripleKey c.triple = tripleKey c'.triple →
      c.triple = c'.triple := by
    intro c hc c' hc' heq
    obtain ⟨h₀, h₁, h₂⟩ := part_tripleKey hbar hc
    obtain ⟨h₀', h₁', h₂'⟩ := part_tripleKey hbar hc'
    rw [heq] at h₀ h₁ h₂
    show (_, _, _) = (_, _, _)
    rw [← h₀, ← h₁, ← h₂, h₀', h₁', h₂']
  refine (entries_group_perm_of_inj calls hinj).trans (List.Perm.of_eq ?_)
  apply List.map_congr_left
  intro t _
  rw [List.foldl_add_const, Nat.one_mul, Nat.zero_add]

/-- The entries of the map of durations. -/
theorem entries_durations_perm : (recordAll calls).httpRequestDurationHistograms.entries.Perm
    ((calls.map HttpCall.pair).dedup.map fun p ↦
      (pairKey p, histogramOf (calls.filter (·.pair = p)))) := by
  rw [httpRequestDurationHistograms_recordAll]
  apply entries_group_perm_of_inj calls
  intro c hc c' hc' heq
  obtain ⟨h₀, h₁⟩ := part_pairKey hbar hc
  obtain ⟨h₀', h₁'⟩ := part_pairKey hbar hc'
  rw [heq] at h₀ h₁
  show (_, _) = (_, _)
  rw [← h₀, ← h₁, h₀', h₁']

end Clean

/-! ## Reading the lines -/

/-- The items of the requests. -/
def requestItems (calls : List HttpCall) : List Item :=
  (recordAll calls).httpRequestsTotal.entries.map fun e ↦ requestItem e.1 e.2

/-- The items of the durations. -/
def histogramItems (calls : List HttpCall) : List Item :=
  (recordAll calls).httpRequestDurationHistograms.entries.flatMap fun e ↦ durationItems e.1 e.2

/-- The key of a request item is that of a call. -/
theorem exists_call_of_mem_requests {calls : List HttpCall} {e : Text × Nat}
    (he : e ∈ (recordAll calls).httpRequestsTotal.entries) :
    ∃ c ∈ calls, e.1 = tripleKey c.triple := by
  rw [httpRequestsTotal_recordAll] at he
  exact exists_of_mem_entries_group he

theorem exists_call_of_mem_durations {calls : List HttpCall} {e : Text × Histogram}
    (he : e ∈ (recordAll calls).httpRequestDurationHistograms.entries) :
    ∃ c ∈ calls, e.1 = pairKey c.pair := by
  rw [httpRequestDurationHistograms_recordAll] at he
  exact exists_of_mem_entries_group he

/-- The items are those of keys of calls. -/
theorem isLine_of_mem_requestItems {calls : List HttpCall} {item : Item}
    (h : item ∈ requestItems calls) :
    item.name = requestsTotal ∧ ∃ c ∈ calls, IsLine (tripleKey c.triple) item := by
  obtain ⟨e, he, rfl⟩ := List.mem_map.mp h
  obtain ⟨c, hc, hkey⟩ := exists_call_of_mem_requests he
  exact ⟨rfl, c, hc, hkey ▸ isLine_requestItem e.1 e.2⟩

theorem isLine_of_mem_histogramItems {calls : List HttpCall} {item : Item}
    (h : item ∈ histogramItems calls) :
    IsDurationName item.name ∧ ∃ c ∈ calls, IsLine (pairKey c.pair) item := by
  obtain ⟨e, he, hitem⟩ := List.mem_flatMap.mp h
  obtain ⟨c, hc, hkey⟩ := exists_call_of_mem_durations he
  obtain ⟨hline, hname⟩ := isLine_of_mem_durationItems hitem
  exact ⟨hname, c, hc, hkey ▸ hline⟩

/-- The text is read as its comments and the lines of the items. -/
theorem parseText_httpText (calls : List HttpCall) : parseText (httpText (recordAll calls)) =
    (parseLines ((requestItems calls).map Item.line)).bind fun a ↦
      (parseLines ((histogramItems calls).map Item.line)).map (a ++ ·) := by
  have hrequest : ∀ line ∈ requestComments, line.head? = some '#' ∧ '\n' ∉ line :=
    fun line hline ↦ isComment line (List.mem_append_left _ hline)
  have hduration : ∀ line ∈ durationComments, line.head? = some '#' ∧ '\n' ∉ line :=
    fun line hline ↦ isComment line (List.mem_append_right _ hline)
  have hfeed : ∀ line ∈ httpLines (recordAll calls), '\n' ∉ line := by
    have hspecial : '\n' ∈ special := by decide
    intro line hline
    simp only [httpLines, List.mem_append] at hline
    rcases hline with ((hline | hline) | hline) | hline
    · exact (hrequest line hline).2
    · obtain ⟨item, hitem, rfl⟩ := List.mem_map.mp hline
      obtain ⟨-, c, hc, hitem⟩ := isLine_of_mem_requestItems hitem
      exact hitem.not_mem (by decide) (not_mem_part_tripleKey hspecial (.inr c.oneLine))
    · exact (hduration line hline).2
    · obtain ⟨item, hitem, rfl⟩ := List.mem_map.mp hline
      obtain ⟨-, c, hc, hitem⟩ := isLine_of_mem_histogramItems hitem
      exact hitem.not_mem (by decide) (not_mem_part_pairKey hspecial (.inr c.oneLine))
  have hne : httpLines (recordAll calls) ≠ [] := List.cons_ne_nil _ _
  rw [httpText, parseText_joinLines hne hfeed]
  exact parseLines_sections (fun line hline ↦ (hrequest line hline).1)
    (fun line hline ↦ (hduration line hline).1) _ _

/-! ## Clean paths -/

section Faithful

variable {calls : List HttpCall}

/-- The sample of a request item. -/
theorem sample_requestItem (hbar : ∀ c ∈ calls, '|' ∉ c.path) {t : Text × Text × Text}
    (ht : t ∈ (calls.map HttpCall.triple).dedup) (count : Nat) :
    (requestItem (tripleKey t) count).sample = requestSample t count := by
  obtain ⟨c, hc, rfl⟩ := List.mem_map.mp (List.mem_dedup.mp ht)
  obtain ⟨h₀, h₁, h₂⟩ := part_tripleKey hbar hc
  rw [Item.sample, requestItem, h₀, h₁, h₂, parseValue_decimal]
  rfl

/-- The samples of the items of a method and a route. -/
theorem samples_durationItems (hbar : ∀ c ∈ calls, '|' ∉ c.path) {p : Text × Text}
    (hp : p ∈ (calls.map HttpCall.pair).dedup) (cs : List HttpCall) :
    (durationItems (pairKey p) (histogramOf cs)).map Item.sample =
      bucketSamples p cs ++
        [(sumItem (pairKey p) (histogramOf cs).sum).sample, countSample p cs.length] := by
  obtain ⟨c, hc, rfl⟩ := List.mem_map.mp (List.mem_dedup.mp hp)
  obtain ⟨h₀, h₁⟩ := part_pairKey hbar hc
  have hbucket (le : Text) (count : Nat) :
      (bucketItem (pairKey c.pair) le count).sample = bucketSample c.pair le count := by
    rw [Item.sample, bucketItem, h₀, h₁, parseValue_decimal]
    rfl
  have hcount (count : Nat) :
      (countItem (pairKey c.pair) count).sample = countSample c.pair count := by
    rw [Item.sample, countItem, h₀, h₁, parseValue_decimal]
    rfl
  have hbuckets : ((histogramOf cs).buckets.entries.map fun e ↦
      bucketItem (pairKey c.pair) e.1.le e.2).map Item.sample =
        httpDurationBuckets.map fun b ↦ bucketSample c.pair b.le (within cs b).length := by
    rw [buckets_histogramOf, List.map_map, List.map_map]
    apply List.map_congr_left
    intro b _
    exact hbucket b.le _
  rw [durationItems, List.map_append, count_histogramOf, bucketSamples, ← hbuckets,
    List.append_assoc]
  simp only [List.map_cons, List.map_nil, hbucket, hcount]
  rfl

theorem name_of_mem_bucketSamples {p : Text × Text} {cs : List HttpCall} {s : Sample}
    (h : s ∈ bucketSamples p cs) : s.name = durationSeconds "_bucket" := by
  rcases List.mem_append.mp h with h | h
  · obtain ⟨b, -, rfl⟩ := List.mem_map.mp h
    rfl
  · rw [List.mem_singleton.mp h]
    rfl

/-- The samples of the requests, as they were recorded. -/
theorem requestSamples_perm (hbar : ∀ c ∈ calls, '|' ∉ c.path) :
    ((requestItems calls).map Item.sample).Perm ((calls.map HttpCall.triple).dedup.map fun t ↦
      requestSample t (calls.filter (·.triple = t)).length) := by
  rw [requestItems, List.map_map]
  refine ((entries_requests_perm hbar).map _).trans (List.Perm.of_eq ?_)
  rw [List.map_map]
  apply List.map_congr_left
  intro t ht
  exact sample_requestItem hbar ht _

/-- The samples of the durations of one kind, as they were recorded. -/
theorem filter_histogramSamples_perm (hbar : ∀ c ∈ calls, '|' ∉ c.path) (q : Sample → Bool) :
    (((histogramItems calls).map Item.sample).filter q).Perm
      ((calls.map HttpCall.pair).dedup.flatMap fun p ↦
        (bucketSamples p (calls.filter (·.pair = p)) ++
          [(sumItem (pairKey p) (histogramOf (calls.filter (·.pair = p))).sum).sample,
            countSample p (calls.filter (·.pair = p)).length]).filter q) := by
  rw [histogramItems, List.map_flatMap, List.filter_flatMap]
  refine ((entries_durations_perm hbar).flatMap_right _).trans (List.Perm.of_eq ?_)
  rw [List.flatMap_map]
  apply List.flatMap_congr
  intro p hp
  rw [samples_durationItems hbar hp]

/-- The samples of a method and a route by their names. -/
theorem filter_samples (p : Text × Text) (cs : List HttpCall) {sum : Sample}
    (hsum : sum.name = durationSeconds "_sum") (name : Text) :
    (bucketSamples p cs ++ [sum, countSample p cs.length]).filter (·.name = name) =
      if name = durationSeconds "_bucket" then bucketSamples p cs
      else if name = durationSeconds "_sum" then [sum]
      else if name = durationSeconds "_count" then [countSample p cs.length]
      else [] := by
  have hbucket (h : name ≠ durationSeconds "_bucket") :
      (bucketSamples p cs).filter (·.name = name) = [] := by
    apply List.filter_eq_nil_iff.mpr
    intro s hs hname
    exact h ((of_decide_eq_true hname).symm.trans (name_of_mem_bucketSamples hs))
  have hcount : (countSample p cs.length).name = durationSeconds "_count" := rfl
  have hpair : [sum, countSample p cs.length].filter (·.name = name) =
      (if name = durationSeconds "_sum" then [sum] else []) ++
        if name = durationSeconds "_count" then [countSample p cs.length] else [] := by
    simp only [List.filter_cons, List.filter_nil, hsum, hcount, decide_eq_true_eq,
      eq_comm (b := name)]
    split <;> split <;> rfl
  have hne : durationSeconds "_bucket" ≠ durationSeconds "_sum" ∧
      durationSeconds "_bucket" ≠ durationSeconds "_count" ∧
      durationSeconds "_sum" ≠ durationSeconds "_count" := by
    decide
  rw [List.filter_append, hpair]
  by_cases h : name = durationSeconds "_bucket"
  · have hself : (bucketSamples p cs).filter (·.name = name) = bucketSamples p cs :=
      List.filter_eq_self.mpr fun s hs ↦
        decide_eq_true ((name_of_mem_bucketSamples hs).trans h.symm)
    rw [hself, if_pos h, if_neg (h ▸ hne.1), if_neg (h ▸ hne.2.1), List.append_nil, List.append_nil]
  · rw [hbucket h, if_neg h, List.nil_append]
    by_cases h' : name = durationSeconds "_sum"
    · rw [if_pos h', if_pos h', if_neg (h' ▸ hne.2.2), List.append_nil]
    · rw [if_neg h', if_neg h', List.nil_append]

theorem name_of_mem_requestSamples {s : Sample} (hs : s ∈ (requestItems calls).map Item.sample) :
    s.name = requestsTotal := by
  obtain ⟨item, hitem, rfl⟩ := List.mem_map.mp hs
  exact (isLine_of_mem_requestItems hitem).1

theorem name_of_mem_histogramSamples {s : Sample}
    (hs : s ∈ (histogramItems calls).map Item.sample) : s.name ≠ requestsTotal := by
  obtain ⟨item, hitem, rfl⟩ := List.mem_map.mp hs
  exact (isLine_of_mem_histogramItems hitem).1.isName.2

/-- The samples of one name, for the lines of the durations. -/
theorem filter_name_perm (hbar : ∀ c ∈ calls, '|' ∉ c.path) {name : Text}
    (hname : name ≠ requestsTotal) :
    (((requestItems calls).map Item.sample ++ (histogramItems calls).map Item.sample).filter
      (·.name = name)).Perm ((calls.map HttpCall.pair).dedup.flatMap fun p ↦
        if name = durationSeconds "_bucket" then bucketSamples p (calls.filter (·.pair = p))
        else if name = durationSeconds "_sum" then
          [(sumItem (pairKey p) (histogramOf (calls.filter (·.pair = p))).sum).sample]
        else if name = durationSeconds "_count" then
          [countSample p (calls.filter (·.pair = p)).length]
        else []) := by
  have hnil : ((requestItems calls).map Item.sample).filter (·.name = name) = [] := by
    apply List.filter_eq_nil_iff.mpr
    intro s hs
    rw [name_of_mem_requestSamples hs, decide_eq_true_eq]
    exact hname.symm
  rw [List.filter_append, hnil, List.nil_append]
  refine (filter_histogramSamples_perm hbar _).trans (List.Perm.of_eq ?_)
  apply List.flatMap_congr
  intro p _
  exact filter_samples p _ rfl name

/-- **The samples of the items are faithful** where no path has a bar. -/
theorem isFaithful_samples (hbar : ∀ c ∈ calls, '|' ∉ c.path) :
    IsFaithful calls ((requestItems calls).map Item.sample ++
      (histogramItems calls).map Item.sample) where
  requests := by
    have hself : ((requestItems calls).map Item.sample).filter (·.name = requestsTotal) =
        (requestItems calls).map Item.sample :=
      List.filter_eq_self.mpr fun s hs ↦ decide_eq_true (name_of_mem_requestSamples hs)
    have hnil : ((histogramItems calls).map Item.sample).filter (·.name = requestsTotal) = [] :=
      List.filter_eq_nil_iff.mpr fun s hs h ↦
        name_of_mem_histogramSamples hs (of_decide_eq_true h)
    rw [List.filter_append, hself, hnil, List.append_nil]
    exact requestSamples_perm hbar
  buckets := filter_name_perm hbar (by decide)
  counts := (filter_name_perm hbar (by decide)).trans
    (List.Perm.of_eq (List.flatMap_pure_eq_map _ _))
  sums := by
    refine ((filter_name_perm hbar (by decide)).map Sample.labels).trans (List.Perm.of_eq ?_)
    have hsingle : (calls.map HttpCall.pair).dedup.flatMap (fun p ↦
        [(sumItem (pairKey p) (histogramOf (calls.filter (·.pair = p))).sum).sample]) = _ :=
      List.flatMap_pure_eq_map _ _
    refine (congrArg (List.map Sample.labels) hsingle).trans ?_
    rw [List.map_map]
    apply List.map_congr_left
    intro p hp
    obtain ⟨c, hc, rfl⟩ := List.mem_map.mp (List.mem_dedup.mp hp)
    obtain ⟨h₀, h₁⟩ := part_pairKey hbar hc
    show routeLabels (part (pairKey c.pair) 0) (part (pairKey c.pair) 1) = _
    rw [h₀, h₁]
    rfl

theorem faithful_of_clean (h : ∀ c ∈ calls, '|' ∉ c.path ∧ '"' ∉ c.path ∧ '\\' ∉ c.path) :
    Faithful calls := by
  refine ⟨_, ?_, isFaithful_samples fun c hc ↦ (h c hc).1⟩
  have hrequests : ∀ item ∈ requestItems calls, item.IsPrintable := by
    intro item hitem
    obtain ⟨-, c, hc, hline⟩ := isLine_of_mem_requestItems hitem
    obtain ⟨-, hquote, hescape⟩ := h c hc
    exact hline.isPrintable fun i ↦ plain_of_not_mem
      (not_mem_part_tripleKey (by decide) (.inr hquote) i)
      (not_mem_part_tripleKey (by decide) (.inr hescape) i)
  have hdurations : ∀ item ∈ histogramItems calls, item.IsPrintable := by
    intro item hitem
    obtain ⟨-, c, hc, hline⟩ := isLine_of_mem_histogramItems hitem
    obtain ⟨-, hquote, hescape⟩ := h c hc
    exact hline.isPrintable fun i ↦ plain_of_not_mem
      (not_mem_part_pairKey (by decide) (.inr hquote) i)
      (not_mem_part_pairKey (by decide) (.inr hescape) i)
  rw [parseText_httpText, parseLines_items hrequests, parseLines_items hdurations]
  rfl

/-! ## Special characters -/

/-- Faithful request lines: each is read as a sample, and these are the ones recorded. -/
theorem requests_of_faithful (h : Faithful calls) :
    ∃ ss, List.Forall₂ (fun e s ↦ parseSample (requestItem e.1 e.2).line = some s)
      (recordAll calls).httpRequestsTotal.entries ss ∧
      ss.Perm ((calls.map HttpCall.triple).dedup.map fun t ↦
        requestSample t (calls.filter (·.triple = t)).length) := by
  obtain ⟨samples, hparse, hfaithful⟩ := h
  rw [parseText_httpText] at hparse
  obtain ⟨ss, hss, hparse⟩ := Option.bind_eq_some_iff.mp hparse
  obtain ⟨ds, hds, rfl⟩ := Option.map_eq_some_iff.mp hparse
  rw [requestItems, List.map_map] at hss
  have hrequests := parseLines_forall₂ (fun e _ ↦ parseLine_print isName_requestsTotal _ _) hss
  have hdurations := parseLines_forall₂
    (fun item hitem ↦ parseLine_print (isLine_of_mem_histogramItems hitem).1.isName.1 _ _) hds
  refine ⟨ss, hrequests, ?_⟩
  have hself : ss.filter (·.name = requestsTotal) = ss := by
    apply List.filter_eq_self.mpr
    intro s hs
    obtain ⟨e, -, he⟩ := exists_of_mem_right hrequests hs
    exact decide_eq_true (parseSample_inv isName_requestsTotal he).1
  have hnil : ds.filter (·.name = requestsTotal) = [] := by
    apply List.filter_eq_nil_iff.mpr
    intro s hs hname
    obtain ⟨item, hitem, hread⟩ := exists_of_mem_right hdurations hs
    have hitem := (isLine_of_mem_histogramItems hitem).1.isName
    exact hitem.2 ((parseSample_inv hitem.1 hread).1.symm.trans (of_decide_eq_true hname))
  have hperm := hfaithful.requests
  rw [List.filter_append, hself, hnil, List.append_nil] at hperm
  exact hperm

/-- **A route with a bar is in no line.** -/
theorem not_bar_of_faithful (h : Faithful calls) : ∀ c ∈ calls, '|' ∉ c.path := by
  intro c hc hbar
  obtain ⟨ss, hread, hperm⟩ := requests_of_faithful h
  have hmem : requestSample c.triple (calls.filter (·.triple = c.triple)).length ∈ ss := by
    apply hperm.mem_iff.mpr
    exact List.mem_map.mpr ⟨c.triple, List.mem_dedup.mpr (List.mem_map_of_mem hc), rfl⟩
  obtain ⟨e, he, hparse⟩ := exists_of_mem_right hread hmem
  obtain ⟨c', hc', hkey⟩ := exists_call_of_mem_requests he
  have hline : '|' ∉ (requestItem e.1 e.2).line :=
    (isLine_requestItem e.1 e.2).not_mem (by decide)
      (hkey ▸ not_mem_part_tripleKey (by decide) (.inl rfl))
  have hroute : '|' ∈ c.route := (c.mem_route (by decide)).mpr hbar
  have hlabel : ("route".toList, c.route) ∈
      (requestSample c.triple (calls.filter (·.triple = c.triple)).length).labels :=
    List.mem_cons_of_mem _ List.mem_cons_self
  rcases parseSample_subset isName_requestsTotal hparse _ hlabel '|' hroute with hmem | hfeed
  · exact hline hmem
  · exact absurd hfeed (by decide)

/-- The length of the route of a sample. -/
def routeLength (s : Sample) : Nat := (s.labels.getD 1 ([], [])).2.length

/-- The route of a line is read back, or a shorter one is. -/
theorem routeLength_of_parseSample (hbar : ∀ c ∈ calls, '|' ∉ c.path) {c : HttpCall}
    (hc : c ∈ calls) {count : Nat} {s : Sample}
    (h : parseSample (requestItem (tripleKey c.triple) count).line = some s) :
    ((∀ a ∈ c.route, Plain a) ∧ routeLength s = c.route.length) ∨
      routeLength s < c.route.length := by
  obtain ⟨h₀, h₁, h₂⟩ := part_tripleKey hbar hc
  have hlabels : (requestItem (tripleKey c.triple) count).labels =
      [("method".toList, c.method), ("route".toList, c.route),
        ("status".toList, decimal c.statusCode)] := by
    rw [requestItem, h₀, h₁, h₂]
    rfl
  have hline := isLine_requestItem (tripleKey c.triple) count
  obtain ⟨-, n, out, hread⟩ := parseSample_inv isName_requestsTotal h
  rw [skipBlanks_printLabels hline.nonempty hline.label, hlabels] at hread
  have hname : ∀ label ∈ [("method".toList, c.method), ("route".toList, c.route),
      ("status".toList, decimal c.statusCode)],
      isName isLabelStart isLabelRest label.1 = true := hlabels ▸ hline.label
  have hmethod : Printable ("method".toList, c.method) :=
    ⟨hname _ List.mem_cons_self,
      plain_of_not_mem (c.not_mem_method (by decide)) (c.not_mem_method (by decide))⟩
  have hdigit : ∃ d ∈ (decimal c.statusCode).head?, d.isDigit = true := by
    obtain ⟨d, ds, hd⟩ := List.exists_cons_of_ne_nil (decimal_ne_nil c.statusCode)
    exact ⟨d, by rw [hd]; rfl, isDigit_of_mem_decimal (hd ▸ List.mem_cons_self)⟩
  obtain ⟨w, more, hs, hw⟩ := parseLabels_second hmethod (hname _ (by simp)) (hname _ (by simp))
    hdigit hread
  have hlength : routeLength s = w.length := by
    rw [routeLength, hs]
    rfl
  rw [hlength]
  exact hw.imp_left fun hplain ↦ ⟨hplain.1, congrArg List.length hplain.2⟩

/-- **A route that is not plain is read as a shorter one**, and then the lengths of the routes
come out too small. -/
theorem plain_of_faithful (h : Faithful calls) :
    ∀ c ∈ calls, '"' ∉ c.path ∧ '\\' ∉ c.path := by
  have hbar := not_bar_of_faithful h
  obtain ⟨ss, hread, hperm⟩ := requests_of_faithful h
  have hroute : ∀ c ∈ calls, ∀ a ∈ c.route, Plain a := by
    intro c hc
    by_contra hplain
    -- the samples whose route is at least as long as this one
    have hlt : ss.countP (c.route.length ≤ routeLength ·) <
        (recordAll calls).httpRequestsTotal.entries.countP
          fun e ↦ c.route.length ≤ (part e.1 1).length := by
      apply countP_lt_of_related hread
      · intro e he s hs hle
        obtain ⟨c', hc', hkey⟩ := exists_call_of_mem_requests he
        rw [hkey] at hs
        rw [hkey, (part_tripleKey hbar hc').2.1]
        have hle : c.route.length ≤ routeLength s := of_decide_eq_true hle
        apply decide_eq_true
        rcases routeLength_of_parseSample hbar hc' hs with ⟨-, heq⟩ | hshort
        · exact hle.trans (Nat.le_of_eq heq)
        · exact hle.trans (Nat.le_of_lt hshort)
      · refine ⟨(tripleKey c.triple, (calls.filter (·.triple = c.triple)).length), ?_, ?_, ?_⟩
        · apply (entries_requests_perm hbar).mem_iff.mpr
          exact List.mem_map.mpr ⟨c.triple, List.mem_dedup.mpr (List.mem_map_of_mem hc), rfl⟩
        · rw [(part_tripleKey hbar hc).2.1]
          exact decide_eq_true (Nat.le_refl _)
        · intro s hs
          apply decide_eq_false
          rcases routeLength_of_parseSample hbar hc hs with ⟨hall, -⟩ | hshort
          · exact absurd hall hplain
          · exact Nat.not_le_of_lt hshort
    have heq : ss.countP (c.route.length ≤ routeLength ·) =
        (recordAll calls).httpRequestsTotal.entries.countP
          fun e ↦ c.route.length ≤ (part e.1 1).length := by
      rw [hperm.countP_eq, (entries_requests_perm hbar).countP_eq, List.countP_map, List.countP_map]
      apply List.countP_congr
      intro t ht
      obtain ⟨c', hc', rfl⟩ := List.mem_map.mp (List.mem_dedup.mp ht)
      show decide (c.route.length ≤ c'.route.length) = true ↔
        decide (c.route.length ≤ (part (tripleKey c'.triple) 1).length) = true
      rw [(part_tripleKey hbar hc').2.1]
    exact absurd heq (Nat.ne_of_lt hlt)
  intro c hc
  constructor
  · intro hquote
    exact (hroute c hc _ ((c.mem_route (by decide)).mpr hquote)).1 rfl
  · intro hescape
    exact (hroute c hc _ ((c.mem_route (by decide)).mpr hescape)).2 rfl

end Faithful

/-- **The exposition is faithful exactly where no path has a special character.** -/
theorem exposition_faithful (calls : List HttpCall) :
    Faithful calls ↔ ∀ c ∈ calls, '|' ∉ c.path ∧ '"' ∉ c.path ∧ '\\' ∉ c.path := by
  constructor
  · intro h c hc
    exact ⟨not_bar_of_faithful h c hc, plain_of_faithful h c hc⟩
  · exact faithful_of_clean

/-- A request with a double quote in its path. -/
def quotedCall : HttpCall where
  method := "GET".toList
  path := "/a\"b".toList
  statusCode := 404
  durationMs := 3
  upperCase := by decide
  oneLine := by decide

/-- One such request, and the text cannot be read any more. -/
theorem exposition_unreadable : ¬ Faithful [quotedCall] := by
  have hnone : parseText (httpText (recordAll [quotedCall])) = none := by decide +kernel
  rintro ⟨samples, hparse, -⟩
  rw [hnone] at hparse
  cases hparse

end CodeArena.Observability
