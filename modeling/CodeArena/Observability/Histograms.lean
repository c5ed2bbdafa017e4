import CodeArena.Lib.Fibers
import CodeArena.Lib.Separated
import CodeArena.Observability.Recording
import Mathlib.Algebra.Order.Ring.Rat
import Mathlib.Data.List.TakeWhile

/-!
# Histograms of exact durations

`recordHttpRequest` and `recordExecutionDuration` once more, with durations that are rational
numbers, and their calls in any order.  A histogram is exact if it says of its samples how many
there are, what they sum up to, and how many lie in each bucket; all of them are, after every
sequence of calls (`exact_run`).

A method has no bar in it and neither has a status, so that the bars around the route tell a
key apart from every other.  The counters of the requests and the counts of the histograms are
therefore about the same requests, whatever bars the routes have.

With whole milliseconds the metrics are those of `recordAll` (`get?_ofHttpCalls`).
-/

namespace CodeArena.Observability.Exact

open CodeArena.Lib CodeArena.Lib.OrderedMap

/-- `toUpperCase` and `toLowerCase`.  No letter has a bar for its capital. -/
structure CaseMapping where
  toUpperCase : Text → Text
  toLowerCase : Text → Text
  bar_not_mem {s : Text} : '|' ∉ s → '|' ∉ toUpperCase s

theorem toNat_toUpper (c : Char) : c.toUpper.toNat =
    if 97 ≤ c.toNat ∧ c.toNat ≤ 122 then c.toNat - 32 else c.toNat := by
  unfold Char.toUpper
  split
  · rename_i h
    have h' : 97 ≤ c.toNat ∧ c.toNat ≤ 122 := h
    rw [if_pos h']
    show (c.val + 4294967264).toNat = c.val.toNat - 32
    rw [UInt32.toNat_add]
    have h2 : c.val.toNat ≤ 122 := h'.2
    have h1 : 97 ≤ c.val.toNat := h'.1
    show (c.val.toNat + 4294967264) % 4294967296 = _
    omega
  · rename_i h
    exact (if_neg h).symm

theorem toUpper_ne_bar {c : Char} (hc : c ≠ '|') : c.toUpper ≠ '|' := by
  intro h
  have hcode := congrArg Char.toNat h
  rw [toNat_toUpper] at hcode
  split at hcode
  · rename_i hletter
    change c.toNat - 32 = 124 at hcode
    omega
  · exact hc (Char.toNat_inj.mp hcode)

/-- The letters from A to Z only. -/
def CaseMapping.lettersAtoZ : CaseMapping where
  toUpperCase s := s.map Char.toUpper
  toLowerCase s := s.map Char.toLower
  bar_not_mem h hmem := by
    obtain ⟨c, hc, heq⟩ := List.mem_map.mp hmem
    exact toUpper_ne_bar (fun hbar ↦ h (hbar ▸ hc)) heq

/-! ## Recording -/

/-- `HTTP_DURATION_BUCKETS`. -/
def httpDurationBuckets : List ℚ := [0.005, 0.01, 0.025, 0.05, 0.1, 0.25, 0.5, 1, 2.5, 5, 10]

/-- `EXEC_DURATION_BUCKETS`. -/
def execDurationBuckets : List ℚ := [0.05, 0.1, 0.25, 0.5, 1, 2, 5, 10]

/-- A histogram. -/
structure Histogram where
  sum : ℚ
  count : Nat
  buckets : OrderedMap ℚ Nat

namespace Histogram

/-- A histogram without samples. -/
def fresh (buckets : List ℚ) : Histogram where
  sum := 0
  count := 0
  buckets := buckets.foldl (fun m b ↦ m.set b 0) .empty

/-- The histogram with one more sample. -/
def add (hist : Histogram) (valueSec : ℚ) (buckets : List ℚ) : Histogram where
  sum := hist.sum + valueSec
  count := hist.count + 1
  buckets := buckets.foldl (fun m b ↦ if valueSec ≤ b then m.increment b else m) hist.buckets

end Histogram

/-- `recordHistogramSample`. -/
def recordHistogramSample (histograms : OrderedMap Text Histogram) (key : Text) (valueSec : ℚ)
    (buckets : List ℚ) : OrderedMap Text Histogram :=
  histograms.update key fun hist ↦ (hist.getD (.fresh buckets)).add valueSec buckets

/-- The maps that requests and executions are recorded in. -/
structure Metrics where
  httpRequestsTotal : OrderedMap Text Nat
  httpRequestDurationHistograms : OrderedMap Text Histogram
  executionDurationHistograms : OrderedMap Text Histogram

/-- `resetMetrics`. -/
def resetMetrics : Metrics := ⟨.empty, .empty, .empty⟩

/-- A request: the arguments of `recordHttpRequest`. -/
structure Request where
  method : Text
  route : Text
  statusCode : Text
  durationMs : ℚ
  method_bar : '|' ∉ method
  status_bar : '|' ∉ statusCode

/-- A call that records. -/
inductive Call where
  | recordHttpRequest (r : Request)
  | recordExecutionDuration (language : Text) (durationMs : ℚ)

section Recording

variable (cases : CaseMapping)

/-- The route of a request as it is counted. -/
def Request.normRoute (r : Request) : Text := normalizeRoute r.route [] []

/-- The key of `httpRequestDurationHistograms`. -/
def Request.durationKey (r : Request) : Text :=
  Observability.durationKey (cases.toUpperCase r.method) r.normRoute

/-- The key of `httpRequestsTotal`. -/
def Request.requestKey (r : Request) : Text :=
  Observability.requestKey (cases.toUpperCase r.method) r.normRoute r.statusCode

/-- `recordHttpRequest`. -/
def recordHttpRequest (r : Request) (m : Metrics) : Metrics :=
  { m with
    httpRequestsTotal := m.httpRequestsTotal.increment (r.requestKey cases)
    httpRequestDurationHistograms := recordHistogramSample m.httpRequestDurationHistograms
      (r.durationKey cases) (r.durationMs / 1000) httpDurationBuckets }

/-- `recordExecutionDuration`. -/
def recordExecutionDuration (language : Text) (durationMs : ℚ) (m : Metrics) : Metrics :=
  { m with
    executionDurationHistograms := recordHistogramSample m.executionDurationHistograms
      (languageLabel cases.toLowerCase language) (durationMs / 1000) execDurationBuckets }

/-- One call. -/
def record (m : Metrics) : Call → Metrics
  | .recordHttpRequest r => recordHttpRequest cases r m
  | .recordExecutionDuration language durationMs => recordExecutionDuration cases language durationMs m

/-- The metrics after a sequence of calls. -/
def run (calls : List Call) : Metrics := calls.foldl (record cases) resetMetrics

end Recording

/-! ## Samples -/

/-- The requests of a sequence of calls. -/
def requests (calls : List Call) : List Request :=
  calls.filterMap fun
    | .recordHttpRequest r => some r
    | .recordExecutionDuration _ _ => none

/-- The executions of a sequence of calls: languages and durations. -/
def executions (calls : List Call) : List (Text × ℚ) :=
  calls.filterMap fun
    | .recordHttpRequest _ => none
    | .recordExecutionDuration language durationMs => some (language, durationMs)

/-- The samples under a key, in seconds. -/
def samplesOf {α : Type} (key : α → Text) (durationMs : α → ℚ) (xs : List α) (k : Text) : List ℚ :=
  (xs.filter (key · = k)).map fun x ↦ durationMs x / 1000

/-- A histogram says what its samples are. -/
structure Histogram.IsExact (hist : Histogram) (buckets : List ℚ) (samples : List ℚ) : Prop where
  count : hist.count = samples.length
  sum : hist.sum = samples.sum
  keys : hist.buckets.keys = buckets
  bucket : ∀ b ∈ buckets, hist.buckets.get? b = some (samples.countP (· ≤ b))
  mono : ∀ b ∈ buckets, ∀ b' ∈ buckets, b ≤ b' → hist.buckets.value b ≤ hist.buckets.value b'
  le_count : ∀ b ∈ buckets, hist.buckets.value b ≤ hist.count

/-- A map has an exact histogram under every key with samples, and no others. -/
def IsExact (histograms : OrderedMap Text Histogram) (buckets : List ℚ)
    (samples : Text → List ℚ) : Prop :=
  ∀ key, if samples key = [] then histograms.get? key = none
    else ∃ hist, histograms.get? key = some hist ∧ hist.IsExact buckets (samples key)

/-- `count` of the histogram under a key, zero where there is none. -/
def sampleCount (histograms : OrderedMap Text Histogram) (key : Text) : Nat :=
  ((histograms.get? key).map Histogram.count).getD 0

/-- A text without a bar. -/
abbrev Part := { s : Text // '|' ∉ s }

/-! ## One histogram -/

section Samples

variable {buckets : List ℚ}

/-- A histogram with some samples. -/
def histogramOf (buckets samples : List ℚ) : Histogram :=
  samples.foldl (fun hist value ↦ hist.add value buckets) (.fresh buckets)

theorem histogramOf_concat (buckets samples : List ℚ) (value : ℚ) :
    histogramOf buckets (samples ++ [value]) = (histogramOf buckets samples).add value buckets :=
  List.foldl_concat _ _ _ _

/-- The buckets of a histogram and what they count. -/
theorem buckets_histogramOf (h : buckets.Nodup) (samples : List ℚ) :
    (histogramOf buckets samples).buckets.keys = buckets ∧
      ∀ b ∈ buckets, (histogramOf buckets samples).buckets.value b = samples.countP (· ≤ b) := by
  have hfold : (histogramOf buckets samples).buckets = samples.foldl
      (fun m value ↦ buckets.foldl (fun m b ↦ if value ≤ b then m.increment b else m) m)
      (buckets.foldl (fun m b ↦ m.set b 0) .empty) :=
    (List.foldl_hom Histogram.buckets fun _ _ ↦ rfl).symm
  rw [hfold]
  exact foldl_increment_if h samples

theorem count_histogramOf (buckets samples : List ℚ) :
    (histogramOf buckets samples).count = samples.length := by
  have hfold : (histogramOf buckets samples).count = samples.foldl (fun n _ ↦ n + 1) 0 :=
    (List.foldl_hom Histogram.count fun _ _ ↦ rfl).symm
  rw [hfold, List.foldl_add_const, Nat.one_mul, Nat.zero_add]

theorem sum_histogramOf (buckets samples : List ℚ) :
    (histogramOf buckets samples).sum = samples.sum := by
  induction samples using List.reverseRecOn with
  | nil => rfl
  | append_singleton samples value ih =>
      rw [histogramOf_concat, List.sum_append, List.sum_singleton, ← ih]
      rfl

/-- **A histogram is exact.** -/
theorem isExact_histogramOf (h : buckets.Nodup) (samples : List ℚ) :
    (histogramOf buckets samples).IsExact buckets samples := by
  obtain ⟨hkeys, hvalue⟩ := buckets_histogramOf h samples
  have hcount := count_histogramOf buckets samples
  refine ⟨hcount, sum_histogramOf buckets samples, hkeys, fun b hb ↦ ?_, fun b hb b' hb' hle ↦ ?_,
    fun b hb ↦ ?_⟩
  · have hmem : b ∈ (histogramOf buckets samples).buckets.keys := hkeys.symm ▸ hb
    apply mem_entries_iff.mp
    rw [entries_eq_map_value, ← hvalue b hb]
    exact List.mem_map_of_mem hmem
  · rw [hvalue b hb, hvalue b' hb']
    apply List.countP_mono_left
    intro value _ hvalue
    exact decide_eq_true (le_trans (of_decide_eq_true hvalue) hle)
  · rw [hvalue b hb, hcount]
    exact List.countP_le_length

end Samples

/-! ## The maps -/

section Groups

variable {α : Type} (key : α → Text) (durationMs : α → ℚ) {buckets : List ℚ}

/-- The map that a sequence of samples leaves. -/
def groupSamples (buckets : List ℚ) (xs : List α) : OrderedMap Text Histogram :=
  group key (fun hist x ↦ hist.add (durationMs x / 1000) buckets) (.fresh buckets) xs

/-- The histogram under a key. -/
theorem get?_groupSamples (xs : List α) (k : Text) :
    (groupSamples key durationMs buckets xs).get? k =
      if k ∈ xs.map key then some (histogramOf buckets (samplesOf key durationMs xs k)) else none := by
  rw [groupSamples, get?_group, histogramOf, samplesOf, List.foldl_map]
  by_cases hk : k ∈ xs.map key
  · rw [if_pos hk, if_pos hk]
  · rw [if_neg hk, if_neg hk]

theorem samplesOf_eq_nil_iff {xs : List α} {k : Text} :
    samplesOf key durationMs xs k = [] ↔ k ∉ xs.map key := by
  simp [samplesOf]

/-- The map is exact. -/
theorem isExact_groupSamples (h : buckets.Nodup) (xs : List α) :
    IsExact (groupSamples key durationMs buckets xs) buckets (samplesOf key durationMs xs) := by
  intro k
  rw [get?_groupSamples]
  by_cases hk : k ∈ xs.map key
  · rw [if_neg fun hnil ↦ (samplesOf_eq_nil_iff key durationMs).mp hnil hk, if_pos hk]
    exact ⟨_, rfl, isExact_histogramOf h _⟩
  · rw [if_pos ((samplesOf_eq_nil_iff key durationMs).mpr hk), if_neg hk]

/-- A key has as many samples as members. -/
theorem sampleCount_groupSamples (xs : List α) (k : Text) :
    sampleCount (groupSamples key durationMs buckets xs) k = xs.countP (key · = k) := by
  rw [sampleCount, get?_groupSamples]
  by_cases hk : k ∈ xs.map key
  · rw [if_pos hk]
    show (histogramOf buckets _).count = _
    rw [count_histogramOf, samplesOf, List.length_map, List.countP_eq_length_filter]
  · rw [if_neg hk]
    refine (List.countP_eq_zero.mpr fun x hx hkey ↦ hk ?_).symm
    exact List.mem_map.mpr ⟨x, hx, of_decide_eq_true hkey⟩

end Groups

section Run

variable (cases : CaseMapping)

/-- The histograms of the requests. -/
theorem httpRequestDurationHistograms_run (calls : List Call) :
    (run cases calls).httpRequestDurationHistograms =
      groupSamples (Request.durationKey cases) Request.durationMs httpDurationBuckets
        (requests calls) := by
  rw [groupSamples, group, requests, List.foldl_filterMap]
  refine (List.foldl_hom Metrics.httpRequestDurationHistograms fun m c ↦ ?_).symm
  cases c <;> rfl

/-- The histograms of the executions. -/
theorem executionDurationHistograms_run (calls : List Call) :
    (run cases calls).executionDurationHistograms =
      groupSamples (fun e ↦ languageLabel cases.toLowerCase e.1) Prod.snd execDurationBuckets
        (executions calls) := by
  rw [groupSamples, group, executions, List.foldl_filterMap]
  refine (List.foldl_hom Metrics.executionDurationHistograms fun m c ↦ ?_).symm
  cases c <;> rfl

/-- The counters of the requests. -/
theorem httpRequestsTotal_run (calls : List Call) :
    (run cases calls).httpRequestsTotal = tally ((requests calls).map (Request.requestKey cases)) := by
  rw [tally, List.foldl_map, requests, List.foldl_filterMap]
  refine (List.foldl_hom Metrics.httpRequestsTotal fun m c ↦ ?_).symm
  cases c <;> rfl

/-! ## The keys -/

/-- The status of a request. -/
def Request.status (r : Request) : Part := ⟨r.statusCode, r.status_bar⟩

/-- A key of a histogram is about one method and one route. -/
theorem Request.durationKey_eq_iff (r : Request) (method : Part) (route : Text) :
    r.durationKey cases = Observability.durationKey method.1 route ↔
      cases.toUpperCase r.method = method.1 ∧ r.normRoute = route :=
  Separated.separator_append_inj (cases.bar_not_mem r.method_bar) method.2

/-- A key of a counter is a key of a histogram and one status. -/
theorem Request.requestKey_eq_iff (r : Request) (method status : Part) (route : Text) :
    r.requestKey cases = Observability.requestKey method.1 route status.1 ↔
      r.durationKey cases = Observability.durationKey method.1 route ∧ r.status = status :=
  (Separated.append_separator_inj r.status_bar status.2).trans
    (and_congr_right fun _ ↦ (Subtype.ext_iff : r.status = status ↔ _).symm)

/-- The counters of a method and a route count the requests by their status. -/
theorem value_httpRequestsTotal (calls : List Call) (method status : Part) (route : Text) :
    (run cases calls).httpRequestsTotal.value
        (Observability.requestKey method.1 route status.1) =
      Fibers.fiberCount (fun r ↦ r.durationKey cases = Observability.durationKey method.1 route)
        Request.status (requests calls) status := by
  rw [httpRequestsTotal_run, value_tally, List.countP_map]
  apply List.countP_congr
  intro r _
  show decide _ = true ↔ _
  rw [decide_eq_true_iff, r.requestKey_eq_iff, Bool.and_eq_true, decide_eq_true_iff,
    decide_eq_true_iff]

theorem nodup_httpDurationBuckets : httpDurationBuckets.Nodup := by decide +kernel

theorem nodup_execDurationBuckets : execDurationBuckets.Nodup := by decide +kernel

/-- **Whatever is recorded, every histogram is exact**, and the histogram of a method and a
route counts the requests that their counters count. -/
theorem exact_run (calls : List Call) :
    IsExact (run cases calls).httpRequestDurationHistograms httpDurationBuckets
        (samplesOf (Request.durationKey cases) Request.durationMs (requests calls)) ∧
      IsExact (run cases calls).executionDurationHistograms execDurationBuckets
        (samplesOf (fun e ↦ languageLabel cases.toLowerCase e.1) Prod.snd (executions calls)) ∧
      ∀ (method : Part) (route : Text),
        sampleCount (run cases calls).httpRequestDurationHistograms
            (Observability.durationKey method.1 route) =
          (requests calls).countP
            (fun r ↦ cases.toUpperCase r.method = method.1 ∧ r.normRoute = route) ∧
        (Function.support fun status : Part ↦ (run cases calls).httpRequestsTotal.value
          (Observability.requestKey method.1 route status.1)).Finite ∧
        sampleCount (run cases calls).httpRequestDurationHistograms
            (Observability.durationKey method.1 route) =
          ∑ᶠ status : Part, (run cases calls).httpRequestsTotal.value
            (Observability.requestKey method.1 route status.1) := by
  refine ⟨?_, ?_, fun method route ↦ ?_⟩
  · rw [httpRequestDurationHistograms_run]
    exact isExact_groupSamples _ _ nodup_httpDurationBuckets _
  · rw [executionDurationHistograms_run]
    exact isExact_groupSamples _ _ nodup_execDurationBuckets _
  · have hcount : sampleCount (run cases calls).httpRequestDurationHistograms
        (Observability.durationKey method.1 route) = (requests calls).countP
          fun r ↦ r.durationKey cases = Observability.durationKey method.1 route := by
      rw [httpRequestDurationHistograms_run, sampleCount_groupSamples]
    simp only [value_httpRequestsTotal]
    refine ⟨hcount.trans ?_, Fibers.finite_support_countP _ _ _, ?_⟩
    · simp only [Request.durationKey_eq_iff]
    · rw [hcount]
      exact (Fibers.finsum_countP _ _ _).symm

/-- Requests for two routes, and executions in two languages. -/
def sampleCalls : List Call :=
  [.recordHttpRequest ⟨"get".toList, "/problems".toList, "200".toList, 12, by decide, by decide⟩,
    .recordHttpRequest ⟨"POST".toList, "/submissions".toList, "201".toList, 30, by decide, by decide⟩,
    .recordExecutionDuration "PYTHON".toList 1500,
    .recordHttpRequest ⟨"GET".toList, "/problems".toList, "500".toList, 7 / 2, by decide, by decide⟩,
    .recordExecutionDuration "CPP".toList 400]

/-- Of the requests, two were for the problems. -/
theorem exact_run_sample :
    sampleCount (run .lettersAtoZ sampleCalls).httpRequestDurationHistograms
        (Observability.durationKey "GET".toList "/problems".toList) = 2 ∧
      ∑ᶠ status : Part, (run .lettersAtoZ sampleCalls).httpRequestsTotal.value
        (Observability.requestKey "GET".toList "/problems".toList status.1) = 2 ∧
      ∃ hist, (run .lettersAtoZ sampleCalls).httpRequestDurationHistograms.get?
          (Observability.durationKey "GET".toList "/problems".toList) = some hist ∧
        hist.IsExact httpDurationBuckets [12 / 1000, 7 / 2 / 1000] := by
  obtain ⟨hhttp, -, hkey⟩ := exact_run .lettersAtoZ sampleCalls
  obtain ⟨hcount, -, hsum⟩ := hkey ⟨"GET".toList, by decide⟩ "/problems".toList
  have htwo := hcount.trans (show _ = 2 by decide +kernel)
  have hsamples : samplesOf (Request.durationKey .lettersAtoZ) Request.durationMs
      (requests sampleCalls) (Observability.durationKey "GET".toList "/problems".toList) =
        [12 / 1000, 7 / 2 / 1000] := by decide +kernel
  have hexact := hhttp (Observability.durationKey "GET".toList "/problems".toList)
  rw [hsamples, if_neg (List.cons_ne_nil _ _)] at hexact
  exact ⟨htwo, hsum.symm.trans htwo, hexact⟩

/-! ## Whole milliseconds -/

/-- A call with a whole number of milliseconds. -/
def ofHttpCall (c : HttpCall) : Request where
  method := c.method
  route := c.path
  statusCode := decimal c.statusCode
  durationMs := c.durationMs
  method_bar := c.not_mem_method List.mem_cons_self
  status_bar := not_mem_decimal List.mem_cons_self c.statusCode

/-- A bucket is the boundary in seconds. -/
def boundary (b : Bucket) : ℚ := b.ms / 1000

theorem map_boundary : Observability.httpDurationBuckets.map boundary = httpDurationBuckets := by
  decide +kernel

theorem div_le_boundary {durationMs : Nat} {b : Bucket} :
    (durationMs : ℚ) / 1000 ≤ boundary b ↔ durationMs ≤ b.ms := by
  rw [boundary, div_le_div_iff_of_pos_right (by decide +kernel), Nat.cast_le]

theorem sum_histogramOf_calls (calls : List HttpCall) :
    ((Observability.histogramOf calls).sum : ℚ) / 1000 =
      (calls.map fun c ↦ (c.durationMs : ℚ) / 1000).sum := by
  induction calls using List.reverseRecOn with
  | nil =>
      show ((0 : Nat) : ℚ) / 1000 = 0
      rw [Nat.cast_zero, zero_div]
  | append_singleton calls c ih =>
      have hstep : Observability.histogramOf (calls ++ [c]) = (Observability.histogramOf calls).add
          c.durationMs Observability.httpDurationBuckets := List.foldl_concat _ _ _ _
      rw [List.map_append, List.sum_append, ← ih, hstep, Observability.Histogram.add]
      push_cast
      rw [add_div, List.map_singleton, List.sum_singleton]

/-- A histogram of calls counts the same in both units. -/
theorem histogramOf_calls (calls : List HttpCall) :
    (histogramOf httpDurationBuckets (calls.map fun c ↦ (c.durationMs : ℚ) / 1000)).sum =
        (Observability.histogramOf calls).sum / 1000 ∧
      (histogramOf httpDurationBuckets (calls.map fun c ↦ (c.durationMs : ℚ) / 1000)).count =
        (Observability.histogramOf calls).count ∧
      (histogramOf httpDurationBuckets
          (calls.map fun c ↦ (c.durationMs : ℚ) / 1000)).buckets.entries =
        (Observability.histogramOf calls).buckets.entries.map fun e ↦ (boundary e.1, e.2) := by
  refine ⟨?_, ?_, ?_⟩
  · rw [sum_histogramOf, sum_histogramOf_calls]
  · rw [count_histogramOf, Observability.count_histogramOf, List.length_map]
  · obtain ⟨hkeys, hvalue⟩ := buckets_histogramOf nodup_httpDurationBuckets
      (calls.map fun c ↦ (c.durationMs : ℚ) / 1000)
    rw [entries_eq_map_value, hkeys, Observability.buckets_histogramOf, List.map_map, ← map_boundary,
      List.map_map]
    apply List.map_congr_left
    intro b hb
    have hmem : boundary b ∈ httpDurationBuckets := map_boundary ▸ List.mem_map_of_mem hb
    show (boundary b, _) = (boundary b, (within calls b).length)
    rw [map_boundary, hvalue _ hmem, List.countP_map, within, ← List.countP_eq_length_filter]
    congr 1
    apply List.countP_congr
    intro c _
    show decide _ = true ↔ decide _ = true
    rw [decide_eq_true_iff, decide_eq_true_iff, div_le_boundary]

/-- **With whole milliseconds the metrics are those of `recordAll`**, in seconds. -/
theorem get?_ofHttpCalls (hcases : ∀ c : HttpCall, cases.toUpperCase c.method = c.method)
    (calls : List HttpCall) (key : Text) :
    ((run cases (calls.map fun c ↦ .recordHttpRequest (ofHttpCall c))
        ).httpRequestDurationHistograms.get? key).map
          (fun hist ↦ (hist.sum, hist.count, hist.buckets.entries)) =
      ((recordAll calls).httpRequestDurationHistograms.get? key).map fun hist ↦
        ((hist.sum : ℚ) / 1000, hist.count,
          hist.buckets.entries.map fun e ↦ (boundary e.1, e.2)) := by
  have hrequests : requests (calls.map fun c ↦ .recordHttpRequest (ofHttpCall c)) =
      calls.map ofHttpCall := by
    rw [requests, List.filterMap_map]
    exact congrFun List.filterMap_eq_map calls
  have hkey (c : HttpCall) : (ofHttpCall c).durationKey cases = pairKey c.pair :=
    congrArg (Observability.durationKey · c.route) (hcases c)
  have hsamples : samplesOf (Request.durationKey cases) Request.durationMs
      (calls.map ofHttpCall) key =
        (calls.filter (pairKey ·.pair = key)).map fun c ↦ (c.durationMs : ℚ) / 1000 := by
    rw [samplesOf, List.filter_map, List.map_map]
    simp only [Function.comp_def, hkey]
    rfl
  rw [httpRequestDurationHistograms_run, httpRequestDurationHistograms_recordAll, hrequests,
    get?_groupSamples, get?_group, hsamples, List.map_map]
  simp only [Function.comp_def, hkey]
  by_cases hmem : key ∈ calls.map fun c ↦ pairKey c.pair
  · rw [if_pos hmem, if_pos hmem]
    obtain ⟨hsum, hcount, hbuckets⟩ := histogramOf_calls (calls.filter (pairKey ·.pair = key))
    show some (_, _, _) = some (_, _, _)
    rw [hsum, hcount, hbuckets]
    rfl
  · rw [if_neg hmem, if_neg hmem]
    rfl

end Run

end CodeArena.Observability.Exact
