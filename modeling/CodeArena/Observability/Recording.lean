import CodeArena.Observability.Metrics
import Mathlib.Data.List.Induction

/-!
# What is recorded

A sequence of calls of `recordHttpRequest` from empty metrics.  The map of requests and the
map of durations come to groupings of the calls by their keys.
-/

namespace CodeArena.Observability

open CodeArena.Lib CodeArena.Lib.OrderedMap

/-- A call of `recordHttpRequest`.  A method is in upper case, and the path comes from a
request line, which ends at the line feed. -/
structure HttpCall where
  method : Text
  path : Text
  statusCode : Nat
  durationMs : Nat
  upperCase : method.all (fun c ↦ c.isUpper || c = '-') = true
  oneLine : '\n' ∉ path

namespace HttpCall

/-- The normalized route. -/
def route (c : HttpCall) : Text := normalizeRoute c.path [] []

/-- The method and the route. -/
def pair (c : HttpCall) : Text × Text := (c.method, c.route)

/-- The method, the route and the status. -/
def triple (c : HttpCall) : Text × Text × Text := (c.method, c.route, decimal c.statusCode)

end HttpCall

/-- The metrics after a sequence of calls. -/
def recordAll (calls : List HttpCall) : Metrics :=
  calls.foldl (fun m c ↦ recordHttpRequest c.method c.path c.statusCode c.durationMs m) resetMetrics

/-- The key of a method, a route and a status. -/
def tripleKey (t : Text × Text × Text) : Text := requestKey t.1 t.2.1 t.2.2

/-- The key of a method and a route. -/
def pairKey (p : Text × Text) : Text := durationKey p.1 p.2

/-- The histogram of a sequence of calls. -/
def histogramOf (calls : List HttpCall) : Histogram :=
  calls.foldl (fun hist c ↦ hist.add c.durationMs httpDurationBuckets) (.fresh httpDurationBuckets)

/-! ## Histograms -/

theorem nodup_httpDurationBuckets : httpDurationBuckets.Nodup := by decide

/-- The calls that are not slower than a boundary. -/
def within (calls : List HttpCall) (b : Bucket) : List HttpCall :=
  calls.filter (·.durationMs ≤ b.ms)

/-- The buckets of a histogram and what they count. -/
theorem keys_histogramOf (calls : List HttpCall) :
    (histogramOf calls).buckets.keys = httpDurationBuckets ∧
      ∀ b ∈ httpDurationBuckets, (histogramOf calls).buckets.value b = (within calls b).length := by
  have hfold : (histogramOf calls).buckets = calls.foldl
      (fun m c ↦ httpDurationBuckets.foldl
        (fun m b ↦ if c.durationMs ≤ b.ms then m.increment b else m) m)
      (httpDurationBuckets.foldl (fun m b ↦ m.set b 0) .empty) :=
    (List.foldl_hom Histogram.buckets fun _ _ ↦ rfl).symm
  obtain ⟨hkeys, hvalue⟩ := foldl_increment_if (p := fun (c : HttpCall) (b : Bucket) ↦
    c.durationMs ≤ b.ms) nodup_httpDurationBuckets calls
  rw [hfold]
  refine ⟨hkeys, fun b hb ↦ ?_⟩
  rw [hvalue b hb, within, List.countP_eq_length_filter]

/-- **The buckets of a histogram are cumulative counts of the calls.** -/
theorem buckets_histogramOf (calls : List HttpCall) : (histogramOf calls).buckets.entries =
    httpDurationBuckets.map fun b ↦ (b, (within calls b).length) := by
  obtain ⟨hkeys, hvalue⟩ := keys_histogramOf calls
  rw [entries_eq_map_value, hkeys]
  apply List.map_congr_left
  intro b hb
  rw [hvalue b hb]

theorem count_histogramOf (calls : List HttpCall) : (histogramOf calls).count = calls.length := by
  have hcount : (histogramOf calls).count = calls.foldl (fun n _ ↦ n + 1) 0 :=
    (List.foldl_hom Histogram.count fun _ _ ↦ rfl).symm
  rw [hcount, List.foldl_add_const, Nat.one_mul, Nat.zero_add]

/-! ## The maps -/

/-- The map of requests groups the calls. -/
theorem httpRequestsTotal_recordAll (calls : List HttpCall) :
    (recordAll calls).httpRequestsTotal =
      group (fun c ↦ tripleKey c.triple) (fun n _ ↦ n + 1) 0 calls := by
  refine (List.foldl_hom Metrics.httpRequestsTotal fun m c ↦ ?_).symm
  show m.httpRequestsTotal.increment _ = m.httpRequestsTotal.increment _
  rw [toUpperCase_of_upper c.upperCase]
  rfl

/-- The map of durations groups the calls. -/
theorem httpRequestDurationHistograms_recordAll (calls : List HttpCall) :
    (recordAll calls).httpRequestDurationHistograms =
      group (fun c ↦ pairKey c.pair) (fun hist c ↦ hist.add c.durationMs httpDurationBuckets)
        (.fresh httpDurationBuckets) calls := by
  refine (List.foldl_hom Metrics.httpRequestDurationHistograms fun m c ↦ ?_).symm
  show _ = recordHistogramSample m.httpRequestDurationHistograms _ _ _
  rw [toUpperCase_of_upper c.upperCase]
  rfl

/-- The characters that the exposition and the keys treat in a way of their own. -/
def special : List Char := ['|', '"', '\\', '\n']

/-- Normalizing a path neither removes a special character nor brings one in. -/
theorem HttpCall.mem_route {a : Char} (ha : a ∈ special) (c : HttpCall) :
    a ∈ c.route ↔ a ∈ c.path := by
  have hclasses : ∀ a ∈ special, isHex a = false ∧ isHyphen a = false ∧ a ∉ "/:id".toList :=
    forall_mem_of_all (by decide)
  obtain ⟨hhex, hhyphen, hid⟩ := hclasses a ha
  exact mem_normalizeRoute hhex hhyphen hid c.path

theorem HttpCall.not_mem_method {a : Char} (ha : a ∈ special) (c : HttpCall) : a ∉ c.method := by
  have hclasses : ∀ a ∈ special, (a.isUpper || a = '-') = false :=
    forall_mem_of_all (by decide)
  intro hmem
  have h := List.all_eq_true.mp c.upperCase a hmem
  exact absurd (h.symm.trans (hclasses a ha)) nofun

theorem not_mem_decimal {a : Char} (ha : a ∈ special) (n : Nat) : a ∉ decimal n := by
  have hclasses : ∀ a ∈ special, a.isDigit = false := forall_mem_of_all (by decide)
  intro hmem
  exact absurd ((isDigit_of_mem_decimal hmem).symm.trans (hclasses a ha)) nofun

end CodeArena.Observability
