import CodeArena.Lib.OrderedMap
import CodeArena.Lib.Replace
import Mathlib.Data.List.TakeWhile

/-!
# The metrics service

The in-memory metrics of `metrics.service.js`, and the functions that record into them.
A map of the source is an `OrderedMap`, since the exposition lists it in the order of
insertion.

Strings are lists of characters.  A duration is a number of milliseconds and a boundary of
a bucket is one as well, kept with the text it is printed as: `valueSec <= b` compares both
divided by 1000.  The sum of a histogram is exact.

`toLowerCase` is that of JavaScript, and a parameter: nothing depends on what it does.  A
method is a token of HTTP, and those are ASCII.
-/

namespace CodeArena.Observability

open CodeArena.Lib CodeArena.Lib.Replace

/-- A string. -/
abbrev Text := List Char

/-- A property of the characters of a text, checked one by one. -/
theorem forall_mem_of_all {P : Char → Prop} [DecidablePred P] {cs : Text}
    (h : cs.all (fun c ↦ decide (P c)) = true) : ∀ c ∈ cs, P c :=
  fun c hc ↦ of_decide_eq_true (List.all_eq_true.mp h c hc)

/-- `s || fallback` of a string. -/
def orElse (s fallback : Text) : Text := if s = [] then fallback else s

/-! ## Histograms -/

/-- A boundary of a bucket, which is printed as a numeral. -/
structure Bucket where
  le : Text
  ms : Nat
  numeral : le.all (fun c ↦ c.isDigit || c = '.') = true
deriving DecidableEq

/-- `HTTP_DURATION_BUCKETS`. -/
def httpDurationBuckets : List Bucket :=
  [⟨"0.005".toList, 5, by decide⟩, ⟨"0.01".toList, 10, by decide⟩,
    ⟨"0.025".toList, 25, by decide⟩, ⟨"0.05".toList, 50, by decide⟩,
    ⟨"0.1".toList, 100, by decide⟩, ⟨"0.25".toList, 250, by decide⟩,
    ⟨"0.5".toList, 500, by decide⟩, ⟨"1".toList, 1000, by decide⟩,
    ⟨"2.5".toList, 2500, by decide⟩, ⟨"5".toList, 5000, by decide⟩,
    ⟨"10".toList, 10000, by decide⟩]

/-- `EXEC_DURATION_BUCKETS`. -/
def execDurationBuckets : List Bucket :=
  [⟨"0.05".toList, 50, by decide⟩, ⟨"0.1".toList, 100, by decide⟩,
    ⟨"0.25".toList, 250, by decide⟩, ⟨"0.5".toList, 500, by decide⟩,
    ⟨"1".toList, 1000, by decide⟩, ⟨"2".toList, 2000, by decide⟩,
    ⟨"5".toList, 5000, by decide⟩, ⟨"10".toList, 10000, by decide⟩]

/-- A histogram. -/
structure Histogram where
  sum : Nat
  count : Nat
  buckets : OrderedMap Bucket Nat

namespace Histogram

/-- A histogram without samples. -/
def fresh (buckets : List Bucket) : Histogram where
  sum := 0
  count := 0
  buckets := buckets.foldl (fun m b ↦ m.set b 0) .empty

/-- The histogram with one more sample. -/
def add (hist : Histogram) (durationMs : Nat) (buckets : List Bucket) : Histogram where
  sum := hist.sum + durationMs
  count := hist.count + 1
  buckets := buckets.foldl (fun m b ↦ if durationMs ≤ b.ms then m.increment b else m) hist.buckets

end Histogram

/-- `recordHistogramSample`. -/
def recordHistogramSample (histograms : OrderedMap Text Histogram) (key : Text)
    (durationMs : Nat) (buckets : List Bucket) : OrderedMap Text Histogram :=
  histograms.update key fun hist ↦ (hist.getD (.fresh buckets)).add durationMs buckets

/-- `count` of the histogram under a key, zero where there is none. -/
def sampleCount (histograms : OrderedMap Text Histogram) (key : Text) : Nat :=
  ((histograms.get? key).map Histogram.count).getD 0

/-- A sample counts under its key. -/
theorem sampleCount_record (histograms : OrderedMap Text Histogram) (key key' : Text)
    (durationMs : Nat) (buckets : List Bucket) :
    sampleCount (recordHistogramSample histograms key durationMs buckets) key' =
      sampleCount histograms key' + if key' = key then 1 else 0 := by
  rw [sampleCount, recordHistogramSample, OrderedMap.get?_update]
  by_cases h : key' = key
  · subst h
    rw [if_pos rfl, if_pos rfl, sampleCount]
    cases histograms.get? key' <;> rfl
  · rw [if_neg h, if_neg h]
    rfl

/-! ## The metrics -/

/-- The metrics of a process. -/
structure Metrics where
  httpRequestsTotal : OrderedMap Text Nat
  httpRequestDurationHistograms : OrderedMap Text Histogram
  submissionsTotal : OrderedMap Text Nat
  workerJobsTotal : OrderedMap Text Nat
  workerFailuresTotal : OrderedMap Text Nat
  executionDurationHistograms : OrderedMap Text Histogram

/-- `resetMetrics`. -/
def resetMetrics : Metrics := ⟨.empty, .empty, .empty, .empty, .empty, .empty⟩

/-! ## The submissions -/

section Submissions

variable (toLowerCase : Text → Text)

/-- The label of a language. -/
def languageLabel (language : Text) : Text := toLowerCase (orElse language "unknown".toList)

/-- The key of `submissionsTotal`. -/
def submissionKey (language verdict : Text) : Text :=
  languageLabel toLowerCase language ++ '|' :: orElse verdict "UNKNOWN".toList

/-- `recordSubmissionVerdict`. -/
def recordSubmissionVerdict (language verdict : Text) (m : Metrics) : Metrics :=
  { m with submissionsTotal := m.submissionsTotal.increment (submissionKey toLowerCase language verdict) }

/-- `recordExecutionDuration`. -/
def recordExecutionDuration (language : Text) (durationMs : Nat) (m : Metrics) : Metrics :=
  { m with
    executionDurationHistograms := recordHistogramSample m.executionDurationHistograms
      (languageLabel toLowerCase language) durationMs execDurationBuckets }

end Submissions

/-- `recordWorkerJob`. -/
def recordWorkerJob (status : Text) (m : Metrics) : Metrics :=
  { m with workerJobsTotal := m.workerJobsTotal.increment status }

/-- `recordWorkerFailure`. -/
def recordWorkerFailure (failureType : Text) (m : Metrics) : Metrics :=
  { m with workerFailuresTotal := m.workerFailuresTotal.increment failureType }

/-! ## The HTTP requests -/

/-- `[0-9a-fA-F]`. -/
def isHex (c : Char) : Bool :=
  c.isDigit || ('a' ≤ c && c ≤ 'f') || ('A' ≤ c && c ≤ 'F')

def isHyphen (c : Char) : Bool := c = '-'

/-- `[0-9a-fA-F]{24}`. -/
def objectIdClasses : List (Char → Bool) := .replicate 24 isHex

/-- The groups of a UUID with the hyphens between them. -/
def uuidClasses : List (Char → Bool) :=
  .replicate 8 isHex ++ isHyphen :: .replicate 4 isHex ++ isHyphen :: .replicate 4 isHex ++
    isHyphen :: .replicate 4 isHex ++ isHyphen :: .replicate 12 isHex

/-- `\/\d+(?=\/|$)`: a segment of digits, with the slash before it.  Fewer digits than there
are leave a digit behind, so there is nothing to go back to. -/
def numericLength : Text → Nat
  | '/' :: cs =>
    let digits := cs.takeWhile Char.isDigit
    if digits ≠ [] ∧ (cs.drop digits.length).head?.all (· = '/') then digits.length + 1 else 0
  | _ => 0

/-- `normalizeRoute`. -/
def normalizeRoute (rawPath routePath baseUrl : Text) : Text :=
  if routePath ≠ [] then baseUrl ++ routePath
  else if rawPath = [] ∨ rawPath = ['/'] then ['/']
  else
    let normalized := replaceAll (classLength objectIdClasses) ":id".toList rawPath
    let normalized := replaceAll (classLength uuidClasses) ":id".toList normalized
    replaceAll numericLength "/:id".toList normalized

/-- A character of a match of a number is the slash or a digit. -/
theorem mem_take_numericLength {xs : Text} {c : Char} (hc : c ∈ xs.take (numericLength xs)) :
    c = '/' ∨ c.isDigit = true := by
  unfold numericLength at hc
  split at hc
  case h_1 cs =>
    dsimp only at hc
    split at hc
    case isTrue =>
      rcases List.mem_cons.mp hc with rfl | hc
      · exact .inl rfl
      · have htake : cs.take (cs.takeWhile Char.isDigit).length = cs.takeWhile Char.isDigit :=
          (List.prefix_iff_eq_take.mp (List.takeWhile_prefix _)).symm
        rw [htake] at hc
        exact .inr (List.mem_takeWhile_imp hc)
    case isFalse => cases hc
  case h_2 => cases hc

/-- A character that is neither a hexadecimal digit nor a hyphen is in no class of an
ObjectId, and in none of a UUID. -/
theorem objectIdClasses_eq_false {c : Char} (hhex : isHex c = false) :
    ∀ p ∈ objectIdClasses, p c = false := by
  intro p hp
  rw [List.eq_of_mem_replicate hp]
  exact hhex

theorem uuidClasses_eq_false {c : Char} (hhex : isHex c = false) (hhyphen : isHyphen c = false) :
    ∀ p ∈ uuidClasses, p c = false := by
  have hall : ∀ p ∈ uuidClasses, p = isHex ∨ p = isHyphen := by
    simp only [uuidClasses, List.mem_append, List.mem_cons, List.mem_replicate]
    rintro p (((((⟨-, h⟩ | h | ⟨-, h⟩) | h | ⟨-, h⟩) | h | ⟨-, h⟩) | h | ⟨-, h⟩))
    all_goals simp [h]
  intro p hp
  rcases hall p hp with rfl | rfl
  · exact hhex
  · exact hhyphen

/-- A character that is in no identifier is in a route exactly if it is in the path. -/
theorem mem_normalizeRoute {c : Char} (hhex : isHex c = false) (hhyphen : isHyphen c = false)
    (hc : c ∉ "/:id".toList) (path : Text) : c ∈ normalizeRoute path [] [] ↔ c ∈ path := by
  have hnumber (xs : Text) : c ∉ xs.take (numericLength xs) := by
    intro hmem
    rcases mem_take_numericLength hmem with rfl | hdigit
    · exact hc (by decide)
    · simp [isHex, hdigit] at hhex
  have hid : c ∉ ":id".toList := fun h ↦ hc (List.mem_cons_of_mem '/' h)
  unfold normalizeRoute
  rw [if_neg (not_not.mpr rfl)]
  split
  case isTrue h =>
    have hslash : c ∉ ['/'] := fun h ↦ hc (List.mem_cons.mpr (.inl (List.mem_singleton.mp h)))
    rcases h with rfl | rfl
    · exact ⟨fun h ↦ absurd h hslash, nofun⟩
    · exact Iff.rfl
  case isFalse =>
    rw [mem_replaceAll hc hnumber,
      mem_replaceAll hid (not_mem_take_classLength (uuidClasses_eq_false hhex hhyphen)),
      mem_replaceAll hid (not_mem_take_classLength (objectIdClasses_eq_false hhex))]

/-- `${n}` of a natural number. -/
def decimal (n : Nat) : Text := Nat.toDigits 10 n

/-- The digits of a number. -/
theorem isDigit_of_mem_decimal {n : Nat} {c : Char} (hc : c ∈ decimal n) : c.isDigit = true :=
  Nat.isDigit_of_mem_toDigits (by decide) (by decide) hc

/-- `method.toUpperCase()`. -/
def toUpperCase (method : Text) : Text := method.map Char.toUpper

/-- What is upper-case already stays as it is. -/
theorem toUpperCase_of_upper {method : Text}
    (h : method.all (fun c ↦ c.isUpper || c = '-') = true) : toUpperCase method = method := by
  unfold toUpperCase
  refine (List.map_congr_left fun c hc ↦ ?_).trans (List.map_id method)
  rcases Bool.or_eq_true_iff.mp (List.all_eq_true.mp h c hc) with hupper | hhyphen
  · obtain ⟨-, hz⟩ := of_decide_eq_true hupper
    apply dif_neg
    rintro ⟨ha, -⟩
    exact absurd (UInt32.le_trans ha hz) (by decide)
  · rw [of_decide_eq_true hhyphen]
    rfl

/-- The key of `httpRequestDurationHistograms`. -/
def durationKey (method route : Text) : Text := method ++ '|' :: route

/-- The key of `httpRequestsTotal`. -/
def requestKey (method route status : Text) : Text := method ++ '|' :: route ++ '|' :: status

/-- `recordHttpRequest`. -/
def recordHttpRequest (method route : Text) (statusCode durationMs : Nat) (m : Metrics) :
    Metrics :=
  let normRoute := normalizeRoute route [] []
  { m with
    httpRequestsTotal := m.httpRequestsTotal.increment
      (requestKey (toUpperCase method) normRoute (decimal statusCode))
    httpRequestDurationHistograms := recordHistogramSample m.httpRequestDurationHistograms
      (durationKey (toUpperCase method) normRoute) durationMs httpDurationBuckets }

end CodeArena.Observability
