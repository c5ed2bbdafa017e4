import CodeArena.Lib.PrometheusText
import CodeArena.Lib.Separated
import CodeArena.Observability.Metrics

/-!
# The exposition of the HTTP metrics

The second and the third section of `getMetrics`: the lines of
`codearena_http_requests_total` and of `codearena_http_request_duration_seconds`.  Every one
of the template strings is an `Item`, printed with its labels between quotes as they are.

The labels come out of the keys by `split('|')`.
-/

namespace CodeArena.Observability

open CodeArena.Lib CodeArena.Lib.Prometheus CodeArena.Lib.Separated

/-- `hist.sum.toFixed(4)` of a sum of milliseconds in seconds. -/
def toFixed (sumMs : Nat) : Text :=
  decimal (sumMs / 1000) ++ '.' :: (List.leftpad 3 '0' (decimal (sumMs % 1000)) ++ ['0'])

/-- The `i`th part of a key. -/
def part (key : Text) (i : Nat) : Text := (key.splitOn '|').getD i "undefined".toList

/-- A part of a key contains no bar. -/
theorem mem_part {key : Text} {i : Nat} {c : Char} (hc : c ∈ part key i) :
    c ≠ '|' ∧ c ∈ key ∨ c ∈ "undefined".toList := by
  unfold part at hc
  rw [List.getD_eq_getElem?_getD] at hc
  cases hi : (key.splitOn '|')[i]? with
  | none =>
      rw [hi] at hc
      exact .inr hc
  | some p =>
      rw [hi] at hc
      obtain ⟨hbar, hsub⟩ := mem_splitOn (List.mem_of_getElem? hi)
      refine .inl ⟨?_, hsub hc⟩
      rintro rfl
      exact hbar hc

theorem part_requestKey {method route status : Text} (hmethod : '|' ∉ method)
    (hroute : '|' ∉ route) (hstatus : '|' ∉ status) :
    part (requestKey method route status) 0 = method ∧
      part (requestKey method route status) 1 = route ∧
      part (requestKey method route status) 2 = status := by
  unfold part requestKey
  rw [splitOn_triple hmethod hroute hstatus]
  exact ⟨rfl, rfl, rfl⟩

theorem part_durationKey {method route : Text} (hmethod : '|' ∉ method) (hroute : '|' ∉ route) :
    part (durationKey method route) 0 = method ∧ part (durationKey method route) 1 = route := by
  unfold part durationKey
  rw [splitOn_pair hmethod hroute]
  exact ⟨rfl, rfl⟩

/-- `codearena_http_requests_total`. -/
def requestsTotal : Text := "codearena_http_requests_total".toList

/-- `codearena_http_request_duration_seconds`, with a suffix. -/
def durationSeconds (suffix : String) : Text :=
  "codearena_http_request_duration_seconds".toList ++ suffix.toList

/-- The labels that the lines of a request and of its duration share. -/
def routeLabels (method route : Text) : List Label :=
  [("method".toList, method), ("route".toList, route)]

/-- The line of a key of `httpRequestsTotal`. -/
def requestItem (key : Text) (count : Nat) : Item where
  name := requestsTotal
  labels := routeLabels (part key 0) (part key 1) ++ [("status".toList, part key 2)]
  value := decimal count

/-- The line of a bucket. -/
def bucketItem (key le : Text) (count : Nat) : Item where
  name := durationSeconds "_bucket"
  labels := routeLabels (part key 0) (part key 1) ++ [("le".toList, le)]
  value := decimal count

/-- The line of a sum. -/
def sumItem (key : Text) (sumMs : Nat) : Item where
  name := durationSeconds "_sum"
  labels := routeLabels (part key 0) (part key 1)
  value := toFixed sumMs

/-- The line of a count. -/
def countItem (key : Text) (count : Nat) : Item where
  name := durationSeconds "_count"
  labels := routeLabels (part key 0) (part key 1)
  value := decimal count

/-- The lines of a key of `httpRequestDurationHistograms`. -/
def durationItems (key : Text) (hist : Histogram) : List Item :=
  hist.buckets.entries.map (fun (b, count) ↦ bucketItem key b.le count) ++
    [bucketItem key "+Inf".toList hist.count, sumItem key hist.sum, countItem key hist.count]

/-- The comments of `codearena_http_requests_total`. -/
def requestComments : List Text :=
  ["# HELP codearena_http_requests_total Total number of HTTP requests processed.".toList,
    "# TYPE codearena_http_requests_total counter".toList]

/-- The comments of `codearena_http_request_duration_seconds`. -/
def durationComments : List Text :=
  ["# HELP codearena_http_request_duration_seconds HTTP request duration in seconds histogram.".toList,
    "# TYPE codearena_http_request_duration_seconds histogram".toList]

theorem isComment : ∀ line ∈ requestComments ++ durationComments,
    line.head? = some '#' ∧ '\n' ∉ line := by
  simp [requestComments, durationComments]

/-- The lines of the second and the third section of `getMetrics`. -/
def httpLines (m : Metrics) : List Text :=
  requestComments ++
  (m.httpRequestsTotal.entries.map fun (key, count) ↦ requestItem key count).map Item.line ++
  durationComments ++
  (m.httpRequestDurationHistograms.entries.flatMap fun (key, hist) ↦
    durationItems key hist).map Item.line

/-- The text of these lines, as `getMetrics` puts lines together. -/
def httpText (m : Metrics) : Text := joinLines (httpLines m)

/-! ## Numerals -/

theorem decimal_ne_nil (n : Nat) : decimal n ≠ [] := Nat.toDigits_ne_nil

theorem parseValue_decimal (n : Nat) : parseValue (decimal n) = some (.ofNat n) := by
  rw [parseValue_digits (decimal_ne_nil n) fun d hd ↦ isDigit_of_mem_decimal hd, decimal,
    Nat.ofDigitChars_ten_toDigits]

/-- The digits of a sum behind the point. -/
theorem isDigit_of_mem_decimals {n : Nat} {c : Char}
    (hc : c ∈ List.leftpad 3 '0' (decimal n) ++ ['0']) : c.isDigit = true := by
  rw [List.leftpad] at hc
  rcases List.mem_append.mp hc with hc | hc
  · rcases List.mem_append.mp hc with hc | hc
    · rw [List.eq_of_mem_replicate hc]
      decide
    · exact isDigit_of_mem_decimal hc
  · rw [List.mem_singleton.mp hc]
    decide

theorem isSome_parseValue_toFixed (sumMs : Nat) : (parseValue (toFixed sumMs)).isSome = true := by
  rw [toFixed, parseValue_point (decimal_ne_nil _) (fun d hd ↦ isDigit_of_mem_decimal hd)
    fun d hd ↦ isDigit_of_mem_decimals hd]
  rfl

/-- The characters of a numeral. -/
def IsNumeral (cs : Text) : Prop := ∀ c ∈ cs, c.isDigit = true ∨ c ∈ ".+Inf".toList

theorem isNumeral_decimal (n : Nat) : IsNumeral (decimal n) :=
  fun _ hc ↦ .inl (isDigit_of_mem_decimal hc)

theorem isNumeral_toFixed (sumMs : Nat) : IsNumeral (toFixed sumMs) := by
  intro c hc
  rcases List.mem_append.mp hc with hc | hc
  · exact .inl (isDigit_of_mem_decimal hc)
  · rcases List.mem_cons.mp hc with rfl | hc
    · exact .inr (by decide)
    · exact .inl (isDigit_of_mem_decimals hc)

theorem Bucket.isNumeral_le (b : Bucket) : IsNumeral b.le := by
  intro c hc
  rcases Bool.or_eq_true_iff.mp (List.all_eq_true.mp b.numeral c hc) with hdigit | hpoint
  · exact .inl hdigit
  · rw [of_decide_eq_true hpoint]
    exact .inr (by decide)

/-- A character that no numeral contains. -/
theorem IsNumeral.not_mem {cs : Text} (h : IsNumeral cs) {a : Char} (hdigit : a.isDigit = false)
    (ha : a ∉ ".+Inf".toList) : a ∉ cs := by
  intro hmem
  rcases h a hmem with hd | hc
  · exact absurd (hd.symm.trans hdigit) nofun
  · exact ha hc

theorem IsNumeral.plain {cs : Text} (h : IsNumeral cs) : ∀ c ∈ cs, Plain c :=
  plain_of_not_mem (h.not_mem (by decide) (by decide)) (h.not_mem (by decide) (by decide))

theorem IsNumeral.isBlank_eq_false {cs : Text} (h : IsNumeral cs) :
    ∀ c ∈ cs, isBlank c = false := by
  intro c hc
  rcases h c hc with hdigit | hother
  · exact Prometheus.isBlank_eq_false (by decide) (by decide) hdigit
  · have hall : ∀ d ∈ ".+Inf".toList, isBlank d = false := forall_mem_of_all (by decide)
    exact hall c hother

/-! ## The lines of a key -/

/-- What the lines of a key have in common: the value of a label is a part of the key or a
numeral. -/
structure IsLine (key : Text) (item : Item) : Prop where
  name : isName isMetricStart isMetricRest item.name = true
  nonempty : item.labels ≠ []
  label : ∀ label ∈ item.labels, isName isLabelStart isLabelRest label.1 = true
  part : ∀ label ∈ item.labels, (∃ i, label.2 = part key i) ∨ IsNumeral label.2
  numeral : IsNumeral item.value
  value : (parseValue item.value).isSome = true

namespace IsLine

variable {key : Text} {item : Item}

/-- A line without special characters can be read. -/
theorem isPrintable (h : IsLine key item) (hplain : ∀ i, ∀ c ∈ Observability.part key i, Plain c) :
    item.IsPrintable where
  name := h.name
  nonempty := h.nonempty
  labels := by
    intro label hlabel
    refine ⟨h.label label hlabel, ?_⟩
    rcases h.part label hlabel with ⟨i, hi⟩ | hnumeral
    · rw [hi]
      exact hplain i
    · exact hnumeral.plain
  token := h.numeral.isBlank_eq_false
  value := h.value

/-- A line feed and a bar come from the parts of the key only. -/
theorem not_mem {a : Char} (h : IsLine key item) (ha : a ∈ ['\n', '|'])
    (hpart : ∀ i, a ∉ Observability.part key i) : a ∉ item.line := by
  have hclasses : ∀ c ∈ ['\n', '|'], c ∉ ['{', '}', ' ', '=', '"', ','] ∧
      (isMetricStart c = false ∧ isMetricRest c = false) ∧
      (isLabelStart c = false ∧ isLabelRest c = false) ∧
      c.isDigit = false ∧ c ∉ ".+Inf".toList :=
    forall_mem_of_all (by decide)
  obtain ⟨hpunctuation, hmetric, hlabel, hdigit, hother⟩ := hclasses a ha
  apply not_mem_print hpunctuation
  · exact not_mem_of_isName hmetric.1 hmetric.2 h.name
  · exact h.numeral.not_mem hdigit hother
  · intro label hl
    refine ⟨not_mem_of_isName hlabel.1 hlabel.2 (h.label label hl), ?_⟩
    rcases h.part label hl with ⟨i, hi⟩ | hnumeral
    · rw [hi]
      exact hpart i
    · exact hnumeral.not_mem hdigit hother

end IsLine

/-- The name of a line of a duration. -/
def IsDurationName (name : Text) : Prop :=
  ∃ suffix ∈ ["_bucket", "_sum", "_count"], name = durationSeconds suffix

theorem isName_requestsTotal : isName isMetricStart isMetricRest requestsTotal = true := by decide

theorem IsDurationName.isName {name : Text} (h : IsDurationName name) :
    isName isMetricStart isMetricRest name = true ∧ name ≠ requestsTotal := by
  have hall : ∀ suffix ∈ ["_bucket", "_sum", "_count"],
      Prometheus.isName isMetricStart isMetricRest (durationSeconds suffix) = true ∧
        durationSeconds suffix ≠ requestsTotal := by
    decide
  obtain ⟨suffix, hsuffix, rfl⟩ := h
  exact hall suffix hsuffix

section Lines

variable {key : Text} {hist : Histogram} {item : Item}

/-- The labels of a line: those of the route, and at most one more. -/
theorem isLine_of_labels {name value : Text} {extra : List Label}
    (hname : isName isMetricStart isMetricRest name = true)
    (hextra : ∀ label ∈ extra, label.1 ∈ ["status".toList, "le".toList] ∧
      ((∃ i, label.2 = part key i) ∨ IsNumeral label.2))
    (hnumeral : IsNumeral value) (hvalue : (parseValue value).isSome = true) :
    IsLine key ⟨name, routeLabels (part key 0) (part key 1) ++ extra, value⟩ := by
  have hnames : ∀ n ∈ ["method".toList, "route".toList, "status".toList, "le".toList],
      isName isLabelStart isLabelRest n = true := by
    decide
  have hlabels : ∀ label ∈ routeLabels (part key 0) (part key 1) ++ extra,
      isName isLabelStart isLabelRest label.1 = true ∧
        ((∃ i, label.2 = part key i) ∨ IsNumeral label.2) := by
    intro label hlabel
    rcases List.mem_append.mp hlabel with hlabel | hlabel
    · simp only [routeLabels, List.mem_cons, List.not_mem_nil, or_false] at hlabel
      rcases hlabel with rfl | rfl
      · exact ⟨hnames _ (by simp), .inl ⟨0, rfl⟩⟩
      · exact ⟨hnames _ (by simp), .inl ⟨1, rfl⟩⟩
    · obtain ⟨hmem, hpart⟩ := hextra label hlabel
      exact ⟨hnames _ (List.mem_cons_of_mem _ (List.mem_cons_of_mem _ hmem)), hpart⟩
  exact {
    name := hname
    nonempty := List.cons_ne_nil _ _
    label := fun label hl ↦ (hlabels label hl).1
    part := fun label hl ↦ (hlabels label hl).2
    numeral := hnumeral
    value := hvalue }

theorem isSome_parseValue_decimal (n : Nat) : (parseValue (decimal n)).isSome = true := by
  rw [parseValue_decimal]
  rfl

theorem isLine_requestItem (key : Text) (count : Nat) : IsLine key (requestItem key count) := by
  apply isLine_of_labels isName_requestsTotal _ (isNumeral_decimal count)
    (isSome_parseValue_decimal count)
  intro label hlabel
  rw [List.mem_singleton.mp hlabel]
  exact ⟨List.mem_cons_self, .inl ⟨2, rfl⟩⟩

/-- The lines of a duration. -/
theorem isLine_of_mem_durationItems (h : item ∈ durationItems key hist) :
    IsLine key item ∧ IsDurationName item.name := by
  have hbucket (le : Text) (count : Nat) (hle : IsNumeral le) :
      IsLine key (bucketItem key le count) ∧ IsDurationName (bucketItem key le count).name := by
    have hname : IsDurationName (durationSeconds "_bucket") := ⟨_, by decide, rfl⟩
    refine ⟨?_, hname⟩
    apply isLine_of_labels hname.isName.1 _ (isNumeral_decimal count)
      (isSome_parseValue_decimal count)
    intro label hlabel
    rw [List.mem_singleton.mp hlabel]
    exact ⟨List.mem_cons_of_mem _ List.mem_cons_self, .inr hle⟩
  rcases List.mem_append.mp h with h | h
  · obtain ⟨⟨b, count⟩, -, rfl⟩ := List.mem_map.mp h
    exact hbucket b.le count b.isNumeral_le
  · simp only [List.mem_cons, List.not_mem_nil, or_false] at h
    rcases h with rfl | rfl | rfl
    · exact hbucket _ hist.count (forall_mem_of_all (by decide))
    · have hname : IsDurationName (durationSeconds "_sum") := ⟨_, by decide, rfl⟩
      exact ⟨isLine_of_labels hname.isName.1 nofun (isNumeral_toFixed hist.sum)
        (isSome_parseValue_toFixed hist.sum), hname⟩
    · have hname : IsDurationName (durationSeconds "_count") := ⟨_, by decide, rfl⟩
      exact ⟨isLine_of_labels hname.isName.1 nofun (isNumeral_decimal hist.count)
        (isSome_parseValue_decimal hist.count), hname⟩

end Lines

end CodeArena.Observability
