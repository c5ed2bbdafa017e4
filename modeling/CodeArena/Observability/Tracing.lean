import CodeArena.Engine.Config
import CodeArena.Lib.Layout

/-!
# Trace contexts

`tracing.service.js` reads the traceparent header of a request, or draws fresh ids, and writes
the header for the services behind it.

Reading and writing agree (`exec_eq_some_iff`).  What is written is a header of W3C Trace
Context level 1, and so are those of the spans below it, exactly if no header with a capital
letter was let in (`extractOrCreateContext_roundTrips_iff`): `TRACEPARENT_REGEX` takes the
letters A to F, the specification only a to f.
-/

namespace CodeArena.Observability.Tracing

open CodeArena.Engine CodeArena.Lib CodeArena.Lib.Utf
open CodeArena.Lib.Layout (IsField)

/-! ## Hexadecimal digits -/

/-- `[0-9a-f]`. -/
def isLowerHex (u : CodeUnit) : Bool := (0x30 ≤ u && u ≤ 0x39) || (0x61 ≤ u && u ≤ 0x66)

/-- `[A-F]`. -/
def isCapital (u : CodeUnit) : Bool := 0x41 ≤ u && u ≤ 0x46

/-- `[0-9a-fA-F]`. -/
def isHex (u : CodeUnit) : Bool := isLowerHex u || isCapital u

/-- The digit of a number below 16. -/
def hexDigit (d : UInt8) : CodeUnit := if d < 10 then 0x30 + d.toUInt16 else 0x57 + d.toUInt16

/-- `toString('hex')` of a buffer. -/
def toHex (bytes : List UInt8) : JsString := bytes.flatMap fun b ↦ [hexDigit (b / 16), hexDigit (b % 16)]

/-! ## Ids -/

/-- `crypto.randomBytes(n)`. -/
structure RandomBytes (n : Nat) where
  bytes : List UInt8
  length_bytes : bytes.length = n

/-- Not all bytes are zero. -/
def RandomBytes.NonZero {n : Nat} (r : RandomBytes n) : Prop := ∃ b ∈ r.bytes, b ≠ 0

/-- `generateTraceId`. -/
def generateTraceId (random : RandomBytes 16) : JsString := toHex random.bytes

/-- `generateSpanId`. -/
def generateSpanId (random : RandomBytes 8) : JsString := toHex random.bytes

/-! ## The header -/

/-- `formatTraceparent`. -/
def formatTraceparent (traceId spanId flags : JsString) : JsString :=
  js "00-" ++ traceId ++ js "-" ++ spanId ++ js "-" ++ flags

/-- `TRACEPARENT_REGEX`. -/
def traceparentRegex : List (Layout.Part CodeUnit) :=
  [.literal (js "00-"), .field isHex 32, .literal (js "-"), .field isHex 16, .literal (js "-"),
    .field isHex 2]

/-- `TRACEPARENT_REGEX.exec(headerValue)`: the groups. -/
def exec (headerValue : JsString) : Option (JsString × JsString × JsString) :=
  match Layout.read traceparentRegex headerValue with
  | some [traceId, spanId, traceFlags] => some (traceId, spanId, traceFlags)
  | _ => none

/-- An id of zeros. -/
def zeros (n : Nat) : JsString := .replicate n 0x30

/-- `headerInput`. -/
inductive HeaderInput where
  /-- Neither a string nor an object. -/
  | absent
  | string (s : JsString)
  /-- The headers of a request, by the fields that are read. -/
  | headers (traceparent xTraceId : Option JsString)

/-- `headerInput['traceparent'] || headerInput['x-trace-id'] || ''`. -/
def firstHeader (traceparent xTraceId : Option JsString) : JsString :=
  if traceparent.getD [] ≠ [] then traceparent.getD [] else xTraceId.getD []

/-- `headerValue`. -/
def headerValue : HeaderInput → JsString
  | .absent => []
  | .string s => trim s
  | .headers traceparent xTraceId => trim (firstHeader traceparent xTraceId)

/-- What `extractOrCreateContext` returns. -/
structure Context where
  traceId : JsString
  spanId : JsString
  traceFlags : JsString
  traceparent : JsString
  isNew : Bool

/-- The context of some ids. -/
def Context.of (traceId spanId traceFlags : JsString) (isNew : Bool) : Context :=
  ⟨traceId, spanId, traceFlags, formatTraceparent traceId spanId traceFlags, isNew⟩

/-- The random bytes of one call. -/
structure RandomIds where
  trace : RandomBytes 16
  span : RandomBytes 8

/-- No fresh id is all zeros. -/
def RandomIds.NonZero (random : RandomIds) : Prop := random.trace.NonZero ∧ random.span.NonZero

/-- A fresh context. -/
def createContext (random : RandomIds) : Context :=
  .of (generateTraceId random.trace) (generateSpanId random.span) (js "01") true

/-- `extractOrCreateContext`. -/
def extractOrCreateContext (random : RandomIds) (headerInput : HeaderInput) : Context :=
  match exec (headerValue headerInput) with
  | some (traceId, spanId, traceFlags) =>
    if traceId ≠ zeros 32 ∧ spanId ≠ zeros 16 then .of traceId spanId traceFlags false
    else createContext random
  | none => createContext random

/-- What `createChildSpan` returns. -/
structure ChildSpan where
  traceId : JsString
  spanId : JsString
  traceFlags : JsString
  traceparent : JsString

/-- `createChildSpan`. -/
def createChildSpan (random : RandomIds) (childRandom : RandomBytes 8)
    (parentTraceparent : JsString) : ChildSpan :=
  let parent := extractOrCreateContext random (.string parentTraceparent)
  let childSpanId := generateSpanId childRandom
  { traceId := parent.traceId
    spanId := childSpanId
    traceFlags := parent.traceFlags
    traceparent := formatTraceparent parent.traceId childSpanId parent.traceFlags }

/-! ## Fresh ids -/

theorem isLowerHex_hexDigit {d : UInt8} (h : d < 16) : isLowerHex (hexDigit d) = true := by
  have hall : (List.range 16).all (fun n ↦ isLowerHex (hexDigit (.ofNat n))) = true := by decide
  have hd := List.all_eq_true.mp hall d.toNat (List.mem_range.mpr h)
  rwa [UInt8.ofNat_toNat] at hd

/-- Only zero has the digit `0`. -/
theorem eq_zero_of_hexDigit {d : UInt8} (h : d < 16) (hd : hexDigit d = 0x30) : d = 0 := by
  have hall : (List.range 16).all (fun n ↦ hexDigit (.ofNat n) ≠ 0x30 || n = 0) = true := by decide
  have hn := List.all_eq_true.mp hall d.toNat (List.mem_range.mpr h)
  rw [UInt8.ofNat_toNat, hd] at hn
  exact UInt8.toNat_inj.mp (of_decide_eq_true hn)

theorem length_toHex (bytes : List UInt8) : (toHex bytes).length = bytes.length * 2 := by
  induction bytes with
  | nil => rfl
  | cons b bytes ih =>
      show (toHex bytes).length + 2 = _
      rw [ih, List.length_cons, Nat.add_mul]

/-- The two digits of a byte. -/
theorem digits_lt (b : UInt8) : b / 16 < 16 ∧ b % 16 < 16 := by
  constructor
  · apply UInt8.lt_iff_toNat_lt.mpr
    rw [UInt8.toNat_div]
    exact Nat.div_lt_of_lt_mul b.toNat_lt
  · apply UInt8.lt_iff_toNat_lt.mpr
    rw [UInt8.toNat_mod]
    exact Nat.mod_lt _ (by decide)

theorem isLowerHex_of_mem_toHex {bytes : List UInt8} {u : CodeUnit} (h : u ∈ toHex bytes) :
    isLowerHex u = true := by
  obtain ⟨b, -, hu⟩ := List.mem_flatMap.mp h
  obtain ⟨hhigh, hlow⟩ := digits_lt b
  rcases List.mem_pair.mp hu with rfl | rfl
  · exact isLowerHex_hexDigit hhigh
  · exact isLowerHex_hexDigit hlow

/-- The digits of bytes that are not all zero are not all zero. -/
theorem toHex_ne_zeros {bytes : List UInt8} (h : ∃ b ∈ bytes, b ≠ 0) (n : Nat) :
    toHex bytes ≠ zeros n := by
  obtain ⟨b, hb, hne⟩ := h
  intro heq
  have hzero (d : UInt8) (hd : d < 16) (hmem : hexDigit d ∈ toHex bytes) : d = 0 :=
    eq_zero_of_hexDigit hd (List.eq_of_mem_replicate (heq ▸ hmem))
  obtain ⟨hhigh, hlow⟩ := digits_lt b
  have hdiv := hzero _ hhigh (List.mem_flatMap.mpr ⟨b, hb, List.mem_cons_self⟩)
  have hmod := hzero _ hlow (List.mem_flatMap.mpr ⟨b, hb, List.mem_cons_of_mem _ List.mem_cons_self⟩)
  apply hne
  have hdivmod := Nat.div_add_mod b.toNat 16
  have hq : b.toNat / 16 = 0 := by simpa using congrArg UInt8.toNat hdiv
  have hr : b.toNat % 16 = 0 := by simpa using congrArg UInt8.toNat hmod
  rw [hq, hr] at hdivmod
  exact UInt8.toNat_inj.mp hdivmod.symm

/-- Fresh ids are fields of small digits. -/
theorem RandomBytes.isField {n : Nat} (r : RandomBytes n) : IsField isLowerHex (n * 2) (toHex r.bytes) :=
  ⟨(length_toHex _).trans (congrArg (· * 2) r.length_bytes), fun _ hu ↦ isLowerHex_of_mem_toHex hu⟩

/-! ## Reading and writing -/

theorem isHex_of_isLowerHex {u : CodeUnit} (h : isLowerHex u = true) : isHex u = true :=
  Bool.or_eq_true_iff.mpr (.inl h)

theorem isHex_of_isLowerHex_field {n : Nat} {v : JsString} (h : IsField isLowerHex n v) :
    IsField isHex n v :=
  ⟨h.1, fun u hu ↦ isHex_of_isLowerHex (h.2 u hu)⟩

/-- The fields of a header. -/
structure IsHeader (p : CodeUnit → Bool) (traceId spanId traceFlags : JsString) : Prop where
  trace : IsField p 32 traceId
  span : IsField p 16 spanId
  flags : IsField p 2 traceFlags

theorem IsHeader.isHex {traceId spanId traceFlags : JsString}
    (h : IsHeader isLowerHex traceId spanId traceFlags) : IsHeader isHex traceId spanId traceFlags :=
  ⟨isHex_of_isLowerHex_field h.trace, isHex_of_isLowerHex_field h.span,
    isHex_of_isLowerHex_field h.flags⟩

theorem write_traceparentRegex (traceId spanId traceFlags : JsString) :
    Layout.write traceparentRegex [traceId, spanId, traceFlags] =
      formatTraceparent traceId spanId traceFlags := by
  simp [traceparentRegex, Layout.write, formatTraceparent]

theorem fits_traceparentRegex {traceId spanId traceFlags : JsString} :
    Layout.Fits traceparentRegex [traceId, spanId, traceFlags] ↔
      IsHeader isHex traceId spanId traceFlags := by
  simp only [traceparentRegex, Layout.fits_literal_iff, Layout.fits_field_iff, Layout.fits_nil_iff]
  constructor
  · rintro ⟨_, _, ⟨⟩, htrace, _, _, ⟨⟩, hspan, _, _, ⟨⟩, hflags, -⟩
    exact ⟨htrace, hspan, hflags⟩
  · rintro ⟨htrace, hspan, hflags⟩
    exact ⟨_, _, rfl, htrace, _, _, rfl, hspan, _, _, rfl, hflags, rfl⟩

/-- **`exec` reads what `formatTraceparent` writes, and nothing else.** -/
theorem exec_eq_some_iff {headerValue traceId spanId traceFlags : JsString} :
    exec headerValue = some (traceId, spanId, traceFlags) ↔
      IsHeader isHex traceId spanId traceFlags ∧
        formatTraceparent traceId spanId traceFlags = headerValue := by
  rw [← fits_traceparentRegex, ← write_traceparentRegex, ← Layout.read_eq_some_iff]
  unfold exec
  split
  · rename_i h
    rw [h]
    simp
  · rename_i h
    exact ⟨nofun, fun hread ↦ absurd hread (h _ _ _)⟩

/-! ## What is trimmed -/

/-- A property that no symbol of a text has, checked one by one. -/
theorem forall_eq_false_of_all {p : CodeUnit → Bool} {s : JsString}
    (h : s.all (fun u ↦ !p u) = true) : ∀ u ∈ s, p u = false :=
  fun u hu ↦ Bool.not_eq_eq_eq_not.mp (List.all_eq_true.mp h u hu)

/-- A digit is no white space. -/
theorem isWhitespace_of_isHex {u : CodeUnit} (h : isHex u = true) : isWhitespace u = false := by
  apply Bool.eq_false_iff.mpr
  intro hwhite
  have hmem : u ∈ _ := of_decide_eq_true hwhite
  have hhex : isHex u = false := forall_eq_false_of_all (by decide) u hmem
  rw [h] at hhex
  cases hhex

/-- A text without white space has nothing to trim. -/
theorem trim_of_forall {s : JsString} (h : ∀ u ∈ s, isWhitespace u = false) : trim s = s := by
  have hfront : s.dropWhile isWhitespace = s :=
    List.dropWhile_eq_self_iff.mpr fun hpos hwhite ↦
      Bool.eq_false_iff.mp (h _ (List.getElem_mem hpos)) hwhite
  have hback : s.rdropWhile isWhitespace = s :=
    List.rdropWhile_eq_self_iff.mpr fun hne hwhite ↦
      Bool.eq_false_iff.mp (h _ (List.getLast_mem hne)) hwhite
  rw [trim, hfront]
  exact hback

/-- The symbols of a header. -/
theorem forall_mem_formatTraceparent {P : CodeUnit → Prop} {traceId spanId traceFlags : JsString}
    (hliteral : ∀ u ∈ js "00-", P u) :
    (∀ u ∈ formatTraceparent traceId spanId traceFlags, P u) ↔
      (∀ u ∈ traceId, P u) ∧ (∀ u ∈ spanId, P u) ∧ ∀ u ∈ traceFlags, P u := by
  have hhyphen : ∀ u ∈ js "-", P u := fun u hu ↦
    hliteral u (List.mem_of_mem_drop (i := 2) hu)
  unfold formatTraceparent
  simp only [List.forall_mem_append, and_assoc]
  constructor
  · rintro ⟨-, htrace, -, hspan, -, hflags⟩
    exact ⟨htrace, hspan, hflags⟩
  · rintro ⟨htrace, hspan, hflags⟩
    exact ⟨hliteral, htrace, hhyphen, hspan, hhyphen, hflags⟩

/-- A header as it is written has nothing to trim. -/
theorem trim_formatTraceparent {traceId spanId traceFlags : JsString}
    (h : IsHeader isHex traceId spanId traceFlags) :
    trim (formatTraceparent traceId spanId traceFlags) =
      formatTraceparent traceId spanId traceFlags := by
  apply trim_of_forall
  rw [forall_mem_formatTraceparent (forall_eq_false_of_all (by decide))]
  exact ⟨fun u hu ↦ isWhitespace_of_isHex (h.trace.2 u hu),
    fun u hu ↦ isWhitespace_of_isHex (h.span.2 u hu),
    fun u hu ↦ isWhitespace_of_isHex (h.flags.2 u hu)⟩

/-! ## What is let in -/

/-- `extractOrCreateContext` takes the ids of a header over. -/
def accepts (headerValue : JsString) : Bool :=
  match exec headerValue with
  | some (traceId, spanId, _) => traceId ≠ zeros 32 ∧ spanId ≠ zeros 16
  | none => false

section Context

variable {traceId spanId traceFlags : JsString} {random : RandomIds} {headerInput : HeaderInput}

/-- A header with ids that are not zero. -/
structure IsProper (p : CodeUnit → Bool) (traceId spanId traceFlags : JsString) : Prop
    extends IsHeader p traceId spanId traceFlags where
  trace_ne_zeros : traceId ≠ zeros 32
  span_ne_zeros : spanId ≠ zeros 16

theorem accepts_iff {headerValue : JsString} : accepts headerValue = true ↔
    ∃ traceId spanId traceFlags, IsProper isHex traceId spanId traceFlags ∧
      formatTraceparent traceId spanId traceFlags = headerValue := by
  unfold accepts
  split
  · rename_i traceId spanId traceFlags hexec
    obtain ⟨hheader, hformat⟩ := exec_eq_some_iff.mp hexec
    rw [decide_eq_true_iff]
    constructor
    · rintro ⟨htrace, hspan⟩
      exact ⟨_, _, _, ⟨hheader, htrace, hspan⟩, hformat⟩
    · rintro ⟨traceId', spanId', traceFlags', hproper, hformat'⟩
      have hexec' := exec_eq_some_iff.mpr ⟨hproper.toIsHeader, hformat'⟩
      rw [hexec] at hexec'
      cases hexec'
      exact ⟨hproper.trace_ne_zeros, hproper.span_ne_zeros⟩
  · rename_i hexec
    refine ⟨nofun, ?_⟩
    rintro ⟨traceId, spanId, traceFlags, hproper, hformat⟩
    rw [exec_eq_some_iff.mpr ⟨hproper.toIsHeader, hformat⟩] at hexec
    cases hexec

/-- A header that is accepted is taken over. -/
theorem extractOrCreateContext_of_isProper (h : IsProper isHex traceId spanId traceFlags)
    (hvalue : formatTraceparent traceId spanId traceFlags = headerValue headerInput) :
    extractOrCreateContext random headerInput = .of traceId spanId traceFlags false := by
  rw [extractOrCreateContext, exec_eq_some_iff.mpr ⟨h.toIsHeader, hvalue⟩]
  exact if_pos ⟨h.trace_ne_zeros, h.span_ne_zeros⟩

/-- Any other header is not. -/
theorem extractOrCreateContext_of_not_accepts (h : accepts (headerValue headerInput) = false) :
    extractOrCreateContext random headerInput = createContext random := by
  unfold extractOrCreateContext
  unfold accepts at h
  split
  · rename_i traceId spanId traceFlags hexec
    rw [hexec] at h
    exact if_neg (of_decide_eq_false h)
  · rfl

/-- **A header that was written is read back.** -/
theorem extractOrCreateContext_formatTraceparent (h : IsProper isHex traceId spanId traceFlags) :
    extractOrCreateContext random (.string (formatTraceparent traceId spanId traceFlags)) =
      .of traceId spanId traceFlags false :=
  extractOrCreateContext_of_isProper h (trim_formatTraceparent h.toIsHeader).symm

theorem isField_sampled : IsField isLowerHex 2 (js "01") :=
  ⟨rfl, List.all_eq_true.mp (by decide)⟩

/-- Fresh ids make a header of small digits. -/
theorem isProper_createContext (h : random.NonZero) :
    IsProper isLowerHex (createContext random).traceId (createContext random).spanId
      (createContext random).traceFlags where
  trace := random.trace.isField
  span := random.span.isField
  flags := isField_sampled
  trace_ne_zeros := toHex_ne_zeros h.1 32
  span_ne_zeros := toHex_ne_zeros h.2 16

end Context

/-! ## The round trip -/

/-- A traceparent header of version 00, as W3C Trace Context level 1 has it. -/
def IsTraceparent (s : JsString) : Prop :=
  ∃ traceId parentId traceFlags, IsProper isLowerHex traceId parentId traceFlags ∧
    s = js "00-" ++ traceId ++ js "-" ++ parentId ++ js "-" ++ traceFlags

/-- What a context is for: its header is valid, is read back as the same context, and a span
below it stays in the trace with a valid header of its own. -/
structure RoundTrips (c : Context) : Prop where
  valid : IsTraceparent c.traceparent
  again (random : RandomIds) :
    let c' := extractOrCreateContext random (.string c.traceparent)
    c'.traceId = c.traceId ∧ c'.spanId = c.spanId ∧ c'.traceFlags = c.traceFlags ∧ c'.isNew = false
  child (random : RandomIds) (childRandom : RandomBytes 8) (h : random.NonZero)
      (hchild : childRandom.NonZero) :
    let span := createChildSpan random childRandom c.traceparent
    span.traceId = c.traceId ∧ span.traceFlags = c.traceFlags ∧ IsTraceparent span.traceparent

section RoundTrip

variable {traceId spanId traceFlags : JsString}

theorem isCapital_of_isLowerHex {u : CodeUnit} (h : isLowerHex u = true) : isCapital u = false := by
  simp only [isLowerHex, isCapital, Bool.or_eq_true, Bool.and_eq_true, Bool.and_eq_false_iff,
    decide_eq_true_eq, decide_eq_false_iff_not, UInt16.le_iff_toNat_le, UInt16.reduceToNat] at h ⊢
  omega

theorem isLowerHex_of_isHex {u : CodeUnit} (h : isHex u = true) (hu : isCapital u = false) :
    isLowerHex u = true :=
  (Bool.or_eq_true_iff.mp h).resolve_right (Bool.eq_false_iff.mp hu)

/-- A valid header has the fields that are read from it. -/
theorem isProper_of_isTraceparent (h : IsHeader isHex traceId spanId traceFlags)
    (hvalid : IsTraceparent (formatTraceparent traceId spanId traceFlags)) :
    IsProper isLowerHex traceId spanId traceFlags := by
  obtain ⟨traceId', spanId', traceFlags', hlower, hformat⟩ := hvalid
  have hexec := exec_eq_some_iff.mpr ⟨h, rfl⟩
  rw [exec_eq_some_iff.mpr ⟨hlower.isHex, hformat.symm⟩] at hexec
  cases hexec
  exact hlower

/-- The header of proper ids is valid exactly if none of their digits is a capital letter. -/
theorem isTraceparent_formatTraceparent (h : IsProper isHex traceId spanId traceFlags) :
    IsTraceparent (formatTraceparent traceId spanId traceFlags) ↔
      ∀ u ∈ formatTraceparent traceId spanId traceFlags, isCapital u = false := by
  rw [forall_mem_formatTraceparent (forall_eq_false_of_all (by decide))]
  constructor
  · intro hvalid
    have hlower := isProper_of_isTraceparent h.toIsHeader hvalid
    exact ⟨fun u hu ↦ isCapital_of_isLowerHex (hlower.trace.2 u hu),
      fun u hu ↦ isCapital_of_isLowerHex (hlower.span.2 u hu),
      fun u hu ↦ isCapital_of_isLowerHex (hlower.flags.2 u hu)⟩
  · rintro ⟨htrace, hspan, hflags⟩
    have hfield {n : Nat} {v : JsString} (hv : IsField isHex n v)
        (hnot : ∀ u ∈ v, isCapital u = false) : IsField isLowerHex n v :=
      ⟨hv.1, fun u hu ↦ isLowerHex_of_isHex (hv.2 u hu) (hnot u hu)⟩
    exact ⟨_, _, _, ⟨⟨hfield h.trace htrace, hfield h.span hspan, hfield h.flags hflags⟩,
      h.trace_ne_zeros, h.span_ne_zeros⟩, rfl⟩

theorem IsProper.isHex (h : IsProper isLowerHex traceId spanId traceFlags) :
    IsProper isHex traceId spanId traceFlags :=
  ⟨h.toIsHeader.isHex, h.trace_ne_zeros, h.span_ne_zeros⟩

/-- A context with proper ids round-trips exactly if its header has no capital letter. -/
theorem roundTrips_of_iff (h : IsProper isHex traceId spanId traceFlags) (isNew : Bool) :
    RoundTrips (.of traceId spanId traceFlags isNew) ↔
      ∀ u ∈ formatTraceparent traceId spanId traceFlags, isCapital u = false := by
  rw [← isTraceparent_formatTraceparent h]
  constructor
  · exact RoundTrips.valid
  · intro hvalid
    have hread (random : RandomIds) :
        extractOrCreateContext random (.string (Context.of traceId spanId traceFlags isNew).traceparent) =
          .of traceId spanId traceFlags false :=
      extractOrCreateContext_formatTraceparent h
    refine ⟨hvalid, fun random ↦ ?_, fun random childRandom _ hchild ↦ ?_⟩
    · dsimp only
      rw [hread]
      exact ⟨rfl, rfl, rfl, rfl⟩
    · have hlower := isProper_of_isTraceparent h.toIsHeader hvalid
      have hspan : IsField isLowerHex 16 (generateSpanId childRandom) := childRandom.isField
      have hne : generateSpanId childRandom ≠ zeros 16 := toHex_ne_zeros hchild 16
      dsimp only [createChildSpan]
      rw [hread]
      exact ⟨rfl, rfl, _, _, _, ⟨⟨hlower.trace, hspan, hlower.flags⟩, hlower.trace_ne_zeros, hne⟩, rfl⟩

end RoundTrip

/-- **A context round-trips exactly if no header with a capital letter was accepted.** -/
theorem extractOrCreateContext_roundTrips_iff {random : RandomIds} (h : random.NonZero)
    (headerInput : HeaderInput) :
    RoundTrips (extractOrCreateContext random headerInput) ↔
      (accepts (headerValue headerInput) = true →
        ∀ u ∈ headerValue headerInput, isCapital u = false) := by
  cases haccepts : accepts (headerValue headerInput) with
  | true =>
      obtain ⟨traceId, spanId, traceFlags, hproper, hvalue⟩ := accepts_iff.mp haccepts
      rw [extractOrCreateContext_of_isProper hproper hvalue, roundTrips_of_iff hproper, hvalue]
      exact ⟨fun hnot _ ↦ hnot, fun hnot ↦ hnot rfl⟩
  | false =>
      have hproper := isProper_createContext h
      rw [extractOrCreateContext_of_not_accepts haccepts]
      refine ⟨fun _ ↦ nofun, fun _ ↦ (roundTrips_of_iff hproper.isHex true).mpr ?_⟩
      exact (isTraceparent_formatTraceparent hproper.isHex).mp ⟨_, _, _, hproper, rfl⟩

/-- Random bytes that are all one. -/
def ones : RandomIds := ⟨⟨.replicate 16 1, rfl⟩, ⟨.replicate 8 1, rfl⟩⟩

theorem ones_nonZero : ones.NonZero :=
  ⟨⟨1, List.mem_cons_self, by decide⟩, 1, List.mem_cons_self, by decide⟩

/-- A header between blanks, with small digits. -/
theorem extractOrCreateContext_roundTrips_sample : ones.NonZero ∧ RoundTrips (extractOrCreateContext ones
    (.headers none (some (js " 00-4bf92f3577b34da6a3ce929d0e0e4736-00f067aa0ba902b7-01 ")))) :=
  ⟨ones_nonZero, (extractOrCreateContext_roundTrips_iff ones_nonZero _).mpr fun _ ↦
    forall_eq_false_of_all (by decide +kernel)⟩

/-- The same header with capital letters is taken over as it is. -/
theorem extractOrCreateContext_capital : ones.NonZero ∧ ¬ RoundTrips (extractOrCreateContext ones
    (.string (js "00-4BF92F3577B34DA6A3CE929D0E0E4736-00F067AA0BA902B7-01"))) := by
  refine ⟨ones_nonZero, fun h ↦ ?_⟩
  have hproper : IsProper isHex (js "4BF92F3577B34DA6A3CE929D0E0E4736") (js "00F067AA0BA902B7")
      (js "01") :=
    ⟨⟨⟨rfl, List.all_eq_true.mp (by decide)⟩, ⟨rfl, List.all_eq_true.mp (by decide)⟩,
      ⟨rfl, List.all_eq_true.mp (by decide)⟩⟩, by decide, by decide⟩
  rw [extractOrCreateContext_of_isProper hproper (by decide +kernel), roundTrips_of_iff hproper] at h
  exact absurd (h 0x42 (by decide +kernel)) (by decide)

end CodeArena.Observability.Tracing
