import Mathlib.Data.List.Basic
import Mathlib.Tactic.Common

/-!
# UTF-8 in, UTF-16 out

A byte stream becomes a string by decoding UTF-8 into scalar values and storing
these as UTF-16 code units.  The decoder is the one of the WHATWG Encoding
Standard: it keeps the sequence it is inside of, replaces every maximal invalid
part by U+FFFD, and a sequence cut off by the end of the input is one such part.
It is written one byte at a time (`feed`), which is what lets a cut of the input
be compared with the input in one piece.

The encoder is Lean's own `String.utf8EncodeChar`, so that "valid UTF-8" means
what the standard library means by it.

## The shape of an encoding

A scalar value is encoded as one byte below 0x80, or as a byte that opens a
sequence and continuation bytes that complete it (`encodeChar_shape`).  The decoder
reads an encoding back whole (`Shape.decode_append`), a proper initial part of one as
a single U+FFFD (`Shape.decode_left`), and every continuation byte outside of a
sequence as one more (`decode_continuations`).
-/

namespace CodeArena.Lib.Utf

/-- A UTF-16 code unit. -/
abbrev CodeUnit := UInt16

/-- A string as JavaScript has it: a sequence of UTF-16 code units, surrogates
included, paired or not. -/
abbrev JsString := List CodeUnit

/-- U+FFFD, the replacement character. -/
def replacement : Char := Char.ofNat 0xFFFD

/-- The code units of one scalar value: itself below U+10000, a surrogate pair
above. -/
def utf16EncodeChar (c : Char) : JsString :=
  if c.toNat < 0x10000 then [UInt16.ofNat c.toNat]
  else [UInt16.ofNat (0xD800 + (c.toNat - 0x10000) / 0x400),
    UInt16.ofNat (0xDC00 + (c.toNat - 0x10000) % 0x400)]

/-- The string with given scalar values. -/
def utf16Encode (cs : List Char) : JsString := cs.flatMap utf16EncodeChar

/-- The string of a literal. -/
def js (s : String) : JsString := utf16Encode s.toList

/-- The character of a code unit on its own; a surrogate is replaced. -/
def charOfUnit (u : CodeUnit) : Char :=
  if 0xD800 ≤ u ∧ u < 0xE000 then replacement else Char.ofNat u.toNat

/-- UTF-16 to text.  A surrogate that is not in a pair is replaced. -/
def utf16Decode : JsString → List Char
  | [] => []
  | [u] => [charOfUnit u]
  | u :: v :: s =>
    if (0xD800 ≤ u ∧ u < 0xDC00) ∧ (0xDC00 ≤ v ∧ v < 0xE000) then
      Char.ofNat (0x10000 + (u.toNat - 0xD800) * 0x400 + (v.toNat - 0xDC00)) :: utf16Decode s
    else charOfUnit u :: utf16Decode (v :: s)

/-- The UTF-8 bytes of a sequence of scalar values. -/
def encode (cs : List Char) : List UInt8 := cs.flatMap String.utf8EncodeChar

/-! ## The decoder -/

/-- A sequence the decoder is inside of: how many bytes it is still owed, the
bounds of the next one, and the bits read so far. -/
structure Pending where
  /-- The number of bytes still owed. -/
  owed : Nat
  /-- The least value of the next byte. -/
  lower : Nat
  /-- The greatest value of the next byte. -/
  upper : Nat
  /-- The bits read so far. -/
  bits : Nat
deriving DecidableEq, Repr

/-- What a byte means between two sequences. -/
inductive Lead where
  /-- A sequence of one byte. -/
  | char (c : Char)
  /-- The first byte of a longer sequence. -/
  | opens (p : Pending)
  /-- A byte no sequence starts with. -/
  | invalid
deriving DecidableEq, Repr

/-- Classifies a byte between two sequences. -/
def lead (b : Nat) : Lead :=
  if b < 0x80 then .char (Char.ofNat b)
  else if 0xC2 ≤ b ∧ b ≤ 0xDF then .opens ⟨1, 0x80, 0xBF, b - 0xC0⟩
  else if b = 0xE0 then .opens ⟨2, 0xA0, 0xBF, 0⟩
  else if b = 0xED then .opens ⟨2, 0x80, 0x9F, 0xD⟩
  else if 0xE1 ≤ b ∧ b ≤ 0xEF then .opens ⟨2, 0x80, 0xBF, b - 0xE0⟩
  else if b = 0xF0 then .opens ⟨3, 0x90, 0xBF, 0⟩
  else if b = 0xF4 then .opens ⟨3, 0x80, 0x8F, 4⟩
  else if 0xF1 ≤ b ∧ b ≤ 0xF3 then .opens ⟨3, 0x80, 0xBF, b - 0xF0⟩
  else .invalid

/-- One byte between two sequences. -/
def feedFresh (b : Nat) : List Char × Option Pending :=
  match lead b with
  | .char c => ([c], none)
  | .opens p => ([], some p)
  | .invalid => ([replacement], none)

/-- One byte: the values it completes, and the sequence the decoder is then inside
of.  A byte out of bounds ends the sequence as invalid and is read afresh. -/
def feed : Option Pending → Nat → List Char × Option Pending
  | none, b => feedFresh b
  | some p, b =>
    if p.lower ≤ b ∧ b ≤ p.upper then
      if p.owed ≤ 1 then ([Char.ofNat (p.bits * 64 + (b - 0x80))], none)
      else ([], some ⟨p.owed - 1, 0x80, 0xBF, p.bits * 64 + (b - 0x80)⟩)
    else (replacement :: (feedFresh b).1, (feedFresh b).2)

/-- The values of the bytes, from inside a given sequence. -/
def decodeFrom : Option Pending → List UInt8 → List Char
  | none, [] => []
  | some _, [] => [replacement]
  | p, b :: bs => (feed p b.toNat).1 ++ decodeFrom (feed p b.toNat).2 bs

/-- The scalar values of a byte sequence. -/
def decode (bs : List UInt8) : List Char := decodeFrom none bs

@[simp] theorem decode_nil : decode [] = [] := rfl

@[simp] theorem decodeFrom_cons (p : Option Pending) (b : UInt8) (bs : List UInt8) :
    decodeFrom p (b :: bs) = (feed p b.toNat).1 ++ decodeFrom (feed p b.toNat).2 bs := by
  cases p <;> rfl

@[simp] theorem utf16Encode_append (cs ds : List Char) :
    utf16Encode (cs ++ ds) = utf16Encode cs ++ utf16Encode ds := by
  simp [utf16Encode]

@[simp] theorem utf16Encode_cons (c : Char) (cs : List Char) :
    utf16Encode (c :: cs) = utf16EncodeChar c ++ utf16Encode cs := rfl

@[simp] theorem encode_nil : encode [] = [] := rfl

@[simp] theorem encode_cons (c : Char) (cs : List Char) :
    encode (c :: cs) = String.utf8EncodeChar c ++ encode cs := rfl

/-! ## Leading bytes -/

theorem lead_char {b : Nat} (h : b < 0x80) : lead b = .char (Char.ofNat b) := if_pos h

theorem lead_two {n : Nat} (h : 2 ≤ n) (h' : n < 0x20) :
    lead (n + 0xC0) = .opens ⟨1, 0x80, 0xBF, n⟩ := by
  unfold lead
  rw [if_neg (by omega), if_pos (by omega), Nat.add_sub_cancel]

theorem lead_three {n : Nat} (h : 0 < n) (h' : n < 0x10) (hne : n ≠ 0xD) :
    lead (n + 0xE0) = .opens ⟨2, 0x80, 0xBF, n⟩ := by
  unfold lead
  rw [if_neg (by omega), if_neg (by omega), if_neg (by omega), if_neg (by omega),
    if_pos (by omega), Nat.add_sub_cancel]

theorem lead_four {n : Nat} (h : 0 < n) (h' : n < 4) :
    lead (n + 0xF0) = .opens ⟨3, 0x80, 0xBF, n⟩ := by
  unfold lead
  rw [if_neg (by omega), if_neg (by omega), if_neg (by omega), if_neg (by omega),
    if_neg (by omega), if_neg (by omega), if_neg (by omega), if_pos (by omega),
    Nat.add_sub_cancel]

/-- A continuation byte: no character starts with one. -/
def Continuation (b : UInt8) : Prop := 0x80 ≤ b.toNat ∧ b.toNat ≤ 0xBF

instance (b : UInt8) : Decidable (Continuation b) :=
  inferInstanceAs (Decidable (_ ∧ _))

theorem Continuation.lead {b : UInt8} (h : Continuation b) : lead b.toNat = .invalid := by
  obtain ⟨hl, hu⟩ := h
  unfold Utf.lead
  rw [if_neg (by omega), if_neg (by omega), if_neg (by omega), if_neg (by omega),
    if_neg (by omega), if_neg (by omega), if_neg (by omega), if_neg (by omega)]

/-! ## Completing a sequence -/

/-- The bytes complete the pending sequence to the scalar value `c`. -/
inductive Completes : Pending → List UInt8 → Char → Prop
  | last {p : Pending} {b : UInt8} :
      p.owed ≤ 1 → p.lower ≤ b.toNat → b.toNat ≤ p.upper →
      Completes p [b] (Char.ofNat (p.bits * 64 + (b.toNat - 0x80)))
  | more {p : Pending} {b : UInt8} {bs : List UInt8} {c : Char} :
      1 < p.owed → p.lower ≤ b.toNat → b.toNat ≤ p.upper →
      Completes ⟨p.owed - 1, 0x80, 0xBF, p.bits * 64 + (b.toNat - 0x80)⟩ bs c →
      Completes p (b :: bs) c

/-- Completed, a sequence decodes to its value. -/
theorem Completes.decodeFrom_append {p : Pending} {bs : List UInt8} {c : Char}
    (h : Completes p bs c) (rest : List UInt8) :
    decodeFrom (some p) (bs ++ rest) = c :: decode rest := by
  induction h with
  | last ho hl hu => simp [feed, hl, hu, ho, decode]
  | more ho hl hu _ ih =>
      simp only [List.cons_append, decodeFrom_cons, feed, hl, hu, and_self, if_true,
        if_neg (Nat.not_le.mpr ho), List.nil_append]
      exact ih

/-- Cut off before its last byte, a sequence decodes to one U+FFFD. -/
theorem Completes.decodeFrom_left {p : Pending} {bs : List UInt8} {c : Char}
    (h : Completes p bs c) :
    ∀ {l r : List UInt8}, l ++ r = bs → r ≠ [] → decodeFrom (some p) l = [replacement] := by
  induction h with
  | last _ _ _ =>
      intro l r hlr hr
      cases l with
      | nil => rfl
      | cons x l => simp_all
  | more ho hl hu _ ih =>
      intro l r hlr hr
      cases l with
      | nil => rfl
      | cons x l =>
          obtain ⟨rfl, hrest⟩ := List.cons_eq_cons.mp hlr
          simp only [decodeFrom_cons, feed, hl, hu, and_self, if_true,
            if_neg (Nat.not_le.mpr ho), List.nil_append]
          exact ih hrest hr

/-- How a scalar value is encoded: by one byte, or by a byte that opens a sequence
and continuation bytes that complete it. -/
inductive Shape (c : Char) : List UInt8 → Prop
  | single {b : UInt8} : lead b.toNat = .char c → Shape c [b]
  | sequence {b : UInt8} {p : Pending} {bs : List UInt8} :
      lead b.toNat = .opens p → Completes p bs c → (∀ x ∈ bs, Continuation x) →
      Shape c (b :: bs)

/-! ## Every encoding has that shape -/

theorem toNat_byte {n : Nat} (h : n < 0x100) : (UInt8.ofNat n).toNat = n := by
  rw [UInt8.toNat_ofNat']
  exact Nat.mod_eq_of_lt h

/-- The byte that carries six bits of a scalar value. -/
theorem toNat_continuation (n : Nat) :
    (UInt8.ofNat (n % 0x40 + 0x80)).toNat = n % 0x40 + 0x80 := by
  have h : n % 0x40 < 0x40 := Nat.mod_lt _ (by simp)
  exact toNat_byte (by omega)

/-- It is a continuation byte. -/
theorem continuation_byte (n : Nat) : Continuation (UInt8.ofNat (n % 0x40 + 0x80)) := by
  have h : n % 0x40 < 0x40 := Nat.mod_lt _ (by simp)
  unfold Continuation
  rw [toNat_continuation]
  omega

namespace Completes

theorem of_one {lower upper bits n : Nat} {c : Char}
    (hl : lower ≤ n % 0x40 + 0x80) (hu : n % 0x40 + 0x80 ≤ upper)
    (hc : bits * 64 + n % 0x40 = c.toNat) :
    Completes ⟨1, lower, upper, bits⟩ [UInt8.ofNat (n % 0x40 + 0x80)] c := by
  rw [← toNat_continuation] at hl hu
  have h := last (p := ⟨1, lower, upper, bits⟩) (Nat.le_refl 1) hl hu
  rwa [toNat_continuation, Nat.add_sub_cancel, hc, Char.ofNat_toNat] at h

theorem of_more {owed lower upper bits n : Nat} {bs : List UInt8} {c : Char}
    (hl : lower ≤ n % 0x40 + 0x80) (hu : n % 0x40 + 0x80 ≤ upper)
    (h : Completes ⟨owed + 1, 0x80, 0xBF, bits * 64 + n % 0x40⟩ bs c) :
    Completes ⟨owed + 2, lower, upper, bits⟩ (UInt8.ofNat (n % 0x40 + 0x80) :: bs) c := by
  rw [← toNat_continuation] at hl hu
  refine more (by simp) hl hu ?_
  rwa [toNat_continuation, Nat.add_sub_cancel]

end Completes

/-- The scalar values leave out the surrogates and end at U+10FFFF. -/
theorem char_range (c : Char) :
    c.toNat < 0xD800 ∨ (0xDFFF < c.toNat ∧ c.toNat < 0x110000) := c.valid

/-- The two-byte form. -/
theorem shape_two {c : Char} (h : 0x80 ≤ c.toNat) (h' : c.toNat < 0x800) :
    Shape c [UInt8.ofNat (c.toNat / 64 % 0x20 + 0xC0), UInt8.ofNat (c.toNat % 0x40 + 0x80)] := by
  have hmod := Nat.mod_lt c.toNat (show 0 < 0x40 by simp)
  have hlead := lead_two (n := c.toNat / 64 % 0x20) (by omega) (by omega)
  rw [← toNat_byte (by omega : c.toNat / 64 % 0x20 + 0xC0 < 0x100)] at hlead
  exact .sequence hlead (.of_one (by omega) (by omega) (by omega))
    (List.forall_mem_singleton.mpr (continuation_byte _))

/-- The three-byte form, whichever of its leading bytes it starts with. -/
theorem shape_three {c : Char} {l u : Nat} (h' : c.toNat < 0x10000)
    (hlead : lead (c.toNat / 4096 % 0x10 + 0xE0) =
      .opens ⟨2, l, u, c.toNat / 4096 % 0x10⟩)
    (hl : l ≤ c.toNat / 64 % 0x40 + 0x80) (hu : c.toNat / 64 % 0x40 + 0x80 ≤ u) :
    Shape c [UInt8.ofNat (c.toNat / 4096 % 0x10 + 0xE0),
      UInt8.ofNat (c.toNat / 64 % 0x40 + 0x80), UInt8.ofNat (c.toNat % 0x40 + 0x80)] := by
  have hmod := Nat.mod_lt c.toNat (show 0 < 0x40 by simp)
  rw [← toNat_byte (by omega : c.toNat / 4096 % 0x10 + 0xE0 < 0x100)] at hlead
  refine .sequence hlead (.of_more hl hu (.of_one (by omega) (by omega) (by omega))) ?_
  simp only [List.forall_mem_cons, continuation_byte, List.not_mem_nil, false_implies,
    implies_true, and_self]

/-- The four-byte form, whichever of its leading bytes it starts with. -/
theorem shape_four {c : Char} {l u : Nat}
    (hlead : lead (c.toNat / 262144 % 0x08 + 0xF0) =
      .opens ⟨3, l, u, c.toNat / 262144 % 0x08⟩)
    (hl : l ≤ c.toNat / 4096 % 0x40 + 0x80) (hu : c.toNat / 4096 % 0x40 + 0x80 ≤ u) :
    Shape c [UInt8.ofNat (c.toNat / 262144 % 0x08 + 0xF0),
      UInt8.ofNat (c.toNat / 4096 % 0x40 + 0x80), UInt8.ofNat (c.toNat / 64 % 0x40 + 0x80),
      UInt8.ofNat (c.toNat % 0x40 + 0x80)] := by
  have hrange := char_range c
  have hmod₁ := Nat.mod_lt c.toNat (show 0 < 0x40 by simp)
  have hmod₂ := Nat.mod_lt (c.toNat / 64) (show 0 < 0x40 by simp)
  rw [← toNat_byte (by omega : c.toNat / 262144 % 0x08 + 0xF0 < 0x100)] at hlead
  refine .sequence hlead
    (.of_more hl hu (.of_more (by omega) (by omega) (.of_one (by omega) (by omega) (by omega)))) ?_
  simp only [List.forall_mem_cons, continuation_byte, List.not_mem_nil, false_implies,
    implies_true, and_self]

/-- **Every encoding has the shape of one.** -/
theorem encodeChar_shape (c : Char) : Shape c (String.utf8EncodeChar c) := by
  have hrange := char_range c
  have hdef : c.val.toNat = c.toNat := rfl
  unfold String.utf8EncodeChar
  simp only [hdef]
  split
  · rename_i h
    refine .single ?_
    rw [toNat_byte (by omega), lead_char (by omega), Char.ofNat_toNat]
  split
  · exact shape_two (by omega) (by omega)
  split
  · have hlt : c.toNat < 0x10000 := by omega
    by_cases hE0 : c.toNat / 4096 % 0x10 = 0
    · exact shape_three hlt (by rw [hE0]; rfl) (l := 0xA0) (by omega) (u := 0xBF) (by omega)
    by_cases hED : c.toNat / 4096 % 0x10 = 0xD
    · exact shape_three hlt (by rw [hED]; rfl) (l := 0x80) (by omega) (u := 0x9F) (by omega)
    · exact shape_three hlt (lead_three (by omega) (by omega) hED) (by omega) (by omega)
  · by_cases hF0 : c.toNat / 262144 % 0x08 = 0
    · exact shape_four (by rw [hF0]; rfl) (l := 0x90) (by omega) (u := 0xBF) (by omega)
    by_cases hF4 : c.toNat / 262144 % 0x08 = 4
    · exact shape_four (by rw [hF4]; rfl) (l := 0x80) (by omega) (u := 0x8F) (by omega)
    · exact shape_four (lead_four (by omega) (by omega)) (by omega) (by omega)

/-! ## Reading an encoding -/

namespace Shape

variable {c : Char} {bs : List UInt8}

/-- An encoding is read back whole. -/
theorem decode_append (h : Shape c bs) (rest : List UInt8) :
    decode (bs ++ rest) = c :: decode rest := by
  cases h with
  | single h => simp [decode, feed, feedFresh, h]
  | sequence h hc _ =>
      simp only [decode, List.cons_append, decodeFrom_cons, feed, feedFresh, h, List.nil_append]
      exact hc.decodeFrom_append rest

/-- A proper initial part of an encoding is read as one U+FFFD, and what is left of
the encoding are continuation bytes. -/
theorem decode_left (h : Shape c bs) {l r : List UInt8} (hlr : l ++ r = bs) (hl : l ≠ [])
    (hr : r ≠ []) : decode l = [replacement] ∧ ∀ x ∈ r, Continuation x := by
  cases l with
  | nil => exact absurd rfl hl
  | cons b l =>
      cases h with
      | single _ => simp_all
      | sequence h hc hcont =>
          obtain ⟨rfl, rfl⟩ := List.cons_eq_cons.mp hlr
          refine ⟨?_, fun x hx ↦ hcont x (List.mem_append_right _ hx)⟩
          simp only [decode, decodeFrom_cons, feed, feedFresh, h, List.nil_append]
          exact hc.decodeFrom_left rfl hr

/-- An encoding starts with a byte that is no continuation byte. -/
theorem head_not_continuation (h : Shape c bs) :
    ∃ b rest, bs = b :: rest ∧ ¬ Continuation b := by
  cases h with
  | single h => exact ⟨_, _, rfl, fun hc ↦ by rw [hc.lead] at h; cases h⟩
  | sequence h _ _ => exact ⟨_, _, rfl, fun hc ↦ by rw [hc.lead] at h; cases h⟩

end Shape

/-- Outside of a sequence, continuation bytes are read as one U+FFFD each. -/
theorem decode_continuations {bs : List UInt8} (h : ∀ b ∈ bs, Continuation b)
    (rest : List UInt8) :
    decode (bs ++ rest) = List.replicate bs.length replacement ++ decode rest := by
  induction bs with
  | nil => rfl
  | cons b bs ih =>
      obtain ⟨hb, hbs⟩ := List.forall_mem_cons.mp h
      have hlead : feed none b.toNat = ([replacement], none) := by
        simp [feed, feedFresh, hb.lead]
      rw [List.cons_append, decode, decodeFrom_cons, hlead, List.length_cons,
        List.replicate_succ]
      exact congrArg (replacement :: ·) (ih hbs)

/-- Valid UTF-8 is read back, whatever follows it. -/
theorem decode_encode_append (cs : List Char) (bs : List UInt8) :
    decode (encode cs ++ bs) = cs ++ decode bs := by
  induction cs with
  | nil => rfl
  | cons c cs ih =>
      rw [encode_cons, List.append_assoc, (encodeChar_shape c).decode_append, ih]
      rfl

/-- **Valid UTF-8 is read back.** -/
theorem decode_encode (cs : List Char) : decode (encode cs) = cs := by
  simpa using decode_encode_append cs []

/-! ## Reading UTF-16 -/

/-- A code unit that is no surrogate stands for itself. -/
theorem utf16Decode_cons {u : CodeUnit} (h : ¬ (0xD800 ≤ u ∧ u < 0xE000)) (s : JsString) :
    utf16Decode (u :: s) = Char.ofNat u.toNat :: utf16Decode s := by
  have hu : charOfUnit u = Char.ofNat u.toNat := if_neg h
  cases s with
  | nil => exact congrArg ([·]) hu
  | cons v s =>
      rw [utf16Decode, if_neg, hu]
      rintro ⟨⟨hl, hr⟩, -⟩
      exact h ⟨hl, UInt16.lt_trans hr (by decide)⟩

theorem utf16Decode_encodeChar_append (c : Char) (s : JsString) :
    utf16Decode (utf16EncodeChar c ++ s) = c :: utf16Decode s := by
  have hrange := char_range c
  unfold utf16EncodeChar
  split
  · rename_i hsmall
    have hu : (UInt16.ofNat c.toNat).toNat = c.toNat := by
      rw [UInt16.toNat_ofNat']
      exact Nat.mod_eq_of_lt hsmall
    have hD8 : (0xD800 : UInt16).toNat = 0xD800 := rfl
    have hE0 : (0xE000 : UInt16).toNat = 0xE000 := rfl
    rw [List.singleton_append, utf16Decode_cons, hu, Char.ofNat_toNat]
    rw [UInt16.le_iff_toNat_le, UInt16.lt_iff_toNat_lt]
    omega
  · have hhigh : (UInt16.ofNat (0xD800 + (c.toNat - 0x10000) / 0x400)).toNat =
        0xD800 + (c.toNat - 0x10000) / 0x400 := by
      rw [UInt16.toNat_ofNat']
      exact Nat.mod_eq_of_lt (by omega)
    have hlow : (UInt16.ofNat (0xDC00 + (c.toNat - 0x10000) % 0x400)).toNat =
        0xDC00 + (c.toNat - 0x10000) % 0x400 := by
      rw [UInt16.toNat_ofNat']
      exact Nat.mod_eq_of_lt (by omega)
    have hD8 : (0xD800 : UInt16).toNat = 0xD800 := rfl
    have hDC : (0xDC00 : UInt16).toNat = 0xDC00 := rfl
    have hE0 : (0xE000 : UInt16).toNat = 0xE000 := rfl
    rw [List.cons_append, List.singleton_append, utf16Decode, if_pos, hhigh, hlow]
    · have hvalue : 0x10000 + (0xD800 + (c.toNat - 0x10000) / 0x400 - 0xD800) * 0x400 +
          (0xDC00 + (c.toNat - 0x10000) % 0x400 - 0xDC00) = c.toNat := by omega
      rw [hvalue, Char.ofNat_toNat]
    · simp only [UInt16.le_iff_toNat_le, UInt16.lt_iff_toNat_lt, hhigh, hlow, hD8, hDC, hE0]
      omega

/-- Text is read back, whatever follows it. -/
theorem utf16Decode_utf16Encode_append (cs : List Char) (s : JsString) :
    utf16Decode (utf16Encode cs ++ s) = cs ++ utf16Decode s := by
  induction cs with
  | nil => rfl
  | cons c cs ih =>
      rw [utf16Encode_cons, List.append_assoc, utf16Decode_encodeChar_append, ih, List.cons_append]

/-- **Text is read back** from its code units. -/
theorem utf16Decode_utf16Encode (cs : List Char) : utf16Decode (utf16Encode cs) = cs := by
  have h := utf16Decode_utf16Encode_append cs []
  rwa [List.append_nil, utf16Decode, List.append_nil] at h

end CodeArena.Lib.Utf
