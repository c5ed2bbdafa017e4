import CodeArena.Lib.Utf

/-!
# A text that arrives in pieces

A stream of bytes arrives cut into pieces, and every piece is decoded on its own.
This file says what becomes of valid UTF-8: a character that no cut falls into is
read as it is, and a character with a cut inside is *marred*, that is, read as two
or more U+FFFD (`decode_pieces`).  The cuts fall between characters exactly when no
piece starts with a continuation byte (`Aligned`).

So the pieces decode to the text if and only if they are aligned, and otherwise the
damage shows: U+FFFD occurs more often than in the text, and no other code unit does
(`Marred.count_replacement`, `Marred.count_le`).
-/

namespace CodeArena.Lib.Utf

/-- Pieces decoded one at a time. -/
def decodePieces (pieces : List (List UInt8)) : List Char := pieces.flatMap decode

@[simp] theorem decodePieces_cons (piece : List UInt8) (pieces : List (List UInt8)) :
    decodePieces (piece :: pieces) = decode piece ++ decodePieces pieces := rfl

/-- No piece starts with a continuation byte. -/
def Aligned (pieces : List (List UInt8)) : Prop :=
  ∀ piece ∈ pieces, ∀ b ∈ piece.head?, ¬ Continuation b

instance (pieces : List (List UInt8)) : Decidable (Aligned pieces) :=
  inferInstanceAs (Decidable (∀ piece ∈ pieces, _))

theorem aligned_cons {piece : List UInt8} {pieces : List (List UInt8)} :
    Aligned (piece :: pieces) ↔ (∀ b ∈ piece.head?, ¬ Continuation b) ∧ Aligned pieces :=
  List.forall_mem_cons

/-! ## Marred texts -/

/-- `Marred k cs ds`: the text `ds` is `cs` with `k` of its characters replaced by two
or more U+FFFD each. -/
inductive Marred : Nat → List Char → List Char → Prop
  | nil : Marred 0 [] []
  | keep {k : Nat} {cs ds : List Char} (c : Char) :
      Marred k cs ds → Marred k (c :: cs) (c :: ds)
  | mar {k : Nat} {cs ds : List Char} (c : Char) (n : Nat) :
      Marred k cs ds → Marred (k + 1) (c :: cs) (List.replicate (n + 2) replacement ++ ds)

namespace Marred

variable {k : Nat} {cs ds : List Char}

/-- Characters in front of a marred text are kept. -/
theorem append_left (h : Marred k cs ds) (es : List Char) : Marred k (es ++ cs) (es ++ ds) := by
  induction es with
  | nil => exact h
  | cons e es ih => exact .keep e ih

/-- A text none of whose characters is marred is the text. -/
theorem eq_of_zero (h : Marred 0 cs ds) : ds = cs := by
  generalize hk : 0 = k at h
  induction h with
  | nil => rfl
  | keep c _ ih => rw [ih hk]
  | mar c n _ _ => cases hk

end Marred

/-! ## Code units -/

theorem utf16_ne_replacement {n : Nat} (h : n < 0xFFFD) : UInt16.ofNat n ≠ 0xFFFD := by
  intro he
  have hn := congrArg UInt16.toNat he
  rw [UInt16.toNat_ofNat', Nat.mod_eq_of_lt (by omega)] at hn
  exact absurd hn (Nat.ne_of_lt h)

/-- Among the code units of a scalar value, U+FFFD is at most one. -/
theorem count_utf16EncodeChar_le (c : Char) : (utf16EncodeChar c).count 0xFFFD ≤ 1 := by
  have hrange := char_range c
  unfold utf16EncodeChar
  split
  · exact List.count_le_length
  · have hmod := Nat.mod_lt (c.toNat - 0x10000) (show 0 < 0x400 by simp)
    rw [List.count_cons_of_ne (utf16_ne_replacement (by omega))]
    exact List.count_le_length

@[simp] theorem utf16Encode_replicate (n : Nat) :
    utf16Encode (List.replicate n replacement) = List.replicate n 0xFFFD := by
  induction n with
  | zero => rfl
  | succ n ih =>
      rw [List.replicate_succ, utf16Encode_cons, ih]
      rfl

namespace Marred

variable {k : Nat} {cs ds : List Char}

/-- Every marred character adds a U+FFFD. -/
theorem count_replacement (h : Marred k cs ds) :
    (utf16Encode cs).count 0xFFFD + k ≤ (utf16Encode ds).count 0xFFFD := by
  induction h with
  | nil => exact Nat.le_refl _
  | keep c _ ih =>
      simp only [utf16Encode_cons, List.count_append]
      omega
  | mar c n _ ih =>
      have hc := count_utf16EncodeChar_le c
      simp only [utf16Encode_cons, utf16Encode_append, utf16Encode_replicate,
        List.count_append, List.count_replicate_self]
      omega

/-- Marring adds no other code unit. -/
theorem count_le (h : Marred k cs ds) {u : CodeUnit} (hu : u ≠ 0xFFFD) :
    (utf16Encode ds).count u ≤ (utf16Encode cs).count u := by
  induction h with
  | nil => exact Nat.le_refl _
  | keep c _ ih =>
      simp only [utf16Encode_cons, List.count_append]
      omega
  | mar c n _ ih =>
      have hz : (List.replicate (n + 2) (0xFFFD : CodeUnit)).count u = 0 :=
        List.count_eq_zero.mpr fun hm ↦ hu (List.eq_of_mem_replicate hm)
      simp only [utf16Encode_cons, utf16Encode_append, utf16Encode_replicate,
        List.count_append, hz]
      omega

end Marred

/-! ## Decoding pieces -/

/-- Valid UTF-8 cut in two: between two characters, or inside of one. -/
theorem encode_eq_append {cs : List Char} {l r : List UInt8} (h : encode cs = l ++ r) :
    (∃ cs₁ cs₂, cs = cs₁ ++ cs₂ ∧ l = encode cs₁ ∧ r = encode cs₂) ∨
      ∃ cs₁ c cs₂ p q, cs = cs₁ ++ c :: cs₂ ∧ p ++ q = String.utf8EncodeChar c ∧ p ≠ [] ∧
        q ≠ [] ∧ l = encode cs₁ ++ p ∧ r = q ++ encode cs₂ := by
  induction cs generalizing l with
  | nil =>
      obtain ⟨rfl, rfl⟩ := List.nil_eq_append_iff.mp h
      exact .inl ⟨[], [], rfl, rfl, rfl⟩
  | cons c cs ih =>
      rw [encode_cons] at h
      obtain ⟨as, rfl, hcs⟩ | ⟨bs, hc, rfl⟩ := List.append_eq_append_iff.mp h
      · obtain ⟨cs₁, cs₂, rfl, rfl, rfl⟩ | ⟨cs₁, d, cs₂, p, q, rfl, hpq, hp, hq, rfl, rfl⟩ :=
          ih hcs
        · exact .inl ⟨c :: cs₁, cs₂, rfl, rfl, rfl⟩
        · exact .inr ⟨c :: cs₁, d, cs₂, p, q, rfl, hpq, hp, hq, by simp, rfl⟩
      · by_cases hl : l = []
        · subst hl
          exact .inl ⟨[], c :: cs, rfl, rfl, by rw [encode_cons, hc]; rfl⟩
        by_cases hb : bs = []
        · subst hb
          exact .inl ⟨[c], cs, rfl, by simpa using hc.symm, rfl⟩
        · exact .inr ⟨[], c, cs, l, bs, rfl, hc.symm, hl, hb, rfl, rfl⟩

/-- The first byte of valid UTF-8 is no continuation byte. -/
theorem encode_head {cs : List Char} {b : UInt8} (h : b ∈ (encode cs).head?) :
    ¬ Continuation b := by
  cases cs with
  | nil => cases h
  | cons c cs =>
      obtain ⟨x, rest, hx, hc⟩ := (encodeChar_shape c).head_not_continuation
      rw [encode_cons, hx] at h
      cases h
      exact hc

/-- **Pieces of valid UTF-8**, here with the rest of a character in front of them
whose first part was in an earlier piece. -/
theorem decodePieces_marred (pieces : List (List UInt8)) :
    ∀ (q : List UInt8) (cs : List Char), (∀ b ∈ q, Continuation b) →
      pieces.flatten = q ++ encode cs →
      ∃ k ds, decodePieces pieces = List.replicate q.length replacement ++ ds ∧
        Marred k cs ds ∧ (Aligned pieces ↔ q = [] ∧ k = 0) := by
  induction pieces with
  | nil =>
      intro q cs _ h
      obtain ⟨rfl, hcs⟩ := List.nil_eq_append_iff.mp h
      cases cs with
      | nil => exact ⟨0, [], rfl, .nil, by simp [Aligned]⟩
      | cons c cs => simp at hcs
  | cons piece pieces ih =>
      intro q cs hq h
      rw [List.flatten_cons] at h
      obtain ⟨as, rfl, hrest⟩ | ⟨bs, rfl, hcs⟩ := List.append_eq_append_iff.mp h
      · -- The piece ends within the rest of that character.
        obtain ⟨hpiece, has⟩ := List.forall_mem_append.mp hq
        obtain ⟨k, ds, hds, hm, hal⟩ := ih as cs has hrest
        have hdec := decode_continuations hpiece []
        rw [List.append_nil, decode_nil, List.append_nil] at hdec
        refine ⟨k, ds, ?_, hm, ?_⟩
        · rw [decodePieces_cons, hdec, hds, List.length_append, List.replicate_add,
            List.append_assoc]
        · rw [aligned_cons, hal]
          cases piece with
          | nil => simp
          | cons b t => simpa using fun hb ↦ absurd (hpiece b List.mem_cons_self) hb
      obtain ⟨cs₁, cs₂, rfl, rfl, hrest⟩ | ⟨cs₁, c, cs₂, p, r, rfl, hpr, hp, hr, rfl, hrest⟩ :=
        encode_eq_append hcs
      · -- The piece ends between two characters.
        obtain ⟨k, ds, hds, hm, hal⟩ := ih [] cs₂ (by simp) hrest
        refine ⟨k, cs₁ ++ ds, ?_, hm.append_left cs₁, ?_⟩
        · rw [decodePieces_cons, decode_continuations hq, decode_encode, hds]
          simp
        · rw [aligned_cons, hal]
          cases q with
          | nil => simpa using fun _ ↦ fun b ↦ encode_head
          | cons b t => simpa using fun hb ↦ absurd (hq b List.mem_cons_self) hb
      · -- The piece ends inside of a character.
        obtain ⟨hdec, hcont⟩ := (encodeChar_shape c).decode_left hpr hp hr
        obtain ⟨k, ds, hds, hm, hal⟩ := ih r cs₂ hcont hrest
        obtain ⟨n, hn⟩ := Nat.exists_eq_succ_of_ne_zero (mt List.length_eq_zero_iff.mp hr)
        refine ⟨k + 1, cs₁ ++ (List.replicate (n + 2) replacement ++ ds), ?_,
          (hm.mar c n).append_left cs₁, ?_⟩
        · rw [decodePieces_cons, decode_continuations hq, decode_encode_append, hdec, hds, hn]
          simp [List.replicate_succ]
        · rw [aligned_cons, hal]
          simp [hr]

/-- Pieces of valid UTF-8 decode to the text with some characters marred, and with
none marred exactly when the pieces are aligned. -/
theorem decode_pieces {pieces : List (List UInt8)} {cs : List Char}
    (h : pieces.flatten = encode cs) :
    ∃ k, Marred k cs (decodePieces pieces) ∧ (Aligned pieces ↔ k = 0) := by
  obtain ⟨k, ds, hds, hm, hk⟩ := decodePieces_marred pieces [] cs (by simp) h
  exact ⟨k, by rw [hds]; exact hm, by simpa using hk⟩

end CodeArena.Lib.Utf
