import CodeArena.Observability.Metrics
import CodeArena.Lib.Scan
import CodeArena.Lib.Separated
import Mathlib.Data.List.Infix

/-!
# What `normalizeRoute` leaves of a path

The replacements of ObjectIds and of UUIDs come to one search of the path for both
(`rewrites_replaceIdentifiers`): a UUID may start with the last letter of the `:id` that an
ObjectId has become.  That letter is a hexadecimal digit, and neither replacement looks again at
what it has written, so that an identifier is left where the digits behind one that was found
come to one with that letter (`occurs_replaceIdentifiers_iff`).

Numbers are replaced behind a slash only, so that the segment before the first slash is kept.
-/

namespace CodeArena.Observability

open CodeArena.Lib CodeArena.Lib.Replace

/-- `:id`. -/
def idLabel : Text := ":id".toList

/-- The first replacement of `normalizeRoute`. -/
def replaceObjectIds (path : Text) : Text := replaceAll (classLength objectIdClasses) idLabel path

/-- The second. -/
def replaceUuids (path : Text) : Text := replaceAll (classLength uuidClasses) idLabel path

/-- The third. -/
def replaceNumbers (path : Text) : Text := replaceAll numericLength "/:id".toList path

/-- Both identifiers that are not numbers. -/
def replaceIdentifiers (path : Text) : Text := replaceUuids (replaceObjectIds path)

/-- A path, or the root. -/
def orRoot (path : Text) : Text := if path = [] then ['/'] else path

theorem normalizeRoute_eq (path : Text) :
    normalizeRoute path [] [] = replaceNumbers (replaceIdentifiers (orRoot path)) := by
  unfold normalizeRoute orRoot
  rw [if_neg (not_not.mpr rfl)]
  split
  case isTrue h =>
    rcases h with rfl | rfl
    · decide
    · decide
  case isFalse h =>
    rw [if_neg (fun hnil ↦ h (.inl hnil))]
    rfl

/-! ## One search for both identifiers -/

/-- A UUID starts here, and its last group does not start with 24 digits, so that it outlives
the replacement of ObjectIds. -/
def startsUuid (xs : Text) : Bool :=
  startsWith uuidClasses xs && !startsWith objectIdClasses (xs.drop 24)

/-- An ObjectId starts here, and with the last letter of its `:id` a UUID does. -/
def startsBoth (xs : Text) : Bool :=
  startsWith objectIdClasses xs && startsUuid ('d' :: xs.drop 24)

/-- The length of the identifier that starts here. -/
def identifierLength (xs : Text) : Nat :=
  if startsBoth xs then 59
  else if startsWith objectIdClasses xs then 24
  else if startsUuid xs then 36
  else 0

/-- What becomes of it. -/
def identifierLabel (xs : Text) : Text := if startsBoth xs then ":i:id".toList else idLabel

theorem rewrites_replaceObjectIds :
    Rewrites (classLength objectIdClasses) (fun _ ↦ idLabel) replaceObjectIds :=
  rewrites_replaceAll _ _

theorem rewrites_replaceUuids : Rewrites (classLength uuidClasses) (fun _ ↦ idLabel) replaceUuids :=
  rewrites_replaceAll _ _

theorem rewrites_replaceNumbers : Rewrites numericLength (fun _ ↦ "/:id".toList) replaceNumbers :=
  rewrites_replaceAll _ _

/-- The last hyphen of a UUID, and its last group. -/
theorem startsWith_lastGroup {xs : Text} (h : startsWith uuidClasses xs = true) :
    startsWith (isHyphen :: .replicate 12 isHex) (xs.drop 23) = true := by
  rw [show uuidClasses = (.replicate 8 isHex ++ isHyphen :: .replicate 4 isHex ++
      isHyphen :: .replicate 4 isHex ++ isHyphen :: .replicate 4 isHex) ++
        isHyphen :: .replicate 12 isHex from rfl, startsWith_append, Bool.and_eq_true_iff] at h
  exact h.2

/-- 24 digits that start in a UUID start in its last group, and that starts with 24. -/
theorem startsWith_objectId_of_uuid {xs : Text} {j : Nat} (h : startsWith uuidClasses xs = true)
    (hj : j < 36) (hobject : startsWith objectIdClasses (xs.drop j) = true) :
    startsWith objectIdClasses (xs.drop 24) = true := by
  obtain ⟨c, ys, hdrop, hhyphen, hgroup⟩ := exists_cons_of_startsWith (startsWith_lastGroup h)
  have hys : xs.drop 24 = ys := by
    rw [show 24 = 23 + 1 from rfl, ← List.drop_drop, hdrop]
    rfl
  rcases Nat.lt_or_ge j 24 with hlt | hge
  · -- The last hyphen would be among the digits.
    have hsum : 24 = (23 - j) + (j + 1) := by omega
    rw [objectIdClasses, hsum, startsWith_replicate_add, Bool.and_eq_true_iff, List.drop_drop,
      Nat.add_sub_cancel' (Nat.le_of_lt_succ hlt), hdrop] at hobject
    have hhex : isHex c = true := (Bool.and_eq_true_iff.mp hobject.2).1
    rw [show c = '-' from of_decide_eq_true hhyphen] at hhex
    cases hhex
  · obtain ⟨i, rfl⟩ := Nat.exists_eq_add_of_le hge
    have hi : i ≤ 12 := by omega
    rw [← Nat.add_sub_cancel' hi, startsWith_replicate_add, Bool.and_eq_true_iff] at hgroup
    rw [← List.drop_drop, hys] at hobject
    have hmore : startsWith (.replicate (i + 24) isHex) ys = true := by
      rw [startsWith_replicate_add, Bool.and_eq_true_iff]
      exact ⟨hgroup.1, hobject⟩
    rw [Nat.add_comm, startsWith_replicate_add, Bool.and_eq_true_iff] at hmore
    rw [hys]
    exact hmore.1

theorem objectIdClasses_ne_nil : objectIdClasses ≠ [] := List.cons_ne_nil _ _

theorem uuidClasses_ne_nil : uuidClasses ≠ [] := List.cons_ne_nil _ _

/-- `:id` starts with a character of no identifier. -/
theorem idLabel_head (ps : List (Char → Bool)) (h : ∀ p ∈ ps, p ':' = false) (_xs : Text) :
    ∃ c r, idLabel = c :: r ∧ ∀ p ∈ ps, p c = false :=
  ⟨':', "id".toList, rfl, h⟩

/-- The classes of a UUID after the first. -/
def uuidRest : List (Char → Bool) := uuidClasses.tail

theorem uuidRest_eq_false {c : Char} (hhex : isHex c = false) (hhyphen : isHyphen c = false) :
    ∀ p ∈ uuidRest, p c = false :=
  fun p hp ↦ uuidClasses_eq_false hhex hhyphen p (List.mem_of_mem_tail hp)

/-- Behind any character, a UUID is in the text without ObjectIds exactly if one that outlives
their replacement is in the path. -/
theorem startsWith_uuid_iff (c : Char) (zs : Text) :
    startsWith uuidClasses (c :: replaceObjectIds zs) = true ↔ startsUuid (c :: zs) = true := by
  have hrest := rewrites_replaceObjectIds.startsWith_iff
    (idLabel_head uuidRest (uuidRest_eq_false rfl rfl)) zs
  rw [startsUuid, Bool.and_eq_true_iff, Bool.not_eq_true']
  show (isHex c && startsWith uuidRest (replaceObjectIds zs)) = true ↔
    (isHex c && startsWith uuidRest zs) = true ∧ startsWith objectIdClasses (zs.drop 23) = false
  rw [Bool.and_eq_true_iff, Bool.and_eq_true_iff, hrest, and_assoc]
  refine and_congr_right fun hhex ↦ and_congr_right fun hstart ↦ ?_
  have huuid : startsWith uuidClasses (c :: zs) = true := Bool.and_eq_true_iff.mpr ⟨hhex, hstart⟩
  constructor
  · exact fun h ↦ (classLength_eq_zero_iff objectIdClasses_ne_nil).mp (h 23 (by decide))
  · intro h j hj
    rw [classLength_eq_zero_iff objectIdClasses_ne_nil]
    refine Bool.eq_false_iff.mpr fun hobject ↦ ?_
    have h24 := startsWith_objectId_of_uuid (j := j + 1) huuid (Nat.succ_lt_succ hj) hobject
    rw [List.drop_succ_cons, h] at h24
    cases h24

/-- The step of the replacement of UUIDs where one starts. -/
theorem replaceUuids_of_startsUuid {c : Char} {zs : Text} (h : startsUuid (c :: zs) = true) :
    replaceUuids (c :: replaceObjectIds zs) = idLabel ++ replaceIdentifiers (zs.drop 35) := by
  have hstart := (startsWith_uuid_iff c zs).mpr h
  have hlen : classLength uuidClasses (c :: replaceObjectIds zs) = 35 + 1 :=
    classLength_of_startsWith hstart
  -- No ObjectId starts in the UUID, so that it is the one of the path.
  obtain ⟨x, ys, heq, -, hrest⟩ := exists_cons_of_startsWith hstart
  cases heq
  obtain ⟨hzs, hnot⟩ := (rewrites_replaceObjectIds.startsWith_iff
    (idLabel_head uuidRest (uuidRest_eq_false rfl rfl)) zs).mp hrest
  have hkeep := rewrites_replaceObjectIds.take_append_drop hnot
  have htake : (zs.take 35).length = 35 := List.length_take_of_le (length_le_of_startsWith hzs)
  have hdrop : (replaceObjectIds zs).drop 35 = replaceObjectIds (zs.drop 35) := by
    rw [hkeep]
    exact List.drop_left' htake
  rw [rewrites_replaceUuids.found hlen, hdrop]
  rfl

/-- And where none does. -/
theorem replaceUuids_of_not_startsUuid {c : Char} {zs : Text} (h : startsUuid (c :: zs) = false) :
    replaceUuids (c :: replaceObjectIds zs) = c :: replaceIdentifiers zs := by
  apply rewrites_replaceUuids.skip
  rw [classLength_eq_zero_iff uuidClasses_ne_nil, ← Bool.not_eq_true, startsWith_uuid_iff, h]
  exact Bool.false_ne_true

/-- No UUID starts with the first two characters of `:id`. -/
theorem replaceUuids_idLabel (ys : Text) :
    replaceUuids (idLabel ++ ys) = ':' :: 'i' :: replaceUuids ('d' :: ys) := by
  have hcolon : classLength uuidClasses (idLabel ++ ys) = 0 := rfl
  have hi : classLength uuidClasses ('i' :: 'd' :: ys) = 0 := rfl
  exact (rewrites_replaceUuids.skip hcolon).trans
    (congrArg (':' :: ·) (rewrites_replaceUuids.skip hi))

/-- **Both replacements come to one.** -/
theorem rewrites_replaceIdentifiers :
    Rewrites identifierLength identifierLabel replaceIdentifiers where
  nil := rfl
  skip {x xs} h := by
    unfold identifierLength at h
    split at h
    case isTrue => cases h
    split at h
    case isTrue => cases h
    split at h
    case isTrue => cases h
    case isFalse hobject huuid =>
      rw [replaceIdentifiers, rewrites_replaceObjectIds.skip
        ((classLength_eq_zero_iff objectIdClasses_ne_nil).mpr (Bool.eq_false_iff.mpr hobject))]
      exact replaceUuids_of_not_startsUuid (Bool.eq_false_iff.mpr huuid)
  found {x xs n} h := by
    have hfound (hobject : startsWith objectIdClasses (x :: xs) = true) :
        replaceIdentifiers (x :: xs) =
          ':' :: 'i' :: replaceUuids ('d' :: replaceObjectIds (xs.drop 23)) := by
      have hlen : classLength objectIdClasses (x :: xs) = 23 + 1 := classLength_of_startsWith hobject
      rw [replaceIdentifiers, rewrites_replaceObjectIds.found hlen]
      exact replaceUuids_idLabel _
    unfold identifierLength at h
    unfold identifierLabel
    split at h
    case isTrue hboth =>
      obtain ⟨hobject, huuid⟩ := Bool.and_eq_true_iff.mp hboth
      have hstep : replaceUuids ('d' :: replaceObjectIds (xs.drop 23)) = _ :=
        replaceUuids_of_startsUuid huuid
      cases h
      rw [if_pos hboth, hfound hobject, hstep, List.drop_drop]
      rfl
    case isFalse hboth =>
      rw [if_neg hboth]
      split at h
      case isTrue hobject =>
        have huuid : startsUuid ('d' :: xs.drop 23) = false :=
          Bool.eq_false_iff.mpr fun huuid ↦ hboth (Bool.and_eq_true_iff.mpr ⟨hobject, huuid⟩)
        cases h
        rw [hfound hobject, replaceUuids_of_not_startsUuid huuid]
        rfl
      case isFalse hobject =>
        split at h
        case isTrue huuid =>
          cases h
          rw [replaceIdentifiers, rewrites_replaceObjectIds.skip
            ((classLength_eq_zero_iff objectIdClasses_ne_nil).mpr (Bool.eq_false_iff.mpr hobject))]
          exact replaceUuids_of_startsUuid huuid
        case isFalse => cases h

/-! ## The identifiers that are left -/

/-- The classes of an ObjectId and those of a UUID. -/
inductive IsIdentifier : List (Char → Bool) → Prop
  | objectId : IsIdentifier objectIdClasses
  | uuid : IsIdentifier uuidClasses

/-- Behind an identifier that the search in a path finds, and with the last letter of its
`:id`, another one starts, in which the search finds none. -/
def Joins (path : Text) : Prop :=
  ∃ ps xs, IsIdentifier ps ∧ Follows identifierLength path xs ∧
    startsWith ps ('d' :: xs) = true ∧ Unmatched identifierLength (ps.length - 1) xs

namespace IsIdentifier

variable {ps : List (Char → Bool)} {c : Char} {xs : Text}

/-- An identifier starts with two digits, and has nothing but digits and hyphens. -/
theorem exists_eq (h : IsIdentifier ps) : ∃ qs, ps = isHex :: isHex :: qs := by
  cases h with
  | objectId => exact ⟨_, rfl⟩
  | uuid => exact ⟨_, rfl⟩

theorem eq_false (h : IsIdentifier ps) (hhex : isHex c = false) (hhyphen : isHyphen c = false) :
    ∀ p ∈ ps, p c = false := by
  cases h with
  | objectId => exact objectIdClasses_eq_false hhex
  | uuid => exact uuidClasses_eq_false hhex hhyphen

theorem startsWith_eq_false (h : IsIdentifier ps) (hhex : isHex c = false) :
    startsWith ps (c :: xs) = false := by
  obtain ⟨qs, rfl⟩ := h.exists_eq
  show (isHex c && _) = false
  rw [hhex, Bool.false_and]

end IsIdentifier

theorem identifierLength_ne_zero {xs : Text} (h : startsWith objectIdClasses xs = true) :
    identifierLength xs ≠ 0 := by
  unfold identifierLength
  rw [if_pos h]
  split
  · exact nofun
  · exact nofun

theorem identifierLength_eq_zero {xs : Text} (hobject : startsWith objectIdClasses xs = false)
    (huuid : startsUuid xs = false) : identifierLength xs = 0 := by
  rw [identifierLength, startsBoth, hobject, huuid]
  rfl

/-- The search finds something in every identifier. -/
theorem IsIdentifier.not_unmatched {ps : List (Char → Bool)} {xs : Text} (h : IsIdentifier ps) (hstart : startsWith ps xs = true) :
    ¬ Unmatched identifierLength ps.length xs := by
  intro hnot
  cases h with
  | objectId => exact identifierLength_ne_zero hstart (hnot 0 (by decide))
  | uuid =>
      have hlast : startsWith objectIdClasses (xs.drop 24) = false :=
        Bool.eq_false_iff.mpr fun hys ↦ identifierLength_ne_zero hys (hnot 24 (by decide))
      have huuid : startsUuid xs = true := by
        rw [startsUuid, hstart, hlast]
        rfl
      have hzero : identifierLength xs = 0 := hnot 0 (by decide)
      unfold identifierLength at hzero
      rw [if_pos huuid] at hzero
      split at hzero
      · cases hzero
      · split at hzero <;> cases hzero

/-- What stands at the end of a label: nothing, its last letter, or something that starts with
no digit. -/
theorem suffix_label {label r : Text}
    (hlabel : label.tails.all (fun r ↦
      r = [] || r = ['d'] || (r.head?).all (fun c ↦ !isHex c)) = true) (h : r <:+ label) :
    r = [] ∨ r = ['d'] ∨ ∃ c rest, r = c :: rest ∧ isHex c = false := by
  have hr := List.all_eq_true.mp hlabel r ((List.mem_tails _ _).mpr h)
  simp only [Bool.or_eq_true, decide_eq_true_eq] at hr
  rcases hr with (hr | hr) | hr
  · exact .inl hr
  · exact .inr (.inl hr)
  · cases r with
    | nil => exact .inl rfl
    | cons c rest => exact .inr (.inr ⟨c, rest, rfl, (Bool.not_eq_true' _).mp hr⟩)

theorem suffix_identifierLabel {r xs : Text} (h : r <:+ identifierLabel xs) :
    r = [] ∨ r = ['d'] ∨ ∃ c rest, r = c :: rest ∧ isHex c = false := by
  unfold identifierLabel at h
  split at h
  · exact suffix_label (by decide) h
  · exact suffix_label (by decide) h

theorem identifierLabel_eq_cons (xs : Text) : ∃ r, identifierLabel xs = ':' :: r := by
  unfold identifierLabel
  split
  · exact ⟨"i:id".toList, rfl⟩
  · exact ⟨"id".toList, rfl⟩

theorem identifierLabel_head {ps : List (Char → Bool)} (h : ∀ p ∈ ps, p ':' = false) (xs : Text) :
    ∃ c r, identifierLabel xs = c :: r ∧ ∀ p ∈ ps, p c = false := by
  obtain ⟨r, hr⟩ := identifierLabel_eq_cons xs
  exact ⟨':', r, hr, h⟩

theorem singleton_suffix_identifierLabel (xs : Text) : ['d'] <:+ identifierLabel xs := by
  unfold identifierLabel
  split
  · exact ⟨":i:i".toList, rfl⟩
  · exact ⟨":i".toList, rfl⟩

/-- An identifier that both replacements leave starts with the last letter of an `:id`. -/
theorem exists_suffix_of_follows {ps : List (Char → Bool)} {path xs : Text} (h : IsIdentifier ps)
    (hxs : Follows identifierLength path xs) (hstart : startsWith ps ('d' :: xs) = true)
    (hnot : Unmatched identifierLength (ps.length - 1) xs) :
    'd' :: replaceIdentifiers xs <:+ replaceIdentifiers path ∧
      startsWith ps ('d' :: replaceIdentifiers xs) = true := by
  have hcolon : ∀ p ∈ ps, p ':' = false := h.eq_false rfl rfl
  obtain ⟨qs, rfl⟩ := h.exists_eq
  obtain ⟨z, zs, n, hreach, hlen, rfl⟩ := hxs
  constructor
  · exact rewrites_replaceIdentifiers.suffix_iff.mpr
      (.inr ⟨z, zs, n, ['d'], hreach, hlen, singleton_suffix_identifierLabel _, rfl⟩)
  · have hrest := rewrites_replaceIdentifiers.startsWith_iff
      (identifierLabel_head fun p (hp : p ∈ isHex :: qs) ↦ hcolon p (List.mem_cons_of_mem _ hp))
    exact Bool.and_eq_true_iff.mpr ⟨rfl, (hrest _).mpr ⟨(Bool.and_eq_true_iff.mp hstart).2, hnot⟩⟩

/-- **The identifiers that both replacements leave.** -/
theorem occurs_replaceIdentifiers_iff {ps : List (Char → Bool)} (h : IsIdentifier ps) (path : Text) :
    Occurs ps (replaceIdentifiers path) ↔ ∃ xs, Follows identifierLength path xs ∧
      startsWith ps ('d' :: xs) = true ∧ Unmatched identifierLength (ps.length - 1) xs := by
  have hcolon : ∀ p ∈ ps, p ':' = false := h.eq_false rfl rfl
  have hkept (ys : Text) : startsWith ps (replaceIdentifiers ys) = false := by
    refine Bool.eq_false_iff.mpr fun hstart ↦ ?_
    obtain ⟨hys, hnot⟩ :=
      (rewrites_replaceIdentifiers.startsWith_iff (identifierLabel_head hcolon) ys).mp hstart
    exact h.not_unmatched hys hnot
  constructor
  · rintro ⟨s, hs, hstart⟩
    rcases rewrites_replaceIdentifiers.suffix_iff.mp hs with
      ⟨ys, -, rfl⟩ | ⟨z, zs, n, r, hreach, hlen, hr, rfl⟩
    · rw [hkept] at hstart
      cases hstart
    · rcases suffix_identifierLabel hr with rfl | rfl | ⟨c, r, rfl, hhex⟩
      · rw [List.nil_append, hkept] at hstart
        cases hstart
      · obtain ⟨qs, rfl⟩ := h.exists_eq
        have hrest := rewrites_replaceIdentifiers.startsWith_iff
          (identifierLabel_head fun p (hp : p ∈ isHex :: qs) ↦ hcolon p (List.mem_cons_of_mem _ hp))
        obtain ⟨hzs, hnot⟩ := (hrest _).mp (Bool.and_eq_true_iff.mp hstart).2
        exact ⟨zs.drop n, ⟨z, zs, n, hreach, hlen, rfl⟩, hzs, hnot⟩
      · rw [List.cons_append, h.startsWith_eq_false hhex] at hstart
        cases hstart
  · rintro ⟨xs, hxs, hstart, hnot⟩
    obtain ⟨hsuffix, hocc⟩ := exists_suffix_of_follows h hxs hstart hnot
    exact ⟨_, hsuffix, hocc⟩

/-- Nothing is left exactly if no identifiers join. -/
theorem joins_iff (path : Text) :
    Joins path ↔ ∃ ps, IsIdentifier ps ∧ Occurs ps (replaceIdentifiers path) := by
  constructor
  · rintro ⟨ps, xs, hps, hxs⟩
    exact ⟨ps, hps, (occurs_replaceIdentifiers_iff hps path).mpr ⟨xs, hxs⟩⟩
  · rintro ⟨ps, hps, hoccurs⟩
    obtain ⟨xs, hxs⟩ := (occurs_replaceIdentifiers_iff hps path).mp hoccurs
    exact ⟨ps, xs, hps, hxs⟩

/-! ## Numbers -/

/-- A text ends here, or goes on with a slash. -/
def Stops (rest : Text) : Prop := ∀ c ∈ rest.head?, c = '/'

/-- `\d+`, a whole segment. -/
def isNumeric (segment : Text) : Bool := segment ≠ [] && segment.all Char.isDigit

/-- The part of a path before its first slash. -/
def firstSegment (path : Text) : Text := path.takeWhile (· ≠ '/')

theorem Stops.eq (h : Stops rest) : rest = [] ∨ ∃ r, rest = '/' :: r := by
  cases rest with
  | nil => exact .inl rfl
  | cons c r =>
      cases h c rfl
      exact .inr ⟨r, rfl⟩

section Segments

variable {s rest t : Text} {c : Char} {n : Nat}

theorem slash_not_mem_firstSegment (t : Text) : '/' ∉ firstSegment t := by
  intro h
  have hne := List.mem_takeWhile_imp (p := fun c ↦ decide (c ≠ '/')) h
  exact of_decide_eq_true hne rfl

/-- A path is its first segment, and what stops it. -/
theorem exists_eq_firstSegment_append (t : Text) : ∃ rest, Stops rest ∧ t = firstSegment t ++ rest := by
  refine ⟨t.dropWhile (· ≠ '/'), fun c hc ↦ ?_, List.takeWhile_append_dropWhile.symm⟩
  have hnot := List.head?_dropWhile_not (· ≠ '/') t
  rw [hc] at hnot
  exact not_not.mp (of_decide_eq_false hnot)

theorem firstSegment_append (hs : '/' ∉ s) (h : Stops rest) : firstSegment (s ++ rest) = s := by
  have hkeep : ∀ c ∈ s, decide (c ≠ '/') = true := fun c hc ↦
    decide_eq_true fun heq ↦ hs (heq ▸ hc)
  rw [firstSegment, List.takeWhile_append_of_pos hkeep]
  rcases h.eq with rfl | ⟨r, rfl⟩
  · exact List.append_nil s
  · exact List.append_nil s

/-- Induction on the segments of a path. -/
@[elab_as_elim]
theorem segmentInduction {motive : Text → Prop} (last : ∀ s, '/' ∉ s → motive s)
    (segment : ∀ s r, '/' ∉ s → motive r → motive (s ++ '/' :: r)) (t : Text) : motive t := by
  induction hn : t.length using Nat.strongRecOn generalizing t with
  | ind _ ih =>
      subst hn
      obtain ⟨rest, hstops, heq⟩ := exists_eq_firstSegment_append t
      have hs := slash_not_mem_firstSegment t
      rcases hstops.eq with rfl | ⟨r, rfl⟩
      · rw [heq, List.append_nil]
        exact last _ hs
      · have hlt : r.length < t.length := by
          rw [heq, List.length_append]
          exact Nat.lt_add_left _ (Nat.lt_succ_self _)
        rw [heq]
        exact segment _ r hs (ih _ hlt r rfl)

/-! ### The match of a number -/

theorem numericLength_of_ne (h : c ≠ '/') (cs : Text) : numericLength (c :: cs) = 0 := by
  unfold numericLength
  split
  case h_1 heq =>
    cases heq
    exact absurd rfl h
  case h_2 => rfl

/-- Behind a slash, a segment is matched exactly if it is a number. -/
theorem numericLength_slash (hs : '/' ∉ s) (h : Stops rest) :
    numericLength ('/' :: (s ++ rest)) = if isNumeric s then s.length + 1 else 0 := by
  have hrest : rest.takeWhile Char.isDigit = [] := by
    rcases h.eq with rfl | ⟨r, rfl⟩ <;> rfl
  show (if (s ++ rest).takeWhile Char.isDigit ≠ [] ∧ _ then _ else 0) = _
  rw [List.takeWhile_append, hrest, List.append_nil]
  split
  case isTrue hlen =>
    have hall : s.all Char.isDigit = true := by
      rw [List.all_eq_true]
      intro c hc
      rw [← (List.takeWhile_prefix (p := Char.isDigit) (l := s)).eq_of_length hlen] at hc
      exact List.mem_takeWhile_imp hc
    have hhead : (rest.head?).all (· = '/') = true := by
      rcases h.eq with rfl | ⟨r, rfl⟩ <;> rfl
    rw [List.drop_left, hhead, isNumeric, hall, Bool.and_true]
    simp
  case isFalse hlen =>
    have hdrop : (s ++ rest).drop (s.takeWhile Char.isDigit).length =
        s.dropWhile Char.isDigit ++ rest := by
      have hsplit : s ++ rest = s.takeWhile Char.isDigit ++ (s.dropWhile Char.isDigit ++ rest) := by
        rw [← List.append_assoc, List.takeWhile_append_dropWhile]
      rw [hsplit, List.drop_left]
    obtain ⟨c, r, hr⟩ : ∃ c r, s.dropWhile Char.isDigit = c :: r := by
      apply List.exists_cons_of_ne_nil
      intro hnil
      apply hlen
      rw [List.takeWhile_eq_self_iff.mpr (List.dropWhile_eq_nil_iff.mp hnil)]
    have hc : c ∈ s := (List.dropWhile_suffix _).subset (hr ▸ List.mem_cons_self)
    have hdigit : c.isDigit = false := by
      have hnot := List.head?_dropWhile_not Char.isDigit s
      rw [hr] at hnot
      exact hnot
    have hnumeric : isNumeric s = false := by
      rw [isNumeric, Bool.and_eq_false_iff]
      refine .inr (Bool.eq_false_iff.mpr fun hall ↦ ?_)
      rw [List.all_eq_true.mp hall c hc] at hdigit
      cases hdigit
    have hslash : c ≠ '/' := fun heq ↦ hs (heq ▸ hc)
    rw [hdrop, hr, hnumeric]
    simp [hslash]

/-- What a segment behind a slash becomes. -/
def numberLabel (s : Text) : Text := if isNumeric s then idLabel else s

theorem unmatched_segment (hs : '/' ∉ s) : Unmatched numericLength s.length (s ++ rest) := by
  intro j hj
  obtain ⟨c, r, hr⟩ := List.exists_cons_of_ne_nil
    (List.ne_nil_of_length_pos (List.length_drop ▸ Nat.sub_pos_of_lt hj : 0 < (s.drop j).length))
  have hc : c ∈ s := List.mem_of_mem_drop (hr ▸ List.mem_cons_self)
  rw [List.drop_append_of_le_length (Nat.le_of_lt hj), hr]
  exact numericLength_of_ne (fun heq ↦ hs (heq ▸ hc)) _

theorem replaceNumbers_segment (hs : '/' ∉ s) : replaceNumbers (s ++ rest) = s ++ replaceNumbers rest :=
  rewrites_replaceNumbers.append (unmatched_segment hs)

/-- The step of the third replacement. -/
theorem replaceNumbers_slash (hs : '/' ∉ s) (h : Stops rest) :
    replaceNumbers ('/' :: (s ++ rest)) = '/' :: numberLabel s ++ replaceNumbers rest := by
  have hlen := numericLength_slash hs h
  unfold numberLabel
  split at hlen
  case isTrue hs' =>
    rw [if_pos hs', rewrites_replaceNumbers.found hlen, List.drop_left]
    rfl
  case isFalse hs' =>
    rw [if_neg hs', rewrites_replaceNumbers.skip hlen, replaceNumbers_segment hs]
    rfl

end Segments

/-! ## The segments that are left -/

section Left

variable {ps : List (Char → Bool)} {s t : Text} {c : Char}

theorem slash_not_mem_numberLabel (hs : '/' ∉ s) : '/' ∉ numberLabel s := by
  unfold numberLabel
  split
  · decide
  · exact hs

theorem isNumeric_numberLabel (s : Text) : isNumeric (numberLabel s) = false := by
  unfold numberLabel
  split
  case isTrue => decide
  case isFalse h => exact Bool.eq_false_iff.mpr h

theorem stops_slash (r : Text) : Stops ('/' :: r) := by
  rintro c ⟨⟩
  rfl

theorem replaceNumbers_slash_eq (t : Text) : replaceNumbers ('/' :: t) =
    '/' :: ['/'].intercalate ((t.splitOn '/').map numberLabel) := by
  induction t using segmentInduction with
  | last s hs =>
      have hstop : Stops [] := nofun
      have hstep := replaceNumbers_slash hs hstop
      rw [List.append_nil] at hstep
      rw [hstep, List.splitOn_eq_singleton hs, List.map_singleton, List.intercalate_singleton]
      exact List.append_nil _
  | segment s r hs ih =>
      rw [replaceNumbers_slash hs (stops_slash r), ih, List.splitOn_append_cons_self_of_not_mem hs,
        List.map_cons, List.intercalate_cons_of_ne_nil
          (mt List.map_eq_nil_iff.mp (List.splitOn_ne_nil '/' r))]
      simp

theorem splitOn_append {rest : Text} (hs : '/' ∉ s) (h : Stops rest) :
    (s ++ rest).splitOn '/' = s :: ((s ++ rest).splitOn '/').tail := by
  rcases h.eq with rfl | ⟨r, rfl⟩
  · rw [List.append_nil, List.splitOn_eq_singleton hs]
    rfl
  · rw [List.splitOn_append_cons_self_of_not_mem hs]
    rfl

theorem splitOn_replaceNumbers_append {rest : Text} (hs : '/' ∉ s) (h : Stops rest) :
    (replaceNumbers (s ++ rest)).splitOn '/' =
      s :: ((s ++ rest).splitOn '/').tail.map numberLabel := by
  rw [replaceNumbers_segment hs]
  rcases h.eq with rfl | ⟨r, rfl⟩
  · rw [rewrites_replaceNumbers.nil, List.append_nil, List.splitOn_eq_singleton hs]
    rfl
  · have hlabels : ∀ l ∈ (r.splitOn '/').map numberLabel, '/' ∉ l := by
      intro l hl
      obtain ⟨s', hs', rfl⟩ := List.mem_map.mp hl
      exact slash_not_mem_numberLabel (Separated.mem_splitOn hs').1
    rw [replaceNumbers_slash_eq, List.splitOn_append_cons_self_of_not_mem hs,
      List.splitOn_append_cons_self_of_not_mem hs, List.splitOn_intercalate '/' hlabels
        (mt List.map_eq_nil_iff.mp (List.splitOn_ne_nil '/' r))]
    rfl

/-- **The segments after the third replacement.** -/
theorem splitOn_replaceNumbers (t : Text) : (replaceNumbers t).splitOn '/' =
    firstSegment t :: (t.splitOn '/').tail.map numberLabel := by
  obtain ⟨rest, hstops, heq⟩ := exists_eq_firstSegment_append t
  have hsplit := splitOn_replaceNumbers_append (slash_not_mem_firstSegment t) hstops
  rwa [← heq] at hsplit

/-- A number is left exactly if it is the first segment. -/
theorem forall_isNumeric_replaceNumbers (t : Text) :
    (∀ s ∈ (replaceNumbers t).splitOn '/', isNumeric s = false) ↔
      isNumeric (firstSegment t) = false := by
  rw [splitOn_replaceNumbers, List.forall_mem_cons]
  refine and_iff_left fun s hs ↦ ?_
  obtain ⟨s', -, rfl⟩ := List.mem_map.mp hs
  exact isNumeric_numberLabel s'

/-- A path without numbers is kept. -/
theorem replaceNumbers_eq_self (h : ∀ s ∈ t.splitOn '/', isNumeric s = false) :
    replaceNumbers t = t := by
  have hfirst : t.splitOn '/' = firstSegment t :: (t.splitOn '/').tail := by
    obtain ⟨rest, hstops, heq⟩ := exists_eq_firstSegment_append t
    have hsplit := splitOn_append (slash_not_mem_firstSegment t) hstops
    rwa [← heq] at hsplit
  have hlabels : (t.splitOn '/').tail.map numberLabel = (t.splitOn '/').tail := by
    refine (List.map_congr_left fun s hs ↦ ?_).trans (List.map_id _)
    exact if_neg (Bool.eq_false_iff.mp (h s (List.mem_of_mem_tail hs)))
  calc replaceNumbers t
      = ['/'].intercalate ((replaceNumbers t).splitOn '/') := (List.intercalate_splitOn '/').symm
    _ = ['/'].intercalate (t.splitOn '/') := by rw [splitOn_replaceNumbers, hlabels, ← hfirst]
    _ = t := List.intercalate_splitOn '/'

/-- Behind a number there is a slash or nothing. -/
theorem stops_of_numericLength {cs : Text} {n : Nat} (h : numericLength (c :: cs) = n + 1) :
    Stops (cs.drop n) := by
  unfold numericLength at h
  split at h
  case h_1 cs' heq =>
    cases heq
    dsimp only at h
    split at h
    case isTrue hstop =>
      cases h
      intro a ha
      have hall := hstop.2
      rw [Option.mem_def.mp ha] at hall
      exact of_decide_eq_true hall
    case isFalse => cases h
  case h_2 => cases h

/-- The third replacement makes no identifier. -/
theorem occurs_of_occurs_replaceNumbers (h : IsIdentifier ps) (hoccurs : Occurs ps (replaceNumbers t)) :
    Occurs ps t := by
  have hslash : ∀ p ∈ ps, p '/' = false := h.eq_false rfl rfl
  have hkept {qs : List (Char → Bool)} (hqs : ∀ p ∈ qs, p '/' = false) (ys : Text) :=
    rewrites_replaceNumbers.startsWith_iff (fun _ ↦ ⟨'/', ":id".toList, rfl, hqs⟩) ys
  obtain ⟨s, hs, hstart⟩ := hoccurs
  rcases rewrites_replaceNumbers.suffix_iff.mp hs with
    ⟨ys, hreach, rfl⟩ | ⟨z, zs, n, r, hreach, hlen, hr, rfl⟩
  · exact ⟨ys, hreach.suffix, ((hkept hslash ys).mp hstart).1⟩
  · rcases suffix_label (by decide) hr with rfl | rfl | ⟨c, r, rfl, hhex⟩
    · have hreach' := hreach.trans (.found hlen .refl)
      exact ⟨zs.drop n, hreach'.suffix, ((hkept hslash _).mp hstart).1⟩
    · -- Behind the number there is no digit.
      obtain ⟨qs, rfl⟩ := h.exists_eq
      have hrest := (hkept (fun p (hp : p ∈ isHex :: qs) ↦ hslash p (List.mem_cons_of_mem _ hp)) _).mp
        (Bool.and_eq_true_iff.mp hstart).2
      obtain ⟨c, r, hdrop, hhex, -⟩ := exists_cons_of_startsWith hrest.1
      have hc := stops_of_numericLength hlen
      rw [hdrop] at hc
      cases hc c rfl
      cases hhex
    · rw [List.cons_append, h.startsWith_eq_false hhex] at hstart
      cases hstart

/-- The search for numbers comes to every suffix that starts with no slash and no digit. -/
theorem reaches_of_suffix {rest : Text} (hslash : c ≠ '/') (hdigit : c.isDigit = false)
    (h : c :: rest <:+ t) : Reaches numericLength t (c :: rest) := by
  induction t using searchInduction numericLength with
  | nil => cases List.suffix_nil.mp h
  | skip x xs hlen ih =>
      rcases List.suffix_cons_iff.mp h with heq | h
      · rw [heq]
        exact .refl
      · exact .skip hlen (ih h)
  | found x xs n hlen ih =>
      rcases List.suffix_cons_iff.mp h with heq | h
      · rw [heq]
        exact .refl
      · rw [← List.take_append_drop n xs] at h
        rcases suffix_append_iff.mp h with h | ⟨digits, hdigits, heq⟩
        · exact .found hlen (ih h)
        · cases digits with
          | nil => exact .found hlen (heq ▸ .refl)
          | cons d digits =>
              obtain ⟨rfl, -⟩ := List.cons.inj heq
              have hmem : c ∈ (x :: xs).take (numericLength (x :: xs)) := by
                rw [hlen]
                exact List.mem_cons_of_mem x (hdigits.subset List.mem_cons_self)
              rcases mem_take_numericLength hmem with hc | hc
              · exact absurd hc hslash
              · rw [hdigit] at hc
                cases hc

/-- No number starts in an identifier. -/
theorem unmatched_of_startsWith (h : IsIdentifier ps) (hstart : startsWith ps t = true) :
    Unmatched numericLength ps.length t := by
  intro j hj
  obtain ⟨p, hp, c, ys, hdrop, hc⟩ := exists_drop_eq_of_startsWith hstart hj
  rw [hdrop]
  apply numericLength_of_ne
  rintro rfl
  rw [h.eq_false (c := '/') rfl rfl p hp] at hc
  cases hc

/-- An identifier that was left is not touched. -/
theorem occurs_replaceNumbers (h : IsIdentifier ps) {path : Text}
    (hoccurs : Occurs ps (replaceIdentifiers path)) :
    Occurs ps (replaceNumbers (replaceIdentifiers path)) := by
  obtain ⟨xs, hxs, hstart, hnot⟩ := (occurs_replaceIdentifiers_iff h path).mp hoccurs
  obtain ⟨hsuffix, hocc⟩ := exists_suffix_of_follows h hxs hstart hnot
  have hslash : ∀ p ∈ ps, p '/' = false := h.eq_false rfl rfl
  refine ⟨_, rewrites_replaceNumbers.suffix_of_reaches
    (reaches_of_suffix (by decide) (by decide) hsuffix), ?_⟩
  exact (rewrites_replaceNumbers.startsWith_iff (fun _ ↦ ⟨'/', ":id".toList, rfl, hslash⟩) _).mpr
    ⟨hocc, unmatched_of_startsWith h hocc⟩

end Left

/-! ## The first segment -/

section First

variable {s rest t : Text}

theorem isNumeric_iff : isNumeric s = true ↔ s ≠ [] ∧ ∀ c ∈ s, c.isDigit = true := by
  rw [isNumeric, Bool.and_eq_true_iff, decide_eq_true_iff, List.all_eq_true]

/-- A segment of fewer than 24 characters has no identifier in it. -/
theorem unmatched_short (hlen : s.length < 24) (h : Stops rest) :
    Unmatched identifierLength s.length (s ++ rest) := by
  intro j hj
  have hshort : (s.drop j).length < 24 := Nat.lt_of_le_of_lt (List.drop_sublist j s).length_le hlen
  have hstop {ps : List (Char → Bool)} (hps : IsIdentifier ps) (hlen' : 24 ≤ ps.length) :
      startsWith ps (s.drop j ++ rest) = false :=
    startsWith_append_eq_false (Nat.lt_of_lt_of_le hshort hlen')
      fun a ha ↦ h a ha ▸ hps.eq_false rfl rfl
  have hobject := hstop .objectId (by decide)
  have huuid := hstop .uuid (by decide)
  rw [List.drop_append_of_le_length (Nat.le_of_lt hj)]
  apply identifierLength_eq_zero hobject
  rw [startsUuid, huuid, Bool.false_and]

theorem stops_replaceIdentifiers (h : Stops rest) : Stops (replaceIdentifiers rest) := by
  rcases h.eq with rfl | ⟨r, rfl⟩
  · exact nofun
  · rw [rewrites_replaceIdentifiers.skip rfl]
    exact stops_slash _

/-- What stopped a segment without identifiers has stopped it before. -/
theorem stops_of_replaceIdentifiers (h : Stops (replaceIdentifiers rest)) : Stops rest := by
  intro c hc
  obtain ⟨r, rfl⟩ : ∃ r, rest = c :: r := by
    cases rest with
    | nil => cases hc
    | cons a r =>
        cases hc
        exact ⟨r, rfl⟩
  cases hlen : identifierLength (c :: r) with
  | zero =>
      rw [rewrites_replaceIdentifiers.skip hlen] at h
      exact h c rfl
  | succ n =>
      obtain ⟨l, hlabel⟩ := identifierLabel_eq_cons (c :: r)
      rw [rewrites_replaceIdentifiers.found hlen, hlabel] at h
      exact absurd (h ':' rfl) (by decide)

/-- **A number in the first segment is kept while it is too short to be an ObjectId.** -/
theorem isNumeric_firstSegment_replaceIdentifiers (t : Text) :
    isNumeric (firstSegment (replaceIdentifiers t)) = true ↔
      isNumeric (firstSegment t) = true ∧ (firstSegment t).length < 24 := by
  constructor
  · intro hnumeric
    obtain ⟨rest, hstops, heq⟩ := exists_eq_firstSegment_append (replaceIdentifiers t)
    generalize firstSegment (replaceIdentifiers t) = q at hnumeric heq
    obtain ⟨hne, hdigits⟩ := isNumeric_iff.mp hnumeric
    have hstart : startsWith (.replicate q.length Char.isDigit) (replaceIdentifiers t) = true := by
      rw [heq]
      exact startsWith_replicate hdigits (Nat.le_refl _)
    have hcolon : ∀ p ∈ List.replicate q.length Char.isDigit, p ':' = false := by
      intro p hp
      rw [List.eq_of_mem_replicate hp]
      rfl
    obtain ⟨ht, hnot⟩ :=
      (rewrites_replaceIdentifiers.startsWith_iff (identifierLabel_head hcolon) t).mp hstart
    rw [List.length_replicate] at hnot
    have htake : (t.take q.length).length = q.length := by
      have hle := length_le_of_startsWith ht
      rw [List.length_replicate] at hle
      exact List.length_take_of_le hle
    obtain ⟨hq, hrest⟩ := List.append_inj
      ((rewrites_replaceIdentifiers.take_append_drop hnot).symm.trans heq) htake
    have hfirst : firstSegment t = q := by
      have hslash : '/' ∉ q := fun hmem ↦ absurd (hdigits _ hmem) (by decide)
      have hsplit := (List.take_append_drop q.length t).symm
      rw [hq] at hsplit
      rw [hsplit]
      exact firstSegment_append hslash (stops_of_replaceIdentifiers (hrest ▸ hstops))
    rw [hfirst]
    refine ⟨hnumeric, Nat.lt_of_not_le fun hle ↦ ?_⟩
    have hobject : startsWith objectIdClasses t = true := by
      rw [← List.take_append_drop q.length t, hq]
      refine startsWith_replicate (fun c hc ↦ ?_) hle
      rw [isHex, hdigits c hc]
      rfl
    exact identifierLength_ne_zero hobject (hnot 0 (List.length_pos_of_ne_nil hne))
  · rintro ⟨hnumeric, hlen⟩
    obtain ⟨rest, hstops, heq⟩ := exists_eq_firstSegment_append t
    have hs := slash_not_mem_firstSegment t
    generalize firstSegment t = s at hnumeric hlen heq hs
    rw [heq, rewrites_replaceIdentifiers.append (unmatched_short hlen hstops),
      firstSegment_append hs (stops_replaceIdentifiers hstops)]
    exact hnumeric

end First

/-! ## What a route is -/

/-- A route without identifiers, which normalizing leaves alone. -/
structure Normalized (route : Text) : Prop where
  noObjectId : ¬ Occurs objectIdClasses route
  noUuid : ¬ Occurs uuidClasses route
  noNumber : ∀ segment ∈ route.splitOn '/', isNumeric segment = false
  again : normalizeRoute route [] [] = route

/-- The path starts with a number, not behind a slash, that is too short to be an ObjectId. -/
def StartsWithNumber (path : Text) : Prop :=
  isNumeric (firstSegment path) = true ∧ (firstSegment path).length < 24

section Normalize

variable {path route : Text}

/-- Without identifiers there is nothing to replace. -/
theorem normalizeRoute_eq_self (hne : route ≠ []) (hobject : ¬ Occurs objectIdClasses route)
    (huuid : ¬ Occurs uuidClasses route)
    (hnumber : ∀ segment ∈ route.splitOn '/', isNumeric segment = false) :
    normalizeRoute route [] [] = route := by
  have hnone {ps : List (Char → Bool)} (hps : ps ≠ []) (h : ¬ Occurs ps route) (ys : Text)
      (hys : ys <:+ route) : classLength ps ys = 0 :=
    (classLength_eq_zero_iff hps).mpr (Bool.eq_false_iff.mpr fun hstart ↦ h ⟨ys, hys, hstart⟩)
  rw [normalizeRoute_eq, orRoot, if_neg hne, replaceIdentifiers,
    rewrites_replaceObjectIds.eq_self (hnone objectIdClasses_ne_nil hobject),
    rewrites_replaceUuids.eq_self (hnone uuidClasses_ne_nil huuid), replaceNumbers_eq_self hnumber]

theorem normalizeRoute_ne_nil (path : Text) : normalizeRoute path [] [] ≠ [] := by
  rw [normalizeRoute_eq]
  apply rewrites_replaceNumbers.ne_nil fun _ ↦ List.cons_ne_nil _ _
  apply rewrites_replaceIdentifiers.ne_nil
  · intro xs
    obtain ⟨r, hr⟩ := identifierLabel_eq_cons xs
    exact hr ▸ List.cons_ne_nil ':' r
  · unfold orRoot
    split
    · exact List.cons_ne_nil _ _
    · assumption

/-- The identifiers of a route are those that the first two replacements leave. -/
theorem occurs_normalizeRoute_iff {ps : List (Char → Bool)} (h : IsIdentifier ps) (path : Text) :
    Occurs ps (normalizeRoute path [] []) ↔ Occurs ps (replaceIdentifiers (orRoot path)) := by
  rw [normalizeRoute_eq]
  exact ⟨occurs_of_occurs_replaceNumbers h, occurs_replaceNumbers h⟩

/-- A short text has no identifier. -/
theorem not_joins_of_short (h : (replaceIdentifiers path).length < 24) : ¬ Joins path := by
  rw [joins_iff]
  rintro ⟨ps, hps, ys, hys, hstart⟩
  have hlen : 24 ≤ ps.length := by
    cases hps with
    | objectId => decide
    | uuid => decide
  have hle := Nat.le_trans (length_le_of_startsWith hstart) hys.sublist.length_le
  exact absurd (Nat.le_trans hlen hle) (Nat.not_le_of_lt h)

theorem joins_orRoot (path : Text) : Joins (orRoot path) ↔ Joins path := by
  unfold orRoot
  split
  case isTrue h =>
    subst h
    exact iff_of_false (not_joins_of_short (by decide)) (not_joins_of_short (by decide))
  case isFalse => exact Iff.rfl

theorem startsWithNumber_orRoot (path : Text) :
    StartsWithNumber (orRoot path) ↔ StartsWithNumber path := by
  unfold orRoot
  split
  case isTrue h =>
    subst h
    exact Iff.rfl
  case isFalse => exact Iff.rfl

end Normalize

/-- **A route is normalized exactly if no identifiers of the path join, and the path does not
start with a number.** -/
theorem normalizeRoute_normalized_iff (path : Text) : Normalized (normalizeRoute path [] []) ↔
    ¬ Joins path ∧ ¬ StartsWithNumber path := by
  have hnumbers : (∀ s ∈ (normalizeRoute path [] []).splitOn '/', isNumeric s = false) ↔
      ¬ StartsWithNumber path := by
    rw [normalizeRoute_eq, forall_isNumeric_replaceNumbers, ← Bool.not_eq_true,
      isNumeric_firstSegment_replaceIdentifiers, ← startsWithNumber_orRoot]
    rfl
  have hjoins : Joins path ↔ ∃ ps, IsIdentifier ps ∧ Occurs ps (normalizeRoute path [] []) := by
    rw [← joins_orRoot, joins_iff]
    exact exists_congr fun ps ↦ and_congr_right fun hps ↦ (occurs_normalizeRoute_iff hps path).symm
  rw [hjoins, ← hnumbers]
  constructor
  · intro h
    refine ⟨?_, h.noNumber⟩
    rintro ⟨ps, hps, hoccurs⟩
    cases hps with
    | objectId => exact h.noObjectId hoccurs
    | uuid => exact h.noUuid hoccurs
  · rintro ⟨hnone, hnumber⟩
    have hobject : ¬ Occurs objectIdClasses (normalizeRoute path [] []) :=
      fun h ↦ hnone ⟨_, .objectId, h⟩
    have huuid : ¬ Occurs uuidClasses (normalizeRoute path [] []) := fun h ↦ hnone ⟨_, .uuid, h⟩
    exact ⟨hobject, huuid, hnumber,
      normalizeRoute_eq_self (normalizeRoute_ne_nil path) hobject huuid hnumber⟩

/-- An ObjectId with 23 digits behind it. -/
theorem normalizeRoute_long_run :
    ¬ Normalized (normalizeRoute ("/problems/".toList ++ .replicate 47 'a') [] []) := by
  intro h
  have heval : normalizeRoute ("/problems/".toList ++ .replicate 47 'a') [] [] =
      "/problems/:i".toList ++ 'd' :: .replicate 23 'a' := by decide +kernel
  rw [heval] at h
  exact h.noObjectId ⟨'d' :: .replicate 23 'a', List.suffix_append _ _, by decide⟩

end CodeArena.Observability
