import Mathlib.Data.List.Basic
import Mathlib.Tactic.Common

/-!
# Layouts of fixed width

A layout is a row of literals and of fields, each field a number of symbols of a class.  A
text is read by one pass over the layout, which has nothing to go back to since the widths are
fixed; it is written by putting the fields between the literals.

What is read is what can be written: a text is read as some fields exactly if these fit the
layout and are written as that text (`read_eq_some_iff`).
-/

universe u

namespace CodeArena.Lib.Layout

/-- A part of a layout. -/
inductive Part (α : Type u) where
  | literal (text : List α)
  /-- So many symbols of a class. -/
  | field (p : α → Bool) (width : Nat)

variable {α : Type u}

/-- A field of a given width, with symbols of a class only. -/
def IsField (p : α → Bool) (width : Nat) (v : List α) : Prop :=
  v.length = width ∧ ∀ a ∈ v, p a = true

/-- The fields of a layout, in their order. -/
inductive Fits : List (Part α) → List (List α) → Prop
  | nil : Fits [] []
  | literal {text ps vs} : Fits ps vs → Fits (.literal text :: ps) vs
  | field {p width v ps vs} : IsField p width v → Fits ps vs → Fits (.field p width :: ps) (v :: vs)

/-- Writes the fields between the literals. -/
def write : List (Part α) → List (List α) → List α
  | [], _ => []
  | .literal text :: ps, vs => text ++ write ps vs
  | .field _ _ :: ps, vs => vs.headD [] ++ write ps vs.tail

/-- Reads the fields of a whole text. -/
def read [DecidableEq α] : List (Part α) → List α → Option (List (List α))
  | [], [] => some []
  | [], _ :: _ => none
  | .literal text :: ps, xs => if text <+: xs then read ps (xs.drop text.length) else none
  | .field p width :: ps, xs =>
    if (xs.take width).length = width ∧ (xs.take width).all p then
      (read ps (xs.drop width)).map (xs.take width :: ·)
    else none

section Reading

variable [DecidableEq α] {ps : List (Part α)} {vs : List (List α)} {xs : List α}

/-- What was written is read. -/
theorem Fits.read_write (h : Fits ps vs) : read ps (write ps vs) = some vs := by
  induction h with
  | nil => rfl
  | @literal text ps vs _ ih =>
      rw [write, read, if_pos (List.prefix_append _ _), List.drop_left]
      exact ih
  | @field p width v ps vs hv _ ih =>
      obtain ⟨rfl, hall⟩ := hv
      show read (.field p v.length :: ps) (v ++ write ps vs) = some (v :: vs)
      rw [read, List.take_left, List.drop_left, if_pos ⟨rfl, List.all_eq_true.mpr hall⟩, ih]
      rfl

/-- What is read fits, and is written as what it was read from. -/
theorem fits_of_read (h : read ps xs = some vs) : Fits ps vs ∧ write ps vs = xs := by
  induction ps generalizing xs vs with
  | nil =>
      cases xs with
      | nil =>
          cases h
          exact ⟨.nil, rfl⟩
      | cons x xs => cases h
  | cons part ps ih =>
      cases part with
      | literal text =>
          rw [read] at h
          split at h
          case isTrue hpre =>
            obtain ⟨rest, rfl⟩ := hpre
            rw [List.drop_left] at h
            obtain ⟨hfits, hwrite⟩ := ih h
            exact ⟨.literal hfits, congrArg (text ++ ·) hwrite⟩
          case isFalse => cases h
      | field p width =>
          rw [read] at h
          split at h
          case isTrue hfield =>
            obtain ⟨ws, hread, rfl⟩ := Option.map_eq_some_iff.mp h
            obtain ⟨hfits, hwrite⟩ := ih hread
            refine ⟨.field ⟨hfield.1, List.all_eq_true.mp hfield.2⟩ hfits, ?_⟩
            show xs.take width ++ write ps ws = xs
            rw [hwrite, List.take_append_drop]
          case isFalse => cases h

/-- **A text is read as the fields that are written as it.** -/
theorem read_eq_some_iff : read ps xs = some vs ↔ Fits ps vs ∧ write ps vs = xs := by
  constructor
  · exact fits_of_read
  · rintro ⟨hfits, rfl⟩
    exact hfits.read_write

end Reading

/-- The fields of a layout that starts with a field. -/
theorem fits_field_iff {p : α → Bool} {width : Nat} {ps : List (Part α)} {vs : List (List α)} :
    Fits (.field p width :: ps) vs ↔ ∃ v ws, vs = v :: ws ∧ IsField p width v ∧ Fits ps ws := by
  constructor
  · intro h
    cases h with
    | field hv hws => exact ⟨_, _, rfl, hv, hws⟩
  · rintro ⟨v, ws, rfl, hv, hws⟩
    exact .field hv hws

@[simp] theorem fits_literal_iff {text : List α} {ps : List (Part α)} {vs : List (List α)} :
    Fits (.literal text :: ps) vs ↔ Fits ps vs :=
  ⟨fun h ↦ by cases h; assumption, .literal⟩

@[simp] theorem fits_nil_iff {vs : List (List α)} : Fits [] vs ↔ vs = [] :=
  ⟨fun h ↦ by cases h; rfl, fun h ↦ h ▸ .nil⟩

end CodeArena.Lib.Layout
