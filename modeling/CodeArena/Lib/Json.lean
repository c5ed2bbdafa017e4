import CodeArena.Lib.OrderedMap
import CodeArena.Lib.Utf
import Mathlib.Algebra.Order.Ring.Rat
import Mathlib.Algebra.Order.Monoid.Unbundled.WithTop

/-!
# JSON values

The values that `JSON.parse` returns, and the fields of an object as a list of entries that a
program reads, sets and deletes.  A field that is not there is `none`, which stands for
`undefined`.

Setting several fields and reading one is reading it among the values set (`find?_assign`),
so that what an object holds after a block of assignments is found by evaluation.
-/

namespace CodeArena.Lib

open Utf

universe u v

/-- What a literal for a number stands for: one that is too large is infinite, and none is
`NaN`.  The two zeros are one. -/
abbrev Number := WithBot (WithTop ℚ)

/-- A JSON value. -/
inductive Json where
  | null
  | bool (b : Bool)
  | number (n : Number)
  | string (s : JsString)
  | array (items : List Json)
  | object (entries : List (JsString × Json))

namespace Json

/-- `Object.entries`, for what has named fields. -/
def entries : Json → List (JsString × Json)
  | object es => es
  | _ => []

/-- A field of a value. -/
def field (j : Json) (name : JsString) : Option Json := OrderedMap.find? name j.entries

/-- A field that is a string; empty where it is none. -/
def text (j : Json) (name : JsString) : JsString :=
  match j.field name with
  | some (string s) => s
  | _ => []

theorem text_of_field {j : Json} {name s : JsString} (h : j.field name = some (string s)) :
    j.text name = s := by
  rw [text, h]

end Json

/-! ## Entries -/

namespace Entries

open OrderedMap (find? setEntry find?_setEntry)

variable {κ : Type u} {β : Type v} [DecidableEq κ]

/-- `delete` for each of the keys. -/
def without (ks : List κ) (es : List (κ × β)) : List (κ × β) :=
  es.filter fun e ↦ ks.all (e.1 ≠ ·)

/-- The assignment of a value where one is given. -/
def assignGiven (k : κ) (given : Option β) (es : List (κ × β)) : List (κ × β) :=
  match given with
  | none => es
  | some v => setEntry k v es

/-- Assignments, one after the other. -/
def assign (new : List (κ × Option β)) (es : List (κ × β)) : List (κ × β) :=
  new.foldl (fun es e ↦ assignGiven e.1 e.2 es) es

/-- A key that was deleted is gone, and the others are there as before. -/
theorem find?_without (ks : List κ) (es : List (κ × β)) (k : κ) :
    find? k (without ks es) = if k ∈ ks then none else find? k es := by
  induction es with
  | nil => simp [without, find?]
  | cons e es ih =>
      obtain ⟨k', v⟩ := e
      have hall : ks.all (k' ≠ ·) = decide (k' ∉ ks) := by
        rw [Bool.eq_iff_iff, List.all_eq_true, decide_eq_true_iff]
        constructor
        · intro h hmem
          exact of_decide_eq_true (h k' hmem) rfl
        · intro h a ha
          exact decide_eq_true fun heq ↦ h (heq ▸ ha)
      have hstep : without ks ((k', v) :: es) =
          if k' ∈ ks then without ks es else (k', v) :: without ks es := by
        show List.filter (fun e ↦ ks.all (e.1 ≠ ·)) ((k', v) :: es) = _
        rw [List.filter_cons, hall]
        by_cases hk' : k' ∈ ks
        · simp [hk', without]
        · simp [hk', without]
      rw [hstep]
      by_cases hk' : k' ∈ ks
      · rw [if_pos hk', ih, find?]
        by_cases h : k' = k
        · rw [if_pos h, if_pos (h ▸ hk'), if_pos (h ▸ hk')]
        · rw [if_neg h]
      · rw [if_neg hk', find?, find?, ih]
        by_cases h : k' = k
        · rw [if_pos h, if_pos h, if_neg (h ▸ hk')]
        · rw [if_neg h, if_neg h]

theorem find?_without_of_notMem {ks : List κ} {k : κ} (hk : k ∉ ks) (es : List (κ × β)) :
    find? k (without ks es) = find? k es := by
  rw [find?_without, if_neg hk]

theorem find?_assignGiven (k k' : κ) (given : Option β) (es : List (κ × β)) :
    find? k' (assignGiven k given es) =
      if k' = k then given.or (find? k' es) else find? k' es := by
  cases given with
  | none => simp [assignGiven]
  | some v => simp [assignGiven, find?_setEntry]

/-- The value under a key after assignments to different keys is the one assigned, or the one
that was there. -/
theorem find?_assign {new : List (κ × Option β)} (hn : (new.map Prod.fst).Nodup)
    (es : List (κ × β)) (k : κ) :
    find? k (assign new es) = (find? k new).join.or (find? k es) := by
  induction new generalizing es with
  | nil => rfl
  | cons e new ih =>
      obtain ⟨k', v⟩ := e
      have hn' := List.nodup_cons.mp hn
      show find? k (assign new (assignGiven k' v es)) = _
      rw [ih hn'.2, find?_assignGiven, find?]
      by_cases h : k = k'
      · subst h
        have hnone : find? k new = none := by
          cases hf : find? k new with
          | none => rfl
          | some w =>
              have hmem := List.mem_map_of_mem (f := Prod.fst) (OrderedMap.mem_of_find?_eq_some hf)
              exact absurd hmem hn'.1
        rw [if_pos rfl, if_pos rfl, hnone]
        rfl
      · rw [if_neg h, if_neg fun h' ↦ h h'.symm]

variable {new : List (κ × Option β)} {ks : List κ}

/-- What was assigned is there. -/
theorem find?_assign_of_some (hn : ks.Nodup) (hks : new.map Prod.fst = ks) (es : List (κ × β))
    {k : κ} {v : β} (h : find? k new = some (some v)) : find? k (assign new es) = some v := by
  rw [find?_assign (hks ▸ hn), h]
  rfl

/-- What was given is there, and else what was there before. -/
theorem find?_assign_of_given (hn : ks.Nodup) (hks : new.map Prod.fst = ks) (es : List (κ × β))
    {k : κ} {given : Option β} (h : find? k new = some given) :
    find? k (assign new es) = given.or (find? k es) := by
  rw [find?_assign (hks ▸ hn), h]
  rfl

/-- What was not assigned is as it was. -/
theorem find?_assign_of_notMem (hks : new.map Prod.fst = ks) (hn : ks.Nodup) (es : List (κ × β))
    {k : κ} (hk : k ∉ ks) : find? k (assign new es) = find? k es := by
  subst hks
  have hnone : find? k new = none := by
    cases hf : find? k new with
    | none => rfl
    | some w =>
        exact absurd (List.mem_map_of_mem (f := Prod.fst) (OrderedMap.mem_of_find?_eq_some hf)) hk
  rw [find?_assign hn, hnone]
  rfl

/-! ## Keys that are not touched -/

variable {p : κ → Bool}

theorem filter_without (hp : ∀ k ∈ ks, p k = false) (es : List (κ × β)) :
    (without ks es).filter (fun e ↦ p e.1) = es.filter fun e ↦ p e.1 := by
  rw [without, List.filter_filter]
  apply List.filter_congr
  intro e _
  by_cases he : e.1 ∈ ks
  · rw [hp e.1 he, Bool.false_and]
  · have hall : ks.all (e.1 ≠ ·) = true := by
      rw [List.all_eq_true]
      intro k hk
      exact decide_eq_true fun h ↦ he (h ▸ hk)
    rw [hall, Bool.and_true]

theorem filter_setEntry {k : κ} (hk : p k = false) (v : β) (es : List (κ × β)) :
    (setEntry k v es).filter (fun e ↦ p e.1) = es.filter fun e ↦ p e.1 := by
  induction es with
  | nil => simp [setEntry, hk]
  | cons e es ih =>
      obtain ⟨k', w⟩ := e
      rw [setEntry]
      by_cases h : k' = k
      · subst h
        rw [if_pos rfl, List.filter_cons_of_neg (by simp [hk]),
          List.filter_cons_of_neg (by simp [hk])]
      · rw [if_neg h, List.filter_cons, List.filter_cons, ih]

theorem filter_assign (hp : ∀ k ∈ new.map Prod.fst, p k = false) (es : List (κ × β)) :
    (assign new es).filter (fun e ↦ p e.1) = es.filter fun e ↦ p e.1 := by
  induction new generalizing es with
  | nil => rfl
  | cons e new ih =>
      obtain ⟨k, given⟩ := e
      show (assign new (assignGiven k given es)).filter _ = _
      rw [ih fun k' hk' ↦ hp k' (List.mem_cons_of_mem k hk')]
      cases given with
      | none => rfl
      | some v => exact filter_setEntry (hp k List.mem_cons_self) v es

end Entries

end CodeArena.Lib
