import CodeArena.Lib.Utf

/-!
# Patterns of literals and optional classes

The patterns that `new RegExp` makes of an escaped text and of classes such as `[/\\]?`: they
are read one code unit at a time, and matched by backtracking.  A pattern with anything else in
it is not read.

A text whose special characters are all escaped is read as itself (`readFrom_escape`), and what
follows it is read on its own.
-/

namespace CodeArena.Lib.Pattern

open CodeArena.Lib.Utf

/-- The characters that stand for themselves only after a backslash. -/
def syntaxCharacters : List CodeUnit :=
  [0x5E, 0x24, 0x5C, 0x2E, 0x2A, 0x2B, 0x3F, 0x28, 0x29, 0x5B, 0x5D, 0x7B, 0x7D, 0x7C]

/-- An item of a pattern. -/
inductive Item where
  | unit (u : CodeUnit)
  /-- A class with a question mark. -/
  | optional (members : List CodeUnit)
deriving DecidableEq

/-- Where in a pattern a reader is. -/
inductive Place where
  | plain
  | escaped
  /-- In a class, after some members. -/
  | members (ms : List CodeUnit)
  | memberEscaped (ms : List CodeUnit)
  /-- Right behind a class. -/
  | closed (ms : List CodeUnit)

/-- Reads the items of a pattern.  A range or a negation in a class, and a class that is not
optional, are not read. -/
def readFrom : Place → JsString → Option (List Item)
  | .plain, [] => some []
  | _, [] => none
  | .plain, u :: s =>
    if u = 0x5C then readFrom .escaped s
    else if u = 0x5B then readFrom (.members []) s
    else if u ∈ syntaxCharacters then none
    else (readFrom .plain s).map (.unit u :: ·)
  | .escaped, u :: s =>
    if u ∈ syntaxCharacters then (readFrom .plain s).map (.unit u :: ·) else none
  | .members ms, u :: s =>
    if u = 0x5D then readFrom (.closed ms) s
    else if u = 0x5C then readFrom (.memberEscaped ms) s
    else if u = 0x2D ∨ u = 0x5E then none
    else readFrom (.members (ms ++ [u])) s
  | .memberEscaped ms, u :: s =>
    if u ∈ syntaxCharacters then readFrom (.members (ms ++ [u])) s else none
  | .closed ms, u :: s => if u = 0x3F then (readFrom .plain s).map (.optional ms :: ·) else none

/-- `new RegExp(source)`. -/
def read (source : JsString) : Option (List Item) := readFrom .plain source

/-- The length of the match at the start of a text.  An optional item takes a code unit where
it can, and is taken back where the items after it fail. -/
def matchItems : List Item → JsString → Option Nat
  | [], _ => some 0
  | .unit _ :: _, [] => none
  | .unit u :: is, v :: s => if v = u then (matchItems is s).map (· + 1) else none
  | .optional _ :: is, [] => matchItems is []
  | .optional ms :: is, v :: s =>
    if v ∈ ms then ((matchItems is s).map (· + 1)).or (matchItems is (v :: s))
    else matchItems is (v :: s)

/-- `'\\$&'` for every character of a set. -/
def escape (special : List CodeUnit) (s : JsString) : JsString :=
  s.flatMap fun u ↦ if u ∈ special then [0x5C, u] else [u]

/-- **An escaped text is read as itself.** -/
theorem readFrom_escape {special : List CodeUnit}
    (h : ∀ u, u ∈ special ↔ u ∈ syntaxCharacters) (s rest : JsString) :
    readFrom .plain (escape special s ++ rest) =
      (readFrom .plain rest).map (s.map Item.unit ++ ·) := by
  induction s with
  | nil => exact Option.map_id'.symm
  | cons u s ih =>
      have hread : readFrom .plain (escape special (u :: s) ++ rest) =
          (readFrom .plain (escape special s ++ rest)).map (.unit u :: ·) := by
        by_cases hu : u ∈ special
        · show readFrom .plain (((if u ∈ special then [0x5C, u] else [u]) ++ _) ++ rest) = _
          rw [if_pos hu]
          show (if u ∈ syntaxCharacters then _ else none) = _
          rw [if_pos ((h u).mp hu)]
          rfl
        · have hsyntax : u ∉ syntaxCharacters := fun hmem ↦ hu ((h u).mpr hmem)
          have hslash : u ≠ 0x5C := by
            rintro rfl
            exact hsyntax (by decide)
          have hbracket : u ≠ 0x5B := by
            rintro rfl
            exact hsyntax (by decide)
          show readFrom .plain (((if u ∈ special then [0x5C, u] else [u]) ++ _) ++ rest) = _
          rw [if_neg hu]
          show (if u = 0x5C then _ else if u = 0x5B then _ else _) = _
          rw [if_neg hslash, if_neg hbracket, if_neg hsyntax]
          rfl
      rw [hread, ih, Option.map_map]
      rfl

/-- Literals with an optional class behind them match the text of the literals, and a member of
the class where one follows. -/
theorem matchItems_units_optional (w : JsString) (ms : List CodeUnit) (s : JsString) :
    matchItems (w.map Item.unit ++ [.optional ms]) s =
      if w <+: s then some (w.length + if ((s.drop w.length).head?).any (· ∈ ms) then 1 else 0)
      else none := by
  induction w generalizing s with
  | nil =>
      rw [if_pos List.nil_prefix]
      cases s with
      | nil => rfl
      | cons v s =>
          show (if v ∈ ms then some 1 else some 0) = _
          by_cases hv : v ∈ ms <;> simp [hv]
  | cons u w ih =>
      cases s with
      | nil =>
          rw [if_neg (List.cons_ne_nil u w ∘ List.prefix_nil.mp)]
          rfl
      | cons v s =>
          show (if v = u then (matchItems (w.map Item.unit ++ [.optional ms]) s).map (· + 1)
            else none) = _
          by_cases hv : v = u
          · subst hv
            rw [if_pos rfl, ih]
            by_cases hw : w <+: s
            · rw [if_pos hw, if_pos (List.cons_prefix_cons.mpr ⟨rfl, hw⟩)]
              simp [Nat.add_right_comm]
            · rw [if_neg hw, if_neg (fun h ↦ hw (List.cons_prefix_cons.mp h).2)]
              rfl
          · rw [if_neg hv, if_neg (fun h ↦ hv (List.cons_prefix_cons.mp h).1.symm)]

end CodeArena.Lib.Pattern
