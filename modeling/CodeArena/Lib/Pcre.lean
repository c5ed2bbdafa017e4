import CodeArena.Lib.Backtracking
import Mathlib.Data.List.TakeWhile

/-!
# Patterns

How PCRE reads a pattern, as far as its characters go without a backslash and without bracket
expressions: alternatives, groups, repetitions (counted, lazy and possessive ones too), anchors
and the full stop, without regard to the case of letters.  A pattern with unbalanced groups, or
with nothing to repeat, is refused.

A pattern is first cut into tokens.  Braces are the only characters of which the meaning depends on
what follows: `{2,5}` is a repetition, and `{1,2,3}` are seven characters.  A pattern is `plain` if
every token is a character that stands for itself.

## Honest boundary

`pcre` stands for PCRE on the patterns that are `supported`: no backslash, bracket expression or
NUL, and no group that starts with `?` or `*`.  The limits that PCRE sets to the size of a pattern
and to the work of a match are left out, the limit of a count apart.
-/

namespace CodeArena.Lib.Pcre

open CodeArena.Lib

/-- Where versions of PCRE differ. -/
structure Version where
  /-- The lower bound of a counted repetition may be left out, and blanks may stand by its
  numbers. -/
  looseCounts : Bool
  /-- `^` may be repeated. -/
  repeatsStart : Bool
  /-- `$` may be repeated. -/
  repeatsStop : Bool

/-- A character with a meaning of its own. -/
inductive Operator where
  | star
  | plus
  | question
  | bar
  | openGroup
  | closeGroup
  | start
  | stop
deriving DecidableEq, Repr

/-- The character of an operator. -/
def Operator.symbol : Operator → Char
  | star => '*'
  | plus => '+'
  | question => '?'
  | bar => '|'
  | openGroup => '('
  | closeGroup => ')'
  | start => '^'
  | stop => '$'

/-- The operator that a character is. -/
def operator : Char → Option Operator
  | '*' => some .star
  | '+' => some .plus
  | '?' => some .question
  | '|' => some .bar
  | '(' => some .openGroup
  | ')' => some .closeGroup
  | '^' => some .start
  | '$' => some .stop
  | _ => none

theorem operator_eq_some {c : Char} {o : Operator} (h : operator c = some o) : o.symbol = c := by
  unfold operator at h
  split at h <;> cases h <;> rfl

/-- The characters that one that is no operator stands for.  `fold` is the same for characters
that differ in case. -/
def charClass (fold : Char → Char) (c : Char) : Char → Bool :=
  if c = '.' then fun d ↦ d ≠ '\n' else fun d ↦ fold d = fold c

/-! ## Counted repetitions -/

/-- A blank of a counted repetition. -/
def isBlank (c : Char) : Bool := c = ' ' || c = '\t'

/-- A text without the blanks around it. -/
def strip (s : List Char) : List Char := ((s.dropWhile isBlank).reverse.dropWhile isBlank).reverse

/-- The number that digits stand for. -/
def number (s : List Char) : Nat := s.foldl (fun n c ↦ 10 * n + (c.toNat - '0'.toNat)) 0

/-- A number of a counted repetition, as it is read. -/
def Version.part (v : Version) (s : List Char) : List Char := if v.looseCounts then strip s else s

/-- The bounds of the counted repetition with this text between its braces, if it is one:
`{2}`, `{2,}` or `{2,5}`. -/
def bounds (v : Version) (text : List Char) : Option (Nat × Option Nat) :=
  let low := v.part (text.takeWhile (· ≠ ','))
  match text.dropWhile (· ≠ ',') with
  | [] => if low ≠ [] ∧ low.all Char.isDigit then some (number low, some (number low)) else none
  | _ :: rest =>
    let high := v.part rest
    if (low ≠ [] ∨ (v.looseCounts ∧ high ≠ [])) ∧ low.all Char.isDigit ∧ high.all Char.isDigit then
      some (number low, if high = [] then none else some (number high))
    else none

/-- The text between the braces, where a counted repetition starts with the brace before
`s`. -/
def countText (v : Version) (s : List Char) : Option (List Char) :=
  let text := s.takeWhile (· ≠ '}')
  if text.length < s.length ∧ (bounds v text).isSome then some text else none

/-- The bounds that PCRE takes. -/
def acceptable (min : Nat) (max : Option Nat) : Bool :=
  min ≤ 65535 && max.all fun m ↦ min ≤ m && m ≤ 65535

/-- What stands in a counted repetition, between its braces. -/
def isInner (c : Char) : Bool := c.isDigit || c = ',' || isBlank c

theorem mem_strip_or {s : List Char} {c : Char} (h : c ∈ s) : isBlank c = true ∨ c ∈ strip s := by
  have hdrop : ∀ (s : List Char), c ∈ s → isBlank c = true ∨ c ∈ s.dropWhile isBlank := by
    intro s hs
    rw [← List.takeWhile_append_dropWhile (p := isBlank) (l := s)] at hs
    rcases List.mem_append.mp hs with hs | hs
    · exact .inl (List.mem_takeWhile_imp hs)
    · exact .inr hs
  rcases hdrop s h with h | h
  · exact .inl h
  · rcases hdrop _ (List.mem_reverse.mpr h) with h | h
    · exact .inl h
    · exact .inr (List.mem_reverse.mpr h)

section

variable {v : Version} {text s : List Char}

theorem isInner_of_part (h : (v.part s).all Char.isDigit = true) : ∀ c ∈ s, isInner c = true := by
  intro c hc
  rw [List.all_eq_true] at h
  rw [isInner]
  unfold Version.part at h
  split at h
  · rcases mem_strip_or hc with hb | hmem
    · rw [hb, Bool.or_true]
    · rw [h c hmem]
      rfl
  · rw [h c hc]
    rfl

theorem part_nil (v : Version) : v.part [] = [] := by
  unfold Version.part
  split <;> rfl

/-- What a text is cut into at the first character that is not of a class. -/
theorem eq_append_of_dropWhile {p : Char → Bool} {c : Char} {rest : List Char}
    (h : s.dropWhile p = c :: rest) : s = s.takeWhile p ++ c :: rest ∧ p c = false := by
  have hsplit : s.takeWhile p ++ s.dropWhile p = s := List.takeWhile_append_dropWhile
  have hhead := List.head?_dropWhile_not p s
  rw [h] at hsplit hhead
  exact ⟨hsplit.symm, by simpa using hhead⟩

/-- Between the braces there are digits, commas and blanks, and something at all. -/
theorem of_bounds {b : Nat × Option Nat} (h : bounds v text = some b) :
    text ≠ [] ∧ ∀ c ∈ text, isInner c = true := by
  have hnil : ∀ s, v.part s ≠ [] → s ≠ [] := by
    rintro _ hpart rfl
    exact hpart (part_nil v)
  unfold bounds at h
  dsimp only at h
  split at h
  · rename_i hdrop
    split at h
    · rename_i hlow
      rw [List.takeWhile_eq_self_iff.mpr (List.dropWhile_eq_nil_iff.mp hdrop)] at hlow
      exact ⟨hnil text hlow.1, isInner_of_part hlow.2⟩
    · cases h
  · rename_i c rest hdrop
    split at h
    · rename_i hlow
      obtain ⟨htext, hc⟩ := eq_append_of_dropWhile hdrop
      have hcomma : c = ',' := by simpa using hc
      rw [htext]
      refine ⟨List.append_ne_nil_of_right_ne_nil _ (List.cons_ne_nil _ _), ?_⟩
      refine List.forall_mem_append.mpr ⟨isInner_of_part hlow.2.1, ?_⟩
      exact List.forall_mem_cons.mpr ⟨by rw [hcomma]; rfl, isInner_of_part hlow.2.2⟩
    · cases h

/-- What a counted repetition takes of the pattern. -/
theorem of_countText (h : countText v s = some text) :
    (∃ b, bounds v text = some b) ∧ ∃ rest, s = text ++ '}' :: rest := by
  unfold countText at h
  dsimp only at h
  split at h
  · rename_i hcount
    cases h
    refine ⟨Option.isSome_iff_exists.mp hcount.2, ?_⟩
    cases hdrop : s.dropWhile (· ≠ '}') with
    | nil =>
        have hall := List.takeWhile_eq_self_iff.mpr (List.dropWhile_eq_nil_iff.mp hdrop)
        exact absurd hcount.1 (by rw [hall]; exact Nat.lt_irrefl _)
    | cons c rest =>
        obtain ⟨hs, hc⟩ := eq_append_of_dropWhile hdrop
        obtain rfl : c = '}' := by simpa using hc
        exact ⟨rest, hs⟩
  · cases h

end

/-! ## Reading a pattern -/

/-- What a pattern is made of. -/
inductive Token where
  | char (c : Char)
  | op (o : Operator)
  /-- A counted repetition, with the text between its braces. -/
  | count (text : List Char)

namespace Token

/-- The text of a token. -/
def text : Token → List Char
  | char c => [c]
  | op o => [o.symbol]
  | count text => '\x7b' :: (text ++ ['}'])

end Token

/-- The text between the braces, where a counted repetition starts with `c`. -/
def countAt (v : Version) (c : Char) (s : List Char) : Option (List Char) :=
  if c = '\x7b' then countText v s else none

/-- The tokens of a pattern, after so many characters. -/
def tokens (v : Version) : Nat → List Char → List Token
  | _, [] => []
  | k + 1, _ :: s => tokens v k s
  | 0, c :: s =>
    match countAt v c s with
    | some text => .count text :: tokens v (text.length + 1) s
    | none =>
      match operator c with
      | some o => .op o :: tokens v 0 s
      | none => .char c :: tokens v 0 s

/-- What may be repeated. -/
inductive Repeatable where
  | nothing
  /-- An item. -/
  | item
  /-- A repetition: a `?` makes it lazy and a `+` possessive, and nothing else may follow. -/
  | repetition
deriving DecidableEq, Repr

/-- A repetition that chooses in another way. -/
def regreed (g : Greed) : Pat Char → Pat Char
  | .repeated _ min max r => .repeated g min max r
  | r => r

/-- A group that is being read. -/
structure Frame where
  /-- The alternatives that are complete. -/
  alternatives : Option (Pat Char)
  before : Pat Char
  /-- The last item of the alternative that is being read. -/
  last : Pat Char
  repeatable : Repeatable

namespace Frame

/-- A group of which nothing was read. -/
def fresh : Frame := ⟨none, .empty, .empty, .nothing⟩

/-- The alternative that is being read. -/
def sequence (f : Frame) : Pat Char := .seq f.before f.last

/-- The group. -/
def whole (f : Frame) : Pat Char :=
  match f.alternatives with
  | none => f.sequence
  | some r => .alt r f.sequence

/-- The next item. -/
def push (f : Frame) (r : Pat Char) (repeatable : Repeatable) : Frame :=
  ⟨f.alternatives, f.sequence, r, repeatable⟩

/-- The next alternative. -/
def next (f : Frame) : Frame := ⟨some f.whole, .empty, .empty, .nothing⟩

/-- Repeats the last item; `none` where there is nothing to repeat. -/
def quantify (f : Frame) (min : Nat) (max : Option Nat) : Option Frame :=
  match f.repeatable with
  | .item => some { f with last := .repeated .greedy min max f.last, repeatable := .repetition }
  | _ => none

/-- A `?` or a `+`: it says how a repetition chooses, or it repeats an item. -/
def suffix (f : Frame) (g : Greed) (min : Nat) (max : Option Nat) : Option Frame :=
  match f.repeatable with
  | .repetition => some { f with last := regreed g f.last, repeatable := .nothing }
  | _ => f.quantify min max

end Frame

/-- The group that is being read, and the groups around it. -/
structure Reader where
  top : Frame
  around : List Frame

namespace Reader

/-- Changes the group that is being read. -/
def withTop (st : Reader) (f : Frame) : Reader := { st with top := f }

/-- Reads a token; `none` where the pattern is refused. -/
def feed (v : Version) (fold : Char → Char) (st : Reader) : Token → Option Reader
  | .char c => some (st.withTop (st.top.push (.atom (charClass fold c)) .item))
  | .op .start =>
    some (st.withTop (st.top.push .start (if v.repeatsStart then .item else .nothing)))
  | .op .stop => some (st.withTop (st.top.push .stop (if v.repeatsStop then .item else .nothing)))
  | .op .bar => some (st.withTop st.top.next)
  | .op .star => (st.top.quantify 0 none).map st.withTop
  | .op .plus => (st.top.suffix .possessive 1 none).map st.withTop
  | .op .question => (st.top.suffix .lazy 0 (some 1)).map st.withTop
  | .op .openGroup => some ⟨.fresh, st.top :: st.around⟩
  | .op .closeGroup =>
    match st.around with
    | [] => none
    | f :: around => some ⟨f.push st.top.whole .item, around⟩
  | .count text =>
    match bounds v text with
    | none => none
    | some (min, max) =>
      if acceptable min max then (st.top.quantify min max).map st.withTop else none

/-- The whole pattern; `none` inside of a group. -/
def finish (st : Reader) : Option (Pat Char) :=
  match st.around with
  | [] => some st.top.whole
  | _ :: _ => none

end Reader

/-- Reads tokens. -/
def parse (v : Version) (fold : Char → Char) (ts : List Token) : Option (Pat Char) :=
  (ts.foldlM (Reader.feed v fold) ⟨.fresh, []⟩).bind Reader.finish

/-- A newline ends a line. -/
def isNewline (c : Char) : Bool := c = '\n'

/-- `/pattern/i`; `none` where the pattern is refused. -/
def pcre (v : Version) (fold : Char → Char) (pattern : List Char) : Option (List Char → Bool) :=
  (parse v fold (tokens v 0 pattern)).map (Pat.search isNewline)

/-! ## What is supported, and what is plain -/

/-- The start of what is left out. -/
def unsupported : List Char → Bool
  | '\\' :: _ | '[' :: _ | '\x00' :: _ => true
  | '(' :: c :: _ => c = '?' || c = '*'
  | _ => false

/-- The patterns on which `pcre` stands for PCRE. -/
def supported (pattern : List Char) : Bool := pattern.tails.all fun s ↦ !unsupported s

/-- A counted repetition starts here. -/
def startsCount (v : Version) : List Char → Bool
  | c :: s => (countAt v c s).isSome
  | [] => false

/-- A character that does not stand for itself. -/
def isSpecial (c : Char) : Bool := c = '.' || (operator c).isSome

/-- No character is special, and none starts a counted repetition. -/
def plain (v : Version) (pattern : List Char) : Bool :=
  (pattern.all fun c ↦ !isSpecial c) && pattern.tails.all fun s ↦ !startsCount v s

section

variable {v : Version} {pattern : List Char}

/-- The tokens are those of the characters that are left. -/
theorem flatMap_tokens (k : Nat) : (tokens v k pattern).flatMap Token.text = pattern.drop k := by
  induction pattern generalizing k with
  | nil =>
      rw [List.drop_nil]
      rfl
  | cons c s ih =>
      cases k with
      | succ k => exact ih k
      | zero =>
          rw [tokens, List.drop_zero]
          split
          · rename_i text hcount
            unfold countAt at hcount
            split at hcount
            · rename_i hc
              obtain ⟨-, rest, rfl⟩ := of_countText hcount
              rw [List.flatMap_cons, ih, ← List.drop_drop, List.drop_left, hc]
              simp [Token.text]
            · cases hcount
          · split
            · rename_i o ho
              rw [List.flatMap_cons, ih, Token.text, operator_eq_some ho]
              rfl
            · rw [List.flatMap_cons, ih]
              rfl

/-- A character that stands for itself is one of the pattern. -/
theorem of_char_mem_tokens {k : Nat} {c : Char} (h : .char c ∈ tokens v k pattern) :
    c ∈ pattern ∧ operator c = none := by
  induction pattern generalizing k with
  | nil => cases h
  | cons d s ih =>
      cases k with
      | succ k => exact ⟨List.mem_cons_of_mem _ (ih h).1, (ih h).2⟩
      | zero =>
          rw [tokens] at h
          split at h
          · rcases List.mem_cons.mp h with h | h
            · cases h
            · exact ⟨List.mem_cons_of_mem _ (ih h).1, (ih h).2⟩
          · split at h
            · rcases List.mem_cons.mp h with h | h
              · cases h
              · exact ⟨List.mem_cons_of_mem _ (ih h).1, (ih h).2⟩
            · rename_i ho
              rcases List.mem_cons.mp h with h | h
              · cases h
                exact ⟨List.mem_cons_self, ho⟩
              · exact ⟨List.mem_cons_of_mem _ (ih h).1, (ih h).2⟩

/-- **Which patterns are read as they are written**, full stops apart. -/
theorem tokens_eq_char_iff : tokens v 0 pattern = pattern.map .char ↔
    (∀ c ∈ pattern, operator c = none) ∧ ∀ s, s <:+ pattern → startsCount v s = false := by
  induction pattern with
  | nil =>
      refine iff_of_true rfl ⟨nofun, fun s hs ↦ ?_⟩
      rw [List.suffix_nil.mp hs]
      rfl
  | cons c s ih =>
      have hsuffix : (∀ t, t <:+ c :: s → startsCount v t = false) ↔
          countAt v c s = none ∧ ∀ t, t <:+ s → startsCount v t = false := by
        simp only [List.suffix_cons_iff, or_imp, forall_and, forall_eq, startsCount,
          Option.isSome_eq_false_iff, Option.isNone_iff_eq_none]
      rw [List.forall_mem_cons, hsuffix, tokens, List.map_cons]
      cases hcount : countAt v c s with
      | some text => simp
      | none =>
          cases ho : operator c with
          | some o => simp
          | none => simp [ih]

theorem plain_iff : plain v pattern = true ↔
    tokens v 0 pattern = pattern.map .char ∧ ∀ c ∈ pattern, c ≠ '.' := by
  rw [tokens_eq_char_iff]
  simp only [plain, isSpecial, Bool.and_eq_true, List.all_eq_true, Bool.not_eq_true',
    Bool.or_eq_false_iff, decide_eq_false_iff_not, Option.isSome_eq_false_iff,
    Option.isNone_iff_eq_none, List.mem_tails, forall_and]
  tauto

end

end CodeArena.Lib.Pcre
