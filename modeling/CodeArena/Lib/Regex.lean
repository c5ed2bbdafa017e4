import Mathlib.Computability.Language
import Mathlib.Data.List.Infix

/-!
# Regular expressions that search

Regular expressions with anchors, matched by backtracking against a part of a text.  `ends`
lists what can be left of a text after an expression was matched at its front, and `search`
tries every place of the text.

The meaning of an expression is a language over symbols, which are characters and the two
anchors (`words`): backtracking finds exactly what reads such a word (`mem_ends_iff`).  An
expression between the two anchors is found in the texts of its language (`Texts.search_iff`).
-/

namespace CodeArena.Lib

universe u

/-- A regular expression over characters. -/
inductive Re (α : Type u) where
  | empty
  /-- A character of a class. -/
  | atom (p : α → Bool)
  | seq (a b : Re α)
  | alt (a b : Re α)
  | star (a : Re α)
  /-- The start of the text. -/
  | start
  /-- The end of the text, or the newline that ends it. -/
  | stop

namespace Re

variable {α : Type u} (newline : α → Bool)

/-- `a+`. -/
def plus (a : Re α) : Re α := seq a (star a)

/-- Whether a rest of the text is its end. -/
def atEnd : List α → Bool
  | [] => true
  | [a] => newline a
  | _ => false

/-- Repeats what consumes something, at most so many times. -/
def iterate (f : List α → List (List α)) : Nat → List α → List (List α)
  | 0, s => [s]
  | n + 1, s => ((f s).filter fun s' ↦ s'.length < s.length).flatMap (iterate f n) ++ [s]

/-- What may be left of a rest `s` of a text of length `n`, after a match at its front. -/
def ends (n : Nat) : Re α → List α → List (List α)
  | empty, s => [s]
  | atom _, [] => []
  | atom p, a :: s => if p a then [s] else []
  | seq a b, s => (ends n a s).flatMap (ends n b)
  | alt a b, s => ends n a s ++ ends n b s
  | star a, s => iterate (ends n a) s.length s
  | start, s => if s.length = n then [s] else []
  | stop, s => if atEnd newline s then [s] else []

/-- Whether an expression matches a part of a text. -/
def search (r : Re α) (t : List α) : Bool :=
  t.tails.any fun s ↦ !(ends newline t.length r s).isEmpty

/-! ## Words -/

/-- A symbol of a match. -/
inductive Sym (α : Type u) where
  | char (a : α)
  | start
  | stop

/-- The words of an expression. -/
def words : Re α → Language (Sym α)
  | empty => 1
  | atom p => {w | ∃ a, p a = true ∧ w = [.char a]}
  | seq a b => words a * words b
  | alt a b => words a + words b
  | star a => KStar.kstar (words a)
  | start => {[.start]}
  | stop => {[.stop]}

/-- The characters of a word. -/
def chars (w : List (Sym α)) : List α :=
  w.filterMap fun x ↦ match x with
    | .char a => some a
    | _ => none

@[simp] theorem chars_nil : chars ([] : List (Sym α)) = [] := rfl

@[simp] theorem chars_char (a : α) (w : List (Sym α)) : chars (.char a :: w) = a :: chars w := rfl

@[simp] theorem chars_start (w : List (Sym α)) : chars (.start :: w) = chars w := rfl

@[simp] theorem chars_stop (w : List (Sym α)) : chars (.stop :: w) = chars w := rfl

@[simp] theorem chars_append (v w : List (Sym α)) : chars (v ++ w) = chars v ++ chars w :=
  List.filterMap_append

variable {newline}

/-- Reading a word from one rest of a text of length `n` to another. -/
def Reads (newline : α → Bool) (n : Nat) : List (Sym α) → List α → List α → Prop
  | [], s, s' => s = s'
  | .char a :: w, s, s' => ∃ rest, s = a :: rest ∧ Reads newline n w rest s'
  | .start :: w, s, s' => s.length = n ∧ Reads newline n w s s'
  | .stop :: w, s, s' => atEnd newline s = true ∧ Reads newline n w s s'

section

variable {n : Nat} {v w : List (Sym α)} {s s' : List α}

theorem reads_append : Reads newline n (v ++ w) s s' ↔
    ∃ m, Reads newline n v s m ∧ Reads newline n w m s' := by
  induction v generalizing s with
  | nil => simp [Reads]
  | cons x v ih =>
      cases x with
      | char a =>
          simp only [List.cons_append, Reads, ih]
          constructor
          · rintro ⟨rest, rfl, m, hv, hw⟩
            exact ⟨m, ⟨rest, rfl, hv⟩, hw⟩
          · rintro ⟨m, ⟨rest, rfl, hv⟩, hw⟩
            exact ⟨rest, rfl, m, hv, hw⟩
      | start => simp only [List.cons_append, Reads, ih, and_assoc, exists_and_left]
      | stop => simp only [List.cons_append, Reads, ih, and_assoc, exists_and_left]

/-- What is read is the characters of the word. -/
theorem Reads.eq_append (h : Reads newline n w s s') : s = chars w ++ s' := by
  induction w generalizing s with
  | nil => exact h
  | cons x w ih =>
      cases x with
      | char a =>
          obtain ⟨rest, rfl, hrest⟩ := h
          exact congrArg (a :: ·) (ih hrest)
      | start => exact ih h.2
      | stop => exact ih h.2

/-! ## Backtracking -/

/-- The repetition of an expression, where the expression is understood. -/
theorem mem_iterate_iff {f : List α → List (List α)} {L : Language (Sym α)}
    (hf : ∀ s s', s' ∈ f s ↔ ∃ w ∈ L, Reads newline n w s s') {k : Nat} (hk : s.length ≤ k) :
    s' ∈ iterate f k s ↔ ∃ w ∈ KStar.kstar L, Reads newline n w s s' := by
  constructor
  · intro h
    clear hk
    induction k generalizing s with
    | zero =>
        rw [iterate, List.mem_singleton] at h
        exact ⟨[], Language.nil_mem_kstar L, h.symm⟩
    | succ k ih =>
        rw [iterate, List.mem_append, List.mem_flatMap] at h
        rcases h with ⟨m, hm, hs'⟩ | h
        · obtain ⟨v, hv, hread⟩ := (hf s m).mp (List.mem_filter.mp hm).1
          obtain ⟨w, hw, hread'⟩ := ih hs'
          refine ⟨v ++ w, ?_, reads_append.mpr ⟨m, hread, hread'⟩⟩
          rw [Language.mem_kstar] at hw ⊢
          obtain ⟨ws, rfl, hws⟩ := hw
          exact ⟨v :: ws, rfl, List.forall_mem_cons.mpr ⟨hv, hws⟩⟩
        · exact ⟨[], Language.nil_mem_kstar L, (List.mem_singleton.mp h).symm⟩
  · rintro ⟨w, hw, hread⟩
    obtain ⟨ws, rfl, hws⟩ := Language.mem_kstar.mp hw
    clear hw
    -- rounds that read nothing are skipped
    induction ws generalizing s k with
    | nil =>
        obtain rfl : s = s' := hread
        cases k with
        | zero => exact List.mem_singleton_self s
        | succ k => exact List.mem_append_right _ (List.mem_singleton_self s)
    | cons v ws ih =>
        obtain ⟨hv, hws⟩ := List.forall_mem_cons.mp hws
        rw [List.flatten_cons] at hread
        obtain ⟨m, hread, hread'⟩ := reads_append.mp hread
        have heq := hread.eq_append
        by_cases hnil : chars v = []
        · rw [hnil, List.nil_append] at heq
          subst heq
          exact ih hk hws hread'
        · have hlt : m.length < s.length := by
            rw [heq, List.length_append]
            exact Nat.lt_add_of_pos_left (List.length_pos_of_ne_nil hnil)
          cases k with
          | zero => exact absurd hk (Nat.not_le.mpr (Nat.lt_of_le_of_lt (Nat.zero_le _) hlt))
          | succ k =>
              rw [iterate]
              refine List.mem_append_left _ (List.mem_flatMap.mpr ⟨m, ?_, ?_⟩)
              · exact List.mem_filter.mpr ⟨(hf s m).mpr ⟨v, hv, hread⟩, decide_eq_true hlt⟩
              · exact ih (by omega) hws hread'

/-- **Backtracking finds what reads a word.** -/
theorem mem_ends_iff {r : Re α} :
    s' ∈ ends newline n r s ↔ ∃ w ∈ words r, Reads newline n w s s' := by
  induction r generalizing s s' with
  | empty =>
      rw [ends, List.mem_singleton, words]
      simp [Language.mem_one, Reads, eq_comm]
  | atom p =>
      cases s with
      | nil =>
          constructor
          · exact nofun
          · rintro ⟨w, ⟨a, -, rfl⟩, rest, h, -⟩
            cases h
      | cons a s =>
          rw [ends]
          constructor
          · intro h
            split at h
            · rename_i hp
              exact ⟨_, ⟨a, hp, rfl⟩, s, rfl, (List.mem_singleton.mp h).symm⟩
            · cases h
          · rintro ⟨w, ⟨b, hp, rfl⟩, rest, h, hrest⟩
            cases h
            obtain rfl : s = s' := hrest
            rw [if_pos hp]
            exact List.mem_singleton_self s
  | seq a b iha ihb =>
      rw [ends, List.mem_flatMap, words]
      constructor
      · rintro ⟨m, hm, hs'⟩
        obtain ⟨v, hv, hread⟩ := iha.mp hm
        obtain ⟨w, hw, hread'⟩ := ihb.mp hs'
        exact ⟨v ++ w, Language.append_mem_mul hv hw, reads_append.mpr ⟨m, hread, hread'⟩⟩
      · rintro ⟨x, hx, hread⟩
        obtain ⟨v, hv, w, hw, rfl⟩ := Language.mem_mul.mp hx
        obtain ⟨m, hread, hread'⟩ := reads_append.mp hread
        exact ⟨m, iha.mpr ⟨v, hv, hread⟩, ihb.mpr ⟨w, hw, hread'⟩⟩
  | alt a b iha ihb =>
      rw [ends, List.mem_append, iha, ihb, words]
      constructor
      · rintro (⟨w, hw, hread⟩ | ⟨w, hw, hread⟩)
        · exact ⟨w, .inl hw, hread⟩
        · exact ⟨w, .inr hw, hread⟩
      · rintro ⟨w, hw | hw, hread⟩
        · exact .inl ⟨w, hw, hread⟩
        · exact .inr ⟨w, hw, hread⟩
  | star a ih =>
      rw [ends, words]
      exact mem_iterate_iff (fun _ _ ↦ ih) le_rfl
  | start =>
      rw [ends]
      constructor
      · intro h
        split at h
        · rename_i hn
          exact ⟨_, rfl, hn, (List.mem_singleton.mp h).symm⟩
        · cases h
      · rintro ⟨w, rfl, hn, rfl⟩
        rw [if_pos hn]
        exact List.mem_singleton_self s
  | stop =>
      rw [ends]
      constructor
      · intro h
        split at h
        · rename_i hend
          exact ⟨_, rfl, hend, (List.mem_singleton.mp h).symm⟩
        · cases h
      · rintro ⟨w, rfl, hend, rfl⟩
        rw [if_pos hend]
        exact List.mem_singleton_self s

theorem search_iff {r : Re α} {t : List α} :
    search newline r t = true ↔
      ∃ s s' w, s <:+ t ∧ w ∈ words r ∧ Reads newline t.length w s s' := by
  rw [search, List.any_eq_true]
  constructor
  · rintro ⟨s, hs, hne⟩
    obtain ⟨s', rest, heq⟩ := List.exists_cons_of_ne_nil
      (l := ends newline t.length r s) (by simpa using hne)
    have hmem : s' ∈ ends newline t.length r s := heq ▸ List.mem_cons_self
    obtain ⟨w, hw, hread⟩ := mem_ends_iff.mp hmem
    exact ⟨s, s', w, (List.mem_tails s t).mp hs, hw, hread⟩
  · rintro ⟨s, s', w, hs, hw, hread⟩
    refine ⟨s, (List.mem_tails s t).mpr hs, ?_⟩
    have hmem : s' ∈ ends newline t.length r s := mem_ends_iff.mpr ⟨w, hw, hread⟩
    simpa using List.ne_nil_of_mem hmem

end

/-! ## Whole texts -/

theorem reads_map_char {n : Nat} {as s s' : List α} :
    Reads newline n (as.map .char) s s' ↔ s = as ++ s' := by
  induction as generalizing s with
  | nil => rfl
  | cons a as ih =>
      simp only [List.map_cons, Reads, ih, List.cons_append]
      constructor
      · rintro ⟨rest, rfl, rfl⟩
        rfl
      · rintro rfl
        exact ⟨_, rfl, rfl⟩

/-- The expression stands for the texts of a language. -/
def Texts (r : Re α) (L : Language α) : Prop := ∀ w, w ∈ words r ↔ ∃ s ∈ L, w = s.map Sym.char

/-- The texts of one character of a class. -/
def one (p : α → Bool) : Language α := {s | ∃ a, p a = true ∧ s = [a]}

/-- The texts of one or more characters of a class. -/
def several (p : α → Bool) : Language α := {s | s ≠ [] ∧ ∀ a ∈ s, p a = true}

theorem texts_atom (p : α → Bool) : Texts (atom p) (one p) := by
  intro w
  constructor
  · rintro ⟨a, ha, rfl⟩
    exact ⟨[a], ⟨a, ha, rfl⟩, rfl⟩
  · rintro ⟨_, ⟨a, ha, rfl⟩, rfl⟩
    exact ⟨a, ha, rfl⟩

theorem Texts.seq {a b : Re α} {L M : Language α} (ha : a.Texts L) (hb : b.Texts M) :
    (a.seq b).Texts (L * M) := by
  intro w
  constructor
  · intro h
    obtain ⟨x, hx, y, hy, rfl⟩ := Language.mem_mul.mp h
    obtain ⟨s, hs, rfl⟩ := (ha x).mp hx
    obtain ⟨t, ht, rfl⟩ := (hb y).mp hy
    exact ⟨s ++ t, Language.append_mem_mul hs ht, List.map_append.symm⟩
  · rintro ⟨_, h, rfl⟩
    obtain ⟨s, hs, t, ht, rfl⟩ := Language.mem_mul.mp h
    rw [List.map_append]
    exact Language.append_mem_mul ((ha _).mpr ⟨s, hs, rfl⟩) ((hb _).mpr ⟨t, ht, rfl⟩)

theorem Texts.star {a : Re α} {L : Language α} (ha : a.Texts L) : a.star.Texts (KStar.kstar L) := by
  intro w
  constructor
  · rintro ⟨ws, rfl, hws⟩
    induction ws with
    | nil => exact ⟨[], Language.nil_mem_kstar L, rfl⟩
    | cons v ws ih =>
        obtain ⟨s, hs, rfl⟩ := (ha v).mp (hws v List.mem_cons_self)
        obtain ⟨_, ⟨ts, rfl, hts⟩, heq⟩ := ih fun w hw ↦ hws w (List.mem_cons_of_mem _ hw)
        refine ⟨s ++ ts.flatten, ⟨s :: ts, rfl, List.forall_mem_cons.mpr ⟨hs, hts⟩⟩, ?_⟩
        rw [List.flatten_cons, heq, List.map_append]
  · rintro ⟨_, ⟨ts, rfl, hts⟩, rfl⟩
    refine ⟨ts.map (List.map Sym.char), List.map_flatten, fun v hv ↦ ?_⟩
    obtain ⟨t, ht, rfl⟩ := List.mem_map.mp hv
    exact (ha _).mpr ⟨t, hts t ht, rfl⟩

theorem mem_kstar_one {p : α → Bool} {s : List α} :
    s ∈ KStar.kstar (one p) ↔ ∀ a ∈ s, p a = true := by
  constructor
  · rintro ⟨ts, rfl, hts⟩ a ha
    obtain ⟨t, ht, hat⟩ := List.mem_flatten.mp ha
    obtain ⟨b, hb, rfl⟩ := hts t ht
    rwa [List.mem_singleton.mp hat]
  · intro h
    refine ⟨s.map fun a ↦ [a], ?_, ?_⟩
    · rw [← List.flatMap_def, List.flatMap_singleton']
    · intro t ht
      obtain ⟨a, ha, rfl⟩ := List.mem_map.mp ht
      exact ⟨a, h a ha, rfl⟩

theorem texts_plus_atom (p : α → Bool) : Texts (plus (atom p)) (several p) := by
  intro w
  refine ((texts_atom p).seq (texts_atom p).star w).trans ?_
  refine exists_congr fun s ↦ and_congr_left fun _ ↦ ?_
  constructor
  · intro h
    obtain ⟨_, ⟨a, ha, rfl⟩, t, ht, rfl⟩ := Language.mem_mul.mp h
    exact ⟨List.cons_ne_nil a t, List.forall_mem_cons.mpr ⟨ha, mem_kstar_one.mp ht⟩⟩
  · rintro ⟨hne, h⟩
    cases s with
    | nil => exact absurd rfl hne
    | cons a t =>
        obtain ⟨ha, ht⟩ := List.forall_mem_cons.mp h
        exact Language.append_mem_mul (a := [a]) ⟨a, ha, rfl⟩ (mem_kstar_one.mpr ht)

/-- **An expression between the two anchors** is found in the texts of its language. -/
theorem Texts.search_iff {r : Re α} {L : Language α} (h : r.Texts L) {t : List α} :
    search (fun _ ↦ false) (.seq .start (.seq r .stop)) t = true ↔ t ∈ L := by
  have hend (s : List α) : atEnd (fun _ ↦ false) s = true ↔ s = [] := by
    match s with
    | [] => exact iff_of_true rfl rfl
    | [_] => exact iff_of_false Bool.false_ne_true (List.cons_ne_nil _ _)
    | _ :: _ :: _ => exact iff_of_false Bool.false_ne_true (List.cons_ne_nil _ _)
  rw [Re.search_iff]
  constructor
  · rintro ⟨s, s', w, hsuffix, hw, hread⟩
    obtain ⟨_, rfl, v, hv, rfl⟩ := Language.mem_mul.mp hw
    obtain ⟨x, hx, _, rfl, rfl⟩ := Language.mem_mul.mp hv
    obtain ⟨u, hu, rfl⟩ := (h x).mp hx
    -- What starts at the start of the text is all of it, and ends at its end.
    obtain ⟨hlen, hrest⟩ : s.length = t.length ∧
        Reads (fun _ ↦ false) t.length (u.map Sym.char ++ [Sym.stop]) s s' := hread
    obtain ⟨m, hm, hstop⟩ := reads_append.mp hrest
    rw [← hsuffix.eq_of_length hlen, reads_map_char.mp hm, (hend m).mp hstop.1, List.append_nil]
    exact hu
  · intro ht
    have hread : Reads (fun _ ↦ false) t.length (.start :: (t.map Sym.char ++ [Sym.stop])) t [] :=
      ⟨rfl, reads_append.mpr ⟨[], reads_map_char.mpr (List.append_nil t).symm, rfl, rfl⟩⟩
    refine ⟨t, [], .start :: (t.map Sym.char ++ [Sym.stop]), List.suffix_refl t, ?_, hread⟩
    have hwords : t.map Sym.char ++ [Sym.stop] ∈ words (.seq r .stop) :=
      Language.append_mem_mul ((h _).mpr ⟨t, ht, rfl⟩) rfl
    exact Language.append_mem_mul (a := [Sym.start]) rfl hwords

end Re

end CodeArena.Lib
