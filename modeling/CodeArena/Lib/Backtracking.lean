import Mathlib.Data.List.Forall2
import Mathlib.Data.List.Infix

/-!
# Backtracking

Patterns as a backtracking matcher tries them: greedily, lazily, or without going back.
`ends` lists what can be left of a text after a match at its front, *in the order in which
the matcher comes to it*, because a possessive repetition keeps the first of these and
forgets the others.  `search` tries every place of the text.

Two facts hold of every pattern, however it backtracks.  A renaming of the characters that
no class of the pattern sees changes nothing (`search_map`), and a match is at least as long
as the pattern asks (`length_add_shortest_le`).
-/

universe u

namespace CodeArena.Lib

/-- How a repetition chooses between one more round and none. -/
inductive Greed where
  | greedy
  | lazy
  /-- Greedy, and what was chosen is not changed later. -/
  | possessive
deriving DecidableEq, Repr

namespace Greed

variable {β : Type u}

/-- What one more round leads to and what no more rounds lead to, in the order in which they
are tried. -/
def order (g : Greed) (again stop : List β) : List β :=
  match g with
  | lazy => stop ++ again
  | _ => again ++ stop

/-- What is kept of all that can be chosen. -/
def commit (g : Greed) (xs : List β) : List β :=
  match g with
  | possessive => xs.take 1
  | _ => xs

theorem mem_order {g : Greed} {again stop : List β} {x : β} :
    x ∈ g.order again stop ↔ x ∈ again ∨ x ∈ stop := by
  cases g with
  | lazy => exact List.mem_append.trans or_comm
  | greedy => exact List.mem_append
  | possessive => exact List.mem_append

theorem mem_of_mem_commit {g : Greed} {xs : List β} {x : β} (h : x ∈ g.commit xs) : x ∈ xs := by
  cases g with
  | possessive => exact List.mem_of_mem_take h
  | greedy => exact h
  | lazy => exact h

theorem map_order {γ : Type u} (f : β → γ) (g : Greed) (again stop : List β) :
    (g.order again stop).map f = g.order (again.map f) (stop.map f) := by
  cases g with
  | lazy => exact List.map_append
  | greedy => exact List.map_append
  | possessive => exact List.map_append

theorem map_commit {γ : Type u} (f : β → γ) (g : Greed) (xs : List β) :
    (g.commit xs).map f = g.commit (xs.map f) := by
  cases g with
  | possessive => exact List.map_take
  | greedy => rfl
  | lazy => rfl

end Greed

/-- A pattern over characters. -/
inductive Pat (α : Type u) where
  | empty
  /-- A character of a class. -/
  | atom (p : α → Bool)
  | seq (a b : Pat α)
  | alt (a b : Pat α)
  /-- At least `min` rounds, and at most `max`, where there is a bound. -/
  | repeated (g : Greed) (min : Nat) (max : Option Nat) (a : Pat α)
  /-- The start of the text. -/
  | start
  /-- The end of the text, or the newline that ends it. -/
  | stop

namespace Pat

variable {α : Type u}

/-! ## Rounds -/

/-- So many rounds. -/
def times (f : List α → List (List α)) : Nat → List α → List (List α)
  | 0, s => [s]
  | n + 1, s => (f s).flatMap (times f n)

/-- At most so many rounds. -/
def upTo (g : Greed) (f : List α → List (List α)) : Nat → List α → List (List α)
  | 0, s => [s]
  | n + 1, s => g.order ((f s).flatMap (upTo g f n)) [s]

/-- One round or more: after a round that read nothing there is no other.  The number bounds
the rounds that can read something. -/
def rounds (g : Greed) (f : List α → List (List α)) : Nat → List α → List (List α)
  | 0, s => f s
  | n + 1, s => (f s).flatMap fun s' ↦
    if s'.length < s.length then g.order (rounds g f n s') [s'] else [s']

/-- The rounds of a repetition. -/
def repeats (g : Greed) (f : List α → List (List α)) (min : Nat) :
    Option Nat → List α → List (List α)
  | some max, s => g.commit ((times f min s).flatMap (upTo g f (max - min)))
  | none, s =>
    match min with
    | 0 => g.commit (g.order (rounds g f s.length s) [s])
    | n + 1 => g.commit ((times f n s).flatMap fun s' ↦ rounds g f s'.length s')

/-! ## Matching -/

variable (newline : α → Bool)

/-- Whether a rest of the text is its end. -/
def atEnd : List α → Bool
  | [] => true
  | [a] => newline a
  | _ => false

/-- What may be left of a rest `s` of a text of length `n`, after a match at its front. -/
def ends (n : Nat) : Pat α → List α → List (List α)
  | empty, s => [s]
  | atom _, [] => []
  | atom p, a :: s => if p a then [s] else []
  | seq a b, s => (ends n a s).flatMap (ends n b)
  | alt a b, s => ends n a s ++ ends n b s
  | repeated g min max a, s => repeats g (ends n a) min max s
  | start, s => if s.length = n then [s] else []
  | stop, s => if atEnd newline s then [s] else []

/-- Whether a pattern matches a part of a text. -/
def search (r : Pat α) (t : List α) : Bool :=
  t.tails.any fun s ↦ !(ends newline t.length r s).isEmpty

variable {newline}

theorem search_iff {r : Pat α} {t : List α} :
    search newline r t = true ↔ ∃ s s', s <:+ t ∧ s' ∈ ends newline t.length r s := by
  rw [search, List.any_eq_true]
  constructor
  · rintro ⟨s, hs, hne⟩
    obtain ⟨s', rest, heq⟩ := List.exists_cons_of_ne_nil
      (l := ends newline t.length r s) (by simpa using hne)
    exact ⟨s, s', (List.mem_tails s t).mp hs, heq ▸ List.mem_cons_self⟩
  · rintro ⟨s, s', hs, hmem⟩
    exact ⟨s, (List.mem_tails s t).mpr hs, by simpa using List.ne_nil_of_mem hmem⟩

/-! ## Renaming characters -/

/-- Every class of the pattern has a property. -/
def Atoms (P : (α → Bool) → Prop) : Pat α → Prop
  | empty | start | stop => True
  | atom p => P p
  | seq a b | alt a b => Atoms P a ∧ Atoms P b
  | repeated _ _ _ a => Atoms P a

/-- What is left of a renamed text is what is left of the text, renamed. -/
def Natural (ρ : α → α) (f : List α → List (List α)) : Prop :=
  ∀ s, f (s.map ρ) = (f s).map (List.map ρ)

namespace Natural

variable {ρ : α → α} {f f' : List α → List (List α)}

theorem flatMap (hf : Natural ρ f) (hf' : Natural ρ f') :
    Natural ρ fun s ↦ (f s).flatMap f' := by
  intro s
  show (f (s.map ρ)).flatMap f' = ((f s).flatMap f').map (List.map ρ)
  rw [hf s, List.flatMap_map, List.map_flatMap]
  exact congrArg (List.flatMap · (f s)) (funext hf')

theorem order (g : Greed) (hf : Natural ρ f) (hf' : Natural ρ f') :
    Natural ρ fun s ↦ g.order (f s) (f' s) := by
  intro s
  show g.order (f (s.map ρ)) (f' (s.map ρ)) = (g.order (f s) (f' s)).map (List.map ρ)
  rw [hf s, hf' s, Greed.map_order]

theorem commit (g : Greed) (hf : Natural ρ f) : Natural ρ fun s ↦ g.commit (f s) := by
  intro s
  show g.commit (f (s.map ρ)) = (g.commit (f s)).map (List.map ρ)
  rw [hf s, Greed.map_commit]

theorem here : Natural ρ fun s ↦ [s] := fun _ ↦ rfl

theorem times (hf : Natural ρ f) (n : Nat) : Natural ρ (times f n) := by
  induction n with
  | zero => exact here
  | succ n ih => exact hf.flatMap ih

theorem upTo (g : Greed) (hf : Natural ρ f) (n : Nat) : Natural ρ (upTo g f n) := by
  induction n with
  | zero => exact here
  | succ n ih => exact (hf.flatMap ih).order g here

theorem rounds (g : Greed) (hf : Natural ρ f) (n : Nat) : Natural ρ (rounds g f n) := by
  induction n with
  | zero => exact hf
  | succ n ih =>
      intro s
      rw [Pat.rounds, Pat.rounds, hf s, List.flatMap_map, List.map_flatMap]
      refine congrArg (List.flatMap · (f s)) (funext fun s' ↦ ?_)
      rw [List.length_map, List.length_map, apply_ite (List.map (List.map ρ))]
      exact congrArg (ite _ · _) (ih.order g here s')

theorem repeats (g : Greed) (hf : Natural ρ f) (min : Nat) (max : Option Nat) :
    Natural ρ (repeats g f min max) := by
  have hrounds : Natural ρ fun s ↦ Pat.rounds g f s.length s := by
    intro s
    show Pat.rounds g f (s.map ρ).length (s.map ρ) = _
    rw [List.length_map]
    exact hf.rounds g _ s
  cases max with
  | some max => exact ((hf.times min).flatMap (hf.upTo g _)).commit g
  | none =>
      cases min with
      | zero => exact (hrounds.order g here).commit g
      | succ n => exact ((hf.times n).flatMap hrounds).commit g

end Natural

section

variable {ρ : α → α} {r : Pat α}

theorem atEnd_map (hnewline : ∀ a, newline (ρ a) = newline a) (s : List α) :
    atEnd newline (s.map ρ) = atEnd newline s := by
  match s with
  | [] => rfl
  | [a] => exact hnewline a
  | _ :: _ :: _ => rfl

theorem natural_ends (h : r.Atoms fun p ↦ ∀ a, p (ρ a) = p a)
    (hnewline : ∀ a, newline (ρ a) = newline a) (n : Nat) : Natural ρ (ends newline n r) := by
  induction r with
  | empty => exact .here
  | atom p =>
      intro s
      cases s with
      | nil => rfl
      | cons a s =>
          rw [List.map_cons, ends, ends, h a]
          cases p a with
          | true => rfl
          | false => rfl
  | seq a b iha ihb => exact (iha h.1).flatMap (ihb h.2)
  | alt a b iha ihb =>
      intro s
      rw [ends, ends, iha h.1 s, ihb h.2 s, List.map_append]
  | repeated g min max a ih => exact (ih h).repeats g min max
  | start =>
      intro s
      rw [ends, ends, List.length_map, apply_ite (List.map (List.map ρ))]
      rfl
  | stop =>
      intro s
      rw [ends, ends, atEnd_map hnewline, apply_ite (List.map (List.map ρ))]
      rfl

/-- **A renaming that no class sees** changes nothing. -/
theorem search_map (h : r.Atoms fun p ↦ ∀ a, p (ρ a) = p a)
    (hnewline : ∀ a, newline (ρ a) = newline a) (t : List α) :
    search newline r (t.map ρ) = search newline r t := by
  rw [search, search, List.map_tails, List.any_map]
  congr 1
  funext s
  rw [Function.comp_apply, List.length_map, natural_ends h hnewline _ s, List.isEmpty_map]

end

/-! ## Lengths -/

/-- The number of characters that a match needs at least. -/
def shortest : Pat α → Nat
  | empty | start | stop => 0
  | atom _ => 1
  | seq a b => shortest a + shortest b
  | alt a b => min (shortest a) (shortest b)
  | repeated _ min _ a => min * shortest a

section

variable {f : List α → List (List α)} {k : Nat} {s s' : List α}

theorem length_times_le (hf : ∀ s, ∀ s' ∈ f s, s'.length + k ≤ s.length) {n : Nat}
    (h : s' ∈ times f n s) : s'.length + n * k ≤ s.length := by
  induction n generalizing s with
  | zero =>
      obtain rfl := List.mem_singleton.mp h
      simp
  | succ n ih =>
      obtain ⟨m, hm, hs'⟩ := List.mem_flatMap.mp h
      have hround := hf s m hm
      have hrest := ih hs'
      rw [Nat.succ_mul]
      omega

theorem length_upTo_le (g : Greed) (hf : ∀ s, ∀ s' ∈ f s, s'.length ≤ s.length) {n : Nat}
    (h : s' ∈ upTo g f n s) : s'.length ≤ s.length := by
  induction n generalizing s with
  | zero => exact Nat.le_of_eq (congrArg List.length (List.mem_singleton.mp h))
  | succ n ih =>
      rcases Greed.mem_order.mp h with h | h
      · obtain ⟨m, hm, hs'⟩ := List.mem_flatMap.mp h
        exact (ih hs').trans (hf s m hm)
      · exact Nat.le_of_eq (congrArg List.length (List.mem_singleton.mp h))

theorem length_rounds_le (g : Greed) (hf : ∀ s, ∀ s' ∈ f s, s'.length + k ≤ s.length) {n : Nat}
    (h : s' ∈ rounds g f n s) : s'.length + k ≤ s.length := by
  induction n generalizing s with
  | zero => exact hf s s' h
  | succ n ih =>
      obtain ⟨m, hm, hs'⟩ := List.mem_flatMap.mp h
      have hround := hf s m hm
      split at hs'
      · rcases Greed.mem_order.mp hs' with hs' | hs'
        · have hrest := ih hs'
          omega
        · rwa [List.mem_singleton.mp hs']
      · rwa [List.mem_singleton.mp hs']

theorem length_repeats_le (g : Greed) (hf : ∀ s, ∀ s' ∈ f s, s'.length + k ≤ s.length)
    {min : Nat} {max : Option Nat} (h : s' ∈ repeats g f min max s) :
    s'.length + min * k ≤ s.length := by
  have hshorter : ∀ s, ∀ s' ∈ f s, s'.length ≤ s.length := fun s s' hs' ↦
    (Nat.le_add_right _ _).trans (hf s s' hs')
  cases max with
  | some max =>
      obtain ⟨m, hm, hs'⟩ := List.mem_flatMap.mp (Greed.mem_of_mem_commit h)
      have hrounds := length_times_le hf hm
      have hmore := length_upTo_le g hshorter hs'
      omega
  | none =>
      cases min with
      | zero =>
          rw [Nat.zero_mul, Nat.add_zero]
          rcases Greed.mem_order.mp (Greed.mem_of_mem_commit h) with h | h
          · exact length_rounds_le (k := 0) g hshorter h
          · exact Nat.le_of_eq (congrArg List.length (List.mem_singleton.mp h))
      | succ n =>
          obtain ⟨m, hm, hs'⟩ := List.mem_flatMap.mp (Greed.mem_of_mem_commit h)
          have hrounds := length_times_le hf hm
          have hmore := length_rounds_le g hf hs'
          rw [Nat.succ_mul]
          omega

end

/-- **A match is as long as the pattern asks**, at least. -/
theorem length_add_shortest_le {n : Nat} {r : Pat α} {s s' : List α}
    (h : s' ∈ ends newline n r s) : s'.length + shortest r ≤ s.length := by
  induction r generalizing s s' with
  | empty => exact Nat.le_of_eq (congrArg List.length (List.mem_singleton.mp h))
  | atom p =>
      cases s with
      | nil => cases h
      | cons a s =>
          rw [ends] at h
          split at h
          · rw [List.mem_singleton.mp h]
            exact Nat.le_refl _
          · cases h
  | seq a b iha ihb =>
      obtain ⟨m, hm, hs'⟩ := List.mem_flatMap.mp h
      have hleft := iha hm
      have hright := ihb hs'
      rw [shortest]
      omega
  | alt a b iha ihb =>
      rw [shortest]
      rcases List.mem_append.mp h with h | h
      · exact (Nat.add_le_add_left (Nat.min_le_left _ _) _).trans (iha h)
      · exact (Nat.add_le_add_left (Nat.min_le_right _ _) _).trans (ihb h)
  | repeated g min max a ih => exact length_repeats_le g (fun _ _ ↦ ih) h
  | start =>
      rw [ends] at h
      split at h
      · exact Nat.le_of_eq (congrArg List.length (List.mem_singleton.mp h))
      · cases h
  | stop =>
      rw [ends] at h
      split at h
      · exact Nat.le_of_eq (congrArg List.length (List.mem_singleton.mp h))
      · cases h

/-! ## Texts that are matched -/

/-- The pattern matches `w`, and nothing shorter. -/
structure Takes (newline : α → Bool) (r : Pat α) (w : List α) : Prop where
  mem_ends : ∀ n s, s ∈ ends newline n r (w ++ s)
  shortest_eq : shortest r = w.length

namespace Takes

variable {r r' : Pat α} {w w' : List α}

theorem empty : Takes newline (.empty : Pat α) [] :=
  ⟨fun _ s ↦ List.mem_singleton_self s, rfl⟩

theorem atom {p : α → Bool} {a : α} (h : p a = true) : Takes newline (.atom p) [a] where
  mem_ends n s := by
    rw [List.singleton_append, ends, if_pos h]
    exact List.mem_singleton_self s
  shortest_eq := rfl

theorem seq (h : Takes newline r w) (h' : Takes newline r' w') :
    Takes newline (.seq r r') (w ++ w') where
  mem_ends n s := by
    rw [List.append_assoc]
    exact List.mem_flatMap.mpr ⟨w' ++ s, h.mem_ends n _, h'.mem_ends n s⟩
  shortest_eq := by rw [shortest, h.shortest_eq, h'.shortest_eq, List.length_append]

/-- A character that may be repeated is taken as often as it must be. -/
theorem repeated {p : α → Bool} {a : α} (h : p a = true) (min : Nat) (max : Option Nat) :
    Takes newline (.repeated .greedy min max (.atom p)) (List.replicate min a) where
  mem_ends n s := by
    have hround : ∀ s, ends newline n (.atom p) (a :: s) = [s] := fun s ↦ if_pos h
    have htimes : ∀ k s, s ∈ times (ends newline n (.atom p)) k (List.replicate k a ++ s) := by
      intro k
      induction k with
      | zero => exact fun s ↦ List.mem_singleton_self s
      | succ k ih =>
          intro s
          rw [List.replicate_succ, List.cons_append, times, hround, List.flatMap_singleton]
          exact ih s
    show s ∈ repeats .greedy (ends newline n (.atom p)) min max _
    cases max with
    | some max =>
        refine List.mem_flatMap.mpr ⟨s, htimes min s, ?_⟩
        cases max - min with
        | zero => exact List.mem_singleton_self s
        | succ k => exact List.mem_append_right _ (List.mem_singleton_self s)
    | none =>
        cases min with
        | zero => exact List.mem_append_right _ (List.mem_singleton_self s)
        | succ k =>
            rw [List.replicate_succ', List.append_assoc]
            refine List.mem_flatMap.mpr ⟨a :: s, htimes k _, ?_⟩
            show s ∈ rounds .greedy _ (s.length + 1) (a :: s)
            have hlt : s.length < (a :: s).length := Nat.lt_succ_self s.length
            rw [rounds, hround, List.flatMap_singleton, if_pos hlt]
            exact List.mem_append_right _ (List.mem_singleton_self s)
  shortest_eq := by rw [shortest, shortest, Nat.mul_one, List.length_replicate]

theorem search (h : Takes newline r w) : search newline r w = true := by
  have hmem := h.mem_ends w.length []
  rw [List.append_nil] at hmem
  exact search_iff.mpr ⟨w, [], List.suffix_refl w, hmem⟩

/-- What is found in a text takes no more than the text has. -/
theorem length_le (h : Takes newline r w) {t : List α} (ht : Pat.search newline r t = true) :
    w.length ≤ t.length := by
  obtain ⟨s, s', hs, hmem⟩ := search_iff.mp ht
  have hlen := length_add_shortest_le hmem
  rw [h.shortest_eq] at hlen
  exact (Nat.le_add_left _ _).trans (hlen.trans hs.length_le)

end Takes

/-! ## Texts of classes -/

/-- The pattern stands for the texts with one character of each class. -/
def Spells (newline : α → Bool) (r : Pat α) (ps : List (α → Bool)) : Prop :=
  ∀ n s s', s' ∈ ends newline n r s ↔
    ∃ as, List.Forall₂ (fun p a ↦ p a = true) ps as ∧ s = as ++ s'

namespace Spells

variable {r r' : Pat α} {ps qs : List (α → Bool)}

theorem empty : Spells newline (.empty : Pat α) [] := by
  intro n s s'
  constructor
  · intro h
    exact ⟨[], .nil, (List.mem_singleton.mp h).symm⟩
  · rintro ⟨as, has, rfl⟩
    cases has
    exact List.mem_singleton_self _

theorem atom (p : α → Bool) : Spells newline (.atom p) [p] := by
  intro n s s'
  constructor
  · intro h
    cases s with
    | nil => cases h
    | cons a s =>
        rw [ends] at h
        split at h
        · rename_i hp
          exact ⟨[a], .cons hp .nil, by rw [List.mem_singleton.mp h]; rfl⟩
        · cases h
  · rintro ⟨as, has, rfl⟩
    obtain _ | ⟨hp, hrest⟩ := has
    cases hrest
    rw [List.singleton_append, ends, if_pos hp]
    exact List.mem_singleton_self _

theorem seq (h : Spells newline r ps) (h' : Spells newline r' qs) :
    Spells newline (.seq r r') (ps ++ qs) := by
  intro n s s'
  rw [ends, List.mem_flatMap]
  constructor
  · rintro ⟨m, hm, hs'⟩
    obtain ⟨as, has, rfl⟩ := (h n s m).mp hm
    obtain ⟨bs, hbs, rfl⟩ := (h' n m s').mp hs'
    exact ⟨as ++ bs, List.rel_append has hbs, (List.append_assoc _ _ _).symm⟩
  · rintro ⟨as, has, rfl⟩
    have hleft := List.forall₂_take ps.length has
    have hright := List.forall₂_drop ps.length has
    rw [List.take_left] at hleft
    rw [List.drop_left] at hright
    refine ⟨as.drop ps.length ++ s', (h n _ _).mpr ⟨_, hleft, ?_⟩, (h' n _ _).mpr ⟨_, hright, rfl⟩⟩
    rw [← List.append_assoc, List.take_append_drop]

/-- **What spells texts** is found where one of them is a part of the text. -/
theorem search_iff (h : Spells newline r ps) {t : List α} :
    search newline r t = true ↔
      ∃ as, List.Forall₂ (fun p a ↦ p a = true) ps as ∧ as <:+: t := by
  rw [Pat.search_iff]
  constructor
  · rintro ⟨s, s', ⟨t', rfl⟩, hmem⟩
    obtain ⟨as, has, rfl⟩ := (h _ s s').mp hmem
    exact ⟨as, has, t', s', List.append_assoc _ _ _⟩
  · rintro ⟨as, has, t', s', rfl⟩
    exact ⟨as ++ s', s', ⟨t', (List.append_assoc _ _ _).symm⟩, (h _ _ _).mpr ⟨as, has, rfl⟩⟩

end Spells

end Pat

end CodeArena.Lib
