import CodeArena.Lib.Machine
import Mathlib.Logic.Function.Basic

/-!
# Contests for keys

Contenders want keys that can be held once.  Each looks whether its key is held and gives up
if it is, and takes it if it is not: the two are separate moves, so that any number of
contenders may have found a key free before one of them takes it, and whoever comes later is
refused it then.  A contender may also leave without having been told how its attempt came
out, with the key or without.

A key has one holder and keeps it (`Fair`), so that nobody wins what another has won
(`winner_unique`); and once nobody wants a key any more and nobody has left, all who wanted
it have lost it to one winner or to who held it before (`decided`).
-/

universe u v

namespace CodeArena.Lib

/-- Where a contender stands. -/
inductive Stand (κ : Type v) where
  | out
  | wants (k : κ)
  | won (k : κ)
  | lost (k : κ)
  /-- It left, and does not know whether it holds the key. -/
  | left (k : κ)

/-- Who holds a key. -/
inductive Holder (ι : Type u) where
  | nobody
  /-- The key was held before the contest. -/
  | before
  | contender (i : ι)

/-- A contest. -/
structure Contest (ι : Type u) (κ : Type v) where
  stand : ι → Stand κ
  holder : κ → Holder ι

/-- What a contender does. -/
inductive Move (ι : Type u) (κ : Type v) where
  | enter (i : ι) (k : κ)
  /-- It takes its key, which nobody holds. -/
  | take (i : ι)
  /-- It finds its key held. -/
  | yield (i : ι)
  /-- It leaves without the key. -/
  | leave (i : ι)
  /-- It takes its key, and leaves without knowing. -/
  | lose (i : ι)

namespace Contest

variable {ι : Type u} {κ : Type v} [DecidableEq ι] [DecidableEq κ]

/-- The start: nobody is in, and the keys of a set are held. -/
def start (held : κ → Bool) : Contest ι κ :=
  ⟨fun _ ↦ .out, fun k ↦ if held k then .before else .nobody⟩

/-- A contender stands somewhere else. -/
def put (s : Contest ι κ) (i : ι) (st : Stand κ) : Contest ι κ :=
  { s with stand := Function.update s.stand i st }

/-- A contender has the key. -/
def give (s : Contest ι κ) (i : ι) (k : κ) : Contest ι κ :=
  { s with holder := Function.update s.holder k (.contender i) }

/-- One move. -/
def move (s : Contest ι κ) : Move ι κ → Option (Contest ι κ)
  | .enter i k =>
    match s.stand i with
    | .out => some (s.put i (.wants k))
    | _ => none
  | .take i =>
    match s.stand i with
    | .wants k =>
      match s.holder k with
      | .nobody => some ((s.give i k).put i (.won k))
      | _ => none
    | _ => none
  | .yield i =>
    match s.stand i with
    | .wants k =>
      match s.holder k with
      | .nobody => none
      | _ => some (s.put i (.lost k))
    | _ => none
  | .leave i =>
    match s.stand i with
    | .wants k => some (s.put i (.left k))
    | _ => none
  | .lose i =>
    match s.stand i with
    | .wants k =>
      match s.holder k with
      | .nobody => some ((s.give i k).put i (.left k))
      | _ => none
    | _ => none

/-- Contests where the keys of a set are held before. -/
def machine (held : κ → Bool) : Machine (Contest ι κ) (Move ι κ) := ⟨start held, move⟩

/-- What holds of every contest. -/
structure Fair (held : κ → Bool) (s : Contest ι κ) : Prop where
  /-- Who has won a key holds it. -/
  won : ∀ i k, s.stand i = .won k → s.holder k = .contender i
  /-- Who has lost a key lost it to somebody. -/
  lost : ∀ i k, s.stand i = .lost k → s.holder k ≠ .nobody
  /-- Who holds a key won it, or has left. -/
  contender : ∀ i k, s.holder k = .contender i → s.stand i = .won k ∨ s.stand i = .left k
  /-- The keys that were held before still are, and no others. -/
  before : ∀ k, s.holder k = .before ↔ held k = true

/-! ## What a move does -/

/-- The ways to move. -/
inductive Moves (s : Contest ι κ) : Contest ι κ → Prop
  | enter {i : ι} {k : κ} : s.stand i = .out → Moves s (s.put i (.wants k))
  /-- A contender takes a key, and knows of it or not. -/
  | take {i : ι} {k : κ} {st : Stand κ} : s.stand i = .wants k → s.holder k = .nobody →
      st = .won k ∨ st = .left k → Moves s ((s.give i k).put i st)
  /-- A contender gives up a key that is held, or leaves. -/
  | giveUp {i : ι} {k : κ} {st : Stand κ} : s.stand i = .wants k →
      st = .lost k ∧ s.holder k ≠ .nobody ∨ st = .left k → Moves s (s.put i st)

variable {held : κ → Bool} {s t : Contest ι κ} {i j : ι} {k : κ} {l : Move ι κ}

theorem move_enter (h : s.stand i = .out) : s.move (.enter i k) = some (s.put i (.wants k)) := by
  rw [move, h]

theorem move_take (h : s.stand i = .wants k) (hfree : s.holder k = .nobody) :
    s.move (.take i) = some ((s.give i k).put i (.won k)) := by
  rw [move, h]
  simp only [hfree]

theorem move_yield (h : s.stand i = .wants k) (hheld : s.holder k ≠ .nobody) :
    s.move (.yield i) = some (s.put i (.lost k)) := by
  rw [move, h]
  cases hk : s.holder k with
  | nobody => exact absurd hk hheld
  | before => simp only [hk]
  | contender j => simp only [hk]

theorem move_leave (h : s.stand i = .wants k) :
    s.move (.leave i) = some (s.put i (.left k)) := by
  rw [move, h]

theorem move_lose (h : s.stand i = .wants k) (hfree : s.holder k = .nobody) :
    s.move (.lose i) = some ((s.give i k).put i (.left k)) := by
  rw [move, h]
  simp only [hfree]

theorem moves_of_move (h : s.move l = some t) : Moves s t := by
  cases l with
  | enter i k =>
      simp only [move] at h
      split at h
      · rename_i hout
        cases h
        exact .enter hout
      · cases h
  | take i =>
      simp only [move] at h
      split at h
      · rename_i k hwants
        split at h
        · rename_i hfree
          cases h
          exact .take hwants hfree (.inl rfl)
        · cases h
      · cases h
  | yield i =>
      simp only [move] at h
      split at h
      · rename_i k hwants
        split at h
        · cases h
        · rename_i hheld
          cases h
          exact .giveUp hwants (.inl ⟨rfl, fun hfree ↦ hheld hfree⟩)
      · cases h
  | leave i =>
      simp only [move] at h
      split at h
      · rename_i k hwants
        cases h
        exact .giveUp hwants (.inr rfl)
      · cases h
  | lose i =>
      simp only [move] at h
      split at h
      · rename_i k hwants
        split at h
        · rename_i hfree
          cases h
          exact .take hwants hfree (.inr rfl)
        · cases h
      · cases h

/-! ## The invariant -/

omit [DecidableEq κ] in
theorem stand_put (st : Stand κ) (j : ι) :
    (s.put i st).stand j = if j = i then st else s.stand j := by
  show Function.update s.stand i st j = _
  rw [Function.update_apply]

omit [DecidableEq ι] in
theorem holder_give (k' : κ) :
    (s.give i k).holder k' = if k' = k then .contender i else s.holder k' := by
  show Function.update s.holder k (.contender i) k' = _
  rw [Function.update_apply]

omit [DecidableEq ι] [DecidableEq κ] in
theorem fair_start (held : κ → Bool) : Fair held (start held : Contest ι κ) where
  won _ _ h := by cases h
  lost _ _ h := by cases h
  contender i k h := by
    have hstart : (start held : Contest ι κ).holder k = if held k then .before else .nobody := rfl
    rw [hstart] at h
    split at h <;> cases h
  before k := by
    have hstart : (start held : Contest ι κ).holder k = if held k then .before else .nobody := rfl
    rw [hstart]
    split
    · rename_i hk
      exact iff_of_true rfl hk
    · rename_i hk
      exact iff_of_false nofun hk

omit [DecidableEq κ] in
/-- A contender that does not hold a key may stand wherever its new place says nothing of a
key, or something that is so. -/
theorem Fair.put {st : Stand κ} (h : Fair held s) (hfree : ∀ k, s.holder k ≠ .contender i)
    (hwon : ∀ k, st ≠ .won k) (hlost : ∀ k, st = .lost k → s.holder k ≠ .nobody) :
    Fair held (s.put i st) where
  won j k hj := by
    rw [stand_put] at hj
    split at hj
    · exact absurd hj (hwon k)
    · exact h.won j k hj
  lost j k hj := by
    rw [stand_put] at hj
    split at hj
    · exact hlost k hj
    · exact h.lost j k hj
  contender j k hj := by
    have hne : j ≠ i := fun heq ↦ hfree k (heq ▸ hj)
    rw [stand_put, if_neg hne]
    exact h.contender j k hj
  before := h.before

omit [DecidableEq ι] [DecidableEq κ] in
/-- Who has not won a key, and has not left, holds none. -/
theorem Fair.holder_ne (h : Fair held s) (hi : ∀ k, s.stand i ≠ .won k ∧ s.stand i ≠ .left k)
    (k : κ) : s.holder k ≠ .contender i := by
  intro hk
  rcases h.contender i k hk with hwon | hleft
  · exact (hi k).1 hwon
  · exact (hi k).2 hleft

theorem Fair.take {st : Stand κ} (h : Fair held s) (hwants : s.stand i = .wants k)
    (hfree : s.holder k = .nobody) (hst : st = .won k ∨ st = .left k) :
    Fair held ((s.give i k).put i st) where
  won j k' hj := by
    rw [stand_put] at hj
    show (s.give i k).holder k' = _
    rw [holder_give]
    split at hj
    · rename_i heq
      rcases hst with rfl | rfl
      · cases hj
        rw [if_pos rfl, heq]
      · cases hj
    · have hholder := h.won j k' hj
      have hne : k' ≠ k := fun heq ↦ by
        rw [heq, hfree] at hholder
        cases hholder
      rw [if_neg hne]
      exact hholder
  lost j k' hj := by
    rw [stand_put] at hj
    show (s.give i k).holder k' ≠ _
    rw [holder_give]
    split at hj
    · rcases hst with rfl | rfl <;> cases hj
    · split
      · exact nofun
      · exact h.lost j k' hj
  contender j k' hj := by
    have hgive : (s.give i k).holder k' = .contender j := hj
    rw [holder_give] at hgive
    rw [stand_put]
    split at hgive
    · rename_i heq
      cases hgive
      rw [if_pos rfl, heq]
      exact hst
    · have hne : j ≠ i := by
        rintro rfl
        refine h.holder_ne (i := j) (fun k ↦ ?_) k' hgive
        rw [hwants]
        exact ⟨nofun, nofun⟩
      rw [if_neg hne]
      exact h.contender j k' hgive
  before k' := by
    show (s.give i k).holder k' = .before ↔ _
    rw [holder_give]
    split
    · rename_i heq
      refine iff_of_false nofun fun hheld ↦ ?_
      have hbefore := (h.before k').mpr hheld
      rw [heq, hfree] at hbefore
      cases hbefore
    · exact h.before k'

/-- **Step lemma.** -/
theorem Moves.fair (h : Moves s t) (hs : Fair held s) : Fair held t := by
  cases h with
  | enter hout =>
      refine hs.put (hs.holder_ne fun k ↦ ?_) nofun nofun
      rw [hout]
      exact ⟨nofun, nofun⟩
  | take hwants hfree hst => exact hs.take hwants hfree hst
  | giveUp hwants hst =>
      refine hs.put (hs.holder_ne fun k ↦ ?_) (fun k hwon ↦ ?_) (fun k hlost ↦ ?_)
      · rw [hwants]
        exact ⟨nofun, nofun⟩
      · rcases hst with ⟨rfl, -⟩ | rfl <;> cases hwon
      · rcases hst with ⟨rfl, hheld⟩ | rfl
        · cases hlost
          exact hheld
        · cases hlost

/-- **Every contest is fair.** -/
theorem fair_of_reachable (h : (machine held).Reachable Machine.anyStep s) : Fair held s :=
  h.invariant (fair_start held) fun _ _ _ hs _ hm ↦ (moves_of_move hm).fair hs

/-! ## How contests end -/

omit [DecidableEq ι] [DecidableEq κ] in
/-- **A key is won by one contender at most.** -/
theorem Fair.winner_unique (h : Fair held s) (hi : s.stand i = .won k) (hj : s.stand j = .won k) :
    i = j := by
  have heq := (h.won i k hi).symm.trans (h.won j k hj)
  cases heq
  rfl

/-- Nobody wants the key, and nobody has left the contest for it. -/
def Settled (s : Contest ι κ) (k : κ) : Prop := ∀ i, s.stand i ≠ .wants k ∧ s.stand i ≠ .left k

omit [DecidableEq ι] [DecidableEq κ] in
/-- **A settled contest is decided.**  Where somebody stood up for a key that was not held
before, one contender has won it; where it was held before, nobody has. -/
theorem Fair.decided (h : Fair held s) (hsettled : s.Settled k)
    (hi : s.stand i = .won k ∨ s.stand i = .lost k) :
    (held k = false → ∃ j, s.stand j = .won k) ∧ (held k = true → ∀ j, s.stand j ≠ .won k) := by
  constructor
  · intro hnot
    rcases hi with hwon | hlost
    · exact ⟨i, hwon⟩
    · cases hk : s.holder k with
      | nobody => exact absurd hk (h.lost i k hlost)
      | before =>
          rw [(h.before k).mp hk] at hnot
          cases hnot
      | contender j =>
          rcases h.contender j k hk with hwon | hleft
          · exact ⟨j, hwon⟩
          · exact absurd hleft (hsettled j).2
  · intro hheld j hwon
    have hbefore := (h.before k).mpr hheld
    rw [h.won j k hwon] at hbefore
    cases hbefore

end Contest

end CodeArena.Lib
