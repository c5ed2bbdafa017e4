import Mathlib.Logic.Basic

/-!
# Labelled machines and their runs

A `Machine` is a start state and a partial step under a label: the label says
who moves and how every call that moves makes comes out, so that one step is a
function and a whole interleaving is a list of labels.  This file provides what
every proof about such a machine needs: runs, the restriction of runs to steps
that meet a condition, and the two induction rules, for a property of every
state reached and for a relation between the states of a run.

The condition `ok` of a run is on the state *before* the step and the label.
It carries two different things: the assumptions under which a statement is made
(`ok` rules out calls that fail) and the exact condition under which a property
of the modelled code holds.
-/

universe u v

namespace CodeArena.Lib

/-- A machine over states `σ` and labels `ι`: where it starts, and the state a
label leads to where the label is enabled. -/
structure Machine (σ : Type u) (ι : Type v) where
  /-- The start state. -/
  init : σ
  /-- The state after a step, where the step is enabled. -/
  step : σ → ι → Option σ

namespace Machine

variable {σ : Type u} {ι : Type v} {M : Machine σ ι}

/-- `M.Run ok s ls t`: the labels `ls` lead from `s` to `t`, every step being
taken in a state and under a label that meet `ok`. -/
inductive Run (M : Machine σ ι) (ok : σ → ι → Prop) : σ → List ι → σ → Prop
  | /-- The empty run. -/
    nil (s : σ) : Run M ok s [] s
  | /-- A step, then a run. -/
    cons {s t u : σ} {l : ι} {ls : List ι} :
      ok s l → M.step s l = some t → Run M ok t ls u → Run M ok s (l :: ls) u

/-- The condition every step meets. -/
def anyStep : σ → ι → Prop := fun _ _ ↦ True

instance (s : σ) (l : ι) : Decidable (anyStep s l) := .isTrue trivial

/-- The state that a list of labels leads to, where every one of them is enabled in
its turn and meets `ok`. -/
def exec (M : Machine σ ι) (ok : σ → ι → Prop) [∀ s l, Decidable (ok s l)] :
    σ → List ι → Option σ
  | s, [] => some s
  | s, l :: ls => if ok s l then (M.step s l).bind fun t ↦ M.exec ok t ls else none

/-- What a machine executes is a run. -/
theorem Run.of_exec {ok : σ → ι → Prop} [∀ s l, Decidable (ok s l)] {ls : List ι} :
    ∀ {s t : σ}, M.exec ok s ls = some t → M.Run ok s ls t := by
  induction ls with
  | nil =>
      intro s t h
      cases h
      exact .nil s
  | cons l ls ih =>
      intro s t h
      rw [exec] at h
      split at h
      · rename_i hok
        obtain ⟨r, hr, hrest⟩ := Option.bind_eq_some_iff.mp h
        exact .cons hok hr (ih hrest)
      · cases h

/-- A run to a state with a decidable property, found by executing it. -/
theorem exists_run_of_exec (M : Machine σ ι) (ok : σ → ι → Prop) [∀ s l, Decidable (ok s l)]
    (s : σ) (ls : List ι) (P : σ → Bool) (h : (M.exec ok s ls).any P = true) :
    ∃ t, M.Run ok s ls t ∧ P t = true := by
  cases ht : M.exec ok s ls with
  | none => rw [ht] at h; cases h
  | some t => rw [ht] at h; exact ⟨t, .of_exec ht, h⟩

namespace Run

variable {ok ok' : σ → ι → Prop} {s t u : σ} {ls ls' : List ι}

/-- A run under a condition is a run under a weaker one. -/
theorem mono (h : M.Run ok s ls t) (hok : ∀ s l, ok s l → ok' s l) : M.Run ok' s ls t := by
  induction h with
  | nil s => exact .nil s
  | cons hl hs _ ih => exact .cons (hok _ _ hl) hs ih

/-- Every step of a run is under one of its labels. -/
theorem labelled (h : M.Run ok s ls t) : M.Run (fun s l ↦ ok s l ∧ l ∈ ls) s ls t := by
  induction h with
  | nil s => exact .nil s
  | cons hl hs _ ih =>
      exact .cons ⟨hl, List.mem_cons_self⟩ hs
        (ih.mono fun _ _ h ↦ ⟨h.1, List.mem_cons_of_mem _ h.2⟩)

/-- What holds of every state of a run may be asked of its steps. -/
theorem with_invariant {I : σ → Prop} (h : M.Run ok s ls t) (hs : I s)
    (hstep : ∀ s l t, I s → ok s l → M.step s l = some t → I t) :
    M.Run (fun s l ↦ ok s l ∧ I s) s ls t := by
  induction h with
  | nil s => exact .nil s
  | cons hl hm _ ih => exact .cons ⟨hl, hs⟩ hm (ih (hstep _ _ _ hs hl hm))

/-- Runs compose. -/
theorem append (h : M.Run ok s ls t) (h' : M.Run ok t ls' u) : M.Run ok s (ls ++ ls') u := by
  induction h with
  | nil _ => exact h'
  | cons hl hs _ ih => exact .cons hl hs (ih h')

/-- **Invariant rule.**  What one step preserves, a run preserves. -/
theorem invariant {I : σ → Prop} (h : M.Run ok s ls t) (hs : I s)
    (hstep : ∀ s l t, I s → ok s l → M.step s l = some t → I t) : I t := by
  induction h with
  | nil _ => exact hs
  | cons hl hm _ ih => exact ih (hstep _ _ _ hs hl hm)

/-- **Relational rule.**  Where an invariant holds at the start, a reflexive and
transitive relation between a state of the invariant and its successor relates the
two ends of the run. -/
theorem related {I : σ → Prop} {R : σ → σ → Prop} (h : M.Run ok s ls t) (hs : I s)
    (hstep : ∀ s l t, I s → ok s l → M.step s l = some t → I t ∧ R s t)
    (hrefl : ∀ s, R s s) (htrans : ∀ s t u, R s t → R t u → R s u) : R s t := by
  induction h with
  | nil _ => exact hrefl _
  | cons hl hm _ ih =>
      obtain ⟨hI, hR⟩ := hstep _ _ _ hs hl hm
      exact htrans _ _ _ hR (ih hI)

end Run

/-- `M.Reachable ok s`: some run from the start whose steps meet `ok` ends in `s`. -/
def Reachable (M : Machine σ ι) (ok : σ → ι → Prop) (s : σ) : Prop :=
  ∃ ls, M.Run ok M.init ls s

namespace Reachable

variable {ok : σ → ι → Prop} {s t : σ} {ls : List ι}

/-- **Invariant rule**, for the reachable states. -/
theorem invariant {I : σ → Prop} (h : M.Reachable ok s) (hinit : I M.init)
    (hstep : ∀ s l t, I s → ok s l → M.step s l = some t → I t) : I s :=
  h.elim fun _ hr ↦ hr.invariant hinit hstep

/-- A state reached from a reachable state is reachable. -/
theorem run (h : M.Reachable ok s) (hr : M.Run ok s ls t) : M.Reachable ok t :=
  h.elim fun _ hp ↦ ⟨_, hp.append hr⟩

/-- What a step preserves in a reachable state with `Q`, a run from a reachable state
preserves, as soon as every reachable state has `Q`. -/
theorem invariant_of_run {I Q : σ → Prop} (hQ : ∀ s, M.Reachable ok s → Q s)
    (hstep : ∀ s l t, Q s → I s → ok s l → M.step s l = some t → I t)
    (h : M.Run ok s ls t) : M.Reachable ok s → I s → I t := by
  induction h with
  | nil _ => exact fun _ hI ↦ hI
  | cons hl hm _ ih =>
      exact fun hs hI ↦ ih (hs.run (.cons hl hm (.nil _))) (hstep _ _ _ (hQ _ hs) hI hl hm)

/-- **Invariant rule**, over what is known of the reachable states already. -/
theorem invariant_with {I Q : σ → Prop} (h : M.Reachable ok s)
    (hQ : ∀ s, M.Reachable ok s → Q s) (hinit : I M.init)
    (hstep : ∀ s l t, Q s → I s → ok s l → M.step s l = some t → I t) : I s :=
  h.elim fun _ hr ↦ invariant_of_run hQ hstep hr ⟨[], .nil _⟩ hinit

end Reachable

end Machine

end CodeArena.Lib
