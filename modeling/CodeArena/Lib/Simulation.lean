import CodeArena.Lib.Machine

/-!
# Simulations between machines

A machine is simulated by another where every step of the one is a run of the other, of no
steps, of one or of several.  Then every run is (`Simulates.run`), and what holds in every
reachable state of the other machine holds of the states that represent it
(`Simulates.reachable`).  A machine may keep a record of what its steps put out (`recorded`), so
that a simulation may speak of it.
-/

universe u v w x y

namespace CodeArena.Lib.Machine

variable {σ : Type u} {ι : Type v} {τ : Type w} {κ : Type x}

/-- `M` is simulated by `N` along `R`: as far as the steps of `M` meet `ok`, those of `N` meet
`ok'`. -/
structure Simulates (M : Machine σ ι) (ok : σ → ι → Prop) (N : Machine τ κ) (ok' : τ → κ → Prop)
    (R : σ → τ → Prop) : Prop where
  /-- The start states are related. -/
  init : R M.init N.init
  /-- A step between related states is a run. -/
  step : ∀ s l s' t, R s t → ok s l → M.step s l = some s' →
    ∃ ls t', N.Run ok' t ls t' ∧ R s' t'

namespace Simulates

variable {M : Machine σ ι} {N : Machine τ κ} {ok : σ → ι → Prop} {ok' : τ → κ → Prop}
  {R : σ → τ → Prop}

/-- **A run is simulated by a run.** -/
theorem run (h : Simulates M ok N ok' R) {s s' : σ} {ls : List ι} (hr : M.Run ok s ls s') :
    ∀ {t : τ}, R s t → ∃ ls' t', N.Run ok' t ls' t' ∧ R s' t' := by
  induction hr with
  | nil s => exact fun {t} hR ↦ ⟨[], t, .nil t, hR⟩
  | cons hok hstep _ ih =>
      intro t hR
      obtain ⟨ls₁, t₁, hr₁, hR₁⟩ := h.step _ _ _ _ hR hok hstep
      obtain ⟨ls₂, t₂, hr₂, hR₂⟩ := ih hR₁
      exact ⟨ls₁ ++ ls₂, t₂, hr₁.append hr₂, hR₂⟩

/-- A reachable state represents a reachable one. -/
theorem reachable (h : Simulates M ok N ok' R) {s : σ} (hs : M.Reachable ok s) :
    ∃ t, N.Reachable ok' t ∧ R s t := by
  obtain ⟨ls, hr⟩ := hs
  obtain ⟨ls', t, hr', hR⟩ := h.run hr h.init
  exact ⟨t, ⟨ls', hr'⟩, hR⟩

end Simulates

/-! ## Records of runs -/

section

variable {ο : Type y} (M : Machine σ ι) (out : σ → ι → List ο)

/-- What a run puts out. -/
def outputs : σ → List ι → List ο
  | _, [] => []
  | s, l :: ls => out s l ++ (M.step s l).elim [] fun t ↦ outputs t ls

/-- The machine, with a record of what it has put out. -/
def recorded : Machine (σ × List ο) ι :=
  ⟨(M.init, []), fun s l ↦ (M.step s.1 l).map fun t ↦ (t, s.2 ++ out s.1 l)⟩

variable {M} {ok : σ → ι → Prop} {s s' : σ} {ls : List ι}

/-- **A run, with its record**, is one of the machine with a record. -/
theorem Run.recorded (h : M.Run ok s ls s') :
    ∀ os, (M.recorded out).Run (fun s l ↦ ok s.1 l) (s, os) ls (s', os ++ M.outputs out s ls) := by
  induction h with
  | nil s =>
      intro os
      rw [outputs, List.append_nil]
      exact .nil _
  | @cons s t u l ls hok hstep _ ih =>
      intro os
      have hlast := ih (os ++ out s l)
      rw [List.append_assoc] at hlast
      rw [outputs, hstep]
      exact .cons hok (congrArg (Option.map _) hstep) hlast

end

end CodeArena.Lib.Machine
