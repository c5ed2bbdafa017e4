/-!
# Pipelines

Stages that a state goes through one after the other, each of which may refuse it.  What a
stage establishes holds at the end of the pipeline if the stages behind it keep it
(`run_establishes`).
-/

universe u v

namespace CodeArena.Lib.Pipeline

variable {σ : Type u} {ε : Type v}

/-- All stages, up to the first one that refuses. -/
def run : List (σ → Except ε σ) → σ → Except ε σ
  | [], s => .ok s
  | f :: fs, s =>
    match f s with
    | .error e => .error e
    | .ok t => run fs t

variable {f : σ → Except ε σ} {fs gs : List (σ → Except ε σ)} {s t : σ} {P : σ → Prop}

theorem run_cons_eq_ok : run (f :: fs) s = .ok t ↔ ∃ m, f s = .ok m ∧ run fs m = .ok t := by
  rw [run]
  constructor
  · intro h
    split at h
    · cases h
    · rename_i m hm
      exact ⟨m, hm, h⟩
  · rintro ⟨m, hm, h⟩
    rw [hm]
    exact h

/-- What every stage keeps, the pipeline keeps. -/
theorem run_keeps (hkeep : ∀ f ∈ fs, ∀ s t, P s → f s = .ok t → P t) (hs : P s)
    (h : run fs s = .ok t) : P t := by
  induction fs generalizing s with
  | nil =>
      cases h
      exact hs
  | cons f fs ih =>
      obtain ⟨m, hm, hrest⟩ := run_cons_eq_ok.mp h
      exact ih (fun g hg ↦ hkeep g (List.mem_cons_of_mem f hg))
        (hkeep f List.mem_cons_self s m hs hm) hrest

/-- **What a stage establishes** holds at the end, if the stages behind it keep it. -/
theorem run_establishes (hf : ∀ s t, f s = .ok t → P t)
    (hkeep : ∀ g ∈ gs, ∀ s t, P s → g s = .ok t → P t) (h : run (fs ++ f :: gs) s = .ok t) :
    P t := by
  induction fs generalizing s with
  | nil =>
      obtain ⟨m, hm, hrest⟩ := run_cons_eq_ok.mp h
      exact run_keeps hkeep (hf s m hm) hrest
  | cons g fs ih =>
      obtain ⟨m, -, hrest⟩ := run_cons_eq_ok.mp h
      exact ih hrest

end CodeArena.Lib.Pipeline
