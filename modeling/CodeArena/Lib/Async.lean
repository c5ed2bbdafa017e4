import Mathlib.Logic.Basic

/-!
# Asynchronous calls

What an `async` function comes to is an `Outcome`: it may never settle, reject with
an error, or resolve with a value.  Along the way it has effects, and `Async` keeps
them in order next to the outcome.  Sequencing is `await`: the rest runs only after
what it awaits has resolved.

Three rules are all that the proofs use.  `bind_outcome_eq_resolved` and
`bind_outcome_eq_rejected` take apart a sequence that settled, and `outcome_ensuring` says
that a cleanup that runs in any case changes nothing about the outcome.
-/

universe u v w

namespace CodeArena.Lib

/-- How a call comes out. -/
inductive Outcome (ε : Type u) (α : Type v) where
  /-- It never settles. -/
  | pending
  /-- It rejects. -/
  | rejected (error : ε)
  /-- It resolves. -/
  | resolved (value : α)
deriving DecidableEq, Repr

/-- A call with its effects, the first one first. -/
structure Async (ω : Type w) (ε : Type u) (α : Type v) where
  /-- The effects up to the point where the call settles or hangs. -/
  effects : List ω
  /-- How the call comes out. -/
  outcome : Outcome ε α
deriving DecidableEq, Repr

namespace Outcome

variable {ε α : Type u}

/-- A call that throws synchronously or returns, as a promise. -/
def ofExcept : Except ε α → Outcome ε α
  | .error e => .rejected e
  | .ok a => .resolved a

@[simp] theorem ofExcept_ok (a : α) : (ofExcept (.ok a) : Outcome ε α) = .resolved a := rfl

@[simp] theorem ofExcept_error (e : ε) : (ofExcept (.error e) : Outcome ε α) = .rejected e := rfl

@[simp] theorem ofExcept_eq_resolved {x : Except ε α} {a : α} :
    ofExcept x = .resolved a ↔ x = .ok a := by
  cases x <;> simp [ofExcept]

@[simp] theorem ofExcept_eq_rejected {x : Except ε α} {e : ε} :
    ofExcept x = .rejected e ↔ x = .error e := by
  cases x <;> simp [ofExcept]

end Outcome

namespace Async

variable {ω ε α β : Type u}

/-- A call without effects. -/
def lift (x : Outcome ε α) : Async ω ε α := ⟨[], x⟩

/-- Throws. -/
def throw (e : ε) : Async ω ε α := lift (.rejected e)

/-- An effect on its own. -/
def perform (e : ω) : Async ω ε PUnit := ⟨[e], .resolved ⟨⟩⟩

instance : Monad (Async ω ε) where
  pure a := ⟨[], .resolved a⟩
  bind x f :=
    match x.outcome with
    | .pending => ⟨x.effects, .pending⟩
    | .rejected e => ⟨x.effects, .rejected e⟩
    | .resolved a => ⟨x.effects ++ (f a).effects, (f a).outcome⟩

/-- `try { x } finally { cleanup }`: once `x` has settled the cleanup is awaited, and
`x` decides the outcome unless the cleanup throws or hangs itself. -/
def ensuring (x : Async ω ε α) (cleanup : Async ω ε PUnit) : Async ω ε α :=
  match x.outcome, cleanup.outcome with
  | .pending, _ => x
  | _, .resolved _ => ⟨x.effects ++ cleanup.effects, x.outcome⟩
  | _, .rejected e => ⟨x.effects ++ cleanup.effects, .rejected e⟩
  | _, .pending => ⟨x.effects ++ cleanup.effects, .pending⟩

@[simp] theorem outcome_pure (a : α) : (pure a : Async ω ε α).outcome = .resolved a := rfl

@[simp] theorem outcome_lift (x : Outcome ε α) : (lift x : Async ω ε α).outcome = x := rfl

@[simp] theorem outcome_throw (e : ε) : (throw e : Async ω ε α).outcome = .rejected e := rfl

@[simp] theorem outcome_perform (e : ω) :
    (perform e : Async ω ε PUnit).outcome = .resolved ⟨⟩ := rfl

/-- A sequence resolves when its first part does, and its rest then does. -/
theorem bind_outcome_eq_resolved {x : Async ω ε α} {f : α → Async ω ε β} {b : β} :
    (x >>= f).outcome = .resolved b ↔
      ∃ a, x.outcome = .resolved a ∧ (f a).outcome = .resolved b := by
  simp only [bind]
  cases x.outcome <;> simp

/-- A sequence rejects when its first part does, or when that resolves and its rest
rejects. -/
theorem bind_outcome_eq_rejected {x : Async ω ε α} {f : α → Async ω ε β} {e : ε} :
    (x >>= f).outcome = .rejected e ↔
      x.outcome = .rejected e ∨ ∃ a, x.outcome = .resolved a ∧ (f a).outcome = .rejected e := by
  simp only [bind]
  cases x.outcome <;> simp

/-- After a part that resolves, a sequence comes out as its rest does. -/
theorem bind_outcome_of_resolved {x : Async ω ε α} {f : α → Async ω ε β} {a : α}
    (h : x.outcome = .resolved a) : (x >>= f).outcome = (f a).outcome := by
  simp only [bind, h]

/-- After a part that resolves, a sequence goes on with the effects of its rest. -/
theorem bind_effects_of_resolved {x : Async ω ε α} {f : α → Async ω ε β} {a : α}
    (h : x.outcome = .resolved a) : (x >>= f).effects = x.effects ++ (f a).effects := by
  simp only [bind, h]

/-- A sequence comes out as its parts do. -/
theorem bind_outcome_congr (x : Async ω ε α) {f g : α → Async ω ε β}
    (h : ∀ a, (f a).outcome = (g a).outcome) : (x >>= f).outcome = (x >>= g).outcome := by
  simp only [bind]
  cases x.outcome <;> simp [h]

/-- What runs after a part that resolves, with the effects of both. -/
theorem bind_resolved (es : List ω) (a : α) (f : α → Async ω ε β) :
    ((⟨es, .resolved a⟩ : Async ω ε α) >>= f) = ⟨es ++ (f a).effects, (f a).outcome⟩ := rfl

/-- Nothing runs after a part that rejects. -/
theorem bind_rejected (es : List ω) (e : ε) (f : α → Async ω ε β) :
    ((⟨es, .rejected e⟩ : Async ω ε α) >>= f) = ⟨es, .rejected e⟩ := rfl

/-- A value that is there is passed on. -/
@[simp] theorem lift_resolved_bind (a : α) (f : α → Async ω ε β) :
    (lift (.resolved a) >>= f) = f a := rfl

@[simp] theorem lift_rejected_bind (e : ε) (f : α → Async ω ε β) :
    (lift (.rejected e) >>= f) = throw e := rfl

/-- A cleanup that resolves does not change the outcome. -/
theorem outcome_ensuring {x : Async ω ε α} {cleanup : Async ω ε PUnit}
    (h : cleanup.outcome = .resolved ⟨⟩) : (x.ensuring cleanup).outcome = x.outcome := by
  unfold ensuring
  rw [h]
  cases hx : x.outcome <;> simp [hx]

/-- The effects of a cleanup that resolves come after those of what has settled. -/
theorem effects_ensuring {x : Async ω ε α} {cleanup : Async ω ε PUnit}
    (h : cleanup.outcome = .resolved ⟨⟩) (hx : x.outcome ≠ .pending) :
    (x.ensuring cleanup).effects = x.effects ++ cleanup.effects := by
  unfold ensuring
  rw [h]
  cases hout : x.outcome with
  | pending => exact absurd hout hx
  | rejected e => rfl
  | resolved a => rfl

/-! ## Effects of one kind -/

/-- All effects of a call are of one kind. -/
def Emits (p : ω → Prop) (x : Async ω ε α) : Prop := ∀ e ∈ x.effects, p e

variable {p : ω → Prop}

theorem Emits.pure (a : α) : Emits p (pure a : Async ω ε α) := fun _ he ↦ nomatch he

theorem Emits.lift (x : Outcome ε α) : Emits p (lift x : Async ω ε α) := fun _ he ↦ nomatch he

theorem Emits.perform {e : ω} (h : p e) : Emits p (perform e : Async ω ε PUnit) :=
  List.forall_mem_singleton.mpr h

/-- A sequence has the effects of its parts. -/
theorem Emits.bind {x : Async ω ε α} {f : α → Async ω ε β} (hx : Emits p x)
    (hf : ∀ a, Emits p (f a)) : Emits p (x >>= f) := by
  intro e he
  obtain ⟨es, outcome⟩ := x
  cases outcome with
  | pending => exact hx e he
  | rejected error => exact hx e he
  | resolved a =>
      rw [bind_resolved] at he
      rcases List.mem_append.mp he with he | he
      · exact hx e he
      · exact hf a e he

end Async

end CodeArena.Lib
