import CodeArena.Lib.Machine
import Mathlib.Data.Nat.Init
import Mathlib.Tactic.ByContra

/-!
# Infinite runs

What a machine does in the end is a statement about its infinite runs, and it only holds
of those in which somebody moves as long as somebody can: the *weakly fair* ones.

The work that is left is measured by a *potential*.  A step pays its cost out of it, and
the steps nobody controls, crashes say, may put credit into it.  Over a finite run that is
a bound on the cost by the credit; over an infinite run without further credit, the steps
that cost something come to an end, and by fairness the machine has then reached what
offers no step any more.
-/

universe u v

namespace CodeArena.Lib.Machine

variable {σ : Type u} {ι : Type v} {M : Machine σ ι} {ok : σ → ι → Prop}

/-! ## Potentials -/

/-- The sum of the weights of a list of labels. -/
def weight (w : ι → Nat) : List ι → Nat
  | [] => 0
  | l :: ls => w l + weight w ls

@[simp] theorem weight_nil (w : ι → Nat) : weight w [] = 0 := rfl

@[simp] theorem weight_cons (w : ι → Nat) (l : ι) (ls : List ι) :
    weight w (l :: ls) = w l + weight w ls := rfl

/-- The weight of an indicator counts. -/
theorem weight_indicator (p : ι → Bool) (c : Nat) (ls : List ι) :
    weight (fun l ↦ if p l then c else 0) ls = c * ls.countP p := by
  induction ls with
  | nil => rfl
  | cons l ls ih =>
      rw [weight_cons, ih, List.countP_cons]
      cases p l
      · simp
      · simp only [if_pos, Nat.mul_add, Nat.mul_one]
        exact Nat.add_comm _ _

/-- `M.Potential ok I μ cost credit`: a step from a state of `I` stays in `I` and pays its
cost out of the potential `μ` and its own credit. -/
def Potential (M : Machine σ ι) (ok : σ → ι → Prop) (I : σ → Prop) (μ : σ → Nat)
    (cost credit : ι → Nat) : Prop :=
  ∀ s l t, I s → ok s l → M.step s l = some t → I t ∧ μ t + cost l ≤ μ s + credit l

variable {I : σ → Prop} {μ : σ → Nat} {cost credit : ι → Nat}

/-- **Potential rule.**  A run costs at most what it started with and what it was
credited. -/
theorem Run.weight_le {s t : σ} {ls : List ι} (h : M.Run ok s ls t)
    (hμ : M.Potential ok I μ cost credit) (hs : I s) :
    μ t + weight cost ls ≤ μ s + weight credit ls := by
  induction h with
  | nil s => exact Nat.le_refl _
  | @cons s r t l ls hl hm _ ih =>
      obtain ⟨hI, hstep⟩ := hμ s l r hs hl hm
      have hrest := ih hI
      rw [weight_cons, weight_cons]
      omega

/-- What a run costs, where the cost of a step depends on the state before it. -/
def total (M : Machine σ ι) (f : σ → ι → Nat) : σ → List ι → Nat
  | _, [] => 0
  | s, l :: ls => f s l + (M.step s l).elim 0 fun t ↦ M.total f t ls

/-- Where no step costs more than its label weighs, no run does. -/
theorem Run.total_le {f : σ → ι → Nat} {w : ι → Nat} {s t : σ} {ls : List ι}
    (h : M.Run ok s ls t) (hs : I s)
    (hstep : ∀ s l t, I s → ok s l → M.step s l = some t → I t ∧ f s l ≤ w l) :
    M.total f s ls ≤ weight w ls := by
  induction h with
  | nil s => exact Nat.le_refl _
  | @cons s r t l ls hl hm _ ih =>
      obtain ⟨hI, hle⟩ := hstep s l r hs hl hm
      have hrest := ih hI
      rw [total, weight_cons, hm, Option.elim_some]
      omega

/-! ## Traces -/

/-- An infinite run whose steps meet `ok`. -/
structure Trace (M : Machine σ ι) (ok : σ → ι → Prop) where
  /-- The state before each step. -/
  state : Nat → σ
  /-- The label of each step. -/
  label : Nat → ι
  meets : ∀ n, ok (state n) (label n)
  follows : ∀ n, M.step (state n) (label n) = some (state (n + 1))

/-- The step `l` of `A` is enabled in some way. -/
def Offers (M : Machine σ ι) (A : σ → ι → Prop) (s : σ) : Prop :=
  ∃ l t, A s l ∧ M.step s l = some t

namespace Trace

/-- A trace over a weaker condition. -/
def mono {ok' : σ → ι → Prop} (τ : M.Trace ok) (h : ∀ s l, ok s l → ok' s l) : M.Trace ok' where
  state := τ.state
  label := τ.label
  meets n := h _ _ (τ.meets n)
  follows := τ.follows

/-- What a trace goes through from its start on, it reaches. -/
theorem run (τ : M.Trace ok) (n : Nat) : ∃ ls, M.Run ok (τ.state 0) ls (τ.state n) := by
  induction n with
  | zero => exact ⟨[], .nil _⟩
  | succ n ih =>
      obtain ⟨ls, hls⟩ := ih
      exact ⟨_, hls.append (.cons (τ.meets n) (τ.follows n) (.nil _))⟩

theorem reachable (τ : M.Trace ok) (hinit : τ.state 0 = M.init) (n : Nat) :
    M.Reachable ok (τ.state n) := by
  have hrun := τ.run n
  rwa [hinit] at hrun

/-- Some step of `A` is taken again and again, unless none is on offer again and again. -/
def WeaklyFair (τ : M.Trace ok) (A : σ → ι → Prop) : Prop :=
  ∀ n, (∀ m, n ≤ m → M.Offers A (τ.state m)) → ∃ m, n ≤ m ∧ A (τ.state m) (τ.label m)

/-- What the steps from `n` on preserve holds from `n` on. -/
theorem always (τ : M.Trace ok) {P : σ → Prop} {n : Nat} (hn : P (τ.state n))
    (hstep : ∀ m, n ≤ m → P (τ.state m) → P (τ.state (m + 1))) :
    ∀ m, n ≤ m → P (τ.state m) := by
  intro m hm
  induction m, hm using Nat.le_induction with
  | base => exact hn
  | succ m hm ih => exact hstep m hm ih

/-- Without further credit, the steps that cost something come to an end. -/
theorem exists_free (τ : M.Trace ok) (hμ : M.Potential ok I μ cost credit) {n : Nat}
    (hI : I (τ.state n)) (hcredit : ∀ m, n ≤ m → credit (τ.label m) = 0) :
    ∃ N, n ≤ N ∧ I (τ.state N) ∧ ∀ m, N ≤ m → cost (τ.label m) = 0 := by
  -- The potential never rises, so it is at its least from some step on.
  induction hk : μ (τ.state n) using Nat.strongRecOn generalizing n with
  | _ k ih =>
      subst hk
      by_cases hfree : ∀ m, n ≤ m → cost (τ.label m) = 0
      · exact ⟨n, Nat.le_refl _, hI, hfree⟩
      obtain ⟨m, hm, hcost⟩ : ∃ m, n ≤ m ∧ cost (τ.label m) ≠ 0 := by simpa using hfree
      have hle : ∀ m, n ≤ m → I (τ.state m) ∧ μ (τ.state m) ≤ μ (τ.state n) :=
        τ.always (P := fun s ↦ I s ∧ μ s ≤ μ (τ.state n)) ⟨hI, Nat.le_refl _⟩ fun m hm h ↦ by
          obtain ⟨hIm, hμm⟩ := h
          obtain ⟨hI', hpay⟩ := hμ _ _ _ hIm (τ.meets m) (τ.follows m)
          have hc := hcredit m hm
          exact ⟨hI', by omega⟩
      obtain ⟨hI', hpay⟩ := hμ _ _ _ (hle m hm).1 (τ.meets m) (τ.follows m)
      have hc := hcredit m hm
      have hless := (hle m hm).2
      obtain ⟨N, hN, hIN, hrest⟩ := ih (μ (τ.state (m + 1))) (by omega) hI'
        (fun k hk ↦ hcredit k (by omega)) rfl
      exact ⟨N, by omega, hIN, hrest⟩

/-- **Liveness rule.**  Let every step of `A` cost something, let every state of `I` offer
one as long as it is short of `P`, and let no free step lead to `P`.  Then a weakly fair
trace without further credit gets to `P` and stays there. -/
theorem settles (τ : M.Trace ok) {A : σ → ι → Prop} {P : σ → Prop} (fair : τ.WeaklyFair A)
    (hμ : M.Potential ok I μ cost credit) (hcost : ∀ s l, A s l → cost l ≠ 0)
    (hoffers : ∀ s, I s → ¬ P s → M.Offers A s)
    (hfree : ∀ s l t, ¬ P s → cost l = 0 → M.step s l = some t → ¬ P t) {n : Nat}
    (hI : I (τ.state n)) (hcredit : ∀ m, n ≤ m → credit (τ.label m) = 0) :
    ∃ N, n ≤ N ∧ ∀ m, N ≤ m → P (τ.state m) := by
  obtain ⟨N, hN, hIN, hrest⟩ := τ.exists_free hμ hI hcredit
  refine ⟨N, hN, fun m hm ↦ ?_⟩
  by_contra hP
  have hshort : ∀ k, m ≤ k → ¬ P (τ.state k) := τ.always (P := fun s ↦ ¬ P s) hP
    fun k hk hPk ↦
      hfree _ _ _ hPk (hrest k (by omega)) (τ.follows k)
  have hIk : ∀ k, N ≤ k → I (τ.state k) := τ.always hIN fun k _ hk ↦
    (hμ _ _ _ hk (τ.meets k) (τ.follows k)).1
  obtain ⟨k, hk, hA⟩ := fair m fun k hk ↦ hoffers _ (hIk k (by omega)) (hshort k hk)
  exact hcost _ _ hA (hrest k (by omega))

/-! ### Traces that come to rest -/

/-- The trace that stays where it is. -/
def stutter {s : σ} {l : ι} (hok : ok s l) (hs : M.step s l = some s) : M.Trace ok where
  state _ := s
  label _ := l
  meets _ := hok
  follows _ := hs

/-- The trace behind a first step. -/
def cons {s : σ} {l : ι} (τ : M.Trace ok) (hok : ok s l) (hs : M.step s l = some (τ.state 0)) :
    M.Trace ok where
  state
    | 0 => s
    | n + 1 => τ.state n
  label
    | 0 => l
    | n + 1 => τ.label n
  meets
    | 0 => hok
    | n + 1 => τ.meets n
  follows
    | 0 => hs
    | n + 1 => τ.follows n

end Trace

/-- A run goes on as a trace. -/
theorem Run.trace {s t : σ} {ls : List ι} (h : M.Run ok s ls t) (τ : M.Trace ok)
    (hτ : τ.state 0 = t) :
    ∃ τ' : M.Trace ok, τ'.state 0 = s ∧
      ∀ n, τ'.state (n + ls.length) = τ.state n ∧ τ'.label (n + ls.length) = τ.label n := by
  induction h with
  | nil s => exact ⟨τ, hτ, fun _ ↦ ⟨rfl, rfl⟩⟩
  | cons hl hs _ ih =>
      obtain ⟨τ', hτ', hrest⟩ := ih hτ
      exact ⟨τ'.cons hl (hτ' ▸ hs), rfl, hrest⟩

/-- A run that ends where `A` offers nothing, and where a step leads nowhere, goes on as a
weakly fair trace that stays there. -/
theorem Run.fairTrace {s t : σ} {l : ι} {ls : List ι} (h : M.Run ok s ls t) (hok : ok t l)
    (hstay : M.step t l = some t) {A : σ → ι → Prop} (hrest : ¬ M.Offers A t) :
    ∃ τ : M.Trace ok, τ.state 0 = s ∧ τ.WeaklyFair A ∧
      ∀ n, ls.length ≤ n → τ.state n = t ∧ τ.label n = l := by
  obtain ⟨τ, hτ, hend⟩ := h.trace (.stutter hok hstay) rfl
  have hlast : ∀ n, ls.length ≤ n → τ.state n = t ∧ τ.label n = l := fun n hn ↦ by
    obtain ⟨k, rfl⟩ := Nat.exists_eq_add_of_le' hn
    exact hend k
  refine ⟨τ, hτ, fun n hn ↦ absurd ?_ hrest, hlast⟩
  have hoffers := hn (n + ls.length) (Nat.le_add_right ..)
  rwa [(hlast _ (Nat.le_add_left ..)).1] at hoffers

end CodeArena.Lib.Machine
