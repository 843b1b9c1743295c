import Mathlib

/-!
# Programs that run beside others

A thread takes atomic steps on a state `σ` that others change between them. In each step it
consults its environment, which answers with a value of `ω`. A thread may be dropped after any
step: what is proved of its steps holds however far it gets.

`Rg` is the rely-guarantee logic of threads. Others change the state as `R` allows and keep the
invariant `I`; in exchange every step of the thread is one `G` allows and keeps `I`. Only steps in
`A` are considered, which lets an assumption about the environment be stated once.
-/

namespace Bifurcation

/-- A program of atomic steps on a shared state. -/
inductive Thread (ω σ α : Type) where
  | done (a : α)
  | step (act : ω → σ → σ) (next : ω → σ → Thread ω σ α)

namespace Thread

variable {ω σ α β : Type}

protected def bind : Thread ω σ α → (α → Thread ω σ β) → Thread ω σ β
  | done a, f => f a
  | step act next, f => step act fun o s => (next o s).bind f

instance : Monad (Thread ω σ) where
  pure := done
  bind := Thread.bind

/-- One step that returns a value. -/
def atomic (f : ω → σ → α × σ) : Thread ω σ α :=
  step (fun o s => (f o s).2) fun o s => done (f o s).1

/-! ## Rely and guarantee -/

section Logic

/-- An assertion that others do not make false. -/
def Stable (R : σ → σ → Prop) (I P : σ → Prop) : Prop := ∀ s s', P s → R s s' → I s' → P s'

variable (R G : σ → σ → Prop) (I : σ → Prop) (A : ω → σ → σ → Prop)

/-- Whatever others do, every step of the thread is allowed, and it ends in `Q`. -/
def Safe (Q : α → σ → Prop) : Thread ω σ α → σ → Prop
  | done a, s => ∀ s', R s s' → I s' → Q a s'
  | step act next, s => ∀ s', R s s' → I s' → ∀ o, A o s' (act o s') →
      G s' (act o s') ∧ I (act o s') ∧ Safe Q (next o s') (act o s')

/-- The thread is safe from every state of the invariant in `P`. -/
def Rg (P : σ → Prop) (x : Thread ω σ α) (Q : α → σ → Prop) : Prop :=
  ∀ s, P s → I s → Safe R G I A Q x s

variable {R G I A} {P P' : σ → Prop} {Q Q' : α → σ → Prop}

theorem Safe.mono (hQ : ∀ a s, I s → Q a s → Q' a s) {x : Thread ω σ α} {s : σ}
    (h : Safe R G I A Q x s) : Safe R G I A Q' x s := by
  induction x generalizing s with
  | done a => exact fun s' hR hI => hQ a s' hI (h s' hR hI)
  | step act next ih =>
    intro s' hR hI o ho
    obtain ⟨hG, hI', hnext⟩ := h s' hR hI o ho
    exact ⟨hG, hI', ih o s' hnext⟩

/-- Others may move before the next step. -/
theorem Safe.rely (htrans : ∀ s s' s'', R s s' → R s' s'' → R s s'') {x : Thread ω σ α} {s s' : σ}
    (h : Safe R G I A Q x s) (hR : R s s') : Safe R G I A Q x s' := by
  cases x with
  | done a => exact fun s'' hR' => h s'' (htrans s s' s'' hR hR')
  | step act next => exact fun s'' hR' => h s'' (htrans s s' s'' hR hR')

/-- What a step of a safe thread does. -/
theorem Safe.next (hrefl : ∀ s, R s s) {act : ω → σ → σ} {next : ω → σ → Thread ω σ α} {s : σ}
    (h : Safe R G I A Q (step act next) s) (hI : I s) {o : ω} (ho : A o s (act o s)) :
    G s (act o s) ∧ I (act o s) ∧ Safe R G I A Q (next o s) (act o s) :=
  h s (hrefl s) hI o ho

theorem rg_pure {a : α} (hQ : Stable R I (Q a)) (h : ∀ s, I s → P s → Q a s) :
    Rg R G I A P (pure a : Thread ω σ α) Q :=
  fun s hs hI s' hR hI' => hQ s s' (h s hI hs) hR hI'

theorem rg_atomic {f : ω → σ → α × σ} (hP : Stable R I P) (hQ : ∀ a, Stable R I (Q a))
    (h : ∀ s o, P s → I s → A o s (f o s).2 →
      G s (f o s).2 ∧ I (f o s).2 ∧ Q (f o s).1 (f o s).2) :
    Rg R G I A P (atomic f) Q := by
  intro s hs hI s' hR hI' o ho
  obtain ⟨hG, hnext, hdone⟩ := h s' o (hP s s' hs hR hI') hI' ho
  exact ⟨hG, hnext, fun s'' hR' hI'' => hQ _ _ s'' hdone hR' hI''⟩

theorem rg_bind (hrefl : ∀ s, R s s) {x : Thread ω σ α} {f : α → Thread ω σ β}
    {Q : α → σ → Prop} {Q' : β → σ → Prop} (hx : Rg R G I A P x Q)
    (hf : ∀ a, Rg R G I A (Q a) (f a) Q') : Rg R G I A P (x >>= f) Q' := by
  have hsafe : ∀ (x : Thread ω σ α) s, I s → Safe R G I A Q x s → Safe R G I A Q' (x >>= f) s := by
    intro x
    induction x with
    | done a => exact fun s hI h => hf a s (h s (hrefl s) hI) hI
    | step act next ih =>
      intro s _ h s' hR hI o ho
      obtain ⟨hG, hI', hnext⟩ := h s' hR hI o ho
      exact ⟨hG, hI', ih o s' _ hI' hnext⟩
  exact fun s hs hI => hsafe x s hI (hx s hs hI)

theorem rg_ite {c : Prop} [Decidable c] {x y : Thread ω σ α} (hx : c → Rg R G I A P x Q)
    (hy : ¬ c → Rg R G I A P y Q) : Rg R G I A P (if c then x else y) Q := by
  by_cases hc : c
  · rw [if_pos hc]
    exact hx hc
  · rw [if_neg hc]
    exact hy hc

theorem Rg.mono {x : Thread ω σ α} (h : Rg R G I A P x Q) (hP : ∀ s, I s → P' s → P s)
    (hQ : ∀ a s, I s → Q a s → Q' a s) : Rg R G I A P' x Q' :=
  fun s hs hI => (h s (hP s hI hs) hI).mono hQ

theorem rg_or {x : Thread ω σ α} (h : Rg R G I A P x Q) (h' : Rg R G I A P' x Q) :
    Rg R G I A (fun s => P s ∨ P' s) x Q :=
  fun s hs hI => hs.elim (fun hs => h s hs hI) fun hs => h' s hs hI

/-- What the precondition says of the values at hand may be assumed. -/
theorem rg_extract {p : Prop} {x : Thread ω σ α} (hp : ∀ s, I s → P s → p)
    (h : p → Rg R G I A P x Q) : Rg R G I A P x Q :=
  fun s hs hI => h (hp s hI hs) s hs hI

end Logic

end Thread

end Bifurcation
