import Mathlib

/-!
# Programs that can be cut off

A program works on a state `σ` and consults its environment: each consultation takes one answer
from a list. When a consultation finds no answer left the program is cut off there, and what it
has done to the state stays. A run with few answers is thus a run that was killed early, and a
statement about all lists of answers is a statement about every point where that can happen.

`Triple` is the Hoare logic of such programs, with a second postcondition for the states in
which a run is cut off.
-/

namespace Bifurcation

universe u v w

/-- A program over the state `σ` whose environment answers with values of `ω`. -/
def Prog (ω : Type u) (σ : Type v) (α : Type w) := σ → List ω → σ × Option (α × List ω)

namespace Prog

variable {ω : Type u} {σ : Type v} {α β : Type w}

protected def pure (a : α) : Prog ω σ α := fun s l => (s, some (a, l))

protected def bind (x : Prog ω σ α) (f : α → Prog ω σ β) : Prog ω σ β := fun s l =>
  match x s l with
  | (s', some (a, l')) => f a s' l'
  | (s', none) => (s', none)

instance : Monad (Prog.{u, v, w} ω σ) where
  pure := Prog.pure
  bind := Prog.bind

/-- Take the environment's next answer. -/
def ask : Prog ω σ ω := fun s l =>
  match l with
  | [] => (s, none)
  | o :: l => (s, some (o, l))

def get : Prog ω σ σ := fun s l => (s, some (s, l))

def modify (f : σ → σ) : Prog ω σ PUnit := fun s l => (f s, some (⟨⟩, l))

/-- The state a run leaves, and what it returned if it was not cut off. -/
def run (x : Prog ω σ α) (s : σ) (l : List ω) : σ × Option α := ((x s l).1, (x s l).2.map Prod.fst)

/-! ## Runs of the primitives -/

@[simp] theorem pure_apply (a : α) (s : σ) (l : List ω) :
    (pure a : Prog ω σ α) s l = (s, some (a, l)) := rfl

@[simp] theorem bind_apply (x : Prog ω σ α) (f : α → Prog ω σ β) (s : σ) (l : List ω) :
    (x >>= f) s l = match x s l with
      | (s', some (a, l')) => f a s' l'
      | (s', none) => (s', none) := rfl

@[simp] theorem ask_nil (s : σ) : (ask : Prog ω σ ω) s [] = (s, none) := rfl

@[simp] theorem ask_cons (s : σ) (o : ω) (l : List ω) :
    (ask : Prog ω σ ω) s (o :: l) = (s, some (o, l)) := rfl

@[simp] theorem get_apply (s : σ) (l : List ω) : (get : Prog ω σ σ) s l = (s, some (s, l)) := rfl

@[simp] theorem modify_apply (f : σ → σ) (s : σ) (l : List ω) :
    (modify f : Prog ω σ PUnit) s l = (f s, some (⟨⟩, l)) := rfl

/-! ## Hoare logic -/

/-- From a state in `P`, and as long as the environment's answers are in `A`, the program ends
with a value and a state in `Q`, or is cut off in a state in `C`. -/
def Triple (A : ω → Prop) (P : σ → Prop) (x : Prog ω σ α) (Q : α → σ → Prop) (C : σ → Prop) :
    Prop :=
  ∀ s l, (∀ o ∈ l, A o) → P s →
    match x s l with
    | (s', some (a, l')) => Q a s' ∧ ∀ o ∈ l', A o
    | (s', none) => C s'

section Rules

variable {A : ω → Prop} {P P' C C' : σ → Prop}

theorem triple_pure {a : α} {Q : α → σ → Prop} (h : ∀ s, P s → Q a s) :
    Triple A P (pure a : Prog ω σ α) Q C := fun s _ hl hs => ⟨h s hs, hl⟩

theorem triple_bind {x : Prog ω σ α} {f : α → Prog ω σ β} {R : α → σ → Prop}
    {Q : β → σ → Prop} (hx : Triple A P x R C) (hf : ∀ a, Triple A (R a) (f a) Q C) :
    Triple A P (x >>= f) Q C := by
  intro s l hl hs
  have h := hx s l hl hs
  rw [bind_apply]
  generalize x s l = r at h
  obtain ⟨s', _ | ⟨a, l'⟩⟩ := r
  · exact h
  · exact hf a s' l' h.2 h.1

theorem triple_ask {Q : ω → σ → Prop} (hcut : ∀ s, P s → C s)
    (h : ∀ o s, A o → P s → Q o s) : Triple A P (ask : Prog ω σ ω) Q C := by
  intro s l hl hs
  cases l with
  | nil => exact hcut s hs
  | cons o l =>
    exact ⟨h o s (hl o List.mem_cons_self) hs, fun o' ho' => hl o' (List.mem_cons_of_mem o ho')⟩

theorem triple_get {Q : σ → σ → Prop} (h : ∀ s, P s → Q s s) :
    Triple A P (get : Prog ω σ σ) Q C := fun s _ hl hs => ⟨h s hs, hl⟩

theorem triple_modify {f : σ → σ} {Q : PUnit → σ → Prop} (h : ∀ s, P s → Q ⟨⟩ (f s)) :
    Triple A P (modify f : Prog ω σ PUnit) Q C := fun s _ hl hs => ⟨h s hs, hl⟩

theorem triple_ite {c : Prop} [Decidable c] {x y : Prog ω σ α} {Q : α → σ → Prop}
    (hx : c → Triple A P x Q C) (hy : ¬ c → Triple A P y Q C) :
    Triple A P (if c then x else y) Q C := by
  by_cases hc : c
  · rw [if_pos hc]; exact hx hc
  · rw [if_neg hc]; exact hy hc

theorem Triple.mono {x : Prog ω σ α} {Q Q' : α → σ → Prop} (h : Triple A P x Q C)
    (hP : ∀ s, P' s → P s) (hQ : ∀ a s, Q a s → Q' a s) (hC : ∀ s, C s → C' s) :
    Triple A P' x Q' C' := by
  intro s l hl hs
  have hx := h s l hl (hP s hs)
  generalize x s l = r at hx
  obtain ⟨s', _ | ⟨a, l'⟩⟩ := r
  · exact hC s' hx
  · exact ⟨hQ a s' hx.1, hx.2⟩

/-- What the precondition says of the values at hand may be assumed. -/
theorem triple_extract {p : Prop} {x : Prog ω σ α} {Q : α → σ → Prop}
    (hp : ∀ s, P' s → P s ∧ p) (h : p → Triple A P x Q C) : Triple A P' x Q C :=
  fun s l hl hs => h (hp s hs).2 s l hl (hp s hs).1

theorem triple_exists {γ : Type*} {R : γ → σ → Prop} {x : Prog ω σ α} {Q : α → σ → Prop}
    (h : ∀ g, Triple A (R g) x Q C) : Triple A (fun s => ∃ g, R g s) x Q C :=
  fun s l hl ⟨g, hg⟩ => h g s l hl hg

/-- A triple may be proved for each value of a view of the starting state. -/
theorem triple_view {γ : Type*} (view : σ → γ) {x : Prog ω σ α} {Q : α → σ → Prop}
    (h : ∀ g, Triple A (fun s => P s ∧ view s = g) x Q C) : Triple A P x Q C :=
  fun s l hl hs => h (view s) s l hl ⟨hs, rfl⟩

theorem Triple.run_value {x : Prog ω σ α} {Q : α → σ → Prop} (h : Triple A P x Q C)
    {s s' : σ} {l : List ω} {a : α} (hl : ∀ o ∈ l, A o) (hs : P s)
    (hrun : x.run s l = (s', some a)) : Q a s' := by
  have hx := h s l hl hs
  unfold run at hrun
  generalize x s l = r at hx hrun
  obtain ⟨t, _ | ⟨b, l'⟩⟩ := r
  · simp at hrun
  · simp only [Option.map_some, Prod.mk.injEq, Option.some.injEq] at hrun
    obtain ⟨rfl, rfl⟩ := hrun
    exact hx.1

end Rules

end Prog

end Bifurcation
