import Mathlib

/-!
# Fallible computations

Transactions are written in `Except`: an error carries no state, so a call that fails leaves
the state it started from. The lemmas here invert a successful computation one bind at a time,
which is how every later proof takes such a function apart.
-/

namespace Bifurcation

section Outcome

universe u v

variable {ε : Type u} {α β : Type v}

/-- Stop with `e` when the condition holds: the source's `if c { return err }`. -/
def failIf (c : Prop) [Decidable c] (e : ε) : Except ε Unit := if c then .error e else .ok ()

/-- The value a lookup must find, or the error for a missing row. -/
def found (e : ε) : Option α → Except ε α
  | some a => .ok a
  | none => .error e

@[simp] theorem bind_eq_ok {x : Except ε α} {f : α → Except ε β} {b : β} :
    (x >>= f) = .ok b ↔ ∃ a, x = .ok a ∧ f a = .ok b := by
  cases x <;> simp [bind, Except.bind]

/-- A check in front of a computation. -/
theorem check_bind_eq_ok {x : Except ε PUnit} {f : PUnit → Except ε β} {b : β} :
    (x >>= f) = .ok b ↔ x = .ok ⟨⟩ ∧ f ⟨⟩ = .ok b := by
  rw [bind_eq_ok]
  constructor
  · intro h
    obtain ⟨_, hx, hf⟩ := h
    exact ⟨hx, hf⟩
  · exact fun h => ⟨⟨⟩, h.1, h.2⟩

@[simp] theorem bind_eq_error {x : Except ε α} {f : α → Except ε β} {e : ε} :
    (x >>= f) = .error e ↔ x = .error e ∨ ∃ a, x = .ok a ∧ f a = .error e := by
  cases x <;> simp [bind, Except.bind]

@[simp] theorem pure_eq_ok {a b : α} : (pure a : Except ε α) = .ok b ↔ a = b := by
  simp [pure, Except.pure]

@[simp] theorem pure_ne_error {a : α} {e : ε} : (pure a : Except ε α) ≠ .error e := by
  simp [pure, Except.pure]

@[simp] theorem failIf_eq_ok {c : Prop} [Decidable c] {e : ε} {u : Unit} :
    failIf c e = .ok u ↔ ¬ c := by
  unfold failIf; split_ifs with h <;> simp [h]

@[simp] theorem failIf_eq_error {c : Prop} [Decidable c] {e e' : ε} :
    failIf c e = .error e' ↔ c ∧ e = e' := by
  unfold failIf; split_ifs with h <;> simp [h]

@[simp] theorem found_eq_ok {e : ε} {o : Option α} {a : α} :
    found e o = .ok a ↔ o = some a := by
  cases o <;> simp [found]

@[simp] theorem found_eq_error {e e' : ε} {o : Option α} :
    found e o = .error e' ↔ o = none ∧ e = e' := by
  cases o <;> simp [found]

theorem ok_bind (a : α) (f : α → Except ε β) : (Except.ok a >>= f) = f a := rfl

theorem error_bind (e : ε) (f : α → Except ε β) : (Except.error e >>= f) = .error e := rfl

/-- A function of the result of a computation is applied after its last step. -/
theorem map_bind {γ : Type v} (x : Except ε α) (f : α → Except ε β) (g : β → γ) :
    (x >>= f).map g = x >>= fun a => (f a).map g := by
  cases x <;> rfl

theorem failIf_of {c : Prop} [Decidable c] {e : ε} (h : c) : failIf c e = .error e := if_pos h

theorem failIf_of_not {c : Prop} [Decidable c] {e : ε} (h : ¬ c) : failIf c e = .ok () := if_neg h

/-- A fold of a fallible step keeps what every step keeps. -/
theorem foldlM_induction {ι : Type*} {σ : Type v} {step : σ → ι → Except ε σ} {I : σ → Prop}
    (hstep : ∀ s a s', I s → step s a = .ok s' → I s') {l : List ι} {s s' : σ}
    (h : l.foldlM step s = .ok s') (hs : I s) : I s' := by
  induction l generalizing s with
  | nil => simp only [List.foldlM_nil, pure_eq_ok] at h; exact h ▸ hs
  | cons a l ih =>
    simp only [List.foldlM_cons, bind_eq_ok] at h
    obtain ⟨t, ht, hrest⟩ := h
    exact ih hrest (hstep s a t hs ht)

/-- The same, when the invariant also follows the list read so far. -/
theorem foldlM_induction_prefix {ι : Type*} {σ : Type v} {step : σ → ι → Except ε σ}
    {I : List ι → σ → Prop}
    (hstep : ∀ done s a s', I done s → step s a = .ok s' → I (done ++ [a]) s')
    {l : List ι} (done : List ι) {s s' : σ} (h : l.foldlM step s = .ok s') (hs : I done s) :
    I (done ++ l) s' := by
  induction l generalizing done s with
  | nil => simp only [List.foldlM_nil, pure_eq_ok] at h; simpa using h ▸ hs
  | cons a l ih =>
    simp only [List.foldlM_cons, bind_eq_ok] at h
    obtain ⟨t, ht, hrest⟩ := h
    simpa using ih (done ++ [a]) hrest (hstep done s a t hs ht)

/-! ## Loops -/

section Loop

variable {ι : Type*} {σ : Type v}

/-- A loop of checks succeeds when each of them does. -/
theorem forM_eq_ok {f : ι → Except ε Unit} {l : List ι} :
    l.forM f = .ok () ↔ ∀ a ∈ l, f a = .ok () := by
  induction l with
  | nil => simp [pure, Except.pure]
  | cons a l ih =>
    show (f a >>= fun _ => l.forM f) = .ok () ↔ _
    simp only [bind_eq_ok, ih, List.forall_mem_cons]
    constructor
    · intro h
      obtain ⟨_, ha, hl⟩ := h
      exact ⟨ha, hl⟩
    · exact fun h => ⟨(), h.1, h.2⟩

/-- It fails at the first check that does. -/
theorem forM_eq_error {f : ι → Except ε Unit} {l : List ι} {e : ε} (h : l.forM f = .error e) :
    ∃ before a after, l = before ++ a :: after ∧ (∀ b ∈ before, f b = .ok ()) ∧
      f a = .error e := by
  induction l with
  | nil => simp [pure, Except.pure] at h
  | cons a l ih =>
    have hcons : (f a >>= fun _ => l.forM f) = .error e := h
    simp only [bind_eq_error] at hcons
    rcases hcons with ha | ⟨_, ha, hl⟩
    · exact ⟨[], a, l, rfl, by simp, ha⟩
    · obtain ⟨before, b, after, rfl, hbefore, hb⟩ := ih hl
      refine ⟨a :: before, b, after, rfl, ?_, hb⟩
      intro c hc
      rcases List.mem_cons.1 hc with rfl | hc
      · exact ha
      · exact hbefore c hc

/-- A fold fails at its first step that does. -/
theorem foldlM_eq_error {step : σ → ι → Except ε σ} {l : List ι} {s : σ} {e : ε}
    (h : l.foldlM step s = .error e) :
    ∃ before a after t, l = before ++ a :: after ∧ before.foldlM step s = .ok t ∧
      step t a = .error e := by
  induction l generalizing s with
  | nil => simp [pure, Except.pure] at h
  | cons a l ih =>
    simp only [List.foldlM_cons, bind_eq_error] at h
    rcases h with ha | ⟨t, ha, hl⟩
    · exact ⟨[], a, l, s, rfl, rfl, ha⟩
    · obtain ⟨before, b, after, u, rfl, hbefore, hb⟩ := ih hl
      exact ⟨a :: before, b, after, u, rfl, by simp [ha, hbefore, bind, Except.bind], hb⟩

end Loop

/-! ## What a computation can fail with -/

section Throws

variable {ι : Type*} {σ : Type v} {p : ε → Prop}

/-- Every error of the computation satisfies `p`. -/
def Throws (p : ε → Prop) (x : Except ε α) : Prop := ∀ e, x = .error e → p e

theorem throws_ok (a : α) : Throws p (.ok a : Except ε α) := by
  intro e h
  cases h

theorem throws_error {e : ε} (h : p e) : Throws p (.error e : Except ε α) := by
  intro e' he
  cases he
  exact h

theorem throws_failIf {c : Prop} [Decidable c] {e : ε} (h : p e) : Throws p (failIf c e) := by
  intro e' he
  exact (failIf_eq_error.1 he).2 ▸ h

theorem throws_found {e : ε} {o : Option α} (h : p e) : Throws p (found e o) := by
  intro e' he
  exact (found_eq_error.1 he).2 ▸ h

theorem Throws.bind {x : Except ε α} {f : α → Except ε β} (hx : Throws p x)
    (hf : ∀ a, x = .ok a → Throws p (f a)) : Throws p (x >>= f) := by
  intro e he
  rcases bind_eq_error.1 he with he | ⟨a, ha, he⟩
  · exact hx e he
  · exact hf a ha e he

theorem throws_forM {f : ι → Except ε Unit} {l : List ι} (h : ∀ a ∈ l, Throws p (f a)) :
    Throws p (l.forM f) := by
  intro e he
  obtain ⟨before, a, after, rfl, -, ha⟩ := forM_eq_error he
  exact h a (by simp) e ha

theorem throws_foldlM {step : σ → ι → Except ε σ} {l : List ι} {s : σ}
    (h : ∀ t, ∀ a ∈ l, Throws p (step t a)) : Throws p (l.foldlM step s) := by
  intro e he
  obtain ⟨before, a, after, t, rfl, -, ha⟩ := foldlM_eq_error he
  exact h t a (by simp) e ha

end Throws

end Outcome

end Bifurcation
