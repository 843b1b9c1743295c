import Bifurcation.Lib.Table

/-!
# Tables that grow

Rows keep their places, are changed within a relation, and new ones are added at the end. The
last row of a kind then stays the last of its kind until one of that kind is added.
-/

namespace Bifurcation

namespace Table

variable {κ ρ : Type*} [DecidableEq κ]

/-- Every row stays at its place and is changed within `R`, and the rows that are added satisfy
`P`. -/
structure Grows (R : ρ → ρ → Prop) (P : κ → ρ → Prop) (t t' : Table κ ρ) : Prop where
  kept : ∀ (i : ℕ) (x : κ × ρ), t.rows[i]? = some x →
    ∃ r', t'.rows[i]? = some (x.1, r') ∧ R x.2 r'
  added : ∀ (i : ℕ) (x' : κ × ρ), t.rows.length ≤ i → t'.rows[i]? = some x' → P x'.1 x'.2

/-- The last row of a kind. -/
def Last (t : Table κ ρ) (p : ρ → Prop) (x : κ × ρ) : Prop :=
  ∃ i : ℕ, t.rows[i]? = some x ∧ p x.2 ∧ ∀ (j : ℕ) (y : κ × ρ), i < j → t.rows[j]? = some y → ¬ p y.2

section Grows

variable {R : ρ → ρ → Prop} {P P' : κ → ρ → Prop} {t t' t'' : Table κ ρ}

omit [DecidableEq κ] in
theorem Grows.refl (hrefl : ∀ r, R r r) (t : Table κ ρ) : Grows R P t t where
  kept := fun _ x h => ⟨x.2, h, hrefl x.2⟩
  added := fun i x' hi h => by
    rw [List.getElem?_eq_none hi] at h
    cases h

omit [DecidableEq κ] in
theorem Grows.mono (h : Grows R P t t') (hP : ∀ k r, P k r → P' k r) : Grows R P' t t' :=
  ⟨h.kept, fun i x' hi hx' => hP _ _ (h.added i x' hi hx')⟩

omit [DecidableEq κ] in
theorem Grows.trans (h : Grows R P t t') (h' : Grows R P t' t'')
    (htrans : ∀ a b c, R a b → R b c → R a c) (hstable : ∀ k r r', P k r → R r r' → P k r') :
    Grows R P t t'' where
  kept := fun i x hx => by
    obtain ⟨r', hr', hrel⟩ := h.kept i x hx
    obtain ⟨r'', hr'', hrel'⟩ := h'.kept i _ hr'
    exact ⟨r'', hr'', htrans _ _ _ hrel hrel'⟩
  added := fun i x'' hi hx'' => by
    cases hx' : t'.rows[i]? with
    | none => exact h'.added i x'' (List.getElem?_eq_none_iff.1 hx') hx''
    | some x' =>
      obtain ⟨r'', hr'', hrel⟩ := h'.kept i x' hx'
      rw [hx''] at hr''
      obtain rfl := Option.some.inj hr''
      exact hstable _ _ _ (h.added i x' hi hx') hrel

omit [DecidableEq κ] in
theorem grows_updateWhere (hrefl : ∀ r, R r r) {p : κ → ρ → Bool} {f : ρ → ρ}
    (hf : ∀ k r, p k r = true → R r (f r)) (t : Table κ ρ) : Grows R P t (t.updateWhere p f) where
  kept := fun i x hx => by
    refine ⟨_, getElem?_rows_updateWhere t p f hx, ?_⟩
    split_ifs with hp
    · exact hf _ _ hp
    · exact hrefl _
  added := fun i x' hi h => by
    have hlength : (t.updateWhere p f).rows.length = t.rows.length := List.length_map _
    rw [List.getElem?_eq_none (hlength.trans_le hi)] at h
    cases h

/-- A row that is there is changed. -/
theorem grows_set_of_some (hrefl : ∀ r, R r r) {k : κ} {r r' : ρ} (hget : t.get? k = some r)
    (hrel : R r r') : Grows R P t (t.set k r') where
  kept := fun i x hx => by
    have hset := getElem?_rows_set t k r' hx
    by_cases hkey : x.1 = k
    · have hsame : x.2 = r := by
        have hx' := get?_of_index hx
        rw [hkey, hget] at hx'
        exact (Option.some.inj hx').symm
      rw [if_pos hkey] at hset
      exact ⟨r', by rw [hkey]; exact hset, hsame ▸ hrel⟩
    · rw [if_neg hkey] at hset
      exact ⟨x.2, hset, hrefl x.2⟩
  added := fun i x' hi h => by
    have hlength : (t.set k r').rows.length = t.rows.length := by
      have hkeys : (t.set k r').rows.map Prod.fst =
          if k ∈ t.rows.map Prod.fst then t.rows.map Prod.fst
          else t.rows.map Prod.fst ++ [k] := map_fst_setRows _ _ _
      rw [if_pos (List.mem_map_of_mem (mem_rows_iff.2 hget))] at hkeys
      rw [← List.length_map Prod.fst, hkeys, List.length_map]
    rw [List.getElem?_eq_none (hlength.trans_le hi)] at h
    cases h

/-- A row is added. -/
theorem grows_set_of_none (hrefl : ∀ r, R r r) {k : κ} {r : ρ} (hget : t.get? k = none)
    (hP : P k r) : Grows R P t (t.set k r) where
  kept := fun i x hx => by
    refine ⟨x.2, ?_, hrefl x.2⟩
    rw [rows_set_of_get?_eq_none hget, List.getElem?_append_left (List.getElem?_eq_some_iff.1 hx).1,
      hx]
  added := fun i x' hi h => by
    rw [rows_set_of_get?_eq_none hget, List.getElem?_append_right hi] at h
    obtain rfl := List.mem_singleton.1 (List.mem_of_getElem? h)
    exact hP

omit [DecidableEq κ] in
/-- The rows after growing: changed ones and added ones. -/
theorem Grows.cases (h : Grows R P t t') {x' : κ × ρ} (hx' : x' ∈ t'.rows) :
    (∃ r, (x'.1, r) ∈ t.rows ∧ R r x'.2) ∨ P x'.1 x'.2 := by
  obtain ⟨i, hi⟩ := List.mem_iff_getElem?.1 hx'
  cases hx : t.rows[i]? with
  | none => exact .inr (h.added i x' (List.getElem?_eq_none_iff.1 hx) hi)
  | some x =>
    obtain ⟨r', hr', hrel⟩ := h.kept i x hx
    rw [hi] at hr'
    obtain rfl := Option.some.inj hr'
    exact .inl ⟨x.2, List.mem_of_getElem? hx, hrel⟩

omit [DecidableEq κ] in
/-- A kind that changes keep, and of which no row is added, has the same last row. -/
theorem Grows.last (h : Grows R P t t') {p : ρ → Prop} (hkind : ∀ r r', R r r' → (p r' ↔ p r))
    (hadded : ∀ k r, P k r → ¬ p r) {x' : κ × ρ} (hx' : t'.Last p x') :
    ∃ r, t.Last p (x'.1, r) ∧ R r x'.2 := by
  obtain ⟨i, hi, hp, hlast⟩ := hx'
  cases hx : t.rows[i]? with
  | none => exact absurd hp (hadded _ _ (h.added i x' (List.getElem?_eq_none_iff.1 hx) hi))
  | some x =>
    obtain ⟨r', hr', hrel⟩ := h.kept i x hx
    rw [hi] at hr'
    obtain rfl := Option.some.inj hr'
    refine ⟨x.2, ⟨i, hx, (hkind _ _ hrel).1 hp, fun j y hj hy hpy => ?_⟩, hrel⟩
    obtain ⟨s', hs', hrel'⟩ := h.kept j y hy
    exact hlast j _ hj hs' ((hkind _ _ hrel').2 hpy)

omit [DecidableEq κ] in
/-- The last row of such a kind is changed and stays the last. -/
theorem Grows.last_of (h : Grows R P t t') {p : ρ → Prop} (hkind : ∀ r r', R r r' → (p r' ↔ p r))
    (hadded : ∀ k r, P k r → ¬ p r) {x : κ × ρ} (hx : t.Last p x) :
    ∃ r', t'.Last p (x.1, r') ∧ R x.2 r' := by
  obtain ⟨i, hi, hp, hlast⟩ := hx
  obtain ⟨r', hr', hrel⟩ := h.kept i x hi
  refine ⟨r', ⟨i, hr', (hkind _ _ hrel).2 hp, fun j y' hj hy' hpy' => ?_⟩, hrel⟩
  cases hy : t.rows[j]? with
  | none => exact hadded _ _ (h.added j y' (List.getElem?_eq_none_iff.1 hy) hy') hpy'
  | some y =>
    obtain ⟨s', hs', hrel'⟩ := h.kept j y hy
    rw [hy'] at hs'
    obtain rfl := Option.some.inj hs'
    exact hlast j y hj hy ((hkind _ _ hrel').1 hpy')

omit [DecidableEq κ] in
/-- The first row of such a kind is changed and stays the first. -/
theorem Grows.find? (h : Grows R P t t') {p : ρ → Bool} (hkind : ∀ r r', R r r' → p r' = p r)
    {x : κ × ρ} (hx : t.rows.find? (fun x => p x.2) = some x) :
    ∃ r', t'.rows.find? (fun x => p x.2) = some (x.1, r') ∧ R x.2 r' := by
  obtain ⟨hp, i, hi, rfl, hbefore⟩ := List.find?_eq_some_iff_getElem.1 hx
  obtain ⟨r', hr', hrel⟩ := h.kept i _ (List.getElem?_eq_getElem hi)
  obtain ⟨hi', heq⟩ := List.getElem?_eq_some_iff.1 hr'
  refine ⟨r', List.find?_eq_some_iff_getElem.2 ⟨?_, i, hi', heq, fun j hj => ?_⟩, hrel⟩
  · dsimp only
    rw [hkind _ _ hrel]
    exact hp
  · have hbefore := hbefore j hj
    obtain ⟨s', hs', hrel'⟩ := h.kept j _ (List.getElem?_eq_getElem (hj.trans hi))
    obtain ⟨hj', hrow⟩ := List.getElem?_eq_some_iff.1 hs'
    rw [hrow, hkind _ _ hrel']
    exact hbefore

end Grows

section Last

variable {t : Table κ ρ} {p : ρ → Prop}

omit [DecidableEq κ] in
theorem Last.mem {x : κ × ρ} (h : t.Last p x) : x ∈ t.rows := by
  obtain ⟨i, hi, -, -⟩ := h
  exact List.mem_of_getElem? hi

omit [DecidableEq κ] in
theorem Last.kind {x : κ × ρ} (h : t.Last p x) : p x.2 := by
  obtain ⟨i, -, hp, -⟩ := h
  exact hp

/-- A row that is added is the last of its kind. -/
theorem Last.of_set {k : κ} {r : ρ} (hget : t.get? k = none) (hp : p r) {x : κ × ρ}
    (h : (t.set k r).Last p x) : x = (k, r) := by
  obtain ⟨i, hi, -, hlast⟩ := h
  rw [rows_set_of_get?_eq_none hget] at hi hlast
  have hend : (t.rows ++ [(k, r)])[t.rows.length]? = some (k, r) := by
    rw [List.getElem?_append_right le_rfl, Nat.sub_self]
    rfl
  rcases lt_trichotomy i t.rows.length with hlt | rfl | hgt
  · exact absurd hp (hlast _ _ hlt hend)
  · rw [hend] at hi
    exact (Option.some.inj hi).symm
  · rw [List.getElem?_eq_none (by rw [List.length_append]; exact hgt)] at hi
    cases hi

theorem last_set_self {k : κ} {r : ρ} (hget : t.get? k = none) (hp : p r) :
    (t.set k r).Last p (k, r) := by
  refine ⟨t.rows.length, ?_, hp, fun j y hj hy => ?_⟩
  · rw [rows_set_of_get?_eq_none hget, List.getElem?_append_right le_rfl, Nat.sub_self]
    rfl
  · rw [rows_set_of_get?_eq_none hget, List.getElem?_eq_none (by
      rw [List.length_append]
      exact hj)] at hy
    cases hy

/-- A row of another kind that is added leaves the last row of a kind. -/
theorem last_of_set_of_not {k : κ} {r : ρ} (hget : t.get? k = none) (hp : ¬ p r) {x : κ × ρ}
    (h : (t.set k r).Last p x) : t.Last p x := by
  have hgrows : Grows Eq (fun _ r' => r' = r) t (t.set k r) :=
    grows_set_of_none (fun _ => rfl) hget rfl
  obtain ⟨r', hr', hrel⟩ := hgrows.last (fun _ _ heq => by rw [heq]) (fun _ _ heq => heq ▸ hp) h
  rw [hrel] at hr'
  exact hr'

end Last

end Table

end Bifurcation
