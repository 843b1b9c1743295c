import Mathlib

/-!
# Keyed tables

A table is a list of rows with pairwise distinct primary keys, in insertion order. `set` is
an upsert (replace the row with that key, or append), `insert?` refuses a key that is taken,
`deleteWhere` and `updateWhere` act on the rows a condition selects.

Two views carry every proof about a table: `get?`, which says what is stored under a key, and
`sumBy`, which adds a quantity up over all rows. Each operation has one lemma for each view.
-/

namespace Bifurcation

/-- Rows with pairwise distinct primary keys. -/
structure Table (κ ρ : Type*) where
  rows : List (κ × ρ)
  nodup : (rows.map Prod.fst).Nodup

namespace Table

variable {κ ρ : Type*}

instance [DecidableEq κ] [DecidableEq ρ] : DecidableEq (Table κ ρ) := fun a b =>
  decidable_of_iff (a.rows = b.rows) (by cases a; cases b; simp)

/-- The table without rows. -/
def empty : Table κ ρ := ⟨[], List.nodup_nil⟩

instance : Inhabited (Table κ ρ) := ⟨empty⟩

/-- Delete the rows the condition selects. -/
def deleteWhere (t : Table κ ρ) (p : κ → ρ → Bool) : Table κ ρ where
  rows := t.rows.filter fun x => !p x.1 x.2
  nodup := t.nodup.sublist (List.filter_sublist.map _)

/-- Rewrite the rows the condition selects. -/
def updateWhere (t : Table κ ρ) (p : κ → ρ → Bool) (f : ρ → ρ) : Table κ ρ where
  rows := t.rows.map fun x => (x.1, if p x.1 x.2 then f x.2 else x.2)
  nodup := by simpa [List.map_map, Function.comp_def] using t.nodup

/-- The sum of a quantity over all rows. -/
def sumBy {M : Type*} [AddCommMonoid M] (t : Table κ ρ) (f : κ → ρ → M) : M :=
  (t.rows.map fun x => f x.1 x.2).sum

variable [DecidableEq κ]

/-- The row stored under a key. -/
def get? (t : Table κ ρ) (k : κ) : Option ρ := (t.rows.find? fun x => x.1 = k).map Prod.snd

/-- Replace the row with key `k`, or append it. -/
def setRows (k : κ) (r : ρ) : List (κ × ρ) → List (κ × ρ)
  | [] => [(k, r)]
  | x :: xs => if x.1 = k then (k, r) :: xs else x :: setRows k r xs

theorem map_fst_setRows (k : κ) (r : ρ) (xs : List (κ × ρ)) :
    (setRows k r xs).map Prod.fst =
      if k ∈ xs.map Prod.fst then xs.map Prod.fst else xs.map Prod.fst ++ [k] := by
  induction xs with
  | nil => simp [setRows]
  | cons x xs ih =>
    unfold setRows
    by_cases hx : x.1 = k
    · simp [hx]
    · simp only [hx, if_false, List.map_cons, ih, List.mem_cons, Ne.symm hx, false_or]
      split_ifs <;> rfl

theorem nodup_setRows (k : κ) (r : ρ) {xs : List (κ × ρ)} (h : (xs.map Prod.fst).Nodup) :
    ((setRows k r xs).map Prod.fst).Nodup := by
  rw [map_fst_setRows]
  split_ifs with hk
  · exact h
  · exact List.nodup_append.2 ⟨h, List.nodup_singleton k, fun a ha b hb => by
      rw [List.mem_singleton.1 hb]; rintro rfl; exact hk ha⟩

/-- Insert or replace: `INSERT .. ON CONFLICT DO UPDATE`. -/
def set (t : Table κ ρ) (k : κ) (r : ρ) : Table κ ρ := ⟨setRows k r t.rows, nodup_setRows k r t.nodup⟩

/-- Insert a row whose key must be new. -/
def insert? (t : Table κ ρ) (k : κ) (r : ρ) : Option (Table κ ρ) :=
  match t.get? k with
  | some _ => none
  | none => some (t.set k r)

/-! ## What is stored under a key -/

@[simp] theorem get?_empty (k : κ) : (empty : Table κ ρ).get? k = none := rfl

theorem find?_setRows (k k' : κ) (r : ρ) (xs : List (κ × ρ)) :
    ((setRows k r xs).find? fun x => x.1 = k') =
      if k' = k then some (k, r) else xs.find? fun x => x.1 = k' := by
  induction xs with
  | nil => by_cases h : k' = k <;> simp [setRows, h, eq_comm]
  | cons x xs ih =>
    unfold setRows
    by_cases hx : x.1 = k
    · by_cases h : k' = k
      · simp [hx, h]
      · have hk : ¬ k = k' := fun e => h e.symm
        have hx' : ¬ x.1 = k' := fun e => h (e.symm.trans hx)
        simp [hx, h, hk]
    · simp only [hx, if_false, List.find?_cons, ih]
      by_cases hx' : x.1 = k'
      · have h : ¬ k' = k := fun e => hx (hx'.trans e)
        simp [hx', h]
      · simp [hx']

theorem get?_set (t : Table κ ρ) (k k' : κ) (r : ρ) :
    (t.set k r).get? k' = if k' = k then some r else t.get? k' := by
  simp only [get?, set, find?_setRows]
  split_ifs <;> rfl

@[simp] theorem get?_set_self (t : Table κ ρ) (k : κ) (r : ρ) : (t.set k r).get? k = some r := by
  simp [get?_set]

theorem get?_set_of_ne (t : Table κ ρ) {k k' : κ} (r : ρ) (h : k' ≠ k) :
    (t.set k r).get? k' = t.get? k' := by
  simp [get?_set, h]

theorem mem_rows_iff {t : Table κ ρ} {k : κ} {r : ρ} : (k, r) ∈ t.rows ↔ t.get? k = some r := by
  obtain ⟨xs, hxs⟩ := t
  simp only [get?]
  induction xs with
  | nil => simp
  | cons x xs ih =>
    obtain ⟨k₀, r₀⟩ := x
    simp only [List.map_cons, List.nodup_cons] at hxs
    have hrest := ih hxs.2
    by_cases h : k₀ = k
    · subst h
      have hnot : (k₀, r) ∉ xs := fun hm => hxs.1 (List.mem_map.2 ⟨_, hm, rfl⟩)
      simp [hnot, eq_comm]
    · have hne : ¬ k = k₀ := fun e => h e.symm
      simpa [h, hne] using hrest

theorem get?_of_mem {t : Table κ ρ} {x : κ × ρ} (h : x ∈ t.rows) : t.get? x.1 = some x.2 :=
  mem_rows_iff.1 h

theorem get?_deleteWhere (t : Table κ ρ) (p : κ → ρ → Bool) (k : κ) :
    (t.deleteWhere p).get? k = (t.get? k).filter fun r => !p k r := by
  apply Option.ext
  intro r
  rw [← mem_rows_iff]
  simp only [deleteWhere, List.mem_filter, mem_rows_iff, Option.filter_eq_some_iff]

theorem get?_updateWhere (t : Table κ ρ) (p : κ → ρ → Bool) (f : ρ → ρ) (k : κ) :
    (t.updateWhere p f).get? k = (t.get? k).map fun r => if p k r then f r else r := by
  apply Option.ext
  intro r
  rw [← mem_rows_iff]
  simp only [updateWhere, List.mem_map, Prod.mk.injEq, Prod.exists, mem_rows_iff,
    Option.map_eq_some_iff]
  constructor
  · rintro ⟨k', r', h, rfl, rfl⟩; exact ⟨r', h, rfl⟩
  · rintro ⟨r', h, rfl⟩; exact ⟨k, r', h, rfl, rfl⟩

theorem insert?_eq_some {t t' : Table κ ρ} {k : κ} {r : ρ} :
    t.insert? k r = some t' ↔ t.get? k = none ∧ t' = t.set k r := by
  unfold insert?
  cases t.get? k <;> simp [eq_comm]

/-! ## Rows of an insert

A new key is appended, so `rows` is the order of insertion. -/

theorem setRows_of_notMem {k : κ} {r : ρ} {xs : List (κ × ρ)} (h : k ∉ xs.map Prod.fst) :
    setRows k r xs = xs ++ [(k, r)] := by
  induction xs with
  | nil => rfl
  | cons x xs ih =>
    simp only [List.map_cons, List.mem_cons, not_or] at h
    have hx : ¬ x.1 = k := fun e => h.1 e.symm
    simp [setRows, hx, ih h.2]

theorem notMem_of_get?_eq_none {t : Table κ ρ} {k : κ} (h : t.get? k = none) :
    k ∉ t.rows.map Prod.fst := by
  intro hk
  obtain ⟨⟨k', r⟩, hm, rfl⟩ := List.mem_map.1 hk
  rw [get?_of_mem hm] at h
  cases h

theorem rows_set_of_get?_eq_none {t : Table κ ρ} {k : κ} (h : t.get? k = none) (r : ρ) :
    (t.set k r).rows = t.rows ++ [(k, r)] :=
  setRows_of_notMem (notMem_of_get?_eq_none h)

/-! ## Positions

Upserts and updates keep every row at its place. -/

theorem getElem?_setRows {k : κ} {r : ρ} {xs : List (κ × ρ)} (hxs : (xs.map Prod.fst).Nodup)
    {i : ℕ} {x : κ × ρ} (h : xs[i]? = some x) :
    (setRows k r xs)[i]? = some (if x.1 = k then (k, r) else x) := by
  induction xs generalizing i with
  | nil => simp at h
  | cons y ys ih =>
    simp only [List.map_cons, List.nodup_cons] at hxs
    unfold setRows
    cases i with
    | zero =>
      obtain rfl : y = x := by simpa using h
      by_cases hy : y.1 = k <;> simp [hy]
    | succ i =>
      have h' : ys[i]? = some x := by simpa using h
      by_cases hy : y.1 = k
      · have hx : ¬ x.1 = k := fun hx => hxs.1 (by
          rw [hy, ← hx]; exact List.mem_map_of_mem (List.mem_of_getElem? h'))
        simp [hy, hx, h']
      · simpa [hy] using ih hxs.2 h'

theorem getElem?_rows_set (t : Table κ ρ) (k : κ) (r : ρ) {i : ℕ} {x : κ × ρ}
    (h : t.rows[i]? = some x) : (t.set k r).rows[i]? = some (if x.1 = k then (k, r) else x) :=
  getElem?_setRows t.nodup h

omit [DecidableEq κ] in
theorem getElem?_rows_updateWhere (t : Table κ ρ) (p : κ → ρ → Bool) (f : ρ → ρ) {i : ℕ}
    {x : κ × ρ} (h : t.rows[i]? = some x) :
    (t.updateWhere p f).rows[i]? = some (x.1, if p x.1 x.2 then f x.2 else x.2) := by
  simp [updateWhere, h]

omit [DecidableEq κ] in
theorem index_unique {t : Table κ ρ} {i j : ℕ} {x y : κ × ρ} (hi : t.rows[i]? = some x)
    (hj : t.rows[j]? = some y) (hkey : x.1 = y.1) : i = j := by
  have hmap : ∀ {n : ℕ} {z : κ × ρ}, t.rows[n]? = some z →
      (t.rows.map Prod.fst)[n]? = some z.1 := by
    intro n z hn
    simp [hn]
  have hlt : i < (t.rows.map Prod.fst).length := by
    obtain ⟨h, -⟩ := List.getElem?_eq_some_iff.1 (hmap hi)
    exact h
  exact (List.getElem?_inj hlt t.nodup).1 (by rw [hmap hi, hmap hj, hkey])

theorem exists_index {t : Table κ ρ} {k : κ} {r : ρ} (h : t.get? k = some r) :
    ∃ i : ℕ, t.rows[i]? = some (k, r) :=
  List.mem_iff_getElem?.1 (mem_rows_iff.2 h)

theorem get?_of_index {t : Table κ ρ} {i : ℕ} {x : κ × ρ} (h : t.rows[i]? = some x) :
    t.get? x.1 = some x.2 :=
  get?_of_mem (List.mem_of_getElem? h)

/-! ## Sums over all rows -/

theorem sumBy_congr {M : Type*} [AddCommMonoid M] (t : Table κ ρ) {f g : κ → ρ → M}
    (h : ∀ k r, t.get? k = some r → f k r = g k r) : t.sumBy f = t.sumBy g := by
  unfold sumBy
  congr 1
  exact List.map_congr_left fun x hx => h x.1 x.2 (get?_of_mem hx)

omit [DecidableEq κ] in
theorem sumBy_deleteWhere {M : Type*} [AddCommMonoid M] (t : Table κ ρ) (p : κ → ρ → Bool)
    (f : κ → ρ → M) :
    (t.deleteWhere p).sumBy f = t.sumBy fun k r => if p k r then 0 else f k r := by
  obtain ⟨xs, hxs⟩ := t
  simp only [sumBy, deleteWhere]
  clear hxs
  induction xs with
  | nil => rfl
  | cons x xs ih => by_cases hp : p x.1 x.2 <;> simp [hp, ih]

/-- Deleting rows the sum does not look at leaves the sum unchanged. -/
theorem sumBy_deleteWhere_of_zero {M : Type*} [AddCommMonoid M] (t : Table κ ρ)
    {p : κ → ρ → Bool} {f : κ → ρ → M} (h : ∀ k r, t.get? k = some r → p k r = true → f k r = 0) :
    (t.deleteWhere p).sumBy f = t.sumBy f := by
  rw [sumBy_deleteWhere]
  refine sumBy_congr t fun k r hk => ?_
  split_ifs with hp
  · exact (h k r hk hp).symm
  · rfl

/-! ## Accumulating

A table whose rows are amounts, where an upsert adds to what is there. -/

section Accumulate

variable {M : Type*} [AddCommMonoid ρ] [AddCommMonoid M]

/-- Add an amount to the row of a key. -/
def accumulate (t : Table κ ρ) (entry : κ × ρ) : Table κ ρ :=
  t.set entry.1 ((t.get? entry.1).getD 0 + entry.2)

theorem sum_setRows_add {f : κ → ρ → M} (hadd : ∀ k a b, f k (a + b) = f k a + f k b) (k : κ)
    (v : ρ) (xs : List (κ × ρ)) :
    ((setRows k (((xs.find? fun x => x.1 = k).map Prod.snd).getD 0 + v) xs).map
      fun x => f x.1 x.2).sum = (xs.map fun x => f x.1 x.2).sum + f k v := by
  induction xs with
  | nil => simp [setRows]
  | cons x xs ih =>
    unfold setRows
    by_cases hx : x.1 = k
    · subst hx
      simp only [List.find?_cons, decide_true, Option.map_some, Option.getD_some, if_true,
        List.map_cons, List.sum_cons, hadd]
      rw [add_right_comm]
    · simp only [List.find?_cons, hx, decide_false, if_false, List.map_cons, List.sum_cons, ih]
      rw [add_assoc]

/-- Accumulating an amount adds it to every sum of amounts. -/
theorem sumBy_accumulate {f : κ → ρ → M} (hadd : ∀ k a b, f k (a + b) = f k a + f k b)
    (t : Table κ ρ) (entry : κ × ρ) :
    (t.accumulate entry).sumBy f = t.sumBy f + f entry.1 entry.2 :=
  sum_setRows_add hadd entry.1 entry.2 t.rows

theorem sumBy_foldl_accumulate {f : κ → ρ → M} (hadd : ∀ k a b, f k (a + b) = f k a + f k b)
    (t : Table κ ρ) (entries : List (κ × ρ)) :
    (entries.foldl accumulate t).sumBy f =
      t.sumBy f + (entries.map fun entry => f entry.1 entry.2).sum := by
  induction entries generalizing t with
  | nil => simp
  | cons entry entries ih =>
    rw [List.foldl_cons, ih, sumBy_accumulate hadd, List.map_cons, List.sum_cons, add_assoc]

/-- The keys after accumulating are the old ones and those of the entries. -/
theorem mem_keys_foldl_accumulate {t : Table κ ρ} {entries : List (κ × ρ)} {k : κ}
    (h : k ∈ (entries.foldl accumulate t).rows.map Prod.fst) :
    k ∈ t.rows.map Prod.fst ∨ k ∈ entries.map Prod.fst := by
  induction entries generalizing t with
  | nil => exact .inl h
  | cons entry entries ih =>
    rcases ih h with hk | hk
    · have hkeys : (t.accumulate entry).rows.map Prod.fst =
          if entry.1 ∈ t.rows.map Prod.fst then t.rows.map Prod.fst
          else t.rows.map Prod.fst ++ [entry.1] := map_fst_setRows _ _ _
      rw [hkeys] at hk
      by_cases hmem : entry.1 ∈ t.rows.map Prod.fst
      · rw [if_pos hmem] at hk
        exact .inl hk
      · rw [if_neg hmem, List.mem_append, List.mem_singleton] at hk
        rcases hk with hk | rfl
        · exact .inl hk
        · exact .inr List.mem_cons_self
    · exact .inr (List.mem_cons_of_mem _ hk)

end Accumulate

/-- The row of a key as a sum. -/
theorem sumBy_eq_get? [AddCommMonoid ρ] {M : Type*} [AddCommMonoid M] {f : ρ → M}
    (hzero : f 0 = 0) (t : Table κ ρ) (k : κ) :
    (t.sumBy fun k' r => if k' = k then f r else 0) = f ((t.get? k).getD 0) := by
  obtain ⟨xs, hxs⟩ := t
  simp only [sumBy, get?]
  induction xs with
  | nil => simp [hzero]
  | cons x xs ih =>
    rw [List.map_cons, List.nodup_cons] at hxs
    have htail := ih hxs.2
    by_cases hx : x.1 = k
    · have hnone : (xs.find? fun y => decide (y.1 = k)) = none := by
        rw [List.find?_eq_none]
        intro y hy hyk
        exact hxs.1 (hx.trans (of_decide_eq_true hyk).symm ▸ List.mem_map_of_mem hy)
      rw [hnone, Option.map_none, Option.getD_none, hzero] at htail
      simp only [List.map_cons, List.sum_cons, hx, if_true, htail, add_zero, List.find?_cons,
        decide_true, Option.map_some, Option.getD_some]
    · simp only [List.map_cons, List.sum_cons, hx, if_false, zero_add, htail, List.find?_cons,
        decide_false]

end Table

end Bifurcation
