import Bifurcation.Lib.Outcome

/-!
# Longest suffixes

A bounded log keeps its newest items. What it keeps is the longest suffix with a property: one that
every other suffix with the property is a suffix of.

Three loops find it. Items are dropped from the front until the property holds (`dropUntil`), items
are taken from the end while a budget lasts (`takeWithin`), or the length is found by bisection
(`bisect`), for a property that a shorter suffix keeps.
-/

namespace Bifurcation.Suffix

variable {α : Type*}

/-- The longest suffix of `xs` with a property. -/
structure Longest (P : List α → Prop) (xs ys : List α) : Prop where
  suffix : ys <:+ xs
  holds : P ys
  maximal : ∀ zs, zs <:+ xs → P zs → zs <:+ ys

/-- A suffix keeps the property. -/
def Hereditary (P : List α → Prop) : Prop := ∀ zs ys, zs <:+ ys → P ys → P zs

namespace Longest

variable {P Q : List α → Prop} {xs ys zs : List α}

theorem of_holds (h : P xs) : Longest P xs xs := ⟨List.suffix_rfl, h, fun _ hzs _ => hzs⟩

theorem unique (h : Longest P xs ys) (h' : Longest P xs zs) : ys = zs :=
  (h'.maximal ys h.suffix h.holds).eq_of_length_le
    (h.maximal zs h'.suffix h'.holds).length_le

/-- The longest suffix within two limits can be found one limit at a time. -/
theorem inter (hP : Hereditary P) (h : Longest P xs ys) (h' : Longest Q ys zs) :
    Longest (fun ws => P ws ∧ Q ws) xs zs := by
  refine ⟨h'.suffix.trans h.suffix, ⟨hP zs ys h'.suffix h.holds, h'.holds⟩, ?_⟩
  rintro ws hws ⟨hPws, hQws⟩
  exact h'.maximal ws (h.maximal ws hws hPws) hQws

/-- Where a new item comes last, what was left out before is not needed again. -/
theorem concat {a : α} (hinit : ∀ ws, P (ws ++ [a]) → P ws)
    (h : Longest P xs ys) (h' : Longest P (ys ++ [a]) zs) : Longest P (xs ++ [a]) zs := by
  refine ⟨h'.suffix.trans (List.suffix_append_self_iff.2 h.suffix), h'.holds, ?_⟩
  intro ws hws hPws
  rcases List.suffix_concat_iff.1 hws with rfl | ⟨init, rfl, hinit'⟩
  · exact List.nil_suffix
  · have hys := h.maximal init hinit' (hinit init hPws)
    exact h'.maximal _ (List.suffix_append_self_iff.2 hys) hPws

/-- A last item that has the property alone is kept. -/
theorem getLast {a : α} (h : Longest P (xs ++ [a]) ys) (ha : P [a]) : ∃ ws, ys = ws ++ [a] := by
  obtain ⟨ws, hws⟩ := h.maximal [a] (List.suffix_append xs [a]) ha
  exact ⟨ws, hws.symm⟩

end Longest

/-! ## Dropping from the front -/

/-- Drop items from the front until the property holds. -/
def dropUntil (P : List α → Prop) [DecidablePred P] : List α → List α
  | [] => []
  | a :: as => if P (a :: as) then a :: as else dropUntil P as

theorem longest_dropUntil (P : List α → Prop) [DecidablePred P] (hnil : P []) (xs : List α) :
    Longest P xs (dropUntil P xs) := by
  induction xs with
  | nil => exact .of_holds hnil
  | cons a as ih =>
    rw [dropUntil]
    split_ifs with h
    · exact .of_holds h
    · refine ⟨ih.suffix.trans (List.suffix_cons a as), ih.holds, fun zs hzs hP => ?_⟩
      rcases List.suffix_cons_iff.1 hzs with rfl | hzs
      · exact absurd hP h
      · exact ih.maximal zs hzs hP

/-! ## Taking from the end -/

section Budget

variable (weight : α → ℕ)

/-- Take items while the sum of their weights stays within the limit. -/
def takeWithin (limit : ℕ) : ℕ → List α → List α
  | _, [] => []
  | used, a :: as =>
    if limit < used + weight a then [] else a :: takeWithin limit (used + weight a) as

/-- The total weight of some items. -/
def total (xs : List α) : ℕ := (xs.map weight).sum

variable {weight}

@[simp] theorem total_nil : total weight [] = 0 := rfl

@[simp] theorem total_cons (a : α) (as : List α) :
    total weight (a :: as) = weight a + total weight as := rfl

@[simp] theorem total_append (as bs : List α) :
    total weight (as ++ bs) = total weight as + total weight bs := by
  simp [total]

theorem hereditary_length (limit : ℕ) : Hereditary fun ys : List α => ys.length ≤ limit :=
  fun _ _ hsuffix hle => hsuffix.length_le.trans hle

/-- The newest items within a budget: the items are taken in the opposite order. -/
theorem longest_takeWithin (weight : α → ℕ) {limit used : ℕ} (hused : used ≤ limit) (xs : List α) :
    Longest (fun ys => used + total weight ys ≤ limit) xs
      (takeWithin weight limit used xs.reverse).reverse := by
  induction xs using List.reverseRecOn generalizing used with
  | nil => exact .of_holds (by simpa using hused)
  | append_singleton older a ih =>
    rw [List.reverse_append, List.reverse_singleton, List.singleton_append, takeWithin]
    split_ifs with hover
    · refine ⟨List.nil_suffix, by simpa using hused, fun zs hzs hle => ?_⟩
      rcases List.suffix_concat_iff.1 hzs with rfl | ⟨init, rfl, -⟩
      · exact List.suffix_rfl
      · simp only [total_append, total_cons, total_nil] at hle
        omega
    · obtain ⟨hsuffix, hholds, hmax⟩ := ih (not_lt.1 hover)
      rw [List.reverse_cons]
      refine ⟨List.suffix_append_self_iff.2 hsuffix, ?_, fun zs hzs hle => ?_⟩
      · simp only [total_append, total_cons, total_nil]
        omega
      · rcases List.suffix_concat_iff.1 hzs with rfl | ⟨init, rfl, hinit⟩
        · exact List.nil_suffix
        · simp only [total_append, total_cons, total_nil] at hle
          exact List.suffix_append_self_iff.2 (hmax init hinit (by omega))

/-- The newest items of a limited number. -/
theorem longest_drop (limit : ℕ) (xs : List α) :
    Longest (fun ys => ys.length ≤ limit) xs (xs.drop (xs.length - limit)) := by
  refine ⟨List.drop_suffix _ _, by simp only [List.length_drop]; omega, fun zs hzs hle => ?_⟩
  refine List.suffix_of_suffix_length_le hzs (List.drop_suffix _ _) ?_
  have hlength := hzs.length_le
  simp only [List.length_drop]
  omega

end Budget

/-! ## Bisection -/

/-- The loop `for low < high`: the greatest number from `low` to `high` that fits, where a smaller
number fits too. The check may fail. -/
def bisect {ε : Type*} (fits : ℕ → Except ε Bool) (low high : ℕ) : Except ε ℕ :=
  if low < high then do
    let count := (low + high + 1) / 2
    if ← fits count then bisect fits count high else bisect fits low (count - 1)
  else return low
termination_by high - low

/-- **Bisection finds the greatest number that fits**, or `low` where none above it does. -/
theorem bisect_spec {ε : Type*} {fits : ℕ → Except ε Bool} {p : ℕ → Prop} [DecidablePred p]
    (hfits : ∀ n, fits n = .ok (decide (p n))) (hp : ∀ m n, m ≤ n → p n → p m) {low high : ℕ}
    (hle : low ≤ high) :
    ∃ n, bisect fits low high = .ok n ∧ low ≤ n ∧ n ≤ high ∧ (n = low ∨ p n) ∧
      ∀ m, m ≤ high → p m → m ≤ n := by
  induction hspan : high - low using Nat.strong_induction_on generalizing low high with
  | _ span ih =>
    rw [bisect]
    by_cases hlt : low < high
    · simp only [if_pos hlt, hfits, ok_bind, decide_eq_true_eq]
      by_cases hmid : p ((low + high + 1) / 2)
      · rw [if_pos hmid]
        obtain ⟨n, hn, hlow, hhigh, hor, hmax⟩ := ih _ (by omega)
          (show (low + high + 1) / 2 ≤ high by omega) rfl
        refine ⟨n, hn, by omega, hhigh, .inr ?_, hmax⟩
        rcases hor with rfl | hor
        · exact hmid
        · exact hor
      · rw [if_neg hmid]
        obtain ⟨n, hn, hlow, hhigh, hor, hmax⟩ := ih _ (by omega)
          (show low ≤ (low + high + 1) / 2 - 1 by omega) rfl
        refine ⟨n, hn, hlow, by omega, hor, fun m hm hpm => hmax m ?_ hpm⟩
        by_contra hover
        exact hmid (hp _ m (by omega) hpm)
    · rw [if_neg hlt]
      exact ⟨low, rfl, le_rfl, hle, .inl rfl, fun m hm _ => by omega⟩

end Bifurcation.Suffix
