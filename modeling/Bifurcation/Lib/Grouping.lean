import Mathlib

/-!
# Grouping

A list is grouped by a key and the values of each group are added up, in the order in which the
keys first occur. Grouping keeps the total, gives every key the sum of its values, and grouping
the groups by a coarser key is grouping by that key at once.
-/

namespace Bifurcation.Grouping

variable {α κ κ' M : Type*} [DecidableEq κ] [DecidableEq κ'] [AddCommMonoid M]

/-- Add a value to the group of a key. -/
def add (k : κ) (v : M) : List (κ × M) → List (κ × M)
  | [] => [(k, v)]
  | g :: gs => if g.1 = k then (k, g.2 + v) :: gs else g :: add k v gs

/-- The groups of a list, starting from some groups. -/
def groupFrom (key : α → κ) (value : α → M) (gs : List (κ × M)) (l : List α) : List (κ × M) :=
  l.foldl (fun gs a => add (key a) (value a) gs) gs

def group (key : α → κ) (value : α → M) (l : List α) : List (κ × M) := groupFrom key value [] l

/-! ## One value -/

theorem keys_add (k : κ) (v : M) (gs : List (κ × M)) :
    (add k v gs).map Prod.fst =
      if k ∈ gs.map Prod.fst then gs.map Prod.fst else gs.map Prod.fst ++ [k] := by
  induction gs with
  | nil => simp [add]
  | cons g gs ih =>
    rw [add]
    by_cases hg : g.1 = k
    · simp [hg]
    · rw [if_neg hg, List.map_cons, ih]
      by_cases hk : k ∈ gs.map Prod.fst
      · rw [if_pos hk, List.map_cons, if_pos (List.mem_cons_of_mem _ hk)]
      · have hcons : k ∉ (g :: gs).map Prod.fst := by
          rw [List.map_cons, List.mem_cons, not_or]
          exact ⟨Ne.symm hg, hk⟩
        rw [if_neg hk, if_neg hcons, List.map_cons, List.cons_append]

theorem mem_keys_add (k : κ) (v : M) (gs : List (κ × M)) : k ∈ (add k v gs).map Prod.fst := by
  rw [keys_add]
  by_cases hk : k ∈ gs.map Prod.fst
  · rwa [if_pos hk]
  · rw [if_neg hk]
    exact List.mem_append_right _ (List.mem_singleton_self k)

theorem nodup_add {k : κ} {v : M} {gs : List (κ × M)} (h : (gs.map Prod.fst).Nodup) :
    ((add k v gs).map Prod.fst).Nodup := by
  rw [keys_add]
  by_cases hk : k ∈ gs.map Prod.fst
  · rwa [if_pos hk]
  · rw [if_neg hk]
    exact List.nodup_append.2 ⟨h, List.nodup_singleton k, fun a ha b hb hab =>
      hk (List.mem_singleton.1 hb ▸ hab ▸ ha)⟩

theorem total_add (k : κ) (v : M) (gs : List (κ × M)) :
    ((add k v gs).map Prod.snd).sum = (gs.map Prod.snd).sum + v := by
  induction gs with
  | nil => simp [add]
  | cons g gs ih =>
    rw [add]
    by_cases hg : g.1 = k
    · rw [if_pos hg, List.map_cons, List.sum_cons, List.map_cons, List.sum_cons, add_right_comm]
    · rw [if_neg hg, List.map_cons, List.sum_cons, ih, List.map_cons, List.sum_cons, add_assoc]

/-- The sum of the groups whose keys pass a test. -/
def sumWhere (p : κ → Bool) (gs : List (κ × M)) : M :=
  ((gs.filter fun g => p g.1).map Prod.snd).sum

theorem sumWhere_add (p : κ → Bool) (k : κ) (v : M) (gs : List (κ × M)) :
    sumWhere p (add k v gs) = sumWhere p gs + if p k then v else 0 := by
  induction gs with
  | nil =>
    by_cases hk : p k = true
    · simp [add, sumWhere, hk]
    · simp [add, sumWhere, hk]
  | cons g gs ih =>
    unfold sumWhere at ih ⊢
    rw [add]
    by_cases hg : g.1 = k
    · rw [if_pos hg]
      by_cases hk : p k = true
      · simp only [hg, hk, List.filter_cons, if_true, List.map_cons, List.sum_cons]
        rw [add_right_comm]
      · simp [hg, hk]
    · rw [if_neg hg]
      by_cases hp : p g.1 = true
      · simp only [List.filter_cons, hp, if_true, List.map_cons, List.sum_cons, ih]
        rw [add_assoc]
      · simp only [List.filter_cons, hp, Bool.false_eq_true, if_false, ih]

/-- Adding twice to one group. -/
theorem add_add (k : κ) (v w : M) (gs : List (κ × M)) :
    add k w (add k v gs) = add k (v + w) gs := by
  induction gs with
  | nil => simp [add]
  | cons g gs ih =>
    by_cases hg : g.1 = k
    · simp [add, hg, add_assoc]
    · simp [add, hg, ih]

/-- Adding to a group that exists can wait. -/
theorem add_comm_of_mem {k k' : κ} {v w : M} {gs : List (κ × M)} (h : k ∈ gs.map Prod.fst) :
    add k v (add k' w gs) = add k' w (add k v gs) := by
  induction gs with
  | nil => cases h
  | cons g gs ih =>
    by_cases hg : g.1 = k
    · by_cases hg' : g.1 = k'
      · obtain rfl := hg.symm.trans hg'
        simp [add, hg, add_right_comm]
      · have hne : ¬ k = k' := fun hk => hg' (hg.trans hk)
        simp [add, hg, hne]
    · have hmem : k ∈ gs.map Prod.fst := by
        rcases List.mem_cons.1 h with hk | hk
        · exact absurd hk.symm hg
        · exact hk
      by_cases hg' : g.1 = k'
      · have hne : ¬ k' = k := fun hk => hg (hg'.trans hk)
        simp [add, hg', hne]
      · simp [add, hg, hg', ih hmem]

/-! ## Whole lists -/

variable {key : α → κ} {value : α → M}

theorem group_concat (l : List α) (a : α) :
    group key value (l ++ [a]) = add (key a) (value a) (group key value l) := by
  simp [group, groupFrom]

/-- Grouping what a list is mapped to. -/
theorem group_map {β : Type*} (f : β → α) (l : List β) :
    group key value (l.map f) = group (fun b => key (f b)) (fun b => value (f b)) l := by
  rw [group, groupFrom, List.foldl_map]
  rfl

/-- Only the keys of the members matter. -/
theorem group_congr {key' : α → κ} {l : List α} (h : ∀ a ∈ l, key a = key' a) :
    group key value l = group key' value l := by
  induction l using List.reverseRecOn with
  | nil => rfl
  | append_singleton l a ih =>
    rw [group_concat, group_concat, h a (List.mem_append_right _ (List.mem_singleton_self a)),
      ih fun b hb => h b (List.mem_append_left _ hb)]

theorem nodup_group (l : List α) : ((group key value l).map Prod.fst).Nodup := by
  induction l using List.reverseRecOn with
  | nil => exact List.nodup_nil
  | append_singleton l a ih =>
    rw [group_concat]
    exact nodup_add ih

/-- Grouping keeps the total. -/
theorem total_group (l : List α) :
    ((group key value l).map Prod.snd).sum = (l.map value).sum := by
  induction l using List.reverseRecOn with
  | nil => rfl
  | append_singleton l a ih =>
    rw [group_concat, total_add, ih, List.map_append, List.sum_append, List.map_singleton,
      List.sum_singleton]

/-- Grouping keeps the sums over any set of keys. -/
theorem sumWhere_group (p : κ → Bool) (l : List α) :
    sumWhere p (group key value l) = ((l.filter fun a => p (key a)).map value).sum := by
  induction l using List.reverseRecOn with
  | nil => rfl
  | append_singleton l a ih =>
    rw [group_concat, sumWhere_add, ih, List.filter_append, List.map_append, List.sum_append]
    by_cases hk : p (key a) = true
    · simp [hk]
    · simp [hk]

/-- With distinct keys a group is all there is of its key. -/
theorem sumWhere_of_mem {gs : List (κ × M)} (hnodup : (gs.map Prod.fst).Nodup) {g : κ × M}
    (h : g ∈ gs) : sumWhere (fun k => k = g.1) gs = g.2 := by
  induction gs with
  | nil => cases h
  | cons x xs ih =>
    rw [List.map_cons, List.nodup_cons] at hnodup
    rcases List.mem_cons.1 h with rfl | h
    · have hnone : xs.filter (fun y => decide (y.1 = g.1)) = [] := by
        rw [List.filter_eq_nil_iff]
        intro y hy hyg
        exact hnodup.1 (of_decide_eq_true hyg ▸ List.mem_map_of_mem hy)
      simp [sumWhere, hnone]
    · have hne : ¬ x.1 = g.1 := fun hx => hnodup.1 (hx ▸ List.mem_map_of_mem h)
      have htail := ih hnodup.2 h
      simp only [sumWhere, List.filter_cons, hne, decide_false, Bool.false_eq_true, if_false] at htail ⊢
      exact htail

/-- Every group holds the sum of the values with its key. -/
theorem of_mem_group {l : List α} {g : κ × M} (h : g ∈ group key value l) :
    g.2 = ((l.filter fun a => key a = g.1).map value).sum := by
  rw [← sumWhere_of_mem (nodup_group l) h, sumWhere_group]

theorem mem_keys_group (key : α → κ) (value : α → M) {k : κ} {l : List α} :
    k ∈ (group key value l).map Prod.fst ↔ ∃ a ∈ l, key a = k := by
  induction l using List.reverseRecOn with
  | nil => simp [group, groupFrom]
  | append_singleton l a ih =>
    rw [group_concat, keys_add]
    by_cases hk : key a ∈ (group key value l).map Prod.fst
    · rw [if_pos hk, ih]
      constructor
      · intro hex
        obtain ⟨b, hb, hbk⟩ := hex
        exact ⟨b, List.mem_append_left _ hb, hbk⟩
      · intro hex
        obtain ⟨b, hb, hbk⟩ := hex
        rcases List.mem_append.1 hb with hb | hb
        · exact ⟨b, hb, hbk⟩
        · obtain rfl := List.mem_singleton.1 hb
          exact ih.1 (hbk ▸ hk)
    · rw [if_neg hk, List.mem_append, ih, List.mem_singleton]
      constructor
      · intro hor
        rcases hor with ⟨b, hb, hbk⟩ | rfl
        · exact ⟨b, List.mem_append_left _ hb, hbk⟩
        · exact ⟨a, List.mem_append_right _ (List.mem_singleton_self a), rfl⟩
      · intro hex
        obtain ⟨b, hb, hbk⟩ := hex
        rcases List.mem_append.1 hb with hb | hb
        · exact .inl ⟨b, hb, hbk⟩
        · obtain rfl := List.mem_singleton.1 hb
          exact .inr hbk.symm

/-- The keys depend on the keys of the list only. -/
theorem keys_group_congr {β N : Type*} [AddCommMonoid N] {key' : β → κ} (value : α → M)
    (value' : β → N) {l : List α} {l' : List β} (h : l.map key = l'.map key') :
    (group key value l).map Prod.fst = (group key' value' l').map Prod.fst := by
  induction l using List.reverseRecOn generalizing l' with
  | nil =>
    obtain rfl : l' = [] := List.map_eq_nil_iff.1 h.symm
    rfl
  | append_singleton l a ih =>
    induction l' using List.reverseRecOn with
    | nil => simp at h
    | append_singleton l' b _ =>
      rw [List.map_append, List.map_append, List.map_singleton, List.map_singleton] at h
      obtain ⟨hinit, hlast⟩ := List.append_inj' h rfl
      have hkey : key a = key' b := List.singleton_inj.1 hlast
      rw [group_concat, group_concat, keys_add, keys_add, ih hinit, hkey]

/-- Grouping groups by a coarser key, after a value was added to one of them. -/
theorem groupFrom_add (coarse : κ → κ') (k : κ) (v : M) (gs : List (κ × M))
    (acc : List (κ' × M)) :
    groupFrom (fun g : κ × M => coarse g.1) Prod.snd acc (add k v gs) =
      add (coarse k) v (groupFrom (fun g : κ × M => coarse g.1) Prod.snd acc gs) := by
  -- A group that exists may be added to before or after the rest.
  have hlater : ∀ (gs : List (κ × M)) (acc : List (κ' × M)), coarse k ∈ acc.map Prod.fst →
      groupFrom (fun g : κ × M => coarse g.1) Prod.snd (add (coarse k) v acc) gs =
        add (coarse k) v (groupFrom (fun g : κ × M => coarse g.1) Prod.snd acc gs) := by
    intro gs
    induction gs with
    | nil => exact fun acc _ => rfl
    | cons g gs ih =>
      intro acc hmem
      have hmem' : coarse k ∈ (add (coarse g.1) g.2 acc).map Prod.fst := by
        rw [keys_add]
        by_cases hg : coarse g.1 ∈ acc.map Prod.fst
        · rwa [if_pos hg]
        · rw [if_neg hg]
          exact List.mem_append_left _ hmem
      have htail := ih (add (coarse g.1) g.2 acc) hmem'
      simp only [groupFrom, List.foldl_cons] at htail ⊢
      rw [← htail, add_comm_of_mem hmem]
  induction gs generalizing acc with
  | nil => simp [add, groupFrom]
  | cons g gs ih =>
    by_cases hg : g.1 = k
    · have hmem := mem_keys_add (coarse k) g.2 acc
      have hrest := hlater gs (add (coarse k) g.2 acc) hmem
      simp only [add, hg, if_true, groupFrom, List.foldl_cons] at hrest ⊢
      rw [← hrest, add_add]
    · have hrest := ih (add (coarse g.1) g.2 acc)
      simp only [add, hg, if_false, groupFrom, List.foldl_cons] at hrest ⊢
      exact hrest

/-- Grouping the groups is grouping by the coarser key. -/
theorem group_group (key : α → κ) (value : α → M) (coarse : κ → κ') (l : List α) :
    group (fun g : κ × M => coarse g.1) Prod.snd (group key value l) =
      group (fun a => coarse (key a)) value l := by
  induction l using List.reverseRecOn with
  | nil => rfl
  | append_singleton l a ih =>
    rw [group_concat, group_concat, ← ih]
    exact groupFrom_add coarse (key a) (value a) (group key value l) []

end Bifurcation.Grouping
