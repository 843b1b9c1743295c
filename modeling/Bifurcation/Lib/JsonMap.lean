import Bifurcation.Lib.JsonRoundTrip

/-!
# Objects as maps

The trees a reader builds when it reads objects into maps: the members of every object are
sorted by name, each name once. `normalize` builds such a tree from any tree, and they are closed
under assignment.
-/

namespace Bifurcation.Json

/-- The value under a name. -/
def lookup (k : String) (ms : List (String × Json)) : Option Json :=
  (ms.find? fun m => m.1 = k).map Prod.snd

/-- `m[k] = v` on a map. -/
def setMember (k : String) (v : Json) : List (String × Json) → List (String × Json)
  | [] => [(k, v)]
  | m :: ms =>
    if k < m.1 then (k, v) :: m :: ms
    else if k = m.1 then (k, v) :: ms
    else m :: setMember k v ms

/-- Put a member in front of those read after it: a later one of its name wins. -/
def addMember (m : String × Json) (ms : List (String × Json)) : List (String × Json) :=
  if m.1 ∈ ms.map Prod.fst then ms else setMember m.1 m.2 ms

mutual

def normalize : Json → Json
  | null => null
  | bool b => bool b
  | num literal => num literal
  | str s => str s
  | arr items => arr (normalizeItems items)
  | obj members => obj (normalizeMembers members)
termination_by structural j => j

def normalizeItems : List Json → List Json
  | [] => []
  | v :: vs => normalize v :: normalizeItems vs
termination_by structural l => l

def normalizeMember : String × Json → String × Json
  | (k, v) => (k, normalize v)
termination_by structural m => m

def normalizeMembers : List (String × Json) → List (String × Json)
  | [] => []
  | m :: ms => addMember (normalizeMember m) (normalizeMembers ms)
termination_by structural l => l

end

/-- The members are sorted by name, each name once. -/
def Sorted (ms : List (String × Json)) : Prop := (ms.map Prod.fst).Pairwise (· < ·)

mutual

/-- Every object of the tree is a map. -/
def Normal : Json → Prop
  | null => True
  | bool _ => True
  | num _ => True
  | str _ => True
  | arr items => NormalItems items
  | obj members => Sorted members ∧ NormalMembers members
termination_by structural j => j

def NormalItems : List Json → Prop
  | [] => True
  | v :: vs => Normal v ∧ NormalItems vs
termination_by structural l => l

def NormalMember : String × Json → Prop
  | (_, v) => Normal v
termination_by structural m => m

def NormalMembers : List (String × Json) → Prop
  | [] => True
  | m :: ms => NormalMember m ∧ NormalMembers ms
termination_by structural l => l

end

theorem normalItems_iff {items : List Json} : NormalItems items ↔ ∀ v ∈ items, Normal v := by
  induction items with
  | nil => simp [NormalItems]
  | cons v vs ih => simp [NormalItems, ih]

theorem normalMembers_iff {ms : List (String × Json)} :
    NormalMembers ms ↔ ∀ m ∈ ms, Normal m.2 := by
  induction ms with
  | nil => simp [NormalMembers]
  | cons m ms ih => obtain ⟨k, v⟩ := m; simp [NormalMembers, NormalMember, ih]

/-! ## Assignment -/

theorem mem_setMember {k : String} {v : Json} {ms : List (String × Json)} {m : String × Json}
    (h : m ∈ setMember k v ms) : m = (k, v) ∨ m ∈ ms := by
  induction ms with
  | nil => exact .inl (by simpa [setMember] using h)
  | cons m' ms ih =>
    unfold setMember at h
    split_ifs at h
    · rcases List.mem_cons.1 h with h | h
      · exact .inl h
      · exact .inr h
    · rcases List.mem_cons.1 h with h | h
      · exact .inl h
      · exact .inr (List.mem_cons_of_mem m' h)
    · rcases List.mem_cons.1 h with h | h
      · exact .inr (h ▸ List.mem_cons_self)
      · exact (ih h).imp_right (List.mem_cons_of_mem m')

theorem Sorted.setMember {ms : List (String × Json)} (h : Sorted ms) (k : String) (v : Json) :
    Sorted (setMember k v ms) := by
  induction ms with
  | nil => simp [Sorted, Json.setMember]
  | cons m ms ih =>
    simp only [Sorted, List.map_cons, List.pairwise_cons] at h
    obtain ⟨hm, hms⟩ := h
    unfold Json.setMember
    split_ifs with hlt heq
    · simp only [Sorted, List.map_cons, List.pairwise_cons, List.mem_cons, forall_eq_or_imp]
      exact ⟨⟨hlt, fun x hx => lt_trans hlt (hm x hx)⟩, hm, hms⟩
    · simp only [Sorted, List.map_cons, List.pairwise_cons]
      exact ⟨heq ▸ hm, hms⟩
    · have hgt : m.1 < k := lt_of_le_of_ne (not_lt.1 hlt) (Ne.symm heq)
      simp only [Sorted, List.map_cons, List.pairwise_cons]
      refine ⟨fun x hx => ?_, ih hms⟩
      obtain ⟨y, hy, rfl⟩ := List.mem_map.1 hx
      rcases mem_setMember hy with rfl | hy
      · exact hgt
      · exact hm y.1 (List.mem_map_of_mem hy)

theorem lookup_cons (k : String) (m : String × Json) (ms : List (String × Json)) :
    lookup k (m :: ms) = if m.1 = k then some m.2 else lookup k ms := by
  by_cases h : m.1 = k <;> simp [lookup, h]

theorem lookup_setMember (ms : List (String × Json)) (k k' : String) (v : Json) :
    lookup k' (setMember k v ms) = if k = k' then some v else lookup k' ms := by
  induction ms with
  | nil => simp [setMember, lookup_cons]
  | cons m ms ih =>
    unfold setMember
    by_cases hlt : k < m.1
    · rw [if_pos hlt, lookup_cons]
    · by_cases heq : k = m.1
      · rw [if_neg hlt, if_pos heq, lookup_cons, lookup_cons, ← heq]
        by_cases hk : k = k' <;> simp [hk]
      · rw [if_neg hlt, if_neg heq, lookup_cons, ih, lookup_cons]
        by_cases hm : m.1 = k'
        · rw [if_pos hm, if_pos hm, if_neg fun hk => heq (hk.trans hm.symm)]
        · rw [if_neg hm, if_neg hm]

/-- The last assignment to a name counts. -/
theorem setMember_setMember (k : String) (v w : Json) (ms : List (String × Json)) :
    setMember k w (setMember k v ms) = setMember k w ms := by
  induction ms with
  | nil => simp [setMember]
  | cons m ms ih =>
    by_cases hlt : k < m.1
    · simp [setMember, hlt]
    · by_cases heq : k = m.1
      · simp [setMember, ← heq]
      · simp [setMember, hlt, heq, ih]

theorem NormalMembers.setMember {ms : List (String × Json)} (h : NormalMembers ms) {v : Json}
    (hv : Normal v) (k : String) : NormalMembers (setMember k v ms) := by
  rw [normalMembers_iff] at h ⊢
  intro m hm
  rcases mem_setMember hm with rfl | hm
  · exact hv
  · exact h m hm

theorem WFMembers.setMember {ms : List (String × Json)} (h : WFMembers ms) {v : Json}
    (hv : WF v) (k : String) : WFMembers (setMember k v ms) := by
  rw [wfMembers_iff] at h ⊢
  intro m hm
  rcases mem_setMember hm with rfl | hm
  · exact hv
  · exact h m hm

theorem mem_of_lookup {k : String} {v : Json} {ms : List (String × Json)}
    (h : lookup k ms = some v) : (k, v) ∈ ms := by
  obtain ⟨m, hm, rfl⟩ := Option.map_eq_some_iff.1 h
  have hk : m.1 = k := by simpa using List.find?_some hm
  exact hk ▸ List.mem_of_find?_eq_some hm

/-! ## Reading into maps -/

theorem addMember_cases (m : String × Json) (ms : List (String × Json)) :
    addMember m ms = ms ∨ addMember m ms = setMember m.1 m.2 ms := by
  unfold addMember
  split_ifs
  · exact .inl rfl
  · exact .inr rfl

mutual

theorem normal_normalize : ∀ j : Json, Normal (normalize j)
  | .null => trivial
  | .bool _ => trivial
  | .num _ => trivial
  | .str _ => trivial
  | .arr items => normalItems_normalize items
  | .obj members => ⟨sorted_normalizeMembers members, normalMembers_normalize members⟩

theorem normalItems_normalize : ∀ vs : List Json, NormalItems (normalizeItems vs)
  | [] => trivial
  | v :: vs => ⟨normal_normalize v, normalItems_normalize vs⟩

theorem normalMembers_normalize : ∀ ms : List (String × Json), NormalMembers (normalizeMembers ms)
  | [] => trivial
  | (k, v) :: ms => by
    have hv := normal_normalize v
    have hms := normalMembers_normalize ms
    rcases addMember_cases (k, normalize v) (normalizeMembers ms) with h | h
    · rw [normalizeMembers, normalizeMember, h]; exact hms
    · rw [normalizeMembers, normalizeMember, h]; exact hms.setMember hv k

theorem sorted_normalizeMembers : ∀ ms : List (String × Json), Sorted (normalizeMembers ms)
  | [] => List.Pairwise.nil
  | (k, v) :: ms => by
    have hms := sorted_normalizeMembers ms
    rcases addMember_cases (k, normalize v) (normalizeMembers ms) with h | h
    · rw [normalizeMembers, normalizeMember, h]; exact hms
    · rw [normalizeMembers, normalizeMember, h]; exact hms.setMember k (normalize v)

end

mutual

theorem wf_normalize : ∀ j : Json, WF j → WF (normalize j)
  | .null, _ => trivial
  | .bool _, _ => trivial
  | .num _, h => h
  | .str _, _ => trivial
  | .arr items, h => wfItems_normalize items h
  | .obj members, h => wfMembers_normalize members h

theorem wfItems_normalize : ∀ vs : List Json, WFItems vs → WFItems (normalizeItems vs)
  | [], _ => trivial
  | v :: vs, h => ⟨wf_normalize v h.1, wfItems_normalize vs h.2⟩

theorem wfMembers_normalize : ∀ ms : List (String × Json), WFMembers ms →
    WFMembers (normalizeMembers ms)
  | [], _ => trivial
  | (k, v) :: ms, h => by
    have hv := wf_normalize v h.1
    have hms := wfMembers_normalize ms h.2
    rcases addMember_cases (k, normalize v) (normalizeMembers ms) with h' | h'
    · rw [normalizeMembers, normalizeMember, h']; exact hms
    · rw [normalizeMembers, normalizeMember, h']; exact hms.setMember hv k

end

/-- A member whose name comes first is put in front. -/
theorem addMember_of_lt {m : String × Json} {ms : List (String × Json)}
    (h : ∀ x ∈ ms.map Prod.fst, m.1 < x) : addMember m ms = m :: ms := by
  have hnot : m.1 ∉ ms.map Prod.fst := fun hm => lt_irrefl _ (h m.1 hm)
  rw [addMember, if_neg hnot]
  cases ms with
  | nil => rfl
  | cons m' ms => rw [setMember, if_pos (h m'.1 (by simp))]

mutual

theorem normalize_of_normal : ∀ j : Json, Normal j → normalize j = j
  | .null, _ => rfl
  | .bool _, _ => rfl
  | .num _, _ => rfl
  | .str _, _ => rfl
  | .arr items, h => by rw [normalize, normalizeItems_of_normal items h]
  | .obj members, h => by rw [normalize, normalizeMembers_of_normal members h.2 h.1]

theorem normalizeItems_of_normal : ∀ vs : List Json, NormalItems vs → normalizeItems vs = vs
  | [], _ => rfl
  | v :: vs, h => by
    rw [normalizeItems, normalize_of_normal v h.1, normalizeItems_of_normal vs h.2]

theorem normalizeMembers_of_normal : ∀ ms : List (String × Json), NormalMembers ms → Sorted ms →
    normalizeMembers ms = ms
  | [], _, _ => rfl
  | (k, v) :: ms, h, hs => by
    have hs' : (∀ x ∈ ms.map Prod.fst, k < x) ∧ Sorted ms := List.pairwise_cons.1 hs
    rw [normalizeMembers, normalizeMember, normalize_of_normal v h.1,
      normalizeMembers_of_normal ms h.2 hs'.2, addMember_of_lt hs'.1]

end

/-! ## What the reader builds is well formed -/

theorem wf_of_parse_num {s : List Char} (h : validNumber (s.takeWhile isNumChar) = true) :
    WF (num (String.ofList (s.takeWhile isNumChar))) := by
  refine ⟨by simpa using h, fun c hc => ?_⟩
  rw [String.toList_ofList] at hc
  exact List.mem_takeWhile_imp hc

theorem wf_parse (n : ℕ) :
    (∀ s j rest, parseValue n s = some (j, rest) → WF j) ∧
    (∀ s vs rest, parseItems n s = some (vs, rest) → WFItems vs) ∧
    (∀ s ms rest, parseMembers n s = some (ms, rest) → WFMembers ms) := by
  induction n with
  | zero => exact ⟨by simp [parseValue], by simp [parseItems], by simp [parseMembers]⟩
  | succ n ih =>
    obtain ⟨hvalue, hitems, hmembers⟩ := ih
    refine ⟨fun s j rest h => ?_, fun s vs rest h => ?_, fun s ms rest h => ?_⟩
    · unfold parseValue at h
      split at h
      · cases h
      · split_ifs at h
        · split at h
          · cases h; trivial
          · obtain ⟨p, hp, heq⟩ := Option.map_eq_some_iff.1 h
            cases heq; exact hmembers _ _ _ hp
        · split at h
          · cases h; trivial
          · obtain ⟨p, hp, heq⟩ := Option.map_eq_some_iff.1 h
            cases heq; exact hitems _ _ _ hp
        · obtain ⟨p, hp, heq⟩ := Option.map_eq_some_iff.1 h
          cases heq; trivial
        · obtain ⟨p, hp, heq⟩ := Option.map_eq_some_iff.1 h
          cases heq; trivial
        · obtain ⟨p, hp, heq⟩ := Option.map_eq_some_iff.1 h
          cases heq; trivial
        · obtain ⟨p, hp, heq⟩ := Option.map_eq_some_iff.1 h
          cases heq; trivial
        · next hnum => cases h; exact wf_of_parse_num hnum
    · simp only [parseItems, Option.bind_eq_bind, Option.bind_eq_some_iff] at h
      obtain ⟨⟨v, s'⟩, hv, h⟩ := h
      split at h
      · obtain ⟨⟨vs', s''⟩, hvs, heq⟩ := Option.bind_eq_some_iff.1 h
        cases heq
        exact ⟨hvalue _ _ _ hv, hitems _ _ _ hvs⟩
      · cases h; exact ⟨hvalue _ _ _ hv, trivial⟩
      · cases h
    · unfold parseMembers at h
      split at h
      · simp only [Option.bind_eq_bind, Option.bind_eq_some_iff] at h
        obtain ⟨⟨k, s'⟩, -, h⟩ := h
        split at h
        · obtain ⟨⟨v, s''⟩, hv, h⟩ := Option.bind_eq_some_iff.1 h
          split at h
          · obtain ⟨⟨ms', s₃⟩, hms, heq⟩ := Option.bind_eq_some_iff.1 h
            cases heq
            exact ⟨hvalue _ _ _ hv, hmembers _ _ _ hms⟩
          · cases h; exact ⟨hvalue _ _ _ hv, trivial⟩
          · cases h
        · cases h
      · cases h

theorem wf_of_parse {data : Bytes} {j : Json} (h : parse data = some j) : WF j := by
  have htext := (Option.filter_eq_some_iff.1 h).1
  simp only [parseText] at htext
  split at htext
  · next v rest hv =>
    split_ifs at htext
    cases htext
    exact (wf_parse _).1 _ _ _ hv
  · cases htext

/-! ## Nesting -/

theorem depth_of_parse {data : Bytes} {j : Json} (h : parse data = some j) :
    j.depth ≤ maxNesting :=
  of_decide_eq_true (Option.filter_eq_some_iff.1 h).2

theorem depthItems_le {items : List Json} {n : ℕ} :
    depthItems items ≤ n ↔ ∀ v ∈ items, v.depth ≤ n := by
  induction items with
  | nil => simp [depthItems]
  | cons v vs ih => simp [depthItems, ih]

theorem depthMembers_le {ms : List (String × Json)} {n : ℕ} :
    depthMembers ms ≤ n ↔ ∀ m ∈ ms, m.2.depth ≤ n := by
  induction ms with
  | nil => simp [depthMembers]
  | cons m ms ih =>
    obtain ⟨k, v⟩ := m
    simp [depthMembers, depthMember, ih]

theorem depth_setMember {ms : List (String × Json)} {k : String} {v : Json} {n : ℕ}
    (hms : depthMembers ms ≤ n) (hv : v.depth ≤ n) : depthMembers (setMember k v ms) ≤ n := by
  rw [depthMembers_le] at hms ⊢
  intro m hm
  rcases mem_setMember hm with rfl | hm
  · exact hv
  · exact hms m hm

mutual

/-- Reading into maps does not nest deeper. -/
theorem depth_normalize : ∀ j : Json, (normalize j).depth ≤ j.depth
  | .null => le_rfl
  | .bool _ => le_rfl
  | .num _ => le_rfl
  | .str _ => le_rfl
  | .arr items => Nat.succ_le_succ (depthItems_normalize items)
  | .obj members => Nat.succ_le_succ (depthMembers_normalize members)

theorem depthItems_normalize : ∀ vs : List Json, depthItems (normalizeItems vs) ≤ depthItems vs
  | [] => le_rfl
  | v :: vs => max_le_max (depth_normalize v) (depthItems_normalize vs)

theorem depthMembers_normalize : ∀ ms : List (String × Json),
    depthMembers (normalizeMembers ms) ≤ depthMembers ms
  | [] => le_rfl
  | (k, v) :: ms => by
    have hv := depth_normalize v
    have hms := depthMembers_normalize ms
    have hmax : depthMembers ((k, v) :: ms) = max v.depth (depthMembers ms) := rfl
    rw [normalizeMembers, normalizeMember, hmax]
    rcases addMember_cases (k, normalize v) (normalizeMembers ms) with h | h
    · rw [h]
      exact hms.trans (le_max_right _ _)
    · rw [h]
      exact depth_setMember (hms.trans (le_max_right _ _)) (hv.trans (le_max_left _ _))

end

/-! ## Looking names up -/

theorem lookup_isSome_iff {k : String} {ms : List (String × Json)} :
    (lookup k ms).isSome ↔ k ∈ ms.map Prod.fst := by
  rw [lookup, Option.isSome_map, List.find?_isSome, List.mem_map]
  simp

theorem mem_keys_addMember {k : String} {m : String × Json} {ms : List (String × Json)} :
    k ∈ (addMember m ms).map Prod.fst ↔ k = m.1 ∨ k ∈ ms.map Prod.fst := by
  unfold addMember
  split_ifs with hmem
  · constructor
    · exact .inr
    · rintro (rfl | h)
      · exact hmem
      · exact h
  · rw [← lookup_isSome_iff, lookup_setMember, ← lookup_isSome_iff]
    split_ifs with hk
    · simp [hk]
    · simp [Ne.symm hk]

/-- Reading into a map keeps the names. -/
theorem mem_keys_normalizeMembers {k : String} {ms : List (String × Json)} :
    k ∈ (normalizeMembers ms).map Prod.fst ↔ k ∈ ms.map Prod.fst := by
  induction ms with
  | nil => rfl
  | cons m ms ih =>
    obtain ⟨k', v⟩ := m
    rw [normalizeMembers, mem_keys_addMember, ih, List.map_cons, List.mem_cons, normalizeMember]

theorem mem_normalizeMembers {m : String × Json} {ms : List (String × Json)}
    (h : m ∈ normalizeMembers ms) : ∃ m' ∈ ms, m = (m'.1, normalize m'.2) := by
  induction ms with
  | nil => exact absurd h List.not_mem_nil
  | cons m' ms ih =>
    obtain ⟨k', v⟩ := m'
    have hrest : m ∈ normalizeMembers ms → ∃ m' ∈ (k', v) :: ms, m = (m'.1, normalize m'.2) := by
      intro hmem
      obtain ⟨m', hm', heq⟩ := ih hmem
      exact ⟨m', List.mem_cons_of_mem _ hm', heq⟩
    rw [normalizeMembers, normalizeMember] at h
    rcases addMember_cases (k', normalize v) (normalizeMembers ms) with heq | heq
    · rw [heq] at h
      exact hrest h
    · rw [heq] at h
      rcases mem_setMember h with rfl | h
      · exact ⟨_, List.mem_cons_self, rfl⟩
      · exact hrest h

/-- What an object is read to hold under a name is the value of a member of that name. -/
theorem exists_of_lookup_normalizeMembers {k : String} {v : Json} {ms : List (String × Json)}
    (h : lookup k (normalizeMembers ms) = some v) : ∃ m ∈ ms, m.1 = k ∧ v = normalize m.2 := by
  obtain ⟨m, hm, heq⟩ := mem_normalizeMembers (mem_of_lookup h)
  exact ⟨m, hm, (congrArg Prod.fst heq).symm, congrArg Prod.snd heq⟩

/-- A name whose members hold one value is read to hold it. -/
theorem lookup_normalizeMembers {k : String} {v : Json} {ms : List (String × Json)}
    (hmem : k ∈ ms.map Prod.fst) (hall : ∀ m ∈ ms, m.1 = k → m.2 = v) :
    lookup k (normalizeMembers ms) = some (normalize v) := by
  obtain ⟨w, hw⟩ := Option.isSome_iff_exists.1
    (lookup_isSome_iff.2 (mem_keys_normalizeMembers.2 hmem))
  obtain ⟨m, hm, hk, rfl⟩ := exists_of_lookup_normalizeMembers hw
  rw [hw, hall m hm hk]

/-- A name that no member has is not found. -/
theorem lookup_normalizeMembers_eq_none {k : String} {ms : List (String × Json)}
    (h : ∀ m ∈ ms, m.1 ≠ k) : lookup k (normalizeMembers ms) = none := by
  cases hlookup : lookup k (normalizeMembers ms) with
  | none => rfl
  | some v =>
    obtain ⟨m, hm, hk, -⟩ := exists_of_lookup_normalizeMembers hlookup
    exact absurd hk (h m hm)

/-- An assignment of the value that is there changes nothing. -/
theorem setMember_lookup {k : String} {v : Json} {ms : List (String × Json)} (hs : Sorted ms)
    (h : lookup k ms = some v) : setMember k v ms = ms := by
  induction ms with
  | nil => cases h
  | cons m ms ih =>
    rw [lookup_cons] at h
    simp only [Sorted, List.map_cons, List.pairwise_cons] at hs
    unfold setMember
    split_ifs at h with hk
    · rw [if_neg (by rw [hk]; exact lt_irrefl k), if_pos hk.symm, ← Option.some.inj h, ← hk]
    · have hgt : m.1 < k := hs.1 k (List.mem_map_of_mem (mem_of_lookup h))
      rw [if_neg (lt_asymm hgt), if_neg (Ne.symm hk), ih hs.2 h]

end Bifurcation.Json
