import Bifurcation.Lib.Javascript

/-!
# Reading a text without its numbers

A `Runtime` leaves open what a number is, and `JSON.parse` does not look at one. So a text can be
read with its literals kept as they stand, and the numbers put in afterwards (`parse_map`). For a
fixed text the first part is a computation, and the second holds for every engine.
-/

namespace Bifurcation.Javascript

variable {M N : Type}

/-! ## Putting numbers in -/

mutual

def mapNumbers (f : M → N) : JsValue M → JsValue N
  | .null => .null
  | .bool b => .bool b
  | .num n => .num (f n)
  | .str s => .str s
  | .arr items => .arr (mapItems f items)
  | .obj members => .obj (mapMembers f members)
termination_by structural v => v

def mapItems (f : M → N) : List (JsValue M) → List (JsValue N)
  | [] => []
  | v :: vs => mapNumbers f v :: mapItems f vs
termination_by structural vs => vs

def mapMember (f : M → N) : JsString × JsValue M → JsString × JsValue N
  | (k, v) => (k, mapNumbers f v)
termination_by structural m => m

def mapMembers (f : M → N) : List (JsString × JsValue M) → List (JsString × JsValue N)
  | [] => []
  | m :: ms => mapMember f m :: mapMembers f ms
termination_by structural ms => ms

end

theorem mapMembers_set (f : M → N) (key : JsString) (value : JsValue M) (ms : Members M) :
    mapMembers f (set key value ms) = set key (mapNumbers f value) (mapMembers f ms) := by
  induction ms with
  | nil => rfl
  | cons m ms ih =>
    obtain ⟨k, v⟩ := m
    simp only [set, mapMembers, mapMember]
    split_ifs
    · rfl
    · rfl
    · rw [mapMembers, ih]
      rfl

section Parse

variable {js : Runtime M} {js' : Runtime N} {f : M → N}

/-- What holds of the three readers at one depth. -/
structure ReadsAlike (js : Runtime M) (js' : Runtime N) (f : M → N) (n : ℕ) : Prop where
  value : ∀ s, parseValue js' n s =
    (parseValue js n s).map fun p => (mapNumbers f p.1, p.2)
  items : ∀ s, parseItems js' n s = (parseItems js n s).map fun p => (mapItems f p.1, p.2)
  members : ∀ ms s, parseMembers js' n (mapMembers f ms) s =
    (parseMembers js n ms s).map fun p => (mapMembers f p.1, p.2)

theorem ReadsAlike.succ_value {n : ℕ} (hnum : ∀ s, f (js.ofLiteral s) = js'.ofLiteral s)
    (h : ReadsAlike js js' f n) (s : JsString) :
    parseValue js' (n + 1) s =
      (parseValue js (n + 1) s).map fun p => (mapNumbers f p.1, p.2) := by
  have hmembers : ∀ s, (parseMembers js' n [] s).map (fun p => (JsValue.obj p.1, p.2)) =
      ((parseMembers js n [] s).map fun p => (JsValue.obj p.1, p.2)).map
        fun p => (mapNumbers f p.1, p.2) := by
    intro s
    have := h.members [] s
    rw [mapMembers] at this
    rw [this, Option.map_map, Option.map_map]
    rfl
  have hitems : ∀ s, (parseItems js' n s).map (fun p => (JsValue.arr p.1, p.2)) =
      ((parseItems js n s).map fun p => (JsValue.arr p.1, p.2)).map
        fun p => (mapNumbers f p.1, p.2) := by
    intro s
    rw [h.items, Option.map_map, Option.map_map]
    rfl
  unfold parseValue
  cases skipSpace s with
  | nil => rfl
  | cons u rest =>
    dsimp only
    by_cases h₁ : u = 0x7b
    · rw [if_pos h₁, if_pos h₁]
      split
      · rfl
      · exact hmembers _
    by_cases h₂ : u = 0x5b
    · rw [if_neg h₁, if_neg h₁, if_pos h₂, if_pos h₂]
      split
      · rfl
      · exact hitems _
    rw [if_neg h₁, if_neg h₁, if_neg h₂, if_neg h₂]
    split_ifs
    · rw [Option.map_map]; rfl
    · rw [Option.map_map]; rfl
    · rw [Option.map_map]; rfl
    · rw [Option.map_map]; rfl
    · rw [Option.map_some, mapNumbers, hnum]
    · rfl

theorem ReadsAlike.succ_items {n : ℕ} (h : ReadsAlike js js' f n) (s : JsString) :
    parseItems js' (n + 1) s =
      (parseItems js (n + 1) s).map fun p => (mapItems f p.1, p.2) := by
  simp only [parseItems, h.value]
  cases parseValue js n s with
  | none => rfl
  | some p =>
    simp only [Option.map_some, Option.bind_eq_bind, Option.bind_some]
    split
    next rest _ =>
      rw [h.items]
      cases parseItems js n rest <;> rfl
    · rfl
    · rfl

theorem ReadsAlike.succ_members {n : ℕ} (h : ReadsAlike js js' f n) (ms : Members M)
    (s : JsString) :
    parseMembers js' (n + 1) (mapMembers f ms) s =
      (parseMembers js (n + 1) ms s).map fun p => (mapMembers f p.1, p.2) := by
  simp only [parseMembers]
  split
  next rest _ =>
    cases parseUnits rest with
    | none => rfl
    | some p =>
      obtain ⟨key, rest⟩ := p
      simp only [Option.bind_eq_bind, Option.bind_some]
      split
      next rest _ =>
        rw [h.value]
        cases parseValue js n rest with
        | none => rfl
        | some p =>
          obtain ⟨v, rest⟩ := p
          simp only [Option.map_some, Option.bind_some, ← mapMembers_set]
          split
          · exact h.members _ _
          · rfl
          · rfl
      · rfl
  · rfl

theorem readsAlike (hnum : ∀ s, f (js.ofLiteral s) = js'.ofLiteral s) (n : ℕ) :
    ReadsAlike js js' f n := by
  induction n with
  | zero => exact ⟨fun _ => rfl, fun _ => rfl, fun _ _ => rfl⟩
  | succ n ih => exact ⟨ih.succ_value hnum, ih.succ_items, ih.succ_members⟩

/-- Two engines read a text alike, but for the numbers. -/
theorem parse_map (hnum : ∀ s, f (js.ofLiteral s) = js'.ofLiteral s) (s : JsString) :
    parse js' s = (parse js s).map (mapNumbers f) := by
  unfold parse
  rw [(readsAlike hnum _).value]
  cases parseValue js (2 * s.length + 2) s with
  | none => rfl
  | some p =>
    obtain ⟨v, rest⟩ := p
    simp only [Option.map_some]
    split_ifs <;> rfl

end Parse

/-- An engine that keeps a literal as it stands. -/
def literals : Runtime JsString where
  ofLiteral s := s
  ofNat n := decimal n
  numberText s := s
  numberJson s := s
  localeLE _ _ := true
  callDepth _ := 4096
  leastDepth _ := by decide

/-- A text is read with its literals, and each literal is then given its number. -/
theorem parse_eq_map_literals (js : Runtime N) (s : JsString) :
    parse js s = (parse literals s).map (mapNumbers js.ofLiteral) := parse_map (fun _ => rfl) s

/-! ## Comparing values -/

section Compare

variable [DecidableEq N]

mutual

def same : JsValue N → JsValue N → Bool
  | .null, .null => true
  | .bool a, .bool b => a = b
  | .num a, .num b => a = b
  | .str a, .str b => a = b
  | .arr a, .arr b => sameItems a b
  | .obj a, .obj b => sameMembers a b
  | _, _ => false
termination_by structural v => v

def sameItems : List (JsValue N) → List (JsValue N) → Bool
  | [], [] => true
  | a :: as, b :: bs => same a b && sameItems as bs
  | _, _ => false
termination_by structural vs => vs

def sameMember : JsString × JsValue N → JsString × JsValue N → Bool
  | (k, a), (k', b) => k = k' && same a b
termination_by structural m => m

def sameMembers : List (JsString × JsValue N) → List (JsString × JsValue N) → Bool
  | [], [] => true
  | a :: as, b :: bs => sameMember a b && sameMembers as bs
  | _, _ => false
termination_by structural ms => ms

end

mutual

theorem eq_of_same : (a b : JsValue N) → same a b = true → a = b
  | .null, b, h => by cases b <;> simp_all [same]
  | .bool _, b, h => by cases b <;> simp_all [same]
  | .num _, b, h => by cases b <;> simp_all [same]
  | .str _, b, h => by cases b <;> simp_all [same]
  | .arr items, b, h => by
    cases b <;> simp only [same, Bool.false_eq_true] at h
    rw [eq_of_sameItems items _ h]
  | .obj members, b, h => by
    cases b <;> simp only [same, Bool.false_eq_true] at h
    rw [eq_of_sameMembers members _ h]

theorem eq_of_sameItems : (as bs : List (JsValue N)) → sameItems as bs = true → as = bs
  | [], bs, h => by cases bs <;> simp_all [sameItems]
  | a :: as, bs, h => by
    cases bs with
    | nil => simp [sameItems] at h
    | cons b bs =>
      rw [sameItems, Bool.and_eq_true] at h
      rw [eq_of_same a b h.1, eq_of_sameItems as bs h.2]

theorem eq_of_sameMembers :
    (as bs : List (JsString × JsValue N)) → sameMembers as bs = true → as = bs
  | [], bs, h => by cases bs <;> simp_all [sameMembers]
  | (k, a) :: as, bs, h => by
    cases bs with
    | nil => simp [sameMembers] at h
    | cons b bs =>
      obtain ⟨k', b⟩ := b
      rw [sameMembers, sameMember, Bool.and_eq_true, Bool.and_eq_true] at h
      rw [of_decide_eq_true h.1.1, eq_of_same a b h.1.2, eq_of_sameMembers as bs h.2]

end

end Compare

/-- What a fixed text is read as, for every engine. -/
theorem parse_of_literals (js : Runtime N) {s : JsString} {v : JsValue JsString}
    (h : (parse literals s).any (same v) = true) :
    parse js s = some (mapNumbers js.ofLiteral v) := by
  rw [parse_eq_map_literals]
  cases hv : parse literals s with
  | none => simp [hv] at h
  | some v' =>
    rw [hv, Option.any_some] at h
    rw [Option.map_some, eq_of_same v v' h]

end Bifurcation.Javascript
