import Bifurcation.Lib.Outcome

/-!
# Depth-first search over named references

A document whose entries refer to each other by name is a finite graph in which a reference may
name nothing. `visit` is the usual recursive search for a cycle: it keeps the names on the current
path and those it is done with, and stops at the first fault it meets. `collect` gathers the
marked names that can be reached from one name, keeping what it found for every name it passed.
Both are recursive functions on a call stack with room for so many calls and no more.

A name is *clean* when every path from it ends, and ends without a fault. Which fault stops the
search is settled by following from each name the first reference that is not clean: this ends at
a reference that names nothing (`Dangles`), or it runs in a circle. Whether the search runs out of
room before that is a matter of the order of the references (`Overruns`): a name searched before
costs one call, however long the paths from it are.

Main results: `visitNames_spec`, what the search returns in every case, and `collect_spec`, what
the second walk returns on a clean name.
-/

namespace Bifurcation.DepthFirst

/-- The references of each entry, in order. A name without an entry has none, and a reference
that is no name at all is `none`. -/
abbrev Graph (α : Type) := α → Option (List (Option α))

/-- The errors a search stops with. -/
structure Faults (α : Type) (ε : Type) where
  /-- A reference leads back to a name on the path. -/
  cycle : α → ε
  /-- A reference names no entry. -/
  broken : ε
  /-- There is no room for another call. -/
  depth : ε

section Search

variable {α : Type} [DecidableEq α] {ε : Type}

/-- Search from `a`, with the path to it and the names done before, where there is room for so
many calls. Returns the names done. -/
def visit (faults : Faults α ε) (g : Graph α) : ℕ → List α → List α → α → Except ε (List α)
  | 0, _, _, _ => .error faults.depth
  | n + 1, visiting, visited, a => do
    failIf (a ∈ visiting) (faults.cycle a)
    if a ∈ visited then return visited
    else do
      let targets ← found faults.broken (g a)
      let visited ← targets.foldlM (fun visited target => do
        let b ← found faults.broken target
        visit faults g n (a :: visiting) visited b) visited
      return visited ++ [a]

/-- The marked names in reach of `a`, with those found before for other names. -/
def collect (faults : Faults α ε) (g : Graph α) (marked : α → Bool) :
    ℕ → List (α × Finset α) → α → Except ε (Finset α × List (α × Finset α))
  | 0, _, _ => .error faults.depth
  | n + 1, memo, a =>
    match memo.lookup a with
    | some known => return (known, memo)
    | none => do
      let targets ← found faults.broken (g a)
      let (leaves, memo) ← targets.foldlM (fun (leaves, memo) target => do
        let b ← found faults.broken target
        let (more, memo) ← collect faults g marked n memo b
        return (leaves ∪ more, memo)) (if marked a then {a} else ∅, memo)
      return (leaves, memo ++ [(a, leaves)])

end Search

/-! ## Clean names -/

section Graph

variable {α : Type} {g : Graph α} {a b : α}

/-- One reference of the graph. -/
def Edge (g : Graph α) (a b : α) : Prop := ∃ targets, g a = some targets ∧ some b ∈ targets

/-- Every path from the name ends, and every reference on it names an entry. -/
inductive Clean (g : Graph α) : α → Prop
  | intro {a : α} {targets : List (Option α)} (entry : g a = some targets)
      (named : none ∉ targets) (next : ∀ b, some b ∈ targets → Clean g b) : Clean g a

/-- A reference that names a clean entry. -/
def CleanRef (g : Graph α) (target : Option α) : Prop := ∃ b, target = some b ∧ Clean g b

/-- `b` is the first reference of `a` that is not clean. -/
def Follows (g : Graph α) (a b : α) : Prop :=
  ∃ before after, g a = some (before ++ some b :: after) ∧ (∀ t ∈ before, CleanRef g t) ∧
    ¬ Clean g b

/-- Following the first reference that is not clean, again and again, ends at a reference that
names no entry. -/
inductive Dangles (g : Graph α) : α → Prop
  | missing {a : α} (entry : g a = none) : Dangles g a
  | unnamed {a : α} {before after : List (Option α)}
      (entry : g a = some (before ++ none :: after)) (clean : ∀ t ∈ before, CleanRef g t) :
      Dangles g a
  | next {a b : α} (first : Follows g a b) (rest : Dangles g b) : Dangles g a

theorem Clean.edge (h : Clean g a) (hab : Edge g a b) : Clean g b := by
  obtain ⟨targets, hentry, hmem⟩ := hab
  cases h with
  | intro entry named next =>
    obtain rfl := Option.some.inj (hentry.symm.trans entry)
    exact next b hmem

theorem Clean.reach (h : Clean g a) (hab : Relation.ReflTransGen (Edge g) a b) : Clean g b := by
  induction hab with
  | refl => exact h
  | tail _ hbc ih => exact ih.edge hbc

/-- No path from a clean name comes back to it. -/
theorem Clean.not_cyclic (h : Clean g a) : ¬ Relation.TransGen (Edge g) a a := by
  induction h with
  | @intro a targets entry named next ih =>
    intro hcycle
    obtain ⟨b, hab, hba⟩ := Relation.TransGen.head'_iff.1 hcycle
    obtain ⟨targets', hentry, hmem⟩ := id hab
    obtain rfl := Option.some.inj (hentry.symm.trans entry)
    exact ih b hmem (Relation.TransGen.tail' hba hab)

theorem Clean.refs (h : Clean g a) :
    ∃ targets, g a = some targets ∧ ∀ t ∈ targets, CleanRef g t := by
  cases h with
  | @intro _ targets entry named next =>
    refine ⟨targets, entry, fun t ht => ?_⟩
    cases t with
    | none => exact absurd ht named
    | some b => exact ⟨b, rfl, next b ht⟩

theorem Clean.of_refs {targets : List (Option α)} (entry : g a = some targets)
    (h : ∀ t ∈ targets, CleanRef g t) : Clean g a := by
  refine .intro entry (fun hnone => ?_) fun b hb => ?_
  · obtain ⟨b, hb, -⟩ := h none hnone
    cases hb
  · obtain ⟨b', hb', hclean⟩ := h (some b) hb
    obtain rfl := Option.some.inj hb'
    exact hclean

/-! ## The first fault -/

/-- A list has one first element that fails a predicate. -/
theorem first_unique {β : Type} {p : β → Prop} {before before' after after' : List β} {x y : β}
    (h : before ++ x :: after = before' ++ y :: after') (hbefore : ∀ z ∈ before, p z)
    (hbefore' : ∀ z ∈ before', p z) (hx : ¬ p x) (hy : ¬ p y) : before = before' ∧ x = y := by
  induction before generalizing before' with
  | nil =>
    cases before' with
    | nil => exact ⟨rfl, (List.cons.inj h).1⟩
    | cons z before' =>
      obtain ⟨rfl, -⟩ := List.cons.inj h
      exact absurd (hbefore' x (by simp)) hx
  | cons w before ih =>
    cases before' with
    | nil =>
      obtain ⟨rfl, -⟩ := List.cons.inj h
      exact absurd (hbefore w (by simp)) hy
    | cons z before' =>
      obtain ⟨rfl, hrest⟩ := List.cons.inj h
      obtain ⟨rfl, hxy⟩ := ih hrest (fun v hv => hbefore v (by simp [hv]))
        (fun v hv => hbefore' v (by simp [hv]))
      exact ⟨rfl, hxy⟩

theorem not_cleanRef_none : ¬ CleanRef g none := by
  intro h
  obtain ⟨b, hb, -⟩ := h
  cases hb

theorem cleanRef_some : CleanRef g (some b) ↔ Clean g b := by
  constructor
  · intro h
    obtain ⟨b', hb', hclean⟩ := h
    obtain rfl := Option.some.inj hb'
    exact hclean
  · exact fun h => ⟨b, rfl, h⟩

theorem Follows.unique {c : α} (hb : Follows g a b) (hc : Follows g a c) : b = c := by
  obtain ⟨before, after, hentry, hbefore, hnb⟩ := hb
  obtain ⟨before', after', hentry', hbefore', hnc⟩ := hc
  have hlist := Option.some.inj (hentry.symm.trans hentry')
  have hfirst := first_unique hlist hbefore hbefore' (fun h => hnb (cleanRef_some.1 h))
    (fun h => hnc (cleanRef_some.1 h))
  exact Option.some.inj hfirst.2

theorem Dangles.not_clean (h : Dangles g a) : ¬ Clean g a := by
  intro hclean
  obtain ⟨targets, hentry, hrefs⟩ := hclean.refs
  cases h with
  | missing entry => rw [entry] at hentry; cases hentry
  | unnamed entry clean =>
    obtain rfl := Option.some.inj (entry.symm.trans hentry)
    exact not_cleanRef_none (hrefs none (by simp))
  | next first rest =>
    obtain ⟨before, after, entry, -, hnb⟩ := first
    obtain rfl := Option.some.inj (entry.symm.trans hentry)
    exact hnb (cleanRef_some.1 (hrefs _ (by simp)))

/-- From a name that dangles the first faults do not run in a circle. -/
theorem Dangles.not_circular (h : Dangles g a) : ¬ Relation.TransGen (Follows g) a a := by
  induction h with
  | missing entry =>
    intro hcycle
    obtain ⟨b, ⟨before, after, hentry, -⟩, -⟩ := Relation.TransGen.head'_iff.1 hcycle
    rw [entry] at hentry
    cases hentry
  | unnamed entry clean =>
    intro hcycle
    obtain ⟨b, ⟨before, after, hentry, hbefore, hnb⟩, -⟩ := Relation.TransGen.head'_iff.1 hcycle
    have hlist := Option.some.inj (entry.symm.trans hentry)
    have hfirst := first_unique hlist clean hbefore not_cleanRef_none
      (fun h => hnb (cleanRef_some.1 h))
    cases hfirst.2
  | @next a b first rest ih =>
    intro hcycle
    obtain ⟨c, hac, hca⟩ := Relation.TransGen.head'_iff.1 hcycle
    obtain rfl := first.unique hac
    exact ih (Relation.TransGen.tail' hca first)

/-! ## Running out of room -/

/-- From the call for `a`, made inside those for the names of `path` and after those for the names
of `earlier`, the search comes to a call there is no room for, before it meets a fault. A name
that leads back to the path, or that can be reached from an earlier name, is not searched. -/
inductive Overruns (g : Graph α) (room : ℕ) : List α → List α → α → Prop
  | full {path earlier : List α} {a : α} (h : room ≤ path.length) : Overruns g room path earlier a
  | next {path earlier : List α} {a b : α} {before after : List (Option α)} (new : a ∉ path)
      (first : ∀ x ∈ earlier, ¬ Relation.ReflTransGen (Edge g) x a)
      (entry : g a = some (before ++ some b :: after)) (clean : ∀ t ∈ before, CleanRef g t)
      (rest : Overruns g room (a :: path) (earlier ++ before.filterMap id) b) :
      Overruns g room path earlier a

/-- The same, for the calls for a list of references. -/
def OverrunsAmong (g : Graph α) (room : ℕ) (path earlier : List α) (targets : List (Option α)) :
    Prop :=
  ∃ before b after, targets = before ++ some b :: after ∧ (∀ t ∈ before, CleanRef g t) ∧
    Overruns g room path (earlier ++ before.filterMap id) b

/-- Searching from every name in turn runs out of room. -/
def OverrunsIn (g : Graph α) (room : ℕ) (names : List α) : Prop :=
  OverrunsAmong g room [] [] (names.map some)

section Overruns

variable {room : ℕ} {path earlier : List α} {targets : List (Option α)}

theorem overruns_iff (h : path.length < room) :
    Overruns g room path earlier a ↔ a ∉ path ∧
      (∀ x ∈ earlier, ¬ Relation.ReflTransGen (Edge g) x a) ∧
      ∃ targets, g a = some targets ∧ OverrunsAmong g room (a :: path) earlier targets := by
  constructor
  · intro hover
    cases hover with
    | full hfull => omega
    | next new first entry clean rest => exact ⟨new, first, _, entry, _, _, _, rfl, clean, rest⟩
  · intro hover
    obtain ⟨new, first, _, entry, _, _, _, rfl, clean, rest⟩ := hover
    exact .next new first entry clean rest

theorem not_overrunsAmong_nil : ¬ OverrunsAmong g room path earlier [] := by
  intro h
  obtain ⟨before, b, after, hlist, -⟩ := h
  simp at hlist

theorem not_overrunsAmong_none : ¬ OverrunsAmong g room path earlier (none :: targets) := by
  intro h
  obtain ⟨before, b, after, hlist, hclean, -⟩ := h
  cases before with
  | nil => simp at hlist
  | cons t before =>
    obtain ⟨rfl, -⟩ := List.cons.inj hlist
    exact not_cleanRef_none (hclean none (by simp))

theorem overrunsAmong_cons : OverrunsAmong g room path earlier (some b :: targets) ↔
    Overruns g room path earlier b ∨
      Clean g b ∧ OverrunsAmong g room path (earlier ++ [b]) targets := by
  constructor
  · intro h
    obtain ⟨before, c, after, hlist, hclean, hover⟩ := h
    cases before with
    | nil =>
      obtain ⟨hbc, -⟩ := List.cons.inj hlist
      obtain rfl := Option.some.inj hbc
      exact .inl (by simpa using hover)
    | cons t before =>
      obtain ⟨rfl, rfl⟩ := List.cons.inj hlist
      refine .inr ⟨cleanRef_some.1 (hclean _ (by simp)), before, c, after, rfl, ?_, ?_⟩
      · exact fun t ht => hclean t (by simp [ht])
      · simpa using hover
  · intro h
    rcases h with hover | ⟨hclean, before, c, after, rfl, hbefore, hover⟩
    · exact ⟨[], b, targets, rfl, by simp, by simpa using hover⟩
    · refine ⟨some b :: before, c, after, rfl, ?_, by simpa using hover⟩
      intro t ht
      rcases List.mem_cons.1 ht with rfl | ht
      · exact cleanRef_some.2 hclean
      · exact hbefore t ht

/-- Where every reference goes to a lower rank, ranks below the room are searched within it. -/
theorem not_overruns_of_rank {rank : α → ℕ} (hrank : ∀ x y, Edge g x y → rank y < rank x)
    (h : path.length + rank a < room) : ¬ Overruns g room path earlier a := by
  intro hover
  induction hover with
  | full hfull => omega
  | @next path earlier a b before after _ _ entry _ _ ih =>
    have hlt := hrank a b ⟨_, entry, by simp⟩
    refine ih ?_
    simp only [List.length_cons]
    omega

end Overruns

/-! ## Dangling references -/

/-- The first of the references that is not clean names no entry, or dangles. -/
def DanglesAmong (g : Graph α) (targets : List (Option α)) : Prop :=
  ∃ before t after, targets = before ++ t :: after ∧ (∀ s ∈ before, CleanRef g s) ∧
    ∀ b, t = some b → Dangles g b

theorem dangles_iff :
    Dangles g a ↔ g a = none ∨ ∃ targets, g a = some targets ∧ DanglesAmong g targets := by
  constructor
  · intro h
    cases h with
    | missing entry => exact .inl entry
    | unnamed entry clean => exact .inr ⟨_, entry, _, _, _, rfl, clean, by simp⟩
    | next first rest =>
      obtain ⟨before, after, entry, clean, -⟩ := first
      refine .inr ⟨_, entry, before, some _, after, rfl, clean, fun b hb => ?_⟩
      exact Option.some.inj hb ▸ rest
  · intro h
    rcases h with entry | ⟨_, entry, before, t, after, rfl, clean, hd⟩
    · exact .missing entry
    · cases t with
      | none => exact .unnamed entry clean
      | some b => exact .next ⟨before, after, entry, clean, (hd b rfl).not_clean⟩ (hd b rfl)

theorem danglesAmong_cons {targets : List (Option α)} :
    DanglesAmong g (some b :: targets) ↔ Dangles g b ∨ Clean g b ∧ DanglesAmong g targets := by
  constructor
  · intro h
    obtain ⟨before, t, after, hlist, hclean, hd⟩ := h
    cases before with
    | nil =>
      obtain ⟨rfl, -⟩ := List.cons.inj hlist
      exact .inl (hd b rfl)
    | cons s before =>
      obtain ⟨rfl, rfl⟩ := List.cons.inj hlist
      exact .inr ⟨cleanRef_some.1 (hclean _ (by simp)), before, t, after, rfl,
        fun t ht => hclean t (by simp [ht]), hd⟩
  · intro h
    rcases h with hd | ⟨hclean, before, t, after, rfl, hbefore, hd⟩
    · refine ⟨[], some b, targets, rfl, by simp, fun c hc => ?_⟩
      exact Option.some.inj hc ▸ hd
    · refine ⟨some b :: before, t, after, rfl, ?_, hd⟩
      intro s hs
      rcases List.mem_cons.1 hs with rfl | hs
      · exact cleanRef_some.2 hclean
      · exact hbefore s hs

/-- Following the first faults through a whole document ends at a reference that names no
entry. -/
def DanglesIn (g : Graph α) (names : List α) : Prop :=
  ∃ before a after, names = before ++ a :: after ∧ (∀ x ∈ before, Clean g x) ∧ Dangles g a

theorem danglesAmong_of_danglesIn {names : List α} (h : DanglesIn g names) :
    DanglesAmong g (names.map some) := by
  obtain ⟨before, a, after, rfl, hclean, hd⟩ := h
  refine ⟨before.map some, some a, after.map some, by simp, ?_, fun b hb => ?_⟩
  · intro t ht
    obtain ⟨x, hx, rfl⟩ := List.mem_map.1 ht
    exact cleanRef_some.2 (hclean x hx)
  · exact Option.some.inj hb ▸ hd

theorem danglesIn_of_danglesAmong {names : List α} (h : DanglesAmong g (names.map some)) :
    DanglesIn g names := by
  obtain ⟨before, t, after, hlist, hclean, hd⟩ := h
  obtain ⟨before', rest, rfl, rfl, hrest⟩ := List.map_eq_append_iff.1 hlist
  obtain ⟨a, after', rfl, rfl, rfl⟩ := List.map_eq_cons_iff.1 hrest
  exact ⟨before', a, after', rfl,
    fun x hx => cleanRef_some.1 (hclean _ (List.mem_map_of_mem hx)), hd a rfl⟩

/-! ## What the search returns -/

/-- The names a search is done with: those in reach of the names it was called for. -/
def Done (g : Graph α) (earlier visited : List α) : Prop :=
  ∀ y, y ∈ visited ↔ ∃ x ∈ earlier, Relation.ReflTransGen (Edge g) x y

theorem reach_iff {targets : List (Option α)} (hentry : g a = some targets) {y : α} :
    Relation.ReflTransGen (Edge g) a y ↔
      y = a ∨ ∃ b, some b ∈ targets ∧ Relation.ReflTransGen (Edge g) b y := by
  rw [Relation.ReflTransGen.cases_head_iff]
  refine or_congr eq_comm (exists_congr fun b => and_congr_left fun _ => ?_)
  constructor
  · intro hab
    obtain ⟨targets', hentry', hmem⟩ := hab
    exact Option.some.inj (hentry.symm.trans hentry') ▸ hmem
  · exact fun hmem => ⟨targets, hentry, hmem⟩

theorem Done.nil : Done g ([] : List α) [] := by simp [Done]

/-- A name that is searched before adds nothing. -/
theorem Done.again {earlier visited : List α} (h : Done g earlier visited) (hmem : a ∈ visited) :
    Done g (earlier ++ [a]) visited := by
  intro y
  obtain ⟨x₀, hx₀, hreach⟩ := (h a).1 hmem
  rw [h y]
  constructor
  · intro hy
    obtain ⟨x, hx, hxy⟩ := hy
    exact ⟨x, by simp [hx], hxy⟩
  · intro hy
    obtain ⟨x, hx, hxy⟩ := hy
    rcases List.mem_append.1 hx with hx | hx
    · exact ⟨x, hx, hxy⟩
    · obtain rfl := List.mem_singleton.1 hx
      exact ⟨x₀, hx₀, hreach.trans hxy⟩

/-- A name is done with once its references are. -/
theorem Done.add {earlier visited : List α} {targets : List (Option α)}
    (hentry : g a = some targets) (h : Done g (earlier ++ targets.filterMap id) visited) :
    Done g (earlier ++ [a]) (visited ++ [a]) := by
  intro y
  rw [List.mem_append, h y, List.mem_singleton]
  constructor
  · intro hy
    rcases hy with ⟨x, hx, hxy⟩ | rfl
    · rcases List.mem_append.1 hx with hx | hx
      · exact ⟨x, by simp [hx], hxy⟩
      · have hmem : some x ∈ targets := by simpa using hx
        exact ⟨a, by simp, (reach_iff hentry).2 (.inr ⟨x, hmem, hxy⟩)⟩
    · exact ⟨y, by simp, .refl⟩
  · intro hy
    obtain ⟨x, hx, hxy⟩ := hy
    rcases List.mem_append.1 hx with hx | hx
    · exact .inl ⟨x, by simp [hx], hxy⟩
    · obtain rfl := List.mem_singleton.1 hx
      rcases (reach_iff hentry).1 hxy with rfl | ⟨b, hb, hby⟩
      · exact .inr rfl
      · exact .inl ⟨b, by simpa using .inr hb, hby⟩

end Graph

section Search

variable {α ε : Type} {g : Graph α} {a : α} {n room : ℕ} {path earlier visited : List α}

/-- The outcome of a search: the names done, or the first fault, or no room. -/
inductive Searched (faults : Faults α ε) (g : Graph α) (earlier : List α)
    (clean dangles overruns : Prop) : Except ε (List α) → Prop
  | clean {visited : List α} (h : clean) (fits : ¬ overruns) (done : Done g earlier visited) :
      Searched faults g earlier clean dangles overruns (.ok visited)
  | dangles (h : dangles) (not : ¬ clean) (fits : ¬ overruns) :
      Searched faults g earlier clean dangles overruns (.error faults.broken)
  | circular (b : α) (h : ¬ dangles) (not : ¬ clean) (fits : ¬ overruns) :
      Searched faults g earlier clean dangles overruns (.error (faults.cycle b))
  | overruns (h : overruns) : Searched faults g earlier clean dangles overruns (.error faults.depth)

variable [DecidableEq α]

/-- The references of one entry are searched in turn. -/
def visitAll (faults : Faults α ε) (g : Graph α) (n : ℕ) (path : List α)
    (targets : List (Option α)) (visited : List α) : Except ε (List α) :=
  targets.foldlM (fun visited target => do
    let b ← found faults.broken target
    visit faults g n path visited b) visited

variable (faults : Faults α ε)

theorem visit_succ :
    visit faults g (n + 1) path visited a = (do
      failIf (a ∈ path) (faults.cycle a)
      if a ∈ visited then return visited
      else do
        let targets ← found faults.broken (g a)
        let visited ← visitAll faults g n (a :: path) targets visited
        return visited ++ [a]) := rfl

/-- Searching the references in turn, when the search from each of them is understood. -/
theorem visitAll_spec {targets : List (Option α)}
    (hvisit : ∀ before b after earlier visited, targets = before ++ some b :: after →
      (∀ t ∈ before, CleanRef g t) → (∀ x ∈ earlier, Clean g x) → Done g earlier visited →
      Searched faults g (earlier ++ [b]) (Clean g b) (Dangles g b)
        (Overruns g room path earlier b) (visit faults g n path visited b))
    (hclean : ∀ x ∈ earlier, Clean g x) (hdone : Done g earlier visited) :
    Searched faults g (earlier ++ targets.filterMap id) (∀ t ∈ targets, CleanRef g t)
      (DanglesAmong g targets) (OverrunsAmong g room path earlier targets)
      (visitAll faults g n path targets visited) := by
  induction targets generalizing earlier visited with
  | nil =>
    refine .clean (by simp) not_overrunsAmong_nil ?_
    simpa using hdone
  | cons t targets ih =>
    cases t with
    | none =>
      refine .dangles ⟨[], none, targets, rfl, by simp, by simp⟩ ?_ not_overrunsAmong_none
      exact fun h => not_cleanRef_none (h none (by simp))
    | some b =>
      have hstep : visitAll faults g n path (some b :: targets) visited =
          (visit faults g n path visited b >>= visitAll faults g n path targets) := rfl
      have hnot : ¬ Clean g b → ¬ ∀ t ∈ some b :: targets, CleanRef g t :=
        fun hb h => hb (cleanRef_some.1 (h (some b) (by simp)))
      rw [hstep, overrunsAmong_cons, danglesAmong_cons]
      have hfirst := hvisit [] b targets earlier visited rfl (by simp) hclean hdone
      generalize visit faults g n path visited b = outcome at hfirst
      cases hfirst with
      | overruns h => exact .overruns (.inl h)
      | dangles h not fits =>
        exact .dangles (.inl h) (hnot not) fun h => h.elim fits fun h => not h.1
      | circular c h not fits =>
        exact .circular c (fun hd => hd.elim h fun hd => not hd.1) (hnot not)
          fun h => h.elim fits fun h => not h.1
      | @clean visited₁ hb fits done =>
        have hearlier : ∀ x ∈ earlier ++ [b], Clean g x := by
          intro x hx
          rcases List.mem_append.1 hx with hx | hx
          · exact hclean x hx
          · exact List.mem_singleton.1 hx ▸ hb
        have hrest := ih (fun before c after earlier visited hlist hbefore =>
          hvisit (some b :: before) c after earlier visited (by rw [hlist]; rfl)
            fun t ht => (List.mem_cons.1 ht).elim (fun h => h ▸ cleanRef_some.2 hb) (hbefore t))
          hearlier done
        have hlist : earlier ++ (some b :: targets).filterMap id =
            earlier ++ [b] ++ targets.filterMap id := by simp
        have hall : (∀ t ∈ some b :: targets, CleanRef g t) ↔ ∀ t ∈ targets, CleanRef g t := by
          simp [cleanRef_some, hb]
        have hd : ¬ Dangles g b := fun hd => hd.not_clean hb
        rw [ok_bind, hlist, hall]
        simpa only [hb, hd, fits, false_or, true_and] using hrest

/-- What the search from one name returns, inside the calls for `path` and after the calls for
`earlier`. -/
theorem visit_spec (hroom : n + path.length = room)
    (hleads : ∀ x ∈ path, Relation.TransGen (Edge g) x a)
    (hfollows : ¬ Clean g a → ∀ x ∈ path, Relation.TransGen (Follows g) x a)
    (hclean : ∀ x ∈ earlier, Clean g x) (hdone : Done g earlier visited) :
    Searched faults g (earlier ++ [a]) (Clean g a) (Dangles g a) (Overruns g room path earlier a)
      (visit faults g n path visited a) := by
  induction n generalizing a path earlier visited with
  | zero => exact .overruns (.full (by omega))
  | succ n ih =>
    rw [visit_succ, overruns_iff (by omega)]
    by_cases hnew : a ∈ path
    · have hcyclic : ¬ Clean g a := fun h => h.not_cyclic (hleads a hnew)
      have hcircular : ¬ Dangles g a := fun h => h.not_circular (hfollows hcyclic a hnew)
      rw [failIf_of hnew, error_bind]
      exact .circular a hcircular hcyclic fun h => h.1 hnew
    · rw [failIf_of_not hnew, ok_bind]
      by_cases hvisited : a ∈ visited
      · obtain ⟨x, hx, hreach⟩ := (hdone a).1 hvisited
        rw [if_pos hvisited]
        exact .clean ((hclean x hx).reach hreach) (fun h => h.2.1 x hx hreach)
          (hdone.again hvisited)
      · have hfirst : ∀ x ∈ earlier, ¬ Relation.ReflTransGen (Edge g) x a :=
          fun x hx hreach => hvisited ((hdone a).2 ⟨x, hx, hreach⟩)
        rw [if_neg hvisited]
        cases hentry : g a with
        | none =>
          refine .dangles (.missing hentry) ?_ ?_
          · exact (Dangles.missing hentry).not_clean
          · rintro ⟨-, -, targets, h, -⟩
            cases h
        | some targets =>
          -- The references are searched one call deeper.
          have hall : Searched faults g (earlier ++ targets.filterMap id)
              (∀ t ∈ targets, CleanRef g t) (DanglesAmong g targets)
              (OverrunsAmong g room (a :: path) earlier targets)
              (visitAll faults g n (a :: path) targets visited) := by
            refine visitAll_spec faults (fun before b after earlier visited hlist hbefore hclean
              hdone => ?_) hclean hdone
            have hedge : Edge g a b := ⟨targets, hentry, by simp [hlist]⟩
            refine ih (by simp only [List.length_cons]; omega) ?_ ?_ hclean hdone
            · intro x hx
              rcases List.mem_cons.1 hx with rfl | hx
              · exact .single hedge
              · exact (hleads x hx).tail hedge
            · intro hb x hx
              have hfollow : Follows g a b := ⟨before, after, hlist ▸ hentry, hbefore, hb⟩
              rcases List.mem_cons.1 hx with rfl | hx
              · exact .single hfollow
              · exact (hfollows (fun ha => hb (ha.edge hedge)) x hx).tail hfollow
          have hover : (a ∉ path ∧ (∀ x ∈ earlier, ¬ Relation.ReflTransGen (Edge g) x a) ∧
              ∃ targets', some targets = some targets' ∧
                OverrunsAmong g room (a :: path) earlier targets') ↔
              OverrunsAmong g room (a :: path) earlier targets := by
            rw [and_iff_right hnew, and_iff_right hfirst]
            simp
          have hdangles : Dangles g a ↔ DanglesAmong g targets := by
            rw [dangles_iff, hentry]
            simp
          have hcleans : Clean g a ↔ ∀ t ∈ targets, CleanRef g t := by
            refine ⟨fun h => ?_, .of_refs hentry⟩
            obtain ⟨targets', hentry', hrefs⟩ := h.refs
            exact Option.some.inj (hentry.symm.trans hentry') ▸ hrefs
          rw [hover, hdangles, hcleans]
          show Searched _ _ _ _ _ _ (visitAll faults g n (a :: path) targets visited >>= _)
          generalize visitAll faults g n (a :: path) targets visited = outcome at hall
          cases hall with
          | clean h fits done => exact .clean h fits (done.add hentry)
          | dangles h not fits => exact .dangles h not fits
          | circular b h not fits => exact .circular b h not fits
          | overruns h => exact .overruns h

/-! ## Searching a whole document -/

/-- Search from every name in turn. -/
def visitNames (faults : Faults α ε) (g : Graph α) (room : ℕ) (names : List α) :
    Except ε (List α) :=
  names.foldlM (visit faults g room []) []

/-- What a search through a whole document returns. -/
theorem visitNames_spec (g : Graph α) (room : ℕ) (names : List α) :
    (∃ visited, visitNames faults g room names = .ok visited ∧ (∀ x ∈ names, Clean g x) ∧
        ¬ OverrunsIn g room names) ∨
      (visitNames faults g room names = .error faults.broken ∧ DanglesIn g names) ∨
      (∃ b, visitNames faults g room names = .error (faults.cycle b) ∧ ¬ DanglesIn g names ∧
        ¬ OverrunsIn g room names ∧ ¬ ∀ x ∈ names, Clean g x) ∨
      (visitNames faults g room names = .error faults.depth ∧ OverrunsIn g room names) := by
  have heq : visitNames faults g room names =
      visitAll faults g room [] (names.map some) [] := by
    rw [visitNames, visitAll, List.foldlM_map]
    rfl
  have hall : (∀ t ∈ names.map some, CleanRef g t) ↔ ∀ x ∈ names, Clean g x := by
    simp [cleanRef_some]
  have hsearch : Searched faults g ([] ++ (names.map some).filterMap id)
      (∀ t ∈ names.map some, CleanRef g t) (DanglesAmong g (names.map some))
      (OverrunsAmong g room [] [] (names.map some))
      (visitAll faults g room [] (names.map some) []) := by
    refine visitAll_spec faults (fun _ _ _ _ _ _ _ hclean hdone => ?_) (by simp) .nil
    exact visit_spec faults (by simp) (by simp) (by simp) hclean hdone
  rw [hall] at hsearch
  rw [heq]
  generalize visitAll faults g room [] (names.map some) [] = outcome at hsearch
  cases hsearch with
  | clean h fits done => exact .inl ⟨_, rfl, h, fits⟩
  | dangles h not fits => exact .inr (.inl ⟨rfl, danglesIn_of_danglesAmong h⟩)
  | circular b h not fits =>
    exact .inr (.inr (.inl ⟨b, rfl, fun hd => h (danglesAmong_of_danglesIn hd), fits, not⟩))
  | overruns h => exact .inr (.inr (.inr ⟨rfl, h⟩))

/-! ## What can be reached -/

variable {marked : α → Bool} {memo : List (α × Finset α)}

/-- Every remembered answer is right. -/
def Remembers (g : Graph α) (marked : α → Bool) (memo : List (α × Finset α)) : Prop :=
  ∀ x leaves, (x, leaves) ∈ memo →
    ∀ y, y ∈ leaves ↔ marked y = true ∧ Relation.ReflTransGen (Edge g) x y

theorem mem_of_lookup {β : Type} {l : List (α × β)} {x : α} {y : β} (h : l.lookup x = some y) :
    (x, y) ∈ l := by
  induction l with
  | nil => cases h
  | cons p l ih =>
    obtain ⟨k, v⟩ := p
    rw [List.lookup_cons] at h
    by_cases hk : x = k
    · subst hk
      simp only [beq_self_eq_true, Option.some.injEq] at h
      simp [h]
    · have hbeq : (x == k) = false := by simp [hk]
      rw [hbeq] at h
      exact List.mem_cons_of_mem _ (ih h)

theorem notMem_of_lookup_none {β : Type} {l : List (α × β)} {x : α} (h : l.lookup x = none) :
    x ∉ l.map Prod.fst := by
  intro hmem
  obtain ⟨p, hp, rfl⟩ := List.mem_map.1 hmem
  have hne := List.lookup_eq_none_iff.1 h p hp
  simp at hne

/-- What a walk keeps: right answers, for exactly the names in reach of those it was asked for. -/
structure Keeps (g : Graph α) (marked : α → Bool) (earlier : List α)
    (memo : List (α × Finset α)) : Prop where
  right : Remembers g marked memo
  done : Done g earlier (memo.map Prod.fst)

omit [DecidableEq α] in
theorem Keeps.nil : Keeps g marked [] [] := ⟨by simp [Remembers], .nil⟩

/-- The references of one entry are gathered in turn. -/
def collectAll (faults : Faults α ε) (g : Graph α) (marked : α → Bool) (n : ℕ)
    (targets : List (Option α)) (start : Finset α × List (α × Finset α)) :
    Except ε (Finset α × List (α × Finset α)) :=
  targets.foldlM (fun (leaves, memo) target => do
    let b ← found faults.broken target
    let (more, memo) ← collect faults g marked n memo b
    return (leaves ∪ more, memo)) start

theorem collectAll_spec {targets : List (Option α)} (leaves : Finset α)
    (hcollect : ∀ b earlier memo, some b ∈ targets → Keeps g marked earlier memo →
      (∃ more memo', collect faults g marked n memo b = .ok (more, memo') ∧
          ¬ Overruns g room path earlier b ∧ Keeps g marked (earlier ++ [b]) memo' ∧
          ∀ y, y ∈ more ↔ marked y = true ∧ Relation.ReflTransGen (Edge g) b y) ∨
        collect faults g marked n memo b = .error faults.depth ∧ Overruns g room path earlier b)
    (hrefs : ∀ t ∈ targets, CleanRef g t) (hmemo : Keeps g marked earlier memo) :
    (∃ all memo', collectAll faults g marked n targets (leaves, memo) = .ok (all, memo') ∧
        ¬ OverrunsAmong g room path earlier targets ∧
        Keeps g marked (earlier ++ targets.filterMap id) memo' ∧
        ∀ y, y ∈ all ↔ y ∈ leaves ∨ marked y = true ∧
          ∃ b, some b ∈ targets ∧ Relation.ReflTransGen (Edge g) b y) ∨
      collectAll faults g marked n targets (leaves, memo) = .error faults.depth ∧
        OverrunsAmong g room path earlier targets := by
  induction targets generalizing leaves earlier memo with
  | nil => exact .inl ⟨leaves, memo, rfl, not_overrunsAmong_nil, by simpa using hmemo, by simp⟩
  | cons t targets ih =>
    obtain ⟨b, rfl, hb⟩ := hrefs t (by simp)
    have hstep : collectAll faults g marked n (some b :: targets) (leaves, memo) =
        (collect faults g marked n memo b >>= fun found =>
          collectAll faults g marked n targets (leaves ∪ found.1, found.2)) := by
      rw [collectAll, List.foldlM_cons]
      show (collect faults g marked n memo b >>= _) >>= _ = _
      cases collect faults g marked n memo b <;> rfl
    rw [hstep, overrunsAmong_cons]
    rcases hcollect b earlier memo (by simp) hmemo with
      ⟨more, memo₁, hok, hfits, hmemo₁, hmore⟩ | ⟨herr, hover⟩
    · rw [hok, ok_bind]
      rcases ih (leaves ∪ more) (fun c e m hc => hcollect c e m (by simp [hc]))
        (fun t ht => hrefs t (by simp [ht])) hmemo₁ with
        ⟨all, memo₂, hrest, hrestFits, hmemo₂, hall⟩ | ⟨hrest, hover⟩
      · refine .inl ⟨all, memo₂, hrest, fun h => h.elim hfits fun h => hrestFits h.2, ?_, ?_⟩
        · simpa using hmemo₂
        · intro y
          rw [hall, Finset.mem_union, hmore]
          constructor
          · rintro ((hy | ⟨hm, hy⟩) | ⟨hm, c, hc, hy⟩)
            · exact .inl hy
            · exact .inr ⟨hm, b, by simp, hy⟩
            · exact .inr ⟨hm, c, by simp [hc], hy⟩
          · rintro (hy | ⟨hm, c, hc, hy⟩)
            · exact .inl (.inl hy)
            · rcases List.mem_cons.1 hc with hcb | hc
              · obtain rfl := Option.some.inj hcb
                exact .inl (.inr ⟨hm, hy⟩)
              · exact .inr ⟨hm, c, hc, hy⟩
      · exact .inr ⟨hrest, .inr ⟨hb, hover⟩⟩
    · rw [herr]
      exact .inr ⟨rfl, .inl hover⟩

/-- From a clean name the walk returns the marked names in reach, or it runs out of room. -/
theorem collect_spec (hroom : n + path.length = room) (hclean : Clean g a)
    (hleads : ∀ x ∈ path, Relation.TransGen (Edge g) x a) (hmemo : Keeps g marked earlier memo) :
    (∃ leaves memo', collect faults g marked n memo a = .ok (leaves, memo') ∧
        ¬ Overruns g room path earlier a ∧ Keeps g marked (earlier ++ [a]) memo' ∧
        ∀ y, y ∈ leaves ↔ marked y = true ∧ Relation.ReflTransGen (Edge g) a y) ∨
      collect faults g marked n memo a = .error faults.depth ∧ Overruns g room path earlier a := by
  induction n generalizing a path earlier memo with
  | zero => exact .inr ⟨rfl, .full (by omega)⟩
  | succ n ih =>
    have hsucc : collect faults g marked (n + 1) memo a = (match memo.lookup a with
        | some known => .ok (known, memo)
        | none => do
          let targets ← found faults.broken (g a)
          let (leaves, memo) ← collectAll faults g marked n targets
            (if marked a then {a} else ∅, memo)
          return (leaves, memo ++ [(a, leaves)])) := rfl
    have hnew : a ∉ path := fun hmem => hclean.not_cyclic (hleads a hmem)
    rw [hsucc, overruns_iff (by omega)]
    cases hknown : memo.lookup a with
    | some known =>
      have hmem := mem_of_lookup hknown
      have hname : a ∈ memo.map Prod.fst := List.mem_map_of_mem hmem
      obtain ⟨x, hx, hreach⟩ := (hmemo.done a).1 hname
      exact .inl ⟨known, memo, rfl, fun h => h.2.1 x hx hreach,
        ⟨hmemo.right, hmemo.done.again hname⟩, hmemo.right a known hmem⟩
    | none =>
      obtain ⟨targets, hentry, hrefs⟩ := hclean.refs
      have hfirst : ∀ x ∈ earlier, ¬ Relation.ReflTransGen (Edge g) x a := fun x hx hreach =>
        notMem_of_lookup_none hknown ((hmemo.done a).2 ⟨x, hx, hreach⟩)
      have hover : (a ∉ path ∧ (∀ x ∈ earlier, ¬ Relation.ReflTransGen (Edge g) x a) ∧
          ∃ targets', g a = some targets' ∧
            OverrunsAmong g room (a :: path) earlier targets') ↔
          OverrunsAmong g room (a :: path) earlier targets := by
        rw [and_iff_right hnew, and_iff_right hfirst, hentry]
        simp
      rw [hover, hentry]
      show (∃ leaves memo', (collectAll faults g marked n targets
          (if marked a then {a} else ∅, memo) >>= _) = _ ∧ _) ∨
        (collectAll faults g marked n targets (if marked a then {a} else ∅, memo) >>= _) = _ ∧ _
      have hcollect : ∀ b earlier m, some b ∈ targets → Keeps g marked earlier m →
          (∃ more memo', collect faults g marked n m b = .ok (more, memo') ∧
            ¬ Overruns g room (a :: path) earlier b ∧ Keeps g marked (earlier ++ [b]) memo' ∧
            ∀ y, y ∈ more ↔ marked y = true ∧ Relation.ReflTransGen (Edge g) b y) ∨
          collect faults g marked n m b = .error faults.depth ∧
            Overruns g room (a :: path) earlier b := by
        intro b earlier m hb hm
        have hedge : Edge g a b := ⟨targets, hentry, hb⟩
        refine ih (by simp only [List.length_cons]; omega) (hclean.edge hedge) ?_ hm
        intro x hx
        rcases List.mem_cons.1 hx with rfl | hx
        · exact .single hedge
        · exact (hleads x hx).tail hedge
      rcases collectAll_spec faults (if marked a then {a} else ∅) hcollect hrefs hmemo with
        ⟨leaves, memo', hall, hfits, hmemo', hleaves⟩ | ⟨herr, hrest⟩
      · have hreach : ∀ y, y ∈ leaves ↔ marked y = true ∧ Relation.ReflTransGen (Edge g) a y := by
          intro y
          rw [hleaves, reach_iff hentry]
          constructor
          · rintro (hy | ⟨hm, b, hb, hy⟩)
            · by_cases hma : marked a
              · rw [if_pos hma, Finset.mem_singleton] at hy
                exact ⟨hy ▸ hma, .inl hy⟩
              · simp [hma] at hy
            · exact ⟨hm, .inr ⟨b, hb, hy⟩⟩
          · rintro ⟨hm, rfl | hy⟩
            · exact .inl (by simp [hm])
            · exact .inr ⟨hm, hy⟩
        refine .inl ⟨leaves, memo' ++ [(a, leaves)], ?_, hfits, ⟨?_, ?_⟩, hreach⟩
        · rw [hall]
          rfl
        · intro x l hmem
          rcases List.mem_append.1 hmem with hmem | hmem
          · exact hmemo'.right x l hmem
          · simp only [List.mem_singleton, Prod.mk.injEq] at hmem
            obtain ⟨rfl, rfl⟩ := hmem
            exact hreach
        · rw [List.map_append]
          exact hmemo'.done.add hentry
      · rw [herr]
        exact .inr ⟨rfl, hrest⟩

end Search

end Bifurcation.DepthFirst
