import Bifurcation.Panel.TemplateSpec

/-!
# The checks of a generated document

What the second half of `renderSubscription` accepts, stated of the document: the groups, the
references under the reference keys, the route and the graph. `renderDocument_spec` puts the
stages together: rendering returns a document that meets all of it, or fails with an `AppError`,
or meets an outbound it cannot read (`Escapes`).
-/

namespace Bifurcation.Panel

open Javascript DepthFirst

variable {N : Type} {js : Runtime N}

/-! ## Filling every group -/

section Fill

variable {templates : Entries N} {generated : List (Generated N)}

/-- Every binding fits, after those before it. -/
def FitAll (js : Runtime N) (templates : Entries N) (generated : List (Generated N)) :
    List Binding → List Binding → Prop
  | _, [] => True
  | done, b :: rest =>
    b.Fits js templates generated done ∧ FitAll js templates generated (done ++ [b]) rest

/-- The first binding that does not fit names an outbound whose type has no string form. -/
def UntypedAt (js : Runtime N) (templates : Entries N) (generated : List (Generated N)) :
    List Binding → List Binding → Prop
  | _, [] => False
  | done, b :: rest =>
    b.Untyped js templates generated done ∨
      b.Fits js templates generated done ∧ UntypedAt js templates generated (done ++ [b]) rest

theorem Binding.Untyped.not_fits {done : List Binding} {b : Binding}
    (h : b.Untyped js templates generated done) : ¬ b.Fits js templates generated done := by
  intro hfits
  obtain ⟨outbound, hlookup, hnone⟩ := h.untyped
  obtain ⟨outbound', type, hlookup', htype, -⟩ := hfits.group
  obtain rfl := Option.some.inj (hlookup.symm.trans hlookup')
  rw [hnone] at htype
  cases htype

theorem FitAll.not_untypedAt {done bindings : List Binding}
    (h : FitAll js templates generated done bindings) :
    ¬ UntypedAt js templates generated done bindings := by
  induction bindings generalizing done with
  | nil => exact id
  | cons b rest ih => exact fun hat => hat.elim (fun hb => hb.not_fits h.1) fun hr => ih h.2 hr.2

theorem fill_of_fits (hgen : Managed js generated) {done bindings : List Binding}
    (h : FitAll js templates generated done bindings) :
    bindings.foldlM (fillGroup js generated) (filledBy templates generated done) =
      .ok (filledBy templates generated (done ++ bindings)) := by
  induction bindings generalizing done with
  | nil => simp [pure, Except.pure]
  | cons b rest ih =>
    rw [List.foldlM_cons, fillGroup_fits hgen h.1]
    have hassoc : done ++ b :: rest = done ++ [b] ++ rest := by simp
    rw [hassoc]
    exact ih h.2

/-- Filling the groups fills all of them, or stops at the first binding that does not fit. -/
theorem fill_spec (hgen : Managed js generated) (done bindings : List Binding) :
    (bindings.foldlM (fillGroup js generated) (filledBy templates generated done) =
        .ok (filledBy templates generated (done ++ bindings)) ∧
      FitAll js templates generated done bindings ∧
      ¬ UntypedAt js templates generated done bindings) ∨
    (bindings.foldlM (fillGroup js generated) (filledBy templates generated done) =
        .error .typeError ∧ UntypedAt js templates generated done bindings) ∨
    (∃ e, bindings.foldlM (fillGroup js generated) (filledBy templates generated done) =
        .error e ∧ e.isApp = true ∧ ¬ UntypedAt js templates generated done bindings) := by
  induction bindings generalizing done with
  | nil => exact .inl ⟨by simp [pure, Except.pure], trivial, id⟩
  | cons b rest ih =>
    rw [List.foldlM_cons]
    by_cases hfits : b.Fits js templates generated done
    · have huntyped : ¬ b.Untyped js templates generated done := fun h => h.not_fits hfits
      rw [fillGroup_fits hgen hfits]
      have hassoc : done ++ b :: rest = done ++ [b] ++ rest := by simp
      rcases ih (done ++ [b]) with ⟨hok, hall, hnot⟩ | ⟨herr, hat⟩ | ⟨e, herr, happ, hnot⟩
      · refine .inl ⟨by rw [hassoc]; exact hok, ⟨hfits, hall⟩, ?_⟩
        exact fun h => h.elim huntyped fun h => hnot h.2
      · exact .inr (.inl ⟨herr, .inr ⟨hfits, hat⟩⟩)
      · exact .inr (.inr ⟨e, herr, happ, fun h => h.elim huntyped fun h => hnot h.2⟩)
    · by_cases huntyped : b.Untyped js templates generated done
      · rw [fillGroup_untyped huntyped]
        exact .inr (.inl ⟨rfl, .inl huntyped⟩)
      · cases hfill : fillGroup js generated (filledBy templates generated done) b with
        | ok filled =>
          refine absurd ?_ hfits
          exact fits_of_fillGroup hfill
        | error e =>
          refine .inr (.inr ⟨e, rfl, (fillGroup_error hfill).resolve_right huntyped, ?_⟩)
          exact fun h => h.elim huntyped fun h => hfits h.1

end Fill

/-! ## References -/

/-- The value names an outbound. -/
def Names (names : List JsString) (value : JsValue N) : Prop := ∃ s ∈ names, value = .str s

theorem requireOutbound_eq_ok {names : List JsString} {value : JsValue N} {path : JsString} :
    requireOutbound names value path = .ok () ↔ Names names value := by
  cases value <;> simp [requireOutbound, Names]

theorem appOnly_requireOutbound (names : List JsString) (value : JsValue N) (path : JsString) :
    AppOnly (requireOutbound names value path) := by
  cases value <;> first | exact appOnly_failIf _ _ | exact appOnly_invalid _ _

theorem checkReference_eq_ok {names : List JsString} {path key : JsString} {value : JsValue N} :
    checkReference names path key value = .ok () ↔ (key ∈ referenceKeys → Names names value) := by
  unfold checkReference
  by_cases hkey : key ∈ referenceKeys
  · simp [hkey, requireOutbound_eq_ok]
  · simp [hkey]

theorem appOnly_checkReference (names : List JsString) (path key : JsString) (value : JsValue N) :
    AppOnly (checkReference names path key value) := by
  unfold checkReference
  by_cases hkey : key ∈ referenceKeys
  · rw [if_pos hkey]
    exact appOnly_requireOutbound _ _ _
  · rw [if_neg hkey]
    exact throws_ok ()

/-- The first value occurs in the second, at any depth. -/
inductive Inside : JsValue N → JsValue N → Prop
  | refl (v : JsValue N) : Inside v v
  | item {v x : JsValue N} {items : List (JsValue N)} (hx : x ∈ items) (h : Inside v x) :
      Inside v (.arr items)
  | member {v x : JsValue N} {key : JsString} {members : Members N} (hx : (key, x) ∈ members)
      (h : Inside v x) : Inside v (.obj members)

/-- Every value under a reference key, anywhere in `v`, names an outbound. -/
def ReferencesResolve (names : List JsString) (v : JsValue N) : Prop :=
  ∀ members, Inside (.obj members) v → ∀ key value, (key, value) ∈ members →
    key ∈ referenceKeys → Names names value

theorem referencesResolve_arr {names : List JsString} {items : List (JsValue N)} :
    ReferencesResolve names (.arr items) ↔ ∀ v ∈ items, ReferencesResolve names v := by
  constructor
  · exact fun h v hv members hin => h members (.item hv hin)
  · intro h members hin key value hmem hkey
    cases hin with
    | item hx hin => exact h _ hx members hin key value hmem hkey

theorem referencesResolve_obj {names : List JsString} {members : Members N} :
    ReferencesResolve names (.obj members) ↔
      ∀ m ∈ members, (m.1 ∈ referenceKeys → Names names m.2) ∧ ReferencesResolve names m.2 := by
  constructor
  · intro h m hm
    exact ⟨fun hkey => h members (.refl _) m.1 m.2 hm hkey,
      fun members' hin => h members' (.member hm hin)⟩
  · intro h members' hin key value hmem hkey
    cases hin with
    | refl => exact (h (key, value) hmem).1 hkey
    | member hx hin => exact (h _ hx).2 members' hin key value hmem hkey

theorem referencesResolve_of_leaf {names : List JsString} {v : JsValue N}
    (harr : ∀ items, v ≠ .arr items) (hobj : ∀ members, v ≠ .obj members) :
    ReferencesResolve names v := by
  intro members hin
  cases hin with
  | refl => exact absurd rfl (hobj members)
  | item _ _ => exact absurd rfl (harr _)
  | member _ _ => exact absurd rfl (hobj _)

mutual

theorem walk_eq_ok (names : List JsString) (path : JsString) :
    (v : JsValue N) → (walk names path v = .ok () ↔ ReferencesResolve names v)
  | .arr items => by
    rw [referencesResolve_arr, walk]
    exact walkItems_eq_ok names path 0 items
  | .obj members => by
    rw [referencesResolve_obj, walk]
    exact walkMembers_eq_ok names path members
  | .null => iff_of_true rfl (referencesResolve_of_leaf nofun nofun)
  | .bool _ => iff_of_true rfl (referencesResolve_of_leaf nofun nofun)
  | .num _ => iff_of_true rfl (referencesResolve_of_leaf nofun nofun)
  | .str _ => iff_of_true rfl (referencesResolve_of_leaf nofun nofun)

theorem walkItems_eq_ok (names : List JsString) (path : JsString) (index : ℕ) :
    (vs : List (JsValue N)) →
      (walkItems names path index vs = .ok () ↔ ∀ v ∈ vs, ReferencesResolve names v)
  | [] => iff_of_true rfl (by simp)
  | v :: vs => by
    have hv := walk_eq_ok names (path ++ utf16 "/" ++ decimal index) v
    have hvs := walkItems_eq_ok names path (index + 1) vs
    rw [walkItems]
    rw [check_bind_eq_ok, hv, hvs, List.forall_mem_cons]

theorem walkMembers_eq_ok (names : List JsString) (path : JsString) :
    (ms : List (JsString × JsValue N)) → (walkMembers names path ms = .ok () ↔
      ∀ m ∈ ms, (m.1 ∈ referenceKeys → Names names m.2) ∧ ReferencesResolve names m.2)
  | [] => iff_of_true rfl (by simp)
  | (key, v) :: ms => by
    have hv := walk_eq_ok names (path ++ utf16 "/" ++ key) v
    have hms := walkMembers_eq_ok names path ms
    rw [walkMembers, walkMember]
    rw [check_bind_eq_ok, check_bind_eq_ok, checkReference_eq_ok, hv, hms, List.forall_mem_cons]

end

mutual

theorem appOnly_walk (names : List JsString) (path : JsString) :
    (v : JsValue N) → AppOnly (walk names path v)
  | .arr items => appOnly_walkItems names path 0 items
  | .obj members => appOnly_walkMembers names path members
  | .null => throws_ok ()
  | .bool _ => throws_ok ()
  | .num _ => throws_ok ()
  | .str _ => throws_ok ()

theorem appOnly_walkItems (names : List JsString) (path : JsString) (index : ℕ) :
    (vs : List (JsValue N)) → AppOnly (walkItems names path index vs)
  | [] => throws_ok ()
  | v :: vs => (appOnly_walk names _ v).bind fun _ _ => appOnly_walkItems names path (index + 1) vs

theorem appOnly_walkMembers (names : List JsString) (path : JsString) :
    (ms : List (JsString × JsValue N)) → AppOnly (walkMembers names path ms)
  | [] => throws_ok ()
  | (key, v) :: ms => by
    rw [walkMembers, walkMember]
    refine Throws.bind (Throws.bind ?_ fun _ _ => appOnly_walk names _ v)
      fun _ _ => appOnly_walkMembers names path ms
    exact appOnly_checkReference _ _ _ _

end

/-- `route.final` names an outbound. -/
def RouteResolves (names : List JsString) (result : Members N) : Prop :=
  ∀ value, get result (utf16 "route") = some value → ∃ route, value = .obj route ∧
    ∀ final, get route (utf16 "final") = some final → Names names final

theorem checkRoute_eq_ok {names : List JsString} {result : Members N} :
    checkRoute names result = .ok () ↔ RouteResolves names result := by
  unfold checkRoute RouteResolves
  cases hroute : get result (utf16 "route") with
  | none => simp
  | some value =>
    simp only [bind_eq_ok, object_eq_ok, Option.some.injEq, forall_eq']
    constructor
    · intro h
      obtain ⟨route, rfl, hfinal⟩ := h
      refine ⟨route, rfl, fun final hget => ?_⟩
      rw [hget] at hfinal
      exact requireOutbound_eq_ok.1 hfinal
    · intro h
      obtain ⟨route, rfl, hfinal⟩ := h
      refine ⟨route, rfl, ?_⟩
      cases hget : get route (utf16 "final") with
      | none => rfl
      | some final => exact requireOutbound_eq_ok.2 (hfinal final hget)

theorem appOnly_checkRoute (names : List JsString) (result : Members N) :
    AppOnly (checkRoute names result) := by
  unfold checkRoute
  cases get result (utf16 "route") with
  | none => exact throws_ok ()
  | some value =>
    refine (appOnly_object _ _).bind fun route _ => ?_
    cases get route (utf16 "final") with
    | none => exact throws_ok ()
    | some final => exact appOnly_requireOutbound _ _ _

/-! ## Groups -/

/-- The members of a group exist, and its default is one of them. -/
def MembersOk (names : List JsString) (outbound : Members N) : Prop :=
  ∃ members, get outbound (utf16 "outbounds") = some (.arr members) ∧ members ≠ [] ∧
    (∀ v ∈ members, Names names v) ∧
    ∀ value, get outbound (utf16 "default") = some value → includesText members value = true

def GroupOk (js : Runtime N) (names : List JsString) (entry : JsString × Members N) : Prop :=
  ∃ type, typeText js entry.2 = some type ∧ (type ∈ groupNames → MembersOk names entry.2)

theorem checkDefault_eq_ok {path : JsString} {outbound : Members N} {members : List (JsValue N)} :
    checkDefault path outbound members = .ok () ↔
      ∀ value, get outbound (utf16 "default") = some value → includesText members value = true := by
  unfold checkDefault
  cases get outbound (utf16 "default") with
  | none => simp
  | some value => simp

theorem appOnly_checkDefault (path : JsString) (outbound : Members N) (members : List (JsValue N)) :
    AppOnly (checkDefault path outbound members) := by
  unfold checkDefault
  cases get outbound (utf16 "default") with
  | none => exact throws_ok ()
  | some value => exact appOnly_failIf _ _

theorem checkMembers_eq_ok {names : List JsString} {path : JsString} {outbound : Members N} :
    checkMembers names path outbound = .ok () ↔ MembersOk names outbound := by
  unfold checkMembers MembersOk
  cases hget : get outbound (utf16 "outbounds") with
  | none => simp
  | some value =>
    cases value with
    | arr members =>
      have hmembers : members.zipIdx.forM (fun x => requireOutbound names x.1
          (path ++ utf16 "/outbounds/" ++ decimal x.2)) = .ok () ↔
            ∀ v ∈ members, Names names v := by
        rw [forM_eq_ok]
        simp only [requireOutbound_eq_ok]
        constructor
        · intro h v hv
          obtain ⟨i, hi, rfl⟩ := List.getElem_of_mem hv
          exact h (members[i], i) (List.mem_zipIdx_iff_getElem?.2 (by simp [hi]))
        · intro h x hx
          exact h x.1 (List.fst_mem_of_mem_zipIdx hx)
      show (failIf _ _ >>= fun _ => _) = _ ↔ _
      rw [check_bind_eq_ok, check_bind_eq_ok, hmembers, checkDefault_eq_ok]
      simp
    | _ => simp

theorem appOnly_checkMembers (names : List JsString) (path : JsString) (outbound : Members N) :
    AppOnly (checkMembers names path outbound) := by
  unfold checkMembers
  cases get outbound (utf16 "outbounds") with
  | none => exact appOnly_invalid _ _
  | some value =>
    cases value <;> try exact appOnly_invalid _ _
    refine (appOnly_failIf _ _).bind fun _ _ => ?_
    refine Throws.bind (throws_forM fun _ _ => appOnly_requireOutbound _ _ _) fun _ _ => ?_
    exact appOnly_checkDefault _ _ _

theorem checkGroup_eq_ok {names : List JsString} {entry : JsString × Members N} :
    checkGroup js names entry = .ok () ↔ GroupOk js names entry := by
  unfold checkGroup GroupOk isGroup
  simp only [bind_eq_ok, found_eq_ok, pure_eq_ok]
  constructor
  · intro h
    obtain ⟨_, ⟨type, htype, rfl⟩, hmembers⟩ := h
    refine ⟨type, htype, fun hgroup => ?_⟩
    rw [if_pos (by simpa using hgroup)] at hmembers
    exact checkMembers_eq_ok.1 hmembers
  · intro h
    obtain ⟨type, htype, hmembers⟩ := h
    refine ⟨_, ⟨type, htype, rfl⟩, ?_⟩
    by_cases hgroup : type ∈ groupNames
    · rw [if_pos (by simpa using hgroup)]
      exact checkMembers_eq_ok.2 (hmembers hgroup)
    · rw [if_neg (by simpa using hgroup)]
      rfl

theorem checkGroup_error {names : List JsString} {entry : JsString × Members N} {e : Thrown}
    (h : checkGroup js names entry = .error e) :
    e = .typeError ∧ typeText js entry.2 = none ∨
      e.isApp = true ∧ typeText js entry.2 ≠ none := by
  unfold checkGroup isGroup at h
  cases htype : typeText js entry.2 with
  | none =>
    simp only [htype, found, bind, Except.bind, Except.error.injEq] at h
    exact .inl ⟨h.symm, rfl⟩
  | some type =>
    refine .inr ⟨?_, Option.some_ne_none type⟩
    simp only [htype, found, bind, Except.bind, pure, Except.pure] at h
    by_cases hgroup : type ∈ groupNames
    · rw [if_pos (by simpa using hgroup)] at h
      exact appOnly_checkMembers _ _ _ e h
    · rw [if_neg (by simpa using hgroup)] at h
      cases h

/-- The first group that is not in order has a type without a string form. -/
def UntypedGroup (js : Runtime N) (names : List JsString) (entries : Entries N) : Prop :=
  ∃ before entry after, entries = before ++ entry :: after ∧
    (∀ e ∈ before, GroupOk js names e) ∧ typeText js entry.2 = none

theorem not_groupOk_of_untyped {names : List JsString} {entry : JsString × Members N}
    (h : typeText js entry.2 = none) : ¬ GroupOk js names entry := by
  intro hok
  obtain ⟨type, htype, -⟩ := hok
  rw [h] at htype
  cases htype

theorem checkGroups_spec (js : Runtime N) (names : List JsString) (entries : Entries N) :
    (entries.forM (checkGroup js names) = .ok () ∧ (∀ e ∈ entries, GroupOk js names e) ∧
        ¬ UntypedGroup js names entries) ∨
      (entries.forM (checkGroup js names) = .error .typeError ∧
        UntypedGroup js names entries) ∨
      (∃ e, entries.forM (checkGroup js names) = .error e ∧ e.isApp = true ∧
        ¬ UntypedGroup js names entries) := by
  cases h : entries.forM (checkGroup js names) with
  | ok u =>
    have hall : ∀ e ∈ entries, GroupOk js names e :=
      fun e he => checkGroup_eq_ok.1 (forM_eq_ok.1 h e he)
    refine .inl ⟨rfl, hall, fun hat => ?_⟩
    obtain ⟨before, entry, after, rfl, -, hnone⟩ := hat
    exact not_groupOk_of_untyped hnone (hall entry (by simp))
  | error e =>
    obtain ⟨before, entry, after, rfl, hbefore, hentry⟩ := forM_eq_error h
    have hbefore' : ∀ x ∈ before, GroupOk js names x :=
      fun x hx => checkGroup_eq_ok.1 (hbefore x hx)
    rcases checkGroup_error hentry with ⟨rfl, hnone⟩ | ⟨happ, hsome⟩
    · exact .inr (.inl ⟨rfl, before, entry, after, rfl, hbefore', hnone⟩)
    · refine .inr (.inr ⟨e, rfl, happ, fun hat => ?_⟩)
      obtain ⟨before', entry', after', hlist, hbefore'', hnone⟩ := hat
      have hbad : ¬ GroupOk js names entry := by
        intro hok
        rw [checkGroup_eq_ok.2 hok] at hentry
        cases hentry
      have hfirst := first_unique hlist hbefore' hbefore'' hbad (not_groupOk_of_untyped hnone)
      exact hsome (hfirst.2 ▸ hnone)

/-! ## Scopes -/

theorem mem_names_of_references {entries : Entries N} {tag : JsString}
    (h : references js entries tag ≠ none) : tag ∈ entries.map Prod.fst := by
  rw [mem_names_iff]
  cases hlookup : entries.lookup tag with
  | none => simp [references, hlookup] at h
  | some o => exact ⟨o, rfl⟩

theorem FitAll.fresh {templates : Entries N} {generated : List (Generated N)}
    {done bindings : List Binding} (h : FitAll js templates generated done bindings) :
    (bindings.map Binding.groupTag).Nodup ∧
      ∀ b ∈ bindings, b.groupTag ∉ done.map Binding.groupTag := by
  induction bindings generalizing done with
  | nil => simp
  | cons b rest ih =>
    obtain ⟨hnodup, hfresh⟩ := ih h.2
    refine ⟨?_, ?_⟩
    · rw [List.map_cons, List.nodup_cons]
      refine ⟨fun hmem => ?_, hnodup⟩
      obtain ⟨b', hb', htag⟩ := List.mem_map.1 hmem
      exact hfresh b' hb' (by simp [htag])
    · intro b' hb'
      rcases List.mem_cons.1 hb' with rfl | hb'
      · exact h.1.fresh
      · exact fun hmem => hfresh b' hb' (by simp at hmem ⊢; exact .inl hmem)

/-- Each binding fits, whatever stands before it. -/
theorem FitAll.fits {templates : Entries N} {generated : List (Generated N)}
    {done bindings : List Binding} (h : FitAll js templates generated done bindings)
    {b : Binding} (hb : b ∈ bindings) : ∃ earlier, b.Fits js templates generated earlier := by
  induction bindings generalizing done with
  | nil => simp at hb
  | cons b' rest ih =>
    rcases List.mem_cons.1 hb with rfl | hb
    · exact ⟨done, h.1⟩
    · exact ih h.2 hb

theorem lookup_members {generated : List (Generated N)} {bindings : List Binding}
    (hnodup : (bindings.map Binding.groupTag).Nodup) {b : Binding} (hb : b ∈ bindings) :
    (bindings.map fun b => (b.groupTag, b.members generated)).lookup b.groupTag =
      some (b.members generated) := by
  induction bindings with
  | nil => simp at hb
  | cons b' rest ih =>
    rw [List.map_cons, List.nodup_cons] at hnodup
    rw [List.map_cons, lookup_cons']
    rcases List.mem_cons.1 hb with rfl | hb
    · simp
    · have hne : b'.groupTag ≠ b.groupTag :=
        fun h => hnodup.1 (h ▸ List.mem_map_of_mem hb)
      simp only [hne, if_false]
      exact ih hnodup.2 hb

/-- Every generated outbound in reach of a bound group is one its binding selects. -/
def ScopesOk (js : Runtime N) (entries : Entries N) (generated : List (Generated N))
    (bindings : List Binding) : Prop :=
  ∀ b ∈ bindings, ∀ tag, isReserved tag = true →
    Relation.ReflTransGen (Edge (references js entries)) b.groupTag tag →
      tag ∈ b.members generated

/-- Gathering what the groups lead to runs out of room before one of them is refused. -/
def LeavesOverrun (js : Runtime N) (entries : Entries N) (generated : List (Generated N)) :
    List JsString → List Binding → Prop
  | _, [] => False
  | done, b :: rest =>
    Overruns (references js entries) (js.callDepth (utf16 "managedLeaves")) [] done b.groupTag ∨
      ScopesOk js entries generated [b] ∧
        LeavesOverrun js entries generated (done ++ [b.groupTag]) rest

theorem checkScope_spec {entries : Entries N} {generated : List (Generated N)}
    {selected : List (JsString × List JsString)} {memo : List (JsString × Finset JsString)}
    {done : List JsString} {b : Binding}
    (hselected : selected.lookup b.groupTag = some (b.members generated))
    (hclean : Clean (references js entries) b.groupTag)
    (hmemo : Keeps (references js entries) isReserved done memo) :
    (∃ memo', checkScope js entries selected memo b = .ok memo' ∧
        Keeps (references js entries) isReserved (done ++ [b.groupTag]) memo' ∧
        ScopesOk js entries generated [b] ∧
        ¬ Overruns (references js entries) (js.callDepth (utf16 "managedLeaves")) [] done
          b.groupTag) ∨
      (∃ e, checkScope js entries selected memo b = .error e ∧ e.isApp = true ∧
        ¬ ScopesOk js entries generated [b] ∧
        ¬ Overruns (references js entries) (js.callDepth (utf16 "managedLeaves")) [] done
          b.groupTag) ∨
      (checkScope js entries selected memo b = .error .rangeError ∧
        Overruns (references js entries) (js.callDepth (utf16 "managedLeaves")) [] done
          b.groupTag) := by
  have hroom : js.callDepth (utf16 "managedLeaves") + ([] : List JsString).length =
      js.callDepth (utf16 "managedLeaves") := rfl
  rcases collect_spec visitFaults hroom hclean (by simp) hmemo with
    ⟨reached, memo', hcollect, hfits, hmemo', hreached⟩ | ⟨hcollect, hover⟩
  · by_cases hscope : ∃ tag ∈ reached, tag ∉ b.members generated
    · refine .inr (.inl ⟨invalid (utf16 "/bindings/" ++ b.groupTag)
        "固定成员间接包含筛选范围之外的节点，请同步自动组的筛选条件", ?_, rfl, ?_, hfits⟩)
      · simp only [checkScope, hcollect, hselected, ok_bind, Option.getD_some, failIf_of hscope,
          error_bind]
      · intro hok
        obtain ⟨tag, htag, hnot⟩ := hscope
        obtain ⟨hreserved, hreach⟩ := (hreached tag).1 htag
        exact hnot (hok b (by simp) tag hreserved hreach)
    · refine .inl ⟨memo', ?_, hmemo', ?_, hfits⟩
      · simp only [checkScope, hcollect, hselected, ok_bind, Option.getD_some,
          failIf_of_not hscope]
        rfl
      · intro b' hb' tag hreserved hreach
        obtain rfl := List.mem_singleton.1 hb'
        by_contra hnot
        exact hscope ⟨tag, (hreached tag).2 ⟨hreserved, hreach⟩, hnot⟩
  · refine .inr (.inr ⟨?_, hover⟩)
    simp only [checkScope, hcollect, error_bind]
    rfl

theorem scopesOk_cons {entries : Entries N} {generated : List (Generated N)} {b : Binding}
    {rest : List Binding} : ScopesOk js entries generated (b :: rest) ↔
      ScopesOk js entries generated [b] ∧ ScopesOk js entries generated rest := by
  simp [ScopesOk]

theorem checkScopes_spec {entries : Entries N} {generated : List (Generated N)}
    {selected : List (JsString × List JsString)} {bindings : List Binding}
    (hselected : ∀ b ∈ bindings, selected.lookup b.groupTag = some (b.members generated))
    (hclean : ∀ b ∈ bindings, Clean (references js entries) b.groupTag)
    {memo : List (JsString × Finset JsString)} {done : List JsString}
    (hmemo : Keeps (references js entries) isReserved done memo) :
    (∃ memo', bindings.foldlM (checkScope js entries selected) memo = .ok memo' ∧
        ScopesOk js entries generated bindings ∧
        ¬ LeavesOverrun js entries generated done bindings) ∨
      (∃ e, bindings.foldlM (checkScope js entries selected) memo = .error e ∧
        e.isApp = true ∧ ¬ ScopesOk js entries generated bindings ∧
        ¬ LeavesOverrun js entries generated done bindings) ∨
      (bindings.foldlM (checkScope js entries selected) memo = .error .rangeError ∧
        LeavesOverrun js entries generated done bindings) := by
  induction bindings generalizing memo done with
  | nil => exact .inl ⟨memo, rfl, by simp [ScopesOk], id⟩
  | cons b rest ih =>
    rw [List.foldlM_cons, scopesOk_cons]
    rcases checkScope_spec (hselected b (by simp)) (hclean b (by simp)) hmemo with
      ⟨memo₁, hok, hmemo₁, hscope, hfits⟩ | ⟨e, herr, happ, hscope, hfits⟩ | ⟨herr, hover⟩
    · rw [hok]
      rcases ih (fun b hb => hselected b (by simp [hb])) (fun b hb => hclean b (by simp [hb]))
        hmemo₁ with ⟨memo', hrest, hscopes, hnot⟩ | ⟨e, hrest, happ, hscopes, hnot⟩ |
          ⟨hrest, hover⟩
      · exact .inl ⟨memo', hrest, ⟨hscope, hscopes⟩, fun h => h.elim hfits fun h => hnot h.2⟩
      · exact .inr (.inl ⟨e, hrest, happ, fun h => hscopes h.2,
          fun h => h.elim hfits fun h => hnot h.2⟩)
      · exact .inr (.inr ⟨hrest, .inr ⟨hscope, hover⟩⟩)
    · exact .inr (.inl ⟨e, by rw [herr]; rfl, happ, fun h => hscope h.1,
        fun h => h.elim hfits fun h => hscope h.1⟩)
    · exact .inr (.inr ⟨by rw [herr]; rfl, .inl hover⟩)

/-! ## Rendering -/

/-- The outbounds by tag once the groups are filled. -/
def finalEntries (prepared : Prepared N) (bindings : List Binding) : Entries N :=
  byTag (fillEntries prepared.generated prepared.templates bindings) prepared.generated

/-- The document once the groups are filled. -/
def finalDocument (prepared : Prepared N) (bindings : List Binding) : Members N :=
  document prepared (filledBy prepared.templates prepared.generated bindings)

/-- Everything the checks establish of a rendered document. -/
structure Checked (js : Runtime N) (prepared : Prepared N) (bindings : List Binding) : Prop where
  fits : FitAll js prepared.templates prepared.generated [] bindings
  groups : ∀ e ∈ finalEntries prepared bindings,
    GroupOk js ((finalEntries prepared bindings).map Prod.fst) e
  references : ReferencesResolve ((finalEntries prepared bindings).map Prod.fst)
    (.obj (finalDocument prepared bindings))
  route : RouteResolves ((finalEntries prepared bindings).map Prod.fst)
    (finalDocument prepared bindings)
  clean : ∀ tag ∈ (finalEntries prepared bindings).map Prod.fst,
    Clean (Panel.references js (finalEntries prepared bindings)) tag
  room : ¬ OverrunsIn (Panel.references js (finalEntries prepared bindings))
    (js.callDepth (utf16 "visit")) ((finalEntries prepared bindings).map Prod.fst)
  scopes : ScopesOk js (finalEntries prepared bindings) prepared.generated bindings
  leavesRoom : ¬ LeavesOverrun js (finalEntries prepared bindings) prepared.generated [] bindings

/-- A template on which rendering stops with an exception that is not an `AppError`: the checks
before it pass, and then a type has no string form, or the references lead from one that does not
check out to the next and in the end to one that names nothing, or one of the two walks over them
is deeper than the call stack. -/
inductive Escapes (js : Runtime N) (prepared : Prepared N) (bindings : List Binding) : Prop
  | binding (h : UntypedAt js prepared.templates prepared.generated [] bindings)
  | group (fits : FitAll js prepared.templates prepared.generated [] bindings)
      (h : UntypedGroup js ((finalEntries prepared bindings).map Prod.fst)
        (finalEntries prepared bindings))
  | reference (fits : FitAll js prepared.templates prepared.generated [] bindings)
      (groups : ∀ e ∈ finalEntries prepared bindings,
        GroupOk js ((finalEntries prepared bindings).map Prod.fst) e)
      (references : ReferencesResolve ((finalEntries prepared bindings).map Prod.fst)
        (.obj (finalDocument prepared bindings)))
      (route : RouteResolves ((finalEntries prepared bindings).map Prod.fst)
        (finalDocument prepared bindings))
      (h : DanglesIn (Panel.references js (finalEntries prepared bindings))
        ((finalEntries prepared bindings).map Prod.fst))
  | visit (fits : FitAll js prepared.templates prepared.generated [] bindings)
      (groups : ∀ e ∈ finalEntries prepared bindings,
        GroupOk js ((finalEntries prepared bindings).map Prod.fst) e)
      (references : ReferencesResolve ((finalEntries prepared bindings).map Prod.fst)
        (.obj (finalDocument prepared bindings)))
      (route : RouteResolves ((finalEntries prepared bindings).map Prod.fst)
        (finalDocument prepared bindings))
      (h : OverrunsIn (Panel.references js (finalEntries prepared bindings))
        (js.callDepth (utf16 "visit")) ((finalEntries prepared bindings).map Prod.fst))
  | leaves (fits : FitAll js prepared.templates prepared.generated [] bindings)
      (groups : ∀ e ∈ finalEntries prepared bindings,
        GroupOk js ((finalEntries prepared bindings).map Prod.fst) e)
      (references : ReferencesResolve ((finalEntries prepared bindings).map Prod.fst)
        (.obj (finalDocument prepared bindings)))
      (route : RouteResolves ((finalEntries prepared bindings).map Prod.fst)
        (finalDocument prepared bindings))
      (clean : ∀ tag ∈ (finalEntries prepared bindings).map Prod.fst,
        Clean (Panel.references js (finalEntries prepared bindings)) tag)
      (h : LeavesOverrun js (finalEntries prepared bindings) prepared.generated [] bindings)

theorem Checked.not_escapes {prepared : Prepared N} {bindings : List Binding}
    (h : Checked js prepared bindings) : ¬ Escapes js prepared bindings := by
  intro hescapes
  cases hescapes with
  | binding hat => exact h.fits.not_untypedAt hat
  | group _ hat =>
    obtain ⟨before, entry, after, hlist, -, hnone⟩ := hat
    exact not_groupOk_of_untyped hnone (h.groups entry (by rw [hlist]; simp))
  | reference _ _ _ _ hdangles =>
    obtain ⟨before, a, after, hlist, -, hd⟩ := hdangles
    exact hd.not_clean (h.clean a (by rw [hlist]; simp))
  | visit _ _ _ _ hover => exact h.room hover
  | leaves _ _ _ _ _ hover => exact h.leavesRoom hover

/-- The checks of a filled document, in the order of `renderSubscription`. -/
def checkDocument (js : Runtime N) (prepared : Prepared N) (filled : Filled N)
    (bindings : List Binding) : Except Thrown (Members N × ℕ) := do
  let entries := byTag filled.templates prepared.generated
  let names := entries.map Prod.fst
  let result := document prepared filled
  entries.forM (checkGroup js names)
  walk names [] (.obj result)
  checkRoute names result
  let _ ← visitNames visitFaults (Panel.references js entries) (js.callDepth (utf16 "visit")) names
  let _ ← bindings.foldlM (checkScope js entries filled.selectedByGroup) []
  return (result, prepared.nodeCount)

theorem renderDocument_eq (draft : SubscriptionDraft) (snapshot : Snapshot N) :
    renderDocument js draft snapshot = (do
      let prepared ← prepare js draft snapshot
      let filled ← draft.bindings.foldlM (fillGroup js prepared.generated)
        (filledBy prepared.templates prepared.generated [])
      checkDocument js prepared filled draft.bindings) := rfl

theorem mem_finalEntries_of_fits {prepared : Prepared N} {bindings earlier : List Binding}
    {b : Binding} (h : b.Fits js prepared.templates prepared.generated earlier) :
    b.groupTag ∈ (finalEntries prepared bindings).map Prod.fst := by
  obtain ⟨outbound, type, hlookup, -, -⟩ := h.group
  rw [mem_names_iff]
  cases hfinal : (finalEntries prepared bindings).lookup b.groupTag with
  | some o => exact ⟨o, rfl⟩
  | none =>
    have hsame := sameOutbound_fillEntries prepared.generated prepared.templates bindings
    rw [lookup_none_of_same hsame hfinal] at hlookup
    cases hlookup

/-- The checks accept a filled document, or they stop as `Escapes` says, or they refuse it with an
`AppError`. -/
theorem checkDocument_spec {prepared : Prepared N} {bindings : List Binding}
    (hfits : FitAll js prepared.templates prepared.generated [] bindings) :
    (checkDocument js prepared (filledBy prepared.templates prepared.generated bindings) bindings =
        .ok (finalDocument prepared bindings, prepared.nodeCount) ∧
      Checked js prepared bindings) ∨
    (∃ e, checkDocument js prepared (filledBy prepared.templates prepared.generated bindings)
        bindings = .error e ∧ e.isApp = false ∧ Escapes js prepared bindings) ∨
    (∃ e, checkDocument js prepared (filledBy prepared.templates prepared.generated bindings)
        bindings = .error e ∧ e.isApp = true ∧ ¬ Escapes js prepared bindings ∧
        ¬ Checked js prepared bindings) := by
  have huntyped := hfits.not_untypedAt
  set names := (finalEntries prepared bindings).map Prod.fst with hnames
  set graph := references js (finalEntries prepared bindings) with hgraph
  have hstart : checkDocument js prepared
      (filledBy prepared.templates prepared.generated bindings) bindings = (do
        (finalEntries prepared bindings).forM (checkGroup js names)
        walk names [] (.obj (finalDocument prepared bindings))
        checkRoute names (finalDocument prepared bindings)
        let _ ← visitNames visitFaults graph (js.callDepth (utf16 "visit")) names
        let _ ← bindings.foldlM (checkScope js (finalEntries prepared bindings)
          (filledBy prepared.templates prepared.generated bindings).selectedByGroup) []
        return (finalDocument prepared bindings, prepared.nodeCount)) := rfl
  rw [hstart]
  rcases checkGroups_spec js names (finalEntries prepared bindings) with
    ⟨hgroups, hall, hnot⟩ | ⟨hgroups, hat⟩ | ⟨e, hgroups, happ, hnot⟩
  · rw [hgroups, ok_bind]
    cases hwalk : walk names [] (.obj (finalDocument prepared bindings)) with
    | error e =>
      have hunresolved : ¬ ReferencesResolve names (.obj (finalDocument prepared bindings)) := by
        intro href
        rw [(walk_eq_ok names [] _).2 href] at hwalk
        cases hwalk
      refine .inr (.inr ⟨e, rfl, appOnly_walk _ _ _ e hwalk, fun h => ?_,
        fun h => hunresolved h.references⟩)
      cases h with
      | binding h => exact huntyped h
      | group _ h => exact hnot h
      | reference _ _ href _ _ => exact hunresolved href
      | visit _ _ href _ _ => exact hunresolved href
      | leaves _ _ href _ _ _ => exact hunresolved href
    | ok u =>
      have href := (walk_eq_ok names [] _).1 hwalk
      rw [ok_bind]
      cases hroute : checkRoute names (finalDocument prepared bindings) with
      | error e =>
        have hunresolved : ¬ RouteResolves names (finalDocument prepared bindings) := by
          intro hresolves
          rw [checkRoute_eq_ok.2 hresolves] at hroute
          cases hroute
        refine .inr (.inr ⟨e, rfl, appOnly_checkRoute _ _ e hroute, fun h => ?_,
          fun h => hunresolved h.route⟩)
        cases h with
        | binding h => exact huntyped h
        | group _ h => exact hnot h
        | reference _ _ _ hresolves _ => exact hunresolved hresolves
        | visit _ _ _ hresolves _ => exact hunresolved hresolves
        | leaves _ _ _ hresolves _ _ => exact hunresolved hresolves
      | ok u =>
        have hresolves := checkRoute_eq_ok.1 hroute
        rw [ok_bind]
        rcases visitNames_spec visitFaults graph (js.callDepth (utf16 "visit")) names with
          ⟨visited, hvisit, hclean, hroom⟩ | ⟨hvisit, hdangles⟩ | ⟨tag, hvisit, hnotd, hroom, hcyclic⟩ |
            ⟨hvisit, hover⟩
        · rw [hvisit, ok_bind]
          have hdangles : ¬ DanglesIn graph names := by
            intro h
            obtain ⟨before, a, after, hlist, -, hd⟩ := h
            exact hd.not_clean (hclean a (by rw [hlist]; simp))
          have hselected : ∀ b ∈ bindings,
              (filledBy prepared.templates prepared.generated bindings).selectedByGroup.lookup
                b.groupTag = some (b.members prepared.generated) :=
            fun b hb => lookup_members hfits.fresh.1 hb
          have hboundClean : ∀ b ∈ bindings, Clean graph b.groupTag := by
            intro b hb
            obtain ⟨earlier, hb'⟩ := hfits.fits hb
            exact hclean _ (mem_finalEntries_of_fits hb')
          rcases checkScopes_spec hselected hboundClean Keeps.nil with
            ⟨memo, hscope, hscopes, hleaves⟩ | ⟨e, hscope, happ, hscopes, hleaves⟩ |
              ⟨hscope, hover⟩
          · rw [hscope]
            exact .inl ⟨rfl, hfits, hall, href, hresolves, hclean, hroom, hscopes, hleaves⟩
          · rw [hscope]
            refine .inr (.inr ⟨e, rfl, happ, fun h => ?_, fun h => hscopes h.scopes⟩)
            cases h with
            | binding h => exact huntyped h
            | group _ h => exact hnot h
            | reference _ _ _ _ h => exact hdangles h
            | visit _ _ _ _ h => exact hroom h
            | leaves _ _ _ _ _ h => exact hleaves h
          · rw [hscope]
            exact .inr (.inl ⟨.rangeError, rfl, rfl,
              .leaves hfits hall href hresolves hclean hover⟩)
        · rw [hvisit]
          exact .inr (.inl ⟨.typeError, rfl, rfl, .reference hfits hall href hresolves hdangles⟩)
        · rw [hvisit]
          refine .inr (.inr ⟨visitFaults.cycle tag, rfl, rfl, fun h => ?_,
            fun h => hcyclic h.clean⟩)
          cases h with
          | binding h => exact huntyped h
          | group _ h => exact hnot h
          | reference _ _ _ _ h => exact hnotd h
          | visit _ _ _ _ h => exact hroom h
          | leaves _ _ _ _ hclean _ => exact hcyclic hclean
        · rw [hvisit]
          exact .inr (.inl ⟨.rangeError, rfl, rfl, .visit hfits hall href hresolves hover⟩)
  · rw [hgroups]
    exact .inr (.inl ⟨.typeError, rfl, rfl, .group hfits hat⟩)
  · rw [hgroups]
    have hbad : ¬ ∀ x ∈ finalEntries prepared bindings, GroupOk js names x := by
      intro hall
      rw [forM_eq_ok.2 fun e he => checkGroup_eq_ok.2 (hall e he)] at hgroups
      cases hgroups
    refine .inr (.inr ⟨e, rfl, happ, fun h => ?_, fun h => hbad h.groups⟩)
    cases h with
    | binding h => exact huntyped h
    | group _ h => exact hnot h
    | reference _ hall _ _ _ => exact hbad hall
    | visit _ hall _ _ _ => exact hbad hall
    | leaves _ hall _ _ _ _ => exact hbad hall

/-- What rendering returns, once the template is read. -/
theorem renderDocument_spec {draft : SubscriptionDraft} {snapshot : Snapshot N}
    {prepared : Prepared N} (hprepare : prepare js draft snapshot = .ok prepared) :
    (renderDocument js draft snapshot =
        .ok (finalDocument prepared draft.bindings, prepared.nodeCount) ∧
      Checked js prepared draft.bindings) ∨
    (∃ e, renderDocument js draft snapshot = .error e ∧ e.isApp = false ∧
      Escapes js prepared draft.bindings) ∨
    (∃ e, renderDocument js draft snapshot = .error e ∧ e.isApp = true ∧
      ¬ Escapes js prepared draft.bindings ∧ ¬ Checked js prepared draft.bindings) := by
  have hgen := (prepare_spec hprepare).managed
  have hrender : renderDocument js draft snapshot =
      (draft.bindings.foldlM (fillGroup js prepared.generated)
        (filledBy prepared.templates prepared.generated []) >>= fun filled =>
          checkDocument js prepared filled draft.bindings) := by
    rw [renderDocument_eq, hprepare]
    rfl
  rcases fill_spec hgen [] draft.bindings with
    ⟨hfill, hfits, -⟩ | ⟨hfill, hat⟩ | ⟨e, hfill, happ, hnot⟩
  · rw [hrender, hfill]
    exact checkDocument_spec hfits
  · rw [hrender, hfill]
    exact .inr (.inl ⟨.typeError, rfl, rfl, .binding hat⟩)
  · rw [hrender, hfill]
    have hunfit : ¬ FitAll js prepared.templates prepared.generated [] draft.bindings := by
      intro hfits
      rw [fill_of_fits hgen hfits] at hfill
      cases hfill
    refine .inr (.inr ⟨e, rfl, happ, fun h => ?_, fun h => hunfit h.fits⟩)
    cases h with
    | binding h => exact hnot h
    | group hfits _ => exact hunfit hfits
    | reference hfits _ _ _ _ => exact hunfit hfits
    | visit hfits _ _ _ _ => exact hunfit hfits
    | leaves hfits _ _ _ _ _ => exact hunfit hfits

/-- A document that meets what the checks establish passes them. -/
theorem renderDocument_of_checked {draft : SubscriptionDraft} {snapshot : Snapshot N}
    {prepared : Prepared N} (hprepare : prepare js draft snapshot = .ok prepared)
    (h : Checked js prepared draft.bindings) :
    renderDocument js draft snapshot =
      .ok (finalDocument prepared draft.bindings, prepared.nodeCount) := by
  rcases renderDocument_spec hprepare with ⟨hok, -⟩ | ⟨_, -, -, hescapes⟩ | ⟨_, -, -, -, hnot⟩
  · exact hok
  · exact absurd hescapes h.not_escapes
  · exact absurd h hnot

end Bifurcation.Panel
