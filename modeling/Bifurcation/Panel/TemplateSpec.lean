import Bifurcation.Panel.Template

/-!
# What the stages of rendering establish

One lemma for each stage of `renderSubscription`: what holds when it succeeds, and which errors it
fails with. A stage that fails otherwise than with an `AppError` converts a value without a string
form, or meets a reference that names nothing.
-/

namespace Bifurcation.Panel

open Javascript DepthFirst

variable {N : Type} {js : Runtime N}

/-- The computation fails with an `AppError` only. -/
abbrev AppOnly {α : Type} (x : Except Thrown α) : Prop := Throws (fun e => e.isApp = true) x

theorem isApp_invalid (path : JsString) (message : String) :
    (invalid path message).isApp = true := rfl

theorem appOnly_failIf {c : Prop} [Decidable c] (path : JsString) (message : String) :
    AppOnly (failIf c (invalid path message)) := throws_failIf (isApp_invalid path message)

theorem appOnly_invalid {α : Type} (path : JsString) (message : String) :
    AppOnly (.error (invalid path message) : Except Thrown α) :=
  throws_error (isApp_invalid path message)

/-! ## Reading the template -/

theorem object_eq_ok {value : Option (JsValue N)} {path : JsString} {members : Members N} :
    object value path = .ok members ↔ value = some (.obj members) := by
  rcases value with _ | _ | _ | _ | _ | _ | _ <;> simp [object]

theorem appOnly_object (value : Option (JsValue N)) (path : JsString) :
    AppOnly (object value path) := by
  rcases value with _ | _ | _ | _ | _ | _ | _ <;>
    first | exact throws_ok _ | exact appOnly_invalid _ _

mutual

theorem appOnly_bound (depth size : ℕ) : (v : JsValue N) → AppOnly (bound depth size v)
  | .arr items => (appOnly_failIf _ _).bind fun _ _ => appOnly_boundItems _ _ items
  | .obj members => (appOnly_failIf _ _).bind fun _ _ => appOnly_boundMembers _ _ members
  | .null => (appOnly_failIf _ _).bind fun _ _ => throws_ok _
  | .bool _ => (appOnly_failIf _ _).bind fun _ _ => throws_ok _
  | .num _ => (appOnly_failIf _ _).bind fun _ _ => throws_ok _
  | .str _ => (appOnly_failIf _ _).bind fun _ _ => throws_ok _

theorem appOnly_boundItems (depth size : ℕ) :
    (vs : List (JsValue N)) → AppOnly (boundItems depth size vs)
  | [] => throws_ok size
  | v :: vs => (appOnly_bound depth size v).bind fun _ _ => appOnly_boundItems depth _ vs

theorem appOnly_boundMembers (depth size : ℕ) :
    (ms : List (JsString × JsValue N)) → AppOnly (boundMembers depth size ms)
  | [] => throws_ok size
  | (_, v) :: ms => (appOnly_bound depth size v).bind fun _ _ => appOnly_boundMembers depth _ ms

end

/-! ## Entries by tag -/

theorem lookup_cons' {β : Type} (e : JsString × β) (es : List (JsString × β)) (tag : JsString) :
    (e :: es).lookup tag = if e.1 = tag then some e.2 else es.lookup tag := by
  obtain ⟨k, v⟩ := e
  rw [List.lookup_cons]
  by_cases h : k = tag
  · simp [h]
  · have hbeq : (tag == k) = false := by simpa using fun h' => h h'.symm
    simp [h, hbeq]

theorem lookup_setEntry (tag other : JsString) (outbound : Members N) (es : Entries N) :
    (setEntry tag outbound es).lookup other =
      if tag = other then some outbound else es.lookup other := by
  induction es with
  | nil => simp [setEntry, lookup_cons']
  | cons e es ih =>
    unfold setEntry
    by_cases he : e.1 = tag
    · rw [if_pos he, lookup_cons', lookup_cons']
      by_cases hk : tag = other
      · simp [hk]
      · simp [hk, he]
    · rw [if_neg he, lookup_cons', lookup_cons', ih]
      by_cases hk : e.1 = other
      · have hne : tag ≠ other := fun h => he (hk.trans h.symm)
        simp [hk, hne]
      · simp [hk]

theorem mem_names_iff {β : Type} {es : List (JsString × β)} {tag : JsString} :
    tag ∈ es.map Prod.fst ↔ ∃ o, es.lookup tag = some o := by
  induction es with
  | nil => simp
  | cons e es ih =>
    rw [lookup_cons', List.map_cons, List.mem_cons, ih]
    by_cases he : e.1 = tag
    · simp [he]
    · simp [he, Ne.symm he]

/-- The generated outbound a tag names: the last one set. -/
def generatedAt (generated : List (Generated N)) (tag : JsString) : Option (Members N) :=
  (generated.reverse.find? fun g => g.tag = tag).map Generated.outbound

theorem lookup_byTag (templates : Entries N) (generated : List (Generated N)) (tag : JsString) :
    (byTag templates generated).lookup tag =
      (generatedAt generated tag).or (templates.lookup tag) := by
  induction generated using List.reverseRecOn with
  | nil => simp [byTag, generatedAt]
  | append_singleton gs g ih =>
    have hstep : byTag templates (gs ++ [g]) = setEntry g.tag g.outbound (byTag templates gs) := by
      simp [byTag, List.foldl_append]
    rw [hstep, lookup_setEntry, ih]
    by_cases hg : g.tag = tag
    · simp [generatedAt, hg]
    · simp [generatedAt, hg]

/-- What the template's tags are, once they are read. -/
structure TagsRead (outbounds : List (Members N)) (templates : Entries N) : Prop where
  outbounds : templates.map Prod.snd = outbounds
  tags : ∀ e ∈ templates, get e.2 (utf16 "tag") = some (.str e.1)
  nodup : (templates.map Prod.fst).Nodup
  free : ∀ e ∈ templates, isReserved e.1 = false

theorem readTags_spec {outbounds : List (Members N × ℕ)} {done : List (Members N)}
    {entries templates : Entries N} (hdone : TagsRead done entries)
    (h : readTags outbounds entries = .ok templates) :
    TagsRead (done ++ outbounds.map Prod.fst) templates := by
  induction outbounds generalizing done entries with
  | nil =>
    obtain rfl : entries = templates := by simpa [readTags] using h
    simpa using hdone
  | cons x rest ih =>
    obtain ⟨outbound, index⟩ := x
    unfold readTags at h
    cases htag : get outbound (utf16 "tag") with
    | none => simp [htag] at h
    | some value =>
      cases value <;> simp only [htag, reduceCtorEq] at h
      rename_i tag
      simp only [bind_eq_ok, failIf_eq_ok, exists_const] at h
      obtain ⟨-, hfree, hnew, hrest⟩ := h
      have hfree' : isReserved tag = false := by simpa using hfree
      have hnotin : tag ∉ entries.map Prod.fst := by
        rw [mem_names_iff]
        rintro ⟨o, ho⟩
        simp [ho] at hnew
      have hnext : TagsRead (done ++ [outbound]) (entries ++ [(tag, outbound)]) := by
        refine ⟨by simp [hdone.outbounds], ?_, ?_, ?_⟩
        · intro e he
          rcases List.mem_append.1 he with he | he
          · exact hdone.tags e he
          · obtain rfl := List.mem_singleton.1 he
            exact htag
        · rw [List.map_append, List.nodup_append]
          refine ⟨hdone.nodup, by simp, ?_⟩
          intro a ha b hb hab
          obtain rfl : b = tag := by simpa using hb
          exact hnotin (hab ▸ ha)
        · intro e he
          rcases List.mem_append.1 he with he | he
          · exact hdone.free e he
          · obtain rfl := List.mem_singleton.1 he
            exact hfree'
      simpa using ih hnext hrest

theorem objects_eq_ok {value : Option (JsValue N)} {path : JsString} {outbounds : List (Members N)}
    (h : objects value path = .ok outbounds) : value = some (.arr (outbounds.map .obj)) := by
  rcases value with _ | _ | _ | _ | _ | items | _ <;> simp only [objects, reduceCtorEq] at h
  have hitems : ∀ (l : List (JsValue N × ℕ)) (out : List (Members N)),
      l.mapM (fun x => object (some x.1) (path ++ utf16 "/" ++ decimal x.2)) = .ok out →
      l.map Prod.fst = out.map JsValue.obj := by
    intro l
    induction l with
    | nil =>
      intro out hout
      obtain rfl : [] = out := by simpa [pure, Except.pure] using hout
      rfl
    | cons x l ih =>
      intro out hout
      rw [List.mapM_cons] at hout
      simp only [bind_eq_ok, pure_eq_ok] at hout
      obtain ⟨members, hx, rest, hrest, rfl⟩ := hout
      have hx' := Option.some.inj (object_eq_ok.1 hx)
      simp [hx', ih rest hrest]
  have hmap := hitems items.zipIdx outbounds h
  rw [List.zipIdx_map_fst] at hmap
  rw [hmap]

/-- What a successful preparation has read. -/
structure Reads (js : Runtime N) (draft : SubscriptionDraft) (snapshot : Snapshot N)
    (prepared : Prepared N) : Prop where
  parsed : parse js draft.templateJson = some (.obj prepared.result)
  outbounds : get prepared.result (utf16 "outbounds") =
    some (.arr ((prepared.templates.map Prod.snd).map .obj))
  tags : TagsRead (prepared.templates.map Prod.snd) prepared.templates
  generated : prepared.generated =
    (availableNodes js snapshot).flatMap (generateNode js snapshot.secrets)

theorem prepare_spec {draft : SubscriptionDraft} {snapshot : Snapshot N} {prepared : Prepared N}
    (h : prepare js draft snapshot = .ok prepared) : Reads js draft snapshot prepared := by
  simp only [prepare, bind_eq_ok, failIf_eq_ok, found_eq_ok, pure_eq_ok, exists_const] at h
  obtain ⟨-, -, parsed, hparsed, -, -, result, hresult, outbounds, houtbounds, -, templates,
    htemplates, rfl⟩ := h
  obtain rfl := Option.some.inj (object_eq_ok.1 hresult)
  have hread : TagsRead outbounds templates := by
    have hnil : TagsRead ([] : List (Members N)) [] := ⟨rfl, by simp, by simp, by simp⟩
    simpa using readTags_spec hnil htemplates
  refine ⟨hparsed, ?_, ⟨rfl, hread.tags, hread.nodup, hread.free⟩, rfl⟩
  rw [hread.outbounds]
  exact objects_eq_ok houtbounds

theorem typeText_congr {o o' : Members N} (h : get o (utf16 "type") = get o' (utf16 "type")) :
    typeText js o = typeText js o' := by
  unfold typeText
  rw [h]

theorem tag_ne_type : utf16 "tag" ≠ utf16 "type" := by decide

theorem outbounds_ne_type : utf16 "outbounds" ≠ utf16 "type" := by decide

theorem outbounds_ne_tag : utf16 "outbounds" ≠ utf16 "tag" := by decide

/-- A generated outbound has the type of its protocol and carries its tag. -/
theorem generateNode_spec {secrets : ProxySecrets} {node : ClientNode N} {g : Generated N}
    (h : g ∈ generateNode js secrets node) :
    g.node = node ∧ typeText js g.outbound = some g.protocol ∧ g.protocol ∈ protocolNames ∧
      g.tag = managedTag node.id g.protocol ∧
      get g.outbound (utf16 "tag") = some (.str g.tag) := by
  obtain ⟨outbound, -, hg⟩ := List.mem_filterMap.1 h
  cases htype : typeText js outbound with
  | none => simp [htype] at hg
  | some type =>
    by_cases hmem : type ∈ protocolNames
    · simp only [htype, if_pos hmem, Option.some.injEq] at hg
      subst hg
      refine ⟨rfl, ?_, hmem, rfl, by simp [get_set]⟩
      rw [← htype]
      exact typeText_congr (by simp [get_set, tag_ne_type])
    · simp [htype, if_neg hmem] at hg

/-- The generated outbounds are never groups. -/
def Managed (js : Runtime N) (generated : List (Generated N)) : Prop :=
  ∀ g ∈ generated, typeText js g.outbound = some g.protocol ∧ g.protocol ∈ protocolNames ∧
    get g.outbound (utf16 "tag") = some (.str g.tag) ∧ isReserved g.tag = true

theorem isReserved_managedTag (id type : JsString) : isReserved (managedTag id type) = true := by
  simp [isReserved, managedTag, List.append_assoc]

theorem Reads.managed {draft : SubscriptionDraft} {snapshot : Snapshot N}
    {prepared : Prepared N} (h : Reads js draft snapshot prepared) :
    Managed js prepared.generated := by
  intro g hg
  rw [h.generated] at hg
  obtain ⟨node, -, hg⟩ := List.mem_flatMap.1 hg
  obtain ⟨-, htype, hprotocol, htag, hget⟩ := generateNode_spec hg
  exact ⟨htype, hprotocol, hget, htag ▸ isReserved_managedTag _ _⟩

theorem protocol_not_group {type : JsString} (h : type ∈ protocolNames) : type ∉ groupNames := by
  simp only [protocolNames, List.mem_cons, List.not_mem_nil, or_false] at h
  rcases h with rfl | rfl <;> decide

/-! ## Filling the groups -/

/-- The members a binding gives its group. -/
def Binding.filling (b : Binding) (generated : List (Generated N)) : JsValue N :=
  .arr ((b.staticMembers ++ b.members generated).eraseDups.map .str)

def fillEntry (generated : List (Generated N)) (es : Entries N) (b : Binding) : Entries N :=
  match es.lookup b.groupTag with
  | some group => setEntry b.groupTag (set (utf16 "outbounds") (b.filling generated) group) es
  | none => es

/-- The template with the groups of the bindings filled. -/
def fillEntries (generated : List (Generated N)) (templates : Entries N)
    (bindings : List Binding) : Entries N := bindings.foldl (fillEntry generated) templates

/-- A filled outbound differs from the template's in its members only. -/
def SameOutbound (e e₀ : JsString × Members N) : Prop :=
  e.1 = e₀.1 ∧ ∀ key, key ≠ utf16 "outbounds" → get e.2 key = get e₀.2 key

theorem sameOutbound_setEntry {tag : JsString} {group : Members N} {value : JsValue N}
    {es es₀ : Entries N} (h : List.Forall₂ SameOutbound es es₀)
    (hgroup : es.lookup tag = some group) :
    List.Forall₂ SameOutbound (setEntry tag (set (utf16 "outbounds") value group) es) es₀ := by
  induction h with
  | nil => simp at hgroup
  | @cons e e₀ es es₀ he hes ih =>
    rw [lookup_cons'] at hgroup
    unfold setEntry
    by_cases hk : e.1 = tag
    · rw [if_pos hk] at hgroup ⊢
      obtain rfl := Option.some.inj hgroup
      refine .cons ⟨hk ▸ he.1, fun key hkey => ?_⟩ hes
      rw [get_set, if_neg (Ne.symm hkey)]
      exact he.2 key hkey
    · rw [if_neg hk] at hgroup ⊢
      exact .cons he (ih hgroup)

theorem sameOutbound_fillEntries (generated : List (Generated N)) (templates : Entries N)
    (bindings : List Binding) :
    List.Forall₂ SameOutbound (fillEntries generated templates bindings) templates := by
  have hstart : List.Forall₂ SameOutbound templates templates :=
    List.forall₂_same.2 fun _ _ => ⟨rfl, fun _ _ => rfl⟩
  suffices h : ∀ es, List.Forall₂ SameOutbound es templates →
      List.Forall₂ SameOutbound (fillEntries generated es bindings) templates from h _ hstart
  induction bindings with
  | nil => exact fun es hes => hes
  | cons b bindings ih =>
    intro es hes
    simp only [fillEntries, List.foldl_cons]
    refine ih _ ?_
    unfold fillEntry
    cases hgroup : es.lookup b.groupTag with
    | none => exact hes
    | some group => exact sameOutbound_setEntry hes hgroup

theorem names_of_same {es es₀ : Entries N} (h : List.Forall₂ SameOutbound es es₀) :
    es.map Prod.fst = es₀.map Prod.fst := by
  induction h with
  | nil => rfl
  | cons he _ ih => rw [List.map_cons, List.map_cons, he.1, ih]

theorem lookup_of_same {es es₀ : Entries N} (h : List.Forall₂ SameOutbound es es₀)
    {tag : JsString} {o : Members N} (ho : es.lookup tag = some o) :
    ∃ o₀, es₀.lookup tag = some o₀ ∧ ∀ key, key ≠ utf16 "outbounds" → get o key = get o₀ key := by
  induction h with
  | nil => simp at ho
  | @cons e e₀ es es₀ he _ ih =>
    rw [lookup_cons'] at ho ⊢
    by_cases hk : e.1 = tag
    · rw [if_pos hk] at ho
      obtain rfl := Option.some.inj ho
      exact ⟨e₀.2, by rw [if_pos (he.1 ▸ hk)], he.2⟩
    · rw [if_neg hk] at ho
      rw [if_neg (he.1 ▸ hk)]
      exact ih ho

theorem exists_same {es es₀ : Entries N} (h : List.Forall₂ SameOutbound es es₀)
    {e : JsString × Members N} (he : e ∈ es) : ∃ e₀ ∈ es₀, SameOutbound e e₀ := by
  induction h with
  | nil => simp at he
  | @cons x x₀ xs xs₀ hx _ ih =>
    rcases List.mem_cons.1 he with rfl | he
    · exact ⟨x₀, by simp, hx⟩
    · obtain ⟨e₀, he₀, hsame⟩ := ih he
      exact ⟨e₀, by simp [he₀], hsame⟩

/-- Looking up a name in the filled document and in the template gives outbounds of one type. -/
theorem typeText_of_same (js : Runtime N) {es es₀ : Entries N} {generated : List (Generated N)}
    {tag : JsString} {o : Members N} (h : List.Forall₂ SameOutbound es es₀)
    (ho : (byTag es generated).lookup tag = some o) :
    ∃ o₀, (byTag es₀ generated).lookup tag = some o₀ ∧ typeText js o = typeText js o₀ := by
  rw [lookup_byTag] at ho ⊢
  cases hgen : generatedAt generated tag with
  | some g =>
    rw [hgen] at ho
    obtain rfl := Option.some.inj ho
    exact ⟨g, rfl, rfl⟩
  | none =>
    rw [hgen] at ho
    obtain ⟨o₀, ho₀, hsame⟩ := lookup_of_same h ho
    exact ⟨o₀, ho₀, typeText_congr (hsame _ (Ne.symm outbounds_ne_type))⟩

theorem lookup_none_of_same {es es₀ : Entries N} {generated : List (Generated N)} {tag : JsString}
    (h : List.Forall₂ SameOutbound es es₀) (ho : (byTag es generated).lookup tag = none) :
    (byTag es₀ generated).lookup tag = none := by
  rw [lookup_byTag, Option.or_eq_none_iff] at ho ⊢
  refine ⟨ho.1, ?_⟩
  have hnot : tag ∉ es.map Prod.fst := by
    rw [mem_names_iff]
    rintro ⟨o, hsome⟩
    rw [ho.2] at hsome
    cases hsome
  rw [names_of_same h] at hnot
  cases hsome : es₀.lookup tag with
  | none => rfl
  | some o => exact absurd (mem_names_iff.2 ⟨o, hsome⟩) hnot

/-- The binding names a group no earlier binding names, and selects a generated outbound. -/
structure Binding.Fits (js : Runtime N) (templates : Entries N) (generated : List (Generated N))
    (earlier : List Binding) (b : Binding) : Prop where
  fresh : b.groupTag ∉ earlier.map Binding.groupTag
  group : ∃ outbound type, (byTag templates generated).lookup b.groupTag = some outbound ∧
    typeText js outbound = some type ∧ type ∈ groupNames
  selects : b.members generated ≠ []

/-- The binding names an outbound whose type has no string form. -/
structure Binding.Untyped (js : Runtime N) (templates : Entries N)
    (generated : List (Generated N)) (earlier : List Binding) (b : Binding) : Prop where
  fresh : b.groupTag ∉ earlier.map Binding.groupTag
  untyped : ∃ outbound, (byTag templates generated).lookup b.groupTag = some outbound ∧
    typeText js outbound = none

/-- The groups after some bindings. -/
def filledBy (templates : Entries N) (generated : List (Generated N)) (done : List Binding) :
    Filled N :=
  ⟨fillEntries generated templates done, done.map fun b => (b.groupTag, b.members generated)⟩

theorem lookup_filledBy {templates : Entries N} {generated : List (Generated N)}
    {done : List Binding} {tag : JsString} :
    ((filledBy templates generated done).selectedByGroup.lookup tag).isSome ↔
      tag ∈ done.map Binding.groupTag := by
  have hnames : (filledBy templates generated done).selectedByGroup.map Prod.fst =
      done.map Binding.groupTag := by simp [filledBy]
  rw [← hnames, mem_names_iff, Option.isSome_iff_exists]

theorem fillGroup_fits {templates : Entries N} {generated : List (Generated N)}
    {done : List Binding} {b : Binding} (hgen : Managed js generated)
    (h : b.Fits js templates generated done) :
    fillGroup js generated (filledBy templates generated done) b =
      .ok (filledBy templates generated (done ++ [b])) := by
  obtain ⟨hfresh, ⟨outbound, type, hlookup, htype, hgroup⟩, hselects⟩ := h
  have hsame := sameOutbound_fillEntries generated templates done
  have hnot : ¬ ((filledBy templates generated done).selectedByGroup.lookup b.groupTag).isSome :=
    fun hs => hfresh (lookup_filledBy.1 hs)
  -- The group is an outbound of the template, since the generated ones are not groups.
  cases hfound : (byTag (fillEntries generated templates done) generated).lookup b.groupTag with
  | none =>
    rw [lookup_none_of_same hsame hfound] at hlookup
    cases hlookup
  | some group =>
    obtain ⟨o₀, ho₀, htypes⟩ := typeText_of_same js hsame hfound
    obtain rfl := Option.some.inj (hlookup.symm.trans ho₀)
    have hlocal : (fillEntries generated templates done).lookup b.groupTag = some group := by
      rw [lookup_byTag] at hfound
      cases hg : generatedAt generated b.groupTag with
      | none => simpa [hg] using hfound
      | some g =>
        rw [hg] at hfound
        obtain rfl := Option.some.inj hfound
        obtain ⟨g', hg', rfl⟩ := Option.map_eq_some_iff.1 hg
        have hmem : g' ∈ generated := List.mem_reverse.1 (List.mem_of_find?_eq_some hg')
        have htype' := (hgen g' hmem).1
        rw [htypes, htype] at htype'
        obtain rfl := Option.some.inj htype'
        exact absurd hgroup (protocol_not_group (hgen g' hmem).2.1)
    have hisGroup : isGroup js group = .ok true := by
      simp [isGroup, htypes, htype, hgroup, found, bind, Except.bind, pure, Except.pure]
    have hfill : fillEntries generated templates (done ++ [b]) =
        setEntry b.groupTag (set (utf16 "outbounds") (b.filling generated) group)
          (fillEntries generated templates done) := by
      rw [fillEntries, List.foldl_append]
      show fillEntry generated (fillEntries generated templates done) b = _
      rw [fillEntry, hlocal]
    have hfound' : (byTag (filledBy templates generated done).templates generated).lookup
        b.groupTag = some group := hfound
    have hselected : (filledBy templates generated done).selectedByGroup ++
        [(b.groupTag, b.members generated)] =
        (filledBy templates generated (done ++ [b])).selectedByGroup := by simp [filledBy]
    simp only [fillGroup, hfound', found, hisGroup, failIf, if_neg hnot, if_neg hselects, bind,
      Except.bind, pure, Except.pure, Bool.true_eq_false, if_false, hselected]
    show Except.ok (Filled.mk _ _) =
      Except.ok (Filled.mk (fillEntries generated templates (done ++ [b])) _)
    rw [hfill]
    rfl

theorem fits_of_fillGroup {templates : Entries N} {generated : List (Generated N)}
    {done : List Binding} {b : Binding} {filled : Filled N}
    (h : fillGroup js generated (filledBy templates generated done) b = .ok filled) :
    b.Fits js templates generated done := by
  have hsame := sameOutbound_fillEntries generated templates done
  simp only [fillGroup, bind_eq_ok, failIf_eq_ok, found_eq_ok, pure_eq_ok, exists_const,
    isGroup] at h
  obtain ⟨hfresh, group, hgroup, _, ⟨type, htype, rfl⟩, hmem, hselects, -⟩ := h
  obtain ⟨o₀, ho₀, htypes⟩ := typeText_of_same js hsame hgroup
  refine ⟨fun hin => hfresh (lookup_filledBy.2 hin), ⟨o₀, type, ho₀, htypes ▸ htype, ?_⟩, hselects⟩
  simpa using hmem

theorem fillGroup_untyped {templates : Entries N} {generated : List (Generated N)}
    {done : List Binding} {b : Binding} (h : b.Untyped js templates generated done) :
    fillGroup js generated (filledBy templates generated done) b = .error .typeError := by
  obtain ⟨hfresh, outbound, hlookup, htype⟩ := h
  have hsame := sameOutbound_fillEntries generated templates done
  have hnot : ¬ ((filledBy templates generated done).selectedByGroup.lookup b.groupTag).isSome :=
    fun hs => hfresh (lookup_filledBy.1 hs)
  cases hfound : (byTag (filledBy templates generated done).templates generated).lookup
      b.groupTag with
  | none =>
    rw [lookup_none_of_same hsame hfound] at hlookup
    cases hlookup
  | some group =>
    obtain ⟨o₀, ho₀, htypes⟩ := typeText_of_same js hsame hfound
    obtain rfl := Option.some.inj (hlookup.symm.trans ho₀)
    simp [fillGroup, hfound, found, isGroup, htypes, htype, failIf, if_neg hnot, bind, Except.bind]

theorem fillGroup_error {templates : Entries N} {generated : List (Generated N)}
    {done : List Binding} {b : Binding} {e : Thrown}
    (h : fillGroup js generated (filledBy templates generated done) b = .error e) :
    e.isApp = true ∨ b.Untyped js templates generated done := by
  have hsame := sameOutbound_fillEntries generated templates done
  simp only [fillGroup, bind_eq_error, failIf_eq_error, found_eq_error, failIf_eq_ok, found_eq_ok,
    pure_ne_error, or_false, exists_const, isGroup, and_false] at h
  rcases h with ⟨-, rfl⟩ | ⟨hfresh, ⟨-, rfl⟩ | ⟨group, hgroup, ⟨htype, rfl⟩ | ⟨_, -, ⟨-, rfl⟩ |
    ⟨-, -, rfl⟩⟩⟩⟩
  · exact .inl rfl
  · exact .inl rfl
  · obtain ⟨o₀, ho₀, htypes⟩ := typeText_of_same js hsame hgroup
    exact .inr ⟨fun hmem => hfresh (lookup_filledBy.2 hmem), o₀, ho₀, htypes ▸ htype⟩
  · exact .inl rfl
  · exact .inl rfl

end Bifurcation.Panel
