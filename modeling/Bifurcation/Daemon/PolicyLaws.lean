import Bifurcation.Daemon.PolicySpec

/-!
# The laws of merging

`MergeAuthorization` succeeds on valid authorizations and on configurations with one inbound of
the right type for each managed tag, and on nothing else. What it does is an assignment: it sets
the user lists of the managed inbounds. Assignments overwrite each other, so merging twice is
merging once, and the last authorization counts.

**Success** does not depend on the authorization beyond its validity, and neither does the
structure of the configuration change, which gives the overwriting laws at once.

Main result: `mergeAuthorization_laws`.
-/

namespace Bifurcation.Daemon

/-! ## Merging as an assignment -/

/-- An inbound with its new users, if it is a managed one. -/
def setUsers (auth : Authorization) (raw : Json) : Json :=
  match raw with
  | .obj inbound =>
    match managedProtocol (tagOf raw) with
    | some protocol => .obj (Json.setMember "users" (managedUsers auth protocol) inbound)
    | none => raw
  | _ => raw

theorem setUsers_managed {auth : Authorization} {inbound : List (String × Json)}
    {protocol : String} (h : managedProtocol (tagOf (.obj inbound)) = some protocol) :
    setUsers auth (.obj inbound) =
      .obj (Json.setMember "users" (managedUsers auth protocol) inbound) := by
  simp only [setUsers, h]

theorem setUsers_unmanaged {auth : Authorization} {raw : Json}
    (h : managedProtocol (tagOf raw) = none) : setUsers auth raw = raw := by
  cases raw with
  | obj inbound => simp only [setUsers, h]
  | _ => rfl

@[simp] theorem tagOf_setUsers_self (auth : Authorization) (raw : Json) :
    tagOf (setUsers auth raw) = tagOf raw := by
  cases h : managedProtocol (tagOf raw) with
  | none => rw [setUsers_unmanaged h]
  | some protocol =>
    cases raw with
    | obj inbound => rw [setUsers_managed h, tagOf_setUsers]
    | _ => rfl

/-- The users that were set last count. -/
theorem setUsers_setUsers (auth later : Authorization) (raw : Json) :
    setUsers later (setUsers auth raw) = setUsers later raw := by
  cases h : managedProtocol (tagOf raw) with
  | none => rw [setUsers_unmanaged h]
  | some protocol =>
    cases raw with
    | obj inbound =>
      have htag : managedProtocol (tagOf (.obj (Json.setMember "users"
          (managedUsers auth protocol) inbound))) = some protocol := by
        rw [tagOf_setUsers, h]
      rw [setUsers_managed h, setUsers_managed htag, setUsers_managed h, Json.setMember_setMember]
    | _ => rfl

/-! ## When merging succeeds -/

/-- An inbound the loop accepts: an object, of the type its managed tag asks for. -/
def ReadyInbound (raw : Json) : Prop :=
  ∃ inbound, raw = .obj inbound ∧ ∀ protocol, managedProtocol (tagOf raw) = some protocol →
    isText protocol (Json.lookup "type" inbound) = true

/-- The managed tags, in order. -/
def managedTags (inbounds : List Json) : List String :=
  (inbounds.map tagOf).filter fun tag => (managedProtocol tag).isSome

/-- **What the loop does.** It accepts inbounds that are ready and have no managed tag twice, and
sets their users. -/
theorem mergeInbounds_iff {auth : Authorization} {found found' : List String}
    {inbounds merged : List Json} :
    mergeInbounds auth found inbounds = some (found', merged) ↔
      (∀ raw ∈ inbounds, ReadyInbound raw) ∧ (managedTags inbounds).Nodup ∧
        (∀ tag ∈ managedTags inbounds, tag ∉ found) ∧
        found' = (managedTags inbounds).reverse ++ found ∧
        merged = inbounds.map (setUsers auth) := by
  induction inbounds generalizing found found' merged with
  | nil =>
    simp only [mergeInbounds, Option.some.injEq, Prod.mk.injEq, managedTags, List.map_nil,
      List.filter_nil, List.nodup_nil, List.reverse_nil, List.nil_append, List.not_mem_nil,
      false_implies, implies_true, true_and]
    exact and_congr eq_comm eq_comm
  | cons raw rest ih =>
    have hready : ∀ inbound, ReadyInbound (.obj inbound) ↔ ∀ protocol,
        managedProtocol (tagOf (.obj inbound)) = some protocol →
          isText protocol (Json.lookup "type" inbound) = true := by
      intro inbound
      constructor
      · intro h
        obtain ⟨inbound', heq, htype⟩ := h
        cases heq
        exact htype
      · exact fun h => ⟨inbound, rfl, h⟩
    cases raw with
    | obj inbound =>
      cases hprotocol : managedProtocol (tagOf (.obj inbound)) with
      | none =>
        -- An inbound that is not managed is passed over.
        have htags : managedTags (.obj inbound :: rest) = managedTags rest := by
          simp only [managedTags, List.map_cons, List.filter_cons, hprotocol, Option.isSome_none,
            Bool.false_eq_true, if_false]
        have hunready : ReadyInbound (.obj inbound) := (hready inbound).2 fun protocol h => by
          cases hprotocol.symm.trans h
        have hstep : mergeInbounds auth found (.obj inbound :: rest) =
            (mergeInbounds auth found rest).map fun r => (r.1, .obj inbound :: r.2) := by
          rw [mergeInbounds]
          simp only [show managedProtocol (textOf (Json.lookup "tag" inbound)) = none from hprotocol]
        rw [hstep, Option.map_eq_some_iff, htags, List.forall_mem_cons, List.map_cons,
          setUsers_unmanaged hprotocol]
        constructor
        · rintro ⟨⟨f, m⟩, hrest, heq⟩
          obtain ⟨rfl, rfl⟩ := Prod.mk.injEq .. ▸ heq
          obtain ⟨hall, hnodup, hnew, hf, hm⟩ := ih.1 hrest
          exact ⟨⟨hunready, hall⟩, hnodup, hnew, hf, by rw [hm]⟩
        · rintro ⟨⟨-, hall⟩, hnodup, hnew, rfl, rfl⟩
          exact ⟨_, ih.2 ⟨hall, hnodup, hnew, rfl, rfl⟩, rfl⟩
      | some protocol =>
        have htags : managedTags (.obj inbound :: rest) =
            tagOf (.obj inbound) :: managedTags rest := by
          simp only [managedTags, List.map_cons, List.filter_cons, hprotocol, Option.isSome_some,
            if_true]
        have hready' : ReadyInbound (.obj inbound) ↔
            isText protocol (Json.lookup "type" inbound) = true := by
          rw [hready, hprotocol]
          exact ⟨fun h => h protocol rfl, fun h p hp => Option.some.inj hp ▸ h⟩
        have hstep : mergeInbounds auth found (.obj inbound :: rest) =
            if tagOf (.obj inbound) ∈ found ∨
                ¬ isText protocol (Json.lookup "type" inbound) then none
            else (mergeInbounds auth (tagOf (.obj inbound) :: found) rest).map fun r =>
              (r.1, setUsers auth (.obj inbound) :: r.2) := by
          rw [mergeInbounds, setUsers_managed hprotocol]
          simp only [show managedProtocol (textOf (Json.lookup "tag" inbound)) = some protocol
            from hprotocol]
          rfl
        rw [hstep, htags, List.forall_mem_cons, hready', List.map_cons, List.nodup_cons,
          List.forall_mem_cons, List.reverse_cons]
        by_cases hbad : tagOf (.obj inbound) ∈ found ∨
            ¬ isText protocol (Json.lookup "type" inbound)
        · rw [if_pos hbad]
          constructor
          · intro h
            cases h
          · rintro ⟨⟨htype, -⟩, -, ⟨hfresh, -⟩, -⟩
            exact absurd hbad (not_or.2 ⟨hfresh, not_not.2 htype⟩)
        · rw [if_neg hbad, Option.map_eq_some_iff]
          rw [not_or, not_not] at hbad
          constructor
          · rintro ⟨⟨f, m⟩, hrest, heq⟩
            obtain ⟨rfl, rfl⟩ := Prod.mk.injEq .. ▸ heq
            obtain ⟨hall, hnodup, hnew, hf, hm⟩ := ih.1 hrest
            refine ⟨⟨hbad.2, hall⟩, ⟨fun hmem => hnew _ hmem List.mem_cons_self, hnodup⟩,
              ⟨hbad.1, fun tag htag hfound => hnew tag htag (List.mem_cons_of_mem _ hfound)⟩, ?_,
              by rw [hm]⟩
            rw [hf, List.append_assoc, List.singleton_append]
          · rintro ⟨⟨-, hall⟩, ⟨honce, hnodup⟩, ⟨-, hnew⟩, rfl, rfl⟩
            refine ⟨_, ih.2 ⟨hall, hnodup, fun tag htag hfound => ?_, rfl, rfl⟩, ?_⟩
            · rcases List.mem_cons.1 hfound with rfl | hfound
              · exact honce htag
              · exact hnew tag htag hfound
            · rw [List.append_assoc, List.singleton_append]
    | _ =>
      constructor
      · intro h
        cases h
      · rintro ⟨hall, -⟩
        obtain ⟨inbound, heq, -⟩ := hall _ List.mem_cons_self
        cases heq

/-- Inbounds that can be merged: objects, with exactly one for each managed tag, which has the
type of the tag. -/
structure ManagedInbounds (inbounds : List Json) : Prop where
  objects : ∀ raw ∈ inbounds, ∃ inbound, raw = .obj inbound
  managed : ∀ tag protocol, managedProtocol tag = some protocol → ∃ inbound,
    inbounds.filter (tagOf · = tag) = [.obj inbound] ∧
      isText protocol (Json.lookup "type" inbound) = true

theorem count_managedTags {inbounds : List Json} {tag : String}
    (h : (managedProtocol tag).isSome) :
    (managedTags inbounds).count tag = (inbounds.filter (tagOf · = tag)).length := by
  rw [managedTags, List.count_filter (p := fun tag => (managedProtocol tag).isSome) h, List.count,
    List.countP_map, List.countP_eq_length_filter]
  rfl

/-- The managed tags are the two there are, each once. -/
theorem managedTags_perm {inbounds : List Json} :
    (managedTags inbounds).Nodup ∧ (managedTags inbounds).length = 2 ↔
      (managedTags inbounds).Perm ["bifurcation-trojan", "bifurcation-hysteria2"] := by
  constructor
  · intro h
    obtain ⟨hnodup, hlen⟩ := h
    have hsub : managedTags inbounds ⊆ ["bifurcation-trojan", "bifurcation-hysteria2"] :=
      fun tag htag => managedProtocol_isSome (List.mem_filter.1 htag).2
    exact (hnodup.subperm hsub).perm_of_length_le (by rw [hlen]; rfl)
  · intro hperm
    exact ⟨hperm.nodup_iff.2 (by decide), hperm.length_eq⟩

/-- Both managed tags were found, once each: the inbounds can be merged. -/
theorem managedInbounds_iff {inbounds : List Json} :
    ManagedInbounds inbounds ↔ (∀ raw ∈ inbounds, ReadyInbound raw) ∧
      (managedTags inbounds).Nodup ∧ (managedTags inbounds).length = 2 := by
  rw [managedTags_perm]
  have htags : ∀ {tag protocol}, managedProtocol tag = some protocol →
      tag ∈ ["bifurcation-trojan", "bifurcation-hysteria2"] := fun h =>
    managedProtocol_isSome (by rw [h]; rfl)
  constructor
  · intro h
    refine ⟨fun raw hraw => ?_, List.perm_iff_count.2 fun tag => ?_⟩
    · obtain ⟨inbound, rfl⟩ := h.objects raw hraw
      refine ⟨inbound, rfl, fun protocol hprotocol => ?_⟩
      obtain ⟨inbound', hfilter, htype⟩ := h.managed _ protocol hprotocol
      have hmem : Json.obj inbound ∈ inbounds.filter (tagOf · = tagOf (.obj inbound)) :=
        List.mem_filter.2 ⟨hraw, decide_eq_true rfl⟩
      rw [hfilter, List.mem_singleton] at hmem
      cases hmem
      exact htype
    · cases hprotocol : managedProtocol tag with
      | none =>
        have hout : tag ∉ managedTags inbounds := fun hmem => by
          have hsome := (List.mem_filter.1 hmem).2
          rw [hprotocol] at hsome
          exact nomatch hsome
        have hout' : tag ∉ ["bifurcation-trojan", "bifurcation-hysteria2"] := by
          intro hmem
          simp only [List.mem_cons, List.not_mem_nil, or_false] at hmem
          rcases hmem with rfl | rfl
          · exact nomatch hprotocol
          · exact nomatch hprotocol
        rw [List.count_eq_zero.2 hout, List.count_eq_zero.2 hout']
      | some protocol =>
        obtain ⟨inbound, hfilter, -⟩ := h.managed tag protocol hprotocol
        rw [count_managedTags (by rw [hprotocol]; rfl), hfilter,
          List.count_eq_one_of_mem (by decide) (htags hprotocol)]
        rfl
  · intro h
    obtain ⟨hready, hperm⟩ := h
    refine ⟨fun raw hraw => ?_, fun tag protocol hprotocol => ?_⟩
    · obtain ⟨inbound, heq, -⟩ := hready raw hraw
      exact ⟨inbound, heq⟩
    · have hone : (inbounds.filter (tagOf · = tag)).length = 1 := by
        rw [← count_managedTags (by rw [hprotocol]; rfl), hperm.count_eq,
          List.count_eq_one_of_mem (by decide) (htags hprotocol)]
      obtain ⟨raw, hfilter⟩ := List.length_eq_one_iff.1 hone
      have hmem : raw ∈ inbounds.filter (tagOf · = tag) := hfilter ▸ List.mem_singleton_self raw
      obtain ⟨hraw, htag⟩ := List.mem_filter.1 hmem
      obtain ⟨inbound, rfl, htype⟩ := hready raw hraw
      exact ⟨inbound, hfilter, htype protocol (of_decide_eq_true htag ▸ hprotocol)⟩

/-- Merging a tree succeeds on managed inbounds, whatever the authorization, and sets their
users. -/
theorem mergeTree_iff {auth : Authorization} {config merged : List (String × Json)} :
    mergeTree auth config = some merged ↔ ∃ inbounds,
      Json.lookup "inbounds" config = some (.arr inbounds) ∧ ManagedInbounds inbounds ∧
        merged = Json.setMember "inbounds" (.arr (inbounds.map (setUsers auth))) config := by
  constructor
  · intro h
    obtain ⟨inbounds, found, merged', hlookup, hloop, hlen, rfl⟩ := mergeTree_eq_some h
    obtain ⟨hready, hnodup, -, rfl, rfl⟩ := mergeInbounds_iff.1 hloop
    rw [List.append_nil, List.length_reverse] at hlen
    exact ⟨inbounds, hlookup, managedInbounds_iff.2 ⟨hready, hnodup, hlen⟩, rfl⟩
  · intro h
    obtain ⟨inbounds, hlookup, hmanaged, rfl⟩ := h
    obtain ⟨hready, hnodup, hlen⟩ := managedInbounds_iff.1 hmanaged
    have hloop : mergeInbounds auth [] inbounds =
        some ((managedTags inbounds).reverse, inbounds.map (setUsers auth)) :=
      mergeInbounds_iff.2 ⟨hready, hnodup, fun _ _ => List.not_mem_nil, by rw [List.append_nil],
        rfl⟩
    simp only [mergeTree, hlookup, hloop, Option.bind_eq_bind, Option.bind_some,
      List.length_reverse, hlen, if_true]

/-- Setting users keeps inbounds managed. -/
theorem ManagedInbounds.setUsers {inbounds : List Json} (h : ManagedInbounds inbounds)
    (auth : Authorization) : ManagedInbounds (inbounds.map (setUsers auth)) := by
  obtain ⟨hready, hnodup, hlen⟩ := managedInbounds_iff.1 h
  have htags : managedTags (inbounds.map (Daemon.setUsers auth)) = managedTags inbounds := by
    rw [managedTags, List.map_map, managedTags]
    congr 1
    exact List.map_congr_left fun raw _ => tagOf_setUsers_self auth raw
  refine managedInbounds_iff.2 ⟨fun raw' hraw' => ?_, htags ▸ hnodup, htags ▸ hlen⟩
  obtain ⟨raw, hraw, rfl⟩ := List.mem_map.1 hraw'
  obtain ⟨inbound, rfl, htype⟩ := hready raw hraw
  cases hprotocol : managedProtocol (tagOf (.obj inbound)) with
  | none =>
    rw [setUsers_unmanaged hprotocol]
    exact ⟨inbound, rfl, htype⟩
  | some protocol =>
    rw [setUsers_managed hprotocol]
    refine ⟨_, rfl, fun protocol' hprotocol' => ?_⟩
    rw [tagOf_setUsers] at hprotocol'
    rw [Json.lookup_setMember, if_neg (by decide)]
    exact htype protocol' hprotocol'

/-- **The last authorization counts**, on trees. -/
theorem mergeTree_mergeTree {auth : Authorization} {config merged : List (String × Json)}
    (h : mergeTree auth config = some merged) (later : Authorization) :
    mergeTree later merged = mergeTree later config := by
  obtain ⟨inbounds, hlookup, hmanaged, rfl⟩ := mergeTree_iff.1 h
  have hcomp : (setUsers later ∘ setUsers auth) = setUsers later := by
    funext raw
    exact setUsers_setUsers auth later raw
  have hconfig : mergeTree later config = some (Json.setMember "inbounds"
      (.arr (inbounds.map (setUsers later))) config) :=
    mergeTree_iff.2 ⟨inbounds, hlookup, hmanaged, rfl⟩
  rw [hconfig, mergeTree_iff]
  refine ⟨inbounds.map (setUsers auth), ?_, hmanaged.setUsers auth, ?_⟩
  · rw [Json.lookup_setMember, if_pos rfl]
  · rw [List.map_map, hcomp, Json.setMember_setMember]

/-! ## Valid documents -/

/-- An authorization document that is valid: its fields decode, its revision is positive and its
version is 1, and its users have distinct ids, without `>`, and secrets for both protocols. -/
def ValidAuthorization (data : Bytes) : Prop :=
  ∃ tree auth revision, Json.parse data = some tree ∧ decodeAuthorization tree = some auth ∧
    parseInt64 auth.policyRevision = some revision ∧ 1 ≤ revision ∧ auth.version = 1 ∧
    (auth.list.map (·.id)).Nodup ∧ ∀ user ∈ auth.list, user.id ≠ "" ∧ '>' ∉ user.id.toList ∧
      user.trojanPassword ≠ "" ∧ user.hysteria2Password ≠ ""

/-- The loop over the users refuses what is not valid. -/
theorem validUsers_iff {seen : List String} {users : List AuthorizedUser} :
    validUsers seen users = true ↔ (users.map (·.id)).Nodup ∧ ∀ user ∈ users,
      user.id ∉ seen ∧ user.id ≠ "" ∧ '>' ∉ user.id.toList ∧ user.trojanPassword ≠ "" ∧
        user.hysteria2Password ≠ "" := by
  induction users generalizing seen with
  | nil => simp [validUsers]
  | cons user users ih =>
    rw [List.map_cons, List.nodup_cons, List.forall_mem_cons]
    simp only [validUsers, Bool.and_eq_true, decide_eq_true_eq, ih, List.mem_cons, not_or]
    constructor
    · rintro ⟨⟨⟨⟨⟨hid, hmark⟩, hseen⟩, htrojan⟩, hhysteria2⟩, hnodup, hall⟩
      refine ⟨⟨fun hmem => ?_, hnodup⟩, ⟨hseen, hid, hmark, htrojan, hhysteria2⟩,
        fun u hu => ⟨(hall u hu).1.2, (hall u hu).2⟩⟩
      obtain ⟨u, hu, heq⟩ := List.mem_map.1 hmem
      exact (hall u hu).1.1 heq
    · rintro ⟨⟨honce, hnodup⟩, ⟨hseen, hid, hmark, htrojan, hhysteria2⟩, hall⟩
      refine ⟨⟨⟨⟨⟨hid, hmark⟩, hseen⟩, htrojan⟩, hhysteria2⟩, hnodup, fun u hu =>
        ⟨⟨fun heq => honce (heq ▸ List.mem_map_of_mem hu), (hall u hu).1⟩, (hall u hu).2⟩⟩

theorem validAuthorization_iff {data : Bytes} :
    ValidAuthorization data ↔ ∃ auth, parseAuthorization data = some auth := by
  constructor
  · intro h
    obtain ⟨tree, auth, revision, htree, hauth, hrev, hle, hversion, hnodup, hall⟩ := h
    have hbad : ¬ (revision < 1 ∨ auth.version ≠ 1) :=
      not_or.2 ⟨not_lt.2 hle, not_not.2 hversion⟩
    have hvalid : validUsers [] auth.list = true :=
      validUsers_iff.2 ⟨hnodup, fun user hu => ⟨List.not_mem_nil, hall user hu⟩⟩
    exact ⟨_, by
      simp only [parseAuthorization, htree, hauth, hrev, Option.bind_eq_bind, Option.bind_some,
        if_neg hbad, if_pos hvalid]
      rfl⟩
  · rintro ⟨⟨auth, revision, canonical⟩, h⟩
    obtain ⟨hrev, hle, hversion, hvalid, -⟩ := parseAuthorization_eq_some h
    simp only [parseAuthorization, Option.bind_eq_bind, Option.bind_eq_some_iff] at h
    obtain ⟨tree, htree, auth', hauth, revision', hrev', h⟩ := h
    split_ifs at h
    cases h
    obtain ⟨hnodup, hall⟩ := validUsers_iff.1 hvalid
    exact ⟨tree, auth, revision, htree, hauth, hrev, hle, hversion, hnodup,
      fun user hu => (hall user hu).2⟩

/-- One JSON object of at most 4 MiB with managed inbounds. -/
def ManagedConfig (config : Bytes) (members : List (String × Json)) : Prop :=
  config.length ≤ 4 * 2 ^ 20 ∧ Json.parseText config = some (.obj members) ∧
    ∃ inbounds, Json.lookup "inbounds" (Json.normalizeMembers members) = some (.arr inbounds) ∧
      ManagedInbounds inbounds

/-- A configuration that can be merged: the object is not nested too deep to be read. -/
def Mergeable (config : Bytes) : Prop :=
  ∃ members, ManagedConfig config members ∧ (Json.obj members).depth ≤ Json.maxNesting

theorem decodeConfig_iff {data : Bytes} {config : List (String × Json)} :
    decodeConfig data = some config ↔ data.length ≤ 4 * 2 ^ 20 ∧
      ∃ members, Json.parse data = some (.obj members) ∧
        config = Json.normalizeMembers members := by
  have hempty : Json.parse [] = none := by decide
  simp only [decodeConfig, Option.bind_eq_bind]
  by_cases hsize : data.length = 0 ∨ data.length > 4 * 2 ^ 20
  · rw [if_pos hsize]
    constructor
    · intro h
      cases h
    · rintro ⟨hle, members, hparse, -⟩
      rcases hsize with hnil | hlong
      · rw [List.length_eq_zero_iff.1 hnil, hempty] at hparse
        cases hparse
      · omega
  · rw [if_neg hsize]
    rw [not_or, not_lt] at hsize
    cases Json.parse data with
    | none => simp
    | some tree =>
      cases tree with
      | obj members =>
        simp only [Option.bind_some, Option.some.injEq, Json.obj.injEq, exists_eq_left', hsize.2,
          true_and]
        exact eq_comm
      | _ => simp

/-- **When merging succeeds.** -/
theorem mergeAuthorization_eq_some {config authorization merged : Bytes} :
    mergeAuthorization config authorization = some merged ↔
      ∃ auth revision canonical tree result,
        parseAuthorization authorization = some (auth, revision, canonical) ∧
        decodeConfig config = some tree ∧ mergeTree auth tree = some result ∧
        merged = Json.print (.obj result) := by
  simp only [mergeAuthorization, Option.bind_eq_bind, Option.bind_eq_some_iff, Option.some.injEq]
  constructor
  · rintro ⟨⟨auth, revision, canonical⟩, hauth, tree, htree, result, hresult, rfl⟩
    exact ⟨auth, revision, canonical, tree, result, hauth, htree, hresult, rfl⟩
  · rintro ⟨auth, revision, canonical, tree, result, hauth, htree, hresult, rfl⟩
    exact ⟨⟨auth, revision, canonical⟩, hauth, tree, htree, result, hresult, rfl⟩

/-! ## The laws -/

/-- The result of a merge: the managed inbounds list the users of the authorization, and
everything else is as it was. -/
structure MergedFrom (auth : Authorization) (config result : List (String × Json)) : Prop where
  others : ∀ k, k ≠ "inbounds" → Json.lookup k result = Json.lookup k config
  inbounds : ∃ before after, Json.lookup "inbounds" config = some (.arr before) ∧
    Json.lookup "inbounds" result = some (.arr after) ∧ after.length = before.length ∧
    (∀ tag protocol, managedProtocol tag = some protocol →
      ∃ raw, after.filter (tagOf · = tag) = [raw] ∧ ManagedBy auth protocol raw) ∧
    ∀ (i : ℕ) (raw raw' : Json), before[i]? = some raw → after[i]? = some raw' →
      (managedProtocol (tagOf raw) = none → raw' = raw) ∧
      ((managedProtocol (tagOf raw)).isSome → ∃ inbound inbound', raw = .obj inbound ∧
        raw' = .obj inbound' ∧
        ∀ k, k ≠ "users" → Json.lookup k inbound' = Json.lookup k inbound)

theorem mergedFrom_of_mergeTree {auth : Authorization} {config result : List (String × Json)}
    (h : mergeTree auth config = some result) : MergedFrom auth config result := by
  obtain ⟨after', hafter, hlists⟩ := lists_mergeTree h
  obtain ⟨before, hbefore, hmanaged, rfl⟩ := mergeTree_iff.1 h
  have hset : Json.lookup "inbounds" (Json.setMember "inbounds"
      (.arr (before.map (setUsers auth))) config) = some (.arr (before.map (setUsers auth))) := by
    rw [Json.lookup_setMember, if_pos rfl]
  cases hset.symm.trans hafter
  refine ⟨fun k hk => ?_, before, _, hbefore, hset, List.length_map _, hlists,
    fun i raw raw' hraw hraw' => ⟨fun hnone => ?_, fun hsome => ?_⟩⟩
  · rw [Json.lookup_setMember, if_neg (Ne.symm hk)]
  · rw [List.getElem?_map, hraw, Option.map_some, setUsers_unmanaged hnone] at hraw'
    exact (Option.some.inj hraw').symm
  · obtain ⟨protocol, hprotocol⟩ := Option.isSome_iff_exists.1 hsome
    obtain ⟨inbound, rfl⟩ := hmanaged.objects raw (List.mem_of_getElem? hraw)
    rw [List.getElem?_map, hraw, Option.map_some, setUsers_managed hprotocol] at hraw'
    refine ⟨inbound, _, rfl, (Option.some.inj hraw').symm, fun k hk => ?_⟩
    rw [Json.lookup_setMember, if_neg (Ne.symm hk)]

/-- **Merging overwrites exactly the managed users.** A result lists the users of the
authorization in the managed inbounds and keeps everything else; while a result can be read back,
merging it again changes nothing and a later authorization overwrites it; and merging fails
exactly on invalid authorizations and on configurations without managed inbounds. -/
theorem mergeAuthorization_laws (config authorization : Bytes) :
    (∀ merged, mergeAuthorization config authorization = some merged →
      ∃ auth revision canonical tree result,
        parseAuthorization authorization = some (auth, revision, canonical) ∧
        decodeConfig config = some tree ∧ Json.parse merged = some (.obj result) ∧
        MergedFrom auth tree result) ∧
    (∀ merged, mergeAuthorization config authorization = some merged →
      merged.length ≤ 4 * 2 ^ 20 →
      mergeAuthorization merged authorization = some merged ∧
        ∀ later, mergeAuthorization merged later = mergeAuthorization config later) ∧
    (mergeAuthorization config authorization = none ↔
      ¬ ValidAuthorization authorization ∨ ¬ Mergeable config) := by
  have hoverwrite : ∀ merged, mergeAuthorization config authorization = some merged →
      merged.length ≤ 4 * 2 ^ 20 →
      ∀ later, mergeAuthorization merged later = mergeAuthorization config later := by
    intro merged h hlen later
    obtain ⟨auth, revision, canonical, tree, result, hauth, htree, hresult, rfl⟩ :=
      mergeAuthorization_eq_some.1 h
    have hread := decodeConfig_of_print
      (configTree_mergeTree (configTree_of_decode htree) hresult) hlen
    simp only [mergeAuthorization, hread, htree, Option.bind_eq_bind, Option.bind_some,
      mergeTree_mergeTree hresult]
  refine ⟨fun merged h => ?_, fun merged h hlen => ?_, ?_⟩
  · obtain ⟨auth, revision, canonical, tree, result, hauth, htree, hresult, rfl⟩ :=
      mergeAuthorization_eq_some.1 h
    have hconfig := configTree_mergeTree (configTree_of_decode htree) hresult
    exact ⟨auth, revision, canonical, tree, result, hauth, htree,
      Json.parse_print hconfig.wf hconfig.shallow, mergedFrom_of_mergeTree hresult⟩
  · have hlater := hoverwrite merged h hlen
    exact ⟨(hlater authorization).trans h, hlater⟩
  · rw [← not_and_or, ← not_iff_not, not_not, ← ne_eq, Option.ne_none_iff_exists']
    constructor
    · rintro ⟨merged, h⟩
      obtain ⟨auth, revision, canonical, tree, result, hauth, htree, hresult, -⟩ :=
        mergeAuthorization_eq_some.1 h
      obtain ⟨hlen, members, hparse, rfl⟩ := decodeConfig_iff.1 htree
      obtain ⟨inbounds, hlookup, hmanaged, -⟩ := mergeTree_iff.1 hresult
      exact ⟨validAuthorization_iff.2 ⟨_, hauth⟩, members,
        ⟨hlen, (Option.filter_eq_some_iff.1 hparse).1, inbounds, hlookup, hmanaged⟩,
        Json.depth_of_parse hparse⟩
    · rintro ⟨hvalid, members, ⟨hlen, htext, inbounds, hlookup, hmanaged⟩, hdepth⟩
      obtain ⟨⟨auth, revision, canonical⟩, hauth⟩ := validAuthorization_iff.1 hvalid
      have hparse : Json.parse config = some (.obj members) :=
        Option.filter_eq_some_iff.2 ⟨htext, decide_eq_true hdepth⟩
      exact ⟨_, mergeAuthorization_eq_some.2 ⟨auth, revision, canonical, _, _, hauth,
        decodeConfig_iff.2 ⟨hlen, members, hparse, rfl⟩,
        mergeTree_iff.2 ⟨inbounds, hlookup, hmanaged, rfl⟩, rfl⟩⟩

/-! ## The limit on the nesting -/

/-- Arrays in arrays. -/
def nestedArrays : ℕ → Json
  | 0 => .arr []
  | n + 1 => .arr [nestedArrays n]

theorem nestedArrays_spec (n : ℕ) : (nestedArrays n).depth = n + 1 ∧ Json.WF (nestedArrays n) ∧
    Json.Normal (nestedArrays n) ∧ (Json.printValue (nestedArrays n)).length = 2 * (n + 1) := by
  induction n with
  | zero => exact ⟨rfl, trivial, trivial, rfl⟩
  | succ n ih =>
    obtain ⟨hdepth, hwf, hnormal, hlen⟩ := ih
    refine ⟨?_, ⟨hwf, trivial⟩, ⟨hnormal, trivial⟩, ?_⟩
    · show max (nestedArrays n).depth 0 + 1 = n + 2
      rw [hdepth]
      rfl
    · simp only [nestedArrays, Json.printValue, Json.printItems, Json.printMoreItems,
        List.length_cons, List.length_append, List.length_nil, hlen]
      omega

/-- The two managed inbounds. -/
def bareInbounds : List Json :=
  [.obj [("tag", .str "bifurcation-trojan"), ("type", .str "trojan")],
    .obj [("tag", .str "bifurcation-hysteria2"), ("type", .str "hysteria2")]]

/-- Managed inbounds beside a nested value. -/
def deepMembers (n : ℕ) : List (String × Json) :=
  [("inbounds", .arr bareInbounds), ("nested", nestedArrays n)]

/-- An authorization without users. -/
def nobody : Authorization := ⟨1, "1", some []⟩

theorem managedInbounds_bare : ManagedInbounds bareInbounds := by
  have hmerges : (mergeTree nobody [("inbounds", .arr bareInbounds)]).isSome = true := by
    decide +kernel
  obtain ⟨merged, hmerged⟩ := Option.isSome_iff_exists.1 hmerges
  obtain ⟨inbounds, hlookup, hmanaged, -⟩ := mergeTree_iff.1 hmerged
  rw [Json.lookup_cons, if_pos rfl] at hlookup
  cases hlookup
  exact hmanaged

/-- Managed inbounds beside a value that is nested too deep cannot be merged. -/
theorem deepMembers_unmerged {n : ℕ} (hdeep : Json.maxNesting ≤ n) (hshort : n ≤ 100000) :
    ManagedConfig (Json.print (.obj (deepMembers n))) (deepMembers n) ∧
      ∀ authorization, mergeAuthorization (Json.print (.obj (deepMembers n))) authorization = none := by
  obtain ⟨hdepth, hwf, hnormal, hlen⟩ := nestedArrays_spec n
  have hmembers : Json.WF (.obj (deepMembers n)) := ⟨by
    simp only [bareInbounds, Json.WFMember, Json.WF, Json.WFItems, Json.WFMembers, and_self],
    hwf, trivial⟩
  have hsize : (Json.print (.obj (deepMembers n))).length ≤ 4 * 2 ^ 20 := by
    have hbytes := encodeRunes_length_le (Json.printValue (.obj (deepMembers n)))
    have hinbounds : (Json.printMember ("inbounds", .arr bareInbounds)).length ≤ 1000 := by
      decide +kernel
    have hname : (Json.printString "nested").length = 8 := by decide +kernel
    have hnested : (Json.printMember ("nested", nestedArrays n)).length =
        8 + (2 * (n + 1) + 1) := by
      rw [Json.printMember, List.length_append, List.length_cons, hname, hlen]
    have htext : (Json.printValue (.obj (deepMembers n))).length ≤ 300000 := by
      simp only [deepMembers, Json.printValue, Json.printMembers, Json.printMoreMembers,
        List.length_cons, List.length_append, List.length_nil]
      omega
    exact hbytes.trans (by omega)
  have hsame : Json.normalizeMembers (deepMembers n) = deepMembers n := by
    refine Json.normalizeMembers_of_normal _ ⟨?_, hnormal, trivial⟩ ?_
    · have hsorted : ["tag", "type"].Pairwise (· < ·) := by decide
      simp only [bareInbounds, Json.NormalMember, Json.Normal, Json.NormalItems,
        Json.NormalMembers, and_self, and_true]
      exact ⟨hsorted, hsorted⟩
    · have hnames : ["inbounds", "nested"].Pairwise (· < ·) := by decide
      exact hnames
  refine ⟨⟨hsize, Json.parseText_print hmembers, bareInbounds, ?_, managedInbounds_bare⟩,
    fun authorization => ?_⟩
  · rw [hsame, deepMembers, Json.lookup_cons, if_pos rfl]
  · by_contra hsome
    obtain ⟨merged, hmerged⟩ := Option.ne_none_iff_exists'.1 hsome
    obtain ⟨auth, revision, canonical, tree, result, -, htree, -⟩ :=
      mergeAuthorization_eq_some.1 hmerged
    obtain ⟨-, members, hparse, -⟩ := decodeConfig_iff.1 htree
    have htext := (Option.filter_eq_some_iff.1 hparse).1
    obtain rfl : deepMembers n = members :=
      Json.obj.inj (Option.some.inj ((Json.parseText_print hmembers).symm.trans htext))
    have hlimit := Json.depthMembers_le.1 (Nat.le_sub_one_of_lt (Json.depth_of_parse hparse))
      ("nested", nestedArrays n) (List.mem_cons_of_mem _ List.mem_cons_self)
    rw [hdepth] at hlimit
    unfold Json.maxNesting at hlimit hdeep
    omega

/-- Merging also fails on one JSON object of less than 4 MiB with managed inbounds. -/
theorem merge_nested :
    ¬ ∀ config authorization, mergeAuthorization config authorization = none ↔
      ¬ ValidAuthorization authorization ∨ ¬ ∃ members, ManagedConfig config members := by
  intro hall
  obtain ⟨hmanaged, hnone⟩ := deepMembers_unmerged (n := 10000) (by decide) (by decide)
  have hauth : parseAuthorization (Json.print nobody.json) = some (nobody, 1, _) :=
    parseAuthorization_print (by decide +kernel) le_rfl rfl rfl
  rcases (hall _ _).1 (hnone (Json.print nobody.json)) with hinvalid | hmissing
  · exact hinvalid (validAuthorization_iff.2 ⟨_, hauth⟩)
  · exact hmissing ⟨_, hmanaged⟩

end Bifurcation.Daemon
