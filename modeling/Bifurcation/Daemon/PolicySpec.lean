import Bifurcation.Daemon.Policy

/-!
# What merging an authorization guarantees

The canonical form of an authorization is read back as itself, a merged configuration is read
back as the merged tree, and its managed inbounds list exactly the users of the authorization.
-/

namespace Bifurcation.Daemon

/-! ## Canonical authorizations -/

/-- The field names match themselves only. -/
theorem sameField_names :
    sameField "id" "id" = true ∧ sameField "id" "trojanPassword" = false ∧
    sameField "id" "hysteria2Password" = false ∧
    sameField "trojanPassword" "trojanPassword" = true ∧
    sameField "trojanPassword" "hysteria2Password" = false ∧
    sameField "hysteria2Password" "hysteria2Password" = true ∧
    sameField "version" "version" = true ∧ sameField "version" "policyRevision" = false ∧
    sameField "version" "users" = false ∧ sameField "policyRevision" "policyRevision" = true ∧
    sameField "policyRevision" "users" = false ∧ sameField "users" "users" = true := by
  decide +kernel

/-- A printed user has every field: nothing is left of the element it is decoded into. -/
theorem decodeUser_json (old user : AuthorizedUser) : decodeUser old user.json = some user := by
  obtain ⟨h₁, h₂, h₃, h₄, h₅, h₆, -⟩ := sameField_names
  simp only [AuthorizedUser.json, decodeUser, List.foldlM_cons, List.foldlM_nil, decodeUserField,
    h₁, h₂, h₃, h₄, h₅, h₆, decodeString, Option.map_some, Option.bind_eq_bind, Option.bind_some,
    if_true, Bool.false_eq_true, if_false, Option.pure_def]

theorem decodeItems_json (array us : List AuthorizedUser) :
    decodeItems array (us.map AuthorizedUser.json) = some (us, array.drop us.length) := by
  induction us generalizing array with
  | nil => rfl
  | cons u us ih =>
    simp only [List.map_cons, decodeItems, decodeUser_json, ih, Option.bind_eq_bind,
      Option.bind_some, List.length_cons, List.drop_tail]

/-- The first list of a document is decoded into new elements. -/
theorem decodeUsers_json {auth : Authorization} (h : auth.users = none)
    (users : Option (List AuthorizedUser)) :
    decodeUsers ⟨auth, []⟩ (usersJson users) = some ⟨{ auth with users }, []⟩ := by
  have hlist : auth.list = [] := by rw [Authorization.list, h, Option.getD_none]
  cases users with
  | none => rfl
  | some us =>
    cases us with
    | nil => rfl
    | cons u us =>
      have hitems := decodeItems_json [] (u :: us)
      simp only [List.map_cons, List.drop_nil] at hitems
      simp only [usersJson, List.map_cons, decodeUsers, hlist, List.append_nil, hitems,
        Option.map_some]

theorem parseInt64_one : parseInt64 (toString (1 : Int)) = some 1 := by decide +kernel

theorem decodeAuthorization_json {auth : Authorization} (h : auth.version = 1) :
    decodeAuthorization auth.json = some auth := by
  obtain ⟨version, policyRevision, users⟩ := auth
  obtain rfl : version = 1 := h
  obtain ⟨-, -, -, -, -, -, h₁, h₂, h₃, h₄, h₅, h₆⟩ := sameField_names
  simp only [Authorization.json, decodeAuthorization, List.foldlM_cons, List.foldlM_nil,
    decodeField, h₁, h₂, h₃, h₄, h₅, h₆, decodeString, decodeInt, parseInt64_one, decodeUsers_json,
    Option.map_some, Option.bind_eq_bind, Option.bind_some, if_true, Bool.false_eq_true, if_false,
    Option.pure_def]

/-- A second list keeps what its users do not name. -/
example : decodeAuthorization (.obj [("users", .arr [.obj [("id", .str "ann"),
      ("trojanPassword", .str "t"), ("hysteria2Password", .str "h")]]),
    ("users", .arr [.obj [("id", .str "ben")]])]) =
    some { users := some [⟨"ben", "t", "h"⟩] } := by
  decide +kernel

theorem wf_userJson (user : AuthorizedUser) : Json.WF user.json := by
  simp only [AuthorizedUser.json, Json.WF, Json.WFMembers, Json.WFMember, and_self]

theorem wf_authorizationJson {auth : Authorization} (h : auth.version = 1) :
    Json.WF auth.json := by
  have hone : Json.WF (.num (toString (1 : Int))) := by
    have htext : toString (1 : Int) = "1" := by decide +kernel
    have hvalid : Json.validNumber "1".toList = true := by decide
    have hall : "1".toList.all Json.isNumChar = true := by decide
    rw [htext, Json.WF]
    exact ⟨hvalid, List.all_eq_true.1 hall⟩
  have husers : Json.WF (usersJson auth.users) := by
    cases auth.users with
    | none => trivial
    | some us =>
      refine Json.wfItems_iff.2 fun v hv => ?_
      obtain ⟨u, -, rfl⟩ := List.mem_map.1 hv
      exact wf_userJson u
  rw [Authorization.json, h]
  simp only [Json.WF, Json.WFMembers, Json.WFMember, and_true, true_and] at hone ⊢
  exact ⟨hone, husers⟩

/-- An authorization is nested three deep. -/
theorem depth_authorizationJson (auth : Authorization) : auth.json.depth ≤ 3 := by
  have husers : (usersJson auth.users).depth ≤ 2 := by
    cases auth.users with
    | none => decide
    | some us =>
      refine Nat.succ_le_succ (Json.depthItems_le.2 fun v hv => ?_)
      obtain ⟨u, -, rfl⟩ := List.mem_map.1 hv
      exact le_rfl
  refine Nat.succ_le_succ (Json.depthMembers_le.2 fun m hm => ?_)
  simp only [List.mem_cons, List.not_mem_nil, or_false] at hm
  rcases hm with rfl | rfl | rfl
  · exact Nat.zero_le 2
  · exact Nat.zero_le 2
  · exact husers

theorem parseAuthorization_eq_some {data canonical : Bytes} {auth : Authorization} {revision : Int}
    (h : parseAuthorization data = some (auth, revision, canonical)) :
    parseInt64 auth.policyRevision = some revision ∧ 1 ≤ revision ∧ auth.version = 1 ∧
      validUsers [] auth.list = true ∧ canonical = Json.print auth.json := by
  simp only [parseAuthorization, Option.bind_eq_bind, Option.bind_eq_some_iff] at h
  obtain ⟨tree, -, auth', -, revision', hrev, h⟩ := h
  split_ifs at h with hbad hvalid
  cases h
  rw [not_or, not_lt, not_not] at hbad
  exact ⟨hrev, hbad.1, hbad.2, hvalid, rfl⟩

theorem parseAuthorization_print {auth : Authorization} {revision : Int}
    (hrev : parseInt64 auth.policyRevision = some revision) (hle : 1 ≤ revision)
    (hversion : auth.version = 1) (hvalid : validUsers [] auth.list = true) :
    parseAuthorization (Json.print auth.json) = some (auth, revision, Json.print auth.json) := by
  have hbad : ¬ (revision < 1 ∨ auth.version ≠ 1) := by
    rw [not_or, not_lt, not_not]; exact ⟨hle, hversion⟩
  have hdepth : auth.json.depth ≤ Json.maxNesting :=
    (depth_authorizationJson auth).trans (by decide)
  simp only [parseAuthorization, Option.bind_eq_bind,
    Json.parse_print (wf_authorizationJson hversion) hdepth, Option.bind_some,
    decodeAuthorization_json hversion, hrev, if_neg hbad, if_pos hvalid]

/-- The canonical bytes are an authorization document with the same content. -/
theorem parseAuthorization_canonical {data canonical : Bytes} {auth : Authorization}
    {revision : Int} (h : parseAuthorization data = some (auth, revision, canonical)) :
    parseAuthorization canonical = some (auth, revision, canonical) := by
  obtain ⟨hrev, hle, hversion, hvalid, rfl⟩ := parseAuthorization_eq_some h
  exact parseAuthorization_print hrev hle hversion hvalid

theorem print_ne_nil {j : Json} (h : Json.WF j) : Json.print j ≠ [] := by
  obtain ⟨c, cs, hj, -⟩ := Json.head_printValue h
  have := length_le_encodeRunes (Json.printValue j)
  intro hnil
  rw [show encodeRunes (Json.printValue j) = [] from hnil, hj] at this
  simp at this

/-! ## Configuration trees -/

/-- The trees `decodeConfig` builds. -/
structure ConfigTree (config : List (String × Json)) : Prop where
  sorted : Json.Sorted config
  normal : Json.NormalMembers config
  wf : Json.WFMembers config
  shallow : Json.depthMembers config + 1 ≤ Json.maxNesting

theorem configTree_of_decode {data : Bytes} {config : List (String × Json)}
    (h : decodeConfig data = some config) : ConfigTree config := by
  simp only [decodeConfig, Option.bind_eq_bind] at h
  split_ifs at h
  obtain ⟨tree, htree, h⟩ := Option.bind_eq_some_iff.1 h
  split at h
  · next members =>
    cases h
    have hwf : Json.WFMembers members := Json.wf_of_parse htree
    have hdepth : Json.depthMembers members + 1 ≤ Json.maxNesting := Json.depth_of_parse htree
    exact ⟨Json.sorted_normalizeMembers members, Json.normalMembers_normalize members,
      Json.wfMembers_normalize members hwf,
      (Nat.succ_le_succ (Json.depthMembers_normalize members)).trans hdepth⟩
  · cases h

/-- A printed tree that is not too long is read back as itself. -/
theorem decodeConfig_of_print {config : List (String × Json)} (h : ConfigTree config)
    (hlen : (Json.print (.obj config)).length ≤ 4 * 2 ^ 20) :
    decodeConfig (Json.print (.obj config)) = some config := by
  have hparse : Json.parse (Json.print (.obj config)) = some (.obj config) :=
    Json.parse_print h.wf h.shallow
  have hne : Json.print (.obj config) ≠ [] := print_ne_nil h.wf
  have hpos : ¬ ((Json.print (.obj config)).length = 0 ∨
      (Json.print (.obj config)).length > 4 * 2 ^ 20) :=
    not_or.2 ⟨fun h0 => hne (List.length_eq_zero_iff.1 h0), not_lt.2 hlen⟩
  simp only [decodeConfig, Option.bind_eq_bind, if_neg hpos, hparse, Option.bind_some,
    Json.normalizeMembers_of_normal config h.normal h.sorted]

theorem decodeConfig_print {config config' : List (String × Json)} (h : ConfigTree config)
    (hread : decodeConfig (Json.print (.obj config)) = some config') : config' = config := by
  have hlen : (Json.print (.obj config)).length ≤ 4 * 2 ^ 20 := by
    simp only [decodeConfig] at hread
    split_ifs at hread with hbad
    exact not_lt.1 (not_or.1 hbad).2
  rw [decodeConfig_of_print h hlen] at hread
  exact (Option.some.inj hread).symm

/-! ## Merging -/

theorem configJson_managedUsers (auth : Authorization) (protocol : String) :
    Json.Normal (managedUsers auth protocol) ∧ Json.WF (managedUsers auth protocol) := by
  constructor
  · refine Json.normalItems_iff.2 fun v hv => ?_
    obtain ⟨u, -, rfl⟩ := List.mem_map.1 hv
    have hsorted : ["name", "password"].Pairwise (· < ·) := by decide
    simp only [Json.Normal, Json.NormalMembers, Json.NormalMember, and_self, and_true]
    exact hsorted
  · refine Json.wfItems_iff.2 fun v hv => ?_
    obtain ⟨u, -, rfl⟩ := List.mem_map.1 hv
    simp only [Json.WF, Json.WFMembers, Json.WFMember, and_self]

theorem depth_managedUsers (auth : Authorization) (protocol : String) :
    (managedUsers auth protocol).depth ≤ 2 := by
  refine Nat.succ_le_succ (Json.depthItems_le.2 fun v hv => ?_)
  obtain ⟨u, -, rfl⟩ := List.mem_map.1 hv
  exact le_rfl

/-- The tag of an inbound, as the merging loop reads it. -/
def tagOf : Json → String
  | .obj inbound => textOf (Json.lookup "tag" inbound)
  | _ => ""

/-- An inbound of a protocol with exactly the users of an authorization. -/
def ManagedBy (auth : Authorization) (protocol : String) (raw : Json) : Prop :=
  ∃ inbound, raw = .obj inbound ∧ isText protocol (Json.lookup "type" inbound) ∧
    Json.lookup "users" inbound = some (managedUsers auth protocol)

/-- What the merging loop leaves of the inbounds with a managed tag. -/
def MergedTag (auth : Authorization) (found found' : List String) (merged : List Json)
    (tag protocol : String) : Prop :=
  (tag ∈ found → merged.filter (tagOf · = tag) = []) ∧
  (tag ∉ found → tag ∈ found' →
    ∃ raw, merged.filter (tagOf · = tag) = [raw] ∧ ManagedBy auth protocol raw) ∧
  (tag ∉ found' → merged.filter (tagOf · = tag) = [])

theorem tagOf_setUsers (inbound : List (String × Json)) (v : Json) :
    tagOf (.obj (Json.setMember "users" v inbound)) = tagOf (.obj inbound) := by
  rw [tagOf, tagOf, Json.lookup_setMember, if_neg (by decide)]

theorem mergeInbounds_spec {auth : Authorization} {found found' : List String}
    {inbounds merged : List Json} (h : mergeInbounds auth found inbounds = some (found', merged)) :
    (∀ tag ∈ found, tag ∈ found') ∧ (found.Nodup → found'.Nodup) ∧
    (∀ tag ∈ found', tag ∈ found ∨ (managedProtocol tag).isSome) ∧
    ∀ tag protocol, managedProtocol tag = some protocol →
      MergedTag auth found found' merged tag protocol := by
  induction inbounds generalizing found found' merged with
  | nil =>
    simp only [mergeInbounds, Option.some.injEq, Prod.mk.injEq] at h
    obtain ⟨rfl, rfl⟩ := h
    exact ⟨fun _ h => h, fun h => h, fun _ h => .inl h, fun tag _ _ =>
      ⟨fun _ => rfl, fun hnot hin => absurd hin hnot, fun _ => rfl⟩⟩
  | cons raw rest ih =>
    unfold mergeInbounds at h
    split at h
    · next inbound =>
      simp only at h
      split at h
      · -- an inbound that is not managed stays as it is
        next hnone =>
        obtain ⟨⟨f, r⟩, hrest, heq⟩ := Option.map_eq_some_iff.1 h
        cases heq
        obtain ⟨hsub, hnodup, hmanaged, htags⟩ := ih hrest
        refine ⟨hsub, hnodup, hmanaged, fun tag protocol hp => ?_⟩
        have hne : tagOf (.obj inbound) ≠ tag := by
          rintro rfl
          rw [show managedProtocol (tagOf (.obj inbound)) = none from hnone] at hp
          cases hp
        obtain ⟨h₁, h₂, h₃⟩ := htags tag protocol hp
        simp only [MergedTag, List.filter_cons, hne, decide_false, Bool.false_eq_true, if_false]
        exact ⟨h₁, h₂, h₃⟩
      · next protocol' hsome =>
        split_ifs at h with hbad
        obtain ⟨⟨f, r⟩, hrest, heq⟩ := Option.map_eq_some_iff.1 h
        cases heq
        rw [not_or, not_not] at hbad
        obtain ⟨hsub, hnodup, hmanaged, htags⟩ := ih hrest
        set t := textOf (Json.lookup "tag" inbound) with ht
        have htag : tagOf (.obj (Json.setMember "users" (managedUsers auth protocol') inbound)) = t :=
          tagOf_setUsers _ _
        refine ⟨fun tag hin => hsub tag (List.mem_cons_of_mem t hin),
          fun hn => hnodup (List.nodup_cons.2 ⟨hbad.1, hn⟩), fun tag hin => ?_,
          fun tag protocol hp => ?_⟩
        · rcases hmanaged tag hin with hin | hsome'
          · rcases List.mem_cons.1 hin with rfl | hin
            · exact .inr (by rw [hsome]; rfl)
            · exact .inl hin
          · exact .inr hsome'
        · obtain ⟨h₁, h₂, h₃⟩ := htags tag protocol hp
          by_cases heq : t = tag
          · -- the one inbound of this tag
            have hrest0 := h₁ (heq ▸ List.mem_cons_self)
            have hproto : protocol' = protocol := by
              rw [heq] at hsome
              exact Option.some.inj (hsome.symm.trans hp)
            refine ⟨fun hin => absurd (heq ▸ hin) hbad.1, fun _ _ =>
              ⟨.obj (Json.setMember "users" (managedUsers auth protocol') inbound), ?_, ?_⟩,
              fun hnot => ?_⟩
            · simp only [List.filter_cons, htag, heq, decide_true, if_true, hrest0]
            · refine ⟨_, rfl, ?_, ?_⟩
              · rw [Json.lookup_setMember, if_neg (by decide), ← hproto]
                exact hbad.2
              · rw [Json.lookup_setMember, if_pos rfl, hproto]
            · exact absurd (hsub tag (heq ▸ List.mem_cons_self)) hnot
          · simp only [MergedTag, List.filter_cons, htag, heq, decide_false, Bool.false_eq_true,
              if_false]
            have hcons : tag ∈ t :: found ↔ tag ∈ found := by
              simp [List.mem_cons, Ne.symm heq]
            rw [hcons] at h₁ h₂
            exact ⟨h₁, h₂, h₃⟩
    · cases h

/-- The loop keeps well-formed inbounds well formed. -/
theorem mergeInbounds_trees {auth : Authorization} {found found' : List String}
    {inbounds merged : List Json} (h : mergeInbounds auth found inbounds = some (found', merged))
    (hnormal : Json.NormalItems inbounds) (hwf : Json.WFItems inbounds) :
    Json.NormalItems merged ∧ Json.WFItems merged := by
  induction inbounds generalizing found found' merged with
  | nil =>
    simp only [mergeInbounds, Option.some.injEq, Prod.mk.injEq] at h
    rw [← h.2]
    exact ⟨trivial, trivial⟩
  | cons raw rest ih =>
    unfold mergeInbounds at h
    split at h
    · next inbound =>
      simp only at h
      split at h
      · obtain ⟨⟨f, r⟩, hrest, heq⟩ := Option.map_eq_some_iff.1 h
        cases heq
        obtain ⟨hn, hw⟩ := ih hrest hnormal.2 hwf.2
        exact ⟨⟨hnormal.1, hn⟩, hwf.1, hw⟩
      · next protocol _ =>
        split_ifs at h
        obtain ⟨⟨f, r⟩, hrest, heq⟩ := Option.map_eq_some_iff.1 h
        cases heq
        obtain ⟨hn, hw⟩ := ih hrest hnormal.2 hwf.2
        have hinbound : Json.Sorted inbound ∧ Json.NormalMembers inbound := hnormal.1
        have hinbound' : Json.WFMembers inbound := hwf.1
        obtain ⟨hun, huw⟩ := configJson_managedUsers auth protocol
        exact ⟨⟨⟨hinbound.1.setMember "users" _, hinbound.2.setMember hun "users"⟩, hn⟩,
          hinbound'.setMember huw "users", hw⟩
    · cases h

/-- The user lists are nested no deeper than what `decodeConfig` accepts anyway. -/
theorem depth_mergeInbounds {auth : Authorization} {found found' : List String}
    {inbounds merged : List Json} {n : ℕ} (h : mergeInbounds auth found inbounds = some (found', merged))
    (hdepth : ∀ v ∈ inbounds, v.depth ≤ n) (hn : 3 ≤ n) : ∀ v ∈ merged, v.depth ≤ n := by
  induction inbounds generalizing found found' merged with
  | nil =>
    simp only [mergeInbounds, Option.some.injEq, Prod.mk.injEq] at h
    rw [← h.2]
    exact hdepth
  | cons raw rest ih =>
    rw [List.forall_mem_cons] at hdepth
    unfold mergeInbounds at h
    split at h
    · next inbound =>
      simp only at h
      split at h
      · obtain ⟨⟨f, r⟩, hrest, heq⟩ := Option.map_eq_some_iff.1 h
        cases heq
        exact List.forall_mem_cons.2 ⟨hdepth.1, ih hrest hdepth.2⟩
      · next protocol _ =>
        split_ifs at h
        obtain ⟨⟨f, r⟩, hrest, heq⟩ := Option.map_eq_some_iff.1 h
        cases heq
        have hinbound : Json.depthMembers inbound + 1 ≤ n := hdepth.1
        have husers := depth_managedUsers auth protocol
        have hset : Json.depthMembers (Json.setMember "users" (managedUsers auth protocol) inbound) ≤
            n - 1 := Json.depth_setMember (by omega) (by omega)
        refine List.forall_mem_cons.2 ⟨?_, ih hrest hdepth.2⟩
        show Json.depthMembers _ + 1 ≤ n
        omega
    · cases h

theorem mergeTree_eq_some {auth : Authorization} {config merged : List (String × Json)}
    (h : mergeTree auth config = some merged) :
    ∃ inbounds found merged', Json.lookup "inbounds" config = some (.arr inbounds) ∧
      mergeInbounds auth [] inbounds = some (found, merged') ∧ found.length = 2 ∧
      merged = Json.setMember "inbounds" (.arr merged') config := by
  unfold mergeTree at h
  split at h
  · next inbounds hlookup =>
    simp only [Option.bind_eq_bind, Option.bind_eq_some_iff] at h
    obtain ⟨⟨found, merged'⟩, hloop, h⟩ := h
    split_ifs at h with hlen
    exact ⟨inbounds, found, merged', hlookup, hloop, hlen, (Option.some.inj h).symm⟩
  · cases h

theorem configTree_mergeTree {auth : Authorization} {config merged : List (String × Json)}
    (hconfig : ConfigTree config) (h : mergeTree auth config = some merged) :
    ConfigTree merged := by
  obtain ⟨inbounds, found, merged', hlookup, hloop, -, rfl⟩ := mergeTree_eq_some h
  have hmem := Json.mem_of_lookup hlookup
  have hn : Json.NormalItems inbounds := Json.normalMembers_iff.1 hconfig.normal _ hmem
  have hw : Json.WFItems inbounds := Json.wfMembers_iff.1 hconfig.wf _ hmem
  obtain ⟨hn', hw'⟩ := mergeInbounds_trees hloop hn hw
  have hnormal : Json.Normal (.arr merged') := hn'
  have hwf : Json.WF (.arr merged') := hw'
  have hdepth : ∀ v ∈ merged', v.depth ≤ Json.maxNesting - 2 := by
    refine depth_mergeInbounds hloop ?_ (by decide)
    have hall := Json.depthMembers_le.1 (Nat.le_sub_one_of_lt hconfig.shallow) _ hmem
    exact Json.depthItems_le.1 (Nat.le_sub_one_of_lt hall)
  have harr : (Json.arr merged').depth ≤ Json.maxNesting - 1 :=
    Nat.succ_le_succ (Json.depthItems_le.2 hdepth)
  have hset := Json.depth_setMember (k := "inbounds") (Nat.le_sub_one_of_lt hconfig.shallow) harr
  exact ⟨hconfig.sorted.setMember _ _, hconfig.normal.setMember hnormal _,
    hconfig.wf.setMember hwf _, Nat.add_le_of_le_sub (by decide) hset⟩

/-- The managed inbounds of a configuration list exactly the users of an authorization: there is
one inbound for each managed tag, and its user list is that of the authorization. -/
def Lists (config : List (String × Json)) (auth : Authorization) : Prop :=
  ∃ inbounds, Json.lookup "inbounds" config = some (.arr inbounds) ∧
    ∀ tag protocol, managedProtocol tag = some protocol →
      ∃ raw, inbounds.filter (tagOf · = tag) = [raw] ∧ ManagedBy auth protocol raw

theorem managedProtocol_isSome {tag : String} (h : (managedProtocol tag).isSome) :
    tag ∈ ["bifurcation-trojan", "bifurcation-hysteria2"] := by
  unfold managedProtocol at h
  split_ifs at h with h₁ h₂
  · simp [h₁]
  · simp [h₂]
  · cases h

theorem lists_mergeTree {auth : Authorization} {config merged : List (String × Json)}
    (h : mergeTree auth config = some merged) : Lists merged auth := by
  obtain ⟨inbounds, found, merged', -, hloop, hlen, rfl⟩ := mergeTree_eq_some h
  obtain ⟨-, hnodup, hmanaged, htags⟩ := mergeInbounds_spec hloop
  -- two different managed tags were found, so both were
  have hsub : found ⊆ ["bifurcation-trojan", "bifurcation-hysteria2"] := fun tag htag =>
    managedProtocol_isSome ((hmanaged tag htag).resolve_left (List.not_mem_nil))
  have hperm : found.Perm ["bifurcation-trojan", "bifurcation-hysteria2"] :=
    ((hnodup List.nodup_nil).subperm hsub).perm_of_length_le (by rw [hlen]; rfl)
  refine ⟨merged', by rw [Json.lookup_setMember, if_pos rfl], fun tag protocol hp => ?_⟩
  have hin : tag ∈ found := hperm.mem_iff.2 (managedProtocol_isSome (by rw [hp]; rfl))
  exact (htags tag protocol hp).2.1 List.not_mem_nil hin

/-- The stored configuration lists exactly the users of the stored authorization. -/
def ConfigLists (config authorization : Bytes) : Prop :=
  ∃ tree auth revision canonical, decodeConfig config = some tree ∧
    parseAuthorization authorization = some (auth, revision, canonical) ∧ Lists tree auth

/-- A merged configuration that can be read lists the users it was merged with. -/
theorem configLists_merged {config authorization merged : Bytes}
    {tree : List (String × Json)} (h : mergeAuthorization config authorization = some merged)
    (hread : decodeConfig merged = some tree) : ConfigLists merged authorization := by
  simp only [mergeAuthorization, Option.bind_eq_bind, Option.bind_eq_some_iff,
    Option.some.injEq] at h
  obtain ⟨⟨auth, revision, canonical⟩, hauth, config', hconfig, tree', hmerge, rfl⟩ := h
  have htree := configTree_mergeTree (configTree_of_decode hconfig) hmerge
  obtain rfl := decodeConfig_print htree hread
  exact ⟨tree, auth, revision, canonical, hread, hauth, lists_mergeTree hmerge⟩

/-- A configuration that merging leaves unchanged already lists the users. -/
theorem configLists_of_unchanged {config authorization merged : Bytes}
    {original tree : List (String × Json)} (h : mergeAuthorization config authorization = some merged)
    (horiginal : decodeConfig config = some original) (hread : decodeConfig merged = some tree)
    (heq : Json.print (.obj original) = Json.print (.obj tree)) :
    ConfigLists config authorization := by
  obtain ⟨tree', auth, revision, canonical, hread', hauth, hlists⟩ := configLists_merged h hread
  obtain rfl : tree = tree' := Option.some.inj (hread.symm.trans hread')
  have hsame : (Json.obj original) = .obj tree :=
    Json.print_injective (configTree_of_decode horiginal).wf (configTree_of_decode hread).wf heq
  cases hsame
  exact ⟨original, auth, revision, canonical, horiginal, hauth, hlists⟩

end Bifurcation.Daemon
