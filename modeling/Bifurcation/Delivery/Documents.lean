import Bifurcation.Daemon.Adapter
import Bifurcation.Daemon.PolicyLaws
import Bifurcation.Lib.JsonWire
import Bifurcation.Panel.PolicyRuns
import Bifurcation.Panel.Rendering
import Bifurcation.Panel.Settings

/-!
# The daemon reads what the panel writes

The panel prints an authorization and a configuration with `JSON.stringify`; the daemon reads
them with `encoding/json` and checks them.

**Authorizations.** The daemon reads the very tree it prints itself, so the document is decoded
to what the panel meant and its canonical form depends on that only.

**Configurations.** The panel keeps the fields it manages out of the base configuration, under
their own names and under every name that reads like one. So the two managed inbounds are found,
their users are those of the authorization, merging changes nothing, and the rest asks for no
service and no control interface. What is left are the limits of the daemon: the size of the
document, the size of its merged form, and the nesting.

Main result: `published_configuration_accepted`.
-/

namespace Bifurcation.Delivery

open Javascript Panel

variable {N : Type} {js : Runtime N}

/-! ## Authorizations -/

/-- A user as the daemon reads it. -/
def receivedUser (user : AuthorizedUser) : Daemon.AuthorizedUser :=
  ⟨textOf user.id, textOf user.secrets.trojanPassword, textOf user.secrets.hysteria2Password⟩

/-- An authorization as the daemon reads it. -/
def received (authorization : AuthorizationLayer) : Daemon.Authorization :=
  ⟨1, textOf authorization.policyRevision, some (authorization.users.map receivedUser)⟩

/-- The numbers the panel writes itself: small integers, in decimal digits. -/
structure WritesIntegers (js : Runtime N) : Prop extends WritesJson js where
  integers : ∀ n, n < 2 ^ 53 → js.numberJson (js.ofNat n) = decimal n

theorem wireMembers_jsObject (members : List (String × JsValue N)) :
    wireMembers js (jsObject members) = members.map fun m => (m.1, wire js m.2) := by
  rw [wireMembers_eq_map, jsObject, List.map_map]
  refine List.map_congr_left fun m _ => ?_
  simp only [Function.comp_apply, textOf_utf16]

theorem wire_jsText (text : String) : wire js (jsText text) = .str text := by
  rw [jsText, wire, textOf_utf16]

theorem wire_jsNat (hjs : WritesIntegers js) {n : ℕ} (h : n < 2 ^ 53) :
    wire js (jsNat js n) = .num (toString n) := by
  have hne : utf16 (toString n) ≠ utf16 "null" := fun heq => by
    have hmem : 'n' ∈ (toString n).toList := by
      rw [utf16_injective heq]
      decide
    exact absurd (isDigit_of_mem_toString hmem) (by decide)
  rw [jsNat, wire, hjs.integers n h, decimal, wireNumber, if_neg hne, textOf_utf16]

/-- **The authorization is the tree the daemon prints itself.** -/
theorem wire_authorization (hjs : WritesIntegers js) (authorization : AuthorizationLayer) :
    wire js (.obj (authorization.json js)) = (received authorization).json := by
  have husers : wireItems js (authorization.users.map AuthorizedUser.json) =
      (authorization.users.map receivedUser).map Daemon.AuthorizedUser.json := by
    rw [wireItems_eq_map, List.map_map, List.map_map]
    refine List.map_congr_left fun user _ => ?_
    simp only [Function.comp_apply, AuthorizedUser.json, wire, wireMembers_jsObject, List.map_cons,
      List.map_nil, receivedUser, Daemon.AuthorizedUser.json]
  have hone : wire js (jsNat js 1) = .num (toString (1 : Int)) := wire_jsNat hjs (by norm_num)
  simp only [AuthorizationLayer.json, wire, wireMembers_jsObject, List.map_cons, List.map_nil,
    hone, husers, received, Daemon.Authorization.json, Daemon.usersJson]

theorem jsonBytes_eq (members : Members N) :
    jsonBytes js members = bufferFrom (stringify js (.obj members) ++ utf16 "\n") := rfl

/-- **The daemon reads what the panel meant**: its own printed form of the same authorization. -/
theorem parseAuthorization_jsonBytes (hjs : WritesIntegers js)
    (authorization : AuthorizationLayer) :
    Daemon.parseAuthorization (jsonBytes js (authorization.json js)) =
      Daemon.parseAuthorization (Json.print (received authorization).json) := by
  have hdepth : (received authorization).json.depth ≤ Json.maxNesting :=
    (Daemon.depth_authorizationJson _).trans (by decide)
  have hpanel : Json.parse (jsonBytes js (authorization.json js)) =
      some (received authorization).json := by
    rw [jsonBytes_eq, parse_stringify hjs.toWritesJson, wire_authorization hjs,
      Option.filter_some, if_pos (decide_eq_true hdepth)]
  rw [Daemon.parseAuthorization, Daemon.parseAuthorization, hpanel,
    Json.parse_print (Daemon.wf_authorizationJson rfl) hdepth]

/-- The digits of a number, and its value. -/
theorem digits_toString (n : ℕ) : ∃ c cs, (toString n).toList = c :: cs ∧
    (∀ d ∈ c :: cs, d.isDigit = true) ∧
    (c :: cs).foldl (fun n c => 10 * n + (c.toNat - 48)) 0 = n := by
  obtain ⟨c, cs, hcs, -⟩ := Json.toDigits_eq_cons n
  refine ⟨c, cs, by rw [Nat.toString_eq_repr, Nat.toList_repr, hcs], fun d hd => ?_, ?_⟩
  · exact Nat.isDigit_of_mem_toDigits (by norm_num) (by norm_num) (hcs ▸ hd)
  · rw [← hcs]
    exact Nat.ofDigitChars_eq_foldl.symm.trans Nat.ofDigitChars_ten_toDigits

/-- A number that was written is read, when it fits. -/
theorem parseInt64_toString (n : Int) : Daemon.parseInt64 (toString n) =
    (some n).filter fun n => -maxInt64 - 1 ≤ n ∧ n ≤ maxInt64 := by
  have hall : ∀ {c : Char} {cs : List Char}, (∀ d ∈ c :: cs, d.isDigit = true) →
      ¬ ((c :: cs).isEmpty = true ∨ ¬ (c :: cs).all Char.isDigit = true) := fun hdigits => by
    rw [List.all_eq_true.2 hdigits]
    simp
  cases n with
  | ofNat n =>
    obtain ⟨c, cs, hchars, hdigits, hvalue⟩ := digits_toString n
    have hsign : c ≠ '+' ∧ c ≠ '-' := by
      constructor <;> rintro rfl <;> exact absurd (hdigits _ List.mem_cons_self) (by decide)
    have htext : (toString (Int.ofNat n)).toList = c :: cs := hchars
    simp only [Daemon.parseInt64, htext]
    split
    · next heq => exact absurd (List.cons.inj heq).1 hsign.1
    · next heq => exact absurd (List.cons.inj heq).1 hsign.2
    · rw [if_neg (hall hdigits), hvalue]
      rfl
  | negSucc m =>
    obtain ⟨c, cs, hchars, hdigits, hvalue⟩ := digits_toString (m + 1)
    have htext : (toString (Int.negSucc m)).toList = '-' :: c :: cs := by
      rw [show toString (Int.negSucc m) = "-" ++ toString (m + 1) from rfl, String.toList_append,
        hchars]
      rfl
    simp only [Daemon.parseInt64, htext, if_neg (hall hdigits), hvalue]
    rfl

/-- What the daemon reads of a document is what the panel meant, and the canonical form says no
more than that. -/
theorem parseAuthorization_document (hjs : WritesIntegers js) {authorization : AuthorizationLayer}
    {revision parsed : Int} (htext : authorization.policyRevision = integerText revision)
    {auth : Daemon.Authorization} {canonical : Bytes}
    (h : Daemon.parseAuthorization (jsonBytes js (authorization.json js)) =
      some (auth, parsed, canonical)) :
    auth = received authorization ∧ parsed = revision ∧
      canonical = Json.print (received authorization).json := by
  have hdepth : (received authorization).json.depth ≤ Json.maxNesting :=
    (Daemon.depth_authorizationJson _).trans (by decide)
  rw [parseAuthorization_jsonBytes hjs, Daemon.parseAuthorization,
    Json.parse_print (Daemon.wf_authorizationJson rfl) hdepth] at h
  simp only [Option.bind_eq_bind, Option.bind_some, Daemon.decodeAuthorization_json
    (show (received authorization).version = 1 from rfl)] at h
  have hrevision : (received authorization).policyRevision = toString revision := by
    rw [received, htext, integerText, textOf_utf16]
  rw [hrevision, parseInt64_toString] at h
  obtain ⟨n, hn, h⟩ := Option.bind_eq_some_iff.1 h
  obtain ⟨hsame, -⟩ := Option.filter_eq_some_iff.1 hn
  split_ifs at h
  simp only [Option.some.injEq, Prod.mk.injEq] at h hsame
  obtain ⟨rfl, rfl, rfl⟩ := h
  exact ⟨rfl, hsame.symm, rfl⟩

/-- The ids and the passwords the panel draws: none is empty, and no id has a `>`. -/
structure Drawn (authorization : AuthorizationLayer) : Prop where
  ids : ∀ user ∈ authorization.users, textOf user.id ≠ "" ∧ '>' ∉ (textOf user.id).toList
  secrets : ∀ user ∈ authorization.users,
    textOf user.secrets.trojanPassword ≠ "" ∧ textOf user.secrets.hysteria2Password ≠ ""

/-- An authorization of known users. -/
structure ValidLayer (authorization : AuthorizationLayer) : Prop extends Drawn authorization where
  distinct : (authorization.users.map fun user => textOf user.id).Nodup

/-- **The daemon accepts a valid authorization**, with its revision. -/
theorem parseAuthorization_valid (hjs : WritesIntegers js) {authorization : AuthorizationLayer}
    {revision : Int} (htext : authorization.policyRevision = integerText revision)
    (hlow : 1 ≤ revision) (hhigh : revision ≤ maxInt64) (hvalid : ValidLayer authorization) :
    Daemon.parseAuthorization (jsonBytes js (authorization.json js)) =
      some (received authorization, revision, Json.print (received authorization).json) := by
  rw [parseAuthorization_jsonBytes hjs]
  have hrevision : (received authorization).policyRevision = toString revision := by
    rw [received, htext, integerText, textOf_utf16]
  apply Daemon.parseAuthorization_print
  · have hnegative : -maxInt64 - 1 ≤ (0 : Int) := by decide
    rw [hrevision, parseInt64_toString, Option.filter_some,
      if_pos (decide_eq_true ⟨by omega, hhigh⟩)]
  · exact hlow
  · rfl
  · have hlist : (received authorization).list = authorization.users.map receivedUser := rfl
    rw [hlist, Daemon.validUsers_iff, List.map_map]
    refine ⟨hvalid.distinct, fun user huser => ?_⟩
    obtain ⟨source, hsource, rfl⟩ := List.mem_map.1 huser
    obtain ⟨hid, hmark⟩ := hvalid.ids source hsource
    obtain ⟨htrojan, hhysteria2⟩ := hvalid.secrets source hsource
    exact ⟨List.not_mem_nil, hid, hmark, htrojan, hhysteria2⟩

theorem nodup_activeUsers (db : Database) : (activeUsers db).Nodup := by
  rw [activeUsers, (List.perm_insertionSort _ _).nodup_iff]
  exact db.users.nodup.sublist (List.filter_sublist.map Prod.fst)

/-- **What a refresh gives out is valid**: a user is granted once, and revisions count from one. -/
theorem validLayer_refresh {vault : Vault} {fresh : String → String} {now : Int}
    {db db' : Database} {authorization : AuthorizationLayer}
    (h : refresh vault fresh now db = .ok (authorization, db')) (hdrawn : Drawn authorization)
    (hstored : ∀ row ∈ db.policyState, 1 ≤ row.revision) :
    ValidLayer authorization ∧ ∃ row, db'.policyState = some row ∧ 1 ≤ row.revision ∧
      row.revision ≤ maxInt64 ∧ authorization.policyRevision = integerText row.revision := by
  obtain ⟨row, hrow, hbound, htext, hids, hafter, -⟩ := refresh_eq_ok h
  have hpositive : 1 ≤ row.revision := by
    rw [hrow]
    cases hold : db.policyState with
    | none => exact le_rfl
    | some old =>
      have hcount := (nextPolicy_some old (fingerprintOf (grants now db)) (monthPeriod now) now).2
      have hone := hstored old hold
      rw [hcount]
      split_ifs <;> omega
  have hlimit : maxSafeInteger ≤ maxInt64 := by decide
  have hdistinct : (authorization.users.map fun user => textOf user.id).Nodup := by
    have hnames : (authorization.users.map AuthorizedUser.id).map textOf =
        (grants now db).map Prod.fst := by
      rw [hids, List.map_map]
      refine List.map_congr_left fun grant _ => ?_
      exact textOf_utf16 grant.1
    have hgranted : (grants now db).map Prod.fst = (activeUsers db).filter (allowed now db) := by
      rw [grants, List.map_map]
      exact List.map_id _
    rw [show (fun user : AuthorizedUser => textOf user.id) = textOf ∘ AuthorizedUser.id from rfl,
      ← List.map_map, hnames, hgranted]
    exact (nodup_activeUsers db).filter _
  exact ⟨⟨hdrawn, hdistinct⟩, row, hafter, hpositive, hbound.trans hlimit, htext⟩

/-- **What a run of the panel gives out is valid.** -/
theorem validLayer_logged {vault : Vault} {log : List Refreshed} {db : Database}
    (h : PolicyRun vault Database.empty log db) {record : Refreshed} (hmem : record ∈ log)
    (hdrawn : Drawn record.authorization) :
    ValidLayer record.authorization ∧ 1 ≤ record.revision ∧ record.revision ≤ maxInt64 ∧
      record.authorization.policyRevision = integerText record.revision := by
  induction h with
  | start => cases hmem
  | changed _ _ _ ih => exact ih hmem
  | initialized _ _ _ ih => exact ih hmem
  | reset _ _ ih => exact ih hmem
  | @refreshed before after log fresh now authorization hrun hrefresh ih =>
    rcases List.mem_append.1 hmem with hmem | hmem
    · exact ih hmem
    · obtain rfl := List.mem_singleton.1 hmem
      obtain ⟨hvalid, row, hrow, hlow, hhigh, htext⟩ :=
        validLayer_refresh hrefresh hdrawn (one_le_revision hrun).1
      have hrevision : (refreshedBy now before authorization after).revision = row.revision := by
        simp only [refreshedBy, hrow, Option.map_some, Option.getD_some]
      rw [hrevision]
      exact ⟨hvalid, hlow, hhigh, htext⟩

/-! ## Configurations -/

/-- The object of a machine's configuration, as the daemon reads it. -/
def receivedConfig (js : Runtime N) (settings : MachineConfigurationInput N)
    (authorization : AuthorizationLayer) : List (String × Json) :=
  Json.normalizeMembers (wireMembers js (renderServer js settings authorization))

/-- The members of an inbound that the panel manages. -/
def inboundMembers (js : Runtime N) (type tag : String) (listen : JsString) (port : ℕ)
    (tls : TlsSettings) (users : List (JsString × JsString)) : List (String × Json) :=
  [("type", .str type), ("tag", .str tag), ("listen", .str (textOf listen)),
    ("listen_port", wire js (jsNat js port)),
    ("users", .arr (users.map fun u => .obj [("name", .str (textOf u.1)),
      ("password", .str (textOf u.2))])),
    ("tls", wire js (.obj (inboundTls tls)))]

theorem wire_managedInbound (type tag : String) (listen : JsString) (port : ℕ)
    (tls : TlsSettings) (users : List (JsString × JsString)) :
    wire js (managedInbound js type tag listen port tls users) =
      .obj (inboundMembers js type tag listen port tls users) := by
  have husers : wireItems js (users.map fun u =>
      .obj (jsObject [("name", .str u.1), ("password", .str u.2)])) =
      users.map fun u => .obj [("name", .str (textOf u.1)), ("password", .str (textOf u.2))] := by
    rw [wireItems_eq_map, List.map_map]
    refine List.map_congr_left fun u _ => ?_
    simp only [Function.comp_apply, wire, wireMembers_jsObject, List.map_cons, List.map_nil]
  simp only [managedInbound, wire, wireMembers_jsObject, List.map_cons, List.map_nil, husers,
    wire_jsText, inboundMembers]

/-- What the daemon finds in an inbound of the panel. -/
theorem lookup_inboundMembers (js : Runtime N) (type tag : String) (listen : JsString)
    (port : ℕ) (tls : TlsSettings) (users : List (JsString × JsString)) :
    let inbound := Json.normalizeMembers (inboundMembers js type tag listen port tls users)
    Json.lookup "type" inbound = some (.str type) ∧ Json.lookup "tag" inbound = some (.str tag) ∧
      Json.lookup "users" inbound = some (Json.normalize (.arr (users.map fun u =>
        .obj [("name", .str (textOf u.1)), ("password", .str (textOf u.2))]))) := by
  refine ⟨?_, ?_, ?_⟩
  · exact @Json.lookup_normalizeMembers _ (.str type) _ (by simp [inboundMembers])
      (by simp [inboundMembers])
  · exact @Json.lookup_normalizeMembers _ (.str tag) _ (by simp [inboundMembers])
      (by simp [inboundMembers])
  · exact Json.lookup_normalizeMembers (by simp [inboundMembers]) (by simp [inboundMembers])

/-! ## Names of a rendered configuration -/

/-- The inbounds the panel writes. -/
def renderedInbounds (js : Runtime N) (settings : MachineConfigurationInput N)
    (authorization : AuthorizationLayer) : JsValue N :=
  let listen := settings.listen.getD (utf16 "::")
  .arr [managedInbound js "trojan" "bifurcation-trojan" listen settings.trojanPort settings.tls
      (authorization.users.map fun u => (u.id, u.secrets.trojanPassword)),
    managedInbound js "hysteria2" "bifurcation-hysteria2" listen settings.hysteria2Port
      settings.tls (authorization.users.map fun u => (u.id, u.secrets.hysteria2Password))]

theorem mem_extend {base members : Members N} {m : JsString × JsValue N}
    (h : m ∈ base.foldl (fun ms m => Javascript.set m.1 m.2 ms) members) :
    m ∈ members ∨ m ∈ base := by
  induction base generalizing members with
  | nil => exact .inl h
  | cons m' base ih =>
    rcases ih h with h | h
    · rcases mem_set h with rfl | h
      · exact .inr List.mem_cons_self
      · exact .inl h
    · exact .inr (List.mem_cons_of_mem _ h)

/-- A member of the configuration is the inbounds, a default or taken from the base. -/
theorem mem_renderServer {settings : MachineConfigurationInput N}
    {authorization : AuthorizationLayer} {m : JsString × JsValue N}
    (h : m ∈ renderServer js settings authorization) :
    m = (utf16 "inbounds", renderedInbounds js settings authorization) ∨
      m.1 ∈ [utf16 "log", utf16 "outbounds"] ∨ m ∈ settings.baseJson := by
  rcases mem_set h with rfl | h
  · exact .inl rfl
  · rcases mem_extend h with h | h
    · refine .inr (.inl ?_)
      simp only [jsObject, List.map_cons, List.map_nil, List.mem_cons, List.not_mem_nil,
        or_false] at h
      rcases h with rfl | rfl <;> simp
    · exact .inr (.inr h)

/-- Only members of that very name are read under a name of the panel's own. -/
theorem name_of_textOf {members : Members N} {name : String} (hname : '\uFFFD' ∉ name.toList)
    {m : String × Json} (h : m ∈ wireMembers js members) (hm : m.1 = name) :
    ∃ value, (utf16 name, value) ∈ members ∧ m.2 = wire js value := by
  rw [wireMembers_eq_map, List.mem_map] at h
  obtain ⟨⟨key, value⟩, hmem, rfl⟩ := h
  have hkey : key = utf16 name := eq_utf16_of_textOf hname hm
  exact ⟨value, hkey ▸ hmem, rfl⟩

/-- A name that is not there is not read. -/
theorem lookup_absent {members : Members N} {name : String} (hname : '\uFFFD' ∉ name.toList)
    (h : Javascript.get members (utf16 name) = none) :
    Json.lookup name (Json.normalizeMembers (wireMembers js members)) = none := by
  refine Json.lookup_normalizeMembers_eq_none fun m hm hkey => ?_
  obtain ⟨value, hmem, -⟩ := name_of_textOf hname hm hkey
  exact get_eq_none.1 h _ hmem rfl

section Rendered

variable {settings : MachineConfigurationInput N} {authorization : AuthorizationLayer}

theorem get_inbounds : Javascript.get (renderServer js settings authorization) (utf16 "inbounds") =
    some (renderedInbounds js settings authorization) :=
  (get_set _ _ _ _).trans (if_pos rfl)

/-- Under a name that is no default and no managed name, the base configuration is found. -/
theorem mem_base {name : String} {value : JsValue N}
    (hname : name ∉ ["inbounds", "log", "outbounds"])
    (h : (utf16 name, value) ∈ renderServer js settings authorization) :
    (utf16 name, value) ∈ settings.baseJson := by
  simp only [List.mem_cons, List.not_mem_nil, or_false, not_or] at hname
  rcases mem_renderServer h with h | h | h
  · exact absurd (utf16_injective (Prod.mk.inj h).1) hname.1
  · simp only [List.mem_cons, List.not_mem_nil, or_false] at h
    rcases h with h | h
    · exact absurd (utf16_injective h) hname.2.1
    · exact absurd (utf16_injective h) hname.2.2
  · exact h

/-- The two inbounds as the daemon reads them. -/
theorem lookup_inbounds (hbase : ValidBase settings.baseJson) :
    Json.lookup "inbounds" (receivedConfig js settings authorization) =
      some (Json.normalize (wire js (renderedInbounds js settings authorization))) := by
  apply Json.lookup_normalizeMembers
  · rw [wireMembers_eq_map, List.map_map, List.mem_map]
    exact ⟨(utf16 "inbounds", renderedInbounds js settings authorization),
      mem_of_get get_inbounds, textOf_utf16 "inbounds"⟩
  · intro m hm hkey
    obtain ⟨value, hmem, heq⟩ := name_of_textOf (by decide) hm hkey
    rw [heq]
    rcases mem_renderServer hmem with h | h | h
    · rw [(Prod.mk.inj h).2]
    · simp only [List.mem_cons, List.not_mem_nil, or_false] at h
      rcases h with h | h <;> exact absurd (utf16_injective h) (by decide)
    · exact absurd rfl (get_eq_none.1 (hbase.unmanaged "inbounds" (by decide)) _ h)

theorem lookup_services (hbase : ValidBase settings.baseJson) :
    Json.lookup "services" (receivedConfig js settings authorization) = none := by
  refine Json.lookup_normalizeMembers_eq_none fun m hm hkey => ?_
  obtain ⟨value, hmem, -⟩ := name_of_textOf (by decide) hm hkey
  exact get_eq_none.1 (hbase.unmanaged "services" (by decide)) _ (mem_base (by decide) hmem) rfl

/-- The experimental options ask for no control interface. -/
theorem lookup_experimental (hnodup : (settings.baseJson.map Prod.fst).Nodup)
    (hbase : ValidBase settings.baseJson) {value : Json}
    (h : Json.lookup "experimental" (receivedConfig js settings authorization) = some value) :
    ∃ members, value = .obj members ∧
      ∀ field ∈ controlInterfaces, Json.lookup field members = none := by
  obtain ⟨m, hm, hkey, rfl⟩ := Json.exists_of_lookup_normalizeMembers h
  obtain ⟨source, hmem, heq⟩ := name_of_textOf (by decide) hm hkey
  obtain ⟨members, rfl, hnone⟩ := hbase.experimental source
    (get_of_mem hnodup (mem_base (by decide) hmem))
  refine ⟨Json.normalizeMembers (wireMembers js members), ?_, fun field hfield => ?_⟩
  · rw [heq, wire, Json.normalize]
  · refine lookup_absent ?_ (hnone field hfield)
    revert field
    decide

/-! ## Merging -/

theorem normalize_arr (items : List Json) :
    Json.normalize (.arr items) = .arr (items.map Json.normalize) := by
  rw [Json.normalize]
  congr 1
  induction items with
  | nil => rfl
  | cons v vs ih => rw [Json.normalizeItems, ih, List.map_cons]

/-- An inbound with the users of the authorization under its tag. -/
structure Bears (auth : Daemon.Authorization) (tag protocol : String)
    (inbound : List (String × Json)) : Prop where
  type : Json.lookup "type" inbound = some (.str protocol)
  tag : Json.lookup "tag" inbound = some (.str tag)
  users : Json.setMember "users" (Daemon.managedUsers auth protocol) inbound = inbound

/-- The merging loop leaves such an inbound alone. -/
theorem Bears.merge {auth : Daemon.Authorization} {tag protocol : String}
    {inbound : List (String × Json)} (h : Bears auth tag protocol inbound) {found : List String}
    {rest : List Json} (hprotocol : Daemon.managedProtocol tag = some protocol)
    (hfound : tag ∉ found) :
    Daemon.mergeInbounds auth found (.obj inbound :: rest) =
      (Daemon.mergeInbounds auth (tag :: found) rest).map fun r => (r.1, .obj inbound :: r.2) := by
  have hok : ¬ (tag ∈ found ∨ ¬ Daemon.isText protocol (Json.lookup "type" inbound) = true) := by
    rw [h.type, not_or, not_not]
    exact ⟨hfound, decide_eq_true rfl⟩
  have htext : Daemon.textOf (Json.lookup "tag" inbound) = tag := by rw [h.tag, Daemon.textOf]
  simp only [Daemon.mergeInbounds, htext, hprotocol, if_neg hok, h.users]

/-- An inbound of the panel as the daemon reads it. -/
def receivedInbound (js : Runtime N) (type tag : String) (listen : JsString) (port : ℕ)
    (tls : TlsSettings) (users : List (JsString × JsString)) : List (String × Json) :=
  Json.normalizeMembers (inboundMembers js type tag listen port tls users)

/-- It already has the users that merging writes. -/
theorem bears_receivedInbound (js : Runtime N) (authorization : AuthorizationLayer)
    (type tag : String) (listen : JsString) (port : ℕ) (tls : TlsSettings)
    (password : AuthorizedUser → JsString)
    (hpassword : ∀ user, (receivedUser user).password type = textOf (password user)) :
    Bears (received authorization) tag type (receivedInbound js type tag listen port tls
      (authorization.users.map fun u => (u.id, password u))) := by
  obtain ⟨htype, htag, husers⟩ := lookup_inboundMembers js type tag listen port tls
    (authorization.users.map fun u => (u.id, password u))
  refine ⟨htype, htag, Json.setMember_lookup (Json.sorted_normalizeMembers _) ?_⟩
  have hmanaged : Daemon.managedUsers (received authorization) type =
      .arr ((authorization.users.map fun u => (u.id, password u)).map fun u =>
        .obj [("name", .str (textOf u.1)), ("password", .str (textOf u.2))]) := by
    simp only [Daemon.managedUsers, Daemon.Authorization.list, received, Option.getD_some,
      List.map_map]
    refine congrArg Json.arr (List.map_congr_left fun user _ => ?_)
    simp only [Function.comp_apply, hpassword user]
    rfl
  rw [receivedInbound, husers, ← hmanaged,
    Json.normalize_of_normal _ (Daemon.configJson_managedUsers _ _).1]

/-- The daemon finds two inbounds, each with the users of the authorization. -/
theorem exists_inbounds (js : Runtime N) (authorization : AuthorizationLayer)
    (hbase : ValidBase settings.baseJson) :
    ∃ trojan hysteria2,
      Json.lookup "inbounds" (receivedConfig js settings authorization) =
        some (.arr [.obj trojan, .obj hysteria2]) ∧
      Bears (received authorization) "bifurcation-trojan" "trojan" trojan ∧
      Bears (received authorization) "bifurcation-hysteria2" "hysteria2" hysteria2 := by
  refine ⟨_, _, ?_,
    bears_receivedInbound js authorization "trojan" "bifurcation-trojan"
      (settings.listen.getD (utf16 "::")) settings.trojanPort settings.tls
      (fun u => u.secrets.trojanPassword) fun _ => rfl,
    bears_receivedInbound js authorization "hysteria2" "bifurcation-hysteria2"
      (settings.listen.getD (utf16 "::")) settings.hysteria2Port settings.tls
      (fun u => u.secrets.hysteria2Password) fun _ => rfl⟩
  rw [lookup_inbounds hbase]
  simp only [renderedInbounds, wire, wireItems, wire_managedInbound]
  rw [normalize_arr]
  simp only [List.map_cons, List.map_nil, Json.normalize, receivedInbound]

/-- **Merging the authorization into the configuration changes nothing.** -/
theorem mergeTree_received (hbase : ValidBase settings.baseJson) :
    Daemon.mergeTree (received authorization) (receivedConfig js settings authorization) =
      some (receivedConfig js settings authorization) := by
  obtain ⟨trojan, hysteria2, hlookup, htrojan, hhysteria2⟩ :=
    exists_inbounds js authorization hbase
  have hmerged : Daemon.mergeInbounds (received authorization) [] [.obj trojan, .obj hysteria2] =
      some (["bifurcation-hysteria2", "bifurcation-trojan"], [.obj trojan, .obj hysteria2]) := by
    rw [htrojan.merge (by decide) List.not_mem_nil, hhysteria2.merge (by decide) (by decide)]
    rfl
  have hsame : Json.setMember "inbounds" (.arr [.obj trojan, .obj hysteria2])
      (receivedConfig js settings authorization) = receivedConfig js settings authorization :=
    Json.setMember_lookup (Json.sorted_normalizeMembers _) hlookup
  simp only [Daemon.mergeTree, hlookup, hmerged, Option.bind_eq_bind, Option.bind_some,
    List.length_cons, List.length_nil, if_true, hsame]

end Rendered

/-! ## Acceptance -/

/-- What a document must keep to for the daemon to read it: its size and its nesting. -/
structure Readable (js : Runtime N) (members : Members N) : Prop where
  size : (jsonBytes js members).length ≤ 4 * 2 ^ 20
  nesting : (wire js (.obj members)).depth ≤ Json.maxNesting

theorem decodeConfig_jsonBytes (hjs : WritesIntegers js) (members : Members N)
    {config : List (String × Json)} :
    Daemon.decodeConfig (jsonBytes js members) = some config ↔
      Readable js members ∧ config = Json.normalizeMembers (wireMembers js members) := by
  rw [Daemon.decodeConfig_iff, jsonBytes_eq, parse_stringify hjs.toWritesJson]
  constructor
  · rintro ⟨hsize, tree, hparse, rfl⟩
    obtain ⟨hobj, hdepth⟩ := Option.filter_eq_some_iff.1 hparse
    have htree : wire js (.obj members) = .obj tree := Option.some.inj hobj
    have hmembers : wireMembers js members = tree := by
      rw [wire] at htree
      exact Json.obj.inj htree
    exact ⟨⟨hsize, htree ▸ of_decide_eq_true hdepth⟩, by rw [hmembers]⟩
  · rintro ⟨⟨hsize, hdepth⟩, rfl⟩
    refine ⟨hsize, wireMembers js members, ?_, rfl⟩
    rw [Option.filter_some, if_pos (decide_eq_true hdepth), wire]

/-- What the limits of the daemon ask of a configuration: it can be read, and so can its merged
form, which the daemon prints itself. -/
structure Deliverable (js : Runtime N) (settings : MachineConfigurationInput N)
    (authorization : AuthorizationLayer) : Prop where
  readable : Readable js (renderServer js settings authorization)
  merged : (Json.print (.obj (receivedConfig js settings authorization))).length ≤ 4 * 2 ^ 20

section Accepted

variable {settings : MachineConfigurationInput N} {authorization : AuthorizationLayer}

theorem configTree_received (hjs : WritesIntegers js)
    (h : Readable js (renderServer js settings authorization)) :
    Daemon.ConfigTree (receivedConfig js settings authorization) :=
  Daemon.configTree_of_decode ((decodeConfig_jsonBytes hjs _).2 ⟨h, rfl⟩)

/-- **The checks of a configuration against its own authorization** fail only on the limits. -/
theorem checkConfiguration_rendered (hjs : WritesIntegers js) (hbase : ValidBase settings.baseJson)
    {config : Daemon.Configuration} {canonical : Bytes} {revision : Int}
    (hjson : config.json = jsonBytes js (renderServer js settings authorization))
    (hdigest : config.sha256 = sha256 config.json) (hpolicy : config.policyRevision = revision)
    (hauth : Daemon.parseAuthorization canonical =
      some (received authorization, revision, canonical)) :
    Daemon.checkConfiguration config revision canonical = none ↔
      Deliverable js settings authorization := by
  have hstale : ¬ config.policyRevision < revision := by rw [hpolicy]; exact lt_irrefl _
  rw [Daemon.checkConfiguration, if_neg hstale, if_neg (not_not.2 hpolicy),
    if_neg (not_not.2 hdigest.symm), hjson]
  by_cases hread : Readable js (renderServer js settings authorization)
  · have hdecode := (decodeConfig_jsonBytes hjs _).2 ⟨hread, rfl⟩
    have hmerge : Daemon.mergeAuthorization
        (jsonBytes js (renderServer js settings authorization)) canonical =
        some (Json.print (.obj (receivedConfig js settings authorization))) :=
      Daemon.mergeAuthorization_eq_some.2
        ⟨_, _, _, _, _, hauth, hdecode, mergeTree_received hbase, rfl⟩
    simp only [hmerge, hdecode]
    by_cases hsize :
        (Json.print (.obj (receivedConfig js settings authorization))).length ≤ 4 * 2 ^ 20
    · have hback := Daemon.decodeConfig_of_print (configTree_received hjs hread) hsize
      rw [hback]
      simp only [receivedConfig, not_true, if_false, true_iff, ne_eq]
      exact ⟨hread, hsize⟩
    · have hback : Daemon.decodeConfig
          (Json.print (.obj (receivedConfig js settings authorization))) = none := by
        rw [Daemon.decodeConfig, if_pos (.inr (not_le.1 hsize))]
      rw [hback]
      simp only [reduceCtorEq, false_iff]
      exact fun h => hsize h.merged
  · have hdecode : Daemon.decodeConfig
        (jsonBytes js (renderServer js settings authorization)) = none := by
      rw [Option.eq_none_iff_forall_not_mem]
      exact fun config hconfig => hread ((decodeConfig_jsonBytes hjs _).1 hconfig).1
    have hmerge : Daemon.mergeAuthorization
        (jsonBytes js (renderServer js settings authorization)) canonical = none := by
      rw [Option.eq_none_iff_forall_not_mem]
      intro merged hmerged
      obtain ⟨_, _, _, tree, _, -, htree, -, -⟩ := Daemon.mergeAuthorization_eq_some.1 hmerged
      rw [hdecode] at htree
      cases htree
    simp only [hmerge, reduceCtorEq, false_iff]
    exact fun h => hread h.readable

/-- **The configuration passes the checks of `build`**: it asks for no service and no control
interface. What sing-box makes of its options is not said. -/
theorem builtFrom_rendered (hjs : WritesIntegers js)
    (hnodup : (settings.baseJson.map Prod.fst).Nodup) (hbase : ValidBase settings.baseJson)
    (hread : Readable js (renderServer js settings authorization)) {canonical : Bytes}
    {revision : Int}
    (hauth : Daemon.parseAuthorization canonical =
      some (received authorization, revision, canonical)) :
    Daemon.builtFrom (jsonBytes js (renderServer js settings authorization)) canonical =
      some (authorization.users.map fun user => textOf user.id, revision) := by
  have hdecode : Daemon.decodeConfig (jsonBytes js (renderServer js settings authorization)) =
      some (receivedConfig js settings authorization) :=
    (decodeConfig_jsonBytes hjs _).2 ⟨hread, rfl⟩
  have hids : (received authorization).list.map (·.id) =
      authorization.users.map fun user => textOf user.id := by
    simp only [Daemon.Authorization.list, received, Option.getD_some, List.map_map]
    rfl
  have hservices := @lookup_services _ js _ authorization hbase
  simp only [Daemon.builtFrom, hauth, hdecode, Option.bind_eq_bind, Option.bind_some, hids,
    hservices]
  cases hlookup : Json.lookup "experimental" (receivedConfig js settings authorization) with
  | none => simp
  | some value =>
    obtain ⟨members, rfl, hnone⟩ := lookup_experimental hnodup hbase hlookup
    simp [hnone "v2ray_api" (by decide), hnone "clash_api" (by decide)]

/-- **What the panel publishes, the daemon accepts**, up to its limits. In every state that a run
of the panel reaches, with settings that the panel accepted and an authorization that a refresh
gave, the daemon reads the authorization as it was meant, and its checks of the configuration fail
only on the size of the document, the size of its merged form or the nesting; within these, the
configuration passes the checks of `build`, for the granted users. -/
theorem published_configuration_accepted (hjs : WritesIntegers js)
    {certificateFault : JsString → JsString → JsString → Option String}
    {settings' : MachineConfigurationInput N}
    (hsettings : validateSettings js certificateFault settings = .ok settings')
    (hnodup : (settings.baseJson.map Prod.fst).Nodup)
    {vault : Vault} {fresh : String → String} {now : Int} {log : List Refreshed}
    {db db' : Database} (hrun : PolicyRun vault Database.empty log db)
    (hrefresh : refresh vault fresh now db = .ok (authorization, db'))
    (hdrawn : Drawn authorization) :
    ∃ row canonical, db'.policyState = some row ∧
      Daemon.parseAuthorization (jsonBytes js (authorization.json js)) =
        some (received authorization, row.revision, canonical) ∧
      ∀ config : Daemon.Configuration,
        config.json = jsonBytes js (renderServer js settings' authorization) →
        config.sha256 = sha256 config.json → config.policyRevision = row.revision →
        (Daemon.checkConfiguration config row.revision canonical = none ↔
          Deliverable js settings' authorization) ∧
        (Deliverable js settings' authorization →
          Daemon.builtFrom config.json canonical =
            some (authorization.users.map fun user => textOf user.id, row.revision)) := by
  obtain ⟨rfl, hbase, -⟩ := validateSettings_eq_ok js hsettings
  obtain ⟨hvalid, row, hrow, hlow, hhigh, htext⟩ :=
    validLayer_refresh hrefresh hdrawn (one_le_revision hrun).1
  have hparse := parseAuthorization_valid hjs htext hlow hhigh hvalid
  have hcanonical := Daemon.parseAuthorization_canonical hparse
  refine ⟨row, _, hrow, hparse, fun config hjson hdigest hpolicy => ⟨?_, fun hfits => ?_⟩⟩
  · exact checkConfiguration_rendered hjs hbase hjson hdigest hpolicy hcanonical
  · rw [hjson]
    exact builtFrom_rendered hjs hnodup hbase hfits.readable hcanonical

end Accepted

/-! ## A machine with one user -/

theorem writesIntegers_decimal : WritesIntegers decimalRuntime where
  numbers n := .inr ⟨toString n, rfl, Json.wf_num_nat n⟩
  integers _ _ := rfl

/-- Settings with an option of their own. -/
def plainSettings : MachineConfigurationInput ℕ where
  listen := none
  trojanPort := 443
  hysteria2Port := 8443
  tls := .acme (utf16 "node.test") (utf16 "admin@node.test")
  baseJson := [(utf16 "experimental", .obj []), (utf16 "log", .obj [])]

theorem plainSettings_deliverable :
    Deliverable decimalRuntime plainSettings (afterRefresh accountDb).1 where
  readable := ⟨by decide +kernel, by decide +kernel⟩
  merged := by decide +kernel

theorem plainSettings_accepted : ∃ canonical,
    Daemon.parseAuthorization
        (jsonBytes decimalRuntime ((afterRefresh accountDb).1.json decimalRuntime)) =
      some (received (afterRefresh accountDb).1, 1, canonical) ∧
    ∀ config : Daemon.Configuration,
      config.json = jsonBytes decimalRuntime
        (renderServer decimalRuntime plainSettings (afterRefresh accountDb).1) →
      config.sha256 = sha256 config.json → config.policyRevision = 1 →
      Daemon.checkConfiguration config 1 canonical = none ∧
        Daemon.builtFrom config.json canonical = some (["u"], 1) := by
  have hrefresh : refresh plainVault (fun _ => "first") 0 accountDb =
      .ok ((afterRefresh accountDb).1, (afterRefresh accountDb).2) := by decide +kernel
  obtain ⟨settings', hsettings⟩ : ∃ settings',
      validateSettings decimalRuntime (fun _ _ _ => none) plainSettings = .ok settings' := by
    have hsome : (validateSettings decimalRuntime (fun _ _ _ => none)
      plainSettings).toOption.isSome = true := by decide +kernel
    cases hresult : validateSettings decimalRuntime (fun _ _ _ => none) plainSettings with
    | error e => simp [hresult, Except.toOption] at hsome
    | ok settings' => exact ⟨settings', rfl⟩
  obtain ⟨rfl, -, -⟩ := validateSettings_eq_ok decimalRuntime hsettings
  have hdrawn : Drawn (afterRefresh accountDb).1 :=
    ⟨by decide +kernel, by decide +kernel⟩
  have haccount : PolicyRun plainVault Database.empty [] accountDb :=
    (PolicyRun.start Database.empty).changed rfl rfl
  obtain ⟨row, canonical, hrow, hparse, hconfig⟩ :=
    published_configuration_accepted writesIntegers_decimal hsettings (by decide +kernel) haccount
      hrefresh hdrawn
  have hone : row.revision = 1 := by
    have hstored : (afterRefresh accountDb).2.policyState.map PolicyRow.revision = some 1 := by
      decide +kernel
    rw [hrow] at hstored
    exact Option.some.inj hstored
  have hids : (afterRefresh accountDb).1.users.map (fun user => textOf user.id) = ["u"] := by
    decide +kernel
  rw [hone] at hparse hconfig
  rw [hids] at hconfig
  refine ⟨canonical, hparse, fun config hjson hdigest hpolicy => ?_⟩
  obtain ⟨hchecked, hbuilt⟩ := hconfig config hjson hdigest hpolicy
  exact ⟨hchecked.2 plainSettings_deliverable, hbuilt plainSettings_deliverable⟩

end Bifurcation.Delivery
