import Bifurcation.Lib.JsLiterals
import Bifurcation.Panel.Rendering
import Bifurcation.Panel.Subscriptions

/-!
# Adopting a legacy subscription

`legacyDraft` of `subscription/template.ts`. Before there were templates, `renderClient` built the
whole configuration of a client. The draft that takes over has the same groups, bound to every
node, and `renderSubscription` fills them with the tags it reserves.

**The template.** Its text does not depend on the snapshot, and it reads as the object it was
written from.

**The checks.** Filled with the outbounds of the nodes it passes all of them.

**The meaning.** Up to the names of the node tags and the order of outbounds and group members,
the document is the one `renderClient` builds.

Main result: `legacyDraft_adopts`.
-/

namespace Bifurcation.Panel.Adoption

open Javascript DepthFirst Profiles

variable {N : Type} (js : Runtime N)

/-! ## The template -/

/-- Small integers are written in decimal digits and read back. -/
structure Decimals (js : Runtime N) : Prop where
  written : ∀ n, n < 2 ^ 53 → js.numberJson (js.ofNat n) = decimal n
  read : ∀ n, n < 2 ^ 53 → js.ofLiteral (decimal n) = js.ofNat n

def proxyGroup (members : List JsString) : Members N :=
  jsObject [("type", jsText "selector"), ("tag", jsText "proxy"), ("default", jsText "auto"),
    ("outbounds", .arr (members.map .str))]

def autoGroup (members : List JsString) : Members N :=
  jsObject [("type", jsText "urltest"), ("tag", jsText "auto"),
    ("url", jsText "https://www.gstatic.com/generate_204"), ("interval", jsText "3m"),
    ("tolerance", jsNat js 50), ("outbounds", .arr (members.map .str))]

def directOutbound : Members N := jsObject [("type", jsText "direct"), ("tag", jsText "direct")]

/-- A client configuration with these outbounds. -/
def clientWith (outbounds : List (Members N)) : Members N := jsObject
  [("log", .obj (jsObject [("level", jsText "info")])),
    ("dns", .obj (jsObject [("servers", .arr
      [.obj (jsObject [("type", jsText "local"), ("tag", jsText "dns-local")])])])),
    ("inbounds", .arr [.obj (jsObject
      [("type", jsText "mixed"), ("tag", jsText "mixed-in"), ("listen", jsText "127.0.0.1"),
        ("listen_port", jsNat js 2080)])]),
    ("outbounds", .arr (outbounds.map .obj)),
    ("route", .obj (jsObject
      [("default_domain_resolver", jsText "dns-local"), ("final", jsText "proxy")]))]

def legacyTemplate : Members N := clientWith js [proxyGroup [], autoGroup js [], directOutbound]

/-- The draft member by member. -/
theorem legacyDraft_eq (site : Site N) (secrets : ProxySecrets) :
    legacyDraft site secrets = ⟨stringify site.js (.obj (legacyTemplate site.js)),
      [unfiltered "proxy" [] ["auto"], unfiltered "auto" [] []]⟩ := by
  have hkeys : ∀ a ∈ ["log", "dns", "inbounds", "outbounds"], ∀ b ∈ ["outbounds", "route"],
      a ≠ b → utf16 a ≠ utf16 b ∧ keyBefore (utf16 b) (utf16 a) = false := by decide
  simp [legacyDraft, legacyTemplate, clientWith, renderClient, jsObject, Javascript.set, hkeys,
    proxyGroup, autoGroup, directOutbound]

/-- The text of the template, which is the same for every user and every engine. -/
def legacyText : JsString :=
  stringify literals (.obj (legacyTemplate literals))

variable {js}

theorem stringify_legacyTemplate (hjs : Decimals js) :
    stringify js (.obj (legacyTemplate js)) = legacyText := by
  have hport : js.numberJson (js.ofNat 2080) = literals.numberJson (literals.ofNat 2080) :=
    hjs.written 2080 (by norm_num)
  have htolerance : js.numberJson (js.ofNat 50) = literals.numberJson (literals.ofNat 50) :=
    hjs.written 50 (by norm_num)
  simp only [legacyText, legacyTemplate, clientWith, stringify, jsObject, proxyGroup, autoGroup,
    directOutbound, jsText, jsNat, List.map_cons, List.map_nil, stringifyAt, stringifyItems,
    stringifyMember, stringifyMembers, hport, htolerance]

theorem parse_legacyText (hjs : Decimals js) :
    parse js legacyText = some (.obj (legacyTemplate js)) := by
  have hliterals : (parse literals legacyText).any
      (same (.obj (legacyTemplate literals))) = true := by decide +kernel
  rw [parse_of_literals js hliterals]
  have hport : js.ofLiteral (literals.ofNat 2080) = js.ofNat 2080 := hjs.read 2080 (by norm_num)
  have htolerance : js.ofLiteral (literals.ofNat 50) = js.ofNat 50 := hjs.read 50 (by norm_num)
  simp only [legacyTemplate, clientWith, jsObject, proxyGroup, autoGroup, directOutbound, jsText,
    jsNat, List.map_cons, List.map_nil, mapNumbers, mapItems, mapMember, mapMembers, hport, htolerance]

theorem legacyDraft_accepted (site : Site N) (hjs : Decimals site.js) (secrets : ProxySecrets) :
    (legacyDraft site secrets).accepted = true := by
  have htext : legacyText.length ≤ 1024 * 1024 := by decide +kernel
  have hbindings : [unfiltered "proxy" [] ["auto"], unfiltered "auto" [] []].all
      Binding.accepted = true := by decide
  rw [legacyDraft_eq, stringify_legacyTemplate hjs]
  simp only [SubscriptionDraft.accepted, htext, hbindings, decide_true, Bool.true_and]
  rfl

theorem bound_legacyTemplate (js : Runtime N) :
    ∃ size, bound 0 0 (.obj (legacyTemplate js)) = .ok size := ⟨_, rfl⟩

/-! ## Preparation -/

/-- The outbounds of the template, with the members of its groups. -/
def groupEntries (js : Runtime N) (proxy auto : List JsString) : Entries N :=
  [(utf16 "proxy", proxyGroup proxy), (utf16 "auto", autoGroup js auto),
    (utf16 "direct", directOutbound)]

/-- What the renderer reads from the draft. -/
def legacyPrepared (js : Runtime N) (snapshot : Snapshot N) : Prepared N where
  result := legacyTemplate js
  templates := groupEntries js [] []
  generated := (availableNodes js snapshot).flatMap (generateNode js snapshot.secrets)
  nodeCount := (availableNodes js snapshot).length

theorem outbounds_clientWith (js : Runtime N) (outbounds : List (Members N)) :
    Javascript.get (clientWith js outbounds) (utf16 "outbounds") = some (.arr (outbounds.map .obj)) := by
  have hkeys : ∀ a ∈ ["log", "dns", "inbounds"], utf16 a ≠ utf16 "outbounds" := by decide
  simp [clientWith, jsObject, get_cons, hkeys]

theorem readTags_legacy (js : Runtime N) :
    readTags [proxyGroup [], autoGroup js [], directOutbound].zipIdx [] = .ok
      (groupEntries js [] []) := by
  have hkey : utf16 "type" ≠ utf16 "tag" := by decide
  have hempty : ∀ a ∈ ["proxy", "auto", "direct"], utf16 a ≠ [] := by decide
  have hfree : ∀ a ∈ ["proxy", "auto", "direct"], isReserved (utf16 a) = false := by decide
  have hne : utf16 "proxy" ≠ utf16 "auto" ∧ utf16 "proxy" ≠ utf16 "direct" ∧
    utf16 "auto" ≠ utf16 "direct" := by decide
  simp [readTags, proxyGroup, autoGroup, directOutbound, groupEntries, jsObject, jsText, get_cons,
    hkey, hempty, hfree, hne, lookup_cons', failIf]

theorem prepare_legacyDraft (site : Site N) (hjs : Decimals site.js) {snapshot : Snapshot N}
    (hblocked : snapshot.blocked = false) (havailable : availableNodes site.js snapshot ≠ []) :
    prepare site.js (legacyDraft site snapshot.secrets) snapshot =
      .ok (legacyPrepared site.js snapshot) := by
  obtain ⟨size, hsize⟩ := bound_legacyTemplate site.js
  have hparse : parse site.js (legacyDraft site snapshot.secrets).templateJson =
      some (.obj (legacyTemplate site.js)) := by
    rw [legacyDraft_eq, stringify_legacyTemplate hjs, parse_legacyText hjs]
  have hobjects : objects (Javascript.get (legacyTemplate site.js) (utf16 "outbounds"))
      (utf16 "/outbounds") = .ok [proxyGroup [], autoGroup site.js [], directOutbound] := by
    rw [legacyTemplate, outbounds_clientWith]
    rfl
  simp only [prepare, legacyDraft_accepted site hjs, hblocked, hparse, found, ok_bind, hsize,
    object, hobjects, readTags_legacy, havailable, failIf, Bool.true_eq_false, Bool.false_eq_true,
    if_false]
  rfl

/-! ## The filled groups -/

def legacyBindings : List Binding := [unfiltered "proxy" [] ["auto"], unfiltered "auto" [] []]

theorem members_unfiltered (groupTag : String) (staticMembers : List String)
    (generated : List (Generated N)) :
    (unfiltered groupTag [] staticMembers).members generated = generated.map Generated.tag := by
  simp [Binding.members, Binding.admits, unfiltered]

theorem eraseDups_of_nodup {l : List JsString} (h : l.Nodup) : l.eraseDups = l := by
  induction l with
  | nil => rfl
  | cons a l ih =>
    rw [List.nodup_cons] at h
    have hfilter : (l.filter fun b => !b == a) = l := by
      rw [List.filter_eq_self]
      intro b hb
      have hne : b ≠ a := fun e => h.1 (e ▸ hb)
      simpa using hne
    rw [List.eraseDups_cons, hfilter, ih h.2]

theorem set_proxyGroup (members members' : List JsString) :
    Javascript.set (utf16 "outbounds") (.arr (members'.map .str))
      (proxyGroup members : Members N) = proxyGroup members' := by
  have hkeys : ∀ a ∈ ["type", "tag", "default"], utf16 a ≠ utf16 "outbounds" ∧
      keyBefore (utf16 "outbounds") (utf16 a) = false := by decide
  simp [proxyGroup, jsObject, Javascript.set, hkeys]

theorem set_autoGroup (js : Runtime N) (members members' : List JsString) :
    Javascript.set (utf16 "outbounds") (.arr (members'.map .str)) (autoGroup js members) =
      autoGroup js members' := by
  have hkeys : ∀ a ∈ ["type", "tag", "url", "interval", "tolerance"],
      utf16 a ≠ utf16 "outbounds" ∧ keyBefore (utf16 "outbounds") (utf16 a) = false := by decide
  simp [autoGroup, jsObject, Javascript.set, hkeys]

theorem fillEntry_of_lookup (generated : List (Generated N)) {es : Entries N} {b : Binding}
    {group : Members N} (h : es.lookup b.groupTag = some group) :
    fillEntry generated es b = setEntry b.groupTag
      (Javascript.set (utf16 "outbounds") (b.filling generated) group) es := by
  rw [fillEntry, h]

/-- Every group gets every generated tag, and the selector the urltest besides. -/
theorem fillEntries_legacy {generated : List (Generated N)}
    (hnodup : (generated.map Generated.tag).Nodup)
    (hreserved : ∀ g ∈ generated, isReserved g.tag = true) :
    fillEntries generated (groupEntries js [] []) legacyBindings =
      groupEntries js (utf16 "auto" :: generated.map Generated.tag)
        (generated.map Generated.tag) := by
  have hauto : (utf16 "auto" :: generated.map Generated.tag).Nodup := by
    refine List.nodup_cons.2 ⟨fun hmem => ?_, hnodup⟩
    obtain ⟨g, hg, htag⟩ := List.mem_map.1 hmem
    have hfree : isReserved (utf16 "auto") = false := by decide
    rw [← htag, hreserved g hg] at hfree
    cases hfree
  have hproxy : (unfiltered "proxy" [] ["auto"]).filling generated =
      .arr ((utf16 "auto" :: generated.map Generated.tag).map .str) := by
    rw [Binding.filling, members_unfiltered]
    exact congrArg (fun l => JsValue.arr (l.map .str)) (eraseDups_of_nodup hauto)
  have hurltest : (unfiltered "auto" [] []).filling generated =
      .arr ((generated.map Generated.tag).map .str) := by
    rw [Binding.filling, members_unfiltered]
    exact congrArg (fun l => JsValue.arr (l.map .str)) (eraseDups_of_nodup hnodup)
  have hne : utf16 "proxy" ≠ utf16 "auto" := by decide
  have hfirst : fillEntry generated (groupEntries js [] []) (unfiltered "proxy" [] ["auto"]) =
      groupEntries js (utf16 "auto" :: generated.map Generated.tag) [] := by
    have hlookup : (groupEntries js [] []).lookup
        (unfiltered "proxy" [] ["auto"]).groupTag = some (proxyGroup []) := by
      rw [groupEntries, lookup_cons']
      exact if_pos rfl
    rw [fillEntry_of_lookup generated hlookup, hproxy, set_proxyGroup]
    exact if_pos rfl
  have hsecond : fillEntry generated
      (groupEntries js (utf16 "auto" :: generated.map Generated.tag) [])
      (unfiltered "auto" [] []) =
      groupEntries js (utf16 "auto" :: generated.map Generated.tag)
        (generated.map Generated.tag) := by
    have hlookup : (groupEntries js (utf16 "auto" :: generated.map Generated.tag) []).lookup
        (unfiltered "auto" [] []).groupTag = some (autoGroup js []) := by
      show List.lookup (utf16 "auto") _ = _
      rw [groupEntries, lookup_cons', if_neg hne, lookup_cons', if_pos rfl]
    rw [fillEntry_of_lookup generated hlookup, hurltest, set_autoGroup]
    show setEntry (utf16 "auto") _ _ = _
    rw [groupEntries, setEntry, if_neg hne, setEntry, if_pos rfl]
    rfl
  rw [fillEntries, legacyBindings, List.foldl_cons, List.foldl_cons, List.foldl_nil, hfirst,
    hsecond]

/-- The outbounds by tag once the groups are filled. -/
def adoptedEntries (js : Runtime N) (generated : List (Generated N)) : Entries N :=
  groupEntries js (utf16 "auto" :: generated.map Generated.tag) (generated.map Generated.tag) ++
    generated.map fun g => (g.tag, g.outbound)

theorem names_adoptedEntries (js : Runtime N) (generated : List (Generated N)) :
    (adoptedEntries js generated).map Prod.fst =
      utf16 "proxy" :: utf16 "auto" :: utf16 "direct" :: generated.map Generated.tag := by
  simp [adoptedEntries, groupEntries, Function.comp_def]

theorem mem_adoptedEntries {generated : List (Generated N)} {e : JsString × Members N} :
    e ∈ adoptedEntries js generated ↔
      e = (utf16 "proxy", proxyGroup (utf16 "auto" :: generated.map Generated.tag)) ∨
      e = (utf16 "auto", autoGroup js (generated.map Generated.tag)) ∨
      e = (utf16 "direct", directOutbound) ∨ ∃ g ∈ generated, e = (g.tag, g.outbound) := by
  simp only [adoptedEntries, groupEntries, List.mem_append, List.mem_cons, List.not_mem_nil,
    or_false, List.mem_map, or_assoc, eq_comm]

theorem get_nil (key : JsString) : Javascript.get ([] : Members N) key = none := rfl

theorem get_proxyGroup (members : List JsString) :
    Javascript.get (proxyGroup members : Members N) (utf16 "type") = some (jsText "selector") ∧
      Javascript.get (proxyGroup members : Members N) (utf16 "outbounds") =
        some (.arr (members.map .str)) ∧
      Javascript.get (proxyGroup members : Members N) (utf16 "default") = some (jsText "auto") ∧
      Javascript.get (proxyGroup members : Members N) (utf16 "detour") = none := by
  have hkeys : ∀ a ∈ ["type", "tag", "default", "outbounds"],
      ∀ b ∈ ["type", "outbounds", "default", "detour"], a ≠ b → utf16 a ≠ utf16 b := by decide
  simp [proxyGroup, jsObject, get_cons, get_nil, hkeys]

theorem get_autoGroup (js : Runtime N) (members : List JsString) :
    Javascript.get (autoGroup js members) (utf16 "type") = some (jsText "urltest") ∧
      Javascript.get (autoGroup js members) (utf16 "outbounds") =
        some (.arr (members.map .str)) ∧
      Javascript.get (autoGroup js members) (utf16 "default") = none ∧
      Javascript.get (autoGroup js members) (utf16 "detour") = none := by
  have hkeys : ∀ a ∈ ["type", "tag", "url", "interval", "tolerance", "outbounds"],
      ∀ b ∈ ["type", "outbounds", "default", "detour"], a ≠ b → utf16 a ≠ utf16 b := by decide
  simp [autoGroup, jsObject, get_cons, get_nil, hkeys]

theorem get_directOutbound :
    Javascript.get (directOutbound : Members N) (utf16 "type") = some (jsText "direct") ∧
      Javascript.get (directOutbound : Members N) (utf16 "outbounds") = none ∧
      Javascript.get (directOutbound : Members N) (utf16 "detour") = none := by
  have hkeys : ∀ a ∈ ["type", "tag"], ∀ b ∈ ["type", "outbounds", "detour"],
      a ≠ b → utf16 a ≠ utf16 b := by decide
  simp [directOutbound, jsObject, get_cons, get_nil, hkeys]

theorem get_clientOutbound (js : Runtime N) (type tag : JsString) (node : ClientNode N) (port : ℕ)
    (password : JsString) :
    Javascript.get (clientOutbound js type tag node port password) (utf16 "outbounds") = none ∧
      Javascript.get (clientOutbound js type tag node port password) (utf16 "detour") = none := by
  have hkeys : ∀ a ∈ ["type", "tag", "server", "server_port", "password", "tls"],
      ∀ b ∈ ["outbounds", "detour"], utf16 a ≠ utf16 b := by decide
  simp [clientOutbound, jsObject, get_cons, get_nil, hkeys]

/-! ## The checks hold -/

theorem names_str {names : List JsString} {s : JsString} :
    Names names (.str s : JsValue N) ↔ s ∈ names := by
  simp [Names]

theorem groupOk_adopted {generated : List (Generated N)} (hgen : Managed js generated)
    (hsome : generated ≠ []) :
    ∀ e ∈ adoptedEntries js generated,
      GroupOk js ((adoptedEntries js generated).map Prod.fst) e := by
  have hmembers : ∀ tag ∈ generated.map Generated.tag,
      tag ∈ (adoptedEntries js generated).map Prod.fst := by
    intro tag htag
    rw [names_adoptedEntries]
    simp [htag]
  intro e he
  rcases mem_adoptedEntries.1 he with rfl | rfl | rfl | ⟨g, hg, rfl⟩
  · obtain ⟨htype, houtbounds, hdefault, -⟩ :=
      get_proxyGroup (N := N) (utf16 "auto" :: generated.map Generated.tag)
    refine ⟨utf16 "selector", by simp [typeText, htype, jsText, text], fun _ =>
      ⟨_, houtbounds, by simp, ?_, ?_⟩⟩
    · intro v hv
      obtain ⟨tag, htag, rfl⟩ := List.mem_map.1 hv
      rw [names_str]
      rcases List.mem_cons.1 htag with rfl | htag
      · rw [names_adoptedEntries]
        simp
      · exact hmembers tag htag
    · intro value hvalue
      obtain rfl := Option.some.inj (hdefault.symm.trans hvalue)
      simp [includesText, jsText]
  · obtain ⟨htype, houtbounds, hdefault, -⟩ :=
      get_autoGroup js (generated.map Generated.tag)
    refine ⟨utf16 "urltest", by simp [typeText, htype, jsText, text], fun _ =>
      ⟨_, houtbounds, by simpa using hsome, ?_, ?_⟩⟩
    · intro v hv
      obtain ⟨tag, htag, rfl⟩ := List.mem_map.1 hv
      exact names_str.2 (hmembers tag htag)
    · intro value hvalue
      rw [hdefault] at hvalue
      cases hvalue
  · refine ⟨utf16 "direct", by simp [typeText, get_directOutbound.1, jsText, text], fun h => ?_⟩
    exact absurd h (by decide)
  · obtain ⟨htype, hprotocol, -⟩ := hgen g hg
    exact ⟨g.protocol, htype, fun h => absurd h (protocol_not_group hprotocol)⟩

theorem referencesResolve_leaf {names : List JsString} :
    (∀ s : JsString, ReferencesResolve names (.str s : JsValue N)) ∧
      (∀ b : Bool, ReferencesResolve names (.bool b : JsValue N)) ∧
      ∀ n : N, ReferencesResolve names (.num n) :=
  ⟨fun s => (walk_eq_ok names [] (.str s)).1 rfl, fun b => (walk_eq_ok names [] (.bool b)).1 rfl,
    fun n => (walk_eq_ok names [] (.num n)).1 rfl⟩

/-- An object literal none of whose keys is a reference key. -/
theorem referencesResolve_jsObject {names : List JsString} {members : List (String × JsValue N)}
    (hkeys : ∀ m ∈ members, utf16 m.1 ∉ referenceKeys)
    (hvalues : ∀ m ∈ members, ReferencesResolve names m.2) :
    ReferencesResolve names (.obj (jsObject members)) := by
  rw [referencesResolve_obj]
  intro m hm
  obtain ⟨m', hm', rfl⟩ := List.mem_map.1 hm
  exact ⟨fun hkey => absurd hkey (hkeys m' hm'), hvalues m' hm'⟩

theorem referencesResolve_texts {names : List JsString} (texts : List JsString) :
    ReferencesResolve names (.arr (texts.map .str) : JsValue N) := by
  rw [referencesResolve_arr]
  intro v hv
  obtain ⟨s, -, rfl⟩ := List.mem_map.1 hv
  exact referencesResolve_leaf.1 s

theorem referencesResolve_outboundTls {names : List JsString} (tls : TlsSettings) :
    ReferencesResolve names (.obj (outboundTls tls) : JsValue N) := by
  have hkeys : ∀ a ∈ ["enabled", "server_name", "certificate"], utf16 a ∉ referenceKeys := by
    decide
  apply referencesResolve_jsObject
  · cases tls <;> simp [hkeys]
  · cases tls <;> simp [referencesResolve_leaf, pemLines, referencesResolve_texts]

theorem referencesResolve_clientOutbound {names : List JsString} (js : Runtime N)
    (type tag : JsString) (node : ClientNode N) (port : ℕ) (password : JsString) :
    ReferencesResolve names (.obj (clientOutbound js type tag node port password)) := by
  have hkeys : ∀ a ∈ ["type", "tag", "server", "server_port", "password", "tls"],
      utf16 a ∉ referenceKeys := by decide
  apply referencesResolve_jsObject
  · simp [hkeys]
  · simp [referencesResolve_leaf, jsNat, referencesResolve_outboundTls]

theorem referencesResolve_groups {names : List JsString} (js : Runtime N)
    (members : List JsString) :
    ReferencesResolve names (.obj (proxyGroup members) : JsValue N) ∧
      ReferencesResolve names (.obj (autoGroup js members)) ∧
      ReferencesResolve names (.obj directOutbound : JsValue N) := by
  have hkeys : ∀ a ∈ ["type", "tag", "default", "url", "interval", "tolerance", "outbounds"],
      utf16 a ∉ referenceKeys := by decide
  have htexts : ReferencesResolve names (.arr (members.map .str) : JsValue N) :=
    referencesResolve_texts members
  refine ⟨?_, ?_, ?_⟩
  all_goals
    apply referencesResolve_jsObject
    · simp [hkeys]
    · simp [referencesResolve_leaf, jsText, jsNat, htexts]

/-- A client configuration refers to what its outbounds refer to. -/
theorem referencesResolve_clientWith {names : List JsString} (js : Runtime N)
    {outbounds : List (Members N)} (h : ∀ o ∈ outbounds, ReferencesResolve names (.obj o)) :
    ReferencesResolve names (.obj (clientWith js outbounds)) := by
  have hkeys : ∀ a ∈ ["log", "dns", "inbounds", "outbounds", "route", "level", "servers", "type",
      "tag", "listen", "listen_port", "default_domain_resolver", "final"],
      utf16 a ∉ referenceKeys := by decide
  have houtbounds : ReferencesResolve names (.arr (outbounds.map .obj)) := by
    rw [referencesResolve_arr]
    intro v hv
    obtain ⟨o, ho, rfl⟩ := List.mem_map.1 hv
    exact h o ho
  have hflat : ∀ members : List (String × JsValue N), (∀ m ∈ members, utf16 m.1 ∉ referenceKeys) →
      (∀ m ∈ members, ReferencesResolve names m.2) →
      ReferencesResolve names (.obj (jsObject members)) :=
    fun _ => referencesResolve_jsObject
  refine hflat _ (by simp [hkeys]) ?_
  simp only [List.forall_mem_cons, List.not_mem_nil, false_implies, implies_true, and_true]
  refine ⟨hflat _ (by simp [hkeys]) (by simp [referencesResolve_leaf, jsText]),
    hflat _ (by simp [hkeys]) ?_, ?_, houtbounds,
    hflat _ (by simp [hkeys]) (by simp [referencesResolve_leaf, jsText])⟩
  · simp only [List.forall_mem_cons, List.not_mem_nil, false_implies, implies_true, and_true,
      referencesResolve_arr]
    exact hflat _ (by simp [hkeys]) (by simp [referencesResolve_leaf, jsText])
  · simp only [List.forall_mem_cons, List.not_mem_nil, false_implies, implies_true, and_true,
      referencesResolve_arr]
    exact hflat _ (by simp [hkeys]) (by simp [referencesResolve_leaf, jsText, jsNat])

theorem route_clientWith {names : List JsString} (js : Runtime N) (outbounds : List (Members N))
    (h : utf16 "proxy" ∈ names) : RouteResolves names (clientWith js outbounds) := by
  have hkeys : ∀ a ∈ ["log", "dns", "inbounds", "outbounds"], utf16 a ≠ utf16 "route" := by
    decide
  have hfinal : utf16 "default_domain_resolver" ≠ utf16 "final" := by decide
  simp [RouteResolves, clientWith, jsObject, get_cons, hkeys, hfinal, jsText, names_str, h]

/-- An outbound that refers to nothing. -/
structure Leaf (outbound : Members N) : Prop where
  targets : targets outbound = []
  references : ∀ names, ReferencesResolve names (.obj outbound)

theorem leaf_generated {nodes : List (ClientNode N)} {secrets : ProxySecrets} :
    ∀ g ∈ nodes.flatMap (generateNode js secrets), Leaf g.outbound := by
  intro g hg
  obtain ⟨node, -, protocol, rfl⟩ := mem_generated.1 hg
  have hleaf : ∀ (type tag : JsString) (port : ℕ) (password : JsString),
      Leaf (clientOutbound js type tag node port password) := by
    intro type tag port password
    obtain ⟨houtbounds, hdetour⟩ := get_clientOutbound js type tag node port password
    exact ⟨by simp [targets, houtbounds, hdetour],
      fun _ => referencesResolve_clientOutbound js type tag node port password⟩
  cases protocol with
  | trojan => exact hleaf _ _ _ _
  | hysteria2 => exact hleaf _ _ _ _

section Graph

variable {generated : List (Generated N)}

/-- The references of an outbound that lists these members. -/
theorem references_adopted (hnodup : ((adoptedEntries js generated).map Prod.fst).Nodup)
    {tag : JsString} {outbound : Members N} (he : (tag, outbound) ∈ adoptedEntries js generated)
    (members : List JsString) (htargets : targets outbound = members.map .str) :
    references js (adoptedEntries js generated) tag = some (members.map some) := by
  rw [references, (lookup_iff_mem hnodup).2 he, Option.map_some, htargets, List.map_map]
  exact congrArg some (List.map_congr_left fun s _ => rfl)

theorem clean_of_members {g : Graph JsString} {tag : JsString} {members : List JsString}
    (h : g tag = some (members.map some)) (hmembers : ∀ m ∈ members, Clean g m) :
    Clean g tag := by
  refine .intro h (by simp) fun b hb => ?_
  obtain ⟨m, hm, hmb⟩ := List.mem_map.1 hb
  exact Option.some.inj hmb ▸ hmembers m hm

/-- The references lead from the selector to the urltest and from both to the nodes. -/
structure AdoptedGraph (g : Graph JsString) (tags : List JsString) : Prop where
  proxy : g (utf16 "proxy") = some ((utf16 "auto" :: tags).map some)
  auto : g (utf16 "auto") = some (tags.map some)
  direct : g (utf16 "direct") = some []
  nodes : ∀ tag ∈ tags, g tag = some []

theorem graph_adopted (hnodup : ((adoptedEntries js generated).map Prod.fst).Nodup)
    (hleaf : ∀ g ∈ generated, Leaf g.outbound) :
    AdoptedGraph (references js (adoptedEntries js generated)) (generated.map Generated.tag) := by
  refine ⟨?_, ?_, ?_, ?_⟩
  · obtain ⟨-, houtbounds, -, hdetour⟩ :=
      get_proxyGroup (N := N) (utf16 "auto" :: generated.map Generated.tag)
    have htargets : targets (proxyGroup (utf16 "auto" :: generated.map Generated.tag)) =
        ((utf16 "auto" :: generated.map Generated.tag).map .str : List (JsValue N)) := by
      simp [targets, houtbounds, hdetour]
    exact references_adopted hnodup (mem_adoptedEntries.2 (.inl rfl)) _ htargets
  · obtain ⟨-, houtbounds, -, hdetour⟩ := get_autoGroup js (generated.map Generated.tag)
    have htargets : targets (autoGroup js (generated.map Generated.tag)) =
        (generated.map Generated.tag).map .str := by simp [targets, houtbounds, hdetour]
    exact references_adopted hnodup (mem_adoptedEntries.2 (.inr (.inl rfl))) _ htargets
  · have htargets : targets (directOutbound : Members N) = [] := by
      simp [targets, get_directOutbound]
    exact references_adopted hnodup (mem_adoptedEntries.2 (.inr (.inr (.inl rfl)))) [] htargets
  · intro tag htag
    obtain ⟨g, hg, rfl⟩ := List.mem_map.1 htag
    have he : (g.tag, g.outbound) ∈ adoptedEntries js generated :=
      mem_adoptedEntries.2 (.inr (.inr (.inr ⟨g, hg, rfl⟩)))
    exact references_adopted hnodup he [] (hleaf g hg).targets

theorem clean_adopted
    (hgraph : AdoptedGraph (references js (adoptedEntries js generated))
      (generated.map Generated.tag)) :
    ∀ tag ∈ (adoptedEntries js generated).map Prod.fst,
      Clean (references js (adoptedEntries js generated)) tag := by
  have hgenerated : ∀ tag ∈ generated.map Generated.tag,
      Clean (references js (adoptedEntries js generated)) tag :=
    fun tag htag => @clean_of_members _ tag [] (hgraph.nodes tag htag) (by simp)
  have hauto : Clean (references js (adoptedEntries js generated)) (utf16 "auto") :=
    clean_of_members hgraph.auto hgenerated
  intro tag htag
  rw [names_adoptedEntries] at htag
  simp only [List.mem_cons] at htag
  rcases htag with rfl | rfl | rfl | htag
  · refine clean_of_members hgraph.proxy fun m hm => ?_
    rcases List.mem_cons.1 hm with rfl | hm
    · exact hauto
    · exact hgenerated m hm
  · exact hauto
  · exact @clean_of_members _ _ [] hgraph.direct (by simp)
  · exact hgenerated tag htag

/-- The longest path has three names. -/
def adoptedRank (tag : JsString) : ℕ :=
  if tag = utf16 "proxy" then 2 else if tag = utf16 "auto" then 1 else 0

theorem rank_adopted
    (hgraph : AdoptedGraph (references js (adoptedEntries js generated))
      (generated.map Generated.tag))
    (hreserved : ∀ g ∈ generated, isReserved g.tag = true) {a b : JsString}
    (hedge : Edge (references js (adoptedEntries js generated)) a b) :
    adoptedRank b < adoptedRank a := by
  have hne : utf16 "auto" ≠ utf16 "proxy" := by decide
  have hrank : ∀ tag ∈ generated.map Generated.tag, adoptedRank tag = 0 := by
    intro tag htag
    obtain ⟨g, hg, rfl⟩ := List.mem_map.1 htag
    have hfree : ∀ name ∈ ["proxy", "auto"], isReserved (utf16 name) = false := by decide
    have hproxy : g.tag ≠ utf16 "proxy" := by
      intro h
      have hres := hreserved g hg
      rw [h, hfree "proxy" (by simp)] at hres
      cases hres
    have hauto : g.tag ≠ utf16 "auto" := by
      intro h
      have hres := hreserved g hg
      rw [h, hfree "auto" (by simp)] at hres
      cases hres
    simp [adoptedRank, hproxy, hauto]
  obtain ⟨targets, hentry, hmem⟩ := hedge
  have hname : a ∈ (adoptedEntries js generated).map Prod.fst :=
    mem_names_of_references (by rw [hentry]; exact Option.some_ne_none targets)
  rw [names_adoptedEntries] at hname
  simp only [List.mem_cons] at hname
  rcases hname with rfl | rfl | rfl | hname
  · obtain rfl := Option.some.inj (hgraph.proxy.symm.trans hentry)
    obtain ⟨m, hm, hmb⟩ := List.mem_map.1 hmem
    obtain rfl := Option.some.inj hmb
    rcases List.mem_cons.1 hm with rfl | hm
    · decide
    · rw [hrank m hm]
      decide
  · obtain rfl := Option.some.inj (hgraph.auto.symm.trans hentry)
    obtain ⟨m, hm, hmb⟩ := List.mem_map.1 hmem
    obtain rfl := Option.some.inj hmb
    rw [hrank m hm]
    decide
  · obtain rfl := Option.some.inj (hgraph.direct.symm.trans hentry)
    cases hmem
  · obtain rfl := Option.some.inj ((hgraph.nodes a hname).symm.trans hentry)
    cases hmem

/-- The walks over these references fit on every call stack. -/
theorem not_overruns_adopted
    (hgraph : AdoptedGraph (references js (adoptedEntries js generated))
      (generated.map Generated.tag))
    (hreserved : ∀ g ∈ generated, isReserved g.tag = true) (name : JsString)
    (earlier : List JsString) (tag : JsString) :
    ¬ Overruns (references js (adoptedEntries js generated)) (js.callDepth name) []
      earlier tag := by
  refine not_overruns_of_rank (fun _ _ => rank_adopted hgraph hreserved) ?_
  have hroom := js.leastDepth name
  have hrank : adoptedRank tag ≤ 2 := by
    unfold adoptedRank
    split_ifs <;> decide
  simp only [List.length_nil]
  omega

theorem not_leavesOverrun {entries : Entries N}
    (h : ∀ earlier tag, ¬ Overruns (references js entries)
      (js.callDepth (utf16 "managedLeaves")) [] earlier tag)
    (done : List JsString) (bindings : List Binding) :
    ¬ LeavesOverrun js entries generated done bindings := by
  induction bindings generalizing done with
  | nil => exact id
  | cons b rest ih => exact fun hover => hover.elim (h _ _) fun hrest => ih _ hrest.2

/-- Both groups select every node. -/
theorem scopes_adopted (hclean : ∀ tag ∈ (adoptedEntries js generated).map Prod.fst,
      Clean (references js (adoptedEntries js generated)) tag) :
    ScopesOk js (adoptedEntries js generated) generated legacyBindings := by
  intro b hb tag hreserved hreach
  obtain ⟨hgroup, hselected⟩ : b.groupTag ∈ (adoptedEntries js generated).map Prod.fst ∧
      b.members generated = generated.map Generated.tag := by
    rw [names_adoptedEntries]
    rcases List.mem_cons.1 hb with rfl | hb
    · exact ⟨by simp [unfiltered], members_unfiltered _ _ _⟩
    · obtain rfl := List.mem_singleton.1 hb
      exact ⟨by simp [unfiltered], members_unfiltered _ _ _⟩
  rw [hselected]
  obtain ⟨targets, hentry, -⟩ := ((hclean _ hgroup).reach hreach).refs
  have hrefs : references js (adoptedEntries js generated) tag ≠ none := by
    rw [hentry]
    nofun
  have hmem := mem_names_of_references hrefs
  rw [names_adoptedEntries] at hmem
  simp only [List.mem_cons] at hmem
  rcases hmem with rfl | rfl | rfl | hmem
  · exact absurd hreserved (by decide)
  · exact absurd hreserved (by decide)
  · exact absurd hreserved (by decide)
  · exact hmem

end Graph

theorem generatedAt_of_free {generated : List (Generated N)} {tag : JsString}
    (hreserved : ∀ g ∈ generated, isReserved g.tag = true) (hfree : isReserved tag = false) :
    generatedAt generated tag = none := by
  rw [generatedAt, Option.map_eq_none_iff, List.find?_eq_none]
  intro g hg htag
  have htag' : g.tag = tag := of_decide_eq_true htag
  have := hreserved g (List.mem_reverse.1 hg)
  rw [htag', hfree] at this
  cases this

theorem fits_legacy {generated : List (Generated N)} (hsome : generated ≠ [])
    (hreserved : ∀ g ∈ generated, isReserved g.tag = true) :
    FitAll js (groupEntries js [] []) generated [] legacyBindings := by
  have hne : utf16 "proxy" ≠ utf16 "auto" := by decide
  have hselects : ∀ groupTag staticMembers,
      (unfiltered groupTag [] staticMembers).members generated ≠ [] := by
    intro groupTag staticMembers
    rw [members_unfiltered]
    simpa using hsome
  refine ⟨⟨nofun, ⟨proxyGroup [], utf16 "selector", ?_, ?_, by decide⟩, hselects _ _⟩,
    ⟨?_, ⟨autoGroup js [], utf16 "urltest", ?_, ?_, by decide⟩, hselects _ _⟩, trivial⟩
  · show (byTag _ _).lookup (utf16 "proxy") = _
    rw [lookup_byTag, generatedAt_of_free hreserved (by decide), Option.none_or, groupEntries,
      lookup_cons', if_pos rfl]
  · simp [typeText, get_proxyGroup, jsText, text]
  · decide
  · show (byTag _ _).lookup (utf16 "auto") = _
    rw [lookup_byTag, generatedAt_of_free hreserved (by decide), Option.none_or, groupEntries,
      lookup_cons', if_neg hne, lookup_cons', if_pos rfl]
  · simp [typeText, get_autoGroup, jsText, text]

theorem set_clientWith (js : Runtime N) (outbounds outbounds' : List (Members N)) :
    Javascript.set (utf16 "outbounds") (.arr (outbounds'.map .obj)) (clientWith js outbounds) =
      clientWith js outbounds' := by
  have hkeys : ∀ a ∈ ["log", "dns", "inbounds"], utf16 a ≠ utf16 "outbounds" ∧
      keyBefore (utf16 "outbounds") (utf16 a) = false := by decide
  simp [clientWith, jsObject, Javascript.set, hkeys]

theorem generated_ne_nil {snapshot : Snapshot N} (havailable : availableNodes js snapshot ≠ []) :
    (legacyPrepared js snapshot).generated ≠ [] := by
  obtain ⟨node, hnode⟩ := List.exists_mem_of_ne_nil _ havailable
  have hmem : generatedBy js snapshot.secrets node .trojan ∈
      (legacyPrepared js snapshot).generated := mem_generated.2 ⟨node, hnode, .trojan, rfl⟩
  intro hnil
  rw [hnil] at hmem
  cases hmem

/-- The draft renders to the template's configuration with the nodes in it. -/
theorem renderDocument_legacyDraft (site : Site N) (hjs : Decimals site.js)
    {snapshot : Snapshot N} (hblocked : snapshot.blocked = false)
    (havailable : availableNodes site.js snapshot ≠ [])
    (hids : (snapshot.nodes.map ClientNode.id).Nodup) :
    renderDocument site.js (legacyDraft site snapshot.secrets) snapshot =
      .ok (clientWith site.js ((adoptedEntries site.js
        (legacyPrepared site.js snapshot).generated).map Prod.snd),
        (availableNodes site.js snapshot).length) := by
  have hprepare := prepare_legacyDraft site hjs hblocked havailable
  have hreads := prepare_spec hprepare
  have hgen := hreads.managed
  have hreserved : ∀ g ∈ (legacyPrepared site.js snapshot).generated, isReserved g.tag = true :=
    fun g hg => (hgen g hg).2.2.2
  have hsome := generated_ne_nil havailable
  have hbindings : (legacyDraft site snapshot.secrets).bindings = legacyBindings := by
    rw [legacyDraft_eq]
    rfl
  obtain ⟨hfinal, hnodup⟩ := hreads.finalEntries_eq hids legacyBindings
  have hdistinct : ((legacyPrepared site.js snapshot).generated.map Generated.tag).Nodup := by
    rw [hfinal, List.map_append, List.map_map] at hnodup
    exact hnodup.of_append_right
  have hfilled : fillEntries (legacyPrepared site.js snapshot).generated
      (groupEntries site.js [] []) legacyBindings = _ := fillEntries_legacy hdistinct hreserved
  have hentries : finalEntries (legacyPrepared site.js snapshot) legacyBindings =
      adoptedEntries site.js (legacyPrepared site.js snapshot).generated := by
    rw [hfinal]
    exact congrArg (· ++ _) hfilled
  have hdocument : finalDocument (legacyPrepared site.js snapshot) legacyBindings =
      clientWith site.js ((adoptedEntries site.js
        (legacyPrepared site.js snapshot).generated).map Prod.snd) := by
    have houtbounds : ((fillEntries (legacyPrepared site.js snapshot).generated
        (groupEntries site.js [] []) legacyBindings).map fun e => JsValue.obj e.2) ++
        (legacyPrepared site.js snapshot).generated.map (fun g => .obj g.outbound) =
        ((adoptedEntries site.js (legacyPrepared site.js snapshot).generated).map
          Prod.snd).map .obj := by
      rw [hfilled, adoptedEntries, List.map_append, List.map_append, List.map_map, List.map_map,
        List.map_map]
      rfl
    show Javascript.set _ (.arr (_ ++ _)) (legacyTemplate site.js) = _
    rw [← set_clientWith site.js [proxyGroup [], autoGroup site.js [], directOutbound]]
    exact congrArg (fun items => Javascript.set _ (.arr items) (legacyTemplate site.js)) houtbounds
  rw [hentries] at hnodup
  have hgraph := graph_adopted hnodup leaf_generated
  have hclean := clean_adopted hgraph
  have hchecked : Checked site.js (legacyPrepared site.js snapshot) legacyBindings := by
    refine ⟨fits_legacy hsome hreserved, ?_, ?_, ?_, ?_, ?_, ?_, ?_⟩
    all_goals rw [hentries]
    · exact groupOk_adopted hgen hsome
    · rw [hdocument]
      refine referencesResolve_clientWith site.js fun o ho => ?_
      obtain ⟨e, he, rfl⟩ := List.mem_map.1 ho
      rcases mem_adoptedEntries.1 he with rfl | rfl | rfl | ⟨g, hg, rfl⟩
      · exact (referencesResolve_groups site.js _).1
      · exact (referencesResolve_groups site.js _).2.1
      · exact (referencesResolve_groups site.js []).2.2
      · exact (leaf_generated g hg).references _
    · rw [hdocument]
      refine route_clientWith site.js _ ?_
      rw [names_adoptedEntries]
      simp
    · exact hclean
    · rintro ⟨before, b, after, -, -, hover⟩
      exact not_overruns_adopted hgraph hreserved _ _ _ hover
    · exact scopes_adopted hclean
    · exact not_leavesOverrun (not_overruns_adopted hgraph hreserved _) _ _
  rw [← hbindings] at hchecked hdocument
  rw [renderDocument_of_checked hprepare hchecked, hdocument]
  rfl

/-! ## Renaming outbounds -/

section Rename

variable (rename : JsString → JsString)

def renameText : JsValue N → JsValue N
  | .str s => .str (rename s)
  | v => v

mutual

/-- Rename what the reference keys refer to, at any depth. -/
def renameIn : JsValue N → JsValue N
  | .arr items => .arr (renameItems items)
  | .obj members => .obj (renameMembers members)
  | v => v
termination_by structural v => v

def renameItems : List (JsValue N) → List (JsValue N)
  | [] => []
  | v :: vs => renameIn v :: renameItems vs
termination_by structural vs => vs

def renameMember : JsString × JsValue N → JsValue N
  | (k, v) => if referenceKeys.contains k then renameText rename v else renameIn v
termination_by structural m => m

def renameMembers : List (JsString × JsValue N) → List (JsString × JsValue N)
  | [] => []
  | m :: ms => (m.1, renameMember m) :: renameMembers ms
termination_by structural ms => ms

end

def renameTexts : JsValue N → JsValue N
  | .arr items => .arr (items.map (renameText rename))
  | v => v

/-- An outbound with its tag renamed, and the members, the default and the detours it refers to. -/
def renameOutbound (outbound : Members N) : Members N :=
  (renameMembers rename outbound).map fun m =>
    (m.1, if m.1 = utf16 "tag" ∨ m.1 = utf16 "default" then renameText rename m.2
      else if m.1 = utf16 "outbounds" then renameTexts rename m.2 else m.2)

def renameOutbounds : JsValue N → JsValue N
  | .arr items => .arr (items.map fun item =>
      match item with
      | .obj outbound => .obj (renameOutbound rename outbound)
      | v => v)
  | v => v

def renameRoute : JsValue N → JsValue N
  | .obj route => .obj ((renameMembers rename route).map fun m =>
      (m.1, if m.1 = utf16 "final" then renameText rename m.2 else m.2))
  | v => v

/-- A configuration with its outbounds renamed, and every reference to them. -/
def renameDocument (doc : Members N) : Members N :=
  doc.map fun m => (m.1,
    if m.1 = utf16 "outbounds" then renameOutbounds rename m.2
    else if m.1 = utf16 "route" then renameRoute rename m.2
    else renameIn rename m.2)

mutual

/-- A value without reference keys stays as it is. -/
theorem renameIn_of_free :
    (v : JsValue N) → ReferencesResolve [] v → renameIn rename v = v
  | .null, _ => rfl
  | .bool _, _ => rfl
  | .num _, _ => rfl
  | .str _, _ => rfl
  | .arr items, h => by
    rw [renameIn, renameItems_of_free items (referencesResolve_arr.1 h)]
  | .obj members, h => by
    rw [renameIn, renameMembers_of_free members (referencesResolve_obj.1 h)]

theorem renameItems_of_free :
    (vs : List (JsValue N)) → (∀ v ∈ vs, ReferencesResolve [] v) → renameItems rename vs = vs
  | [], _ => rfl
  | v :: vs, h => by
    rw [renameItems, renameIn_of_free v (h v List.mem_cons_self),
      renameItems_of_free vs fun v hv => h v (List.mem_cons_of_mem _ hv)]

theorem renameMembers_of_free :
    (ms : List (JsString × JsValue N)) →
      (∀ m ∈ ms, (m.1 ∈ referenceKeys → Names [] m.2) ∧ ReferencesResolve [] m.2) →
      renameMembers rename ms = ms
  | [], _ => rfl
  | (k, v) :: ms, h => by
    obtain ⟨hkey, hv⟩ := h (k, v) List.mem_cons_self
    have hfree : ¬ referenceKeys.contains k = true := by
      intro hk
      obtain ⟨s, hs, -⟩ := hkey (List.contains_iff_mem.1 hk)
      cases hs
    rw [renameMembers, renameMember, if_neg hfree, renameIn_of_free v hv,
      renameMembers_of_free ms fun m hm => h m (List.mem_cons_of_mem _ hm)]

end

theorem renameMembers_of_resolve {members : Members N}
    (h : ReferencesResolve [] (.obj members)) : renameMembers rename members = members :=
  renameMembers_of_free rename members (referencesResolve_obj.1 h)

theorem renameOutbound_clientOutbound (js : Runtime N) (type tag : JsString)
    (node : ClientNode N) (port : ℕ) (password : JsString) :
    renameOutbound rename (clientOutbound js type tag node port password) =
      clientOutbound js type (rename tag) node port password := by
  have hkeys : ∀ a ∈ ["type", "tag", "server", "server_port", "password", "tls"],
      ∀ b ∈ ["tag", "default", "outbounds"], a ≠ b → utf16 a ≠ utf16 b := by decide
  rw [renameOutbound, renameMembers_of_resolve rename
    (referencesResolve_clientOutbound js type tag node port password)]
  simp [clientOutbound, jsObject, hkeys, renameText]

theorem renameOutbound_direct (h : rename (utf16 "direct") = utf16 "direct") :
    renameOutbound rename (directOutbound : Members N) = directOutbound := by
  have hkeys : ∀ b ∈ ["tag", "default", "outbounds"], utf16 "type" ≠ utf16 b := by decide
  have hfree : ∀ a ∈ ["type", "tag"], utf16 a ∉ referenceKeys := by decide
  have hresolve : ReferencesResolve [] (.obj directOutbound : JsValue N) :=
    referencesResolve_jsObject (by simp [hfree]) (by simp [referencesResolve_leaf, jsText])
  rw [renameOutbound, renameMembers_of_resolve rename hresolve]
  simp [directOutbound, jsObject, hkeys, renameText, jsText, h]

/-- Renaming reaches the outbounds and leaves the rest, as long as the selector keeps its name. -/
theorem renameDocument_clientWith (js : Runtime N) (outbounds : List (Members N))
    (h : rename (utf16 "proxy") = utf16 "proxy") :
    renameDocument rename (clientWith js outbounds) =
      clientWith js (outbounds.map (renameOutbound rename)) := by
  have hkeys : ∀ a ∈ ["log", "dns", "inbounds", "outbounds", "route"],
      ∀ b ∈ ["outbounds", "route"], a ≠ b → utf16 a ≠ utf16 b := by decide
  have hfinal : utf16 "default_domain_resolver" ≠ utf16 "final" := by decide
  have hproxy : renameText rename (jsText "proxy") = (jsText "proxy" : JsValue N) :=
    congrArg JsValue.str h
  have hempty : ReferencesResolve [] (.obj (clientWith js [])) :=
    referencesResolve_clientWith js fun o ho => by cases ho
  have hfree : ∀ m ∈ clientWith js [], ReferencesResolve [] m.2 := fun m hm =>
    (referencesResolve_obj.1 hempty m hm).2
  rw [clientWith, jsObject] at hfree
  simp only [List.map_cons, List.map_nil, List.forall_mem_cons] at hfree
  obtain ⟨hlog, hdns, hinbounds, -, hroute, -⟩ := hfree
  simp only [renameDocument, clientWith, jsObject, List.map_cons, List.map_nil] at *
  simp [hkeys, renameIn_of_free rename _ hlog, renameIn_of_free rename _ hdns,
    renameIn_of_free rename _ hinbounds, renameRoute, renameMembers_of_resolve rename hroute,
    renameOutbounds, hfinal, hproxy, Function.comp_def]

end Rename

/-! ## The configuration `renderClient` builds -/

/-- The selector and the urltest of `renderClient`. -/
def legacyGroups (js : Runtime N) (tags : List JsString) : List (Members N) :=
  [jsObject [("type", jsText "selector"), ("tag", jsText "proxy"),
      ("outbounds", .arr ((utf16 "auto" :: tags).map .str)), ("default", jsText "auto")],
    jsObject [("type", jsText "urltest"), ("tag", jsText "auto"),
      ("outbounds", .arr (tags.map .str)),
      ("url", jsText "https://www.gstatic.com/generate_204"), ("interval", jsText "3m"),
      ("tolerance", jsNat js 50)]]

/-- The tags `renderClient` gives the outbounds of the nodes. -/
def legacyTags (nodes : List (ClientNode N)) : List JsString :=
  nodes.flatMap fun node => [displayTag node "Trojan", displayTag node "Hysteria2"]

/-- The tags reserved for the outbounds of the nodes. -/
def managedTags (nodes : List (ClientNode N)) : List JsString :=
  nodes.flatMap fun node =>
    [managedTag node.id (utf16 "trojan"), managedTag node.id (utf16 "hysteria2")]

theorem tagOf_clientOutbound (js : Runtime N) (type tag : JsString) (node : ClientNode N)
    (port : ℕ) (password : JsString) :
    tagOf (clientOutbound js type tag node port password) = [.str tag] := by
  have hne : utf16 "type" ≠ utf16 "tag" := by decide
  simp [tagOf, clientOutbound, jsObject, get_cons, hne]

theorem tagOf_nodeOutbounds (js : Runtime N) (secrets : ProxySecrets)
    (nodes : List (ClientNode N)) :
    (nodes.flatMap (nodeOutbounds js secrets)).flatMap tagOf = (legacyTags nodes).map .str := by
  rw [List.flatMap_assoc, legacyTags, List.map_flatMap]
  refine List.flatMap_congr fun node _ => ?_
  simp [nodeOutbounds, tagOf_clientOutbound]

theorem renderClient_eq (js : Runtime N) (secrets : ProxySecrets) {nodes : List (ClientNode N)}
    (hnodes : nodes ≠ []) :
    renderClient js nodes secrets false = clientWith js (legacyGroups js (legacyTags nodes) ++
      nodes.flatMap (nodeOutbounds js secrets) ++ [directOutbound]) := by
  have houtbounds : nodes.flatMap (nodeOutbounds js secrets) ≠ [] := by
    obtain ⟨node, hnode⟩ := List.exists_mem_of_ne_nil _ hnodes
    intro hnil
    have := List.flatMap_eq_nil_iff.1 hnil node hnode
    cases this
  have hclient : clientOutbounds js nodes secrets false = legacyGroups js (legacyTags nodes) ++
      nodes.flatMap (nodeOutbounds js secrets) ++ [directOutbound] := by
    simp only [clientOutbounds, if_neg houtbounds, Bool.false_eq_true, if_false,
      tagOf_nodeOutbounds]
    rfl
  have hreachable : nodes.isEmpty = false := by simpa using hnodes
  simp only [renderClient, hclient, hreachable]
  rfl

/-! ## The tags -/

/-- The tag a legacy tag becomes. -/
def adoptedTag (nodes : List (ClientNode N)) (tag : JsString) : JsString :=
  (((legacyTags nodes).zip (managedTags nodes)).lookup tag).getD tag

theorem map_lookup_zip {keys values : List JsString} (hkeys : keys.Nodup)
    (hlength : keys.length = values.length) :
    keys.map (fun key => ((keys.zip values).lookup key).getD key) = values := by
  induction keys generalizing values with
  | nil =>
    cases values with
    | nil => rfl
    | cons _ _ => cases hlength
  | cons key keys ih =>
    cases values with
    | nil => cases hlength
    | cons value values =>
      rw [List.nodup_cons] at hkeys
      simp only [List.zip_cons_cons, List.map_cons, lookup_cons', if_true, Option.getD_some,
        List.cons.injEq, true_and]
      rw [← ih hkeys.2 (Nat.succ.inj hlength)]
      refine List.map_congr_left fun k hk => ?_
      have hne : ¬ key = k := fun e => hkeys.1 (e ▸ hk)
      rw [if_neg hne, ih hkeys.2 (Nat.succ.inj hlength)]

theorem length_legacyTags (nodes : List (ClientNode N)) :
    (legacyTags nodes).length = (managedTags nodes).length := by
  simp [legacyTags, managedTags, List.length_flatMap]

section Tags

variable {nodes : List (ClientNode N)}

theorem map_adoptedTag (htags : (legacyTags nodes).Nodup) :
    (legacyTags nodes).map (adoptedTag nodes) = managedTags nodes :=
  map_lookup_zip htags (length_legacyTags nodes)

theorem adoptedTag_of_notMem {tag : JsString} (h : tag ∉ legacyTags nodes) :
    adoptedTag nodes tag = tag := by
  have hnone : ((legacyTags nodes).zip (managedTags nodes)).lookup tag = none := by
    cases hlookup : ((legacyTags nodes).zip (managedTags nodes)).lookup tag with
    | none => rfl
    | some value =>
      have hmem : tag ∈ ((legacyTags nodes).zip (managedTags nodes)).map Prod.fst :=
        mem_names_iff.2 ⟨value, hlookup⟩
      rw [List.map_fst_zip (length_legacyTags nodes).le] at hmem
      exact absurd hmem h
  rw [adoptedTag, hnone, Option.getD_none]

/-- A legacy tag has a blank in it. -/
theorem blank_mem_of_legacy {tag : JsString} (h : tag ∈ legacyTags nodes) :
    (0x20 : UInt16) ∈ tag := by
  have hblank : (0x20 : UInt16) ∈ utf16 " / " := by decide
  obtain ⟨node, -, htag⟩ := List.mem_flatMap.1 h
  simp only [List.mem_cons, List.not_mem_nil, or_false] at htag
  rcases htag with rfl | rfl <;> simp [displayTag, hblank]

theorem adoptedTag_fixed {name : String} (h : name ∈ ["proxy", "auto", "direct"]) :
    adoptedTag nodes (utf16 name) = utf16 name := by
  have hblank : ∀ name ∈ ["proxy", "auto", "direct"], (0x20 : UInt16) ∉ utf16 name := by decide
  exact adoptedTag_of_notMem fun hmem => hblank name h (blank_mem_of_legacy hmem)

theorem pairs_of_flatMap_eq {α β : Type} {f g f' g' : α → β} {l : List α}
    (h : l.flatMap (fun a => [f a, g a]) = l.flatMap fun a => [f' a, g' a]) :
    ∀ a ∈ l, f a = f' a ∧ g a = g' a := by
  induction l with
  | nil => simp
  | cons a l ih =>
    simp only [List.flatMap_cons, List.cons_append, List.nil_append, List.cons.injEq] at h
    intro b hb
    rcases List.mem_cons.1 hb with rfl | hb
    · exact ⟨h.1, h.2.1⟩
    · exact ih h.2.2 b hb

theorem adoptedTag_displayTag (htags : (legacyTags nodes).Nodup) :
    ∀ node ∈ nodes,
      adoptedTag nodes (displayTag node "Trojan") = managedTag node.id (utf16 "trojan") ∧
      adoptedTag nodes (displayTag node "Hysteria2") = managedTag node.id (utf16 "hysteria2") := by
  have hmap : nodes.flatMap (fun node => [adoptedTag nodes (displayTag node "Trojan"),
      adoptedTag nodes (displayTag node "Hysteria2")]) = managedTags nodes := by
    rw [← map_adoptedTag htags, legacyTags, List.map_flatMap]
    rfl
  exact pairs_of_flatMap_eq hmap

theorem tags_generated (js : Runtime N) (secrets : ProxySecrets) (nodes : List (ClientNode N)) :
    (nodes.flatMap (generateNode js secrets)).map Generated.tag = managedTags nodes := by
  rw [List.map_flatMap, managedTags]
  refine List.flatMap_congr fun node _ => ?_
  rw [generateNode_eq]
  rfl

theorem bijOn_of_map {f : JsString → JsString} {tags tags' : List JsString}
    (h : tags.map f = tags') (hnodup : tags'.Nodup) :
    Set.BijOn f {tag | tag ∈ tags} {tag | tag ∈ tags'} := by
  subst h
  refine ⟨fun tag htag => List.mem_map_of_mem htag, fun a ha b hb hab => ?_, fun tag htag => ?_⟩
  · exact List.inj_on_of_nodup_map hnodup ha hb hab
  · obtain ⟨a, ha, rfl⟩ := List.mem_map.1 htag
    exact ⟨a, ha, rfl⟩

end Tags

/-! ## The same configuration -/

/-- Two outbounds with the same members, where what they list may stand in another order. -/
structure Alike (a b : Members N) : Prop where
  members : ∀ key, key ≠ utf16 "outbounds" → Javascript.get a key = Javascript.get b key
  listed : Javascript.get a (utf16 "outbounds") = Javascript.get b (utf16 "outbounds") ∨
    ∃ l l' : List (JsValue N), Javascript.get a (utf16 "outbounds") = some (.arr l) ∧
      Javascript.get b (utf16 "outbounds") = some (.arr l') ∧ l.Perm l'

/-- Two configurations with the same members, where the outbounds may stand in another order. -/
structure SameConfiguration (a b : Members N) : Prop where
  members : ∀ key, key ≠ utf16 "outbounds" → Javascript.get a key = Javascript.get b key
  outbounds : ∃ l m l' : List (Members N),
    Javascript.get a (utf16 "outbounds") = some (.arr (l.map .obj)) ∧
    Javascript.get b (utf16 "outbounds") = some (.arr (l'.map .obj)) ∧ l.Perm m ∧
    List.Forall₂ Alike m l'

theorem alike_refl (a : Members N) : Alike a a := ⟨fun _ _ => rfl, .inl rfl⟩

theorem get_clientWith (js : Runtime N) (outbounds outbounds' : List (Members N))
    {key : JsString} (hkey : key ≠ utf16 "outbounds") :
    Javascript.get (clientWith js outbounds) key = Javascript.get (clientWith js outbounds') key := by
  simp [clientWith, jsObject, get_cons, Ne.symm hkey]

theorem renameOutbound_legacyGroups (js : Runtime N) {rename : JsString → JsString}
    (tags : List JsString) (hproxy : rename (utf16 "proxy") = utf16 "proxy")
    (hauto : rename (utf16 "auto") = utf16 "auto") :
    (legacyGroups js tags).map (renameOutbound rename) = legacyGroups js (tags.map rename) := by
  have hkeys : ∀ a ∈ ["type", "tag", "outbounds", "default", "url", "interval", "tolerance"],
      ∀ b ∈ ["tag", "default", "outbounds"], a ≠ b → utf16 a ≠ utf16 b := by decide
  have hfree : ∀ a ∈ ["type", "tag", "outbounds", "default", "url", "interval", "tolerance"],
      utf16 a ∉ referenceKeys := by decide
  have hresolve : ∀ o ∈ legacyGroups js tags, ReferencesResolve [] (.obj o) := by
    have htexts : ∀ members : List JsString,
        ReferencesResolve [] (.arr (members.map .str) : JsValue N) := referencesResolve_texts
    intro o ho
    simp only [legacyGroups, List.mem_cons, List.not_mem_nil, or_false] at ho
    rcases ho with rfl | rfl
    all_goals
      apply referencesResolve_jsObject
      · simp [hfree]
      · simp only [List.forall_mem_cons, htexts, jsText, jsNat, referencesResolve_leaf]
        simp
  have hrename : ∀ o ∈ legacyGroups js tags, renameOutbound rename o =
      o.map fun m => (m.1, if m.1 = utf16 "tag" ∨ m.1 = utf16 "default" then
        renameText rename m.2 else if m.1 = utf16 "outbounds" then renameTexts rename m.2
        else m.2) := by
    intro o ho
    rw [renameOutbound, renameMembers_of_resolve rename (hresolve o ho)]
  rw [List.map_congr_left hrename]
  simp [legacyGroups, jsObject, hkeys, renameText, renameTexts, jsText, hproxy, hauto,
    Function.comp_def]

/-- The groups of the template are those of `renderClient`. -/
theorem alike_groups (js : Runtime N) {tags tags' : List JsString} (hperm : tags.Perm tags') :
    List.Forall₂ Alike [proxyGroup (utf16 "auto" :: tags), autoGroup js tags]
      (legacyGroups js tags') := by
  have hkeys : ∀ a ∈ ["type", "tag", "default", "url", "interval", "tolerance"],
      utf16 a ≠ utf16 "outbounds" := by decide
  have hlisted : ∀ {l l' : List JsString}, l.Perm l' →
      (l.map JsValue.str : List (JsValue N)).Perm (l'.map .str) := fun h => h.map _
  refine .cons ⟨fun key hkey => ?_, .inr ⟨_, _, (get_proxyGroup _).2.1, ?_,
    hlisted (hperm.cons (utf16 "auto"))⟩⟩ (.cons ⟨fun key hkey => ?_, .inr ⟨_, _,
    (get_autoGroup js _).2.1, ?_, hlisted hperm⟩⟩ .nil)
  · simp [proxyGroup, jsObject, get_cons, Ne.symm hkey]
  · simp [jsObject, get_cons, hkeys]
  · simp [autoGroup, jsObject, get_cons, Ne.symm hkey]
  · simp [jsObject, get_cons, hkeys]

theorem renameOutbound_nodeOutbounds (js : Runtime N) (secrets : ProxySecrets)
    {nodes : List (ClientNode N)} (htags : (legacyTags nodes).Nodup) :
    (nodes.flatMap (nodeOutbounds js secrets)).map (renameOutbound (adoptedTag nodes)) =
      nodes.flatMap fun node =>
        [managedOutbound js secrets node .trojan, managedOutbound js secrets node .hysteria2] := by
  rw [List.map_flatMap]
  refine List.flatMap_congr fun node hnode => ?_
  obtain ⟨htrojan, hhysteria⟩ := adoptedTag_displayTag htags node hnode
  simp only [nodeOutbounds, List.map_cons, List.map_nil, renameOutbound_clientOutbound, htrojan,
    hhysteria]
  rfl

/-- The nodes a client can use. -/
def usableNodes (snapshot : Snapshot N) : List (ClientNode N) :=
  snapshot.nodes.filter fun node => node.available

/-- The rendered template is the legacy configuration under the reserved tags. -/
theorem sameConfiguration_adopted {draft : SubscriptionDraft} {snapshot : Snapshot N}
    (hreads : Reads js draft snapshot (legacyPrepared js snapshot))
    (hnodes : usableNodes snapshot ≠ []) (htags : (legacyTags (usableNodes snapshot)).Nodup) :
    SameConfiguration
      (clientWith js ((adoptedEntries js (legacyPrepared js snapshot).generated).map Prod.snd))
      (renameDocument (adoptedTag (usableNodes snapshot))
        (renderClient js (usableNodes snapshot) snapshot.secrets false)) := by
  have hfixed : ∀ name ∈ ["proxy", "auto", "direct"],
      adoptedTag (usableNodes snapshot) (utf16 name) = utf16 name := fun _ h => adoptedTag_fixed h
  have hproxy := hfixed "proxy" (by simp)
  have hauto := hfixed "auto" (by simp)
  have hdirect := hfixed "direct" (by simp)
  have hperm : (availableNodes js snapshot).Perm (usableNodes snapshot) :=
    perm_availableNodes snapshot
  have hlisted : ((legacyPrepared js snapshot).generated.map Generated.tag).Perm
      (managedTags (usableNodes snapshot)) := by
    have hgenerated := tags_generated js snapshot.secrets (availableNodes js snapshot)
    rw [legacyPrepared, hgenerated]
    exact hperm.flatMap_right _
  have houtbounds := hreads.managed_perm
  rw [renderClient_eq js snapshot.secrets hnodes, renameDocument_clientWith _ js _ hproxy,
    List.map_append, List.map_append, renameOutbound_legacyGroups js _ hproxy hauto,
    renameOutbound_nodeOutbounds js snapshot.secrets htags, map_adoptedTag htags]
  refine ⟨fun key hkey => get_clientWith js _ _ hkey, _, _, _, outbounds_clientWith js _,
    outbounds_clientWith js _, ?_, List.rel_append (List.rel_append (alike_groups js hlisted)
      (List.forall₂_same.2 fun o _ => alike_refl o)) (List.forall₂_same.2 fun o _ => alike_refl o)⟩
  have hsplit : (adoptedEntries js (legacyPrepared js snapshot).generated).map Prod.snd =
      [proxyGroup (utf16 "auto" :: (legacyPrepared js snapshot).generated.map Generated.tag),
        autoGroup js ((legacyPrepared js snapshot).generated.map Generated.tag), directOutbound] ++
        (legacyPrepared js snapshot).generated.map Generated.outbound := by
    rw [adoptedEntries, List.map_append, List.map_map]
    rfl
  rw [hsplit, List.map_singleton, renameOutbound_direct _ hdirect]
  refine .cons _ (.cons _ ?_)
  exact (houtbounds.cons directOutbound).trans (List.perm_append_singleton _ _).symm

/-- **Adopting a legacy subscription keeps its meaning.** For an account that is not blocked and has
a node, where neither ids nor legacy tags repeat, the adopted draft renders. The tags of the nodes
correspond one to one, and with them renamed throughout the legacy configuration is the rendered
one, up to the order of the outbounds and of what the groups list. -/
theorem legacyDraft_adopts (site : Site N) (hjs : Decimals site.js) (snapshot : Snapshot N)
    (hblocked : snapshot.blocked = false) (hnodes : ∃ node ∈ snapshot.nodes, node.available = true)
    (hids : (snapshot.nodes.map ClientNode.id).Nodup)
    (htags : (legacyTags (usableNodes snapshot)).Nodup) :
    ∃ r doc, renderSubscription site.js (legacyDraft site snapshot.secrets) snapshot = .ok r ∧
      r.configJson = jsonText site.js doc ∧
      Set.BijOn (adoptedTag (usableNodes snapshot)) {tag | tag ∈ legacyTags (usableNodes snapshot)}
        {tag | tag ∈ managedTags (usableNodes snapshot)} ∧
      (∀ node ∈ usableNodes snapshot,
        adoptedTag (usableNodes snapshot) (displayTag node "Trojan") =
          managedTag node.id (utf16 "trojan") ∧
        adoptedTag (usableNodes snapshot) (displayTag node "Hysteria2") =
          managedTag node.id (utf16 "hysteria2")) ∧
      (∀ tag, tag ∉ legacyTags (usableNodes snapshot) →
        adoptedTag (usableNodes snapshot) tag = tag) ∧
      SameConfiguration doc (renameDocument (adoptedTag (usableNodes snapshot))
        (renderClient site.js (usableNodes snapshot) snapshot.secrets false)) := by
  have husable : usableNodes snapshot ≠ [] := by
    obtain ⟨node, hnode, havailable⟩ := hnodes
    exact List.ne_nil_of_mem (List.mem_filter.2 ⟨hnode, havailable⟩)
  have hperm : (availableNodes site.js snapshot).Perm (usableNodes snapshot) :=
    perm_availableNodes snapshot
  have havailable : availableNodes site.js snapshot ≠ [] := fun hnil =>
    husable (List.nil_perm.1 (hnil ▸ hperm))
  have hrender := renderDocument_legacyDraft site hjs hblocked havailable hids
  have hreads := prepare_spec (prepare_legacyDraft site hjs hblocked havailable)
  have hdistinct : (managedTags (usableNodes snapshot)).Nodup := by
    rw [← tags_generated site.js snapshot.secrets]
    exact nodup_generatedTags (hids.sublist (List.filter_sublist.map ClientNode.id))
  refine ⟨⟨jsonText site.js _, (availableNodes site.js snapshot).length⟩, _, ?_, rfl,
    bijOn_of_map (map_adoptedTag htags) hdistinct,
    adoptedTag_displayTag htags, fun tag htag => adoptedTag_of_notMem htag,
    sameConfiguration_adopted hreads husable htags⟩
  rw [renderSubscription, hrender]
  rfl

/-- A site whose engine keeps numbers as their digits. -/
def digitSite : Site JsString := ⟨literals, "https://panel.test", []⟩

def twoNodes : Snapshot JsString where
  secrets := ⟨utf16 "trojan-secret", utf16 "hysteria-secret"⟩
  active := true
  overQuota := false
  nodes :=
    [⟨utf16 "node-1", utf16 "One", utf16 "one.test", utf16 "hk", [], ⟨none, 443, 8443,
        .path (utf16 "one.test") (utf16 "/cert.pem") (utf16 "/key.pem"), []⟩, true⟩,
      ⟨utf16 "node-2", utf16 "Two", utf16 "two.test", utf16 "jp", [], ⟨none, 443, 8443,
        .path (utf16 "two.test") (utf16 "/cert.pem") (utf16 "/key.pem"), []⟩, true⟩]

theorem twoNodes_adopted : ∃ r doc,
    renderSubscription literals (legacyDraft digitSite twoNodes.secrets) twoNodes = .ok r ∧
      r.configJson = jsonText literals doc ∧
      SameConfiguration doc (renameDocument (adoptedTag (usableNodes twoNodes))
        (renderClient literals (usableNodes twoNodes) twoNodes.secrets false)) := by
  obtain ⟨r, doc, hrender, htext, -, -, -, hsame⟩ :=
    legacyDraft_adopts digitSite ⟨fun _ _ => rfl, fun _ _ => rfl⟩ twoNodes (by decide)
      ⟨_, List.mem_cons_self, rfl⟩ (by decide) (by decide)
  exact ⟨r, doc, hrender, htext, hsame⟩

end Bifurcation.Panel.Adoption
