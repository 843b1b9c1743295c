import Bifurcation.Lib.DepthFirst
import Bifurcation.Panel.SingBox

/-!
# Subscription templates

`subscription/template.ts`: a client configuration is a template the user wrote, with the
outbounds of the available nodes added and the bound groups filled. `renderSubscription` checks
what it generates and refuses the rest with an `AppError`; the model also keeps the exceptions it
does not mean to throw. The two walks over the references are recursive, and a chain of references
may be longer than the call stack has room for; the walks over values are at most as deep as
`bound` lets a value be.
-/

namespace Bifurcation.Panel

open Javascript

/-- What a call throws. -/
inductive Thrown where
  /-- `new AppError(code, message, status)`. -/
  | app (code : String) (message : JsString) (status : ℕ)
  /-- A property of `undefined` was read, or a value has no string form. -/
  | typeError
  /-- The call stack is full. -/
  | rangeError
  /-- A schema refused its input. -/
  | zod
  /-- The database refused a row. -/
  | constraint
deriving DecidableEq

def Thrown.isApp : Thrown → Bool
  | .app .. => true
  | _ => false

/-! ## Drafts -/

inductive Protocol where
  | trojan
  | hysteria2
deriving DecidableEq

def Protocol.text : Protocol → JsString
  | .trojan => utf16 "trojan"
  | .hysteria2 => utf16 "hysteria2"

structure Binding where
  groupTag : JsString
  regions : List JsString
  tags : List JsString
  protocols : List Protocol
  machineIds : List JsString
  excludeMachineIds : List JsString
  staticMembers : List JsString
deriving DecidableEq

structure SubscriptionDraft where
  templateJson : JsString
  bindings : List Binding
deriving DecidableEq

/-- The schema `strings`. -/
def stringsAccepted (l : List JsString) : Bool :=
  l.all (fun s => 1 ≤ s.length && s.length ≤ 160) && l.length ≤ 100

def Binding.accepted (b : Binding) : Bool :=
  1 ≤ b.groupTag.length && b.groupTag.length ≤ 100 && stringsAccepted b.regions &&
    stringsAccepted b.tags && b.protocols.length ≤ 2 && stringsAccepted b.machineIds &&
    stringsAccepted b.excludeMachineIds && stringsAccepted b.staticMembers

/-- `draftSchema`. -/
def SubscriptionDraft.accepted (d : SubscriptionDraft) : Bool :=
  d.templateJson.length ≤ 1024 * 1024 && d.bindings.all Binding.accepted && d.bindings.length ≤ 64

/-- What a subscription is rendered from: the owner's secrets and quota, and the nodes. -/
structure Snapshot (N : Type) where
  secrets : ProxySecrets
  active : Bool
  overQuota : Bool
  nodes : List (ClientNode N)

/-- `quota.user.status !== "active" || quota.blocked`. -/
def Snapshot.blocked {N : Type} (s : Snapshot N) : Bool := !s.active || s.overQuota

section Render

variable {N : Type} (js : Runtime N)

/-! ## Reading the template -/

def invalid (path : JsString) (message : String) : Thrown :=
  .app "INVALID_SUBSCRIPTION_CONFIG" (path ++ utf16 ": " ++ utf16 message) 422

def object (value : Option (JsValue N)) (path : JsString) : Except Thrown (Members N) :=
  match value with
  | some (.obj members) => .ok members
  | _ => .error (invalid path "需要 JSON 对象")

def objects (value : Option (JsValue N)) (path : JsString) : Except Thrown (List (Members N)) :=
  match value with
  | some (.arr items) => items.zipIdx.mapM fun (entry, index) =>
      object (some entry) (path ++ utf16 "/" ++ decimal index)
  | _ => .error (invalid path "需要数组")

mutual

/-- Count the elements of a value below `depth` levels. -/
def bound : ℕ → ℕ → JsValue N → Except Thrown ℕ
  | depth, size, .arr items => do
    failIf (depth > 64 ∨ size + 1 > 100000) (invalid (utf16 "/") "配置嵌套或元素数量过多")
    boundItems (depth + 1) (size + 1) items
  | depth, size, .obj members => do
    failIf (depth > 64 ∨ size + 1 > 100000) (invalid (utf16 "/") "配置嵌套或元素数量过多")
    boundMembers (depth + 1) (size + 1) members
  | depth, size, _ => do
    failIf (depth > 64 ∨ size + 1 > 100000) (invalid (utf16 "/") "配置嵌套或元素数量过多")
    return size + 1
termination_by structural _ _ v => v

def boundItems : ℕ → ℕ → List (JsValue N) → Except Thrown ℕ
  | _, size, [] => .ok size
  | depth, size, v :: vs => do
    let size ← bound depth size v
    boundItems depth size vs
termination_by structural _ _ vs => vs

def boundMember : ℕ → ℕ → JsString × JsValue N → Except Thrown ℕ
  | depth, size, (_, v) => bound depth size v
termination_by structural _ _ m => m

def boundMembers : ℕ → ℕ → List (JsString × JsValue N) → Except Thrown ℕ
  | _, size, [] => .ok size
  | depth, size, m :: ms => do
    let size ← boundMember depth size m
    boundMembers depth size ms
termination_by structural _ _ ms => ms

end

/-- Outbounds by tag, in the order of a `Map`. -/
abbrev Entries (N : Type) := List (JsString × Members N)

/-- `byTag.set(tag, outbound)`. -/
def setEntry (tag : JsString) (outbound : Members N) : Entries N → Entries N
  | [] => [(tag, outbound)]
  | e :: es => if e.1 = tag then (tag, outbound) :: es else e :: setEntry tag outbound es

def isReserved (tag : JsString) : Bool := (utf16 "bfc_").isPrefixOf tag

/-- The template's outbounds by tag. -/
def readTags : List (Members N × ℕ) → Entries N → Except Thrown (Entries N)
  | [], byTag => .ok byTag
  | (outbound, index) :: rest, byTag =>
    let path := utf16 "/outbounds/" ++ decimal index ++ utf16 "/tag"
    match get outbound (utf16 "tag") with
    | some (.str tag) => do
      failIf (tag = []) (invalid path "需要唯一 tag")
      failIf (isReserved tag) (invalid path "bfc_ 前缀由平台保留")
      failIf ((byTag.lookup tag).isSome) (invalid path "tag 重复")
      readTags rest (byTag ++ [(tag, outbound)])
    | _ => .error (invalid path "需要唯一 tag")

/-! ## The outbounds of the nodes -/

structure Generated (N : Type) where
  node : ClientNode N
  protocol : JsString
  tag : JsString
  outbound : Members N

/-- `bfc_${node.id}_${type}`. -/
def managedTag (id type : JsString) : JsString := utf16 "bfc_" ++ id ++ utf16 "_" ++ type

/-- `String(outbound.type)`. -/
def typeText (outbound : Members N) : Option JsString :=
  match get outbound (utf16 "type") with
  | none => some (utf16 "undefined")
  | some value => text js value

def protocolNames : List JsString := [utf16 "trojan", utf16 "hysteria2"]

/-- The two outbounds `renderClient` makes for a node, under their own tags. -/
def generateNode (secrets : ProxySecrets) (node : ClientNode N) : List (Generated N) :=
  (clientOutbounds js [node] secrets false).filterMap fun outbound =>
    match typeText js outbound with
    | some type =>
      if type ∈ protocolNames then
        let tag := managedTag node.id type
        some ⟨node, type, tag, set (utf16 "tag") (.str tag) outbound⟩
      else none
    | none => none

def availableNodes (snapshot : Snapshot N) : List (ClientNode N) :=
  (snapshot.nodes.filter fun node => node.available).insertionSort
    fun a b => js.localeLE a.id b.id = true

/-- The template and the outbounds of the nodes, before any group is filled. -/
structure Prepared (N : Type) where
  result : Members N
  templates : Entries N
  generated : List (Generated N)
  nodeCount : ℕ

def prepare (draft : SubscriptionDraft) (snapshot : Snapshot N) : Except Thrown (Prepared N) := do
  failIf (draft.accepted = false) .zod
  failIf snapshot.blocked (.app "SUBSCRIPTION_BLOCKED" (utf16 "账号已禁用或已达到本月额度") 403)
  let parsed ← found (invalid (utf16 "/") "不是有效 JSON") (parse js draft.templateJson)
  let _ ← bound 0 0 parsed
  let result ← object (some parsed) (utf16 "/")
  let outbounds ← objects (get result (utf16 "outbounds")) (utf16 "/outbounds")
  let available := availableNodes js snapshot
  failIf (available = []) (invalid (utf16 "/outbounds") "暂无已应用配置且授权就绪的节点")
  let templates ← readTags outbounds.zipIdx []
  return ⟨result, templates, available.flatMap (generateNode js snapshot.secrets),
    available.length⟩

/-! ## Filling the groups -/

/-- `byTag`: the template's outbounds, then the generated ones. -/
def byTag (templates : Entries N) (generated : List (Generated N)) : Entries N :=
  generated.foldl (fun es g => setEntry g.tag g.outbound es) templates

def groupNames : List JsString := [utf16 "selector", utf16 "urltest"]

/-- `["selector", "urltest"].includes(String(outbound.type))`. -/
def isGroup (outbound : Members N) : Except Thrown Bool := do
  let type ← found .typeError (typeText js outbound)
  return decide (type ∈ groupNames)

/-- The filter of a binding. -/
def Binding.admits (b : Binding) (node : ClientNode N) (protocol : JsString) : Bool :=
  (b.regions.isEmpty || b.regions.contains node.region) &&
    b.tags.all (fun tag => node.tags.contains tag) &&
    (b.protocols.isEmpty || (b.protocols.map Protocol.text).contains protocol) &&
    (b.machineIds.isEmpty || b.machineIds.contains node.id) &&
    !b.excludeMachineIds.contains node.id

/-- The generated outbounds a binding selects. -/
def Binding.members (b : Binding) (generated : List (Generated N)) : List JsString :=
  (generated.filter fun g => b.admits g.node g.protocol).map Generated.tag

/-- The groups filled so far. The keys of `selectedByGroup` are the tags bound so far. -/
structure Filled (N : Type) where
  templates : Entries N
  selectedByGroup : List (JsString × List JsString)

def fillGroup (generated : List (Generated N)) (filled : Filled N) (binding : Binding) :
    Except Thrown (Filled N) := do
  let path := utf16 "/bindings/" ++ binding.groupTag
  failIf ((filled.selectedByGroup.lookup binding.groupTag).isSome) (invalid path "组被重复绑定")
  let group ← found (invalid path "找不到对应的 selector/urltest")
    ((byTag filled.templates generated).lookup binding.groupTag)
  let isGroup ← isGroup js group
  failIf (isGroup = false) (invalid path "找不到对应的 selector/urltest")
  let members := binding.members generated
  failIf (members = []) (invalid path "没有匹配节点；请调整地区/标签或由管理员设置节点属性")
  -- A group is a template outbound: the generated ones have another type.
  let outbounds : JsValue N := .arr ((binding.staticMembers ++ members).eraseDups.map .str)
  return ⟨setEntry binding.groupTag (set (utf16 "outbounds") outbounds group) filled.templates,
    filled.selectedByGroup ++ [(binding.groupTag, members)]⟩

/-! ## Checking the document -/

/-- `requireOutbound`. -/
def requireOutbound (names : List JsString) (value : JsValue N) (path : JsString) :
    Except Thrown Unit :=
  match value with
  | .str s => failIf (s ∉ names) (invalid path "引用的出口不存在")
  | _ => .error (invalid path "引用的出口不存在")

/-- `members.includes(value)` for members that are strings. -/
def includesText (members : List (JsValue N)) (value : JsValue N) : Bool :=
  members.any fun member =>
    match member, value with
    | .str a, .str b => a = b
    | _, _ => false

def checkDefault (path : JsString) (outbound : Members N) (members : List (JsValue N)) :
    Except Thrown Unit :=
  match get outbound (utf16 "default") with
  | some value =>
    failIf (includesText members value = false) (invalid (path ++ utf16 "/default") "默认成员不在此组中")
  | none => .ok ()

def checkMembers (names : List JsString) (path : JsString) (outbound : Members N) :
    Except Thrown Unit :=
  match get outbound (utf16 "outbounds") with
  | some (.arr members) => do
    failIf (members = []) (invalid (path ++ utf16 "/outbounds") "节点组不能为空")
    members.zipIdx.forM fun (value, index) =>
      requireOutbound names value (path ++ utf16 "/outbounds/" ++ decimal index)
    checkDefault path outbound members
  | _ => .error (invalid (path ++ utf16 "/outbounds") "节点组不能为空")

/-- A selector or urltest has members that exist, and its default is one of them. -/
def checkGroup (names : List JsString) (entry : JsString × Members N) : Except Thrown Unit := do
  let isGroup ← isGroup js entry.2
  if isGroup then checkMembers names (utf16 "/outbounds/" ++ entry.1) entry.2 else pure ()

/-- The keys whose values name an outbound. -/
def referenceKeys : List JsString :=
  [utf16 "outbound", utf16 "detour", utf16 "download_detour", utf16 "external_ui_download_detour"]

def checkReference (names : List JsString) (path key : JsString) (value : JsValue N) :
    Except Thrown Unit :=
  if key ∈ referenceKeys then requireOutbound names value (path ++ utf16 "/" ++ key) else .ok ()

mutual

/-- Check every reference in a value. -/
def walk (names : List JsString) : JsString → JsValue N → Except Thrown Unit
  | path, .arr items => walkItems names path 0 items
  | path, .obj members => walkMembers names path members
  | _, _ => .ok ()
termination_by structural _ v => v

def walkItems (names : List JsString) : JsString → ℕ → List (JsValue N) → Except Thrown Unit
  | _, _, [] => .ok ()
  | path, index, v :: vs => do
    walk names (path ++ utf16 "/" ++ decimal index) v
    walkItems names path (index + 1) vs
termination_by structural _ _ vs => vs

def walkMember (names : List JsString) : JsString → JsString × JsValue N → Except Thrown Unit
  | path, (key, v) => do
    checkReference names path key v
    walk names (path ++ utf16 "/" ++ key) v
termination_by structural _ m => m

def walkMembers (names : List JsString) : JsString → List (JsString × JsValue N) →
    Except Thrown Unit
  | _, [] => .ok ()
  | path, m :: ms => do
    walkMember names path m
    walkMembers names path ms
termination_by structural _ ms => ms

end

def checkRoute (names : List JsString) (result : Members N) : Except Thrown Unit :=
  match get result (utf16 "route") with
  | none => return ()
  | some route => do
    let route ← object (some route) (utf16 "/route")
    match get route (utf16 "final") with
    | some value => requireOutbound names value (utf16 "/route/final")
    | none => return ()

/-! ## The graph of references -/

/-- The values an outbound refers to: its members, and its own detour. -/
def targets (outbound : Members N) : List (JsValue N) :=
  (match get outbound (utf16 "outbounds") with
    | some (.arr members) => members
    | _ => []) ++
  (match get outbound (utf16 "detour") with
    | some (.str s) => [.str s]
    | _ => [])

/-- The references of each outbound, as the walks follow them: by `String(target)`. -/
def references (entries : Entries N) : DepthFirst.Graph JsString := fun tag =>
  (entries.lookup tag).map fun outbound => (targets outbound).map (text js)

def visitFaults : DepthFirst.Faults JsString Thrown where
  cycle tag := invalid (utf16 "/outbounds/" ++ tag) "出口引用形成循环"
  broken := .typeError
  depth := .rangeError

/-- The bound group leads to no generated outbound outside its selection. -/
def checkScope (entries : Entries N) (selectedByGroup : List (JsString × List JsString))
    (leaves : List (JsString × Finset JsString)) (binding : Binding) :
    Except Thrown (List (JsString × Finset JsString)) := do
  let selected := (selectedByGroup.lookup binding.groupTag).getD []
  let (reached, leaves) ← DepthFirst.collect visitFaults (references js entries) isReserved
    (js.callDepth (utf16 "managedLeaves")) leaves binding.groupTag
  failIf (∃ tag ∈ reached, tag ∉ selected)
    (invalid (utf16 "/bindings/" ++ binding.groupTag)
      "固定成员间接包含筛选范围之外的节点，请同步自动组的筛选条件")
  return leaves

/-! ## `renderSubscription` -/

/-- The document with the groups filled and the generated outbounds added. -/
def document (prepared : Prepared N) (filled : Filled N) : Members N :=
  set (utf16 "outbounds") (.arr ((filled.templates.map fun e => .obj e.2) ++
    prepared.generated.map fun g => .obj g.outbound)) prepared.result

/-- The document a draft renders to. -/
def renderDocument (draft : SubscriptionDraft) (snapshot : Snapshot N) :
    Except Thrown (Members N × ℕ) := do
  let prepared ← prepare js draft snapshot
  let filled ← draft.bindings.foldlM (fillGroup js prepared.generated) ⟨prepared.templates, []⟩
  let entries := byTag filled.templates prepared.generated
  let names := entries.map Prod.fst
  let result := document prepared filled
  entries.forM (checkGroup js names)
  walk names [] (.obj result)
  checkRoute names result
  let _ ← DepthFirst.visitNames visitFaults (references js entries)
    (js.callDepth (utf16 "visit")) names
  let _ ← draft.bindings.foldlM (checkScope js entries filled.selectedByGroup) []
  return (result, prepared.nodeCount)

structure Rendered where
  configJson : JsString
  nodeCount : ℕ
deriving DecidableEq

def renderSubscription (draft : SubscriptionDraft) (snapshot : Snapshot N) :
    Except Thrown Rendered := do
  let (result, nodeCount) ← renderDocument js draft snapshot
  return ⟨jsonText js result, nodeCount⟩

end Render

end Bifurcation.Panel
