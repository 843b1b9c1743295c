import Bifurcation.Panel.SingBox
import Bifurcation.Panel.Schema

/-!
# Settings and authorization documents

The checks of `validateSettings` in `adapters/sing-box/index.ts` on settings of the right shape,
and the document `jsonBytes` makes of an authorization. The size of settings is counted in the
code units of their compact text.

What is asked of a certificate and its key is left open: `certificateFault` gives the text of the
error, if there is one.

Main result: `validateSettings_eq_ok`.
-/

namespace Bifurcation.Javascript

variable {N : Type}

mutual

/-- `JSON.stringify(value)`, without indentation. -/
def compact (js : Runtime N) : JsValue N → JsString
  | .null => utf16 "null"
  | .bool true => utf16 "true"
  | .bool false => utf16 "false"
  | .num n => js.numberJson n
  | .str s => quote s
  | .arr items => utf16 "[" ++ join (compactItems js items) ++ utf16 "]"
  | .obj members => utf16 "\x7b" ++ join (compactMembers js members) ++ utf16 "\x7d"
termination_by structural v => v

def compactItems (js : Runtime N) : List (JsValue N) → List JsString
  | [] => []
  | v :: vs => compact js v :: compactItems js vs
termination_by structural vs => vs

def compactMember (js : Runtime N) : JsString × JsValue N → JsString
  | (k, v) => quote k ++ utf16 ":" ++ compact js v
termination_by structural m => m

def compactMembers (js : Runtime N) : List (JsString × JsValue N) → List JsString
  | [] => []
  | m :: ms => compactMember js m :: compactMembers js ms
termination_by structural ms => ms

end

end Bifurcation.Javascript

namespace Bifurcation.Panel

open Javascript

section Settings

variable {N : Type} (js : Runtime N)

/-! ## Documents -/

def TlsSettings.json : TlsSettings → Members N
  | .pem serverName certificatePem privateKeyPem => jsObject
      [("mode", jsText "pem"), ("serverName", .str serverName),
        ("certificatePem", .str certificatePem), ("privateKeyPem", .str privateKeyPem)]
  | .path serverName certificatePath privateKeyPath => jsObject
      [("mode", jsText "path"), ("serverName", .str serverName),
        ("certificatePath", .str certificatePath), ("privateKeyPath", .str privateKeyPath)]
  | .acme serverName email => jsObject
      [("mode", jsText "acme"), ("serverName", .str serverName), ("email", .str email)]

def MachineConfigurationInput.json (settings : MachineConfigurationInput N) : Members N :=
  jsObject ((settings.listen.map fun listen => ("listen", JsValue.str listen)).toList ++
    [("trojanPort", jsNat js settings.trojanPort), ("hysteria2Port", jsNat js settings.hysteria2Port),
      ("tls", .obj settings.tls.json), ("baseJson", .obj settings.baseJson)])

def AuthorizedUser.json (user : AuthorizedUser) : JsValue N :=
  .obj (jsObject [("id", .str user.id), ("trojanPassword", .str user.secrets.trojanPassword),
    ("hysteria2Password", .str user.secrets.hysteria2Password)])

/-- The document of an authorization. -/
def AuthorizationLayer.json (authorization : AuthorizationLayer) : Members N :=
  jsObject [("version", jsNat js 1), ("policyRevision", .str authorization.policyRevision),
    ("users", .arr (authorization.users.map AuthorizedUser.json))]

/-! ## Checks -/

/-- `Object.hasOwn(object, name)`. -/
def hasOwn (members : Members N) (name : String) : Bool := (Javascript.get members (utf16 name)).isSome

/-- The fields of the base configuration that the panel writes itself. -/
def managedFields : List String := ["inbounds", "services"]

/-- The interfaces the embedded core does not have. -/
def controlInterfaces : List String := ["v2ray_api", "clash_api"]

/-- `experimental` is an object, and asks for no control interface. -/
def checkExperimental (experimental : Option (JsValue N)) : Except PanelError Unit :=
  match experimental with
  | none => .ok ()
  | some (.obj members) => failIf (controlInterfaces.any (hasOwn members))
      (.app "UNSUPPORTED_CONTROL_API" "内嵌核心不提供本机控制 API" 422)
  | some _ => .error (.app "INVALID_BASE_CONFIG" "experimental 必须是对象" 422)

def validateCertificate (certificateFault : JsString → JsString → JsString → Option String) :
    TlsSettings → Except PanelError Unit
  | .pem serverName certificatePem privateKeyPem =>
    match certificateFault serverName certificatePem privateKeyPem with
    | some message => .error (.app "INVALID_CERTIFICATE" ("证书校验失败：" ++ message) 422)
    | none => .ok ()
  | _ => .ok ()

def validateSettings (certificateFault : JsString → JsString → JsString → Option String)
    (settings : MachineConfigurationInput N) :
    Except PanelError (MachineConfigurationInput N) := do
  let extra := settings.baseJson
  let conflicts := managedFields.filter (hasOwn extra)
  checkExperimental (Javascript.get extra (utf16 "experimental"))
  failIf (conflicts ≠ []) (.app "MANAGED_FIELD_CONFLICT"
    ("这些字段由平台管理，不能在基础 JSON 中覆盖：" ++ "、".intercalate conflicts) 422)
  failIf ((compact js (.obj (settings.json js))).length > 3 * 1024 * 1024)
    (.app "CONFIG_TOO_LARGE" "配置超过大小限制" 413)
  validateCertificate certificateFault settings.tls
  return settings

/-- What the panel guarantees of the base configuration of a machine. -/
structure ValidBase (base : Members N) : Prop where
  unmanaged : ∀ field ∈ managedFields, Javascript.get base (utf16 field) = none
  experimental : ∀ value, Javascript.get base (utf16 "experimental") = some value →
    ∃ members, value = .obj members ∧
      ∀ field ∈ controlInterfaces, Javascript.get members (utf16 field) = none

theorem checkExperimental_eq_ok {experimental : Option (JsValue N)}
    (h : checkExperimental experimental = .ok ()) {value : JsValue N}
    (hvalue : experimental = some value) :
    ∃ members, value = .obj members ∧
      ∀ field ∈ controlInterfaces, Javascript.get members (utf16 field) = none := by
  subst hvalue
  cases value with
  | obj members =>
    simp only [checkExperimental, failIf_eq_ok, List.any_eq_true, not_exists, not_and] at h
    refine ⟨members, rfl, fun field hfield => ?_⟩
    simpa [hasOwn] using h field hfield
  | _ => simp [checkExperimental] at h

/-- **Settings that are accepted** are returned as they are, and their base configuration leaves
the managed fields and the control interfaces alone. -/
theorem validateSettings_eq_ok
    {certificateFault : JsString → JsString → JsString → Option String}
    {settings settings' : MachineConfigurationInput N}
    (h : validateSettings js certificateFault settings = .ok settings') :
    settings' = settings ∧ ValidBase settings.baseJson ∧
      (compact js (.obj (settings.json js))).length ≤ 3 * 1024 * 1024 := by
  simp only [validateSettings, bind_eq_ok, failIf_eq_ok, pure_eq_ok, exists_const] at h
  obtain ⟨u, hexperimental, hconflicts, hsize, u', -, rfl⟩ := h
  refine ⟨rfl, ⟨fun field hfield => ?_, fun value hvalue => ?_⟩, not_lt.1 hsize⟩
  · rw [not_not, List.filter_eq_nil_iff] at hconflicts
    simpa [hasOwn] using hconflicts field hfield
  · exact checkExperimental_eq_ok hexperimental hvalue

end Settings

end Bifurcation.Panel
