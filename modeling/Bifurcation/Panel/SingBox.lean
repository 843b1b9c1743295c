import Bifurcation.Lib.Javascript

/-!
# The sing-box adapter of the panel

`adapters/sing-box/index.ts`: the settings an administrator gives a machine, the configuration
the machine runs and the outbounds a client uses to reach it.
-/

namespace Bifurcation.Panel

open Javascript

/-- `TlsSettings`. -/
inductive TlsSettings where
  | pem (serverName certificatePem privateKeyPem : JsString)
  | path (serverName certificatePath privateKeyPath : JsString)
  | acme (serverName email : JsString)
deriving DecidableEq

def TlsSettings.serverName : TlsSettings → JsString
  | .pem name _ _ => name
  | .path name _ _ => name
  | .acme name _ => name

/-- `MachineConfigurationInput`. -/
structure MachineConfigurationInput (N : Type) where
  listen : Option JsString
  trojanPort : ℕ
  hysteria2Port : ℕ
  tls : TlsSettings
  baseJson : Members N

/-- The secrets of one user. -/
structure ProxySecrets where
  trojanPassword : JsString
  hysteria2Password : JsString
deriving DecidableEq

structure AuthorizedUser where
  id : JsString
  secrets : ProxySecrets
deriving DecidableEq

/-- `AuthorizationLayer`; its `version` is always 1. -/
structure AuthorizationLayer where
  policyRevision : JsString
  users : List AuthorizedUser
deriving DecidableEq

section Render

variable {N : Type} (js : Runtime N)

/-! ## Building values -/

def jsText (text : String) : JsValue N := .str (utf16 text)

def jsNat (n : ℕ) : JsValue N := .num (js.ofNat n)

/-- An object literal. -/
def jsObject (members : List (String × JsValue N)) : Members N :=
  members.map fun m => (utf16 m.1, m.2)

/-- What `trim` takes away. -/
def isBlank (u : UInt16) : Bool :=
  (0x09 ≤ u && u ≤ 0x0d) || u = 0x20 || u = 0xa0 || u = 0x1680 || (0x2000 ≤ u && u ≤ 0x200a) ||
    u = 0x2028 || u = 0x2029 || u = 0x202f || u = 0x205f || u = 0x3000 || u = 0xfeff

def trim (s : JsString) : JsString := ((s.dropWhile isBlank).reverse.dropWhile isBlank).reverse

/-- The part of a line before its break, without one carriage return at its end. -/
def dropReturn (line : JsString) : JsString :=
  if line.getLast? = some 0x0d then line.dropLast else line

/-- `text.split(/\r?\n/)`. -/
def splitLines (s : JsString) : List JsString :=
  let lines := s.splitOn 0x0a
  lines.dropLast.map dropReturn ++ lines.getLast?.toList

def pemLines (pem : JsString) : JsValue N := .arr ((splitLines (trim pem)).map .str)

/-! ## TLS -/

def inboundTls : TlsSettings → Members N
  | .acme serverName email => jsObject
      [("enabled", .bool true), ("server_name", .str serverName), ("min_version", jsText "1.3"),
        ("certificate_provider", .obj (jsObject
          [("type", jsText "acme"), ("domain", .arr [.str serverName]), ("email", .str email)]))]
  | .pem serverName certificatePem privateKeyPem => jsObject
      [("enabled", .bool true), ("server_name", .str serverName), ("min_version", jsText "1.3"),
        ("certificate", pemLines certificatePem), ("key", pemLines privateKeyPem)]
  | .path serverName certificatePath privateKeyPath => jsObject
      [("enabled", .bool true), ("server_name", .str serverName), ("min_version", jsText "1.3"),
        ("certificate_path", .str certificatePath), ("key_path", .str privateKeyPath)]

def outboundTls (tls : TlsSettings) : Members N :=
  jsObject ([("enabled", .bool true), ("server_name", .str tls.serverName)] ++
    match tls with
    | .pem _ certificatePem _ => [("certificate", pemLines certificatePem)]
    | _ => [])

/-! ## The configuration of a machine -/

def managedInbound (type tag : String) (listen : JsString) (port : ℕ) (tls : TlsSettings)
    (users : List (JsString × JsString)) : JsValue N :=
  .obj (jsObject
    [("type", jsText type), ("tag", jsText tag), ("listen", .str listen),
      ("listen_port", jsNat js port),
      ("users", .arr (users.map fun u => .obj (jsObject [("name", .str u.1), ("password", .str u.2)]))),
      ("tls", .obj (inboundTls tls))])

def renderServer (settings : MachineConfigurationInput N) (authorization : AuthorizationLayer) :
    Members N :=
  let listen := settings.listen.getD (utf16 "::")
  let defaults : Members N := jsObject
    [("log", .obj (jsObject [("level", jsText "info"), ("timestamp", .bool true)])),
      ("outbounds", .arr [.obj (jsObject [("type", jsText "direct"), ("tag", jsText "direct")])])]
  let extended := settings.baseJson.foldl (fun ms m => set m.1 m.2 ms) defaults
  set (utf16 "inbounds") (.arr
    [managedInbound js "trojan" "bifurcation-trojan" listen settings.trojanPort settings.tls
        (authorization.users.map fun u => (u.id, u.secrets.trojanPassword)),
      managedInbound js "hysteria2" "bifurcation-hysteria2" listen settings.hysteria2Port
        settings.tls (authorization.users.map fun u => (u.id, u.secrets.hysteria2Password))])
    extended

/-! ## The configuration of a client -/

/-- A machine as its clients see it. -/
structure ClientNode (N : Type) where
  id : JsString
  name : JsString
  address : JsString
  region : JsString
  tags : List JsString
  settings : MachineConfigurationInput N
  available : Bool

def clientOutbound (type tag : JsString) (node : ClientNode N) (port : ℕ)
    (password : JsString) : Members N :=
  jsObject [("type", .str type), ("tag", .str tag), ("server", .str node.address),
    ("server_port", jsNat js port), ("password", .str password),
    ("tls", .obj (outboundTls node.settings.tls))]

/-- `${node.name} / ${label} / ${node.id.slice(0, 8)}`. -/
def displayTag (node : ClientNode N) (label : String) : JsString :=
  node.name ++ utf16 " / " ++ utf16 label ++ utf16 " / " ++ node.id.take 8

/-- The two outbounds of a node. -/
def nodeOutbounds (secrets : ProxySecrets) (node : ClientNode N) : List (Members N) :=
  [clientOutbound js (utf16 "trojan") (displayTag node "Trojan") node node.settings.trojanPort
      secrets.trojanPassword,
    clientOutbound js (utf16 "hysteria2") (displayTag node "Hysteria2") node
      node.settings.hysteria2Port secrets.hysteria2Password]

def tagOf (outbound : Members N) : List (JsValue N) := (get outbound (utf16 "tag")).toList

/-- The outbounds of a client configuration. -/
def clientOutbounds (nodes : List (ClientNode N)) (secrets : ProxySecrets) (blocked : Bool) :
    List (Members N) :=
  let outbounds := if blocked then [] else nodes.flatMap (nodeOutbounds js secrets)
  let groups : List (Members N) := if outbounds = [] then [] else
    [jsObject [("type", jsText "selector"), ("tag", jsText "proxy"),
        ("outbounds", .arr (jsText "auto" :: outbounds.flatMap tagOf)), ("default", jsText "auto")],
      jsObject [("type", jsText "urltest"), ("tag", jsText "auto"),
        ("outbounds", .arr (outbounds.flatMap tagOf)),
        ("url", jsText "https://www.gstatic.com/generate_204"), ("interval", jsText "3m"),
        ("tolerance", jsNat js 50)]]
  groups ++ outbounds ++ [jsObject [("type", jsText "direct"), ("tag", jsText "direct")]]

def renderClient (nodes : List (ClientNode N)) (secrets : ProxySecrets) (blocked : Bool) :
    Members N :=
  let reachable := !blocked && !nodes.isEmpty
  jsObject
    [("log", .obj (jsObject [("level", jsText "info")])),
      ("dns", .obj (jsObject
        [("servers", .arr [.obj (jsObject [("type", jsText "local"), ("tag", jsText "dns-local")])])])),
      ("inbounds", .arr [.obj (jsObject
        [("type", jsText "mixed"), ("tag", jsText "mixed-in"), ("listen", jsText "127.0.0.1"),
          ("listen_port", jsNat js 2080)])]),
      ("outbounds", .arr ((clientOutbounds js nodes secrets blocked).map .obj)),
      ("route", .obj (jsObject ([("default_domain_resolver", jsText "dns-local")] ++
        if reachable then [("final", jsText "proxy")]
        else [("rules", .arr [.obj (jsObject [("action", jsText "reject")])]),
          ("final", jsText "direct")])))]

/-- `jsonBytes(value).toString("utf8")`. -/
def jsonText (value : Members N) : JsString := stringify js (.obj value) ++ utf16 "\n"

/-- `jsonBytes(value)`. -/
def jsonBytes (value : Members N) : Bytes := bufferFrom (jsonText js value)

end Render

end Bifurcation.Panel
