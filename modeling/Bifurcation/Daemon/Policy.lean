import Bifurcation.Lib.JsonMap
import Bifurcation.Protocol

/-!
# Authorization documents and managed inbounds

`adapters/singbox/policy.go`. An authorization is decoded into a struct: names match without
regard to case, unknown names are refused, `null` leaves a field as it is, and a list that comes
twice is decoded into the elements it already has. A configuration is decoded into maps, and
`mergeAuthorization` rewrites the user lists of the two managed inbounds.
-/

namespace Bifurcation.Daemon

structure AuthorizedUser where
  id : String := ""
  trojanPassword : String := ""
  hysteria2Password : String := ""
deriving DecidableEq

structure Authorization where
  version : Int := 0
  policyRevision : String := ""
  /-- `none` is a nil slice, which is printed as `null`. -/
  users : Option (List AuthorizedUser) := none
deriving DecidableEq

def Authorization.list (auth : Authorization) : List AuthorizedUser := auth.users.getD []

/-! ## Decoding -/

/-- The letters that Unicode folds to an ASCII letter. -/
def foldChar (c : Char) : Char :=
  if c = '\u017F' then 's' else if c = '\u212A' then 'k' else c.toLower

def sameField (name key : String) : Bool := name.toList.map foldChar = key.toList.map foldChar

/-- `strconv.ParseInt(s, 10, 64)`. -/
def parseInt64 (s : String) : Option Int :=
  let parse := fun (ds : List Char) =>
    if ds.isEmpty ∨ ¬ ds.all Char.isDigit then none
    else some ((ds.foldl (fun n c => 10 * n + (c.toNat - 48)) 0 : ℕ) : Int)
  let value := match s.toList with
    | '+' :: ds => parse ds
    | '-' :: ds => (parse ds).map fun n => -n
    | ds => parse ds
  value.filter fun n => -maxInt64 - 1 ≤ n ∧ n ≤ maxInt64

def decodeInt (current : Int) : Json → Option Int
  | .null => some current
  | .num literal => parseInt64 literal
  | _ => none

def decodeString (current : String) : Json → Option String
  | .null => some current
  | .str s => some s
  | _ => none

def decodeUserField (user : AuthorizedUser) (m : String × Json) : Option AuthorizedUser :=
  if sameField "id" m.1 then (decodeString user.id m.2).map fun s => { user with id := s }
  else if sameField "trojanPassword" m.1 then
    (decodeString user.trojanPassword m.2).map fun s => { user with trojanPassword := s }
  else if sameField "hysteria2Password" m.1 then
    (decodeString user.hysteria2Password m.2).map fun s => { user with hysteria2Password := s }
  else none

def decodeUser (user : AuthorizedUser) : Json → Option AuthorizedUser
  | .null => some user
  | .obj members => members.foldlM decodeUserField user
  | _ => none

/-- Items decoded into the elements of an array, and the elements behind the last item. An array
that is too short grows by empty elements. -/
def decodeItems : List AuthorizedUser → List Json →
    Option (List AuthorizedUser × List AuthorizedUser)
  | array, [] => some ([], array)
  | array, item :: items => do
    let user ← decodeUser (array.headD {}) item
    let (users, rest) ← decodeItems array.tail items
    some (user :: users, rest)

/-- An authorization while it is decoded. -/
structure Decoded where
  auth : Authorization := {}
  /-- The elements that are left in the array of the users behind the end of the slice. A longer
  list that follows is decoded into them. -/
  spare : List AuthorizedUser := []

/-- A nil or an empty slice is a new one, any other list stays in its array. -/
def decodeUsers (d : Decoded) : Json → Option Decoded
  | .null => some ⟨{ d.auth with users := none }, []⟩
  | .arr [] => some ⟨{ d.auth with users := some [] }, []⟩
  | .arr items => (decodeItems (d.auth.list ++ d.spare) items).map fun r =>
    ⟨{ d.auth with users := some r.1 }, r.2⟩
  | _ => none

def decodeField (d : Decoded) (m : String × Json) : Option Decoded :=
  if sameField "version" m.1 then
    (decodeInt d.auth.version m.2).map fun n => { d with auth.version := n }
  else if sameField "policyRevision" m.1 then
    (decodeString d.auth.policyRevision m.2).map fun s => { d with auth.policyRevision := s }
  else if sameField "users" m.1 then decodeUsers d m.2
  else none

def decodeAuthorization : Json → Option Authorization
  | .null => some {}
  | .obj members => (members.foldlM decodeField {}).map Decoded.auth
  | _ => none

def AuthorizedUser.json (user : AuthorizedUser) : Json :=
  .obj [("id", .str user.id), ("trojanPassword", .str user.trojanPassword),
    ("hysteria2Password", .str user.hysteria2Password)]

def usersJson : Option (List AuthorizedUser) → Json
  | none => .null
  | some us => .arr (us.map AuthorizedUser.json)

def Authorization.json (auth : Authorization) : Json :=
  .obj [("version", .num (toString auth.version)), ("policyRevision", .str auth.policyRevision),
    ("users", usersJson auth.users)]

/-- The checks on the users, in order. -/
def validUsers : List String → List AuthorizedUser → Bool
  | _, [] => true
  | seen, user :: rest =>
    user.id ≠ "" && '>' ∉ user.id.toList && user.id ∉ seen && user.trojanPassword ≠ "" &&
      user.hysteria2Password ≠ "" && validUsers (user.id :: seen) rest

/-- The authorization, its revision and its canonical bytes. -/
def parseAuthorization (data : Bytes) : Option (Authorization × Int × Bytes) := do
  let tree ← Json.parse data
  let auth ← decodeAuthorization tree
  let revision ← parseInt64 auth.policyRevision
  if revision < 1 ∨ auth.version ≠ 1 then none
  else if validUsers [] auth.list then some (auth, revision, Json.print auth.json)
  else none

/-- The members of the configuration object. -/
def decodeConfig (data : Bytes) : Option (List (String × Json)) := do
  if data.length = 0 ∨ data.length > 4 * 2 ^ 20 then none else
  match ← Json.parse data with
  | .obj members => some (Json.normalizeMembers members)
  | _ => none

/-! ## Merging -/

/-- The protocol of a managed inbound, by its tag. -/
def managedProtocol (tag : String) : Option String :=
  if tag = "bifurcation-trojan" then some "trojan"
  else if tag = "bifurcation-hysteria2" then some "hysteria2"
  else none

def textOf : Option Json → String
  | some (.str s) => s
  | _ => ""

def isText (s : String) : Option Json → Bool
  | some (.str t) => t = s
  | _ => false

def AuthorizedUser.password (user : AuthorizedUser) (protocol : String) : String :=
  if protocol = "hysteria2" then user.hysteria2Password else user.trojanPassword

/-- The user list of a managed inbound. -/
def managedUsers (auth : Authorization) (protocol : String) : Json :=
  .arr (auth.list.map fun user =>
    .obj [("name", .str user.id), ("password", .str (user.password protocol))])

/-- The loop over the inbounds: the tags found, and the inbounds with their new users. -/
def mergeInbounds (auth : Authorization) :
    List String → List Json → Option (List String × List Json)
  | found, [] => some (found, [])
  | found, raw :: rest =>
    match raw with
    | .obj inbound =>
      let tag := textOf (Json.lookup "tag" inbound)
      match managedProtocol tag with
      | none => (mergeInbounds auth found rest).map fun r => (r.1, raw :: r.2)
      | some protocol =>
        if tag ∈ found ∨ ¬ isText protocol (Json.lookup "type" inbound) then none
        else (mergeInbounds auth (tag :: found) rest).map fun r =>
          (r.1, .obj (Json.setMember "users" (managedUsers auth protocol) inbound) :: r.2)
    | _ => none

/-- The configuration tree with the users of the authorization. -/
def mergeTree (auth : Authorization) (config : List (String × Json)) :
    Option (List (String × Json)) :=
  match Json.lookup "inbounds" config with
  | some (.arr inbounds) => do
    let (found, merged) ← mergeInbounds auth [] inbounds
    if found.length = 2 then some (Json.setMember "inbounds" (.arr merged) config) else none
  | _ => none

/-- `MergeAuthorization` changes only managed user lists. -/
def mergeAuthorization (config authorization : Bytes) : Option Bytes := do
  let (auth, _, _) ← parseAuthorization authorization
  let tree ← decodeConfig config
  let merged ← mergeTree auth tree
  some (Json.print (.obj merged))

end Bifurcation.Daemon
