import RemoteControl.Lib.Json

/-!
# What the API publishes

The records of `domain/models.go` that reach HBBS, with the JSON that
`encoding/json` gives for them: field names from the tags, a nil slice or map as
`null`, fields tagged `omitempty` left out when they are empty (which a
`time.Time` never is), fields tagged `-` left out.

A point in time is a number of milliseconds, zero for the zero `time.Time`; its
text is `rfc3339` of it. A Go `int` has 64 bits.
-/

namespace RemoteControl.Sync

open Lib

structure User where
  id : String
  username : String
  email : String
  phone : String
  passwordHash : String
  displayName : String
  role : String
  permissions : Option (List String)
  enabled : Bool
  approvalStatus : String
  tokenVersion : Int64
  createdAt : Nat
  updatedAt : Nat
  lastLoginAt : Nat
  forceReloginAt : Nat
  totpSecret : String
  totpEnabled : Bool
deriving DecidableEq, Repr

structure Session where
  id : String
  userId : String
  createdAt : Nat
  expiresAt : Nat
  revokedAt : Option Nat
  lastSeenAt : Nat
  ip : String
  userAgent : String
  clientDeviceId : String
deriving DecidableEq, Repr

structure Device where
  rustdeskId : String
  clientUuid : String
  hostname : String
  deviceAlias : String
  platform : String
  version : String
  cpu : String
  memory : String
  username : String
  lastSeenIp : String
  online : Bool
  lastSeen : Nat
  ownerUserId : String
  groupId : String
  tags : Option (List String)
  publicKey : String
  deployed : Bool
  deployedBy : String
  deployedAt : Nat
  createdAt : Nat
  archivedAt : Option Nat
deriving DecidableEq, Repr

structure UserGroupMembership where
  groupId : String
  userId : String
  active : Bool
deriving DecidableEq, Repr

structure RelayServer where
  controlMode : String
  controlConnected : Bool
  id : String
  name : String
  hostname : String
  port : Int64
  region : String
  enabled : Bool
  health : String
  latencyMs : Int64
  connections : Int64
  bandwidth : Int64
  createdAt : Nat
  updatedAt : Nat
  deleted : Bool
deriving DecidableEq, Repr

structure AclRule where
  id : String
  name : String
  subjectType : String
  subjectId : String
  targetType : String
  targetId : String
  permissions : Option (List String)
  effect : String
  enabled : Bool
  priority : Int64
  createdAt : Nat
  updatedAt : Nat
  deleted : Bool
deriving DecidableEq, Repr

structure Strategy where
  id : String
  name : String
  scopeType : String
  scopeId : String
  priority : Int64
  settings : Option (List (String × Json))
  enabled : Bool
  createdAt : Nat
  updatedAt : Nat
  deleted : Bool

/-! ## The deletion values the handlers build -/

/-- `domain.User{ID: id, Enabled: false}`. -/
def User.tombstone (id : String) : User where
  id
  username := ""
  email := ""
  phone := ""
  passwordHash := ""
  displayName := ""
  role := ""
  permissions := none
  enabled := false
  approvalStatus := ""
  tokenVersion := 0
  createdAt := 0
  updatedAt := 0
  lastLoginAt := 0
  forceReloginAt := 0
  totpSecret := ""
  totpEnabled := false

/-- `domain.RelayServer{ID: id, Deleted: true}`. -/
def RelayServer.tombstone (id : String) : RelayServer :=
  ⟨"", false, id, "", "", 0, "", false, "", 0, 0, 0, 0, 0, true⟩

/-- `domain.ACLRule{ID: id, Deleted: true}`. -/
def AclRule.tombstone (id : String) : AclRule :=
  ⟨id, "", "", "", "", "", none, "", false, 0, 0, 0, true⟩

/-- `domain.Strategy{ID: id, Deleted: true}`. -/
def Strategy.tombstone (id : String) : Strategy := ⟨id, "", "", "", 0, none, false, 0, 0, true⟩

/-! ## Their JSON -/

/-- A field tagged `omitempty`. -/
def omitEmpty (name : String) (empty : Bool) (v : Json) : List (String × Json) :=
  if empty then [] else [(name, v)]

def slice : Option (List String) → Json
  | none => .null
  | some l => .strings l

/-- A Go map with string keys. -/
def goMap : Option (List (String × Json)) → Json
  | none => .null
  | some m => .obj m

variable (rfc3339 : Nat → String)

def User.toJson (u : User) : Json := .obj <|
  [("id", .str u.id), ("username", .str u.username), ("email", .str u.email),
    ("phone", .str u.phone), ("display_name", .str u.displayName), ("role", .str u.role)]
  ++ omitEmpty "permissions" (u.permissions.getD []).isEmpty (slice u.permissions)
  ++ [("enabled", .bool u.enabled), ("approval_status", .str u.approvalStatus),
    ("token_version", .int u.tokenVersion.toInt), ("created_at", .str (rfc3339 u.createdAt)),
    ("updated_at", .str (rfc3339 u.updatedAt)), ("last_login_at", .str (rfc3339 u.lastLoginAt)),
    ("force_relogin_at", .str (rfc3339 u.forceReloginAt)), ("totp_enabled", .bool u.totpEnabled)]

def Session.toJson (s : Session) : Json := .obj <|
  [("id", .str s.id), ("user_id", .str s.userId), ("created_at", .str (rfc3339 s.createdAt)),
    ("expires_at", .str (rfc3339 s.expiresAt))]
  ++ (match s.revokedAt with
    | none => []
    | some t => [("revoked_at", .str (rfc3339 t))])
  ++ [("last_seen_at", .str (rfc3339 s.lastSeenAt)), ("ip", .str s.ip),
    ("user_agent", .str s.userAgent), ("client_device_id", .str s.clientDeviceId)]

def Device.toJson (d : Device) : Json := .obj <|
  [("rustdesk_id", .str d.rustdeskId), ("client_uuid", .str d.clientUuid),
    ("hostname", .str d.hostname), ("alias", .str d.deviceAlias), ("platform", .str d.platform),
    ("version", .str d.version), ("cpu", .str d.cpu), ("memory", .str d.memory),
    ("username", .str d.username), ("last_seen_ip", .str d.lastSeenIp), ("online", .bool d.online),
    ("last_seen", .str (rfc3339 d.lastSeen)), ("owner_user_id", .str d.ownerUserId),
    ("group_id", .str d.groupId), ("tags", slice d.tags)]
  ++ omitEmpty "public_key" (d.publicKey = "") (.str d.publicKey)
  ++ [("deployed", .bool d.deployed)]
  ++ omitEmpty "deployed_by" (d.deployedBy = "") (.str d.deployedBy)
  ++ [("deployed_at", .str (rfc3339 d.deployedAt)), ("created_at", .str (rfc3339 d.createdAt))]
  ++ (match d.archivedAt with
    | none => []
    | some t => [("archived_at", .str (rfc3339 t))])

def UserGroupMembership.toJson (m : UserGroupMembership) : Json := .obj
  [("group_id", .str m.groupId), ("user_id", .str m.userId), ("active", .bool m.active)]

def RelayServer.toJson (v : RelayServer) : Json := .obj <|
  omitEmpty "control_mode" (v.controlMode = "") (.str v.controlMode)
  ++ [("control_connected", .bool v.controlConnected), ("id", .str v.id), ("name", .str v.name),
    ("hostname", .str v.hostname), ("port", .int v.port.toInt), ("region", .str v.region),
    ("enabled", .bool v.enabled), ("health", .str v.health), ("latency_ms", .int v.latencyMs.toInt),
    ("connections", .int v.connections.toInt), ("bandwidth", .int v.bandwidth.toInt),
    ("created_at", .str (rfc3339 v.createdAt)), ("updated_at", .str (rfc3339 v.updatedAt))]
  ++ omitEmpty "deleted" (!v.deleted) (.bool v.deleted)

def AclRule.toJson (v : AclRule) : Json := .obj <|
  [("id", .str v.id), ("name", .str v.name), ("subject_type", .str v.subjectType),
    ("subject_id", .str v.subjectId), ("target_type", .str v.targetType),
    ("target_id", .str v.targetId), ("permissions", slice v.permissions), ("effect", .str v.effect),
    ("enabled", .bool v.enabled), ("priority", .int v.priority.toInt),
    ("created_at", .str (rfc3339 v.createdAt)), ("updated_at", .str (rfc3339 v.updatedAt))]
  ++ omitEmpty "deleted" (!v.deleted) (.bool v.deleted)

def Strategy.toJson (v : Strategy) : Json := .obj <|
  [("id", .str v.id), ("name", .str v.name), ("scope_type", .str v.scopeType),
    ("scope_id", .str v.scopeId), ("priority", .int v.priority.toInt),
    ("settings", goMap v.settings), ("enabled", .bool v.enabled),
    ("created_at", .str (rfc3339 v.createdAt)), ("updated_at", .str (rfc3339 v.updatedAt))]
  ++ omitEmpty "deleted" (!v.deleted) (.bool v.deleted)

/-- `map[string]string{"user_id": userID}`. -/
def userReference (userId : String) : Json := .obj [("user_id", .str userId)]

/-- `map[string]any{"require_login": …, "require_device_deployment": …}`; the keys of a
map are sorted. -/
def configurationJson (requireLogin requireDeviceDeployment : Bool) : Json := .obj
  [("require_device_deployment", .bool requireDeviceDeployment),
    ("require_login", .bool requireLogin)]

end RemoteControl.Sync
