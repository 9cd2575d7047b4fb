import RemoteControl.Lib.JsonText
import RemoteControl.Sync.Cache

/-!
# The cache as a document

The derived `Serialize` and `Deserialize` of `CacheState` in `art-core/src/auth/cache.rs`. Every
field is written, and every map as an object whose entries have the keys of the map. What `load`
is given is what `save` has written, so every value is found under its own key.

Nothing is lost but, possibly, the last place of a number in the settings of a strategy.
-/

namespace RemoteControl.Sync

open Lib Decoder

/-! ## Writing -/

def UserState.toJson (v : UserState) : Json := .obj
  [("id", .str v.id), ("username", .str v.username), ("role", .str v.role),
    ("enabled", .bool v.enabled), ("approval_status", .str v.approvalStatus),
    ("token_version", .int v.tokenVersion.toInt)]

def SessionState.toJson (v : SessionState) : Json := .obj
  [("id", .str v.id), ("user_id", .str v.userId), ("expires_at", .str v.expiresAt),
    ("revoked_at", .orNull .str v.revokedAt), ("client_device_id", .str v.clientDeviceId)]

def DeviceState.toJson (v : DeviceState) : Json := .obj
  [("rustdesk_id", .str v.rustdeskId), ("client_uuid", .str v.clientUuid),
    ("public_key", .str v.publicKey), ("deployed", .bool v.deployed),
    ("owner_user_id", .str v.ownerUserId), ("group_id", .str v.groupId)]

def AclRuleState.toJson (v : AclRuleState) : Json := .obj
  [("id", .str v.id), ("subject_type", .str v.subjectType), ("subject_id", .str v.subjectId),
    ("target_type", .str v.targetType), ("target_id", .str v.targetId),
    ("permissions", .strings v.permissions), ("effect", .str v.effect),
    ("enabled", .bool v.enabled), ("priority", .int v.priority.toInt), ("deleted", .bool v.deleted)]

def StrategyState.toJson (v : StrategyState) : Json := .obj
  [("id", .str v.id), ("scope_type", .str v.scopeType), ("scope_id", .str v.scopeId),
    ("priority", .int v.priority.toInt), ("settings", .obj v.settings),
    ("enabled", .bool v.enabled), ("deleted", .bool v.deleted)]

def RelayState.toJson (v : RelayState) : Json := .obj
  [("id", .str v.id), ("hostname", .str v.hostname), ("port", .int v.port.toNat),
    ("region", .str v.region), ("enabled", .bool v.enabled), ("health", .str v.health),
    ("latency_ms", .int v.latencyMs.toInt), ("connections", .int v.connections.toInt),
    ("deleted", .bool v.deleted)]

/-- The order of the rows is the one in which a map is walked. -/
def CacheState.toJson (st : CacheState) : Json := .obj
  [("require_login", .orNull .bool st.requireLogin),
    ("require_device_deployment", .orNull .bool st.requireDeviceDeployment),
    ("source_id", .str st.sourceId), ("revision", .int st.revision),
    ("users", .object UserState.id UserState.toJson st.users.rows),
    ("sessions", .object SessionState.id SessionState.toJson st.sessions.rows),
    ("devices", .object DeviceState.rustdeskId DeviceState.toJson st.devices.rows),
    ("acl_rules", .object AclRuleState.id AclRuleState.toJson st.aclRules.rows),
    ("strategies", .object StrategyState.id StrategyState.toJson st.strategies.rows),
    ("user_groups", .object UserGroups.userId (fun v => .strings v.groups) st.userGroups.rows),
    ("relay_servers", .object RelayState.id RelayState.toJson st.relayServers.rows)]

/-! ## Reading -/

def UserGroups.decode (userId : String) : Decoder UserGroups := fun j =>
  (seq string j).map fun groups => ⟨userId, groups⟩

def CacheState.decode : Decoder CacheState := fun j => do
  let requireLogin ← fieldOr "require_login" (option bool) none j
  let requireDeviceDeployment ← fieldOr "require_device_deployment" (option bool) none j
  let sourceId ← fieldOr "source_id" string "" j
  let revision ← field "revision" natural j
  let users ← field "users" (entries fun _ => UserState.decode) j
  let sessions ← field "sessions" (entries fun _ => SessionState.decode) j
  let devices ← fieldOr "devices" (entries fun _ => DeviceState.decode) [] j
  let aclRules ← fieldOr "acl_rules" (entries fun _ => AclRuleState.decode) [] j
  let strategies ← fieldOr "strategies" (entries fun _ => StrategyState.decode) [] j
  let userGroups ← fieldOr "user_groups" (entries UserGroups.decode) [] j
  let relayServers ← fieldOr "relay_servers" (entries fun _ => RelayState.decode) [] j
  return {
    requireLogin, requireDeviceDeployment, sourceId, revision
    users := collect _ users
    sessions := collect _ sessions
    devices := collect _ devices
    aclRules := collect _ aclRules
    strategies := collect _ strategies
    userGroups := collect _ userGroups
    relayServers := collect _ relayServers }

/-! ## What is read again -/

section

variable {τ : Type} (t : JsonText τ)

/-- The settings after they were written and read. -/
def StrategyState.again (v : StrategyState) : StrategyState :=
  { v with settings := v.settings.map fun p => (p.1, t.again p.2) }

theorem id_again (v : StrategyState) : (v.again t).id = v.id := rfl

def CacheState.again (st : CacheState) : CacheState :=
  { st with
    strategies := st.strategies.updateWhere (fun _ => true) (StrategyState.again t) (id_again t) }

@[simp] theorem again_orNull_str (v : Option String) :
    t.again (.orNull .str v) = .orNull .str v := by
  cases v <;> rfl

@[simp] theorem again_orNull_bool (v : Option Bool) :
    t.again (.orNull .bool v) = .orNull .bool v := by
  cases v <;> rfl

@[simp] theorem option_orNull_str (v : Option String) : option string (.orNull .str v) = .ok v := by
  cases v <;> rfl

@[simp] theorem option_orNull_bool (v : Option Bool) :
    option Decoder.bool (.orNull .bool v) = .ok v := by
  cases v <;> rfl

theorem UserState.decode_again (v : UserState) : UserState.decode (t.again v.toJson) = .ok v := by
  simp [UserState.decode, UserState.toJson, t.again_obj, field, fieldOr]

theorem SessionState.decode_again (v : SessionState) :
    SessionState.decode (t.again v.toJson) = .ok v := by
  simp [SessionState.decode, SessionState.toJson, t.again_obj, field, fieldOr]

theorem DeviceState.decode_again (v : DeviceState) :
    DeviceState.decode (t.again v.toJson) = .ok v := by
  simp [DeviceState.decode, DeviceState.toJson, t.again_obj, field, fieldOr]

theorem AclRuleState.decode_again (v : AclRuleState) :
    AclRuleState.decode (t.again v.toJson) = .ok v := by
  simp [AclRuleState.decode, AclRuleState.toJson, t.again_obj, field, fieldOr]

theorem StrategyState.decode_again (v : StrategyState) :
    StrategyState.decode (t.again v.toJson) = .ok (v.again t) := by
  simp [StrategyState.decode, StrategyState.toJson, StrategyState.again, t.again_obj, field,
    fieldOr]

theorem RelayState.decode_again (v : RelayState) :
    RelayState.decode (t.again v.toJson) = .ok v := by
  simp [RelayState.decode, RelayState.toJson, t.again_obj, field, fieldOr]

theorem UserGroups.decode_again (v : UserGroups) :
    UserGroups.decode v.userId (t.again (.strings v.groups)) = .ok v := by
  simp [UserGroups.decode]
  rfl

theorem collect_rows {ρ : Type} {key : ρ → String} (u : Table key) : collect key u.rows = u :=
  Table.ext (Table.rows_foldl_put u.nodup fun _ _ => rfl)

theorem entries_rows {ρ : Type} {key : ρ → String} {value : ρ → Json} {d : Decoder ρ}
    (h : ∀ r, d (t.again (value r)) = .ok r) (u : Table key) :
    entries (fun _ => d) (t.again (.object key value u.rows)) = .ok u.rows := by
  rw [entries_object t fun r _ => h r, List.map_id']

/-- **What is written is read again.** -/
theorem CacheState.decode_again {st : CacheState} (h : st.revision < 2 ^ 63) :
    CacheState.decode (t.again st.toJson) = .ok (st.again t) := by
  have hrevision : t.again (.int st.revision) = .int st.revision :=
    t.again_int (by omega) (by omega)
  have hstrategies : entries (fun _ => StrategyState.decode)
      (t.again (.object StrategyState.id StrategyState.toJson st.strategies.rows))
        = .ok (st.again t).strategies.rows :=
    entries_object t fun r _ => StrategyState.decode_again t r
  have hgroups : entries UserGroups.decode
      (t.again (.object UserGroups.userId (fun v => .strings v.groups) st.userGroups.rows))
        = .ok st.userGroups.rows := by
    rw [entries_object t fun r _ => UserGroups.decode_again t r, List.map_id']
  simp only [CacheState.decode, CacheState.toJson, t.again_obj, List.map_cons, List.map_nil, field,
    fieldOr, Json.get?_cons]
  simp [hrevision, natural_int h, hstrategies, hgroups, collect_rows,
    entries_rows t (UserState.decode_again t), entries_rows t (SessionState.decode_again t),
    entries_rows t (DeviceState.decode_again t), entries_rows t (AclRuleState.decode_again t),
    entries_rows t (RelayState.decode_again t)]
  rfl

end

end RemoteControl.Sync
