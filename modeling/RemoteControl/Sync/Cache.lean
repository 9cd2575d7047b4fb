import RemoteControl.Lib.Json
import RemoteControl.Lib.Table

/-!
# The authorisation cache of HBBS

`art-core/src/auth/cache.rs` and `apply_event` of `sync.rs`: the records HBBS
keeps, how their JSON is decoded, and what an event does to them. The maps are
tables; nothing depends on the order in which a map is walked.

Every `upsert_…` and `revoke_…` method has the same frame: under the lock, if the
event's revision is accepted, one change of the content is made. `CacheOp` is
that change and `CacheState.perform` the frame.
-/

namespace RemoteControl.Sync

open Lib

/-! ## Records -/

structure UserState where
  id : String
  username : String
  role : String
  enabled : Bool
  approvalStatus : String
  tokenVersion : Int64
deriving DecidableEq, Repr

structure SessionState where
  id : String
  userId : String
  expiresAt : String
  revokedAt : Option String
  clientDeviceId : String
deriving DecidableEq, Repr

structure UserGroupMembershipState where
  groupId : String
  userId : String
  active : Bool
deriving DecidableEq, Repr

structure DeviceState where
  rustdeskId : String
  clientUuid : String
  publicKey : String
  deployed : Bool
  ownerUserId : String
  groupId : String
deriving DecidableEq, Repr

structure AclRuleState where
  id : String
  subjectType : String
  subjectId : String
  targetType : String
  targetId : String
  permissions : List String
  effect : String
  enabled : Bool
  priority : Int32
  deleted : Bool
deriving DecidableEq, Repr

structure StrategyState where
  id : String
  scopeType : String
  scopeId : String
  priority : Int32
  settings : List (String × Json)
  enabled : Bool
  deleted : Bool

structure RelayState where
  id : String
  hostname : String
  port : UInt16
  region : String
  enabled : Bool
  health : String
  latencyMs : Int32
  connections : Int32
  deleted : Bool
deriving DecidableEq, Repr

/-! ## Decoding -/

open Decoder

def UserState.decode : Decoder UserState := fun j => do
  let id ← field "id" string j
  let username ← field "username" string j
  let role ← field "role" string j
  let enabled ← field "enabled" bool j
  let approvalStatus ← fieldOr "approval_status" string "approved" j
  let tokenVersion ← field "token_version" i64 j
  return { id, username, role, enabled, approvalStatus, tokenVersion }

def SessionState.decode : Decoder SessionState := fun j => do
  let id ← field "id" string j
  let userId ← field "user_id" string j
  let expiresAt ← field "expires_at" string j
  let revokedAt ← fieldOr "revoked_at" (option string) none j
  let clientDeviceId ← fieldOr "client_device_id" string "" j
  return { id, userId, expiresAt, revokedAt, clientDeviceId }

def UserGroupMembershipState.decode : Decoder UserGroupMembershipState := fun j => do
  let groupId ← field "group_id" string j
  let userId ← field "user_id" string j
  let active ← fieldOr "active" bool true j
  return { groupId, userId, active }

def DeviceState.decode : Decoder DeviceState := fun j => do
  let rustdeskId ← field "rustdesk_id" string j
  let clientUuid ← fieldOr "client_uuid" string "" j
  let publicKey ← fieldOr "public_key" string "" j
  let deployed ← fieldOr "deployed" bool false j
  let ownerUserId ← fieldOr "owner_user_id" string "" j
  let groupId ← fieldOr "group_id" string "" j
  return { rustdeskId, clientUuid, publicKey, deployed, ownerUserId, groupId }

def AclRuleState.decode : Decoder AclRuleState := fun j => do
  let id ← field "id" string j
  let subjectType ← field "subject_type" string j
  let subjectId ← fieldOr "subject_id" string "" j
  let targetType ← field "target_type" string j
  let targetId ← fieldOr "target_id" string "" j
  let permissions ← field "permissions" (seq string) j
  let effect ← fieldOr "effect" string "allow" j
  let enabled ← field "enabled" bool j
  let priority ← field "priority" i32 j
  let deleted ← fieldOr "deleted" bool false j
  return { id, subjectType, subjectId, targetType, targetId, permissions, effect, enabled,
           priority, deleted }

def StrategyState.decode : Decoder StrategyState := fun j => do
  let id ← field "id" string j
  let scopeType ← field "scope_type" string j
  let scopeId ← fieldOr "scope_id" string "" j
  let priority ← field "priority" i32 j
  let settings ← field "settings" map j
  let enabled ← field "enabled" bool j
  let deleted ← fieldOr "deleted" bool false j
  return { id, scopeType, scopeId, priority, settings, enabled, deleted }

def RelayState.decode : Decoder RelayState := fun j => do
  let id ← field "id" string j
  let hostname ← field "hostname" string j
  let port ← field "port" u16 j
  let region ← fieldOr "region" string "" j
  let enabled ← field "enabled" bool j
  let health ← field "health" string j
  let latencyMs ← fieldOr "latency_ms" i32 0 j
  let connections ← fieldOr "connections" i32 0 j
  let deleted ← fieldOr "deleted" bool false j
  return { id, hostname, port, region, enabled, health, latencyMs, connections, deleted }

/-! ## The cache -/

/-- One entry of `user_groups`. -/
structure UserGroups where
  userId : String
  groups : List String
deriving DecidableEq, Repr

structure CacheState where
  requireLogin : Option Bool
  requireDeviceDeployment : Option Bool
  sourceId : String
  revision : Nat
  users : Table UserState.id
  sessions : Table SessionState.id
  devices : Table DeviceState.rustdeskId
  aclRules : Table AclRuleState.id
  strategies : Table StrategyState.id
  userGroups : Table UserGroups.userId
  relayServers : Table RelayState.id

/-- `CacheState::default()`. -/
def CacheState.empty : CacheState :=
  ⟨none, none, "", 0, .empty, .empty, .empty, .empty, .empty, .empty, .empty⟩

def CacheState.cursor (st : CacheState) : String × Nat := (st.sourceId, st.revision)

/-- The groups of a user; a user without entry has none. -/
def CacheState.groupsOf (st : CacheState) (userId : String) : List String :=
  ((st.userGroups.get? userId).map UserGroups.groups).getD []

/-- A decoded event, as a change of the content. -/
inductive CacheOp
  | user (user : UserState)
  | session (session : SessionState)
  | revokeUserSessions (userId : String)
  | acl (value : AclRuleState)
  | strategy (value : StrategyState)
  | relay (value : RelayState)
  | device (value : DeviceState)
  | membership (value : UserGroupMembershipState)
  | configuration (requireLogin requireDeviceDeployment : Bool)

def CacheOp.apply (st : CacheState) : CacheOp → CacheState
  | .user v => { st with users := st.users.put v }
  | .session v => { st with sessions := st.sessions.put v }
  | .revokeUserSessions userId =>
    { st with sessions := st.sessions.deleteWhere fun s => s.userId = userId }
  | .acl value => { st with
      aclRules := if value.deleted then st.aclRules.remove value.id else st.aclRules.put value }
  | .strategy value => { st with
      strategies :=
        if value.deleted then st.strategies.remove value.id else st.strategies.put value }
  | .relay value => { st with
      relayServers :=
        if value.deleted then st.relayServers.remove value.id else st.relayServers.put value }
  | .device value => { st with devices := st.devices.put value }
  | .membership value =>
    let groups := (st.groupsOf value.userId).filter fun g => g ≠ value.groupId
    { st with
      userGroups := st.userGroups.put
        ⟨value.userId, if value.active then groups ++ [value.groupId] else groups⟩ }
  | .configuration requireLogin requireDeviceDeployment =>
    { st with
      requireLogin := some requireLogin
      requireDeviceDeployment := some requireDeviceDeployment }

/-- `accept_revision`; `none` when the event is dropped. -/
def CacheState.acceptRevision (sourceId : String) (revision : Nat) (st : CacheState) :
    Option CacheState :=
  if st.sourceId ≠ sourceId then some { st with sourceId := sourceId, revision := revision }
  else if st.revision < revision then some { st with revision := revision }
  else none

/-- An event of the same source that is not newer is dropped. -/
theorem CacheState.acceptRevision_eq (sourceId : String) (revision : Nat) (st : CacheState) :
    st.acceptRevision sourceId revision
      = if st.sourceId = sourceId ∧ revision ≤ st.revision then none
        else some { st with sourceId, revision } := by
  fun_cases CacheState.acceptRevision with
  | case1 hs => rw [if_neg fun h => hs h.1]
  | case2 hs hr => rw [if_neg fun h => Nat.not_lt.mpr h.2 hr, ← not_not.mp hs]
  | case3 hs hr => rw [if_pos ⟨not_not.mp hs, Nat.not_lt.mp hr⟩]

def CacheState.perform (op : CacheOp) (sourceId : String) (revision : Nat) (st : CacheState) :
    CacheState :=
  match st.acceptRevision sourceId revision with
  | some st' => op.apply st'
  | none => st

/-! ## Events -/

structure EventEnvelope where
  sourceId : String
  revision : Nat
  kind : String
  payload : Json

/-- The dispatch of `apply_event`; `none` for a kind it does not handle. -/
def decodeEvent (kind : String) (payload : Json) : Except DecodeError (Option CacheOp) :=
  if kind = "USER_UPDATED" ∨ kind = "USER_DISABLED" then
    (UserState.decode payload).map fun v => some (.user v)
  else if kind = "SESSION_CREATED" ∨ kind = "SESSION_REVOKED" then
    (SessionState.decode payload).map fun v => some (.session v)
  else if kind = "SESSION_REVOKED_ALL" then
    (field "user_id" string payload).map fun v => some (.revokeUserSessions v)
  else if kind = "ACL_UPDATED" then (AclRuleState.decode payload).map fun v => some (.acl v)
  else if kind = "STRATEGY_UPDATED" then
    (StrategyState.decode payload).map fun v => some (.strategy v)
  else if kind = "RELAY_UPDATED" then (RelayState.decode payload).map fun v => some (.relay v)
  else if kind = "DEVICE_UPDATED" then (DeviceState.decode payload).map fun v => some (.device v)
  else if kind = "USER_GROUP_MEMBERSHIP_UPDATED" then
    (UserGroupMembershipState.decode payload).map fun v => some (.membership v)
  else if kind = "CONFIGURATION_UPDATED" then do
    let requireLogin ← field "require_login" bool payload
    let requireDeviceDeployment ← field "require_device_deployment" bool payload
    return some (.configuration requireLogin requireDeviceDeployment)
  else .ok none

section

variable (j : Json)

theorem decodeEvent_userUpdated :
    decodeEvent "USER_UPDATED" j = (UserState.decode j).map fun v => some (.user v) := by
  simp [decodeEvent]

theorem decodeEvent_userDisabled :
    decodeEvent "USER_DISABLED" j = (UserState.decode j).map fun v => some (.user v) := by
  simp [decodeEvent]

theorem decodeEvent_sessionCreated :
    decodeEvent "SESSION_CREATED" j = (SessionState.decode j).map fun v => some (.session v) := by
  simp [decodeEvent]

theorem decodeEvent_sessionRevoked :
    decodeEvent "SESSION_REVOKED" j = (SessionState.decode j).map fun v => some (.session v) := by
  simp [decodeEvent]

theorem decodeEvent_aclUpdated :
    decodeEvent "ACL_UPDATED" j = (AclRuleState.decode j).map fun v => some (.acl v) := by
  simp [decodeEvent]

theorem decodeEvent_strategyUpdated :
    decodeEvent "STRATEGY_UPDATED" j = (StrategyState.decode j).map fun v => some (.strategy v) := by
  simp [decodeEvent]

theorem decodeEvent_relayUpdated :
    decodeEvent "RELAY_UPDATED" j = (RelayState.decode j).map fun v => some (.relay v) := by
  simp [decodeEvent]

theorem decodeEvent_deviceUpdated :
    decodeEvent "DEVICE_UPDATED" j = (DeviceState.decode j).map fun v => some (.device v) := by
  simp [decodeEvent]

theorem decodeEvent_membershipUpdated :
    decodeEvent "USER_GROUP_MEMBERSHIP_UPDATED" j =
      (UserGroupMembershipState.decode j).map fun v => some (.membership v) := by
  simp [decodeEvent]

end

def CacheState.applyEvent (e : EventEnvelope) (st : CacheState) : Except DecodeError CacheState :=
  (decodeEvent e.kind e.payload).map fun
    | some op => st.perform op e.sourceId e.revision
    | none => st

/-- The loop of `consume_event_stream` over what the stream brings: it goes on until an
event cannot be applied. -/
def CacheState.consume : List EventEnvelope → CacheState → CacheState × Option DecodeError
  | [], st => (st, none)
  | e :: es, st =>
    match st.applyEvent e with
    | .error err => (st, some err)
    | .ok st' => st'.consume es

/-! ## Snapshots -/

structure AuthSnapshot where
  requireLogin : Option Bool
  requireDeviceDeployment : Option Bool
  sourceId : String
  revision : Nat
  users : List UserState
  sessions : List SessionState
  devices : List DeviceState
  aclRules : List AclRuleState
  strategies : List StrategyState
  userGroupMemberships : List UserGroupMembershipState
  relayServers : List RelayState

/-- Collecting into a map: of two entries with one key the later stays. -/
def collect {ρ : Type} (key : ρ → String) (rows : List ρ) : Table key := rows.foldl Table.put .empty

/-- The loop that fills `user_groups`. -/
def collectGroups (memberships : List UserGroupMembershipState) : Table UserGroups.userId :=
  memberships.foldl (fun t m =>
    if m.active then
      t.put ⟨m.userId, ((t.get? m.userId).map UserGroups.groups).getD [] ++ [m.groupId]⟩
    else t) .empty

def CacheState.replace (s : AuthSnapshot) (st : CacheState) : CacheState :=
  if s.sourceId = st.sourceId ∧ s.revision < st.revision then st
  else
    { requireLogin := s.requireLogin
      requireDeviceDeployment := s.requireDeviceDeployment
      sourceId := s.sourceId
      revision := s.revision
      users := collect _ s.users
      sessions := collect _ s.sessions
      devices := collect _ s.devices
      aclRules := collect _ s.aclRules
      strategies := collect _ s.strategies
      userGroups := collectGroups s.userGroupMemberships
      relayServers := collect _ s.relayServers }

end RemoteControl.Sync
