import RemoteControl.Lib.Table
import RemoteControl.Sync.Domain

/-!
# The database

The tables of `store/sqlstore` that HBBS's cache is made from, with the rows as the
records they are scanned into, and the transactions on them. Each function is one
transaction, so a failure leaves the store as it was. Tables that nothing here
reads (challenges, identities, address books) are left out, and so are failures of
the database itself.

An `UPDATE … WHERE id = ?` sets the row of that key.
-/

namespace RemoteControl.Sync

open Lib

inductive GroupKind
  | user | device
deriving DecidableEq, Repr

structure Group where
  id : String
  name : String
  description : String
  kind : GroupKind
deriving DecidableEq, Repr

def pendingUsersGroupId : String := "system-pending-users"

def approvedUsersGroupId : String := "system-approved-users"

/-- The groups that a user's approval decides about. -/
def systemGroup (id : String) : Bool := id = pendingUsersGroupId || id = approvedUsersGroupId

/-- A row of `user_group_memberships`; it is there while the membership is active. -/
structure MemberRow where
  groupId : String
  userId : String
deriving DecidableEq, Repr

def MemberRow.key (m : MemberRow) : String × String := (m.groupId, m.userId)

/-- A row of `roles`, as far as deleting it goes. -/
structure Role where
  id : String
  system : Bool
deriving DecidableEq, Repr

/-- The two runtime settings that HBBS follows. `runtimeconfig.Service` writes them to the
database and keeps them in memory under one lock. -/
structure Settings where
  requireLogin : Bool
  requireDeviceDeployment : Bool
deriving DecidableEq, Repr

/-- The tables that HBBS is told about, with groups and roles. -/
structure Store where
  users : Table User.id
  sessions : Table Session.id
  devices : Table Device.rustdeskId
  groups : Table Group.id
  memberships : Table MemberRow.key
  aclRules : Table AclRule.id
  strategies : Table Strategy.id
  relayServers : Table RelayServer.id
  roles : Table Role.id
  settings : Settings

/-- A new installation. -/
def Store.empty (settings : Settings) : Store :=
  ⟨.empty, .empty, .empty, .empty, .empty, .empty, .empty, .empty, .empty, settings⟩

inductive StoreError
  | notFound | lastAdmin | conflict | systemRole
deriving DecidableEq, Repr

/-- `UPDATE … WHERE key = ? RETURNING …`. -/
def updateRow {ρ κ : Type} {key : ρ → κ} [DecidableEq κ] (t : Table key) (k : κ) (f : ρ → ρ) :
    Except StoreError (ρ × Table key) :=
  match t.get? k with
  | some r => .ok (f r, t.put (f r))
  | none => .error .notFound

/-! ## Queries of the snapshot -/

/-- The sessions of `ListAuthState`, revoked ones included. -/
def Store.liveSessions (now : Nat) (s : Store) : List Session :=
  s.sessions.rows.filter fun v => now < v.expiresAt

def Store.listUserGroupMemberships (s : Store) : List UserGroupMembership :=
  s.memberships.rows.map fun m => ⟨m.groupId, m.userId, true⟩

/-! ## Users and sessions -/

/-- `CreateUser`; `username` is unique, and the row of a new membership must be new. -/
def Store.createUser (toLower : String → String) (user : User) (s : Store) :
    Except StoreError Store :=
  let user := { user with
    username := toLower user.username
    approvalStatus := if user.approvalStatus = "" then "approved" else user.approvalStatus }
  let member : MemberRow := ⟨approvedUsersGroupId, user.id⟩
  if (s.users.get? user.id).isSome || s.users.rows.any (fun u => u.username = user.username) then
    .error .conflict
  else if user.approvalStatus ≠ "approved" then .ok { s with users := s.users.insert user }
  else if (s.memberships.get? member.key).isSome then .error .conflict
  else .ok { s with
    users := s.users.insert user
    memberships := s.memberships.insert member }

def Store.withUser (s : Store) (id : String) (f : User → User) : Except StoreError (User × Store) :=
  (updateRow s.users id f).map fun (user, users) => (user, { s with users })

/-- `CreateSession`; a session refers to a user. -/
def Store.createSession (v : Session) (s : Store) : Except StoreError Store :=
  if (s.sessions.get? v.id).isSome || (s.users.get? v.userId).isNone then .error .conflict
  else .ok { s with sessions := s.sessions.insert v }

def Store.updateLastLogin (id : String) (now : Nat) (s : Store) : Store :=
  { s with
    users := s.users.updateWhere (fun u => u.id = id)
      fun u => { u with lastLoginAt := now, updatedAt := now } }

def Store.setUserEnabled (id : String) (enabled : Bool) (now : Nat) (s : Store) :=
  s.withUser id fun u =>
    { u with enabled := enabled, tokenVersion := u.tokenVersion + 1, updatedAt := now }

/-- All tokens issued so far are refused. -/
def Store.forceRelogin (id : String) (now : Nat) (s : Store) :=
  s.withUser id fun u =>
    { u with tokenVersion := u.tokenVersion + 1, forceReloginAt := now, updatedAt := now }

def Store.setUserTOTP (id secret : String) (enabled : Bool) (now : Nat) (s : Store) :=
  s.withUser id fun u =>
    { u with
      totpSecret := secret
      totpEnabled := enabled
      tokenVersion := if u.totpEnabled = enabled then u.tokenVersion else u.tokenVersion + 1
      updatedAt := now }

def Store.updateUserPassword (id passwordHash : String) (now : Nat) (s : Store) :=
  s.withUser id fun u =>
    { u with
      passwordHash := passwordHash
      tokenVersion := u.tokenVersion + 1
      forceReloginAt := now
      updatedAt := now }

def approvalGroup (status : String) : Option String :=
  if status = "pending" then some pendingUsersGroupId
  else if status = "approved" then some approvedUsersGroupId
  else none

/-- The status decides which system group the user is in. -/
def Store.setUserApproval (id status : String) (now : Nat) (s : Store) :
    Except StoreError (User × Store) := do
  let (user, s) ← s.withUser id fun u => { u with approvalStatus := status, updatedAt := now }
  let left := s.memberships.deleteWhere fun m => m.userId = id && systemGroup m.groupId
  return (user, { s with
    memberships := match approvalGroup status with
      | some g => left.insert ⟨g, id⟩
      | none => left })

def Store.revokeUserSessions (userId : String) (now : Nat) (s : Store) : Store :=
  { s with
    sessions := s.sessions.updateWhere (fun v => v.userId = userId && v.revokedAt.isNone)
      fun v => { v with revokedAt := some now } }

/-- `domain.UserUpdate`; an empty hash leaves the password. -/
structure UserUpdate where
  username : String
  email : String
  phone : String
  displayName : String
  passwordHash : String
  role : String
  enabled : Bool
  groupIds : List String

def UserUpdate.apply (input : UserUpdate) (username : String) (now : Nat) (u : User) : User :=
  { u with
    username
    email := input.email
    phone := input.phone
    displayName := input.displayName
    role := input.role
    enabled := input.enabled
    tokenVersion := u.tokenVersion + 1
    forceReloginAt := now
    updatedAt := now
    passwordHash := if input.passwordHash = "" then u.passwordHash else input.passwordHash }

/-- The loop over `GroupIDs`: a group must be a user group, and the system groups are passed
over. -/
def Store.joinGroups (userId : String) : List String → Store → Except StoreError Store
  | [], s => .ok s
  | g :: gs, s =>
    match s.groups.get? g with
    | some ⟨_, _, _, .user⟩ =>
      if systemGroup g then s.joinGroups userId gs
      else { s with memberships := s.memberships.insert ⟨g, userId⟩ }.joinGroups userId gs
    | _ => .error .notFound

/-- Taking `role` away from its only administrator. -/
def Store.lastAdmin (role : String) (s : Store) : Bool :=
  role = "admin" && s.users.count (fun u => u.role = "admin") ≤ 1

/-- The last administrator stays one, and every session ends. -/
def Store.updateUser (toLower : String → String) (id : String) (input : UserUpdate) (now : Nat)
    (s : Store) : Except StoreError (User × Store) := do
  let username := toLower input.username
  match s.users.get? id with
  | none => .error .notFound
  | some current =>
    if input.role ≠ "admin" && s.lastAdmin current.role then .error .lastAdmin
    else if s.users.rows.any (fun u => u.id ≠ id && u.username = username) then .error .conflict
    else
      let (user, s) ← s.withUser id (input.apply username now)
      let s := { s with
        memberships := s.memberships.deleteWhere fun m => m.userId = id && !systemGroup m.groupId }
      let s ← s.joinGroups id input.groupIds
      return (user, s.revokeUserSessions id now)

/-- A user goes with all that refers to the account. -/
def Store.deleteUser (id : String) (s : Store) : Except StoreError Store :=
  match s.users.get? id with
  | none => .error .notFound
  | some user =>
    if s.lastAdmin user.role then .error .lastAdmin
    else .ok { s with
      sessions := s.sessions.deleteWhere fun v => v.userId = id
      memberships := s.memberships.deleteWhere fun m => m.userId = id
      aclRules := s.aclRules.deleteWhere fun v => v.subjectType = "user" && v.subjectId = id
      strategies := s.strategies.deleteWhere fun v => v.scopeType = "user" && v.scopeId = id
      devices := s.devices.updateWhere (fun d => d.ownerUserId = id)
        fun d => { d with ownerUserId := "" }
      users := s.users.remove id }

/-! ## Groups -/

def Store.createGroup (group : Group) (s : Store) : Except StoreError Store :=
  if (s.groups.get? group.id).isSome
      || s.groups.rows.any (fun g => g.kind = group.kind && g.name = group.name) then
    .error .conflict
  else .ok { s with groups := s.groups.insert group }

def Store.updateGroup (id name description : String) (s : Store) : Except StoreError Store :=
  match s.groups.get? id with
  | none => .error .notFound
  | some group =>
    if s.groups.rows.any (fun g => g.id ≠ id && g.kind = group.kind && g.name = name) then
      .error .conflict
    else .ok { s with groups := s.groups.put { group with name := name, description := description } }

def AclRule.names (id : String) (v : AclRule) : Bool :=
  v.subjectType = "user_group" && v.subjectId = id
    || v.targetType = "device_group" && v.targetId = id

def Strategy.names (id : String) (v : Strategy) : Bool :=
  (v.scopeType = "user_group" || v.scopeType = "device_group") && v.scopeId = id

/-- The statements of `DeleteGroup`. -/
def Store.withoutGroup (s : Store) (id : String) : Store :=
  { s with
    memberships := s.memberships.deleteWhere fun m => m.groupId = id
    aclRules := s.aclRules.deleteWhere (AclRule.names id)
    strategies := s.strategies.deleteWhere (Strategy.names id)
    devices := s.devices.updateWhere (fun d => d.groupId = id) fun d => { d with groupId := "" }
    groups := s.groups.remove id }

def Store.deleteGroup (id : String) (s : Store) : Except StoreError Store :=
  match s.groups.get? id with
  | none => .error .notFound
  | some _ => .ok (s.withoutGroup id)

def Store.setUserGroupMember (groupId userId : String) (active : Bool) (s : Store) : Store :=
  { s with
    memberships :=
      if active then s.memberships.insert ⟨groupId, userId⟩
      else s.memberships.remove (groupId, userId) }

/-! ## Rules and strategies -/

/-- The row of a rule: `acl_rules` has no column for `deleted`. -/
def AclRule.stored (v : AclRule) : AclRule := { v with deleted := false }

def Store.createACLRule (v : AclRule) (s : Store) : Except StoreError Store :=
  if (s.aclRules.get? v.id).isSome then .error .conflict
  else .ok { s with aclRules := s.aclRules.insert v.stored }

def Store.updateACLRule (v : AclRule) (s : Store) : Except StoreError Store :=
  match s.aclRules.get? v.id with
  | none => .error .notFound
  | some row =>
    .ok { s with aclRules := s.aclRules.put { v.stored with createdAt := row.createdAt } }

def Store.deleteACLRule (id : String) (s : Store) : Except StoreError Store :=
  match s.aclRules.get? id with
  | none => .error .notFound
  | some _ => .ok { s with aclRules := s.aclRules.remove id }

def Store.createStrategy (v : Strategy) (s : Store) : Except StoreError Store :=
  if (s.strategies.get? v.id).isSome then .error .conflict
  else .ok { s with strategies := s.strategies.insert { v with deleted := false } }

/-- It also brings back a deleted strategy. -/
def Store.updateStrategy (v : Strategy) (s : Store) : Except StoreError Store :=
  match s.strategies.get? v.id with
  | none => .error .notFound
  | some row =>
    .ok { s with
      strategies := s.strategies.put { v with createdAt := row.createdAt, deleted := false } }

/-- A deleted strategy keeps its row. -/
def Store.deleteStrategy (id : String) (now : Nat) (s : Store) : Except StoreError Store :=
  match s.strategies.get? id with
  | none => .error .notFound
  | some row =>
    if row.deleted then .error .notFound
    else .ok { s with
      strategies := s.strategies.put
        { row with enabled := false, deleted := true, updatedAt := now } }

/-! ## Devices -/

def Store.withDevice (s : Store) (id : String) (f : Device → Device) :
    Except StoreError (Device × Store) :=
  (updateRow s.devices id f).map fun (device, devices) => (device, { s with devices })

def Store.updateDeviceManagement (id newAlias groupId : String) (tags : Option (List String))
    (s : Store) :=
  s.withDevice id fun d => { d with deviceAlias := newAlias, groupId := groupId, tags := tags }

/-- The tags without the removed ones, each once, in order. -/
def mergeTags (trimSpace : String → String) (removed : List String) :
    List String → List String → List String
  | merged, [] => merged
  | merged, tag :: rest =>
    let tag := trimSpace tag
    if tag ≠ "" && tag ∉ removed && tag ∉ merged then
      mergeTags trimSpace removed (merged ++ [tag]) rest
    else mergeTags trimSpace removed merged rest

/-- The loop of `BulkUpdateDevices`. -/
def Store.bulkUpdateDevices (trimSpace : String → String) (groupId : Option String)
    (addTags removeTags : List String) : List String → Store → Except StoreError Store
  | [], s => .ok s
  | id :: ids, s => do
    let (_, s) ← s.withDevice id fun d =>
      { d with
        groupId := groupId.getD d.groupId
        tags := some (mergeTags trimSpace (removeTags.map trimSpace) []
          (d.tags.getD [] ++ addTags)) }
    s.bulkUpdateDevices trimSpace groupId addTags removeTags ids

def Store.setDeviceArchived (id : String) (archived : Bool) (now : Nat) (s : Store) :=
  s.withDevice id fun d => { d with archivedAt := if archived then some now else none }

def Store.deleteArchivedDevice (id : String) (s : Store) : Except StoreError Store :=
  match s.devices.get? id with
  | none => .error .notFound
  | some d =>
    if d.archivedAt.isNone then .error .notFound
    else .ok { s with devices := s.devices.remove id }

structure DeviceManagementImport where
  rustdeskId : String
  newAlias : String
  groupId : String
  tags : List String
deriving DecidableEq, Repr

/-- The loop of `ImportDeviceManagement`: an archived device is not found. -/
def Store.importDeviceManagement : List DeviceManagementImport → Store → Except StoreError Store
  | [], s => .ok s
  | v :: vs, s =>
    match s.devices.get? v.rustdeskId with
    | none => .error .notFound
    | some d =>
      if d.archivedAt.isSome then .error .notFound
      else { s with
        devices := s.devices.put
          { d with deviceAlias := v.newAlias, groupId := v.groupId, tags := some v.tags }
        }.importDeviceManagement vs

/-! ## Roles and settings -/

def Store.deleteRole (id : String) (s : Store) : Except StoreError Store :=
  match s.roles.get? id with
  | none => .error .notFound
  | some role =>
    if role.system then .error .systemRole
    else .ok { s with
      users := s.users.updateWhere (fun u => u.role = id)
        fun u => { u with role := "user", tokenVersion := u.tokenVersion + 1 }
      roles := s.roles.remove id }

/-- The settings with those a request supplies. -/
def Settings.update (requireLogin requireDeviceDeployment : Option Bool) (v : Settings) :
    Settings :=
  ⟨requireLogin.getD v.requireLogin, requireDeviceDeployment.getD v.requireDeviceDeployment⟩

end RemoteControl.Sync
