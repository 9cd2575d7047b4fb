import RemoteControl.Sync.Publication
import RemoteControl.Sync.Store

/-!
# Administrative operations

The handlers of `httpapi/server.go`, `rbac.go` and `devices_csv.go` and the methods of
`auth/service.go` behind them: what each does to the database, and what it publishes,
in order. A request that is refused, by a check of its fields or by the store,
changes nothing and publishes nothing. The checks of fields are left out where
nothing but the refusal depends on them; those of rules and strategies, which also
change the value, are in `Handlers`.
-/

namespace RemoteControl.Sync

open Lib

/-- The new state of the database with what was published, or no change. -/
abbrev Effect := Store × List Publication

variable (c : Checks)

/-! ## Users -/

/-- What `CreateLocalUser` is given, with the id it draws. -/
structure NewUser where
  id : String
  username : String
  email : String
  phone : String
  displayName : String
  passwordHash : String
  role : String
  enabled : Bool
  groupIds : List String

def NewUser.user (input : NewUser) (now : Nat) : User where
  id := input.id
  username := input.username
  email := input.email
  phone := ""
  passwordHash := input.passwordHash
  displayName := input.displayName
  role := input.role
  permissions := none
  enabled := input.enabled
  approvalStatus := "approved"
  tokenVersion := 1
  createdAt := now
  updatedAt := now
  lastLoginAt := 0
  forceReloginAt := 0
  totpSecret := ""
  totpEnabled := false

/-- The update with which `createUser` stores a phone number and groups. -/
def NewUser.update (input : NewUser) : UserUpdate where
  username := input.username
  email := input.email
  phone := input.phone
  displayName := input.displayName
  passwordHash := ""
  role := input.role
  enabled := input.enabled
  groupIds := input.groupIds

def Store.membershipsOf (userId : String) (s : Store) : List UserGroupMembership :=
  s.listUserGroupMemberships.filter fun m => m.userId = userId

def updateUser (id : String) (input : UserUpdate) (now : Nat) (s : Store) : Effect :=
  match s.updateUser c.toLower id input now with
  | .error _ => (s, [])
  | .ok (user, s') =>
    (s', .userSaved user :: .sessionsRevoked id :: (s'.membershipsOf id).map .membershipSet)

def createUser (input : NewUser) (now : Nat) (s : Store) : Effect :=
  match s.createUser c.toLower (input.user now) with
  | .error _ => (s, [])
  | .ok s₁ =>
    if input.phone = "" && input.groupIds.isEmpty then (s₁, [.userSaved (input.user now)])
    else
      let (s₂, ps) := updateUser c input.id input.update now s₁
      (s₂, .userSaved (input.user now) :: ps)

def deleteUser (id : String) (s : Store) : Effect := match s.deleteUser id with
  | .error _ => (s, [])
  | .ok s' => (s', [.userDeleted id, .sessionsRevoked id])

def setUserEnabled (id : String) (enabled : Bool) (now : Nat) (s : Store) : Effect :=
  match s.setUserEnabled id enabled now with
  | .error _ => (s, [])
  | .ok (user, s') =>
    if enabled then (s', [.userSaved user])
    else (s'.revokeUserSessions id now, [.userDisabled user, .sessionsRevoked id])

/-- `approveUser` and `rejectUser`. -/
def setUserApproval (id : String) (approve : Bool) (now : Nat) (s : Store) : Effect :=
  match s.setUserApproval id (if approve then "approved" else "rejected") now with
  | .error _ => (s, [])
  | .ok (user, s') =>
    let published := [.userSaved user, .membershipSet ⟨pendingUsersGroupId, id, false⟩,
      .membershipSet ⟨approvedUsersGroupId, id, approve⟩]
    if approve then (s', published)
    else (s'.revokeUserSessions id now, .sessionsRevoked id :: published)

/-- A change of the user's row that ends the sessions. -/
def signOut (id : String) (now : Nat) (s : Store) : Except StoreError (User × Store) → Effect
  | .error _ => (s, [])
  | .ok (user, s') => (s'.revokeUserSessions id now, [.userSaved user, .sessionsRevoked id])

def setUserPassword (id passwordHash : String) (now : Nat) (s : Store) : Effect :=
  signOut id now s (s.updateUserPassword id passwordHash now)

def forceRelogin (id : String) (now : Nat) (s : Store) : Effect :=
  signOut id now s (s.forceRelogin id now)

/-! ## Groups -/

/-- An operation that publishes nothing. -/
def quietly (s : Store) : Except StoreError Store → Effect
  | .error _ => (s, [])
  | .ok s' => (s', [])

def createGroup (group : Group) (s : Store) : Effect := quietly s (s.createGroup group)

def updateGroup (id name description : String) (s : Store) : Effect :=
  if systemGroup id then (s, []) else quietly s (s.updateGroup id name description)

def deleteGroup (id : String) (s : Store) : Effect :=
  if systemGroup id then (s, [])
  else
    match s.deleteGroup id with
    | .error _ => (s, [])
    -- the lists were read before
    | .ok s' =>
      (s', (s.listUserGroupMemberships.filter fun m => m.groupId = id).map
          (fun m => .membershipSet { m with active := false })
        ++ (s.aclRules.rows.filter (AclRule.names id)).map (fun v => .aclDeleted v.id)
        ++ (s.strategies.rows.filter (Strategy.names id)).map (fun v => .strategyDeleted v.id)
        ++ (s.devices.rows.filter fun d => d.groupId = id).map
          (fun d => .deviceSaved { d with groupId := "" }))

/-- `addGroupMember` and `removeGroupMember`. -/
def setGroupMember (groupId userId : String) (active : Bool) (s : Store) : Effect :=
  match s.groups.get? groupId, s.users.get? userId with
  | some ⟨_, _, _, .user⟩, some _ =>
    (s.setUserGroupMember groupId userId active, [.membershipSet ⟨groupId, userId, active⟩])
  | _, _ => (s, [])

/-! ## Rules and strategies -/

/-- An operation that publishes one event. -/
def announcing (p : Publication) (s : Store) : Except StoreError Store → Effect
  | .error _ => (s, [])
  | .ok s' => (s', [p])

def createACLRule (body : AclRule) (id : String) (now : Nat) (s : Store) : Effect :=
  match c.createACLRule body id now with
  | none => (s, [])
  | some v => announcing (.aclCreated body id now) s (s.createACLRule v)

def updateACLRule (body : AclRule) (id : String) (now : Nat) (s : Store) : Effect :=
  match c.updateACLRule body id now with
  | none => (s, [])
  | some v => announcing (.aclUpdated body id now) s (s.updateACLRule v)

def deleteACLRule (id : String) (s : Store) : Effect :=
  announcing (.aclDeleted id) s (s.deleteACLRule id)

def createStrategy (body : Strategy) (id : String) (now : Nat) (s : Store) : Effect :=
  match c.createStrategy body id now with
  | none => (s, [])
  | some v => announcing (.strategyCreated body id now) s (s.createStrategy v)

def updateStrategy (body : Strategy) (id : String) (now : Nat) (s : Store) : Effect :=
  match c.updateStrategy body id now with
  | none => (s, [])
  | some v => announcing (.strategyUpdated body id now) s (s.updateStrategy v)

def deleteStrategy (id : String) (now : Nat) (s : Store) : Effect :=
  announcing (.strategyDeleted id) s (s.deleteStrategy id now)

/-! ## Devices -/

def updateDevice (id newAlias groupId : String) (tags : Option (List String)) (s : Store) :
    Effect :=
  quietly s ((s.updateDeviceManagement id newAlias groupId tags).map Prod.snd)

/-- No group, or a device group. -/
def Store.deviceGroup (s : Store) (groupId : String) : Bool :=
  groupId = "" || (s.groups.get? groupId).any fun g => g.kind = .device

def bulkUpdateDevices (ids : List String) (groupId : Option String)
    (addTags removeTags : List String) (s : Store) : Effect :=
  if ids.Nodup ∧ groupId.all s.deviceGroup then
    quietly s (s.bulkUpdateDevices c.trimSpace groupId addTags removeTags ids)
  else (s, [])

def importDevicesCSV (values : List DeviceManagementImport) (s : Store) : Effect :=
  if (values.map (·.rustdeskId)).Nodup ∧ values.all (fun v => s.deviceGroup v.groupId) then
    quietly s (s.importDeviceManagement values)
  else (s, [])

/-- `archiveDevice` and `restoreDevice`. -/
def setDeviceArchived (id : String) (archived : Bool) (now : Nat) (s : Store) : Effect :=
  quietly s ((s.setDeviceArchived id archived now).map Prod.snd)

def deleteArchivedDevice (id : String) (s : Store) : Effect := quietly s (s.deleteArchivedDevice id)

/-! ## Roles and settings -/

/-- The loop at the end of `deleteRole`: the users were listed before, and each is read again. -/
def Store.announceUsers (s : Store) (users : List User) : List Publication :=
  users.flatMap fun u =>
    match s.users.get? u.id with
    | some updated => [.userSaved updated, .sessionsRevoked u.id]
    | none => []

def deleteRole (id : String) (s : Store) : Effect := match s.deleteRole id with
  | .error _ => (s, [])
  | .ok s' => (s', s'.announceUsers (s.users.rows.filter fun u => u.role = id))

def updateSettings (requireLogin requireDeviceDeployment : Option Bool) (s : Store) : Effect :=
  let settings := s.settings.update requireLogin requireDeviceDeployment
  ({ s with settings }, [.configured settings.requireLogin settings.requireDeviceDeployment])

/-! ## All of them -/

inductive AdminOp
  | createUser (input : NewUser) (now : Nat)
  | updateUser (id : String) (input : UserUpdate) (now : Nat)
  | deleteUser (id : String)
  | setUserEnabled (id : String) (enabled : Bool) (now : Nat)
  | setUserApproval (id : String) (approve : Bool) (now : Nat)
  | setUserPassword (id passwordHash : String) (now : Nat)
  | forceRelogin (id : String) (now : Nat)
  | createGroup (group : Group)
  | updateGroup (id name description : String)
  | deleteGroup (id : String)
  | setGroupMember (groupId userId : String) (active : Bool)
  | createACLRule (body : AclRule) (id : String) (now : Nat)
  | updateACLRule (body : AclRule) (id : String) (now : Nat)
  | deleteACLRule (id : String)
  | createStrategy (body : Strategy) (id : String) (now : Nat)
  | updateStrategy (body : Strategy) (id : String) (now : Nat)
  | deleteStrategy (id : String) (now : Nat)
  | updateDevice (id newAlias groupId : String) (tags : Option (List String))
  | bulkUpdateDevices (ids : List String) (groupId : Option String) (addTags removeTags : List String)
  | importDevicesCSV (values : List DeviceManagementImport)
  | setDeviceArchived (id : String) (archived : Bool) (now : Nat)
  | deleteArchivedDevice (id : String)
  | deleteRole (id : String)
  | updateSettings (requireLogin requireDeviceDeployment : Option Bool)

def AdminOp.run (s : Store) : AdminOp → Effect
  | .createUser input now => Sync.createUser c input now s
  | .updateUser id input now => Sync.updateUser c id input now s
  | .deleteUser id => Sync.deleteUser id s
  | .setUserEnabled id enabled now => Sync.setUserEnabled id enabled now s
  | .setUserApproval id approve now => Sync.setUserApproval id approve now s
  | .setUserPassword id passwordHash now => Sync.setUserPassword id passwordHash now s
  | .forceRelogin id now => Sync.forceRelogin id now s
  | .createGroup group => Sync.createGroup group s
  | .updateGroup id name description => Sync.updateGroup id name description s
  | .deleteGroup id => Sync.deleteGroup id s
  | .setGroupMember groupId userId active => Sync.setGroupMember groupId userId active s
  | .createACLRule body id now => Sync.createACLRule c body id now s
  | .updateACLRule body id now => Sync.updateACLRule c body id now s
  | .deleteACLRule id => Sync.deleteACLRule id s
  | .createStrategy body id now => Sync.createStrategy c body id now s
  | .updateStrategy body id now => Sync.updateStrategy c body id now s
  | .deleteStrategy id now => Sync.deleteStrategy id now s
  | .updateDevice id newAlias groupId tags => Sync.updateDevice id newAlias groupId tags s
  | .bulkUpdateDevices ids groupId addTags removeTags =>
    Sync.bulkUpdateDevices c ids groupId addTags removeTags s
  | .importDevicesCSV values => Sync.importDevicesCSV values s
  | .setDeviceArchived id archived now => Sync.setDeviceArchived id archived now s
  | .deleteArchivedDevice id => Sync.deleteArchivedDevice id s
  | .deleteRole id => Sync.deleteRole id s
  | .updateSettings requireLogin requireDeviceDeployment =>
    Sync.updateSettings requireLogin requireDeviceDeployment s

end RemoteControl.Sync
