import Mathlib.Data.List.Sort
import RemoteControl.Sync.Inventory
import RemoteControl.Sync.LoginRaces

/-!
# Roles and the management of accounts

What a user may do is said by the permissions of their role. The handlers that manage users and
roles are open to everyone who has `users.write` or `roles.write`, and two checks are to keep
them from giving away more than they have: `canAssignRole` looks at the role that is assigned,
and `canGrant` at the permissions that are put into a role.

> Neither looks at the account that is changed, or at what a role granted before.

The permissions of the role are read with each request, after the token has been accepted.
-/

namespace RemoteControl.Sync

open Lib Table

variable {u' user : User}

/-! ## Permissions -/

def availablePermissions : List String :=
  ["admin.portal", "users.read", "users.write", "devices.read", "devices.write", "groups.read",
    "groups.write", "address_books.read", "address_books.write", "acl.read", "acl.write",
    "strategies.read", "strategies.write", "sessions.read", "sessions.revoke", "audit.read",
    "relays.read", "relays.write", "infrastructure.read", "infrastructure.write", "settings.read",
    "settings.write", "roles.read", "roles.write", "backup.read", "backup.write", "webhooks.read",
    "webhooks.write", "client_profiles.read", "client_profiles.write", "automation.read",
    "automation.write"]

/-- A list of permissions includes one; `*` includes all. -/
def granted (permissions : List String) (permission : String) : Bool :=
  permissions.any fun candidate => candidate = "*" || candidate = permission

def hasPermission (user : User) (permission : String) : Bool :=
  user.role = "admin" || granted (user.permissions.getD []) permission

def canGrant (user : User) (permissions : List String) : Bool :=
  user.role = "admin" || permissions.all fun permission => hasPermission user permission

/-- Who has `*` has everything. -/
theorem hasPermission_of_all (h : hasPermission user "*" = true) (p : String) :
    hasPermission user p = true := by
  unfold hasPermission granted at h ⊢
  rw [Bool.or_eq_true] at h ⊢
  refine h.imp id fun h => ?_
  obtain ⟨c, hc, hall⟩ := List.any_eq_true.mp h
  have hstar : c = "*" := by simpa using hall
  exact List.any_eq_true.mpr ⟨c, hc, by simp [hstar]⟩

/-- `canGrant` finds out whether the user has all that the list includes. -/
theorem canGrant_iff {permissions : List String} :
    canGrant user permissions = true ↔
      ∀ p, granted permissions p = true → hasPermission user p = true := by
  constructor
  · intro h p hp
    unfold canGrant at h
    rw [Bool.or_eq_true] at h
    rcases h with hadmin | hall
    · unfold hasPermission
      rw [hadmin, Bool.true_or]
    · obtain ⟨c, hc, hincludes⟩ := List.any_eq_true.mp hp
      have hhas := List.all_eq_true.mp hall c hc
      rw [Bool.or_eq_true, decide_eq_true_eq, decide_eq_true_eq] at hincludes
      rcases hincludes with rfl | rfl
      · exact hasPermission_of_all hhas p
      · exact hhas
  · intro h
    unfold canGrant
    rw [Bool.or_eq_true]
    refine .inr (List.all_eq_true.mpr fun c hc => h c ?_)
    exact List.any_eq_true.mpr ⟨c, hc, by simp⟩

/-! ## The tables -/

structure RoleDefinition where
  id : String
  name : String
  description : String
  permissions : List String
  system : Bool
  createdAt : Nat
  updatedAt : Nat
deriving DecidableEq, Repr

/-- The part of the row that `Store` has. -/
def RoleDefinition.row (d : RoleDefinition) : Role := ⟨d.id, d.system⟩

/-- The rows in full are those of the store, and the built-in role of a user, which the migration
inserts, grants nothing. -/
structure RolesFit (roles : Table Role.id) (definitions : Table RoleDefinition.id) : Prop where
  agrees : ∀ id, roles.get? id = (definitions.get? id).map RoleDefinition.row
  basic : ∃ d, definitions.get? "user" = some d ∧ d.system = true ∧ d.permissions = []

/-- The database with the rows of `roles` in full. -/
structure Realm where
  db : Store
  definitions : Table RoleDefinition.id
  fits : RolesFit db.roles definitions

section

variable {roles : Table Role.id} {definitions : Table RoleDefinition.id}

section

variable (h : RolesFit roles definitions)

include h

theorem RolesFit.insert {d : RoleDefinition} (hnew : definitions.get? d.id = none) :
    RolesFit (roles.insert d.row) (definitions.insert d) where
  agrees id := by
    have hrow : roles.get? d.row.id = none := (h.agrees d.id).trans (by rw [hnew]; rfl)
    rw [get?_insert hrow, get?_insert hnew]
    show (if d.id = id then _ else _) = _
    split
    · rfl
    · exact h.agrees id
  basic := by
    obtain ⟨e, he, hbuiltin, hnothing⟩ := h.basic
    have hne : d.id ≠ "user" := by
      intro hid
      rw [hid, he] at hnew
      cases hnew
    exact ⟨e, by rw [get?_insert hnew, if_neg hne]; exact he, hbuiltin, hnothing⟩

theorem RolesFit.put {old new : RoleDefinition} (hold : definitions.get? new.id = some old)
    (hplain : old.system = false) (hsame : new.system = old.system) :
    RolesFit roles (definitions.put new) where
  agrees id := by
    rw [get?_put]
    split
    next hid =>
      rw [h.agrees id, ← hid, hold]
      show some (old.row) = some new.row
      unfold RoleDefinition.row
      rw [hsame, get?_key hold]
    next => exact h.agrees id
  basic := by
    obtain ⟨e, he, hbuiltin, hnothing⟩ := h.basic
    have hne : new.id ≠ "user" := by
      intro hid
      rw [hid, he] at hold
      cases hold
      rw [hplain] at hbuiltin
      cases hbuiltin
    exact ⟨e, by rw [get?_put, if_neg hne]; exact he, hbuiltin, hnothing⟩

theorem RolesFit.remove {id : String} {role : Role} (hrole : roles.get? id = some role)
    (hplain : role.system = false) : RolesFit (roles.remove id) (definitions.remove id) where
  agrees i := by
    rw [get?_remove, get?_remove]
    split
    · rfl
    · exact h.agrees i
  basic := by
    obtain ⟨e, he, hbuiltin, hnothing⟩ := h.basic
    have hne : "user" ≠ id := by
      rintro rfl
      rw [h.agrees, he] at hrole
      cases hrole
      rw [show e.system = false from hplain] at hbuiltin
      cases hbuiltin
    exact ⟨e, (get?_remove_of_ne _ hne).trans he, hbuiltin, hnothing⟩

end

end

/-- The transactions that leave the roles alone. -/
def UserOp.keepsRoles : UserOp → Bool
  | .deleteRole _ => false
  | _ => true

/-- The role that a transaction writes. -/
def UserOp.assigns : UserOp → Option String
  | .updateUser _ input _ => some input.role
  | .createUser user | .createRegisteredUser user => some user.role
  | _ => none

section

variable {toLower : String → String} {op : UserOp} {s s' : Store}

/-- A row has the role and the permissions it had, or the role that was assigned. -/
def UserOp.Assigned (op : UserOp) (s s' : Store) : Prop :=
  s'.roles = s.roles ∧ ∀ id u', s'.users.get? id = some u' → op.assigns = some u'.role ∨
    ∃ u, s.users.get? id = some u ∧ u'.role = u.role ∧ u'.permissions = u.permissions

theorem assigned_put {i : String} {u : User} (hroles : s'.roles = s.roles)
    (hu : s.users.get? i = some u) (hs : s'.users = s.users.put u') (hid : u'.id = u.id)
    (hrow : op.assigns = some u'.role ∨ u'.role = u.role ∧ u'.permissions = u.permissions) :
    op.Assigned s s' := by
  refine ⟨hroles, fun id v hv => ?_⟩
  rw [hs, get?_put] at hv
  split at hv
  next hkey =>
    cases hv
    rcases hrow with hassigned | hsame
    · exact .inl hassigned
    · obtain rfl : i = id := by rw [← hkey, hid, get?_key hu]
      exact .inr ⟨u, hu, hsame⟩
  next => exact .inr ⟨v, hv, rfl, rfl⟩

theorem assigned_withUser {id : String} {f : User → User} (h : s.withUser id f = .ok (u', s'))
    (hid : ∀ u, (f u).id = u.id)
    (hsame : ∀ u, (f u).role = u.role ∧ (f u).permissions = u.permissions) : op.Assigned s s' := by
  obtain ⟨u, hu, rfl, rfl⟩ := withUser_ok h
  exact assigned_put rfl hu rfl (hid u) (.inr (hsame u))

theorem assigned_insert (hroles : s'.roles = s.roles) (hnew : s.users.get? u'.id = none)
    (hs : s'.users = s.users.insert u') (hrow : op.assigns = some u'.role) : op.Assigned s s' := by
  refine ⟨hroles, fun id v hv => ?_⟩
  rw [hs, get?_insert hnew] at hv
  split at hv
  next =>
    cases hv
    exact .inl hrow
  next => exact .inr ⟨v, hv, rfl, rfl⟩

theorem createUser_roles (h : s.createUser toLower user = .ok s') : s'.roles = s.roles := by
  rw [createUser_stored] at h
  split at h
  next => cases h
  split at h
  next =>
    cases h
    rfl
  next =>
    split at h
    next => cases h
    cases h
    rfl

theorem createRegisteredUser_roles (h : s.createRegisteredUser toLower user = .ok s') :
    s'.roles = s.roles := by
  unfold Store.createRegisteredUser at h
  dsimp only at h
  split at h
  next => cases h
  cases h
  rfl

/-- **One transaction.** -/
theorem UserOp.run_assigned (hop : op.keepsRoles = true) (h : op.run toLower s = .ok s') :
    op.Assigned s s' := by
  cases op with
  | deleteRole role => cases hop
  | setUserEnabled | forceRelogin | updateUserPassword | setUserTOTP =>
    -- one row is written, and neither of the two columns
    obtain ⟨u, h⟩ := map_snd_ok h
    exact assigned_withUser h (fun _ => rfl) fun _ => ⟨rfl, rfl⟩
  | updateUser id input now =>
    obtain ⟨u', h⟩ := map_snd_ok h
    obtain ⟨⟨u, hu, rfl⟩, memberships, -, rfl⟩ := updateUser_ok h
    exact assigned_put rfl hu rfl rfl (.inl rfl)
  | setUserApproval id status now =>
    obtain ⟨u', h⟩ := map_snd_ok h
    obtain ⟨⟨u, hu, rfl⟩, rfl⟩ := setUserApproval_ok h
    exact assigned_put rfl hu rfl rfl (.inr ⟨rfl, rfl⟩)
  | updateLastLogin id now =>
    cases h
    refine ⟨rfl, fun i v hv => ?_⟩
    unfold Store.updateLastLogin at hv
    rw [get?_updateWhere] at hv
    obtain ⟨u, hu, rfl⟩ := Option.map_eq_some_iff.mp hv
    refine .inr ⟨u, hu, ?_⟩
    split <;> exact ⟨rfl, rfl⟩
  | createUser user =>
    obtain ⟨hnew, hs⟩ := createUser_row h
    exact assigned_insert (createUser_roles h) hnew hs rfl
  | createRegisteredUser user =>
    obtain ⟨hnew, hs⟩ := createRegisteredUser_ok h
    refine assigned_insert (createRegisteredUser_roles h) ?_ hs rfl
    exact hnew
  | deleteUser id =>
    replace h : s.deleteUser id = .ok s' := h
    unfold Store.deleteUser at h
    split at h
    next => cases h
    split at h
    next => cases h
    cases h
    exact ⟨rfl, fun i v hv => .inr ⟨v, s.users.remove_sub id hv, rfl, rfl⟩⟩

theorem deleteRole_ok {id : String} (h : s.deleteRole id = .ok s') :
    (∃ role, s.roles.get? id = some role ∧ role.system = false) ∧
      s' = { s with
        users := s.users.updateWhere (fun u => u.role = id)
          fun u => { u with role := "user", tokenVersion := u.tokenVersion + 1 }
        roles := s.roles.remove id } := by
  unfold Store.deleteRole at h
  split at h
  next => cases h
  next role hrole =>
    split at h
    next => cases h
    next hsystem => exact ⟨⟨role, hrole, by simpa using hsystem⟩, (Except.ok.inj h).symm⟩

end

/-- The roles that the migration inserts. -/
def adminRole (now : Nat) : RoleDefinition :=
  ⟨"admin", "Администратор", "Полный доступ ко всем функциям", ["*"], true, now, now⟩

def userRole (now : Nat) : RoleDefinition :=
  ⟨"user", "Пользователь", "Доступ к клиенту и личному кабинету", [], true, now, now⟩

namespace Realm

/-- A new database. -/
def fresh (settings : Settings) (now : Nat) : Realm where
  db := { Store.empty settings with
    roles := (Table.empty.put (adminRole now).row).put (userRole now).row }
  definitions := (Table.empty.put (adminRole now)).put (userRole now)
  fits :=
    { agrees := fun id => by
        simp only [get?_put, get?_empty]
        show (if "user" = id then _ else if "admin" = id then _ else _) = _
        show _ = Option.map _ (if "user" = id then _ else if "admin" = id then _ else _)
        split
        · rfl
        · split <;> rfl
      basic := ⟨userRole now, rfl, rfl, rfl⟩ }

/-! ## Transactions on both -/

def transact (toLower : String → String) (op : UserOp) (hop : op.keepsRoles = true) (w : Realm) :
    Except StoreError Realm :=
  match h : op.run toLower w.db with
  | .error e => .error e
  | .ok db => .ok ⟨db, w.definitions, by rw [(op.run_assigned hop h).1]; exact w.fits⟩

def revokeUserSessions (id : String) (now : Nat) (w : Realm) : Realm :=
  ⟨w.db.revokeUserSessions id now, w.definitions, w.fits⟩

/-- `CreateRole`; id and name are unique. -/
def insertRole (d : RoleDefinition) (w : Realm) : Except StoreError Realm :=
  match h : w.definitions.get? d.id with
  | some _ => .error .conflict
  | none =>
    if w.definitions.rows.any fun e => e.name = d.name then .error .conflict
    else .ok ⟨{ w.db with roles := w.db.roles.insert d.row }, w.definitions.insert d,
      w.fits.insert h⟩

/-- `UpdateRole`: `… WHERE id = ? AND system = FALSE`. -/
def writeRole (d : RoleDefinition) (w : Realm) : Except StoreError Realm :=
  match h : w.definitions.get? d.id with
  | none => .error .notFound
  | some old =>
    if hsystem : old.system = true then .error .notFound
    else if w.definitions.rows.any fun e => e.id ≠ d.id && e.name = d.name then .error .conflict
    else .ok ⟨w.db, w.definitions.put { d with system := old.system, createdAt := old.createdAt },
      w.fits.put h (Bool.eq_false_iff.mpr hsystem) rfl⟩

/-- `DeleteRole`. -/
def removeRole (id : String) (w : Realm) : Except StoreError Realm :=
  match h : w.db.deleteRole id with
  | .error e => .error e
  | .ok db => .ok ⟨db, w.definitions.remove id, by
      obtain ⟨⟨role, hrole, hplain⟩, rfl⟩ := deleteRole_ok h
      exact w.fits.remove hrole hplain⟩

/-! ## What is read with a request -/

def withPermissions (w : Realm) (user : User) : User :=
  if user.role = "admin" then { user with permissions := some ["*"] }
  else
    match w.definitions.get? user.role with
    | some role => { user with permissions := some role.permissions }
    | none => user

/-- The user of a token that is valid otherwise, as `Authenticate` returns them. -/
def principal (id : String) (w : Realm) : Except Reply User := match w.db.users.get? id with
  | none => .error ⟨401, "session revoked"⟩
  | some user =>
    match validateLoginUser user with
    | .error .userDisabled => .error ⟨401, "user disabled"⟩
    | .error .approvalRejected => .error ⟨401, "registration rejected"⟩
    | .ok user => .ok (w.withPermissions user)

def validRole (role : String) (w : Realm) : Bool :=
  role = "admin" || role = "user" || (w.definitions.get? role).isSome

def canAssignRole (actor : User) (role : String) (w : Realm) : Bool :=
  if !w.validRole role then false
  else if actor.role = "admin" then true
  else if role = "admin" then false
  else
    match w.definitions.get? role with
    | some definition => canGrant actor definition.permissions
    | none => false

end Realm

/-! ## Requests -/

/-- What the handlers ask of others. -/
structure ManageEnv where
  trimSpace : String → String
  toLower : String → String
  /-- `mail.ParseAddress`. -/
  parseAddress : String → Option String
  /-- What the policy finds wrong with a password. -/
  validatePassword : String → Option String
  hashPassword : String → String

/-- The body of `createUser` and of `updateUser`. -/
structure UserRequest where
  username : String
  email : String
  phone : String
  password : String
  displayName : String
  role : String
  enabled : Option Bool
  groupIds : List String
deriving DecidableEq, Repr

structure RoleRequest where
  id : String
  name : String
  description : String
  permissions : List String
deriving DecidableEq, Repr

inductive ManageRequest
  /-- With the id that is drawn for the user. -/
  | createUser (input : UserRequest) (id : String)
  | updateUser (id : String) (input : UserRequest)
  | setUserPassword (id password : String)
  | adminResetTOTP (id : String)
  /-- `enableUser` and `disableUser`. -/
  | setUserEnabled (id : String) (enabled : Bool)
  | deleteUser (id : String)
  | createRole (input : RoleRequest)
  | updateRole (roleId : String) (input : RoleRequest)
  | deleteRole (roleId : String)
deriving DecidableEq, Repr

def ManageRequest.permission : ManageRequest → String
  | .createRole _ | .updateRole .. | .deleteRole _ => "roles.write"
  | _ => "users.write"

def validUsername (username : String) : Bool :=
  2 ≤ username.utf8ByteSize && username.utf8ByteSize ≤ 128 && username.toList.all fun c =>
    c.isLower || c.isDigit || c = '.' || c = '_' || c = '-'

/-- `^[a-z][a-z0-9_-]{1,63}$`. -/
def validRoleId (id : String) : Bool := match id.toList with
  | [] => false
  | c :: cs => c.isLower && 1 ≤ cs.length && cs.length ≤ 63 && cs.all fun c =>
      c.isLower || c.isDigit || c = '_' || c = '-'

namespace ManageEnv

variable (env : ManageEnv)

def validEmail (email : String) : Bool :=
  email = "" || email.utf8ByteSize ≤ 320 && env.parseAddress email = some email

/-- The texts of a body without blanks around them. -/
def trimUser (input : UserRequest) : UserRequest :=
  { input with
    username := env.toLower (env.trimSpace input.username)
    email := env.trimSpace input.email
    phone := env.trimSpace input.phone
    displayName := env.trimSpace input.displayName }

/-- The checks that both handlers make. -/
def validUser (input : UserRequest) : Bool :=
  validUsername input.username && env.validEmail input.email && input.phone.utf8ByteSize ≤ 64
    && input.displayName.utf8ByteSize ≤ 256 && input.password.utf8ByteSize ≤ 1024
    && input.groupIds.length ≤ 128

def normalizeRole (input : RoleRequest) : Option RoleRequest :=
  let id := env.toLower (env.trimSpace input.id)
  let name := env.trimSpace input.name
  let description := env.trimSpace input.description
  let permissions := input.permissions.map env.trimSpace
  if !validRoleId id || name.utf8ByteSize < 2 || 128 < name.utf8ByteSize
      || 512 < description.utf8ByteSize || availablePermissions.length < permissions.length
      || permissions.any (fun p => p = "*" || p ∉ availablePermissions) then none
  else some ⟨id, name, description, permissions.dedup.insertionSort (· ≤ ·)⟩

end ManageEnv

namespace Realm

variable (env : ManageEnv) (now : Nat)

/-! ## Handlers

Each returns the refusal, if there is one. -/

def createUser (actor : User) (body : UserRequest) (id : String) (w : Realm) :
    Realm × Option Reply :=
  let input := env.trimUser body
  if !(env.validUser input && 1 ≤ input.password.utf8ByteSize
      && w.canAssignRole actor input.role) then (w, some ⟨400, "invalid user"⟩)
  else
    match env.validatePassword input.password with
    | some complaint => (w, some ⟨400, complaint⟩)
    | none =>
      let new : NewUser := ⟨id, input.username, input.email, input.phone, input.displayName,
        env.hashPassword input.password, input.role, input.enabled.getD true, input.groupIds⟩
      match w.transact env.toLower (.createUser (new.user now)) rfl with
      | .error _ => (w, some ⟨409, "user could not be created"⟩)
      | .ok w₁ =>
        if new.phone = "" && new.groupIds.isEmpty then (w₁, none)
        else
          match w₁.transact env.toLower (.updateUser id new.update now) rfl with
          -- the user stays
          | .error _ => (w₁, some ⟨409, "user groups could not be assigned"⟩)
          | .ok w₂ => (w₂, none)

def updateUser (actor : User) (id : String) (body : UserRequest) (w : Realm) :
    Realm × Option Reply :=
  let input := env.trimUser body
  match input.enabled with
  | none => (w, some ⟨400, "invalid user update"⟩)
  | some enabled =>
    if !(env.validUser input && w.canAssignRole actor input.role) then
      (w, some ⟨400, "invalid user update"⟩)
    else if input.password ≠ "" ∧ (env.validatePassword input.password).isSome then
      (w, some ⟨409, "user could not be updated"⟩)
    else
      let hash := if input.password = "" then "" else env.hashPassword input.password
      match w.transact env.toLower (.updateUser id ⟨input.username, input.email, input.phone,
        input.displayName, hash, input.role, enabled, input.groupIds⟩ now) rfl with
      | .error .lastAdmin => (w, some ⟨409, "last administrator cannot be changed"⟩)
      | .error .notFound => (w, some ⟨404, "user or group not found"⟩)
      | .error _ => (w, some ⟨409, "user could not be updated"⟩)
      | .ok w' => (w', none)

def setUserPassword (id password : String) (w : Realm) : Realm × Option Reply :=
  if password.utf8ByteSize < 1 ∨ 1024 < password.utf8ByteSize then
    (w, some ⟨400, "invalid password"⟩)
  else if (env.validatePassword password).isSome then (w, some ⟨404, "user not found"⟩)
  else
    match w.transact env.toLower (.updateUserPassword id (env.hashPassword password) now) rfl with
    | .error _ => (w, some ⟨404, "user not found"⟩)
    | .ok w' => (w'.revokeUserSessions id now, none)

/-- The recovery codes, which are deleted as well, are not in `Store`. -/
def adminResetTOTP (id : String) (w : Realm) : Realm × Option Reply :=
  match w.transact env.toLower (.setUserTOTP id "" false now) rfl with
  | .error .notFound => (w, some ⟨404, "user not found"⟩)
  | .error _ => (w, some ⟨500, "two-factor reset failed"⟩)
  | .ok w' => (w'.revokeUserSessions id now, none)

def setUserEnabled (id : String) (enabled : Bool) (w : Realm) : Realm × Option Reply :=
  match w.transact env.toLower (.setUserEnabled id enabled now) rfl with
  | .error _ => (w, some ⟨404, "user not found"⟩)
  | .ok w' => (if enabled then w' else w'.revokeUserSessions id now, none)

def deleteUser (actor : User) (id : String) (w : Realm) : Realm × Option Reply :=
  if id = actor.id then (w, some ⟨409, "current administrator cannot be deleted"⟩)
  else
    match w.transact env.toLower (.deleteUser id) rfl with
    | .error .lastAdmin => (w, some ⟨409, "last administrator cannot be deleted"⟩)
    | .error .notFound => (w, some ⟨404, "user not found"⟩)
    | .error _ => (w, some ⟨409, "user could not be deleted"⟩)
    | .ok w' => (w', none)

def createRole (actor : User) (body : RoleRequest) (w : Realm) : Realm × Option Reply :=
  match env.normalizeRole body with
  | none => (w, some ⟨400, "invalid role"⟩)
  | some input =>
    if !canGrant actor input.permissions || input.id = "admin" || input.id = "user" then
      (w, some ⟨400, "invalid role"⟩)
    else
      match w.insertRole ⟨input.id, input.name, input.description, input.permissions, false, now,
        now⟩ with
      | .error _ => (w, some ⟨409, "role already exists"⟩)
      | .ok w' => (w', none)

/-- `ForceRelogin`, whose result is not looked at. -/
def forceRelogin (w : Realm) (user : User) : Realm :=
  match w.transact env.toLower (.forceRelogin user.id now) rfl with
  | .error _ => w
  | .ok w' => w'.revokeUserSessions user.id now

def updateRole (actor : User) (roleId : String) (body : RoleRequest) (w : Realm) :
    Realm × Option Reply :=
  match env.normalizeRole { body with id := roleId } with
  | none => (w, some ⟨400, "invalid role"⟩)
  | some input =>
    if !canGrant actor input.permissions then (w, some ⟨400, "invalid role"⟩)
    else
      match w.definitions.get? input.id with
      | none => (w, some ⟨409, "system role cannot be changed"⟩)
      | some existing =>
        if existing.system then (w, some ⟨409, "system role cannot be changed"⟩)
        else
          match w.writeRole { existing with
            name := input.name
            description := input.description
            permissions := input.permissions
            updatedAt := now } with
          | .error _ => (w, some ⟨404, "role not found"⟩)
          | .ok w' =>
            ((w'.db.users.rows.filter fun u => u.role = existing.id).foldl
              (forceRelogin env now) w', none)

def deleteRole (roleId : String) (w : Realm) : Realm × Option Reply :=
  match w.removeRole roleId with
  | .error .notFound => (w, some ⟨404, "role not found"⟩)
  | .error _ => (w, some ⟨409, "system role cannot be deleted"⟩)
  | .ok w' => (w', none)

/-- The handler of the request. -/
def dispatch (actor : User) (w : Realm) : ManageRequest → Realm × Option Reply
  | .createUser input id => w.createUser env now actor input id
  | .updateUser id input => w.updateUser env now actor id input
  | .setUserPassword id password => w.setUserPassword env now id password
  | .adminResetTOTP id => w.adminResetTOTP env now id
  | .setUserEnabled id enabled => w.setUserEnabled env now id enabled
  | .deleteUser id => w.deleteUser env actor id
  | .createRole input => w.createRole env now actor input
  | .updateRole roleId input => w.updateRole env now actor roleId input
  | .deleteRole roleId => w.deleteRole roleId

/-- `requirePermission`, with the user that `Authenticate` has returned. -/
def handle (actor : User) (request : ManageRequest) (w : Realm) : Realm × Option Reply :=
  if !hasPermission actor request.permission then (w, some ⟨403, "forbidden"⟩)
  else w.dispatch env now actor request

end Realm

end RemoteControl.Sync
