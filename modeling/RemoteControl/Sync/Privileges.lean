import RemoteControl.Lib.Events
import RemoteControl.Sync.Roles

/-!
# Who may manage whom

A user who is not an administrator manages users and roles with the permissions they have. Of
what they write, nothing grants more than that: a role is assigned only if they have all of its
permissions, and a role is given only permissions they have. What they write it to is not asked:

> With `users.write` one sets the password of an administrator.

`Campaign` is what somebody gets hold of by such requests: they act through every account whose
password they know.
-/

namespace RemoteControl.Sync

open Lib Table

variable {d : RoleDefinition} {op : UserOp}

namespace Realm

/-! ## Permissions of accounts -/

/-- The user has the permission in a request of theirs. -/
def holds (w : Realm) (user : User) (permission : String) : Bool :=
  hasPermission (w.withPermissions user) permission

section

variable {env : ManageEnv} {now : Nat} {actor : User} {w w' w'' : Realm} {u u' : User} {p : String}

theorem withPermissions_role (w : Realm) (user : User) :
    (w.withPermissions user).role = user.role := by
  fun_cases withPermissions <;> rfl

/-- The permissions in the record of the request say it all. -/
theorem holds_eq_granted (w : Realm) (user : User) (p : String) :
    w.holds user p = granted ((w.withPermissions user).permissions.getD []) p := by
  unfold holds hasPermission
  rw [withPermissions_role]
  by_cases hadmin : user.role = "admin"
  · unfold withPermissions
    rw [if_pos hadmin]
    simp [hadmin, granted]
  · rw [decide_eq_false hadmin, Bool.false_or]

theorem holds_of_role (hadmin : u.role ≠ "admin") (hd : w.definitions.get? u.role = some d) :
    w.holds u p = granted d.permissions p := by
  rw [holds_eq_granted]
  unfold withPermissions
  rw [if_neg hadmin, hd]
  rfl

/-- Only the role, its definition and the record decide. -/
theorem holds_congr (hrole : u'.role = u.role) (hown : u'.permissions = u.permissions)
    (hd : w'.definitions.get? u.role = w.definitions.get? u.role) :
    w'.holds u' p = w.holds u p := by
  rw [holds_eq_granted, holds_eq_granted]
  unfold withPermissions
  rw [hrole, hd]
  split
  · rfl
  · split
    · rfl
    · rw [hown]

/-! ## What a request grants -/

/-- Whatever an account or a role has after a request, the actor has, or it had it before. -/
structure Within (actor : User) (w w' : Realm) : Prop where
  accounts : ∀ id u', w'.db.users.get? id = some u' → ∀ p, w'.holds u' p = true →
    hasPermission actor p = true ∨ ∃ u, w.db.users.get? id = some u ∧ w.holds u p = true
  roles : ∀ id d', w'.definitions.get? id = some d' → ∀ p, granted d'.permissions p = true →
    hasPermission actor p = true ∨
      ∃ d, w.definitions.get? id = some d ∧ granted d.permissions p = true

theorem Within.refl (actor : User) (w : Realm) : Within actor w w where
  accounts _ u hu _ hp := .inr ⟨u, hu, hp⟩
  roles _ d hd _ hp := .inr ⟨d, hd, hp⟩

theorem Within.trans (h : Within actor w w') (h' : Within actor w' w'') : Within actor w w'' where
  accounts id u'' hu'' p hp := by
    rcases h'.accounts id u'' hu'' p hp with hactor | ⟨u', hu', hp'⟩
    · exact .inl hactor
    · exact h.accounts id u' hu' p hp'
  roles id d'' hd'' p hp := by
    rcases h'.roles id d'' hd'' p hp with hactor | ⟨d', hd', hp'⟩
    · exact .inl hactor
    · exact h.roles id d' hd' p hp'

theorem within_revokeUserSessions (actor : User) (id : String) (now : Nat) (w : Realm) :
    Within actor w (w.revokeUserSessions id now) where
  accounts _ u hu _ hp := .inr ⟨u, hu, hp⟩
  roles _ d hd _ hp := .inr ⟨d, hd, hp⟩

/-- Who gets a role that `canAssignRole` lets pass has no more than the actor. -/
theorem canAssignRole_holds {role : String} (h : w.canAssignRole actor role = true)
    (hrole : u.role = role) (hp : w.holds u p = true) : hasPermission actor p = true := by
  revert h
  fun_cases canAssignRole with
  | case2 _ hadmin => simp [hasPermission, hadmin]
  | case4 _ _ hplain d hd =>
    intro h
    rw [← hrole] at hplain hd
    rw [holds_of_role hplain hd] at hp
    exact canGrant_iff.mp h p hp
  | _ => exact nofun

theorem canAssignRole_congr (hd : w'.definitions = w.definitions) (actor : User) (role : String) :
    w'.canAssignRole actor role = w.canAssignRole actor role := by
  unfold canAssignRole validRole
  rw [hd]

theorem transact_ok {hop : op.keepsRoles = true} (h : w.transact env.toLower op hop = .ok w') :
    op.Assigned w.db w'.db ∧ w'.definitions = w.definitions := by
  revert h
  fun_cases transact with
  | case1 => exact nofun
  | case2 db hdb =>
    rintro ⟨⟩
    exact ⟨op.run_assigned hop hdb, rfl⟩

/-- A transaction on the users, if the role that it assigns may be assigned. -/
theorem within_transact {hop : op.keepsRoles = true}
    (hassign : ∀ role, op.assigns = some role → w.canAssignRole actor role = true)
    (h : w.transact env.toLower op hop = .ok w') : Within actor w w' := by
  obtain ⟨⟨-, hrows⟩, hdefs⟩ := transact_ok h
  refine ⟨fun id u' hu' p hp => ?_, fun id d' hd' p hp => ?_⟩
  rotate_left
  · rw [hdefs] at hd'
    exact .inr ⟨d', hd', hp⟩
  rcases hrows id u' hu' with hassigned | ⟨u, hu, hrole, hown⟩
  · left
    have hmay := hassign _ hassigned
    rw [← canAssignRole_congr hdefs] at hmay
    exact canAssignRole_holds hmay rfl hp
  · have hsame : w'.definitions.get? u.role = w.definitions.get? u.role := by rw [hdefs]
    rw [holds_congr hrole hown hsame] at hp
    exact .inr ⟨u, hu, hp⟩

/-- A role is defined with permissions that the actor has. -/
theorem within_define (hgrant : canGrant actor d.permissions = true)
    (husers : w'.db.users = w.db.users)
    (hdefs : ∀ id, w'.definitions.get? id = if d.id = id then some d else w.definitions.get? id) :
    Within actor w w' where
  accounts id u hu p hp := by
    rw [husers] at hu
    by_cases hrole : d.id = u.role
    · by_cases hadmin : u.role = "admin"
      · exact .inr ⟨u, hu, by simp [holds, hasPermission, withPermissions_role, hadmin]⟩
      · left
        have hd : w'.definitions.get? u.role = some d := by rw [hdefs, if_pos hrole]
        rw [holds_of_role hadmin hd] at hp
        exact canGrant_iff.mp hgrant p hp
    · right
      have hsame : w'.definitions.get? u.role = w.definitions.get? u.role := by
        rw [hdefs, if_neg hrole]
      rw [holds_congr rfl rfl hsame] at hp
      exact ⟨u, hu, hp⟩
  roles id d' hd' p hp := by
    rw [hdefs] at hd'
    split at hd'
    · cases hd'
      exact .inl (canGrant_iff.mp hgrant p hp)
    · exact .inr ⟨d', hd', hp⟩

theorem removeRole_ok {id : String} (h : w.removeRole id = .ok w') :
    (∃ d, w.definitions.get? id = some d ∧ d.system = false) ∧
      w'.definitions = w.definitions.remove id ∧
      w'.db.users = w.db.users.updateWhere (fun u => u.role = id)
        fun u => { u with role := "user", tokenVersion := u.tokenVersion + 1 } := by
  revert h
  fun_cases removeRole with
  | case1 => exact nofun
  | case2 db hdb =>
    rintro ⟨⟩
    obtain ⟨⟨role, hrole, hplain⟩, rfl⟩ := deleteRole_ok hdb
    rw [w.fits.agrees] at hrole
    obtain ⟨d, hd, rfl⟩ := Option.map_eq_some_iff.mp hrole
    exact ⟨⟨d, hd, hplain⟩, rfl, rfl⟩

/-- The role of a user grants nothing. -/
theorem holds_user (hrole : u.role = "user") : w.holds u p = false := by
  obtain ⟨d, hd, -, hnothing⟩ := w.fits.basic
  rw [holds_of_role (by rw [hrole]; decide) (by rw [hrole]; exact hd), hnothing]
  rfl

/-- The users of a role that is deleted become users. -/
theorem within_removeRole {id : String} (h : w.removeRole id = .ok w') : Within actor w w' := by
  obtain ⟨-, hdefs, husers⟩ := removeRole_ok h
  refine ⟨fun i v hv p hp => .inr ?_, fun i d hd p hp => .inr ⟨d, ?_, hp⟩⟩
  · rw [husers, get?_updateWhere] at hv
    obtain ⟨u, hu, rfl⟩ := Option.map_eq_some_iff.mp hv
    refine ⟨u, hu, ?_⟩
    by_cases hrole : u.role = id
    · rw [if_pos (decide_eq_true hrole), holds_user rfl] at hp
      cases hp
    · rw [if_neg (by simpa using hrole)] at hp
      have hsame : w'.definitions.get? u.role = w.definitions.get? u.role := by
        rw [hdefs, get?_remove_of_ne _ hrole]
      rwa [holds_congr rfl rfl hsame] at hp
  · rw [hdefs] at hd
    exact w.definitions.remove_sub id hd

/-! ## The handlers -/

theorem within_createUser (env : ManageEnv) (now : Nat) (actor : User) (body : UserRequest)
    (id : String) (w : Realm) : Within actor w (w.createUser env now actor body id).1 := by
  have hassign : ∀ {v : Realm} {b}, ¬(!(b && v.canAssignRole actor body.role)) = true →
      v.canAssignRole actor body.role = true := by
    intro v b h
    rw [Bool.not_eq_true, Bool.not_eq_false', Bool.and_eq_true] at h
    exact h.2
  fun_cases Realm.createUser with
  | case4 _ hvalid _ _ w₁ hw₁ | case5 _ hvalid _ _ w₁ hw₁ =>
    refine within_transact (fun role hrole => ?_) hw₁
    cases hrole
    exact hassign hvalid
  | case6 _ hvalid _ _ w₁ hw₁ _ w₂ hw₂ =>
    have hmay := hassign hvalid
    have hfirst : Within actor w w₁ := within_transact (fun role hrole => by
      cases hrole
      exact hmay) hw₁
    refine hfirst.trans (within_transact (fun role hrole => ?_) hw₂)
    cases hrole
    rw [canAssignRole_congr (transact_ok hw₁).2]
    exact hmay
  | _ => exact Within.refl actor w

theorem within_updateUser (env : ManageEnv) (now : Nat) (actor : User) (id : String)
    (body : UserRequest) (w : Realm) : Within actor w (w.updateUser env now actor id body).1 := by
  fun_cases Realm.updateUser with
  | case7 _ _ _ hvalid _ _ w' hw' =>
    refine within_transact (fun role hrole => ?_) hw'
    cases hrole
    rw [Bool.not_eq_true, Bool.not_eq_false', Bool.and_eq_true] at hvalid
    exact hvalid.2
  | _ => exact Within.refl actor w

/-- A transaction that assigns no role. -/
theorem within_plain {hop : op.keepsRoles = true} (hnone : op.assigns = none)
    (h : w.transact env.toLower op hop = .ok w') : Within actor w w' :=
  within_transact (fun role hrole => by rw [hnone] at hrole; cases hrole) h

theorem within_forceRelogin (env : ManageEnv) (now : Nat) (actor : User) (w : Realm) (user : User) :
    Within actor w (w.forceRelogin env now user) := by
  fun_cases Realm.forceRelogin with
  | case1 => exact Within.refl actor w
  | case2 w' hw' => exact (within_plain rfl hw').trans (within_revokeUserSessions actor _ now w')

theorem within_foldl_forceRelogin (env : ManageEnv) (now : Nat) (actor : User) (users : List User)
    (w : Realm) : Within actor w (users.foldl (forceRelogin env now) w) := by
  induction users generalizing w with
  | nil => exact Within.refl actor w
  | cons user users ih => exact (within_forceRelogin env now actor w user).trans (ih _)

theorem insertRole_ok (h : w.insertRole d = .ok w') :
    w'.db.users = w.db.users ∧
      ∀ id, w'.definitions.get? id = if d.id = id then some d else w.definitions.get? id := by
  revert h
  fun_cases insertRole with
  | case3 hnew =>
    rintro ⟨⟩
    exact ⟨rfl, fun id => get?_insert hnew id⟩
  | _ => exact nofun

theorem writeRole_ok (h : w.writeRole d = .ok w') :
    w'.db.users = w.db.users ∧ ∃ new : RoleDefinition, new.permissions = d.permissions ∧
      ∀ id, w'.definitions.get? id = if new.id = id then some new else w.definitions.get? id := by
  revert h
  fun_cases writeRole with
  | case4 old =>
    rintro ⟨⟩
    exact ⟨rfl, { d with system := old.system, createdAt := old.createdAt }, rfl,
      fun id => get?_put _ _ id⟩
  | _ => exact nofun

theorem within_createRole (env : ManageEnv) (now : Nat) (actor : User) (body : RoleRequest)
    (w : Realm) : Within actor w (w.createRole env now actor body).1 := by
  fun_cases createRole with
  | case4 input _ hvalid w' hw' =>
    obtain ⟨husers, hdefs⟩ := insertRole_ok hw'
    refine within_define ?_ husers hdefs
    simp only [Bool.or_eq_true, Bool.not_eq_true', not_or, Bool.not_eq_false] at hvalid
    exact hvalid.1.1
  | _ => exact Within.refl actor w

theorem within_updateRole (env : ManageEnv) (now : Nat) (actor : User) (roleId : String)
    (body : RoleRequest) (w : Realm) :
    Within actor w (w.updateRole env now actor roleId body).1 := by
  fun_cases updateRole with
  | case6 input _ hgrant existing _ _ w' hw' =>
    obtain ⟨husers, new, hpermissions, hdefs⟩ := writeRole_ok hw'
    rw [Bool.not_eq_true, Bool.not_eq_false'] at hgrant
    exact (within_define (by rw [hpermissions]; exact hgrant) husers hdefs).trans
      (within_foldl_forceRelogin env now actor _ w')
  | _ => exact Within.refl actor w

/-- **What a request grants.** No handler grants anything that the actor does not have. -/
theorem within_handle (env : ManageEnv) (now : Nat) (actor : User) (request : ManageRequest)
    (w : Realm) : Within actor w (w.handle env now actor request).1 := by
  unfold handle
  split
  · exact Within.refl actor w
  cases request with
  | createUser input id => exact within_createUser env now actor input id w
  | updateUser id input => exact within_updateUser env now actor id input w
  | createRole input => exact within_createRole env now actor input w
  | updateRole roleId input => exact within_updateRole env now actor roleId input w
  | setUserPassword id password =>
    show Within actor w (w.setUserPassword env now id password).1
    fun_cases setUserPassword with
    | case4 _ _ w' hw' =>
      exact (within_plain rfl hw').trans (within_revokeUserSessions actor id now w')
    | _ => exact Within.refl actor w
  | adminResetTOTP id =>
    show Within actor w (w.adminResetTOTP env now id).1
    fun_cases adminResetTOTP with
    | case3 w' hw' => exact (within_plain rfl hw').trans (within_revokeUserSessions actor id now w')
    | _ => exact Within.refl actor w
  | setUserEnabled id enabled =>
    show Within actor w (w.setUserEnabled env now id enabled).1
    fun_cases setUserEnabled with
    | case1 => exact Within.refl actor w
    | case2 w' hw' =>
      have hplain : Within actor w w' := within_plain rfl hw'
      cases enabled with
      | true => exact hplain
      | false => exact hplain.trans (within_revokeUserSessions actor id now w')
  | deleteUser id =>
    show Within actor w (w.deleteUser env actor id).1
    fun_cases deleteUser with
    | case5 _ w' hw' => exact within_plain rfl hw'
    | _ => exact Within.refl actor w
  | deleteRole roleId =>
    show Within actor w (w.deleteRole roleId).1
    fun_cases deleteRole with
    | case3 w' hw' => exact within_removeRole hw'
    | _ => exact Within.refl actor w

end

end Realm

/-! ## Requests of one person -/

/-- The accounts whose row a request writes. -/
def ManageRequest.affects (env : ManageEnv) : ManageRequest → User → Bool
  | .createUser .., _ | .createRole _, _ => false
  | .updateUser id _, u | .setUserPassword id _, u | .adminResetTOTP id, u
  | .setUserEnabled id _, u | .deleteUser id, u => u.id = id
  | .updateRole roleId _, u => u.role = env.toLower (env.trimSpace roleId)
  | .deleteRole roleId, u => u.role = roleId

theorem ManageRequest.permission_cases (request : ManageRequest) :
    request.permission = "roles.write" ∨ request.permission = "users.write" := by
  cases request <;> simp [permission]

/-- The accounts whose password a request has set. -/
def ManageRequest.takes (w w' : Realm) (refusal : Option Reply) : ManageRequest → List String
  | .createUser _ id =>
    if (w.db.users.get? id).isNone && (w'.db.users.get? id).isSome then [id] else []
  | .updateUser id input => if refusal.isNone && input.password ≠ "" then [id] else []
  | .setUserPassword id _ => if refusal.isNone then [id] else []
  | _ => []

structure ManageEvent where
  actor : String
  request : ManageRequest
  now : Nat

structure Campaign where
  realm : Realm
  /-- The accounts whose password is known to the person. -/
  owned : List String

namespace Campaign

variable (env : ManageEnv)

/-- The user as whom the request is made. -/
def actor? (c : Campaign) (e : ManageEvent) : Option User :=
  if e.actor ∈ c.owned then (c.realm.principal e.actor).toOption else none

def perform (c : Campaign) (e : ManageEvent) : Campaign := match c.actor? e with
  | none => c
  | some actor =>
    let (realm, refusal) := c.realm.handle env e.now actor e.request
    ⟨realm, e.request.takes c.realm realm refusal ++ c.owned⟩

/-- Some account of the person has the permission. -/
def Power (c : Campaign) (permission : String) : Prop :=
  ∃ id ∈ c.owned, ∃ u, c.realm.db.users.get? id = some u ∧ c.realm.holds u permission = true

/-- The account that a successful request affects had no permission that the actor lacks, no
account and no role gets one, and the person gets hold of none. -/
structure Contained (c : Campaign) (e : ManageEvent) : Prop where
  before : ∀ actor, c.actor? e = some actor →
    (c.realm.handle env e.now actor e.request).2 = none →
    ∀ id u, c.realm.db.users.get? id = some u → e.request.affects env u = true →
    ∀ p, c.realm.holds u p = true → hasPermission actor p = true
  after : ∀ actor, c.actor? e = some actor →
    c.realm.Within actor (c.realm.handle env e.now actor e.request).1
  power : ∀ p, (c.perform env e).Power p → c.Power p

/-- The account has a role that is not built in. -/
def ordinary (c : Campaign) (u : User) : Bool :=
  (c.realm.definitions.get? u.role).any fun d => !d.system

/-- Who may write users could grant all that any account has, and who may write roles all that
the accounts with ordinary roles have. -/
structure Superior (c : Campaign) (e : ManageEvent) : Prop where
  users : ∀ actor, c.actor? e = some actor → hasPermission actor "users.write" = true →
    ∀ u ∈ c.realm.db.users.rows,
      canGrant actor ((c.realm.withPermissions u).permissions.getD []) = true
  roles : ∀ actor, c.actor? e = some actor → hasPermission actor "roles.write" = true →
    ∀ u ∈ c.realm.db.users.rows, c.ordinary u = true →
      canGrant actor ((c.realm.withPermissions u).permissions.getD []) = true

section

variable {env} {c : Campaign} {e : ManageEvent} {actor : User}

/-- The actor is one of the person's accounts. -/
theorem power_of_actor (h : c.actor? e = some actor) {p : String}
    (hp : hasPermission actor p = true) : c.Power p := by
  revert h
  fun_cases actor? with
  | case1 howned =>
    fun_cases Realm.principal with
    | case4 u hu v hv =>
      rintro ⟨⟩
      obtain rfl := validateLoginUser_ok hv
      exact ⟨e.actor, howned, v, hu, hp⟩
    | _ => exact nofun
  | case2 => exact nofun

/-- An account is taken only by a request that affects it, or makes it. -/
theorem takes_affects {request : ManageRequest} {w w' : Realm} {refusal : Option Reply}
    {id : String} {u : User} (h : id ∈ request.takes w w' refusal)
    (hu : w.db.users.get? id = some u) : refusal = none ∧ request.affects env u = true := by
  have hkey := get?_key hu
  revert h
  fun_cases ManageRequest.takes with
  | case1 _ i hnew =>
    intro h
    obtain rfl := List.mem_singleton.mp h
    rw [hu] at hnew
    cases hnew
  | case3 i input hdone =>
    intro h
    obtain rfl := List.mem_singleton.mp h
    rw [Bool.and_eq_true, Option.isNone_iff_eq_none] at hdone
    exact ⟨hdone.1, decide_eq_true hkey⟩
  | case5 i _ hdone =>
    intro h
    obtain rfl := List.mem_singleton.mp h
    exact ⟨Option.isNone_iff_eq_none.mp hdone, decide_eq_true hkey⟩
  | _ => exact nofun

theorem normalizeRole_id {body input : RoleRequest} (h : env.normalizeRole body = some input) :
    input.id = env.toLower (env.trimSpace body.id) := by
  unfold ManageEnv.normalizeRole at h
  dsimp only at h
  split at h
  · cases h
  · cases h
    rfl

/-- A request about roles that succeeds affects accounts with ordinary roles only: the handlers
refuse to change a role that is built in. -/
theorem ordinary_of_roles {now : Nat} {request : ManageRequest}
    (hdone : (c.realm.handle env now actor request).2 = none) {u : User}
    (hroles : request.permission = "roles.write") (haffects : request.affects env u = true) :
    c.ordinary u = true := by
  have hdefined : ∃ d, c.realm.definitions.get? u.role = some d ∧ d.system = false := by
    unfold Realm.handle at hdone
    split at hdone
    · cases hdone
    cases request with
    | createRole input => cases haffects
    | updateRole roleId body =>
      revert hdone
      show (c.realm.updateRole env now actor roleId body).2 = none → _
      fun_cases Realm.updateRole with
      | case6 input hinput hgrant existing hget hsystem =>
        intro _
        rw [of_decide_eq_true haffects, ← normalizeRole_id hinput]
        exact ⟨existing, hget, Bool.eq_false_iff.mpr hsystem⟩
      | _ => exact nofun
    | deleteRole roleId =>
      revert hdone
      show (c.realm.deleteRole roleId).2 = none → _
      fun_cases Realm.deleteRole with
      | case3 w' hw' =>
        intro _
        rw [of_decide_eq_true haffects]
        exact (Realm.removeRole_ok hw').1
      | _ => exact nofun
    | _ =>
      have hne : "users.write" ≠ "roles.write" := by decide
      exact absurd hroles hne
  obtain ⟨d, hd, hplain⟩ := hdefined
  rw [ordinary, hd, Option.any_some, hplain]
  rfl

/-- The affected accounts have nothing that the actor lacks. -/
theorem Superior.before (h : c.Superior e) (hactor : c.actor? e = some actor)
    (hdone : (c.realm.handle env e.now actor e.request).2 = none) {id : String} {u : User}
    (hu : c.realm.db.users.get? id = some u) (haffects : e.request.affects env u = true)
    {p : String} (hp : c.realm.holds u p = true) : hasPermission actor p = true := by
  have hpermitted : hasPermission actor e.request.permission = true := by
    by_contra hno
    rw [Realm.handle, Bool.eq_false_iff.mpr hno] at hdone
    cases hdone
  have hgrant : canGrant actor ((c.realm.withPermissions u).permissions.getD []) = true := by
    have hmem := mem_of_get? hu
    rcases e.request.permission_cases with hroles | husers
    · rw [hroles] at hpermitted
      exact h.roles actor hactor hpermitted u hmem (ordinary_of_roles hdone hroles haffects)
    · rw [husers] at hpermitted
      exact h.users actor hactor hpermitted u hmem
  rw [Realm.holds_eq_granted] at hp
  exact canGrant_iff.mp hgrant p hp

/-- **One request.** -/
theorem Superior.contained (h : c.Superior e) : c.Contained env e where
  before _ hactor hdone _ _ hu haffects _ hp := h.before hactor hdone hu haffects hp
  after actor _ := Realm.within_handle env e.now actor e.request c.realm
  power p hpower := by
    unfold perform at hpower
    split at hpower
    · exact hpower
    next actor hactor =>
    obtain ⟨id, hid, u', hu', hp⟩ := hpower
    -- what the account has now is the actor's, or the account had it before
    rcases (Realm.within_handle env e.now actor e.request c.realm).accounts id u' hu' p hp
      with hhas | ⟨u, hu, hheld⟩
    · exact power_of_actor hactor hhas
    · rcases List.mem_append.mp hid with htaken | howned
      · obtain ⟨hdone, haffects⟩ := takes_affects htaken hu
        exact power_of_actor hactor (h.before hactor hdone hu haffects hheld)
      · exact ⟨id, howned, u, hu, hheld⟩

end

/-- **When privileges are contained.** Whatever somebody requests through the accounts they have,
one after another: if at each request the actor has no `users.write` or could grant all that any
account has, and has no `roles.write` or could grant all that the accounts with ordinary roles
have, then no request touches an account that has more than the actor, grants more than the actor
has or gives the person a permission they did not have, and the person ends up with no permission
that none of their accounts had at first. -/
theorem privileges_contained {c : Campaign} {events : List ManageEvent}
    (h : Throughout (perform env) Superior c events) :
    Throughout (perform env) (Contained env) c events ∧
      ∀ before, before <+: events → ∀ p, (before.foldl (perform env) c).Power p → c.Power p := by
  constructor
  · exact fun before e hpre => (h before e hpre).contained
  · refine h.invariant (I := fun c' : Campaign => ∀ p, c'.Power p → c.Power p) ?_ fun p => id
    intro c' e hkept he p hp
    have hcontained : c'.Contained env e := he.contained
    exact hkept p (hcontained.power p hp)

/-! ### A keeper of roles and a help desk -/

def sampleManage : ManageEnv := ⟨id, id, some, fun _ => none, id⟩

/-- An administrator and two users with a role of their own, of whom one knows their password. -/
def sampleCampaign (d : RoleDefinition)
    (hnew : (Realm.fresh ⟨true, false⟩ 0).definitions.get? d.id = none) : Campaign where
  realm :=
    { db := { (Realm.fresh ⟨true, false⟩ 0).db with
        users := Table.empty.putAll [{ sampleUser with id := "root", role := "admin" },
          { sampleUser with id := "desk", username := "desk", role := d.id },
          { sampleUser with id := "peer", username := "peer", role := d.id }]
        roles := (Realm.fresh ⟨true, false⟩ 0).db.roles.insert d.row }
      definitions := (Realm.fresh ⟨true, false⟩ 0).definitions.insert d
      fits := (Realm.fresh ⟨true, false⟩ 0).fits.insert hnew }
  owned := ["desk"]

def keeperCampaign : Campaign :=
  sampleCampaign ⟨"keeper", "Keeper of roles", "", ["roles.write", "audit.read"], false, 0, 0⟩ rfl

/-- The keeper makes a role, takes a permission out of their own and deletes it. -/
def keeperEvents : List ManageEvent :=
  [⟨"desk", .createRole ⟨"auditor", "Auditor", "", ["audit.read"]⟩, 10⟩,
    ⟨"desk", .updateRole "keeper" ⟨"", "Keeper of roles", "", ["roles.write"]⟩, 20⟩,
    ⟨"desk", .deleteRole "keeper", 30⟩]

theorem keeper_contained :
    (keeperEvents.foldl (perform sampleManage) keeperCampaign).realm.db.users.rows.map User.role
      = ["admin", "user", "user"] ∧
    Throughout (perform sampleManage) (Contained sampleManage) keeperCampaign keeperEvents := by
  refine ⟨by decide, (privileges_contained sampleManage ?_).1⟩
  refine throughout_cons.mpr ⟨?_, throughout_cons.mpr ⟨?_, throughout_cons.mpr ⟨?_,
    throughout_nil _ _⟩⟩⟩
  all_goals
    refine ⟨fun actor hactor hwrite => ?_, fun actor hactor hwrite => ?_⟩
    · obtain rfl := Option.some.inj hactor
      exact absurd hwrite (by decide)
    · obtain rfl := Option.some.inj hactor
      decide

def helpdeskCampaign : Campaign :=
  sampleCampaign ⟨"helpdesk", "Help desk", "", ["users.write"], false, 0, 0⟩ rfl

/-- The password of the administrator is set. -/
def takeover : ManageEvent := ⟨"desk", .setUserPassword "root" "known", 10⟩

/-- Before it the help desk may not change settings; after it they may, as the administrator. -/
theorem administrator_taken_over :
    ¬ helpdeskCampaign.Power "settings.write" ∧
    (helpdeskCampaign.perform sampleManage takeover).owned = ["root", "desk"] ∧
    (helpdeskCampaign.perform sampleManage takeover).Power "settings.write" ∧
    ¬ Throughout (perform sampleManage) (Contained sampleManage) helpdeskCampaign [takeover] := by
  have hbefore : ¬ helpdeskCampaign.Power "settings.write" := by
    rintro ⟨id, hid, u, hu, hp⟩
    obtain rfl := List.mem_singleton.mp hid
    cases hu
    revert hp
    decide
  have hafter : (helpdeskCampaign.perform sampleManage takeover).Power "settings.write" :=
    ⟨"root", by decide, _, rfl, by decide⟩
  refine ⟨hbefore, by decide, hafter, fun h => ?_⟩
  exact hbefore ((h [] takeover (List.prefix_refl _)).power _ hafter)

end Campaign

end RemoteControl.Sync
