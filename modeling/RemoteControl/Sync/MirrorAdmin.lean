import RemoteControl.Sync.MirrorOps

/-!
# What the events of an administrative operation leave out

An administrator's request changes the database and publishes events, and HBBS sees
only the events. `AdminOp.PublishesAll` says, operation by operation, when they tell
the whole change; the theorem says that these are exactly the cases in which the
cache mirrors the database afterwards.

> A membership that an update takes away, the rules and strategies that go with a user
> or a group, and every change of a device's group are stored and never published in a
> form that HBBS applies.
-/

namespace RemoteControl.Sync

open Lib

/-- Everything that the operation changes is in its events. `now` decides which sessions are
still valid. -/
def AdminOp.PublishesAll (now : Nat) (s : Store) : AdminOp → Prop
  -- only the update after a creation publishes memberships
  | .createUser input _ =>
    (input.phone ≠ "" ∨ input.groupIds ≠ []) ∧ (∀ g ∈ input.groupIds, s.userGroup g = true) ∧
      s.KeepsGroups input.id input.groupIds
  | .updateUser id input _ => s.KeepsGroups id input.groupIds
  | .deleteUser id =>
    (∀ m ∈ s.memberships.rows, m.userId ≠ id) ∧
    (∀ v ∈ s.aclRules.rows, ¬ (v.subjectType = "user" ∧ v.subjectId = id)) ∧
    ∀ v ∈ s.strategies.rows, v.enabled = true → ¬ (v.scopeType = "user" ∧ v.scopeId = id)
  | .setUserEnabled .. | .setUserApproval .. | .setUserPassword .. | .forceRelogin .. => True
  | .createGroup .. | .updateGroup .. | .setGroupMember .. => True
  | .deleteGroup id =>
    (∀ v ∈ s.aclRules.rows, v.names id = false) ∧
      ((∀ v ∈ s.strategies.rows, v.names id = false) ∨
        (∀ v ∈ s.strategies.rows, v.enabled = true → v.names id = false) ∧
          ∀ d ∈ s.devices.rows, d.groupId = id → id = "")
  | .createACLRule body _ _ | .updateACLRule body _ _ => body.deleted = false
  | .deleteACLRule _ => False
  | .createStrategy body _ _ => body.deleted = false
  | .updateStrategy body _ _ => body.deleted = false ∨ body.enabled = false
  | .deleteStrategy id _ => ∀ row, s.strategies.get? id = some row → row.enabled = false
  -- nothing is published, so no device may change its group
  | .updateDevice id _ groupId _ => ∀ d, s.devices.get? id = some d → groupId = d.groupId
  | .bulkUpdateDevices ids groupId _ _ =>
    ∀ id ∈ ids, ∀ d, s.devices.get? id = some d → groupId.getD d.groupId = d.groupId
  | .importDevicesCSV values =>
    ∀ v ∈ values, ∀ d, s.devices.get? v.rustdeskId = some d → v.groupId = d.groupId
  | .setDeviceArchived .. => True
  | .deleteArchivedDevice _ => False
  -- the cache ends the sessions, the database does not
  | .deleteRole id =>
    ∀ v ∈ s.sessions.rows, v.live now = true → ∀ u ∈ s.users.rows, u.role = id → u.id ≠ v.userId
  | .updateSettings .. => True

section

variable {c : Checks} {k : Clock} {now : Nat} {s : Store} {st : CacheState}

theorem AdminOp.mirrored_iff (h : Mirror k now s st) (op : AdminOp) :
    (op.run c s).Mirrored c k now st ↔ op.run c s = (s, []) ∨ op.PublishesAll now s := by
  cases op with
  | createUser input when => exact createUser_mirrored_iff h input when
  | updateUser id input when => exact updateUser_mirrored_iff h id input when
  | deleteUser id => exact deleteUser_mirrored_iff h id
  | setUserEnabled id enabled when =>
    exact iff_of_true (setUserEnabled_mirrored h id enabled when) (Or.inr trivial)
  | setUserApproval id approve when =>
    exact iff_of_true (setUserApproval_mirrored h id approve when) (Or.inr trivial)
  | setUserPassword id passwordHash when =>
    exact iff_of_true (signOut_mirrored h id when) (Or.inr trivial)
  | forceRelogin id when => exact iff_of_true (signOut_mirrored h id when) (Or.inr trivial)
  | createGroup group => exact iff_of_true (createGroup_mirrored h group) (Or.inr trivial)
  | updateGroup id name description =>
    exact iff_of_true (updateGroup_mirrored h id name description) (Or.inr trivial)
  | deleteGroup id => exact deleteGroup_mirrored_iff h id
  | setGroupMember groupId userId active =>
    exact iff_of_true (setGroupMember_mirrored h groupId userId active) (Or.inr trivial)
  | createACLRule body id when => exact createACLRule_mirrored_iff h body id when
  | updateACLRule body id when => exact updateACLRule_mirrored_iff h body id when
  | deleteACLRule id => exact (deleteACLRule_mirrored_iff h id).trans (or_iff_left not_false).symm
  | createStrategy body id when => exact createStrategy_mirrored_iff h body id when
  | updateStrategy body id when => exact updateStrategy_mirrored_iff h body id when
  | deleteStrategy id when => exact deleteStrategy_mirrored_iff h id when
  | updateDevice id newAlias groupId tags =>
    exact updateDevice_mirrored_iff h id newAlias groupId tags
  | bulkUpdateDevices ids groupId addTags removeTags =>
    exact bulkUpdateDevices_mirrored_iff h ids groupId addTags removeTags
  | importDevicesCSV values => exact importDevicesCSV_mirrored_iff h values
  | setDeviceArchived id archived when =>
    exact iff_of_true (setDeviceArchived_mirrored h id archived when) (Or.inr trivial)
  | deleteArchivedDevice id =>
    exact (deleteArchivedDevice_mirrored_iff h id).trans (or_iff_left not_false).symm
  | deleteRole id => exact deleteRole_mirrored_iff h id
  | updateSettings requireLogin requireDeviceDeployment =>
    exact iff_of_true (updateSettings_mirrored h requireLogin requireDeviceDeployment)
      (Or.inr trivial)

/-- **When an operation leaves the cache a mirror.** HBBS mirrors the database, one operation
runs alone, and HBBS receives exactly its events, numbered from where its cursor is or later. It
mirrors the database again if and only if the operation was refused or its events tell all of
it. -/
theorem admin_op_mirrors_iff (h : Mirror k now s st) (op : AdminOp) {source : String}
    {revision : Nat} (hcursor : st.sourceId = source → st.revision ≤ revision) :
    Mirror k now (op.run c s).1
        (st.consume (number source revision (events c k.rfc3339 (op.run c s).2))).1 ↔
      op.run c s = (s, []) ∨ op.PublishesAll now s := by
  obtain ⟨source', revision', hconsumed⟩ :=
    consume_number (events c k.rfc3339 (op.run c s).2) st revision hcursor
  rw [hconsumed, mirror_withCursor]
  exact AdminOp.mirrored_iff h op

end

/-! ## An installation with one user in one group -/

/-- Times are written in unary. -/
def sampleClock : Clock where
  rfc3339 t := String.ofList (List.replicate t 'i')
  parse v := some v.length
  parse_rfc3339 t := by simp

def sampleUser : User where
  id := "user-1"
  username := "ada"
  email := ""
  phone := ""
  passwordHash := "hash"
  displayName := "Ada"
  role := "user"
  permissions := none
  enabled := true
  approvalStatus := "approved"
  tokenVersion := 1
  createdAt := 1
  updatedAt := 1
  lastLoginAt := 0
  forceReloginAt := 0
  totpSecret := ""
  totpEnabled := false

def sampleDatabase : Store :=
  { Store.empty ⟨true, false⟩ with
    users := Table.empty.put sampleUser
    groups := Table.empty.put ⟨"group-1", "Support", "", .user⟩
    memberships := Table.empty.put ⟨"group-1", "user-1"⟩ }

def sampleMirror : CacheState :=
  { CacheState.empty with
    users := Table.empty.put sampleUser.view
    userGroups := Table.empty.put ⟨"user-1", ["group-1"]⟩ }

theorem sampleMirror_mirrors : Mirror sampleClock 0 sampleDatabase sampleMirror where
  users := by
    have hnone : Table.Agree SameUser (.empty : Table User.id) (.empty : Table UserState.id) :=
      fun id v hv => nomatch hv
    exact (hnone.put_put rfl).mpr (sameUser_view sampleUser)
  sessions _ := rfl
  members g u := by
    show g ∈ (((Table.empty.put _).get? u).map UserGroups.groups).getD [] ↔
      ((Table.empty.put _).get? (g, u)).isSome = true
    rw [Table.get?_put, Table.get?_put]
    by_cases hu : "user-1" = u
    · subst hu
      by_cases hg : "group-1" = g
      · simp [MemberRow.key, hg]
      · simp [MemberRow.key, hg, Ne.symm hg, Table.get?_empty]
    · simp [MemberRow.key, hu, Table.get?_empty]
  rules _ := rfl
  strategies _ := rfl
  devices _ := rfl

/-- Disabling the user reaches the cache. -/
theorem sampleMirror_disabled :
    Mirror sampleClock 0 ((AdminOp.setUserEnabled "user-1" false 5).run sampleChecks sampleDatabase).1
      (sampleMirror.consume (number "api-1" 0 (events sampleChecks sampleClock.rfc3339
        ((AdminOp.setUserEnabled "user-1" false 5).run sampleChecks sampleDatabase).2))).1 :=
  (admin_op_mirrors_iff sampleMirror_mirrors _ fun h => absurd h (by decide)).mpr (Or.inr trivial)

/-- The user is taken out of its only group: the database has no membership any more, the cache
keeps it. -/
theorem removed_group_stays :
    let op := AdminOp.updateUser "user-1" ⟨"ada", "", "", "Ada", "", "user", true, []⟩ 5
    let after := op.run sampleChecks sampleDatabase
    let cache := (sampleMirror.consume (number "api-1" 0
      (events sampleChecks sampleClock.rfc3339 after.2))).1
    Mirror sampleClock 0 sampleDatabase sampleMirror ∧
      (after.1.memberships.get? ("group-1", "user-1")).isSome = false ∧
      cache.groupsOf "user-1" = ["group-1"] ∧ ¬ Mirror sampleClock 0 after.1 cache := by
  intro op after cache
  have hgone : (after.1.memberships.get? ("group-1", "user-1")).isSome = false := by decide
  have hstays : cache.groupsOf "user-1" = ["group-1"] := by decide
  refine ⟨sampleMirror_mirrors, hgone, hstays, fun h => ?_⟩
  have hrow := (h.members "group-1" "user-1").mp (by simp [hstays])
  rw [hgone] at hrow
  cases hrow

end RemoteControl.Sync
