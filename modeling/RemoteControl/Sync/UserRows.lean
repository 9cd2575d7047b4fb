import RemoteControl.Sync.Login

/-!
# What transactions make of the rows of users

Every transaction of `UserOp` writes some rows of `users` and leaves the others. `applied` is what
becomes of a row that was there; what is to be known of versions, of roles or of the second factor
is read off it.
-/

namespace RemoteControl.Sync

open Lib Table

variable {s s' : Store} {toLower : String → String} {u u' user : User}

/-- The value of a transaction without what it returns. -/
theorem map_snd_ok {ε α β : Type} {x : Except ε (α × β)} {b : β} (h : x.map (·.2) = .ok b) :
    ∃ a, x = .ok (a, b) := by
  cases x with
  | error e => cases h
  | ok p =>
    obtain ⟨a, b'⟩ := p
    exact ⟨a, congrArg _ (congrArg _ (Except.ok.inj h))⟩

theorem createRegisteredUser_ok (h : s.createRegisteredUser toLower user = .ok s') :
    s.users.get? user.id = none ∧ s'.users = s.users.insert
      { user with username := toLower user.username, approvalStatus := "pending" } := by
  unfold Store.createRegisteredUser at h
  dsimp only at h
  split at h
  next => cases h
  next hnew =>
    simp only [Bool.or_eq_true, not_or, Bool.not_eq_true, Option.isSome_eq_false_iff,
      Option.isNone_iff_eq_none] at hnew
    cases h
    exact ⟨hnew.1.1, rfl⟩

/-- The row that `CreateUser` adds. -/
def User.stored (toLower : String → String) (user : User) : User :=
  { user with
    username := toLower user.username
    approvalStatus := if user.approvalStatus = "" then "approved" else user.approvalStatus }

theorem createUser_stored (toLower : String → String) (user : User) (s : Store) :
    s.createUser toLower user
      = if (s.users.get? user.id).isSome
            || s.users.rows.any (fun u => u.username = toLower user.username) then .error .conflict
        else if (user.stored toLower).approvalStatus ≠ "approved" then
          .ok { s with users := s.users.insert (user.stored toLower) }
        else if (s.memberships.get? (approvedUsersGroupId, user.id)).isSome then .error .conflict
        else .ok { s with
          users := s.users.insert (user.stored toLower)
          memberships := s.memberships.insert ⟨approvedUsersGroupId, user.id⟩ } := rfl

theorem createUser_row (h : s.createUser toLower user = .ok s') :
    s.users.get? (user.stored toLower).id = none ∧
      s'.users = s.users.insert (user.stored toLower) := by
  rw [createUser_stored] at h
  split at h
  next => cases h
  next hnew =>
    simp only [Bool.or_eq_true, not_or, Bool.not_eq_true, Option.isSome_eq_false_iff,
      Option.isNone_iff_eq_none] at hnew
    split at h
    next =>
      cases h
      exact ⟨hnew.1, rfl⟩
    next =>
      split at h
      next => cases h
      cases h
      exact ⟨hnew.1, rfl⟩

theorem createSession_users {v : Session} (h : s.createSession v = .ok s') :
    s'.users = s.users := by
  unfold Store.createSession at h
  split at h
  next => cases h
  cases h
  rfl

/-- What a transaction makes of a row. -/
def UserOp.applied (toLower : String → String) (op : UserOp) (u : User) : User := match op with
  | .setUserEnabled id enabled now =>
    if u.id = id then { u with enabled, tokenVersion := u.tokenVersion + 1, updatedAt := now }
    else u
  | .forceRelogin id now =>
    if u.id = id then
      { u with tokenVersion := u.tokenVersion + 1, forceReloginAt := now, updatedAt := now }
    else u
  | .updateUserPassword id passwordHash now =>
    if u.id = id then
      { u with
        passwordHash
        tokenVersion := u.tokenVersion + 1
        forceReloginAt := now
        updatedAt := now }
    else u
  | .updateUser id input now =>
    if u.id = id then input.apply (toLower input.username) now u else u
  | .deleteRole role =>
    if u.role = role then { u with role := "user", tokenVersion := u.tokenVersion + 1 } else u
  | .setUserTOTP id totpSecret totpEnabled now =>
    if u.id = id then
      { u with
        totpSecret
        totpEnabled
        tokenVersion := if u.totpEnabled = totpEnabled then u.tokenVersion else u.tokenVersion + 1
        updatedAt := now }
    else u
  | .setUserApproval id approvalStatus now =>
    if u.id = id then { u with approvalStatus, updatedAt := now } else u
  | .updateLastLogin id now =>
    if u.id = id then { u with lastLoginAt := now, updatedAt := now } else u
  | .createUser _ | .createRegisteredUser _ | .deleteUser _ => u

section

variable {op : UserOp}

/-- The rows of `s'` are those of `s` with what `op` makes of them, unless they are new. -/
def UserOp.Rows (toLower : String → String) (op : UserOp) (s s' : Store) : Prop :=
  ∀ ⦃id u'⦄, s'.users.get? id = some u' →
    (∃ u, s.users.get? id = some u ∧ u' = op.applied toLower u) ∨ op.creates = some id

/-- A transaction that saves one row. -/
theorem rows_put {id : String} (hu : s.users.get? id = some u) (hs : s'.users = s.users.put u')
    (hid : u'.id = u.id) (hrow : u' = op.applied toLower u)
    (hothers : ∀ v : User, v.id ≠ id → op.applied toLower v = v) : op.Rows toLower s s' := by
  intro i v hv
  have hkey : u.id = id := get?_key hu
  refine .inl ?_
  rw [hs, get?_put] at hv
  split at hv
  next hi =>
    cases hv
    exact ⟨u, by rw [← hi, hid, hkey, hu], hrow⟩
  next hi =>
    have hne : v.id ≠ id := by
      rw [get?_key hv, ← hkey, ← hid]
      exact fun h => hi h.symm
    exact ⟨v, hv, (hothers v hne).symm⟩

/-- A transaction that adds one row. -/
theorem rows_insert (hs : s'.users = s.users.insert u) (hnew : s.users.get? u.id = none)
    (hcreates : op.creates = some u.id) (hkeeps : ∀ v : User, op.applied toLower v = v) :
    op.Rows toLower s s' := by
  intro i v hv
  rw [hs, get?_insert hnew] at hv
  split at hv
  next hi => exact .inr (hi ▸ hcreates)
  next => exact .inl ⟨v, hv, (hkeeps v).symm⟩

theorem rows_withUser {id : String} {f : User → User} (h : s.withUser id f = .ok (u', s'))
    (hid : ∀ v, (f v).id = v.id)
    (happlied : ∀ v : User, op.applied toLower v = if v.id = id then f v else v) :
    op.Rows toLower s s' := by
  obtain ⟨u, hu, rfl, rfl⟩ := withUser_ok h
  refine rows_put hu rfl (hid u) ?_ fun v hv => ?_
  · rw [happlied, if_pos (get?_key hu)]
  · rw [happlied, if_neg hv]

/-- **One transaction.** -/
theorem UserOp.run_applied (h : op.run toLower s = .ok s') : op.Rows toLower s s' := by
  cases op with
  | setUserEnabled | forceRelogin | updateUserPassword | setUserTOTP =>
    obtain ⟨u, h⟩ := map_snd_ok h
    exact rows_withUser h (fun _ => rfl) fun _ => rfl
  | updateUser id input now =>
    obtain ⟨u', h⟩ := map_snd_ok h
    obtain ⟨⟨u, hu, rfl⟩, memberships, -, rfl⟩ := updateUser_ok h
    exact rows_put hu rfl rfl (if_pos (get?_key hu)).symm fun v hv => if_neg hv
  | setUserApproval id status now =>
    obtain ⟨u', h⟩ := map_snd_ok h
    obtain ⟨⟨u, hu, rfl⟩, rfl⟩ := setUserApproval_ok h
    exact rows_put hu rfl rfl (if_pos (get?_key hu)).symm fun v hv => if_neg hv
  | updateLastLogin id now =>
    intro i v hv
    cases h
    unfold Store.updateLastLogin at hv
    rw [get?_updateWhere] at hv
    obtain ⟨u, hu, rfl⟩ := Option.map_eq_some_iff.mp hv
    exact .inl ⟨u, hu, by simp [applied]⟩
  | deleteRole role =>
    intro i v hv
    replace h : s.deleteRole role = .ok s' := h
    unfold Store.deleteRole at h
    split at h
    next => cases h
    split at h
    next => cases h
    cases h
    rw [get?_updateWhere] at hv
    obtain ⟨u, hu, rfl⟩ := Option.map_eq_some_iff.mp hv
    exact .inl ⟨u, hu, by simp [applied]⟩
  | createUser user =>
    obtain ⟨hnew, hs⟩ := createUser_row h
    exact rows_insert hs hnew rfl fun _ => rfl
  | createRegisteredUser user =>
    obtain ⟨hnew, hs⟩ := createRegisteredUser_ok h
    exact rows_insert hs hnew rfl fun _ => rfl
  | deleteUser id =>
    intro i v hv
    replace h : s.deleteUser id = .ok s' := h
    unfold Store.deleteUser at h
    split at h
    next => cases h
    split at h
    next => cases h
    cases h
    exact .inl ⟨v, s.users.remove_sub id hv, rfl⟩

end

end RemoteControl.Sync
