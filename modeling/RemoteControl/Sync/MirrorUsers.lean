import RemoteControl.Sync.Mirror

/-!
# Operations on users

For each administrative operation on users, when the events it publishes bring a
mirroring cache to the new state of the database. Two of them do not always:

> an update publishes the memberships a user has afterwards, but not those it took
> away, and a deletion publishes neither the memberships nor the rules and
> strategies that go with the user.

`createUser` publishes the new user, and the membership it gets only if a second
update follows.
-/

namespace RemoteControl.Sync

open Lib List Table

variable {gs : List String} {when : Nat} {toLower : String → String} {t : Table MemberRow.key}
  {u' : User} {f : User → User}

/-- The cache after what an operation published. -/
def Effect.applied (c : Checks) (k : Clock) (e : Effect) (st : CacheState) : CacheState :=
  (performed c k.rfc3339 e.2).foldl CacheOp.apply st

/-- The cache mirrors the database again. -/
def Effect.Mirrored (c : Checks) (k : Clock) (now : Nat) (e : Effect) (st : CacheState) : Prop :=
  Mirror k now e.1 (e.applied c k st)

section

variable {c : Checks} {k : Clock} {now : Nat} {s s' : Store} {st : CacheState} {id : String}

section

variable (h : Mirror k now s st)

include h

theorem Mirror.refused : Effect.Mirrored c k now (s, []) st := h

theorem Mirror.saveUser (u : User) :
    Mirror k now { s with users := s.users.put u } (CacheOp.apply st (.user u.view)) :=
  { h with users := (h.users.put_put rfl).mpr (sameUser_view u) }

theorem Mirror.revoke (userId : String) (when : Nat) :
    Mirror k now (s.revokeUserSessions userId when)
      (CacheOp.apply st (.revokeUserSessions userId)) :=
  { h with
    sessions := sessions_ended (p := fun u => decide (u = userId)) h.sessions
      (fun _ => get?_deleteWhere _ _ _) (revokeUserSessions_live s userId when now) }

omit h in
theorem withUser_ok (h : s.withUser id f = .ok (u', s')) :
    ∃ u, s.users.get? id = some u ∧ u' = f u ∧ s' = { s with users := s.users.put (f u) } := by
  unfold Store.withUser updateRow at h
  cases hg : s.users.get? id with
  | none => simp [hg, Except.map] at h
  | some u =>
    simp only [hg, Except.map, Except.ok.injEq, Prod.mk.injEq] at h
    exact ⟨u, rfl, h.1.symm, h.2.symm⟩

/-! ## Changes of one row -/

theorem setUserEnabled_mirrored (id : String) (enabled : Bool) (when : Nat) :
    Effect.Mirrored c k now (setUserEnabled id enabled when s) st := by
  unfold setUserEnabled
  cases hu : s.setUserEnabled id enabled when with
  | error err => exact h.refused
  | ok r =>
    obtain ⟨user, s'⟩ := r
    obtain ⟨u, _, rfl, rfl⟩ := withUser_ok hu
    cases enabled with
    | true =>
      simp only [Effect.Mirrored, Effect.applied, if_true, performed_userSaved, performed_nil]
      exact h.saveUser _
    | false =>
      simp only [Effect.Mirrored, Effect.applied, Bool.false_eq_true, if_false,
        performed_userDisabled, performed_sessionsRevoked, performed_nil]
      exact (h.saveUser _).revoke id when

theorem signOut_mirrored (id : String) (when : Nat) :
    Effect.Mirrored c k now (signOut id when s (s.withUser id f)) st := by
  unfold signOut
  cases hu : s.withUser id f with
  | error err => exact h.refused
  | ok r =>
    obtain ⟨user, s'⟩ := r
    obtain ⟨u, _, rfl, rfl⟩ := withUser_ok hu
    simp only [Effect.Mirrored, Effect.applied, performed_userSaved, performed_sessionsRevoked,
      performed_nil]
    exact (h.saveUser _).revoke id when

end

/-! ## Approval -/

theorem get?_insert_isSome {r : MemberRow} {key : String × String} :
    ((t.insert r).get? key).isSome = true ↔ r.key = key ∨ (t.get? key).isSome = true := by
  cases hg : t.get? r.key with
  | none =>
    rw [get?_insert hg]
    by_cases hk : r.key = key <;> simp [hk]
  | some r' =>
    rw [insert_of_some hg]
    refine ⟨Or.inr, fun h => h.elim (fun hk => ?_) fun h => h⟩
    rw [← hk, hg]
    rfl

theorem get?_deleteWhere_isSome {p : MemberRow → Bool} {g u : String} :
    ((t.deleteWhere p).get? (g, u)).isSome = true ↔
      (t.get? (g, u)).isSome = true ∧ p ⟨g, u⟩ = false := by
  rw [get?_deleteWhere]
  cases hg : t.get? (g, u) with
  | none => simp
  | some r =>
    have hr : r = ⟨g, u⟩ := by
      have hk := get?_key hg
      cases r
      simpa [MemberRow.key] using hk
    subst hr
    cases hp : p ⟨g, u⟩ <;> simp [Option.filter, hp]

def approvalMembers (t : Table MemberRow.key) (id status : String) : Table MemberRow.key :=
  match approvalGroup status with
  | some g => (t.deleteWhere fun m => m.userId = id && systemGroup m.groupId).insert ⟨g, id⟩
  | none => t.deleteWhere fun m => m.userId = id && systemGroup m.groupId

def approvalStatus (approve : Bool) : String := if approve then "approved" else "rejected"

theorem approval_members (h : SameMembers s.memberships st) (id : String) (approve : Bool) :
    SameMembers (approvalMembers s.memberships id (approvalStatus approve))
      (CacheOp.apply (CacheOp.apply st (.membership ⟨pendingUsersGroupId, id, false⟩))
        (.membership ⟨approvedUsersGroupId, id, approve⟩)) := by
  intro g u
  rw [mem_groupsOf_membership, mem_groupsOf_membership, h g u]
  unfold approvalMembers
  cases approve with
  | true =>
    have hgroup : approvalGroup (approvalStatus true) = some approvedUsersGroupId := by decide
    rw [hgroup]
    simp only [get?_insert_isSome, get?_deleteWhere_isSome, MemberRow.key, systemGroup]
    grind
  | false =>
    have hgroup : approvalGroup (approvalStatus false) = none := by decide
    rw [hgroup]
    simp only [get?_deleteWhere_isSome, systemGroup]
    grind

theorem Mirror.approve (h : Mirror k now s st) (u : User) (id : String) (approve : Bool) :
    Mirror k now
      { s with
        users := s.users.put u
        memberships := approvalMembers s.memberships id (approvalStatus approve) }
      (CacheOp.apply
        (CacheOp.apply (CacheOp.apply st (.user u.view))
          (.membership ⟨pendingUsersGroupId, id, false⟩))
        (.membership ⟨approvedUsersGroupId, id, approve⟩)) :=
  { h.saveUser u with members := approval_members (h.saveUser u).members id approve }

theorem setUserApproval_ok {status : String} (h : s.setUserApproval id status when = .ok (u', s')) :
    (∃ u, s.users.get? id = some u ∧ u' = { u with approvalStatus := status, updatedAt := when }) ∧
      s' = { s with
        users := s.users.put u'
        memberships := approvalMembers s.memberships id status } := by
  unfold Store.setUserApproval at h
  cases hu : s.withUser id (fun u => { u with approvalStatus := status, updatedAt := when }) with
  | error err => simp [hu] at h
  | ok r =>
    obtain ⟨user, s₁⟩ := r
    obtain ⟨u, hg, rfl, rfl⟩ := withUser_ok hu
    simp only [hu, bind, Except.bind, pure, Except.pure, Except.ok.injEq, Prod.mk.injEq] at h
    obtain ⟨rfl, rfl⟩ := h
    exact ⟨⟨u, hg, rfl⟩, rfl⟩

theorem setUserApproval_mirrored (h : Mirror k now s st) (id : String) (approve : Bool)
    (when : Nat) : Effect.Mirrored c k now (setUserApproval id approve when s) st := by
  unfold setUserApproval
  cases hu : s.setUserApproval id (if approve then "approved" else "rejected") when with
  | error err => exact h.refused
  | ok r =>
    obtain ⟨user, s'⟩ := r
    obtain ⟨-, rfl⟩ := setUserApproval_ok hu
    cases approve with
    | true =>
      simp only [Effect.Mirrored, Effect.applied, if_true, performed_userSaved,
        performed_membershipSet, performed_nil]
      exact h.approve user id true
    | false =>
      -- the sessions go first in the cache and last in the database
      simp only [Effect.Mirrored, Effect.applied, Bool.false_eq_true, if_false,
        performed_userSaved, performed_sessionsRevoked, performed_membershipSet, performed_nil]
      exact (h.revoke id when).approve user id false

/-! ## Updates -/

/-- No group is taken away from the user, other than the system groups. -/
def Store.KeepsGroups (s : Store) (id : String) (groupIds : List String) : Prop :=
  ∀ g, (s.memberships.get? (g, id)).isSome = true → systemGroup g = true ∨ g ∈ groupIds

/-- The memberships with which `updateUser` ends: those of others as before, and of the user's
own the system groups and the groups asked for. -/
structure Joined (t t' : Table MemberRow.key) (id : String) (groupIds : List String) : Prop where
  others : ∀ g u, u ≠ id → ((t'.get? (g, u)).isSome = true ↔ (t.get? (g, u)).isSome = true)
  kept : ∀ g, (t.get? (g, id)).isSome = true →
    ((t'.get? (g, id)).isSome = true ↔ systemGroup g = true ∨ g ∈ groupIds)

theorem joinGroups_ok (h : s.joinGroups id gs = .ok s') :
    ∃ memberships, s' = { s with memberships } ∧
      ∀ g u, (memberships.get? (g, u)).isSome = true ↔
        (s.memberships.get? (g, u)).isSome = true ∨ u = id ∧ g ∈ gs ∧ systemGroup g = false := by
  induction gs generalizing s with
  | nil =>
    obtain rfl : s = s' := Except.ok.inj h
    exact ⟨s.memberships, rfl, fun g u => by simp⟩
  | cons g' gs ih =>
    unfold Store.joinGroups at h
    split at h
    next =>
      by_cases hsys : systemGroup g' = true
      · rw [if_pos hsys] at h
        obtain ⟨memberships, rfl, hget⟩ := ih h
        refine ⟨memberships, rfl, fun g u => ?_⟩
        rw [hget]
        grind
      · rw [if_neg hsys] at h
        obtain ⟨memberships, rfl, hget⟩ := ih h
        refine ⟨memberships, rfl, fun g u => ?_⟩
        rw [hget, get?_insert_isSome]
        simp only [MemberRow.key, Prod.mk.injEq]
        grind
    next => cases h

theorem updateUser_ok {input : UserUpdate} (h : s.updateUser toLower id input when = .ok (u', s')) :
    (∃ u, s.users.get? id = some u ∧ u' = input.apply (toLower input.username) when u) ∧
      ∃ memberships, Joined s.memberships memberships id input.groupIds ∧
        s' = { s with users := s.users.put u', memberships }.revokeUserSessions id when := by
  unfold Store.updateUser at h
  cases hg : s.users.get? id with
  | none => simp [hg] at h
  | some current =>
    simp only [hg] at h
    split at h
    next => cases h
    split at h
    next => cases h
    cases hu : s.withUser id (input.apply (toLower input.username) when) with
    | error err => simp [hu] at h
    | ok r =>
      obtain ⟨user, s₁⟩ := r
      obtain ⟨u, hrow, rfl, rfl⟩ := withUser_ok hu
      simp only [hu, bind, Except.bind] at h
      split at h
      next => cases h
      next s₂ hj =>
        simp only [pure, Except.pure, Except.ok.injEq, Prod.mk.injEq] at h
        obtain ⟨rfl, rfl⟩ := h
        obtain ⟨memberships, rfl, hget⟩ := joinGroups_ok hj
        refine ⟨⟨u, hg.symm.trans hrow, rfl⟩, memberships,
          ⟨fun g u' hne => ?_, fun g hg => ?_⟩, rfl⟩
        · rw [hget, get?_deleteWhere_isSome]
          simp [hne]
        · rw [hget, get?_deleteWhere_isSome]
          cases systemGroup g <;> simp [hg]

theorem mem_membershipsOf {m : UserGroupMembership} :
    m ∈ s.membershipsOf id ↔ m.userId = id ∧ m.active = true ∧
      (s.memberships.get? (m.groupId, id)).isSome = true := by
  constructor
  · intro hm
    obtain ⟨hlist, hid⟩ := mem_filter.mp hm
    obtain ⟨row, hrow, rfl⟩ := mem_map.mp hlist
    obtain rfl : row.userId = id := of_decide_eq_true hid
    exact ⟨rfl, rfl, Option.isSome_iff_exists.mpr ⟨row, get?_of_mem hrow⟩⟩
  · rintro ⟨rfl, hactive, hsome⟩
    obtain ⟨row, hrow⟩ := Option.isSome_iff_exists.mp hsome
    obtain ⟨hmem, hkey⟩ := get?_eq_some.mp hrow
    obtain ⟨hg, hu⟩ := Prod.mk.inj hkey
    refine mem_filter.mpr ⟨mem_map.mpr ⟨row, hmem, ?_⟩, decide_eq_true rfl⟩
    cases m
    simp_all

/-- **An update and what it publishes.** The events only add memberships, so the cache is a
mirror again exactly when the update took none away. -/
theorem updated_mirrored_iff (h : Mirror k now s st) {memberships : Table MemberRow.key}
    (hj : Joined s.memberships memberships id gs) {u : User}
    (hs' : s' = { s with users := s.users.put u, memberships }.revokeUserSessions id when) :
    Effect.Mirrored c k now (s', .userSaved u :: .sessionsRevoked id ::
      (s'.membershipsOf id).map .membershipSet) st ↔ s.KeepsGroups id gs := by
  have h₁ := (h.saveUser u).revoke id when
  have hactive : ∀ m ∈ s'.membershipsOf id, m.active = true := fun m hm =>
    (mem_membershipsOf.mp hm).2.1
  have hmem : s'.memberships = memberships := by rw [hs']; rfl
  simp only [Effect.Mirrored, Effect.applied, performed_userSaved, performed_sessionsRevoked,
    performed_map c k.rfc3339 (fun m ps => performed_membershipSet c k.rfc3339 ps m),
    foldl_cons, foldl_map]
  obtain ⟨userGroups, heq⟩ := membership_frame (s'.membershipsOf id)
    (CacheOp.apply (CacheOp.apply st (.user u.view)) (.revokeUserSessions id))
  have hgroups : ∀ g v, g ∈ ((s'.membershipsOf id).foldl
      (fun st m => CacheOp.apply st (.membership m.view))
      (CacheOp.apply (CacheOp.apply st (.user u.view)) (.revokeUserSessions id))).groupsOf v ↔
      (s.memberships.get? (g, v)).isSome = true ∨
        v = id ∧ (memberships.get? (g, v)).isSome = true := by
    intro g v
    rw [mem_groupsOf_join hactive, ← h.members g v]
    refine or_congr Iff.rfl ⟨?_, ?_⟩
    · rintro ⟨m, hm, rfl, rfl⟩
      obtain ⟨hid, _, hsome⟩ := mem_membershipsOf.mp hm
      rw [hmem, ← hid] at hsome
      exact ⟨hid, hsome⟩
    · rintro ⟨rfl, hsome⟩
      exact ⟨⟨g, v, true⟩, mem_membershipsOf.mpr ⟨rfl, rfl, hmem ▸ hsome⟩, rfl, rfl⟩
  constructor
  · intro hmirror g hg
    have hafter : (memberships.get? (g, id)).isSome = true :=
      hmem ▸ (hmirror.members g id).mp ((hgroups g id).mpr (Or.inl hg))
    exact (hj.kept g hg).mp hafter
  · intro hkeeps
    have hmembers : SameMembers s'.memberships _ := fun g v => (hgroups g v).trans (by
      rw [hmem]
      refine ⟨fun hor => hor.elim (fun hg => ?_) And.right, fun hg => ?_⟩
      · by_cases hv : v = id
        · subst hv
          exact (hj.kept g hg).mpr (hkeeps g hg)
        · exact (hj.others g v hv).mpr hg
      · by_cases hv : v = id
        · exact Or.inr ⟨hv, hg⟩
        · exact Or.inl ((hj.others g v hv).mp hg))
    rw [heq] at hmembers ⊢
    rw [hs'] at hmembers ⊢
    exact { h₁ with members := hmembers }

theorem updateUser_mirrored_iff (h : Mirror k now s st) (id : String) (input : UserUpdate)
    (when : Nat) :
    Effect.Mirrored c k now (updateUser c id input when s) st ↔
      updateUser c id input when s = (s, []) ∨ s.KeepsGroups id input.groupIds := by
  unfold updateUser
  cases hu : s.updateUser c.toLower id input when with
  | error err => exact iff_of_true h.refused (Or.inl rfl)
  | ok r =>
    obtain ⟨user, s'⟩ := r
    obtain ⟨-, memberships, hj, hs'⟩ := updateUser_ok hu
    rw [updated_mirrored_iff h hj hs']
    exact ⟨Or.inr, fun hor => hor.resolve_left (by simp)⟩

/-! ## Creation -/

def Store.userGroup (s : Store) (g : String) : Bool := (s.groups.get? g).any fun v => v.kind = .user

theorem joinGroups_total (s : Store) (gs : List String) :
    (∃ s', s.joinGroups id gs = .ok s') ↔ ∀ g ∈ gs, s.userGroup g = true := by
  induction gs generalizing s with
  | nil => exact iff_of_true ⟨s, rfl⟩ (fun g hg => absurd hg not_mem_nil)
  | cons g gs ih =>
    unfold Store.joinGroups
    rw [forall_mem_cons, Store.userGroup]
    cases hg : s.groups.get? g with
    | none => simp
    | some group =>
      obtain ⟨gid, name, description, kind⟩ := group
      cases kind with
      | device => simp
      | user =>
        -- joining one group does not change which groups there are
        by_cases hsys : systemGroup g = true
        · simp only [if_pos hsys]
          exact (ih s).trans (by simp)
        · simp only [if_neg hsys]
          exact (ih _).trans (by simp [Store.userGroup])

theorem joinGroups_error {err : StoreError} (h : s.joinGroups id gs = .error err) :
    ∃ g ∈ gs, s.userGroup g = false := by
  by_contra hall
  obtain ⟨s', hs'⟩ := (joinGroups_total s gs).mpr fun g hg => by
    by_contra hno
    exact hall ⟨g, hg, Bool.not_eq_true _ ▸ hno⟩
  exact absurd (h.symm.trans hs') (by simp)

def NewUser.row (toLower : String → String) (input : NewUser) (now : Nat) : User :=
  { input.user now with username := toLower input.username }

structure Created (toLower : String → String) (input : NewUser) (when : Nat) (s s₁ : Store) :
    Prop where
  newUser : s.users.get? input.id = none
  newName : ∀ u ∈ s.users.rows, u.username ≠ toLower input.username
  newMember : s.memberships.get? (approvedUsersGroupId, input.id) = none
  eq : s₁ = { s with
    users := s.users.insert (input.row toLower when)
    memberships := s.memberships.insert ⟨approvedUsersGroupId, input.id⟩ }

theorem createUser_eq (toLower : String → String) (input : NewUser) (when : Nat) :
    s.createUser toLower (input.user when)
      = if (s.users.get? input.id).isSome
            || s.users.rows.any (fun u => u.username = toLower input.username) then .error .conflict
        else if (s.memberships.get? (approvedUsersGroupId, input.id)).isSome then .error .conflict
        else .ok { s with
          users := s.users.insert (input.row toLower when)
          memberships := s.memberships.insert ⟨approvedUsersGroupId, input.id⟩ } := rfl

theorem createUser_ok {input : NewUser} (h : s.createUser toLower (input.user when) = .ok s') :
    Created toLower input when s s' := by
  rw [createUser_eq] at h
  split at h
  next => cases h
  next hnew =>
    split at h
    next => cases h
    next hmember =>
      simp only [Bool.or_eq_true, not_or, Bool.not_eq_true, any_eq_false,
        Option.isSome_eq_false_iff, Option.isNone_iff_eq_none, decide_eq_true_eq] at hnew hmember
      exact ⟨hnew.1, hnew.2, hmember, (Except.ok.inj h).symm⟩

section

variable {input : NewUser} {s₁ : Store}

/-- The update that follows a creation fails only for its groups. -/
theorem Created.update_total (h : Created toLower input when s s₁) :
    (∃ r, s₁.updateUser toLower input.id input.update when = .ok r) ↔
      ∀ g ∈ input.groupIds, s.userGroup g = true := by
  have hget : s₁.users.get? input.id = some (input.row toLower when) := by
    rw [h.eq]
    exact (get?_insert h.newUser _).trans (if_pos rfl)
  have hadmin : ¬ (decide (input.update.role ≠ "admin")
      && s₁.lastAdmin (input.row toLower when).role) = true := by
    show ¬ (decide (input.role ≠ "admin") && s₁.lastAdmin input.role) = true
    by_cases hrole : input.role = "admin" <;> simp [Store.lastAdmin, hrole]
  have hname : ¬ s₁.users.rows.any (fun u => u.id ≠ input.id
      && u.username = toLower input.update.username) = true := by
    rw [h.eq, rows_insert h.newUser]
    simp only [any_append, any_cons, any_nil, Bool.or_eq_true, any_eq_true,
      Bool.and_eq_true, decide_eq_true_eq]
    rintro (⟨u, hu, -, he⟩ | ⟨hid, -⟩ | hf)
    · exact h.newName u hu he
    · exact hid rfl
    · cases hf
  have hgroups : ∀ g, s₁.userGroup g = s.userGroup g := fun g => by rw [h.eq]; rfl
  unfold Store.updateUser
  simp only [hget, if_neg hadmin, if_neg hname, Store.withUser, updateRow, Except.map, bind,
    Except.bind, pure, Except.pure]
  constructor
  · rintro ⟨r, hr⟩ g hg
    split at hr
    next => cases hr
    next s₂ hj => exact (hgroups g).symm.trans ((joinGroups_total _ _).mp ⟨s₂, hj⟩ g hg)
  · intro hall
    split
    next err hj =>
      obtain ⟨g, hg, hno⟩ := joinGroups_error hj
      exact absurd (hno.symm.trans ((hgroups g).trans (hall g hg))) Bool.false_ne_true
    next => exact ⟨_, rfl⟩

theorem Created.joined (h : Created toLower input when s s₁)
    (hj : Joined s₁.memberships t input.id gs) : Joined s.memberships t input.id gs := by
  have hmem : s₁.memberships = s.memberships.insert ⟨approvedUsersGroupId, input.id⟩ := by rw [h.eq]
  constructor
  · intro g u hne
    rw [hj.others g u hne, hmem, get?_insert_isSome]
    simp [MemberRow.key, Ne.symm hne]
  · intro g hg
    refine hj.kept g ?_
    rw [hmem, get?_insert_isSome]
    exact Or.inr hg

/-- The user is published, but not that it is in the group of approved users. -/
theorem Created.unannounced (h : Mirror k now s st) (hc : Created toLower input when s s₁)
    (u : User) : ¬ Effect.Mirrored c k now (s₁, [.userSaved u]) st := by
  simp only [Effect.Mirrored, Effect.applied, performed_userSaved, performed_nil]
  intro h₁
  have hrow : (s₁.memberships.get? (approvedUsersGroupId, input.id)).isSome = true := by
    rw [hc.eq, get?_insert_isSome]
    exact Or.inl rfl
  have hbefore := (h.members _ _).mp ((h₁.members _ _).mpr hrow)
  rw [hc.newMember] at hbefore
  cases hbefore

theorem Created.saved (h : Mirror k now s st) (hc : Created toLower input when s s₁) :
    Mirror k now { s with users := s.users.insert (input.row toLower when) }
      (CacheOp.apply st (.user (input.user when).view)) := by
  have hput : s.users.insert (input.row toLower when) = s.users.put (input.row toLower when) :=
    insert_eq_put hc.newUser
  rw [hput]
  exact { h with users := (h.users.put_put rfl).mpr rfl }

end

theorem createUser_mirrored_iff (h : Mirror k now s st) (input : NewUser) (when : Nat) :
    Effect.Mirrored c k now (createUser c input when s) st ↔
      createUser c input when s = (s, []) ∨
        (input.phone ≠ "" ∨ input.groupIds ≠ []) ∧ (∀ g ∈ input.groupIds, s.userGroup g = true) ∧
          s.KeepsGroups input.id input.groupIds := by
  unfold createUser
  cases hc : s.createUser c.toLower (input.user when) with
  | error err => exact iff_of_true h.refused (Or.inl rfl)
  | ok s₁ =>
    have hcreated := createUser_ok hc
    by_cases hplain : (decide (input.phone = "") && input.groupIds.isEmpty) = true
    · simp only [if_pos hplain]
      refine iff_of_false (hcreated.unannounced h _) ?_
      simp only [Bool.and_eq_true, decide_eq_true_eq, List.isEmpty_iff] at hplain
      rintro (hr | ⟨hor, -⟩)
      · simp at hr
      · exact hor.elim (fun hne => hne hplain.1) fun hne => hne hplain.2
    · simp only [if_neg hplain]
      have hmore : input.phone ≠ "" ∨ input.groupIds ≠ [] := by
        rw [Bool.and_eq_true, not_and_or] at hplain
        simpa using hplain
      simp only [updateUser]
      cases hu : s₁.updateUser c.toLower input.id input.update when with
      | error err =>
        refine iff_of_false (hcreated.unannounced h _) ?_
        rintro (hr | ⟨-, hall, -⟩)
        · simp at hr
        · obtain ⟨r, hr⟩ := hcreated.update_total.mpr hall
          exact absurd (hu.symm.trans hr) (by simp)
      | ok r =>
        obtain ⟨user, s₂⟩ := r
        obtain ⟨-, memberships, hj, hs₂⟩ := updateUser_ok hu
        have hiff := updated_mirrored_iff (c := c) (hcreated.saved h) (hcreated.joined hj)
          (hs₂.trans (by rw [hcreated.eq]))
        have hall := hcreated.update_total.mp ⟨_, hu⟩
        simp only [Effect.Mirrored, Effect.applied, performed_userSaved, foldl_cons] at hiff ⊢
        rw [hiff]
        constructor
        · exact fun hkeeps => Or.inr ⟨hmore, hall, hkeeps⟩
        · rintro (hr | ⟨-, -, hkeeps⟩)
          · simp at hr
          · exact hkeeps

/-! ## Deletion -/

theorem deleteUser_mirrored_iff (h : Mirror k now s st) (id : String) :
    Effect.Mirrored c k now (deleteUser id s) st ↔
      deleteUser id s = (s, []) ∨
        (∀ m ∈ s.memberships.rows, m.userId ≠ id) ∧
        (∀ v ∈ s.aclRules.rows, ¬ (v.subjectType = "user" ∧ v.subjectId = id)) ∧
        ∀ v ∈ s.strategies.rows, v.enabled = true → ¬ (v.scopeType = "user" ∧ v.scopeId = id) := by
  unfold deleteUser Store.deleteUser
  cases hu : s.users.get? id with
  | none => exact iff_of_true h.refused (Or.inl rfl)
  | some user =>
    by_cases hadmin : s.lastAdmin user.role = true
    · simp only [if_pos hadmin]
      exact iff_of_true h.refused (Or.inl trivial)
    · simp only [if_neg hadmin, Effect.Mirrored, Effect.applied, performed_userDeleted,
        performed_sessionsRevoked, performed_nil, foldl_cons, foldl_nil, Prod.mk.injEq,
        cons_ne_nil, and_false, false_or]
      have husers := (h.users.remove_put _).mpr (sameUser_tombstone id)
      have hsessions := sessions_ended (p := fun u => decide (u = id)) h.sessions
        (fun _ => get?_deleteWhere _ _ _) (deletedSessions_live s id now)
      have hdevices := (devices_updated_iff h.devices (p := fun d => d.ownerUserId = id)
        (f := fun d => { d with ownerUserId := "" }) fun _ => rfl).mpr fun _ _ _ => rfl
      have hmembers := members_deleted_iff h.members (p := fun m => m.userId = id)
      have hrules := rules_deleted_iff h.rules
        (p := fun v => v.subjectType = "user" && v.subjectId = id)
      have hstrategies := strategies_deleted_iff h.strategies
        (p := fun v => v.scopeType = "user" && v.scopeId = id)
      simp only [Bool.and_eq_false_iff, decide_eq_false_iff_not, ← not_and_or]
        at hmembers hrules hstrategies
      rw [← hmembers, ← hrules, ← hstrategies]
      exact ⟨fun h₁ => ⟨h₁.members, h₁.rules, h₁.strategies⟩,
        fun h₁ => ⟨husers, hsessions, h₁.1, h₁.2.1, h₁.2.2, hdevices⟩⟩

end

end RemoteControl.Sync
