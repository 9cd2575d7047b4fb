import RemoteControl.Sync.Admin
import RemoteControl.Sync.Replay

/-!
# A cache that mirrors the database

What it means for the cache to hold what the database holds, table by table, and
what each change of a table on both sides does to that. All of it goes by lookups:
the lemmas say what a change does to every key, so the order of rows never matters.

A user that was deleted stays in the cache as the disabled record that the deletion
published; that record counts as no user.
-/

namespace RemoteControl.Sync

open Lib List Table Option

variable {st : CacheState} {ms : List UserGroupMembership}

/-- How the API writes a point in time and HBBS reads it. -/
structure Clock where
  rfc3339 : Nat → String
  parse : String → Option Nat
  parse_rfc3339 : ∀ t, parse (rfc3339 t) = some t

/-! ## Row by row -/

/-- Role, enabled, approval and token version. -/
def UserState.facts (u : UserState) : String × Bool × String × Int64 :=
  (u.role, u.enabled, u.approvalStatus, u.tokenVersion)

def SameUser (id : String) : Option User → Option UserState → Prop
  | some u, v? => v?.map UserState.facts = some u.view.facts
  | none, v? => ∀ v, v? = some v → v.facts = (User.tombstone id).view.facts

/-- Neither revoked nor expired. -/
def Session.live (now : Nat) (v : Session) : Bool := v.revokedAt.isNone && now < v.expiresAt

def SessionState.live (k : Clock) (now : Nat) (v : SessionState) : Bool :=
  v.revokedAt.isNone && (k.parse v.expiresAt).any fun t => now < t

def SameSession (k : Clock) (now : Nat) (_id : String) (v? : Option Session)
    (w? : Option SessionState) : Prop :=
  w?.filter (SessionState.live k now) = (v?.filter (Session.live now)).map (Session.view k.rfc3339)

def SameRule (_id : String) (v? : Option AclRule) (w? : Option AclRuleState) : Prop :=
  w? = v?.map AclRule.view

/-- Only enabled strategies count. -/
def SameStrategy (_id : String) (v? : Option Strategy) (w? : Option StrategyState) : Prop :=
  w?.filter StrategyState.enabled = (v?.filter Strategy.enabled).map Strategy.view

/-- Group, deployed and public key. -/
def DeviceState.facts (d : DeviceState) : String × Bool × String :=
  (d.groupId, d.deployed, d.publicKey)

def SameDevice (_id : String) (v? : Option Device) (w? : Option DeviceState) : Prop :=
  w?.map DeviceState.facts = v?.map fun d => d.view.facts

/-- A group is among a user's groups when the membership has a row. -/
def SameMembers (t : Table MemberRow.key) (st : CacheState) : Prop :=
  ∀ g u, g ∈ st.groupsOf u ↔ (t.get? (g, u)).isSome = true

structure Mirror (k : Clock) (now : Nat) (s : Store) (st : CacheState) : Prop where
  users : Table.Agree SameUser s.users st.users
  sessions : Table.Agree (SameSession k now) s.sessions st.sessions
  members : SameMembers s.memberships st
  rules : Table.Agree SameRule s.aclRules st.aclRules
  strategies : Table.Agree SameStrategy s.strategies st.strategies
  devices : Table.Agree SameDevice s.devices st.devices

theorem mirror_withCursor {k : Clock} {now : Nat} {s : Store} {source : String} {revision : Nat} :
    Mirror k now s { st with sourceId := source, revision := revision } ↔ Mirror k now s st :=
  ⟨fun h => ⟨h.users, h.sessions, h.members, h.rules, h.strategies, h.devices⟩,
    fun h => ⟨h.users, h.sessions, h.members, h.rules, h.strategies, h.devices⟩⟩

/-! ## Users and sessions -/

theorem sameUser_view (u : User) : SameUser u.id (some u) (some u.view) := rfl

theorem sameUser_tombstone (id : String) : SameUser id none (some (User.tombstone id).view) := by
  intro v hv
  rw [← Option.some.inj hv]

section

variable {k : Clock} {now : Nat} {t t₁ : Table Session.id} {t' t₁' : Table SessionState.id}
  {p : String → Bool}

section

variable (h : Table.Agree (SameSession k now) t t')

include h

/-- What is left of the live sessions when the cache drops those of some users. -/
theorem sessions_left (ht' : ∀ id, t₁'.get? id = (t'.get? id).filter fun v => !p v.userId)
    (id : String) :
    (t₁'.get? id).filter (SessionState.live k now)
      = (((t.get? id).filter (Session.live now)).filter fun v => !p v.userId).map
          (Session.view k.rfc3339) := by
  have hid := h id
  unfold SameSession at hid
  have hcomm : (fun v : SessionState => (!p v.userId) && v.live k now)
      = fun v => v.live k now && !p v.userId := funext fun v => Bool.and_comm _ _
  rw [ht', Option.filter_filter, hcomm, ← Option.filter_filter, hid]
  cases (t.get? id).filter (Session.live now) with
  | none => rfl
  | some v => cases hp : p v.userId <;> simp [Option.filter, Session.view, hp]

/-- The database ends the sessions of the same users, in whatever way. -/
theorem sessions_ended
    (ht' : ∀ id, t₁'.get? id = (t'.get? id).filter fun v => !p v.userId)
    (ht : ∀ id, (t₁.get? id).filter (Session.live now)
      = ((t.get? id).filter (Session.live now)).filter fun v => !p v.userId) :
    Table.Agree (SameSession k now) t₁ t₁' := by
  intro id
  rw [SameSession, sessions_left h ht', ht]

/-- The database keeps them. -/
theorem sessions_dropped_iff (ht' : ∀ id, t₁'.get? id = (t'.get? id).filter fun v => !p v.userId) :
    Table.Agree (SameSession k now) t t₁' ↔ ∀ v ∈ t.rows, v.live now = true → p v.userId = false := by
  constructor
  · intro h₁ v hv hlive
    have hid := h₁ v.id
    rw [SameSession, sessions_left h ht', get?_of_mem hv, filter_some_pos hlive] at hid
    cases hp : p v.userId with
    | false => rfl
    | true => simp [Option.filter, hp] at hid
  · intro hnone
    refine sessions_ended h ht' fun id => ?_
    cases hg : (t.get? id).filter (Session.live now) with
    | none => rfl
    | some v =>
      obtain ⟨hget, hlive⟩ := filter_eq_some_iff.mp hg
      rw [filter_some_pos]
      simp [hnone v (mem_of_get? hget) hlive]

end

end

theorem revokeUserSessions_live (s : Store) (userId : String) (when now : Nat) (id : String) :
    (((s.revokeUserSessions userId when).sessions.get? id).filter (Session.live now))
      = ((s.sessions.get? id).filter (Session.live now)).filter fun v => !decide (v.userId = userId) := by
  unfold Store.revokeUserSessions
  rw [get?_updateWhere]
  cases s.sessions.get? id with
  | none => rfl
  | some v =>
    by_cases hu : v.userId = userId <;> by_cases he : now < v.expiresAt <;>
      cases hr : v.revokedAt <;> simp [Option.filter, Session.live, hu, he, hr]

theorem deletedSessions_live (s : Store) (userId : String) (now : Nat) (id : String) :
    ((s.sessions.deleteWhere fun v => v.userId = userId).get? id).filter (Session.live now)
      = ((s.sessions.get? id).filter (Session.live now)).filter fun v => !decide (v.userId = userId) := by
  rw [get?_deleteWhere, Option.filter_filter, Option.filter_filter]
  exact congrArg (Option.filter · _) (funext fun v => Bool.and_comm _ _)

/-! ## Changes of the database alone -/

section

variable {t : Table AclRule.id} {t' : Table AclRuleState.id} {u : Table Strategy.id}
  {u' : Table StrategyState.id} {d : Table Device.rustdeskId} {d' : Table DeviceState.rustdeskId}

theorem rules_deleted_iff (h : Table.Agree SameRule t t') {p : AclRule → Bool} :
    Table.Agree SameRule (t.deleteWhere p) t' ↔ ∀ v ∈ t.rows, p v = false := by
  unfold Table.Agree SameRule at h ⊢
  simp only [h, get?_deleteWhere]
  rw [forall_get? (P := fun v? => v?.map AclRule.view = (v?.filter (!p ·)).map AclRule.view) rfl]
  refine forall₂_congr fun v _ => ?_
  cases hp : p v <;> simp [Option.filter, hp]

theorem strategies_deleted_iff (h : Table.Agree SameStrategy u u') {p : Strategy → Bool} :
    Table.Agree SameStrategy (u.deleteWhere p) u' ↔ ∀ v ∈ u.rows, v.enabled = true → p v = false := by
  unfold Table.Agree SameStrategy at h ⊢
  simp only [h, get?_deleteWhere]
  rw [forall_get? (P := fun v? => (v?.filter Strategy.enabled).map Strategy.view
    = ((v?.filter (!p ·)).filter Strategy.enabled).map Strategy.view) rfl]
  refine forall₂_congr fun v _ => ?_
  cases hp : p v <;> cases he : v.enabled <;> simp [Option.filter, hp, he]

theorem devices_updated_iff (h : Table.Agree SameDevice d d') {p : Device → Bool}
    {f : Device → Device} (hf : ∀ v, (f v).rustdeskId = v.rustdeskId) :
    Table.Agree SameDevice (d.updateWhere p f hf) d' ↔
      ∀ v ∈ d.rows, p v = true → (f v).view.facts = v.view.facts := by
  unfold Table.Agree SameDevice at h ⊢
  simp only [h, get?_updateWhere, Option.map_map]
  rw [forall_get? (P := fun v? => v?.map (fun v => v.view.facts)
    = v?.map ((fun v => v.view.facts) ∘ fun v => if p v = true then f v else v)) rfl]
  refine forall₂_congr fun v _ => ?_
  cases hp : p v with
  | false => simp [hp]
  | true => simpa [hp] using eq_comm

theorem members_deleted_iff {t : Table MemberRow.key} (h : SameMembers t st)
    {p : MemberRow → Bool} : SameMembers (t.deleteWhere p) st ↔ ∀ m ∈ t.rows, p m = false := by
  unfold SameMembers at h ⊢
  simp only [h, get?_deleteWhere]
  have hrows := forall_get? (t := t)
    (P := fun m? => m?.isSome = true ↔ (m?.filter (!p ·)).isSome = true) Iff.rfl
  have hkeys : (∀ g u, (t.get? (g, u)).isSome = true ↔
      ((t.get? (g, u)).filter (!p ·)).isSome = true) ↔
      ∀ k, (t.get? k).isSome = true ↔ ((t.get? k).filter (!p ·)).isSome = true :=
    ⟨fun h k => h k.1 k.2, fun h g u => h (g, u)⟩
  rw [hkeys, hrows]
  refine forall₂_congr fun m _ => ?_
  cases hp : p m <;> simp [Option.filter, hp]

end

/-! ## Memberships -/

theorem mem_groupsOf_membership (st : CacheState) (m : UserGroupMembershipState) (g u : String) :
    g ∈ (CacheOp.apply st (.membership m)).groupsOf u ↔
      if m.userId = u ∧ m.groupId = g then m.active = true else g ∈ st.groupsOf u := by
  have hof : (CacheOp.apply st (.membership m)).groupsOf u
      = if m.userId = u then
          (if m.active then ((st.groupsOf u).filter fun g => g ≠ m.groupId) ++ [m.groupId]
            else (st.groupsOf u).filter fun g => g ≠ m.groupId)
        else st.groupsOf u := by
    show (((st.userGroups.put _).get? u).map UserGroups.groups).getD [] = _
    rw [get?_put]
    by_cases hu : m.userId = u
    · subst hu
      simp only [if_true, map_some, getD_some]
    · simp only [hu, if_false, CacheState.groupsOf]
  rw [hof]
  by_cases hu : m.userId = u
  · by_cases hg : m.groupId = g
    · cases m.active <;> simp [hu, hg]
    · cases m.active <;> simp [hu, hg, Ne.symm hg]
  · simp [hu]

theorem mem_groupsOf_event (st : CacheState) (m : UserGroupMembership) (g u : String) :
    g ∈ (CacheOp.apply st (.membership m.view)).groupsOf u ↔
      if m.userId = u ∧ m.groupId = g then m.active = true else g ∈ st.groupsOf u :=
  mem_groupsOf_membership st m.view g u

/-- Membership events change nothing but the groups. -/
theorem membership_frame (ms : List UserGroupMembership) (st : CacheState) :
    ∃ userGroups, ms.foldl (fun st m => CacheOp.apply st (.membership m.view)) st
      = { st with userGroups } := by
  induction ms generalizing st with
  | nil => exact ⟨st.userGroups, rfl⟩
  | cons m ms ih => exact ih (CacheOp.apply st (.membership m.view))

/-- Only joining: the groups are those before and those joined. -/
theorem mem_groupsOf_join (hms : ∀ m ∈ ms, m.active = true) (st : CacheState) (g u : String) :
    g ∈ (ms.foldl (fun st m => CacheOp.apply st (.membership m.view)) st).groupsOf u ↔
      g ∈ st.groupsOf u ∨ ∃ m ∈ ms, m.groupId = g ∧ m.userId = u := by
  induction ms generalizing st with
  | nil => simp
  | cons m ms ih =>
    rw [forall_mem_cons] at hms
    rw [foldl_cons, ih hms.2, mem_groupsOf_event]
    by_cases hm : m.userId = u ∧ m.groupId = g
    · rw [if_pos hm]
      exact iff_of_true (Or.inl hms.1) (Or.inr ⟨m, mem_cons_self, hm.2, hm.1⟩)
    · rw [if_neg hm]
      refine or_congr_right ⟨fun ⟨m', hm', h⟩ => ⟨m', mem_cons_of_mem _ hm', h⟩, ?_⟩
      rintro ⟨m', hm', h⟩
      rcases mem_cons.mp hm' with rfl | hm'
      · exact absurd ⟨h.2, h.1⟩ hm
      · exact ⟨m', hm', h⟩

theorem mem_groupsOf_leave (hms : ∀ m ∈ ms, m.active = false) (st : CacheState) (g u : String) :
    g ∈ (ms.foldl (fun st m => CacheOp.apply st (.membership m.view)) st).groupsOf u ↔
      g ∈ st.groupsOf u ∧ ∀ m ∈ ms, ¬ (m.groupId = g ∧ m.userId = u) := by
  induction ms generalizing st with
  | nil => simp
  | cons m ms ih =>
    rw [forall_mem_cons] at hms
    rw [foldl_cons, ih hms.2, mem_groupsOf_event, forall_mem_cons]
    by_cases hm : m.userId = u ∧ m.groupId = g
    · rw [if_pos hm]
      refine iff_of_false (fun h => ?_) fun h => h.2.1 ⟨hm.2, hm.1⟩
      exact absurd h.1 (by simp [hms.1])
    · rw [if_neg hm]
      exact ⟨fun h => ⟨h.1, fun he => hm ⟨he.2, he.1⟩, h.2⟩, fun h => ⟨h.1, h.2.2⟩⟩

/-! ## Lists of devices and of users -/

theorem devices_frame (ds : List Device) (st : CacheState) :
    ds.foldl (fun st d => CacheOp.apply st (.device d.view)) st
      = { st with devices := st.devices.putAll (ds.map Device.view) } := by
  induction ds generalizing st with
  | nil => rfl
  | cons d ds ih => exact ih (CacheOp.apply st (.device d.view))

/-- Each user is saved and signed out. -/
def saveAndRevoke (st : CacheState) (u : User) : CacheState :=
  CacheOp.apply (CacheOp.apply st (.user u.view)) (.revokeUserSessions u.id)

theorem saveAndRevoke_frame (us : List User) (st : CacheState) :
    ∃ sessions, us.foldl saveAndRevoke st
        = { st with users := st.users.putAll (us.map User.view), sessions } ∧
      ∀ id, sessions.get? id
        = (st.sessions.get? id).filter fun v => !decide (v.userId ∈ us.map User.id) := by
  induction us generalizing st with
  | nil => exact ⟨st.sessions, rfl, fun id => by cases st.sessions.get? id <;> rfl⟩
  | cons u us ih =>
    obtain ⟨sessions, heq, hget⟩ := ih (saveAndRevoke st u)
    refine ⟨sessions, heq, fun id => ?_⟩
    have hone : (saveAndRevoke st u).sessions.get? id
        = (st.sessions.get? id).filter fun v => !decide (v.userId = u.id) :=
      get?_deleteWhere _ _ _
    rw [hget, hone, Option.filter_filter]
    refine congrArg (Option.filter · _) (funext fun v => ?_)
    simp only [map_cons, mem_cons, Bool.decide_or, Bool.not_or]

end RemoteControl.Sync
