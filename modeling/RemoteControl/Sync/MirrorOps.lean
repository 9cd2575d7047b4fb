import RemoteControl.Sync.MirrorUsers

/-!
# Operations on groups, rules, strategies, devices and roles

For each of them, when the events it publishes bring a mirroring cache to the new
state of the database. Most of what goes wrong has one of three causes:

> the event of a deleted rule or strategy cannot be decoded, and stops the stream;
> no operation on devices publishes anything; and deleting a role signs its users out
> of the cache but not out of the database.

The conditions are exact, so each theorem also says which requests leave the cache
behind.
-/

namespace RemoteControl.Sync

open Lib List Table Option

variable {f : Device → Device} {m : String → String} {t : Table Device.rustdeskId}

section

variable {c : Checks} {k : Clock} {now : Nat} {s s' : Store} {st : CacheState} {id : String}

section

variable {r : Except StoreError Store} {p : Publication} {C : Prop}

theorem announcing_iff (h : Mirror k now s st)
    (hok : ∀ s', r = .ok s' → (Effect.Mirrored c k now (s', [p]) st ↔ C)) :
    Effect.Mirrored c k now (announcing p s r) st ↔ announcing p s r = (s, []) ∨ C := by
  cases r with
  | error err => exact iff_of_true h.refused (Or.inl rfl)
  | ok s' =>
    refine (hok s' rfl).trans ⟨Or.inr, fun hor => hor.resolve_left fun he => ?_⟩
    exact cons_ne_nil _ _ (congrArg Prod.snd he)

theorem quietly_iff (h : Mirror k now s st) (hok : ∀ s', r = .ok s' → (Mirror k now s' st ↔ C)) :
    Effect.Mirrored c k now (quietly s r) st ↔ quietly s r = (s, []) ∨ C := by
  cases r with
  | error err => exact iff_of_true h.refused (Or.inl rfl)
  | ok s' =>
    refine ⟨fun h₁ => Or.inr ((hok s' rfl).mp h₁), fun hor => hor.elim (fun he => ?_) (hok s' rfl).mpr⟩
    have hs' : s' = s := congrArg Prod.fst he
    rw [hs']
    exact h.refused

end

/-! ## Rules -/

section

variable (h : Mirror k now s st)

include h

theorem saveRule_iff {v row : AclRule} (hrow : row.view = { v.view with deleted := false }) :
    Mirror k now { s with aclRules := s.aclRules.put row } (CacheOp.apply st (.acl v.view)) ↔
      v.deleted = false := by
  have hid : row.id = v.id := congrArg AclRuleState.id hrow
  have hiff : Table.Agree SameRule (s.aclRules.put row)
      (if v.deleted then st.aclRules.remove v.id else st.aclRules.put v.view) ↔
      v.deleted = false := by
    cases hd : v.deleted with
    | true =>
      simp only [if_true, Bool.true_eq_false, iff_false]
      rw [← hid, h.rules.put_remove]
      simp [SameRule]
    | false =>
      simp only [Bool.false_eq_true, if_false, iff_true]
      refine (h.rules.put_put hid).mpr ?_
      rw [SameRule, map_some, hrow, ← hd]
      rfl
  rw [← hiff]
  exact ⟨fun h₁ => h₁.rules, fun hr => { h with rules := hr }⟩

theorem createACLRule_mirrored_iff (body : AclRule) (id : String) (when : Nat) :
    Effect.Mirrored c k now (createACLRule c body id when s) st ↔
      createACLRule c body id when s = (s, []) ∨ body.deleted = false := by
  unfold createACLRule
  cases hv : c.createACLRule body id when with
  | none => exact iff_of_true h.refused (Or.inl rfl)
  | some v =>
    refine announcing_iff h fun s' hs' => ?_
    rw [← (Checks.createACLRule_spec hv).2.2]
    unfold Store.createACLRule at hs'
    split at hs'
    next => cases hs'
    next hnew =>
      cases hs'
      have hnone : s.aclRules.get? v.stored.id = none := not_isSome_iff_eq_none.mp hnew
      simp only [Effect.Mirrored, Effect.applied, performed_aclCreated k.rfc3339 [] hv, performed_nil]
      rw [insert_eq_put hnone]
      exact saveRule_iff h rfl

theorem updateACLRule_mirrored_iff (body : AclRule) (id : String) (when : Nat) :
    Effect.Mirrored c k now (updateACLRule c body id when s) st ↔
      updateACLRule c body id when s = (s, []) ∨ body.deleted = false := by
  unfold updateACLRule
  cases hv : c.updateACLRule body id when with
  | none => exact iff_of_true h.refused (Or.inl rfl)
  | some v =>
    refine announcing_iff h fun s' hs' => ?_
    rw [← (Checks.updateACLRule_spec hv).2.2]
    unfold Store.updateACLRule at hs'
    split at hs'
    next => cases hs'
    next row hg =>
      cases hs'
      simp only [Effect.Mirrored, Effect.applied, performed_aclUpdated k.rfc3339 [] hv, performed_nil]
      exact saveRule_iff h rfl

/-- No deletion of a rule reaches the cache. -/
theorem deleteACLRule_mirrored_iff (id : String) :
    Effect.Mirrored c k now (deleteACLRule id s) st ↔ deleteACLRule id s = (s, []) := by
  refine (announcing_iff (C := False) h fun s' hs' => ?_).trans (iff_of_eq (or_false _))
  unfold Store.deleteACLRule at hs'
  split at hs'
  next => cases hs'
  next row hg =>
    cases hs'
    simp only [Effect.Mirrored, Effect.applied, performed_aclDeleted, iff_false]
    intro h₁
    have hcache := h.rules id
    have hgone := (h.rules.remove_left id).mp h₁.rules
    rw [SameRule] at hcache hgone
    rw [hgone, hg] at hcache
    cases hcache

/-! ## Strategies -/

theorem saveStrategy_iff {v row : Strategy} (hrow : row.view = { v.view with deleted := false })
    (henabled : row.enabled = v.enabled) :
    Mirror k now { s with strategies := s.strategies.put row }
        (CacheOp.apply st (.strategy v.view)) ↔
      v.deleted = false ∨ v.enabled = false := by
  have hid : row.id = v.id := congrArg StrategyState.id hrow
  have hiff : Table.Agree SameStrategy (s.strategies.put row)
      (if v.deleted then st.strategies.remove v.id else st.strategies.put v.view) ↔
      v.deleted = false ∨ v.enabled = false := by
    cases hd : v.deleted with
    | true =>
      simp only [if_true, Bool.true_eq_false, false_or]
      rw [← hid, h.strategies.put_remove, SameStrategy, ← henabled]
      cases he : row.enabled <;> simp [Option.filter, he]
    | false =>
      simp only [Bool.false_eq_true, if_false, true_or, iff_true]
      refine (h.strategies.put_put hid).mpr ?_
      have hview : v.view = row.view := by rw [hrow, ← hd]; rfl
      have hsame : v.view.enabled = row.enabled := henabled.symm
      rw [SameStrategy, hview]
      cases he : row.enabled <;> simp [Option.filter, he, ← hview, hsame]
  rw [← hiff]
  exact ⟨fun h₁ => h₁.strategies, fun hr => { h with strategies := hr }⟩

theorem createStrategy_mirrored_iff (body : Strategy) (id : String) (when : Nat) :
    Effect.Mirrored c k now (createStrategy c body id when s) st ↔
      createStrategy c body id when s = (s, []) ∨ body.deleted = false := by
  unfold createStrategy
  cases hv : c.createStrategy body id when with
  | none => exact iff_of_true h.refused (Or.inl rfl)
  | some v =>
    refine announcing_iff h fun s' hs' => ?_
    rw [← (Checks.createStrategy_spec hv).2.2]
    unfold Store.createStrategy at hs'
    split at hs'
    next => cases hs'
    next hnew =>
      cases hs'
      have hnone : s.strategies.get? { v with deleted := false }.id = none :=
        not_isSome_iff_eq_none.mp hnew
      simp only [Effect.Mirrored, Effect.applied, performed_strategyCreated k.rfc3339 [] hv,
        performed_nil]
      rw [insert_eq_put hnone]
      have henabled : ¬ v.enabled = false := by simp [Checks.createStrategy_enabled hv]
      refine Iff.trans ?_ (or_iff_left henabled)
      exact saveStrategy_iff h rfl rfl

theorem updateStrategy_mirrored_iff (body : Strategy) (id : String) (when : Nat) :
    Effect.Mirrored c k now (updateStrategy c body id when s) st ↔
      updateStrategy c body id when s = (s, []) ∨ body.deleted = false ∨ body.enabled = false := by
  unfold updateStrategy
  cases hv : c.updateStrategy body id when with
  | none => exact iff_of_true h.refused (Or.inl rfl)
  | some v =>
    refine announcing_iff h fun s' hs' => ?_
    rw [← (Checks.updateStrategy_spec hv).2.2, ← Checks.updateStrategy_enabled hv]
    unfold Store.updateStrategy at hs'
    split at hs'
    next => cases hs'
    next row hg =>
      cases hs'
      simp only [Effect.Mirrored, Effect.applied, performed_strategyUpdated k.rfc3339 [] hv,
        performed_nil]
      exact saveStrategy_iff h rfl rfl

/-- The deletion of a strategy reaches the cache only if there was nothing to remove. -/
theorem deleteStrategy_mirrored_iff (id : String) (when : Nat) :
    Effect.Mirrored c k now (deleteStrategy id when s) st ↔
      deleteStrategy id when s = (s, []) ∨
        ∀ row, s.strategies.get? id = some row → row.enabled = false := by
  refine announcing_iff h fun s' hs' => ?_
  unfold Store.deleteStrategy at hs'
  split at hs'
  next => cases hs'
  next row hg =>
    split at hs'
    next => cases hs'
    cases hs'
    obtain rfl : row.id = id := get?_key hg
    simp only [Effect.Mirrored, Effect.applied, performed_strategyDeleted, hg, Option.some.injEq,
      forall_eq']
    have hcache := h.strategies row.id
    have hiff := h.strategies.put_left { row with enabled := false, deleted := true, updatedAt := when }
    rw [SameStrategy] at hcache hiff
    rw [hcache, hg] at hiff
    refine Iff.trans ⟨fun h₁ => h₁.strategies, fun hr => { h with strategies := hr }⟩
      (hiff.trans ?_)
    cases he : row.enabled <;> simp [Option.filter, he]

/-! ## Devices -/

/-- Only groups of devices change: the device `id` goes from `g` to `move id g`. -/
def Moved (t t₁ : Table Device.rustdeskId) (move : String → String → String) : Prop :=
  ∀ id, (t₁.get? id).map (fun d => d.view.facts)
    = (t.get? id).map fun d => (move id d.groupId, d.deployed, d.publicKey)

omit h in
theorem Moved.trans {t₁ t₂ : Table Device.rustdeskId} {m₁ m₂ : String → String → String}
    (h₁ : Moved t t₁ m₁) (h₂ : Moved t₁ t₂ m₂) : Moved t t₂ fun id g => m₂ id (m₁ id g) := by
  intro id
  have hone := h₁ id
  rw [h₂ id]
  -- what the second move yields depends only on the facts after the first
  calc (t₁.get? id).map (fun d => (m₂ id d.groupId, d.deployed, d.publicKey))
      = ((t₁.get? id).map fun d => d.view.facts).map fun x => (m₂ id x.1, x.2) := by
        rw [Option.map_map]; rfl
    _ = _ := by rw [hone, Option.map_map]; rfl

theorem Mirror.moved_iff {devices : Table Device.rustdeskId} {move : String → String → String}
    (hmoved : Moved s.devices devices move) :
    Mirror k now { s with devices } st ↔
      ∀ id d, s.devices.get? id = some d → move id d.groupId = d.groupId := by
  have hiff : Table.Agree SameDevice devices st.devices ↔
      ∀ id d, s.devices.get? id = some d → move id d.groupId = d.groupId := by
    refine forall_congr' fun id => ?_
    have hcache := h.devices id
    rw [SameDevice] at hcache ⊢
    rw [hcache, hmoved id]
    cases s.devices.get? id with
    | none => simp
    | some d =>
      simp only [map_some, Option.some.injEq, forall_eq', DeviceState.facts, Device.view,
        Prod.mk.injEq, and_true]
      exact eq_comm
  rw [← hiff]
  exact ⟨fun h₁ => h₁.devices, fun hd => { h with devices := hd }⟩

omit h in
theorem moved_put {d d₁ : Device} (hg : t.get? id = some d) (hid : d₁.rustdeskId = d.rustdeskId)
    (hfacts : d₁.view.facts = (m d.groupId, d.deployed, d.publicKey)) :
    Moved t (t.put d₁) fun id' g => if id' = id then m g else g := by
  intro id'
  obtain rfl : d.rustdeskId = id := get?_key hg
  rw [get?_put, hid]
  by_cases he : d.rustdeskId = id'
  · subst he
    simp [hg, hfacts]
  · simp only [if_neg he, if_neg (Ne.symm he)]
    rfl

omit h in
/-- An update of one device that may put it in another group. -/
theorem withDevice_moved {d' : Device} (h : s.withDevice id f = .ok (d', s'))
    (hid : ∀ d, (f d).rustdeskId = d.rustdeskId)
    (hfacts : ∀ d, (f d).view.facts = (m d.groupId, d.deployed, d.publicKey)) :
    ∃ devices, s' = { s with devices } ∧
      Moved s.devices devices fun id' g => if id' = id then m g else g := by
  unfold Store.withDevice updateRow at h
  cases hg : s.devices.get? id with
  | none => simp [hg, Except.map] at h
  | some d =>
    simp only [hg, Except.map, Except.ok.injEq, Prod.mk.injEq] at h
    exact ⟨s.devices.put (f d), h.2.symm, moved_put hg (hid d) (hfacts d)⟩

theorem Mirror.withDevice_iff {r : Except StoreError Store}
    (hr : r = (s.withDevice id f).map Prod.snd) (hid : ∀ d, (f d).rustdeskId = d.rustdeskId)
    (hfacts : ∀ d, (f d).view.facts = (m d.groupId, d.deployed, d.publicKey)) :
    Effect.Mirrored c k now (quietly s r) st ↔
      quietly s r = (s, []) ∨ ∀ d, s.devices.get? id = some d → m d.groupId = d.groupId := by
  refine quietly_iff h fun s' hs' => ?_
  rw [hr] at hs'
  cases hu : s.withDevice id f with
  | error err => simp [hu, Except.map] at hs'
  | ok r =>
    obtain ⟨d', s₁⟩ := r
    obtain rfl : s₁ = s' := by simpa [hu, Except.map] using hs'
    obtain ⟨devices, rfl, hmoved⟩ := withDevice_moved hu hid hfacts
    rw [h.moved_iff hmoved]
    constructor
    · intro hall d hd
      have hgroup := hall id d hd
      rwa [if_pos rfl] at hgroup
    · intro hall id' d hd
      split
      · next he => exact hall d (he ▸ hd)
      · rfl

theorem updateDevice_mirrored_iff (id newAlias groupId : String) (tags : Option (List String)) :
    Effect.Mirrored c k now (updateDevice id newAlias groupId tags s) st ↔
      updateDevice id newAlias groupId tags s = (s, []) ∨
        ∀ d, s.devices.get? id = some d → groupId = d.groupId :=
  h.withDevice_iff (m := fun _ => groupId) rfl (fun _ => rfl) fun _ => rfl

theorem setDeviceArchived_mirrored (id : String) (archived : Bool) (when : Nat) :
    Effect.Mirrored c k now (setDeviceArchived id archived when s) st := by
  have hiff : Effect.Mirrored c k now (setDeviceArchived id archived when s) st ↔ _ :=
    h.withDevice_iff (m := fun g => g) rfl (fun _ => rfl) fun _ => rfl
  exact hiff.mpr (Or.inr fun _ _ => rfl)

/-- A device that is deleted stays in the cache. -/
theorem deleteArchivedDevice_mirrored_iff (id : String) :
    Effect.Mirrored c k now (deleteArchivedDevice id s) st ↔
      deleteArchivedDevice id s = (s, []) := by
  refine (quietly_iff (C := False) h fun s' hs' => ?_).trans (iff_of_eq (or_false _))
  unfold Store.deleteArchivedDevice at hs'
  split at hs'
  next => cases hs'
  next d hg =>
    split at hs'
    next => cases hs'
    cases hs'
    rw [iff_false]
    intro h₁
    have hcache := h.devices id
    have hgone := (h.devices.remove_left id).mp h₁.devices
    rw [SameDevice] at hcache hgone
    rw [hgone, hg] at hcache
    cases hcache

/-! ### Many devices -/

omit h in
theorem bulkUpdateDevices_moved {trimSpace : String → String} {groupId : Option String}
    {addTags removeTags ids : List String}
    (h : s.bulkUpdateDevices trimSpace groupId addTags removeTags ids = .ok s') :
    ∃ devices, s' = { s with devices } ∧
      Moved s.devices devices fun id g => if id ∈ ids then groupId.getD g else g := by
  induction ids generalizing s with
  | nil =>
    obtain rfl := Except.ok.inj h
    exact ⟨s.devices, rfl, fun id => by simp only [not_mem_nil, if_false]; rfl⟩
  | cons id ids ih =>
    unfold Store.bulkUpdateDevices at h
    simp only [bind, Except.bind] at h
    split at h
    next => cases h
    next r hu =>
      obtain ⟨d', s₁⟩ := r
      obtain ⟨devices₁, rfl, hone⟩ :=
        withDevice_moved (m := groupId.getD) hu (fun _ => rfl) (fun _ => rfl)
      obtain ⟨devices, rfl, hrest⟩ := ih h
      refine ⟨devices, rfl, ?_⟩
      convert hone.trans hrest using 3 with id' g
      cases groupId <;> simp only [Option.getD, mem_cons] <;> grind

theorem bulkUpdateDevices_mirrored_iff (ids : List String) (groupId : Option String)
    (addTags removeTags : List String) :
    Effect.Mirrored c k now (bulkUpdateDevices c ids groupId addTags removeTags s) st ↔
      bulkUpdateDevices c ids groupId addTags removeTags s = (s, []) ∨
        ∀ id ∈ ids, ∀ d, s.devices.get? id = some d → groupId.getD d.groupId = d.groupId := by
  unfold bulkUpdateDevices
  split
  next =>
    refine quietly_iff h fun s' hs' => ?_
    obtain ⟨devices, rfl, hmoved⟩ := bulkUpdateDevices_moved hs'
    rw [h.moved_iff hmoved]
    refine forall_congr' fun id => ⟨fun hall hid d hd => ?_, fun hall d hd => ?_⟩
    · have hgroup := hall d hd
      rwa [if_pos hid] at hgroup
    · split
      · next hid => exact hall hid d hd
      · rfl
  next => exact iff_of_true h.refused (Or.inl rfl)

omit h in
theorem importDeviceManagement_moved {values : List DeviceManagementImport}
    (hn : (values.map (·.rustdeskId)).Nodup) (h : s.importDeviceManagement values = .ok s') :
    ∃ devices move, s' = { s with devices } ∧ Moved s.devices devices move ∧
      (∀ v ∈ values, ∀ g, move v.rustdeskId g = v.groupId) ∧
      ∀ id, id ∉ values.map (·.rustdeskId) → ∀ g, move id g = g := by
  induction values generalizing s with
  | nil =>
    obtain rfl := Except.ok.inj h
    exact ⟨s.devices, fun _ g => g, rfl, fun _ => rfl, by simp, fun _ _ _ => rfl⟩
  | cons v vs ih =>
    rw [map_cons, nodup_cons] at hn
    unfold Store.importDeviceManagement at h
    split at h
    next => cases h
    next d hg =>
      split at h
      next => cases h
      obtain ⟨devices, move, rfl, hmoved, hin, hout⟩ := ih hn.2 h
      refine ⟨devices, _, rfl, Moved.trans (moved_put (m := fun _ => v.groupId) hg ?_ ?_) hmoved,
        ?_, ?_⟩
      · rfl
      · rfl
      · intro v' hv' g
        rcases mem_cons.mp hv' with rfl | hv'
        · rw [hout _ hn.1, if_pos rfl]
        · exact hin v' hv' _
      · intro id hid g
        rw [map_cons, mem_cons, not_or] at hid
        rw [hout _ hid.2, if_neg hid.1]

theorem importDevicesCSV_mirrored_iff (values : List DeviceManagementImport) :
    Effect.Mirrored c k now (importDevicesCSV values s) st ↔
      importDevicesCSV values s = (s, []) ∨
        ∀ v ∈ values, ∀ d, s.devices.get? v.rustdeskId = some d → v.groupId = d.groupId := by
  unfold importDevicesCSV
  split
  next hvalid =>
    refine quietly_iff h fun s' hs' => ?_
    obtain ⟨devices, move, rfl, hmoved, hin, hout⟩ := importDeviceManagement_moved hvalid.1 hs'
    rw [h.moved_iff hmoved]
    constructor
    · intro hall v hv d hd
      rw [← hin v hv d.groupId]
      exact hall _ d hd
    · intro hall id d hd
      by_cases hid : id ∈ values.map (·.rustdeskId)
      · obtain ⟨v, hv, rfl⟩ := mem_map.mp hid
        exact (hin v hv _).trans (hall v hv d hd)
      · exact hout id hid _
  next => exact iff_of_true h.refused (Or.inl rfl)

/-! ## Groups -/

theorem Mirror.withGroups (groups : Table Group.id) : Mirror k now { s with groups } st :=
  ⟨h.users, h.sessions, h.members, h.rules, h.strategies, h.devices⟩

theorem createGroup_mirrored (group : Group) :
    Effect.Mirrored c k now (createGroup group s) st := by
  refine (quietly_iff (C := True) h fun s' hs' => ?_).mpr (Or.inr trivial)
  unfold Store.createGroup at hs'
  split at hs'
  next => cases hs'
  cases hs'
  exact iff_of_true (h.withGroups _) trivial

theorem updateGroup_mirrored (id name description : String) :
    Effect.Mirrored c k now (updateGroup id name description s) st := by
  unfold updateGroup
  split
  next => exact h.refused
  next =>
    refine (quietly_iff (C := True) h fun s' hs' => ?_).mpr (Or.inr trivial)
    unfold Store.updateGroup at hs'
    split at hs'
    next => cases hs'
    split at hs'
    next => cases hs'
    cases hs'
    exact iff_of_true (h.withGroups _) trivial

theorem setGroupMember_mirrored (groupId userId : String) (active : Bool) :
    Effect.Mirrored c k now (setGroupMember groupId userId active s) st := by
  unfold setGroupMember
  split
  next =>
    simp only [Effect.Mirrored, Effect.applied, performed_membershipSet, performed_nil]
    have hmembers : SameMembers (s.setUserGroupMember groupId userId active).memberships
        (CacheOp.apply st (.membership (UserGroupMembership.view ⟨groupId, userId, active⟩))) := by
      intro g u
      rw [mem_groupsOf_event, h.members g u]
      unfold Store.setUserGroupMember
      cases active with
      | true =>
        simp only [if_true, get?_insert_isSome, MemberRow.key, Prod.mk.injEq]
        grind
      | false =>
        simp only [Bool.false_eq_true, if_false, get?_remove, Prod.mk.injEq]
        grind
    exact { h with members := hmembers }
  next => exact h.refused

end

theorem mem_groupsOf_deleted (h : SameMembers s.memberships st) (id : String) :
    SameMembers (s.memberships.deleteWhere fun m => m.groupId = id)
      (((s.listUserGroupMemberships.filter fun m => m.groupId = id).map
        fun m => { m with active := false }).foldl
        (fun st m => CacheOp.apply st (.membership m.view)) st) := by
  intro g u
  rw [mem_groupsOf_leave (forall_mem_map.mpr fun _ _ => rfl), h g u, get?_deleteWhere_isSome]
  refine and_congr_right fun hrow => ?_
  rw [decide_eq_false_iff_not]
  constructor
  · rintro hnone rfl
    refine hnone ⟨g, u, false⟩ (mem_map.mpr ⟨⟨g, u, true⟩, ?_, rfl⟩) ⟨rfl, rfl⟩
    refine mem_filter.mpr ⟨mem_map.mpr ⟨⟨g, u⟩, ?_, rfl⟩, decide_eq_true rfl⟩
    obtain ⟨⟨g', u'⟩, hget⟩ := isSome_iff_exists.mp hrow
    obtain ⟨hmem, hkey⟩ := get?_eq_some.mp hget
    cases hkey
    exact hmem
  · rintro hne m hm ⟨rfl, -⟩
    obtain ⟨m', hm', rfl⟩ := mem_map.mp hm
    exact hne (of_decide_eq_true (mem_filter.mp hm').2)

theorem deletedGroup_performed (s : Store) (id : String) :
    performed c k.rfc3339
      ((s.listUserGroupMemberships.filter fun m => m.groupId = id).map
          (fun m => Publication.membershipSet { m with active := false })
        ++ (s.aclRules.rows.filter (AclRule.names id)).map (fun v => Publication.aclDeleted v.id)
        ++ (s.strategies.rows.filter (Strategy.names id)).map
          (fun v => Publication.strategyDeleted v.id)
        ++ (s.devices.rows.filter fun d => d.groupId = id).map
          (fun d => Publication.deviceSaved { d with groupId := "" }))
      = ((s.listUserGroupMemberships.filter fun m => m.groupId = id).map
          fun m => { m with active := false }).map (fun m => CacheOp.membership m.view)
        ++ if s.aclRules.rows.filter (AclRule.names id) = [] then
            if s.strategies.rows.filter (Strategy.names id) = [] then
              (s.devices.rows.filter fun d => d.groupId = id).map
                fun d => CacheOp.device { d with groupId := "" }.view
            else []
          else [] := by
  rw [append_assoc, append_assoc,
    performed_map_append c k.rfc3339 (fun m ps => performed_membershipSet c k.rfc3339 ps _),
    performed_map_stuck c k.rfc3339 (fun v ps => performed_aclDeleted c k.rfc3339 ps v.id),
    performed_map_stuck c k.rfc3339 (fun v ps => performed_strategyDeleted c k.rfc3339 ps v.id),
    performed_map c k.rfc3339 (fun d ps => performed_deviceSaved c k.rfc3339 ps _), List.map_map]
  rfl

section

variable (h : Mirror k now s st) {userGroups : Table UserGroups.userId}
  (hmembers : SameMembers (s.withoutGroup id).memberships { st with userGroups })

include h hmembers

/-- Only the memberships reach the cache. -/
theorem withoutGroup_stuck_iff :
    Mirror k now (s.withoutGroup id) { st with userGroups } ↔
      (∀ v ∈ s.aclRules.rows, v.names id = false) ∧
        (∀ v ∈ s.strategies.rows, v.enabled = true → v.names id = false) ∧
          ∀ d ∈ s.devices.rows, d.groupId = id → id = "" := by
  have hdevices := devices_updated_iff h.devices (p := fun d => d.groupId = id)
    (f := fun d => { d with groupId := "" }) fun _ => rfl
  have hfacts : ∀ d : Device, ({ d with groupId := "" }.view.facts = d.view.facts ↔ "" = d.groupId) :=
    fun d => by simp [DeviceState.facts, Device.view]
  simp only [decide_eq_true_eq, hfacts] at hdevices
  rw [← rules_deleted_iff h.rules, ← strategies_deleted_iff h.strategies]
  constructor
  · intro h₁
    refine ⟨h₁.rules, h₁.strategies, fun d hd he => ?_⟩
    exact he ▸ (hdevices.mp h₁.devices d hd he).symm
  · rintro ⟨hrules, hstrategies, hnone⟩
    refine ⟨h.users, h.sessions, hmembers, hrules, hstrategies, hdevices.mpr fun d hd he => ?_⟩
    exact (he.trans (hnone d hd he)).symm

/-- The events of the devices reach it too. -/
theorem withoutGroup_saved (hrules : ∀ v ∈ s.aclRules.rows, v.names id = false)
    (hstrategies : ∀ v ∈ s.strategies.rows, v.names id = false) :
    Mirror k now (s.withoutGroup id)
      (((s.devices.rows.filter fun d => d.groupId = id).map
        fun d => CacheOp.device { d with groupId := "" }.view).foldl CacheOp.apply
        { st with userGroups }) := by
  have hframe := devices_frame
    ((s.devices.rows.filter fun d => d.groupId = id).map fun d => { d with groupId := "" })
    { st with userGroups }
  rw [foldl_map] at hframe ⊢
  rw [hframe]
  refine ⟨h.users, h.sessions, hmembers, (rules_deleted_iff h.rules).mpr hrules,
    (strategies_deleted_iff h.strategies).mpr fun v hv _ => hstrategies v hv, ?_⟩
  exact h.devices.update_putAll (p := fun d => d.groupId = id)
    (f := fun d => { d with groupId := "" }) (fun _ => rfl) (fun _ => rfl) fun _ => rfl

end

/-- The rules that named the group stay in the cache, as do the strategies; and with either of
them the events of the devices are never reached. -/
theorem deleteGroup_mirrored_iff (h : Mirror k now s st) (id : String) :
    Effect.Mirrored c k now (deleteGroup id s) st ↔
      deleteGroup id s = (s, []) ∨
        (∀ v ∈ s.aclRules.rows, v.names id = false) ∧
          ((∀ v ∈ s.strategies.rows, v.names id = false) ∨
            (∀ v ∈ s.strategies.rows, v.enabled = true → v.names id = false) ∧
              ∀ d ∈ s.devices.rows, d.groupId = id → id = "") := by
  unfold deleteGroup
  by_cases hsys : systemGroup id = true
  · simp only [if_pos hsys]
    exact iff_of_true h.refused (Or.inl trivial)
  simp only [if_neg hsys]
  unfold Store.deleteGroup
  cases hg : s.groups.get? id with
  | none => exact iff_of_true h.refused (Or.inl rfl)
  | some group =>
    obtain ⟨userGroups, heq⟩ := membership_frame
      ((s.listUserGroupMemberships.filter fun m => m.groupId = id).map
        fun m => { m with active := false }) st
    have hmembers := mem_groupsOf_deleted h.members id
    rw [heq] at hmembers
    have hchanged : s.withoutGroup id ≠ s := fun he => by
      have hgone : (s.withoutGroup id).groups.get? id = none := get?_remove_self _ _
      rw [he, hg] at hgone
      cases hgone
    have hstuck := withoutGroup_stuck_iff h hmembers
    have hsaved := withoutGroup_saved h hmembers
    simp only [Effect.Mirrored, Effect.applied]
    rw [deletedGroup_performed, foldl_append, foldl_map, heq]
    refine Iff.trans ?_ (or_iff_right fun he => hchanged (congrArg Prod.fst he)).symm
    have hnil {α : Type} (l : List α) (p : α → Bool) : l.filter p = [] ↔ ∀ a ∈ l, p a = false := by
      simp [filter_eq_nil_iff]
    simp only [hnil]
    by_cases hrules : ∀ v ∈ s.aclRules.rows, v.names id = false
    · by_cases hstrategies : ∀ v ∈ s.strategies.rows, v.names id = false
      · rw [if_pos hrules, if_pos hstrategies]
        exact iff_of_true (hsaved hrules hstrategies) ⟨hrules, Or.inl hstrategies⟩
      · rw [if_pos hrules, if_neg hstrategies]
        exact hstuck.trans (and_congr_right fun _ => (or_iff_right hstrategies).symm)
    · rw [if_neg hrules]
      exact iff_of_false (fun h₁ => hrules (hstuck.mp h₁).1) fun h₁ => hrules h₁.1

/-! ## Roles and settings -/

theorem foldl_savedUsers (us : List User) (st : CacheState) :
    (performed c k.rfc3339 (us.flatMap fun u => [.userSaved u, .sessionsRevoked u.id])).foldl
      CacheOp.apply st = us.foldl saveAndRevoke st := by
  induction us generalizing st with
  | nil => rfl
  | cons u us ih =>
    simp only [flatMap_cons, cons_append, nil_append, performed_userSaved,
      performed_sessionsRevoked, foldl_cons]
    exact ih (saveAndRevoke st u)

def User.withoutRole (u : User) : User :=
  { u with role := "user", tokenVersion := u.tokenVersion + 1 }

/-- Each user that had the role is found again, with what it has now. -/
theorem announceUsers_eq {us : List User} (hus : ∀ u ∈ us, s.users.get? u.id = some u.withoutRole) :
    s.announceUsers us
      = (us.map User.withoutRole).flatMap fun u => [.userSaved u, .sessionsRevoked u.id] := by
  unfold Store.announceUsers
  rw [flatMap_map]
  refine flatMap_congr fun u hu => ?_
  rw [hus u hu]
  rfl

/-- The cache drops the sessions of the users that had the role, the database keeps them. -/
theorem deleteRole_mirrored_iff (h : Mirror k now s st) (id : String) :
    Effect.Mirrored c k now (deleteRole id s) st ↔
      deleteRole id s = (s, []) ∨
        ∀ v ∈ s.sessions.rows, v.live now = true →
          ∀ u ∈ s.users.rows, u.role = id → u.id ≠ v.userId := by
  unfold deleteRole Store.deleteRole
  cases hg : s.roles.get? id with
  | none => exact iff_of_true h.refused (Or.inl rfl)
  | some role =>
    by_cases hsystem : role.system = true
    · simp only [if_pos hsystem]
      exact iff_of_true h.refused (Or.inl trivial)
    · simp only [if_neg hsystem]
      refine Iff.trans ?_ (or_iff_right fun he => ?_).symm
      · simp only [Effect.Mirrored, Effect.applied]
        rw [announceUsers_eq, foldl_savedUsers]
        · obtain ⟨sessions, heq, hget⟩ := saveAndRevoke_frame
            ((s.users.rows.filter fun u => u.role = id).map User.withoutRole) st
          have husers := h.users.update_putAll (p := fun u => u.role = id) (f := User.withoutRole)
            (fun _ => rfl) (fun _ => rfl) sameUser_view
          have hsessions := sessions_dropped_iff
            (p := fun u => decide
              (u ∈ ((s.users.rows.filter fun u => u.role = id).map User.withoutRole).map User.id))
            h.sessions hget
          rw [heq]
          refine Iff.trans ⟨fun h₁ => h₁.sessions, fun hs => ?_⟩ (hsessions.trans ?_)
          · exact ⟨husers, hs, h.members, h.rules, h.strategies, h.devices⟩
          · refine forall₂_congr fun v _ => imp_congr_right fun _ => ?_
            simp [User.withoutRole]
        · intro u hu
          obtain ⟨hmem, hrole⟩ := mem_filter.mp hu
          rw [get?_updateWhere, get?_of_mem hmem, map_some, if_pos hrole]
          rfl
      · have hgone : (s.roles.remove id).get? id = none := get?_remove_self _ _
        have hsame : s.roles.remove id = s.roles := congrArg (fun e : Effect => e.1.roles) he
        rw [hsame, hg] at hgone
        cases hgone

theorem updateSettings_mirrored (h : Mirror k now s st)
    (requireLogin requireDeviceDeployment : Option Bool) :
    Effect.Mirrored c k now (updateSettings requireLogin requireDeviceDeployment s) st := by
  simp only [updateSettings, Effect.Mirrored, Effect.applied, performed_configured, performed_nil]
  exact ⟨h.users, h.sessions, h.members, h.rules, h.strategies, h.devices⟩

end

end RemoteControl.Sync
