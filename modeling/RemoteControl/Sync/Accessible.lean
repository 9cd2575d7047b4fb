import RemoteControl.Sync.AclPreview

/-!
# The devices a client is shown

`accessibleDevices` of `httpapi/inventory.go` picks the devices of a client's list with a
matcher of its own, `inventoryACLAllows`. It asks for an enabled rule that is about the
user, the device and one of three permissions, and there it stops:

> neither the effect of the rule nor its priority is looked at, and nobody asks whether
> the user may log in.

`evaluateACL` asks all of this. Of the two it is the list that is too long: a rule which
denies shows the device it protects.
-/

namespace RemoteControl.Sync

open Lib List

variable {device : Device} {lead : Int64 × String} {l rules rules' : List AclRule} {user : User}

def listingPermissions : List String := ["view", "remote_control", "manage"]

/-- One round of the loop of `inventoryACLAllows`. -/
def AclRule.shows (userId : String) (groups : List String) (device : Device) (rule : AclRule) :
    Bool :=
  let subject := rule.subjectId = "" || (rule.subjectType = "user" && rule.subjectId = userId)
    || (rule.subjectType = "user_group" && rule.subjectId ∈ groups)
  let target := rule.targetId = ""
    || (rule.targetType = "device" && rule.targetId = device.rustdeskId)
    || (rule.targetType = "device_group" && device.groupId ≠ "" && rule.targetId = device.groupId)
  rule.enabled && (subject && target)
    && (rule.permissions.getD []).any fun permission => permission ∈ listingPermissions

def inventoryACLAllows (rules : List AclRule) (userId : String) (groups : List String)
    (device : Device) : Bool :=
  rules.any (AclRule.shows userId groups device)

/-- `accessibleDevices`, on what the repository returns. -/
def accessibleDevices (user : User) (devices : List Device) (rules : List AclRule)
    (memberships : List UserGroupMembership) : List Device :=
  if user.role = "admin" then devices
  else
    let userGroups := activeGroups user.id memberships
    devices.filter fun device =>
      device.ownerUserId = user.id || inventoryACLAllows rules user.id userGroups device

/-! ## The winning effect

`AclScan.found` describes the winner among rules that the handlers accept. The table may
hold others, and so here the loop is followed for any rules at all. -/

/-- The winning priority and effect after one more match. -/
def takeLead (lead : Int64 × String) (rule : AclRule) : Int64 × String :=
  if rule.priority < lead.1 ∨ rule.priority = lead.1 ∧ rule.effect = "deny" then
    (rule.priority, rule.effect)
  else lead

/-- The matches come to a grant: the first of the lowest priority allows, and no other of this
priority denies. -/
def Grants (matching : List AclRule) : Prop :=
  ∃ before rule after, matching = before ++ rule :: after ∧ rule.effect = "allow" ∧
    rule.priority < Int64.maxValue ∧ (∀ r ∈ before, rule.priority < r.priority) ∧
    ∀ r ∈ after, ¬ (r.priority < rule.priority ∨ r.priority = rule.priority ∧ r.effect = "deny")

theorem scan_lead (trace : AclRule → RuleTrace) (rules : List AclRule) :
    ((scanRules trace rules).winningPriority, (scanRules trace rules).winningEffect)
      = (hits trace rules).foldl takeLead (Int64.maxValue, "") := by
  unfold scanRules
  induction rules using List.reverseRecOn with
  | nil => rfl
  | append_singleton rules rule ih =>
    rw [foldl_append, foldl_cons, foldl_nil]
    generalize rules.foldl (AclScan.next trace) .start = scan at ih ⊢
    unfold AclScan.next
    cases he : rule.enabled with
    | false =>
      have hhits : hits trace (rules ++ [rule]) = hits trace rules := by simp [hits, he]
      rw [hhits, ← ih]
      rfl
    | true =>
      cases hm : (trace rule).matched with
      | false =>
        have hhits : hits trace (rules ++ [rule]) = hits trace rules := by simp [hits, hm]
        rw [hhits, ← ih]
        simp only [hm]
        rfl
      | true =>
        have hhits : hits trace (rules ++ [rule]) = hits trace rules ++ [rule] := by
          simp [hits, hm, he]
        rw [hhits, foldl_append, ← ih, foldl_cons, foldl_nil, takeLead]
        simp only [hm, Bool.not_true, Bool.false_eq_true, if_false, if_true]
        split <;> rfl

/-- Nothing that was passed has a priority below the lead. -/
theorem lead_le (l : List AclRule) (lead : Int64 × String) :
    (l.foldl takeLead lead).1 ≤ lead.1 ∧ ∀ r ∈ l, (l.foldl takeLead lead).1 ≤ r.priority := by
  induction l generalizing lead with
  | nil => exact ⟨Int64.le_refl _, nofun⟩
  | cons rule l ih =>
    rw [foldl_cons]
    obtain ⟨hlead, hl⟩ := ih (takeLead lead rule)
    have hstep : (takeLead lead rule).1 ≤ lead.1 ∧ (takeLead lead rule).1 ≤ rule.priority := by
      unfold takeLead
      split
      next h =>
        refine ⟨?_, Int64.le_refl _⟩
        rcases h with hlt | ⟨heq, -⟩
        · exact Int64.le_of_lt hlt
        · exact heq ▸ Int64.le_refl _
      next h => exact ⟨Int64.le_refl _, Int64.not_lt.mp fun hlt => h (.inl hlt)⟩
    refine ⟨Int64.le_trans hlead hstep.1, fun r hr => ?_⟩
    rcases mem_cons.mp hr with rfl | hr
    · exact Int64.le_trans hlead hstep.2
    · exact hl r hr

/-- A priority below all that came before is still free to take the lead. -/
theorem lt_lead {p : Int64} (h : p < lead.1) (hl : ∀ r ∈ l, p < r.priority) :
    p < (l.foldl takeLead lead).1 := by
  induction l generalizing lead with
  | nil => exact h
  | cons r l ih =>
    rw [foldl_cons]
    refine ih ?_ fun r' hr' => hl r' (mem_cons_of_mem _ hr')
    unfold takeLead
    split
    next => exact hl r mem_cons_self
    next => exact h

theorem foldl_takeLead_eq
    (hl : ∀ r ∈ l, ¬ (r.priority < lead.1 ∨ r.priority = lead.1 ∧ r.effect = "deny")) :
    l.foldl takeLead lead = lead := by
  induction l with
  | nil => rfl
  | cons r l ih =>
    rw [foldl_cons, takeLead, if_neg (hl r mem_cons_self)]
    exact ih fun r' hr' => hl r' (mem_cons_of_mem _ hr')

/-- Whoever has the lead took it from what came before, and nothing took it since. -/
theorem lead_cases (l : List AclRule) (lead : Int64 × String) :
    l.foldl takeLead lead = lead ∨
    ∃ (before : List AclRule) (rule : AclRule) (after : List AclRule), l = before ++ rule :: after ∧
      l.foldl takeLead lead = (rule.priority, rule.effect) ∧
      (rule.priority < (before.foldl takeLead lead).1 ∨ rule.effect = "deny") ∧
      ∀ r ∈ after,
        ¬ (r.priority < rule.priority ∨ r.priority = rule.priority ∧ r.effect = "deny") := by
  induction l using List.reverseRecOn with
  | nil => exact .inl rfl
  | append_singleton l rule ih =>
    rw [foldl_append, foldl_cons, foldl_nil]
    by_cases h : rule.priority < (l.foldl takeLead lead).1 ∨
        rule.priority = (l.foldl takeLead lead).1 ∧ rule.effect = "deny"
    · rw [takeLead, if_pos h]
      exact .inr ⟨l, rule, [], rfl, rfl, h.imp_right And.right, nofun⟩
    · rw [takeLead, if_neg h]
      rcases ih with hfirst | ⟨before, r, after, rfl, hr, hbefore, hafter⟩
      · exact .inl hfirst
      · rw [hr] at h
        refine .inr ⟨before, r, after ++ [rule], by simp, hr, hbefore, fun r' hr' => ?_⟩
        rcases mem_append.mp hr' with hr' | hr'
        · exact hafter r' hr'
        · rw [mem_singleton.mp hr']
          exact h

/-- The lead comes to allow, from one that does not. -/
theorem lead_allows_iff (l : List AclRule) (hlead : lead.2 ≠ "allow") :
    (l.foldl takeLead lead).2 = "allow" ↔
      ∃ (before : List AclRule) (rule : AclRule) (after : List AclRule),
        l = before ++ rule :: after ∧ rule.effect = "allow" ∧
        rule.priority < lead.1 ∧ (∀ r ∈ before, rule.priority < r.priority) ∧
        ∀ r ∈ after,
          ¬ (r.priority < rule.priority ∨ r.priority = rule.priority ∧ r.effect = "deny") := by
  constructor
  · intro h
    rcases lead_cases l lead with hfirst | ⟨before, rule, after, rfl, hr, hbefore, hafter⟩
    · rw [hfirst] at h
      exact absurd h hlead
    · rw [hr] at h
      replace h : rule.effect = "allow" := h
      have hlow : rule.priority < (before.foldl takeLead lead).1 := by
        rcases hbefore with hlow | hdeny
        · exact hlow
        · exact absurd (hdeny.symm.trans h) (by decide)
      obtain ⟨hmax, hle⟩ := lead_le before lead
      exact ⟨before, rule, after, rfl, h, Int64.lt_of_lt_of_le hlow hmax,
        fun r hr => Int64.lt_of_lt_of_le hlow (hle r hr), hafter⟩
  · rintro ⟨before, rule, after, rfl, heffect, hmax, hbefore, hafter⟩
    have htakes : takeLead (before.foldl takeLead lead) rule = (rule.priority, rule.effect) :=
      if_pos (.inl (lt_lead hmax hbefore))
    have hstays :
        after.foldl takeLead (rule.priority, rule.effect) = (rule.priority, rule.effect) :=
      foldl_takeLead_eq hafter
    rw [foldl_append, foldl_cons, htakes, hstays]
    exact heffect

theorem grants_iff (l : List AclRule) :
    (l.foldl takeLead (Int64.maxValue, "")).2 = "allow" ↔ Grants l :=
  lead_allows_iff l (by decide)

/-- The preview's rules allow. -/
theorem winningEffect_iff (trace : AclRule → RuleTrace) (rules : List AclRule) :
    (scanRules trace rules).winningEffect = "allow" ↔ Grants (hits trace rules) := by
  rw [← grants_iff, ← scan_lead]

/-! ## The list and the rules -/

section

variable {userId : String} {groups : List String}

/-- A rule shows the device when the preview would call it a match for one of the three
permissions. -/
theorem shows_iff (rule : AclRule) :
    rule.shows userId groups device = true ↔ rule.enabled = true ∧
      ∃ permission ∈ listingPermissions,
        (rule.trace userId groups device permission).matched = true := by
  simp only [AclRule.shows, AclRule.trace, Bool.and_eq_true, any_eq_true, decide_eq_true_eq]
  constructor
  · rintro ⟨⟨he, hmatch⟩, p, hp, hlist⟩
    exact ⟨he, p, hlist, hmatch, hp⟩
  · rintro ⟨he, p, hlist, hmatch, hp⟩
    exact ⟨⟨he, hmatch⟩, p, hp, hlist⟩

theorem inventoryACLAllows_iff (rules : List AclRule) :
    inventoryACLAllows rules userId groups device = true ↔
      ∃ permission ∈ listingPermissions,
        hits (AclRule.trace userId groups device permission) rules ≠ [] := by
  simp only [inventoryACLAllows, any_eq_true, shows_iff]
  constructor
  · rintro ⟨rule, hr, he, p, hp, hm⟩
    have hmem : rule ∈ hits (AclRule.trace userId groups device p) rules :=
      mem_filter.mpr ⟨hr, Bool.and_eq_true_iff.mpr ⟨he, hm⟩⟩
    exact ⟨p, hp, ne_nil_of_mem hmem⟩
  · rintro ⟨p, hp, hne⟩
    obtain ⟨rule, hmem⟩ := exists_mem_of_ne_nil _ hne
    obtain ⟨hr, hmatch⟩ := mem_filter.mp hmem
    obtain ⟨he, hm⟩ := Bool.and_eq_true_iff.mp hmatch
    exact ⟨rule, hr, he, p, hp, hm⟩

theorem inventoryACLAllows_perm (h : rules.Perm rules') :
    inventoryACLAllows rules userId groups device
      = inventoryACLAllows rules' userId groups device :=
  Bool.eq_iff_iff.mpr (by simp only [inventoryACLAllows, any_eq_true, h.mem_iff])

end

theorem mem_accessibleDevices (hrole : user.role ≠ "admin") {devices : List Device}
    (rules : List AclRule) (memberships : List UserGroupMembership) :
    device ∈ accessibleDevices user devices rules memberships ↔ device ∈ devices ∧
      (device.ownerUserId = user.id ∨
        inventoryACLAllows rules user.id (activeGroups user.id memberships) device = true) := by
  rw [accessibleDevices, if_neg hrole, mem_filter, Bool.or_eq_true, decide_eq_true_eq]

theorem evaluationAllowed_iff (hrole : user.role ≠ "admin") (scan : AclScan) :
    evaluationAllowed user scan = true ↔ user.enabled = true ∧ user.approvalStatus = "approved" ∧
      (scan.enabledCount = 0 ∨ scan.winningEffect = "allow") := by
  simp only [evaluationAllowed, hrole, decide_false, Bool.false_or, Bool.and_eq_true,
    Bool.or_eq_true, decide_eq_true_eq, and_assoc]

theorem scan_enabledCount (trace : AclRule → RuleTrace) (rules : List AclRule) :
    (scanRules trace rules).enabledCount = (rules.filter AclRule.enabled).length := by
  unfold scanRules
  induction rules using List.reverseRecOn with
  | nil => rfl
  | append_singleton rules rule ih =>
    rw [foldl_append, foldl_cons, foldl_nil, filter_append, length_append, ← ih]
    unfold AclScan.next
    cases he : rule.enabled with
    | false => simp [he]
    | true =>
      cases hm : (trace rule).matched with
      | false => simp [he, hm]
      | true =>
        simp only [hm, Bool.not_true, Bool.false_eq_true, if_false, if_true]
        split <;> simp [he]

section

variable {devices : List Device} {memberships : List UserGroupMembership}

/-- The evaluation of a rule set that has an enabled rule. -/
theorem evaluation_grants_iff (hrole : user.role ≠ "admin")
    (hd : (devices.find? fun d => d.rustdeskId = device.rustdeskId) = some device)
    {permission : String} (hp : permission ∈ aclPermissions)
    (henabled : ∃ r ∈ rules, r.enabled = true) :
    (∃ e, evaluateACL (some user) devices rules memberships device.rustdeskId permission = .ok e ∧
        e.allowed = true) ↔
      user.enabled = true ∧ user.approvalStatus = "approved" ∧
        Grants (hits (AclRule.trace user.id (activeGroups user.id memberships) device permission)
          rules) := by
  obtain ⟨e, he, hallowed⟩ := evaluateACL_ok user hd hp rules memberships
  have hcount : (scanRules (AclRule.trace user.id (activeGroups user.id memberships) device
      permission) rules).enabledCount ≠ 0 := by
    rw [scan_enabledCount]
    obtain ⟨r, hr, hen⟩ := henabled
    exact length_pos_of_mem (mem_filter.mpr ⟨hr, hen⟩) |>.ne'
  rw [← winningEffect_iff]
  constructor
  · rintro ⟨e', he', hallow⟩
    obtain rfl := Except.ok.inj (he.symm.trans he')
    rw [hallowed, evaluationAllowed_iff hrole] at hallow
    exact ⟨hallow.1, hallow.2.1, hallow.2.2.resolve_left hcount⟩
  · rintro ⟨hen, happ, hwin⟩
    exact ⟨e, he, hallowed.trans ((evaluationAllowed_iff hrole _).mpr ⟨hen, happ, .inr hwin⟩)⟩

/-- A rule that is added puts a device on the list exactly if it matches for the list. -/
theorem listed_by_rule_iff (hrole : user.role ≠ "admin") {memberships : List UserGroupMembership}
    (hdevice : device ∈ devices) {rule : AclRule} (hperm : rules'.Perm (rule :: rules))
    (hout : device ∉ accessibleDevices user devices rules memberships) :
    device ∈ accessibleDevices user devices rules' memberships ↔
      rule.shows user.id (activeGroups user.id memberships) device = true := by
  rw [mem_accessibleDevices hrole] at hout ⊢
  rw [inventoryACLAllows_perm hperm, inventoryACLAllows, any_cons, Bool.or_eq_true]
  constructor
  · rintro ⟨hd, ho | hshows | hrest⟩
    · exact absurd ⟨hd, .inl ho⟩ hout
    · exact hshows
    · exact absurd ⟨hd, .inr hrest⟩ hout
  · intro hshows
    exact ⟨hdevice, .inr (.inl hshows)⟩

/-- **When the list keeps to the rules.** For a user who is not an administrator, a device and
any rules and memberships: that the device is listed only to its owner or to a user whom the
evaluation allows to view, control or manage it, is so exactly when the user owns the device,
or no enabled rule matches for one of the three permissions, or the user may log in and the
matches for one of them come to a grant. A denial that is added makes the device appear
exactly when the device was not on the list and the denial matches. -/
theorem listing_agrees_iff (rules : List AclRule) (memberships : List UserGroupMembership)
    (user : User) (hrole : user.role ≠ "admin") (hkeys : (devices.map Device.rustdeskId).Nodup)
    {device : Device} (hdevice : device ∈ devices) :
    let matching := fun permission =>
      hits (AclRule.trace user.id (activeGroups user.id memberships) device permission) rules
    ((device ∈ accessibleDevices user devices rules memberships →
        device.ownerUserId = user.id ∨ ∃ permission ∈ listingPermissions, ∃ e,
          evaluateACL (some user) devices rules memberships device.rustdeskId permission = .ok e ∧
            e.allowed = true) ↔
      device.ownerUserId = user.id ∨ (∀ permission ∈ listingPermissions, matching permission = []) ∨
        user.enabled = true ∧ user.approvalStatus = "approved" ∧
          ∃ permission ∈ listingPermissions, Grants (matching permission)) ∧
    ∀ rule rules', rule.effect = "deny" → rules'.Perm (rule :: rules) →
      ((device ∉ accessibleDevices user devices rules memberships ∧
          device ∈ accessibleDevices user devices rules' memberships) ↔
        device ∉ accessibleDevices user devices rules memberships ∧
          rule.shows user.id (activeGroups user.id memberships) device = true) := by
  intro matching
  have hfind : (devices.find? fun d => d.rustdeskId = device.rustdeskId) = some device :=
    Table.get?_of_mem (t := ⟨devices, hkeys⟩) hdevice
  have hlisted : ∀ p ∈ listingPermissions, p ∈ aclPermissions := by decide
  refine ⟨?_, fun rule rules' _ hperm =>
    and_congr_right fun hout => listed_by_rule_iff hrole hdevice hperm hout⟩
  · by_cases howner : device.ownerUserId = user.id
    · exact iff_of_true (fun _ => .inl howner) (.inl howner)
    by_cases hnone : ∀ p ∈ listingPermissions, matching p = []
    · refine iff_of_true (fun hin => absurd hin ?_) (.inr (.inl hnone))
      rw [mem_accessibleDevices hrole, inventoryACLAllows_iff]
      rintro ⟨-, ho | ⟨p, hp, hne⟩⟩
      · exact howner ho
      · exact hne (hnone p hp)
    -- the device is listed because of some match, and the match is an enabled rule
    obtain ⟨p, hp, hne⟩ : ∃ p ∈ listingPermissions, matching p ≠ [] := by
      by_contra hno
      exact hnone fun p hp => by_contra fun hne => hno ⟨p, hp, hne⟩
    have henabled : ∃ r ∈ rules, r.enabled = true := by
      obtain ⟨r, hr⟩ := exists_mem_of_ne_nil _ hne
      obtain ⟨hmem, hmatch⟩ := mem_filter.mp hr
      exact ⟨r, hmem, (Bool.and_eq_true_iff.mp hmatch).1⟩
    have hin : device ∈ accessibleDevices user devices rules memberships :=
      (mem_accessibleDevices hrole rules memberships).mpr
        ⟨hdevice, .inr ((inventoryACLAllows_iff rules).mpr ⟨p, hp, hne⟩)⟩
    simp only [hin, forall_const, howner, false_or, hnone]
    constructor
    · rintro ⟨q, hq, hallow⟩
      obtain ⟨hen, happ, hgrant⟩ :=
        (evaluation_grants_iff hrole hfind (hlisted q hq) henabled).mp hallow
      exact ⟨hen, happ, q, hq, hgrant⟩
    · rintro ⟨hen, happ, q, hq, hgrant⟩
      exact ⟨q, hq, (evaluation_grants_iff hrole hfind (hlisted q hq) henabled).mpr
        ⟨hen, happ, hgrant⟩⟩

end

/-! ### A denial that shows a device -/

def otherDevice : Device := { sampleDevice with ownerUserId := "user-2" }

/-- The rule forbids everybody to view any device. -/
def noViewing : AclRule := { sampleRule with permissions := some ["view"], effect := "deny" }

/-- The sample rule grants remote control, and the list agrees with it. -/
theorem granted_device_listed :
    otherDevice ∈ accessibleDevices sampleUser [otherDevice] [sampleRule] [] ∧
      (otherDevice.ownerUserId = "user-1" ∨ ∃ permission ∈ listingPermissions, ∃ e,
        evaluateACL (some sampleUser) [otherDevice] [sampleRule] [] "device-1" permission = .ok e ∧
          e.allowed = true) := by
  have hin : otherDevice ∈ accessibleDevices sampleUser [otherDevice] [sampleRule] [] := by decide
  have hgrants : Grants
      (hits (AclRule.trace "user-1" [] otherDevice "remote_control") [sampleRule]) :=
    ⟨[], sampleRule, [], rfl, rfl, by decide, by simp, by simp⟩
  have hlisting := listing_agrees_iff [sampleRule] [] sampleUser (by decide) (by decide)
    (mem_singleton_self otherDevice)
  refine ⟨hin, hlisting.1.mpr (.inr (.inr ⟨rfl, rfl, "remote_control", by decide, hgrants⟩)) hin⟩

/-- Nobody is shown the device until a rule forbids to view it; the evaluation then allows
nothing that the list stands for. -/
theorem denial_shows_device :
    otherDevice ∉ accessibleDevices sampleUser [otherDevice] [] [] ∧
      otherDevice ∈ accessibleDevices sampleUser [otherDevice] [noViewing] [] ∧
      otherDevice.ownerUserId ≠ sampleUser.id ∧
      ∀ permission ∈ listingPermissions, ∃ e,
        evaluateACL (some sampleUser) [otherDevice] [noViewing] [] "device-1" permission = .ok e ∧
          e.allowed = false := by
  refine ⟨by decide, by decide, by decide, fun p hp => ?_⟩
  simp only [listingPermissions, mem_cons, not_mem_nil, or_false] at hp
  rcases hp with rfl | rfl | rfl
  · exact ⟨_, rfl, by decide⟩
  · exact ⟨_, rfl, by decide⟩
  · exact ⟨_, rfl, by decide⟩

end RemoteControl.Sync
