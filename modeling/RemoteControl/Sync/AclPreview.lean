import RemoteControl.Sync.MirrorAdmin
import RemoteControl.Sync.Policy

/-!
# The preview of the rules

`evaluateACL` of `httpapi/server.go` tells an administrator what the rules say about a
user and a device. It goes through the rules once and keeps the best match so far, where
HBBS sorts the matches and takes the first. Both come to a rule of the least rank:

> a match of the lowest priority, and a denial if there is one of that priority.

They part ways where there are rules but none is enabled. To HBBS the set of rules is
then not empty and nothing matches; the preview counts the enabled ones and finds none
configured.
-/

namespace RemoteControl.Sync

open Lib List Table

variable {r v : AclRule} {c : Checks} {device : Device} {rules : List AclRule}
  {memberships : List UserGroupMembership}

structure HttpError where
  status : Nat
  message : String
deriving DecidableEq, Repr

/-- An entry of `matched_rules`. -/
structure RuleTrace where
  ruleId : String
  name : String
  priority : Int64
  effect : String
  subjectMatched : Bool
  targetMatched : Bool
  permissionMatched : Bool
  matched : Bool
deriving DecidableEq, Repr

structure AclEvaluation where
  allowed : Bool
  reason : String
  winningEffect : String
  winningPriority : Int64
  matchedRuleIds : List String
  matchedRules : List RuleTrace
  enabledRuleCount : Nat
  userId : String
  userGroupIds : List String
  targetId : String
  targetGroupId : String
  permission : String
deriving DecidableEq, Repr

def AclRule.trace (userId : String) (userGroups : List String) (device : Device)
    (permission : String) (rule : AclRule) : RuleTrace :=
  let subject := rule.subjectId = "" || (rule.subjectType = "user" && rule.subjectId = userId)
    || (rule.subjectType = "user_group" && rule.subjectId ∈ userGroups)
  let target := rule.targetId = "" || (rule.targetType = "device" && rule.targetId = device.rustdeskId)
    || (rule.targetType = "device_group" && device.groupId ≠ "" && rule.targetId = device.groupId)
  let permissionMatched := permission ∈ rule.permissions.getD []
  ⟨rule.id, rule.name, rule.priority, rule.effect, subject, target, permissionMatched,
    subject && target && permissionMatched⟩

/-- The variables of the loop over the rules. -/
structure AclScan where
  matched : List String
  trace : List RuleTrace
  enabledCount : Nat
  winningPriority : Int64
  winningEffect : String

/-- No priority is greater than the one the loop starts with. -/
def AclScan.start : AclScan := ⟨[], [], 0, Int64.maxValue, ""⟩

def AclScan.next (trace : AclRule → RuleTrace) (scan : AclScan) (rule : AclRule) : AclScan :=
  if !rule.enabled then scan
  else
    let t := trace rule
    let scan := { scan with enabledCount := scan.enabledCount + 1, trace := scan.trace ++ [t] }
    if t.matched then
      let scan := { scan with matched := scan.matched ++ [rule.id] }
      if rule.priority < scan.winningPriority
          ∨ rule.priority = scan.winningPriority ∧ rule.effect = "deny" then
        { scan with winningPriority := rule.priority, winningEffect := rule.effect }
      else scan
    else scan

def scanRules (trace : AclRule → RuleTrace) (rules : List AclRule) : AclScan :=
  rules.foldl (AclScan.next trace) .start

def evaluationAllowed (user : User) (scan : AclScan) : Bool :=
  user.enabled && user.approvalStatus = "approved"
    && (user.role = "admin" || scan.enabledCount = 0 || scan.winningEffect = "allow")

def evaluationReason (user : User) (scan : AclScan) : String :=
  if !user.enabled then "user_disabled"
  else if user.approvalStatus ≠ "approved" then "user_not_approved"
  else if user.role = "admin" then "administrator_bypass"
  else if scan.enabledCount = 0 then "no_acl_rules_configured"
  else if scan.winningEffect = "deny" then "explicit_deny"
  else if !evaluationAllowed user scan then "no_matching_acl_rule"
  else "matched_acl_rule"

/-- The groups of a user, as the handler collects them. -/
def activeGroups (userId : String) (memberships : List UserGroupMembership) : List String :=
  (memberships.filter fun m => m.active && m.userId = userId).map UserGroupMembership.groupId

/-- `evaluateACL`, on what the repository returns: the user of the request, and the lists
of devices, rules and memberships. -/
def evaluateACL (user? : Option User) (devices : List Device) (rules : List AclRule)
    (memberships : List UserGroupMembership) (targetId permission : String) :
    Except HttpError AclEvaluation :=
  match user? with
  | none => .error ⟨404, "user not found"⟩
  | some user =>
    if permission ∉ aclPermissions then .error ⟨400, "invalid permission"⟩
    else
      match devices.find? fun d => d.rustdeskId = targetId with
      | none => .error ⟨404, "device not found"⟩
      | some device =>
        let userGroups := activeGroups user.id memberships
        let scan := scanRules (AclRule.trace user.id userGroups device permission) rules
        .ok {
          allowed := evaluationAllowed user scan
          reason := evaluationReason user scan
          winningEffect := scan.winningEffect
          winningPriority := scan.winningPriority
          matchedRuleIds := scan.matched
          matchedRules := scan.trace
          enabledRuleCount := scan.enabledCount
          userId := user.id
          userGroupIds := userGroups
          targetId := device.rustdeskId
          targetGroupId := device.groupId
          permission := permission }

theorem evaluateACL_ok (user : User) {devices : List Device} {permission : String}
    (hd : (devices.find? fun d => d.rustdeskId = device.rustdeskId) = some device)
    (hp : permission ∈ aclPermissions) (rules : List AclRule)
    (memberships : List UserGroupMembership) :
    ∃ e, evaluateACL (some user) devices rules memberships device.rustdeskId permission = .ok e ∧
      e.allowed = evaluationAllowed user (scanRules
        (AclRule.trace user.id (activeGroups user.id memberships) device permission) rules) := by
  simp only [evaluateACL, hp, not_true_eq_false, if_false, hd]
  exact ⟨_, rfl, rfl⟩

/-! ## The loop -/

/-- The rank HBBS gives a rule. -/
def AclRule.rank (rule : AclRule) : ℤ ×ₗ Bool := toLex (rule.priority.toInt, rule.effect ≠ "deny")

theorem AclRule.rank_le {r' : AclRule} :
    r.rank ≤ r'.rank ↔ r.priority.toInt < r'.priority.toInt ∨
      r.priority.toInt = r'.priority.toInt ∧ (r'.effect = "deny" → r.effect = "deny") := by
  rw [AclRule.rank, AclRule.rank, Prod.Lex.toLex_le_toLex]
  refine or_congr_right (and_congr_right fun _ => ?_)
  by_cases h : r.effect = "deny" <;> by_cases h' : r'.effect = "deny" <;> simp [h, h']

/-- The enabled rules that match. -/
def hits (trace : AclRule → RuleTrace) (rules : List AclRule) : List AclRule :=
  rules.filter fun r => r.enabled && (trace r).matched

/-- What the loop has found in the rules it went through. -/
structure AclScan.Found (trace : AclRule → RuleTrace) (rules : List AclRule) (scan : AclScan) :
    Prop where
  enabled : scan.enabledCount = (rules.filter AclRule.enabled).length
  nothing : hits trace rules = [] → scan.winningPriority = Int64.maxValue ∧ scan.winningEffect = ""
  winner : hits trace rules ≠ [] → ∃ r, Least AclRule.rank (hits trace rules) r ∧
    scan.winningPriority = r.priority ∧ scan.winningEffect = r.effect

section

variable {trace : AclRule → RuleTrace} {scan : AclScan} {rule : AclRule}

/-- A match that does not take the lead leaves it to the rule that has it, and one that does
has a rank no greater. -/
theorem Least.concat {l : List AclRule} (h : Least AclRule.rank l r) :
    (rule.priority < r.priority ∨ rule.priority = r.priority ∧ rule.effect = "deny" →
      Least AclRule.rank (l ++ [rule]) rule) ∧
    (¬ (rule.priority < r.priority ∨ rule.priority = r.priority ∧ rule.effect = "deny") →
      Least AclRule.rank (l ++ [rule]) r) := by
  have hmem : ∀ b, b ∈ l ++ [rule] ↔ b ∈ l ∨ b = rule := by simp
  constructor
  · intro hlead
    have hle : rule.rank ≤ r.rank := by
      rw [AclRule.rank_le]
      refine hlead.imp Int64.lt_iff_toInt_lt.mp fun ⟨hp, hd⟩ => ?_
      exact ⟨by rw [hp], fun _ => hd⟩
    refine ⟨(hmem _).mpr (.inr rfl), fun b hb => ?_⟩
    rcases (hmem b).mp hb with hb | rfl
    · exact le_trans hle (h.2 b hb)
    · exact le_refl _
  · intro hnot
    rw [not_or, Int64.lt_iff_toInt_lt, not_lt, not_and] at hnot
    have hle : r.rank ≤ rule.rank := by
      rw [AclRule.rank_le]
      rcases lt_or_eq_of_le hnot.1 with hlt | heq
      · exact .inl hlt
      · refine .inr ⟨heq, fun hd => absurd hd (hnot.2 ?_)⟩
        exact Int64.toInt_inj.mp heq.symm
    refine ⟨(hmem _).mpr (.inl h.1), fun b hb => ?_⟩
    rcases (hmem b).mp hb with hb | rfl
    · exact h.2 b hb
    · exact hle

theorem AclScan.Found.next (h : scan.Found trace rules) (hp : rule.priority < Int64.maxValue) :
    (scan.next trace rule).Found trace (rules ++ [rule]) := by
  unfold AclScan.next
  cases he : rule.enabled with
  | false =>
    have hhits : hits trace (rules ++ [rule]) = hits trace rules := by simp [hits, he]
    refine ⟨?_, by rw [hhits]; exact h.nothing, by rw [hhits]; exact h.winner⟩
    simpa [he] using h.enabled
  | true =>
    have hcount : scan.enabledCount + 1 = ((rules ++ [rule]).filter AclRule.enabled).length := by
      simp [he, h.enabled]
    cases hm : (trace rule).matched with
    | false =>
      have hhits : hits trace (rules ++ [rule]) = hits trace rules := by simp [hits, hm]
      simp only [hm]
      exact ⟨hcount, by rw [hhits]; exact h.nothing, by rw [hhits]; exact h.winner⟩
    | true =>
      have hhits : hits trace (rules ++ [rule]) = hits trace rules ++ [rule] := by
        simp [hits, hm, he]
      simp only [hm, Bool.not_true, Bool.false_eq_true, if_false, if_true]
      have hne : hits trace (rules ++ [rule]) ≠ [] := by rw [hhits]; simp
      by_cases hnone : hits trace rules = []
      · -- the first match takes the lead from the priority the loop starts with
        obtain ⟨hprio, -⟩ := h.nothing hnone
        rw [if_pos (.inl (by rw [hprio]; exact hp))]
        refine ⟨hcount, fun hn => absurd hn hne, fun _ => ⟨rule, ?_, rfl, rfl⟩⟩
        rw [hhits, hnone]
        exact ⟨mem_cons_self, fun b hb => by rw [mem_singleton.mp hb]⟩
      · obtain ⟨r, hleast, hprio, heff⟩ := h.winner hnone
        split
        next hlead =>
          rw [hprio] at hlead
          refine ⟨hcount, fun hn => absurd hn hne, fun _ => ⟨rule, ?_, rfl, rfl⟩⟩
          rw [hhits]
          exact (Least.concat hleast).1 hlead
        next hlead =>
          rw [hprio] at hlead
          refine ⟨hcount, fun hn => absurd hn hne, fun _ => ⟨r, ?_, hprio, heff⟩⟩
          rw [hhits]
          exact (Least.concat hleast).2 hlead

theorem AclScan.found (trace : AclRule → RuleTrace)
    (hp : ∀ r ∈ rules, r.priority < Int64.maxValue) :
    (scanRules trace rules).Found trace rules := by
  unfold scanRules
  induction rules using List.reverseRecOn with
  | nil =>
    refine ⟨rfl, fun _ => ⟨rfl, rfl⟩, fun h => absurd rfl h⟩
  | append_singleton rules rule ih =>
    rw [foldl_append]
    have hrules := ih fun r hr => hp r (mem_append_left _ hr)
    exact hrules.next (hp rule (by simp))

/-- The preview's rules allow when a match of the least rank does. -/
theorem AclScan.Found.allow_iff (h : scan.Found trace rules)
    (heffect : ∀ r ∈ rules, r.effect = "allow" ∨ r.effect = "deny") :
    scan.winningEffect = "allow" ↔
      ∃ r, Least AclRule.rank (hits trace rules) r ∧ r.effect = "allow" := by
  constructor
  · intro hw
    have hne : hits trace rules ≠ [] := by
      intro hnone
      rw [(h.nothing hnone).2] at hw
      exact absurd hw (by decide)
    obtain ⟨r, hleast, -, heff⟩ := h.winner hne
    exact ⟨r, hleast, heff ▸ hw⟩
  · rintro ⟨r, hleast, hr⟩
    obtain ⟨r', hleast', -, heff⟩ := h.winner (ne_nil_of_mem hleast.1)
    rw [heff]
    -- two matches of the least rank are both denials or both not
    have hrank := hleast.key_eq hleast'
    rcases heffect r' (mem_filter.mp hleast'.1).1 with ha | hd
    · exact ha
    · have hle := (AclRule.rank_le.mp hrank.le)
      have hle' := (AclRule.rank_le.mp hrank.ge)
      rcases hle with hlt | ⟨-, himp⟩
      · rcases hle' with hlt' | ⟨heq, -⟩
        · omega
        · omega
      · rw [himp hd] at hr
        exact absurd hr (by decide)

end

/-! ## The two verdicts -/

theorem Checks.validACLRule_effect (h : c.validACLRule v = true) :
    v.effect = "allow" ∨ v.effect = "deny" := by
  simp only [Checks.validACLRule, Bool.and_eq_true, Bool.or_eq_true, decide_eq_true_eq] at h
  exact h.1.1.1.2

theorem Checks.validACLRule_priority (h : c.validACLRule v = true) :
    v.priority < Int64.maxValue ∧ (Int32.ofInt v.priority.toInt).toInt = v.priority.toInt := by
  obtain ⟨-, hlo, hhi⟩ := Checks.validACLRule_spec h
  constructor
  · rw [Int64.lt_iff_toInt_lt]
    have hmax : Int64.maxValue.toInt = 2 ^ 63 - 1 := by decide
    omega
  · exact Int32.toInt_ofInt_of_le (by omega) (by omega)

section

variable {k : Clock} {now : Nat} {s : Store} {st : CacheState}

section

variable (h : Mirror k now s st)

include h

theorem Mirror.mem_rules (w : AclRuleState) :
    w ∈ st.aclRules.rows ↔ ∃ v ∈ s.aclRules.rows, v.view = w := by
  have hget : ∀ id, st.aclRules.get? id = (s.aclRules.get? id).map AclRule.view := h.rules
  constructor
  · intro hw
    have hrow := hget w.id
    rw [get?_of_mem hw] at hrow
    obtain ⟨v, hv, hview⟩ := Option.map_eq_some_iff.mp hrow.symm
    exact ⟨v, mem_of_get? hv, hview⟩
  · rintro ⟨v, hv, rfl⟩
    have hrow := hget v.id
    rw [get?_of_mem hv] at hrow
    exact mem_of_get? hrow

theorem Mirror.deviceGroup (hd : s.devices.get? device.rustdeskId = some device) :
    st.deviceGroup device.rustdeskId = device.groupId := by
  have hrow := h.devices device.rustdeskId
  rw [SameDevice, hd, Option.map_some] at hrow
  obtain ⟨w, hw, hfacts⟩ := Option.map_eq_some_iff.mp hrow
  rw [CacheState.deviceGroup, hw]
  exact congrArg Prod.fst hfacts

theorem Mirror.mem_groups (hm : memberships.Perm s.listUserGroupMemberships) (userId g : String) :
    g ∈ st.groupsOf userId ↔ g ∈ activeGroups userId memberships := by
  rw [h.members g userId]
  have hlist : g ∈ activeGroups userId memberships ↔ ∃ m ∈ s.memberships.rows,
      m.key = (g, userId) := by
    simp only [activeGroups, mem_map, mem_filter, hm.mem_iff,
      Store.listUserGroupMemberships, MemberRow.key, Bool.and_eq_true, decide_eq_true_eq]
    constructor
    · rintro ⟨_, ⟨⟨m, hmem, rfl⟩, -, hu⟩, rfl⟩
      exact ⟨m, hmem, by rw [← hu]⟩
    · rintro ⟨m, hmem, hkey⟩
      cases hkey
      exact ⟨_, ⟨⟨m, hmem, rfl⟩, rfl, rfl⟩, rfl⟩
  rw [hlist]
  constructor
  · intro hsome
    obtain ⟨m, hget⟩ := Option.isSome_iff_exists.mp hsome
    exact ⟨m, mem_of_get? hget, get?_key hget⟩
  · rintro ⟨m, hmem, hkey⟩
    rw [← hkey, get?_of_mem hmem]
    rfl

omit h in
theorem covers_view (v : AclRule) {userId : String} {groups groups' : List String}
    (hg : ∀ g, g ∈ groups' ↔ g ∈ groups) (device : Device) (permission : String) :
    v.view.covers userId groups' device.rustdeskId device.groupId permission
      = (v.trace userId groups device permission).matched := by
  have hmem : decide (v.subjectId ∈ groups') = decide (v.subjectId ∈ groups) :=
    decide_eq_decide.mpr (hg _)
  simp [AclRuleState.covers, AclRuleState.subjectMatches, AclRuleState.targetMatches,
    AclRule.trace, AclRule.view, hmem]

/-- What HBBS finds in the cache is what the preview finds in the database. -/
theorem Mirror.mem_matchingRules (hd : s.devices.get? device.rustdeskId = some device)
    (hr : rules.Perm s.aclRules.rows) (hm : memberships.Perm s.listUserGroupMemberships)
    (d : AuthDecision) (connectionType : Int32) (w : AclRuleState) :
    w ∈ st.matchingRules d device.rustdeskId connectionType ↔
      ∃ v ∈ hits (AclRule.trace d.userId (activeGroups d.userId memberships) device
        (permissionFor connectionType)) rules, v.view = w := by
  rw [CacheState.matchingRules, mem_filter, h.mem_rules, h.deviceGroup hd]
  simp only [hits, mem_filter, hr.mem_iff]
  constructor
  · rintro ⟨⟨v, hv, rfl⟩, hw⟩
    rw [covers_view v (h.mem_groups hm d.userId)] at hw
    exact ⟨v, ⟨hv, hw⟩, rfl⟩
  · rintro ⟨v, ⟨hv, hw⟩, rfl⟩
    rw [covers_view v (h.mem_groups hm d.userId)]
    exact ⟨⟨v, hv, rfl⟩, hw⟩

omit h in
theorem authorizeAcl_ok_iff (d : AuthDecision) (target : String) (connectionType : Int32)
    (heffect : ∀ w ∈ st.aclRules.rows, w.effect = "allow" ∨ w.effect = "deny") :
    st.authorizeAcl d target connectionType = .ok () ↔ d.role = "admin" ∨ st.aclRules.rows = [] ∨
      ∃ w, Least AclRuleState.rank (st.matchingRules d target connectionType) w ∧
        w.effect = "allow" := by
  unfold CacheState.authorizeAcl
  by_cases hadmin : d.role = "admin"
  · simp [hadmin]
  by_cases hempty : st.aclRules.rows = []
  · simp [hempty]
  rw [if_pos ⟨hadmin, hempty⟩]
  simp only [hadmin, hempty, false_or]
  cases hhead : (sortByKey AclRuleState.rank (st.matchingRules d target connectionType)).head? with
  | none =>
    have hnone := sortByKey_head_none hhead
    simp [hnone, Least]
  | some w =>
    have hleast := sortByKey_head hhead
    have hor := heffect w (mem_filter.mp hleast.1).1
    simp only [Option.map_some, ne_eq, Option.some.injEq, ite_eq_right_iff, reduceCtorEq, imp_false,
      not_not]
    refine ⟨fun hw => ⟨w, hleast, hw⟩, ?_⟩
    rintro ⟨w', hleast', hw'⟩
    rcases hor with ha | hd
    · exact ha
    · -- a denial of the least rank leaves no other effect there
      have hsnd := congrArg (fun x => (ofLex x).2) (hleast.key_eq hleast')
      simp [AclRuleState.rank, hd, hw'] at hsnd

/-- HBBS on the cache, in terms of the database. -/
theorem Mirror.authorizeAcl_ok_iff (hvalid : ∀ v ∈ s.aclRules.rows, c.validACLRule v = true)
    (hd : s.devices.get? device.rustdeskId = some device) (hr : rules.Perm s.aclRules.rows)
    (hm : memberships.Perm s.listUserGroupMemberships) (d : AuthDecision) (connectionType : Int32) :
    st.authorizeAcl d device.rustdeskId connectionType = .ok () ↔
      d.role = "admin" ∨ s.aclRules.rows = [] ∨
        ∃ v, Least AclRule.rank (hits (AclRule.trace d.userId (activeGroups d.userId memberships)
          device (permissionFor connectionType)) rules) v ∧ v.effect = "allow" := by
  have heffect : ∀ w ∈ st.aclRules.rows, w.effect = "allow" ∨ w.effect = "deny" := by
    intro w hw
    obtain ⟨v, hv, rfl⟩ := (h.mem_rules w).mp hw
    exact Checks.validACLRule_effect (hvalid v hv)
  have hempty : st.aclRules.rows = [] ↔ s.aclRules.rows = [] := by
    simp only [eq_nil_iff_forall_not_mem, h.mem_rules, not_exists, not_and]
    exact ⟨fun hn v hv => hn v.view v hv rfl, fun hn _ v hv _ => hn v hv⟩
  have hrank : ∀ v ∈ rules, v.view.rank = v.rank := by
    intro v hv
    have hprio := (Checks.validACLRule_priority (hvalid v (hr.mem_iff.mp hv))).2
    show toLex ((Int32.ofInt v.priority.toInt).toInt, _) = toLex (v.priority.toInt, _)
    rw [hprio]
    rfl
  have hleast := least_image (h.mem_matchingRules hd hr hm d connectionType)
    fun v hv => hrank v (mem_filter.mp hv).1
  rw [Sync.authorizeAcl_ok_iff d device.rustdeskId connectionType heffect, hempty]
  refine or_congr_right (or_congr_right ⟨?_, ?_⟩)
  · rintro ⟨w, hw, ha⟩
    obtain ⟨v, rfl, hv⟩ := (hleast w).mp hw
    exact ⟨v, hv, ha⟩
  · rintro ⟨v, hv, ha⟩
    exact ⟨v.view, (hleast v.view).mpr ⟨v, rfl, hv⟩, ha⟩

end

theorem permissionFor_mem (connectionType : Int32) :
    permissionFor connectionType ∈ aclPermissions := by
  unfold permissionFor
  split
  · decide
  split
  · decide
  split
  · decide
  split
  · decide
  · decide

/-- The preview lets the user through when no rule is enabled, HBBS when there is no rule. -/
theorem verdicts_agree_iff {admin empty enabled allow : Prop} (hallow : allow → enabled)
    (henabled : enabled → ¬ empty) :
    (((admin ∨ ¬ enabled) ∨ allow) ↔ (admin ∨ empty ∨ allow)) ↔ (admin ∨ empty ∨ enabled) := by
  tauto

/-- **When the preview tells what HBBS does**: for a user who may log in, a device and a
kind of connection, exactly when the user is an administrator, or there are no rules, or
one of them is enabled. The lists may come from the database in any order. -/
theorem preview_agrees_iff (h : Mirror k now s st) {c : Checks}
    (hvalid : ∀ v ∈ s.aclRules.rows, c.validACLRule v = true) (user : User)
    (huser : s.users.get? user.id = some user) (henabled : user.enabled = true)
    (happroved : user.approvalStatus = "approved") (device : Device)
    (hdevice : s.devices.get? device.rustdeskId = some device) {d : AuthDecision}
    (hid : d.userId = user.id)
    (hrole : ∃ u, st.users.get? user.id = some u ∧ d.role = u.role) (connectionType : Int32)
    {devices : List Device} (hdevices : devices.Perm s.devices.rows) {rules : List AclRule}
    (hrules : rules.Perm s.aclRules.rows) {memberships : List UserGroupMembership}
    (hmembers : memberships.Perm s.listUserGroupMemberships) :
    ∃ e, evaluateACL (s.users.get? user.id) devices rules memberships device.rustdeskId
        (permissionFor connectionType) = .ok e ∧
      ((e.allowed = true ↔ st.authorizeAcl d device.rustdeskId connectionType = .ok ()) ↔
        user.role = "admin" ∨ s.aclRules.rows = [] ∨
          ∃ v ∈ s.aclRules.rows, v.enabled = true) := by
  have hdrole : d.role = user.role := by
    obtain ⟨u, hu, hr⟩ := hrole
    have hrow := h.users user.id
    rw [huser, SameUser, hu, Option.map_some] at hrow
    rw [hr]
    exact congrArg Prod.fst (Option.some.inj hrow)
  have hvalid' : ∀ v ∈ rules, c.validACLRule v = true := fun v hv => hvalid v (hrules.mem_iff.mp hv)
  have hfound := AclScan.found (AclRule.trace user.id (activeGroups user.id memberships) device
    (permissionFor connectionType)) fun v hv => (Checks.validACLRule_priority (hvalid' v hv)).1
  have hpreview := hfound.allow_iff fun v hv => Checks.validACLRule_effect (hvalid' v hv)
  have hhbbs := h.authorizeAcl_ok_iff hvalid hdevice hrules hmembers d connectionType
  rw [hid, hdrole] at hhbbs
  obtain ⟨e, he, hallowed⟩ := evaluateACL_ok user
    ((find?_perm hdevices _).trans hdevice) (permissionFor_mem connectionType) rules memberships
  rw [huser]
  refine ⟨e, he, ?_⟩
  rw [hhbbs, ← hpreview, hallowed]
  have hcount : (scanRules (AclRule.trace user.id (activeGroups user.id memberships) device
      (permissionFor connectionType)) rules).enabledCount = 0 ↔
        ¬ ∃ v ∈ s.aclRules.rows, v.enabled = true := by
    rw [hfound.enabled, length_eq_zero_iff, filter_eq_nil_iff]
    simp [hrules.mem_iff]
  -- a match is an enabled rule, and an enabled rule is a rule
  have hhit : (scanRules (AclRule.trace user.id (activeGroups user.id memberships) device
      (permissionFor connectionType)) rules).winningEffect = "allow" →
        ∃ v ∈ s.aclRules.rows, v.enabled = true := by
    intro hw
    obtain ⟨v, hleast, -⟩ := hpreview.mp hw
    obtain ⟨hv, hmatch⟩ := mem_filter.mp hleast.1
    exact ⟨v, hrules.mem_iff.mp hv, (Bool.and_eq_true_iff.mp hmatch).1⟩
  have hrule : (∃ v ∈ s.aclRules.rows, v.enabled = true) → s.aclRules.rows ≠ [] := by
    rintro ⟨v, hv, -⟩
    exact ne_nil_of_mem hv
  have hverdict := @verdicts_agree_iff (user.role = "admin") _ _ _ hhit hrule
  simpa only [evaluationAllowed, henabled, happroved, decide_true, Bool.true_and, Bool.or_eq_true,
    decide_eq_true_eq, hcount] using hverdict

end

def sampleDevice : Device where
  rustdeskId := "device-1"
  clientUuid := "uuid-1"
  hostname := "desk"
  deviceAlias := ""
  platform := "linux"
  version := "1.4.9"
  cpu := ""
  memory := ""
  username := ""
  lastSeenIp := ""
  online := true
  lastSeen := 1
  ownerUserId := "user-1"
  groupId := ""
  tags := none
  publicKey := ""
  deployed := false
  deployedBy := ""
  deployedAt := 0
  createdAt := 1
  archivedAt := none

/-- The sample installation with a device and one rule. -/
def ruledDatabase (rule : AclRule) : Store :=
  { sampleDatabase with
    devices := Table.empty.put sampleDevice
    aclRules := Table.empty.put rule }

def ruledCache (rule : AclRule) : CacheState :=
  { sampleMirror with
    devices := Table.empty.put sampleDevice.view
    aclRules := Table.empty.put rule.view }

theorem ruledCache_mirrors (rule : AclRule) :
    Mirror sampleClock 0 (ruledDatabase rule) (ruledCache rule) where
  users := sampleMirror_mirrors.users
  sessions := sampleMirror_mirrors.sessions
  members := sampleMirror_mirrors.members
  rules := by
    have hnone : Table.Agree SameRule (.empty : Table AclRule.id) (.empty : Table AclRuleState.id) :=
      fun _ => rfl
    exact (hnone.put_put rfl).mpr rfl
  strategies := sampleMirror_mirrors.strategies
  devices := by
    have hnone : Table.Agree SameDevice (.empty : Table Device.rustdeskId)
        (.empty : Table DeviceState.rustdeskId) := fun _ => rfl
    exact (hnone.put_put rfl).mpr rfl

def sampleDecision : AuthDecision := ⟨"user-1", "session-1", "ada", "user", ""⟩

/-- With an enabled rule the preview says what HBBS does. -/
theorem enabled_rule_previewed :
    ∃ e, evaluateACL ((ruledDatabase sampleRule).users.get? "user-1") [sampleDevice] [sampleRule]
        [⟨"group-1", "user-1", true⟩] "device-1" "remote_control" = .ok e ∧
      (e.allowed = true ↔ (ruledCache sampleRule).authorizeAcl sampleDecision "device-1" 0 = .ok ()) := by
  obtain ⟨e, he, hiff⟩ := preview_agrees_iff (ruledCache_mirrors sampleRule)
    (c := sampleChecks) (fun v hv => by rw [mem_singleton.mp hv]; decide)
    sampleUser rfl rfl rfl sampleDevice rfl (d := sampleDecision) rfl
    ⟨_, rfl, rfl⟩ 0 (.refl _) (.refl _) (.refl _)
  exact ⟨e, he, hiff.mpr (.inr (.inr ⟨sampleRule, mem_singleton_self _, rfl⟩))⟩

/-- With a single rule, which is disabled, the preview allows what HBBS denies. -/
theorem disabled_rule_misleads :
    let rule := { sampleRule with enabled := false }
    Mirror sampleClock 0 (ruledDatabase rule) (ruledCache rule) ∧
      sampleChecks.validACLRule rule = true ∧
      (∃ e, evaluateACL ((ruledDatabase rule).users.get? "user-1") [sampleDevice] [rule]
          [⟨"group-1", "user-1", true⟩] "device-1" "remote_control" = .ok e ∧
        e.allowed = true ∧ e.reason = "no_acl_rules_configured") ∧
      (ruledCache rule).authorizeAcl sampleDecision "device-1" 0 = .error .accessDenied := by
  intro rule
  exact ⟨ruledCache_mirrors rule, by decide, ⟨_, rfl, rfl, rfl⟩, rfl⟩

end RemoteControl.Sync
