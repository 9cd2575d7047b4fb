import RemoteControl.Lib.SortBy
import RemoteControl.Sync.Authorize

/-!
# What a user may do

`authorize_policy` of `auth/cache.rs`: once a user is authorised, the rules decide
whether the connection is allowed at all, and the strategies whether its kind is
switched off and whether it has to go through a relay. The rules are sorted and the
first one decides; the strategies are sorted and the last one that has a setting does.

The values of a hash map come in no particular order. Here they come in the order of
the table, and what is proved is proved for every order.
-/

namespace RemoteControl.Sync

open Lib

inductive PolicyError
  | accessDenied
  | strategyDenied
deriving DecidableEq, Repr

/-! ## Kinds of connections -/

def permissionFor (connectionType : Int32) : String :=
  if connectionType = 1 then "file_transfer"
  else if connectionType = 2 ∨ connectionType = 3 then "tcp_tunnel"
  else if connectionType = 4 then "camera"
  else if connectionType = 5 then "terminal"
  else "remote_control"

def strategyPermissionFor (connectionType : Int32) : String :=
  if connectionType = 1 then "allow_file_transfer"
  else if connectionType = 2 ∨ connectionType = 3 then "allow_tcp_tunnel"
  else if connectionType = 4 then "allow_camera"
  else if connectionType = 5 then "allow_terminal"
  else "allow_remote_control"

/-- The group of a device; a device the cache does not have is in none. -/
def CacheState.deviceGroup (st : CacheState) (target : String) : String :=
  ((st.devices.get? target).map DeviceState.groupId).getD ""

/-! ## Rules -/

def AclRuleState.subjectMatches (userId : String) (userGroups : List String)
    (rule : AclRuleState) : Bool :=
  rule.subjectId = "" || (rule.subjectType = "user" && rule.subjectId = userId)
    || (rule.subjectType = "user_group" && rule.subjectId ∈ userGroups)

def AclRuleState.targetMatches (target deviceGroup : String) (rule : AclRuleState) : Bool :=
  rule.targetId = "" || (rule.targetType = "device" && rule.targetId = target)
    || (rule.targetType = "device_group" && deviceGroup ≠ "" && rule.targetId = deviceGroup)

def AclRuleState.covers (userId : String) (userGroups : List String)
    (target deviceGroup permission : String) (rule : AclRuleState) : Bool :=
  rule.subjectMatches userId userGroups && rule.targetMatches target deviceGroup
    && permission ∈ rule.permissions

/-- Lower priorities first, and denials before what is not a denial. -/
def AclRuleState.rank (rule : AclRuleState) : ℤ ×ₗ Bool :=
  toLex (rule.priority.toInt, rule.effect ≠ "deny")

def CacheState.matchingRules (d : AuthDecision) (target : String) (connectionType : Int32)
    (st : CacheState) : List AclRuleState :=
  st.aclRules.rows.filter fun rule => rule.enabled &&
    rule.covers d.userId (st.groupsOf d.userId) target (st.deviceGroup target)
      (permissionFor connectionType)

/-- The first stage: a user who is not an administrator needs a rule, unless there are
no rules at all. -/
def CacheState.authorizeAcl (d : AuthDecision) (target : String) (connectionType : Int32)
    (st : CacheState) : Except PolicyError Unit :=
  if d.role ≠ "admin" ∧ st.aclRules.rows ≠ [] then
    let matching := sortByKey AclRuleState.rank (st.matchingRules d target connectionType)
    if matching.head?.map AclRuleState.effect ≠ some "allow" then .error .accessDenied
    else .ok ()
  else .ok ()

/-! ## Strategies -/

/-- `strategy_matches`. -/
def StrategyState.appliesTo (d : AuthDecision) (target deviceGroup : String)
    (userGroups : List String) (v : StrategyState) : Bool :=
  if v.scopeType = "global" then true
  else if v.scopeType = "user" then v.scopeId = d.userId
  else if v.scopeType = "device" then v.scopeId = target
  else if v.scopeType = "device_group" then deviceGroup ≠ "" && v.scopeId = deviceGroup
  else if v.scopeType = "user_group" then v.scopeId ∈ userGroups
  else v.scopeId = ""

/-- `strategy_specificity`. -/
def StrategyState.specificity (v : StrategyState) : ℤ :=
  if v.scopeType = "device" then 0
  else if v.scopeType = "user" then 1
  else if v.scopeType = "device_group" then 2
  else if v.scopeType = "user_group" then 3
  else 4

def StrategyState.rank (v : StrategyState) : ℤ ×ₗ ℤ := toLex (v.priority.toInt, v.specificity)

def asBool : Json → Option Bool
  | .bool b => some b
  | _ => none

/-- The value of a setting; of two entries with one name, which a map does not have, the
first counts. -/
def setting? (key : String) (settings : List (String × Json)) : Option Json :=
  (Json.obj settings).get? key

def StrategyState.boolean (key : String) (v : StrategyState) : Option Bool :=
  (setting? key v.settings).bind asBool

def CacheState.applicable (d : AuthDecision) (target : String) (st : CacheState) :
    List StrategyState :=
  st.strategies.rows.filter fun v =>
    v.enabled && v.appliesTo d target (st.deviceGroup target) (st.groupsOf d.userId)

/-- What the loop over the sorted strategies leaves for a setting. -/
def enforced (key : String) (strategies : List StrategyState) : Option Bool :=
  lastValue (StrategyState.boolean key) (sortByKey StrategyState.rank strategies)

/-- `authorize_policy`; on success it says whether a relay has to be used. -/
def CacheState.authorizePolicy (d : AuthDecision) (target : String) (connectionType : Int32)
    (st : CacheState) : Except PolicyError Bool :=
  match st.authorizeAcl d target connectionType with
  | .error e => .error e
  | .ok () =>
    let strategies := st.applicable d target
    if enforced (strategyPermissionFor connectionType) strategies = some false then
      .error .strategyDenied
    else .ok ((enforced "force_relay" strategies).getD false)

end RemoteControl.Sync
