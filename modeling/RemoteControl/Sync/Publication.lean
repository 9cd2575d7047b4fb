import RemoteControl.Sync.Handlers
import RemoteControl.Sync.Wire

/-!
# Events and what they stand for

The places where the API publishes something that HBBS handles, each with the
operation on the cache that it stands for. An event performs that operation
exactly when

> it is not the deletion of a rule or strategy, it does not carry a `deleted`
> that the request put there, and a relay's numbers fit.

A deletion of a rule or strategy is worse than lost. HBBS cannot decode it, ends
the stream, and asks for the same event again.
-/

namespace RemoteControl.Sync

open Lib Option

/-- A row of `relay_servers`: its port was checked before it was stored, and there is no
column for `deleted`. -/
structure StoredRelay where
  row : RelayServer
  port : fitsPort row.port
  live : row.deleted = false

inductive Publication
  | userSaved (user : User)
  | userDisabled (user : User)
  | userDeleted (id : String)
  | sessionCreated (session : Session)
  | sessionRevoked (session : Session)
  | sessionsRevoked (userId : String)
  | aclCreated (body : AclRule) (id : String) (now : Nat)
  | aclUpdated (body : AclRule) (id : String) (now : Nat)
  | aclDeleted (id : String)
  | strategyCreated (body : Strategy) (id : String) (now : Nat)
  | strategyUpdated (body : Strategy) (id : String) (now : Nat)
  | strategyDeleted (id : String)
  | relayCreated (body : RelayServer) (id : String) (now : Nat)
  | relayUpdated (body : RelayServer) (id : String) (now : Nat) (current : Option StoredRelay)
  | relayReported (stored : StoredRelay)
  | relayDeleted (id : String)
  | deviceSaved (device : Device)
  | membershipSet (membership : UserGroupMembership)
  | configured (requireLogin requireDeviceDeployment : Bool)

variable (c : Checks) (rfc3339 : Nat → String)

/-- Kind and payload of the event; `none` when the request is refused. -/
def Publication.event? : Publication → Option (String × Json)
  | .userSaved u => some ("USER_UPDATED", u.toJson rfc3339)
  | .userDisabled u => some ("USER_DISABLED", u.toJson rfc3339)
  | .userDeleted id => some ("USER_UPDATED", (User.tombstone id).toJson rfc3339)
  | .sessionCreated s => some ("SESSION_CREATED", s.toJson rfc3339)
  | .sessionRevoked s => some ("SESSION_REVOKED", s.toJson rfc3339)
  | .sessionsRevoked userId => some ("SESSION_REVOKED_ALL", userReference userId)
  | .aclCreated body id now =>
    (c.createACLRule body id now).map fun v => ("ACL_UPDATED", v.toJson rfc3339)
  | .aclUpdated body id now =>
    (c.updateACLRule body id now).map fun v => ("ACL_UPDATED", v.toJson rfc3339)
  | .aclDeleted id => some ("ACL_UPDATED", (AclRule.tombstone id).toJson rfc3339)
  | .strategyCreated body id now =>
    (c.createStrategy body id now).map fun v => ("STRATEGY_UPDATED", v.toJson rfc3339)
  | .strategyUpdated body id now =>
    (c.updateStrategy body id now).map fun v => ("STRATEGY_UPDATED", v.toJson rfc3339)
  | .strategyDeleted id => some ("STRATEGY_UPDATED", (Strategy.tombstone id).toJson rfc3339)
  | .relayCreated body id now =>
    (c.createRelayServer body id now).map fun v => ("RELAY_UPDATED", v.toJson rfc3339)
  | .relayUpdated body id now current =>
    (c.updateRelayServer body id now (current.map StoredRelay.row)).map fun v =>
      ("RELAY_UPDATED", v.toJson rfc3339)
  | .relayReported stored => some ("RELAY_UPDATED", stored.row.toJson rfc3339)
  | .relayDeleted id => some ("RELAY_UPDATED", (RelayServer.tombstone id).toJson rfc3339)
  | .deviceSaved d => some ("DEVICE_UPDATED", d.toJson rfc3339)
  | .membershipSet m => some ("USER_GROUP_MEMBERSHIP_UPDATED", m.toJson)
  | .configured login deployment =>
    some ("CONFIGURATION_UPDATED", configurationJson login deployment)

/-! ## What an event stands for -/

def saveRule (v : AclRule) (st : CacheState) : CacheState :=
  { st with aclRules := st.aclRules.put { v.view with deleted := false } }

def saveStrategy (v : Strategy) (st : CacheState) : CacheState :=
  { st with strategies := st.strategies.put { v.view with deleted := false } }

def saveRelay (v : RelayServer) (st : CacheState) : CacheState :=
  { st with relayServers := st.relayServers.put { v.view with deleted := false } }

/-- What the handler did to its object, done to the cache. -/
def Publication.intended (st : CacheState) : Publication → CacheState
  | .userSaved u | .userDisabled u => CacheOp.apply st (.user u.view)
  -- a deleted user is kept as one that is disabled and not approved
  | .userDeleted id => CacheOp.apply st (.user (User.tombstone id).view)
  | .sessionCreated s | .sessionRevoked s => CacheOp.apply st (.session (s.view rfc3339))
  | .sessionsRevoked userId => CacheOp.apply st (.revokeUserSessions userId)
  | .aclCreated body id now => ((c.createACLRule body id now).map (saveRule · st)).getD st
  | .aclUpdated body id now => ((c.updateACLRule body id now).map (saveRule · st)).getD st
  | .aclDeleted id => { st with aclRules := st.aclRules.remove id }
  | .strategyCreated body id now => ((c.createStrategy body id now).map (saveStrategy · st)).getD st
  | .strategyUpdated body id now => ((c.updateStrategy body id now).map (saveStrategy · st)).getD st
  | .strategyDeleted id => { st with strategies := st.strategies.remove id }
  | .relayCreated body id now => ((c.createRelayServer body id now).map (saveRelay · st)).getD st
  | .relayUpdated body id now current =>
    ((c.updateRelayServer body id now (current.map StoredRelay.row)).map (saveRelay · st)).getD st
  | .relayReported stored => saveRelay stored.row st
  | .relayDeleted id => { st with relayServers := st.relayServers.remove id }
  | .deviceSaved d => CacheOp.apply st (.device d.view)
  | .membershipSet m => CacheOp.apply st (.membership m.view)
  | .configured login deployment => CacheOp.apply st (.configuration login deployment)

/-- The numbers of a relay that HBBS keeps in 32 bits. -/
def RelayServer.inRange (v : RelayServer) : Prop := fitsI32 v.latencyMs ∧ fitsI32 v.connections

/-- The event can be decoded and means what it stands for. -/
def Publication.WellFormed : Publication → Prop
  | .aclCreated body _ _ | .aclUpdated body _ _ => body.deleted = false
  | .strategyCreated body _ _ | .strategyUpdated body _ _ => body.deleted = false
  | .aclDeleted _ | .strategyDeleted _ => False
  | .relayCreated body _ _ | .relayUpdated body _ _ none => body.deleted = false ∧ body.inRange
  | .relayUpdated _ _ _ (some stored) | .relayReported stored => stored.row.inRange
  | _ => True

/-! ## Applying it -/

section

variable {st st' : CacheState} {source kind : String} {revision : Nat} {payload : Json}

theorem applyEvent_ok {op : CacheOp} (hd : decodeEvent kind payload = .ok (some op))
    (ha : st.acceptRevision source revision = some st') :
    st.applyEvent ⟨source, revision, kind, payload⟩ = .ok (op.apply st') := by
  unfold CacheState.applyEvent CacheState.perform
  rw [hd, ha]
  rfl

theorem applyEvent_error {e : DecodeError} (hd : decodeEvent kind payload = .error e) :
    st.applyEvent ⟨source, revision, kind, payload⟩ = .error e := by
  unfold CacheState.applyEvent
  rw [hd]
  rfl

end

theorem decodeEvent_acl {j : Json} {v : AclRuleState} (h : AclRuleState.decode j = .ok v) :
    decodeEvent "ACL_UPDATED" j = .ok (some (.acl v)) := by
  rw [decodeEvent_aclUpdated, h]
  rfl

theorem decodeEvent_strategy {j : Json} {v : StrategyState} (h : StrategyState.decode j = .ok v) :
    decodeEvent "STRATEGY_UPDATED" j = .ok (some (.strategy v)) := by
  rw [decodeEvent_strategyUpdated, h]
  rfl

theorem decodeEvent_relay {j : Json} {v : RelayState} (h : RelayState.decode j = .ok v) :
    decodeEvent "RELAY_UPDATED" j = .ok (some (.relay v)) := by
  rw [decodeEvent_relayUpdated, h]
  rfl

/-- A row that is removed where it should be put is missed at its key. -/
theorem put_or_remove_iff {ρ : Type} {key : ρ → String} (t : Table key) {r q : ρ} {deleted : Bool}
    (hk : key r = key q) (hr : deleted = false → r = q) :
    (if deleted then t.remove (key r) else t.put r) = t.put q ↔ deleted = false := by
  cases deleted with
  | false => simp [hr rfl]
  | true =>
    simp only [if_true, Bool.true_eq_false, iff_false]
    intro h
    have hget := congrArg (fun t => t.get? (key r)) h
    simp only [Table.get?_remove, Table.get?_put, hk, if_true] at hget
    cases hget

theorem acl_saves_iff (v : AclRule) (st : CacheState) :
    (CacheOp.acl v.view).apply st = saveRule v st ↔ v.deleted = false := by
  rw [← put_or_remove_iff st.aclRules (r := v.view) (q := { v.view with deleted := false }) rfl
    fun hd => by simp [AclRule.view, hd]]
  simp [CacheOp.apply, saveRule, AclRule.view]

theorem strategy_saves_iff (v : Strategy) (st : CacheState) :
    (CacheOp.strategy v.view).apply st = saveStrategy v st ↔ v.deleted = false := by
  rw [← put_or_remove_iff st.strategies (r := v.view) (q := { v.view with deleted := false }) rfl
    fun hd => by simp [Strategy.view, hd]]
  simp [CacheOp.apply, saveStrategy, Strategy.view]

theorem relay_saves_iff (v : RelayServer) (st : CacheState) :
    (CacheOp.relay v.view).apply st = saveRelay v st ↔ v.deleted = false := by
  rw [← put_or_remove_iff st.relayServers (r := v.view) (q := { v.view with deleted := false }) rfl
    fun hd => by simp [RelayServer.view, hd]]
  simp [CacheOp.apply, saveRelay, RelayServer.view]

section

variable {rfc3339} {st st' : CacheState} {source : String} {revision : Nat}
  (ha : st.acceptRevision source revision = some st')

include ha

/-- A rule that a handler checked is saved unless the request set `deleted`. -/
theorem rule_applied_iff {v : AclRule} (hp : v.permissions.isSome = true)
    (hn : 1 ≤ v.priority.toInt ∧ v.priority.toInt ≤ 10000) :
    st.applyEvent ⟨source, revision, "ACL_UPDATED", v.toJson rfc3339⟩ = .ok (saveRule v st')
      ↔ v.deleted = false := by
  have hfits : fitsI32 v.priority := ⟨by omega, by omega⟩
  rw [applyEvent_ok (decodeEvent_acl (decode_acl rfc3339 hp hfits)) ha, Except.ok.injEq]
  exact acl_saves_iff v st'

theorem strategy_applied_iff {v : Strategy} (hs : v.settings.isSome = true)
    (hn : 1 ≤ v.priority.toInt ∧ v.priority.toInt ≤ 100000) :
    st.applyEvent ⟨source, revision, "STRATEGY_UPDATED", v.toJson rfc3339⟩
      = .ok (saveStrategy v st') ↔ v.deleted = false := by
  have hfits : fitsI32 v.priority := ⟨by omega, by omega⟩
  rw [applyEvent_ok (decodeEvent_strategy (decode_strategy rfc3339 hs hfits)) ha, Except.ok.injEq]
  exact strategy_saves_iff v st'

theorem relay_applied_iff {v : RelayServer} (hp : fitsPort v.port) :
    st.applyEvent ⟨source, revision, "RELAY_UPDATED", v.toJson rfc3339⟩ = .ok (saveRelay v st')
      ↔ v.deleted = false ∧ v.inRange := by
  by_cases hr : v.inRange
  · rw [applyEvent_ok (decodeEvent_relay (decode_relay rfc3339 hp hr.1 hr.2)) ha, Except.ok.injEq,
      relay_saves_iff v st']
    exact ⟨fun hd => ⟨hd, hr⟩, fun h => h.1⟩
  · have hd : decodeEvent "RELAY_UPDATED" (v.toJson rfc3339) = .error .outOfRange := by
      rw [decodeEvent_relayUpdated, decode_relay_range rfc3339 hp hr]
      rfl
    rw [applyEvent_error hd]
    exact ⟨nofun, fun h => absurd h.2 hr⟩

end

/-- The deletion of a rule cannot be decoded. -/
theorem decodeEvent_aclTombstone (id : String) :
    decodeEvent "ACL_UPDATED" ((AclRule.tombstone id).toJson rfc3339) = .error .invalidType := by
  rw [decodeEvent_aclUpdated, decode_acl_nil rfc3339 rfl]
  rfl

theorem decodeEvent_strategyTombstone (id : String) :
    decodeEvent "STRATEGY_UPDATED" ((Strategy.tombstone id).toJson rfc3339)
      = .error .invalidType := by
  have hzero : fitsI32 (Strategy.tombstone id).priority := by
    show fitsI32 0
    decide
  rw [decodeEvent_strategyUpdated, decode_strategy_nil rfc3339 rfl hzero]
  rfl

/-- **Which events do what they stand for**: for every event the API publishes and every
cache that accepts its revision. -/
theorem published_event_applied_iff (c : Checks) (rfc3339 : Nat → String) (p : Publication)
    {kind source : String} {payload : Json} {revision : Nat} {st st' : CacheState}
    (hp : p.event? c rfc3339 = some (kind, payload))
    (ha : st.acceptRevision source revision = some st') :
    st.applyEvent ⟨source, revision, kind, payload⟩ = .ok (p.intended c rfc3339 st')
      ↔ p.WellFormed := by
  have hop : ∀ op, decodeEvent kind payload = .ok (some op) →
      st.applyEvent ⟨source, revision, kind, payload⟩ = .ok (op.apply st') :=
    fun op hd => applyEvent_ok hd ha
  cases p with
  | userSaved u =>
    cases hp
    refine iff_of_true (hop (.user u.view) ?_) trivial
    rw [decodeEvent_userUpdated, decode_user]; rfl
  | userDisabled u =>
    cases hp
    refine iff_of_true (hop (.user u.view) ?_) trivial
    rw [decodeEvent_userDisabled, decode_user]; rfl
  | userDeleted id =>
    cases hp
    refine iff_of_true (hop (.user (User.tombstone id).view) ?_) trivial
    rw [decodeEvent_userUpdated, decode_user]; rfl
  | sessionCreated s =>
    cases hp
    refine iff_of_true (hop (.session (s.view rfc3339)) ?_) trivial
    rw [decodeEvent_sessionCreated, decode_session]; rfl
  | sessionRevoked s =>
    cases hp
    refine iff_of_true (hop (.session (s.view rfc3339)) ?_) trivial
    rw [decodeEvent_sessionRevoked, decode_session]; rfl
  | sessionsRevoked userId =>
    cases hp
    exact iff_of_true (hop (.revokeUserSessions userId) rfl) trivial
  | aclCreated body id now =>
    obtain ⟨v, hv, he⟩ := map_eq_some_iff.mp hp
    cases he
    obtain ⟨hperm, hprio, hdel⟩ := Checks.createACLRule_spec hv
    simp only [Publication.intended, Publication.WellFormed, hv, map_some, getD_some]
    rw [rule_applied_iff ha hperm hprio, hdel]
  | aclUpdated body id now =>
    obtain ⟨v, hv, he⟩ := map_eq_some_iff.mp hp
    cases he
    obtain ⟨hperm, hprio, hdel⟩ := Checks.updateACLRule_spec hv
    simp only [Publication.intended, Publication.WellFormed, hv, map_some, getD_some]
    rw [rule_applied_iff ha hperm hprio, hdel]
  | aclDeleted id =>
    cases hp
    rw [applyEvent_error (decodeEvent_aclTombstone rfc3339 id)]
    exact iff_of_false nofun fun h => h
  | strategyCreated body id now =>
    obtain ⟨v, hv, he⟩ := map_eq_some_iff.mp hp
    cases he
    obtain ⟨hset, hprio, hdel⟩ := Checks.createStrategy_spec hv
    simp only [Publication.intended, Publication.WellFormed, hv, map_some, getD_some]
    rw [strategy_applied_iff ha hset hprio, hdel]
  | strategyUpdated body id now =>
    obtain ⟨v, hv, he⟩ := map_eq_some_iff.mp hp
    cases he
    obtain ⟨hset, hprio, hdel⟩ := Checks.updateStrategy_spec hv
    simp only [Publication.intended, Publication.WellFormed, hv, map_some, getD_some]
    rw [strategy_applied_iff ha hset hprio, hdel]
  | strategyDeleted id =>
    cases hp
    rw [applyEvent_error (decodeEvent_strategyTombstone rfc3339 id)]
    exact iff_of_false nofun fun h => h
  | relayCreated body id now =>
    obtain ⟨v, hv, he⟩ := map_eq_some_iff.mp hp
    cases he
    obtain ⟨w, hw, rfl⟩ := map_eq_some_iff.mp hv
    obtain ⟨hport, hdel, hlat, hconn⟩ := Checks.validRelay_spec hw
    simp only [Publication.intended, Publication.WellFormed, hv, map_some, getD_some]
    rw [relay_applied_iff ha ⟨by show 0 ≤ w.port.toInt; omega, by show w.port.toInt ≤ _; omega⟩]
    simp only [RelayServer.inRange, hdel, hlat, hconn]
  | relayUpdated body id now current =>
    obtain ⟨v, hv, he⟩ := map_eq_some_iff.mp hp
    cases he
    obtain ⟨w, hw, hval⟩ := map_eq_some_iff.mp hv
    obtain ⟨hport, hdel, hlat, hconn⟩ := Checks.validRelay_spec hw
    simp only [Publication.intended, hv, map_some, getD_some]
    cases current with
    | none =>
      cases hval
      rw [relay_applied_iff ha ⟨by show 0 ≤ w.port.toInt; omega, by show w.port.toInt ≤ _; omega⟩]
      simp only [Publication.WellFormed, RelayServer.inRange, map_none, getD_none,
        hdel, hlat, hconn]
    | some stored =>
      obtain rfl : stored.row = v := hval
      rw [relay_applied_iff ha stored.port]
      exact ⟨fun h => h.2, fun h => ⟨stored.live, h⟩⟩
  | relayReported stored =>
    cases hp
    rw [show Publication.intended c rfc3339 st' (.relayReported stored) = saveRelay stored.row st'
      from rfl, relay_applied_iff ha stored.port]
    exact ⟨fun h => h.2, fun h => ⟨stored.live, h⟩⟩
  | relayDeleted id =>
    cases hp
    refine iff_of_true (hop (.relay (RelayServer.tombstone id).view) ?_) trivial
    exact decodeEvent_relay (decode_relay rfc3339 (v := RelayServer.tombstone id)
      (show fitsPort 0 by unfold fitsPort; decide) (show fitsI32 0 by decide)
      (show fitsI32 0 by decide))
  | deviceSaved d =>
    cases hp
    refine iff_of_true (hop (.device d.view) ?_) trivial
    rw [decodeEvent_deviceUpdated, decode_device]; rfl
  | membershipSet m =>
    cases hp
    refine iff_of_true (hop (.membership m.view) ?_) trivial
    rw [decodeEvent_membershipUpdated, decode_membership]; rfl
  | configured login deployment =>
    cases hp
    exact iff_of_true (hop (.configuration login deployment) rfl) trivial

/-! ### A rule that is created and deleted -/

def sampleChecks : Checks where
  trimSpace s := s
  toLower s := s
  validSettings _ := true
  aclReferences _ := true
  strategyReferences _ := true

def sampleTime (t : Nat) : String := toString t

def sampleBody : AclRule where
  id := ""
  name := "support"
  subjectType := "user"
  subjectId := ""
  targetType := "device"
  targetId := ""
  permissions := some ["remote_control"]
  effect := "allow"
  enabled := false
  priority := 10
  createdAt := 0
  updatedAt := 0
  deleted := false

def sampleRule : AclRule :=
  { sampleBody with id := "rule-1", enabled := true, createdAt := 7, updatedAt := 7 }

def sampleStrategy : Strategy where
  id := "strategy-1"
  name := "relay only"
  scopeType := "global"
  scopeId := ""
  priority := 10
  settings := some [("force_relay", .bool true)]
  enabled := true
  createdAt := 7
  updatedAt := 7
  deleted := false

/-- A cache that holds the rule and the strategy. -/
def sampleCache : CacheState :=
  saveStrategy sampleStrategy
    (saveRule sampleRule { CacheState.empty with sourceId := "api-1", revision := 4 })

theorem sampleRule_applied :
    sampleCache.applyEvent ⟨"api-1", 5, "ACL_UPDATED", sampleRule.toJson sampleTime⟩
      = .ok (saveRule sampleRule { sampleCache with revision := 5 }) :=
  (published_event_applied_iff sampleChecks sampleTime (.aclCreated sampleBody "rule-1" 7)
    rfl rfl).mpr rfl

/-- Opens the stream `n` times from wherever the cache is; `events` is what it brings. -/
def CacheState.reopen (events : List EventEnvelope) : Nat → CacheState → CacheState
  | 0, st => st
  | n + 1, st => (st.consume events).1.reopen events n

theorem reopen_stuck {st : CacheState} {e : EventEnvelope} {err : DecodeError}
    (h : st.applyEvent e = .error err) (es : List EventEnvelope) :
    ∀ n, st.reopen (e :: es) n = st
  | 0 => rfl
  | n + 1 => by
    have hone : st.consume (e :: es) = (st, some err) := by simp only [CacheState.consume, h]
    show (st.consume (e :: es)).1.reopen (e :: es) n = st
    rw [hone]
    exact reopen_stuck h es n

/-- The deletions of the rule and of the strategy are published, and however often the
stream is opened the cache keeps both and asks for them again. -/
theorem deletion_never_applied :
    ((Publication.aclDeleted "rule-1").event? sampleChecks sampleTime
        = some ("ACL_UPDATED", (AclRule.tombstone "rule-1").toJson sampleTime) ∧
      ∀ n es, (sampleCache.reopen (⟨"api-1", 5, "ACL_UPDATED",
          (AclRule.tombstone "rule-1").toJson sampleTime⟩ :: es) n) = sampleCache) ∧
    ((Publication.strategyDeleted "strategy-1").event? sampleChecks sampleTime
        = some ("STRATEGY_UPDATED", (Strategy.tombstone "strategy-1").toJson sampleTime) ∧
      ∀ n es, (sampleCache.reopen (⟨"api-1", 5, "STRATEGY_UPDATED",
          (Strategy.tombstone "strategy-1").toJson sampleTime⟩ :: es) n) = sampleCache) ∧
    (sampleCache.aclRules.get? "rule-1").isSome = true ∧
    (sampleCache.strategies.get? "strategy-1").isSome = true ∧
    sampleCache.cursor = ("api-1", 4) :=
  ⟨⟨rfl, fun n es =>
      reopen_stuck (applyEvent_error (decodeEvent_aclTombstone sampleTime "rule-1")) es n⟩,
    ⟨rfl, fun n es =>
      reopen_stuck (applyEvent_error (decodeEvent_strategyTombstone sampleTime "strategy-1")) es n⟩,
    rfl, rfl, rfl⟩

end RemoteControl.Sync
