import RemoteControl.Sync.Domain
import RemoteControl.Sync.Cache

/-!
# From Go to Rust

The payload types are written twice, once in Go and once in Rust. For each of
them one lemma says what becomes of a value that the API encodes and HBBS
decodes; for relays, rules and strategies that depends on the value, because a
nil slice or map is encoded as `null`, which is no sequence and no map, and
because an integer may not fit the narrower type.
-/

namespace RemoteControl.Sync

open Lib Decoder

variable (rfc3339 : Nat → String)

/-! ## One lemma for each type -/

def fitsI32 (n : Int64) : Prop := -2 ^ 31 ≤ n.toInt ∧ n.toInt ≤ 2 ^ 31 - 1

instance (n : Int64) : Decidable (fitsI32 n) := inferInstanceAs (Decidable (_ ∧ _))

def User.view (u : User) : UserState :=
  ⟨u.id, u.username, u.role, u.enabled, u.approvalStatus, u.tokenVersion⟩

def Session.view (s : Session) : SessionState :=
  ⟨s.id, s.userId, rfc3339 s.expiresAt, s.revokedAt.map rfc3339, s.clientDeviceId⟩

def Device.view (d : Device) : DeviceState :=
  ⟨d.rustdeskId, d.clientUuid, d.publicKey, d.deployed, d.ownerUserId, d.groupId⟩

def UserGroupMembership.view (m : UserGroupMembership) : UserGroupMembershipState :=
  ⟨m.groupId, m.userId, m.active⟩

def AclRule.view (v : AclRule) : AclRuleState :=
  ⟨v.id, v.subjectType, v.subjectId, v.targetType, v.targetId, v.permissions.getD [], v.effect,
    v.enabled, Int32.ofInt v.priority.toInt, v.deleted⟩

def Strategy.view (v : Strategy) : StrategyState :=
  ⟨v.id, v.scopeType, v.scopeId, Int32.ofInt v.priority.toInt, v.settings.getD [], v.enabled,
    v.deleted⟩

def RelayServer.view (v : RelayServer) : RelayState :=
  ⟨v.id, v.hostname, UInt16.ofNat v.port.toInt.toNat, v.region, v.enabled, v.health,
    Int32.ofInt v.latencyMs.toInt, Int32.ofInt v.connections.toInt, v.deleted⟩

theorem decode_user (u : User) : UserState.decode (u.toJson rfc3339) = .ok u.view := by
  unfold UserState.decode User.toJson omitEmpty
  split <;> simp [field, fieldOr, pure, Except.pure, User.view]

theorem decode_session (s : Session) :
    SessionState.decode (s.toJson rfc3339) = .ok (s.view rfc3339) := by
  unfold SessionState.decode Session.toJson
  cases hr : s.revokedAt with
  | none => simp [field, fieldOr, pure, Except.pure, Session.view, hr]
  | some t => simp [field, fieldOr, option, Except.map, pure, Except.pure, Session.view, hr]

theorem decode_device (d : Device) : DeviceState.decode (d.toJson rfc3339) = .ok d.view := by
  unfold DeviceState.decode Device.toJson omitEmpty
  by_cases hk : d.publicKey = ""
  · -- the key is looked for among all the fields
    by_cases hb : d.deployedBy = "" <;> cases ha : d.archivedAt <;>
      simp [field, fieldOr, pure, Except.pure, Device.view, hk, hb]
  · simp [field, fieldOr, pure, Except.pure, Device.view, hk]

theorem decode_membership (m : UserGroupMembership) :
    UserGroupMembershipState.decode m.toJson = .ok m.view := by
  simp [UserGroupMembershipState.decode, UserGroupMembership.toJson, field, fieldOr, pure,
    Except.pure, UserGroupMembership.view]

theorem decode_acl {v : AclRule} (hp : v.permissions.isSome) (hn : fitsI32 v.priority) :
    AclRuleState.decode (v.toJson rfc3339) = .ok v.view := by
  obtain ⟨l, hl⟩ := Option.isSome_iff_exists.mp hp
  unfold AclRuleState.decode AclRule.toJson omitEmpty
  cases hd : v.deleted <;>
    simp [field, fieldOr, i32_int hn, slice, hl, pure, Except.pure, AclRule.view, hd]

/-- A nil slice is `null`, and `null` is no sequence. -/
theorem decode_acl_nil {v : AclRule} (hp : v.permissions = none) :
    AclRuleState.decode (v.toJson rfc3339) = .error .invalidType := by
  unfold AclRuleState.decode AclRule.toJson omitEmpty
  simp [field, fieldOr, slice, hp, seq]

theorem decode_strategy {v : Strategy} (hs : v.settings.isSome) (hn : fitsI32 v.priority) :
    StrategyState.decode (v.toJson rfc3339) = .ok v.view := by
  obtain ⟨m, hm⟩ := Option.isSome_iff_exists.mp hs
  unfold StrategyState.decode Strategy.toJson omitEmpty
  cases hd : v.deleted <;>
    simp [field, fieldOr, i32_int hn, goMap, hm, pure, Except.pure, Strategy.view, hd]

theorem decode_strategy_nil {v : Strategy} (hs : v.settings = none) (hn : fitsI32 v.priority) :
    StrategyState.decode (v.toJson rfc3339) = .error .invalidType := by
  unfold StrategyState.decode Strategy.toJson omitEmpty
  simp [field, fieldOr, i32_int hn, goMap, hs, map]

def fitsPort (n : Int64) : Prop := 0 ≤ n.toInt ∧ n.toInt ≤ 2 ^ 16 - 1

theorem decode_relay {v : RelayServer} (hp : fitsPort v.port) (hl : fitsI32 v.latencyMs)
    (hc : fitsI32 v.connections) : RelayState.decode (v.toJson rfc3339) = .ok v.view := by
  unfold RelayState.decode RelayServer.toJson omitEmpty
  by_cases hm : v.controlMode = "" <;> cases hd : v.deleted <;>
    simp [field, fieldOr, u16_int hp, i32_int hl, i32_int hc, pure, Except.pure, RelayServer.view,
      hm, hd]

theorem decode_relay_range {v : RelayServer} (hp : fitsPort v.port)
    (h : ¬ (fitsI32 v.latencyMs ∧ fitsI32 v.connections)) :
    RelayState.decode (v.toJson rfc3339) = .error .outOfRange := by
  unfold RelayState.decode RelayServer.toJson omitEmpty
  by_cases hl : fitsI32 v.latencyMs
  · have hc : ¬ fitsI32 v.connections := fun hc => h ⟨hl, hc⟩
    by_cases hm : v.controlMode = "" <;>
      simp [field, fieldOr, u16_int hp, i32_int hl, i32_int_error hc, hm]
  · by_cases hm : v.controlMode = "" <;> simp [field, fieldOr, u16_int hp, i32_int_error hl, hm]

end RemoteControl.Sync
