import RemoteControl.Sync.Domain

/-!
# The handlers that store what HBBS enforces

What the handlers of `httpapi/server.go` make of a request body before they
store and publish it. `decodeJSON` refuses fields the type does not have, and
nothing else, so a body may set any field that has a JSON name.
-/

namespace RemoteControl.Sync

open Lib

variable {now : Nat} {body v : Strategy} {id : String}

/-- What the handlers ask of others: the text functions of the standard library, the
validation of settings, and whether the objects a value refers to are stored. -/
structure Checks where
  trimSpace : String → String
  toLower : String → String
  validSettings : List (String × Json) → Bool
  aclReferences : AclRule → Bool
  strategyReferences : Strategy → Bool

variable {c : Checks}

def aclPermissions : List String :=
  ["remote_control", "file_transfer", "clipboard", "tcp_tunnel", "terminal", "audio", "camera",
    "view", "manage"]

def Checks.validACLRule (c : Checks) (v : AclRule) : Bool :=
  2 ≤ (c.trimSpace v.name).utf8ByteSize && v.name.utf8ByteSize ≤ 128
    && !(v.permissions.getD []).isEmpty && 1 ≤ v.priority.toInt && v.priority.toInt ≤ 10000
    && (v.effect = "allow" || v.effect = "deny")
    && (v.subjectType = "user" || v.subjectType = "user_group")
    && (v.targetType = "device" || v.targetType = "device_group")
    && (v.permissions.getD []).all fun p => p ∈ aclPermissions

theorem Checks.validACLRule_spec {v : AclRule} (h : c.validACLRule v = true) :
    v.permissions.isSome = true ∧ 1 ≤ v.priority.toInt ∧ v.priority.toInt ≤ 10000 := by
  simp only [validACLRule, Bool.and_eq_true, decide_eq_true_eq, Bool.not_eq_true',
    List.isEmpty_eq_false_iff] at h
  obtain ⟨⟨⟨⟨⟨⟨⟨-, hp⟩, hlo⟩, hhi⟩, -⟩, -⟩, -⟩, -⟩ := h
  refine ⟨?_, hlo, hhi⟩
  cases hv : v.permissions with
  | none => rw [hv] at hp; exact absurd rfl hp
  | some l => rfl

def Checks.normalizeACLEffect (c : Checks) (value : String) : String :=
  if c.trimSpace value = "" then "allow" else c.toLower (c.trimSpace value)

/-- The rule `createACLRule` stores and publishes for a request body. -/
def Checks.createACLRule (c : Checks) (body : AclRule) (id : String) (now : Nat) :
    Option AclRule :=
  let v := { body with
    name := c.trimSpace body.name
    effect := c.normalizeACLEffect body.effect
    priority := if body.priority = 0 then 100 else body.priority }
  if c.validACLRule v && c.aclReferences v then
    some { v with id := id, enabled := true, createdAt := now, updatedAt := now }
  else none

def Checks.updateACLRule (c : Checks) (body : AclRule) (id : String) (now : Nat) :
    Option AclRule :=
  let v := { body with
    name := c.trimSpace body.name
    effect := c.normalizeACLEffect body.effect }
  if c.validACLRule v && c.aclReferences v then some { v with id := id, updatedAt := now }
  else none

theorem Checks.createACLRule_spec {body v : AclRule} (h : c.createACLRule body id now = some v) :
    v.permissions.isSome = true ∧ (1 ≤ v.priority.toInt ∧ v.priority.toInt ≤ 10000) ∧
      v.deleted = body.deleted := by
  simp only [createACLRule, Option.ite_none_right_eq_some, Option.some.injEq] at h
  obtain ⟨hv, rfl⟩ := h
  have hvalid := validACLRule_spec (Bool.and_eq_true_iff.mp hv).1
  exact ⟨hvalid.1, hvalid.2, rfl⟩

theorem Checks.updateACLRule_spec {body v : AclRule} (h : c.updateACLRule body id now = some v) :
    v.permissions.isSome = true ∧ (1 ≤ v.priority.toInt ∧ v.priority.toInt ≤ 10000) ∧
      v.deleted = body.deleted := by
  simp only [updateACLRule, Option.ite_none_right_eq_some, Option.some.injEq] at h
  obtain ⟨hv, rfl⟩ := h
  have hvalid := validACLRule_spec (Bool.and_eq_true_iff.mp hv).1
  exact ⟨hvalid.1, hvalid.2, rfl⟩

def strategyScopes : List String := ["global", "user", "user_group", "device", "device_group"]

def Checks.validStrategy (c : Checks) (v : Strategy) : Bool :=
  2 ≤ (c.trimSpace v.name).utf8ByteSize && v.name.utf8ByteSize ≤ 128
    && v.scopeType ∈ strategyScopes && !(v.settings.getD []).isEmpty
    && (v.settings.getD []).length ≤ 64 && 1 ≤ v.priority.toInt && v.priority.toInt ≤ 100000
    && !(v.scopeType = "global" && v.scopeId ≠ "")
    && !(v.scopeType ≠ "global" && (v.scopeId = "" || 128 < v.scopeId.utf8ByteSize))
    && c.validSettings (v.settings.getD [])

theorem Checks.validStrategy_spec (h : c.validStrategy v = true) :
    v.settings.isSome = true ∧ 1 ≤ v.priority.toInt ∧ v.priority.toInt ≤ 100000 := by
  simp only [validStrategy, Bool.and_eq_true, decide_eq_true_eq, Bool.not_eq_true',
    List.isEmpty_eq_false_iff] at h
  obtain ⟨⟨⟨⟨⟨⟨⟨-, hs⟩, -⟩, hlo⟩, hhi⟩, -⟩, -⟩, -⟩ := h
  refine ⟨?_, hlo, hhi⟩
  cases hv : v.settings with
  | none => rw [hv] at hs; exact absurd rfl hs
  | some l => rfl

def Checks.createStrategy (c : Checks) (body : Strategy) (id : String) (now : Nat) :
    Option Strategy :=
  let v := { body with
    name := c.trimSpace body.name
    priority := if body.priority = 0 then 100 else body.priority }
  if c.validStrategy v && c.strategyReferences v then
    some { v with id := id, enabled := true, createdAt := now, updatedAt := now }
  else none

def Checks.updateStrategy (c : Checks) (body : Strategy) (id : String) (now : Nat) :
    Option Strategy :=
  if c.validStrategy body && c.strategyReferences body then
    some { body with id := id, name := c.trimSpace body.name, updatedAt := now }
  else none

theorem Checks.createStrategy_spec (h : c.createStrategy body id now = some v) :
    v.settings.isSome = true ∧ (1 ≤ v.priority.toInt ∧ v.priority.toInt ≤ 100000) ∧
      v.deleted = body.deleted := by
  simp only [createStrategy, Option.ite_none_right_eq_some, Option.some.injEq] at h
  obtain ⟨hv, rfl⟩ := h
  have hvalid := validStrategy_spec (Bool.and_eq_true_iff.mp hv).1
  exact ⟨hvalid.1, hvalid.2, rfl⟩

theorem Checks.updateStrategy_spec (h : c.updateStrategy body id now = some v) :
    v.settings.isSome = true ∧ (1 ≤ v.priority.toInt ∧ v.priority.toInt ≤ 100000) ∧
      v.deleted = body.deleted := by
  simp only [updateStrategy, Option.ite_none_right_eq_some, Option.some.injEq] at h
  obtain ⟨hv, rfl⟩ := h
  have hvalid := validStrategy_spec (Bool.and_eq_true_iff.mp hv).1
  exact ⟨hvalid.1, hvalid.2, rfl⟩

theorem Checks.createStrategy_enabled (h : c.createStrategy body id now = some v) :
    v.enabled = true := by
  simp only [createStrategy, Option.ite_none_right_eq_some, Option.some.injEq] at h
  obtain ⟨-, rfl⟩ := h
  rfl

theorem Checks.updateStrategy_enabled (h : c.updateStrategy body id now = some v) :
    v.enabled = body.enabled := by
  simp only [updateStrategy, Option.ite_none_right_eq_some, Option.some.injEq] at h
  obtain ⟨-, rfl⟩ := h
  rfl

/-- `validRelay`, which also trims the texts. -/
def Checks.validRelay (c : Checks) (v : RelayServer) : Option RelayServer :=
  let v := { v with
    name := c.trimSpace v.name
    hostname := c.trimSpace v.hostname
    region := c.trimSpace v.region }
  if 2 ≤ v.name.utf8ByteSize ∧ v.name.utf8ByteSize ≤ 128 ∧ 1 ≤ v.hostname.utf8ByteSize
      ∧ v.hostname.utf8ByteSize ≤ 253 ∧ 1 ≤ v.port.toInt ∧ v.port.toInt ≤ 65535
      ∧ v.region.utf8ByteSize ≤ 64 then some v
  else none

theorem Checks.validRelay_spec {body v : RelayServer} (h : c.validRelay body = some v) :
    (1 ≤ v.port.toInt ∧ v.port.toInt ≤ 65535) ∧ v.deleted = body.deleted ∧
      v.latencyMs = body.latencyMs ∧ v.connections = body.connections := by
  simp only [validRelay] at h
  split at h
  · next hv =>
    cases h
    exact ⟨⟨hv.2.2.2.2.1, hv.2.2.2.2.2.1⟩, rfl, rfl, rfl⟩
  · cases h

def Checks.createRelayServer (c : Checks) (body : RelayServer) (id : String) (now : Nat) :
    Option RelayServer :=
  (c.validRelay body).map fun v =>
    { v with id := id, enabled := true, health := "unknown", createdAt := now, updatedAt := now }

/-- `current` is the stored row, if the list could be read and has it. -/
def Checks.updateRelayServer (c : Checks) (body : RelayServer) (id : String) (now : Nat)
    (current : Option RelayServer) : Option RelayServer :=
  (c.validRelay body).map fun v =>
    current.getD { v with id := id, health := "unknown", updatedAt := now }

end RemoteControl.Sync
