import RemoteControl.Sync.AclPreview

/-!
# What the strategies say

`strategy/service.go`: the settings a strategy may have, and `Resolve`, which merges the
strategies that apply to a device, lower precedence first. HBBS merges the strategies
that apply to a connection in the same manner, so on the same strategies the two differ
only in the order. The API has

> larger priorities later, then more specific scopes, then later updates,

and HBBS has larger priorities later and then *less* specific scopes; what ties beyond
that it leaves to the order in which its map is walked.
-/

namespace RemoteControl.Sync

open Lib List

variable {raw : Json} {v : Strategy}

/-! ## Settings -/

inductive SettingKind
  | boolean | text
deriving DecidableEq, Repr

/-- Key and kind of the known settings. -/
def definitions : List (String × SettingKind) :=
  [("require_login", .boolean), ("require_managed_device", .boolean),
    ("allow_remote_control", .boolean), ("allow_file_transfer", .boolean),
    ("allow_clipboard", .boolean), ("allow_tcp_tunnel", .boolean), ("force_relay", .boolean),
    ("disable_direct_ip", .boolean), ("disable_lan_discovery", .boolean),
    ("disable_settings", .boolean), ("id_server", .text), ("relay_server", .text),
    ("api_server", .text)]

inductive SettingsError
  | count
  | unsupported (key : String)
  | tooLong (key : String)
  | invalidValue (key : String)
  | notBoolean (key : String)
  | notString (key : String)
deriving DecidableEq, Repr

/-- `strings.HasPrefix(key, "rustdesk.")`. -/
def isClientKey (key : String) : Bool := "rustdesk.".toList.isPrefixOf key.toList

/-- `strings.ContainsAny(s, " \t\r\n")`. -/
def hasBlank (s : String) : Bool := s.toList.any fun c => c ∈ [' ', '\t', '\r', '\n']

def validateSetting (key : String) (raw : Json) : Except SettingsError Unit :=
  match definitions.lookup key with
  | none =>
    if !isClientKey key || 136 < key.utf8ByteSize || hasBlank key then .error (.unsupported key)
    else
      match raw with
      | .bool _ | .num _ _ => .ok ()
      | .str value => if 2048 < value.utf8ByteSize then .error (.tooLong key) else .ok ()
      | _ => .error (.invalidValue key)
  | some .boolean =>
    match raw with
    | .bool _ => .ok ()
    | _ => .error (.notBoolean key)
  | some .text =>
    match raw with
    | .str value => if 2048 < value.utf8ByteSize then .error (.notString key) else .ok ()
    | _ => .error (.notString key)

/-- The loop over the settings, in the order in which the map is walked. -/
def validateEach : List (String × Json) → Except SettingsError Unit
  | [] => .ok ()
  | (key, raw) :: rest =>
    match validateSetting key raw with
    | .error e => .error e
    | .ok () => validateEach rest

def validateSettings (settings : List (String × Json)) : Except SettingsError Unit :=
  if settings.length = 0 ∨ 64 < settings.length then .error .count else validateEach settings

/-! ## Client options -/

/-- `strings.TrimSpace`, and the verb `%g` for a number. -/
structure Formats where
  trimSpace : String → String
  number : Int → Int → String

/-- The options of the Boolean settings, and whether they have the opposite sense. -/
def booleanOptions : List (String × String × Bool) :=
  [("allow_remote_control", "enable-keyboard", false),
    ("allow_file_transfer", "enable-file-transfer", false),
    ("allow_clipboard", "enable-clipboard", false), ("allow_tcp_tunnel", "enable-tunnel", false),
    ("force_relay", "force-relay", false), ("disable_direct_ip", "direct-server", true),
    ("disable_lan_discovery", "enable-lan-discovery", true),
    ("disable_settings", "disable-settings", false)]

def stringOptions : List (String × String) :=
  [("id_server", "custom-rendezvous-server"), ("relay_server", "relay-server"),
    ("api_server", "api-server")]

def yn (value : Bool) : String := if value then "Y" else "N"

def stringOption (f : Formats) (option : String) : Json → Option (String × String)
  | .str raw =>
    let value := f.trimSpace raw
    if value.utf8ByteSize ≤ 2048 then some (option, value) else none
  | _ => none

/-- The option a setting is for a client, and its value. -/
def clientOption (f : Formats) (key : String) (raw : Json) : Option (String × String) :=
  match booleanOptions.lookup key with
  | some (option, opposite) => (asBool raw).map fun b => (option, yn (b != opposite))
  | none =>
    match stringOptions.lookup key with
    | some option => stringOption f option raw
    | none =>
      if !isClientKey key then none
      else
        let option := String.ofList (key.toList.drop 9)
        if option = "" || 128 < option.utf8ByteSize || hasBlank option then none
        else
          match raw with
          | .bool value => some (option, yn value)
          | .str value => if value.utf8ByteSize ≤ 2048 then some (option, value) else none
          | .num mantissa exponent => some (option, f.number mantissa exponent)
          | _ => none

/-! ## Resolution -/

/-- `matches`. -/
def Strategy.appliesTo (device : Device) (userGroups : List String) (v : Strategy) : Bool :=
  if v.scopeType = "global" then true
  else if v.scopeType = "user" then device.ownerUserId ≠ "" && v.scopeId = device.ownerUserId
  else if v.scopeType = "user_group" then v.scopeId ∈ userGroups
  else if v.scopeType = "device_group" then device.groupId ≠ "" && v.scopeId = device.groupId
  else if v.scopeType = "device" then v.scopeId = device.rustdeskId
  else false

def specificity (scope : String) : ℤ :=
  if scope = "global" then 0
  else if scope = "user_group" then 1
  else if scope = "user" then 2
  else if scope = "device_group" then 3
  else if scope = "device" then 4
  else -1

/-- What the sort of `Resolve` compares. -/
def Strategy.rank (v : Strategy) : ℤ ×ₗ ℤ ×ₗ ℕ :=
  toLex (v.priority.toInt, toLex (specificity v.scopeType, v.updatedAt))

/-- A strategy's value for a key. -/
def Strategy.setting? (key : String) (v : Strategy) : Option Json :=
  Sync.setting? key (v.settings.getD [])

structure StrategyResult where
  modifiedAt : Nat
  configOptions : String → Option String
  effectiveSettings : String → Option Json
  matchedStrategyIds : List String

/-- `m[key] = value`. -/
def assign {β : Type} (m : String → Option β) (key : String) (value : β) : String → Option β :=
  fun k => if k = key then some value else m k

/-- The strategies whose settings count. -/
def applied (values : List Strategy) (device : Device) (userGroups : List String) :
    List Strategy :=
  (values.filter (Strategy.appliesTo device userGroups)).filter fun v => v.enabled && !v.deleted

/-- The options of a strategy that applies, switched off or not, are in the result; `value` makes
their values. -/
def setOptions (f : Formats) (value : String → String) (options : String → Option String)
    (v : Strategy) : String → Option String :=
  (v.settings.getD []).foldl (fun options (key, raw) =>
    match clientOption f key raw with
    | some (option, setting) => assign options option (value setting)
    | none => options) options

/-- The settings of a map assigned to another one; as its keys are different ones, the order
does not matter. -/
def mergeSettings (effective : String → Option Json) (v : Strategy) : String → Option Json :=
  fun key => (v.setting? key).or (effective key)

/-- `ClientOptions`, for a map that is walked in this order. -/
def clientOptions (f : Formats) (settings : List (String × Json)) : String → Option String :=
  settings.foldl (fun options (key, raw) =>
    match clientOption f key raw with
    | some (option, value) => assign options option value
    | none => options) fun _ => none

def resolve (f : Formats) (values : List Strategy) (device : Device) (userGroups : List String) :
    StrategyResult :=
  let matching := values.filter (Strategy.appliesTo device userGroups)
  let matched := sortByKey Strategy.rank (applied values device userGroups)
  { modifiedAt := matching.foldl (fun t v => if t < v.updatedAt then v.updatedAt else t) 0
    configOptions := matched.foldl (setOptions f id)
      (matching.foldl (setOptions f fun _ => "") fun _ => none)
    effectiveSettings := matched.foldl mergeSettings fun _ => none
    matchedStrategyIds := matched.map Strategy.id }

theorem foldl_mergeSettings (l : List Strategy) (effective : String → Option Json) (key : String) :
    l.foldl mergeSettings effective key
      = l.foldl (fun acc v => (v.setting? key).or acc) (effective key) := by
  induction l generalizing effective with
  | nil => rfl
  | cons v l ih => exact ih (mergeSettings effective v)

theorem effectiveSettings_eq (f : Formats) (values : List Strategy) (device : Device)
    (userGroups : List String) (key : String) :
    (resolve f values device userGroups).effectiveSettings key
      = lastValue (Strategy.setting? key)
          (sortByKey Strategy.rank (applied values device userGroups)) :=
  foldl_mergeSettings _ _ key

/-! ## The settings HBBS enforces -/

theorem validateEach_setting {settings : List (String × Json)} (h : validateEach settings = .ok ())
    {key : String} (hk : setting? key settings = some raw) : validateSetting key raw = .ok () := by
  induction settings with
  | nil => cases hk
  | cons p rest ih =>
    obtain ⟨name, value⟩ := p
    unfold validateEach at h
    split at h
    next => cases h
    next hone =>
      rw [setting?, Json.get?_cons] at hk
      split at hk
      next hname =>
        rw [← hname, ← Option.some.inj hk]
        exact hone
      next => exact ih h hk

/-- A setting that HBBS reads is either known to be Boolean or not supported at all. -/
theorem enforcedKey_cases {key : String} {connectionType : Int32}
    (h : key = strategyPermissionFor connectionType ∨ key = "force_relay") :
    definitions.lookup key = some .boolean ∨
      definitions.lookup key = none ∧ isClientKey key = false := by
  rcases h with rfl | rfl
  · unfold strategyPermissionFor
    split
    · decide
    split
    · decide
    split
    · decide
    split
    · decide
    · decide
  · decide

theorem validateSetting_enforced {key : String} {connectionType : Int32}
    (hkey : key = strategyPermissionFor connectionType ∨ key = "force_relay")
    (h : validateSetting key raw = .ok ()) : ∃ b, raw = .bool b := by
  unfold validateSetting at h
  rcases enforcedKey_cases hkey with hb | ⟨hn, hc⟩
  · rw [hb] at h
    cases raw with
    | bool b => exact ⟨b, rfl⟩
    | _ => cases h
  · simp only [hn, hc, Bool.not_false, Bool.true_or, if_true] at h
    cases h

/-- The validation of settings is the one of the API. -/
def Checks.Validates (c : Checks) : Prop :=
  ∀ settings, c.validSettings settings = true → validateSettings settings = .ok ()

theorem Checks.Validates.boolean {c : Checks} (hc : c.Validates) (h : c.validStrategy v = true)
    {key : String} {connectionType : Int32}
    (hkey : key = strategyPermissionFor connectionType ∨ key = "force_relay") :
    (v.view.boolean key).map Json.bool = v.setting? key := by
  have hset : validateSettings (v.settings.getD []) = .ok () := by
    simp only [Checks.validStrategy, Bool.and_eq_true] at h
    exact hc _ h.2
  unfold validateSettings at hset
  split at hset
  next => cases hset
  show (((Sync.setting? key (v.settings.getD [])).bind asBool).map Json.bool) = v.setting? key
  rw [Strategy.setting?]
  cases hs : Sync.setting? key (v.settings.getD []) with
  | none => rfl
  | some raw =>
    obtain ⟨b, rfl⟩ := validateSetting_enforced hkey (validateEach_setting hset hs)
    rfl

/-! ## The two orders -/

/-- A strategy from which the API may take a key: no other one that has the key comes after it by
priority, then by specificity of the scope, then by the time of its last update. -/
def ApiLast (key : String) (strategies : List Strategy) (v : Strategy) : Prop :=
  v ∈ strategies ∧ (v.setting? key).isSome = true ∧
    ∀ u ∈ strategies, (u.setting? key).isSome = true →
      u.priority < v.priority ∨ u.priority = v.priority ∧
        (specificity u.scopeType < specificity v.scopeType ∨
          specificity u.scopeType = specificity v.scopeType ∧ u.updatedAt ≤ v.updatedAt)

/-- A strategy from which HBBS may take a key: by priority, then by its own number of the scope. -/
def HbbsLast (key : String) (strategies : List Strategy) (v : Strategy) : Prop :=
  v ∈ strategies ∧ (v.setting? key).isSome = true ∧
    ∀ u ∈ strategies, (u.setting? key).isSome = true →
      u.view.priority < v.view.priority ∨
        u.view.priority = v.view.priority ∧ u.view.specificity ≤ v.view.specificity

theorem Strategy.rank_le {u : Strategy} (h : u.rank ≤ v.rank) :
    u.priority < v.priority ∨ u.priority = v.priority ∧
      (specificity u.scopeType < specificity v.scopeType ∨
        specificity u.scopeType = specificity v.scopeType ∧ u.updatedAt ≤ v.updatedAt) := by
  simp only [Strategy.rank, Prod.Lex.toLex_le_toLex] at h
  rwa [← Int64.lt_iff_toInt_lt, Int64.toInt_inj] at h

theorem Strategy.view_rank_le {u : Strategy} (h : u.view.rank ≤ v.view.rank) :
    u.view.priority < v.view.priority ∨
      u.view.priority = v.view.priority ∧ u.view.specificity ≤ v.view.specificity := by
  simp only [StrategyState.rank, Prod.Lex.toLex_le_toLex] at h
  rwa [← Int32.lt_iff_toInt_lt, Int32.toInt_inj] at h

section

variable {t : Table Strategy.id} {device : Device} {userGroups : List String} {f : Formats}
  {key : String}

/-- What the API resolves is the value of a strategy that comes last in its order. -/
theorem resolved_last
    (h : (resolve f t.rows device userGroups).effectiveSettings key = some raw) :
    ∃ v, ApiLast key (applied t.rows device userGroups) v ∧ v.setting? key = some raw := by
  rw [effectiveSettings_eq] at h
  obtain ⟨v, ⟨hv, hhas, hmax⟩, hvalue⟩ := lastValue_sortByKey_mem h
  exact ⟨v, ⟨hv, hhas, fun u hu hkey => Strategy.rank_le (hmax u hu hkey)⟩, hvalue⟩

section

variable {c : Checks} (hc : c.Validates) (hvalid : ∀ v ∈ t.rows, c.validStrategy v = true)
  {connectionType : Int32}
  (hkey : key = strategyPermissionFor connectionType ∨ key = "force_relay")

include hc hvalid hkey

/-- HBBS reads a key that it enforces as the API does. -/
theorem applied_boolean (hv : v ∈ applied t.rows device userGroups) :
    (v.view.boolean key).map Json.bool = v.setting? key :=
  hc.boolean (hvalid v (mem_filter.mp (mem_filter.mp hv).1).1) hkey

/-- What HBBS enforces is the value of a strategy that comes last in its order. -/
theorem enforced_last {l : List StrategyState} {b : Bool}
    (hl : l.Perm ((applied t.rows device userGroups).map Strategy.view))
    (h : enforced key l = some b) :
    ∃ v, HbbsLast key (applied t.rows device userGroups) v ∧ v.setting? key = some (.bool b) := by
  obtain ⟨w, ⟨hw, -, hmax⟩, hvalue⟩ := lastValue_sortByKey_mem h
  obtain ⟨v, hv, rfl⟩ := mem_map.mp (hl.mem_iff.mp hw)
  have hset : v.setting? key = some (.bool b) := by
    rw [← applied_boolean hc hvalid hkey hv, hvalue]
    rfl
  refine ⟨v, ⟨hv, by rw [hset]; rfl, fun u hu hhas => ?_⟩, hset⟩
  rw [← applied_boolean hc hvalid hkey hu, Option.isSome_map] at hhas
  exact Strategy.view_rank_le (hmax u.view (hl.mem_iff.mpr (mem_map_of_mem hu)) hhas)

/-- HBBS has no value for a key only if no strategy that applies has the key. -/
theorem enforced_none {l : List StrategyState}
    (hl : l.Perm ((applied t.rows device userGroups).map Strategy.view))
    (h : enforced key l = none) (hv : v ∈ applied t.rows device userGroups) :
    v.setting? key = none := by
  have hmem : v.view ∈ l := hl.mem_iff.mpr (mem_map_of_mem hv)
  rw [← applied_boolean hc hvalid hkey hv, lastValue_eq_none.mp h _ (mem_sortByKey.mpr hmem)]
  rfl

end

end

/-- A cache that knows the device, its owner's groups and some strategies. -/
def ownerCache (strategies : Table StrategyState.id) (device : Device)
    (userGroups : List String) : CacheState :=
  { CacheState.empty with
    strategies
    devices := Table.empty.put device.view
    userGroups := Table.empty.put ⟨device.ownerUserId, userGroups⟩ }

/-- The sample handlers, with the validation of settings. -/
def settingChecks : Checks :=
  { sampleChecks with validSettings := fun settings => (validateSettings settings).toBool }

theorem settingChecks_validates : settingChecks.Validates := by
  intro settings h
  cases hv : validateSettings settings with
  | ok u => rfl
  | error e =>
    have hfalse : (validateSettings settings).toBool = true := h
    rw [hv] at hfalse
    cases hfalse

def plainFormats : Formats := ⟨id, fun mantissa _ => toString mantissa⟩

/-- A strategy for every connection, and one for the device of the sample installation. -/
def relayNowhere : Strategy :=
  { sampleStrategy with settings := some [("force_relay", .bool false)] }

def relayDevice : Strategy :=
  { sampleStrategy with id := "strategy-2", scopeType := "device", scopeId := "device-1" }

/-- A later update of the first. -/
def relayEverywhere : Strategy := { sampleStrategy with id := "strategy-3", updatedAt := 8 }

end RemoteControl.Sync
