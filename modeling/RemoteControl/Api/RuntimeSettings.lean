import Mathlib.Logic.Function.Basic
import RemoteControl.Lib.Table

/-!
# Runtime settings

`runtimeconfig/service.go`. An update is applied to a copy of the values in force, and only its own
keys are stored. At a start all stored keys are applied to the defaults.

> The values in force are the defaults with the stored settings laid over them (`overlay`).

Whether a setting can be read does not depend on the others, so what was accepted once is accepted
again, in whatever order a map is walked. The values are a function of the setting, each of its own
type; durations are in nanoseconds.
-/

namespace RemoteControl.Settings

open Lib Table

inductive MfaMode
  | optional | requiredForAdmins | requiredForAllUsers
deriving DecidableEq, Repr

inductive Setting
  | requireLogin | requireDeviceDeployment | registrationEnabled | registrationAutoApprove
  | accessTokenTtl | sessionTtl | mfaMode | passwordMinimumLength | passwordRequireUpper
  | passwordRequireLower | passwordRequireNumber | passwordRequireSpecial
deriving DecidableEq, Repr

namespace Setting

def all : List Setting :=
  [requireLogin, requireDeviceDeployment, registrationEnabled, registrationAutoApprove,
    accessTokenTtl, sessionTtl, mfaMode, passwordMinimumLength, passwordRequireUpper,
    passwordRequireLower, passwordRequireNumber, passwordRequireSpecial]

def key : Setting → String
  | requireLogin => "require_login"
  | requireDeviceDeployment => "require_device_deployment"
  | registrationEnabled => "registration_enabled"
  | registrationAutoApprove => "registration_auto_approve"
  | accessTokenTtl => "access_token_ttl"
  | sessionTtl => "session_ttl"
  | mfaMode => "mfa_mode"
  | passwordMinimumLength => "password_minimum_length"
  | passwordRequireUpper => "password_require_upper"
  | passwordRequireLower => "password_require_lower"
  | passwordRequireNumber => "password_require_number"
  | passwordRequireSpecial => "password_require_special"

def ofKey? (key : String) : Option Setting := all.find? fun s => s.key = key

abbrev Value : Setting → Type
  | accessTokenTtl | sessionTtl | passwordMinimumLength => Int
  | mfaMode => MfaMode
  | _ => Bool

end Setting

/-- What is used of `strconv`, `time` and `fmt`. -/
structure TextLib where
  atoi : String → Option Int
  parseDuration : String → Option Int
  /-- the verb `%q` -/
  quote : String → String

/-- `strconv.ParseBool`. -/
def parseBool (raw : String) : Option Bool :=
  if raw ∈ ["1", "t", "T", "TRUE", "true", "True"] then some true
  else if raw ∈ ["0", "f", "F", "FALSE", "false", "False"] then some false
  else none

def parseTtl (lib : TextLib) (raw : String) : Option Int :=
  (lib.parseDuration raw).filter fun d => 300000000000 ≤ d ∧ d ≤ 7776000000000000

def Setting.parse (lib : TextLib) : (s : Setting) → String → Option s.Value
  | accessTokenTtl, raw | sessionTtl, raw => parseTtl lib raw
  | passwordMinimumLength, raw => (lib.atoi raw).filter fun n => 8 ≤ n ∧ n ≤ 128
  | mfaMode, raw =>
    if raw = "optional" then some .optional
    else if raw = "required_for_admins" then some .requiredForAdmins
    else if raw = "required_for_all_users" then some .requiredForAllUsers
    else none
  | requireLogin, raw | requireDeviceDeployment, raw | registrationEnabled, raw
  | registrationAutoApprove, raw | passwordRequireUpper, raw | passwordRequireLower, raw
  | passwordRequireNumber, raw | passwordRequireSpecial, raw => parseBool raw

/-- The error for a text that cannot be read. -/
def Setting.complaint (s : Setting) : String := match s with
  | accessTokenTtl | sessionTtl => s.key ++ " must be between 5m and 2160h"
  | passwordMinimumLength => "password_minimum_length must be between 8 and 128"
  | mfaMode => "invalid mfa_mode"
  | _ => s.key ++ " must be boolean"

abbrev Values := (s : Setting) → s.Value

/-- The loop of `applyTo`, over a map in the order in which it is walked. -/
def applyAll (lib : TextLib) (value : Values) : List (String × String) → Except String Values
  | [] => .ok value
  | (key, raw) :: input =>
    match Setting.ofKey? key with
    | none => .error ("unknown runtime setting " ++ lib.quote key)
    | some s =>
      match s.parse lib raw with
      | none => .error s.complaint
      | some parsed => applyAll lib (Function.update value s parsed) input

def applyTo (lib : TextLib) (value : Values) (input : List (String × String)) :
    Except String Values :=
  match applyAll lib value input with
  | .error e => .error e
  | .ok value =>
    if value .sessionTtl < value .accessTokenTtl then
      .error "access_token_ttl cannot exceed session_ttl"
    else .ok value

/-- A map, or the table `runtime_settings`: every key is there once. -/
abbrev StringMap := Table (Prod.fst : String × String → String)

/-- The service and its table. -/
structure Service where
  values : Values
  stored : StringMap

/-- An update, the orders in which its map is walked, and whether the transaction fails. -/
structure Update where
  input : StringMap
  applied : List (String × String)
  written : List (String × String)
  fails : Option String
  applied_perm : applied.Perm input.rows
  written_perm : written.Perm input.rows

/-- `Update`. A transaction that fails is rolled back. -/
def Service.update (lib : TextLib) (w : Service) (u : Update) : Service × Except String Values :=
  match applyTo lib w.values u.applied with
  | .error e => (w, .error e)
  | .ok next =>
    match u.fails with
    | some e => (w, .error e)
    | none => (⟨next, w.stored.putAll u.written⟩, .ok next)

/-- `New` has read the table and given these values. -/
def Loads (lib : TextLib) (defaults : Values) (stored : StringMap) (values : Values) : Prop :=
  ∀ order : List (String × String), order.Perm stored.rows →
    applyTo lib defaults order = .ok values

/-! ## Laying settings over values -/

variable {lib : TextLib} {v v' defaults : Values} {m : StringMap} {w : Service}

/-- What a map says of a setting. -/
def StringMap.setting (lib : TextLib) (m : StringMap) (s : Setting) : Option s.Value :=
  (m.get? s.key).bind fun r => s.parse lib r.2

def overlay (lib : TextLib) (m : StringMap) (v : Values) : Values :=
  fun s => (m.setting lib s).getD (v s)

/-- Every row is a setting that can be read. -/
def Readable (lib : TextLib) (rows : List (String × String)) : Prop :=
  ∀ r ∈ rows, ∃ s : Setting, s.key = r.1 ∧ (s.parse lib r.2).isSome = true

theorem key_inj {s t : Setting} (h : s.key = t.key) : s = t := by
  revert h
  cases s <;> cases t <;> decide

theorem ofKey?_eq_some {key : String} {s : Setting} :
    Setting.ofKey? key = some s ↔ s.key = key := by
  constructor
  · intro h
    simpa using List.find?_some h
  · rintro rfl
    cases s <;> rfl

theorem applyAll_iff {rows : List (String × String)} (hn : (rows.map Prod.fst).Nodup) :
    applyAll lib v rows = .ok v' ↔ Readable lib rows ∧ v' = fun s =>
      ((rows.find? fun r => r.1 = s.key).bind fun r => s.parse lib r.2).getD (v s) := by
  induction rows generalizing v with
  | nil => exact ⟨fun h => by cases h; exact ⟨nofun, rfl⟩, fun h => by rw [h.2]; rfl⟩
  | cons r rows ih =>
    obtain ⟨key, raw⟩ := r
    rw [List.map_cons, List.nodup_cons] at hn
    rw [applyAll, Readable, List.forall_mem_cons]
    cases hs : Setting.ofKey? key with
    | none =>
      refine ⟨nofun, ?_⟩
      rintro ⟨⟨⟨s, hkey, -⟩, -⟩, -⟩
      rw [ofKey?_eq_some.mpr hkey] at hs
      cases hs
    | some s =>
      have hkey := ofKey?_eq_some.mp hs
      have hhead : ∀ P : Setting → Prop, (∃ t : Setting, t.key = key ∧ P t) ↔ P s := by
        intro P
        refine ⟨?_, fun h => ⟨s, hkey, h⟩⟩
        rintro ⟨t, ht, h⟩
        rwa [← key_inj (ht.trans hkey.symm)]
      rw [hhead]
      cases hparse : s.parse lib raw with
      | none =>
        simp only [hparse]
        exact ⟨nofun, fun h => nomatch h.1.1⟩
      | some x =>
        simp only [hparse, ih hn.2, Option.isSome_some, true_and]
        refine and_congr_right fun _ => ?_
        -- the key is in no other row
        have hsame : (fun t : Setting => ((rows.find? fun r => r.1 = t.key).bind
              fun r => t.parse lib r.2).getD (Function.update v s x t)) =
            fun t => ((((key, raw) :: rows).find? fun r => r.1 = t.key).bind
              fun r => t.parse lib r.2).getD (v t) := by
          funext t
          by_cases ht : t = s
          · subst ht
            have hnone : (rows.find? fun r => r.1 = t.key) = none := by
              refine List.find?_eq_none.mpr fun r hr heq => hn.1 ?_
              have hfst : r.1 = key := (of_decide_eq_true heq).trans hkey
              show key ∈ rows.map Prod.fst
              rw [← hfst]
              exact List.mem_map_of_mem hr
            rw [hnone, List.find?_cons_of_pos (by simpa using hkey.symm), Option.bind_some, hparse]
            exact Function.update_self ..
          · have hne : ¬ key = t.key := fun heq => ht (key_inj (hkey.trans heq).symm)
            rw [List.find?_cons_of_neg (by simpa using hne), Function.update_of_ne ht]
        rw [hsame]

/-- The order in which a map is walked does not matter. -/
theorem applyTo_iff {rows : List (String × String)} (hp : rows.Perm m.rows) :
    applyTo lib v rows = .ok v' ↔ Readable lib m.rows ∧ v' = overlay lib m v ∧
      v' .accessTokenTtl ≤ v' .sessionTtl := by
  have hn : (rows.map Prod.fst).Nodup := (hp.map Prod.fst).nodup_iff.mpr m.nodup
  have hreadable : Readable lib rows ↔ Readable lib m.rows := by
    simp only [Readable, hp.mem_iff]
  have hvalues : (fun s : Setting => ((rows.find? fun r => r.1 = s.key).bind
      fun r => s.parse lib r.2).getD (v s)) = overlay lib m v := by
    funext s
    rw [find?_perm hp s.key]
    rfl
  have hall : ∀ v', applyAll lib v rows = .ok v' ↔ Readable lib m.rows ∧ v' = overlay lib m v := by
    intro v'
    rw [applyAll_iff hn, hreadable, hvalues]
  unfold applyTo
  cases happly : applyAll lib v rows with
  | error e =>
    refine ⟨nofun, fun h => ?_⟩
    rw [(hall v').mpr ⟨h.1, h.2.1⟩] at happly
    cases happly
  | ok value =>
    obtain ⟨hread, rfl⟩ := (hall value).mp happly
    dsimp only
    split_ifs with httl
    · refine ⟨nofun, fun h => ?_⟩
      rw [h.2.1] at h
      exact absurd h.2.2 (Int.not_le.mpr httl)
    · refine ⟨fun h => ?_, fun h => by rw [h.2.1]⟩
      cases h
      exact ⟨hread, rfl, Int.not_lt.mp httl⟩

/-! ## Updates -/

/-- What is in force is what a start would load. -/
structure Service.Inv (lib : TextLib) (defaults : Values) (w : Service) : Prop where
  readable : Readable lib w.stored.rows
  values : w.values = overlay lib w.stored defaults
  ttl : w.values .accessTokenTtl ≤ w.values .sessionTtl

theorem Service.inv_iff_loads : w.Inv lib defaults ↔ Loads lib defaults w.stored w.values := by
  constructor
  · intro h order hp
    exact (applyTo_iff hp).mpr ⟨h.readable, h.values, h.ttl⟩
  · intro h
    obtain ⟨hread, hvalues, httl⟩ := (applyTo_iff (.refl _)).mp (h _ (.refl _))
    exact ⟨hread, hvalues, httl⟩

theorem setting_putAll {input : StringMap} {written : List (String × String)}
    (hp : written.Perm input.rows) (hr : Readable lib input.rows) (m : StringMap) (s : Setting) :
    StringMap.setting lib (m.putAll written) s
      = (StringMap.setting lib input s).or (StringMap.setting lib m s) := by
  unfold StringMap.setting
  cases hget : input.get? s.key with
  | none =>
    have hnone : ∀ r ∈ written, r.1 ≠ s.key := fun r hr =>
      get?_eq_none.mp hget r (hp.mem_iff.mp hr)
    rw [get?_putAll_of_not_mem m hnone]
    rfl
  | some r =>
    have hmem := mem_of_get? hget
    have hkey : r.1 = s.key := get?_key hget
    have hn : (written.map Prod.fst).Nodup := (hp.map Prod.fst).nodup_iff.mpr input.nodup
    have hput := get?_putAll_of_mem m hn (hp.mem_iff.mpr hmem)
    rw [hkey] at hput
    -- what the update says of the setting can be read
    obtain ⟨t, ht, hsome⟩ := hr r hmem
    obtain rfl := key_inj (ht.trans hkey)
    obtain ⟨x, hx⟩ := Option.isSome_iff_exists.mp hsome
    rw [hput, Option.bind_some, hx]
    rfl

theorem readable_putAll {rows : List (String × String)} (hm : Readable lib m.rows)
    (hr : Readable lib rows) : Readable lib (m.putAll rows).rows := by
  induction rows generalizing m with
  | nil => exact hm
  | cons r rows ih =>
    rw [Readable, List.forall_mem_cons] at hr
    exact ih (all_put hm hr.1) hr.2

theorem Service.Inv.update (h : w.Inv lib defaults) (u : Update) :
    (w.update lib u).1.Inv lib defaults := by
  unfold Service.update
  cases happly : applyTo lib w.values u.applied with
  | error e => exact h
  | ok next =>
    obtain ⟨hread, hnext, httl⟩ := (applyTo_iff u.applied_perm).mp happly
    cases u.fails with
    | some e => exact h
    | none =>
      refine ⟨readable_putAll h.readable fun r hr => hread r (u.written_perm.mem_iff.mp hr), ?_,
        httl⟩
      · show next = overlay lib (w.stored.putAll u.written) defaults
        funext s
        rw [hnext, overlay, overlay, h.values, overlay, setting_putAll u.written_perm hread]
        cases StringMap.setting lib u.input s <;> rfl

/-- Whatever updates a service has seen since its start: a start with the same defaults loads the
values in force, the access token never outlives the session, and an update that fails has changed
nothing. -/
theorem settings_survive_restart (lib : TextLib) {defaults : Values} {w : Service}
    (hstart : Loads lib defaults w.stored w.values) (updates : List Update) :
    let now := updates.foldl (fun w u => (w.update lib u).1) w
    Loads lib defaults now.stored now.values ∧
      now.values .accessTokenTtl ≤ now.values .sessionTtl ∧
      ∀ u, (now.update lib u).2.toOption = none → (now.update lib u).1 = now := by
  intro now
  have hinv : now.Inv lib defaults := by
    have hw := Service.inv_iff_loads.mpr hstart
    clear hstart
    induction updates generalizing w with
    | nil => exact hw
    | cons u updates ih => exact ih (hw.update u)
  refine ⟨Service.inv_iff_loads.mp hinv, hinv.ttl, fun u => ?_⟩
  unfold Service.update
  split
  · exact fun _ => rfl
  · split
    · exact fun _ => rfl
    · exact nofun

def Service.first (defaults : Values) : Service := ⟨defaults, .empty⟩

/-- Valid defaults are what a first start loads. -/
theorem Service.first_loads (lib : TextLib) {defaults : Values}
    (h : defaults .accessTokenTtl ≤ defaults .sessionTtl) :
    Loads lib defaults (first defaults).stored (first defaults).values :=
  inv_iff_loads.mp ⟨fun _ hr => absurd hr List.not_mem_nil, rfl, h⟩

def sampleLib : TextLib :=
  ⟨fun _ => none, fun raw => if raw = "1h" then some 3600000000000 else none, id⟩

def sampleDefaults : Values
  | .accessTokenTtl => 900000000000
  | .sessionTtl => 2592000000000000
  | .mfaMode => .optional
  | .passwordMinimumLength => (12 : Int)
  | .requireLogin | .requireDeviceDeployment | .registrationEnabled | .registrationAutoApprove
  | .passwordRequireUpper | .passwordRequireLower | .passwordRequireNumber
  | .passwordRequireSpecial => false

/-- Two settings are changed; after the restart they are still so. -/
theorem changed_settings_survive :
    let input : StringMap := ⟨[("session_ttl", "1h"), ("require_login", "true")], by decide⟩
    let now := ((Service.first sampleDefaults).update sampleLib
      ⟨input, _, _, none, .refl _, .refl _⟩).1
    now.values .sessionTtl = (3600000000000 : Int) ∧ now.values .requireLogin = true ∧
      Loads sampleLib sampleDefaults now.stored now.values := by
  intro input now
  have hstart := Service.first_loads sampleLib (by decide : sampleDefaults .accessTokenTtl ≤ _)
  have hall := settings_survive_restart sampleLib hstart [⟨input, _, _, none, .refl _, .refl _⟩]
  exact ⟨by decide, by decide, hall.1⟩

end RemoteControl.Settings
