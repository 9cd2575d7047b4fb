import RemoteControl.Sync.StrategyResolve

/-!
# Which strategy a setting comes from

`Resolve` sorts the strategies that count and lets each overwrite what the ones before it have set.
So every setting has its own winner:

> of the strategies that set it, the greatest by priority, then scope, then time of the update, and
> of several such ones the last in the list.

Times are only compared, so it does not matter in which unit they are given.
-/

namespace RemoteControl.Sync

open Lib

/-- The strategy applies to the device, is enabled and not deleted. -/
def Strategy.counts (device : Device) (userGroups : List String) (v : Strategy) : Bool :=
  v.appliesTo device userGroups && v.enabled && !v.deleted

/-- The strategy counts and has a value for the key. -/
def Strategy.Sets (device : Device) (userGroups : List String) (key : String) (v : Strategy) :
    Prop :=
  v.counts device userGroups = true ∧ (v.setting? key).isSome = true

theorem applied_eq (values : List Strategy) (device : Device) (userGroups : List String) :
    applied values device userGroups = values.filter (Strategy.counts device userGroups) := by
  rw [applied, List.filter_filter]
  refine List.filter_congr fun v _ => ?_
  rw [Strategy.counts, Bool.and_assoc (Strategy.appliesTo device userGroups v)]
  exact Bool.and_comm _ _

/-- The setting, with those that do not count left in the list. -/
theorem effectiveSettings_eq_of_counts (f : Formats) (values : List Strategy) (device : Device)
    (userGroups : List String) (key : String) :
    (resolve f values device userGroups).effectiveSettings key
      = lastValue (fun v => if v.counts device userGroups then v.setting? key else none)
          (sortByKey Strategy.rank values) := by
  rw [effectiveSettings_eq, applied_eq, ← sortByKey_filter, lastValue_filter_of]

theorem isSome_iff_sets {device : Device} {userGroups : List String} {key : String} {v : Strategy} :
    (if v.counts device userGroups then v.setting? key else none).isSome = true ↔
      v.Sets device userGroups key := by
  unfold Strategy.Sets
  split
  · next h => exact (and_iff_right h).symm
  · next h => exact iff_of_false nofun fun hs => h hs.1

/-- Each setting is the value of the winner among the strategies that set it; it is there exactly if
there is one; and strategies that do not count may be put in, taken out or changed. -/
theorem effectiveSettings_winner (f : Formats) (values : List Strategy) (device : Device)
    (userGroups : List String) (key : String) :
    (∀ raw, (resolve f values device userGroups).effectiveSettings key = some raw ↔
      ∃ (before : List Strategy) (v : Strategy) (after : List Strategy),
        values = before ++ v :: after ∧ v.counts device userGroups = true ∧
        v.setting? key = some raw ∧
        (∀ u ∈ before, u.Sets device userGroups key → u.rank ≤ v.rank) ∧
        ∀ u ∈ after, u.Sets device userGroups key → u.rank < v.rank) ∧
    ((resolve f values device userGroups).effectiveSettings key ≠ none ↔
      ∃ v ∈ values, v.Sets device userGroups key) ∧
    ∀ others : List Strategy,
      others.filter (Strategy.counts device userGroups)
        = values.filter (Strategy.counts device userGroups) →
      (resolve f others device userGroups).effectiveSettings key
        = (resolve f values device userGroups).effectiveSettings key := by
  refine ⟨fun raw => ?_, ?_, fun others hothers => ?_⟩
  · rw [effectiveSettings_eq_of_counts, lastValue_sortByKey_iff]
    constructor
    · rintro ⟨before, v, after, rfl, hv, hbefore, hafter⟩
      obtain ⟨hcounts, hraw⟩ := Option.ite_none_right_eq_some.mp hv
      exact ⟨before, v, after, rfl, hcounts, hraw,
        fun u hu hsets => hbefore u hu (isSome_iff_sets.mpr hsets),
        fun u hu hsets => hafter u hu (isSome_iff_sets.mpr hsets)⟩
    · rintro ⟨before, v, after, rfl, hcounts, hraw, hbefore, hafter⟩
      exact ⟨before, v, after, rfl, Option.ite_none_right_eq_some.mpr ⟨hcounts, hraw⟩,
        fun u hu hsome => hbefore u hu (isSome_iff_sets.mp hsome),
        fun u hu hsome => hafter u hu (isSome_iff_sets.mp hsome)⟩
  · rw [effectiveSettings_eq_of_counts, Ne, lastValue_eq_none]
    constructor
    · intro hnot
      by_contra hnone
      refine hnot fun v hv => ?_
      rw [← Option.not_isSome_iff_eq_none, isSome_iff_sets]
      exact fun hsets => hnone ⟨v, mem_sortByKey.mp hv, hsets⟩
    · rintro ⟨v, hv, hsets⟩ hall
      have hnone := hall v (mem_sortByKey.mpr hv)
      rw [← Option.not_isSome_iff_eq_none, isSome_iff_sets] at hnone
      exact hnone hsets
  · rw [effectiveSettings_eq, effectiveSettings_eq, applied_eq, applied_eq, hothers]

/-- The strategy for the device comes first in the list and wins over the one for everybody; a
strategy that is switched off changes nothing. -/
theorem effectiveSettings_winner_device :
    (resolve plainFormats [relayDevice, { relayDevice with enabled := false }, relayNowhere]
        sampleDevice []).effectiveSettings "force_relay" = some (.bool true) := by
  have hcounts : relayDevice.counts sampleDevice [] = true := by decide
  have hone := ((effectiveSettings_winner plainFormats [relayDevice, relayNowhere] sampleDevice []
    "force_relay").1 (.bool true)).mpr ⟨[], relayDevice, [relayNowhere], rfl, hcounts, rfl,
      nofun, fun u hu _ => List.mem_singleton.mp hu ▸ by decide⟩
  rw [← hone]
  exact (effectiveSettings_winner plainFormats [relayDevice, relayNowhere] sampleDevice []
    "force_relay").2.2 _ rfl

end RemoteControl.Sync
