import RemoteControl.Sync.StrategyResolve

/-!
# Options and the order of a map

`ClientOptions` and `Resolve` of `strategy/service.go` go through the settings of a strategy, a map,
in an order that is a different one each time. A setting overwrites what an earlier one has given
its option, so the order is seen where two settings are for one option. There are such pairs:

> the option of a known setting can also be set by its own name, behind `rustdesk.`.

The validation accepts both at once. The options do not depend on the order exactly if, wherever
such a pair decides, the two agree.
-/

namespace RemoteControl.Sync

open Lib List Option

variable {f : Formats} {raw : Json} {key option x : String}

/-- The entries of a map, in the order of a walk. -/
abbrev SettingsMap := List (String × Json)

variable {settings : SettingsMap}

def Strategy.entries (v : Strategy) : SettingsMap := v.settings.getD []

/-- The body of the loops over a map. -/
def setOption (f : Formats) (value : String → String) (options : String → Option String)
    (entry : String × Json) : String → Option String :=
  match clientOption f entry.1 entry.2 with
  | some (option, setting) => assign options option (value setting)
  | none => options

/-- The options of `Resolve`, where the first loop walks the maps as in `first` and the second as in
`second`. -/
def walkedOptions (f : Formats) (first second : List SettingsMap) : String → Option String :=
  second.flatten.foldl (setOption f id)
    (first.flatten.foldl (setOption f fun _ => "") fun _ => none)

/-- The strategies of the second loop, in its order. -/
def matched (values : List Strategy) (device : Device) (userGroups : List String) :
    List Strategy :=
  sortByKey Strategy.rank (applied values device userGroups)

/-- The known settings and their options. -/
def knownOptions : List (String × String) :=
  booleanOptions.map (fun x => (x.1, x.2.1)) ++ stringOptions

/-- The two settings for the option have one value, if the map has both. -/
def NoClashAt (f : Formats) (key option : String) (settings : SettingsMap) : Prop :=
  ∀ raw raw' x y, (key, raw) ∈ settings → ("rustdesk." ++ option, raw') ∈ settings →
    clientOption f key raw = some (option, x) →
    clientOption f ("rustdesk." ++ option) raw' = some (option, y) → x = y

/-- The keys of a map are different ones. -/
def Keyed (settings : SettingsMap) : Prop := (settings.map Prod.fst).Nodup

/-! ## What a walk leaves -/

def optionValue (f : Formats) (option : String) (entry : String × Json) : Option String :=
  (clientOption f entry.1 entry.2).bind fun x => if x.1 = option then some x.2 else none

theorem optionValue_eq_some {entry : String × Json} :
    optionValue f option entry = some x ↔ clientOption f entry.1 entry.2 = some (option, x) := by
  unfold optionValue
  cases h : clientOption f entry.1 entry.2 with
  | none => exact iff_of_false nofun nofun
  | some p =>
    obtain ⟨o, y⟩ := p
    rw [bind_some, some_inj, Prod.mk.injEq, ite_none_right_eq_some, some_inj]

theorem setOption_apply (f : Formats) (value : String → String) (options : String → Option String)
    (entry : String × Json) (option : String) :
    setOption f value options entry option
      = ((optionValue f option entry).map value).or (options option) := by
  unfold setOption optionValue
  cases clientOption f entry.1 entry.2 with
  | none => rfl
  | some p =>
    obtain ⟨o, y⟩ := p
    dsimp only [assign, bind_some]
    by_cases h : o = option
    · rw [if_pos h, if_pos h.symm]
      rfl
    · rw [if_neg h, if_neg (Ne.symm h)]
      rfl

theorem foldl_setOption (f : Formats) (value : String → String) (l : SettingsMap)
    (options : String → Option String) (option : String) :
    l.foldl (setOption f value) options option
      = ((lastValue (optionValue f option) l).map value).or (options option) := by
  induction l using List.reverseRecOn with
  | nil => rfl
  | append_singleton l entry ih =>
    rw [foldl_append, foldl_cons, foldl_nil, setOption_apply, ih, lastValue_concat,
      map_or, Option.or_assoc]

theorem clientOptions_apply (f : Formats) (l : SettingsMap) (option : String) :
    clientOptions f l option = lastValue (optionValue f option) l := by
  show l.foldl (setOption f id) (fun _ => none) option = _
  rw [foldl_setOption, Option.map_id_fun, or_none]
  rfl

theorem walkedOptions_apply (f : Formats) (first second : List SettingsMap) (option : String) :
    walkedOptions f first second option
      = (lastValue (optionValue f option) second.flatten).or
          ((lastValue (optionValue f option) first.flatten).map fun _ => "") := by
  rw [walkedOptions, foldl_setOption, foldl_setOption, Option.map_id_fun, or_none]
  rfl

/-- `Resolve` walks the maps as they are. -/
theorem configOptions_eq (f : Formats) (values : List Strategy) (device : Device)
    (userGroups : List String) :
    (resolve f values device userGroups).configOptions
      = walkedOptions f
          ((values.filter (Strategy.appliesTo device userGroups)).map Strategy.entries)
          ((matched values device userGroups).map Strategy.entries) := by
  unfold walkedOptions
  rw [← flatMap_def, ← flatMap_def, foldl_flatMap, foldl_flatMap]
  rfl

/-! ## Two settings for one option -/

theorem isClientKey_eq (h : isClientKey key = true) :
    key = "rustdesk." ++ String.ofList (key.toList.drop 9) := by
  obtain ⟨rest, hrest⟩ := isPrefixOf_iff_prefix.mp h
  have hdrop : key.toList.drop 9 = rest := by
    rw [← hrest]
    exact drop_left' (by decide)
  have hback : (String.ofList rest).toList = rest := String.toList_ofList
  apply String.toList_inj.mp
  rw [hdrop, String.toList_append, hback, hrest]

/-- An option is set by its known setting or by its name. -/
theorem clientOption_key (h : clientOption f key raw = some (option, x)) :
    (key, option) ∈ knownOptions ∨ key = "rustdesk." ++ option := by
  unfold clientOption at h
  split at h
  · next o opposite hlookup =>
    obtain ⟨b, -, hb⟩ := map_eq_some_iff.mp h
    obtain ⟨rfl, -⟩ := Prod.mk.inj hb
    obtain ⟨s, t, hmem, -⟩ := lookup_eq_some_iff.mp hlookup
    refine .inl (mem_append_left _ (mem_map.mpr ⟨(key, o, opposite), ?_, rfl⟩))
    rw [hmem]
    exact mem_append_right _ mem_cons_self
  · split at h
    · next o hlookup =>
      have ho : o = option := by
        unfold stringOption at h
        split at h
        · dsimp only at h
          split at h
          · exact (Prod.mk.inj (Option.some.inj h)).1
          · cases h
        · cases h
      obtain ⟨s, t, hmem, -⟩ := lookup_eq_some_iff.mp hlookup
      refine .inl (mem_append_right _ ?_)
      rw [hmem, ← ho]
      exact mem_append_right _ mem_cons_self
    · split at h
      · cases h
      · next hclient =>
        have hkey := isClientKey_eq (by simpa using hclient)
        refine .inr ?_
        dsimp only at h
        split at h
        · cases h
        repeat' split at h
        all_goals cases h
        all_goals exact hkey

theorem knownOptions_key_unique :
    ∀ p ∈ knownOptions, ∀ q ∈ knownOptions, p.2 = q.2 → p.1 = q.1 := by
  decide

theorem Keyed.eq_of_mem (h : Keyed settings) {raw' : Json} (hraw : (key, raw) ∈ settings)
    (hraw' : (key, raw') ∈ settings) : raw = raw' :=
  (Prod.mk.inj (inj_on_of_nodup_map h hraw hraw' rfl)).2

theorem agrees_iff_noClash (h : Keyed settings) (option : String) :
    Agrees (optionValue f option) settings ↔
      ∀ key, (key, option) ∈ knownOptions → NoClashAt f key option settings := by
  constructor
  · intro hagrees key _ raw raw' x y hraw hraw' hx hy
    exact hagrees _ hraw _ hraw' x y (optionValue_eq_some.mpr hx) (optionValue_eq_some.mpr hy)
  · rintro hclash ⟨key, raw⟩ hraw ⟨key', raw'⟩ hraw' x y hx hy
    rw [optionValue_eq_some] at hx hy
    have hsame : key = key' → x = y := by
      rintro rfl
      obtain rfl := h.eq_of_mem hraw hraw'
      exact (Prod.mk.inj (Option.some.inj (hx.symm.trans hy))).2
    rcases clientOption_key hx with hknown | rfl
    · rcases clientOption_key hy with hknown' | rfl
      · exact hsame (knownOptions_key_unique _ hknown _ hknown' rfl)
      · exact hclash key hknown raw raw' x y hraw hraw' hx hy
    · rcases clientOption_key hy with hknown' | rfl
      · exact (hclash key' hknown' raw' raw y x hraw' hraw hy hx).symm
      · exact hsame rfl

/-! ## When the order does not matter -/

theorem clientOptions_independent_iff (h : Keyed settings) :
    (∀ walk : SettingsMap, walk.Perm settings → clientOptions f walk = clientOptions f settings) ↔
      ∀ p ∈ knownOptions, NoClashAt f p.1 p.2 settings := by
  constructor
  · rintro hwalk ⟨key, option⟩ hknown
    refine (agrees_iff_noClash h option).mp ?_ key hknown
    -- the walk that ends with an entry has its value
    have hend : ∀ entry ∈ settings, ∀ x, optionValue f option entry = some x →
        clientOptions f settings option = some x := by
      intro entry hentry x hx
      obtain ⟨walk, hperm, hlast⟩ := exists_perm_lastValue hentry hx
      rw [← hwalk walk hperm, clientOptions_apply, hlast]
    intro a ha b hb x y hx hy
    exact Option.some.inj ((hend a ha x hx).symm.trans (hend b hb y hy))
  · intro hclash walk hperm
    funext option
    rw [clientOptions_apply, clientOptions_apply]
    refine Agrees.lastValue_perm ((agrees_iff_noClash h option).mpr fun key hknown => ?_) hperm
    exact hclash (key, option) hknown

/-- No strategy of the list has the option. -/
def Silent (f : Formats) (option : String) (l : List Strategy) : Prop :=
  ∀ u ∈ l, ∀ entry ∈ u.entries, ∀ x, clientOption f entry.1 entry.2 ≠ some (option, x)

theorem silent_iff {l : List Strategy} :
    Silent f option l ↔
      lastValue (optionValue f option) (l.map Strategy.entries).flatten = none := by
  rw [lastValue_eq_none]
  constructor
  · intro h entry hentry
    obtain ⟨entries, hmem, hentry⟩ := mem_flatten.mp hentry
    obtain ⟨u, hu, rfl⟩ := mem_map.mp hmem
    rw [eq_none_iff_forall_ne_some]
    exact fun x hx => h u hu entry hentry x (optionValue_eq_some.mp hx)
  · intro h u hu entry hentry x hx
    have hnone := h entry (mem_flatten.mpr ⟨_, mem_map.mpr ⟨u, hu, rfl⟩, hentry⟩)
    rw [optionValue_eq_some.mpr hx] at hnone
    cases hnone

theorem eq_of_or_eq {β : Type} {a b c : Option β} (hnone : a = none ↔ b = none)
    (h : a.or c = b.or c) : a = b := by
  cases a with
  | none => exact (hnone.mp rfl).symm
  | some x =>
    cases b with
    | none => cases hnone.mpr rfl
    | some y => exact h

/-- The first loop only makes sure that the option is there. -/
theorem walkedOptions_independent_iff {first second : List SettingsMap} :
    (∀ first' second', List.Forall₂ List.Perm first first' → List.Forall₂ List.Perm second second' →
      walkedOptions f first' second' option = walkedOptions f first second option) ↔
    ∀ (before : List SettingsMap) (l : SettingsMap) (after : List SettingsMap),
      second = before ++ l :: after →
      lastValue (optionValue f option) after.flatten = none → Agrees (optionValue f option) l := by
  rw [← forall_walk_lastValue_iff]
  constructor
  · intro hwalk second' hsecond
    have hsame := hwalk first second' (forall₂_same.mpr fun _ _ => .refl _) hsecond
    rw [walkedOptions_apply, walkedOptions_apply] at hsame
    exact eq_of_or_eq (lastValue_walk_eq_none hsecond) hsame
  · intro hwalk first' second' hfirst hsecond
    have hthere : (lastValue (optionValue f option) first'.flatten).map (fun _ => "")
        = (lastValue (optionValue f option) first.flatten).map (fun _ => "") := by
      have hnone : lastValue (optionValue f option) first'.flatten = none ↔
          lastValue (optionValue f option) first.flatten = none := lastValue_walk_eq_none hfirst
      cases hl : lastValue (optionValue f option) first.flatten with
      | none => rw [hnone.mpr hl]
      | some x =>
        cases hl' : lastValue (optionValue f option) first'.flatten with
        | none =>
          rw [hnone.mp hl'] at hl
          cases hl
        | some y => rfl
    rw [walkedOptions_apply, walkedOptions_apply, hwalk second' hsecond, hthere]

/-- The translation of a map is the same for every walk exactly if no known setting and the name of
its option have different values in it. The options of `Resolve` are the same exactly if this holds,
option by option, for the strategy that decides: the last one that has the option at all. -/
theorem client_options_independent_iff (f : Formats) :
    (∀ settings : SettingsMap, Keyed settings →
      ((∀ walk : SettingsMap, walk.Perm settings →
          clientOptions f walk = clientOptions f settings) ↔
        ∀ p ∈ knownOptions, NoClashAt f p.1 p.2 settings)) ∧
    ∀ (values : List Strategy) (device : Device) (userGroups : List String),
      (∀ v ∈ values, Keyed v.entries) →
      ((∀ first second : List SettingsMap,
        List.Forall₂ List.Perm
          ((values.filter (Strategy.appliesTo device userGroups)).map Strategy.entries) first →
        List.Forall₂ List.Perm ((matched values device userGroups).map Strategy.entries) second →
        walkedOptions f first second = (resolve f values device userGroups).configOptions) ↔
      ∀ (before : List Strategy) (v : Strategy) (after : List Strategy),
        matched values device userGroups = before ++ v :: after →
        ∀ p ∈ knownOptions, Silent f p.2 after → NoClashAt f p.1 p.2 v.entries) := by
  refine ⟨fun _ h => clientOptions_independent_iff h, fun values device userGroups h => ?_⟩
  have hkeyed : ∀ v ∈ matched values device userGroups, Keyed v.entries := by
    intro v hv
    have happlied := mem_filter.mp (mem_sortByKey.mp hv)
    exact h v (mem_filter.mp happlied.1).1
  rw [configOptions_eq]
  constructor
  · rintro hwalk before v after hmatched ⟨key, option⟩ hknown hsilent
    have hv : Keyed v.entries := hkeyed v (by
      rw [hmatched]
      exact mem_append_right _ mem_cons_self)
    refine (agrees_iff_noClash hv option).mp ?_ key hknown
    refine walkedOptions_independent_iff.mp (fun first second hfirst hsecond =>
      congrFun (hwalk first second hfirst hsecond) option) (before.map Strategy.entries) v.entries
      (after.map Strategy.entries) ?_ (silent_iff.mp hsilent)
    rw [hmatched, map_append, map_cons]
  · intro hclash first second hfirst hsecond
    funext option
    refine walkedOptions_independent_iff.mpr (fun before l after hmap hnone => ?_) first second
      hfirst hsecond
    obtain ⟨before', tail, hmatched, rfl, htail⟩ := map_eq_append_iff.mp hmap
    obtain ⟨v, after', rfl, rfl, rfl⟩ := map_eq_cons_iff.mp htail
    have hv : Keyed v.entries := hkeyed v (by
      rw [hmatched]
      exact mem_append_right _ mem_cons_self)
    exact (agrees_iff_noClash hv option).mpr fun key hknown =>
      hclash before' v after' hmatched (key, option) hknown (silent_iff.mpr hnone)

/-- File transfer is allowed by the known setting, and by the name of the option or not. -/
def fileTransferTwice (b : Bool) : SettingsMap :=
  [("allow_file_transfer", .bool true), ("rustdesk.enable-file-transfer", .bool b)]

/-- The same strategy allows file transfer or does not, as the map is walked. -/
theorem options_depend_on_order :
    let strategy := { sampleStrategy with settings := some (fileTransferTwice false) }
    validateSettings (fileTransferTwice false) = .ok () ∧ Keyed (fileTransferTwice false) ∧
      clientOptions plainFormats (fileTransferTwice false) "enable-file-transfer" = some "N" ∧
      clientOptions plainFormats (fileTransferTwice false).reverse "enable-file-transfer"
        = some "Y" ∧
      (resolve plainFormats [strategy] sampleDevice []).configOptions "enable-file-transfer"
        = some "N" ∧
      (matched [strategy] sampleDevice []).map Strategy.entries = [fileTransferTwice false] ∧
      walkedOptions plainFormats [fileTransferTwice false] [(fileTransferTwice false).reverse]
        "enable-file-transfer" = some "Y" := by
  refine ⟨by decide +kernel, ?_, by decide +kernel, by decide +kernel, by decide +kernel, rfl,
    by decide +kernel⟩
  unfold Keyed
  decide

/-- Where the two say the same, the order is not seen. -/
theorem client_options_independent_agreeing : ∀ walk : SettingsMap,
    walk.Perm (fileTransferTwice true) →
      clientOptions plainFormats walk = clientOptions plainFormats (fileTransferTwice true) := by
  have hkeyed : Keyed (fileTransferTwice true) := by
    unfold Keyed
    decide
  refine ((client_options_independent_iff plainFormats).1 _ hkeyed).mpr ?_
  intro p hp raw raw' x y hraw hraw' hx hy
  have hall : ∀ a ∈ fileTransferTwice true, ∀ b ∈ fileTransferTwice true,
      (clientOption plainFormats a.1 a.2).map Prod.snd
        = (clientOption plainFormats b.1 b.2).map Prod.snd := by
    unfold fileTransferTwice
    intro a ha b hb
    rcases mem_pair.mp ha with rfl | rfl <;> rcases mem_pair.mp hb with rfl | rfl <;> decide +kernel
  have hsame := hall _ hraw _ hraw'
  rw [hx, hy] at hsame
  exact Option.some.inj hsame

end RemoteControl.Sync
