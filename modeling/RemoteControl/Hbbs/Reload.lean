import RemoteControl.Hbbs.Rendezvous
import RemoteControl.Lib.TableOrder
import RemoteControl.Sync.CacheDeliveries
import RemoteControl.Sync.CacheJson

/-!
# A cache that is saved and loaded

`save` writes the maps of the cache in the order in which they are walked, and `load` collects them
into new maps, which are walked in an order of their own. So nothing that HBBS answers can depend on
that order alone: an answer is possible if there is an order that gives it.

Two caches are `Alike` if they have the same entries, up to what is not a boolean in the settings
of a strategy. Alike caches have the same possible answers, and stay alike whatever is delivered.
-/

namespace RemoteControl.Hbbs

open Lib Sync List Table CacheState

variable {ds : List Delivered}

/-! ## Alike -/

/-- What `as_bool` sees of a value. -/
def bareValue : Json → Json
  | .bool b => .bool b
  | _ => .null

/-- What HBBS sees of a strategy. -/
def bare (v : StrategyState) : StrategyState :=
  { v with settings := v.settings.map fun p => (p.1, bareValue p.2) }

structure Alike (st st' : CacheState) : Prop where
  requireLogin : st.requireLogin = st'.requireLogin
  requireDeviceDeployment : st.requireDeviceDeployment = st'.requireDeviceDeployment
  sourceId : st.sourceId = st'.sourceId
  revision : st.revision = st'.revision
  users : st.users.rows.Perm st'.users.rows
  sessions : st.sessions.rows.Perm st'.sessions.rows
  devices : st.devices.rows.Perm st'.devices.rows
  aclRules : st.aclRules.rows.Perm st'.aclRules.rows
  strategies : (st.strategies.rows.map bare).Perm (st'.strategies.rows.map bare)
  userGroups : st.userGroups.rows.Perm st'.userGroups.rows
  relayServers : st.relayServers.rows.Perm st'.relayServers.rows

/-- The same maps, walked in another order. -/
structure Reordered (st st' : CacheState) : Prop extends Alike st st' where
  rows : st.strategies.rows.Perm st'.strategies.rows

section

variable {st st' st'' : CacheState}

theorem Alike.refl (st : CacheState) : Alike st st :=
  ⟨rfl, rfl, rfl, rfl, .refl _, .refl _, .refl _, .refl _, .refl _, .refl _, .refl _⟩

section

variable (h : Alike st st')

include h

theorem Alike.symm : Alike st' st :=
  ⟨h.requireLogin.symm, h.requireDeviceDeployment.symm, h.sourceId.symm, h.revision.symm,
    h.users.symm, h.sessions.symm, h.devices.symm, h.aclRules.symm, h.strategies.symm,
    h.userGroups.symm, h.relayServers.symm⟩

theorem Alike.trans (h' : Alike st' st'') : Alike st st'' :=
  ⟨h.requireLogin.trans h'.requireLogin,
    h.requireDeviceDeployment.trans h'.requireDeviceDeployment, h.sourceId.trans h'.sourceId,
    h.revision.trans h'.revision, h.users.trans h'.users, h.sessions.trans h'.sessions,
    h.devices.trans h'.devices, h.aclRules.trans h'.aclRules, h.strategies.trans h'.strategies,
    h.userGroups.trans h'.userGroups, h.relayServers.trans h'.relayServers⟩

omit h in
theorem bareValue_again {τ : Type} (t : JsonText τ) (j : Json) :
    bareValue (t.again j) = bareValue j := by
  cases j <;> rfl

omit h in
theorem alike_again {τ : Type} (t : JsonText τ) (st : CacheState) : Alike st (st.again t) := by
  refine { Alike.refl st with strategies := List.Perm.of_eq ?_ }
  show _ = (st.strategies.rows.map fun v => if true then v.again t else v).map bare
  rw [map_map]
  refine map_congr_left fun v _ => ?_
  show bare v = bare (v.again t)
  unfold bare StrategyState.again
  rw [map_map]
  congr 1
  refine map_congr_left fun p _ => ?_
  exact congrArg (Prod.mk p.1) (bareValue_again t p.2).symm

theorem Alike.groupsOf (userId : String) : st.groupsOf userId = st'.groupsOf userId := by
  unfold CacheState.groupsOf
  rw [get?_perm h.userGroups]

/-! ## Deliveries -/

theorem Alike.apply (op : CacheOp) : Alike (op.apply st) (op.apply st') := by
  cases op with
  | user v => exact { h with users := perm_put_rows h.users v }
  | session v => exact { h with sessions := perm_put_rows h.sessions v }
  | revokeUserSessions userId =>
    exact { h with sessions := perm_deleteWhere_rows h.sessions _ }
  | acl v =>
    refine { h with aclRules := ?_ }
    show (if v.deleted then _ else _ : Table AclRuleState.id).rows.Perm
      (if v.deleted then _ else _ : Table AclRuleState.id).rows
    split
    next => exact perm_deleteWhere_rows h.aclRules _
    next => exact perm_put_rows h.aclRules v
  | strategy v =>
    refine { h with strategies := ?_ }
    show ((if v.deleted then _ else _ : Table StrategyState.id).rows.map bare).Perm
      ((if v.deleted then _ else _ : Table StrategyState.id).rows.map bare)
    split
    next =>
      exact perm_deleteWhere h.strategies (fun x => decide (x.id = v.id)) fun _ => rfl
    next => exact perm_put h.strategies StrategyState.id (fun _ => rfl) v
  | relay v =>
    refine { h with relayServers := ?_ }
    show (if v.deleted then _ else _ : Table RelayState.id).rows.Perm
      (if v.deleted then _ else _ : Table RelayState.id).rows
    split
    next => exact perm_deleteWhere_rows h.relayServers _
    next => exact perm_put_rows h.relayServers v
  | device v => exact { h with devices := perm_put_rows h.devices v }
  | membership v =>
    refine { h with userGroups := ?_ }
    dsimp only [CacheOp.apply]
    rw [h.groupsOf]
    exact perm_put_rows h.userGroups _
  | configuration requireLogin requireDeviceDeployment =>
    exact { h with requireLogin := rfl, requireDeviceDeployment := rfl }

theorem Alike.moved (sourceId : String) (revision : Nat) :
    Alike { st with sourceId, revision } { st' with sourceId, revision } :=
  { h with sourceId := rfl, revision := rfl }

theorem Alike.receive (d : Delivered) : Alike (st.receive d) (st'.receive d) := by
  cases d with
  | snapshot s =>
    show Alike (st.replace s) (st'.replace s)
    unfold CacheState.replace
    rw [h.sourceId, h.revision]
    split
    next => exact h
    next => exact Alike.refl _
  | event e =>
    rw [receive_event, receive_event]
    cases e.op? with
    | none => exact h
    | some op =>
      show Alike (st.perform op e.sourceId e.revision) (st'.perform op e.sourceId e.revision)
      unfold perform
      rw [acceptRevision_eq, acceptRevision_eq, h.sourceId, h.revision]
      by_cases hold : st'.sourceId = e.sourceId ∧ e.revision ≤ st'.revision
      · rw [if_pos hold, if_pos hold]
        exact h
      · rw [if_neg hold, if_neg hold]
        exact (h.moved e.sourceId e.revision).apply op

end

/-! ## Answers -/

/-- What is asked of the cache. -/
inductive Query
  | authorize (now : Nat) (token : Option String)
  | authorizePolicy (d : AuthDecision) (target : String) (connectionType : Int32)
  | requireDeviceDeployment
  | deviceRegistrationAllowed (id publicKey : String)
  | selectRelay
  | cursor

inductive Answer
  | decision (r : Except AuthError (Option AuthDecision))
  | policy (r : Except PolicyError Bool)
  | flag (b : Bool)
  | address (a : Option String)
  | cursor (c : String × Nat)

/-- The answer, when the maps are walked in the order of the rows. -/
def Options.answer (o : Options) (st : CacheState) : Query → Answer
  | .authorize now token => .decision (st.authorize o.clock o.verifier o.requireLogin now token)
  | .authorizePolicy d target connectionType => .policy (st.authorizePolicy d target connectionType)
  | .requireDeviceDeployment => .flag (o.deploymentRequired st)
  | .deviceRegistrationAllowed id publicKey => .flag (deviceDeployed id publicKey st)
  | .selectRelay => .address (Hbbs.selectRelay st)
  | .cursor => .cursor st.cursor

/-- An order of the maps gives the answer. -/
def Options.MayAnswer (o : Options) (st : CacheState) (q : Query) (a : Answer) : Prop :=
  ∃ walked, Reordered st walked ∧ o.answer walked q = a

theorem boolean_bare (key : String) (v : StrategyState) : (bare v).boolean key = v.boolean key := by
  obtain ⟨id, scopeType, scopeId, priority, settings, enabled, deleted⟩ := v
  show ((Json.obj (settings.map fun p => (p.1, bareValue p.2))).get? key).bind asBool
    = ((Json.obj settings).get? key).bind asBool
  induction settings with
  | nil => rfl
  | cons p settings ih =>
    rw [map_cons, Json.get?_cons, Json.get?_cons]
    split
    next =>
      cases p.2 <;> rfl
    next => exact ih

theorem enforced_bare (key : String) (l : List StrategyState) :
    enforced key (l.map bare) = enforced key l := by
  unfold enforced
  have hsort :
      sortByKey StrategyState.rank (l.map bare) = (sortByKey StrategyState.rank l).map bare :=
    (map_insertionSort _ _ bare l fun a _ b _ => Iff.rfl).symm
  rw [hsort]
  unfold lastValue
  rw [foldl_map]
  congr 1
  funext acc v
  rw [boolean_bare]

theorem applicable_bare (st : CacheState) (d : AuthDecision) (target : String) :
    (st.applicable d target).map bare = (st.strategies.rows.map bare).filter fun v =>
      v.enabled && v.appliesTo d target (st.deviceGroup target) (st.groupsOf d.userId) :=
  map_filter_seen _ fun _ => rfl

/-- What is not a boolean decides nothing. -/
theorem answer_bare (o : Options) (st : CacheState) {strategies : Table StrategyState.id}
    (h : strategies.rows.map bare = st.strategies.rows.map bare) (q : Query) :
    o.answer { st with strategies } q = o.answer st q := by
  cases q with
  | authorizePolicy d target connectionType =>
    have henforced : ∀ key, enforced key (applicable d target { st with strategies })
        = enforced key (st.applicable d target) := by
      intro key
      rw [← enforced_bare, ← enforced_bare key (st.applicable d target), applicable_bare,
        applicable_bare]
      show enforced key ((strategies.rows.map bare).filter _) = _
      rw [h]
      rfl
    show Answer.policy (authorizePolicy d target connectionType { st with strategies }) = _
    unfold authorizePolicy
    simp only [henforced]
    rfl
  | _ => rfl

theorem Alike.mayAnswer (h : Alike st st') {o : Options} {q : Query} {a : Answer}
    (ha : o.MayAnswer st q a) : o.MayAnswer st' q a := by
  obtain ⟨walked, hwalked, rfl⟩ := ha
  have hback := h.symm.trans hwalked.toAlike
  obtain ⟨rows, hrows, hbare⟩ := exists_perm_map hback.strategies
  -- the strategies of `st'`, in the order of those that gave the answer
  have hnodup : (rows.map StrategyState.id).Nodup :=
    (hrows.map StrategyState.id).nodup_iff.mp st'.strategies.nodup
  refine ⟨{ walked with strategies := ⟨rows, hnodup⟩ }, ?_, answer_bare o walked hbare q⟩
  exact { hback with strategies := hrows.map bare, rows := hrows }

theorem Alike.mayAnswer_iff (h : Alike st st') (o : Options) (q : Query) (a : Answer) :
    o.MayAnswer st q a ↔ o.MayAnswer st' q a :=
  ⟨h.mayAnswer, h.symm.mayAnswer⟩

/-! ## The file -/

variable {τ : Type} (t : JsonText τ)

/-- What `save` writes. -/
def saved (walked : CacheState) : τ := t.toVec walked.toJson

/-- What `load` makes of it. -/
def loaded (data : τ) : Option CacheState := (t.fromSlice data).bind fun j => (decode j).toOption

theorem loaded_saved (h : st.revision < 2 ^ 63) : loaded t (saved t st) = some (st.again t) := by
  unfold loaded saved
  rw [t.fromSlice_toVec]
  show (decode (t.again st.toJson)).toOption = _
  rw [decode_again t h]
  rfl

/-- A cache that is given deliveries, and is saved and loaded in between. -/
inductive Lives (st : CacheState) : List Delivered → CacheState → Prop
  | nil : Lives st [] st
  | deliver {st' : CacheState} {ds : List Delivered} (d : Delivered) :
      Lives st ds st' → Lives st (ds ++ [d]) (st'.receive d)
  | reload {st' walked st'' : CacheState} {ds : List Delivered} :
      Lives st ds st' → Reordered st' walked → loaded t (saved t walked) = some st'' →
      Lives st ds st''

/-- Revisions are `i64`. -/
theorem revision_lt (hst : st.revision < 2 ^ 63) (hds : ∀ d ∈ ds, d.revision < 2 ^ 63) :
    (ds.foldl receive st).revision < 2 ^ 63 := by
  induction ds generalizing st with
  | nil => exact hst
  | cons d ds ih =>
    obtain ⟨hd, hrest⟩ := forall_mem_cons.mp hds
    refine ih ?_ hrest
    cases h : st.accepts d with
    | false => rwa [receive_of_not h]
    | true =>
      have hrevision : (st.receive d).revision = d.revision :=
        congrArg Prod.snd (receive_of_accepts h).1
      omega

/-- Loading makes no difference, at whatever points it is done. -/
theorem Lives.alike (h : Lives t st ds st') (hst : st.revision < 2 ^ 63)
    (hds : ∀ d ∈ ds, d.revision < 2 ^ 63) : Alike (ds.foldl receive st) st' := by
  induction h with
  | nil => exact Alike.refl st
  | deliver d _ ih =>
    rw [foldl_append]
    exact (ih fun d hd => hds d (mem_append_left _ hd)).receive d
  | @reload st' walked st'' ds _ hwalked hload ih =>
    have hbefore := ih hds
    have hrevision : walked.revision < 2 ^ 63 := by
      rw [← hwalked.revision, ← hbefore.revision]
      exact revision_lt hst hds
    rw [loaded_saved t hrevision] at hload
    cases hload
    exact hbefore.trans (hwalked.toAlike.trans (alike_again t walked))

theorem Lives.loads (h : Lives t st ds st') (hst : st.revision < 2 ^ 63)
    (hds : ∀ d ∈ ds, d.revision < 2 ^ 63) {walked : CacheState} (hwalked : Reordered st' walked) :
    (loaded t (saved t walked)).isSome = true := by
  have hrevision : walked.revision < 2 ^ 63 := by
    rw [← hwalked.revision, ← (h.alike t hst hds).revision]
    exact revision_lt hst hds
  rw [loaded_saved t hrevision]
  rfl

/-- **Snapshots and events of one source, in any order and any number of times.** -/
theorem deliveries_settle {source : String} {st : CacheState} (hst : st.Sourced source)
    (hrevision : st.revision < 2 ^ 63) {ds : List Delivered}
    (hds : ∀ d ∈ ds, d.sourceId = source) (hfit : ∀ d ∈ ds, d.revision < 2 ^ 63) :
    (∀ before d, before ++ [d] <+: ds → (before.foldl receive st).revision
      ≤ ((before ++ [d]).foldl receive st).revision) ∧
    (∀ d, d.sourceId = source →
      d ∈ ds ∨ (ds.foldl receive st).sourceId = source →
      (ds.foldl receive st).Stale d →
      (ds.foldl receive st).receive d = ds.foldl receive st) ∧
    (∃ older base events, st.Composed ds older base events) ∧
    ∀ st', Lives t st ds st' → Alike (ds.foldl receive st) st' ∧
      (∀ (o : Options) q a,
        o.MayAnswer (ds.foldl receive st) q a ↔ o.MayAnswer st' q a) ∧
      ∀ walked, Reordered st' walked → (loaded t (saved t walked)).isSome = true := by
  refine ⟨fun before d hpre => ?_, fun d hd hagain hstale => ?_,
    exists_composed st hds, fun st' hlives => ?_⟩
  · have hmem : ∀ e ∈ before ++ [d], e.sourceId = source := fun e he => hds e (hpre.subset he)
    rw [foldl_append]
    have hbefore := hst.foldl fun e he => hmem e (mem_append_left _ he)
    exact revision_le_receive hbefore (hmem d (mem_append_right _ (mem_singleton.mpr rfl)))
  · rcases hagain with hmem | hsource
    · exact receive_again hds hmem hstale
    · exact receive_stale (hd.trans hsource.symm) hstale
  · have halike := hlives.alike t hrevision hfit
    exact ⟨halike, fun o q a => halike.mayAnswer_iff o q a,
      fun walked hwalked => hlives.loads t hrevision hfit hwalked⟩

end

/-! ### An answer that was overtaken -/

def keptDocuments : JsonText Json where
  toVec := id
  fromSlice j := some (j.mapNumbers fun mantissa exponent => (mantissa, exponent))
  reread mantissa exponent := (mantissa, exponent)
  reread_int _ _ _ := rfl
  fromSlice_toVec _ := rfl

/-- A snapshot arrives after an event that it does not contain, and the event comes again. -/
def overtaken : List Delivered :=
  [.snapshot { emptySnapshot "api-1" with revision := 2 }, .event (revocation 4 "user-1"),
    .snapshot { emptySnapshot "api-1" with revision := 3 }, .event (revocation 4 "user-1")]

/-- The revocation is not undone, and loading the cache at any point makes no difference. -/
theorem overtaken_settles :
    (overtaken.foldl receive .empty).cursor = ("api-1", 4) ∧
    (overtaken.foldl receive .empty).receive (.event (revocation 4 "user-1"))
      = overtaken.foldl receive .empty ∧
    ∀ st', Lives keptDocuments .empty overtaken st' →
      Alike (overtaken.foldl receive .empty) st' := by
  have hst : empty.Sourced "api-1" := .inr rfl
  have hds : ∀ d ∈ overtaken, d.sourceId = "api-1" := by decide
  obtain ⟨-, hagain, -, hlives⟩ := deliveries_settle keptDocuments hst (by decide) hds (by decide)
  refine ⟨rfl, hagain _ rfl (.inl ?_) (le_refl 4), fun st' h => (hlives st' h).1⟩
  simp [overtaken]

end RemoteControl.Hbbs
