import RemoteControl.Lib.Versioned
import RemoteControl.Sync.FeedInv

/-!
# What reaches the cache, in any order

The reconciliation and the event stream deliver to one cache, and nothing orders the two: an answer
may overtake events, and a stream may begin with events that a snapshot has brought already.
`CacheState.receive` is one delivery, by `replace` or by `apply_event`; an event that is refused
changes nothing.

Of one source, the cache is a `Copy`. Its content is everything but the cursor.
-/

namespace RemoteControl.Sync

open Lib List CacheState

/-- The change that an event asks for, if it can be decoded and is of a known kind. -/
def EventEnvelope.op? (e : EventEnvelope) : Option CacheOp :=
  match decodeEvent e.kind e.payload with
  | .ok op? => op?
  | .error _ => none

inductive Delivered
  | snapshot (s : AuthSnapshot)
  | event (e : EventEnvelope)

namespace Delivered

def sourceId : Delivered → String
  | .snapshot s => s.sourceId
  | .event e => e.sourceId

def revision : Delivered → Nat
  | .snapshot s => s.revision
  | .event e => e.revision

end Delivered

/-- The cursor is put aside. -/
def CacheState.content (st : CacheState) : CacheState := { st with sourceId := "", revision := 0 }

/-- What a snapshot makes of a cache that takes it. -/
def AuthSnapshot.content (s : AuthSnapshot) : CacheState :=
  { requireLogin := s.requireLogin
    requireDeviceDeployment := s.requireDeviceDeployment
    sourceId := ""
    revision := 0
    users := collect _ s.users
    sessions := collect _ s.sessions
    devices := collect _ s.devices
    aclRules := collect _ s.aclRules
    strategies := collect _ s.strategies
    userGroups := collectGroups s.userGroupMemberships
    relayServers := collect _ s.relayServers }

namespace CacheState

def receive (st : CacheState) : Delivered → CacheState
  | .snapshot s => st.replace s
  | .event e =>
    match st.applyEvent e with
    | .ok st' => st'
    | .error _ => st

/-- The cache takes the delivery over. -/
def accepts (st : CacheState) : Delivered → Bool
  | .snapshot s => !st.ignores s
  | .event e => e.op?.isSome && (st.acceptRevision e.sourceId e.revision).isSome

def accepted : CacheState → List Delivered → List Delivered
  | _, [] => []
  | st, d :: ds =>
    if st.accepts d then d :: (st.receive d).accepted ds else (st.receive d).accepted ds

end CacheState

def Delivered.effect : Delivered → Effect CacheState
  | .snapshot s => .whole s.content
  | .event e => e.op?.elim .none fun op => .change fun st => op.apply st

def cacheDeliveries : Deliveries Delivered CacheState := ⟨Delivered.revision, Delivered.effect⟩

section

variable {st : CacheState} {source : String} {d : Delivered}

/-! ## The cache as a copy -/

/-- The cache, as a copy of what a source has. -/
def CacheState.copy (source : String) (st : CacheState) : Copy CacheState :=
  ⟨if st.sourceId = source then some st.revision else none, st.content⟩

theorem CacheState.receive_event (st : CacheState) (e : EventEnvelope) :
    st.receive (.event e) = e.op?.elim st fun op => st.perform op e.sourceId e.revision := by
  dsimp only [receive, applyEvent, EventEnvelope.op?]
  cases decodeEvent e.kind e.payload with
  | error err => rfl
  | ok op? =>
    cases op? with
    | none => rfl
    | some op => rfl

theorem CacheState.content_apply (st : CacheState) (op : CacheOp) :
    (op.apply st).content = op.apply st.content := by
  cases op <;> rfl

theorem CacheState.accepts_eq_takes (hd : d.sourceId = source) :
    st.accepts d = (st.copy source).takes cacheDeliveries d := by
  subst hd
  unfold Copy.takes copy
  cases d with
  | snapshot s =>
    show (!decide (s.sourceId = st.sourceId ∧ s.revision < st.revision))
      = (if st.sourceId = s.sourceId then some st.revision else none).all fun r => r ≤ s.revision
    by_cases hs : st.sourceId = s.sourceId
    · rw [Bool.eq_iff_iff]
      simp [hs]
    · simp [hs, Ne.symm hs]
  | event e =>
    dsimp only [accepts, cacheDeliveries, Delivered.effect, Delivered.sourceId, Delivered.revision]
    cases e.op? with
    | none => rfl
    | some op =>
      dsimp only [Option.elim, acceptRevision]
      by_cases hs : st.sourceId = e.sourceId
      · by_cases hr : st.revision < e.revision <;> simp [hs, hr]
      · simp [hs]

theorem CacheState.receive_of_not (h : st.accepts d = false) : st.receive d = st := by
  cases d with
  | snapshot s =>
    have hold : s.sourceId = st.sourceId ∧ s.revision < st.revision := by
      simpa [accepts, ignores] using h
    exact if_pos hold
  | event e =>
    rw [receive_event]
    dsimp only [accepts] at h
    cases hop : e.op? with
    | none => rfl
    | some op =>
      rw [hop] at h
      have hnone : st.acceptRevision e.sourceId e.revision = none := by simpa using h
      show st.perform op e.sourceId e.revision = st
      unfold perform
      rw [hnone]

theorem CacheState.receive_of_accepts (h : st.accepts d = true) :
    (st.receive d).cursor = (d.sourceId, d.revision) ∧
      (st.receive d).content = (cacheDeliveries.effect d).run st.content := by
  cases d with
  | snapshot s =>
    have hnew : ¬ (s.sourceId = st.sourceId ∧ s.revision < st.revision) := by
      rintro hold
      simp [accepts, ignores, hold] at h
    show (st.replace s).cursor = _ ∧ (st.replace s).content = _
    unfold replace
    rw [if_neg hnew]
    exact ⟨rfl, rfl⟩
  | event e =>
    rw [receive_event]
    dsimp only [accepts] at h
    cases hop : e.op? with
    | none =>
      rw [hop] at h
      cases h
    | some op =>
      have hnew : ¬ (st.sourceId = e.sourceId ∧ e.revision ≤ st.revision) := by
        intro hold
        simp [acceptRevision_eq, hold] at h
      show (st.perform op e.sourceId e.revision).cursor = _ ∧
        (st.perform op e.sourceId e.revision).content = _
      unfold perform
      rw [acceptRevision_eq, if_neg hnew]
      refine ⟨op.apply_cursor _, ?_⟩
      show (op.apply _).content = _
      rw [content_apply]
      show _ = (e.op?.elim Effect.none fun op => .change fun st => op.apply st).run st.content
      rw [hop]
      rfl

/-- **One delivery to the cache is one to the copy.** -/
theorem CacheState.copy_receive (hd : d.sourceId = source) :
    (st.receive d).copy source = (st.copy source).receive cacheDeliveries d := by
  cases h : st.accepts d with
  | false =>
    rw [receive_of_not h, Copy.receive_of_not (accepts_eq_takes hd ▸ h)]
  | true =>
    obtain ⟨hcursor, hcontent⟩ := receive_of_accepts h
    obtain ⟨hsource, hrevision⟩ := Prod.mk.inj hcursor
    rw [Copy.receive_of_takes (accepts_eq_takes hd ▸ h)]
    unfold copy
    rw [hcontent, hsource, hrevision, if_pos hd]
    rfl

variable {ds : List Delivered}

theorem CacheState.copy_foldl (st : CacheState) (hds : ∀ d ∈ ds, d.sourceId = source) :
    (ds.foldl receive st).copy source
      = ds.foldl (Copy.receive cacheDeliveries) (st.copy source) := by
  induction ds generalizing st with
  | nil => rfl
  | cons d ds ih =>
    obtain ⟨hd, hrest⟩ := forall_mem_cons.mp hds
    rw [foldl_cons, foldl_cons, ih _ hrest, copy_receive hd]

theorem CacheState.accepted_eq_taken (st : CacheState) (hds : ∀ d ∈ ds, d.sourceId = source) :
    st.accepted ds = (st.copy source).taken cacheDeliveries ds := by
  induction ds generalizing st with
  | nil => rfl
  | cons d ds ih =>
    obtain ⟨hd, hrest⟩ := forall_mem_cons.mp hds
    rw [Copy.taken_cons, ← accepts_eq_takes hd, ← copy_receive hd, ← ih _ hrest]
    rfl

/-! ## Revisions -/

/-- A snapshot that is older, or an event that is not newer. -/
def CacheState.Stale (st : CacheState) : Delivered → Prop
  | .snapshot s => s.revision < st.revision
  | .event e => e.revision ≤ st.revision

theorem CacheState.receive_stale (hsource : d.sourceId = st.sourceId) (h : st.Stale d) :
    st.receive d = st := by
  apply receive_of_not
  cases d with
  | snapshot s =>
    have hold : s.sourceId = st.sourceId ∧ s.revision < st.revision := ⟨hsource, h⟩
    simp [accepts, ignores, hold]
  | event e =>
    have hle : e.revision ≤ st.revision := h
    have hsame : st.sourceId = e.sourceId := hsource.symm
    have hnone : st.acceptRevision e.sourceId e.revision = none := by
      rw [acceptRevision_eq, if_pos ⟨hsame, hle⟩]
    simp [accepts, hnone]

/-- The cache holds something of the source, or nothing that has a revision. -/
def CacheState.Sourced (source : String) (st : CacheState) : Prop :=
  st.sourceId = source ∨ st.revision = 0

theorem CacheState.revision_le_receive (hst : st.Sourced source) (hd : d.sourceId = source) :
    st.revision ≤ (st.receive d).revision := by
  cases h : st.accepts d with
  | false => rw [receive_of_not h]
  | true =>
    have hrevision : (st.receive d).revision = d.revision :=
      congrArg Prod.snd (receive_of_accepts h).1
    rw [hrevision]
    rcases hst with hsource | hzero
    · have hr : (st.copy source).revision = some st.revision := if_pos hsource
      exact (Copy.le_of_takes (accepts_eq_takes hd ▸ h) hr).1
    · omega

theorem CacheState.Sourced.receive (hst : st.Sourced source) (hd : d.sourceId = source) :
    (st.receive d).Sourced source := by
  cases h : st.accepts d with
  | false => rwa [receive_of_not h]
  | true =>
    have hsource : (st.receive d).sourceId = d.sourceId :=
      congrArg Prod.fst (receive_of_accepts h).1
    exact .inl (hsource.trans hd)

theorem CacheState.Sourced.foldl (hst : st.Sourced source) (hds : ∀ d ∈ ds, d.sourceId = source) :
    (ds.foldl CacheState.receive st).Sourced source := by
  induction ds generalizing st with
  | nil => exact hst
  | cons d ds ih =>
    obtain ⟨hd, hrest⟩ := forall_mem_cons.mp hds
    exact ih (hst.receive hd) hrest

/-- What comes again and is not newer changes nothing. -/
theorem CacheState.receive_again (hds : ∀ d ∈ ds, d.sourceId = source) (hd : d ∈ ds)
    (hstale : (ds.foldl receive st).Stale d) :
    (ds.foldl receive st).receive d = ds.foldl receive st := by
  have heffect : (d.effect.isWhole = true ∨ d.effect.isChange = true) ∨
      ∃ e, d = .event e ∧ e.op? = none := by
    cases d with
    | snapshot s => exact .inl (.inl rfl)
    | event e =>
      cases hop : e.op? with
      | none => exact .inr ⟨e, rfl, hop⟩
      | some op =>
        refine .inl (.inr ?_)
        show (e.op?.elim Effect.none fun op => .change fun st => op.apply st).isChange = true
        rw [hop]
        rfl
  rcases heffect with heffect | ⟨e, rfl, hop⟩
  · -- the cache is one of the source since then
    obtain ⟨r, hr, -⟩ := Copy.reaches (D := cacheDeliveries) (c := st.copy source) hd heffect
    rw [← copy_foldl st hds] at hr
    have hsource : (ds.foldl receive st).sourceId = source := by
      by_contra hne
      rw [copy, if_neg hne] at hr
      cases hr
    exact receive_stale ((hds d hd).trans hsource.symm) hstale
  · rw [receive_event, hop]
    rfl

/-! ## Contents -/

/-- What a cache has become: the newest snapshot that it took, and the changes that it took
after it. -/
structure CacheState.Composed (st : CacheState) (ds older : List Delivered)
    (base : Option AuthSnapshot) (events : List (EventEnvelope × CacheOp)) : Prop where
  accepted : st.accepted ds = older ++ base.toList.map .snapshot ++ events.map fun p => .event p.1
  older_nil : base = none → older = []
  decoded : ∀ p ∈ events, p.1.op? = some p.2
  content : (ds.foldl receive st).content
    = (events.map Prod.snd).foldl CacheOp.apply (base.elim st.content AuthSnapshot.content)
  once : events.Pairwise fun p q => p.1.revision < q.1.revision
  newer : ∀ s ∈ base, ∀ p ∈ events, s.revision < p.1.revision
  newest : ∀ s ∈ base, ∀ d ∈ older, d.revision ≤ s.revision

theorem exists_decoded {changes : List Delivered} (h : ∀ d ∈ changes, d.effect.isChange = true) :
    ∃ events : List (EventEnvelope × CacheOp), changes = events.map (fun p => .event p.1) ∧
      ∀ p ∈ events, p.1.op? = some p.2 := by
  induction changes with
  | nil => exact ⟨[], rfl, fun p hp => (nomatch hp)⟩
  | cons d changes ih =>
    obtain ⟨hd, hrest⟩ := forall_mem_cons.mp h
    obtain ⟨events, rfl, hevents⟩ := ih hrest
    cases d with
    | snapshot s => cases hd
    | event e =>
      cases hop : e.op? with
      | none =>
        dsimp only [Delivered.effect] at hd
        rw [hop] at hd
        cases hd
      | some op => exact ⟨(e, op) :: events, rfl, forall_mem_cons.mpr ⟨hop, hevents⟩⟩

theorem foldl_decoded {events : List (EventEnvelope × CacheOp)}
    (h : ∀ p ∈ events, p.1.op? = some p.2) (st : CacheState) :
    (events.map fun p => Delivered.event p.1).foldl (fun s d => (cacheDeliveries.effect d).run s) st
      = (events.map Prod.snd).foldl CacheOp.apply st := by
  induction events generalizing st with
  | nil => rfl
  | cons p events ih =>
    obtain ⟨hp, hrest⟩ := forall_mem_cons.mp h
    have hrun : (cacheDeliveries.effect (.event p.1)).run st = CacheOp.apply st p.2 := by
      show (p.1.op?.elim Effect.none fun op => .change fun st => op.apply st).run st = _
      rw [hp]
      rfl
    rw [map_cons, foldl_cons, hrun, ih hrest, map_cons, foldl_cons]

theorem CacheState.exists_composed (st : CacheState) (hds : ∀ d ∈ ds, d.sourceId = source) :
    ∃ older base events, st.Composed ds older base events := by
  have hsorted := Copy.taken_pairwise (D := cacheDeliveries) (st.copy source) ds
  have hcontent := Copy.content_foldl (D := cacheDeliveries) (st.copy source) ds
  obtain ⟨older, base, changes, hcut⟩ := exists_cut (D := cacheDeliveries)
    fun d (hd : d ∈ (st.copy source).taken cacheDeliveries ds) => Copy.effect_of_taken hd
  obtain ⟨honce, hnewer, hnewest⟩ := hcut.ascending hsorted
  rw [hcut.content, ← copy_foldl st hds] at hcontent
  obtain ⟨events, rfl, hevents⟩ := exists_decoded hcut.change
  have honce' := pairwise_map.mp honce
  rw [foldl_decoded hevents] at hcontent
  have haccepted := (accepted_eq_taken st hds).trans hcut.eq
  cases base with
  | none =>
    exact ⟨older, none, events, haccepted, fun _ => hcut.older_nil rfl, hevents, hcontent, honce',
      fun s hs => (nomatch hs), fun s hs => (nomatch hs)⟩
  | some b =>
    cases b with
    | event e =>
      have hwhole := hcut.whole _ rfl
      dsimp only [cacheDeliveries, Delivered.effect] at hwhole
      cases hop : e.op? <;> rw [hop] at hwhole <;> cases hwhole
    | snapshot s =>
      refine ⟨older, some s, events, haccepted, fun h => (nomatch h), hevents, hcontent, honce',
        fun s' hs p hp => ?_, fun s' hs d hd => ?_⟩
      · obtain rfl := Option.mem_some_iff.mp hs
        exact hnewer _ rfl _ (mem_map_of_mem hp)
      · obtain rfl := Option.mem_some_iff.mp hs
        exact hnewest _ rfl d hd

end

end RemoteControl.Sync
