import RemoteControl.Hbbr.OutboxSystem

/-!
# What the outbox promises to keep

Once a write was reported successful, every event in it is on the disk in all the
versions a crash can bring back, so it can only leave by being removed from
memory. Memory loses an event in three ways: it is acknowledged at the front of
the queue, it moves to the quarantine, or the quarantine is cleared after a
backup of it became durable. The proofs below are this sentence, carried through
the views of `OutboxSystem`.

Revisions are what makes clearing safe to repeat:

> a revision names one content of the quarantine, in memory and on every disk a
> crash can bring back.
-/

namespace RemoteControl.Hbbr

open Lib List

variable {a : Action} {e : Event} {m m' : Machine} {op : Op} {p q : Past} {v w : Snapshot}
  {s s' : System} {src : UuidSource}

/-! ## A reported write is everywhere -/

/-- A write of `v` was just reported successful. -/
def System.Wrote (s : System) (v : Snapshot) : Prop :=
  ∃ (m : Machine) (fault : WriteFault),
    (m.flush fault).1 = .ok () ∧ s = (m.flush fault).2.toSystem ∧ m.snapshot = v

theorem flush_ok {fault : WriteFault} (h : (m.flush fault).1 = .ok ()) :
    (m.flush fault).2 = { m with
      outbox := { m.outbox with healthy := true }
      disk := (m.disk.rename m.snapshot).syncDir } := by
  revert h
  fun_cases Machine.flush fault m with
  | case1 | case2 | case3 => intro h; cases h
  | case4 => exact fun _ => rfl

theorem nextEvent_ok {fault : WriteFault} {e : Option Event}
    (h : m.nextEvent fault = (.ok e, m')) :
    m'.outbox.healthy = true ∧ m'.front = e := by
  revert h
  fun_cases Machine.nextEvent fault m with
  | case1 hh =>
    rintro ⟨⟩
    exact ⟨hh, rfl⟩
  | case2 => intro h; cases h
  | case3 _ m₁ hf =>
    rintro ⟨⟩
    have hok : (m.flush fault).2 = _ := flush_ok (by rw [hf])
    rw [hf] at hok
    obtain rfl : m' = _ := hok
    exact ⟨rfl, rfl⟩

theorem System.Wrote.view_eq (hw : s.Wrote w) (hv : v ∈ s.views) : v = w := by
  obtain ⟨m, fault, hok, rfl, rfl⟩ := hw
  rw [flush_ok hok] at hv
  rcases Machine.mem_views.mp hv with rfl | hv
  · rfl
  · rcases mem_diskViews.mp hv with rfl | ⟨c, hc, -⟩
    · rfl
    · cases hc

/-- `healthy` says that memory is on the disk and nothing else can come back. -/
def Synced (s : System) : Prop :=
  ∀ o, s.proc = some o → o.healthy = true →
    s.disk.json = some o.snapshot ∧ s.disk.unsynced = []

theorem synced_of_reached (h : s.Reached src) : Synced s := by
  refine process_invariant (Q := fun _ => True)
    (P := fun o d => o.healthy = true → d.json = some o.snapshot ∧ d.unsynced = [])
    (fun _ => trivial) (fun _ _ => trivial) (fun fault m _ => ?_) (fun _ => trivial)
    (fun hd hs hh => ?_) h
  · fun_cases Machine.flush fault m with
    | case1 | case2 | case3 => intro h; cases h
    | case4 => exact fun _ => ⟨rfl, rfl⟩
  · exact ⟨hd.json.trans (hs hh).1, hd.unsynced.trans (hs hh).2⟩

/-! ## Events are kept -/

/-- The event, as it was recorded or as the quarantine marks it. -/
def Event.SameReport (e f : Event) : Prop := f = e ∨ f = { e with reason := "credential_rotated" }

def Held (e : Event) (v : Snapshot) : Prop := e ∈ v.events ∨ ∃ f ∈ v.quarantine, e.SameReport f

/-- A completely written, durable backup contains the event. -/
def Archived (e : Event) (backups : String → Option Backup) : Prop :=
  ∃ r b page, backups r = some b ∧ b.durable = true ∧ b.page = some page ∧
    ∃ f ∈ page.events, e.SameReport f

def Kept (e : Event) (p : Past) (v : Snapshot) : Prop := Held e v ∨ Archived e p.backups

/-- The operation acknowledges `e`, at the front of the queue, under its own identity. -/
def Acknowledges (e : Event) (v : Snapshot) (op : Op) : Prop :=
  v.events.head? = some e ∧ ∃ fault, op = .acknowledge e.id e.uuid e.status fault

theorem archived_mono (h : p.le q) (ha : Archived e p.backups) : Archived e q.backups := by
  obtain ⟨r, b, page, hb, hd, hp, f, hf, hs⟩ := ha
  obtain ⟨b', hb', hd', hp'⟩ := h.durable r b hb hd
  exact ⟨r, b', page, hb', hd', hp'.trans hp, f, hf, hs⟩

/-- The operation quarantines `e`, at the front of the queue, under its own identity. -/
def Quarantines (e : Event) (v : Snapshot) (op : Op) : Prop :=
  v.events.head? = some e ∧
    ∃ fault, op = .quarantine e.id e.uuid e.status "credential_rotated" fault

/-- An event leaves the queue in one of two ways, and only from the front. -/
theorem change_leaves (h : Change src m op m') (he : e ∈ m.snapshot.events)
    (he' : e ∉ m'.snapshot.events) :
    Acknowledges e m.snapshot op ∨
      Quarantines e m.snapshot op ∧
        { e with reason := "credential_rotated" } ∈ m'.snapshot.quarantine := by
  cases h with
  | admitPair | close => exact absurd (mem_append_left _ he) he'
  | @acknowledge front rest fault hq =>
    rw [hq] at he
    rcases mem_cons.mp he with rfl | he
    · exact .inl ⟨by rw [hq]; rfl, fault, rfl⟩
    · exact absurd he he'
  | @quarantine front rest fault hq =>
    rw [hq] at he
    rcases mem_cons.mp he with rfl | he
    · exact .inr ⟨⟨by rw [hq]; rfl, fault, rfl⟩, mem_append_right _ (mem_singleton_self _)⟩
    · exact absurd he he'
  | archive => exact absurd he he'

/-- A quarantined event stays there until it is in a backup. -/
theorem change_quarantined (h : Change src m op m')
    (hq : ∃ f ∈ m.snapshot.quarantine, e.SameReport f) :
    (∃ f ∈ m'.snapshot.quarantine, e.SameReport f) ∨ Archived e m'.past.backups := by
  obtain ⟨f, hf, hs⟩ := hq
  cases h with
  | archive => exact .inr ⟨_, _, _, Function.update_self .., rfl, rfl, f, hf, hs⟩
  | quarantine => exact .inl ⟨f, mem_append_left _ hf, hs⟩
  | _ => exact .inl ⟨f, hf, hs⟩

/-- Where `e` is: still queued, or taken off with an acknowledgement, which `X` stands
for, or set aside with a refusal, which `Y` stands for. -/
def Accounted (e : Event) (X Y : Prop) (p : Past) (v : Snapshot) : Prop :=
  e ∈ v.events ∨ X ∨
    Y ∧ ((∃ f ∈ v.quarantine, e.SameReport f) ∨ Archived e p.backups)

theorem Accounted.weaken {X Y X' Y' : Prop} (h : Accounted e X Y p v) (hX : X → X') (hY : Y → Y') :
    Accounted e X' Y' p v :=
  Or.imp id (Or.imp hX (And.imp hY id)) h

/-- As long as it is only acknowledged if `X` and only quarantined if `Y`, an event is
accounted for. -/
theorem accounted_invariant (src : UuidSource) (e : Event) (X Y : Prop) :
    ViewInvariant src
      (fun v op => Acknowledges e v op ∧ ¬ X ∨ Quarantines e v op ∧ ¬ Y) (Accounted e X Y) where
  mono hle h := h.imp id (Or.imp id (And.imp id (Or.imp id (archived_mono hle))))
  change {m m' op} hm hB h := by
    rcases hm with he | hx | ⟨hy, hq | ha⟩
    · by_cases he' : e ∈ m'.snapshot.events
      · exact .inl he'
      rcases change_leaves h he he' with hack | ⟨hquar, hmem⟩
      · exact .inr (.inl (by_contra fun hx => hB (.inl ⟨hack, hx⟩)))
      · exact .inr (.inr ⟨by_contra fun hy => hB (.inr ⟨hquar, hy⟩), .inl ⟨_, hmem, .inr rfl⟩⟩)
    · exact .inr (.inl hx)
    · exact .inr (.inr ⟨hy, change_quarantined h hq⟩)
    · exact .inr (.inr ⟨hy, .inr (archived_mono (change_past h) ha)⟩)
  load hf _ hl := by
    rw [Accounted, hl.events, hl.quarantine]
    exact hf.imp (fun h => mem_append_left _ h) id

theorem accounted_iff_kept (e : Event) (p : Past) (v : Snapshot) :
    Accounted e False True p v ↔ Kept e p v := by
  simp only [Accounted, Kept, Held, false_or, true_and, or_assoc]

theorem kept_invariant (src : UuidSource) (e : Event) :
    ViewInvariant src (Acknowledges e) (Kept e) := by
  have h := accounted_invariant src e False True
  simp only [not_false_eq_true, and_true, not_true_eq_false, and_false, or_false] at h
  rwa [funext fun p => funext fun v => propext (accounted_iff_kept e p v)] at h

/-! ## Identities are not reused -/

def Snapshot.ids (v : Snapshot) : List String := (v.events ++ v.quarantine).map Event.id

/-- Identities are unique, and neither they nor the revision will be drawn again. -/
def FreshIds (src : UuidSource) (p : Past) (v : Snapshot) : Prop :=
  v.ids.Nodup ∧ ∀ n, p.draws ≤ n → src.newV4 n ∉ v.ids ∧ src.newV4 n ≠ v.quarantineRevision

/-- Identities that only move, disappear, or join as `new` keep the property. -/
theorem freshIds_of_perm (new : List String) (hv : FreshIds src p v) (hle : p.draws ≤ q.draws)
    (hids : ∃ l, l.Sublist v.ids ∧ w.ids.Perm (new ++ l)) (hnew : new.Nodup)
    (hdrawn : ∀ x ∈ new, ∃ k, p.draws ≤ k ∧ k < q.draws ∧ x = src.newV4 k)
    (hrev : ∀ n, q.draws ≤ n → src.newV4 n ≠ w.quarantineRevision) : FreshIds src q w := by
  obtain ⟨l, hl, hperm⟩ := hids
  refine ⟨?_, fun n hn => ⟨fun hmem => ?_, hrev n hn⟩⟩
  · rw [hperm.nodup_iff]
    refine hnew.append (hl.nodup hv.1) fun x hx hxl => ?_
    obtain ⟨k, hk, -, rfl⟩ := hdrawn x hx
    exact (hv.2 k hk).1 (hl.subset hxl)
  · rcases mem_append.mp (hperm.mem_iff.mp hmem) with h | h
    · obtain ⟨k, -, hk, he⟩ := hdrawn _ h
      have := src.newV4_injective he
      omega
    · exact (hv.2 n (by omega)).1 (hl.subset h)

theorem drainActive_ids (src : UuidSource) : ∀ (n : Nat) (drained : List (String × Nat)),
    (drainActive src n drained).map Event.id = (List.range' n drained.length).map src.newV4
  | _, [] => rfl
  | n, _ :: rest => by
    simp [drainActive, drainActive_ids src (n + 1) rest, List.range'_succ]

theorem freshIds_push {active : Finset String} {uuid status : String} {now : Nat}
    (hm : FreshIds src m.past m.snapshot) :
    FreshIds src ((m.setSnapshot { m.snapshot with active := active }).pushEvent
        src uuid status now).past
      ((m.setSnapshot { m.snapshot with active := active }).pushEvent
        src uuid status now).snapshot := by
  refine freshIds_of_perm [src.newV4 m.draws] hm (Nat.le_succ _)
    ⟨m.snapshot.ids, List.Sublist.refl _, ?_⟩ (nodup_singleton _) (fun x hx => ?_)
    (fun n hn => (hm.2 n (Nat.le_of_succ_le hn)).2)
  · simp only [Snapshot.ids, Machine.pushEvent, Machine.setSnapshot, Machine.snapshot,
      append_assoc, map_append, map_cons, map_nil]
    exact perm_middle
  · exact ⟨m.draws, Nat.le_refl _, Nat.lt_succ_self _, mem_singleton.mp hx⟩

theorem freshIds_change (hm : FreshIds src m.past m.snapshot) (h : Change src m op m') :
    FreshIds src m'.past m'.snapshot := by
  cases h with
  | admitPair | close => exact freshIds_push hm
  | @acknowledge front rest fault he =>
    refine freshIds_of_perm [] hm (Nat.le_refl _) ⟨_, ?_, List.Perm.refl _⟩
      nodup_nil nofun (fun n hn => (hm.2 n hn).2)
    unfold Snapshot.ids
    rw [he]
    exact (sublist_cons_self _ _).map _
  | @quarantine front rest fault he =>
    refine freshIds_of_perm [] hm (Nat.le_succ _)
      ⟨m.snapshot.ids, List.Sublist.refl _, ?_⟩ nodup_nil nofun
      (fun n hn heq => ?_)
    · -- the front moves to the end of the quarantine
      unfold Snapshot.ids
      rw [he]
      simp only [Machine.setSnapshot, Machine.snapshot, map_append, map_cons,
        map_nil, nil_append, ← append_assoc, cons_append]
      exact perm_append_singleton _ _
    · have := src.newV4_injective heq
      exact absurd hn (by rw [this]; exact Nat.not_succ_le_self _)
  | archive =>
    refine freshIds_of_perm [] hm (Nat.le_succ _) ⟨_, ?_, List.Perm.refl _⟩
      nodup_nil nofun (fun n hn heq => ?_)
    · unfold Snapshot.ids
      simp only [Machine.setSnapshot, Machine.snapshot, append_nil, map_append]
      exact sublist_append_left _ _
    · have := src.newV4_injective heq
      exact absurd hn (by rw [this]; exact Nat.not_succ_le_self _)

theorem freshIds_load {f : Snapshot} {drained : List (String × Nat)} {draws : Nat}
    {closing : List Event} (hf : FreshIds src p f)
    (hl : Loads src drained p.draws f v draws closing) :
    FreshIds src ⟨draws, p.recorded ++ closing, p.backups⟩ v := by
  obtain ⟨first, hdraws, hclosing, hrev⟩ := hl.draw
  have hfirst : p.draws ≤ first := by rcases hrev with ⟨-, -, h⟩ | ⟨-, -, h⟩ <;> omega
  have hids : closing.map Event.id = (List.range' first drained.length).map src.newV4 := by
    rw [hclosing, drainActive_ids]
  refine freshIds_of_perm (closing.map Event.id) hf hl.le_draws
    ⟨f.ids, List.Sublist.refl _, ?_⟩ ?_ (fun x hx => ?_) (fun n hn heq => ?_)
  · unfold Snapshot.ids
    rw [hl.events, hl.quarantine, map_append, map_append, map_append, ← append_assoc]
    exact (perm_append_comm).append_right _
  · rw [hids]
    exact (nodup_range' ..).map src.newV4_injective
  · rw [hids] at hx
    obtain ⟨k, hk, rfl⟩ := mem_map.mp hx
    rw [mem_range'_1] at hk
    exact ⟨k, by omega, by show k < draws; omega, rfl⟩
  · -- the revision is the file's, or the UUID drawn before the closing events
    change draws ≤ n at hn
    rcases hrev with ⟨-, hv, hf'⟩ | ⟨-, hv, -⟩
    · rw [hv] at heq
      have := src.newV4_injective heq
      omega
    · rw [hv] at heq
      exact (hf.2 n (by omega)).2 heq

theorem freshIds_invariant (src : UuidSource) :
    ViewInvariant src (fun _ _ => False) (FreshIds src) where
  mono hle h := ⟨h.1, fun n hn => h.2 n (Nat.le_trans hle.draws hn)⟩
  change hm _ h := freshIds_change hm h
  load hf _ hl := freshIds_load hf hl

theorem freshIds_of_reached (h : s.Reached src) : s.All (FreshIds src) :=
  (freshIds_invariant src).reached (fun _ hi => ⟨hi.nodup, hi.fresh⟩) h

/-! ## The queue keeps the recording order -/

def InOrder (p : Past) (v : Snapshot) : Prop := v.events.Sublist p.recorded

theorem inOrder_change (hm : InOrder m.past m.snapshot) (h : Change src m op m') :
    InOrder m'.past m'.snapshot := by
  have hrest : ∀ {front : Event} {rest : List Event}, m.snapshot.events = front :: rest →
      rest.Sublist m.recorded := by
    intro front rest he
    unfold InOrder at hm
    rw [he] at hm
    exact (sublist_cons_self _ _).trans hm
  cases h with
  | admitPair | close => exact hm.append (List.Sublist.refl _)
  | acknowledge he => exact hrest he
  | quarantine he => exact hrest he
  | archive => exact hm

theorem inOrder_invariant (src : UuidSource) : ViewInvariant src (fun _ _ => False) InOrder where
  mono hle h := List.Sublist.trans h hle.recorded.sublist
  change hm _ h := inOrder_change hm h
  load hf _ hl := by
    unfold InOrder
    rw [hl.events]
    exact List.Sublist.append hf (List.Sublist.refl _)

theorem inOrder_of_reached (h : s.Reached src) : s.All InOrder :=
  (inOrder_invariant src).reached
    (fun s hi => by unfold InOrder; rw [show s.past.recorded = _ from hi.recorded]) h

/-! ## A revision names one quarantine -/

/-- A snapshot that a step makes keeps revision and quarantine of an earlier view
together, or names its quarantine by a UUID never drawn before. -/
theorem Made.revision (h : Made src s a s' v) :
    (∃ w ∈ s.views, w.quarantineRevision = v.quarantineRevision ∧ w.quarantine = v.quarantine) ∨
      v.quarantineRevision = src.newV4 s.draws := by
  cases h with
  | @change o op m' hp ha hc hpast =>
    have hmem := memory_mem_views hp
    cases hc with
    | admitPair | close | acknowledge => exact .inl ⟨_, hmem, rfl, rfl⟩
    | quarantine => exact .inr rfl
    | archive => exact .inr rfl
  | load hd hl hpast =>
    obtain ⟨first, -, -, ⟨-, hr, -⟩ | ⟨-, hr, -⟩⟩ := hl.draw
    · exact .inr hr
    · exact .inl ⟨_, file_mem_views s, hr.symm, hl.quarantine.symm⟩

/-- The revision `r` names the quarantine `q`, and will not be drawn again. -/
def Names (src : UuidSource) (r : String) (q : List Event) (s : System) : Prop :=
  (∀ n, s.draws ≤ n → src.newV4 n ≠ r) ∧
    ∀ v ∈ s.views, v.quarantineRevision = r → v.quarantine = q

theorem names_step {r : String} {q : List Event} (hs : Names src r q s) (h : Step src s a s') :
    Names src r q s' := by
  refine ⟨fun n hn => hs.1 n (Nat.le_trans (step_past h).draws hn), fun v hv hr => ?_⟩
  rcases step_views h with ⟨-, hsub⟩ | ⟨v₀, hmade, hsub⟩
  · exact hs.2 v (hsub v hv) hr
  rcases hsub v hv with rfl | hv
  · rcases hmade.revision with ⟨w, hw, hwr, hwq⟩ | hnew
    · rw [← hwq]; exact hs.2 w hw (hwr.trans hr)
    · exact absurd (hnew.symm.trans hr) (hs.1 s.draws (Nat.le_refl _))
  · exact hs.2 v hv hr

/-- No two views disagree about a revision. -/
def Agree (s : System) : Prop :=
  ∀ v ∈ s.views, ∀ w ∈ s.views, v.quarantineRevision = w.quarantineRevision →
    v.quarantine = w.quarantine

theorem agree_step (hf : s.All (FreshIds src)) (hs : Agree s) (h : Step src s a s') : Agree s' := by
  rcases step_views h with ⟨-, hsub⟩ | ⟨v₀, hmade, hsub⟩
  · exact fun v hv w hw => hs v (hsub v hv) w (hsub w hw)
  -- the new snapshot against an old view
  have hnew : ∀ w ∈ s.views, v₀.quarantineRevision = w.quarantineRevision →
      v₀.quarantine = w.quarantine := by
    intro w hw hr
    rcases hmade.revision with ⟨u, hu, hur, huq⟩ | hdraw
    · rw [← huq]; exact hs u hu w hw (hur.trans hr)
    · exact absurd (hdraw.symm.trans hr) ((hf w hw).2 s.draws (Nat.le_refl _)).2
  intro v hv w hw hr
  rcases hsub v hv with rfl | hv <;> rcases hsub w hw with rfl | hw
  · rfl
  · exact hnew w hw hr
  · exact (hnew v hv hr.symm).symm
  · exact hs v hv w hw hr

theorem agree_of_reached (h : s.Reached src) : Agree s := by
  obtain ⟨s₀, as, hi, hrun⟩ := h
  refine hrun.invariant_of (J := fun s => s.All (FreshIds src)) ?_ ?_ ?_ ?_
  · exact fun s a t hs hst => (freshIds_invariant src).run (Run.single hst) hs
  · exact fun s a t hf hs hst => agree_step hf hs hst
  · exact freshIds_of_reached ⟨s₀, [], hi, Run.nil s₀⟩
  · have hone : s₀.All fun _ v => v = s₀.disk.file := hi.all rfl
    intro v hv w hw _
    rw [hone v hv, hone w hw]

/-- **A request to archive an old revision never removes newer events.** If `r` was
the revision in memory at `s`, then at any later state `t` archiving `r` leaves the
quarantine as it is or removes exactly what was quarantined at `s`. -/
theorem archive_removes_only {t : System} {as : List Action} {o o' : Outbox} (h : s.Reached src)
    (hrun : Run (Step src) s as t) (ho : s.proc = some o) (ho' : t.proc = some o')
    (backup : BackupFault) (fault : WriteFault) :
    let m := ((t.machine o').archiveQuarantine src o.snapshot.quarantineRevision backup fault).2
    m.snapshot.quarantine = o'.snapshot.quarantine ∨
      m.snapshot.quarantine = [] ∧ o'.snapshot.quarantine = o.snapshot.quarantine := by
  have hmem := memory_mem_views ho
  have hs : Names src o.snapshot.quarantineRevision o.snapshot.quarantine s :=
    ⟨fun n hn => ((freshIds_of_reached h _ hmem).2 n hn).2,
      fun v hv hr => agree_of_reached h v hv _ hmem hr⟩
  have ht := hrun.invariant (fun _ _ _ hn hst => names_step hn hst) hs
  have hout := archive_outcome src (t.machine o') o.snapshot.quarantineRevision backup fault
  dsimp only
  generalize ((t.machine o').archiveQuarantine src o.snapshot.quarantineRevision backup fault).2
    = m at hout
  cases hout with
  | unwritten => exact .inl rfl
  | rewritten => rw [flush_snapshot]; exact .inl rfl
  | changed fault hc =>
    rw [flush_snapshot]
    cases hc with
    | archive hr => exact .inr ⟨rfl, ht.2 _ (memory_mem_views ho') hr⟩

/-! ## The promise -/

/-- Along the run, `e` was acknowledged at the front of the queue under its own id,
UUID and status. -/
def AcknowledgedAlong (src : UuidSource) (e : Event) (s : System) (as : List Action) : Prop :=
  ∃ u a as₁ as₂, as = as₁ ++ a :: as₂ ∧ Run (Step src) s as₁ u ∧ u.Asks (Acknowledges e) a

/-- **What the outbox promises.** Let a write be reported successful at `s`, and let
anything happen afterwards. Every event of that write is still in the queue or in
the quarantine, in memory and in whatever the disk may come back as, unless it
was acknowledged or is in a complete backup. Identities stay unique, the queue is
in recording order, and archiving an old revision removes only what it named. -/
theorem outbox_keeps_promises (src : UuidSource) {s t : System} {as : List Action}
    (h : s.Reached src) (hrun : Run (Step src) s as t) :
    (∀ w e, s.Wrote w → e ∈ w.events ++ w.quarantine →
      AcknowledgedAlong src e s as ∨ ∀ v ∈ t.views, Held e v ∨ Archived e t.disk.backups) ∧
    (∀ v ∈ t.views, ((v.events ++ v.quarantine).map Event.id).Nodup) ∧
    (∀ v ∈ t.views, v.events.Sublist t.recorded) ∧
    (∀ o o' backup fault, s.proc = some o → t.proc = some o' →
      let m := ((t.machine o').archiveQuarantine src o.snapshot.quarantineRevision backup fault).2
      m.snapshot.quarantine = o'.snapshot.quarantine ∨
        m.snapshot.quarantine = [] ∧ o'.snapshot.quarantine = o.snapshot.quarantine) := by
  have ht : t.Reached src := h.run hrun
  refine ⟨fun w e hw he => ?_, fun v hv => (freshIds_of_reached ht v hv).1,
    inOrder_of_reached ht, fun o o' backup fault ho ho' =>
      archive_removes_only h hrun ho ho' backup fault⟩
  have hheld : Held e w := by
    rcases mem_append.mp he with he | he
    · exact .inl he
    · exact .inr ⟨e, he, .inl rfl⟩
  have hs : s.All (Kept e) := by
    intro v hv
    rw [hw.view_eq hv]
    exact .inl hheld
  exact hrun.until (fun _ _ _ hI hst => (kept_invariant src e).step hI hst) hs

/-- The outbox of the first pair, as its report writes it. -/
def firstAdmitted : Machine :=
  (System.firstOpen.machine ⟨{ firstOutbox.snapshot with active := {"pair-0001"} }, true⟩).pushEvent
    .binary "pair-0001" "active" 7

theorem firstPair_wrote : System.firstPair.Wrote firstAdmitted.snapshot :=
  ⟨firstAdmitted, .none, rfl, rfl, rfl⟩

theorem outbox_keeps_firstPair :
    System.firstPair.Reached .binary ∧
    Run (Step .binary) System.firstPair [.kill] { System.firstPair with proc := none } ∧
    ∀ e ∈ firstAdmitted.snapshot.events, AcknowledgedAlong .binary e System.firstPair [.kill] ∨
      ∀ v ∈ ({ System.firstPair with proc := none } : System).views,
        Held e v ∨ Archived e System.firstPair.disk.backups :=
  ⟨firstPair_reached, Run.single .kill, fun e he =>
    (outbox_keeps_promises .binary firstPair_reached (Run.single .kill)).1
      firstAdmitted.snapshot e firstPair_wrote (mem_append_left _ he)⟩

end RemoteControl.Hbbr
