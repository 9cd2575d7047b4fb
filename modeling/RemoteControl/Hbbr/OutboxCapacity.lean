import RemoteControl.Hbbr.OutboxSystem

/-!
# The outbox never overflows

Every admitted pair reserves a slot: an active pair counts once for itself, and
the admission check leaves room for its `active` event and for the `closed` event
still to come. Closing moves the reservation into the queue, quarantining moves
an event sideways, and nothing else grows. So the 4096 slots are never exceeded,
although the closing branch checks nothing.
-/

namespace RemoteControl.Hbbr

open Lib List

variable {drained : List (String × Nat)} {closing : List Event} {m : Machine} {draws draws' : Nat}
  {f v : Snapshot} {s : System} {src : UuidSource} {fault : WriteFault}

/-- The slots in use are at most the capacity, and every reserved slot belongs to a
UUID that a closing report will accept. -/
def Reserved (_ : Past) (v : Snapshot) : Prop :=
  v.total ≤ capacity ∧ ∀ uuid ∈ v.active, validUuid uuid = true

theorem drainActive_length (src : UuidSource) :
    ∀ (n : Nat) (drained : List (String × Nat)), (drainActive src n drained).length = drained.length
  | _, [] => rfl
  | n, _ :: rest => by simp [drainActive, drainActive_length src (n + 1) rest]

theorem Drains.length (h : Drains f drained) : drained.length = f.active.card := by
  rw [← h.2, toFinset_card_of_nodup h.1, length_map]

/-- Opening turns reservations into queued events, one for one. -/
theorem Loads.total_eq (hd : Drains f drained) (h : Loads src drained draws f v draws' closing) :
    v.total = f.total := by
  obtain ⟨first, -, hc, -⟩ := h.draw
  have hlen : closing.length = f.active.card := by
    rw [hc, drainActive_length, hd.length]
  unfold Snapshot.total
  rw [h.events, h.active, h.quarantine, length_append, Finset.card_empty]
  omega

theorem change_total {m' : Machine} {op : Op} (hm : m.snapshot.total ≤ capacity)
    (h : Change src m op m') : m'.snapshot.total ≤ capacity := by
  unfold Snapshot.total at hm
  cases h with
  | admitPair hv hh ha hc =>
    unfold Snapshot.total at hc
    simp only [Snapshot.total, Machine.pushEvent, Machine.setSnapshot, Machine.snapshot,
      length_append, length_singleton] at hc ha ⊢
    rw [Finset.card_insert_of_notMem ha]
    omega
  | @close uuid now fault ha =>
    have hpos : 0 < m.snapshot.active.card := Finset.card_pos.mpr ⟨uuid, ha⟩
    simp only [Snapshot.total, Machine.pushEvent, Machine.setSnapshot, Machine.snapshot,
      length_append, length_singleton] at hm hpos ha ⊢
    rw [Finset.card_erase_of_mem ha]
    omega
  | acknowledge he | quarantine he =>
    rw [he, length_cons] at hm
    simp only [Snapshot.total, Machine.setSnapshot, Machine.snapshot, length_append,
      length_singleton] at hm ⊢
    omega
  | archive =>
    simp only [Snapshot.total, Machine.setSnapshot, Machine.snapshot, length_nil] at hm ⊢
    omega

theorem NewEvent.valid {p q : Past} {w : Snapshot} {e : Event} (h : NewEvent src p w q e)
    (hw : ∀ u ∈ w.active, validUuid u = true) : validUuid e.uuid = true :=
  h.pair.elim And.left fun hc => hw _ hc.1

theorem Stems.active_valid {p q : Past} {w : Snapshot} (h : Stems src p w q v)
    (hw : ∀ u ∈ w.active, validUuid u = true) : ∀ u ∈ v.active, validUuid u = true := by
  intro u hu
  rcases h.active u hu with hu | ⟨e, he, rfl⟩
  · exact hw u hu
  · exact he.valid hw

theorem reserved_invariant (src : UuidSource) : ViewInvariant src (fun _ _ => False) Reserved where
  mono _ h := h
  change hm _ h := ⟨change_total hm.1 h, (change_stems h).active_valid hm.2⟩
  load {p f drained v draws closing} hf hd hl :=
    ⟨by rw [hl.total_eq hd]; exact hl.total, (hl.stems (p := p) hd).active_valid hf.2⟩

theorem reserved_of_reached (h : s.Reached src) : s.All Reserved :=
  (reserved_invariant src).reached (fun _ hi => ⟨hi.total, hi.active⟩) h

/-- A closing report of an active pair always moves the pair's slot into the queue;
only the write that follows can report an error. -/
theorem report_closed {uuid : String} (now : Nat) (fault : WriteFault)
    (hv : validUuid uuid = true) (ha : uuid ∈ m.snapshot.active) :
    m.report src uuid "closed" now fault =
      ((m.setSnapshot { m.snapshot with active := m.snapshot.active.erase uuid }).pushEvent
        src uuid "closed" now).flush fault := by
  unfold Machine.report
  rw [if_neg (by simp [hv]), if_neg (by decide), if_pos rfl, if_neg (not_not.mpr ha)]

/-- Writing the snapshot fails only on the disk or on the size of the file. -/
theorem flush_error {e : OutboxError} (h : (m.flush fault).1 = .error e) :
    e = .io ∨ e = .fileTooLarge := by
  revert h
  fun_cases Machine.flush fault m with
  | case1 => rintro ⟨⟩; exact .inr rfl
  | case2 | case3 => rintro ⟨⟩; exact .inl rfl
  | case4 => intro h; cases h

theorem checkEvents_ne_capacity (src : UuidSource) :
    ∀ (seen : List String) (es : List Event), checkEvents src seen es ≠ .error .capacityExceeded
  | _, [] => by intro h; cases h
  | seen, e :: es => by
    unfold checkEvents
    split
    · exact checkEvents_ne_capacity src _ es
    · intro h; cases h

theorem load_capacity {file : Option Snapshot} (h : (file.getD .empty).total ≤ capacity) :
    load src drained draws file ≠ .error .capacityExceeded := by
  fun_cases load src drained draws file with
  | case1 e he =>
    cases file with
    | none => cases he
    | some f =>
      simp only [readFile] at he
      split at he
      · cases he; intro h; cases h
      · cases he
  | case3 f hf _ hc =>
    rw [← readFile_ok hf] at h
    exact absurd hc (Nat.not_lt.mpr h)
  | case4 f hf _ _ e he =>
    intro hc
    cases hc
    exact checkEvents_ne_capacity _ _ _ he
  | _ => intro h; cases h

/-! ## A restart -/

/-- `v` is the file `f` with every reservation turned into one queued closing event. -/
structure ClosesReservations (f v : Snapshot) : Prop where
  active : v.active = ∅
  queued : ∃ closing, v.events = f.events ++ closing ∧ (closing.map Event.uuid).Nodup ∧
    (closing.map Event.uuid).toFinset = f.active ∧ ∀ e ∈ closing, e.status = "closed"
  quarantine : v.quarantine = f.quarantine
  total : v.total = f.total

theorem drainActive_uuid (src : UuidSource) : ∀ (n : Nat) (drained : List (String × Nat)),
    (drainActive src n drained).map Event.uuid = drained.map Prod.fst
  | _, [] => rfl
  | n, _ :: rest => by simp [drainActive, drainActive_uuid src (n + 1) rest]

theorem Loads.closesReservations (hd : Drains f drained)
    (h : Loads src drained draws f v draws' closing) : ClosesReservations f v := by
  obtain ⟨first, -, hc, -⟩ := h.draw
  have huuid : closing.map Event.uuid = drained.map Prod.fst := by rw [hc, drainActive_uuid]
  refine ⟨h.active, ⟨closing, h.events, ?_, ?_, ?_⟩, h.quarantine, h.total_eq hd⟩
  · rw [huuid]; exact hd.1
  · rw [huuid]; exact hd.2
  · intro e he
    rw [hc] at he
    obtain ⟨k, p, -, -, -, rfl⟩ := mem_drainActive he
    rfl

theorem step_openDir {s' : System} {o : Outbox} (h : Step src s (.openDir drained fault) s')
    (ho : s'.proc = some o) : ClosesReservations s.disk.file o.snapshot := by
  cases h with
  | openRefused hp => rw [hp] at ho; cases ho
  | openFailed => cases ho
  | @opened _ _ snapshot draws closing m hp hd hl hf =>
    have hm := flush_snapshot fault (s.loaded snapshot draws closing)
    rw [hf] at hm
    cases ho
    exact (show m.outbox.snapshot = snapshot from hm) ▸ (load_ok hl).closesReservations hd

/-- **The outbox never overflows.** In every reachable state every view has at most
4096 slots in use; a closing report of an active pair is always queued, in the
slot reserved for it, and can fail only while being written; a restart is never
refused for capacity and turns each reservation into exactly one closing event. -/
theorem slots_never_exceeded (src : UuidSource) {s : System} (h : s.Reached src) :
    (∀ v ∈ s.views, v.total ≤ capacity) ∧
    (∀ o uuid now fault, s.proc = some o → uuid ∈ o.snapshot.active →
      let r := (s.machine o).report src uuid "closed" now fault
      r.2.snapshot.events = o.snapshot.events ++ [⟨src.newV4 s.draws, uuid, "closed", now, ""⟩] ∧
      r.2.snapshot.active = o.snapshot.active.erase uuid ∧
      r.2.snapshot.total = o.snapshot.total ∧
      ∀ e, r.1 = .error e → e = .io ∨ e = .fileTooLarge) ∧
    (∀ drained, load src drained s.draws s.disk.json ≠ .error .capacityExceeded) ∧
    (∀ drained fault s' o, Step src s (.openDir drained fault) s' → s'.proc = some o →
      ClosesReservations s.disk.file o.snapshot) := by
  have hr := reserved_of_reached h
  refine ⟨fun v hv => (hr v hv).1, fun o uuid now fault ho ha => ?_, fun drained => ?_,
    fun drained fault s' o hs ho => step_openDir hs ho⟩
  · have hv := (hr o.snapshot (memory_mem_views ho)).2 uuid ha
    dsimp only
    rw [report_closed (m := s.machine o) now fault hv ha, flush_snapshot]
    refine ⟨rfl, rfl, ?_, fun e he => flush_error he⟩
    have hpos : 0 < o.snapshot.active.card := Finset.card_pos.mpr ⟨uuid, ha⟩
    simp only [Snapshot.total, Machine.pushEvent, Machine.setSnapshot, Machine.snapshot,
      System.machine, length_append, length_singleton, Finset.card_erase_of_mem ha]
    omega
  · exact load_capacity (hr s.disk.file (file_mem_views s)).1

theorem slots_of_firstPair :
    System.firstPair.Reached .binary ∧
    (∃ o, System.firstPair.proc = some o ∧ "pair-0001" ∈ o.snapshot.active) ∧
    (∀ v ∈ System.firstPair.views, v.total ≤ capacity) :=
  ⟨firstPair_reached, ⟨_, rfl, by decide⟩, (slots_never_exceeded .binary firstPair_reached).1⟩

end RemoteControl.Hbbr
