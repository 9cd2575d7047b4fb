import RemoteControl.Hbbr.OutboxCapacity
import RemoteControl.Hbbr.OutboxDurability

/-!
# What the outbox writes, it can read

Before an event is handed out, an outbox that is not healthy is written once more, so at that
moment memory is on the disk and nothing else can come back. A crash then leaves a file that `open`
reads and accepts:

> a running outbox has in memory only what its own checks let through (`Openable`), and a healthy
> one has written no more than it reads.

What `open` makes of the file begins with the same event. It has to write that before the relay goes
on, and what was an active pair takes more room as a closing event: this write may be refused although
the file itself was not.
-/

namespace RemoteControl.Hbbr

open Lib List

variable {a : Action} {e : Event} {drained : List (String × Nat)} {closing es : List Event}
  {seen : List String} {m m' : Machine} {draws first : Nat} {file : Option Snapshot}
  {f v : Snapshot} {s t : System} {src : UuidSource} {fault : WriteFault}

/-- What the checks of `open` ask of an event. -/
def Event.Sound (src : UuidSource) (e : Event) : Prop :=
  src.parseStr e.id = true ∧ validUuid e.uuid = true ∧ (e.status = "active" ∨ e.status = "closed")

/-- What they ask of a snapshot, besides the number of its entries and their identities. -/
structure Openable (src : UuidSource) (v : Snapshot) : Prop where
  version : v.version = 1 ∨ v.version = 2
  sound : ∀ e ∈ v.events ++ v.quarantine, e.Sound src
  reasons : ∀ e ∈ v.quarantine, e.reason = "credential_rotated"
  active : ∀ uuid ∈ v.active, validUuid uuid = true

/-! ## The checks -/

theorem checkEvents_ok (hsound : ∀ e ∈ es, e.Sound src) (hnodup : (es.map Event.id).Nodup)
    (hseen : ∀ e ∈ es, e.id ∉ seen) : checkEvents src seen es = .ok () := by
  induction es generalizing seen with
  | nil => rfl
  | cons e es ih =>
    obtain ⟨hparses, hvalid, hstatus⟩ := hsound e mem_cons_self
    obtain ⟨hfirst, hrest⟩ := nodup_cons.mp hnodup
    unfold checkEvents
    rw [if_pos ⟨hparses, hseen e mem_cons_self, hvalid, hstatus⟩]
    refine ih (fun f hf => hsound f (mem_cons_of_mem _ hf)) hrest fun f hf hmem => ?_
    rcases mem_cons.mp hmem with hid | hmem
    · exact hfirst (hid ▸ mem_map_of_mem hf)
    · exact hseen f (mem_cons_of_mem _ hf) hmem

theorem checkEvents_sound (h : checkEvents src seen es = .ok ()) : ∀ e ∈ es, e.Sound src := by
  induction es generalizing seen with
  | nil => exact nofun
  | cons e es ih =>
    unfold checkEvents at h
    split at h
    · next hok =>
      exact forall_mem_cons.mpr ⟨⟨hok.1, hok.2.2.1, hok.2.2.2⟩, ih h⟩
    · cases h

theorem load_of_openable (draws : Nat) (hread : readFile file = .ok f) (h : Openable src f)
    (ht : f.total ≤ capacity) (hnodup : f.ids.Nodup) (hd : Drains f drained) :
    ∃ v draws' closing, load src drained draws file = .ok (v, draws', closing) := by
  have hcheck : checkEvents src [] (f.events ++ f.quarantine) = .ok () :=
    checkEvents_ok h.sound hnodup fun e _ => not_mem_nil
  have hversion : ¬ (f.version ≠ 1 ∧ f.version ≠ 2) := by
    rcases h.version with hv | hv <;> simp [hv]
  have hreasons : f.quarantine.all (fun e => e.reason = "credential_rotated") = true := by
    simpa using h.reasons
  have hdrained : drained.all (fun p => validUuid p.1) = true :=
    all_eq_true.mpr fun p hp => h.active p.1 (hd.mem_active hp)
  unfold load
  rw [hread]
  simp only [if_neg hversion, if_neg (Nat.not_lt.mpr ht), hcheck, hreasons, hdrained,
    not_true_eq_false, if_false]
  exact ⟨_, _, _, rfl⟩

theorem Openable.stems {p q : Past} {w : Snapshot} (h : Openable src w) (hs : Stems src p w q v) :
    Openable src v where
  version := by
    rcases hs.version with hv | hv
    · rw [hv]; exact h.version
    · exact .inr hv
  sound e he := by
    have hold : ∀ d ∈ w.events, d.Sound src := fun d hd => h.sound d (mem_append_left _ hd)
    rcases mem_append.mp he with he | he
    · rcases hs.events e he with he | he
      · exact hold e he
      · obtain ⟨k, -, -, hid⟩ := he.drawn
        exact ⟨hid ▸ src.parse_newV4 k, he.valid h.active, he.pair.imp And.right And.right⟩
    · rcases hs.quarantine e he with he | ⟨d, hd, rfl⟩
      · exact h.sound e (mem_append_right _ he)
      · exact hold d hd
  reasons e he := by
    rcases hs.quarantine e he with he | ⟨d, hd, rfl⟩
    · exact h.reasons e he
    · rfl
  active := hs.active_valid h.active

/-- What `open` loads, it would accept again. -/
theorem load_openable {draws' : Nat} (h : load src drained draws file = .ok (v, draws', closing)) :
    Openable src v := by
  unfold load at h
  split at h
  · cases h
  split at h
  · cases h
  dsimp only at h
  split at h
  · cases h
  split at h
  · cases h
  · next f _ _ _ hcheck =>
    split at h
    · cases h
    · next hreasons =>
      split at h
      · cases h
      · next hdrained =>
        have hvalid : ∀ p ∈ drained, validUuid p.1 = true := by simpa using hdrained
        have hsound := checkEvents_sound hcheck
        cases h
        refine ⟨.inr rfl, fun e he => ?_, by simpa using hreasons, nofun⟩
        rcases mem_append.mp he with he | he
        · rcases mem_append.mp he with he | he
          · exact hsound e (mem_append_left _ he)
          · obtain ⟨k, p, -, -, hp, rfl⟩ := mem_drainActive he
            exact ⟨src.parse_newV4 k, hvalid p hp, .inr rfl⟩
        · exact hsound e (mem_append_right _ he)

/-! ## Every running outbox -/

/-- Memory is openable, and what a healthy outbox wrote was short enough. -/
def Restartable (src : UuidSource) (s : System) : Prop :=
  ∀ o, s.proc = some o →
    Openable src o.snapshot ∧ (o.healthy = true → o.snapshot.jsonLen ≤ maxBytes)

theorem restartable_of_reached (h : s.Reached src) : Restartable src s := by
  refine process_invariant (Q := Openable src)
    (P := fun o _ => Openable src o.snapshot ∧ (o.healthy = true → o.snapshot.jsonLen ≤ maxBytes))
    load_openable (fun ho hc => ho.stems (change_stems hc)) (fun fault m ho => ?_) And.left
    (fun _ hs => hs) h
  fun_cases Machine.flush fault m with
  | case1 | case2 | case3 => exact ⟨ho, fun hh => (by cases hh)⟩
  | case4 hsize => exact ⟨ho, fun _ => Nat.not_lt.mp hsize⟩

/-! ## An event that was taken -/

theorem nextEvent_snapshot {r : Except OutboxError (Option Event)}
    (h : m.nextEvent fault = (r, m')) : m'.snapshot = m.snapshot := by
  have hsnapshot := flush_snapshot fault m
  revert h
  fun_cases Machine.nextEvent fault m with
  | case1 => rintro ⟨⟩; rfl
  | case2 _ e m₁ hf | case3 _ m₁ hf =>
    rintro ⟨⟩
    rw [hf] at hsnapshot
    exact hsnapshot

/-- The answer of the API for an event is taken off the queue. -/
def Op.Settles (e : Event) : Op → Prop
  | .acknowledge id uuid status _ | .quarantine id uuid status _ _ =>
    id = e.id ∧ uuid = e.uuid ∧ status = e.status
  | _ => False

theorem head?_append_of {α : Type} {l l' : List α} {a : α} (h : l.head? = some a) :
    (l ++ l').head? = some a := by
  rw [List.head?_append, h]
  rfl

/-- Nothing but such an answer takes an event from the front of the queue. -/
theorem front_invariant (src : UuidSource) (e : Event) :
    ViewInvariant src (fun _ op => op.Settles e) (fun _ v => v.events.head? = some e) where
  mono _ h := h
  change {m m' op} hm hB h := by
    cases h with
    | admitPair | close => exact head?_append_of hm
    | acknowledge he | quarantine he =>
      rw [he] at hm
      cases hm
      exact absurd ⟨rfl, rfl, rfl⟩ hB
    | archive => exact hm
  load hf _ hl := by
    rw [hl.events]
    exact head?_append_of hf

theorem front_kept {as : List Action} (h : Run (Step src) s as t)
    (hs : ∀ v ∈ s.views, v.events.head? = some e) (has : ∀ op, Action.op op ∈ as → ¬ op.Settles e) :
    ∀ v ∈ t.views, v.events.head? = some e := by
  induction h with
  | nil => exact hs
  | @snoc t u as a hrun hstep ih =>
    have ht := ih fun op hop => has op (mem_append_left _ hop)
    rcases (front_invariant src e).step ht hstep with ⟨o, op, -, rfl, hB⟩ | hu
    · exact absurd hB (has op (mem_append_right _ (mem_singleton_self _)))
    · exact hu

/-! ## After a crash -/

def Action.isCrash : Action → Bool
  | .kill | .powerLoss => true
  | _ => false

/-- The file is `v`, and no other can come back. -/
def Disk.Holds (d : Disk) (v : Snapshot) : Prop := d.json = some v ∧ d.unsynced = []

theorem Disk.Holds.view_eq {d : Disk} {w : Snapshot} (h : d.Holds v) (hw : w ∈ d.views) :
    w = v := by
  unfold Disk.views at hw
  rw [h.1, h.2] at hw
  exact mem_singleton.mp hw

theorem Disk.Holds.crash (h : s.disk.Holds v) (ha : a.isCrash = true) (hs : Step src s a t) :
    t.proc = none ∧ t.disk.Holds v := by
  cases hs with
  | op | openRefused | openFailed | opened => cases ha
  | kill => exact ⟨rfl, h⟩
  | powerLoss hd =>
    have hjson := hd.json
    rw [h.2, mem_singleton] at hjson
    exact ⟨rfl, hjson.trans h.1, hd.unsynced⟩

theorem flush_written (h : m.snapshot.jsonLen ≤ maxBytes) :
    m.flush .none = (.ok (), { m with
      outbox := { m.outbox with healthy := true }
      disk := (m.disk.rename m.snapshot).syncDir }) := by
  unfold Machine.flush
  rw [if_neg (Nat.not_lt.mpr h)]

/-- Opening succeeds, on a disk without faults, exactly if what it loads may be written. -/
theorem opened_iff {P : Snapshot → Prop} (hp : s.proc = none) (hd : Drains s.disk.file drained)
    (hl : load src drained s.draws s.disk.json = .ok (v, draws, closing)) (hv : P v) :
    (∃ u o, Step src s (.openDir drained .none) u ∧ u.proc = some o ∧ P o.snapshot)
      ↔ v.jsonLen ≤ maxBytes := by
  constructor
  · rintro ⟨u, o, hstep, ho, -⟩
    cases hstep with
    | openRefused =>
      rw [hp] at ho
      cases ho
    | openFailed => cases ho
    | opened hp' hd' hl' hf =>
      rw [hl] at hl'
      cases hl'
      unfold Machine.flush at hf
      split at hf
      · cases hf
      · next hsize => exact Nat.not_lt.mp hsize
  · intro hsize
    have hflush := flush_written (m := s.loaded v draws closing) hsize
    exact ⟨_, _, Step.opened hp hd hl hflush, rfl, hv⟩

/-! ## When the API answers -/

/-- The front is handed out, and acknowledged by the API. -/
def Machine.exchange (m : Machine) : Option Event × Machine := match m.nextEvent .none with
  | (.ok (some e), m') => (some e, (m'.acknowledge e.id e.uuid e.status .none).2)
  | (_, m') => (none, m')

/-- So many exchanges, and what they hand out. -/
def Machine.exchanges : Nat → Machine → List Event × Machine
  | 0, m => ([], m)
  | n + 1, m =>
    let rest := m.exchange.2.exchanges n
    (m.exchange.1.toList ++ rest.1, rest.2)

theorem jsonLen_rest_le (hm : v.events = e :: es) :
    { v with events := es }.jsonLen ≤ v.jsonLen := by
  simp only [Snapshot.jsonLen, jsonEventsLen, jsonArrayLen, hm, map_cons, sum_cons, length_cons]
  omega

theorem exchange_front (hsize : m.snapshot.jsonLen ≤ maxBytes) (hm : m.snapshot.events = e :: es) :
    ∃ m', m.exchange = (some e, m') ∧ m'.snapshot = { m.snapshot with events := es } ∧
      m'.disk.Holds m'.snapshot := by
  -- an outbox that is not healthy is written before, and all are written after
  obtain ⟨w, hnext, hw⟩ : ∃ w, m.nextEvent .none = (.ok (some e), w) ∧ w.snapshot = m.snapshot := by
    have hfront : some e = m.front := by rw [Machine.front, hm]; rfl
    unfold Machine.nextEvent
    rw [flush_written hsize, hfront]
    split <;> exact ⟨_, rfl, rfl⟩
  have hrest : (w.setSnapshot { w.snapshot with events := es }).snapshot.jsonLen ≤ maxBytes := by
    rw [hw]
    exact (jsonLen_rest_le hm).trans hsize
  have hack : w.acknowledge e.id e.uuid e.status .none
      = (w.setSnapshot { w.snapshot with events := es }).flush .none := by
    unfold Machine.acknowledge
    rw [hw, hm]
    simp
  unfold Machine.exchange
  rw [hnext]
  refine ⟨_, rfl, ?_⟩
  rw [hack, flush_written hrest]
  exact ⟨congrArg (fun v : Snapshot => { v with events := es }) hw, rfl, rfl⟩

/-- **An outbox that is answered empties**, in order and with nothing left out or handed out twice,
and the file then holds the rest. -/
theorem exchanges_hand_out {rest : List Event} (hsize : m.snapshot.jsonLen ≤ maxBytes)
    (hm : m.snapshot.events = es ++ rest) :
    ∃ m', m.exchanges es.length = (es, m') ∧ m'.snapshot = { m.snapshot with events := rest } ∧
      (es ≠ [] → m'.disk.Holds m'.snapshot) := by
  induction es generalizing m with
  | nil => exact ⟨m, rfl, by rw [← show m.snapshot.events = rest from hm], fun h => (h rfl).elim⟩
  | cons e es ih =>
    obtain ⟨w, hw, hsnapshot, hdisk⟩ := exchange_front hsize hm
    have hsize' : w.snapshot.jsonLen ≤ maxBytes := by
      rw [hsnapshot]
      exact (jsonLen_rest_le hm).trans hsize
    obtain ⟨m', hm', hleft, hdisk'⟩ := ih hsize' (by rw [hsnapshot]; rfl)
    refine ⟨m', ?_, by rw [hleft, hsnapshot], fun _ => ?_⟩
    · simp [Machine.exchanges, hw, hm']
    · cases es with
      | nil =>
        cases hm'
        exact hdisk
      | cons => exact hdisk' (cons_ne_nil _ _)

/-- The first pair has ended, and the report of a second one is not on the disk. -/
def secondUnwritten : Machine :=
  (Op.report "pair-0002" "active" 9 .tempFile).perform .binary
    ((Op.report "pair-0001" "closed" 8 .none).perform .binary
      (System.firstPair.machine ⟨firstAdmitted.snapshot, true⟩))

theorem first_pair_handed_out : secondUnwritten.outbox.healthy = false ∧
    ∃ m', secondUnwritten.exchanges 2 = (secondUnwritten.snapshot.events.take 2, m') ∧
      m'.snapshot.events.map Event.uuid = ["pair-0002"] ∧ m'.disk.Holds m'.snapshot := by
  have hsize : secondUnwritten.snapshot.jsonLen ≤ maxBytes := by decide
  obtain ⟨m', h, hleft, hdisk⟩ := exchanges_hand_out hsize
    (take_append_drop 2 secondUnwritten.snapshot.events).symm
  exact ⟨rfl, m', h, by rw [hleft]; rfl, hdisk (by decide)⟩

end RemoteControl.Hbbr
