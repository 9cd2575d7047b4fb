import RemoteControl.Lib.Run
import RemoteControl.Hbbr.Outbox

/-!
# The outbox under crashes

The outbox process, its directory, and everything that can happen to the two: the
operations of the relay with any disk call failing, the process being killed,
the machine losing power, and the directory being opened again.

All the facts about contents below are facts about *views*: the snapshot in
memory and every snapshot that reading `outbox.json` may give, now or after a
power loss. The inversion lemma `step_views` says the one thing all of them rest
on:

> a step makes at most one new snapshot, by one of five changes of memory or by
> loading the file; every other view was already there.
-/

namespace RemoteControl.Hbbr

open Lib List

variable {fault : BackupFault} {d d' : Disk} {drained : List (String × Nat)} {closing : List Event}
  {m m' : Machine} {draws draws' : Nat} {page : QuarantinePage} {f v : Snapshot} {src : UuidSource}
  {e : Event}

/-- The relay's outbox as a whole. `proc` is the running process' memory. -/
structure System where
  proc : Option Outbox
  disk : Disk
  draws : Nat
  recorded : List Event

variable {s s' t : System}

def Machine.toSystem (m : Machine) : System := ⟨some m.outbox, m.disk, m.draws, m.recorded⟩

def System.machine (s : System) (o : Outbox) : Machine := ⟨o, s.disk, s.draws, s.recorded⟩

/-- One call of the running process. -/
inductive Op
  | report (uuid status : String) (now : Nat) (fault : WriteFault)
  | acknowledge (id uuid status : String) (fault : WriteFault)
  | quarantine (id uuid status reason : String) (fault : WriteFault)
  | archive (revision : String) (backup : BackupFault) (fault : WriteFault)
  | listPage (revision : String) (offset : Nat)
  | nextEvent (fault : WriteFault)

variable {B : Snapshot → Op → Prop} {op : Op}

def Op.perform (src : UuidSource) (m : Machine) : Op → Machine
  | .report uuid status now fault => (m.report src uuid status now fault).2
  | .acknowledge id uuid status fault => (m.acknowledge id uuid status fault).2
  | .quarantine id uuid status reason fault => (m.quarantine src id uuid status reason fault).2
  | .archive revision backup fault => (m.archiveQuarantine src revision backup fault).2
  | .listPage _ _ => m
  | .nextEvent fault => (m.nextEvent fault).2

inductive Action
  | op (o : Op)
  | openDir (drained : List (String × Nat)) (fault : WriteFault)
  | kill
  | powerLoss

variable {a : Action}

/-- What a power loss may leave of a directory: one of the snapshots that were
possible, and every backup that was durable. A backup that was not may be gone,
torn or whole. -/
structure Disk.PowerLoss (d d' : Disk) : Prop where
  json : d'.json ∈ d.json :: d.unsynced
  unsynced : d'.unsynced = []
  durable : ∀ r b, d.backups r = some b → b.durable = true → d'.backups r = some b
  volatile : ∀ r b', d'.backups r = some b' →
    ∃ b, d.backups r = some b ∧ (b'.page = b.page ∨ b'.page = none)

/-- What opening the directory finds: a missing file reads as the empty snapshot. -/
def Disk.file (d : Disk) : Snapshot := d.json.getD .empty

/-- The active pairs of the file, drained in any order. -/
def Drains (file : Snapshot) (drained : List (String × Nat)) : Prop :=
  (drained.map Prod.fst).Nodup ∧ (drained.map Prod.fst).toFinset = file.active

/-- The opened outbox before its first write. -/
def System.loaded (s : System) (snapshot : Snapshot) (draws : Nat) (closing : List Event) :
    Machine :=
  ⟨⟨snapshot, false⟩, s.disk, draws, s.recorded ++ closing⟩

inductive Step (src : UuidSource) : System → Action → System → Prop
  | op {s : System} {o : Outbox} (op : Op) (hp : s.proc = some o) :
      Step src s (.op op) (op.perform src (s.machine o)).toSystem
  | openRefused {s : System} {drained : List (String × Nat)} {fault : WriteFault} {e : OutboxError}
      (hp : s.proc = none) (hd : Drains s.disk.file drained)
      (hl : load src drained s.draws s.disk.json = .error e) :
      Step src s (.openDir drained fault) s
  | openFailed {s : System} {drained : List (String × Nat)} {fault : WriteFault}
      {snapshot : Snapshot} {draws : Nat} {closing : List Event} {e : OutboxError} {m : Machine}
      (hp : s.proc = none) (hd : Drains s.disk.file drained)
      (hl : load src drained s.draws s.disk.json = .ok (snapshot, draws, closing))
      (hf : (s.loaded snapshot draws closing).flush fault = (.error e, m)) :
      Step src s (.openDir drained fault) { m.toSystem with proc := none }
  | opened {s : System} {drained : List (String × Nat)} {fault : WriteFault}
      {snapshot : Snapshot} {draws : Nat} {closing : List Event} {m : Machine}
      (hp : s.proc = none) (hd : Drains s.disk.file drained)
      (hl : load src drained s.draws s.disk.json = .ok (snapshot, draws, closing))
      (hf : (s.loaded snapshot draws closing).flush fault = (.ok (), m)) :
      Step src s (.openDir drained fault) m.toSystem
  | kill {s : System} : Step src s .kill { s with proc := none }
  | powerLoss {s : System} {d : Disk} (hd : s.disk.PowerLoss d) :
      Step src s .powerLoss { s with proc := none, disk := d }

/-- Start on a directory with no file, or with one that a relay of this or the
earlier version left there; no UUID still to be drawn occurs in it. -/
structure Init (src : UuidSource) (s : System) : Prop where
  proc : s.proc = none
  unsynced : s.disk.unsynced = []
  recorded : s.recorded = s.disk.file.events
  total : s.disk.file.total ≤ capacity
  active : ∀ uuid ∈ s.disk.file.active, validUuid uuid = true
  nodup : ((s.disk.file.events ++ s.disk.file.quarantine).map Event.id).Nodup
  fresh : ∀ n, s.draws ≤ n →
    src.newV4 n ∉ (s.disk.file.events ++ s.disk.file.quarantine).map Event.id ∧
      src.newV4 n ≠ s.disk.file.quarantineRevision

/-- A relay that was never started. -/
def System.start : System := ⟨none, ⟨none, [], fun _ => none⟩, 0, []⟩

theorem init_start (src : UuidSource) : Init src .start where
  proc := rfl
  unsynced := rfl
  recorded := rfl
  total := by decide
  active _ h := by cases h
  nodup := nodup_nil
  fresh n _ := ⟨not_mem_nil, src.newV4_ne_empty n⟩

def System.Reached (src : UuidSource) (s : System) : Prop := Reachable (Init src) (Step src) s

/-! ## The changes of memory -/

/-- The changes an operation makes to memory before it writes the snapshot. -/
inductive Change (src : UuidSource) (m : Machine) : Op → Machine → Prop
  | admitPair {uuid : String} {now : Nat} {fault : WriteFault}
      (hv : validUuid uuid = true) (hh : m.outbox.healthy = true) (ha : uuid ∉ m.snapshot.active)
      (hc : m.snapshot.total + 2 ≤ capacity) :
      Change src m (.report uuid "active" now fault)
        ((m.setSnapshot { m.snapshot with active := insert uuid m.snapshot.active }).pushEvent
          src uuid "active" now)
  | close {uuid : String} {now : Nat} {fault : WriteFault} (ha : uuid ∈ m.snapshot.active) :
      Change src m (.report uuid "closed" now fault)
        ((m.setSnapshot { m.snapshot with active := m.snapshot.active.erase uuid }).pushEvent
          src uuid "closed" now)
  | acknowledge {front : Event} {rest : List Event} {fault : WriteFault}
      (he : m.snapshot.events = front :: rest) :
      Change src m (.acknowledge front.id front.uuid front.status fault)
        (m.setSnapshot { m.snapshot with events := rest })
  | quarantine {front : Event} {rest : List Event} {fault : WriteFault}
      (he : m.snapshot.events = front :: rest) :
      Change src m (.quarantine front.id front.uuid front.status "credential_rotated" fault)
        { m.setSnapshot { m.snapshot with
            events := rest
            quarantine := m.snapshot.quarantine ++ [{ front with reason := "credential_rotated" }]
            quarantineRevision := src.newV4 m.draws } with draws := m.draws + 1 }
  | archive {revision : String} {backup : BackupFault} {fault : WriteFault}
      (hr : m.snapshot.quarantineRevision = revision)
      (hb : ∀ b, m.disk.backups revision = some b → b.page = some (m.snapshot.backupPage revision)) :
      Change src m (.archive revision backup fault)
        { m.setSnapshot { m.snapshot with
            quarantine := []
            lastArchive := revision
            quarantineRevision := src.newV4 m.draws } with
          disk := (m.disk.putBackup revision ⟨some (m.snapshot.backupPage revision), true⟩).syncDir
          draws := m.draws + 1 }

/-- A directory in which at most backups that were not durable have changed. -/
structure Disk.SameButVolatile (d d' : Disk) : Prop where
  json : d'.json = d.json
  unsynced : d'.unsynced = d.unsynced
  durable : ∀ r b, d.backups r = some b → b.durable = true → d'.backups r = some b

theorem Disk.SameButVolatile.refl (d : Disk) : d.SameButVolatile d := ⟨rfl, rfl, fun _ _ h _ => h⟩

/-- All an operation can do: leave everything alone, fail while writing a backup,
write memory as it is, or change memory and then write it. -/
inductive Outcome (src : UuidSource) (m : Machine) (op : Op) : Machine → Prop
  | unwritten {d : Disk} (hd : m.disk.SameButVolatile d) : Outcome src m op { m with disk := d }
  | rewritten (fault : WriteFault) : Outcome src m op (m.flush fault).2
  | changed {m' : Machine} (fault : WriteFault) (hc : Change src m op m') :
      Outcome src m op (m'.flush fault).2

theorem Outcome.same : Outcome src m op m := Outcome.unwritten (.refl m.disk)

theorem putBackup_sameButVolatile {revision : String} {b : Backup} (h : d.backups revision = none) :
    d.SameButVolatile (d.putBackup revision b) := by
  refine ⟨rfl, rfl, fun r b' hb _ => ?_⟩
  have hne : r ≠ revision := by
    rintro rfl
    rw [h] at hb
    cases hb
  simpa [Disk.putBackup, Function.update_of_ne hne] using hb

theorem writeBackup_error {e : OutboxError} (h : d.writeBackup fault page = (.error e, d')) :
    d.SameButVolatile d' := by
  revert h
  fun_cases Disk.writeBackup fault page d with
  | case1 | case2 | case3 | case5 =>
    -- nothing is written, least of all to an existing file
    rintro ⟨⟩
    exact .refl d
  | case4 | case9 => exact nofun
  | case6 hnone | case7 hnone | case8 hnone =>
    rintro ⟨⟩
    exact putBackup_sameButVolatile hnone

theorem writeBackup_ok (h : d.writeBackup fault page = (.ok (), d')) :
    d' = (d.putBackup page.revision ⟨some page, true⟩).syncDir
      ∧ ∀ b, d.backups page.revision = some b → b.page = some page := by
  revert h
  fun_cases Disk.writeBackup fault page d with
  | case4 fault b hb _ hp =>
    rintro ⟨⟩
    exact ⟨rfl, fun b' hb' => by rw [hb] at hb'; cases hb'; exact not_not.mp hp⟩
  | case9 hnone =>
    rintro ⟨⟩
    exact ⟨rfl, fun b hb => by rw [hnone] at hb; cases hb⟩
  | _ => exact nofun

theorem report_outcome (src : UuidSource) (m : Machine) (uuid status : String) (now : Nat)
    (fault : WriteFault) :
    Outcome src m (.report uuid status now fault) (m.report src uuid status now fault).2 := by
  fun_cases Machine.report src uuid status now fault m with
  | case5 hv hs hh ha hc =>
    subst hs
    exact .changed fault (.admitPair (by simpa using hv) (by simpa using hh) ha (by omega))
  | case7 hv _ hs ha =>
    subst hs
    exact .changed fault (.close (not_not.mp ha))
  | _ => exact .same

theorem acknowledge_outcome (src : UuidSource) (m : Machine) (id uuid status : String)
    (fault : WriteFault) :
    Outcome src m (.acknowledge id uuid status fault) (m.acknowledge id uuid status fault).2 := by
  fun_cases Machine.acknowledge id uuid status fault m with
  | case4 front rest he hid hne =>
    simp only [ne_eq, not_or, not_not] at hid hne
    obtain ⟨rfl, rfl⟩ := hne
    subst hid
    exact .changed fault (.acknowledge he)
  | _ => exact .same

theorem quarantine_outcome (src : UuidSource) (m : Machine) (id uuid status reason : String)
    (fault : WriteFault) :
    Outcome src m (.quarantine id uuid status reason fault)
      (m.quarantine src id uuid status reason fault).2 := by
  fun_cases Machine.quarantine src id uuid status reason fault m with
  | case5 hr front rest he hid hne =>
    simp only [ne_eq, not_or, not_not] at hr hid hne
    obtain ⟨rfl, rfl⟩ := hne
    subst hr hid
    exact .changed fault (.quarantine he)
  | _ => exact .same

theorem archive_outcome (src : UuidSource) (m : Machine) (revision : String)
    (backup : BackupFault) (fault : WriteFault) :
    Outcome src m (.archive revision backup fault)
      (m.archiveQuarantine src revision backup fault).2 := by
  fun_cases Machine.archiveQuarantine src revision backup fault m with
  | case2 => exact .rewritten fault
  | case5 _ _ _ _ e disk hw => exact .unwritten (writeBackup_error hw)
  | case6 _ _ hh _ disk hw =>
    simp only [ne_eq, not_or, not_not] at hh
    obtain ⟨rfl, hb⟩ := writeBackup_ok hw
    exact .changed fault (.archive hh.2.symm hb)
  | _ => exact .same

theorem nextEvent_outcome (src : UuidSource) (m : Machine) (fault : WriteFault) :
    Outcome src m (.nextEvent fault) (m.nextEvent fault).2 := by
  have h : Outcome src m (.nextEvent fault) (m.flush fault).2 := .rewritten fault
  fun_cases Machine.nextEvent fault m with
  | case1 => exact .same
  | case2 _ e m' hf | case3 _ m' hf =>
    rw [hf] at h
    exact h

/-- **What an operation of the outbox can do**, for every operation at once. -/
theorem perform_outcome (src : UuidSource) (m : Machine) (op : Op) :
    Outcome src m op (op.perform src m) := by
  cases op with
  | report uuid status now fault => exact report_outcome src m uuid status now fault
  | acknowledge id uuid status fault => exact acknowledge_outcome src m id uuid status fault
  | quarantine id uuid status reason fault =>
    exact quarantine_outcome src m id uuid status reason fault
  | archive revision backup fault => exact archive_outcome src m revision backup fault
  | listPage revision offset => exact .same
  | nextEvent fault => exact nextEvent_outcome src m fault

/-! ## What is past

The parts of the state that only grow: the UUIDs drawn, the events recorded, the
backups that are durable. -/

structure Past where
  draws : Nat
  recorded : List Event
  backups : String → Option Backup

variable {I : Past → Snapshot → Prop} {p q : Past}

structure Past.le (p q : Past) : Prop where
  draws : p.draws ≤ q.draws
  recorded : p.recorded <+: q.recorded
  durable : ∀ r b, p.backups r = some b → b.durable = true →
    ∃ b', q.backups r = some b' ∧ b'.durable = true ∧ b'.page = b.page

theorem Past.le_refl (p : Past) : p.le p :=
  ⟨Nat.le_refl _, prefix_rfl, fun _ b h hd => ⟨b, h, hd, rfl⟩⟩

def Machine.past (m : Machine) : Past := ⟨m.draws, m.recorded, m.disk.backups⟩
def System.past (s : System) : Past := ⟨s.draws, s.recorded, s.disk.backups⟩

theorem sameButVolatile_past (hd : m.disk.SameButVolatile d) :
    m.past.le ({ m with disk := d } : Machine).past :=
  ⟨Nat.le_refl _, prefix_rfl, fun r b h hb => ⟨b, hd.durable r b h hb, hb, rfl⟩⟩

theorem flush_past (fault : WriteFault) (m : Machine) : (m.flush fault).2.past = m.past := by
  fun_cases Machine.flush fault m <;> rfl

theorem change_past (h : Change src m op m') : m.past.le m'.past := by
  cases h with
  | admitPair | close =>
    exact ⟨Nat.le_succ _, prefix_append _ _, (Past.le_refl m.past).durable⟩
  | acknowledge => exact m.past.le_refl
  | quarantine => exact ⟨Nat.le_succ _, prefix_rfl, (Past.le_refl m.past).durable⟩
  | @archive revision _ _ hr hb =>
    refine ⟨Nat.le_succ _, prefix_rfl, fun r b h hd => ?_⟩
    -- an existing backup of this revision already held the page that is put there
    by_cases hrr : r = revision
    · subst hrr
      exact ⟨⟨some (m.snapshot.backupPage r), true⟩, Function.update_self .., rfl, (hb b h).symm⟩
    · exact ⟨b, (Function.update_of_ne hrr ..).trans h, hd, rfl⟩

/-- What a successful `load` of the file `f` gives. `first` is the first UUID drawn
for a closing event: the one before it, if any, is the new revision. -/
structure Loads (src : UuidSource) (drained : List (String × Nat)) (draws : Nat) (f v : Snapshot)
    (draws' : Nat) (closing : List Event) : Prop where
  total : f.total ≤ capacity
  identities : checkEvents src [] (f.events ++ f.quarantine) = .ok ()
  events : v.events = f.events ++ closing
  active : v.active = ∅
  quarantine : v.quarantine = f.quarantine
  version : v.version = 2
  lastArchive : v.lastArchive = f.lastArchive
  draw : ∃ first, draws' = first + drained.length ∧ closing = drainActive src first drained ∧
    (f.quarantineRevision = "" ∧ v.quarantineRevision = src.newV4 draws ∧ first = draws + 1 ∨
      f.quarantineRevision ≠ "" ∧ v.quarantineRevision = f.quarantineRevision ∧ first = draws)

theorem readFile_ok {file : Option Snapshot} (h : readFile file = .ok f) :
    f = file.getD .empty := by
  cases file with
  | none => cases h; rfl
  | some g =>
    simp only [readFile] at h
    split at h
    · cases h
    cases h; rfl

theorem load_ok {file : Option Snapshot}
    (h : load src drained draws file = .ok (v, draws', closing)) :
    Loads src drained draws (file.getD .empty) v draws' closing := by
  unfold load at h
  split at h
  · cases h
  next f hf =>
  rw [← readFile_ok hf]
  split at h
  · cases h
  dsimp only at h
  split at h
  · cases h
  next hc =>
  split at h
  · cases h
  next hids =>
  split at h
  · cases h
  split at h
  · cases h
  cases h
  refine ⟨by omega, hids, rfl, rfl, rfl, rfl, rfl, _, rfl, rfl, ?_⟩
  by_cases hr : f.quarantineRevision = ""
  · exact .inl ⟨hr, if_pos hr, if_pos hr⟩
  · exact .inr ⟨hr, if_neg hr, if_neg hr⟩

theorem Loads.le_draws (h : Loads src drained draws f v draws' closing) : draws ≤ draws' := by
  obtain ⟨first, hd, -, ⟨-, -, hf⟩ | ⟨-, -, hf⟩⟩ := h.draw <;> omega

/-! ## Views -/

/-- The snapshots that reading `outbox.json` gives now, or may give after a power
loss. -/
def Disk.views (d : Disk) : List Snapshot := (d.json :: d.unsynced).map fun c => c.getD .empty

/-- Every snapshot a reader may still meet: memory, and those of the disk. -/
def System.views (s : System) : List Snapshot := (s.proc.map Outbox.snapshot).toList ++ s.disk.views

theorem mem_diskViews : v ∈ d.views ↔ v = d.file ∨ ∃ c ∈ d.unsynced, c.getD .empty = v := by
  simp [Disk.views, Disk.file]

theorem mem_views : v ∈ s.views ↔ (∃ o, s.proc = some o ∧ o.snapshot = v) ∨ v ∈ s.disk.views := by
  simp [System.views]

theorem file_mem_views (s : System) : s.disk.file ∈ s.views :=
  mem_views.mpr (.inr (mem_diskViews.mpr (.inl rfl)))

theorem memory_mem_views {o : Outbox} (h : s.proc = some o) : o.snapshot ∈ s.views :=
  mem_views.mpr (.inl ⟨o, h, rfl⟩)

theorem Machine.mem_views : v ∈ m.toSystem.views ↔ v = m.snapshot ∨ v ∈ m.disk.views := by
  rw [Hbbr.mem_views]
  constructor
  · rintro (⟨o, ho, rfl⟩ | h)
    · cases ho; exact .inl rfl
    · exact .inr h
  · rintro (rfl | h)
    · exact .inl ⟨_, rfl, rfl⟩
    · exact .inr h

theorem mem_views_rename {s : Snapshot} (h : v ∈ (d.rename s).views) : v = s ∨ v ∈ d.views := by
  rcases mem_diskViews.mp h with h | ⟨c, hc, rfl⟩
  · exact .inl h
  · rcases mem_cons.mp hc with rfl | hc
    · exact .inr (mem_diskViews.mpr (.inl rfl))
    · exact .inr (mem_diskViews.mpr (.inr ⟨c, hc, rfl⟩))

theorem flush_snapshot (fault : WriteFault) (m : Machine) :
    (m.flush fault).2.snapshot = m.snapshot := by
  fun_cases Machine.flush fault m <;> rfl

/-- A write only copies memory to the disk. -/
theorem flush_views {fault : WriteFault} (h : v ∈ (m.flush fault).2.disk.views) :
    v = m.snapshot ∨ v ∈ m.disk.views := by
  revert h
  fun_cases Machine.flush fault m with
  | case1 | case2 => exact .inr
  | case3 => exact mem_views_rename
  | case4 =>
    intro h
    rcases mem_diskViews.mp h with h | ⟨c, hc, -⟩
    · exact .inl h
    · cases hc

theorem change_diskViews (h : Change src m op m') (hv : v ∈ m'.disk.views) : v ∈ m.disk.views := by
  cases h with
  | archive =>
    rcases mem_diskViews.mp hv with h | ⟨c, hc, -⟩
    · exact mem_diskViews.mpr (.inl h)
    · cases hc
  | _ => exact hv

/-- How a step made the snapshot `v`, and what is past when it has. -/
inductive Made (src : UuidSource) (s : System) (a : Action) (s' : System) : Snapshot → Prop
  | change {o : Outbox} {op : Op} {m' : Machine} (hp : s.proc = some o) (ha : a = .op op)
      (hc : Change src (s.machine o) op m') (hpast : s'.past = m'.past) :
      Made src s a s' m'.snapshot
  | load {drained : List (String × Nat)} {v : Snapshot} {draws : Nat} {closing : List Event}
      (hd : Drains s.disk.file drained)
      (hl : Loads src drained s.draws s.disk.file v draws closing)
      (hpast : s'.past = ⟨draws, s.recorded ++ closing, s.disk.backups⟩) : Made src s a s' v

theorem opened_views {snapshot : Snapshot} {fault : WriteFault}
    (h : v ∈ ((s.loaded snapshot draws closing).flush fault).2.toSystem.views) :
    v = snapshot ∨ v ∈ s.views := by
  rcases Machine.mem_views.mp h with h | h
  · exact .inl (h.trans (flush_snapshot _ _))
  · exact (flush_views h).imp id fun h => mem_views.mpr (.inr h)

/-- **The inversion lemma**: a step makes at most one new snapshot, and one that makes
none draws no UUID and records no event. -/
theorem step_views (h : Step src s a s') :
    ((s.past.le s'.past ∧ s'.draws = s.draws ∧ s'.recorded = s.recorded) ∧
        ∀ v ∈ s'.views, v ∈ s.views) ∨
      ∃ v₀, Made src s a s' v₀ ∧ ∀ v ∈ s'.views, v = v₀ ∨ v ∈ s.views := by
  have hpast' : ∀ {fault : WriteFault} {m : Machine}, (m.flush fault).2.toSystem.past = m.past :=
    flush_past _ _
  have hdisk : ∀ v ∈ s.disk.views, v ∈ s.views := fun v h => mem_views.mpr (.inr h)
  cases h with
  | @op o op hp =>
    have hmem : o.snapshot ∈ s.views := memory_mem_views hp
    generalize hm : op.perform src (s.machine o) = m'
    have hout := perform_outcome src (s.machine o) op
    rw [hm] at hout
    cases hout with
    | @unwritten d hd =>
      refine .inl ⟨⟨sameButVolatile_past hd, rfl, rfl⟩, fun v hv => ?_⟩
      rcases Machine.mem_views.mp hv with rfl | hv
      · exact hmem
      · refine hdisk v ?_
        have heq : d.views = s.disk.views := by
          unfold Disk.views
          rw [hd.json, hd.unsynced]
          rfl
        rwa [heq] at hv
    | rewritten fault =>
      have hsame : (Machine.flush fault (s.machine o)).2.past = s.past := hpast'
      refine .inl ⟨⟨?_, congrArg Past.draws hsame, congrArg Past.recorded hsame⟩, fun v hv => ?_⟩
      · show s.past.le (Machine.flush fault (s.machine o)).2.past
        rw [hsame]
        exact s.past.le_refl
      · rcases Machine.mem_views.mp hv with h | h
        · rw [h, flush_snapshot]; exact hmem
        · rcases flush_views h with rfl | h
          · exact hmem
          · exact hdisk v h
    | @changed m₁ fault hc =>
      right
      refine ⟨m₁.snapshot, .change hp rfl hc hpast', fun v hv => ?_⟩
      rcases Machine.mem_views.mp hv with h | h
      · exact .inl (h.trans (flush_snapshot _ _))
      · exact (flush_views h).imp id fun h => hdisk v (change_diskViews hc h)
  | openRefused => exact .inl ⟨⟨s.past.le_refl, rfl, rfl⟩, fun v hv => hv⟩
  | @openFailed drained fault snapshot draws closing e m hp hd hl hf =>
    obtain rfl : ((s.loaded snapshot draws closing).flush fault).2 = m := by rw [hf]
    refine .inr ⟨snapshot, .load hd (load_ok hl) hpast', fun v hv => ?_⟩
    exact opened_views (Machine.mem_views.mpr (.inr hv))
  | @opened drained fault snapshot draws closing m hp hd hl hf =>
    obtain rfl : ((s.loaded snapshot draws closing).flush fault).2 = m := by rw [hf]
    exact .inr ⟨snapshot, .load hd (load_ok hl) hpast', fun v hv => opened_views hv⟩
  | kill => exact .inl ⟨⟨s.past.le_refl, rfl, rfl⟩, hdisk⟩
  | powerLoss hd =>
    refine .inl ⟨⟨⟨Nat.le_refl _, prefix_rfl,
      fun r b h hb => ⟨b, hd.durable r b h hb, hb, rfl⟩⟩, rfl, rfl⟩, fun v hv => hdisk v ?_⟩
    rcases mem_diskViews.mp hv with rfl | ⟨c, hc, -⟩
    · exact mem_map_of_mem hd.json
    · rw [hd.unsynced] at hc; cases hc

/-! ## Where a snapshot comes from -/

theorem mem_drainActive {first : Nat} (h : e ∈ drainActive src first drained) :
    ∃ k p, first ≤ k ∧ k < first + drained.length ∧ p ∈ drained ∧
      e = ⟨src.newV4 k, p.1, "closed", p.2, ""⟩ := by
  induction drained generalizing first with
  | nil => cases h
  | cons p drained ih =>
    rw [length_cons]
    rcases mem_cons.mp h with rfl | h
    · exact ⟨first, p, Nat.le_refl _, by omega, mem_cons_self, rfl⟩
    · obtain ⟨k, q, hk, hlt, hq, rfl⟩ := ih h
      exact ⟨k, q, by omega, by omega, mem_cons_of_mem _ hq, rfl⟩

theorem Drains.mem_active (h : Drains f drained) {p : String × Nat} (hp : p ∈ drained) :
    p.1 ∈ f.active := by
  rw [← h.2]
  exact mem_toFinset.mpr (mem_map_of_mem hp)

/-- An event recorded between `p` and `q`: it begins a pair, or ends one active in `w`. -/
structure NewEvent (src : UuidSource) (p : Past) (w : Snapshot) (q : Past) (e : Event) : Prop where
  recorded : e ∈ q.recorded
  reason : e.reason = ""
  drawn : ∃ k, p.draws ≤ k ∧ k < q.draws ∧ e.id = src.newV4 k
  pair : validUuid e.uuid = true ∧ e.status = "active" ∨ e.uuid ∈ w.active ∧ e.status = "closed"

/-- `v` is made of the earlier snapshot `w`. -/
structure Stems (src : UuidSource) (p : Past) (w : Snapshot) (q : Past) (v : Snapshot) : Prop where
  past : p.le q
  version : v.version = w.version ∨ v.version = 2
  events : ∀ e ∈ v.events, e ∈ w.events ∨ NewEvent src p w q e
  quarantine : ∀ e ∈ v.quarantine, e ∈ w.quarantine ∨
    ∃ d ∈ w.events, e = { d with reason := "credential_rotated" }
  active : ∀ u ∈ v.active, u ∈ w.active ∨ ∃ e, NewEvent src p w q e ∧ e.uuid = u
  revision : v.quarantineRevision = w.quarantineRevision ∨
    ∃ k, p.draws ≤ k ∧ k < q.draws ∧ v.quarantineRevision = src.newV4 k
  lastArchive : v.lastArchive = w.lastArchive ∨ v.lastArchive = w.quarantineRevision

theorem Stems.refl (h : p.le q) : Stems src p v q v :=
  ⟨h, .inl rfl, fun _ => .inl, fun _ => .inl, fun _ => .inl, .inl rfl, .inl rfl⟩

theorem Stems.push {active : Finset String} (h : p.le q) (he : NewEvent src p v q e)
    (ha : ∀ u ∈ active, u ∈ v.active ∨ u = e.uuid) :
    Stems src p v q { v with active := active, events := v.events ++ [e] } := by
  refine { Stems.refl (v := v) h with events := fun d hd => ?_, active := fun u hu => ?_ }
  · refine (mem_append.mp hd).imp id fun hd => ?_
    rw [mem_singleton.mp hd]
    exact he
  · exact (ha u hu).imp id fun hu => ⟨e, he, hu.symm⟩

theorem change_stems (h : Change src m op m') :
    Stems src m.past m.snapshot m'.past m'.snapshot := by
  have hpast := change_past h
  have hdraw : ∃ k, m.draws ≤ k ∧ k < m.draws + 1 ∧ src.newV4 m.draws = src.newV4 k :=
    ⟨m.draws, Nat.le_refl _, Nat.lt_succ_self _, rfl⟩
  have hlast : ∀ {e : Event}, e ∈ m.recorded ++ [e] := mem_append_right _ (mem_singleton_self _)
  cases h with
  | admitPair hv =>
    exact .push hpast ⟨hlast, rfl, hdraw, .inl ⟨hv, rfl⟩⟩ fun u hu => (Finset.mem_insert.mp hu).symm
  | close ha =>
    exact .push hpast ⟨hlast, rfl, hdraw, .inr ⟨ha, rfl⟩⟩ fun u hu =>
      .inl (Finset.mem_of_mem_erase hu)
  | acknowledge he =>
    exact { Stems.refl (v := m.snapshot) hpast with events := fun e hmem => .inl (by rw [he]; exact .tail _ hmem) }
  | @quarantine front rest fault he =>
    refine { Stems.refl (v := m.snapshot) hpast with
      events := fun e hmem => .inl (by rw [he]; exact .tail _ hmem)
      quarantine := fun e hmem => ?_
      revision := .inr hdraw }
    refine (mem_append.mp hmem).imp id fun hmem => ⟨front, by rw [he]; exact .head _, ?_⟩
    exact mem_singleton.mp hmem
  | archive hr hb =>
    exact { Stems.refl (v := m.snapshot) hpast with
      quarantine := nofun
      revision := .inr hdraw
      lastArchive := .inr hr.symm }

theorem Loads.stems (hd : Drains f drained) (hl : Loads src drained p.draws f v draws closing) :
    Stems src p f ⟨draws, p.recorded ++ closing, p.backups⟩ v := by
  obtain ⟨first, hdraws, hclosing, hrev⟩ := hl.draw
  have hfirst : p.draws ≤ first := by rcases hrev with ⟨-, -, h⟩ | ⟨-, -, h⟩ <;> omega
  refine ⟨⟨hl.le_draws, prefix_append _ _, p.le_refl.durable⟩, .inr hl.version, fun e he => ?_,
    by rw [hl.quarantine]; exact fun _ => .inl, by rw [hl.active]; exact nofun, ?_,
    .inl hl.lastArchive⟩
  · rw [hl.events] at he
    refine (mem_append.mp he).imp id fun he => ?_
    have hrec : e ∈ p.recorded ++ closing := mem_append_right _ he
    rw [hclosing] at he
    obtain ⟨k, q, hk, hlt, hq, rfl⟩ := mem_drainActive he
    have hdrawn : k < draws := by omega
    exact ⟨hrec, rfl, ⟨k, by omega, hdrawn, rfl⟩, .inr ⟨hd.mem_active hq, rfl⟩⟩
  · rcases hrev with ⟨-, hr, hf⟩ | ⟨-, hr, -⟩
    · have hdrawn : p.draws < draws := by omega
      exact .inr ⟨p.draws, Nat.le_refl _, hdrawn, hr⟩
    · exact .inl hr

theorem Made.stems (h : Made src s a s' v) : ∃ w ∈ s.views, Stems src s.past w s'.past v := by
  cases h with
  | change hp ha hc hpast => exact ⟨_, memory_mem_views hp, hpast ▸ change_stems hc⟩
  | load hd hl hpast => exact ⟨_, file_mem_views s, hpast ▸ hl.stems (p := s.past) hd⟩

theorem step_past (h : Step src s a s') : s.past.le s'.past := by
  rcases step_views h with ⟨⟨hle, -⟩, -⟩ | ⟨v, hmade, -⟩
  · exact hle
  · obtain ⟨w, -, hstems⟩ := hmade.stems
    exact hstems.past

/-! ## Invariants of views -/

/-- A property of snapshots, relative to what is past, that the outbox keeps in every
view. `B` names the operations that may break it, given what is in memory. -/
structure ViewInvariant (src : UuidSource) (B : Snapshot → Op → Prop)
    (I : Past → Snapshot → Prop) : Prop where
  mono : ∀ {p q : Past} {v : Snapshot}, p.le q → I p v → I q v
  change : ∀ {m m' : Machine} {op : Op}, I m.past m.snapshot → ¬ B m.snapshot op →
    Change src m op m' → I m'.past m'.snapshot
  load : ∀ {p : Past} {f : Snapshot} {drained : List (String × Nat)} {v : Snapshot} {draws : Nat}
    {closing : List Event}, I p f → Drains f drained →
    Loads src drained p.draws f v draws closing → I ⟨draws, p.recorded ++ closing, p.backups⟩ v

/-- The rule for a property that every snapshot has from the one it is made of. -/
theorem ViewInvariant.of_stems
    (h : ∀ {p q : Past} {w v : Snapshot}, I p w → Stems src p w q v → I q v) :
    ViewInvariant src (fun _ _ => False) I where
  mono hle hi := h hi (.refl hle)
  change hi _ hc := h hi (change_stems hc)
  load hi hd hl := h hi (hl.stems hd)

/-- The running process is asked for an operation that `B` allows. -/
def System.Asks (B : Snapshot → Op → Prop) (s : System) (a : Action) : Prop :=
  ∃ o op, s.proc = some o ∧ a = .op op ∧ B o.snapshot op

def System.All (s : System) (I : Past → Snapshot → Prop) : Prop := ∀ v ∈ s.views, I s.past v

theorem ViewInvariant.made (hI : ViewInvariant src B I) (hs : s.All I) (h : Made src s a s' v) :
    s.Asks B a ∨ I s'.past v := by
  cases h with
  | @change o op m' hp ha hc hpast =>
    by_cases hB : B o.snapshot op
    · exact .inl ⟨o, op, hp, ha, hB⟩
    · right
      rw [hpast]
      exact hI.change (m := s.machine o) (hs _ (memory_mem_views hp)) hB hc
  | load hd hl hpast =>
    right
    rw [hpast]
    exact hI.load (p := s.past) (hs _ (file_mem_views s)) hd hl

/-- The step rule: a step keeps a view invariant, unless it is one that may break it. -/
theorem ViewInvariant.step (hI : ViewInvariant src B I) (hs : s.All I) (h : Step src s a s') :
    s.Asks B a ∨ s'.All I := by
  have hold : ∀ v ∈ s.views, I s'.past v := fun v hv => hI.mono (step_past h) (hs v hv)
  rcases step_views h with ⟨-, hsub⟩ | ⟨v₀, hmade, hsub⟩
  · exact .inr fun v hv => hold v (hsub v hv)
  · refine (hI.made hs hmade).imp id fun h₀ v hv => ?_
    rcases hsub v hv with rfl | hv
    · exact h₀
    · exact hold v hv

/-- The run rule for a property that nothing breaks. -/
theorem ViewInvariant.run (hI : ViewInvariant src (fun _ _ => False) I) {as : List Action}
    (h : Run (Step src) s as t) (hs : s.All I) : t.All I := by
  refine h.invariant (I := fun s => s.All I) (fun s a t hs hst => ?_) hs
  rcases hI.step hs hst with ⟨_, _, _, _, hf⟩ | h
  · exact hf.elim
  · exact h

/-- The only view of a start state is the file found there. -/
theorem Init.all (h : Init src s) (hf : I s.past s.disk.file) : s.All I := by
  intro v hv
  rcases mem_views.mp hv with ⟨o, ho, -⟩ | hv
  · rw [h.proc] at ho; cases ho
  · rcases mem_diskViews.mp hv with rfl | ⟨c, hc, -⟩
    · exact hf
    · rw [h.unsynced] at hc; cases hc

theorem ViewInvariant.reached (hI : ViewInvariant src (fun _ _ => False) I)
    (h₀ : ∀ s, Init src s → I s.past s.disk.file) (h : t.Reached src) : t.All I := by
  obtain ⟨s, as, hs, hrun⟩ := h
  exact hI.run hrun (hs.all (h₀ s hs))

/-- The rule for the running process: `Q` holds of what is loaded, a change keeps it, and a
write makes `P` of it. -/
theorem process_invariant {Q : Snapshot → Prop} {P : Outbox → Disk → Prop}
    (hload : ∀ {drained draws file v draws' closing},
      load src drained draws file = .ok (v, draws', closing) → Q v)
    (hchange : ∀ {m m' : Machine} {op}, Q m.snapshot → Change src m op m' → Q m'.snapshot)
    (hflush : ∀ fault (m : Machine), Q m.snapshot →
      P (m.flush fault).2.outbox (m.flush fault).2.disk) (hmemory : ∀ {o d}, P o d → Q o.snapshot)
    (hdisk : ∀ {o d d'}, d.SameButVolatile d' → P o d → P o d') (h : s.Reached src) :
    ∀ o, s.proc = some o → P o s.disk := by
  refine h.invariant (I := fun s => ∀ o, s.proc = some o → P o s.disk)
    (fun s hi o ho => by rw [hi.proc] at ho; cases ho) fun s a t hs hst => ?_
  cases hst with
  | @op o op hp =>
    generalize hm : op.perform src (s.machine o) = m'
    have hout := perform_outcome src (s.machine o) op
    rw [hm] at hout
    intro o' ho'
    cases ho'
    cases hout with
    | unwritten hd => exact hdisk hd (hs o hp)
    | rewritten fault => exact hflush fault _ (hmemory (hs o hp))
    | changed fault hc => exact hflush fault _ (hchange (m := s.machine o) (hmemory (hs o hp)) hc)
  | openRefused => exact hs
  | openFailed | kill | powerLoss => exact nofun
  | @opened drained fault snapshot draws closing m hp hd hl hf =>
    obtain rfl : ((s.loaded snapshot draws closing).flush fault).2 = m := by rw [hf]
    intro o ho
    cases ho
    exact hflush fault _ (hload hl)

/-! ## A first pair

The start of a run: the empty directory is opened and one pair is admitted. -/

def firstOutbox : Outbox := ⟨⟨2, [], ∅, [], binaryText 0, ""⟩, true⟩

def System.firstOpen : System :=
  ⟨some firstOutbox, ⟨some firstOutbox.snapshot, [], fun _ => none⟩, 1, []⟩

def System.firstPair : System :=
  ((Op.report "pair-0001" "active" 7 .none).perform .binary (firstOpen.machine firstOutbox)).toSystem

theorem firstOpen_step : Step .binary .start (.openDir [] .none) .firstOpen :=
  Step.opened (m := ⟨firstOutbox, System.firstOpen.disk, 1, []⟩) rfl ⟨nodup_nil, rfl⟩ rfl rfl

theorem firstPair_reached : System.firstPair.Reached .binary :=
  ⟨_, _, init_start _, (Run.single firstOpen_step).snoc (Step.op _ rfl)⟩

end RemoteControl.Hbbr
