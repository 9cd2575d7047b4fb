import Mathlib.Data.Finset.Card
import Mathlib.Algebra.BigOperators.Group.Finset.Defs
import Mathlib.Algebra.GroupWithZero.Nat
import Mathlib.Logic.Function.Basic

/-!
# The relay's lifecycle outbox

The relay keeps the lifecycle events it still owes the API in one JSON file,
`outbox.json`, next to backups of quarantined events. This module is that file's
code (`art-hbbr/src/outbox.rs` and `next_event` of `telemetry.rs`), function by
function. What the operating system decides (which call on the disk fails, what
a random UUID is, what time it is, in which order a hash set is drained) is an
argument of the function that meets it.

A crash inside a write is a write that stops at that point, followed by the loss
of the process, so the fault arguments also say where a crash may interrupt.
-/

namespace RemoteControl.Hbbr

def capacity : Nat := 4096
def maxBytes : Nat := 2 * 1024 * 1024

/-- The `uuid` crate as the relay uses it. `newV4 n` is the text of the `n`-th
random UUID the outbox keeps; random UUIDs do not repeat and parse again. -/
structure UuidSource where
  newV4 : Nat → String
  parseStr : String → Bool
  newV4_injective : Function.Injective newV4
  parse_newV4 : ∀ n, parseStr (newV4 n) = true
  parse_empty : parseStr "" = false

theorem UuidSource.newV4_ne_empty (src : UuidSource) (n : Nat) : src.newV4 n ≠ "" := by
  intro h
  have hp := src.parse_newV4 n
  rw [h, src.parse_empty] at hp
  cases hp

/-- The low bits of `n`, lowest first. -/
def bitText (zero one : Char) (width n : Nat) : String :=
  String.ofList ((List.range width).map fun i => if n.testBit i then one else zero)

theorem bitText_injOn {zero one : Char} {width m n : Nat} (hne : zero ≠ one)
    (hm : m < 2 ^ width) (hn : n < 2 ^ width)
    (h : bitText zero one width m = bitText zero one width n) : m = n := by
  have hmap := List.map_inj_left.mp (String.ofList_injective h)
  refine Nat.eq_of_testBit_eq fun i => ?_
  rcases Nat.lt_or_ge i width with hi | hi
  · have hbit := hmap i (List.mem_range.mpr hi)
    cases hx : m.testBit i <;> cases hy : n.testBit i <;> simp_all
  · have hle : 2 ^ width ≤ 2 ^ i := Nat.pow_le_pow_right (by decide) hi
    rw [Nat.testBit_lt_two_pow (Nat.lt_of_lt_of_le hm hle),
      Nat.testBit_lt_two_pow (Nat.lt_of_lt_of_le hn hle)]

/-- Random UUIDs of 36 characters, for as long as there are any. -/
def binaryText (n : Nat) : String :=
  if n < 2 ^ 36 then bitText '0' '1' 36 n else String.ofList (List.replicate (n + 1) 'a')

theorem length_binaryText (n : Nat) : (binaryText n).length = if n < 2 ^ 36 then 36 else n + 1 := by
  unfold binaryText
  split <;> simp [bitText]

theorem binaryText_injective : Function.Injective binaryText := by
  intro m n h
  have hlen := congrArg String.length h
  rw [length_binaryText, length_binaryText] at hlen
  by_cases hm : m < 2 ^ 36 <;> by_cases hn : n < 2 ^ 36
  · rw [binaryText, binaryText, if_pos hm, if_pos hn] at h
    exact bitText_injOn (by decide) hm hn h
  all_goals
    simp only [hm, hn, if_true, if_false] at hlen
    omega

theorem binaryText_ne_empty (n : Nat) : binaryText n ≠ "" := by
  intro h
  have hlen := congrArg String.length h
  rw [length_binaryText, String.length_empty] at hlen
  split at hlen <;> omega

def UuidSource.binary : UuidSource where
  newV4 := binaryText
  parseStr s := !s.isEmpty
  newV4_injective := binaryText_injective
  parse_newV4 n := by simpa using binaryText_ne_empty n
  parse_empty := rfl

structure Event where
  id : String
  uuid : String
  status : String
  createdAt : Nat
  reason : String
deriving DecidableEq, Repr

structure Snapshot where
  version : Nat
  events : List Event
  active : Finset String
  quarantine : List Event
  quarantineRevision : String
  lastArchive : String
deriving DecidableEq

structure QuarantinePage where
  revision : String
  total : Nat
  offset : Nat
  events : List Event
deriving DecidableEq, Repr

structure Outbox where
  snapshot : Snapshot
  healthy : Bool
deriving DecidableEq

inductive OutboxError
  | io | fileTooLarge | unsupportedVersion | capacityExceeded | invalidEvent
  | invalidQuarantineReason | invalidActiveUuid | invalidLifecycleUuid | storageUnavailable
  | duplicateActive | full | invalidLifecycleState | unsupportedQuarantineReason
  | quarantineMismatch | acknowledgementMismatch | quarantineChanged | invalidOffset
  | invalidRevision | quarantineChangedOrUnavailable | quarantineEmpty | backupMismatch
deriving DecidableEq, Repr

/-! ## The size of the file

`serde_json::to_vec` writes compact JSON; only its length is ever inspected. -/

def escapedLen (c : Char) : Nat :=
  if c.toNat = 34 ∨ c.toNat = 92 then 2
  else if c.toNat ∈ [8, 9, 10, 12, 13] then 2
  else if c.toNat < 32 then 6
  else c.utf8Size

def jsonStringLen (s : String) : Nat := 2 + (s.toList.map escapedLen).sum

def jsonNatLen (n : Nat) : Nat := n.repr.length

/-- The length of a JSON array of `count` elements of `total` bytes together. -/
def jsonArrayLen (count total : Nat) : Nat := 2 + total + (count - 1)

def Event.jsonLen (e : Event) : Nat :=
  49 + jsonStringLen e.id + jsonStringLen e.uuid + jsonStringLen e.status
    + jsonNatLen e.createdAt + jsonStringLen e.reason

def jsonEventsLen (es : List Event) : Nat := jsonArrayLen es.length (es.map Event.jsonLen).sum

def Snapshot.jsonLen (s : Snapshot) : Nat :=
  85 + jsonNatLen s.version + jsonEventsLen s.events
    + jsonArrayLen s.active.card (∑ u ∈ s.active, jsonStringLen u)
    + jsonEventsLen s.quarantine + jsonStringLen s.quarantineRevision
    + jsonStringLen s.lastArchive

/-! ## The directory -/

/-- One `quarantine-<revision>.json`. `page` is `none` while the write is torn;
`durable` is set once the file and the directory were synced. -/
structure Backup where
  page : Option QuarantinePage
  durable : Bool
deriving DecidableEq, Repr

/-- `json` is what reading `outbox.json` gives now. A rename is atomic, but until
the directory is synced a power loss may bring back any of `unsynced`. -/
structure Disk where
  json : Option Snapshot
  unsynced : List (Option Snapshot)
  backups : String → Option Backup

def Disk.rename (d : Disk) (s : Snapshot) : Disk :=
  { d with json := some s, unsynced := d.json :: d.unsynced }

def Disk.syncDir (d : Disk) : Disk := { d with unsynced := [] }

def Disk.putBackup (d : Disk) (revision : String) (b : Backup) : Disk :=
  { d with backups := Function.update d.backups revision (some b) }

/-! ## The running outbox

`draws` counts the random UUIDs used so far. `recorded` is a history variable:
every event ever pushed, oldest first. No operation reads it. -/

structure Machine where
  outbox : Outbox
  disk : Disk
  draws : Nat
  recorded : List Event

/-- Where a snapshot write stops: nowhere, up to and including the rename
(create, write or sync of `outbox.tmp`, or the rename itself), or at the sync of
the directory, when the new file is already in place. -/
inductive WriteFault
  | none | tempFile | dirSync
deriving DecidableEq, Repr

def Snapshot.total (s : Snapshot) : Nat := s.events.length + s.active.card + s.quarantine.length

def Machine.snapshot (m : Machine) : Snapshot := m.outbox.snapshot

def Machine.setSnapshot (m : Machine) (s : Snapshot) : Machine :=
  { m with outbox := { m.outbox with snapshot := s } }

def Machine.flush (fault : WriteFault) (m : Machine) : Except OutboxError Unit × Machine :=
  let stopped := { m with outbox := { m.outbox with healthy := false } }
  if maxBytes < m.snapshot.jsonLen then (.error .fileTooLarge, stopped)
  else match fault with
    | .tempFile => (.error .io, stopped)
    | .dirSync => (.error .io, { stopped with disk := m.disk.rename m.snapshot })
    | .none =>
      (.ok (), { m with
        outbox := { m.outbox with healthy := true }
        disk := (m.disk.rename m.snapshot).syncDir })

def validUuid (uuid : String) : Bool := 8 ≤ uuid.utf8ByteSize && uuid.utf8ByteSize ≤ 128

/-- `events.push_back(Event { id: new_v4, uuid, status, created_at: now, .. })`. -/
def Machine.pushEvent (src : UuidSource) (uuid status : String) (now : Nat) (m : Machine) :
    Machine :=
  let event : Event := ⟨src.newV4 m.draws, uuid, status, now, ""⟩
  { m with
    outbox := { m.outbox with
      snapshot := { m.snapshot with events := m.snapshot.events ++ [event] } }
    draws := m.draws + 1
    recorded := m.recorded ++ [event] }

def Machine.report (src : UuidSource) (uuid status : String) (now : Nat) (fault : WriteFault)
    (m : Machine) : Except OutboxError Unit × Machine :=
  if validUuid uuid = false then (.error .invalidLifecycleUuid, m)
  else if status = "active" then
    if m.outbox.healthy = false then (.error .storageUnavailable, m)
    else if uuid ∈ m.snapshot.active then (.error .duplicateActive, m)
    -- a slot for the closing event is reserved before the pair is admitted
    else if capacity < m.snapshot.total + 2 then (.error .full, m)
    else
      ((m.setSnapshot { m.snapshot with active := insert uuid m.snapshot.active }).pushEvent
        src uuid status now).flush fault
  else if status = "closed" then
    if uuid ∉ m.snapshot.active then (.ok (), m)
    else
      ((m.setSnapshot { m.snapshot with active := m.snapshot.active.erase uuid }).pushEvent
        src uuid status now).flush fault
  else (.error .invalidLifecycleState, m)

def Machine.front (m : Machine) : Option Event := m.snapshot.events.head?

def Machine.canAdmit (m : Machine) : Bool := m.outbox.healthy && m.snapshot.total + 2 ≤ capacity

def Machine.quarantine (src : UuidSource) (id uuid status reason : String) (fault : WriteFault)
    (m : Machine) : Except OutboxError Unit × Machine :=
  if reason ≠ "credential_rotated" then (.error .unsupportedQuarantineReason, m)
  else match m.snapshot.events with
    | [] => (.ok (), m)
    | front :: rest =>
      if front.id ≠ id then (.ok (), m)
      else if front.uuid ≠ uuid ∨ front.status ≠ status then (.error .quarantineMismatch, m)
      else
        { m.setSnapshot { m.snapshot with
            events := rest
            quarantine := m.snapshot.quarantine ++ [{ front with reason := reason }]
            quarantineRevision := src.newV4 m.draws } with draws := m.draws + 1 }.flush fault

def Machine.acknowledge (id uuid status : String) (fault : WriteFault) (m : Machine) :
    Except OutboxError Unit × Machine :=
  match m.snapshot.events with
  | [] => (.ok (), m)
  | front :: rest =>
    if front.id ≠ id then (.ok (), m)
    else if front.uuid ≠ uuid ∨ front.status ≠ status then (.error .acknowledgementMismatch, m)
    else (m.setSnapshot { m.snapshot with events := rest }).flush fault

def Machine.quarantinePage (revision : String) (offset : Nat) (m : Machine) :
    Except OutboxError QuarantinePage :=
  if revision ≠ "" ∧ revision ≠ m.snapshot.quarantineRevision then .error .quarantineChanged
  else if m.snapshot.quarantine.length < offset then .error .invalidOffset
  else .ok
    { revision := m.snapshot.quarantineRevision
      total := m.snapshot.quarantine.length
      offset := offset
      events := (m.snapshot.quarantine.drop offset).take 10 }

/-! ## Archiving the quarantine -/

/-- Where writing or re-checking a backup stops. `openFile` is the read of an
existing file or the exclusive creation of a new one. -/
inductive BackupFault
  | none | openFile | write | sync | dirSync
deriving DecidableEq, Repr

/-- The backup part of `archive_quarantine`: exclusive creation, no overwrite, and
an existing file counts only if it already holds exactly these bytes. -/
def Disk.writeBackup (fault : BackupFault) (page : QuarantinePage) (d : Disk) :
    Except OutboxError Unit × Disk :=
  match d.backups page.revision with
  | some b =>
    if fault = .openFile then (.error .io, d)
    else if b.page ≠ some page then (.error .backupMismatch, d)
    else if fault = .sync ∨ fault = .dirSync then (.error .io, d)
    else (.ok (), (d.putBackup page.revision ⟨some page, true⟩).syncDir)
  | none =>
    match fault with
    | .openFile => (.error .io, d)
    | .write => (.error .io, d.putBackup page.revision ⟨none, false⟩)
    | .sync | .dirSync => (.error .io, d.putBackup page.revision ⟨some page, false⟩)
    | .none => (.ok (), (d.putBackup page.revision ⟨some page, true⟩).syncDir)

def Snapshot.backupPage (s : Snapshot) (revision : String) : QuarantinePage :=
  ⟨revision, s.quarantine.length, 0, s.quarantine⟩

def Machine.archiveQuarantine (src : UuidSource) (revision : String) (backup : BackupFault)
    (fault : WriteFault) (m : Machine) : Except OutboxError Unit × Machine :=
  if src.parseStr revision = false then (.error .invalidRevision, m)
  -- a lost acknowledgement never clears a newer quarantine
  else if m.snapshot.lastArchive = revision then m.flush fault
  else if m.outbox.healthy = false ∨ revision ≠ m.snapshot.quarantineRevision then
    (.error .quarantineChangedOrUnavailable, m)
  else if m.snapshot.quarantine = [] then (.error .quarantineEmpty, m)
  else match m.disk.writeBackup backup (m.snapshot.backupPage revision) with
    | (.error e, disk) => (.error e, { m with disk := disk })
    | (.ok (), disk) =>
      { m.setSnapshot { m.snapshot with
          quarantine := []
          lastArchive := revision
          quarantineRevision := src.newV4 m.draws } with
        disk := disk
        draws := m.draws + 1 }.flush fault

/-- `next_event` of the reporter: an unhealthy outbox is written again before its
front is handed out. -/
def Machine.nextEvent (fault : WriteFault) (m : Machine) :
    Except OutboxError (Option Event) × Machine :=
  if m.outbox.healthy then (.ok m.front, m)
  else match m.flush fault with
    | (.error e, m') => (.error e, m')
    | (.ok (), m') => (.ok m'.front, m')

/-! ## Opening the directory -/

/-- What a directory without a file is opened with. -/
def Snapshot.empty : Snapshot := ⟨2, [], ∅, [], "", ""⟩

def readFile : Option Snapshot → Except OutboxError Snapshot
  | none => .ok .empty
  | some s => if maxBytes < s.jsonLen then .error .fileTooLarge else .ok s

/-- The identity loop of `open`; `seen` is its `identities` set. -/
def checkEvents (src : UuidSource) (seen : List String) : List Event → Except OutboxError Unit
  | [] => .ok ()
  | e :: es =>
    if src.parseStr e.id ∧ e.id ∉ seen ∧ validUuid e.uuid
        ∧ (e.status = "active" ∨ e.status = "closed") then
      checkEvents src (e.id :: seen) es
    else .error .invalidEvent

/-- The events `open` pushes for the drained active pairs, each with the time read
for it. -/
def drainActive (src : UuidSource) : Nat → List (String × Nat) → List Event
  | _, [] => []
  | draws, (uuid, now) :: rest =>
    ⟨src.newV4 draws, uuid, "closed", now, ""⟩ :: drainActive src (draws + 1) rest

/-- What `open` keeps in memory before it writes: the checked file with every active
pair turned into a closing event. `drained` is the order in which the hash set
is drained. -/
def load (src : UuidSource) (drained : List (String × Nat)) (draws : Nat)
    (file : Option Snapshot) : Except OutboxError (Snapshot × Nat × List Event) :=
  match readFile file with
  | .error e => .error e
  | .ok s =>
    if s.version ≠ 1 ∧ s.version ≠ 2 then .error .unsupportedVersion
    else
      let revision := if s.quarantineRevision = "" then src.newV4 draws else s.quarantineRevision
      let draws' := if s.quarantineRevision = "" then draws + 1 else draws
      if capacity < s.total then .error .capacityExceeded
      else match checkEvents src [] (s.events ++ s.quarantine) with
        | .error e => .error e
        | .ok () =>
          if ¬ s.quarantine.all (fun e => e.reason = "credential_rotated") then
            .error .invalidQuarantineReason
          else if ¬ drained.all (fun p => validUuid p.1) then .error .invalidActiveUuid
          else
            let closing := drainActive src draws' drained
            .ok ({ s with
              version := 2
              events := s.events ++ closing
              active := ∅
              quarantineRevision := revision }, draws' + drained.length, closing)

end RemoteControl.Hbbr
