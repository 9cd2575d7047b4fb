import RemoteControl.Api.Delivery

/-!
# The snapshot of live connections

`connections/service.go` builds the snapshot in two ways: `Build` from audit events, which are
folded into records, and `BuildRecords` from the stored ones. Both end in `finalize`, which counts.

> `finalize` writes only one of the three statuses. It counts on the fold for the other two.

The stored records do not pass through the fold. A point in time is a number of nanoseconds. The
order of a Go map and of equal elements in `sort.Slice` is any.
-/

namespace RemoteControl.Api.Live

open Lib

/-- The text of a status; `unset` is the empty one. -/
inductive Status
  | unset | active | stale | closed
deriving DecidableEq, Repr

/-- What is read of an event's metadata: the trimmed text of a field, empty for one that is missing,
and the number in it, zero for one that has none. -/
structure Metadata where
  text : String → String
  int : String → Int

def Metadata.stringValue (m : Metadata) (keys : List String) : String :=
  ((keys.map m.text).find? (· ≠ "")).getD ""

structure AuditEvent where
  occurredAt : Int
  type : String
  actorUserId : String
  actorSessionId : String
  controllerDevice : String
  targetRustdeskId : String
  ip : String
  metadata : Metadata

structure Record where
  key : String
  status : Status
  actorUserId : String
  actorSessionId : String
  controllerDevice : String
  controllerName : String
  controllerLogin : String
  targetId : String
  connectionType : Int
  ip : String
  transport : String
  relayUuid : String
  relayServer : String
  startedAt : Int
  lastSeenAt : Int
  closedAt : Option Int
  durationSeconds : Int
  metadata : Option Metadata

structure Snapshot where
  active : Nat
  stale : Nat
  closed : Nat
  items : List Record

/-- What the language leaves open, and the seconds of a duration, which pass through a float. -/
structure Runtime where
  mapOrder : List Record → List Record
  sortItems : List Record → List Record
  seconds : Int → Int
  mapOrder_perm : ∀ l, (mapOrder l).Perm l
  sortItems_perm : ∀ l, (sortItems l).Perm l

def staleAfter : Int := 600000000000

def eventKey (event : AuditEvent) : String :=
  event.targetRustdeskId ++ ":" ++ event.controllerDevice ++ ":" ++
    event.metadata.stringValue ["connection_id"] ++ ":" ++
    event.metadata.stringValue ["session_id"]

def Record.reopen (event : AuditEvent) (value : Record) : Record :=
  if event.type = "connection_started" then
    { value with startedAt := event.occurredAt, closedAt := none, status := .active }
  else value

/-- Of most fields the first text that is not empty stays, of the controller's names the last. -/
def Record.describe (event : AuditEvent) (value : Record) : Record :=
  let name := event.metadata.stringValue ["controller_display_name", "controller_name"]
  let login := event.metadata.stringValue ["controller_login"]
  let connectionType := event.metadata.int "connection_type"
  { value with
    lastSeenAt := max value.lastSeenAt event.occurredAt
    actorUserId := if value.actorUserId = "" then event.actorUserId else value.actorUserId
    actorSessionId := if value.actorUserId = "" then event.actorSessionId else value.actorSessionId
    controllerDevice :=
      if value.controllerDevice = "" then event.controllerDevice else value.controllerDevice
    ip := if value.ip = "" then event.ip else value.ip
    controllerName := if name ≠ "" then name else value.controllerName
    controllerLogin := if login ≠ "" then login else value.controllerLogin
    connectionType := if connectionType ≠ 0 ∨ value.connectionType = 0 then connectionType
      else value.connectionType }

def Record.close (event : AuditEvent) (value : Record) : Record :=
  if event.type = "connection_closed" ∧ ∀ closed ∈ value.closedAt, closed < event.occurredAt then
    { value with closedAt := some event.occurredAt, status := .closed }
  else value

def newRecord (event : AuditEvent) : Record :=
  ⟨eventKey event, .active, "", "", "", "", "", event.targetRustdeskId, 0, "", "", "", "",
    event.occurredAt, event.occurredAt, none, 0, some event.metadata⟩

def connectionEvents : List String :=
  ["connection_started", "connection_updated", "connection_closed"]

/-- One round of the loop of `Build`. -/
def addEvent (items : Table Record.key) (event : AuditEvent) : Table Record.key :=
  if event.type ∈ connectionEvents then
    let value := (items.get? (eventKey event)).getD (newRecord event)
    items.put (((value.reopen event).describe event).close event)
  else items

/-- The loop of `finalize` for one record. -/
def Record.finalize (r : Runtime) (now : Int) (value : Record) : Record :=
  let status := if value.closedAt = none ∧ staleAfter < now - value.lastSeenAt then .stale
    else value.status
  { value with
    status, durationSeconds := max 0 (r.seconds (value.closedAt.getD now - value.startedAt)) }

def finalize (r : Runtime) (values : List Record) (now : Int) : Snapshot where
  active := values.countP fun v => v.closedAt = none ∧ ¬ staleAfter < now - v.lastSeenAt
  stale := values.countP fun v => v.closedAt = none ∧ staleAfter < now - v.lastSeenAt
  closed := values.countP fun v => v.closedAt ≠ none
  items := r.sortItems (values.map (Record.finalize r now))

def build (r : Runtime) (events : List AuditEvent) (now : Int) : Snapshot :=
  let events := events.mergeSort fun a b => a.occurredAt ≤ b.occurredAt
  finalize r (r.mapOrder (events.foldl addEvent .empty).rows) now

/-- A stored record; its times are in milliseconds. -/
def ofStored (v : ConnectionRecord) : Record :=
  ⟨v.key, .unset, v.actorUserId, v.actorSessionId, v.controllerDevice, v.controllerName,
    v.controllerLogin, v.targetRustdeskId, v.connectionType.toInt, v.ip, v.transport, v.relayUuid,
    v.relayServer, v.startedAt * 1000000, v.lastSeenAt * 1000000,
    v.closedAt.map fun t : Nat => (t : Int) * 1000000, 0, none⟩

def buildRecords (r : Runtime) (records : List ConnectionRecord) (now : Int) : Snapshot :=
  finalize r (records.map ofStored) now

/-! ## Statuses -/

/-- The status that the times of a record give. -/
def Record.due (now : Int) (v : Record) : Status :=
  if v.closedAt.isSome then .closed else if staleAfter < now - v.lastSeenAt then .stale else .active

/-- Every item has the status that is due, and the counters are those of the statuses. -/
def Snapshot.Right (s : Snapshot) (now : Int) : Prop :=
  (∀ v ∈ s.items, (v.status = .active ∨ v.status = .stale ∨ v.status = .closed) ∧
    (v.status = .closed ↔ v.closedAt.isSome) ∧
    (v.status = .stale ↔ v.closedAt = none ∧ staleAfter < now - v.lastSeenAt)) ∧
  s.active = s.items.countP (fun v => v.status = .active) ∧
  s.stale = s.items.countP (fun v => v.status = .stale) ∧
  s.closed = s.items.countP fun v => v.status = .closed

variable {r : Runtime} {now : Int} {v : Record} {values : List Record}

theorem due_finalize : (v.finalize r now).due now = v.due now := rfl

/-- The item's status says of its times what it should. -/
theorem eq_due_iff : v.status = v.due now ↔
    (v.status = .active ∨ v.status = .stale ∨ v.status = .closed) ∧
    (v.status = .closed ↔ v.closedAt.isSome) ∧
    (v.status = .stale ↔ v.closedAt = none ∧ staleAfter < now - v.lastSeenAt) := by
  unfold Record.due
  cases hclosed : v.closedAt with
  | some t => cases v.status <;> simp
  | none =>
    by_cases hstale : staleAfter < now - v.lastSeenAt
    · cases v.status <;> simp [hstale]
    · cases v.status <;> simp [hstale]

theorem right_iff : (finalize r values now).Right now ↔
    ∀ v ∈ values, (v.finalize r now).status = v.due now := by
  have hitems : ∀ {p : Record → Prop}, (∀ v ∈ (finalize r values now).items, p v) ↔
      ∀ v ∈ values, p (v.finalize r now) := by
    intro p
    simp only [finalize, (r.sortItems_perm _).mem_iff, List.forall_mem_map]
  have hcount : ∀ p : Record → Bool, (finalize r values now).items.countP p =
      values.countP fun v => p (v.finalize r now) := by
    intro p
    rw [finalize, (r.sortItems_perm _).countP_eq, List.countP_map]
    rfl
  unfold Snapshot.Right
  rw [hitems, hcount, hcount, hcount]
  simp only [← eq_due_iff, due_finalize]
  refine ⟨And.left, fun h => ⟨h, ?_, ?_, ?_⟩⟩
  -- each counter looks at what the status that is due looks at
  all_goals
    refine List.countP_congr fun v hv => ?_
    rw [h v hv, Record.due]
    cases hclosed : v.closedAt with
    | some t => simp
    | none => by_cases hstale : staleAfter < now - v.lastSeenAt <;> simp [hstale]

theorem status_finalize_iff : (v.finalize r now).status = v.due now ↔
    v.closedAt = none ∧ staleAfter < now - v.lastSeenAt ∨ v.status = v.due now := by
  unfold Record.finalize Record.due
  cases hclosed : v.closedAt with
  | some t => simp
  | none => by_cases hstale : staleAfter < now - v.lastSeenAt <;> simp [hstale]

/-! ## The fold of the events -/

/-- What the fold keeps: a record is closed or active, as its closing time says. -/
def Record.Folded (v : Record) : Prop := v.status = if v.closedAt.isSome then .closed else .active

theorem folded_round (event : AuditEvent) (h : v.Folded) :
    (((v.reopen event).describe event).close event).Folded := by
  have hreopened : (v.reopen event).Folded := by
    unfold Record.reopen
    split
    · rfl
    · exact h
  unfold Record.close
  split
  · rfl
  · exact hreopened

theorem folded_addEvent {items : Table Record.key} (h : ∀ v ∈ items.rows, v.Folded)
    (event : AuditEvent) : ∀ v ∈ (addEvent items event).rows, v.Folded := by
  unfold addEvent
  split_ifs
  · refine Table.all_put h (folded_round event ?_)
    cases hget : items.get? (eventKey event) with
    | none => rfl
    | some v => exact h v (Table.mem_of_get? hget)
  · exact h

theorem folded_foldl (events : List AuditEvent) :
    ∀ v ∈ (events.foldl addEvent .empty).rows, v.Folded := by
  suffices h : ∀ items : Table Record.key, (∀ v ∈ items.rows, v.Folded) →
      ∀ v ∈ (events.foldl addEvent items).rows, v.Folded from h .empty nofun
  induction events with
  | nil => exact fun _ h => h
  | cons event events ih => exact fun items h => ih _ (folded_addEvent h event)

/-- Every snapshot that is built from audit events is right. One that is built from stored records
is right if and only if all of them are open and unseen for more than ten minutes. -/
theorem snapshot_right_iff (r : Runtime) (now : Int) :
    (∀ events, (build r events now).Right now) ∧
      ∀ records : List ConnectionRecord, (buildRecords r records now).Right now ↔
        ∀ v ∈ records, v.closedAt = none ∧ staleAfter < now - v.lastSeenAt * 1000000 := by
  refine ⟨fun events => right_iff.mpr fun v hv => ?_, fun records => ?_⟩
  · have hfolded := folded_foldl _ v ((r.mapOrder_perm _).mem_iff.mp hv)
    rw [status_finalize_iff, hfolded, Record.due]
    cases hclosed : v.closedAt with
    | some t => exact .inr rfl
    | none => by_cases hstale : staleAfter < now - v.lastSeenAt <;> simp [hstale]
  · rw [buildRecords, right_iff, List.forall_mem_map]
    refine forall₂_congr fun v _ => ?_
    have hunset : ¬ (ofStored v).status = (ofStored v).due now := by
      unfold Record.due
      split_ifs <;> exact nofun
    rw [status_finalize_iff, or_iff_left hunset]
    refine and_congr_left' ?_
    exact Option.map_eq_none_iff

def closedConnection : ConnectionRecord :=
  ⟨"key", "", "", "", "", "", "target", 0, "", "", "", "", 0, 1000, some 1000⟩

/-- Its item has no status, and is counted as closed. -/
theorem closed_without_status :
    let s := buildRecords ⟨id, id, fun d => d / 1000000000, .refl, .refl⟩ [closedConnection]
      2000000000
    s.closed = 1 ∧ s.items.map (fun v => (v.status, v.closedAt)) = [(.unset, some 1000000000)] :=
  ⟨rfl, rfl⟩

end RemoteControl.Api.Live
