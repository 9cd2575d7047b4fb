import Mathlib.Data.List.Sort
import RemoteControl.Lib.Table

/-!
# The relay delivery store

The API's side of relay delivery: which connection UUIDs a relay may open, which
lifecycle events were received for them, and what is kept once a connection is
long closed. The functions are those of `relay_delivery.go`, `relay_operations.go`
and `relay_credentials.go`, over the tables of `Migrate`.

A statement or a transaction is one function on the database. What runs as
several statements outside a transaction is split there: `Call` is such a
computation between two of its statements, and `Call.advance` performs the next.
-/

namespace RemoteControl.Api

open Lib

/-! ## Tables -/

/-- `relay_authorizations.state`. -/
inductive RelayState
  | permitted | active | closed
deriving DecidableEq, Repr

/-- `relay_event_receipts.state`: the two states a relay reports. -/
inductive Lifecycle
  | active | closed
deriving DecidableEq, Repr

def Lifecycle.toState : Lifecycle → RelayState
  | .active => .active
  | .closed => .closed

def Lifecycle.ofString? (s : String) : Option Lifecycle :=
  if s = "active" then some .active else if s = "closed" then some .closed else none

structure RelayServer where
  id : String
  enabled : Bool
deriving DecidableEq, Repr

structure Credential where
  relayId : String
  hash : String
  enrollmentHash : String
  enrollmentExpires : Nat
  generation : String
deriving DecidableEq, Repr

structure Authorization where
  uuid : String
  relayId : String
  generation : String
  state : RelayState
  createdAt : Nat
deriving DecidableEq, Repr

structure Receipt where
  relayId : String
  eventId : String
  uuid : String
  generation : String
  state : Lifecycle
  receivedAt : Nat
deriving DecidableEq, Repr

def Receipt.key (r : Receipt) : String × String := (r.relayId, r.eventId)

structure ArchiveEntry where
  uuid : String
  relayId : String
  generation : String
  activeEventId : String
  closedEventId : String
  archivedAt : Nat
deriving DecidableEq, Repr

structure ConnectionRecord where
  key : String
  actorUserId : String
  actorSessionId : String
  controllerDevice : String
  controllerName : String
  controllerLogin : String
  targetRustdeskId : String
  connectionType : Int64
  ip : String
  transport : String
  relayUuid : String
  relayServer : String
  startedAt : Nat
  lastSeenAt : Nat
  closedAt : Option Nat
deriving DecidableEq, Repr

structure Db where
  relays : Table RelayServer.id
  credentials : Table Credential.relayId
  authorizations : Table Authorization.uuid
  receipts : Table Receipt.key
  archive : Table ArchiveEntry.uuid
  connections : Table ConnectionRecord.key

def Db.empty : Db := ⟨.empty, .empty, .empty, .empty, .empty, .empty⟩

/-- A lifecycle message of the control channel. -/
structure Message where
  requestId : String
  uuid : String
  status : String
deriving DecidableEq, Repr

/-- What the callers of the store see. `databaseError` is any error that is neither
`ErrUnauthorized` nor `ErrStaleGeneration`. -/
inductive Answer
  | authorized | notFound | reusedOrExhausted
  | acknowledged | staleGeneration | unauthorized | databaseError
deriving DecidableEq, Repr

/-! ## Credentials -/

def Credential.matches (hash : String → String) (c : Credential) (token : String) : Bool :=
  token.utf8ByteSize = 43 && c.hash ≠ "" && c.hash = hash token

/-- `SELECT c.generation … JOIN relay_servers … WHERE token_hash=? AND enabled=TRUE`. -/
def Db.currentGeneration (hash : String → String) (id token : String) (db : Db) : Option String :=
  match db.credentials.get? id, db.relays.get? id with
  | some c, some r => if c.hash = hash token ∧ r.enabled then some c.generation else none
  | _, _ => none

def Db.putRelayEnrollment (id enrollmentHash : String) (expires : Nat) (generation : String)
    (db : Db) : Db :=
  if db.relays.get? id = none then db
  else if db.credentials.get? id = none then
    { db with credentials := db.credentials.insert ⟨id, "", enrollmentHash, expires, generation⟩ }
  else
    { db with
      credentials := db.credentials.updateWhere (fun c => c.relayId = id) fun c =>
        { c with hash := "", enrollmentHash, enrollmentExpires := expires, generation } }

def Db.consumeRelayEnrollment (id enrollmentHash tokenHash : String) (now : Nat) (db : Db) : Db :=
  if (db.relays.get? id).any (fun r => r.enabled) then
    { db with
      credentials := db.credentials.updateWhere
        (fun c => c.relayId = id && c.enrollmentHash = enrollmentHash && c.enrollmentHash ≠ ""
          && now < c.enrollmentExpires)
        fun c => { c with hash := tokenHash, enrollmentHash := "", enrollmentExpires := 0 } }
  else db

def Db.revokeRelayCredential (id : String) (db : Db) : Db :=
  { db with
    credentials := db.credentials.updateWhere (fun c => c.relayId = id) fun c =>
      { c with hash := "", enrollmentHash := "", enrollmentExpires := 0 } }

def Db.createRelay (id : String) (enabled : Bool) (db : Db) : Db :=
  { db with relays := db.relays.insert ⟨id, enabled⟩ }

def Db.setRelayEnabled (id : String) (enabled : Bool) (db : Db) : Db :=
  { db with
    relays := db.relays.updateWhere (fun r => r.id = id) fun r => { r with enabled := enabled } }

/-! ## Authorising -/

def authorizationLimit : Nat := 100000

def Db.authorizationCount (id : String) (db : Db) : Nat :=
  db.authorizations.count fun a => a.relayId = id

/-- The conditional `INSERT` of `AuthorizeRelay`, for the credential `c` read before it. -/
def Db.authorizeInsert (id uuid : String) (c : Credential) (now : Nat) (db : Db) : Answer × Db :=
  if db.authorizationCount id < authorizationLimit
      ∧ (db.credentials.get? id).any (fun k => k.hash = c.hash && k.generation = c.generation)
      ∧ db.archive.get? uuid = none ∧ db.authorizations.get? uuid = none then
    (.authorized, { db with
      authorizations := db.authorizations.insert ⟨uuid, id, c.generation, .permitted, now⟩ })
  else (.reusedOrExhausted, db)

def Db.authorizeRelay (hash : String → String) (id token uuid : String) (now : Nat) (db : Db) :
    Answer × Db :=
  match db.credentials.get? id with
  | none => (.notFound, db)
  | some c =>
    if c.matches hash token then db.authorizeInsert id uuid c now else (.unauthorized, db)

/-! ## Applying an event -/

/-- The checks `ApplyRelayEvent` makes before it opens a transaction. -/
def Message.lifecycle? (m : Message) : Option Lifecycle :=
  if m.requestId = "" ∨ 64 < m.requestId.utf8ByteSize ∨ m.uuid.utf8ByteSize < 8
      ∨ 128 < m.uuid.utf8ByteSize then none
  else Lifecycle.ofString? m.status

def connectionKey (uuid : String) : String := "relay:" ++ uuid

/-- The upsert of `connection_records`; `none` when its `WHERE` refuses the row. -/
def Db.projectConnection (uuid address : String) (st : Lifecycle) (now : Nat) (db : Db) :
    Option (Table ConnectionRecord.key) :=
  let closed := if st = .closed then some now else none
  match db.connections.get? (connectionKey uuid) with
  | none => some (db.connections.insert
      ⟨connectionKey uuid, "", "", "", "", "", "", 0, "", "relay", uuid, address, now, now, closed⟩)
  | some c =>
    if c.relayServer = "" ∨ c.relayServer = address then
      some (db.connections.updateWhere (fun c => c.key = connectionKey uuid) fun c =>
        { c with
          relayServer := address
          relayUuid := uuid
          transport := "relay"
          lastSeenAt := now
          closedAt := c.closedAt.or closed })
    else none

/-- The unique index on `(uuid, state)`. -/
def Db.receiptFor (uuid : String) (st : Lifecycle) (db : Db) : Option Receipt :=
  db.receipts.rows.find? fun r => r.uuid = uuid && r.state = st

/-- The checks of `ApplyRelayEvent`'s transaction, in order. `none` stands for its first
`UPDATE` matching no row, after which the archive is consulted outside the
transaction; `.inl` for ending it with an answer and no change; `.inr` for going on
to write, with the projection computed. -/
def Db.txPlan (hash : String → String) (id token address : String) (m : Message) (st : Lifecycle)
    (now : Nat) (db : Db) : Option (Answer ⊕ Authorization × Table ConnectionRecord.key) :=
  match db.authorizations.get? m.uuid with
  | none => none
  | some a =>
    if a.relayId ≠ id ∨ db.currentGeneration hash id token ≠ some a.generation then none
    else match db.receipts.get? (id, m.requestId) with
      | some r =>
        if r.uuid ≠ m.uuid ∨ r.generation ≠ a.generation ∨ r.state ≠ st then
          some (.inl .unauthorized)
        else some (.inl .acknowledged)
      | none =>
        -- inserting the receipt violates the unique index
        if (db.receiptFor m.uuid st).isSome then some (.inl .databaseError)
        else if a.state = .closed ∧ st ≠ .closed then some (.inl .unauthorized)
        else match db.projectConnection m.uuid address st now with
          | none => some (.inl .unauthorized)
          | some connections => some (.inr (a, connections))

/-- The writes of the transaction: receipt, projection and state commit together. -/
def Db.commitReceipt (id : String) (m : Message) (a : Authorization) (st : Lifecycle) (now : Nat)
    (connections : Table ConnectionRecord.key) (db : Db) : Db :=
  { db with
    receipts := db.receipts.insert ⟨id, m.requestId, m.uuid, a.generation, st, now⟩
    connections := connections
    authorizations := db.authorizations.updateWhere (fun a => a.uuid = m.uuid) fun a =>
      { a with state := st.toState } }

def Db.applyTx (hash : String → String) (id token address : String) (m : Message)
    (st : Lifecycle) (now : Nat) (db : Db) : Option (Answer × Db) :=
  (db.txPlan hash id token address m st now).map fun
    | .inl answer => (answer, db)
    | .inr (a, connections) => (.acknowledged, db.commitReceipt id m a st now connections)

/-- The second query of `checkArchivedRelayEvent`; `none` when there is no row and the
archive is asked next. -/
def Db.liveAnswer (id generation : String) (m : Message) (db : Db) : Option Answer :=
  (db.authorizations.get? m.uuid).map fun a =>
    if a.relayId = id ∧ a.generation ≠ generation then .staleGeneration else .unauthorized

/-- The last query of `checkArchivedRelayEvent`. -/
def Db.archiveAnswer (id generation : String) (m : Message) (db : Db) : Answer :=
  match db.archive.get? m.uuid with
  | none => .unauthorized
  | some e =>
    if e.relayId ≠ id then .unauthorized
    else if e.generation ≠ generation then .staleGeneration
    else if m.status = "active" ∧ e.activeEventId ≠ "" ∧ m.requestId = e.activeEventId
        ∨ m.status = "closed" ∧ m.requestId = e.closedEventId then .acknowledged
    else .unauthorized

def Db.checkArchivedRelayEvent (hash : String → String) (id token : String) (m : Message)
    (db : Db) : Answer :=
  match db.currentGeneration hash id token with
  | none => .unauthorized
  | some generation => (db.liveAnswer id generation m).getD (db.archiveAnswer id generation m)

def Db.applyRelayEvent (hash : String → String) (id token address : String) (m : Message)
    (now : Nat) (db : Db) : Answer × Db :=
  match m.lifecycle? with
  | none => (.unauthorized, db)
  | some st =>
    match db.applyTx hash id token address m st now with
    | some result => result
    | none => (db.checkArchivedRelayEvent hash id token m, db)

/-! ## Compaction -/

def thirtyDays : Nat := 30 * 24 * 60 * 60 * 1000

/-- The authorisations `CompactRelayDelivery` selects, oldest closing receipt first. -/
def Db.compactable (id : String) (now : Nat) (db : Db) : List String :=
  let closed := db.authorizations.rows.filterMap fun a =>
    if a.relayId = id ∧ a.state = .closed then
      (db.receiptFor a.uuid .closed).bind fun e =>
        if e.receivedAt + thirtyDays < now then some (e.receivedAt, a.uuid) else none
    else none
  let le := fun p q : Nat × String => p.1 < q.1 ∨ p.1 = q.1 ∧ p.2 ≤ q.2
  ((closed.insertionSort le).take 1000).map Prod.snd

/-- One turn of the loop: the archive row, then the deletions. A missing closing receipt
or an archive row that is already there is an error, which rolls everything back. -/
def Db.compactOne (id uuid : String) (now : Nat) (db : Db) : Option Db :=
  match db.authorizations.get? uuid with
  | none => some db
  | some a =>
    if a.relayId ≠ id ∨ a.state ≠ .closed then some db
    else match db.receiptFor uuid .closed with
      | none => none
      | some closed =>
        if (db.archive.get? uuid).isSome then none
        else some { db with
          archive := db.archive.insert ⟨uuid, a.relayId, a.generation,
            ((db.receiptFor uuid .active).map Receipt.eventId).getD "", closed.eventId, now⟩
          receipts := db.receipts.deleteWhere fun r => r.uuid = uuid
          authorizations := db.authorizations.deleteWhere fun a => a.uuid = uuid }

def Db.compactAll (id : String) (now : Nat) : List String → Db → Option Db
  | [], db => some db
  | uuid :: uuids, db => (db.compactOne id uuid now).bind (compactAll id now uuids)

def Db.compactRelayDelivery (id : String) (now : Nat) (db : Db) : Db :=
  (Db.compactAll id now (db.compactable id now) db).getD db

/-! ## Other writers of the projection -/

/-- `UpsertConnection`, with which HBBS audit records reach the same table. -/
def Db.upsertConnection (v : ConnectionRecord) (db : Db) : Db :=
  match db.connections.get? v.key with
  | none => { db with connections := db.connections.insert v }
  | some _ => { db with
    connections := db.connections.updateWhere (fun c => c.key = v.key) fun c =>
      { c with
        actorUserId := if v.actorUserId ≠ "" then v.actorUserId else c.actorUserId
        actorSessionId := if v.actorSessionId ≠ "" then v.actorSessionId else c.actorSessionId
        controllerDevice :=
          if v.controllerDevice ≠ "" then v.controllerDevice else c.controllerDevice
        controllerName := if v.controllerName ≠ "" then v.controllerName else c.controllerName
        controllerLogin := if v.controllerLogin ≠ "" then v.controllerLogin else c.controllerLogin
        targetRustdeskId := v.targetRustdeskId
        connectionType := v.connectionType
        ip := if v.ip ≠ "" then v.ip else c.ip
        transport := if v.transport ≠ "" then v.transport else c.transport
        relayUuid := if v.relayUuid ≠ "" then v.relayUuid else c.relayUuid
        relayServer := if v.relayServer ≠ "" then v.relayServer else c.relayServer
        startedAt := if v.startedAt < c.startedAt then v.startedAt else c.startedAt
        lastSeenAt := if c.lastSeenAt < v.lastSeenAt then v.lastSeenAt else c.lastSeenAt
        closedAt := if v.closedAt.isSome then v.closedAt else c.closedAt } }

end RemoteControl.Api
