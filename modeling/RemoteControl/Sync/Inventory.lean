import RemoteControl.Lib.Run
import RemoteControl.Sync.Handlers
import RemoteControl.Sync.Wire

/-!
# The device inventory

The requests that write a device: heartbeats and system information of the client, the
device part of a login, the report of HBBS, and a deployment. All but the report work
alike. They list the devices, look for theirs, change the record in memory and hand it
to `UpsertDevice`, which inserts it or goes through its columns one by one:

> a deployed row keeps its UUID, but takes over any key and any user that are not empty.

Between the reading and the writing of a request others may do theirs. `Inventory` is
the table with all the requests that have read and not yet written.
-/

namespace RemoteControl.Sync

open Lib

/-! ## The table -/

/-- `CASE WHEN excluded.c = '' THEN devices.c ELSE excluded.c END`. -/
def keepUnlessGiven (old new : String) : String := if new = "" then old else new

/-- `ON CONFLICT(rustdesk_id) DO UPDATE SET …`. -/
def Device.updated (row excluded : Device) : Device :=
  { row with
    clientUuid := if row.deployed then row.clientUuid else excluded.clientUuid
    hostname := keepUnlessGiven row.hostname excluded.hostname
    platform := keepUnlessGiven row.platform excluded.platform
    version := keepUnlessGiven row.version excluded.version
    cpu := keepUnlessGiven row.cpu excluded.cpu
    memory := keepUnlessGiven row.memory excluded.memory
    username := keepUnlessGiven row.username excluded.username
    lastSeenIp := keepUnlessGiven row.lastSeenIp excluded.lastSeenIp
    online := excluded.online
    lastSeen := excluded.lastSeen
    ownerUserId := keepUnlessGiven row.ownerUserId excluded.ownerUserId
    publicKey := keepUnlessGiven row.publicKey excluded.publicKey
    deployed := row.deployed || excluded.deployed
    deployedBy := keepUnlessGiven row.deployedBy excluded.deployedBy
    deployedAt := if excluded.deployedAt = 0 then row.deployedAt else excluded.deployedAt }

/-- The row that `UpsertDevice` leaves. A new one is not archived. -/
def Device.upserted (device : Device) : Option Device → Device
  | none => { device with tags := some (device.tags.getD []), archivedAt := none }
  | some row => row.updated device

def upsertDevice (device : Device) (devices : Table Device.rustdeskId) : Table Device.rustdeskId :=
  devices.put (device.upserted (devices.get? device.rustdeskId))

/-- A row as `ListDevices` returns it. -/
def Device.listed (now onlineTtl : Nat) (d : Device) : Device :=
  { d with online := now - d.lastSeen < onlineTtl, tags := some (d.tags.getD []) }

/-- `domain.Device{}`. -/
def Device.zero : Device where
  rustdeskId := ""
  clientUuid := ""
  hostname := ""
  deviceAlias := ""
  platform := ""
  version := ""
  cpu := ""
  memory := ""
  username := ""
  lastSeenIp := ""
  online := false
  lastSeen := 0
  ownerUserId := ""
  groupId := ""
  tags := none
  publicKey := ""
  deployed := false
  deployedBy := ""
  deployedAt := 0
  createdAt := 0
  archivedAt := none

/-! ## Requests -/

/-- What `deployDevice` asks of the token that it finds. -/
structure ApiToken where
  userId : String
  scopes : List String
  expiresAt : Nat
  revokedAt : Option Nat

structure Reply where
  status : Nat
  body : String
deriving DecidableEq, Repr

/-- Functions of the standard library on texts: `strings.TrimSpace`, and the length of what
`base64.StdEncoding` decodes. -/
structure Texts where
  trimSpace : String → String
  keyLength : String → Option Nat
  keyLength_empty : keyLength "" = some 0

/-- A request, with the results of the lookups that come before the device is read: the token
and its user for a deployment, the user who has logged in. -/
inductive DeviceRequest
  | heartbeat (id uuid ip : String)
  | sysinfo (id uuid ip hostname os version cpu memory username : String)
  | login (id uuid ip name os userId : String)
  | report (id uuid ip : String)
  | deploy (secret : String) (token : Option ApiToken) (user : Option User) (id uuid pk : String)

/-- The second result of `inventoryDevice`: the device is known under another UUID. -/
def mismatch (uuid : String) : Option Device → Bool
  | none => false
  | some d => d.clientUuid ≠ "" && d.clientUuid ≠ uuid

def Texts.validInventoryIdentity (t : Texts) (id uuid : String) : Bool :=
  t.trimSpace id ≠ "" && t.trimSpace uuid ≠ "" && (t.trimSpace id).utf8ByteSize ≤ 64
    && (t.trimSpace uuid).utf8ByteSize ≤ 512

def Device.createdBy (now : Nat) (d : Device) : Device :=
  if d.createdAt = 0 then { d with createdAt := now } else d

namespace Texts

variable (t : Texts) (now : Nat) (found : Option Device)

/-- `clientHeartbeat` up to the write. -/
def clientHeartbeat (id uuid ip : String) : Except Reply Device :=
  if !t.validInventoryIdentity id uuid then .error ⟨400, "invalid device heartbeat"⟩
  else
    let device := found.getD Device.zero
    if mismatch uuid found && device.deployed then .error ⟨403, "device identity mismatch"⟩
    else .ok (Device.createdBy now { device with
      rustdeskId := id, clientUuid := uuid, online := true, lastSeen := now, lastSeenIp := ip })

/-- `clientSysinfo` up to the write. -/
def clientSysinfo (id uuid ip hostname os version cpu memory username : String) :
    Except Reply Device :=
  if !t.validInventoryIdentity id uuid || 512 < hostname.utf8ByteSize || 256 < os.utf8ByteSize
      || 512 < username.utf8ByteSize || 128 < version.utf8ByteSize || 2048 < cpu.utf8ByteSize
      || 512 < memory.utf8ByteSize then .error ⟨400, "invalid device sysinfo"⟩
  else
    let device := found.getD Device.zero
    if mismatch uuid found && device.deployed then .error ⟨200, "ID_NOT_FOUND"⟩
    else .ok (Device.createdBy now { device with
      rustdeskId := id
      clientUuid := uuid
      hostname := t.trimSpace hostname
      platform := t.trimSpace os
      version := t.trimSpace version
      cpu := t.trimSpace cpu
      memory := t.trimSpace memory
      username := t.trimSpace username
      lastSeenIp := ip
      online := true
      lastSeen := now })

/-- What `login` and `oidcAuthQuery` do about the client's device; a mismatch is only noted. -/
def loginDevice (id uuid ip name os userId : String) : Option Device :=
  let device := found.getD Device.zero
  if id = "" || mismatch uuid found then none
  else some (Device.createdBy now { device with
    rustdeskId := id
    clientUuid := uuid
    hostname := if device.hostname = "" then name else device.hostname
    platform := if device.platform = "" then os else device.platform
    online := true
    lastSeen := now
    lastSeenIp := ip
    ownerUserId := userId })

/-- `deviceHeartbeat`, which reads nothing. The address has been parsed. -/
def deviceHeartbeat (id uuid ip : String) : Except Reply Device :=
  let id := t.trimSpace id
  if id.utf8ByteSize < 3 || 64 < id.utf8ByteSize || 256 < uuid.utf8ByteSize then
    .error ⟨400, "invalid device heartbeat"⟩
  else .ok { Device.zero with
    rustdeskId := id
    clientUuid := uuid
    online := true
    lastSeenIp := t.trimSpace ip
    lastSeen := now
    createdAt := now }

def deployScope : String := "devices:deploy"

/-- `deployDevice` up to the write. -/
def deployDevice (secret : String) (token : Option ApiToken) (user : Option User)
    (id uuid pk : String) : Except Reply Device :=
  if secret = "" || !token.any (fun k => k.revokedAt.isNone && now < k.expiresAt
      && deployScope ∈ k.scopes) then .error ⟨401, "INVALID_TOKEN"⟩
  else
    match user.filter fun u => u.enabled && u.approvalStatus = "approved" with
    | none => .error ⟨403, "INVALID_TOKEN"⟩
    | some user =>
      let id := t.trimSpace id
      let uuid := t.trimSpace uuid
      let pk := t.trimSpace pk
      if id.utf8ByteSize < 3 || 64 < id.utf8ByteSize || uuid = "" || 512 < uuid.utf8ByteSize
          || t.keyLength pk ≠ some 32 then .error ⟨200, "INVALID_INPUT"⟩
      else if mismatch uuid found then .error ⟨200, "ID_TAKEN"⟩
      else
        let device := found.getD Device.zero
        .ok (Device.createdBy now { device with
          rustdeskId := id
          clientUuid := uuid
          publicKey := pk
          deployed := true
          deployedBy := user.id
          deployedAt := now
          ownerUserId := if device.ownerUserId = "" then user.id else device.ownerUserId })

end Texts

namespace DeviceRequest

/-- The device that the request looks for. -/
def id (t : Texts) : DeviceRequest → String
  | heartbeat id _ _ | sysinfo id .. | login id .. => id
  | report id _ _ | deploy _ _ _ id _ _ => t.trimSpace id

def uuid (t : Texts) : DeviceRequest → String
  | heartbeat _ uuid _ | sysinfo _ uuid .. | login _ uuid .. | report _ uuid _ => uuid
  | deploy _ _ _ _ uuid _ => t.trimSpace uuid

def deploys : DeviceRequest → Bool
  | deploy .. => true
  | _ => false

/-- The record that the request goes on to write, if it is not answered before. -/
def prepare (t : Texts) (now : Nat) (found : Option Device) : DeviceRequest → Option Device
  | heartbeat id uuid ip => (t.clientHeartbeat now found id uuid ip).toOption
  | sysinfo id uuid ip hostname os version cpu memory username =>
    (t.clientSysinfo now found id uuid ip hostname os version cpu memory username).toOption
  | login id uuid ip name os userId => Texts.loginDevice now found id uuid ip name os userId
  | report id uuid ip => (t.deviceHeartbeat now id uuid ip).toOption
  | deploy secret token user id uuid pk =>
    (t.deployDevice now found secret token user id uuid pk).toOption

end DeviceRequest

/-! ## Requests in progress -/

/-- A request that has read the device, and the record it is going to write. -/
structure PendingWrite where
  request : DeviceRequest
  device : Device

/-- A deployment that was answered with `OK`, and what it presented. -/
structure Deployment where
  id : String
  uuid : String
  publicKey : String
  userId : String
deriving DecidableEq, Repr

structure Inventory where
  devices : Table Device.rustdeskId
  pending : List PendingWrite
  deployments : List Deployment
  /-- What deployments have published, each with the row that the same deployment stored. -/
  published : List (Device × Device)

namespace Inventory

/-- Nothing is deployed yet. -/
def Start (w : Inventory) : Prop :=
  (∀ d ∈ w.devices.rows, d.deployed = false ∧ d.publicKey = "" ∧ d.deployedBy = "") ∧
    w.pending = [] ∧ w.deployments = [] ∧ w.published = []

/-- The row that a request leaves. -/
def stored (w : Inventory) (p : PendingWrite) : Device :=
  p.device.upserted (w.devices.get? p.device.rustdeskId)

/-- `UpsertDevice`, and for a deployment the event and the answer. -/
def write (w : Inventory) (p : PendingWrite) : Inventory :=
  let e := p.device
  { w with
    devices := upsertDevice e w.devices
    deployments :=
      if p.request.deploys then
        ⟨e.rustdeskId, e.clientUuid, e.publicKey, e.deployedBy⟩ :: w.deployments
      else w.deployments
    published := if p.request.deploys then (e, w.stored p) :: w.published else w.published }

end Inventory

/-- A request reads, or one that has read writes; the label says which one writes. The ids of
users are UUIDs. -/
inductive InventoryStep (t : Texts) : Inventory → Option PendingWrite → Inventory → Prop
  | receive {w : Inventory} (r : DeviceRequest) (now onlineTtl : Nat) {e : Device} :
      r.prepare t now ((w.devices.get? (r.id t)).map (Device.listed now onlineTtl)) = some e →
      (∀ secret token user id uuid pk, r = .deploy secret token (some user) id uuid pk →
        user.id ≠ "") →
      InventoryStep t w none { w with pending := ⟨r, e⟩ :: w.pending }
  | write {w : Inventory} (ps ps' : List PendingWrite) {p : PendingWrite} :
      w.pending = ps ++ p :: ps' →
      InventoryStep t w (some p) { w.write p with pending := ps ++ ps' }

end RemoteControl.Sync
