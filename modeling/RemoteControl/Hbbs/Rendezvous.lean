import Mathlib.Data.String.Basic
import RemoteControl.Lib.Run
import RemoteControl.Sync.Policy

/-!
# The rendezvous server

HBBS tells the two ends of a connection about each other. A device says where it can be
reached, with `RegisterPeer` and `RegisterPk`; a controller asks for it, with
`PunchHoleRequest` or `RequestRelay`, and is given the address while the device is given
the controller's. Registrations come over UDP and TCP, requests over TCP and WebSocket.

What the server knows of a device is one entry of the registry, and each registration
replaces its address:

> only `RegisterPk` passes the gate; `RegisterPeer` carries no key and passes none.

Addresses stand in the messages as they are, not in their encoding on the wire. A
request for a relay waits for the API twice before it is answered, and goes on with
the entry that it found at first.
-/

namespace RemoteControl.Hbbs

open Lib Sync

structure SocketAddr where
  ip : String
  port : UInt16
deriving DecidableEq, Repr

abbrev Bytes := List UInt8

/-! ## Messages -/

inductive RegisterPkResult
  | ok | notDeployed
deriving DecidableEq, Repr

inductive PunchFailure
  | idNotExist
deriving DecidableEq, Repr

structure PunchHoleRequest where
  id : String
  natType : Int32
  connType : Int32
  token : String
  udpPort : Int32
  forceRelay : Bool
  upnpPort : Int32
  socketAddrV6 : Bytes
deriving DecidableEq, Repr

structure RequestRelay where
  id : String
  uuid : String
  socketAddr : Option SocketAddr
  relayServer : String
  secure : Bool
  licenceKey : String
  connType : Int32
  token : String
  switchCode : String
deriving DecidableEq, Repr

structure PunchHole where
  socketAddr : SocketAddr
  relayServer : String
  natType : Int32
  udpPort : Int32
  forceRelay : Bool
  upnpPort : Int32
  socketAddrV6 : Bytes
deriving DecidableEq, Repr

/-- An absent address is empty on the wire. -/
structure PunchHoleResponse where
  socketAddr : Option SocketAddr := none
  pk : Bytes := []
  failure : PunchFailure := .idNotExist
  relayServer : String := ""
  otherFailure : String := ""
deriving DecidableEq, Repr

structure RelayResponse where
  socketAddr : Option SocketAddr := none
  uuid : String := ""
  relayServer : String := ""
  pk : Option Bytes := none
  refuseReason : String := ""
deriving DecidableEq, Repr

inductive RendezvousMessage
  | registerPeer (id : String)
  | registerPeerResponse (requestPk : Bool)
  | registerPk (id : String) (uuid pk : Bytes)
  | registerPkResponse (result : RegisterPkResult) (keepAlive : Int32)
  | punchHoleRequest (request : PunchHoleRequest)
  | punchHole (instruction : PunchHole)
  | punchHoleResponse (response : PunchHoleResponse)
  | requestRelay (request : RequestRelay)
  | relayResponse (response : RelayResponse)
  | testNatRequest
  | testNatResponse (port : Int32)
deriving DecidableEq, Repr

/-! ## The registry -/

structure Peer where
  id : String
  address : SocketAddr
  publicKey : Bytes
  lastSeen : Nat
deriving DecidableEq, Repr

/-- `PeerRegistry::register`; without a key the entry keeps the one it has. -/
def register (now : Nat) (id : String) (address : SocketAddr) (publicKey : Option Bytes)
    (peers : Table Peer.id) : Table Peer.id :=
  let existingKey := ((peers.get? id).map Peer.publicKey).getD []
  peers.put ⟨id, address, publicKey.getD existingKey, now⟩

/-- `PeerRegistry::get`; an entry counts for three minutes. -/
def lookup (now : Nat) (id : String) (peers : Table Peer.id) : Option Peer :=
  (peers.get? id).filter fun peer => (now - peer.lastSeen) / 1000 < 180

/-! ## The gate -/

/-- What HBBS was started with, and what it takes from its libraries. -/
structure Options where
  clock : Clock
  verifier : Verifier
  requireLogin : Bool
  requireDeviceDeployment : Bool
  relayServer : String
  /-- `STANDARD.encode`. -/
  base64 : Bytes → String
  /-- `crypto_sign` of an id and a key. -/
  sign : String → Bytes → Bytes

structure GateDecision where
  forceRelay : Bool
  userId : String
  sessionId : String
  controllerDeviceId : String
deriving DecidableEq, Repr

def authMessage : AuthError → String
  | .loginRequired => "Для подключения необходимо войти в аккаунт RustDesk"
  | .invalidToken => "Connection denied: invalid token"
  | .sessionExpired => "Connection denied: session expired"
  | .sessionRevoked => "Connection denied: session revoked"
  | .userDisabled => "Connection denied: user disabled"
  | .approvalPending => "Ваша учётная запись ожидает подтверждения администратора"
  | .approvalRejected => "Учётная запись отклонена администратором"
  | .forceRelogin => "Connection denied: force re-login required"

def policyMessage : PolicyError → String
  | .accessDenied => "Connection denied: access is not permitted by policy"
  | .strategyDenied => "Connection denied: connection type is disabled by strategy"

/-- `AuthCache::require_device_deployment`. -/
def Options.deploymentRequired (o : Options) (cache : CacheState) : Bool :=
  cache.requireDeviceDeployment.getD o.requireDeviceDeployment

/-- `AuthCache::device_registration_allowed`. -/
def deviceDeployed (id publicKey : String) (cache : CacheState) : Bool :=
  (cache.devices.get? id).any fun device =>
    device.deployed && device.publicKey ≠ "" && device.publicKey = publicKey

def Options.deviceRegistrationAllowed (o : Options) (id publicKey : String)
    (cache : CacheState) : Bool :=
  !o.deploymentRequired cache || deviceDeployed id publicKey cache

/-- `ConnectionGate::authorize`. The clock of the tokens counts seconds. -/
def Options.authorize (o : Options) (now : Nat) (token target : String) (connectionType : Int32)
    (cache : CacheState) : Except String GateDecision :=
  match cache.authorize o.clock o.verifier o.requireLogin (now / 1000) (some token) with
  | .error err => .error (authMessage err)
  | .ok none => .ok ⟨false, "", "", ""⟩
  | .ok (some decision) =>
    match cache.authorizePolicy decision target connectionType with
    | .error err => .error (policyMessage err)
    | .ok forceRelay =>
      .ok ⟨forceRelay, decision.userId, decision.sessionId, decision.controllerDeviceId⟩

def formatRelayAddress (hostname : String) (port : UInt16) : String :=
  if hostname.contains ':' && !hostname.startsWith "[" then
    "[" ++ hostname ++ "]:" ++ toString port.toNat
  else hostname ++ ":" ++ toString port.toNat

/-- `AuthCache::select_relay`: the healthy relay with the fewest connections. -/
def selectRelay (cache : CacheState) : Option String :=
  let healthy := cache.relayServers.rows.filter fun v => v.enabled && v.health = "healthy"
  let rank (v : RelayState) : ℤ ×ₗ ℤ ×ₗ String :=
    toLex (v.connections.toInt, toLex (v.latencyMs.toInt, v.id))
  (sortByKey rank healthy).head?.map fun v => formatRelayAddress v.hostname v.port

/-- `sign_peer_key`; a key of another length is not signed. -/
def Options.signPeerKey (o : Options) (id : String) (peerPublicKey : Bytes) : Bytes :=
  if peerPublicKey.length ≠ 32 then [] else o.sign id peerPublicKey

/-! ## The server -/

/-- A message that the server sends. The id is that of the device it is about, which only the
proofs look at. -/
structure Sent where
  about : String
  receiver : SocketAddr
  message : RendezvousMessage

/-- Where a message sends somebody to reach the device: the address that a controller is given
for it, or the one to which a controller's request is forwarded. -/
def Sent.addresses (x : Sent) : List SocketAddr := match x.message with
  | .punchHoleResponse response => response.socketAddr.toList
  | .relayResponse response => response.socketAddr.toList
  | .punchHole _ | .requestRelay _ => [x.receiver]
  | _ => []

/-- A key registration that was let in, and the device that the cache had for the id. -/
structure KeyRegistration where
  id : String
  address : SocketAddr
  publicKey : Bytes
  device : Option DeviceState

/-- A request for a relay that waits for the API, with the entry that it has found. -/
structure PendingRelay where
  controller : SocketAddr
  request : RequestRelay
  target : Peer

structure Server where
  cache : CacheState
  registry : Table Peer.id
  relaying : List PendingRelay
  sent : List Sent
  /-- The key registrations that were let in, for the proofs. -/
  accepted : List KeyRegistration

def Server.start (cache : CacheState) : Server := ⟨cache, .empty, [], [], []⟩

namespace Server

def send (s : Server) (xs : List Sent) : Server := { s with sent := s.sent ++ xs }

/-- `RegisterPeer`, the same over UDP and TCP. -/
def registerPeer (now : Nat) (address : SocketAddr) (id : String) (s : Server) : Server :=
  { s with registry := register now id address none s.registry }.send
    [⟨id, address, .registerPeerResponse true⟩]

/-- `RegisterPk`, the same over UDP and TCP. -/
def registerPk (o : Options) (now : Nat) (address : SocketAddr) (id : String) (pk : Bytes)
    (s : Server) : Server :=
  if !o.deviceRegistrationAllowed id (o.base64 pk) s.cache then
    s.send [⟨id, address, .registerPkResponse .notDeployed 120000⟩]
  else
    { s with
      registry := register now id address (some pk) s.registry
      accepted := ⟨id, address, pk, s.cache.devices.get? id⟩ :: s.accepted }.send
      [⟨id, address, .registerPkResponse .ok 120000⟩]

def testNat (address : SocketAddr) (s : Server) : Server :=
  s.send [⟨"", address, .testNatResponse address.port.toNat.toInt32⟩]

/-- `process_punch`: the device is told about the controller, and then the controller about
the device. -/
def processPunch (o : Options) (now : Nat) (controller : SocketAddr) (request : PunchHoleRequest)
    (s : Server) : Server :=
  match lookup now request.id s.registry with
  | none => s.send [⟨request.id, controller, .punchHoleResponse { failure := .idNotExist }⟩]
  | some target =>
    let relayServer := (selectRelay s.cache).getD o.relayServer
    s.send [
      ⟨request.id, target.address, .punchHole {
        socketAddr := controller
        relayServer
        natType := request.natType
        udpPort := request.udpPort
        forceRelay := request.forceRelay
        upnpPort := request.upnpPort
        socketAddrV6 := request.socketAddrV6 }⟩,
      ⟨request.id, controller, .punchHoleResponse {
        socketAddr := some target.address
        pk := o.signPeerKey request.id target.publicKey
        relayServer }⟩]

def punchHoleRequest (o : Options) (now : Nat) (address : SocketAddr) (request : PunchHoleRequest)
    (s : Server) : Server :=
  match o.authorize now request.token request.id request.connType s.cache with
  | .error reason =>
    s.send [⟨request.id, address, .punchHoleResponse { otherFailure := reason }⟩]
  | .ok decision =>
    s.processPunch o now address
      { request with forceRelay := request.forceRelay || decision.forceRelay }

/-- `process_relay` up to the first call of the API; `newUuid` is for a request that has none. -/
def requestRelay (o : Options) (now : Nat) (address : SocketAddr) (newUuid : String)
    (request : RequestRelay) (s : Server) : Server :=
  match o.authorize now request.token request.id request.connType s.cache with
  | .error reason => s.send [⟨request.id, address, .relayResponse { refuseReason := reason }⟩]
  | .ok _ =>
    match lookup now request.id s.registry with
    | none =>
      s.send [⟨request.id, address,
        .relayResponse { refuseReason := "Connection denied: target offline" }⟩]
    | some target =>
      let request := { request with uuid := if request.uuid = "" then newUuid else request.uuid }
      { s with relaying := ⟨address, request, target⟩ :: s.relaying }

/-- What the API answers to `select_control_ready_relay` and `issue_relay_permit`. -/
inductive Assignment
  | unavailable
  | unauthorized
  | assigned (relayServer : String)

/-- The rest of `process_relay`. -/
def finishRelay (o : Options) (p : PendingRelay) : Assignment → List Sent
  | .unavailable =>
    [⟨p.request.id, p.controller,
      .relayResponse { refuseReason := "Relay temporarily unavailable" }⟩]
  | .unauthorized =>
    [⟨p.request.id, p.controller,
      .relayResponse { refuseReason := "Relay authorization unavailable" }⟩]
  | .assigned relayServer =>
    [⟨p.request.id, p.target.address, .requestRelay { p.request with
        socketAddr := some p.controller, relayServer, token := "" }⟩,
      ⟨p.request.id, p.controller, .relayResponse {
        socketAddr := some p.target.address
        uuid := p.request.uuid
        relayServer
        pk := some (o.signPeerKey p.request.id p.target.publicKey) }⟩]

/-! ## Transports -/

def runUdp (o : Options) (now : Nat) (address : SocketAddr) (message : RendezvousMessage)
    (s : Server) : Server :=
  match message with
  | .registerPeer id => s.registerPeer now address id
  | .registerPk id _ pk => s.registerPk o now address id pk
  | .testNatRequest => s.testNat address
  | _ => s

def handleTcp (o : Options) (now : Nat) (address : SocketAddr) (newUuid : String)
    (message : RendezvousMessage) (s : Server) : Server :=
  match message with
  | .punchHoleRequest request => s.punchHoleRequest o now address request
  | .requestRelay request => s.requestRelay o now address newUuid request
  | .registerPeer id => s.registerPeer now address id
  | .registerPk id _ pk => s.registerPk o now address id pk
  | .testNatRequest => s.testNat address
  | _ => s

/-- Nothing is registered over WebSocket. -/
def handleWebsocket (o : Options) (now : Nat) (address : SocketAddr) (newUuid : String)
    (message : RendezvousMessage) (s : Server) : Server :=
  match message with
  | .punchHoleRequest request => s.punchHoleRequest o now address request
  | .requestRelay request => s.requestRelay o now address newUuid request
  | .testNatRequest => s.testNat address
  | _ => s

end Server

/-- What may happen to the server. -/
inductive Event
  | udp (now : Nat) (address : SocketAddr) (message : RendezvousMessage)
  | tcp (now : Nat) (address : SocketAddr) (newUuid : String) (message : RendezvousMessage)
  | websocket (now : Nat) (address : SocketAddr) (newUuid : String) (message : RendezvousMessage)
  /-- The API answers to a request that waits. -/
  | relay (place : Nat) (answer : Server.Assignment)
  /-- The cache is changed, in any way. -/
  | cache (cache : CacheState)

def Server.step (o : Options) (s : Server) : Event → Server
  | .udp now address message => s.runUdp o now address message
  | .tcp now address newUuid message => s.handleTcp o now address newUuid message
  | .websocket now address newUuid message => s.handleWebsocket o now address newUuid message
  | .relay place answer =>
    match s.relaying[place]? with
    | none => s
    | some p =>
      { s with relaying := s.relaying.eraseIdx place }.send (Server.finishRelay o p answer)
  | .cache cache => { s with cache }

end RemoteControl.Hbbs
