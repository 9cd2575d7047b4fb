import RemoteControl.Hbbs.Rendezvous
import RemoteControl.Sync.MirrorAdmin

/-!
# Whose address is handed out

Where device deployment is required, a key registration is let in only with the key that
the cache has for the deployed device, and so its address is vouched for. The registry
is the only source of the addresses that leave the server:

> if every entry of the registry is vouched for, everything that is handed out is.

`RegisterPeer` writes to the registry as well, from any address and without a key. The
invariant is kept as long as those messages come from addresses that a key registration
of the same device came from; a single one that does not is handed out to the next
controller. Whatever is handed out, only to controllers that the gate has let in.
-/

namespace RemoteControl.Hbbs

open Lib Sync List Table

/-- A key registration with the key of the deployed device. -/
def KeyRegistration.Keyed (o : Options) (r : KeyRegistration) : Prop :=
  ∃ device, r.device = some device ∧ device.deployed = true ∧ device.publicKey ≠ "" ∧
    device.publicKey = o.base64 r.publicKey

namespace Server

/-- A key registration for the id was let in from the address. -/
def Vouched (o : Options) (s : Server) (id : String) (address : SocketAddr) : Prop :=
  ∃ r ∈ s.accepted, r.id = id ∧ r.address = address ∧ r.Keyed o

structure Inv (o : Options) (s : Server) : Prop where
  registry : ∀ peer ∈ s.registry.rows, s.Vouched o peer.id peer.address
  relaying : ∀ p ∈ s.relaying, s.Vouched o p.request.id p.target.address
  sent : ∀ x ∈ s.sent, ∀ a ∈ x.addresses, s.Vouched o x.about a

variable {o : Options} {s : Server} {now : Nat} {id : String} {address : SocketAddr}

theorem inv_start (cache : CacheState) : (start cache).Inv o where
  registry _ h := by cases h
  relaying _ h := by cases h
  sent _ h := by cases h

section

variable (h : s.Inv o)

include h

/-- More is vouched for with every registration. -/
theorem Inv.accept (r : KeyRegistration) :
    ({ s with accepted := r :: s.accepted } : Server).Inv o := by
  have hmore : ∀ {id address}, s.Vouched o id address →
      ({ s with accepted := r :: s.accepted } : Server).Vouched o id address := by
    rintro id address ⟨r', hr', hkeyed⟩
    exact ⟨r', mem_cons_of_mem _ hr', hkeyed⟩
  exact ⟨fun peer hp => hmore (h.registry peer hp), fun p hp => hmore (h.relaying p hp),
    fun x hx a ha => hmore (h.sent x hx a ha)⟩

theorem Inv.send {xs : List Sent} (hxs : ∀ x ∈ xs, ∀ a ∈ x.addresses, s.Vouched o x.about a) :
    (s.send xs).Inv o :=
  ⟨h.registry, h.relaying, fun x hx => (mem_append.mp hx).elim (h.sent x) (hxs x)⟩

/-- A message that names no address of a device. -/
theorem Inv.tell {x : Sent} (hx : x.addresses = []) : (s.send [x]).Inv o := by
  refine h.send fun y hy a ha => ?_
  obtain rfl := mem_singleton.mp hy
  rw [hx] at ha
  cases ha

theorem Inv.register (hv : s.Vouched o id address) (publicKey : Option Bytes) :
    ({ s with registry := register now id address publicKey s.registry } : Server).Inv o := by
  refine ⟨fun peer hp => ?_, h.relaying, h.sent⟩
  have hget := get?_of_mem hp
  unfold Hbbs.register at hget
  rw [get?_put] at hget
  split at hget
  next =>
    cases hget
    exact hv
  next => exact h.registry peer (mem_of_get? hget)

theorem Inv.lookup {peer : Peer} (hl : lookup now id s.registry = some peer) :
    s.Vouched o id peer.address := by
  obtain ⟨hget, -⟩ := Option.filter_eq_some_iff.mp hl
  have hid : peer.id = id := get?_key hget
  exact hid ▸ h.registry peer (mem_of_get? hget)

/-! ## Messages -/

theorem Inv.registerPeer (hv : s.Vouched o id address) : (s.registerPeer now address id).Inv o :=
  (h.register hv none).tell rfl

omit h in
/-- What the gate lets in when deployment is required. -/
theorem keyed_of_allowed {pk : Bytes} (hrequired : o.deploymentRequired s.cache = true)
    (hallowed : o.deviceRegistrationAllowed id (o.base64 pk) s.cache = true) :
    KeyRegistration.Keyed o ⟨id, address, pk, s.cache.devices.get? id⟩ := by
  rw [Options.deviceRegistrationAllowed, hrequired, Bool.not_true, Bool.false_or, deviceDeployed,
    Option.any_eq_true] at hallowed
  obtain ⟨device, hdevice, hkey⟩ := hallowed
  simp only [Bool.and_eq_true, decide_eq_true_eq] at hkey
  obtain ⟨⟨hdeployed, hne⟩, hsame⟩ := hkey
  exact ⟨device, hdevice, hdeployed, hne, hsame⟩

theorem Inv.registerPk (hrequired : o.deploymentRequired s.cache = true) (pk : Bytes) :
    (s.registerPk o now address id pk).Inv o := by
  unfold Server.registerPk
  cases hallowed : o.deviceRegistrationAllowed id (o.base64 pk) s.cache with
  | false => exact h.tell rfl
  | true =>
    have hkeyed : KeyRegistration.Keyed o ⟨id, address, pk, s.cache.devices.get? id⟩ :=
      keyed_of_allowed hrequired hallowed
    exact ((h.accept _).register ⟨_, mem_cons_self, rfl, rfl, hkeyed⟩ (some pk)).tell rfl

theorem Inv.processPunch (controller : SocketAddr) (request : PunchHoleRequest) :
    (s.processPunch o now controller request).Inv o := by
  unfold Server.processPunch
  split
  next => exact h.tell rfl
  next target hl =>
    -- both messages name the address of the entry
    refine h.send fun x hx a ha => ?_
    have hv := h.lookup hl
    rcases mem_cons.mp hx with rfl | hx
    · obtain rfl := mem_singleton.mp ha
      exact hv
    · obtain rfl := mem_singleton.mp hx
      obtain rfl := mem_singleton.mp ha
      exact hv

theorem Inv.punchHoleRequest (controller : SocketAddr) (request : PunchHoleRequest) :
    (s.punchHoleRequest o now controller request).Inv o := by
  unfold Server.punchHoleRequest
  split
  next => exact h.tell rfl
  next => exact h.processPunch controller _

theorem Inv.requestRelay (controller : SocketAddr) (newUuid : String) (request : RequestRelay) :
    (s.requestRelay o now controller newUuid request).Inv o := by
  unfold Server.requestRelay
  split
  next => exact h.tell rfl
  next =>
    split
    next => exact h.tell rfl
    next target hl =>
      refine ⟨h.registry, fun p hp => ?_, h.sent⟩
      rcases mem_cons.mp hp with rfl | hp
      · exact h.lookup hl
      · exact h.relaying p hp

theorem Inv.finishRelay {p : PendingRelay} (hv : s.Vouched o p.request.id p.target.address)
    (answer : Assignment) : (s.send (finishRelay o p answer)).Inv o := by
  cases answer with
  | unavailable => exact h.tell rfl
  | unauthorized => exact h.tell rfl
  | assigned relayServer =>
    refine h.send fun x hx a ha => ?_
    rcases mem_cons.mp hx with rfl | hx
    · obtain rfl := mem_singleton.mp ha
      exact hv
    · obtain rfl := mem_singleton.mp hx
      obtain rfl := mem_singleton.mp ha
      exact hv

end

end Server

/-! ## Runs -/

def Event.registerPeer? : Event → Option (String × SocketAddr)
  | .udp _ address (.registerPeer id) | .tcp _ address _ (.registerPeer id) => some (id, address)
  | _ => none

def RequiredStep (o : Options) (s : Server) (e : Event) (t : Server) : Prop :=
  o.deploymentRequired s.cache = true ∧ s.step o e = t

/-- A step whose `RegisterPeer`, if it is one, comes from an address that a key registration
of the device came from. -/
def VouchedStep (o : Options) (s : Server) (e : Event) (t : Server) : Prop :=
  RequiredStep o s e t ∧ ∀ p ∈ e.registerPeer?, s.Vouched o p.1 p.2

theorem Server.Inv.step {o : Options} {s t : Server} {e : Event} (h : s.Inv o)
    (hs : VouchedStep o s e t) : t.Inv o := by
  obtain ⟨⟨hrequired, rfl⟩, hv⟩ := hs
  cases e with
  | udp now address message =>
    cases message with
    | registerPeer id => exact h.registerPeer (hv _ rfl)
    | registerPk id uuid pk => exact h.registerPk hrequired pk
    | testNatRequest => exact h.tell rfl
    | _ => exact h
  | tcp now address newUuid message =>
    cases message with
    | punchHoleRequest request => exact h.punchHoleRequest address request
    | requestRelay request => exact h.requestRelay address newUuid request
    | registerPeer id => exact h.registerPeer (hv _ rfl)
    | registerPk id uuid pk => exact h.registerPk hrequired pk
    | testNatRequest => exact h.tell rfl
    | _ => exact h
  | websocket now address newUuid message =>
    cases message with
    | punchHoleRequest request => exact h.punchHoleRequest address request
    | requestRelay request => exact h.requestRelay address newUuid request
    | testNatRequest => exact h.tell rfl
    | _ => exact h
  | relay place answer =>
    simp only [Server.step]
    split
    next => exact h
    next p hp =>
      have hrest : ({ s with relaying := s.relaying.eraseIdx place } : Server).Inv o :=
        ⟨h.registry, fun q hq => h.relaying q (mem_of_mem_eraseIdx hq), h.sent⟩
      exact hrest.finishRelay (h.relaying p (mem_of_getElem? hp)) answer
  | cache cache => exact ⟨h.registry, h.relaying, h.sent⟩

/-- The two transports that register. -/
def Event.overUdpOrTcp (now : Nat) (address : SocketAddr) (message : RendezvousMessage)
    (e : Event) : Prop :=
  e = .udp now address message ∨ ∃ newUuid, e = .tcp now address newUuid message

theorem step_registerPeer {o : Options} {s : Server} {e : Event} {now : Nat}
    {address : SocketAddr} {id : String} (he : e.overUdpOrTcp now address (.registerPeer id)) :
    s.step o e = s.registerPeer now address id := by
  rcases he with rfl | ⟨newUuid, rfl⟩ <;> rfl

/-- A device that has just registered is found. -/
theorem lookup_register {now later : Nat} (id : String) (address : SocketAddr)
    (publicKey : Option Bytes) (peers : Table Peer.id) (hsoon : (later - now) / 1000 < 180) :
    ∃ peer, lookup later id (register now id address publicKey peers) = some peer ∧
      peer.address = address := by
  refine ⟨_, Option.filter_eq_some_iff.mpr ⟨get?_put_self _ _, ?_⟩, rfl⟩
  exact decide_eq_true hsoon

/-- An authorised controller is told what was registered last, whoever it was. -/
theorem punch_after_registerPeer {o : Options} {s : Server} {now later : Nat}
    {request : PunchHoleRequest} {d : GateDecision} (address controller : SocketAddr)
    (hsoon : (later - now) / 1000 < 180)
    (hauth : o.authorize later request.token request.id request.connType s.cache = .ok d) :
    let t := (s.registerPeer now address request.id).punchHoleRequest o later controller request
    t.accepted = s.accepted ∧ ∃ x ∈ t.sent, x.about = request.id ∧ address ∈ x.addresses := by
  obtain ⟨peer, hpeer, rfl⟩ := lookup_register request.id address none s.registry hsoon
  have hauth' : o.authorize later request.token request.id request.connType
      (s.registerPeer now peer.address request.id).cache = .ok d := hauth
  have hpeer' : lookup later request.id (s.registerPeer now peer.address request.id).registry
      = some peer := hpeer
  intro t
  have ht : t = (s.registerPeer now peer.address request.id).processPunch o later controller
      { request with forceRelay := request.forceRelay || d.forceRelay } := by
    show Server.punchHoleRequest _ _ _ _ _ = _
    unfold Server.punchHoleRequest
    rw [hauth']
  rw [ht]
  unfold Server.processPunch
  rw [hpeer']
  refine ⟨rfl, _, mem_append_right _ mem_cons_self, rfl, ?_⟩
  exact mem_singleton.mpr rfl

/-- **What is handed out is as good as the registrations without a key.** While deployment is
required: if each `RegisterPeer` comes from an address from which a key registration of the
device was let in, so does every address that is handed out or forwarded to. And after a
single `RegisterPeer` from another address, that address is handed out to the first
authorised controller that asks within three minutes. -/
theorem handed_out_vouched_iff (o : Options) :
    (∀ s, Reachable (fun s => ∃ cache, s = Server.start cache) (VouchedStep o) s →
      ∀ x ∈ s.sent, ∀ a ∈ x.addresses, s.Vouched o x.about a) ∧
    ∀ (s : Server) (e : Event) (now later : Nat) (a controller : SocketAddr) (newUuid : String)
      (request : PunchHoleRequest) (d : GateDecision),
      e.overUdpOrTcp now a (.registerPeer request.id) → ¬ s.Vouched o request.id a →
      (later - now) / 1000 < 180 →
      o.authorize later request.token request.id request.connType s.cache = .ok d →
      let t := (s.step o e).step o (.tcp later controller newUuid (.punchHoleRequest request))
      ∃ x ∈ t.sent, x.about = request.id ∧ a ∈ x.addresses ∧ ¬ t.Vouched o request.id a := by
  refine ⟨fun s h => ?_, ?_⟩
  · have hinv : s.Inv o := by
      refine Reachable.invariant (I := Server.Inv o) (fun s₀ h₀ => ?_)
        (fun _ _ _ => Server.Inv.step) h
      obtain ⟨cache, rfl⟩ := h₀
      exact Server.inv_start cache
    exact hinv.sent
  · intro s e now later a controller newUuid request d he hnot hsoon hauth
    rw [step_registerPeer he]
    obtain ⟨haccepted, x, hx, habout, ha⟩ := punch_after_registerPeer a controller hsoon hauth
    refine ⟨x, hx, habout, ha, ?_⟩
    rintro ⟨r, hr, hkeyed⟩
    exact hnot ⟨r, haccepted ▸ hr, hkeyed⟩

/-! ## A stranger -/

/-- Everyone may connect, but only deployed devices may register. -/
def sampleOptions : Options where
  clock := sampleClock
  verifier := ⟨fun _ => true, fun _ => .error .invalidToken⟩
  requireLogin := false
  requireDeviceDeployment := true
  relayServer := "relay:21117"
  base64 := fun pk => toString pk
  sign := fun _ pk => pk

def deployedCache : CacheState :=
  { CacheState.empty with
    devices := Table.empty.put ⟨"100200300", "uuid-1", toString ([7] : Bytes), true, "", ""⟩ }

def deviceAddress : SocketAddr := ⟨"198.51.100.7", 21116⟩

def strangerAddress : SocketAddr := ⟨"203.0.113.9", 21116⟩

def controllerAddress : SocketAddr := ⟨"192.0.2.5", 40000⟩

def samplePunch : PunchHoleRequest := ⟨"100200300", 0, 0, "", 0, false, 0, []⟩

/-- The device registers its key, and then its address. -/
theorem device_address_handed_out : ∃ s, Reachable (fun s => ∃ cache, s = Server.start cache)
    (VouchedStep sampleOptions) s ∧ ∃ x ∈ s.sent, x.about = "100200300" ∧
      deviceAddress ∈ x.addresses ∧ s.Vouched sampleOptions "100200300" deviceAddress := by
  have hkeyed : KeyRegistration.Keyed sampleOptions
      ⟨"100200300", deviceAddress, [7], deployedCache.devices.get? "100200300"⟩ :=
    ⟨_, rfl, rfl, by decide, rfl⟩
  have hrun : Run (VouchedStep sampleOptions) (Server.start deployedCache) _ _ :=
    .cons (a := .udp 0 deviceAddress (.registerPk "100200300" [] [7]))
      ⟨⟨rfl, rfl⟩, nofun⟩ <|
    .cons (a := .udp 1000 deviceAddress (.registerPeer "100200300"))
      ⟨⟨rfl, rfl⟩, fun _ h => by
        cases h
        exact ⟨_, mem_cons_self, rfl, rfl, hkeyed⟩⟩ <|
    .single (a := .tcp 2000 controllerAddress "" (.punchHoleRequest samplePunch))
      ⟨⟨rfl, rfl⟩, nofun⟩
  have hreach : Reachable (fun s => ∃ cache, s = Server.start cache)
      (VouchedStep sampleOptions) _ := ⟨_, _, ⟨deployedCache, rfl⟩, hrun⟩
  refine ⟨_, hreach, _, mem_append_right _ mem_cons_self, rfl, mem_singleton.mpr rfl, ?_⟩
  exact (handed_out_vouched_iff sampleOptions).1 _ hreach _
    (mem_append_right _ mem_cons_self) _ (mem_singleton.mpr rfl)

/-- **A stranger takes the device's place.** After the device has registered its key, somebody
sends a `RegisterPeer` with its id from another address, and a controller is given that
address. -/
theorem stranger_address_handed_out : ∃ s, Reachable (fun s => ∃ cache, s = Server.start cache)
    (RequiredStep sampleOptions) s ∧ ∃ x ∈ s.sent, x.about = "100200300" ∧
      strangerAddress ∈ x.addresses ∧ ∀ r ∈ s.accepted, r.address ≠ strangerAddress := by
  have hrun : Run (RequiredStep sampleOptions) (Server.start deployedCache) _ _ :=
    .cons (a := .udp 0 deviceAddress (.registerPk "100200300" [] [7])) ⟨rfl, rfl⟩ <|
    .cons (a := .udp 1000 strangerAddress (.registerPeer "100200300")) ⟨rfl, rfl⟩ <|
    .single (a := .tcp 2000 controllerAddress "" (.punchHoleRequest samplePunch)) ⟨rfl, rfl⟩
  refine ⟨_, ⟨_, _, ⟨deployedCache, rfl⟩, hrun⟩, _,
    mem_append_right _ mem_cons_self, rfl, mem_singleton.mpr rfl, fun r hr => ?_⟩
  obtain rfl := mem_singleton.mp hr
  decide

/-! ## To whom it is handed out -/

/-- The controller that a message is for, or tells the device about. -/
def Sent.controller (x : Sent) : Option SocketAddr := match x.message with
  | .punchHole instruction => some instruction.socketAddr
  | .requestRelay request => request.socketAddr
  | _ => some x.receiver

/-- The message asks for the device, and the gate lets it in. -/
def RendezvousMessage.Admitted (o : Options) (now : Nat) (cache : CacheState) (id : String) :
    RendezvousMessage → Prop
  | .punchHoleRequest r => r.id = id ∧ ∃ d, o.authorize now r.token id r.connType cache = .ok d
  | .requestRelay r => r.id = id ∧ ∃ d, o.authorize now r.token id r.connType cache = .ok d
  | _ => False

namespace Server

/-- The event is a request of the controller for the device that the gate lets in. -/
def Admits (o : Options) (s : Server) (id : String) (controller : SocketAddr) : Event → Prop
  | .tcp now a _ m | .websocket now a _ m => a = controller ∧ m.Admitted o now s.cache id
  | _ => False

/-- All that waits or was sent is about a device and a controller that `A` holds of. -/
structure Gated (A : String → SocketAddr → Prop) (s : Server) : Prop where
  relaying : ∀ p ∈ s.relaying, A p.request.id p.controller
  sent : ∀ x ∈ s.sent, x.addresses ≠ [] → ∃ a ∈ x.controller, A x.about a

variable {A : String → SocketAddr → Prop} {o : Options} {s : Server} {now : Nat} {a : SocketAddr}

theorem Gated.send (h : s.Gated A) {xs : List Sent}
    (hxs : ∀ x ∈ xs, x.addresses ≠ [] → ∃ a ∈ x.controller, A x.about a) : (s.send xs).Gated A :=
  ⟨h.relaying, fun x hx => (mem_append.mp hx).elim (h.sent x) (hxs x)⟩

theorem Gated.tell (h : s.Gated A) {x : Sent} (hx : x.addresses = []) : (s.send [x]).Gated A :=
  h.send (by simp [hx])

theorem Gated.registered (h : s.Gated A) (registry : Table Peer.id)
    (accepted : List KeyRegistration) : Gated A { s with registry, accepted } :=
  ⟨h.relaying, h.sent⟩

theorem Gated.handleTcp (h : s.Gated A) (newUuid : String) {m : RendezvousMessage}
    (hA : ∀ id, m.Admitted o now s.cache id → A id a) :
    (s.handleTcp o now a newUuid m).Gated A := by
  cases m with
  | punchHoleRequest r =>
    dsimp only [Server.handleTcp, Server.punchHoleRequest, processPunch]
    split
    next => exact h.tell rfl
    next d hd =>
      split
      next => exact h.tell rfl
      next =>
        refine h.send fun x hx _ => ?_
        rcases mem_pair.mp hx with rfl | rfl <;> exact ⟨a, rfl, hA r.id ⟨rfl, d, hd⟩⟩
  | requestRelay r =>
    dsimp only [Server.handleTcp, Server.requestRelay]
    split
    next => exact h.tell rfl
    next d hd =>
      split
      next => exact h.tell rfl
      next => exact ⟨forall_mem_cons.mpr ⟨hA r.id ⟨rfl, d, hd⟩, h.relaying⟩, h.sent⟩
  | registerPk id uuid pk =>
    dsimp only [Server.handleTcp, Server.registerPk]
    split
    next => exact h.tell rfl
    next => exact (h.registered _ _).tell rfl
  | registerPeer id =>
    dsimp only [Server.handleTcp, Server.registerPeer]
    exact (h.registered _ _).tell rfl
  | testNatRequest => exact h.tell rfl
  | _ => exact h

/-- What is new was admitted just now, or before it began to wait. -/
theorem Gated.step (h : s.Gated A) {e : Event} (hA : ∀ id a, s.Admits o id a e → A id a) :
    (s.step o e).Gated A := by
  cases e with
  -- over UDP and WebSocket a message is handled as over TCP, or not at all
  | udp now a m =>
    have htcp : (∀ id, ¬ m.Admitted o now s.cache id) → (s.handleTcp o now a "" m).Gated A :=
      fun hm => h.handleTcp "" fun id hid => (hm id hid).elim
    cases m <;> first | exact h | exact htcp fun _ hm => hm
  | websocket now a newUuid m =>
    have htcp := h.handleTcp newUuid fun id hm => hA id a ⟨rfl, hm⟩
    cases m <;> first | exact h | exact htcp
  | tcp now a newUuid m => exact h.handleTcp newUuid fun id hm => hA id a ⟨rfl, hm⟩
  | relay place answer =>
    dsimp only [Server.step]
    split
    next => exact h
    next p hp =>
      have hrest : Gated A { s with relaying := s.relaying.eraseIdx place } :=
        ⟨fun q hq => h.relaying q (mem_of_mem_eraseIdx hq), h.sent⟩
      have hp := h.relaying p (mem_of_getElem? hp)
      refine hrest.send fun x hx => ?_
      cases answer <;> grind [Server.finishRelay, Sent.addresses, Sent.controller]
  | cache => exact ⟨h.relaying, h.sent⟩

/-- The gate has let in a request of the controller for the device. -/
def Asked (o : Options) (s : Server) (events : List Event) (id : String) (a : SocketAddr) : Prop :=
  ∃ before e, before ++ [e] <+: events ∧ (before.foldl (step o) s).Admits o id a e

end Server

/-- **No address without an admission.** In every run: if a message names the address of a device,
or goes to a device on behalf of a controller, then that controller has asked for that device, and
the gate has let the request in. -/
theorem addresses_only_admitted (o : Options) (cache : CacheState) (events : List Event) :
    ∀ x ∈ (events.foldl (Server.step o) (.start cache)).sent, x.addresses ≠ [] →
      ∃ a ∈ x.controller, (Server.start cache).Asked o events x.about a := by
  suffices h : ∀ before, before <+: events →
      (before.foldl (Server.step o) (.start cache)).Gated ((Server.start cache).Asked o events) from
    (h events prefix_rfl).sent
  intro before hpre
  induction before using List.reverseRecOn with
  | nil => exact ⟨fun _ h => (not_mem_nil h).elim, fun _ h => (not_mem_nil h).elim⟩
  | append_singleton before e ih =>
    rw [foldl_append]
    exact (ih ((prefix_append _ _).trans hpre)).step fun id a he => ⟨before, e, hpre, he⟩

def askedFor : List Event :=
  [.udp 0 deviceAddress (.registerPeer "100200300"),
    .tcp 1000 controllerAddress "" (.punchHoleRequest samplePunch)]

theorem asked_before : ∃ x ∈ (askedFor.foldl (Server.step sampleOptions) (.start .empty)).sent,
    ∃ a ∈ x.controller, (Server.start .empty).Asked sampleOptions askedFor x.about a := by
  refine ⟨_, mem_append_right _ mem_cons_self, ?_⟩
  exact addresses_only_admitted sampleOptions .empty askedFor _
    (mem_append_right _ mem_cons_self) (cons_ne_nil _ _)

end RemoteControl.Hbbs
