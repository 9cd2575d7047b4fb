import RemoteControl.Hbbr.OutboxSystem
import RemoteControl.Api.DeliverySystem

/-!
# A relay and the API

One relay in WSS mode (`art-hbbr/src/control.rs`) and the gateway it talks to
(`relaygateway/gateway.go`), with everything between them. Both sides may stop at
any point and start again, a session may end at any point, and of the messages
of a session any may be lost, delayed or repeated: what was sent once is in
`uplink` or `downlink` and can be read from there any number of times, or never.

What only ends a session, or only decides when something happens, is left to
chance: the pause before an event is sent again, the gateway's rate limit, its
credential check at the start of a session and every ten seconds after.
-/

namespace RemoteControl.Control

open Lib Hbbr

def lifecycleMessage (e : Event) : Api.Message := ⟨e.id, e.uuid, e.status⟩

structure Packet where
  session : String
  message : Api.Message
deriving DecidableEq

/-- `lifecycle_ack`, or `lifecycle_rejected` with the reason `credential_rotated`. -/
inductive Verdict
  | ack | rejected
deriving DecidableEq, Repr

/-- What the gateway makes of the store's answer; without a verdict it hangs up. -/
def verdict? : Api.Answer → Option Verdict
  | .acknowledged => some .ack
  | .staleGeneration => some .rejected
  | _ => none

structure Reply where
  session : String
  verdict : Verdict
  message : Api.Message
deriving DecidableEq

/-- The outbox operation with which the relay takes a reply. -/
def Reply.op (r : Reply) (fault : WriteFault) : Op := match r.verdict with
  | .ack => .acknowledge r.message.requestId r.message.uuid r.message.status fault
  | .rejected =>
    .quarantine r.message.requestId r.message.uuid r.message.status "credential_rotated" fault

/-- The same operation with its result. -/
def Reply.perform (src : UuidSource) (r : Reply) (fault : WriteFault)
    (m : Machine) : Except OutboxError Unit × Machine :=
  match r.verdict with
  | .ack => m.acknowledge r.message.requestId r.message.uuid r.message.status fault
  | .rejected => m.quarantine src r.message.requestId r.message.uuid r.message.status
      "credential_rotated" fault

theorem Reply.perform_snd (src : UuidSource) (r : Reply) (fault : WriteFault)
    (m : Machine) : (r.perform src fault m).2 = (r.op fault).perform src m := by
  unfold Reply.perform Reply.op
  cases r.verdict <;> rfl

/-- A control session on the gateway's side. -/
structure Peer where
  session : String
  token : String
deriving DecidableEq

structure World where
  relay : System
  /-- the session the relay's control task is in -/
  session : Option String
  /-- the gateway's peer for the relay -/
  peer : Option Peer
  /-- the session names drawn so far -/
  sessions : List String
  uplink : List Packet
  /-- calls of the gateway for messages it read, each with its session -/
  serving : List (String × Api.Call)
  downlink : List Reply
  /-- the database, with the calls made by everybody else -/
  api : Api.Deliveries

/-- What the relay does to its outbox on its own. -/
def isLocal : Action → Bool
  | .op (.acknowledge ..) | .op (.quarantine ..) => false
  | _ => true

/-- The control task lives and dies with the process. -/
def World.sessionAfter (w : World) : Action → Option String
  | .op _ => w.session
  | _ => none

inductive Label
  | relay (a : Action)
  | accept (p : Peer)
  | hello (session : String)
  | send (fault : WriteFault)
  | read (p : Packet) (token address : String)
  | progress (session : String) (c : Api.Call)
  | finish (session : String) (c : Api.Call) (answer : Api.Answer)
  | reply (r : Reply) (fault : WriteFault)
  | relayLeaves
  | peerLeaves
  | restartApi
  | others (l : Api.Label)

/-- One step of the relay `id`, of the gateway, or of anybody else. -/
inductive Step (hash : String → String) (src : UuidSource) (id : String) :
    World → Label → World → Prop
  | relay {w : World} {a : Action} {s' : System} (ha : isLocal a = true)
      (h : Hbbr.Step src w.relay a s') :
      Step hash src id w (.relay a) { w with relay := s', session := w.sessionAfter a }
  -- a second connection cannot take over a live session
  | accept {w : World} {p : Peer} (hp : w.peer = none) (hnew : p.session ∉ w.sessions) :
      Step hash src id w (.accept p)
        { w with peer := some p, sessions := p.session :: w.sessions }
  | hello {w : World} {session : String} (hp : w.relay.proc.isSome = true)
      (hs : session ∈ w.sessions) :
      Step hash src id w (.hello session) { w with session := some session }
  | send {w : World} {o : Outbox} {session : String} {fault : WriteFault}
      {e : Event} {m : Machine} (hp : w.relay.proc = some o)
      (hs : w.session = some session)
      (he : (w.relay.machine o).nextEvent fault = (.ok (some e), m)) :
      Step hash src id w (.send fault)
        { w with relay := m.toSystem, uplink := ⟨session, lifecycleMessage e⟩ :: w.uplink }
  -- the gateway reads only what carries the name of its own session
  | read {w : World} {p : Packet} {token : String} (address : String) (hp : p ∈ w.uplink)
      (hpeer : w.peer = some ⟨p.session, token⟩) :
      Step hash src id w (.read p token address)
        { w with serving := (p.session, .event id token address p.message) :: w.serving }
  | progress {w : World} {session : String} {c c' : Api.Call} {db' : Api.Db} (now : Nat)
      (hc : (session, c) ∈ w.serving) (ha : c.advance hash now w.api.db = (db', .inl c')) :
      Step hash src id w (.progress session c)
        { w with
          serving := (session, c') :: w.serving.erase (session, c)
          api := { w.api with db := db' } }
  | finish {w : World} {session : String} {c : Api.Call} {answer : Api.Answer} {v : Verdict}
      {m : Api.Message} {db' : Api.Db} (now : Nat) (hc : (session, c) ∈ w.serving)
      (ha : c.advance hash now w.api.db = (db', .inr answer)) (hv : verdict? answer = some v)
      (hm : c.message? = some m) :
      Step hash src id w (.finish session c answer)
        { w with
          serving := w.serving.erase (session, c)
          downlink := ⟨session, v, m⟩ :: w.downlink
          api := { w.api with db := db' } }
  | refuse {w : World} {session : String} {c : Api.Call} {answer : Api.Answer} {db' : Api.Db}
      (now : Nat) (hc : (session, c) ∈ w.serving)
      (ha : c.advance hash now w.api.db = (db', .inr answer)) (hv : verdict? answer = none) :
      Step hash src id w (.finish session c answer)
        { w with
          serving := w.serving.erase (session, c)
          peer := w.peer.filter fun p => p.session ≠ session
          api := { w.api with db := db' } }
  -- the relay takes only what carries the name of its own session
  | reply {w : World} {o : Outbox} {r : Reply} {fault : WriteFault}
      {result : Except OutboxError Unit} {m : Machine} (hp : w.relay.proc = some o)
      (hr : r ∈ w.downlink) (hs : w.session = some r.session)
      (hm : r.perform src fault (w.relay.machine o) = (result, m)) :
      Step hash src id w (.reply r fault)
        { w with
          relay := m.toSystem
          session := if result = .ok () then w.session else none }
  | relayLeaves {w : World} : Step hash src id w .relayLeaves { w with session := none }
  | peerLeaves {w : World} : Step hash src id w .peerLeaves { w with peer := none }
  -- the calls of the process end where they are; the database stays
  | restartApi {w : World} : Step hash src id w .restartApi { w with peer := none, serving := [] }
  | others {w : World} {l : Api.Label} {s' : Api.Deliveries} (h : Api.Step hash w.api l s') :
      Step hash src id w (.others l) { w with api := s' }

/-- The relay's first start, on the directory it finds, against a database with any
history. -/
structure Init (hash : String → String) (src : UuidSource) (w : World) : Prop where
  relay : Hbbr.Init src w.relay
  session : w.session = none
  peer : w.peer = none
  uplink : w.uplink = []
  serving : w.serving = []
  downlink : w.downlink = []
  api : w.api.Reached hash

def World.Reached (hash : String → String) (src : UuidSource) (id : String) (w : World) :
    Prop :=
  Reachable (Init hash src) (Step hash src id) w

/-- The step is a statement the API performs for the message `m`. -/
def Label.about (m : Api.Message) : Label → Bool
  | .progress _ c | .finish _ c _ | .others (.progress c) | .others (.finish c _) =>
    c.message? = some m
  | _ => false

end RemoteControl.Control
