import RemoteControl.Lib.Run
import RemoteControl.Lib.Table
import RemoteControl.Hbbr.Outbox

/-!
# The relay's data connections

`RelayState` of `art-hbbr/src/main.rs`: permits, connections that wait for their peer, and
the cancel handles of the pairs that are transferring, each in a table with a lock of its
own. Whoever goes from one table to the next holds the lock `transition` meanwhile, so
`holder` is both that lock and how far its owner has got. Two activities do without it:
the periodic cleanup, and a pair that has ended and takes its handle out of `active`.

> Between any two steps of the holder, time passes, permits and waiting connections
> disappear, and pairs end.

Permits, connections and pairs are numbered, and every use of a permit is recorded. No
function reads these.
-/

namespace RemoteControl.Hbbr.Relay

open Lib

/-- A data connection that a permit let in: the permit's number, its epoch and expiry, and the
epoch and time of the admission. -/
structure Admission where
  connection : Nat
  permit : Nat
  permitEpoch : Nat
  expiresAt : Nat
  epoch : Nat
  time : Nat
deriving DecidableEq, Repr

structure Permit where
  uuid : String
  expiresAt : Nat
  uses : Nat
  number : Nat
  epoch : Nat
deriving DecidableEq, Repr

structure Pending where
  uuid : String
  admission : Admission
  createdAt : Nat
deriving DecidableEq, Repr

/-- `active` maps a UUID to the `watch::Sender` of its pair. Without a sender, or with one that sent
`true`, the pair's receiver fires. -/
structure Handle where
  uuid : String
  pair : Nat
deriving DecidableEq, Repr

structure Pair where
  uuid : String
  number : Nat
  newcomer : Admission
  waiting : Admission
  epoch : Nat
deriving DecidableEq, Repr

/-- A message of the control channel with which the API permits or ends a connection. -/
structure Command where
  session : String
  requestId : String
  uuid : String
  action : String
  expiresAt : Nat
deriving DecidableEq, Repr

/-- An entry of the deduplication cache. -/
structure Seen where
  requestId : String
  uuid : String
  action : String
  status : String
deriving DecidableEq, Repr

/-- The control task of WSS mode: no session, a session that was greeted but has not cleared the
tables, one that takes commands, and one that is over but has not cleared the tables. -/
inductive Control
  | disconnected
  | greeted (session : String)
  | live (session : String) (seen : Table Seen.requestId)
  | ended

/-- The owner of `transition`, by what it has still to do. -/
inductive Holder
  /-- `accept_authorized`: look for a permit. -/
  | accept (uuid : String) (connection : Nat)
  /-- … look for a peer. -/
  | admitted (uuid : String) (a : Admission)
  /-- … report the pair. -/
  | met (uuid : String) (a : Admission) (peer : Pending)
  /-- … enter its handle, let go of the lock and transfer. -/
  | reported (uuid : String) (a : Admission) (peer : Pending)
  /-- … wait. -/
  | alone (uuid : String) (a : Admission)
  /-- `terminate_relay`, with the command it is for: remove the permit. -/
  | terminate (uuid : String) (command : Option Command)
  | terminatePending (uuid : String) (command : Option Command)
  | terminateActive (uuid : String) (command : Option Command) (pending : Bool)
  /-- `apply_command`: check the tables and insert the permit. -/
  | permit (command : Command)
  /-- `run` and `session`: clear the permits, then the waiting connections. -/
  | clearPermits
  | clearPending
deriving DecidableEq

structure State where
  now : Nat
  epoch : Nat
  control : Control
  holder : Option Holder
  permits : Table Permit.uuid
  pending : Table Pending.uuid
  active : Table Handle.uuid
  /-- pairs that transfer -/
  running : List Pair
  /-- pairs that do not transfer any more and have not taken their handle out of `active` -/
  closing : List Pair
  /-- the numbers of the next connection and the next permit -/
  connections : Nat
  issued : Nat
  /-- history: the uses of permits, the pairs, the sessions, the permit commands that were accepted, and
  the pairs whose handle a `terminate_relay` took -/
  admissions : List Admission
  pairs : List Pair
  sessions : List String
  accepted : List Command
  terminated : List Handle

def State.start : State where
  now := 0
  epoch := 0
  control := .disconnected
  holder := none
  permits := .empty
  pending := .empty
  active := .empty
  running := []
  closing := []
  connections := 0
  issued := 0
  admissions := []
  pairs := []
  sessions := []
  accepted := []
  terminated := []

/-! ## Sections under one lock -/

/-- The permit `accept_authorized` may use. -/
def State.usable (uuid : String) (w : State) : Option Permit :=
  (w.permits.get? uuid).filter fun p => w.now < p.expiresAt && 0 < p.uses

/-- One use less; the last one removes the permit. -/
def usePermit (p : Permit) (permits : Table Permit.uuid) : Table Permit.uuid :=
  if p.uses - 1 = 0 then permits.remove p.uuid else permits.put { p with uses := p.uses - 1 }

def State.admission (connection : Nat) (p : Permit) (w : State) : Admission :=
  ⟨connection, p.number, p.epoch, p.expiresAt, w.epoch, w.now⟩

/-- The pair's receiver has fired. -/
def State.Cancelled (w : State) (p : Pair) : Prop := w.active.get? p.uuid ≠ some ⟨p.uuid, p.number⟩

instance (w : State) (p : Pair) : Decidable (w.Cancelled p) := inferInstanceAs (Decidable (_ ≠ _))

def permitLimit : Nat := 4096

/-- 30 seconds in WSS mode. -/
def permitLifetime : Nat := 30000

def pendingLifetime : Nat := 90000

def State.insertPermit (uuid : String) (lifetime : Nat) (w : State) : State :=
  { w with
    permits := w.permits.put ⟨uuid, w.now + lifetime, 2, w.issued, w.epoch⟩
    issued := w.issued + 1 }

/-- The end of `terminate_relay`. -/
def State.takeHandle (uuid : String) (w : State) : State :=
  { w with
    active := w.active.remove uuid
    terminated := (w.active.get? uuid).toList ++ w.terminated }

/-- What `terminate_relay` returns, as the text of both control modes. -/
def State.terminateStatus (uuid : String) (pending : Bool) (w : State) : String :=
  if (w.active.get? uuid).isSome || pending then "terminated" else "not_found"

/-! ## Steps that both control modes share -/

inductive Label
  | arrive (uuid : String)
  | refused
  | admitted
  | met
  | alone
  | reported
  | reportFailed
  | paired
  | waits
  /-- An endpoint of the pair closed or failed. -/
  | endpoint (p : Pair)
  | cancelled (p : Pair)
  | released (p : Pair)
  | tick (now : Nat)
  | cleanPermits (now : Nat)
  | cleanPending
  | terminate
  | hello (session : String)
  | clear
  | sessionEnds
  | command (c : Command) (wall : Nat) (available : Bool)
  | permit
  | answered (uuid status : String)
  /-- Messages of the legacy control port. -/
  | permitMessage (uuid : String) (expiresIn : Nat)
  | terminateMessage (uuid : String)

inductive DataStep : State → Label → State → Prop
  | arrive {w : State} (uuid : String) (h : w.holder = none) :
      DataStep w (.arrive uuid)
        { w with holder := some (.accept uuid w.connections), connections := w.connections + 1 }
  | refused {w : State} {uuid : String} {c : Nat} (h : w.holder = some (.accept uuid c))
      (hp : w.usable uuid = none) : DataStep w .refused { w with holder := none }
  | admitted {w : State} {uuid : String} {c : Nat} {p : Permit}
      (h : w.holder = some (.accept uuid c)) (hp : w.usable uuid = some p) :
      DataStep w .admitted
        { w with
          permits := usePermit p w.permits
          admissions := w.admission c p :: w.admissions
          holder := some (.admitted uuid (w.admission c p)) }
  | met {w : State} {uuid : String} {a : Admission} {peer : Pending}
      (h : w.holder = some (.admitted uuid a)) (hp : w.pending.get? uuid = some peer) :
      DataStep w .met { w with pending := w.pending.remove uuid, holder := some (.met uuid a peer) }
  | alone {w : State} {uuid : String} {a : Admission} (h : w.holder = some (.admitted uuid a))
      (hp : w.pending.get? uuid = none) :
      DataStep w .alone { w with holder := some (.alone uuid a) }
  | reported {w : State} {uuid : String} {a : Admission} {peer : Pending}
      (h : w.holder = some (.met uuid a peer)) :
      DataStep w .reported { w with holder := some (.reported uuid a peer) }
  -- both connections are dropped
  | reportFailed {w : State} {uuid : String} {a : Admission} {peer : Pending}
      (h : w.holder = some (.met uuid a peer)) :
      DataStep w .reportFailed { w with holder := none }
  -- an older handle of the UUID is dropped here
  | paired {w : State} {uuid : String} {a : Admission} {peer : Pending}
      (h : w.holder = some (.reported uuid a peer)) :
      DataStep w .paired
        { w with
          active := w.active.put ⟨uuid, w.pairs.length⟩
          running := ⟨uuid, w.pairs.length, a, peer.admission, w.epoch⟩ :: w.running
          pairs := ⟨uuid, w.pairs.length, a, peer.admission, w.epoch⟩ :: w.pairs
          holder := none }
  | waits {w : State} {uuid : String} {a : Admission} (h : w.holder = some (.alone uuid a)) :
      DataStep w .waits
        { w with pending := w.pending.put ⟨uuid, a, w.now⟩, holder := none }
  | endpoint {w : State} {p : Pair} (hp : p ∈ w.running) :
      DataStep w (.endpoint p)
        { w with running := w.running.erase p, closing := p :: w.closing }
  | cancelled {w : State} {p : Pair} (hp : p ∈ w.running) (hc : w.Cancelled p) :
      DataStep w (.cancelled p)
        { w with running := w.running.erase p, closing := p :: w.closing }
  -- whatever handle the UUID has by now is removed, without the lock
  | released {w : State} {p : Pair} (hp : p ∈ w.closing) :
      DataStep w (.released p)
        { w with active := w.active.remove p.uuid, closing := w.closing.erase p }
  | tick {w : State} {now : Nat} (h : w.now ≤ now) : DataStep w (.tick now) { w with now := now }
  -- the cleanup compares with the time at which it began
  | cleanPermits {w : State} {now : Nat} (h : now ≤ w.now) :
      DataStep w (.cleanPermits now)
        { w with permits := w.permits.deleteWhere fun p => p.expiresAt ≤ now }
  | cleanPending {w : State} :
      DataStep w .cleanPending
        { w with pending := w.pending.deleteWhere fun q => q.createdAt + pendingLifetime ≤ w.now }
  | terminatePermit {w : State} {uuid : String} {c : Option Command}
      (h : w.holder = some (.terminate uuid c)) :
      DataStep w .terminate
        { w with permits := w.permits.remove uuid, holder := some (.terminatePending uuid c) }
  | terminatePending {w : State} {uuid : String} {c : Option Command}
      (h : w.holder = some (.terminatePending uuid c)) :
      DataStep w .terminate
        { w with
          pending := w.pending.remove uuid
          holder := some (.terminateActive uuid c (w.pending.get? uuid).isSome) }

/-! ## WSS mode -/

/-- What `session` and `apply_command` make of a command before they take the lock. -/
inductive Checked
  | replay (status : String)
  | refused
  | permit
  | terminate
deriving DecidableEq, Repr

def seenLimit : Nat := 8192

def Command.check (session : String) (seen : Table Seen.requestId) (wall : Nat) (available : Bool)
    (c : Command) : Checked :=
  if c.session ≠ session then .refused
  else if 64 < c.requestId.utf8ByteSize || c.requestId = "" || !validUuid c.uuid then .refused
  else match seen.get? c.requestId with
    | some s => if s.uuid = c.uuid ∧ s.action = c.action then .replay s.status else .refused
    | none =>
      if c.expiresAt ≤ wall || wall + 30000 < c.expiresAt then .refused
      else if seenLimit ≤ seen.rows.length then .refused
      else if c.action = "permit" then
        if !available then .refused
        else if seen.rows.any (fun s => s.uuid = c.uuid && s.action = "permit") then .refused
        else .permit
      else if c.action = "terminate" then .terminate
      else .refused

/-- The checks under the lock. The three tables are looked at one after another, but only the
holder adds to them: what was not there is not there when the permit is inserted. -/
def State.free (uuid : String) (w : State) : Bool :=
  w.permits.rows.length < permitLimit && (w.permits.get? uuid).isNone
    && (w.pending.get? uuid).isNone && (w.active.get? uuid).isNone

/-- The control task is in the middle of a command or of clearing the tables. -/
def Holder.ofControl : Holder → Bool
  | .terminate _ c | .terminatePending _ c | .terminateActive _ c _ => c.isSome
  | .permit _ | .clearPermits | .clearPending => true
  | _ => false

def State.controlBusy (w : State) : Bool := w.holder.any Holder.ofControl

def Command.seen (c : Command) (status : String) : Seen := ⟨c.requestId, c.uuid, c.action, status⟩

def Control.cleared : Control → Control
  | .greeted session => .live session .empty
  | _ => .disconnected

def Control.isLive : Control → Bool
  | .live _ _ => true
  | _ => false

inductive WssStep : State → Label → State → Prop
  | data {w w' : State} {l : Label} (h : DataStep w l w') : WssStep w l w'
  -- the API names every session anew
  | hello {w : State} {session : String} (h : w.control = .disconnected)
      (hb : w.controlBusy = false) (hs : session ∉ w.sessions) :
      WssStep w (.hello session)
        { w with
          control := .greeted session
          epoch := w.epoch + 1
          sessions := session :: w.sessions }
  | clear {w : State} (h : w.control.isLive = false) (hh : w.holder = none) :
      WssStep w .clear { w with holder := some .clearPermits }
  | clearPermits {w : State} (h : w.holder = some .clearPermits) :
      WssStep w .clear { w with permits := .empty, holder := some .clearPending }
  | clearPending {w : State} (h : w.holder = some .clearPending) :
      WssStep w .clear
        { w with pending := .empty, holder := none, control := w.control.cleared }
  | sessionEnds {w : State} {session : String} {seen : Table Seen.requestId}
      (h : w.control = .live session seen) (hb : w.controlBusy = false) :
      WssStep w .sessionEnds { w with control := .ended }
  | replay {w : State} {session status : String} {seen : Table Seen.requestId} {c : Command}
      {wall : Nat} {available : Bool} (h : w.control = .live session seen)
      (hb : w.controlBusy = false) (hc : c.check session seen wall available = .replay status) :
      WssStep w (.command c wall available) w
  | refuse {w : State} {session : String} {seen : Table Seen.requestId} {c : Command} {wall : Nat}
      {available : Bool} (h : w.control = .live session seen) (hb : w.controlBusy = false)
      (hc : c.check session seen wall available = .refused) :
      WssStep w (.command c wall available) { w with control := .ended }
  | beginPermit {w : State} {session : String} {seen : Table Seen.requestId} {c : Command}
      {wall : Nat} {available : Bool} (h : w.control = .live session seen) (hh : w.holder = none)
      (hc : c.check session seen wall available = .permit) :
      WssStep w (.command c wall available) { w with holder := some (.permit c) }
  | beginTerminate {w : State} {session : String} {seen : Table Seen.requestId} {c : Command}
      {wall : Nat} {available : Bool} (h : w.control = .live session seen) (hh : w.holder = none)
      (hc : c.check session seen wall available = .terminate) :
      WssStep w (.command c wall available) { w with holder := some (.terminate c.uuid (some c)) }
  | permitted {w : State} {session : String} {seen : Table Seen.requestId} {c : Command}
      (h : w.holder = some (.permit c)) (hl : w.control = .live session seen)
      (hf : w.free c.uuid = true) :
      WssStep w .permit
        { w.insertPermit c.uuid permitLifetime with
          holder := none
          control := .live session (seen.insert (c.seen "permitted"))
          accepted := c :: w.accepted }
  | permitRefused {w : State} {c : Command} (h : w.holder = some (.permit c))
      (hf : w.free c.uuid = false) :
      WssStep w .permit { w with holder := none, control := .ended }
  | terminated {w : State} {session uuid : String} {seen : Table Seen.requestId} {c : Command}
      {pending : Bool} (h : w.holder = some (.terminateActive uuid (some c) pending))
      (hl : w.control = .live session seen) :
      WssStep w (.answered uuid (w.terminateStatus uuid pending))
        { w.takeHandle uuid with
          holder := none
          control := .live session (seen.insert (c.seen (w.terminateStatus uuid pending))) }

/-! ## Legacy mode -/

/-- `Duration::from_secs(expires_in.clamp(1, 300))`. -/
def legacyLifetime (expiresIn : Nat) : Nat := 1000 * max 1 (min expiresIn 300)

/-- `run_control`, for messages with the right token and a UUID. A permit replaces whatever permit
the UUID had. -/
inductive LegacyStep : State → Label → State → Prop
  | data {w w' : State} {l : Label} (h : DataStep w l w') : LegacyStep w l w'
  | permit {w : State} {uuid : String} {expiresIn : Nat} (hh : w.holder = none) (hu : uuid ≠ "")
      (hroom : w.permits.rows.length < permitLimit) :
      LegacyStep w (.permitMessage uuid expiresIn) (w.insertPermit uuid (legacyLifetime expiresIn))
  | permitFull {w : State} {uuid : String} {expiresIn : Nat} (hh : w.holder = none) (hu : uuid ≠ "")
      (hroom : permitLimit ≤ w.permits.rows.length) :
      LegacyStep w (.permitMessage uuid expiresIn) w
  | terminate {w : State} {uuid : String} (hh : w.holder = none) (hu : uuid ≠ "") :
      LegacyStep w (.terminateMessage uuid) { w with holder := some (.terminate uuid none) }
  | terminated {w : State} {uuid : String} {pending : Bool}
      (h : w.holder = some (.terminateActive uuid none pending)) :
      LegacyStep w (.answered uuid (w.terminateStatus uuid pending))
        { w.takeHandle uuid with holder := none }

end RemoteControl.Hbbr.Relay
