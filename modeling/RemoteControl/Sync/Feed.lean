import RemoteControl.Sync.Hub
import RemoteControl.Lib.Run

/-!
# From the hub to the cache

The API process with its publishers and subscribers, the event stream and the
snapshots on their way to HBBS, and the cache there: `authEvents` and
`authSnapshot` of `server.go`, `run_events` and `reconcile` of `sync.rs`.
Publishers overlap in any way, streams break at any point, the API restarts with
a new source, and an answer or the rest of a stream may arrive after that.

What a snapshot contains does not matter here, only the source and the revision
it carries.

Three fields record what happened and decide nothing that the program decides:
`processes`, `delivered` and `accepted`. Of the events in `numbered`, those of the
running process that are not in `delivered` are held by publishers that wait for
the lock.
-/

namespace RemoteControl.Sync

open Lib

/-- HBBS handles events of this kind. -/
def EventEnvelope.relevant (e : EventEnvelope) : Bool := match decodeEvent e.kind e.payload with
  | .ok none => false
  | _ => true

/-- The event is applied, not dropped, if it can be decoded. -/
def CacheState.takes (e : EventEnvelope) (st : CacheState) : Bool :=
  e.relevant && (st.acceptRevision e.sourceId e.revision).isSome

/-- `replace` returns early. -/
def CacheState.ignores (s : AuthSnapshot) (st : CacheState) : Bool :=
  s.sourceId = st.sourceId ∧ s.revision < st.revision

/-- What the cache took over. -/
inductive Accepted
  | event (e : EventEnvelope)
  | snapshot (sourceId : String) (revision : Nat)

def Accepted.sourceId : Accepted → String
  | .event e => e.sourceId
  | .snapshot sourceId _ => sourceId

/-- The event task of HBBS. An open stream knows the process that serves it, the
subscriber there while there is one, and what was written and not yet read. -/
inductive Stream
  | closed
  | requested (sourceId : String) (revision : Nat)
  | opened (sourceId : String) (subscriber : Option Nat) (wire : List EventEnvelope)

def Stream.subscriber : Stream → Option Nat
  | .opened _ subscriber _ => subscriber
  | _ => none

/-- The serving process ends; what it wrote can still be read. -/
def Stream.detach : Stream → Stream
  | .opened sourceId _ wire => .opened sourceId none wire
  | s => s

/-- The hub, the stream to HBBS, and its cache. -/
structure Feed where
  hub : Hub
  /-- the newest first -/
  processes : List String
  numbered : List EventEnvelope
  delivered : List EventEnvelope
  stream : Stream
  /-- answers to snapshot requests, on their way -/
  answers : List AuthSnapshot
  cache : CacheState
  /-- the latest first -/
  accepted : List Accepted

/-- The event has its revision and waits for the lock. -/
def Feed.Pending (w : Feed) (e : EventEnvelope) : Prop :=
  e ∈ w.numbered ∧ e.sourceId = w.hub.sourceId ∧ e ∉ w.delivered

/-- How many processes came after this one. -/
def Feed.age (w : Feed) (sourceId : String) : Nat := w.processes.idxOf sourceId

/-- HBBS reads `e`. An event that cannot be applied ends the stream. -/
def Feed.readEvent (e : EventEnvelope) (rest : Stream) (w : Feed) : Feed :=
  match w.cache.applyEvent e with
  | .error _ => { w with stream := .closed }
  | .ok cache =>
    { w with
      cache
      stream := rest
      accepted := if w.cache.takes e then .event e :: w.accepted else w.accepted }

/-- A snapshot arrives. -/
def Feed.reconcile (s : AuthSnapshot) (w : Feed) : Feed :=
  { w with
    cache := w.cache.replace s
    accepted :=
      if w.cache.ignores s then w.accepted else .snapshot s.sourceId s.revision :: w.accepted }

inductive FeedLabel
  | number
  | deliver (e : EventEnvelope)
  | others
  | request
  | serve (sourceId : String) (revision : Nat)
  | forward
  | hangUp
  | read (e : EventEnvelope)
  | giveUp
  | answer
  | reconcile (s : AuthSnapshot)
  | lose
  | restart

/-- One step of a publisher, of the stream, or of HBBS. -/
inductive FeedStep : Feed → FeedLabel → Feed → Prop
  | number (w : Feed) (kind : String) (payload : Json) :
      FeedStep w .number
        { w with
          hub := (w.hub.number kind payload).2
          numbered := (w.hub.number kind payload).1 :: w.numbered }
  | deliver {w : Feed} {e : EventEnvelope} (he : w.Pending e) :
      FeedStep w (.deliver e)
        { w with hub := w.hub.deliver e, delivered := e :: w.delivered }
  -- other subscribers come, read and go
  | subscribe (w : Feed) (sourceId : String) (revision : Nat) :
      FeedStep w .others { w with hub := (w.hub.subscribeAfter sourceId revision).2.2 }
  | receive {w : Feed} {id : Nat} {e : EventEnvelope} {hub : Hub}
      (hid : w.stream.subscriber ≠ some id) (hr : w.hub.receive id = some (e, hub)) :
      FeedStep w .others { w with hub }
  | unsubscribe {w : Feed} {id : Nat} (hid : w.stream.subscriber ≠ some id) :
      FeedStep w .others { w with hub := w.hub.unsubscribe id }
  | request {w : Feed} (hs : w.stream = .closed) :
      FeedStep w .request
        { w with stream := .requested w.cache.sourceId w.cache.revision }
  | serve {w : Feed} {sourceId : String} {revision : Nat}
      (hs : w.stream = .requested sourceId revision) :
      FeedStep w (.serve sourceId revision)
        { w with
          hub := (w.hub.subscribeAfter sourceId revision).2.2
          stream := .opened w.hub.sourceId (some (w.hub.subscribeAfter sourceId revision).1)
            (w.hub.subscribeAfter sourceId revision).2.1 }
  | forward {w : Feed} {sourceId : String} {id : Nat} {wire : List EventEnvelope}
      {e : EventEnvelope} {hub : Hub} (hs : w.stream = .opened sourceId (some id) wire)
      (hr : w.hub.receive id = some (e, hub)) :
      FeedStep w .forward { w with hub, stream := .opened sourceId (some id) (wire ++ [e]) }
  | hangUp {w : Feed} {sourceId : String} {id : Nat} {wire : List EventEnvelope}
      (hs : w.stream = .opened sourceId (some id) wire) :
      FeedStep w .hangUp
        { w with hub := w.hub.unsubscribe id, stream := .opened sourceId none wire }
  | read {w : Feed} {sourceId : String} {subscriber : Option Nat} {e : EventEnvelope}
      {wire : List EventEnvelope} (hs : w.stream = .opened sourceId subscriber (e :: wire)) :
      FeedStep w (.read e) (w.readEvent e (.opened sourceId subscriber wire))
  | giveUp (w : Feed) : FeedStep w .giveUp { w with stream := .closed }
  -- both readings of the revision gave the same
  | answer {w : Feed} {s : AuthSnapshot} (hs : s.sourceId = w.hub.sourceId)
      (hr : s.revision = w.hub.revision) :
      FeedStep w .answer { w with answers := s :: w.answers }
  | reconcile {w : Feed} {s : AuthSnapshot} {before after : List AuthSnapshot}
      (hs : w.answers = before ++ s :: after) :
      FeedStep w (.reconcile s) { w.reconcile s with answers := before ++ after }
  | lose {w : Feed} {s : AuthSnapshot} {before after : List AuthSnapshot}
      (hs : w.answers = before ++ s :: after) :
      FeedStep w .lose { w with answers := before ++ after }
  | restart {w : Feed} {sourceId : String} (hs : sourceId ∉ w.processes) :
      FeedStep w .restart
        { w with
          hub := Hub.new sourceId
          processes := sourceId :: w.processes
          stream := w.stream.detach }

/-- A process has just started, and HBBS holds whatever it kept from earlier ones. -/
structure FeedInit (w : Feed) : Prop where
  hub : w.hub = Hub.new w.hub.sourceId
  fresh : w.hub.sourceId ≠ w.cache.sourceId
  processes : w.processes = [w.hub.sourceId, w.cache.sourceId]
  numbered : w.numbered = []
  delivered : w.delivered = []
  stream : w.stream = .closed
  answers : w.answers = []
  accepted : w.accepted = []

/-! ## What the cursor promises -/

/-- The event was applied, or a snapshot that covers it was accepted. -/
def Done (accepted : List Accepted) (e : EventEnvelope) : Prop :=
  .event e ∈ accepted ∨
    ∃ revision, .snapshot e.sourceId revision ∈ accepted ∧ e.revision ≤ revision

/-- Nothing up to this cursor is missing. -/
def Feed.Settled (w : Feed) (sourceId : String) (revision : Nat) : Prop :=
  ∀ e ∈ w.numbered, e.relevant = true → e.sourceId = sourceId → e.revision ≤ revision →
    Done w.accepted e

/-- What the cursor stands for was applied. -/
structure Feed.Safe (w : Feed) : Prop where
  settled : w.Settled w.cache.sourceId w.cache.revision
  /-- content of a process was only ever replaced by content of that or of a newer one -/
  newer : w.accepted.Pairwise fun later earlier => w.age later.sourceId ≤ w.age earlier.sourceId

/-- The condition on a step under which the promise is kept. -/
def Feed.Orderly (w : Feed) : FeedLabel → Prop
  -- it is the oldest of those that wait, and HBBS's channel has room for it
  | .deliver e => e.relevant = true →
      (∀ x, w.Pending x → x.relevant = true → e.revision ≤ x.revision) ∧
      ∀ id, w.stream.subscriber = some id → (w.hub.channel id).length < channelSize
  -- the history still reaches back to the cursor
  | .serve sourceId revision => ∀ e ∈ w.delivered, e.relevant = true →
      e.sourceId = w.hub.sourceId → sourceId ≠ w.hub.sourceId ∨ revision < e.revision →
      e ∈ w.hub.history
  -- what arrives is not older than what the cache holds
  | .read e => e.relevant = true → w.age e.sourceId ≤ w.age w.cache.sourceId
  | .reconcile s => w.age s.sourceId ≤ w.age w.cache.sourceId
  | _ => True

def OrderlyStep (w : Feed) (l : FeedLabel) (w' : Feed) : Prop := FeedStep w l w' ∧ w.Orderly l

end RemoteControl.Sync
