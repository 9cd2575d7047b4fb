import RemoteControl.Control.Session
import RemoteControl.Hbbr.Relay

/-!
# A site

Everything that decides what a relay in WSS mode reports, and how it is answered: the outbox,
the control channel and the database (`World`), the relay's own tables of permits and
connections (`data`), the permits on their way from the gateway to the relay, and the relay's
record, whose host name and port administrators may edit.

The gateway makes up one permit command for a UUID, after `AuthorizeRelay` succeeded for it
(`Command` of `relaygateway/gateway.go`), and writes it again every 750 ms until it is answered.
`granted` are the UUIDs whose command is still to be made up, `requests` the permit commands that
were, and `commands` the copies that are still to be read: a message of a WebSocket is read at
most once. That a command permits once is up to the relay, which remembers it for the session.
A relay that starts again has lost its tables, but not its outbox.

> The name under which a connection is projected is made from the relay's record as it is when
> an event is received, not as it was when the connection began.
-/

namespace RemoteControl.Control

open Lib Hbbr

/-! ## The relay's record -/

/-- The body of `POST` and `PATCH /api/admin/relay-servers`, as far as it is used here. -/
structure RelayForm where
  name : String
  hostname : String
  port : Int
  region : String
  enabled : Bool
deriving DecidableEq, Repr

/-- `validRelay`, which also trims the texts. -/
def RelayForm.validRelay (trimSpace : String → String) (v : RelayForm) : Option RelayForm :=
  let name := trimSpace v.name
  let hostname := trimSpace v.hostname
  let region := trimSpace v.region
  if 2 ≤ name.utf8ByteSize ∧ name.utf8ByteSize ≤ 128 ∧ 1 ≤ hostname.utf8ByteSize
      ∧ hostname.utf8ByteSize ≤ 253 ∧ 1 ≤ v.port ∧ v.port ≤ 65535 ∧ region.utf8ByteSize ≤ 64 then
    some { v with name, hostname, region }
  else none

/-- `net.JoinHostPort`: a host with a colon is an IPv6 address. -/
def joinHostPort (host : String) (port : Int) : String :=
  if ':' ∈ host.toList then "[" ++ host ++ "]:" ++ toString port else host ++ ":" ++ toString port

def RelayForm.address (v : RelayForm) : String := joinHostPort v.hostname v.port

/-! ## The system -/

structure Site where
  world : World
  /-- permits, waiting connections and pairs of the relay's process -/
  data : Relay.State
  /-- host name and port of the relay's record -/
  address : String
  /-- UUIDs authorised to the relay whose permit was not written yet -/
  granted : List String
  /-- permit commands of the gateway, whether they were read or not -/
  requests : List Relay.Command
  /-- messages of the gateway that were not read yet -/
  commands : List Relay.Command

def Site.db (s : Site) : Api.Db := s.world.api.db

/-- What happens to the database outside of the calls. -/
def Site.withDb (s : Site) (db : Api.Db) : Site :=
  { s with world := { s.world with api := { s.world.api with db } } }

/-- The steps of `World` as they happen here: pairs are reported by `SiteStep.report`, the
address of a call is that of the record, the events of this relay come from its own channel, and
its record is written by `SiteStep.create` and `SiteStep.edit`. -/
def Site.allows (id : String) (s : Site) : Label → Bool
  | .relay (.op (.report _ status _ _)) => status ≠ "active"
  | .read _ _ address => address = s.address
  | .others (.begin c) => c.message?.isNone || c.relayId ≠ id
  | .others (.admin (.createRelay i _)) | .others (.admin (.setRelayEnabled i _)) => i ≠ id
  | _ => true

/-- The tables live and die with the process; the names of sessions come from the API, which
names every one anew. -/
def Site.dataAfter (s : Site) : Label → Relay.State
  | .relay (.op _) => s.data
  | .relay _ => { Relay.State.start with sessions := s.data.sessions }
  | _ => s.data

def Site.grantedAfter (id : String) (s : Site) : Label → List String
  | .others (.finish (.authorizeInsert i uuid _) .authorized) =>
    if i = id then uuid :: s.granted else s.granted
  | _ => s.granted

/-- Steps of the relay's tables in which neither the outbox nor the gateway takes part. -/
def isInner : Relay.Label → Bool
  | .command .. | .reported | .reportFailed => false
  | _ => true

/-- How `accept_authorized` goes on after the report. -/
def reportLabel : Except OutboxError Unit → Relay.Label
  | .ok _ => .reported
  | .error _ => .reportFailed

inductive SiteLabel
  | world (l : Label)
  | data (l : Relay.Label)
  | report (uuid : String) (now : Nat) (fault : WriteFault)
  | write (c : Relay.Command)
  | read (c : Relay.Command)
  | create (v : RelayForm)
  | edit (v : RelayForm)

inductive SiteStep (hash : String → String) (src : UuidSource) (trimSpace : String → String)
    (id : String) : Site → SiteLabel → Site → Prop
  | world {s : Site} {l : Label} {w' : World} (hl : s.allows id l = true)
      (h : Step hash src id s.world l w') :
      SiteStep hash src trimSpace id s (.world l)
        { s with world := w', data := s.dataAfter l, granted := s.grantedAfter id l }
  | data {s : Site} {l : Relay.Label} {d' : Relay.State}
      (hp : s.world.relay.proc.isSome = true) (hl : isInner l = true)
      (h : Relay.WssStep s.data l d') :
      SiteStep hash src trimSpace id s (.data l) { s with data := d' }
  -- the second connection found the first one waiting
  | report {s : Site} {o : Outbox} {uuid : String} {a : Relay.Admission}
      {peer : Relay.Pending} {result : Except OutboxError Unit} {m : Machine}
      {d' : Relay.State} (now : Nat) (fault : WriteFault)
      (hp : s.world.relay.proc = some o) (hh : s.data.holder = some (.met uuid a peer))
      (hr : (s.world.relay.machine o).report src uuid "active" now fault = (result, m))
      (hd : Relay.DataStep s.data (reportLabel result) d') :
      SiteStep hash src trimSpace id s (.report uuid now fault)
        { s with world := { s.world with relay := m.toSystem }, data := d' }
  -- one permit command for each authorisation; terminations as one likes
  | permit {s : Site} {c : Relay.Command} (hc : c.action = "permit")
      (hg : c.uuid ∈ s.granted) :
      SiteStep hash src trimSpace id s (.write c)
        { s with
          granted := s.granted.erase c.uuid
          requests := c :: s.requests
          commands := c :: s.commands }
  -- the ticker of `Command`: the same message once more
  | retry {s : Site} {c : Relay.Command} (hc : c ∈ s.requests) :
      SiteStep hash src trimSpace id s (.write c) { s with commands := c :: s.commands }
  | terminate {s : Site} {c : Relay.Command} (hc : c.action = "terminate") :
      SiteStep hash src trimSpace id s (.write c) { s with commands := c :: s.commands }
  | read {s : Site} {c : Relay.Command} {d' : Relay.State} (wall : Nat)
      (available : Bool) (hp : s.world.relay.proc.isSome = true) (hc : c ∈ s.commands)
      (h : Relay.WssStep s.data (.command c wall available) d') :
      SiteStep hash src trimSpace id s (.read c)
        { s with data := d', commands := s.commands.erase c }
  -- `createRelayServer`, or the first telemetry of a relay nobody has entered
  | create {s : Site} {v v' : RelayForm} (hn : s.db.relays.get? id = none)
      (hv : v.validRelay trimSpace = some v') :
      SiteStep hash src trimSpace id s (.create v)
        { s.withDb (s.db.createRelay id true) with address := v'.address }
  -- `updateRelayServer`
  | edit {s : Site} {v v' : RelayForm} (hr : (s.db.relays.get? id).isSome = true)
      (hv : v.validRelay trimSpace = some v') :
      SiteStep hash src trimSpace id s (.edit v)
        { s.withDb (s.db.setRelayEnabled id v'.enabled) with address := v'.address }

/-- Before anything has happened: an empty database, and a relay that was never started. -/
def Site.start : Site where
  world := ⟨.start, none, none, [], [], [], [], ⟨.empty, []⟩⟩
  data := .start
  address := ""
  granted := []
  requests := []
  commands := []

def Site.Reached (hash : String → String) (src : UuidSource) (trimSpace : String → String)
    (id : String) (s : Site) : Prop :=
  Reachable (fun s => s = .start) (SiteStep hash src trimSpace id) s

end RemoteControl.Control
