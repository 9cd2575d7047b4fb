import RemoteControl.Hbbr.OutboxSize
import RemoteControl.Hbbr.RelayWss

/-!
# The size of a control message

The API reads at most 8192 bytes of a message (`SetReadLimit` in `relaygateway/gateway.go`) and closes
the control channel when there are more. What the relay sends (`session` of `control.rs`) always has
all fourteen fields beside the kind, and of the outbox up to one event, a sample of five, or a page of
ten:

> an event has at most 914 bytes, of which 770 are those of a UUID of 128 control characters.

Five events fit beside everything else, ten do not.
-/

namespace RemoteControl.Hbbr

open Lib List

variable {e : Event} {m : Machine} {offset : Nat} {page : QuarantinePage} {w : Relay.State}
  {v : Snapshot} {requestId revision : String} {src : UuidSource}

/-! ## JSON -/

def jsonBoolLen (b : Bool) : Nat := if b then 4 else 5

/-- A missing value is written as `null`. -/
def jsonOptionLen {α : Type} (len : α → Nat) : Option α → Nat
  | none => 4
  | some a => len a

/-- The length of an object, from its names and the lengths of its values. -/
def jsonObjectLen (fields : List (String × Nat)) : Nat :=
  jsonArrayLen fields.length (fields.map fun f => jsonStringLen f.1 + 1 + f.2).sum

/-- The names of an object have a length `k` of their own, with their colons. -/
theorem jsonObjectLen_of_names {fields : List (String × Nat)} {k : Nat}
    (h : ((fields.map Prod.fst).map fun name => jsonStringLen name + 1).sum = k) :
    jsonObjectLen fields = jsonArrayLen fields.length (k + (fields.map Prod.snd).sum) := by
  have hsplit : (fields.map fun f => jsonStringLen f.1 + 1 + f.2).sum
      = (fields.map fun f => jsonStringLen f.1 + 1).sum + (fields.map Prod.snd).sum :=
    sum_map_add
  rw [map_map] at h
  unfold jsonObjectLen
  rw [hsplit, ← h]
  rfl

theorem jsonStringLen_le (t : String) : jsonStringLen t ≤ 2 + 6 * t.utf8ByteSize := by
  have hone : ∀ c : Char, escapedLen c ≤ 6 * c.utf8Size := by
    intro c
    have hpos := c.utf8Size_pos
    unfold escapedLen
    split_ifs <;> omega
  have hsum : ∀ l : List Char, (l.map escapedLen).sum ≤ 6 * (String.ofList l).utf8ByteSize := by
    intro l
    induction l with
    | nil => exact Nat.zero_le _
    | cons c l ih =>
      rw [map_cons, sum_cons, String.ofList_cons, String.utf8ByteSize_append,
        String.utf8ByteSize_singleton]
      have hc := hone c
      omega
  have ht := hsum t.toList
  rw [String.ofList_toList] at ht
  unfold jsonStringLen
  omega

theorem jsonNatLen_le {n : Nat} (h : n < 2 ^ 64) : jsonNatLen n ≤ 20 :=
  Nat.repr_length n 20 (by decide) (Nat.lt_trans h (by decide))

/-! ## Messages -/

structure DeliveryStatus where
  pending : Nat
  quarantined : Nat
  reserved : Nat
  capacity : Nat
  healthy : Bool
  blocked : Bool
  oldestAt : Nat
  sample : List Event

def Machine.status (m : Machine) : DeliveryStatus where
  pending := m.snapshot.events.length
  quarantined := m.snapshot.quarantine.length
  reserved := m.snapshot.active.card
  capacity := Hbbr.capacity
  healthy := m.outbox.healthy
  blocked := !m.canAdmit
  oldestAt := m.front.elim 0 Event.createdAt
  sample := m.snapshot.quarantine.take 5

inductive MessageKind
  | ready | ack | lifecycle | telemetry | quarantineReply
deriving DecidableEq, Repr

def MessageKind.text : MessageKind → String
  | .ready => "ready"
  | .ack => "ack"
  | .lifecycle => "lifecycle"
  | .telemetry => "telemetry"
  | .quarantineReply => "quarantine_reply"

/-- `Message` of `control.rs`; every field but the kind has a default. -/
structure Message where
  revision : String := ""
  offset : Nat := 0
  quarantinePage : Option QuarantinePage := none
  delivery : Option DeliveryStatus := none
  reason : String := ""
  durable : Bool := false
  kind : MessageKind
  session : String := ""
  requestId : String := ""
  uuid : String := ""
  action : String := ""
  status : String := ""
  expiresAt : Nat := 0
  connections : Nat := 0
  bandwidth : Nat := 0

def QuarantinePage.jsonLen (p : QuarantinePage) : Nat := jsonObjectLen
  [("revision", jsonStringLen p.revision), ("total", jsonNatLen p.total),
    ("offset", jsonNatLen p.offset), ("events", jsonEventsLen p.events)]

def DeliveryStatus.jsonLen (d : DeliveryStatus) : Nat := jsonObjectLen
  [("pending", jsonNatLen d.pending), ("quarantined", jsonNatLen d.quarantined),
    ("reserved", jsonNatLen d.reserved), ("capacity", jsonNatLen d.capacity),
    ("healthy", jsonBoolLen d.healthy), ("blocked", jsonBoolLen d.blocked),
    ("oldest_at", jsonNatLen d.oldestAt), ("sample", jsonEventsLen d.sample)]

def Message.jsonLen (m : Message) : Nat := jsonObjectLen
  [("revision", jsonStringLen m.revision), ("offset", jsonNatLen m.offset),
    ("quarantine_page", jsonOptionLen QuarantinePage.jsonLen m.quarantinePage),
    ("delivery", jsonOptionLen DeliveryStatus.jsonLen m.delivery),
    ("reason", jsonStringLen m.reason), ("durable", jsonBoolLen m.durable),
    ("type", jsonStringLen m.kind.text), ("session", jsonStringLen m.session),
    ("request_id", jsonStringLen m.requestId), ("uuid", jsonStringLen m.uuid),
    ("action", jsonStringLen m.action), ("status", jsonStringLen m.status),
    ("expires_at", jsonNatLen m.expiresAt), ("connections", jsonNatLen m.connections),
    ("bandwidth", jsonNatLen m.bandwidth)]

theorem QuarantinePage.jsonLen_eq (p : QuarantinePage) :
    p.jsonLen = 42 + jsonStringLen p.revision + jsonNatLen p.total + jsonNatLen p.offset
      + jsonEventsLen p.events := by
  refine (jsonObjectLen_of_names (k := 37) ?_).trans ?_
  · simp only [map_cons, map_nil]
    decide
  · simp only [map_cons, map_nil, sum_cons, sum_nil, length_cons, length_nil, jsonArrayLen]
    omega

theorem DeliveryStatus.jsonLen_eq (d : DeliveryStatus) :
    d.jsonLen = 96 + jsonNatLen d.pending + jsonNatLen d.quarantined + jsonNatLen d.reserved
      + jsonNatLen d.capacity + jsonBoolLen d.healthy + jsonBoolLen d.blocked
      + jsonNatLen d.oldestAt + jsonEventsLen d.sample := by
  refine (jsonObjectLen_of_names (k := 87) ?_).trans ?_
  · simp only [map_cons, map_nil]
    decide
  · simp only [map_cons, map_nil, sum_cons, sum_nil, length_cons, length_nil, jsonArrayLen]
    omega

theorem Message.jsonLen_eq (m : Message) :
    m.jsonLen = 178 + jsonStringLen m.revision + jsonNatLen m.offset
      + jsonOptionLen QuarantinePage.jsonLen m.quarantinePage
      + jsonOptionLen DeliveryStatus.jsonLen m.delivery + jsonStringLen m.reason
      + jsonBoolLen m.durable + jsonStringLen m.kind.text + jsonStringLen m.session
      + jsonStringLen m.requestId + jsonStringLen m.uuid + jsonStringLen m.action
      + jsonStringLen m.status + jsonNatLen m.expiresAt + jsonNatLen m.connections
      + jsonNatLen m.bandwidth := by
  refine (jsonObjectLen_of_names (k := 162) ?_).trans ?_
  · simp only [map_cons, map_nil]
    decide
  · simp only [map_cons, map_nil, sum_cons, sum_nil, length_cons, length_nil, jsonArrayLen]
    omega

/-! ## What the relay sends -/

/-- `manage_quarantine`. Its caller only asks whether there is a page. -/
def Machine.manageQuarantine (src : UuidSource) (action revision : String) (offset : Nat)
    (backup : BackupFault) (fault : WriteFault) (m : Machine) : Option QuarantinePage × Machine :=
  if action = "archive" then
    match m.archiveQuarantine src revision backup fault with
    | (.error _, m') => (none, m')
    | (.ok (), m') => (some ⟨revision, 0, 0, []⟩, m')
  else if action = "list" then ((m.quarantinePage revision offset).toOption, m)
  else (none, m)

/-- The identity that a request of the gateway must have. -/
def validRequest (requestId : String) : Bool := requestId ≠ "" && requestId.utf8ByteSize ≤ 64

/-- `apply_command` has returned this status: it is in the cache of the session. -/
def Relay.State.Answers (w : Relay.State) (session : String) (c : Relay.Command) (status : String) :
    Prop :=
  validRequest c.requestId = true ∧ validUuid c.uuid = true ∧
    ∃ seen, w.control = .live session seen ∧ seen.get? c.requestId = some (c.seen status)

def Message.quarantineReply (session requestId : String) : Option QuarantinePage → Message
  | some page =>
    { kind := .quarantineReply, session, requestId, status := "ok", quarantinePage := some page }
  | none => { kind := .quarantineReply, session, requestId, status := "conflict" }

/-- The messages of `session`, from the tables `w` and the outbox `m`. -/
inductive Sends (src : UuidSource) (session : String) (w : Relay.State) (m : Machine) : Message → Prop
  | ready : Sends src session w m { kind := .ready, session }
  | ack {c : Relay.Command} {status : String} (h : w.Answers session c status) :
      Sends src session w m
        { kind := .ack, session, requestId := c.requestId, uuid := c.uuid, status }
  | lifecycle {e : Event} {m' : Machine} {fault : WriteFault}
      (h : m.nextEvent fault = (.ok (some e), m')) :
      Sends src session w m
        { kind := .lifecycle, session, requestId := e.id, uuid := e.uuid, status := e.status }
  | telemetry {connections bandwidth : Nat} (hc : connections < 2 ^ 64) (hb : bandwidth < 2 ^ 64) :
      Sends src session w m
        { kind := .telemetry, session, connections, bandwidth, delivery := some m.status }
  | quarantineReply {requestId action revision : String} {offset : Nat} {backup : BackupFault}
      {fault : WriteFault} (h : validRequest requestId = true) :
      Sends src session w m (.quarantineReply session requestId
        (m.manageQuarantine src action revision offset backup fault).1)

/-! ## The answers to commands -/

/-- The texts that `apply_command` returns. -/
def Relay.IsAnswer (status : String) : Prop :=
  status = "permitted" ∨ status = "terminated" ∨ status = "not_found"

def Relay.State.AnswersKnown (w : Relay.State) : Prop :=
  ∀ session seen, w.control = .live session seen → ∀ s ∈ seen.rows, Relay.IsAnswer s.status

theorem Relay.answersKnown_insert {session : String} {seen : Table Relay.Seen.requestId}
    {s : Relay.Seen} (h : w.AnswersKnown) (hl : w.control = .live session seen)
    (hs : Relay.IsAnswer s.status) : ∀ r ∈ (seen.insert s).rows, Relay.IsAnswer r.status := by
  intro r hr
  rcases Table.mem_insert hr with hr | rfl
  · exact h session seen hl r hr
  · exact hs

theorem Relay.answersKnown_wss {w' : Relay.State} {l : Relay.Label} (h : w.AnswersKnown)
    (hs : Relay.WssStep w l w') : w'.AnswersKnown := by
  cases hs with
  | data hd => cases hd <;> exact h
  | hello | sessionEnds | refuse | permitRefused => exact nofun
  | clear | clearPermits | replay | beginPermit | beginTerminate => exact h
  | clearPending hh =>
    intro session seen he
    cases hc : w.control with
    | greeted s =>
      rw [show w.control.cleared = .live s .empty by rw [hc]; rfl] at he
      cases he
      exact nofun
    | disconnected | live | ended =>
      rw [show w.control.cleared = .disconnected by rw [hc]; rfl] at he
      cases he
  | permitted hh hl hf =>
    intro session seen he
    cases he
    exact Relay.answersKnown_insert h hl (.inl rfl)
  | @terminated session uuid seen c pending hh hl =>
    intro session' seen' he
    cases he
    refine Relay.answersKnown_insert h hl ?_
    show Relay.IsAnswer (w.terminateStatus uuid pending)
    unfold Relay.State.terminateStatus
    split
    · exact .inr (.inl rfl)
    · exact .inr (.inr rfl)

theorem Relay.answersKnown_of_reached (h : w.ReachedWss) : w.AnswersKnown := by
  refine h.invariant (I := Relay.State.AnswersKnown) (fun w hw => ?_) fun w l w' hw hs => Relay.answersKnown_wss hw hs
  rw [hw]
  exact nofun

/-! ## Bounds -/

/-- `SetReadLimit`. -/
def readLimit : Nat := 8192

/-- What the types of the source say: `Uuid::parse_str` takes at most 45 characters, none of which is
escaped, and `created_at` has 64 bits. -/
structure Snapshot.Typed (v : Snapshot) : Prop where
  events : ∀ e ∈ v.events ++ v.quarantine, jsonStringLen e.id ≤ 47 ∧ e.createdAt < 2 ^ 64
  revision : jsonStringLen v.quarantineRevision ≤ 47
  lastArchive : jsonStringLen v.lastArchive ≤ 47

theorem jsonStringLen_uuid {uuid : String} (h : validUuid uuid = true) : jsonStringLen uuid ≤ 770 := by
  have hlen := jsonStringLen_le uuid
  simp only [validUuid, Bool.and_eq_true, decide_eq_true_eq] at h
  omega

theorem jsonStringLen_request (h : validRequest requestId = true) :
    jsonStringLen requestId ≤ 386 := by
  have hlen := jsonStringLen_le requestId
  simp only [validRequest, Bool.and_eq_true, decide_eq_true_eq] at h
  omega

theorem Event.Sound.status_len (h : e.Sound src) : jsonStringLen e.status = 8 := by
  rcases h.2.2 with hs | hs <;> rw [hs] <;> decide

/-- What an event costs on a page, beside what is the same for all. -/
def Event.ownLen (e : Event) : Nat :=
  jsonStringLen e.id + jsonStringLen e.uuid + jsonNatLen e.createdAt

theorem Openable.quarantined_len (h : Openable src v) (he : e ∈ v.quarantine) :
    e.jsonLen = 77 + e.ownLen := by
  have hstatus := (h.sound e (mem_append_right _ he)).status_len
  have hreason : jsonStringLen e.reason = 20 := by
    rw [h.reasons e he]
    decide
  unfold Event.jsonLen Event.ownLen
  omega

theorem Openable.quarantined_le (h : Openable src v) (htyped : v.Typed) (he : e ∈ v.quarantine) :
    e.jsonLen ≤ 914 := by
  have hmem : e ∈ v.events ++ v.quarantine := mem_append_right _ he
  obtain ⟨hid, htime⟩ := htyped.events e hmem
  have huuid := jsonStringLen_uuid (h.sound e hmem).2.1
  have htime := jsonNatLen_le htime
  rw [h.quarantined_len he]
  unfold Event.ownLen
  omega

theorem sample_len (h : Openable src v) (htyped : v.Typed) :
    jsonEventsLen (v.quarantine.take 5) ≤ 4576 := by
  have hcount : (v.quarantine.take 5).length ≤ 5 := length_take_le _ _
  have hsum : ((v.quarantine.take 5).map Event.jsonLen).sum ≤ (v.quarantine.take 5).length * 914 := by
    have hle := sum_le_card_nsmul ((v.quarantine.take 5).map Event.jsonLen) 914 fun n hn => by
      obtain ⟨e, he, rfl⟩ := mem_map.mp hn
      exact h.quarantined_le htyped (mem_of_mem_take he)
    simpa using hle
  unfold jsonEventsLen jsonArrayLen
  omega

theorem jsonBoolLen_le (b : Bool) : jsonBoolLen b ≤ 5 := by
  unfold jsonBoolLen
  split <;> decide

theorem status_len (h : Openable src m.snapshot) (ht : m.snapshot.total ≤ capacity)
    (htyped : m.snapshot.Typed) : m.status.jsonLen ≤ 4782 := by
  have hcap : capacity < 2 ^ 64 := by decide
  unfold Snapshot.total at ht
  have hpending : jsonNatLen m.status.pending ≤ 20 :=
    jsonNatLen_le (show m.snapshot.events.length < _ by omega)
  have hquarantined : jsonNatLen m.status.quarantined ≤ 20 :=
    jsonNatLen_le (show m.snapshot.quarantine.length < _ by omega)
  have hreserved : jsonNatLen m.status.reserved ≤ 20 :=
    jsonNatLen_le (show m.snapshot.active.card < _ by omega)
  have hcapacity : jsonNatLen m.status.capacity ≤ 20 := jsonNatLen_le hcap
  have holdest : jsonNatLen m.status.oldestAt ≤ 20 := by
    refine jsonNatLen_le ?_
    show m.snapshot.events.head?.elim 0 Event.createdAt < 2 ^ 64
    cases hf : m.snapshot.events.head? with
    | none => decide
    | some e => exact (htyped.events e (mem_append_left _ (mem_of_mem_head? hf))).2
  have hsample : jsonEventsLen m.status.sample ≤ 4576 := sample_len h htyped
  have hhealthy := jsonBoolLen_le m.status.healthy
  have hblocked := jsonBoolLen_le m.status.blocked
  rw [DeliveryStatus.jsonLen_eq]
  omega

theorem kind_len (k : MessageKind) : jsonStringLen k.text ≤ 18 := by
  cases k <;> decide

section

variable {kind : MessageKind} {session uuid status : String}

/-- A message that only names things. -/
theorem plain_len :
    Message.jsonLen { kind, session, requestId, uuid, status }
      = 201 + jsonStringLen kind.text + jsonStringLen session + jsonStringLen requestId
        + jsonStringLen uuid + jsonStringLen status := by
  have hempty : jsonStringLen "" = 2 := by decide
  have hzero : jsonNatLen 0 = 1 := by decide
  have hfalse : jsonBoolLen false = 5 := rfl
  rw [Message.jsonLen_eq]
  simp only [jsonOptionLen, hempty, hzero, hfalse]
  omega

theorem plain_fits (hsession : jsonStringLen session = 38) (hrequest : jsonStringLen requestId ≤ 386)
    (huuid : jsonStringLen uuid ≤ 770) (hstatus : jsonStringLen status ≤ 12) :
    Message.jsonLen { kind, session, requestId, uuid, status } ≤ readLimit := by
  have hkind := kind_len kind
  rw [plain_len]
  unfold readLimit
  omega

theorem telemetry_fits {connections bandwidth : Nat} {d : DeliveryStatus}
    (hsession : jsonStringLen session = 38) (hc : connections < 2 ^ 64) (hb : bandwidth < 2 ^ 64)
    (hd : d.jsonLen ≤ 4782) :
    Message.jsonLen { kind := .telemetry, session, connections, bandwidth, delivery := some d }
      ≤ readLimit := by
  have hempty : jsonStringLen "" = 2 := by decide
  have hzero : jsonNatLen 0 = 1 := by decide
  have hfalse : jsonBoolLen false = 5 := rfl
  have hkind := kind_len .telemetry
  have hconnections := jsonNatLen_le hc
  have hbandwidth := jsonNatLen_le hb
  rw [Message.jsonLen_eq]
  simp only [jsonOptionLen, hempty, hzero, hfalse]
  unfold readLimit
  omega

/-- What a page costs, beside what is the same for all. -/
def QuarantinePage.ownLen (p : QuarantinePage) : Nat :=
  jsonStringLen p.revision + jsonNatLen p.total + jsonNatLen p.offset
    + (p.events.map fun e => 77 + e.ownLen).sum + (p.events.length - 1)

theorem page_len (h : ∀ e ∈ page.events, e.jsonLen = 77 + e.ownLen) :
    (Message.quarantineReply session requestId (some page)).jsonLen
      = 265 + jsonStringLen session + jsonStringLen requestId + page.ownLen := by
  have hempty : jsonStringLen "" = 2 := by decide
  have hzero : jsonNatLen 0 = 1 := by decide
  have hfalse : jsonBoolLen false = 5 := rfl
  have hok : jsonStringLen "ok" = 4 := by decide
  have hkind : jsonStringLen MessageKind.quarantineReply.text = 18 := by decide
  have hevents : page.events.map Event.jsonLen = page.events.map fun e => 77 + e.ownLen :=
    map_congr_left h
  have hpage := page.jsonLen_eq
  unfold jsonEventsLen jsonArrayLen at hpage
  rw [hevents] at hpage
  unfold Message.quarantineReply
  rw [Message.jsonLen_eq]
  simp only [jsonOptionLen, hempty, hzero, hfalse, hok, hkind]
  unfold QuarantinePage.ownLen
  omega

end

/-- A page has events that stand together in the quarantine, at most ten of them, under a revision of
the outbox. -/
theorem manageQuarantine_window {action : String} {backup : BackupFault} {fault : WriteFault}
    (h : (m.manageQuarantine src action revision offset backup fault).1 = some page) :
    page.events <:+: m.snapshot.quarantine ∧ page.events.length ≤ 10 ∧
      page.total ≤ m.snapshot.quarantine.length ∧ page.offset ≤ m.snapshot.quarantine.length ∧
      (page.revision = m.snapshot.quarantineRevision ∨ page.revision = m.snapshot.lastArchive) := by
  unfold Machine.manageQuarantine at h
  split_ifs at h with harchive hlist
  · -- an archive is answered with an empty page under the revision of the request
    split at h
    · cases h
    next hok =>
    cases h
    refine ⟨List.nil_infix, Nat.zero_le _, Nat.zero_le _, Nat.zero_le _, ?_⟩
    unfold Machine.archiveQuarantine at hok
    split_ifs at hok with hparse hlast hchanged
    · cases hok
    · exact .inr hlast.symm
    · cases hok
    · exact .inl (not_not.mp fun hne => hchanged (.inr hne))
    · exact .inl (not_not.mp fun hne => hchanged (.inr hne))
  · unfold Machine.quarantinePage at h
    split_ifs at h with hchanged hoffset
    · cases h
    · cases h
    cases h
    exact ⟨((List.take_prefix _ _).isInfix).trans (drop_suffix _ _).isInfix,
      length_take_le _ _, Nat.le_refl _, Nat.le_of_not_lt hoffset, .inl rfl⟩

/-- What a page costs, if the UUIDs on it have `n` bytes together. -/
theorem page_ownLen (htyped : m.snapshot.Typed) (ht : m.snapshot.total ≤ capacity) {n : Nat}
    (hwindow : page.events <:+: m.snapshot.quarantine) (hcount : page.events.length ≤ 10)
    (hn : (page.events.map fun e => jsonStringLen e.uuid).sum ≤ n)
    (htotal : page.total ≤ m.snapshot.quarantine.length)
    (hoffset : page.offset ≤ m.snapshot.quarantine.length)
    (hrevision : jsonStringLen page.revision ≤ 47) : page.ownLen ≤ 1504 + n := by
  have hcap : capacity = 4096 := rfl
  have hdigits : ∀ n ≤ capacity, jsonNatLen n ≤ 4 := fun n hn =>
    Nat.repr_length n 4 (by decide) (by omega)
  unfold Snapshot.total at ht
  have hsum : (page.events.map fun e => 77 + e.ownLen).sum
      ≤ (page.events.map fun e => jsonStringLen e.uuid + 144).sum := by
    refine sum_le_sum fun e he => ?_
    obtain ⟨hid, htime⟩ := htyped.events e (mem_append_right _ (hwindow.subset he))
    have htime := jsonNatLen_le htime
    unfold Event.ownLen
    omega
  have hsplit : (page.events.map fun e => jsonStringLen e.uuid + 144).sum
      = (page.events.map fun e => jsonStringLen e.uuid).sum + page.events.length * 144 := by
    simp [sum_map_add]
  have htotal := hdigits page.total (by omega)
  have hoffset := hdigits page.offset (by omega)
  unfold QuarantinePage.ownLen
  omega

/-- **The read limit.** Whatever the relay sends in a session, from any outbox and any tables it can
come to, is within the limit of the API, if for an answer with a page of the quarantine no ten UUIDs
that stand together there have more than 6385 bytes in JSON with the id of the request. -/
theorem control_message_fits {src : UuidSource} {s : System} {o : Outbox} {w : Relay.State}
    {session : String} {msg : Message} (hs : s.Reached src) (hp : s.proc = some o)
    (hw : w.ReachedWss) (hsession : jsonStringLen session = 38) (htyped : o.snapshot.Typed)
    (hshort : msg.kind = .quarantineReply → ∀ es, es <:+: o.snapshot.quarantine → es.length ≤ 10 →
      jsonStringLen msg.requestId + (es.map fun e => jsonStringLen e.uuid).sum ≤ 6385)
    (h : Sends src session w (s.machine o) msg) : msg.jsonLen ≤ readLimit := by
  have hopen : Openable src o.snapshot := (restartable_of_reached hs o hp).1
  have htotal : o.snapshot.total ≤ capacity := (reserved_of_reached hs _ (memory_mem_views hp)).1
  have hempty : jsonStringLen "" = 2 := by decide
  cases h with
  | ready => refine plain_fits hsession ?_ ?_ ?_ <;> omega
  | @ack c status hanswer =>
    obtain ⟨hrequest, huuid, seen, hl, hseen⟩ := hanswer
    refine plain_fits hsession (jsonStringLen_request hrequest) (jsonStringLen_uuid huuid) ?_
    have hknown := Relay.answersKnown_of_reached hw session seen hl _ (Table.mem_of_get? hseen)
    rcases hknown with hstatus | hstatus | hstatus
    all_goals
      obtain rfl : status = _ := hstatus
      decide
  | @lifecycle e m' fault hnext =>
    have hfront : e ∈ o.snapshot.events := by
      have hhead : o.snapshot.events.head? = some e := by
        rw [← (nextEvent_ok hnext).2]
        exact (congrArg (fun v => v.events.head?) (nextEvent_snapshot hnext)).symm
      exact mem_of_mem_head? hhead
    have hsound := hopen.sound e (mem_append_left _ hfront)
    have hid := (htyped.events e (mem_append_left _ hfront)).1
    have hstatus := hsound.status_len
    refine plain_fits hsession ?_ (jsonStringLen_uuid hsound.2.1) ?_ <;> omega
  | telemetry hc hb =>
    exact telemetry_fits hsession hc hb (status_len (m := s.machine o) hopen htotal htyped)
  | @quarantineReply requestId action revision offset backup fault hrequest =>
    cases hpage : ((s.machine o).manageQuarantine src action revision offset backup fault).1 with
    | none =>
      have hconflict : jsonStringLen "conflict" = 10 := by decide
      refine plain_fits hsession (jsonStringLen_request hrequest) ?_ ?_ <;> omega
    | some page =>
      rw [hpage] at hshort
      obtain ⟨hwindow, hcount, htot, hoff, hrev⟩ := manageQuarantine_window hpage
      have huuids : jsonStringLen requestId
          + (page.events.map fun e => jsonStringLen e.uuid).sum ≤ 6385 :=
        hshort rfl page.events hwindow hcount
      have hrevision : jsonStringLen page.revision ≤ 47 := by
        rcases hrev with hrev | hrev
        · rw [hrev]
          exact htyped.revision
        · rw [hrev]
          exact htyped.lastArchive
      have hown := page_ownLen (m := s.machine o) htyped htotal hwindow hcount (Nat.le_refl _)
        htot hoff hrevision
      rw [page_len fun e he => hopen.quarantined_len (hwindow.subset he), hsession]
      unfold readLimit
      omega

/-- UUIDs of at most 599 bytes in JSON never are too long; all without control characters are
such. -/
theorem short_window {es : List Event} (hrequest : validRequest requestId = true)
    (hcount : es.length ≤ 10) (h : ∀ e ∈ es, jsonStringLen e.uuid ≤ 599) :
    jsonStringLen requestId + (es.map fun e => jsonStringLen e.uuid).sum ≤ 6385 := by
  have hlen := jsonStringLen_request hrequest
  have hle := sum_le_card_nsmul (es.map fun e => jsonStringLen e.uuid) 599 fun n hn => by
    obtain ⟨e, he, rfl⟩ := mem_map.mp hn
    exact h e he
  have hsum : (es.map fun e => jsonStringLen e.uuid).sum ≤ es.length * 599 := by simpa using hle
  omega

/-! ## Pages of control characters -/

def Event.rotated (e : Event) : Event := { e with reason := "credential_rotated" }

/-- An API whose credential was rotated rejects the whole queue, one event after another. -/
theorem quarantine_all (src : UuidSource) (s : System) {o : Outbox} (hp : s.proc = some o) :
    ∃ (s' : System) (o' : Outbox) (as : List Action) (revision : String),
      Run (Step src) s as s' ∧ s'.proc = some o' ∧ s'.recorded = s.recorded ∧
      s'.draws = s.draws + o.snapshot.events.length ∧
      o'.snapshot = { o.snapshot with
        events := []
        quarantine := o.snapshot.quarantine ++ o.snapshot.events.map Event.rotated
        quarantineRevision := revision } ∧
      (revision = o.snapshot.quarantineRevision ∨ ∃ k < s'.draws, revision = src.newV4 k) := by
  generalize hq : o.snapshot.events = es
  induction es generalizing s o with
  | nil =>
    refine ⟨s, o, [], _, .nil s, hp, rfl, rfl, ?_, .inl rfl⟩
    rw [map_nil, append_nil, ← hq]
  | cons front rest ih =>
    let op : Op := .quarantine front.id front.uuid front.status "credential_rotated" .none
    let m : Machine := { (s.machine o).setSnapshot { o.snapshot with
        events := rest
        quarantine := o.snapshot.quarantine ++ [front.rotated]
        quarantineRevision := src.newV4 s.draws } with draws := s.draws + 1 }
    have hperform : op.perform src (s.machine o) = (m.flush .none).2 := by
      show ((s.machine o).quarantine src front.id front.uuid front.status "credential_rotated"
        .none).2 = _
      unfold Machine.quarantine
      rw [show (s.machine o).snapshot.events = front :: rest from hq]
      simp only [ne_eq, not_true_eq_false, or_self, if_false]
      rfl
    have hstep : Step src s (.op op) (m.flush .none).2.toSystem := by
      rw [← hperform]
      exact .op op hp
    have hsnapshot : (m.flush .none).2.outbox.snapshot = m.snapshot := flush_snapshot .none m
    have hpast : (m.flush .none).2.past = m.past := flush_past .none m
    have hfirst : (m.flush .none).2.draws = s.draws + 1 := congrArg Past.draws hpast
    obtain ⟨s', o', as, revision, hrun, hp', hrecorded, hdraws, hafter, hrevision⟩ :=
      ih (s := (m.flush .none).2.toSystem) rfl (by rw [hsnapshot]; rfl)
    replace hdraws : s'.draws = (m.flush .none).2.draws + rest.length := hdraws
    rw [length_cons]
    refine ⟨s', o', _, revision, .cons hstep hrun, hp', hrecorded.trans (congrArg Past.recorded hpast),
      by omega, ?_, .inr ?_⟩
    · rw [hafter, hsnapshot, map_cons, append_cons]
      rfl
    · rw [hsnapshot] at hrevision
      rcases hrevision with hsame | hnew
      · exact ⟨s.draws, by omega, hsame⟩
      · exact hnew

/-- The quarantine of a relay all of whose `n` pairs were reported and rejected. -/
def controlQuarantine (n : Nat) : List Event := (List.range n).map fun i => (controlEvent i).rotated

theorem mem_controlQuarantine {n : Nat} (h : e ∈ controlQuarantine n) :
    ∃ i < n, e = (controlEvent i).rotated := by
  obtain ⟨i, hi, rfl⟩ := mem_map.mp h
  exact ⟨i, mem_range.mp hi, rfl⟩

theorem controlQuarantine_reached {n : Nat} (hn : n ≤ 1250) :
    ∃ (s : System) (o : Outbox), s.Reached .binary ∧ s.proc = some o ∧ o.snapshot.Typed ∧
      o.snapshot.events = [] ∧ o.snapshot.quarantine = controlQuarantine n := by
  obtain ⟨s, o, as, revision, hrun, hp, -, hdraws, hafter, hrevision⟩ :=
    quarantine_all .binary (.manyPairs n) rfl
  replace hdraws : s.draws = n + 1 + ((List.range n).map controlEvent).length := hdraws
  rw [length_map, length_range] at hdraws
  have hreached : s.Reached .binary := Reachable.run ⟨_, _, init_start _, manyPairs_run hn⟩ hrun
  have hevents : o.snapshot.events = [] := by rw [hafter]
  have hquarantine : o.snapshot.quarantine = controlQuarantine n := by
    rw [hafter]
    show [] ++ ((List.range n).map controlEvent).map Event.rotated = _
    rw [nil_append, map_map]
    rfl
  refine ⟨s, o, hreached, hp, ⟨fun e he => ?_, ?_, ?_⟩, hevents, hquarantine⟩
  · rw [hevents, hquarantine, nil_append] at he
    obtain ⟨i, hi, rfl⟩ := mem_controlQuarantine he
    refine ⟨?_, by show 0 < 2 ^ 64; decide⟩
    show jsonStringLen (binaryText (i + 1)) ≤ 47
    rw [jsonStringLen_binaryText (by omega)]
    decide
  · have hlen : ∀ k < 2501, jsonStringLen (binaryText k) ≤ 47 := by
      intro k hk
      rw [jsonStringLen_binaryText (by omega)]
      decide
    rw [hafter]
    rcases hrevision with rfl | ⟨k, hk, rfl⟩
    · exact hlen 0 (by omega)
    · exact hlen k (by omega)
  · rw [hafter]
    show jsonStringLen "" ≤ 47
    decide

theorem controlEvent_ownLen {i : Nat} (hi : i < capacity) : (controlEvent i).rotated.ownLen = 809 := by
  have hpow : capacity + 1 < 2 ^ 36 := by decide
  have hid : jsonStringLen (binaryText (i + 1)) = 38 := jsonStringLen_binaryText (by omega)
  have htime : jsonNatLen 0 = 1 := by decide
  show jsonStringLen (binaryText (i + 1)) + jsonStringLen (controlUuid i) + jsonNatLen 0 = 809
  rw [hid, jsonStringLen_controlUuid, htime]

/-- The first page of a quarantine of at most ten is all of it. -/
theorem first_page {s : System} {o : Outbox} (h : o.snapshot.quarantine.length ≤ 10) :
    ((s.machine o).manageQuarantine .binary "list" "" 0 .none .none).1
      = some (o.snapshot.backupPage o.snapshot.quarantineRevision) := by
  show some (⟨_, _, 0, (o.snapshot.quarantine.drop 0).take 10⟩ : QuarantinePage) = _
  rw [drop_zero, take_of_length_le h]
  rfl

theorem first_page_sent {s : System} {o : Outbox} (session : String) (w : Relay.State)
    (h : o.snapshot.quarantine.length ≤ 10) (hrequest : validRequest requestId = true) :
    Sends .binary session w (s.machine o) (.quarantineReply session requestId
      (some (o.snapshot.backupPage o.snapshot.quarantineRevision))) := by
  rw [← first_page h]
  exact .quarantineReply hrequest

/-- **Ten UUIDs of control characters do not fit.** Ten pairs are reported and their events rejected,
all with valid UUIDs. The first page of the quarantine is longer than the API reads, in any session,
whatever else the relay does. -/
theorem control_page_too_long : ∃ (s : System) (o : Outbox) (page : QuarantinePage),
    s.Reached .binary ∧ s.proc = some o ∧ o.snapshot.Typed ∧
    (∀ e ∈ o.snapshot.events ++ o.snapshot.quarantine, validUuid e.uuid = true) ∧
    ∀ session requestId w, validRequest requestId = true →
      Sends .binary session w (s.machine o) (.quarantineReply session requestId (some page)) ∧
      readLimit < (Message.quarantineReply session requestId (some page)).jsonLen := by
  obtain ⟨s, o, hs, hp, htyped, hevents, hten⟩ := controlQuarantine_reached (n := 10) (by decide)
  have hopen : Openable .binary o.snapshot := (restartable_of_reached hs o hp).1
  have hcount : o.snapshot.quarantine.length = 10 := by
    rw [hten, controlQuarantine, length_map, length_range]
  have hsum : (o.snapshot.quarantine.map fun e => 77 + e.ownLen).sum = 8860 := by
    have hmap : (o.snapshot.quarantine.map fun e => 77 + e.ownLen) = (List.range 10).map fun _ => 886 := by
      rw [hten, controlQuarantine, map_map]
      refine map_congr_left fun i hi => ?_
      have hcap : capacity = 4096 := rfl
      have hi : i < 10 := mem_range.mp hi
      show 77 + (controlEvent i).rotated.ownLen = 886
      rw [controlEvent_ownLen (by omega)]
    rw [hmap]
    decide
  refine ⟨s, o, o.snapshot.backupPage o.snapshot.quarantineRevision, hs, hp, htyped,
    fun e he => ?_, fun session requestId w hrequest =>
      ⟨first_page_sent session w (Nat.le_of_eq hcount) hrequest, ?_⟩⟩
  · rw [hevents, hten, nil_append] at he
    obtain ⟨i, -, rfl⟩ := mem_controlQuarantine he
    exact controlUuid_valid i
  · rw [page_len fun e he => hopen.quarantined_len he]
    unfold readLimit QuarantinePage.ownLen Snapshot.backupPage
    dsimp only
    omega

/-- Eight do: the page with all of them is sent, and is within the limit. -/
theorem control_page_fits : ∃ (s : System) (o : Outbox) (page : QuarantinePage),
    s.Reached .binary ∧ s.proc = some o ∧ page.events = controlQuarantine 8 ∧
    Sends .binary (binaryText 7) .start (s.machine o)
      (.quarantineReply (binaryText 7) (binaryText 9) (some page)) ∧
    (Message.quarantineReply (binaryText 7) (binaryText 9) (some page)).jsonLen ≤ readLimit := by
  obtain ⟨s, o, hs, hp, htyped, -, height⟩ := controlQuarantine_reached (n := 8) (by decide)
  have hsession : jsonStringLen (binaryText 7) = 38 := jsonStringLen_binaryText (by norm_num)
  have hrequest : jsonStringLen (binaryText 9) = 38 := jsonStringLen_binaryText (by norm_num)
  have hcount : o.snapshot.quarantine.length = 8 := by
    rw [height, controlQuarantine, length_map, length_range]
  have hvalid : validRequest (binaryText 9) = true := by
    rw [binaryText, if_pos (by norm_num), validRequest, utf8ByteSize_bitText (by decide) (by decide)]
    decide
  have hsends := first_page_sent (s := s) (o := o) (binaryText 7) .start (by omega) hvalid
  refine ⟨s, o, _, hs, hp, height, hsends, control_message_fits hs hp ⟨_, [], rfl, .nil _⟩ hsession
    htyped (fun _ es hes _ => ?_) hsends⟩
  -- no window has more than the eight UUIDs of 770 bytes
  have hle := sum_le_card_nsmul (es.map fun e => jsonStringLen e.uuid) 770 fun n hn => by
    obtain ⟨e, he, rfl⟩ := mem_map.mp hn
    obtain ⟨i, -, rfl⟩ := mem_controlQuarantine (height ▸ hes.subset he)
    exact Nat.le_of_eq (jsonStringLen_controlUuid i)
  have hsum : (es.map fun e => jsonStringLen e.uuid).sum ≤ es.length * 770 := by simpa using hle
  have hlen := hes.length_le
  show jsonStringLen (binaryText 9) + _ ≤ 6385
  omega

end RemoteControl.Hbbr
