import RemoteControl.Api.Answers

/-!
# The record of a connection

Two sides write the record of a relay connection. HBBS reports which relay it has assigned
to whom (`connectionAudit`, through `UpsertConnection`), the relay reports that the
connection is active and that it is closed (`ApplyRelayEvent`, through an upsert of its
own). Neither waits for the other, and HBBS may report twice.

Each upsert leaves alone what it knows nothing of:

> the relay's brings the address, the closing time and nothing else; HBBS's brings who,
> what and where, and no closing time.

So the record can be read off the set of reports, and their order does not matter.
-/

namespace RemoteControl.Api

open Lib List Label ConnectionRecord

variable {answer : Answer} {closed reported : Bool} {c : Call} {db db' : Db} {st : Lifecycle}
  {ls' : List Label} {now : Nat} {old : Option ConnectionRecord} {uuid : String}

/-! ## The report of HBBS -/

/-- What `connectionAudit` reads of an event; the metadata as `metadataText` and `metadataInt`
give them. -/
structure AuditEvent where
  eventType : String
  actorUserId : String
  actorSessionId : String
  controllerDevice : String
  targetRustdeskId : String
  ip : String
  relayUuid : String
  relayServer : String
  connectionType : Int64
  controllerLogin : String
  controllerDisplayName : String
deriving DecidableEq, Repr

/-- Login and display name: those of the actor, if there is such a user, or what the event has. -/
def AuditEvent.names (user? : Option (String × String)) (e : AuditEvent) : String × String :=
  if e.actorUserId = "" then (e.controllerLogin, e.controllerDisplayName)
  else user?.getD (e.controllerLogin, e.controllerDisplayName)

/-- The record of a report, made of the event and what is known of the user at the time. -/
def AuditEvent.record (user? : Option (String × String)) (now : Nat) (e : AuditEvent) :
    ConnectionRecord where
  key := connectionKey e.relayUuid
  actorUserId := e.actorUserId
  actorSessionId := e.actorSessionId
  controllerDevice := e.controllerDevice
  controllerName := (e.names user?).2
  controllerLogin := (e.names user?).1
  targetRustdeskId := e.targetRustdeskId
  connectionType := e.connectionType
  ip := e.ip
  transport := "relay"
  relayUuid := e.relayUuid
  relayServer := e.relayServer
  startedAt := now
  lastSeenAt := now
  closedAt := none

def AuditEvent.assigns (e : AuditEvent) : Bool :=
  e.eventType = "connection_relay_assigned" && e.relayUuid ≠ ""

def Db.connectionAudit (user? : Option (String × String)) (now : Nat) (e : AuditEvent) (db : Db) :
    Db :=
  if e.assigns then db.upsertConnection (e.record user? now) else db

/-! ## One record under the two upserts -/

theorem connectionKey_inj {u v : String} (h : connectionKey u = connectionKey v) : u = v := by
  have hlist := congrArg String.toList h
  simp only [connectionKey, String.toList_append, append_cancel_left_eq] at hlist
  exact String.toList_inj.mp hlist

/-- What `UpsertConnection` makes of a row that is there. -/
def ConnectionRecord.upserted (v c : ConnectionRecord) : ConnectionRecord :=
  { c with
    actorUserId := if v.actorUserId ≠ "" then v.actorUserId else c.actorUserId
    actorSessionId := if v.actorSessionId ≠ "" then v.actorSessionId else c.actorSessionId
    controllerDevice := if v.controllerDevice ≠ "" then v.controllerDevice else c.controllerDevice
    controllerName := if v.controllerName ≠ "" then v.controllerName else c.controllerName
    controllerLogin := if v.controllerLogin ≠ "" then v.controllerLogin else c.controllerLogin
    targetRustdeskId := v.targetRustdeskId
    connectionType := v.connectionType
    ip := if v.ip ≠ "" then v.ip else c.ip
    transport := if v.transport ≠ "" then v.transport else c.transport
    relayUuid := if v.relayUuid ≠ "" then v.relayUuid else c.relayUuid
    relayServer := if v.relayServer ≠ "" then v.relayServer else c.relayServer
    startedAt := if v.startedAt < c.startedAt then v.startedAt else c.startedAt
    lastSeenAt := if c.lastSeenAt < v.lastSeenAt then v.lastSeenAt else c.lastSeenAt
    closedAt := if v.closedAt.isSome then v.closedAt else c.closedAt }

/-- What `ApplyRelayEvent` makes of a row that is there. -/
def ConnectionRecord.projected (uuid address : String) (st : Lifecycle) (now : Nat)
    (c : ConnectionRecord) : ConnectionRecord :=
  { c with
    relayServer := address
    relayUuid := uuid
    transport := "relay"
    lastSeenAt := now
    closedAt := c.closedAt.or (if st = .closed then some now else none) }

/-- The row that `ApplyRelayEvent` begins with. -/
def ConnectionRecord.begun (uuid address : String) (st : Lifecycle) (now : Nat) :
    ConnectionRecord :=
  ⟨connectionKey uuid, "", "", "", "", "", "", 0, "", "relay", uuid, address, now, now,
    if st = .closed then some now else none⟩

theorem get?_upsertConnection (v : ConnectionRecord) (db : Db) (k : String) :
    (db.upsertConnection v).connections.get? k
      = if v.key = k then some (((db.connections.get? v.key).map v.upserted).getD v)
        else db.connections.get? k := by
  unfold Db.upsertConnection
  cases hc : db.connections.get? v.key with
  | none => exact Table.get?_insert hc k
  | some c =>
    dsimp only
    rw [Table.get?_updateWhere_key]
    refine ite_congr rfl ?_ fun _ => rfl
    rintro rfl
    rw [hc]
    rfl

theorem get?_projectConnection {address : String} {connections : Table key}
    (h : db.projectConnection uuid address st now = some connections) (k : String) :
    connections.get? k = if connectionKey uuid = k then
        some (((db.connections.get? (connectionKey uuid)).map
          (projected uuid address st now)).getD (.begun uuid address st now))
      else db.connections.get? k := by
  revert h
  fun_cases Db.projectConnection with
  | case1 closed hc =>
    rintro ⟨⟩
    rw [hc]
    exact Table.get?_insert hc k
  | case2 closed c hc =>
    rintro ⟨⟩
    rw [Table.get?_updateWhere_key]
    refine ite_congr rfl ?_ fun _ => rfl
    rintro rfl
    rw [hc]
    rfl
  | case3 => intro h; cases h

/-! ## What a run has brought to a connection -/

/-- The step is a report about the connection. -/
def Label.reports (uuid : String) : Label → Bool
  | .admin (.upsertConnection v) => v.key = connectionKey uuid
  | _ => false

/-- The step applies an event of the connection. -/
def Label.applies (uuid : String) (st : Lifecycle) : Label → Bool
  | .finish (.event _ _ _ m) .acknowledged => m.uuid = uuid && m.lifecycle? = some st
  | _ => false

/-- Login and display name after the step: a report brings its own, unless they are blank. -/
def Label.rename (uuid : String) (names : String × String) : Label → String × String
  | .admin (.upsertConnection v) =>
    if v.key = connectionKey uuid then
      (if v.controllerLogin ≠ "" then v.controllerLogin else names.1,
        if v.controllerName ≠ "" then v.controllerName else names.2)
    else names
  | _ => names

/-- A record without its times. -/
@[ext]
structure Summary where
  actorUserId : String
  actorSessionId : String
  controllerDevice : String
  controllerName : String
  controllerLogin : String
  targetRustdeskId : String
  connectionType : Int64
  ip : String
  transport : String
  relayUuid : String
  relayServer : String
  closed : Bool
deriving DecidableEq, Repr

def ConnectionRecord.summary (c : ConnectionRecord) : Summary where
  actorUserId := c.actorUserId
  actorSessionId := c.actorSessionId
  controllerDevice := c.controllerDevice
  controllerName := c.controllerName
  controllerLogin := c.controllerLogin
  targetRustdeskId := c.targetRustdeskId
  connectionType := c.connectionType
  ip := c.ip
  transport := c.transport
  relayUuid := c.relayUuid
  relayServer := c.relayServer
  closed := c.closedAt.isSome

/-- The record that belongs to an assignment, by whether it was reported and whether the
connection is closed. -/
def AuditEvent.summary (reported closed : Bool) (names : String × String) (e : AuditEvent) :
    Summary where
  actorUserId := if reported then e.actorUserId else ""
  actorSessionId := if reported then e.actorSessionId else ""
  controllerDevice := if reported then e.controllerDevice else ""
  controllerName := names.2
  controllerLogin := names.1
  targetRustdeskId := if reported then e.targetRustdeskId else ""
  connectionType := if reported then e.connectionType else 0
  ip := if reported then e.ip else ""
  transport := "relay"
  relayUuid := e.relayUuid
  relayServer := e.relayServer
  closed := closed

/-- The record after a run. Of the labels' order only that of the reports' names is looked at. -/
def AuditEvent.expected (ls : List Label) (e : AuditEvent) : Option Summary :=
  let reported := ls.any (reports e.relayUuid)
  let closed := ls.any (applies e.relayUuid .closed)
  if reported || ls.any (applies e.relayUuid .active) || closed then
    some (e.summary reported closed (ls.foldl (rename e.relayUuid) ("", "")))
  else none

/-- All reports about the connection are of the one assignment, possibly at different times and
with what is known of the user then, and the relay's events name the same address. -/
structure SameConnection (e : AuditEvent) (ls : List Label) : Prop where
  reported : ∀ v, .admin (.upsertConnection v) ∈ ls → v.key = connectionKey e.relayUuid →
    e.assigns = true ∧ ∃ user? now, v = e.record user? now
  address : ∀ id token address m answer, .finish (.event id token address m) answer ∈ ls →
    m.uuid = e.relayUuid → address = e.relayServer

theorem SameConnection.sublist {e : AuditEvent} {ls : List Label} (h : SameConnection e ls)
    (hsub : ls' ⊆ ls) : SameConnection e ls' :=
  ⟨fun v hv => h.reported v (hsub hv), fun id token address m answer hm =>
    h.address id token address m answer (hsub hm)⟩

/-- The reports are the steps of `connectionAudit`. -/
theorem step_connectionAudit (hash : String → String) (user? : Option (String × String))
    (now : Nat) {e : AuditEvent} (he : e.assigns = true) (s : Deliveries) :
    Step hash s (.admin (.upsertConnection (e.record user? now)))
      { s with db := s.db.connectionAudit user? now e } := by
  rw [Db.connectionAudit, if_pos he]
  exact Step.admin _

/-! ## One step -/

/-- What a step does to the row of the connection. -/
inductive RowStep (e : AuditEvent) (db : Db) (l : Label) (old : Option ConnectionRecord) :
    Option ConnectionRecord → Prop
  -- if the step applies an event, then once more
  | kept (hr : l.reports e.relayUuid = false)
      (ha : ∀ st, l.applies e.relayUuid st = true →
        (db.recorded e.relayUuid st).isSome = true) : RowStep e db l old old
  | reported (user? : Option (String × String)) (now : Nat) (he : e.assigns = true)
      (hl : l = .admin (.upsertConnection (e.record user? now))) :
      RowStep e db l old (some ((old.map (e.record user? now).upserted).getD (e.record user? now)))
  | applied (st : Lifecycle) (now : Nat) (hr : l.reports e.relayUuid = false)
      (ha : ∀ x, l.applies e.relayUuid x = true ↔ x = st) :
      RowStep e db l old (some ((old.map
        (projected e.relayUuid e.relayServer st now)).getD
        (.begun e.relayUuid e.relayServer st now)))

section Steps

variable {hash : String → String} {e : AuditEvent} {s t : Deliveries} {l : Label}

/-- Neither reports nor an event of the connection. -/
theorem RowStep.silent (hr : l.reports e.relayUuid = false)
    (ha : ∀ st, l.applies e.relayUuid st = false) : RowStep e db l old old :=
  .kept hr fun st h => by rw [ha st] at h; cases h

/-- The event that a finished call has applied or found applied. -/
theorem finish_recorded (hi : DbInv db) (h : c.advance hash now db = (db', .inr answer))
    (ha : applies uuid st (.finish c answer) = true) :
    (db'.recorded uuid st).isSome = true := by
  cases c with
  | event id token address m =>
    cases answer with
    | acknowledged =>
      simp only [applies, Bool.and_eq_true, decide_eq_true_eq] at ha
      obtain ⟨rfl, hst⟩ := ha
      obtain ⟨st', -, hst', hrec, -⟩ := acknowledged_receipted hi rfl h
      rw [lifecycle?_ofString? hst] at hst'
      cases hst'
      rw [hrec]
      rfl
    | _ => cases ha
  | _ => cases ha

theorem advance_row (hi : DbInv db) (h : c.advance hash now db = (db', .inr answer))
    (hsame : SameConnection e [.finish c answer]) :
    RowStep e db (.finish c answer) (db.connections.get? (connectionKey e.relayUuid))
      (db'.connections.get? (connectionKey e.relayUuid)) := by
  rcases advance_cases h with rfl | ⟨id, uuid, k, rfl, -, hn, hv, rfl⟩
    | ⟨id, token, address, m, st, a, connections, rfl, hanswer, hst, hrec⟩
  · exact .kept rfl fun st hst => finish_recorded hi h hst
  · exact .silent rfl fun _ => rfl
  · cases hanswer
    have hconn : db'.connections = connections := by rw [hrec.result]; rfl
    rw [hconn, get?_projectConnection hrec.projected]
    by_cases hu : m.uuid = e.relayUuid
    · have haddr := hsame.address id token address m _ (mem_singleton.mpr rfl) hu
      subst haddr
      rw [hu, if_pos rfl]
      refine .applied st now rfl fun x => ?_
      simp only [applies, hu, hst, decide_true, Bool.true_and, decide_eq_true_eq, Option.some.injEq]
      exact eq_comm
    · rw [if_neg fun hk => hu (connectionKey_inj hk)]
      exact .silent rfl fun x => by simp only [applies, hu, decide_false, Bool.false_and]

theorem admin_row {op : AdminOp} (hi : DbInv db) (hsame : SameConnection e [.admin op]) :
    RowStep e db (.admin op) (db.connections.get? (connectionKey e.relayUuid))
      ((op.perform db).connections.get? (connectionKey e.relayUuid)) := by
  cases op with
  | upsertConnection v =>
    show RowStep e db _ _ ((db.upsertConnection v).connections.get? _)
    rw [get?_upsertConnection]
    by_cases hk : v.key = connectionKey e.relayUuid
    · obtain ⟨he, user?, now, rfl⟩ := hsame.reported v (mem_singleton.mpr rfl) hk
      rw [if_pos hk, hk]
      exact .reported user? now he rfl
    · rw [if_neg hk]
      exact .silent (decide_eq_false hk) fun _ => rfl
  | compact id now =>
    obtain ⟨gone, hc⟩ := (Compacted.refl hi).compact id now
    show RowStep e db _ _ ((db.compactRelayDelivery id now).connections.get? _)
    rw [hc.connections]
    exact .silent rfl fun _ => rfl
  | putEnrollment id enrollmentHash expires generation =>
    simp only [AdminOp.perform, Db.putRelayEnrollment]
    split
    · exact .silent rfl fun _ => rfl
    · split <;> exact .silent rfl fun _ => rfl
  | consumeEnrollment id enrollmentHash tokenHash now =>
    simp only [AdminOp.perform, Db.consumeRelayEnrollment]
    split <;> exact .silent rfl fun _ => rfl
  | revokeCredential | setRelayEnabled => exact .silent rfl fun _ => rfl
  | createRelay id enabled =>
    simp only [AdminOp.perform, Db.createRelay]
    exact .silent rfl fun _ => rfl

theorem step_row (hi : DbInv s.db) (h : Step hash s l t) (hsame : SameConnection e [l]) :
    RowStep e s.db l (s.db.connections.get? (connectionKey e.relayUuid))
      (t.db.connections.get? (connectionKey e.relayUuid)) := by
  cases h with
  | begin | drop => exact .silent rfl fun _ => rfl
  | progress now hc ha =>
    -- a statement that does not end its call writes nothing
    rcases advance_cases ha with h | ⟨_, _, _, _, h, _⟩ | ⟨_, _, _, _, _, _, _, _, h, _⟩
    · subst h
      exact .silent rfl fun _ => rfl
    · cases h
    · cases h
  | finish now hc ha => exact advance_row hi ha hsame
  | admin op => exact admin_row hi hsame

/-- Only a step that applies an event puts it on record. -/
theorem step_recorded (hi : DbInv s.db) (h : Step hash s l t)
    (hrec : (t.db.recorded uuid st).isSome = true) :
    (s.db.recorded uuid st).isSome = true ∨ l.applies uuid st = true := by
  obtain ⟨event, hevent⟩ := Option.isSome_iff_exists.mp hrec
  cases h with
  | begin | drop => exact .inl hrec
  | progress now hc ha =>
    rcases advance_cases ha with h | ⟨_, _, _, _, h, _⟩ | ⟨_, _, _, _, _, _, _, _, h, _⟩
    · subst h
      exact .inl hrec
    · cases h
    · cases h
  | finish now hc ha =>
    rcases advance_cases ha with h | ⟨id, u, k, rfl, -, hn, hv, h⟩
      | ⟨id, token, address, m, st', a, connections, rfl, hanswer, hst, -⟩
    · subst h
      exact .inl hrec
    · subst h
      exact .inl hrec
    · cases hanswer
      rcases advance_recorded hi ha hevent with hold | ⟨m', -, hm, hst, rfl, -⟩
      · exact .inl (by rw [hold]; rfl)
      · cases hm
        right
        simp only [applies, hst, decide_true, Bool.and_self]
  | admin op => exact .inl (by rw [admin_recorded hi hevent]; rfl)

end Steps

/-! ## A whole run -/

section Runs

variable {hash : String → String} {e : AuditEvent} {s t : Deliveries} {ls : List Label} {l : Label}

theorem rename_silent (h : l.reports uuid = false) (names : String × String) :
    rename uuid names l = names := by
  unfold rename
  split
  · next v =>
    simp only [reports, decide_eq_false_iff_not] at h
    rw [if_neg h]
  · rfl

theorem rename_record (user? : Option (String × String)) (now : Nat) (names : String × String) :
    rename e.relayUuid names (.admin (.upsertConnection (e.record user? now)))
      = (if (e.names user?).1 ≠ "" then (e.names user?).1 else names.1,
        if (e.names user?).2 ≠ "" then (e.names user?).2 else names.2) :=
  if_pos rfl

theorem foldl_rename_silent (names : String × String) : ∀ {ls : List Label},
    ls.any (reports uuid) = false → ls.foldl (rename uuid) names = names
  | [], _ => rfl
  | l :: ls, h => by
    rw [any_cons, Bool.or_eq_false_iff] at h
    rw [foldl_cons, rename_silent h.1]
    exact foldl_rename_silent names h.2

theorem summary_upserted (user? : Option (String × String)) (now : Nat) {c : ConnectionRecord}
    {names : String × String} (h : c.summary = e.summary reported closed names) :
    ((e.record user? now).upserted c).summary = e.summary true closed
      (rename e.relayUuid names (.admin (.upsertConnection (e.record user? now)))) := by
  simp only [summary, AuditEvent.summary, Summary.mk.injEq] at h
  obtain ⟨h₁, h₂, h₃, h₄, h₅, -, -, h₈, -, h₁₀, h₁₁, h₁₂⟩ := h
  -- a column that keeps its value over a blank one is either blank or the assignment's
  have hkeep : ∀ {x y : String}, x = (if reported = true then y else "") →
      (if y ≠ "" then y else x) = y := by grind
  have hserver : (if e.relayServer ≠ "" then e.relayServer else c.relayServer) = e.relayServer := by
    rw [h₁₁, ite_self]
  have huuid : (if e.relayUuid ≠ "" then e.relayUuid else c.relayUuid) = e.relayUuid := by
    rw [h₁₀, ite_self]
  rw [rename_record, ← h₄, ← h₅]
  exact Summary.ext (hkeep h₁) (hkeep h₂) (hkeep h₃) rfl rfl rfl rfl (hkeep h₈) rfl huuid hserver
    h₁₂

theorem summary_projected (st : Lifecycle) (now : Nat) {c : ConnectionRecord}
    {names : String × String} (h : c.summary = e.summary reported closed names) :
    (c.projected e.relayUuid e.relayServer st now).summary
      = e.summary reported (closed || decide (st = .closed)) names := by
  simp only [summary, AuditEvent.summary, Summary.mk.injEq] at h
  obtain ⟨h₁, h₂, h₃, h₄, h₅, h₆, h₇, h₈, -, -, -, h₁₂⟩ := h
  have hclosed : (c.closedAt.or (if st = .closed then some now else none)).isSome
      = (closed || decide (st = .closed)) := by
    rw [Option.isSome_or, h₁₂]
    cases st <;> rfl
  exact Summary.ext h₁ h₂ h₃ h₄ h₅ h₆ h₇ h₈ rfl rfl rfl hclosed

/-- The invariant of a run: the row is as its labels say, and so are the receipts. -/
structure Settled (e : AuditEvent) (ls : List Label) (db : Db) : Prop where
  applied : ∀ st, (db.recorded e.relayUuid st).isSome = true →
    ls.any (applies e.relayUuid st) = true
  row : (db.connections.get? (connectionKey e.relayUuid)).map summary = e.expected ls

theorem settled_empty : Settled e [] .empty where
  applied _ h := by cases h
  row := rfl

/-- Nothing has come for the connection yet. -/
theorem expected_none (h : e.expected ls = none) :
    ls.any (reports e.relayUuid) = false ∧
      ∀ st, ls.any (applies e.relayUuid st) = false := by
  simp only [AuditEvent.expected, ite_eq_right_iff, reduceCtorEq, imp_false, Bool.or_eq_true,
    not_or, Bool.not_eq_true] at h
  exact ⟨h.1.1, fun st => by cases st; exacts [h.1.2, h.2]⟩

theorem expected_some {x : Summary} (h : e.expected ls = some x) :
    x = e.summary (ls.any (reports e.relayUuid)) (ls.any (applies e.relayUuid .closed))
      (ls.foldl (rename e.relayUuid) ("", "")) :=
  (Option.some.inj (Option.ite_none_right_eq_some.mp h).2).symm

theorem any_snoc (ls : List Label) (l : Label) (p : Label → Bool) :
    (ls ++ [l]).any p = (ls.any p || p l) := by
  rw [any_append, any_cons, any_nil, Bool.or_false]

/-- What came once more was there before. -/
theorem expected_again (hr : l.reports e.relayUuid = false)
    (ha : ∀ st, l.applies e.relayUuid st = true → (db.recorded e.relayUuid st).isSome = true)
    (happlied : ∀ st, (db.recorded e.relayUuid st).isSome = true →
      ls.any (applies e.relayUuid st) = true) : e.expected (ls ++ [l]) = e.expected ls := by
  have hsame : ∀ st, (ls ++ [l]).any (applies e.relayUuid st)
      = ls.any (applies e.relayUuid st) := by
    intro st
    rw [any_snoc]
    cases hl : l.applies e.relayUuid st with
    | false => rw [Bool.or_false]
    | true => rw [happlied st (ha st hl), Bool.true_or]
  simp only [AuditEvent.expected, hsame, any_snoc, hr, Bool.or_false, foldl_append,
    foldl_cons, foldl_nil, rename_silent hr]

theorem expected_reported (user? : Option (String × String)) (now : Nat) :
    e.expected (ls ++ [.admin (.upsertConnection (e.record user? now))])
      = some (e.summary true (ls.any (applies e.relayUuid .closed))
          (rename e.relayUuid (ls.foldl (rename e.relayUuid) ("", ""))
            (.admin (.upsertConnection (e.record user? now))))) := by
  have hreports : reports e.relayUuid (.admin (.upsertConnection (e.record user? now)))
      = true := decide_eq_true rfl
  simp [AuditEvent.expected, hreports, applies]

theorem expected_applied (hr : l.reports e.relayUuid = false)
    (ha : ∀ x, l.applies e.relayUuid x = true ↔ x = st) :
    e.expected (ls ++ [l])
      = some (e.summary (ls.any (reports e.relayUuid))
          (ls.any (applies e.relayUuid .closed) || decide (st = .closed))
          (ls.foldl (rename e.relayUuid) ("", ""))) := by
  have hst : ∀ x, l.applies e.relayUuid x = decide (x = st) := fun x => by
    rw [Bool.eq_iff_iff, ha, decide_eq_true_eq]
  cases st <;> simp [AuditEvent.expected, hr, hst, rename_silent hr]

theorem RowStep.expected {new : Option ConnectionRecord} (h : RowStep e db l old new)
    (happlied : ∀ st, (db.recorded e.relayUuid st).isSome = true →
      ls.any (applies e.relayUuid st) = true)
    (hold : old.map summary = e.expected ls) :
    new.map summary = e.expected (ls ++ [l]) := by
  cases h with
  | kept hr ha => rw [hold, expected_again hr ha happlied]
  | reported user? now he hl =>
    subst hl
    rw [expected_reported, Option.map_some, Option.some.injEq]
    cases old with
    | some c => exact summary_upserted user? now (expected_some hold.symm)
    | none =>
      obtain ⟨hnone, hopen⟩ := expected_none hold.symm
      rw [foldl_rename_silent _ hnone, hopen, rename_record]
      have hblank : ∀ x : String, x = if x ≠ "" then x else "" := by grind
      exact Summary.ext rfl rfl rfl (hblank _) (hblank _) rfl rfl rfl rfl rfl rfl rfl
  | applied st now hr ha =>
    rw [expected_applied hr ha, Option.map_some, Option.some.injEq]
    cases old with
    | some c => exact summary_projected st now (expected_some hold.symm)
    | none =>
      obtain ⟨hnone, hopen⟩ := expected_none hold.symm
      rw [foldl_rename_silent _ hnone, hnone, hopen, Bool.false_or]
      have hclosed : (if st = .closed then some now else none).isSome = decide (st = .closed) := by
        cases st <;> rfl
      exact Summary.ext rfl rfl rfl rfl rfl rfl rfl rfl rfl rfl rfl hclosed

theorem Settled.step (h : Settled e ls s.db) (hi : DbInv s.db) (hstep : Step hash s l t)
    (hsame : SameConnection e [l]) : Settled e (ls ++ [l]) t.db where
  applied st hrec := by
    rw [any_append, Bool.or_eq_true]
    rcases step_recorded hi hstep hrec with hold | hnew
    · exact .inl (h.applied st hold)
    · exact .inr (by rw [any_cons, hnew, Bool.true_or])
  row := (step_row hi hstep hsame).expected h.applied h.row

theorem settled_run (hrun : Run (Step hash) ⟨.empty, []⟩ ls s) (hsame : SameConnection e ls) :
    Settled e ls s.db := by
  induction hrun with
  | nil => exact settled_empty
  | @snoc s t ls l hrun hstep ih =>
    have hi : DbInv s.db := dbInv_of_reached ⟨_, _, rfl, hrun⟩
    exact (ih (hsame.sublist (subset_append_left ..))).step hi hstep
      (hsame.sublist (subset_append_right ..))

/-! ## What later reports leave alone -/

/-- `y` is a later state of `x`: not reopened, at the same relay, and with every part of the
identity that was known. -/
structure Summary.Kept (x y : Summary) : Prop where
  closed : x.closed = true → y.closed = true
  relay : (y.transport, y.relayUuid, y.relayServer) = (x.transport, x.relayUuid, x.relayServer)
  actorUserId : x.actorUserId ≠ "" → y.actorUserId = x.actorUserId
  actorSessionId : x.actorSessionId ≠ "" → y.actorSessionId = x.actorSessionId
  controllerDevice : x.controllerDevice ≠ "" → y.controllerDevice = x.controllerDevice
  targetRustdeskId : x.targetRustdeskId ≠ "" → y.targetRustdeskId = x.targetRustdeskId
  connectionType : x.connectionType ≠ 0 → y.connectionType = x.connectionType
  ip : x.ip ≠ "" → y.ip = x.ip
  -- the user may be renamed between two reports
  controllerLogin : x.controllerLogin ≠ "" → y.controllerLogin ≠ ""
  controllerName : x.controllerName ≠ "" → y.controllerName ≠ ""

theorem rename_keeps (uuid : String) (names : String × String) (l : Label) :
    (names.1 ≠ "" → (rename uuid names l).1 ≠ "") ∧
      (names.2 ≠ "" → (rename uuid names l).2 ≠ "") := by
  have hover : ∀ old new : String, old ≠ "" → (if new ≠ "" then new else old) ≠ "" := by grind
  unfold rename
  split
  · split
    · exact ⟨hover _ _, hover _ _⟩
    · exact ⟨id, id⟩
  · exact ⟨id, id⟩

theorem foldl_rename_keeps (uuid : String) : ∀ (ls : List Label) (names : String × String),
    (names.1 ≠ "" → (ls.foldl (rename uuid) names).1 ≠ "") ∧
      (names.2 ≠ "" → (ls.foldl (rename uuid) names).2 ≠ "")
  | [], _ => ⟨id, id⟩
  | l :: ls, names => by
    have hstep := rename_keeps uuid names l
    have hrest := foldl_rename_keeps uuid ls (rename uuid names l)
    exact ⟨fun h => hrest.1 (hstep.1 h), fun h => hrest.2 (hstep.2 h)⟩

theorem summary_kept {reported' closed' : Bool} {names names' : String × String}
    (hr : reported = true → reported' = true) (hc : closed = true → closed' = true)
    (hlogin : names.1 ≠ "" → names'.1 ≠ "") (hname : names.2 ≠ "" → names'.2 ≠ "") :
    (e.summary reported closed names).Kept (e.summary reported' closed' names') := by
  cases reported with
  | false =>
    exact ⟨hc, rfl, fun h => absurd rfl h, fun h => absurd rfl h, fun h => absurd rfl h,
      fun h => absurd rfl h, fun h => absurd rfl h, fun h => absurd rfl h, hlogin, hname⟩
  | true =>
    rw [hr rfl]
    exact ⟨hc, rfl, fun _ => rfl, fun _ => rfl, fun _ => rfl, fun _ => rfl, fun _ => rfl,
      fun _ => rfl, hlogin, hname⟩

theorem expected_kept {x : Summary} (later : List Label) (h : e.expected ls = some x) :
    ∃ y, e.expected (ls ++ later) = some y ∧ x.Kept y := by
  have hmono : ∀ p : Label → Bool, ls.any p = true → (ls ++ later).any p = true := by
    intro p hp
    rw [any_append, hp, Bool.true_or]
  cases hy : e.expected (ls ++ later) with
  | none =>
    obtain ⟨hreports, happlies⟩ := expected_none hy
    have hgone : ∀ p : Label → Bool, (ls ++ later).any p = false → ls.any p = false := by
      intro p hp
      rw [any_append, Bool.or_eq_false_iff] at hp
      exact hp.1
    simp [AuditEvent.expected, hgone _ hreports, hgone _ (happlies _)] at h
  | some y =>
    obtain rfl := expected_some h
    obtain rfl := expected_some hy
    refine ⟨_, rfl, summary_kept (hmono _) (hmono _) ?_ ?_⟩
    · rw [foldl_append]
      exact (foldl_rename_keeps e.relayUuid later _).1
    · rw [foldl_append]
      exact (foldl_rename_keeps e.relayUuid later _).2

/-- A summary without the names, which depend on when the user was looked up. -/
def Summary.unnamed (x : Summary) : Summary :=
  { x with controllerName := "", controllerLogin := "" }

theorem expected_unnamed
    (hr : ls'.any (reports e.relayUuid) = ls.any (reports e.relayUuid))
    (ha : ∀ st, ls'.any (applies e.relayUuid st) = ls.any (applies e.relayUuid st)) :
    (e.expected ls').map Summary.unnamed = (e.expected ls).map Summary.unnamed := by
  unfold AuditEvent.expected
  dsimp only
  rw [hr, ha, ha]
  split
  · rfl
  · rfl

/-- **The record of a connection is that of its assignment**, whatever the order in which HBBS's
reports and the relay's events were applied. It is closed if and only if a closing event was
applied; another run with the same reports and events leads to the same record; and whatever is
applied later neither reopens it nor blanks a part of the identity. -/
theorem connection_settled (hash : String → String) (e : AuditEvent) {ls later : List Label}
    {s t : Deliveries} (hrun : Run (Step hash) ⟨.empty, []⟩ ls s)
    (hlater : Run (Step hash) s later t) (hsame : SameConnection e (ls ++ later)) :
    (s.db.connections.get? (connectionKey e.relayUuid)).map summary = e.expected ls ∧
    (∀ x, e.expected ls = some x → ∃ y,
      (t.db.connections.get? (connectionKey e.relayUuid)).map summary = some y ∧
      x.Kept y) ∧
    (∀ ls' s', Run (Step hash) ⟨.empty, []⟩ ls' s' → SameConnection e ls' →
      ls'.any (reports e.relayUuid) = ls.any (reports e.relayUuid) →
      (∀ st, ls'.any (applies e.relayUuid st) = ls.any (applies e.relayUuid st)) →
      ((s'.db.connections.get? (connectionKey e.relayUuid)).map
          summary).map Summary.unnamed
        = ((s.db.connections.get? (connectionKey e.relayUuid)).map
          summary).map Summary.unnamed) := by
  have hs := settled_run hrun (hsame.sublist (subset_append_left ..))
  have ht := settled_run (hrun.trans hlater) hsame
  refine ⟨hs.row, fun x hx => ?_, fun ls' s' hrun' hsame' hr ha => ?_⟩
  · rw [ht.row]
    exact expected_kept later hx
  · have hs' := settled_run hrun' hsame'
    rw [hs'.row, hs.row]
    exact expected_unnamed hr ha

end Runs

/-- HBBS assigns a relay to a connection that has long closed by the time the report arrives. -/
def lateAssignment : AuditEvent :=
  ⟨"connection_relay_assigned", "user-1", "session-1", "device-1", "123456789", "10.0.0.9",
    "conn-0001", "10.0.0.1", 2, "", ""⟩

def sampleClosing : Call :=
  .event "relay-1" sampleToken "10.0.0.1" ⟨"event-1", "conn-0001", "closed"⟩

def closedLabels : List Label :=
  [.admin (.createRelay "relay-1" true), .admin (.putEnrollment "relay-1" "once" 100 "gen-1"),
    .admin (.consumeEnrollment "relay-1" "once" (sampleHash sampleToken) 50),
    .begin (.authorize "relay-1" sampleToken "conn-0001"),
    .progress (.authorize "relay-1" sampleToken "conn-0001"),
    .finish (.authorizeInsert "relay-1" "conn-0001" sampleCredential) .authorized,
    .begin sampleClosing, .finish sampleClosing .acknowledged]

def reportLabels : List Label :=
  [.admin (.upsertConnection (lateAssignment.record (some ("alice", "Alice")) 80)),
    .admin (.upsertConnection (lateAssignment.record (some ("alice", "Alice B.")) 90))]

def sampleClosed : Db :=
  (sampleAuthorized.applyRelayEvent sampleHash "relay-1" sampleToken "10.0.0.1"
    ⟨"event-1", "conn-0001", "closed"⟩ 70).2

theorem sampleClosed_run : Run (Step sampleHash) ⟨.empty, []⟩ closedLabels ⟨sampleClosed, []⟩ := by
  refine .cons (.admin _) (.cons (.admin _) (.cons (.admin _) ?_))
  refine sampleAuthorized_run.trans ?_
  exact .cons (.begin trivial) (.single (.finish 70 (mem_singleton_self _) rfl))

theorem late_report_keeps_closed : ∃ x y, lateAssignment.expected closedLabels = some x ∧
    ((((sampleClosed.connectionAudit (some ("alice", "Alice")) 80 lateAssignment).connectionAudit
      (some ("alice", "Alice B.")) 90 lateAssignment).connections.get?
        (connectionKey lateAssignment.relayUuid)).map summary = some y) ∧
    x.Kept y ∧ x.closed = true ∧ y.actorUserId = "user-1" ∧ y.closed = true := by
  have hlater : Run (Step sampleHash) ⟨sampleClosed, []⟩ reportLabels
      ⟨(sampleClosed.connectionAudit (some ("alice", "Alice")) 80 lateAssignment).connectionAudit
        (some ("alice", "Alice B.")) 90 lateAssignment, []⟩ :=
    .cons (step_connectionAudit _ _ _ (by decide) _)
      (.single (step_connectionAudit _ _ _ (by decide) _))
  have hsame : SameConnection lateAssignment (closedLabels ++ reportLabels) := by
    constructor
    · intro v hv _
      refine ⟨by decide, ?_⟩
      simp only [closedLabels, reportLabels, cons_append, nil_append, mem_cons, not_mem_nil,
        reduceCtorEq, admin.injEq, AdminOp.upsertConnection.injEq, or_false, false_or] at hv
      rcases hv with rfl | rfl
      · exact ⟨_, _, rfl⟩
      · exact ⟨_, _, rfl⟩
    · intro id token address m answer hm _
      simp only [closedLabels, reportLabels, sampleClosing, cons_append, nil_append,
        mem_cons, not_mem_nil, reduceCtorEq, finish.injEq, Call.event.injEq,
        false_and, or_false, false_or] at hm
      exact hm.1.2.2.1
  have hmain := connection_settled sampleHash lateAssignment sampleClosed_run hlater hsame
  obtain ⟨y, hy, hkept⟩ := hmain.2.1 _ rfl
  refine ⟨_, y, rfl, hy, hkept, rfl, ?_⟩
  have hrow := (connection_settled sampleHash lateAssignment (sampleClosed_run.trans hlater)
    (.nil _) (by rwa [append_nil])).1
  rw [hy] at hrow
  cases hrow
  exact ⟨rfl, rfl⟩

end RemoteControl.Api
