import RemoteControl.Lib.Events
import RemoteControl.Api.Projection

/-!
# Requests that write a record back

Where relays report over HTTP, `relayConnectionState` and `containLiveConnection` of
`httpapi/live_connections.go` read the record of a connection, change it in memory and hand all
of it to `UpsertConnection`. HBBS reports the assignment in between, before or after.

`UpsertConnection` keeps what the row has where the new value is blank, but for two columns:

> the target and the connection type are always taken over.

A request that found no record yet has neither, and if HBBS reports before it writes, it takes
away what HBBS has reported.
-/

namespace RemoteControl.Api

open Lib List Option

variable {e' : AuditEvent} {c : ConnectionRecord} {db : Db} {i : Nat} {key : String}

/-! ## The handlers -/

/-- What a request has read, and whether it closes the connection. -/
structure PendingRecord where
  record : ConnectionRecord
  closes : Bool
deriving DecidableEq, Repr

/-- `relayConnectionState` up to the write, for a UUID and a state without blanks around them. -/
def Db.relayConnectionState (uuid state : String) (now : Nat) (db : Db) : Option PendingRecord :=
  if uuid.utf8ByteSize < 8 || 128 < uuid.utf8ByteSize then none
  else (Lifecycle.ofString? state).map fun st =>
    { record := (db.connections.get? (connectionKey uuid)).getD
        ⟨connectionKey uuid, "", "", "", "", "", "", 0, "", "relay", uuid, "", now, now, none⟩
      closes := st = .closed }

/-- `containLiveConnection` up to the write. Neither what the relay answers to the termination
nor the session that is revoked has a part in the record. -/
def Db.containLiveConnection (key : String) (db : Db) : Option PendingRecord :=
  if key = "" || 512 < key.utf8ByteSize then none
  else (db.connections.get? key).bind fun record =>
    if record.closedAt.isSome || record.actorSessionId = "" then none
    else some { record, closes := true }

/-- The record that is handed to `UpsertConnection`. -/
def PendingRecord.written (p : PendingRecord) (now : Nat) : ConnectionRecord :=
  { p.record with
    lastSeenAt := now
    closedAt := if p.closes then some now else p.record.closedAt }

/-! ## Requests in progress -/

structure LiveDesk where
  db : Db
  pending : List PendingRecord
  /-- The assignments that were reported. -/
  assigned : List AuditEvent

inductive LiveEvent
  | assign (e : AuditEvent) (user? : Option (String × String)) (now : Nat)
  | report (uuid state : String) (now : Nat)
  | contain (key : String)
  | write (i : Nat) (now : Nat)
  | abandon (i : Nat)

namespace LiveDesk

def begin (w : LiveDesk) : Option PendingRecord → LiveDesk
  | none => w
  | some p => { w with pending := w.pending ++ [p] }

def perform (w : LiveDesk) : LiveEvent → LiveDesk
  | .assign e user? now =>
    { w with
      db := w.db.connectionAudit user? now e
      assigned := if e.assigns then e :: w.assigned else w.assigned }
  | .report uuid state now => w.begin (w.db.relayConnectionState uuid state now)
  | .contain key => w.begin (w.db.containLiveConnection key)
  | .write i now =>
    match w.pending[i]? with
    | none => w
    | some p =>
      { w with db := w.db.upsertConnection (p.written now), pending := w.pending.eraseIdx i }
  | .abandon i => { w with pending := w.pending.eraseIdx i }

def record? (w : LiveDesk) (key : String) : Option ConnectionRecord := w.db.connections.get? key

end LiveDesk

/-! ## What is to be kept -/

/-- Who, from where, whom and how, as the assignment has it. -/
structure AuditEvent.Describes (e : AuditEvent) (c : ConnectionRecord) : Prop where
  target : c.targetRustdeskId = e.targetRustdeskId
  connectionType : c.connectionType = e.connectionType
  actorUserId : c.actorUserId = e.actorUserId
  actorSessionId : c.actorSessionId = e.actorSessionId
  controllerDevice : c.controllerDevice = e.controllerDevice

namespace LiveDesk

/-- Once the assignment was reported, the record has what it says. -/
def Kept (e : AuditEvent) (w : LiveDesk) : Prop :=
  e ∈ w.assigned → ∃ c, w.record? (connectionKey e.relayUuid) = some c ∧ e.Describes c

/-- Once the assignment was reported, whoever writes the record back has read its target and
type. -/
def Timely (e : AuditEvent) (w : LiveDesk) : LiveEvent → Prop
  | .write i _ => ∀ p, w.pending[i]? = some p → p.record.key = connectionKey e.relayUuid →
      e ∈ w.assigned → p.record.targetRustdeskId = e.targetRustdeskId ∧
        p.record.connectionType = e.connectionType
  | _ => True

end LiveDesk

/-- The event is no report of another assignment for the connection. -/
def LiveEvent.Of (e : AuditEvent) : LiveEvent → Prop
  | .assign e' _ _ => e'.assigns = true → e'.relayUuid = e.relayUuid → e' = e
  | _ => True

/-! ## Columns that keep what they have -/

/-- A column of the actor: a report fills it, and a blank value does not replace what is there. -/
structure ActorColumn where
  get : ConnectionRecord → String
  ofEvent : AuditEvent → String
  record : ∀ e user? now, get (e.record user? now) = ofEvent e
  upserted : ∀ v c, get (v.upserted c) = if get v ≠ "" then get v else get c
  written : ∀ (p : PendingRecord) now, get (p.written now) = get p.record
  fresh : ∀ uuid now, get
    ⟨connectionKey uuid, "", "", "", "", "", "", 0, "", "relay", uuid, "", now, now, none⟩ = ""

def userColumn : ActorColumn where
  get := ConnectionRecord.actorUserId
  ofEvent := AuditEvent.actorUserId
  record _ _ _ := rfl
  upserted _ _ := rfl
  written _ _ := rfl
  fresh _ _ := rfl

def sessionColumn : ActorColumn where
  get := ConnectionRecord.actorSessionId
  ofEvent := AuditEvent.actorSessionId
  record _ _ _ := rfl
  upserted _ _ := rfl
  written _ _ := rfl
  fresh _ _ := rfl

def deviceColumn : ActorColumn where
  get := ConnectionRecord.controllerDevice
  ofEvent := AuditEvent.controllerDevice
  record _ _ _ := rfl
  upserted _ _ := rfl
  written _ _ := rfl
  fresh _ _ := rfl

/-- The column is blank until the assignment is reported, and then the assignment's. A request
may have read either. -/
structure ColumnInv (e : AuditEvent) (k : ActorColumn) (w : LiveDesk) : Prop where
  found : e ∈ w.assigned → (w.record? (connectionKey e.relayUuid)).isSome = true
  row : ∀ c, w.record? (connectionKey e.relayUuid) = some c →
    k.get c = if e ∈ w.assigned then k.ofEvent e else ""
  pending : ∀ p ∈ w.pending, p.record.key = connectionKey e.relayUuid →
    k.get p.record = "" ∨ e ∈ w.assigned ∧ k.get p.record = k.ofEvent e

section

variable {e : AuditEvent} {ev : LiveEvent} {k : ActorColumn} {p : PendingRecord} {w : LiveDesk}

/-- A request that begins with the row, or with nothing. -/
theorem ColumnInv.begin (h : ColumnInv e k w)
    (hp : p.record.key = connectionKey e.relayUuid → k.get p.record = "" ∨
      w.record? (connectionKey e.relayUuid) = some p.record) :
    ColumnInv e k { w with pending := w.pending ++ [p] } := by
  refine ⟨h.found, h.row, fun q hq hkey => ?_⟩
  rcases mem_append.mp hq with hq | hq
  · exact h.pending q hq hkey
  · rw [mem_singleton.mp hq] at hkey ⊢
    rcases hp hkey with hblank | hrow
    · exact .inl hblank
    · have hcol := h.row _ hrow
      by_cases ha : e ∈ w.assigned
      · rw [if_pos ha] at hcol
        exact .inr ⟨ha, hcol⟩
      · rw [if_neg ha] at hcol
        exact .inl hcol

theorem relayConnectionState_cases {uuid state : String} {now : Nat}
    (h : db.relayConnectionState uuid state now = some p) :
    p.record = ⟨connectionKey uuid, "", "", "", "", "", "", 0, "", "relay", uuid, "", now, now,
        none⟩ ∧ db.connections.get? p.record.key = none ∨
      db.connections.get? p.record.key = some p.record := by
  unfold Db.relayConnectionState at h
  split at h
  · cases h
  obtain ⟨st, -, rfl⟩ := map_eq_some_iff.mp h
  cases hc : db.connections.get? (connectionKey uuid) with
  | none => exact .inl ⟨rfl, hc⟩
  | some c =>
    refine .inr ?_
    have hkey := Table.get?_key hc
    rw [getD_some, hkey]
    exact hc

theorem containLiveConnection_cases (h : db.containLiveConnection key = some p) :
    db.connections.get? p.record.key = some p.record := by
  unfold Db.containLiveConnection at h
  split at h
  · cases h
  obtain ⟨c, hc, h⟩ := bind_eq_some_iff.mp h
  split at h
  · cases h
  cases h
  have hkey := Table.get?_key hc
  rw [hkey]
  exact hc

/-- What the report of an assignment leaves in the row of its own connection. -/
theorem record?_assign_self (user? : Option (String × String)) (now : Nat) (he : e.assigns = true) :
    (w.perform (.assign e user? now)).record? (connectionKey e.relayUuid) =
      some (((w.record? (connectionKey e.relayUuid)).map (e.record user? now).upserted).getD
        (e.record user? now)) := by
  show (w.db.connectionAudit user? now e).connections.get? _ = _
  rw [Db.connectionAudit, if_pos he, get?_upsertConnection]
  exact if_pos rfl

theorem record?_assign_other (user? : Option (String × String)) (now : Nat)
    (he : e'.assigns = true → e'.relayUuid ≠ e.relayUuid) :
    (w.perform (.assign e' user? now)).record? (connectionKey e.relayUuid) =
      w.record? (connectionKey e.relayUuid) := by
  show (w.db.connectionAudit user? now e').connections.get? _ = _
  unfold Db.connectionAudit
  split
  · next ha =>
    have hne : ¬ connectionKey e'.relayUuid = connectionKey e.relayUuid :=
      fun hk => he ha (connectionKey_inj hk)
    rw [get?_upsertConnection]
    exact if_neg hne
  · rfl

theorem perform_write_none (hi : w.pending[i]? = none) (now : Nat) :
    w.perform (.write i now) = w := by
  simp only [LiveDesk.perform, hi]

theorem perform_write_some (hi : w.pending[i]? = some p) (now : Nat) :
    w.perform (.write i now) =
      { w with db := w.db.upsertConnection (p.written now), pending := w.pending.eraseIdx i } := by
  simp only [LiveDesk.perform, hi]

theorem record?_write (hi : w.pending[i]? = some p) (now : Nat) (key : String) :
    (w.perform (.write i now)).record? key = if p.record.key = key then
        some (((w.record? p.record.key).map (p.written now).upserted).getD (p.written now))
      else w.record? key := by
  rw [perform_write_some hi]
  exact get?_upsertConnection (p.written now) w.db key

/-- An event leaves a record as it is, or puts it through an upsert. -/
theorem record?_perform (w : LiveDesk) (ev : LiveEvent) (key : String) :
    (w.perform ev).record? key = w.record? key ∨
      ∃ v : ConnectionRecord,
        (w.perform ev).record? key = some (((w.record? key).map v.upserted).getD v) := by
  cases ev with
  | assign e user? now =>
    by_cases hself : e.assigns = true ∧ connectionKey e.relayUuid = key
    · obtain ⟨he, rfl⟩ := hself
      exact .inr ⟨_, record?_assign_self user? now he⟩
    · refine .inl ?_
      show (w.db.connectionAudit user? now e).connections.get? key = _
      unfold Db.connectionAudit
      split
      · next ha =>
        have hne : ¬ connectionKey e.relayUuid = key := fun hk => hself ⟨ha, hk⟩
        rw [get?_upsertConnection]
        exact if_neg hne
      · rfl
  | report uuid state now =>
    show (w.begin (w.db.relayConnectionState uuid state now)).record? key = _ ∨ _
    cases w.db.relayConnectionState uuid state now with
    | none => exact .inl rfl
    | some p => exact .inl rfl
  | contain key' =>
    show (w.begin (w.db.containLiveConnection key')).record? key = _ ∨ _
    cases w.db.containLiveConnection key' with
    | none => exact .inl rfl
    | some p => exact .inl rfl
  | write i now =>
    cases hi : w.pending[i]? with
    | none => exact .inl (by rw [perform_write_none hi])
    | some p =>
      rw [record?_write hi]
      split
      · next hkey =>
        rw [hkey]
        exact .inr ⟨_, rfl⟩
      · exact .inl rfl
  | abandon i => exact .inl rfl

section

variable (h : ColumnInv e k w)

include h

/-- The report of the connection itself. -/
theorem ColumnInv.assign_self (user? : Option (String × String)) (now : Nat)
    (he : e.assigns = true) : ColumnInv e k (w.perform (.assign e user? now)) := by
  have hassigned : e ∈ (w.perform (.assign e user? now)).assigned := by
    show e ∈ if e.assigns then e :: w.assigned else w.assigned
    rw [if_pos he]
    exact mem_cons_self
  refine ⟨fun _ => ?_, fun c hc => ?_, fun p hp hkey => (h.pending p hp hkey).imp_right
    fun hp' => ⟨hassigned, hp'.2⟩⟩
  · rw [record?_assign_self user? now he]
    rfl
  rw [record?_assign_self user? now he] at hc
  rw [if_pos hassigned, ← Option.some.inj hc]
  cases hrow : w.record? (connectionKey e.relayUuid) with
  | none => exact k.record e user? now
  | some c₀ =>
    -- a report with a blank actor finds a blank column, or its own
    rw [map_some, getD_some, k.upserted, k.record]
    have hcol := h.row c₀ hrow
    split
    · rfl
    · next hblank =>
      rw [not_not] at hblank
      rw [hcol, hblank, ite_self]

/-- A report of another connection. -/
theorem ColumnInv.assign_other (user? : Option (String × String)) (now : Nat)
    (he : ¬ (e'.assigns = true ∧ e'.relayUuid = e.relayUuid)) :
    ColumnInv e k (w.perform (.assign e' user? now)) := by
  have hmem : e ∈ (w.perform (.assign e' user? now)).assigned ↔ e ∈ w.assigned := by
    show (e ∈ if e'.assigns then e' :: w.assigned else w.assigned) ↔ _
    split
    · next ha =>
      have hne : e ≠ e' := fun heq => he ⟨ha, by rw [heq]⟩
      rw [mem_cons]
      exact or_iff_right hne
    · exact Iff.rfl
  have hrow := record?_assign_other (w := w) user? now fun ha hu => he ⟨ha, hu⟩
  refine ⟨fun ha => ?_, fun c hc => ?_, fun p hp hkey => ?_⟩
  · rw [hrow]
    exact h.found (hmem.mp ha)
  · rw [hrow] at hc
    rw [h.row c hc]
    simp only [hmem]
  · rw [hmem]
    exact h.pending p hp hkey

/-- What a write makes of the column. -/
theorem ColumnInv.written (hp : p ∈ w.pending) (hkey : p.record.key = connectionKey e.relayUuid)
    (now : Nat) :
    k.get (((w.record? (connectionKey e.relayUuid)).map (p.written now).upserted).getD
      (p.written now)) = if e ∈ w.assigned then k.ofEvent e else "" := by
  have hcopy := h.pending p hp hkey
  cases hrow : w.record? (connectionKey e.relayUuid) with
  | none =>
    have ha : e ∉ w.assigned := fun ha => by
      have hfound := h.found ha
      rw [hrow] at hfound
      cases hfound
    rw [if_neg ha, map_none, getD_none, k.written]
    exact hcopy.resolve_right fun hcopy => ha hcopy.1
  | some c₀ =>
    rw [map_some, getD_some, k.upserted, k.written]
    have hcol := h.row c₀ hrow
    rcases hcopy with hblank | ⟨ha, hcopy⟩
    · rw [if_neg (not_not.mpr hblank)]
      exact hcol
    · rw [if_pos ha] at hcol ⊢
      rw [hcopy, hcol, ite_self]

theorem ColumnInv.write (i now : Nat) : ColumnInv e k (w.perform (.write i now)) := by
  cases hi : w.pending[i]? with
  | none =>
    rw [perform_write_none hi]
    exact h
  | some p =>
    have hassigned : (w.perform (.write i now)).assigned = w.assigned := by
      rw [perform_write_some hi]
    refine ⟨fun ha => ?_, fun c hc => ?_, fun q hq hkey => ?_⟩
    · rw [hassigned] at ha
      rw [record?_write hi]
      split
      · rfl
      · exact h.found ha
    · rw [hassigned]
      rw [record?_write hi] at hc
      split at hc
      · next hkey =>
        rw [← Option.some.inj hc, hkey]
        exact h.written (mem_of_getElem? hi) hkey now
      · exact h.row c hc
    · rw [perform_write_some hi] at hq
      rw [hassigned]
      exact h.pending q (mem_of_mem_eraseIdx hq) hkey

/-- The step lemma. -/
theorem ColumnInv.perform (hev : ev.Of e) : ColumnInv e k (w.perform ev) := by
  cases ev with
  | assign e' user? now =>
    by_cases hself : e'.assigns = true ∧ e'.relayUuid = e.relayUuid
    · obtain rfl := hev hself.1 hself.2
      exact h.assign_self user? now hself.1
    · exact h.assign_other user? now hself
  | report uuid state now =>
    show ColumnInv e k (w.begin (w.db.relayConnectionState uuid state now))
    cases hp : w.db.relayConnectionState uuid state now with
    | none => exact h
    | some p =>
      refine h.begin fun hkey => ?_
      rcases relayConnectionState_cases hp with ⟨hfresh, -⟩ | hrow
      · rw [hfresh]
        exact .inl (k.fresh uuid now)
      · rw [hkey] at hrow
        exact .inr hrow
  | contain key =>
    show ColumnInv e k (w.begin (w.db.containLiveConnection key))
    cases hp : w.db.containLiveConnection key with
    | none => exact h
    | some p =>
      refine h.begin fun hkey => .inr ?_
      have hrow := containLiveConnection_cases hp
      rw [hkey] at hrow
      exact hrow
  | write i now => exact h.write i now
  | abandon i => exact ⟨h.found, h.row, fun p hp => h.pending p (mem_of_mem_eraseIdx hp)⟩

end

/-! ## The whole record -/

structure ActorInv (e : AuditEvent) (w : LiveDesk) : Prop where
  user : ColumnInv e userColumn w
  session : ColumnInv e sessionColumn w
  device : ColumnInv e deviceColumn w

theorem ActorInv.start (hstart : e ∉ w.assigned)
    (hrow : w.record? (connectionKey e.relayUuid) = none)
    (hpending : ∀ p ∈ w.pending, p.record.key ≠ connectionKey e.relayUuid) : ActorInv e w := by
  have hcolumn : ∀ k, ColumnInv e k w := by
    intro k
    refine ⟨fun ha => absurd ha hstart, fun c hc => ?_, fun p hp hkey =>
      absurd hkey (hpending p hp)⟩
    rw [hrow] at hc
    cases hc
  exact ⟨hcolumn userColumn, hcolumn sessionColumn, hcolumn deviceColumn⟩

theorem ActorInv.perform (h : ActorInv e w) (hev : ev.Of e) : ActorInv e (w.perform ev) :=
  ⟨h.user.perform hev, h.session.perform hev, h.device.perform hev⟩

/-- Of what the assignment says, only target and type can be missing. -/
theorem ActorInv.describes_iff (h : ActorInv e w) (ha : e ∈ w.assigned)
    (hc : w.record? (connectionKey e.relayUuid) = some c) :
    e.Describes c ↔
      c.targetRustdeskId = e.targetRustdeskId ∧ c.connectionType = e.connectionType := by
  refine ⟨fun hd => ⟨hd.target, hd.connectionType⟩, fun ⟨htarget, htype⟩ =>
    ⟨htarget, htype, ?_, ?_, ?_⟩⟩
  · have hcol := h.user.row c hc
    rw [if_pos ha] at hcol
    exact hcol
  · have hcol := h.session.row c hc
    rw [if_pos ha] at hcol
    exact hcol
  · have hcol := h.device.row c hc
    rw [if_pos ha] at hcol
    exact hcol

/-- The record and whether the assignment was reported are all that matters. -/
theorem LiveDesk.Kept.of_same {w' : LiveDesk} (h : w.Kept e)
    (ha : e ∈ w'.assigned → e ∈ w.assigned)
    (hr : w'.record? (connectionKey e.relayUuid) = w.record? (connectionKey e.relayUuid)) :
    w'.Kept e := by
  intro hassigned
  rw [hr]
  exact h (ha hassigned)

theorem begin_kept (h : w.Kept e) (p? : Option PendingRecord) : (w.begin p?).Kept e := by
  cases p? with
  | none => exact h
  | some p => exact h

theorem assign_kept (hi : ActorInv e w) (h : w.Kept e) (user? : Option (String × String))
    (now : Nat) (hev : (LiveEvent.assign e' user? now).Of e) :
    (w.perform (.assign e' user? now)).Kept e := by
  by_cases hself : e'.assigns = true ∧ e'.relayUuid = e.relayUuid
  · obtain rfl := hev hself.1 hself.2
    intro ha
    have hrow := record?_assign_self (w := w) user? now hself.1
    refine ⟨_, hrow, ((hi.perform hev).describes_iff ha hrow).mpr ?_⟩
    cases w.record? (connectionKey e'.relayUuid) with
    | none => exact ⟨rfl, rfl⟩
    | some c => exact ⟨rfl, rfl⟩
  · refine h.of_same (fun ha => ?_) (record?_assign_other user? now fun ha hu => hself ⟨ha, hu⟩)
    replace ha : e ∈ if e'.assigns then e' :: w.assigned else w.assigned := ha
    split at ha
    · next hassigns =>
      rcases mem_cons.mp ha with heq | ha
      · exact absurd ⟨hassigns, by rw [heq]⟩ hself
      · exact ha
    · exact ha

/-- **One event.** -/
theorem kept_perform_iff (hi : ActorInv e w) (h : w.Kept e) (hev : ev.Of e) :
    (w.perform ev).Kept e ↔ w.Timely e ev := by
  cases ev with
  | assign e' user? now => exact iff_of_true (assign_kept hi h user? now hev) trivial
  | report | contain => exact iff_of_true (begin_kept h _) trivial
  | abandon i => exact iff_of_true (h.of_same id rfl) trivial
  | write i now =>
    cases hp : w.pending[i]? with
    | none =>
      rw [perform_write_none hp]
      refine iff_of_true h fun p hp' => ?_
      rw [hp] at hp'
      cases hp'
    | some p =>
      have hassigned : (w.perform (.write i now)).assigned = w.assigned := by
        rw [perform_write_some hp]
      by_cases hown : p.record.key = connectionKey e.relayUuid ∧ e ∈ w.assigned
      · obtain ⟨hkey, ha⟩ := hown
        obtain ⟨c, hc, -⟩ := h ha
        -- the row takes over the target and the type of the copy
        have hrow := record?_write hp now (connectionKey e.relayUuid)
        rw [if_pos hkey, hkey, hc, map_some, getD_some] at hrow
        have hdescribes := (hi.perform hev).describes_iff (hassigned ▸ ha) hrow
        constructor
        · intro hkept q hq _ _
          obtain rfl := Option.some.inj (hp.symm.trans hq)
          obtain ⟨c', hc', hd⟩ := hkept (hassigned ▸ ha)
          obtain rfl := Option.some.inj (hrow.symm.trans hc')
          exact hdescribes.mp hd
        · intro htimely _
          exact ⟨_, hrow, hdescribes.mpr (htimely p hp hkey ha)⟩
      · refine iff_of_true (fun ha => ?_) fun q hq hkey ha => ?_
        · rw [hassigned] at ha
          rw [record?_write hp, if_neg fun hkey => hown ⟨hkey, ha⟩]
          exact h ha
        · obtain rfl := Option.some.inj (hp.symm.trans hq)
          exact absurd ⟨hkey, ha⟩ hown

/-! ### Copies that are read after the report -/

/-- No request is in progress for the connection when its assignment is reported first. -/
def LiveDesk.Quiet (e : AuditEvent) (w : LiveDesk) : LiveEvent → Prop
  | .assign e' _ _ => e' = e → e ∉ w.assigned →
      ∀ p ∈ w.pending, p.record.key ≠ connectionKey e.relayUuid
  | _ => True

/-- Who has read the record since has the target and the type. -/
def LiveDesk.ReadAfter (e : AuditEvent) (w : LiveDesk) : Prop :=
  e ∈ w.assigned → ∀ p ∈ w.pending, p.record.key = connectionKey e.relayUuid →
    p.record.targetRustdeskId = e.targetRustdeskId ∧ p.record.connectionType = e.connectionType

section

variable (h : w.ReadAfter e)

include h

theorem LiveDesk.ReadAfter.timely (ev : LiveEvent) : w.Timely e ev := by
  cases ev with
  | write i now =>
    intro p hp hkey ha
    exact h ha p (mem_of_getElem? hp) hkey
  | _ => trivial

theorem LiveDesk.ReadAfter.begin (hk : w.Kept e) {p? : Option PendingRecord}
    (hp : ∀ p ∈ p?, w.record? p.record.key = none ∨ w.record? p.record.key = some p.record) :
    (w.begin p?).ReadAfter e := by
  cases p? with
  | none => exact h
  | some p =>
    intro ha q hq hkey
    rcases mem_append.mp hq with hq | hq
    · exact h ha q hq hkey
    · obtain rfl := mem_singleton.mp hq
      obtain ⟨c, hc, hd⟩ := hk ha
      have hread := hp q rfl
      rw [hkey, hc] at hread
      rcases hread with hnone | hrow
      · cases hnone
      · cases hrow
        exact ⟨hd.target, hd.connectionType⟩

theorem LiveDesk.ReadAfter.perform (hk : w.Kept e) (hq : w.Quiet e ev) :
    (w.perform ev).ReadAfter e := by
  cases ev with
  | assign e' user? now =>
    intro ha p hp hkey
    by_cases hbefore : e ∈ w.assigned
    · exact h hbefore p hp hkey
    · replace ha : e ∈ if e'.assigns then e' :: w.assigned else w.assigned := ha
      split at ha
      · rcases mem_cons.mp ha with heq | ha
        · exact absurd hkey (hq heq.symm hbefore p hp)
        · exact absurd ha hbefore
      · exact absurd ha hbefore
  | report uuid state now =>
    exact h.begin hk fun p hp => (relayConnectionState_cases hp).imp_left And.right
  | contain key => exact h.begin hk fun p hp => .inr (containLiveConnection_cases hp)
  | write i now =>
    cases hp : w.pending[i]? with
    | none => rwa [perform_write_none hp]
    | some p =>
      rw [perform_write_some hp]
      exact fun ha q hq => h ha q (mem_of_mem_eraseIdx hq)
  | abandon i => exact fun ha q hq => h ha q (mem_of_mem_eraseIdx hq)

end

/-- The condition on the schedule: whoever writes the record back has read it after the report. -/
theorem assignment_kept_of_quiet {e : AuditEvent} {w : LiveDesk} (hstart : e ∉ w.assigned)
    (hrow : w.record? (connectionKey e.relayUuid) = none)
    (hpending : ∀ p ∈ w.pending, p.record.key ≠ connectionKey e.relayUuid)
    {events : List LiveEvent} (hevents : ∀ ev ∈ events, ev.Of e)
    (hquiet : Throughout LiveDesk.perform (LiveDesk.Quiet e) w events) :
    ∀ before, before <+: events → (before.foldl LiveDesk.perform w).Kept e := by
  have hboth : Throughout LiveDesk.perform (fun w ev => ev.Of e ∧ w.Quiet e ev) w events :=
    fun before ev hpre => ⟨hevents ev (hpre.subset (mem_append_right _ (mem_singleton_self _))),
      hquiet before ev hpre⟩
  intro before hpre
  exact (hboth.invariant (I := fun w => ActorInv e w ∧ w.Kept e ∧ w.ReadAfter e)
    (fun w ev ⟨hi, hk, hr⟩ hev => ⟨hi.perform hev.1,
      (kept_perform_iff hi hk hev.1).mpr (hr.timely ev), hr.perform hk hev.2⟩)
    ⟨.start hstart hrow hpending, fun ha => absurd ha hstart, fun ha => absurd ha hstart⟩
    before hpre).2.1

/-- An upsert brings a closing time or leaves the one that is there. -/
theorem closed_perform (ev : LiveEvent) (hc : w.record? key = some c)
    (hclosed : c.closedAt.isSome = true) :
    ∃ c', (w.perform ev).record? key = some c' ∧ c'.closedAt.isSome = true := by
  rcases record?_perform w ev key with hsame | ⟨v, hv⟩
  · exact ⟨c, hsame.trans hc, hclosed⟩
  · rw [hc, map_some, getD_some] at hv
    refine ⟨_, hv, ?_⟩
    show (if v.closedAt.isSome then v.closedAt else c.closedAt).isSome = true
    split
    · next hv => exact hv
    · exact hclosed

theorem closed_run (events : List LiveEvent) (hc : w.record? key = some c)
    (hclosed : c.closedAt.isSome = true) :
    ∃ c', (events.foldl LiveDesk.perform w).record? key = some c' ∧ c'.closedAt.isSome = true := by
  induction events generalizing w c with
  | nil => exact ⟨c, hc, hclosed⟩
  | cons ev events ih =>
    obtain ⟨c', hc', hclosed'⟩ := closed_perform ev hc hclosed
    exact ih hc' hclosed'

/-- **When an assignment is kept.** Reports of an assignment, of the relay's states and requests
to contain the connection interleave in any way: whatever of them has happened once the
assignment was reported, the record has its target, type and actor, exactly when nobody writes
back a record that was read without them. A record that was closed stays closed in any case. -/
theorem assignment_kept_iff {e : AuditEvent} {w : LiveDesk} (hstart : e ∉ w.assigned)
    (hrow : w.record? (connectionKey e.relayUuid) = none)
    (hpending : ∀ p ∈ w.pending, p.record.key ≠ connectionKey e.relayUuid)
    {events : List LiveEvent} (hevents : ∀ ev ∈ events, ev.Of e) :
    ((∀ before, before <+: events → (before.foldl LiveDesk.perform w).Kept e) ↔
      Throughout LiveDesk.perform (LiveDesk.Timely e) w events) ∧
    ∀ before after key c, events = before ++ after →
      (before.foldl LiveDesk.perform w).record? key = some c → c.closedAt.isSome = true →
      ∃ c', (events.foldl LiveDesk.perform w).record? key = some c' ∧
        c'.closedAt.isSome = true := by
  constructor
  · exact kept_iff_throughout_of (C := LiveEvent.Of e) (J := ActorInv e) (I := LiveDesk.Kept e)
      (fun w ev hev h => h.perform hev) (fun w ev hev hi h => kept_perform_iff hi h hev)
      (.start hstart hrow hpending) (fun ha => absurd ha hstart) hevents
  · intro before after key c hsplit hc hclosed
    rw [hsplit, foldl_append]
    exact closed_run after hc hclosed

end

/-! ### A report that comes in between -/

def emptyDesk : LiveDesk := ⟨Db.empty, [], []⟩

/-- The relay reports after HBBS, and then an administrator ends the connection. -/
def orderlyReports : List LiveEvent :=
  [.assign lateAssignment none 10, .report "conn-0001" "active" 20, .write 0 30,
    .contain "relay:conn-0001", .write 0 40]

theorem orderly_reports_keep :
    (∀ before, before <+: orderlyReports →
      (before.foldl LiveDesk.perform emptyDesk).Kept lateAssignment) ∧
    ((orderlyReports.foldl LiveDesk.perform emptyDesk).record? "relay:conn-0001").map
        (fun c => (c.targetRustdeskId, c.closedAt)) = some ("123456789", some 40) := by
  have hone : ∀ ev ∈ orderlyReports, ev.Of lateAssignment := by
    simp only [orderlyReports, forall_mem_cons]
    exact ⟨fun _ _ => rfl, trivial, trivial, trivial, trivial, forall_mem_nil _⟩
  refine ⟨(assignment_kept_iff (w := emptyDesk) not_mem_nil rfl
    (fun p hp => absurd hp not_mem_nil) hone).1.mpr ?_, by decide⟩
  refine throughout_cons.mpr ⟨trivial, throughout_cons.mpr ⟨trivial, throughout_cons.mpr ⟨?_,
    throughout_cons.mpr ⟨trivial, throughout_cons.mpr ⟨?_, throughout_nil _ _⟩⟩⟩⟩⟩
  · intro p hp _ _
    cases hp
    decide
  · intro p hp _ _
    cases hp
    decide

/-- The relay's report has found no record when HBBS's is written. -/
def overtakenReport : List LiveEvent :=
  [.report "conn-0001" "active" 10, .assign lateAssignment none 20, .write 0 30]

theorem overtaken_report_blanks :
    ((overtakenReport.foldl LiveDesk.perform emptyDesk).record? "relay:conn-0001").map
        (fun c => (c.targetRustdeskId, c.connectionType, c.actorUserId)) =
      some ("", 0, "user-1") ∧
    ¬ (overtakenReport.foldl LiveDesk.perform emptyDesk).Kept lateAssignment := by
  refine ⟨by decide, fun hkept => ?_⟩
  obtain ⟨c, hc, hd⟩ := hkept (by decide)
  have htarget := hd.target
  cases hc
  exact absurd htarget (by decide)

end RemoteControl.Api
