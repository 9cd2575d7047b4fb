import RemoteControl.Api.Compaction
import RemoteControl.Api.Receipted

/-!
# Which events are refused

What `ApplyRelayEvent` answers a relay that presents its current credential, for an event of a
UUID that was authorised to it. Of the checks on the way, most cannot fail for an event of a
queue that is sent in order; `Expected` says what such an event brings along. What is left is
the projection, whose row may carry another `relay_server`:

> the event is refused exactly if it is of the current generation, was not received yet, and
> the connection record names another relay server.
-/

namespace RemoteControl.Api

open Lib

variable {db db' : Db} {st : Lifecycle} {now : Nat} {e u uuid : String}

/-- The projection's `WHERE` lets the address in. -/
def Db.Fits (uuid address : String) (db : Db) : Prop :=
  ∀ c, db.connections.get? (connectionKey uuid) = some c →
    c.relayServer = "" ∨ c.relayServer = address

theorem projectConnection_isSome (uuid address : String) (st : Lifecycle) (now : Nat) (db : Db) :
    (db.projectConnection uuid address st now).isSome = true ↔ db.Fits uuid address := by
  unfold Db.projectConnection Db.Fits
  dsimp only
  cases hc : db.connections.get? (connectionKey uuid) with
  | none => simp
  | some c =>
    dsimp only
    split
    · next h =>
      refine ⟨fun _ c' hc' => ?_, fun _ => rfl⟩
      cases hc'
      exact h
    · next h => exact ⟨fun h => (by cases h), fun hf => absurd (hf c rfl) h⟩

/-- Nothing in the database speaks against the event: no other event was received for its
status, its id is not that of another one, and its connection is not closed already, unless
by itself. -/
structure Db.Expected (id : String) (m : Message) (st : Lifecycle) (db : Db) : Prop where
  same : ∀ eventId, db.recorded m.uuid st = some eventId → eventId = m.requestId
  own : ∀ r, db.receipts.get? (id, m.requestId) = some r → r.uuid = m.uuid ∧ r.state = st
  forward : db.stateOf m.uuid = some .closed → st = .closed

/-- The event leaves the relay's queue: it is acknowledged, or answered to be stale. -/
def Answer.Settles (a : Answer) : Prop := a = .acknowledged ∨ a = .staleGeneration

instance (a : Answer) : Decidable a.Settles := inferInstanceAs (Decidable (_ ∨ _))

section

variable {hash : String → String} {id token g generation address : String} {m : Message}
  {a : Authorization}

/-- The credential was rotated since the UUID was authorised. -/
theorem answer_rotated (hst : m.lifecycle? = some st)
    (hcur : db.currentGeneration hash id token = some g)
    (ha : db.authorizations.get? m.uuid = some a) (hid : a.relayId = id) (hg : a.generation ≠ g)
    (now : Nat) : (db.applyRelayEvent hash id token address m now).1 = .staleGeneration := by
  have hplan : db.txPlan hash id token address m st now = none := by
    unfold Db.txPlan
    rw [ha]
    exact if_pos (.inr fun h => hg (Option.some.inj (hcur.symm.trans h)).symm)
  unfold Db.applyRelayEvent Db.applyTx
  rw [hst]
  dsimp only
  rw [hplan]
  unfold Db.checkArchivedRelayEvent Db.liveAnswer
  rw [hcur, ha]
  simp [hid, hg]

/-- The UUID was compacted. -/
theorem answer_archived (hst : m.lifecycle? = some st)
    (hcur : db.currentGeneration hash id token = some g)
    (ha : db.authorizations.get? m.uuid = none) (now : Nat) :
    (db.applyRelayEvent hash id token address m now).1 = db.archiveAnswer id g m := by
  have hplan : db.txPlan hash id token address m st now = none := by
    unfold Db.txPlan
    rw [ha]
  unfold Db.applyRelayEvent Db.applyTx
  rw [hst]
  dsimp only
  rw [hplan]
  unfold Db.checkArchivedRelayEvent Db.liveAnswer
  rw [hcur, ha]
  rfl

/-- What was received for a UUID that is not compacted is in the receipts. -/
theorem DbInv.recorded_live (hi : DbInv db) (ha : db.authorizations.get? uuid = some a)
    (st : Lifecycle) : db.recorded uuid st = (db.receiptFor uuid st).map Receipt.eventId := by
  unfold Db.recorded
  rw [hi.exclusive _ _ ha]
  cases db.receiptFor uuid st <;> rfl

/-- A repeated event of the current generation. -/
theorem answer_received (hi : DbInv db) (hst : m.lifecycle? = some st)
    (hcur : db.currentGeneration hash id token = some a.generation)
    (ha : db.authorizations.get? m.uuid = some a) (hid : a.relayId = id)
    (hrec : db.recorded m.uuid st = some m.requestId) (now : Nat) :
    (db.applyRelayEvent hash id token address m now).1 = .acknowledged := by
  subst hid
  rw [hi.recorded_live ha] at hrec
  obtain ⟨r, hr, hu, hs⟩ := (hi.receipt_iff ha m.requestId st).mpr hrec
  have hgen : r.generation = a.generation := by
    obtain ⟨-, b, hb, -, hgb⟩ := hi.receipted r (Table.mem_of_get? hr)
    rw [hu, ha] at hb
    cases hb
    exact hgb.symm
  have hplan : db.txPlan hash a.relayId token address m st now = some (.inl .acknowledged) := by
    unfold Db.txPlan
    rw [ha]
    dsimp only
    rw [if_neg (by simp [hcur]), hr]
    dsimp only
    rw [if_neg (by simp [hu, hgen, hs])]
  unfold Db.applyRelayEvent Db.applyTx
  rw [hst]
  dsimp only
  rw [hplan]
  rfl

/-- A new event of the current generation: the answer is the projection's. -/
theorem answer_new (hi : DbInv db) (hst : m.lifecycle? = some st) (hx : db.Expected id m st)
    (hcur : db.currentGeneration hash id token = some a.generation)
    (ha : db.authorizations.get? m.uuid = some a) (hid : a.relayId = id)
    (hrec : db.recorded m.uuid st ≠ some m.requestId) (now : Nat) :
    (db.applyRelayEvent hash id token address m now).1
      = if (db.projectConnection m.uuid address st now).isSome then .acknowledged
        else .unauthorized := by
  subst hid
  have hfor : db.receiptFor m.uuid st = none := by
    cases hr : db.receiptFor m.uuid st with
    | none => rfl
    | some r =>
      have he : db.recorded m.uuid st = some r.eventId := by rw [hi.recorded_live ha, hr]; rfl
      exact absurd (hx.same _ he ▸ he) hrec
  have hkey : db.receipts.get? (a.relayId, m.requestId) = none := by
    cases hr : db.receipts.get? (a.relayId, m.requestId) with
    | none => rfl
    | some r =>
      have he := (hi.receipt_iff ha m.requestId st).mp ⟨r, hr, hx.own r hr⟩
      rw [hfor] at he
      cases he
  have hforward : ¬ (a.state = .closed ∧ st ≠ .closed) := by
    rintro ⟨hclosed, hne⟩
    refine hne (hx.forward ?_)
    rw [Db.stateOf, ha]
    exact congrArg some hclosed
  unfold Db.applyRelayEvent Db.applyTx Db.txPlan
  rw [hst, ha]
  dsimp only
  rw [if_neg (by simp [hcur]), hkey]
  dsimp only
  rw [if_neg (by simp [hfor]), if_neg hforward]
  cases db.projectConnection m.uuid address st now <;> rfl

/-- **The answer to an event the database expects**, for the relay the UUID was authorised to and
its current credential. -/
theorem settles_iff (hi : DbInv db) (hst : m.lifecycle? = some st) (hx : db.Expected id m st)
    (hcur : db.currentGeneration hash id token = some g)
    (hown : db.owner m.uuid = some (id, generation)) (now : Nat) :
    (db.applyRelayEvent hash id token address m now).1.Settles ↔
      generation ≠ g ∨ db.recorded m.uuid st = some m.requestId ∨ db.Fits m.uuid address := by
  cases ha : db.authorizations.get? m.uuid with
  | some a =>
    rw [Db.owner, ha] at hown
    obtain ⟨hid, rfl⟩ := Prod.mk.inj (Option.some.inj hown)
    by_cases hg : a.generation = g
    · subst hg
      by_cases hrec : db.recorded m.uuid st = some m.requestId
      · exact iff_of_true (.inl (answer_received hi hst hcur ha hid hrec now)) (.inr (.inl hrec))
      · rw [answer_new hi hst hx hcur ha hid hrec, ← projectConnection_isSome _ _ st now]
        by_cases hfits : (db.projectConnection m.uuid address st now).isSome = true
        · rw [if_pos hfits]
          exact iff_of_true (.inl rfl) (.inr (.inr hfits))
        · rw [if_neg hfits]
          refine iff_of_false (by decide) ?_
          rintro (h | h | h)
          · exact h rfl
          · exact hrec h
          · exact hfits h
    · exact iff_of_true (.inr (answer_rotated hst hcur ha hid hg now)) (.inl hg)
  | none =>
    rw [Db.owner, ha] at hown
    obtain ⟨e, he, howner⟩ := Option.map_eq_some_iff.mp hown
    obtain ⟨hid, rfl⟩ := Prod.mk.inj howner
    rw [answer_archived hst hcur ha]
    by_cases hg : e.generation = g
    · -- a compacted connection is closed, so this is its closing event
      obtain rfl : st = .closed := hx.forward (by rw [Db.stateOf, ha, he]; rfl)
      have hrec : db.recorded m.uuid .closed = some e.closedEventId := by
        rw [Db.recorded, hi.receiptFor_unauthorized ha, he]
        rfl
      have hsame := hx.same _ hrec
      have hstatus : m.status = "closed" := by
        rcases lifecycle?_status hst with ⟨-, h⟩ | ⟨hs, -⟩
        · cases h
        · exact hs
      refine iff_of_true (.inl ?_) (.inr (.inl (hsame ▸ hrec)))
      unfold Db.archiveAnswer
      rw [he]
      simp [hid, hg, hstatus, hsame]
    · refine iff_of_true (.inr ?_) (.inl hg)
      unfold Db.archiveAnswer
      rw [he]
      simp [hid, hg]

end

/-! ## Where a receipt comes from -/

theorem Compacts.recorded_back {a : Authorization} {closed : Receipt}
    (h : Compacts uuid now db db' a closed) (hi : DbInv db) (hrec : db'.recorded u st = some e) :
    db.recorded u st = some e := by
  unfold Db.recorded at hrec
  rw [h.receiptFor, h.archive hi] at hrec
  by_cases hu : u = uuid
  · subst hu
    rw [if_pos rfl, if_pos rfl] at hrec
    rw [hi.recorded_live h.found]
    cases st with
    | closed =>
      rw [h.receipt]
      exact hrec
    | active =>
      cases hr : db.receiptFor u .active with
      | none => simp [hr, ArchiveEntry.eventId?] at hrec
      | some r =>
        have hne := (hi.receipted r (receiptFor_some hr).1).1
        simpa [hr, ArchiveEntry.eventId?, hne] using hrec
  · rwa [if_neg hu, if_neg (fun he => hu he.symm)] at hrec

theorem compactAll_recorded {id : String} :
    ∀ {uuids : List String} {db db' : Db}, DbInv db → Db.compactAll id now uuids db = some db' →
      db'.recorded u st = some e → db.recorded u st = some e
  | [], _, _, _, h, hrec => by cases h; exact hrec
  | uuid :: uuids, db, db', hi, h, hrec => by
    obtain ⟨db₁, h₁, hrest⟩ := Option.bind_eq_some_iff.mp h
    rcases compactOne_cases h₁ with rfl | ⟨a, closed, -, hc⟩
    · exact compactAll_recorded hi hrest hrec
    · exact hc.recorded_back hi (compactAll_recorded (hc.inv hi) hrest hrec)

theorem admin_recorded {op : AdminOp} (hi : DbInv db)
    (hrec : (op.perform db).recorded u st = some e) : db.recorded u st = some e := by
  cases hop : op.compacts with
  | false =>
    have hsame := admin_frame hop db
    unfold Db.recorded at hrec ⊢
    rwa [hsame.receiptFor, hsame.archive] at hrec
  | true =>
    cases op with
    | compact id now =>
      replace hrec : (db.compactRelayDelivery id now).recorded u st = some e := hrec
      unfold Db.compactRelayDelivery at hrec
      cases hc : Db.compactAll id now (db.compactable id now) db with
      | none => rwa [hc] at hrec
      | some db' =>
        rw [hc] at hrec
        exact compactAll_recorded hi hc hrec
    | _ => cases hop

/-- A statement records nothing but the event of its own call, for the call's own relay. -/
theorem advance_recorded {hash : String → String} {c : Call} {next : Call ⊕ Answer}
    (hi : DbInv db) (h : c.advance hash now db = (db', next)) (hrec : db'.recorded u st = some e) :
    db.recorded u st = some e ∨ ∃ m generation, c.message? = some m ∧ m.lifecycle? = some st ∧
      m.uuid = u ∧ m.requestId = e ∧ db'.owner u = some (c.relayId, generation) := by
  rcases advance_cases h with rfl | ⟨id, uuid, k, rfl, -, hn, hv, rfl⟩
    | ⟨id, token, address, m, st', a, connections, rfl, -, hst, hreceives⟩
  · exact .inl hrec
  · exact .inl hrec
  · by_cases hnew : u = m.uuid ∧ st = st'
    · obtain ⟨rfl, rfl⟩ := hnew
      obtain ⟨st', generation, hst', hrec', howner⟩ := hreceives.receipted hst
      rw [lifecycle?_ofString? hst] at hst'
      cases hst'
      rw [hrec] at hrec'
      exact .inr ⟨m, generation, rfl, hst, rfl, (Option.some.inj hrec').symm, howner⟩
    · left
      unfold Db.recorded at hrec ⊢
      rw [hreceives.receiptFor, hreceives.archive] at hrec
      cases hr : db.receiptFor u st with
      | some r => rwa [hr] at hrec
      | none =>
        rw [hr, if_neg (by simpa [eq_comm] using hnew)] at hrec
        exact hrec

theorem DbInv.owner_of_recorded (hi : DbInv db) (hrec : db.recorded u st = some e) :
    ∃ o, db.owner u = some o := by
  unfold Db.owner
  cases ha : db.authorizations.get? u with
  | some a => exact ⟨_, rfl⟩
  | none =>
    rw [Db.recorded, hi.receiptFor_unauthorized ha] at hrec
    obtain ⟨x, hx, -⟩ := Option.bind_eq_some_iff.mp hrec
    exact ⟨_, by rw [hx]; rfl⟩

theorem DbInv.recorded_closed (hi : DbInv db) (h : db.stateOf u = some .closed) :
    ∃ e, db.recorded u .closed = some e := by
  unfold Db.stateOf at h
  cases ha : db.authorizations.get? u with
  | some a =>
    rw [ha] at h
    have hsome := (hi.closed u a ha).mp (Option.some.inj h)
    obtain ⟨r, hr⟩ := Option.isSome_iff_exists.mp hsome
    exact ⟨r.eventId, by rw [hi.recorded_live ha, hr]; rfl⟩
  | none =>
    rw [ha] at h
    obtain ⟨x, hx, -⟩ := Option.map_eq_some_iff.mp h
    exact ⟨x.closedEventId, by rw [Db.recorded, hi.receiptFor_unauthorized ha, hx]; rfl⟩

end RemoteControl.Api
