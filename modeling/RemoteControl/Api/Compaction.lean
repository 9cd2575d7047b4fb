import RemoteControl.Api.DeliveryInv

/-!
# Compaction

Compaction replaces the authorisation and the receipts of a long closed
connection by one archive row. This module runs two databases side by side over
the same operations, one of which never compacts, and compares their answers.

The answers agree, with two exceptions that are stated where they occur. The
authorisation limit counts live rows, so compacting makes room. And an archive
row is found by its UUID, so an event id is remembered only together with the
UUID it was received for.
-/

namespace RemoteControl.Api

open Lib Table Option

variable {a : Authorization} {db db' : Db} {st : Lifecycle} {m : Message} {n now : Nat}
  {generation token u uuid id : String} {gone : String → Bool} {hash : String → String}

/-- What the answers have in common for a client of the store. -/
inductive Outcome
  | granted | acknowledged | stale | rejected
deriving DecidableEq, Repr

def Answer.outcome : Answer → Outcome
  | .authorized => .granted
  | .acknowledged => .acknowledged
  | .staleGeneration => .stale
  | _ => .rejected

/-! ## The relation -/

/-- `db'` is `db` with the UUIDs that are `gone` compacted. -/
structure Compacted (gone : String → Bool) (db db' : Db) : Prop where
  relays : db'.relays = db.relays
  credentials : db'.credentials = db.credentials
  connections : db'.connections = db.connections
  inv : DbInv db
  inv' : DbInv db'
  authorization : ∀ u, db'.authorizations.get? u
    = if gone u = true then none else db.authorizations.get? u
  receipt : ∀ k, db'.receipts.get? k = (db.receipts.get? k).filter fun r => !gone r.uuid
  receiptFor : ∀ u st, db'.receiptFor u st = if gone u = true then none else db.receiptFor u st
  archive : ∀ u, gone u = false → db'.archive.get? u = db.archive.get? u
  entry : ∀ u, gone u = true → ∃ a e, db.authorizations.get? u = some a ∧ a.state = .closed ∧
    db'.archive.get? u = some e ∧ e.relayId = a.relayId ∧ e.generation = a.generation ∧
    ∀ st, e.eventId? st = (db.receiptFor u st).map Receipt.eventId
  count : ∀ id, db'.authorizationCount id ≤ db.authorizationCount id

theorem Compacted.refl (hi : DbInv db) : Compacted (fun _ => false) db db where
  relays := rfl
  credentials := rfl
  connections := rfl
  inv := hi
  inv' := hi
  authorization _ := by simp
  receipt k := by cases db.receipts.get? k <;> rfl
  receiptFor _ _ := by simp
  archive _ _ := rfl
  entry _ h := by cases h
  count _ := Nat.le_refl _

theorem Compacted.currentGeneration (h : Compacted gone db db') (hash : String → String)
    (id token : String) :
    db'.currentGeneration hash id token = db.currentGeneration hash id token := by
  unfold Db.currentGeneration
  rw [h.credentials, h.relays]

/-- A UUID that is still authorised on the compacted side is authorised on both. -/
theorem Compacted.live (h : Compacted gone db db') (ha : db'.authorizations.get? u = some a) :
    gone u = false ∧ db.authorizations.get? u = some a := by
  rw [h.authorization] at ha
  split at ha
  · cases ha
  · next hg => exact ⟨by simpa using hg, ha⟩

theorem Compacted.compacts {db'' : Db} (h : Compacted gone db db') {closed : Receipt}
    (hc : Compacts uuid now db' db'' a closed) :
    Compacted (fun u => gone u || u = uuid) db db'' := by
  obtain ⟨hlive, hfound⟩ := h.live hc.found
  have hrel : db''.relays = db'.relays ∧ db''.credentials = db'.credentials
      ∧ db''.connections = db'.connections := by rw [hc.result]; exact ⟨rfl, rfl, rfl⟩
  refine ⟨hrel.1.trans h.relays, hrel.2.1.trans h.credentials, hrel.2.2.trans h.connections,
    h.inv, hc.inv h.inv', fun u => ?_, fun k => ?_, fun u st => ?_, fun u hu => ?_, fun u hu => ?_,
    fun id => ?_⟩
  · rw [hc.authorization, h.authorization]
    by_cases hu : u = uuid <;> simp [hu]
  · rw [hc.result]
    simp only [get?_deleteWhere, h.receipt, filter_filter]
    congr 1
    funext r
    simp
  · rw [hc.receiptFor, h.receiptFor]
    by_cases hu : u = uuid <;> simp [hu]
  · simp only [Bool.or_eq_false_iff, decide_eq_false_iff_not] at hu
    rw [hc.archive h.inv', if_neg (fun he => hu.2 he.symm)]
    exact h.archive u hu.1
  · by_cases he : u = uuid
    · subst he
      refine ⟨a, _, hfound, hc.state, by rw [hc.archive h.inv', if_pos rfl], rfl, rfl, fun st => ?_⟩
      have hsame : ∀ st, db'.receiptFor u st = db.receiptFor u st := fun st => by
        rw [h.receiptFor, hlive]; rfl
      cases st with
      | closed =>
        rw [← hsame, hc.receipt]
        rfl
      | active =>
        rw [← hsame]
        cases hr : db'.receiptFor u .active with
        | none => simp [ArchiveEntry.eventId?]
        | some r =>
          have hne := (h.inv'.receipted r (receiptFor_some hr).1).1
          simp [ArchiveEntry.eventId?, hne]
    · obtain ⟨b, e, hb, hst, hv, hrest⟩ := h.entry u (by simpa [he] using hu)
      refine ⟨b, e, hb, hst, ?_, hrest⟩
      rw [hc.archive h.inv', if_neg (fun hx => he hx.symm)]
      exact hv
  · refine Nat.le_trans ?_ (h.count id)
    rw [hc.result]
    exact List.Sublist.countP_le List.filter_sublist

theorem Compacted.compactAll : ∀ {uuids : List String}
    {gone : String → Bool} {db db' db'' : Db}, Compacted gone db db' →
    Db.compactAll id now uuids db' = some db'' → ∃ gone', Compacted gone' db db''
  | [], gone, db, db', db'', h, hc => by cases hc; exact ⟨gone, h⟩
  | uuid :: uuids, gone, db, db', db'', h, hc => by
    obtain ⟨db₁, h₁, hrest⟩ := bind_eq_some_iff.mp hc
    rcases compactOne_cases h₁ with rfl | ⟨a, closed, -, hone⟩
    · exact h.compactAll hrest
    · exact (h.compacts hone).compactAll hrest

theorem Compacted.compact (h : Compacted gone db db') (id : String) (now : Nat) :
    ∃ gone', Compacted gone' db (db'.compactRelayDelivery id now) := by
  unfold Db.compactRelayDelivery
  cases hc : Db.compactAll id now (db'.compactable id now) db' with
  | none => exact ⟨gone, h⟩
  | some db'' => exact h.compactAll hc

/-! ## An event for a compacted UUID -/

theorem lifecycle?_status (h : m.lifecycle? = some st) :
    m.status = "active" ∧ st = .active ∨ m.status = "closed" ∧ st = .closed := by
  revert h
  fun_cases Message.lifecycle? with
  | case1 => exact nofun
  | case2 =>
    fun_cases Lifecycle.ofString? with
    | case1 hs => rintro ⟨⟩; exact .inl ⟨hs, rfl⟩
    | case2 _ hs => rintro ⟨⟩; exact .inr ⟨hs, rfl⟩
    | case3 => exact nofun

/-- What an event for a completed UUID is answered, in terms of the event received for
its status. -/
def completedOutcome (id generation owner ownerGeneration : String) (received : Option String)
    (m : Message) : Outcome :=
  if owner ≠ id then .rejected
  else if ownerGeneration ≠ generation then .stale
  else if received = some m.requestId then .acknowledged
  else .rejected

theorem archiveAnswer_outcome {e : ArchiveEntry} (hst : m.lifecycle? = some st)
    (he : db.archive.get? m.uuid = some e) :
    (db.archiveAnswer id generation m).outcome
      = completedOutcome id generation e.relayId e.generation (e.eventId? st) m := by
  unfold Db.archiveAnswer completedOutcome
  rw [he]
  dsimp only
  split
  · rfl
  split
  · rfl
  have hack : (m.status = "active" ∧ e.activeEventId ≠ "" ∧ m.requestId = e.activeEventId
        ∨ m.status = "closed" ∧ m.requestId = e.closedEventId)
      ↔ e.eventId? st = some m.requestId := by
    rcases lifecycle?_status hst with ⟨hs, rfl⟩ | ⟨hs, rfl⟩ <;>
      simp [hs, ArchiveEntry.eventId?, @eq_comm _ m.requestId]
  by_cases h : e.eventId? st = some m.requestId
  · rw [if_pos (hack.mpr h), if_pos h]; rfl
  · rw [if_neg (fun hx => h (hack.mp hx)), if_neg h]; rfl

/-- The receipt of an event id is the one of its UUID and status. -/
theorem DbInv.receipt_iff (hi : DbInv db) (ha : db.authorizations.get? uuid = some a)
    (eventId : String) (st : Lifecycle) :
    (∃ r, db.receipts.get? (a.relayId, eventId) = some r ∧ r.uuid = uuid ∧ r.state = st)
      ↔ (db.receiptFor uuid st).map Receipt.eventId = some eventId := by
  constructor
  · rintro ⟨r, hr, rfl, rfl⟩
    obtain ⟨hmem, hkey⟩ := get?_eq_some.mp hr
    rw [hi.receiptFor_of_mem hmem, map_some, (Prod.mk.inj hkey).2]
  · intro h
    obtain ⟨r, hr, he⟩ := map_eq_some_iff.mp h
    obtain ⟨hmem, hu, hs⟩ := receiptFor_some hr
    obtain ⟨-, b, hb, hrel, -⟩ := hi.receipted r hmem
    rw [hu, ha] at hb
    cases hb
    refine ⟨r, ?_, hu, hs⟩
    have := get?_of_mem hmem
    rwa [show r.key = (a.relayId, eventId) from Prod.ext hrel.symm he] at this

/-- The same event before compaction: nothing changes, and the answer is the same one. -/
theorem completed_event (hi : DbInv db) (address : String) (now : Nat)
    (hst : m.lifecycle? = some st) (hg : db.currentGeneration hash id token = some generation)
    (ha : db.authorizations.get? m.uuid = some a) (hc : a.state = .closed) :
    (db.applyRelayEvent hash id token address m now).2 = db ∧
    (db.applyRelayEvent hash id token address m now).1.outcome
      = completedOutcome id generation a.relayId a.generation
          ((db.receiptFor m.uuid st).map Receipt.eventId) m := by
  unfold Db.applyRelayEvent Db.applyTx Db.txPlan completedOutcome
  rw [hst, ha]
  dsimp only
  by_cases hown : a.relayId = id ∧ a.generation = generation
  · -- the transaction finds the row; only an exact repeat is acknowledged
    obtain ⟨rfl, rfl⟩ := hown
    rw [if_neg (by rw [hg]; simp), if_neg (not_not.mpr rfl), if_neg (not_not.mpr rfl)]
    have hiff := hi.receipt_iff ha m.requestId st
    cases hr : db.receipts.get? (a.relayId, m.requestId) with
    | some r =>
      dsimp only
      by_cases hrep : r.uuid = m.uuid ∧ r.state = st
      · have hgen : r.generation = a.generation := by
          obtain ⟨-, b, hb, -, hgb⟩ := hi.receipted r (mem_of_get? hr)
          rw [hrep.1, ha] at hb
          cases hb
          exact hgb.symm
        rw [if_neg (by simp [hrep, hgen]), if_pos (hiff.mp ⟨r, hr, hrep⟩)]
        exact ⟨rfl, rfl⟩
      · have hno : (db.receiptFor m.uuid st).map Receipt.eventId ≠ some m.requestId := by
          intro h
          obtain ⟨r', hr', hrep'⟩ := hiff.mpr h
          rw [hr] at hr'
          cases hr'
          exact hrep hrep'
        rw [if_neg hno, if_pos]
        · exact ⟨rfl, rfl⟩
        · by_cases hu : r.uuid = m.uuid
          · exact .inr (.inr fun hs => hrep ⟨hu, hs⟩)
          · exact .inl hu
    | none =>
      have hno : (db.receiptFor m.uuid st).map Receipt.eventId ≠ some m.requestId := by
        intro h
        obtain ⟨r', hr', -⟩ := hiff.mpr h
        rw [hr] at hr'
        cases hr'
      rw [if_neg hno]
      dsimp only
      by_cases hsome : (db.receiptFor m.uuid st).isSome = true
      · rw [if_pos hsome]; exact ⟨rfl, rfl⟩
      · -- the closing receipt exists, so this is an event for the other status
        rw [if_neg hsome, if_pos]
        · exact ⟨rfl, rfl⟩
        · refine ⟨hc, fun h => hsome ?_⟩
          rw [h]
          exact (hi.closed m.uuid a ha).mp hc
  · rw [if_pos]
    · unfold Db.checkArchivedRelayEvent Db.liveAnswer
      rw [hg, ha]
      refine ⟨rfl, ?_⟩
      by_cases hid : a.relayId = id
      · have hne : a.generation ≠ generation := fun h => hown ⟨hid, h⟩
        simp [hid, hne, Answer.outcome]
      · simp [hid, Answer.outcome]
    · rw [hg]
      by_cases hid : a.relayId = id
      · exact .inr fun h => hown ⟨hid, (Option.some.inj h).symm⟩
      · exact .inl hid

section

variable (h : Compacted gone db db')

include h

theorem Compacted.event_gone (hash : String → String) (id token address : String) (now : Nat)
    (hgone : gone m.uuid = true) :
    (db.applyRelayEvent hash id token address m now).1.outcome
      = (db'.applyRelayEvent hash id token address m now).1.outcome ∧
    (db.applyRelayEvent hash id token address m now).2 = db ∧
    (db'.applyRelayEvent hash id token address m now).2 = db' := by
  obtain ⟨a, e, ha, hc, he, hrel, hgen, hev⟩ := h.entry m.uuid hgone
  have ha' : db'.authorizations.get? m.uuid = none := by rw [h.authorization, if_pos hgone]
  cases hst : m.lifecycle? with
  | none => simp [Db.applyRelayEvent, hst]
  | some st =>
    have hright : db'.applyRelayEvent hash id token address m now
        = (db'.checkArchivedRelayEvent hash id token m, db') := by
      simp [Db.applyRelayEvent, hst, Db.applyTx, Db.txPlan, ha']
    rw [hright]
    cases hg : db.currentGeneration hash id token with
    | none =>
      have hleft : db.applyRelayEvent hash id token address m now = (.unauthorized, db) := by
        simp [Db.applyRelayEvent, hst, Db.applyTx, Db.txPlan, ha, hg, Db.checkArchivedRelayEvent]
      rw [hleft]
      simp [Db.checkArchivedRelayEvent, h.currentGeneration, hg]
    | some generation =>
      obtain ⟨hsame, hout⟩ := completed_event h.inv address now hst hg ha hc
      refine ⟨?_, hsame, rfl⟩
      have hcheck : db'.checkArchivedRelayEvent hash id token m
          = db'.archiveAnswer id generation m := by
        simp [Db.checkArchivedRelayEvent, h.currentGeneration, hg, Db.liveAnswer, ha']
      rw [hout, hcheck, archiveAnswer_outcome hst he, hrel, hgen, hev]

/-! ## An event for a live UUID -/

theorem Compacted.receives {db₁ db₁' : Db} {address : String}
    {connections : Table ConnectionRecord.key}
    (hr : Receives hash id token address m st now db db₁ a connections)
    (hr' : Receives hash id token address m st now db' db₁' a connections)
    (hlive : gone m.uuid = false) (hid : m.requestId ≠ "") : Compacted gone db₁ db₁' := by
  have hne : ∀ u, gone u = true → u ≠ m.uuid := by
    rintro u hu rfl
    rw [hlive] at hu
    cases hu
  refine ⟨?_, ?_, ?_, hr.inv h.inv hid, hr'.inv h.inv' hid, fun u => ?_, fun k => ?_,
    fun u x => ?_, fun u hu => ?_, fun u hu => ?_, fun id' => ?_⟩
  · rw [hr.result, hr'.result]; exact h.relays
  · rw [hr.result, hr'.result]; exact h.credentials
  · rw [hr.result, hr'.result]; rfl
  · rw [hr.authorization, hr'.authorization, h.authorization]
    by_cases hu : gone u = true
    · rw [if_pos hu, if_pos hu]; rfl
    · rw [if_neg hu, if_neg hu]
  · rw [hr.result, hr'.result]
    unfold Db.commitReceipt
    rw [get?_insert hr'.fresh, get?_insert hr.fresh, h.receipt]
    split
    · rw [filter_some_pos (by simp [hlive])]
    · rfl
  · rw [hr.receiptFor, hr'.receiptFor, h.receiptFor]
    by_cases hu : gone u = true
    · rw [if_pos hu, if_pos hu, none_or, if_neg (fun hx => hne u hu hx.1.symm)]
    · rw [if_neg hu, if_neg hu]
  · rw [hr.archive, hr'.archive]
    exact h.archive u hu
  · obtain ⟨b, e, hb, hst, hv, hrel, hgen, hev⟩ := h.entry u hu
    refine ⟨b, e, ?_, hst, by rw [hr'.archive]; exact hv, hrel, hgen, fun x => ?_⟩
    · rw [hr.authorization, hb, map_some, if_neg (hne u hu)]
    · rw [hr.receiptFor, if_neg (fun hx => hne u hu hx.1.symm), or_none]
      exact hev x
  · rw [hr.result, hr'.result]
    unfold Db.authorizationCount Db.commitReceipt
    rw [count_updateWhere (by intro _; rfl), count_updateWhere (by intro _; rfl)]
    exact h.count id'

/-- An event for a live UUID, if its event id was not received for a compacted one. -/
theorem Compacted.event_live (hash : String → String) (token address : String) (now : Nat)
    (hlive : gone m.uuid = false)
    (hfresh : ∀ r, db.receipts.get? (id, m.requestId) = some r → gone r.uuid = false) :
    (db.applyRelayEvent hash id token address m now).1
      = (db'.applyRelayEvent hash id token address m now).1 ∧
    Compacted gone (db.applyRelayEvent hash id token address m now).2
      (db'.applyRelayEvent hash id token address m now).2 := by
  have hauth : db'.authorizations.get? m.uuid = db.authorizations.get? m.uuid := by
    rw [h.authorization, hlive]; rfl
  have hrec : db'.receipts.get? (id, m.requestId) = db.receipts.get? (id, m.requestId) := by
    rw [h.receipt]
    cases hr : db.receipts.get? (id, m.requestId) with
    | none => rfl
    | some r => rw [filter_some_pos (by simp [hfresh r hr])]
  have hplan : ∀ st, db'.txPlan hash id token address m st now
      = db.txPlan hash id token address m st now := fun st => by
    unfold Db.txPlan Db.projectConnection
    rw [hauth, h.currentGeneration, hrec, h.receiptFor, hlive, h.connections]
    rfl
  have hcheck : db'.checkArchivedRelayEvent hash id token m
      = db.checkArchivedRelayEvent hash id token m := by
    unfold Db.checkArchivedRelayEvent Db.liveAnswer Db.archiveAnswer
    rw [h.currentGeneration, hauth, h.archive m.uuid hlive]
  cases hst : m.lifecycle? with
  | none => simpa [Db.applyRelayEvent, hst] using h
  | some st =>
    simp only [Db.applyRelayEvent, hst, Db.applyTx, hplan]
    cases hp : db.txPlan hash id token address m st now with
    | none => exact ⟨hcheck.symm, h⟩
    | some plan =>
      rcases plan with answer | ⟨a, connections⟩
      · exact ⟨rfl, h⟩
      · exact ⟨rfl, h.receives (txPlan_receives hp) (txPlan_receives ((hplan st).trans hp)) hlive
          (lifecycle?_requestId hst)⟩

/-! ## Authorising -/

theorem Compacted.authorized (hn : db.authorizations.get? a.uuid = none)
    (hv : db.archive.get? a.uuid = none) (hp : a.state = .permitted) :
    Compacted gone { db with authorizations := db.authorizations.insert a }
      { db' with authorizations := db'.authorizations.insert a } := by
  have hlive : gone a.uuid = false := by
    rw [Bool.eq_false_iff]
    intro hg
    obtain ⟨b, -, hb, -⟩ := h.entry a.uuid hg
    rw [hn] at hb
    cases hb
  have hn' : db'.authorizations.get? a.uuid = none := by rw [h.authorization, hn]; simp
  have hv' : db'.archive.get? a.uuid = none := (h.archive a.uuid hlive).trans hv
  refine ⟨h.relays, h.credentials, h.connections, authorized_inv h.inv hn hv hp,
    authorized_inv h.inv' hn' hv' hp, fun u => ?_, h.receipt, h.receiptFor, h.archive,
    fun u hu => ?_, fun id => ?_⟩
  · dsimp only
    rw [get?_insert hn, get?_insert hn', h.authorization]
    split
    · next hu => rw [← hu, hlive]; rfl
    · rfl
  · obtain ⟨b, e, hb, hrest⟩ := h.entry u hu
    refine ⟨b, e, ?_, hrest⟩
    dsimp only
    rw [get?_insert hn, if_neg]
    · exact hb
    · intro he
      rw [he, hu] at hlive
      cases hlive
  · unfold Db.authorizationCount
    rw [count_insert hn, count_insert hn']
    exact Nat.add_le_add_right (h.count id) _

/-- An attempt to authorise, if the limit is reached on both sides or on neither. -/
theorem Compacted.authorize (hash : String → String)
    (id token uuid : String) (now : Nat)
    (hroom : db.authorizationCount id < authorizationLimit
      ∨ authorizationLimit ≤ db'.authorizationCount id) :
    (db.authorizeRelay hash id token uuid now).1 = (db'.authorizeRelay hash id token uuid now).1 ∧
    Compacted gone (db.authorizeRelay hash id token uuid now).2
      (db'.authorizeRelay hash id token uuid now).2 := by
  unfold Db.authorizeRelay
  rw [h.credentials]
  cases hc : db.credentials.get? id with
  | none => exact ⟨rfl, h⟩
  | some c =>
    dsimp only
    split
    · -- the two conditional inserts agree on their condition
      have hcount : db'.authorizationCount id < authorizationLimit
          ↔ db.authorizationCount id < authorizationLimit := by
        have := h.count id
        omega
      have hfree : db'.archive.get? uuid = none ∧ db'.authorizations.get? uuid = none
          ↔ db.archive.get? uuid = none ∧ db.authorizations.get? uuid = none := by
        rw [h.authorization]
        by_cases hg : gone uuid = true
        · obtain ⟨a, e, ha, -, he, -⟩ := h.entry uuid hg
          simp [ha, he]
        · rw [h.archive uuid (by simpa using hg), if_neg hg]
      simp only [Db.authorizeInsert, hcount, h.credentials, hfree]
      split
      · next hcond =>
        have hdone := h.authorized (a := ⟨uuid, id, c.generation, .permitted, now⟩)
          hcond.2.2.2 hcond.2.2.1 rfl
        rw [h.credentials] at hdone
        exact ⟨rfl, hdone⟩
      · exact ⟨rfl, h⟩
    · exact ⟨rfl, h⟩

/-! ## Side by side -/

inductive LaterOp
  | authorize (id token uuid : String) (now : Nat)
  | event (id token address : String) (m : Message) (now : Nat)
  | admin (op : AdminOp)

/-- Performs one operation; a database that is not `compacting` skips compactions. -/
def LaterOp.perform (hash : String → String) (compacting : Bool) (db : Db) :
    LaterOp → Option Outcome × Db
  | .authorize id token uuid now =>
    let r := db.authorizeRelay hash id token uuid now
    (some r.1.outcome, r.2)
  | .event id token address m now =>
    let r := db.applyRelayEvent hash id token address m now
    (some r.1.outcome, r.2)
  | .admin (.compact id now) => (none, if compacting then db.compactRelayDelivery id now else db)
  | .admin op => (none, op.perform db)

def runOps (hash : String → String) (compacting : Bool) :
    Db → List LaterOp → List (Option Outcome) × Db
  | db, [] => ([], db)
  | db, op :: ops =>
    let r := op.perform hash compacting db
    let rest := runOps hash compacting r.2 ops
    (r.1 :: rest.1, rest.2)

/-- The operation is none of the two for which compaction can be seen: an attempt to
authorise that meets the limit only without compaction, or an event whose id was
received for another UUID that is compacted by now. -/
def agreesAt (db db' : Db) : LaterOp → Bool
  | .authorize id _ _ _ =>
    db.authorizationCount id < authorizationLimit || authorizationLimit ≤ db'.authorizationCount id
  | .event id _ _ m _ => (db.receipts.get? (id, m.requestId)).all fun r =>
    r.uuid = m.uuid || (db'.archive.get? r.uuid).isNone
  | .admin _ => true

def agreesAlong (hash : String → String) : Db → Db → List LaterOp → Bool
  | _, _, [] => true
  | db, db', op :: ops => agreesAt db db' op &&
    agreesAlong hash (op.perform hash false db).2 (op.perform hash true db').2 ops

theorem Compacted.event (hash : String → String) (id token address : String) (m : Message)
    (now : Nat) (hagree : agreesAt db db' (.event id token address m now) = true) :
    (db.applyRelayEvent hash id token address m now).1.outcome
      = (db'.applyRelayEvent hash id token address m now).1.outcome ∧
    Compacted gone (db.applyRelayEvent hash id token address m now).2
      (db'.applyRelayEvent hash id token address m now).2 := by
  cases hg : gone m.uuid with
  | true =>
    obtain ⟨hout, hl, hr⟩ := h.event_gone hash id token address now hg
    rw [hl, hr]
    exact ⟨hout, h⟩
  | false =>
    have hfresh : ∀ r, db.receipts.get? (id, m.requestId) = some r → gone r.uuid = false := by
      intro r hr
      simp only [agreesAt, hr, all_some, Bool.or_eq_true, decide_eq_true_eq] at hagree
      rcases hagree with hu | hn
      · rw [hu]; exact hg
      · rw [Bool.eq_false_iff]
        intro hgr
        obtain ⟨-, e, -, -, he, -⟩ := h.entry r.uuid hgr
        rw [he] at hn
        cases hn
    obtain ⟨hans, hrel⟩ := h.event_live hash token address now hg hfresh
    exact ⟨by rw [hans], hrel⟩

/-- The same database with other delivery tables. -/
def Db.withDelivery (db d : Db) : Db :=
  { db with authorizations := d.authorizations, receipts := d.receipts, archive := d.archive }

omit h in
/-- Every operation but the compaction does the same whatever the delivery tables are. -/
theorem admin_withDelivery {op : AdminOp} (hop : op.compacts = false) (db d : Db) :
    op.perform (db.withDelivery d) = (op.perform db).withDelivery d := by
  cases op with
  | compact => cases hop
  | putEnrollment id enrollmentHash expires generation =>
    simp only [AdminOp.perform, Db.putRelayEnrollment, apply_ite (Db.withDelivery · d)]
    rfl
  | consumeEnrollment id enrollmentHash tokenHash now =>
    simp only [AdminOp.perform, Db.consumeRelayEnrollment, apply_ite (Db.withDelivery · d)]
    rfl
  | revokeCredential id => rfl
  | createRelay id enabled => rfl
  | setRelayEnabled id enabled => rfl
  | upsertConnection v =>
    simp only [AdminOp.perform, Db.upsertConnection, Db.withDelivery]
    cases db.connections.get? v.key <;> rfl

theorem Compacted.admin (hash : String → String) (op : AdminOp) :
    ∃ gone', Compacted gone' (LaterOp.perform hash false db (.admin op)).2
      (LaterOp.perform hash true db' (.admin op)).2 := by
  cases hop : op.compacts with
  | true =>
    cases op with
    | compact id now => exact h.compact id now
    | _ => cases hop
  | false =>
    have hperform : ∀ b d, (LaterOp.perform hash b d (.admin op)).2 = op.perform d := by
      intro b d
      cases op with
      | compact => cases hop
      | _ => rfl
    have hdb' : db' = db.withDelivery db' := by
      unfold Db.withDelivery
      rw [← h.relays, ← h.credentials, ← h.connections]
    have hs := admin_frame hop db
    have hs' := admin_frame hop db'
    have hcomm : op.perform db' = (op.perform db).withDelivery db' := by
      rw [← admin_withDelivery hop, ← hdb']
    rw [hperform, hperform]
    refine ⟨gone, ⟨by rw [hcomm]; rfl, by rw [hcomm]; rfl, by rw [hcomm]; rfl, hs.inv h.inv,
      hs'.inv h.inv', ?_, ?_, fun u st => ?_, ?_, fun u hu => ?_, fun id => ?_⟩⟩
    · rw [hs.authorizations, hs'.authorizations]; exact h.authorization
    · rw [hs.receipts, hs'.receipts]; exact h.receipt
    · rw [hs.receiptFor, hs'.receiptFor]; exact h.receiptFor u st
    · rw [hs.archive, hs'.archive]; exact h.archive
    · rw [hs.authorizations, hs'.archive]
      simp only [hs.receiptFor]
      exact h.entry u hu
    · unfold Db.authorizationCount
      rw [hs.authorizations, hs'.authorizations]
      exact h.count id

/-- One operation on both sides. -/
theorem Compacted.step (hash : String → String) (op : LaterOp)
    (hagree : agreesAt db db' op = true) :
    (op.perform hash false db).1 = (op.perform hash true db').1 ∧
    ∃ gone', Compacted gone' (op.perform hash false db).2 (op.perform hash true db').2 := by
  cases op with
  | authorize id token uuid now =>
    simp only [agreesAt, Bool.or_eq_true, decide_eq_true_eq] at hagree
    obtain ⟨hans, hrel⟩ := h.authorize hash id token uuid now hagree
    exact ⟨congrArg (fun a : Answer => some a.outcome) hans, gone, hrel⟩
  | event id token address m now =>
    obtain ⟨hout, hrel⟩ := h.event hash id token address m now hagree
    exact ⟨congrArg some hout, gone, hrel⟩
  | admin op =>
    refine ⟨?_, h.admin hash op⟩
    cases op <;> rfl

end

theorem Compacted.run (hash : String → String) : ∀ (ops : List LaterOp) {gone : String → Bool}
    {db db' : Db}, Compacted gone db db' → agreesAlong hash db db' ops = true →
    (runOps hash false db ops).1 = (runOps hash true db' ops).1 ∧
    (runOps hash true db' ops).2.connections = (runOps hash false db ops).2.connections
  | [], _, _, _, h, _ => ⟨rfl, h.connections⟩
  | op :: ops, gone, db, db', h, hagree => by
    obtain ⟨hat, hrest⟩ := (Bool.and_eq_true _ _).mp hagree
    obtain ⟨hout, gone', hrel⟩ := h.step hash op hat
    obtain ⟨houts, hconn⟩ := hrel.run hash ops hrest
    refine ⟨?_, hconn⟩
    simp only [runOps]
    rw [hout, houts]

/-- **Compaction cannot be seen**, but for the room it makes. From any reachable
database, any later attempts, events and administrative operations have the same
outcomes and leave the same connection projection whether compactions run among
them or are skipped. -/
theorem compaction_invisible (hash : String → String) {s : Deliveries} (hs : s.Reached hash)
    (ops : List LaterOp) (hagree : agreesAlong hash s.db s.db ops = true) :
    (runOps hash true s.db ops).1 = (runOps hash false s.db ops).1 ∧
    (runOps hash true s.db ops).2.connections = (runOps hash false s.db ops).2.connections := by
  have h := (Compacted.refl (dbInv_of_reached hs)).run hash ops hagree
  exact ⟨h.1.symm, h.2⟩

/-! ### Where it can be seen

One connection is authorised, closed and compacted. -/

def compactedOps : List LaterOp :=
  [.authorize "relay-1" sampleToken "conn-done" 100,
    .event "relay-1" sampleToken "10.0.0.1" ⟨"event-1", "conn-done", "closed"⟩ 200,
    .admin (.compact "relay-1" (thirtyDays + 201))]

theorem compaction_invisible_sample :
    Deliveries.Reached sampleHash ⟨sampleEnrolled, []⟩ ∧
    (runOps sampleHash true sampleEnrolled (compactedOps ++ compactedOps)).1
      = (runOps sampleHash false sampleEnrolled (compactedOps ++ compactedOps)).1 :=
  ⟨sampleEnrolled_reached, (compaction_invisible sampleHash sampleEnrolled_reached
    (compactedOps ++ compactedOps) (by decide)).1⟩

theorem runOps_append (hash : String → String) (b : Bool) (ops ops' : List LaterOp) (db : Db) :
    runOps hash b db (ops ++ ops') =
      ((runOps hash b db ops).1 ++ (runOps hash b (runOps hash b db ops).2 ops').1,
        (runOps hash b (runOps hash b db ops).2 ops').2) := by
  induction ops generalizing db with
  | nil => rfl
  | cons op ops ih => simp only [List.cons_append, runOps, ih]

theorem runOps_last (hash : String → String) (b : Bool) (ops : List LaterOp) (op : LaterOp)
    (db : Db) : (runOps hash b db (ops ++ [op])).1.getLast?
      = some (op.perform hash b (runOps hash b db ops).2).1 := by
  rw [runOps_append]
  exact List.getLast?_concat

def digit (n : Nat) : Char := Nat.digitChar (n % 10)

/-- `"conn-"` and five digits. -/
def fillUuid (n : Nat) : String :=
  String.ofList ['c', 'o', 'n', 'n', '-', digit (n / 10000), digit (n / 1000), digit (n / 100),
    digit (n / 10), digit n]

theorem digit_inj {m : Nat} (h : digit m = digit n) : m % 10 = n % 10 := by
  have hall : ∀ a b : Fin 10, Nat.digitChar a.val = Nat.digitChar b.val → a = b := by decide
  exact congrArg Fin.val (hall ⟨m % 10, Nat.mod_lt _ (by decide)⟩ ⟨n % 10, Nat.mod_lt _ (by decide)⟩ h)

theorem fillUuid_inj {m : Nat} (hm : m < 100000) (hn : n < 100000) (h : fillUuid m = fillUuid n) :
    m = n := by
  have hl := String.ofList_injective h
  simp only [List.cons.injEq, true_and, and_true] at hl
  obtain ⟨h4, h3, h2, h1, h0⟩ := hl
  have := digit_inj h4
  have := digit_inj h3
  have := digit_inj h2
  have := digit_inj h1
  have := digit_inj h0
  omega

theorem fillUuid_ne (n : Nat) (hu : u.toList.length ≠ 10) : u ≠ fillUuid n := by
  rintro rfl
  exact hu (by rw [fillUuid, String.toList_ofList]; rfl)

def fillOps (n : Nat) : List LaterOp :=
  (List.range n).map fun i => .authorize "relay-1" sampleToken (fillUuid i) 300

/-- What filling up with `n` further authorisations leaves. -/
structure Filled (db db' : Db) (n : Nat) : Prop where
  count : db'.authorizationCount "relay-1" = db.authorizationCount "relay-1" + n
  credentials : db'.credentials = db.credentials
  archive : db'.archive = db.archive
  others : ∀ u, (∀ i < n, u ≠ fillUuid i) → db'.authorizations.get? u = db.authorizations.get? u

theorem authorize_granted (hcred : db.credentials.get? "relay-1" = some sampleCredential)
    (hroom : db.authorizationCount "relay-1" < authorizationLimit)
    (harch : db.archive.get? u = none) (hauth : db.authorizations.get? u = none) (now : Nat) :
    db.authorizeRelay sampleHash "relay-1" sampleToken u now = (.authorized, { db with
      authorizations := db.authorizations.insert ⟨u, "relay-1", "gen-1", .permitted, now⟩ }) := by
  have hmatch : sampleCredential.matches sampleHash sampleToken = true := by decide
  unfold Db.authorizeRelay
  simp only [hcred, hmatch, if_true]
  unfold Db.authorizeInsert
  rw [if_pos ⟨hroom, by simp [hcred], harch, hauth⟩]
  rfl

theorem fill_filled (hcred : db.credentials.get? "relay-1" = some sampleCredential)
    (hnew : ∀ i, db.archive.get? (fillUuid i) = none ∧ db.authorizations.get? (fillUuid i) = none)
    (b : Bool) : ∀ n, n ≤ 100000 → db.authorizationCount "relay-1" + n ≤ authorizationLimit →
    Filled db (runOps sampleHash b db (fillOps n)).2 n
  | 0, _, _ => ⟨rfl, rfl, rfl, fun _ _ => rfl⟩
  | n + 1, hn, hroom => by
    have ih := fill_filled hcred hnew b n (by omega) (by omega)
    have hauth := ih.others (fillUuid n) fun i hi he => by
      have := fillUuid_inj (by omega) (by omega) he
      omega
    have hstep := authorize_granted (by rw [ih.credentials, hcred])
      (by rw [ih.count]; omega) (by rw [ih.archive]; exact (hnew n).1)
      (by rw [hauth]; exact (hnew n).2) 300
    have hnone : (runOps sampleHash b db (fillOps n)).2.authorizations.get? (fillUuid n) = none := by
      rw [hauth]; exact (hnew n).2
    have hrun : (runOps sampleHash b db (fillOps (n + 1))).2
        = ((runOps sampleHash b db (fillOps n)).2.authorizeRelay sampleHash "relay-1" sampleToken
          (fillUuid n) 300).2 := by
      unfold fillOps
      rw [List.range_succ, List.map_append, runOps_append]
      rfl
    rw [hrun, hstep]
    refine ⟨?_, ih.credentials, ih.archive, fun u hu => ?_⟩
    · have hone := count_insert (r := ⟨fillUuid n, "relay-1", "gen-1", .permitted, 300⟩) hnone
        (fun a : Authorization => a.relayId = "relay-1")
      exact hone.trans (by rw [← Nat.add_assoc, ← ih.count]; rfl)
    · have hne := hu n (by omega)
      show get? (Table.insert _ _) u = _
      rw [get?_insert hnone, if_neg (fun he => hne he.symm)]
      exact ih.others u fun i hi => hu i (by omega)

/-- The event id of the compacted connection comes back for another one. -/
def reuseOps : List LaterOp :=
  compactedOps ++ [.authorize "relay-1" sampleToken "conn-next" 300,
    .event "relay-1" sampleToken "10.0.0.1" ⟨"event-1", "conn-next", "active"⟩ 400]

/-- `n` authorisations after the compacted one, and one more. -/
def capacityOps (n : Nat) : List LaterOp :=
  compactedOps ++ fillOps n ++ [.authorize "relay-1" sampleToken "conn-next" 400]

theorem compactedOps_filled (b : Bool) (hn : n ≤ 99999) :
    Filled (runOps sampleHash b sampleEnrolled compactedOps).2
      (runOps sampleHash b sampleEnrolled (compactedOps ++ fillOps n)).2 n := by
  rw [runOps_append]
  have hcount : (runOps sampleHash b sampleEnrolled compactedOps).2.authorizationCount "relay-1"
      ≤ 1 := by cases b <;> decide
  refine fill_filled (by cases b <;> decide) (fun i => ⟨?_, ?_⟩) b n (by omega) ?_
  · refine get?_eq_none.mpr fun e he => fillUuid_ne i ?_
    revert e
    cases b <;> decide
  · refine get?_eq_none.mpr fun a ha => fillUuid_ne i ?_
    revert a
    cases b <;> decide
  · unfold authorizationLimit
    omega

theorem capacity_uncompacted (hn : n = 99999) :
    (runOps sampleHash false sampleEnrolled (capacityOps n)).1.getLast? = some (some .rejected) := by
  have hf := compactedOps_filled false (Nat.le_of_eq hn)
  rw [capacityOps, runOps_last]
  generalize (runOps sampleHash false sampleEnrolled (compactedOps ++ fillOps n)).2 = db at hf
  have hfull : ¬ db.authorizationCount "relay-1" < authorizationLimit := by
    rw [hf.count, hn]
    decide
  have hcred : db.credentials.get? "relay-1" = some sampleCredential := by
    rw [hf.credentials]
    decide
  have hmatch : sampleCredential.matches sampleHash sampleToken = true := by decide
  simp only [LaterOp.perform, Db.authorizeRelay, hcred, hmatch, if_true, Db.authorizeInsert]
  rw [if_neg (fun h => hfull h.1)]
  rfl

theorem capacity_compacted (hn : n = 99999) :
    (runOps sampleHash true sampleEnrolled (capacityOps n)).1.getLast? = some (some .granted) := by
  have hf := compactedOps_filled true (Nat.le_of_eq hn)
  have hstep := authorize_granted (u := "conn-next") (by rw [hf.credentials]; decide)
    (by rw [hf.count, hn]; decide) (by rw [hf.archive]; decide)
    (by rw [hf.others _ fun i _ => fillUuid_ne i (by decide)]; decide) 400
  rw [capacityOps, runOps_last]
  simp only [LaterOp.perform, hstep]
  rfl

/-- Compaction shows in two ways: the room it makes is used, and an event id recorded for
a compacted UUID is accepted for another one. -/
theorem compaction_visible :
    ((runOps sampleHash false sampleEnrolled (capacityOps 99999)).1.getLast?
        = some (some .rejected) ∧
      (runOps sampleHash true sampleEnrolled (capacityOps 99999)).1.getLast?
        = some (some .granted)) ∧
    ((runOps sampleHash false sampleEnrolled reuseOps).1.getLast? = some (some .rejected) ∧
      (runOps sampleHash true sampleEnrolled reuseOps).1.getLast? = some (some .acknowledged)) :=
  ⟨⟨capacity_uncompacted rfl, capacity_compacted rfl⟩, by decide, by decide⟩

end RemoteControl.Api
