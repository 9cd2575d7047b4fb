import RemoteControl.Api.DeliverySystem

/-!
# What the delivery store never takes back

Two facts are carried together through every statement: `DbInv`, how the three
delivery tables fit each other, and `Evolves`, the order in which a database's
history only grows. Only three changes touch the delivery tables at all: a UUID
is authorised, a receipt is committed, an old entry is compacted. Everything else
is covered by one frame lemma.
-/

namespace RemoteControl.Api

open Lib Table Option

variable {a : Authorization} {c : Call} {next : Call ⊕ Answer} {db db' : Db} {s t : Deliveries}
  {l : Label} {st : Lifecycle} {ls : List Label} {m : Message} {now : Nat} {r : Receipt}
  {address token uuid : String} {hash : String → String} {connections : Table ConnectionRecord.key}

/-! ## The history of a database -/

/-- Relay and credential generation a UUID was authorised for. -/
def Db.owner (uuid : String) (db : Db) : Option (String × String) :=
  match db.authorizations.get? uuid with
  | some a => some (a.relayId, a.generation)
  | none => (db.archive.get? uuid).map fun e => (e.relayId, e.generation)

/-- How far the connection got; only closed ones are archived. -/
def Db.stateOf (uuid : String) (db : Db) : Option RelayState :=
  match db.authorizations.get? uuid with
  | some a => some a.state
  | none => (db.archive.get? uuid).map fun _ => .closed

def ArchiveEntry.eventId? (e : ArchiveEntry) : Lifecycle → Option String
  | .active => if e.activeEventId = "" then none else some e.activeEventId
  | .closed => some e.closedEventId

/-- The event received for a status of a UUID. -/
def Db.recorded (uuid : String) (st : Lifecycle) (db : Db) : Option String :=
  match db.receiptFor uuid st with
  | some r => some r.eventId
  | none => (db.archive.get? uuid).bind fun e => e.eventId? st

def RelayState.rank : RelayState → Nat
  | .permitted => 0
  | .active => 1
  | .closed => 2

structure Evolves (db db' : Db) : Prop where
  owner : ∀ uuid o, db.owner uuid = some o → db'.owner uuid = some o
  state : ∀ uuid x, db.stateOf uuid = some x → ∃ y, db'.stateOf uuid = some y ∧ x.rank ≤ y.rank
  recorded : ∀ uuid st e, db.recorded uuid st = some e → db'.recorded uuid st = some e
  closed : ∀ k c, db.connections.get? k = some c → c.closedAt.isSome = true →
    ∃ c', db'.connections.get? k = some c' ∧ c'.closedAt.isSome = true

theorem Evolves.refl (db : Db) : Evolves db db :=
  ⟨fun _ _ h => h, fun _ x h => ⟨x, h, Nat.le_refl _⟩, fun _ _ _ h => h, fun _ c h hc => ⟨c, h, hc⟩⟩

theorem Evolves.trans {a b c : Db} (h : Evolves a b) (h' : Evolves b c) : Evolves a c where
  owner u o ho := h'.owner u o (h.owner u o ho)
  state u x hx := by
    obtain ⟨y, hy, hxy⟩ := h.state u x hx
    obtain ⟨z, hz, hyz⟩ := h'.state u y hy
    exact ⟨z, hz, Nat.le_trans hxy hyz⟩
  recorded u st e he := h'.recorded u st e (h.recorded u st e he)
  closed k c hc hs := by
    obtain ⟨c', hc', hs'⟩ := h.closed k c hc hs
    exact h'.closed k c' hc' hs'

/-! ## How the tables fit -/

structure DbInv (db : Db) : Prop where
  index : ∀ r ∈ db.receipts.rows, ∀ r' ∈ db.receipts.rows,
    r.uuid = r'.uuid → r.state = r'.state → r = r'
  exclusive : ∀ uuid a, db.authorizations.get? uuid = some a → db.archive.get? uuid = none
  receipted : ∀ r ∈ db.receipts.rows, r.eventId ≠ "" ∧
    ∃ a, db.authorizations.get? r.uuid = some a ∧ a.relayId = r.relayId ∧ a.generation = r.generation
  closed : ∀ uuid a, db.authorizations.get? uuid = some a →
    (a.state = .closed ↔ (db.receiptFor uuid .closed).isSome = true)

theorem dbInv_empty : DbInv .empty where
  index _ h := by cases h
  exclusive _ _ h := by cases h
  receipted _ h := by cases h
  closed _ _ h := by cases h

theorem receiptFor_some (h : db.receiptFor uuid st = some r) :
    r ∈ db.receipts.rows ∧ r.uuid = uuid ∧ r.state = st := by
  refine ⟨List.mem_of_find?_eq_some h, ?_⟩
  simpa using List.find?_some h

theorem receiptFor_none (h : db.receiptFor uuid st = none) (hr : r ∈ db.receipts.rows)
    (hu : r.uuid = uuid) : r.state ≠ st := by
  intro hs
  have := List.find?_eq_none.mp h r hr
  simp [hu, hs] at this

theorem DbInv.receiptFor_of_mem (hi : DbInv db) (hr : r ∈ db.receipts.rows) :
    db.receiptFor r.uuid r.state = some r := by
  cases h : db.receiptFor r.uuid r.state with
  | none => exact absurd rfl (receiptFor_none h hr rfl)
  | some r' =>
    obtain ⟨hr', hu, hs⟩ := receiptFor_some h
    rw [hi.index r' hr' r hr hu hs]

/-- A UUID without authorisation has no receipts. -/
theorem DbInv.receiptFor_unauthorized (hi : DbInv db) (h : db.authorizations.get? uuid = none)
    (st : Lifecycle) : db.receiptFor uuid st = none := by
  cases hr : db.receiptFor uuid st with
  | none => rfl
  | some r =>
    obtain ⟨hmem, rfl, -⟩ := receiptFor_some hr
    obtain ⟨-, a, ha, -⟩ := hi.receipted r hmem
    rw [h] at ha
    cases ha

/-! ## The frame -/

/-- The delivery tables are untouched and no connection is reopened. -/
structure SameDelivery (db db' : Db) : Prop where
  authorizations : db'.authorizations = db.authorizations
  receipts : db'.receipts = db.receipts
  archive : db'.archive = db.archive
  closed : ∀ k c, db.connections.get? k = some c → c.closedAt.isSome = true →
    ∃ c', db'.connections.get? k = some c' ∧ c'.closedAt.isSome = true

theorem SameDelivery.receiptFor (h : SameDelivery db db') (uuid : String) (st : Lifecycle) :
    db'.receiptFor uuid st = db.receiptFor uuid st := by
  unfold Db.receiptFor
  rw [h.receipts]

theorem SameDelivery.inv (h : SameDelivery db db') (hi : DbInv db) : DbInv db' where
  index := by rw [h.receipts]; exact hi.index
  exclusive := by rw [h.authorizations, h.archive]; exact hi.exclusive
  receipted := by rw [h.authorizations, h.receipts]; exact hi.receipted
  closed uuid a ha := by
    rw [h.authorizations] at ha
    rw [h.receiptFor]
    exact hi.closed uuid a ha

theorem SameDelivery.evolves (h : SameDelivery db db') : Evolves db db' where
  owner uuid o ho := by unfold Db.owner at ho ⊢; rwa [h.authorizations, h.archive]
  state uuid x hx := by
    refine ⟨x, ?_, Nat.le_refl _⟩
    unfold Db.stateOf at hx ⊢
    rwa [h.authorizations, h.archive]
  recorded uuid st e he := by unfold Db.recorded at he ⊢; rwa [h.receiptFor, h.archive]
  closed := h.closed

theorem sameDelivery_of_connections (ha : db'.authorizations = db.authorizations)
    (hr : db'.receipts = db.receipts) (hv : db'.archive = db.archive)
    (hc : db'.connections = db.connections) : SameDelivery db db' :=
  ⟨ha, hr, hv, fun _ c h hs => ⟨c, by rw [hc]; exact h, hs⟩⟩

theorem upsertConnection_same (v : ConnectionRecord) (db : Db) :
    SameDelivery db (db.upsertConnection v) := by
  unfold Db.upsertConnection
  split
  · next hnone =>
    exact ⟨rfl, rfl, rfl, fun k c hc hs => ⟨c, get?_insert_of_some hnone hc, hs⟩⟩
  · refine ⟨rfl, rfl, rfl, fun k c hc hs => ?_⟩
    refine get?_updateWhere_keeps (P := fun c => c.closedAt.isSome = true)
      ?_ (fun r hr => ?_) hc hs
    · intro _; rfl
    -- a record keeps its own closing time unless the writer brings one
    by_cases hv : v.closedAt.isSome = true
    · simp [hv]
    · simpa [hv] using hr

/-! ## The three changes -/

theorem get?_setState (t : Table Authorization.uuid) (uuid k : String) (x : RelayState) :
    (t.updateWhere (fun a => a.uuid = uuid) fun a => { a with state := x }).get? k
      = (t.get? k).map fun a => if k = uuid then { a with state := x } else a := by
  rw [get?_updateWhere]
  cases h : t.get? k with
  | none => rfl
  | some a =>
    have hk := get?_key h
    simp only [map_some, decide_eq_true_eq, hk]

theorem receiptFor_insert (h : db.receipts.get? r.key = none)
    (connections : Table ConnectionRecord.key) (authorizations : Table Authorization.uuid)
    (uuid : String) (st : Lifecycle) :
    Db.receiptFor uuid st { db with
        receipts := db.receipts.insert r
        connections := connections
        authorizations := authorizations }
      = (db.receiptFor uuid st).or (if r.uuid = uuid ∧ r.state = st then some r else none) := by
  unfold Db.receiptFor
  simp only [rows_insert h, List.find?_append, List.find?_singleton, Bool.and_eq_true,
    decide_eq_true_eq]

theorem receiptFor_deleteWhere (archive : Table ArchiveEntry.uuid)
    (authorizations : Table Authorization.uuid) (uuid u : String) (st : Lifecycle) :
    Db.receiptFor u st { db with
        archive := archive
        receipts := db.receipts.deleteWhere fun r => r.uuid = uuid
        authorizations := authorizations }
      = if u = uuid then none else db.receiptFor u st := by
  unfold Db.receiptFor
  simp only [Table.deleteWhere, List.find?_filter]
  split
  · next hu =>
    subst hu
    rw [List.find?_eq_none]
    intro r _
    by_cases hr : r.uuid = u
    · simp [hr]
    · simp [hr]
  · next hu =>
    congr 1
    funext r
    by_cases hr : r.uuid = u
    · simp [hr, hu]
    · simp [hr]

/-! ### A UUID is authorised -/

theorem authorizeInsert_cases (id uuid : String) (c : Credential) (now : Nat) (db : Db) :
    db.authorizeInsert id uuid c now = (.reusedOrExhausted, db) ∨
    db.authorizations.get? uuid = none ∧ db.archive.get? uuid = none ∧
      db.authorizeInsert id uuid c now = (.authorized, { db with
        authorizations := db.authorizations.insert ⟨uuid, id, c.generation, .permitted, now⟩ }) := by
  unfold Db.authorizeInsert
  split
  · next h => exact .inr ⟨h.2.2.2, h.2.2.1, rfl⟩
  · exact .inl rfl

section Authorized

theorem authorized_inv (hi : DbInv db) (hn : db.authorizations.get? a.uuid = none)
    (hv : db.archive.get? a.uuid = none) (hp : a.state = .permitted) :
    DbInv { db with authorizations := db.authorizations.insert a } where
  index := hi.index
  exclusive uuid b hb := by
    rw [get?_insert hn] at hb
    split at hb
    · next h => rw [← h]; exact hv
    · exact hi.exclusive uuid b hb
  receipted r hr := by
    obtain ⟨he, b, hb, h⟩ := hi.receipted r hr
    exact ⟨he, b, get?_insert_of_some hn hb, h⟩
  closed uuid b hb := by
    rw [get?_insert hn] at hb
    split at hb
    · next h =>
      subst h
      cases hb
      show a.state = .closed ↔ (db.receiptFor a.uuid .closed).isSome = true
      rw [hi.receiptFor_unauthorized hn, hp]
      constructor <;> (intro h; cases h)
    · exact hi.closed uuid b hb

theorem authorized_evolves (hn : db.authorizations.get? a.uuid = none)
    (hv : db.archive.get? a.uuid = none) :
    Evolves db { db with authorizations := db.authorizations.insert a } := by
  have hother : ∀ uuid, uuid ≠ a.uuid →
      (db.authorizations.insert a).get? uuid = db.authorizations.get? uuid := by
    intro uuid hne
    rw [get?_insert hn, if_neg (fun h => hne h.symm)]
  refine ⟨fun uuid o ho => ?_, fun uuid x hx => ⟨x, ?_, Nat.le_refl _⟩, fun _ _ _ h => h,
    fun _ c h hs => ⟨c, h, hs⟩⟩
  · have hne : uuid ≠ a.uuid := by
      rintro rfl
      simp [Db.owner, hn, hv] at ho
    unfold Db.owner at ho ⊢
    simp only [hother uuid hne]
    exact ho
  · have hne : uuid ≠ a.uuid := by
      rintro rfl
      simp [Db.stateOf, hn, hv] at hx
    unfold Db.stateOf at hx ⊢
    simp only [hother uuid hne]
    exact hx

end Authorized

/-! ### A receipt is committed -/

/-- The one branch of the transaction that writes. -/
structure Receives (hash : String → String) (id token address : String) (m : Message)
    (st : Lifecycle) (now : Nat) (db db' : Db) (a : Authorization)
    (connections : Table ConnectionRecord.key) : Prop where
  found : db.authorizations.get? m.uuid = some a
  relay : a.relayId = id
  current : db.currentGeneration hash id token = some a.generation
  fresh : db.receipts.get? (id, m.requestId) = none
  first : db.receiptFor m.uuid st = none
  forward : a.state = .closed → st = .closed
  projected : db.projectConnection m.uuid address st now = some connections
  result : db' = db.commitReceipt id m a st now connections

theorem txPlan_receives {id : String}
    (h : db.txPlan hash id token address m st now = some (.inr (a, connections))) :
    Receives hash id token address m st now db (db.commitReceipt id m a st now connections)
      a connections := by
  revert h
  fun_cases Db.txPlan with
  | case8 a' ha howner hfresh hfirst hforward connections' hproj =>
    intro h
    cases h
    simp only [ne_eq, not_or, not_not] at howner
    exact ⟨ha, howner.1, howner.2, hfresh, by simpa using hfirst,
      fun hc => not_not.mp fun hne => hforward ⟨hc, hne⟩, hproj, rfl⟩
  | _ => exact nofun

/-- **What the transaction can do**: nothing, or commit one new receipt. -/
theorem applyTx_cases {id : String} {answer : Answer}
    (h : db.applyTx hash id token address m st now = some (answer, db')) :
    db' = db ∨ answer = .acknowledged ∧
      ∃ a connections, Receives hash id token address m st now db db' a connections := by
  obtain ⟨plan, hp, h⟩ := map_eq_some_iff.mp h
  rcases plan with ans | ⟨a, connections⟩
  · cases h; exact .inl rfl
  · cases h; exact .inr ⟨rfl, a, connections, txPlan_receives hp⟩

theorem projectConnection_closed (h : db.projectConnection uuid address st now = some connections)
    {k : String} {c : ConnectionRecord} (hc : db.connections.get? k = some c)
    (hs : c.closedAt.isSome = true) :
    ∃ c', connections.get? k = some c' ∧ c'.closedAt.isSome = true := by
  revert h
  fun_cases Db.projectConnection with
  | case1 _ hnone =>
    intro h
    cases h
    exact ⟨c, get?_insert_of_some hnone hc, hs⟩
  | case2 =>
    intro h
    cases h
    refine get?_updateWhere_keeps (P := fun c => c.closedAt.isSome = true) ?_ (fun r hr => ?_) hc hs
    simp only [isSome_or, hr, Bool.true_or]
  | case3 => exact nofun

section Received

variable {id : String} (h : Receives hash id token address m st now db db' a connections)

include h

theorem Receives.receiptFor (uuid : String) (x : Lifecycle) :
    db'.receiptFor uuid x = (db.receiptFor uuid x).or
      (if m.uuid = uuid ∧ st = x then some ⟨id, m.requestId, m.uuid, a.generation, st, now⟩
        else none) := by
  rw [h.result]
  exact receiptFor_insert (r := ⟨id, m.requestId, m.uuid, a.generation, st, now⟩) h.fresh _ _ _ _

theorem Receives.authorization (uuid : String) :
    db'.authorizations.get? uuid = (db.authorizations.get? uuid).map fun a =>
      if uuid = m.uuid then { a with state := st.toState } else a := by
  rw [h.result]
  exact get?_setState ..

theorem Receives.archive : db'.archive = db.archive := by rw [h.result]; rfl

theorem Receives.mem_receipts (hr : r ∈ db'.receipts.rows) :
    r ∈ db.receipts.rows ∨ r = ⟨id, m.requestId, m.uuid, a.generation, st, now⟩ := by
  rw [h.result] at hr
  exact mem_insert hr

theorem Receives.inv (hi : DbInv db) (hid : m.requestId ≠ "") : DbInv db' where
  index r hr r' hr' hu hs := by
    -- no row of the old table has the uuid and state of the new one
    rcases h.mem_receipts hr with hr | rfl <;> rcases h.mem_receipts hr' with hr' | rfl
    · exact hi.index r hr r' hr' hu hs
    · exact absurd hs (receiptFor_none h.first hr hu)
    · exact absurd hs.symm (receiptFor_none h.first hr' hu.symm)
    · rfl
  exclusive uuid b hb := by
    rw [h.authorization] at hb
    obtain ⟨b₀, hb₀, -⟩ := map_eq_some_iff.mp hb
    rw [h.archive]
    exact hi.exclusive uuid b₀ hb₀
  receipted r hr := by
    rcases h.mem_receipts hr with hr | rfl
    · obtain ⟨he, b, hb, hrel, hgen⟩ := hi.receipted r hr
      refine ⟨he, _, by rw [h.authorization, hb]; rfl, ?_, ?_⟩ <;> dsimp only <;> split <;> assumption
    · refine ⟨hid, _, by rw [h.authorization, h.found]; rfl, ?_, ?_⟩
      · simp [h.relay]
      · simp
  closed uuid b hb := by
    rw [h.authorization] at hb
    obtain ⟨b₀, hb₀, hb⟩ := map_eq_some_iff.mp hb
    rw [h.receiptFor]
    have hold := hi.closed uuid b₀ hb₀
    by_cases hu : uuid = m.uuid
    · subst hu
      rw [h.found] at hb₀
      cases hb₀
      rw [if_pos rfl] at hb
      subst hb
      cases st with
      | closed => simp [Lifecycle.toState]
      | active =>
        have hopen : a.state ≠ .closed := fun hc => by cases h.forward hc
        have hnone : (db.receiptFor m.uuid .closed).isSome = false := by
          rw [Bool.eq_false_iff]
          exact fun hs => hopen (hold.mpr hs)
        simp [Lifecycle.toState, hnone]
    · rw [if_neg hu] at hb
      subst hb
      rw [if_neg (fun hx => hu hx.1.symm), or_none]
      exact hold

theorem Receives.evolves (hi : DbInv db) : Evolves db db' where
  owner uuid o ho := by
    unfold Db.owner at ho ⊢
    rw [h.authorization, h.archive]
    cases hb : db.authorizations.get? uuid with
    | none => rw [hb] at ho; exact ho
    | some b =>
      rw [hb] at ho
      cases ho
      simp only [map_some]
      split <;> rfl
  state uuid x hx := by
    unfold Db.stateOf at hx ⊢
    rw [h.authorization, h.archive]
    cases hb : db.authorizations.get? uuid with
    | none => rw [hb] at hx; exact ⟨x, hx, Nat.le_refl _⟩
    | some b =>
      rw [hb] at hx
      cases hx
      by_cases hu : uuid = m.uuid
      · -- the only move: forward to the reported status
        subst hu
        rw [h.found] at hb
        cases hb
        refine ⟨st.toState, by simp, ?_⟩
        cases hst : a.state with
        | permitted => exact Nat.zero_le _
        | active => cases st <;> decide
        | closed => rw [h.forward hst]; decide
      · exact ⟨b.state, by simp [hu], Nat.le_refl _⟩
  recorded uuid x e he := by
    unfold Db.recorded at he ⊢
    rw [h.receiptFor, h.archive]
    cases hr : db.receiptFor uuid x with
    | some r => rw [hr] at he; exact he
    | none =>
      rw [hr] at he
      have hne : ¬ (m.uuid = uuid ∧ st = x) := by
        rintro ⟨rfl, -⟩
        rw [hi.exclusive _ _ h.found] at he
        cases he
      rw [if_neg hne]
      exact he
  closed k c hc hs := by
    rw [h.result]
    exact projectConnection_closed h.projected hc hs

end Received

/-! ### An entry is compacted -/

/-- The one branch of the loop that writes. -/
structure Compacts (uuid : String) (now : Nat) (db db' : Db) (a : Authorization)
    (closed : Receipt) : Prop where
  found : db.authorizations.get? uuid = some a
  state : a.state = .closed
  receipt : db.receiptFor uuid .closed = some closed
  result : db' = { db with
    archive := db.archive.insert ⟨uuid, a.relayId, a.generation,
      ((db.receiptFor uuid .active).map Receipt.eventId).getD "", closed.eventId, now⟩
    receipts := db.receipts.deleteWhere fun r => r.uuid = uuid
    authorizations := db.authorizations.deleteWhere fun a => a.uuid = uuid }

theorem compactOne_cases {id : String} (h : db.compactOne id uuid now = some db') :
    db' = db ∨ ∃ a closed, a.relayId = id ∧ Compacts uuid now db db' a closed := by
  revert h
  fun_cases Db.compactOne with
  | case1 | case2 => exact fun h => .inl (Option.some.inj h).symm
  | case5 a ha hown closed hc =>
    intro h
    cases h
    simp only [ne_eq, not_or, not_not] at hown
    exact .inr ⟨a, closed, hown.1, ha, hown.2, hc, rfl⟩
  | _ => exact nofun

section Compacted

variable {closed : Receipt} (h : Compacts uuid now db db' a closed)

include h

theorem Compacts.receiptFor (u : String) (x : Lifecycle) :
    db'.receiptFor u x = if u = uuid then none else db.receiptFor u x := by
  rw [h.result]
  exact receiptFor_deleteWhere ..

theorem Compacts.authorization (u : String) :
    db'.authorizations.get? u = if u = uuid then none else db.authorizations.get? u := by
  rw [h.result]
  refine (get?_remove db.authorizations uuid u).trans ?_
  simp only [eq_comm]

theorem Compacts.archive (hi : DbInv db) (u : String) :
    db'.archive.get? u = if uuid = u then some ⟨uuid, a.relayId, a.generation,
      ((db.receiptFor uuid .active).map Receipt.eventId).getD "", closed.eventId, now⟩
      else db.archive.get? u := by
  rw [h.result]
  exact get?_insert (hi.exclusive uuid a h.found) u

theorem Compacts.inv (hi : DbInv db) : DbInv db' where
  index r hr r' hr' := by
    have hsub : ∀ x ∈ db'.receipts.rows, x ∈ db.receipts.rows := by
      rw [h.result]
      exact fun x hx => (List.mem_filter.mp hx).1
    exact hi.index r (hsub r hr) r' (hsub r' hr')
  exclusive u b hb := by
    rw [h.authorization] at hb
    split at hb
    · cases hb
    · next hu =>
      rw [h.archive hi, if_neg (fun he => hu he.symm)]
      exact hi.exclusive u b hb
  receipted r hr := by
    rw [h.result] at hr
    obtain ⟨hmem, hne⟩ := List.mem_filter.mp hr
    obtain ⟨he, b, hb, hrest⟩ := hi.receipted r hmem
    refine ⟨he, b, ?_, hrest⟩
    rw [h.authorization, if_neg (by simpa using hne)]
    exact hb
  closed u b hb := by
    rw [h.authorization] at hb
    split at hb
    · cases hb
    · next hu =>
      rw [h.receiptFor, if_neg hu]
      exact hi.closed u b hb

theorem Compacts.evolves (hi : DbInv db) : Evolves db db' where
  owner u o ho := by
    unfold Db.owner at ho ⊢
    rw [h.authorization, h.archive hi]
    by_cases hu : u = uuid
    · subst hu
      rw [h.found] at ho
      cases ho
      simp
    · rw [if_neg hu, if_neg (fun he => hu he.symm)]
      exact ho
  state u x hx := by
    refine ⟨x, ?_, Nat.le_refl _⟩
    unfold Db.stateOf at hx ⊢
    rw [h.authorization, h.archive hi]
    by_cases hu : u = uuid
    · subst hu
      rw [h.found] at hx
      cases hx
      simp [h.state]
    · rw [if_neg hu, if_neg (fun he => hu he.symm)]
      exact hx
  recorded u st e he := by
    unfold Db.recorded at he ⊢
    rw [h.receiptFor, h.archive hi]
    by_cases hu : u = uuid
    · -- the receipts of the UUID are now the event ids of its archive row
      subst hu
      rw [hi.exclusive _ _ h.found] at he
      rw [if_pos rfl, if_pos rfl]
      cases st with
      | closed =>
        rw [h.receipt] at he
        cases he
        rfl
      | active =>
        cases hr : db.receiptFor u .active with
        | none => rw [hr] at he; cases he
        | some r =>
          rw [hr] at he
          cases he
          have hne := (hi.receipted r (receiptFor_some hr).1).1
          simp [ArchiveEntry.eventId?, hne]
    · rw [if_neg hu, if_neg (fun he => hu he.symm)]
      exact he
  closed k c hc hs := by
    rw [h.result]
    exact ⟨c, hc, hs⟩

end Compacted

theorem compactAll_inv {id : String} : ∀ {uuids : List String} {db db' : Db},
    DbInv db → Db.compactAll id now uuids db = some db' → DbInv db' ∧ Evolves db db'
  | [], db, db', hi, h => by cases h; exact ⟨hi, .refl _⟩
  | uuid :: uuids, db, db', hi, h => by
    obtain ⟨db₁, h₁, hrest⟩ := bind_eq_some_iff.mp h
    rcases compactOne_cases h₁ with rfl | ⟨a, closed, -, hc⟩
    · exact compactAll_inv hi hrest
    · obtain ⟨hi', he⟩ := compactAll_inv (hc.inv hi) hrest
      exact ⟨hi', (hc.evolves hi).trans he⟩

theorem compactRelayDelivery_inv {id : String} (hi : DbInv db) :
    DbInv (db.compactRelayDelivery id now) ∧ Evolves db (db.compactRelayDelivery id now) := by
  unfold Db.compactRelayDelivery
  cases h : Db.compactAll id now (db.compactable id now) db with
  | none => exact ⟨hi, .refl db⟩
  | some db' => exact compactAll_inv hi h

/-! ## Every step -/

def AdminOp.compacts : AdminOp → Bool
  | .compact _ _ => true
  | _ => false

/-- Every operation but the compaction leaves the delivery tables alone. -/
theorem admin_frame {op : AdminOp} (hop : op.compacts = false) (db : Db) :
    SameDelivery db (op.perform db) := by
  cases op with
  | compact => cases hop
  | putEnrollment id enrollmentHash expires generation =>
    simp only [AdminOp.perform, Db.putRelayEnrollment]
    split
    · exact sameDelivery_of_connections rfl rfl rfl rfl
    · split <;> exact sameDelivery_of_connections rfl rfl rfl rfl
  | consumeEnrollment id enrollmentHash tokenHash now =>
    simp only [AdminOp.perform, Db.consumeRelayEnrollment]
    split <;> exact sameDelivery_of_connections rfl rfl rfl rfl
  | revokeCredential | createRelay | setRelayEnabled =>
    exact sameDelivery_of_connections rfl rfl rfl rfl
  | upsertConnection v => exact upsertConnection_same v db

theorem admin_inv (op : AdminOp) (hi : DbInv db) :
    DbInv (op.perform db) ∧ Evolves db (op.perform db) := by
  cases hop : op.compacts with
  | false => exact ⟨(admin_frame hop db).inv hi, (admin_frame hop db).evolves⟩
  | true =>
    cases op with
    | compact id now => exact compactRelayDelivery_inv hi
    | _ => cases hop

theorem lifecycle?_requestId (h : m.lifecycle? = some st) : m.requestId ≠ "" := by
  unfold Message.lifecycle? at h
  split at h
  · cases h
  · next hn => exact fun he => hn (.inl he)

/-- **What one statement of a call can do** to the database: nothing, authorise a
UUID, or commit a receipt. -/
theorem advance_cases (h : c.advance hash now db = (db', next)) :
    db' = db ∨
    (∃ id uuid k, c = .authorizeInsert id uuid k ∧ next = .inr .authorized ∧
      db.authorizations.get? uuid = none ∧ db.archive.get? uuid = none ∧
      db' = { db with
        authorizations := db.authorizations.insert ⟨uuid, id, k.generation, .permitted, now⟩ }) ∨
    (∃ id token address m st a connections, c = .event id token address m ∧
      next = .inr .acknowledged ∧ m.lifecycle? = some st ∧
      Receives hash id token address m st now db db' a connections) := by
  revert h
  fun_cases Call.advance with
  | case4 id uuid k r =>
    intro h
    rcases authorizeInsert_cases id uuid k now db with he | ⟨hn, hv, he⟩
    · rw [show r = _ from he] at h
      cases h
      exact .inl rfl
    · rw [show r = _ from he] at h
      cases h
      exact .inr (.inl ⟨id, uuid, k, rfl, rfl, hn, hv, rfl⟩)
  | case6 id token address m st hst r hr =>
    intro h
    cases h
    rcases applyTx_cases hr with he | ⟨hack, a, connections, hrec⟩
    · exact .inl he
    · exact .inr (.inr ⟨id, token, address, m, st, a, connections, rfl, by rw [hack], hst, hrec⟩)
  | _ => exact fun h => .inl (Prod.mk.inj h).1.symm

theorem advance_inv (hi : DbInv db) (h : c.advance hash now db = (db', next)) :
    DbInv db' ∧ Evolves db db' := by
  rcases advance_cases h with rfl | ⟨id, uuid, k, -, -, hn, hv, rfl⟩
    | ⟨id, token, address, m, st, a, connections, -, -, hst, hrec⟩
  · exact ⟨hi, .refl _⟩
  · exact ⟨authorized_inv hi hn hv rfl, authorized_evolves hn hv⟩
  · exact ⟨hrec.inv hi (lifecycle?_requestId hst), hrec.evolves hi⟩

theorem step_inv (hi : DbInv s.db) (h : Step hash s l t) : DbInv t.db ∧ Evolves s.db t.db := by
  cases h with
  | begin | drop => exact ⟨hi, .refl _⟩
  | progress _ _ ha => exact advance_inv hi ha
  | finish _ _ ha => exact advance_inv hi ha
  | admin op => exact admin_inv op hi

theorem dbInv_of_reached (h : s.Reached hash) : DbInv s.db :=
  h.invariant (I := fun s => DbInv s.db) (fun s hs => by rw [hs]; exact dbInv_empty)
    (fun _ _ _ hi hst => (step_inv hi hst).1)

theorem run_evolves (hi : DbInv s.db) (h : Run (Step hash) s ls t) : Evolves s.db t.db :=
  (h.invariant (I := fun t => DbInv t.db ∧ Evolves s.db t.db)
    (fun _ _ _ ih hst => ⟨(step_inv ih.1 hst).1, ih.2.trans (step_inv ih.1 hst).2⟩)
    ⟨hi, .refl _⟩).2

/-! ## The guarantees -/

theorem owner_authorized (hn : db.authorizations.get? a.uuid = none) :
    Db.owner a.uuid { db with authorizations := db.authorizations.insert a }
      = some (a.relayId, a.generation) := by
  simp [Db.owner, get?_insert hn]

theorem authorizes_step (h : Step hash s l t) (hl : l.authorizes uuid = true) :
    s.db.owner uuid = none ∧ (t.db.owner uuid).isSome = true := by
  cases h with
  | @finish c answer db' now hc ha =>
    cases c with
    | authorizeInsert id u k =>
      cases answer with
      | authorized =>
        obtain rfl : u = uuid := by simpa [Label.authorizes] using hl
        simp only [Call.advance] at ha
        rcases authorizeInsert_cases id u k now s.db with he | ⟨hn, hv, he⟩
        · rw [he] at ha; cases ha
        · rw [he] at ha
          cases ha
          refine ⟨by simp [Db.owner, hn, hv], ?_⟩
          have ho := owner_authorized (a := ⟨u, id, k.generation, .permitted, now⟩) hn
          exact isSome_of_mem ho
      | _ => cases hl
    | _ => cases hl
  | _ => cases hl

/-- A UUID that has an owner is not authorised again, and one that has none at most once. -/
theorem authorizes_count (uuid : String) (hi : DbInv s.db) (h : Run (Step hash) s ls t) :
    ls.countP (Label.authorizes uuid) + (if (s.db.owner uuid).isSome then 1 else 0)
      ≤ if (t.db.owner uuid).isSome then 1 else 0 := by
  induction h with
  | nil => simp
  | @snoc t u ls l hrun hstep ih =>
    rw [List.countP_append, List.countP_singleton]
    have hit : DbInv t.db := hrun.invariant (I := fun t => DbInv t.db)
      (fun _ _ _ hi hst => (step_inv hi hst).1) hi
    by_cases hl : l.authorizes uuid = true
    · obtain ⟨hbefore, hafter⟩ := authorizes_step hstep hl
      rw [hbefore, isSome_none, if_neg Bool.false_ne_true] at ih
      rw [if_pos hl, if_pos hafter]
      omega
    · rw [if_neg hl]
      cases ho : t.db.owner uuid with
      | none => rw [ho, isSome_none, if_neg Bool.false_ne_true] at ih; omega
      | some o =>
        rw [(step_inv hit hstep).2.owner uuid o ho]
        rw [ho] at ih
        exact ih

theorem repeated_event_same (hi : DbInv db) (hm : c.message? = some m)
    (hst : m.lifecycle? = some st) (hrec : db.recorded m.uuid st = some m.requestId) :
    (c.advance hash now db).1 = db := by
  have hself : c.advance hash now db = ((c.advance hash now db).1, (c.advance hash now db).2) := rfl
  rcases advance_cases hself with h
    | ⟨id, u, k, rfl, -⟩ | ⟨id, token, address, m', st', a, connections, rfl, -, hst', hr⟩
  · exact h
  · cases hm
  · -- a receipt is only committed where none is recorded
    cases hm
    rw [hst] at hst'
    cases hst'
    unfold Db.recorded at hrec
    rw [hr.first, hi.exclusive _ _ hr.found] at hrec
    cases hrec

theorem rejected_event_same (hm : c.message?.isSome = true)
    (h : c.advance hash now db = (db', next)) (hnext : next ≠ .inr .acknowledged) : db' = db := by
  rcases advance_cases h with rfl | ⟨id, u, k, rfl, -⟩
    | ⟨id, token, address, m, st, a, connections, -, hans, -⟩
  · rfl
  · cases hm
  · exact absurd hans hnext

/-- **The guarantees of relay delivery**, for any interleaving of any number of calls
and administrative operations, from any reachable state `s` to any later `t`. -/
theorem delivery_guarantees (hash : String → String) {s t : Deliveries} {ls : List Label}
    (h : s.Reached hash) (hrun : Run (Step hash) s ls t) :
    -- a UUID is authorised at most once, and not at all once it has an owner
    (∀ uuid, ls.countP (Label.authorizes uuid) ≤ 1) ∧
    (∀ uuid o, s.db.owner uuid = some o →
      t.db.owner uuid = some o ∧ ls.countP (Label.authorizes uuid) = 0) ∧
    -- its state only moves forward
    (∀ uuid x, s.db.stateOf uuid = some x → ∃ y, t.db.stateOf uuid = some y ∧ x.rank ≤ y.rank) ∧
    -- one receipt for each UUID and status, and what was received stays received
    (∀ r ∈ t.db.receipts.rows, ∀ r' ∈ t.db.receipts.rows,
      r.uuid = r'.uuid → r.state = r'.state → r = r') ∧
    (∀ uuid st e, s.db.recorded uuid st = some e → t.db.recorded uuid st = some e) ∧
    -- a closed connection stays closed in the projection
    (∀ k c, s.db.connections.get? k = some c → c.closedAt.isSome = true →
      ∃ c', t.db.connections.get? k = some c' ∧ c'.closedAt.isSome = true) ∧
    -- no statement of a repeated or of a rejected event changes anything
    (∀ (c : Call) m st now, c.message? = some m → m.lifecycle? = some st →
      t.db.recorded m.uuid st = some m.requestId → (c.advance hash now t.db).1 = t.db) ∧
    (∀ (c : Call) now db' next, c.message?.isSome = true → c.advance hash now t.db = (db', next) →
      next ≠ .inr .acknowledged → db' = t.db) := by
  have hi := dbInv_of_reached h
  have hit : DbInv t.db := dbInv_of_reached (h.run hrun)
  have he := run_evolves hi hrun
  have hcount := fun uuid => authorizes_count uuid hi hrun
  refine ⟨fun uuid => ?_, fun uuid o ho => ⟨he.owner uuid o ho, ?_⟩, he.state, hit.index,
    he.recorded, he.closed, fun c m st now hm hst hr => repeated_event_same hit hm hst hr,
    fun c now db' next hm ha hn => rejected_event_same hm ha hn⟩
  · have hone : (if (t.db.owner uuid).isSome then 1 else 0) ≤ 1 := by split <;> omega
    exact (Nat.le_trans (Nat.le_add_right _ _) (hcount uuid)).trans hone
  · have := hcount uuid
    rw [ho, he.owner uuid o ho] at this
    simp only [isSome_some, if_true] at this
    omega

/-! ### A short run

One relay is enrolled and a UUID is authorised for it. -/

def sampleHash (token : String) : String := "sha256:" ++ token

def sampleToken : String := "0123456789012345678901234567890123456789012"

def sampleEnrolled : Db :=
  ((Db.empty.createRelay "relay-1" true).putRelayEnrollment "relay-1" "once" 100 "gen-1"
    |>.consumeRelayEnrollment "relay-1" "once" (sampleHash sampleToken) 50)

def sampleCredential : Credential := ⟨"relay-1", sampleHash sampleToken, "", 0, "gen-1"⟩

def sampleAuthorized : Db :=
  (sampleEnrolled.authorizeInsert "relay-1" "conn-0001" sampleCredential 60).2

theorem sampleEnrolled_reached : Deliveries.Reached sampleHash ⟨sampleEnrolled, []⟩ :=
  ⟨_, _, rfl, (((Run.nil _).snoc (.admin (.createRelay "relay-1" true))).snoc
    (.admin (.putEnrollment "relay-1" "once" 100 "gen-1"))).snoc
    (.admin (.consumeEnrollment "relay-1" "once" (sampleHash sampleToken) 50))⟩

theorem sampleAuthorized_run : Run (Step sampleHash) ⟨sampleEnrolled, []⟩
    [.begin (.authorize "relay-1" sampleToken "conn-0001"),
      .progress (.authorize "relay-1" sampleToken "conn-0001"),
      .finish (.authorizeInsert "relay-1" "conn-0001" sampleCredential) .authorized]
    ⟨sampleAuthorized, []⟩ := by
  refine .cons (.begin trivial) (.cons (.progress 55 (List.mem_singleton_self _) rfl) ?_)
  exact .single (.finish 60 (List.mem_singleton_self _) rfl)

theorem delivery_guarantees_sample :
    Deliveries.Reached sampleHash ⟨sampleEnrolled, []⟩ ∧
    ∀ uuid, [Label.begin (.authorize "relay-1" sampleToken "conn-0001"),
      .progress (.authorize "relay-1" sampleToken "conn-0001"),
      .finish (.authorizeInsert "relay-1" "conn-0001" sampleCredential) .authorized].countP
        (Label.authorizes uuid) ≤ 1 :=
  ⟨sampleEnrolled_reached,
    (delivery_guarantees sampleHash sampleEnrolled_reached sampleAuthorized_run).1⟩

end RemoteControl.Api
