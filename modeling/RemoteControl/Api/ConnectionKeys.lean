import RemoteControl.Api.LiveConnections
import RemoteControl.Sync.AclPreview

/-!
# The keys of connection records

A client reports its connections with `clientConnectionAudit`, and the record is found by
`id:peer:connection:session`. What is reported of a relay goes to the record `relay:uuid`.

> The two numbers have no colon in them, but the texts before them may.

So the last two parts of a client's key can be told, and where the id ends and the peer begins
cannot. Nor can a client's key be told from a relay's.
-/

namespace RemoteControl.Api

open Lib

/-- `strconv.FormatFloat(x, 'f', -1, 64)`, which gives the shortest text that is read as `x`. -/
structure FloatFormat (σ : Type) where
  format : σ → String
  format_inj : ∀ {x y}, format x = format y → x = y
  no_colon : ∀ x, ':' ∉ (format x).toList

structure ClientConnectionAudit (σ : Type) where
  action : String
  connectionId : Int64
  id : String
  peer : List String
  sessionId : σ
  type : Int64
  uuid : String

/-- What the tables know of the controller: user, session, name and display name. -/
structure AuditActor where
  userId : String
  sessionId : String
  username : String
  displayName : String

variable {σ : Type} (f : FloatFormat σ) (trimSpace : String → String)

namespace ClientConnectionAudit

/-- The checks of the handler; the device has to be registered. -/
def accepted (devices : List Sync.Device) (input : ClientConnectionAudit σ) : Bool :=
  let id := trimSpace input.id
  let uuid := trimSpace input.uuid
  (id ≠ "" && uuid ≠ "" && id.utf8ByteSize ≤ 64 && uuid.utf8ByteSize ≤ 512) &&
    (input.action = "" || input.action = "new" || input.action = "close") &&
    input.peer.length ≤ 2 &&
    (devices.find? fun d => d.rustdeskId = input.id).any fun d =>
      d.clientUuid = "" || d.clientUuid = input.uuid

def fromPeer (input : ClientConnectionAudit σ) : String := (input.peer[0]?.map trimSpace).getD ""

def fromName (input : ClientConnectionAudit σ) : String := (input.peer[1]?.map trimSpace).getD ""

def key (input : ClientConnectionAudit σ) : String :=
  input.id ++ ":" ++ input.fromPeer trimSpace ++ ":" ++ input.connectionId.toInt.repr ++ ":" ++
    f.format input.sessionId

/-- The record of `persistClientConnection`. -/
def record (actor? : Option AuditActor) (ip : String) (now : Nat)
    (input : ClientConnectionAudit σ) : ConnectionRecord :=
  let actor? := if input.fromPeer trimSpace = "" then none else actor?
  let display := (actor?.map fun a =>
    trimSpace (if a.displayName ≠ "" then a.displayName else a.username)).getD ""
  { key := input.key f trimSpace
    actorUserId := (actor?.map AuditActor.userId).getD ""
    actorSessionId := (actor?.map AuditActor.sessionId).getD ""
    controllerDevice := input.fromPeer trimSpace
    controllerName := if display ≠ "" then display else trimSpace (input.fromName trimSpace)
    controllerLogin := (actor?.map fun a => trimSpace a.username).getD ""
    targetRustdeskId := input.id
    connectionType := input.type
    ip
    transport := ""
    relayUuid := ""
    relayServer := ""
    startedAt := now
    lastSeenAt := now
    closedAt := if input.action = "close" then some now else none }

end ClientConnectionAudit

/-- A report on a connection. That of a relay is its assignment, or a change of its state. -/
inductive ConnectionReport (σ : Type)
  | client (input : ClientConnectionAudit σ)
  | relay (uuid : String)

namespace ConnectionReport

/-- The record that a report updates. -/
def key : ConnectionReport σ → String
  | .client input => input.key f trimSpace
  | .relay uuid => connectionKey uuid

/-- Both are about one connection. -/
def Agree : ConnectionReport σ → ConnectionReport σ → Prop
  | .client a, .client b => a.id = b.id ∧ a.fromPeer trimSpace = b.fromPeer trimSpace ∧
      a.connectionId = b.connectionId ∧ a.sessionId = b.sessionId
  | .relay u, .relay v => u = v
  | _, _ => False

/-- A part of one id is taken for a part of the other's peer. -/
def Shifted (a b : ClientConnectionAudit σ) : Prop :=
  a.connectionId = b.connectionId ∧ a.sessionId = b.sessionId ∧
    ∃ x, b.id = a.id ++ ":" ++ x ∧ a.fromPeer trimSpace = x ++ ":" ++ b.fromPeer trimSpace

/-- The id makes the key that of a relay. -/
def Poses (a : ClientConnectionAudit σ) (uuid : String) : Prop :=
  let rest := a.fromPeer trimSpace ++ ":" ++ a.connectionId.toInt.repr ++ ":" ++
    f.format a.sessionId
  a.id = "relay" ∧ uuid = rest ∨ ∃ x, a.id = "relay:" ++ x ∧ uuid = x ++ ":" ++ rest

def Clash : ConnectionReport σ → ConnectionReport σ → Prop
  | .client a, .client b => Shifted trimSpace a b ∨ Shifted trimSpace b a
  | .client a, .relay uuid | .relay uuid, .client a => Poses f trimSpace a uuid
  | .relay _, .relay _ => False

end ConnectionReport

/-! ## Colons -/

theorem colon_cases (a b p q : String) : a ++ ":" ++ p = b ++ ":" ++ q ↔ a = b ∧ p = q ∨
    (∃ x, b = a ++ ":" ++ x ∧ p = x ++ ":" ++ q) ∨ ∃ x, a = b ++ ":" ++ x ∧ q = x ++ ":" ++ p := by
  have hone : ∀ {a b p q : String} {l : List Char}, b.toList = a.toList ++ l →
      ':' :: p.toList = l ++ ':' :: q.toList →
      a = b ∧ p = q ∨ ∃ x, b = a ++ ":" ++ x ∧ p = x ++ ":" ++ q := by
    intro a b p q l hb hp
    cases l with
    | nil =>
      rw [List.append_nil] at hb
      exact .inl ⟨(String.toList_inj.mp hb).symm, String.toList_inj.mp (List.cons.inj hp).2⟩
    | cons c l =>
      obtain ⟨rfl, hp⟩ := List.cons.inj hp
      refine .inr ⟨String.ofList l, ?_, ?_⟩
      · apply String.toList_inj.mp
        simpa using hb
      · apply String.toList_inj.mp
        simpa using hp
  constructor
  · intro h
    have hlist := congrArg String.toList h
    simp only [String.toList_append, List.append_assoc] at hlist
    rcases List.append_eq_append_iff.mp hlist with ⟨l, hb, hp⟩ | ⟨l, ha, hq⟩
    · exact (hone hb hp).imp_right .inl
    · exact (hone ha hq).imp (fun h => ⟨h.1.symm, h.2.symm⟩) .inr
  · rintro (⟨rfl, rfl⟩ | ⟨x, rfl, rfl⟩ | ⟨x, rfl, rfl⟩)
    · rfl
    · simp only [String.append_assoc]
    · simp only [String.append_assoc]

/-- What follows the last colon can be told. -/
theorem colon_last {a b p q : String} (hp : ':' ∉ p.toList) (hq : ':' ∉ q.toList) :
    a ++ ":" ++ p = b ++ ":" ++ q ↔ a = b ∧ p = q := by
  rw [colon_cases]
  refine or_iff_left ?_
  rintro (⟨x, -, rfl⟩ | ⟨x, -, rfl⟩)
  · exact hp (by simp)
  · exact hq (by simp)

theorem isDigit_of_mem_repr {m : Nat} {c : Char} (h : c ∈ m.repr.toList) : c.isDigit = true := by
  rw [Nat.repr, String.toList_ofList] at h
  exact Nat.isDigit_of_mem_toDigits (by decide) (by decide) h

theorem no_colon_repr (n : Int) : ':' ∉ n.repr.toList := by
  have hdigits : ∀ m : Nat, ':' ∉ m.repr.toList := fun m hm =>
    absurd (isDigit_of_mem_repr hm) (by decide)
  cases n with
  | ofNat m => exact hdigits m
  | negSucc m =>
    show ':' ∉ ("-" ++ (m + 1).repr).toList
    simpa using hdigits (m + 1)

theorem toDigits_inj {m n : Nat} (h : Nat.toDigits 10 m = Nat.toDigits 10 n) : m = n := by
  have hm := Nat.ofDigitChars_toDigits (b := 10) (n := m) (by decide) (by decide)
  rwa [h, Nat.ofDigitChars_toDigits (by decide) (by decide), eq_comm] at hm

theorem intRepr_inj {m n : Int} : m.repr = n.repr ↔ m = n := by
  refine ⟨fun h => ?_, congrArg Int.repr⟩
  -- a minus sign is no digit
  have hsign : ∀ k l : Nat, k.repr ≠ "-" ++ l.repr := fun k l heq => by
    have hmem : '-' ∈ k.repr.toList := by simp [heq]
    exact absurd (isDigit_of_mem_repr hmem) (by decide)
  cases m with
  | ofNat m =>
    cases n with
    | ofNat n => exact congrArg Int.ofNat (toDigits_inj (String.ofList_injective h))
    | negSucc n => exact absurd h (hsign m (n + 1))
  | negSucc m =>
    cases n with
    | ofNat n => exact absurd h.symm (hsign n (m + 1))
    | negSucc n =>
      have hlist := congrArg String.toList (show "-" ++ (m + 1).repr = "-" ++ (n + 1).repr from h)
      exact congrArg Int.negSucc (Nat.succ.inj (toDigits_inj (by simpa using hlist)))

/-! ## When two reports meet -/

open ConnectionReport

variable {f trimSpace}

theorem client_keys_iff {a b : ClientConnectionAudit σ} :
    a.key f trimSpace = b.key f trimSpace ↔
      Agree trimSpace (.client a) (.client b) ∨ Clash f trimSpace (.client a) (.client b) := by
  unfold ClientConnectionAudit.key
  rw [colon_last (f.no_colon _) (f.no_colon _), colon_last (no_colon_repr _) (no_colon_repr _),
    intRepr_inj, Int64.toInt_inj, colon_cases]
  have hsession : f.format a.sessionId = f.format b.sessionId ↔ a.sessionId = b.sessionId :=
    ⟨f.format_inj, congrArg f.format⟩
  rw [hsession]
  unfold Agree Clash Shifted
  constructor
  · rintro ⟨⟨⟨hid, hpeer⟩ | ⟨x, hid, hpeer⟩ | ⟨x, hid, hpeer⟩, hconn⟩, hsess⟩
    · exact .inl ⟨hid, hpeer, hconn, hsess⟩
    · exact .inr (.inl ⟨hconn, hsess, x, hid, hpeer⟩)
    · exact .inr (.inr ⟨hconn.symm, hsess.symm, x, hid, hpeer⟩)
  · rintro (⟨hid, hpeer, hconn, hsess⟩ | ⟨hconn, hsess, x, hid, hpeer⟩ |
      ⟨hconn, hsess, x, hid, hpeer⟩)
    · exact ⟨⟨.inl ⟨hid, hpeer⟩, hconn⟩, hsess⟩
    · exact ⟨⟨.inr (.inl ⟨x, hid, hpeer⟩), hconn⟩, hsess⟩
    · exact ⟨⟨.inr (.inr ⟨x, hid, hpeer⟩), hconn.symm⟩, hsess.symm⟩

theorem client_relay_keys_iff {a : ClientConnectionAudit σ} {uuid : String} :
    a.key f trimSpace = connectionKey uuid ↔ Poses f trimSpace a uuid := by
  have hkey : a.key f trimSpace = a.id ++ ":" ++ (a.fromPeer trimSpace ++ ":" ++
      a.connectionId.toInt.repr ++ ":" ++ f.format a.sessionId) := by
    simp only [ClientConnectionAudit.key, String.append_assoc]
  have hrelay : connectionKey uuid = "relay" ++ ":" ++ uuid := rfl
  rw [hkey, hrelay, colon_cases]
  refine or_congr (and_congr_right fun _ => eq_comm) ?_
  refine (or_iff_right ?_).trans Iff.rfl
  rintro ⟨x, hx, -⟩
  have hcolon : ':' ∈ "relay".toList := by
    rw [hx]
    simp
  exact absurd hcolon (by decide)

/-- A client's report changes no record but that of its key. Two reports that go to one record are
about one connection, if and only if no id is continued in the other's peer and none begins with
`relay` so that the rest of the key is the UUID. -/
theorem reports_apart_iff (f : FloatFormat σ) (trimSpace : String → String) :
    (∀ (db : Db) (input : ClientConnectionAudit σ) actor? ip now k,
      k = (ConnectionReport.client input).key f trimSpace ∨
      (db.upsertConnection (input.record f trimSpace actor? ip now)).connections.get? k
        = db.connections.get? k) ∧
    ∀ a b : ConnectionReport σ,
      (a.key f trimSpace = b.key f trimSpace → a.Agree trimSpace b) ↔ ¬ a.Clash f trimSpace b := by
  refine ⟨?_, ?_⟩
  · intro db input actor? ip now k
    by_cases hk : k = (ConnectionReport.client input).key f trimSpace
    · exact .inl hk
    · rw [get?_upsertConnection]
      exact .inr (if_neg (Ne.symm hk))
  · intro a b
    -- the key is shared by what agrees and what clashes, and nothing does both
    have hiff : a.key f trimSpace = b.key f trimSpace ↔
        a.Agree trimSpace b ∨ a.Clash f trimSpace b := by
      cases a with
      | client a =>
        cases b with
        | client b => exact client_keys_iff
        | relay v => exact client_relay_keys_iff.trans (or_iff_right id).symm
      | relay u =>
        cases b with
        | client b => exact eq_comm.trans (client_relay_keys_iff.trans (or_iff_right id).symm)
        | relay v =>
          refine ⟨fun h => .inl (connectionKey_inj h), ?_⟩
          rintro (rfl | h)
          · rfl
          · exact h.elim
    have hboth : a.Clash f trimSpace b → ¬ a.Agree trimSpace b := by
      have hlonger : ∀ x y : String, x ≠ x ++ ":" ++ y := by
        intro x y h
        have hlen := congrArg (List.length ∘ String.toList) h
        simp only [Function.comp_apply, String.toList_append, List.length_append] at hlen
        exact absurd hlen (by simp; omega)
      intro hclash hagree
      cases a with
      | client a =>
        cases b with
        | client b =>
          rcases hclash with ⟨-, -, x, hid, -⟩ | ⟨-, -, x, hid, -⟩
          · exact hlonger a.id x (hagree.1.trans hid)
          · exact hlonger b.id x (hagree.1.symm.trans hid)
        | relay v => exact hagree
      | relay u =>
        cases b with
        | client b => exact hagree
        | relay v => exact hclash
    rw [hiff]
    exact ⟨fun h hclash => hboth hclash (h (.inr hclash)), fun h hor => hor.resolve_right h⟩

/-- Sessions as they are mostly sent: without a fraction. -/
def wholeSessions : FloatFormat Int := ⟨Int.repr, intRepr_inj.mp, no_colon_repr⟩

/-- A device whose id continues as the peer of another device's connection. -/
def firstAudit : ClientConnectionAudit Int := ⟨"new", 7, "abc", ["x:def"], 0, 0, "uuid-1"⟩

def secondAudit : ClientConnectionAudit Int := ⟨"close", 7, "abc:x", ["def"], 0, 0, "uuid-2"⟩

/-- Both reports are accepted, and the second closes the connection of the first. -/
theorem other_connection_closed :
    let devices := [{ Sync.sampleDevice with rustdeskId := "abc" },
      { Sync.sampleDevice with rustdeskId := "abc:x", clientUuid := "uuid-2" }]
    let db := Db.empty.upsertConnection (firstAudit.record wholeSessions id none "10.0.0.1" 1)
    firstAudit.accepted id devices = true ∧ secondAudit.accepted id devices = true ∧
      db.connections.rows.map (fun c => (c.targetRustdeskId, c.closedAt)) = [("abc", none)] ∧
      ((db.upsertConnection (secondAudit.record wholeSessions id none "10.0.0.2" 2)).connections.rows
        |>.map fun c => (c.targetRustdeskId, c.closedAt)) = [("abc:x", some 2)] := by
  decide +kernel

end RemoteControl.Api
