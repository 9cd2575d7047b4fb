import Mathlib.Data.List.Infix
import RemoteControl.Hbbs.Addresses
import RemoteControl.Lib.Events
import RemoteControl.Protocol.SecureFramed

/-!
# The rendezvous server over a secured connection

The loop of `handle_tcp` in `art-hbbs/server.rs`: it takes a message, handles it, and takes the
next one. An error ends it, and the connection with it. The network is anyone's: what arrives is
any frame that was seen, in any order and any number of times, or made up.

That both directions share key and numbers does no harm here, because the server only answers:

> after `n` messages it has sent at most `n`, and while it waits for message `n + 1` no box of its
> own has that number.
-/

namespace RemoteControl.Hbbs

open Lib Sync Protocol List

inductive TcpMessage
  | keyExchange (keys : List Bytes)
  | rendezvous (message : RendezvousMessage)
  /-- A kind that no handler knows. -/
  | other (content : Bytes)
deriving DecidableEq, Repr

/-- A response goes back over the connection, an instruction to a device over UDP. -/
def Sent.overConnection (x : Sent) : Bool := match x.message with
  | .punchHole _ | .requestRelay _ => false
  | _ => true

/-- Where the loop is. -/
inductive Stage
  | reading
  /-- `process_relay` waits for the API. -/
  | relaying (p : PendingRelay)
  | ended

structure TcpWorld (κ : Type) where
  connection : SecureFramed κ TcpMessage
  stage : Stage
  server : Server
  /-- What `next_message` has returned. -/
  handed : List TcpMessage
  /-- What the peer has put into boxes. -/
  peerSent : List TcpMessage
  /-- The frames that `send_message` has given to the stream. -/
  made : List Bytes

def TcpWorld.start {κ : Type} (connection : SecureFramed κ TcpMessage) (server : Server) :
    TcpWorld κ := ⟨connection, .reading, server, [], [], []⟩

inductive TcpEvent
  /-- The peer sends a message. -/
  | peerSends (message : TcpMessage)
  /-- The loop takes what arrives. -/
  | arrives (next : Incoming) (now : Nat) (newUuid : String) (udpFails : Bool)
  /-- The API answers to the request that waits. -/
  | answered (answer : Server.Assignment) (udpFails : Bool)
  /-- The network fails. -/
  | breaks
  /-- Anything else happens to the server. -/
  | elsewhere (e : Event)

/-- What the environment of the loop is. -/
structure TcpHost (κ : Type) where
  options : Options
  coding : Coding TcpMessage
  box : SecretBox κ
  /-- The peer's address. -/
  address : SocketAddr

namespace TcpHost

variable {κ : Type} (host : TcpHost κ)

/-- `send_message` and its `?`. -/
def send (w : TcpWorld κ) (message : TcpMessage) : TcpWorld κ := match w.stage with
  | .ended => w
  | _ =>
    match sendMessage host.coding host.box w.connection message with
    | (.ok frame, connection) => { w with connection, made := w.made ++ [frame] }
    | (.error _, connection) => { w with connection, stage := .ended }

/-- What a handler sends: to a device first, then to the peer. -/
def sendAll (w : TcpWorld κ) (xs : List Sent) (udpFails : Bool) : TcpWorld κ :=
  if udpFails && xs.any fun x => !x.overConnection then { w with stage := .ended }
  else
    (xs.filter (·.overConnection)).foldl (fun w x => host.send w (.rendezvous x.message)) w

/-- The body of the loop. -/
def handle (w : TcpWorld κ) (now : Nat) (newUuid : String) (udpFails : Bool) :
    TcpMessage → TcpWorld κ
  | .rendezvous message =>
    let server := w.server.handleTcp host.options now host.address newUuid message
    match server.relaying.head? with
    | some p =>
      if w.server.relaying.length < server.relaying.length then
        { w with server := { server with relaying := w.server.relaying }, stage := .relaying p }
      else host.sendAll { w with server } (server.sent.drop w.server.sent.length) udpFails
    | none => host.sendAll { w with server } (server.sent.drop w.server.sent.length) udpFails
  | _ => w

def perform (w : TcpWorld κ) : TcpEvent → TcpWorld κ
  | .peerSends message =>
    -- the peer counts as the server does
    match checkedAdd w.peerSent.length with
    | some _ => { w with peerSent := w.peerSent ++ [message] }
    | none => w
  | .arrives next now newUuid udpFails =>
    match w.stage with
    | .reading =>
      match nextMessage host.coding host.box w.connection next with
      | (.ok (some message), connection) =>
        host.handle { w with connection, handed := w.handed ++ [message] } now newUuid udpFails
          message
      | (_, connection) => { w with connection, stage := .ended }
    | _ => w
  | .answered answer udpFails =>
    match w.stage with
    | .relaying p =>
      let xs := Server.finishRelay host.options p answer
      host.sendAll { w with stage := .reading, server := w.server.send xs } xs udpFails
    | _ => w
  | .breaks => { w with stage := .ended }
  | .elsewhere e => { w with server := w.server.step host.options e }

/-- A box opens with the nonce it was made with, and with no other. -/
def Separates (key : κ) : Prop :=
  ∀ nonce made plaintext, host.box.openEasy key nonce (host.box.easy key made plaintext) ≠ none →
    nonce = made

/-- Nobody else can make boxes: a frame that opens is one that the peer made, whose `n`-th message
has nonce `n`, or one of the frames of the server. And a message of the peer is read as it was
written. -/
def Ideal (key : κ) (w : TcpWorld κ) : TcpEvent → Prop
  | .peerSends message => host.coding.decode (host.coding.encode message) = some message
  | .arrives (.frame bytes) _ _ _ =>
    ∀ nonce, host.box.openEasy key nonce bytes ≠ none →
      (∃ plaintext, bytes = host.box.easy key nonce plaintext ∧
        Numbered host.coding w.peerSent nonce plaintext) ∨ bytes ∈ w.made
  | _ => True

end TcpHost

/-! ## At most one response to a message -/

namespace Server

/-- A handler sends something, and at most one response among it. -/
def Answers (s t : Server) : Prop :=
  ∃ xs : List Sent, t.sent = s.sent ++ xs ∧ (xs.filter (·.overConnection)).length ≤ 1

theorem answers_send (s t : Server) (h : t.sent = s.sent) (x : Sent) : s.Answers (t.send [x]) := by
  refine ⟨[x], by rw [send, h], ?_⟩
  exact Nat.le_trans (length_filter_le _ _) (Nat.le_refl 1)

theorem answers_refl (s : Server) : s.Answers s := ⟨[], (append_nil _).symm, Nat.zero_le 1⟩

theorem processPunch_answers (o : Options) (now : Nat) (controller : SocketAddr)
    (request : PunchHoleRequest) (s : Server) :
    s.Answers (s.processPunch o now controller request) := by
  unfold processPunch
  split
  · exact answers_send s s rfl _
  · exact ⟨_, rfl, Nat.le_refl 1⟩

theorem handleTcp_answers (o : Options) (now : Nat) (address : SocketAddr) (newUuid : String)
    (message : RendezvousMessage) (s : Server) :
    s.Answers (s.handleTcp o now address newUuid message) := by
  cases message with
  | punchHoleRequest request =>
    show s.Answers (s.punchHoleRequest o now address request)
    unfold punchHoleRequest
    split
    · exact answers_send s s rfl _
    · exact processPunch_answers o now address _ s
  | requestRelay request =>
    show s.Answers (s.requestRelay o now address newUuid request)
    unfold requestRelay
    split
    · exact answers_send s s rfl _
    · split
      · exact answers_send s s rfl _
      · exact ⟨[], (append_nil _).symm, Nat.zero_le 1⟩
  | registerPeer id => exact answers_send s _ rfl _
  | registerPk id uuid pk =>
    show s.Answers (s.registerPk o now address id pk)
    unfold registerPk
    split
    · exact answers_send s s rfl _
    · exact answers_send s _ rfl _
  | testNatRequest => exact answers_send s s rfl _
  | _ => exact answers_refl s

theorem finishRelay_responses (o : Options) (p : PendingRelay) (answer : Assignment) :
    ((finishRelay o p answer).filter (·.overConnection)).length ≤ 1 := by
  cases answer <;> exact Nat.le_refl 1

end Server

/-! ## The invariant -/

/-- The responses that are still to come. -/
def Stage.owed : Stage → Nat
  | .relaying _ => 1
  | _ => 0

namespace TcpHost

variable {κ : Type} {host : TcpHost κ} {key : κ} {w : TcpWorld κ}

/-- What holds also while a message is handled. -/
structure Keyed (host : TcpHost κ) (key : κ) (w : TcpWorld κ) : Prop where
  -- the server numbers its boxes one after another
  boxes : ∀ i frame, w.made[i]? = some frame →
    ∃ plaintext, frame = host.box.easy key (sequenceNonce (i + 1)) plaintext
  key : w.connection.key = some key
  pending : w.connection.pendingPlaintext = none
  sent : w.made.length = w.connection.sendSequence
  peer_lt : w.peerSent.length < 2 ^ 64
  readable : ∀ m ∈ w.peerSent, host.coding.decode (host.coding.encode m) = some m
  handed : w.handed <+: w.peerSent
  counted : w.stage ≠ .ended → w.connection.receiveSequence = w.handed.length

structure Inv (host : TcpHost κ) (key : κ) (w : TcpWorld κ) : Prop extends Keyed host key w where
  turn : w.stage ≠ .ended → w.connection.sendSequence + w.stage.owed ≤ w.connection.receiveSequence

section

variable (hi : Keyed host key w)

include hi

theorem Keyed.ended : Inv host key { w with stage := .ended } :=
  { hi with counted := fun h => absurd rfl h, turn := fun h => absurd rfl h }

theorem Keyed.withServer (server : Server) : Keyed host key { w with server } := { hi with }

/-- A response that was owed. -/
theorem Keyed.send (hstage : w.stage = .reading)
    (hturn : w.connection.sendSequence + 1 ≤ w.connection.receiveSequence) (message : TcpMessage) :
    Inv host key (host.send w message) := by
  unfold TcpHost.send
  rw [hstage]
  dsimp only
  rcases sendMessage_of_key hi.key message with hsend | ⟨error, hsend⟩
  · rw [hsend]
    exact { hi with
      sent := by rw [length_append, hi.sent]; rfl
      boxes := by
        intro i frame hframe
        by_cases hlt : i < w.made.length
        · rw [List.getElem?_append_left hlt] at hframe
          exact hi.boxes i frame hframe
        · rw [List.getElem?_append_right (Nat.le_of_not_lt hlt)] at hframe
          obtain ⟨hzero, hlast⟩ := List.getElem?_eq_some_iff.mp hframe
          rw [length_singleton] at hzero
          have hplace : i = w.connection.sendSequence := by
            have hsent := hi.sent
            omega
          rw [hplace, ← hlast, getElem_singleton]
          exact ⟨_, rfl⟩
      counted := fun _ => hi.counted (by rw [hstage]; exact fun h => by cases h)
      turn := fun _ => hturn }
  · rw [hsend]
    exact hi.ended

theorem Keyed.sendAll (hstage : w.stage = .reading)
    (hturn : w.connection.sendSequence + 1 ≤ w.connection.receiveSequence) {xs : List Sent}
    (hxs : (xs.filter (·.overConnection)).length ≤ 1) (udpFails : Bool) :
    Inv host key (host.sendAll w xs udpFails) := by
  unfold TcpHost.sendAll
  split
  · exact hi.ended
  · cases hresponses : xs.filter (·.overConnection) with
    | nil =>
      refine { hi with turn := fun _ => ?_ }
      show w.connection.sendSequence + w.stage.owed ≤ w.connection.receiveSequence
      rw [hstage]
      exact Nat.le_of_succ_le hturn
    | cons x rest =>
      rw [hresponses] at hxs
      have hrest : rest = [] := length_eq_zero_iff.mp (by
        rw [length_cons] at hxs
        omega)
      rw [hrest]
      exact hi.send hstage hturn _

theorem Keyed.handle (hstage : w.stage = .reading)
    (hturn : w.connection.sendSequence + 1 ≤ w.connection.receiveSequence) (now : Nat)
    (newUuid : String) (udpFails : Bool) (message : TcpMessage) :
    Inv host key (host.handle w now newUuid udpFails message) := by
  have hquiet : Inv host key w := by
    refine { hi with turn := fun _ => ?_ }
    rw [hstage]
    exact Nat.le_of_succ_le hturn
  cases message with
  | keyExchange keys => exact hquiet
  | other content => exact hquiet
  | rendezvous message =>
    obtain ⟨xs, hsent, hxs⟩ :=
      w.server.handleTcp_answers host.options now host.address newUuid message
    have hanswer : Inv host key (host.sendAll
        { w with server := w.server.handleTcp host.options now host.address newUuid message }
        ((w.server.handleTcp host.options now host.address newUuid message).sent.drop
          w.server.sent.length) udpFails) := by
      rw [hsent, drop_left]
      exact Keyed.sendAll
        (hi.withServer (w.server.handleTcp host.options now host.address newUuid message))
        hstage hturn hxs udpFails
    unfold TcpHost.handle
    dsimp only
    split
    · split
      · exact { hi with
          counted := fun _ => hi.counted (by rw [hstage]; exact fun h => by cases h)
          turn := fun _ => hturn }
      · exact hanswer
    · exact hanswer

end

/-- The frame with the next number is the peer's: the server has not come so far. -/
theorem Inv.peer_next (hi : Inv host key w) (hbox : host.Separates key) (hstage : w.stage = .reading)
    {bytes plaintext : Bytes}
    (hideal : ∀ nonce, host.box.openEasy key nonce bytes ≠ none →
      (∃ plaintext, bytes = host.box.easy key nonce plaintext ∧
        Numbered host.coding w.peerSent nonce plaintext) ∨ bytes ∈ w.made)
    (hopen : host.box.openEasy key (sequenceNonce (w.connection.receiveSequence + 1)) bytes
      = some plaintext)
    (hlt : w.connection.receiveSequence + 1 < 2 ^ 64) :
    ∃ m, w.peerSent[w.handed.length]? = some m ∧ plaintext = host.coding.encode m := by
  have hrunning : w.stage ≠ .ended := by
    rw [hstage]
    exact nofun
  have hturn := hi.turn hrunning
  have hcounted := hi.counted hrunning
  have hopens : host.box.openEasy key (sequenceNonce (w.connection.receiveSequence + 1)) bytes
      ≠ none := by
    rw [hopen]
    exact nofun
  rcases hideal _ hopens with ⟨text, rfl, i, m, hm, hnonce, htext⟩ | hmade
  · rw [host.box.open_easy] at hopen
    cases hopen
    have hi_lt : i < w.peerSent.length := (List.getElem?_eq_some_iff.mp hm).1
    have hpeer := hi.peer_lt
    have hsame := sequenceNonce_inj hlt (by omega) hnonce
    have hplace : w.handed.length = i := by omega
    exact ⟨m, by rw [hplace, hm], htext⟩
  · -- it would have a number that the server has not used yet
    obtain ⟨i, hframe⟩ := List.getElem?_of_mem hmade
    obtain ⟨text, rfl⟩ := hi.boxes i bytes hframe
    have hi_lt : i < w.made.length := (List.getElem?_eq_some_iff.mp hframe).1
    have hsent := hi.sent
    have hsame := sequenceNonce_inj hlt (by omega) (hbox _ _ _ hopens)
    omega

theorem Inv.arrives (hi : Inv host key w) (hbox : host.Separates key) {next : Incoming} {now : Nat}
    {newUuid : String} {udpFails : Bool} (hideal : host.Ideal key w (.arrives next now newUuid udpFails)) :
    Inv host key (host.perform w (.arrives next now newUuid udpFails)) := by
  dsimp only [perform]
  cases hstage : w.stage with
  | relaying p => exact hi
  | ended => exact hi
  | reading =>
    have hrunning : w.stage ≠ .ended := by
      rw [hstage]
      exact nofun
    obtain ⟨hkey, hsend, hpending⟩ := nextMessage_keeps host.coding host.box w.connection next
    have hended : Inv host key
        { w with
          connection := (nextMessage host.coding host.box w.connection next).2
          stage := .ended } :=
      { key := hkey.trans hi.key
        pending := hpending hi.pending
        sent := hi.sent.trans hsend.symm
        boxes := hi.boxes
        peer_lt := hi.peer_lt
        readable := hi.readable
        handed := hi.handed
        counted := fun h => absurd rfl h
        turn := fun h => absurd rfl h }
    dsimp only
    split
    · next message connection hnext =>
      obtain ⟨bytes, plaintext, rfl, hopen, hdecode, hlt, rfl⟩ :=
        nextMessage_some hi.key hi.pending hnext
      obtain ⟨m, hm, rfl⟩ := hi.peer_next hbox hstage hideal hopen hlt
      obtain ⟨hplace, hget⟩ := List.getElem?_eq_some_iff.mp hm
      have hsame : message = m :=
        Option.some.inj (hdecode.symm.trans (hi.readable m (hget ▸ getElem_mem hplace)))
      subst hsame
      have hcounted := hi.counted hrunning
      have hturn : w.connection.sendSequence + 0 ≤ w.connection.receiveSequence := by
        have h := hi.turn hrunning
        rwa [hstage] at h
      have hkeyed : Keyed host key { w with
          stage := .reading
          connection := { w.connection with receiveSequence := w.connection.receiveSequence + 1 }
          handed := w.handed ++ [message] } := by
        refine { hi.toKeyed with handed := ?_, counted := fun _ => ?_ }
        · rw [← hget]
          exact concat_get_prefix hi.handed hplace
        · rw [length_append, ← hcounted]
          rfl
      exact hkeyed.handle rfl (Nat.succ_le_succ hturn) now newUuid udpFails message
    · next result connection hother hnext =>
      rw [hnext] at hended
      exact hended

theorem Inv.perform (hi : Inv host key w) (hbox : host.Separates key) (e : TcpEvent)
    (hideal : host.Ideal key w e) :
    Inv host key (host.perform w e) := by
  cases e with
  | peerSends message =>
    dsimp only [TcpHost.perform]
    cases hadd : checkedAdd w.peerSent.length with
    | none => exact hi
    | some n =>
      obtain ⟨-, hlt⟩ := checkedAdd_eq_some hadd
      exact { hi with
        peer_lt := by rw [length_append]; exact hlt
        readable := by
          intro m hm
          rcases mem_append.mp hm with hm | hm
          · exact hi.readable m hm
          · exact mem_singleton.mp hm ▸ hideal
        handed := hi.handed.trans (prefix_append _ _) }
  | arrives next now newUuid udpFails => exact hi.arrives hbox hideal
  | answered answer udpFails =>
    dsimp only [TcpHost.perform]
    cases hstage : w.stage with
    | reading => exact hi
    | ended => exact hi
    | relaying p =>
      have hrunning : w.stage ≠ .ended := by
        rw [hstage]
        exact nofun
      have hturn : w.connection.sendSequence + 1 ≤ w.connection.receiveSequence := by
        have h := hi.turn hrunning
        rwa [hstage] at h
      have hkeyed : Keyed host key { w with
          stage := .reading
          server := w.server.send (Server.finishRelay host.options p answer) } :=
        { hi.toKeyed with counted := fun _ => hi.counted hrunning }
      exact hkeyed.sendAll rfl hturn (Server.finishRelay_responses host.options p answer) udpFails
  | breaks => exact hi.toKeyed.ended
  | elsewhere e => exact { hi with }

end TcpHost

/-- Over a connection that was accepted with a key, whatever the network does with the frames, the
server is given a beginning of what the peer has sent. -/
theorem handed_prefix_peerSent {κ : Type} (host : TcpHost κ) (boxOpen : Bytes → Bytes → Option κ)
    (first : Option Incoming) (connection : SecureFramed κ TcpMessage) (key : κ) (server : Server)
    (haccept : accept host.coding boxOpen first = .ok connection)
    (hkey : connection.key = some key) (hbox : host.Separates key) (events : List TcpEvent)
    (hideal : Throughout host.perform (host.Ideal key) (.start connection server) events) :
    (events.foldl host.perform (.start connection server)).handed
      <+: (events.foldl host.perform (.start connection server)).peerSent := by
  obtain rfl := accept_of_key haccept hkey
  have hstart : TcpHost.Inv host key (.start ⟨some key, none, 0, 0⟩ server) :=
    { key := rfl
      pending := rfl
      sent := rfl
      boxes := nofun
      peer_lt := Nat.two_pow_pos 64
      readable := nofun
      handed := prefix_rfl
      counted := fun _ => rfl
      turn := fun _ => Nat.le_refl 0 }
  exact (hideal.invariant (fun w e hi he => hi.perform hbox e he) hstart events prefix_rfl).handed

/-! ### A reflected response -/

/-- Three kinds of messages, one byte each. -/
def byteCoding : Coding TcpMessage where
  encode message := match message with
    | .keyExchange _ => [1]
    | .rendezvous .testNatRequest => [2]
    | _ => [3]
  decode bytes :=
    if bytes = [1] then some (.keyExchange [List.replicate 32 0, List.replicate 16 0])
    else if bytes = [2] then some (.rendezvous .testNatRequest)
    else if bytes = [3] then some (.rendezvous (.testNatResponse 40000))
    else none
  keys? message := match message with
    | .keyExchange keys => some keys
    | _ => none

/-- Boxes that name their nonce. -/
def labelled : SecretBox Unit where
  easy _ nonce plaintext := nonce.val ++ plaintext
  openEasy _ nonce bytes := if bytes.take 24 = nonce.val then some (bytes.drop 24) else none
  open_easy _ nonce plaintext := by
    rw [if_pos (take_left' nonce.property), drop_left' nonce.property]

def sampleTcp : TcpHost Unit := ⟨sampleOptions, byteCoding, labelled, controllerAddress⟩

/-- The peer sends a request, which is answered; then the answer comes back to the server. -/
def reflected : List TcpEvent :=
  [.peerSends (.rendezvous .testNatRequest),
    .arrives (.frame (labelled.easy () (sequenceNonce 1) [2])) 0 "" false,
    .arrives (.frame (labelled.easy () (sequenceNonce 1) [3])) 0 "" false]

/-- A frame of the sample opens with its own nonce only. -/
theorem labelled_opens {nonce made : SecretNonce} {plaintext : Bytes}
    (h : labelled.openEasy () nonce (labelled.easy () made plaintext) ≠ none) : nonce = made := by
  have htake : (made.val ++ plaintext).take 24 = nonce.val := by
    by_contra hne
    exact h (if_neg hne)
  rw [take_left' made.property] at htake
  exact Subtype.ext htake.symm

/-- The answer is refused, and the request has been handed over once. -/
theorem handed_prefix_reflected :
    ∃ connection : SecureFramed Unit TcpMessage,
      accept byteCoding (fun _ _ => some ()) (some (.frame [1])) = .ok connection ∧
      (reflected.foldl sampleTcp.perform (.start connection (.start .empty))).handed
        = [.rendezvous .testNatRequest] ∧
      (reflected.foldl sampleTcp.perform (.start connection (.start .empty))).handed
        <+: (reflected.foldl sampleTcp.perform (.start connection (.start .empty))).peerSent := by
  refine ⟨⟨some (), none, 0, 0⟩, rfl, by decide +kernel, ?_⟩
  refine handed_prefix_peerSent sampleTcp (fun _ _ => some ()) (some (.frame [1])) _ () _ rfl rfl
    (fun _ _ _ => labelled_opens) reflected ?_
  unfold reflected
  repeat rw [throughout_cons]
  refine ⟨rfl, ?_, ?_, throughout_nil _ _⟩
  · intro nonce hopen
    obtain rfl := labelled_opens hopen
    exact .inl ⟨[2], rfl, 0, _, rfl, rfl, rfl⟩
  · exact fun nonce _ => .inr (.head _)

/-- Two messages in a row, each with its own number. -/
theorem requests_received :
    let messages := [.rendezvous .testNatRequest, .rendezvous (.testNatResponse 40000)]
    receiveAll byteCoding labelled ⟨some (), none, 0, 0⟩
      (sendAll byteCoding labelled ⟨some (), none, 0, 0⟩ messages) = messages := by
  intro messages
  refine receiveAll_sendAll (fun _ nonce text => ?_) (fun m hm => ?_) rfl rfl rfl (by decide)
  · show 16 ≤ (nonce.val ++ text).length
    rw [length_append, nonce.property]
    omega
  · rcases mem_pair.mp hm with rfl | rfl <;> rfl

end RemoteControl.Hbbs
