import RemoteControl.Lib.LittleEndian

/-!
# Secured connections

`SecureFramed` of `art-core/transport.rs`. The server sends its key; a peer that answers with a key
exchange has chosen the session key, and from then on every frame is a secret box. Both directions
use the same key and count their messages from one:

> the nonce of a frame is its number, and nothing in it tells which side made it.

So a box that the server made opens for the server itself, if it has the number that the server
waits for. Whether that happens depends on who uses the connection.
-/

namespace RemoteControl.Protocol

open Lib

/-- How messages are written as bytes. -/
structure Coding (μ : Type) where
  encode : μ → List UInt8
  decode : List UInt8 → Option μ
  /-- The keys, if the message is a `KeyExchange`. -/
  keys? : μ → Option (List (List UInt8))

abbrev SecretNonce := { l : List UInt8 // l.length = 24 }

/-- `crypto_secretbox_easy` and `crypto_secretbox_open_easy`, by key, nonce and text. -/
structure SecretBox (κ : Type) where
  easy : κ → SecretNonce → List UInt8 → List UInt8
  openEasy : κ → SecretNonce → List UInt8 → Option (List UInt8)
  open_easy : ∀ key nonce plaintext, openEasy key nonce (easy key nonce plaintext) = some plaintext

inductive TransportError
  | message (text : String)
  | stream
  | decode
  | crypto
deriving DecidableEq, Repr

/-- What the stream of frames gives next. -/
inductive Incoming
  | frame (bytes : List UInt8)
  | failed
  | closed
deriving DecidableEq, Repr

/-- The sequences are `u64`. -/
structure SecureFramed (κ μ : Type) where
  key : Option κ
  pendingPlaintext : Option μ
  sendSequence : Nat
  receiveSequence : Nat

def checkedAdd (sequence : Nat) : Option Nat :=
  if sequence + 1 < 2 ^ 64 then some (sequence + 1) else none

def sequenceNonce (sequence : Nat) : SecretNonce :=
  ⟨leBytes 8 sequence ++ List.replicate 16 0, by rw [List.length_append, length_leBytes]; rfl⟩

variable {κ μ : Type} {box : SecretBox κ} {c : SecureFramed κ μ} {coding : Coding μ} {key : κ}

/-- `accept`, after the server's key has been sent: `first` is the answer, if it came in time, and
`boxOpen` opens the session key with the peer's public key. -/
def accept (coding : Coding μ) (boxOpen : List UInt8 → List UInt8 → Option κ)
    (first : Option Incoming) : Except TransportError (SecureFramed κ μ) :=
  match first with
  | none => .error (.message "secure handshake timed out")
  | some .closed => .error (.message "peer closed during secure handshake")
  | some .failed => .error .stream
  | some (.frame bytes) =>
    match coding.decode bytes with
    | none => .error .decode
    | some message =>
      match coding.keys? message with
      | some [peerPublic, sealed] =>
        if peerPublic.length ≠ 32 then
          .error (.message "client box public key has invalid length")
        else if sealed.length < 16 then .error (.message "encrypted session key is truncated")
        else
          match boxOpen peerPublic sealed with
          | none => .error .crypto
          | some key => .ok ⟨some key, none, 0, 0⟩
      | _ => .ok ⟨none, some message, 0, 0⟩

/-- `next_message`; `next` is read unless a message is pending. -/
def nextMessage (coding : Coding μ) (box : SecretBox κ) (connection : SecureFramed κ μ)
    (next : Incoming) : Except TransportError (Option μ) × SecureFramed κ μ :=
  match connection.pendingPlaintext with
  | some message => (.ok (some message), { connection with pendingPlaintext := none })
  | none =>
    match next with
    | .closed => (.ok none, connection)
    | .failed => (.error .stream, connection)
    | .frame bytes =>
      match connection.key with
      | none =>
        match coding.decode bytes with
        | none => (.error .decode, connection)
        | some message => (.ok (some message), connection)
      | some key =>
        if bytes.length < 16 then (.error (.message "encrypted frame is truncated"), connection)
        else
          match checkedAdd connection.receiveSequence with
          | none => (.error (.message "receive nonce exhausted"), connection)
          | some sequence =>
            let connection := { connection with receiveSequence := sequence }
            match box.openEasy key (sequenceNonce sequence) bytes with
            | none => (.error .crypto, connection)
            | some plaintext =>
              match coding.decode plaintext with
              | none => (.error .decode, connection)
              | some message => (.ok (some message), connection)

/-- `send_message`, up to the frame that is given to the stream. -/
def sendMessage (coding : Coding μ) (box : SecretBox κ) (connection : SecureFramed κ μ)
    (message : μ) : Except TransportError (List UInt8) × SecureFramed κ μ :=
  match connection.key with
  | none => (.ok (coding.encode message), connection)
  | some key =>
    match checkedAdd connection.sendSequence with
    | none => (.error (.message "send nonce exhausted"), connection)
    | some sequence =>
      (.ok (box.easy key (sequenceNonce sequence) (coding.encode message)),
        { connection with sendSequence := sequence })

/-- The box of the `n`-th of some messages has nonce `n`, counted from one. -/
def Numbered (coding : Coding μ) (messages : List μ) (nonce : SecretNonce)
    (plaintext : List UInt8) : Prop :=
  ∃ i message, messages[i]? = some message ∧ nonce = sequenceNonce (i + 1) ∧
    plaintext = coding.encode message

/-! ## The counters -/

theorem checkedAdd_eq_some {sequence next : Nat} (h : checkedAdd sequence = some next) :
    next = sequence + 1 ∧ sequence + 1 < 2 ^ 64 := by
  unfold checkedAdd at h
  split at h
  · next hlt => exact ⟨(Option.some.inj h).symm, hlt⟩
  · cases h

theorem sequenceNonce_inj {m n : Nat} (hm : m < 2 ^ 64) (hn : n < 2 ^ 64)
    (h : sequenceNonce m = sequenceNonce n) : m = n := by
  have hbytes : leBytes 8 m = leBytes 8 n := List.append_cancel_right (congrArg Subtype.val h)
  rw [← leNat_leBytes_of_lt (k := 8) hm, hbytes, leNat_leBytes_of_lt (k := 8) hn]

/-! ## What the operations do with a key -/

/-- A keyed connection is handed what the box of the next number contains. -/
theorem nextMessage_some {c' : SecureFramed κ μ} {next : Incoming} {message : μ}
    (hkey : c.key = some key) (hpending : c.pendingPlaintext = none)
    (h : nextMessage coding box c next = (.ok (some message), c')) :
    ∃ bytes plaintext, next = .frame bytes ∧
      box.openEasy key (sequenceNonce (c.receiveSequence + 1)) bytes = some plaintext ∧
      coding.decode plaintext = some message ∧ c.receiveSequence + 1 < 2 ^ 64 ∧
      c' = { c with receiveSequence := c.receiveSequence + 1 } := by
  unfold nextMessage at h
  rw [hpending] at h
  cases next with
  | closed => cases h
  | failed => cases h
  | frame bytes =>
    dsimp only at h
    rw [hkey] at h
    dsimp only at h
    split at h
    · cases h
    split at h
    · cases h
    · next sequence hsequence =>
      obtain ⟨rfl, hlt⟩ := checkedAdd_eq_some hsequence
      split at h
      · cases h
      · next plaintext hopen =>
        split at h
        · cases h
        · next hdecode =>
          cases h
          exact ⟨bytes, plaintext, rfl, hopen, hdecode, hlt, by rw [hkey, hpending]⟩

/-- Whatever happens, the key and the sending side stay as they are. -/
theorem nextMessage_keeps (coding : Coding μ) (box : SecretBox κ) (c : SecureFramed κ μ)
    (next : Incoming) :
    (nextMessage coding box c next).2.key = c.key ∧
      (nextMessage coding box c next).2.sendSequence = c.sendSequence ∧
      (c.pendingPlaintext = none → (nextMessage coding box c next).2.pendingPlaintext = none) := by
  unfold nextMessage
  repeat' split
  all_goals exact ⟨rfl, rfl, fun h => by first | exact h | rfl⟩

/-- With a key, the next message is put into a box with the next number. -/
theorem sendMessage_of_key (hkey : c.key = some key) (message : μ) :
    sendMessage coding box c message
        = (.ok (box.easy key (sequenceNonce (c.sendSequence + 1)) (coding.encode message)),
          { c with sendSequence := c.sendSequence + 1 }) ∨
    ∃ error, sendMessage coding box c message = (.error error, c) := by
  unfold sendMessage
  rw [hkey]
  cases hadd : checkedAdd c.sendSequence with
  | none => exact .inr ⟨_, rfl⟩
  | some sequence =>
    obtain ⟨rfl, -⟩ := checkedAdd_eq_some hadd
    exact .inl rfl

/-- A connection that is accepted with a key starts at the beginning. -/
theorem accept_of_key {boxOpen : List UInt8 → List UInt8 → Option κ} {first : Option Incoming}
    (h : accept coding boxOpen first = .ok c) (hkey : c.key = some key) :
    c = ⟨some key, none, 0, 0⟩ := by
  unfold accept at h
  repeat' split at h
  all_goals cases h
  · cases hkey
    rfl
  · cases hkey

/-! ## One direction -/

/-- The frames of some messages, up to the first one that cannot be sent. -/
def sendAll (coding : Coding μ) (box : SecretBox κ) : SecureFramed κ μ → List μ → List (List UInt8)
  | _, [] => []
  | c, message :: messages =>
    match sendMessage coding box c message with
    | (.ok frame, c) => frame :: sendAll coding box c messages
    | (.error _, _) => []

/-- What some frames hand over, up to the first one that is refused. -/
def receiveAll (coding : Coding μ) (box : SecretBox κ) :
    SecureFramed κ μ → List (List UInt8) → List μ
  | _, [] => []
  | c, frame :: frames =>
    match nextMessage coding box c (.frame frame) with
    | (.ok (some message), c) => message :: receiveAll coding box c frames
    | _ => []

/-- **What is sent is received**, all of it and in order, with a key or without one, by a side that
has received as many messages as the other has sent. -/
theorem receiveAll_sendAll {d : SecureFramed κ μ} {messages : List μ}
    (hlong : ∀ key nonce plaintext, 16 ≤ (box.easy key nonce plaintext).length)
    (hcoding : ∀ m ∈ messages, coding.decode (coding.encode m) = some m) (hkey : d.key = c.key)
    (hpending : d.pendingPlaintext = none) (hsequence : d.receiveSequence = c.sendSequence)
    (hroom : c.sendSequence + messages.length < 2 ^ 64) :
    receiveAll coding box d (sendAll coding box c messages) = messages := by
  induction messages generalizing c d with
  | nil => rfl
  | cons m messages ih =>
    obtain ⟨hm, hrest⟩ := List.forall_mem_cons.mp hcoding
    rw [List.length_cons] at hroom
    cases hk : c.key with
    | none =>
      rw [hk] at hkey
      simp only [sendAll, sendMessage, hk, receiveAll, nextMessage, hpending, hkey, hm]
      rw [ih hrest (hkey.trans hk.symm) hpending hsequence (by omega)]
    | some key =>
      rw [hk] at hkey
      have hadd : checkedAdd c.sendSequence = some (c.sendSequence + 1) := if_pos (by omega)
      simp only [sendAll, sendMessage, hk, hadd, receiveAll, nextMessage, hpending, hkey,
        hsequence, if_neg (Nat.not_lt.mpr (hlong ..)), box.open_easy, hm]
      exact congrArg (m :: ·) (ih hrest rfl rfl rfl (by dsimp only; omega))

end RemoteControl.Protocol
