import RemoteControl.Protocol.Codec

/-!
# The first frame of a relay connection

`read_frame` of `art-hbbr/main.rs` reads by exact counts: one byte, the rest of the header, the
bytes of the frame. It takes no byte from the socket that it does not need, and where bytes are
missing it waits with those it has. The codec of the rendezvous protocol takes whatever there is
into its buffer.

> While both wait, the buffer of the codec is what the reader has of the part it waits for.
-/

namespace RemoteControl.Hbbr

open Lib Protocol List

variable {first : UInt8} {got : List UInt8} {length n : Nat}

/-- Where `read_frame` stands, and what it has of the part that it waits for. -/
inductive FrameReader
  | start
  | header (first : UInt8) (got : List UInt8)
  | body (length : Nat) (got : List UInt8)
  | done (frame : List UInt8)
  | tooLarge
deriving DecidableEq, Repr

variable {w : FrameReader × List UInt8}

/-- `read_exact` for `n` bytes of which it has some: what it has now, and what is left. -/
def readExact (n : Nat) (got available : List UInt8) : List UInt8 × List UInt8 :=
  (got ++ available.take (n - got.length), available.drop (n - got.length))

namespace FrameReader

def readBody (length : Nat) (got available : List UInt8) : FrameReader × List UInt8 :=
  let frame := readExact length got available
  (if frame.1.length < length then .body length frame.1 else .done frame.1, frame.2)

def readHeader (first : UInt8) (got available : List UInt8) : FrameReader × List UInt8 :=
  let headerLength := ((first &&& 3) + 1).toNat
  let tail := readExact (headerLength - 1) got available
  if tail.1.length < headerLength - 1 then (.header first tail.1, tail.2)
  else
    let length := orBytes 0 0 (first :: tail.1) >>> 2
    if 1024 * 1024 < length then (.tooLarge, tail.2) else readBody length [] tail.2

/-- The reader goes as far as it gets with the bytes in the socket. -/
def read : FrameReader → List UInt8 → FrameReader × List UInt8
  | .start, [] => (.start, [])
  | .start, first :: available => readHeader first [] available
  | .header first got, available => readHeader first got available
  | .body length got, available => readBody length got available
  | .done frame, available => (.done frame, available)
  | .tooLarge, available => (.tooLarge, available)

def arrive (w : FrameReader × List UInt8) (chunk : List UInt8) : FrameReader × List UInt8 :=
  w.1.read (w.2 ++ chunk)

/-- A new reader, after these chunks. -/
def after (chunks : List (List UInt8)) : FrameReader × List UInt8 :=
  chunks.foldl arrive (.start, [])

/-- The reader, taken for a call of the decoder. -/
def asDecoded : FrameReader × List UInt8 → Decoded UInt8 (Option Nat) (List UInt8) CodecError
  | (.start, unread) => .wait none unread
  | (.header first got, unread) => .wait none (first :: got ++ unread)
  | (.body length got, unread) => .wait (some length) (got ++ unread)
  | (.done frame, unread) => .frame frame none unread
  | (.tooLarge, _) => .failed .exceedsLimit

/-- Something is missing, and nothing is left in the socket. -/
def Waits : FrameReader × List UInt8 → Prop
  | (.start, unread) => unread = []
  | (.header first got, unread) => got.length < first.toNat % 4 ∧ unread = []
  | (.body length got, unread) => got.length < length ∧ unread = []
  | (.done _, _) | (.tooLarge, _) => True

theorem readExact_eq (h : got.length ≤ n) (available : List UInt8) :
    readExact n got available = ((got ++ available).take n, (got ++ available).drop n) := by
  rw [readExact, take_append, drop_append, take_of_length_le h, drop_of_length_le h, nil_append]

theorem readBody_spec (h : got.length ≤ length) (available : List UInt8) :
    asDecoded (readBody length got available) = splitTo length (got ++ available) ∧
      Waits (readBody length got available) := by
  simp only [readBody, splitTo, readExact_eq h, length_take]
  by_cases hshort : (got ++ available).length < length
  · rw [if_pos hshort, if_pos (by omega), take_of_length_le (Nat.le_of_lt hshort),
      drop_of_length_le (Nat.le_of_lt hshort)]
    exact ⟨by rw [asDecoded, append_nil], hshort, rfl⟩
  · rw [if_neg hshort, if_neg (by omega)]
    exact ⟨rfl, trivial⟩

theorem readHeader_spec (h : got.length ≤ first.toNat % 4) (available : List UInt8) :
    asDecoded (readHeader first got available)
        = decode (1024 * 1024) none (first :: got ++ available) ∧
      Waits (readHeader first got available) := by
  unfold readHeader decode header?
  simp only [headerLength_eq, cons_append, length_cons, Nat.add_sub_cancel, readExact_eq h,
    take_succ_cons, drop_succ_cons, length_take, Nat.add_lt_add_iff_right]
  by_cases hshort : (got ++ available).length < first.toNat % 4
  · rw [if_pos hshort, if_pos (by omega), take_of_length_le (Nat.le_of_lt hshort),
      drop_of_length_le (Nat.le_of_lt hshort)]
    exact ⟨by rw [asDecoded, append_nil], hshort, rfl⟩
  · rw [if_neg hshort, if_neg (by omega)]
    dsimp only
    split
    · exact ⟨rfl, trivial⟩
    · exact readBody_spec (Nat.zero_le _) _

/-- The step lemma. -/
theorem arrive_spec (h : Waits w) (chunk : List UInt8) :
    asDecoded (arrive w chunk) = (bytesCodec (1024 * 1024)).next (asDecoded w) chunk ∧
      Waits (arrive w chunk) := by
  match w, h with
  | (.start, _), rfl =>
    cases chunk with
    | nil => exact ⟨rfl, rfl⟩
    | cons first available => exact readHeader_spec (Nat.zero_le _) available
  | (.header first got, _), ⟨hgot, rfl⟩ =>
    show _ = decode _ none (first :: got ++ [] ++ chunk) ∧ _
    rw [append_nil]
    exact readHeader_spec (Nat.le_of_lt hgot) chunk
  | (.body length got, _), ⟨hgot, rfl⟩ =>
    show _ = splitTo length (got ++ [] ++ chunk) ∧ _
    rw [append_nil]
    exact readBody_spec (Nat.le_of_lt hgot) chunk
  | (.done frame, unread), _ => exact ⟨rfl, trivial⟩
  | (.tooLarge, unread), _ => exact ⟨rfl, trivial⟩

/-- The run lemma. -/
theorem foldl_arrive_spec (h : Waits w) (chunks : List (List UInt8)) :
    asDecoded (chunks.foldl arrive w)
        = chunks.foldl (bytesCodec (1024 * 1024)).next (asDecoded w) ∧
      Waits (chunks.foldl arrive w) := by
  induction chunks generalizing w with
  | nil => exact ⟨rfl, h⟩
  | cons chunk chunks ih =>
    obtain ⟨hsame, hwaits⟩ := arrive_spec h chunk
    obtain ⟨hrest, hlast⟩ := ih hwaits
    rw [foldl_cons, foldl_cons, ← hsame]
    exact ⟨hrest, hlast⟩

end FrameReader

/-- **The reader and the codec.** However the bytes arrive, at every time the reader is where the
codec is, with the same bytes: both wait for the same, both have the same frame, or both have
refused the header. A frame follows its header, and what comes after it is still in the socket. -/
theorem read_frame_as_decode (chunks : List (List UInt8)) :
    FrameReader.asDecoded (FrameReader.after chunks)
      = chunks.foldl (bytesCodec (1024 * 1024)).next (.wait none []) ∧
    FrameReader.Waits (FrameReader.after chunks) ∧
    ∀ frame unread, FrameReader.after chunks = (.done frame, unread) →
      ∃ header, chunks.flatten = header ++ (frame ++ unread) ∧
        header? chunks.flatten = some (frame.length, frame ++ unread) := by
  obtain ⟨hsame, hwaits⟩ := FrameReader.foldl_arrive_spec (w := (.start, [])) rfl chunks
  refine ⟨hsame, hwaits, fun frame unread hafter => ?_⟩
  rw [show chunks.foldl FrameReader.arrive (.start, []) = _ from hafter] at hsame
  have hframe : decode (1024 * 1024) none chunks.flatten = .frame frame none unread :=
    (hsame.trans ((bytesCodec (1024 * 1024)).foldl_next none [] chunks)).symm
  cases hhead : header? chunks.flatten with
  | none =>
    rw [decode_of_no_header _ hhead] at hframe
    cases hframe
  | some p =>
    obtain ⟨length, body⟩ := p
    obtain ⟨first, tail, -, -, -, hbody⟩ := header?_some hhead
    rw [decode_none_eq _ hhead] at hframe
    split at hframe
    · cases hframe
    obtain ⟨hlong, rfl, -, rfl⟩ := splitTo_frame hframe
    rw [take_append_drop, length_take, Nat.min_eq_left hlong]
    exact ⟨chunks.flatten.take (first.toNat % 4 + 1), by rw [hbody, take_append_drop], rfl⟩

end RemoteControl.Hbbr
