import RemoteControl.Lib.LittleEndian
import RemoteControl.Lib.StreamDecoder

/-!
# Frames of the rendezvous protocol

`BytesCodec` of `art-core/protocol/codec.rs`. A frame is its bytes after a header of one to four
bytes: the length, shifted left by two, with the number of further header bytes in the two lowest
bits. `Framed` adds what it reads to a buffer and calls `decode` until it gets nothing.

> The decoder remembers the length between two calls, and nothing else.
-/

namespace RemoteControl.Protocol

open Lib List

variable {f rest source : List UInt8} {length maxPacketLength n tag : Nat} {s' : Option Nat}

inductive CodecError
  | exceedsLimit | lengthOverflow
deriving DecidableEq, Repr

/-! ## Encoding -/

/-- The header, by the width of the length. -/
def header (length : Nat) : Option (List UInt8) :=
  if length ≤ 0x3f then some (leBytes 1 (length <<< 2))
  else if length ≤ 0x3fff then some (leBytes 2 (length <<< 2 ||| 1))
  else if length ≤ 0x3fffff then
    let header := length <<< 2 ||| 2
    some (leBytes 2 (header &&& 0xffff) ++ leBytes 1 (header >>> 16))
  else if length ≤ 0x3fffffff then some (leBytes 4 (length <<< 2 ||| 3))
  else none

/-- `encode`; what it adds to the target. -/
def encode (maxPacketLength : Nat) (data : List UInt8) : Except CodecError (List UInt8) :=
  if maxPacketLength < data.length then .error .exceedsLimit
  else
    match header data.length with
    | none => .error .lengthOverflow
    | some header => .ok (header ++ data)

/-! ## Decoding -/

/-- The length that a header gives, and what follows it. -/
def header? (source : List UInt8) : Option (Nat × List UInt8) := match source with
  | [] => none
  | first :: _ =>
    let headerLength := ((first &&& 3) + 1).toNat
    if source.length < headerLength then none
    else some (orBytes 0 0 (source.take headerLength) >>> 2, source.drop headerLength)

/-- The end of `decode`, where the length is known. -/
def splitTo (length : Nat) (source : List UInt8) :
    Decoded UInt8 (Option Nat) (List UInt8) CodecError :=
  if source.length < length then .wait (some length) source
  else .frame (source.take length) none (source.drop length)

def decode (maxPacketLength : Nat) (expected : Option Nat) (source : List UInt8) :
    Decoded UInt8 (Option Nat) (List UInt8) CodecError :=
  match expected with
  | some length => splitTo length source
  | none =>
    match header? source with
    | none => .wait none source
    | some (length, rest) =>
      if maxPacketLength < length then .failed .exceedsLimit else splitTo length rest

/-! ## The laws of a decoder -/

theorem headerLength_eq (b : UInt8) : ((b &&& 3) + 1).toNat = b.toNat % 4 + 1 := by
  have hand : (b &&& 3).toNat = b.toNat % 4 := by
    rw [UInt8.toNat_and]
    exact Nat.and_two_pow_sub_one_eq_mod b.toNat 2
  rw [UInt8.toNat_add, hand]
  show (b.toNat % 4 + 1) % 256 = b.toNat % 4 + 1
  omega

section

section

variable (h : header? source = some (length, rest))

include h

theorem header?_some :
    ∃ first tail, source = first :: tail ∧ first.toNat % 4 + 1 ≤ source.length ∧
      length = leNat (source.take (first.toNat % 4 + 1)) / 4 ∧
      rest = source.drop (first.toNat % 4 + 1) := by
  cases source with
  | nil => cases h
  | cons first tail =>
    dsimp only [header?] at h
    rw [headerLength_eq] at h
    split at h
    · cases h
    · next hlong =>
      obtain ⟨rfl, rfl⟩ := Prod.mk.inj (Option.some.inj h)
      refine ⟨first, tail, rfl, Nat.le_of_not_lt hlong, ?_, rfl⟩
      rw [orBytes_zero, Nat.shiftRight_eq_div_pow]

theorem length_lt_of_header? : rest.length < source.length := by
  obtain ⟨first, tail, -, hlong, -, rfl⟩ := header?_some h
  rw [length_drop]
  omega

theorem header?_append (more : List UInt8) :
    header? (source ++ more) = some (length, rest ++ more) := by
  cases source with
  | nil => cases h
  | cons first tail =>
    dsimp only [header?] at h
    split at h
    · cases h
    · next hlong =>
      obtain ⟨rfl, rfl⟩ := Prod.mk.inj (Option.some.inj h)
      have hle := Nat.le_of_not_lt hlong
      have hmore : ¬ (first :: tail ++ more).length < ((first &&& 3) + 1).toNat := by
        rw [length_append]
        omega
      have htake : (first :: tail ++ more).take ((first &&& 3) + 1).toNat = _ :=
        take_append_of_le_length hle
      rw [← htake, ← drop_append_of_le_length hle]
      exact if_neg hmore

end

end

theorem splitTo_frame (h : splitTo length source = .frame f s' rest) :
    length ≤ source.length ∧ f = source.take length ∧ s' = none ∧ rest = source.drop length := by
  unfold splitTo at h
  split at h
  · cases h
  · next hlong =>
    cases h
    exact ⟨Nat.le_of_not_lt hlong, rfl, rfl, rfl⟩

theorem splitTo_wait (h : splitTo length source = .wait s' rest) :
    s' = some length ∧ rest = source := by
  unfold splitTo at h
  split at h
  · cases h
    exact ⟨rfl, rfl⟩
  · cases h

theorem splitTo_append (h : splitTo length source = .frame f s' rest) (more : List UInt8) :
    splitTo length (source ++ more) = .frame f s' (rest ++ more) := by
  obtain ⟨hle, rfl, rfl, rfl⟩ := splitTo_frame h
  unfold splitTo
  rw [length_append, if_neg (by omega), take_append_of_le_length hle, drop_append_of_le_length hle]

theorem splitTo_ne_failed {why : CodecError} : splitTo length source ≠ .failed why := by
  unfold splitTo
  split
  · intro h
    cases h
  · intro h
    cases h

theorem decode_of_no_header (maxPacketLength : Nat) (h : header? source = none) :
    decode maxPacketLength none source = .wait none source := by
  unfold decode
  rw [h]

/-- What a call that has no length in mind finds, by what its header says. -/
theorem decode_none_eq (maxPacketLength : Nat) (h : header? source = some (length, rest)) :
    decode maxPacketLength none source
      = if maxPacketLength < length then .failed .exceedsLimit else splitTo length rest := by
  unfold decode
  rw [h]

/-- `BytesCodec` as a decoder of streams; a length in mind counts for one byte. -/
def bytesCodec (maxPacketLength : Nat) :
    StreamDecoder UInt8 (Option Nat) (List UInt8) CodecError where
  decode := decode maxPacketLength
  weight expected := if expected.isSome then 1 else 0
  shrinks {s l f s' rest} h := by
    cases s with
    | some length =>
      obtain ⟨-, -, rfl, rfl⟩ := splitTo_frame h
      show (l.drop length).length + 0 < l.length + 1
      rw [length_drop]
      omega
    | none =>
      cases hhead : header? l with
      | none =>
        rw [decode_of_no_header _ hhead] at h
        cases h
      | some p =>
        obtain ⟨length, body⟩ := p
        have hlt := length_lt_of_header? hhead
        rw [decode_none_eq _ hhead] at h
        split at h
        · cases h
        obtain ⟨-, -, rfl, rfl⟩ := splitTo_frame h
        show (body.drop length).length + 0 < l.length + 0
        rw [length_drop]
        omega
  frame_append {s l f s' rest} h more := by
    cases s with
    | some length => exact splitTo_append h more
    | none =>
      cases hhead : header? l with
      | none =>
        rw [decode_of_no_header _ hhead] at h
        cases h
      | some p =>
        obtain ⟨length, body⟩ := p
        rw [decode_none_eq _ hhead] at h
        rw [decode_none_eq _ (header?_append hhead more)]
        split at h
        · cases h
        · next hmax =>
          rw [if_neg hmax]
          exact splitTo_append h more
  failed_append {s l why} h more := by
    cases s with
    | some length => exact absurd h splitTo_ne_failed
    | none =>
      cases hhead : header? l with
      | none =>
        rw [decode_of_no_header _ hhead] at h
        cases h
      | some p =>
        obtain ⟨length, body⟩ := p
        rw [decode_none_eq _ hhead] at h
        rw [decode_none_eq _ (header?_append hhead more)]
        split at h
        · next hmax => rw [if_pos hmax, h]
        · exact absurd h splitTo_ne_failed
  wait_append {s l s' rest} h more := by
    cases s with
    | some length =>
      obtain ⟨rfl, rfl⟩ := splitTo_wait h
      rfl
    | none =>
      cases hhead : header? l with
      | none =>
        rw [decode_of_no_header _ hhead] at h
        cases h
        rfl
      | some p =>
        obtain ⟨length, body⟩ := p
        rw [decode_none_eq _ hhead] at h
        rw [decode_none_eq _ (header?_append hhead more)]
        split at h
        · cases h
        · next hmax =>
          obtain ⟨rfl, rfl⟩ := splitTo_wait h
          exact if_neg hmax

/-! ## Headers -/

theorem leBytes_three (n : Nat) :
    leBytes 2 (n &&& 0xffff) ++ leBytes 1 (n >>> 16) = leBytes 3 n := by
  have hmask : n &&& 0xffff = n % 65536 := Nat.and_two_pow_sub_one_eq_mod n 16
  have hlow : UInt8.ofNat (n % 65536) = UInt8.ofNat n := by
    apply UInt8.toNat_inj.mp
    rw [UInt8.toNat_ofNat', UInt8.toNat_ofNat']
    omega
  have hmiddle : UInt8.ofNat ((n % 65536) >>> 8) = UInt8.ofNat (n >>> 8) := by
    apply UInt8.toNat_inj.mp
    rw [UInt8.toNat_ofNat', UInt8.toNat_ofNat', Nat.shiftRight_eq_div_pow,
      Nat.shiftRight_eq_div_pow]
    omega
  rw [hmask]
  show [UInt8.ofNat (n % 65536), UInt8.ofNat ((n % 65536) >>> 8), UInt8.ofNat (n >>> 16)]
    = [UInt8.ofNat n, UInt8.ofNat (n >>> 8), UInt8.ofNat (n >>> 8 >>> 8)]
  rw [hlow, hmiddle, ← Nat.shiftRight_add]

theorem shiftLeft_two_or (n : Nat) (h : tag < 4) : n <<< 2 ||| tag = 4 * n + tag := by
  rw [Nat.shiftLeft_eq, Nat.mul_comm]
  exact (Nat.two_pow_add_eq_or_of_lt (i := 2) h n).symm

/-- A header of `tag + 1` bytes is the length with its tag, and there is room for it. -/
theorem header_cases (h : n < 2 ^ 30) :
    ∃ tag < 4, header n = some (leBytes (tag + 1) (4 * n + tag)) ∧
      4 * n + tag < 256 ^ (tag + 1) := by
  unfold header
  split
  · next hn => exact ⟨0, by decide, by rw [Nat.shiftLeft_eq, Nat.mul_comm]; rfl, by omega⟩
  split
  · next hn => exact ⟨1, by decide, by rw [shiftLeft_two_or n (by decide)], by omega⟩
  split
  · next hn =>
    refine ⟨2, by decide, ?_, by omega⟩
    dsimp only
    rw [leBytes_three, shiftLeft_two_or n (by decide)]
  split
  · next hn => exact ⟨3, by decide, by rw [shiftLeft_two_or n (by decide)], by omega⟩
  · next hn => omega

theorem leBytes_first (tag n : Nat) :
    ∃ tail, leBytes (tag + 1) (4 * n + tag) = UInt8.ofNat (4 * n + tag) :: tail := ⟨_, rfl⟩

theorem tag_of_first (n : Nat) (h : tag < 4) : (UInt8.ofNat (4 * n + tag)).toNat % 4 = tag := by
  rw [UInt8.toNat_ofNat']
  omega

theorem header?_whole {first : UInt8} {tail : List UInt8} (more : List UInt8)
    (h : (first :: tail).length = first.toNat % 4 + 1) :
    header? (first :: tail ++ more) = some (leNat (first :: tail) / 4, more) := by
  have hlong : ¬ (first :: tail ++ more).length < first.toNat % 4 + 1 := by
    rw [length_append]
    omega
  show (if (first :: tail ++ more).length < ((first &&& 3) + 1).toNat then none else
    some (orBytes 0 0 ((first :: tail ++ more).take ((first &&& 3) + 1).toNat) >>> 2,
      (first :: tail ++ more).drop ((first &&& 3) + 1).toNat)) = _
  rw [headerLength_eq, if_neg hlong, ← h, take_left, drop_left, orBytes_zero,
    Nat.shiftRight_eq_div_pow]

theorem header?_leBytes (htag : tag < 4) (hroom : 4 * n + tag < 256 ^ (tag + 1))
    (more : List UInt8) : header? (leBytes (tag + 1) (4 * n + tag) ++ more) = some (n, more) := by
  have hlength := length_leBytes (tag + 1) (4 * n + tag)
  have hnat := leNat_leBytes_of_lt hroom
  obtain ⟨tail, hfirst⟩ := leBytes_first tag n
  rw [hfirst] at hlength hnat ⊢
  rw [header?_whole more (hlength.trans (by rw [tag_of_first n htag])), hnat]
  congr 2
  omega

/-- In less than a header nothing is found. -/
theorem header?_part (htag : tag < 4) {p : List UInt8}
    (hp : p <+: leBytes (tag + 1) (4 * n + tag)) (hshort : p.length < tag + 1) :
    header? p = none := by
  cases p with
  | nil => rfl
  | cons first tail =>
    obtain ⟨rest, hfirst⟩ := leBytes_first tag n
    rw [hfirst] at hp
    obtain ⟨rfl, -⟩ := cons_prefix_cons.mp hp
    dsimp only [header?]
    rw [headerLength_eq, tag_of_first n htag]
    exact if_pos hshort

/-! ## Streams -/

def wire (data : List UInt8) : List UInt8 := (header data.length).getD [] ++ data

theorem encode_eq_wire {data : List UInt8} (hmax : data.length ≤ maxPacketLength)
    (hlen : data.length < 2 ^ 30) : encode maxPacketLength data = .ok (wire data) := by
  obtain ⟨tag, -, hheader, -⟩ := header_cases hlen
  unfold encode wire
  rw [if_neg (Nat.not_lt.mpr hmax), hheader]
  rfl

theorem decode_header (htag : tag < 4) (hroom : 4 * n + tag < 256 ^ (tag + 1))
    (hmax : n ≤ maxPacketLength) (more : List UInt8) :
    decode maxPacketLength none (leBytes (tag + 1) (4 * n + tag) ++ more) = splitTo n more := by
  rw [decode_none_eq _ (header?_leBytes htag hroom more), if_neg (Nat.not_lt.mpr hmax)]

theorem bytesCodec_encodes (maxPacketLength : Nat) :
    (bytesCodec maxPacketLength).Encodes none wire
      fun data => data.length ≤ maxPacketLength ∧ data.length < 2 ^ 30 where
  nil := rfl
  whole data hvalid more := by
    obtain ⟨hmax, hlen⟩ := hvalid
    obtain ⟨tag, htag, hheader, hroom⟩ := header_cases hlen
    show decode maxPacketLength none _ = _
    rw [wire, hheader, Option.getD_some, append_assoc, decode_header htag hroom hmax, splitTo,
      if_neg, take_left, drop_left]
    rw [length_append]
    omega
  part data hvalid p hp hne := by
    obtain ⟨hmax, hlen⟩ := hvalid
    obtain ⟨tag, htag, hheader, hroom⟩ := header_cases hlen
    rw [wire, hheader, Option.getD_some] at hp hne
    show ∃ s l, decode maxPacketLength none p = _
    have hlength := length_leBytes (tag + 1) (4 * data.length + tag)
    rcases prefix_or_prefix_of_prefix hp (prefix_append _ _) with hin | hover
    · by_cases hshort : p.length < tag + 1
      · exact ⟨_, _, decode_of_no_header _ (header?_part htag hin hshort)⟩
      · -- the header alone: only an empty frame would be complete
        obtain rfl := hin.eq_of_length (by have := hin.length_le; omega)
        have hdata : data ≠ [] := fun hdata => hne (by rw [hdata, append_nil])
        have hpos := length_pos_iff.mpr hdata
        refine ⟨some data.length, [], ?_⟩
        have hnil := decode_header htag hroom hmax []
        rw [append_nil] at hnil
        rw [hnil]
        exact if_pos hpos
    · obtain ⟨q, rfl⟩ := hover
      have hq : q <+: data := (prefix_append_right_inj _).mp hp
      have hlt : q.length < data.length := by
        refine Nat.lt_of_le_of_ne hq.length_le fun heq => hne ?_
        rw [hq.eq_of_length heq]
      refine ⟨some data.length, q, ?_⟩
      rw [decode_header htag hroom hmax]
      exact if_pos hlt

/-- A length in mind is within the limit. -/
def Limited (maxPacketLength : Nat) (expected : Option Nat) : Prop :=
  ∀ length, expected = some length → length ≤ maxPacketLength

theorem splitTo_limited (h : length ≤ maxPacketLength)
    (hs : splitTo length source = .frame f s' rest) :
    f.length ≤ maxPacketLength ∧ Limited maxPacketLength s' := by
  obtain ⟨-, rfl, rfl, -⟩ := splitTo_frame hs
  refine ⟨?_, nofun⟩
  rw [length_take]
  omega

theorem drain_limited (maxPacketLength : Nat) {expected : Option Nat}
    (h : Limited maxPacketLength expected) (source : List UInt8) :
    ∀ f ∈ ((bytesCodec maxPacketLength).drain expected source).1, f.length ≤ maxPacketLength := by
  refine (StreamDecoder.forall_mem_drain (I := Limited maxPacketLength)
    (P := fun f : List UInt8 => f.length ≤ maxPacketLength) ?_ ?_ h source).1
  · intro s l s' rest hs hwait
    replace hwait : decode maxPacketLength s l = .wait s' rest := hwait
    cases s with
    | some length =>
      obtain ⟨rfl, -⟩ := splitTo_wait hwait
      exact hs
    | none =>
      cases hhead : header? l with
      | none =>
        rw [decode_of_no_header _ hhead] at hwait
        cases hwait
        exact hs
      | some p =>
        rw [decode_none_eq _ hhead] at hwait
        split at hwait
        · cases hwait
        · next hmax =>
          obtain ⟨rfl, -⟩ := splitTo_wait hwait
          intro length hl
          cases hl
          exact Nat.le_of_not_lt hmax
  · intro s l f s' rest hs hframe
    replace hframe : decode maxPacketLength s l = .frame f s' rest := hframe
    cases s with
    | some length => exact splitTo_limited (hs length rfl) hframe
    | none =>
      cases hhead : header? l with
      | none =>
        rw [decode_of_no_header _ hhead] at hframe
        cases hframe
      | some p =>
        rw [decode_none_eq _ hhead] at hframe
        split at hframe
        · cases hframe
        · next hmax => exact splitTo_limited (Nat.le_of_not_lt hmax) hframe

/-- The frames that a new decoder has returned after these chunks, and its state. -/
def received (maxPacketLength : Nat) (chunks : List (List UInt8)) :
    StreamDecoder.Reading UInt8 (Option Nat) (List UInt8) CodecError :=
  chunks.foldl (bytesCodec maxPacketLength).feed ([], .ok (none, []))

theorem received_eq_drain (maxPacketLength : Nat) (chunks : List (List UInt8)) :
    received maxPacketLength chunks = (bytesCodec maxPacketLength).drain none chunks.flatten := by
  have hwaits : (bytesCodec maxPacketLength).Waits ([], .ok (none, [])) := by
    intro s l h
    obtain ⟨rfl, rfl⟩ := Prod.mk.inj (Except.ok.inj h)
    rfl
  rw [received, StreamDecoder.foldl_feed hwaits]
  rfl

/-- **Frames come out as they went in**, however the stream is cut: all of them, in order, with
nothing left; none before its last byte; and of any bytes at all, none above the limit. -/
theorem frames_received (maxPacketLength : Nat) :
    (∀ frames : List (List UInt8),
      (∀ f ∈ frames, f.length ≤ maxPacketLength ∧ f.length < 2 ^ 30) →
      (∀ f ∈ frames, encode maxPacketLength f = .ok (wire f)) ∧
      (∀ chunks : List (List UInt8), chunks.flatten = frames.flatMap wire →
        received maxPacketLength chunks = (frames, .ok (none, []))) ∧
      ∀ chunks : List (List UInt8), chunks.flatten <+: frames.flatMap wire →
        ∃ k ≤ frames.length, (received maxPacketLength chunks).1 = frames.take k ∧
          (frames.take k).flatMap wire <+: chunks.flatten ∧
          (k < frames.length → ¬ (frames.take (k + 1)).flatMap wire <+: chunks.flatten)) ∧
    ∀ chunks : List (List UInt8), ∀ f ∈ (received maxPacketLength chunks).1,
      f.length ≤ maxPacketLength := by
  have hcodec := bytesCodec_encodes maxPacketLength
  refine ⟨fun frames hframes => ⟨?_, ?_, ?_⟩, fun chunks => ?_⟩
  · intro f hf
    exact encode_eq_wire (hframes f hf).1 (hframes f hf).2
  · intro chunks hchunks
    rw [received_eq_drain, hchunks]
    exact hcodec.drain hframes
  · intro chunks hchunks
    rw [received_eq_drain]
    exact hcodec.complete hframes hchunks
  · rw [received_eq_drain]
    exact drain_limited maxPacketLength (fun _ h => by cases h) _

/-- Two frames, of which the second has a header of two bytes, cut inside that header. -/
theorem frames_received_cut :
    (received 100 [[4, 9, 1], 1 :: List.replicate 64 7]) =
      ([[9], List.replicate 64 7], .ok (none, [])) := by
  have hframes : ∀ f ∈ [[9], List.replicate 64 (7 : UInt8)], f.length ≤ 100 ∧ f.length < 2 ^ 30 := by
    intro f hf
    simp only [mem_cons, not_mem_nil, or_false] at hf
    rcases hf with rfl | rfl <;> simp
  exact ((frames_received 100).1 _ hframes).2.1 _ (by decide)

end RemoteControl.Protocol
