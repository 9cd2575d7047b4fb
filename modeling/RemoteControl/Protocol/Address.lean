import Mathlib.Data.List.DropRight
import RemoteControl.Lib.LittleEndian

/-!
# Socket addresses on the wire

`encode_socket_addr` of `art-core/protocol/mod.rs`. An IPv6 address is sent as it is. An IPv4
address is hidden behind a salt, the clock's microseconds, in one number of 128 bits, of which the
zero bytes at the end are not sent:

> the sum of address and salt from bit 49 on, the salt in the 32 bits below, and the sum of port and
> the salt's lower half in the lowest 17.

The repository has no decoder. `decodeSocketAddr` is the rule of the clients.
-/

namespace RemoteControl.Protocol

open Lib List

abbrev Octets (n : Nat) := { l : List UInt8 // l.length = n }

inductive SocketAddr
  | v4 (ip : Octets 4) (port : UInt16)
  | v6 (ip : Octets 16) (port : UInt16) (flowinfo scopeId : UInt32)

/-- `::1`. -/
def isLoopback (ip : Octets 16) : Bool := ip.val = List.replicate 15 0 ++ [1]

/-- `to_ipv4`: addresses `::a.b.c.d` and `::ffff:a.b.c.d`. -/
def toIpv4 (ip : Octets 16) : Option (Octets 4) :=
  if ip.val.take 10 = List.replicate 10 0 ∧
      ((ip.val.drop 10).take 2 = [0, 0] ∨ (ip.val.drop 10).take 2 = [0xff, 0xff]) then
    some ⟨ip.val.drop 12, by rw [length_drop, ip.property]⟩
  else none

/-- The address that is encoded. -/
def unmapped : SocketAddr → SocketAddr
  | .v4 ip port => .v4 ip port
  | .v6 ip port flowinfo scopeId =>
    if isLoopback ip then .v6 ip port flowinfo scopeId
    else
      match toIpv4 ip with
      | some ip4 => .v4 ip4 port
      | none => .v6 ip port flowinfo scopeId

/-- The number that stands for an IPv4 address. -/
def packed (salt : UInt32) (ip : Octets 4) (port : UInt16) : Nat :=
  (leNat ip.val + salt.toNat) <<< 49 ||| salt.toNat <<< 17
    ||| (port.toNat + (salt.toNat &&& 0xffff))

/-- `bytes[..length]`, up to the last byte that is not zero. -/
def trimZeros (bytes : List UInt8) : List UInt8 := bytes.rdropWhile (· = 0)

def encodeSocketAddr (salt : UInt32) (address : SocketAddr) : List UInt8 :=
  match unmapped address with
  | .v4 ip port => trimZeros (leBytes 16 (packed salt ip port))
  | .v6 ip port _ _ => ip.val ++ leBytes 2 port.toNat

/-- How a client reads an address: its octets and the port. The differences are not negative in
what was encoded; otherwise there is no address. -/
def decodeSocketAddr (bytes : List UInt8) : Option (List UInt8 × Nat) :=
  if bytes.length = 18 then some (bytes.take 16, leNat (bytes.drop 16))
  else
    let n := leNat (bytes ++ List.replicate (16 - bytes.length) 0)
    let t := (n >>> 17) % 2 ^ 32
    if n >>> 49 < t ∨ n % 2 ^ 24 < t % 2 ^ 16 then none
    else some (leBytes 4 (n >>> 49 - t), (n % 2 ^ 24 - t % 2 ^ 16) % 2 ^ 16)

/-! ## The packed number -/

/-- The three fields do not overlap. -/
theorem packed_eq (salt : UInt32) (ip : Octets 4) (port : UInt16) :
    packed salt ip port
      = (leNat ip.val + salt.toNat) * 2 ^ 49 + salt.toNat * 2 ^ 17
        + (port.toNat + salt.toNat % 2 ^ 16) := by
  have hport := port.toNat_lt
  have hsalt := salt.toNat_lt
  have hmask : salt.toNat &&& 0xffff = salt.toNat % 2 ^ 16 :=
    Nat.and_two_pow_sub_one_eq_mod salt.toNat 16
  have hlow : port.toNat + salt.toNat % 2 ^ 16 < 2 ^ 17 := by omega
  have hmiddle : salt.toNat <<< 17 < 2 ^ 49 := by
    rw [Nat.shiftLeft_eq]
    omega
  unfold packed
  rw [hmask, Nat.shiftLeft_eq (leNat ip.val + salt.toNat), Nat.mul_comm _ (2 ^ 49),
    ← Nat.two_pow_add_eq_or_of_lt hmiddle, Nat.shiftLeft_eq]
  have hsplit : 2 ^ 49 * (leNat ip.val + salt.toNat) + salt.toNat * 2 ^ 17
      = 2 ^ 17 * (2 ^ 32 * (leNat ip.val + salt.toNat) + salt.toNat) := by omega
  rw [hsplit, ← Nat.two_pow_add_eq_or_of_lt hlow, ← hsplit, Nat.mul_comm (2 ^ 49)]

theorem leNat_ip_lt (ip : Octets 4) : leNat ip.val < 2 ^ 32 := by
  have h := leNat_lt ip.val
  rwa [ip.property] at h

theorem packed_lt (salt : UInt32) (ip : Octets 4) (port : UInt16) :
    packed salt ip port < 256 ^ 11 := by
  have hport := port.toNat_lt
  have hsalt := salt.toNat_lt
  have hip := leNat_ip_lt ip
  rw [packed_eq]
  omega

/-! ## Trimming -/

theorem trimZeros_append (bytes : List UInt8) :
    ∃ k, trimZeros bytes ++ List.replicate k 0 = bytes := by
  induction bytes using List.reverseRecOn with
  | nil => exact ⟨0, rfl⟩
  | append_singleton bytes b ih =>
    obtain ⟨k, hk⟩ := ih
    by_cases hb : b = 0
    · refine ⟨k + 1, ?_⟩
      have htrim : trimZeros (bytes ++ [b]) = trimZeros bytes :=
        rdropWhile_concat_pos _ _ _ (decide_eq_true hb)
      rw [htrim, replicate_succ', ← append_assoc, hk, hb]
    · refine ⟨0, ?_⟩
      have htrim : trimZeros (bytes ++ [b]) = bytes ++ [b] :=
        rdropWhile_concat_neg _ _ _ (by simpa using hb)
      rw [htrim]
      exact append_nil _

/-- Filled up with zeros again, the bytes stand for the same number. -/
theorem leNat_trimZeros (bytes : List UInt8) (k : Nat) :
    leNat (trimZeros bytes ++ List.replicate k 0) = leNat bytes := by
  obtain ⟨j, hj⟩ := trimZeros_append bytes
  rw [leNat_append_replicate, ← leNat_append_replicate _ j, hj]

theorem length_trimZeros_le (bytes : List UInt8) : (trimZeros bytes).length ≤ bytes.length := by
  obtain ⟨j, hj⟩ := trimZeros_append bytes
  have hlength := congrArg List.length hj
  rw [length_append] at hlength
  omega

/-! ## Round trips -/

theorem length_encode_v4 (salt : UInt32) (ip : Octets 4) (port : UInt16) :
    (trimZeros (leBytes 16 (packed salt ip port))).length ≤ 16 := by
  have h := length_trimZeros_le (leBytes 16 (packed salt ip port))
  rwa [length_leBytes] at h

/-- The fields are read back. Of the lowest 24 bits, seven are the salt's. -/
theorem packed_fields (salt : UInt32) (ip : Octets 4) (port : UInt16) :
    packed salt ip port / 2 ^ 49 = leNat ip.val + salt.toNat ∧
      packed salt ip port / 2 ^ 17 % 2 ^ 32 = salt.toNat ∧
      packed salt ip port % 2 ^ 24
        = port.toNat + salt.toNat % 2 ^ 16 + salt.toNat % 2 ^ 7 * 2 ^ 17 := by
  have hport := port.toNat_lt
  have hsalt := salt.toNat_lt
  have hmiddle : packed salt ip port / 2 ^ 17
      = (leNat ip.val + salt.toNat) * 2 ^ 32 + salt.toNat := by
    rw [packed_eq]
    omega
  refine ⟨?_, ?_, ?_⟩
  · rw [packed_eq]
    omega
  · rw [hmiddle]
    omega
  · rw [packed_eq]
    omega

theorem decode_v4 (salt : UInt32) (ip : Octets 4) (port : UInt16) :
    decodeSocketAddr (trimZeros (leBytes 16 (packed salt ip port)))
      = some (ip.val, port.toNat) := by
  have hlength := length_encode_v4 salt ip port
  have hn : leNat (leBytes 16 (packed salt ip port)) = packed salt ip port :=
    leNat_leBytes_of_lt (Nat.lt_of_lt_of_le (packed_lt salt ip port) (by decide))
  obtain ⟨hhigh, ht, hlow⟩ := packed_fields salt ip port
  have hport := port.toNat_lt
  have hback : leNat ip.val + salt.toNat - salt.toNat = leNat ip.val := Nat.add_sub_cancel _ _
  have hbytes : leBytes 4 (leNat ip.val) = ip.val := by
    have h := leBytes_leNat ip.val
    rwa [ip.property] at h
  have hleft : (port.toNat + salt.toNat % 2 ^ 16 + salt.toNat % 2 ^ 7 * 2 ^ 17
      - salt.toNat % 2 ^ 16) % 2 ^ 16 = port.toNat := by omega
  unfold decodeSocketAddr
  rw [if_neg (by omega)]
  dsimp only
  rw [leNat_trimZeros, hn, Nat.shiftRight_eq_div_pow, Nat.shiftRight_eq_div_pow, ht, hhigh, hlow,
    if_neg (by omega), hback, hbytes, hleft]

theorem decode_v6 (ip : Octets 16) (port : UInt16) :
    decodeSocketAddr (ip.val ++ leBytes 2 port.toNat) = some (ip.val, port.toNat) := by
  have hlength : (ip.val ++ leBytes 2 port.toNat).length = 18 := by
    rw [length_append, ip.property, length_leBytes]
  have htake : (ip.val ++ leBytes 2 port.toNat).take 16 = ip.val := take_left' ip.property
  have hdrop : (ip.val ++ leBytes 2 port.toNat).drop 16 = leBytes 2 port.toNat :=
    drop_left' ip.property
  unfold decodeSocketAddr
  rw [if_pos hlength, htake, hdrop, leNat_leBytes_of_lt port.toNat_lt]

theorem toIpv4_of_embedded {ip : Octets 16} {ip4 : Octets 4} {mark : List UInt8}
    (hmark : mark = [0, 0] ∨ mark = [0xff, 0xff])
    (h : ip.val = List.replicate 10 0 ++ mark ++ ip4.val) : toIpv4 ip = some ip4 := by
  obtain ⟨bytes, hbytes⟩ := ip
  dsimp only at h
  subst h
  unfold toIpv4
  rcases hmark with rfl | rfl
  · exact if_pos ⟨rfl, .inl rfl⟩
  · exact if_pos ⟨rfl, .inr rfl⟩

/-- An address from which an IPv4 address is taken is one of the two forms. -/
theorem embedded_of_toIpv4 {ip : Octets 16} {ip4 : Octets 4} (h : toIpv4 ip = some ip4) :
    ∃ mark, (mark = [0, 0] ∨ mark = [0xff, 0xff]) ∧
      ip.val = List.replicate 10 0 ++ mark ++ ip4.val := by
  unfold toIpv4 at h
  split at h
  · next hform =>
    cases h
    refine ⟨(ip.val.drop 10).take 2, hform.2, ?_⟩
    have hdrop : (ip.val.drop 10).drop 2 = ip.val.drop 12 := drop_drop
    calc ip.val = ip.val.take 10 ++ ((ip.val.drop 10).take 2 ++ (ip.val.drop 10).drop 2) := by
          rw [take_append_drop, take_append_drop]
      _ = List.replicate 10 0 ++ (ip.val.drop 10).take 2 ++ ip.val.drop 12 := by
          rw [hform.1, hdrop, append_assoc]
  · cases h

/-- Every address comes back with its port, under every salt: an IPv4 address and an IPv6 address
that is `::1` or carries no IPv4 address as they are, any other IPv6 address as the IPv4 address it
carries. The length tells the two families apart. -/
theorem decode_encode_socket_addr (salt : UInt32) (port : UInt16) :
    (∀ ip : Octets 4,
      decodeSocketAddr (encodeSocketAddr salt (.v4 ip port)) = some (ip.val, port.toNat) ∧
        (encodeSocketAddr salt (.v4 ip port)).length < 18) ∧
    ∀ (ip : Octets 16) (flowinfo scopeId : UInt32),
      let encoded := encodeSocketAddr salt (.v6 ip port flowinfo scopeId)
      (∀ ip4 : Octets 4, isLoopback ip = false →
        (ip.val = List.replicate 10 0 ++ [0, 0] ++ ip4.val ∨
          ip.val = List.replicate 10 0 ++ [0xff, 0xff] ++ ip4.val) →
        decodeSocketAddr encoded = some (ip4.val, port.toNat) ∧ encoded.length < 18) ∧
      ((isLoopback ip = true ∨ ∀ ip4 : Octets 4,
        ip.val ≠ List.replicate 10 0 ++ [0, 0] ++ ip4.val ∧
          ip.val ≠ List.replicate 10 0 ++ [0xff, 0xff] ++ ip4.val) →
        decodeSocketAddr encoded = some (ip.val, port.toNat) ∧ encoded.length = 18) := by
  refine ⟨fun ip => ?_, fun ip flowinfo scopeId => ⟨?_, ?_⟩⟩
  · exact ⟨decode_v4 salt ip port, Nat.lt_of_le_of_lt (length_encode_v4 salt ip port) (by decide)⟩
  · intro ip4 hloop hform
    have hip4 : toIpv4 ip = some ip4 := by
      rcases hform with h | h
      · exact toIpv4_of_embedded (.inl rfl) h
      · exact toIpv4_of_embedded (.inr rfl) h
    have hseen : unmapped (.v6 ip port flowinfo scopeId) = .v4 ip4 port := by
      rw [unmapped, if_neg (by rw [hloop]; decide), hip4]
    dsimp only [encodeSocketAddr]
    rw [hseen]
    exact ⟨decode_v4 salt ip4 port, Nat.lt_of_le_of_lt (length_encode_v4 salt ip4 port) (by decide)⟩
  · intro hkept
    have hseen : unmapped (.v6 ip port flowinfo scopeId) = .v6 ip port flowinfo scopeId := by
      rw [unmapped]
      split
      · rfl
      · next hloop =>
        cases h : toIpv4 ip with
        | none => rfl
        | some ip4 =>
          obtain ⟨mark, rfl | rfl, hip⟩ := embedded_of_toIpv4 h
          · exact absurd hip ((hkept.resolve_left hloop) ip4).1
          · exact absurd hip ((hkept.resolve_left hloop) ip4).2
    dsimp only [encodeSocketAddr]
    rw [hseen]
    refine ⟨decode_v6 ip port, ?_⟩
    rw [length_append, ip.property, length_leBytes]

/-- `::ffff:192.0.2.1` and `::1`, both with port 21116. -/
theorem decode_encode_socket_addr_mapped :
    let mapped : Octets 16 := ⟨List.replicate 10 0 ++ [0xff, 0xff] ++ [192, 0, 2, 1], rfl⟩
    let loopback : Octets 16 := ⟨List.replicate 15 0 ++ [1], rfl⟩
    decodeSocketAddr (encodeSocketAddr 4000000000 (.v6 mapped 21116 0 0))
        = some ([192, 0, 2, 1], 21116) ∧
      decodeSocketAddr (encodeSocketAddr 4000000000 (.v6 loopback 21116 0 0))
        = some (List.replicate 15 0 ++ [1], 21116) :=
  ⟨(((decode_encode_socket_addr 4000000000 21116).2 _ 0 0).1 ⟨[192, 0, 2, 1], rfl⟩ (by decide)
      (.inr rfl)).1,
    (((decode_encode_socket_addr 4000000000 21116).2 _ 0 0).2 (.inl (by decide))).1⟩

end RemoteControl.Protocol
