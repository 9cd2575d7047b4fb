import Mathlib.Algebra.Group.Nat.Defs
import Mathlib.Data.List.Basic

/-!
# Numbers as bytes, the lowest first

`leBytes k n` are the lowest `k` bytes of `n`, and `leNat` is the number that bytes stand for. A
reader that shifts each byte to its place and joins them with *or* adds them, since the places do
not overlap.
-/

namespace RemoteControl.Lib

def leBytes : Nat → Nat → List UInt8
  | 0, _ => []
  | k + 1, n => UInt8.ofNat n :: leBytes k (n >>> 8)

def leNat : List UInt8 → Nat
  | [] => 0
  | b :: l => b.toNat + 256 * leNat l

theorem length_leBytes (k n : Nat) : (leBytes k n).length = k := by
  induction k generalizing n with
  | zero => rfl
  | succ k ih => exact congrArg (· + 1) (ih (n >>> 8))

theorem leNat_lt (l : List UInt8) : leNat l < 256 ^ l.length := by
  induction l with
  | nil => exact Nat.one_pos
  | cons b l ih =>
    have hb := b.toNat_lt
    rw [leNat, List.length_cons, Nat.pow_succ]
    omega

theorem leNat_leBytes (k n : Nat) : leNat (leBytes k n) = n % 256 ^ k := by
  induction k generalizing n with
  | zero => rw [Nat.pow_zero, Nat.mod_one]; rfl
  | succ k ih =>
    rw [leBytes, leNat, ih, UInt8.toNat_ofNat', Nat.shiftRight_eq_div_pow]
    show n % 256 + 256 * (n / 256 % 256 ^ k) = n % 256 ^ (k + 1)
    rw [Nat.pow_succ', Nat.mod_mul]

theorem leNat_leBytes_of_lt {k n : Nat} (h : n < 256 ^ k) : leNat (leBytes k n) = n := by
  rw [leNat_leBytes, Nat.mod_eq_of_lt h]

theorem leBytes_leNat (l : List UInt8) : leBytes l.length (leNat l) = l := by
  induction l with
  | nil => rfl
  | cons b l ih =>
    have hb := b.toNat_lt
    rw [List.length_cons, leNat, leBytes, Nat.shiftRight_eq_div_pow]
    have hhead : UInt8.ofNat (b.toNat + 256 * leNat l) = b := by
      apply UInt8.toNat_inj.mp
      rw [UInt8.toNat_ofNat']
      omega
    have htail : (b.toNat + 256 * leNat l) / 2 ^ 8 = leNat l := by omega
    rw [hhead, htail, ih]

/-- Zero bytes at the end make no difference. -/
theorem leNat_append_replicate (l : List UInt8) (k : Nat) :
    leNat (l ++ List.replicate k 0) = leNat l := by
  induction l with
  | nil =>
    induction k with
    | zero => rfl
    | succ k ih =>
      rw [List.nil_append] at ih ⊢
      show 0 + 256 * leNat (List.replicate k 0) = 0
      rw [ih]
      rfl
  | cons b l ih => rw [List.cons_append, leNat, leNat, ih]

/-- The reader: `acc` are the bytes before the `i`-th one. -/
def orBytes : Nat → Nat → List UInt8 → Nat
  | _, acc, [] => acc
  | i, acc, b :: l => orBytes (i + 1) (acc ||| b.toNat <<< (i * 8)) l

theorem orBytes_eq {i acc : Nat} (l : List UInt8) (h : acc < 2 ^ (i * 8)) :
    orBytes i acc l = acc + 2 ^ (i * 8) * leNat l := by
  induction l generalizing i acc with
  | nil => rfl
  | cons b l ih =>
    have hb := b.toNat_lt
    have hplace : acc ||| b.toNat <<< (i * 8) = acc + 2 ^ (i * 8) * b.toNat := by
      rw [Nat.shiftLeft_eq, Nat.or_comm, Nat.mul_comm b.toNat, ← Nat.two_pow_add_eq_or_of_lt h]
      exact Nat.add_comm _ _
    have hpow : 2 ^ ((i + 1) * 8) = 2 ^ (i * 8) * 256 := by
      rw [Nat.succ_mul, Nat.pow_add]
    have hlt : acc + 2 ^ (i * 8) * b.toNat < 2 ^ ((i + 1) * 8) := by
      rw [hpow]
      have hle : 2 ^ (i * 8) * b.toNat ≤ 2 ^ (i * 8) * 255 := Nat.mul_le_mul_left _ (by omega)
      omega
    rw [orBytes, hplace, ih hlt, hpow, leNat, Nat.mul_add, Nat.mul_assoc, Nat.add_assoc]

theorem orBytes_zero (l : List UInt8) : orBytes 0 0 l = leNat l := by
  rw [orBytes_eq l (by decide)]
  omega

end RemoteControl.Lib
