import Mathlib.Algebra.GroupWithZero.Nat
import Mathlib.Algebra.Ring.Int.Defs
import Mathlib.Data.List.Basic

/-!
# JSON values and strict decoders

A JSON document as a tree, and decoders in the manner of a derived, strictly
typed deserialiser: a field that is absent is an error unless it has a default,
a field that is present must have its type, and `null` is a value of no type but
`option`. Fields nobody asks for are ignored.
-/

namespace RemoteControl.Lib

variable {n : Int} {β ε : Type}

/-- A number is its digits and its power of ten, as written. -/
inductive Json
  | null
  | bool (b : Bool)
  | num (mantissa exponent : Int)
  | str (s : String)
  | arr (items : List Json)
  | obj (fields : List (String × Json))

namespace Json

/-- A number written without fraction and exponent. -/
def int (n : Int) : Json := .num n 0

def strings (l : List String) : Json := .arr (l.map .str)

def get? (name : String) : Json → Option Json
  | .obj fields => (fields.find? fun f => f.1 = name).map Prod.snd
  | _ => none

@[simp] theorem get?_nil (name : String) : (Json.obj []).get? name = none := rfl

@[simp] theorem get?_cons (name n : String) (v : Json) (fields : List (String × Json)) :
    (Json.obj ((n, v) :: fields)).get? name
      = if n = name then some v else (Json.obj fields).get? name := by
  unfold get?
  by_cases h : n = name
  · simp [h]
  · simp [h]

theorem get?_append (name : String) (l l' : List (String × Json)) :
    (Json.obj (l ++ l')).get? name = ((Json.obj l).get? name).or ((Json.obj l').get? name) := by
  simp only [get?]
  rw [List.find?_append, Option.map_or]

end Json

inductive DecodeError
  | missingField (name : String)
  | invalidType
  | outOfRange
deriving DecidableEq, Repr

abbrev Decoder (α : Type) := Json → Except DecodeError α

namespace Decoder

variable {α : Type}

def string : Decoder String
  | .str s => .ok s
  | _ => .error .invalidType

def bool : Decoder Bool
  | .bool b => .ok b
  | _ => .error .invalidType

/-- An integer between two bounds. -/
def int (lo hi : Int) : Decoder Int
  | .num n 0 => if lo ≤ n ∧ n ≤ hi then .ok n else .error .outOfRange
  | _ => .error .invalidType

def i64 : Decoder Int64 := fun j => (int (-2 ^ 63) (2 ^ 63 - 1) j).map Int64.ofInt
def i32 : Decoder Int32 := fun j => (int (-2 ^ 31) (2 ^ 31 - 1) j).map Int32.ofInt
def u16 : Decoder UInt16 := fun j => (int 0 (2 ^ 16 - 1) j).map fun n => UInt16.ofNat n.toNat
def u64 : Decoder Nat := fun j => (int 0 (2 ^ 64 - 1) j).map Int.toNat

def seq (d : Decoder α) : Decoder (List α)
  | .arr items => items.mapM d
  | _ => .error .invalidType

def map : Decoder (List (String × Json))
  | .obj fields => .ok fields
  | _ => .error .invalidType

def option (d : Decoder α) : Decoder (Option α)
  | .null => .ok none
  | j => (d j).map some

def field (name : String) (d : Decoder α) : Decoder α := fun j =>
  match j.get? name with
  | none => .error (.missingField name)
  | some v => d v

def fieldOr (name : String) (d : Decoder α) (default : α) : Decoder α := fun j =>
  match j.get? name with
  | none => .ok default
  | some v => d v

@[simp] theorem string_str (s : String) : string (.str s) = .ok s := rfl

@[simp] theorem bool_bool (b : Bool) : Decoder.bool (.bool b) = .ok b := rfl

@[simp] theorem map_obj (fields : List (String × Json)) : map (.obj fields) = .ok fields := rfl

@[simp] theorem ok_bind (a : α) (f : α → Except ε β) : (Except.ok a >>= f) = f a := rfl

@[simp] theorem error_bind (e : ε) (f : α → Except ε β) :
    ((Except.error e : Except ε α) >>= f) = .error e := rfl

theorem of_bind_ok {x : Except ε α} {f : α → Except ε β} {b : β} (h : (x >>= f) = .ok b) :
    ∃ a, x = .ok a ∧ f a = .ok b := by
  cases x with
  | error e => cases h
  | ok a => exact ⟨a, rfl, h⟩

@[simp] theorem seq_strings (l : List String) : seq string (.strings l) = .ok l := by
  show (l.map Json.str).mapM string = .ok l
  induction l with
  | nil => rfl
  | cons s l ih =>
    rw [List.map_cons, List.mapM_cons, ih]
    rfl

theorem int_int {lo hi : Int} (h : lo ≤ n ∧ n ≤ hi) : int lo hi (.int n) = .ok n := if_pos h

@[simp] theorem i64_int (n : Int64) : i64 (.int n.toInt) = .ok n := by
  have hlo := n.le_toInt
  have hhi := n.toInt_lt
  rw [i64, int_int ⟨hlo, by omega⟩]
  exact congrArg Except.ok (Int64.ofInt_toInt n)

theorem i32_int (h : -2 ^ 31 ≤ n ∧ n ≤ 2 ^ 31 - 1) : i32 (.int n) = .ok (Int32.ofInt n) := by
  rw [i32, int_int h]
  rfl

theorem i32_int_error (h : ¬ (-2 ^ 31 ≤ n ∧ n ≤ 2 ^ 31 - 1)) :
    i32 (.int n) = .error .outOfRange := by
  show (if _ then Except.ok n else .error DecodeError.outOfRange).map Int32.ofInt = _
  rw [if_neg h]
  rfl

theorem u16_int (h : 0 ≤ n ∧ n ≤ 2 ^ 16 - 1) : u16 (.int n) = .ok (UInt16.ofNat n.toNat) := by
  rw [u16, int_int h]
  rfl

theorem u64_int {n : Nat} (h : n < 2 ^ 64) : u64 (.int n) = .ok n := by
  rw [u64, int_int ⟨Int.natCast_nonneg n, by omega⟩]
  rfl

theorem u64_int_ok {n m : Nat} (h : u64 (.int n) = .ok m) : m = n := by
  have h' : (if 0 ≤ (n : Int) ∧ (n : Int) ≤ 2 ^ 64 - 1 then Except.ok (n : Int)
    else .error DecodeError.outOfRange).map Int.toNat = .ok m := h
  split at h'
  next => exact (Except.ok.inj h').symm
  next => cases h'

end Decoder

end RemoteControl.Lib
