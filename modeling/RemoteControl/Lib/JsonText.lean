import RemoteControl.Lib.Json
import RemoteControl.Lib.Table

/-!
# JSON that is written and read again

A serialiser and its parser, as a pair of functions. An integer comes back as it was written; of
other numbers it is only known that they come back as some number, since a fast parser of floating
point numbers may be off in the last place.

A map is written as an object in the order in which it is walked, and collected again when it is
read.
-/

namespace RemoteControl.Lib

open List

mutual

def Json.mapNumbers (f : Int → Int → Int × Int) : Json → Json
  | .null => .null
  | .bool b => .bool b
  | .num mantissa exponent => .num (f mantissa exponent).1 (f mantissa exponent).2
  | .str s => .str s
  | .arr items => .arr (mapItems f items)
  | .obj fields => .obj (mapFields f fields)

def Json.mapItems (f : Int → Int → Int × Int) : List Json → List Json
  | [] => []
  | j :: items => j.mapNumbers f :: mapItems f items

def Json.mapFields (f : Int → Int → Int × Int) : List (String × Json) → List (String × Json)
  | [] => []
  | (name, j) :: fields => (name, j.mapNumbers f) :: mapFields f fields

end

theorem Json.mapFields_eq (f : Int → Int → Int × Int) (fields : List (String × Json)) :
    mapFields f fields = fields.map fun p => (p.1, p.2.mapNumbers f) := by
  induction fields with
  | nil => rfl
  | cons p fields ih => rw [mapFields, ih, map_cons]

/-- A serialiser and a parser; what a text is made of does not matter. -/
structure JsonText (τ : Type) where
  toVec : Json → τ
  fromSlice : τ → Option Json
  /-- What a number is after it was written and read. -/
  reread : Int → Int → Int × Int
  reread_int : ∀ n : Int, -2 ^ 63 ≤ n → n < 2 ^ 63 → reread n 0 = (n, 0)
  fromSlice_toVec : ∀ j, fromSlice (toVec j) = some (j.mapNumbers reread)

namespace JsonText

variable {τ : Type} (t : JsonText τ)

/-- A document after it was written and read. -/
def again (j : Json) : Json := j.mapNumbers t.reread

@[simp] theorem again_null : t.again .null = .null := rfl

@[simp] theorem again_bool (b : Bool) : t.again (.bool b) = .bool b := rfl

@[simp] theorem again_str (s : String) : t.again (.str s) = .str s := rfl

@[simp] theorem again_strings (l : List String) : t.again (.strings l) = .strings l := by
  show Json.arr (Json.mapItems t.reread (l.map .str)) = .arr (l.map .str)
  congr 1
  induction l with
  | nil => rfl
  | cons s l ih =>
    rw [map_cons, Json.mapItems, ih]
    rfl

@[simp] theorem again_obj_nil : t.again (.obj []) = .obj [] := rfl

theorem again_obj (fields : List (String × Json)) :
    t.again (.obj fields) = .obj (fields.map fun p => (p.1, t.again p.2)) := by
  show Json.obj (Json.mapFields t.reread fields) = _
  rw [Json.mapFields_eq]
  rfl

theorem again_int {n : Int} (hlo : -2 ^ 63 ≤ n) (hhi : n < 2 ^ 63) : t.again (.int n) = .int n := by
  show Json.num (t.reread n 0).1 (t.reread n 0).2 = .num n 0
  rw [t.reread_int n hlo hhi]

@[simp] theorem again_int64 (n : Int64) : t.again (.int n.toInt) = .int n.toInt :=
  t.again_int n.le_toInt n.toInt_lt

@[simp] theorem again_int32 (n : Int32) : t.again (.int n.toInt) = .int n.toInt := by
  have hlo := n.le_toInt
  have hhi := n.toInt_lt
  exact t.again_int (by omega) (by omega)

@[simp] theorem again_uint16 (n : UInt16) : t.again (.int n.toNat) = .int n.toNat := by
  have hhi := n.toNat_lt
  exact t.again_int (by omega) (by omega)

end JsonText

namespace Decoder

@[simp] theorem i32_toInt (n : Int32) : i32 (.int n.toInt) = .ok n := by
  have hlo := n.le_toInt
  have hhi := n.toInt_lt
  rw [i32_int ⟨hlo, by omega⟩, Int32.ofInt_toInt]

@[simp] theorem u16_toNat (n : UInt16) : u16 (.int n.toNat) = .ok n := by
  have hhi := n.toNat_lt
  rw [u16_int ⟨by omega, by omega⟩]
  simp

/-- An `i64` that is not negative. -/
def natural : Decoder Nat := fun j => (int (-2 ^ 63) (2 ^ 63 - 1) j).map Int.toNat

theorem natural_int {n : Nat} (h : n < 2 ^ 63) : natural (.int n) = .ok n := by
  rw [natural, int_int ⟨by omega, by omega⟩]
  rfl

end Decoder

/-- A value that may be missing. -/
def Json.orNull {α : Type} (f : α → Json) (v : Option α) : Json := v.elim .null f

/-! ## Maps -/

variable {ρ : Type}

def Json.object (key : ρ → String) (value : ρ → Json) (rows : List ρ) : Json :=
  .obj (rows.map fun r => (key r, value r))

def Decoder.entries (d : String → Decoder ρ) : Decoder (List ρ)
  | .obj fields => fields.mapM fun f => d f.1 f.2
  | _ => .error .invalidType

theorem Decoder.entries_object {τ : Type} (t : JsonText τ) {key : ρ → String} {value : ρ → Json}
    {d : String → Decoder ρ} {g : ρ → ρ} {rows : List ρ}
    (h : ∀ r ∈ rows, d (key r) (t.again (value r)) = .ok (g r)) :
    entries d (t.again (Json.object key value rows)) = .ok (rows.map g) := by
  rw [Json.object, t.again_obj, map_map]
  show (rows.map fun r => (key r, t.again (value r))).mapM (fun f : String × Json => d f.1 f.2) = _
  induction rows with
  | nil => rfl
  | cons r rows ih =>
    obtain ⟨hr, hrest⟩ := forall_mem_cons.mp h
    rw [map_cons, mapM_cons, ih hrest]
    show (d (key r) (t.again (value r)) >>= _) = _
    rw [hr]
    rfl

namespace Table

variable {key : ρ → String}

/-- Rows with keys of their own are collected in their order. -/
theorem rows_foldl_put {rows : List ρ} (hn : (rows.map key).Nodup) {t : Table key}
    (hnew : ∀ r ∈ rows, t.get? (key r) = none) : (rows.foldl put t).rows = t.rows ++ rows := by
  induction rows generalizing t with
  | nil => exact (append_nil _).symm
  | cons r rows ih =>
    rw [map_cons, nodup_cons] at hn
    obtain ⟨hr, hrest⟩ := forall_mem_cons.mp hnew
    have hput : (t.put r).rows = t.rows ++ [r] := by
      rw [← insert_eq_put hr, rows_insert hr]
    rw [foldl_cons, ih hn.2, hput, append_assoc]
    · rfl
    · intro r' hr'
      have hne : key r' ≠ key r := fun heq => hn.1 (heq ▸ mem_map_of_mem hr')
      rw [get?_put_of_ne t hne, hrest r' hr']

end Table

end RemoteControl.Lib
