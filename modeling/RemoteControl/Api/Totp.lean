import Mathlib.Algebra.Ring.Int.Defs
import Mathlib.Algebra.Ring.Nat
import Mathlib.Data.List.Induction

/-!
# The check of a TOTP code

`Validate` of `mfa/totp.go`. What the user has typed is read as a number and printed again before it
is compared with the codes of the three steps. The two are inverse to each other for six digits. But
the number may have a sign:

> `+81804` is read as 81804 and printed as `081804`.

A text is a list of bytes. `strconv.Atoi` and the verb `%06d` are modelled for texts of six bytes
and numbers of at most six places, which are all that occur.
-/

namespace RemoteControl.Mfa

open List

variable {code ds : List UInt8} {n : Nat}

/-- What is used of `strings`, `encoding/base32` and `crypto/hmac`. -/
structure TotpLib where
  trimSpace : List UInt8 → List UInt8
  /-- the key of a secret, which is first put in upper case -/
  decodeString : List UInt8 → Option (List UInt8)
  /-- the sum of HMAC with SHA-1, by key and message -/
  sum : List UInt8 → List UInt8 → Fin 20 → UInt8

def digit (n : Nat) : UInt8 := UInt8.ofNat (48 + n % 10)

def isDigit (b : UInt8) : Bool := 48 ≤ b.toNat && b.toNat ≤ 57

/-- The last `w` places of a number. -/
def places : Nat → Nat → List UInt8
  | 0, _ => []
  | w + 1, n => places w (n / 10) ++ [digit n]

/-- `%06d`. The sign is one of the six. -/
def sixPlaces (n : Int) : List UInt8 := if n < 0 then 45 :: places 5 n.natAbs else places 6 n.natAbs

def valueOf (ds : List UInt8) : Nat := ds.foldl (fun n d => 10 * n + (d.toNat - 48)) 0

def unsigned (ds : List UInt8) : Option Nat :=
  if ds ≠ [] ∧ ds.all isDigit then some (valueOf ds) else none

/-- `strconv.Atoi`. -/
def atoi (code : List UInt8) : Option Int :=
  if code.head? = some 43 then (unsigned code.tail).map fun n : Nat => (n : Int)
  else if code.head? = some 45 then (unsigned code.tail).map fun n : Nat => -(n : Int)
  else (unsigned code).map fun n : Nat => (n : Int)

/-- `binary.BigEndian.PutUint64`. -/
def counterBytes (counter : Int) : List UInt8 :=
  (List.range 8).map fun i => UInt8.ofNat ((counter % 2 ^ 64).toNat / 256 ^ (7 - i))

def codeForCounter (lib : TotpLib) (secret : List UInt8) (counter : Int) : List UInt8 :=
  let sum := lib.sum secret (counterBytes counter)
  let index := (sum 19).toNat &&& 15
  let byte (i : Nat) : Nat := (sum (Fin.ofNat 20 (index + i))).toNat
  let value := (byte 0 &&& 127) <<< 24 ||| (byte 1 &&& 255) <<< 16 ||| (byte 2 &&& 255) <<< 8
    ||| (byte 3 &&& 255)
  sixPlaces (value % 1000000 : Nat)

/-- The codes of the previous, the current and the next step; none for a secret without a key. -/
def codes (lib : TotpLib) (secret : List UInt8) (unix : Int) : List (List UInt8) :=
  (lib.decodeString secret).elim [] fun decoded =>
    [-1, 0, 1].map fun offset => codeForCounter lib decoded (unix.tdiv 30 + offset)

def validate (lib : TotpLib) (secret code : List UInt8) (unix : Int) : Bool :=
  let code := lib.trimSpace code
  if code.length ≠ 6 then false
  else match atoi code with
    | none => false
    | some candidate => (codes lib secret unix).any fun expected => expected = sixPlaces candidate

/-- The text is the code with a sign in the place of its leading zero. -/
def Signed (text code : List UInt8) : Prop :=
  ∃ ds, code = 48 :: ds ∧ (text = 43 :: ds ∨ text = 45 :: ds ∧ valueOf ds = 0)

/-! ## Digits -/

theorem length_places (w n : Nat) : (places w n).length = w := by
  induction w generalizing n with
  | zero => rfl
  | succ w ih => rw [places, length_append, ih, length_singleton]

theorem digit_isDigit (n : Nat) : isDigit (digit n) = true := by
  have hlt : n % 10 < 10 := Nat.mod_lt _ (by decide)
  have hval : (digit n).toNat = 48 + n % 10 := by
    rw [digit, UInt8.toNat_ofNat', Nat.mod_eq_of_lt (by omega)]
  simp only [isDigit, Bool.and_eq_true, decide_eq_true_eq]
  omega

theorem places_all (w n : Nat) : (places w n).all isDigit = true := by
  induction w generalizing n with
  | zero => rfl
  | succ w ih => rw [places, all_append, ih, all_cons, digit_isDigit]; rfl

theorem valueOf_concat (ds : List UInt8) (d : UInt8) :
    valueOf (ds ++ [d]) = 10 * valueOf ds + (d.toNat - 48) := by
  rw [valueOf, foldl_append]
  rfl

/-- Reading and printing is the identity on digits, leading zeros included. -/
theorem places_valueOf (h : ds.all isDigit = true) :
    places ds.length (valueOf ds) = ds ∧ valueOf ds < 10 ^ ds.length := by
  induction ds using List.reverseRecOn with
  | nil => exact ⟨rfl, by decide⟩
  | append_singleton ds d ih =>
    rw [all_append, all_cons, all_nil, Bool.and_true, Bool.and_eq_true] at h
    obtain ⟨hplaces, hlt⟩ := ih h.1
    have hd : 48 ≤ d.toNat ∧ d.toNat ≤ 57 := by simpa [isDigit] using h.2
    have hdiv : (10 * valueOf ds + (d.toNat - 48)) / 10 = valueOf ds := by omega
    have hdigit : digit (10 * valueOf ds + (d.toNat - 48)) = d := by
      apply UInt8.toNat_inj.mp
      rw [digit, UInt8.toNat_ofNat', Nat.mod_eq_of_lt] <;> omega
    rw [length_append, length_singleton, valueOf_concat]
    refine ⟨?_, by rw [Nat.pow_succ]; omega⟩
    rw [places, hdiv, hplaces, hdigit]

/-- A number that has a place to spare is printed with a zero in front. -/
theorem places_succ_of_lt {w : Nat} (h : n < 10 ^ w) : places (w + 1) n = 48 :: places w n := by
  induction w generalizing n with
  | zero =>
    obtain rfl : n = 0 := by omega
    rfl
  | succ w ih =>
    have hn : n / 10 < 10 ^ w := by
      rw [Nat.pow_succ] at h
      omega
    rw [places, ih hn]
    rfl

/-! ## What is printed for what was read -/

theorem sixPlaces_natCast (n : Nat) : sixPlaces n = places 6 n := if_neg (by omega)

theorem unsigned_eq_some :
    unsigned ds = some n ↔ ds ≠ [] ∧ ds.all isDigit = true ∧ valueOf ds = n := by
  rw [unsigned]
  split_ifs with h
  · exact ⟨fun hn => ⟨h.1, h.2, Option.some.inj hn⟩, fun hn => congrArg some hn.2.2⟩
  · exact ⟨nofun, fun hn => absurd ⟨hn.1, hn.2.1⟩ h⟩

theorem places_six_of_five (hlen : ds.length = 5) (h : ds.all isDigit = true) :
    places 6 (valueOf ds) = 48 :: ds := by
  obtain ⟨hplaces, hlt⟩ := places_valueOf h
  rw [hlen] at hplaces hlt
  rw [places_succ_of_lt hlt, hplaces]

/-- A text of six bytes is read as the number of a code if it is the code, or the code with a sign
in the place of its zero. -/
theorem reads_iff {text : List UInt8} (htext : text.length = 6) (hlen : code.length = 6)
    (hcode : code.all isDigit = true) :
    (∃ n, atoi text = some n ∧ code = sixPlaces n) ↔ text = code ∨ Signed text code := by
  constructor
  · rintro ⟨n, hn, hprint⟩
    rw [atoi] at hn
    match text with
    | b :: ds =>
      have hds : ds.length = 5 := Nat.succ.inj htext
      split_ifs at hn with hplus hminus
      · obtain ⟨m, hm, rfl⟩ := Option.map_eq_some_iff.mp hn
        obtain ⟨-, hall, rfl⟩ := unsigned_eq_some.mp hm
        cases hplus
        exact .inr ⟨ds, hprint.trans (places_six_of_five hds hall), .inl rfl⟩
      · obtain ⟨m, hm, rfl⟩ := Option.map_eq_some_iff.mp hn
        obtain ⟨-, hall, hval⟩ := unsigned_eq_some.mp hm
        cases hminus
        by_cases hzero : m = 0
        · subst hzero
          have hsix : places 6 0 = 48 :: ds := hval ▸ places_six_of_five hds hall
          exact .inr ⟨ds, hprint.trans hsix, .inr ⟨rfl, hval⟩⟩
        · -- the sign is printed, and it is no digit
          rw [sixPlaces, if_pos (by omega)] at hprint
          rw [hprint] at hcode
          exact absurd hcode (by simp [isDigit])
      · obtain ⟨m, hm, rfl⟩ := Option.map_eq_some_iff.mp hn
        obtain ⟨-, hall, rfl⟩ := unsigned_eq_some.mp hm
        have hplaces := (places_valueOf hall).1
        rw [htext] at hplaces
        exact .inl (hprint.trans hplaces).symm
  · rintro (rfl | ⟨ds, rfl, hsign⟩)
    · have hplaces := (places_valueOf hcode).1
      rw [htext] at hplaces
      have hne : text ≠ [] := ne_nil_of_length_pos (by omega)
      have hread := unsigned_eq_some.mpr ⟨hne, hcode, rfl⟩
      refine ⟨valueOf text, ?_, hplaces.symm⟩
      have hhead : ∀ b, isDigit b = false → text.head? ≠ some b := by
        intro b hb hhead
        have hdigit := all_eq_true.mp hcode b (mem_of_head? hhead)
        exact absurd hdigit (by rw [hb]; decide)
      rw [atoi, if_neg (hhead 43 rfl), if_neg (hhead 45 rfl), hread, Option.map_some]
    · have hds : ds.length = 5 := Nat.succ.inj hlen
      have hall : ds.all isDigit = true := (Bool.and_eq_true _ _ ▸ hcode : _ ∧ _).2
      have hsix := places_six_of_five hds hall
      have hread := unsigned_eq_some.mpr ⟨ne_nil_of_length_pos (by omega), hall, rfl⟩
      rcases hsign with rfl | ⟨rfl, hzero⟩
      · refine ⟨valueOf ds, ?_, hsix.symm⟩
        show (unsigned ds).map _ = _
        rw [hread, Option.map_some]
      · refine ⟨-valueOf ds, ?_, ?_⟩
        · show (unsigned ds).map _ = _
          rw [hread, Option.map_some]
        · rw [hzero] at hsix ⊢
          exact hsix.symm

/-! ## The check -/

theorem codes_six {lib : TotpLib} {secret : List UInt8} {unix : Int}
    (h : code ∈ codes lib secret unix) : code.length = 6 ∧ code.all isDigit = true := by
  have hcode : ∀ key counter, (codeForCounter lib key counter).length = 6 ∧
      (codeForCounter lib key counter).all isDigit = true := by
    intro key counter
    rw [codeForCounter, sixPlaces_natCast]
    exact ⟨length_places .., places_all ..⟩
  rw [codes] at h
  cases hkey : lib.decodeString secret with
  | none => rw [hkey] at h; cases h
  | some key =>
    rw [hkey] at h
    obtain ⟨offset, -, rfl⟩ := mem_map.mp h
    exact hcode ..

/-- What is accepted: the codes, and the codes with a sign for their zero. -/
theorem validate_iff (lib : TotpLib) (secret code : List UInt8) (unix : Int) :
    validate lib secret code unix = true ↔ lib.trimSpace code ∈ codes lib secret unix ∨
      ∃ expected ∈ codes lib secret unix, Signed (lib.trimSpace code) expected := by
  have hmem : (∃ expected ∈ codes lib secret unix,
      lib.trimSpace code = expected ∨ Signed (lib.trimSpace code) expected) ↔
      lib.trimSpace code ∈ codes lib secret unix ∨
      ∃ expected ∈ codes lib secret unix, Signed (lib.trimSpace code) expected := by
    constructor
    · rintro ⟨expected, hexpected, rfl | hsigned⟩
      · exact .inl hexpected
      · exact .inr ⟨expected, hexpected, hsigned⟩
    · rintro (hexpected | ⟨expected, hexpected, hsigned⟩)
      · exact ⟨_, hexpected, .inl rfl⟩
      · exact ⟨expected, hexpected, .inr hsigned⟩
  rw [← hmem, validate]
  by_cases hlen : (lib.trimSpace code).length = 6
  · rw [if_neg (not_not.mpr hlen)]
    have hreads : ∀ expected ∈ codes lib secret unix, _ ↔ _ := fun expected hexpected =>
      reads_iff hlen (codes_six hexpected).1 (codes_six hexpected).2
    cases hread : atoi (lib.trimSpace code) with
    | none =>
      refine ⟨nofun, ?_⟩
      rintro ⟨expected, hexpected, hform⟩
      obtain ⟨n, hn, -⟩ := (hreads expected hexpected).mpr hform
      rw [hread] at hn
      cases hn
    | some candidate =>
      show (List.any _ fun expected => expected = sixPlaces candidate) = true ↔ _
      simp only [any_eq_true, decide_eq_true_eq]
      refine exists_congr fun expected => and_congr_right fun hexpected => ?_
      rw [← hreads expected hexpected, hread]
      exact ⟨fun h => ⟨candidate, rfl, h⟩, fun ⟨n, hn, h⟩ => by cases hn; exact h⟩
  · rw [if_pos hlen]
    refine ⟨nofun, ?_⟩
    rintro ⟨expected, hexpected, hform⟩
    have hsix := (codes_six hexpected).1
    rcases hform with rfl | ⟨ds, rfl, hsigned | ⟨hsigned, -⟩⟩
    · exact absurd hsix hlen
    · exact absurd (hsigned ▸ hsix) hlen
    · exact absurd (hsigned ▸ hsix) hlen

/-- The check accepts the three codes and nothing else, unless what was typed is a code with a
plus, or with a minus before zeros, in the place of its leading zero. -/
theorem validate_codes_iff (lib : TotpLib) (secret code : List UInt8) (unix : Int) :
    (validate lib secret code unix = true ↔ lib.trimSpace code ∈ codes lib secret unix) ↔
      ¬ ∃ expected ∈ codes lib secret unix, Signed (lib.trimSpace code) expected := by
  rw [validate_iff]
  constructor
  · rintro hiff ⟨expected, hexpected, hsigned⟩
    have hall := (codes_six (hiff.mp (.inr ⟨expected, hexpected, hsigned⟩))).2
    obtain ⟨ds, -, hform | ⟨hform, -⟩⟩ := hsigned
    · rw [hform] at hall
      exact absurd hall (by simp [isDigit])
    · rw [hform] at hall
      exact absurd hall (by simp [isDigit])
  · intro hnone
    exact ⟨fun h => h.resolve_right hnone, .inl⟩

/-- The five bits of a symbol of base32. -/
def base32Value (b : UInt8) : Option Nat :=
  if 65 ≤ b ∧ b ≤ 90 then some (b.toNat - 65)
  else if 50 ≤ b ∧ b ≤ 55 then some (b.toNat - 24)
  else none

/-- Whole groups of eight symbols only. -/
def base32Decode (text : List UInt8) : Option (List UInt8) :=
  (text.mapM base32Value).map fun values =>
    let n := values.foldl (fun n v => 32 * n + v) 0
    let size := text.length * 5 / 8
    (List.range size).map fun i => UInt8.ofNat (n / 256 ^ (size - 1 - i))

/-- The key `12345678901234567890` and the three steps around second 1111111109, whose codes are
`731029`, `081804` and `050471`. -/
def referenceTotp : TotpLib where
  trimSpace text := (((text.dropWhile (· ≤ 32)).reverse).dropWhile (· ≤ 32)).reverse
  decodeString secret := base32Decode (secret.map fun b => if 97 ≤ b ∧ b ≤ 122 then b - 32 else b)
  sum _ message i :=
    let bytes : List UInt8 := match message.getLast? with
      | some 235 => [239, 80, 252, 142, 195, 213, 180, 22, 230, 97, 209, 7, 40, 105, 165, 144, 83,
          122, 117, 162]
      | some 236 => [39, 140, 2, 229, 54, 16, 248, 76, 64, 189, 145, 53, 172, 212, 16, 16, 18, 65,
          10, 20]
      | _ => [176, 9, 43, 33, 208, 72, 175, 32, 157, 160, 161, 221, 212, 152, 173, 232, 167, 148,
          135, 237]
    bytes.getD i 0

/-- `GEZDGNBVGY3TQOJQ`, twice. -/
def referenceSecret : List UInt8 :=
  let half := [71, 69, 90, 68, 71, 78, 66, 86, 71, 89, 51, 84, 81, 79, 74, 81]
  half ++ half

/-- `+81804`, sent with a line break, counts as `081804`. -/
theorem plus_for_zero_accepted :
    validate referenceTotp referenceSecret [43, 56, 49, 56, 48, 52, 10] 1111111109 = true ∧
      [43, 56, 49, 56, 48, 52] ∉ codes referenceTotp referenceSecret 1111111109 ∧
      codes referenceTotp referenceSecret 1111111109
        = [[55, 51, 49, 48, 50, 57], [48, 56, 49, 56, 48, 52], [48, 53, 48, 52, 55, 49]] := by
  decide +kernel

end RemoteControl.Mfa
