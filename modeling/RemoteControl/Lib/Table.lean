import Mathlib.Data.List.Nodup
import Mathlib.Data.List.Basic

/-!
# Keyed tables

A database table as the list of its rows, with a primary key that no two rows
share. The uniqueness is a field, so every operation has to keep it and no proof
about a table has to assume it. Rows are looked up by key; the lemmas below say
what each operation does to every lookup, and that is all later proofs use.
-/

namespace RemoteControl.Lib

open List

variable {ρ κ : Type} {key : ρ → κ} {f : ρ → ρ} {p : ρ → Bool} {rs : List ρ}

@[ext] structure Table (key : ρ → κ) where
  rows : List ρ
  nodup : (rows.map key).Nodup

namespace Table

def empty : Table key := ⟨[], nodup_nil⟩

/-- `UPDATE … WHERE p`, for an update that leaves the key alone. -/
def updateWhere (t : Table key) (p : ρ → Bool) (f : ρ → ρ)
    (hf : ∀ r, key (f r) = key r := by intro _; rfl) : Table key where
  rows := t.rows.map fun r => if p r then f r else r
  nodup := by
    have h : (key ∘ fun r => if p r then f r else r) = key := by
      funext r
      simp only [Function.comp]
      split
      · exact hf r
      · rfl
    rw [map_map, h]
    exact t.nodup

/-- `DELETE … WHERE p`. -/
def deleteWhere (t : Table key) (p : ρ → Bool) : Table key where
  rows := t.rows.filter fun r => !p r
  nodup := (filter_sublist.map key).nodup t.nodup

/-- `SELECT COUNT(*) … WHERE p`. -/
def count (t : Table key) (p : ρ → Bool) : Nat := t.rows.countP p

theorem count_updateWhere {t : Table key} {q : ρ → Bool} {hf : ∀ r, key (f r) = key r}
    (hq : ∀ r, q (f r) = q r) : (t.updateWhere p f hf).count q = t.count q := by
  unfold count updateWhere
  rw [countP_map]
  congr 1
  funext r
  simp only [Function.comp]
  split
  · exact hq r
  · rfl

variable [DecidableEq κ] {t t' : Table key} {k : κ} {r r' : ρ} {P : ρ → Prop}

/-- `SELECT … WHERE key = k`. -/
def get? (t : Table key) (k : κ) : Option ρ := t.rows.find? fun r => key r = k

theorem get?_key (h : t.get? k = some r) : key r = k := by
  simpa using List.find?_some h

theorem mem_of_get? (h : t.get? k = some r) : r ∈ t.rows := mem_of_find?_eq_some h

theorem get?_eq_none : t.get? k = none ↔ ∀ r ∈ t.rows, key r ≠ k := by
  simp [get?, List.find?_eq_none]

theorem get?_of_mem (h : r ∈ t.rows) : t.get? (key r) = some r := by
  cases hg : t.get? (key r) with
  | none => exact absurd rfl (get?_eq_none.mp hg r h)
  | some r' =>
    have hk := get?_key hg
    rw [inj_on_of_nodup_map t.nodup (mem_of_get? hg) h hk]

theorem get?_eq_some : t.get? k = some r ↔ r ∈ t.rows ∧ key r = k := by
  constructor
  · exact fun h => ⟨mem_of_get? h, get?_key h⟩
  · rintro ⟨h, rfl⟩
    exact get?_of_mem h

/-- Rows that come in another order are found all the same. -/
theorem find?_perm {l : List ρ} (h : l.Perm t.rows) (k : κ) :
    l.find? (fun r => key r = k) = t.get? k := by
  cases hl : l.find? (fun r => key r = k) with
  | none =>
    symm
    rw [get?_eq_none]
    intro r hr
    simpa using List.find?_eq_none.mp hl r (h.mem_iff.mpr hr)
  | some r =>
    symm
    rw [get?_eq_some]
    exact ⟨h.mem_iff.mp (mem_of_find?_eq_some hl), by simpa using List.find?_some hl⟩

/-- `INSERT … ON CONFLICT(key) DO NOTHING`. -/
def insert (t : Table key) (r : ρ) : Table key :=
  if h : t.get? (key r) = none then
    ⟨t.rows ++ [r], by
      rw [map_append, nodup_append]
      refine ⟨t.nodup, nodup_singleton _, fun a ha b hb => ?_⟩
      obtain ⟨r', hr', rfl⟩ := mem_map.mp ha
      rw [mem_singleton.mp hb]
      exact get?_eq_none.mp h r' hr'⟩
  else t

@[simp] theorem get?_empty (k : κ) : (empty : Table key).get? k = none := rfl

theorem insert_of_some (h : t.get? (key r) = some r') : t.insert r = t := by
  unfold insert
  rw [dif_neg (by rw [h]; intro h'; cases h')]

theorem rows_insert (h : t.get? (key r) = none) : (t.insert r).rows = t.rows ++ [r] := by
  unfold insert
  rw [dif_pos h]

/-- What a lookup can find, besides nothing, is the rows. -/
theorem forall_get? {P : Option ρ → Prop} (hnone : P none) :
    (∀ k, P (t.get? k)) ↔ ∀ r ∈ t.rows, P (some r) := by
  constructor
  · intro h r hr
    rw [← get?_of_mem hr]
    exact h (key r)
  · intro h k
    cases hg : t.get? k with
    | none => exact hnone
    | some r => exact h r (mem_of_get? hg)

theorem get?_insert (h : t.get? (key r) = none) (k : κ) :
    (t.insert r).get? k = if key r = k then some r else t.get? k := by
  unfold get?
  rw [rows_insert h, List.find?_append]
  split
  · next hk =>
    subst hk
    have : List.find? (fun r' => decide (key r' = key r)) t.rows = none := h
    rw [this]
    simp
  · next hk =>
    rw [List.find?_singleton]
    simp [hk]

/-- A new row leaves the others. -/
theorem get?_insert_of_some (h : t.get? (key r) = none) (hk : t.get? k = some r') :
    (t.insert r).get? k = some r' := by
  rw [get?_insert h, if_neg, hk]
  rintro rfl
  rw [h] at hk
  cases hk

theorem get?_updateWhere (t : Table key) (p : ρ → Bool) (f : ρ → ρ) (hf : ∀ r, key (f r) = key r)
    (k : κ) : (t.updateWhere p f hf).get? k = (t.get? k).map fun r => if p r then f r else r := by
  unfold get? updateWhere
  rw [List.find?_map]
  congr 2
  funext r
  simp only [Function.comp]
  split
  · rw [hf r]
  · rfl

theorem get?_updateWhere_key (t : Table key) (k₀ : κ) (f : ρ → ρ)
    (hf : ∀ r, key (f r) = key r) (k : κ) : (t.updateWhere (fun r => key r = k₀) f hf).get? k
      = if k₀ = k then (t.get? k).map f else t.get? k := by
  rw [get?_updateWhere]
  cases h : t.get? k with
  | none => exact (ite_self _).symm
  | some r => simp [get?_key h, @eq_comm _ k, apply_ite some]

theorem get?_updateWhere_keeps (hf : ∀ r, key (f r) = key r) (hP : ∀ r, P r → P (f r))
    (h : t.get? k = some r) (hr : P r) : ∃ r', (t.updateWhere p f hf).get? k = some r' ∧ P r' := by
  rw [get?_updateWhere, h]
  by_cases hp : p r = true
  · exact ⟨f r, by simp [hp], hP r hr⟩
  · exact ⟨r, by simp [hp], hr⟩

theorem get?_deleteWhere (t : Table key) (p : ρ → Bool) (k : κ) :
    (t.deleteWhere p).get? k = (t.get? k).filter fun r => !p r := by
  cases hg : t.get? k with
  | none =>
    refine get?_eq_none.mpr fun r hr => ?_
    exact get?_eq_none.mp hg r (mem_filter.mp hr).1
  | some r =>
    obtain ⟨hr, rfl⟩ := get?_eq_some.mp hg
    by_cases hp : p r
    · rw [Option.filter_some_neg (by simp [hp])]
      refine get?_eq_none.mpr fun r' hr' hk => ?_
      obtain ⟨hmem, hnp⟩ := mem_filter.mp hr'
      rw [inj_on_of_nodup_map t.nodup hmem hr hk] at hnp
      simp [hp] at hnp
    · rw [Option.filter_some_pos (by simp [hp])]
      exact get?_eq_some.mpr ⟨mem_filter.mpr ⟨hr, by simp [hp]⟩, rfl⟩

theorem count_insert (h : t.get? (key r) = none) (p : ρ → Bool) :
    (t.insert r).count p = t.count p + if p r then 1 else 0 := by
  unfold count
  rw [rows_insert h, countP_append, countP_singleton]

/-- Sets the row of its key, whatever was there. -/
def put (t : Table key) (r : ρ) : Table key := (t.deleteWhere fun r' => key r' = key r).insert r

def remove (t : Table key) (k : κ) : Table key := t.deleteWhere fun r => key r = k

theorem get?_remove (t : Table key) (k k' : κ) :
    (t.remove k).get? k' = if k = k' then none else t.get? k' := by
  unfold remove
  rw [get?_deleteWhere]
  cases h : t.get? k' with
  | none => simp
  | some r =>
    have hk := get?_key h
    by_cases he : k = k'
    · rw [if_pos he]
      exact Option.filter_some_neg (by simp [hk, he])
    · rw [if_neg he]
      exact Option.filter_some_pos (by simpa [hk] using fun hx => he hx.symm)

theorem get?_put (t : Table key) (r : ρ) (k : κ) :
    (t.put r).get? k = if key r = k then some r else t.get? k := by
  have hnone : (t.deleteWhere fun r' => key r' = key r).get? (key r) = none := by
    have := get?_remove t (key r) (key r)
    rwa [if_pos rfl] at this
  unfold put
  rw [get?_insert hnone]
  split
  · rfl
  · next hne =>
    have := get?_remove t (key r) k
    rwa [if_neg hne] at this

theorem get?_put_self (t : Table key) (r : ρ) : (t.put r).get? (key r) = some r := by
  rw [get?_put, if_pos rfl]

theorem get?_put_of_ne (t : Table key) (h : k ≠ key r) : (t.put r).get? k = t.get? k := by
  rw [get?_put, if_neg (Ne.symm h)]

theorem get?_remove_self (t : Table key) (k : κ) : (t.remove k).get? k = none := by
  rw [get?_remove, if_pos rfl]

theorem get?_remove_of_ne (t : Table key) {k k' : κ} (h : k' ≠ k) :
    (t.remove k).get? k' = t.get? k' := by
  rw [get?_remove, if_neg (Ne.symm h)]

omit [DecidableEq κ] in
theorem count_deleteWhere_le (t : Table key) (p q : ρ → Bool) :
    (t.deleteWhere p).count q ≤ t.count q :=
  filter_sublist.countP_le

theorem mem_insert (h : r' ∈ (t.insert r).rows) : r' ∈ t.rows ∨ r' = r := by
  cases hk : t.get? (key r) with
  | none =>
    rw [rows_insert hk, mem_append, mem_singleton] at h
    exact h
  | some _ =>
    rw [insert_of_some hk] at h
    exact .inl h

/-! What holds of every row, and how long. -/

theorem all_insert (h : ∀ r ∈ t.rows, P r) (hr : P r) : ∀ r' ∈ (t.insert r).rows, P r' := by
  intro r' hr'
  rcases mem_insert hr' with hr' | rfl
  · exact h r' hr'
  · exact hr

omit [DecidableEq κ] in
theorem all_deleteWhere (h : ∀ r ∈ t.rows, P r) (p : ρ → Bool) :
    ∀ r ∈ (t.deleteWhere p).rows, P r :=
  fun r hr => h r (mem_filter.mp hr).1

theorem all_put (h : ∀ r ∈ t.rows, P r) (hr : P r) :
    ∀ r' ∈ (t.put r).rows, P r' :=
  all_insert (all_deleteWhere h _) hr

theorem count_insert_le (t : Table key) (r : ρ) (q : ρ → Bool) :
    (t.insert r).count q ≤ t.count q + if q r then 1 else 0 := by
  cases h : t.get? (key r) with
  | none => exact Nat.le_of_eq (count_insert h q)
  | some _ =>
    rw [insert_of_some h]
    exact Nat.le_add_right _ _

/-- A row that comes in when others are cleared out. -/
theorem count_issue_le (t : Table key) (p : ρ → Bool) (r : ρ) (q : ρ → Bool) :
    ((t.deleteWhere p).insert r).count q ≤ t.count q + if q r then 1 else 0 :=
  Nat.le_trans (count_insert_le _ r q) (Nat.add_le_add_right (t.count_deleteWhere_le p q) _)

theorem count_remove (h : t.get? k = some r) (q : ρ → Bool) :
    (t.remove k).count q + (if q r then 1 else 0) = t.count q := by
  have hkey : key r = k := get?_key h
  obtain ⟨before, after, hrows⟩ := append_of_mem (mem_of_get? h)
  have hnodup := t.nodup
  rw [hrows, map_append, map_cons, nodup_append, nodup_cons] at hnodup
  obtain ⟨-, ⟨hafter, -⟩, hbefore⟩ := hnodup
  have hfilter : (t.remove k).rows = before ++ after := by
    show t.rows.filter _ = _
    rw [hrows, filter_append, filter_cons, if_neg (by simp [hkey])]
    congr 1
    · refine filter_eq_self.mpr fun b hb => ?_
      have hne : key b ≠ key r := hbefore _ (mem_map_of_mem hb) _ mem_cons_self
      simpa [hkey] using hne
    · refine filter_eq_self.mpr fun b hb => ?_
      have hne : key b ≠ key r := fun he => hafter (he ▸ mem_map_of_mem hb)
      simpa [hkey] using hne
  unfold count
  rw [hfilter, hrows, countP_append, countP_append, countP_cons]
  omega

/-! ### Fewer rows -/

/-- The rows of `t'` are rows of `t`. -/
def Sub (t' t : Table key) : Prop := ∀ ⦃k r⦄, t'.get? k = some r → t.get? k = some r

theorem Sub.refl (t : Table key) : t.Sub t := fun _ _ h => h

theorem Sub.none (h : t'.Sub t) (hk : t.get? k = none) : t'.get? k = none := by
  cases hr : t'.get? k with
  | none => rfl
  | some r =>
    rw [h hr] at hk
    cases hk

theorem deleteWhere_sub (t : Table key) (p : ρ → Bool) : (t.deleteWhere p).Sub t := by
  intro k r h
  rw [get?_deleteWhere] at h
  exact (Option.filter_eq_some_iff.mp h).1

theorem remove_sub (t : Table key) (k : κ) : (t.remove k).Sub t := t.deleteWhere_sub _

theorem empty_sub (t : Table key) : (empty : Table key).Sub t := fun _ _ h => (nomatch h)

/-! ### Two tables, key by key -/

section Agree

variable {ρ' : Type} {key' : ρ' → κ} {R : κ → Option ρ → Option ρ' → Prop}
  {t t₁ : Table key} {t' t₁' : Table key'}

/-- `R` holds between the rows of every key. -/
def Agree (R : κ → Option ρ → Option ρ' → Prop) (t : Table key) (t' : Table key') : Prop :=
  ∀ k, R k (t.get? k) (t'.get? k)

section

variable (h : Agree R t t')

include h

/-- Changing one key on both sides leaves the others in agreement. -/
theorem Agree.change {k₀ : κ} (ht : ∀ k, k ≠ k₀ → t₁.get? k = t.get? k)
    (ht' : ∀ k, k ≠ k₀ → t₁'.get? k = t'.get? k) :
    Agree R t₁ t₁' ↔ R k₀ (t₁.get? k₀) (t₁'.get? k₀) := by
  refine ⟨fun h₁ => h₁ k₀, fun h₀ k => ?_⟩
  by_cases hk : k = k₀
  · exact hk ▸ h₀
  · rw [ht k hk, ht' k hk]
    exact h k

theorem Agree.put_put {r' : ρ'} (hk : key r = key' r') :
    Agree R (t.put r) (t'.put r') ↔ R (key r) (some r) (some r') := by
  rw [h.change (fun k hne => t.get?_put_of_ne hne)
    (fun k hne => t'.get?_put_of_ne (hk ▸ hne)), get?_put_self, hk, get?_put_self]

theorem Agree.remove_put (r' : ρ') :
    Agree R (t.remove (key' r')) (t'.put r') ↔ R (key' r') none (some r') := by
  rw [h.change (fun k hne => t.get?_remove_of_ne hne) (fun k hne => t'.get?_put_of_ne hne),
    get?_remove_self, get?_put_self]

theorem Agree.put_remove (r : ρ) :
    Agree R (t.put r) (t'.remove (key r)) ↔ R (key r) (some r) none := by
  rw [h.change (fun k hne => t.get?_put_of_ne hne) (fun k hne => t'.get?_remove_of_ne hne),
    get?_remove_self, get?_put_self]

/-- Only the left side changes, at one key. -/
theorem Agree.put_left (r : ρ) : Agree R (t.put r) t' ↔ R (key r) (some r) (t'.get? (key r)) := by
  rw [h.change (fun k hne => t.get?_put_of_ne hne) (fun _ _ => rfl), get?_put_self]

theorem Agree.remove_left (k : κ) : Agree R (t.remove k) t' ↔ R k none (t'.get? k) := by
  rw [h.change (fun k' hne => t.get?_remove_of_ne hne) (fun _ _ => rfl), get?_remove_self]

end

end Agree

theorem insert_eq_put (h : t.get? (key r) = none) : t.insert r = t.put r := by
  have hrows : (t.deleteWhere fun r' => key r' = key r).rows = t.rows := by
    refine filter_eq_self.mpr fun r' hr' => ?_
    simpa using get?_eq_none.mp h r' hr'
  have hsame : (t.deleteWhere fun r' => key r' = key r) = t := Table.ext hrows
  unfold put
  rw [hsame]

/-! ### Many rows at once -/

def putAll (t : Table key) (rs : List ρ) : Table key := rs.foldl put t

theorem get?_putAll_of_not_mem (t : Table key) (h : ∀ r ∈ rs, key r ≠ k) :
    (t.putAll rs).get? k = t.get? k := by
  induction rs generalizing t with
  | nil => rfl
  | cons r rs ih =>
    rw [forall_mem_cons] at h
    exact (ih (t.put r) h.2).trans (t.get?_put_of_ne (Ne.symm h.1))

theorem get?_putAll_of_mem (t : Table key) (hn : (rs.map key).Nodup) (h : r ∈ rs) :
    (t.putAll rs).get? (key r) = some r := by
  induction rs generalizing t with
  | nil => cases h
  | cons r' rs ih =>
    rw [map_cons, nodup_cons] at hn
    rcases mem_cons.mp h with rfl | h
    · -- no later row has this key
      have hlater : ∀ r' ∈ rs, key r' ≠ key r := fun r' hr' he =>
        hn.1 (he ▸ mem_map_of_mem hr')
      exact (get?_putAll_of_not_mem (t.put r) hlater).trans (t.get?_put_self r)
    · exact ih (t.put r') hn.2 h

/-- Some rows are changed, and their new values put in the other table. -/
theorem Agree.update_putAll {ρ' : Type} {key' : ρ' → κ} {R : κ → Option ρ → Option ρ' → Prop}
    {t' : Table key'} (h : Agree R t t') (hf : ∀ r, key (f r) = key r) {view : ρ → ρ'}
    (hview : ∀ r, key' (view r) = key r) (hR : ∀ r, R (key r) (some r) (some (view r))) :
    Agree R (t.updateWhere p f hf) (t'.putAll (((t.rows.filter p).map f).map view)) := by
  intro k
  have hkeys : (((t.rows.filter p).map f).map view).map key' = (t.rows.filter p).map key := by
    simp only [map_map]
    exact map_congr_left fun r _ => (hview (f r)).trans (hf r)
  have hnodup : ((((t.rows.filter p).map f).map view).map key').Nodup := by
    rw [hkeys]
    exact t.nodup.sublist (filter_sublist.map key)
  rw [get?_updateWhere]
  by_cases hk : k ∈ (t.rows.filter p).map key
  · obtain ⟨r, hr, rfl⟩ := mem_map.mp hk
    obtain ⟨hmem, hp⟩ := mem_filter.mp hr
    have hput := get?_putAll_of_mem t' hnodup
      (mem_map_of_mem (f := view) (mem_map_of_mem (f := f) hr))
    have hsame := hR (f r)
    rw [hview, hf] at hput
    rw [hf] at hsame
    rw [hput, get?_of_mem hmem, Option.map_some, if_pos hp]
    exact hsame
  · have hput : (t'.putAll (((t.rows.filter p).map f).map view)).get? k = t'.get? k :=
      get?_putAll_of_not_mem t' fun r' hr' he =>
        hk (by rw [← hkeys, ← he]; exact mem_map_of_mem hr')
    rw [hput]
    have hleft : (t.get? k).map (fun r => if p r = true then f r else r) = t.get? k := by
      cases hg : t.get? k with
      | none => rfl
      | some r =>
        obtain ⟨hmem, rfl⟩ := get?_eq_some.mp hg
        have hp : ¬ p r = true := fun hp =>
          hk (mem_map_of_mem (mem_filter.mpr ⟨hmem, hp⟩))
        rw [Option.map_some, if_neg hp]
    rw [hleft]
    exact h k

end Table

end RemoteControl.Lib
