import RemoteControl.Lib.Table

/-!
# Tables in another order

A map has no order, but walking it gives its rows in one. Two tables are the same map if their rows
are a permutation of each other, or only of what is seen of them. What changes a table keeps that.
-/

namespace RemoteControl.Lib

open List

variable {ρ ρ' κ : Type} [DecidableEq κ] {key : ρ → κ} {t t' : Table key} {f : ρ → ρ'} {l : List ρ}
  {p : ρ → Bool}

theorem Table.rows_put (t : Table key) (r : ρ) :
    (t.put r).rows = (t.rows.filter fun r' => !decide (key r' = key r)) ++ [r] := by
  unfold Table.put
  rw [Table.rows_insert]
  · rfl
  · exact Table.get?_remove_self t (key r)

theorem map_filter_seen (p' : ρ' → Bool) (h : ∀ r, p' (f r) = p r) :
    (l.filter p).map f = (l.map f).filter p' := by
  rw [filter_map]
  congr 2
  funext r
  exact (h r).symm

omit [DecidableEq κ] in
theorem Table.perm_deleteWhere (h : (t.rows.map f).Perm (t'.rows.map f)) (p' : ρ' → Bool)
    (hp : ∀ r, p' (f r) = p r) :
    ((t.deleteWhere p).rows.map f).Perm ((t'.deleteWhere p).rows.map f) := by
  have hnot : ∀ r, (!p' (f r)) = !p r := fun r => by rw [hp r]
  show ((t.rows.filter fun r => !p r).map f).Perm ((t'.rows.filter fun r => !p r).map f)
  rw [map_filter_seen (fun r' => !p' r') hnot, map_filter_seen (fun r' => !p' r') hnot]
  exact h.filter _

theorem Table.perm_put (h : (t.rows.map f).Perm (t'.rows.map f)) (key' : ρ' → κ)
    (hkey : ∀ r, key' (f r) = key r) (r : ρ) :
    ((t.put r).rows.map f).Perm ((t'.put r).rows.map f) := by
  have hp : ∀ r', (!decide (key' (f r') = key r)) = !decide (key r' = key r) :=
    fun r' => by rw [hkey r']
  rw [rows_put, rows_put, map_append, map_append,
    map_filter_seen (fun x => !decide (key' x = key r)) hp,
    map_filter_seen (fun x => !decide (key' x = key r)) hp]
  exact (h.filter _).append_right _

/-- What is seen in another order is the list itself, put in another order and seen. -/
theorem exists_perm_map {m : List ρ'} (h : (l.map f).Perm m) : ∃ l', l.Perm l' ∧ l'.map f = m := by
  induction m generalizing l with
  | nil => exact ⟨l, .refl _, perm_nil.mp h⟩
  | cons x m ih =>
    obtain ⟨r, hr, rfl⟩ := mem_map.mp (h.mem_iff.mpr mem_cons_self)
    obtain ⟨l₁, l₂, rfl⟩ := append_of_mem hr
    have hmiddle : (l₁ ++ r :: l₂).Perm (r :: (l₁ ++ l₂)) := perm_middle
    have hrest : ((l₁ ++ l₂).map f).Perm m := List.Perm.cons_inv ((hmiddle.map f).symm.trans h)
    obtain ⟨l', hl', hm⟩ := ih hrest
    exact ⟨r :: l', hmiddle.trans (hl'.cons r), by rw [map_cons, hm]⟩

/-! ## Where everything is seen -/

omit [DecidableEq κ] in
theorem Table.perm_deleteWhere_rows (h : t.rows.Perm t'.rows) (p : ρ → Bool) :
    (t.deleteWhere p).rows.Perm (t'.deleteWhere p).rows := h.filter _

theorem Table.perm_put_rows (h : t.rows.Perm t'.rows) (r : ρ) :
    (t.put r).rows.Perm (t'.put r).rows := by
  rw [rows_put, rows_put]
  exact (h.filter _).append_right _

theorem Table.get?_perm (h : t.rows.Perm t'.rows) (k : κ) : t.get? k = t'.get? k := find?_perm h k

end RemoteControl.Lib
