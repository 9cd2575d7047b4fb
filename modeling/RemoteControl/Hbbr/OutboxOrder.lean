import RemoteControl.Hbbr.OutboxDurability

/-!
# Leaving the queue in order

The queue is a list, so its front is older than the rest. What needs proof is
that a crash cannot bring an older event back once a younger one was handed
out: `next_event` only hands out the front of an outbox whose memory is on the
disk, and then

> no view holds an event recorded before the front, and no step makes one that
> does.
-/

namespace RemoteControl.Hbbr

open Lib List

variable {a : Action} {d e f : Event} {new : List Event} {o : Outbox} {p q : Past} {v : Snapshot}
  {s s' : System} {src : UuidSource}

/-! ## Events are recorded once -/

/-- The events a step records have identities drawn in that step. -/
structure Records (src : UuidSource) (p q : Past) (new : List Event) : Prop where
  recorded : q.recorded = p.recorded ++ new
  draws : p.draws ≤ q.draws
  drawn : ∃ ks : List Nat, ks.Nodup ∧ new.map Event.id = ks.map src.newV4 ∧
    ∀ k ∈ ks, p.draws ≤ k ∧ k < q.draws

theorem Records.none (hr : q.recorded = p.recorded) (hd : p.draws ≤ q.draws) : Records src p q [] :=
  ⟨hr.trans (append_nil _).symm, hd, [], nodup_nil, rfl, nofun⟩

theorem Records.one (hr : q.recorded = p.recorded ++ [e]) (hd : q.draws = p.draws + 1)
    (he : e.id = src.newV4 p.draws) : Records src p q [e] :=
  ⟨hr, by omega, [p.draws], nodup_singleton _, by simp [he],
    fun k hk => by rw [mem_singleton.mp hk]; omega⟩

theorem change_records {m m' : Machine} {op : Op} (h : Change src m op m') :
    ∃ new, Records src m.past m'.past new := by
  cases h with
  | admitPair | close => exact ⟨_, .one rfl rfl rfl⟩
  | acknowledge => exact ⟨[], .none rfl (Nat.le_refl _)⟩
  | quarantine | archive => exact ⟨[], .none rfl (Nat.le_succ _)⟩

theorem Loads.records {drained : List (String × Nat)} {draws : Nat} {f : Snapshot}
    {closing : List Event} (h : Loads src drained p.draws f v draws closing) :
    Records src p ⟨draws, p.recorded ++ closing, p.backups⟩ closing := by
  obtain ⟨first, hdraws, hclosing, hrev⟩ := h.draw
  have hfirst : p.draws ≤ first := by rcases hrev with ⟨-, -, h⟩ | ⟨-, -, h⟩ <;> omega
  refine ⟨rfl, h.le_draws, List.range' first drained.length, nodup_range', ?_, fun k hk => ?_⟩
  · rw [hclosing, drainActive_ids]
  · rw [mem_range'_1] at hk
    exact ⟨by omega, by show k < draws; omega⟩

theorem step_records (h : Step src s a s') : ∃ new, Records src s.past s'.past new := by
  rcases step_views h with ⟨⟨-, hdraws, hrec⟩, -⟩ | ⟨v, hmade, -⟩
  · exact ⟨[], .none hrec hdraws.ge⟩
  · cases hmade with
    | change hp ha hc hpast => exact hpast ▸ change_records hc
    | load hd hl hpast => exact ⟨_, hpast ▸ hl.records (p := s.past)⟩

/-- No two recorded events share an identity, and none of these will be drawn again. -/
structure Unrepeated (src : UuidSource) (p : Past) : Prop where
  nodup : (p.recorded.map Event.id).Nodup
  fresh : ∀ n, p.draws ≤ n → src.newV4 n ∉ p.recorded.map Event.id

theorem Records.unrepeated (h : Records src p q new) (hp : Unrepeated src p) :
    Unrepeated src q := by
  obtain ⟨ks, hks, hids, hk⟩ := h.drawn
  refine ⟨?_, fun n hn hmem => ?_⟩
  · rw [h.recorded, map_append, hids]
    refine hp.nodup.append (hks.map src.newV4_injective) fun x hx hnew => ?_
    obtain ⟨k, hmem, rfl⟩ := mem_map.mp hnew
    exact hp.fresh k (hk k hmem).1 hx
  · rw [h.recorded, map_append, hids] at hmem
    rcases mem_append.mp hmem with hold | hnew
    · exact hp.fresh n (Nat.le_trans h.draws hn) hold
    · obtain ⟨k, hmem, he⟩ := mem_map.mp hnew
      have := src.newV4_injective he
      have := hk k hmem
      omega

theorem unrepeated_of_reached (h : s.Reached src) : Unrepeated src s.past := by
  refine h.invariant (I := fun s => Unrepeated src s.past) (fun s hi => ?_) fun s a t hs hst => ?_
  · have hrec : s.past.recorded = s.disk.file.events := hi.recorded
    have hsub : (s.disk.file.events.map Event.id).Sublist
        ((s.disk.file.events ++ s.disk.file.quarantine).map Event.id) :=
      (sublist_append_left _ _).map _
    refine ⟨by rw [hrec]; exact hsub.nodup hi.nodup, fun n hn hmem => ?_⟩
    rw [hrec] at hmem
    exact (hi.fresh n hn).1 (hsub.subset hmem)
  · obtain ⟨new, hnew⟩ := step_records hst
    exact hnew.unrepeated hs

theorem Unrepeated.eq_of_id (h : Unrepeated src p) (he : e ∈ p.recorded) (hf : f ∈ p.recorded)
    (hid : e.id = f.id) : e = f :=
  inj_on_of_nodup_map h.nodup he hf hid

/-! ## Nothing older comes back -/

/-- `d` was recorded before `f`. -/
def Earlier (p : Past) (d f : Event) : Prop := [d, f].Sublist p.recorded

/-- No view holds an event older than `f`. -/
def NoneEarlier (f : Event) (s : System) : Prop := s.All fun p v => ∀ d ∈ v.events, ¬ Earlier p d f

theorem nodup_pair_asymm {l : List Event} (hl : l.Nodup) {a b : Event}
    (hab : [a, b].Sublist l) (hba : [b, a].Sublist l) : False := by
  induction l with
  | nil => cases hab
  | cons x l ih =>
    obtain ⟨hx, hl⟩ := nodup_cons.mp hl
    cases hab with
    | cons _ hab =>
      cases hba with
      | cons _ hba => exact ih hl hab hba
      | cons_cons _ _ => exact hx (hab.subset (.tail _ (.head _)))
    | cons_cons _ _ =>
      cases hba with
      | cons _ hba => exact hx (hba.subset (.tail _ (.head _)))
      | cons_cons _ hba => exact hx (hba.subset (.head _))

/-- An event of a view that a step makes was in an earlier view or is new. -/
theorem Made.events (hu : Unrepeated src s.past) (h : Made src s a s' v) (hd : d ∈ v.events) :
    (∃ w ∈ s.views, d ∈ w.events) ∨ d ∉ s.recorded := by
  obtain ⟨w, hw, hstems⟩ := h.stems
  refine (hstems.events d hd).imp (fun hd => ⟨w, hw, hd⟩) fun hnew hx => ?_
  obtain ⟨k, hk, -, hid⟩ := hnew.drawn
  exact hu.fresh k hk (hid ▸ mem_map_of_mem hx)

/-- Recording further events makes none of them earlier than an old one. -/
theorem Records.earlier (h : Records src p q new) (hq : Unrepeated src q) (hf : f ∈ p.recorded)
    (he : Earlier q d f) : Earlier p d f := by
  have hnodup := hq.nodup
  rw [Earlier, h.recorded] at he
  rw [h.recorded, map_append] at hnodup
  have hfnew : f ∉ new := fun hx => disjoint_of_nodup_append hnodup
    (mem_map_of_mem hf) (mem_map_of_mem hx)
  obtain ⟨l₁, l₂, hl, h₁, h₂⟩ := sublist_append_iff.mp he
  match l₁, hl with
  | [], hl =>
    rw [nil_append] at hl
    subst hl
    exact absurd (h₂.subset (.tail _ (.head _))) hfnew
  | [_], hl =>
    simp only [cons_append, nil_append, List.cons.injEq] at hl
    obtain ⟨-, rfl⟩ := hl
    exact absurd (h₂.subset (.head _)) hfnew
  | _ :: _ :: _, hl =>
    simp only [cons_append, List.cons.injEq] at hl
    obtain ⟨rfl, rfl, hnil⟩ := hl
    rw [nil_eq_append_iff.mp hnil |>.1] at h₁
    exact h₁

theorem noneEarlier_step (hr : s.Reached src) (h : Step src s a s') (hf : f ∈ s.recorded)
    (hs : NoneEarlier f s) : NoneEarlier f s' := by
  have hu := unrepeated_of_reached hr
  obtain ⟨new, hnew⟩ := step_records h
  intro v hv d hd he
  have hearlier : Earlier s.past d f := hnew.earlier (hnew.unrepeated hu) hf he
  have hrec : d ∈ s.recorded := hearlier.subset (.head _)
  have hold : ∃ w ∈ s.views, d ∈ w.events := by
    rcases step_views h with ⟨-, hsub⟩ | ⟨v₀, hmade, hsub⟩
    · exact ⟨v, hsub v hv, hd⟩
    · rcases hsub v hv with rfl | hv
      · exact (hmade.events hu hd).resolve_right fun hx => hx hrec
      · exact ⟨v, hv, hd⟩
  obtain ⟨w, hw, hdw⟩ := hold
  exact hs w hw d hdw hearlier

/-- A healthy outbox is on the disk as it is in memory: there is one view. -/
theorem view_of_healthy (hr : s.Reached src) (hp : s.proc = some o) (hh : o.healthy = true)
    (hv : v ∈ s.views) : v = o.snapshot := by
  obtain ⟨hj, hun⟩ := synced_of_reached hr o hp hh
  rcases mem_views.mp hv with ⟨o', ho', rfl⟩ | hv
  · rw [hp] at ho'; cases ho'; rfl
  · rcases mem_diskViews.mp hv with rfl | ⟨c, hc, -⟩
    · rw [Disk.file, hj]; rfl
    · rw [hun] at hc; cases hc

/-- The front of an outbox whose memory is on the disk is the oldest event anywhere. -/
theorem noneEarlier_front {rest : List Event} (hr : s.Reached src) (hp : s.proc = some o)
    (hh : o.healthy = true) (hq : o.snapshot.events = f :: rest) : NoneEarlier f s := by
  have hu := unrepeated_of_reached hr
  intro v hv d hd he
  obtain rfl := view_of_healthy hr hp hh hv
  have hsub : (f :: rest).Sublist s.recorded := by
    rw [← hq]; exact inOrder_of_reached hr _ (memory_mem_views hp)
  have hnodup : s.recorded.Nodup := hu.nodup.of_map _
  rw [hq] at hd
  rcases mem_cons.mp hd with rfl | hd
  · exact nodup_pair_asymm hnodup he he
  · exact nodup_pair_asymm hnodup (((singleton_sublist.mpr hd).cons_cons f).trans hsub) he

/-- An event leaves the queue of a running process only from the front, acknowledged or
quarantined. -/
theorem step_leaves {o' : Outbox} (h : Step src s a s') (hp : s.proc = some o)
    (hp' : s'.proc = some o') (he : e ∈ o.snapshot.events) (he' : e ∉ o'.snapshot.events) :
    ∃ op, a = .op op ∧ (Acknowledges e o.snapshot op ∨ Quarantines e o.snapshot op ∧
      { e with reason := "credential_rotated" } ∈ o'.snapshot.quarantine) := by
  cases h with
  | @op o₁ op hp₁ =>
    rw [hp] at hp₁
    cases hp₁
    generalize hm : op.perform src (s.machine o) = m' at hp'
    have hout := perform_outcome src (s.machine o) op
    rw [hm] at hout
    cases hp'
    refine ⟨op, rfl, ?_⟩
    cases hout with
    | unwritten => exact absurd he he'
    | rewritten fault =>
      rw [show (Machine.flush fault (s.machine o)).2.outbox.snapshot = o.snapshot from
        flush_snapshot _ _] at he'
      exact absurd he he'
    | @changed m₁ fault hc =>
      have hsnap : (m₁.flush fault).2.outbox.snapshot = m₁.snapshot := flush_snapshot _ _
      rw [hsnap] at he' ⊢
      exact change_leaves hc he he'
  | openRefused hp₁ => rw [hp] at hp₁; cases hp₁
  | openFailed | kill | powerLoss => cases hp'
  | opened hp₁ => rw [hp] at hp₁; cases hp₁

end RemoteControl.Hbbr
