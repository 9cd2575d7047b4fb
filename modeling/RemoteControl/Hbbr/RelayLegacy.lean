import RemoteControl.Hbbr.RelayPairing

/-!
# Pairs in legacy mode

A message of the legacy control port inserts a permit for whatever UUID it names, and
neither a waiting connection nor a pair of that UUID stops it. What the tables mean rests
on the UUIDs being used for one thing at a time:

> As long as no permit arrives for a UUID that a connection waits for or that an
> unfinished pair has, a pair's two connections have the same permit, and the handle of
> a pair is in `active` until a termination takes it.

Otherwise a connection is paired with one that another permit let in, and the second pair
of a UUID ends the first: its handle replaces the first one's, and when the first pair
is through it removes the handle of the second.
-/

namespace RemoteControl.Hbbr.Relay

open Lib List

variable {p : Pair} {uuid : String}

/-- The pairs that have not finished. -/
def State.unfinished (w : State) : List Pair := w.running ++ w.closing

/-- Neither a connection waits for the UUID nor has an unfinished pair it. -/
def State.Unused (w : State) (uuid : String) : Prop :=
  w.pending.get? uuid = none ∧ ∀ p ∈ w.unfinished, p.uuid ≠ uuid

/-- Permits arrive only for UUIDs that are not in use. -/
def CalmStep (w : State) (l : Label) (w' : State) : Prop :=
  LegacyStep w l w' ∧ ∀ uuid expiresIn, l = .permitMessage uuid expiresIn → w.Unused uuid

def Holder.connectionUuid? : Holder → Option String
  | .admitted uuid _ | .alone uuid _ | .met uuid _ _ | .reported uuid _ _ => some uuid
  | _ => none

/-- An unfinished pair has its UUID for itself, and its handle is in `active` until a termination
takes it. -/
structure Exclusive (w : State) : Prop where
  distinct : (w.unfinished.map Pair.uuid).Nodup
  permits : ∀ p ∈ w.unfinished, w.permits.get? p.uuid = none
  pending : ∀ p ∈ w.unfinished, w.pending.get? p.uuid = none
  held : ∀ h, w.holder = some h → ∀ p ∈ w.unfinished, h.connectionUuid? ≠ some p.uuid
  handles : ∀ p ∈ w.running, ¬ w.Cancelled p ∨ ⟨p.uuid, p.number⟩ ∈ w.terminated

theorem exclusive_start : Exclusive .start where
  distinct := nodup_nil
  permits _ h := by cases h
  pending _ h := by cases h
  held _ h := by cases h
  handles _ h := by cases h

section

variable {w w' : State} {l : Label}

section

variable (h : Exclusive w)

include h

theorem Exclusive.sub {permits : Table Permit.uuid} {pending : Table Pending.uuid}
    (hp : permits.Sub w.permits) (hq : pending.Sub w.pending) :
    Exclusive { w with permits, pending } :=
  { h with
    permits := fun p hmem => hp.none (h.permits p hmem)
    pending := fun p hmem => hq.none (h.pending p hmem) }

/-- The lock changes its owner, or the owner gets on. -/
theorem Exclusive.hold {holder : Option Holder}
    (hh : ∀ x, holder = some x → ∀ p ∈ w.unfinished, x.connectionUuid? ≠ some p.uuid) :
    Exclusive { w with holder } :=
  { h with held := hh }

theorem Exclusive.holdFree (holder : Option Holder)
    (hfree : holder.bind Holder.connectionUuid? = none) : Exclusive { w with holder } := by
  refine h.hold fun x hx p _ hu => ?_
  rw [hx, Option.bind_some, hu] at hfree
  cases hfree

/-- The owner of the lock gets on with its connection. -/
theorem Exclusive.onward {x y : Holder} (hh : w.holder = some x)
    (hsame : y.connectionUuid? = x.connectionUuid?) : Exclusive { w with holder := some y } := by
  refine h.hold fun z hz p hp => ?_
  cases hz
  rw [hsame]
  exact h.held x hh p hp

theorem Exclusive.admittedStep {c : Nat} {p : Permit} (hp : w.usable uuid = some p) :
    Exclusive (w.enter uuid c p) := by
  obtain ⟨hget, rfl, -, -⟩ := usable_some hp
  refine { h with permits := fun q hq => ?_, held := fun x hx q hq hu => ?_ }
  · cases hnew : (usePermit p w.permits).get? q.uuid with
    | none => exact hnew
    | some p' =>
      obtain ⟨p₀, hold, -⟩ := usePermit_old hget hnew
      exact absurd ((h.permits q hq).symm.trans hold) (by simp)
  · cases hx
    have he : p.uuid = q.uuid := Option.some.inj hu
    rw [he, h.permits q hq] at hget
    cases hget

theorem Exclusive.paired (hpairing : Pairing w) {a : Admission} {peer : Pending}
    (hh : w.holder = some (.reported uuid a peer)) :
    Exclusive { w with
      active := w.active.put ⟨uuid, w.pairs.length⟩
      running := ⟨uuid, w.pairs.length, a, peer.admission, w.epoch⟩ :: w.running
      pairs := ⟨uuid, w.pairs.length, a, peer.admission, w.epoch⟩ :: w.pairs
      holder := none } := by
  obtain ⟨-, -, -, -, hpermit, hpending⟩ := hpairing.held _ hh
  have hother : ∀ p ∈ w.unfinished, p.uuid ≠ uuid := fun p hp he =>
    h.held _ hh p hp (congrArg some he.symm)
  refine ⟨?_, fun p hp => ?_, fun p hp => ?_, nofun, fun p hp => ?_⟩
  · refine nodup_cons.mpr ⟨fun hmem => ?_, h.distinct⟩
    obtain ⟨p, hp, he⟩ := mem_map.mp hmem
    exact hother p hp he
  · rcases mem_cons.mp hp with rfl | hp
    · exact hpermit
    · exact h.permits p hp
  · rcases mem_cons.mp hp with rfl | hp
    · exact hpending
    · exact h.pending p hp
  · rcases mem_cons.mp hp with rfl | hp
    · exact .inl fun hc => hc (w.active.get?_put_self _)
    · refine (h.handles p hp).imp (fun hlive hc => hlive fun hget => hc ?_) id
      have hne : p.uuid ≠ uuid := hother p (mem_append_left _ hp)
      exact (w.active.get?_put_of_ne hne).trans hget

theorem Exclusive.stops (hp : p ∈ w.running) :
    Exclusive { w with running := w.running.erase p, closing := p :: w.closing } := by
  have hperm : (w.running.erase p ++ p :: w.closing).Perm w.unfinished := by
    have hfront : (w.running.erase p ++ p :: w.closing).Perm (p :: w.running.erase p ++ w.closing) :=
      perm_middle
    exact hfront.trans ((perm_cons_erase hp).symm.append_right _)
  exact ⟨(hperm.map _).nodup_iff.mpr h.distinct,
    fun q hq => h.permits q (hperm.subset hq),
    fun q hq => h.pending q (hperm.subset hq),
    fun x hx q hq => h.held x hx q (hperm.subset hq),
    fun q hq => h.handles q (mem_of_mem_erase hq)⟩

/-- A pair that has ended takes the handle of its UUID out of `active`. -/
theorem Exclusive.released (hp : p ∈ w.closing) :
    Exclusive { w with active := w.active.remove p.uuid, closing := w.closing.erase p } := by
  have hsub : (w.running ++ w.closing.erase p).Sublist w.unfinished := (erase_sublist).append_left _
  refine ⟨h.distinct.sublist (hsub.map _), fun q hq => h.permits q (hsub.subset hq),
    fun q hq => h.pending q (hsub.subset hq), fun x hx q hq => h.held x hx q (hsub.subset hq),
    fun q hq => ?_⟩
  have hne : q.uuid ≠ p.uuid := by
    have hdisjoint := h.distinct
    unfold State.unfinished at hdisjoint
    rw [map_append] at hdisjoint
    exact (nodup_append.mp hdisjoint).2.2 _ (mem_map_of_mem hq) _ (mem_map_of_mem hp)
  refine (h.handles q hq).imp (fun hlive hc => hlive fun hget => hc ?_) id
  exact (w.active.get?_remove_of_ne hne).trans hget

theorem Exclusive.data (hpairing : Pairing w) (hs : DataStep w l w') : Exclusive w' := by
  cases hs with
  | arrive uuid hh => exact { h.holdFree (some (.accept uuid w.connections)) rfl with }
  | refused | reportFailed => exact h.holdFree none rfl
  | admitted hh hp => exact h.admittedStep hp
  | @met uuid a peer hh hp =>
    exact (h.onward (y := .met uuid a peer) hh rfl).sub (.refl _) (w.pending.remove_sub uuid)
  | alone hh hp => exact h.onward hh rfl
  | reported hh => exact h.onward hh rfl
  | paired hh => exact h.paired hpairing hh
  | @waits uuid a hh =>
    refine { h.holdFree none rfl with pending := fun p hp => ?_ }
    have hne : p.uuid ≠ uuid := fun he => h.held _ hh p hp (congrArg some he.symm)
    exact (w.pending.get?_put_of_ne hne).trans (h.pending p hp)
  | endpoint hp => exact h.stops hp
  | cancelled hp => exact h.stops hp
  | released hp => exact h.released hp
  | tick => exact { h with }
  | cleanPermits => exact h.sub (w.permits.deleteWhere_sub _) (.refl _)
  | cleanPending => exact h.sub (.refl _) (w.pending.deleteWhere_sub _)
  | @terminatePermit uuid c hh =>
    exact (h.holdFree (some (.terminatePending uuid c)) rfl).sub (w.permits.remove_sub uuid) (.refl _)
  | @terminatePending uuid c hh =>
    exact (h.holdFree (some (.terminateActive uuid c (w.pending.get? uuid).isSome)) rfl).sub
      (.refl _) (w.pending.remove_sub uuid)

/-- The end of a termination: the handle it takes is recorded. -/
theorem Exclusive.takeHandle (uuid : String) :
    Exclusive { w.takeHandle uuid with holder := none } := by
  refine { h.holdFree none rfl with handles := fun p hp => ?_ }
  have hkept : ⟨p.uuid, p.number⟩ ∈ w.terminated →
      ⟨p.uuid, p.number⟩ ∈ (w.active.get? uuid).toList ++ w.terminated :=
    fun hmem => mem_append_right _ hmem
  rcases h.handles p hp with hlive | hdone
  · have hget : w.active.get? p.uuid = some ⟨p.uuid, p.number⟩ := not_not.mp hlive
    by_cases he : p.uuid = uuid
    · right
      rw [he] at hget
      show _ ∈ (w.active.get? uuid).toList ++ w.terminated
      rw [hget, he]
      exact mem_append_left _ (mem_singleton_self _)
    · left
      intro hc
      exact hc ((w.active.get?_remove_of_ne he).trans hget)
  · exact .inr (hkept hdone)

end

theorem insertPermit_holder (hh : w.holder = none) (uuid : String) (lifetime : Nat) :
    { w.insertPermit uuid lifetime with holder := none } = w.insertPermit uuid lifetime := by
  simp [State.insertPermit, hh]

/-- The step lemma of a run in which permits arrive only for unused UUIDs. -/
theorem calm_step (hpairing : Pairing w) (h : Exclusive w) (hs : CalmStep w l w') :
    Pairing w' ∧ Exclusive w' := by
  obtain ⟨hstep, hcalm⟩ := hs
  cases hstep with
  | data hd => exact ⟨hpairing.data hd, h.data hpairing hd⟩
  | @permit uuid expiresIn hh hu hroom =>
    obtain ⟨hpending, hother⟩ := hcalm uuid expiresIn rfl
    have hinserted := hpairing.insertPermit (legacyLifetime expiresIn) hpending
    rw [insertPermit_holder hh] at hinserted
    refine ⟨hinserted, { h with permits := fun p hp => ?_ }⟩
    exact (w.permits.get?_put_of_ne (hother p hp)).trans (h.permits p hp)
  | permitFull => exact ⟨hpairing, h⟩
  | terminate hh hu =>
    refine ⟨hpairing.hold fun x hx => ?_, h.holdFree (some _) rfl⟩
    cases hx
    trivial
  | terminated hh =>
    exact ⟨{ hpairing with held := nofun }, h.takeHandle _⟩

/-- A pair leaves `running` only when an endpoint ends or its receiver fires. -/
theorem LegacyStep.leaves (hs : LegacyStep w l w') (hp : p ∈ w.running) (hp' : p ∉ w'.running) :
    l = .endpoint p ∨ l = .cancelled p ∧ w.Cancelled p := by
  have herase {q : Pair} (hq : p ∉ w.running.erase q) : q = p := by
    by_contra hne
    exact hq ((mem_erase_of_ne (Ne.symm hne)).mpr hp)
  cases hs with
  | data hd =>
    cases hd with
    | endpoint hq =>
      obtain rfl := herase hp'
      exact .inl rfl
    | cancelled hq hc =>
      obtain rfl := herase hp'
      exact .inr ⟨rfl, hc⟩
    | paired => exact absurd (mem_cons_of_mem _ hp) hp'
    | _ => exact absurd hp hp'
  | _ => exact absurd hp hp'

/-! ## After a termination -/

/-- The handle of the UUID, if it has one, is of a pair from number `n` on. -/
structure Later (uuid : String) (n : Nat) (w : State) : Prop where
  count : n ≤ w.pairs.length
  handle : ∀ h, w.active.get? uuid = some h → n ≤ h.pair

theorem Later.step {n : Nat} (h : Later uuid n w) (hs : LegacyStep w l w') : Later uuid n w' := by
  have hremove (u : String) : ∀ x, (w.active.remove u).get? uuid = some x → n ≤ x.pair :=
    fun x hx => h.handle x (w.active.remove_sub u hx)
  cases hs with
  | data hd =>
    cases hd with
    | @paired u a peer hh =>
      refine ⟨Nat.le_succ_of_le h.count, fun x hx => ?_⟩
      rw [Table.get?_put] at hx
      split at hx
      · cases hx
        exact h.count
      · exact h.handle x hx
    | released hp => exact ⟨h.count, hremove _⟩
    | _ => exact { h with }
  | terminated hh => exact ⟨h.count, hremove _⟩
  | _ => exact { h with }

def PairsNumbered (w : State) : Prop := ∀ p ∈ w.pairs, p.number < w.pairs.length

theorem PairsNumbered.step (h : PairsNumbered w) (hs : LegacyStep w l w') : PairsNumbered w' := by
  cases hs with
  | data hd =>
    cases hd with
    | paired hh =>
      intro p hp
      rcases mem_cons.mp hp with rfl | hp
      · exact Nat.lt_succ_self _
      · exact Nat.lt_succ_of_lt (h p hp)
    | _ => exact h
  | _ => exact h

end

/-- **Legacy pairs.** In a run in which permits arrive only for UUIDs that are not in use: both
connections of every pair were let in by the same permit; a pair stops only because an endpoint
ended or because a termination took its handle; and once a termination has answered, the pairs that
its UUID had until then stay cancelled, whatever happens next. -/
theorem legacy_pairs {w : State} {ls : List Label} (hrun : Run CalmStep .start ls w) :
    (∀ p ∈ w.pairs, p.waiting.permit = p.newcomer.permit) ∧
    (∀ l w' p, LegacyStep w l w' → p ∈ w.running → p ∉ w'.running →
      l = .endpoint p ∨ l = .cancelled p ∧ ⟨p.uuid, p.number⟩ ∈ w.terminated) ∧
    ∀ uuid status w' ls' w'', LegacyStep w (.answered uuid status) w' →
      Run LegacyStep w' ls' w'' → ∀ p ∈ w'.pairs, p.uuid = uuid → w''.Cancelled p := by
  have hinv : Pairing w ∧ Exclusive w := by
    refine hrun.invariant (I := fun w => Pairing w ∧ Exclusive w)
      (fun _ _ _ hi hs => calm_step hi.1 hi.2 hs) ⟨pairing_start [], exclusive_start⟩
  have hnumbered : PairsNumbered w := hrun.invariant (fun _ _ _ hi hs => hi.step hs.1) nofun
  refine ⟨fun p hp => (hinv.1.sound p hp).permit, fun l w' p hs hp hp' => ?_,
    fun uuid status w' ls' w'' hs hrun' p hp he hget => ?_⟩
  · rcases hs.leaves hp hp' with hl | ⟨hl, hc⟩
    · exact .inl hl
    · refine .inr ⟨hl, ?_⟩
      rcases hinv.2.handles p hp with hlive | hdone
      · exact absurd hc hlive
      · exact hdone
  · -- right after the answer the UUID has no handle at all
    have hlater : Later uuid w'.pairs.length w' := by
      refine ⟨Nat.le_refl _, fun x hx => ?_⟩
      cases hs with
      | data hd => cases hd
      | terminated hh =>
        have hnone : (w.active.remove uuid).get? uuid = none := w.active.get?_remove_self uuid
        exact absurd (hnone.symm.trans hx) (by simp)
    have hlater' : Later uuid w'.pairs.length w'' :=
      hrun'.invariant (fun _ _ _ hi hs => hi.step hs) hlater
    have hlt : p.number < w'.pairs.length := hnumbered.step hs p hp
    rw [he] at hget
    exact absurd (hlater'.handle _ hget) (Nat.not_le.mpr hlt)

/-! ## UUIDs that are used once, and one that is used again -/

theorem CalmStep.data {w w' : State} {l : Label} (h : DataStep w l w') : CalmStep w l w' :=
  ⟨.data h, fun uuid expiresIn hl => by subst hl; cases h⟩

/-- A permit, and the two connections it is for. -/
theorem legacyPair_run :
    ∃ ls w, Run CalmStep .start ls w ∧ w.pairs.length = 1 ∧ w.running.length = 1 := by
  have hpermit : CalmStep .start (.permitMessage "pair-0001" 60) _ :=
    ⟨.permit rfl (by decide) (by decide), fun uuid expiresIn _ => ⟨rfl, nofun⟩⟩
  have hwaits := (Run.single hpermit).trans
    (waits_run ⟨"pair-0001", 60000, 2, 0, 0⟩ .data rfl (by decide) rfl)
  have hpaired := hwaits.trans (pairs_run ⟨"pair-0001", 60000, 1, 0, 0⟩ .data rfl (by decide) rfl)
  exact ⟨_, _, hpaired, rfl, rfl⟩

theorem legacyPair_same_permit :
    ∃ w : State, (∃ ls, Run CalmStep .start ls w) ∧ w.pairs.length = 1 ∧
      ∀ p ∈ w.pairs, p.waiting.permit = p.newcomer.permit := by
  obtain ⟨ls, w, hrun, hpairs, -⟩ := legacyPair_run
  exact ⟨w, ⟨ls, hrun⟩, hpairs, (legacy_pairs hrun).1⟩

/-- While a connection waits, its UUID is permitted again: the connection that comes next is let in
by the second permit and paired with the first one's. -/
theorem paired_across_permits :
    ∃ ls w, Run LegacyStep .start ls w ∧ ∃ p ∈ w.pairs, p.waiting.permit ≠ p.newcomer.permit := by
  have hpermit : LegacyStep .start (.permitMessage "pair-0001" 60) _ :=
    .permit rfl (by decide) (by decide)
  have hwaits := (Run.single hpermit).trans
    (waits_run ⟨"pair-0001", 60000, 2, 0, 0⟩ .data rfl (by decide) rfl)
  have hagain := hwaits.snoc (@LegacyStep.permit _ "pair-0001" 60 rfl (by decide) (by decide))
  have hpaired := hagain.trans (pairs_run ⟨"pair-0001", 60000, 2, 1, 0⟩ .data rfl (by decide) rfl)
  exact ⟨_, _, hpaired, _, mem_cons_self, by decide⟩

/-- While a pair transfers, its UUID is permitted again: the second pair's handle replaces the
first one's, though nothing was terminated. -/
theorem second_pair_cancels_first :
    ∃ ls w, Run LegacyStep .start ls w ∧ w.terminated = [] ∧ ∃ p ∈ w.running, w.Cancelled p := by
  have hpermit : LegacyStep .start (.permitMessage "pair-0001" 60) _ :=
    .permit rfl (by decide) (by decide)
  have hwaits := (Run.single hpermit).trans
    (waits_run ⟨"pair-0001", 60000, 2, 0, 0⟩ .data rfl (by decide) rfl)
  have hpaired := hwaits.trans (pairs_run ⟨"pair-0001", 60000, 1, 0, 0⟩ .data rfl (by decide) rfl)
  have hagain := hpaired.snoc (@LegacyStep.permit _ "pair-0001" 60 rfl (by decide) (by decide))
  have hwaits' := hagain.trans (waits_run ⟨"pair-0001", 60000, 2, 1, 0⟩ .data rfl (by decide) rfl)
  have hpaired' := hwaits'.trans (pairs_run ⟨"pair-0001", 60000, 1, 1, 0⟩ .data rfl (by decide) rfl)
  exact ⟨_, _, hpaired', rfl, _, mem_cons_of_mem _ mem_cons_self, by decide⟩

/-- **UUIDs used again.** Both ways in which a second permit breaks what the first one stood for. -/
theorem permit_for_used_uuid :
    (∃ ls w, Run LegacyStep .start ls w ∧ ∃ p ∈ w.pairs, p.waiting.permit ≠ p.newcomer.permit) ∧
    ∃ ls w, Run LegacyStep .start ls w ∧ w.terminated = [] ∧ ∃ p ∈ w.running, w.Cancelled p :=
  ⟨paired_across_permits, second_pair_cancels_first⟩

end RemoteControl.Hbbr.Relay
