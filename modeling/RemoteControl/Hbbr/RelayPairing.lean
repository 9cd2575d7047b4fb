import RemoteControl.Hbbr.Relay

/-!
# Which permit let a connection in

What holds at every step of `DataStep`, and after every permit that is inserted while no
connection waits for its UUID: a permit is used at most twice, and a waiting connection
and its peer were let in by the same one.

> While a connection waits, the only permit its UUID can have is the one that let it in,
> with one use left.
-/

namespace RemoteControl.Hbbr.Relay

open Lib List Table

variable {p : Permit} {uuid : String} {pending : Table Pending.uuid} {permits : Table Permit.uuid}

/-- How often a permit was used. -/
def State.uses (w : State) (number : Nat) : Nat := w.admissions.countP fun a => a.permit = number

/-- The permit of the UUID, if there is one, is the one of this number, with one use left. -/
def State.RestOf (w : State) (uuid : String) (number : Nat) : Prop :=
  ∀ p, w.permits.get? uuid = some p → p.number = number ∧ p.uses = 1

/-- What is known of the holder of the lock, by how far it has got. -/
def State.Held (w : State) : Holder → Prop
  | .accept _ c => c < w.connections ∧ ∀ u q, w.pending.get? u = some q → q.admission.connection < c
  | .admitted uuid a =>
    a ∈ w.admissions ∧ a.connection < w.connections ∧ w.RestOf uuid a.permit ∧
      ∀ q, w.pending.get? uuid = some q → q.admission.permit = a.permit ∧
        q.admission.connection < a.connection ∧ w.permits.get? uuid = none
  | .met uuid a peer | .reported uuid a peer =>
    a ∈ w.admissions ∧ peer.admission ∈ w.admissions ∧ peer.admission.permit = a.permit ∧
      peer.admission.connection < a.connection ∧ w.permits.get? uuid = none ∧
      w.pending.get? uuid = none
  | .alone uuid a => a ∈ w.admissions ∧ a.connection < w.connections ∧ w.RestOf uuid a.permit
  | _ => True

/-- Two different connections that one permit let in. -/
structure Pair.Sound (p : Pair) (admissions : List Admission) : Prop where
  newcomer : p.newcomer ∈ admissions
  waiting : p.waiting ∈ admissions
  permit : p.waiting.permit = p.newcomer.permit
  connection : p.waiting.connection < p.newcomer.connection

structure Pairing (w : State) : Prop where
  -- permits
  numbered : ∀ u p, w.permits.get? u = some p → p.number < w.issued
  distinct : ∀ u p u' p', w.permits.get? u = some p → w.permits.get? u' = some p' →
    p.number = p'.number → u = u'
  left : ∀ u p, w.permits.get? u = some p → w.uses p.number + p.uses ≤ 2
  -- admissions
  drawn : ∀ a ∈ w.admissions, a.permit < w.issued
  twice : ∀ n, w.uses n ≤ 2
  inTime : ∀ a ∈ w.admissions, a.time < a.expiresAt
  -- waiting connections, and the one being accepted
  waiting : ∀ u q, w.pending.get? u = some q → q.admission ∈ w.admissions ∧
    q.admission.connection < w.connections ∧ w.RestOf u q.admission.permit
  held : ∀ h, w.holder = some h → w.Held h
  sound : ∀ p ∈ w.pairs, p.Sound w.admissions

theorem pairing_start (sessions : List String) : Pairing { State.start with sessions } where
  numbered _ _ h := by cases h
  distinct _ _ _ _ h := by cases h
  left _ _ h := by cases h
  drawn _ h := by cases h
  twice _ := Nat.zero_le 2
  inTime _ h := by cases h
  waiting _ _ h := by cases h
  held _ h := by cases h
  sound _ h := by cases h

section

variable {w : State}

/-! ## Tables that lose rows -/

theorem State.RestOf.sub {number : Nat} (h : w.RestOf uuid number) (hp : permits.Sub w.permits) :
    ({ w with permits } : State).RestOf uuid number :=
  fun p hget => h p (hp hget)

theorem State.Held.sub {h : Holder} (hheld : w.Held h) (hp : permits.Sub w.permits)
    (hq : pending.Sub w.pending) : ({ w with permits, pending } : State).Held h := by
  cases h with
  | accept uuid c => exact ⟨hheld.1, fun u q hget => hheld.2 u q (hq hget)⟩
  | admitted uuid a =>
    obtain ⟨ha, hc, hrest, hpeer⟩ := hheld
    refine ⟨ha, hc, hrest.sub hp, fun q hget => ?_⟩
    obtain ⟨hpermit, hconn, hnone⟩ := hpeer q (hq hget)
    exact ⟨hpermit, hconn, hp.none hnone⟩
  | met | reported =>
    obtain ⟨ha, hpeer, hpermit, hconn, hnone, hgone⟩ := hheld
    exact ⟨ha, hpeer, hpermit, hconn, hp.none hnone, hq.none hgone⟩
  | alone uuid a => exact ⟨hheld.1, hheld.2.1, hheld.2.2.sub hp⟩
  | _ => trivial

/-- Removing permits and waiting connections. -/
theorem Pairing.sub (h : Pairing w) (hp : permits.Sub w.permits) (hq : pending.Sub w.pending) :
    Pairing { w with permits, pending } where
  numbered u p hget := h.numbered u p (hp hget)
  distinct u p u' p' hget hget' := h.distinct u p u' p' (hp hget) (hp hget')
  left u p hget := h.left u p (hp hget)
  drawn := h.drawn
  twice := h.twice
  inTime := h.inTime
  waiting u q hget := by
    obtain ⟨ha, hc, hrest⟩ := h.waiting u q (hq hget)
    exact ⟨ha, hc, hrest.sub hp⟩
  held holder hh := (h.held holder hh).sub hp hq
  sound := h.sound

/-- The lock changes its owner, or the owner gets on. -/
theorem Pairing.hold (h : Pairing w) {holder : Option Holder}
    (hheld : ∀ x, holder = some x → w.Held x) : Pairing { w with holder } :=
  { h with held := hheld }

/-! ## Using a permit -/

theorem usable_some (h : w.usable uuid = some p) :
    w.permits.get? uuid = some p ∧ p.uuid = uuid ∧ w.now < p.expiresAt ∧ 0 < p.uses := by
  unfold State.usable at h
  obtain ⟨hget, hok⟩ := Option.filter_eq_some_iff.mp h
  simp only [Bool.and_eq_true, decide_eq_true_eq] at hok
  exact ⟨hget, get?_key hget, hok.1, hok.2⟩

/-- After a use the UUID has the permit with one use less, or none. -/
theorem get?_usePermit {u : String} {p' : Permit} (h : (usePermit p permits).get? u = some p') :
    u = p.uuid ∧ p' = { p with uses := p.uses - 1 } ∧ p.uses - 1 ≠ 0 ∨
      u ≠ p.uuid ∧ permits.get? u = some p' := by
  unfold usePermit at h
  split at h
  · next hzero =>
    rw [get?_remove] at h
    split at h
    · cases h
    · next hne => exact .inr ⟨fun he => hne he.symm, h⟩
  · next hmore =>
    rw [get?_put] at h
    split at h
    · next he => exact .inl ⟨he.symm, (Option.some.inj h).symm, hmore⟩
    · next hne => exact .inr ⟨fun he => hne he.symm, h⟩

/-- A permit of the new table was in the old one, with at least as many uses. -/
theorem usePermit_old {u : String} {p' : Permit} (hget : permits.get? p.uuid = some p)
    (h : (usePermit p permits).get? u = some p') :
    ∃ q, permits.get? u = some q ∧ q.number = p'.number ∧ q.epoch = p'.epoch ∧
      q.expiresAt = p'.expiresAt ∧ p'.uses ≤ q.uses := by
  rcases get?_usePermit h with ⟨rfl, rfl, -⟩ | ⟨-, hu⟩
  · exact ⟨p, hget, rfl, rfl, rfl, Nat.sub_le _ _⟩
  · exact ⟨p', hu, rfl, rfl, rfl, Nat.le_refl _⟩

theorem Pair.Sound.mono {p : Pair} {as bs : List Admission} (h : p.Sound as) (hsub : as ⊆ bs) :
    p.Sound bs :=
  { h with newcomer := hsub h.newcomer, waiting := hsub h.waiting }

/-- The state after a connection was let in. -/
def State.enter (uuid : String) (c : Nat) (p : Permit) (w : State) : State :=
  { w with
    permits := usePermit p w.permits
    admissions := w.admission c p :: w.admissions
    holder := some (.admitted uuid (w.admission c p)) }

theorem uses_enter (c n : Nat) :
    (w.enter uuid c p).uses n = w.uses n + if p.number = n then 1 else 0 := by
  unfold State.uses State.enter
  rw [countP_cons]
  simp only [decide_eq_true_eq]
  rfl

/-- A connection is let in. If another one waits, it used the same permit, and this is the
permit's last use. -/
theorem Pairing.admitted (h : Pairing w) {c : Nat} (hh : w.holder = some (.accept uuid c))
    (hp : w.usable uuid = some p) : Pairing (w.enter uuid c p) := by
  obtain ⟨hget, rfl, htime, huses⟩ := usable_some hp
  obtain ⟨hc, hbefore⟩ := h.held _ hh
  have hleft := h.left _ _ hget
  refine ⟨fun u p' hu => ?_, fun u p' u' q' hu hu' hn => ?_, fun u p' hu => ?_, fun a ha => ?_,
    fun n => ?_, fun a ha => ?_, fun u q hq => ?_, fun x hx => ?_, fun r hr => ?_⟩
  · obtain ⟨q, hq, hn, -⟩ := usePermit_old hget hu
    exact hn ▸ h.numbered u q hq
  · obtain ⟨q, hq, hqn, -⟩ := usePermit_old hget hu
    obtain ⟨q₁, hq₁, hqn₁, -⟩ := usePermit_old hget hu'
    exact h.distinct u q u' q₁ hq hq₁ (by rw [hqn, hqn₁, hn])
  · rw [uses_enter]
    rcases get?_usePermit hu with ⟨rfl, rfl, hmore⟩ | ⟨hne, hu⟩
    · rw [if_pos rfl]
      show w.uses p.number + 1 + (p.uses - 1) ≤ 2
      omega
    · have hn : p.number ≠ p'.number := fun hn => hne (h.distinct _ _ _ _ hget hu hn).symm
      rw [if_neg hn]
      exact h.left u p' hu
  · rcases mem_cons.mp ha with rfl | ha
    · exact h.numbered _ _ hget
    · exact h.drawn a ha
  · rw [uses_enter]
    split
    · next hn =>
      rw [← hn]
      omega
    · exact h.twice n
  · rcases mem_cons.mp ha with rfl | ha
    · exact htime
    · exact h.inTime a ha
  · obtain ⟨ha, hconn, hrest⟩ := h.waiting u q hq
    refine ⟨mem_cons_of_mem _ ha, hconn, fun p' hu => ?_⟩
    rcases get?_usePermit hu with ⟨rfl, -, hmore⟩ | ⟨-, hu⟩
    · have hone := (hrest p hget).2
      omega
    · exact hrest p' hu
  · cases hx
    refine ⟨mem_cons_self, hc, fun p' hu => ?_, fun q hq => ?_⟩
    · rcases get?_usePermit hu with ⟨-, rfl, hmore⟩ | ⟨hne, -⟩
      · refine ⟨rfl, ?_⟩
        show p.uses - 1 = 1
        omega
      · exact absurd rfl hne
    · obtain ⟨-, -, hrest⟩ := h.waiting _ q hq
      obtain ⟨hnumber, hone⟩ := hrest p hget
      refine ⟨hnumber.symm, hbefore _ q hq, ?_⟩
      show (usePermit p w.permits).get? p.uuid = none
      rw [usePermit, if_pos (by omega)]
      exact w.permits.get?_remove_self _
  · exact (h.sound r hr).mono (subset_cons_of_subset _ (List.Subset.refl _))

/-- A connection that found no peer begins to wait. -/
theorem Pairing.waits (h : Pairing w) {a : Admission} (hh : w.holder = some (.alone uuid a)) :
    Pairing { w with pending := w.pending.put ⟨uuid, a, w.now⟩, holder := none } := by
  obtain ⟨ha, hc, hrest⟩ := h.held _ hh
  refine { h with waiting := fun u q hq => ?_, held := fun x hx => by cases hx }
  rw [get?_put] at hq
  split at hq
  · next he =>
    cases hq
    obtain rfl : uuid = u := he
    exact ⟨ha, hc, hrest⟩
  · exact h.waiting u q hq

/-- A permit is inserted while nobody waits for it. -/
theorem Pairing.insertPermit (h : Pairing w) (lifetime : Nat) (hp : w.pending.get? uuid = none) :
    Pairing { w.insertPermit uuid lifetime with holder := none } := by
  have hnew : w.uses w.issued = 0 := by
    refine countP_eq_zero.mpr fun a ha => ?_
    have hlt := h.drawn a ha
    simp only [decide_eq_true_eq]
    omega
  have hold : ∀ u p, (w.insertPermit uuid lifetime).permits.get? u = some p →
      u = uuid ∧ p.number = w.issued ∧ p.uses = 2 ∨ u ≠ uuid ∧ w.permits.get? u = some p := by
    intro u p hu
    unfold State.insertPermit at hu
    rw [get?_put] at hu
    split at hu
    · next he =>
      cases hu
      exact .inl ⟨he.symm, rfl, rfl⟩
    · next hne => exact .inr ⟨fun he => hne he.symm, hu⟩
  refine ⟨fun u p hu => ?_, fun u p u' p' hu hu' hn => ?_, fun u p hu => ?_, fun a ha => ?_,
    h.twice, h.inTime, fun u q hq => ?_, fun _ hx => (by cases hx), h.sound⟩
  · show p.number < w.issued + 1
    rcases hold u p hu with ⟨-, hn, -⟩ | ⟨-, hu⟩
    · omega
    · exact Nat.lt_succ_of_lt (h.numbered u p hu)
  · rcases hold u p hu with ⟨hu₁, hn₁, -⟩ | ⟨-, hw⟩ <;>
      rcases hold u' p' hu' with ⟨hu₂, hn₂, -⟩ | ⟨-, hw'⟩
    · rw [hu₁, hu₂]
    · have hlt := h.numbered u' p' hw'
      omega
    · have hlt := h.numbered u p hw
      omega
    · exact h.distinct u p u' p' hw hw' hn
  · show w.uses p.number + p.uses ≤ 2
    rcases hold u p hu with ⟨-, hn, h2⟩ | ⟨-, hu⟩
    · rw [hn, hnew, h2]
    · exact h.left u p hu
  · exact Nat.lt_succ_of_lt (h.drawn a ha)
  · obtain ⟨ha, hc, hrest⟩ := h.waiting u q hq
    refine ⟨ha, hc, fun p hu => ?_⟩
    rcases hold u p hu with ⟨rfl, -, -⟩ | ⟨-, hu⟩
    · exact absurd (hp.symm.trans hq) (by simp)
    · exact hrest p hu

/-- **The step lemma of the data plane.** -/
theorem Pairing.data {w' : State} {l : Label} (h : Pairing w) (hs : DataStep w l w') :
    Pairing w' := by
  cases hs with
  | arrive uuid hh =>
    refine { h with waiting := fun u q hq => ?_, held := fun x hx => ?_ }
    · obtain ⟨ha, hc, hrest⟩ := h.waiting u q hq
      exact ⟨ha, Nat.lt_succ_of_lt hc, hrest⟩
    · cases hx
      exact ⟨Nat.lt_succ_self _, fun u q hq => (h.waiting u q hq).2.1⟩
  | refused | reportFailed => exact h.hold nofun
  | admitted hh hp => exact h.admitted hh hp
  | @met uuid a peer hh hp =>
    obtain ⟨ha, hc, hrest, hpeer⟩ := h.held _ hh
    obtain ⟨hpermit, hconn, hnone⟩ := hpeer peer hp
    refine (h.sub (.refl _) (w.pending.remove_sub uuid)).hold fun x hx => ?_
    cases hx
    exact ⟨ha, (h.waiting uuid peer hp).1, hpermit, hconn, hnone, w.pending.get?_remove_self uuid⟩
  | @alone uuid a hh hp =>
    obtain ⟨ha, hc, hrest, -⟩ := h.held _ hh
    refine h.hold fun x hx => ?_
    cases hx
    exact ⟨ha, hc, hrest⟩
  | @reported uuid a peer hh =>
    have hmet : w.Held (.met uuid a peer) := h.held _ hh
    refine h.hold fun x hx => ?_
    cases hx
    exact hmet
  | @paired uuid a peer hh =>
    obtain ⟨ha, hpeer, hpermit, hconn, -, -⟩ := h.held _ hh
    refine { h with held := nofun, sound := fun p hp => ?_ }
    rcases mem_cons.mp hp with rfl | hp
    · exact ⟨ha, hpeer, hpermit, hconn⟩
    · exact h.sound p hp
  | waits hh => exact h.waits hh
  | endpoint | cancelled | released | tick => exact { h with }
  | cleanPermits hle => exact h.sub (w.permits.deleteWhere_sub _) (.refl _)
  | cleanPending => exact h.sub (.refl _) (w.pending.deleteWhere_sub _)
  | @terminatePermit uuid c hh =>
    refine (h.sub (w.permits.remove_sub uuid) (.refl _)).hold fun x hx => ?_
    cases hx
    trivial
  | @terminatePending uuid c hh =>
    refine (h.sub (.refl _) (w.pending.remove_sub uuid)).hold fun x hx => ?_
    cases hx
    trivial

/-! ## Two connections that come one after the other -/

section

variable {step : State → Label → State → Prop} (p : Permit)
  (hstep : ∀ {w l w'}, DataStep w l w' → step w l w') (hh : w.holder = none)
  (hp : w.usable p.uuid = some p)

include hstep hh hp

/-- The first one waits. -/
theorem waits_run (hq : w.pending.get? p.uuid = none) :
    Run step w [.arrive p.uuid, .admitted, .alone, .waits]
      { w.enter p.uuid w.connections p with
        connections := w.connections + 1
        pending := w.pending.put ⟨p.uuid, w.admission w.connections p, w.now⟩
        holder := none } :=
  .cons (hstep (.arrive p.uuid hh)) (.cons (hstep (.admitted rfl hp))
    (.cons (hstep (.alone rfl hq)) (.single (hstep (.waits rfl)))))

/-- The second one finds it. -/
theorem pairs_run {peer : Pending} (hq : w.pending.get? p.uuid = some peer) :
    Run step w [.arrive p.uuid, .admitted, .met, .reported, .paired]
      { w.enter p.uuid w.connections p with
        connections := w.connections + 1
        pending := w.pending.remove p.uuid
        active := w.active.put ⟨p.uuid, w.pairs.length⟩
        running := ⟨p.uuid, w.pairs.length, w.admission w.connections p, peer.admission, w.epoch⟩
          :: w.running
        pairs := ⟨p.uuid, w.pairs.length, w.admission w.connections p, peer.admission, w.epoch⟩
          :: w.pairs
        holder := none } :=
  .cons (hstep (.arrive p.uuid hh)) (.cons (hstep (.admitted rfl hp)) (.cons (hstep (.met rfl hq))
    (.cons (hstep (.reported rfl)) (.single (hstep (.paired rfl))))))

end

end

end RemoteControl.Hbbr.Relay
