import RemoteControl.Hbbr.RelayWss

/-!
# How often a pair is reported

A pair is reported when its second connection finds the first one waiting. Both were let in by
a permit, and a permit has two uses, so

> every pair that is reported uses up the prospects of one permit command.

`prospects` counts what may still become a pair of the UUID: a permit command whose turn it is,
and then either its permit or the two connections that the holder of the lock has in hand. No
step adds to it but the arrival of a permit command, and of the copies of a command that the API
sends only the first one that gets its turn: `awaits` says that there was none so far.
-/

namespace RemoteControl.Hbbr.Relay

open Lib Option

variable {a : Admission} {c : Command} {peer : Pending}

def Holder.willPermit (uuid : String) : Holder → Bool
  | .permit c => c.uuid = uuid
  | _ => false

/-- The holder has both connections of a pair in hand that is not reported yet; `waiting` says
whether the UUID has a waiting connection. -/
def Holder.hasPair (uuid : String) (waiting : Bool) : Holder → Bool
  | .admitted u _ => u = uuid && waiting
  | .met u _ _ => u = uuid
  | _ => false

def State.mayPair (uuid : String) (w : State) : Bool :=
  (w.permits.get? uuid).isSome || w.holder.any (Holder.hasPair uuid (w.pending.get? uuid).isSome)

def State.prospects (uuid : String) (w : State) : Nat :=
  (w.holder.any (Holder.willPermit uuid)).toNat + (w.mayPair uuid).toNat

def Command.permits (uuid : String) (c : Command) : Bool := c.uuid = uuid && c.action = "permit"

theorem prospects_start (sessions : List String) (uuid : String) :
    State.prospects uuid { State.start with sessions } = 0 := rfl

section

variable {w w' : State} {l : Label} {u : String}

theorem prospects_le
    (hh : w'.holder.any (Holder.willPermit u) = true → w.holder.any (Holder.willPermit u) = true)
    (hp : w'.mayPair u = true → w.mayPair u = true) : w'.prospects u ≤ w.prospects u :=
  Nat.add_le_add (Bool.toNat_le_toNat hh) (Bool.toNat_le_toNat hp)

theorem mayPair_iff : w.mayPair u = true ↔ (w.permits.get? u).isSome = true ∨
    ∃ h, w.holder = some h ∧ h.hasPair u (w.pending.get? u).isSome = true := by
  unfold State.mayPair
  rw [Bool.or_eq_true, any_eq_true]

theorem Holder.hasPair_mono {h : Holder} {b b' : Bool} (hb : b = true → b' = true)
    (hp : h.hasPair u b = true) : h.hasPair u b' = true := by
  cases h with
  | admitted x a =>
    simp only [Holder.hasPair, Bool.and_eq_true] at hp ⊢
    exact ⟨hp.1, hb hp.2⟩
  | met => exact hp
  | _ => cases hp

theorem isSome_sub {κ ρ : Type} [DecidableEq κ] {key : ρ → κ} {t t' : Table key} {k : κ}
    (h : t'.Sub t) (hs : (t'.get? k).isSome = true) : (t.get? k).isSome = true := by
  obtain ⟨x, hx⟩ := isSome_iff_exists.mp hs
  rw [h hx]
  rfl

/-- Removing permits and waiting connections. -/
theorem prospects_sub (hh : w'.holder = w.holder) (hp : w'.permits.Sub w.permits)
    (hq : w'.pending.Sub w.pending) : w'.prospects u ≤ w.prospects u := by
  refine prospects_le (hh ▸ id) fun h => mayPair_iff.mpr ?_
  rcases mayPair_iff.mp h with h | ⟨x, hx, hpair⟩
  · exact .inl (isSome_sub hp h)
  · exact .inr ⟨x, hh ▸ hx, Holder.hasPair_mono (isSome_sub hq) hpair⟩

/-- The lock is with somebody who has no pair in hand and no permit to insert. -/
theorem prospects_hold (hp : w'.permits.Sub w.permits)
    (hh : w'.holder.any (Holder.willPermit u) = false)
    (hpair : ∀ b, w'.holder.any (Holder.hasPair u b) = false) : w'.prospects u ≤ w.prospects u := by
  refine prospects_le (fun h => ?_) fun h => mayPair_iff.mpr (.inl (isSome_sub hp ?_))
  · rw [hh] at h
    cases h
  · unfold State.mayPair at h
    rwa [hpair, Bool.or_false] at h

/-- A connection is let in: the UUID had a permit. -/
theorem prospects_admitted {uuid : String} {c : Nat} {p : Permit}
    (hh : w.holder = some (.accept uuid c)) (hp : w.usable uuid = some p) :
    (w.enter uuid c p).prospects u ≤ w.prospects u := by
  obtain ⟨hget, rfl, -, -⟩ := usable_some hp
  refine prospects_le nofun fun h => mayPair_iff.mpr (.inl ?_)
  rcases mayPair_iff.mp h with h | ⟨x, hx, hpair⟩
  · obtain ⟨p', hp'⟩ := isSome_iff_exists.mp h
    obtain ⟨q, hold, -⟩ := usePermit_old hget hp'
    rw [hold]
    rfl
  · cases hx
    simp only [Holder.hasPair, Bool.and_eq_true, decide_eq_true_eq] at hpair
    rw [← hpair.1, hget]
    rfl

/-- **The step lemma of the data plane.** -/
theorem prospects_data (hs : DataStep w l w') : w'.prospects u ≤ w.prospects u := by
  cases hs with
  | admitted hh hp => exact prospects_admitted hh hp
  | @met uuid a peer hh hp =>
    refine prospects_le nofun fun h => mayPair_iff.mpr ?_
    rcases mayPair_iff.mp h with h | ⟨x, hx, hpair⟩
    · exact .inl h
    · cases hx
      obtain rfl : uuid = u := by simpa [Holder.hasPair] using hpair
      exact .inr ⟨_, hh, by simp [Holder.hasPair, hp]⟩
  | arrive | refused | alone | reported | reportFailed | paired | waits | terminatePending =>
    exact prospects_hold (.refl _) rfl fun _ => rfl
  | terminatePermit => exact prospects_hold (w.permits.remove_sub _) rfl fun _ => rfl
  | endpoint | cancelled | released | tick => exact Nat.le_refl _
  | cleanPermits => exact prospects_sub rfl (w.permits.deleteWhere_sub _) (.refl _)
  | cleanPending => exact prospects_sub rfl (.refl _) (w.pending.deleteWhere_sub _)

theorem prospects_met (hh : w.holder = some (.met u a peer)) : 1 ≤ w.prospects u := by
  have hpair : w.mayPair u = true := mayPair_iff.mpr (.inr ⟨_, hh, by simp [Holder.hasPair]⟩)
  rw [State.prospects, hpair]
  exact Nat.le_add_left _ _

/-- Reporting a pair, whether it succeeds or not, uses its prospects up. -/
theorem prospects_report (h : Pairing w) (hh : w.holder = some (.met u a peer))
    (hs : DataStep w l w') (hl : l = .reported ∨ l = .reportFailed) :
    w'.prospects u + 1 ≤ w.prospects u := by
  obtain ⟨-, -, -, -, hnone, -⟩ := h.held _ hh
  have hafter : w'.prospects u = 0 := by
    rcases hl with rfl | rfl
    · cases hs
      simp [State.prospects, State.mayPair, Holder.willPermit, Holder.hasPair, hnone]
    · cases hs
      simp [State.prospects, State.mayPair, hnone]
  rw [hafter]
  exact prospects_met hh

theorem check_permit {session : String} {seen : Table Seen.requestId} {wall : Nat}
    {available : Bool} (h : c.check session seen wall available = .permit) :
    c.action = "permit" := by
  unfold Command.check at h
  split at h
  · cases h
  split at h
  · cases h
  split at h
  · split at h <;> cases h
  split at h
  · cases h
  split at h
  · cases h
  split at h
  · next ha => exact ha
  · split at h <;> cases h

/-- A permit command gets its turn. -/
theorem prospects_begin (hh : w.holder = none) (hc : c.action = "permit") :
    State.prospects u { w with holder := some (.permit c) }
      ≤ w.prospects u + (c.permits u).toNat := by
  simp only [State.prospects, State.mayPair, hh, any_some, any_none,
    Holder.willPermit, Holder.hasPair, Command.permits, hc, Bool.or_false, decide_true,
    Bool.and_true, Bool.toNat_false]
  omega

theorem prospects_free (hh : w.holder = none) : w.prospects u ≤ 1 := by
  rw [State.prospects, hh, any_none, Bool.toNat_false, Nat.zero_add]
  exact Bool.toNat_le _

/-- The command's turn is exchanged for its permit. -/
theorem prospects_permitted {control : Control} (hh : w.holder = some (.permit c)) :
    State.prospects u { w.insertPermit c.uuid permitLifetime with
      holder := none
      control := control
      accepted := c :: w.accepted } ≤ w.prospects u := by
  have hget := Table.get?_put w.permits ⟨c.uuid, w.now + permitLifetime, 2, w.issued, w.epoch⟩ u
  by_cases hu : c.uuid = u
  · have hturn : w.holder.any (Holder.willPermit u) = true := by
      rw [hh]
      simpa [Holder.willPermit] using hu
    refine Nat.le_trans (prospects_free rfl) ?_
    rw [State.prospects, hturn]
    exact Nat.le_add_right _ _
  · refine prospects_le nofun fun h => mayPair_iff.mpr ?_
    rcases mayPair_iff.mp h with h | ⟨x, hx, -⟩
    · refine .inl ?_
      rw [show (State.permits _).get? u = _ from hget, if_neg hu] at h
      exact h
    · cases hx

/-- **The step lemma of WSS mode**: only commands add to the prospects of a UUID. -/
theorem prospects_wss (hs : WssStep w l w') (hl : ∀ c now free, l ≠ .command c now free) :
    w'.prospects u ≤ w.prospects u := by
  cases hs with
  | data hd => exact prospects_data hd
  | hello | sessionEnds => exact Nat.le_refl _
  | clear | clearPending | permitRefused | terminated =>
    exact prospects_hold (.refl _) rfl fun _ => rfl
  | clearPermits => exact prospects_hold (Table.empty_sub _) rfl fun _ => rfl
  | refuse | replay | beginTerminate | beginPermit => exact absurd rfl (hl _ _ _)
  | permitted hh => exact prospects_permitted hh

/-! ## Commands that are sent again -/

/-- A permit command may still get its turn: its session is to come, or goes on and has not dealt
with the command. -/
def State.awaits (w : State) (c : Command) : Bool :=
  c.session ∉ w.sessions || match w.control with
    | .greeted session => session = c.session
    | .live session seen =>
      session = c.session && (seen.get? c.requestId).isNone && w.holder ≠ some (.permit c)
    | .disconnected | .ended => false

theorem awaits_iff : w.awaits c = true ↔ c.session ∉ w.sessions ∨
    w.control = .greeted c.session ∨ ∃ seen, w.control = .live c.session seen ∧
      seen.get? c.requestId = none ∧ w.holder ≠ some (.permit c) := by
  unfold State.awaits
  cases w.control with
  | live session seen =>
    by_cases hs : session = c.session
    · subst hs
      simp
    · simp [hs]
  | _ => simp

theorem awaits_same (hs : w'.sessions = w.sessions) (hc : w'.control = w.control)
    (hh : w.holder = some (.permit c) → w'.holder = some (.permit c)) (h : w'.awaits c = true) :
    w.awaits c = true := by
  rw [awaits_iff, hs, hc] at h
  refine awaits_iff.mpr (h.imp_right (Or.imp_right ?_))
  rintro ⟨seen, hl, hnew, hfree⟩
  exact ⟨seen, hl, hnew, fun he => hfree (hh he)⟩

/-- Somebody else has the lock. -/
theorem awaits_hold {x : Option Holder} (hs : w'.sessions = w.sessions)
    (hc : w'.control = w.control) (hh : w.holder = x) (hx : x ≠ some (.permit c))
    (h : w'.awaits c = true) : w.awaits c = true :=
  awaits_same hs hc (fun he => absurd (hh.symm.trans he) hx) h

theorem awaits_over (hs : w'.sessions = w.sessions) (hc : w'.control = .ended)
    (h : w'.awaits c = true) : w.awaits c = true := by
  rw [awaits_iff, hs, hc] at h
  rcases h with h | h | ⟨seen, h, -⟩
  · exact awaits_iff.mpr (.inl h)
  · cases h
  · cases h

theorem awaits_data (hs : DataStep w l w') : w'.awaits c = true → w.awaits c = true := by
  cases hs with
  | arrive _ hh | refused hh | admitted hh | met hh | alone hh | reported hh | reportFailed hh
  | paired hh | waits hh | terminatePermit hh | terminatePending hh =>
    exact awaits_hold rfl rfl hh (by simp)
  | endpoint | cancelled | released | tick | cleanPermits | cleanPending =>
    exact awaits_same rfl rfl id

theorem none_of_insert {seen : Table Seen.requestId} {s : Seen} {k : String}
    (h : (seen.insert s).get? k = none) : seen.get? k = none ∧ s.requestId ≠ k := by
  have hkept {i : String} (hi : (seen.get? i).isSome = true) : i ≠ k := by
    rintro rfl
    have hlater := isSome_get?_insert (s := s) hi
    rw [h] at hlater
    cases hlater
  refine ⟨not_isSome_iff_eq_none.mp fun hk => hkept hk rfl, ?_⟩
  cases hs : seen.get? s.requestId with
  | some s' => exact hkept (by rw [hs]; rfl)
  | none =>
    rintro rfl
    rw [Table.get?_insert hs, if_pos rfl] at h
    cases h

/-- The session has dealt with a command. -/
theorem awaits_seen {session : String} {seen : Table Seen.requestId} {s : Seen}
    (hs : w'.sessions = w.sessions) (hl : w.control = .live session seen)
    (hc : w'.control = .live session (seen.insert s))
    (hh : ∀ d, w.holder = some (.permit d) → d.requestId = s.requestId)
    (h : w'.awaits c = true) : w.awaits c = true := by
  rw [awaits_iff, hs, hc] at h
  refine awaits_iff.mpr ?_
  rcases h with h | h | ⟨seen', h, hnew, -⟩
  · exact .inl h
  · cases h
  · obtain ⟨rfl, rfl⟩ := Control.live.inj h
    obtain ⟨hold, hne⟩ := none_of_insert hnew
    exact .inr (.inr ⟨seen, hl, hold, fun he => hne (hh c he).symm⟩)

/-- What has had its turn, or whose session is over, gets none any more. -/
theorem awaits_wss (hs : WssStep w l w') : w'.awaits c = true → w.awaits c = true := by
  cases hs with
  | data hd => exact awaits_data hd
  | @hello session hc hb hnew =>
    intro h
    refine awaits_iff.mpr (.inl ?_)
    rcases awaits_iff.mp h with h | h | ⟨seen, h, -⟩
    · exact fun hmem => h (.tail _ hmem)
    · obtain rfl := Control.greeted.inj h
      exact hnew
    · cases h
  | clear _ hh | clearPermits hh | beginPermit _ hh | beginTerminate _ hh =>
    exact awaits_hold rfl rfl hh (by simp)
  | clearPending hh =>
    intro h
    refine awaits_iff.mpr ((awaits_iff.mp h).imp_right fun h => .inl ?_)
    rcases h with h | ⟨seen, h, -⟩
    · cases hc : w.control <;> rw [hc] at h <;> cases h
    · cases hc : w.control <;> rw [hc] at h <;> cases h
      rfl
  | sessionEnds | refuse | permitRefused => exact awaits_over rfl rfl
  | replay => exact id
  | permitted hh hl hf =>
    refine awaits_seen rfl hl rfl fun d hd => ?_
    cases hh.symm.trans hd
    rfl
  | terminated hh hl =>
    refine awaits_seen rfl hl rfl fun d hd => ?_
    cases hh.symm.trans hd

/-- **A command adds to the prospects only by its first copy.** -/
theorem prospects_command {wall : Nat} {available : Bool} (ha : Accepted w)
    (hs : WssStep w (.command c wall available) w') :
    w'.prospects u ≤ w.prospects u ∨ c.action = "permit" ∧ w.awaits c = true ∧
      w'.awaits c = false ∧ w'.prospects u ≤ w.prospects u + (c.permits u).toNat := by
  cases hs with
  | data hd => cases hd
  | replay | refuse => exact .inl (Nat.le_refl _)
  | beginTerminate => exact .inl (prospects_hold (.refl _) rfl fun _ => rfl)
  | @beginPermit session seen _ _ _ hl hh hc =>
    obtain ⟨rfl, hnew⟩ := check_new (fun status => by rw [hc]; simp) (by rw [hc]; simp)
    refine .inr ⟨check_permit hc, awaits_iff.mpr (.inr (.inr ⟨seen, hl, hnew, by simp [hh]⟩)), ?_,
      prospects_begin hh (check_permit hc)⟩
    refine Bool.eq_false_iff.mpr fun h => ?_
    rcases awaits_iff.mp h with h | h | ⟨_, -, -, h⟩
    · exact h (ha.seen _ _ hl).1
    · cases hl.symm.trans h
    · exact h rfl

end

end RemoteControl.Hbbr.Relay
