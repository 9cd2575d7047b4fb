import RemoteControl.Hbbr.RelayPairing

/-!
# Pairs in WSS mode

The control task accepts permits in sessions, and each session begins and ends with
clearing the permits and the waiting connections under the lock. Whatever commands arrive,
however often the session is lost and whatever UUIDs data connections present:

1. a permit command is accepted at most once, lets in at most two connections, and only
   before it expires;
2. a pair consists of two connections that the same permit let in, in the epoch in which
   the pair was formed;
3. nothing is left of an epoch in the next one.

> Between two sessions both tables are empty, and the lock is not held by a connection that
> was let in.
-/

namespace RemoteControl.Hbbr.Relay

open Lib List Table

variable {available : Bool} {c : Command} {x : Holder} {wall : Nat} {holder : Option Holder}
  {p' : Permit} {session u uuid : String} {pending : Table Pending.uuid}
  {permits : Table Permit.uuid}

def Holder.InEpoch (epoch : Nat) : Holder → Prop
  | .admitted _ a | .alone _ a => a.permitEpoch = epoch
  | .met _ a peer | .reported _ a peer =>
    a.permitEpoch = epoch ∧ peer.admission.permitEpoch = epoch
  | _ => True

def Holder.hasConnection : Holder → Bool
  | .admitted .. | .alone .. | .met .. | .reported .. => true
  | _ => false

theorem Holder.inEpoch_of_free {h : Holder} (hf : h.hasConnection = false) (epoch : Nat) :
    h.InEpoch epoch := by
  cases h with
  | admitted | alone | met | reported => cases hf
  | _ => trivial

/-- Nothing is there that an earlier epoch could have left. -/
structure State.Blank (w : State) : Prop where
  permits : ∀ u, w.permits.get? u = none
  pending : ∀ u, w.pending.get? u = none
  holder : ∀ h, w.holder = some h → h.hasConnection = false

/-- Before the first command of a session. -/
def Control.isIdle : Control → Bool
  | .disconnected | .greeted _ => true
  | _ => false

structure Epochs (w : State) : Prop where
  permits : ∀ u p, w.permits.get? u = some p → p.epoch = w.epoch
  pending : ∀ u q, w.pending.get? u = some q → q.admission.permitEpoch = w.epoch
  held : ∀ h, w.holder = some h → h.InEpoch w.epoch
  admitted : ∀ a ∈ w.admissions, a.permitEpoch = a.epoch
  paired : ∀ p ∈ w.pairs, p.newcomer.permitEpoch = p.epoch ∧ p.waiting.permitEpoch = p.epoch
  idle : w.control.isIdle = true → w.Blank
  clearing : w.holder = some .clearPending → ∀ u, w.permits.get? u = none

theorem epochs_start : Epochs .start where
  permits _ _ h := by cases h
  pending _ _ h := by cases h
  held _ h := by cases h
  admitted _ h := by cases h
  paired _ h := by cases h
  idle _ := ⟨fun _ => rfl, fun _ => rfl, nofun⟩
  clearing h := by cases h

section

variable {w w' : State} {l : Label}

theorem State.Blank.hold (h : w.Blank) (hh : ∀ x, holder = some x → x.hasConnection = false) :
    ({ w with holder } : State).Blank :=
  { h with holder := hh }

theorem State.Blank.sub (h : w.Blank) (hp : permits.Sub w.permits) (hq : pending.Sub w.pending) :
    ({ w with permits, pending } : State).Blank :=
  ⟨fun u => hp.none (h.permits u), fun u => hq.none (h.pending u), h.holder⟩

section

variable (h : Epochs w)

include h

theorem Epochs.sub (hp : permits.Sub w.permits) (hq : pending.Sub w.pending) :
    Epochs { w with permits, pending } :=
  { h with
    permits := fun u p hget => h.permits u p (hp hget)
    pending := fun u q hget => h.pending u q (hq hget)
    idle := fun hi => (h.idle hi).sub hp hq
    clearing := fun hh u => hp.none (h.clearing hh u) }

/-- The lock changes its owner, or the owner gets on. -/
theorem Epochs.hold (hin : ∀ x, holder = some x → x.InEpoch w.epoch)
    (hidle : w.control.isIdle = true → ∀ x, holder = some x → x.hasConnection = false)
    (hclear : holder = some .clearPending → ∀ u, w.permits.get? u = none) :
    Epochs { w with holder } :=
  { h with
    held := hin
    idle := fun hi => (h.idle hi).hold (hidle hi)
    clearing := hclear }

/-- The lock is let go of. -/
theorem Epochs.release : Epochs { w with holder := none } := h.hold nofun nofun nofun

/-- The owner of the lock has no connection in hand. -/
theorem Epochs.holdFree (hf : x.hasConnection = false) (hx : x ≠ .clearPending) :
    Epochs { w with holder := some x } := by
  refine h.hold (fun y hy => ?_) (fun _ y hy => ?_) fun hy => absurd (Option.some.inj hy) hx
  · cases hy
    exact Holder.inEpoch_of_free hf _
  · cases hy
    exact hf

/-- Who has a connection in hand is not between two sessions. -/
theorem Epochs.notIdle (hh : w.holder = some x) (hx : x.hasConnection = true) :
    w.control.isIdle ≠ true := by
  intro hi
  have hf := (h.idle hi).holder x hh
  rw [hx] at hf
  cases hf

theorem Epochs.admittedStep {c : Nat} {p : Permit} (hp : w.usable uuid = some p) :
    Epochs (w.enter uuid c p) := by
  obtain ⟨hget, rfl, -, -⟩ := usable_some hp
  have hepoch := h.permits _ _ hget
  have hbusy : w.control.isIdle ≠ true := by
    intro hi
    have hnone := (h.idle hi).permits p.uuid
    rw [hget] at hnone
    cases hnone
  refine ⟨fun u p' hu => ?_, h.pending, fun x hx => ?_, fun a ha => ?_, h.paired,
    fun hi => absurd hi hbusy, nofun⟩
  · obtain ⟨q, hq, -, hsame, -⟩ := usePermit_old hget hu
    exact hsame ▸ h.permits u q hq
  · cases hx
    exact hepoch
  · rcases mem_cons.mp ha with rfl | ha
    · exact hepoch
    · exact h.admitted a ha

theorem Epochs.data (hs : DataStep w l w') : Epochs w' := by
  cases hs with
  | arrive uuid hh =>
    have hfree : Epochs { w with holder := some (.accept uuid w.connections) } :=
      h.holdFree rfl (by simp)
    exact { hfree with idle := fun hi => { hfree.idle hi with } }
  | refused hh hp => exact h.release
  | admitted hh hp => exact h.admittedStep hp
  | @met uuid a peer hh hp =>
    have hbusy := h.notIdle hh rfl
    have ha : a.permitEpoch = w.epoch := h.held _ hh
    refine (h.sub (.refl _) (w.pending.remove_sub uuid)).hold (fun x hx => ?_)
      (fun hi => absurd hi hbusy) nofun
    cases hx
    exact ⟨ha, h.pending uuid peer hp⟩
  | @alone uuid a hh hp =>
    have ha : a.permitEpoch = w.epoch := h.held _ hh
    refine h.hold (fun x hx => ?_) (fun hi => absurd hi (h.notIdle hh rfl)) nofun
    cases hx
    exact ha
  | @reported uuid a peer hh =>
    have ha : Holder.InEpoch w.epoch (.met uuid a peer) := h.held _ hh
    refine h.hold (fun x hx => ?_) (fun hi => absurd hi (h.notIdle hh rfl)) nofun
    cases hx
    exact ha
  | reportFailed hh => exact h.release
  | @paired uuid a peer hh =>
    have hbusy := h.notIdle hh rfl
    obtain ⟨ha, hpeer⟩ := h.held _ hh
    refine { h.release with paired := fun p hp => ?_, idle := fun hi => absurd hi hbusy }
    rcases mem_cons.mp hp with rfl | hp
    · exact ⟨ha, hpeer⟩
    · exact h.paired p hp
  | @waits uuid a hh =>
    have hbusy := h.notIdle hh rfl
    have ha : a.permitEpoch = w.epoch := h.held _ hh
    refine { h.release with pending := fun u q hq => ?_, idle := fun hi => absurd hi hbusy }
    rw [get?_put] at hq
    split at hq
    · cases hq
      exact ha
    · exact h.pending u q hq
  | endpoint | cancelled | released | tick =>
    exact { h with idle := fun hi => { h.idle hi with } }
  | cleanPermits hle => exact h.sub (w.permits.deleteWhere_sub _) (.refl _)
  | cleanPending => exact h.sub (.refl _) (w.pending.deleteWhere_sub _)
  | @terminatePermit uuid c hh =>
    exact (h.sub (w.permits.remove_sub uuid) (.refl _)).holdFree rfl (by simp)
  | @terminatePending uuid c hh =>
    exact (h.sub (.refl _) (w.pending.remove_sub uuid)).holdFree rfl (by simp)

/-! ## The control task -/

omit h in
theorem free_pending (h : w.free uuid = true) : w.pending.get? uuid = none := by
  simp only [State.free, Bool.and_eq_true] at h
  exact Option.isNone_iff_eq_none.mp h.1.2

theorem Epochs.wss (hs : WssStep w l w') : Epochs w' := by
  cases hs with
  | data hd => exact h.data hd
  | @hello session hc hb hs =>
    -- both tables are empty, so nothing has to be of the new epoch
    have hblank : w.Blank := h.idle (by rw [hc]; rfl)
    refine ⟨fun u p hget => ?_, fun u q hget => ?_, fun x hx => ?_, h.admitted, h.paired,
      fun _ => { hblank with }, h.clearing⟩
    · exact absurd (hblank.permits u |>.symm.trans hget) (by simp)
    · exact absurd (hblank.pending u |>.symm.trans hget) (by simp)
    · exact Holder.inEpoch_of_free (hblank.holder x hx) _
  | clear | beginPermit | beginTerminate => exact h.holdFree rfl (by simp)
  | clearPermits hh =>
    refine (h.sub (empty_sub _) (.refl _)).hold (fun x hx => ?_) (fun _ x hx => ?_) fun _ _ => rfl
    · cases hx
      trivial
    · cases hx
      rfl
  | clearPending hh =>
    have hnone := h.clearing hh
    have hcleared := (h.sub (.refl _) (empty_sub w.pending)).release
    exact { hcleared with
      idle := fun _ => ⟨hnone, fun _ => rfl, nofun⟩
      clearing := nofun }
  | sessionEnds | refuse => exact { h with idle := nofun }
  | replay => exact h
  | @permitted session seen c hh hl hf =>
    refine { h.release with
      permits := fun u p hu => ?_
      idle := fun hc => by cases hc
      clearing := fun hc => by cases hc }
    have hu' : (w.permits.put ⟨c.uuid, w.now + permitLifetime, 2, w.issued, w.epoch⟩).get? u
        = some p := hu
    rw [get?_put] at hu'
    split at hu'
    · cases hu'
      rfl
    · exact h.permits u p hu'
  | permitRefused | terminated => exact { h.release with idle := fun hc => by cases hc }

end

theorem Pairing.wss (h : Pairing w) (hs : WssStep w l w') : Pairing w' := by
  cases hs with
  | data hd => exact h.data hd
  | hello | sessionEnds | refuse => exact { h with }
  | clear | beginPermit | beginTerminate =>
    refine h.hold fun x hx => ?_
    cases hx
    trivial
  | clearPermits =>
    refine (h.sub (empty_sub _) (.refl _)).hold fun x hx => ?_
    cases hx
    trivial
  | clearPending =>
    exact { (h.sub (.refl _) (empty_sub w.pending)) with held := nofun }
  | replay => exact h
  | permitted hh hl hf => exact { h.insertPermit permitLifetime (free_pending hf) with }
  | permitRefused | terminated => exact { h with held := nofun }

/-! ## Commands that were accepted -/

/-- The command that the control task works on. -/
def Holder.command? : Holder → Option Command
  | .terminate _ c | .terminatePending _ c | .terminateActive _ c _ => c
  | .permit c => some c
  | _ => none

structure Accepted (w : State) : Prop where
  once : (w.accepted.map fun c => (c.session, c.requestId)).Nodup
  issued : w.issued = w.accepted.length
  named : ∀ c ∈ w.accepted, c.session ∈ w.sessions
  greeted : ∀ session, w.control = .greeted session →
    session ∈ w.sessions ∧ ∀ c ∈ w.accepted, c.session ≠ session
  seen : ∀ session seen, w.control = .live session seen →
    session ∈ w.sessions ∧
      ∀ c ∈ w.accepted, c.session = session → (seen.get? c.requestId).isSome = true
  working : ∀ h c, w.holder = some h → h.command? = some c →
    ∃ session seen, w.control = .live session seen ∧ c.session = session ∧
      seen.get? c.requestId = none

theorem accepted_start (sessions : List String) : Accepted { State.start with sessions } where
  once := nodup_nil
  issued := rfl
  named _ h := by cases h
  greeted _ h := by cases h
  seen _ _ h := by cases h
  working _ _ h := by cases h

/-- A command that reaches the lock is of this session and was not seen before. -/
theorem check_new {seen : Table Seen.requestId}
    (hr : ∀ status, c.check session seen wall available ≠ .replay status)
    (hf : c.check session seen wall available ≠ .refused) :
    c.session = session ∧ seen.get? c.requestId = none := by
  unfold Command.check at hr hf
  split at hf
  · exact absurd rfl hf
  next hsession =>
  rw [if_neg hsession] at hr
  split at hf
  · exact absurd rfl hf
  next hvalid =>
  rw [if_neg hvalid] at hr
  refine ⟨not_not.mp hsession, ?_⟩
  cases hseen : seen.get? c.requestId with
  | none => rfl
  | some s =>
    simp only [hseen] at hr hf
    split at hf
    · next hsame =>
      rw [if_pos hsame] at hr
      exact absurd rfl (hr s.status)
    · exact absurd rfl hf

theorem isSome_get?_insert {seen : Table Seen.requestId} {s : Seen} {k : String}
    (h : (seen.get? k).isSome = true) : ((seen.insert s).get? k).isSome = true := by
  cases hs : seen.get? s.requestId with
  | some s' =>
    rw [insert_of_some hs]
    exact h
  | none =>
    rw [get?_insert hs]
    split
    · rfl
    · exact h

section

variable (h : Accepted w)

include h

/-- The lock is let go of, or taken for something else than a command. -/
theorem Accepted.holdFree (holder : Option Holder) (hfree : holder.bind Holder.command? = none) :
    Accepted { w with holder } := by
  refine { h with working := fun y c hy hc => ?_ }
  obtain rfl : holder = some y := hy
  rw [Option.bind_some, hc] at hfree
  cases hfree

/-- The owner of the lock gets on with its command. -/
theorem Accepted.onward {y : Holder} (hh : w.holder = some x) (hsame : y.command? = x.command?) :
    Accepted { w with holder := some y } := by
  refine { h with working := fun z c hz hc => ?_ }
  cases hz
  exact h.working x c hh (hsame ▸ hc)

theorem Accepted.data (hs : DataStep w l w') : Accepted w' := by
  cases hs with
  | arrive uuid hh =>
    exact { h.holdFree (some (.accept uuid w.connections)) rfl with }
  | refused | reportFailed => exact h.holdFree none rfl
  | @admitted uuid c p hh hp =>
    exact { h.holdFree (some (.admitted uuid (w.admission c p))) rfl with }
  | @met uuid a peer hh hp => exact { h.holdFree (some (.met uuid a peer)) rfl with }
  | alone | reported => exact h.holdFree (some _) rfl
  | paired | waits => exact { h.holdFree none rfl with }
  | endpoint | cancelled | released | tick | cleanPermits | cleanPending => exact { h with }
  | @terminatePermit uuid c hh =>
    exact { h.onward (y := .terminatePending uuid c) hh rfl with }
  | @terminatePending uuid c hh =>
    exact { h.onward (y := .terminateActive uuid c (w.pending.get? uuid).isSome) hh rfl with }

/-- A command that is begun. -/
theorem Accepted.begin {seen : Table Seen.requestId} (hl : w.control = .live session seen)
    (hx : x.command? = some c) (hc : c.session = session ∧ seen.get? c.requestId = none) :
    Accepted { w with holder := some x } := by
  refine { h with working := fun y d hy hd => ?_ }
  cases hy
  obtain rfl := Option.some.inj (hx.symm.trans hd)
  exact ⟨session, seen, hl, hc⟩

/-- The session is over; nothing is in work. -/
theorem Accepted.over {control : Control} (hc : control.isLive = false)
    (hg : ∀ session, control ≠ .greeted session) (hidle : w.holder.bind Holder.command? = none) :
    Accepted { w with control } := by
  refine { h with
    greeted := fun session he => absurd he (hg session)
    seen := fun session seen he => ?_
    working := fun y c hy hd => ?_ }
  · obtain rfl : control = .live session seen := he
    cases hc
  · rw [show w.holder = some y from hy, Option.bind_some, hd] at hidle
    cases hidle

omit h in
theorem command_of_notBusy (hb : w.controlBusy = false) : w.holder.bind Holder.command? = none := by
  unfold State.controlBusy at hb
  cases hh : w.holder with
  | none => rfl
  | some x =>
    rw [hh] at hb
    cases x with
    | terminate uuid c | terminatePending uuid c =>
      cases c with
      | none => rfl
      | some c => cases hb
    | terminateActive uuid c pending =>
      cases c with
      | none => rfl
      | some c => cases hb
    | permit c => cases hb
    | _ => rfl

theorem Accepted.permitted {seen : Table Seen.requestId} (hh : w.holder = some (.permit c))
    (hl : w.control = .live session seen) :
    Accepted { w.insertPermit c.uuid permitLifetime with
      holder := none
      control := .live session (seen.insert (c.seen "permitted"))
      accepted := c :: w.accepted } := by
  obtain ⟨session', seen', hl', rfl, hnew⟩ := h.working _ c hh rfl
  obtain ⟨rfl, rfl⟩ := Control.live.inj (hl.symm.trans hl')
  obtain ⟨hnamed, hseen⟩ := h.seen _ _ hl
  refine ⟨?_, ?_, fun d hd => ?_, nofun, fun s t he => ?_, nofun⟩
  · refine nodup_cons.mpr ⟨fun hmem => ?_, h.once⟩
    -- an accepted command of this session is in the cache
    obtain ⟨d, hd, heq⟩ := mem_map.mp hmem
    have hsome := hseen d hd (Prod.mk.inj heq).1
    rw [(Prod.mk.inj heq).2, hnew] at hsome
    cases hsome
  · show w.issued + 1 = w.accepted.length + 1
    rw [h.issued]
  · rcases mem_cons.mp hd with rfl | hd
    · exact hnamed
    · exact h.named d hd
  · cases he
    refine ⟨hnamed, fun d hd hsession => ?_⟩
    rcases mem_cons.mp hd with rfl | hd
    · rw [show d.requestId = (d.seen "permitted").requestId from rfl, get?_insert hnew]
      simp
    · exact isSome_get?_insert (hseen d hd hsession)

theorem Accepted.wss (hs : WssStep w l w') : Accepted w' := by
  cases hs with
  | data hd => exact h.data hd
  | @hello session hc hb hs =>
    refine { h with
      named := fun c hmem => mem_cons_of_mem _ (h.named c hmem)
      greeted := fun s he => ?_
      seen := nofun
      working := fun y c hy hd => ?_ }
    · cases he
      refine ⟨mem_cons_self, fun c hmem he => hs ?_⟩
      exact he ▸ h.named c hmem
    · have hidle := command_of_notBusy hb
      rw [show w.holder = some y from hy, Option.bind_some, hd] at hidle
      cases hidle
  | clear => exact h.holdFree (some _) rfl
  | clearPermits => exact { h.holdFree (some .clearPending) rfl with }
  | clearPending hh =>
    have hrest := h.holdFree none rfl
    cases hc : w.control with
    | greeted session =>
      obtain ⟨hnamed, hother⟩ := h.greeted session hc
      refine { hrest with
        greeted := nofun
        seen := fun s t he => ?_
        working := nofun }
      cases he
      exact ⟨hnamed, fun c hmem he => absurd he (hother c hmem)⟩
    | disconnected | ended | live =>
      exact { hrest with
        greeted := nofun
        seen := nofun
        working := nofun }
  | sessionEnds hl hb => exact h.over rfl nofun (command_of_notBusy hb)
  | replay => exact h
  | refuse hl hb hc => exact h.over rfl nofun (command_of_notBusy hb)
  | beginPermit hl hh hc =>
    exact h.begin hl rfl (check_new (fun status => by rw [hc]; simp) (by rw [hc]; simp))
  | beginTerminate hl hh hc =>
    exact h.begin hl rfl (check_new (fun status => by rw [hc]; simp) (by rw [hc]; simp))
  | permitted hh hl hf => exact h.permitted hh hl
  | permitRefused hh hf =>
    exact (h.holdFree none rfl).over rfl nofun rfl
  | @terminated session uuid seen c pending hh hl =>
    obtain ⟨hnamed, hseen⟩ := h.seen _ _ hl
    refine { h.holdFree none rfl with
      greeted := nofun
      seen := fun s t he => ?_
      working := nofun }
    cases he
    exact ⟨hnamed, fun d hd hsession => isSome_get?_insert (hseen d hd hsession)⟩

end

/-! ## Uses only become fewer -/

theorem DataStep.uses (hs : DataStep w l w') (h : w'.permits.get? u = some p') :
    ∃ p, w.permits.get? u = some p ∧ p.number = p'.number ∧ p.expiresAt = p'.expiresAt ∧
      p'.uses ≤ p.uses := by
  cases hs with
  | admitted hh hp =>
    obtain ⟨hget, rfl, -, -⟩ := usable_some hp
    obtain ⟨q, hq, hnumber, -, hrest⟩ := usePermit_old hget h
    exact ⟨q, hq, hnumber, hrest⟩
  | cleanPermits => exact ⟨p', w.permits.deleteWhere_sub _ h, rfl, rfl, Nat.le_refl _⟩
  | terminatePermit => exact ⟨p', w.permits.remove_sub _ h, rfl, rfl, Nat.le_refl _⟩
  | _ => exact ⟨p', h, rfl, rfl, Nat.le_refl _⟩

/-- A permit is new and lasts for 30 seconds, or was there before with at least as many uses. -/
theorem WssStep.uses (hs : WssStep w l w') (h : w'.permits.get? u = some p') :
    l = .permit ∧ p'.number = w.issued ∧ p'.expiresAt = w.now + permitLifetime ∨
      ∃ p, w.permits.get? u = some p ∧ p.number = p'.number ∧ p.expiresAt = p'.expiresAt ∧
        p'.uses ≤ p.uses := by
  cases hs with
  | data hd => exact .inr (hd.uses h)
  | @permitted session seen c hh hl hf =>
    have h' : (w.permits.put ⟨c.uuid, w.now + permitLifetime, 2, w.issued, w.epoch⟩).get? u
        = some p' := h
    rw [get?_put] at h'
    split at h'
    · cases h'
      exact .inl ⟨rfl, rfl, rfl⟩
    · exact .inr ⟨p', h', rfl, rfl, Nat.le_refl _⟩
  | clearPermits => cases h
  | _ => exact .inr ⟨p', h, rfl, rfl, Nat.le_refl _⟩

/-- Who is let in has the number and the expiry of the permit. -/
theorem WssStep.admits {a : Admission} (hs : WssStep w l w') (ha : a ∈ w'.admissions) :
    a ∈ w.admissions ∨ ∃ u p, w.permits.get? u = some p ∧ a.permit = p.number ∧
      a.expiresAt = p.expiresAt ∧ a.time = w.now := by
  cases hs with
  | data hd =>
    cases hd with
    | @admitted uuid c p hh hp =>
      refine (mem_cons.mp ha).symm.imp_right fun heq => ?_
      rw [heq]
      exact ⟨_, p, (usable_some hp).1, rfl, rfl, rfl⟩
    | _ => exact .inl ha
  | _ => exact .inl ha

/-- A command whose request was seen in the session changes no permit and does not take the lock. -/
theorem WssStep.seen {seen : Table Seen.requestId} (hs : WssStep w (.command c wall available) w')
    (hl : w.control = .live session seen) (hseen : (seen.get? c.requestId).isSome = true) :
    w'.permits = w.permits ∧ w'.holder = w.holder := by
  have hold {session' : String} {seen' : Table Seen.requestId}
      (hl' : w.control = .live session' seen')
      (hr : ∀ status, c.check session' seen' wall available ≠ .replay status)
      (hf : c.check session' seen' wall available ≠ .refused) : False := by
    obtain ⟨rfl, rfl⟩ := Control.live.inj (hl.symm.trans hl')
    rw [(check_new hr hf).2] at hseen
    cases hseen
  cases hs with
  | data hd => cases hd
  | replay | refuse => exact ⟨rfl, rfl⟩
  | beginPermit hl' hh hc =>
    exact (hold hl' (fun status => by rw [hc]; simp) (by rw [hc]; simp)).elim
  | beginTerminate hl' hh hc =>
    exact (hold hl' (fun status => by rw [hc]; simp) (by rw [hc]; simp)).elim

end

/-- A relay in WSS mode, after any commands, sessions and connections. -/
def State.ReachedWss (w : State) : Prop := Reachable (fun w => w = .start) WssStep w

theorem invariants_wss {w : State} (h : w.ReachedWss) : Pairing w ∧ Epochs w ∧ Accepted w := by
  refine h.invariant (I := fun w => Pairing w ∧ Epochs w ∧ Accepted w) (fun w hw => ?_)
    fun w l w' hi hs => ⟨hi.1.wss hs, hi.2.1.wss hs, hi.2.2.wss hs⟩
  rw [hw]
  exact ⟨pairing_start [], epochs_start, accepted_start []⟩

/-- **Permits, pairs and epochs.** However commands, reconnects, connections, terminations, the
cleanup and the ends of pairs are interleaved: each permit command is accepted once and its permit
lets in at most two connections, within 30 seconds; no step gives a permit more uses or more time, a
repeated command least of all; a pair is two connections that one permit let in, a permit of the
epoch in which the pair was formed; and no connection was let in by a permit of an earlier epoch. -/
theorem wss_permits_and_pairs {w : State} (h : w.ReachedWss) :
    ((w.accepted.map fun c => (c.session, c.requestId)).Nodup ∧ w.issued = w.accepted.length ∧
      (∀ n, w.uses n ≤ 2) ∧ ∀ a ∈ w.admissions, a.permit < w.issued ∧ a.time < a.expiresAt) ∧
    (∀ l w' u p', WssStep w l w' → w'.permits.get? u = some p' →
      l = .permit ∧ p'.number = w.issued ∧ p'.expiresAt = w.now + permitLifetime ∨
        ∃ p, w.permits.get? u = some p ∧ p.number = p'.number ∧ p.expiresAt = p'.expiresAt ∧
          p'.uses ≤ p.uses) ∧
    (∀ l w' a, WssStep w l w' → a ∈ w'.admissions → a ∈ w.admissions ∨
      ∃ u p, w.permits.get? u = some p ∧ a.permit = p.number ∧ a.expiresAt = p.expiresAt ∧
        a.time = w.now) ∧
    (∀ session seen c wall available w', w.control = .live session seen →
      (seen.get? c.requestId).isSome = true → WssStep w (.command c wall available) w' →
        w'.permits = w.permits ∧ w'.holder = w.holder) ∧
    (∀ p ∈ w.pairs, p.newcomer ∈ w.admissions ∧ p.waiting ∈ w.admissions ∧
      p.waiting.connection < p.newcomer.connection ∧ p.waiting.permit = p.newcomer.permit ∧
      p.waiting.permitEpoch = p.epoch ∧ p.newcomer.permitEpoch = p.epoch) ∧
    ∀ a ∈ w.admissions, a.permitEpoch = a.epoch := by
  obtain ⟨hpairing, hepochs, haccepted⟩ := invariants_wss h
  refine ⟨⟨haccepted.once, haccepted.issued, hpairing.twice, fun a ha => ?_⟩, ?_, ?_, ?_,
    fun p hp => ?_, hepochs.admitted⟩
  · exact ⟨hpairing.drawn a ha, hpairing.inTime a ha⟩
  · exact fun l w' u p' hs hu => hs.uses hu
  · exact fun l w' a hs ha => hs.admits ha
  · exact fun session seen c wall available w' hl hseen hs => hs.seen hl hseen
  · have hsound := hpairing.sound p hp
    obtain ⟨hnewcomer, hwaiting⟩ := hepochs.paired p hp
    exact ⟨hsound.newcomer, hsound.waiting, hsound.connection, hsound.permit, hwaiting, hnewcomer⟩

/-! ## A first pair -/

def sampleCommand : Command := ⟨"session-1", "request-1", "pair-0001", "permit", 5000⟩

/-- A session begins, its first command is a permit, and two connections use it. -/
theorem firstPair_run : ∃ ls w, Run WssStep .start ls w ∧ w.pairs.length = 1 ∧ w.issued = 1 := by
  have hpermitted : Run WssStep .start _ _ :=
    .cons (@WssStep.hello _ "session-1" rfl rfl (by simp [State.start]))
      (.cons (.clear rfl rfl) (.cons (.clearPermits rfl) (.cons (.clearPending rfl)
        (.cons (@WssStep.beginPermit _ _ _ sampleCommand 0 true rfl rfl (by decide))
          (.single (.permitted rfl rfl (by decide)))))))
  have hwaits := hpermitted.trans (waits_run ⟨"pair-0001", 30000, 2, 0, 1⟩ .data rfl (by decide) rfl)
  have hpaired := hwaits.trans (pairs_run ⟨"pair-0001", 30000, 1, 0, 1⟩ .data rfl (by decide) rfl)
  exact ⟨_, _, hpaired, rfl, rfl⟩

theorem firstPair_permits_and_pairs :
    ∃ w : State, w.ReachedWss ∧ w.pairs.length = 1 ∧ w.issued = 1 ∧ (∀ n, w.uses n ≤ 2) ∧
      ∀ p ∈ w.pairs, p.waiting.permit = p.newcomer.permit := by
  obtain ⟨ls, w, hrun, hpairs, hissued⟩ := firstPair_run
  have hreached : w.ReachedWss := ⟨.start, ls, rfl, hrun⟩
  obtain ⟨⟨-, -, htwice, -⟩, -, -, -, hsame, -⟩ := wss_permits_and_pairs hreached
  exact ⟨w, hreached, hpairs, hissued, htwice, fun p hp => (hsame p hp).2.2.2.1⟩

end RemoteControl.Hbbr.Relay
