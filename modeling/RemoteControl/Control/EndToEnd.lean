import RemoteControl.Control.Session
import RemoteControl.Hbbr.OutboxOrder
import RemoteControl.Api.Receipted

/-!
# From the outbox to the receipt

The chain that carries an event across: it is handed out from a queue that is on
the disk, the gateway answers what it read, and the relay takes what was
answered. Going back along it, a reply says something about both ends:

> an acknowledgement in `downlink` has its receipt in the database, and every
> message in `uplink` is of an event older than anything a crash can bring back.
-/

namespace RemoteControl.Control

open Lib Api List Hbbr

variable {e f : Event} {v : Snapshot} {fault : WriteFault} {l : Label}
  {ls : List Label} {m : Api.Message} {r : Reply} {t w w' w₁ : World}

variable {hash : String → String} {src : UuidSource} {id : String}

/-! ## The parts of a step -/

/-- What a step does to the outbox: nothing, something of the relay's own, handing out an
event, or the operation of a reply it took. -/
theorem step_relay (h : Step hash src id w l w') :
    w'.relay = w.relay ∨ ∃ a, Hbbr.Step src w.relay a w'.relay ∧
      (l = .relay a ∧ isLocal a = true ∨ (∃ fault, a = .op (.nextEvent fault)) ∨
        ∃ r fault, r ∈ w.downlink ∧ a = .op (r.op fault)) := by
  cases h with
  | @relay a s' ha hstep => exact .inr ⟨a, hstep, .inl ⟨rfl, ha⟩⟩
  | @send o session fault e m hp hs he =>
    obtain rfl : ((w.relay.machine o).nextEvent fault).2 = m := by rw [he]
    exact .inr ⟨_, .op (.nextEvent fault) hp, .inr (.inl ⟨fault, rfl⟩)⟩
  | @reply o r fault result m hp hr hs hm =>
    have hm' : m = (r.op fault).perform src (w.relay.machine o) := by
      rw [← Reply.perform_snd, hm]
    right
    rw [hm']
    exact ⟨_, .op (r.op fault) hp, .inr (.inr ⟨r, fault, hr, rfl⟩)⟩
  | _ => exact .inl rfl

theorem step_db (hi : DbInv w.api.db) (h : Step hash src id w l w') :
    DbInv w'.api.db ∧ Evolves w.api.db w'.api.db := by
  cases h with
  | progress now _ ha | finish now _ ha | refuse now _ ha => exact advance_inv hi ha
  | others hs => exact step_inv hi hs
  | _ => exact ⟨hi, .refl _⟩

theorem relay_reached (h : w.Reached hash src id) : w.relay.Reached src := by
  refine h.invariant (I := fun w => w.relay.Reached src) (fun w hw => ?_) fun w l w' hw hst => ?_
  · exact ⟨w.relay, [], hw.relay, .nil _⟩
  · rcases step_relay hst with he | ⟨a, ha, -⟩
    · rw [he]; exact hw
    · exact hw.run (.single ha)

theorem db_reached (h : w.Reached hash src id) : DbInv w.api.db :=
  h.invariant (I := fun w => DbInv w.api.db) (fun _ hw => dbInv_of_reached hw.api)
    fun _ _ _ hi hst => (step_db hi hst).1

theorem run_db (hi : DbInv w.api.db) (h : Run (Step hash src id) w ls t) :
    Evolves w.api.db t.api.db :=
  (h.invariant (I := fun t => DbInv t.api.db ∧ Evolves w.api.db t.api.db)
    (fun _ _ _ ih hst => ⟨(step_db ih.1 hst).1, ih.2.trans (step_db ih.1 hst).2⟩)
    ⟨hi, .refl _⟩).2

/-! ## The chain -/

structure Chain (id : String) (w : World) : Prop where
  sent : ∀ p ∈ w.uplink, ∃ f ∈ w.relay.recorded,
    lifecycleMessage f = p.message ∧ NoneEarlier f w.relay
  served : ∀ session c, (session, c) ∈ w.serving → c.relayId = id ∧
    ∃ m, c.message? = some m ∧ ⟨session, m⟩ ∈ w.uplink
  answered : ∀ r ∈ w.downlink, ⟨r.session, r.message⟩ ∈ w.uplink
  acked : ∀ r ∈ w.downlink, r.verdict = .ack → Receipted id r.message w.api.db

/-- An event older than all that can come back stays so. -/
theorem noneEarlier_kept (hr : w.Reached hash src id) (h : Step hash src id w l w')
    (hf : f ∈ w.relay.recorded) (hn : NoneEarlier f w.relay) :
    f ∈ w'.relay.recorded ∧ NoneEarlier f w'.relay := by
  rcases step_relay h with he | ⟨a, ha, -⟩
  · rw [he]; exact ⟨hf, hn⟩
  · exact ⟨(step_past ha).recorded.subset hf, noneEarlier_step (relay_reached hr) ha hf hn⟩

/-- What is sent is the front of a queue that is on the disk. -/
theorem send_front (hr : w.Reached hash src id) (h : Step hash src id w (.send fault) w') :
    ∃ session f o rest, w'.uplink = ⟨session, lifecycleMessage f⟩ :: w.uplink ∧
      f ∈ w'.relay.recorded ∧ w'.relay.proc = some o ∧ o.healthy = true ∧
        o.snapshot.events = f :: rest := by
  have hreached := relay_reached (hr.run (.single h))
  cases h with
  | @send o session _ e m hp hs he =>
    obtain ⟨hh, hfront⟩ := nextEvent_ok he
    obtain ⟨rest, hq⟩ := head?_eq_some_iff.mp hfront
    refine ⟨session, e, m.outbox, rest, rfl, ?_, rfl, hh, hq⟩
    refine (inOrder_of_reached hreached _ (memory_mem_views rfl)).subset ?_
    rw [show m.outbox.snapshot.events = e :: rest from hq]
    exact .head _

theorem chain_step (hr : w.Reached hash src id) (hc : Chain id w) (h : Step hash src id w l w') :
    Chain id w' := by
  have hi := db_reached hr
  have hdb := (step_db hi h).2
  have hsent : ∀ p ∈ w.uplink, ∃ f ∈ w'.relay.recorded,
      lifecycleMessage f = p.message ∧ NoneEarlier f w'.relay := fun p hp => by
    obtain ⟨f, hf, hm, hn⟩ := hc.sent p hp
    obtain ⟨hf', hn'⟩ := noneEarlier_kept hr h hf hn
    exact ⟨f, hf', hm, hn'⟩
  have hacked : ∀ r ∈ w.downlink, r.verdict = .ack → Receipted id r.message w'.api.db :=
    fun r hr hv => (hc.acked r hr hv).evolves hdb
  have herased : ∀ {session : String} {c : Call} {s c'}, (s, c') ∈ w.serving.erase (session, c) →
      c'.relayId = id ∧ ∃ m, c'.message? = some m ∧ ⟨s, m⟩ ∈ w.uplink :=
    fun hmem => hc.served _ _ (mem_of_mem_erase hmem)
  cases h with
  | @send o session fault e m hp hs he =>
    have hsend : Step hash src id w (.send fault) _ := Step.send hp hs he
    obtain ⟨_, f, o, rest, hup, hf, hproc, hh, hq⟩ := send_front hr hsend
    -- the front is the oldest event there is
    have hn := noneEarlier_front (relay_reached (hr.run (.single hsend))) hproc hh hq
    refine ⟨fun p hp => ?_, fun s c hmem => ?_, fun r hr => .tail _ (hc.answered r hr), hacked⟩
    · rw [hup] at hp
      rcases mem_cons.mp hp with rfl | hp
      · exact ⟨f, hf, rfl, hn⟩
      · exact hsent p hp
    · obtain ⟨hid, m, hm, hsentm⟩ := hc.served s c hmem
      exact ⟨hid, m, hm, .tail _ hsentm⟩
  | @read p token address hp hpeer =>
    refine ⟨hsent, fun s c hmem => ?_, hc.answered, hacked⟩
    rcases mem_cons.mp hmem with heq | hmem
    · cases heq
      exact ⟨rfl, p.message, rfl, hp⟩
    · exact hc.served s c hmem
  | @progress session c c' db' now hmem ha =>
    refine ⟨hsent, fun s d hd => ?_, hc.answered, hacked⟩
    rcases mem_cons.mp hd with heq | hd
    · cases heq
      obtain ⟨hid, m, hm, hup⟩ := hc.served session c hmem
      obtain ⟨hm', hid'⟩ := advance_message ha (by rw [hm]; rfl)
      exact ⟨hid'.trans hid, m, hm'.trans hm, hup⟩
    · exact herased hd
  | @finish session c answer v m db' now hmem ha hv hm =>
    obtain ⟨hid, m', hm', hup⟩ := hc.served session c hmem
    obtain rfl : m' = m := Option.some.inj (hm'.symm.trans hm)
    refine ⟨hsent, fun s d hd => herased hd, fun r hr => ?_, fun r hr hack => ?_⟩
    · rcases mem_cons.mp hr with rfl | hr
      · exact hup
      · exact hc.answered r hr
    · rcases mem_cons.mp hr with rfl | hr
      · subst hack
        obtain rfl : answer = .acknowledged := by cases answer <;> first | rfl | cases hv
        rw [← hid]
        exact acknowledged_receipted hi hm ha
      · exact hacked r hr hack
  | refuse now hmem ha hv => exact ⟨hsent, fun s d hd => herased hd, hc.answered, hacked⟩
  | restartApi => exact ⟨hsent, fun _ _ hmem => absurd hmem not_mem_nil, hc.answered, hacked⟩
  | _ => exact ⟨hsent, hc.served, hc.answered, hacked⟩

theorem chain_of_reached (h : w.Reached hash src id) : Chain id w := by
  obtain ⟨w₀, ls, hinit, hrun⟩ := h
  refine hrun.invariant_of (J := fun w => w.Reached hash src id) (fun w l w' hw hst => ?_)
    (fun w l w' hw hc hst => chain_step hw hc hst) ⟨w₀, [], hinit, .nil _⟩ ⟨?_, ?_, ?_, ?_⟩
  · exact hw.run (.single hst)
  · rw [hinit.uplink]; exact fun _ h => absurd h not_mem_nil
  · rw [hinit.serving]; exact fun _ _ h => absurd h not_mem_nil
  · rw [hinit.downlink]; exact fun _ h => absurd h not_mem_nil
  · rw [hinit.downlink]; exact fun _ h => absurd h not_mem_nil

/-! ## Received once -/

theorem step_about (h : Step hash src id w l w') (hl : l.about m = true) :
    ∃ (c : Call) (now : Nat), c.message? = some m ∧
      w'.api.db = (c.advance hash now w.api.db).1 := by
  cases h with
  | progress now _ ha | finish now _ ha | refuse now _ ha =>
    exact ⟨_, now, by simpa [Label.about] using hl, by rw [ha]⟩
  | others hs =>
    cases hs with
    | progress now _ ha | finish now _ ha =>
      exact ⟨_, now, by simpa [Label.about] using hl, by rw [ha]⟩
    | _ => cases hl
  | _ => cases hl

/-- A statement for a message that changes the database commits its receipt. -/
theorem changed_recorded {now : Nat} {db : Db} {c : Call} (hm : c.message? = some m)
    (hne : (c.advance hash now db).1 ≠ db) :
    ∃ st, m.lifecycle? = some st ∧
      (c.advance hash now db).1.recorded m.uuid st = some m.requestId := by
  have hself : c.advance hash now db = ((c.advance hash now db).1, (c.advance hash now db).2) := rfl
  rcases advance_cases hself with h
    | ⟨_, _, _, rfl, -⟩ | ⟨_, token, address, m', st, a, connections, rfl, -, hst, hrec⟩
  · exact absurd h hne
  · cases hm
  · cases hm
    obtain ⟨st', -, hst', hr, -⟩ := hrec.receipted hst
    rw [lifecycle?_ofString? hst] at hst'
    cases hst'
    exact ⟨st, hst, hr⟩

theorem changes_once {t' : World} {l' : Label} (hw : w.Reached hash src id)
    (h : Step hash src id w l w₁) (hrun : Run (Step hash src id) w₁ ls t)
    (h' : Step hash src id t l' t') (hl : l.about m = true) (hl' : l'.about m = true)
    (hne : w₁.api.db ≠ w.api.db) : t'.api.db = t.api.db := by
  have hw₁ : w₁.Reached hash src id := hw.run (.single h)
  obtain ⟨c, now, hm, hdb⟩ := step_about h hl
  obtain ⟨c', now', hm', hdb'⟩ := step_about h' hl'
  rw [hdb] at hne
  obtain ⟨st, hst, hrec⟩ := changed_recorded hm hne
  rw [← hdb] at hrec
  have hlater := (run_db (db_reached hw₁) hrun).recorded _ _ _ hrec
  rw [hdb']
  exact repeated_event_same (db_reached (hw₁.run hrun)) hm' hst hlater

/-! ## Leaving the queue -/

/-- The gateway answered that the event's credential generation is stale. -/
def Rejected (e : Event) (w : World) : Prop :=
  ∃ r ∈ w.downlink, r.verdict = .rejected ∧ r.message = lifecycleMessage e

theorem downlink_mono (h : Step hash src id w l w') (hr : r ∈ w.downlink) : r ∈ w'.downlink := by
  cases h with
  | finish => exact .tail _ hr
  | _ => exact hr

theorem Rejected.step (hr : Rejected e w) (h : Step hash src id w l w') : Rejected e w' := by
  obtain ⟨r, hr, hv⟩ := hr
  exact ⟨r, downlink_mono h hr, hv⟩

theorem acknowledges_reply (h : Acknowledges e v (r.op fault)) :
    r.verdict = .ack ∧ r.message = lifecycleMessage e := by
  obtain ⟨-, f, hop⟩ := h
  unfold Reply.op at hop
  cases hv : r.verdict with
  | rejected => rw [hv] at hop; cases hop
  | ack =>
    rw [hv] at hop
    injection hop with h₁ h₂ h₃
    refine ⟨rfl, ?_⟩
    unfold lifecycleMessage
    rw [← h₁, ← h₂, ← h₃]

theorem quarantines_reply (h : Quarantines e v (r.op fault)) :
    r.verdict = .rejected ∧ r.message = lifecycleMessage e := by
  obtain ⟨-, f, hop⟩ := h
  unfold Reply.op at hop
  cases hv : r.verdict with
  | ack => rw [hv] at hop; cases hop
  | rejected =>
    rw [hv] at hop
    injection hop with h₁ h₂ h₃
    refine ⟨rfl, ?_⟩
    unfold lifecycleMessage
    rw [← h₁, ← h₂, ← h₃]

/-- Of the operations a step asks for, those that take an event off the queue are
replies to it. -/
theorem step_reply {a : Action} {op : Op} (hc : Chain id w)
    (ha : l = .relay a ∧ isLocal a = true ∨ (∃ fault, a = .op (.nextEvent fault)) ∨
      ∃ (r : Reply) (fault : WriteFault), r ∈ w.downlink ∧ a = .op (r.op fault))
    (hop : a = .op op) :
    (Acknowledges e v op → Receipted id (lifecycleMessage e) w.api.db) ∧
    (Quarantines e v op → Rejected e w) ∧
    (Acknowledges e v op ∨ Quarantines e v op →
      ∃ p ∈ w.uplink, p.message = lifecycleMessage e) := by
  subst hop
  rcases ha with hlocal | hnext | ⟨r, fault, hr, hop⟩
  iterate 2
    have hno : ¬ (Acknowledges e v op ∨ Quarantines e v op) := by
      rintro (⟨-, f, rfl⟩ | ⟨-, f, rfl⟩) <;> simp [isLocal] at *
    exact ⟨fun h => absurd (.inl h) hno, fun h => absurd (.inr h) hno, fun h => absurd h hno⟩
  · obtain rfl : op = r.op fault := Action.op.inj hop
    refine ⟨fun h => ?_, fun h => ?_, fun h => ⟨_, hc.answered r hr, ?_⟩⟩
    · obtain ⟨hv, hm⟩ := acknowledges_reply h
      rw [← hm]
      exact hc.acked r hr hv
    · obtain ⟨hv, hm⟩ := quarantines_reply h
      exact ⟨r, hr, hv, hm⟩
    · rcases h with h | h
      · exact (acknowledges_reply h).2
      · exact (quarantines_reply h).2

theorem accounted_step (hw : w.Reached hash src id) (h : Step hash src id w l w')
    (he : w.relay.All
      (Accounted e (Receipted id (lifecycleMessage e) w.api.db) (Rejected e w))) :
    w'.relay.All (Accounted e (Receipted id (lifecycleMessage e) w'.api.db) (Rejected e w')) := by
  have hdb := (step_db (db_reached hw) h).2
  have hlater : w.relay.All
      (Accounted e (Receipted id (lifecycleMessage e) w'.api.db) (Rejected e w')) :=
    fun v hv => (he v hv).weaken (fun hx => hx.evolves hdb) (fun hy => hy.step h)
  rcases step_relay h with heq | ⟨a, hstep, ha⟩
  · rw [heq]; exact hlater
  · rcases (accounted_invariant src e _ _).step hlater hstep with ⟨o, op, -, hop, hB⟩ | hall
    · -- a step that takes the event off the queue has what it needs for it
      obtain ⟨hack, hquar, -⟩ := step_reply (v := o.snapshot) (e := e) (chain_of_reached hw) ha hop
      rcases hB with ⟨hA, hx⟩ | ⟨hQ, hy⟩
      · exact absurd ((hack hA).evolves hdb) hx
      · exact absurd ((hquar hQ).step h) hy
    · exact hall

theorem accounted_run (hw : w.Reached hash src id) (hrun : Run (Step hash src id) w ls t)
    (hv : w.relay.Wrote v) (he : e ∈ v.events) :
    t.relay.All (Accounted e (Receipted id (lifecycleMessage e) t.api.db) (Rejected e t)) := by
  refine hrun.invariant_of (J := fun w => w.Reached hash src id)
    (I := fun w => w.relay.All
      (Accounted e (Receipted id (lifecycleMessage e) w.api.db) (Rejected e w)))
    (fun _ _ _ hw hst => hw.run (.single hst))
    (fun _ _ _ hw hall hst => accounted_step hw hst hall) hw fun u hu => ?_
  rw [hv.view_eq hu]
  exact .inl he

theorem noneEarlier_run (hw : w.Reached hash src id) (hrun : Run (Step hash src id) w ls t)
    (hf : f ∈ w.relay.recorded) (hn : NoneEarlier f w.relay) : NoneEarlier f t.relay :=
  (hrun.invariant_of (J := fun w => w.Reached hash src id)
    (I := fun w => f ∈ w.relay.recorded ∧ NoneEarlier f w.relay)
    (fun _ _ _ hw hst => hw.run (.single hst))
    (fun _ _ _ hw hk hst => noneEarlier_kept hw hst hk.1 hk.2) hw ⟨hf, hn⟩).2

theorem recorded_run (hrun : Run (Step hash src id) w ls t) :
    w.relay.recorded <+: t.relay.recorded := by
  refine hrun.invariant (I := fun t => w.relay.recorded <+: t.relay.recorded)
    (fun u l u' hu hst => ?_) prefix_rfl
  rcases step_relay hst with he | ⟨a, ha, -⟩
  · rw [he]; exact hu
  · exact hu.trans (step_past ha).recorded

/-- What an event that leaves the queue had: its receipt, or the refusal and a place in
the quarantine; and nothing recorded before it can come after. -/
theorem leaves_in_order (hw : w.Reached hash src id) (h : Step hash src id w l w₁)
    (hrun : Run (Step hash src id) w₁ ls t) {o o₁ : Outbox} (hp : w.relay.proc = some o)
    (hp₁ : w₁.relay.proc = some o₁) (he : e ∈ o.snapshot.events) (he₁ : e ∉ o₁.snapshot.events) :
    (Receipted id (lifecycleMessage e) w.api.db ∨
      Rejected e w ∧ { e with reason := "credential_rotated" } ∈ o₁.snapshot.quarantine) ∧
    ∀ d, Earlier w.relay.past d e → ∀ v ∈ t.relay.views, d ∉ v.events := by
  have hc := chain_of_reached hw
  rcases step_relay h with heq | ⟨a, hstep, ha⟩
  · rw [heq, hp] at hp₁
    cases hp₁
    exact absurd he he₁
  obtain ⟨op, hop, hleave⟩ := step_leaves hstep hp hp₁ he he₁
  obtain ⟨hack, hquar, hsent⟩ := step_reply (v := o.snapshot) (e := e) hc ha hop
  refine ⟨hleave.imp hack (And.imp_left hquar), fun d hd v hv hdv => ?_⟩
  -- it was sent, and what is sent is older than all that can come back
  obtain ⟨p, hpmem, hpm⟩ := hsent (hleave.imp_right And.left)
  obtain ⟨f, hf, hfm, hn⟩ := hc.sent p hpmem
  have hrec : e ∈ w.relay.recorded :=
    (inOrder_of_reached (relay_reached hw) _ (memory_mem_views hp)).subset he
  obtain rfl : f = e := (unrepeated_of_reached (relay_reached hw)).eq_of_id hf hrec
    (congrArg Api.Message.requestId (hfm.trans hpm))
  have hw₁ : w₁.Reached hash src id := hw.run (.single h)
  obtain ⟨hf₁, hn₁⟩ := noneEarlier_kept hw h hf hn
  refine noneEarlier_run hw₁ hrun hf₁ hn₁ v hv d hdv (List.Sublist.trans hd ?_)
  exact (recorded_run ((Run.single h).trans hrun)).sublist

/-- **Lifecycle delivery, end to end**: a step from any reachable state `w` to `w₁`, and
any run from there to `t`. -/
theorem lifecycle_end_to_end (hash : String → String) (src : UuidSource) (id : String)
    {w w₁ t : World} {l : Label} {ls : List Label} (hw : w.Reached hash src id)
    (h : Step hash src id w l w₁) (hrun : Run (Step hash src id) w₁ ls t) :
    -- if the step changed the database for an event, no later step for it does
    (∀ m l' t', l.about m = true → w₁.api.db ≠ w.api.db → Step hash src id t l' t' →
      l'.about m = true → t'.api.db = t.api.db) ∧
    -- if an event left the queue, its receipt was committed, or it was answered to be
    -- stale and is now quarantined; and nothing older is queued anywhere, or ever will be
    (∀ o o₁ e, w.relay.proc = some o → w₁.relay.proc = some o₁ → e ∈ o.snapshot.events →
      e ∉ o₁.snapshot.events →
      (Receipted id (lifecycleMessage e) w.api.db ∨
        Rejected e w ∧ { e with reason := "credential_rotated" } ∈ o₁.snapshot.quarantine) ∧
      ∀ d, Earlier w.relay.past d e → ∀ v ∈ t.relay.views, d ∉ v.events) ∧
    -- an event of a reported write is in the queue, whatever crashes, until one of the two
    (∀ v e, w.relay.Wrote v → e ∈ v.events → ∀ u ∈ t.relay.views,
      e ∈ u.events ∨ Receipted id (lifecycleMessage e) t.api.db ∨
        Rejected e t ∧ ((∃ f ∈ u.quarantine, e.SameReport f) ∨
          Archived e t.relay.disk.backups)) :=
  ⟨fun _ _ _ hl hne h' hl' => changes_once hw h hrun h' hl hl' hne,
    fun _ _ _ hp hp₁ he he₁ => leaves_in_order hw h hrun hp hp₁ he he₁,
    fun _ _ hv he => accounted_run hw ((Run.single h).trans hrun) hv he⟩

/-! ### An event on its way

The relay opens its directory and reports a connection, and the event is received. The connection
ends, the relay is killed and started again, and only then the event is received once more and
acknowledged. -/

def sampleEvent : Event := ⟨binaryText 1, "conn-0001", "active", 7, ""⟩

/-- The outbox as the report writes it. -/
def sampleAdmitted : Machine :=
  (System.firstOpen.machine
    ⟨{ firstOutbox.snapshot with active := {"conn-0001"} }, true⟩).pushEvent
      .binary "conn-0001" "active" 7

def sampleCall : Call :=
  .event "relay-1" sampleToken "relay.example:21117" (lifecycleMessage sampleEvent)

def sampleServed : World where
  relay := (sampleAdmitted.flush .none).2.toSystem
  session := some "session-1"
  peer := some ⟨"session-1", sampleToken⟩
  sessions := ["session-1"]
  uplink := [⟨"session-1", lifecycleMessage sampleEvent⟩]
  serving := [("session-1", sampleCall)]
  downlink := []
  api := ⟨sampleAuthorized, []⟩

def sampleAnswered : World := { sampleServed with
  serving := []
  downlink := [⟨"session-1", .ack, lifecycleMessage sampleEvent⟩]
  api := ⟨(sampleCall.advance sampleHash 80 sampleAuthorized).1, []⟩ }

def sampleLabels : List Label :=
  [.relay (.openDir [] .none), .relay (.op (.report "conn-0001" "active" 7 .none)),
    .accept ⟨"session-1", sampleToken⟩, .hello "session-1", .send .none,
    .read ⟨"session-1", lifecycleMessage sampleEvent⟩ sampleToken "relay.example:21117"]

theorem sampleServed_reached : sampleServed.Reached sampleHash .binary "relay-1" := by
  refine ⟨⟨.start, none, none, [], [], [], [], ⟨sampleAuthorized, []⟩⟩, sampleLabels,
    ⟨init_start _, rfl, rfl, rfl, rfl, rfl,
      sampleEnrolled_reached.run sampleAuthorized_run⟩, ?_⟩
  refine .cons (.relay rfl firstOpen_step) ?_
  refine .cons (.relay rfl (.op _ rfl)) ?_
  refine .cons (.accept rfl not_mem_nil) ?_
  refine .cons (.hello rfl (.head _)) ?_
  refine .cons (.send (e := sampleEvent) rfl rfl rfl) ?_
  exact .single (.read _ (.head _) rfl)

theorem sampleAnswered_step : Step sampleHash .binary "relay-1" sampleServed
    (.finish "session-1" sampleCall .acknowledged) sampleAnswered :=
  .finish 80 (.head _) rfl rfl rfl

def sampleAgain : List Label :=
  [.relay (.op (.report "conn-0001" "closed" 9 .none)), .relay .kill,
    .relay (.openDir [] .none), .hello "session-1",
    .read ⟨"session-1", lifecycleMessage sampleEvent⟩ sampleToken "relay.example:21117"]

theorem lifecycle_end_to_end_sample : ∃ t t' t₁,
    Run (Step sampleHash .binary "relay-1") sampleAnswered sampleAgain t ∧
    (∀ u ∈ t.relay.views, sampleEvent ∈ u.events ∨
      Receipted "relay-1" (lifecycleMessage sampleEvent) t.api.db ∨ Rejected sampleEvent t) ∧
    Step sampleHash .binary "relay-1" t (.finish "session-1" sampleCall .acknowledged) t' ∧
    t'.api.db = t.api.db ∧
    Step sampleHash .binary "relay-1" t
      (.reply ⟨"session-1", .ack, lifecycleMessage sampleEvent⟩ .none) t₁ ∧
    (Receipted "relay-1" (lifecycleMessage sampleEvent) t.api.db ∨ Rejected sampleEvent t) := by
  have hrun : Run (Step sampleHash .binary "relay-1") sampleAnswered sampleAgain _ :=
    .cons (.relay rfl (.op _ rfl)) <|
    .cons (.relay rfl .kill) <|
    .cons (.relay rfl (.opened rfl ⟨nodup_nil, rfl⟩ rfl rfl)) <|
    .cons (.hello rfl (.head _)) <|
    .single (.read _ (.head _) rfl)
  have hreached := (sampleServed_reached.next sampleAnswered_step).run hrun
  obtain ⟨honce, -, hkept⟩ := lifecycle_end_to_end sampleHash .binary "relay-1"
    sampleServed_reached sampleAnswered_step hrun
  have hleave := (lifecycle_end_to_end sampleHash .binary "relay-1" hreached
    (l := .reply ⟨"session-1", .ack, lifecycleMessage sampleEvent⟩ .none)
    (.reply rfl (.head _) rfl rfl) (.nil _)).2.1
  refine ⟨_, _, _, hrun, fun u hu => ?_, .finish 90 (.head _) rfl rfl rfl, ?_,
    .reply rfl (.head _) rfl rfl, ?_⟩
  · exact (hkept _ sampleEvent ⟨sampleAdmitted, .none, rfl, rfl, rfl⟩ (.head _) u hu).imp_right
      (Or.imp_right And.left)
  · have habout : Label.about (lifecycleMessage sampleEvent)
        (.finish "session-1" sampleCall .acknowledged) = true := by
      simp [Label.about, sampleCall, Call.message?]
    refine honce _ _ _ habout (fun h => ?_) (.finish 90 (.head _) rfl rfl rfl) habout
    have hnone := congrArg (fun db => db.recorded "conn-0001" .active) h
    exact absurd hnone (by decide)
  · exact (hleave _ _ sampleEvent rfl rfl (.head _) (by decide)).1.imp_right And.left

end RemoteControl.Control
