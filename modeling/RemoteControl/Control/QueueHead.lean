import RemoteControl.Control.EndToEnd
import RemoteControl.Control.Site
import RemoteControl.Hbbr.OutboxPairs
import RemoteControl.Hbbr.RelayReports
import RemoteControl.Api.Answers

/-!
# The head of the queue

Can the event at the head of a relay's queue be one that the API refuses for ever? What it is
refused for is a check of `ApplyRelayEvent`; going through them, for an event whose UUID was
authorised to the relay and a session with its current credential:

* another event was received for the same UUID and status, or the same id for another one:
  never, since a UUID is permitted once, a pair reported once, and of two events that close a
  pair only one is ever sent;
* the connection is closed and the event says that it is active: never, since the closing event
  was sent after it, and nothing older comes back;
* the connection record names another relay server: this happens, whenever the record was
  written under one address and the event is received under another.

> What authorises a UUID, permits it, pairs it and reports it is one and the same pledge, handed
> on from one part to the next; there is never more than one.
-/

namespace RemoteControl.Control

open Lib Api List Hbbr

variable {fault : WriteFault} {st : Lifecycle} {e generation u : String} {w w' : World}

section

variable {hash : String → String} {src : UuidSource} {trimSpace : String → String}
  {id : String} {s s' : Site} {l : SiteLabel}

/-! ## What a step is for the parts -/

/-- Every step is one of the session, or none for it. -/
theorem SiteStep.world_step (h : SiteStep hash src trimSpace id s l s') :
    s'.world = s.world ∨ ∃ l', Step hash src id s.world l' s'.world := by
  cases h with
  | world hl hw => exact .inr ⟨_, hw⟩
  | @report o uuid x peer result m d' now fault hp hh hr hd =>
    obtain rfl : ((s.world.relay.machine o).report src uuid "active" now fault).2 = m := by rw [hr]
    exact .inr ⟨_, .relay rfl (.op (.report uuid "active" now fault) hp)⟩
  | create => exact .inr ⟨_, .others (.admin (.createRelay id true))⟩
  | @edit v v' => exact .inr ⟨_, .others (.admin (.setRelayEnabled id v'.enabled))⟩
  | data | permit | retry | terminate | read => exact .inl rfl

theorem Site.world_reached (h : s.Reached hash src trimSpace id) : s.world.Reached hash src id := by
  refine h.invariant (I := fun s => s.world.Reached hash src id) (fun s hs => ?_)
    fun s l s' hs hst => ?_
  · rw [hs]
    exact ⟨_, [], ⟨init_start src, rfl, rfl, rfl, rfl, rfl, ⟨_, [], rfl, .nil _⟩⟩, .nil _⟩
  · rcases hst.world_step with he | ⟨l', hw⟩
    · rw [he]
      exact hs
    · exact hs.run (.single hw)

/-- A reply reports no pair. -/
theorem op_not_reports {r : Reply} : ¬ (Action.op (r.op fault)).Reports u := by
  rintro ⟨now, fault', h⟩
  unfold Reply.op at h
  cases hv : r.verdict with
  | ack | rejected => rw [hv] at h; cases h

/-- Of the outbox's actions, a step of the world takes none that reports a pair. -/
theorem step_quiet {l : Label} (hl : s.allows id l = true) (h : Step hash src id s.world l w') :
    w'.relay = s.world.relay ∨
      ∃ a, Hbbr.Step src s.world.relay a w'.relay ∧ ∀ u, ¬ a.Reports u := by
  refine (step_relay h).imp_right fun ⟨a, hstep, ha⟩ => ⟨a, hstep, fun u hu => ?_⟩
  rcases ha with ⟨rfl, -⟩ | ⟨fault, rfl⟩ | ⟨r, fault, -, rfl⟩
  · obtain ⟨now, fault, rfl⟩ := hu
    simp [Site.allows] at hl
  · obtain ⟨now, fault', hop⟩ := hu
    cases hop
  · exact op_not_reports hu

/-- A pair is reported while the relay has its two connections in hand. -/
theorem SiteStep.relay_step (h : SiteStep hash src trimSpace id s l s') :
    s'.world.relay = s.world.relay ∨ ∃ a, Hbbr.Step src s.world.relay a s'.world.relay ∧
      ∀ u, a.Reports u → ∃ x peer, s.data.holder = some (.met u x peer) := by
  cases h with
  | world hl hw =>
    rcases step_quiet hl hw with he | ⟨a, ha, hquiet⟩
    · exact .inl he
    · exact .inr ⟨a, ha, fun u hu => absurd hu (hquiet u)⟩
  | @report o uuid x peer result m d' now fault hp hh hr hd =>
    obtain rfl : ((s.world.relay.machine o).report src uuid "active" now fault).2 = m := by rw [hr]
    refine .inr ⟨_, .op (.report uuid "active" now fault) hp, ?_⟩
    rintro u ⟨now', fault', hop⟩
    cases hop
    exact ⟨x, peer, hh⟩
  | data | permit | retry | terminate | read | create | edit => exact .inl rfl

/-! ## Pledges -/

/-- What stands for one authorisation of the UUID: the permit command to be made up, the command
until one of its copies gets its turn, what the relay has made of it, and in the end the event
that reports the pair. -/
def Site.pledges (uuid : String) (s : Site) : Nat :=
  s.granted.count uuid + s.requests.countP (fun c => c.permits uuid && s.data.awaits c)
    + s.data.prospects uuid + s.world.relay.recorded.countP (·.Opens uuid)

/-- Commands that are not awaited any more stand for nothing. -/
theorem requests_le {d d' : Relay.State} (requests : List Relay.Command)
    (h : ∀ c, d'.awaits c = true → d.awaits c = true) (u : String) :
    requests.countP (fun c => c.permits u && d'.awaits c)
      ≤ requests.countP (fun c => c.permits u && d.awaits c) := by
  refine countP_mono_left fun c _ hc => ?_
  rw [Bool.and_eq_true] at hc ⊢
  exact ⟨hc.1, h c hc.2⟩

/-- A command that has got its turn stands for nothing any more. -/
theorem requests_taken {d d' : Relay.State} {requests : List Relay.Command}
    {c : Relay.Command} (hc : c ∈ requests)
    (h : ∀ c, d'.awaits c = true → d.awaits c = true) (hd : d.awaits c = true)
    (hd' : d'.awaits c = false) (u : String) :
    requests.countP (fun c => c.permits u && d'.awaits c) + (c.permits u).toNat
      ≤ requests.countP (fun c => c.permits u && d.awaits c) := by
  have hperm := perm_cons_erase hc
  have hrest := requests_le (requests.erase c) h u
  rw [hperm.countP_eq, hperm.countP_eq, countP_cons, countP_cons, hd, hd', Bool.and_false,
    Bool.and_true]
  cases c.permits u <;> simp <;> omega

theorem opens_quiet {l : Label} (hl : s.allows id l = true) (h : Step hash src id s.world l w')
    (u : String) :
    w'.relay.recorded.countP (·.Opens u) = s.world.relay.recorded.countP (·.Opens u) := by
  rcases step_quiet hl h with he | ⟨a, ha, hquiet⟩
  · rw [he]
  · exact (step_opens ha u).resolve_right fun hr => hquiet u hr.1

/-- A step of the session adds no prospect. -/
theorem prospects_after (l : Label) (u : String) :
    (s.dataAfter l).prospects u ≤ s.data.prospects u := by
  unfold Site.dataAfter
  split
  · exact Nat.le_refl _
  · rw [Relay.prospects_start]
    exact Nat.zero_le _
  · exact Nat.le_refl _

theorem awaits_after (l : Label) (c : Relay.Command) (h : (s.dataAfter l).awaits c = true) :
    s.data.awaits c = true := by
  unfold Site.dataAfter at h
  split at h
  · exact h
  · rcases Relay.awaits_iff.mp h with h | h | ⟨seen, h, -⟩
    · exact Relay.awaits_iff.mpr (.inl h)
    · cases h
    · cases h
  · exact h

/-- A permit is to be written for a UUID that had no owner. -/
theorem granted_after {l : Label} (h : Step hash src id s.world l w') (u : String) :
    (s.grantedAfter id l).count u = s.granted.count u ∨
      (s.grantedAfter id l).count u = s.granted.count u + 1 ∧ s.world.api.db.owner u = none ∧
        (w'.api.db.owner u).isSome = true := by
  unfold Site.grantedAfter
  split
  · next i uuid c =>
    split
    · by_cases hu : uuid = u
      · subst hu
        refine .inr ⟨count_cons_self, ?_⟩
        cases h with
        | others hs => exact authorizes_step hs (by simp [Api.Label.authorizes])
      · exact .inl (count_cons_of_ne hu)
    · exact .inl rfl
  · exact .inl rfl

/-- **No step adds a pledge but the authorisation**, which is for a UUID without an owner. -/
theorem pledges_step (hp : Relay.Pairing s.data) (ha : Relay.Accepted s.data)
    (hwritten : ∀ c ∈ s.commands, c.action = "permit" → c ∈ s.requests)
    (h : SiteStep hash src trimSpace id s l s') (u : String) : s'.pledges u ≤ s.pledges u ∨
      s'.pledges u ≤ s.pledges u + 1 ∧ s.db.owner u = none ∧ (s'.db.owner u).isSome = true := by
  unfold Site.pledges
  cases h with
  | @world l w' hl hw =>
    have hrec := opens_quiet hl hw u
    have hdata := prospects_after (s := s) l u
    have hrequests := requests_le s.requests (awaits_after (s := s) l) u
    dsimp only
    rcases granted_after hw u with hg | ⟨hg, hown⟩
    · exact .inl (by omega)
    · exact .inr ⟨by omega, hown⟩
  | @data l d' hproc hl hd =>
    have hdata := Relay.prospects_wss (u := u) hd fun c wall available hc => by
      rw [hc] at hl
      cases hl
    have hrequests := requests_le s.requests (fun c => Relay.awaits_wss hd) u
    dsimp only
    exact .inl (by omega)
  | @report o uuid x peer result m d' now fault hproc hh hr hd =>
    have hstep : Hbbr.Step src s.world.relay _ _ := .op (.report uuid "active" now fault) hproc
    have hopens := step_opens hstep u
    have hrequests := requests_le s.requests (fun c => Relay.awaits_data hd) u
    dsimp only [Op.perform] at hopens
    rw [hr] at hopens
    dsimp only at hopens ⊢
    left
    rcases hopens with hrec | ⟨⟨now', fault', hop⟩, hrec⟩
    · have hdata := Relay.prospects_data (u := u) hd
      omega
    · -- the two connections in hand become the event
      obtain ⟨rfl, -⟩ := Op.report.inj (Action.op.inj hop)
      have hlabel : reportLabel result = .reported ∨ reportLabel result = .reportFailed := by
        cases result with
        | ok => exact .inl rfl
        | error => exact .inr rfl
      have hdata := Relay.prospects_report hp hh hd hlabel
      omega
  | @permit c hc hg =>
    have hgranted := (perm_cons_erase hg).count_eq u
    rw [count_cons] at hgranted
    have hcommand : c.permits u = (c.uuid == u) := by
      rw [Relay.Command.permits, decide_eq_true hc, Bool.and_true]
      rfl
    dsimp only
    rw [countP_cons, hcommand]
    cases hu : c.uuid == u <;> cases hawaits : s.data.awaits c <;> simp [hu] at hgranted ⊢ <;> omega
  | @read c d' wall available hproc hc hd =>
    dsimp only
    left
    rcases Relay.prospects_command (u := u) ha hd with hdata | ⟨hpermit, hd₁, hd₂, hdata⟩
    · have hrequests := requests_le s.requests (fun c => Relay.awaits_wss hd) u
      omega
    · have hrequests := requests_taken (hwritten c hc hpermit)
        (fun c => Relay.awaits_wss hd) hd₁ hd₂ u
      omega
  | retry | terminate | create | edit => exact .inl (Nat.le_refl _)

/-! ## The invariant -/

/-- One pledge for a UUID with an owner, none for another. -/
structure Site.Inv (id : String) (s : Site) : Prop where
  -- the relay
  pairing : Relay.Pairing s.data
  accepted : Relay.Accepted s.data
  written : ∀ c ∈ s.commands, c.action = "permit" → c ∈ s.requests
  pledged : ∀ u, s.pledges u ≤ (s.db.owner u).isSome.toNat
  lived : Lived s.world.relay.past
  live : s.world.relay.All Live
  -- what it sent
  settled : ∀ p ∈ s.world.uplink, p.message.status = "closed" → ∃ f ∈ s.world.relay.recorded,
    lifecycleMessage f = p.message ∧ s.world.relay.All (Settled f)
  -- what was received from it
  traced : ∀ u st e generation, s.db.recorded u st = some e → s.db.owner u = some (id, generation) →
    ∃ p ∈ s.world.uplink, p.message.lifecycle? = some st ∧ p.message.uuid = u ∧
      p.message.requestId = e
  foreign : ∀ c ∈ s.world.api.calls, c.message?.isSome = true → c.relayId ≠ id

/-- While the relay has the two connections of a pair in hand, the pair was not reported. -/
theorem Site.Inv.first (hi : s.Inv id) {a : Action}
    (ha : ∀ u, a.Reports u → ∃ x peer, s.data.holder = some (.met u x peer)) :
    FirstReport s.world.relay a := by
  intro u hu d hd hopens
  obtain ⟨x, peer, hh⟩ := ha u hu
  have hmet := Relay.prospects_met hh
  have hle := hi.pledged u
  have hone := Bool.toNat_le (s.db.owner u).isSome
  have hpos : 0 < s.world.relay.recorded.countP (·.Opens u) :=
    countP_pos_iff.mpr ⟨d, hd, by simpa using hopens⟩
  unfold Site.pledges at hle
  omega

/-- A step reports no pair twice. -/
theorem SiteStep.first (hi : s.Inv id) (h : SiteStep hash src trimSpace id s l s') :
    s'.world.relay = s.world.relay ∨ ∃ a, Hbbr.Step src s.world.relay a s'.world.relay ∧
      FirstReport s.world.relay a :=
  h.relay_step.imp_right fun ⟨a, ha, hmet⟩ => ⟨a, ha, hi.first hmet⟩

/-- The pairs begin before they end. -/
theorem SiteStep.lives (hi : s.Inv id) (hw : s.world.Reached hash src id)
    (h : SiteStep hash src trimSpace id s l s') :
    Lived s'.world.relay.past ∧ s'.world.relay.All Live := by
  rcases h.first hi with he | ⟨a, ha, hfirst⟩
  · rw [he]
    exact ⟨hi.lived, hi.live⟩
  · exact lives_step (relay_reached hw) ha hfirst hi.lived hi.live

/-- A pair whose end was sent is not opened again. -/
theorem SiteStep.settled (hi : s.Inv id) (h : SiteStep hash src trimSpace id s l s')
    {f : Event} (hf : f ∈ s.world.relay.recorded) (hc : f.status = "closed")
    (hs : s.world.relay.All (Settled f)) :
    f ∈ s'.world.relay.recorded ∧ s'.world.relay.All (Settled f) := by
  rcases h.first hi with he | ⟨a, ha, hfirst⟩
  · rw [he]
    exact ⟨hf, hs⟩
  · refine ⟨(step_past ha).recorded.subset hf, ?_⟩
    rcases (settled_invariant src f).step hs ha with ⟨o, op, -, hop, now, fault, hre⟩ | hall
    · obtain ⟨b, hb, hearlier⟩ := hi.lived.begun f.uuid f hf ⟨rfl, hc⟩
      refine absurd hb (hfirst f.uuid ⟨now, fault, by rw [hop, hre]⟩ b ?_)
      exact hearlier.subset (.head _)
    · exact hall

/-- Only the head of the queue is sent. -/
theorem SiteStep.uplink (h : SiteStep hash src trimSpace id s l s') :
    s'.world.uplink = s.world.uplink ∨
      ∃ fault, Step hash src id s.world (.send fault) s'.world := by
  rcases h.world_step with he | ⟨l', hw⟩
  · exact .inl (by rw [he])
  · generalize hw' : s'.world = w' at hw ⊢
    cases hw with
    | @send o session fault e m hp hs he => exact .inr ⟨fault, .send hp hs he⟩
    | _ => exact .inl rfl

/-- A receipt is that of a message the relay sent. -/
theorem world_traces {l : Label} (hw : w.Reached hash src id)
    (hforeign : ∀ c ∈ w.api.calls, c.message?.isSome = true → c.relayId ≠ id)
    (h : Step hash src id w l w') (hrec : w'.api.db.recorded u st = some e)
    (hown : w'.api.db.owner u = some (id, generation)) :
    w.api.db.recorded u st = some e ∨ ∃ p ∈ w.uplink, p.message.lifecycle? = some st ∧
      p.message.uuid = u ∧ p.message.requestId = e := by
  have hi := db_reached hw
  have hserved {session : String} {c : Call} {now : Nat} {db' : Db} {next : Call ⊕ Answer}
      (hc : (session, c) ∈ w.serving) (ha : c.advance hash now w.api.db = (db', next))
      (hrec : db'.recorded u st = some e) :
      w.api.db.recorded u st = some e ∨ ∃ p ∈ w.uplink, p.message.lifecycle? = some st ∧
        p.message.uuid = u ∧ p.message.requestId = e := by
    rcases advance_recorded hi ha hrec with hold | ⟨m, -, hm, hst, hu, he, -⟩
    · exact .inl hold
    · obtain ⟨-, m', hm', hup⟩ := (chain_of_reached hw).served session c hc
      obtain rfl := Option.some.inj (hm.symm.trans hm')
      exact .inr ⟨_, hup, hst, hu, he⟩
  have hother {c : Call} {now : Nat} {db' : Db} {next : Call ⊕ Answer} (hc : c ∈ w.api.calls)
      (ha : c.advance hash now w.api.db = (db', next)) (hrec : db'.recorded u st = some e)
      (hown : db'.owner u = some (id, generation)) : w.api.db.recorded u st = some e := by
    rcases advance_recorded hi ha hrec with hold | ⟨m, g, hm, -, -, -, howner⟩
    · exact hold
    · -- the call is another relay's, and so would be the UUID
      refine absurd ?_ (hforeign c hc (by rw [hm]; rfl))
      exact (Prod.mk.inj (Option.some.inj (howner.symm.trans hown))).1
  cases h with
  | progress now hc ha | finish now hc ha | refuse now hc ha => exact hserved hc ha hrec
  | others hs =>
    cases hs with
    | progress now hc ha | finish now hc ha => exact .inl (hother hc ha hrec hown)
    | admin op => exact .inl (admin_recorded hi hrec)
    | begin | drop => exact .inl hrec
  | _ => exact .inl hrec

theorem Site.Inv.traces (hi : s.Inv id) (hw : s.world.Reached hash src id)
    (h : SiteStep hash src trimSpace id s l s') (hrec : s'.db.recorded u st = some e)
    (hown : s'.db.owner u = some (id, generation)) :
    ∃ p ∈ s.world.uplink, p.message.lifecycle? = some st ∧ p.message.uuid = u ∧
      p.message.requestId = e := by
  rcases h.world_step with he | ⟨l', hstep⟩
  · unfold Site.db at hrec hown
    rw [he] at hrec hown
    exact hi.traced u st e generation hrec hown
  · rcases world_traces hw hi.foreign hstep hrec hown with hold | hsent
    · obtain ⟨o, ho⟩ := (db_reached hw).owner_of_recorded hold
      have hlater := (step_db (db_reached hw) hstep).2.owner u o ho
      obtain rfl := Option.some.inj (hlater.symm.trans hown)
      exact hi.traced u st e generation hold ho
    · exact hsent

/-- A call that is about a message was so from the start. -/
theorem advance_event {now : Nat} {db db' : Db} {c c' : Call}
    (h : c.advance hash now db = (db', .inl c')) (hc : c'.message?.isSome = true) :
    c.message?.isSome = true := by
  cases c with
  | authorize i token uuid =>
    simp only [Call.advance] at h
    split at h
    · cases h
    split at h <;> cases h
    cases hc
  | authorizeInsert => cases h
  | event | checkCredential | checkLive | checkArchive => rfl

theorem foreign_step {l : Label} (hl : s.allows id l = true) (h : Step hash src id s.world l w')
    (hi : ∀ c ∈ s.world.api.calls, c.message?.isSome = true → c.relayId ≠ id) :
    ∀ c ∈ w'.api.calls, c.message?.isSome = true → c.relayId ≠ id := by
  cases h with
  | others hs =>
    cases hs with
    | @begin c hc =>
      intro d hd hm
      rcases mem_cons.mp hd with rfl | hd
      · simp only [Site.allows, Bool.or_eq_true, decide_eq_true_eq] at hl
        refine hl.resolve_left fun hnone => ?_
        rw [Option.isNone_iff_eq_none.mp hnone] at hm
        cases hm
      · exact hi d hd hm
    | @progress c c' db' now hc ha =>
      intro d hd hm
      rcases mem_cons.mp hd with rfl | hd
      · have hc' := advance_event ha hm
        rw [(advance_message ha hc').2]
        exact hi c hc hc'
      · exact hi d (mem_of_mem_erase hd) hm
    | finish | drop => exact fun d hd => hi d (mem_of_mem_erase hd)
    | admin op => exact hi
  | _ => exact hi

/-- Events under way outside the session are other relays'. -/
theorem SiteStep.foreign (hi : s.Inv id) (h : SiteStep hash src trimSpace id s l s') :
    ∀ c ∈ s'.world.api.calls, c.message?.isSome = true → c.relayId ≠ id := by
  cases h with
  | world hl hw => exact foreign_step hl hw hi.foreign
  | data | report | permit | retry | terminate | read | create | edit => exact hi.foreign

theorem SiteStep.tables (hi : s.Inv id) (h : SiteStep hash src trimSpace id s l s') :
    Relay.Pairing s'.data ∧ Relay.Accepted s'.data := by
  cases h with
  | @world l w' hl hw =>
    show Relay.Pairing (s.dataAfter l) ∧ Relay.Accepted (s.dataAfter l)
    unfold Site.dataAfter
    split
    · exact ⟨hi.pairing, hi.accepted⟩
    · exact ⟨Relay.pairing_start _, Relay.accepted_start _⟩
    · exact ⟨hi.pairing, hi.accepted⟩
  | data hproc hl hd => exact ⟨hi.pairing.wss hd, hi.accepted.wss hd⟩
  | read wall available hproc hc hd => exact ⟨hi.pairing.wss hd, hi.accepted.wss hd⟩
  | report now fault hp hh hr hd => exact ⟨hi.pairing.data hd, hi.accepted.data hd⟩
  | permit | retry | terminate | create | edit => exact ⟨hi.pairing, hi.accepted⟩

/-- Permits are written for requests. -/
theorem SiteStep.written (hi : s.Inv id) (h : SiteStep hash src trimSpace id s l s') :
    ∀ c ∈ s'.commands, c.action = "permit" → c ∈ s'.requests := by
  cases h with
  | permit =>
    intro c hc hpermit
    rcases mem_cons.mp hc with rfl | hc
    · exact .head _
    · exact .tail _ (hi.written c hc hpermit)
  | retry hmem =>
    intro c hc hpermit
    rcases mem_cons.mp hc with rfl | hc
    · exact hmem
    · exact hi.written c hc hpermit
  | terminate hterminate =>
    intro c hc hpermit
    rcases mem_cons.mp hc with rfl | hc
    · rw [hterminate] at hpermit
      exact absurd hpermit (by decide)
    · exact hi.written c hc hpermit
  | read => exact fun c hc => hi.written c (mem_of_mem_erase hc)
  | world | data | report | create | edit => exact hi.written

theorem SiteStep.pledged (hi : s.Inv id) (hw : s.world.Reached hash src id)
    (h : SiteStep hash src trimSpace id s l s') (u : String) :
    s'.pledges u ≤ (s'.db.owner u).isSome.toNat := by
  have hle := hi.pledged u
  rcases pledges_step hi.pairing hi.accepted hi.written h u with hstep | ⟨hstep, hnone, hsome⟩
  · have hmono : (s.db.owner u).isSome.toNat ≤ (s'.db.owner u).isSome.toNat := by
      refine Bool.toNat_le_toNat fun hs => ?_
      obtain ⟨o, ho⟩ := Option.isSome_iff_exists.mp hs
      rcases h.world_step with he | ⟨l', hst⟩
      · unfold Site.db
        rw [he]
        exact hs
      · have hlater := (step_db (db_reached hw) hst).2.owner u o ho
        unfold Site.db
        rw [hlater]
        rfl
    exact Nat.le_trans hstep (Nat.le_trans hle hmono)
  · rw [hnone] at hle
    rw [hsome]
    exact Nat.le_trans hstep (Nat.succ_le_succ hle)

theorem Site.Inv.step (hw : s.world.Reached hash src id) (hi : s.Inv id)
    (h : SiteStep hash src trimSpace id s l s') : s'.Inv id := by
  obtain ⟨hlived, hlive⟩ := h.lives hi hw
  have hkept : ∀ p ∈ s.world.uplink, p.message.status = "closed" →
      ∃ f ∈ s'.world.relay.recorded, lifecycleMessage f = p.message ∧
        s'.world.relay.All (Settled f) := by
    intro p hp hc
    obtain ⟨f, hf, hm, hs⟩ := hi.settled p hp hc
    have hclosed : f.status = "closed" := (congrArg Api.Message.status hm).trans hc
    obtain ⟨hf', hs'⟩ := h.settled hi hf hclosed hs
    exact ⟨f, hf', hm, hs'⟩
  refine ⟨(h.tables hi).1, (h.tables hi).2, h.written hi, h.pledged hi hw, hlived, hlive,
    fun p hp hc => ?_, fun u st e generation hrec hown => ?_, h.foreign hi⟩
  · rcases h.uplink with he | ⟨fault, hsend⟩
    · exact hkept p (he ▸ hp) hc
    · obtain ⟨session, f, o, rest, hup, hf, hproc, hh, hq⟩ := send_front hw hsend
      rw [hup] at hp
      rcases mem_cons.mp hp with rfl | hp
      · -- the closing event that is handed out settles its pair
        have hr := relay_reached (hw.run (.single hsend))
        exact ⟨f, hf, rfl, settled_front hr hlive hproc hh hq hc⟩
      · exact hkept p hp hc
  · obtain ⟨p, hp, hrest⟩ := hi.traces hw h hrec hown
    refine ⟨p, ?_, hrest⟩
    rcases h.uplink with he | ⟨fault, hsend⟩
    · exact he ▸ hp
    · obtain ⟨session, f, o, rest, hup, -⟩ := send_front hw hsend
      rw [hup]
      exact .tail _ hp

theorem Site.inv_start (src : UuidSource) (id : String) : Site.start.Inv id where
  pairing := Relay.pairing_start []
  accepted := Relay.accepted_start []
  written _ h := by cases h
  pledged _ := Nat.le_refl 0
  lived := ⟨nofun, nofun⟩
  live := (init_start src).all ⟨nofun, nofun, nofun, nofun⟩
  settled _ h := by cases h
  traced _ _ _ _ h := by cases h
  foreign _ h := by cases h

theorem Site.inv_of_reached (h : s.Reached hash src trimSpace id) : s.Inv id := by
  obtain ⟨s₀, ls, rfl, hrun⟩ := h
  refine hrun.invariant_of (J := fun s => s.Reached hash src trimSpace id)
    (fun s l s' hs hst => hs.run (.single hst))
    (fun s l s' hs hi hst => hi.step (Site.world_reached hs) hst) ⟨_, [], rfl, .nil _⟩
    (Site.inv_start src id)

/-! ## What the database expects -/

/-- A pair is reported once. -/
theorem Site.Inv.opens_unique (hi : s.Inv id) {a b : Event} (ha : a ∈ s.world.relay.recorded)
    (hb : b ∈ s.world.relay.recorded) (hoa : a.Opens u) (hob : b.Opens u) : a = b := by
  have hle : (s.world.relay.recorded.filter (·.Opens u)).length ≤ 1 := by
    have hpledged := hi.pledged u
    have hone := Bool.toNat_le (s.db.owner u).isSome
    rw [← countP_eq_length_filter]
    unfold Site.pledges at hpledged
    omega
  have hma : a ∈ s.world.relay.recorded.filter (·.Opens u) :=
    mem_filter.mpr ⟨ha, decide_eq_true hoa⟩
  have hmb : b ∈ s.world.relay.recorded.filter (·.Opens u) :=
    mem_filter.mpr ⟨hb, decide_eq_true hob⟩
  cases hl : s.world.relay.recorded.filter (·.Opens u) with
  | nil => rw [hl] at hma; cases hma
  | cons x rest =>
    obtain rfl : rest = [] := by
      rw [hl, length_cons] at hle
      exact length_eq_zero_iff.mp (by omega)
    rw [hl] at hma hmb
    rw [mem_singleton.mp hma, mem_singleton.mp hmb]

theorem status_eq {m m' : Api.Message} (h : m.lifecycle? = some st) (h' : m'.lifecycle? = some st) :
    m.status = m'.status := by
  rcases lifecycle?_status h with ⟨hs, rfl⟩ | ⟨hs, rfl⟩ <;>
    rcases lifecycle?_status h' with ⟨hs', h''⟩ | ⟨hs', h''⟩
  · rw [hs, hs']
  · cases h''
  · cases h''
  · rw [hs, hs']

/-- An event that was received from the relay is one it recorded and sent. -/
theorem Site.Inv.received (hi : s.Inv id) (hw : s.world.Reached hash src id)
    (hrec : s.db.recorded u st = some e) (hown : s.db.owner u = some (id, generation)) :
    ∃ f ∈ s.world.relay.recorded, f.id = e ∧ f.uuid = u ∧
      (lifecycleMessage f).lifecycle? = some st ∧ NoneEarlier f s.world.relay ∧
      (f.status = "closed" → s.world.relay.All (Settled f)) := by
  obtain ⟨p, hp, hst, hu, he⟩ := hi.traced u st e generation hrec hown
  obtain ⟨f, hf, hm, hn⟩ := (chain_of_reached hw).sent p hp
  refine ⟨f, hf, ?_, ?_, by rw [hm]; exact hst, hn, fun hc => ?_⟩
  · exact (congrArg Api.Message.requestId hm).trans he
  · exact (congrArg Api.Message.uuid hm).trans hu
  · obtain ⟨f', hf', hm', hs⟩ := hi.settled p hp ((congrArg Api.Message.status hm).symm.trans hc)
    obtain rfl := (unrepeated_of_reached (relay_reached hw)).eq_of_id hf hf'
      (congrArg Api.Message.requestId (hm.trans hm'.symm))
    exact hs

/-- **The database expects every event that is queued**, if the UUID was authorised to the relay. -/
theorem Site.Inv.expected (hi : s.Inv id) (hw : s.world.Reached hash src id) {v : Snapshot}
    (hv : v ∈ s.world.relay.views) {e : Event} (he : e ∈ v.events)
    (hst : (lifecycleMessage e).lifecycle? = some st)
    (hown : s.db.owner e.uuid = some (id, generation)) :
    s.db.Expected id (lifecycleMessage e) st := by
  have hdb := db_reached hw
  have herec : e ∈ s.world.relay.recorded := (inOrder_of_reached (relay_reached hw) v hv).subset he
  refine ⟨fun eventId hrec => ?_, fun r hr => ?_, fun hclosed => ?_⟩
  · -- of the events for one status only one is ever sent
    obtain ⟨f, hf, rfl, hu, hstf, -, hsettled⟩ := hi.received hw hrec hown
    have hstatus : f.status = e.status := status_eq hstf hst
    rcases lifecycle?_status hst with ⟨hs, -⟩ | ⟨hs, -⟩
    · rw [hi.opens_unique hf herec ⟨rfl, hstatus.trans hs⟩ ⟨hu.symm, hs⟩]
      rfl
    · have hall := hsettled (hstatus.trans hs) v hv
      rw [hall.2 e he ⟨hu.symm, hs⟩]
      rfl
  · obtain ⟨hmem, hkey⟩ := Table.get?_eq_some.mp hr
    obtain ⟨-, a, ha, hrelay, hgen⟩ := hdb.receipted r hmem
    have hrec : s.db.recorded r.uuid r.state = some r.eventId := by
      rw [Site.db, Db.recorded, hdb.receiptFor_of_mem hmem]
    have howner : s.db.owner r.uuid = some (id, a.generation) := by
      rw [Site.db, Db.owner, ha]
      exact congrArg some (Prod.ext (hrelay.trans (Prod.mk.inj hkey).1) rfl)
    obtain ⟨f, hf, hid, hu, hstf, -, -⟩ := hi.received hw hrec howner
    obtain rfl := (unrepeated_of_reached (relay_reached hw)).eq_of_id hf herec
      (hid.trans (Prod.mk.inj hkey).2)
    exact ⟨hu.symm, Option.some.inj (hstf.symm.trans hst)⟩
  · obtain ⟨eventId, hrec⟩ := hdb.recorded_closed hclosed
    obtain ⟨f, hf, -, hu, hstf, hnone, -⟩ := hi.received hw hrec hown
    rcases lifecycle?_status hst with ⟨hs, -⟩ | ⟨-, hst'⟩
    · -- the closing event was sent: the one that begins the pair is gone from every view
      have hclosing : f.status = "closed" := by
        rcases lifecycle?_status hstf with ⟨-, h⟩ | ⟨h, -⟩
        · cases h
        · exact h
      obtain ⟨a, hopens, hearlier⟩ := hi.lived.begun e.uuid f hf ⟨hu, hclosing⟩
      obtain rfl := hi.opens_unique (hearlier.subset (.head _)) herec hopens ⟨rfl, hs⟩
      exact absurd hearlier (hnone v hv a he)
    · exact hst'

theorem lifecycle_of_recorded {p : Past} (h : Lived p) {e : Event}
    (he : e ∈ p.recorded) (hid : e.id.utf8ByteSize ≤ 64) :
    ∃ st, (lifecycleMessage e).lifecycle? = some st := by
  obtain ⟨hne, hvalid, hstatus⟩ := h.formed e he
  simp only [validUuid, Bool.and_eq_true, decide_eq_true_eq] at hvalid
  unfold Api.Message.lifecycle? lifecycleMessage
  dsimp only
  rw [if_neg (by rintro (h | h | h | h) <;> [exact hne h; omega; omega; omega])]
  rcases hstatus with hs | hs
  · exact ⟨.active, by rw [hs]; rfl⟩
  · exact ⟨.closed, by rw [hs]; rfl⟩

end

/-- **The head of the queue**, in any reachable state: the relay is enabled and presents its current
credential, and the UUID of the event was authorised to it. The event is acknowledged, or
answered to be stale, exactly if the credential was rotated since, or the event was received
before, or the connection record has no relay server or the one of the relay's present address.
Otherwise it stays, whenever it is sent again. -/
theorem head_settled_iff (hash : String → String) (src : UuidSource)
    (trimSpace : String → String) (id : String) {s : Site}
    (h : s.Reached hash src trimSpace id) {o : Outbox} {e : Event}
    (hp : s.world.relay.proc = some o) (he : (s.world.relay.machine o).front = some e)
    -- the text of a UUID has 36 bytes
    (hid : e.id.utf8ByteSize ≤ 64) {token g generation : String}
    (hcur : s.db.currentGeneration hash id token = some g)
    (hown : s.db.owner e.uuid = some (id, generation)) (now : Nat) :
    (s.db.applyRelayEvent hash id token s.address (lifecycleMessage e) now).1.Settles ↔
      generation ≠ g ∨ Receipted id (lifecycleMessage e) s.db ∨ s.db.Fits e.uuid s.address := by
  have hi := Site.inv_of_reached h
  have hw := Site.world_reached h
  have hv := memory_mem_views hp
  have hmem : e ∈ o.snapshot.events := mem_of_mem_head? he
  have hrec : e ∈ s.world.relay.recorded := (inOrder_of_reached (relay_reached hw) _ hv).subset hmem
  obtain ⟨st, hst⟩ := lifecycle_of_recorded hi.lived hrec hid
  have hdb : DbInv s.db := db_reached hw
  rw [settles_iff hdb hst (hi.expected hw hv hmem hst hown) hcur hown now]
  have hreceipted : Receipted id (lifecycleMessage e) s.db ↔
      s.db.recorded e.uuid st = some e.id := by
    constructor
    · rintro ⟨st', -, hst', hr, -⟩
      rw [lifecycle?_ofString? hst] at hst'
      cases hst'
      exact hr
    · exact fun hr => ⟨st, generation, lifecycle?_ofString? hst, hr, hown⟩
  rw [hreceipted]
  rfl

/-! ### A relay that moves

A relay is entered and enrolled, a pair comes about, is reported and received, and ends. Its
closing event is at the head of the queue. Now an administrator edits the relay's host name. -/

def sampleForm : RelayForm := ⟨"relay", "relay.example", 21117, "", true⟩

def movedForm : RelayForm := ⟨"relay", "relay2.example", 21117, "", true⟩

def samplePermit : Relay.Command := ⟨"session-1", "request-1", "conn-0001", "permit", 5000⟩

def closingEvent : Event := ⟨binaryText 2, "conn-0001", "closed", 9, ""⟩

/-- The database with the receipt of the event that reported the pair. -/
def sampleReceived : Db := (sampleCall.advance sampleHash 80 sampleAuthorized).1

/-- The run, with the step in which the pair begins to transfer. -/
theorem sampleSite_run : ∃ (as bs : List SiteLabel) (s₀ s₁ s : Site) (o : Outbox),
    Run (SiteStep sampleHash .binary id "relay-1") .start as s₀ ∧
    SiteStep sampleHash .binary id "relay-1" s₀ (.data .paired) s₁ ∧
    Run (SiteStep sampleHash .binary id "relay-1") s₁ bs s ∧
    s₀.data.running = [] ∧ s₁.data.running.map Relay.Pair.uuid = ["conn-0001"] ∧
    s.world.relay.proc = some o ∧ o.snapshot.events = [closingEvent] ∧ s.db = sampleReceived ∧
    s.address = "relay.example:21117" := by
  have henrolled : Run (SiteStep sampleHash .binary id "relay-1") .start _ _ :=
    .cons (.create (v := sampleForm) rfl rfl) <|
    .cons (.world rfl (.others (.admin (.putEnrollment "relay-1" "once" 100 "gen-1")))) <|
    .single (.world rfl (.others (.admin
      (.consumeEnrollment "relay-1" "once" (sampleHash sampleToken) 50))))
  have hsession := henrolled.trans <|
    .cons (.world rfl (.relay rfl firstOpen_step)) <|
    .cons (.world rfl (.accept (p := ⟨"session-1", sampleToken⟩) rfl not_mem_nil)) <|
    .cons (.world rfl (.hello rfl (.head _))) <|
    .cons (.data rfl rfl (@Relay.WssStep.hello _ "session-1" rfl rfl not_mem_nil)) <|
    .cons (.data rfl rfl (.clear rfl rfl)) <|
    .cons (.data rfl rfl (.clearPermits rfl)) <|
    .single (.data rfl rfl (.clearPending rfl))
  have hpermit := hsession.trans <|
    .cons (.world rfl
      (.others (.begin (c := .authorize "relay-1" sampleToken "conn-0001") trivial))) <|
    .cons (.world rfl (.others (.progress 55 (.head _) rfl))) <|
    .cons (.world rfl (.others (.finish 60 (.head _) rfl))) <|
    .cons (.permit (c := samplePermit) rfl (.head _)) <|
    .cons (.read 0 true rfl (.head _) (.beginPermit rfl rfl rfl)) <|
    .cons (.data rfl rfl (.permitted rfl rfl rfl)) <|
    -- the answer is late: the command comes again and changes nothing
    .cons (.retry (.head _)) <|
    .single (.read 0 true rfl (.head _) (.replay rfl rfl rfl))
  have hreported := hpermit.trans <|
    .cons (.data rfl rfl (.data (.arrive "conn-0001" rfl))) <|
    .cons (.data rfl rfl
      (.data (.admitted (p := ⟨"conn-0001", 30000, 2, 0, 1⟩) rfl (by decide)))) <|
    .cons (.data rfl rfl (.data (.alone rfl rfl))) <|
    .cons (.data rfl rfl (.data (.waits rfl))) <|
    .cons (.data rfl rfl (.data (.arrive "conn-0001" rfl))) <|
    .cons (.data rfl rfl
      (.data (.admitted (p := ⟨"conn-0001", 30000, 1, 0, 1⟩) rfl (by decide)))) <|
    .cons (.data rfl rfl (.data (.met rfl rfl))) <|
    .single (.report 7 .none rfl rfl rfl (.reported rfl))
  refine ⟨_, _, _, _, _, _, hreported, .data rfl rfl (.data (.paired rfl)),
    .cons (.world (l := .send .none) rfl (.send rfl rfl rfl)) <|
    .cons (.world rfl (.read "relay.example:21117" (.head _) rfl)) <|
    .cons (.world rfl (.finish 80 (.head _) rfl rfl rfl)) <|
    .cons (.world (l := .reply _ .none) rfl (.reply rfl (.head _) rfl rfl)) <|
    .cons (.data rfl rfl (.data (.endpoint (.head _)))) <|
    .cons (.data rfl rfl (.data (.released (.head _)))) <|
    .single (.world rfl (.relay rfl (.op (.report "conn-0001" "closed" 9 .none) rfl))),
    rfl, rfl, rfl, rfl, rfl, rfl⟩

theorem sampleClosed_reached : ∃ (s : Site) (o : Outbox),
    s.Reached sampleHash .binary id "relay-1" ∧ s.world.relay.proc = some o ∧
    o.snapshot.events = [closingEvent] ∧ s.db = sampleReceived ∧
    s.address = "relay.example:21117" := by
  obtain ⟨as, bs, s₀, s₁, s, o, has, hpaired, hbs, -, -, hs⟩ := sampleSite_run
  exact ⟨s, o, ⟨_, _, rfl, (has.snoc hpaired).trans hbs⟩, hs⟩

/-- As long as the relay has the address under which the pair was reported, its end is received. -/
theorem closing_event_settles : ∃ (s : Site) (o : Outbox),
    s.Reached sampleHash .binary id "relay-1" ∧ s.world.relay.proc = some o ∧
    (s.world.relay.machine o).front = some closingEvent ∧
    s.db.currentGeneration sampleHash "relay-1" sampleToken = some "gen-1" ∧
    s.db.owner closingEvent.uuid = some ("relay-1", "gen-1") ∧
    (s.db.applyRelayEvent sampleHash "relay-1" sampleToken s.address
      (lifecycleMessage closingEvent) 90).1.Settles := by
  obtain ⟨s, o, hs, hp, hq, hdb, haddress⟩ := sampleClosed_reached
  have hfront : (s.world.relay.machine o).front = some closingEvent := by
    show o.snapshot.events.head? = _
    rw [hq]
    rfl
  have hcur : s.db.currentGeneration sampleHash "relay-1" sampleToken = some "gen-1" := by
    rw [hdb]
    rfl
  have hown : s.db.owner closingEvent.uuid = some ("relay-1", "gen-1") := by
    rw [hdb]
    rfl
  have hfits : s.db.Fits closingEvent.uuid s.address := by
    rw [hdb, haddress]
    intro c hc
    cases hc
    exact .inr rfl
  exact ⟨s, o, hs, hp, hfront, hcur, hown, (head_settled_iff sampleHash .binary id
    "relay-1" hs hp hfront (by decide) hcur hown 90).mpr (.inr (.inr hfits))⟩

/-- After the edit it is refused at any time, and nothing changes: it is refused again. -/
theorem moved_relay_head_refused : ∃ (s : Site) (o : Outbox),
    s.Reached sampleHash .binary id "relay-1" ∧ s.world.relay.proc = some o ∧
    (s.world.relay.machine o).front = some closingEvent ∧
    s.db.currentGeneration sampleHash "relay-1" sampleToken = some "gen-1" ∧
    s.db.owner closingEvent.uuid = some ("relay-1", "gen-1") ∧
    ∀ now, s.db.applyRelayEvent sampleHash "relay-1" sampleToken s.address
      (lifecycleMessage closingEvent) now = (.unauthorized, s.db) := by
  obtain ⟨s, o, hs, hp, hq, hdb, -⟩ := sampleClosed_reached
  have hthere : (s.db.relays.get? "relay-1").isSome = true := by
    rw [hdb]
    rfl
  have hvalid : movedForm.validRelay id = some movedForm := rfl
  have hedit : SiteStep sampleHash .binary id "relay-1" s (.edit movedForm) _ :=
    .edit hthere hvalid
  refine ⟨_, o, hs.run (.single hedit), hp, ?_, ?_, ?_, fun now => ?_⟩
  · show o.snapshot.events.head? = _
    rw [hq]
    rfl
  · show Db.currentGeneration _ _ _ (s.db.setRelayEnabled "relay-1" true) = _
    rw [hdb]
    rfl
  · show Db.owner _ (s.db.setRelayEnabled "relay-1" true) = _
    rw [hdb]
    rfl
  · show Db.applyRelayEvent _ _ _ "relay2.example:21117" _ now
      (s.db.setRelayEnabled "relay-1" true) = (_, s.db.setRelayEnabled "relay-1" true)
    rw [hdb]
    rfl

end RemoteControl.Control
