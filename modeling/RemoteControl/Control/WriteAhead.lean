import RemoteControl.Control.QueueHead
import RemoteControl.Hbbr.OutboxSize

/-!
# Written before it is used

Two things leave the relay only after they are on its disk: an event that it sends to the API, and a
pair of connections that it lets transfer.

> `next_event` hands out the front of a queue that is on the disk as it is in memory;
> `accept_authorized` comes to the transfer only through a report that was written.

A crash can then lose neither. What is recovered depends on one more write: a start has to write the
closing events of the pairs that were active, and these may be too long for the file.
-/

namespace RemoteControl.Control

open Lib List Hbbr

variable {m : Machine} {o : Outbox} {l : Relay.Label} {p : Relay.Pair}
  {w w' : Relay.State} {fault : WriteFault} {s s' : Site} {uuid : String}

section

variable {hash : String → String} {src : UuidSource} {trimSpace : String → String} {id : String}

/-! ## Events -/

theorem taken_on_disk {s : System} {e : Event} (hs : s.Reached src)
    (hp : s.proc = some o) (hn : (s.machine o).nextEvent fault = (.ok (some e), m)) :
    m.toSystem.Reached src ∧ m.disk.Holds m.snapshot ∧ m.snapshot.jsonLen ≤ maxBytes ∧
      m.snapshot.events.head? = some e := by
  have hstep : Hbbr.Step src s (.op (.nextEvent fault)) m.toSystem := by
    obtain rfl : ((s.machine o).nextEvent fault).2 = m := by rw [hn]
    exact .op (.nextEvent fault) hp
  have hreached : m.toSystem.Reached src := hs.next hstep
  obtain ⟨hhealthy, hfront⟩ := nextEvent_ok hn
  exact ⟨hreached, synced_of_reached hreached m.outbox rfl hhealthy,
    (restartable_of_reached hreached m.outbox rfl).2 hhealthy, hfront⟩

/-- The file that a crash leaves is read and accepted. -/
theorem loads_after_crash {s t : System} {a : Action} {drained : List (String × Nat)}
    (hs : s.Reached src) (hp : s.proc = some o) (hdisk : s.disk.Holds o.snapshot)
    (hsize : o.snapshot.jsonLen ≤ maxBytes) (ha : a.isCrash = true)
    (hstep : Hbbr.Step src s a t) (hd : Drains o.snapshot drained) :
    ∃ v draws closing, load src drained t.draws t.disk.json = .ok (v, draws, closing) ∧
      v.events = o.snapshot.events ++ closing := by
  obtain ⟨-, hjson, -⟩ := hdisk.crash ha hstep
  have hmem := memory_mem_views hp
  have hread : readFile (some o.snapshot) = .ok o.snapshot := if_neg (Nat.not_lt.mpr hsize)
  obtain ⟨v, draws, closing, hload⟩ := load_of_openable t.draws hread
    (restartable_of_reached hs o hp).1 (reserved_of_reached hs _ hmem).1
    (freshIds_of_reached hs _ hmem).1 hd
  rw [hjson]
  exact ⟨v, draws, closing, hload, (load_ok hload).events⟩

/-! ## Pairs -/

theorem report_on_disk {m' : Machine} {now : Nat}
    (h : m.report src uuid "active" now fault = (.ok (), m')) :
    m'.disk.Holds m'.snapshot ∧ uuid ∈ m'.snapshot.active ∧
      ⟨src.newV4 m.draws, uuid, "active", now, ""⟩ ∈ m'.snapshot.events := by
  unfold Machine.report at h
  rw [if_pos rfl] at h
  split_ifs at h with hv hh ha hc
  · cases h
  · cases h
  · cases h
  · cases h
  · have hok := flush_ok (by rw [h])
    rw [h] at hok
    obtain rfl : m' = _ := hok
    exact ⟨⟨rfl, rfl⟩, Finset.mem_insert_self _ _, mem_append_right _ (mem_singleton_self _)⟩

/-- The lock is only handed from a report that succeeded to the transfer. -/
theorem reported_before {x : Relay.Admission} {peer : Relay.Pending}
    (hs : Relay.WssStep w l w') (hl : l ≠ .reported)
    (h : w'.holder = some (.reported uuid x peer)) : w.holder = some (.reported uuid x peer) := by
  cases hs with
  | data hs =>
    cases hs with
    | reported => exact absurd rfl hl
    | _ => first | exact h | cases h
  | _ => first | exact h | cases h

theorem running_paired (hs : Relay.WssStep w l w') (h' : p ∈ w'.running) (h : p ∉ w.running) :
    ∃ peer, w.holder = some (.reported p.uuid p.newcomer peer) ∧ p.waiting = peer.admission := by
  cases hs with
  | data hs =>
    cases hs with
    | @paired uuid x peer hh =>
      rcases mem_cons.mp h' with rfl | h'
      · exact ⟨peer, hh, rfl⟩
      · exact absurd h' h
    | endpoint | cancelled => exact absurd (mem_of_mem_erase h') h
    | _ => exact absurd h' h
  | _ => exact absurd h' h

structure Reported (src : UuidSource) (p : Relay.Pair) (u : Site) (l : SiteLabel) : Prop where
  met : ∃ peer, u.data.holder = some (.met p.uuid p.newcomer peer) ∧ p.waiting = peer.admission
  written : ∃ now fault o m, l = .report p.uuid now fault ∧ u.world.relay.proc = some o ∧
    (u.world.relay.machine o).report src p.uuid "active" now fault = (.ok (), m) ∧
    m.disk.Holds m.snapshot ∧ p.uuid ∈ m.snapshot.active ∧
    ⟨src.newV4 u.world.relay.draws, p.uuid, "active", now, ""⟩ ∈ m.snapshot.events

def Site.readyFor (p : Relay.Pair) (s : Site) : Prop :=
  ∃ peer, s.data.holder = some (.reported p.uuid p.newcomer peer) ∧ p.waiting = peer.admission

theorem not_ready_of_free (h : s.data.holder = none) : ¬ s.readyFor p := by
  rintro ⟨peer, hh, -⟩
  rw [h] at hh
  cases hh

theorem readyFor_step {l : SiteLabel} (hs : ¬ s.readyFor p)
    (h : SiteStep hash src trimSpace id s l s') : Reported src p s l ∨ ¬ s'.readyFor p := by
  cases h with
  | @world l w' hl hw =>
    right
    rintro ⟨peer, hh, hpeer⟩
    unfold Site.dataAfter at hh
    split at hh
    · exact hs ⟨peer, hh, hpeer⟩
    · cases hh
    · exact hs ⟨peer, hh, hpeer⟩
  | @data l d' hp hl hd =>
    right
    rintro ⟨peer, hh, hpeer⟩
    refine hs ⟨peer, reported_before hd (fun he => ?_) hh, hpeer⟩
    rw [he] at hl
    cases hl
  | @report o uuid x peer result m d' now fault hp hh hr hd =>
    cases result with
    | error e =>
      right
      cases hd with
      | reportFailed => exact not_ready_of_free rfl
    | ok =>
      by_cases hready : Site.readyFor p
          { s with world := { s.world with relay := m.toSystem }, data := d' }
      · left
        obtain ⟨peer', hh', hpeer⟩ := hready
        cases hd with
        | reported hmet =>
          obtain ⟨rfl, rfl, rfl⟩ := Relay.Holder.reported.inj (Option.some.inj hh')
          rw [hmet] at hh
          obtain ⟨rfl, -, -⟩ := Relay.Holder.met.inj (Option.some.inj hh)
          exact ⟨⟨_, hmet, hpeer⟩, now, fault, o, m, rfl, hp, hr, report_on_disk hr⟩
      · exact .inr hready
  | permit | retry | terminate | create | edit => exact .inr hs
  | @read c d' wall available hp hc hd =>
    right
    rintro ⟨peer, hh, hpeer⟩
    exact hs ⟨peer, reported_before hd nofun hh, hpeer⟩

/-- A pair that begins to transfer was reported before. -/
theorem reported_of_running {as : List SiteLabel} {l : SiteLabel}
    (hrun : Run (SiteStep hash src trimSpace id) .start as s)
    (h : SiteStep hash src trimSpace id s l s') (hp' : p ∈ s'.data.running)
    (hp : p ∉ s.data.running) :
    ∃ u a as₁ as₂, as = as₁ ++ a :: as₂ ∧ Run (SiteStep hash src trimSpace id) .start as₁ u ∧
      Reported src p u a := by
  have hready : s.readyFor p := by
    cases h with
    | @world l w' hl hw =>
      dsimp only at hp'
      unfold Site.dataAfter at hp'
      split at hp'
      · exact absurd hp' hp
      · cases hp'
      · exact absurd hp' hp
    | data hproc hl hd => exact running_paired hd hp' hp
    | report now fault hproc hh hr hd =>
      exact running_paired (.data hd) hp' hp
    | read wall available hproc hc hd => exact running_paired hd hp' hp
    | _ => exact absurd hp' hp
  rcases hrun.until (fun s l s' hs h => readyFor_step hs h) (not_ready_of_free rfl) with h | h
  · exact h
  · exact absurd hready h

end

/-- **Events and pairs are written ahead.** Whenever the relay takes an event, the file is what is in
memory, nothing else can come back, and the event stays at the front of memory and file through
crashes and starts until its answer is taken off. The file a crash leaves right then is accepted, the
event in front; whether the relay starts with it is only a matter of how long the file gets with the
closing events. And a pair begins to transfer only after its report was written. -/
theorem write_ahead_iff (hash : String → String) (src : UuidSource) (trimSpace : String → String)
    (id : String) :
    (∀ {s : System} {o : Outbox} {fault : WriteFault} {m : Machine}
      {e : Event}, s.Reached src → s.proc = some o →
      (s.machine o).nextEvent fault = (.ok (some e), m) →
      m.disk.Holds m.snapshot ∧ m.snapshot.events.head? = some e ∧
      (∀ as u, Run (Hbbr.Step src) m.toSystem as u →
        (∀ op, Action.op op ∈ as → ¬ op.Settles e) →
        ∀ v ∈ u.views, v.events.head? = some e) ∧
      ∀ a t drained, a.isCrash = true → Hbbr.Step src m.toSystem a t →
        Drains m.snapshot drained →
        t.disk.Holds m.snapshot ∧
        ∃ v draws closing, load src drained t.draws t.disk.json = .ok (v, draws, closing) ∧
          v.events = m.snapshot.events ++ closing ∧
          ((∃ u o', Hbbr.Step src t (.openDir drained .none) u ∧ u.proc = some o' ∧
              o'.snapshot.events.head? = some e) ↔ v.jsonLen ≤ maxBytes)) ∧
    ∀ {as : List SiteLabel} {s s' : Site} {l : SiteLabel} {p : Relay.Pair},
      Run (SiteStep hash src trimSpace id) .start as s → SiteStep hash src trimSpace id s l s' →
      p ∈ s'.data.running → p ∉ s.data.running →
      ∃ u a as₁ as₂, as = as₁ ++ a :: as₂ ∧ Run (SiteStep hash src trimSpace id) .start as₁ u ∧
        Reported src p u a := by
  refine ⟨fun {s o fault m e} hs hp hn => ?_, fun hrun h hp' hp => reported_of_running hrun h hp' hp⟩
  obtain ⟨hreached, hdisk, hsize, hfront⟩ := taken_on_disk hs hp hn
  refine ⟨hdisk, hfront, fun as u hrun has => front_kept hrun (fun v hv => ?_) has,
    fun a t drained ha hstep hd => ?_⟩
  · rcases Machine.mem_views.mp hv with rfl | hv
    · exact hfront
    · rw [hdisk.view_eq hv]
      exact hfront
  · obtain ⟨hproc, hholds⟩ := hdisk.crash (s := m.toSystem) ha hstep
    obtain ⟨v, draws, closing, hload, hevents⟩ :=
      loads_after_crash (o := m.outbox) hreached rfl hdisk hsize ha hstep hd
    have hfile : t.disk.file = m.snapshot := by
      unfold Disk.file
      rw [hholds.1]
      rfl
    have hhead : v.events.head? = some e := by
      rw [hevents]
      exact head?_append_of hfront
    exact ⟨hholds, v, draws, closing, hload, hevents, opened_iff
      (P := fun w => w.events.head? = some e) hproc (hfile ▸ hd) hload hhead⟩

/-- The first pair: its event is taken, the relay stops, and the event is there again. And a site on
which the pair was written before it began. -/
theorem write_ahead_first_pair :
    (∃ o m t u o', System.firstPair.proc = some o ∧
      (System.firstPair.machine o).nextEvent .none
        = (.ok (some ⟨binaryText 1, "pair-0001", "active", 7, ""⟩), m) ∧
      Hbbr.Step .binary m.toSystem .kill t ∧
      Hbbr.Step .binary t (.openDir [("pair-0001", 9)] .none) u ∧ u.proc = some o' ∧
      o'.snapshot.events.head? = some ⟨binaryText 1, "pair-0001", "active", 7, ""⟩) ∧
    ∃ (as : List SiteLabel) (s u : Site) (p : Relay.Pair) (a : SiteLabel),
      Run (SiteStep Api.sampleHash .binary id "relay-1") .start as s ∧
      p ∈ s.data.running ∧ p.uuid = "conn-0001" ∧ a ∈ as ∧ Reported .binary p u a := by
  have hwrite := write_ahead_iff Api.sampleHash .binary id "relay-1"
  constructor
  · obtain ⟨-, -, -, hcrash⟩ := hwrite.1 firstPair_reached rfl
      (show Machine.nextEvent .none _ = _ from rfl)
    obtain ⟨-, v, draws, closing, hload, -, hiff⟩ :=
      hcrash .kill _ [("pair-0001", 9)] rfl .kill ⟨by decide, by decide⟩
    obtain ⟨u, o', hopen, hproc, hhead⟩ := hiff.mpr (by cases hload; decide)
    exact ⟨_, _, _, u, o', rfl, rfl, .kill, hopen, hproc, hhead⟩
  · obtain ⟨as, bs, s₀, s₁, s, o, has, hpaired, -, hnone, huuid, -⟩ := sampleSite_run
    obtain ⟨p, hp, hpu⟩ : ∃ p ∈ s₁.data.running, p.uuid = "conn-0001" := by
      refine mem_map.mp ?_
      rw [huuid]
      exact mem_singleton_self _
    have hnew : p ∉ s₀.data.running := by
      rw [hnone]
      exact not_mem_nil
    obtain ⟨u, a, as₁, as₂, hsplit, -, hrep⟩ := hwrite.2 has hpaired hp hnew
    have hmem : a ∈ as := by
      rw [hsplit]
      exact mem_append_right _ mem_cons_self
    exact ⟨_, s₁, u, p, a, has.snoc hpaired, hp, hpu, mem_append_left _ hmem, hrep⟩

/-- The relay with 1250 pairs takes the first event and stops. It never starts again, and the event
is not sent again. -/
theorem taken_event_not_recovered : ∃ (s t : System) (o : Outbox) (m : Machine),
    s.Reached .binary ∧ s.proc = some o ∧
    (s.machine o).nextEvent .none = (.ok (some (controlEvent 0)), m) ∧
    Hbbr.Step .binary m.toSystem .kill t ∧
    ∀ as u, Run (Hbbr.Step .binary) t as u → u.proc = none := by
  have hrun := manyPairs_run (Nat.le_refl 1250)
  have hfront : (manyPairs 1250).events.head? = some (controlEvent 0) := by
    rw [manyPairs, List.head?_map, List.head?_range]
    rfl
  refine ⟨.manyPairs 1250, _, ⟨manyPairs 1250, true⟩,
    (System.manyPairs 1250).machine ⟨manyPairs 1250, true⟩,
    ⟨_, _, init_start _, hrun⟩, rfl, ?_, .kill, fun as u h => ?_⟩
  · rw [← hfront]
    rfl
  · have hlocked : LockedOut u := h.invariant (fun _ _ _ h hs => h.step hs) ⟨rfl, rfl, rfl⟩
    exact hlocked.proc

end RemoteControl.Control
