import RemoteControl.Hbbr.OutboxOpening
import RemoteControl.Hbbr.OutboxOrder

/-!
# What is recorded of a pair

A pair is reported active once and closed once, but a crash may have it closed twice: the
closing event is in memory only when the process dies, and the next start drains the pair
from the file and records another. Of the two at most one is ever handed out.

> In the queue that a closing event is handed out from, its pair is not active any more, and
> no other event closes it. From then on this is so in every view.

All of it rests on a UUID being reported active once (`FirstReport`), which the outbox itself
does not check: it only refuses a UUID that is active at the moment.
-/

namespace RemoteControl.Hbbr

open Lib List

variable {d e f : Event} {new : List Event} {p q : Past} {v w : Snapshot} {u : String}

/-- The event begins the pair of this UUID. -/
def Event.Opens (uuid : String) (e : Event) : Prop := e.uuid = uuid ∧ e.status = "active"

/-- The event ends the pair of this UUID. -/
def Event.Closes (uuid : String) (e : Event) : Prop := e.uuid = uuid ∧ e.status = "closed"

instance (uuid : String) (e : Event) : Decidable (e.Opens uuid) :=
  inferInstanceAs (Decidable (_ ∧ _))

/-- What the outbox ever recorded. -/
structure Lived (p : Past) : Prop where
  formed : ∀ d ∈ p.recorded, d.id ≠ "" ∧ validUuid d.uuid = true ∧
    (d.status = "active" ∨ d.status = "closed")
  -- no end without a beginning
  begun : ∀ u, ∀ d ∈ p.recorded, d.Closes u → ∃ a, a.Opens u ∧ Earlier p a d

/-- What a snapshot says of its pairs. -/
structure Live (p : Past) (v : Snapshot) : Prop where
  valid : ∀ u ∈ v.active, validUuid u = true
  begun : ∀ u ∈ v.active, ∃ a ∈ p.recorded, a.Opens u
  unclosed : ∀ u ∈ v.active, ∀ d ∈ v.events, ¬ d.Closes u
  once : ∀ u, ∀ d ∈ v.events, ∀ d' ∈ v.events, d.Closes u → d'.Closes u → d = d'

def Action.Reports (uuid : String) (a : Action) : Prop :=
  ∃ now fault, a = .op (.report uuid "active" now fault)

/-- The action does not report a UUID active that was reported before. -/
def FirstReport (s : System) (a : Action) : Prop := ∀ u, a.Reports u → ∀ d ∈ s.recorded, ¬ d.Opens u

theorem Live.mono (h : Live p v) (hpq : p.recorded <+: q.recorded) : Live q v where
  valid := h.valid
  begun u hu := by
    obtain ⟨a, ha, ho⟩ := h.begun u hu
    exact ⟨a, hpq.subset ha, ho⟩
  unclosed := h.unclosed
  once := h.once

theorem Earlier.mono (h : Earlier p d f) (hpq : p.recorded <+: q.recorded) : Earlier q d f :=
  List.Sublist.trans h hpq.sublist

theorem Lived.same (h : Lived p) (hq : q.recorded = p.recorded) : Lived q where
  formed := by rw [hq]; exact h.formed
  begun := by unfold Earlier; rw [hq]; exact h.begun

/-! ## The steps -/

theorem not_closes_active (h : e.status = "active") : ¬ e.Closes u := by
  rintro ⟨-, hc⟩
  rw [h] at hc
  exact absurd hc (by decide)

/-- The events `new` are recorded and queued, at most one of a pair: each ends its pair, or
begins one that `B` allows. -/
structure Turns (src : UuidSource) (B : String → Prop) (p : Past) (v : Snapshot) (q : Past)
    (w : Snapshot) (new : List Event) : Prop where
  records : Records src p q new
  events : w.events = v.events ++ new
  nodup : (new.map Event.uuid).Nodup
  kept : ∀ u, u ∉ new.map Event.uuid → (u ∈ w.active ↔ u ∈ v.active)
  turned : ∀ e ∈ new, B e.uuid ∧ validUuid e.uuid = true ∧
      e.uuid ∉ v.active ∧ e.uuid ∈ w.active ∧ e.status = "active" ∨
    e.uuid ∈ v.active ∧ e.uuid ∉ w.active ∧ e.status = "closed"

section

variable {src : UuidSource} {m m' : Machine} {op : Op} {B : String → Prop}

/-- **What a change does to the pairs**: one begins or ends, or the front of the queue is settled. -/
theorem change_turns (h : Change src m op m') :
    (∃ new, Turns src (Action.Reports · (.op op)) m.past m.snapshot m'.past m'.snapshot new) ∨
    ∃ front, op.Settles front ∧ m.snapshot.events = front :: m'.snapshot.events ∧
      m'.snapshot.active = m.snapshot.active ∧ m'.recorded = m.recorded := by
  cases h with
  | @admitPair uuid now fault hv hh ha hcap =>
    refine .inl ⟨_, .one rfl rfl rfl, rfl, nodup_singleton _, fun u hu => ?_, fun e he => ?_⟩
    · have hne := mt mem_singleton.mpr hu
      exact Finset.mem_insert.trans (or_iff_right hne)
    · rw [mem_singleton.mp he]
      exact .inl ⟨⟨now, fault, rfl⟩, hv, ha, Finset.mem_insert_self _ _, rfl⟩
  | close ha =>
    refine .inl ⟨_, .one rfl rfl rfl, rfl, nodup_singleton _, fun u hu => ?_, fun e he => ?_⟩
    · have hne := mt mem_singleton.mpr hu
      exact Finset.mem_erase.trans (and_iff_right hne)
    · rw [mem_singleton.mp he]
      exact .inr ⟨ha, Finset.notMem_erase _ _, rfl⟩
  | acknowledge he | quarantine he => exact .inr ⟨_, ⟨rfl, rfl, rfl⟩, he, rfl, rfl⟩
  | archive =>
    exact .inl ⟨[], .none rfl (Nat.le_succ _), (append_nil _).symm, nodup_nil,
      fun _ _ => Iff.rfl, nofun⟩

/-- A start ends every pair that was active in the file. -/
theorem Loads.turns {drained : List (String × Nat)} {draws : Nat} {file : Snapshot}
    {closing : List Event} (hd : Drains file drained)
    (h : Loads src drained p.draws file v draws closing) :
    Turns src B p file ⟨draws, p.recorded ++ closing, p.backups⟩ v closing := by
  obtain ⟨first, -, hc, -⟩ := h.draw
  have huuid : closing.map Event.uuid = drained.map Prod.fst := by rw [hc, drainActive_uuid]
  refine ⟨h.records, h.events, by rw [huuid]; exact hd.1, fun u hu => ?_, fun e he => .inr ?_⟩
  · rw [huuid, ← mem_toFinset, hd.2] at hu
    rw [h.active]
    exact iff_of_false (Finset.notMem_empty u) hu
  · rw [hc] at he
    obtain ⟨k, x, -, -, hx, rfl⟩ := mem_drainActive he
    rw [h.active]
    exact ⟨hd.mem_active hx, Finset.notMem_empty _, rfl⟩

theorem Turns.closes (h : Turns src B p v q w new) (hd : d ∈ new) (hc : d.Closes u) :
    u ∈ v.active ∧ u ∉ w.active := by
  obtain ⟨rfl, hc⟩ := hc
  rcases h.turned d hd with ⟨-, -, -, -, hs⟩ | ⟨hv, hw, -⟩
  · exact absurd ⟨rfl, hc⟩ (not_closes_active hs)
  · exact ⟨hv, hw⟩

theorem Turns.active (h : Turns src B p v q w new) (hu : u ∈ w.active) :
    u ∈ v.active ∨ B u ∧ validUuid u = true ∧ ∃ e ∈ new, e.Opens u := by
  by_cases hn : u ∈ new.map Event.uuid
  · obtain ⟨e, he, rfl⟩ := mem_map.mp hn
    rcases h.turned e he with ⟨hB, hv, -, -, hs⟩ | ⟨-, hw, -⟩
    · exact .inr ⟨hB, hv, e, he, rfl, hs⟩
    · exact absurd hu hw
  · exact .inl ((h.kept u hn).mp hu)

theorem Lived.turn (hl : Lived p) (h : Live p v) (ht : Turns src B p v q w new) : Lived q := by
  have hrec := ht.records.recorded
  refine ⟨fun d hd => ?_, fun u d hd hc => ?_⟩ <;> rw [hrec] at hd <;>
    rcases mem_append.mp hd with hd | hd
  · exact hl.formed d hd
  · have hid : d.id ≠ "" := by
      obtain ⟨ks, -, hids, -⟩ := ht.records.drawn
      obtain ⟨k, -, hk⟩ := mem_map.mp (hids ▸ mem_map_of_mem hd)
      exact hk ▸ src.newV4_ne_empty k
    rcases ht.turned d hd with ⟨-, hv, -, -, hs⟩ | ⟨hv, -, hs⟩
    · exact ⟨hid, hv, .inl hs⟩
    · exact ⟨hid, h.valid _ hv, .inr hs⟩
  · obtain ⟨a, ho, he⟩ := hl.begun u d hd hc
    exact ⟨a, ho, he.mono (hrec ▸ prefix_append _ _)⟩
  · obtain ⟨a, ha, ho⟩ := h.begun u (ht.closes hd hc).1
    refine ⟨a, ho, ?_⟩
    rw [Earlier, hrec]
    exact (singleton_sublist.mpr ha).append (singleton_sublist.mpr hd)

/-- A pair that begins was never ended: it begins for the first time. -/
theorem Live.turn (hl : Lived p) (h : Live p v) (hsub : ∀ d ∈ v.events, d ∈ p.recorded)
    (ht : Turns src B p v q w new) (hfirst : ∀ u, B u → ∀ d ∈ p.recorded, ¬ d.Opens u) :
    Live q w := by
  have hrec := ht.records.recorded
  refine ⟨fun u hu => ?_, fun u hu => ?_, fun u hu d hd hc => ?_, fun u d hd d' hd' hc hc' => ?_⟩
  · exact (ht.active hu).elim (h.valid u) fun hnew => hnew.2.1
  · rw [hrec]
    rcases ht.active hu with hu | ⟨-, -, e, he, ho⟩
    · obtain ⟨a, ha, ho⟩ := h.begun u hu
      exact ⟨a, mem_append_left _ ha, ho⟩
    · exact ⟨e, mem_append_right _ he, ho⟩
  · rw [ht.events] at hd
    rcases mem_append.mp hd with hd | hd
    · rcases ht.active hu with hu | ⟨hB, -⟩
      · exact h.unclosed u hu d hd hc
      · obtain ⟨a, ho, hearlier⟩ := hl.begun _ d (hsub d hd) hc
        exact hfirst u hB a (hearlier.subset (.head _)) ho
    · exact (ht.closes hd hc).2 hu
  · rw [ht.events] at hd hd'
    rcases mem_append.mp hd with hd | hd <;> rcases mem_append.mp hd' with hd' | hd'
    · exact h.once u d hd d' hd' hc hc'
    · exact absurd hc (h.unclosed u (ht.closes hd' hc').1 d hd)
    · exact absurd hc' (h.unclosed u (ht.closes hd hc).1 d' hd')
    · exact inj_on_of_nodup_map ht.nodup hd hd' (hc.1.trans hc'.1.symm)

end

def ofPair (u : String) (es : List Event) : List Event := es.filter (·.uuid = u)

theorem ofPair_cases (h : (new.map Event.uuid).Nodup) (u : String) :
    u ∉ new.map Event.uuid ∧ ofPair u new = [] ∨ ∃ e ∈ new, e.uuid = u ∧ ofPair u new = [e] := by
  by_cases hu : u ∈ new.map Event.uuid
  · right
    obtain ⟨e, he, rfl⟩ := mem_map.mp hu
    refine ⟨e, he, rfl, ?_⟩
    have hcongr : ofPair e.uuid new = new.filter (· = e) := filter_congr fun d hd => by
      simp only [decide_eq_decide]
      exact ⟨fun heq => inj_on_of_nodup_map h hd he heq, fun heq => by rw [heq]⟩
    rw [hcongr, filter_eq, count_eq_one_of_mem (List.Nodup.of_map _ h) he]
    rfl
  · refine .inl ⟨hu, filter_eq_nil_iff.mpr fun d hd heq => hu ?_⟩
    exact mem_map.mpr ⟨d, hd, by simpa using heq⟩

section

variable {src : UuidSource} {s s' : System} {a : Action}

theorem Made.turns (h : Made src s a s' v) : ∃ w ∈ s.views,
    (∃ new, Turns src (Action.Reports · a) s.past w s'.past v new) ∨
    (∃ front, w.events = front :: v.events) ∧ v.active = w.active ∧ s'.recorded = s.recorded := by
  cases h with
  | @change o op m' hp ha hc hpast =>
    refine ⟨_, memory_mem_views hp, ?_⟩
    rw [show s'.recorded = m'.recorded from congrArg Past.recorded hpast, hpast, ha]
    exact (change_turns hc).imp id fun ⟨front, _, he, hrest⟩ => ⟨⟨front, he⟩, hrest⟩
  | @load drained v draws closing hd hl hpast =>
    exact ⟨_, file_mem_views s, .inl ⟨closing, hpast ▸ hl.turns (p := s.past) hd⟩⟩

/-- What a step makes: the snapshot it makes, and what is past with it. -/
theorem Made.lives (h : Made src s a s' v) (hl : Lived s.past) (hs : s.All Live)
    (hsub : ∀ w ∈ s.views, ∀ d ∈ w.events, d ∈ s.recorded) (hfirst : FirstReport s a) :
    Lived s'.past ∧ Live s'.past v := by
  obtain ⟨w, hw, ⟨new, ht⟩ | ⟨⟨front, he⟩, hactive, hrec⟩⟩ := h.turns
  · exact ⟨hl.turn (hs w hw) ht, (hs w hw).turn hl (hsub w hw) ht hfirst⟩
  · have hold := hs w hw
    have hmem : ∀ d ∈ v.events, d ∈ w.events := fun d hd => he ▸ .tail _ hd
    have hrec' : s'.past.recorded = s.past.recorded := hrec
    refine ⟨hl.same hrec, ?_, ?_, ?_, fun u d hd d' hd' => hold.once u d (hmem d hd) d' (hmem d' hd')⟩
    all_goals rw [hactive]
    · exact hold.valid
    · rw [hrec']
      exact hold.begun
    · exact fun u hu d hd => hold.unclosed u hu d (hmem d hd)

/-- A step that records something makes a snapshot. -/
theorem step_recorded (h : Step src s a s') :
    s'.recorded = s.recorded ∨ ∃ v, Made src s a s' v :=
  (step_views h).imp (fun h => h.1.2.2) fun ⟨v, hmade, _⟩ => ⟨v, hmade⟩

/-- Only a report adds an event that begins a pair. -/
theorem step_opens (h : Step src s a s') (u : String) :
    s'.recorded.countP (·.Opens u) = s.recorded.countP (·.Opens u) ∨
      a.Reports u ∧ s'.recorded.countP (·.Opens u) = s.recorded.countP (·.Opens u) + 1 := by
  rcases step_recorded h with he | ⟨v, hmade⟩
  · exact .inl (by rw [he])
  obtain ⟨w, -, ⟨new, ht⟩ | ⟨-, -, hrec⟩⟩ := hmade.turns
  · have hsum : s'.recorded.countP (·.Opens u)
        = s.recorded.countP (·.Opens u) + (ofPair u new).countP (·.status = "active") := by
      rw [show s'.recorded = _ from ht.records.recorded, countP_append, ofPair, countP_filter]
      refine congrArg _ (countP_congr fun d _ => ?_)
      simp only [decide_eq_true_eq, Bool.and_eq_true]
      exact and_comm
    rw [hsum]
    rcases ofPair_cases ht.nodup u with ⟨-, hnone⟩ | ⟨e, he, rfl, hone⟩
    · exact .inl (by rw [hnone]; rfl)
    rw [hone]
    rcases ht.turned e he with ⟨hB, -, -, -, hs⟩ | ⟨-, -, hs⟩
    · exact .inr ⟨hB, by simp [hs]⟩
    · exact .inl (by simp [hs])
  · exact .inl (by rw [hrec])

/-- **The step lemma**: as long as no UUID is reported active twice, what is recorded of a pair
stays in order, in every view. -/
theorem lives_step (hr : s.Reached src) (h : Step src s a s') (hfirst : FirstReport s a)
    (hl : Lived s.past) (hs : s.All Live) : Lived s'.past ∧ s'.All Live := by
  have hsub : ∀ w ∈ s.views, ∀ d ∈ w.events, d ∈ s.recorded := fun w hw d hd =>
    (inOrder_of_reached hr w hw).subset hd
  have hold : ∀ v ∈ s.views, Live s'.past v := fun v hv => (hs v hv).mono (step_past h).recorded
  refine ⟨?_, fun v hv => ?_⟩
  · rcases step_recorded h with he | ⟨v, hmade⟩
    · exact hl.same he
    · exact (hmade.lives hl hs hsub hfirst).1
  · rcases step_views h with ⟨-, hviews⟩ | ⟨v₀, hmade, hviews⟩
    · exact hold v (hviews v hv)
    · rcases hviews v hv with rfl | hv
      · exact (hmade.lives hl hs hsub hfirst).2
      · exact hold v hv

/-! ## A pair that is over -/

/-- No view has the pair of `f` active, and none has another event that ends it. -/
def Settled (f : Event) (_ : Past) (v : Snapshot) : Prop :=
  f.uuid ∉ v.active ∧ ∀ d ∈ v.events, d.Closes f.uuid → d = f

/-- Reporting the pair active again. -/
def Reopens (f : Event) (_ : Snapshot) (op : Op) : Prop :=
  ∃ now fault, op = .report f.uuid "active" now fault

theorem Settled.turn {B : String → Prop} (h : Settled f p v) (hB : ¬ B f.uuid)
    (ht : Turns src B p v q w new) : Settled f q w := by
  refine ⟨fun hu => (ht.active hu).elim h.1 fun hnew => hB hnew.1, fun d hd hc => ?_⟩
  rw [ht.events] at hd
  rcases mem_append.mp hd with hd | hd
  · exact h.2 d hd hc
  · exact absurd (ht.closes hd hc).1 h.1

theorem settled_invariant (src : UuidSource) (f : Event) :
    ViewInvariant src (Reopens f) (Settled f) where
  mono _ h := h
  change {m m' op} h hB hc := by
    rcases change_turns hc with ⟨new, ht⟩ | ⟨front, -, he, hactive, -⟩
    · exact h.turn (fun ⟨now, fault, hop⟩ => hB ⟨now, fault, Action.op.inj hop⟩) ht
    · exact ⟨by rw [hactive]; exact h.1, fun d hd => h.2 d (by rw [he]; exact .tail _ hd)⟩
  load h hd hl := h.turn (B := fun _ => False) id (hl.turns hd)

/-- The event that is handed out settles its pair: memory is on the disk, so there is one
view, and it holds the event. -/
theorem settled_front {o : Outbox} {rest : List Event} (hr : s.Reached src) (hs : s.All Live)
    (hp : s.proc = some o) (hh : o.healthy = true) (hq : o.snapshot.events = f :: rest)
    (hc : f.status = "closed") : s.All (Settled f) := by
  intro v hv
  obtain rfl := view_of_healthy hr hp hh hv
  have hlive := hs _ hv
  have hf : f ∈ o.snapshot.events := by rw [hq]; exact .head _
  exact ⟨fun hu => hlive.unclosed _ hu f hf ⟨rfl, hc⟩,
    fun d hd hcl => hlive.once _ d hd f hf hcl ⟨rfl, hc⟩⟩

end

end RemoteControl.Hbbr
