import RemoteControl.Control.DeliveryChecks

/-!
# The export of a quarantine

`exportRelayQuarantine` asks the relay for one page after another and puts the events together.
Meanwhile the relay goes on: events are quarantined, the quarantine is archived, and the process
may be killed and started again.

> A revision names one quarantine (`Names`), and every page is of the revision that was asked for.

So all pages are cut from one list. Without a restart a revision that was given up does not come
back, and a page that is still answered says that nothing has changed since the beginning.
-/

namespace RemoteControl.Quarantine

open Lib Hbbr Gateway List

inductive Outcome
  | running | failed | exported
deriving DecidableEq

/-- The loop of `exportRelayQuarantine`; `requests` counts its rounds. -/
structure Export where
  events : List Event
  total : Option Nat
  requests : Nat
  outcome : Outcome

def Export.start (parse : String → Bool) (revision : String) : Export :=
  ⟨[], none, 0, if parse revision then .running else .failed⟩

/-- One round. There is no page where the relay is offline, refuses, or does not answer in time. -/
def Export.round (parse : String → Bool) (revision : String) (x : Export)
    (page : Option QuarantinePage) : Export :=
  let x := { x with requests := x.requests + 1 }
  match page with
  | none => { x with outcome := .failed }
  | some page =>
    if quarantineRequest parse "list" revision x.events.length = false ∨
        validPage parse "list" revision x.events.length page = false ∨
        (∃ total ∈ x.total, page.total ≠ total) then { x with outcome := .failed }
    else
      let events := x.events ++ page.events
      { x with
        events
        total := some page.total
        outcome := if events.length = page.total then .exported else .running }

/-- The relay and the export. `reply` is an answer on its way, `seen` are the states of the relay
since the beginning, and `read` are those until its last answer. -/
structure World where
  relay : System
  loop : Export
  reply : Option (Option QuarantinePage)
  seen : List System
  read : List System

def World.begin (parse : String → Bool) (revision : String) (s : System) : World :=
  ⟨s, .start parse revision, none, [s], []⟩

inductive Label
  | relay (a : Action) | answer | round | lost

inductive Step (parse : String → Bool) (src : UuidSource) (revision : String) :
    World → Label → World → Prop
  | relay {w : World} {a : Action} {s : System} (hs : Hbbr.Step src w.relay a s) :
      Step parse src revision w (.relay a) { w with relay := s, seen := w.seen ++ [s] }
  -- the `list` branch of `manage_quarantine`
  | answer {w : World} {o : Outbox} (hrun : w.loop.outcome = .running) (hn : w.reply = none)
      (hp : w.relay.proc = some o) :
      Step parse src revision w .answer { w with
        reply := some ((w.relay.machine o).quarantinePage revision w.loop.events.length).toOption
        read := w.seen }
  | round {w : World} {page : Option QuarantinePage} (hrun : w.loop.outcome = .running)
      (hr : w.reply = some page) :
      Step parse src revision w .round { w with
        loop := w.loop.round parse revision page
        reply := none }
  | lost {w : World} (hrun : w.loop.outcome = .running) :
      Step parse src revision w .lost { w with
        loop := w.loop.round parse revision none
        reply := none }

variable {parse : String → Bool} {src : UuidSource} {revision : String} {s : System} {w w' : World}
  {x : Export} {q : List Event} {m : Machine} {page : QuarantinePage}

/-! ## Pages of one list -/

/-- A page of ten from where the export has come to. -/
def Export.Next (x : Export) (q : List Event) (page : QuarantinePage) : Prop :=
  page.total = q.length ∧ page.events = (q.drop x.events.length).take 10

/-- The export has read `q` as far as it has come. -/
structure Export.Reads (x : Export) (q : List Event) : Prop where
  events : x.outcome = .running →
    x.events = q.take (10 * x.requests) ∧ x.events.length = 10 * x.requests
  more : x.outcome = .running → x.requests = 0 ∨ x.events.length < q.length ∧ q.length ≤ 4096
  whole : x.outcome = .exported → x.events = q
  requests : x.requests ≤ 410

theorem Export.reads_start (parse : String → Bool) (revision : String) (q : List Event) :
    (Export.start parse revision).Reads q where
  events _ := ⟨rfl, rfl⟩
  more _ := .inl rfl
  whole h := by
    unfold Export.start at h
    split at h <;> cases h
  requests := Nat.zero_le _

theorem validPage_total {action : String} {offset : Nat}
    (h : validPage parse action revision offset page = true) : page.total ≤ 4096 := by
  simp only [validPage, Bool.and_eq_true, decide_eq_true_eq] at h
  exact h.1.1.1.1.2

theorem Export.Reads.round (h : x.Reads q) (hrun : x.outcome = .running)
    {page : Option QuarantinePage} (hpage : ∀ p ∈ page, x.Next q p) :
    (x.round parse revision page).Reads q := by
  obtain ⟨hevents, hlen⟩ := h.events hrun
  have hrequests : x.requests + 1 ≤ 410 := by
    rcases h.more hrun with hzero | ⟨hlt, hcap⟩ <;> omega
  cases page with
  | none => exact ⟨nofun, nofun, nofun, hrequests⟩
  | some page =>
    obtain ⟨htotal, hnext⟩ := hpage page rfl
    have hjoin : x.events ++ page.events = q.take (10 * (x.requests + 1)) := by
      rw [hnext, hlen, hevents, Nat.mul_succ, take_add]
    unfold Export.round
    dsimp only
    split
    · exact ⟨nofun, nofun, nofun, hrequests⟩
    · next hok =>
      simp only [not_or, Bool.not_eq_false] at hok
      have hcap := validPage_total hok.2.1
      rw [htotal] at hcap
      rw [hjoin, htotal, length_take]
      split
      · next hall => exact ⟨nofun, nofun, fun _ => take_of_length_le (by omega), hrequests⟩
      · next hmore =>
        have hlength : (q.take (10 * (x.requests + 1))).length = 10 * (x.requests + 1) := by
          rw [length_take]
          omega
        refine ⟨fun _ => ⟨rfl, hlength⟩, fun _ => .inr ⟨?_, hcap⟩, nofun, hrequests⟩
        rw [hlength]
        omega

/-! ## What the relay answers -/

/-- The relay has `q` in memory, under the revision. -/
def Lists (revision : String) (q : List Event) (s : System) : Prop :=
  ∃ o, s.proc = some o ∧ o.snapshot.quarantineRevision = revision ∧ o.snapshot.quarantine = q

theorem quarantinePage_ok (hr : revision ≠ "") {offset : Nat}
    (h : (m.quarantinePage revision offset).toOption = some page) :
    m.snapshot.quarantineRevision = revision ∧ page.total = m.snapshot.quarantine.length ∧
      page.events = (m.snapshot.quarantine.drop offset).take 10 := by
  unfold Machine.quarantinePage at h
  split at h
  · cases h
  · next hrev =>
    split at h
    · cases h
    · cases h
      exact ⟨by_contra fun hne => hrev ⟨hr, fun he => hne he.symm⟩, rfl, rfl⟩

/-- A call keeps the quarantine and its revision, or draws a new one. -/
theorem perform_revision (src : UuidSource) (m : Machine) (op : Op) :
    ((op.perform src m).snapshot.quarantineRevision = m.snapshot.quarantineRevision ∧
      (op.perform src m).snapshot.quarantine = m.snapshot.quarantine) ∨
      (op.perform src m).snapshot.quarantineRevision = src.newV4 m.draws := by
  have hout := perform_outcome src m op
  generalize op.perform src m = m' at hout
  cases hout with
  | unwritten => exact .inl ⟨rfl, rfl⟩
  | rewritten fault => rw [flush_snapshot]; exact .inl ⟨rfl, rfl⟩
  | changed fault hc =>
    rw [flush_snapshot]
    cases hc with
    | admitPair | close | acknowledge => exact .inl ⟨rfl, rfl⟩
    | quarantine | archive => exact .inr rfl

/-! ## The export along a run -/

/-- The relay still has the list of the beginning, or has given its revision up. -/
def Kept (revision : String) (q : List Event) (w : World) : Prop :=
  (∀ t ∈ w.seen, Lists revision q t) ∨
    ∃ o, w.relay.proc = some o ∧ o.snapshot.quarantineRevision ≠ revision

/-- The relay was asked while it had the list, and without a restart it had it all the time. -/
def World.ReadFrom (w : World) (revision : String) (q : List Event) : Prop :=
  (∃ t ∈ w.read, Lists revision q t) ∧
    ((∀ t ∈ w.read, t.proc ≠ none) → ∀ t ∈ w.read, Lists revision q t)

structure Inv (src : UuidSource) (revision : String) (q : List Event) (w : World) : Prop where
  asked : w.loop.outcome = .running → revision ≠ ""
  last : w.relay ∈ w.seen
  names : ∀ t ∈ w.seen, Names src revision q t
  kept : (∀ t ∈ w.seen, t.proc ≠ none) → Kept revision q w
  reply : w.loop.outcome = .running → ∀ p, w.reply = some (some p) →
    w.loop.Next q p ∧ w.ReadFrom revision q
  read : w.loop.outcome = .exported → w.ReadFrom revision q
  reads : w.loop.Reads q

theorem kept_relay {a : Action} (h : Inv src revision q w) (hs : Hbbr.Step src w.relay a s)
    (hup : ∀ t ∈ w.seen ++ [s], t.proc ≠ none) :
    Kept revision q { w with relay := s, seen := w.seen ++ [s] } := by
  have hold := h.kept fun t ht => hup t (mem_append_left _ ht)
  have hnow := hup s (mem_append_right _ (mem_singleton_self _))
  have hwas := hup w.relay (mem_append_left _ h.last)
  cases hs with
  | openFailed | kill | powerLoss => exact absurd rfl hnow
  | openRefused hp | opened hp => exact absurd hp hwas
  | @op o op hp =>
    have hfresh := (h.names w.relay h.last).1 w.relay.draws (Nat.le_refl _)
    rcases perform_revision src (w.relay.machine o) op with ⟨hrev, hq⟩ | hnew
    · rcases hold with hall | ⟨o', hp', hne⟩
      · left
        intro t ht
        rcases mem_append.mp ht with ht | ht
        · exact hall t ht
        · obtain ⟨o', hp', hr', hq'⟩ := hall w.relay h.last
          cases hp.symm.trans hp'
          rw [mem_singleton.mp ht]
          exact ⟨_, rfl, hrev.trans hr', hq.trans hq'⟩
      · cases hp.symm.trans hp'
        exact .inr ⟨_, rfl, fun he => hne (hrev.symm.trans he)⟩
    · exact .inr ⟨_, rfl, fun he => hfresh (hnew.symm.trans he)⟩

theorem Inv.answer {o : Outbox} (h : Inv src revision q w) (hr : revision ≠ "")
    (hp : w.relay.proc = some o) {p : QuarantinePage}
    (hpage : ((w.relay.machine o).quarantinePage revision w.loop.events.length).toOption = some p) :
    w.loop.Next q p ∧ (∃ t ∈ w.seen, Lists revision q t) ∧
      ((∀ t ∈ w.seen, t.proc ≠ none) → ∀ t ∈ w.seen, Lists revision q t) := by
  obtain ⟨hrev, htotal, hevents⟩ := quarantinePage_ok hr hpage
  have hq : o.snapshot.quarantine = q :=
    (h.names w.relay h.last).2 o.snapshot (memory_mem_views hp) hrev
  refine ⟨⟨?_, ?_⟩, ⟨w.relay, h.last, o, hp, hrev, hq⟩, fun hup => ?_⟩
  · rw [htotal, ← hq]; rfl
  · rw [hevents, ← hq]; rfl
  · rcases h.kept hup with hall | ⟨o', hp', hne⟩
    · exact hall
    · cases hp.symm.trans hp'
      exact absurd hrev hne

theorem inv_step {a : Label} (h : Inv src revision q w)
    (hs : Step parse src revision w a w') : Inv src revision q w' := by
  cases hs with
  | relay hs =>
    refine { h with last := mem_append_right _ (mem_singleton_self _), names := ?_,
                    kept := kept_relay h hs }
    intro t ht
    rcases mem_append.mp ht with ht | ht
    · exact h.names t ht
    · rw [mem_singleton.mp ht]
      exact names_step (h.names _ h.last) hs
  | answer hrun hn hp =>
    refine { h with reply := ?_, read := ?_ }
    · intro _ p hpage
      exact h.answer (h.asked hrun) hp (Option.some.inj hpage)
    · intro he
      cases hrun.symm.trans he
  | @round page hrun hpage =>
    have hnext : ∀ p ∈ page, w.loop.Next q p := by
      rintro p rfl
      exact (h.reply hrun p hpage).1
    refine { h with asked := fun _ => h.asked hrun, reply := nofun, read := ?_,
                    reads := h.reads.round hrun hnext }
    intro he
    cases page with
    | none => cases he
    | some p => exact (h.reply hrun p hpage).2
  | lost hrun =>
    have hreads : (w.loop.round parse revision none).Reads q := h.reads.round hrun nofun
    exact { h with asked := nofun, reply := nofun, read := nofun, reads := hreads }

/-- Two views of one revision have one quarantine, so there is one that the revision names. -/
theorem names_of_reached (hs : s.Reached src) (hfresh : ∀ n, s.draws ≤ n → src.newV4 n ≠ revision) :
    ∃ q, Names src revision q s := by
  by_cases hex : ∃ v ∈ s.views, v.quarantineRevision = revision
  · obtain ⟨v, hv, hrev⟩ := hex
    exact ⟨v.quarantine, hfresh, fun u hu hu' => agree_of_reached hs u hu v hv (hu'.trans hrev.symm)⟩
  · exact ⟨[], hfresh, fun u hu hu' => absurd ⟨u, hu, hu'⟩ hex⟩

theorem inv_begin (hparse : parse "" = false) (h : Names src revision q s) :
    Inv src revision q (World.begin parse revision s) where
  asked hrun hr := by
    rw [World.begin, Export.start, hr, hparse] at hrun
    cases hrun
  last := mem_singleton_self _
  names t ht := by rwa [mem_singleton.mp ht]
  kept hup := by
    obtain ⟨o, hp⟩ := Option.ne_none_iff_exists'.mp (hup s (mem_singleton_self _))
    by_cases hrev : o.snapshot.quarantineRevision = revision
    · left
      intro t ht
      rw [mem_singleton.mp ht]
      exact ⟨o, hp, hrev, h.2 _ (memory_mem_views hp) hrev⟩
    · exact .inr ⟨o, hp, hrev⟩
  reply := nofun
  read he := by
    unfold World.begin Export.start at he
    split at he <;> cases he
  reads := Export.reads_start parse revision q

/-- **An export is the whole list of its revision.** Let any operations, crashes and restarts of
the relay come between the pages. There are at most 410 requests. If the export succeeds, its events
are, in order, the quarantine that the relay had under this revision, whenever it had it; and if the
relay was not restarted, this was its quarantine from the beginning until the last page was read. -/
theorem export_whole_list {as : List Label} (hparse : parse "" = false) (hs : s.Reached src)
    (hfresh : ∀ n, s.draws ≤ n → src.newV4 n ≠ revision)
    (h : Run (Step parse src revision) (World.begin parse revision s) as w) :
    w.loop.requests ≤ 410 ∧
    (w.loop.outcome = .exported →
      (∃ t ∈ w.read, Lists revision w.loop.events t) ∧
      (∀ t ∈ w.seen, ∀ v ∈ t.views, v.quarantineRevision = revision →
        v.quarantine = w.loop.events) ∧
      ((∀ t ∈ w.read, t.proc ≠ none) → ∀ t ∈ w.read, Lists revision w.loop.events t)) := by
  obtain ⟨q, hq⟩ := names_of_reached hs hfresh
  have hinv := h.invariant (fun _ _ _ hi hst => inv_step hi hst) (inv_begin hparse hq)
  refine ⟨hinv.reads.requests, fun hdone => ?_⟩
  rw [hinv.reads.whole hdone]
  exact ⟨(hinv.read hdone).1, fun t ht v hv => (hinv.names t ht).2 v hv, (hinv.read hdone).2⟩

/-! ### One quarantined event -/

def firstQuarantined : Machine :=
  (Op.quarantine (binaryText 1) "pair-0001" "active" "credential_rotated" .none).perform .binary
    (System.firstPair.machine ⟨firstAdmitted.snapshot, true⟩)

theorem firstQuarantined_reached : firstQuarantined.toSystem.Reached .binary :=
  firstPair_reached.next (.op _ rfl)

/-- The export of its one event, in one round. -/
def firstExported : World where
  relay := firstQuarantined.toSystem
  loop := (Export.start (· ≠ "") (binaryText 2)).round (· ≠ "") (binaryText 2)
    (some ⟨binaryText 2, 1, 0, [⟨binaryText 1, "pair-0001", "active", 7, "credential_rotated"⟩]⟩)
  reply := none
  seen := [firstQuarantined.toSystem]
  read := [firstQuarantined.toSystem]

theorem firstExported_run : Run (Step (· ≠ "") .binary (binaryText 2))
    (.begin (· ≠ "") (binaryText 2) firstQuarantined.toSystem) [.answer, .round] firstExported :=
  (Run.single (.answer rfl rfl rfl)).snoc (.round rfl rfl)

theorem firstExported_exported : firstExported.loop.outcome = .exported := by decide

theorem first_export_whole : firstExported.loop.outcome = .exported ∧
    Lists (binaryText 2) firstExported.loop.events firstQuarantined.toSystem := by
  have hfresh : ∀ n, firstQuarantined.draws ≤ n → UuidSource.binary.newV4 n ≠ (binaryText 2) := by
    intro n hn he
    have hn' : n = 2 := UuidSource.binary.newV4_injective he
    rw [hn'] at hn
    exact absurd hn (by decide)
  exact ⟨firstExported_exported,
    ((export_whole_list rfl firstQuarantined_reached hfresh firstExported_run).2
      firstExported_exported).2.2 nofun _ (mem_singleton_self _)⟩

end RemoteControl.Quarantine
