import RemoteControl.Hbbr.ControlMessages

/-!
# What the API checks of a relay's outbox

The relay reports the state of its outbox with its telemetry, and answers requests for pages of the
quarantine. The API (`relaygateway/operations.go`, `quarantine.go`) checks every number and text of
both, and drops a relay whose status is not valid.

> What the API demands of an event, the outbox demanded when it recorded the event or read it.

The times are the relay's, so a check against the clock of the API needs that the clocks agreed when
the event was recorded.
-/

namespace RemoteControl.Gateway

open Lib Hbbr List

variable {m : Machine} {page : QuarantinePage} {v : Snapshot} {s : System} {src : UuidSource}
  {action revision : String} {now offset : Nat} {parse : String → Bool}

/-! ## The checks -/

def validQuarantineEvent (e : Event) : Bool :=
  e.id.utf8ByteSize ≤ 64 && e.id ≠ "" && validUuid e.uuid &&
    (e.status = "active" || e.status = "closed") && e.reason = "credential_rotated"

/-- Five minutes from now, in milliseconds. -/
def latest (now : Nat) : Nat := now + 300000

/-- `DeliveryStatus.valid`. -/
def validStatus (now : Nat) (v : DeliveryStatus) : Bool :=
  v.capacity = 4096 && v.pending ≤ 4096 && v.quarantined ≤ 4096 && v.reserved ≤ 4096 &&
    v.pending + v.quarantined + v.reserved ≤ 4096 && v.sample.length ≤ 5 &&
    v.sample.length ≤ v.quarantined && v.oldestAt ≤ latest now &&
    v.sample.all fun e => validQuarantineEvent e && e.createdAt ≤ latest now

/-- The requests that `Gateway.Quarantine` sends; `parse` is `uuid.Parse`. The only caller that
archives does so with the offset 0. -/
def quarantineRequest (parse : String → Bool) (action revision : String) (offset : Nat) : Bool :=
  (action = "list" || action = "archive" && revision ≠ "" && offset = 0) && offset ≤ 4096 &&
    (revision = "" || parse revision)

/-- What it demands of the page that it gets. -/
def validPage (parse : String → Bool) (action revision : String) (offset : Nat)
    (page : QuarantinePage) : Bool :=
  parse page.revision && (revision = "" || page.revision = revision) && page.total ≤ 4096 &&
    page.offset = offset && page.events.length ≤ 10 &&
    (action ≠ "list" || (page.events.length : Int) = min 10 ((page.total : Int) - offset)) &&
    page.events.all validQuarantineEvent

/-! ## Where the data comes from -/

/-- Every event has an id that was drawn and the time of a recorded one, and the revision was
drawn. -/
structure Traced (src : UuidSource) (p : Past) (v : Snapshot) : Prop where
  events : ∀ e ∈ v.events ++ v.quarantine, (∃ k < p.draws, e.id = src.newV4 k) ∧
    ∃ r ∈ p.recorded, r.createdAt = e.createdAt
  revision : v.quarantineRevision = "" ∨ ∃ n, v.quarantineRevision = src.newV4 n

theorem Traced.stems {p q : Past} {w : Snapshot} (h : Traced src p w) (hs : Stems src p w q v) :
    Traced src q v where
  events e he := by
    have hold : ∀ d ∈ w.events ++ w.quarantine, (∃ k < q.draws, d.id = src.newV4 k) ∧
        ∃ r ∈ q.recorded, r.createdAt = d.createdAt := by
      intro d hd
      obtain ⟨⟨k, hk, hid⟩, r, hr, htime⟩ := h.events d hd
      exact ⟨⟨k, Nat.lt_of_lt_of_le hk hs.past.draws, hid⟩, r, hs.past.recorded.subset hr, htime⟩
    rcases mem_append.mp he with he | he
    · rcases hs.events e he with he | he
      · exact hold e (mem_append_left _ he)
      · obtain ⟨k, -, hk, hid⟩ := he.drawn
        exact ⟨⟨k, hk, hid⟩, e, he.recorded, rfl⟩
    · rcases hs.quarantine e he with he | ⟨d, hd, rfl⟩
      · exact hold e (mem_append_right _ he)
      · exact hold d (mem_append_left _ hd)
  revision := by
    rcases hs.revision with hsame | ⟨k, -, -, hnew⟩
    · rw [hsame]
      exact h.revision
    · exact .inr ⟨k, hnew⟩

theorem revised_of_reached (h : s.Reached src) :
    ∀ o, s.proc = some o → o.snapshot.quarantineRevision ≠ "" := by
  refine process_invariant (Q := fun v => v.quarantineRevision ≠ "")
    (P := fun o _ => o.snapshot.quarantineRevision ≠ "") (fun hl => ?_) (fun hm hc => ?_)
    (fun fault m hm => ?_) (fun ho => ho) (fun _ ho => ho) h
  · obtain ⟨first, -, -, ⟨-, hnew, -⟩ | ⟨hne, hsame, -⟩⟩ := (load_ok hl).draw
    · rw [hnew]
      exact src.newV4_ne_empty _
    · rw [hsame]
      exact hne
  · rcases (change_stems hc).revision with hsame | ⟨k, -, -, hnew⟩
    · rw [hsame]
      exact hm
    · rw [hnew]
      exact src.newV4_ne_empty k
  · show (m.flush fault).2.snapshot.quarantineRevision ≠ ""
    rw [flush_snapshot]
    exact hm

/-! ## The relay passes -/

theorem status_valid (ht : m.snapshot.total ≤ capacity)
    (htime : ∀ e ∈ m.snapshot.events ++ m.snapshot.quarantine, e.createdAt ≤ latest now)
    (hvalid : ∀ e ∈ m.snapshot.quarantine, validQuarantineEvent e = true) :
    validStatus now m.status = true := by
  have holdest : m.front.elim 0 Event.createdAt ≤ latest now := by
    cases hq : m.front with
    | none => exact Nat.zero_le _
    | some e => exact htime e (mem_append_left _ (mem_of_mem_head? hq))
  have hsample : ∀ e ∈ m.snapshot.quarantine.take 5,
      validQuarantineEvent e = true ∧ e.createdAt ≤ latest now := by
    intro e he
    have hmem := mem_of_mem_take he
    exact ⟨hvalid e hmem, htime e (mem_append_right _ hmem)⟩
  unfold Snapshot.total capacity at ht
  have hsum : m.snapshot.events.length + m.snapshot.quarantine.length + m.snapshot.active.card
      ≤ 4096 := by omega
  unfold validStatus
  simp only [Bool.and_eq_true, decide_eq_true_eq, all_eq_true]
  exact ⟨⟨⟨⟨⟨⟨⟨⟨rfl, show m.snapshot.events.length ≤ 4096 by omega⟩,
    show m.snapshot.quarantine.length ≤ 4096 by omega⟩,
    show m.snapshot.active.card ≤ 4096 by omega⟩, hsum⟩, length_take_le _ _⟩,
    length_take_le' _ _⟩, holdest⟩, hsample⟩

theorem page_valid {backup : BackupFault} {fault : WriteFault} (ht : m.snapshot.total ≤ capacity)
    (hrev : parse m.snapshot.quarantineRevision = true)
    (hvalid : ∀ e ∈ m.snapshot.quarantine, validQuarantineEvent e = true)
    (hrequest : quarantineRequest parse action revision offset = true)
    (hpage : (m.manageQuarantine src action revision offset backup fault).1 = some page) :
    validPage parse action revision offset page = true := by
  have hevents : page.events.all validQuarantineEvent = true :=
    all_eq_true.mpr fun e he => hvalid e ((manageQuarantine_window hpage).1.subset he)
  unfold Snapshot.total capacity at ht
  simp only [quarantineRequest, Bool.and_eq_true, Bool.or_eq_true, decide_eq_true_eq] at hrequest
  simp only [validPage, Bool.and_eq_true, Bool.or_eq_true, decide_eq_true_eq]
  refine ⟨?_, hevents⟩
  unfold Machine.manageQuarantine at hpage
  split_ifs at hpage with harchive hlist
  · -- the answer to an archive is an empty page under the revision of the request
    subst harchive
    split at hpage
    · cases hpage
    cases hpage
    obtain ⟨⟨hlist | ⟨⟨-, hne⟩, hzero⟩, -⟩, hparsed⟩ := hrequest
    · exact absurd hlist (by decide)
    · exact ⟨⟨⟨⟨⟨hparsed.resolve_left hne, .inr rfl⟩, Nat.zero_le _⟩, hzero.symm⟩, Nat.zero_le _⟩,
        .inl (by decide)⟩
  · unfold Machine.quarantinePage at hpage
    split_ifs at hpage with hchanged hoffset
    · cases hpage
    · cases hpage
    cases hpage
    have hsame : revision = "" ∨ m.snapshot.quarantineRevision = revision := by
      by_cases hr : revision = ""
      · exact .inl hr
      · exact .inr (not_not.mp fun hne => hchanged ⟨hr, Ne.symm hne⟩)
    refine ⟨⟨⟨⟨⟨hrev, hsame⟩, ?_⟩, rfl⟩, length_take_le _ _⟩, .inr ?_⟩
    · show m.snapshot.quarantine.length ≤ 4096
      omega
    · show (((m.snapshot.quarantine.drop offset).take 10).length : Int)
        = min 10 ((m.snapshot.quarantine.length : Int) - offset)
      rw [length_take, length_drop]
      omega

/-- **The delivery data of a relay is valid.** Whatever happened to an outbox: if its clock was
less than five minutes ahead of the API's whenever it recorded an event, then its status passes
`DeliveryStatus.valid`, and so does every page that it answers a request of the API with. -/
theorem delivery_data_valid {src : UuidSource} {s : System} {o : Outbox} {as : List Action}
    {parse : String → Bool} {now : Nat} (h : Run (Step src) .start as s) (hp : s.proc = some o)
    (hparse : ∀ n, parse (src.newV4 n) = true)
    (hids : ∀ k < s.draws, (src.newV4 k).utf8ByteSize ≤ 64)
    (hclocks : ∀ e ∈ s.recorded, ∃ api ≤ now, e.createdAt < api + 300000) :
    validStatus now (s.machine o).status = true ∧
    ∀ action revision offset backup fault page,
      quarantineRequest parse action revision offset = true →
      ((s.machine o).manageQuarantine src action revision offset backup fault).1 = some page →
      validPage parse action revision offset page = true := by
  have hreached : s.Reached src := ⟨_, as, init_start src, h⟩
  have hmem := memory_mem_views hp
  have hopen := (restartable_of_reached hreached o hp).1
  have htotal : o.snapshot.total ≤ 4096 := (reserved_of_reached hreached _ hmem).1
  have htraced : Traced src s.past o.snapshot :=
    (ViewInvariant.of_stems Traced.stems).run h ((init_start src).all ⟨nofun, .inl rfl⟩) _ hmem
  have htime : ∀ e ∈ o.snapshot.events ++ o.snapshot.quarantine, e.createdAt ≤ latest now := by
    intro e he
    obtain ⟨-, r, hr, heq⟩ := htraced.events e he
    obtain ⟨t, ht, hlt⟩ := hclocks r hr
    unfold latest
    omega
  have hvalid : ∀ e ∈ o.snapshot.quarantine, validQuarantineEvent e = true := by
    intro e he
    have hmem := mem_append_right o.snapshot.events he
    obtain ⟨⟨k, hk, hid⟩, -⟩ := htraced.events e hmem
    obtain ⟨hparsed, huuid, hstatus⟩ := hopen.sound e hmem
    have hsize : e.id.utf8ByteSize ≤ 64 := hid ▸ hids k hk
    have hne : e.id ≠ "" := by
      intro hempty
      rw [hempty, src.parse_empty] at hparsed
      cases hparsed
    simp [validQuarantineEvent, hsize, hne, huuid, hstatus, hopen.reasons e he]
  have hrev : parse o.snapshot.quarantineRevision = true := by
    obtain ⟨n, hn⟩ := htraced.revision.resolve_left (revised_of_reached hreached o hp)
    rw [hn]
    exact hparse n
  exact ⟨status_valid (m := s.machine o) htotal htime hvalid,
    fun action revision offset backup fault page hrequest hpage =>
      page_valid (m := s.machine o) htotal hrev hvalid hrequest hpage⟩

/-- A pair is reported and the event rejected: the status is valid, and so is the first page. -/
theorem rejected_delivery_valid : ∃ (s : System) (o : Outbox) (page : QuarantinePage),
    s.proc = some o ∧ page.events = [ordinaryEvent.rotated] ∧
    validStatus 0 (s.machine o).status = true ∧
    ((s.machine o).manageQuarantine .binary "list" "" 0 .none .none).1 = some page ∧
    validPage UuidSource.binary.parseStr "list" "" 0 page = true := by
  obtain ⟨s, o, as, revision, hrun, hp, hrecorded, hdraws, hafter, -⟩ :=
    quarantine_all .binary .onePair rfl
  replace hdraws : s.draws = 3 := hdraws
  have hvalid := @delivery_data_valid _ _ _ _ _ 0 (onePair_run.trans hrun) hp
    UuidSource.binary.parse_newV4 (fun k hk => ?_) fun e he => ⟨0, Nat.le_refl 0, ?_⟩
  rotate_left
  · show (binaryText k).utf8ByteSize ≤ 64
    rw [binaryText, if_pos (by omega), utf8ByteSize_bitText (by decide) (by decide)]
    decide
  · rw [hrecorded] at he
    rw [mem_singleton.mp he]
    decide
  have hquarantine : o.snapshot.quarantine = [ordinaryEvent.rotated] := by rw [hafter]; rfl
  have hpage := first_page (s := s) (o := o) (by rw [hquarantine]; decide)
  exact ⟨s, o, _, hp, hquarantine, hvalid.1, hpage, hvalid.2 _ _ _ _ _ _ rfl hpage⟩

end RemoteControl.Gateway
