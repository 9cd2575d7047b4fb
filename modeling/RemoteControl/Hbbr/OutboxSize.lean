import Mathlib.Algebra.Order.BigOperators.Group.Finset
import Mathlib.Data.Nat.Digits.Defs
import RemoteControl.Hbbr.OutboxOpening

/-!
# The size of the outbox file

`flush` refuses to write more than `MAX_BYTES`, and `open` to read more. Whether a
queue within `CAPACITY` stays below that depends on how long its entries get in JSON.
An entry's only part that others choose is the connection UUID: 8 to 128 bytes, of
which a control character takes six in JSON.

> Entries of at most 511 bytes fit 4096 times. A UUID of 375 bytes in JSON makes such an
> entry; one of 128 control characters has 770.

Beyond the limit the outbox cannot be written any more, and since turning an active
pair into a closing event makes it longer, a file that was just written may be one that
no start can open again.
-/

namespace RemoteControl.Hbbr

open Lib List

variable {e : Event} {drained : List (String × Nat)} {closing es : List Event} {m : Machine}
  {draws draws' first i n now : Nat} {f s v : Snapshot} {uuid : String} {src : UuidSource}

/-- The longest JSON form of a UUID with which a full outbox can always be written. -/
def uuidLimit : Nat := 375

/-- The first `n` random UUIDs have 36 characters, none of which is escaped. -/
def UuidSource.Short (src : UuidSource) (n : Nat) : Prop :=
  ∀ k < n, jsonStringLen (src.newV4 k) ≤ 38

def ShortRecords (es : List Event) : Prop :=
  ∀ e ∈ es, jsonStringLen e.uuid ≤ uuidLimit ∧ e.createdAt < 2 ^ 64

structure Event.Fits (src : UuidSource) (e : Event) : Prop where
  parses : src.parseStr e.id = true
  valid : validUuid e.uuid = true
  status : e.status = "active" ∨ e.status = "closed"
  idLen : jsonStringLen e.id ≤ 38
  uuidLen : jsonStringLen e.uuid ≤ uuidLimit
  time : e.createdAt < 2 ^ 64

/-- A snapshot that `open` accepts, with entries of bounded length. -/
structure Snapshot.Fits (src : UuidSource) (s : Snapshot) : Prop where
  version : s.version = 1 ∨ s.version = 2
  queued : ∀ e ∈ s.events, e.Fits src ∧ e.reason = ""
  quarantined : ∀ e ∈ s.quarantine, e.Fits src ∧ e.reason = "credential_rotated"
  active : ∀ u ∈ s.active, validUuid u = true ∧ jsonStringLen u ≤ uuidLimit
  revision : jsonStringLen s.quarantineRevision ≤ 38
  lastArchive : jsonStringLen s.lastArchive ≤ 38

theorem Event.Fits.sound (h : e.Fits src) : e.Sound src := ⟨h.parses, h.valid, h.status⟩

/-! ## Fitting entries make a fitting file -/

theorem Event.Fits.jsonLen_le (h : e.Fits src) (hr : jsonStringLen e.reason ≤ 20) :
    e.jsonLen ≤ 510 := by
  have hid := h.idLen
  have huuid := h.uuidLen
  have htime : jsonNatLen e.createdAt ≤ 20 :=
    Nat.repr_length e.createdAt 20 (by decide) (Nat.lt_trans h.time (by decide))
  have hstatus : jsonStringLen e.status = 8 := by
    rcases h.status with hs | hs <;> rw [hs] <;> decide
  unfold Event.jsonLen
  unfold uuidLimit at huuid
  omega

theorem jsonEventsLen_le (h : ∀ e ∈ es, e.jsonLen ≤ 510) :
    jsonEventsLen es ≤ 2 + 511 * es.length := by
  have hsum : (es.map Event.jsonLen).sum ≤ es.length * 510 := by
    have hle := sum_le_card_nsmul (es.map Event.jsonLen) 510 fun n hn => by
      obtain ⟨e, he, rfl⟩ := mem_map.mp hn
      exact h e he
    simpa using hle
  unfold jsonEventsLen jsonArrayLen
  omega

theorem Snapshot.Fits.jsonLen_le (h : s.Fits src) (ht : s.total ≤ capacity) :
    s.jsonLen ≤ maxBytes := by
  have hversion : jsonNatLen s.version = 1 := by
    rcases h.version with hv | hv <;> rw [hv] <;> decide
  have hevents : jsonEventsLen s.events ≤ 2 + 511 * s.events.length :=
    jsonEventsLen_le fun e he => (h.queued e he).1.jsonLen_le (by rw [(h.queued e he).2]; decide)
  have hquarantine : jsonEventsLen s.quarantine ≤ 2 + 511 * s.quarantine.length :=
    jsonEventsLen_le fun e he =>
      (h.quarantined e he).1.jsonLen_le (by rw [(h.quarantined e he).2]; decide)
  have hactive : ∑ u ∈ s.active, jsonStringLen u ≤ s.active.card * 375 :=
    Finset.sum_le_card_nsmul _ _ _ fun u hu => (h.active u hu).2
  have hrevision := h.revision
  have hlast := h.lastArchive
  unfold Snapshot.total capacity at ht
  unfold Snapshot.jsonLen jsonArrayLen maxBytes
  omega

/-! ## Entries stay short -/

/-- As long as what is drawn and recorded is short, so is every snapshot. -/
def StaysFit (src : UuidSource) (p : Past) (v : Snapshot) : Prop :=
  src.Short p.draws → ShortRecords p.recorded → v.Fits src

theorem UuidSource.Short.mono {m : Nat} (h : src.Short n) (hle : m ≤ n) : src.Short m :=
  fun k hk => h k (Nat.lt_of_lt_of_le hk hle)

/-- What is made of a fitting snapshot fits, if what is drawn and recorded meanwhile is short. -/
theorem Snapshot.Fits.stems {p q : Past} (h : s.Fits src) (hs : Stems src p s q v)
    (hids : src.Short q.draws) (hrec : ∀ e, NewEvent src p s q e →
      jsonStringLen e.uuid ≤ uuidLimit ∧ e.createdAt < 2 ^ 64) : v.Fits src where
  version := by
    rcases hs.version with hv | hv
    · rw [hv]; exact h.version
    · exact .inr hv
  queued e he := by
    rcases hs.events e he with he | he
    · exact h.queued e he
    · obtain ⟨k, -, hk, hid⟩ := he.drawn
      have hvalid := he.valid fun u hu => (h.active u hu).1
      exact ⟨⟨hid ▸ src.parse_newV4 k, hvalid, he.pair.imp And.right And.right, hid ▸ hids k hk,
        (hrec e he).1, (hrec e he).2⟩, he.reason⟩
  quarantined e he := by
    rcases hs.quarantine e he with he | ⟨d, hd, rfl⟩
    · exact h.quarantined e he
    · obtain ⟨hd, -⟩ := h.queued d hd
      exact ⟨⟨hd.parses, hd.valid, hd.status, hd.idLen, hd.uuidLen, hd.time⟩, rfl⟩
  active u hu := by
    rcases hs.active u hu with hu | ⟨e, he, rfl⟩
    · exact h.active u hu
    · exact ⟨he.valid fun u hu => (h.active u hu).1, (hrec e he).1⟩
  revision := by
    rcases hs.revision with hr | ⟨k, -, hk, hr⟩
    · rw [hr]; exact h.revision
    · rw [hr]; exact hids k hk
  lastArchive := by
    rcases hs.lastArchive with hl | hl
    · rw [hl]; exact h.lastArchive
    · rw [hl]; exact h.revision

theorem staysFit_invariant (src : UuidSource) :
    ViewInvariant src (fun _ _ => False) (StaysFit src) :=
  .of_stems fun h hs hids hrec =>
    (h (hids.mono hs.past.draws) fun e he => hrec e (hs.past.recorded.subset he)).stems hs hids
      fun e he => hrec e he.recorded

/-! ## Every write and every start succeeds -/

theorem flush_fits (h : m.snapshot.jsonLen ≤ maxBytes) (fault : WriteFault) :
    (m.flush fault).1 = if fault = .none then .ok () else .error .io := by
  unfold Machine.flush
  rw [if_neg (Nat.not_lt.mpr h)]
  cases fault <;> rfl

theorem Snapshot.Fits.openable (h : s.Fits src) : Openable src s where
  version := h.version
  sound e he := by
    rcases mem_append.mp he with he | he
    · exact (h.queued e he).1.sound
    · exact (h.quarantined e he).1.sound
  reasons e he := (h.quarantined e he).2
  active u hu := (h.active u hu).1

/-- `open` accepts a fitting file. -/
theorem load_of_fits {file : Option Snapshot} (draws : Nat) (hfile : file.getD .empty = f)
    (h : f.Fits src) (ht : f.total ≤ capacity) (hnodup : f.ids.Nodup) (hd : Drains f drained) :
    ∃ v draws' closing, load src drained draws file = .ok (v, draws', closing) := by
  have hread : readFile file = .ok f := by
    cases file with
    | none => exact congrArg Except.ok hfile
    | some g =>
      obtain rfl : g = f := hfile
      exact if_neg (Nat.not_lt.mpr (h.jsonLen_le ht))
  exact load_of_openable draws hread h.openable ht hnodup hd

/-- **The outbox can always be written and opened**, as long as the UUIDs it was given have at
most 375 bytes in JSON. No view of it is longer than the limit, so a write fails only because of
the disk; and whatever of its files a start finds, it loads, and what it makes of the file can be
written as well. -/
theorem outbox_always_fits {src : UuidSource} {s₀ s : System} {as : List Action}
    (h₀ : Init src s₀) (hfile : s₀.disk.file.Fits src) (hrun : Run (Step src) s₀ as s)
    (hids : src.Short (s.draws + 1 + capacity)) (hrec : ShortRecords s.recorded) :
    (∀ v ∈ s.views, v.total ≤ capacity ∧ v.jsonLen ≤ maxBytes) ∧
    (∀ o fault, s.proc = some o →
      ((s.machine o).flush fault).1 = if fault = .none then .ok () else .error .io) ∧
    ∀ file drained, file.getD .empty ∈ s.disk.views → Drains (file.getD .empty) drained →
      (∀ p ∈ drained, p.2 < 2 ^ 64) →
      ∃ v draws closing, load src drained s.draws file = .ok (v, draws, closing) ∧
        v.jsonLen ≤ maxBytes := by
  have hreached : s.Reached src := ⟨s₀, as, h₀, hrun⟩
  have hfits : ∀ v ∈ s.views, v.Fits src := fun v hv =>
    (staysFit_invariant src).run hrun (h₀.all fun _ _ => hfile) v hv
      (hids.mono (Nat.le_trans (Nat.le_succ _) (Nat.le_add_right _ _))) hrec
  have htotal : ∀ v ∈ s.views, v.total ≤ capacity := fun v hv =>
    (reserved_of_reached hreached v hv).1
  have hlen : ∀ v ∈ s.views, v.jsonLen ≤ maxBytes := fun v hv =>
    (hfits v hv).jsonLen_le (htotal v hv)
  refine ⟨fun v hv => ⟨htotal v hv, hlen v hv⟩, fun o fault ho => ?_, fun file drained hf hd htime => ?_⟩
  · exact flush_fits (m := s.machine o) (hlen _ (memory_mem_views ho)) fault
  · have hf' : file.getD .empty ∈ s.views := mem_views.mpr (.inr hf)
    obtain ⟨v, draws, closing, hload⟩ := load_of_fits s.draws rfl (hfits _ hf') (htotal _ hf')
      (freshIds_of_reached hreached _ hf').1 hd
    have hl := load_ok hload
    refine ⟨v, draws, closing, hload, ?_⟩
    obtain ⟨first, hdraws, hclosing, hrev⟩ := hl.draw
    have hcount : drained.length ≤ capacity := by
      have ht := htotal _ hf'
      rw [hd.length]
      unfold Snapshot.total at ht
      omega
    have hfirst : first ≤ s.draws + 1 := by rcases hrev with ⟨-, -, h⟩ | ⟨-, -, h⟩ <;> omega
    have hdrawn : draws ≤ s.draws + 1 + capacity := by omega
    have hv : v.Fits src := by
      refine (hfits _ hf').stems (hl.stems (p := s.past) hd) (hids.mono hdrawn) fun e he => ?_
      rcases mem_append.mp he.recorded with he | he
      · exact hrec e he
      · rw [hclosing] at he
        obtain ⟨k, p, -, -, hp, rfl⟩ := mem_drainActive he
        exact ⟨((hfits _ hf').active p.1 (hd.mem_active hp)).2, htime p hp⟩
    exact hv.jsonLen_le (by rw [hl.total_eq hd]; exact htotal _ hf')

/-! ## A file that no start can open

1250 pairs whose UUIDs consist of control characters. Each takes 771 bytes among the active
ones and 869 as an event, so that both together can be written; two events cannot. -/

section

variable {zero one : Char} {width k : Nat}

theorem jsonStringLen_bitText (hz : escapedLen zero = k) (ho : escapedLen one = k) (n : Nat) :
    jsonStringLen (bitText zero one width n) = 2 + width * k := by
  have hconst : ∀ i, escapedLen (if n.testBit i then one else zero) = k := by
    intro i
    split <;> assumption
  simp [jsonStringLen, bitText, Function.comp_def, hconst]

theorem utf8ByteSize_bitText (hz : zero.utf8Size = 1) (ho : one.utf8Size = 1) (n : Nat) :
    (bitText zero one width n).utf8ByteSize = width := by
  have hconst : ∀ l : List Nat,
      (String.ofList (l.map fun i => if n.testBit i then one else zero)).utf8ByteSize
        = l.length := by
    intro l
    induction l with
    | nil => rfl
    | cons i l ih =>
      have hone : (if n.testBit i then one else zero).utf8Size = 1 := by split <;> assumption
      rw [map_cons, String.ofList_cons, String.utf8ByteSize_append,
        String.utf8ByteSize_singleton, ih, hone, length_cons, Nat.add_comm]
  rw [bitText, hconst, length_range]

end

theorem jsonStringLen_binaryText (hn : n < 2 ^ 36) : jsonStringLen (binaryText n) = 38 := by
  rw [binaryText, if_pos hn, jsonStringLen_bitText (k := 1) (by decide) (by decide)]

/-- The `i`-th UUID: 128 control characters. -/
@[irreducible] def controlUuid (i : Nat) : String := bitText '\x01' '\x02' 128 i

theorem controlUuid_valid (i : Nat) : validUuid (controlUuid i) = true := by
  unfold validUuid controlUuid
  rw [utf8ByteSize_bitText (by decide) (by decide)]
  decide

theorem jsonStringLen_controlUuid (i : Nat) : jsonStringLen (controlUuid i) = 770 := by
  rw [controlUuid, jsonStringLen_bitText (k := 6) (by decide) (by decide)]

section

variable (hn : n ≤ capacity)

include hn

theorem controlUuid_injOn {j : Nat} (hi : i < n) (hj : j < n) (h : controlUuid i = controlUuid j) :
    i = j := by
  have hpow : capacity < 2 ^ 128 := by decide
  rw [controlUuid, controlUuid] at h
  exact bitText_injOn (by decide) (by omega) (by omega) h

/-- What the report of pair `i` queues, and what the first `n` reports leave in memory. -/
def controlEvent (i : Nat) : Event := ⟨binaryText (i + 1), controlUuid i, "active", 0, ""⟩

def manyPairs (n : Nat) : Snapshot where
  version := 2
  events := (List.range n).map controlEvent
  active := (Finset.range n).image controlUuid
  quarantine := []
  quarantineRevision := binaryText 0
  lastArchive := ""

omit hn in
theorem controlEvent_jsonLen (hi : i < capacity) : (controlEvent i).jsonLen = 868 := by
  have hpow : capacity + 1 < 2 ^ 36 := by decide
  have hid : jsonStringLen (binaryText (i + 1)) = 38 := jsonStringLen_binaryText (by omega)
  have hstatus : jsonStringLen "active" = 8 := by decide
  have htime : jsonNatLen 0 = 1 := by decide
  have hreason : jsonStringLen "" = 2 := by decide
  simp only [Event.jsonLen, controlEvent, hid, jsonStringLen_controlUuid, hstatus, htime, hreason]

theorem manyPairs_card : (manyPairs n).active.card = n := by
  have hcard := Finset.card_image_of_injOn (s := Finset.range n) (f := controlUuid)
    fun i hi j hj h => controlUuid_injOn hn (by simpa using hi) (by simpa using hj) h
  rw [Finset.card_range] at hcard
  exact hcard

theorem manyPairs_total : (manyPairs n).total = 2 * n := by
  unfold Snapshot.total
  rw [manyPairs_card hn]
  simp [manyPairs]
  omega

theorem manyPairs_events_jsonLen : ((manyPairs n).events.map Event.jsonLen).sum = n * 868 := by
  have hmap : (manyPairs n).events.map Event.jsonLen = (List.range n).map fun _ => 868 := by
    rw [manyPairs, map_map]
    refine map_congr_left fun i hi => controlEvent_jsonLen ?_
    exact Nat.lt_of_lt_of_le (mem_range.mp hi) hn
  simp [hmap]

theorem manyPairs_jsonLen : (manyPairs n).jsonLen = 132 + n * 1638 + (n - 1) + (n - 1) := by
  have hevents := manyPairs_events_jsonLen hn
  have hactive : ∑ u ∈ (manyPairs n).active, jsonStringLen u = n * 770 := by
    have hsum := Finset.sum_const_nat (s := (manyPairs n).active) (f := jsonStringLen) (m := 770) ?_
    · rw [hsum, manyPairs_card hn]
    · intro u hu
      obtain ⟨i, -, rfl⟩ := Finset.mem_image.mp hu
      exact jsonStringLen_controlUuid i
  have hlen : (manyPairs n).events.length = n := by simp [manyPairs]
  have hversion : jsonNatLen (manyPairs n).version = 1 := by
    show jsonNatLen 2 = 1
    decide
  have hquarantine : jsonEventsLen (manyPairs n).quarantine = 2 := rfl
  have hrevision : jsonStringLen (manyPairs n).quarantineRevision = 38 :=
    jsonStringLen_binaryText (by decide)
  have hlast : jsonStringLen (manyPairs n).lastArchive = 2 := rfl
  unfold Snapshot.jsonLen
  rw [hversion, hquarantine, hrevision, hlast, hactive, manyPairs_card hn]
  unfold jsonEventsLen jsonArrayLen
  rw [hevents, hlen]
  omega

end

/-- The relay with `n` pairs, all written. -/
def System.manyPairs (n : Nat) : System where
  proc := some ⟨Hbbr.manyPairs n, true⟩
  disk := ⟨some (Hbbr.manyPairs n), [], fun _ => none⟩
  draws := n + 1
  recorded := (List.range n).map controlEvent

theorem report_active (now : Nat) (fault : WriteFault) (hv : validUuid uuid = true)
    (hh : m.outbox.healthy = true) (ha : uuid ∉ m.snapshot.active)
    (hc : m.snapshot.total + 2 ≤ capacity) :
    m.report src uuid "active" now fault =
      ((m.setSnapshot { m.snapshot with active := insert uuid m.snapshot.active }).pushEvent
        src uuid "active" now).flush fault := by
  unfold Machine.report
  rw [if_neg (by simp [hv]), if_pos rfl, if_neg (by simp [hh]), if_neg ha,
    if_neg (Nat.not_lt.mpr hc)]

def Snapshot.withPair (v : Snapshot) (e : Event) : Snapshot :=
  { v with active := insert e.uuid v.active, events := v.events ++ [e] }

/-- A report that is written; `e` is the event it queues. -/
theorem report_active_step {s : System} (hp : s.proc = some ⟨v, true⟩)
    (he : ⟨src.newV4 s.draws, uuid, "active", now, ""⟩ = e) (hv : validUuid uuid = true)
    (ha : uuid ∉ v.active) (hc : v.total + 2 ≤ capacity)
    (hsize : (v.withPair e).jsonLen ≤ maxBytes) :
    Step src s (.op (.report uuid "active" now .none))
      ⟨some ⟨v.withPair e, true⟩, (s.disk.rename (v.withPair e)).syncDir, s.draws + 1,
        s.recorded ++ [e]⟩ := by
  subst he
  let e : Event := ⟨src.newV4 s.draws, uuid, "active", now, ""⟩
  let m : Machine := s.machine ⟨v, true⟩
  let m' : Machine := ⟨⟨v.withPair e, true⟩, s.disk, s.draws + 1, s.recorded ++ [e]⟩
  have hreport : m.report src uuid "active" now .none = m'.flush .none :=
    report_active (m := m) now .none hv rfl ha hc
  have hperform : (Op.report uuid "active" now .none).perform src m = (m'.flush .none).2 :=
    congrArg Prod.snd hreport
  have hstep : Step src s (.op (.report uuid "active" now .none))
      ((Op.report uuid "active" now .none).perform src m).toSystem := .op _ hp
  rw [hperform, flush_written (m := m') hsize] at hstep
  exact hstep

theorem manyPairs_succ (n : Nat) : manyPairs (n + 1) = (manyPairs n).withPair (controlEvent n) := by
  simp [manyPairs, Snapshot.withPair, controlEvent, range_succ, Finset.range_add_one,
    Finset.image_insert]

theorem manyPairs_report (hn : 2 * n + 2 ≤ capacity)
    (hsize : (manyPairs (n + 1)).jsonLen ≤ maxBytes) :
    Step .binary (.manyPairs n) (.op (.report (controlUuid n) "active" 0 .none))
      (.manyPairs (n + 1)) := by
  have hnew : controlUuid n ∉ (manyPairs n).active := by
    intro hmem
    obtain ⟨i, hi, hc⟩ := Finset.mem_image.mp hmem
    have hlt : i < n := Finset.mem_range.mp hi
    have heq := controlUuid_injOn (n := n + 1) (by omega) (Nat.lt_succ_of_lt hlt) (Nat.lt_succ_self n) hc
    omega
  have hroom : (manyPairs n).total + 2 ≤ capacity := by
    rw [manyPairs_total (by omega)]
    exact hn
  have hrecorded : (List.range (n + 1)).map controlEvent
      = (List.range n).map controlEvent ++ [controlEvent n] := by simp [range_succ]
  rw [manyPairs_succ] at hsize
  have hstep : Step .binary (.manyPairs n) _ _ :=
    report_active_step (e := controlEvent n) rfl rfl (controlUuid_valid n) hnew hroom hsize
  rw [System.manyPairs, System.manyPairs, hrecorded, manyPairs_succ]
  exact hstep

theorem manyPairs_open : Step .binary .start (.openDir [] .none) (.manyPairs 0) := by
  have hsize : (manyPairs 0).jsonLen ≤ maxBytes := by
    rw [manyPairs_jsonLen (Nat.zero_le _)]
    decide
  have hload : load .binary [] 0 none = .ok (manyPairs 0, 1, []) := rfl
  have hflush := flush_written (m := System.start.loaded (manyPairs 0) 1 []) hsize
  have hdrains : Drains System.start.disk.file [] := ⟨nodup_nil, rfl⟩
  exact Step.opened rfl hdrains hload hflush

def manyReports (n : Nat) : List Action :=
  .openDir [] .none ::
    (List.range n).map fun i => .op (.report (controlUuid i) "active" 0 .none)

theorem manyPairs_run (hn : n ≤ 1250) :
    Run (Step .binary) .start (manyReports n) (.manyPairs n) := by
  induction n with
  | zero => exact .single manyPairs_open
  | succ n ih =>
    have hcap : capacity = 4096 := rfl
    have hmax : maxBytes = 2097152 := rfl
    have hstep := manyPairs_report (n := n) (by omega) (by
      rw [manyPairs_jsonLen (by omega)]
      omega)
    have hreports : manyReports (n + 1)
        = manyReports n ++ [.op (.report (controlUuid n) "active" 0 .none)] := by
      simp [manyReports, range_succ]
    rw [hreports]
    exact (ih (by omega)).snoc hstep

/-! What a start makes of that file is too long, whatever it draws and whenever it runs. -/

theorem jsonStringLen_ge_length (t : String) : 2 + t.length ≤ jsonStringLen t := by
  have hone : ∀ c : Char, 1 ≤ escapedLen c := by
    intro c
    unfold escapedLen
    split_ifs
    · decide
    · decide
    · decide
    · exact c.utf8Size_pos
  have hlen := length_le_sum_of_one_le (t.toList.map escapedLen) (by simpa using fun c _ => hone c)
  rw [length_map, String.length_toList] at hlen
  unfold jsonStringLen
  omega

theorem jsonStringLen_binaryText_ge (n : Nat) : 38 ≤ jsonStringLen (binaryText n) := by
  have hlen := jsonStringLen_ge_length (binaryText n)
  rw [length_binaryText] at hlen
  split at hlen <;> omega

theorem closing_jsonLen_ge (hd : ∀ p ∈ drained, jsonStringLen p.1 = 770) :
    drained.length * 868 ≤ ((drainActive .binary first drained).map Event.jsonLen).sum := by
  have hstatus : jsonStringLen "closed" = 8 := by decide
  have hreason : jsonStringLen "" = 2 := by decide
  have hone : ∀ n ∈ (drainActive .binary first drained).map Event.jsonLen, 868 ≤ n := by
    intro n hn
    obtain ⟨e, he, rfl⟩ := mem_map.mp hn
    obtain ⟨k, p, -, -, hp, rfl⟩ := mem_drainActive he
    have hid : 38 ≤ jsonStringLen (UuidSource.binary.newV4 k) := jsonStringLen_binaryText_ge k
    have huuid := hd p hp
    have htime : 1 ≤ jsonNatLen p.2 := by
      unfold jsonNatLen Nat.repr
      rw [String.length_ofList]
      exact Nat.length_toDigits_pos
    simp only [Event.jsonLen, hstatus, hreason, huuid]
    omega
  have hsum := card_nsmul_le_sum _ _ hone
  simpa [drainActive_length] using hsum

theorem manyPairs_loads_tooLarge (hd : Drains (manyPairs 1250) drained)
    (hl : Loads .binary drained draws (manyPairs 1250) v draws' closing) :
    maxBytes < v.jsonLen := by
  have hn : 1250 ≤ capacity := by decide
  obtain ⟨first, -, hclosing, -⟩ := hl.draw
  have hcount : drained.length = 1250 := by rw [hd.length, manyPairs_card hn]
  have hlong : ∀ p ∈ drained, jsonStringLen p.1 = 770 := by
    intro p hp
    obtain ⟨i, -, hi⟩ := Finset.mem_image.mp (hd.mem_active hp)
    rw [← hi, jsonStringLen_controlUuid]
  have hsum : 2500 * 868 ≤ (v.events.map Event.jsonLen).sum := by
    have hnew : drained.length * 868 ≤ ((drainActive .binary first drained).map Event.jsonLen).sum :=
      closing_jsonLen_ge hlong
    have hold := manyPairs_events_jsonLen hn
    rw [hl.events, map_append, sum_append, hclosing, hold]
    rw [hcount] at hnew
    omega
  have hlength : v.events.length = 2500 := by
    rw [hl.events, length_append, hclosing, drainActive_length, hcount]
    simp [manyPairs]
  unfold Snapshot.jsonLen jsonEventsLen jsonArrayLen maxBytes
  omega

/-- The relay of `n` pairs, after its process ended. -/
def System.stopped (n : Nat) : System := { System.manyPairs n with proc := none }

theorem stopped_valid (n : Nat) : ∀ e ∈ (System.stopped n).recorded, validUuid e.uuid = true := by
  intro e he
  obtain ⟨i, -, rfl⟩ := mem_map.mp he
  exact controlUuid_valid i

theorem stopped_total (hn : n ≤ capacity) : (System.stopped n).disk.file.total = 2 * n :=
  manyPairs_total hn

/-- Nothing runs, and the file is the one with the 1250 pairs. -/
structure LockedOut (s : System) : Prop where
  proc : s.proc = none
  json : s.disk.json = some (manyPairs 1250)
  unsynced : s.disk.unsynced = []

theorem flush_tooLarge (h : maxBytes < m.snapshot.jsonLen) (fault : WriteFault) :
    m.flush fault
      = (.error .fileTooLarge, { m with outbox := { m.outbox with healthy := false } }) := by
  unfold Machine.flush
  rw [if_pos h]

theorem LockedOut.tooLarge {s : System} (h : LockedOut s) {snapshot : Snapshot}
    (hd : Drains s.disk.file drained)
    (hl : load .binary drained s.draws s.disk.json = .ok (snapshot, draws, closing)) :
    maxBytes < (s.loaded snapshot draws closing).snapshot.jsonLen := by
  have hloads := load_ok hl
  unfold Disk.file at hd
  rw [h.json] at hd hloads
  exact manyPairs_loads_tooLarge hd hloads

theorem LockedOut.step {s s' : System} {a : Action} (h : LockedOut s) (hs : Step .binary s a s') :
    LockedOut s' := by
  cases hs with
  | op op hp =>
    rw [h.proc] at hp
    cases hp
  | openRefused => exact h
  | openFailed hp hd hl hf =>
    rw [flush_tooLarge (h.tooLarge hd hl)] at hf
    obtain rfl := (Prod.mk.inj hf).2
    exact ⟨rfl, h.json, h.unsynced⟩
  | opened hp hd hl hf =>
    rw [flush_tooLarge (h.tooLarge hd hl)] at hf
    cases (Prod.mk.inj hf).1
  | kill => exact ⟨rfl, h.json, h.unsynced⟩
  | powerLoss hd =>
    have hjson := hd.json
    rw [h.unsynced, mem_singleton, h.json] at hjson
    exact ⟨rfl, hjson, hd.unsynced⟩

/-- **Control characters lock the outbox.** 1250 pairs are admitted, all with valid UUIDs, every
write succeeds and the capacity is not even used to two thirds. Once the relay stops it never
starts again: what it would have to write is too long. -/
theorem control_characters_lock_outbox :
    Run (Step .binary) .start (manyReports 1250 ++ [.kill]) (.stopped 1250) ∧
    (∀ e ∈ (System.stopped 1250).recorded, validUuid e.uuid = true) ∧
    (System.stopped 1250).disk.file.total = 2500 ∧
    ∀ as t, Run (Step .binary) (.stopped 1250) as t → t.proc = none := by
  refine ⟨(manyPairs_run (Nat.le_refl 1250)).snoc .kill, stopped_valid 1250,
    stopped_total (by decide), fun as t hrun => ?_⟩
  have hlocked : LockedOut t := hrun.invariant (fun _ _ _ h hs => h.step hs) ⟨rfl, rfl, rfl⟩
  exact hlocked.proc

/-! ## A pair with an ordinary UUID -/

theorem binary_short (hn : n ≤ 2 ^ 36) : UuidSource.binary.Short n :=
  fun _ hk => Nat.le_of_eq (jsonStringLen_binaryText (Nat.lt_of_lt_of_le hk hn))

def ordinaryEvent : Event := ⟨binaryText 1, "pair-0001", "active", 7, ""⟩

def System.onePair : System where
  proc := some ⟨(Hbbr.manyPairs 0).withPair ordinaryEvent, true⟩
  disk := ⟨some ((Hbbr.manyPairs 0).withPair ordinaryEvent), [], fun _ => none⟩
  draws := 2
  recorded := [ordinaryEvent]

theorem ordinaryEvent_fits : ordinaryEvent.Fits .binary :=
  ⟨UuidSource.binary.parse_newV4 1, by decide, .inl rfl,
    Nat.le_of_eq (jsonStringLen_binaryText (by norm_num)), by decide, by decide⟩

theorem empty_fits (src : UuidSource) : Snapshot.empty.Fits src :=
  ⟨.inr rfl, fun _ h => (nomatch h), fun _ h => (nomatch h), fun _ h => (nomatch h), by decide,
    by decide⟩

theorem onePair_run : Run (Step .binary) .start
    [.openDir [] .none, .op (.report "pair-0001" "active" 7 .none)] .onePair := by
  have hfits : (manyPairs 0).Fits .binary :=
    { empty_fits .binary with
      revision := Nat.le_of_eq (jsonStringLen_binaryText (by norm_num)) }
  have hsize : ((manyPairs 0).withPair ordinaryEvent).jsonLen ≤ maxBytes := by
    refine Snapshot.Fits.jsonLen_le { hfits with queued := fun e he => ?_, active := fun u hu => ?_ }
      (by decide)
    · rw [mem_singleton.mp he]
      exact ⟨ordinaryEvent_fits, rfl⟩
    · rw [Finset.mem_singleton.mp hu]
      decide
  exact (Run.single manyPairs_open).snoc
    (report_active_step (e := ordinaryEvent) rfl rfl (by decide) (by decide) (by decide) hsize)

theorem onePair_short : ShortRecords System.onePair.recorded := by
  intro e he
  rw [mem_singleton.mp he]
  exact ⟨ordinaryEvent_fits.uuidLen, ordinaryEvent_fits.time⟩

theorem onePair_always_fits :
    (∃ o, System.onePair.proc = some o ∧ "pair-0001" ∈ o.snapshot.active) ∧
    ∀ v ∈ System.onePair.views, v.total ≤ capacity ∧ v.jsonLen ≤ maxBytes := by
  have hshort : UuidSource.binary.Short (System.onePair.draws + 1 + capacity) :=
    binary_short (by show 2 + 1 + 4096 ≤ 2 ^ 36; norm_num)
  refine ⟨⟨_, rfl, Finset.mem_insert_self _ _⟩, ?_⟩
  exact (outbox_always_fits (init_start _) (empty_fits _) onePair_run hshort onePair_short).1

end RemoteControl.Hbbr
