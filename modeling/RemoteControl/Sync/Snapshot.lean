import RemoteControl.Lib.Run
import RemoteControl.Sync.Hub
import RemoteControl.Sync.Store

/-!
# Taking a snapshot

`authSnapshot` of `httpapi/server.go`, next to operations that commit and publish.
The handler takes no lock. It reads the hub's revision, then one table after
another, then the revision again, and starts over, three times at most, if that
has changed. A query reads the state that is committed at some instant while it runs.

> An operation publishes after it has committed, so whoever has read the revision
> of its event reads, from then on, the tables with its effect.

Two parts of the answer are not what the tables hold, and are not meant to be:
sessions that have expired are left out, and a relay with a credential of its own
that is not connected is shown as offline.
-/

namespace RemoteControl.Sync

open Lib List

variable {P : Store → Prop}

/-- `domain.AuthSnapshot`, but for the time it was made. -/
structure Snapshot where
  sourceId : String
  revision : Nat
  requireLogin : Bool
  requireDeviceDeployment : Bool
  users : List User
  sessions : List Session
  devices : List Device
  aclRules : List AclRule
  strategies : List Strategy
  userGroupMemberships : List UserGroupMembership
  relayServers : List RelayServer

def Snapshot.empty : Snapshot := ⟨"", 0, false, false, [], [], [], [], [], [], []⟩

/-! ## The handler -/

/-- What `RelayCredential` returns for a relay. -/
inductive Credential
  | notFound
  | failed
  | found (hash : String)
deriving DecidableEq, Repr

def Credential.connected (online : Bool) : Credential → Bool
  | .found hash => hash ≠ "" && online
  | _ => false

/-- `relayControlState`, for a repository that knows credentials. -/
def relayControlState (credential : String → Credential) (online : String → Bool)
    (values : List RelayServer) : List RelayServer :=
  values.map fun v =>
    match credential v.id with
    | .notFound => { v with controlMode := "legacy" }
    | c =>
      let connected := c.connected (online v.id)
      { v with
        controlMode := "wss"
        controlConnected := connected
        health := if connected then v.health else "offline" }

/-- The next thing the handler does. -/
inductive Stage
  | revisionBefore | users | sessions | devices | aclRules | strategies | memberships
  | relays | control | revisionAfter | configuration
  | answered | failed | unavailable
deriving DecidableEq, Repr

/-- The handler's variables. -/
structure Capture where
  stage : Stage
  attempt : Nat
  revisionBefore : Nat
  now : Nat
  draft : Snapshot

variable {c : Capture}

def Capture.start : Capture := ⟨.revisionBefore, 0, 0, 0, Snapshot.empty⟩

/-- What the handler finds around it. -/
structure Surroundings where
  hub : Hub
  store : Store
  clock : Nat
  credential : String → Credential
  online : String → Bool

def Capture.advance (s : Surroundings) (c : Capture) : Capture := match c.stage with
  | .revisionBefore => { c with stage := .users, revisionBefore := s.hub.revision }
  | .users => { c with
      stage := .sessions
      now := s.clock
      draft := { c.draft with users := s.store.users.rows } }
  | .sessions => { c with
      stage := .devices
      draft := { c.draft with sessions := s.store.liveSessions c.now } }
  | .devices => { c with
      stage := .aclRules
      draft := { c.draft with devices := s.store.devices.rows } }
  | .aclRules => { c with
      stage := .strategies
      draft := { c.draft with aclRules := s.store.aclRules.rows } }
  | .strategies => { c with
      stage := .memberships
      draft := { c.draft with strategies := s.store.strategies.rows } }
  | .memberships => { c with
      stage := .relays
      draft := { c.draft with userGroupMemberships := s.store.listUserGroupMemberships } }
  | .relays => { c with
      stage := .control
      draft := { c.draft with relayServers := s.store.relayServers.rows } }
  | .control => { c with
      stage := .revisionAfter
      draft := { c.draft with
        relayServers := relayControlState s.credential s.online c.draft.relayServers } }
  | .revisionAfter =>
    if c.revisionBefore = s.hub.revision then
      { c with
        stage := .configuration
        draft := { c.draft with revision := s.hub.revision } }
    else if c.attempt + 1 < 3 then
      { c with stage := .revisionBefore, attempt := c.attempt + 1 }
    else { c with stage := .unavailable }
  | .configuration => { c with
      stage := .answered
      draft := { c.draft with
        sourceId := s.hub.sourceId
        requireLogin := s.store.settings.requireLogin
        requireDeviceDeployment := s.store.settings.requireDeviceDeployment } }
  | .answered | .failed | .unavailable => c

/-- The stages at which a query can fail. -/
def Stage.queries : Stage → Bool
  | .users | .sessions | .devices | .aclRules | .strategies | .memberships | .relays => true
  | _ => false

/-! ## Next to operations -/

/-- A published event, with the number of the state that its operation had committed. -/
structure Published where
  revision : Nat
  commit : Nat
deriving DecidableEq, Repr

structure Office where
  hub : Hub
  store : Store
  /-- the states committed before, the oldest first -/
  past : List Store
  published : List Published
  capture : Capture

/-- All committed states. -/
def Office.log (w : Office) : List Store := w.past ++ [w.store]

inductive OfficeLabel
  | commit | publish | hub | advance | fail

inductive OfficeStep : Office → OfficeLabel → Office → Prop
  | commit (w : Office) (store : Store) : OfficeStep w .commit { w with store, past := w.log }
  -- the operation has committed before it calls `Publish`
  | publish (w : Office) (kind : String) (payload : Json) {c : Nat} (hc : c < w.log.length) :
      OfficeStep w .publish
        { w with
          hub := (w.hub.number kind payload).2
          published := ⟨(w.hub.number kind payload).1.revision, c⟩ :: w.published }
  -- deliveries and subscribers
  | hub {w : Office} {hub : Hub} (hs : hub.sourceId = w.hub.sourceId)
      (hr : hub.revision = w.hub.revision) : OfficeStep w .hub { w with hub }
  | advance (w : Office) (clock : Nat) (credential : String → Credential)
      (online : String → Bool) :
      OfficeStep w .advance
        { w with capture := w.capture.advance ⟨w.hub, w.store, clock, credential, online⟩ }
  | fail {w : Office} (hq : w.capture.stage.queries = true) :
      OfficeStep w .fail { w with capture := { w.capture with stage := .failed } }

structure OfficeInit (w : Office) : Prop where
  hub : w.hub = Hub.new w.hub.sourceId
  past : w.past = []
  published : w.published = []
  capture : w.capture = Capture.start

/-- True of a state that was committed as number `c` or later. -/
def Office.Since (w : Office) (c : Nat) (P : Store → Prop) : Prop :=
  ∃ n s, c ≤ n ∧ w.log[n]? = some s ∧ P s

/-- Every table of the answer is one that was committed with the state `c` or later, as the
snapshot shows it. -/
structure Office.Reflects (w : Office) (a : Snapshot) (c : Nat) : Prop where
  users : w.Since c fun s => a.users = s.users.rows
  sessions : w.Since c fun s => a.sessions = s.liveSessions w.capture.now
  devices : w.Since c fun s => a.devices = s.devices.rows
  aclRules : w.Since c fun s => a.aclRules = s.aclRules.rows
  strategies : w.Since c fun s => a.strategies = s.strategies.rows
  memberships : w.Since c fun s => a.userGroupMemberships = s.listUserGroupMemberships
  relays : w.Since c fun s => ∃ credential online,
    a.relayServers = relayControlState credential online s.relayServers.rows
  settings : w.Since c fun s => (⟨a.requireLogin, a.requireDeviceDeployment⟩ : Settings) = s.settings

/-! ## What the handler knows at each stage -/

/-- The order of the stages; one that ends without an answer knows nothing. -/
def Stage.index : Stage → Nat
  | .revisionBefore => 0
  | .users => 1
  | .sessions => 2
  | .devices => 3
  | .aclRules => 4
  | .strategies => 5
  | .memberships => 6
  | .relays => 7
  | .control => 8
  | .revisionAfter => 9
  | .configuration => 10
  | .answered => 11
  | .failed | .unavailable => 0

/-- What the handler found out at a stage, about the state it read there. -/
def Finding (c : Capture) (s : Store) : Stage → Prop
  | .users => c.draft.users = s.users.rows
  | .sessions => c.draft.sessions = s.liveSessions c.now
  | .devices => c.draft.devices = s.devices.rows
  | .aclRules => c.draft.aclRules = s.aclRules.rows
  | .strategies => c.draft.strategies = s.strategies.rows
  | .memberships => c.draft.userGroupMemberships = s.listUserGroupMemberships
  -- `relayControlState` still has to go over the list at the next stage
  | .relays =>
    if c.stage = .control then c.draft.relayServers = s.relayServers.rows
    else ∃ credential online,
      c.draft.relayServers = relayControlState credential online s.relayServers.rows
  | .configuration =>
    (⟨c.draft.requireLogin, c.draft.requireDeviceDeployment⟩ : Settings) = s.settings
  | _ => True

theorem advance_revisionAfter (e : Surroundings) (hs : c.stage = .revisionAfter) :
    ∃ stage attempt revision, stage ≠ .control ∧ c.advance e =
      { c with stage, attempt, draft := { c.draft with revision } } := by
  unfold Capture.advance
  rw [hs]
  dsimp only
  split
  · exact ⟨_, _, _, by decide, rfl⟩
  · split
    · exact ⟨_, _, _, by decide, rfl⟩
    · exact ⟨_, _, _, by decide, rfl⟩

/-- Later stages leave a finding alone. -/
theorem finding_advance {s : Store} {t : Stage} (e : Surroundings) (ht : t.index < c.stage.index)
    (h : Finding c s t) : Finding (c.advance e) s t := by
  by_cases hr : c.stage = .revisionAfter
  · obtain ⟨stage, attempt, revision, hstage, heq⟩ := advance_revisionAfter e hr
    rw [heq]
    cases t <;> try exact h
    simp only [Finding, hr, hstage, if_false, reduceCtorEq] at h ⊢
    exact h
  · cases t <;> cases hs : c.stage <;> simp_all [Stage.index, Finding, Capture.advance]
    -- the relays, at the stage that goes over them
    exact ⟨_, _, rfl⟩

/-- A stage finds out about the state that is committed then. -/
theorem finding_new (c : Capture) (e : Surroundings) :
    (c.advance e).stage.index ≤ c.stage.index ∨
      (c.advance e).stage.index = c.stage.index + 1 ∧
        ∀ t : Stage, t.index = c.stage.index → Finding (c.advance e) e.store t := by
  by_cases hr : c.stage = .revisionAfter
  · unfold Capture.advance
    rw [hr]
    dsimp only
    split
    · refine Or.inr ⟨rfl, fun t ht => ?_⟩
      cases t <;> trivial
    · exact Or.inl (by split <;> exact Nat.zero_le _)
  · cases hs : c.stage <;> simp only [Capture.advance, hs, reduceCtorEq, not_true_eq_false] at hr ⊢
    case answered | failed | unavailable => exact Or.inl (Nat.le_refl _)
    all_goals
      refine Or.inr ⟨rfl, fun t ht => ?_⟩
      cases t <;> first | rfl | trivial

/-- The revision in the answer is the one read first. -/
theorem advance_agreed (e : Surroundings)
    (h : Stage.revisionAfter.index < c.stage.index → c.draft.revision = c.revisionBefore)
    (ht : Stage.revisionAfter.index < (c.advance e).stage.index) :
    (c.advance e).draft.revision = (c.advance e).revisionBefore := by
  by_cases hr : c.stage = .revisionAfter
  · unfold Capture.advance at ht ⊢
    rw [hr] at ht ⊢
    dsimp only at ht ⊢
    split at ht
    next heq =>
      rw [if_pos heq]
      exact heq.symm
    next => split at ht <;> exact absurd ht (Nat.not_lt_zero _)
  · cases hs : c.stage <;> simp only [Capture.advance, hs, reduceCtorEq, not_true_eq_false] at *
    case configuration | answered => exact h (by decide)
    all_goals exact absurd ht (by decide)

/-! ## The invariant -/

/-- Known of every event up to the revision `r`. -/
def Office.Covered (w : Office) (r : Nat) (P : Store → Prop) : Prop :=
  ∀ e ∈ w.published, e.revision ≤ r → w.Since e.commit P

structure OfficeInv (w : Office) : Prop where
  committed : ∀ e ∈ w.published, e.commit < w.log.length
  drawn : w.capture.revisionBefore ≤ w.hub.revision
  findings : ∀ t : Stage, t.index < w.capture.stage.index →
    w.Covered w.capture.revisionBefore fun s => Finding w.capture s t
  agreed : Stage.revisionAfter.index < w.capture.stage.index →
    w.capture.draft.revision = w.capture.revisionBefore

section

variable {w w' : Office}

theorem Office.Since.mono {c : Nat} {Q : Store → Prop} (h : w.Since c P)
    (hlog : ∃ later, w'.log = w.log ++ later) (hPQ : ∀ s, P s → Q s) : w'.Since c Q := by
  obtain ⟨n, s, hn, hs, hP⟩ := h
  obtain ⟨later, hlater⟩ := hlog
  refine ⟨n, s, hn, ?_, hPQ s hP⟩
  rw [hlater]
  exact (List.getElem?_append_left (List.getElem?_eq_some_iff.mp hs).1).trans hs

/-- The present state is one since every commit so far. -/
theorem Office.Since.now {c : Nat} (hc : c < w.log.length) (h : P w.store) : w.Since c P := by
  refine ⟨w.past.length, w.store, ?_, ?_, h⟩
  · simp only [Office.log, length_append, length_singleton] at hc
    omega
  · exact List.getElem?_concat_length ..

theorem OfficeInit.inv (h : OfficeInit w) : OfficeInv w := by
  obtain ⟨hh, _, hp, hc⟩ := h
  refine ⟨?_, ?_, ?_, ?_⟩
  · simp [hp]
  · rw [hc]
    exact Nat.zero_le _
  · rw [hc]
    exact fun t ht => absurd ht (Nat.not_lt_zero _)
  · rw [hc]
    exact fun h => absurd h (Nat.not_lt_zero _)

/-- The handler does one thing: it keeps its findings and may add one. -/
theorem OfficeInv.advance (h : OfficeInv w) (clock : Nat) (credential : String → Credential)
    (online : String → Bool) : OfficeInv
      { w with capture := w.capture.advance ⟨w.hub, w.store, clock, credential, online⟩ } := by
  have hsame : ∃ later, w.log = w.log ++ later := ⟨[], (append_nil _).symm⟩
  by_cases hstart : w.capture.stage = .revisionBefore
  · refine ⟨h.committed, ?_, ?_, ?_⟩ <;> simp only [Capture.advance, hstart]
    · exact Nat.le_refl _
    · intro t ht
      cases t <;> first | exact fun e he _ => Office.Since.now (h.committed e he) trivial
                        | exact absurd ht (by decide)
    · exact fun ht => absurd ht (by decide)
  · have hrev : (w.capture.advance ⟨w.hub, w.store, clock, credential, online⟩).revisionBefore
        = w.capture.revisionBefore := by
      unfold Capture.advance
      split <;> first | exact absurd ‹_› hstart | rfl | (repeat' split) <;> rfl
    refine ⟨h.committed, hrev ▸ h.drawn, fun t ht e he hle => ?_, fun ht => ?_⟩
    · rw [hrev] at hle
      by_cases hold : t.index < w.capture.stage.index
      · exact (h.findings t hold e he hle).mono hsame fun s => finding_advance _ hold
      · rcases finding_new w.capture ⟨w.hub, w.store, clock, credential, online⟩ with
          hback | ⟨hnext, hnew⟩
        · exact absurd (Nat.lt_of_lt_of_le ht hback) hold
        · exact Office.Since.now (h.committed e he) (hnew t (by dsimp only at ht; omega))
    · exact advance_agreed _ h.agreed ht

/-- What others do leaves the handler alone. -/
theorem OfficeInv.others (h : OfficeInv w) (hc : w'.capture = w.capture)
    (hr : w.hub.revision ≤ w'.hub.revision) (hlog : ∃ later, w'.log = w.log ++ later)
    (hp : ∀ e ∈ w'.published, e ∈ w.published ∨
      w.hub.revision < e.revision ∧ e.commit < w'.log.length) : OfficeInv w' := by
  have hlen : w.log.length ≤ w'.log.length := by
    obtain ⟨later, hlater⟩ := hlog
    rw [hlater, length_append]
    omega
  refine ⟨fun e he => ?_, ?_, fun t ht e he hle => ?_, ?_⟩
  · exact (hp e he).elim (fun hold => Nat.lt_of_lt_of_le (h.committed e hold) hlen) And.right
  · rw [hc]
    exact Nat.le_trans h.drawn hr
  · rw [hc] at ht hle ⊢
    rcases hp e he with hold | ⟨hnew, _⟩
    · exact (h.findings t ht e hold hle).mono hlog fun _ hf => hf
    · -- it was numbered after the handler had read the revision
      have hdrawn := h.drawn
      omega
  · rw [hc]
    exact h.agreed

theorem OfficeInv.step {l : OfficeLabel} (h : OfficeInv w) (hs : OfficeStep w l w') :
    OfficeInv w' := by
  cases hs with
  | commit store =>
    exact h.others rfl (Nat.le_refl _) ⟨[store], rfl⟩ fun e he => Or.inl he
  | publish kind payload hc =>
    refine h.others rfl (Nat.le_succ _) ⟨[], (append_nil _).symm⟩ fun e he => ?_
    rcases mem_cons.mp he with rfl | he
    · exact Or.inr ⟨Nat.lt_succ_self _, hc⟩
    · exact Or.inl he
  | hub _ hr =>
    exact h.others rfl (Nat.le_of_eq hr.symm) ⟨[], (append_nil _).symm⟩ fun e he => Or.inl he
  | advance clock credential online => exact h.advance clock credential online
  | fail =>
    exact ⟨h.committed, h.drawn, fun t ht => absurd ht (Nat.not_lt_zero _),
      fun ht => absurd ht (Nat.not_lt_zero _)⟩

end

/-- **An answer covers its revision**: for every event up to the revision of the answer, each
table in it was committed with the state that the event's operation had committed, or later. -/
theorem snapshot_reflects_events {w₀ w : Office} {ls : List OfficeLabel} (h₀ : OfficeInit w₀)
    (hrun : Run OfficeStep w₀ ls w) (ha : w.capture.stage = .answered) {e : Published}
    (he : e ∈ w.published) (hr : e.revision ≤ w.capture.draft.revision) :
    w.Reflects w.capture.draft e.commit := by
  have h : OfficeInv w := hrun.invariant (fun _ _ _ hinv hs => hinv.step hs) h₀.inv
  have hindex : ∀ t : Stage, t.index < 11 → w.Since e.commit fun s => Finding w.capture s t := by
    intro t ht
    have hlast : w.capture.stage.index = 11 := by rw [ha]; rfl
    refine h.findings t (hlast ▸ ht) e he ?_
    rw [← h.agreed (by rw [hlast]; decide)]
    exact hr
  have hrelays := hindex .relays (by decide)
  simp only [Finding, ha, reduceCtorEq, if_false] at hrelays
  exact ⟨hindex .users (by decide), hindex .sessions (by decide), hindex .devices (by decide),
    hindex .aclRules (by decide), hindex .strategies (by decide), hindex .memberships (by decide),
    hrelays, hindex .configuration (by decide)⟩

/-! ### A session that expires and a relay that is not connected -/

def sampleSession : Session where
  id := "session-1"
  userId := "user-1"
  createdAt := 5
  expiresAt := 10
  revokedAt := none
  lastSeenAt := 5
  ip := ""
  userAgent := ""
  clientDeviceId := ""

def sampleRelay : RelayServer :=
  ⟨"", false, "relay-1", "relay", "relay.example", 21117, "", true, "healthy", 0, 0, 0, 5, 5, false⟩

def sampleOffice : Office where
  hub := Hub.new "api-1"
  store := Store.empty ⟨true, false⟩
  past := []
  published := []
  capture := Capture.start

theorem sampleOffice_init : OfficeInit sampleOffice := ⟨rfl, rfl, rfl, rfl⟩

/-- The state after a login. -/
def sampleStore : Store :=
  { Store.empty ⟨true, false⟩ with
    sessions := Table.empty.put sampleSession
    relayServers := Table.empty.put sampleRelay }

/-- The login publishes its session as revision 1, and then a snapshot is taken. -/
theorem sampleOffice_answers (clock : Nat) : ∃ ls w, Run OfficeStep sampleOffice ls w ∧
    w.log = [sampleOffice.store, sampleStore] ∧ w.published = [⟨1, 1⟩] ∧
    w.capture.stage = .answered ∧ w.capture.draft.revision = 1 ∧
    w.capture.draft.sessions = sampleStore.liveSessions clock ∧
    w.capture.draft.relayServers
      = relayControlState (fun _ => .found "hash") (fun _ => false) [sampleRelay] := by
  have hadvance := fun w : Office =>
    OfficeStep.advance w clock (fun _ => .found "hash") (fun _ => false)
  exact ⟨_, _, Run.cons (.commit _ sampleStore) <|
    Run.cons (.publish (c := 1) _ "SESSION_CREATED" (sampleSession.toJson toString) (by decide)) <|
    Run.cons (hadvance _) <| Run.cons (hadvance _) <| Run.cons (hadvance _) <|
    Run.cons (hadvance _) <| Run.cons (hadvance _) <| Run.cons (hadvance _) <|
    Run.cons (hadvance _) <| Run.cons (hadvance _) <| Run.cons (hadvance _) <|
    Run.cons (hadvance _) <| Run.cons (hadvance _) <| Run.nil _, rfl, rfl, rfl, rfl, rfl, rfl⟩

theorem snapshot_reflects_login : ∃ ls w, Run OfficeStep sampleOffice ls w ∧
    w.capture.stage = .answered ∧ w.Reflects w.capture.draft 1 := by
  obtain ⟨ls, w, hrun, _, hp, ha, hr, _⟩ := sampleOffice_answers 7
  refine ⟨ls, w, hrun, ha, ?_⟩
  exact snapshot_reflects_events (e := ⟨1, 1⟩) sampleOffice_init hrun ha
    (hp ▸ mem_cons_self) (Nat.le_of_eq hr.symm)

/-- Taken when the session has expired, the snapshot has its revision and not its row, and it
shows the relay with a health that was never stored. -/
theorem snapshot_omits_expired : ∃ ls w, OfficeInit sampleOffice ∧ Run OfficeStep sampleOffice ls w ∧
    w.capture.stage = .answered ∧ w.published = [⟨1, 1⟩] ∧ w.capture.draft.revision = 1 ∧
    w.log = [sampleOffice.store, sampleStore] ∧
    sampleStore.sessions.get? "session-1" = some sampleSession ∧
    w.capture.draft.sessions = [] ∧
    sampleStore.relayServers.rows.map RelayServer.health = ["healthy"] ∧
    w.capture.draft.relayServers.map RelayServer.health = ["offline"] := by
  obtain ⟨ls, w, hrun, hlog, hp, ha, hr, hs, hrelay⟩ := sampleOffice_answers 20
  exact ⟨ls, w, sampleOffice_init, hrun, ha, hp, hr, hlog, rfl, hs, rfl, hrelay ▸ rfl⟩

end RemoteControl.Sync
