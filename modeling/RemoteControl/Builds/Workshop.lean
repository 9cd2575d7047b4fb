import RemoteControl.Lib.Events
import RemoteControl.Builds.Store

/-!
# Builds and their requests in progress

`Workshop` is the table of builds with all the requests that are between two of their statements.
A claim has three: a subquery picks a build, the statement around it leases the build if it is
still free, and a query looks for what was leased. SQLite does the first two in one go; in
PostgreSQL another statement may come in between.

For the proofs it is recorded which builds were leased to which claim, when a build was queued
again, and what the claims were answered.
-/

namespace RemoteControl.Builds

open Lib Option

variable {lease : Int} {now : Nat} {buildId workerId : String}

/-- A request that has not written yet, or a claim that has not been answered. -/
inductive BuildRequest
  | chosen (number : Nat) (workerId buildId : String) (now leaseUntil : Nat)
  | leased (number : Nat) (workerId buildId : String) (leaseUntil : Nat)
  /-- To be written if the worker has the lease. -/
  | claimed (v : ClientBuild) (workerId : String)
  /-- To be written in any case. -/
  | overwriting (v : ClientBuild)

/-- The copy that a request is going to write. -/
def BuildRequest.copy? : BuildRequest → Option ClientBuild
  | .claimed v _ | .overwriting v => some v
  | _ => none

/-- What has happened to a build: it was leased, in the state `found`, or it was queued again. -/
inductive Mark
  | leased (number : Nat) (found : ClientBuild) (now : Nat)
  | requeued (buildId : String)
deriving DecidableEq

structure Workshop where
  builds : BuildTable
  pending : List BuildRequest
  /-- The number of claims. -/
  claims : Nat
  /-- The latest mark comes first. -/
  history : List Mark
  /-- The claims that were successful, with the builds they were given. -/
  answers : List (Nat × String)

inductive BuildEvent
  | create (id profileId targetOs architecture format createdBy : String) (now : Nat)
  | claim (workerId : String) (c : Capabilities) (lease : Int) (now : Nat) (o : RowOrder)
  | lease (i : Nat)
  | lookup (i : Nat) (o : RowOrder)
  | renew (buildId workerId : String) (lease : Int) (now : Nat)
  | complete (buildId workerId name mediaType expectedSha : String) (artifact : List UInt8)
      (now : Nat)
  | fail (buildId workerId message : String) (now : Nat)
  | cancel (buildId : String) (now : Nat)
  | retry (buildId : String)
  | write (i : Nat) (now : Nat)
  | abandon (i : Nat)

namespace Workshop

variable (env : BuildEnv)

def begin (w : Workshop) : Option BuildRequest → Workshop
  | none => w
  | some r => { w with pending := w.pending ++ [r] }

def drop (w : Workshop) (i : Nat) : Workshop := { w with pending := w.pending.eraseIdx i }

/-- The checks of a claim and its subquery. -/
def choose (w : Workshop) (workerId : String) (c : Capabilities) (lease : Int) (now : Nat)
    (o : RowOrder) : Option BuildRequest :=
  (claimBuild env workerId c).bind fun (workerId, c) =>
    (oldest o (fun row => row.claimable c now) w.builds).map fun row =>
      .chosen w.claims workerId row.id now (now + leaseDuration lease)

/-- The statement of a claim, for the build that was picked. -/
def leaseChosen (w : Workshop) (i number : Nat) (workerId buildId : String)
    (now leaseUntil : Nat) : Workshop :=
  match w.builds.get? buildId with
  | none => w.drop i
  | some row =>
    if row.free now then
      { w with
        builds := leaseBuild buildId workerId now leaseUntil w.builds
        pending := w.pending.set i (.leased number workerId buildId leaseUntil)
        history := .leased number row now :: w.history }
    else w.drop i

/-- The build that the query of a claim finds. -/
def found (w : Workshop) (workerId : String) (leaseUntil : Nat) (o : RowOrder) :
    Option ClientBuild :=
  oldest o (fun row => row.leasedTo workerId leaseUntil) w.builds

def answer (w : Workshop) (i number : Nat) : Option ClientBuild → Workshop
  | none => w.drop i
  | some row => { w with answers := (number, row.id) :: w.answers }.drop i

def overwrite (w : Workshop) (i : Nat) (v : ClientBuild) : Workshop :=
  { w with
    builds := updateClientBuild v w.builds
    history :=
      if v.status = BuildStatus.queued then .requeued v.id :: w.history else w.history }.drop i

def perform (w : Workshop) : BuildEvent → Workshop
  | .create id profileId targetOs architecture format createdBy now =>
    match createBuild env id profileId targetOs architecture format createdBy now with
    | none => w
    | some v => { w with builds := w.builds.insert v }
  | .claim workerId c lease now o =>
    { w.begin (w.choose env workerId c lease now o) with claims := w.claims + 1 }
  | .lease i =>
    match w.pending[i]? with
    | some (.chosen number workerId buildId now leaseUntil) =>
      w.leaseChosen i number workerId buildId now leaseUntil
    | _ => w
  | .lookup i o =>
    match w.pending[i]? with
    | some (.leased number workerId _ leaseUntil) =>
      w.answer i number (w.found workerId leaseUntil o)
    | _ => w
  | .renew buildId workerId lease now =>
    w.begin ((renewBuild env buildId workerId lease now w.builds).map (.claimed · workerId))
  | .complete buildId workerId name mediaType expectedSha artifact now =>
    w.begin ((completeBuild env buildId workerId name mediaType expectedSha artifact now
      w.builds).map (.claimed · workerId))
  | .fail buildId workerId message now =>
    w.begin ((failBuild env buildId workerId message now w.builds).map (.claimed · workerId))
  | .cancel buildId now => w.begin ((cancelClientBuild buildId now w.builds).map .overwriting)
  | .retry buildId => w.begin ((retryClientBuild buildId w.builds).map .overwriting)
  | .write i now =>
    match w.pending[i]? with
    | some (.claimed v workerId) =>
      { w with builds := updateClaimedClientBuild v workerId now w.builds }.drop i
    | some (.overwriting v) => w.overwrite i v
    | _ => w
  | .abandon i => w.drop i

end Workshop

/-! ## What requests have read -/

/-- The copy of a row, as a request is going to write it. -/
structure CopyOf (builds : BuildTable) (v : ClientBuild) : Prop where
  row : ∃ row, builds.get? v.id = some row ∧ v.attempts = row.attempts
  unleased : v.status = .ready → v.leaseUntil = none

/-- The row is not ready. -/
def Open (builds : BuildTable) (v : ClientBuild) : Prop :=
  ∀ row, builds.get? v.id = some row → row.status ≠ .ready

section

variable {env : BuildEnv} {builds : BuildTable} {v : ClientBuild}

theorem ownedActiveBuild_spec (h : ownedActiveBuild env buildId workerId now builds = some v) :
    builds.get? v.id = some v := by
  obtain ⟨hv, -⟩ := filter_eq_some_iff.mp h
  rw [Table.get?_key hv]
  exact hv

theorem renewBuild_spec (h : renewBuild env buildId workerId lease now builds = some v) :
    CopyOf builds v ∧ v.status = .building := by
  obtain ⟨row, hrow, rfl⟩ := map_eq_some_iff.mp h
  exact ⟨⟨⟨row, ownedActiveBuild_spec hrow, rfl⟩, nofun⟩, rfl⟩

theorem completeBuild_spec {name mediaType expectedSha : String} {artifact : List UInt8}
    (h : completeBuild env buildId workerId name mediaType expectedSha artifact now builds
      = some v) : CopyOf builds v ∧ v.status = .ready := by
  obtain ⟨row, hrow, h⟩ := bind_eq_some_iff.mp h
  dsimp only at h
  split at h
  · cases h
  split at h
  · cases h
  cases h
  exact ⟨⟨⟨row, ownedActiveBuild_spec hrow, rfl⟩, fun _ => rfl⟩, rfl⟩

theorem failBuild_spec {message : String}
    (h : failBuild env buildId workerId message now builds = some v) :
    CopyOf builds v ∧ v.status = .failed := by
  obtain ⟨row, hrow, rfl⟩ := map_eq_some_iff.mp h
  exact ⟨⟨⟨row, ownedActiveBuild_spec hrow, rfl⟩, nofun⟩, rfl⟩

theorem cancelClientBuild_spec (h : cancelClientBuild buildId now builds = some v) :
    CopyOf builds v ∧ v.status = .cancelled ∧ Open builds v := by
  obtain ⟨row, hrow, h⟩ := bind_eq_some_iff.mp h
  rw [← Table.get?_key hrow] at hrow
  split at h
  · next hguard =>
    cases h
    refine ⟨⟨⟨row, hrow, rfl⟩, nofun⟩, rfl, fun row' hrow' hready => ?_⟩
    obtain rfl : row = row' := Option.some.inj (hrow.symm.trans hrow')
    simp [hready, BuildStatus.active] at hguard
  · cases h

theorem retryClientBuild_spec (h : retryClientBuild buildId builds = some v) :
    CopyOf builds v ∧ v.status = .queued ∧ Open builds v := by
  obtain ⟨row, hrow, h⟩ := bind_eq_some_iff.mp h
  rw [← Table.get?_key hrow] at hrow
  split at h
  · next hguard =>
    cases h
    refine ⟨⟨⟨row, hrow, rfl⟩, nofun⟩, rfl, fun row' hrow' hready => ?_⟩
    obtain rfl : row = row' := Option.some.inj (hrow.symm.trans hrow')
    simp [hready] at hguard
  · cases h

theorem createBuild_spec {id profileId targetOs architecture format createdBy : String}
    (h : createBuild env id profileId targetOs architecture format createdBy now = some v) :
    v.status = .queued ∧ v.attempts = 0 ∧ v.leaseUntil = none := by
  unfold createBuild at h
  dsimp only at h
  split at h
  · cases h
  split at h
  · cases h
  cases h
  exact ⟨rfl, rfl, rfl⟩

end

/-! ## What an event can do -/

namespace Workshop

inductive Begins (w : Workshop) : BuildRequest → Prop
  | chosen (workerId buildId : String) (now leaseUntil : Nat) :
      w.Begins (.chosen w.claims workerId buildId now leaseUntil)
  | claimed {v : ClientBuild} (workerId : String) (hv : CopyOf w.builds v)
      (hs : v.status = .building ∨ v.status = .ready ∨ v.status = .failed) :
      w.Begins (.claimed v workerId)
  | overwriting {v : ClientBuild} (hv : CopyOf w.builds v)
      (hs : v.status = .queued ∨ v.status = .cancelled) (hopen : Open w.builds v) :
      w.Begins (.overwriting v)

inductive Steps (w : Workshop) : Workshop → Prop
  | idle : w.Steps w
  | counted : w.Steps { w with claims := w.claims + 1 }
  | begun {r : BuildRequest} (hr : w.Begins r) (claims : Nat) :
      w.Steps { w with pending := w.pending ++ [r], claims }
  | dropped (i : Nat) : w.Steps (w.drop i)
  | created {v : ClientBuild} (hs : v.status = .queued) (ha : v.attempts = 0)
      (hl : v.leaseUntil = none) : w.Steps { w with builds := w.builds.insert v }
  | leased {i number : Nat} {workerId buildId : String} {now leaseUntil : Nat} {row : ClientBuild}
      (hi : w.pending[i]? = some (.chosen number workerId buildId now leaseUntil))
      (hrow : w.builds.get? buildId = some row) (hfree : row.free now = true) :
      w.Steps { w with
        builds := leaseBuild buildId workerId now leaseUntil w.builds
        pending := w.pending.set i (.leased number workerId buildId leaseUntil)
        history := .leased number row now :: w.history }
  | answered {i number : Nat} {workerId buildId : String} {leaseUntil : Nat} {o : RowOrder}
      {row : ClientBuild}
      (hi : w.pending[i]? = some (.leased number workerId buildId leaseUntil))
      (hrow : w.found workerId leaseUntil o = some row) :
      w.Steps ({ w with answers := (number, row.id) :: w.answers }.drop i)
  | claimed {i : Nat} {v : ClientBuild} {workerId : String} (now : Nat)
      (hi : w.pending[i]? = some (.claimed v workerId)) :
      w.Steps ({ w with builds := updateClaimedClientBuild v workerId now w.builds }.drop i)
  | overwritten {i : Nat} {v : ClientBuild} (hi : w.pending[i]? = some (.overwriting v)) :
      w.Steps (w.overwrite i v)

variable {env : BuildEnv} {w : Workshop}

theorem steps_begin {r? : Option BuildRequest} (h : ∀ r, r? = some r → w.Begins r) :
    w.Steps (w.begin r?) := by
  cases r? with
  | none => exact .idle
  | some r => exact .begun (h r rfl) w.claims

theorem steps_copy {v? : Option ClientBuild} {f : ClientBuild → BuildRequest}
    (h : ∀ v, v? = some v → w.Begins (f v)) : w.Steps (w.begin (v?.map f)) := by
  refine steps_begin fun r hr => ?_
  obtain ⟨v, hv, rfl⟩ := map_eq_some_iff.mp hr
  exact h v hv

theorem choose_spec {c : Capabilities} {o : RowOrder} {r : BuildRequest}
    (h : w.choose env workerId c lease now o = some r) : w.Begins r := by
  obtain ⟨_, -, h⟩ := bind_eq_some_iff.mp h
  obtain ⟨row, -, rfl⟩ := map_eq_some_iff.mp h
  exact .chosen _ _ _ _

theorem perform_steps (e : BuildEvent) : w.Steps (w.perform env e) := by
  cases e with
  | create id profileId targetOs architecture format createdBy now =>
    simp only [perform]
    split
    · exact .idle
    · next hv =>
      obtain ⟨hs, ha, hl⟩ := createBuild_spec hv
      exact .created hs ha hl
  | claim workerId c lease now o =>
    simp only [perform]
    cases hr : w.choose env workerId c lease now o with
    | none => exact .counted
    | some r => exact .begun (choose_spec hr) _
  | lease i =>
    simp only [perform]
    split
    · next hi =>
      unfold leaseChosen
      split
      · exact .dropped i
      · next hrow =>
        split
        · next hfree => exact .leased hi hrow hfree
        · exact .dropped i
    · exact .idle
  | lookup i o =>
    simp only [perform]
    split
    · next hi =>
      unfold answer
      split
      · exact .dropped i
      · next hrow => exact .answered hi hrow
    · exact .idle
  | renew =>
    exact steps_copy fun v hv =>
      .claimed _ (renewBuild_spec hv).1 (.inl (renewBuild_spec hv).2)
  | complete =>
    exact steps_copy fun v hv =>
      .claimed _ (completeBuild_spec hv).1 (.inr (.inl (completeBuild_spec hv).2))
  | fail =>
    exact steps_copy fun v hv =>
      .claimed _ (failBuild_spec hv).1 (.inr (.inr (failBuild_spec hv).2))
  | cancel =>
    exact steps_copy fun v hv =>
      have ⟨hcopy, hstatus, hopen⟩ := cancelClientBuild_spec hv
      .overwriting hcopy (.inr hstatus) hopen
  | retry =>
    exact steps_copy fun v hv =>
      have ⟨hcopy, hstatus, hopen⟩ := retryClientBuild_spec hv
      .overwriting hcopy (.inl hstatus) hopen
  | write i now =>
    simp only [perform]
    split
    · next hi => exact .claimed now hi
    · next hi => exact .overwritten hi
    · exact .idle
  | abandon i => exact .dropped i

end Workshop

end RemoteControl.Builds
