import RemoteControl.Builds.Claim

/-!
# The life of a client build

A build that is ready keeps its artifact, a worker moves only a build it holds, attempts are counted
up and stop at five: all this holds of the statements as long as a request writes back what is
still so. A request that was overtaken writes an old copy.

> Cancellations and retries are written without a condition, so they may undo a completion and take
> back attempts. Renewals, completions and failures are written if the worker has the lease, which
> it may have got again in the meantime; then they take back the attempt of the new lease.

The condition is therefore on each write: the copy has no fewer attempts than the row, and what is
written without a condition does not meet a build that is ready.
-/

namespace RemoteControl.Builds

open Lib List Table

variable {e : BuildEvent} {row row' v : ClientBuild} {i n : Nat} {b : String}

def Mark.leasesBuild (buildId : String) : Mark → Bool
  | .leased _ found _ => found.id = buildId
  | .requeued _ => false

def ClientBuild.Finished (v : ClientBuild) : Prop := v.status = .ready ∧ v.artifact ≠ ""

instance (v : ClientBuild) : Decidable v.Finished := inferInstanceAs (Decidable (_ ∧ _))

def ClientBuild.SameArtifact (v v' : ClientBuild) : Prop :=
  v'.artifact = v.artifact ∧ v'.artifactName = v.artifactName ∧ v'.mediaType = v.mediaType ∧
    v'.sha256 = v.sha256

namespace Workshop

variable {env : BuildEnv} {w w' : Workshop}

/-- How often a build has been claimed. -/
def leases (w : Workshop) (buildId : String) : Nat := w.history.countP (Mark.leasesBuild buildId)

/-! ## What happens to a row -/

/-- What an event makes of a row, and how many leases it adds. -/
inductive Rewrites (w : Workshop) : BuildEvent → ClientBuild → Nat → ClientBuild → Prop
  | same (e : BuildEvent) (row : ClientBuild) : w.Rewrites e row 0 row
  | leased {i number : Nat} {row : ClientBuild} {workerId : String} {now leaseUntil : Nat}
      (hi : w.pending[i]? = some (.chosen number workerId row.id now leaseUntil))
      (hfree : row.free now = true) :
      w.Rewrites (.lease i) row 1 (row.claimed workerId now leaseUntil)
  | claimed {i now : Nat} {v row : ClientBuild} {workerId : String}
      (hi : w.pending[i]? = some (.claimed v workerId)) (hid : row.id = v.id)
      (hheld : row.heldBy workerId now = true) :
      w.Rewrites (.write i now) row 0 (v.updatedClaimed row)
  | overwritten {i : Nat} (now : Nat) {v row : ClientBuild}
      (hi : w.pending[i]? = some (.overwriting v)) (hid : row.id = v.id) :
      w.Rewrites (.write i now) row 0 (v.updated row)

theorem leases_begin (r? : Option BuildRequest) (b : String) :
    (w.begin r?).leases b = w.leases b := by
  cases r? <;> rfl

theorem builds_begin (r? : Option BuildRequest) : (w.begin r?).builds = w.builds := by
  cases r? <;> rfl

theorem perform_lookup (i : Nat) (o : RowOrder) :
    (w.perform env (.lookup i o)).builds = w.builds ∧
      (w.perform env (.lookup i o)).history = w.history := by
  simp only [perform]
  split
  · unfold answer
    split
    · exact ⟨rfl, rfl⟩
    · exact ⟨rfl, rfl⟩
  · exact ⟨rfl, rfl⟩

theorem leases_overwrite (i : Nat) (v : ClientBuild) (b : String) :
    (w.overwrite i v).leases b = w.leases b := by
  show (ite _ _ _ : List Mark).countP _ = _
  split
  · exact countP_cons_of_neg (by exact Bool.false_ne_true)
  · rfl

theorem perform_lease_row (hb : w.builds.get? b = some row) (i : Nat) :
    ∃ n row', (w.perform env (.lease i)).builds.get? b = some row' ∧
      w.Rewrites (.lease i) row n row' ∧
      (w.perform env (.lease i)).leases b = w.leases b + n := by
  have hsame : ∃ n row', w.builds.get? b = some row' ∧ w.Rewrites (.lease i) row n row' ∧
      w.leases b = w.leases b + n := ⟨0, row, hb, .same _ _, rfl⟩
  simp only [perform]
  split
  · next number workerId buildId now leaseUntil hi =>
    unfold leaseChosen
    split
    · exact hsame
    · next found hfound =>
      split
      · next hfree =>
        have hid : found.id = buildId := get?_key hfound
        show ∃ n row', (leaseBuild _ _ _ _ w.builds).get? b = some row' ∧ _ ∧
          (Mark.leased number found now :: w.history).countP _ = _
        rw [get?_leaseBuild, hb, Option.map_some, countP_cons]
        by_cases hrow : row.id = buildId
        · -- the row is the one that was found
          obtain rfl : found = row := Option.some.inj (by
            rw [← hfound, ← hrow, get?_key hb, hb])
          rw [if_pos (by simp [hid, hfree])]
          refine ⟨1, _, rfl, .leased (hrow ▸ hi) hfree, ?_⟩
          rw [if_pos (by simp [Mark.leasesBuild, get?_key hb])]
          rfl
        · rw [if_neg (by simp [hrow])]
          refine ⟨0, row, rfl, .same _ _, ?_⟩
          have hne : found.id ≠ b := by
            rw [hid, ← get?_key hb]
            exact fun h => hrow h.symm
          rw [if_neg (by simp [Mark.leasesBuild, hne])]
          rfl
      · exact hsame
  · exact hsame

theorem perform_write_row (hb : w.builds.get? b = some row) (i now : Nat) :
    ∃ n row', (w.perform env (.write i now)).builds.get? b = some row' ∧
      w.Rewrites (.write i now) row n row' ∧
      (w.perform env (.write i now)).leases b = w.leases b + n := by
  simp only [perform]
  split
  · next v workerId hi =>
    show ∃ n row', (updateClaimedClientBuild v workerId now w.builds).get? b = some row' ∧ _ ∧
      w.leases b = _
    rw [get?_updateClaimedClientBuild, hb, Option.map_some]
    split
    · next hcond =>
      rw [Bool.and_eq_true, decide_eq_true_eq] at hcond
      exact ⟨0, _, rfl, .claimed hi hcond.1 hcond.2, rfl⟩
    · exact ⟨0, row, rfl, .same _ _, rfl⟩
  · next v hi =>
    rw [leases_overwrite]
    show ∃ n row', (updateClientBuild v w.builds).get? b = some row' ∧ _ ∧ _
    rw [get?_updateClientBuild, hb, Option.map_some]
    split
    · next hid => exact ⟨0, _, rfl, .overwritten now hi hid, rfl⟩
    · exact ⟨0, row, rfl, .same _ _, rfl⟩
  · exact ⟨0, row, hb, .same _ _, rfl⟩

theorem perform_row (env : BuildEnv) (hb : w.builds.get? b = some row) (e : BuildEvent) :
    ∃ n row', (w.perform env e).builds.get? b = some row' ∧ w.Rewrites e row n row' ∧
      (w.perform env e).leases b = w.leases b + n := by
  cases e with
  | lease i => exact perform_lease_row hb i
  | write i now => exact perform_write_row hb i now
  | create id profileId targetOs architecture format createdBy now =>
    refine ⟨0, row, ?_, .same _ _, ?_⟩
    · simp only [perform]
      split
      · exact hb
      · next v _ =>
        show (w.builds.insert v).get? b = some row
        cases hv : w.builds.get? v.id with
        | some _ => rw [insert_of_some hv, hb]
        | none =>
          rw [get?_insert hv, if_neg, hb]
          rintro rfl
          rw [hv] at hb
          cases hb
    · simp only [perform]
      split <;> rfl
  | claim workerId c lease now o =>
    refine ⟨0, row, ?_, .same _ _, leases_begin _ b⟩
    show (w.begin _).builds.get? b = _
    rw [builds_begin, hb]
  | lookup i o =>
    refine ⟨0, row, ?_, .same _ _, ?_⟩
    · rw [(perform_lookup i o).1]
      exact hb
    · exact congrArg (List.countP _) (perform_lookup i o).2
  | abandon i => exact ⟨0, row, hb, .same _ _, rfl⟩
  | _ => exact ⟨0, row, by simp only [perform, builds_begin, hb], .same _ _, leases_begin _ b⟩

theorem Steps.leases_of_none (hs : w.Steps w') (hb : w.builds.get? b = none) :
    w'.leases b = w.leases b := by
  cases hs with
  | leased hi hrow hfree =>
    refine countP_cons_of_neg ?_
    simp only [Mark.leasesBuild, decide_eq_true_eq]
    rintro rfl
    rw [get?_key hrow, hrow] at hb
    cases hb
  | overwritten hi => exact leases_overwrite _ _ b
  | _ => rfl

/-! ## The invariant -/

/-- What is kept as long as attempts are not taken back. -/
structure Orderly (w : Workshop) : Prop where
  ready : ∀ b row, w.builds.get? b = some row → row.status = .ready → row.leaseUntil = none
  claimed : ∀ v workerId, .claimed v workerId ∈ w.pending → v.status = .ready → v.leaseUntil = none
  overwriting : ∀ v, .overwriting v ∈ w.pending → v.status = .queued ∨ v.status = .cancelled
  absent : ∀ b, w.builds.get? b = none → w.leases b = 0
  counted : ∀ b row, w.builds.get? b = some row → w.leases b ≤ row.attempts ∧ w.leases b ≤ 5

/-- The requests in progress after a step were there before or have just begun. -/
theorem Steps.pending (hs : w.Steps w') {r : BuildRequest} (hr : r ∈ w'.pending) :
    r ∈ w.pending ∨ w.Begins r ∨
      ∃ n workerId b leaseUntil, r = .leased n workerId b leaseUntil := by
  cases hs with
  | begun hb claims =>
    rcases mem_append.mp hr with hr | hr
    · exact .inl hr
    · obtain rfl := mem_singleton.mp hr
      exact .inr (.inl hb)
  | leased hi hrow hfree =>
    rcases mem_or_eq_of_mem_set hr with hr | rfl
    · exact .inl hr
    · exact .inr (.inr ⟨_, _, _, _, rfl⟩)
  | idle | counted | created => exact .inl hr
  | _ => exact .inl (mem_of_mem_eraseIdx hr)

theorem Steps.new_row (hs : w.Steps w') (hb : w.builds.get? b = none)
    (hb' : w'.builds.get? b = some row) : row.status = .queued := by
  cases hs with
  | @created v hq ha hl =>
    replace hb' : (w.builds.insert v).get? b = some row := hb'
    cases hv : w.builds.get? v.id with
    | some _ =>
      rw [insert_of_some hv, hb] at hb'
      cases hb'
    | none =>
      rw [get?_insert hv] at hb'
      split at hb'
      · rw [← Option.some.inj hb']
        exact hq
      · rw [hb] at hb'
        cases hb'
  | leased hi hrow hfree =>
    replace hb' : (leaseBuild _ _ _ _ w.builds).get? b = some row := hb'
    rw [get?_leaseBuild, hb] at hb'
    cases hb'
  | claimed now hi =>
    replace hb' : (updateClaimedClientBuild _ _ now w.builds).get? b = some row := hb'
    rw [get?_updateClaimedClientBuild, hb] at hb'
    cases hb'
  | overwritten hi =>
    replace hb' : (updateClientBuild _ w.builds).get? b = some row := hb'
    rw [get?_updateClientBuild, hb] at hb'
    cases hb'
  | idle | counted | begun | dropped | answered => exact absurd (hb.symm.trans hb') (by simp)

theorem Rewrites.ready (h : w.Orderly) (hr : w.Rewrites e row n row')
    (hrow : row.status = .ready → row.leaseUntil = none) (hready : row'.status = .ready) :
    row'.leaseUntil = none := by
  cases hr with
  | same => exact hrow hready
  | leased => cases hready
  | @claimed i now v row workerId hi hid hheld =>
    exact h.claimed v workerId (mem_of_getElem? hi) hready
  | @overwritten i now v row hi hid =>
    rcases h.overwriting v (mem_of_getElem? hi) with hv | hv
    · exact absurd (hv.symm.trans hready) (by decide)
    · exact absurd (hv.symm.trans hready) (by decide)

/-- The leases of a row stay within its attempts and five, if attempts are not taken back. -/
theorem Rewrites.counted {leases : Nat} (hr : w.Rewrites e row n row')
    (hrow : leases ≤ row.attempts ∧ leases ≤ 5) (hle : row.attempts ≤ row'.attempts) :
    leases + n ≤ row'.attempts ∧ leases + n ≤ 5 := by
  cases hr with
  | leased hi hfree =>
    simp only [ClientBuild.free, Bool.and_eq_true, decide_eq_true_eq] at hfree
    show leases + 1 ≤ row.attempts + 1 ∧ leases + 1 ≤ 5
    omega
  | same | claimed | overwritten => exact ⟨by omega, hrow.2⟩

/-! ## The life of a build -/

/-- The event respects the life of every build. -/
structure Proper (env : BuildEnv) (w : Workshop) (e : BuildEvent) : Prop where
  /-- A build that is ready stays so, with its artifact. -/
  finished : ∀ b row, w.builds.get? b = some row → row.Finished →
    ∃ row', (w.perform env e).builds.get? b = some row' ∧ row'.status = .ready ∧
      row.SameArtifact row'
  /-- Only the worker with the lease makes a build building, ready or failed. -/
  holder : ∀ b row row', w.builds.get? b = some row → (w.perform env e).builds.get? b = some row' →
    row' ≠ row → row'.status = .building ∨ row'.status = .ready ∨ row'.status = .failed →
    ∃ i now v workerId, e = .write i now ∧ w.pending[i]? = some (.claimed v workerId) ∧
      row.heldBy workerId now = true
  /-- Attempts are not taken back. -/
  attempts : ∀ b row row', w.builds.get? b = some row →
    (w.perform env e).builds.get? b = some row' →
    row.attempts ≤ row'.attempts
  /-- No build has been claimed more than five times. -/
  five : ∀ b, (w.perform env e).leases b ≤ 5

/-- What a request writes has no fewer attempts than the row, and what is written without a
condition does not meet a build that is ready. -/
def Timely (w : Workshop) : BuildEvent → Prop
  | .write i now =>
    (∀ v workerId row, w.pending[i]? = some (.claimed v workerId) →
      w.builds.get? v.id = some row → row.heldBy workerId now = true →
      row.attempts ≤ v.attempts) ∧
    ∀ v row, w.pending[i]? = some (.overwriting v) → w.builds.get? v.id = some row →
      ¬ row.Finished ∧ row.attempts ≤ v.attempts
  | _ => True

theorem Rewrites.attempts_le (ht : w.Timely e) (hb : w.builds.get? b = some row)
    (hr : w.Rewrites e row n row') : row.attempts ≤ row'.attempts := by
  cases hr with
  | same => exact Nat.le_refl _
  | leased => exact Nat.le_succ _
  | @claimed i now v row workerId hi hid hheld =>
    rw [← get?_key hb, hid] at hb
    exact ht.1 v workerId row hi hb hheld
  | @overwritten i now v row hi hid =>
    rw [← get?_key hb, hid] at hb
    exact (ht.2 v row hi hb).2

theorem Rewrites.finished (h : w.Orderly) (ht : w.Timely e) (hb : w.builds.get? b = some row)
    (hf : row.Finished) (hr : w.Rewrites e row n row') :
    row'.status = .ready ∧ row.SameArtifact row' := by
  obtain ⟨hready, hartifact⟩ := hf
  cases hr with
  | same => exact ⟨hready, rfl, rfl, rfl, rfl⟩
  | leased hi hfree =>
    -- a build that is ready is neither queued nor leased
    simp [ClientBuild.free, ClientBuild.expiredBefore, hready, h.ready b row hb hready] at hfree
  | claimed hi hid hheld => simp [ClientBuild.heldBy, hready, BuildStatus.active] at hheld
  | @overwritten i now v row hi hid =>
    rw [← get?_key hb, hid] at hb
    exact absurd ⟨hready, hartifact⟩ (ht.2 v row hi hb).1

theorem Rewrites.holder (h : w.Orderly) (hr : w.Rewrites e row n row') (hne : row' ≠ row)
    (hs : row'.status = .building ∨ row'.status = .ready ∨ row'.status = .failed) :
    ∃ i now v workerId, e = .write i now ∧ w.pending[i]? = some (.claimed v workerId) ∧
      row.heldBy workerId now = true := by
  cases hr with
  | same => exact absurd rfl hne
  | leased => rcases hs with hs | hs | hs <;> cases hs
  | claimed hi hid hheld => exact ⟨_, _, _, _, rfl, hi, hheld⟩
  | @overwritten i now v row hi hid =>
    replace hs : v.status = .building ∨ v.status = .ready ∨ v.status = .failed := hs
    rcases h.overwriting v (mem_of_getElem? hi) with hv | hv
    · rw [hv] at hs
      exact absurd hs (by decide)
    · rw [hv] at hs
      exact absurd hs (by decide)

theorem Orderly.five (h : w.Orderly) (e : BuildEvent)
    (hle : ∀ b row row', w.builds.get? b = some row →
      (w.perform env e).builds.get? b = some row' → row.attempts ≤ row'.attempts) (b : String) :
    (w.perform env e).leases b ≤ 5 := by
  cases hb : w.builds.get? b with
  | none =>
    rw [(perform_steps e).leases_of_none hb, h.absent b hb]
    omega
  | some row =>
    obtain ⟨n, row', hb', hr, hn⟩ := perform_row env hb e
    rw [hn]
    exact (hr.counted (h.counted b row hb) (hle b row row' hb hb')).2

theorem Orderly.perform (h : w.Orderly) (e : BuildEvent)
    (hle : ∀ b row row', w.builds.get? b = some row →
      (w.perform env e).builds.get? b = some row' → row.attempts ≤ row'.attempts) :
    (w.perform env e).Orderly := by
  have hs : w.Steps (w.perform env e) := perform_steps e
  -- a row after the event comes from one before or is new
  have hrow : ∀ b row', (w.perform env e).builds.get? b = some row' →
      (w.builds.get? b = none ∧ row'.status = .queued) ∨
      ∃ n row, w.builds.get? b = some row ∧ w.Rewrites e row n row' ∧
        (w.perform env e).leases b = w.leases b + n := by
    intro b row' hb'
    cases hb : w.builds.get? b with
    | none => exact .inl ⟨rfl, hs.new_row hb hb'⟩
    | some row =>
      obtain ⟨n, row'', hb'', hr, hn⟩ := perform_row env hb e
      obtain rfl : row'' = row' := Option.some.inj (hb''.symm.trans hb')
      exact .inr ⟨n, row, rfl, hr, hn⟩
  constructor
  · intro b row' hb' hready
    rcases hrow b row' hb' with ⟨-, hq⟩ | ⟨n, row, hb, hr, -⟩
    · rw [hq] at hready
      cases hready
    · exact hr.ready h (h.ready b row hb) hready
  · intro v workerId hv hready
    rcases hs.pending hv with hv | hv | ⟨_, _, _, _, hv⟩
    · exact h.claimed v workerId hv hready
    · cases hv with
      | claimed _ hcopy _ => exact hcopy.unleased hready
    · cases hv
  · intro v hv
    rcases hs.pending hv with hv | hv | ⟨_, _, _, _, hv⟩
    · exact h.overwriting v hv
    · cases hv with
      | overwriting _ hstatus _ => exact hstatus
    · cases hv
  · intro b hb'
    cases hb : w.builds.get? b with
    | none => rw [hs.leases_of_none hb, h.absent b hb]
    | some row =>
      obtain ⟨n, row', hb'', -, -⟩ := perform_row env hb e
      rw [hb'] at hb''
      cases hb''
  · intro b row' hb'
    rcases hrow b row' hb' with ⟨hb, -⟩ | ⟨n, row, hb, hr, hn⟩
    · rw [hs.leases_of_none hb, h.absent b hb]
      omega
    · rw [hn]
      exact hr.counted (h.counted b row hb) (hle b row row' hb hb')

theorem perform_write_claimed (env : BuildEnv) {now : Nat} {workerId : String}
    (hi : w.pending[i]? = some (.claimed v workerId)) (hb : w.builds.get? v.id = some row)
    (hheld : row.heldBy workerId now = true) :
    (w.perform env (.write i now)).builds.get? v.id = some (v.updatedClaimed row) := by
  simp only [perform, hi]
  show (updateClaimedClientBuild v workerId now w.builds).get? v.id = _
  rw [get?_updateClaimedClientBuild, hb, Option.map_some, if_pos]
  simp [get?_key hb, hheld]

theorem perform_write_overwriting (env : BuildEnv) (now : Nat)
    (hi : w.pending[i]? = some (.overwriting v)) (hb : w.builds.get? v.id = some row) :
    (w.perform env (.write i now)).builds.get? v.id = some (v.updated row) := by
  simp only [perform, hi]
  show (updateClientBuild v w.builds).get? v.id = _
  rw [get?_updateClientBuild, hb, Option.map_some, if_pos (get?_key hb)]

theorem proper_iff_timely (h : w.Orderly) (e : BuildEvent) : w.Proper env e ↔ w.Timely e := by
  constructor
  · intro hp
    cases e with
    | write i now =>
      refine ⟨fun v workerId row hi hb hheld => ?_, fun v row hi hb => ⟨fun hf => ?_, ?_⟩⟩
      · exact hp.attempts v.id row (v.updatedClaimed row) hb (perform_write_claimed env hi hb hheld)
      · -- a cancellation or a retry is not ready
        obtain ⟨row', hb', hready, -⟩ := hp.finished v.id row hb hf
        rw [perform_write_overwriting env now hi hb] at hb'
        cases hb'
        replace hready : v.status = .ready := hready
        rcases h.overwriting v (mem_of_getElem? hi) with hv | hv
        · exact absurd (hv.symm.trans hready) (by decide)
        · exact absurd (hv.symm.trans hready) (by decide)
      · exact hp.attempts v.id row (v.updated row) hb (perform_write_overwriting env now hi hb)
    | _ => trivial
  · intro ht
    have hle : ∀ b row row', w.builds.get? b = some row →
        (w.perform env e).builds.get? b = some row' → row.attempts ≤ row'.attempts := by
      intro b row row' hb hb'
      obtain ⟨n, row'', hb'', hr, -⟩ := perform_row env hb e
      obtain rfl : row'' = row' := Option.some.inj (hb''.symm.trans hb')
      exact hr.attempts_le ht hb
    refine ⟨fun b row hb hf => ?_, fun b row row' hb hb' hne hs => ?_, hle, h.five e hle⟩
    · obtain ⟨n, row', hb', hr, -⟩ := perform_row env hb e
      exact ⟨row', hb', hr.finished h ht hb hf⟩
    · obtain ⟨n, row'', hb'', hr, -⟩ := perform_row env hb e
      obtain rfl : row'' = row' := Option.some.inj (hb''.symm.trans hb')
      exact hr.holder h hne hs

/-- Nothing is in progress, and builds that are ready are not leased. -/
structure Opening (w : Workshop) : Prop extends Idle w where
  ready : ∀ b row, w.builds.get? b = some row → row.status = .ready → row.leaseUntil = none

theorem Opening.orderly (h : w.Opening) : w.Orderly where
  ready := h.ready
  claimed := by
    intro v workerId hv
    rw [h.pending] at hv
    cases hv
  overwriting := by
    intro v hv
    rw [h.pending] at hv
    cases hv
  absent := by
    intro b _
    unfold leases
    rw [h.history]
    rfl
  counted := by
    intro b row _
    unfold leases
    rw [h.history]
    exact ⟨Nat.zero_le _, Nat.zero_le _⟩

/-- **The life of a build**, in every run: a build that is ready stays so with its artifact, only
the worker with the lease moves it, attempts are not taken back and nothing is claimed more than
five times, if and only if no request writes a copy with fewer attempts than the row, and no
cancellation or retry meets a build that is ready. -/
theorem life_kept_iff (hw : w.Opening) (events : List BuildEvent) :
    Throughout (perform env) (Proper env) w events ↔ Throughout (perform env) Timely w events :=
  throughout_congr (I := Orderly) (fun _ e h hp => h.perform e hp.attempts)
    (fun _ e h => proper_iff_timely h e) hw.orderly events

/-! ### One request at a time -/

/-- Nobody but the request `i` has a copy of the build. -/
def Alone (w : Workshop) (i : Nat) (buildId : String) : Prop :=
  ∀ j r v, j ≠ i → w.pending[j]? = some r → r.copy? = some v → v.id ≠ buildId

/-- No build is leased or written while another request has a copy of it. -/
def Exclusive (w : Workshop) : BuildEvent → Prop
  | .lease i => ∀ number workerId buildId now leaseUntil,
      w.pending[i]? = some (.chosen number workerId buildId now leaseUntil) → w.Alone i buildId
  | .write i _ => ∀ r v, w.pending[i]? = some r → r.copy? = some v → w.Alone i v.id
  | _ => True

/-- The row has the attempts of the copy. What is to be overwritten is not ready: this is what
`cancelClientBuild` and `retryClientBuild` have checked. -/
structure Current (w : Workshop) (r : BuildRequest) (v : ClientBuild) : Prop where
  row : ∃ row, w.builds.get? v.id = some row ∧ v.attempts = row.attempts
  unfinished : r = .overwriting v → Open w.builds v

theorem timely_of_current (h : ∀ r ∈ w.pending, ∀ v ∈ r.copy?, w.Current r v) (e : BuildEvent) :
    w.Timely e := by
  cases e with
  | write i now =>
    refine ⟨fun v workerId row hi hb _ => ?_, fun v row hi hb => ⟨fun hf => ?_, ?_⟩⟩
    all_goals have hc := h _ (mem_of_getElem? hi) v rfl
    · obtain ⟨row', hb', ha⟩ := hc.row
      obtain rfl : row' = row := Option.some.inj (hb'.symm.trans hb)
      exact ha.ge
    · exact hc.unfinished rfl row hb hf.1
    · obtain ⟨row', hb', ha⟩ := hc.row
      obtain rfl : row' = row := Option.some.inj (hb'.symm.trans hb)
      exact ha.ge
  | _ => trivial

theorem Rewrites.untouched {j : Nat} {r : BuildRequest} (hr : w.Rewrites e row n row')
    (he : w.Exclusive e) (hj : w.pending[j]? = some r) (hv : r.copy? = some v)
    (hid : row.id = v.id) (hother : ∀ now, e ≠ .write j now) : row' = row := by
  cases hr with
  | same => rfl
  | @leased i number row workerId now leaseUntil hi hfree =>
    have hne : j ≠ i := by
      rintro rfl
      cases hj.symm.trans hi
      cases hv
    exact absurd hid.symm (he _ _ _ _ _ hi j r v hne hj hv)
  | @claimed i now v' row workerId hi hid' hheld =>
    have hne : j ≠ i := fun h => hother now (by rw [h])
    exact absurd (hid.symm.trans hid') (he _ v' hi rfl j r v hne hj hv)
  | @overwritten i now v' row hi hid' =>
    have hne : j ≠ i := fun h => hother now (by rw [h])
    exact absurd (hid.symm.trans hid') (he _ v' hi rfl j r v hne hj hv)

/-- A request that has a copy was there before and is not the one that is written, or it begins
and no row changes. -/
theorem pending_perform (e : BuildEvent) {r : BuildRequest}
    (hr : r ∈ (w.perform env e).pending) (hv : r.copy? = some v) :
    (∃ j, w.pending[j]? = some r ∧ ∀ now, e ≠ .write j now) ∨
      w.Begins r ∧ ∀ row n row', w.Rewrites e row n row' → row' = row := by
  cases e with
  | write i now =>
    left
    have hkept : ∃ j, j ≠ i ∧ w.pending[j]? = some r := by
      simp only [perform] at hr
      split at hr
      · exact mem_eraseIdx_iff_getElem?.mp hr
      · exact mem_eraseIdx_iff_getElem?.mp hr
      · next hclaimed hoverwriting =>
        obtain ⟨j, hj⟩ := mem_iff_getElem?.mp hr
        refine ⟨j, ?_, hj⟩
        rintro rfl
        cases r with
        | claimed v workerId => exact hclaimed v workerId hj
        | overwriting v => exact hoverwriting v hj
        | _ => cases hv
    obtain ⟨j, hne, hj⟩ := hkept
    refine ⟨j, hj, fun now' heq => hne ?_⟩
    cases heq
    rfl
  | lease i =>
    have hkept : r ∈ w.pending := by
      simp only [perform, leaseChosen] at hr
      split at hr
      · split at hr
        · exact mem_of_mem_eraseIdx hr
        · split at hr
          · rcases mem_or_eq_of_mem_set hr with hr | rfl
            · exact hr
            · cases hv
          · exact mem_of_mem_eraseIdx hr
      · exact hr
    obtain ⟨j, hj⟩ := mem_iff_getElem?.mp hkept
    refine .inl ⟨j, hj, fun now heq => ?_⟩
    cases heq
  | _ =>
    rcases (perform_steps _).pending hr with hr | hbegins | ⟨_, _, _, _, rfl⟩
    · obtain ⟨j, hj⟩ := mem_iff_getElem?.mp hr
      refine .inl ⟨j, hj, fun now heq => ?_⟩
      cases heq
    · refine .inr ⟨hbegins, fun row n row' hrewrites => ?_⟩
      cases hrewrites
      rfl
    · cases hv

theorem current_perform (h : ∀ r ∈ w.pending, ∀ v ∈ r.copy?, w.Current r v)
    (he : w.Exclusive e) : ∀ r ∈ (w.perform env e).pending, ∀ v ∈ r.copy?,
      (w.perform env e).Current r v := by
  intro r hr v hv
  obtain ⟨⟨⟨row, hb, ha⟩, hopen⟩, hsame⟩ : w.Current r v ∧ ∀ row n row',
      w.builds.get? v.id = some row → w.Rewrites e row n row' → row' = row := by
    rcases pending_perform e hr hv with ⟨j, hj, hother⟩ | ⟨hbegins, hsame⟩
    · exact ⟨h r (mem_of_getElem? hj) v hv, fun row n row' hb hrewrites =>
        hrewrites.untouched he hj hv (get?_key hb) hother⟩
    · refine ⟨?_, fun row n row' _ => hsame row n row'⟩
      cases hbegins with
      | chosen => cases hv
      | claimed _ hcopy =>
        cases hv
        exact ⟨hcopy.row, nofun⟩
      | overwriting hcopy _ hopen =>
        cases hv
        exact ⟨hcopy.row, fun _ => hopen⟩
  obtain ⟨n, row', hb', hrewrites, -⟩ := perform_row env hb e
  obtain rfl := hsame row n row' hb hrewrites
  exact ⟨⟨_, hb', ha⟩, fun heq row hrow => hopen heq row (hb.trans (hb'.symm.trans hrow))⟩

/-- The life of a build is kept where nothing is leased or written between another request's read
and its write. -/
theorem life_kept_of_exclusive (hw : w.Opening) {events : List BuildEvent}
    (h : Throughout (perform env) Exclusive w events) :
    Throughout (perform env) (Proper env) w events := by
  have hproper : ∀ (w : Workshop) e, w.Orderly ∧ (∀ r ∈ w.pending, ∀ v ∈ r.copy?, w.Current r v) →
      w.Proper env e := fun _ e hi => (proper_iff_timely hi.1 e).mpr (timely_of_current hi.2 e)
  refine h.implies (fun w e hi he => ⟨hi.1.perform e (hproper w e hi).attempts,
    current_perform hi.2 he⟩) (fun w e hi _ => hproper w e hi) ⟨hw.orderly, ?_⟩
  rw [hw.pending]
  exact nofun

/-! ### Copies that are written late -/

def emptyShop : Workshop := ⟨Table.empty, [], 0, [], []⟩

theorem emptyShop_opening : emptyShop.Opening where
  pending := rfl
  history := rfl
  answers := rfl
  ready := fun _ _ h => nomatch h

def ordered : BuildEvent := .create "a" "profile" "linux" "amd64" "portable" "root" 1

/-- A claim from beginning to end, with nothing else in progress. -/
def taken (now : Nat) : List BuildEvent :=
  [.claim "worker" builder 60000 now inOrder, .lease 0, .lookup 0 inOrder]

/-- An administrator cancels the build, and the worker completes it before that is written. -/
def lateCancellation : List BuildEvent :=
  ordered :: taken 10 ++ [.cancel "a" 20, .complete "a" "worker" "client" "" "" [1] 20,
    .write 1 20, .write 0 20]

def completed : ClientBuild :=
  { portable "a" 1 with
    status := .ready
    artifactName := "client"
    mediaType := "application/octet-stream"
    artifact := "base64:"
    workerId := "worker"
    attempts := 1
    startedAt := some 10
    completedAt := some 20 }

/-- Two retries of one failure; the build is claimed between their writes, and four times more. -/
def lateRetry : List BuildEvent :=
  ordered :: taken 10 ++ [.fail "a" "worker" "" 20, .write 0 20, .retry "a", .retry "a",
    .write 0 30,
    .claim "worker" builder 60000 40 inOrder, .lease 1, .lookup 1 inOrder, .write 0 50] ++
    taken 60 ++ taken 70000 ++ taken 140000 ++ taken 210000

/-- In the first run a build that was ready is cancelled. In the second one attempts are taken back,
and in the end the build has been claimed six times. -/
theorem late_copies_undo :
    (lateCancellation.dropLast.foldl (perform plainEnv) emptyShop).builds.rows = [completed] ∧
      (lateCancellation.foldl (perform plainEnv) emptyShop).builds.rows.map
        (fun v => v.status) = [.cancelled] ∧
      ¬ Throughout (perform plainEnv) (Proper plainEnv) emptyShop lateCancellation ∧
      (lateRetry.foldl (perform plainEnv) emptyShop).leases "a" = 6 ∧
      ¬ Throughout (perform plainEnv) (Proper plainEnv) emptyShop lateRetry := by
  refine ⟨by decide, by decide, fun h => ?_, by decide, fun h => ?_⟩
  · have hlast := h lateCancellation.dropLast (.write 0 20) ⟨[], rfl⟩
    have hready : ((lateCancellation.foldl (perform plainEnv) emptyShop).builds.get? "a").map
        (fun v => v.status) = some .ready := by
      obtain ⟨row', hb', hready, -⟩ := hlast.finished "a" completed (by rfl) (by decide)
      exact Option.map_eq_some_iff.mpr ⟨row', hb', hready⟩
    exact absurd hready (by decide)
  · have hlast := h lateRetry.dropLast (.lookup 0 inOrder) ⟨[], rfl⟩
    exact absurd (hlast.five "a") (by decide)

/-- One build, claimed, renewed and completed. -/
def undisturbed : List BuildEvent :=
  ordered :: taken 10 ++ [.renew "a" "worker" 60000 20, .write 0 20,
    .complete "a" "worker" "client" "" "" [1] 30, .write 0 30, .cancel "a" 40]

theorem undisturbed_proper :
    Throughout (perform plainEnv) Timely emptyShop undisturbed ∧
      Throughout (perform plainEnv) (Proper plainEnv) emptyShop undisturbed := by
  have htimely : Throughout (perform plainEnv) Timely emptyShop undisturbed := by
    unfold undisturbed taken
    simp only [cons_append, nil_append]
    repeat rw [throughout_cons]
    refine ⟨trivial, trivial, trivial, trivial, trivial, ⟨?_, ?_⟩, trivial, ⟨?_, ?_⟩, trivial,
      throughout_nil _ _⟩
    · intro v workerId row hi hb _
      cases hi
      cases hb
      decide
    · intro v row hi _
      cases hi
    · intro v workerId row hi hb _
      cases hi
      cases hb
      decide
    · intro v row hi _
      cases hi
  exact ⟨htimely, (life_kept_iff emptyShop_opening undisturbed).mpr htimely⟩

end Workshop

end RemoteControl.Builds
