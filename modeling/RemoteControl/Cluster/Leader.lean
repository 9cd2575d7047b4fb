import RemoteControl.Lib.Events

/-!
# One worker in the cluster

`RunLeader` of `cluster/coordinator.go` is to keep one worker of a task active in a cluster of API
nodes. A node asks the database for the lease of the task every third of its duration, starts the
worker when it gets the lease, and cancels it when it does not get it or the database fails.

> Cancelling is a message. Nobody waits for the worker to return, and nobody looks at the clock
> between two questions.

So a worker may go on when its node has lost the lease, and when its node has the lease again and
starts another one.
-/

namespace RemoteControl.Cluster

open Lib List

variable {now : Nat} {node ownerId : String}

/-! ## The lease -/

/-- The row of `cluster_leases` for the task. -/
structure Lease where
  ownerId : String
  expiresAt : Nat
deriving DecidableEq, Repr

variable {l : Lease}

/-- `AcquireClusterLease`: the row afterwards, and whether one was written. -/
def acquireClusterLease (ownerId : String) (now expiresAt : Nat) :
    Option Lease → Bool × Option Lease
  | none => (true, some ⟨ownerId, expiresAt⟩)
  | some l =>
    if l.ownerId = ownerId ∨ l.expiresAt ≤ now then (true, some ⟨ownerId, expiresAt⟩)
    else (false, some l)

def releaseClusterLease (ownerId : String) (lease : Option Lease) : Option Lease :=
  lease.filter fun l => l.ownerId ≠ ownerId

/-- The duration that `RunLeader` uses. -/
def leaseTtl (ttl : Nat) : Nat := max ttl 3000

/-! ## Nodes and workers -/

/-- Where `RunLeader` is. -/
inductive Phase
  /-- It has not begun, or has returned. -/
  | absent
  /-- It waits for the ticker or the end of its context. -/
  | waiting
  /-- `Acquire` has read the clock. -/
  | asking (now : Nat)
  /-- `Acquire` has returned; an error counts as no. -/
  | answered (owned : Bool)
  /-- The context is done and the worker cancelled. -/
  | leaving
deriving DecidableEq, Repr

/-- `RunLeader` on a node, with the worker that `cancel` is of. -/
structure Leader where
  phase : Phase
  cancel : Option Nat
deriving DecidableEq, Repr

def Leader.absent : Leader := ⟨.absent, none⟩

/-- A worker that has not returned. -/
structure Worker where
  number : Nat
  node : String
deriving DecidableEq, Repr

/-- What becomes of a statement: it is executed, it fails, or it is executed and the answer is
lost. -/
inductive DbFault
  | none | failed | lost
deriving DecidableEq, Repr

structure Fleet where
  /-- The clock that all nodes read. -/
  now : Nat
  lease : Option Lease
  leader : String → Leader
  workers : List Worker
  /-- The number of workers that were started. -/
  started : Nat

variable {w' : Fleet}

inductive FleetEvent
  | tick (elapsed : Nat)
  | launch (node : String)
  | ask (node : String)
  | execute (node : String) (fault : DbFault)
  | act (node : String)
  | done (node : String)
  | release (node : String) (fault : DbFault)
  | finish (number : Nat)
  | crash (node : String)
deriving DecidableEq, Repr

variable {e : FleetEvent}

namespace Fleet

def setLeader (w : Fleet) (node : String) (l : Leader) : Fleet :=
  { w with leader := fun n => if n = node then l else w.leader n }

/-- The statement of `Acquire`, with the time that was read before. -/
def execute (ttl : Nat) (w : Fleet) (node : String) (now : Nat) (fault : DbFault) : Fleet :=
  let (owned, lease) := acquireClusterLease node now (now + leaseTtl ttl) w.lease
  let l := w.leader node
  match fault with
  | .none => { w with lease }.setLeader node { l with phase := .answered owned }
  | .failed => w.setLeader node { l with phase := .answered false }
  | .lost => { w with lease }.setLeader node { l with phase := .answered false }

/-- The rest of `reconcile`. -/
def act (w : Fleet) (node : String) (owned : Bool) : Fleet :=
  if owned = false then w.setLeader node ⟨.waiting, none⟩
  else match (w.leader node).cancel with
    | some number => w.setLeader node ⟨.waiting, some number⟩
    | none =>
      { w with
        workers := ⟨w.started, node⟩ :: w.workers
        started := w.started + 1 }.setLeader node ⟨.waiting, some w.started⟩

/-- Cancelled workers are not told apart: they may take any number of steps, as the others. -/
def perform (ttl : Nat) (w : Fleet) : FleetEvent → Fleet
  | .tick elapsed => { w with now := w.now + elapsed }
  | .launch node =>
    if (w.leader node).phase = .absent then w.setLeader node ⟨.waiting, none⟩ else w
  | .ask node =>
    if (w.leader node).phase = .waiting then
      w.setLeader node { w.leader node with phase := .asking w.now }
    else w
  | .execute node fault =>
    match (w.leader node).phase with
    | .asking now => w.execute ttl node now fault
    | _ => w
  | .act node =>
    match (w.leader node).phase with
    | .answered owned => w.act node owned
    | _ => w
  | .done node =>
    if (w.leader node).phase = .waiting then w.setLeader node ⟨.leaving, none⟩ else w
  | .release node fault =>
    if (w.leader node).phase = .leaving then
      let lease := match fault with
        | .failed => w.lease
        | .none | .lost => releaseClusterLease node w.lease
      { w with lease }.setLeader node .absent
    else w
  | .finish number => { w with workers := w.workers.filter fun v => v.number ≠ number }
  | .crash node =>
    { w with workers := w.workers.filter fun v => v.node ≠ node }.setLeader node .absent

/-- No node has begun. -/
def Start (w : Fleet) : Prop := w.workers = [] ∧ ∀ node, w.leader node = .absent

/-! ## What is to hold -/

/-- There are no two workers. -/
def Exclusive (w : Fleet) : Prop := w.workers.length ≤ 1

/-- The event starts a worker on the node. -/
def Starts (w : Fleet) (node : String) : FleetEvent → Prop
  | .act n => n = node ∧ (w.leader node).phase = .answered true ∧ (w.leader node).cancel = none
  | _ => False

/-- A worker is started when all others have returned. -/
def Clear (w : Fleet) (e : FleetEvent) : Prop := ∀ node, w.Starts node e → w.workers = []

/-- Workers are in time: they return before the lease of their node runs out or is given back, and
before their node starts another one; and what a node does with the clock that it has read, it
does before the lease it asks for has run out. -/
def Punctual (ttl : Nat) (w : Fleet) : FleetEvent → Prop
  | .tick elapsed => ∀ v ∈ w.workers, ∀ l, w.lease = some l → l.ownerId = v.node →
      w.now + elapsed < l.expiresAt
  | .execute node _ => ∀ now, (w.leader node).phase = .asking now →
      ∀ v ∈ w.workers, v.node = node → w.now < now + leaseTtl ttl
  | .act node => w.Starts node (.act node) → (∀ v ∈ w.workers, v.node ≠ node) ∧
      ∃ l, w.lease = some l ∧ l.ownerId = node ∧ w.now < l.expiresAt
  | .release node _ => (w.leader node).phase = .leaving → ∀ v ∈ w.workers, v.node ≠ node
  | _ => True

/-! ## Workers -/

variable {ttl : Nat} {w : Fleet}

theorem starts_act (ttl : Nat) (h : w.Starts node (.act node)) :
    (w.perform ttl (.act node)).workers = ⟨w.started, node⟩ :: w.workers ∧
      (w.perform ttl (.act node)).lease = w.lease ∧ (w.perform ttl (.act node)).now = w.now := by
  obtain ⟨-, hphase, hcancel⟩ := h
  simp only [perform, hphase, act, hcancel]
  exact ⟨rfl, rfl, rfl⟩

theorem execute_workers (node : String) (now : Nat) (fault : DbFault) :
    (w.execute ttl node now fault).workers = w.workers := by
  cases fault <;> rfl

/-- An event that starts no worker of its node leaves the workers as they are. -/
theorem act_workers (ttl : Nat) (h : ¬ w.Starts node (.act node)) :
    (w.perform ttl (.act node)).workers = w.workers ∧
      (w.perform ttl (.act node)).lease = w.lease ∧ (w.perform ttl (.act node)).now = w.now := by
  simp only [perform]
  split
  · next owned hphase =>
    unfold act
    split
    · exact ⟨rfl, rfl, rfl⟩
    · next howned =>
      split
      · exact ⟨rfl, rfl, rfl⟩
      · next hcancel =>
        have hstart : owned = true := by simpa using howned
        exact absurd ⟨rfl, by rw [hphase, hstart], hcancel⟩ h
  · exact ⟨rfl, rfl, rfl⟩

/-- Workers are started in one place only. -/
theorem workers_perform (ttl : Nat) (e : FleetEvent) :
    (∃ node, e = .act node ∧ w.Starts node e) ∨
      (∀ node, ¬ w.Starts node e) ∧ (w.perform ttl e).workers.Sublist w.workers := by
  cases e with
  | act node =>
    by_cases hstart : w.Starts node (.act node)
    · exact .inl ⟨node, rfl, hstart⟩
    · refine .inr ⟨fun n h => hstart (h.1 ▸ h), ?_⟩
      exact (act_workers ttl hstart).1 ▸ List.Sublist.refl _
  | tick elapsed => exact .inr ⟨fun _ h => h, List.Sublist.refl _⟩
  | launch | ask | done | release =>
    refine .inr ⟨fun _ h => h, ?_⟩
    simp only [perform]
    split
    · exact List.Sublist.refl _
    · exact List.Sublist.refl _
  | execute node fault =>
    refine .inr ⟨fun _ h => h, ?_⟩
    simp only [perform]
    split
    · exact (execute_workers node _ fault).symm ▸ List.Sublist.refl _
    · exact List.Sublist.refl _
  | finish | crash => exact .inr ⟨fun _ h => h, filter_sublist⟩

/-- **One event.** -/
theorem exclusive_perform_iff (ttl : Nat) (h : w.Exclusive) (e : FleetEvent) :
    (w.perform ttl e).Exclusive ↔ w.Clear e := by
  rcases workers_perform ttl e with ⟨node, rfl, hstart⟩ | ⟨hnone, hsub⟩
  · have hworkers := (starts_act ttl hstart).1
    unfold Exclusive
    rw [hworkers, length_cons]
    constructor
    · intro hone _ _
      exact eq_nil_of_length_eq_zero (by omega)
    · intro hclear
      rw [hclear node hstart]
      exact Nat.le_refl 1
  · exact iff_of_true (Nat.le_trans hsub.length_le h) fun node hstart => absurd hstart (hnone node)

/-! ## Workers that are in time -/

/-- The node of every worker has a lease that has not expired. -/
def Covered (w : Fleet) : Prop :=
  ∀ v ∈ w.workers, ∃ l, w.lease = some l ∧ l.ownerId = v.node ∧ w.now < l.expiresAt

/-- Nobody has read the clock in the future. -/
def Read (w : Fleet) : Prop := ∀ node now, (w.leader node).phase = .asking now → now ≤ w.now

end Fleet

/-- While a lease is running, it is its owner's. -/
theorem acquire_of_running {expiresAt : Nat} (hother : l.ownerId ≠ ownerId)
    (hrunning : now < l.expiresAt) :
    acquireClusterLease ownerId now expiresAt (some l) = (false, some l) := by
  refine if_neg ?_
  rintro (howner | hexpired)
  · exact hother howner
  · omega

theorem acquire_of_owner (now expiresAt : Nat) (l : Lease) :
    acquireClusterLease l.ownerId now expiresAt (some l) = (true, some ⟨l.ownerId, expiresAt⟩) :=
  if_pos (.inl rfl)

theorem release_of_other (hother : l.ownerId ≠ ownerId) :
    releaseClusterLease ownerId (some l) = some l := by
  unfold releaseClusterLease
  rw [Option.filter_some, if_pos (decide_eq_true hother)]

namespace Fleet

variable {ttl : Nat} {w : Fleet}

theorem Covered.of_sublist (h : w.Covered) (hworkers : w'.workers.Sublist w.workers)
    (hlease : w'.lease = w.lease) (hnow : w'.now = w.now) : w'.Covered := by
  intro v hv
  rw [hlease, hnow]
  exact h v (hworkers.subset hv)

/-- The row of a lease that a worker runs under is left to its owner, who renews it. -/
theorem Covered.acquire (h : w.Covered) (hread : now ≤ w.now)
    (hslow : ∀ v ∈ w.workers, v.node = node → w.now < now + leaseTtl ttl)
    (hlease : w'.lease = (acquireClusterLease node now (now + leaseTtl ttl) w.lease).2)
    (hworkers : w'.workers = w.workers) (hnow : w'.now = w.now) : w'.Covered := by
  intro v hv
  rw [hworkers] at hv
  rw [hlease, hnow]
  obtain ⟨l, hl, howner, hrunning⟩ := h v hv
  rw [hl]
  by_cases hself : l.ownerId = node
  · subst hself
    rw [acquire_of_owner]
    exact ⟨_, rfl, howner, hslow v hv howner.symm⟩
  · rw [acquire_of_running hself (Nat.lt_of_le_of_lt hread hrunning)]
    exact ⟨l, rfl, howner, hrunning⟩

theorem Covered.perform (h : w.Covered) (hread : w.Read) (he : w.Punctual ttl e) :
    (w.perform ttl e).Covered := by
  cases e with
  | tick elapsed =>
    intro v hv
    obtain ⟨l, hl, howner, -⟩ := h v hv
    exact ⟨l, hl, howner, he v hv l hl howner⟩
  | launch node | ask node | done node =>
    simp only [Fleet.perform]
    split
    · exact h
    · exact h
  | execute node fault =>
    simp only [Fleet.perform]
    split
    · next now hphase =>
      have hslow := he now hphase
      cases fault with
      | none | lost => exact h.acquire (hread node now hphase) hslow rfl rfl rfl
      | failed => exact h
    · exact h
  | act node =>
    by_cases hstart : w.Starts node (.act node)
    · obtain ⟨-, hcurrent⟩ := he hstart
      obtain ⟨hworkers, hlease, hnow⟩ := starts_act ttl hstart
      intro v hv
      rw [hlease, hnow]
      rw [hworkers] at hv
      rcases mem_cons.mp hv with rfl | hv
      · exact hcurrent
      · exact h v hv
    · obtain ⟨hworkers, hlease, hnow⟩ := act_workers ttl hstart
      exact h.of_sublist (hworkers ▸ List.Sublist.refl _) hlease hnow
  | release node fault =>
    simp only [Fleet.perform]
    split
    · next hphase =>
      have hreturned := he hphase
      cases fault with
      | failed => exact h
      | none | lost =>
        intro v hv
        obtain ⟨l, hl, howner, hrunning⟩ := h v hv
        refine ⟨l, ?_, howner, hrunning⟩
        show releaseClusterLease node w.lease = some l
        rw [hl, release_of_other (howner ▸ hreturned v hv)]
    · exact h
  | finish | crash => exact h.of_sublist filter_sublist rfl rfl

theorem Read.setLeader (h : w.Read) (hleader : w'.leader = w.leader) (hnow : w'.now = w.now)
    (node : String) {l : Leader} (hl : ∀ now, l.phase = .asking now → now ≤ w.now) :
    (w'.setLeader node l).Read := by
  intro n now hphase
  show now ≤ w'.now
  rw [hnow]
  replace hphase : (if n = node then l else w'.leader n).phase = .asking now := hphase
  split at hphase
  · exact hl now hphase
  · rw [hleader] at hphase
    exact h n now hphase

theorem Read.perform (h : w.Read) (e : FleetEvent) : (w.perform ttl e).Read := by
  cases e with
  | tick elapsed => exact fun node now hphase => Nat.le_add_right_of_le (h node now hphase)
  | launch node =>
    simp only [Fleet.perform]
    split
    · exact h.setLeader rfl rfl node nofun
    · exact h
  | ask node =>
    simp only [Fleet.perform]
    split
    · exact h.setLeader rfl rfl node fun _ hphase =>
        Nat.le_of_eq (Phase.asking.inj hphase).symm
    · exact h
  | execute node fault =>
    simp only [Fleet.perform]
    split
    · cases fault with
      | none | failed | lost => exact h.setLeader rfl rfl node nofun
    · exact h
  | act node =>
    simp only [Fleet.perform]
    split
    · unfold act
      split
      · exact h.setLeader rfl rfl node nofun
      · split
        · exact h.setLeader rfl rfl node nofun
        · exact h.setLeader rfl rfl node nofun
    · exact h
  | done node =>
    simp only [Fleet.perform]
    split
    · exact h.setLeader rfl rfl node nofun
    · exact h
  | release node fault =>
    simp only [Fleet.perform]
    split
    · exact h.setLeader rfl rfl node nofun
    · exact h
  | finish number => exact h
  | crash node => exact h.setLeader rfl rfl node nofun

/-- The lease has one owner, so whoever starts a worker under it is alone. -/
theorem Covered.clear (h : w.Covered) (he : w.Punctual ttl e) : w.Clear e := by
  intro node hstart
  cases e with
  | act n =>
    obtain rfl := hstart.1
    obtain ⟨hreturned, l, hl, howner, -⟩ := he hstart
    refine eq_nil_iff_forall_not_mem.mpr fun v hv => ?_
    obtain ⟨l', hl', howner', -⟩ := h v hv
    obtain rfl := Option.some.inj (hl.symm.trans hl')
    exact hreturned v hv (howner'.symm.trans howner)
  | _ => cases hstart

/-- **When there is one worker.** Whatever nodes, the database, the clock and the workers do:
there are never two workers of the task exactly when each is started after all others have
returned. The lease sees to that as long as no worker goes on when the lease of its node has run
out or was given back, or when its node starts another. -/
theorem leader_exclusive_iff (ttl : Nat) {w : Fleet} (hw : w.Start) (events : List FleetEvent) :
    ((∀ before, before <+: events → (before.foldl (perform ttl) w).Exclusive) ↔
      Throughout (perform ttl) Clear w events) ∧
    (Throughout (perform ttl) (Punctual ttl) w events →
      ∀ before, before <+: events → (before.foldl (perform ttl) w).Exclusive) := by
  obtain ⟨hworkers, habsent⟩ := hw
  have hexclusive : w.Exclusive := by
    unfold Exclusive
    rw [hworkers]
    exact Nat.zero_le 1
  have hiff := kept_iff_throughout (I := Exclusive) (fun w e h => exclusive_perform_iff ttl h e)
    hexclusive events
  refine ⟨hiff, fun hpunctual => hiff.mpr fun before e hpre => ?_⟩
  have hcovered : w.Covered := by
    intro v hv
    rw [hworkers] at hv
    cases hv
  have hread : w.Read := by
    intro node now hphase
    rw [habsent node] at hphase
    cases hphase
  have hinv := hpunctual.invariant (I := fun w => w.Covered ∧ w.Read)
    (fun w e h he => ⟨h.1.perform h.2 he, h.2.perform e⟩) ⟨hcovered, hread⟩
  exact (hinv before ((prefix_append _ _).trans hpre)).1.clear (hpunctual before e hpre)

/-! ### Two nodes -/

def quietFleet : Fleet := ⟨0, none, fun _ => .absent, [], 0⟩

/-- What a node does at a tick. -/
def reconcile (node : String) (fault : DbFault) : List FleetEvent :=
  [.ask node, .execute node fault, .act node]

/-- The second node gets the lease when the first has given it back. -/
def handover : List FleetEvent :=
  .launch "api-1" :: reconcile "api-1" .none ++
    [.tick 10000, .done "api-1", .finish 0, .release "api-1" .none] ++
    .launch "api-2" :: reconcile "api-2" .none

theorem handover_exclusive :
    quietFleet.Start ∧ (handover.foldl (perform 20000) quietFleet).workers = [⟨1, "api-2"⟩] ∧
    Throughout (perform 20000) Clear quietFleet handover ∧
    ∀ before, before <+: handover → (before.foldl (perform 20000) quietFleet).Exclusive := by
  have hstart : quietFleet.Start := ⟨rfl, fun _ => rfl⟩
  have hpunctual : Throughout (perform 20000) (Punctual 20000) quietFleet handover := by
    simp only [handover, reconcile, cons_append, nil_append, throughout_cons]
    -- no worker is there when a lease is asked for or given back
    have hnone : ∀ {P : Worker → Prop}, ∀ v ∈ ([] : List Worker), P v := nofun
    refine ⟨trivial, trivial, fun _ _ => hnone, fun _ => ⟨hnone, ?_⟩, fun v _ l hl _ => ?_, trivial,
      trivial, fun _ => hnone, trivial, trivial, fun _ _ => hnone, fun _ => ⟨hnone, ?_⟩,
      throughout_nil _ _⟩
    · exact ⟨_, rfl, by decide⟩
    · cases hl
      decide
    · exact ⟨_, rfl, by decide⟩
  obtain ⟨hiff, hkept⟩ := leader_exclusive_iff 20000 hstart handover
  exact ⟨hstart, by decide, hiff.mp (hkept hpunctual), hkept hpunctual⟩

/-- The database fails once and is there again for the next question. -/
def restarted : List FleetEvent :=
  .launch "api-1" :: reconcile "api-1" .none ++ reconcile "api-1" .failed ++
    reconcile "api-1" .none

/-- The first node does not get to ask before its lease has run out. -/
def outlived : List FleetEvent :=
  .launch "api-1" :: reconcile "api-1" .none ++ [.tick 20000, .launch "api-2"] ++
    reconcile "api-2" .none

theorem two_workers :
    (restarted.foldl (perform 20000) quietFleet).workers = [⟨1, "api-1"⟩, ⟨0, "api-1"⟩] ∧
    (outlived.foldl (perform 20000) quietFleet).workers = [⟨1, "api-2"⟩, ⟨0, "api-1"⟩] ∧
    ¬ (restarted.foldl (perform 20000) quietFleet).Exclusive ∧
    ¬ (outlived.foldl (perform 20000) quietFleet).Exclusive := by
  unfold Exclusive
  decide

end Fleet

end RemoteControl.Cluster
