import RemoteControl.Builds.Workshop

/-!
# Claims of client builds

`ClaimClientBuild` leases a build and then asks for it again by worker and end of the lease. The
statement that leases is sound: it takes a build that is queued or whose lease is over.

> The query is not. A worker that has two builds leased to the same millisecond gets the older one
> twice, and never hears of the other.

So a claim is answered with the build it leased if and only if that build comes first among those
of the worker with the same end of lease; and if that is so of all claims, then no build is given
out twice without its lease having ended.
-/

namespace RemoteControl.Builds

open Lib List Option

variable {r : BuildRequest} {between earlier later marks : List Mark} {first : Mark}
  {i leaseUntil now number number' : Nat} {o : RowOrder} {buildId workerId : String}

/-! ## Leases in the history -/

def Mark.Leases (m : Mark) (number : Nat) (buildId : String) : Prop :=
  ∃ found now, m = .leased number found now ∧ found.id = buildId

/-- The build was not leased since it was queued again. -/
def Fresh (buildId : String) : List Mark → Prop
  | [] => True
  | .requeued b :: marks => b = buildId ∨ Fresh buildId marks
  | .leased _ found _ :: marks => found.id ≠ buildId ∧ Fresh buildId marks

/-- Every lease found a build whose lease was over, or that was not leased before. -/
def Spaced : List Mark → Prop
  | [] => True
  | .requeued _ :: marks => Spaced marks
  | .leased _ found now :: marks =>
    (found.expiredBefore now = true ∨ Fresh found.id marks) ∧ Spaced marks

/-- The lease of one claim had ended when another claim got the build: the next one to lease it
found the lease expired, or it was queued again before. -/
def EndedBefore (marks : List Mark) (buildId : String) (number number' : Nat) : Prop :=
  ∃ (later : List Mark) (next : Nat) (found : ClientBuild) (now : Nat) (between : List Mark)
      (first : Mark) (earlier : List Mark),
    marks = later ++ .leased next found now :: (between ++ first :: earlier) ∧
    first.Leases number buildId ∧ found.id = buildId ∧
    (∀ m ∈ between, ∀ n, ¬ m.Leases n buildId) ∧
    (found.expiredBefore now = true ∨ .requeued buildId ∈ between) ∧
    ∃ m ∈ later ++ [.leased next found now], m.Leases number' buildId

theorem Fresh.of_notMem (h : ∀ m ∈ marks, ∀ n, ¬ m.Leases n buildId) : Fresh buildId marks := by
  induction marks with
  | nil => trivial
  | cons m marks ih =>
    obtain ⟨hm, hrest⟩ := forall_mem_cons.mp h
    cases m with
    | requeued b => exact .inr (ih hrest)
    | leased n found now => exact ⟨fun hid => hm n ⟨found, now, rfl, hid⟩, ih hrest⟩

theorem Fresh.requeued {n : Nat} (hf : first.Leases n buildId)
    (h : Fresh buildId (between ++ first :: earlier)) : .requeued buildId ∈ between := by
  induction between with
  | nil =>
    obtain ⟨found, now, rfl, hid⟩ := hf
    exact absurd hid h.1
  | cons m between ih =>
    cases m with
    | requeued b =>
      rcases h with rfl | h
      · exact mem_cons_self
      · exact mem_cons_of_mem _ (ih h)
    | leased n' found now => exact mem_cons_of_mem _ (ih h.2)

theorem Spaced.of_append {found : ClientBuild}
    (h : Spaced (later ++ .leased number found now :: marks)) :
    found.expiredBefore now = true ∨ Fresh found.id marks := by
  induction later with
  | nil => exact h.1
  | cons m later ih =>
    cases m with
    | requeued b => exact ih h
    | leased n f t => exact ih h.2

theorem exists_split_last {α : Type} {p : α → Prop} {l : List α} (h : ∃ a ∈ l, p a) :
    ∃ s a t, l = s ++ a :: t ∧ p a ∧ ∀ b ∈ t, ¬ p b := by
  classical
  induction l with
  | nil =>
    obtain ⟨a, ha, -⟩ := h
    cases ha
  | cons x l ih =>
    by_cases hl : ∃ a ∈ l, p a
    · obtain ⟨s, a, t, rfl, ha, ht⟩ := ih hl
      exact ⟨x :: s, a, t, rfl, ha, ht⟩
    · obtain ⟨a, ha, hp⟩ := h
      rcases mem_cons.mp ha with rfl | ha
      · exact ⟨[], a, l, rfl, hp, fun b hb hpb => hl ⟨b, hb, hpb⟩⟩
      · exact absurd ⟨a, ha, hp⟩ hl

theorem Spaced.endedBefore {last : Mark} (h : Spaced marks)
    (hm : marks = later ++ last :: (between ++ first :: earlier))
    (hf : first.Leases number buildId) (hl : last.Leases number' buildId) :
    EndedBefore marks buildId number number' := by
  -- of the leases since the first, the one right after it
  obtain ⟨s, next, t, hst, ⟨n, found, now, rfl, hid⟩, ht⟩ :=
    exists_split_last (p := fun m => ∃ n, m.Leases n buildId)
      (l := later ++ last :: between) ⟨last, by simp, number', hl⟩
  have hm' : marks = s ++ .leased n found now :: (t ++ first :: earlier) := by
    rw [hm, show later ++ last :: (between ++ first :: earlier)
      = (later ++ last :: between) ++ first :: earlier by simp, hst]
    simp
  refine ⟨s, n, found, now, t, first, earlier, hm', hf, hid, fun m hmt k hk => ht m hmt ⟨k, hk⟩,
    ?_, last, ?_, hl⟩
  · rw [hm'] at h
    refine h.of_append.imp_right fun hfresh => ?_
    rw [hid] at hfresh
    exact hfresh.requeued hf
  · have hlast : last ∈ s ++ .leased n found now :: t := by
      rw [← hst]
      simp
    rw [mem_append, mem_cons] at hlast
    rw [mem_append, mem_singleton]
    rcases hlast with hs | heq | hlt
    · exact .inl hs
    · exact .inr heq
    · exact absurd ⟨number', hl⟩ (ht last hlt)

namespace Workshop

variable {env : BuildEnv} {w w' : Workshop}

def HasLeased (w : Workshop) (number : Nat) (buildId : String) : Prop :=
  ∃ m ∈ w.history, m.Leases number buildId

/-- What holds of the leases whatever the claims are answered. -/
structure Leasing (w : Workshop) : Prop where
  known : ∀ number buildId, w.HasLeased number buildId → (w.builds.get? buildId).isSome = true
  queued : ∀ buildId row, w.builds.get? buildId = some row → row.status = .queued →
    Fresh buildId w.history
  spaced : Spaced w.history
  held : ∀ v workerId, .claimed v workerId ∈ w.pending → v.status ≠ .queued
  leased : ∀ number workerId buildId leaseUntil,
    .leased number workerId buildId leaseUntil ∈ w.pending → w.HasLeased number buildId

theorem mem_drop (h : r ∈ (w.drop i).pending) : r ∈ w.pending := mem_of_mem_eraseIdx h

section

variable (h : w.Leasing)

include h

/-- Nothing but requests in progress. -/
theorem Leasing.of_pending {pending : List BuildRequest} {claims : Nat}
    {answers : List (Nat × String)}
    (hheld : ∀ v workerId, .claimed v workerId ∈ pending → v.status ≠ .queued)
    (hleased : ∀ number workerId buildId leaseUntil,
      .leased number workerId buildId leaseUntil ∈ pending → w.HasLeased number buildId) :
    Leasing { w with pending, claims, answers } where
  known := h.known
  queued := h.queued
  spaced := h.spaced
  held := hheld
  leased := hleased

theorem Leasing.drop (i : Nat) : (w.drop i).Leasing :=
  h.of_pending (fun v workerId hv => h.held v workerId (mem_drop hv))
    fun number workerId buildId leaseUntil hr =>
      h.leased number workerId buildId leaseUntil (mem_drop hr)

theorem Leasing.begun (hr : w.Begins r) (claims : Nat) :
    Leasing { w with pending := w.pending ++ [r], claims } := by
  refine h.of_pending (fun v workerId hv => ?_) fun number workerId buildId leaseUntil hl => ?_
  · rcases mem_append.mp hv with hv | hv
    · exact h.held v workerId hv
    · obtain rfl := mem_singleton.mp hv
      cases hr with
      | claimed _ _ hs => rcases hs with hs | hs | hs <;> rw [hs] <;> exact BuildStatus.noConfusion
  · rcases mem_append.mp hl with hl | hl
    · exact h.leased number workerId buildId leaseUntil hl
    · obtain rfl := mem_singleton.mp hl
      cases hr

theorem Leasing.created (v : ClientBuild) : Leasing { w with builds := w.builds.insert v } := by
  cases hv : w.builds.get? v.id with
  | some row =>
    rw [Table.insert_of_some hv]
    exact h
  | none =>
    have hget : ∀ b, (w.builds.insert v).get? b = if v.id = b then some v else w.builds.get? b :=
      Table.get?_insert hv
    refine { h with known := fun number b hb => ?_, queued := fun b row hrow hq => ?_ }
    · show ((w.builds.insert v).get? b).isSome = true
      rw [hget]
      split
      · rfl
      · exact h.known number b hb
    · replace hrow : (w.builds.insert v).get? b = some row := hrow
      rw [hget] at hrow
      split at hrow
      · next hb =>
        -- no build of this id was there to be leased
        refine Fresh.of_notMem fun m hm n hl => ?_
        have hsome := h.known n b ⟨m, hm, hl⟩
        rw [← hb, hv] at hsome
        cases hsome
      · exact h.queued b row hrow hq

theorem Leasing.leases {row : ClientBuild} (hrow : w.builds.get? buildId = some row)
    (hfree : row.free now = true) :
    Leasing { w with
      builds := leaseBuild buildId workerId now leaseUntil w.builds
      pending := w.pending.set i (.leased number workerId buildId leaseUntil)
      history := .leased number row now :: w.history } := by
  have hid : row.id = buildId := Table.get?_key hrow
  have hown : Mark.Leases (.leased number row now) number buildId := ⟨row, now, rfl, hid⟩
  constructor
  · intro n b hb
    show ((leaseBuild buildId workerId now leaseUntil w.builds).get? b).isSome = true
    rw [get?_leaseBuild, isSome_map]
    obtain ⟨m, hm, hl⟩ := hb
    rcases mem_cons.mp hm with rfl | hm
    · obtain ⟨found, t, heq, hb⟩ := hl
      cases heq
      rw [← hb, hid, hrow]
      rfl
    · exact h.known n b ⟨m, hm, hl⟩
  · intro b r hr hq
    replace hr : (leaseBuild buildId workerId now leaseUntil w.builds).get? b = some r := hr
    rw [get?_leaseBuild] at hr
    obtain ⟨r₀, hr₀, rfl⟩ := map_eq_some_iff.mp hr
    split at hq
    · cases hq
    · next hne =>
      refine ⟨fun hb => hne ?_, h.queued b r₀ hr₀ hq⟩
      obtain rfl : row = r₀ := Option.some.inj (by rw [← hrow, ← hid, hb, hr₀])
      simp [hid, hfree]
  · refine ⟨?_, h.spaced⟩
    simp only [ClientBuild.free, Bool.and_eq_true, Bool.or_eq_true, decide_eq_true_eq] at hfree
    refine hfree.2.symm.imp_right fun hq => ?_
    rw [hid]
    exact h.queued buildId row hrow hq
  · intro v workerId' hv
    rcases mem_or_eq_of_mem_set hv with hv | hv
    · exact h.held v workerId' hv
    · cases hv
  · intro n worker b until' hr
    rcases mem_or_eq_of_mem_set hr with hr | hr
    · obtain ⟨m, hm, hl⟩ := h.leased n worker b until' hr
      exact ⟨m, mem_cons_of_mem _ hm, hl⟩
    · cases hr
      exact ⟨_, mem_cons_self, hown⟩

theorem Leasing.claimed {v : ClientBuild} (now : Nat)
    (hi : w.pending[i]? = some (.claimed v workerId)) :
    ({ w with builds := updateClaimedClientBuild v workerId now w.builds }.drop i).Leasing := by
  have hv : v.status ≠ .queued := h.held v workerId (mem_of_getElem? hi)
  refine Leasing.drop ?_ i
  refine { h with known := fun number b hb => ?_, queued := fun b r hr hq => ?_ }
  · show ((updateClaimedClientBuild v workerId now w.builds).get? b).isSome = true
    rw [get?_updateClaimedClientBuild, isSome_map]
    exact h.known number b hb
  · replace hr : (updateClaimedClientBuild v workerId now w.builds).get? b = some r := hr
    rw [get?_updateClaimedClientBuild] at hr
    obtain ⟨r₀, hr₀, rfl⟩ := map_eq_some_iff.mp hr
    split at hq
    · exact absurd hq hv
    · exact h.queued b r₀ hr₀ hq

theorem Leasing.overwritten (i : Nat) (v : ClientBuild) : (w.overwrite i v).Leasing := by
  have hsome : ∀ b, ((updateClientBuild v w.builds).get? b).isSome = (w.builds.get? b).isSome := by
    intro b
    rw [get?_updateClientBuild, isSome_map]
  unfold overwrite
  refine Leasing.drop ?_ i
  by_cases hv : v.status = .queued
  · rw [if_pos hv]
    -- the mark says for the build itself that it is queued again, and nothing of the others
    refine ⟨?_, ?_, h.spaced, h.held, ?_⟩
    · rintro n b ⟨m, hm, hl⟩
      show ((updateClientBuild v w.builds).get? b).isSome = true
      rw [hsome]
      rcases mem_cons.mp hm with rfl | hm
      · obtain ⟨_, _, heq, -⟩ := hl
        cases heq
      · exact h.known n b ⟨m, hm, hl⟩
    · intro b r hr hq
      replace hr : (updateClientBuild v w.builds).get? b = some r := hr
      rw [get?_updateClientBuild] at hr
      obtain ⟨r₀, hr₀, rfl⟩ := map_eq_some_iff.mp hr
      split at hq
      · next hid => exact .inl (by rw [← hid, Table.get?_key hr₀])
      · exact .inr (h.queued b r₀ hr₀ hq)
    · intro n worker b leaseUntil hr
      obtain ⟨m, hm, hl⟩ := h.leased n worker b leaseUntil hr
      exact ⟨m, mem_cons_of_mem _ hm, hl⟩
  · rw [if_neg hv]
    refine { h with known := fun n b hb => ?_, queued := fun b r hr hq => ?_ }
    · show ((updateClientBuild v w.builds).get? b).isSome = true
      rw [hsome]
      exact h.known n b hb
    · replace hr : (updateClientBuild v w.builds).get? b = some r := hr
      rw [get?_updateClientBuild] at hr
      obtain ⟨r₀, hr₀, rfl⟩ := map_eq_some_iff.mp hr
      split at hq
      · exact absurd hq hv
      · exact h.queued b r₀ hr₀ hq

theorem Leasing.steps (hs : w.Steps w') : w'.Leasing := by
  cases hs with
  | idle => exact h
  | counted => exact h.of_pending h.held h.leased
  | begun hr claims => exact h.begun hr claims
  | dropped i => exact h.drop i
  | created => exact h.created _
  | leased hi hrow hfree => exact h.leases hrow hfree
  | answered hi hrow => exact (h.of_pending h.held h.leased).drop _
  | claimed now hi => exact h.claimed now hi
  | overwritten hi => exact h.overwritten _ _

end

/-! ## What the claims are answered -/

/-- The event answers a claim with the build it leased, if at all. -/
def Own (w : Workshop) : BuildEvent → Prop
  | .lookup i o => ∀ number workerId buildId leaseUntil,
    w.pending[i]? = some (.leased number workerId buildId leaseUntil) →
    ∀ row, w.found workerId leaseUntil o = some row → row.id = buildId
  | _ => True

/-- Among the builds leased to the worker until the same time, none is older than the one the claim
leased, and those as old come later. -/
def First (w : Workshop) : BuildEvent → Prop
  | .lookup i o => ∀ number workerId buildId leaseUntil,
    w.pending[i]? = some (.leased number workerId buildId leaseUntil) →
    (o.order w.builds.rows).filter (fun row => row.leasedTo workerId leaseUntil) = [] ∨
    ∃ before own after,
      (o.order w.builds.rows).filter (fun row => row.leasedTo workerId leaseUntil)
        = before ++ own :: after ∧ own.id = buildId ∧
      (∀ row ∈ before, own.createdAt < row.createdAt) ∧
      ∀ row ∈ after, own.createdAt ≤ row.createdAt
  | _ => True

/-- No two claims are answered with one build, unless the lease of the first had ended. -/
def Apart (w : Workshop) : Prop :=
  ∀ number number' buildId, (number, buildId) ∈ w.answers → (number', buildId) ∈ w.answers →
    number ≠ number' →
    EndedBefore w.history buildId number number' ∨ EndedBefore w.history buildId number' number

theorem found_id_iff :
    (∀ row, w.found workerId leaseUntil o = some row → row.id = buildId) ↔
      (o.order w.builds.rows).filter (fun row => row.leasedTo workerId leaseUntil) = [] ∨
      ∃ before own after,
        (o.order w.builds.rows).filter (fun row => row.leasedTo workerId leaseUntil)
          = before ++ own :: after ∧ own.id = buildId ∧
        (∀ row ∈ before, own.createdAt < row.createdAt) ∧
        ∀ row ∈ after, own.createdAt ≤ row.createdAt := by
  unfold found oldest
  constructor
  · intro h
    cases hf : (sortByKey ClientBuild.createdAt
        ((o.order w.builds.rows).filter fun row => row.leasedTo workerId leaseUntil)).head? with
    | none => exact .inl (sortByKey_head_none hf)
    | some own =>
      obtain ⟨before, after, heq, hb, ha⟩ := sortByKey_head_iff.mp hf
      exact .inr ⟨before, own, after, heq, h own hf, hb, ha⟩
  · rintro (hnil | ⟨before, own, after, heq, hid, hb, ha⟩) row hrow
    · rw [hnil] at hrow
      cases hrow
    · rw [sortByKey_head_iff.mpr ⟨before, after, heq, hb, ha⟩] at hrow
      rw [← Option.some.inj hrow]
      exact hid

theorem own_iff_first (w : Workshop) (e : BuildEvent) : w.Own e ↔ w.First e := by
  cases e with
  | lookup i o =>
    refine forall₄_congr fun number workerId buildId leaseUntil => imp_congr_right fun _ => ?_
    exact found_id_iff
  | _ => exact Iff.rfl

/-- A build that is the only one leased to the worker until that time is found. -/
theorem first_of_alone
    (h : ∀ number workerId buildId leaseUntil,
      w.pending[i]? = some (.leased number workerId buildId leaseUntil) →
      ∀ row ∈ w.builds.rows, row.leasedTo workerId leaseUntil = true → row.id = buildId) :
    w.First (.lookup i o) := by
  refine (own_iff_first w _).mp fun number workerId buildId leaseUntil hi row hrow => ?_
  obtain ⟨hmem, -⟩ := sortByKey_head hrow
  obtain ⟨hmem, hl⟩ := mem_filter.mp hmem
  exact h number workerId buildId leaseUntil hi row ((o.perm _).mem_iff.mp hmem) hl

theorem HasLeased.steps (h : w.HasLeased number buildId) (hs : w.Steps w') :
    w'.HasLeased number buildId := by
  obtain ⟨m, hm, hl⟩ := h
  cases hs with
  | leased => exact ⟨m, mem_cons_of_mem _ hm, hl⟩
  | overwritten hi =>
    refine ⟨m, ?_, hl⟩
    show m ∈ ite _ _ _
    split
    · exact mem_cons_of_mem _ hm
    · exact hm
  | _ => exact ⟨m, hm, hl⟩

/-- Every claim that was answered leased the build it was given. -/
def Answered (w : Workshop) : Prop :=
  ∀ number buildId, (number, buildId) ∈ w.answers → w.HasLeased number buildId

theorem mem_answers_perform {e : BuildEvent} (h : w.Leasing) (he : w.Own e)
    (hmem : (number, buildId) ∈ (w.perform env e).answers) :
    (number, buildId) ∈ w.answers ∨ w.HasLeased number buildId := by
  have hbegin : ∀ r?, (w.begin r?).answers = w.answers := by
    intro r?
    cases r? <;> rfl
  cases e with
  | lookup i o =>
    simp only [perform] at hmem
    split at hmem
    · next n workerId b leaseUntil hi =>
      unfold answer at hmem
      split at hmem
      · exact .inl hmem
      · next row hrow =>
        rcases mem_cons.mp hmem with heq | hmem
        · cases heq
          right
          rw [he _ _ _ _ hi row hrow]
          exact h.leased _ _ _ _ (mem_of_getElem? hi)
        · exact .inl hmem
    · exact .inl hmem
  | create | write =>
    simp only [perform] at hmem
    split at hmem <;> exact .inl hmem
  | claim =>
    refine .inl ?_
    rw [← hbegin]
    exact hmem
  | lease i =>
    simp only [perform] at hmem
    split at hmem
    · unfold leaseChosen at hmem
      split at hmem
      · exact .inl hmem
      · split at hmem <;> exact .inl hmem
    · exact .inl hmem
  | abandon i => exact .inl hmem
  | _ =>
    simp only [perform, hbegin] at hmem
    exact .inl hmem

theorem apart_of_answered (h : w.Leasing) (ha : w.Answered) : w.Apart := by
  intro n n' b hn hn' hne
  obtain ⟨first, hfirst, hf⟩ := ha n b hn
  obtain ⟨last, hlast, hl⟩ := ha n' b hn'
  obtain ⟨s, t, hst⟩ := append_of_mem hfirst
  rw [hst, mem_append, mem_cons] at hlast
  rcases hlast with hs | rfl | ht
  · obtain ⟨later, between, rfl⟩ := append_of_mem hs
    have hmarks : w.history = later ++ last :: (between ++ first :: t) := by
      rw [hst]
      simp
    exact .inl (h.spaced.endedBefore hmarks hf hl)
  · obtain ⟨_, _, heq, -⟩ := hf
    obtain ⟨_, _, heq', -⟩ := hl
    rw [heq] at heq'
    cases heq'
    exact absurd rfl hne
  · obtain ⟨between, earlier, rfl⟩ := append_of_mem ht
    exact .inr (h.spaced.endedBefore hst hl hf)

/-- Nothing is in progress, and no claim has been made. -/
structure Idle (w : Workshop) : Prop where
  pending : w.pending = []
  history : w.history = []
  answers : w.answers = []

theorem Idle.leasing (h : w.Idle) : w.Leasing where
  known := by
    rintro n b ⟨m, hm, -⟩
    rw [h.history] at hm
    cases hm
  queued := by
    intro b row _ _
    rw [h.history]
    trivial
  spaced := by
    rw [h.history]
    trivial
  held := by
    intro v workerId hv
    rw [h.pending] at hv
    cases hv
  leased := by
    intro n workerId b leaseUntil hr
    rw [h.pending] at hr
    cases hr

/-- **What the claims are answered**, in every run: each is given the build it leased, and no build
is given out again before its lease has ended, if and only if every query comes across the build of
its own claim first. -/
theorem claims_exact_iff (hw : w.Idle) (events : List BuildEvent) :
    (Throughout (perform env) Own w events ∧
      ∀ before, before <+: events → Apart (before.foldl (perform env) w)) ↔
    Throughout (perform env) First w events := by
  have hown : Throughout (perform env) Own w events ↔ Throughout (perform env) First w events :=
    throughout_congr (I := fun _ => True) (fun _ _ _ _ => trivial)
      (fun w e _ => own_iff_first w e) trivial events
  rw [← hown]
  refine and_iff_left_of_imp fun h before hpre => ?_
  have hanswered : w.Answered := by
    intro n b hb
    rw [hw.answers] at hb
    cases hb
  obtain ⟨hl, ha⟩ := h.invariant (I := fun w => w.Leasing ∧ w.Answered)
    (fun w e ⟨hl, ha⟩ he => ⟨hl.steps (perform_steps e), fun n b hb =>
      ((mem_answers_perform hl he hb).elim (ha n b) id).steps (perform_steps e)⟩)
    ⟨hw.leasing, hanswered⟩ before hpre
  exact apart_of_answered hl ha

/-! ### A worker that claims twice -/

theorem hasLeased_of_endedBefore (h : EndedBefore w.history buildId number number') :
    w.HasLeased number buildId ∧ w.HasLeased number' buildId := by
  obtain ⟨later, next, found, now, between, first, earlier, heq, hf, -, -, -, m, hm, hl⟩ := h
  refine ⟨⟨first, ?_, hf⟩, m, ?_, hl⟩
  · rw [heq]
    simp
  · rw [heq]
    rw [mem_append, mem_singleton] at hm
    rcases hm with hm | rfl
    · exact mem_append_left _ hm
    · simp

/-- Texts as they are. -/
def plainEnv : BuildEnv := ⟨id, id, fun a b => a = b, id, fun _ => "", fun _ => ""⟩

def portable (id : String) (createdAt : Nat) : ClientBuild :=
  ⟨id, "profile", "linux", "amd64", "portable", .queued, "", "", "", "", "", "root", "", 0,
    createdAt, none, none, none⟩

def twoQueued : Workshop := ⟨⟨[portable "a" 1, portable "b" 2], by decide⟩, [], 0, [], []⟩

def inOrder : RowOrder := ⟨id, fun _ => .refl _⟩

def builder : Capabilities := ⟨["portable"], ["linux"], ["amd64"]⟩

/-- Two claims of one worker in the same millisecond, both queries after both leases. -/
def sameMillisecond : List BuildEvent :=
  [.claim "worker" builder 60000 10 inOrder, .lease 0, .claim "worker" builder 60000 10 inOrder,
    .lease 1, .lookup 0 inOrder, .lookup 0 inOrder]

theorem sameMillisecond_history :
    (sameMillisecond.foldl (perform plainEnv) twoQueued).history
        = [.leased 1 (portable "b" 2) 10, .leased 0 (portable "a" 1) 10] ∧
      (sameMillisecond.foldl (perform plainEnv) twoQueued).answers = [(1, "a"), (0, "a")] := by
  decide

/-- The second claim leased `b` and is given `a`, which the first one holds. -/
theorem second_claim_given_first_build :
    twoQueued.Idle ∧
      ¬ Throughout (perform plainEnv) Own twoQueued sameMillisecond ∧
      ¬ Apart (sameMillisecond.foldl (perform plainEnv) twoQueued) := by
  refine ⟨⟨rfl, rfl, rfl⟩, fun h => ?_, fun h => ?_⟩
  · have hlast := h (sameMillisecond.take 5) (.lookup 0 inOrder) ⟨[], rfl⟩
    have hid := hlast 1 "worker" "b" 60010 (by rfl) _ (by rfl)
    exact absurd hid (by decide)
  · obtain ⟨hhistory, hanswers⟩ := sameMillisecond_history
    have hnot : ¬ (sameMillisecond.foldl (perform plainEnv) twoQueued).HasLeased 1 "a" := by
      rintro ⟨m, hm, found, now, rfl, hid⟩
      rw [hhistory] at hm
      simp only [mem_cons, Mark.leased.injEq, not_mem_nil, or_false] at hm
      rcases hm with ⟨-, rfl, -⟩ | ⟨h1, -⟩
      · exact absurd hid (by decide)
      · cases h1
    have happart := h 0 1 "a" (by rw [hanswers]; simp) (by rw [hanswers]; simp) (by decide)
    rcases happart with hended | hended
    · exact hnot (hasLeased_of_endedBefore hended).2
    · exact hnot (hasLeased_of_endedBefore hended).1

def twoWorkers : List BuildEvent :=
  [.claim "first" builder 60000 10 inOrder, .lease 0, .claim "second" builder 60000 10 inOrder,
    .lease 1, .lookup 0 inOrder, .lookup 0 inOrder]

theorem two_workers_answered :
    Throughout (perform plainEnv) First twoQueued twoWorkers ∧
      (twoWorkers.foldl (perform plainEnv) twoQueued).answers = [(1, "b"), (0, "a")] ∧
      Throughout (perform plainEnv) Own twoQueued twoWorkers ∧
      ∀ before, before <+: twoWorkers → Apart (before.foldl (perform plainEnv) twoQueued) := by
  have hfirst : Throughout (perform plainEnv) First twoQueued twoWorkers := by
    unfold twoWorkers
    repeat rw [throughout_cons]
    refine ⟨trivial, trivial, trivial, trivial, first_of_alone ?_, first_of_alone ?_,
      throughout_nil _ _⟩
    · intro number workerId buildId leaseUntil hi
      cases hi
      decide
    · intro number workerId buildId leaseUntil hi
      cases hi
      decide
  have hidle : twoQueued.Idle := ⟨rfl, rfl, rfl⟩
  exact ⟨hfirst, by decide, (claims_exact_iff hidle twoWorkers).mpr hfirst⟩

end Workshop

end RemoteControl.Builds
