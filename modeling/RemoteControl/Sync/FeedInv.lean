import RemoteControl.Sync.Domain
import RemoteControl.Sync.Feed

/-!
# Nothing up to the cursor is missing

The argument for `Feed.Safe` along runs of orderly steps. Three facts carry it:

> on the API's side, whatever still waits for the lock is newer than whatever was
> delivered; on the stream, what is queued is in order and everything delivered
> before it is queued too or done; and the cursor is settled.

When HBBS takes an event off the queue, the first and the second say that all
earlier ones are done, which is the third for the new cursor. A snapshot settles
its own cursor.

The source does not make every step orderly, and the runs at the end of this
module show what is lost then.
-/

namespace RemoteControl.Sync

open Lib List

variable {a : Accepted} {e : EventEnvelope} {w w' : Feed} {l : FeedLabel} {hub : Hub}
  {wire : List EventEnvelope} {revision : Nat} {sourceId : String}

/-! ## What a step does -/

theorem CacheOp.apply_cursor (op : CacheOp) (st : CacheState) :
    (op.apply st).cursor = st.cursor := by
  cases op <;> rfl

/-- Reading an event ends the stream, changes nothing, or moves the cursor to it. -/
theorem readEvent_cases (e : EventEnvelope) (rest : Stream) (w : Feed) :
    w.readEvent e rest = { w with stream := .closed } ∨
    (w.readEvent e rest = { w with stream := rest } ∧
      (e.relevant = true → e.sourceId = w.cache.sourceId ∧ e.revision ≤ w.cache.revision)) ∨
    (e.relevant = true ∧ ∃ cache : CacheState, cache.sourceId = e.sourceId ∧
      cache.revision = e.revision ∧ w.readEvent e rest =
        { w with cache, stream := rest, accepted := .event e :: w.accepted }) := by
  unfold Feed.readEvent CacheState.takes CacheState.applyEvent EventEnvelope.relevant
  cases hd : decodeEvent e.kind e.payload with
  | error err => exact Or.inl rfl
  | ok op? =>
    cases op? with
    | none => exact Or.inr (Or.inl ⟨rfl, nofun⟩)
    | some op =>
      by_cases hold : w.cache.sourceId = e.sourceId ∧ e.revision ≤ w.cache.revision
      · refine Or.inr (Or.inl ⟨?_, fun _ => ⟨hold.1.symm, hold.2⟩⟩)
        simp [Except.map, CacheState.perform, CacheState.acceptRevision_eq, hold]
      · obtain ⟨hsource, hrevision⟩ := Prod.mk.inj
          (op.apply_cursor { w.cache with sourceId := e.sourceId, revision := e.revision })
        refine Or.inr (Or.inr ⟨rfl, _, hsource, hrevision, ?_⟩)
        simp [Except.map, CacheState.perform, CacheState.acceptRevision_eq, hold]

/-- A snapshot is ignored, or moves the cursor to its own. -/
theorem reconcile_cases (s : AuthSnapshot) (w : Feed) :
    w.reconcile s = w ∨
    ∃ cache : CacheState, cache.sourceId = s.sourceId ∧ cache.revision = s.revision ∧
      w.reconcile s =
        { w with cache, accepted := .snapshot s.sourceId s.revision :: w.accepted } := by
  by_cases h : s.sourceId = w.cache.sourceId ∧ s.revision < w.cache.revision
  · exact Or.inl (by simp [Feed.reconcile, CacheState.replace, CacheState.ignores, h])
  · have hcur : (w.cache.replace s).sourceId = s.sourceId ∧
        (w.cache.replace s).revision = s.revision := by
      simp [CacheState.replace, h]
    exact Or.inr ⟨w.cache.replace s, hcur.1, hcur.2,
      by simp [Feed.reconcile, CacheState.ignores, h]⟩

structure SameApi (w w' : Feed) : Prop where
  processes : w'.processes = w.processes
  numbered : w'.numbered = w.numbered
  delivered : w'.delivered = w.delivered
  sourceId : w'.hub.sourceId = w.hub.sourceId
  revision : w'.hub.revision = w.hub.revision
  history : w'.hub.history = w.hub.history

theorem sameApi_readEvent (e : EventEnvelope) (rest : Stream) (w : Feed) :
    SameApi w (w.readEvent e rest) := by
  rcases readEvent_cases e rest w with h | ⟨h, _⟩ | ⟨_, cache, _, _, h⟩ <;> rw [h] <;>
    exact ⟨rfl, rfl, rfl, rfl, rfl, rfl⟩

theorem sameApi_receive {id : Nat} {stream : Stream} (hr : w.hub.receive id = some (e, hub)) :
    SameApi w { w with hub, stream } := by
  obtain ⟨rest, _, rfl⟩ := Hub.receive_eq hr
  exact ⟨rfl, rfl, rfl, rfl, rfl, rfl⟩

/-- The publisher gets the lock. -/
def Feed.deliver (e : EventEnvelope) (w : Feed) : Feed :=
  { w with hub := w.hub.deliver e, delivered := e :: w.delivered }

/-- Of the API, a step touches only subscribers, unless an event is numbered or delivered
or the process restarts. -/
theorem step_api (h : FeedStep w l w') :
    SameApi w w' ∨
    (∃ kind payload, w' = { w with
      hub := (w.hub.number kind payload).2
      numbered := (w.hub.number kind payload).1 :: w.numbered }) ∨
    (∃ e, l = .deliver e ∧ w.Pending e ∧ w' = w.deliver e) ∨
    ∃ sourceId, sourceId ∉ w.processes ∧ w' = { w with
      hub := Hub.new sourceId
      processes := sourceId :: w.processes
      stream := w.stream.detach } := by
  cases h with
  | number kind payload => exact Or.inr (Or.inl ⟨kind, payload, rfl⟩)
  | deliver he => exact Or.inr (Or.inr (Or.inl ⟨_, rfl, he, rfl⟩))
  | restart hs => exact Or.inr (Or.inr (Or.inr ⟨_, hs, rfl⟩))
  | receive _ hr => exact Or.inl (sameApi_receive hr)
  | forward _ hr => exact Or.inl (sameApi_receive hr)
  | read => exact Or.inl (sameApi_readEvent _ _ w)
  | subscribe | unsubscribe | request | serve | hangUp | giveUp | answer | reconcile | lose =>
    exact Or.inl ⟨rfl, rfl, rfl, rfl, rfl, rfl⟩

theorem step_numbered (h : FeedStep w l w') (he : e ∈ w'.numbered) :
    e ∈ w.numbered ∨ e.sourceId = w.hub.sourceId ∧ e.revision = w.hub.revision + 1 := by
  rcases step_api h with hs | ⟨kind, payload, rfl⟩ | ⟨_, _, _, rfl⟩ | ⟨_, _, rfl⟩
  · exact Or.inl (hs.numbered ▸ he)
  · rcases mem_cons.mp he with rfl | he
    · exact Or.inr ⟨rfl, rfl⟩
    · exact Or.inl he
  · exact Or.inl he
  · exact Or.inl he

theorem step_accepted (h : FeedStep w l w') : w.accepted ⊆ w'.accepted := by
  cases h with
  | read =>
    rename_i sourceId subscriber e wire hs
    rcases readEvent_cases e (.opened sourceId subscriber wire) w with
      h | ⟨h, _⟩ | ⟨_, cache, _, _, h⟩ <;> rw [h]
    · exact fun _ ha => ha
    · exact fun _ ha => ha
    · exact subset_cons_self _ _
  | reconcile =>
    rename_i s before after hs
    show w.accepted ⊆ (w.reconcile s).accepted
    rcases reconcile_cases s w with h | ⟨cache, _, _, h⟩ <;> rw [h]
    · exact fun _ ha => ha
    · exact subset_cons_self _ _
  | number | deliver | subscribe | receive | unsubscribe | request | serve | forward | hangUp
  | giveUp | answer | lose | restart => exact fun _ ha => ha

/-! ## The API's side -/

/-- Of two events that HBBS handles, the first has the smaller revision. -/
def InOrder (a b : EventEnvelope) : Prop :=
  a.relevant = true → b.relevant = true → a.revision < b.revision

structure ApiInv (w : Feed) : Prop where
  running : w.hub.sourceId ∈ w.processes
  known : ∀ e ∈ w.numbered, e.sourceId ∈ w.processes
  bounded : ∀ e ∈ w.numbered, e.sourceId = w.hub.sourceId → e.revision ≤ w.hub.revision
  unique : ∀ e ∈ w.numbered, ∀ x ∈ w.numbered, e.sourceId = x.sourceId →
    e.revision = x.revision → e = x
  delivered : ∀ e ∈ w.delivered, e ∈ w.numbered
  /-- what waits, or was lost waiting, is newer than what was delivered -/
  ordered : ∀ y ∈ w.delivered, ∀ x ∈ w.numbered, x ∉ w.delivered → x.sourceId = y.sourceId →
    InOrder y x
  history : ∀ e ∈ w.hub.history, e ∈ w.delivered ∧ e.sourceId = w.hub.sourceId
  sorted : w.hub.history.Pairwise InOrder

section

variable (h : ApiInv w)

include h

theorem ApiInv.same (hs : SameApi w w') : ApiInv w' := by
  obtain ⟨hp, hn, hd, hsrc, hrev, hhist⟩ := hs
  constructor <;> simp only [hp, hn, hd, hsrc, hrev, hhist]
  exacts [h.running, h.known, h.bounded, h.unique, h.delivered, h.ordered, h.history, h.sorted]

theorem ApiInv.number (kind : String) (payload : Json) :
    ApiInv { w with
      hub := (w.hub.number kind payload).2
      numbered := (w.hub.number kind payload).1 :: w.numbered } := by
  have hnew : ∀ e ∈ w.numbered, e.sourceId = w.hub.sourceId → e.revision < w.hub.revision + 1 :=
    fun e he hs => Nat.lt_succ_of_le (h.bounded e he hs)
  refine { h with known := ?_, bounded := ?_, unique := ?_, delivered := ?_, ordered := ?_ } <;>
    simp only [Hub.number, forall_mem_cons]
  · exact ⟨h.running, h.known⟩
  · exact ⟨fun _ => Nat.le_refl _, fun e he hs => Nat.le_succ_of_le (h.bounded e he hs)⟩
  · refine ⟨⟨fun _ _ => trivial, fun x hx hs hr => ?_⟩, fun e he => ⟨fun hs hr => ?_, h.unique e he⟩⟩
    · exact absurd hr.symm (Nat.ne_of_lt (hnew x hx hs.symm))
    · exact absurd hr (Nat.ne_of_lt (hnew e he hs))
  · exact fun e he => mem_cons_of_mem _ (h.delivered e he)
  · exact fun y hy => ⟨fun _ hs _ _ => hnew y (h.delivered y hy) hs.symm, h.ordered y hy⟩

/-- Everything queued of a process is in order with an event that still waits. -/
theorem ApiInv.append (he : e ∈ w.numbered) (hd : e ∉ w.delivered) {q : List EventEnvelope}
    (hq : q.Pairwise InOrder) (hmem : ∀ x ∈ q, x ∈ w.delivered ∧ x.sourceId = e.sourceId) :
    (q ++ [e]).Pairwise InOrder := by
  rw [pairwise_append]
  refine ⟨hq, pairwise_singleton _ _, fun x hx y hy => ?_⟩
  rw [mem_singleton] at hy
  subst hy
  exact h.ordered x (hmem x hx).1 y he hd (hmem x hx).2.symm

theorem ApiInv.deliver (he : w.Pending e)
    (ho : e.relevant = true → ∀ x, w.Pending x → x.relevant = true → e.revision ≤ x.revision) :
    ApiInv (w.deliver e) := by
  obtain ⟨hmem, hsrc, hnot⟩ := he
  refine { h with delivered := ?_, ordered := ?_, history := ?_, sorted := ?_ }
  · exact forall_mem_cons.mpr ⟨hmem, h.delivered⟩
  · intro y hy x hx hxd hs
    obtain ⟨hxe, hxn⟩ := not_or.mp (mt mem_cons.mpr hxd)
    rcases mem_cons.mp hy with rfl | hy
    · intro hyr hxr
      have hle := ho hyr x ⟨hx, hs.trans hsrc, hxn⟩ hxr
      have hne : y.revision ≠ x.revision := fun hr => hxe (h.unique y hmem x hx hs.symm hr).symm
      omega
    · exact h.ordered y hy x hx hxn hs
  · intro x hx
    rcases Hub.mem_history_deliver hx with hx | rfl
    · exact ⟨mem_cons_of_mem _ (h.history x hx).1, (h.history x hx).2⟩
    · exact ⟨mem_cons_self, hsrc⟩
  · refine List.Pairwise.sublist Hub.history_deliver_sublist (h.append hmem hnot h.sorted ?_)
    exact fun x hx => ⟨(h.history x hx).1, (h.history x hx).2.trans hsrc.symm⟩

theorem ApiInv.restart (hs : sourceId ∉ w.processes) :
    ApiInv { w with
      hub := Hub.new sourceId
      processes := sourceId :: w.processes
      stream := w.stream.detach } :=
  { h with
    running := mem_cons_self
    known := fun e he => mem_cons_of_mem _ (h.known e he)
    bounded := fun e he hsrc => by
      obtain rfl : e.sourceId = sourceId := hsrc
      exact absurd (h.known e he) hs
    history := fun _ he => absurd he not_mem_nil
    sorted := List.Pairwise.nil }

theorem ApiInv.step (hs : OrderlyStep w l w') : ApiInv w' := by
  rcases step_api hs.1 with hsame | ⟨kind, payload, rfl⟩ | ⟨e, rfl, he, rfl⟩ | ⟨_, hnew, rfl⟩
  · exact h.same hsame
  · exact h.number kind payload
  · exact h.deliver he fun hr => (hs.2 hr).1
  · exact h.restart hnew

end

/-! ## Cursors -/

theorem Done.mono {a b : List Accepted} (h : a ⊆ b) (hd : Done a e) : Done b e :=
  hd.imp (fun he => h he) fun ⟨r, hr, hle⟩ => ⟨r, h hr, hle⟩

/-- A cursor into some process so far, with a revision that was drawn. -/
structure Feed.Known (w : Feed) (sourceId : String) (revision : Nat) : Prop where
  process : sourceId ∈ w.processes
  drawn : sourceId = w.hub.sourceId → revision ≤ w.hub.revision

theorem Feed.Known.step (h : w.Known sourceId revision) (hs : FeedStep w l w') :
    w'.Known sourceId revision := by
  rcases step_api hs with hsame | ⟨_, _, rfl⟩ | ⟨_, _, _, rfl⟩ | ⟨source, hnew, rfl⟩
  · exact ⟨hsame.processes ▸ h.process, by rw [hsame.sourceId, hsame.revision]; exact h.drawn⟩
  · exact ⟨h.process, fun hsrc => Nat.le_succ_of_le (h.drawn hsrc)⟩
  · exact ⟨h.process, h.drawn⟩
  · refine ⟨mem_cons_of_mem _ h.process, fun hsrc => ?_⟩
    obtain rfl : sourceId = source := hsrc
    exact absurd h.process hnew

/-- An event numbered later lies beyond the cursor. -/
theorem Feed.Settled.step (h : w.Settled sourceId revision) (hk : w.Known sourceId revision)
    (hs : FeedStep w l w') : w'.Settled sourceId revision := by
  intro e he hrel hsrc hrev
  rcases step_numbered hs he with hold | ⟨hrun, hnew⟩
  · exact (h e hold hrel hsrc hrev).mono (step_accepted hs)
  · have hle := hk.drawn (hsrc.symm.trans hrun)
    omega

/-! ## The queue of a stream -/

/-- What is on its way to HBBS from the process `sourceId`. -/
structure Queue (w : Feed) (sourceId : String) (q : List EventEnvelope) : Prop where
  delivered : ∀ e ∈ q, e ∈ w.delivered ∧ e.sourceId = sourceId
  sorted : q.Pairwise InOrder
  noGap : ∀ x ∈ q, x.relevant = true → ∀ y ∈ w.delivered, y.relevant = true →
    y.sourceId = sourceId → y.revision < x.revision → y ∈ q ∨ Done w.accepted y

/-- Whatever was delivered is in the queue or done. -/
def Complete (w : Feed) (sourceId : String) (q : List EventEnvelope) : Prop :=
  ∀ y ∈ w.delivered, y.relevant = true → y.sourceId = sourceId → y ∈ q ∨ Done w.accepted y

section

variable {q r : List EventEnvelope}

theorem Complete.mono (h : Complete w sourceId q) (hd : w'.delivered = w.delivered)
    (ha : w.accepted ⊆ w'.accepted) : Complete w' sourceId q := by
  intro y hy hrel hsrc
  exact (h y (hd ▸ hy) hrel hsrc).imp_right (Done.mono ha)

theorem Queue.mono (h : Queue w sourceId q) (hd : w'.delivered = w.delivered)
    (ha : w.accepted ⊆ w'.accepted) : Queue w' sourceId q where
  delivered x hx := hd ▸ h.delivered x hx
  sorted := h.sorted
  noGap x hx hxr y hy hyr hsrc hlt := (h.noGap x hx hxr y (hd ▸ hy) hyr hsrc hlt).imp_right (Done.mono ha)

theorem Queue.of_complete (h : Complete w sourceId q)
    (hd : ∀ e ∈ q, e ∈ w.delivered ∧ e.sourceId = sourceId) (hs : q.Pairwise InOrder) :
    Queue w sourceId q :=
  ⟨hd, hs, fun _ _ _ y hy hyr hsrc _ => h y hy hyr hsrc⟩

/-- The rest of a queue is cut off: nothing behind the cut comes before what is left. -/
theorem Queue.cut (h : Queue w sourceId (q ++ r)) : Queue w sourceId q where
  delivered x hx := h.delivered x (mem_append_left _ hx)
  sorted := (pairwise_append.mp h.sorted).1
  noGap x hx hxr y hy hyr hsrc hlt := by
    rcases h.noGap x (mem_append_left _ hx) hxr y hy hyr hsrc hlt with hmem | hdone
    · rcases mem_append.mp hmem with hmem | hmem
      · exact Or.inl hmem
      · have hgt := (pairwise_append.mp h.sorted).2.2 x hx y hmem hxr hyr
        omega
    · exact Or.inr hdone

/-- The head is taken, and done if HBBS handles it. -/
theorem left_of_taken {y : EventEnvelope} {a : List Accepted}
    (he : e.relevant = true → Done a e) (hyr : y.relevant = true) (h : y ∈ e :: q ∨ Done a y) :
    y ∈ q ∨ Done a y := by
  rcases h with hmem | hdone
  · rcases mem_cons.mp hmem with rfl | hmem
    · exact Or.inr (he hyr)
    · exact Or.inl hmem
  · exact Or.inr hdone

theorem Queue.tail (h : Queue w sourceId (e :: q))
    (he : e.relevant = true → Done w.accepted e) : Queue w sourceId q where
  delivered x hx := h.delivered x (mem_cons_of_mem _ hx)
  sorted := h.sorted.of_cons
  noGap x hx hxr y hy hyr hsrc hlt :=
    left_of_taken he hyr (h.noGap x (mem_cons_of_mem _ hx) hxr y hy hyr hsrc hlt)

theorem Complete.tail (h : Complete w sourceId (e :: q))
    (he : e.relevant = true → Done w.accepted e) : Complete w sourceId q :=
  fun y hy hyr hsrc => left_of_taken he hyr (h y hy hyr hsrc)

/-- When the head of a queue is done, so is everything up to it. -/
theorem Queue.settles (h : Queue w sourceId (e :: q)) (hapi : ApiInv w)
    (hrel : e.relevant = true) (he : Done w.accepted e) : w.Settled e.sourceId e.revision := by
  obtain ⟨hdel, hsrc⟩ := h.delivered e mem_cons_self
  intro x hx hxr hxs hle
  by_cases hxd : x ∈ w.delivered
  · rcases Nat.lt_or_eq_of_le hle with hlt | heq
    · rcases h.noGap e mem_cons_self hrel x hxd hxr (hxs.trans hsrc) hlt with hmem | hdone
      · rcases mem_cons.mp hmem with rfl | hmem
        · exact he
        · have hgt := rel_of_pairwise_cons h.sorted hmem hrel hxr
          omega
      · exact hdone
    · rw [hapi.unique x hx e (hapi.delivered e hdel) hxs heq]
      exact he
  · have hgt := hapi.ordered e hdel x hx hxd hxs hrel hxr
    omega

/-- A delivery that the queue does not get. -/
theorem Queue.deliver (h : Queue w sourceId q) (hapi : ApiInv w) (he : w.Pending e) :
    Queue (w.deliver e) sourceId q where
  delivered x hx := ⟨mem_cons_of_mem _ (h.delivered x hx).1, (h.delivered x hx).2⟩
  sorted := h.sorted
  noGap x hx hxr y hy hyr hsrc hlt := by
    rcases mem_cons.mp hy with rfl | hy
    · obtain ⟨hxd, hxs⟩ := h.delivered x hx
      have hgt := hapi.ordered x hxd y he.1 he.2.2 (hsrc.trans hxs.symm) hxr hyr
      omega
    · exact h.noGap x hx hxr y hy hyr hsrc hlt

/-- A delivery that goes to the end of the queue. -/
theorem Complete.push (h : Complete w sourceId q) (e : EventEnvelope) :
    Complete (w.deliver e) sourceId (q ++ [e]) := by
  intro y hy hyr hsrc
  rw [mem_append, mem_singleton]
  rcases mem_cons.mp hy with rfl | hy
  · exact Or.inl (Or.inr rfl)
  · exact (h y hy hyr hsrc).imp_left Or.inl

theorem Queue.push (h : Queue w sourceId q) (hc : Complete w sourceId q) (hapi : ApiInv w)
    (he : w.Pending e) (hsrc : e.sourceId = sourceId) : Queue (w.deliver e) sourceId (q ++ [e]) := by
  refine Queue.of_complete (hc.push e) (fun x hx => ?_)
    (hapi.append he.1 he.2.2 h.sorted fun x hx => ⟨(h.delivered x hx).1, ?_⟩)
  · rcases mem_append.mp hx with hx | hx
    · exact ⟨mem_cons_of_mem _ (h.delivered x hx).1, (h.delivered x hx).2⟩
    · rw [mem_singleton.mp hx]
      exact ⟨mem_cons_self, hsrc⟩
  · exact (h.delivered x hx).2.trans hsrc.symm

end

/-! ## The stream -/

inductive StreamInv (w : Feed) : Stream → Prop
  | closed : StreamInv w .closed
  | requested {sourceId : String} {revision : Nat} (hk : w.Known sourceId revision)
      (hs : w.Settled sourceId revision) : StreamInv w (.requested sourceId revision)
  | detached {sourceId : String} {wire : List EventEnvelope} (hq : Queue w sourceId wire) :
      StreamInv w (.opened sourceId none wire)
  | attached {id : Nat} {wire : List EventEnvelope}
      (hsub : (w.hub.subscribers id).isSome = true) (hid : id ≤ w.hub.nextId)
      (hq : Queue w w.hub.sourceId (wire ++ w.hub.channel id))
      (hc : Complete w w.hub.sourceId (wire ++ w.hub.channel id)) :
      StreamInv w (.opened w.hub.sourceId (some id) wire)

section

variable {st : Stream}

/-- A step that leaves the stream and its channel alone. -/
theorem StreamInv.frame (h : StreamInv w st) (hs : FeedStep w l w')
    (hd : w'.delivered = w.delivered) (hsrc : w'.hub.sourceId = w.hub.sourceId)
    (hid : w.hub.nextId ≤ w'.hub.nextId)
    (hsub : ∀ id, st.subscriber = some id → id ≤ w.hub.nextId →
      w'.hub.subscribers id = w.hub.subscribers id) : StreamInv w' st := by
  have ha := step_accepted hs
  cases h with
  | closed => exact .closed
  | requested hk hset => exact .requested (hk.step hs) (hset.step hk hs)
  | detached hq => exact .detached (hq.mono hd ha)
  | attached hsome hle hq hc =>
    rename_i id wire
    have hsub' := hsub id rfl hle
    have hch : w'.hub.channel id = w.hub.channel id := by unfold Hub.channel; rw [hsub']
    rw [← hsrc] at hq hc ⊢
    rw [← hch] at hq hc
    exact .attached (hsub' ▸ hsome) (Nat.le_trans hle hid) (hq.mono hd ha) (hc.mono hd ha)

theorem StreamInv.deliver (h : StreamInv w st) (hapi : ApiInv w) (he : w.Pending e)
    (hroom : e.relevant = true → ∀ id, st.subscriber = some id →
      (w.hub.channel id).length < channelSize) : StreamInv (w.deliver e) st := by
  have hs : FeedStep w _ (w.deliver e) := .deliver he
  cases h with
  | closed => exact .closed
  | requested hk hset => exact .requested (hk.step hs) (hset.step hk hs)
  | detached hq => exact .detached (hq.deliver hapi he)
  | attached hsome hle hq hc =>
    rename_i id wire
    have hsome' : ((w.deliver e).hub.subscribers id).isSome = true := by
      simpa [Feed.deliver, Hub.deliver] using hsome
    have hpush : (w.deliver e).hub.channel id = w.hub.channel id ++ [e] →
        StreamInv (w.deliver e) (.opened w.hub.sourceId (some id) wire) := by
      intro hch
      refine .attached hsome' hle ?_ ?_ <;> rw [hch, ← append_assoc]
      · exact hq.push hc hapi he he.2.1
      · exact hc.push e
    by_cases hrel : e.relevant = true
    · exact hpush (Hub.channel_deliver hsome (hroom hrel id rfl))
    · -- a full channel may miss what HBBS does not handle
      rcases (Hub.channel_deliver_cases : (w.hub.deliver e).channel id = _ ∨ _) with hch | hch
      · refine .attached hsome' hle ?_ ?_ <;> rw [show (w.deliver e).hub.channel id = _ from hch]
        · exact hq.deliver hapi he
        · intro y hy hyr hys
          rcases mem_cons.mp hy with rfl | hy
          · exact absurd hyr hrel
          · exact hc y hy hyr hys
      · exact hpush hch

/-- The new subscriber gets, or has, everything delivered so far. -/
theorem StreamInv.serve (hapi : ApiInv w) (h : StreamInv w (.requested sourceId revision))
    (ho : w.Orderly (.serve sourceId revision)) :
    StreamInv { w with
        hub := (w.hub.subscribeAfter sourceId revision).2.2
        stream := .opened w.hub.sourceId (some (w.hub.subscribeAfter sourceId revision).1)
          (w.hub.subscribeAfter sourceId revision).2.1 }
      (.opened w.hub.sourceId (some (w.hub.nextId + 1)) (w.hub.backlog sourceId revision)) := by
  cases h with
  | requested hk hset =>
    have hmiss : Complete w w.hub.sourceId (w.hub.backlog sourceId revision) := by
      intro y hy hyr hsrc
      by_cases hlate : sourceId ≠ w.hub.sourceId ∨ revision < y.revision
      · exact Or.inl (mem_filter.mpr ⟨ho y hy hyr hsrc hlate, decide_eq_true hlate⟩)
      · rw [not_or, not_not, Nat.not_lt] at hlate
        exact Or.inr (hset y (hapi.delivered y hy) hyr (hsrc.trans hlate.1.symm) hlate.2)
    have hq : Queue w w.hub.sourceId (w.hub.backlog sourceId revision) :=
      Queue.of_complete hmiss (fun e he => hapi.history e (mem_filter.mp he).1)
        (hapi.sorted.sublist filter_sublist)
    have hch : (w.hub.subscribeAfter sourceId revision).2.2.channel (w.hub.nextId + 1) = [] := by
      simp [Hub.channel, Hub.subscribeAfter]
    refine StreamInv.attached ?_ (Nat.le_refl _) ?_ ?_
    · simp [Hub.subscribeAfter]
    · show Queue _ _ (_ ++ (w.hub.subscribeAfter sourceId revision).2.2.channel (w.hub.nextId + 1))
      rw [hch, append_nil]
      exact hq.mono rfl (fun _ ha => ha)
    · show Complete _ _ (_ ++ (w.hub.subscribeAfter sourceId revision).2.2.channel (w.hub.nextId + 1))
      rw [hch, append_nil]
      exact hmiss.mono rfl (fun _ ha => ha)

/-- The handler moves an event from the channel to the wire. -/
theorem StreamInv.forward {id : Nat} (h : StreamInv w (.opened sourceId (some id) wire))
    (hr : w.hub.receive id = some (e, hub)) :
    StreamInv { w with hub, stream := .opened sourceId (some id) (wire ++ [e]) }
      (.opened sourceId (some id) (wire ++ [e])) := by
  cases h with
  | attached hsome hle hq hc =>
    have hch := Hub.channel_receive hr
    rw [hch, append_cons] at hq hc
    obtain ⟨rest, _, rfl⟩ := Hub.receive_eq hr
    refine StreamInv.attached ?_ hle ?_ ?_
    · simp
    · exact hq.mono rfl (fun _ ha => ha)
    · exact hc.mono rfl (fun _ ha => ha)

/-- The handler ends: what the channel held is gone. -/
theorem StreamInv.detach (h : StreamInv w st) (hs : FeedStep w l w')
    (hd : w'.delivered = w.delivered) : StreamInv w' st.detach := by
  have ha := step_accepted hs
  cases h with
  | closed => exact .closed
  | requested hk hset => exact .requested (hk.step hs) (hset.step hk hs)
  | detached hq => exact .detached (hq.mono hd ha)
  | attached _ _ hq _ => exact .detached (hq.cut.mono hd ha)

section

variable {subscriber : Option Nat}

/-- The next event is the head of a queue. -/
theorem StreamInv.head (h : StreamInv w (.opened sourceId subscriber (e :: wire))) :
    ∃ q, Queue w sourceId (e :: q) := by
  cases h with
  | detached hq => exact ⟨_, hq⟩
  | attached _ _ hq _ => exact ⟨_, hq⟩

theorem StreamInv.tail (h : StreamInv w (.opened sourceId subscriber (e :: wire)))
    (he : e.relevant = true → Done w.accepted e) :
    StreamInv w (.opened sourceId subscriber wire) := by
  cases h with
  | detached hq => exact .detached (hq.tail he)
  | attached hsome hle hq hc => exact .attached hsome hle (hq.tail he) (hc.tail he)

end

end

/-! ## What the cache accepted -/

/-- Everything accepted is as old as the content, or older. -/
structure AcceptedInv (w : Feed) : Prop where
  known : ∀ a ∈ w.accepted, a.sourceId ∈ w.processes
  older : ∀ a ∈ w.accepted, w.age w.cache.sourceId ≤ w.age a.sourceId
  newer : w.accepted.Pairwise fun later earlier => w.age later.sourceId ≤ w.age earlier.sourceId

theorem AcceptedInv.same (h : AcceptedInv w) (hp : w'.processes = w.processes)
    (hc : w'.cache = w.cache) (ha : w'.accepted = w.accepted) : AcceptedInv w' := by
  constructor <;> simp only [Feed.age, hp, hc, ha]
  exacts [h.known, h.older, h.newer]

theorem AcceptedInv.accept (h : AcceptedInv w) (hk : a.sourceId ∈ w.processes)
    (hage : w.age a.sourceId ≤ w.age w.cache.sourceId) (hp : w'.processes = w.processes)
    (hc : w'.cache.sourceId = a.sourceId) (ha : w'.accepted = a :: w.accepted) :
    AcceptedInv w' := by
  have hold : ∀ b ∈ w.accepted, w.age a.sourceId ≤ w.age b.sourceId :=
    fun b hb => Nat.le_trans hage (h.older b hb)
  constructor <;> simp only [Feed.age, hp, hc, ha, forall_mem_cons, pairwise_cons]
  · exact ⟨hk, h.known⟩
  · exact ⟨Nat.le_refl _, hold⟩
  · exact ⟨hold, h.newer⟩

/-- A restart makes every process so far one older. -/
theorem AcceptedInv.restart (h : AcceptedInv w) (hs : sourceId ∉ w.processes)
    (hk : w.cache.sourceId ∈ w.processes) (hp : w'.processes = sourceId :: w.processes)
    (hc : w'.cache = w.cache) (ha : w'.accepted = w.accepted) : AcceptedInv w' := by
  have hage : ∀ x ∈ w.processes, w'.age x = w.age x + 1 := by
    intro x hx
    unfold Feed.age
    rw [hp]
    exact idxOf_cons_ne _ fun heq => hs (heq ▸ hx)
  constructor <;> simp only [hc, ha]
  · exact fun a hm => hp ▸ mem_cons_of_mem _ (h.known a hm)
  · intro a hm
    rw [hage _ hk, hage _ (h.known a hm)]
    exact Nat.succ_le_succ (h.older a hm)
  · refine h.newer.imp_of_mem fun {a b} hma hmb hle => ?_
    rw [hage _ (h.known a hma), hage _ (h.known b hmb)]
    exact Nat.succ_le_succ hle

/-! ## Along a run -/

structure FeedInv (w : Feed) : Prop where
  api : ApiInv w
  known : w.Known w.cache.sourceId w.cache.revision
  settled : w.Settled w.cache.sourceId w.cache.revision
  answers : ∀ s ∈ w.answers, w.Known s.sourceId s.revision
  stream : StreamInv w w.stream
  accepted : AcceptedInv w

theorem FeedInit.inv (h : FeedInit w) : FeedInv w := by
  obtain ⟨hh, hf, hp, hn, hd, hs, ha, hacc⟩ := h
  have hhist : w.hub.history = [] := by rw [hh]; rfl
  refine ⟨?_, ⟨?_, fun heq => absurd heq.symm hf⟩, ?_, ?_, ?_, ?_⟩
  · constructor <;> simp [hp, hn, hd, hhist]
  · simp [hp]
  · intro e he
    simp [hn] at he
  · simp [ha]
  · rw [hs]
    exact .closed
  · constructor <;> simp [hacc]

section

variable (h : FeedInv w)

include h

/-- What a step keeps when it does not change the cache. -/
theorem FeedInv.quiet (hs : OrderlyStep w l w')
    (hsame : (w'.processes, w'.cache, w'.accepted) = (w.processes, w.cache, w.accepted))
    (hans : ∀ s ∈ w'.answers, s ∈ w.answers ∨ w'.Known s.sourceId s.revision)
    (hst : StreamInv w' w'.stream) : FeedInv w' := by
  simp only [Prod.mk.injEq] at hsame
  obtain ⟨hp, hc, ha⟩ := hsame
  refine ⟨h.api.step hs, ?_, ?_, fun s hmem => ?_, hst, h.accepted.same hp hc ha⟩
  · rw [hc]
    exact h.known.step hs.1
  · rw [hc]
    exact h.settled.step h.known hs.1
  · exact (hans s hmem).elim (fun hold => (h.answers s hold).step hs.1) fun hnew => hnew

/-- Nor the answers. -/
theorem FeedInv.still (hs : OrderlyStep w l w')
    (hsame : (w'.processes, w'.cache, w'.accepted, w'.answers)
      = (w.processes, w.cache, w.accepted, w.answers))
    (hst : StreamInv w' w'.stream) : FeedInv w' := by
  simp only [Prod.mk.injEq] at hsame
  obtain ⟨hp, hc, ha, hans⟩ := hsame
  exact h.quiet hs (by rw [hp, hc, ha]) (fun s hm => Or.inl (hans ▸ hm)) hst

/-- The cache takes over something that settles its own cursor. -/
theorem FeedInv.take (hs : OrderlyStep w l w') (hk : w'.Known w'.cache.sourceId w'.cache.revision)
    (hset : w'.Settled w'.cache.sourceId w'.cache.revision)
    (hage : w.age a.sourceId ≤ w.age w.cache.sourceId) (hp : w'.processes = w.processes)
    (hc : w'.cache.sourceId = a.sourceId) (ha : w'.accepted = a :: w.accepted)
    (hans : w'.answers ⊆ w.answers) (hst : StreamInv w' w'.stream) : FeedInv w' := by
  refine ⟨h.api.step hs, hk, hset, fun s hmem => (h.answers s (hans hmem)).step hs.1, hst, ?_⟩
  refine h.accepted.accept ?_ hage hp hc ha
  rw [← hc, ← hp]
  exact hk.process

theorem FeedInv.read {subscriber : Option Nat}
    (hst : w.stream = .opened sourceId subscriber (e :: wire)) (ho : w.Orderly (.read e)) :
    FeedInv (w.readEvent e (.opened sourceId subscriber wire)) := by
  have hs : OrderlyStep w (.read e) (w.readEvent e (.opened sourceId subscriber wire)) :=
    ⟨.read hst, ho⟩
  have hstream := h.stream
  rw [hst] at hstream
  obtain ⟨q, hq⟩ := hstream.head
  have hnum := h.api.delivered e (hq.delivered e mem_cons_self).1
  rcases readEvent_cases e (.opened sourceId subscriber wire) w with
    heq | ⟨heq, hdrop⟩ | ⟨hrel, cache, hsrc, hrev, heq⟩ <;> rw [heq] at hs ⊢
  · exact h.still hs rfl .closed
  · -- dropped: the cursor is at it or beyond
    have hdone : e.relevant = true → Done w.accepted e := fun hrel =>
      h.settled e hnum hrel (hdrop hrel).1 (hdrop hrel).2
    refine h.still hs rfl ?_
    exact (hstream.tail hdone).frame hs.1 rfl rfl (Nat.le_refl _) fun _ _ _ => rfl
  · have hdone : Done (.event e :: w.accepted) e := Or.inl mem_cons_self
    have hsub : w.accepted ⊆ .event e :: w.accepted := subset_cons_self _ _
    refine h.take hs (a := .event e) ⟨?_, ?_⟩ ?_ (ho hrel) rfl hsrc rfl (fun _ hm => hm) ?_
    · rw [hsrc]
      exact h.api.known e hnum
    · rw [hsrc, hrev]
      exact h.api.bounded e hnum
    · rw [hsrc, hrev]
      exact Queue.settles (hq.mono rfl hsub) (h.api.step hs) hrel hdone
    · exact StreamInv.tail (hstream.frame hs.1 rfl rfl (Nat.le_refl _) fun _ _ _ => rfl)
        fun _ => hdone

theorem FeedInv.reconcile {s : AuthSnapshot} {before after : List AuthSnapshot}
    (hans : w.answers = before ++ s :: after) (ho : w.Orderly (.reconcile s)) :
    FeedInv { w.reconcile s with answers := before ++ after } := by
  have hs : OrderlyStep w (.reconcile s) { w.reconcile s with answers := before ++ after } :=
    ⟨.reconcile hans, ho⟩
  have hrest : before ++ after ⊆ w.answers := by
    rw [hans]
    exact append_subset.mpr ⟨subset_append_left _ _,
      fun _ hm => mem_append_right _ (mem_cons_of_mem _ hm)⟩
  have hknown : w.Known s.sourceId s.revision :=
    h.answers s (hans ▸ mem_append_right _ mem_cons_self)
  rcases reconcile_cases s w with heq | ⟨cache, hsrc, hrev, heq⟩ <;> rw [heq] at hs ⊢
  · refine h.quiet hs rfl (fun s hm => Or.inl (hrest hm)) ?_
    exact h.stream.frame hs.1 rfl rfl (Nat.le_refl _) fun _ _ _ => rfl
  · refine h.take hs (a := .snapshot s.sourceId s.revision) ?_ ?_ ho rfl hsrc rfl hrest
      (h.stream.frame hs.1 rfl rfl (Nat.le_refl _) fun _ _ _ => rfl)
    · rw [hsrc, hrev]
      exact hknown.step hs.1
    · -- the snapshot covers whatever was numbered up to its revision
      rw [hsrc, hrev]
      intro e _ _ he hle
      exact Or.inr ⟨s.revision, he ▸ mem_cons_self, hle⟩

theorem FeedInv.step (hs : OrderlyStep w l w') : FeedInv w' := by
  have hstep := hs.1
  cases hstep with
  | number kind payload =>
    exact h.still hs rfl (h.stream.frame hs.1 rfl rfl (Nat.le_refl _) fun _ _ _ => rfl)
  | deliver he =>
    exact h.still hs rfl (h.stream.deliver h.api he fun hr => (hs.2 hr).2)
  | subscribe sourceId revision =>
    refine h.still hs rfl (h.stream.frame hs.1 rfl rfl (Nat.le_succ _) fun id _ hid => ?_)
    exact Function.update_of_ne (by omega) _ _
  | receive hid hr =>
    obtain ⟨rest, _, rfl⟩ := Hub.receive_eq hr
    exact h.still hs rfl
      (h.stream.frame hs.1 rfl rfl (Nat.le_refl _) fun id hsub _ =>
        Hub.channel_receive_other hr fun heq => hid (hsub.trans (congrArg some heq)))
  | unsubscribe hid =>
    exact h.still hs rfl
      (h.stream.frame hs.1 rfl rfl (Nat.le_refl _) fun id hsub _ =>
        Function.update_of_ne (fun heq => hid (hsub.trans (congrArg some heq))) _ _)
  | request =>
    exact h.still hs rfl (.requested (h.known.step hs.1) (h.settled.step h.known hs.1))
  | serve hreq =>
    have hst := h.stream
    rw [hreq] at hst
    exact h.still hs rfl (hst.serve h.api hs.2)
  | forward hopen hr =>
    have hst := h.stream
    rw [hopen] at hst
    exact h.still hs rfl (hst.forward hr)
  | hangUp hopen =>
    have hst := h.stream
    rw [hopen] at hst
    exact h.still hs rfl (hst.detach hs.1 rfl)
  | read hopen => exact h.read hopen hs.2
  | giveUp => exact h.still hs rfl .closed
  | answer hsrc hrev =>
    refine h.quiet hs rfl (fun s hm => ?_)
      (h.stream.frame hs.1 rfl rfl (Nat.le_refl _) fun _ _ _ => rfl)
    rcases mem_cons.mp hm with rfl | hm
    · exact Or.inr ⟨hsrc ▸ h.api.running, fun _ => Nat.le_of_eq hrev⟩
    · exact Or.inl hm
  | reconcile hans => exact h.reconcile hans hs.2
  | lose hans =>
    refine h.quiet hs rfl (fun s hm => Or.inl ?_)
      (h.stream.frame hs.1 rfl rfl (Nat.le_refl _) fun _ _ _ => rfl)
    rw [hans]
    rcases mem_append.mp hm with hm | hm
    · exact mem_append_left _ hm
    · exact mem_append_right _ (mem_cons_of_mem _ hm)
  | restart hnew =>
    exact ⟨h.api.step hs, h.known.step hs.1, h.settled.step h.known hs.1,
      fun s hm => (h.answers s hm).step hs.1, h.stream.detach hs.1 rfl,
      h.accepted.restart hnew h.known.process rfl rfl rfl⟩

end

/-- **Nothing up to the cursor is missing**, and nothing newer was replaced, after every run
of orderly steps. -/
theorem feed_safe {w₀ w : Feed} {ls : List FeedLabel} (h₀ : FeedInit w₀)
    (hrun : Run OrderlyStep w₀ ls w) : w.Safe := by
  have h : FeedInv w := hrun.invariant (fun _ _ _ hinv hs => hinv.step hs) h₀.inv
  exact ⟨h.settled, h.accepted.newer⟩

/-! ### One event, two events, and two processes -/

def sampleFeed : Feed where
  hub := Hub.new "api-1"
  processes := ["api-1", ""]
  numbered := []
  delivered := []
  stream := .closed
  answers := []
  cache := CacheState.empty
  accepted := []

theorem sampleFeed_init : FeedInit sampleFeed := ⟨rfl, by decide, rfl, rfl, rfl, rfl, rfl, rfl⟩

def revocation (revision : Nat) (userId : String) : EventEnvelope :=
  ⟨"api-1", revision, "SESSION_REVOKED_ALL", userReference userId⟩

def emptySnapshot (sourceId : String) : AuthSnapshot :=
  ⟨none, none, sourceId, 0, [], [], [], [], [], [], []⟩

theorem feed_safe_revocation :
    ∃ ls w, w.Safe ∧ Run OrderlyStep sampleFeed ls w ∧ w.cache.cursor = ("api-1", 1) ∧
      w.accepted = [.event (revocation 1 "user-1")] := by
  have hrun : ∃ ls w, Run OrderlyStep sampleFeed ls w ∧ w.cache.cursor = ("api-1", 1) ∧
      w.accepted = [.event (revocation 1 "user-1")] := by
    refine ⟨_, _, Run.cons ⟨.number _ "SESSION_REVOKED_ALL" (userReference "user-1"), trivial⟩ <|
      Run.cons ⟨.request rfl, trivial⟩ <| Run.cons ⟨.serve rfl, ?_⟩ <|
      Run.cons ⟨.deliver (e := revocation 1 "user-1") ⟨mem_cons_self, rfl, not_mem_nil⟩,
        fun _ => ⟨?_, ?_⟩⟩ <|
      Run.cons ⟨.forward rfl rfl, trivial⟩ <| Run.cons ⟨.read rfl, fun _ => ?_⟩ <| Run.nil _,
      rfl, rfl⟩
    · exact fun e he => absurd he not_mem_nil
    · rintro x ⟨hx, _, _⟩ _
      rw [mem_singleton.mp hx]
      exact Nat.le_refl 1
    · intro id hid
      obtain rfl : 1 = id := Option.some.inj hid
      show 0 < 64
      decide
    · show 0 ≤ _
      exact Nat.zero_le _
  obtain ⟨ls, w, hrun, hcur, hacc⟩ := hrun
  exact ⟨ls, w, feed_safe sampleFeed_init hrun, hrun, hcur, hacc⟩

/-- Two publishers: the second event is delivered before the first, and the first is dropped
when it comes. Two processes: the answer of the first arrives after that of the second. -/
theorem feed_skips_and_replaces :
    FeedInit sampleFeed ∧
    (∃ ls w, Run FeedStep sampleFeed ls w ∧ w.cache.cursor = ("api-1", 2) ∧
      w.delivered = [revocation 1 "user-1", revocation 2 "user-2"] ∧
      w.accepted = [.event (revocation 2 "user-2")] ∧ ¬ w.Settled "api-1" 2) ∧
    (∃ ls w, Run FeedStep sampleFeed ls w ∧ w.cache.cursor = ("api-1", 0) ∧
      w.processes = ["api-2", "api-1", ""] ∧
      w.accepted = [.snapshot "api-1" 0, .snapshot "api-2" 0] ∧ ¬ w.Safe) := by
  refine ⟨sampleFeed_init, ?_, ?_⟩
  · refine ⟨_, _, Run.cons (.number _ "SESSION_REVOKED_ALL" (userReference "user-1")) <|
      Run.cons (.number _ "SESSION_REVOKED_ALL" (userReference "user-2")) <|
      Run.cons (.request rfl) <| Run.cons (.serve rfl) <|
      Run.cons (.deliver (e := revocation 2 "user-2") ⟨mem_cons_self, rfl, not_mem_nil⟩) <|
      Run.cons (.forward rfl rfl) <| Run.cons (.read rfl) <|
      Run.cons (.deliver (e := revocation 1 "user-1") ⟨mem_cons_of_mem _ mem_cons_self, rfl, ?_⟩) <|
      Run.cons (.forward rfl rfl) <| Run.cons (.read rfl) <| Run.nil _, rfl, rfl, rfl, ?_⟩
    · intro hmem
      have hrev : 1 = 2 := congrArg EventEnvelope.revision (mem_singleton.mp hmem)
      cases hrev
    · intro hset
      rcases hset (revocation 1 "user-1") (mem_cons_of_mem _ mem_cons_self) rfl rfl
        (by decide) with hev | ⟨r, hsnap, _⟩
      · have heq : Accepted.event (revocation 1 "user-1") = .event (revocation 2 "user-2") :=
          mem_singleton.mp hev
        have hrev : 1 = 2 := congrArg EventEnvelope.revision (Accepted.event.inj heq)
        cases hrev
      · have heq : Accepted.snapshot "api-1" r = .event (revocation 2 "user-2") :=
          mem_singleton.mp hsnap
        cases heq
  · refine ⟨_, _, Run.cons (.answer (s := emptySnapshot "api-1") rfl rfl) <|
      Run.cons (@FeedStep.restart _ "api-2" (by decide)) <|
      Run.cons (.answer (s := emptySnapshot "api-2") rfl rfl) <|
      Run.cons (@FeedStep.reconcile _ _ [] _ rfl) <| Run.cons (@FeedStep.reconcile _ _ [] _ rfl) <|
      Run.nil _, rfl, rfl, rfl, fun hsafe => ?_⟩
    have hage : ["api-2", "api-1", ""].idxOf "api-1" ≤ ["api-2", "api-1", ""].idxOf "api-2" :=
      rel_of_pairwise_cons hsafe.newer mem_cons_self
    exact absurd hage (by decide)

end RemoteControl.Sync
