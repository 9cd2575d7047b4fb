import RemoteControl.Hbbs.Reload
import RemoteControl.Lib.Events
import RemoteControl.Lib.Overwrite

/-!
# The file of the cache

The reconciliation, the event stream and the heartbeat each change the cache and then call `save`
of `auth/cache.rs`. `save` holds the read lock to its end: while it writes, the cache does not
change, but another `save` may run. Both write to the one temporary file.

> `fs::write` truncates the temporary file, and `rename` takes whatever it holds at that moment.

A file is an inode, which has its content and may have a name. A `save` that has opened the
temporary file writes to that inode, whatever its name is by then. A crash ends the process and
leaves the files; the next process loads the cache from its file.
-/

namespace RemoteControl.Hbbs

open Lib Sync List Function

variable {i j k : Nat}

/-- What is known of a document's bytes: none is zero, and an object does not begin with another. -/
structure FileText (β : Type) extends JsonText (List β) where
  zero : β
  nonzero : ∀ j, zero ∉ toVec j
  whole : ∀ fields fields', toVec (.obj fields) <+: toVec (.obj fields') →
    toVec (.obj fields) = toVec (.obj fields')

/-- An order in which the maps are walked after a change. -/
structure MapOrder where
  order : CacheState → CacheState
  reordered : ∀ st, Reordered st (order st)

inductive SaveTask
  | reconciliation | events | heartbeat
deriving DecidableEq, Repr

inductive SaveStage (β : Type)
  | idle
  /-- The task has changed the cache; `save` is next. -/
  | changed
  /-- The read lock is held, the cache is serialised and the directory is there. -/
  | locked (data : List β)
  /-- The temporary file was opened; so much of the data is written. -/
  | writing (data : List β) (inode offset : Nat)

def SaveStage.isWriting {β : Type} : SaveStage β → Bool
  | .writing _ _ _ => true
  | _ => false

def SaveStage.data? {β : Type} : SaveStage β → Option (List β)
  | .locked data => some data
  | .writing data _ _ => some data
  | _ => none

structure Disk (β : Type) where
  files : Nat → List β
  /-- The first inode that is not used. -/
  next : Nat
  temporary : Option Nat
  path : Option Nat

/-- The inode that `File::create` opens: the one of the temporary file, or a new one. -/
def Disk.opened {β : Type} (disk : Disk β) : Nat := disk.temporary.getD disk.next

/-- `File::create`; a file that is there is truncated. -/
def Disk.create {β : Type} (disk : Disk β) : Disk β :=
  { disk with
    files := update disk.files disk.opened []
    next := max disk.next (disk.opened + 1)
    temporary := some disk.opened }

structure CacheHost (β : Type) where
  cache : CacheState
  disk : Disk β
  stages : SaveTask → SaveStage β
  /-- The states that the cache has had. -/
  had : List CacheState

inductive SaveEvent
  | deliver (task : SaveTask) (d : Delivered) (walk : MapOrder)
  | lock (task : SaveTask)
  | create (task : SaveTask)
  | write (task : SaveTask) (n : Nat)
  | rename (task : SaveTask)
  /-- An operation fails for a reason of its own. -/
  | abort (task : SaveTask)
  | crash (walk : MapOrder)

/-- What a task is given; an event that cannot be applied is not followed by a `save`. -/
def SaveTask.brings : SaveTask → Delivered → Bool
  | .events, .event e => (decodeEvent e.kind e.payload).isOk
  | .events, .snapshot _ => false
  | _, .snapshot _ => true
  | _, .event _ => false

namespace CacheHost

variable {β : Type} (t : FileText β)

/-- What a reader of the file finds. -/
def file (w : CacheHost β) : Option (List β) := w.disk.path.map w.disk.files

def setStage (w : CacheHost β) (task : SaveTask) (stage : SaveStage β) : CacheHost β :=
  { w with stages := update w.stages task stage }

/-- No `save` holds the lock. -/
def unlocked (w : CacheHost β) : Bool :=
  (w.stages .reconciliation).data?.isNone && (w.stages .events).data?.isNone &&
    (w.stages .heartbeat).data?.isNone

def create (w : CacheHost β) (task : SaveTask) (data : List β) : CacheHost β :=
  { w with disk := w.disk.create }.setStage task (.writing data w.disk.opened 0)

/-- One `write` of `write_all`, of at least one byte. -/
def write (w : CacheHost β) (task : SaveTask) (data : List β) (i k n : Nat) : CacheHost β :=
  let bytes := (data.drop k).take (n + 1)
  { w with disk := { w.disk with
      files := update w.disk.files i (overwrite t.zero (w.disk.files i) k bytes) } }.setStage task
    (.writing data i (k + bytes.length))

/-- `rename`, with its error if there is no temporary file. -/
def rename (w : CacheHost β) (task : SaveTask) : CacheHost β := match w.disk.temporary with
  | none => w.setStage task .idle
  | some j =>
    { w with disk := { w.disk with temporary := none, path := some j } }.setStage task .idle

/-- `load_last_valid_cache`. -/
def restart (w : CacheHost β) : CacheState := (w.file.bind (loaded t.toJsonText)).getD .empty

def perform (w : CacheHost β) : SaveEvent → CacheHost β
  | .deliver task d walk =>
    match w.stages task with
    | .idle =>
      if w.unlocked && task.brings d then
        let cache := walk.order (w.cache.receive d)
        { w with cache, had := cache :: w.had }.setStage task .changed
      else w
    | _ => w
  | .lock task =>
    match w.stages task with
    | .changed => w.setStage task (.locked (saved t.toJsonText w.cache))
    | _ => w
  | .create task =>
    match w.stages task with
    | .locked data => w.create task data
    | _ => w
  | .write task n =>
    match w.stages task with
    | .writing data i k => if k < data.length then w.write t task data i k n else w
    | _ => w
  | .rename task =>
    match w.stages task with
    | .writing data _ k => if k < data.length then w else w.rename task
    | _ => w
  | .abort task => w.setStage task .idle
  | .crash walk =>
    let cache := walk.order (w.restart t)
    { w with cache, stages := fun _ => .idle, had := cache :: w.had }

/-! ## What is expected -/

/-- The source and the revision of what a file holds. -/
def cursorOf (content : List β) : Option (String × Nat) :=
  (loaded t.toJsonText content).map CacheState.cursor

/-- The second content is not an older one of the same source. -/
def NotOlder (before after : List β) : Prop :=
  ∀ a b, cursorOf t before = some a → cursorOf t after = some b → a.1 = b.1 → a.2 ≤ b.2

/-- The data that a task is about to give its name. -/
def finishes (w : CacheHost β) : SaveEvent → Option (List β)
  | .rename task =>
    match w.stages task with
    | .writing data _ k => if k < data.length then none else some data
    | _ => none
  | _ => none

structure Proper (w : CacheHost β) (e : SaveEvent) : Prop where
  /-- The file is a state that the cache has had. -/
  whole : ∀ content ∈ (w.perform t e).file,
    ∃ st ∈ (w.perform t e).had, content = saved t.toJsonText st
  newer : ∀ before ∈ w.file, ∀ after ∈ (w.perform t e).file, NotOlder t before after
  /-- No `save` misses its temporary file. -/
  found : (w.finishes e).isSome = true → w.disk.temporary.isSome = true

/-- A `save` finds its own data in the temporary file, and nothing newer in the file. -/
def Orderly (w : CacheHost β) (e : SaveEvent) : Prop :=
  ∀ data ∈ w.finishes e, ∃ j, w.disk.temporary = some j ∧ w.disk.files j = data ∧
    ∀ before ∈ w.file, NotOlder t before data

/-- A process starts; the file is from an earlier one. -/
structure Start (w : CacheHost β) : Prop where
  had : w.cache ∈ w.had
  idle : ∀ task, w.stages task = .idle
  whole : ∀ content ∈ w.file, ∃ st ∈ w.had, content = saved t.toJsonText st
  apart : ∀ i, w.disk.temporary = some i → w.disk.path ≠ some i
  temporary : ∀ i ∈ w.disk.temporary, i < w.disk.next
  path : ∀ i ∈ w.disk.path, i < w.disk.next

/-! ## The invariant -/

/-- A `save` in progress has serialised the cache as it is. The file is not touched by it unless it
is whole, and the temporary file has nothing in it that is not the data's. -/
def Fits (cache : CacheState) (disk : Disk β) : SaveStage β → Prop
  | .idle | .changed => True
  | .locked data => data = saved t.toJsonText cache
  | .writing data i k => data = saved t.toJsonText cache ∧ i < disk.next ∧ k ≤ data.length ∧
    (disk.path = some i → disk.files i = data) ∧
    ∀ j ∈ disk.temporary, Patchy t.zero data (disk.files j)

structure Inv (w : CacheHost β) : Prop where
  had : w.cache ∈ w.had
  whole : ∀ content ∈ w.file, ∃ st ∈ w.had, content = saved t.toJsonText st
  apart : ∀ i, w.disk.temporary = some i → w.disk.path ≠ some i
  temporary : ∀ i ∈ w.disk.temporary, i < w.disk.next
  path : ∀ i ∈ w.disk.path, i < w.disk.next
  stages : ∀ task, Fits t w.cache w.disk (w.stages task)

variable {t} {data : List β} {e : SaveEvent} {stage : SaveStage β} {task : SaveTask}
  {w : CacheHost β}

theorem Start.inv (h : w.Start t) : w.Inv t where
  had := h.had
  whole := h.whole
  apart := h.apart
  temporary := h.temporary
  path := h.path
  stages task := by
    rw [h.idle task]
    trivial

theorem stages_setStage {P : SaveStage β → Prop} (h : ∀ task, P (w.stages task)) (hstage : P stage)
    (task' : SaveTask) : P ((w.setStage task stage).stages task') := by
  show P (update w.stages task stage task')
  rw [update_apply]
  split
  next => exact hstage
  next => exact h task'

theorem Inv.setStage (hi : w.Inv t) (h : Fits t w.cache w.disk stage) :
    (w.setStage task stage).Inv t :=
  { hi with stages := stages_setStage hi.stages h }

/-- Where no `save` is in progress, the cache may change. -/
theorem Inv.changed (hi : w.Inv t) {stages : SaveTask → SaveStage β}
    (h : ∀ task, (stages task).data? = none) (cache : CacheState) :
    { w with cache, stages, had := cache :: w.had }.Inv t :=
  { hi with
    had := mem_cons_self
    whole := fun content hc => by
      obtain ⟨st, hst, heq⟩ := hi.whole content hc
      exact ⟨st, mem_cons_of_mem _ hst, heq⟩
    stages := fun task => by
      have hnone := h task
      show Fits t cache w.disk (stages task)
      cases hs : stages task with
      | idle | changed => trivial
      | locked | writing =>
        rw [hs] at hnone
        cases hnone }

theorem data_none_of_unlocked (h : w.unlocked = true) (task : SaveTask) :
    (w.stages task).data? = none := by
  simp only [unlocked, Bool.and_eq_true, Option.isNone_iff_eq_none] at h
  cases task with
  | reconciliation => exact h.1.1
  | events => exact h.1.2
  | heartbeat => exact h.2

theorem file_update (h : w.disk.path ≠ some i) (content : List β) :
    w.disk.path.map (update w.disk.files i content) = w.file := by
  unfold file
  cases hp : w.disk.path with
  | none => rfl
  | some p =>
    have hne : p ≠ i := fun heq => h (hp.trans (congrArg some heq))
    exact congrArg some (update_of_ne hne _ _)

/-- Another disk, on which a file that a `save` has open is whole when it is the cache's. -/
theorem Fits.disk {cache : CacheState} {disk disk' : Disk β} (h : Fits t cache disk stage)
    (hnext : disk.next ≤ disk'.next) (hpath : ∀ i, i < disk.next → disk'.path = some i →
      (disk.path = some i → disk.files i = saved t.toJsonText cache) →
      disk'.files i = saved t.toJsonText cache)
    (hpatchy : ∀ j ∈ disk'.temporary, Patchy t.zero (saved t.toJsonText cache) (disk'.files j)) :
    Fits t cache disk' stage := by
  cases stage with
  | writing data i k =>
    obtain ⟨rfl, hlt, hk, hwhole, -⟩ := h
    exact ⟨rfl, by omega, hk, fun hp => hpath i hlt hp hwhole, hpatchy⟩
  | _ => exact h

section

variable (hi : w.Inv t)

include hi

theorem Inv.disk {disk : Disk β}
    (hwhole : ∀ content ∈ disk.path.map disk.files, ∃ st ∈ w.had, content = saved t.toJsonText st)
    (hapart : ∀ i, disk.temporary = some i → disk.path ≠ some i)
    (htemporary : ∀ i ∈ disk.temporary, i < disk.next) (hpath : ∀ i ∈ disk.path, i < disk.next)
    (hfits : ∀ {stage}, Fits t w.cache w.disk stage → Fits t w.cache disk stage) :
    { w with disk }.Inv t :=
  ⟨hi.had, hwhole, hapart, htemporary, hpath, fun task => hfits (hi.stages task)⟩

/-! ### The file operations -/

theorem Inv.path_ne_opened : w.disk.path ≠ some w.disk.opened := by
  unfold Disk.opened
  cases htmp : w.disk.temporary with
  | some i => exact hi.apart i htmp
  | none =>
    intro hp
    exact absurd (hi.path _ hp) (Nat.lt_irrefl _)

theorem Inv.create (hdata : data = saved t.toJsonText w.cache) : (w.create task data).Inv t := by
  have hpath := hi.path_ne_opened
  have hpatchy : ∀ j ∈ w.disk.create.temporary,
      Patchy t.zero (saved t.toJsonText w.cache) (w.disk.create.files j) := by
    intro j hj
    obtain rfl : w.disk.opened = j := Option.some.inj hj
    show Patchy _ _ (update w.disk.files w.disk.opened [] w.disk.opened)
    rw [update_self]
    exact patchy_nil _ _
  have hopened : w.disk.opened < w.disk.create.next := by
    show w.disk.opened < max w.disk.next (w.disk.opened + 1)
    omega
  have hcreated : { w with disk := w.disk.create }.Inv t := by
    refine hi.disk (fun content hc => ?_) (fun j hj => ?_) (fun j hj => ?_) (fun p hp => ?_)
      fun h => h.disk (Nat.le_max_left _ _) (fun j _ hp hwhole => ?_) hpatchy
    · exact hi.whole content (file_update hpath [] ▸ hc)
    · obtain rfl : w.disk.opened = j := Option.some.inj hj
      exact hpath
    · obtain rfl : w.disk.opened = j := Option.some.inj hj
      exact hopened
    · have hlt := hi.path p hp
      show p < max w.disk.next (w.disk.opened + 1)
      omega
    · have hne : j ≠ w.disk.opened := fun heq => hpath (heq ▸ hp)
      exact (update_of_ne hne _ _).trans (hwhole hp)
  exact hcreated.setStage
    ⟨hdata, hopened, Nat.zero_le _, fun hp => absurd hp hpath, hdata ▸ hpatchy⟩

theorem file_write (hstage : w.stages task = .writing data i k) (n : Nat) :
    (w.write t task data i k n).file = w.file := by
  by_cases hp : w.disk.path = some i
  · -- the file is whole, and what is written is there already
    obtain ⟨-, -, hk, hwhole, -⟩ : Fits t w.cache w.disk (.writing data i k) :=
      hstage ▸ hi.stages task
    show w.disk.path.map (update w.disk.files i _) = w.disk.path.map w.disk.files
    rw [hwhole hp, overwrite_text t.zero hk, hp]
    show some (update w.disk.files i data i) = some (w.disk.files i)
    rw [update_self, hwhole hp]
  · exact file_update hp _

theorem Inv.write (hstage : w.stages task = .writing data i k) (n : Nat) :
    (w.write t task data i k n).Inv t := by
  have hfile := file_write hi hstage n
  obtain ⟨rfl, hlt, hk, hwhole, hpatchy⟩ : Fits t w.cache w.disk (.writing data i k) :=
    hstage ▸ hi.stages task
  -- what the disk has afterwards
  have hwritten : ∀ j, w.disk.files j = saved t.toJsonText w.cache →
      update w.disk.files i (overwrite t.zero (w.disk.files i) k
        (((saved t.toJsonText w.cache).drop k).take (n + 1))) j = saved t.toJsonText w.cache := by
    intro j hj
    rw [update_apply]
    split
    next heq => rw [← heq, hj, overwrite_text t.zero hk]
    next => exact hj
  have hpatchy' : ∀ j ∈ w.disk.temporary, Patchy t.zero (saved t.toJsonText w.cache)
      (update w.disk.files i (overwrite t.zero (w.disk.files i) k
        (((saved t.toJsonText w.cache).drop k).take (n + 1))) j) := by
    intro j hj
    rw [update_apply]
    split
    next heq => exact (heq ▸ hpatchy j hj).overwrite hk (n + 1)
    next => exact hpatchy j hj
  refine Inv.setStage (hi.disk (fun content hc => hi.whole content (hfile ▸ hc)) hi.apart
    hi.temporary hi.path fun h => h.disk (Nat.le_refl _)
      (fun j _ hp hw => hwritten j (hw hp)) hpatchy') ?_
  refine ⟨rfl, hlt, ?_, fun hp => hwritten i (hwhole hp), hpatchy'⟩
  rw [length_piece]
  omega

theorem Inv.rename (hstage : w.stages task = .writing data i k) (htmp : w.disk.temporary = some j)
    (hj : w.disk.files j = data) : (w.rename task).Inv t := by
  obtain ⟨rfl, -⟩ : Fits t w.cache w.disk (.writing data i k) := hstage ▸ hi.stages task
  unfold CacheHost.rename
  rw [htmp]
  have hrenamed : { w with disk := { w.disk with temporary := none, path := some j } }.Inv t := by
    refine hi.disk (fun content hc => ?_) (fun i hi => ?_) (fun i hi => ?_) (fun p hp => ?_)
      fun h => h.disk (Nat.le_refl _) (fun i _ hp _ => ?_) fun i hi => ?_
    · cases hc
      exact ⟨w.cache, hi.had, hj⟩
    · cases hi
    · cases hi
    · cases hp
      exact hi.temporary _ htmp
    · cases hp
      exact hj
    · cases hi
  exact hrenamed.setStage trivial

/-! ## Every event -/

/-- Only `rename` gives the file another content. -/
theorem Inv.file_perform (he : w.finishes e = none) : (w.perform t e).file = w.file := by
  fun_cases CacheHost.perform t w e with
  | case6 => exact file_update hi.path_ne_opened []
  | case8 task n data i k hstage => exact file_write hi hstage n
  | case12 task data i k hstage hk =>
    simp only [finishes, hstage, if_neg hk] at he
    cases he
  | _ => rfl

theorem Inv.perform (he : w.Orderly t e) : (w.perform t e).Inv t := by
  fun_cases CacheHost.perform t w e with
  | case1 task d walk _ h =>
    simp only [Bool.and_eq_true] at h
    exact Inv.setStage (hi.changed (data_none_of_unlocked h.1) _) trivial
  | case4 => exact hi.setStage rfl
  | case6 task data hstage =>
    have hdata : Fits t w.cache w.disk (.locked data) := hstage ▸ hi.stages task
    exact hi.create hdata
  | case8 task n data i k hstage => exact hi.write hstage n
  | case12 task data i k hstage hk =>
    obtain ⟨j, htmp, hj, -⟩ := he data (by simp only [finishes, hstage, if_neg hk]; rfl)
    exact hi.rename hstage htmp hj
  | case14 => exact hi.setStage trivial
  | case15 => exact hi.changed (fun _ => rfl) _
  | _ => exact hi

end

/-- A task that is about to rename has written all its data. -/
theorem finishes_some (h : w.finishes e = some data) :
    ∃ task i k, e = .rename task ∧ w.stages task = .writing data i k ∧ ¬ k < data.length := by
  revert h
  fun_cases finishes w e with
  | case2 task data' i k hstage hk =>
    intro h
    cases h
    exact ⟨task, i, k, rfl, hstage, hk⟩
  | _ => exact nofun

/-- A temporary file that is whole for a reader is what the tasks are writing. -/
theorem eq_saved_of_patchy {content : List β} {st st' : CacheState}
    (h : Patchy t.zero (saved t.toJsonText st) content)
    (hwhole : content = saved t.toJsonText st') : content = saved t.toJsonText st := by
  subst hwhole
  exact t.whole _ _ (h.beginning (t.nonzero _))

theorem file_rename (t : FileText β) (hstage : w.stages task = .writing data i k)
    (hk : ¬ k < data.length) (htmp : w.disk.temporary = some j) :
    (w.perform t (.rename task)).file = some (w.disk.files j) := by
  simp only [CacheHost.perform, hstage, if_neg hk, CacheHost.rename, htmp]
  rfl

theorem Inv.proper_iff (hi : w.Inv t) (e : SaveEvent) : w.Proper t e ↔ w.Orderly t e := by
  constructor
  · intro h data hdata
    obtain ⟨task, i, k, rfl, hstage, hk⟩ := finishes_some hdata
    obtain ⟨j, htmp⟩ := Option.isSome_iff_exists.mp (h.found (by rw [hdata]; rfl))
    obtain ⟨hdata', -, -, -, hpatchy⟩ : Fits t w.cache w.disk (.writing data i k) :=
      hstage ▸ hi.stages task
    have hafter := file_rename t hstage hk htmp
    obtain ⟨st, -, hwhole⟩ := h.whole _ hafter
    have hj : w.disk.files j = data :=
      (eq_saved_of_patchy (hdata' ▸ hpatchy j htmp) hwhole).trans hdata'.symm
    exact ⟨j, htmp, hj, fun before hbefore => hj ▸ h.newer before hbefore _ hafter⟩
  · intro h
    have hinv := hi.perform h
    refine ⟨hinv.whole, fun before hbefore after hafter => ?_, fun hsome => ?_⟩
    · cases hfin : w.finishes e with
      | none =>
        -- the file is the same
        rw [hi.file_perform hfin] at hafter
        obtain rfl : before = after := Option.some.inj (hbefore.symm.trans hafter)
        intro a b ha hb _
        obtain rfl : a = b := Option.some.inj (ha.symm.trans hb)
        exact Nat.le_refl _
      | some data =>
        obtain ⟨j, htmp, hj, hnewer⟩ := h data hfin
        obtain ⟨task, i, k, rfl, hstage, hk⟩ := finishes_some hfin
        have heq := file_rename t hstage hk htmp
        obtain rfl : w.disk.files j = after := Option.some.inj (heq.symm.trans hafter)
        exact hj ▸ hnewer before hbefore
    · obtain ⟨data, hdata⟩ := Option.isSome_iff_exists.mp hsome
      obtain ⟨j, htmp, -⟩ := h data hdata
      rw [htmp]
      rfl

/-- **When the file of the cache is always whole**, never goes back and never stands in the way of
a `save`. -/
theorem file_kept_iff (hstart : w.Start t) (events : List SaveEvent) :
    Throughout (CacheHost.perform t) (Proper t) w events ↔
      Throughout (CacheHost.perform t) (Orderly t) w events :=
  throughout_congr (I := Inv t)
    (fun _ e hi hp => hi.perform ((hi.proper_iff e).mp hp)) (fun _ e hi => hi.proper_iff e)
    hstart.inv events

/-! ### One `save` at a time -/

/-- Nobody opens the temporary file while another task is writing. -/
def Alone (w : CacheHost β) : SaveEvent → Prop
  | .create task => ∀ task', task' ≠ task → (w.stages task').isWriting = false
  | _ => True

/-- What is renamed is not older than the file. -/
def Forward (t : FileText β) (w : CacheHost β) (e : SaveEvent) : Prop :=
  ∀ data ∈ w.finishes e, ∀ before ∈ w.file, NotOlder t before data

/-- The one task that is writing has written its data up to its offset. -/
def Solo (w : CacheHost β) : Prop :=
  ∀ task data i k, w.stages task = .writing data i k →
    w.disk.temporary = some i ∧ w.disk.files i = data.take k ∧ k ≤ data.length ∧
      ∀ task', task' ≠ task → (w.stages task').isWriting = false

/-- Nobody else writes, and this task does not. -/
theorem solo_of_none (h : ∀ task, (w.stages task).isWriting = false) : w.Solo := by
  intro task data i k hstage
  have hnot := h task
  rw [hstage] at hnot
  cases hnot

theorem Start.solo (h : w.Start t) : w.Solo := solo_of_none fun task => by
  rw [h.idle task]
  rfl

theorem Solo.setStage (hs : w.Solo) (h : stage.isWriting = false) :
    (w.setStage task stage).Solo := by
  intro task' data i k hstage
  replace hstage : update w.stages task stage task' = .writing data i k := hstage
  rw [update_apply] at hstage
  split at hstage
  next =>
    rw [hstage] at h
    cases h
  next =>
    obtain ⟨htmp, hfile, hk, hothers⟩ := hs task' data i k hstage
    refine ⟨htmp, hfile, hk, fun other hne => ?_⟩
    show (update w.stages task stage other).isWriting = false
    rw [update_apply]
    split
    next => exact h
    next => exact hothers other hne

/-- A task that nobody disturbs goes on. -/
theorem solo_writing {disk : Disk β}
    (hothers : ∀ task', task' ≠ task → (w.stages task').isWriting = false)
    (htmp : disk.temporary = some i) (hfile : disk.files i = data.take k) (hk : k ≤ data.length) :
    ({ w with disk }.setStage task (.writing data i k)).Solo := by
  have hstages : ∀ other, other ≠ task →
      (update w.stages task (.writing data i k) other).isWriting = false := by
    intro other hne
    rw [update_of_ne hne]
    exact hothers other hne
  intro task' data' i' k' hstage
  replace hstage : update w.stages task (.writing data i k) task' = .writing data' i' k' := hstage
  by_cases hne : task' = task
  · subst hne
    rw [update_self] at hstage
    cases hstage
    exact ⟨htmp, hfile, hk, hstages⟩
  · have hnot := hstages task' hne
    rw [hstage] at hnot
    cases hnot

theorem Solo.perform (hs : w.Solo) (t : FileText β) (he : w.Alone e) : (w.perform t e).Solo := by
  fun_cases CacheHost.perform t w e with
  | case1 => exact Solo.setStage hs rfl
  | case4 | case14 => exact hs.setStage rfl
  | case6 task data => exact solo_writing he rfl (update_self ..) (Nat.zero_le _)
  | case8 task n data i k hstage =>
    obtain ⟨htmp, hfile, hk, hothers⟩ := hs task data i k hstage
    have hlen := length_piece data k (n + 1)
    refine solo_writing hothers htmp ?_ (by omega)
    show update w.disk.files i _ i = _
    rw [update_self, hfile, overwrite_take t.zero hk, hlen]
  | case12 task data i k hstage =>
    -- the one task that was writing is done
    obtain ⟨htmp, -, -, hothers⟩ := hs task data i k hstage
    unfold CacheHost.rename
    rw [htmp]
    refine solo_of_none fun other => ?_
    show (update w.stages task SaveStage.idle other).isWriting = false
    rw [update_apply]
    split
    next => rfl
    next hne => exact hothers other hne
  | case15 => exact solo_of_none fun _ => rfl
  | _ => exact hs

theorem Solo.orderly (hs : w.Solo) (hf : w.Forward t e) : w.Orderly t e := by
  intro data hdata
  obtain ⟨task, i, k, rfl, hstage, hk⟩ := finishes_some hdata
  obtain ⟨htmp, hfile, hle, -⟩ := hs task data i k hstage
  refine ⟨i, htmp, ?_, hf data hdata⟩
  rw [hfile, take_of_length_le (by omega)]

/-- A simple case: no two tasks write at once, and nothing older is renamed. -/
theorem file_kept_of_alone (hstart : w.Start t) {events : List SaveEvent}
    (halone : Throughout (CacheHost.perform t) Alone w events)
    (hforward : Throughout (CacheHost.perform t) (Forward t) w events) :
    Throughout (CacheHost.perform t) (Proper t) w events := by
  have hboth : Throughout (CacheHost.perform t) (fun w e => w.Alone e ∧ w.Forward t e) w events :=
    fun before e hpre => ⟨halone before e hpre, hforward before e hpre⟩
  exact hboth.implies (I := fun w => w.Inv t ∧ w.Solo)
    (fun _ _ hi he => ⟨hi.1.perform (hi.2.orderly he.2), hi.2.perform t he.1⟩)
    (fun _ e hi he => (hi.1.proper_iff e).mpr (hi.2.orderly he.2)) ⟨hstart.inv, hstart.solo⟩

/-! ### Sources that do not come back

Within a source the cache never goes back. So nothing older is renamed as long as no delivery takes
the cache from another source to the one that the file is of. -/

def Onward (t : FileText β) (w : CacheHost β) : SaveEvent → Prop
  | .deliver _ d _ => d.revision < 2 ^ 63 ∧ (d.sourceId ≠ w.cache.sourceId →
    ∀ content ∈ w.file, ∀ c ∈ cursorOf t content, c.1 ≠ d.sourceId)
  | _ => True

/-- The file is not newer than the cache, and revisions are `i64`. -/
structure Ahead (t : FileText β) (w : CacheHost β) : Prop where
  behind : ∀ content ∈ w.file, ∀ c ∈ cursorOf t content,
    c.1 = w.cache.sourceId → c.2 ≤ w.cache.revision
  bounded : ∀ st ∈ w.had, st.revision < 2 ^ 63

theorem cursorOf_saved {st : CacheState} (h : st.revision < 2 ^ 63) :
    cursorOf t (saved t.toJsonText st) = some st.cursor := by
  unfold cursorOf
  rw [loaded_saved t.toJsonText h]
  rfl

theorem Ahead.forward (ha : w.Ahead t) (hi : w.Inv t) (e : SaveEvent) : w.Forward t e := by
  intro data hdata before hbefore c c' hc hc' hsource
  obtain ⟨task, i, k, rfl, hstage, -⟩ := finishes_some hdata
  obtain ⟨rfl, -⟩ : Fits t w.cache w.disk (.writing data i k) := hstage ▸ hi.stages task
  rw [cursorOf_saved (ha.bounded _ hi.had)] at hc'
  cases hc'
  exact ha.behind before hbefore c hc hsource

theorem Ahead.receive (ha : w.Ahead t) (hi : w.Inv t) {d : Delivered} {walk : MapOrder}
    (h : w.Onward t (.deliver task d walk)) :
    (w.cache.receive d).revision < 2 ^ 63 ∧ ∀ content ∈ w.file, ∀ c ∈ cursorOf t content,
      c.1 = (w.cache.receive d).sourceId → c.2 ≤ (w.cache.receive d).revision := by
  cases haccepts : w.cache.accepts d with
  | false =>
    rw [CacheState.receive_of_not haccepts]
    exact ⟨ha.bounded _ hi.had, ha.behind⟩
  | true =>
    obtain ⟨hsource, hrevision⟩ := Prod.mk.inj (CacheState.receive_of_accepts haccepts).1
    refine ⟨hrevision ▸ h.1, fun content hcontent c hc heq => ?_⟩
    by_cases hsame : d.sourceId = w.cache.sourceId
    · exact (ha.behind content hcontent c hc (heq.trans (hsource.trans hsame))).trans
        (CacheState.revision_le_receive (.inl rfl) hsame)
    · exact absurd (heq.trans hsource) (h.2 hsame content hcontent c hc)

/-- The next process has what the file has. -/
theorem Ahead.restart (ha : w.Ahead t) (hi : w.Inv t) : (w.restart t).revision < 2 ^ 63 ∧
    ∀ content ∈ w.file, ∀ c ∈ cursorOf t content, c = (w.restart t).cursor := by
  unfold CacheHost.restart
  cases hfile : w.file with
  | none => exact ⟨show 0 < 2 ^ 63 by decide, nofun⟩
  | some content =>
    obtain ⟨st, hst, rfl⟩ := hi.whole content hfile
    have hbound := ha.bounded st hst
    rw [Option.bind_some, loaded_saved t.toJsonText hbound]
    refine ⟨hbound, fun content hcontent c hc => ?_⟩
    cases hcontent
    rw [cursorOf_saved hbound] at hc
    cases hc
    rfl

theorem Ahead.perform (ha : w.Ahead t) (hi : w.Inv t) (ho : w.Orderly t e) (h : w.Onward t e) :
    (w.perform t e).Ahead t := by
  cases hfin : w.finishes e with
  | some data =>
    -- the file is now the cache
    obtain ⟨j, htmp, rfl, -⟩ := ho data hfin
    obtain ⟨task, i, k, rfl, hstage, hk⟩ := finishes_some hfin
    obtain ⟨hdata, -⟩ : Fits t w.cache w.disk (.writing _ i k) := hstage ▸ hi.stages task
    have hfile := file_rename t hstage hk htmp
    simp only [CacheHost.perform, hstage, if_neg hk, CacheHost.rename, htmp] at hfile ⊢
    refine ⟨fun content hcontent c hc _ => ?_, ha.bounded⟩
    obtain rfl : _ = content := Option.some.inj (hfile.symm.trans hcontent)
    rw [hdata, cursorOf_saved (ha.bounded _ hi.had)] at hc
    cases hc
    exact Nat.le_refl _
  | none =>
    have hfile := hi.file_perform hfin
    revert hfile
    fun_cases CacheHost.perform t w e with
    | case1 task d walk =>
      obtain ⟨hbound, hbehind⟩ := ha.receive hi h
      have hsame := walk.reordered (w.cache.receive d)
      refine fun _ => ⟨fun content hcontent c hc heq => ?_,
        forall_mem_cons.mpr ⟨hsame.revision ▸ hbound, ha.bounded⟩⟩
      exact (hbehind content hcontent c hc (heq.trans hsame.sourceId.symm)).trans_eq hsame.revision
    | case15 walk =>
      obtain ⟨hbound, hcursor⟩ := ha.restart hi
      have hsame := walk.reordered (w.restart t)
      refine fun _ => ⟨fun content hcontent c hc _ => ?_,
        forall_mem_cons.mpr ⟨hsame.revision ▸ hbound, ha.bounded⟩⟩
      rw [hcursor content hcontent c hc]
      exact hsame.revision.le
    | case12 task data i k hstage hk =>
      simp only [finishes, hstage, if_neg hk] at hfin
      cases hfin
    | _ =>
      intro hfile
      exact ⟨fun content hcontent => ha.behind content (hfile ▸ hcontent), ha.bounded⟩

/-- **One `save` at a time, and no source that comes back**: the file is always whole and never
goes back. -/
theorem file_kept_of_onward (hstart : w.Start t) (hahead : w.Ahead t) {events : List SaveEvent}
    (halone : Throughout (CacheHost.perform t) Alone w events)
    (honward : Throughout (CacheHost.perform t) (Onward t) w events) :
    Throughout (CacheHost.perform t) (Proper t) w events := by
  have hboth : Throughout (CacheHost.perform t) (fun w e => w.Alone e ∧ w.Onward t e) w events :=
    fun before e hpre => ⟨halone before e hpre, honward before e hpre⟩
  have horderly : ∀ (w : CacheHost β) e, w.Inv t ∧ w.Solo ∧ w.Ahead t → w.Orderly t e :=
    fun _ e ⟨hi, hs, ha⟩ => hs.orderly (ha.forward hi e)
  exact hboth.implies (I := fun w => w.Inv t ∧ w.Solo ∧ w.Ahead t)
    (fun w e h he => ⟨h.1.perform (horderly w e h), h.2.1.perform t he.1,
      h.2.2.perform h.1 (horderly w e h) he.2⟩)
    (fun w e h _ => (h.1.proper_iff e).mpr (horderly w e h)) ⟨hstart.inv, hstart.solo, hahead⟩

end CacheHost

/-! ### Two tasks at once -/

/-- A document and its end; a byte that was never written is `none`. -/
def twoBytes : FileText (Option (Option Json)) where
  toVec j := [some (some j), some none]
  fromSlice
    | [some (some j), some none] => keptDocuments.fromSlice j
    | _ => none
  reread := keptDocuments.reread
  reread_int := keptDocuments.reread_int
  fromSlice_toVec _ := rfl
  zero := none
  nonzero _ h := by simp at h
  whole _ _ h := h.eq_of_length rfl

def sameOrder : MapOrder := ⟨id, fun st => { Alike.refl st with rows := .refl _ }⟩

namespace CacheHost

/-- A first start, without a file. -/
def sampleHost : CacheHost (Option (Option Json)) where
  cache := .empty
  disk := ⟨fun _ => [], 0, none, none⟩
  stages _ := .idle
  had := [.empty]

theorem sampleHost_start : sampleHost.Start twoBytes where
  had := mem_singleton.mpr rfl
  idle _ := rfl
  whole _ h := by cases h
  apart _ h := by cases h
  temporary _ h := by cases h
  path _ h := by cases h

/-- A snapshot of a source. -/
def answer (sourceId : String) (revision : Nat) : Delivered :=
  .snapshot { emptySnapshot sourceId with revision }

/-- The reconciliation and the heartbeat have both asked for a snapshot. The one has written it
when the other truncates the temporary file. -/
def truncated : List SaveEvent :=
  [.deliver .reconciliation (answer "api-1" 1) sameOrder,
    .deliver .heartbeat (answer "api-1" 1) sameOrder, .lock .reconciliation, .lock .heartbeat,
    .create .reconciliation, .write .reconciliation 0, .write .reconciliation 0,
    .create .heartbeat, .rename .reconciliation, .write .heartbeat 1, .rename .heartbeat]

def saveOf (task : SaveTask) (d : Delivered) : List SaveEvent :=
  [.deliver task d sameOrder, .lock task, .create task, .write task 0, .write task 0, .rename task]

/-- An answer of a former process comes last, and that of the present one was not yet saved. -/
def wentBack : List SaveEvent :=
  saveOf .reconciliation (answer "api-1" 2) ++
    .deliver .reconciliation (answer "api-2" 1) sameOrder :: saveOf .heartbeat (answer "api-1" 1)

/-- The file is empty after the first `rename`, the second one fails, and in another run an older
state of the same source replaces a newer one. -/
theorem overlapping_saves : sampleHost.Start twoBytes ∧
    ((truncated.take 9).foldl (perform twoBytes) sampleHost).file = some [] ∧
    loaded twoBytes.toJsonText [] = none ∧
    (((truncated.take 10).foldl (perform twoBytes) sampleHost).finishes (.rename .heartbeat)).isSome ∧
    ((truncated.take 10).foldl (perform twoBytes) sampleHost).disk.temporary = none ∧
    ¬ Throughout (perform twoBytes) (Proper twoBytes) sampleHost truncated ∧
    ((wentBack.take 6).foldl (perform twoBytes) sampleHost).file.bind (cursorOf twoBytes)
      = some ("api-1", 2) ∧
    (wentBack.foldl (perform twoBytes) sampleHost).file.bind (cursorOf twoBytes)
      = some ("api-1", 1) ∧
    ¬ Throughout (perform twoBytes) (Proper twoBytes) sampleHost wentBack := by
  refine ⟨sampleHost_start, rfl, rfl, rfl, rfl, fun h => ?_, rfl, rfl, fun h => ?_⟩
  · have hlast := h (truncated.take 10) (.rename .heartbeat) (prefix_refl _)
    exact absurd (hlast.found rfl) (by decide)
  · have hlast := h (wentBack.take 12) (.rename .heartbeat) (prefix_refl _)
    have hle := hlast.newer _ rfl _ rfl _ _ rfl rfl rfl
    exact absurd hle (by decide)

def inTurn : List SaveEvent :=
  saveOf .reconciliation (answer "api-1" 1) ++ saveOf .heartbeat (answer "api-1" 2)

theorem inTurn_orderly : Throughout (perform twoBytes) (Orderly twoBytes) sampleHost inTurn := by
  have hother : ∀ {w : CacheHost (Option (Option Json))} {e}, w.finishes e = none → w.Orderly twoBytes e := by
    intro w e h data hdata
    rw [h] at hdata
    cases hdata
  unfold inTurn saveOf
  simp only [cons_append, nil_append]
  repeat rw [throughout_cons]
  refine ⟨hother rfl, hother rfl, hother rfl, hother rfl, hother rfl, fun data hdata => ?_,
    hother rfl, hother rfl, hother rfl, hother rfl, hother rfl, fun data hdata => ?_,
    throughout_nil _ _⟩
  · cases hdata
    exact ⟨0, rfl, rfl, nofun⟩
  · cases hdata
    refine ⟨1, rfl, rfl, fun before h a b ha hb _ => ?_⟩
    cases h
    cases ha
    cases hb
    decide

theorem saves_in_turn : sampleHost.Start twoBytes ∧
    (inTurn.foldl (perform twoBytes) sampleHost).file.bind (cursorOf twoBytes)
      = some ("api-1", 2) ∧
    Throughout (perform twoBytes) (Proper twoBytes) sampleHost inTurn :=
  ⟨sampleHost_start, rfl, (file_kept_iff sampleHost_start inTurn).mpr inTurn_orderly⟩

/-- The process of the heartbeat's `save` is killed while it writes. -/
def afterCrash : List SaveEvent :=
  saveOf .reconciliation (answer "api-1" 1) ++ (saveOf .heartbeat (answer "api-1" 2)).take 4 ++
    .crash sameOrder :: saveOf .reconciliation (answer "api-1" 3)

theorem afterCrash_kept :
    (afterCrash.foldl (perform twoBytes) sampleHost).file.bind (cursorOf twoBytes)
      = some ("api-1", 3) ∧
    Throughout (perform twoBytes) (Proper twoBytes) sampleHost afterCrash := by
  refine ⟨rfl, file_kept_of_alone sampleHost_start ?_ ?_⟩ <;> unfold afterCrash saveOf <;>
    simp only [cons_append, nil_append, take_succ_cons, take_zero] <;> repeat rw [throughout_cons]
  · refine ⟨trivial, trivial, fun task _ => ?_, trivial, trivial, trivial, trivial, trivial,
      fun task _ => ?_, trivial, trivial, trivial, trivial, fun task _ => ?_, trivial, trivial,
      trivial, throughout_nil _ _⟩ <;> cases task <;> rfl
  · have hother : ∀ {w : CacheHost (Option (Option Json))} {e}, w.finishes e = none →
        w.Forward twoBytes e := by
      intro w e h data hdata
      rw [h] at hdata
      cases hdata
    refine ⟨hother rfl, hother rfl, hother rfl, hother rfl, hother rfl, fun data _ before h => ?_,
      hother rfl, hother rfl, hother rfl, hother rfl, hother rfl, hother rfl, hother rfl,
      hother rfl, hother rfl, hother rfl, fun data hdata before h a b ha hb _ => ?_,
      throughout_nil _ _⟩
    · cases h
    · cases hdata
      cases h
      cases ha
      cases hb
      decide

end CacheHost

end RemoteControl.Hbbs
