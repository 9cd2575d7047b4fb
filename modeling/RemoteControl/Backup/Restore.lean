import RemoteControl.Backup.Staging

/-!
# What the next start does

Whatever history of staging and cancelling the files come from, a start applies nothing but a
file that was uploaded as a whole, inspected, and whose digest the marker has. Yet it may
refuse to start:

> the candidate is changed before the marker, so an attempt that is cut off in between leaves
> the marker of a file that is not there any more.

The script exits then, and does so again at every start until the files are removed by hand.
-/

namespace RemoteControl.Backup

open List

variable {data : Data} {f : Files} {second : Nat} {u : Upload}

namespace Deployment

variable (D : Deployment)

/-! ## Uploads -/

theorem flatten_limitReader : ∀ (n : Nat) (chunks : List Data),
    (limitReader n chunks).flatten = chunks.flatten.take n
  | n, [] => by simp [limitReader]
  | n, chunk :: chunks => by
    unfold limitReader
    split
    · next h => simp [h]
    · rw [flatten_cons, flatten_cons, take_append, flatten_limitReader]

variable {D}

theorem written_of_accepts (h : D.accepts u = true) :
    u.written = u.chunks.flatten ∧ u.broken = false ∧ D.inspect u.written = true := by
  simp only [accepts, Bool.and_eq_true, Bool.not_eq_true', decide_eq_true_eq] at h
  obtain ⟨⟨⟨hbroken, -⟩, hsize⟩, hinspect⟩ := h
  refine ⟨?_, hbroken, hinspect⟩
  have htake : u.written = u.chunks.flatten.take (maximumRestoreSize + 1) := flatten_limitReader _ _
  rw [htake, length_take] at hsize
  rw [htake]
  exact take_of_length_le (by omega)

/-! ## Attempts -/

theorem cut_append (A B : List FileOp) (k : Nat) (f : Files) :
    f.cut (A ++ B) k = (f.cut A k).cut B (k - A.length) := by
  unfold Files.cut
  rw [take_append, foldl_append]

/-- The upload is in a file of its own. -/
theorem cut_uploadOps (u : Upload) (k : Nat) (f : Files) :
    (f.cut (uploadOps u) k).candidate = f.candidate ∧
      (f.cut (uploadOps u) k).marker = f.marker := by
  have hkeeps : ∀ (ops : List FileOp) (f : Files),
      (∀ op ∈ ops, op = .createTemp ∨ ∃ chunk, op = .appendTemp chunk) →
      (ops.foldl FileOp.perform f).candidate = f.candidate ∧
        (ops.foldl FileOp.perform f).marker = f.marker := by
    intro ops
    induction ops with
    | nil => exact fun f _ => ⟨rfl, rfl⟩
    | cons op ops ih =>
      intro f hops
      have hrest := ih (op.perform f) fun o ho => hops o (mem_cons_of_mem _ ho)
      rcases hops op mem_cons_self with rfl | ⟨chunk, rfl⟩
      · exact hrest
      · exact hrest
  refine hkeeps _ f fun op hop => ?_
  rcases mem_cons.mp (mem_of_mem_take hop) with rfl | hop
  · exact .inl rfl
  · obtain ⟨chunk, -, rfl⟩ := mem_map.mp hop
    exact .inr ⟨chunk, rfl⟩

theorem foldl_appendTemp : ∀ (chunks : List Data) (f : Files) {data : Data},
    f.temporary = some data →
    ((chunks.map FileOp.appendTemp).foldl FileOp.perform f).temporary
      = some (data ++ chunks.flatten)
  | [], f, data, h => by simpa using h
  | chunk :: chunks, f, data, h => by
    rw [map_cons, foldl_cons, flatten_cons, ← append_assoc]
    refine foldl_appendTemp chunks _ ?_
    show f.temporary.map (· ++ chunk) = _
    rw [h]
    rfl

theorem temporary_uploadOps (u : Upload) {k : Nat} (hk : (uploadOps u).length ≤ k) (f : Files) :
    (f.cut (uploadOps u) k).temporary = some u.written := by
  unfold Files.cut
  rw [take_of_length_le hk]
  exact foldl_appendTemp u.read (FileOp.createTemp.perform f) rfl

variable (D)

/-- What an attempt leaves as candidate and marker, by how far it got. -/
inductive Change (a : Attempt) (f : Files) : Reach → Option Data → Option Text → Prop
  | untouched : Change a f .untouched f.candidate f.marker
  | removed : Change a f (.torn none) none f.marker
  | replaced (u : Upload) (hu : a.1 = .stage u) (hacc : D.accepts u = true) :
      Change a f (.torn (some u.written)) (some u.written) f.marker
  | unmarked (u : Upload) (hu : a.1 = .stage u) (hacc : D.accepts u = true) :
      Change a f .settled (some u.written) none
  | marked (u : Upload) (hu : a.1 = .stage u) (hacc : D.accepts u = true)
      (hd : D.databaseDriver = "sqlite") :
      Change a f .settled (some u.written) (some (D.markerText u.written))
  | cleared : Change a f .settled none none

/-- The changes to the two shared files, once the upload is complete. -/
theorem change_replaceOps (hacc : D.accepts u = true) (hd : D.databaseDriver = "sqlite")
    {f₁ : Files} (htemp : f₁.temporary = some u.written) (hmark : f₁.marker = f.marker)
    (k j : Nat) :
    D.Change (.stage u, k) f
      (if j = 0 then .torn none else if j ≤ 3 then .torn (some u.written) else .settled)
      (f₁.cut (D.replaceOps u) (j + 1)).candidate (f₁.cut (D.replaceOps u) (j + 1)).marker := by
  have hrenamed : f₁.temporary.or none = some u.written := by rw [htemp]; rfl
  match j with
  | 0 =>
    show D.Change _ f _ none f₁.marker
    rw [hmark]
    exact .removed
  | 1 | 2 | 3 =>
    show D.Change _ f _ (f₁.temporary.or none) f₁.marker
    rw [hmark, hrenamed]
    exact .replaced u rfl hacc
  | 4 =>
    show D.Change _ f _ (f₁.temporary.or none) none
    rw [hrenamed]
    exact .unmarked u rfl hacc
  | 5 =>
    show D.Change _ f _ (f₁.temporary.or none) (some (D.markerText u.written))
    rw [hrenamed]
    exact .marked u rfl hacc hd
  | j + 6 =>
    rw [Files.cut, take_of_length_le (by simp [replaceOps]), if_neg (by omega), if_neg (by omega)]
    show D.Change _ f _ (f₁.temporary.or none) (some (D.markerText u.written))
    rw [hrenamed]
    exact .marked u rfl hacc hd

theorem change_stage (u : Upload) (k : Nat) (f : Files) :
    D.Change (.stage u, k) f (D.reach f (.stage u, k)) (D.attempt f (.stage u, k)).candidate
      (D.attempt f (.stage u, k)).marker := by
  unfold attempt reach ops
  dsimp only
  by_cases hd : D.databaseDriver = "sqlite"
  · rw [if_pos hd]
    unfold stageRestore
    rw [cut_append]
    obtain ⟨hcand, hmark⟩ := cut_uploadOps u k f
    by_cases hacc : D.accepts u = true
    · rw [if_pos ⟨hd, hacc⟩, if_pos hacc]
      by_cases hk : k ≤ (uploadOps u).length
      · rw [if_pos hk, Nat.sub_eq_zero_of_le hk]
        show D.Change _ f _ (f.cut _ k).candidate (f.cut _ k).marker
        rw [hcand, hmark]
        exact .untouched
      · have htemp := temporary_uploadOps u (Nat.le_of_not_le hk) f
        obtain ⟨j, rfl⟩ : ∃ j, k = (uploadOps u).length + (j + 1) :=
          ⟨k - (uploadOps u).length - 1, by omega⟩
        rw [if_neg hk, Nat.add_sub_cancel_left]
        have hchange := D.change_replaceOps hacc hd htemp hmark ((uploadOps u).length + (j + 1)) j
        have hfirst : (uploadOps u).length + (j + 1) = (uploadOps u).length + 1 ↔ j = 0 := by omega
        have hnext : (uploadOps u).length + (j + 1) ≤ (uploadOps u).length + 4 ↔ j ≤ 3 := by omega
        simp only [hfirst, hnext]
        exact hchange
    · rw [if_neg fun h => hacc h.2, if_neg hacc]
      have hlast : ∀ (f₁ : Files) (j : Nat), (f₁.cut [.removeTemp] j).candidate = f₁.candidate ∧
          (f₁.cut [.removeTemp] j).marker = f₁.marker := by
        intro f₁ j
        cases j with
        | zero => exact ⟨rfl, rfl⟩
        | succ j => exact ⟨by simp [Files.cut, FileOp.perform], by simp [Files.cut, FileOp.perform]⟩
      rw [(hlast _ _).1, (hlast _ _).2, hcand, hmark]
      exact .untouched
  · rw [if_neg hd, if_neg fun h => hd h.1]
    show D.Change _ f _ (f.cut [] k).candidate (f.cut [] k).marker
    rw [Files.cut, take_nil]
    exact .untouched

theorem change_cancel (k : Nat) (f : Files) :
    D.Change (.cancel, k) f (D.reach f (.cancel, k)) (D.attempt f (.cancel, k)).candidate
      (D.attempt f (.cancel, k)).marker := by
  unfold attempt reach ops
  dsimp only
  by_cases hd : D.databaseDriver = "sqlite"
  · rw [if_pos hd, if_pos hd]
    match k with
    | 0 => exact .untouched
    | 1 => exact .removed
    | k + 2 =>
      rw [Files.cut, take_of_length_le (by simp [cancelRestore]), if_neg (by omega),
        if_neg (by omega)]
      exact .cleared
  · rw [if_neg hd, if_neg hd, Files.cut, take_nil]
    exact .untouched

/-- The script makes no change or all of `applyOps`. -/
theorem startOps_cases (second : Nat) (f : Files) :
    D.startOps second f = .ok [] ∧ f.marker = none ∨ D.startOps second f = .ok (applyOps second) ∨
      ∃ reason, D.startOps second f = .error reason := by
  unfold startOps
  split
  · next h => exact .inl ⟨rfl, h⟩
  · right
    repeat' split
    all_goals first
      | exact .inl rfl
      | exact .inr ⟨_, rfl⟩

theorem change_start (second k : Nat) (f : Files) :
    D.Change (.start second, k) f (D.reach f (.start second, k))
      (D.attempt f (.start second, k)).candidate (D.attempt f (.start second, k)).marker := by
  unfold attempt reach ops
  dsimp only
  rcases D.startOps_cases second f with ⟨h, -⟩ | h | ⟨reason, h⟩
  · rw [h, if_neg (by simp [applyOps])]
    dsimp only
    rw [Files.cut, take_nil]
    exact .untouched
  · rw [h, if_pos rfl]
    dsimp only
    match k with
    | 0 | 1 | 2 | 3 | 4 | 5 => exact .untouched
    | 6 => exact .removed
    | k + 7 =>
      rw [Files.cut, take_of_length_le (by simp [applyOps]), if_neg (by omega), if_neg (by omega)]
      exact .cleared
  · rw [h, if_neg (by simp)]
    dsimp only
    rw [Files.cut, take_nil]
    exact .untouched

theorem attempt_change (a : Attempt) (f : Files) :
    D.Change a f (D.reach f a) (D.attempt f a).candidate (D.attempt f a).marker := by
  obtain ⟨op, k⟩ := a
  cases op with
  | stage u => exact D.change_stage u k f
  | cancel => exact D.change_cancel k f
  | start second => exact D.change_start second k f
  | serve database wal shm =>
    have hserve : (D.attempt f (.serve database wal shm, k)).candidate = f.candidate ∧
        (D.attempt f (.serve database wal shm, k)).marker = f.marker := by
      cases k with
      | zero => exact ⟨rfl, rfl⟩
      | succ k => simp [attempt, ops, Files.cut, FileOp.perform]
    rw [hserve.1, hserve.2]
    exact .untouched

/-! ## Histories -/

/-- A marker is that of the candidate. -/
def Coherent (f : Files) : Prop :=
  ∀ text, f.marker = some text → ∃ data, f.candidate = some data ∧ text = D.markerText data

theorem coherent_iff_untorn (hf : f.marker = none) : ∀ history : List Attempt,
    D.Coherent (D.replay f history) ↔ D.Untorn f history
  | [] => by
    refine iff_of_true (fun text h => ?_) trivial
    rw [replay, hf] at h
    cases h
  | a :: earlier => by
    have ih := coherent_iff_untorn hf earlier
    have hchange := D.attempt_change a (D.replay f earlier)
    unfold Untorn Coherent
    show (∀ text, (D.attempt (D.replay f earlier) a).marker = some text → _) ↔ _
    generalize D.reach (D.replay f earlier) a = reach at hchange
    rw [replay]
    generalize (D.attempt (D.replay f earlier) a).candidate = candidate at hchange
    generalize (D.attempt (D.replay f earlier) a).marker = marker at hchange
    cases hchange with
    | untouched => exact ih
    | removed =>
      dsimp only
      constructor
      · intro h
        cases hm : (D.replay f earlier).marker with
        | none => exact .inl rfl
        | some text =>
          obtain ⟨data, hdata, -⟩ := h text hm
          cases hdata
      · rintro (h | ⟨data, hdata, -⟩) text htext
        · rw [h] at htext
          cases htext
        · cases hdata
    | replaced u hu hacc =>
      dsimp only
      constructor
      · intro h
        cases hm : (D.replay f earlier).marker with
        | none => exact .inl rfl
        | some text =>
          obtain ⟨data, hdata, rfl⟩ := h text hm
          exact .inr ⟨data, hdata, rfl⟩
      · rintro (h | ⟨data, hdata, h⟩) text htext
        · rw [h] at htext
          cases htext
        · rw [h] at htext
          exact ⟨data, hdata, (Option.some.inj htext).symm⟩
    | unmarked | cleared => exact iff_of_true nofun trivial
    | marked u hu hacc hd =>
      exact iff_of_true (fun text h => ⟨_, rfl, (Option.some.inj h).symm⟩) trivial

/-- The file was staged: uploaded as a whole, and accepted. -/
def Staged (history : List Attempt) (data : Data) : Prop :=
  ∃ u k, (.stage u, k) ∈ history ∧ D.accepts u = true ∧ data = u.written

/-- Candidate and marker come from stagings. -/
structure Traced (history : List Attempt) (f : Files) : Prop where
  candidate : ∀ data, f.candidate = some data → D.Staged history data
  marker : ∀ text, f.marker = some text → D.databaseDriver = "sqlite" ∧
    ∃ data, D.Staged history data ∧ text = D.markerText data

variable {D}

theorem Staged.cons {history : List Attempt} (h : D.Staged history data) (a : Attempt) :
    D.Staged (a :: history) data := by
  obtain ⟨u, k, hmem, hrest⟩ := h
  exact ⟨u, k, mem_cons_of_mem _ hmem, hrest⟩

theorem traced_replay (hc : f.candidate = none) (hm : f.marker = none) :
    ∀ history : List Attempt, D.Traced history (D.replay f history)
  | [] => by
    constructor
    · intro data h
      rw [replay, hc] at h
      cases h
    · intro text h
      rw [replay, hm] at h
      cases h
  | a :: earlier => by
    have ih := traced_replay hc hm earlier
    have hchange := D.attempt_change a (D.replay f earlier)
    have hkept : ∀ text, (D.replay f earlier).marker = some text → D.databaseDriver = "sqlite" ∧
        ∃ data, D.Staged (a :: earlier) data ∧ text = D.markerText data := by
      intro text h
      obtain ⟨hd, data, hdata, htext⟩ := ih.marker text h
      exact ⟨hd, data, hdata.cons a, htext⟩
    have hnew : ∀ u, a.1 = .stage u → D.accepts u = true →
        D.Staged (a :: earlier) u.written := fun u hu hacc =>
      ⟨u, a.2, by rw [← hu]; exact mem_cons_self, hacc, rfl⟩
    rw [replay]
    generalize D.attempt (D.replay f earlier) a = f' at hchange
    generalize D.reach (D.replay f earlier) a = reach at hchange
    generalize hc' : f'.candidate = candidate at hchange
    generalize hm' : f'.marker = marker at hchange
    constructor
    · rw [hc']
      cases hchange with
      | untouched => exact fun data h => (ih.candidate data h).cons a
      | removed | cleared => exact nofun
      | replaced u hu hacc | unmarked u hu hacc | marked u hu hacc =>
        intro data h
        cases h
        exact hnew u hu hacc
    · rw [hm']
      cases hchange with
      | untouched | removed | replaced => exact hkept
      | unmarked | cleared => exact nofun
      | marked u hu hacc hd =>
        intro text h
        exact ⟨hd, u.written, hnew u hu hacc, (Option.some.inj h).symm⟩

/-! ## The start -/

theorem firstLine_markerText (data : Data) : firstLine (D.markerText data) = D.sha256 data := by
  have hhex := D.hex data
  simp only [isChecksum, Bool.and_eq_true, all_eq_true] at hhex
  have hline : ∀ c ∈ D.sha256 data, decide (c ≠ '\n') = true := by
    intro c hc
    refine decide_eq_true fun he => ?_
    have := hhex.2 c hc
    rw [he] at this
    exact absurd this (by decide)
  unfold firstLine markerText
  rw [takeWhile_append_of_pos hline]
  simp

theorem markerText_inj {data' : Data} :
    D.markerText data = D.markerText data' ↔ D.sha256 data = D.sha256 data' := by
  unfold markerText
  exact append_left_inj _

/-- The checks of the script, for a marker that the server has written. -/
theorem startOps_marked {data₀ : Data} (hm : f.marker = some (D.markerText data₀))
    (hd : D.databaseDriver = "sqlite") (second : Nat) :
    D.startOps second f = .ok (applyOps second) ↔
      D.PathFits ∧ D.Coherent f ∧ second ∉ f.recoveries := by
  have hcoherent : D.Coherent f ↔ ∃ data, f.candidate = some data ∧
      D.sha256 data = D.sha256 data₀ := by
    unfold Coherent
    simp only [hm, Option.some.injEq, forall_eq']
    refine exists_congr fun data => and_congr_right fun _ => ?_
    rw [markerText_inj]
    exact eq_comm
  rw [hcoherent]
  unfold startOps PathFits
  rw [hm]
  dsimp only
  rw [if_neg (not_not.mpr hd), firstLine_markerText]
  by_cases hpath : D.databasePath.head? = some '/'
  · rw [if_neg (not_not.mpr hpath)]
    by_cases hquery : '?' ∈ D.databasePath
    · rw [if_pos hquery]
      exact iff_of_false nofun fun h => h.1.2 hquery
    · rw [if_neg hquery]
      cases hc : f.candidate with
      | none => simp
      | some data =>
        dsimp only
        rw [if_neg (by simp [D.hex])]
        by_cases hsha : D.sha256 data = D.sha256 data₀
        · rw [if_neg (not_not.mpr hsha)]
          by_cases hrec : second ∈ f.recoveries
          · simp [hrec]
          · simp [hrec, hsha, hpath, hquery]
        · simp [hsha]
  · rw [if_pos hpath]
    exact iff_of_false nofun fun h => hpath h.1.1

def Outcome.starts : Outcome → Bool
  | .refused _ => false
  | _ => true

theorem start_unmarked (hm : f.marker = none) (second : Nat) :
    D.start second f = (.unchanged, f) := by
  unfold start startOps
  rw [hm]

theorem start_applied (hc : f.candidate = some data)
    (h : D.startOps second f = .ok (applyOps second)) :
    D.start second f = (.applied data, { f with
      candidate := none
      marker := none
      database := data
      wal := none
      shm := none
      restoreTmp := none
      recoveries := second :: f.recoveries }) := by
  unfold start
  rw [h]
  simp [applyOps, FileOp.perform, hc]

/-- A marked restore is applied or refused, and a refusal leaves the files. -/
theorem start_refused {text : List Char} (hmark : f.marker = some text)
    (hnot : D.startOps second f ≠ .ok (applyOps second)) :
    ∃ reason, D.start second f = (.refused reason, f) := by
  have hrefused : ∃ reason, D.startOps second f = .error reason := by
    rcases D.startOps_cases second f with ⟨-, h⟩ | h | h
    · rw [hmark] at h
      cases h
    · exact absurd h hnot
    · exact h
  obtain ⟨reason, hreason⟩ := hrefused
  refine ⟨reason, ?_⟩
  unfold start
  rw [hreason]

/-- **What the next start does**, after every history of stagings, cancellations and starts that
were cut off anywhere. It refuses exactly if a restore is marked and the path of the database is
not taken, or an attempt was torn, or there is a recovery directory of that very second. It
changes nothing if no restore is marked, and what it applies was staged, with its digest in the
marker. -/
theorem restore_start_iff (D : Deployment) {f : Files} (hc : f.candidate = none)
    (hm : f.marker = none) (history : List Attempt) (second : Nat) :
    ((D.start second (D.replay f history)).1.starts = true ↔
      (D.replay f history).marker = none ∨ D.PathFits ∧ D.Untorn f history ∧
        second ∉ (D.replay f history).recoveries) ∧
    ((D.start second (D.replay f history)).1 = .unchanged →
      (D.start second (D.replay f history)).2 = D.replay f history) ∧
    (∀ data, (D.start second (D.replay f history)).1 = .applied data →
      (∃ u k, (.stage u, k) ∈ history ∧ u.broken = false ∧ data = u.chunks.flatten ∧
        D.inspect data = true) ∧
      (D.replay f history).marker = some (D.sha256 data ++ ['\n']) ∧
      (D.start second (D.replay f history)).2 = { D.replay f history with
        candidate := none
        marker := none
        database := data
        wal := none
        shm := none
        restoreTmp := none
        recoveries := second :: (D.replay f history).recoveries }) := by
  have htraced : D.Traced history (D.replay f history) := traced_replay hc hm history
  have hcoherent := D.coherent_iff_untorn hm history
  generalize D.replay f history = f' at htraced hcoherent ⊢
  cases hmark : f'.marker with
  | none =>
    rw [start_unmarked hmark]
    exact ⟨iff_of_true rfl (.inl rfl), fun _ => rfl, nofun⟩
  | some text =>
    obtain ⟨hd, data₀, hstaged₀, rfl⟩ := htraced.marker text hmark
    have hiff := startOps_marked hmark hd second
    rw [hcoherent] at hiff
    by_cases happly : D.startOps second f' = .ok (applyOps second)
    · have hok := hiff.mp happly
      obtain ⟨data, hdata, htext⟩ := hcoherent.mpr hok.2.1 _ hmark
      rw [start_applied hdata happly]
      refine ⟨iff_of_true rfl (.inr hok), nofun, fun data' h => ?_⟩
      obtain rfl : data = data' := Outcome.applied.inj h
      obtain ⟨u, k, hmem, hacc, rfl⟩ := htraced.candidate data hdata
      obtain ⟨hwhole, hbroken, hinspect⟩ := written_of_accepts hacc
      exact ⟨⟨u, k, hmem, hbroken, hwhole, hinspect⟩, by rw [htext]; rfl, rfl⟩
    · obtain ⟨reason, hstart⟩ := start_refused hmark happly
      rw [hstart]
      refine ⟨iff_of_false (by simp [Outcome.starts]) ?_, nofun, nofun⟩
      rintro (h | h)
      · cases h
      · exact happly (hiff.mpr h)

/-! ### Two uploads -/

/-- How each database file begins: `SQLite format 3` and a zero. -/
def sqliteHeader : Data := [83, 81, 76, 105, 116, 101, 32, 102, 111, 114, 109, 97, 116, 32, 51, 0]

/-- SHA-256 of the two uploads; any other file is like the empty one. -/
def sampleDigest (data : Data) : Nat :=
  if data = sqliteHeader ++ [1] then
    0xf61c8aa22fdfeecceded9d2918100590de31b9b7e778eda2a007da8402b8a713
  else if data = sqliteHeader ++ [2] then
    0x88f84884443b166cb862145ba53f962bd91deaf0a140447222605220c935f6b6
  else 0xe3b0c44298fc1c149afbf4c8996fb92427ae41e4649b934ca495991b7852b855

/-- Of the inspection, what can be told from the first bytes. -/
def sampleDeployment : Deployment where
  databaseDriver := "sqlite"
  databasePath := ['/', 'd', 'a', 't', 'a', '/', 'a', 'r', 't', '.', 'd', 'b']
  sha256 data := (range 64).map fun i => Nat.digitChar (sampleDigest data >>> (4 * (63 - i)) % 16)
  inspect data := sqliteHeader.isPrefixOf data
  hex data := by
    unfold sampleDigest
    split
    · decide
    · split <;> decide

def sampleFiles : Files := ⟨none, none, none, none, sqliteHeader, some [8], some [9], none, []⟩

def firstUpload : Upload := ⟨[sqliteHeader, [1]], false⟩

def secondUpload : Upload := ⟨[sqliteHeader, [2]], false⟩

theorem staged_file_applied :
    sampleDeployment.Untorn sampleFiles [(.stage firstUpload, 10)] ∧
    (sampleDeployment.start 5 (sampleDeployment.replay sampleFiles
      [(.stage firstUpload, 10)])).1.starts = true := by
  have huntorn : sampleDeployment.Untorn sampleFiles [(.stage firstUpload, 10)] := by
    rw [Untorn]
    trivial
  refine ⟨huntorn, ?_⟩
  exact (restore_start_iff sampleDeployment rfl rfl [(.stage firstUpload, 10)] 5).1.mpr
    (.inr ⟨by decide, huntorn, by decide⟩)

/-- A second file is staged over a pending one, and the server is cut off before it has replaced
the marker: the candidate is missing, or does not fit. Cancelling is no different. -/
theorem pending_restore_refused :
    (sampleDeployment.start 5 (sampleDeployment.replay sampleFiles
      [(.stage secondUpload, 4), (.stage firstUpload, 10)])).1 = .refused .missing ∧
    (sampleDeployment.start 5 (sampleDeployment.replay sampleFiles
      [(.stage secondUpload, 7), (.stage firstUpload, 10)])).1 = .refused .mismatch ∧
    (sampleDeployment.start 5 (sampleDeployment.replay sampleFiles
      [(.cancel, 1), (.stage firstUpload, 10)])).1 = .refused .missing := by
  decide +kernel

end Deployment

end RemoteControl.Backup
