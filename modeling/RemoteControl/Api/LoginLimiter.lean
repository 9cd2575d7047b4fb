import Mathlib.Data.List.Induction
import RemoteControl.Lib.Table

/-!
# The login limiter

`LoginLimiter` of `ratelimit.go` keeps for each key the failures of the window and the end of the
lock. It trims the failures whenever it looks at them, forgets them when it locks, and from 10000
keys on throws out what is of no use any more. None of that shows:

> a key is refused exactly while it is locked by its own failures, as counted over the whole history
> of its calls.

Times are counted from the zero time of the source, which is what a key without an entry has for the
end of its lock.
-/

namespace RemoteControl.Api

open Lib List Table

structure Limits where
  burst : Nat
  window : Int
  lockout : Int

/-- A `loginAttempt`, with its key. -/
structure LoginAttempt where
  key : String
  failed : List Nat
  lockedUntil : Int

abbrev Limiter := Table LoginAttempt.key

def Limiter.entry (l : Limiter) (key : String) : LoginAttempt := (l.get? key).getD ⟨key, [], 0⟩

/-- `recent`: what comes before the first value within the threshold is cut off. -/
def recent (values : List Nat) (threshold : Int) : List Nat :=
  values.dropWhile fun v => v < threshold

def LoginAttempt.trim (p : Limits) (now : Nat) (a : LoginAttempt) : LoginAttempt :=
  { a with failed := recent a.failed (now - p.window) }

def LoginAttempt.answer (now : Nat) (a : LoginAttempt) : Bool × Int :=
  if now < a.lockedUntil then (false, a.lockedUntil - now) else (true, 0)

def LoginAttempt.fail (p : Limits) (now : Nat) (a : LoginAttempt) : LoginAttempt :=
  let failed := recent a.failed (now - p.window) ++ [now]
  if p.burst ≤ failed.length then { a with failed := [], lockedUntil := now + p.lockout }
  else { a with failed }

/-- `Allowed`, with the limiter it leaves. -/
def Limiter.allowed (p : Limits) (l : Limiter) (key : String) (now : Nat) :
    (Bool × Int) × Limiter :=
  let a := l.entry key
  (a.answer now, if now < a.lockedUntil then l else l.put (a.trim p now))

def Limiter.prune (p : Limits) (now : Nat) (l : Limiter) : Limiter :=
  let trimmed := l.updateWhere (fun _ => true) fun a =>
    { a with failed := recent a.failed (now - p.window) }
  trimmed.deleteWhere fun a => a.failed.isEmpty && !decide (now < a.lockedUntil)

def Limiter.failure (p : Limits) (l : Limiter) (key : String) (now : Nat) : Limiter :=
  let l := if 10000 ≤ l.rows.length then l.prune p now else l
  l.put ((l.entry key).fail p now)

def Limiter.success (l : Limiter) (key : String) : Limiter := l.remove key

inductive LimiterCall
  | allowed (key : String) (now : Nat)
  | failure (key : String) (now : Nat)
  | success (key : String)
deriving DecidableEq, Repr

def LimiterCall.key : LimiterCall → String
  | .allowed key _ | .failure key _ | .success key => key

def LimiterCall.time? : LimiterCall → Option Nat
  | .allowed _ now | .failure _ now => some now
  | .success _ => none

def Limiter.perform (p : Limits) (l : Limiter) : LimiterCall → Limiter
  | .allowed key now => (l.allowed p key now).2
  | .failure key now => l.failure p key now
  | .success key => l.success key

def Limiter.run (p : Limits) (calls : List LimiterCall) : Limiter := calls.foldl (.perform p) .empty

/-! ## By the history -/

/-- At `now`, the failure `v` is not older than the window. -/
def Limits.within (p : Limits) (now v : Nat) : Bool := now - p.window ≤ v

/-- The failure at `now` completes the burst, after the failures `past`. -/
def Limits.Completes (p : Limits) (now : Nat) (past : List Nat) : Prop :=
  p.burst ≤ (past.filter (p.within now)).length + 1

instance (p : Limits) (now : Nat) (past : List Nat) : Decidable (p.Completes now past) :=
  inferInstanceAs (Decidable (_ ≤ _))

/-- The failures of the key since its last success and its last lock. The latest call is first. -/
def since (p : Limits) (key : String) : List LimiterCall → List Nat
  | [] => []
  | .failure k now :: past =>
    if k ≠ key then since p key past
    else if p.Completes now (since p key past) then [] else now :: since p key past
  | .success k :: past => if k ≠ key then since p key past else []
  | .allowed _ _ :: past => since p key past

/-- Some failure of the key completed a burst, no success followed, and its lockout is not over. -/
def Refused (p : Limits) (key : String) (now : Nat) (history : List LimiterCall) : Prop :=
  ∃ later u past, history = later ++ .failure key u :: past ∧ p.Completes u (since p key past) ∧
    .success key ∉ later ∧ now < u + p.lockout

/-- The last lock that no success has ended. -/
def lock (p : Limits) (key : String) : List LimiterCall → Option Nat
  | [] => none
  | .failure k now :: past =>
    if k = key ∧ p.Completes now (since p key past) then some now else lock p key past
  | .success k :: past => if k ≠ key then lock p key past else none
  | .allowed _ _ :: past => lock p key past

variable {p : Limits} {key : String} {a : LoginAttempt} {l : Limiter} {now : Nat} {fs : List Nat}
  {u : Option Nat}

/-- The answer to a key that was locked at `u`. -/
def lockAnswer (p : Limits) (u : Option Nat) (now : Nat) : Bool × Int :=
  u.elim (true, 0) fun u => if now < u + p.lockout then (false, u + p.lockout - now) else (true, 0)

theorem refused_cons {c : LimiterCall} {past : List LimiterCall} :
    Refused p key now (c :: past) ↔
      (∃ v, c = .failure key v ∧ p.Completes v (since p key past) ∧ now < v + p.lockout) ∨
        c ≠ .success key ∧ Refused p key now past := by
  constructor
  · rintro ⟨later, v, past', he, hfull, hno, hnow⟩
    cases later with
    | nil =>
      cases he
      exact .inl ⟨v, rfl, hfull, hnow⟩
    | cons d later =>
      cases he
      rw [mem_cons, not_or] at hno
      exact .inr ⟨Ne.symm hno.1, later, v, past', rfl, hfull, hno.2, hnow⟩
  · rintro (⟨v, rfl, hfull, hnow⟩ | ⟨hc, later, v, past', rfl, hfull, hno, hnow⟩)
    · exact ⟨[], v, past, rfl, hfull, not_mem_nil, hnow⟩
    · exact ⟨c :: later, v, past', rfl, hfull, by simp [Ne.symm hc, hno], hnow⟩

/-- The last lock decides, since the locks before it end before it does. -/
theorem refused_iff_lock {history : List LimiterCall}
    (ht : (history.filterMap LimiterCall.time?).Pairwise (· ≥ ·)) :
    Refused p key now history ↔ (lockAnswer p (lock p key history) now).1 = false := by
  induction history with
  | nil => exact iff_of_false (fun ⟨later, _, _, he, _⟩ => by cases later <;> cases he) nofun
  | cons c past ih =>
    specialize ih (ht.sublist ((sublist_cons_self c past).filterMap _))
    rw [refused_cons]
    cases c with
    | allowed k t => simpa [lock] using ih
    | success k =>
      by_cases hk : k = key
      · simp [lock, hk, lockAnswer]
      · simpa [lock, hk] using ih
    | failure k v =>
      by_cases hk : k = key ∧ p.Completes v (since p key past)
      · have hsome : (lockAnswer p (some v) now).1 = false ↔ now < v + p.lockout := by
          simp [lockAnswer, apply_ite Prod.fst]
        rw [lock, if_pos hk, hsome]
        obtain ⟨rfl, hfull⟩ := hk
        refine ⟨?_, fun hnow => .inl ⟨v, rfl, hfull, hnow⟩⟩
        rintro (⟨v', he, -, hnow⟩ | ⟨-, later, v', past', rfl, -, -, hnow⟩)
        · cases he
          exact hnow
        · have hle : v' ≤ v := (pairwise_cons.mp ht).1 v' (mem_filterMap.mpr
            ⟨_, mem_append_right _ mem_cons_self, rfl⟩)
          omega
      · rw [lock, if_neg hk, ← ih]
        refine ⟨fun h => h.elim ?_ And.right, fun h => .inr ⟨nofun, h⟩⟩
        rintro ⟨v', he, hfull, -⟩
        cases he
        exact absurd ⟨rfl, hfull⟩ hk

/-! ## What an entry says of the history -/

/-- From `now` on, the entry gives the answers of the lock `u`, and of the failures `fs` it has all
that will count. -/
structure LoginAttempt.Rep (p : Limits) (now : Nat) (fs : List Nat) (u : Option Nat)
    (a : LoginAttempt) : Prop where
  sorted : a.failed.Pairwise (· ≤ ·)
  past : ∀ v ∈ a.failed, v ≤ now
  counts : ∀ t ≥ now, a.failed.filter (p.within t) = fs.reverse.filter (p.within t)
  answers : ∀ t ≥ now, a.answer t = lockAnswer p u t

theorem LoginAttempt.Rep.mono {later : Nat} (h : a.Rep p now fs u) (hle : now ≤ later) :
    a.Rep p later fs u where
  sorted := h.sorted
  past v hv := Nat.le_trans (h.past v hv) hle
  counts t ht := h.counts t (Nat.le_trans hle ht)
  answers t ht := h.answers t (Nat.le_trans hle ht)

theorem recent_eq_filter {values : List Nat} (h : values.Pairwise (· ≤ ·)) :
    recent values (now - p.window) = values.filter (p.within now) := by
  unfold recent
  induction values with
  | nil => rfl
  | cons v values ih =>
    obtain ⟨hv, hvalues⟩ := pairwise_cons.mp h
    by_cases hlt : (v : Int) < now - p.window
    · have hout : ¬ p.within now v = true := fun hin => by
        have hle : (now : Int) - p.window ≤ v := of_decide_eq_true hin
        omega
      rw [dropWhile_cons_of_pos (by simpa using hlt), ih hvalues, filter_cons_of_neg hout]
    · rw [dropWhile_cons_of_neg (by simpa using hlt), filter_eq_self.mpr]
      intro w hw
      rcases mem_cons.mp hw with rfl | hw
      · exact decide_eq_true (by omega)
      · have hle := hv w hw
        exact decide_eq_true (by omega)

/-- Older failures do not count again. -/
theorem LoginAttempt.Rep.trim (h : a.Rep p now fs u) : (a.trim p now).Rep p now fs u := by
  have hfailed : (a.trim p now).failed = a.failed.filter (p.within now) := recent_eq_filter h.sorted
  refine ⟨?_, fun v hv => ?_, fun t ht => ?_, h.answers⟩
  · rw [hfailed]
    exact h.sorted.filter _
  · rw [hfailed] at hv
    exact h.past v (mem_of_mem_filter hv)
  · rw [← h.counts t ht, hfailed, filter_filter]
    refine filter_congr fun v _ => ?_
    rw [Bool.and_eq_left_iff_imp]
    intro hv
    have hv : (t : Int) - p.window ≤ v := of_decide_eq_true hv
    exact decide_eq_true (by omega)

/-- An entry without failures and without a lock is as good as none. -/
theorem LoginAttempt.Rep.drop (h : a.Rep p now fs u) (hfailed : a.failed = [])
    (hl : ¬ now < a.lockedUntil) : (⟨key, [], 0⟩ : LoginAttempt).Rep p now fs u := by
  refine ⟨List.Pairwise.nil, nofun, fun t ht => ?_, fun t ht => ?_⟩
  · rw [← h.counts t ht, hfailed]
  · rw [← h.answers t ht]
    unfold LoginAttempt.answer
    rw [if_neg (show ¬ (t : Int) < 0 by omega), if_neg (by omega)]

theorem rep_none (p : Limits) (now : Nat) (key : String) :
    (⟨key, [], 0⟩ : LoginAttempt).Rep p now [] none :=
  ⟨List.Pairwise.nil, nofun, fun _ _ => rfl, fun t _ => if_neg (show ¬ (t : Int) < 0 by omega)⟩

theorem LoginAttempt.Rep.fail (h : a.Rep p now fs u) :
    (a.fail p now).Rep p now (if p.Completes now fs then [] else now :: fs)
      (if p.Completes now fs then some now else u) := by
  have hlen : (recent a.failed (now - p.window) ++ [now]).length
      = (fs.filter (p.within now)).length + 1 := by
    rw [recent_eq_filter h.sorted, h.counts now (Nat.le_refl _), filter_reverse]
    simp
  have hiff : p.burst ≤ (recent a.failed (now - p.window) ++ [now]).length ↔
      p.Completes now fs := by rw [hlen]; rfl
  have htrim := h.trim
  unfold LoginAttempt.fail
  by_cases hfull : p.Completes now fs
  · rw [if_pos hfull, if_pos hfull]
    dsimp only
    rw [if_pos (hiff.mpr hfull)]
    exact ⟨List.Pairwise.nil, nofun, fun t _ => rfl, fun t _ => rfl⟩
  · rw [if_neg hfull, if_neg hfull]
    dsimp only
    rw [if_neg fun hle => hfull (hiff.mp hle)]
    refine ⟨pairwise_append.mpr ⟨htrim.sorted, pairwise_singleton _ _, ?_⟩,
      forall_mem_append.mpr ⟨htrim.past, by simp⟩, fun t ht => ?_, h.answers⟩
    · intro v hv w hw
      obtain rfl := mem_singleton.mp hw
      exact htrim.past v hv
    · rw [reverse_cons, filter_append, filter_append, ← htrim.counts t ht]
      rfl

/-! ## The limiter -/

theorem entry_put (a : LoginAttempt) (key : String) :
    Limiter.entry (l.put a) key = if a.key = key then a else l.entry key := by
  unfold Limiter.entry
  rw [get?_put]
  split <;> rfl

theorem key_entry (l : Limiter) (key : String) : (l.entry key).key = key := by
  unfold Limiter.entry
  cases h : l.get? key with
  | none => rfl
  | some a => exact get?_key h

theorem key_fail (p : Limits) (now : Nat) (a : LoginAttempt) : (a.fail p now).key = a.key := by
  unfold LoginAttempt.fail
  dsimp only
  split <;> rfl

/-- Pruning takes nothing from a key. -/
theorem prune_rep (h : (l.entry key).Rep p now fs u) :
    ((l.prune p now).entry key).Rep p now fs u := by
  unfold Limiter.entry Limiter.prune at *
  rw [get?_deleteWhere, get?_updateWhere]
  cases hk : l.get? key with
  | none =>
    rw [hk] at h
    exact h
  | some a =>
    rw [hk] at h
    have htrim : (a.trim p now).Rep p now fs u := LoginAttempt.Rep.trim h
    simp only [Option.map_some, if_true, Option.filter_some]
    split
    · exact htrim
    · next hgone =>
      obtain ⟨hfailed, hopen⟩ : recent a.failed (now - p.window) = [] ∧ a.lockedUntil ≤ now := by
        simpa using hgone
      exact htrim.drop hfailed (by show ¬ (now : Int) < a.lockedUntil; omega)

/-- Every entry stands for the history of its key. -/
def Limiter.Rep (p : Limits) (now : Nat) (history : List LimiterCall) (l : Limiter) : Prop :=
  ∀ key, (l.entry key).Rep p now (since p key history) (lock p key history)

theorem perform_rep {c : LimiterCall} {history : List LimiterCall} (h : l.Rep p now history)
    (hc : ∀ t ∈ c.time?, t = now) : (l.perform p c).Rep p now (c :: history) := by
  intro key
  cases c with
  | allowed k t =>
    obtain rfl : t = now := hc t rfl
    unfold Limiter.perform Limiter.allowed
    dsimp only
    split
    · exact h key
    · rw [entry_put]
      split
      · next hk =>
        obtain rfl : k = key := (key_entry l k).symm.trans hk
        exact (h k).trim
      · exact h key
  | success k =>
    unfold Limiter.perform Limiter.success Limiter.entry since lock
    rw [get?_remove]
    by_cases hk : k = key
    · subst hk
      rw [if_pos rfl, if_neg (not_not.mpr rfl), if_neg (not_not.mpr rfl)]
      exact rep_none p now k
    · rw [if_neg hk, if_pos hk, if_pos hk]
      exact h key
  | failure k t =>
    obtain rfl : t = now := hc t rfl
    unfold Limiter.perform Limiter.failure
    have hpruned : Limiter.Rep p t history (if 10000 ≤ l.rows.length then l.prune p t else l) := by
      split
      · exact fun key => prune_rep (h key)
      · exact h
    dsimp only
    rw [entry_put, key_fail, key_entry]
    unfold since lock
    by_cases hk : k = key
    · subst hk
      rw [if_pos rfl, if_neg (not_not.mpr rfl)]
      simp only [true_and]
      exact (hpruned k).fail
    · rw [if_neg hk, if_pos hk, if_neg fun h => hk h.1]
      exact hpruned key

theorem run_rep {calls : List LimiterCall}
    (ht : (calls.filterMap LimiterCall.time? ++ [now]).Pairwise (· ≤ ·)) :
    (Limiter.run p calls).Rep p now calls.reverse := by
  induction calls using List.reverseRecOn generalizing now with
  | nil => exact fun key => rep_none p now key
  | append_singleton calls c ih =>
    rw [reverse_concat]
    unfold Limiter.run at *
    rw [foldl_concat]
    rw [filterMap_append, append_assoc] at ht
    -- the call takes place at its own time, or at any time when it has none
    obtain ⟨u, hcalls, hle, hc⟩ : ∃ u, (calls.filterMap LimiterCall.time? ++ [u]).Pairwise (· ≤ ·)
        ∧ u ≤ now ∧ ∀ t ∈ c.time?, t = u := by
      cases hc : c.time? with
      | none =>
        rw [filterMap_cons_none hc] at ht
        exact ⟨now, ht, Nat.le_refl _, nofun⟩
      | some t =>
        rw [filterMap_cons_some hc] at ht
        refine ⟨t, ht.sublist (List.Sublist.append_left (by simp) _), ?_, fun _ h => ?_⟩
        · exact (pairwise_cons.mp (pairwise_append.mp ht).2.1).1 now (by simp)
        · exact (Option.some.inj h).symm
    exact fun key => (perform_rep (ih hcalls) hc key).mono hle

theorem history_own (p : Limits) (key : String) (history : List LimiterCall) :
    since p key (history.filter (·.key = key)) = since p key history ∧
      lock p key (history.filter (·.key = key)) = lock p key history := by
  induction history with
  | nil => exact ⟨rfl, rfl⟩
  | cons c history ih =>
    by_cases hk : c.key = key
    · rw [filter_cons_of_pos (by simpa using hk)]
      cases c <;> simp only [since, lock, ih.1, ih.2, and_self]
    · rw [filter_cons_of_neg (by simpa using hk)]
      refine ⟨ih.1.trans ?_, ih.2.trans ?_⟩
      · cases c with
        | allowed => rfl
        | failure | success => exact (if_pos hk).symm
      · cases c with
        | allowed => rfl
        | failure => exact (if_neg fun h => hk h.1).symm
        | success => exact (if_pos hk).symm

/-- **The limiter.** After any calls with times that do not go back, a key is refused exactly if its
history says so, and the whole answer is the one it would have got if no other key had been used. -/
theorem limiter_follows_history (p : Limits) (calls : List LimiterCall) (key : String) (now : Nat)
    (ht : (calls.filterMap LimiterCall.time? ++ [now]).Pairwise (· ≤ ·)) :
    (((Limiter.run p calls).allowed p key now).1.1 = false ↔ Refused p key now calls.reverse) ∧
    ((Limiter.run p calls).allowed p key now).1
      = ((Limiter.run p (calls.filter (·.key = key))).allowed p key now).1 := by
  have hsub : ((calls.filter (·.key = key)).filterMap LimiterCall.time? ++ [now]).Sublist
      (calls.filterMap LimiterCall.time? ++ [now]) :=
    (filter_sublist.filterMap _).append_right _
  have hown := history_own p key calls.reverse
  have hanswer := (run_rep (p := p) ht key).answers now (Nat.le_refl _)
  have hfiltered := (run_rep (p := p) (ht.sublist hsub) key).answers now (Nat.le_refl _)
  rw [← filter_reverse, hown.2] at hfiltered
  constructor
  · have hpast : (calls.reverse.filterMap LimiterCall.time?).Pairwise (· ≥ ·) := by
      rw [filterMap_reverse, pairwise_reverse]
      exact (pairwise_append.mp ht).1
    rw [refused_iff_lock hpast, ← hanswer]
    rfl
  · exact hanswer.trans hfiltered.symm

/-- Two failures lock a key of burst two; another key is still allowed. -/
theorem limiter_locks_one_key :
    ((Limiter.run ⟨2, 60, 300⟩ [.failure "a" 10, .failure "b" 15, .failure "a" 20]).allowed
      ⟨2, 60, 300⟩ "a" 25).1.1 = false ∧
    Refused ⟨2, 60, 300⟩ "a" 25 [.failure "a" 20, .failure "b" 15, .failure "a" 10] := by
  have hrefused := (limiter_follows_history ⟨2, 60, 300⟩
    [.failure "a" 10, .failure "b" 15, .failure "a" 20] "a" 25 (by decide)).1
  have hanswer : ((Limiter.run ⟨2, 60, 300⟩ [.failure "a" 10, .failure "b" 15,
    .failure "a" 20]).allowed ⟨2, 60, 300⟩ "a" 25).1.1 = false := by decide
  exact ⟨hanswer, hrefused.mp hanswer⟩

end RemoteControl.Api
