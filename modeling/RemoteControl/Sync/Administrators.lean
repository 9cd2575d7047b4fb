import RemoteControl.Lib.Alongside
import RemoteControl.Lib.Events
import RemoteControl.Sync.LoginRaces

/-!
# The last administrator

An installation is to keep an administrator who can log in. `UpdateUser` and `DeleteUser`
of `store/sqlstore` look after this: before they take the role away or the account, they
count the administrators. Three things the count does not see.

* It counts accounts, disabled and rejected ones included.
* `SetUserEnabled` and `SetUserApproval` do not count at all, and neither does an
  `UpdateUser` that leaves the role and disables the account.
* It is a statement of its own. PostgreSQL is used at its default isolation level, where
  another transaction may commit between the count and the change.

> The count keeps an administrator as long as nothing that it does not see is done, and
> no second administrator is taken away between a count and its change.

`Roster` is the database with any number of these transactions between the two.
-/

namespace RemoteControl.Sync

open Lib List Table

/-! ## Transactions in two parts -/

/-- `UpdateUser` after the count. -/
def Store.writeUser (toLower : String → String) (id : String) (input : UserUpdate) (now : Nat)
    (s : Store) : Except StoreError (User × Store) := do
  let username := toLower input.username
  if s.users.rows.any (fun u => u.id ≠ id && u.username = username) then .error .conflict
  else
    let (user, s) ← s.withUser id (input.apply username now)
    let s := { s with
      memberships := s.memberships.deleteWhere fun m => m.userId = id && !systemGroup m.groupId }
    let s ← s.joinGroups id input.groupIds
    return (user, s.revokeUserSessions id now)

theorem rustdeskId_disowned (d : Device) :
    ({ d with ownerUserId := "" } : Device).rustdeskId = d.rustdeskId := rfl

/-- `DeleteUser` after the count; another transaction may have deleted the row. -/
def Store.removeUser (id : String) (s : Store) : Except StoreError Store :=
  match s.users.get? id with
  | none => .error .notFound
  | some _ => .ok { s with
      sessions := s.sessions.deleteWhere fun v => v.userId = id
      memberships := s.memberships.deleteWhere fun m => m.userId = id
      aclRules := s.aclRules.deleteWhere fun v => v.subjectType = "user" && v.subjectId = id
      strategies := s.strategies.deleteWhere fun v => v.scopeType = "user" && v.scopeId = id
      devices := s.devices.updateWhere (fun d => d.ownerUserId = id)
        (fun d => { d with ownerUserId := "" }) rustdeskId_disowned
      users := s.users.remove id }

/-- The operations of an administrator on the account of a user. -/
inductive ManageOp
  | updateUser (id : String) (input : UserUpdate) (now : Nat)
  | deleteUser (id : String)
  | setUserEnabled (id : String) (enabled : Bool) (now : Nat)
  | setUserApproval (id : String) (approve : Bool) (now : Nat)

namespace ManageOp

def target : ManageOp → String
  | updateUser id .. | deleteUser id | setUserEnabled id .. | setUserApproval id .. => id

/-- The transaction of the store. -/
def userOp : ManageOp → UserOp
  | updateUser id input now => .updateUser id input now
  | deleteUser id => .deleteUser id
  | setUserEnabled id enabled now => .setUserEnabled id enabled now
  | setUserApproval id approve now =>
    .setUserApproval id (if approve then "approved" else "rejected") now

/-- What is read before anything is written. -/
def check (s : Store) : ManageOp → Except StoreError Unit
  | updateUser id input _ =>
    match s.users.get? id with
    | none => .error .notFound
    | some current =>
      if input.role ≠ "admin" && s.lastAdmin current.role then .error .lastAdmin else .ok ()
  | deleteUser id =>
    match s.users.get? id with
    | none => .error .notFound
    | some user => if s.lastAdmin user.role then .error .lastAdmin else .ok ()
  | setUserEnabled .. | setUserApproval .. => .ok ()

def write (toLower : String → String) (s : Store) : ManageOp → Except StoreError Store
  | updateUser id input now => (s.writeUser toLower id input now).map (·.2)
  | deleteUser id => s.removeUser id
  | setUserEnabled id enabled now => (s.setUserEnabled id enabled now).map (·.2)
  | setUserApproval id approve now =>
    (s.setUserApproval id (if approve then "approved" else "rejected") now).map (·.2)

/-- Nothing happens in between, as with SQLite, which is given a single connection. -/
def alone (toLower : String → String) (s : Store) (op : ManageOp) : Except StoreError Store :=
  match op.check s with
  | .error e => .error e
  | .ok () => op.write toLower s

/-- The two parts are the transaction. -/
theorem alone_eq_userOp (toLower : String → String) (s : Store) (op : ManageOp) :
    op.alone toLower s = op.userOp.run toLower s := by
  cases op with
  | setUserEnabled id enabled now => rfl
  | setUserApproval id approve now => rfl
  | deleteUser id =>
    simp only [alone, check, write, userOp, UserOp.run, Store.deleteUser, Store.removeUser]
    cases s.users.get? id with
    | none => rfl
    | some user =>
      dsimp only
      cases s.lastAdmin user.role <;> rfl
  | updateUser id input now =>
    simp only [alone, check, write, userOp, UserOp.run, Store.updateUser, Store.writeUser]
    cases s.users.get? id with
    | none => rfl
    | some current =>
      dsimp only
      cases input.role ≠ "admin" && s.lastAdmin current.role <;> rfl

def row (toLower : String → String) (u : User) : ManageOp → Option User
  | updateUser _ input now => some (input.apply (toLower input.username) now u)
  | deleteUser _ => none
  | setUserEnabled _ enabled now =>
    some { u with enabled := enabled, tokenVersion := u.tokenVersion + 1, updatedAt := now }
  | setUserApproval _ approve now =>
    some { u with
      approvalStatus := if approve then "approved" else "rejected"
      updatedAt := now }

end ManageOp

section

variable {toLower : String → String} {s s' : Store}

theorem writeUser_users {id : String} {input : UserUpdate} {now : Nat} {u' : User}
    (h : s.writeUser toLower id input now = .ok (u', s')) :
    ∃ u, s.users.get? id = some u ∧
      s'.users = s.users.put (input.apply (toLower input.username) now u) := by
  unfold Store.writeUser at h
  dsimp only at h
  split at h
  next => cases h
  cases hu : s.withUser id (input.apply (toLower input.username) now) with
  | error err => simp [hu] at h
  | ok r =>
    obtain ⟨user, s₁⟩ := r
    obtain ⟨u, hrow, rfl, rfl⟩ := withUser_ok hu
    simp only [hu, bind, Except.bind] at h
    split at h
    next => cases h
    next s₂ hj =>
      simp only [pure, Except.pure, Except.ok.injEq, Prod.mk.injEq] at h
      obtain ⟨rfl, rfl⟩ := h
      obtain ⟨memberships, rfl, -⟩ := joinGroups_ok hj
      exact ⟨u, hrow, rfl⟩

/-- **One write.** The row of the target becomes what the operation makes of it, and no other
row changes. -/
theorem ManageOp.write_users {op : ManageOp} (h : op.write toLower s = .ok s') :
    ∃ u, s.users.get? op.target = some u ∧
      ∀ id, s'.users.get? id = if op.target = id then op.row toLower u else s.users.get? id := by
  have hput : ∀ {id : String} {u v : User}, s.users.get? id = some u → v.id = u.id →
      s'.users = s.users.put v →
      ∀ i, s'.users.get? i = if id = i then some v else s.users.get? i := by
    intro id u v hu hid hs i
    have hkey : v.id = id := hid.trans (get?_key hu)
    rw [hs, get?_put, hkey]
  cases op with
  | updateUser id input now =>
    obtain ⟨u', h⟩ := map_snd_ok h
    obtain ⟨u, hu, hs⟩ := writeUser_users h
    exact ⟨u, hu, hput hu rfl hs⟩
  | deleteUser id =>
    replace h : s.removeUser id = .ok s' := h
    unfold Store.removeUser at h
    cases hu : s.users.get? id with
    | none => simp [hu] at h
    | some u =>
      rw [hu] at h
      cases h
      exact ⟨u, hu, fun i => get?_remove _ _ _⟩
  | setUserEnabled id enabled now =>
    obtain ⟨u', h⟩ := map_snd_ok h
    obtain ⟨u, hu, -, rfl⟩ := withUser_ok h
    exact ⟨u, hu, hput hu rfl rfl⟩
  | setUserApproval id approve now =>
    obtain ⟨u', h⟩ := map_snd_ok h
    obtain ⟨⟨u, hu, rfl⟩, rfl⟩ := setUserApproval_ok h
    exact ⟨u, hu, hput hu rfl rfl⟩

end

/-! ## Administrators who can log in -/

/-- An administrator, enabled and approved. -/
def User.serves (u : User) : Bool := u.role = "admin" && u.enabled && u.approvalStatus = "approved"

def Store.Manned (s : Store) : Prop := ∃ u ∈ s.users.rows, u.serves = true

/-- Every administrator can log in, so that the count counts those who can. -/
def Store.AllServe (s : Store) : Prop := ∀ u ∈ s.users.rows, u.role = "admin" → u.serves = true

namespace ManageOp

/-- The operations that the count is made for: they take the role or the account away. -/
def counted : ManageOp → Bool
  | updateUser _ input _ => input.role ≠ "admin"
  | deleteUser _ => true
  | setUserEnabled .. | setUserApproval .. => false

/-- Nothing is done that the count does not see: no administrator is disabled or rejected, and
nobody becomes one who is not enabled and approved. -/
def Proper (s : Store) : ManageOp → Prop
  | updateUser id input _ => input.role = "admin" → input.enabled = true ∧
      ∀ u, s.users.get? id = some u → u.approvalStatus = "approved"
  | deleteUser _ => True
  | setUserEnabled id enabled _ =>
    enabled = false → ∀ u, s.users.get? id = some u → u.role ≠ "admin"
  | setUserApproval id approve _ =>
    approve = false → ∀ u, s.users.get? id = some u → u.role ≠ "admin"

variable {toLower : String → String} {s s' : Store} {op : ManageOp} {u u' : User}

theorem serves_iff : u.serves = true ↔
    u.role = "admin" ∧ u.enabled = true ∧ u.approvalStatus = "approved" := by
  simp only [User.serves, Bool.and_eq_true, decide_eq_true_eq, and_assoc]

/-- Whom a proper operation leaves an administrator can log in. -/
theorem row_serves (hu : s.users.get? op.target = some u) (hp : op.Proper s)
    (hs : u.role = "admin" → u.serves = true) (hrow : op.row toLower u = some u')
    (hadmin : u'.role = "admin") : u'.serves = true := by
  cases op with
  | updateUser id input now =>
    cases hrow
    obtain ⟨henabled, happroved⟩ := hp hadmin
    exact serves_iff.mpr ⟨hadmin, henabled, happroved u hu⟩
  | deleteUser id => cases hrow
  | setUserEnabled id enabled now =>
    cases hrow
    obtain ⟨-, -, happroved⟩ := serves_iff.mp (hs hadmin)
    have henabled : enabled = true := by
      by_contra hoff
      exact hp (Bool.eq_false_iff.mpr hoff) u hu hadmin
    exact serves_iff.mpr ⟨hadmin, henabled, happroved⟩
  | setUserApproval id approve now =>
    cases hrow
    obtain ⟨-, henabled, -⟩ := serves_iff.mp (hs hadmin)
    have happroved : approve = true := by
      by_contra hoff
      exact hp (Bool.eq_false_iff.mpr hoff) u hu hadmin
    exact serves_iff.mpr ⟨hadmin, henabled, if_pos happroved⟩

/-- An operation that is not counted leaves an administrator the role. -/
theorem row_admin (toLower : String → String) (hc : op.counted = false) (hadmin : u.role = "admin") :
    ∃ u', op.row toLower u = some u' ∧ u'.id = u.id ∧ u'.role = "admin" := by
  cases op with
  | updateUser id input now =>
    exact ⟨_, rfl, rfl, not_not.mp fun hne => Bool.noConfusion (hc.symm.trans (decide_eq_true hne))⟩
  | deleteUser id => cases hc
  | setUserEnabled id enabled now => exact ⟨_, rfl, rfl, hadmin⟩
  | setUserApproval id approve now => exact ⟨_, rfl, rfl, hadmin⟩

section

variable (hw : op.write toLower s = .ok s') (hp : op.Proper s) (hs : s.AllServe)

include hw hp hs

theorem allServe_write : s'.AllServe := by
  obtain ⟨u, hu, hget⟩ := op.write_users hw
  intro v hv hadmin
  have hrow := hget v.id
  rw [get?_of_mem hv] at hrow
  split at hrow
  next => exact row_serves hu hp (hs u (mem_of_get? hu)) hrow.symm hadmin
  next => exact hs v (mem_of_get? hrow.symm) hadmin

/-- An administrator who can log in stays one, unless they are the one that is counted for. -/
theorem serves_write {v : User} (hv : v ∈ s.users.rows) (hserves : v.serves = true)
    (hspared : op.counted = true → v.id ≠ op.target) :
    ∃ v' ∈ s'.users.rows, v'.id = v.id ∧ v'.serves = true := by
  have hall := allServe_write hw hp hs
  obtain ⟨u, hu, hget⟩ := op.write_users hw
  have hrow := hget v.id
  by_cases htarget : op.target = v.id
  · have hc : op.counted = false := Bool.eq_false_iff.mpr fun hc => hspared hc htarget.symm
    rw [htarget, get?_of_mem hv] at hu
    cases hu
    obtain ⟨v', hv', hid, hadmin⟩ := row_admin toLower hc (serves_iff.mp hserves).1
    rw [if_pos htarget, hv'] at hrow
    exact ⟨v', mem_of_get? hrow, hid, hall v' (mem_of_get? hrow) hadmin⟩
  · rw [if_neg htarget, get?_of_mem hv] at hrow
    exact ⟨v, mem_of_get? hrow, rfl, hserves⟩

end

/-- **What the count is worth.** It has let the operation pass: another administrator than its
target can log in. -/
theorem check_spares (hc : op.check s = .ok ()) (hcounted : op.counted = true) (hs : s.AllServe)
    (hm : s.Manned) : ∃ v ∈ s.users.rows, v.id ≠ op.target ∧ v.serves = true := by
  have hguard : ∃ current, s.users.get? op.target = some current ∧
      s.lastAdmin current.role = false := by
    cases op with
    | updateUser id input now =>
      dsimp only [check] at hc
      split at hc
      · cases hc
      next current hu =>
      split at hc
      · cases hc
      next hfree =>
      have hcounted : decide (input.role ≠ "admin") = true := hcounted
      rw [hcounted, Bool.true_and, Bool.not_eq_true] at hfree
      exact ⟨current, hu, hfree⟩
    | deleteUser id =>
      dsimp only [check] at hc
      split at hc
      · cases hc
      next current hu =>
      split at hc
      · cases hc
      next hfree => exact ⟨current, hu, Bool.eq_false_iff.mpr hfree⟩
    | setUserEnabled | setUserApproval => cases hcounted
  obtain ⟨current, hu, hfree⟩ := hguard
  have hkey := get?_key hu
  by_cases hadmin : current.role = "admin"
  · -- the count was two or more
    have hcount : 1 < s.users.count fun u => u.role = "admin" := by
      rw [Store.lastAdmin, decide_eq_true hadmin, Bool.true_and, decide_eq_false_iff_not] at hfree
      omega
    have hremove := count_remove hu fun u => u.role = "admin"
    rw [decide_eq_true hadmin, if_pos rfl] at hremove
    have hpos : 0 < (s.users.remove op.target).count fun u => u.role = "admin" := by omega
    obtain ⟨v, hv, hother⟩ := countP_pos_iff.mp hpos
    have hget := get?_of_mem hv
    refine ⟨v, mem_of_get? (s.users.remove_sub _ hget), fun he => ?_,
      hs v (mem_of_get? (s.users.remove_sub _ hget)) (of_decide_eq_true hother)⟩
    rw [he, get?_remove_self] at hget
    cases hget
  · obtain ⟨v, hv, hserves⟩ := hm
    refine ⟨v, hv, fun he => hadmin ?_, hserves⟩
    rw [← he, get?_of_mem hv] at hu
    cases hu
    exact (serves_iff.mp hserves).1

end ManageOp

/-! ## Interleavings -/

structure Roster where
  db : Store
  /-- The transactions that have passed their check. -/
  checked : List ManageOp

inductive RosterEvent
  /-- A transaction begins with its check, and ends there if that fails. -/
  | check (op : ManageOp)
  /-- Transaction `i` writes and commits, or fails. -/
  | write (i : Nat)

namespace Roster

variable (toLower : String → String)

def perform (w : Roster) : RosterEvent → Roster
  | .check op =>
    match op.check w.db with
    | .ok () => { w with checked := w.checked ++ [op] }
    | .error _ => w
  | .write i =>
    match w.checked[i]? with
    | none => w
    | some op =>
      match op.write toLower w.db with
      | .ok db => ⟨db, w.checked.eraseIdx i⟩
      | .error _ => { w with checked := w.checked.eraseIdx i }

def run (w : Roster) (events : List RosterEvent) : Roster := events.foldl (perform toLower) w

/-- Between a count and its change no other one is made, and what is written is proper. -/
def Fair (w : Roster) : RosterEvent → Prop
  | .check op => op.counted = true → ∀ other ∈ w.checked, other.counted = false
  | .write i => ∀ op ∈ w.checked[i]?, op.Proper w.db

structure Inv (w : Roster) : Prop where
  serve : w.db.AllServe
  manned : w.db.Manned
  once : w.checked.countP ManageOp.counted ≤ 1
  spared : ∀ op ∈ w.checked, op.counted = true →
    ∃ v ∈ w.db.users.rows, v.id ≠ op.target ∧ v.serves = true

variable {toLower} {w : Roster}

theorem Inv.check (hi : w.Inv) {op : ManageOp} (hf : w.Fair (.check op))
    (hc : op.check w.db = .ok ()) : Inv { w with checked := w.checked ++ [op] } where
  serve := hi.serve
  manned := hi.manned
  once := by
    show (w.checked ++ [op]).countP _ ≤ 1
    rw [countP_append, countP_singleton]
    by_cases hcounted : op.counted = true
    · have hnone : w.checked.countP ManageOp.counted = 0 :=
        countP_eq_zero.mpr fun other hother => by simp [hf hcounted other hother]
      rw [hnone, if_pos hcounted]
    · rw [if_neg hcounted]
      exact hi.once
  spared other hother hcounted := by
    rcases mem_append.mp hother with hother | hother
    · exact hi.spared other hother hcounted
    · obtain rfl := mem_singleton.mp hother
      exact other.check_spares hc hcounted hi.serve hi.manned

theorem Inv.write (hi : w.Inv) {i : Nat} {op : ManageOp} {db : Store}
    (hop : w.checked[i]? = some op) (hp : op.Proper w.db)
    (hw : op.write toLower w.db = .ok db) : Inv ⟨db, w.checked.eraseIdx i⟩ where
  serve := ManageOp.allServe_write hw hp hi.serve
  manned := by
    have hspared : ∃ v ∈ w.db.users.rows, (op.counted = true → v.id ≠ op.target) ∧
        v.serves = true := by
      by_cases hcounted : op.counted = true
      · obtain ⟨v, hv, hne, hserves⟩ := hi.spared op (mem_of_getElem? hop) hcounted
        exact ⟨v, hv, fun _ => hne, hserves⟩
      · obtain ⟨v, hv, hserves⟩ := hi.manned
        exact ⟨v, hv, fun h => absurd h hcounted, hserves⟩
    obtain ⟨v, hv, hne, hserves⟩ := hspared
    obtain ⟨v', hv', -, hserves'⟩ := ManageOp.serves_write hw hp hi.serve hv hserves hne
    exact ⟨v', hv', hserves'⟩
  once := Nat.le_trans (eraseIdx_sublist _ _).countP_le hi.once
  spared other hother hcounted := by
    obtain ⟨v, hv, hne, hserves⟩ := hi.spared other (mem_of_mem_eraseIdx hother) hcounted
    have hplain : op.counted = false := by
      by_contra hc
      have hcount := countP_eraseIdx (p := ManageOp.counted) hop
      have hone := hi.once
      have hleft : 0 < (w.checked.eraseIdx i).countP ManageOp.counted :=
        countP_pos_iff.mpr ⟨other, hother, hcounted⟩
      rw [if_pos (Bool.not_eq_false _ ▸ hc)] at hcount
      omega
    obtain ⟨v', hv', hid, hserves'⟩ := ManageOp.serves_write hw hp hi.serve hv hserves
      fun h => by rw [hplain] at h; cases h
    exact ⟨v', hv', hid ▸ hne, hserves'⟩

/-- The step lemma. -/
theorem Inv.perform (hi : w.Inv) {e : RosterEvent} (hf : w.Fair e) : (w.perform toLower e).Inv := by
  cases e with
  | check op =>
    dsimp only [Roster.perform]
    split
    next hc => exact hi.check hf hc
    next => exact hi
  | write i =>
    dsimp only [Roster.perform]
    split
    next => exact hi
    next op hop =>
      split
      next db hw => exact hi.write hop (hf op hop) hw
      next =>
        exact ⟨hi.serve, hi.manned, Nat.le_trans (eraseIdx_sublist _ _).countP_le hi.once,
          fun other hother => hi.spared other (mem_of_mem_eraseIdx hother)⟩

end Roster

/-! ### Ways to lose the last one -/

def sampleAdmin (id : String) : User :=
  { sampleUser with id := id, username := id, role := "admin" }

def roster (users : List User) : Roster :=
  ⟨{ Store.empty ⟨true, false⟩ with users := Table.empty.putAll users }, []⟩

/-- The role of a user is taken away. -/
def demotion (id : String) : ManageOp := .updateUser id ⟨id, "", "", "", "", "user", true, []⟩ 5

end RemoteControl.Sync
