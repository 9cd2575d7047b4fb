import RemoteControl.Lib.Events
import RemoteControl.Sync.Login

/-!
# Turning two-factor authentication on and off

The requests of `httpapi/mfa.go` work on the user that was read when the request was
authenticated. On that copy they decide whether a code is asked for and what it is checked
against, and then they write the row, whatever is in it by then:

> `SetUserTOTP` has no condition, so a request that was overtaken writes as if nothing had
> happened.

`MfaDesk` is the database with any number of authenticated requests. The recovery codes are in a
table of their own, which these requests write after the row of the user.
-/

namespace RemoteControl.Sync

open Lib

variable {i now : Nat} {user : User}

/-! ## The service -/

/-- The cryptography of `mfa.Service`; a code is checked at a time. -/
structure Mfa where
  decrypt : String → Option String
  validate : String → String → Nat → Bool
  recoveryHash : String → String

/-- The code is valid for the secret of a row. -/
def Mfa.shows (m : Mfa) (encrypted code : String) (now : Nat) : Bool :=
  (m.decrypt encrypted).any fun secret => m.validate secret code now

structure Vault where
  db : Store
  /-- `mfa_recovery_codes`: users and hashes. -/
  codes : List (String × String)

def Vault.replaceMFARecoveryCodes (userId : String) (hashes : List String) (v : Vault) : Vault :=
  { v with codes := v.codes.filter (fun c => c.1 ≠ userId) ++ hashes.map fun h => (userId, h) }

/-- `SetUserTOTP`; nothing happens if there is no such user. -/
def Vault.setUserTOTP (id secret : String) (enabled : Bool) (now : Nat) (v : Vault) : Vault :=
  match v.db.setUserTOTP id secret enabled now with
  | .ok (_, db) => { v with db }
  | .error _ => v

inductive MfaMode
  | optional | requiredForAdmins | requiredForAllUsers
deriving DecidableEq, Repr

def MfaMode.required (mode : MfaMode) (user : User) : Bool :=
  mode = .requiredForAllUsers || mode = .requiredForAdmins && user.role = "admin"

/-- A hash is in the table once, so one row is deleted or none. -/
def Vault.consumeMFARecoveryCode (userId hash : String) (v : Vault) : Bool × Vault :=
  ((userId, hash) ∈ v.codes, { v with codes := v.codes.filter (· ≠ (userId, hash)) })

/-- What `Verify` finds. Its two results are whether the verdict is not `invalid` and whether it
is `recovery`. -/
inductive Verdict
  | invalid | notAsked | totp | recovery
deriving DecidableEq, Repr

/-- A code of the user was found valid. -/
def Verdict.proves : Verdict → Bool
  | .totp | .recovery => true
  | _ => false

def Mfa.verify (m : Mfa) (mode : MfaMode) (user : User) (code : String) (now : Nat) (v : Vault) :
    Verdict × Vault :=
  if user.totpEnabled = false then (if mode.required user then .invalid else .notAsked, v)
  else if m.shows user.totpSecret code now then (.totp, v)
  else
    let (consumed, v') := v.consumeMFARecoveryCode user.id (m.recoveryHash code)
    (if consumed then .recovery else .invalid, v')

/-- `Verify` reads the user from its caller. -/
theorem verify_db (m : Mfa) (mode : MfaMode) (user : User) (code : String) (now : Nat)
    (v : Vault) : (m.verify mode user code now v).2.db = v.db := by
  unfold Mfa.verify
  split
  · rfl
  · split
    · rfl
    · rfl

/-- Who is not asked has no second factor. -/
theorem verify_proves {m : Mfa} {mode : MfaMode} {code : String} {v v' : Vault}
    {verdict : Verdict} (h : m.verify mode user code now v = (verdict, v'))
    (hne : verdict ≠ .invalid) : verdict.proves = user.totpEnabled := by
  unfold Mfa.verify at h
  split at h
  · next hoff =>
    rw [hoff]
    cases h
    split at hne
    · exact absurd rfl hne
    · next hreq => rw [if_neg hreq]; rfl
  · next hon =>
    have hon' : user.totpEnabled = true := by simpa using hon
    rw [hon']
    split at h
    · cases h
      rfl
    · cases h
      split at hne
      · next hc => rw [if_pos hc]; rfl
      · exact absurd rfl hne

/-- Who is let through without a second factor does not have to have one. -/
theorem verify_optional {m : Mfa} {mode : MfaMode} {code : String} {v v' : Vault}
    {verdict : Verdict} (h : m.verify mode user code now v = (verdict, v'))
    (hne : verdict ≠ .invalid) (hoff : user.totpEnabled = false) : mode.required user = false := by
  rw [Mfa.verify, if_pos hoff] at h
  cases h
  by_contra hreq
  exact hne (if_pos (eq_true_of_ne_false hreq))

/-! ## Requests -/

structure MfaDesk where
  vault : Vault
  /-- The users of the authenticated requests, as they were read. -/
  copies : List User
  /-- The replacements of recovery codes that are still to be made. -/
  replacing : List (String × List String)

inductive MfaEvent
  | authenticate (id : String)
  | enroll (i : Nat) (encrypted : String) (hashes : List String) (now : Nat)
  | confirm (i : Nat) (code : String) (now : Nat)
  | disable (i : Nat) (code : String) (now : Nat)
  | regenerate (i : Nat) (code : String) (hashes : List String) (now : Nat)
  | adminReset (id : String) (now : Nat)
  | replaceCodes (i : Nat)
deriving DecidableEq, Repr

namespace MfaDesk

variable (m : Mfa)

/-- The row is written, and the recovery codes are to be replaced. -/
def write (id secret : String) (enabled : Bool) (hashes : Option (List String)) (now : Nat)
    (d : MfaDesk) : MfaDesk :=
  { d with
    vault := d.vault.setUserTOTP id secret enabled now
    replacing := d.replacing ++ (hashes.map fun h => (id, h)).toList }

def enrollTOTP (user : User) (encrypted : String) (hashes : List String) (now : Nat)
    (d : MfaDesk) : MfaDesk :=
  if user.totpEnabled then d else d.write user.id encrypted false (some hashes) now

def confirmTOTP (user : User) (code : String) (now : Nat) (d : MfaDesk) : MfaDesk :=
  if m.shows user.totpSecret code now then d.write user.id user.totpSecret true none now else d

def disableTOTP (user : User) (code : String) (now : Nat) (d : MfaDesk) : MfaDesk :=
  if user.totpEnabled && !m.shows user.totpSecret code now then d
  else d.write user.id "" false (some []) now

def regenerateRecoveryCodes (user : User) (code : String) (hashes : List String) (now : Nat)
    (d : MfaDesk) : MfaDesk :=
  if m.shows user.totpSecret code now then
    { d with vault := d.vault.replaceMFARecoveryCodes user.id hashes }
  else d

/-- Request `i` is handled. -/
def withCopy (i : Nat) (d : MfaDesk) (f : User → MfaDesk) : MfaDesk := match d.copies[i]? with
  | none => d
  | some user => f user

def perform (d : MfaDesk) : MfaEvent → MfaDesk
  | .authenticate id =>
    match d.vault.db.users.get? id with
    | none => d
    | some user => { d with copies := d.copies ++ [user] }
  | .enroll i encrypted hashes now =>
    d.withCopy i fun user => d.enrollTOTP user encrypted hashes now
  | .confirm i code now => d.withCopy i fun user => d.confirmTOTP m user code now
  | .disable i code now => d.withCopy i fun user => d.disableTOTP m user code now
  | .regenerate i code hashes now =>
    d.withCopy i fun user => d.regenerateRecoveryCodes m user code hashes now
  | .adminReset id now => d.write id "" false (some []) now
  | .replaceCodes i =>
    match d.replacing[i]? with
    | none => d
    | some (id, hashes) => { d with
      vault := d.vault.replaceMFARecoveryCodes id hashes
      replacing := d.replacing.eraseIdx i }

def user? (id : String) (d : MfaDesk) : Option User := d.vault.db.users.get? id

/-! ## What is to hold -/

/-- Protection ends by a code for the stored secret or by an administrator, and begins with the
stored secret and a code for it. -/
structure Guards (d : MfaDesk) (e : MfaEvent) : Prop where
  off : ∀ id u u', d.user? id = some u → (d.perform m e).user? id = some u' →
    u.totpEnabled = true → u'.totpEnabled = false →
    (∃ i copy code now, e = .disable i code now ∧ d.copies[i]? = some copy ∧ copy.id = id ∧
      m.shows u.totpSecret code now = true) ∨ ∃ now, e = .adminReset id now
  on : ∀ id u u', d.user? id = some u → (d.perform m e).user? id = some u' →
    u'.totpEnabled = true → (u.totpEnabled = false ∨ u'.totpSecret ≠ u.totpSecret) →
    u'.totpSecret = u.totpSecret ∧ ∃ i copy code now, e = .confirm i code now ∧
      d.copies[i]? = some copy ∧ copy.id = id ∧ m.shows u'.totpSecret code now = true

/-- What a request finds in the row when it writes: no protection for an enrolment, the secret of
the copy for a confirmation, and for a disabling nothing that the code is not valid for. -/
def Timely (d : MfaDesk) : MfaEvent → Prop
  | .enroll i _ _ _ => ∀ copy, d.copies[i]? = some copy → copy.totpEnabled = false →
      ∀ u, d.user? copy.id = some u → u.totpEnabled = false
  | .confirm i code now => ∀ copy, d.copies[i]? = some copy →
      m.shows copy.totpSecret code now = true →
      ∀ u, d.user? copy.id = some u → u.totpSecret = copy.totpSecret
  | .disable i code now => ∀ copy, d.copies[i]? = some copy →
      (copy.totpEnabled = true → m.shows copy.totpSecret code now = true) →
      ∀ u, d.user? copy.id = some u → u.totpEnabled = true → m.shows u.totpSecret code now = true
  | _ => True

/-! ## One event -/

section

variable {m} {d : MfaDesk} {e : MfaEvent}

/-- The row as a write leaves it. -/
theorem user?_write (id secret : String) (enabled : Bool) (hashes : Option (List String))
    (now : Nat) (d : MfaDesk) (k : String) :
    (d.write id secret enabled hashes now).user? k = if id = k then
        (d.user? k).map fun u =>
          { u with
            totpSecret := secret
            totpEnabled := enabled
            tokenVersion := if u.totpEnabled = enabled then u.tokenVersion else u.tokenVersion + 1
            updatedAt := now }
      else d.user? k := by
  unfold write user? Vault.setUserTOTP Store.setUserTOTP Store.withUser updateRow
  dsimp only
  cases hu : d.vault.db.users.get? id with
  | none =>
    simp only [Except.map]
    split
    · next hk => rw [← hk, hu]; rfl
    · rfl
  | some u =>
    have hkey := Table.get?_key hu
    simp only [Except.map]
    rw [Table.get?_put]
    by_cases hk : id = k
    · rw [if_pos (hkey.trans hk), if_pos hk, ← hk, hu]
      rfl
    · rw [if_neg fun h => hk (hkey.symm.trans h), if_neg hk]

theorem not_turned_on {u : User} (h : u.totpEnabled = true) :
    ¬ (u.totpEnabled = false ∨ u.totpSecret ≠ u.totpSecret) := by
  rintro (hoff | hne)
  · rw [h] at hoff
    cases hoff
  · exact hne rfl

/-- An event that leaves the row alone keeps the guard. -/
theorem guards_of_same (h : ∀ id, (d.perform m e).user? id = d.user? id) : d.Guards m e := by
  constructor
  · intro id u u' hu hu' hon hoff
    rw [h, hu] at hu'
    cases hu'
    rw [hon] at hoff
    cases hoff
  · intro id u u' hu hu' hon hchange
    rw [h, hu] at hu'
    cases hu'
    exact absurd hchange (not_turned_on hon)

/-- An event that writes the second factor of a user. -/
theorem guards_write {id secret : String} {enabled : Bool} {hashes : Option (List String)}
    (h : d.perform m e = d.write id secret enabled hashes now) :
    d.Guards m e ↔ ∀ u, d.user? id = some u →
      (u.totpEnabled = true → enabled = false →
        (∃ i copy code now, e = .disable i code now ∧ d.copies[i]? = some copy ∧ copy.id = id ∧
          m.shows u.totpSecret code now = true) ∨ ∃ now, e = .adminReset id now) ∧
      (enabled = true → (u.totpEnabled = false ∨ secret ≠ u.totpSecret) →
        secret = u.totpSecret ∧ ∃ i copy code now, e = .confirm i code now ∧
          d.copies[i]? = some copy ∧ copy.id = id ∧ m.shows secret code now = true) := by
  constructor
  · intro hg u hu
    have hrow : (d.perform m e).user? id = some { u with
        totpSecret := secret
        totpEnabled := enabled
        tokenVersion := if u.totpEnabled = enabled then u.tokenVersion else u.tokenVersion + 1
        updatedAt := now } := by
      rw [h, user?_write, if_pos rfl, hu]
      rfl
    exact ⟨hg.off id u _ hu hrow, hg.on id u _ hu hrow⟩
  · intro hall
    have hrow : ∀ k u u', d.user? k = some u → (d.perform m e).user? k = some u' →
        u' = u ∨ id = k ∧ u'.totpSecret = secret ∧ u'.totpEnabled = enabled := by
      intro k u u' hu hu'
      rw [h, user?_write, hu] at hu'
      split at hu'
      · next hk =>
        cases hu'
        exact .inr ⟨hk, rfl, rfl⟩
      · cases hu'
        exact .inl rfl
    constructor
    · intro k u u' hu hu' hon hoff
      rcases hrow k u u' hu hu' with rfl | ⟨rfl, -, he⟩
      · rw [hon] at hoff
        cases hoff
      · exact (hall u hu).1 hon (he.symm.trans hoff)
    · intro k u u' hu hu' hon hchange
      rcases hrow k u u' hu hu' with rfl | ⟨rfl, hsecret, he⟩
      · exact absurd hchange (not_turned_on hon)
      · rw [hsecret] at hchange ⊢
        exact (hall u hu).2 (he.symm.trans hon) hchange

theorem withCopy_none (h : d.copies[i]? = none) (f : User → MfaDesk) : d.withCopy i f = d := by
  unfold withCopy
  rw [h]

theorem withCopy_some (h : d.copies[i]? = some user) (f : User → MfaDesk) :
    d.withCopy i f = f user := by
  unfold withCopy
  rw [h]

theorem guards_iff_of_copy {P : User → Prop} {f : User → MfaDesk}
    (he : d.perform m e = d.withCopy i f)
    (h : ∀ copy, d.copies[i]? = some copy → d.perform m e = f copy → (d.Guards m e ↔ P copy)) :
    d.Guards m e ↔ ∀ copy, d.copies[i]? = some copy → P copy := by
  cases hcopy : d.copies[i]? with
  | none =>
    refine iff_of_true (guards_of_same fun id => ?_) nofun
    rw [he, withCopy_none hcopy]
  | some copy =>
    simp only [Option.some.injEq, forall_eq']
    exact h copy hcopy (he.trans (withCopy_some hcopy f))

theorem guards_enroll_iff (d : MfaDesk) (i : Nat) (encrypted : String) (hashes : List String)
    (now : Nat) : d.Guards m (.enroll i encrypted hashes now) ↔
      d.Timely m (.enroll i encrypted hashes now) := by
  refine guards_iff_of_copy rfl fun copy hcopy hperform => ?_
  unfold enrollTOTP at hperform
  cases hon : copy.totpEnabled with
  | true =>
    rw [if_pos hon] at hperform
    exact iff_of_true (guards_of_same fun id => congrArg (user? id) hperform) nofun
  | false =>
    rw [if_neg (by simp [hon])] at hperform
    rw [guards_write hperform]
    constructor
    · intro h _ u hu
      refine Bool.eq_false_iff.mpr fun hu' => ?_
      rcases (h u hu).1 hu' rfl with ⟨_, _, _, _, h, _⟩ | ⟨_, h⟩
      · cases h
      · cases h
    · intro h u hu
      refine ⟨fun hu' => ?_, nofun⟩
      rw [h rfl u hu] at hu'
      cases hu'

theorem guards_disable_iff (d : MfaDesk) (i : Nat) (code : String) (now : Nat) :
    d.Guards m (.disable i code now) ↔ d.Timely m (.disable i code now) := by
  refine guards_iff_of_copy rfl fun copy hcopy hperform => ?_
  unfold disableTOTP at hperform
  by_cases hasked : copy.totpEnabled = true → m.shows copy.totpSecret code now = true
  · have hpass : ¬ (copy.totpEnabled && !m.shows copy.totpSecret code now) = true := by
      simpa using hasked
    rw [if_neg hpass] at hperform
    rw [guards_write hperform]
    constructor
    · intro h _ u hu hu'
      rcases (h u hu).1 hu' rfl with ⟨j, copy', code', now', he, -, -, hshows⟩ | ⟨_, he⟩
      · cases he
        exact hshows
      · cases he
    · intro h u hu
      exact ⟨fun hu' _ => .inl ⟨i, copy, code, now, rfl, hcopy, rfl, h hasked u hu hu'⟩, nofun⟩
  · have hfail : (copy.totpEnabled && !m.shows copy.totpSecret code now) = true := by
      simpa using hasked
    rw [if_pos hfail] at hperform
    exact iff_of_true (guards_of_same fun id => congrArg (user? id) hperform)
      fun h => absurd h hasked

theorem guards_confirm_iff (d : MfaDesk) (i : Nat) (code : String) (now : Nat) :
    d.Guards m (.confirm i code now) ↔ d.Timely m (.confirm i code now) := by
  refine guards_iff_of_copy rfl fun copy hcopy hperform => ?_
  unfold confirmTOTP at hperform
  cases hshows : m.shows copy.totpSecret code now with
  | false =>
    rw [if_neg (by simp [hshows])] at hperform
    exact iff_of_true (guards_of_same fun id => congrArg (user? id) hperform) nofun
  | true =>
    rw [if_pos hshows] at hperform
    rw [guards_write hperform]
    constructor
    · intro h _ u hu
      by_contra hne
      exact hne ((h u hu).2 rfl (.inr fun he => hne he.symm)).1.symm
    · intro h u hu
      exact ⟨nofun, fun _ _ => ⟨(h rfl u hu).symm, i, copy, code, now, rfl, hcopy, rfl, hshows⟩⟩

/-- **One event.** -/
theorem guards_iff_timely (d : MfaDesk) (e : MfaEvent) : d.Guards m e ↔ d.Timely m e := by
  cases e with
  | enroll i encrypted hashes now => exact guards_enroll_iff d i encrypted hashes now
  | confirm i code now => exact guards_confirm_iff d i code now
  | disable i code now => exact guards_disable_iff d i code now
  | adminReset id now =>
    refine iff_of_true ?_ trivial
    rw [guards_write (rfl : d.perform m (.adminReset id now) = d.write id "" false (some []) now)]
    exact fun _ _ => ⟨fun _ _ => .inr ⟨now, rfl⟩, nofun⟩
  | authenticate | replaceCodes =>
    refine iff_of_true (guards_of_same fun k => ?_) trivial
    unfold perform
    dsimp only
    split <;> rfl
  | regenerate i code hashes now =>
    refine iff_of_true (guards_of_same fun k => ?_) trivial
    unfold perform withCopy regenerateRecoveryCodes
    dsimp only
    split
    · rfl
    · split <;> rfl

/-- **When protection is guarded.** However the requests of a user's sessions and the resets of
administrators interleave: protection is only turned off by a code for the secret stored at that
moment or by a reset, and only turned on with the secret that is stored and a code for it, exactly
when every request that writes is timely. -/
theorem protection_guarded_iff (m : Mfa) (d : MfaDesk) (events : List MfaEvent) :
    Throughout (perform m) (Guards m) d events ↔ Throughout (perform m) (Timely m) d events :=
  throughout_congr (I := fun _ => True) (fun _ _ _ _ => trivial)
    (fun d e _ => guards_iff_timely d e) trivial events

/-- The row of the request's user still has the secret and the flag of the copy. -/
def Unchanged (d : MfaDesk) : MfaEvent → Prop
  | .enroll i _ _ _ | .confirm i _ _ | .disable i _ _ => ∀ copy, d.copies[i]? = some copy →
      ∀ u, d.user? copy.id = some u →
        u.totpSecret = copy.totpSecret ∧ u.totpEnabled = copy.totpEnabled
  | _ => True

theorem timely_of_unchanged (h : d.Unchanged e) : d.Timely m e := by
  cases e with
  | enroll =>
    intro copy hcopy hoff u hu
    exact (h copy hcopy u hu).2.trans hoff
  | confirm =>
    intro copy hcopy _ u hu
    exact (h copy hcopy u hu).1
  | disable =>
    intro copy hcopy hcode u hu hon
    obtain ⟨hsecret, henabled⟩ := h copy hcopy u hu
    rw [hsecret]
    exact hcode (henabled.symm.trans hon)
  | _ => trivial

/-- Protection is guarded where nobody writes a second factor between another request's
authentication and its write. -/
theorem protection_guarded_of_unchanged {events : List MfaEvent}
    (h : Throughout (perform m) Unchanged d events) :
    Throughout (perform m) (Guards m) d events :=
  fun before e hpre => (guards_iff_timely _ e).mpr (timely_of_unchanged (h before e hpre))

end

/-! ### Requests that were overtaken -/

/-- A secret is its own encryption, and its only code. -/
def sampleMfa : Mfa := ⟨fun s => if s = "" then none else some s, fun s code _ => s = code, id⟩

def sampleDesk : MfaDesk :=
  ⟨⟨{ Store.empty ⟨true, false⟩ with users := Table.empty.put sampleUser }, []⟩, [], []⟩

/-- The account of the sample after some events. -/
def stateAfter (events : List MfaEvent) : Option (String × Bool) :=
  ((events.foldl (perform sampleMfa) sampleDesk).user? sampleUser.id).map fun u =>
    (u.totpSecret, u.totpEnabled)

/-- Two requests are authenticated; with the first the user enrols, and a third confirms. -/
def enrolled : List MfaEvent :=
  [.authenticate sampleUser.id, .authenticate sampleUser.id, .enroll 0 "first" [] 10,
    .authenticate sampleUser.id, .confirm 2 "first" 20]

/-- The second request, which saw no protection yet, ends it without a code, by disabling and by
enrolling again; and after a reset an overtaken confirmation brings the old secret back. -/
theorem overtaken_requests :
    stateAfter enrolled = some ("first", true) ∧
    stateAfter (enrolled ++ [.disable 1 "" 30]) = some ("", false) ∧
    stateAfter (enrolled ++ [.enroll 1 "second" [] 30]) = some ("second", false) ∧
    stateAfter (enrolled ++ [.adminReset sampleUser.id 30, .confirm 2 "first" 40])
      = some ("first", true) ∧
    ¬ Throughout (perform sampleMfa) (Guards sampleMfa) sampleDesk
      (enrolled ++ [.disable 1 "" 30]) := by
  refine ⟨by decide, by decide, by decide, by decide, fun h => ?_⟩
  have hguard := h enrolled (.disable 1 "" 30) (List.prefix_refl _)
  have hshown := (guards_iff_timely _ _).mp hguard sampleUser (by decide) (by decide) _ rfl rfl
  cases hshown

end MfaDesk

end RemoteControl.Sync
