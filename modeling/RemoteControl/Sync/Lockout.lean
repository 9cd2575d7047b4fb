import RemoteControl.Sync.LoginRaces
import RemoteControl.Sync.TwoFactor

/-!
# Accounts locked after failed logins

Every failed login is recorded under the name of an account, and once there are enough of them
within a window the name is locked for a while. `login` asks for the lock before it looks at a
password, by the name in the request. Two of its ways do not go by that name:

* a request with a code for a challenge is not asked about the lock at all, and
* an identity provider that knows the password may lead to an account of another name.

> Both reach the account while its name is locked, and a success takes the lock away.

Requests follow one another here; a request comes some time after the one before it.
-/

namespace RemoteControl.Sync

open Lib List Table

variable {c : AuthChallenge} {deviceId username : String} {u user : User}

/-! ## What the endpoint works with -/

/-- `strings.ToLower` and `strings.TrimSpace`. -/
structure Names where
  lower : String → String
  trim : String → String
  lower_lower : ∀ s, lower (lower s) = lower s
  trim_trim : ∀ s, trim (trim s) = trim s
  lower_trim : ∀ s, lower (trim s) = trim (lower s)

/-- The name that attempts and locks are stored under. -/
def Names.key (n : Names) (username : String) : String := n.lower (n.trim username)

structure LockoutConfig where
  burst : Nat
  window : Nat
  lockout : Nat
deriving DecidableEq, Repr

/-- `ART_LOGIN_BURST`, `ART_LOGIN_WINDOW` and `ART_LOGIN_LOCKOUT`, times in milliseconds. -/
def LockoutConfig.ofEnv (burst window lockout : Int) : LockoutConfig where
  burst := if burst < 2 then 5 else burst.toNat
  window := if window ≤ 0 then 300000 else window.toNat
  lockout := if lockout ≤ 0 then 900000 else lockout.toNat

structure Profile where
  subject : String
  username : String
  email : String
  displayName : String

structure PasswordProvider where
  name : String
  autoProvision : Bool
  authenticate : String → String → Option Profile

structure LoginEnv where
  names : Names
  config : LockoutConfig
  mfa : Mfa
  verifyPassword : String → String → Bool
  providers : List PasswordProvider
  sessionTtl : Nat

/-! ## The state -/

structure LoginAttempt where
  username : String
  occurredAt : Nat
deriving DecidableEq, Repr

/-- `account_lockouts`. -/
structure AccountLockout where
  username : String
  lockedUntil : Nat
deriving DecidableEq, Repr

structure ExternalIdentity where
  provider : String
  subject : String
  userId : String
deriving DecidableEq, Repr

structure Gate where
  vault : Vault
  mode : MfaMode
  challenges : Table AuthChallenge.id
  identities : List ExternalIdentity
  attempts : List LoginAttempt
  lockouts : Table AccountLockout.username
  /-- The time of the last request. -/
  clock : Nat
  /-- For the proofs: the names whose attempts have reached the burst, and when. -/
  reached : List (String × Nat)

/-- What a request does to an account, named as its lock is. -/
inductive Touch
  | password (key : String)
  | code (key : String)
  | session (key : String)
  | clear (key : String)
deriving DecidableEq, Repr

def Touch.key : Touch → String
  | .password k | .code k | .session k | .clear k => k

structure LoginRequest where
  username : String
  password : String
  id : String
  uuid : String
  type : String
  verificationCode : String
  clientVerificationCode : String
  tfaCode : String
  secret : String
  ip : String
  userAgent : String
  /-- The limiter of addresses refuses the request. -/
  limited : Bool
  /-- The random values that the request may use: of a challenge, a session and a new user. -/
  challengeId : String
  sessionId : String
  userId : String
  passwordHash : String
deriving DecidableEq, Repr

/-- The client sends a code for a challenge also as `email_code`. -/
def LoginRequest.isTfa (r : LoginRequest) : Bool :=
  r.type = "tfa_code" || r.type = "email_code" && r.secret ≠ "" && r.tfaCode ≠ ""

def LoginRequest.code (r : LoginRequest) : String :=
  if r.verificationCode = "" then r.clientVerificationCode else r.verificationCode

namespace Gate

variable (env : LoginEnv)

/-! ## The lock -/

def accountLoginAllowed (username : String) (now : Nat) (g : Gate) : Bool :=
  username = "" || match g.lockouts.get? (env.names.key username) with
    | none => true
    | some l => l.lockedUntil ≤ now

def accountLoginFailure (username : String) (now : Nat) (g : Gate) : Gate :=
  let key := env.names.key username
  if username = "" ∨ key = "" then g
  else
    let attempts := (g.attempts ++ [LoginAttempt.mk key now]).filter fun a =>
      now ≤ a.occurredAt + env.config.window
    if (attempts.filter fun a => a.username = key).length < env.config.burst then
      { g with attempts }
    else { g with
      attempts
      lockouts := g.lockouts.put ⟨key, now + env.config.lockout⟩
      reached := (key, now) :: g.reached }

def accountLoginSuccess (username : String) (g : Gate) : Gate :=
  { g with
    attempts := g.attempts.filter fun a => a.username ≠ env.names.key username
    lockouts := g.lockouts.remove (env.names.key username) }

/-! ## Credentials -/

def findUserByUsername (username : String) (g : Gate) : Option User :=
  g.vault.db.users.rows.find? fun u => u.username = env.names.lower username

/-- The loop over the providers: the first that knows the password decides. It leads to the user
of a known identity, or to a new user. -/
def external (r : LoginRequest) (username : String) (now : Nat) (g : Gate) :
    Option (User × Gate) :=
  match env.providers.findSome? fun p => (p.authenticate username r.password).map (p, ·) with
  | none => none
  | some (p, profile) =>
    match g.identities.find? fun i => i.provider = p.name && i.subject = profile.subject with
    | some identity => (g.vault.db.users.get? identity.userId).map (·, g)
    | none =>
      if p.autoProvision = false ∨ (g.findUserByUsername env profile.username).isSome then none
      else
        let user : User := ⟨r.userId, profile.username, profile.email, "", r.passwordHash,
          profile.displayName, "user", none, true, "approved", 1, now, now, 0, 0, "", false⟩
        match g.vault.db.createUser env.names.lower user with
        | .error _ => none
        | .ok db => some (user, { g with
            vault := { g.vault with db }
            identities := g.identities ++ [⟨p.name, profile.subject, user.id⟩] })

/-- `VerifyCredentials`: the user and where the password was tested. -/
def verifyCredentials (r : LoginRequest) (username : String) (now : Nat) (g : Gate) :
    Option User × Gate × List Touch :=
  let found := g.findUserByUsername env username
  let tested := found.toList.map fun u => .password (env.names.key u.username)
  match found.filter fun u => env.verifyPassword u.passwordHash r.password with
  | some u => ((validateLoginUser u).toOption, g, tested)
  | none =>
    match g.external env r username now with
    | none => (none, g, tested)
    | some (u, g) =>
      ((validateLoginUser u).toOption, g, tested ++ [.password (env.names.key u.username)])

/-! ## The endpoint -/

/-- `CompleteLogin`, and what follows it. -/
def completeLogin (r : LoginRequest) (user : User) (deviceId : String) (now : Nat) (g : Gate) :
    Gate × List Touch :=
  match g.vault.db.createSession
    (newSession r.sessionId user ⟨r.ip, r.userAgent, deviceId⟩ now env.sessionTtl) with
  | .error _ => (g, [])
  | .ok db =>
    ({ g with vault := { g.vault with db := db.updateLastLogin user.id now } }.accountLoginSuccess
      env user.username, [.session (env.names.key user.username),
        .clear (env.names.key user.username)])

/-- The user whose code a request is to be checked against. -/
def challengeUser (r : LoginRequest) (now : Nat) (g : Gate) : Option (AuthChallenge × User) :=
  if r.secret.utf8ByteSize < 16 ∨ 128 < r.secret.utf8ByteSize ∨ r.tfaCode.utf8ByteSize < 6
      ∨ 32 < r.tfaCode.utf8ByteSize then none
  else
    match g.challenges.get? r.secret with
    | none => none
    | some c =>
      if c.expiresAt ≤ now then none
      else (g.vault.db.users.get? c.userId).bind fun u =>
        if u.enabled ∧ u.tokenVersion = c.tokenVersion then some (c, u) else none

/-- The part of `login` for a code. -/
def tfaLogin (r : LoginRequest) (now : Nat) (g : Gate) : Gate × List Touch :=
  match g.challengeUser r now with
  | none => (g, [])
  | some (c, user) =>
    let tested : List Touch :=
      if user.totpEnabled then [.code (env.names.key user.username)] else []
    let verified := env.mfa.verify g.mode user r.tfaCode now g.vault
    let g := { g with vault := verified.2 }
    if verified.1 = .invalid then (g.accountLoginFailure env user.username now, tested)
    else
      let result := { g with challenges := g.challenges.remove c.id }.completeLogin env r user
        (firstNonEmpty c.clientUuid c.rustdeskId) now
      (result.1, tested ++ result.2)

def createAuthChallenge (c : AuthChallenge) (g : Gate) : Gate :=
  { g with
    challenges := (g.challenges.deleteWhere fun d => d.expiresAt ≤ c.createdAt).insert c }

/-- The part of `login` that follows `VerifyCredentials`. -/
def secondFactor (r : LoginRequest) (user : User) (now : Nat) (g : Gate) : Gate × List Touch :=
  if user.totpEnabled = false then
    if g.mode.required user then (g, [])
    else g.completeLogin env r user (firstNonEmpty r.uuid r.id) now
  else
    let verified := env.mfa.verify g.mode user r.code now g.vault
    let g := { g with vault := verified.2 }
    if verified.1 = .invalid then
      let g := if r.code = "" then g else g.accountLoginFailure env user.username now
      (if r.type = "web" then g else g.createAuthChallenge
        ⟨r.challengeId, user.id, user.tokenVersion, now, now + 180000, r.id, r.uuid, 0, 0⟩,
        [.code (env.names.key user.username)])
    else
      let result := g.completeLogin env r user (firstNonEmpty r.uuid r.id) now
      (result.1, .code (env.names.key user.username) :: result.2)

/-- The name that is asked about, as `login` has made it of the request. -/
def requestName (r : LoginRequest) : String := env.names.trim (env.names.lower r.username)

/-- The request gets as far as its password. -/
def passwordAdmitted (r : LoginRequest) (now : Nat) (g : Gate) : Bool :=
  let username := requestName env r
  g.accountLoginAllowed env username now && 2 ≤ username.utf8ByteSize
    && username.utf8ByteSize ≤ 128 && 1 ≤ r.password.utf8ByteSize
    && r.password.utf8ByteSize ≤ 1024

/-- What `login` does with the result of `VerifyCredentials`. -/
def afterCredentials (r : LoginRequest) (now : Nat) :
    Option User × Gate × List Touch → Gate × List Touch
  | (none, g, tested) => (g.accountLoginFailure env (requestName env r) now, tested)
  | (some user, g, tested) =>
    let result := g.secondFactor env r user now
    (result.1, tested ++ result.2)

def passwordLogin (r : LoginRequest) (now : Nat) (g : Gate) : Gate × List Touch :=
  if g.passwordAdmitted env r now = false then (g, [])
  else afterCredentials env r now (g.verifyCredentials env r (requestName env r) now)

def login (r : LoginRequest) (now : Nat) (g : Gate) : Gate × List Touch :=
  if r.limited then (g, [])
  else if r.isTfa then g.tfaLogin env r now
  else g.passwordLogin env r now

/-- A request, some time after the last one. -/
structure Arrival where
  request : LoginRequest
  after : Nat

variable {a : Arrival}

def perform (g : Gate) (a : Arrival) : Gate :=
  { (g.login env a.request (g.clock + a.after)).1 with clock := g.clock + a.after }

/-! ## What is to hold -/

/-- The attempts under the name have reached the burst, less than the lockout ago. -/
def LockedOut (key : String) (now : Nat) (g : Gate) : Prop :=
  ∃ t, (key, t) ∈ g.reached ∧ now < t + env.config.lockout

/-- The user of the name in the request, if the password is theirs. -/
def localUser (r : LoginRequest) (g : Gate) : Option User :=
  (g.findUserByUsername env (requestName env r)).filter fun u =>
    env.verifyPassword u.passwordHash r.password

/-- The request touches no account that is locked out. -/
def Holds (g : Gate) (a : Arrival) : Prop :=
  ∀ touch ∈ (g.login env a.request (g.clock + a.after)).2,
    ¬ g.LockedOut env touch.key (g.clock + a.after)

/-- The account that a challenge leads to, or a provider, is not locked out. -/
def Spares (g : Gate) (a : Arrival) : Prop :=
  a.request.limited = false →
    (a.request.isTfa = true → ∀ c user,
      g.challengeUser a.request (g.clock + a.after) = some (c, user) →
      ¬ g.LockedOut env (env.names.key user.username) (g.clock + a.after)) ∧
    (a.request.isTfa = false → g.passwordAdmitted env a.request (g.clock + a.after) = true →
      g.localUser env a.request = none →
      ∀ user g', g.external env a.request (requestName env a.request) (g.clock + a.after)
        = some (user, g') →
      ¬ g.LockedOut env (env.names.key user.username) (g.clock + a.after))

/-! ## Which accounts are touched -/

section

variable {env} {g g' : Gate} {r : LoginRequest} {now : Nat} {P : String → Prop}

theorem lower_requestName (r : LoginRequest) :
    env.names.lower (requestName env r) = requestName env r := by
  unfold requestName
  rw [env.names.lower_trim, env.names.lower_lower]

theorem key_requestName (r : LoginRequest) :
    env.names.key (requestName env r) = requestName env r := by
  unfold Names.key
  rw [env.names.lower_trim, lower_requestName]
  unfold requestName
  rw [env.names.trim_trim]

theorem validateLoginUser_toOption (h : (validateLoginUser u).toOption = some user) : user = u := by
  cases hv : validateLoginUser u <;> rw [hv] at h <;> cases h
  exact validateLoginUser_ok hv

/-- The user of the name in the request. -/
theorem found_key (h : g.findUserByUsername env (requestName env r) = some u) :
    env.names.key u.username = requestName env r := by
  have hname := List.find?_some h
  rw [decide_eq_true_eq, lower_requestName] at hname
  rw [hname, key_requestName]

theorem tested_afterCredentials {result : Option User × Gate × List Touch} {touch : Touch}
    (h : touch ∈ result.2.2) : touch ∈ (afterCredentials env r now result).2 := by
  obtain ⟨user, g, tested⟩ := result
  cases user with
  | none => exact h
  | some user => exact mem_append_left _ h

/-- A provider's user is touched. -/
theorem passwordLogin_external (hadmitted : g.passwordAdmitted env r now = true)
    (hlocal : g.localUser env r = none)
    (hext : g.external env r (requestName env r) now = some (user, g')) :
    .password (env.names.key user.username) ∈ (g.passwordLogin env r now).2 := by
  unfold passwordLogin
  rw [if_neg (by simp [hadmitted])]
  unfold verifyCredentials
  unfold localUser at hlocal
  dsimp only
  rw [hlocal, hext]
  exact tested_afterCredentials (mem_append_right _ (mem_singleton_self _))

/-- So is the user of a challenge, whose second factor is on. -/
theorem tfaLogin_challenge (hc : g.challengeUser r now = some (c, user))
    (hon : user.totpEnabled = true) :
    .code (env.names.key user.username) ∈ (g.tfaLogin env r now).2 := by
  simp only [tfaLogin, hc, if_pos hon]
  split
  · exact mem_singleton_self _
  · exact mem_append_left _ (mem_singleton_self _)

/-! ## The tables behind it -/

/-- At the time `now`, who is locked out has a lock that lasts as long, and the user of a
challenge has a second factor. -/
structure Kept (env : LoginEnv) (now : Nat) (g : Gate) : Prop where
  covered : ∀ key t, (key, t) ∈ g.reached → t ≤ now ∧ (now < t + env.config.lockout →
    ∃ l, g.lockouts.get? key = some l ∧ t + env.config.lockout ≤ l.lockedUntil)
  challenged : ∀ id c, g.challenges.get? id = some c →
    ∃ u, g.vault.db.users.get? c.userId = some u ∧ u.totpEnabled = true

section

variable (h : Kept env now g)

include h

theorem Kept.later {later : Nat} (hle : now ≤ later) : Kept env later g where
  covered key t ht := by
    obtain ⟨htime, hlock⟩ := h.covered key t ht
    exact ⟨Nat.le_trans htime hle, fun hlate => hlock (Nat.lt_of_le_of_lt hle hlate)⟩
  challenged := h.challenged

theorem Kept.challengeUser_enabled (hc : g.challengeUser r now = some (c, user)) :
    user.totpEnabled = true := by
  revert hc
  fun_cases challengeUser with
  | case4 _ d hd =>
    obtain ⟨u, hu, hon⟩ := h.challenged _ d hd
    rw [hu, Option.bind_some]
    split
    · rintro ⟨⟩
      exact hon
    · exact nofun
  | _ => exact nofun

/-- Whoever `AccountLoginAllowed` lets in is not locked out. -/
theorem Kept.not_lockedOut (hadmitted : g.passwordAdmitted env r now = true) :
    ¬ g.LockedOut env (requestName env r) now := by
  rintro ⟨t, ht, hnow⟩
  obtain ⟨l, hl, hlast⟩ := (h.covered _ t ht).2 hnow
  simp only [passwordAdmitted, accountLoginAllowed, Bool.and_eq_true, Bool.or_eq_true,
    decide_eq_true_eq, key_requestName, hl] at hadmitted
  obtain ⟨⟨⟨⟨hempty | hpassed, hlong⟩, -⟩, -⟩, -⟩ := hadmitted
  · rw [hempty] at hlong
    exact absurd hlong (by decide)
  · omega

/-- Changes elsewhere. -/
theorem Kept.of_same (hr : g'.reached = g.reached)
    (hl : g'.lockouts = g.lockouts) (hc : g'.challenges.Sub g.challenges)
    (hu : ∀ id u, g.vault.db.users.get? id = some u → u.totpEnabled = true →
      ∃ u', g'.vault.db.users.get? id = some u' ∧ u'.totpEnabled = true) : Kept env now g' where
  covered := by rw [hr, hl]; exact h.covered
  challenged id c hid := by
    obtain ⟨u, hrow, hon⟩ := h.challenged id c (hc hid)
    exact hu _ u hrow hon

omit h in
theorem accountLoginFailure_vault (username : String) (g : Gate) :
    (g.accountLoginFailure env username now).vault = g.vault := by
  fun_cases Gate.accountLoginFailure <;> rfl

theorem Kept.accountLoginFailure (username : String) :
    Kept env now (g.accountLoginFailure env username now) := by
  fun_cases Gate.accountLoginFailure with
  | case1 => exact h
  | case2 => exact ⟨h.covered, h.challenged⟩
  | case3 =>
    refine ⟨fun key t ht => ?_, h.challenged⟩
    rw [get?_put]
    rcases mem_cons.mp ht with heq | hold
    · cases heq
      exact ⟨Nat.le_refl _, fun _ => ⟨_, if_pos rfl, Nat.le_refl _⟩⟩
    · obtain ⟨htime, hlock⟩ := h.covered key t hold
      refine ⟨htime, fun hlate => ?_⟩
      -- the new lock lasts longer than any lock before
      by_cases hk : env.names.key username = key
      · exact ⟨_, if_pos hk, Nat.add_le_add_right htime _⟩
      · obtain ⟨l, hl, hlast⟩ := hlock hlate
        exact ⟨l, by rw [if_neg hk]; exact hl, hlast⟩

theorem Kept.accountLoginSuccess (hopen : ¬ g.LockedOut env (env.names.key username) now) :
    Kept env now (g.accountLoginSuccess env username) where
  covered key t ht := by
    obtain ⟨htime, hlock⟩ := h.covered key t ht
    refine ⟨htime, fun hlate => ?_⟩
    obtain ⟨l, hl, hlast⟩ := hlock hlate
    have hne : key ≠ env.names.key username := by
      rintro rfl
      exact hopen ⟨t, ht, hlate⟩
    exact ⟨l, (get?_remove_of_ne _ hne).trans hl, hlast⟩
  challenged := h.challenged

omit h in
theorem updateLastLogin_enabled {db : Store} {id : String} (hu : db.users.get? id = some u)
    (hon : u.totpEnabled = true) (userId : String) (now : Nat) :
    ∃ u', (db.updateLastLogin userId now).users.get? id = some u' ∧ u'.totpEnabled = true := by
  unfold Store.updateLastLogin
  refine get?_updateWhere_keeps (P := fun u : User => u.totpEnabled = true) ?_
    (fun v hv => ?_) hu hon
  · exact fun _ => rfl
  · exact hv

/-- Only accounts of `P` are touched, and every lock stays in place if none of them is locked
out. -/
def Leaves (env : LoginEnv) (now : Nat) (g : Gate) (P : String → Prop)
    (result : Gate × List Touch) : Prop :=
  (∀ touch ∈ result.2, P touch.key) ∧
    ((∀ touch ∈ result.2, ¬ g.LockedOut env touch.key now) → Kept env now result.1)

omit h in
theorem Leaves.tested {result : Gate × List Touch} {tested : List Touch}
    (h : Leaves env now g P result) (ht : ∀ touch ∈ tested, P touch.key) :
    Leaves env now g P (result.1, tested ++ result.2) :=
  ⟨forall_mem_append.mpr ⟨ht, h.1⟩, fun hopen => h.2 (forall_mem_append.mp hopen).2⟩

theorem Kept.completeLogin (hP : P (env.names.key user.username)) :
    Leaves env now g P (g.completeLogin env r user deviceId now) := by
  fun_cases Gate.completeLogin with
  | case1 => exact ⟨nofun, fun _ => h⟩
  | case2 db hdb =>
    have hsession : Kept env now
        { g with vault := { g.vault with db := db.updateLastLogin user.id now } } :=
      h.of_same rfl rfl (Table.Sub.refl _) fun id u hu hon =>
        updateLastLogin_enabled (by rw [createSession_users hdb]; exact hu) hon user.id now
    exact ⟨by simpa [Touch.key] using hP, fun hopen =>
      hsession.accountLoginSuccess (hopen (.clear (env.names.key user.username)) (by simp))⟩

/-- `Verify` changes the recovery codes only. -/
theorem Kept.verified {vault : Vault} (hdb : vault.db = g.vault.db) :
    Kept env now { g with vault } :=
  h.of_same rfl rfl (Table.Sub.refl _) fun id u hu hon => ⟨u, by rw [hdb]; exact hu, hon⟩

theorem Kept.tfaLogin
    (hP : ∀ c user, g.challengeUser r now = some (c, user) → P (env.names.key user.username)) :
    Leaves env now g P (g.tfaLogin env r now) := by
  have hverified := fun user => h.verified (verify_db env.mfa g.mode user r.tfaCode now g.vault)
  fun_cases Gate.tfaLogin with
  | case1 => exact ⟨nofun, fun _ => h⟩
  | case2 c user hc tested =>
    rw [show tested = _ from if_pos (h.challengeUser_enabled hc)]
    exact ⟨forall_mem_singleton.mpr (hP c user hc), fun _ => (hverified user).accountLoginFailure _⟩
  | case3 c user hc tested verified =>
    have hremoved : Kept env now
        { g with vault := verified.2, challenges := g.challenges.remove c.id } :=
      (hverified user).of_same rfl rfl (remove_sub _ _) fun id u hu hon => ⟨u, hu, hon⟩
    rw [show tested = _ from if_pos (h.challengeUser_enabled hc)]
    exact (hremoved.completeLogin (hP c user hc)).tested (forall_mem_singleton.mpr (hP c user hc))

theorem Kept.createAuthChallenge (hu : g.vault.db.users.get? c.userId = some u)
    (hon : u.totpEnabled = true) : Kept env now (g.createAuthChallenge c) where
  covered := h.covered
  challenged id d hd := by
    change ((g.challenges.deleteWhere _).insert c).get? id = some d at hd
    set kept := g.challenges.deleteWhere fun e => e.expiresAt ≤ c.createdAt
    have hold : ∀ {d}, kept.get? id = some d →
        ∃ u, g.vault.db.users.get? d.userId = some u ∧ u.totpEnabled = true :=
      fun hd => h.challenged id _ (deleteWhere_sub _ _ hd)
    cases hc : kept.get? c.id with
    | some c' =>
      rw [insert_of_some hc] at hd
      exact hold hd
    | none =>
      rw [get?_insert hc] at hd
      split at hd
      · cases hd
        exact ⟨u, hu, hon⟩
      · exact hold hd

theorem Kept.secondFactor (hP : P (env.names.key user.username))
    (huser : user.totpEnabled = true → g.vault.db.users.get? user.id = some user) :
    Leaves env now g P (g.secondFactor env r user now) := by
  have hdb := verify_db env.mfa g.mode user r.code now g.vault
  have hverified := h.verified hdb
  fun_cases Gate.secondFactor with
  | case1 => exact ⟨nofun, fun _ => h⟩
  | case2 => exact h.completeLogin hP
  | case3 hoff verified g₁ _ g₂ =>
    have hon : user.totpEnabled = true := by simpa using hoff
    -- nothing of a failed attempt touches the row of the user
    have hfailed : Kept env now g₂ ∧ g₂.vault.db = g.vault.db := by
      unfold g₂
      split
      · exact ⟨hverified, hdb⟩
      · exact ⟨hverified.accountLoginFailure _, by rw [accountLoginFailure_vault]; exact hdb⟩
    refine ⟨forall_mem_singleton.mpr hP, fun _ => ?_⟩
    split
    · exact hfailed.1
    · exact hfailed.1.createAuthChallenge (by rw [hfailed.2]; exact huser hon) hon
  | case4 =>
    exact (hverified.completeLogin hP).tested
      (show ∀ touch ∈ [Touch.code _], _ from forall_mem_singleton.mpr hP)

/-- A provider leads to a user of the table, or to a new one without a second factor. -/
theorem Kept.external (hext : g.external env r username now = some (user, g')) :
    Kept env now g' ∧ g'.reached = g.reached ∧
      (user.totpEnabled = true → g'.vault.db.users.get? user.id = some user) := by
  revert hext
  fun_cases Gate.external with
  | case2 p profile hp identity =>
    intro hext
    obtain ⟨u, hu, heq⟩ := Option.map_eq_some_iff.mp hext
    cases heq
    exact ⟨h, rfl, fun _ => by rw [get?_key hu]; exact hu⟩
  | case5 p profile hp hi hfree new db hdb =>
    intro hext
    obtain ⟨rfl, rfl⟩ := Prod.mk.inj (Option.some.inj hext)
    obtain ⟨hnew, hrows⟩ := createUser_row hdb
    refine ⟨h.of_same rfl rfl (Table.Sub.refl _) fun id u hu hon => ⟨u, ?_, hon⟩, rfl, nofun⟩
    show db.users.get? id = some u
    rw [hrows, get?_insert hnew, if_neg]
    · exact hu
    · rintro rfl
      rw [hnew] at hu
      cases hu
  | _ => exact nofun

theorem Kept.afterCredentials {tested : List Touch} (hP : P (env.names.key u.username))
    (ht : ∀ touch ∈ tested, P touch.key)
    (hknown : u.totpEnabled = true → g.vault.db.users.get? u.id = some u) :
    Leaves env now g P
      (afterCredentials env r now ((validateLoginUser u).toOption, g, tested)) := by
  cases hv : (validateLoginUser u).toOption with
  | none => exact ⟨ht, fun _ => h.accountLoginFailure _⟩
  | some user =>
    obtain rfl := validateLoginUser_toOption hv
    exact (h.secondFactor hP hknown).tested ht

theorem Kept.passwordLogin
    (hname : g.passwordAdmitted env r now = true → P (requestName env r))
    (hP : g.passwordAdmitted env r now = true → g.localUser env r = none → ∀ user g',
      g.external env r (requestName env r) now = some (user, g') →
      P (env.names.key user.username)) : Leaves env now g P (g.passwordLogin env r now) := by
  fun_cases Gate.passwordLogin with
  | case1 => exact ⟨nofun, fun _ => h⟩
  | case2 hadmitted =>
    rw [Bool.not_eq_false] at hadmitted
    -- the first tests of a password are of the user of the name
    have htested : ∀ touch ∈ (g.findUserByUsername env (requestName env r)).toList.map fun u =>
        Touch.password (env.names.key u.username), P touch.key := by
      intro touch ht
      obtain ⟨u, hu, rfl⟩ := mem_map.mp ht
      rw [Touch.key, found_key (Option.mem_toList.mp hu)]
      exact hname hadmitted
    fun_cases verifyCredentials with
    | case1 found tested u hlocal =>
      have hfound := (Option.filter_eq_some_iff.mp hlocal).1
      refine h.afterCredentials ?_ htested fun _ => get?_of_mem (mem_of_find?_eq_some hfound)
      rw [found_key hfound]
      exact hname hadmitted
    | case2 => exact ⟨htested, fun _ => h.accountLoginFailure _⟩
    | case3 found tested hlocal u g' hext =>
      obtain ⟨hkept, hreached, hknown⟩ := h.external hext
      have hu := hP hadmitted hlocal u g' hext
      unfold Leaves LockedOut
      rw [← hreached]
      exact hkept.afterCredentials hu (forall_mem_append.mpr ⟨htested,
        show ∀ touch ∈ [Touch.password _], _ from forall_mem_singleton.mpr hu⟩) hknown

theorem Kept.login :
    (∀ touch ∈ (g.login env r now).2, ¬ g.LockedOut env touch.key now) →
      Kept env now (g.login env r now).1 := by
  fun_cases Gate.login env r now g with
  | case1 => exact fun _ => h
  | case2 => exact (h.tfaLogin (P := fun _ => True) fun _ _ _ => trivial).2
  | case3 =>
    exact (h.passwordLogin (P := fun _ => True) (fun _ => trivial) fun _ _ _ _ _ => trivial).2

end

/-- The step: a request that touches nobody who is locked out leaves every lock in place. -/
theorem Kept.perform (h : Kept env g.clock g) (hholds : g.Holds env a) :
    Kept env (g.perform env a).clock (g.perform env a) :=
  let hafter := (h.later (Nat.le_add_right _ a.after)).login hholds
  ⟨hafter.covered, hafter.challenged⟩

/-! ## The two ways around the lock -/

/-- While every lock is in place, only a challenge or a provider leads to a locked account. -/
theorem holds_iff_spares (h : Kept env g.clock g) : g.Holds env a ↔ g.Spares env a := by
  have hnow := h.later (Nat.le_add_right g.clock a.after)
  unfold Holds Spares login
  by_cases hlimited : a.request.limited = true
  · simp [hlimited]
  rw [if_neg hlimited]
  by_cases htfa : a.request.isTfa = true
  · rw [if_pos htfa]
    constructor
    · intro hopen _
      refine ⟨fun _ c user hc => ?_, fun hnot => absurd htfa (by simp [hnot])⟩
      exact hopen _ (tfaLogin_challenge hc (hnow.challengeUser_enabled hc))
    · intro hspares
      exact (hnow.tfaLogin (P := fun key => ¬ g.LockedOut env key _)
        ((hspares (by simpa using hlimited)).1 htfa)).1
  · rw [if_neg htfa]
    constructor
    · intro hopen _
      refine ⟨fun h => absurd h htfa, fun _ hadmitted hlocal user g' hext => ?_⟩
      exact hopen _ (passwordLogin_external hadmitted hlocal hext)
    · intro hspares
      exact (hnow.passwordLogin (P := fun key => ¬ g.LockedOut env key _) hnow.not_lockedOut
        ((hspares (by simpa using hlimited)).2 (by simpa using htfa))).1

end

/-- **When the lock holds**: whatever requests come, none of them tests a password or a code of a
locked account, opens a session of it or takes its lock away, exactly if no code for a challenge
and no provider leads to an account while it is locked. -/
theorem lockout_holds_iff (env : LoginEnv) {g : Gate} (hreached : g.reached = [])
    (hchallenges : g.challenges = .empty) (arrivals : List Arrival) :
    Throughout (perform env) (Holds env) g arrivals ↔
      Throughout (perform env) (Spares env) g arrivals := by
  refine throughout_congr (I := fun g : Gate => Kept env g.clock g)
    (fun g a h hholds => h.perform hholds) (fun g a h => holds_iff_spares h) ⟨?_, ?_⟩ arrivals
  · rw [hreached]
    exact fun key t ht => absurd ht not_mem_nil
  · rw [hchallenges]
    exact fun id c hid => absurd hid (by simp)

/-- Without providers, passwords do not get around the lock. -/
theorem spares_password (env : LoginEnv) (hproviders : env.providers = []) {g : Gate}
    (hpassword : a.request.isTfa = false) : g.Spares env a := by
  intro _
  refine ⟨fun htfa => absurd htfa (by simp [hpassword]), fun _ _ _ user g' hext => ?_⟩
  unfold external at hext
  rw [hproviders] at hext
  cases hext

/-! ### A lock that is kept, and two that are not -/

def sampleNames : Names := ⟨id, id, fun _ => rfl, fun _ => rfl, fun _ => rfl⟩

def sampleEnv (providers : List PasswordProvider) : LoginEnv :=
  ⟨sampleNames, .ofEnv 0 0 0, MfaDesk.sampleMfa, fun hash password => hash = password, providers,
    3600000⟩

def sampleGate (user : User) : Gate :=
  ⟨⟨{ Store.empty ⟨true, false⟩ with users := Table.empty.put user }, []⟩, .optional, .empty,
    [⟨"ldap", "subject-1", user.id⟩], [], .empty, 1000, []⟩

def passwordRequest (username password : String) : LoginRequest :=
  ⟨username, password, "", "", "", "", "", "", "", "10.0.0.1", "", false, "challenge-000001",
    "session-1", "user-2", ""⟩

def codeRequest (code : String) : LoginRequest :=
  { passwordRequest "" "" with type := "tfa_code", secret := "challenge-000001", tfaCode := code }

/-- The sessions and the locks after some requests. -/
def outcome (providers : List PasswordProvider) (user : User) (arrivals : List Arrival) :
    List String × List String :=
  let g := arrivals.foldl (perform (sampleEnv providers)) (sampleGate user)
  (g.vault.db.sessions.rows.map Session.userId, g.lockouts.rows.map AccountLockout.username)

/-- Five wrong passwords, and the right one after that. -/
def guesses (pause : Nat) : List Arrival :=
  List.replicate 5 ⟨passwordRequest sampleUser.username "guess", 10⟩ ++
    [⟨passwordRequest sampleUser.username sampleUser.passwordHash, pause⟩]

theorem right_password_waits :
    (sampleGate sampleUser).reached = [] ∧ (sampleGate sampleUser).challenges = .empty ∧
    outcome [] sampleUser (guesses 899999) = ([], [sampleUser.username]) ∧
    outcome [] sampleUser (guesses 900000) = ([sampleUser.id], []) ∧
    Throughout (perform (sampleEnv [])) (Holds (sampleEnv [])) (sampleGate sampleUser)
      (guesses 900000) := by
  refine ⟨rfl, rfl, by decide, by decide, ?_⟩
  refine (lockout_holds_iff (sampleEnv []) rfl rfl (guesses 900000)).mpr ?_
  intro before a hprefix
  have ha : a ∈ guesses 900000 := hprefix.subset (by simp)
  refine spares_password _ rfl ?_
  rcases mem_append.mp ha with ha | ha
  · rw [eq_of_mem_replicate ha]
    decide
  · rw [mem_singleton.mp ha]
    decide

def codeUser : User := { sampleUser with totpSecret := "secret", totpEnabled := true }

/-- The password, five wrong codes for the challenge that it gave, and the right one. -/
def codes : List Arrival :=
  [⟨passwordRequest codeUser.username codeUser.passwordHash, 10⟩] ++
    List.replicate 5 ⟨codeRequest "000000", 10⟩ ++ [⟨codeRequest "secret", 10⟩]

/-- A directory that knows the user by another name. -/
def directory : PasswordProvider :=
  ⟨"ldap", false, fun username password =>
    if username = "countess" ∧ password = "directory" then some ⟨"subject-1", "countess", "", ""⟩
    else none⟩

def directoryLogin : List Arrival :=
  (guesses 10).take 5 ++ [⟨passwordRequest "countess" "directory", 10⟩]

/-- The locked account is entered by a code and by the other name, and its lock is gone. -/
theorem locked_account_entered :
    outcome [] codeUser (codes.take 6) = ([], ["ada"]) ∧
    outcome [] codeUser codes = (["user-1"], []) ∧
    outcome [directory] sampleUser (directoryLogin.take 5) = ([], ["ada"]) ∧
    outcome [directory] sampleUser directoryLogin = (["user-1"], []) ∧
    ¬ Throughout (perform (sampleEnv [])) (Holds (sampleEnv [])) (sampleGate codeUser) codes := by
  refine ⟨by decide, by decide, by decide, by decide, fun h => ?_⟩
  have hholds := h (codes.take 6) ⟨codeRequest "secret", 10⟩ (prefix_refl _)
  exact hholds (.clear "ada") (by decide) ⟨1060, by decide, by decide⟩

end Gate

end RemoteControl.Sync
