import RemoteControl.Sync.Mirror

/-!
# Who is authorised

`authorize` and `authorize_claims` of `auth/cache.rs`: what HBBS answers to a token,
from the cache alone. The signature check of `JwtVerifier` is a parameter; it hands over
the claims. Times of the cache are in milliseconds, those of the claims and the clock
of HBBS in seconds, so an expiry is rounded down.
-/

namespace RemoteControl.Sync

open Lib

inductive AuthError
  | loginRequired
  | invalidToken
  | sessionExpired
  | sessionRevoked
  | userDisabled
  | approvalPending
  | approvalRejected
  | forceRelogin
deriving DecidableEq, Repr

/-- The claims that authorisation reads. -/
structure Claims where
  sub : String
  sid : String
  exp : Nat
  tokenVersion : Int64
  deviceId : String
deriving DecidableEq, Repr

structure AuthDecision where
  userId : String
  sessionId : String
  username : String
  role : String
  controllerDeviceId : String
deriving DecidableEq, Repr

def CacheState.authorizeClaims (k : Clock) (now : Nat) (claims : Claims) (st : CacheState) :
    Except AuthError AuthDecision :=
  match st.users.get? claims.sub with
  | none => .error .sessionRevoked
  | some user =>
    if !user.enabled then .error .userDisabled
    else if user.approvalStatus = "pending" then .error .approvalPending
    else if user.approvalStatus ≠ "approved" then .error .approvalRejected
    else
      match st.sessions.get? claims.sid with
      | none => .error .sessionRevoked
      | some session =>
        if session.userId ≠ user.id then .error .sessionRevoked
        else if session.revokedAt.isSome then .error .sessionRevoked
        else if user.tokenVersion ≠ claims.tokenVersion then .error .forceRelogin
        else
          match k.parse session.expiresAt with
          | none => .error .sessionExpired
          | some expiry =>
            if claims.exp ≤ now || expiry / 1000 ≤ now then .error .sessionExpired
            else .ok {
              userId := user.id
              sessionId := session.id
              username := user.username
              role := user.role
              controllerDeviceId :=
                if claims.deviceId = "" then session.clientDeviceId else claims.deviceId }

/-- The verifier, and the trimming of a token. -/
structure Verifier where
  blank : String → Bool
  verify : String → Except AuthError Claims

/-- `authorize`: without a token the cached setting decides, or `requireLogin`, with which HBBS
was started. -/
def CacheState.authorize (k : Clock) (v : Verifier) (requireLogin : Bool) (now : Nat)
    (token : Option String) (st : CacheState) : Except AuthError (Option AuthDecision) :=
  match token.filter (!v.blank ·) with
  | none => if st.requireLogin.getD requireLogin then .error .loginRequired else .ok none
  | some token =>
    match v.verify token with
    | .error err => .error err
    | .ok claims => (st.authorizeClaims k now claims).map some

section

variable {k : Clock} {now : Nat} {claims : Claims} {st : CacheState} {d : AuthDecision}

/-- What the cache must hold for a decision in favour. -/
theorem authorizeClaims_ok (h : st.authorizeClaims k now claims = .ok d) :
    ∃ user session expiry, st.users.get? claims.sub = some user ∧ user.enabled = true ∧
      user.approvalStatus = "approved" ∧ user.tokenVersion = claims.tokenVersion ∧
      st.sessions.get? claims.sid = some session ∧ session.userId = user.id ∧
      session.revokedAt = none ∧ k.parse session.expiresAt = some expiry ∧
      now < expiry / 1000 ∧ d.userId = user.id ∧ d.sessionId = session.id := by
  revert h
  fun_cases CacheState.authorizeClaims with
  | case11 user huser henabled _ happroved session hsession howner hrevoked hversion expiry
      hexpiry hlive =>
    intro h
    cases h
    simp only [Bool.or_eq_true, decide_eq_true_eq, not_or, Nat.not_le] at hlive
    exact ⟨user, session, expiry, huser, by simpa using henabled, not_not.mp happroved,
      not_not.mp hversion, hsession, not_not.mp howner,
      Option.not_isSome_iff_eq_none.mp hrevoked, hexpiry, hlive.2, rfl, rfl⟩
  | _ => exact nofun

theorem authorize_ok {v : Verifier} {requireLogin : Bool} {token : Option String}
    (h : st.authorize k v requireLogin now token = .ok (some d)) :
    ∃ t claims, token = some t ∧ v.verify t = .ok claims ∧
      st.authorizeClaims k now claims = .ok d := by
  revert h
  fun_cases CacheState.authorize with
  | case4 t ht claims hv =>
    intro h
    cases ha : st.authorizeClaims k now claims with
    | error err => rw [ha] at h; cases h
    | ok d' =>
      rw [ha] at h
      obtain rfl := Option.some.inj (Except.ok.inj h)
      exact ⟨t, claims, (Option.filter_eq_some_iff.mp ht).1, hv, ha⟩
  | _ => exact nofun

end

end RemoteControl.Sync
