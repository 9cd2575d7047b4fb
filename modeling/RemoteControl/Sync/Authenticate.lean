import RemoteControl.Sync.Authorize
import RemoteControl.Sync.MirrorAdmin
import RemoteControl.Sync.Token

/-!
# Two authentications

`Authenticate` of `auth/service.go` decides about a token from the database, `authorize`
of HBBS from its cache. Where the cache mirrors the database, HBBS is the stricter one:
it wants the user approved, where the API only turns rejected users away, and it rounds
its clock and every expiry down to seconds:

> when the second of an expiry is still to come, so is the expiry.
-/

namespace RemoteControl.Sync

open Lib Decoder

variable {issuedAt ttl : Nat} {session : Session} {secret : String} {user : User}

inductive AuthenticateError
  | token (e : TokenError)
  | sessionRevoked
  | userDisabled
  | approvalRejected
  | sessionExpired
  | staleToken
deriving DecidableEq, Repr

/-- `Authenticate`. The permissions it adds to the user and the time of use it stores for the
session decide nothing here. -/
def Store.authenticate (j : Jws) (m : TokenManager) (now : Nat) (raw : String) (s : Store) :
    Except AuthenticateError (User × Session × GoClaims) :=
  match m.parse j now raw with
  | .error e => .error (.token e)
  | .ok claims =>
    match s.users.get? claims.subject with
    | none => .error .sessionRevoked
    | some user =>
      if !user.enabled then .error .userDisabled
      else if user.approvalStatus = "rejected" then .error .approvalRejected
      else
        match s.sessions.get? claims.sessionId with
        | none => .error .sessionRevoked
        | some session =>
          if session.revokedAt.isSome then .error .sessionRevoked
          else if session.expiresAt ≤ now then .error .sessionExpired
          else if user.tokenVersion ≠ claims.tokenVersion ∨ session.userId ≠ user.id then
            .error .staleToken
          else .ok (user, session, claims)

section

variable {j : Jws} {m : TokenManager} {now : Nat} {raw : String} {s : Store} {claims : GoClaims}

theorem authenticate_of (hparse : m.parse j now raw = .ok claims)
    (huser : s.users.get? claims.subject = some user) (henabled : user.enabled = true)
    (happroval : user.approvalStatus ≠ "rejected")
    (hsession : s.sessions.get? claims.sessionId = some session)
    (hrevoked : session.revokedAt = none) (hexpires : now < session.expiresAt)
    (hversion : user.tokenVersion = claims.tokenVersion) (howner : session.userId = user.id) :
    s.authenticate j m now raw = .ok (user, session, claims) := by
  have hlive : ¬ session.expiresAt ≤ now := Nat.not_le.mpr hexpires
  simp [Store.authenticate, hparse, huser, henabled, happroval, hsession, hrevoked, hlive, hversion,
    howner]

theorem claims_expiresAt (m : TokenManager) (user : User) (session : Session) (now : Nat) :
    (m.claims user session now).expiresAt = some (min (now + m.ttl) session.expiresAt / 1000) := by
  have hmin : (if session.expiresAt < now + m.ttl then session.expiresAt else now + m.ttl)
      = min (now + m.ttl) session.expiresAt := by
    rw [min_def]
    split <;> split <;> omega
  exact congrArg (fun t => some (t / 1000)) hmin

/-- If HBBS can read the claims of a token, it reads those that were written. -/
theorem decode_issued {d : JwtClaims}
    (h : JwtClaims.decode ((apiTokens secret ttl).claims user session issuedAt).toJson = .ok d) :
    d = ((apiTokens secret ttl).claims user session issuedAt).inHbbs (issuedAt / 1000)
      (min (issuedAt + ttl) session.expiresAt / 1000) := by
  obtain ⟨iat, exp, hiat, hexp, rfl⟩ := decode_jwtClaims_ok h
  rw [claims_expiresAt] at hexp
  rw [← Option.some.inj hiat, ← Option.some.inj hexp]
  rfl

/-- What HBBS makes of a token of the issuer, if it accepts it. -/
theorem verify_issued {seconds : Nat} {c : JwtClaims}
    (hj : j.Reads secret hs256Header ((apiTokens secret ttl).claims user session issuedAt).toJson)
    (h : (hbbsVerifier secret).verify j seconds
      ((apiTokens secret ttl).issue j user session issuedAt).1 = .ok c) :
    c = ((apiTokens secret ttl).claims user session issuedAt).inHbbs (issuedAt / 1000)
        (min (issuedAt + ttl) session.expiresAt / 1000) ∧
      user.id ≠ "" ∧ session.id ≠ "" ∧ seconds < min (issuedAt + ttl) session.expiresAt / 1000 := by
  obtain ⟨header, payload, hopen, hdecode, hsub, hsid, hlive⟩ := verify_ok h
  have hsigned : j.verified (hbbsVerifier secret).secret
      ((apiTokens secret ttl).issue j user session issuedAt).1
      = some (hs256Header, ((apiTokens secret ttl).claims user session issuedAt).toJson) := hj
  rw [hsigned] at hopen
  obtain ⟨rfl, rfl⟩ := Prod.mk.inj (Option.some.inj hopen)
  obtain rfl := decode_issued hdecode
  exact ⟨rfl, hsub, hsid, hlive⟩

/-- A token of the issuer is read by the API as long as it has not expired. -/
theorem parse_issued (ttl' : Nat)
    (hj : j.Reads secret hs256Header ((apiTokens secret ttl).claims user session issuedAt).toJson)
    (hlater : issuedAt ≤ now) (hsub : user.id ≠ "") (hsid : session.id ≠ "")
    (hlive : now < min (issuedAt + ttl) session.expiresAt / 1000 * 1000) :
    (apiTokens secret ttl').parse j now ((apiTokens secret ttl).issue j user session issuedAt).1
      = .ok ((apiTokens secret ttl).claims user session issuedAt) := by
  have hopen : j.verified (apiTokens secret ttl').secret
      ((apiTokens secret ttl).issue j user session issuedAt).1
      = some (hs256Header, ((apiTokens secret ttl).claims user session issuedAt).toJson) := hj
  have halg : (field "alg" string hs256Header).toOption = some "HS256" := rfl
  have hissued : issuedAt / 1000 * 1000 ≤ now := by omega
  have hexp : ((apiTokens secret ttl).claims user session issuedAt).expiresAt
      = some (min (issuedAt + ttl) session.expiresAt / 1000) := claims_expiresAt _ _ _ _
  have hnot : ¬ min (issuedAt + ttl) session.expiresAt / 1000 * 1000 ≤ now := Nat.not_le.mpr hlive
  have haccepts : (apiTokens secret ttl').accepts now
      ((apiTokens secret ttl).claims user session issuedAt) = true := by
    simp [TokenManager.accepts, TokenManager.claims, apiTokens, hissued]
  unfold TokenManager.parse
  rw [hopen]
  simp only [halg, ne_eq, not_true_eq_false, if_false, decode_goClaims, haccepts, Bool.not_true,
    hexp, Option.any_some, decide_eq_true_eq, hnot, Bool.false_eq_true]
  rw [if_neg]
  simp [TokenManager.claims, hsub, hsid]

end

/-! ## From the cache to the database -/

section

variable {k : Clock} {now : Nat} {s : Store} {st : CacheState}

theorem Mirror.enabled_user (h : Mirror k now s st) {id : String} {u : UserState}
    (hu : st.users.get? id = some u) (he : u.enabled = true) :
    ∃ user, s.users.get? id = some user ∧ user.view.facts = u.facts := by
  have hrow := h.users id
  cases hs : s.users.get? id with
  | none =>
    rw [hs] at hrow
    have hfacts := hrow u hu
    have henabled : u.enabled = false := congrArg (fun f => f.2.1) hfacts
    rw [he] at henabled
    cases henabled
  | some user =>
    rw [hs, SameUser, hu] at hrow
    exact ⟨user, rfl, (Option.some.inj hrow).symm⟩

theorem Mirror.live_session (h : Mirror k now s st) {id : String} {v : SessionState}
    (hv : st.sessions.get? id = some v) (hl : v.live k now = true) :
    ∃ session, s.sessions.get? id = some session ∧ session.live now = true ∧
      session.view k.rfc3339 = v := by
  have hrow := h.sessions id
  rw [SameSession, hv, Option.filter_some_pos hl] at hrow
  obtain ⟨session, hs, hview⟩ := Option.map_eq_some_iff.mp hrow.symm
  obtain ⟨hget, hlive⟩ := Option.filter_eq_some_iff.mp hs
  exact ⟨session, hget, hlive, hview⟩

/-- **HBBS lets in nobody whom the API turns away.** A token that the API issued for a user and
a session, at any later instant: HBBS, if it can read the claims, reads those that were
written; and if it authorises the token from a cache that mirrors the database, the API
authenticates the token for the same user and session. -/
theorem authorized_is_authenticated (j : Jws) (secret : String) (ttl ttl' : Nat)
    (blank : String → Bool) (requireLogin : Bool) (user : User) (session : Session)
    (issuedAt : Nat)
    (hj : j.Reads secret hs256Header ((apiTokens secret ttl).claims user session issuedAt).toJson)
    (hlater : issuedAt ≤ now) (h : Mirror k now s st) :
    let claims := ((apiTokens secret ttl).issue j user session issuedAt).2
    let token := ((apiTokens secret ttl).issue j user session issuedAt).1
    let exp := min (issuedAt + ttl) session.expiresAt / 1000
    -- the claims
    ((∀ d, JwtClaims.decode claims.toJson = .ok d → d = claims.inHbbs (issuedAt / 1000) exp) ∧
      (user.id ≠ "" → issuedAt / 1000 < 2 ^ 64 → exp < 2 ^ 64 →
        JwtClaims.decode claims.toJson = .ok (claims.inHbbs (issuedAt / 1000) exp))) ∧
    -- the decision
    ∀ d, st.authorize k ((hbbsVerifier secret).at j blank (now / 1000)) requireLogin (now / 1000)
        (some token) = .ok (some d) →
      ∃ u v, s.authenticate j (apiTokens secret ttl') now token = .ok (u, v, claims) ∧
        u.id = user.id ∧ v.id = session.id ∧ d.userId = user.id ∧ d.sessionId = session.id := by
  intro claims token exp
  refine ⟨⟨fun d hd => decode_issued hd, fun hid hi he => ?_⟩, fun d hd => ?_⟩
  · have hissuer : claims.issuer ≠ "" := by
      show "art-rustdesk" ≠ ""
      decide
    exact decode_jwtClaims hid hissuer (List.cons_ne_nil _ _) rfl (claims_expiresAt _ _ _ _) hi he
  · obtain ⟨t, c, ht, hverify, hauthorize⟩ := authorize_ok hd
    cases ht
    -- what HBBS saw in the token is what the API put there
    have hc : ∃ c', (hbbsVerifier secret).verify j (now / 1000) token = .ok c' ∧ c'.claims = c := by
      cases hv : (hbbsVerifier secret).verify j (now / 1000) token with
      | error e => simp [JwtVerifier.at, hv, Except.map] at hverify
      | ok c' =>
        simp only [JwtVerifier.at, hv, Except.map, Except.ok.injEq] at hverify
        exact ⟨c', rfl, hverify⟩
    obtain ⟨c', hv, rfl⟩ := hc
    obtain ⟨rfl, hsub, hsid, hlive⟩ := verify_issued hj hv
    obtain ⟨cu, cv, expiry, hcu, henabled, happroved, hversion, hcv, howner, hrevoked, hparse,
      hexpiry, hdu, hdv⟩ := authorizeClaims_ok hauthorize
    -- the rows behind what HBBS has cached
    have hnow : now < expiry := by omega
    have hcvlive : cv.live k now = true := by
      simp [SessionState.live, hrevoked, hparse, hnow]
    obtain ⟨u, hu, hfacts⟩ := h.enabled_user hcu henabled
    obtain ⟨v, hv, hvlive, rfl⟩ := h.live_session hcv hcvlive
    have huid : u.id = user.id := Table.get?_key hu
    have hvid : v.id = session.id := Table.get?_key hv
    have hcuid : cu.id = user.id := Table.get?_key hcu
    obtain ⟨hvrevoked, hvexpires⟩ := Bool.and_eq_true_iff.mp hvlive
    have huenabled : u.enabled = cu.enabled := congrArg (fun f => f.2.1) hfacts
    have huapproval : u.approvalStatus = cu.approvalStatus := congrArg (fun f => f.2.2.1) hfacts
    have huversion : u.tokenVersion = cu.tokenVersion := congrArg (fun f => f.2.2.2) hfacts
    refine ⟨u, v, ?_, huid, hvid, ?_, ?_⟩
    · refine authenticate_of (parse_issued ttl' hj hlater hsub hsid ?_) hu
        (huenabled.trans henabled) ?_ hv (Option.isNone_iff_eq_none.mp hvrevoked)
        (of_decide_eq_true hvexpires) ?_ ?_
      · -- the clock is still in an earlier second
        omega
      · rw [huapproval, happroved]
        decide
      · exact huversion.trans hversion
      · have hview : v.userId = cu.id := howner
        rw [hview, hcuid, huid]
    · rw [hdu, hcuid]
    · rw [hdv]
      exact hvid

end

/-- Times are written in unary, seconds and milliseconds apart. -/
def secondsClock : Clock where
  rfc3339 t := String.ofList (List.replicate (t / 1000) 's' ++ List.replicate (t % 1000) 'm')
  parse v := some (v.toList.count 's' * 1000 + v.toList.count 'm')
  parse_rfc3339 t := by
    simp [List.count_replicate]
    omega

/-- A session that lasts for two seconds. -/
def sampleLogin : Session where
  id := "login-1"
  userId := "user-1"
  createdAt := 1
  expiresAt := 2000
  revokedAt := none
  lastSeenAt := 1
  ip := ""
  userAgent := ""
  clientDeviceId := ""

/-- The sample installation with a session, and its cache. -/
def loggedInDatabase : Store := { sampleDatabase with sessions := Table.empty.put sampleLogin }

def loggedInCache : CacheState :=
  { sampleMirror with sessions := Table.empty.put (sampleLogin.view secondsClock.rfc3339) }

theorem loggedInCache_mirrors : Mirror secondsClock 500 loggedInDatabase loggedInCache where
  users := sampleMirror_mirrors.users
  sessions := by
    have hnone : Table.Agree (SameSession secondsClock 500) (.empty : Table Session.id)
        (.empty : Table SessionState.id) := fun _ => rfl
    exact (hnone.put_put rfl).mpr rfl
  members := sampleMirror_mirrors.members
  rules := sampleMirror_mirrors.rules
  strategies := sampleMirror_mirrors.strategies
  devices := sampleMirror_mirrors.devices

/-- The token that was issued to the sample user, and no other, is signed. -/
def sampleJws : Jws where
  sign _ _ _ := "token"
  verified _ _ :=
    some (hs256Header, ((apiTokens "secret" 1500).claims sampleUser sampleLogin 1).toJson)

/-- Half a second after the login HBBS authorises the token, and the API accepts it. -/
theorem sampleToken_authenticated :
    (loggedInCache.authorize secondsClock ((hbbsVerifier "secret").at sampleJws (fun _ => false) 0)
      true 0 (some "token")).toOption = some (some ⟨"user-1", "login-1", "ada", "user", ""⟩) ∧
    ∃ u v, loggedInDatabase.authenticate sampleJws (apiTokens "secret" 9000) 500 "token"
      = .ok (u, v, (apiTokens "secret" 1500).claims sampleUser sampleLogin 1) ∧
      u.id = "user-1" ∧ v.id = "login-1" := by
  have hok : loggedInCache.authorize secondsClock
      ((hbbsVerifier "secret").at sampleJws (fun _ => false) (500 / 1000)) true (500 / 1000)
      (some "token") = .ok (some ⟨"user-1", "login-1", "ada", "user", ""⟩) := rfl
  obtain ⟨-, hdecision⟩ := authorized_is_authenticated sampleJws "secret" 1500 9000
    (fun _ => false) true sampleUser sampleLogin 1 rfl (by decide)
    loggedInCache_mirrors
  obtain ⟨u, v, hauth, hu, hv, -⟩ := hdecision _ hok
  exact ⟨rfl, u, v, hauth, hu, hv⟩

end RemoteControl.Sync
