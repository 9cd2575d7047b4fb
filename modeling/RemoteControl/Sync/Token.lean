import RemoteControl.Sync.Authorize

/-!
# Access tokens

`auth/jwt.go` issues a token and reads it back, `auth/claims.rs` reads it in HBBS. The
layer below (three parts in base64, a signature, JSON) is the parameter `Jws`: whatever
was signed with a secret is what everybody with that secret sees, where `Jws.Reads` is
assumed. What remains are two readings of one JSON object, and two clocks:

> the API compares instants, HBBS whole seconds; a date in a token is a whole second.

Both programs are built with the same issuer and audience, and read the same secret.
-/

namespace RemoteControl.Sync

open Lib Decoder

variable {j v : Json} {t : Option Nat} {name s : String} {α : Type} {d : Decoder α}

/-- Signed tokens: header and claims are JSON objects. -/
structure Jws where
  /-- `SignedString`, by a secret. -/
  sign : String → Json → Json → String
  /-- What is in a token, if its form and its signature are right. -/
  verified : String → String → Option (Json × Json)

/-- What was signed is what is read. -/
def Jws.Reads (j : Jws) (secret : String) (header claims : Json) : Prop :=
  j.verified secret (j.sign secret header claims) = some (header, claims)

/-! ## The issuer -/

/-- `Claims` of `jwt.go`, with the registered claims it uses. A date is a number of seconds. -/
structure GoClaims where
  sessionId : String
  username : String
  displayName : String
  role : String
  tokenVersion : Int64
  deviceId : String
  issuer : String
  subject : String
  audience : List String
  expiresAt : Option Nat
  issuedAt : Option Nat
deriving DecidableEq, Repr

variable {c : GoClaims}

def dateField (name : String) : Option Nat → List (String × Json)
  | none => []
  | some t => [(name, .int t)]

def GoClaims.toJson (c : GoClaims) : Json := .obj <|
  [("sid", .str c.sessionId), ("username", .str c.username)]
  ++ omitEmpty "display_name" (c.displayName = "") (.str c.displayName)
  ++ [("role", .str c.role), ("token_version", .int c.tokenVersion.toInt)]
  ++ omitEmpty "device_id" (c.deviceId = "") (.str c.deviceId)
  ++ omitEmpty "iss" (c.issuer = "") (.str c.issuer)
  ++ omitEmpty "sub" (c.subject = "") (.str c.subject)
  ++ omitEmpty "aud" c.audience.isEmpty (.strings c.audience)
  ++ dateField "exp" c.expiresAt ++ dateField "iat" c.issuedAt

structure TokenManager where
  secret : String
  issuer : String
  audience : String
  ttl : Nat

/-- The manager of `main.go`. -/
def apiTokens (secret : String) (ttl : Nat) : TokenManager := ⟨secret, "art-rustdesk", "art-hbbs", ttl⟩

def TokenManager.claims (m : TokenManager) (user : User) (session : Session) (now : Nat) :
    GoClaims where
  sessionId := session.id
  username := user.username
  displayName := user.displayName
  role := user.role
  tokenVersion := user.tokenVersion
  deviceId := session.clientDeviceId
  issuer := m.issuer
  subject := user.id
  audience := [m.audience]
  expiresAt :=
    let expiresAt := now + m.ttl
    some ((if session.expiresAt < expiresAt then session.expiresAt else expiresAt) / 1000)
  issuedAt := some (now / 1000)

def hs256Header : Json := .obj [("alg", .str "HS256"), ("typ", .str "JWT")]

def TokenManager.issue (j : Jws) (m : TokenManager) (user : User) (session : Session)
    (now : Nat) : String × GoClaims :=
  let claims := m.claims user session now
  (j.sign m.secret hs256Header claims.toJson, claims)

/-! ## The API's reading -/

/-- A date that the issuer wrote. -/
def numericDate : Decoder Nat
  | .num n 0 => if 0 ≤ n then .ok n.toNat else .error .outOfRange
  | _ => .error .invalidType

/-- A field that is missing has the zero value. -/
def GoClaims.decode : Decoder GoClaims := fun j => do
  let sessionId ← fieldOr "sid" string "" j
  let username ← fieldOr "username" string "" j
  let displayName ← fieldOr "display_name" string "" j
  let role ← fieldOr "role" string "" j
  let tokenVersion ← fieldOr "token_version" i64 0 j
  let deviceId ← fieldOr "device_id" string "" j
  let issuer ← fieldOr "iss" string "" j
  let subject ← fieldOr "sub" string "" j
  let audience ← fieldOr "aud" (seq string) [] j
  let expiresAt ← fieldOr "exp" (fun v => (numericDate v).map some) none j
  let issuedAt ← fieldOr "iat" (fun v => (numericDate v).map some) none j
  return { sessionId, username, displayName, role, tokenVersion, deviceId, issuer, subject,
           audience, expiresAt, issuedAt }

inductive TokenError
  | invalid | expired
deriving DecidableEq, Repr

/-- What the options of `Parse` ask for, the expiry apart. -/
def TokenManager.accepts (m : TokenManager) (now : Nat) (c : GoClaims) : Bool :=
  c.expiresAt.isSome && c.issuedAt.all (fun t => t * 1000 ≤ now)
    && (m.audience ∈ c.audience && c.audience.any (· ≠ "")) && (m.issuer = "" || c.issuer = m.issuer)

def TokenManager.parse (j : Jws) (m : TokenManager) (now : Nat) (raw : String) :
    Except TokenError GoClaims :=
  match j.verified m.secret raw with
  | none => .error .invalid
  | some (header, payload) =>
    if (field "alg" string header).toOption ≠ some "HS256" then .error .invalid
    else
      match GoClaims.decode payload with
      | .error _ => .error .invalid
      | .ok claims =>
        if claims.expiresAt.any (fun t => t * 1000 ≤ now) then .error .expired
        else if !m.accepts now claims then .error .invalid
        else if claims.subject = "" || claims.sessionId = "" || claims.issuedAt.isNone then
          .error .invalid
        else .ok claims

theorem get?_omitEmpty (name n : String) (empty : Bool) (v : Json) :
    (Json.obj (omitEmpty name empty v)).get? n
      = if name = n ∧ empty = false then some v else none := by
  cases empty <;> simp [omitEmpty]

theorem get?_dateField (name n : String) (t : Option Nat) :
    (Json.obj (dateField name t)).get? n
      = if name = n then t.map fun t : Nat => Json.int t else none := by
  cases t <;> simp [dateField]

/-- What is under a name in the claims that were written. -/
theorem GoClaims.get?_toJson (c : GoClaims) :
    c.toJson.get? "sid" = some (.str c.sessionId) ∧
    c.toJson.get? "username" = some (.str c.username) ∧
    c.toJson.get? "display_name"
      = (if c.displayName = "" then none else some (.str c.displayName)) ∧
    c.toJson.get? "role" = some (.str c.role) ∧
    c.toJson.get? "token_version" = some (.int c.tokenVersion.toInt) ∧
    c.toJson.get? "device_id" = (if c.deviceId = "" then none else some (.str c.deviceId)) ∧
    c.toJson.get? "iss" = (if c.issuer = "" then none else some (.str c.issuer)) ∧
    c.toJson.get? "sub" = (if c.subject = "" then none else some (.str c.subject)) ∧
    c.toJson.get? "aud" = (if c.audience = [] then none else some (.strings c.audience)) ∧
    c.toJson.get? "exp" = c.expiresAt.map (fun t : Nat => Json.int t) ∧
    c.toJson.get? "iat" = c.issuedAt.map (fun t : Nat => Json.int t) := by
  simp [GoClaims.toJson, Json.get?_append, get?_omitEmpty, get?_dateField]

theorem fieldOr_of_omitted (h : j.get? name = if s = "" then none else some (.str s)) :
    fieldOr name string "" j = .ok s := by
  unfold fieldOr
  rw [h]
  by_cases hs : s = ""
  · rw [if_pos hs, hs]
  · rw [if_neg hs]
    rfl

theorem fieldOr_of_some {default : α} (h : j.get? name = some v) :
    fieldOr name d default j = d v := by
  unfold fieldOr
  rw [h]

theorem fieldOr_date (h : j.get? name = t.map fun t : Nat => Json.int t) :
    fieldOr name (fun v => (numericDate v).map some) none j = .ok t := by
  unfold fieldOr
  rw [h]
  cases t <;> rfl

/-- The API reads what it wrote. -/
theorem decode_goClaims (c : GoClaims) : GoClaims.decode c.toJson = .ok c := by
  obtain ⟨hsid, husername, hdisplay, hrole, hversion, hdevice, hiss, hsub, haud, hexp, hiat⟩ :=
    c.get?_toJson
  have haudience : fieldOr "aud" (seq string) [] c.toJson = .ok c.audience := by
    by_cases ha : c.audience = []
    · unfold fieldOr
      rw [haud, if_pos ha, ha]
    · rw [fieldOr_of_some (haud.trans (if_neg ha)), seq_strings]
  unfold GoClaims.decode
  rw [fieldOr_of_some hsid, fieldOr_of_some husername, fieldOr_of_omitted hdisplay,
    fieldOr_of_some hrole, fieldOr_of_some hversion, fieldOr_of_omitted hdevice,
    fieldOr_of_omitted hiss, fieldOr_of_omitted hsub, haudience, fieldOr_date hexp,
    fieldOr_date hiat]
  simp [pure, Except.pure]

/-! ## The reading of HBBS -/

inductive Audience
  | one (value : String)
  | many (values : List String)
deriving DecidableEq, Repr

def Audience.contains (expected : String) : Audience → Bool
  | .one value => value = expected
  | .many values => values.any (· = expected)

def audience : Decoder Audience
  | .str s => .ok (.one s)
  | v => (seq string v).map .many

/-- `Claims` of `claims.rs`. -/
structure JwtClaims where
  sub : String
  sid : String
  iat : Nat
  exp : Nat
  iss : String
  aud : Audience
  username : String
  role : String
  tokenVersion : Int64
  deviceId : String
deriving DecidableEq, Repr

def JwtClaims.decode : Decoder JwtClaims := fun j => do
  let sub ← field "sub" string j
  let sid ← field "sid" string j
  let iat ← field "iat" u64 j
  let exp ← field "exp" u64 j
  let iss ← field "iss" string j
  let aud ← field "aud" audience j
  let username ← fieldOr "username" string "" j
  let role ← fieldOr "role" string "" j
  let tokenVersion ← fieldOr "token_version" i64 0 j
  let deviceId ← fieldOr "device_id" string "" j
  return { sub, sid, iat, exp, iss, aud, username, role, tokenVersion, deviceId }

/-- What authorisation reads of them. -/
def JwtClaims.claims (c : JwtClaims) : Claims := ⟨c.sub, c.sid, c.exp, c.tokenVersion, c.deviceId⟩

structure JwtVerifier where
  secret : String
  issuer : String
  audience : String

/-- The verifier of `art-hbbs/src/main.rs`. -/
def hbbsVerifier (secret : String) : JwtVerifier := ⟨secret, "art-rustdesk", "art-hbbs"⟩

/-- `verify`; `now` is in seconds. -/
def JwtVerifier.verify (j : Jws) (v : JwtVerifier) (now : Nat) (token : String) :
    Except AuthError JwtClaims :=
  if 16 * 1024 < token.utf8ByteSize then .error .invalidToken
  else
    match j.verified v.secret token with
    | none => .error .invalidToken
    | some (header, payload) =>
      if (field "alg" string header).toOption ≠ some "HS256" then .error .invalidToken
      else
        match JwtClaims.decode payload with
        | .error _ => .error .invalidToken
        | .ok claims =>
          if claims.sub = "" || claims.sid = "" || claims.iss ≠ v.issuer
              || !claims.aud.contains v.audience then .error .invalidToken
          else if claims.exp ≤ now then .error .sessionExpired
          else if now + 60 < claims.iat || claims.exp ≤ claims.iat then .error .invalidToken
          else .ok claims

/-- The verifier at an instant, for `authorize`. -/
def JwtVerifier.at (j : Jws) (v : JwtVerifier) (blank : String → Bool) (now : Nat) : Verifier where
  blank := blank
  verify token := (v.verify j now token).map JwtClaims.claims

/-! ## HBBS reads what the API wrote -/

/-- The claims of the issuer, as HBBS has them. -/
def GoClaims.inHbbs (c : GoClaims) (iat exp : Nat) : JwtClaims where
  sub := c.subject
  sid := c.sessionId
  iat := iat
  exp := exp
  iss := c.issuer
  aud := .many c.audience
  username := c.username
  role := c.role
  tokenVersion := c.tokenVersion
  deviceId := c.deviceId

theorem field_of_some (h : j.get? name = some v) : field name d j = d v := by
  unfold field
  rw [h]

theorem decode_jwtClaims {iat exp : Nat} (hs : c.subject ≠ "") (hi : c.issuer ≠ "")
    (ha : c.audience ≠ []) (hiat : c.issuedAt = some iat) (hexp : c.expiresAt = some exp)
    (hiat' : iat < 2 ^ 64) (hexp' : exp < 2 ^ 64) :
    JwtClaims.decode c.toJson = .ok (c.inHbbs iat exp) := by
  obtain ⟨hsid, husername, -, hrole, hversion, hdevice, hiss, hsub, haud, hexpj, hiatj⟩ :=
    c.get?_toJson
  rw [if_neg hs] at hsub
  rw [if_neg hi] at hiss
  rw [if_neg ha] at haud
  rw [hexp, Option.map_some] at hexpj
  rw [hiat, Option.map_some] at hiatj
  have haudience : audience (.strings c.audience) = .ok (.many c.audience) := by
    show (seq string (.strings c.audience)).map Audience.many = _
    rw [seq_strings]
    rfl
  unfold JwtClaims.decode
  rw [field_of_some hsub, field_of_some hsid, field_of_some hiatj, field_of_some hexpj,
    field_of_some hiss, field_of_some haud, fieldOr_of_some husername, fieldOr_of_some hrole,
    fieldOr_of_some hversion, fieldOr_of_omitted hdevice, u64_int hiat', u64_int hexp', haudience]
  simp [pure, Except.pure, GoClaims.inHbbs]

theorem get?_of_field_ok {a : α} (h : field name d j = .ok a) :
    ∃ v, j.get? name = some v ∧ d v = .ok a := by
  unfold field at h
  split at h
  next => cases h
  next v hv => exact ⟨v, hv, h⟩

theorem field_of_omitted {a : String} (hj : j.get? name = if s = "" then none else some (.str s))
    (h : field name string j = .ok a) : a = s := by
  obtain ⟨v, hv, ha⟩ := get?_of_field_ok h
  rw [hj] at hv
  split at hv
  next => cases hv
  cases hv
  exact (Except.ok.inj ha).symm

theorem field_date {n : Nat} (hj : j.get? name = t.map fun t : Nat => Json.int t)
    (h : field name u64 j = .ok n) : t = some n := by
  obtain ⟨v, hv, hn⟩ := get?_of_field_ok h
  rw [hj] at hv
  obtain ⟨t', rfl, rfl⟩ := Option.map_eq_some_iff.mp hv
  rw [u64_int_ok hn]

/-- If HBBS can read the claims at all, it reads what was written. -/
theorem decode_jwtClaims_ok {d : JwtClaims} (h : JwtClaims.decode c.toJson = .ok d) :
    ∃ iat exp, c.issuedAt = some iat ∧ c.expiresAt = some exp ∧ d = c.inHbbs iat exp := by
  obtain ⟨hsid, husername, -, hrole, hversion, hdevice, hiss, hsub, haud, hexp, hiat⟩ :=
    c.get?_toJson
  unfold JwtClaims.decode at h
  obtain ⟨sub, hsub', h⟩ := of_bind_ok h
  obtain ⟨sid, hsid', h⟩ := of_bind_ok h
  obtain ⟨iat, hiat', h⟩ := of_bind_ok h
  obtain ⟨exp, hexp', h⟩ := of_bind_ok h
  obtain ⟨iss, hiss', h⟩ := of_bind_ok h
  obtain ⟨aud, haud', h⟩ := of_bind_ok h
  rw [fieldOr_of_some husername, fieldOr_of_some hrole, fieldOr_of_some hversion,
    fieldOr_of_omitted hdevice] at h
  rw [field_of_some hsid] at hsid'
  obtain rfl := field_of_omitted hsub hsub'
  cases hsid'
  obtain rfl := field_of_omitted hiss hiss'
  have haudience : aud = .many c.audience := by
    obtain ⟨v, hv, ha⟩ := get?_of_field_ok haud'
    rw [haud] at hv
    split at hv
    next => cases hv
    cases hv
    have hmany : (seq string (.strings c.audience)).map Audience.many = .ok aud := ha
    rw [seq_strings] at hmany
    exact (Except.ok.inj hmany).symm
  refine ⟨iat, exp, field_date hiat hiat', field_date hexp hexp', ?_⟩
  simp only [string_str, i64_int, ok_bind] at h
  rw [← Except.ok.inj h, haudience]
  rfl

/-- What a token that HBBS accepts has in it. -/
theorem verify_ok {j : Jws} {v : JwtVerifier} {now : Nat} {token : String} {c : JwtClaims}
    (h : v.verify j now token = .ok c) :
    ∃ header payload, j.verified v.secret token = some (header, payload) ∧
      JwtClaims.decode payload = .ok c ∧ c.sub ≠ "" ∧ c.sid ≠ "" ∧ now < c.exp := by
  unfold JwtVerifier.verify at h
  split at h
  next => cases h
  split at h
  next => cases h
  next header payload hopen =>
    split at h
    next => cases h
    split at h
    next => cases h
    next claims hdecode =>
      split at h
      next => cases h
      next hfields =>
        split at h
        next => cases h
        next hexp =>
          split at h
          next => cases h
          cases h
          simp only [Bool.or_eq_true, decide_eq_true_eq, not_or] at hfields
          exact ⟨header, payload, hopen, hdecode, hfields.1.1.1, hfields.1.1.2,
            Nat.lt_of_not_le hexp⟩

end RemoteControl.Sync
