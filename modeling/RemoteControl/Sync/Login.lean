import RemoteControl.Sync.Authenticate

/-!
# Logging in

A login reads a user, looks at a password or a second factor, perhaps waits for the
client to come back with a code or for an OIDC provider, and only then stores a session
and signs a token with what it has read. Between any two of these steps the account may
be changed. `Portal` is the API with all its logins in progress; a step is one
statement of a login or one transaction on the accounts.

What holds tokens and accounts together is a number in the user's row:

> an operation that ends a user's logins adds one to `token_version`, nothing lowers it,
> and a token carries the version of the record it was signed from.

Passwords, codes and identity providers are outside: a step may go on as if they had
agreed. The clock of a step is its own.
-/

namespace RemoteControl.Sync

open Lib

/-! ## Operations on accounts -/

def Store.createRegisteredUser (toLower : String → String) (user : User) (s : Store) :
    Except StoreError Store :=
  let user := { user with username := toLower user.username, approvalStatus := "pending" }
  let member : MemberRow := ⟨pendingUsersGroupId, user.id⟩
  if (s.users.get? user.id).isSome || s.users.rows.any (fun u => u.username = user.username) ||
      (s.memberships.get? member.key).isSome then .error .conflict
  else .ok { s with
    users := s.users.insert user
    memberships := s.memberships.insert member }

/-- The transactions that write to the table of users. -/
inductive UserOp
  | setUserEnabled (id : String) (enabled : Bool) (now : Nat)
  | forceRelogin (id : String) (now : Nat)
  | updateUserPassword (id passwordHash : String) (now : Nat)
  | updateUser (id : String) (input : UserUpdate) (now : Nat)
  | deleteRole (role : String)
  | setUserTOTP (id totpSecret : String) (enabled : Bool) (now : Nat)
  | setUserApproval (id status : String) (now : Nat)
  | updateLastLogin (id : String) (now : Nat)
  | createUser (user : User)
  | createRegisteredUser (user : User)
  | deleteUser (id : String)

namespace UserOp

def run (toLower : String → String) (op : UserOp) (s : Store) : Except StoreError Store :=
  match op with
  | setUserEnabled id enabled now => (s.setUserEnabled id enabled now).map (·.2)
  | forceRelogin id now => (s.forceRelogin id now).map (·.2)
  | updateUserPassword id passwordHash now =>
    (s.updateUserPassword id passwordHash now).map (·.2)
  | updateUser id input now => (s.updateUser toLower id input now).map (·.2)
  | deleteRole role => s.deleteRole role
  | setUserTOTP id totpSecret enabled now => (s.setUserTOTP id totpSecret enabled now).map (·.2)
  | setUserApproval id status now => (s.setUserApproval id status now).map (·.2)
  | updateLastLogin id now => .ok (s.updateLastLogin id now)
  | createUser user => s.createUser toLower user
  | createRegisteredUser user => s.createRegisteredUser toLower user
  | deleteUser id => s.deleteUser id

/-- The operations that end the logins of a user: a new password, a forced login, a change of
the account by an administrator, and the deletion of the user's role. -/
def revokes : UserOp → User → Bool
  | setUserEnabled id _ _, u | forceRelogin id _, u | updateUserPassword id _ _, u
  | updateUser id _ _, u => u.id = id
  | deleteRole role, u => u.role = role
  | _, _ => false

/-- The rows whose `token_version` the transaction raises. -/
def raises : UserOp → User → Bool
  | setUserTOTP id _ enabled _, u => u.id = id && u.totpEnabled ≠ enabled
  | op, u => op.revokes u

def creates : UserOp → Option String
  | createUser user | createRegisteredUser user => some user.id
  | _ => none

/-- The column is a `BIGINT`. Where the sum does not fit, PostgreSQL refuses the statement, and
what SQLite stores instead cannot be read back, so that the account is of no use to anyone. -/
def Fits (op : UserOp) (s : Store) : Prop :=
  ∀ u ∈ s.users.rows, op.raises u = true → u.tokenVersion ≠ Int64.maxValue

end UserOp

/-! ## Logins in progress -/

/-- A user as a login has read it. For the proofs it is kept how many users' logins had been
ended at the time of the reading: of this one in `since`, of the login's first one in `first`. -/
structure Reading where
  user : User
  first : Nat
  since : Nat

/-- `AuthChallenge`, a login that waits for its second factor, with the reading that it was
created from. -/
structure AuthChallenge where
  id : String
  userId : String
  tokenVersion : Int64
  createdAt : Nat
  expiresAt : Nat
  rustdeskId : String
  clientUuid : String
  first : Nat
  since : Nat

/-- `OIDCAuthRequest`, a login that waits for the provider. `first` belongs to the reading of
the callback, once there was one. -/
structure OidcAuthRequest where
  state : String
  pollCode : String
  userId : String
  linkUserId : String
  error : String
  rustdeskId : String
  clientUuid : String
  ip : String
  userAgent : String
  createdAt : Nat
  expiresAt : Nat
  first : Nat

structure LoginInput where
  ip : String
  userAgent : String
  clientDeviceId : String

def firstNonEmpty (a b : String) : String := if a = "" then b else a

/-- How far a request has come. -/
inductive Login
  /-- `VerifyCredentials` has found the user by name. -/
  | found (r : Reading)
  /-- `VerifyCredentials` has returned. -/
  | verified (r : Reading)
  /-- The client has come back with a challenge. -/
  | challenged (c : AuthChallenge)
  /-- The user of the challenge has been read again. -/
  | confirming (c : AuthChallenge) (r : Reading)
  /-- The callback of the provider has read the user. -/
  | called (state : String) (r : Reading)
  /-- The client has fetched what the callback left. -/
  | polled (q : OidcAuthRequest)
  /-- `CompleteLogin` begins. -/
  | accepted (r : Reading) (input : LoginInput)
  | opened (r : Reading) (session : Session)
  | noted (r : Reading) (session : Session)

/-- A token, and what it was signed from. -/
structure IssuedToken where
  raw : String
  claims : GoClaims
  reading : Reading

structure Portal where
  db : Store
  challenges : Table AuthChallenge.id
  requests : Table OidcAuthRequest.state
  logins : List Login
  tokens : List IssuedToken
  /-- Every id that a user ever had. -/
  ids : List String
  /-- The users whose logins were ended, in the order of the transactions. -/
  revoked : List String

namespace Portal

/-- A start of the API: nobody is logging in. -/
def Start (w : Portal) : Prop :=
  w.challenges = .empty ∧ w.requests = .empty ∧ w.logins = [] ∧ w.tokens = [] ∧ w.revoked = [] ∧
    ∀ u ∈ w.db.users.rows, u.id ∈ w.ids

def read (w : Portal) (u : User) : Reading := ⟨u, w.revoked.length, w.revoked.length⟩

def begin (w : Portal) (l : Login) : Portal := { w with logins := l :: w.logins }

/-- What a transaction leaves. `DeleteUser` takes the challenges along, and the user out of the
requests. -/
def commit (w : Portal) (op : UserOp) (db : Store) : Portal :=
  { w with
    db
    challenges := match op with
      | .deleteUser id => w.challenges.deleteWhere fun c => c.userId = id
      | _ => w.challenges
    requests := match op with
      | .deleteUser id => w.requests.updateWhere (fun q => q.userId = id || q.linkUserId = id)
          fun q => { q with userId := "", linkUserId := "" }
      | _ => w.requests
    ids := op.creates.toList ++ w.ids
    revoked := w.revoked ++ (w.db.users.rows.filter op.revokes).map User.id }

def createAuthChallenge (w : Portal) (c : AuthChallenge) : Portal :=
  { w with
    challenges := (w.challenges.deleteWhere fun d => d.expiresAt ≤ c.createdAt).insert c }

def createOIDCAuthRequest (w : Portal) (q : OidcAuthRequest) : Portal :=
  { w with requests := (w.requests.deleteWhere fun p => p.expiresAt ≤ q.createdAt).insert q }

/-- A request is completed once; the reading belongs to whoever was first. -/
def completeOIDCAuthRequest (w : Portal) (state userId error : String) (first : Nat) : Portal :=
  { w with
    requests := w.requests.updateWhere
      (fun q => q.state = state && q.userId = "" && q.error = "")
      fun q => { q with userId, error, first } }

end Portal

inductive LoginError
  | userDisabled | approvalRejected
deriving DecidableEq, Repr

def validateLoginUser (user : User) : Except LoginError User :=
  if !user.enabled then .error .userDisabled
  else if user.approvalStatus = "rejected" then .error .approvalRejected
  else .ok user

theorem validateLoginUser_ok {u user : User} (h : validateLoginUser u = .ok user) : user = u := by
  unfold validateLoginUser at h
  split at h
  · cases h
  split at h
  · cases h
  exact (Except.ok.inj h).symm

/-- The session of `CompleteLogin`. -/
def newSession (id : String) (user : User) (input : LoginInput) (now ttl : Nat) : Session where
  id
  userId := user.id
  createdAt := now
  expiresAt := now + ttl
  revokedAt := none
  lastSeenAt := now
  ip := input.ip
  userAgent := input.userAgent
  clientDeviceId := input.clientDeviceId

/-! ## Steps -/

/-- One step. A login at any place of the list may go on; the label is the transaction on the
users, if the step is one. -/
inductive PortalStep (toLower : String → String) (j : Jws) (secret : String) :
    Portal → Option UserOp → Portal → Prop
  /-- A transaction on the accounts; the id of a new user is a random UUID. -/
  | commit {w : Portal} (op : UserOp) {db : Store} :
      op.run toLower w.db = .ok db → op.Fits w.db → (∀ id ∈ op.creates, id ∉ w.ids) →
      PortalStep toLower j secret w (some op) (w.commit op db)
  /-- Any other change of the database, to the sessions for example. -/
  | elsewhere {w : Portal} {db : Store} :
      db.users = w.db.users → PortalStep toLower j secret w none { w with db }
  -- the password
  | findUserByUsername {w : Portal} (username : String) {u : User} :
      u ∈ w.db.users.rows → u.username = toLower username →
      PortalStep toLower j secret w none (w.begin (.found (w.read u)))
  | verifyPassword {w : Portal} (ls ls' : List Login) {r : Reading} :
      w.logins = ls ++ .found r :: ls' → validateLoginUser r.user = .ok r.user →
      PortalStep toLower j secret w none { w with logins := ls ++ .verified r :: ls' }
  /-- The password is not the local one but a provider's, who knows the user by another id. -/
  | passwordProvider {w : Portal} (ls ls' : List Login) {r : Reading} {id : String} {u : User} :
      w.logins = ls ++ .found r :: ls' → w.db.users.get? id = some u →
      validateLoginUser u = .ok u →
      PortalStep toLower j secret w none { w with
        logins := ls ++ .verified { w.read u with
          first := if r.user.id = u.id then r.first else w.revoked.length } :: ls' }
  /-- Nobody has the name, but a provider knows who it is. -/
  | unknownName {w : Portal} {id : String} {u : User} :
      w.db.users.get? id = some u → validateLoginUser u = .ok u →
      PortalStep toLower j secret w none (w.begin (.verified (w.read u)))
  /-- `provisionExternalUser`. -/
  | provisionExternalUser {w : Portal} {user : User} {db : Store} :
      user.tokenVersion = 1 → (UserOp.createUser user).run toLower w.db = .ok db →
      user.id ∉ w.ids →
      PortalStep toLower j secret w (some (.createUser user))
        ((w.commit (.createUser user) db).begin (.verified (w.read user)))
  -- the second factor
  /-- It was not asked for, or came with the password. -/
  | accept {w : Portal} (ls ls' : List Login) {r : Reading} (input : LoginInput) :
      w.logins = ls ++ .verified r :: ls' →
      PortalStep toLower j secret w none { w with logins := ls ++ .accepted r input :: ls' }
  | createAuthChallenge {w : Portal} (ls ls' : List Login) {r : Reading}
      (id rustdeskId clientUuid : String) (now : Nat) :
      w.logins = ls ++ .verified r :: ls' → r.user.totpEnabled = true →
      (w.db.users.get? r.user.id).isSome → w.challenges.get? id = none →
      PortalStep toLower j secret w none
        ({ w with logins := ls ++ ls' }.createAuthChallenge
          ⟨id, r.user.id, r.user.tokenVersion, now, now + 180000, rustdeskId, clientUuid, r.first,
            r.since⟩)
  | findAuthChallenge {w : Portal} (id : String) {c : AuthChallenge} (now : Nat) :
      w.challenges.get? id = some c → now < c.expiresAt →
      PortalStep toLower j secret w none (w.begin (.challenged c))
  | confirm {w : Portal} (ls ls' : List Login) {c : AuthChallenge} {u : User} :
      w.logins = ls ++ .challenged c :: ls' → w.db.users.get? c.userId = some u →
      u.enabled = true → u.tokenVersion = c.tokenVersion →
      PortalStep toLower j secret w none
        { w with logins := ls ++ .confirming c ⟨u, c.first, c.since⟩ :: ls' }
  | consumeAuthChallenge {w : Portal} (ls ls' : List Login) {c d : AuthChallenge} {r : Reading}
      (ip userAgent : String) (now : Nat) :
      w.logins = ls ++ .confirming c r :: ls' → w.challenges.get? c.id = some d →
      now < d.expiresAt →
      PortalStep toLower j secret w none { w with
        challenges := w.challenges.remove c.id
        logins :=
          ls ++ .accepted r ⟨ip, userAgent, firstNonEmpty c.clientUuid c.rustdeskId⟩ :: ls' }
  -- the OIDC provider
  | createOIDCAuthRequest {w : Portal} {q : OidcAuthRequest} :
      q.userId = "" → q.error = "" → q.expiresAt = q.createdAt + 300000 →
      w.requests.get? q.state = none → w.requests.rows.all (fun p => p.pollCode ≠ q.pollCode) →
      PortalStep toLower j secret w none (w.createOIDCAuthRequest q)
  | callback {w : Portal} (state id : String) {q : OidcAuthRequest} {u : User} (now : Nat) :
      w.requests.get? state = some q → now < q.expiresAt → q.linkUserId = "" →
      w.db.users.get? id = some u → u.enabled = true →
      PortalStep toLower j secret w none (w.begin (.called state (w.read u)))
  /-- The callback registers a user whom nobody knows. -/
  | register {w : Portal} (state : String) {q : OidcAuthRequest} {user : User} {db : Store}
      (now : Nat) :
      w.requests.get? state = some q → now < q.expiresAt → q.linkUserId = "" →
      user.tokenVersion = 1 → (UserOp.createUser user).run toLower w.db = .ok db →
      user.id ∉ w.ids →
      PortalStep toLower j secret w (some (.createUser user))
        ((w.commit (.createUser user) db).begin (.called state (w.read user)))
  | completeOIDCAuthRequest {w : Portal} (ls ls' : List Login) {state : String} {r : Reading} :
      w.logins = ls ++ .called state r :: ls' →
      PortalStep toLower j secret w none
        ({ w with logins := ls ++ ls' }.completeOIDCAuthRequest state r.user.id "" r.first)
  /-- The callback failed, or belongs to an account that is being linked: the request is
  completed with an error or with the user who asked for the link. -/
  | completeOtherwise {w : Portal} {state userId error : String} {q : OidcAuthRequest} :
      w.requests.get? state = some q → error ≠ "" ∨ q.linkUserId ≠ "" ∧ userId = q.linkUserId →
      PortalStep toLower j secret w none
        (w.completeOIDCAuthRequest state userId error w.revoked.length)
  | consumeOIDCAuthRequest {w : Portal} (state : String) {q : OidcAuthRequest} (now : Nat) :
      w.requests.get? state = some q → q.linkUserId = "" → now < q.expiresAt →
      q.userId ≠ "" ∨ q.error ≠ "" →
      PortalStep toLower j secret w none
        ({ w with requests := w.requests.remove state }.begin (.polled q))
  | authQuery {w : Portal} (ls ls' : List Login) {q : OidcAuthRequest} {u : User} :
      w.logins = ls ++ .polled q :: ls' → q.error = "" → w.db.users.get? q.userId = some u →
      u.enabled = true →
      PortalStep toLower j secret w none { w with
        logins := ls ++ .accepted { w.read u with first := q.first }
          ⟨q.ip, q.userAgent, firstNonEmpty q.clientUuid q.rustdeskId⟩ :: ls' }
  -- `CompleteLogin`
  | createSession {w : Portal} (ls ls' : List Login) {r : Reading} {input : LoginInput}
      (id : String) (now ttl : Nat) {db : Store} :
      w.logins = ls ++ .accepted r input :: ls' →
      w.db.createSession (newSession id r.user input now ttl) = .ok db →
      PortalStep toLower j secret w none { w with
        db
        logins := ls ++ .opened r (newSession id r.user input now ttl) :: ls' }
  | updateLastLogin {w : Portal} (ls ls' : List Login) {r : Reading} {session : Session} :
      w.logins = ls ++ .opened r session :: ls' →
      PortalStep toLower j secret w (some (.updateLastLogin r.user.id session.createdAt))
        { w.commit (.updateLastLogin r.user.id session.createdAt)
            (w.db.updateLastLogin r.user.id session.createdAt) with
          logins := ls ++ .noted r session :: ls' }
  | issue {w : Portal} (ls ls' : List Login) {r : Reading} {session : Session} (ttl : Nat) :
      w.logins = ls ++ .noted r session :: ls' →
      PortalStep toLower j secret w none { w with
        logins := ls ++ ls'
        tokens :=
          ⟨((apiTokens secret ttl).issue j r.user session session.createdAt).1,
            ((apiTokens secret ttl).issue j r.user session session.createdAt).2, r⟩ :: w.tokens }
  /-- A request fails, or its client goes away. -/
  | abandon {w : Portal} (ls ls' : List Login) {l : Login} :
      w.logins = ls ++ l :: ls' → PortalStep toLower j secret w none { w with logins := ls ++ ls' }

end RemoteControl.Sync
