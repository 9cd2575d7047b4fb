import RemoteControl.Lib.Events
import RemoteControl.Sync.UserRows

/-!
# Logins and links with an OIDC provider

`oidc_auth_requests` holds two kinds of requests: for a login, and for a link of an identity to an
account. They are told apart by `link_user_id`, which is empty for a login. `OidcDesk` is the table
with the callbacks and polls in progress, each statement of `oidcauth/service.go` an event; what
the provider vouches for is given.

> `DeleteUser` empties `user_id` and `link_user_id` of every request of the account. What is left
> is an open request for a login.

For the proofs it is recorded how each request was started, to whom it was bound, and which ones
were emptied.
-/

namespace RemoteControl.Sync

open Lib

/-- What a verified token says. -/
structure OidcClaims where
  subject : String
  email : String
deriving DecidableEq, Repr

/-- A row of `oidc_identities`, for the one provider. -/
structure OidcIdentity where
  subject : String
  userId : String
  email : String
deriving DecidableEq, Repr

/-- How far a callback has come. -/
inductive CallbackStage
  /-- `FindOIDCAuthRequestByState` has returned. -/
  | found
  /-- The token was verified, and `FindOIDCIdentity` has returned. -/
  | identified (claims : OidcClaims) (identity : Option OidcIdentity)
  /-- The account to link is there; the identity is to be created. -/
  | confirmed (claims : OidcClaims)
  /-- `register` tries names. -/
  | registering (claims : OidcClaims) (attempt : Nat)
  /-- There is a new account; the identity is to be created. -/
  | registered (claims : OidcClaims) (user : User)
  /-- `CompleteOIDCAuthRequest` is next. -/
  | completing (userId error : String)

structure Callback where
  /-- The request as it was read. -/
  request : OidcAuthRequest
  /-- The ids of the accounts that there were then. -/
  known : List String
  stage : CallbackStage

inductive PollStage
  | polled (q : OidcAuthRequest)
  | accepted (q : OidcAuthRequest) (user : User)

structure OidcDesk where
  db : Store
  identities : Table OidcIdentity.subject
  requests : Table OidcAuthRequest.state
  callbacks : List Callback
  polls : List PollStage
  /-- The requests, with the account that each was started to link, or nothing. -/
  started : List (String × String)
  /-- The accounts that requests were bound to, by their start or by a completion. -/
  bound : List (String × String)
  /-- The requests that a deletion has emptied. -/
  emptied : List String
  /-- Every id that a user ever had. -/
  ids : List String

inductive OidcEvent
  | begin (q : OidcAuthRequest)
  | callback (state : String) (now : Nat)
  | identify (i : Nat) (claims : OidcClaims)
  | resolve (i : Nat)
  | register (i : Nat) (user : User)
  | record (i : Nat)
  | complete (i : Nat)
  | poll (pollCode rustdeskId clientUuid : String) (now : Nat)
  | readPolled (i : Nat)
  | openSession (i : Nat) (id : String) (now ttl : Nat)
  | linkPoll (pollCode userId : String) (now : Nat)
  | unlink (subject userId : String)
  | account (op : UserOp)
  /-- Other logins, and the ends of sessions. -/
  | elsewhere (sessions : Table Session.id)
  /-- The provider does not vouch for anyone, or a statement of callback `i` fails. -/
  | trouble (i : Nat)
  | abandonCallback (i : Nat)
  | abandonPoll (i : Nat)

def OidcAuthRequest.session (q : OidcAuthRequest) (id : String) (user : User) (now ttl : Nat) :
    Session :=
  newSession id user ⟨q.ip, q.userAgent, firstNonEmpty q.clientUuid q.rustdeskId⟩ now ttl

namespace OidcDesk

variable (autoRegister : Bool) (toLower : String → String)

/-- Callback `i` goes on. -/
def next (w : OidcDesk) (i : Nat) (c : Callback) (stage : CallbackStage) : OidcDesk :=
  { w with callbacks := w.callbacks.set i { c with stage } }

def fail (w : OidcDesk) (i : Nat) (c : Callback) : OidcDesk :=
  w.next i c (.completing "" "OIDC authentication failed")

/-- `CreateOIDCAuthRequest`; the state and the poll code are unique. -/
def begin (w : OidcDesk) (q : OidcAuthRequest) : OidcDesk :=
  let requests := w.requests.deleteWhere fun p => p.expiresAt ≤ q.createdAt
  if (requests.get? q.state).isSome || requests.rows.any (fun p => p.pollCode = q.pollCode) then
    { w with requests }
  else
    { w with
      requests := requests.insert { q with userId := "", error := "" }
      started := (q.state, q.linkUserId) :: w.started
      bound := if q.linkUserId = "" then w.bound else (q.state, q.linkUserId) :: w.bound }

/-- `Callback` after the identity was looked for. -/
def resolve (w : OidcDesk) (i : Nat) (c : Callback) (claims : OidcClaims)
    (identity : Option OidcIdentity) : OidcDesk :=
  if c.request.linkUserId ≠ "" then
    -- `completeLink`
    match w.db.users.get? c.request.linkUserId with
    | none => w.fail i c
    | some user =>
      if user.enabled = false then w.fail i c
      else match identity with
        | some x =>
          if x.userId ≠ c.request.linkUserId then w.fail i c
          else w.next i c (.completing c.request.linkUserId "")
        | none => w.next i c (.confirmed claims)
  else match identity with
    | some x =>
      match w.db.users.get? x.userId with
      | none => w.fail i c
      | some user => if user.enabled then w.next i c (.completing user.id "") else w.fail i c
    | none => if autoRegister then w.next i c (.registering claims 0) else w.fail i c

/-- One attempt of `register`. -/
def register (w : OidcDesk) (i : Nat) (c : Callback) (claims : OidcClaims) (attempt : Nat)
    (user : User) : OidcDesk :=
  match w.db.createUser toLower user with
  | .ok db => { w with db, ids := user.id :: w.ids }.next i c (.registered claims user)
  | .error _ =>
    if attempt + 1 < 5 then w.next i c (.registering claims (attempt + 1)) else w.fail i c

/-- `CreateOIDCIdentity`; the subject is unique, and the user has to exist. -/
def createOIDCIdentity (w : OidcDesk) (x : OidcIdentity) : Option OidcDesk :=
  if (w.identities.get? x.subject).isSome || (w.db.users.get? x.userId).isNone then none
  else some { w with identities := w.identities.insert x }

def record (w : OidcDesk) (i : Nat) (c : Callback) : OidcDesk := match c.stage with
  | .confirmed claims =>
    match w.createOIDCIdentity ⟨claims.subject, c.request.linkUserId, claims.email⟩ with
    | none => w.fail i c
    | some w => w.next i c (.completing c.request.linkUserId "")
  | .registered claims user =>
    match w.createOIDCIdentity ⟨claims.subject, user.id, claims.email⟩ with
    | none => w.fail i c
    | some w => if user.enabled then w.next i c (.completing user.id "") else w.fail i c
  | _ => w

theorem state_completed (userId error : String) (q : OidcAuthRequest) :
    ({ q with userId, error } : OidcAuthRequest).state = q.state := rfl

/-- The condition of `CompleteOIDCAuthRequest`: a request is completed once. -/
def isOpen (state : String) (q : OidcAuthRequest) : Bool :=
  q.state = state && q.userId = "" && q.error = ""

/-- The account that a request is completed for, if there is an open one. -/
def completesFor (w : OidcDesk) (state userId : String) : Option (String × String) :=
  if w.requests.rows.any (isOpen state) && userId ≠ "" then some (state, userId) else none

/-- `CompleteOIDCAuthRequest`. -/
def complete (w : OidcDesk) (i : Nat) (state userId error : String) : OidcDesk :=
  { w with
    requests := w.requests.updateWhere (isOpen state) (fun q => { q with userId, error })
      (state_completed userId error)
    callbacks := w.callbacks.eraseIdx i
    bound := (w.completesFor state userId).toList ++ w.bound }

theorem state_emptied (q : OidcAuthRequest) :
    ({ q with userId := "", linkUserId := "" } : OidcAuthRequest).state = q.state := rfl

/-- The condition of `DeleteUser` on the requests. -/
def concerns (id : String) (q : OidcAuthRequest) : Bool := q.userId = id || q.linkUserId = id

/-- What a transaction on the accounts leaves. -/
def commit (w : OidcDesk) (op : UserOp) (db : Store) : OidcDesk :=
  let w := { w with db, ids := op.creates.toList ++ w.ids }
  match op with
  | .deleteUser id => { w with
      identities := w.identities.deleteWhere fun x => x.userId = id
      requests := w.requests.updateWhere (concerns id)
        (fun q => { q with userId := "", linkUserId := "" }) state_emptied
      emptied := (w.requests.rows.filter (concerns id)).map OidcAuthRequest.state ++ w.emptied }
  | _ => w

/-- The request that a login poll deletes. -/
def polledBy (w : OidcDesk) (pollCode rustdeskId clientUuid : String) (now : Nat) :
    Option OidcAuthRequest :=
  w.requests.rows.find? fun q => q.pollCode = pollCode && q.rustdeskId = rustdeskId &&
    q.clientUuid = clientUuid && q.linkUserId = "" && now < q.expiresAt &&
    (q.userId ≠ "" || q.error ≠ "")

def linkPolledBy (w : OidcDesk) (pollCode userId : String) (now : Nat) : Option OidcAuthRequest :=
  w.requests.rows.find? fun q => q.pollCode = pollCode && q.linkUserId = userId &&
    now < q.expiresAt && (q.userId ≠ "" || q.error ≠ "")

def dropPoll (w : OidcDesk) (i : Nat) : OidcDesk := { w with polls := w.polls.eraseIdx i }

def perform (w : OidcDesk) : OidcEvent → OidcDesk
  | .begin q => w.begin q
  | .callback state now =>
    match w.requests.get? state with
    | none => w
    | some q =>
      if now < q.expiresAt then
        { w with callbacks := w.callbacks ++ [⟨q, w.db.users.rows.map User.id, .found⟩] }
      else w
  | .identify i claims =>
    match w.callbacks[i]? with
    | some ⟨q, known, .found⟩ =>
      w.next i ⟨q, known, .found⟩ (.identified claims (w.identities.get? claims.subject))
    | _ => w
  | .resolve i =>
    match w.callbacks[i]? with
    | some ⟨q, known, .identified claims identity⟩ =>
      w.resolve autoRegister i ⟨q, known, .identified claims identity⟩ claims identity
    | _ => w
  | .register i user =>
    match w.callbacks[i]? with
    | some ⟨q, known, .registering claims attempt⟩ =>
      w.register toLower i ⟨q, known, .registering claims attempt⟩ claims attempt user
    | _ => w
  | .record i =>
    match w.callbacks[i]? with
    | some c => w.record i c
    | none => w
  | .complete i =>
    match w.callbacks[i]? with
    | some ⟨q, _, .completing userId error⟩ => w.complete i q.state userId error
    | _ => w
  | .poll pollCode rustdeskId clientUuid now =>
    match w.polledBy pollCode rustdeskId clientUuid now with
    | none => w
    | some q => { w with requests := w.requests.remove q.state, polls := w.polls ++ [.polled q] }
  | .readPolled i =>
    match w.polls[i]? with
    | some (.polled q) =>
      match w.db.users.get? q.userId with
      | none => w.dropPoll i
      | some user =>
        if q.error = "" ∧ user.enabled then { w with polls := w.polls.set i (.accepted q user) }
        else w.dropPoll i
    | _ => w
  | .openSession i id now ttl =>
    match w.polls[i]? with
    | some (.accepted q user) =>
      match w.db.createSession (q.session id user now ttl) with
      | .ok db => { w with db }.dropPoll i
      | .error _ => w.dropPoll i
    | _ => w
  | .linkPoll pollCode userId now =>
    match w.linkPolledBy pollCode userId now with
    | none => w
    | some q => { w with requests := w.requests.remove q.state }
  | .unlink subject userId =>
    { w with
      identities := w.identities.deleteWhere fun x => x.subject = subject && x.userId = userId }
  | .account op =>
    match op.run toLower w.db with
    | .ok db => w.commit op db
    | .error _ => w
  | .elsewhere sessions => { w with db := { w.db with sessions } }
  | .trouble i =>
    match w.callbacks[i]? with
    | some ⟨_, _, .completing _ _⟩ => w
    | some c => w.fail i c
    | none => w
  | .abandonCallback i => { w with callbacks := w.callbacks.eraseIdx i }
  | .abandonPoll i => w.dropPoll i

/-! ## What is expected -/

/-- The request that a poll gets a session for. -/
def opens (w : OidcDesk) : OidcEvent → Option OidcAuthRequest
  | .openSession i id now ttl =>
    match w.polls[i]? with
    | some (.accepted q user) =>
      if (w.db.createSession (q.session id user now ttl)).isOk then some q else none
    | _ => none
  | _ => none

/-- The request that a callback completes for an account, and the account. -/
def completes (w : OidcDesk) : OidcEvent → Option (String × String)
  | .complete i =>
    match w.callbacks[i]? with
    | some ⟨q, _, .completing userId _⟩ => w.completesFor q.state userId
    | _ => none
  | _ => none

/-- Sessions are for logins only; no login links an account that was there before; and what is
bound to an account is completed for no other. -/
structure Proper (w : OidcDesk) (e : OidcEvent) : Prop where
  session : ∀ q ∈ w.opens e, (q.state, "") ∈ w.started
  link : ∀ x : OidcIdentity, w.identities.get? x.subject = none →
    (w.perform autoRegister toLower e).identities.get? x.subject = some x →
    ∃ i c, e = .record i ∧ w.callbacks[i]? = some c ∧
      ((c.request.state, "") ∈ w.started → x.userId ∉ c.known)
  bind : ∀ p ∈ w.completes e, ∀ userId, (p.1, userId) ∈ w.bound → userId = p.2

/-- No emptied request is taken for what it was not. -/
structure Spared (w : OidcDesk) (e : OidcEvent) : Prop where
  session : ∀ q ∈ w.opens e, q.state ∈ w.emptied → (q.state, "") ∈ w.started
  bind : ∀ p ∈ w.completes e, p.1 ∈ w.emptied → ∀ userId, (p.1, userId) ∈ w.bound → userId = p.2

/-- Random tokens and ids are new. -/
def Fresh (w : OidcDesk) : OidcEvent → Prop
  | .begin q => ∀ userId, (q.state, userId) ∉ w.started
  | .register _ user => user.id ∉ w.ids
  | _ => True

/-- Nobody is logging in. -/
def Start (w : OidcDesk) : Prop :=
  w.requests = .empty ∧ w.callbacks = [] ∧ w.polls = [] ∧ w.started = [] ∧ w.bound = [] ∧
    w.emptied = [] ∧ ∀ u ∈ w.db.users.rows, u.id ∈ w.ids

end OidcDesk

end RemoteControl.Sync
