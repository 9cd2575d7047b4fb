import RemoteControl.Sync.TwoFactor
import RemoteControl.Sync.UserRows

/-!
# Logins and the second factor

Three routes end in a session: a password, a challenge that is answered with a code, and the
poll of a login with an OIDC provider. Between the reading of the user and the session lie
several statements, during which the account and the mode may change. `Entrance` is the API
with all its logins in progress; an event is one statement of a login, or a change from
elsewhere.

> The second factor is asked for by the record that the login has read, and by the mode at the
> time of the question. The poll does not ask at all.

So the question is worth something as long as nothing changes between it and the session.

Whom `VerifyCredentials` and the provider vouch for is not looked at here.
-/

namespace RemoteControl.Sync

open Lib List

inductive Route
  | password | challenge | oidc
deriving DecidableEq, Repr

/-- How far a login has come, with the user as it was read. -/
inductive LoginStage
  /-- `VerifyCredentials` has returned. -/
  | checked (user : User) (input : LoginInput)
  /-- `FindAuthChallenge` has returned. -/
  | challenged (c : AuthChallenge) (input : LoginInput)
  /-- The user of the challenge has been read. -/
  | confirming (c : AuthChallenge) (user : User) (input : LoginInput)
  /-- `Verify` has returned. -/
  | proven (c : AuthChallenge) (user : User) (verdict : Verdict) (input : LoginInput)
  /-- `ConsumeOIDCAuthRequest` has returned. -/
  | polled (q : OidcAuthRequest)
  /-- `CompleteLogin` begins. -/
  | accepted (route : Route) (user : User) (verdict : Verdict) (input : LoginInput)

structure Entrance where
  vault : Vault
  mode : MfaMode
  challenges : Table AuthChallenge.id
  requests : Table OidcAuthRequest.state
  logins : List LoginStage

inductive EntranceEvent
  | credentials (id : String) (input : LoginInput)
  | secondFactor (i : Nat) (web : Bool) (code challengeId rustdeskId clientUuid : String)
      (now : Nat)
  | findChallenge (id : String) (input : LoginInput) (now : Nat)
  | readChallenged (i : Nat)
  | verifyChallenged (i : Nat) (code : String) (now : Nat)
  | consumeChallenge (i : Nat) (now : Nat)
  | oidcAuth (q : OidcAuthRequest)
  | oidcCallback (state userId error : String) (now : Nat)
  | oidcConsume (state : String) (now : Nat)
  | oidcRead (i : Nat)
  | createSession (i : Nat) (id : String) (now ttl : Nat)
  | setMode (mode : MfaMode)
  | account (op : UserOp)
  | replaceCodes (userId : String) (hashes : List String)

namespace Entrance

variable (toLower : String → String) (m : Mfa)

def begin (w : Entrance) (st : LoginStage) : Entrance := { w with logins := w.logins ++ [st] }

/-- Login `i` goes on. -/
def next (w : Entrance) (i : Nat) (st : LoginStage) : Entrance :=
  { w with logins := w.logins.set i st }

/-- Login `i` ends. -/
def drop (w : Entrance) (i : Nat) : Entrance := { w with logins := w.logins.eraseIdx i }

def createAuthChallenge (w : Entrance) (c : AuthChallenge) : Entrance :=
  { w with
    challenges := (w.challenges.deleteWhere fun d => d.expiresAt ≤ c.createdAt).insert c }

/-- `login` after `VerifyCredentials`: a web client is told to send the code along, the others
are given a challenge. -/
def secondFactor (w : Entrance) (i : Nat) (web : Bool)
    (code challengeId rustdeskId clientUuid : String) (now : Nat) (user : User)
    (input : LoginInput) : Entrance :=
  if user.totpEnabled = false then
    if w.mode.required user then w.drop i else w.next i (.accepted .password user .notAsked input)
  else
    match m.verify w.mode user code now w.vault with
    | (.invalid, vault) =>
      if web then { w with vault }.drop i
      else ({ w with vault }.drop i).createAuthChallenge
        ⟨challengeId, user.id, user.tokenVersion, now, now + 180000, rustdeskId, clientUuid, 0, 0⟩
    | (verdict, vault) => { w with vault }.next i (.accepted .password user verdict input)

def verifyChallenged (w : Entrance) (i : Nat) (code : String) (now : Nat) (c : AuthChallenge)
    (user : User) (input : LoginInput) : Entrance :=
  match m.verify w.mode user code now w.vault with
  | (.invalid, vault) => { w with vault }.drop i
  | (verdict, vault) => { w with vault }.next i (.proven c user verdict input)

def consumeChallenge (w : Entrance) (i : Nat) (now : Nat) (c : AuthChallenge) (user : User)
    (verdict : Verdict) (input : LoginInput) : Entrance :=
  match w.challenges.get? c.id with
  | none => w.drop i
  | some d =>
    if now < d.expiresAt then
      { w with challenges := w.challenges.remove c.id }.next i (.accepted .challenge user verdict
        { input with clientDeviceId := firstNonEmpty c.clientUuid c.rustdeskId })
    else w.drop i

theorem state_forgotten (q : OidcAuthRequest) :
    ({ q with userId := "", linkUserId := "" } : OidcAuthRequest).state = q.state := rfl

/-- What a transaction leaves; `DeleteUser` takes the recovery codes and the challenges along, and
the user out of the requests. -/
def commit (w : Entrance) (op : UserOp) (db : Store) : Entrance :=
  let w := { w with vault := { w.vault with db } }
  match op with
  | .deleteUser id => { w with
      vault := { w.vault with codes := w.vault.codes.filter fun c => c.1 ≠ id }
      challenges := w.challenges.deleteWhere fun c => c.userId = id
      requests := w.requests.updateWhere (fun q => q.userId = id || q.linkUserId = id)
        (fun q => { q with userId := "", linkUserId := "" }) state_forgotten }
  | _ => w

def perform (w : Entrance) : EntranceEvent → Entrance
  | .credentials id input =>
    match w.vault.db.users.get? id with
    | none => w
    | some user =>
      match validateLoginUser user with
      | .ok user => w.begin (.checked user input)
      | .error _ => w
  | .secondFactor i web code challengeId rustdeskId clientUuid now =>
    match w.logins[i]? with
    | some (.checked user input) =>
      w.secondFactor m i web code challengeId rustdeskId clientUuid now user input
    | _ => w
  | .findChallenge id input now =>
    match w.challenges.get? id with
    | none => w
    | some c => if now < c.expiresAt then w.begin (.challenged c input) else w
  | .readChallenged i =>
    match w.logins[i]? with
    | some (.challenged c input) =>
      match w.vault.db.users.get? c.userId with
      | none => w.drop i
      | some user =>
        if user.enabled ∧ user.tokenVersion = c.tokenVersion then
          w.next i (.confirming c user input)
        else w.drop i
    | _ => w
  | .verifyChallenged i code now =>
    match w.logins[i]? with
    | some (.confirming c user input) => w.verifyChallenged m i code now c user input
    | _ => w
  | .consumeChallenge i now =>
    match w.logins[i]? with
    | some (.proven c user verdict input) => w.consumeChallenge i now c user verdict input
    | _ => w
  | .oidcAuth q =>
    { w with
      requests := (w.requests.deleteWhere fun p => p.expiresAt ≤ q.createdAt).insert
        { q with userId := "", error := "" } }
  | .oidcCallback state userId error now =>
    { w with
      requests := w.requests.updateWhere
        (fun q => q.state = state && q.userId = "" && q.error = "" && now < q.expiresAt)
        fun q => { q with userId, error } }
  | .oidcConsume state now =>
    match w.requests.get? state with
    | none => w
    | some q =>
      if q.linkUserId = "" ∧ now < q.expiresAt ∧ (q.userId ≠ "" ∨ q.error ≠ "") then
        { w with requests := w.requests.remove state }.begin (.polled q)
      else w
  | .oidcRead i =>
    match w.logins[i]? with
    | some (.polled q) =>
      match w.vault.db.users.get? q.userId with
      | none => w.drop i
      | some user =>
        if q.error = "" ∧ user.enabled then
          w.next i (.accepted .oidc user .notAsked
            ⟨q.ip, q.userAgent, firstNonEmpty q.clientUuid q.rustdeskId⟩)
        else w.drop i
    | _ => w
  | .createSession i id now ttl =>
    match w.logins[i]? with
    | some (.accepted _ user _ input) =>
      match w.vault.db.createSession (newSession id user input now ttl) with
      | .ok db => { w with vault := { w.vault with db := db.updateLastLogin user.id now } }.drop i
      | .error _ => w.drop i
    | _ => w
  | .setMode mode => { w with mode }
  | .account op =>
    match op.run toLower w.vault.db with
    | .ok db => w.commit op db
    | .error _ => w
  | .replaceCodes userId hashes =>
    { w with vault := w.vault.replaceMFARecoveryCodes userId hashes }

theorem commit_logins (w : Entrance) (op : UserOp) (db : Store) :
    (w.commit op db).logins = w.logins := by
  unfold commit
  split <;> rfl

/-! ## What is to hold -/

/-- Whoever has a second factor, or is to have one, gets a session only with a code. -/
def Asks (w : Entrance) : EntranceEvent → Prop
  | .createSession i id now ttl => ∀ route user verdict input,
      w.logins[i]? = some (.accepted route user verdict input) →
      (w.vault.db.createSession (newSession id user input now ttl)).isOk = true →
      ∀ row, w.vault.db.users.get? user.id = some row →
        row.totpEnabled = true ∨ w.mode.required row = true → verdict.proves = true
  | _ => True

end Entrance

/-! ## Logins without a second factor -/

/-- The record that the login has read, if it has no second factor. -/
def LoginStage.bare : LoginStage → Option User
  | .checked user _ | .confirming _ user _ | .proven _ user _ _ | .accepted _ user _ _ =>
    if user.totpEnabled then none else some user
  | .challenged .. | .polled _ => none

/-- The question for the second factor is behind it. -/
def LoginStage.passed : LoginStage → Bool
  | .proven .. | .accepted .. => true
  | _ => false

/-- The operations that may change the role or the second factor of a row, or make a new one. -/
def UserOp.resets : UserOp → User → Bool
  | .setUserTOTP id .., u | .updateUser id .., u => u.id = id
  | .deleteRole role, u => u.role = role
  | .createUser v, u | .createRegisteredUser v, u => v.id = u.id
  | _, _ => false

/-- What the handlers rely on. Nobody polls who has a second factor or has to have one; from the
reading of a record without one until the session, the role and the second factor of the row are
left alone; and from the question until the session, the mode is. -/
def Entrance.Settled (w : Entrance) : EntranceEvent → Prop
  | .oidcRead i => ∀ q, w.logins[i]? = some (.polled q) →
      ∀ row, w.vault.db.users.get? q.userId = some row →
        row.totpEnabled = false ∧ w.mode.required row = false
  | .account op => ∀ st ∈ w.logins, ∀ u ∈ st.bare, op.resets u = false
  | .setMode _ => ∀ st ∈ w.logins, st.passed = true → st.bare = none
  | _ => True

/-- A record without a second factor, whose row, if it is still there, has the same role and no
second factor either. -/
structure Bare (users : Table User.id) (u : User) : Prop where
  off : u.totpEnabled = false
  row : ∀ row, users.get? u.id = some row → row.role = u.role ∧ row.totpEnabled = false

theorem Bare.run {toLower : String → String} {op : UserOp} {s s' : Store} {u : User}
    (h : Bare s.users u) (hrun : op.run toLower s = .ok s') (hop : op.resets u = false) :
    Bare s'.users u := by
  refine ⟨h.off, fun row' hrow' => ?_⟩
  rcases UserOp.run_applied hrun hrow' with ⟨row, hrow, rfl⟩ | hcreates
  · have hid : row.id = u.id := Table.get?_key hrow
    obtain ⟨hrole, hoff⟩ := h.row row hrow
    cases op with
    | setUserTOTP id | updateUser id =>
      have hne : row.id ≠ id := by
        rw [hid]
        exact of_decide_eq_false hop
      rw [UserOp.applied, if_neg hne]
      exact ⟨hrole, hoff⟩
    | deleteRole role =>
      have hne : row.role ≠ role := by
        rw [hrole]
        exact of_decide_eq_false hop
      rw [UserOp.applied, if_neg hne]
      exact ⟨hrole, hoff⟩
    | setUserEnabled | forceRelogin | updateUserPassword | setUserApproval | updateLastLogin =>
      dsimp only [UserOp.applied]
      split
      · exact ⟨hrole, hoff⟩
      · exact ⟨hrole, hoff⟩
    | createUser | createRegisteredUser | deleteUser => exact ⟨hrole, hoff⟩
  · cases op with
    | createUser | createRegisteredUser =>
      exact absurd (Option.some.inj hcreates) (of_decide_eq_false hop)
    | _ => cases hcreates

theorem bare_of_read {users : Table User.id} {id : String} {u : User}
    (hu : users.get? id = some u) : u.totpEnabled = true ∨ Bare users u := by
  cases hon : u.totpEnabled with
  | true => exact .inl rfl
  | false =>
    refine .inr ⟨hon, fun row hrow => ?_⟩
    rw [Table.get?_key hu, hu] at hrow
    cases hrow
    exact ⟨rfl, hon⟩

/-- What is known of a login. Behind the question it has proved its second factor, or it has none
and none is demanded. -/
def LoginStage.Kept (users : Table User.id) (mode : MfaMode) : LoginStage → Prop
  | .checked user _ | .confirming _ user _ => user.totpEnabled = true ∨ Bare users user
  | .proven _ user verdict _ | .accepted _ user verdict _ =>
    verdict.proves = true ∨ Bare users user ∧ mode.required user = false
  | .challenged .. | .polled _ => True

namespace LoginStage

variable {users : Table User.id} {mode : MfaMode} {st : LoginStage}

theorem Kept.of_mode (h : st.Kept users mode) (hst : st.passed = true → st.bare = none)
    (mode' : MfaMode) : st.Kept users mode' := by
  cases st with
  | proven _ user | accepted _ user =>
    rcases h with h | ⟨h, -⟩
    · exact .inl h
    · have hnone := hst rfl
      rw [bare, h.off] at hnone
      cases hnone
  | _ => exact h

theorem Kept.run {toLower : String → String} {op : UserOp} {s s' : Store}
    (h : st.Kept s.users mode) (hrun : op.run toLower s = .ok s')
    (hop : ∀ u ∈ st.bare, op.resets u = false) : st.Kept s'.users mode := by
  cases st with
  | checked user | confirming _ user =>
    rcases h with h | h
    · exact .inl h
    · exact .inr (h.run hrun (hop user (by rw [bare, h.off]; rfl)))
  | proven _ user | accepted _ user =>
    rcases h with h | ⟨h, hmode⟩
    · exact .inl h
    · exact .inr ⟨h.run hrun (hop user (by rw [bare, h.off]; rfl)), hmode⟩
  | challenged | polled => trivial

end LoginStage

namespace Entrance

variable {toLower : String → String} {m : Mfa} {w : Entrance}

def Inv (w : Entrance) : Prop := ∀ st ∈ w.logins, st.Kept w.vault.db.users w.mode

section

variable (h : w.Inv)

include h

theorem Inv.begin {st : LoginStage} (hst : st.Kept w.vault.db.users w.mode) : (w.begin st).Inv := by
  intro st' hmem
  rcases mem_append.mp hmem with hmem | hmem
  · exact h st' hmem
  · rw [mem_singleton.mp hmem]
    exact hst

theorem Inv.next (i : Nat) {st : LoginStage} (hst : st.Kept w.vault.db.users w.mode) :
    (w.next i st).Inv := by
  intro st' hmem
  rcases mem_or_eq_of_mem_set hmem with hmem | rfl
  · exact h st' hmem
  · exact hst

theorem Inv.drop (i : Nat) : (w.drop i).Inv := fun st hmem => h st (mem_of_mem_eraseIdx hmem)

/-- The tables of challenges and requests have no part in it. -/
theorem Inv.of_eq {w' : Entrance} (hl : w'.logins = w.logins)
    (hdb : w'.vault.db = w.vault.db) (hmode : w'.mode = w.mode) : w'.Inv := by
  intro st hmem
  rw [hl] at hmem
  rw [hdb, hmode]
  exact h st hmem

/-- After `Verify`. -/
theorem Inv.verified {code : String} {user : User} {verdict : Verdict} {vault : Vault} {now : Nat}
    (hv : m.verify w.mode user code now w.vault = (verdict, vault)) :
    ({ w with vault } : Entrance).Inv := by
  have hdb := verify_db m w.mode user code now w.vault
  rw [hv] at hdb
  exact h.of_eq rfl hdb rfl

theorem Inv.secondFactor {i : Nat} {user : User} {input : LoginInput}
    (hi : w.logins[i]? = some (.checked user input)) (web : Bool)
    (code challengeId rustdeskId clientUuid : String) (now : Nat) :
    (w.secondFactor m i web code challengeId rustdeskId clientUuid now user input).Inv := by
  have hread : user.totpEnabled = true ∨ Bare w.vault.db.users user := h _ (mem_of_getElem? hi)
  fun_cases Entrance.secondFactor with
  | case1 => exact h.drop i
  | case2 hoff hreq =>
    rcases hread with hon | hbare
    · rw [hoff] at hon
      cases hon
    · exact h.next i (.inr ⟨hbare, Bool.eq_false_iff.mpr hreq⟩)
  | case3 _ vault hv => exact (h.verified hv).drop i
  | case4 _ vault hv => exact ((h.verified hv).drop i).of_eq rfl rfl rfl
  | case5 hon verdict vault hne hv =>
    refine (h.verified hv).next i (.inl ?_)
    rw [verify_proves hv hne]
    exact eq_true_of_ne_false hon

theorem Inv.verifyChallenged {i : Nat} {c : AuthChallenge} {user : User} {input : LoginInput}
    (hi : w.logins[i]? = some (.confirming c user input)) (code : String) (now : Nat) :
    (w.verifyChallenged m i code now c user input).Inv := by
  have hread : user.totpEnabled = true ∨ Bare w.vault.db.users user := h _ (mem_of_getElem? hi)
  fun_cases Entrance.verifyChallenged with
  | case1 vault hv => exact (h.verified hv).drop i
  | case2 verdict vault hne hv =>
    have hdb := verify_db m w.mode user code now w.vault
    rw [hv] at hdb
    refine (h.verified hv).next i ?_
    rcases hread with hon | hbare
    · exact .inl ((verify_proves hv hne).trans hon)
    · exact .inr ⟨hdb ▸ hbare, verify_optional hv hne hbare.off⟩

theorem Inv.consumeChallenge {i : Nat} {c : AuthChallenge} {user : User} {verdict : Verdict}
    {input : LoginInput} (hi : w.logins[i]? = some (.proven c user verdict input)) (now : Nat) :
    (w.consumeChallenge i now c user verdict input).Inv := by
  have hproven : verdict.proves = true ∨
      Bare w.vault.db.users user ∧ w.mode.required user = false := h _ (mem_of_getElem? hi)
  fun_cases Entrance.consumeChallenge with
  | case2 => exact Inv.next (h.of_eq rfl rfl rfl) i hproven
  | _ => exact h.drop i

/-- A transaction on the accounts. -/
theorem Inv.run {op : UserOp} {db : Store} (hrun : op.run toLower w.vault.db = .ok db)
    (hop : ∀ st ∈ w.logins, ∀ u ∈ st.bare, op.resets u = false) :
    ({ w with vault := { w.vault with db } } : Entrance).Inv :=
  fun st hmem => (h st hmem).run hrun (hop st hmem)

theorem Inv.commit {op : UserOp} {db : Store} (hrun : op.run toLower w.vault.db = .ok db)
    (hop : ∀ st ∈ w.logins, ∀ u ∈ st.bare, op.resets u = false) : (w.commit op db).Inv := by
  have hdone := h.run hrun hop
  unfold Entrance.commit
  split
  · exact hdone.of_eq rfl rfl rfl
  · exact hdone

/-- The session is in another table, and the time of the login is another column. -/
theorem Inv.createSession {session : Session} {db : Store}
    (hdb : w.vault.db.createSession session = .ok db) (userId : String) (now : Nat) :
    ({ w with vault := { w.vault with db := db.updateLastLogin userId now } } : Entrance).Inv := by
  have hopened : ({ w with vault := { w.vault with db } } : Entrance).Inv := by
    intro st hmem
    show st.Kept db.users w.mode
    rw [createSession_users hdb]
    exact h st hmem
  have hrun : (UserOp.updateLastLogin userId now).run id db
      = .ok (db.updateLastLogin userId now) := rfl
  exact hopened.run hrun fun _ _ _ _ => rfl

/-- The step lemma. -/
theorem Inv.perform {e : EntranceEvent} (he : w.Settled e) : (w.perform toLower m e).Inv := by
  fun_cases Entrance.perform toLower m w e with
  | case2 id input user hu user' hv =>
    obtain rfl := validateLoginUser_ok hv
    exact h.begin (bare_of_read hu)
  | case4 _ _ _ _ _ _ _ user input hi => exact h.secondFactor hi _ _ _ _ _ _
  | case7 => exact h.begin trivial
  | case9 | case11 | case22 | case24 | case27 => exact h.drop _
  | case10 i c input hi user hu => exact h.next _ (bare_of_read hu)
  | case13 i code now c user input hi => exact h.verifyChallenged hi code now
  | case15 i now c user verdict input hi => exact h.consumeChallenge hi now
  | case20 => exact Inv.begin (h.of_eq rfl rfl rfl) trivial
  | case23 i q hi user hu =>
    obtain ⟨hoff, hmode⟩ := he q hi user hu
    rcases bare_of_read hu with hon | hbare
    · rw [hoff] at hon
      cases hon
    · exact h.next _ (.inr ⟨hbare, hmode⟩)
  | case26 i id now ttl route user verdict input hi db hdb => exact Inv.drop (h.createSession hdb user.id now) i
  | case29 mode => exact fun st hmem => (h st hmem).of_mode (he st hmem) mode
  | case30 op db hrun => exact h.commit hrun he
  -- neither the accounts nor a login nor the mode
  | _ => exact h.of_eq rfl rfl rfl

theorem Inv.asks (e : EntranceEvent) : w.Asks e := by
  cases e with
  | createSession i id now ttl =>
    intro route user verdict input hi _ row hrow hfactor
    have hkept : verdict.proves = true ∨
        Bare w.vault.db.users user ∧ w.mode.required user = false := h _ (mem_of_getElem? hi)
    rcases hkept with hproves | ⟨hbare, hmode⟩
    · exact hproves
    · -- the row is as the record
      obtain ⟨hrole, hoff⟩ := hbare.row row hrow
      have hsame : w.mode.required row = w.mode.required user := by
        unfold MfaMode.required
        rw [hrole]
      rw [hoff, hsame, hmode] at hfactor
      rcases hfactor with hfactor | hfactor
      · cases hfactor
      · cases hfactor
  | _ => trivial

end

/-- **When the second factor is asked for.** From a start of the API, however logins, changes of
accounts and changes of the mode interleave: if nobody polls who has a second factor or has to
have one, and neither the row nor the mode changes under a login that goes without, then everyone
who has a second factor or has to have one gets a session only with a code. -/
theorem second_factor_asked (toLower : String → String) (m : Mfa) {w : Entrance}
    (hw : w.logins = []) {events : List EntranceEvent}
    (hsettled : Throughout (perform toLower m) Settled w events) :
    Throughout (perform toLower m) Asks w events := by
  have hi : w.Inv := by
    intro st hst
    rw [hw] at hst
    cases hst
  exact hsettled.implies (fun _ _ hi he => hi.perform he) (fun _ e hi _ => hi.asks e) hi

/-! ### Three logins -/

def factorUser : User := { sampleUser with totpSecret := "secret", totpEnabled := true }

def sampleEntrance (user : User) (mode : MfaMode) : Entrance :=
  ⟨⟨{ Store.empty ⟨true, false⟩ with users := Table.empty.put user }, []⟩, mode, .empty, .empty,
    []⟩

def webInput : LoginInput := ⟨"10.0.0.1", "browser", ""⟩

def sessionsAfter (w : Entrance) (events : List EntranceEvent) : List String :=
  (events.foldl (perform id MfaDesk.sampleMfa) w).vault.db.sessions.rows.map Session.userId

/-- A user with a second factor logs in with a code. Before the session, the mode becomes milder
and the second factor is turned off; after it, the user logs in through the provider. -/
def codeThenPoll : List EntranceEvent :=
  [.credentials "user-1" webInput, .secondFactor 0 true "secret" "" "" "" 10, .setMode .optional,
    .account (.setUserTOTP "user-1" "" false 15), .createSession 0 "session-1" 20 3600000,
    .oidcAuth ⟨"state", "poll", "", "", "", "", "", "", "", 30, 300000, 0⟩,
    .oidcCallback "state" "user-1" "" 40, .oidcConsume "state" 50, .oidcRead 0,
    .createSession 0 "session-2" 60 3600000]

theorem code_login_asked :
    sessionsAfter (sampleEntrance factorUser .requiredForAllUsers) codeThenPoll
      = ["user-1", "user-1"] ∧
    Throughout (perform id MfaDesk.sampleMfa) Asks (sampleEntrance factorUser .requiredForAllUsers)
      codeThenPoll := by
  refine ⟨by decide, second_factor_asked id MfaDesk.sampleMfa rfl ?_⟩
  -- while the first login waits for its session, its record has the second factor
  have hwaits : ∀ st ∈ [LoginStage.accepted .password factorUser .totp webInput],
      st.bare = none := by
    intro st hst
    rw [mem_singleton.mp hst]
    rfl
  refine throughout_cons.mpr ⟨trivial, throughout_cons.mpr ⟨trivial, throughout_cons.mpr ⟨?_,
    throughout_cons.mpr ⟨?_, throughout_cons.mpr ⟨trivial, throughout_cons.mpr ⟨trivial,
    throughout_cons.mpr ⟨trivial, throughout_cons.mpr ⟨trivial, throughout_cons.mpr ⟨?_,
    throughout_cons.mpr ⟨trivial, throughout_nil _ _⟩⟩⟩⟩⟩⟩⟩⟩⟩⟩
  · exact fun st hst _ => hwaits st hst
  · intro st hst u hu
    rw [hwaits st hst] at hu
    cases hu
  · intro q hq row hrow
    obtain rfl := LoginStage.polled.inj (Option.some.inj hq)
    cases hrow
    exact ⟨rfl, rfl⟩

/-- A user with a second factor logs in through the provider. -/
def pollLogin : List EntranceEvent :=
  [.oidcAuth ⟨"state", "poll", "", "", "", "", "", "", "", 0, 300000, 0⟩,
    .oidcCallback "state" "user-1" "" 10, .oidcConsume "state" 20, .oidcRead 0,
    .createSession 0 "session-1" 30 3600000]

/-- The second factor is turned on, or demanded, after the password was found right. -/
def overtakenLogin (change : EntranceEvent) : List EntranceEvent :=
  [.credentials "user-1" webInput, .secondFactor 0 true "" "" "" "" 10, change,
    .createSession 0 "session-1" 30 3600000]

theorem session_without_code :
    sessionsAfter (sampleEntrance factorUser .requiredForAllUsers) pollLogin = ["user-1"] ∧
    sessionsAfter (sampleEntrance sampleUser .optional)
      (overtakenLogin (.account (.setUserTOTP "user-1" "secret" true 20))) = ["user-1"] ∧
    sessionsAfter (sampleEntrance sampleUser .optional)
      (overtakenLogin (.setMode .requiredForAllUsers)) = ["user-1"] ∧
    ¬ Throughout (perform id MfaDesk.sampleMfa) Asks
      (sampleEntrance factorUser .requiredForAllUsers) pollLogin := by
  refine ⟨by decide, by decide, by decide, fun h => ?_⟩
  have hasks := h (pollLogin.take 4) (.createSession 0 "session-1" 30 3600000) (prefix_refl _)
  have hproves := hasks .oidc factorUser .notAsked ⟨"", "", ""⟩ rfl (by decide) factorUser
    (by decide) (.inl rfl)
  cases hproves

end Entrance

end RemoteControl.Sync
