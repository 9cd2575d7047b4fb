import RemoteControl.Sync.LoginSteps

/-!
# Logins from beginning to end

`Hall` follows the logins of `Entrance`: what each has presented, whether it has ended, and which
sessions were opened. A login may also be abandoned at any point, when a statement fails or the
client is gone.

> A recovery code is deleted when it is verified. What comes after, the challenge and the session,
> may still go wrong.

Two requests may verify two codes for one challenge; only one of them gets the challenge, and the
code of the other is gone.
-/

namespace RemoteControl.Sync

open Lib

variable {w : Entrance} {st : LoginStage} {i : Nat}

/-- What a login has presented. -/
inductive Origin
  | password
  | challenge (id : String)
  | poll (code : String)
deriving DecidableEq, Repr

structure Opened where
  origin : Origin
  userId : String
  verdict : Verdict
deriving DecidableEq, Repr

/-- What a login that the event begins presents. -/
def Entrance.presents (w : Entrance) : EntranceEvent → Option Origin
  | .credentials _ _ => some .password
  | .findChallenge id _ _ => some (.challenge id)
  | .oidcConsume state _ => (w.requests.get? state).map fun q => .poll q.pollCode
  | _ => none

structure Hall where
  entrance : Entrance
  /-- What the logins have presented, in their order. -/
  origins : List Origin
  opened : List Opened
  /-- Everything that the tables ever held. -/
  challenges : List AuthChallenge
  requests : List OidcAuthRequest
  ids : List String

inductive HallEvent
  | step (e : EntranceEvent)
  | abandon (i : Nat)

namespace HallEvent

def login? : HallEvent → Option Nat
  | .step e => e.login?
  | .abandon i => some i

/-- Changes that no login makes. -/
def elsewhere : HallEvent → Bool
  | .step (.setMode _) | .step (.account _) | .step (.replaceCodes ..) => true
  | _ => false

end HallEvent

namespace Hall

variable (toLower : String → String) (m : Mfa)

def opens (h : Hall) : EntranceEvent → Option Opened
  | .createSession i id now ttl =>
    match h.entrance.logins[i]? with
    | some (.accepted _ user verdict input) =>
      match h.entrance.vault.db.createSession (newSession id user input now ttl) with
      | .ok _ => some ⟨h.origins.getD i .password, user.id, verdict⟩
      | .error _ => none
    | _ => none
  | _ => none

/-- What the logins have presented afterwards. -/
def follow (h : Hall) (e : EntranceEvent) (w : Entrance) : List Origin :=
  if h.entrance.logins.length < w.logins.length then
    h.origins ++ (h.entrance.presents e).toList
  else if w.logins.length < h.entrance.logins.length then
    e.login?.elim h.origins h.origins.eraseIdx
  else h.origins

/-- The hall after an event that makes `w` of the entrance. -/
def after (h : Hall) (e : EntranceEvent) (w : Entrance) : Hall where
  entrance := w
  origins := h.follow e w
  opened := (h.opens e).toList ++ h.opened
  challenges := w.challenges.rows ++ h.challenges
  requests := w.requests.rows ++ h.requests
  ids := w.vault.db.users.rows.map User.id ++ h.ids

def perform (h : Hall) : HallEvent → Hall
  | .step e => h.after e (h.entrance.perform toLower m e)
  | .abandon i => { h with entrance := h.entrance.drop i, origins := h.origins.eraseIdx i }

end Hall

/-! ## Recovery codes -/

/-- The user of whom the login has used a recovery code. -/
def LoginStage.recovered : LoginStage → Option User
  | .proven _ user .recovery _ => some user
  | .accepted _ user .recovery _ => some user
  | _ => none

namespace Hall

variable (toLower : String → String) (m : Mfa)

/-- A login removes a recovery code only to go on with it, and ends only with a session when it has
removed one. -/
structure Frugal (h : Hall) (e : HallEvent) : Prop where
  removed : e.elsewhere = false → ∀ c ∈ h.entrance.vault.codes,
    c ∉ (h.perform toLower m e).entrance.vault.codes →
    ∃ i st user, e.login? = some i ∧ (h.perform toLower m e).entrance.logins[i]? = some st ∧
      st.recovered = some user ∧ user.id = c.1
  ended : ∀ i st user, e.login? = some i → h.entrance.logins[i]? = some st →
    st.recovered = some user →
    (h.perform toLower m e).entrance.logins.length < h.entrance.logins.length →
    ∃ origin, (h.perform toLower m e).opened = ⟨origin, user.id, .recovery⟩ :: h.opened

/-- Nothing comes in the way of a login that has used a recovery code: its challenge is there and
has not expired, its session can be opened, and it is not abandoned. -/
def Unhindered (h : Hall) : HallEvent → Prop
  | .step (.consumeChallenge i now) => ∀ c user input,
    h.entrance.logins[i]? = some (.proven c user .recovery input) →
    ∃ d, h.entrance.challenges.get? c.id = some d ∧ now < d.expiresAt
  | .step (.createSession i id _ _) => ∀ route user input,
    h.entrance.logins[i]? = some (.accepted route user .recovery input) →
    h.entrance.vault.db.sessions.get? id = none ∧
      (h.entrance.vault.db.users.get? user.id).isSome = true
  | .abandon i => ∀ st, h.entrance.logins[i]? = some st → st.recovered = none
  | _ => True

variable {toLower m} {h : Hall}

theorem next_getElem? {st' : LoginStage} (hi : w.logins[i]? = some st) :
    (w.next i st').logins[i]? = some st' := by
  have hlt : i < w.logins.length := (List.getElem?_eq_some_iff.mp hi).1
  exact List.getElem?_set_self hlt

/-- **Who removes a recovery code** goes on with it. This holds of every event. -/
theorem removed_goes_on (h : Hall) (e : HallEvent) (he : e.elsewhere = false)
    {c : String × String} (hc : c ∈ h.entrance.vault.codes)
    (hgone : c ∉ (h.perform toLower m e).entrance.vault.codes) :
    ∃ i st user, e.login? = some i ∧ (h.perform toLower m e).entrance.logins[i]? = some st ∧
      st.recovered = some user ∧ user.id = c.1 := by
  cases e with
  | abandon i => exact absurd hc hgone
  | step e =>
    have hmoves : h.entrance.Moves toLower e (h.perform toLower m (.step e)).entrance :=
      Entrance.perform_moves e
    generalize (h.perform toLower m (.step e)).entrance = w at hmoves hgone ⊢
    cases hmoves with
    | mode | replaced | committed => cases he
    | @passed i user input verdict vault e hi' hi hv =>
      obtain ⟨rfl, hid⟩ := hv.codes c hc hgone
      exact ⟨i, _, user, hi', next_getElem? hi, rfl, hid⟩
    | @proven i ch user input verdict vault code now hi hne hv =>
      obtain ⟨rfl, hid⟩ := hv.codes c hc hgone
      exact ⟨i, _, user, rfl, next_getElem? hi, rfl, hid⟩
    | failed _ _ _ _ hcodes => exact absurd (hcodes c hc) hgone
    | issued _ _ _ _ _ hcodes => exact absurd (hcodes c hc) hgone
    | _ => exact absurd hc hgone

theorem drop_length_lt (hi : w.logins[i]? = some st) :
    (w.drop i).logins.length < w.logins.length := by
  have hlt : i < w.logins.length := (List.getElem?_eq_some_iff.mp hi).1
  show (w.logins.eraseIdx i).length < _
  rw [List.length_eraseIdx_of_lt hlt]
  omega

theorem createSession_ok_iff {s : Store} {v : Session} :
    (∃ s', s.createSession v = .ok s') ↔
      s.sessions.get? v.id = none ∧ (s.users.get? v.userId).isSome = true := by
  unfold Store.createSession
  cases hs : s.sessions.get? v.id with
  | some _ => simp
  | none =>
    cases hu : s.users.get? v.userId with
    | none => simp
    | some _ => simp

theorem ended_of_unhindered {e : HallEvent} (he : h.Unhindered e) {user : User}
    (hlogin : e.login? = some i) (hi : h.entrance.logins[i]? = some st)
    (hst : st.recovered = some user)
    (hlt : (h.perform toLower m e).entrance.logins.length < h.entrance.logins.length) :
    ∃ origin, (h.perform toLower m e).opened = ⟨origin, user.id, .recovery⟩ :: h.opened := by
  cases e with
  | abandon j =>
    cases hlogin
    rw [he st hi] at hst
    cases hst
  | step e =>
    show ∃ origin, (h.opens e).toList ++ h.opened = _
    have hmoves : h.entrance.Moves toLower e (h.perform toLower m (.step e)).entrance :=
      Entrance.perform_moves e
    generalize (h.perform toLower m (.step e)).entrance = w at hmoves hlt
    cases hmoves with
    | @failed e j st' vault he' hi' hconcerns hdb hcodes hopens hconsumes =>
      obtain rfl : j = i := Option.some.inj (he'.symm.trans hlogin)
      obtain rfl : st' = st := Option.some.inj (hi'.symm.trans hi)
      cases st' with
      | proven c user' verdict input =>
        cases e with
        | consumeChallenge k now =>
          cases he'
          cases verdict with
          | recovery => exact absurd (he c user' input hi) (hconsumes now c user' _ input rfl rfl)
          | _ => cases hst
        | _ => cases hconcerns
      | accepted route user' verdict input =>
        cases e with
        | createSession k id now ttl =>
          cases he'
          cases verdict with
          | recovery =>
            exact absurd (createSession_ok_iff.mpr (he route user' input hi))
              (hopens id now ttl route user' _ input rfl rfl)
          | _ => cases hst
        | _ => cases hconcerns
      | _ => cases hst
    | @issued i' user' input vault web code challengeId rustdeskId clientUuid now hi' =>
      cases hlogin
      rw [hi] at hi'
      cases hi'
      cases hst
    | @opened j route user' verdict input id now ttl db hi' hdb =>
      cases hlogin
      obtain rfl : st = .accepted route user' verdict input := Option.some.inj (hi.symm.trans hi')
      cases verdict with
      | recovery =>
        cases hst
        refine ⟨h.origins.getD i .password, ?_⟩
        simp only [opens, hi, hdb]
        rfl
      | _ => cases hst
    | committed hrun =>
      rw [Entrance.commit_logins] at hlt
      exact absurd hlt (Nat.lt_irrefl _)
    | checked | found | polled =>
      replace hlt : (h.entrance.logins ++ [_]).length < _ := hlt
      rw [List.length_append] at hlt
      omega
    | passed | confirming | proven | consumed | accepted =>
      replace hlt : (h.entrance.logins.set _ _).length < _ := hlt
      rw [List.length_set] at hlt
      exact absurd hlt (Nat.lt_irrefl _)
    | _ => exact absurd hlt (Nat.lt_irrefl _)

/-- **One event.** -/
theorem frugal_iff_unhindered (h : Hall) (e : HallEvent) :
    h.Frugal toLower m e ↔ h.Unhindered e := by
  constructor
  · intro hf
    have hlength : ∀ {i : Nat} {st : LoginStage} {user : User}, e.login? = some i →
        h.entrance.logins[i]? = some st → st.recovered = some user →
        (h.perform toLower m e).opened = h.opened →
        ¬ (h.perform toLower m e).entrance.logins.length < h.entrance.logins.length := by
      intro i st user hlogin hi hst hopened hlt
      obtain ⟨origin, hmore⟩ := hf.ended i st user hlogin hi hst hlt
      rw [hopened] at hmore
      have := congrArg List.length hmore
      simp at this
    cases e with
    | abandon i =>
      intro st hi
      by_contra hst
      obtain ⟨user, hst⟩ := Option.ne_none_iff_exists'.mp hst
      exact hlength rfl hi hst rfl (drop_length_lt hi)
    | step e =>
      cases e with
      | consumeChallenge i now =>
        intro c user input hi
        by_contra hnot
        have hdrop :
            h.entrance.perform toLower m (.consumeChallenge i now) = h.entrance.drop i := by
          simp only [Entrance.perform, hi]
          unfold Entrance.consumeChallenge
          split
          · rfl
          · next d hd => exact if_neg fun hlt => hnot ⟨d, hd, hlt⟩
        refine hlength rfl hi rfl rfl ?_
        show (h.entrance.perform toLower m (.consumeChallenge i now)).logins.length < _
        rw [hdrop]
        exact drop_length_lt hi
      | createSession i id now ttl =>
        intro route user input hi
        refine createSession_ok_iff (v := newSession id user input now ttl).mp ?_
        by_contra hnot
        cases hdb : h.entrance.vault.db.createSession (newSession id user input now ttl) with
        | ok db => exact hnot ⟨db, hdb⟩
        | error err =>
          refine hlength rfl hi rfl ?_ ?_
          · show (h.opens _).toList ++ h.opened = _
            simp only [opens, hi, hdb]
            rfl
          · show (h.entrance.perform toLower m (.createSession i id now ttl)).logins.length < _
            simp only [Entrance.perform, hi, hdb]
            exact drop_length_lt hi
      | _ => trivial
  · intro hu
    exact ⟨fun he c hc hgone => removed_goes_on h e he hc hgone,
      fun i st user hlogin hi hst hlt => ended_of_unhindered hu hlogin hi hst hlt⟩

/-- **When recovery codes are not wasted**, in every run: a code is removed only by a login that
gets a session with it, if and only if nothing comes in the way of a login that has removed one. -/
theorem recovery_kept_iff (toLower : String → String) (m : Mfa) (h : Hall)
    (events : List HallEvent) :
    Throughout (perform toLower m) (Frugal toLower m) h events ↔
      Throughout (perform toLower m) Unhindered h events :=
  throughout_congr (I := fun _ => True) (fun _ _ _ _ => trivial)
    (fun h e _ => frugal_iff_unhindered h e) trivial events

/-! ### Two requests, one challenge -/

/-- A user with two recovery codes who has been given a challenge. -/
def twoCodes : Hall :=
  ⟨{ sampleEntrance with
      challenges := Table.empty.insert ⟨"challenge", "user-1", 1, 0, 180000, "", "", 0, 0⟩ },
    [], [], [], [], []⟩
where
  sampleEntrance : Entrance :=
    let w := Entrance.sampleEntrance Entrance.factorUser .optional
    { w with vault := { w.vault with codes := [("user-1", "first"), ("user-1", "second")] } }

/-- Both requests find their code before one of them takes the challenge. -/
def sharedChallenge : List HallEvent :=
  [.step (.findChallenge "challenge" Entrance.webInput 10),
    .step (.findChallenge "challenge" Entrance.webInput 10),
    .step (.readChallenged 0), .step (.readChallenged 1), .step (.verifyChallenged 0 "first" 10),
    .step (.verifyChallenged 1 "second" 10), .step (.consumeChallenge 0 10),
    .step (.createSession 0 "session-1" 20 3600000), .step (.consumeChallenge 0 10)]

theorem second_code_wasted :
    (sharedChallenge.foldl (perform id MfaDesk.sampleMfa) twoCodes).opened
        = [⟨.challenge "challenge", "user-1", .recovery⟩] ∧
      (sharedChallenge.foldl (perform id MfaDesk.sampleMfa) twoCodes).entrance.vault.codes = [] ∧
      (sharedChallenge.foldl (perform id MfaDesk.sampleMfa) twoCodes).entrance.logins.length = 0 ∧
      ¬ Throughout (perform id MfaDesk.sampleMfa) (Frugal id MfaDesk.sampleMfa) twoCodes
        sharedChallenge := by
  refine ⟨by decide, by decide, by decide, fun h => ?_⟩
  have hlast := h (sharedChallenge.take 8) (.step (.consumeChallenge 0 10)) (List.prefix_refl _)
  obtain ⟨d, hd, -⟩ := (frugal_iff_unhindered _ _).mp hlast _ Entrance.factorUser _ rfl
  cases hd

end Hall

end RemoteControl.Sync
