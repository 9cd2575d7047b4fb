import RemoteControl.Sync.SecondFactor

/-!
# What an event does to the logins

An event of `Entrance` begins a login, takes one a step further, ends one, or changes something
else.
`Moves` lists all that can happen, each with what is known of the state it happens in, so that no
proof about runs has to look at the handlers again.
-/

namespace RemoteControl.Sync

open Lib

variable {c : AuthChallenge} {e : EntranceEvent} {input : LoginInput} {i : Nat} {user : User}
  {verdict : Verdict}

def EntranceEvent.login? : EntranceEvent → Option Nat
  | .secondFactor i .. | .readChallenged i | .verifyChallenged i .. | .consumeChallenge i _
  | .oidcRead i | .createSession i .. => some i
  | _ => none

/-- The event is the next statement of a login that has come so far. -/
def EntranceEvent.concerns : EntranceEvent → LoginStage → Bool
  | .secondFactor .., .checked .. => true
  | .readChallenged _, .challenged .. => true
  | .verifyChallenged .., .confirming .. => true
  | .consumeChallenge .., .proven .. => true
  | .oidcRead _, .polled _ => true
  | .createSession .., .accepted .. => true
  | _, _ => false

/-- What is known when a second factor has been looked at: the database is as it was, and at most
one recovery code is gone, of the user, which the verdict then says. -/
structure Verified (v : Vault) (user : User) (verdict : Verdict) (v' : Vault) : Prop where
  db : v'.db = v.db
  proves : verdict ≠ .invalid → verdict.proves = user.totpEnabled
  codes : ∀ c ∈ v.codes, c ∉ v'.codes → verdict = .recovery ∧ user.id = c.1

theorem verified_of_verify {m : Mfa} {mode : MfaMode} {code : String} {now : Nat} {v v' : Vault}
    (h : m.verify mode user code now v = (verdict, v')) : Verified v user verdict v' := by
  refine ⟨?_, verify_proves h, fun c hc hgone => ?_⟩
  · have hdb := verify_db m mode user code now v
    rwa [h] at hdb
  · unfold Mfa.verify at h
    split at h
    · cases h
      exact absurd hc hgone
    · split at h
      · cases h
        exact absurd hc hgone
      · cases h
        have heq : c = (user.id, m.recoveryHash code) := by
          by_contra hne
          exact hgone (List.mem_filter.mpr ⟨hc, by simpa using hne⟩)
        have hmem : (user.id, m.recoveryHash code) ∈ v.codes := heq ▸ hc
        refine ⟨?_, by rw [heq]⟩
        show (if decide _ = true then _ else _) = Verdict.recovery
        rw [if_pos (decide_eq_true hmem)]

/-- A second factor that is not the right one changes nothing. -/
theorem Verified.kept {v v' : Vault} (h : Verified v user .invalid v') :
    v'.db = v.db ∧ ∀ c ∈ v.codes, c ∈ v'.codes := by
  refine ⟨h.db, fun c hc => ?_⟩
  by_contra hgone
  cases (h.codes c hc hgone).1

/-- Nobody has looked. -/
theorem Verified.notAsked (v : Vault) (h : user.totpEnabled = false) :
    Verified v user .notAsked v :=
  ⟨rfl, fun _ => h.symm, fun _ hc hgone => absurd hc hgone⟩

namespace Entrance

theorem state_completed (userId error : String) (q : OidcAuthRequest) :
    ({ q with userId, error } : OidcAuthRequest).state = q.state := rfl

/-- All that an event can do. -/
inductive Moves (toLower : String → String) (w : Entrance) : EntranceEvent → Entrance → Prop
  | idle {e : EntranceEvent}
      (hquiet : ∀ i st, e.login? = some i → w.logins[i]? = some st → e.concerns st = false) :
      Moves toLower w e w
  | checked {id : String} {user : User} (input : LoginInput)
      (hu : w.vault.db.users.get? user.id = some user) :
      Moves toLower w (.credentials id input) (w.begin (.checked user input))
  | found {id : String} {c : AuthChallenge} (input : LoginInput) (now : Nat)
      (hc : w.challenges.get? id = some c) :
      Moves toLower w (.findChallenge id input now) (w.begin (.challenged c input))
  | polled {state : String} {q : OidcAuthRequest} (now : Nat)
      (hq : w.requests.get? state = some q) (hlink : q.linkUserId = "") :
      Moves toLower w (.oidcConsume state now)
        ({ w with requests := w.requests.remove state }.begin (.polled q))
  | failed {e : EntranceEvent} {i : Nat} {st : LoginStage} {vault : Vault} (he : e.login? = some i)
      (hi : w.logins[i]? = some st) (hst : e.concerns st = true) (hdb : vault.db = w.vault.db)
      (hcodes : ∀ c ∈ w.vault.codes, c ∈ vault.codes)
      (hopens : ∀ id now ttl route user verdict input, e = .createSession i id now ttl →
        st = .accepted route user verdict input →
        ¬ ∃ db, w.vault.db.createSession (newSession id user input now ttl) = .ok db)
      (hconsumes : ∀ now c user verdict input, e = .consumeChallenge i now →
        st = .proven c user verdict input →
        ¬ ∃ d, w.challenges.get? c.id = some d ∧ now < d.expiresAt) :
      Moves toLower w e ({ w with vault }.drop i)
  | issued {i : Nat} {user : User} {input : LoginInput} {vault : Vault} (web : Bool)
      (code : String) {challengeId rustdeskId clientUuid : String} {now : Nat}
      (hi : w.logins[i]? = some (.checked user input)) (hon : user.totpEnabled = true)
      (hdb : vault.db = w.vault.db) (hcodes : ∀ c ∈ w.vault.codes, c ∈ vault.codes) :
      Moves toLower w (.secondFactor i web code challengeId rustdeskId clientUuid now)
        (({ w with vault }.drop i).createAuthChallenge ⟨challengeId, user.id, user.tokenVersion,
          now, now + 180000, rustdeskId, clientUuid, 0, 0⟩)
  | passed {i : Nat} {user : User} {input : LoginInput} {verdict : Verdict} {vault : Vault}
      {e : EntranceEvent} (he : e.login? = some i) (hi : w.logins[i]? = some (.checked user input))
      (hv : Verified w.vault user verdict vault) :
      Moves toLower w e ({ w with vault }.next i (.accepted .password user verdict input))
  | confirming {i : Nat} {c : AuthChallenge} {user : User} {input : LoginInput}
      (hi : w.logins[i]? = some (.challenged c input))
      (hu : w.vault.db.users.get? c.userId = some user)
      (hversion : user.tokenVersion = c.tokenVersion) :
      Moves toLower w (.readChallenged i) (w.next i (.confirming c user input))
  | proven {i : Nat} {c : AuthChallenge} {user : User} {input : LoginInput} {verdict : Verdict}
      {vault : Vault} (code : String) (now : Nat)
      (hi : w.logins[i]? = some (.confirming c user input)) (hne : verdict ≠ .invalid)
      (hv : Verified w.vault user verdict vault) :
      Moves toLower w (.verifyChallenged i code now)
        ({ w with vault }.next i (.proven c user verdict input))
  | consumed {i : Nat} {c : AuthChallenge} {user : User} {input input' : LoginInput}
      {verdict : Verdict} {now : Nat} {d : AuthChallenge}
      (hi : w.logins[i]? = some (.proven c user verdict input))
      (hd : w.challenges.get? c.id = some d) (hnow : now < d.expiresAt) :
      Moves toLower w (.consumeChallenge i now)
        ({ w with challenges := w.challenges.remove c.id }.next i
          (.accepted .challenge user verdict input'))
  | accepted {i : Nat} {q : OidcAuthRequest} {user : User} {input : LoginInput}
      (hi : w.logins[i]? = some (.polled q)) (hu : w.vault.db.users.get? q.userId = some user) :
      Moves toLower w (.oidcRead i) (w.next i (.accepted .oidc user .notAsked input))
  | opened {i : Nat} {route : Route} {user : User} {verdict : Verdict} {input : LoginInput}
      {id : String} {now ttl : Nat} {db : Store}
      (hi : w.logins[i]? = some (.accepted route user verdict input))
      (hdb : w.vault.db.createSession (newSession id user input now ttl) = .ok db) :
      Moves toLower w (.createSession i id now ttl)
        ({ w with vault := { w.vault with db := db.updateLastLogin user.id now } }.drop i)
  | requested (q : OidcAuthRequest) :
      Moves toLower w (.oidcAuth q) { w with
        requests := (w.requests.deleteWhere fun p => p.expiresAt ≤ q.createdAt).insert
          { q with userId := "", error := "" } }
  | completed (state userId error : String) (now : Nat) :
      Moves toLower w (.oidcCallback state userId error now) { w with
        requests := w.requests.updateWhere
          (fun q => q.state = state && q.userId = "" && q.error = "" && now < q.expiresAt)
          (fun q => { q with userId, error }) (state_completed userId error) }
  | mode (mode : MfaMode) : Moves toLower w (.setMode mode) { w with mode }
  | replaced (userId : String) (hashes : List String) :
      Moves toLower w (.replaceCodes userId hashes)
        { w with vault := w.vault.replaceMFARecoveryCodes userId hashes }
  | committed {op : UserOp} {db : Store} (hrun : op.run toLower w.vault.db = .ok db) :
      Moves toLower w (.account op) (w.commit op db)

section

variable {toLower : String → String} {m : Mfa} {w : Entrance}

/-- An event that is about no login in progress changes nothing. -/
theorem Moves.quiet (he : e.login? = none) : Moves toLower w e w := by
  refine .idle fun i st hi _ => ?_
  rw [he] at hi
  cases hi

theorem Moves.unconcerned (he : e.login? = some i)
    (h : ∀ st, w.logins[i]? = some st → e.concerns st = false) : Moves toLower w e w := by
  refine .idle fun j st hj hst => ?_
  cases he.symm.trans hj
  exact h st hst

theorem moves_secondFactor (hi : w.logins[i]? = some (.checked user input)) (web : Bool)
    (code challengeId rustdeskId clientUuid : String) (now : Nat) :
    Moves toLower w (.secondFactor i web code challengeId rustdeskId clientUuid now)
      (w.secondFactor m i web code challengeId rustdeskId clientUuid now user input) := by
  have hkept : ∀ {vault : Vault}, m.verify w.mode user code now w.vault = (.invalid, vault) →
      vault.db = w.vault.db ∧ ∀ c ∈ w.vault.codes, c ∈ vault.codes :=
    fun hv => (verified_of_verify hv).kept
  fun_cases Entrance.secondFactor with
  | case1 => exact .failed rfl hi rfl rfl (fun _ hc => hc) (by simp) (by simp)
  | case2 hoff =>
    show Moves toLower w _ ({ w with vault := w.vault }.next i _)
    exact .passed rfl hi (.notAsked _ hoff)
  | case3 _ vault hv => exact .failed rfl hi rfl (hkept hv).1 (hkept hv).2 (by simp) (by simp)
  | case4 hon vault hv => exact .issued web code hi (by simpa using hon) (hkept hv).1 (hkept hv).2
  | case5 _ verdict vault _ hv => exact .passed rfl hi (verified_of_verify hv)

theorem moves_verifyChallenged (hi : w.logins[i]? = some (.confirming c user input))
    (code : String) (now : Nat) :
    Moves toLower w (.verifyChallenged i code now)
      (w.verifyChallenged m i code now c user input) := by
  fun_cases Entrance.verifyChallenged m w i code now c user input with
  | case1 vault hv =>
    obtain ⟨hdb, hcodes⟩ := (verified_of_verify hv).kept
    exact .failed rfl hi rfl hdb hcodes (by simp) (by simp)
  | case2 verdict vault hne hv => exact .proven code now hi hne (verified_of_verify hv)

theorem moves_consumeChallenge (hi : w.logins[i]? = some (.proven c user verdict input))
    (now : Nat) :
    Moves toLower w (.consumeChallenge i now) (w.consumeChallenge i now c user verdict input) := by
  have hdrop : (¬ ∃ d, w.challenges.get? c.id = some d ∧ now < d.expiresAt) →
      Moves toLower w (.consumeChallenge i now) (w.drop i) := by
    intro hnot
    refine .failed rfl hi rfl rfl (fun _ hc => hc) (by simp) fun _ _ _ _ _ he hst => ?_
    cases he
    cases hst
    exact hnot
  fun_cases Entrance.consumeChallenge w i now c user verdict input with
  | case1 hnone => exact hdrop (by simp [hnone])
  | case2 d hd hnow => exact .consumed hi hd hnow
  | case3 d hd hnow => exact hdrop (by simpa [hd] using hnow)

theorem perform_moves (e : EntranceEvent) : Moves toLower w e (w.perform toLower m e) := by
  fun_cases Entrance.perform toLower m w e with
  | case2 id input user hu user' hv =>
    obtain rfl := validateLoginUser_ok hv
    refine .checked input ?_
    rw [Table.get?_key hu]
    exact hu
  | case4 _ _ _ _ _ _ _ user input hi => exact moves_secondFactor hi _ _ _ _ _ _
  | case7 id input now d hc => exact .found input now hc
  | case9 i c input hi | case11 i c input hi => exact .failed rfl hi rfl rfl (fun _ hc => hc) (by simp) (by simp)
  | case10 i c input hi user hu hok => exact .confirming hi hu hok.2
  | case13 i code now c user input hi => exact moves_verifyChallenged hi code now
  | case15 i now c user verdict input hi => exact moves_consumeChallenge hi now
  | case17 q => exact .requested q
  | case18 state userId error now => exact .completed state userId error now
  | case20 state now q hq hok => exact .polled now hq hok.1
  | case22 i q hi | case24 i q hi => exact .failed rfl hi rfl rfl (fun _ hc => hc) (by simp) (by simp)
  | case23 i q hi user hu => exact .accepted hi hu
  | case26 i id now ttl route user verdict input hi db hdb => exact .opened hi hdb
  | case27 i id now ttl route user verdict input hi _ hdb =>
    refine .failed rfl hi rfl rfl (fun _ hc => hc) (fun _ _ _ _ _ _ _ he hst => ?_) (by simp)
    cases he
    cases hst
    rintro ⟨db, hok⟩
    rw [hdb] at hok
    cases hok
  | case29 mode => exact .mode mode
  | case30 op db hrun => exact .committed hrun
  | case32 userId hashes => exact .replaced userId hashes
  -- the login has not come so far
  | case5 _ _ _ _ _ _ _ hnot | case12 _ hnot | case14 _ _ _ hnot | case16 _ _ hnot
  | case25 _ hnot | case28 _ _ _ _ hnot =>
    refine .unconcerned rfl fun st hst => ?_
    cases st <;> first | rfl | grind
  | _ => exact .quiet rfl

end

end Entrance

end RemoteControl.Sync
