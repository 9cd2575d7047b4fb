import RemoteControl.Lib.Alongside
import RemoteControl.Sync.Hall
import RemoteControl.Sync.LoginRaces

/-!
# One session for a challenge, one for a poll code

A challenge is deleted by the login that has answered it, a request of an OIDC login by the login
that polls it, and the row that a `DELETE … RETURNING` gives to one statement it gives to no other.

> What was issued once is in one place: in its table, with one login, or spent on one session.

The number of these places is the quantity that no event raises, but the one that issues something
new. That a session is of the user the challenge was issued for rests on the versions: a record with
the version of the challenge has the second factor still turned on, so a code was asked for.
-/

namespace RemoteControl.Sync

open Lib List Table

variable {c : AuthChallenge} {w w' : Entrance} {e : EntranceEvent} {input : LoginInput}
  {st st' : LoginStage} {i : Nat} {o : Origin} {u user : User} {verdict : Verdict}

/-! ## Versions and the second factor -/

/-- The row of the user is not older than a record of this version, and if it is as old, its second
factor is as in the record. -/
def Dated (users : Table User.id) (id : String) (version : Int64) (on : Bool) : Prop :=
  ∀ row, users.get? id = some row →
    version ≤ row.tokenVersion ∧ (row.tokenVersion = version → row.totpEnabled = on)

theorem Dated.of_row {users : Table User.id} {id : String} (h : users.get? id = some u) :
    Dated users id u.tokenVersion u.totpEnabled := by
  intro row hrow
  obtain rfl := Option.some.inj (h.symm.trans hrow)
  exact ⟨Int64.le_refl _, fun _ => rfl⟩

/-- A transaction that changes the second factor raises the version. -/
theorem UserOp.totp_applied (toLower : String → String) {op : UserOp} (h : op.raises u = false) :
    (op.applied toLower u).totpEnabled = u.totpEnabled := by
  cases op with
  | setUserTOTP id totpSecret enabled now =>
    simp only [raises, Bool.and_eq_false_iff, decide_eq_false_iff_not, ne_eq, not_not] at h
    simp only [applied]
    split
    next hid => exact (h.resolve_left (not_not.mpr hid)).symm
    next => rfl
  | createUser | createRegisteredUser | deleteUser => rfl
  | _ =>
    simp only [applied]
    split <;> rfl

section

variable {toLower : String → String} {op : UserOp} {s s' : Store} {id : String} {version : Int64}
  {on : Bool}

theorem Dated.run (h : Dated s.users id version on) (hrun : op.run toLower s = .ok s')
    (hfits : op.Fits s) (hnew : op.creates ≠ some id) : Dated s'.users id version on := by
  intro row' hrow'
  obtain ⟨u, hu, rfl⟩ | hcreated := UserOp.run_applied hrun hrow'
  · obtain ⟨hle, hon⟩ := h u hu
    rw [UserOp.version_applied]
    have hstep : u.tokenVersion ≤ op.version u := UserOp.le_version hfits (mem_of_get? hu)
    refine ⟨Int64.le_trans hle hstep, fun heq => ?_⟩
    cases hraises : op.raises u with
    | false =>
      rw [UserOp.version, hraises] at heq
      rw [UserOp.totp_applied toLower hraises]
      exact hon heq
    | true =>
      -- the version has been raised above that of the record
      have hlt : u.tokenVersion < op.version u := by
        rw [UserOp.version, if_pos hraises]
        exact lt_next_version (hfits u (mem_of_get? hu) hraises)
      rw [heq] at hlt
      exact (Int64.lt_irrefl (Int64.lt_of_lt_of_le hlt hle)).elim
  · exact absurd hcreated hnew

theorem Dated.updateLastLogin (h : Dated s.users id version on) (user : String) (now : Nat) :
    Dated (s.updateLastLogin user now).users id version on := by
  have hrun : (UserOp.updateLastLogin user now).run (fun name => name) s
      = .ok (s.updateLastLogin user now) := rfl
  exact h.run hrun (fun _ _ hraises => nomatch hraises) fun hc => nomatch hc

theorem Dated.of_db {v v' : Vault} (h : Dated v.db.users id version on) (hdb : v'.db = v.db) :
    Dated v'.db.users id version on := by
  rw [hdb]
  exact h

end

/-- Transactions apart that are not to be expected, a record that was dated stays so. -/
theorem Entrance.Moves.dated {toLower : String → String} (h : w.Moves toLower e w') {id : String}
    {version : Int64} {on : Bool}
    (he : ∀ op, e = .account op → op.Fits w.vault.db ∧ op.creates ≠ some id)
    (hd : Dated w.vault.db.users id version on) : Dated w'.vault.db.users id version on := by
  cases h with
  | failed _ _ _ hdb => exact hd.of_db hdb
  | issued _ _ _ _ hdb => exact hd.of_db hdb
  | passed _ _ hv => exact hd.of_db hv.db
  | proven _ _ _ _ hv => exact hd.of_db hv.db
  | opened hi hdb =>
    refine Dated.updateLastLogin ?_ _ _
    rw [createSession_users hdb]
    exact hd
  | @committed op db hrun =>
    obtain ⟨hfits, hnew⟩ := he op rfl
    have hdb : (w.commit op db).vault.db = db := by
      cases op <;> rfl
    rw [hdb]
    exact hd.run hrun hfits hnew
  | _ => exact hd

/-! ## What is to hold -/

namespace Hall

/-- What is drawn at random is new, and versions fit their column. -/
def Fresh (h : Hall) : HallEvent → Prop
  | .step (.secondFactor _ _ _ challengeId _ _ _) => ∀ c ∈ h.challenges, c.id ≠ challengeId
  | .step (.oidcAuth q) => ∀ p ∈ h.requests, p.pollCode ≠ q.pollCode
  | .step (.account op) => op.Fits h.entrance.vault.db ∧ ∀ id ∈ op.creates, id ∉ h.ids
  | _ => True

/-- A start of the API: nothing was issued yet. -/
structure Start (h : Hall) : Prop where
  logins : h.entrance.logins = []
  origins : h.origins = []
  opened : h.opened = []
  noChallenges : h.entrance.challenges = .empty
  noRequests : h.entrance.requests = .empty
  challenges : h.challenges = []
  requests : h.requests = []
  ids : ∀ u ∈ h.entrance.vault.db.users.rows, u.id ∈ h.ids

/-- The sessions that were opened for something presented. -/
def used (h : Hall) (o : Origin) : Nat := h.opened.countP fun s => s.origin = o

/-- The session is of the user that a challenge or the result of a poll was issued for, and for a
challenge a code of that user was valid. -/
def Rightful (h : Hall) (s : Opened) : Prop := match s.origin with
  | .password => True
  | .challenge id => (∃ c ∈ h.challenges, c.id = id) ∧
      (∀ c ∈ h.challenges, c.id = id → c.userId = s.userId) ∧ s.verdict.proves = true
  | .poll code => ∃ q ∈ h.requests, q.pollCode = code ∧ q.userId = s.userId

/-! ## Logins and what they have presented -/

/-- The logins, each with what it has presented. -/
def visits (h : Hall) : List (Origin × LoginStage) := h.origins.zip h.entrance.logins

/-- The record of the user is not newer than the row. -/
def Current (h : Hall) (user : User) : Prop :=
  user.id ∈ h.ids ∧
    Dated h.entrance.vault.db.users user.id user.tokenVersion user.totpEnabled

/-- How far a login has come agrees with what it has presented. -/
def Suits (h : Hall) : Origin → LoginStage → Prop
  | .password, .checked user _ => h.Current user
  | .password, .accepted .password _ _ _ => True
  | .challenge id, .challenged c _ => c ∈ h.challenges ∧ c.id = id
  | .challenge id, .confirming c user _ =>
    c ∈ h.challenges ∧ c.id = id ∧ c.userId = user.id ∧ user.totpEnabled = true
  | .challenge id, .proven c user verdict _ =>
    c ∈ h.challenges ∧ c.id = id ∧ c.userId = user.id ∧ verdict.proves = true
  | .challenge id, .accepted .challenge user verdict _ =>
    ∃ c ∈ h.challenges, c.id = id ∧ c.userId = user.id ∧ verdict.proves = true
  | .poll code, .polled q => q ∈ h.requests ∧ q.pollCode = code
  | .poll code, .accepted .oidc user _ _ => ∃ q ∈ h.requests, q.pollCode = code ∧ q.userId = user.id
  | _, _ => False

/-- What was there stays on record, and records stay dated. -/
structure Grows (h h' : Hall) : Prop where
  challenges : ∀ c ∈ h.challenges, c ∈ h'.challenges
  requests : ∀ q ∈ h.requests, q ∈ h'.requests
  ids : ∀ id ∈ h.ids, id ∈ h'.ids
  dated : ∀ id version on, id ∈ h.ids → Dated h.entrance.vault.db.users id version on →
    Dated h'.entrance.vault.db.users id version on

variable {toLower : String → String} {m : Mfa} {h h' : Hall}

theorem Grows.current (hg : h.Grows h') (hu : h.Current user) : h'.Current user :=
  ⟨hg.ids _ hu.1, hg.dated _ _ _ hu.1 hu.2⟩

theorem Suits.grows (hg : h.Grows h') (hs : h.Suits o st) : h'.Suits o st := by
  revert hs
  fun_cases h.Suits o st with
  | case1 => exact hg.current
  | case2 => exact fun _ => trivial
  | case3 | case4 | case5 => exact fun hs => ⟨hg.challenges _ hs.1, hs.2⟩
  | case6 => exact fun ⟨c, hc, hrest⟩ => ⟨c, hg.challenges _ hc, hrest⟩
  | case7 => exact fun hs => ⟨hg.requests _ hs.1, hs.2⟩
  | case8 => exact fun ⟨q, hq, hrest⟩ => ⟨q, hg.requests _ hq, hrest⟩
  | case9 => exact False.elim

theorem perform_grows {e : HallEvent} (hf : h.Fresh e) : h.Grows (h.perform toLower m e) := by
  cases e with
  | abandon i => exact ⟨fun _ hc => hc, fun _ hq => hq, fun _ hid => hid, fun _ _ _ _ hd => hd⟩
  | step e =>
    refine ⟨fun c hc => mem_append_right _ hc, fun q hq => mem_append_right _ hq,
      fun id hid => mem_append_right _ hid, fun id version on hid hd => ?_⟩
    refine (Entrance.perform_moves e).dated (fun op he => ?_) hd
    subst he
    exact ⟨hf.1, fun hc => hf.2 id hc hid⟩

/-! ### How the pairs change -/

section

theorem after_entrance : (h.after e w).entrance = w := rfl

theorem follow_same (hl : w.logins.length = h.entrance.logins.length) :
    h.follow e w = h.origins := by
  unfold follow
  rw [if_neg (by omega), if_neg (by omega)]

theorem follow_begin (hl : w.logins = h.entrance.logins ++ [st])
    (ho : h.entrance.presents e = some o) : h.follow e w = h.origins ++ [o] := by
  unfold follow
  rw [if_pos (by simp [hl]), ho]
  rfl

theorem follow_drop (he : e.login? = some i) (hi : h.entrance.logins[i]? = some st)
    (hl : w.logins = h.entrance.logins.eraseIdx i) : h.follow e w = h.origins.eraseIdx i := by
  have hlt : i < h.entrance.logins.length := (List.getElem?_eq_some_iff.mp hi).1
  unfold follow
  rw [hl, length_eraseIdx_of_lt hlt, if_neg (by omega), if_pos (by omega), he]
  rfl

end

/-- The pair at the place of a login. -/
theorem visits_getElem? (hp : h.origins.length = h.entrance.logins.length)
    (hi : h.entrance.logins[i]? = some st) :
    ∃ o, h.origins[i]? = some o ∧ h.visits[i]? = some (o, st) := by
  have hlt : i < h.entrance.logins.length := (List.getElem?_eq_some_iff.mp hi).1
  rw [← hp] at hlt
  refine ⟨h.origins[i], List.getElem?_eq_getElem hlt, ?_⟩
  exact List.getElem?_zip_eq_some.mpr ⟨List.getElem?_eq_getElem hlt, hi⟩

/-! ## Places -/

/-- What a login has used up. -/
def takes (v : Origin × LoginStage) (o : Origin) : Bool :=
  v.1 = o && match v with
    | (.password, _) => false
    | (.challenge _, .accepted ..) => true
    | (.challenge _, _) => false
    | (.poll _, _) => true

def available (w : Entrance) : Origin → Nat
  | .password => 0
  | .challenge id => w.challenges.count fun c => c.id = id
  | .poll code => w.requests.count fun q => q.pollCode = code

def taken (h : Hall) (o : Origin) : Nat := h.visits.countP fun v => takes v o

/-- In how many places something is that was issued. -/
def places (h : Hall) (o : Origin) : Nat := available h.entrance o + h.taken o + h.used o

/-- It is on record that it was issued. -/
def Known (h : Hall) : Origin → Prop
  | .password => True
  | .challenge id => ∃ c ∈ h.challenges, c.id = id
  | .poll code => ∃ q ∈ h.requests, q.pollCode = code

/-- A session is entitled to what its login has presented. -/
def Entitled (h : Hall) (s : Opened) : Prop := match s.origin with
  | .password => True
  | .challenge id => ∃ c ∈ h.challenges, c.id = id ∧ c.userId = s.userId ∧ s.verdict.proves = true
  | .poll code => ∃ q ∈ h.requests, q.pollCode = code ∧ q.userId = s.userId

theorem Entitled.grows (hg : h.Grows h') {s : Opened} (hs : h.Entitled s) : h'.Entitled s := by
  unfold Entitled at hs ⊢
  split at hs
  · trivial
  · obtain ⟨c, hc, hrest⟩ := hs
    exact ⟨c, hg.challenges c hc, hrest⟩
  · obtain ⟨q, hq, hrest⟩ := hs
    exact ⟨q, hg.requests q hq, hrest⟩

theorem Suits.known (hs : h.Suits o st) : h.Known o := by
  revert hs
  fun_cases Suits with
  | case1 | case2 => exact fun _ => trivial
  | case3 | case7 => exact fun hs => ⟨_, hs⟩
  | case4 | case5 => exact fun hs => ⟨_, hs.1, hs.2.1⟩
  | case6 | case8 => exact fun ⟨a, ha, heq, _⟩ => ⟨a, ha, heq⟩
  | case9 => exact False.elim

theorem Entitled.known {s : Opened} (hs : h.Entitled s) : h.Known s.origin := by
  unfold Entitled at hs
  unfold Known
  split at hs
  · trivial
  · obtain ⟨c, hc, hid, -⟩ := hs
    exact ⟨c, hc, hid⟩
  · obtain ⟨q, hq, hcode, -⟩ := hs
    exact ⟨q, hq, hcode⟩

structure Inv (h : Hall) : Prop where
  paired : h.origins.length = h.entrance.logins.length
  suits : ∀ v ∈ h.visits, h.Suits v.1 v.2
  opened : ∀ s ∈ h.opened, h.Entitled s
  places : ∀ o, o ≠ .password → h.places o ≤ 1
  challenges : ∀ c ∈ h.entrance.challenges.rows, c ∈ h.challenges
  requests : ∀ q ∈ h.entrance.requests.rows, q ∈ h.requests
  agree : ∀ c ∈ h.challenges, ∀ c' ∈ h.challenges, c.id = c'.id → c = c'
  dated : ∀ c ∈ h.challenges, c.userId ∈ h.ids ∧
    Dated h.entrance.vault.db.users c.userId c.tokenVersion true
  ids : ∀ u ∈ h.entrance.vault.db.users.rows, u.id ∈ h.ids

/-- What was never issued is nowhere. -/
theorem Inv.places_of_unknown (hi : h.Inv) (ho : o ≠ .password) (hk : ¬ h.Known o) :
    h.places o = 0 := by
  have havailable : available h.entrance o = 0 := by
    cases o with
    | password => rfl
    | challenge id =>
      refine countP_eq_zero.mpr fun c hc hid => hk ⟨c, hi.challenges c hc, ?_⟩
      simpa using hid
    | poll code =>
      refine countP_eq_zero.mpr fun q hq hcode => hk ⟨q, hi.requests q hq, ?_⟩
      simpa using hcode
  have htaken : h.taken o = 0 := by
    refine countP_eq_zero.mpr fun v hv htakes => hk ?_
    simp only [takes, Bool.and_eq_true, decide_eq_true_eq] at htakes
    rw [← htakes.1]
    exact (hi.suits v hv).known
  have hused : h.used o = 0 := by
    refine countP_eq_zero.mpr fun s hs hso => hk ?_
    rw [← of_decide_eq_true hso]
    exact (hi.opened s hs).known
  unfold Hall.places
  omega

/-! ## Events -/

/-- Nothing is in more places than before, but what was issued just now. -/
structure Placed (h h' : Hall) : Prop where
  paired : h'.origins.length = h'.entrance.logins.length
  suits : ∀ v ∈ h'.visits, h'.Suits v.1 v.2
  places : ∀ o, o ≠ .password → h'.places o ≤ h.places o ∨
    ¬ h.Known o ∧ h'.places o ≤ h.places o + 1

/-- Only the event that opens a session does. -/
theorem opens_eq_none
    (he : ∀ i id now ttl route user verdict input, e = .createSession i id now ttl →
      h.entrance.logins[i]? = some (.accepted route user verdict input) →
      ¬ ∃ db, h.entrance.vault.db.createSession (newSession id user input now ttl) = .ok db) :
    h.opens e = none := by
  fun_cases opens with
  | case1 i id now ttl route user verdict input hi db hdb =>
    exact absurd ⟨db, hdb⟩ (he i id now ttl route user verdict input rfl hi)
  | _ => rfl

section

variable (hi : h.Inv) (hg : h.Grows (h.after e w)) (he : h.opens e = none)

include he

theorem used_after (x : Origin) : (h.after e w).used x = h.used x := by
  show ((h.opens e).toList ++ h.opened).countP _ = _
  rw [he]
  rfl

include hi hg

theorem Placed.same (hl : w.logins = h.entrance.logins)
    (hplaces : ∀ o, o ≠ .password → available w o ≤ available h.entrance o ∨
      ¬ h.Known o ∧ available w o ≤ available h.entrance o + 1) : h.Placed (h.after e w) := by
  have ho : h.follow e w = h.origins := follow_same (congrArg _ hl)
  have hvisits : (h.after e w).visits = h.visits := congrArg₂ List.zip ho hl
  refine ⟨(congrArg _ ho).trans (hi.paired.trans (congrArg _ hl.symm)), fun v hv => ?_,
    fun o hne => ?_⟩
  · rw [hvisits] at hv
    exact (hi.suits v hv).grows hg
  · unfold Hall.places taken
    rw [hvisits, used_after he, after_entrance]
    exact (hplaces o hne).imp (by omega) (And.imp_right (by omega))

theorem Placed.begun (ho : h.entrance.presents e = some o)
    (hl : w.logins = h.entrance.logins ++ [st]) (hs : (h.after e w).Suits o st)
    (hplaces : ∀ x, x ≠ .password → available w x + (if takes (o, st) x then 1 else 0)
      ≤ available h.entrance x) : h.Placed (h.after e w) := by
  have hfollow : h.follow e w = h.origins ++ [o] := follow_begin hl ho
  have hvisits : (h.after e w).visits = h.visits ++ [(o, st)] := by
    refine (congrArg₂ List.zip hfollow hl).trans ?_
    rw [zip_append hi.paired]
    rfl
  refine ⟨?_, fun v hv => ?_, fun x hne => .inl ?_⟩
  · show (h.follow e w).length = w.logins.length
    rw [hfollow, hl, length_append, length_append, hi.paired]
    rfl
  · rw [hvisits] at hv
    rcases mem_append.mp hv with hv | hv
    · exact (hi.suits v hv).grows hg
    · rw [mem_singleton.mp hv]
      exact hs
  · have := hplaces x hne
    unfold Hall.places taken
    rw [hvisits, used_after he, after_entrance, countP_append, countP_singleton]
    omega

theorem Placed.next (hst : h.entrance.logins[i]? = some st)
    (hl : w.logins = h.entrance.logins.set i st')
    (hs : ∀ o, h.Suits o st → (h.after e w).Suits o st')
    (hplaces : ∀ o x, h.Suits o st → x ≠ .password →
      available w x + (if takes (o, st') x then 1 else 0)
        ≤ available h.entrance x + if takes (o, st) x then 1 else 0) : h.Placed (h.after e w) := by
  obtain ⟨o, hoi, hvi⟩ := visits_getElem? hi.paired hst
  have hsuits : h.Suits o st := hi.suits _ (mem_of_getElem? hvi)
  have hlength : w.logins.length = h.entrance.logins.length := by rw [hl, length_set]
  have ho : h.follow e w = h.origins := follow_same hlength
  have hvisits : (h.after e w).visits = h.visits.set i (o, st') :=
    (congrArg₂ List.zip ho hl).trans (zip_set hoi _ _)
  refine ⟨(congrArg _ ho).trans (hi.paired.trans hlength.symm), fun v hv => ?_, fun x hne => .inl ?_⟩
  · rw [hvisits] at hv
    rcases mem_or_eq_of_mem_set hv with hv | rfl
    · exact (hi.suits v hv).grows hg
    · exact hs o hsuits
  · have hcount := countP_set hvi (o, st') (p := fun v => takes v x)
    have := hplaces o x hsuits hne
    unfold Hall.places taken
    rw [hvisits, used_after he, after_entrance]
    omega

/-- A login goes on, and the tables stay: what it takes, it has taken before. -/
theorem Placed.forward (hst : h.entrance.logins[i]? = some st)
    (hl : w.logins = h.entrance.logins.set i st')
    (hw : ∀ x, available w x = available h.entrance x)
    (hs : ∀ o, h.Suits o st →
      (h.after e w).Suits o st' ∧ ∀ x, takes (o, st') x = true → takes (o, st) x = true) :
    h.Placed (h.after e w) := by
  refine .next hi hg he hst hl (fun o ho => (hs o ho).1) fun o x ho _ => ?_
  rw [hw]
  have htakes := (hs o ho).2 x
  split
  · next hx => rw [if_pos (htakes hx)]
  · split <;> omega

end

section

variable (hi : h.Inv)

include hi

theorem Placed.ended (hg : h.Grows h') (hst : h.entrance.logins[i]? = some st)
    (ho : h'.origins = h.origins.eraseIdx i)
    (hl : h'.entrance.logins = h.entrance.logins.eraseIdx i)
    (hplaces : ∀ o x, h.origins[i]? = some o → h.Suits o st → x ≠ .password →
      available h'.entrance x + h'.used x
        ≤ available h.entrance x + h.used x + (if takes (o, st) x then 1 else 0) ∨
      ¬ h.Known x ∧ available h'.entrance x + h'.used x
        ≤ available h.entrance x + h.used x + 1) : h.Placed h' := by
  obtain ⟨o, hoi, hvi⟩ := visits_getElem? hi.paired hst
  have hsuits : h.Suits o st := hi.suits _ (mem_of_getElem? hvi)
  have hlt : i < h.entrance.logins.length := (List.getElem?_eq_some_iff.mp hst).1
  have hvisits : h'.visits = h.visits.eraseIdx i := by
    unfold visits
    rw [ho, hl]
    exact zip_eraseIdx _ _ _
  refine ⟨?_, fun v hv => ?_, fun x hne => ?_⟩
  · rw [ho, hl, length_eraseIdx_of_lt hlt, length_eraseIdx_of_lt (hi.paired ▸ hlt), hi.paired]
  · rw [hvisits] at hv
    exact (hi.suits v (mem_of_mem_eraseIdx hv)).grows hg
  · have hcount := countP_eraseIdx hvi (p := fun v => takes v x)
    unfold Hall.places taken
    rw [hvisits]
    exact (hplaces o x hoi hsuits hne).imp (by omega) (And.imp_right (by omega))

theorem placed_issued (hst : h.entrance.logins[i]? = some st) (he : e.login? = some i)
    (hopens : h.opens e = none) {vault : Vault}
    (hw : w = ({ h.entrance with vault }.drop i).createAuthChallenge c)
    (hf : ∀ d ∈ h.challenges, d.id ≠ c.id) (hg : h.Grows (h.after e w)) :
    h.Placed (h.after e w) := by
  subst hw
  refine .ended hi hg hst (follow_drop he hst rfl) rfl fun o x _ _ _ => ?_
  rw [used_after hopens]
  cases x with
  | password | poll => exact .inl (Nat.le_add_right _ _)
  | challenge id =>
    have hcount := h.entrance.challenges.count_issue_le (fun d => d.expiresAt ≤ c.createdAt) c
      fun d => decide (d.id = id)
    by_cases hid : c.id = id
    · rw [if_pos (decide_eq_true hid)] at hcount
      exact .inr ⟨fun ⟨d, hd, hdid⟩ => hf d hd (hdid.trans hid.symm),
        Nat.le_trans (Nat.add_le_add_right hcount _) (Nat.le_of_eq (Nat.add_right_comm _ _ _))⟩
    · rw [if_neg (by simpa using hid)] at hcount
      exact .inl (Nat.le_trans (Nat.add_le_add_right hcount _) (Nat.le_add_right _ _))

/-- The row leaves the table, and the login has taken it. -/
theorem placed_consumed {d : AuthChallenge} {input' : LoginInput}
    (hst : h.entrance.logins[i]? = some (.proven c user verdict input))
    (hd : h.entrance.challenges.get? c.id = some d) (hopens : h.opens e = none)
    (hw : w = { h.entrance with challenges := h.entrance.challenges.remove c.id }.next i
      (.accepted .challenge user verdict input'))
    (hg : h.Grows (h.after e w)) : h.Placed (h.after e w) := by
  subst hw
  refine .next hi hg hopens hst rfl (fun o hs => ?_) fun o x hs _ => ?_
  · cases o with
    | challenge id =>
      obtain ⟨hc, hid, huser, hproves⟩ := hs
      exact ⟨c, mem_append_right _ hc, hid, huser, hproves⟩
    | _ => exact hs.elim
  · cases o with
    | challenge id =>
      obtain ⟨hc, rfl, -⟩ := hs
      rw [if_neg (by simp [takes] : ¬ takes (.challenge c.id, .proven c user verdict input) x
        = true)]
      cases x with
      | password => exact Nat.le_of_eq (by simp [available, takes])
      | poll code => exact Nat.le_of_eq (by simp [available, takes, Entrance.next])
      | challenge id =>
        have hcount := count_remove hd (fun c => decide (c.id = id))
        refine Nat.le_of_eq ?_
        show (h.entrance.challenges.remove c.id).count _ + _ = h.entrance.challenges.count _
        rw [← hcount, get?_key hd]
        simp [takes]
    | _ => exact hs.elim

/-- What the login has taken becomes what the session has used. -/
theorem placed_opened {route : Route} {id : String} {now ttl : Nat} {db : Store} {vault : Vault}
    (hst : h.entrance.logins[i]? = some (.accepted route user verdict input))
    (hdb : h.entrance.vault.db.createSession (newSession id user input now ttl) = .ok db)
    (he : e = .createSession i id now ttl) (hw : w = { h.entrance with vault }.drop i)
    (hg : h.Grows (h.after e w)) : h.Placed (h.after e w) := by
  subst he hw
  refine .ended hi hg hst (follow_drop rfl hst rfl) rfl fun o x ho hs hne => .inl ?_
  have hopens : h.opens (.createSession i id now ttl) = some ⟨o, user.id, verdict⟩ := by
    simp only [opens, hst, hdb, getD_eq_getElem?_getD, ho]
    rfl
  show available h.entrance x + ((h.opens _).toList ++ h.opened).countP _ ≤ _
  rw [hopens, Option.toList_some, singleton_append, countP_cons]
  have htakes : o = x → takes (o, .accepted route user verdict input) x = true := by
    rintro rfl
    cases o with
    | password => exact absurd rfl hne
    | _ => simp [takes]
  by_cases hox : o = x
  · rw [if_pos (htakes hox), if_pos (decide_eq_true hox)]
    exact Nat.le_of_eq (Nat.add_assoc _ _ _).symm
  · rw [if_neg (by simpa using hox)]
    exact Nat.le_add_right _ _

theorem placed_requested {q : OidcAuthRequest} (hopens : h.opens e = none)
    (hw : w = { h.entrance with
      requests := (h.entrance.requests.deleteWhere fun p => p.expiresAt ≤ q.createdAt).insert
        { q with userId := "", error := "" } })
    (hf : ∀ p ∈ h.requests, p.pollCode ≠ q.pollCode) (hg : h.Grows (h.after e w)) : h.Placed (h.after e w) := by
  subst hw
  refine .same hi hg hopens rfl fun o _ => ?_
  cases o with
  | password | challenge => exact .inl (Nat.le_refl _)
  | poll code =>
    have hcount := h.entrance.requests.count_issue_le (fun p => p.expiresAt ≤ q.createdAt)
      { q with userId := "", error := "" } fun q => decide (q.pollCode = code)
    by_cases hcode : q.pollCode = code
    · rw [if_pos (decide_eq_true hcode)] at hcount
      exact .inr ⟨fun ⟨p, hp, hpcode⟩ => hf p hp (hpcode.trans hcode.symm), hcount⟩
    · rw [if_neg (by simpa using hcode)] at hcount
      exact .inl hcount

theorem placed_of_moves (hm : h.entrance.Moves toLower e w) (hf : h.Fresh (.step e))
    (hg : h.Grows (h.after e w)) : h.Placed (h.after e w) := by
  cases hm with
  | idle hquiet =>
    refine .same hi hg (opens_eq_none ?_) rfl fun o _ => .inl (Nat.le_refl _)
    intro i id now ttl route user verdict input he hst
    subst he
    exact nomatch hquiet i _ rfl hst
  | checked input hu =>
    refine .begun hi hg rfl rfl rfl ?_ fun x _ => ?_
    · refine ⟨mem_append_right _ (hi.ids _ (mem_of_get? hu)), Dated.of_row hu⟩
    · rw [if_neg (by simp [takes])]
      exact Nat.le_refl _
  | found input now hc =>
    refine .begun hi hg rfl rfl rfl ?_ fun x _ => ?_
    · exact ⟨mem_append_left _ (mem_of_get? hc), get?_key hc⟩
    · rw [if_neg (by simp [takes])]
      exact Nat.le_refl _
  | @polled state q now hq hlink =>
    have hpresents : h.entrance.presents (.oidcConsume state now) = some (.poll q.pollCode) := by
      simp only [Entrance.presents, hq]
      rfl
    refine .begun hi hg rfl hpresents rfl ?_ fun x _ => ?_
    · exact ⟨mem_append_right _ (hi.requests q (mem_of_get? hq)), rfl⟩
    · cases x with
      | password => exact Nat.le_of_eq (by simp [available, takes])
      | challenge id => exact Nat.le_of_eq (by simp [available, takes, Entrance.begin])
      | poll code =>
        have hcount := count_remove hq (fun q => decide (q.pollCode = code))
        refine Nat.le_of_eq ?_
        show (h.entrance.requests.remove state).count _ + _ = h.entrance.requests.count _
        rw [← hcount]
        simp [takes]
  | @failed e i st vault he hst hconcerns hdb hcodes hopens hconsumes =>
    have hnone : h.opens e = none := by
      refine opens_eq_none fun j id now ttl route user verdict input hej hj => ?_
      subst hej
      cases he
      exact hopens id now ttl route user verdict input rfl (Option.some.inj (hst.symm.trans hj))
    refine .ended hi hg hst (follow_drop he hst rfl) rfl fun o x _ _ _ => .inl ?_
    rw [used_after hnone]
    exact Nat.le_add_right _ _
  | issued web code hst hon hdb hcodes => exact placed_issued hi hst rfl rfl rfl hf hg
  | @passed i user input verdict vault e he hst hv =>
    have hnone : h.opens e = none := by
      refine opens_eq_none fun j id now ttl route user' verdict' input' hej hj => ?_
      subst hej
      cases he
      rw [hst] at hj
      cases hj
    refine .forward hi hg hnone hst rfl (fun _ => rfl) fun o hs => ?_
    cases o with
    | password => exact ⟨trivial, fun x hx => by simp [takes] at hx⟩
    | _ => exact hs.elim
  | @confirming i c user input hst hu hversion =>
    refine .forward hi hg rfl hst rfl (fun _ => rfl) fun o hs => ?_
    cases o with
    | challenge id =>
      obtain ⟨hc, hid⟩ := hs
      -- the version of the record says that the second factor is on
      have hon := ((hi.dated c hc).2 user hu).2 hversion
      exact ⟨⟨mem_append_right _ hc, hid, (get?_key hu).symm, hon⟩,
        fun x hx => by simp [takes] at hx⟩
    | _ => exact hs.elim
  | @proven i c user input verdict vault code now hst hne hv =>
    refine .forward hi hg rfl hst rfl (fun _ => rfl) fun o hs => ?_
    cases o with
    | challenge id =>
      obtain ⟨hc, hid, huser, hon⟩ := hs
      exact ⟨⟨mem_append_right _ hc, hid, huser, (hv.proves hne).trans hon⟩,
        fun x hx => by simp [takes] at hx⟩
    | _ => exact hs.elim
  | consumed hst hd hnow => exact placed_consumed hi hst hd rfl rfl hg
  | @accepted i q user input hst hu =>
    refine .forward hi hg rfl hst rfl (fun _ => rfl) fun o hs => ?_
    cases o with
    | poll code =>
      obtain ⟨hq, hcode⟩ := hs
      exact ⟨⟨q, mem_append_right _ hq, hcode, (get?_key hu).symm⟩, fun x hx => hx⟩
    | _ => exact hs.elim
  | opened hst hdb => exact placed_opened hi hst hdb rfl rfl hg
  | requested q => exact placed_requested hi (q := q) rfl rfl hf hg
  | completed state userId error now =>
    refine .same hi hg rfl rfl fun o _ => .inl (Nat.le_of_eq ?_)
    cases o with
    | password => rfl
    | challenge id => rfl
    | poll code =>
      exact @count_updateWhere _ _ _ _ _ h.entrance.requests _
        (Entrance.state_completed userId error) fun _ => rfl
  | mode | replaced => exact .same hi hg rfl rfl fun o _ => .inl (Nat.le_refl _)
  | @committed op db hrun =>
    refine .same hi hg rfl (Entrance.commit_logins _ op db) fun o _ => .inl ?_
    cases op with
    | deleteUser id =>
      cases o with
      | password => exact Nat.le_refl _
      | challenge id => exact count_deleteWhere_le _ _ _
      | poll code =>
        exact Nat.le_of_eq (@count_updateWhere _ _ _ _ _ h.entrance.requests _
          Entrance.state_forgotten fun _ => rfl)
    | _ => exact Nat.le_refl _

theorem perform_placed {e : HallEvent} (hf : h.Fresh e) : h.Placed (h.perform toLower m e) := by
  have hg : h.Grows (h.perform toLower m e) := perform_grows hf
  cases e with
  | step e => exact placed_of_moves hi (Entrance.perform_moves e) hf hg
  | abandon i =>
    cases hst : h.entrance.logins[i]? with
    | some st => exact .ended hi hg hst rfl rfl fun o x _ _ _ => .inl (Nat.le_add_right _ _)
    | none =>
      have hle : h.entrance.logins.length ≤ i := List.getElem?_eq_none_iff.mp hst
      have hsame : h.perform toLower m (.abandon i) = h := by
        simp only [perform, Entrance.drop, eraseIdx_of_length_le hle,
          eraseIdx_of_length_le (hi.paired ▸ hle)]
      rw [hsame]
      exact ⟨hi.paired, hi.suits, fun o _ => .inl (Nat.le_refl _)⟩

omit hi in
/-- A challenge that is there was there before, or is issued to a login whose record has the second
factor turned on. -/
theorem mem_challenges (hm : w.Moves toLower e w') (hc : c ∈ w'.challenges.rows) :
    c ∈ w.challenges.rows ∨ ∃ i web code rustdeskId clientUuid now user input,
      e = .secondFactor i web code c.id rustdeskId clientUuid now ∧
      w.logins[i]? = some (.checked user input) ∧ c.userId = user.id ∧
      c.tokenVersion = user.tokenVersion ∧ user.totpEnabled = true := by
  cases hm with
  | issued web code hst hon hdb hcodes =>
    rcases mem_insert hc with hc | rfl
    · exact .inl (mem_of_mem_filter hc)
    · exact .inr ⟨_, web, code, _, _, _, _, _, rfl, hst, rfl, rfl, hon⟩
  | consumed hst hd hnow => exact .inl (mem_of_mem_filter hc)
  | @committed op db hrun =>
    cases op with
    | deleteUser id => exact .inl (mem_of_mem_filter hc)
    | _ => exact .inl hc
  | _ => exact .inl hc

theorem entitled_opens {s : Opened} (hs : h.opens e = some s) : h.Entitled s := by
  revert hs
  fun_cases opens with
  | case1 i _ _ _ route user verdict input hst =>
    obtain ⟨o, hoi, hvi⟩ := visits_getElem? hi.paired hst
    have hsuits : h.Suits o (.accepted route user verdict input) := hi.suits _ (mem_of_getElem? hvi)
    rintro ⟨⟩
    rw [getD_eq_getElem?_getD, hoi]
    cases o with
    | password => trivial
    | challenge id =>
      cases route with
      | challenge => exact hsuits
      | _ => exact hsuits.elim
    | poll code =>
      cases route with
      | oidc => exact hsuits
      | _ => exact hsuits.elim
  | _ => exact nofun

theorem Inv.perform {e : HallEvent} (hf : h.Fresh e) : (h.perform toLower m e).Inv := by
  have hg : h.Grows (h.perform toLower m e) := perform_grows hf
  have hplaced : h.Placed (h.perform toLower m e) := perform_placed hi hf
  have hplaces : ∀ o, o ≠ .password → (h.perform toLower m e).places o ≤ 1 := by
    intro o ho
    rcases hplaced.places o ho with hle | ⟨hunknown, hle⟩
    · exact Nat.le_trans hle (hi.places o ho)
    · rw [hi.places_of_unknown ho hunknown] at hle
      exact hle
  cases e with
  | abandon i =>
    exact ⟨hplaced.paired, hplaced.suits, fun s hs => (hi.opened s hs).grows hg, hplaces,
      hi.challenges, hi.requests, hi.agree, hi.dated, hi.ids⟩
  | step e =>
    have hm : h.entrance.Moves toLower e (h.perform toLower m (.step e)).entrance :=
      Entrance.perform_moves e
    -- what is on record was so before, or it was issued just now
    have hrecord : ∀ c ∈ (h.perform toLower m (.step e)).challenges, c ∈ h.challenges ∨
        c ∈ (h.perform toLower m (.step e)).entrance.challenges.rows ∧
        (∀ c' ∈ h.challenges, c'.id ≠ c.id) ∧ c.userId ∈ h.ids ∧
        Dated h.entrance.vault.db.users c.userId c.tokenVersion true := by
      intro c hc
      rcases mem_append.mp hc with hc | hc
      · rcases mem_challenges hm hc with hold |
          ⟨i, _, _, _, _, _, user, input, he, hst, hid, hv, hon⟩
        · exact .inl (hi.challenges c hold)
        · subst he
          obtain ⟨o, -, hvi⟩ := visits_getElem? hi.paired hst
          have hsuits : h.Suits o (.checked user input) := hi.suits _ (mem_of_getElem? hvi)
          cases o with
          | password =>
            obtain ⟨hknown, hdated⟩ : h.Current user := hsuits
            rw [hon] at hdated
            rw [hid, hv]
            exact .inr ⟨hc, hf, hknown, hdated⟩
          | _ => exact hsuits.elim
      · exact .inl hc
    refine ⟨hplaced.paired, hplaced.suits, fun s hs => ?_, hplaces,
      fun c hc => mem_append_left _ hc, fun q hq => mem_append_left _ hq,
      fun c hc c' hc' hid => ?_, fun c hc => ?_,
      fun u hu => mem_append_left _ (mem_map_of_mem hu)⟩
    · rcases mem_append.mp hs with hs | hs
      · exact (entitled_opens hi (Option.mem_toList.mp hs)).grows hg
      · exact (hi.opened s hs).grows hg
    · rcases hrecord c hc with hold | ⟨hrow, hnew, -⟩
      · rcases hrecord c' hc' with hold' | ⟨-, hnew', -⟩
        · exact hi.agree c hold c' hold' hid
        · exact absurd hid (hnew' c hold)
      · rcases hrecord c' hc' with hold' | ⟨hrow', -⟩
        · exact absurd hid.symm (hnew c' hold')
        · have hget := get?_of_mem hrow
          have hget' := get?_of_mem hrow'
          rw [← hid, hget] at hget'
          exact Option.some.inj hget'
    · rcases hrecord c hc with hold | ⟨-, -, hknown, hdated⟩
      · obtain ⟨hknown, hdated⟩ := hi.dated c hold
        exact ⟨hg.ids _ hknown, hg.dated _ _ _ hknown hdated⟩
      · exact ⟨hg.ids _ hknown, hg.dated _ _ _ hknown hdated⟩

omit hi in
theorem Start.inv (hs : h.Start) : h.Inv where
  paired := by
    rw [hs.origins, hs.logins]
    rfl
  suits := by simp [visits, hs.origins]
  opened := by simp [hs.opened]
  places := by
    intro o _
    unfold Hall.places taken used visits available
    rw [hs.origins, hs.opened, hs.noChallenges, hs.noRequests]
    cases o <;> exact Nat.zero_le _
  challenges := by simp [hs.noChallenges, Table.empty]
  requests := by simp [hs.noRequests, Table.empty]
  agree := by simp [hs.challenges]
  dated := by simp [hs.challenges]
  ids := hs.ids

theorem Inv.rightful {s : Opened} (hs : s ∈ h.opened) : h.Rightful s := by
  have hentitled := hi.opened s hs
  unfold Entitled at hentitled
  unfold Rightful
  split at hentitled
  · trivial
  · next id _ =>
    obtain ⟨c, hc, hid, huser, hproves⟩ := hentitled
    refine ⟨⟨c, hc, hid⟩, fun c' hc' hid' => ?_, hproves⟩
    rw [hi.agree c' hc' c hc (hid'.trans hid.symm)]
    exact huser
  · exact hentitled

end

/-- **One session.** From a start of the API, however logins and changes of accounts interleave: for
a challenge and for a poll code no more than one session was opened at any moment; it is of the user
that the challenge or the result was issued for, and for a challenge a code of that user was
valid. -/
theorem single_use (hs : h.Start) {events : List HallEvent}
    (hf : Throughout (perform toLower m) Fresh h events) :
    ∀ before, before <+: events →
      (∀ o, o ≠ .password → (before.foldl (perform toLower m) h).used o ≤ 1) ∧
      ∀ s ∈ (before.foldl (perform toLower m) h).opened,
        (before.foldl (perform toLower m) h).Rightful s := by
  intro before hpre
  have hi := hf.invariant (I := Inv) (fun _ _ hi hf => hi.perform hf) hs.inv before hpre
  refine ⟨fun o ho => ?_, fun s hmem => hi.rightful hmem⟩
  have hplaces := hi.places o ho
  unfold Hall.places at hplaces
  omega

/-- The sample before anything was issued. -/
def quietHall : Hall := ⟨twoCodes.sampleEntrance, [], [], [], [], ["user-1"]⟩

/-- Two requests answer one challenge, and a login with the provider is polled twice. -/
def busyDay : List HallEvent :=
  [.step (.credentials "user-1" Entrance.webInput),
    .step (.secondFactor 0 false "" "challenge" "" "" 5)] ++ sharedChallenge ++
  [.step (.oidcAuth ⟨"state", "poll", "", "", "", "", "", "", "", 20, 300020, 0⟩),
    .step (.oidcCallback "state" "user-1" "" 30), .step (.oidcConsume "state" 40),
    .step (.oidcConsume "state" 40), .step (.oidcRead 0),
    .step (.createSession 0 "session-2" 50 3600000)]

theorem busy_day_sessions :
    quietHall.Start ∧ Throughout (perform id MfaDesk.sampleMfa) Fresh quietHall busyDay ∧
      (busyDay.foldl (perform id MfaDesk.sampleMfa) quietHall).opened
        = [⟨.poll "poll", "user-1", .notAsked⟩, ⟨.challenge "challenge", "user-1", .recovery⟩] ∧
      (busyDay.foldl (perform id MfaDesk.sampleMfa) quietHall).used (.challenge "challenge")
        ≤ 1 := by
  have hstart : quietHall.Start := ⟨rfl, rfl, rfl, rfl, rfl, rfl, rfl, by decide⟩
  have hfresh : Throughout (perform id MfaDesk.sampleMfa) Fresh quietHall busyDay := by
    unfold busyDay sharedChallenge
    simp only [cons_append, nil_append]
    repeat rw [throughout_cons]
    refine ⟨trivial, ?_, trivial, trivial, trivial, trivial, trivial, trivial, trivial, trivial,
      trivial, ?_, trivial, trivial, trivial, trivial, trivial, throughout_nil _ _⟩
    · show ∀ c ∈ Hall.challenges _, c.id ≠ "challenge"
      decide
    · show ∀ p ∈ Hall.requests _, p.pollCode ≠ "poll"
      decide
  exact ⟨hstart, hfresh, by decide,
    (single_use hstart hfresh busyDay (prefix_refl _)).1 _ (by decide)⟩

end Hall

end RemoteControl.Sync
