import RemoteControl.Lib.Run
import RemoteControl.Sync.UserRows

/-!
# Logins and operations that end them

A token is as old as the record that it was signed from. The version in that record is at
most the version in the row, and smaller as soon as one operation has ended the user's
logins since the record was read; the API compares the two.

> Whatever happens to the sessions, the version decides.

The second step of a two-factor login signs from a record of its own, but only when that
has the version of the first step's record, so its token is as old as the first step.
The second step of an OIDC login has no such check: what the callback read has no
bearing on the token.
-/

namespace RemoteControl.Sync

open Lib List Table Or

variable {claims : GoClaims} {j : Jws} {w w' : Portal} {db s : Store} {secret : String}
  {toLower : String → String} {u user : User} {op : UserOp} {op? : Option UserOp}

/-! ## Versions -/

theorem lt_next_version {a : Int64} (h : a ≠ Int64.maxValue) : a < a + 1 := by
  have hne : a.toInt ≠ Int64.maxValue.toInt := fun h' => h (Int64.toInt_inj.mp h')
  have hlt := Int64.toInt_lt a
  have hle := Int64.le_toInt a
  have hone : (1 : Int64).toInt = 1 := rfl
  rw [Int64.toInt_maxValue] at hne
  rw [Int64.lt_iff_toInt_lt, Int64.toInt_add, hone, Int.bmod_def]
  omega

def UserOp.version (op : UserOp) (u : User) : Int64 :=
  if op.raises u then u.tokenVersion + 1 else u.tokenVersion

theorem UserOp.raises_of_revokes (h : op.revokes u = true) : op.raises u = true := by
  cases op with
  | setUserTOTP => cases h
  | _ => exact h

theorem UserOp.le_version (hfits : op.Fits s) (hu : u ∈ s.users.rows) :
    u.tokenVersion ≤ op.version u := by
  unfold UserOp.version
  split
  next h => exact Int64.le_of_lt (lt_next_version (hfits u hu h))
  next => exact Int64.le_refl _

theorem UserOp.lt_version (hfits : op.Fits s) (hu : u ∈ s.users.rows) (h : op.revokes u = true) :
    u.tokenVersion < op.version u := by
  have hraises := raises_of_revokes h
  rw [UserOp.version, if_pos hraises]
  exact lt_next_version (hfits u hu hraises)

/-- The rows of `s'` are rows of `s` with the version that `op` gives them. -/
def UserOp.Versions (op : UserOp) (s s' : Store) : Prop :=
  ∀ ⦃id u'⦄, s'.users.get? id = some u' →
    (∃ u, s.users.get? id = some u ∧ u'.tokenVersion = op.version u) ∨ op.creates = some id

theorem UserOp.version_applied (toLower : String → String) (op : UserOp) (u : User) :
    (op.applied toLower u).tokenVersion = op.version u := by
  unfold UserOp.version
  cases op with
  | setUserTOTP id totpSecret enabled now =>
    simp only [applied, raises]
    by_cases hid : u.id = id
    · by_cases hon : u.totpEnabled = enabled <;> simp [hid, hon]
    · simp [hid]
  | setUserEnabled id | forceRelogin id | updateUserPassword id | updateUser id =>
    by_cases hid : u.id = id <;> simp [applied, raises, revokes, UserUpdate.apply, hid]
  | deleteRole role => by_cases hrole : u.role = role <;> simp [applied, raises, revokes, hrole]
  | setUserApproval id | updateLastLogin id =>
    by_cases hid : u.id = id <;> simp [applied, raises, revokes, hid]
  | createUser | createRegisteredUser | deleteUser => rfl

/-- **One transaction.** A row keeps its version or, where the operation says so, gets the next
one; no other row appears unless it is new. -/
theorem UserOp.run_versions {s' : Store} (h : op.run toLower s = .ok s') : op.Versions s s' := by
  intro id u' hu'
  refine (run_applied h hu').imp_left ?_
  rintro ⟨u, hu, rfl⟩
  exact ⟨u, hu, version_applied toLower op u⟩

/-! ## Stamps -/

/-- What ties a login to the history of its user. -/
structure Stamp where
  userId : String
  version : Int64
  since : Nat

variable {t : Stamp}

def Reading.stamp (r : Reading) : Stamp := ⟨r.user.id, r.user.tokenVersion, r.since⟩

def AuthChallenge.stamp (c : AuthChallenge) : Stamp := ⟨c.userId, c.tokenVersion, c.since⟩

def Login.stamps : Login → List Stamp
  | .found r | .verified r | .called _ r | .accepted r _ | .opened r _ | .noted r _ => [r.stamp]
  | .challenged c => [c.stamp]
  | .confirming c r => [c.stamp, r.stamp]
  | .polled _ => []

namespace Portal

def stamps (w : Portal) : List Stamp :=
  w.logins.flatMap Login.stamps ++ w.challenges.rows.map AuthChallenge.stamp
    ++ w.tokens.map (·.reading.stamp)

theorem mem_stamps : t ∈ w.stamps ↔
    (∃ l ∈ w.logins, t ∈ l.stamps) ∨ (∃ c ∈ w.challenges.rows, c.stamp = t) ∨
      ∃ k ∈ w.tokens, k.reading.stamp = t := by
  simp only [stamps, mem_append, mem_flatMap, mem_map, or_assoc]

/-- The version of a stamp is at most that of the row, and less if an operation has ended the
user's logins since. -/
def Behind (w : Portal) (t : Stamp) : Prop :=
  t.userId ∈ w.ids ∧ ∀ u, w.db.users.get? t.userId = some u →
    t.version ≤ u.tokenVersion ∧ (t.userId ∈ w.revoked.drop t.since → t.version < u.tokenVersion)

structure Inv (w : Portal) : Prop where
  known : ∀ u ∈ w.db.users.rows, u.id ∈ w.ids
  behind : ∀ t ∈ w.stamps, w.Behind t

theorem Start.inv (h : w.Start) : w.Inv := by
  obtain ⟨hc, -, hl, ht, -, hids⟩ := h
  refine ⟨hids, fun t hmem => ?_⟩
  rw [stamps, hc, hl, ht] at hmem
  cases hmem

/-- A reading is up to date when it is made. -/
theorem Inv.behind_read (h : w.Inv) (hu : u ∈ w.db.users.rows) (first : Nat) :
    w.Behind ({ w.read u with first } : Reading).stamp := by
  refine ⟨h.known u hu, fun v hv => ?_⟩
  have hrow : w.db.users.get? u.id = some u := get?_of_mem hu
  obtain rfl : u = v := Option.some.inj (hrow.symm.trans hv)
  refine ⟨Int64.le_refl _, fun hmem => ?_⟩
  have hnone : w.revoked.drop w.revoked.length = [] := drop_length
  rw [show ({ w.read u with first } : Reading).stamp.since = w.revoked.length from rfl, hnone]
    at hmem
  cases hmem

/-- `Behind` is about the accounts alone. -/
theorem Behind.congr (h : w.Behind t) (husers : w'.db.users = w.db.users) (hids : w'.ids = w.ids)
    (hrevoked : w'.revoked = w.revoked) : w'.Behind t := by
  unfold Behind
  rw [husers, hids, hrevoked]
  exact h

/-- What a login does by itself: the accounts are as they were, and the stamps that it adds are
up to date. -/
theorem Inv.advance (h : w.Inv) (husers : w'.db.users = w.db.users) (hids : w'.ids = w.ids)
    (hrevoked : w'.revoked = w.revoked) (hstamps : ∀ t ∈ w'.stamps, t ∈ w.stamps ∨ w.Behind t) :
    w'.Inv := by
  refine ⟨fun u hu => ?_, fun t ht => ?_⟩
  · rw [hids]
    rw [husers] at hu
    exact h.known u hu
  · have hbehind : w.Behind t := (hstamps t ht).elim (h.behind t) id
    exact hbehind.congr husers hids hrevoked

section

/-- **A transaction leaves the stamps behind.** -/
theorem Behind.commit (h : w.Behind t) (hrun : op.run toLower w.db = .ok db) (hfits : op.Fits w.db)
    (hnew : ∀ id ∈ op.creates, id ∉ w.ids) : (w.commit op db).Behind t := by
  obtain ⟨hid, hversion⟩ := h
  refine ⟨mem_append_right _ hid, fun u' hu' => ?_⟩
  obtain ⟨u, hu, hv⟩ | hcreated := UserOp.run_versions hrun hu'
  · obtain ⟨hle, hlt⟩ := hversion u hu
    have hmem : u ∈ w.db.users.rows := mem_of_get? hu
    have hstep : u.tokenVersion ≤ u'.tokenVersion := hv ▸ UserOp.le_version hfits hmem
    refine ⟨Int64.le_trans hle hstep, fun hrevoked => ?_⟩
    replace hrevoked : t.userId ∈ (w.revoked ++ (w.db.users.rows.filter op.revokes).map
      User.id).drop t.since := hrevoked
    rw [drop_append, mem_append] at hrevoked
    rcases hrevoked with hold | hnow
    · exact Int64.lt_of_lt_of_le (hlt hold) hstep
    · -- this is one of the users whose logins the transaction ends
      obtain ⟨v, hv', hvid⟩ := mem_map.mp (mem_of_mem_drop hnow)
      obtain ⟨hvmem, hvrevokes⟩ := mem_filter.mp hv'
      have hvget := get?_of_mem hvmem
      rw [hvid, hu] at hvget
      cases hvget
      have hraised : u.tokenVersion < u'.tokenVersion := hv ▸ UserOp.lt_version hfits hmem hvrevokes
      exact Int64.lt_of_le_of_lt hle hraised
  · exact absurd hid (hnew t.userId hcreated)

theorem challenges_commit : (w.commit op db).challenges.Sub w.challenges := by
  cases op with
  | deleteUser id => exact deleteWhere_sub _ _
  | _ => exact Table.Sub.refl _

theorem stamps_commit (ht : t ∈ (w.commit op db).stamps) : t ∈ w.stamps := by
  rw [mem_stamps] at ht ⊢
  refine ht.imp_right (imp_left ?_)
  rintro ⟨c, hc, hct⟩
  exact ⟨c, mem_of_get? (challenges_commit (get?_of_mem hc)), hct⟩

theorem known_commit (h : w.Inv) (hrun : op.run toLower w.db = .ok db) :
    ∀ u ∈ db.users.rows, u.id ∈ (w.commit op db).ids := by
  intro u' hu'
  show u'.id ∈ op.creates.toList ++ w.ids
  rw [mem_append]
  obtain ⟨u, hu, -⟩ | hcreated := UserOp.run_versions hrun (get?_of_mem hu')
  · exact inr (get?_key hu ▸ h.known u (mem_of_get? hu))
  · rw [hcreated]
    exact inl (mem_singleton.mpr rfl)

theorem Inv.commit (h : w.Inv) (hrun : op.run toLower w.db = .ok db) (hfits : op.Fits w.db)
    (hnew : ∀ id ∈ op.creates, id ∉ w.ids) : (w.commit op db).Inv :=
  ⟨known_commit h hrun, fun t ht => (h.behind t (stamps_commit ht)).commit hrun hfits hnew⟩

end

/-! ## Steps of a login -/

section

variable {ls ls' : List Login} {l l' : Login}

section

variable (h : w.Inv)

include h

theorem Inv.begin (hl : ∀ t ∈ l.stamps, w.Behind t) : (w.begin l).Inv := by
  refine h.advance rfl rfl rfl fun t ht => ?_
  rw [mem_stamps] at ht ⊢
  rcases ht with ⟨x, hx, ht⟩ | ht
  · rcases mem_cons.mp hx with rfl | hx
    · exact inr (hl t ht)
    · exact inl (inl ⟨x, hx, ht⟩)
  · exact inl (inr ht)

/-- A login goes on with what it has read, or with what it reads now. -/
theorem Inv.move (hw : w.logins = ls ++ l :: ls')
    (hl : ∀ t ∈ l'.stamps, t ∈ l.stamps ∨ w.Behind t) :
    ({ w with logins := ls ++ l' :: ls' } : Portal).Inv := by
  refine h.advance rfl rfl rfl fun t ht => ?_
  rw [mem_stamps] at ht ⊢
  rw [hw]
  rcases ht with ⟨x, hx, ht⟩ | ht
  · have hx' : x ∈ ls ∨ x = l' ∨ x ∈ ls' := by simpa using hx
    rcases hx' with hx | rfl | hx
    · exact inl (inl ⟨x, by simp [hx], ht⟩)
    · exact (hl t ht).imp_left fun ht => inl ⟨l, by simp, ht⟩
    · exact inl (inl ⟨x, by simp [hx], ht⟩)
  · exact inl (inr ht)

theorem Inv.abandon (hw : w.logins = ls ++ l :: ls') :
    ({ w with logins := ls ++ ls' } : Portal).Inv := by
  refine h.advance rfl rfl rfl fun t ht => inl ?_
  rw [mem_stamps] at ht ⊢
  refine ht.imp_left ?_
  rintro ⟨x, hx, ht⟩
  rw [hw]
  rcases mem_append.mp hx with hx | hx
  · exact ⟨x, mem_append_left _ hx, ht⟩
  · exact ⟨x, mem_append_right _ (mem_cons_of_mem _ hx), ht⟩

/-- The stamps of a login are those of its portal. -/
theorem Inv.behind_login (hw : w.logins = ls ++ l :: ls') (ht : t ∈ l.stamps) : w.Behind t :=
  h.behind t (mem_stamps.mpr (inl ⟨l, by rw [hw]; simp, ht⟩))

theorem Inv.elsewhere (husers : db.users = w.db.users) : ({ w with db } : Portal).Inv :=
  h.advance husers rfl rfl fun _ ht => inl ht

theorem Inv.createAuthChallenge {c : AuthChallenge} (hc : w.Behind c.stamp)
    (hnew : w.challenges.get? c.id = none) : (w.createAuthChallenge c).Inv := by
  refine h.advance rfl rfl rfl fun t ht => ?_
  rw [mem_stamps] at ht ⊢
  rcases ht with ht | ⟨d, hd, rfl⟩ | ht
  · exact inl (inl ht)
  · have hsub := w.challenges.deleteWhere_sub fun d => decide (d.expiresAt ≤ c.createdAt)
    have hd' := get?_of_mem hd
    rw [Portal.createAuthChallenge, get?_insert (hsub.none hnew)] at hd'
    split at hd'
    next => exact inr (Option.some.inj hd' ▸ hc)
    next => exact inl (inr (inl ⟨d, mem_of_get? (hsub hd'), rfl⟩))
  · exact inl (inr (inr ht))

theorem Inv.consumeAuthChallenge (id : String) :
    ({ w with challenges := w.challenges.remove id } : Portal).Inv := by
  refine h.advance rfl rfl rfl fun t ht => inl ?_
  rw [mem_stamps] at ht ⊢
  refine ht.imp_right (imp_left ?_)
  rintro ⟨c, hc, hct⟩
  exact ⟨c, mem_of_get? (w.challenges.remove_sub id (get?_of_mem hc)), hct⟩

/-- The requests of the provider hold no version. -/
theorem Inv.requests (requests : Table OidcAuthRequest.state) :
    ({ w with requests } : Portal).Inv :=
  h.advance rfl rfl rfl fun _ ht => inl ht

/-- A user who is made in the course of a login is up to date. -/
theorem Inv.provision (hrun : (UserOp.createUser user).run toLower w.db = .ok db)
    (hnew : user.id ∉ w.ids) (hl : l.stamps = [(w.read user).stamp]) :
    ((w.commit (.createUser user) db).begin l).Inv := by
  have hcommit : (w.commit (.createUser user) db).Inv :=
    h.commit hrun nofun fun id hid => Option.some.inj hid ▸ hnew
  obtain ⟨hnone, husers⟩ := createUser_row hrun
  refine hcommit.begin fun t ht => ?_
  rw [hl] at ht
  obtain rfl := mem_singleton.mp ht
  refine ⟨mem_cons_self, fun u hu => ?_⟩
  replace hu : db.users.get? (user.stored toLower).id = some u := hu
  rw [husers, get?_insert hnone, if_pos rfl] at hu
  cases hu
  refine ⟨Int64.le_refl _, fun hmem => ?_⟩
  have hall : (w.commit (.createUser user) db).revoked = w.revoked := by
    show w.revoked ++ (w.db.users.rows.filter fun _ => false).map User.id = w.revoked
    simp
  rw [hall, show (w.read user).stamp.since = w.revoked.length from rfl, drop_length] at hmem
  cases hmem

theorem Inv.issue {k : IssuedToken} (hk : w.Behind k.reading.stamp) :
    ({ w with tokens := k :: w.tokens } : Portal).Inv := by
  refine h.advance rfl rfl rfl fun t ht => ?_
  rw [mem_stamps] at ht ⊢
  rcases ht with ht | ht | ⟨k', hk', rfl⟩
  · exact inl (inl ht)
  · exact inl (inr (inl ht))
  · rcases mem_cons.mp hk' with rfl | hk'
    · exact inr hk
    · exact inl (inr (inr ⟨k', hk', rfl⟩))

end

end

theorem Inv.step (h : w.Inv) (hs : PortalStep toLower j secret w op? w') : w'.Inv := by
  cases hs with
  | commit op hrun hfits hnew => exact h.commit hrun hfits hnew
  | elsewhere husers => exact h.elsewhere husers
  | findUserByUsername username hu =>
    refine h.begin fun t ht => ?_
    obtain rfl := mem_singleton.mp ht
    exact h.behind_read hu _
  | verifyPassword ls ls' hw => exact h.move hw fun t ht => inl ht
  | passwordProvider ls ls' hw hu =>
    refine h.move hw fun t ht => inr ?_
    obtain rfl := mem_singleton.mp ht
    exact h.behind_read (mem_of_get? hu) _
  | unknownName hu =>
    refine h.begin fun t ht => ?_
    obtain rfl := mem_singleton.mp ht
    exact h.behind_read (mem_of_get? hu) _
  | provisionExternalUser hversion hrun hnew => exact h.provision hrun hnew rfl
  | accept ls ls' input hw => exact h.move hw fun t ht => inl ht
  | createAuthChallenge ls ls' id rustdeskId clientUuid now hw hTOTP huser hnew =>
    exact (h.abandon hw).createAuthChallenge
      ((h.behind_login hw (mem_singleton.mpr rfl)).congr rfl rfl rfl) hnew
  | findAuthChallenge id now hc hlive =>
    refine h.begin fun t ht => ?_
    obtain rfl := mem_singleton.mp ht
    exact h.behind _ (mem_stamps.mpr (inr (inl ⟨_, mem_of_get? hc, rfl⟩)))
  | @confirm ls ls' c u hw hu henabled hversion =>
    -- the record is a new one, but with the version and the user of the challenge
    have hstamp : (⟨u, c.first, c.since⟩ : Reading).stamp = c.stamp := by
      have hid : u.id = c.userId := get?_key hu
      rw [Reading.stamp, AuthChallenge.stamp, hid, hversion]
    refine h.move hw fun t ht => inl ?_
    rw [Login.stamps, hstamp] at ht
    simpa [Login.stamps] using ht
  | consumeAuthChallenge ls ls' ip userAgent now hw hd hlive =>
    refine (h.consumeAuthChallenge _).move hw fun t ht => inl ?_
    exact mem_cons_of_mem _ ht
  | createOIDCAuthRequest => exact h.requests _
  | callback state id now hq hlive hlink hu =>
    refine h.begin fun t ht => ?_
    obtain rfl := mem_singleton.mp ht
    exact h.behind_read (mem_of_get? hu) _
  | register state now hq hlive hlink hversion hrun hnew => exact h.provision hrun hnew rfl
  | completeOIDCAuthRequest ls ls' hw => exact (h.abandon hw).requests _
  | completeOtherwise => exact h.requests _
  | consumeOIDCAuthRequest =>
    refine (h.requests _).begin fun t ht => ?_
    cases ht
  | authQuery ls ls' hw herror hu =>
    refine h.move hw fun t ht => inr ?_
    obtain rfl := mem_singleton.mp ht
    exact h.behind_read (mem_of_get? hu) _
  | createSession ls ls' id now ttl hw hdb =>
    exact (h.elsewhere (createSession_users hdb)).move hw fun t ht => inl ht
  | @updateLastLogin ls ls' r session hw =>
    have hrun : (UserOp.updateLastLogin r.user.id session.createdAt).run toLower w.db
        = .ok (w.db.updateLastLogin r.user.id session.createdAt) := rfl
    have hcommit := h.commit hrun nofun nofun
    exact hcommit.move hw fun t ht => inl ht
  | issue ls ls' ttl hw =>
    have hk := h.behind_login hw (mem_singleton.mpr rfl)
    exact (h.abandon hw).issue (hk.congr rfl rfl rfl)
  | abandon ls ls' hw => exact h.abandon hw

/-- What a token says about the record that it was signed from. -/
def Signed (j : Jws) (secret : String) (w : Portal) : Prop :=
  ∀ k ∈ w.tokens, k.raw = j.sign secret hs256Header k.claims.toJson ∧
    k.claims.subject = k.reading.user.id ∧ k.claims.tokenVersion = k.reading.user.tokenVersion

theorem Signed.step (h : w.Signed j secret) (hs : PortalStep toLower j secret w op? w') :
    w'.Signed j secret := by
  cases hs with
  | issue =>
    intro k hk
    rcases mem_cons.mp hk with rfl | hk
    · exact ⟨rfl, rfl, rfl⟩
    · exact h k hk
  | _ => exact h

end Portal

/-! ## Authentication -/

section

variable {raw : String} {m : TokenManager} {now : Nat}

/-- Whatever the manager makes of a token, it is what was signed. -/
theorem parse_signed {c : GoClaims} (hsecret : m.secret = secret)
    (hj : j.Reads secret hs256Header claims.toJson)
    (h : m.parse j now (j.sign secret hs256Header claims.toJson) = .ok c) : c = claims := by
  have hopen : j.verified m.secret (j.sign secret hs256Header claims.toJson)
      = some (hs256Header, claims.toJson) := hsecret ▸ hj
  have halg : (Decoder.field "alg" Decoder.string hs256Header).toOption = some "HS256" := rfl
  unfold TokenManager.parse at h
  rw [hopen] at h
  simp only [halg, ne_eq, not_true_eq_false, if_false, decode_goClaims] at h
  split at h
  next => cases h
  split at h
  next => cases h
  split at h
  next => cases h
  next => exact (Except.ok.inj h).symm

/-- The API lets a token pass only if the row has its version. -/
theorem authenticate_version {session : Session}
    (h : s.authenticate j m now raw = .ok (user, session, claims)) :
    m.parse j now raw = .ok claims ∧ s.users.get? claims.subject = some user ∧
      user.tokenVersion = claims.tokenVersion := by
  unfold Store.authenticate at h
  split at h
  next => cases h
  next c hparse =>
    split at h
    next => cases h
    next u hu =>
      split at h
      next => cases h
      split at h
      next => cases h
      split at h
      next => cases h
      split at h
      next => cases h
      split at h
      next => cases h
      split at h
      next => cases h
      next hfresh =>
        simp only [Except.ok.injEq, Prod.mk.injEq] at h
        obtain ⟨rfl, rfl, rfl⟩ := h
        exact ⟨hparse, hu, not_not.mp fun hne => hfresh (inl hne)⟩

end

def samplePortal : Portal := ⟨sampleDatabase, .empty, .empty, [], [], ["user-1"], []⟩

theorem samplePortal_start : samplePortal.Start :=
  ⟨rfl, rfl, rfl, rfl, rfl, fun u hu => by
    obtain rfl := mem_singleton.mp hu
    exact mem_singleton.mpr rfl⟩

/-- The session of a login of the user, and the one token that is signed. -/
def openedSession : Session := newSession "login-2" sampleUser ⟨"", "", ""⟩ 1 2000

def tokenOf (user : User) : Jws where
  sign _ _ _ := "token"
  verified _ _ := some (hs256Header, ((apiTokens "secret" 1500).claims user openedSession 1).toJson)

theorem forceRelogin_fits (id : String) (now : Nat) :
    (UserOp.forceRelogin id now).Fits sampleDatabase := by
  intro u hu _
  obtain rfl := mem_singleton.mp hu
  decide

/-- A client's request, as `Begin` stores it. -/
def sampleRequest : OidcAuthRequest := ⟨"state", "poll", "", "", "", "", "", "", "", 1, 300001, 0⟩

/-- The user's row after the forced login. -/
def reloggedUser : User :=
  { sampleUser with tokenVersion := 2, forceReloginAt := 1, updatedAt := 1 }

end RemoteControl.Sync
