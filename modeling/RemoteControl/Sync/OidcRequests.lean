import RemoteControl.Sync.OidcDesk

/-!
# What becomes of an OIDC request

As long as a request is not emptied, its row and every copy of it say how it was started. That is
the invariant; what a session, a link or a completion may be follows from it, and what is left are
the emptied requests.

> An account that is deleted while it links an identity leaves a login behind, for whoever answers
> at the provider.
-/

namespace RemoteControl.Sync

open Lib List Table

variable {q : OidcAuthRequest} {e : OidcEvent} {x : OidcIdentity} {db : Store}
  {state userId : String} {p : String × String} {op : UserOp}

/-- A link is completed for its account only, and a login for an account that is new goes on
with that account. -/
def Callback.Sound (c : Callback) : Prop := match c.stage with
  | .found | .identified _ _ => True
  | .confirmed _ => c.request.linkUserId ≠ ""
  | .registering _ _ => c.request.linkUserId = ""
  | .registered _ user => c.request.linkUserId = "" ∧ user.id ∉ c.known
  | .completing userId _ =>
    c.request.linkUserId ≠ "" → userId ≠ "" → userId = c.request.linkUserId

def PollStage.request : PollStage → OidcAuthRequest
  | .polled q => q
  | .accepted q _ => q

namespace OidcDesk

/-! ## What is left of a request -/

/-- A row, or a copy of one, against the start of its request. -/
def Kept (w : OidcDesk) (q : OidcAuthRequest) : Prop :=
  ∃ userId, (q.state, userId) ∈ w.started ∧ (userId = "" → q.linkUserId = "") ∧
    (q.state ∉ w.emptied → q.linkUserId = userId)

structure Inv (w : OidcDesk) : Prop where
  once : ∀ ⦃state a b⦄, (state, a) ∈ w.started → (state, b) ∈ w.started → a = b
  bound : ∀ ⦃state userId⦄, (state, userId) ∈ w.bound → userId ≠ "" ∧ ∃ a, (state, a) ∈ w.started
  rows : ∀ q ∈ w.requests.rows, w.Kept q ∧ (q.state ∉ w.emptied → ∀ userId,
    (q.state, userId) ∈ w.bound → userId = q.linkUserId ∨ userId = q.userId)
  callbacks : ∀ c ∈ w.callbacks, w.Kept c.request ∧ c.Sound ∧ ∀ id ∈ c.known, id ∈ w.ids
  polls : ∀ p ∈ w.polls, w.Kept p.request ∧ p.request.linkUserId = ""
  users : ∀ u ∈ w.db.users.rows, u.id ∈ w.ids

section

variable {w : OidcDesk} {i : Nat} {c : Callback}

theorem Start.inv (h : w.Start) : w.Inv := by
  obtain ⟨hrequests, hcallbacks, hpolls, hstarted, hbound, -, husers⟩ := h
  constructor
  · simp [hstarted]
  · simp [hbound]
  · simp [hrequests, Table.empty]
  · simp [hcallbacks]
  · simp [hpolls]
  · exact husers

theorem Kept.login (hk : w.Kept q) (hempty : q.state ∉ w.emptied) (hlink : q.linkUserId = "") :
    (q.state, "") ∈ w.started := by
  obtain ⟨userId, hstart, -, hkept⟩ := hk
  rw [hkept hempty] at hlink
  exact hlink ▸ hstart

theorem Inv.link_empty (hi : w.Inv) (hk : w.Kept q) (hlogin : (q.state, "") ∈ w.started) :
    q.linkUserId = "" := by
  obtain ⟨userId, hstart, hkept, -⟩ := hk
  exact hkept (hi.once hstart hlogin)

/-! ### Callbacks -/

theorem Inv.next (hi : w.Inv) (hc : w.callbacks[i]? = some c) {stage : CallbackStage}
    (hs : Callback.Sound { c with stage }) : (w.next i c stage).Inv :=
  { hi with
    callbacks := by
      intro c' hc'
      rcases mem_or_eq_of_mem_set hc' with hold | rfl
      · exact hi.callbacks c' hold
      · obtain ⟨hkept, -, hknown⟩ := hi.callbacks c (mem_of_getElem? hc)
        exact ⟨hkept, hs, hknown⟩ }

theorem Inv.fail (hi : w.Inv) (hc : w.callbacks[i]? = some c) : (w.fail i c).Inv :=
  hi.next hc fun _ hne => absurd rfl hne

theorem Inv.resolve (hi : w.Inv) (hc : w.callbacks[i]? = some c) (autoRegister : Bool)
    (claims : OidcClaims) (identity : Option OidcIdentity) :
    (w.resolve autoRegister i c claims identity).Inv := by
  fun_cases OidcDesk.resolve autoRegister w i c claims identity with
  | case4 => exact hi.next hc fun _ _ => rfl
  | case5 hlink => exact hi.next hc hlink
  -- a copy without an account to link is a login's
  | case7 hlink => exact hi.next hc fun hne => absurd hne hlink
  | case9 hlink => exact hi.next hc (not_not.mp hlink)
  | _ => exact hi.fail hc

/-- A change of the accounts that only adds to the ids. -/
theorem Inv.accounts (hi : w.Inv) {ids : List String} (hids : ∀ id ∈ w.ids, id ∈ ids)
    (husers : ∀ u ∈ db.users.rows, u.id ∈ ids) : { w with db, ids }.Inv :=
  { hi with
    callbacks := fun c hc =>
      have h := hi.callbacks c hc
      ⟨h.1, h.2.1, fun id hid => hids id (h.2.2 id hid)⟩
    users := husers }

theorem Inv.run (hi : w.Inv) {toLower : String → String} (h : op.run toLower w.db = .ok db) :
    { w with db, ids := op.creates.toList ++ w.ids }.Inv := by
  refine hi.accounts (fun id hid => mem_append_right _ hid) fun u hu => ?_
  rcases UserOp.run_applied h (get?_of_mem hu) with ⟨u', hu', -⟩ | hnew
  · have hkey : u'.id = u.id := get?_key hu'
    exact mem_append_right _ (hkey ▸ hi.users u' (mem_of_get? hu'))
  · exact mem_append_left _ (by simp [hnew])

theorem Inv.register (hi : w.Inv) (hc : w.callbacks[i]? = some c) (toLower : String → String)
    {claims : OidcClaims} {attempt : Nat} (hlogin : c.request.linkUserId = "") {user : User}
    (hfresh : user.id ∉ w.ids) : (w.register toLower i c claims attempt user).Inv := by
  fun_cases OidcDesk.register toLower w i c claims attempt user with
  | case1 db hdb =>
    have hknown := (hi.callbacks c (mem_of_getElem? hc)).2.2
    have hrun : (UserOp.createUser user).run toLower w.db = .ok db := hdb
    exact Inv.next (hi.run hrun) hc ⟨hlogin, fun hin => hfresh (hknown user.id hin)⟩
  | case2 => exact hi.next hc hlogin
  | case3 => exact hi.fail hc

theorem createOIDCIdentity_some {w' : OidcDesk} (h : w.createOIDCIdentity x = some w') :
    w.identities.get? x.subject = none ∧ w' = { w with identities := w.identities.insert x } := by
  revert h
  fun_cases createOIDCIdentity w x with
  | case1 => exact nofun
  | case2 hno =>
    intro h
    simp only [Bool.or_eq_true, not_or, Option.not_isSome_iff_eq_none] at hno
    exact ⟨hno.1, (Option.some.inj h).symm⟩

theorem Inv.identities (hi : w.Inv) (identities : Table OidcIdentity.subject) :
    { w with identities }.Inv :=
  { hi with }

theorem Inv.created (hi : w.Inv) {w' : OidcDesk} (h : w.createOIDCIdentity x = some w') :
    w'.Inv ∧ w'.callbacks = w.callbacks := by
  obtain ⟨-, rfl⟩ := createOIDCIdentity_some h
  exact ⟨hi.identities _, rfl⟩

theorem Inv.record (hi : w.Inv) (hc : w.callbacks[i]? = some c) : (w.record i c).Inv := by
  have hsound := (hi.callbacks c (mem_of_getElem? hc)).2.1
  unfold Callback.Sound at hsound
  fun_cases OidcDesk.record w i c with
  | case2 claims _ w' hw' =>
    obtain ⟨hi', hcallbacks⟩ := hi.created hw'
    exact hi'.next (hcallbacks ▸ hc) fun _ _ => rfl
  | case4 claims user hstage w' hw' =>
    obtain ⟨hi', hcallbacks⟩ := hi.created hw'
    rw [hstage] at hsound
    exact hi'.next (hcallbacks ▸ hc) fun hne => absurd hsound.1 hne
  | case5 claims user _ w' hw' =>
    obtain ⟨hi', hcallbacks⟩ := hi.created hw'
    exact hi'.fail (hcallbacks ▸ hc)
  | case6 => exact hi
  | _ => exact hi.fail hc

/-! ### Requests -/

/-- Rows may go. -/
theorem Inv.requests (hi : w.Inv) {requests : Table OidcAuthRequest.state}
    (hsub : ∀ q ∈ requests.rows, q ∈ w.requests.rows) : { w with requests }.Inv :=
  { hi with rows := fun q hq => hi.rows q (hsub q hq) }

theorem mem_remove (hq : q ∈ (w.requests.remove state).rows) : q ∈ w.requests.rows :=
  mem_of_mem_filter hq

/-- A new request, of a state that no request had. -/
theorem Inv.started (hi : w.Inv) (hfresh : ∀ userId, (q.state, userId) ∉ w.started) :
    { w with
      requests := w.requests.insert { q with userId := "", error := "" }
      started := (q.state, q.linkUserId) :: w.started
      bound := if q.linkUserId = "" then w.bound else (q.state, q.linkUserId) :: w.bound }.Inv := by
  -- what is recorded of other requests says the same as before
  have hkept : ∀ {p : OidcAuthRequest}, w.Kept p → ∃ userId,
      (p.state, userId) ∈ (q.state, q.linkUserId) :: w.started ∧
        (userId = "" → p.linkUserId = "") ∧ (p.state ∉ w.emptied → p.linkUserId = userId) := by
    rintro p ⟨userId, hstart, h⟩
    exact ⟨userId, mem_cons_of_mem _ hstart, h⟩
  have hbound : ∀ {state userId}, (state, userId) ∈ (if q.linkUserId = "" then w.bound
      else (q.state, q.linkUserId) :: w.bound) → (state, userId) ∈ w.bound ∨
        (state = q.state ∧ userId = q.linkUserId ∧ q.linkUserId ≠ "") := by
    intro state userId h
    split at h
    next => exact .inl h
    next hne =>
      rcases mem_cons.mp h with heq | h
      · cases heq
        exact .inr ⟨rfl, rfl, hne⟩
      · exact .inl h
  constructor
  · intro state a b ha hb
    rcases mem_cons.mp ha with ha | ha <;> rcases mem_cons.mp hb with hb | hb
    · exact (Prod.mk.inj ha).2.trans (Prod.mk.inj hb).2.symm
    · exact absurd ((Prod.mk.inj ha).1 ▸ hb) (hfresh b)
    · exact absurd ((Prod.mk.inj hb).1 ▸ ha) (hfresh a)
    · exact hi.once ha hb
  · intro state userId h
    rcases hbound h with h | ⟨rfl, rfl, hne⟩
    · obtain ⟨hne, a, ha⟩ := hi.bound h
      exact ⟨hne, a, mem_cons_of_mem _ ha⟩
    · exact ⟨hne, q.linkUserId, mem_cons_self⟩
  · intro p hp
    rcases mem_insert hp with hp | rfl
    · obtain ⟨hk, hrow⟩ := hi.rows p hp
      refine ⟨hkept hk, fun hempty userId h => ?_⟩
      rcases hbound h with h | ⟨hstate, -, -⟩
      · exact hrow hempty userId h
      · obtain ⟨a, ha, -⟩ := hk
        exact absurd (hstate ▸ ha) (hfresh a)
    · refine ⟨⟨q.linkUserId, mem_cons_self, id, fun _ => rfl⟩, fun _ userId h => ?_⟩
      rcases hbound h with h | ⟨-, hlink, -⟩
      · obtain ⟨-, a, ha⟩ := hi.bound h
        exact absurd ha (hfresh a)
      · exact .inl hlink
  · intro c hc
    obtain ⟨hk, h⟩ := hi.callbacks c hc
    exact ⟨hkept hk, h⟩
  · intro p hp
    obtain ⟨hk, h⟩ := hi.polls p hp
    exact ⟨hkept hk, h⟩
  · exact hi.users

theorem Inv.begin (hi : w.Inv) (hfresh : ∀ userId, (q.state, userId) ∉ w.started) :
    (w.begin q).Inv := by
  have hdeleted := hi.requests fun p (hp : p ∈ (w.requests.deleteWhere
    fun p => p.expiresAt ≤ q.createdAt).rows) => mem_of_mem_filter hp
  unfold OidcDesk.begin
  dsimp only
  split
  next => exact hdeleted
  next => exact hdeleted.started hfresh

theorem isOpen_iff : isOpen state q = true ↔ q.state = state ∧ q.userId = "" ∧ q.error = "" := by
  simp [isOpen, and_assoc]

theorem mem_completesFor :
    p ∈ w.completesFor state userId ↔
      (∃ q ∈ w.requests.rows, isOpen state q) ∧ userId ≠ "" ∧ p = (state, userId) := by
  unfold completesFor
  split
  next h =>
    simp only [Bool.and_eq_true, any_eq_true, decide_eq_true_eq] at h
    rw [Option.mem_some_iff]
    exact ⟨fun heq => ⟨h.1, h.2, heq.symm⟩, fun hh => hh.2.2.symm⟩
  next h =>
    simp only [Bool.and_eq_true, any_eq_true, decide_eq_true_eq] at h
    simp only [Option.mem_def, reduceCtorEq, false_iff]
    exact fun hh => h ⟨hh.1, hh.2.1⟩

theorem Inv.complete (hi : w.Inv) (state userId error : String) :
    (w.complete i state userId error).Inv := by
  have hbound : ∀ {s u}, (s, u) ∈ (w.completesFor state userId).toList ++ w.bound →
      (s, u) ∈ w.bound ∨ (s = state ∧ u = userId ∧ userId ≠ "" ∧
        ∃ q ∈ w.requests.rows, isOpen state q) := by
    intro s u h
    rcases mem_append.mp h with h | h
    · obtain ⟨hopen, hne, heq⟩ := mem_completesFor.mp (Option.mem_toList.mp h)
      cases heq
      exact .inr ⟨rfl, rfl, hne, hopen⟩
    · exact .inl h
  exact { hi with
    bound := by
      intro s u h
      rcases hbound h with h | ⟨rfl, rfl, hne, q, hq, hopen⟩
      · exact hi.bound h
      · obtain ⟨a, ha, -⟩ := (hi.rows q hq).1
        exact ⟨hne, a, (isOpen_iff.mp hopen).1 ▸ ha⟩
    rows := by
      intro p hp
      obtain ⟨q, hq, rfl⟩ := mem_map.mp hp
      obtain ⟨hk, hrow⟩ := hi.rows q hq
      split
      next hopen =>
        obtain ⟨rfl, hnone, -⟩ := isOpen_iff.mp hopen
        refine ⟨hk, fun hempty u h => ?_⟩
        rcases hbound h with h | ⟨-, rfl, -⟩
        · -- it was bound by its start, as an open request has no user
          rcases hrow hempty u h with hlink | huser
          · exact .inl hlink
          · exact absurd (huser.trans hnone) (hi.bound h).1
        · exact .inr rfl
      next hopen =>
        refine ⟨hk, fun hempty u h => ?_⟩
        rcases hbound h with h | ⟨hstate, -, -, q', hq', hopen'⟩
        · exact hrow hempty u h
        · -- one row has the state
          have hget := get?_of_mem hq
          have hget' := get?_of_mem hq'
          rw [hstate, ← (isOpen_iff.mp hopen').1, hget'] at hget
          exact absurd (Option.some.inj hget ▸ hopen') hopen
    callbacks := fun c hc => hi.callbacks c (mem_of_mem_eraseIdx hc) }

/-- What a deletion leaves of the requests: the rows of the account are emptied. -/
theorem Inv.emptied (hi : w.Inv) (id : String) :
    { w with
      requests := w.requests.updateWhere (concerns id)
        (fun q => { q with userId := "", linkUserId := "" }) state_emptied
      emptied := (w.requests.rows.filter (concerns id)).map OidcAuthRequest.state ++ w.emptied
    }.Inv := by
  have hkept : ∀ {p : OidcAuthRequest} {states : List String}, w.Kept p → ∃ userId,
      (p.state, userId) ∈ w.started ∧ (userId = "" → p.linkUserId = "") ∧
        (p.state ∉ states ++ w.emptied → p.linkUserId = userId) := by
    rintro p states ⟨userId, hstart, hlogin, hlink⟩
    exact ⟨userId, hstart, hlogin, fun h => hlink fun hmem => h (mem_append_right _ hmem)⟩
  exact { hi with
    rows := by
      intro p hp
      obtain ⟨q, hq, rfl⟩ := mem_map.mp hp
      obtain ⟨hk, hrow⟩ := hi.rows q hq
      split
      next hid =>
        have hmem : q.state ∈
            (w.requests.rows.filter (concerns id)).map OidcAuthRequest.state ++ w.emptied :=
          mem_append_left _ (mem_map_of_mem (mem_filter.mpr ⟨hq, hid⟩))
        obtain ⟨userId, hstart, -⟩ := hk
        exact ⟨⟨userId, hstart, fun _ => rfl, fun h => absurd hmem h⟩, fun h => absurd hmem h⟩
      next =>
        exact ⟨hkept hk, fun h => hrow fun hmem => h (mem_append_right _ hmem)⟩
    callbacks := fun c hc =>
      have h := hi.callbacks c hc
      ⟨hkept h.1, h.2⟩
    polls := fun p hp =>
      have h := hi.polls p hp
      ⟨hkept h.1, h.2⟩ }

theorem Inv.commit (hi : w.Inv) {toLower : String → String} (h : op.run toLower w.db = .ok db) :
    (w.commit op db).Inv := by
  have hrun := hi.run h
  cases op with
  | deleteUser id =>
    exact (hrun.identities (w.identities.deleteWhere fun x => x.userId = id)).emptied id
  | _ => exact hrun

/-! ### Polls -/

theorem polledBy_some {pollCode rustdeskId clientUuid : String} {now : Nat}
    (h : w.polledBy pollCode rustdeskId clientUuid now = some q) :
    q ∈ w.requests.rows ∧ q.linkUserId = "" := by
  have hq := List.find?_some h
  simp only [Bool.and_eq_true, decide_eq_true_eq] at hq
  exact ⟨mem_of_find?_eq_some h, hq.1.1.2⟩

theorem Inv.dropPoll (hi : w.Inv) (i : Nat) : (w.dropPoll i).Inv :=
  { hi with polls := fun p hp => hi.polls p (mem_of_mem_eraseIdx hp) }

/-! ## Every event -/

variable (autoRegister : Bool) (toLower : String → String)

theorem Inv.perform (hi : w.Inv) (hf : w.Fresh e) : (w.perform autoRegister toLower e).Inv := by
  fun_cases OidcDesk.perform autoRegister toLower w e with
  | case1 q => exact hi.begin hf
  | case3 state now q hq =>
    -- a callback in time
    refine { hi with callbacks := fun c hc => ?_ }
    rcases mem_append.mp hc with hc | hc
    · exact hi.callbacks c hc
    · obtain rfl := mem_singleton.mp hc
      refine ⟨(hi.rows q (mem_of_get? hq)).1, trivial, fun id hid => ?_⟩
      obtain ⟨u, hu, rfl⟩ := mem_map.mp hid
      exact hi.users u hu
  | case5 i claims q known hc => exact hi.next hc trivial
  | case7 i q known claims identity hc => exact hi.resolve hc autoRegister _ _
  | case9 i user q known claims attempt hc =>
    exact hi.register hc toLower (hi.callbacks _ (mem_of_getElem? hc)).2.1 hf
  | case11 i c hc => exact hi.record hc
  | case13 => exact hi.complete _ _ _
  | case16 pollCode rustdeskId clientUuid now q hq =>
    -- a login is polled
    obtain ⟨hmem, hlink⟩ := polledBy_some hq
    refine { hi.requests fun p hp => mem_remove hp with polls := fun p hp => ?_ }
    rcases mem_append.mp hp with hp | hp
    · exact hi.polls p hp
    · obtain rfl := mem_singleton.mp hp
      exact ⟨(hi.rows q hmem).1, hlink⟩
  | case18 i q hq =>
    refine { hi with polls := fun p hmem => ?_ }
    rcases mem_or_eq_of_mem_set hmem with hold | rfl
    · exact hi.polls p hold
    · exact hi.polls (.polled q) (mem_of_getElem? hq)
  | case21 i id now ttl q user _ db hdb =>
    have husers := createSession_users hdb
    have hi' : { w with db }.Inv := { hi with users := fun u hu => hi.users u (husers ▸ hu) }
    exact hi'.dropPoll i
  | case25 => exact hi.requests fun p hp => mem_remove hp
  | case26 => exact hi.identities _
  | case27 op db hdb => exact hi.commit hdb
  | case29 => exact { hi with }
  | case31 i c _ hc => exact hi.fail hc
  | case33 =>
    exact { hi with callbacks := fun c hc => hi.callbacks c (mem_of_mem_eraseIdx hc) }
  | case17 | case19 | case22 | case34 => exact hi.dropPoll _
  -- nothing is done
  | _ => exact hi

/-! ## Identities -/

/-- Only `CreateOIDCIdentity` adds to the identities. -/
theorem identities_perform (he : ∀ i, e ≠ .record i) :
    (w.perform autoRegister toLower e).identities.Sub w.identities := by
  fun_cases OidcDesk.perform autoRegister toLower w e with
  | case11 i => exact absurd rfl (he i)
  | case26 => exact deleteWhere_sub _ _
  | case27 op db =>
    cases op with
    | deleteUser id => exact deleteWhere_sub _ _
    | _ => exact Table.Sub.refl _
  | case1 q => fun_cases OidcDesk.begin w q <;> exact Table.Sub.refl _
  | case7 i q known claims identity =>
    fun_cases OidcDesk.resolve autoRegister w i _ claims identity <;> exact Table.Sub.refl _
  | case9 i user q known claims attempt =>
    fun_cases OidcDesk.register toLower w i _ claims attempt user <;> exact Table.Sub.refl _
  | _ => exact Table.Sub.refl _

/-- What a callback adds belongs to the account of its link, or to the one it has registered. -/
theorem record_adds (hnone : w.identities.get? x.subject = none)
    (hx : (w.record i c).identities.get? x.subject = some x) :
    (∃ claims, c.stage = .confirmed claims ∧ x.userId = c.request.linkUserId) ∨
      ∃ claims user, c.stage = .registered claims user ∧ x.userId = user.id := by
  have hadds : ∀ {y : OidcIdentity}, w.identities.get? y.subject = none →
      (w.identities.insert y).get? x.subject = some x → x = y := by
    intro y hy h
    rw [get?_insert hy] at h
    split at h
    next => exact (Option.some.inj h).symm
    next => rw [hnone] at h; cases h
  have hsame : ¬ w.identities.get? x.subject = some x := by
    rw [hnone]
    intro h
    cases h
  revert hx
  fun_cases OidcDesk.record w i c with
  | case2 claims hstage w' hw' =>
    obtain ⟨hy, rfl⟩ := createOIDCIdentity_some hw'
    exact fun hx => .inl ⟨claims, hstage, by rw [hadds hy hx]⟩
  | case4 claims user hstage w' hw' | case5 claims user hstage w' hw' =>
    obtain ⟨hy, rfl⟩ := createOIDCIdentity_some hw'
    exact fun hx => .inr ⟨claims, user, hstage, by rw [hadds hy hx]⟩
  | _ => exact fun hx => absurd hx hsame

/-- No login links an account that was there, whatever is deleted. -/
theorem Inv.link (hi : w.Inv) (hnone : w.identities.get? x.subject = none)
    (hx : (w.perform autoRegister toLower e).identities.get? x.subject = some x) :
    ∃ i c, e = .record i ∧ w.callbacks[i]? = some c ∧
      ((c.request.state, "") ∈ w.started → x.userId ∉ c.known) := by
  by_cases he : ∀ i, e ≠ .record i
  · have hold := identities_perform autoRegister toLower he hx
    rw [hnone] at hold
    cases hold
  · obtain ⟨i, hrec⟩ := not_forall.mp he
    obtain rfl := not_not.mp hrec
    dsimp only [OidcDesk.perform] at hx
    split at hx
    next c hc =>
      obtain ⟨hk, hsound, -⟩ := hi.callbacks c (mem_of_getElem? hc)
      unfold Callback.Sound at hsound
      refine ⟨i, c, rfl, hc, fun hlogin => ?_⟩
      rcases record_adds hnone hx with ⟨claims, hstage, -⟩ | ⟨claims, user, hstage, huser⟩
      · rw [hstage] at hsound
        exact absurd (hi.link_empty hk hlogin) hsound
      · rw [hstage] at hsound
        exact huser ▸ hsound.2
    next =>
      rw [hnone] at hx
      cases hx

/-! ## Sessions and completions -/

theorem Inv.opens_login (hi : w.Inv) (hq : q ∈ w.opens e) (hempty : q.state ∉ w.emptied) :
    (q.state, "") ∈ w.started := by
  revert hq
  fun_cases opens w e with
  | case1 i id now ttl q' user hp =>
    intro hq
    cases hq
    obtain ⟨hk, hlink⟩ := hi.polls _ (mem_of_getElem? hp)
    exact hk.login hempty hlink
  | _ => exact nofun

theorem Inv.completes_bound (hi : w.Inv) (hp : p ∈ w.completes e) (hempty : p.1 ∉ w.emptied)
    (hbound : (p.1, userId) ∈ w.bound) : userId = p.2 := by
  unfold completes at hp
  split at hp
  next i =>
    split at hp
    next q known target error hc =>
      obtain ⟨⟨row, hrow, hopen⟩, hne, rfl⟩ := mem_completesFor.mp hp
      obtain ⟨hstate, hnone, -⟩ := isOpen_iff.mp hopen
      obtain ⟨⟨a, ha, -, hlink⟩, hrows⟩ := hi.rows row hrow
      obtain ⟨⟨b, hb, -, hcopy⟩, hsound, -⟩ := hi.callbacks _ (mem_of_getElem? hc)
      rw [hstate] at ha hlink hrows
      have hstart : b = a := hi.once hb ha
      have huser : userId = a := by
        rcases hrows hempty userId hbound with h | h
        · exact h.trans (hlink hempty)
        · exact absurd (h.trans hnone) (hi.bound hbound).1
      -- the request is a link, and so is the copy that the callback has
      have hcopy' : q.linkUserId = userId := (hcopy hempty).trans (hstart.trans huser.symm)
      have hlinked : q.linkUserId ≠ "" := hcopy' ▸ (hi.bound hbound).1
      exact hcopy'.symm.trans (hsound hlinked hne).symm
    next => cases hp
  next => cases hp

theorem Inv.proper_iff (hi : w.Inv) (e : OidcEvent) :
    w.Proper autoRegister toLower e ↔ w.Spared e := by
  constructor
  · intro h
    exact ⟨fun q hq _ => h.session q hq, fun p hp _ => h.bind p hp⟩
  · intro h
    refine ⟨fun q hq => ?_, fun x => hi.link autoRegister toLower, fun p hp userId hbound => ?_⟩
    · by_cases hempty : q.state ∈ w.emptied
      · exact h.session q hq hempty
      · exact hi.opens_login hq hempty
    · by_cases hempty : p.1 ∈ w.emptied
      · exact h.bind p hp hempty userId hbound
      · exact hi.completes_bound hp hempty hbound

/-- **Whether every request stays what it was started as.** -/
theorem requests_kept_iff (hstart : w.Start) {events : List OidcEvent}
    (hfresh : Throughout (perform autoRegister toLower) Fresh w events) :
    Throughout (perform autoRegister toLower) (Proper autoRegister toLower) w events ↔
      Throughout (perform autoRegister toLower) Spared w events :=
  throughout_congr_along (fun _ _ hi hf _ => hi.perform autoRegister toLower hf)
    (fun _ e hi _ => hi.proper_iff autoRegister toLower e) hstart.inv hfresh

/-! ### When no open request loses its account -/

/-- A request whose account was deleted is completed and fetched by nobody. -/
def Unanswered (w : OidcDesk) (e : OidcEvent) : Prop :=
  (∀ q ∈ w.opens e, q.state ∉ w.emptied) ∧ ∀ p ∈ w.completes e, p.1 ∉ w.emptied

/-- Deletions do no harm as long as no later callback or poll takes up an emptied request. -/
theorem requests_kept_of_unanswered (hstart : w.Start) {events : List OidcEvent}
    (hfresh : Throughout (perform autoRegister toLower) Fresh w events)
    (hlater : Throughout (perform autoRegister toLower) Unanswered w events) :
    Throughout (perform autoRegister toLower) (Proper autoRegister toLower) w events := by
  intro before e hpre
  have hinv := hfresh.invariant (I := Inv) (fun _ _ hi hf => hi.perform autoRegister toLower hf)
    hstart.inv before ((prefix_append _ _).trans hpre)
  obtain ⟨hopens, hcompletes⟩ := hlater before e hpre
  exact (hinv.proper_iff autoRegister toLower e).mpr
    ⟨fun q hq hempty => absurd hempty (hopens q hq),
      fun p hp hempty => absurd hempty (hcompletes p hp)⟩

/-- A deletion finds no request of its account. -/
def Undisturbed (w : OidcDesk) (e : OidcEvent) : Prop :=
  ∀ id, e = .account (.deleteUser id) → ∀ q ∈ w.requests.rows, concerns id q = false

theorem emptied_perform (he : w.Undisturbed e) :
    (w.perform autoRegister toLower e).emptied = w.emptied := by
  fun_cases OidcDesk.perform autoRegister toLower w e with
  | case27 op db =>
    cases op with
    | deleteUser id =>
      have hnone : w.requests.rows.filter (concerns id) = [] := by
        rw [filter_eq_nil_iff]
        intro q hq
        simp [he id rfl q hq]
      show (w.requests.rows.filter (concerns id)).map OidcAuthRequest.state ++ w.emptied = _
      rw [hnone]
      rfl
    | _ => rfl
  | case1 q => fun_cases OidcDesk.begin w q <;> rfl
  | case7 i q known claims identity =>
    fun_cases OidcDesk.resolve autoRegister w i _ claims identity <;> rfl
  | case9 i user q known claims attempt =>
    fun_cases OidcDesk.register toLower w i _ claims attempt user <;> rfl
  | case11 i c =>
    fun_cases OidcDesk.record w i c with
    | case2 claims _ w' hw' | case4 claims user _ w' hw' | case5 claims user _ w' hw' =>
      obtain ⟨-, rfl⟩ := createOIDCIdentity_some hw'
      rfl
    | _ => rfl
  | _ => rfl

theorem spared_of_nil (h : w.emptied = []) (e : OidcEvent) : w.Spared e := by
  refine ⟨fun q _ hq => ?_, fun p _ hp => ?_⟩
  · rw [h] at hq
    cases hq
  · rw [h] at hp
    cases hp

/-- A simple case: open requests keep their accounts. -/
theorem requests_kept_of_undisturbed (hstart : w.Start) {events : List OidcEvent}
    (hfresh : Throughout (perform autoRegister toLower) Fresh w events)
    (hdeletions : Throughout (perform autoRegister toLower) Undisturbed w events) :
    Throughout (perform autoRegister toLower) (Proper autoRegister toLower) w events := by
  refine requests_kept_of_unanswered autoRegister toLower hstart hfresh fun before e hpre => ?_
  have hempty := hdeletions.invariant (I := fun w => w.emptied = [])
    (fun _ _ hw he => (emptied_perform autoRegister toLower he).trans hw)
    hstart.2.2.2.2.2.1 before ((prefix_append _ _).trans hpre)
  rw [Unanswered, hempty]
  exact ⟨fun _ _ => not_mem_nil, fun _ _ => not_mem_nil⟩

end

/-! ### A link that becomes a login -/

/-- Two accounts; the provider knows the second one. -/
def sampleOidcDesk : OidcDesk where
  db := { sampleDatabase with
    users := sampleDatabase.users.put { sampleUser with id := "user-2", username := "eve" } }
  identities := Table.empty.put ⟨"subject-2", "user-2", ""⟩
  requests := .empty
  callbacks := []
  polls := []
  started := []
  bound := []
  emptied := []
  ids := ["user-1", "user-2"]

theorem sampleOidcDesk_start : sampleOidcDesk.Start := ⟨rfl, rfl, rfl, rfl, rfl, rfl, by decide⟩

def linkRequest : OidcAuthRequest :=
  ⟨"state", "poll", "", "user-1", "", "", "", "", "", 1, 300001, 0⟩

/-- The first account is deleted while its request is open. The second one then answers at the
provider, and the poll of a client without an id finds the request. -/
def takenOver : List OidcEvent :=
  [.begin linkRequest, .account (.deleteUser "user-1"), .callback "state" 2,
    .identify 0 ⟨"subject-2", ""⟩, .resolve 0, .complete 0, .poll "poll" "" "" 3, .readPolled 0,
    .openSession 0 "session-1" 4 3600000]

theorem takenOver_fresh : Throughout (perform true id) Fresh sampleOidcDesk takenOver := by
  unfold takenOver
  repeat rw [throughout_cons]
  refine ⟨fun userId h => ?_, trivial, trivial, trivial, trivial, trivial, trivial, trivial,
    trivial, throughout_nil _ _⟩
  cases h

/-- The link request gives a session for the second account. -/
theorem link_opens_session : sampleOidcDesk.Start ∧
    Throughout (perform true id) Fresh sampleOidcDesk takenOver ∧
    ((takenOver.take 8).foldl (perform true id) sampleOidcDesk).started = [("state", "user-1")] ∧
    (takenOver.foldl (perform true id) sampleOidcDesk).bound
      = [("state", "user-2"), ("state", "user-1")] ∧
    (takenOver.foldl (perform true id) sampleOidcDesk).db.sessions.rows.map Session.userId
      = ["user-2"] ∧
    ¬ Throughout (perform true id) (Proper true id) sampleOidcDesk takenOver := by
  refine ⟨sampleOidcDesk_start, takenOver_fresh, by decide, by decide, by decide, fun h => ?_⟩
  have hlast := h (takenOver.take 8) (.openSession 0 "session-1" 4 3600000) (prefix_refl _)
  have hlogin := hlast.session _ rfl
  revert hlogin
  decide

/-- The request is answered and fetched before the account goes. -/
def linkedInTime : List OidcEvent :=
  [.begin linkRequest, .callback "state" 2, .identify 0 ⟨"subject-1", ""⟩, .resolve 0, .record 0,
    .complete 0, .linkPoll "poll" "user-1" 3, .account (.deleteUser "user-1")]

theorem linkedInTime_fresh : Throughout (perform true id) Fresh sampleOidcDesk linkedInTime := by
  unfold linkedInTime
  repeat rw [throughout_cons]
  refine ⟨fun userId h => ?_, trivial, trivial, trivial, trivial, trivial, trivial, trivial,
    throughout_nil _ _⟩
  cases h

theorem linkedInTime_spared : Throughout (perform true id) Spared sampleOidcDesk linkedInTime := by
  unfold linkedInTime
  repeat rw [throughout_cons]
  exact ⟨spared_of_nil rfl _, spared_of_nil rfl _, spared_of_nil rfl _, spared_of_nil rfl _,
    spared_of_nil rfl _, spared_of_nil rfl _, spared_of_nil rfl _, spared_of_nil rfl _,
    throughout_nil _ _⟩

theorem link_in_time_kept : sampleOidcDesk.Start ∧
    ((linkedInTime.take 6).foldl (perform true id) sampleOidcDesk).bound
      = [("state", "user-1"), ("state", "user-1")] ∧
    Throughout (perform true id) (Proper true id) sampleOidcDesk linkedInTime :=
  ⟨sampleOidcDesk_start, by decide,
    (requests_kept_iff true id sampleOidcDesk_start linkedInTime_fresh).mpr linkedInTime_spared⟩

theorem undisturbed_link_kept :
    Throughout (perform true id) (Proper true id) sampleOidcDesk linkedInTime := by
  refine requests_kept_of_undisturbed true id sampleOidcDesk_start linkedInTime_fresh ?_
  unfold linkedInTime
  repeat rw [throughout_cons]
  refine ⟨nofun, nofun, nofun, nofun, nofun, nofun, nofun, fun _ _ q hq => ?_, throughout_nil _ _⟩
  cases hq

end OidcDesk

end RemoteControl.Sync
