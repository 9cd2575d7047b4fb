import RemoteControl.Api.Compaction

/-!
# Rotating a relay's credential

A relay trades an enrolment code for a credential token. A new enrolment and a revocation clear
the hash in the relay's row, and with it the token is void:

> every statement that writes for a relay asks the row for the hash once more, so a check that
> was made before the rotation does not help the request.

The registry is the delivery system together with what the API has handed out: the codes and
the tokens they were traded for. Both are random and were not handed out before.
-/

namespace RemoteControl.Api

open Lib List Table Option

variable {c : Call} {db : Db} {now : Nat} {token id : String} {hash : String → String}

/-- What is assumed of `Hash`: no collisions, and no token hashes to the empty text. -/
structure CollisionFree (hash : String → String) : Prop where
  injective : ∀ {a b}, hash a = hash b → a = b
  nonempty : ∀ a, hash a ≠ ""

/-! ## Requests -/

/-- `checkRelayCredential`, which a relay passes when it connects. -/
def Db.checkRelayCredential (hash : String → String) (id token : String) (db : Db) : Bool :=
  (db.relays.get? id).any (fun r => r.enabled)
    && (db.credentials.get? id).any (fun c => c.matches hash token)

/-- Whether the `UPDATE` of `ConsumeRelayEnrollment` finds the row. -/
def Db.redeemable (id enrollmentHash : String) (now : Nat) (db : Db) : Bool :=
  (db.relays.get? id).any (fun r => r.enabled) && (db.credentials.get? id).any fun c =>
    c.enrollmentHash = enrollmentHash && c.enrollmentHash ≠ "" && now < c.enrollmentExpires

/-- A token that was handed out, and for what. -/
structure Issue where
  relayId : String
  code : String
  token : String
deriving DecidableEq, Repr

structure Registry where
  sys : Deliveries
  codes : List String
  issues : List Issue

def Registry.withDb (db : Db) (r : Registry) : Registry := { r with sys := { r.sys with db := db } }

/-- The statement of `createRelayEnrollment`, for the code it has made. Whether the relay is
enabled was asked before, and may have changed. -/
def Registry.createRelayEnrollment (hash : String → String) (id code : String) (now : Nat)
    (generation : String) (r : Registry) : Registry :=
  { r.withDb (r.sys.db.putRelayEnrollment id (hash code) (now + 600000) generation) with
    codes := code :: r.codes }

/-- `enrollRelay`, for the token it has made; the token is sent only if a row was updated. -/
def Registry.enrollRelay (hash : String → String) (id code token : String) (now : Nat)
    (r : Registry) : Registry :=
  if 128 < id.utf8ByteSize ∨ code.utf8ByteSize ≠ 43 then r
  else
    { r.withDb (r.sys.db.consumeRelayEnrollment id (hash code) (hash token) now) with
      issues := if r.sys.db.redeemable id (hash code) now then ⟨id, code, token⟩ :: r.issues
        else r.issues }

def Registry.revokeRelayCredential (id : String) (r : Registry) : Registry :=
  r.withDb (r.sys.db.revokeRelayCredential id)

inductive RegistryEvent
  | createEnrollment (id code : String)
  | enroll (id code token : String)
  | revoke (id : String)
  | deliver (l : Label)

/-- The operations that the registry performs itself. -/
def Label.rotates : Label → Bool
  | .admin (.putEnrollment ..) | .admin (.consumeEnrollment ..)
  | .admin (.revokeCredential _) => true
  | _ => false

inductive RegistryStep (hash : String → String) : Registry → RegistryEvent → Registry → Prop
  | createEnrollment {r : Registry} (id code : String) (now : Nat) (generation : String)
      (hfresh : code ∉ r.codes) :
      RegistryStep hash r (.createEnrollment id code)
        (r.createRelayEnrollment hash id code now generation)
  | enroll {r : Registry} (id code token : String) (now : Nat)
      (hfresh : ∀ i ∈ r.issues, i.token ≠ token) :
      RegistryStep hash r (.enroll id code token) (r.enrollRelay hash id code token now)
  | revoke {r : Registry} (id : String) :
      RegistryStep hash r (.revoke id) (r.revokeRelayCredential id)
  | deliver {r : Registry} {l : Label} {sys : Deliveries} (hl : l.rotates = false)
      (h : Step hash r.sys l sys) : RegistryStep hash r (.deliver l) { r with sys := sys }

def Registry.empty : Registry := ⟨⟨.empty, []⟩, [], []⟩

def Registry.Reached (hash : String → String) (r : Registry) : Prop :=
  Reachable (fun r => r = .empty) (RegistryStep hash) r

/-! ## The row of a credential -/

theorem get?_putRelayEnrollment (id enrollmentHash : String) (expires : Nat) (generation : String)
    (db : Db) (k : String) :
    (db.putRelayEnrollment id enrollmentHash expires generation).credentials.get? k
      = if id = k ∧ (db.relays.get? id).isSome = true then
          some ⟨id, "", enrollmentHash, expires, generation⟩
        else db.credentials.get? k := by
  fun_cases Db.putRelayEnrollment with
  | case1 hr => simp [hr]
  | case2 hr hc =>
    simp only [isSome_iff_ne_none, ne_eq, hr, not_false_eq_true, and_true]
    exact get?_insert hc k
  | case3 hr hc =>
    simp only [isSome_iff_ne_none, ne_eq, hr, not_false_eq_true, and_true, get?_updateWhere_key]
    refine ite_congr rfl ?_ fun _ => rfl
    rintro rfl
    obtain ⟨c, hc⟩ := ne_none_iff_exists'.mp hc
    rw [hc, map_some, get?_key hc]

theorem get?_consumeRelayEnrollment (id enrollmentHash tokenHash : String) (now : Nat) (db : Db)
    (k : String) :
    (db.consumeRelayEnrollment id enrollmentHash tokenHash now).credentials.get? k
      = if id = k ∧ db.redeemable id enrollmentHash now = true then
          (db.credentials.get? k).map fun c =>
            { c with hash := tokenHash, enrollmentHash := "", enrollmentExpires := 0 }
        else db.credentials.get? k := by
  unfold Db.consumeRelayEnrollment Db.redeemable
  cases hr : (db.relays.get? id).any (fun r => r.enabled) with
  | false => simp
  | true =>
    rw [if_pos rfl, Bool.true_and, get?_updateWhere]
    cases hc : db.credentials.get? k with
    | none => simp
    | some c =>
      have hkey := get?_key hc
      by_cases hk : id = k
      · subst hk
        simp [hc, hkey, apply_ite some]
      · have hne : ¬ c.relayId = id := fun h => hk (h.symm.trans hkey)
        simp [hk, hne]

theorem get?_revokeRelayCredential (id : String) (db : Db) (k : String) :
    (db.revokeRelayCredential id).credentials.get? k
      = (db.credentials.get? k).map fun c =>
          if id = k then { c with hash := "", enrollmentHash := "", enrollmentExpires := 0 }
          else c := by
  unfold Db.revokeRelayCredential
  rw [get?_updateWhere]
  cases hc : db.credentials.get? k with
  | none => rfl
  | some c =>
    have hkey := get?_key hc
    simp [hkey, eq_comm]

/-- Everything but the three operations leaves the credentials alone. -/
theorem step_credentials {s t : Deliveries} {l : Label} (hi : DbInv s.db) (hl : l.rotates = false)
    (h : Step hash s l t) : t.db.credentials = s.db.credentials := by
  have hadvance : ∀ {c : Call} {now : Nat} {db' : Db} {next : Call ⊕ Answer},
      c.advance hash now s.db = (db', next) → db'.credentials = s.db.credentials := by
    intro c now db' next ha
    rcases advance_cases ha with h | ⟨_, _, _, _, _, _, _, h⟩
      | ⟨_, _, _, _, _, _, _, _, _, _, hrec⟩
    · rw [h]
    · rw [h]
    · rw [hrec.result]
      rfl
  cases h with
  | begin | drop => rfl
  | progress now hc ha => exact hadvance ha
  | finish now hc ha => exact hadvance ha
  | admin op =>
    cases op with
    | putEnrollment | consumeEnrollment | revokeCredential => cases hl
    | compact id now =>
      obtain ⟨gone, hc⟩ := (Compacted.refl hi).compact id now
      exact hc.credentials
    | createRelay | setRelayEnabled => rfl
    | upsertConnection v =>
      simp only [AdminOp.perform, Db.upsertConnection]
      split <;> rfl

/-! ## What was handed out -/

/-- How the rows fit what was handed out: a code is used once, the code of a row is unused and no
other row has it, and a row's hash is that of a token of the relay. -/
structure RegistryInv (hash : String → String) (r : Registry) : Prop where
  db : DbInv r.sys.db
  once : (r.issues.map Issue.code).Nodup
  given : ∀ i ∈ r.issues, i.code ∈ r.codes
  unused : ∀ id k, r.sys.db.credentials.get? id = some k → k.enrollmentHash ≠ "" →
    ∃ code ∈ r.codes, k.enrollmentHash = hash code ∧ ∀ i ∈ r.issues, i.code ≠ code
  apart : ∀ id id' k k', r.sys.db.credentials.get? id = some k →
    r.sys.db.credentials.get? id' = some k' → k.enrollmentHash ≠ "" →
    k.enrollmentHash = k'.enrollmentHash → id = id'
  issued : ∀ id k, r.sys.db.credentials.get? id = some k → k.hash ≠ "" →
    ∃ i ∈ r.issues, i.relayId = id ∧ k.hash = hash i.token

theorem registryInv_empty (hash : String → String) : RegistryInv hash .empty where
  db := dbInv_empty
  once := nodup_nil
  given _ h := by cases h
  unused _ _ h := by cases h
  apart _ _ _ _ h := by cases h
  issued _ _ h := by cases h

section

variable {ev : RegistryEvent} {r r' : Registry}

theorem RegistryInv.createRelayEnrollment (hh : CollisionFree hash) (h : RegistryInv hash r)
    {code : String} (hfresh : code ∉ r.codes) (id : String) (now : Nat) (generation : String) :
    RegistryInv hash (r.createRelayEnrollment hash id code now generation) where
  db := (admin_inv (.putEnrollment id (hash code) (now + 600000) generation) h.db).1
  once := h.once
  given i hi := mem_cons_of_mem _ (h.given i hi)
  unused k c hc hne := by
    replace hc := (get?_putRelayEnrollment ..).symm.trans hc
    split at hc
    · cases hc
      refine ⟨code, mem_cons_self, rfl, fun i hi he => hfresh ?_⟩
      rw [← he]
      exact h.given i hi
    · obtain ⟨code', hcode', hrest⟩ := h.unused k c hc hne
      exact ⟨code', mem_cons_of_mem _ hcode', hrest⟩
  apart k k' c c' hc hc' hne heq := by
    replace hc := (get?_putRelayEnrollment ..).symm.trans hc
    replace hc' := (get?_putRelayEnrollment ..).symm.trans hc'
    -- the code of an old row was given before, the new one was not
    have hold : ∀ {k c}, r.sys.db.credentials.get? k = some c → c.enrollmentHash ≠ "" →
        c.enrollmentHash ≠ hash code := by
      intro k c hc hne he
      obtain ⟨code', hcode', he', -⟩ := h.unused k c hc hne
      exact hfresh (hh.injective (he.symm.trans he') ▸ hcode')
    split at hc
    next hk =>
      cases hc
      split at hc'
      next hk' => exact hk.1.symm.trans hk'.1
      next => exact absurd heq.symm (hold hc' (heq ▸ hne))
    next =>
      split at hc'
      next =>
        cases hc'
        exact absurd heq (hold hc hne)
      next => exact h.apart k k' c c' hc hc' hne heq
  issued k c hc hne := by
    replace hc := (get?_putRelayEnrollment ..).symm.trans hc
    split at hc
    · cases hc
      exact absurd rfl hne
    · exact h.issued k c hc hne

theorem redeemable_row {enrollmentHash : String} (h : db.redeemable id enrollmentHash now = true) :
    ∃ c, db.credentials.get? id = some c ∧ c.enrollmentHash = enrollmentHash ∧
      c.enrollmentHash ≠ "" := by
  obtain ⟨c, hc, hok⟩ := (any_eq_true _ _).mp (Bool.and_eq_true_iff.mp h).2
  simp only [Bool.and_eq_true, decide_eq_true_eq] at hok
  exact ⟨c, hc, hok.1.1, hok.1.2⟩

theorem RegistryInv.enrollRelay (hh : CollisionFree hash) (h : RegistryInv hash r)
    (id code token : String) (now : Nat) :
    RegistryInv hash (r.enrollRelay hash id code token now) := by
  unfold Registry.enrollRelay
  split
  · exact h
  have hdb := (admin_inv (.consumeEnrollment id (hash code) (hash token) now) h.db).1
  cases hred : r.sys.db.redeemable id (hash code) now with
  | false =>
    have hrows : ∀ k, (r.sys.db.consumeRelayEnrollment id (hash code) (hash token)
        now).credentials.get? k = r.sys.db.credentials.get? k := by
      intro k
      rw [get?_consumeRelayEnrollment, hred]
      simp
    exact ⟨hdb, h.once, h.given, fun k c hc => h.unused k c ((hrows k).symm.trans hc),
      fun k k' c c' hc hc' => h.apart k k' c c' ((hrows k).symm.trans hc)
        ((hrows k').symm.trans hc'), fun k c hc => h.issued k c ((hrows k).symm.trans hc)⟩
  | true =>
    obtain ⟨c₀, hc₀, hcode, hne₀⟩ := redeemable_row hred
    obtain ⟨code', hgiven, hcode', hunused⟩ := h.unused id c₀ hc₀ hne₀
    obtain rfl : code = code' := hh.injective (hcode.symm.trans hcode')
    -- a row that still has a code is not the one that was traded at
    have hother : ∀ {k c}, (r.sys.db.consumeRelayEnrollment id (hash code) (hash token)
        now).credentials.get? k = some c → c.enrollmentHash ≠ "" →
        r.sys.db.credentials.get? k = some c ∧ id ≠ k := by
      intro k c hc hne
      rw [get?_consumeRelayEnrollment, hred] at hc
      split at hc
      · obtain ⟨c', -, rfl⟩ := map_eq_some_iff.mp hc
        exact absurd rfl hne
      · next hk => exact ⟨hc, fun he => hk ⟨he, rfl⟩⟩
    refine ⟨hdb, ?_, ?_, fun k c hc hne => ?_, fun k k' c c' hc hc' hne heq => ?_,
      fun k c hc hne => ?_⟩
    · refine nodup_cons.mpr ⟨fun hmem => ?_, h.once⟩
      obtain ⟨i, hi, he⟩ := mem_map.mp hmem
      exact hunused i hi he
    · intro i hi
      rcases mem_cons.mp hi with rfl | hi
      · exact hgiven
      · exact h.given i hi
    · obtain ⟨hold, hk⟩ := hother hc hne
      obtain ⟨code', hcode', he, hunused'⟩ := h.unused k c hold hne
      refine ⟨code', hcode', he, fun i hi => ?_⟩
      rcases mem_cons.mp hi with rfl | hi
      · rintro rfl
        exact hk (h.apart id k c₀ c hc₀ hold hne₀ (hcode.trans he.symm))
      · exact hunused' i hi
    · exact h.apart k k' c c' (hother hc hne).1 (hother hc' (heq ▸ hne)).1 hne heq
    · replace hc := (get?_consumeRelayEnrollment ..).symm.trans hc
      rw [hred] at hc
      split at hc
      · next hk =>
        obtain ⟨c', -, rfl⟩ := map_eq_some_iff.mp hc
        exact ⟨_, mem_cons_self, hk.1, rfl⟩
      · obtain ⟨i, hi, hrest⟩ := h.issued k c hc hne
        exact ⟨i, mem_cons_of_mem _ hi, hrest⟩

theorem RegistryInv.revokeRelayCredential (h : RegistryInv hash r) (id : String) :
    RegistryInv hash (r.revokeRelayCredential id) := by
  have hrow : ∀ {k c}, (r.sys.db.revokeRelayCredential id).credentials.get? k = some c →
      c.hash = "" ∧ c.enrollmentHash = "" ∨ r.sys.db.credentials.get? k = some c := by
    intro k c hc
    rw [get?_revokeRelayCredential] at hc
    obtain ⟨c', hc', rfl⟩ := map_eq_some_iff.mp hc
    by_cases hk : id = k
    · rw [if_pos hk]
      exact .inl ⟨rfl, rfl⟩
    · rw [if_neg hk]
      exact .inr hc'
  refine ⟨(admin_inv (.revokeCredential id) h.db).1, h.once, h.given, fun k c hc hne => ?_,
    fun k k' c c' hc hc' hne heq => ?_, fun k c hc hne => ?_⟩
  · exact h.unused k c ((hrow hc).resolve_left fun hb => hne hb.2) hne
  · exact h.apart k k' c c' ((hrow hc).resolve_left fun hb => hne hb.2)
      ((hrow hc').resolve_left fun hb => hne (heq.trans hb.2)) hne heq
  · exact h.issued k c ((hrow hc).resolve_left fun hb => hne hb.1) hne

theorem RegistryInv.step (hh : CollisionFree hash) (h : RegistryInv hash r)
    (hstep : RegistryStep hash r ev r') : RegistryInv hash r' := by
  cases hstep with
  | createEnrollment id code now generation hfresh =>
    exact h.createRelayEnrollment hh hfresh id now generation
  | enroll id code token now hfresh => exact h.enrollRelay hh id code token now
  | revoke id => exact h.revokeRelayCredential id
  | deliver hl hs =>
    have hrows := step_credentials h.db hl hs
    exact ⟨(step_inv h.db hs).1, h.once, h.given, hrows ▸ h.unused, hrows ▸ h.apart,
      hrows ▸ h.issued⟩

theorem registryInv_of_reached (hh : CollisionFree hash) (h : r.Reached hash) :
    RegistryInv hash r :=
  h.invariant (fun r hr => by rw [hr]; exact registryInv_empty hash)
    (fun _ _ _ hi hs => hi.step hh hs)

end

/-! ## Void tokens -/

/-- The request was made with the token. Past its first check `AuthorizeRelay` has the hash of
the credential, and the archive is only read. -/
def Call.Carries (hash : String → String) (token : String) : Call → Prop
  | .authorize _ t _ | .event _ t _ _ | .checkCredential _ t _ => t = token
  | .authorizeInsert _ _ c => c.hash = hash token
  | .checkLive .. | .checkArchive .. => True

/-- The relay's row, if it has one, is for another token. -/
def Db.Void (hash : String → String) (id token : String) (db : Db) : Prop :=
  ∀ k, db.credentials.get? id = some k → k.hash ≠ hash token

section

variable {ev : RegistryEvent} {i : Issue} {r r' : Registry}

theorem currentGeneration_row :
    (db.currentGeneration hash id token).isSome = true →
      ∃ k, db.credentials.get? id = some k ∧ k.hash = hash token := by
  fun_cases Db.currentGeneration with
  | case1 k rel hrel hk hok => exact fun _ => ⟨k, hk, hok.1⟩
  | _ => exact nofun

/-- A request with a void token writes nothing. -/
theorem Db.Void.advance (h : db.Void hash id token) (hid : c.relayId = id)
    (hc : c.Carries hash token) (now : Nat) : (c.advance hash now db).1 = db := by
  have hcases := advance_cases (rfl : c.advance hash now db = (_, (c.advance hash now db).2))
  rcases hcases with hsame | ⟨_, uuid, k, rfl, hauth, -⟩
    | ⟨_, t, address, m, st, a, connections, rfl, -, -, hrec⟩
  · exact hsame
  · obtain rfl := hid
    revert hauth
    show (.inr (db.authorizeInsert _ uuid k now).1 : Call ⊕ Answer) = _ →
      (db.authorizeInsert _ uuid k now).2 = db
    fun_cases Db.authorizeInsert with
    | case1 hok =>
      obtain ⟨k', hk', hmatch⟩ := (any_eq_true _ _).mp hok.2.1
      simp only [Bool.and_eq_true, decide_eq_true_eq] at hmatch
      exact absurd (hmatch.1.trans hc) (h k' hk')
    | case2 => exact fun _ => rfl
  · obtain rfl := hid
    obtain rfl : t = token := hc
    obtain ⟨k, hk, hhash⟩ := currentGeneration_row (isSome_of_mem hrec.current)
    exact absurd hhash (h k hk)

/-- The step lemma: a token that was handed out and is void stays void. -/
theorem Db.Void.step (hh : CollisionFree hash) (hi : RegistryInv hash r)
    (hstep : RegistryStep hash r ev r') (hissued : i ∈ r.issues)
    (h : r.sys.db.Void hash id i.token) : i ∈ r'.issues ∧ r'.sys.db.Void hash id i.token := by
  cases hstep with
  | createEnrollment id' code now generation hfresh =>
    refine ⟨hissued, fun k hk => ?_⟩
    replace hk := (get?_putRelayEnrollment ..).symm.trans hk
    split at hk
    · cases hk
      exact (hh.nonempty _).symm
    · exact h k hk
  | enroll id' code token now hfresh =>
    unfold Registry.enrollRelay
    split
    · exact ⟨hissued, h⟩
    refine ⟨?_, fun k hk => ?_⟩
    · dsimp only
      split
      · exact mem_cons_of_mem _ hissued
      · exact hissued
    · replace hk := (get?_consumeRelayEnrollment ..).symm.trans hk
      split at hk
      · -- the row has the new token now, which is not one that was handed out
        obtain ⟨k', -, rfl⟩ := map_eq_some_iff.mp hk
        exact fun he => hfresh i hissued (hh.injective he).symm
      · exact h k hk
  | revoke id' =>
    refine ⟨hissued, fun k hk => ?_⟩
    replace hk := (get?_revokeRelayCredential ..).symm.trans hk
    obtain ⟨k', hk', rfl⟩ := map_eq_some_iff.mp hk
    split
    · exact (hh.nonempty _).symm
    · exact h k' hk'
  | deliver hl hs =>
    refine ⟨hissued, fun k hk => h k ?_⟩
    rw [← step_credentials hi.db hl hs]
    exact hk

theorem Db.Void.run (hh : CollisionFree hash) (hi : RegistryInv hash r) {evs : List RegistryEvent}
    (hrun : Run (RegistryStep hash) r evs r') (hissued : i ∈ r.issues)
    (h : r.sys.db.Void hash id i.token) : r'.sys.db.Void hash id i.token :=
  (hrun.invariant_of (I := fun r => i ∈ r.issues ∧ r.sys.db.Void hash id i.token)
    (fun _ _ _ hj hs => hj.step hh hs) (fun _ _ _ hj hv hs => hv.2.step hh hj hs hv.1) hi
    ⟨hissued, h⟩).2

/-- The step is a new enrolment of the relay, or a revocation, that is committed. -/
def RegistryEvent.Rotates (id : String) (r : Registry) : RegistryEvent → Prop
  | .createEnrollment id' _ => id' = id ∧ (r.sys.db.relays.get? id).isSome = true
  | .revoke id' => id' = id
  | _ => False

theorem void_of_rotates (hh : CollisionFree hash) (hstep : RegistryStep hash r ev r')
    (hrot : ev.Rotates id r) (token : String) : r'.sys.db.Void hash id token := by
  cases hstep with
  | createEnrollment id' code now generation hfresh =>
    obtain ⟨rfl, hrelay⟩ := hrot
    intro k hk
    replace hk := (get?_putRelayEnrollment ..).symm.trans hk
    rw [if_pos ⟨rfl, hrelay⟩] at hk
    cases hk
    exact (hh.nonempty _).symm
  | revoke id' =>
    obtain rfl : id' = id := hrot
    intro k hk
    replace hk := (get?_revokeRelayCredential ..).symm.trans hk
    obtain ⟨k', -, rfl⟩ := map_eq_some_iff.mp hk
    rw [if_pos rfl]
    exact (hh.nonempty _).symm
  | enroll | deliver => cases hrot

/-! ## Accepted tokens -/

/-- One of the checks lets the token in: the one at connecting, the first of an authorisation, or
that of an event. -/
def Db.Accepts (hash : String → String) (id token : String) (db : Db) : Prop :=
  db.checkRelayCredential hash id token = true ∨
  (db.credentials.get? id).any (fun c => c.matches hash token) = true ∨
  (db.currentGeneration hash id token).isSome = true

theorem Db.Accepts.row (h : db.Accepts hash id token) :
    ∃ k, db.credentials.get? id = some k ∧ k.hash = hash token := by
  have hmatches : (db.credentials.get? id).any (fun c => c.matches hash token) = true →
      ∃ k, db.credentials.get? id = some k ∧ k.hash = hash token := by
    intro h
    obtain ⟨k, hk, hm⟩ := (any_eq_true _ _).mp h
    rw [Credential.matches, Bool.and_eq_true, decide_eq_true_eq] at hm
    exact ⟨k, hk, hm.2⟩
  rcases h with h | h | h
  · exact hmatches (Bool.and_eq_true_iff.mp h).2
  · exact hmatches h
  · exact currentGeneration_row h

/-- **Rotation.** In every interleaving: a code is traded for one token only; once a new enrolment
or a revocation of a relay is committed, no request with a token handed out before changes the
database, however far it got; and of the tokens of a relay one at most is accepted, one that was
handed out to it. -/
theorem credentials_rotated (hh : CollisionFree hash) (hr : r.Reached hash) :
    (r.issues.map Issue.code).Nodup ∧
    (∀ ev r₁ evs r₂ id, RegistryStep hash r ev r₁ → ev.Rotates id r →
      Run (RegistryStep hash) r₁ evs r₂ → ∀ i ∈ r.issues, i.relayId = id →
      ∀ c : Call, c.relayId = id → c.Carries hash i.token →
      ∀ now, (c.advance hash now r₂.sys.db).1 = r₂.sys.db) ∧
    (∀ id token token', r.sys.db.Accepts hash id token → r.sys.db.Accepts hash id token' →
      token = token' ∧ ∃ i ∈ r.issues, i.relayId = id ∧ i.token = token) := by
  have hi := registryInv_of_reached hh hr
  refine ⟨hi.once, fun ev r₁ evs r₂ id hstep hrot hrun i hissued _ c hid hc now => ?_,
    fun id token token' h h' => ?_⟩
  · have hvoid := void_of_rotates hh hstep hrot i.token
    have hissued₁ : i ∈ r₁.issues := by
      cases hstep with
      | createEnrollment | revoke => exact hissued
      | enroll | deliver => cases hrot
    exact (hvoid.run hh (hi.step hh hstep) hrun hissued₁).advance hid hc now
  · obtain ⟨k, hk, hhash⟩ := h.row
    obtain ⟨k', hk', hhash'⟩ := h'.row
    obtain rfl := Option.some.inj (hk.symm.trans hk')
    obtain ⟨i, hi', hid, htoken⟩ := hi.issued id k hk (hhash ▸ hh.nonempty _)
    exact ⟨hh.injective (hhash.symm.trans hhash'), i, hi', hid,
      hh.injective (htoken.symm.trans hhash)⟩

end

theorem sampleHash_collisionFree : CollisionFree sampleHash where
  injective {a b} h := by
    have hlist := congrArg String.toList h
    simp only [sampleHash, String.toList_append, append_cancel_left_eq] at hlist
    exact String.toList_inj.mp hlist
  nonempty a h := by
    have hlist := congrArg String.toList h
    simp [sampleHash] at hlist

def sampleCode : String := "abcdefghijabcdefghijabcdefghijabcdefghijabc"

/-- A relay has traded its code for a token. -/
def sampleRegistry : Registry :=
  ({ Registry.empty with sys := ⟨Db.empty.createRelay "relay-1" true, []⟩ }.createRelayEnrollment
    sampleHash "relay-1" sampleCode 10 "gen-1").enrollRelay sampleHash "relay-1" sampleCode
      sampleToken 50

theorem sampleRegistry_reached : sampleRegistry.Reached sampleHash :=
  ⟨_, _, rfl, (((Run.nil _).snoc (.deliver rfl (.admin (.createRelay "relay-1" true)))).snoc
    (.createEnrollment "relay-1" sampleCode 10 "gen-1" (by decide))).snoc
    (.enroll "relay-1" sampleCode sampleToken 50 (by decide))⟩

/-- The credential is revoked between the two statements of an authorisation. -/
theorem revoked_in_between :
    ((Call.authorize "relay-1" sampleToken "conn-0001").advance sampleHash 60
      sampleRegistry.sys.db).2 = .inl (.authorizeInsert "relay-1" "conn-0001" sampleCredential) ∧
    ∀ now, ((Call.authorizeInsert "relay-1" "conn-0001" sampleCredential).advance sampleHash now
      (sampleRegistry.revokeRelayCredential "relay-1").sys.db).1
        = (sampleRegistry.revokeRelayCredential "relay-1").sys.db := by
  refine ⟨rfl, fun now => ?_⟩
  exact (credentials_rotated sampleHash_collisionFree sampleRegistry_reached).2.1
    (.revoke "relay-1") _ _ _ "relay-1" (.revoke "relay-1") rfl (.nil _)
    ⟨"relay-1", sampleCode, sampleToken⟩ (by decide) rfl
    (.authorizeInsert "relay-1" "conn-0001" sampleCredential) rfl rfl now

end RemoteControl.Api
