import RemoteControl.Sync.Inventory
import RemoteControl.Sync.MirrorAdmin

/-!
# One device, several writers

The UUID, the key and the user of a deployed device belong together: they came with one
deployment. Every request but a deployment writes back the key and the user that it has
read, both of them or neither, and a deployed row keeps its UUID, so such a request may
bring an earlier deployment back but cannot mix two of them.

A deployment brings its own three. It checks the UUID when it reads, and nobody checks
it when it writes:

> if the device was deployed under another UUID in between, the row is left with the
> UUID of one deployment and the key and the user of the other.
-/

namespace RemoteControl.Sync

open Lib List Table

variable {e row : Device} {r : DeviceRequest} {now onlineTtl : Nat} {ip os uuid id : String}

/-- What identifies a deployed device. -/
def Device.deployment (d : Device) : Deployment :=
  ⟨d.rustdeskId, d.clientUuid, d.publicKey, d.deployedBy⟩

def Device.Bare (d : Device) : Prop := d.deployed = false ∧ d.publicKey = "" ∧ d.deployedBy = ""

/-! ## What a request prepares -/

section

variable {d : Device}

@[simp] theorem createdBy_rustdeskId : (d.createdBy now).rustdeskId = d.rustdeskId := by
  unfold Device.createdBy
  split <;> rfl

@[simp] theorem createdBy_groupId : (d.createdBy now).groupId = d.groupId := by
  unfold Device.createdBy
  split <;> rfl

@[simp] theorem createdBy_ownerUserId : (d.createdBy now).ownerUserId = d.ownerUserId := by
  unfold Device.createdBy
  split <;> rfl

@[simp] theorem createdBy_deployed : (d.createdBy now).deployed = d.deployed := by
  unfold Device.createdBy
  split <;> rfl

@[simp] theorem createdBy_clientUuid : (d.createdBy now).clientUuid = d.clientUuid := by
  unfold Device.createdBy
  split <;> rfl

@[simp] theorem createdBy_publicKey : (d.createdBy now).publicKey = d.publicKey := by
  unfold Device.createdBy
  split <;> rfl

@[simp] theorem createdBy_deployedBy : (d.createdBy now).deployedBy = d.deployedBy := by
  unfold Device.createdBy
  split <;> rfl

end

/-- What a request keeps of the device it has found, if it does not deploy: the deployment or
nothing, and the deployment only if its UUID is the request's. -/
structure Carries (uuid : String) (found : Option Device) (e : Device) : Prop where
  presented : e.clientUuid = uuid
  group : found = none → e.groupId = ""
  deployment : e.Bare ∨ ∃ d, found = some d ∧ e.deployed = d.deployed ∧
    e.publicKey = d.publicKey ∧ e.deployedBy = d.deployedBy ∧
    (d.deployed = true → mismatch uuid (some d) = false)

structure Deploys (uuid : String) (found : Option Device) (e : Device) : Prop where
  presented : e.clientUuid = uuid
  /-- The id was not taken. -/
  free : mismatch uuid found = false
  group : e.groupId = (found.map Device.groupId).getD ""
  deployed : e.deployed = true
  uuid_ne : e.clientUuid ≠ ""
  key_ne : e.publicKey ≠ ""
  user_ne : e.deployedBy ≠ ""
  owner_ne : e.ownerUserId ≠ ""

/-- A handler that takes what it has found, and changes nothing of the deployment. -/
theorem carries_found {found : Option Device} (huuid : e.clientUuid = uuid)
    (hgroup : e.groupId = (found.getD Device.zero).groupId)
    (hdeployed : e.deployed = (found.getD Device.zero).deployed)
    (hkey : e.publicKey = (found.getD Device.zero).publicKey)
    (huser : e.deployedBy = (found.getD Device.zero).deployedBy)
    (hsame : ∀ d, found = some d → d.deployed = true → mismatch uuid (some d) = false) :
    Carries uuid found e := by
  cases found with
  | none => exact ⟨huuid, fun _ => hgroup, Or.inl ⟨hdeployed, hkey, huser⟩⟩
  | some d =>
    refine ⟨huuid, nofun, Or.inr ⟨d, rfl, hdeployed, hkey, huser, ?_⟩⟩
    exact hsame d rfl

section

variable {t : Texts} {found : Option Device}

theorem carries_heartbeat (h : t.clientHeartbeat now found id uuid ip = .ok e) :
    e.rustdeskId = id ∧ Carries uuid found e := by
  unfold Texts.clientHeartbeat at h
  split at h
  next => cases h
  dsimp only at h
  split at h
  next => cases h
  next hok =>
    cases h
    refine ⟨by simp, carries_found (by simp) (by simp) (by simp) (by simp) (by simp) ?_⟩
    rintro d rfl hd
    simpa [hd] using hok

theorem carries_sysinfo {hostname version cpu memory username : String}
    (h : t.clientSysinfo now found id uuid ip hostname os version cpu memory username = .ok e) :
    e.rustdeskId = id ∧ Carries uuid found e := by
  unfold Texts.clientSysinfo at h
  split at h
  next => cases h
  dsimp only at h
  split at h
  next => cases h
  next hok =>
    cases h
    refine ⟨by simp, carries_found (by simp) (by simp) (by simp) (by simp) (by simp) ?_⟩
    rintro d rfl hd
    simpa [hd] using hok

theorem carries_login {name userId : String}
    (h : Texts.loginDevice now found id uuid ip name os userId = some e) :
    e.rustdeskId = id ∧ Carries uuid found e := by
  unfold Texts.loginDevice at h
  dsimp only at h
  split at h
  next => cases h
  next hok =>
    cases h
    refine ⟨by simp, carries_found (by simp) (by simp) (by simp) (by simp) (by simp) ?_⟩
    rintro d rfl -
    simp only [Bool.or_eq_true, not_or, Bool.not_eq_true] at hok
    exact hok.2

theorem carries_report (h : t.deviceHeartbeat now id uuid ip = .ok e) :
    e.rustdeskId = t.trimSpace id ∧ Carries uuid found e := by
  unfold Texts.deviceHeartbeat at h
  dsimp only at h
  split at h
  next => cases h
  cases h
  exact ⟨rfl, rfl, fun _ => rfl, Or.inl ⟨rfl, rfl, rfl⟩⟩

theorem deploys_deploy {secret pk : String} {token : Option ApiToken} {user : Option User}
    (h : t.deployDevice now found secret token user id uuid pk = .ok e)
    (huser : ∀ u, user = some u → u.id ≠ "") :
    e.rustdeskId = t.trimSpace id ∧ Deploys (t.trimSpace uuid) found e := by
  unfold Texts.deployDevice at h
  split at h
  next => cases h
  split at h
  next => cases h
  next u hu =>
    have hid : u.id ≠ "" := huser u (Option.filter_eq_some_iff.mp hu).1
    dsimp only at h
    split at h
    next => cases h
    next hvalid =>
      split at h
      next => cases h
      next hfree =>
      cases h
      simp only [Bool.or_eq_true, not_or, decide_eq_true_eq, ne_eq, not_not] at hvalid
      obtain ⟨⟨⟨-, huuid⟩, -⟩, hlength⟩ := hvalid
      refine ⟨by simp, by simp, by simpa using hfree, ?_, by simp, by simpa using huuid, ?_,
        by simpa using hid, ?_⟩
      · cases found <;> simp [Device.zero]
      · -- the empty text is the code of no byte
        intro hempty
        have hpk : t.trimSpace pk = "" := by simpa using hempty
        rw [hpk, t.keyLength_empty] at hlength
        cases hlength
      · rw [createdBy_ownerUserId]
        show (if (found.getD Device.zero).ownerUserId = "" then u.id else _) ≠ ""
        split
        next => exact hid
        next howner => exact howner

end

/-! ## The invariant -/

/-- A request that is going to write. Where it carries a deployment, the row is deployed under
the same UUID. -/
structure PendingWrite.Sound (t : Texts) (w : Inventory) (p : PendingWrite) : Prop where
  presented : p.device.clientUuid = p.request.uuid t
  group : w.devices.get? p.device.rustdeskId = none → p.device.groupId = ""
  carries : p.request.deploys = false → p.device.Bare ∨
    p.device.deployed = true ∧ p.device.deployment ∈ w.deployments ∧
      ∃ row, w.devices.get? p.device.rustdeskId = some row ∧ row.deployed = true ∧
        row.clientUuid = p.device.clientUuid
  deploys : p.request.deploys = true → p.device.deployed = true ∧ p.device.clientUuid ≠ "" ∧
    p.device.publicKey ≠ "" ∧ p.device.deployedBy ≠ "" ∧ p.device.ownerUserId ≠ "" ∧
    ∀ row, w.devices.get? p.device.rustdeskId = some row → row.groupId = p.device.groupId

def Inventory.SoundRow (w : Inventory) (d : Device) : Prop :=
  d.Bare ∨ d.deployed = true ∧ d.deployment ∈ w.deployments

structure Inventory.Inv (t : Texts) (w : Inventory) : Prop where
  given : ∀ k ∈ w.deployments, k.uuid ≠ "" ∧ k.publicKey ≠ "" ∧ k.userId ≠ ""
  rows : ∀ id d, w.devices.get? id = some d → w.SoundRow d
  pending : ∀ p ∈ w.pending, p.Sound t w
  published : ∀ x ∈ w.published, x.1.view = x.2.view

theorem Inventory.Start.inv {t : Texts} {w : Inventory} (h : w.Start) : w.Inv t := by
  obtain ⟨hrows, hpending, hdeployments, hpublished⟩ := h
  refine ⟨fun k hk => ?_, fun id d hd => Or.inl (hrows d (mem_of_get? hd)), fun p hp => ?_,
    fun x hx => ?_⟩
  · rw [hdeployments] at hk
    cases hk
  · rw [hpending] at hp
    cases hp
  · rw [hpublished] at hx
    cases hx

namespace Inventory

variable {t : Texts} {w : Inventory}

/-- The UUID that was compared with a deployed row is the row's. -/
theorem Inv.uuid_of_match (h : w.Inv t) (hrow : w.devices.get? id = some row)
    (hyes : row.deployed = true)
    (hmatch : mismatch uuid (some (row.listed now onlineTtl)) = false) : row.clientUuid = uuid := by
  rcases h.rows _ row hrow with ⟨hno, -⟩ | ⟨-, hmem⟩
  · rw [hyes] at hno
    cases hno
  · have huuid : row.clientUuid ≠ "" := (h.given _ hmem).1
    by_contra hne
    simp [mismatch, Device.listed, huuid, hne] at hmatch

/-- A record that was made from the row as it is now. -/
theorem Inv.sound_carries (h : w.Inv t) (hr : r.deploys = false)
    (he : Carries (r.uuid t) ((w.devices.get? e.rustdeskId).map (Device.listed now onlineTtl)) e) :
    (⟨r, e⟩ : PendingWrite).Sound t w := by
  refine ⟨he.presented, fun hnone => he.group ?_, fun _ => ?_, fun hr' => ?_⟩
  · rw [hnone]
    rfl
  · rcases he.deployment with hbare | ⟨d, hd, hdeployed, hkey, huser, hsame⟩
    · exact Or.inl hbare
    · obtain ⟨row, hrow, rfl⟩ := Option.map_eq_some_iff.mp hd
      rcases h.rows _ row hrow with ⟨hno, hnokey, hnouser⟩ | ⟨hyes, hmem⟩
      · exact Or.inl ⟨hdeployed.trans hno, hkey.trans hnokey, huser.trans hnouser⟩
      · -- the row is deployed, so the request presents its UUID
        have hmatch : row.clientUuid = e.clientUuid :=
          (h.uuid_of_match hrow hyes (hsame hyes)).trans he.presented.symm
        refine Or.inr ⟨hdeployed.trans hyes, ?_, row, hrow, hyes, hmatch⟩
        have hid : row.rustdeskId = e.rustdeskId := get?_key hrow
        have hsame : e.deployment = row.deployment := by
          simp only [Device.deployment, hid, hmatch, hkey, huser, Device.listed]
        rw [hsame]
        exact hmem
  · rw [hr] at hr'
    cases hr'

theorem sound_deploys (hr : r.deploys = true)
    (he : Deploys (r.uuid t) ((w.devices.get? e.rustdeskId).map (Device.listed now onlineTtl)) e) :
    (⟨r, e⟩ : PendingWrite).Sound t w := by
  refine ⟨he.presented, fun hnone => ?_, fun hr' => ?_, fun _ => ⟨he.deployed, he.uuid_ne,
    he.key_ne, he.user_ne, he.owner_ne, fun row hrow => ?_⟩⟩
  · show e.groupId = ""
    rw [he.group, hnone]
    rfl
  · rw [hr] at hr'
    cases hr'
  · show row.groupId = e.groupId
    rw [he.group, hrow]
    rfl

/-! ## A write -/

theorem keepUnlessGiven_of_ne {old new : String} (h : new ≠ "") : keepUnlessGiven old new = new :=
  if_neg h

theorem keepUnlessGiven_empty (old : String) : keepUnlessGiven old "" = old := if_pos rfl

variable {p : PendingWrite}

theorem stored_rustdeskId (w : Inventory) (p : PendingWrite) :
    (w.stored p).rustdeskId = p.device.rustdeskId := by
  unfold stored
  cases hrow : w.devices.get? p.device.rustdeskId with
  | none => rfl
  | some row =>
    have hid : row.rustdeskId = p.device.rustdeskId := get?_key hrow
    exact hid

theorem get?_write (w : Inventory) (p : PendingWrite) (id : String) :
    (w.write p).devices.get? id
      = if p.device.rustdeskId = id then some (w.stored p) else w.devices.get? id := by
  show (w.devices.put (w.stored p)).get? id = _
  rw [get?_put, stored_rustdeskId]

/-- A deployed row stays deployed under its UUID, and every row in its group. -/
theorem stored_keeps (hrow : w.devices.get? p.device.rustdeskId = some row) :
    (w.stored p).groupId = row.groupId ∧ (row.deployed = true →
      (w.stored p).deployed = true ∧ (w.stored p).clientUuid = row.clientUuid) := by
  have hstored : w.stored p = row.updated p.device := by
    unfold stored
    rw [hrow]
    rfl
  rw [hstored]
  refine ⟨rfl, fun hd => ⟨?_, if_pos hd⟩⟩
  show (row.deployed || p.device.deployed) = true
  rw [hd, Bool.true_or]

theorem stored_new (hrow : w.devices.get? p.device.rustdeskId = none) :
    (w.stored p).groupId = p.device.groupId := by
  unfold stored
  rw [hrow]
  rfl

/-- A request that carries no deployment changes none. -/
theorem stored_bare (hrow : w.devices.get? p.device.rustdeskId = some row) (hbare : p.device.Bare)
    (hd : row.deployed = true) : (w.stored p).deployment = row.deployment := by
  obtain ⟨-, hkey, huser⟩ := hbare
  unfold stored
  rw [hrow]
  show (⟨row.rustdeskId, if row.deployed then row.clientUuid else p.device.clientUuid,
    keepUnlessGiven row.publicKey p.device.publicKey,
    keepUnlessGiven row.deployedBy p.device.deployedBy⟩ : Deployment) = _
  rw [if_pos hd, hkey, huser, keepUnlessGiven_empty, keepUnlessGiven_empty]
  rfl

/-- A request that carries a deployment writes that one, if the UUID is the row's. -/
theorem stored_deployment (hkey : p.device.publicKey ≠ "") (huser : p.device.deployedBy ≠ "")
    (htimely : ∀ row, w.devices.get? p.device.rustdeskId = some row → row.deployed = true →
      row.clientUuid = p.device.clientUuid) : (w.stored p).deployment = p.device.deployment := by
  have hid := stored_rustdeskId w p
  unfold stored at hid ⊢
  cases hrow : w.devices.get? p.device.rustdeskId with
  | none => rfl
  | some row =>
    rw [hrow] at hid
    have huuid : (if row.deployed then row.clientUuid else p.device.clientUuid)
        = p.device.clientUuid := by
      split
      next hd => exact htimely row hrow hd
      next => rfl
    show (⟨row.rustdeskId, if row.deployed then row.clientUuid else p.device.clientUuid,
      keepUnlessGiven row.publicKey p.device.publicKey,
      keepUnlessGiven row.deployedBy p.device.deployedBy⟩ : Deployment) = _
    rw [huuid, keepUnlessGiven_of_ne hkey, keepUnlessGiven_of_ne huser]
    exact congrArg (Deployment.mk · _ _ _) hid

/-- A deployment finds the row as it was, or deployed under the UUID that it presents. -/
def Timely (w : Inventory) (p : PendingWrite) : Prop :=
  p.request.deploys = true → ∀ row, w.devices.get? p.device.rustdeskId = some row →
    row.deployed = true → row.clientUuid = p.device.clientUuid

/-- What a timely deployment publishes is, in the eyes of HBBS, what it stored. -/
theorem published_stored (h : p.Sound t w) (hr : p.request.deploys = true)
    (htimely : w.Timely p) : p.device.view = (w.stored p).view := by
  obtain ⟨hdeployed, -, hkey, huser, howner, hgroup⟩ := h.deploys hr
  have hsame := stored_deployment hkey huser (htimely hr)
  have hid : (w.stored p).rustdeskId = p.device.rustdeskId := congrArg Deployment.id hsame
  have huuid : (w.stored p).clientUuid = p.device.clientUuid := congrArg Deployment.uuid hsame
  have hpk : (w.stored p).publicKey = p.device.publicKey := congrArg Deployment.publicKey hsame
  have hrest : (w.stored p).deployed = p.device.deployed ∧
      (w.stored p).ownerUserId = p.device.ownerUserId ∧
      (w.stored p).groupId = p.device.groupId := by
    unfold stored
    cases hrow : w.devices.get? p.device.rustdeskId with
    | none => exact ⟨rfl, rfl, rfl⟩
    | some row =>
      refine ⟨?_, keepUnlessGiven_of_ne howner, hgroup row hrow⟩
      show (row.deployed || p.device.deployed) = p.device.deployed
      rw [hdeployed, Bool.or_true]
  obtain ⟨hd, howner', hgroup'⟩ := hrest
  rw [Device.view, Device.view, hid, huuid, hpk, hd, howner', hgroup']

theorem timely_of_published (hview : p.device.view = (w.stored p).view) : w.Timely p := by
  intro _ row hrow hd
  rw [← ((stored_keeps hrow).2 hd).2]
  exact (congrArg DeviceState.clientUuid hview).symm

/-- A row that nobody deployed, after a request that carries no deployment. -/
theorem stored_bare_bare (hbare : p.device.Bare)
    (hrow : ∀ row, w.devices.get? p.device.rustdeskId = some row → row.Bare) :
    (w.stored p).Bare := by
  obtain ⟨hno, hkey, huser⟩ := hbare
  unfold stored
  cases hget : w.devices.get? p.device.rustdeskId with
  | none => exact ⟨hno, hkey, huser⟩
  | some row =>
    obtain ⟨hrno, hrkey, hruser⟩ := hrow row hget
    show (row.deployed || p.device.deployed) = false ∧
      keepUnlessGiven row.publicKey p.device.publicKey = "" ∧
      keepUnlessGiven row.deployedBy p.device.deployedBy = ""
    rw [hrno, hno, hkey, huser, keepUnlessGiven_empty, keepUnlessGiven_empty]
    exact ⟨rfl, hrkey, hruser⟩

/-- **One write does not mix deployments.** -/
theorem Inv.stored_sound (h : w.Inv t) (hp : p.Sound t w) (htimely : w.Timely p) :
    (w.write p).SoundRow (w.stored p) := by
  cases hr : p.request.deploys with
  | true =>
    obtain ⟨hdeployed, -, hkey, huser, -⟩ := hp.deploys hr
    have hview := published_stored hp hr htimely
    have hstored : (w.stored p).deployed = true :=
      (congrArg DeviceState.deployed hview).symm.trans hdeployed
    refine Or.inr ⟨hstored, ?_⟩
    rw [stored_deployment hkey huser (htimely hr)]
    show _ ∈ if p.request.deploys then _ else _
    rw [if_pos hr]
    exact mem_cons_self
  | false =>
    have hsame : (w.write p).deployments = w.deployments := by
      show (if p.request.deploys then _ else _) = _
      rw [hr]
      rfl
    rw [SoundRow, hsame]
    rcases hp.carries hr with hbare | ⟨hdeployed, hmem, row, hrow, hyes, huuid⟩
    · cases hget : w.devices.get? p.device.rustdeskId with
      | none =>
        refine Or.inl (stored_bare_bare hbare fun row hrow => ?_)
        rw [hget] at hrow
        cases hrow
      | some row =>
        rcases h.rows _ row hget with hrow | ⟨hyes, hmem⟩
        · refine Or.inl (stored_bare_bare hbare fun row' hrow' => ?_)
          obtain rfl := Option.some.inj (hget.symm.trans hrow')
          exact hrow
        · refine Or.inr ⟨((stored_keeps hget).2 hyes).1, ?_⟩
          rw [stored_bare hget hbare hyes]
          exact hmem
    · -- an earlier deployment comes back as a whole
      obtain ⟨-, hkey, huser⟩ := h.given _ hmem
      refine Or.inr ⟨((stored_keeps hrow).2 hyes).1, ?_⟩
      rw [stored_deployment hkey huser fun row' hrow' _ => ?_]
      · exact hmem
      · obtain rfl := Option.some.inj (hrow.symm.trans hrow')
        exact huuid

theorem deployments_write (w : Inventory) (p : PendingWrite) :
    w.deployments ⊆ (w.write p).deployments := by
  intro k hk
  show k ∈ if p.request.deploys then _ else _
  split
  next => exact mem_cons_of_mem _ hk
  next => exact hk

/-- The requests that wait are sound after another one has written. -/
theorem Sound.write (hp : p.Sound t w) {q : PendingWrite} (hq : q.Sound t w) :
    q.Sound t (w.write p) := by
  refine ⟨hq.presented, fun hnone => hq.group ?_, fun hr => ?_, fun hr => ?_⟩
  · rw [get?_write] at hnone
    split at hnone
    next => cases hnone
    next => exact hnone
  · refine (hq.carries hr).imp_right ?_
    rintro ⟨hdeployed, hmem, row, hrow, hyes, huuid⟩
    refine ⟨hdeployed, deployments_write w p hmem, ?_⟩
    by_cases hid : p.device.rustdeskId = q.device.rustdeskId
    · rw [← hid] at hrow
      obtain ⟨hyes', huuid'⟩ := (stored_keeps hrow).2 hyes
      exact ⟨w.stored p, by rw [get?_write, if_pos hid], hyes', huuid'.trans huuid⟩
    · exact ⟨row, by rw [get?_write, if_neg hid, hrow], hyes, huuid⟩
  · obtain ⟨hdeployed, huuid, hkey, huser, howner, hgroup⟩ := hq.deploys hr
    refine ⟨hdeployed, huuid, hkey, huser, howner, fun row hrow => ?_⟩
    rw [get?_write] at hrow
    split at hrow
    next hid =>
      cases hrow
      cases hget : w.devices.get? p.device.rustdeskId with
      | none => rw [stored_new hget, hp.group hget, hq.group (hid ▸ hget)]
      | some row => rw [(stored_keeps hget).1, hgroup row (hid ▸ hget)]
    next => exact hgroup row hrow

theorem Inv.write (h : w.Inv t) (hp : p.Sound t w) (htimely : w.Timely p)
    {ps : List PendingWrite} (hps : ∀ q ∈ ps, q ∈ w.pending) :
    ({ w.write p with pending := ps } : Inventory).Inv t := by
  refine ⟨fun k hk => ?_, fun id d hd => ?_, fun q hq => ?_, fun x hx => ?_⟩
  · replace hk : k ∈ if p.request.deploys then _ else _ := hk
    split at hk
    next hr =>
      obtain ⟨-, huuid, hkey, huser, -⟩ := hp.deploys hr
      rcases mem_cons.mp hk with rfl | hk
      · exact ⟨huuid, hkey, huser⟩
      · exact h.given k hk
    next => exact h.given k hk
  · replace hd : (w.write p).devices.get? id = some d := hd
    rw [get?_write] at hd
    split at hd
    next =>
      cases hd
      exact h.stored_sound hp htimely
    next =>
      refine (h.rows id d hd).imp_right (And.imp_right fun hmem => ?_)
      exact deployments_write w p hmem
  · have hsound := Sound.write hp (h.pending q (hps q hq))
    exact ⟨hsound.presented, hsound.group, hsound.carries, hsound.deploys⟩
  · replace hx : x ∈ if p.request.deploys then _ else _ := hx
    split at hx
    next hr =>
      rcases mem_cons.mp hx with rfl | hx
      · exact published_stored hp hr htimely
      · exact h.published x hx
    next => exact h.published x hx

/-! ## Runs -/

theorem ok_of_toOption {ε α : Type} {x : Except ε α} {a : α} (h : x.toOption = some a) :
    x = .ok a := by
  cases x with
  | error err => cases h
  | ok b => exact congrArg _ (Option.some.inj h)

/-- What a request has read is sound. -/
theorem Inv.receive (h : w.Inv t)
    (hr : r.prepare t now ((w.devices.get? (r.id t)).map (Device.listed now onlineTtl)) = some e)
    (husers : ∀ secret token user id uuid pk, r = .deploy secret token (some user) id uuid pk →
      user.id ≠ "") : (⟨r, e⟩ : PendingWrite).Sound t w := by
  cases r with
  | heartbeat id uuid ip =>
    obtain ⟨rfl, hc⟩ := carries_heartbeat (ok_of_toOption hr)
    exact h.sound_carries rfl hc
  | sysinfo id uuid ip hostname os version cpu memory username =>
    obtain ⟨rfl, hc⟩ := carries_sysinfo (ok_of_toOption hr)
    exact h.sound_carries rfl hc
  | login id uuid ip name os userId =>
    obtain ⟨rfl, hc⟩ := carries_login hr
    exact h.sound_carries rfl hc
  | report id uuid ip =>
    have hc : Carries uuid ((w.devices.get? e.rustdeskId).map (Device.listed now onlineTtl)) e :=
      (carries_report (ok_of_toOption hr)).2
    exact h.sound_carries rfl hc
  | deploy secret token user id uuid pk =>
    obtain ⟨hid, hd⟩ := deploys_deploy (ok_of_toOption hr) fun u hu =>
      husers secret token u id uuid pk (hu ▸ rfl)
    have hid : e.rustdeskId = (DeviceRequest.deploy secret token user id uuid pk).id t := hid
    rw [← hid] at hd
    exact sound_deploys rfl hd

end Inventory

def TimelyStep (t : Texts) (w : Inventory) (p? : Option PendingWrite) (w' : Inventory) : Prop :=
  InventoryStep t w p? w' ∧ ∀ p ∈ p?, w.Timely p

theorem Inventory.Inv.step {t : Texts} {w w' : Inventory} {p? : Option PendingWrite}
    (h : w.Inv t) (hs : TimelyStep t w p? w') : w'.Inv t := by
  obtain ⟨hs, htimely⟩ := hs
  cases hs with
  | receive r now onlineTtl hr husers =>
    have hsound := h.receive hr husers
    refine ⟨h.given, h.rows, fun q hq => ?_, h.published⟩
    rcases mem_cons.mp hq with rfl | hq
    · exact ⟨hsound.presented, hsound.group, hsound.carries, hsound.deploys⟩
    · have hq := h.pending q hq
      exact ⟨hq.presented, hq.group, hq.carries, hq.deploys⟩
  | @write ps ps' p hw =>
    have hp : p ∈ w.pending := by
      rw [hw]
      exact mem_append_right _ mem_cons_self
    refine h.write (h.pending p hp) (htimely p rfl) fun q hq => ?_
    rw [hw]
    rcases mem_append.mp hq with hq | hq
    · exact mem_append_left _ hq
    · exact mem_append_right _ (mem_cons_of_mem _ hq)

/-- A request with another UUID leaves a deployed device as it is. -/
theorem Inventory.Sound.other_uuid {t : Texts} {w : Inventory} {p : PendingWrite} (hp : p.Sound t w)
    (htimely : w.Timely p) {d : Device} (hd : w.devices.get? id = some d)
    (hdeployed : d.deployed = true) (hother : p.request.uuid t ≠ d.clientUuid) :
    ∃ d', (w.write p).devices.get? id = some d' ∧ d'.deployed = true ∧
      d'.deployment = d.deployment := by
  by_cases hid : p.device.rustdeskId = id
  · subst hid
    refine ⟨w.stored p, by rw [get?_write, if_pos rfl], ((stored_keeps hd).2 hdeployed).1, ?_⟩
    cases hr : p.request.deploys with
    | true => exact absurd (hp.presented.symm.trans (htimely hr d hd hdeployed).symm) hother
    | false =>
      rcases hp.carries hr with hbare | ⟨-, -, row, hrow, -, huuid⟩
      · exact stored_bare hd hbare hdeployed
      · obtain rfl := Option.some.inj (hrow.symm.trans hd)
        exact absurd (hp.presented.symm.trans huuid.symm) hother
  · exact ⟨d, by rw [get?_write, if_neg hid, hd], hdeployed, rfl⟩

/-- **The identity of a deployed device.** As long as every deployment, when it writes, finds
its device not deployed or deployed under the UUID that it presents: the UUID, the key and the
user of a deployed device are those of one deployment that was answered with `OK`; a request
with another UUID does not change them; and HBBS is told what was stored. A deployment that
writes over another UUID tells HBBS something else. -/
theorem deployed_identity_iff (t : Texts) :
    (∀ w, Reachable Inventory.Start (TimelyStep t) w →
      (∀ d ∈ w.devices.rows, d.deployed = true → d.deployment ∈ w.deployments) ∧
      (∀ p w', TimelyStep t w (some p) w' → ∀ id d, w.devices.get? id = some d →
        d.deployed = true → p.request.uuid t ≠ d.clientUuid →
        ∃ d', w'.devices.get? id = some d' ∧ d'.deployed = true ∧ d'.deployment = d.deployment) ∧
      ∀ x ∈ w.published, x.1.view = x.2.view) ∧
    ∀ (w : Inventory) (p : PendingWrite), p.request.deploys = true → ¬ w.Timely p →
      ∃ x ∈ (w.write p).published, x = (p.device, w.stored p) ∧ x.1.view ≠ x.2.view := by
  refine ⟨fun w h => ?_, fun w p hr hlate => ?_⟩
  · have hinv : w.Inv t :=
      Reachable.invariant (I := Inventory.Inv t) (fun _ => Inventory.Start.inv)
        (fun _ _ _ => Inventory.Inv.step) h
    refine ⟨fun d hd hdeployed => ?_, fun p w' hs id d hd hdeployed hother => ?_, hinv.published⟩
    · rcases hinv.rows _ d (get?_of_mem hd) with ⟨hno, -⟩ | ⟨-, hmem⟩
      · rw [hdeployed] at hno
        cases hno
      · exact hmem
    · obtain ⟨hs, htimely⟩ := hs
      cases hs with
      | write ps ps' hw =>
        have hp : p ∈ w.pending := by
          rw [hw]
          exact mem_append_right _ mem_cons_self
        exact Inventory.Sound.other_uuid (hinv.pending p hp) (htimely p rfl) hd hdeployed hother
  · refine ⟨(p.device, w.stored p), ?_, rfl, fun hview => hlate ?_⟩
    · show _ ∈ if p.request.deploys then _ else _
      rw [if_pos hr]
      exact mem_cons_self
    · exact Inventory.timely_of_published hview

/-! ## One deployment at a time -/

/-- No deployment of a device writes while another one of it is in progress. -/
def SoleStep (t : Texts) (w : Inventory) (p? : Option PendingWrite) (w' : Inventory) : Prop :=
  InventoryStep t w p? w' ∧ ∀ p ∈ p?, p.request.deploys = true →
    ∀ q ∈ w'.pending, q.request.deploys = true → q.device.rustdeskId ≠ p.device.rustdeskId

namespace Inventory

variable {t : Texts} {w : Inventory} {p q : PendingWrite}

/-- A deployment that has just passed the check of its UUID. -/
theorem Inv.timely_receive (h : w.Inv t)
    (hr : r.prepare t now ((w.devices.get? (r.id t)).map (Device.listed now onlineTtl)) = some e)
    (husers : ∀ secret token user id uuid pk, r = .deploy secret token (some user) id uuid pk →
      user.id ≠ "") : w.Timely ⟨r, e⟩ := by
  intro hdeploys row hrow hyes
  cases r with
  | deploy secret token user id uuid pk =>
    obtain ⟨hid, hd⟩ := deploys_deploy (ok_of_toOption hr) fun u hu =>
      husers secret token u id uuid pk (hu ▸ rfl)
    replace hrow : w.devices.get? e.rustdeskId = some row := hrow
    have hfree := hd.free
    rw [hid] at hrow
    rw [show w.devices.get? (DeviceRequest.id t (.deploy secret token user id uuid pk)) = _ from
      hrow, Option.map_some] at hfree
    exact (h.uuid_of_match hrow hyes hfree).trans hd.presented.symm
  | _ => cases hdeploys

/-- Who does not deploy leaves a device deployed under its UUID, or not deployed. -/
theorem Inv.timely_write (h : w.Inv t) (hp : p.Sound t w) (hr : p.request.deploys = false)
    (hq : w.Timely q) : (w.write p).Timely q := by
  intro hdeploys row hrow hyes
  rw [get?_write] at hrow
  split at hrow
  next hid =>
    cases hrow
    by_cases hold : ∃ old, w.devices.get? p.device.rustdeskId = some old ∧ old.deployed = true
    · obtain ⟨old, hget, hold⟩ := hold
      rw [((stored_keeps hget).2 hold).2]
      exact hq hdeploys old (hid ▸ hget) hold
    · have hbare : p.device.Bare := by
        rcases hp.carries hr with hbare | ⟨_, _, old, hget, hyes, _⟩
        · exact hbare
        · exact absurd ⟨old, hget, hyes⟩ hold
      have hstored := stored_bare_bare hbare fun old hget =>
        (h.rows _ old hget).resolve_right fun hsound => hold ⟨old, hget, hsound.1⟩
      rw [hstored.1] at hyes
      cases hyes
  next => exact hq hdeploys row hrow hyes

/-- **The condition on the schedule**: every deployment is then timely. -/
theorem reachable_of_sole (h : Reachable Start (SoleStep t) w) :
    Reachable Start (TimelyStep t) w := by
  refine (h.invariant (I := fun w => w.Inv t ∧ (∀ q ∈ w.pending, w.Timely q) ∧
    Reachable Start (TimelyStep t) w) (fun w hw => ⟨hw.inv, ?_, _, _, hw, .nil w⟩)
    fun w p? w' ⟨hi, hq, hreach⟩ hs => ?_).2.2
  · intro q hmem
    rw [hw.2.1] at hmem
    cases hmem
  · obtain ⟨hstep, hsole⟩ := hs
    have htimely : TimelyStep t w p? w' := by
      refine ⟨hstep, fun p hp => ?_⟩
      cases hstep with
      | receive => cases hp
      | write ps ps' hw =>
        cases hp
        exact hq p (hw ▸ mem_append_right _ mem_cons_self)
    refine ⟨hi.step htimely, fun q hmem => ?_, hreach.next htimely⟩
    cases hstep with
    | receive r now onlineTtl hr husers =>
      rcases mem_cons.mp hmem with rfl | hmem
      · exact hi.timely_receive hr husers
      · exact hq q hmem
    | @write ps ps' p hw =>
      have hold : q ∈ w.pending := by
        rw [hw, mem_append, mem_cons]
        exact (mem_append.mp hmem).imp_right .inr
      cases hr : p.request.deploys with
      | true =>
        intro hdeploys row hrow hyes
        replace hrow : (w.write p).devices.get? q.device.rustdeskId = some row := hrow
        rw [get?_write, if_neg (Ne.symm (hsole p rfl hr q hmem hdeploys))] at hrow
        exact hq q hold hdeploys row hrow hyes
      | false =>
        have hp := hi.pending p (hw ▸ mem_append_right _ mem_cons_self)
        exact hi.timely_write hp hr (hq q hold)

end Inventory

/-! ## Two deployments at once -/

/-- The length of what a base64 text stands for. -/
def plainTexts : Texts := ⟨fun v => v, fun v => some (v.length * 3 / 4 - v.toList.count '='), rfl⟩

def deployToken (userId : String) : ApiToken := ⟨userId, ["devices:deploy"], 1000, none⟩

def deployRequest (userId uuid pk : String) : DeviceRequest :=
  .deploy "secret" (some (deployToken userId)) (some { sampleUser with id := userId }) "100200300"
    uuid pk

def firstDeployment : DeviceRequest :=
  deployRequest "user-1" "uuid-1" "1111111111111111111111111111111111111111111="

def secondDeployment : DeviceRequest :=
  deployRequest "user-2" "uuid-2" "2222222222222222222222222222222222222222222="

def emptyInventory : Inventory := ⟨.empty, [], [], []⟩

theorem emptyInventory_start : emptyInventory.Start :=
  ⟨fun _ h => (not_mem_nil h).elim, rfl, rfl, rfl⟩

/-- A heartbeat with another UUID has found the id free, and writes after the deployment. -/
theorem deployment_survives_heartbeat : ∃ w,
    Reachable Inventory.Start (TimelyStep plainTexts) w ∧ ∃ d ∈ w.devices.rows,
      d.clientUuid = "uuid-1" ∧ d.deployment ∈ w.deployments := by
  have hrun : Run (TimelyStep plainTexts) emptyInventory _ _ :=
    .cons ⟨.receive (.heartbeat "100200300" "uuid-9" "") 1 60000 rfl
      (by rintro _ _ _ _ _ _ h; cases h), by rintro _ h; cases h⟩ <|
    .cons ⟨.receive firstDeployment 2 60000 rfl (by rintro _ _ _ _ _ _ h; cases h; decide),
      by rintro _ h; cases h⟩ <|
    .cons ⟨.write [] [_] rfl, by rintro _ h - row hrow; cases h; cases hrow⟩ <|
    .single ⟨.write [] [] rfl, by rintro _ h hr; cases h; cases hr⟩
  have hreach : Reachable Inventory.Start (TimelyStep plainTexts) _ :=
    ⟨_, _, emptyInventory_start, hrun⟩
  obtain ⟨hrows, -⟩ := (deployed_identity_iff plainTexts).1 _ hreach
  exact ⟨_, hreach, _, mem_singleton.mpr rfl, rfl, hrows _ (mem_singleton.mpr rfl) rfl⟩

/-- **Two deployments mixed.** Both have found the id free; the second leaves the UUID of the
first with its own key and user, and publishes its own UUID. -/
theorem deployments_mixed : ∃ w, Reachable Inventory.Start (InventoryStep plainTexts) w ∧
    ∃ d ∈ w.devices.rows, d.deployed = true ∧ d.deployment
        = ⟨"100200300", "uuid-1", "2222222222222222222222222222222222222222222=", "user-2"⟩ ∧
      d.deployment ∉ w.deployments ∧ ∃ x ∈ w.published, x.1.view ≠ x.2.view := by
  have hrun : Run (InventoryStep plainTexts) emptyInventory _ _ :=
    .cons (.receive firstDeployment 1 60000 rfl (by rintro _ _ _ _ _ _ h; cases h; decide)) <|
    .cons (.receive secondDeployment 2 60000 rfl (by rintro _ _ _ _ _ _ h; cases h; decide)) <|
    .cons (.write [_] [] rfl) <|
    .single (.write [] [] rfl)
  refine ⟨_, ⟨_, _, emptyInventory_start, hrun⟩, _, mem_singleton.mpr rfl, rfl, rfl, ?_, _,
    mem_cons_self, ?_⟩
  · decide
  · decide

end RemoteControl.Sync
