import RemoteControl.Sync.Publication

/-!
# What a stream of publications does

Events with consecutive revisions that a cache has not seen are all accepted, so what
the cache becomes is the list of their operations applied in turn, up to the first
event that cannot be decoded. `performed` is that list; the lemmas below compute it
for each publication.
-/

namespace RemoteControl.Sync

open Lib List

variable {body v : AclRule} {α : Type}

/-- The events get the revisions after `revision`. -/
def number (source : String) : Nat → List (String × Json) → List EventEnvelope
  | _, [] => []
  | revision, (kind, payload) :: es =>
    ⟨source, revision + 1, kind, payload⟩ :: number source (revision + 1) es

/-- The operations of a list of events, as far as the stream gets. -/
def operations : List (String × Json) → List CacheOp
  | [] => []
  | (kind, payload) :: es =>
    match decodeEvent kind payload with
    | .error _ => []
    | .ok none => operations es
    | .ok (some op) => op :: operations es

theorem apply_withCursor (st : CacheState) (op : CacheOp) (source : String) (revision : Nat) :
    CacheOp.apply { st with sourceId := source, revision := revision } op
      = { CacheOp.apply st op with sourceId := source, revision := revision } := by
  cases op <;> rfl

theorem foldl_withCursor (ops : List CacheOp) (st : CacheState) (source : String) (revision : Nat) :
    ops.foldl CacheOp.apply { st with sourceId := source, revision := revision }
      = { ops.foldl CacheOp.apply st with sourceId := source, revision := revision } := by
  induction ops generalizing st with
  | nil => rfl
  | cons op ops ih => rw [foldl_cons, apply_withCursor, ih, foldl_cons]

/-- A cache behind the first event takes them all, up to one it cannot decode. -/
theorem consume_number {source : String} (es : List (String × Json)) (st : CacheState)
    (revision : Nat) (h : st.sourceId = source → st.revision ≤ revision) :
    ∃ s r, (st.consume (number source revision es)).1
      = { (operations es).foldl CacheOp.apply st with sourceId := s, revision := r } := by
  induction es generalizing st revision with
  | nil => exact ⟨st.sourceId, st.revision, rfl⟩
  | cons e es ih =>
    obtain ⟨kind, payload⟩ := e
    unfold number CacheState.consume operations
    cases hd : decodeEvent kind payload with
    | error err =>
      rw [applyEvent_error hd]
      exact ⟨st.sourceId, st.revision, rfl⟩
    | ok op? =>
      cases op? with
      | none =>
        have hskip : st.applyEvent ⟨source, revision + 1, kind, payload⟩ = .ok st := by
          simp [CacheState.applyEvent, hd, Except.map]
        rw [hskip]
        exact ih st (revision + 1) fun hs => Nat.le_succ_of_le (h hs)
      | some op =>
        have ha : st.acceptRevision source (revision + 1)
            = some { st with sourceId := source, revision := revision + 1 } := by
          rw [CacheState.acceptRevision_eq, if_neg]
          intro hold
          have hle := h hold.1
          omega
        rw [applyEvent_ok hd ha, apply_withCursor]
        obtain ⟨s, r, hih⟩ := ih _ (revision + 1)
          (fun _ => Nat.le_refl (revision + 1) :
            { CacheOp.apply st op with sourceId := source, revision := revision + 1 }.sourceId
              = source → _)
        exact ⟨s, r, by rw [hih, foldl_withCursor, foldl_cons]⟩

/-! ## Publications -/

variable (c : Checks) (rfc3339 : Nat → String) {f : α → Publication} {g : α → CacheOp}

def events (ps : List Publication) : List (String × Json) :=
  ps.filterMap (Publication.event? c rfc3339)

/-- What HBBS does when it is sent these publications. -/
def performed (ps : List Publication) : List CacheOp := operations (events c rfc3339 ps)

section

variable {c rfc3339} {p : Publication} {k : String} {j : Json} {op : CacheOp}

theorem performed_cons (hp : p.event? c rfc3339 = some (k, j))
    (hd : decodeEvent k j = .ok (some op)) (ps : List Publication) :
    performed c rfc3339 (p :: ps) = op :: performed c rfc3339 ps := by
  simp only [performed, events, filterMap_cons, hp, operations, hd]

theorem performed_stuck {err : DecodeError} (hp : p.event? c rfc3339 = some (k, j))
    (hd : decodeEvent k j = .error err) (ps : List Publication) :
    performed c rfc3339 (p :: ps) = [] := by
  simp only [performed, events, filterMap_cons, hp, operations, hd]

end

@[simp] theorem performed_nil : performed c rfc3339 [] = [] := rfl

section

variable (ps : List Publication)

@[simp] theorem performed_userSaved (u : User) :
    performed c rfc3339 (.userSaved u :: ps) = .user u.view :: performed c rfc3339 ps := by
  refine performed_cons rfl ?_ ps
  rw [decodeEvent_userUpdated, decode_user]
  rfl

@[simp] theorem performed_userDisabled (u : User) :
    performed c rfc3339 (.userDisabled u :: ps) = .user u.view :: performed c rfc3339 ps := by
  refine performed_cons rfl ?_ ps
  rw [decodeEvent_userDisabled, decode_user]
  rfl

@[simp] theorem performed_userDeleted (id : String) :
    performed c rfc3339 (.userDeleted id :: ps)
      = .user (User.tombstone id).view :: performed c rfc3339 ps := by
  refine performed_cons rfl ?_ ps
  rw [decodeEvent_userUpdated, decode_user]
  rfl

@[simp] theorem performed_sessionsRevoked (userId : String) :
    performed c rfc3339 (.sessionsRevoked userId :: ps)
      = .revokeUserSessions userId :: performed c rfc3339 ps :=
  performed_cons rfl rfl ps

@[simp] theorem performed_aclDeleted (id : String) :
    performed c rfc3339 (.aclDeleted id :: ps) = [] :=
  performed_stuck rfl (decodeEvent_aclTombstone rfc3339 id) ps

@[simp] theorem performed_strategyDeleted (id : String) :
    performed c rfc3339 (.strategyDeleted id :: ps) = [] :=
  performed_stuck rfl (decodeEvent_strategyTombstone rfc3339 id) ps

@[simp] theorem performed_configured (login deployment : Bool) :
    performed c rfc3339 (.configured login deployment :: ps)
      = .configuration login deployment :: performed c rfc3339 ps :=
  performed_cons rfl rfl ps

@[simp] theorem performed_membershipSet (m : UserGroupMembership) :
    performed c rfc3339 (.membershipSet m :: ps) = .membership m.view :: performed c rfc3339 ps := by
  refine performed_cons rfl ?_ ps
  rw [decodeEvent_membershipUpdated, decode_membership]
  rfl

@[simp] theorem performed_deviceSaved (d : Device) :
    performed c rfc3339 (.deviceSaved d :: ps) = .device d.view :: performed c rfc3339 ps := by
  refine performed_cons rfl ?_ ps
  rw [decodeEvent_deviceUpdated, decode_device]
  rfl

variable {c} {id : String} {now : Nat}

theorem performed_aclCreated (h : c.createACLRule body id now = some v) :
    performed c rfc3339 (.aclCreated body id now :: ps)
      = .acl v.view :: performed c rfc3339 ps := by
  obtain ⟨hperm, hprio, -⟩ := Checks.createACLRule_spec h
  refine performed_cons (j := v.toJson rfc3339) ?_ (decodeEvent_acl ?_) ps
  · simp only [Publication.event?, h, Option.map_some]
  · exact decode_acl rfc3339 hperm ⟨by omega, by omega⟩

theorem performed_aclUpdated (h : c.updateACLRule body id now = some v) :
    performed c rfc3339 (.aclUpdated body id now :: ps)
      = .acl v.view :: performed c rfc3339 ps := by
  obtain ⟨hperm, hprio, -⟩ := Checks.updateACLRule_spec h
  refine performed_cons (j := v.toJson rfc3339) ?_ (decodeEvent_acl ?_) ps
  · simp only [Publication.event?, h, Option.map_some]
  · exact decode_acl rfc3339 hperm ⟨by omega, by omega⟩

theorem performed_strategyCreated {body v : Strategy} (h : c.createStrategy body id now = some v) :
    performed c rfc3339 (.strategyCreated body id now :: ps)
      = .strategy v.view :: performed c rfc3339 ps := by
  obtain ⟨hset, hprio, -⟩ := Checks.createStrategy_spec h
  refine performed_cons (j := v.toJson rfc3339) ?_ (decodeEvent_strategy ?_) ps
  · simp only [Publication.event?, h, Option.map_some]
  · exact decode_strategy rfc3339 hset ⟨by omega, by omega⟩

theorem performed_strategyUpdated {body v : Strategy} (h : c.updateStrategy body id now = some v) :
    performed c rfc3339 (.strategyUpdated body id now :: ps)
      = .strategy v.view :: performed c rfc3339 ps := by
  obtain ⟨hset, hprio, -⟩ := Checks.updateStrategy_spec h
  refine performed_cons (j := v.toJson rfc3339) ?_ (decodeEvent_strategy ?_) ps
  · simp only [Publication.event?, h, Option.map_some]
  · exact decode_strategy rfc3339 hset ⟨by omega, by omega⟩

end

/-- A list of publications that are all decoded. -/
theorem performed_map_append
    (hf : ∀ a ps, performed c rfc3339 (f a :: ps) = g a :: performed c rfc3339 ps) (as : List α)
    (ps : List Publication) :
    performed c rfc3339 (as.map f ++ ps) = as.map g ++ performed c rfc3339 ps := by
  induction as with
  | nil => rfl
  | cons a as ih => rw [map_cons, cons_append, hf, ih, map_cons, cons_append]

/-- A list of publications none of which is decoded: the first one stops the stream. -/
theorem performed_map_stuck (hf : ∀ a ps, performed c rfc3339 (f a :: ps) = []) (as : List α)
    (ps : List Publication) :
    performed c rfc3339 (as.map f ++ ps) = if as = [] then performed c rfc3339 ps else [] := by
  cases as with
  | nil => rfl
  | cons a as => simpa using hf a (as.map f ++ ps)

theorem performed_map (hf : ∀ a ps, performed c rfc3339 (f a :: ps) = g a :: performed c rfc3339 ps)
    (as : List α) : performed c rfc3339 (as.map f) = as.map g := by
  have h := performed_map_append c rfc3339 hf as []
  rwa [append_nil, performed_nil, append_nil] at h

end RemoteControl.Sync
