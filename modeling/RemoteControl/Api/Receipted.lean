import RemoteControl.Api.DeliveryInv

/-!
# What an acknowledgement says

The store acknowledges an event in three places: when it commits the receipt,
when it finds the receipt there, and when it finds it in the archive. In all
three the receipt is on record afterwards, for the relay that asked.
-/

namespace RemoteControl.Api

open Lib

variable {c : Call} {db db' : Db} {st : Lifecycle} {m : Message} {now : Nat}
  {address token id : String} {hash : String → String}

/-- The receipt of the message was committed for this relay, and is in the receipts or
in the archive. -/
def Receipted (id : String) (m : Message) (db : Db) : Prop :=
  ∃ st generation, Lifecycle.ofString? m.status = some st ∧
    db.recorded m.uuid st = some m.requestId ∧ db.owner m.uuid = some (id, generation)

theorem Receipted.evolves (h : Receipted id m db) (he : Evolves db db') : Receipted id m db' := by
  obtain ⟨st, generation, hst, hrec, hown⟩ := h
  exact ⟨st, generation, hst, he.recorded _ _ _ hrec, he.owner _ _ hown⟩

theorem lifecycle?_ofString? (h : m.lifecycle? = some st) :
    Lifecycle.ofString? m.status = some st := by
  unfold Message.lifecycle? at h
  split_ifs at h
  exact h

theorem Receives.receipted {a : Authorization} {connections : Table ConnectionRecord.key}
    (h : Receives hash id token address m st now db db' a connections)
    (hst : m.lifecycle? = some st) : Receipted id m db' := by
  refine ⟨st, a.generation, lifecycle?_ofString? hst, ?_, ?_⟩
  · rw [Db.recorded, h.receiptFor, h.first, if_pos ⟨rfl, rfl⟩]
    rfl
  · rw [Db.owner, h.authorization, h.found]
    simp [h.relay]

/-- The branch of the transaction that finds the receipt already there. -/
theorem txPlan_repeated (hi : DbInv db) (hst : m.lifecycle? = some st)
    (h : db.txPlan hash id token address m st now = some (.inl .acknowledged)) :
    Receipted id m db := by
  revert h
  fun_cases Db.txPlan with
  | case4 a ha howner r hr hrep =>
    intro _
    simp only [ne_eq, not_or, not_not] at howner hrep
    obtain ⟨hmem, hkey⟩ := Table.get?_eq_some.mp hr
    refine ⟨st, a.generation, lifecycle?_ofString? hst, ?_, ?_⟩
    · have hfor := hi.receiptFor_of_mem hmem
      rw [hrep.1, hrep.2.2] at hfor
      rw [Db.recorded, hfor]
      exact congrArg some (Prod.mk.inj hkey).2
    · rw [Db.owner, ha, ← howner.1]
  | _ => intro h; cases h

theorem archiveAnswer_receipted {generation : String} (hi : DbInv db)
    (h : db.archiveAnswer id generation m = .acknowledged) : Receipted id m db := by
  revert h
  fun_cases Db.archiveAnswer with
  | case4 e he hid _ hack =>
    intro _
    have hauth : db.authorizations.get? m.uuid = none := by
      cases ha : db.authorizations.get? m.uuid with
      | none => rfl
      | some a => rw [hi.exclusive _ _ ha] at he; cases he
    have hown : db.owner m.uuid = some (id, e.generation) := by
      rw [Db.owner, hauth, he, ← not_not.mp hid]
      rfl
    have hrec : ∀ st, db.recorded m.uuid st = e.eventId? st := fun st => by
      rw [Db.recorded, hi.receiptFor_unauthorized hauth, he]
      rfl
    rcases hack with ⟨hs, hne, hid'⟩ | ⟨hs, hid'⟩
    · refine ⟨.active, e.generation, by rw [hs]; rfl, ?_, hown⟩
      rw [hrec, ArchiveEntry.eventId?, if_neg hne, hid']
    · refine ⟨.closed, e.generation, by rw [hs]; rfl, ?_, hown⟩
      rw [hrec, hid']
      rfl
  | _ => intro h; cases h

theorem acknowledged_receipted (hi : DbInv db) (hm : c.message? = some m)
    (h : c.advance hash now db = (db', .inr .acknowledged)) : Receipted c.relayId m db' := by
  revert h
  fun_cases Call.advance with
  | case6 id token address m' st hst r hr =>
    intro h
    cases hm
    obtain ⟨plan, hp, rfl⟩ := Option.map_eq_some_iff.mp hr
    rcases plan with ans | ⟨a, connections⟩
    · cases h
      exact txPlan_repeated hi hst hp
    · cases h
      exact (txPlan_receives hp).receipted hst
  | case10 id generation m' answer ha =>
    -- of a row that is still there, only the generation is told
    intro h
    cases h
    obtain ⟨a, -, hans⟩ := Option.map_eq_some_iff.mp ha
    split at hans <;> cases hans
  | case12 id generation m' =>
    intro h
    cases hm
    obtain ⟨rfl, hans⟩ := Prod.mk.inj h
    exact archiveAnswer_receipted hi (Sum.inr.inj hans)
  | case4 => cases hm
  | _ => intro h; cases h

theorem advance_message {c' : Call} (h : c.advance hash now db = (db', .inl c'))
    (hc : c.message?.isSome = true) : c'.message? = c.message? ∧ c'.relayId = c.relayId := by
  revert h
  fun_cases Call.advance with
  | case2 => cases hc
  | case7 | case9 | case11 =>
    intro h
    cases h
    exact ⟨rfl, rfl⟩
  | _ => intro h; cases h

end RemoteControl.Api
