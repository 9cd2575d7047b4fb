import RemoteControl.Sync.Cache
import Mathlib.Logic.Function.Basic

/-!
# The event hub

`art-api/internal/events/hub.go`. `Publish` is two operations here, because it is
not one to the other publishers: `number` draws the revision from an atomic
counter, and only `deliver` runs under the mutex.

> Between the two, an event with a higher revision may be delivered first.

Channels and the history are lists, oldest event first.
-/

namespace RemoteControl.Sync

variable {e : EventEnvelope}

def historyLimit : Nat := 1024

/-- The capacity of a subscriber's channel. -/
def channelSize : Nat := 64

structure Hub where
  sourceId : String
  revision : Nat
  nextId : Nat
  subscribers : Nat → Option (List EventEnvelope)
  history : List EventEnvelope

/-- `NewHub`, given the UUID it draws. -/
def Hub.new (sourceId : String) : Hub := ⟨sourceId, 0, 0, fun _ => none, []⟩

/-- `Publish` before the lock. -/
def Hub.number (kind : String) (payload : Lib.Json) (h : Hub) : EventEnvelope × Hub :=
  (⟨h.sourceId, h.revision + 1, kind, payload⟩, { h with revision := h.revision + 1 })

/-- A send that does not wait: a full channel misses the event. -/
def offer (e : EventEnvelope) (channel : List EventEnvelope) : List EventEnvelope :=
  if channel.length < channelSize then channel ++ [e] else channel

def keepLast (limit : Nat) (events : List EventEnvelope) : List EventEnvelope :=
  events.drop (events.length - limit)

theorem keepLast_sublist (limit : Nat) (events : List EventEnvelope) :
    (keepLast limit events).Sublist events := List.drop_sublist _ _

/-- `Publish` under the lock. -/
def Hub.deliver (e : EventEnvelope) (h : Hub) : Hub :=
  { h with
    history := keepLast historyLimit (h.history ++ [e])
    subscribers := fun id => (h.subscribers id).map (offer e) }

/-- What a subscriber with this cursor has missed. -/
def Hub.backlog (sourceId : String) (revision : Nat) (h : Hub) : List EventEnvelope :=
  h.history.filter fun e => sourceId ≠ h.sourceId ∨ revision < e.revision

/-- `SubscribeAfter`: the new subscriber, its backlog, and the hub. -/
def Hub.subscribeAfter (sourceId : String) (revision : Nat) (h : Hub) :
    Nat × List EventEnvelope × Hub :=
  (h.nextId + 1, h.backlog sourceId revision,
    { h with
      nextId := h.nextId + 1
      subscribers := Function.update h.subscribers (h.nextId + 1) (some []) })

/-- The returned closure that ends a subscription. -/
def Hub.unsubscribe (id : Nat) (h : Hub) : Hub :=
  { h with subscribers := Function.update h.subscribers id none }

def Hub.channel (id : Nat) (h : Hub) : List EventEnvelope := (h.subscribers id).getD []

def Hub.receive (id : Nat) (h : Hub) : Option (EventEnvelope × Hub) := match h.subscribers id with
  | some (e :: rest) =>
    some (e, { h with subscribers := Function.update h.subscribers id (some rest) })
  | _ => none

/-! ## Channels -/

section

variable {h h' : Hub} {id other : Nat}

theorem Hub.history_deliver : (h.deliver e).history = keepLast historyLimit (h.history ++ [e]) := by
  simp only [Hub.deliver]

theorem Hub.history_deliver_sublist : (h.deliver e).history.Sublist (h.history ++ [e]) := by
  rw [Hub.history_deliver]
  exact keepLast_sublist _ _

theorem Hub.mem_history_deliver {x : EventEnvelope} (hx : x ∈ (h.deliver e).history) :
    x ∈ h.history ∨ x = e := by
  have hmem : x ∈ h.history ++ [e] := Hub.history_deliver_sublist.subset hx
  simpa using hmem

/-- A channel with room gets the event. -/
theorem Hub.channel_deliver (hs : (h.subscribers id).isSome = true)
    (hroom : (h.channel id).length < channelSize) :
    (h.deliver e).channel id = h.channel id ++ [e] := by
  obtain ⟨ch, hch⟩ := Option.isSome_iff_exists.mp hs
  simp only [Hub.channel, hch, Option.getD_some] at hroom
  simp [Hub.channel, Hub.deliver, hch, offer, hroom]

theorem Hub.channel_deliver_cases :
    (h.deliver e).channel id = h.channel id ∨ (h.deliver e).channel id = h.channel id ++ [e] := by
  unfold Hub.channel Hub.deliver
  cases hs : h.subscribers id with
  | none => exact Or.inl (by simp [hs])
  | some ch =>
    by_cases hroom : ch.length < channelSize
    · exact Or.inr (by simp [hs, offer, hroom])
    · exact Or.inl (by simp [hs, offer, hroom])

theorem Hub.receive_eq (hr : h.receive id = some (e, h')) :
    ∃ rest, h.subscribers id = some (e :: rest) ∧
      h' = { h with subscribers := Function.update h.subscribers id (some rest) } := by
  unfold Hub.receive at hr
  split at hr
  next e' rest hs =>
    simp only [Option.some.injEq, Prod.mk.injEq] at hr
    obtain ⟨rfl, rfl⟩ := hr
    exact ⟨rest, hs, rfl⟩
  next => cases hr

theorem Hub.channel_receive (hr : h.receive id = some (e, h')) :
    h.channel id = e :: h'.channel id := by
  obtain ⟨rest, hs, rfl⟩ := Hub.receive_eq hr
  simp [Hub.channel, hs]

theorem Hub.channel_receive_other (hr : h.receive other = some (e, h')) (hne : id ≠ other) :
    h'.subscribers id = h.subscribers id := by
  obtain ⟨rest, hs, rfl⟩ := Hub.receive_eq hr
  exact Function.update_of_ne hne _ _

end

end RemoteControl.Sync
