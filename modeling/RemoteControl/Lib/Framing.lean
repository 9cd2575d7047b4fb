import Mathlib.Data.List.Basic

/-!
# Frames in a stream that comes in pieces

Frames end with two separators. A reader keeps what it has not yet read, adds each piece that
arrives, and handles the frames that are complete, until one makes it stop.

> It makes no difference where the pieces were cut, not even between two separators: what is kept
> of a piece is just what the next one completes.
-/

namespace RemoteControl.Lib

variable {β σ ρ : Type} [DecidableEq β]

/-- The first frame, and what comes after it. -/
def cutFrame (sep : β) : List β → Option (List β × List β)
  | [] => none
  | x :: l =>
    if x = sep ∧ l.head? = some sep then some ([], l.tail)
    else (cutFrame sep l).map fun p => (x :: p.1, p.2)

variable {sep : β} {l : List β} {r : σ × Except ρ (List β)} {why : ρ}

theorem cutFrame_eq {frame rest : List β} (h : cutFrame sep l = some (frame, rest)) :
    l = frame ++ sep :: sep :: rest := by
  induction l generalizing frame rest with
  | nil => cases h
  | cons x l ih =>
    unfold cutFrame at h
    split at h
    next hsep =>
      obtain ⟨rfl, hhead⟩ := hsep
      obtain ⟨rfl, rfl⟩ := Prod.mk.inj (Option.some.inj h)
      obtain ⟨tail, rfl⟩ := List.head?_eq_some_iff.mp hhead
      rfl
    next =>
      obtain ⟨p, hp, heq⟩ := Option.map_eq_some_iff.mp h
      cases heq
      rw [ih hp]
      rfl

theorem length_lt_of_cutFrame {frame rest : List β} (h : cutFrame sep l = some (frame, rest)) :
    rest.length < l.length := by
  rw [cutFrame_eq h, List.length_append, List.length_cons, List.length_cons]
  omega

/-- A frame that is complete stays the first one. -/
theorem cutFrame_append {frame rest : List β} (h : cutFrame sep l = some (frame, rest))
    (more : List β) : cutFrame sep (l ++ more) = some (frame, rest ++ more) := by
  induction l generalizing frame rest with
  | nil => cases h
  | cons x l ih =>
    unfold cutFrame at h
    rw [List.cons_append, cutFrame]
    split at h
    next hsep =>
      obtain ⟨rfl, rfl⟩ := Prod.mk.inj (Option.some.inj h)
      obtain ⟨tail, rfl⟩ := List.head?_eq_some_iff.mp hsep.2
      rw [if_pos ⟨hsep.1, rfl⟩]
      rfl
    next hsep =>
      obtain ⟨p, hp, heq⟩ := Option.map_eq_some_iff.mp h
      cases heq
      -- there is a frame in `l`, so its first element is there as well
      have hhead : (l ++ more).head? = l.head? := by
        cases l with
        | nil => cases hp
        | cons y l => rfl
      rw [hhead, if_neg hsep, ih hp]
      rfl

/-- Frames are handled until one makes the reader stop, or none is complete. What is left is kept,
unless the reader has stopped. -/
def drain (sep : β) (handle : σ → List β → σ × Option ρ) (s : σ) (pending : List β) :
    σ × Except ρ (List β) :=
  match _h : cutFrame sep pending with
  | none => (s, .ok pending)
  | some (frame, rest) =>
    match handle s frame with
    | (s', some why) => (s', .error why)
    | (s', none) => drain sep handle s' rest
termination_by pending.length
decreasing_by exact length_lt_of_cutFrame _h

/-- The next piece arrives. -/
def resume (sep : β) (handle : σ → List β → σ × Option ρ) (r : σ × Except ρ (List β))
    (piece : List β) : σ × Except ρ (List β) :=
  match r with
  | (s, .error why) => (s, .error why)
  | (s, .ok pending) => drain sep handle s (pending ++ piece)

/-- No complete frame waits. -/
def Drained (sep : β) (r : σ × Except ρ (List β)) : Prop :=
  ∀ pending, r.2 = .ok pending → cutFrame sep pending = none

variable {handle : σ → List β → σ × Option ρ} {s s' : σ} {pending frame rest : List β}

theorem drain_of_none (h : cutFrame sep pending = none) :
    drain sep handle s pending = (s, .ok pending) := by
  fun_cases drain sep handle s pending <;> grind

theorem drain_of_stop (h : cutFrame sep pending = some (frame, rest))
    (hs : handle s frame = (s', some why)) : drain sep handle s pending = (s', .error why) := by
  fun_cases drain sep handle s pending <;> grind

theorem drain_of_some (h : cutFrame sep pending = some (frame, rest))
    (hs : handle s frame = (s', none)) : drain sep handle s pending = drain sep handle s' rest := by
  rw [drain]
  grind

/-- **Handling what is there, and then what arrives.** -/
theorem drain_append (s : σ) (pending more : List β) :
    drain sep handle s (pending ++ more) = resume sep handle (drain sep handle s pending) more := by
  fun_induction drain sep handle s pending with
  | case1 => rfl
  | case2 s pending frame rest h s' why hs => exact drain_of_stop (cutFrame_append h more) hs
  | case3 s pending frame rest h s' hs ih =>
    rw [drain_of_some (cutFrame_append h more) hs]
    exact ih

theorem drained_drain (s : σ) (pending : List β) : Drained sep (drain sep handle s pending) := by
  fun_induction drain sep handle s pending with
  | case1 s pending h =>
    intro kept hkept
    rw [← Except.ok.inj hkept, h]
  | case2 => exact nofun
  | case3 s pending frame rest h s' hs ih => exact ih

theorem stop_of_drain {P : ρ → Prop}
    (hP : ∀ s s' frame why, handle s frame = (s', some why) → P why)
    (h : (drain sep handle s pending).2 = .error why) : P why := by
  fun_induction drain sep handle s pending with
  | case1 => cases h
  | case2 s pending frame rest hcut s' why' hs =>
    cases h
    exact hP s s' frame why hs
  | case3 s pending frame rest hcut s' hs ih => exact ih h

theorem drained_resume (hr : Drained sep r) (piece : List β) :
    Drained sep (resume sep handle r piece) := by
  match r, hr with
  | (s, .error why), hr => exact hr
  | (s, .ok pending), _ => exact drained_drain s (pending ++ piece)

theorem resume_nil (hr : Drained sep r) : resume sep handle r [] = r := by
  match r, hr with
  | (s, .error why), _ => rfl
  | (s, .ok pending), hr =>
    show drain sep handle s (pending ++ []) = _
    rw [List.append_nil, drain_of_none (hr pending rfl)]

theorem resume_append (r : σ × Except ρ (List β)) (piece more : List β) :
    resume sep handle r (piece ++ more) = resume sep handle (resume sep handle r piece) more := by
  match r with
  | (s, .error why) => rfl
  | (s, .ok pending) =>
    show drain sep handle s (pending ++ (piece ++ more)) = _
    rw [← List.append_assoc, drain_append]
    rfl

end RemoteControl.Lib
