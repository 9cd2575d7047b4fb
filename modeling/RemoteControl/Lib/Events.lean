import Mathlib.Data.List.Induction

/-!
# Machines driven by events

Where a system is deterministic once it is said what happens next, a run is a list of events
and the state is their fold. A property of runs is then a property of the states before each
event:

> `Throughout P`: every event finds a state in which `P` holds of it.

The rules turn a fact about one event into one about every run.
-/

namespace RemoteControl.Lib

open List

variable {σ ε : Type} {perform : σ → ε → σ} {I : σ → Prop} {P Q : σ → ε → Prop} {events : List ε}
  {w : σ}

/-- Every event of a run has the property in the state it finds. -/
def Throughout (perform : σ → ε → σ) (P : σ → ε → Prop) (w : σ) (events : List ε) : Prop :=
  ∀ before e, before ++ [e] <+: events → P (before.foldl perform w) e

theorem throughout_nil (P : σ → ε → Prop) (w : σ) : Throughout perform P w [] := by
  intro before e hpre
  have hlen := hpre.length_le
  simp at hlen

theorem throughout_cons {e : ε} :
    Throughout perform P w (e :: events) ↔ P w e ∧ Throughout perform P (perform w e) events := by
  constructor
  · intro h
    refine ⟨h [] e (by simp), fun before e' hpre => h (e :: before) e' ?_⟩
    rw [cons_append]
    exact cons_prefix_cons.mpr ⟨rfl, hpre⟩
  · rintro ⟨hfirst, hrest⟩ before e' hpre
    cases before with
    | nil =>
      obtain ⟨rfl, -⟩ := cons_prefix_cons.mp hpre
      exact hfirst
    | cons b before =>
      rw [cons_append] at hpre
      obtain ⟨rfl, htail⟩ := cons_prefix_cons.mp hpre
      exact hrest before e' htail

/-- Two properties that agree where an invariant holds agree throughout, if the invariant is kept
by the events that have them, along runs whose events are as expected. -/
theorem throughout_congr_along {F : σ → ε → Prop}
    (hI : ∀ w e, I w → F w e → P w e → I (perform w e)) (h : ∀ w e, I w → F w e → (P w e ↔ Q w e))
    (hw : I w) (hF : Throughout perform F w events) :
    Throughout perform P w events ↔ Throughout perform Q w events := by
  induction events generalizing w with
  | nil => exact iff_of_true (throughout_nil P w) (throughout_nil Q w)
  | cons e events ih =>
    obtain ⟨hf, hrest⟩ := throughout_cons.mp hF
    rw [throughout_cons, throughout_cons, ← h w e hw hf]
    exact and_congr_right fun hp => ih (hI w e hw hf hp) hrest

theorem throughout_congr (hI : ∀ w e, I w → P w e → I (perform w e))
    (h : ∀ w e, I w → (P w e ↔ Q w e)) (hw : I w) (events : List ε) :
    Throughout perform P w events ↔ Throughout perform Q w events :=
  throughout_congr_along (F := fun _ _ => True) (fun w e hi _ => hI w e hi)
    (fun w e hi _ => h w e hi) hw fun _ _ _ => trivial

/-- What the events of a run keep holds at every moment of it. -/
theorem Throughout.invariant (h : Throughout perform P w events)
    (hI : ∀ w e, I w → P w e → I (perform w e)) (hw : I w) :
    ∀ before, before <+: events → I (before.foldl perform w) := by
  intro before hpre
  induction before using List.reverseRecOn with
  | nil => exact hw
  | append_singleton before e ih =>
    rw [foldl_append, foldl_cons, foldl_nil]
    exact hI _ e (ih ((prefix_append _ _).trans hpre)) (h before e hpre)

/-- What follows from a condition where an invariant holds follows throughout, if the condition
keeps the invariant. -/
theorem Throughout.implies (h : Throughout perform P w events)
    (hI : ∀ w e, I w → P w e → I (perform w e)) (hQ : ∀ w e, I w → P w e → Q w e) (hw : I w) :
    Throughout perform Q w events := by
  intro before e hpre
  have hi := h.invariant hI hw before ((prefix_append _ _).trans hpre)
  exact hQ _ e hi (h before e hpre)

/-- A property of states holds at every moment exactly when every event keeps it, where `J` is an
invariant of all runs. -/
theorem kept_iff_throughout_of {C : ε → Prop} {J : σ → Prop}
    (hJ : ∀ w e, C e → J w → J (perform w e))
    (h : ∀ w e, C e → J w → I w → (I (perform w e) ↔ Q w e)) (hj : J w) (hi : I w)
    (hC : ∀ e ∈ events, C e) :
    (∀ before, before <+: events → I (before.foldl perform w)) ↔ Throughout perform Q w events := by
  induction events generalizing w with
  | nil =>
    refine iff_of_true (fun before hpre => ?_) (throughout_nil Q w)
    rw [prefix_nil.mp hpre]
    exact hi
  | cons e events ih =>
    obtain ⟨he, hrest⟩ := forall_mem_cons.mp hC
    rw [throughout_cons, ← h w e he hj hi]
    constructor
    · intro hall
      have hnext : I (perform w e) := hall [e] (cons_prefix_cons.mpr ⟨rfl, nil_prefix⟩)
      exact ⟨hnext, (ih (hJ w e he hj) hnext hrest).mp fun before hpre =>
        hall (e :: before) (cons_prefix_cons.mpr ⟨rfl, hpre⟩)⟩
    · rintro ⟨hnext, hthrough⟩ before hpre
      cases before with
      | nil => exact hi
      | cons b before =>
        obtain ⟨rfl, htail⟩ := cons_prefix_cons.mp hpre
        exact (ih (hJ w b he hj) hnext hrest).mpr hthrough before htail

theorem kept_iff_throughout (h : ∀ w e, I w → (I (perform w e) ↔ Q w e)) (hw : I w)
    (events : List ε) :
    (∀ before, before <+: events → I (before.foldl perform w)) ↔ Throughout perform Q w events :=
  kept_iff_throughout_of (C := fun _ => True) (J := fun _ => True) (fun _ _ _ _ => trivial)
    (fun w e _ _ => h w e) trivial hw fun _ _ => trivial

end RemoteControl.Lib
