import Mathlib.Data.List.Basic

/-!
# Labelled runs

The protocols of this development are all of one shape: a step relation
`step : σ → α → σ → Prop` whose label says which operation was performed, and
results about every state that some sequence of steps leads to. This module
holds the run relation and its three rules:

> an invariant holds along a run (`Run.invariant`), a property of one label is
> carried until that label occurs (`Run.until`), and runs compose (`Run.trans`).

Nothing here is about a particular system.
-/

namespace RemoteControl.Lib

variable {σ α : Type}

/-- `Run step s as t`: performing the labels `as`, in order, leads from `s` to `t`. -/
inductive Run (step : σ → α → σ → Prop) : σ → List α → σ → Prop
  | nil (s : σ) : Run step s [] s
  | snoc {s t u : σ} {as : List α} {a : α} : Run step s as t → step t a u → Run step s (as ++ [a]) u

/-- A state that some run from an initial state ends in. -/
def Reachable (init : σ → Prop) (step : σ → α → σ → Prop) (t : σ) : Prop :=
  ∃ s as, init s ∧ Run step s as t

variable {step : σ → α → σ → Prop} {init I : σ → Prop} {a : α} {as : List α} {s t u : σ}

theorem Run.single (h : step s a t) : Run step s [a] t := Run.snoc (Run.nil s) h

theorem Run.trans {bs : List α} (h : Run step s as t) (h' : Run step t bs u) :
    Run step s (as ++ bs) u := by
  induction h' with
  | nil => simpa using h
  | snoc _ hstep ih => rw [← List.append_assoc]; exact Run.snoc ih hstep

theorem Run.cons (h : step s a t) (h' : Run step t as u) : Run step s (a :: as) u :=
  (Run.single h).trans h'

theorem Reachable.next (h : Reachable init step s) (hs : step s a t) : Reachable init step t := by
  obtain ⟨s₀, as, h₀, hrun⟩ := h
  exact ⟨s₀, as ++ [a], h₀, hrun.snoc hs⟩

theorem Reachable.run (h : Reachable init step s) (hs : Run step s as t) :
    Reachable init step t := by
  obtain ⟨s₀, bs, h₀, hrun⟩ := h
  exact ⟨s₀, bs ++ as, h₀, hrun.trans hs⟩

/-- **The invariant rule.** What every step preserves, a run preserves. -/
theorem Run.invariant (hI : ∀ s a t, I s → step s a t → I t) (h : Run step s as t) (h₀ : I s) :
    I t := by
  induction h with
  | nil => exact h₀
  | snoc _ hstep ih => exact hI _ _ _ ih hstep

/-- The invariant rule for reachable states. -/
theorem Reachable.invariant (h₀ : ∀ s, init s → I s) (hI : ∀ s a t, I s → step s a t → I t)
    (h : Reachable init step t) : I t := by
  obtain ⟨s, as, hs, hrun⟩ := h
  exact hrun.invariant hI (h₀ s hs)

/-- The invariant rule when the induction step may use another invariant `J`
that is already known. -/
theorem Run.invariant_of {J : σ → Prop} (hJ : ∀ s a t, J s → step s a t → J t)
    (hI : ∀ s a t, J s → I s → step s a t → I t) (h : Run step s as t) (hj : J s) (h₀ : I s) :
    I t := by
  have key : J t ∧ I t :=
    h.invariant (I := fun s => J s ∧ I s)
      (fun s a t ih hs => ⟨hJ s a t ih.1 hs, hI s a t ih.1 ih.2 hs⟩) ⟨hj, h₀⟩
  exact key.2

/-- A property that every step keeps, except steps taken from a state with a label
that `B` allows, holds at the end of a run unless the run took such a step. -/
theorem Run.until {B : σ → α → Prop} (hI : ∀ s a t, I s → step s a t → B s a ∨ I t)
    (h : Run step s as t) (h₀ : I s) :
    (∃ u a as₁ as₂, as = as₁ ++ a :: as₂ ∧ Run step s as₁ u ∧ B u a) ∨ I t := by
  induction h with
  | nil => exact Or.inr h₀
  | @snoc t u as a hrun hstep ih =>
    rcases ih with ⟨u', b, as₁, as₂, rfl, hr, hB⟩ | hI'
    · exact Or.inl ⟨u', b, as₁, as₂ ++ [a], by simp, hr, hB⟩
    · rcases hI _ _ _ hI' hstep with hB | hI''
      · exact Or.inl ⟨t, a, as, [], rfl, hrun, hB⟩
      · exact Or.inr hI''

end RemoteControl.Lib
