import Mathlib.Data.List.Perm.Basic

/-!
# A list alongside another

A machine keeps a list of what is in progress, and a second list says something about each of its
elements. Whatever is done at a place of the one is done at the same place of the other, so the two
make a list of pairs. How many pairs have a property changes by what is put in and what is taken
out:

> the count after a change, and what was at the place, is the count before, and what is there now.
-/

namespace RemoteControl.Lib

variable {α β : Type}

theorem zip_eraseIdx (l : List α) (l' : List β) (i : Nat) :
    (l.eraseIdx i).zip (l'.eraseIdx i) = (l.zip l').eraseIdx i := by
  induction l generalizing l' i with
  | nil => simp
  | cons a l ih =>
    cases l' with
    | nil => simp
    | cons b l' =>
      cases i with
      | zero => rfl
      | succ i => simp [ih]

theorem zip_set {l : List α} {i : Nat} {a : α} (h : l[i]? = some a) (l' : List β) (b : β) :
    l.zip (l'.set i b) = (l.zip l').set i (a, b) := by
  induction l generalizing l' i with
  | nil => simp
  | cons x l ih =>
    cases l' with
    | nil => simp
    | cons y l' =>
      cases i with
      | zero =>
        obtain rfl : x = a := by simpa using h
        rfl
      | succ i => simpa using ih (by simpa using h) l'

section

variable {p : α → Bool} {l : List α} {i : Nat} {a : α} (h : l[i]? = some a)

include h

theorem countP_eraseIdx : (l.eraseIdx i).countP p + (if p a then 1 else 0) = l.countP p := by
  obtain ⟨hi, rfl⟩ := List.getElem?_eq_some_iff.mp h
  rw [← List.Perm.countP_eq p (List.getElem_cons_eraseIdx_perm hi), List.countP_cons]

theorem countP_set (b : α) :
    (l.set i b).countP p + (if p a then 1 else 0) = l.countP p + if p b then 1 else 0 := by
  have hb : (l.set i b)[i]? = some b := List.getElem?_set_self (List.getElem?_eq_some_iff.mp h).1
  rw [← countP_eraseIdx h, ← countP_eraseIdx hb, List.eraseIdx_set_eq]
  omega

end

end RemoteControl.Lib
