import Mathlib.Data.List.Basic

/-!
# Writing into a file at an offset

A file is the list of its bytes. A write replaces what is there from an offset on, and a gap before
it is filled with zeros. Several writers with offsets of their own may write one text into one file,
and the file may be truncated in between:

> Whatever they have done so far, each byte is the text's or zero. If none is zero, the file is a
> part of the text from its beginning.
-/

namespace RemoteControl.Lib

open List

variable {β : Type} {zero : β} {text content : List β} {k n : Nat}

/-- `write` at an offset. -/
def overwrite (zero : β) (content : List β) (k : Nat) (bytes : List β) : List β :=
  content.take k ++ List.replicate (k - content.length) zero ++ bytes
    ++ content.drop (k + bytes.length)

theorem getElem?_overwrite (zero : β) (content : List β) (k : Nat) (bytes : List β) (i : Nat) :
    (overwrite zero content k bytes)[i]?
      = if i < k then (if i < content.length then content[i]? else some zero)
        else if i < k + bytes.length then bytes[i - k]? else content[i]? := by
  have hlen : (content.take k ++ List.replicate (k - content.length) zero).length = k := by
    rw [length_append, length_take, length_replicate]
    omega
  unfold overwrite
  rw [append_assoc, List.getElem?_append, hlen]
  split
  next hi =>
    rw [List.getElem?_append, length_take, List.getElem?_take, List.getElem?_replicate]
    by_cases hc : i < content.length
    · rw [if_pos (by omega), if_pos hi, if_pos hc]
    · rw [if_neg (by omega), if_pos (by omega), if_neg hc]
  next hi =>
    rw [List.getElem?_append, List.getElem?_drop]
    by_cases hb : i < k + bytes.length
    · rw [if_pos (by omega), if_pos hb]
    · rw [if_neg (by omega), if_neg hb]
      congr 1
      omega

theorem getElem?_piece (text : List β) {i : Nat} (hi : k ≤ i) (hn : i < k + n) :
    ((text.drop k).take n)[i - k]? = text[i]? := by
  rw [List.getElem?_take, if_pos (by omega), List.getElem?_drop]
  congr 1
  omega

theorem length_piece (text : List β) (k n : Nat) :
    ((text.drop k).take n).length = min n (text.length - k) := by
  rw [length_take, length_drop]

/-- Written over the whole text, a piece of it changes nothing. -/
theorem overwrite_text (zero : β) (h : k ≤ text.length) (n : Nat) :
    overwrite zero text k ((text.drop k).take n) = text := by
  refine ext_getElem? fun i => ?_
  rw [getElem?_overwrite, length_piece]
  split
  next hi => rw [if_pos (by omega)]
  next hi =>
    split
    next hin => exact getElem?_piece text (by omega) (by omega)
    next => rfl

/-- A writer alone has written the text up to its offset. -/
theorem overwrite_take (zero : β) (h : k ≤ text.length) (n : Nat) :
    overwrite zero (text.take k) k ((text.drop k).take n)
      = text.take (k + min n (text.length - k)) := by
  refine ext_getElem? fun i => ?_
  rw [getElem?_overwrite, length_piece, length_take]
  by_cases hi : i < k
  · rw [if_pos hi, if_pos (by omega), List.getElem?_take_of_lt hi,
      List.getElem?_take_of_lt (by omega)]
  · rw [if_neg hi]
    by_cases hin : i < k + min n (text.length - k)
    · rw [if_pos hin, List.getElem?_take_of_lt hin]
      exact getElem?_piece text (by omega) (by omega)
    · rw [if_neg hin, List.getElem?_take, if_neg hi, List.getElem?_take, if_neg hin]

/-! ## Several writers -/

/-- Each byte is the text's, or zero. -/
structure Patchy (zero : β) (text content : List β) : Prop where
  length : content.length ≤ text.length
  bytes : ∀ (i : Nat) (b : β), content[i]? = some b → b = zero ∨ text[i]? = some b

theorem patchy_nil (zero : β) (text : List β) : Patchy zero text [] :=
  ⟨Nat.zero_le _, fun i b h => by simp at h⟩

theorem Patchy.overwrite (h : Patchy zero text content) (hk : k ≤ text.length) (n : Nat) :
    Patchy zero text (overwrite zero content k ((text.drop k).take n)) := by
  have hlen := length_piece text k n
  refine ⟨?_, fun i b hb => ?_⟩
  · have hle := h.length
    unfold Lib.overwrite
    simp only [length_append, length_take, length_replicate, length_drop]
    omega
  · rw [getElem?_overwrite] at hb
    split at hb
    next hi =>
      split at hb
      next => exact h.bytes i b hb
      next => exact .inl (Option.some.inj hb).symm
    next hi =>
      split at hb
      next hin =>
        rw [getElem?_piece text (by omega) (by omega)] at hb
        exact .inr hb
      next => exact h.bytes i b hb

theorem Patchy.beginning (h : Patchy zero text content) (hzero : zero ∉ content) :
    content <+: text := by
  rw [prefix_iff_eq_take]
  refine ext_getElem? fun i => ?_
  rw [List.getElem?_take]
  by_cases hi : i < content.length
  · rw [if_pos hi]
    have hget : content[i]? = some content[i] := List.getElem?_eq_getElem hi
    rcases h.bytes i _ hget with hb | hb
    · exact absurd (hb ▸ getElem_mem hi) hzero
    · rw [hget, hb]
  · rw [if_neg hi]
    exact List.getElem?_eq_none (by omega)

end RemoteControl.Lib
