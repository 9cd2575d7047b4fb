import Mathlib.Data.List.Induction
import Mathlib.Data.List.Sort
import Mathlib.Data.Prod.Lex

/-!
# Sorting by a key, and the last value that counts

A list is sorted by a key, and then either its first element is taken or all its
elements are gone through in turn, a later value replacing an earlier one. The sort
is stable, so elements with one key keep the order they came in:

> what comes out depends on the order of the list only through elements whose keys
> tie at the top.
-/

namespace RemoteControl.Lib

open List

variable {α β κ γ : Type} [LinearOrder κ] {a b : α} {l : List α} {ls : List (List α)}

/-- A stable sort, smallest key first. -/
def sortByKey (key : α → κ) (l : List α) : List α := l.insertionSort fun a b => key a ≤ key b

def lastValue (value : α → Option β) (l : List α) : Option β :=
  l.foldl (fun acc a => (value a).or acc) none

section

variable {key : α → κ}

theorem perm_sortByKey (key : α → κ) (l : List α) : (sortByKey key l).Perm l :=
  perm_insertionSort _ l

@[simp] theorem mem_sortByKey : a ∈ sortByKey key l ↔ a ∈ l := (perm_sortByKey key l).mem_iff

theorem pairwise_sortByKey (key : α → κ) (l : List α) :
    (sortByKey key l).Pairwise fun a b => key a ≤ key b := by
  have : Std.Total fun a b : α => key a ≤ key b := ⟨fun a b => le_total _ _⟩
  have : IsTrans α fun a b => key a ≤ key b := ⟨fun _ _ _ => le_trans⟩
  exact pairwise_insertionSort _ l

/-- An element with the smallest key. -/
def Least (key : α → κ) (l : List α) (a : α) : Prop := a ∈ l ∧ ∀ b ∈ l, key a ≤ key b

theorem Least.key_eq (ha : Least key l a) (hb : Least key l b) : key a = key b :=
  le_antisymm (ha.2 b hb.1) (hb.2 a ha.1)

/-- The least elements of an image, when the function keeps the keys. -/
theorem least_image {key' : γ → κ} {f : α → γ} {m : List γ} (hmem : ∀ c, c ∈ m ↔ ∃ a ∈ l, f a = c)
    (hkey : ∀ a ∈ l, key' (f a) = key a) (c : γ) :
    Least key' m c ↔ ∃ a, f a = c ∧ Least key l a := by
  constructor
  · rintro ⟨hc, hle⟩
    obtain ⟨a, ha, rfl⟩ := (hmem c).mp hc
    refine ⟨a, rfl, ha, fun b hb => ?_⟩
    rw [← hkey a ha, ← hkey b hb]
    exact hle (f b) ((hmem _).mpr ⟨b, hb, rfl⟩)
  · rintro ⟨a, rfl, ha, hle⟩
    refine ⟨(hmem _).mpr ⟨a, ha, rfl⟩, fun c hc => ?_⟩
    obtain ⟨b, hb, rfl⟩ := (hmem c).mp hc
    rw [hkey a ha, hkey b hb]
    exact hle b hb

theorem sortByKey_head (h : (sortByKey key l).head? = some a) : Least key l a := by
  obtain ⟨rest, hrest⟩ := List.head?_eq_some_iff.mp h
  have hpair := pairwise_sortByKey key l
  rw [hrest, pairwise_cons] at hpair
  have hmem : ∀ b, b ∈ l ↔ b = a ∨ b ∈ rest := by
    intro b
    rw [← (perm_sortByKey key l).mem_iff, hrest, mem_cons]
  refine ⟨(hmem a).mpr (.inl rfl), fun b hb => ?_⟩
  rcases (hmem b).mp hb with rfl | hb
  · exact le_refl _
  · exact hpair.1 b hb

theorem sortByKey_head_none (h : (sortByKey key l).head? = none) : l = [] := by
  have hlen := (perm_sortByKey key l).length_eq
  rw [List.head?_eq_none_iff.mp h] at hlen
  exact eq_nil_of_length_eq_zero hlen.symm

/-! ## Sorting what is left of a list -/

/-- One step of the sort. -/
def insertByKey (key : α → κ) (a : α) (l : List α) : List α :=
  l.orderedInsert (fun a b => key a ≤ key b) a

theorem sortByKey_cons (a : α) (l : List α) :
    sortByKey key (a :: l) = insertByKey key a (sortByKey key l) := rfl

theorem insertByKey_of_le (h : key a ≤ key b) (l : List α) :
    insertByKey key a (b :: l) = a :: b :: l := by
  simp [insertByKey, List.orderedInsert, h]

theorem insertByKey_of_not_le (h : ¬ key a ≤ key b) (l : List α) :
    insertByKey key a (b :: l) = b :: insertByKey key a l := by
  simp [insertByKey, List.orderedInsert, h]

theorem head?_insertByKey (a : α) (l : List α) :
    (insertByKey key a l).head?
      = some (l.head?.elim a fun b => if key a ≤ key b then a else b) := by
  cases l with
  | nil => rfl
  | cons b l =>
    by_cases h : key a ≤ key b
    · rw [insertByKey_of_le h]
      simp [h]
    · rw [insertByKey_of_not_le h]
      simp [h]

/-- An element that is picked from a list by comparing it with what is picked from the rest. -/
theorem pick_iff {P : α → α → Prop} [DecidableRel P] {pick : List α → Option α}
    (hnil : pick [] = none)
    (hcons : ∀ x l, pick (x :: l) = some ((pick l).elim x fun y => if P x y then x else y))
    (htrans : ∀ x y b, P x y → P y b → P x b) (hnot : ∀ x y b, P x y → ¬ P b y → P x b) :
    pick l = some a ↔ ∃ s t, l = s ++ a :: t ∧ (∀ b ∈ s, ¬ P b a) ∧ ∀ b ∈ t, P a b := by
  induction l generalizing a with
  | nil => simp [hnil]
  | cons x l ih =>
    rw [hcons, Option.some_inj]
    cases hy : pick l with
    | none =>
      obtain rfl : l = [] := by
        cases l with
        | nil => rfl
        | cons z l =>
          rw [hcons] at hy
          cases hy
      simp [cons_eq_append_iff, eq_comm (a := x)]
    | some y =>
      obtain ⟨s, t, hl, hs, ht⟩ := ih.mp hy
      show (if P x y then x else y) = a ↔ _
      constructor
      · intro h
        split at h
        · next hxy =>
          subst h
          refine ⟨[], l, rfl, nofun, fun b hb => ?_⟩
          rw [hl] at hb
          rcases mem_append.mp hb with hb | hb
          · exact hnot x y b hxy (hs b hb)
          · rcases mem_cons.mp hb with rfl | hb
            · exact hxy
            · exact htrans x y b hxy (ht b hb)
        · next hxy =>
          subst h
          exact ⟨x :: s, t, congrArg _ hl, forall_mem_cons.mpr ⟨hxy, hs⟩, ht⟩
      · rintro ⟨s', t', hl', hs', ht'⟩
        cases s' with
        | nil =>
          cases hl'
          exact if_pos (ht' y (by simp [hl]))
        | cons x' s' =>
          cases hl'
          rw [forall_mem_cons] at hs'
          obtain rfl : y = a := Option.some.inj (hy.symm.trans (ih.mpr ⟨s', t', rfl, hs'.2, ht'⟩))
          exact if_neg hs'.1

/-- The first element is the least, and of several the one that came first. -/
theorem sortByKey_head_iff :
    (sortByKey key l).head? = some a ↔
      ∃ s t, l = s ++ a :: t ∧ (∀ b ∈ s, key a < key b) ∧ ∀ b ∈ t, key a ≤ key b := by
  have h := @pick_iff _ a l (fun x y => key x ≤ key y) _ (fun l => (sortByKey key l).head?) rfl
    (fun x l => head?_insertByKey x (sortByKey key l)) (fun _ _ _ => le_trans)
    (fun _ _ _ hxy hby => le_trans hxy (le_of_not_ge hby))
  simpa only [not_le] using h

theorem filter_insertByKey (p : α → Bool) (a : α) (hl : l.Pairwise fun a b => key a ≤ key b) :
    (insertByKey key a l).filter p
      = if p a then insertByKey key a (l.filter p) else l.filter p := by
  induction l with
  | nil => by_cases hp : p a <;> simp [insertByKey, hp]
  | cons b l ih =>
    rw [pairwise_cons] at hl
    by_cases hab : key a ≤ key b
    · rw [insertByKey_of_le hab, filter_cons]
      split
      next hp =>
        -- all that is left of the list is at least the new element
        have hall : ∀ c ∈ (b :: l).filter p, key a ≤ key c := by
          intro c hc
          rcases mem_cons.mp (mem_filter.mp hc).1 with rfl | hc
          · exact hab
          · exact le_trans hab (hl.1 c hc)
        cases hf : (b :: l).filter p with
        | nil => rfl
        | cons c rest =>
          have hac : key a ≤ key c := hall c (by rw [hf]; exact mem_cons_self)
          rw [insertByKey_of_le hac]
      next => rfl
    · rw [insertByKey_of_not_le hab, filter_cons, ih hl.2, filter_cons]
      by_cases hpb : p b
      · simp only [hpb, if_true]
        split
        next => rw [insertByKey_of_not_le hab]
        next => rfl
      · simp only [hpb]
        rfl

theorem sortByKey_filter (p : α → Bool) (l : List α) :
    (sortByKey key l).filter p = sortByKey key (l.filter p) := by
  induction l with
  | nil => rfl
  | cons a l ih =>
    rw [sortByKey_cons, filter_insertByKey p a (pairwise_sortByKey key l), ih, filter_cons]
    split
    next => rfl
    next => rfl

theorem insertByKey_concat (h : key b ≤ key a) (l : List α) :
    insertByKey key b (l ++ [a]) = insertByKey key b l ++ [a] := by
  induction l with
  | nil => exact insertByKey_of_le h []
  | cons c l ih =>
    by_cases hbc : key b ≤ key c
    · rw [cons_append, insertByKey_of_le hbc, insertByKey_of_le hbc]
      rfl
    · rw [cons_append, insertByKey_of_not_le hbc, insertByKey_of_not_le hbc, ih]
      rfl

theorem insertByKey_of_lt (h : ∀ b ∈ l, key b < key a) : insertByKey key a l = l ++ [a] := by
  induction l with
  | nil => rfl
  | cons b l ih =>
    rw [forall_mem_cons] at h
    rw [insertByKey_of_not_le (not_le.mpr h.1), ih h.2, cons_append]

theorem getLast?_insertByKey (a : α) (hl : l.Pairwise fun a b => key a ≤ key b) :
    (insertByKey key a l).getLast?
      = some (l.getLast?.elim a fun b => if key a ≤ key b then b else a) := by
  cases hlast : l.getLast? with
  | none =>
    rw [List.getLast?_eq_none_iff.mp hlast]
    rfl
  | some c =>
    obtain ⟨front, rfl⟩ := List.getLast?_eq_some_iff.mp hlast
    by_cases hac : key a ≤ key c
    · rw [insertByKey_concat hac, List.getLast?_concat, Option.elim_some, if_pos hac]
    · rw [insertByKey_of_lt, List.getLast?_concat, Option.elim_some, if_neg hac]
      intro b hb
      refine lt_of_le_of_lt ?_ (not_le.mp hac)
      rcases mem_append.mp hb with hb | hb
      · exact (pairwise_append.mp hl).2.2 b hb c mem_cons_self
      · rw [mem_singleton.mp hb]

/-- The last element is the greatest, and of several the one that came last. -/
theorem sortByKey_getLast_iff :
    (sortByKey key l).getLast? = some a ↔
      ∃ s t, l = s ++ a :: t ∧ (∀ b ∈ s, key b ≤ key a) ∧ ∀ b ∈ t, key b < key a := by
  have h := @pick_iff _ a l (fun x y => key y < key x) _ (fun l => (sortByKey key l).getLast?) rfl
    (fun x l => by
      rw [sortByKey_cons, getLast?_insertByKey x (pairwise_sortByKey key l)]
      simp only [← not_le, ite_not])
    (fun _ _ _ hxy hyb => lt_trans hyb hxy)
    (fun _ _ _ hxy hby => lt_of_le_of_lt (not_lt.mp hby) hxy)
  simpa only [not_lt] using h

end

/-! ## The last value -/

section

variable {key : α → κ} {value : α → Option β}

theorem lastValue_concat (l : List α) (a : α) :
    lastValue value (l ++ [a]) = (value a).or (lastValue value l) := by
  simp [lastValue, foldl_append]

theorem lastValue_eq_filterMap (l : List α) : lastValue value l = (l.filterMap value).getLast? := by
  induction l using List.reverseRecOn with
  | nil => rfl
  | append_singleton l a ih =>
    rw [lastValue_concat, filterMap_append, List.getLast?_append, ih]
    cases ha : value a <;> simp [ha]

theorem lastValue_eq_none : lastValue value l = none ↔ ∀ a ∈ l, value a = none := by
  rw [lastValue_eq_filterMap, List.getLast?_eq_none_iff, filterMap_eq_nil_iff]

theorem lastValue_congr {value' : α → Option β} (h : ∀ a ∈ l, value a = value' a) :
    lastValue value l = lastValue value' l := by
  rw [lastValue_eq_filterMap, lastValue_eq_filterMap, filterMap_congr h]

/-- The value of an element that is left out counts as none. -/
theorem lastValue_filter_of (p : α → Bool) (l : List α) :
    lastValue value (l.filter p) = lastValue (fun a => if p a then value a else none) l := by
  rw [lastValue_eq_filterMap, lastValue_eq_filterMap, filterMap_filter]

theorem lastValue_filter (l : List α) :
    lastValue value (l.filter fun a => (value a).isSome) = lastValue value l := by
  rw [lastValue_filter_of]
  refine lastValue_congr fun a _ => ?_
  cases value a <;> rfl

theorem lastValue_eq_getLast (h : ∀ a ∈ l, (value a).isSome = true) :
    lastValue value l = l.getLast?.bind value := by
  induction l using List.reverseRecOn with
  | nil => rfl
  | append_singleton l a ih =>
    obtain ⟨b, hb⟩ := Option.isSome_iff_exists.mp (h a (by simp))
    rw [lastValue_concat, List.getLast?_concat, hb]
    exact hb.symm

/-- **Which value counts**: that of the greatest element with a value, and of several the last. -/
theorem lastValue_sortByKey_iff {b : β} :
    lastValue value (sortByKey key l) = some b ↔
      ∃ s a t, l = s ++ a :: t ∧ value a = some b ∧
        (∀ c ∈ s, (value c).isSome = true → key c ≤ key a) ∧
        ∀ c ∈ t, (value c).isSome = true → key c < key a := by
  have hall : ∀ a ∈ sortByKey key (l.filter fun a => (value a).isSome), (value a).isSome = true :=
    fun a ha => (mem_filter.mp (mem_sortByKey.mp ha)).2
  rw [← lastValue_filter, sortByKey_filter, lastValue_eq_getLast hall, Option.bind_eq_some_iff]
  constructor
  · rintro ⟨a, hlast, hb⟩
    obtain ⟨s, t, hl, hs, ht⟩ := sortByKey_getLast_iff.mp hlast
    obtain ⟨s', t', rfl, rfl, htail⟩ := filter_eq_append_iff.mp hl
    obtain ⟨u, v, rfl, hu, ha, rfl⟩ := filter_eq_cons_iff.mp htail
    refine ⟨s' ++ u, a, v, by rw [append_assoc], hb, fun c hc hsome => ?_, fun c hc hsome => ?_⟩
    · rcases mem_append.mp hc with hc | hc
      · exact hs c (mem_filter.mpr ⟨hc, hsome⟩)
      · exact absurd hsome (hu c hc)
    · exact ht c (mem_filter.mpr ⟨hc, hsome⟩)
  · rintro ⟨s, a, t, rfl, hb, hs, ht⟩
    refine ⟨a, sortByKey_getLast_iff.mpr ⟨s.filter fun a => (value a).isSome,
      t.filter fun a => (value a).isSome, ?_, fun c hc => ?_, fun c hc => ?_⟩, hb⟩
    · rw [filter_append, filter_cons_of_pos (by rw [hb]; rfl)]
    · exact hs c (mem_filter.mp hc).1 (mem_filter.mp hc).2
    · exact ht c (mem_filter.mp hc).1 (mem_filter.mp hc).2

/-- The element that decides has the greatest key of those with a value. -/
def Decides (key : α → κ) (value : α → Option β) (l : List α) (a : α) : Prop :=
  a ∈ l ∧ (value a).isSome = true ∧ ∀ c ∈ l, (value c).isSome = true → key c ≤ key a

theorem lastValue_sortByKey_mem {b : β} (h : lastValue value (sortByKey key l) = some b) :
    ∃ a, Decides key value l a ∧ value a = some b := by
  obtain ⟨s, a, t, rfl, hb, hs, ht⟩ := lastValue_sortByKey_iff.mp h
  refine ⟨a, ⟨by simp, by rw [hb]; rfl, fun c hc hsome => ?_⟩, hb⟩
  rcases mem_append.mp hc with hc | hc
  · exact hs c hc hsome
  · rcases mem_cons.mp hc with rfl | hc
    · exact le_refl _
    · exact le_of_lt (ht c hc hsome)

end

/-! ## Walks

Lists are gone through one after the other, each of them in an order of its own. -/

section

variable {value : α → Option β}

theorem lastValue_append (l m : List α) :
    lastValue value (l ++ m) = (lastValue value m).or (lastValue value l) := by
  simp only [lastValue_eq_filterMap, filterMap_append, List.getLast?_append]

theorem lastValue_mem {b : β} (h : lastValue value l = some b) : ∃ a ∈ l, value a = some b := by
  rw [lastValue_eq_filterMap] at h
  exact mem_filterMap.mp (mem_of_getLast? h)

/-- Nowhere in a walk is there a value where there is none in the lists. -/
theorem lastValue_walk_eq_none {ms : List (List α)} (h : List.Forall₂ List.Perm ls ms) :
    lastValue value ms.flatten = none ↔ lastValue value ls.flatten = none := by
  induction h with
  | nil => rfl
  | @cons l m ls ms hperm _ ih =>
    have hone : lastValue value m = none ↔ lastValue value l = none := by
      rw [lastValue_eq_none, lastValue_eq_none]
      exact forall_congr' fun a => by rw [hperm.mem_iff]
    rw [flatten_cons, flatten_cons, lastValue_append, lastValue_append,
      Option.or_eq_none_iff, Option.or_eq_none_iff, ih, hone]

/-- The values of a list are one and the same. -/
def Agrees (value : α → Option β) (l : List α) : Prop :=
  ∀ a ∈ l, ∀ b ∈ l, ∀ x y, value a = some x → value b = some y → x = y

theorem Agrees.lastValue_perm {m : List α} (h : Agrees value l) (hperm : m.Perm l) :
    lastValue value m = lastValue value l := by
  cases hl : lastValue value l with
  | none =>
    rw [lastValue_eq_none] at hl ⊢
    exact fun a ha => hl a (hperm.mem_iff.mp ha)
  | some x =>
    obtain ⟨a, ha, hx⟩ := lastValue_mem hl
    cases hm : lastValue value m with
    | none =>
      rw [lastValue_eq_none.mp hm a (hperm.mem_iff.mpr ha)] at hx
      cases hx
    | some y =>
      obtain ⟨b, hb, hy⟩ := lastValue_mem hm
      rw [h a ha b (hperm.mem_iff.mp hb) x y hx hy]

theorem exists_perm_lastValue {x : β} (ha : a ∈ l) (hx : value a = some x) :
    ∃ m : List α, m.Perm l ∧ lastValue value m = some x := by
  obtain ⟨s, t, rfl⟩ := append_of_mem ha
  exact ⟨s ++ t ++ [a], (perm_append_singleton a _).trans perm_middle.symm,
    by rw [lastValue_concat, hx]; rfl⟩

/-- **When walks do not matter**: every walk ends with the same value if and only if the last list
that has values has only one. -/
theorem forall_walk_lastValue_iff :
    (∀ ms, List.Forall₂ List.Perm ls ms →
      lastValue value ms.flatten = lastValue value ls.flatten) ↔
    ∀ (before : List (List α)) (l : List α) (after : List (List α)), ls = before ++ l :: after →
      lastValue value after.flatten = none → Agrees value l := by
  constructor
  · rintro h before l after rfl hafter a ha b hb x y hx hy
    -- one walk in which `a` is the last, and one in which `b` is
    have hend : ∀ c ∈ l, ∀ z, value c = some z →
        lastValue value (before ++ l :: after).flatten = some z := by
      intro c hc z hz
      obtain ⟨m, hperm, hm⟩ := exists_perm_lastValue hc hz
      have hwalk : List.Forall₂ List.Perm (before ++ l :: after) (before ++ m :: after) :=
        rel_append (forall₂_same.mpr fun _ _ => .refl _)
          (.cons hperm.symm (forall₂_same.mpr fun _ _ => .refl _))
      rw [← h _ hwalk, flatten_append, flatten_cons, lastValue_append, lastValue_append, hafter, hm]
      rfl
    have hsame := (hend a ha x hx).symm.trans (hend b hb y hy)
    exact Option.some.inj hsame
  · intro h ms hwalk
    induction hwalk with
    | nil => rfl
    | @cons l m ls ms hperm hrest ih =>
      have hrestSame := ih fun before l' after hls => h (l :: before) l' after (by rw [hls]; rfl)
      rw [flatten_cons, flatten_cons, lastValue_append, lastValue_append, hrestSame]
      cases hnone : lastValue value ls.flatten with
      | some x => rfl
      | none => rw [(h [] l ls rfl hnone).lastValue_perm hperm.symm]

end

end RemoteControl.Lib
