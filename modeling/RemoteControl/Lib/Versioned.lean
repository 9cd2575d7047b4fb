import Mathlib.Data.List.Basic

/-!
# Copies kept up to date by numbered deliveries

A copy of some content is sent the whole content from time to time and single changes in between,
each with a revision. Deliveries come in any order and any number of times. The copy takes a whole
content unless it is older than what it has, and a change only if it is newer.

> The revisions that are taken ascend. So the content is the last whole one that was taken, with
> the changes taken after it, each once and in the order of their revisions.
-/

namespace RemoteControl.Lib

open List

variable {r : Nat}

variable {δ σ : Type}

/-- What a delivery does to the content. -/
inductive Effect (σ : Type)
  | none
  | whole (content : σ)
  | change (f : σ → σ)

def Effect.run : Effect σ → σ → σ
  | .none, s => s
  | .whole content, _ => content
  | .change f, s => f s

def Effect.isWhole : Effect σ → Bool
  | .whole _ => true
  | _ => false

def Effect.isChange : Effect σ → Bool
  | .change _ => true
  | _ => false

structure Deliveries (δ σ : Type) where
  revision : δ → Nat
  effect : δ → Effect σ

/-- A copy has no revision as long as it has taken nothing. -/
structure Copy (σ : Type) where
  revision : Option Nat
  content : σ

variable (D : Deliveries δ σ)

namespace Copy

def takes (c : Copy σ) (d : δ) : Bool := match D.effect d with
  | .none => false
  | .whole _ => c.revision.all fun r => r ≤ D.revision d
  | .change _ => c.revision.all fun r => r < D.revision d

def receive (c : Copy σ) (d : δ) : Copy σ :=
  if c.takes D d then ⟨some (D.revision d), (D.effect d).run c.content⟩ else c

def taken : Copy σ → List δ → List δ
  | _, [] => []
  | c, d :: ds => if c.takes D d then d :: taken (c.receive D d) ds else taken (c.receive D d) ds

end Copy

variable {D} {c : Copy σ} {d : δ} {ds : List δ}

theorem Copy.receive_of_takes (h : c.takes D d = true) :
    c.receive D d = ⟨some (D.revision d), (D.effect d).run c.content⟩ := if_pos h

theorem Copy.receive_of_not (h : c.takes D d = false) : c.receive D d = c := by
  rw [receive, h]
  rfl

theorem Copy.taken_cons (c : Copy σ) (d : δ) (ds : List δ) :
    c.taken D (d :: ds)
      = if c.takes D d then d :: (c.receive D d).taken D ds else (c.receive D d).taken D ds := rfl

/-! ## Revisions -/

/-- What is taken is not older than what there is, and a change is newer. -/
theorem Copy.le_of_takes (h : c.takes D d = true) (hr : c.revision = some r) :
    r ≤ D.revision d ∧ ((D.effect d).isChange = true → r < D.revision d) := by
  cases he : D.effect d with
  | none => simp [takes, he] at h
  | whole content => exact ⟨by simpa [takes, he, hr] using h, nofun⟩
  | change f =>
    have hlt : r < D.revision d := by simpa [takes, he, hr] using h
    exact ⟨Nat.le_of_lt hlt, fun _ => hlt⟩

theorem Copy.revision_le (hr : c.revision = some r) (d : δ) :
    ∃ r', (c.receive D d).revision = some r' ∧ r ≤ r' := by
  cases h : c.takes D d with
  | false => exact ⟨r, by rw [receive_of_not h, hr], by omega⟩
  | true => exact ⟨D.revision d, by rw [receive_of_takes h], (le_of_takes h hr).1⟩

theorem Copy.revision_le_foldl (hr : c.revision = some r) (ds : List δ) :
    ∃ r', (ds.foldl (receive D) c).revision = some r' ∧ r ≤ r' := by
  induction ds generalizing c r with
  | nil => exact ⟨r, hr, by omega⟩
  | cons d ds ih =>
    obtain ⟨r₁, hr₁, hle⟩ := revision_le (D := D) hr d
    obtain ⟨r₂, hr₂, hle'⟩ := ih hr₁
    exact ⟨r₂, hr₂, by omega⟩

/-- Once it has been delivered, a copy is as new as a delivery that has an effect. -/
theorem Copy.reaches_receive (h : (D.effect d).isWhole = true ∨ (D.effect d).isChange = true) :
    ∃ r, (c.receive D d).revision = some r ∧ D.revision d ≤ r := by
  cases ht : c.takes D d with
  | true => exact ⟨D.revision d, by rw [receive_of_takes ht], by omega⟩
  | false =>
    rw [receive_of_not ht]
    cases he : D.effect d with
    | none => simp [he, Effect.isWhole, Effect.isChange] at h
    | whole | change =>
      cases hr : c.revision with
      | none => simp [takes, he, hr] at ht
      | some r =>
        simp only [takes, he, hr, Option.all_some, decide_eq_false_iff_not] at ht
        exact ⟨r, rfl, by omega⟩

theorem Copy.reaches (hd : d ∈ ds)
    (h : (D.effect d).isWhole = true ∨ (D.effect d).isChange = true) :
    ∃ r, (ds.foldl (receive D) c).revision = some r ∧ D.revision d ≤ r := by
  obtain ⟨before, after, rfl⟩ := append_of_mem hd
  rw [foldl_append, foldl_cons]
  obtain ⟨r, hr, hle⟩ := reaches_receive (D := D) (c := before.foldl (receive D) c) h
  obtain ⟨r', hr', hle'⟩ := revision_le_foldl (D := D) hr after
  exact ⟨r', hr', by omega⟩

/-! ## What is taken -/

/-- What is taken later is not older, and a change is newer. -/
def Follows (D : Deliveries δ σ) (a b : δ) : Prop :=
  D.revision a ≤ D.revision b ∧ ((D.effect b).isChange = true → D.revision a < D.revision b)

theorem Copy.le_of_taken (hr : c.revision = some r) (hd : d ∈ c.taken D ds) :
    r ≤ D.revision d ∧ ((D.effect d).isChange = true → r < D.revision d) := by
  fun_induction Copy.taken D c ds generalizing r with
  | case1 => cases hd
  | case2 c e ds ht ih =>
    rcases mem_cons.mp hd with rfl | hd
    · exact le_of_takes ht hr
    · obtain ⟨r', hr', hle⟩ := revision_le (D := D) hr e
      have h := ih hr' hd
      exact ⟨by omega, fun hc => by have := h.2 hc; omega⟩
  | case3 c e ds ht ih => exact ih (by rwa [receive_of_not (Bool.eq_false_iff.mpr ht)]) hd

theorem Copy.taken_pairwise (c : Copy σ) (ds : List δ) : (c.taken D ds).Pairwise (Follows D) := by
  fun_induction Copy.taken D c ds with
  | case1 => exact List.Pairwise.nil
  | case2 c d ds ht ih =>
    refine List.Pairwise.cons (fun e he => le_of_taken ?_ he) ih
    rw [receive_of_takes ht]
  | case3 c d ds ht ih => exact ih

/-- What is not taken leaves nothing behind. -/
theorem Copy.content_foldl (c : Copy σ) (ds : List δ) :
    (ds.foldl (receive D) c).content
      = (c.taken D ds).foldl (fun s d => (D.effect d).run s) c.content := by
  fun_induction Copy.taken D c ds with
  | case1 => rfl
  | case2 c d ds ht ih => rw [foldl_cons, ih, foldl_cons, receive_of_takes ht]
  | case3 c d ds ht ih =>
    rw [receive_of_not (Bool.eq_false_iff.mpr ht)] at ih
    rw [foldl_cons, receive_of_not (Bool.eq_false_iff.mpr ht), ih]

theorem Copy.effect_of_taken (hd : d ∈ c.taken D ds) :
    (D.effect d).isWhole = true ∨ (D.effect d).isChange = true := by
  fun_induction Copy.taken D c ds with
  | case1 => cases hd
  | case2 c e ds ht ih =>
    rcases mem_cons.mp hd with rfl | hmem
    · cases he : D.effect d with
      | none => simp [takes, he] at ht
      | whole content => exact .inl rfl
      | change f => exact .inr rfl
    · exact ih hmem
  | case3 c e ds ht ih => exact ih hd

/-! ## The last whole content, and the changes after it -/

/-- A list of deliveries, cut at its last whole content. -/
structure Cut (D : Deliveries δ σ) (l older : List δ) (base : Option δ) (changes : List δ) :
    Prop where
  eq : l = older ++ base.toList ++ changes
  older_nil : base = none → older = []
  whole : ∀ b ∈ base, (D.effect b).isWhole = true
  change : ∀ e ∈ changes, (D.effect e).isChange = true

theorem exists_cut {l : List δ}
    (h : ∀ d ∈ l, (D.effect d).isWhole = true ∨ (D.effect d).isChange = true) :
    ∃ older base changes, Cut D l older base changes := by
  induction l with
  | nil =>
    exact ⟨[], none, [], rfl, fun _ => rfl, fun b hb => (nomatch hb), fun e he => (nomatch he)⟩
  | cons d l ih =>
    obtain ⟨hd, hl⟩ := forall_mem_cons.mp h
    obtain ⟨older, base, changes, hcut⟩ := ih hl
    cases base with
    | some b =>
      exact ⟨d :: older, some b, changes, by rw [hcut.eq]; rfl, fun hb => (nomatch hb), hcut.whole,
        hcut.change⟩
    | none =>
      -- nothing after `d` is whole
      have hl' : l = changes := by
        have heq := hcut.eq
        rw [hcut.older_nil rfl] at heq
        exact heq
      rcases hd with hwhole | hchange
      · refine ⟨[], some d, changes, by rw [hl']; rfl, fun hb => (nomatch hb), fun b hb => ?_,
          hcut.change⟩
        obtain rfl := Option.mem_some_iff.mp hb
        exact hwhole
      · refine ⟨[], none, d :: changes, by rw [hl']; rfl, fun _ => rfl, fun b hb => (nomatch hb),
          ?_⟩
        exact forall_mem_cons.mpr ⟨hchange, hcut.change⟩

theorem Effect.run_of_whole {e : Effect σ} (h : e.isWhole = true) (s s' : σ) :
    e.run s = e.run s' := by
  cases e with
  | whole content => rfl
  | _ => cases h

variable {l older changes : List δ} {base : Option δ}

/-- What came before the last whole content does not matter. -/
theorem Cut.content (hcut : Cut D l older base changes) (s : σ) :
    l.foldl (fun s d => (D.effect d).run s) s
      = changes.foldl (fun s d => (D.effect d).run s)
          (base.elim s fun b => (D.effect b).run s) := by
  rw [hcut.eq, foldl_append, foldl_append]
  congr 1
  cases base with
  | none => rw [hcut.older_nil rfl]; rfl
  | some b => exact Effect.run_of_whole (hcut.whole b rfl) _ _

theorem Cut.ascending (hcut : Cut D l older base changes) (h : l.Pairwise (Follows D)) :
    (changes.Pairwise fun a b => D.revision a < D.revision b) ∧
      (∀ b ∈ base, ∀ e ∈ changes, D.revision b < D.revision e) ∧
      ∀ b ∈ base, ∀ d ∈ older, D.revision d ≤ D.revision b := by
  rw [hcut.eq, append_assoc, pairwise_append, pairwise_append] at h
  obtain ⟨-, ⟨-, hchanges, hbase⟩, holder⟩ := h
  refine ⟨?_, fun b hb e he => ?_, fun b hb d hd => ?_⟩
  · refine hchanges.imp_of_mem ?_
    intro a b _ hb hab
    exact hab.2 (hcut.change b hb)
  · exact (hbase b (Option.mem_toList.mpr hb) e he).2 (hcut.change e he)
  · exact (holder d hd b (mem_append_left _ (Option.mem_toList.mpr hb))).1

end RemoteControl.Lib
