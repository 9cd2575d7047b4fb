import Mathlib.Data.List.Basic

/-!
# Decoders of streams

A decoder looks at what it has of a stream and finds a frame, waits for more, or fails. It may keep
something in mind while it waits. `StreamDecoder` has the laws that make such a decoder
independent of how the stream was cut:

> What it has found it finds whatever comes after, and after it has waited it goes on as if it had
> seen all at once.

Of an encoding, it is asked that a whole frame is found, and that nothing is found in less.
-/

namespace RemoteControl.Lib

open List

/-- What one call of a decoder comes to, with what it keeps in mind and what it leaves. -/
inductive Decoded (β σ φ ε : Type)
  | wait (s : σ) (rest : List β)
  | frame (f : φ) (s : σ) (rest : List β)
  | failed (why : ε)

structure StreamDecoder (β σ φ ε : Type) where
  decode : σ → List β → Decoded β σ φ ε
  /-- What is kept in mind counts as so many elements of the stream. -/
  weight : σ → Nat
  shrinks : ∀ {s l f s' rest}, decode s l = .frame f s' rest →
    rest.length + weight s' < l.length + weight s
  frame_append : ∀ {s l f s' rest}, decode s l = .frame f s' rest →
    ∀ more, decode s (l ++ more) = .frame f s' (rest ++ more)
  failed_append : ∀ {s l why}, decode s l = .failed why → ∀ more, decode s (l ++ more) = .failed why
  wait_append : ∀ {s l s' rest}, decode s l = .wait s' rest →
    ∀ more, decode s (l ++ more) = decode s' (rest ++ more)

namespace StreamDecoder

variable {β σ φ ε : Type} (D : StreamDecoder β σ φ ε)

/-- The frames that were found, and how it goes on. -/
abbrev Reading (β σ φ ε : Type) := List φ × Except ε (σ × List β)

/-- The decoder is called until it waits or fails. -/
def drain (s : σ) (l : List β) : Reading β σ φ ε := match _h : D.decode s l with
  | .wait s' rest => ([], .ok (s', rest))
  | .failed why => ([], .error why)
  | .frame f s' rest =>
    let r := drain s' rest
    (f :: r.1, r.2)
termination_by l.length + D.weight s
decreasing_by exact D.shrinks _h

/-- A chunk arrives. -/
def feed (r : Reading β σ φ ε) (chunk : List β) : Reading β σ φ ε := match r with
  | (found, .error why) => (found, .error why)
  | (found, .ok (s, l)) => (found ++ (D.drain s (l ++ chunk)).1, (D.drain s (l ++ chunk)).2)

variable {D} {s s' : σ} {l rest : List β} {f : φ} {why : ε} {r : Reading β σ φ ε}

theorem drain_of_wait (h : D.decode s l = .wait s' rest) : D.drain s l = ([], .ok (s', rest)) := by
  fun_cases drain D s l <;> grind

theorem drain_of_failed (h : D.decode s l = .failed why) : D.drain s l = ([], .error why) := by
  fun_cases drain D s l <;> grind

theorem drain_of_frame (h : D.decode s l = .frame f s' rest) :
    D.drain s l = (f :: (D.drain s' rest).1, (D.drain s' rest).2) := by
  fun_cases drain D s l <;> grind

/-- **Draining what is there, and then what arrives.** -/
theorem drain_append (s : σ) (l more : List β) :
    D.drain s (l ++ more) = D.feed (D.drain s l) more := by
  fun_induction drain D s l with
  | case1 s l s' rest h =>
    -- the decoder goes on from where it waited
    rw [feed, nil_append, drain, drain, D.wait_append h]
  | case2 s l why h => exact drain_of_failed (D.failed_append h more)
  | case3 s l f s' rest h r ih =>
    rw [drain_of_frame (D.frame_append h more), ih]
    show _ = D.feed (f :: (D.drain s' rest).1, (D.drain s' rest).2) more
    match D.drain s' rest with
    | (found, .error why) => rfl
    | (found, .ok p) => rfl

theorem feed_append (r : Reading β σ φ ε) (chunk more : List β) :
    D.feed r (chunk ++ more) = D.feed (D.feed r chunk) more := by
  match r with
  | (found, .error why) => rfl
  | (found, .ok (s, l)) =>
    rw [feed, ← append_assoc, drain_append, feed]
    cases hr : D.drain s (l ++ chunk) with
    | mk found' next =>
      cases next with
      | error why => rfl
      | ok p => simp only [feed, append_assoc]

/-- The decoder would find nothing in what it has. -/
def Waits (D : StreamDecoder β σ φ ε) (r : Reading β σ φ ε) : Prop :=
  ∀ s l, r.2 = .ok (s, l) → D.decode s l = .wait s l

theorem waits_drain (s : σ) (l : List β) : D.Waits (D.drain s l) := by
  fun_induction drain D s l with
  | case1 s l s' rest h =>
    intro t m hm
    obtain ⟨rfl, rfl⟩ := Prod.mk.inj (Except.ok.inj hm)
    have hagain := D.wait_append h []
    rw [append_nil, append_nil, h] at hagain
    exact hagain.symm
  | case2 => exact nofun
  | case3 s l f s' rest h r ih => exact ih

theorem waits_feed (hr : D.Waits r) (chunk : List β) : D.Waits (D.feed r chunk) := by
  match r, hr with
  | (found, .error why), hr => exact hr
  | (found, .ok (s, l)), _ => exact waits_drain s (l ++ chunk)

theorem feed_nil (hr : D.Waits r) : D.feed r [] = r := by
  match r, hr with
  | (found, .error why), _ => rfl
  | (found, .ok (s, l)), hr =>
    rw [feed, append_nil, drain_of_wait (hr s l rfl), append_nil]

/-- **However the stream is cut.** -/
theorem foldl_feed (hr : D.Waits r) (chunks : List (List β)) :
    chunks.foldl D.feed r = D.feed r chunks.flatten := by
  induction chunks generalizing r with
  | nil => exact (feed_nil hr).symm
  | cons chunk chunks ih =>
    rw [foldl_cons, ih (waits_feed hr chunk), flatten_cons, feed_append]

/-- What holds of every frame that one call finds holds of all. -/
theorem forall_mem_drain {P : φ → Prop} {I : σ → Prop}
    (hwait : ∀ {s l s' rest}, I s → D.decode s l = .wait s' rest → I s')
    (hframe : ∀ {s l f s' rest}, I s → D.decode s l = .frame f s' rest → P f ∧ I s')
    {s : σ} (hs : I s) (l : List β) :
    (∀ f ∈ (D.drain s l).1, P f) ∧ ∀ s' rest, (D.drain s l).2 = .ok (s', rest) → I s' := by
  fun_induction drain D s l with
  | case1 s l s' rest h =>
    refine ⟨nofun, fun t m hm => ?_⟩
    obtain ⟨rfl, rfl⟩ := Prod.mk.inj (Except.ok.inj hm)
    exact hwait hs h
  | case2 => exact ⟨nofun, nofun⟩
  | case3 s l f s' rest h r ih =>
    obtain ⟨hf, hs'⟩ := hframe hs h
    obtain ⟨hfound, hnext⟩ := ih hs'
    exact ⟨forall_mem_cons.mpr ⟨hf, hfound⟩, hnext⟩

/-! ## The first frame -/

/-- A chunk arrives before the decoder is called for a further frame. -/
def next : Decoded β σ φ ε → List β → Decoded β σ φ ε
  | .wait s l, chunk => D.decode s (l ++ chunk)
  | .frame f s rest, chunk => .frame f s (rest ++ chunk)
  | .failed why, _ => .failed why

theorem next_decode (s : σ) (l chunk : List β) :
    D.next (D.decode s l) chunk = D.decode s (l ++ chunk) := by
  cases h : D.decode s l with
  | wait s' rest => exact (D.wait_append h chunk).symm
  | frame f s' rest => exact (D.frame_append h chunk).symm
  | failed why => exact (D.failed_append h chunk).symm

theorem foldl_next (s : σ) (l : List β) (chunks : List (List β)) :
    chunks.foldl D.next (D.decode s l) = D.decode s (l ++ chunks.flatten) := by
  induction chunks generalizing l with
  | nil => rw [flatten_nil, append_nil]; rfl
  | cons chunk chunks ih =>
    rw [foldl_cons, next_decode, ih, flatten_cons, append_assoc]

/-! ## Encodings -/

/-- Whole frames are found, and parts of them are waited for. -/
structure Encodes (D : StreamDecoder β σ φ ε) (start : σ) (encode : φ → List β)
    (valid : φ → Prop) : Prop where
  nil : D.decode start [] = .wait start []
  whole : ∀ f, valid f → ∀ more, D.decode start (encode f ++ more) = .frame f start more
  part : ∀ f, valid f → ∀ p, p <+: encode f → p ≠ encode f → ∃ s l, D.decode start p = .wait s l

variable {start : σ} {encode : φ → List β} {valid : φ → Prop} {frames : List φ}

section

variable (h : D.Encodes start encode valid)

include h

theorem Encodes.drain_append (hframes : ∀ f ∈ frames, valid f) (p : List β) :
    D.drain start (frames.flatMap encode ++ p)
      = (frames ++ (D.drain start p).1, (D.drain start p).2) := by
  induction frames with
  | nil => rfl
  | cons f frames ih =>
    obtain ⟨hf, hrest⟩ := forall_mem_cons.mp hframes
    rw [flatMap_cons, append_assoc, drain_of_frame (h.whole f hf _), ih hrest]
    rfl

/-- All frames come out, and nothing is left. -/
theorem Encodes.drain (hframes : ∀ f ∈ frames, valid f) :
    D.drain start (frames.flatMap encode) = (frames, .ok (start, [])) := by
  have hall := h.drain_append hframes []
  rwa [append_nil, drain_of_wait h.nil, append_nil] at hall

/-- **No frame comes out early.** Of a part of the stream the frames come out that are complete
in it. -/
theorem Encodes.complete (hframes : ∀ f ∈ frames, valid f) {p : List β}
    (hp : p <+: frames.flatMap encode) :
    ∃ k ≤ frames.length, (D.drain start p).1 = frames.take k ∧
      (frames.take k).flatMap encode <+: p ∧
      (k < frames.length → ¬ (frames.take (k + 1)).flatMap encode <+: p) := by
  induction frames generalizing p with
  | nil =>
    obtain rfl := prefix_nil.mp hp
    refine ⟨0, Nat.le_refl 0, ?_, prefix_refl _, fun hlt => absurd hlt (Nat.lt_irrefl 0)⟩
    rw [drain_of_wait h.nil]
    rfl
  | cons f frames ih =>
    obtain ⟨hf, hrest⟩ := forall_mem_cons.mp hframes
    rw [flatMap_cons] at hp
    by_cases hfirst : encode f <+: p
    · obtain ⟨q, rfl⟩ := hfirst
      obtain ⟨k, hk, hfound, hcomplete, hnext⟩ := ih hrest ((prefix_append_right_inj _).mp hp)
      refine ⟨k + 1, Nat.succ_le_succ hk, ?_, ?_, fun hlt => ?_⟩
      · rw [drain_of_frame (h.whole f hf q), hfound]
        rfl
      · rw [take_succ_cons, flatMap_cons]
        exact (prefix_append_right_inj _).mpr hcomplete
      · rw [take_succ_cons, flatMap_cons, prefix_append_right_inj]
        exact hnext (Nat.lt_of_succ_lt_succ hlt)
    · -- less than the first frame has arrived
      have hpart : p <+: encode f :=
        (List.prefix_or_prefix_of_prefix hp (prefix_append _ _)).resolve_right hfirst
      have hne : p ≠ encode f := fun heq => hfirst (heq ▸ prefix_refl _)
      obtain ⟨s, l, hwait⟩ := h.part f hf p hpart hne
      refine ⟨0, Nat.zero_le _, ?_, nil_prefix, fun _ hone => hfirst ?_⟩
      · rw [drain_of_wait hwait]
        rfl
      · rwa [take_succ_cons, take_zero, flatMap_cons, flatMap_nil, append_nil] at hone

end

end StreamDecoder

end RemoteControl.Lib
