import RemoteControl.Lib.Events
import RemoteControl.Lib.Framing
import RemoteControl.Sync.Cache

/-!
# The event stream, as bytes

`authEvents` of the API writes server-sent events, and `consume_event_stream` of `art-core/sync.rs`
reads them. The network cuts the stream into chunks as it likes.

> Each chunk has to be UTF-8 by itself. A frame may be cut anywhere, its end included, but a chunk
> that ends inside a character ends the stream.

`json.Marshal`, `serde_json` and the saves of the cache are parameters. `json.Marshal` writes
valid UTF-8, so the text of an event is a `String` here.
-/

namespace RemoteControl.Sync

open Lib List

variable {st : CacheState} {chunks : List (List UInt8)} {chunk : List UInt8}

def bytes (text : String) : List UInt8 := text.toByteArray.data.toList

/-- `from_utf8` accepts the bytes. -/
def Utf8 (l : List UInt8) : Prop := ByteArray.IsValidUTF8 ⟨l.toArray⟩

instance (l : List UInt8) : Decidable (Utf8 l) :=
  inferInstanceAs (Decidable (ByteArray.IsValidUTF8 _))

theorem utf8_bytes (text : String) : Utf8 (bytes text) := text.isValidUTF8

/-! ## The handler -/

/-- What the loop of `authEvents` writes. -/
inductive Sent
  | event (e : EventEnvelope)
  | keepAlive

section

variable (marshal : EventEnvelope → Option String)

/-- An event that cannot be marshalled is left out of the backlog. -/
def backlogText (e : EventEnvelope) : String := match marshal e with
  | some data => "data: " ++ data ++ "\n\n"
  | none => ""

/-- A live event is written even so, with no data. -/
def Sent.text : Sent → String
  | .event e =>
    "id: " ++ toString e.revision ++ "\nevent: auth\ndata: " ++ (marshal e).getD "" ++ "\n\n"
  | .keepAlive => ": keepalive\n\n"

def authEvents (backlog : List EventEnvelope) (sent : List Sent) : String :=
  String.join (backlog.map (backlogText marshal) ++ sent.map (Sent.text marshal))

end

/-! ## The consumer -/

def newline : UInt8 := 10

/-- A line that is ended loses a carriage return before its end. -/
def dropReturn (line : List UInt8) : List UInt8 :=
  if line.getLast? = some 13 then line.dropLast else line

def linesFrom (line : List UInt8) : List UInt8 → List (List UInt8)
  | [] => if line = [] then [] else [line]
  | b :: l =>
    if b = newline then dropReturn line :: linesFrom [] l else linesFrom (line ++ [b]) l

/-- `str::lines`. -/
def lines (frame : List UInt8) : List (List UInt8) := linesFrom [] frame

def dataOfLine (line : List UInt8) : Option (List UInt8) := (bytes "data: ").isPrefixOf? line

def dataOf (frame : List UInt8) : Option (List UInt8) := (lines frame).findSome? dataOfLine

inductive Stop
  | notUtf8
  /-- `apply_event` failed. -/
  | refused
  | notSaved
deriving DecidableEq, Repr

structure Followed where
  cache : CacheState
  /-- The events that were applied, oldest first. -/
  applied : List EventEnvelope

/-- What the consumer has made of the stream, and what it has not yet read, if it goes on. -/
abbrev Consumer := Followed × Except Stop (List UInt8)

variable {w : Consumer}

/-- `consume_event_stream` begins. -/
def Consumer.start (st : CacheState) : Consumer := (⟨st, []⟩, .ok [])

section

variable (parse : List UInt8 → Option EventEnvelope) (saved : Nat → Bool)

/-- `apply_event` and `save`; `saved` says how the save after so many events ends. -/
def Followed.handle (s : Followed) (frame : List UInt8) : Followed × Option Stop :=
  match dataOf frame with
  | none => (s, none)
  | some data =>
    match parse data with
    | none => (s, some .refused)
    | some e =>
      match s.cache.applyEvent e with
      | .error _ => (s, some .refused)
      | .ok st =>
        (⟨st, s.applied ++ [e]⟩, if saved s.applied.length then none else some .notSaved)

/-- A chunk arrives. -/
def Consumer.perform (w : Consumer) (chunk : List UInt8) : Consumer := match w with
  | (s, .error why) => (s, .error why)
  | (s, .ok pending) =>
    if Utf8 chunk then drain newline (Followed.handle parse saved) s (pending ++ chunk)
    else (s, .error .notUtf8)

end

/-! ## Where the cuts fall -/

namespace Consumer

/-- A chunk that is still read is UTF-8 by itself: the cut fell between two characters. -/
def BetweenCharacters (w : Consumer) (chunk : List UInt8) : Prop :=
  ∀ pending, w.2 = .ok pending → Utf8 chunk

variable {parse : List UInt8 → Option EventEnvelope} {saved : Nat → Bool}

theorem perform_of_between (h : w.BetweenCharacters chunk) :
    w.perform parse saved chunk = resume newline (Followed.handle parse saved) w chunk := by
  match w, h with
  | (s, .error why), _ => rfl
  | (s, .ok pending), h => exact if_pos (h pending rfl)

theorem perform_of_not_between (h : ¬ w.BetweenCharacters chunk) :
    w.perform parse saved chunk = (w.1, .error .notUtf8) := by
  match w, h with
  | (s, .error why), h => exact absurd (fun _ hp => nomatch hp) h
  | (s, .ok pending), h => exact if_neg fun hu => h fun _ _ => hu

theorem foldl_perform_stopped (s : Followed) (why : Stop) (chunks : List (List UInt8)) :
    chunks.foldl (perform parse saved) (s, .error why) = (s, .error why) := by
  induction chunks with
  | nil => rfl
  | cons chunk chunks ih => exact ih

/-- If no cut falls inside a character, the cuts make no difference. -/
theorem foldl_perform_of_between (hw : Drained newline w)
    (h : Throughout (perform parse saved) BetweenCharacters w chunks) :
    chunks.foldl (perform parse saved) w
      = resume newline (Followed.handle parse saved) w chunks.flatten := by
  induction chunks generalizing w with
  | nil => exact (resume_nil hw).symm
  | cons chunk chunks ih =>
    obtain ⟨hfirst, hrest⟩ := throughout_cons.mp h
    rw [perform_of_between hfirst] at hrest
    rw [foldl_cons, perform_of_between hfirst, ih (drained_resume hw chunk) hrest,
      flatten_cons, resume_append]

/-- If one does, the consumer aborts. -/
theorem foldl_perform_of_not_between
    (h : ¬ Throughout (perform parse saved) BetweenCharacters w chunks) :
    (chunks.foldl (perform parse saved) w).2 = .error .notUtf8 := by
  induction chunks generalizing w with
  | nil => exact absurd (throughout_nil _ w) h
  | cons chunk chunks ih =>
    rw [foldl_cons]
    by_cases hfirst : w.BetweenCharacters chunk
    · exact ih fun hrest => h (throughout_cons.mpr ⟨hfirst, hrest⟩)
    · rw [perform_of_not_between hfirst, foldl_perform_stopped]

theorem handle_stop {s s' : Followed} {frame : List UInt8} {why : Stop}
    (h : s.handle parse saved frame = (s', some why)) : why ≠ .notUtf8 := by
  unfold Followed.handle at h
  split at h
  next => cases h
  split at h
  next => cases h; decide
  next =>
    split at h
    next => cases h; decide
    next =>
      split at h
      next => cases h
      next => cases h; decide

theorem drained_start (st : CacheState) : Drained newline (start st) := by
  intro pending hp
  cases hp
  rfl

/-- **The cuts make no difference, just if those before the end fall between characters.** -/
theorem chunks_eq_iff (marshal : EventEnvelope → Option String)
    (parse : List UInt8 → Option EventEnvelope) (saved : Nat → Bool) (st : CacheState)
    (backlog : List EventEnvelope) (sent : List Sent) (chunks : List (List UInt8))
    (hchunks : chunks.flatten = bytes (authEvents marshal backlog sent)) :
    chunks.foldl (perform parse saved) (start st)
        = (start st).perform parse saved (bytes (authEvents marshal backlog sent)) ↔
      Throughout (perform parse saved) BetweenCharacters (start st) chunks := by
  have hwhole : (start st).BetweenCharacters (bytes (authEvents marshal backlog sent)) :=
    fun _ _ => utf8_bytes _
  rw [perform_of_between hwhole]
  constructor
  · intro heq
    by_contra hcut
    have hstop := foldl_perform_of_not_between hcut
    rw [heq] at hstop
    exact stop_of_drain (P := (· ≠ Stop.notUtf8)) (fun _ _ _ _ => handle_stop) hstop rfl
  · intro h
    rw [foldl_perform_of_between (drained_start st) h, hchunks]

/-! ## A name that is not ASCII -/

def renamed : EventEnvelope :=
  { sourceId := "api-1"
    revision := 1
    kind := "USER_UPDATED"
    payload := .obj
      [("id", .str "u1"), ("username", .str "ann"), ("display_name", .str "Ж"),
        ("role", .str "user"), ("enabled", .bool true), ("token_version", .int 1)] }

/-- The text of the event, without the fields that the consumer ignores. -/
def renamedText : String :=
  "\x7b\"source_id\":\"api-1\",\"revision\":1,\"type\":\"USER_UPDATED\",\"payload\":\x7b" ++
    "\"id\":\"u1\",\"username\":\"ann\",\"display_name\":\"Ж\",\"role\":\"user\"," ++
    "\"enabled\":true,\"token_version\":1\x7d\x7d"

def readRenamed (data : List UInt8) : Option EventEnvelope :=
  if data = bytes renamedText then some renamed else none

def renamedStream : List UInt8 := bytes (authEvents (fun _ => some renamedText) [renamed] [])

/-- The stream in two chunks. -/
def renamedCut (n : Nat) : List (List UInt8) := [renamedStream.take n, renamedStream.drop n]

theorem renamedCut_flatten (n : Nat) : (renamedCut n).flatten = renamedStream := by
  unfold renamedCut
  rw [flatten_cons, flatten_cons, flatten_nil, append_nil, take_append_drop]

theorem perform_renamedStream :
    ((start .empty).perform readRenamed (fun _ => true) renamedStream).1.applied = [renamed] := by
  have hcut : cutFrame newline renamedStream = some (bytes ("data: " ++ renamedText), []) := by
    decide +kernel
  have hdata : dataOf (bytes ("data: " ++ renamedText)) = some (bytes renamedText) := by
    decide +kernel
  have hhandle : ∃ st, Followed.handle readRenamed (fun _ => true) ⟨.empty, []⟩
      (bytes ("data: " ++ renamedText)) = (⟨st, [renamed]⟩, none) := by
    unfold Followed.handle readRenamed
    rw [hdata]
    dsimp only
    rw [if_pos rfl]
    exact ⟨_, rfl⟩
  obtain ⟨st, hst⟩ := hhandle
  have hwhole : (start .empty).BetweenCharacters renamedStream := fun _ _ => utf8_bytes _
  rw [perform_of_between hwhole]
  show Followed.applied (drain newline _ _ ([] ++ renamedStream)).1 = _
  rw [nil_append, drain_of_some hcut hst, drain_of_none rfl]

/-- The event arrives in one chunk, and is lost when the name is cut in two. -/
theorem cut_inside_character :
    (renamedCut 117).flatten = renamedStream ∧
      ((start .empty).perform readRenamed (fun _ => true) renamedStream).1.applied = [renamed] ∧
      (renamedCut 117).foldl (perform readRenamed fun _ => true) (start .empty)
        = (⟨.empty, []⟩, .error .notUtf8) := by
  refine ⟨renamedCut_flatten 117, perform_renamedStream, ?_⟩
  have hinvalid : ¬ Utf8 (renamedStream.take 117) := by decide +kernel
  unfold renamedCut
  rw [foldl_cons, perform_of_not_between fun h => hinvalid (h [] rfl)]
  exact foldl_perform_stopped _ _ _

/-- The last chunk may be the second newline alone. -/
theorem cut_inside_separator :
    (renamedCut (renamedStream.length - 1)).getLast? = some [newline] ∧
      (renamedCut (renamedStream.length - 1)).foldl (perform readRenamed fun _ => true)
          (start .empty)
        = (start .empty).perform readRenamed (fun _ => true) renamedStream := by
  have hfirst : Utf8 (renamedStream.take (renamedStream.length - 1)) := by decide +kernel
  have hsecond : Utf8 (renamedStream.drop (renamedStream.length - 1)) := by decide +kernel
  refine ⟨by decide +kernel, ?_⟩
  refine (chunks_eq_iff (fun _ => some renamedText) readRenamed (fun _ => true) .empty [renamed] []
    _ (renamedCut_flatten _)).mpr ?_
  unfold renamedCut
  rw [throughout_cons, throughout_cons]
  exact ⟨fun _ _ => hfirst, fun _ _ => hsecond, throughout_nil _ _⟩

end Consumer

end RemoteControl.Sync
