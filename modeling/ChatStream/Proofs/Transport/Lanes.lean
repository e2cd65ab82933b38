import Mathlib.Tactic
import ChatStream.Transport.Exchange

/-!
# Scripts and lanes

Streams are laid down, fed, asked for, read and dropped in any order, many of them at once. What is
promised of all this concerns two things apart. One is the script: which request is answered with
what (`ExchangeLog.reply`). The other is a single stream, whatever is done to the others: what it
returns is what was sent into it (`ExchangeLog.due`).

Streams are handed out in the order in which they were laid down, so both sides of a stream, the
feed and the reader, have the same number, and all that is done to it is found in the log under that
number. `Lane` says what the pipe and the reader of one number have to do with the log. Nobody
cancels a token here.
-/

namespace ChatStream

/-- What is done to a scripted transport, to the feeds of its streams and to the streams that it
handed out. A feed has the number that its stream has among all streams of the script. -/
inductive ExchangeAct
  /-- A stream is laid down that is yet to be fed. -/
  | addStream
  | addChunks (chunks : List Bytes)
  | addRejection (e : TransportError)
  /-- A feed is copied. -/
  | copyFeed (n : Nat)
  | send (n : Nat) (i : Item)
  /-- A feed or one of its copies is dropped. -/
  | dropFeed (n : Nat)
  | request (r : Request)
  | next (n : Nat)
  /-- A stream is dropped. -/
  | drop (n : Nat)

/-- What comes back. -/
inductive ExchangeReply
  | done
  /-- There is one more feed with this number. -/
  | fed (n : Nat)
  /-- Whether there is anyone to read what was sent. -/
  | sent (heard : Bool)
  /-- A stream was handed out. -/
  | opened (n : Nat)
  | refused (e : TransportError)
  | found (p : Poll)
  /-- There is no feed or stream with this number. -/
  | absent

/-- An act with its reply. -/
structure ExchangeEntry where
  act : ExchangeAct
  reply : ExchangeReply

namespace Exchange

/-- Whether there is a feed with this number, or a copy of it. -/
def hasFeed (x : Exchange) (n : Nat) : Bool := (x.transport.pipes[n]?).any (0 < ·.writers)

/-- Does something; nothing if it takes a feed or a stream that is not there. -/
def step (x : Exchange) : ExchangeAct → Exchange × ExchangeReply
  | .addStream =>
    let (transport, n) := x.transport.addStream
    ({ x with transport }, .fed n)
  | .addChunks chunks => ({ x with transport := x.transport.addChunks chunks }, .done)
  | .addRejection e => ({ x with transport := x.transport.addRejection e }, .done)
  | .copyFeed n =>
    if x.hasFeed n then ({ x with transport := x.transport.onPipe n Pipe.addWriter }, .fed n)
    else (x, .absent)
  | .send n i =>
    if x.hasFeed n then
      let (transport, heard) := x.transport.send n i
      ({ x with transport }, .sent heard)
    else (x, .absent)
  | .dropFeed n =>
    if x.hasFeed n then ({ x with transport := x.transport.onPipe n Pipe.dropWriter }, .done)
    else (x, .absent)
  | .request r =>
    match x.request r with
    | (x, some (.ok n)) => (x, .opened n)
    | (x, some (.error e)) => (x, .refused e)
    | (x, none) => (x, .absent)
  | .next n =>
    if (x.stream? n).isSome then
      let (x, found) := x.next n
      (x, .found found)
    else (x, .absent)
  | .drop n => if (x.stream? n).isSome then (x.drop n, .done) else (x, .absent)

/-- Does one thing after another, and keeps the log. -/
def run (x : Exchange) : List ExchangeAct → Exchange × List ExchangeEntry
  | [] => (x, [])
  | a :: acts =>
    let (y, log) := (x.step a).1.run acts
    (y, ⟨a, (x.step a).2⟩ :: log)

end Exchange

/-! ## What the log says -/

/-- What is laid down for a request. -/
inductive Laid
  /-- A stream, with the chunks that are in it from the beginning. -/
  | stream (chunks : List Bytes)
  | rejection (e : TransportError)

namespace Laid

/-- The chunks of a stream. -/
def chunks? : Laid → Option (List Bytes)
  | .stream chunks => some chunks
  | .rejection _ => none

/-- The streams among what is laid down. -/
def streams (laid : List Laid) : List (List Bytes) := laid.filterMap chunks?

/-- The answers of a script, its streams numbered from `n` on. -/
def answers (n : Nat) : List Laid → List Answer
  | [] => []
  | .stream _ :: laid => .stream n :: answers (n + 1) laid
  | .rejection e :: laid => .rejection e :: answers n laid

theorem answers_append (n : Nat) (laid laid' : List Laid) :
    answers n (laid ++ laid') = answers n laid ++ answers (n + (streams laid).length) laid' := by
  induction laid generalizing n with
  | nil => rfl
  | cons a laid ih =>
    cases a with
    | stream chunks => simp [answers, ih, streams, chunks?, Nat.add_comm, Nat.add_left_comm]
    | rejection e => simp [answers, ih, streams, List.filterMap_cons, chunks?]

end Laid

/-- What happens to one stream. -/
inductive LaneWord
  /-- There is one more feed. -/
  | fed
  /-- There is one feed less. -/
  | unfed
  /-- An item was sent and heard. -/
  | sent (i : Item)
  | returned (i : Item)
  /-- The reader left. -/
  | left

namespace LaneWord

def sent? : LaneWord → Option Item
  | .sent i => some i
  | _ => none

def returned? : LaneWord → Option Item
  | .returned i => some i
  | _ => none

/-- What a look of the reader says. -/
@[simp] def ofPoll : Poll → List LaneWord
  | .item i => [.returned i]
  | .ended => []
  | .waiting => []

def isFed : LaneWord → Bool
  | .fed => true
  | _ => false

def isUnfed : LaneWord → Bool
  | .unfed => true
  | _ => false

def isLeft : LaneWord → Bool
  | .left => true
  | _ => false

end LaneWord

namespace ExchangeEntry

/-- What was laid down. -/
def laid? (e : ExchangeEntry) : Option Laid :=
  match e.act with
  | .addStream => some (.stream [])
  | .addChunks chunks => some (.stream chunks)
  | .addRejection e => some (.rejection e)
  | _ => none

/-- The request that was made. -/
def request? (e : ExchangeEntry) : Option Request :=
  match e.act with
  | .request r => some r
  | _ => none

/-- What happened, with the number of the stream to which it happened. -/
def word? (e : ExchangeEntry) : Option (Nat × LaneWord) :=
  match e.act, e.reply with
  | _, .fed n => some (n, .fed)
  | .dropFeed n, .done => some (n, .unfed)
  | .send n i, .sent true => some (n, .sent i)
  | .next n, .found (.item i) => some (n, .returned i)
  | .drop n, .done => some (n, .left)
  | _, _ => none

/-- What happened to one stream. -/
def tells? (n : Nat) (e : ExchangeEntry) : Option LaneWord :=
  e.word?.bind fun w ↦ if w.1 = n then some w.2 else none

end ExchangeEntry

namespace ExchangeLog

section
variable (log : List ExchangeEntry) (n : Nat)

/-- All that was laid down, in order. -/
def script : List Laid := log.filterMap ExchangeEntry.laid?

/-- The requests that were made. -/
def requested : List Request := log.filterMap ExchangeEntry.request?

/-- How much was laid down, and how many requests found something that had been laid down before
and not been taken. -/
def counts : Nat × Nat :=
  log.foldl (fun (laid, served) e ↦
    (laid + e.laid?.toList.length,
      if e.request?.isSome then min laid (served + 1) else served)) (0, 0)

/-- How many requests found something that had been laid down before and not been taken. -/
def served : Nat := (counts log).2

/-- How many streams were handed out. -/
def opened : Nat := (Laid.streams ((script log).take (served log))).length

/-- What the next request is told. -/
def reply : ExchangeReply :=
  match (script log)[served log]? with
  | some (.stream _) => .opened (opened log)
  | some (.rejection e) => .refused e
  | none => .refused outOfScript

/-- What happened to one stream. -/
def words : List LaneWord := log.filterMap (ExchangeEntry.tells? n)

/-- The items that went into a stream: the chunks that it was laid down with, and what was sent and
heard. -/
def sent : List Item :=
  (((Laid.streams (script log))[n]?).getD []).map .ok ++ (words log n).filterMap LaneWord.sent?

/-- The items that a stream returned. -/
def returned : List Item := (words log n).filterMap LaneWord.returned?

/-- How many feeds there are of a stream, its copies included. -/
def feeds : Nat := (words log n).countP LaneWord.isFed - (words log n).countP LaneWord.isUnfed

/-- The stream was dropped. -/
def HasLeft : Prop := .left ∈ words log n

instance : Decidable (HasLeft log n) :=
  decidable_of_iff ((words log n).any LaneWord.isLeft = true) <| by
    rw [List.any_eq_true]
    constructor
    · rintro ⟨w, hw, hleft⟩
      cases w <;> first | exact hw | exact absurd hleft Bool.false_ne_true
    · exact fun hleft ↦ ⟨_, hleft, rfl⟩

/-- The stream was handed out and not dropped. -/
def IsHeld : Prop := n < opened log ∧ ¬HasLeft log n

instance : Decidable (IsHeld log n) := inferInstanceAs (Decidable (_ ∧ _))

/-- What a stream returns next: the first item that it has not returned yet, or else the end, as
soon as nobody can send any more. -/
def due : Poll :=
  match (sent log n).drop (returned log n).length with
  | i :: _ => .item i
  | [] => if feeds log n = 0 then .ended else .waiting

/-- What has to come back, after all that the log says. -/
def expected : ExchangeAct → ExchangeReply
  | .addStream => .fed (Laid.streams (script log)).length
  | .addChunks _ => .done
  | .addRejection _ => .done
  | .copyFeed n => if 0 < feeds log n then .fed n else .absent
  | .send n _ => if 0 < feeds log n then .sent ¬HasLeft log n else .absent
  | .dropFeed n => if 0 < feeds log n then .done else .absent
  | .request _ => reply log
  | .next n => if IsHeld log n then .found (due log n) else .absent
  | .drop n => if IsHeld log n then .done else .absent

end

section
variable (log : List ExchangeEntry) (e : ExchangeEntry)

theorem filterMap_concat {α : Type} (f : ExchangeEntry → Option α) :
    (log ++ [e]).filterMap f = log.filterMap f ++ (f e).toList := by
  rw [List.filterMap_append]
  cases h : f e <;> simp [h]

theorem script_concat : script (log ++ [e]) = script log ++ e.laid?.toList := filterMap_concat ..

theorem requested_concat : requested (log ++ [e]) = requested log ++ e.request?.toList :=
  filterMap_concat ..

theorem words_concat (n : Nat) : words (log ++ [e]) n = words log n ++ (e.tells? n).toList :=
  filterMap_concat ..

theorem streams_concat :
    Laid.streams (script (log ++ [e])) =
      Laid.streams (script log) ++ (e.laid?.bind Laid.chunks?).toList := by
  rw [script_concat, Laid.streams, List.filterMap_append, Laid.streams]
  congr 1
  cases e.laid? with
  | none => rfl
  | some laid => cases laid <;> rfl

theorem counts_fst : (counts log).1 = (script log).length := by
  induction log using List.reverseRecOn with
  | nil => rfl
  | append_singleton log e ih =>
    rw [script_concat, List.length_append, ← ih, counts, List.foldl_append]
    rfl

theorem served_concat :
    served (log ++ [e]) =
      if e.request?.isSome then min (script log).length (served log + 1) else served log := by
  rw [served, counts, List.foldl_append, ← counts_fst]
  rfl

theorem served_le : served log ≤ (script log).length := by
  induction log using List.reverseRecOn with
  | nil => exact Nat.le_refl 0
  | append_singleton log e ih =>
    rw [served_concat, script_concat, List.length_append]
    split_ifs
    · omega
    · omega

section
variable {e} (hrequest : e.request? = none)
include hrequest

theorem served_concat_of_none : served (log ++ [e]) = served log := by
  simp [served_concat, hrequest]

theorem opened_concat_of_none : opened (log ++ [e]) = opened log := by
  rw [opened, served_concat_of_none log hrequest, script_concat,
    List.take_append_of_le_length (served_le log), opened]

theorem drop_served_concat_of_none :
    (script (log ++ [e])).drop (served (log ++ [e])) =
      (script log).drop (served log) ++ e.laid?.toList := by
  rw [served_concat_of_none log hrequest, script_concat,
    List.drop_append_of_le_length (served_le log)]

end

/-- What was handed out and what is left of the streams. -/
theorem opened_add_length :
    opened log + (Laid.streams ((script log).drop (served log))).length =
      (Laid.streams (script log)).length := by
  rw [opened, ← List.length_append, Laid.streams, Laid.streams, ← List.filterMap_append,
    List.take_append_drop, Laid.streams]

theorem opened_le : opened log ≤ (Laid.streams (script log)).length :=
  ((List.take_sublist _ _).filterMap _).length_le

end

end ExchangeLog

/-! ## One stream -/

open ExchangeLog

/-- What is known of one stream: of its pipe, and of its reader once it was handed out. It was laid
down with some chunks. -/
structure Lane (chunks : List Bytes) (words : List LaneWord) (n : Nat) (p : Pipe)
    (s : Option (Option Opened)) : Prop where
  feeds : p.writers + words.countP LaneWord.isUnfed = words.countP LaneWord.isFed
  reader : p.hasReader = true ↔ .left ∉ words
  /-- Nothing is lost on the way as long as there is a reader. -/
  items : p.hasReader = true →
    chunks.map .ok ++ words.filterMap LaneWord.sent? =
      words.filterMap LaneWord.returned? ++ p.queue
  returned : words.filterMap LaneWord.returned? <+:
    chunks.map .ok ++ words.filterMap LaneWord.sent?
  left : s = some none ↔ .left ∈ words
  pipe : ∀ o, s = some (some o) → o.pipe = n
  token : ∀ o, s = some (some o) → o.stream.cancelled = false
  ended : ∀ o, s = some (some o) → o.stream.ended = true → p.queue = [] ∧ p.writers = 0

namespace Lane

variable {chunks : List Bytes} {words : List LaneWord} {n : Nat} {p : Pipe}
  {s : Option (Option Opened)}

/-- A stream that is yet to be fed. -/
theorem fed (n : Nat) : Lane [] [.fed] n { writers := 1 } none where
  feeds := rfl
  reader := by simp
  items _ := rfl
  returned := List.prefix_refl _
  left := by simp
  pipe := by simp
  token := by simp
  ended := by simp

/-- A stream that has all its chunks. -/
theorem ofChunks (chunks : List Bytes) (n : Nat) : Lane chunks [] n (.ofChunks chunks) none where
  feeds := rfl
  reader := by simp [Pipe.ofChunks]
  items _ := List.append_nil _
  returned := List.nil_prefix
  left := by simp
  pipe := by simp
  token := by simp
  ended := by simp

/-- A stream that can still be fed has not come to its end. -/
theorem not_ended (h : Lane chunks words n p s) (hfeed : 0 < p.writers) {o : Opened}
    (ho : s = some (some o)) : ¬o.stream.ended = true := by
  intro hended
  have hwriters := (h.ended o ho hended).2
  omega

/-- A stream that is handed out. -/
theorem handOut (h : Lane chunks words n p none) :
    Lane chunks words n p (some (some { pipe := n })) where
  feeds := h.feeds
  reader := h.reader
  items := h.items
  returned := h.returned
  left := by simpa using h.left
  pipe := by simp
  token := by simp
  ended := by simp

theorem copyFeed (h : Lane chunks words n p s) (hfeed : 0 < p.writers) :
    Lane chunks (words ++ [.fed]) n p.addWriter s where
  feeds := by
    simpa [LaneWord.isFed, LaneWord.isUnfed, Pipe.addWriter, Nat.add_right_comm] using h.feeds
  reader := by simpa [Pipe.addWriter] using h.reader
  items := by
    simpa [Pipe.addWriter, List.filterMap_cons, LaneWord.sent?, LaneWord.returned?] using h.items
  returned := by simpa [List.filterMap_cons, LaneWord.sent?, LaneWord.returned?] using h.returned
  left := by simpa using h.left
  pipe := h.pipe
  token := h.token
  ended o ho hended := absurd hended (h.not_ended hfeed ho)

theorem dropFeed (h : Lane chunks words n p s) (hfeed : 0 < p.writers) :
    Lane chunks (words ++ [.unfed]) n p.dropWriter s where
  feeds := by
    have hfeeds := h.feeds
    simp [LaneWord.isFed, LaneWord.isUnfed, Pipe.dropWriter]
    omega
  reader := by simpa [Pipe.dropWriter] using h.reader
  items := by
    simpa [Pipe.dropWriter, List.filterMap_cons, LaneWord.sent?, LaneWord.returned?] using h.items
  returned := by simpa [List.filterMap_cons, LaneWord.sent?, LaneWord.returned?] using h.returned
  left := by simpa using h.left
  pipe := h.pipe
  token := h.token
  ended o ho hended := absurd hended (h.not_ended hfeed ho)

theorem send (h : Lane chunks words n p s) (hfeed : 0 < p.writers) (i : Item)
    (hreader : p.hasReader = true) :
    Lane chunks (words ++ [.sent i]) n { p with queue := p.queue ++ [i] } s where
  feeds := by simpa [LaneWord.isFed, LaneWord.isUnfed] using h.feeds
  reader := by simpa using h.reader
  items _ := by
    have hitems := h.items hreader
    simp [List.filterMap_cons, LaneWord.sent?, LaneWord.returned?, ← List.append_assoc, hitems]
  returned := by
    have hreturned := h.returned.trans (List.prefix_append _ [i])
    simpa [List.filterMap_cons, LaneWord.sent?, LaneWord.returned?] using hreturned
  left := by simpa using h.left
  pipe := h.pipe
  token := h.token
  ended o ho hended := absurd hended (h.not_ended hfeed ho)

theorem drop (h : Lane chunks words n p s) :
    Lane chunks (words ++ [.left]) n p.dropReader (some none) where
  feeds := by simpa [LaneWord.isFed, LaneWord.isUnfed, Pipe.dropReader] using h.feeds
  reader := by simp [Pipe.dropReader]
  items := by simp [Pipe.dropReader]
  returned := by simpa [List.filterMap_cons, LaneWord.sent?, LaneWord.returned?] using h.returned
  left := by simp
  pipe := by simp
  token := by simp
  ended := by simp

theorem hasReader (h : Lane chunks words n p s) {o : Opened} (ho : s = some (some o)) :
    p.hasReader = true := by
  rw [h.reader, ← h.left, ho]
  nofun

/-- What is found in the pipe when its reader looks. -/
def found (p : Pipe) : Poll :=
  match p.queue with
  | i :: _ => .item i
  | [] => if p.writers = 0 then .ended else .waiting

/-- A look that returns nothing leaves the log of the stream as it was. -/
theorem next (h : Lane chunks words n p s) {o : Opened} (ho : s = some (some o)) :
    (o.stream.next p).2.2 = found p ∧
      Lane chunks (words ++ LaneWord.ofPoll (found p)) n (o.stream.next p).2.1
        (some (some { o with stream := (o.stream.next p).1 })) := by
  subst ho
  have hreader := h.hasReader rfl
  have htoken := h.token o rfl
  have hitems := h.items hreader
  have hpipe := h.pipe o rfl
  have hleft : ¬.left ∈ words := h.reader.mp hreader
  rw [StreamReader.next]
  by_cases hended : o.stream.ended = true
  · obtain ⟨hqueue, hwriters⟩ := h.ended o rfl hended
    have hfound : found p = .ended := by
      rw [found, hqueue]
      exact if_pos hwriters
    rw [if_pos hended, hfound]
    refine ⟨rfl, ?_⟩
    rw [LaneWord.ofPoll, List.append_nil]
    exact h
  rw [if_neg hended, htoken, if_neg Bool.false_ne_true]
  cases hqueue : p.queue with
  | cons i rest =>
    have hread : p.read = ({ p with queue := rest, reads := p.reads + 1 }, .item i) := by
      rw [Pipe.read, hqueue]
    have hfound : found p = .item i := by rw [found, hqueue]
    rw [hqueue, List.append_cons] at hitems
    rw [hread, hfound]
    refine ⟨rfl, ⟨?_, ?_, fun _ ↦ ?_, ?_, ?_, ?_, ?_, ?_⟩⟩
    · simpa [LaneWord.isFed, LaneWord.isUnfed] using h.feeds
    · simpa using h.reader
    · simpa [List.filterMap_cons, LaneWord.sent?, LaneWord.returned?] using hitems
    · simp [List.filterMap_cons, LaneWord.sent?, LaneWord.returned?, hitems]
    · simpa using hleft
    · simpa using hpipe
    · simpa using htoken
    · simp [hended]
  | nil =>
    by_cases hwriters : p.writers = 0
    · have hread : p.read = ({ p with reads := p.reads + 1 }, .ended) := by
        rw [Pipe.read, hqueue]
        exact if_pos hwriters
      have hfound : found p = .ended := by
        rw [found, hqueue]
        exact if_pos hwriters
      rw [hread, hfound]
      refine ⟨rfl, ?_⟩
      rw [LaneWord.ofPoll, List.append_nil]
      refine ⟨h.feeds, h.reader, h.items, h.returned, ?_, ?_, ?_, ?_⟩
      · simpa using hleft
      · simpa using hpipe
      · simp
      · simp [hqueue, hwriters]
    · have hread : p.read = (p, .waiting) := by
        rw [Pipe.read, hqueue]
        exact if_neg hwriters
      have hfound : found p = .waiting := by
        rw [found, hqueue]
        exact if_neg hwriters
      rw [hread, hfound]
      refine ⟨rfl, ?_⟩
      rw [LaneWord.ofPoll, List.append_nil]
      exact h

end Lane

end ChatStream
