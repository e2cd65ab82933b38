import Mathlib.Data.List.Induction
import ChatStream.Transport.Stream

/-!
# What an open stream delivers

Three sides act on an open stream in any order: it is fed, it is read, and it is cut off, by its
reader or by whoever else holds the token. What is promised is about what was done and answered
before, so every act is kept in a log with its reply.

The log alone says whether the end was found (`HasEnded`) and whether the token is cancelled
(`CancelledBy`), which are not the same: an end that was found after everything had been read leaves
the token alone, and a token may be cancelled with its end still to be found. `Delivers` says that
the stream knows both, and that nothing is lost between what was sent and what was returned. Every
act keeps it, so it holds of every run, and `OpenStream.run_delivers` draws from it what the next
act does.
-/

namespace ChatStream

/-- What is done to an open stream. -/
inductive StreamAct
  /-- Someone sends an item. -/
  | send (i : Item)
  /-- One who could send no longer can. -/
  | closeWriter
  /-- The reader looks for the next item. -/
  | next
  /-- The reader cancels the stream. -/
  | cancel
  /-- Someone cancels the token. -/
  | cancelToken

/-- What comes back. -/
inductive StreamReply
  /-- Whether there is anyone to read what was sent. -/
  | sent (heard : Bool)
  | found (p : Poll)
  | done

/-- An act with its reply. -/
structure StreamEntry where
  act : StreamAct
  reply : StreamReply

namespace StreamEntry

/-- The item that was sent, if it was heard. -/
def accepted? (e : StreamEntry) : Option Item :=
  match e.act, e.reply with
  | .send i, .sent true => some i
  | _, _ => none

/-- The item that was returned. -/
def returned? (e : StreamEntry) : Option Item :=
  match e.reply with
  | .found (.item i) => some i
  | _ => none

/-- Whether this is one less who can send. -/
def closes (e : StreamEntry) : Bool :=
  match e.act with
  | .closeWriter => true
  | _ => false

end StreamEntry

/-- A reader with the pipe that it reads. -/
structure OpenStream where
  reader : StreamReader := {}
  pipe : Pipe

namespace OpenStream

/-- Does something to a stream. -/
def step (s : OpenStream) : StreamAct → OpenStream × StreamReply
  | .send i => ({ s with pipe := (s.pipe.send i).1 }, .sent (s.pipe.send i).2)
  | .closeWriter => ({ s with pipe := s.pipe.dropWriter }, .done)
  | .next =>
    let (reader, pipe, found) := s.reader.next s.pipe
    ({ reader, pipe }, .found found)
  | .cancel => ({ s with reader := s.reader.cancel }, .done)
  | .cancelToken => ({ s with reader := s.reader.cancelToken }, .done)

/-- Does one thing after another, and keeps the log. -/
def run (s : OpenStream) (acts : List StreamAct) : OpenStream × List StreamEntry :=
  acts.foldl (fun (s, log) a ↦ ((s.step a).1, log ++ [⟨a, (s.step a).2⟩])) (s, [])

theorem run_concat (s : OpenStream) (acts : List StreamAct) (a : StreamAct) :
    s.run (acts ++ [a]) =
      (((s.run acts).1.step a).1, (s.run acts).2 ++ [⟨a, ((s.run acts).1.step a).2⟩]) := by
  rw [run, List.foldl_append, List.foldl_cons, List.foldl_nil]
  rfl

end OpenStream

/-! ## What the log says -/

namespace StreamLog

/-- The items that were sent and heard. -/
def accepted (log : List StreamEntry) : List Item := log.filterMap StreamEntry.accepted?

/-- The items that were returned. -/
def returned (log : List StreamEntry) : List Item := log.filterMap StreamEntry.returned?

/-- How many of those who could send no longer can. -/
def closed (log : List StreamEntry) : Nat := log.countP StreamEntry.closes

/-- What comes next by what was sent and what was returned: the first item that was not, or else
the end, as soon as nobody can send any more. -/
def due (p : Pipe) (log : List StreamEntry) : Poll :=
  match (p.queue ++ accepted log).drop (returned log).length with
  | i :: _ => .item i
  | [] => if p.writers ≤ closed log then .ended else .waiting

/-- The end was found. -/
def HasEnded (log : List StreamEntry) : Prop := ∃ e ∈ log, e.reply = .found .ended

/-- The token was cancelled: by someone who holds it, or by the reader before it found the end. -/
def CancelledBy (log : List StreamEntry) : Prop :=
  (∃ e ∈ log, e.act = .cancelToken) ∨
    ∃ before e after, log = before ++ e :: after ∧ e.act = .cancel ∧ ¬HasEnded before

section
variable (log : List StreamEntry) (e : StreamEntry)

theorem accepted_concat :
    accepted (log ++ [e]) = accepted log ++ e.accepted?.toList := by
  rw [accepted, List.filterMap_append, accepted]
  cases h : e.accepted? <;> simp [h]

theorem returned_concat :
    returned (log ++ [e]) = returned log ++ e.returned?.toList := by
  rw [returned, List.filterMap_append, returned]
  cases h : e.returned? <;> simp [h]

theorem closed_concat : closed (log ++ [e]) = closed log + if e.closes then 1 else 0 := by
  rw [closed, List.countP_append, List.countP_singleton, closed]

theorem hasEnded_concat : HasEnded (log ++ [e]) ↔ HasEnded log ∨ e.reply = .found .ended := by
  simp [HasEnded, or_and_right, exists_or]

theorem cancelledBy_concat :
    CancelledBy (log ++ [e]) ↔
      CancelledBy log ∨ e.act = .cancelToken ∨ e.act = .cancel ∧ ¬HasEnded log := by
  constructor
  · rintro (⟨x, hx, hact⟩ | ⟨before, x, after, hlog, hact, hended⟩)
    · rcases List.mem_append.mp hx with hx | hx
      · exact .inl (.inl ⟨x, hx, hact⟩)
      · obtain rfl := List.mem_singleton.mp hx
        exact .inr (.inl hact)
    · rcases List.eq_nil_or_concat after with rfl | ⟨after, last, rfl⟩
      · obtain ⟨rfl, rfl⟩ := List.append_singleton_inj.mp hlog
        exact .inr (.inr ⟨hact, hended⟩)
      · rw [List.concat_eq_append, ← List.cons_append, ← List.append_assoc,
          List.append_singleton_inj] at hlog
        exact .inl (.inr ⟨before, x, after, hlog.1, hact, hended⟩)
  · rintro ((⟨x, hx, hact⟩ | ⟨before, x, after, rfl, hact, hended⟩) | hact | ⟨hact, hended⟩)
    · exact .inl ⟨x, List.mem_append_left [e] hx, hact⟩
    · exact .inr ⟨before, x, after ++ [e], List.append_assoc .., hact, hended⟩
    · exact .inl ⟨e, List.mem_append_right log List.mem_cons_self, hact⟩
    · exact .inr ⟨log, e, [], rfl, hact, hended⟩

end

end StreamLog

/-! ## What the stream knows -/

namespace OpenStream

open StreamLog

/-- What is kept by every act on a stream that was opened on the pipe `p` with a token that may have
been cancelled already. -/
structure Delivers (cancelled : Bool) (p : Pipe) (s : OpenStream) (log : List StreamEntry) :
    Prop where
  /-- What was returned comes first among what was there and what was sent, errors included, each
  item once and in order; the rest is still in the pipe. -/
  items : p.queue ++ accepted log = returned log ++ s.pipe.queue
  writers : s.pipe.writers = p.writers - closed log
  /-- A stream counts as ended if and only if the end was found. -/
  ended : s.reader.ended = true ↔ HasEnded log
  token : s.reader.cancelled = true ↔ cancelled = true ∨ CancelledBy log

section
variable {cancelled : Bool} {p : Pipe} {s : OpenStream} {log : List StreamEntry}

theorem delivers_start (cancelled : Bool) (p : Pipe) :
    Delivers cancelled p { reader := { cancelled }, pipe := p } [] where
  items := List.append_nil p.queue
  writers := rfl
  ended := iff_of_false Bool.false_ne_true (by simp [HasEnded])
  token := by simp [CancelledBy]

/-- All that an act can do to a stream, with what comes back. -/
inductive Does (s : OpenStream) : StreamAct → OpenStream → StreamReply → Prop
  | heard (i : Item) (hreader : s.pipe.hasReader = true) :
    Does s (.send i) { s with pipe.queue := s.pipe.queue ++ [i] } (.sent true)
  | unheard (i : Item) (hreader : s.pipe.hasReader = false) : Does s (.send i) s (.sent false)
  | closeWriter : Does s .closeWriter { s with pipe.writers := s.pipe.writers - 1 } .done
  | late (hended : s.reader.ended = true) : Does s .next s (.found .ended)
  | cutOff (hopen : s.reader.ended = false) (hcancelled : s.reader.cancelled = true) :
    Does s .next { s with reader.ended := true } (.found .ended)
  | item (hopen : s.reader.ended = false) (htoken : s.reader.cancelled = false) (i : Item)
    (rest : List Item) (hqueue : s.pipe.queue = i :: rest) :
    Does s .next { s with pipe.queue := rest, pipe.reads := s.pipe.reads + 1 } (.found (.item i))
  | exhausted (hopen : s.reader.ended = false) (htoken : s.reader.cancelled = false)
    (hqueue : s.pipe.queue = []) (hwriters : s.pipe.writers = 0) :
    Does s .next
      { s with reader.ended := true, pipe.queue := [], pipe.reads := s.pipe.reads + 1 }
      (.found .ended)
  | waiting (hopen : s.reader.ended = false) (htoken : s.reader.cancelled = false)
    (hqueue : s.pipe.queue = []) (hwriters : s.pipe.writers ≠ 0) :
    Does s .next s (.found .waiting)
  | cancel (hopen : s.reader.ended = false) :
    Does s .cancel { s with reader.cancelled := true } .done
  | cancelLate (hended : s.reader.ended = true) : Does s .cancel s .done
  | cancelToken : Does s .cancelToken { s with reader.cancelled := true } .done

theorem does_send (s : OpenStream) (i : Item) :
    s.Does (.send i) (s.step (.send i)).1 (s.step (.send i)).2 := by
  rw [step, Pipe.send]
  by_cases hreader : s.pipe.hasReader = true
  · rw [if_pos hreader]
    exact .heard i hreader
  · rw [if_neg hreader]
    exact .unheard i (Bool.eq_false_iff.mpr hreader)

theorem does_next (s : OpenStream) : s.Does .next (s.step .next).1 (s.step .next).2 := by
  rw [step, StreamReader.next]
  by_cases hended : s.reader.ended = true
  · rw [if_pos hended]
    exact .late hended
  · have hopen := Bool.eq_false_iff.mpr hended
    rw [if_neg hended]
    by_cases hcancelled : s.reader.cancelled = true
    · rw [if_pos hcancelled]
      exact .cutOff hopen hcancelled
    · have htoken := Bool.eq_false_iff.mpr hcancelled
      rw [if_neg hcancelled, Pipe.read]
      cases hqueue : s.pipe.queue with
      | cons i rest => exact .item hopen htoken i rest hqueue
      | nil =>
        by_cases hwriters : s.pipe.writers = 0
        · rw [if_pos hwriters]
          exact .exhausted hopen htoken hqueue hwriters
        · rw [if_neg hwriters]
          exact .waiting hopen htoken hqueue hwriters

theorem does_step (s : OpenStream) (a : StreamAct) : s.Does a (s.step a).1 (s.step a).2 := by
  cases a with
  | send i => exact s.does_send i
  | closeWriter => exact .closeWriter
  | next => exact s.does_next
  | cancel =>
    rw [step, StreamReader.cancel]
    by_cases hended : s.reader.ended = true
    · rw [if_pos hended]
      exact .cancelLate hended
    · rw [if_neg hended]
      exact .cancel (Bool.eq_false_iff.mpr hended)
  | cancelToken => exact .cancelToken

/-- Every act keeps what the stream knows. -/
theorem Delivers.does (h : Delivers cancelled p s log) {a : StreamAct} {s' : OpenStream}
    {reply : StreamReply} (hdoes : s.Does a s' reply) :
    Delivers cancelled p s' (log ++ [⟨a, reply⟩]) := by
  refine ⟨?_, ?_, ?_, ?_⟩
  · rw [accepted_concat, returned_concat, ← List.append_assoc, h.items]
    cases hdoes with
    | heard i => simp [StreamEntry.accepted?, StreamEntry.returned?]
    | item hopen htoken i rest hqueue =>
      simp [StreamEntry.accepted?, StreamEntry.returned?, hqueue]
    | exhausted hopen htoken hqueue =>
      simp [StreamEntry.accepted?, StreamEntry.returned?, hqueue]
    | _ => simp [StreamEntry.accepted?, StreamEntry.returned?]
  · rw [closed_concat, ← Nat.sub_sub, ← h.writers]
    cases hdoes <;> rfl
  · rw [hasEnded_concat, ← h.ended]
    cases hdoes with
    | late hended => simp [hended]
    | item hopen | waiting hopen => simp [hopen]
    | _ => simp
  · rw [cancelledBy_concat, ← or_assoc, ← h.token, ← h.ended]
    cases hdoes with
    | cancel hopen => simp [hopen]
    | cancelLate hended => simp [hended]
    | _ => simp

theorem delivers_run (cancelled : Bool) (p : Pipe) (acts : List StreamAct) :
    let s : OpenStream := { reader := { cancelled }, pipe := p }
    Delivers cancelled p (s.run acts).1 (s.run acts).2 := by
  intro s
  induction acts using List.reverseRecOn with
  | nil => exact delivers_start cancelled p
  | append_singleton acts a ih =>
    rw [run_concat]
    exact ih.does (does_step _ a)

theorem map_act_run (s : OpenStream) (acts : List StreamAct) :
    (s.run acts).2.map StreamEntry.act = acts := by
  induction acts using List.reverseRecOn with
  | nil => rfl
  | append_singleton acts a ih => rw [run_concat, List.map_append, ih, List.map_singleton]

/-! ## What the next act does -/

theorem reply_next (s : OpenStream) :
    (s.step .next).2 = .found
      (if s.reader.ended = true ∨ s.reader.cancelled = true then .ended
      else
        match s.pipe.queue with
        | i :: _ => .item i
        | [] => if s.pipe.writers = 0 then .ended else .waiting) := by
  have hdoes := s.does_next
  generalize (s.step .next).1 = s' at hdoes
  generalize (s.step .next).2 = reply at hdoes ⊢
  cases hdoes with
  | late hended => rw [if_pos (.inl hended)]
  | cutOff hopen hcancelled => rw [if_pos (.inr hcancelled)]
  | item hopen htoken i rest hqueue => simp [hopen, htoken, hqueue]
  | exhausted hopen htoken hqueue hwriters | waiting hopen htoken hqueue hwriters =>
    simp [hopen, htoken, hqueue, hwriters]

theorem Delivers.due_eq (h : Delivers cancelled p s log) :
    StreamLog.due p log =
      match s.pipe.queue with
      | i :: _ => .item i
      | [] => if s.pipe.writers = 0 then .ended else .waiting := by
  rw [StreamLog.due, h.items, List.drop_left, h.writers]
  simp only [Nat.sub_eq_zero_iff_le]

/-- How a stream that was opened on the pipe `p` deals with what is done to it, when its token may
have been cancelled beforehand. -/
structure Lawful (cancelled : Bool) (p : Pipe) (s : OpenStream) (log : List StreamEntry) : Prop
    extends Delivers cancelled p s log where
  /-- A cancelled token is the end, whatever is in the pipe. -/
  cut_off : cancelled = true ∨ CancelledBy log → (s.step .next).2 = .found .ended
  /-- Nothing comes after the end. -/
  stays_ended : HasEnded log → (s.step .next).2 = .found .ended
  /-- Otherwise the next item comes, or the end once there is none and nobody to send one. -/
  next : ¬(cancelled = true ∨ CancelledBy log) → ¬HasEnded log →
    (s.step .next).2 = .found (due p log)
  /-- Cancelling the stream cancels its token, but not after the end was found. -/
  cancel : (s.step .cancel).1.reader.cancelled = true ↔
    s.reader.cancelled = true ∨ ¬HasEnded log

theorem Delivers.lawful (h : Delivers cancelled p s log) : s.Lawful cancelled p log where
  toDelivers := h
  cut_off hcancelled := by
    rw [reply_next, if_pos (.inr (h.token.mpr hcancelled))]
  stays_ended hended := by
    rw [reply_next, if_pos (.inl (h.ended.mpr hended))]
  next htoken hended := by
    have hopen := not_or.mpr ⟨mt h.ended.mp hended, mt h.token.mp htoken⟩
    rw [reply_next, if_neg hopen, h.due_eq]
  cancel := by
    rw [step, StreamReader.cancel, ← h.ended]
    split_ifs with hended
    · simp [hended]
    · simp [hended]

/-- **What an open stream delivers.** Whatever is done to a stream in whatever order, it returns
what was sent, once and in order, until it is cut off, and never anything after the end. -/
theorem run_delivers (cancelled : Bool) (p : Pipe) (acts : List StreamAct) :
    let (s, log) := (OpenStream.mk { cancelled } p).run acts
    log.map StreamEntry.act = acts ∧ s.Lawful cancelled p log :=
  ⟨map_act_run _ acts, (delivers_run cancelled p acts).lawful⟩

/-- Both ends look alike, and only one leaves the token to be cancelled. -/
example (chunk : Bytes) :
    let s : OpenStream := { pipe := .ofChunks [chunk] }
    (s.run [.next, .next, .cancel, .next]).1.reader = { cancelled := false, ended := true } ∧
      (s.run [.cancel, .next]).1.reader = { cancelled := true, ended := true } ∧
      (s.run [.cancel, .next]).1.pipe.queue = [.ok chunk] :=
  ⟨rfl, rfl, rfl⟩

end

end OpenStream

end ChatStream
