import Mathlib.Logic.Relation
import ChatStream.Proofs.Session.Deeds
import ChatStream.Session.Run

/-!
# The moves of a controller

Every step of a controller is made of a few moves: a log line, the passing of time, a request
handed out, a chunk taken, a fragment added, a frame painted, the end of a session. `Move` lists
them, and those that operations add, with all that is known where they happen. `course_step` takes
a step apart, so that an invariant is proved move by move and never by looking into a step.

The check of the budget on demand is left out. It is an operation of its own, and a conversation
has as many of them as were asked for.

## The course of a session

A step begins no session and leaves the request for a summary to whoever makes the next one. It
cancels tokens of handles that were cancelled meanwhile, and otherwise only that of a session that
it ends as cancelled. A `Course` is any number of moves that keep to this.

## Two inversions

What a step waits for is decided by the phase of the session and by its token; `turns` is that
decision as an inductive predicate. What a line does is decided by its event; `takeLine_eq` takes
that apart into the fragment that it carries and the ending that it brings.
-/

namespace ChatStream

/-! ## Sessions -/

/-- How a session ended. -/
def Session.ending? (s : Session) : Option Ending :=
  match s.phase with
  | .ended e => some e
  | _ => none

/-- The request that waits to be handed out. -/
def Session.request? (s : Session) : Option Request :=
  match s.phase with
  | .unopened r => some r
  | _ => none

/-- A session that is over has no request. -/
theorem Session.request?_eq_none {s : Session} (h : s.state ≠ .streaming) : s.request? = none := by
  rw [state] at h
  rw [request?]
  cases hp : s.phase with
  | unopened r =>
    rw [hp] at h
    exact absurd rfl h
  | _ => rfl

/-- The session with one more fragment, which may schedule a tick. -/
def Session.fragment (s : Session) (now : Instant) (text : String) (scheduled : Bool) : Session :=
  let s := { s with text := s.text.apply text }
  if scheduled then { s with schedule := (s.schedule.noteFragment now).1 } else s

theorem Session.fragment_eq (s : Session) (now : Instant) (text : String) (scheduled : Bool) :
    s.fragment now text scheduled =
      { s with
        text := s.text.apply text
        schedule := if scheduled then (s.schedule.noteFragment now).1 else s.schedule } := by
  cases scheduled <;> rfl

/-- The session after a tick fired. -/
def Session.fired (s : Session) (id : Nat) : Session :=
  { s with
    schedule := (s.schedule.fire id s.text).1
    text := (s.schedule.fire id s.text).2.1 }

theorem Session.isLive_eq (s : Session) : s.isLive = s.ending?.isNone := by
  rw [isLive, ending?]
  cases s.phase <;> rfl

theorem Session.state_eq_streaming_iff (s : Session) : s.state = .streaming ↔ s.isLive = true := by
  rw [state, isLive]
  cases s.phase with
  | ended e => cases e <;> simp [Ending.state]
  | _ => simp

theorem Session.exists_ending {s : Session} (h : s.isLive = false) : ∃ e, s.phase = .ended e := by
  rw [isLive] at h
  split at h
  · rename_i e he
    exact ⟨e, he⟩
  · cases h

theorem Session.isLive_of_ended {s : Session} {e : Ending} (he : s.phase = .ended e) :
    s.isLive = false := by
  rw [isLive, he]

theorem Session.state_of_ended {s : Session} {e : Ending} (he : s.phase = .ended e) :
    s.state = e.state := by
  rw [state, he]

/-- How an event ends its session. -/
def Event.ending? : Event → Option Ending
  | .done _ => some .completed
  | .error message _ => some (.errored (.server message))
  | _ => none

theorem Event.isTerminal_eq (e : Event) : e.isTerminal = e.ending?.isSome := by
  cases e <;> rfl

theorem Op.eq_measure {σ : Type} {op : Op σ} (h : op.isMeasure = true) : op = .measure := by
  cases op with
  | measure => rfl
  | _ => cases h

namespace Controller

variable {σ : Type}

theorem isStreaming_iff {c : Controller σ} :
    c.isStreaming = true ↔ ∃ s, c.session = some s ∧ s.isLive = true := by
  rw [isStreaming, decide_eq_true_eq, state]
  cases hs : c.session with
  | none => simp
  | some s => simp [Session.state_eq_streaming_iff]

theorem isStreaming_of_session {c : Controller σ} {s : Session} (hs : c.session = some s) :
    c.isStreaming = s.isLive := by
  rw [Bool.eq_iff_iff, isStreaming_iff]
  simp [hs]

theorem isStreaming_of_none {c : Controller σ} (hs : c.session = none) :
    c.isStreaming = false := by
  rw [Bool.eq_false_iff, Ne, isStreaming_iff]
  simp [hs]

theorem tokenCancelled_of_session {c : Controller σ} {s : Session} (hs : c.session = some s) :
    c.tokenCancelled = c.isCancelled s.id := by
  rw [tokenCancelled, hs]

/-! ## The parts of an operation -/

/-- Adds the fragment of an event to the current session. -/
def hear (c : Controller σ) (event : Event) : Controller σ :=
  match event.text with
  | none => c
  | some text => c.onSession fun s ↦ s.fragment c.now text (!event.isTerminal)

/-- Ends the current session as an event says. -/
def endBy (c : Controller σ) (event : Event) : Controller σ :=
  match event.ending? with
  | some e => c.finish e
  | none => c

theorem takeLine_eq (c : Controller σ) (line : String) :
    c.takeLine line =
      ((c.notes (c.config.wire.read line).log).hear (c.config.wire.parse line)).endBy
        (c.config.wire.parse line) := by
  rw [takeLine, LineFormat.parse]
  generalize c.config.wire.read line = reading
  cases reading.toEvent with
  | content text => rfl
  | done trailing => cases trailing <;> rfl
  | error message trailing => cases trailing <;> rfl
  | unknown => rfl

/-- Fires a tick of the current session. -/
def paint (c : Controller σ) (s : Session) (id : Nat) : Controller σ :=
  { c with session := some (s.fired id) }.tellUpdate s.id (s.schedule.fire id s.text).2.2

theorem onTick_of_free {c : Controller σ} {s : Session} (hs : c.session = some s)
    (hfree : c.isCancelled s.id = false) (id : Nat) : c.onTick id = (c.paint s id, .painted) := by
  rw [onTick, tokenCancelled_of_session hs, hfree, if_neg Bool.false_ne_true, hs, paint,
    Session.fired]
  dsimp only
  rcases s.schedule.fire id s.text with ⟨schedule, text, _ | u⟩ <;> rfl

/-- Ends the session that is streaming, for a new one. -/
def settle (c : Controller σ) : Controller σ :=
  if c.isStreaming then
    (c.note { level := .debug,
              message := "New message while streaming, cancelling previous session" }).finish
      .cancelled
  else c

/-- The session that a prompt begins. -/
def newSession (c : Controller σ) (p : Prompt) : Session :=
  let request := buildRequest c.config p c.budget.summarize
  { id := c.sessionsBegun, model := request.model, message := p.message,
    phase := .unopened request, schedule := .new (.new c.now c.config.paintInterval) }

/-- Begins a session, where none is streaming. -/
def launch (c : Controller σ) (p : Prompt) : Controller σ :=
  let s := c.newSession p
  let started : Controller σ :=
    { c with
      budget := { c.budget with summarize := false }, session := some s,
      sessionsBegun := s.id + 1 }
  let noted := started.note
    { level := .info, message := "Starting stream session",
      fields := [("model", s.model), ("transport", c.transportName),
        ("summarize", boolField c.budget.summarize)] }
  (noted.tell (.sessionStarted s.id s.model)).tell (.stateChanged s.id .streaming)

/-- The controller with the new session, of which no one was told yet. -/
def withSession (c : Controller σ) (p : Prompt) : Controller σ :=
  { c with
    budget := { c.budget with summarize := false }
    session := some (c.newSession p)
    sessionsBegun := c.sessionsBegun + 1 }

theorem does_launch (c : Controller σ) (p : Prompt) : Does (c.withSession p) (c.launch p) :=
  (does_note _ _).trans ((does_tell _ _).trans (does_tell _ _))

theorem keeps_launch (c : Controller σ) (p : Prompt) : Keeps (c.withSession p) (c.launch p) :=
  (does_launch c p).keeps

theorem outline_launch {c : Controller σ} (hw : c.watched = true) (p : Prompt) :
    (c.launch p).outline =
      c.outline ++ [.shown (.sessionStarted c.sessionsBegun (c.newSession p).model),
        .shown (.stateChanged c.sessionsBegun .streaming)] := by
  simp only [launch]
  rw [outline_tell, outline_tell, outline_note, List.append_assoc]
  · rfl
  · exact hw
  · rw [(keeps_tell _ _).watched]
    exact hw

theorem trace_launch {c : Controller σ} (hw : c.watched = true) (p : Prompt) :
    (c.launch p).trace =
      c.trace ++ [.shown (.sessionStarted c.sessionsBegun (c.newSession p).model),
        .shown (.stateChanged c.sessionsBegun .streaming)] := by
  refine trace_of_outline (outline_launch hw p) fun d hd ↦ ?_
  rcases List.mem_pair.mp hd with rfl | rfl <;> rfl

/-- What a prompt must not be. -/
def refuses (c : Controller σ) (p : Prompt) : Option BeginError :=
  if Text.isBlankText p.message then some .emptyMessage
  else if Text.isBlankText c.config.model then some (.invalidRequest "no model configured")
  else none

theorem begin_eq (c : Controller σ) (p : Prompt) :
    c.begin p =
      match c.refuses p with
      | some e => .error e
      | none => .ok (c.settle.launch p, c.settle.sessionsBegun) := by
  rw [begin, refuses, settle]
  split_ifs <;> rfl

/-! ## What a step waits for -/

/-- Why a turn is what it is. -/
inductive Turns (c : Controller σ) : Turn σ → Prop
  | idle : c.isStreaming = false → Turns c .idle
  | cancelled {s : Session} : c.session = some s → s.isLive = true →
      c.isCancelled s.id = true → Turns c (.over (c.finish .cancelled) (.finished .cancelled))
  | unopened {s : Session} {r : Request} : c.session = some s → s.phase = .unopened r →
      c.isCancelled s.id = false →
      Turns c (.opening
        ({ c with session := some { s with phase := .opening } }.act (.asked r)) r)
  | opening {s : Session} : c.session = some s → s.phase = .opening →
      c.isCancelled s.id = false →
      Turns c (.over (c.fail (.transport neverOpened)) (.finished .errored))
  | reading {s : Session} {n : Nat} : c.session = some s → s.phase = .reading n →
      c.isCancelled s.id = false → Turns c (.reading n s.schedule.waiting)

/-- What a step waits for while the token is not cancelled. -/
theorem turn_of_free {c : Controller σ} {s : Session} (hs : c.session = some s)
    (hfree : c.isCancelled s.id = false) :
    c.turn =
      match s.phase with
      | .unopened r =>
        .opening ({ c with session := some { s with phase := .opening } }.act (.asked r)) r
      | .opening => .over (c.fail (.transport neverOpened)) (.finished .errored)
      | .reading n => .reading n s.schedule.waiting
      | .ended _ => .idle := by
  rw [turn, hs]
  dsimp only
  rw [hfree]
  cases s.phase <;> rfl

theorem turns (c : Controller σ) : Turns c c.turn := by
  cases hs : c.session with
  | none =>
    rw [turn, hs]
    exact .idle (isStreaming_of_none hs)
  | some s =>
    have hidle {e : Ending} (hp : s.phase = .ended e) : c.isStreaming = false := by
      rw [isStreaming_of_session hs, Session.isLive, hp]
    cases hc : c.isCancelled s.id with
    | false =>
      rw [turn_of_free hs hc]
      cases hp : s.phase with
      | ended e => exact .idle (hidle hp)
      | unopened r => exact .unopened hs hp hc
      | opening => exact .opening hs hp hc
      | reading n => exact .reading hs hp hc
    | true =>
      rw [turn, hs]
      dsimp only
      rw [hc]
      cases hp : s.phase with
      | ended e => exact .idle (hidle hp)
      | _ => exact .cancelled hs (by rw [Session.isLive, hp]) hc

/-! ## Moves -/

/-- One move of a controller, with what is known where it happens. -/
inductive Move : Controller σ → Controller σ → Prop
  | log (c : Controller σ) (l : LogLine) : Move c (c.note l)
  | time (c : Controller σ) (now : Instant) : Move c { c with now }
  | store (c : Controller σ) (change : σ → σ) : Move c { c with store := change c.store }
  | token (c : Controller σ) {session : Nat} :
      session < c.sessionsBegun → Move c (c.cancelToken session)
  | summary (c : Controller σ) (summarize : Bool) :
      Move c { c with budget := { c.budget with summarize } }
  /-- The request is handed out. -/
  | ask {c : Controller σ} {s : Session} {r : Request} : c.session = some s →
      s.phase = .unopened r → c.isCancelled s.id = false →
      Move c ({ c with session := some { s with phase := .opening } }.act (.asked r))
  /-- The stream is open. -/
  | opened {c : Controller σ} {s : Session} (n : Nat) : c.session = some s →
      s.phase = .opening → c.isCancelled s.id = false →
      Move c { c with session := some { s with phase := .reading n } }
  /-- A chunk is read, and its lines are yet to be taken. -/
  | chunk {c : Controller σ} {s : Session} {n : Nat} (bytes : Bytes) : c.session = some s →
      s.phase = .reading n → c.isCancelled s.id = false →
      Move c { c with session := some { s with
        lines := (s.lines.push bytes).1, bytesRead := s.bytesRead + bytes.length } }
  /-- The end of the stream is read, and the last line is yet to be taken. -/
  | streamEnd {c : Controller σ} {s : Session} {n : Nat} : c.session = some s →
      s.phase = .reading n → c.isCancelled s.id = false →
      Move c { c with session := some { s with lines := s.lines.finish.1 } }
  | fragment {c : Controller σ} {s : Session} (text : String) (scheduled : Bool) :
      c.session = some s → s.isLive = true →
      Move c { c with session := some (s.fragment c.now text scheduled) }
  | paint {c : Controller σ} {s : Session} {n : Nat} {t : Tick} : c.session = some s →
      s.phase = .reading n → s.schedule.waiting = some t → c.isCancelled s.id = false →
      Move c (c.paint s t.id)
  | finish {c : Controller σ} {s : Session} (e : Ending) : c.session = some s →
      s.isLive = true → Move c (c.finish e)
  | launch {c : Controller σ} (p : Prompt) : c.isStreaming = false → Move c (c.launch p)

/-- Any number of moves. -/
abbrev Moves : Controller σ → Controller σ → Prop := Relation.ReflTransGen Move

/-! ### The course of a session -/

/-- The current session is the one with that number, and was cancelled. -/
def HasCancelled (c : Controller σ) (session : Nat) : Prop :=
  ∃ s, c.session = some s ∧ s.id = session ∧ s.phase = .ended .cancelled

/-- A move that begins no session and leaves the request for a summary as it stands. It cancels the
tokens of the given handles at most, and that of a session which it ends as cancelled. -/
structure Within (handles : List Nat) (c c' : Controller σ) : Prop where
  move : Move c c'
  begun : c'.sessionsBegun = c.sessionsBegun
  summarize : c'.budget.summarize = c.budget.summarize
  tokens : ∀ n ∈ c'.cancelledTokens, n ∈ c.cancelledTokens ∨ n ∈ handles ∨ c'.HasCancelled n

/-- Any number of moves within a session. -/
abbrev Course (handles : List Nat) : Controller σ → Controller σ → Prop :=
  Relation.ReflTransGen (Within handles)

variable {handles : List Nat}

theorem Course.moves {c c' : Controller σ} (h : Course handles c c') : Moves c c' := by
  induction h with
  | refl => exact .refl
  | tail _ hwithin ih => exact ih.tail hwithin.move

/-- Most moves touch no token. -/
theorem Within.of_tokens {c c' : Controller σ} (hmove : Move c c')
    (hbegun : c'.sessionsBegun = c.sessionsBegun)
    (hsummarize : c'.budget.summarize = c.budget.summarize)
    (htokens : c'.cancelledTokens = c.cancelledTokens) : Within handles c c' :=
  ⟨hmove, hbegun, hsummarize, fun _ hn ↦ .inl (htokens ▸ hn)⟩

theorem within_log (c : Controller σ) (l : LogLine) : Within handles c (c.note l) :=
  .of_tokens (.log c l) rfl rfl rfl

theorem within_token (c : Controller σ) {session : Nat} (hbegun : session < c.sessionsBegun)
    (hhandle : session ∈ handles) : Within handles c (c.cancelToken session) := by
  have hmove := Move.token c hbegun
  rw [cancelToken_eq] at hmove ⊢
  refine ⟨hmove, rfl, rfl, fun n hn ↦ ?_⟩
  split_ifs at hn
  · exact .inl hn
  · rcases List.mem_cons.mp hn with rfl | hn
    · exact .inr (.inl hhandle)
    · exact .inl hn

/-- The end of a session cancels no token but its own, and that only when it was cancelled. -/
theorem within_finish {c : Controller σ} {s : Session} (hs : c.session = some s)
    (hl : s.isLive = true) (e : Ending) : Within handles c (c.finish e) := by
  have hkeeps := keeps_finish hs hl e
  refine ⟨.finish e hs hl, hkeeps.sessionsBegun, hkeeps.summarize, fun n hn ↦ ?_⟩
  rw [hkeeps.cancelledTokens, withdraw, cancelToken_eq] at hn
  split_ifs at hn with he hcancelled
  · exact .inl hn
  · rcases List.mem_cons.mp hn with rfl | hn
    · exact .inr (.inr ⟨_, hkeeps.session, rfl, congrArg Phase.ended he⟩)
    · exact .inl hn
  · exact .inl hn

/-- The beginning of a session is no move within one. -/
theorem not_within_launch (c : Controller σ) (p : Prompt) : ¬ Within handles c (c.launch p) := by
  intro h
  have hbegun := h.begun
  rw [(keeps_launch c p).sessionsBegun] at hbegun
  exact Nat.succ_ne_self _ hbegun

theorem course_notes (c : Controller σ) (ls : List LogLine) : Course handles c (c.notes ls) := by
  induction ls generalizing c with
  | nil => exact .refl
  | cons l ls ih => exact (ih (c.note l)).head (within_log c l)

theorem course_finish (c : Controller σ) (e : Ending) : Course handles c (c.finish e) := by
  cases hs : c.session with
  | none => rw [finish_of_none hs]
  | some s =>
    cases hl : s.isLive with
    | false => rw [finish_of_not_live hs hl]
    | true => exact .single (within_finish hs hl e)

theorem course_noteFinish (c : Controller σ) (l : LogLine) (e : Ending) :
    Course handles c ((c.note l).finish e) :=
  (course_finish (c.note l) e).head (within_log c l)

/-! ### Lines and items -/

theorem hear_of_session {c : Controller σ} {s : Session} (hs : c.session = some s)
    (event : Event) :
    c.hear event =
      match event.text with
      | none => c
      | some text =>
        { c with session := some (s.fragment c.now text (!event.isTerminal)) } := by
  rw [hear]
  cases event.text with
  | none => rfl
  | some text => simp only [onSession, hs, Option.map_some]

theorem course_hear {c : Controller σ} {s : Session} (hs : c.session = some s)
    (hl : s.isLive = true) (event : Event) : Course handles c (c.hear event) := by
  rw [hear_of_session hs]
  split
  · exact .refl
  · exact .single (.of_tokens (.fragment _ _ hs hl) rfl rfl rfl)

theorem course_takeLine {c : Controller σ} {s : Session} (hs : c.session = some s)
    (hl : s.isLive = true) (line : String) : Course handles c (c.takeLine line) := by
  rw [takeLine_eq]
  have hnotes : Course handles c _ := course_notes c (c.config.wire.read line).log
  have hs' := (keeps_notes c (c.config.wire.read line).log).session.trans hs
  refine (hnotes.trans (course_hear hs' hl (c.config.wire.parse line))).trans ?_
  rw [endBy]
  split
  · exact course_finish _ _
  · exact .refl

theorem course_takeLines {c : Controller σ} (hc : c.isStreaming = true) (lines : List String) :
    Course handles c (c.takeLines lines) := by
  induction lines generalizing c with
  | nil => exact .refl
  | cons line rest ih =>
    obtain ⟨s, hs, hl⟩ := isStreaming_iff.mp hc
    rw [takeLines]
    split
    · rename_i hstreaming
      exact (course_takeLine hs hl line).trans (ih hstreaming)
    · -- The line ended the session, and what follows it is never looked at.
      exact course_takeLine hs hl line

theorem isLive_of_reading {s : Session} {n : Nat} (hp : s.phase = .reading n) :
    s.isLive = true := by
  rw [Session.isLive, hp]

theorem course_takeChunk {c : Controller σ} {s : Session} {n : Nat} (hs : c.session = some s)
    (hp : s.phase = .reading n) (hfree : c.isCancelled s.id = false) (chunk : Bytes) :
    Course handles c (c.takeChunk chunk).1 := by
  have hstreaming : isStreaming { c with session := some { s with
      lines := (s.lines.push chunk).1, bytesRead := s.bytesRead + chunk.length } } = true :=
    isStreaming_iff.mpr ⟨_, rfl, isLive_of_reading hp⟩
  rw [takeChunk, hs]
  exact (course_takeLines hstreaming _).head (.of_tokens (.chunk chunk hs hp hfree) rfl rfl rfl)

/-- The session after the end of its stream was read, before the last line is taken. -/
def withoutCarry (c : Controller σ) (s : Session) : Controller σ :=
  { c with session := some { s with lines := s.lines.finish.1 } }

/-- What follows when the last line is taken. -/
def endStream (c : Controller σ) : Controller σ × StepResult :=
  if c.isStreaming then
    ((c.note { level := .debug, message := "Stream ended without a completion event" }).finish
      .completed, .finished .completed)
  else (c, .finished c.state)

theorem takeEnd_of_session {c : Controller σ} {s : Session} (hs : c.session = some s) :
    c.takeEnd = ((c.withoutCarry s).takeLines s.lines.finish.2.toList).endStream := by
  rw [takeEnd, hs]
  rfl

theorem course_takeEnd {c : Controller σ} {s : Session} {n : Nat} (hs : c.session = some s)
    (hp : s.phase = .reading n) (hfree : c.isCancelled s.id = false) :
    Course handles c c.takeEnd.1 := by
  have hstreaming : (c.withoutCarry s).isStreaming = true :=
    isStreaming_iff.mpr ⟨_, rfl, isLive_of_reading hp⟩
  have hlines : Course handles c ((c.withoutCarry s).takeLines s.lines.finish.2.toList) :=
    (course_takeLines hstreaming _).head (.of_tokens (.streamEnd hs hp hfree) rfl rfl rfl)
  rw [takeEnd_of_session hs, endStream]
  generalize (c.withoutCarry s).takeLines s.lines.finish.2.toList = c₁ at hlines ⊢
  split
  · exact hlines.trans (course_noteFinish c₁ _ .completed)
  · exact hlines

/-! ### Steps -/

theorem course_endCancelled (c : Controller σ) : Course handles c c.endCancelled.1 := by
  rw [endCancelled]
  exact course_finish c .cancelled

theorem course_endFailed (c : Controller σ) (e : TransportError) :
    Course handles c (c.endFailed e).1 := by
  rw [endFailed, fail]
  exact course_finish c (.errored (.transport e))

theorem course_noteEndCancelled (c : Controller σ) (l : LogLine) :
    Course handles c (c.note l).endCancelled.1 := by
  rw [endCancelled]
  exact course_noteFinish c l .cancelled

theorem course_onAnswer {c : Controller σ} {s : Session} (hs : c.session = some s)
    (hp : s.phase = .opening) (answer : Except TransportError Nat) :
    Course handles c (c.onAnswer answer).1 := by
  rw [onAnswer.eq_def]
  split
  · exact course_noteEndCancelled c _
  · rename_i hfree
    rw [tokenCancelled_of_session hs, Bool.not_eq_true] at hfree
    cases answer with
    | error e => exact course_endFailed c e
    | ok n =>
      dsimp only [onSession]
      rw [hs]
      exact .single (.of_tokens (.opened n hs hp hfree) rfl rfl rfl)

theorem course_onTick {c : Controller σ} {s : Session} {n : Nat} {t : Tick}
    (hs : c.session = some s) (hp : s.phase = .reading n) (ht : s.schedule.waiting = some t) :
    Course handles c (c.onTick t.id).1 := by
  cases hfree : c.isCancelled s.id with
  | false =>
    rw [onTick_of_free hs hfree]
    have hkeeps := keeps_tellUpdate { c with session := some (s.fired t.id) } s.id
      (s.schedule.fire t.id s.text).2.2
    exact .single (.of_tokens (.paint hs hp ht hfree) hkeeps.sessionsBegun hkeeps.summarize
      hkeeps.cancelledTokens)
  | true =>
    rw [onTick, tokenCancelled_of_session hs, if_pos hfree]
    exact course_endCancelled c

theorem course_onItem {c : Controller σ} {s : Session} {n : Nat} (hs : c.session = some s)
    (hp : s.phase = .reading n) (item : Option Item) : Course handles c (c.onItem item).1 := by
  rw [onItem.eq_def]
  split
  · split
    · exact course_noteEndCancelled c _
    · exact course_endCancelled c
  · rename_i hfree
    rw [tokenCancelled_of_session hs, Bool.not_eq_true] at hfree
    match item with
    | some (.ok chunk) => exact course_takeChunk hs hp hfree chunk
    | some (.error e) => exact course_endFailed c e
    | none => exact course_takeEnd hs hp hfree

theorem course_onTornChunk {c : Controller σ} {s : Session} {n : Nat} (hs : c.session = some s)
    (hp : s.phase = .reading n) (chunk : Bytes) (taken : Nat) :
    Course handles c (c.onTornChunk chunk taken).1 := by
  have hstreaming : isStreaming { c with session := some { s with
      lines := (s.lines.push chunk).1, bytesRead := s.bytesRead + chunk.length } } = true :=
    isStreaming_iff.mpr ⟨_, rfl, isLive_of_reading hp⟩
  rw [onTornChunk, hs]
  dsimp only
  split
  · exact course_onItem hs hp _
  · rename_i htorn
    rw [Bool.or_eq_true, not_or, tokenCancelled_of_session hs, Bool.not_eq_true] at htorn
    have htaken : Course handles c _ :=
      (course_takeLines hstreaming ((s.lines.push chunk).2.take taken)).head
        (.of_tokens (.chunk chunk hs hp htorn.1) rfl rfl rfl)
    split
    · exact htaken.trans (course_noteEndCancelled _ _)
    · exact htaken

/-! ### Waits -/

theorem course_cancelHandle (c : Controller σ) {session : Nat} (hhandle : session ∈ handles) :
    Course handles c (c.cancelHandle session) := by
  rw [cancelHandle]
  split
  · rename_i hbegun
    exact .single (within_token c hbegun hhandle)
  · exact .refl

theorem course_pass (c : Controller σ) (w : Wait) : Course w.cancelled c (c.pass w) := by
  have hfold : ∀ sessions ⊆ w.cancelled,
      Course w.cancelled c (sessions.foldl cancelHandle c) := by
    intro sessions hsessions
    induction sessions generalizing c with
    | nil => exact .refl
    | cons session rest ih =>
      obtain ⟨hsession, hrest⟩ := List.cons_subset.mp hsessions
      exact (course_cancelHandle c hsession).trans (ih _ hrest)
  exact (hfold _ (List.Subset.refl _)).tail (.of_tokens (.time _ w.now) rfl rfl rfl)

/-- A wait leaves all but the clock and the tokens of others as they were. -/
theorem exists_pass (c : Controller σ) (w : Wait) :
    ∃ tokens, c.pass w = { c with cancelledTokens := tokens, now := w.now } ∧
      ∀ session, session ∉ w.cancelled →
        (session ∈ tokens ↔ session ∈ c.cancelledTokens) := by
  rw [pass]
  generalize w.cancelled = sessions
  induction sessions generalizing c with
  | nil => exact ⟨c.cancelledTokens, rfl, fun _ _ ↦ .rfl⟩
  | cons n rest ih =>
    obtain ⟨tokens, hpass, htokens⟩ := ih (c.cancelHandle n)
    have hhandle : ∃ tokens, c.cancelHandle n = { c with cancelledTokens := tokens } ∧
        ∀ session, session ≠ n → (session ∈ tokens ↔ session ∈ c.cancelledTokens) := by
      rw [cancelHandle, cancelToken]
      split_ifs
      · exact ⟨_, rfl, fun _ _ ↦ .rfl⟩
      · exact ⟨_, rfl, fun _ hne ↦ List.mem_cons.trans (or_iff_right hne)⟩
      · exact ⟨_, rfl, fun _ _ ↦ .rfl⟩
    obtain ⟨tokens₁, heq, htokens₁⟩ := hhandle
    refine ⟨tokens, ?_, fun session hmem ↦ ?_⟩
    · rw [List.foldl_cons, hpass, heq]
    · rw [List.mem_cons, not_or] at hmem
      rw [htokens session hmem.2, heq, htokens₁ session hmem.1]

theorem session_pass (c : Controller σ) (w : Wait) : (c.pass w).session = c.session := by
  obtain ⟨tokens, hpass, -⟩ := c.exists_pass w
  rw [hpass]

theorem course_endWait {c c₀ : Controller σ} {r : Controller σ × StepResult}
    (h₀ : Course handles c₀ c) (hr : Course handles c r.1) : Course handles c₀ (c.endWait r).1 := by
  rw [endWait]
  split
  · exact h₀.trans hr
  · exact h₀

theorem course_step (c : Controller σ) (w : Wait) : Course w.cancelled c (c.step w).1 := by
  have hturn := c.turns
  rw [step.eq_def]
  generalize c.turn = turn at hturn ⊢
  cases hturn with
  | idle => exact .refl
  | cancelled => exact course_endCancelled c
  | opening => exact course_endFailed c neverOpened
  | @unopened s r hs hp hfree =>
    -- The request is gone before the wait begins, whatever the wait brings.
    have hask : Within w.cancelled c _ := .of_tokens (.ask hs hp hfree) rfl rfl rfl
    have hwait := (Relation.ReflTransGen.single hask).trans (course_pass _ w)
    dsimp only
    split
    · exact hwait.trans (course_onAnswer (session_pass _ w) rfl _)
    · exact course_endWait hwait (course_noteEndCancelled _ _)
  | @reading s n hs hp hfree =>
    have hwait := course_pass c w
    have hs' := (session_pass c w).trans hs
    dsimp only
    split
    · exact hwait.trans (course_onItem hs' hp _)
    · exact hwait.trans (course_onTornChunk hs' hp _ _)
    · rename_i t _ ht
      exact hwait.trans (course_onTick hs' hp ht)
    · exact course_endWait hwait (course_endCancelled _)

end Controller

end ChatStream
