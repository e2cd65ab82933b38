import ChatStream.Proofs.Session.Moves

/-!
# Controllers in tandem

What a controller does next is decided by its `core`: the settings, the session with its token, two
counts and the clock. The archive, the figures of the budget and what was done before are carried
along, and no decision looks at them. They are touched in two places only, where a record is handed
in and where the budget is checked.

A `Tandem` makes use of that. It is a relation between two controllers with equal cores which is
kept where a core changes, where something is done that the core alone decides, where both hand in
the same record and where both check their budgets. Then it is kept by everything that can be done
with controllers, and whatever is returned is returned by both: `Tandem.apply` and the lemmas before
it, one for each function. The two may work with different archives, or with the same one and a
different past.
-/

namespace ChatStream

/-! ## Cores -/

/-- What a controller goes by. -/
structure Core where
  config : Config
  transportName : String
  summarize : Bool
  session : Option Session
  cancelledTokens : List Nat
  sessionsBegun : Nat
  recordsMade : Nat
  now : Instant
  watched : Bool

/-- Whether the core alone decides that something is done. What is done with the archive depends on
the archive. -/
def Deed.isOwn : Deed → Bool
  | .shown (.notice .warning _) => false
  | .shown (.budgetNearLimit ..) => false
  | .committed .. => false
  | .measured _ => false
  | _ => true

namespace Controller

variable {σ : Type}

/-- The core of a controller. -/
def core (c : Controller σ) : Core where
  config := c.config
  transportName := c.transportName
  summarize := c.budget.summarize
  session := c.session
  cancelledTokens := c.cancelledTokens
  sessionsBegun := c.sessionsBegun
  recordsMade := c.recordsMade
  now := c.now
  watched := c.watched

/-- The controller with all that changes in a core taken from another one. -/
def withCore (c : Controller σ) (k : Core) : Controller σ :=
  { c with
    budget := { c.budget with summarize := k.summarize }
    session := k.session
    cancelledTokens := k.cancelledTokens
    sessionsBegun := k.sessionsBegun
    recordsMade := k.recordsMade
    now := k.now }

theorem core_of_keeps {c c' : Controller σ} (hkeeps : Keeps c c')
    (hmade : c'.recordsMade = c.recordsMade) : c'.core = c.core := by
  simp only [core, hkeeps.config, hkeeps.transportName, hkeeps.summarize, hkeeps.session,
    hkeeps.cancelledTokens, hkeeps.sessionsBegun, hkeeps.now, hkeeps.watched, hmade]

theorem core_commit (c : Controller σ) (r : Record) : (c.commit r).core = c.core :=
  core_of_keeps (keeps_commit c r) (does_commit c r).recordsMade

theorem core_measure (c : Controller σ) : c.measure.1.core = c.core :=
  core_of_keeps (keeps_measure c) (recordsMade_measure c)

theorem core_withCore {c : Controller σ} {τ : Type} {d : Controller τ} (h : c.core = d.core)
    (k : Core) : (c.withCore k).core = (d.withCore k).core := by
  have hconfig : c.config = d.config := congrArg Core.config h
  have hname : c.transportName = d.transportName := congrArg Core.transportName h
  have hwatched : c.watched = d.watched := congrArg Core.watched h
  rw [core, core, withCore, withCore, hconfig, hname, hwatched]

/-- What is logged when a session begins. -/
def launchLog (c : Controller σ) (p : Prompt) : LogLine where
  level := .info
  message := "Starting stream session"
  fields := [("model", (c.newSession p).model), ("transport", c.transportName),
    ("summarize", boolField c.budget.summarize)]

theorem launch_eq (c : Controller σ) (p : Prompt) :
    c.launch p =
      (((c.withSession p).note (c.launchLog p)).tell
        (.sessionStarted c.sessionsBegun (c.newSession p).model)).tell
          (.stateChanged c.sessionsBegun .streaming) := rfl

end Controller

/-! ## What an operation is and what it returns -/

namespace Op

variable {σ : Type}

/-- Both do the same, except that a change of the archive may be any change. -/
inductive Alike {τ : Type} : Op σ → Op τ → Prop
  | «begin» (p : Prompt) : Alike (.begin p) (.begin p)
  | start (p : Prompt) (w : Wait) : Alike (.start p w) (.start p w)
  | step (w : Wait) : Alike (.step w) (.step w)
  | cancel : Alike .cancel .cancel
  | cancelHandle (session : Nat) : Alike (.cancelHandle session) (.cancelHandle session)
  | acceptSummary : Alike .acceptSummary .acceptSummary
  | declineSummary : Alike .declineSummary .declineSummary
  | measure : Alike .measure .measure
  | drop : Alike .drop .drop
  | passTime (now : Instant) : Alike (.passTime now) (.passTime now)
  | changeStore (change : σ → σ) (change' : τ → τ) :
      Alike (.changeStore change) (.changeStore change')

theorem alike_refl (op : Op σ) : op.Alike op := by
  cases op <;> constructor

/-- Whether the archive changes under the controller. -/
def isChange : Op σ → Bool
  | .changeStore _ => true
  | _ => false

end Op

/-- What an operation returns. -/
inductive Returned
  | nothing
  | refused (e : BeginError)
  | begun (session : Nat)
  | stepped (result : Option StepResult)
  | cancelled (wasStreaming : Bool)
  deriving DecidableEq, Repr

/-- What comes of a beginning: a refusal, or the number of the session. -/
def Returned.ofBegin {σ : Type} : Except BeginError (Controller σ × Nat) → Returned
  | .ok (_, session) => .begun session
  | .error e => .refused e

/-- What an operation would return now. The notice of a check is an event as well, and is left to
the events. -/
def Controller.returned {σ : Type} (c : Controller σ) : Op σ → Returned
  | .begin p => .ofBegin (c.begin p)
  | .start p w => .ofBegin (c.start p w)
  | .step w => .stepped (c.step w).2
  | .cancel => .cancelled c.cancel.2
  | _ => .nothing

/-! ## Tandems -/

/-- A relation between controllers that is kept by whatever both do. -/
structure Tandem (σ τ : Type) where
  rel : Controller σ → Controller τ → Prop
  core : ∀ {c d}, rel c d → c.core = d.core
  withCore : ∀ {c d}, rel c d → ∀ k : Core, rel (c.withCore k) (d.withCore k)
  act : ∀ {c d}, rel c d → ∀ x : Deed, x.isOwn → rel (c.act x) (d.act x)
  commit : ∀ {c d}, rel c d → ∀ r, rel (c.commit r) (d.commit r)
  measure : ∀ {c d}, rel c d → rel c.measure.1 d.measure.1

namespace Tandem

open Controller

variable {σ τ : Type} (T : Tandem σ τ) {c : Controller σ} {d : Controller τ}

/-- Both have come to related controllers with the same result. -/
def Both {α : Type} (x : Controller σ × α) (y : Controller τ × α) : Prop :=
  T.rel x.1 y.1 ∧ x.2 = y.2

theorem both {α : Type} (h : T.rel c d) (result : α) : T.Both (c, result) (d, result) := ⟨h, rfl⟩

/-! ### Equal cores -/

theorem session_eq (h : T.rel c d) : c.session = d.session := congrArg Core.session (T.core h)

theorem config_eq (h : T.rel c d) : c.config = d.config := congrArg Core.config (T.core h)

theorem isCancelled_eq (h : T.rel c d) (session : Nat) :
    c.isCancelled session = d.isCancelled session := by
  have htokens : c.cancelledTokens = d.cancelledTokens := congrArg Core.cancelledTokens (T.core h)
  rw [isCancelled, htokens, isCancelled]

theorem state_eq (h : T.rel c d) : c.state = d.state := by
  rw [state, T.session_eq h, state]

theorem isStreaming_eq (h : T.rel c d) : c.isStreaming = d.isStreaming := by
  rw [isStreaming, T.state_eq h, isStreaming]

theorem tokenCancelled_eq (h : T.rel c d) : c.tokenCancelled = d.tokenCancelled := by
  rw [tokenCancelled, tokenCancelled, T.session_eq h]
  cases d.session with
  | none => rfl
  | some s => exact T.isCancelled_eq h s.id

/-- A change of the core that looks at the core. -/
theorem change (h : T.rel c d) (f : Core → Core) :
    T.rel (c.withCore (f c.core)) (d.withCore (f d.core)) := by
  rw [T.core h]
  exact T.withCore h _

theorem withSession (h : T.rel c d) (session : Option Session) :
    T.rel { c with session } { d with session } :=
  T.change h fun k ↦ { k with session }

/-! ### Single deeds -/

theorem note (h : T.rel c d) (l : LogLine) : T.rel (c.note l) (d.note l) := T.act h _ rfl

theorem notes (h : T.rel c d) (ls : List LogLine) : T.rel (c.notes ls) (d.notes ls) := by
  induction ls generalizing c d with
  | nil => exact h
  | cons l ls ih => exact ih (T.note h l)

theorem tell (h : T.rel c d) {e : ViewEvent} (he : (Deed.shown e).isOwn) :
    T.rel (c.tell e) (d.tell e) := by
  have hwatched : c.watched = d.watched := congrArg Core.watched (T.core h)
  rw [Controller.tell, Controller.tell, hwatched]
  split
  · exact T.act h _ he
  · exact T.note h _

theorem tellUpdate (h : T.rel c d) (session : Nat) (update : Option Update) :
    T.rel (c.tellUpdate session update) (d.tellUpdate session update) := by
  cases update with
  | none => exact h
  | some u => exact T.tell h rfl

theorem tellEnding (h : T.rel c d) (e : Ending) : T.rel (c.tellEnding e) (d.tellEnding e) := by
  cases e with
  | errored f => exact T.tell h rfl
  | completed | cancelled => exact h

theorem cancelToken (h : T.rel c d) (session : Nat) :
    T.rel (c.cancelToken session) (d.cancelToken session) := by
  rw [Controller.cancelToken, Controller.cancelToken, T.isCancelled_eq h]
  split
  · exact h
  · exact T.change h fun k ↦ { k with cancelledTokens := session :: k.cancelledTokens }

theorem onSession (h : T.rel c d) (f : Session → Session) :
    T.rel (c.onSession f) (d.onSession f) :=
  T.change h fun k ↦ { k with session := k.session.map f }

/-! ### The end and the beginning of a session -/

theorem makeRecord (h : T.rel c d) (role : Role) (content : String) (model : Option String) :
    T.Both (c.makeRecord role content model) (d.makeRecord role content model) := by
  have hmade : c.recordsMade = d.recordsMade := congrArg Core.recordsMade (T.core h)
  have hnow : c.now = d.now := congrArg Core.now (T.core h)
  constructor
  · exact T.change h fun k ↦ { k with recordsMade := k.recordsMade + 1 }
  · rw [Controller.makeRecord, Controller.makeRecord, hmade, hnow]

theorem keepRecords (h : T.rel c d) (s : Session) (e : Ending) :
    T.rel (c.keepRecords s e) (d.keepRecords s e) := by
  obtain ⟨hquestion, heq⟩ := T.makeRecord h .user s.message none
  obtain ⟨hanswer, heq'⟩ := T.makeRecord hquestion .assistant s.text.committed (some s.model)
  simp only [Controller.keepRecords, T.config_eq hquestion, heq, heq']
  split
  · exact T.commit (T.commit hanswer _) _
  · exact T.commit hquestion _

theorem close (h : T.rel c d) (s : Session) (e : Ending) : T.rel (c.close s e) (d.close s e) := by
  have hwithdraw : T.rel (c.withdraw s.id e) (d.withdraw s.id e) := by
    rw [withdraw, withdraw]
    split
    · exact T.cancelToken h s.id
    · exact h
  exact T.note (T.notes (T.withSession hwithdraw _) _) _

/-- **The end of a session** keeps a tandem. -/
theorem finish (h : T.rel c d) (e : Ending) : T.rel (c.finish e) (d.finish e) := by
  cases hs : d.session with
  | none => rwa [finish_of_none hs, finish_of_none ((T.session_eq h).trans hs)]
  | some s =>
    have hs' := (T.session_eq h).trans hs
    cases hl : s.isLive with
    | false => rwa [finish_of_not_live hs hl, finish_of_not_live hs' hl]
    | true =>
      rw [finish_of_live hs hl, finish_of_live hs' hl]
      have hclosed := T.tellUpdate (T.close h s e) s.id (s.schedule.finish s.text e.state).2.2
      have hkept := T.keepRecords hclosed (s.ended e) e
      exact T.measure (T.tellEnding (T.tell hkept rfl) e)

theorem noteFinish (h : T.rel c d) (l : LogLine) (e : Ending) :
    T.rel ((c.note l).finish e) ((d.note l).finish e) :=
  T.finish (T.note h l) e

theorem settle (h : T.rel c d) : T.rel c.settle d.settle := by
  rw [Controller.settle, Controller.settle, T.isStreaming_eq h]
  split
  · exact T.noteFinish h _ _
  · exact h

theorem launch (h : T.rel c d) (p : Prompt) : T.rel (c.launch p) (d.launch p) := by
  have hsummarize : c.budget.summarize = d.budget.summarize :=
    congrArg Core.summarize (T.core h)
  have hbegun : c.sessionsBegun = d.sessionsBegun := congrArg Core.sessionsBegun (T.core h)
  have hnow : c.now = d.now := congrArg Core.now (T.core h)
  have hname : c.transportName = d.transportName := congrArg Core.transportName (T.core h)
  have hnew : c.newSession p = d.newSession p := by
    rw [newSession, newSession, T.config_eq h, hsummarize, hbegun, hnow]
  have hstarted : T.rel (c.withSession p) (d.withSession p) := by
    rw [Controller.withSession, Controller.withSession, hnew]
    exact T.change h fun k ↦ { k with
      summarize := false, session := some (d.newSession p), sessionsBegun := k.sessionsBegun + 1 }
  have hlog : c.launchLog p = d.launchLog p := by
    rw [launchLog, launchLog, hnew, hname, hsummarize]
  rw [launch_eq, launch_eq, hlog, hbegun, hnew]
  exact T.tell (T.tell (T.note hstarted _) rfl) rfl

theorem refuses_eq (h : T.rel c d) (p : Prompt) : c.refuses p = d.refuses p := by
  rw [refuses, T.config_eq h, refuses]

/-- What comes of a beginning on both sides: the same refusal, or the same number. -/
inductive Begun : Except BeginError (Controller σ × Nat) → Except BeginError (Controller τ × Nat) →
    Prop
  | refused (e : BeginError) : Begun (.error e) (.error e)
  | taken (n : Nat) {c : Controller σ} {d : Controller τ} : T.rel c d →
      Begun (.ok (c, n)) (.ok (d, n))

theorem onBegin (h : T.rel c d) (p : Prompt) : T.Begun (c.begin p) (d.begin p) := by
  rw [begin_eq, begin_eq, T.refuses_eq h]
  have hbegun : c.settle.sessionsBegun = d.settle.sessionsBegun :=
    congrArg Core.sessionsBegun (T.core (T.settle h))
  cases d.refuses p with
  | some e => exact .refused e
  | none =>
    rw [hbegun]
    exact .taken _ (T.launch (T.settle h) p)

/-! ### Lines and items -/

theorem hear (h : T.rel c d) (event : Event) : T.rel (c.hear event) (d.hear event) := by
  have hnow : c.now = d.now := congrArg Core.now (T.core h)
  rw [Controller.hear, Controller.hear, hnow]
  split
  · exact h
  · exact T.onSession h _

theorem endBy (h : T.rel c d) (event : Event) : T.rel (c.endBy event) (d.endBy event) := by
  rw [Controller.endBy, Controller.endBy]
  split
  · exact T.finish h _
  · exact h

theorem takeLine (h : T.rel c d) (line : String) : T.rel (c.takeLine line) (d.takeLine line) := by
  rw [takeLine_eq, takeLine_eq, T.config_eq h]
  exact T.endBy (T.hear (T.notes h _) _) _

theorem takeLines (h : T.rel c d) (lines : List String) :
    T.rel (c.takeLines lines) (d.takeLines lines) := by
  induction lines generalizing c d with
  | nil => exact h
  | cons line rest ih =>
    have hline := T.takeLine h line
    rw [Controller.takeLines, Controller.takeLines, T.isStreaming_eq hline]
    split
    · exact ih hline
    · exact hline

theorem outcomeAfter_eq (h : T.rel c d) (lines : Nat) :
    c.outcomeAfter lines = d.outcomeAfter lines := by
  rw [outcomeAfter, T.isStreaming_eq h, T.state_eq h, outcomeAfter]

theorem takeChunk (h : T.rel c d) (chunk : Bytes) :
    T.Both (c.takeChunk chunk) (d.takeChunk chunk) := by
  rw [Controller.takeChunk, Controller.takeChunk, T.session_eq h]
  split
  · exact ⟨h, rfl⟩
  · rename_i s hs
    have hlines := T.takeLines (T.withSession h (some { s with
      lines := (s.lines.push chunk).1, bytesRead := s.bytesRead + chunk.length }))
      (s.lines.push chunk).2
    exact ⟨hlines, T.outcomeAfter_eq hlines _⟩

theorem endStream (h : T.rel c d) : T.Both c.endStream d.endStream := by
  rw [Controller.endStream, Controller.endStream, T.isStreaming_eq h, T.state_eq h]
  split
  · exact T.both (T.noteFinish h _ .completed) _
  · exact T.both h _

theorem takeEnd (h : T.rel c d) : T.Both c.takeEnd d.takeEnd := by
  cases hs : d.session with
  | none =>
    rw [Controller.takeEnd, Controller.takeEnd, T.session_eq h, hs]
    exact ⟨h, rfl⟩
  | some s =>
    rw [takeEnd_of_session hs, takeEnd_of_session ((T.session_eq h).trans hs)]
    exact T.endStream (T.takeLines (T.withSession h _) _)

/-! ### Steps -/

theorem endCancelled (h : T.rel c d) : T.Both c.endCancelled d.endCancelled := by
  rw [Controller.endCancelled, Controller.endCancelled]
  exact T.both (T.finish h .cancelled) _

theorem endFailed (h : T.rel c d) (e : TransportError) :
    T.Both (c.endFailed e) (d.endFailed e) := by
  rw [Controller.endFailed, Controller.endFailed, fail, fail]
  exact T.both (T.finish h _) _

theorem cancelledOpening (h : T.rel c d) : T.Both c.cancelledOpening d.cancelledOpening := by
  rw [Controller.cancelledOpening, Controller.cancelledOpening]
  exact T.endCancelled (T.note h _)

theorem onAnswer (h : T.rel c d) (answer : Except TransportError Nat) :
    T.Both (c.onAnswer answer) (d.onAnswer answer) := by
  rw [onAnswer.eq_def, onAnswer.eq_def, T.tokenCancelled_eq h]
  split
  · exact T.cancelledOpening h
  · cases answer with
    | ok stream => exact ⟨T.onSession h _, rfl⟩
    | error e => exact T.endFailed h e

theorem onTick (h : T.rel c d) (id : Nat) : T.Both (c.onTick id) (d.onTick id) := by
  cases hs : d.session with
  | none =>
    have hs' := (T.session_eq h).trans hs
    rw [Controller.onTick, Controller.onTick, tokenCancelled, tokenCancelled, hs, hs']
    exact ⟨h, rfl⟩
  | some s =>
    have hs' := (T.session_eq h).trans hs
    cases hcancelled : d.isCancelled s.id with
    | true =>
      have hcancelled' := (T.isCancelled_eq h s.id).trans hcancelled
      rw [Controller.onTick, Controller.onTick, tokenCancelled_of_session hs,
        tokenCancelled_of_session hs', hcancelled, hcancelled']
      exact T.endCancelled h
    | false =>
      have hfree := (T.isCancelled_eq h s.id).trans hcancelled
      rw [onTick_of_free hs hcancelled, onTick_of_free hs' hfree]
      exact ⟨T.tellUpdate (T.withSession h _) _ _, rfl⟩

theorem onItem (h : T.rel c d) (item : Option Item) : T.Both (c.onItem item) (d.onItem item) := by
  rw [onItem.eq_def, onItem.eq_def, T.tokenCancelled_eq h]
  split
  · split
    · exact T.endCancelled (T.note h _)
    · exact T.endCancelled h
  · rcases item with _ | e | chunk
    · exact T.takeEnd h
    · exact T.endFailed h e
    · exact T.takeChunk h chunk

theorem onTornChunk (h : T.rel c d) (chunk : Bytes) (taken : Nat) :
    T.Both (c.onTornChunk chunk taken) (d.onTornChunk chunk taken) := by
  rw [Controller.onTornChunk, Controller.onTornChunk, T.session_eq h, T.tokenCancelled_eq h]
  split
  · exact T.onItem h _
  · rename_i s hs
    have hlines := T.takeLines (T.withSession h (some { s with
      lines := (s.lines.push chunk).1, bytesRead := s.bytesRead + chunk.length }))
      ((s.lines.push chunk).2.take taken)
    dsimp only
    split
    · exact T.onItem h _
    · rw [T.isStreaming_eq hlines]
      split
      · exact T.endCancelled (T.note hlines _)
      · exact ⟨hlines, congrArg StepResult.finished (T.state_eq hlines)⟩

/-! ### Waits -/

theorem cancelHandle (h : T.rel c d) (session : Nat) :
    T.rel (c.cancelHandle session) (d.cancelHandle session) := by
  have hbegun : c.sessionsBegun = d.sessionsBegun := congrArg Core.sessionsBegun (T.core h)
  rw [Controller.cancelHandle, Controller.cancelHandle, hbegun]
  split
  · exact T.cancelToken h session
  · exact h

theorem passTime (h : T.rel c d) (now : Instant) : T.rel { c with now } { d with now } :=
  T.change h fun k ↦ { k with now }

theorem pass (h : T.rel c d) (w : Wait) : T.rel (c.pass w) (d.pass w) := by
  have hhandles (sessions : List Nat) :
      T.rel (sessions.foldl Controller.cancelHandle c)
        (sessions.foldl Controller.cancelHandle d) := by
    induction sessions generalizing c d with
    | nil => exact h
    | cons session rest ih => exact ih (T.cancelHandle h session)
  exact T.passTime (hhandles w.cancelled) w.now

theorem endWait (h : T.rel c d) {r : Controller σ × StepResult} {r' : Controller τ × StepResult}
    (hr : T.Both r r') : T.Both (c.endWait r) (d.endWait r') := by
  rw [Controller.endWait, Controller.endWait, T.tokenCancelled_eq h]
  split
  · exact ⟨hr.1, congrArg some hr.2⟩
  · exact ⟨h, rfl⟩

/-- Both wait for the same, or are over with the same. -/
inductive Waiting : Turn σ → Turn τ → Prop
  | idle : Waiting .idle .idle
  | done (o : StepResult) {c : Controller σ} {d : Controller τ} : T.rel c d →
      Waiting (.over c o) (.over d o)
  | opening (r : Request) {c : Controller σ} {d : Controller τ} : T.rel c d →
      Waiting (.opening c r) (.opening d r)
  | reading (stream : Nat) (tick : Option Tick) :
      Waiting (.reading stream tick) (.reading stream tick)

theorem turn (h : T.rel c d) : T.Waiting c.turn d.turn := by
  cases hs : d.session with
  | none =>
    rw [Controller.turn, Controller.turn, T.session_eq h, hs]
    exact .idle
  | some s =>
    have hs' := (T.session_eq h).trans hs
    cases hcancelled : d.isCancelled s.id with
    | true =>
      have hcancelled' := (T.isCancelled_eq h s.id).trans hcancelled
      rw [Controller.turn, Controller.turn, hs, hs']
      dsimp only
      rw [hcancelled, hcancelled']
      cases s.phase with
      | ended e => exact .idle
      | _ => exact .done _ (T.finish h .cancelled)
    | false =>
      have hfree := (T.isCancelled_eq h s.id).trans hcancelled
      rw [turn_of_free hs hcancelled, turn_of_free hs' hfree]
      cases s.phase with
      | unopened r => exact .opening r (T.act (T.withSession h _) _ rfl)
      | opening => exact .done _ (T.finish h (.errored (.transport neverOpened)))
      | reading n => exact .reading n _
      | ended e => exact .idle

/-- **A step** keeps a tandem, and comes to the same on both sides. -/
theorem step (h : T.rel c d) (w : Wait) : T.Both (c.step w) (d.step w) := by
  have hturn := T.turn h
  rw [step.eq_def, step.eq_def]
  generalize c.turn = turn at hturn ⊢
  generalize d.turn = turn' at hturn ⊢
  cases hturn with
  | idle => exact ⟨h, rfl⟩
  | done o hdone => exact ⟨hdone, rfl⟩
  | opening r hasked =>
    have hpassed := T.pass hasked w
    dsimp only
    split
    · rename_i answer _
      obtain ⟨hrel, heq⟩ := T.onAnswer hpassed answer
      exact ⟨hrel, congrArg some heq⟩
    · exact T.endWait hpassed (T.cancelledOpening hpassed)
  | reading stream tick =>
    have hpassed := T.pass h w
    dsimp only
    split
    · rename_i item _
      obtain ⟨hrel, heq⟩ := T.onItem hpassed item
      exact ⟨hrel, congrArg some heq⟩
    · rename_i chunk taken _
      obtain ⟨hrel, heq⟩ := T.onTornChunk hpassed chunk taken
      exact ⟨hrel, congrArg some heq⟩
    · rename_i t _
      obtain ⟨hrel, heq⟩ := T.onTick hpassed t.id
      exact ⟨hrel, congrArg some heq⟩
    · exact T.endWait hpassed (T.endCancelled hpassed)

theorem start (h : T.rel c d) (p : Prompt) (w : Wait) : T.Begun (c.start p w) (d.start p w) := by
  have hbegin := T.onBegin h p
  rw [Controller.start, Controller.start]
  generalize c.begin p = begun at hbegin ⊢
  generalize d.begin p = begun' at hbegin ⊢
  cases hbegin with
  | refused e => exact .refused e
  | taken n hrel => exact .taken n (T.step hrel w).1

/-! ### Operations -/

theorem cancel (h : T.rel c d) : T.Both c.cancel d.cancel := by
  rw [Controller.cancel, Controller.cancel, T.isStreaming_eq h]
  split
  · exact T.both (T.finish h .cancelled) true
  · exact T.both h false

theorem drop (h : T.rel c d) : T.rel c.drop d.drop := by
  rw [Controller.drop, Controller.drop, T.isStreaming_eq h]
  split
  · exact T.noteFinish h _ _
  · exact h

/-- **Every operation** but a change of the archive keeps a tandem. -/
theorem apply (h : T.rel c d) {op : Op σ} {op' : Op τ} (hsame : op.Alike op')
    (hop : op.isChange = false) : T.rel (c.apply op) (d.apply op') := by
  cases hsame with
  | «begin» p =>
    have hbegin := T.onBegin h p
    rw [Controller.apply, Controller.apply]
    generalize c.begin p = begun at hbegin ⊢
    generalize d.begin p = begun' at hbegin ⊢
    cases hbegin with
    | refused e => exact h
    | taken n hrel => exact hrel
  | start p w =>
    have hstart := T.start h p w
    rw [Controller.apply, Controller.apply]
    generalize c.start p w = begun at hstart ⊢
    generalize d.start p w = begun' at hstart ⊢
    cases hstart with
    | refused e => exact h
    | taken n hrel => exact hrel
  | step w => exact (T.step h w).1
  | cancel => exact (T.cancel h).1
  | cancelHandle session => exact T.cancelHandle h session
  | acceptSummary => exact T.note (T.change h fun k ↦ { k with summarize := true }) _
  | declineSummary => exact T.change h fun k ↦ { k with summarize := false }
  | measure => exact T.measure h
  | drop => exact T.drop h
  | passTime now => exact T.passTime h now
  | changeStore => cases hop

theorem ofBegin_eq {x : Except BeginError (Controller σ × Nat)}
    {y : Except BeginError (Controller τ × Nat)} : T.Begun x y →
    Returned.ofBegin x = Returned.ofBegin y
  | .refused _ => rfl
  | .taken _ _ => rfl

/-- Both operations return the same. -/
theorem returned_eq (h : T.rel c d) {op : Op σ} {op' : Op τ} (hsame : op.Alike op') :
    c.returned op = d.returned op' := by
  cases hsame with
  | «begin» p => exact T.ofBegin_eq (T.onBegin h p)
  | start p w => exact T.ofBegin_eq (T.start h p w)
  | step w => exact congrArg Returned.stepped (T.step h w).2
  | cancel => exact congrArg Returned.cancelled (T.cancel h).2
  | _ => rfl

end Tandem

end ChatStream
