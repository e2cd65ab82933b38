import ChatStream.Proofs.Session.Cancelled
import ChatStream.Proofs.Session.Consistency
import ChatStream.Proofs.Session.Page
import ChatStream.Proofs.Session.Painted
import ChatStream.Proofs.Session.Verdict

/-!
# Text that waits has a tick

Text that is heard and not painted is of no use to anyone until a tick fires. Between two operations
the tick and the text agree: while a session is streaming, a tick waits if and only if text is
pending, so that no text is stranded and no tick fires for nothing.

## What is counted

To say that the counts of a schedule are right one has to know what was heard, which no controller
remembers. `Life` remembers it. It is read off the operations: the chunks in them, how their lines
parse, and whether the session is over behind them.

## The argument

Whatever a step does, it hears events in the session that there is and then goes on, ends it, or
paints a frame (`takes_or_paints`). Within a chunk text and tick may be apart, when the end of the
answer carries text; but then the session ends at once, and its final update takes the text along.
-/

namespace ChatStream

/-! ## The life of a session -/

theorem Event.heard_subset (es : List Event) : heard es ⊆ es := by
  induction es with
  | nil => exact List.Subset.refl _
  | cons e es ih =>
    rw [heard]
    refine List.cons_subset_cons e ?_
    split_ifs
    · exact List.nil_subset _
    · exact ih

/-- The lines that a session takes of what ends the wait for its stream. -/
def Session.linesOn (s : Session) : Wake → List String
  | .item (some (.ok chunk)) => (s.lines.push chunk).2
  | .item none => s.lines.finish.2.toList
  | .tornChunk chunk taken => (s.lines.push chunk).2.take taken
  | _ => []

namespace Controller

variable {σ : Type}

/-- The events that the current session hears in an operation: a step takes the lines that end its
wait, up to the end of the answer, unless the session was cancelled meanwhile. -/
def heardIn (c : Controller σ) : Op σ → List Event
  | .step w =>
    match c.session, c.turn with
    | some s, .reading .. =>
      if (c.pass w).tokenCancelled then []
      else Event.heard ((s.linesOn w.wake).map c.config.wire.parse)
    | _, _ => []
  | _ => []

end Controller

/-- What can be remembered of the current session. -/
structure Life where
  /-- The events heard so far, oldest first. -/
  heard : List Event := []
  /-- Whether the end of the session found a tick waiting. -/
  lost : Bool := false
  deriving DecidableEq

/-- What is remembered after one more operation. A session that begins has heard nothing. -/
def Life.after {σ : Type} (l : Life) (c : Controller σ) (op : Op σ) : Life :=
  if (op.prompt? c.config).isSome then {}
  else
    { heard := l.heard ++ c.heardIn op
      lost := l.lost || (c.isStreaming && !(c.apply op).isStreaming &&
        (c.tick?.isSome || (c.heardIn op).any Event.isContent)) }

/-- What is remembered after a run. -/
def Life.run {σ : Type} (l : Life) (c : Controller σ) : List (Op σ) → Life
  | [] => l
  | op :: ops => (l.after c op).run (c.apply op) ops

namespace Controller

variable {σ : Type} {c c' c₁ : Controller σ} {s : Session} {es : List Event} {l : Life}
  {h : Chronicle}

/-! ## Hearing -/

/-- The second controller has heard these events in a session of the first, and told no one. -/
structure Hears (c : Controller σ) (s : Session) (es : List Event) (c' : Controller σ) : Prop where
  watched : c'.watched = c.watched
  config : c'.config = c.config
  trace : c'.trace = c.trace
  session : ∃ s', c'.session = some s' ∧ s'.id = s.id ∧ s'.isLive = true ∧
    s'.page = s.page.hear c'.now es

namespace Hears

theorem refl (hs : c.session = some s) (hl : s.isLive = true) : c.Hears s [] c :=
  ⟨rfl, rfl, rfl, s, hs, rfl, hl, rfl⟩

/-- The session changes in what is not on its page. -/
theorem onSession (h : c.Hears s [] c₁) (s' : Session) (hid : s'.id = s.id)
    (hl : s'.isLive = true) (hpage : s'.page = s.page) :
    c.Hears s [] { c₁ with session := some s' } :=
  ⟨h.watched, h.config, h.trace, s', rfl, hid, hl, hpage⟩

theorem act (h : c.Hears s es c₁) {d : Deed} (hd : d.isTraced = false) :
    c.Hears s es (c₁.act d) := by
  refine ⟨h.watched, h.config, ?_, h.session⟩
  rw [trace_act, hd, if_neg Bool.false_ne_true, List.append_nil]
  exact h.trace

theorem notes (h : c.Hears s es c₁) (ls : List LogLine) : c.Hears s es (c₁.notes ls) := by
  induction ls generalizing c₁ with
  | nil => exact h
  | cons l ls ih => exact ih (h.act rfl)

theorem pass (h : c.Hears s [] c₁) (w : Wait) : c.Hears s [] (c₁.pass w) := by
  obtain ⟨tokens, hpass, -⟩ := c₁.exists_pass w
  rw [hpass]
  exact ⟨h.watched, h.config, h.trace, h.session⟩

theorem hear (h : c.Hears s es c₁) (e : Event) : c.Hears s (es ++ [e]) (c₁.hear e) := by
  obtain ⟨hwatched, hconfig, htrace, s₁, hs₁, hid, hl, hpage⟩ := h
  have hheed : s.page.hear c₁.now (es ++ [e]) = s₁.page.heed c₁.now e := by
    rw [hpage, Page.hear, List.foldl_append]
    rfl
  rw [hear_of_session hs₁]
  split
  · rename_i hnone
    refine ⟨hwatched, hconfig, htrace, s₁, hs₁, hid, hl, ?_⟩
    rw [hheed, Page.heed, e.isContent_eq, hnone]
    rfl
  · rename_i text hsome
    refine ⟨hwatched, hconfig, htrace, _, rfl, ?_, ?_, ?_⟩
    · rw [Session.fragment_eq]
      exact hid
    · rw [Session.fragment_eq]
      exact hl
    · exact (s₁.page_fragment c₁.now hsome).trans hheed.symm

theorem isStreaming (h : c.Hears s es c₁) : c₁.isStreaming = true := by
  obtain ⟨s₁, hs₁, -, hl, -⟩ := h.session
  exact isStreaming_iff.mpr ⟨s₁, hs₁, hl⟩

end Hears

/-- What comes of a session that hears these events: it goes on, or the last of them or something
else ends it. -/
inductive Takes (c : Controller σ) (s : Session) (es : List Event) : Controller σ → Prop
  | goesOn {c' : Controller σ} : (∀ e ∈ es, e.isTerminal = false) → c.Hears s es c' →
      Takes c s es c'
  | ends {c₁ : Controller σ} (e : Ending) : c.Hears s es c₁ → Takes c s es (c₁.finish e)

theorem Hears.takeLines (h : c.Hears s es c₁) (hes : ∀ e ∈ es, e.isTerminal = false)
    (lines : List String) :
    c.Takes s (es ++ Event.heard (lines.map c.config.wire.parse)) (c₁.takeLines lines) := by
  induction lines generalizing c₁ es with
  | nil =>
    rw [List.map_nil, Event.heard, List.append_nil]
    exact .goesOn hes h
  | cons line rest ih =>
    have hheard := (h.notes (c₁.config.wire.read line).log).hear (c₁.config.wire.parse line)
    rw [Controller.takeLines, takeLine_eq, List.map_cons, Event.heard, ← h.config,
      Event.isTerminal_eq, endBy]
    cases hending : (c₁.config.wire.parse line).ending? with
    | none =>
      have hterminal : (c₁.config.wire.parse line).isTerminal = false := by
        rw [Event.isTerminal_eq, hending]
        rfl
      have hes' : ∀ e ∈ es ++ [c₁.config.wire.parse line], e.isTerminal = false := by
        intro e he
        rcases List.mem_append.mp he with he | he
        · exact hes e he
        · rw [List.mem_singleton.mp he, hterminal]
      have hrest := ih hheard hes'
      rw [List.append_assoc, ← h.config] at hrest
      dsimp only
      rw [if_pos hheard.isStreaming]
      exact hrest
    | some x =>
      dsimp only
      rw [isStreaming_finish, if_neg Bool.false_ne_true]
      exact .ends x hheard

/-! ### Steps -/

theorem finished_ne_painted (state : SessionState) : StepResult.finished state ≠ .painted :=
  StepResult.noConfusion

/-- What a part of a step comes to that paints no frame. -/
def Heeds (c : Controller σ) (s : Session) (es : List Event) (r : Controller σ × StepResult) :
    Prop :=
  c.Takes s es r.1 ∧ r.2 ≠ .painted

/-- A session that is still streaming is ended, and one that was ended is left as it is. -/
theorem Takes.noteFinish (h : c.Takes s es c₁) (l : LogLine) (e : Ending) (st st' : SessionState) :
    c.Heeds s es (if c₁.isStreaming then ((c₁.note l).finish e, .finished st)
      else (c₁, .finished st')) := by
  cases h with
  | goesOn _ hheard =>
    rw [if_pos hheard.isStreaming]
    exact ⟨.ends e (hheard.act rfl), finished_ne_painted st⟩
  | ends e' hheard =>
    rw [isStreaming_finish, if_neg Bool.false_ne_true]
    exact ⟨.ends e' hheard, finished_ne_painted st'⟩

namespace Hears

theorem endCancelled (h : c.Hears s es c₁) : c.Heeds s es c₁.endCancelled :=
  ⟨.ends .cancelled h, finished_ne_painted _⟩

theorem endFailed (h : c.Hears s es c₁) (e : TransportError) : c.Heeds s es (c₁.endFailed e) :=
  ⟨.ends (.errored (.transport e)) h, finished_ne_painted _⟩

theorem onAnswer (h : c.Hears s [] c₁) (answer : Except TransportError Nat) :
    c.Heeds s [] (c₁.onAnswer answer) := by
  rw [Controller.onAnswer.eq_def]
  split
  · exact (h.act rfl).endCancelled
  · split
    · refine ⟨.goesOn (List.forall_mem_nil _) ?_, StepResult.noConfusion⟩
      obtain ⟨hwatched, hconfig, htrace, s₁, hs₁, hid, -, hpage⟩ := h
      rw [Controller.onSession, hs₁]
      exact ⟨hwatched, hconfig, htrace, _, rfl, hid, rfl, hpage⟩
    · exact h.endFailed _

/-- Some lines of a chunk are taken, or all of them. -/
theorem takePushed (h : c.Hears s [] c₁) (hl : s.isLive = true) (chunk : Bytes)
    (lines : List String) :
    c.Takes s (Event.heard (lines.map c.config.wire.parse))
      (({ c₁ with session := some { s with
        lines := (s.lines.push chunk).1
        bytesRead := s.bytesRead + chunk.length } } : Controller σ).takeLines lines) :=
  (h.onSession { s with
    lines := (s.lines.push chunk).1
    bytesRead := s.bytesRead + chunk.length } rfl hl rfl).takeLines (List.forall_mem_nil _) lines

theorem takeChunk (h : c.Hears s [] c₁) (hs : c₁.session = some s) (hl : s.isLive = true)
    (chunk : Bytes) :
    c.Heeds s (Event.heard ((s.lines.push chunk).2.map c.config.wire.parse))
      (c₁.takeChunk chunk) := by
  rw [Controller.takeChunk, hs]
  refine ⟨h.takePushed hl chunk _, ?_⟩
  dsimp only
  rw [outcomeAfter]
  split_ifs
  · exact StepResult.noConfusion
  · exact finished_ne_painted _

theorem takeEnd (h : c.Hears s [] c₁) (hs : c₁.session = some s) (hl : s.isLive = true) :
    c.Heeds s (Event.heard (s.lines.finish.2.toList.map c.config.wire.parse)) c₁.takeEnd := by
  have hread := h.onSession { s with lines := s.lines.finish.1 } rfl hl rfl
  rw [takeEnd_of_session hs, endStream]
  exact (hread.takeLines (List.forall_mem_nil _) s.lines.finish.2.toList).noteFinish _ _ _ _

theorem onItem (h : c.Hears s [] c₁) (hs : c₁.session = some s) (hl : s.isLive = true)
    (item : Option Item) :
    c.Heeds s (if c₁.tokenCancelled then []
      else Event.heard ((s.linesOn (.item item)).map c.config.wire.parse)) (c₁.onItem item) := by
  rw [Controller.onItem.eq_def]
  split_ifs
  · split
    · exact (h.act rfl).endCancelled
    · exact h.endCancelled
  · split
    · exact h.takeChunk hs hl _
    · exact h.endFailed _
    · exact h.takeEnd hs hl

theorem onTornChunk (h : c.Hears s [] c₁) (hs : c₁.session = some s) (hl : s.isLive = true)
    (chunk : Bytes) (taken : Nat) :
    c.Heeds s (if c₁.tokenCancelled then []
      else Event.heard ((s.linesOn (.tornChunk chunk taken)).map c.config.wire.parse))
      (c₁.onTornChunk chunk taken) := by
  have hitem := h.onItem hs hl (some (.ok chunk))
  rw [Controller.onTornChunk, hs]
  dsimp only
  cases hcancelled : c₁.tokenCancelled with
  | true =>
    rw [hcancelled] at hitem
    exact hitem
  | false =>
    rw [hcancelled] at hitem
    rw [Bool.false_or, if_neg Bool.false_ne_true, Session.linesOn]
    split
    · -- No line is left when the token is cancelled, so that the chunk is like any other.
      rename_i hall
      rw [List.take_of_length_le (of_decide_eq_true hall)]
      exact hitem
    · exact (h.takePushed hl chunk _).noteFinish _ _ _ _

/-- A wait that brings nothing ends the session if it was cancelled meanwhile. -/
theorem endWait (h : c.Hears s [] c₁) {r : Controller σ × StepResult} (hr : c.Heeds s [] r) :
    c.Takes s [] (c₁.endWait r).1 ∧ (c₁.endWait r).2 ≠ some .painted := by
  rw [Controller.endWait]
  split
  · exact ⟨hr.1, fun hpainted ↦ hr.2 (Option.some.inj hpainted)⟩
  · exact ⟨.goesOn (List.forall_mem_nil _) h, (Option.some_ne_none _).symm⟩

end Hears

/-- A step paints a frame, or takes the session as far as the events go that it hears. -/
theorem takes_or_paints (hs : c.session = some s) (hl : s.isLive = true) (w : Wait) :
    (c.Takes s (c.heardIn (.step w)) (c.step w).1 ∧ (c.step w).2 ≠ some .painted) ∨
      c.heardIn (.step w) = [] ∧ ∃ t c₁, s.schedule.waiting = some t ∧ c.Hears s [] c₁ ∧
        c.step w = (c₁.paint s t.id, some .painted) := by
  have hturn := c.turns
  have hheeds {es : List Event} {r : Controller σ × StepResult} (h : c.Heeds s es r) :
      c.Takes s es r.1 ∧ some r.2 ≠ some .painted :=
    ⟨h.1, fun hpainted ↦ h.2 (Option.some.inj hpainted)⟩
  rw [step.eq_def, heardIn, hs]
  generalize c.turn = turn at hturn ⊢
  cases hturn with
  | idle hrest => cases (isStreaming_of_session hs).symm.trans hrest |>.symm.trans hl
  | cancelled => exact .inl (hheeds (Hears.refl hs hl).endCancelled)
  | opening => exact .inl (hheeds ((Hears.refl hs hl).endFailed neverOpened))
  | @unopened s₁ r hs₁ =>
    cases hs.symm.trans hs₁
    have hopening := (Hears.refl hs hl).onSession { s with phase := .opening } rfl rfl rfl
    have hasked : c.Hears s [] ({ c with session := some { s with phase := .opening } }.act
        (.asked r)) := hopening.act rfl
    have hwait := hasked.pass w
    left
    dsimp only
    split
    · exact hheeds (hwait.onAnswer _)
    · exact hwait.endWait (hwait.act rfl).endCancelled
  | @reading s₁ n hs₁ =>
    cases hs.symm.trans hs₁
    have hwait := (Hears.refl hs hl).pass w
    have hs' := (session_pass c w).trans hs
    have hsilent {wake : Wake} (hlines : s.linesOn wake = []) :
        (if (c.pass w).tokenCancelled then []
          else Event.heard ((s.linesOn wake).map c.config.wire.parse)) = [] := by
      rw [hlines]
      exact ite_self _
    dsimp only
    cases w.wake with
    | item item => exact .inl (hheeds (hwait.onItem hs' hl item))
    | tornChunk chunk taken => exact .inl (hheeds (hwait.onTornChunk hs' hl chunk taken))
    | answer | nothing =>
      rw [hsilent rfl]
      exact .inl (hwait.endWait hwait.endCancelled)
    | tick =>
      rw [hsilent rfl]
      cases s.schedule.waiting with
      | none => exact .inl (hwait.endWait hwait.endCancelled)
      | some t =>
        dsimp only
        cases hcancelled : (c.pass w).tokenCancelled with
        | true =>
          rw [onTick_of_cancelled hcancelled]
          exact .inl (hheeds hwait.endCancelled)
        | false =>
          rw [tokenCancelled_of_session hs'] at hcancelled
          rw [onTick_of_free hs' hcancelled]
          exact .inr ⟨rfl, t, c.pass w, rfl, hwait, rfl⟩

/-! ## Updates -/

theorem updates_of_trace {ds : List Deed} (h : c'.trace = c.trace ++ ds) (n : Nat) :
    c'.updates n =
      c.updates n ++ (ds.filterMap Deed.event?).filterMap (ViewEvent.update? n) := by
  rw [updates, events_eq_filterMap_trace, h, List.filterMap_append, List.filterMap_append,
    ← events_eq_filterMap_trace, updates]

/-- A check of the budget paints nothing. -/
theorem updates_of_checks {ks : List Check} (h : c'.outline = c.outline ++ ks.flatMap Check.deeds)
    (n : Nat) : c'.updates n = c.updates n := by
  have htrace := trace_of_outline h fun d hd ↦ by
    obtain ⟨k, -, hd⟩ := List.mem_flatMap.mp hd
    exact k.isTraced_of_mem d hd
  rw [updates_of_trace htrace, filterMap_flatMap_deeds Check.filterMap_deeds,
    filterMap_flatMap_eq_nil (Check.updates_eq_nil n), List.append_nil]

namespace Hears

theorem updates_eq (hheard : c.Hears s es c₁) (n : Nat) : c₁.updates n = c.updates n := by
  have htrace : c₁.trace = c.trace ++ [] := hheard.trace.trans (List.append_nil _).symm
  rw [updates_of_trace htrace]
  exact List.append_nil _

/-- The session that has heard these events, whose schedule is open as before. -/
theorem exists_open (hheard : c.Hears s es c₁) (hopen : s.schedule.closed = false) :
    ∃ s', c₁.session = some s' ∧ s'.id = s.id ∧ s'.isLive = true ∧
      s'.page = s.page.hear c₁.now es ∧ s'.schedule.closed = false := by
  obtain ⟨-, -, -, s', hs', hid, hl', hpage⟩ := hheard
  have hclosed : s'.page.schedule.closed = false := by
    rw [hpage, Page.closed_hear]
    exact hopen
  exact ⟨s', hs', hid, hl', hpage, hclosed⟩

/-- The end of a session gives one last update, which is no frame. -/
theorem updates_finish (hheard : c.Hears s es c₁) (hw : c.watched = true)
    (hopen : s.schedule.closed = false) (e : Ending) :
    ∃ u : Update, u.isFinal = true ∧ (c₁.finish e).updates s.id = c.updates s.id ++ [u] := by
  obtain ⟨s', hs', hid, hl', -, hopen'⟩ := hheard.exists_open hopen
  obtain ⟨k, -, -, -, -, -, houtline⟩ :=
    outline_finish (hheard.watched.trans hw) hs' hl' hopen' e
  have htrace := trace_of_outline houtline (k.isTraced_of_mem _ _)
  refine ⟨k.final s'.text.committed, rfl, ?_⟩
  rw [updates_of_trace htrace, k.filterMap_deeds, k.filterMap_events, if_pos hid,
    hheard.updates_eq]

/-- A tick that is due paints all that is pending. -/
theorem trace_paint (hheard : c.Hears s [] c₁) (hw : c.watched = true) {t : Tick}
    (hwaiting : s.schedule.waiting = some t) (hpending : s.text.pending ≠ "") :
    (c₁.paint s t.id).trace = c.trace ++ [.shown (.render s.id (.frame s.text.pending))] := by
  rw [paint, (PaintSchedule.fire_of_waiting hwaiting s.text).2.2, if_neg hpending, tellUpdate,
    ← hheard.trace]
  have hwatched : ({ c₁ with session := some (s.fired t.id) } : Controller σ).watched = true :=
    hheard.watched.trans hw
  exact trace_tell hwatched _

end Hears

/-! ## Pace -/

/-- The tick and the pending text of the current session agree as long as it is streaming, and what
is counted of the session is what was heard and painted. -/
structure Paced (c : Controller σ) (l : Life) : Prop where
  scheduled : ∀ s, c.session = some s → s.isLive = true → s.page.IsScheduled
  counts : ∀ s, c.session = some s →
    s.page.Counts l.heard ((c.updates s.id).countP (!·.isFinal)) l.lost
  lost : c.isStreaming = true → l.lost = false

namespace Paced

theorem congr (hp : c.Paced l) (hsession : c'.session = c.session) {ks : List Check}
    (houtline : c'.outline = c.outline ++ ks.flatMap Check.deeds) : c'.Paced l where
  scheduled s hs := hp.scheduled s (hsession.symm.trans hs)
  counts s hs := by
    rw [updates_of_checks houtline]
    exact hp.counts s (hsession.symm.trans hs)
  lost hstreaming := hp.lost ((isStreaming_congr hsession).symm.trans hstreaming)

/-- Of one session there is one page to look at. -/
theorem of_session (hs : c.session = some s) (hscheduled : s.isLive = true → s.page.IsScheduled)
    (hcounts : s.page.Counts l.heard ((c.updates s.id).countP (!·.isFinal)) l.lost)
    (hlost : s.isLive = true → l.lost = false) : c.Paced l where
  scheduled s' hs' := by
    cases hs.symm.trans hs'
    exact hscheduled
  counts s' hs' := by
    cases hs.symm.trans hs'
    exact hcounts
  lost hstreaming := hlost ((isStreaming_of_session hs).symm.trans hstreaming)

/-- A session begins with an empty page. -/
theorem launch (ht : h.Tells c) (hrest : c.isStreaming = false) (p : Prompt) :
    (c.launch p).Paced {} := by
  -- The block of a session that has just begun has no update in it.
  have hupdates : (c.launch p).updates (c.newSession p).id = [] :=
    (ht.launch hrest p).updates_of_mem (Chronicle.mem_blocks_of_current rfl)
  refine of_session (keeps_launch c p).session (fun _ ↦ ?_) ?_ fun _ ↦ rfl
  · exact iff_of_false Bool.false_ne_true (not_not_intro rfl)
  · rw [hupdates]
    exact ⟨rfl, rfl, rfl, rfl, rfl⟩

theorem counts_live (hp : c.Paced l) (hs : c.session = some s) (hl : s.isLive = true) :
    s.page.Counts l.heard ((c.updates s.id).countP (!·.isFinal)) false := by
  have hcounts := hp.counts s hs
  rwa [hp.lost ((isStreaming_of_session hs).trans hl)] at hcounts

theorem takes (hp : c.Paced l) (ht : h.Tells c) (hs : c.session = some s) (hl : s.isLive = true)
    (hes : ∀ e ∈ es, e.text ≠ some "") (htakes : c.Takes s es c') :
    c'.Paced
      { heard := l.heard ++ es
        lost := !c'.isStreaming && (s.page.waits || es.any Event.isContent) } := by
  have hopen := ht.closed_eq_false hs hl
  have hcounts := hp.counts_live hs hl
  cases htakes with
  | goesOn hterminal hheard =>
    obtain ⟨s', hs', hid, -, hpage, -⟩ := hheard.exists_open hopen
    rw [hheard.isStreaming, Bool.not_true, Bool.false_and]
    refine of_session hs' (fun _ ↦ ?_) ?_ fun _ ↦ rfl
    · rw [hpage]
      exact (hp.scheduled s hs hl).hear hopen _ hes hterminal
    · rw [hpage, hid, hheard.updates_eq]
      exact hcounts.hear hopen _ hes
  | @ends c₁ e hheard =>
    obtain ⟨u, hu, hupdates⟩ := hheard.updates_finish ht.watched hopen e
    obtain ⟨s', hs', hid, hl', hpage, hopen'⟩ := hheard.exists_open hopen
    have hended := Page.counts_closed (hcounts.hear hopen c₁.now hes)
    rw [Page.waits_hear hopen] at hended
    rw [isStreaming_finish, Bool.not_false, Bool.true_and]
    refine of_session (keeps_finish hs' hl' e).session nofun ?_ nofun
    have hframes : (c.updates s.id ++ [u]).countP (!·.isFinal) =
        (c.updates s.id).countP (!·.isFinal) := by
      rw [List.countP_append, List.countP_singleton, hu]
      rfl
    rw [s'.page_ended hopen' e, hpage, show (s'.ended e).id = s.id from hid, hupdates, hframes]
    exact hended

/-- A tick that fires paints what is pending, and there is something pending. -/
theorem paint (hp : c.Paced l) (ht : h.Tells c) (hs : c.session = some s) (hl : s.isLive = true)
    {t : Tick} (hwaiting : s.schedule.waiting = some t) (hheard : c.Hears s [] c₁) :
    (c₁.paint s t.id).Paced l := by
  have hwaits : s.page.waits = true := Option.isSome_of_eq_some hwaiting
  have hpending := (hp.scheduled s hs hl).mp hwaits
  have hlost := hp.lost ((isStreaming_of_session hs).trans hl)
  have hupdates : (c₁.paint s t.id).updates s.id = c.updates s.id ++ [.frame s.text.pending] := by
    rw [updates_of_trace (hheard.trace_paint ht.watched hwaiting hpending)]
    simp [Deed.event?, ViewEvent.update?]
  refine of_session (keeps_tellUpdate _ _ _).session (fun _ ↦ ?_) ?_ fun _ ↦ hlost
  · rw [s.page_fired hwaiting hpending]
    exact iff_of_false Bool.false_ne_true (not_not_intro rfl)
  · have hpainted := Page.counts_painted (hp.counts_live hs hl) hwaits
    rw [s.page_fired hwaiting hpending, hlost, show (s.fired t.id).id = s.id from rfl, hupdates,
      List.countP_append]
    exact hpainted

end Paced

/-! ## Runs -/

/-- An empty fragment is never heard. -/
theorem text_ne_empty_of_mem_heardIn {op : Op σ} {e : Event} (he : e ∈ c.heardIn op) :
    e.text ≠ some "" := by
  unfold heardIn at he
  split at he
  · split at he
    · split_ifs at he
      · cases he
      · obtain ⟨line, -, rfl⟩ := List.mem_map.mp (Event.heard_subset _ he)
        exact c.config.wire.text_parse_ne_empty line
    · cases he
  · cases he

/-- Only a session that is being read hears anything. -/
theorem heardIn_step_of_turn {w : Wait} (hturn : ∀ n tick, c.turn ≠ .reading n tick) :
    c.heardIn (.step w) = [] := by
  rw [heardIn]
  split
  · rename_i n tick _ hreading
    exact absurd hreading (hturn n tick)
  · rfl

theorem heardIn_at_rest (hrest : c.isStreaming = false) (op : Op σ) : c.heardIn op = [] := by
  cases op with
  | step w =>
    refine heardIn_step_of_turn fun n tick ↦ ?_
    rw [turn_at_rest hrest]
    nofun
  | _ => rfl

theorem heardIn_of_aloof {op : Op σ} (haloof : op.touches = false) : c.heardIn op = [] := by
  cases op with
  | step => cases haloof
  | _ => rfl

namespace Paced

theorem step (hp : c.Paced l) (ht : h.Tells c) (hs : c.session = some s) (hl : s.isLive = true)
    (w : Wait) :
    (c.step w).1.Paced
      { heard := l.heard ++ c.heardIn (.step w)
        lost := !(c.step w).1.isStreaming &&
          (s.page.waits || (c.heardIn (.step w)).any Event.isContent) } := by
  rcases takes_or_paints hs hl w with ⟨htakes, -⟩ | ⟨hnothing, t, c₁, hwaiting, hheard, hstep⟩
  · exact hp.takes ht hs hl (fun e ↦ text_ne_empty_of_mem_heardIn) htakes
  · have hpainted := hp.paint ht hs hl hwaiting hheard
    have hstreaming : (c₁.paint s t.id).isStreaming = true :=
      isStreaming_iff.mpr ⟨_, (keeps_tellUpdate _ _ _).session, hl⟩
    rw [hnothing, hstep, List.append_nil, hstreaming, Bool.not_true, Bool.false_and,
      ← hp.lost ((isStreaming_of_session hs).trans hl)]
    exact hpainted

end Paced

/-- An operation that leaves the session alone leaves its life alone. -/
theorem after_of_session {op : Op σ} (hop : op.prompt? c.config = none)
    (hnothing : c.heardIn op = []) (hsession : (c.apply op).session = c.session) :
    l.after c op = l := by
  rw [Life.after, hop, Option.isSome_none, if_neg Bool.false_ne_true, hnothing, List.append_nil,
    isStreaming_congr hsession, Bool.and_not_self, Bool.false_and, Bool.or_false]

/-- An operation that may change a session that is streaming is remembered. -/
theorem after_of_live {op : Op σ} (hop : op.prompt? c.config = none) (hs : c.session = some s)
    (hl : s.isLive = true) (hlost : l.lost = false) :
    l.after c op =
      { heard := l.heard ++ c.heardIn op
        lost := !(c.apply op).isStreaming &&
          (s.page.waits || (c.heardIn op).any Event.isContent) } := by
  have hwaits : c.tick?.isSome = s.page.waits := by
    rw [tick?, hs]
    rfl
  rw [Life.after, hop, Option.isSome_none, if_neg Bool.false_ne_true, hlost, Bool.false_or,
    isStreaming_of_session hs, hl, Bool.true_and, hwaits]

namespace Paced

/-- What begins a session begins its page. -/
theorem apply_of_prompt (ht : h.Tells c) {op : Op σ} {p : Prompt}
    (hprompt : op.prompt? c.config = some p) : (c.apply op).Paced {} := by
  obtain ⟨h', ht', -, -⟩ := ht.moves c.course_settle.moves
  have hlaunched := Paced.launch ht' c.isStreaming_settle
  cases op with
  | begin p =>
    rw [Op.prompt?_begin_eq_some_iff] at hprompt
    rw [Controller.apply, begin_of_isTaken hprompt.1]
    exact hlaunched p
  | start p w =>
    rw [Op.prompt?_start, Op.prompt?_begin_eq_some_iff] at hprompt
    rw [Controller.apply, Controller.start, begin_of_isTaken hprompt.1]
    have hs := (keeps_launch c.settle p).session
    have hnothing : (c.settle.launch p).heardIn (.step w) = [] := by
      refine heardIn_step_of_turn fun n tick hreading ↦ ?_
      have hturn := (c.settle.launch p).turns
      rw [hreading] at hturn
      cases hturn with
      | reading hs' hp =>
        cases hs.symm.trans hs'
        cases hp
    have hstep := (hlaunched p).step (ht'.launch c.isStreaming_settle p) hs rfl w
    rw [hnothing, show (c.settle.newSession p).page.waits = false from rfl, List.any_nil,
      Bool.or_false, Bool.and_false] at hstep
    exact hstep
  | _ => cases hprompt

theorem apply (hp : c.Paced l) (ht : h.Tells c) (op : Op σ) :
    (c.apply op).Paced (l.after c op) := by
  cases hprompt : op.prompt? c.config with
  | some p =>
    rw [Life.after, hprompt, Option.isSome_some, if_pos rfl]
    exact apply_of_prompt ht hprompt
  | none =>
    cases hstreaming : c.isStreaming with
    | false =>
      obtain ⟨hsession, ks, houtline⟩ := apply_at_rest ht.watched hstreaming hprompt
      rw [after_of_session hprompt (heardIn_at_rest hstreaming op) hsession]
      exact hp.congr hsession houtline
    | true =>
      obtain ⟨s, hs, hl⟩ := isStreaming_iff.mp hstreaming
      cases htouches : op.touches with
      | false =>
        obtain ⟨hsession, ks, houtline⟩ := apply_of_aloof ht.watched hprompt htouches
        rw [after_of_session hprompt (heardIn_of_aloof htouches) hsession]
        exact hp.congr hsession houtline
      | true =>
        rw [after_of_live hprompt hs hl (hp.lost hstreaming)]
        cases op with
        | step w => exact hp.step ht hs hl w
        | cancel =>
          have hends : c.Takes s [] (c.apply .cancel) := by
            rw [Controller.apply, cancel, if_pos hstreaming]
            exact .ends .cancelled (Hears.refl hs hl)
          exact hp.takes ht hs hl (List.forall_mem_nil _) hends
        | drop =>
          have hends : c.Takes s [] (c.apply .drop) := by
            rw [Controller.apply, drop, if_pos hstreaming]
            exact .ends .cancelled ((Hears.refl hs hl).act rfl)
          exact hp.takes ht hs hl (List.forall_mem_nil _) hends
        | _ => cases htouches

theorem run (hp : c.Paced l) (ht : h.Tells c) (ops : List (Op σ)) :
    (c.run ops).Paced (l.run c ops) := by
  induction ops generalizing c l h with
  | nil => exact hp
  | cons op ops ih =>
    obtain ⟨h', ht', -, -⟩ := ht.apply op
    exact ih (hp.apply ht op) ht'

end Paced

/-- The second controller has shown one frame more than the first, with all the text that was
pending there, and nothing else. -/
def Paints (c c' : Controller σ) : Prop :=
  ∃ s s', c.session = some s ∧ c'.session = some s' ∧ s'.id = s.id ∧ s.text.pending ≠ "" ∧
    c'.events = c.events ++ [.render s.id (.frame s.text.pending)] ∧
    s'.text = { s.text with pending := "" }

theorem Paced.paints_step (hp : c.Paced l) (ht : h.Tells c) {w : Wait}
    (hstep : c.step w = (c', some .painted)) : c.Paints c' := by
  cases hstreaming : c.isStreaming with
  | false =>
    rw [step_at_rest hstreaming] at hstep
    cases hstep
  | true =>
    obtain ⟨s, hs, hl⟩ := isStreaming_iff.mp hstreaming
    rcases takes_or_paints hs hl w with ⟨-, hnot⟩ | ⟨-, t, c₁, hwaiting, hheard, hpaint⟩
    · rw [hstep] at hnot
      exact absurd rfl hnot
    · obtain rfl : c' = c₁.paint s t.id := congrArg Prod.fst (hstep.symm.trans hpaint)
      have hpending := (hp.scheduled s hs hl).mp (Option.isSome_of_eq_some hwaiting)
      have htrace := hheard.trace_paint ht.watched hwaiting hpending
      refine ⟨s, s.fired t.id, hs, (keeps_tellUpdate _ _ _).session, rfl, hpending, ?_, ?_⟩
      · rw [events_eq_filterMap_trace, htrace, List.filterMap_append, ← events_eq_filterMap_trace]
        rfl
      · exact (PaintSchedule.fire_of_waiting hwaiting s.text).2.1

/-- **No text is stranded.** Whatever is done with a controller, between two operations a tick waits
for a session that is streaming if and only if text is pending, so that a step that comes to a
painting shows one frame with all of that text, and there is some. The frames counted are those that
were shown; there is one tick more while one waits, or if the end of the session found one waiting;
and ticks and coalesced fragments together are the fragments heard. -/
theorem run_paced (archive : Archive σ) (store : σ) (config : Config) (transportName : String)
    (ops : List (Op σ)) :
    ((new archive store config transportName).run ops).Paced
        (Life.run {} (new archive store config transportName) ops) ∧
      ∀ w c', ((new archive store config transportName).run ops).step w = (c', some .painted) →
        ((new archive store config transportName).run ops).Paints c' := by
  have ht := Chronicle.Tells.new archive store config transportName
  have hnone {s : Session} : (new archive store config transportName).session ≠ some s := nofun
  have hnew : (new archive store config transportName).Paced {} :=
    ⟨fun _ hs ↦ absurd hs hnone, fun _ hs ↦ absurd hs hnone, fun _ ↦ rfl⟩
  have hp := hnew.run ht ops
  obtain ⟨h', ht', -, -⟩ := ht.run ops
  exact ⟨hp, fun w c' hstep ↦ hp.paints_step ht' hstep⟩

/-- The second of two ticks is lost when the session is cancelled. -/
theorem run_paced_halfPainted :
    ∃ s, ((new History.archive {} {} "scripted").run (halfPainted ++ [.cancel])).session = some s ∧
      s.schedule.stats.ticks = s.schedule.stats.frames + 1 ∧
      s.schedule.stats.ticks + s.schedule.stats.coalesced = 2 := by
  have hlife : Life.run {} (new History.archive {} {} "scripted") (halfPainted ++ [.cancel]) =
      { heard := [.content "ab", .content "c"], lost := true } := by decide +kernel
  have hsome : ((new History.archive {} {} "scripted").run
      (halfPainted ++ [.cancel])).session.isSome = true := by decide +kernel
  obtain ⟨s, hs⟩ := Option.isSome_iff_exists.mp hsome
  have hpaced := (run_paced History.archive {} {} "scripted" (halfPainted ++ [.cancel])).1
  have hcounts := hpaced.counts s hs
  have hticks := hcounts.ticks
  rw [← hcounts.painted] at hticks
  have hlost : (s.page.waits || (Life.run {} (new History.archive {} {} "scripted")
      (halfPainted ++ [.cancel])).lost) = true :=
    (congrArg (s.page.waits || ·.lost) hlife).trans (Bool.or_true _)
  have hheard := congrArg (·.heard.countP Event.isContent) hlife
  exact ⟨s, hs, hticks.trans (congrArg (s.schedule.stats.frames + ·.toNat) hlost),
    hcounts.contents.trans hheard⟩

end Controller

end ChatStream
