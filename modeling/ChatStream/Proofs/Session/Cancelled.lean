import ChatStream.Proofs.Session.Finales
import ChatStream.Proofs.Session.Numbers

/-!
# Cancelling wins

Whoever holds the handle of a session may cancel it at any time: before its request is handed out,
while the answer or the next item is awaited, or between two steps. Whatever the transport then has
to offer, the next step ends the session as cancelled, with the text that it had.

## Where it could go wrong

A wait is a race. The token is cancelled, and the item that ends the answer, or its error, or a due
tick is there as well. `exists_step_eq_finish` takes the step apart once more and finds that it
comes to the end of a session that no wait has touched: at most its phase and the log are other than
before.

The rest of the way the session is `Doomed`: it is streaming, and it can only be cancelled with that
text. Every operation leaves it so or ends it.
-/

namespace ChatStream.Controller

variable {σ : Type} {c c' : Controller σ} {s : Session}

/-! ## The step that finds its session cancelled -/

theorem turn_of_cancelled (hs : c.session = some s) (hl : s.isLive = true)
    (hcancelled : c.isCancelled s.id = true) :
    c.turn = .over (c.finish .cancelled) (.finished .cancelled) := by
  rw [turn, hs]
  dsimp only
  rw [hcancelled]
  cases hp : s.phase with
  | ended e => cases hl.symm.trans (Session.isLive_of_ended hp)
  | _ => rfl

theorem step_eq_finish (hs : c.session = some s) (hl : s.isLive = true)
    (hcancelled : c.isCancelled s.id = true) (w : Wait) :
    c.step w = (c.finish .cancelled, some (.finished .cancelled)) := by
  rw [step.eq_def, turn_of_cancelled hs hl hcancelled]

theorem isCancelled_cancelHandle {n : Nat} (hn : n < c.sessionsBegun) :
    (c.cancelHandle n).isCancelled n = true := by
  rw [cancelHandle, if_pos hn]
  exact isCancelled_cancelToken c n

theorem later_cancelHandle (c : Controller σ) (n : Nat) : Later c (c.cancelHandle n) := by
  rw [cancelHandle]
  split
  · exact later_cancelToken c n
  · exact .refl c

/-- A handle that is cancelled during a wait is cancelled after it. -/
theorem isCancelled_pass {w : Wait} {n : Nat} (hmem : n ∈ w.cancelled)
    (hn : n < c.sessionsBegun) : (c.pass w).isCancelled n = true := by
  have hfold (sessions : List Nat) (c : Controller σ) :
      Later c (sessions.foldl cancelHandle c) := by
    induction sessions generalizing c with
    | nil => exact .refl c
    | cons m rest ih => exact (later_cancelHandle c m).trans (ih _)
  -- The handles before it begin no session, and those behind it restore no token.
  obtain ⟨before, after, hsplit⟩ := List.append_of_mem hmem
  have hbegun := Nat.lt_of_lt_of_le hn (hfold before c).begun
  have hcancelled := (hfold after _).isCancelled (isCancelled_cancelHandle hbegun)
  rw [pass, hsplit, List.foldl_append, List.foldl_cons]
  exact hcancelled

/-! What a wait brings to a session whose token is cancelled is thrown away. -/

theorem onItem_of_cancelled (h : c.tokenCancelled = true) (item : Option Item) :
    ∃ ls, c.onItem item = (c.notes ls).endCancelled := by
  rw [onItem.eq_def, if_pos h]
  split
  · exact ⟨[_], rfl⟩
  · exact ⟨[], rfl⟩

theorem onTornChunk_of_cancelled (h : c.tokenCancelled = true) (chunk : Bytes) (taken : Nat) :
    ∃ ls, c.onTornChunk chunk taken = (c.notes ls).endCancelled := by
  obtain ⟨ls, hitem⟩ := onItem_of_cancelled h (some (.ok chunk))
  refine ⟨ls, ?_⟩
  rw [onTornChunk]
  split
  · exact hitem
  · dsimp only
    rw [h, Bool.true_or, if_pos rfl, hitem]

theorem onTick_of_cancelled (h : c.tokenCancelled = true) (id : Nat) :
    c.onTick id = c.endCancelled := by
  rw [onTick, if_pos h]

theorem onAnswer_of_cancelled (h : c.tokenCancelled = true) (answer : Except TransportError Nat) :
    c.onAnswer answer = c.cancelledOpening := by
  rw [onAnswer.eq_def, if_pos h]

theorem endWait_of_cancelled (h : c.tokenCancelled = true) (r : Controller σ × StepResult) :
    c.endWait r = (r.1, some r.2) := by
  rw [endWait, if_pos h]

/-- The second controller has come no further with a session of the first: at most the request was
handed out, time passed, tokens were cancelled and lines logged. -/
structure StandsBy (c : Controller σ) (s : Session) (c' : Controller σ) : Prop where
  moves : Moves c c'
  session : ∃ phase, c'.session = some { s with phase } ∧ ({ s with phase } : Session).isLive = true
  trace : c'.trace = c.trace

namespace StandsBy

theorem waits (h : c.StandsBy s c') (w : Wait) (ls : List LogLine) :
    c.StandsBy s ((c'.pass w).notes ls) where
  moves := by
    have hnotes : Course [] (c'.pass w) ((c'.pass w).notes ls) := course_notes _ ls
    exact (h.moves.trans (course_pass c' w).moves).trans hnotes.moves
  session := by
    obtain ⟨phase, hs, hl⟩ := h.session
    exact ⟨phase, by rw [(keeps_notes _ ls).session, session_pass, hs], hl⟩
  trace := by
    obtain ⟨tokens, hpass, -⟩ := c'.exists_pass w
    rw [trace_eq_filter_outline, outline_notes, ← trace_eq_filter_outline, hpass]
    exact h.trace

/-- A handle that was cancelled meanwhile shows when the wait is over. -/
theorem tokenCancelled_pass (h : c.StandsBy s c') (hc : c.Numbered) (hs : c.session = some s)
    {w : Wait} (hmem : s.id ∈ w.cancelled) : (c'.pass w).tokenCancelled = true := by
  obtain ⟨phase, hs', -⟩ := h.session
  have hbegun := Nat.lt_of_lt_of_le (hc.session s hs) h.moves.later.begun
  rw [tokenCancelled_of_session ((session_pass c' w).trans hs')]
  exact isCancelled_pass hmem hbegun

end StandsBy

/-- A step that waits for an answer and finds its session cancelled then. -/
theorem exists_step_eq_finish_of_unopened (hc : c.Numbered) (hs : c.session = some s) {r : Request}
    (hp : s.phase = .unopened r) (hfree : c.isCancelled s.id = false) {w : Wait}
    (hmem : s.id ∈ w.cancelled) :
    ∃ c₀, c.StandsBy s c₀ ∧ c.step w = (c₀.finish .cancelled, some (.finished .cancelled)) := by
  have hasked : c.StandsBy s
      ({ c with session := some { s with phase := .opening } }.act (.asked r)) :=
    ⟨.single (.ask hs hp hfree), ⟨.opening, rfl, rfl⟩, (trace_act _ _).trans (List.append_nil _)⟩
  have hcancelled := hasked.tokenCancelled_pass hc hs hmem
  refine ⟨_, hasked.waits w [{ level := .debug, message := "Cancelled while opening stream" }], ?_⟩
  rw [step.eq_def, turn_of_free hs hfree, hp]
  dsimp only
  split
  · rw [onAnswer_of_cancelled hcancelled]
    rfl
  · rw [endWait_of_cancelled hcancelled]
    rfl

/-- A step that waits for a tick or an item and finds its session cancelled then. -/
theorem exists_step_eq_finish_of_reading (hc : c.Numbered) (hs : c.session = some s) {n : Nat}
    (hp : s.phase = .reading n) (hfree : c.isCancelled s.id = false) {w : Wait}
    (hmem : s.id ∈ w.cancelled) :
    ∃ c₀, c.StandsBy s c₀ ∧ c.step w = (c₀.finish .cancelled, some (.finished .cancelled)) := by
  have hhere : c.StandsBy s c := ⟨.refl, ⟨s.phase, hs, isLive_of_reading hp⟩, rfl⟩
  have hcancelled := hhere.tokenCancelled_pass hc hs hmem
  rw [step.eq_def, turn_of_free hs hfree, hp]
  dsimp only
  -- An item, a chunk, a tick and nothing at all: the token is looked at before any of them.
  split
  · rename_i item _
    obtain ⟨ls, hitem⟩ := onItem_of_cancelled hcancelled item
    exact ⟨_, hhere.waits w ls, by rw [hitem]; rfl⟩
  · rename_i chunk taken _
    obtain ⟨ls, hchunk⟩ := onTornChunk_of_cancelled hcancelled chunk taken
    exact ⟨_, hhere.waits w ls, by rw [hchunk]; rfl⟩
  · exact ⟨_, hhere.waits w [], by rw [onTick_of_cancelled hcancelled]; rfl⟩
  · exact ⟨_, hhere.waits w [], by rw [endWait_of_cancelled hcancelled]; rfl⟩

/-- A step whose session is cancelled before or during its wait ends the session where it stands. A
session whose request is out and unanswered has nothing to wait for. -/
theorem exists_step_eq_finish (hc : c.Numbered) (hs : c.session = some s) (hl : s.isLive = true)
    {w : Wait}
    (hcancelled : c.isCancelled s.id = true ∨ s.id ∈ w.cancelled ∧ s.phase ≠ .opening) :
    ∃ c₀, c.StandsBy s c₀ ∧ (c.isCancelled s.id = true → c₀ = c) ∧
      c.step w = (c₀.finish .cancelled, some (.finished .cancelled)) := by
  cases hfree : c.isCancelled s.id with
  | true =>
    exact ⟨c, ⟨.refl, ⟨s.phase, hs, hl⟩, rfl⟩, fun _ ↦ rfl, step_eq_finish hs hl hfree w⟩
  | false =>
    obtain ⟨hmem, hnotOpening⟩ := hcancelled.resolve_left (by rw [hfree]; exact Bool.false_ne_true)
    cases hp : s.phase with
    | ended e => cases hl.symm.trans (Session.isLive_of_ended hp)
    | opening => exact absurd hp hnotOpening
    | unopened r =>
      obtain ⟨c₀, hstands, hstep⟩ := exists_step_eq_finish_of_unopened hc hs hp hfree hmem
      exact ⟨c₀, hstands, nofun, hstep⟩
    | reading n =>
      obtain ⟨c₀, hstands, hstep⟩ := exists_step_eq_finish_of_reading hc hs hp hfree hmem
      exact ⟨c₀, hstands, nofun, hstep⟩

/-! ## What is told of it -/

/-- The event has nothing of an answer in it: it is a warning, the new state of a session that was
cancelled, or a word on the budget. -/
def IsAside (session : Nat) (e : ViewEvent) : Prop :=
  (∃ message, e = .notice .warning message) ∨ e = .stateChanged session .cancelled ∨
    ∃ tokens limit, e = .budgetNearLimit tokens limit

/-- What the second controller makes of a session of the first: it is cancelled with its text as it
was, no line more is read or heard, and the view is given the rest of the text in one last update.
-/
structure Drops (c : Controller σ) (s : Session) (c' : Controller σ) : Prop where
  session : ∃ s', c'.session = some s' ∧ s'.id = s.id ∧ s'.state = .cancelled ∧ s'.failure = none ∧
    s'.text.committed = s.text.committed ∧ s'.text.fragments = s.text.fragments ∧
    s'.lines.lineCount = s.lines.lineCount ∧ s'.bytesRead = s.bytesRead
  events : ∃ asides, (∀ e ∈ asides, IsAside s.id e) ∧
    c'.events = c.events ++
      .render s.id (.final s.text.pending s.text.committed .cancelled) :: asides

/-- Behind the last update of a session that is cancelled there are asides only. -/
theorem exists_asides {h : Chronicle} (ht : h.Tells c) (hs : c.session = some s)
    (hl : s.isLive = true) :
    ∃ asides, (∀ e ∈ asides, IsAside s.id e) ∧
      (c.finish .cancelled).events = c.events ++
        .render s.id (.final s.text.pending s.text.committed .cancelled) :: asides := by
  obtain ⟨k, hending, hdelta, hlater, hevents, -⟩ := ht.exists_events_finish hs hl .cancelled
  simp only [Closing.events, hending, hdelta, hlater, List.cons_append] at hevents
  refine ⟨_, ?_, hevents⟩
  intro e he
  simp only [Ending.events, Check.events, Offer.events, List.flatMap_nil, List.append_nil,
    List.mem_append, List.mem_cons, List.mem_flatMap, List.mem_map, List.not_mem_nil,
    or_false] at he
  rcases he with (⟨o, -, refusal, -, rfl⟩ | rfl) | ⟨n, -, rfl⟩
  · exact .inl ⟨_, rfl⟩
  · exact .inr (.inl rfl)
  · exact .inr (.inr ⟨_, _, rfl⟩)

theorem Drops.of_standsBy {h : Chronicle} (ht : h.Tells c) {c₀ : Controller σ}
    (hstands : c.StandsBy s c₀) : c.Drops s (c₀.finish .cancelled) := by
  obtain ⟨hmoves, ⟨phase, hs, hl⟩, htrace⟩ := hstands
  obtain ⟨h₀, ht₀, -, -⟩ := ht.moves hmoves
  have hkeeps := keeps_finish hs hl .cancelled
  constructor
  · refine ⟨_, hkeeps.session, rfl, rfl, rfl, ?_, ?_, rfl, rfl⟩
    all_goals
      rw [Session.ended, PaintSchedule.finish]
      split_ifs <;> rfl
  · obtain ⟨asides, hasides, hevents⟩ := exists_asides ht₀ hs hl
    refine ⟨asides, hasides, hevents.trans ?_⟩
    rw [events_eq_filterMap_trace, htrace, ← events_eq_filterMap_trace]

/-! ## The rest of its way -/

/-- The session is streaming, with its token cancelled and that text. -/
def Doomed (c : Controller σ) (session : Nat) (text : String) : Prop :=
  ∃ s, c.session = some s ∧ s.id = session ∧ s.isLive = true ∧ c.isCancelled session = true ∧
    s.text.committed = text

/-- The end that awaits a session that is doomed. -/
def cancelledFinale (session : Nat) (text : String) : Finale :=
  { session, text, state := .cancelled }

namespace Doomed

variable {h : Chronicle} {n : Nat} {text : String}

theorem congr (hd : c.Doomed n text) (hsession : c'.session = c.session)
    (htokens : c.cancelledTokens ⊆ c'.cancelledTokens) : c'.Doomed n text := by
  obtain ⟨s, hs, hid, hl, hcancelled, htext⟩ := hd
  exact ⟨s, hsession.trans hs, hid, hl, isCancelled_of_subset htokens hcancelled, htext⟩

theorem isStreaming (hd : c.Doomed n text) : c.isStreaming = true := by
  obtain ⟨s, hs, -, hl, -⟩ := hd
  exact isStreaming_iff.mpr ⟨s, hs, hl⟩

/-- The session ends as it had to. -/
theorem finish (hd : c.Doomed n text) (ht : h.Tells c) :
    cancelledFinale n text ∈ (c.finish .cancelled).finales := by
  obtain ⟨s, hs, rfl, hl, -, rfl⟩ := hd
  rw [ht.finales_finish hs hl]
  exact List.mem_append_right _ List.mem_cons_self

theorem noteFinish (hd : c.Doomed n text) (ht : h.Tells c) (l : LogLine) :
    cancelledFinale n text ∈ ((c.note l).finish .cancelled).finales := by
  have hnoted : (c.note l).Doomed n text := hd.congr rfl (List.Subset.refl _)
  exact hnoted.finish (ht.congr rfl (trace_note c l) rfl rfl)

/-- A new message ends the session before it. -/
theorem finale_of_prompt (hd : c.Doomed n text) (ht : h.Tells c) {op : Op σ} {p : Prompt}
    (hp : op.prompt? c.config = some p) : cancelledFinale n text ∈ (c.apply op).finales := by
  obtain ⟨s, hs, rfl, hl, -, rfl⟩ := hd
  exact ht.finale_mem_of_prompt hs hl hp

/-- An operation that begins no session leaves the session doomed or ends it, and no request is
handed out. -/
theorem apply_of_no_prompt (hd : c.Doomed n text) (ht : h.Tells c) {op : Op σ}
    (hop : op.prompt? c.config = none) :
    ((c.apply op).Doomed n text ∨
        cancelledFinale n text ∈ (c.apply op).finales ∧ (c.apply op).isStreaming = false) ∧
      (c.apply op).requests = c.requests := by
  cases htouches : op.touches with
  | false =>
    obtain ⟨hsession, ks, houtline⟩ := apply_of_aloof ht.watched hop htouches
    exact ⟨.inl (hd.congr hsession (c.later_apply op).tokens), requests_of_checks houtline⟩
  | true =>
    -- Each of the three ends the session, and the end of a session hands out nothing.
    have hends {c₀ : Controller σ} (hfinale : cancelledFinale n text ∈ c₀.finales)
        (hrest : c₀.isStreaming = false) (hrequests : c₀.requests = c.requests) :
        (c₀.Doomed n text ∨ cancelledFinale n text ∈ c₀.finales ∧ c₀.isStreaming = false) ∧
          c₀.requests = c.requests :=
      ⟨.inr ⟨hfinale, hrest⟩, hrequests⟩
    cases op with
    | step w =>
      have hfinale := hd.finish ht
      obtain ⟨s, hs, rfl, hl, hcancelled, -⟩ := hd
      have hstep : c.apply (.step w) = c.finish .cancelled := by
        rw [Controller.apply, step_eq_finish hs hl hcancelled]
      rw [hstep]
      exact hends hfinale (isStreaming_finish _ _) (ht.requests_finish _)
    | cancel =>
      have hcancel : c.apply .cancel = c.finish .cancelled := by
        rw [Controller.apply, cancel, if_pos hd.isStreaming]
      rw [hcancel]
      exact hends (hd.finish ht) (isStreaming_finish _ _) (ht.requests_finish _)
    | drop =>
      rw [Controller.apply, drop, if_pos hd.isStreaming]
      exact hends (hd.noteFinish ht _) (isStreaming_finish _ _) (ht.requests_noteFinish _ _)
    | _ => cases htouches

/-- Whatever is done, the session stays doomed or is cancelled. -/
theorem apply (hd : c.Doomed n text) (ht : h.Tells c) (op : Op σ) :
    (c.apply op).Doomed n text ∨ cancelledFinale n text ∈ (c.apply op).finales := by
  cases hop : op.prompt? c.config with
  | none => exact (hd.apply_of_no_prompt ht hop).1.imp_right And.left
  | some p => exact .inr (hd.finale_of_prompt ht hop)

theorem run (hd : c.Doomed n text) (ht : h.Tells c) (ops : List (Op σ)) :
    (c.run ops).Doomed n text ∨ cancelledFinale n text ∈ (c.run ops).finales := by
  induction ops generalizing c h with
  | nil => exact .inl hd
  | cons op ops ih =>
    obtain ⟨h', ht', -, -⟩ := ht.apply op
    -- A finale is there for good, so the induction goes on only as long as there is none.
    rcases hd.apply ht op with hd' | hfinale
    · exact ih hd' ht'
    · exact .inr ((finales_mono (later_run _ ops).deeds).subset hfinale)

/-- No request is handed out for a session that is doomed. -/
theorem requests_run (hd : c.Doomed n text) (ht : h.Tells c) {ops : List (Op σ)}
    (hops : ∀ op ∈ ops, op.prompt? c.config = none) : (c.run ops).requests = c.requests := by
  induction ops generalizing c h with
  | nil => rfl
  | cons op ops ih =>
    obtain ⟨hop, hops⟩ := List.forall_mem_cons.mp hops
    obtain ⟨h', ht', -, -⟩ := ht.apply op
    rw [← (c.later_apply op).config] at hops
    obtain ⟨hd' | ⟨-, hrest⟩, hrequests⟩ := hd.apply_of_no_prompt ht hop
    · exact (ih hd' ht' hops).trans hrequests
    · obtain ⟨-, ks, houtline⟩ := run_at_rest ht'.watched hrest hops
      exact (requests_of_checks houtline).trans hrequests

end Doomed

/-! ## Cancelling wins -/

/-- The session with that number can be found over only as cancelled and with that text: where the
view was told of its end, and where it is the current session. -/
def OnlyCancelled (c : Controller σ) (session : Nat) (text : String) : Prop :=
  (∀ f ∈ c.finales, f.session = session → f.state = .cancelled ∧ f.text = text) ∧
    ∀ s, c.session = some s → s.id = session → s.state ≠ .completed ∧ s.state ≠ .errored

theorem onlyCancelled_of_finale {h : Chronicle} (ht : h.Tells c) {n : Nat} {text : String}
    (hfinale : cancelledFinale n text ∈ c.finales) : c.OnlyCancelled n text := by
  constructor
  · intro f hf hid
    rw [ht.finale_unique hf hfinale hid]
    exact ⟨rfl, rfl⟩
  · intro s hs hid
    obtain ⟨e, he, hstate, -⟩ := ht.exists_ending_of_finale hs hfinale hid.symm
    rw [Session.state_of_ended he, hstate]
    exact ⟨nofun, nofun⟩

theorem Doomed.onlyCancelled {h : Chronicle} (ht : h.Tells c) {n : Nat} {text : String}
    (hd : c.Doomed n text) : c.OnlyCancelled n text := by
  obtain ⟨s, hs, rfl, hl, -, -⟩ := hd
  constructor
  · intro f hf hid
    obtain ⟨e, he, -⟩ := ht.exists_ending_of_finale hs hf hid
    cases hl.symm.trans (Session.isLive_of_ended he)
  · intro s' hs' _
    cases hs.symm.trans hs'
    rw [s.state_eq_streaming_iff.mpr hl]
    exact ⟨nofun, nofun⟩

/-- **Cancelling wins.** A session is streaming, and its token is cancelled before a step or while
the step waits. Then the step ends the session as cancelled, whatever it is that ends the wait, and
no run makes anything else of the session. A session that was cancelled before the step is never
asked for either, and nothing done in place of the step makes anything else of it. -/
theorem step_cancelled (hc : c.Reached) (hs : c.session = some s) (hl : s.isLive = true) (w : Wait)
    (hcancelled : c.isCancelled s.id = true ∨ s.id ∈ w.cancelled ∧ s.phase ≠ .opening) :
    (c.step w).2 = some (.finished .cancelled) ∧
      c.Drops s (c.step w).1 ∧
      (∀ ops, cancelledFinale s.id s.text.committed ∈ ((c.step w).1.run ops).finales ∧
        ((c.step w).1.run ops).OnlyCancelled s.id s.text.committed) ∧
      (c.isCancelled s.id = true →
        (∀ ops, (∀ op ∈ ops, op.prompt? c.config = none) → (c.run ops).requests = c.requests) ∧
          ∀ ops, (c.run ops).OnlyCancelled s.id s.text.committed) := by
  obtain ⟨h, ht⟩ := hc.tells
  obtain ⟨c₀, hstands, -, hstep⟩ := exists_step_eq_finish hc.numbered hs hl hcancelled
  obtain ⟨h₀, ht₀, -, -⟩ := ht.moves hstands.moves
  obtain ⟨phase, hs₀, hl₀⟩ := hstands.session
  have hfinale : cancelledFinale s.id s.text.committed ∈ (c₀.finish .cancelled).finales := by
    rw [ht₀.finales_finish hs₀ hl₀]
    exact List.mem_append_right _ List.mem_cons_self
  obtain ⟨h₁, ht₁, -, -⟩ := ht₀.moves (.single (.finish .cancelled hs₀ hl₀))
  rw [hstep]
  refine ⟨rfl, .of_standsBy ht hstands, fun ops ↦ ?_, fun hbefore ↦ ?_⟩
  · obtain ⟨h', ht', -, -⟩ := ht₁.run ops
    have hkept := (finales_mono (later_run (c₀.finish .cancelled) ops).deeds).subset hfinale
    exact ⟨hkept, onlyCancelled_of_finale ht' hkept⟩
  · have hd : c.Doomed s.id s.text.committed := ⟨s, hs, rfl, hl, hbefore, rfl⟩
    refine ⟨fun ops hops ↦ hd.requests_run ht hops, fun ops ↦ ?_⟩
    obtain ⟨h', ht', -, -⟩ := ht.run ops
    rcases hd.run ht ops with hd' | hkept
    · exact hd'.onlyCancelled ht'
    · exact onlyCancelled_of_finale ht' hkept

/-- A run to where the end of an answer is awaited. -/
def awaitingEnd : List (Op History) :=
  [.begin { message := "hi" }, .step { now := 0, wake := .answer (.ok 0) }]

/-- The last event of the answer is there, and the session is cancelled all the same. -/
def lateEnd : Wait where
  cancelled := [0]
  now := 0
  wake := .item (some (.ok "data: \x7b\"content\":\"a\",\"done\":true\x7d\n".toUTF8.toList))

/-- A session that is cancelled while its request waits to be handed out. -/
def cancelledUnasked : List (Op History) :=
  [.begin { message := "hi" }, .cancelHandle 0]

theorem step_cancelled_lateEnd :
    (∃ s, ((new History.archive {} {} "scripted").run awaitingEnd).session = some s ∧
      (((new History.archive {} {} "scripted").run awaitingEnd).step lateEnd).2 =
        some (.finished .cancelled) ∧
      ((new History.archive {} {} "scripted").run awaitingEnd).Drops s
        (((new History.archive {} {} "scripted").run awaitingEnd).step lateEnd).1) ∧
    ∀ ops : List (Op History), (∀ op ∈ ops, op.prompt? {} = none) →
      (((new History.archive {} {} "scripted").run cancelledUnasked).run ops).requests = [] := by
  constructor
  · have hstands : ((new History.archive {} {} "scripted").run awaitingEnd).session.map
        (fun s ↦ (s.id, s.isLive, s.stream?)) = some (0, true, some 0) := by decide +kernel
    obtain ⟨s, hs, hstands⟩ := Option.map_eq_some_iff.mp hstands
    obtain ⟨hid, hstands⟩ := Prod.mk.inj hstands
    obtain ⟨hl, hstream⟩ := Prod.mk.inj hstands
    have hphase : s.phase ≠ .opening := by
      intro hopening
      rw [Session.stream?, hopening] at hstream
      cases hstream
    have hmem : s.id ∈ lateEnd.cancelled := hid ▸ List.mem_cons_self
    obtain ⟨hresult, hdrops, -⟩ :=
      step_cancelled ⟨_, _, _, _, _, rfl⟩ hs hl lateEnd (.inr ⟨hmem, hphase⟩)
    exact ⟨s, hs, hresult, hdrops⟩
  · intro ops hops
    have hstands : ((new History.archive {} {} "scripted").run cancelledUnasked).session.map
        (fun s ↦ (s.isLive,
          ((new History.archive {} {} "scripted").run cancelledUnasked).isCancelled s.id)) =
        some (true, true) := by decide +kernel
    have hnone : ((new History.archive {} {} "scripted").run cancelledUnasked).requests = [] := by
      decide +kernel
    have hconfig := (later_run (new History.archive {} {} "scripted") cancelledUnasked).config
    obtain ⟨s, hs, hstands⟩ := Option.map_eq_some_iff.mp hstands
    obtain ⟨hl, hcancelled⟩ := Prod.mk.inj hstands
    obtain ⟨-, -, -, hbefore⟩ :=
      step_cancelled ⟨_, _, _, _, _, rfl⟩ hs hl lateEnd (.inl hcancelled)
    rw [← hnone]
    refine (hbefore hcancelled).1 ops fun op hop ↦ ?_
    rw [hconfig]
    exact hops op hop

end ChatStream.Controller
