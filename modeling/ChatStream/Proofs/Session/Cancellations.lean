import ChatStream.Proofs.Session.Cancelled

/-!
# One way to be cancelled

A session is cancelled by its controller, by its handle, by the loss of its controller, and by the
next message. Each of the four finds out by itself that there is a session to cancel, and each logs
its own reason, so it has to be shown that they come to the same end: `cancellations_agree`. What
that end is, `Cancels` says.

## What was done before

The four differ in what they log before the session ends. A controller writes down what it does and
never reads it again, so whatever is done next is done in the same way whatever was done before.
`preceded` puts deeds in front of all others, and each part of an end, and of a beginning, commutes
with it.
-/

namespace ChatStream.Controller

variable {σ : Type} {c c' : Controller σ} {s : Session}

/-! ## What was done before -/

/-- The controller, had it done something more before all else. -/
def preceded (c : Controller σ) (ds : List Deed) : Controller σ :=
  { c with deeds := ds ++ c.deeds }

theorem act_preceded (c : Controller σ) (ds : List Deed) (d : Deed) :
    (c.preceded ds).act d = (c.act d).preceded ds := by
  simp only [act, preceded, List.append_assoc]

theorem note_preceded (c : Controller σ) (ds : List Deed) (l : LogLine) :
    (c.preceded ds).note l = (c.note l).preceded ds := act_preceded c ds _

theorem notes_preceded (c : Controller σ) (ds : List Deed) (ls : List LogLine) :
    (c.preceded ds).notes ls = (c.notes ls).preceded ds := by
  induction ls generalizing c with
  | nil => rfl
  | cons l ls ih =>
    have hhead (c : Controller σ) : c.notes (l :: ls) = (c.note l).notes ls := rfl
    rw [hhead, hhead, note_preceded, ih]

theorem tell_preceded (c : Controller σ) (ds : List Deed) (e : ViewEvent) :
    (c.preceded ds).tell e = (c.tell e).preceded ds := by
  have hwatched : (c.preceded ds).watched = c.watched := rfl
  rw [tell, tell, hwatched, act_preceded, note_preceded]
  split_ifs <;> rfl

theorem measure_preceded (c : Controller σ) (ds : List Deed) :
    (c.preceded ds).measure.1 = c.measure.1.preceded ds := by
  have hnoticed (c : Controller σ) (d : Deed) (l : LogLine) (e : ViewEvent) :
      (((c.preceded ds).act d).note l).tell e = (((c.act d).note l).tell e).preceded ds := by
    rw [act_preceded, note_preceded, tell_preceded]
  -- The archive, its state and the budget are all that a check looks at.
  have hread : ((c.preceded ds).budget.observe ((c.preceded ds).archive.usage (c.preceded ds).store
      ((c.preceded ds).archive.size (c.preceded ds).store)).2).2 =
        (c.budget.observe (c.archive.usage c.store (c.archive.size c.store)).2).2 := rfl
  cases hnotice : (c.budget.observe (c.archive.usage c.store (c.archive.size c.store)).2).2 with
  | none =>
    simp only [measure, hread.trans hnotice, hnotice]
    exact act_preceded { c with
      store := (c.archive.usage c.store (c.archive.size c.store)).1
      budget := (c.budget.observe (c.archive.usage c.store (c.archive.size c.store)).2).1 } ds _
  | some n =>
    simp only [measure, hread.trans hnotice, hnotice]
    exact hnoticed { c with
      store := (c.archive.usage c.store (c.archive.size c.store)).1
      budget := (c.budget.observe (c.archive.usage c.store (c.archive.size c.store)).2).1 } _ _ _

theorem commit_preceded (c : Controller σ) (ds : List Deed) (r : Record) :
    (c.preceded ds).commit r = (c.commit r).preceded ds := by
  have hstored (c : Controller σ) (ls : List LogLine) (d : Deed) :
      ((c.preceded ds).notes ls).act d = ((c.notes ls).act d).preceded ds := by
    rw [notes_preceded, act_preceded]
  have hrefused (c : Controller σ) (ls : List LogLine) (d : Deed) (l : LogLine) (e : ViewEvent) :
      ((((c.preceded ds).notes ls).act d).note l).tell e =
        ((((c.notes ls).act d).note l).tell e).preceded ds := by
    rw [hstored, note_preceded, tell_preceded]
  simp only [commit]
  have hreceipt : (c.preceded ds).archive.commit (c.preceded ds).store r =
      c.archive.commit c.store r := rfl
  rw [hreceipt]
  split
  · exact hstored { c with store := (c.archive.commit c.store r).state } _ _
  · exact hrefused { c with store := (c.archive.commit c.store r).state } _ _ _ _

theorem keepRecords_preceded (c : Controller σ) (ds : List Deed) (s : Session) (e : Ending) :
    (c.preceded ds).keepRecords s e = (c.keepRecords s e).preceded ds := by
  have hmade (c : Controller σ) (question answer : Record) :
      ((c.preceded ds).commit question).commit answer =
        ((c.commit question).commit answer).preceded ds := by
    rw [commit_preceded, commit_preceded]
  have hconfig : (c.preceded ds).config = c.config := rfl
  by_cases hkept : keepsAnswer c.config e s.text.committed = true
  · simp only [keepRecords, makeRecord, hconfig, hkept, ↓reduceIte]
    exact hmade { c with recordsMade := c.recordsMade + 1 + 1 } _ _
  · simp only [keepRecords, makeRecord, hconfig, hkept, Bool.false_eq_true, ↓reduceIte]
    exact commit_preceded { c with recordsMade := c.recordsMade + 1 } _ _

theorem close_preceded (c : Controller σ) (ds : List Deed) (s : Session) (e : Ending) :
    (c.preceded ds).close s e = (c.close s e).preceded ds := by
  have hlogged (c : Controller σ) (ls : List LogLine) (l : LogLine) :
      ((c.preceded ds).notes ls).note l = ((c.notes ls).note l).preceded ds := by
    rw [notes_preceded, note_preceded]
  have hwithdraw : (c.preceded ds).withdraw s.id e = (c.withdraw s.id e).preceded ds := by
    rw [withdraw, withdraw, cancelToken_eq, cancelToken_eq]
    by_cases he : e = .cancelled
    · rw [if_pos he, if_pos he]
      rfl
    · rw [if_neg he, if_neg he]
  rw [close, close, hwithdraw]
  exact hlogged { c.withdraw s.id e with session := some (s.ended e) } _ _

/-- **The end of a session** is the same whatever was done before. -/
theorem finish_preceded (c : Controller σ) (ds : List Deed) (e : Ending) :
    (c.preceded ds).finish e = (c.finish e).preceded ds := by
  have hsession : (c.preceded ds).session = c.session := rfl
  cases hs : c.session with
  | none => rw [finish_of_none (hsession.trans hs), finish_of_none hs]
  | some s =>
    cases hl : s.isLive with
    | false => rw [finish_of_not_live (hsession.trans hs) hl, finish_of_not_live hs hl]
    | true =>
      have hupdate (c : Controller σ) (update : Option Update) :
          (c.preceded ds).tellUpdate s.id update = (c.tellUpdate s.id update).preceded ds := by
        cases update with
        | none => rfl
        | some u => exact tell_preceded c ds _
      have hending (c : Controller σ) :
          (c.preceded ds).tellEnding e = (c.tellEnding e).preceded ds := by
        cases e with
        | errored f => exact tell_preceded c ds _
        | completed | cancelled => rfl
      rw [finish_of_live (hsession.trans hs) hl, finish_of_live hs hl, close_preceded, hupdate,
        keepRecords_preceded, tell_preceded, hending, measure_preceded]

theorem launch_preceded (c : Controller σ) (ds : List Deed) (p : Prompt) :
    (c.preceded ds).launch p = (c.launch p).preceded ds := by
  have htold (c : Controller σ) (l : LogLine) (e e' : ViewEvent) :
      (((c.preceded ds).note l).tell e).tell e' =
        (((c.note l).tell e).tell e').preceded ds := by
    rw [note_preceded, tell_preceded, tell_preceded]
  exact htold (c.withSession p) _ _ _

/-! ## Controllers that differ in their logs -/

/-- The second controller is the first, but may have logged something else. -/
structure Agrees (c c' : Controller σ) : Prop where
  outline : c'.outline = c.outline
  rest : c' = { c with deeds := c'.deeds }

namespace Agrees

theorem note (c : Controller σ) (l : LogLine) : c.Agrees (c.note l) := ⟨outline_note c l, rfl⟩

/-- What is done in the same way whatever was done before leaves no more of a difference. -/
theorem map (h : c.Agrees c') (f : Controller σ → Controller σ)
    (hf : ∀ (c : Controller σ) (ds : List Deed), f (c.preceded ds) = (f c).preceded ds) :
    (f c).Agrees (f c') := by
  have hpast (c : Controller σ) : c = preceded { c with deeds := [] } c.deeds := by
    rw [preceded, List.append_nil]
  have houtline (c : Controller σ) (ds : List Deed) :
      (c.preceded ds).outline = ds.filter Deed.isOutlined ++ c.outline := by
    rw [Controller.outline, preceded, List.filter_append, Controller.outline]
  have hempty : ({ c' with deeds := [] } : Controller σ) = { c with deeds := [] } := by
    rw [h.rest]
  have hc' := hpast c'
  rw [hempty] at hc'
  rw [hpast c, hc', hf, hf]
  constructor
  · rw [houtline, houtline, ← Controller.outline, ← Controller.outline, h.outline]
  · rfl

theorem finish (h : c.Agrees c') (e : Ending) : (c.finish e).Agrees (c'.finish e) :=
  h.map (fun c ↦ c.finish e) fun c ds ↦ finish_preceded c ds e

theorem launch (h : c.Agrees c') (p : Prompt) : (c.launch p).Agrees (c'.launch p) :=
  h.map (fun c ↦ c.launch p) fun c ds ↦ launch_preceded c ds p

end Agrees

/-! ## The end of a cancelled session -/

/-- The second controller has cancelled the session of the first. The stream is let go, and no
failure is held against the session. The view was given the rest of the text; then come the records
with what the archive said to each, the new state, and what a check of the budget brings. -/
structure Cancels (c : Controller σ) (s : Session) (c' : Controller σ) : Prop where
  session : ∃ s', c'.session = some s' ∧ s'.id = s.id ∧ s'.state = .cancelled ∧
    s'.stream? = none ∧ s'.failure = none ∧ s'.text.committed = s.text.committed ∧
    s'.text.pending = "" ∧ s'.lines.carry = .empty ∧ s'.schedule.waiting = none
  token : c'.isCancelled s.id = true
  summarize : c'.budget.summarize = c.budget.summarize
  outline : ∃ k : Closing, k.ending = .cancelled ∧ k.delta = s.text.pending ∧ k.later = [] ∧
    k.offers.map Offer.record = c.recordsOf s .cancelled ∧
    (∀ o ∈ k.offers, Answered c.archive o) ∧
    c'.outline = c.outline ++ k.deeds s.id s.text.committed

theorem cancels_finish {h : Chronicle} (ht : h.Tells c) (hs : c.session = some s)
    (hl : s.isLive = true) : c.Cancels s (c.finish .cancelled) := by
  have hkeeps := keeps_finish hs hl .cancelled
  have hflush : s.schedule.finish s.text .cancelled =
      ({ s.schedule with closed := true, waiting := none }, { s.text with pending := "" },
        some (.final s.text.pending s.text.committed .cancelled)) := by
    rw [PaintSchedule.finish, ht.closed_eq_false hs hl, if_neg Bool.false_ne_true]
    rfl
  constructor
  · refine ⟨_, hkeeps.session, rfl, rfl, rfl, rfl, ?_⟩
    simp [Session.ended, Ending.state, hflush, LineReader.clear]
  · rw [isCancelled, hkeeps.cancelledTokens]
    exact isCancelled_cancelToken c s.id
  · exact hkeeps.summarize
  · exact ht.exists_closing hs hl .cancelled

/-- What is logged makes no difference. -/
theorem Cancels.of_agrees (h : c.Cancels s c') {c'' : Controller σ} (hagrees : c'.Agrees c'') :
    c.Cancels s c'' where
  session := by
    rw [hagrees.rest]
    exact h.session
  token := by
    rw [hagrees.rest]
    exact h.token
  summarize := by
    rw [hagrees.rest]
    exact h.summarize
  outline := by
    rw [hagrees.outline]
    exact h.outline

/-- The end of a session cancels its token, if nobody has before. -/
theorem finish_cancelToken (hs : c.session = some s) (hl : s.isLive = true) :
    (c.cancelToken s.id).finish .cancelled = c.finish .cancelled := by
  have hagain : (c.cancelToken s.id).cancelToken s.id = c.cancelToken s.id := by
    rw [cancelToken, if_pos (isCancelled_cancelToken c s.id)]
  have hclose : (c.cancelToken s.id).close s .cancelled = c.close s .cancelled := by
    rw [close, close, withdraw, withdraw, if_pos rfl, if_pos rfl, hagain]
  have hs' : (c.cancelToken s.id).session = some s := by
    rw [cancelToken_eq]
    exact hs
  rw [finish_of_live hs' hl, finish_of_live hs hl, hclose]

/-! ## Four ways to the same end -/

theorem settle_of_rest (hrest : c.isStreaming = false) : c.settle = c := by
  rw [settle, hrest, if_neg Bool.false_ne_true]

/-- What a new message settles is what was cancelled, but for a log line. -/
theorem agrees_settle (hstreaming : c.isStreaming = true) :
    (c.finish .cancelled).Agrees c.settle := by
  rw [settle, if_pos hstreaming]
  exact (Agrees.note c _).finish .cancelled

/-- A message that is taken begins a session behind what is settled. -/
theorem begin_eq_ok {p : Prompt} {n : Nat} (hbegin : c.begin p = .ok (c', n)) :
    p.isTaken c.config = true ∧ c' = c.settle.launch p ∧ n = c.settle.sessionsBegun := by
  cases htaken : p.isTaken c.config with
  | false =>
    obtain ⟨e, he⟩ := exists_begin_eq_error htaken
    cases he.symm.trans hbegin
  | true =>
    rw [begin_of_isTaken htaken] at hbegin
    cases hbegin
    exact ⟨rfl, rfl, rfl⟩

/-- A message that is taken is taken by the cancelled controller as well, with the same end. -/
theorem begin_after_finish {p : Prompt} {n : Nat} (hstreaming : c.isStreaming = true)
    (hbegin : c.begin p = .ok (c', n)) :
    (c.finish .cancelled).begin p = .ok ((c.finish .cancelled).launch p, n) ∧
      ((c.finish .cancelled).launch p).Agrees c' ∧ (c.finish .cancelled).sessionsBegun = n := by
  have hsettled := agrees_settle hstreaming
  have hconfig : (c.finish .cancelled).config = c.config := by
    rw [← c.config_settle, hsettled.rest]
  have hbegun : c.settle.sessionsBegun = (c.finish .cancelled).sessionsBegun := by
    rw [hsettled.rest]
  obtain ⟨htaken, rfl, rfl⟩ := begin_eq_ok hbegin
  rw [begin_of_isTaken (hconfig ▸ htaken), settle_of_rest (isStreaming_finish c _), hbegun]
  exact ⟨rfl, hsettled.launch p, rfl⟩

/-- **One way to be cancelled.** A session is streaming, wherever it stands. Whether its controller
cancels it, its handle is cancelled and a step taken, or the controller is given up, the same is
done but for the log: the session is cancelled. A message that is taken then does the same and
begins a session behind it, as it would after any of the others. -/
theorem cancellations_agree (hc : c.Reached) (hs : c.session = some s) (hl : s.isLive = true) :
    c.Cancels s c.cancel.1 ∧ c.cancel.2 = true ∧
      (∀ w, (c.cancelHandle s.id).step w = (c.cancel.1, some (.finished .cancelled))) ∧
      c.cancel.1.Agrees c.drop ∧
      ∀ p c' n, c.begin p = .ok (c', n) →
        ∃ c'' model, c.cancel.1.begin p = .ok (c'', n) ∧ c''.Agrees c' ∧
          c'.cancelledTokens = c.cancel.1.cancelledTokens ∧
          c'.outline = c.cancel.1.outline ++
            [.shown (.sessionStarted n model), .shown (.stateChanged n .streaming)] := by
  obtain ⟨h, ht⟩ := hc.tells
  have hstreaming : c.isStreaming = true := isStreaming_iff.mpr ⟨s, hs, hl⟩
  have hcancel : c.cancel = (c.finish .cancelled, true) := by
    rw [cancel, if_pos hstreaming]
  have hcancels := cancels_finish ht hs hl
  rw [hcancel]
  refine ⟨hcancels, rfl, fun w ↦ ?_, ?_, fun p c' n hbegin ↦ ?_⟩
  · have hhandle : c.cancelHandle s.id = c.cancelToken s.id := by
      rw [cancelHandle, if_pos (hc.numbered.session s hs)]
    have hs' : (c.cancelToken s.id).session = some s := by
      rw [cancelToken_eq]
      exact hs
    rw [hhandle, step_eq_finish hs' hl (isCancelled_cancelToken c s.id), finish_cancelToken hs hl]
  · rw [drop, if_pos hstreaming]
    exact (Agrees.note c _).finish .cancelled
  · obtain ⟨hbegin', hagrees, rfl⟩ := begin_after_finish hstreaming hbegin
    have hwatched := (keeps_finish hs hl .cancelled).watched.trans ht.watched
    have htokens : c'.cancelledTokens = (c.finish .cancelled).cancelledTokens := by
      rw [hagrees.rest]
      exact (keeps_launch _ p).cancelledTokens
    exact ⟨_, _, hbegin', hagrees, htokens, hagrees.outline.trans (outline_launch hwatched p)⟩

/-- Half a line is read and half of the text is painted, and the end of the answer is there. -/
def halfHeard : List (Op History) :=
  [.begin { message := "hi" }, .step { now := 0, wake := .answer (.ok 0) },
    .step { now := 0, wake := .item (some (.ok
      "data: \x7b\"content\":\"a\"\x7d\n".toUTF8.toList)) },
    .step { now := 20000000, wake := .tick },
    .step { now := 30000000, wake := .item (some (.ok
      "data: \x7b\"content\":\"b\"\x7d\ndata: \x7b\"do".toUTF8.toList)) }]

theorem cancellations_agree_halfHeard :
    ∃ s c' n, ((new History.archive {} {} "scripted").run halfHeard).session = some s ∧
      s.isLive = true ∧
      ((new History.archive {} {} "scripted").run halfHeard).Cancels s
        ((new History.archive {} {} "scripted").run halfHeard).cancel.1 ∧
      ((new History.archive {} {} "scripted").run halfHeard).begin { message := "next" } =
        .ok (c', n) ∧
      ∃ c'', ((new History.archive {} {} "scripted").run halfHeard).cancel.1.begin
        { message := "next" } = .ok (c'', n) ∧ c''.Agrees c' := by
  obtain ⟨s, hs, hl⟩ := isStreaming_iff.mp
    (show ((new History.archive {} {} "scripted").run halfHeard).isStreaming = true by
      decide +kernel)
  have hconfig := (later_run (new History.archive {} {} "scripted") halfHeard).config
  have htaken : Prompt.isTaken ((new History.archive {} {} "scripted").run halfHeard).config
      { message := "next" } = true := by
    rw [hconfig]
    decide +kernel
  have hbegin := begin_of_isTaken htaken
  obtain ⟨hcancels, -, -, -, hbegins⟩ := cancellations_agree ⟨_, _, _, _, _, rfl⟩ hs hl
  obtain ⟨c'', -, hbegin', hagrees, -, -⟩ := hbegins _ _ _ hbegin
  exact ⟨s, _, _, hs, hl, hcancels, hbegin, c'', hbegin', hagrees⟩

end ChatStream.Controller
