import ChatStream.Proofs.Session.Numbers
import ChatStream.Proofs.Session.Protocol
import ChatStream.Proofs.Wire.Lines
import ChatStream.Session.Drive

/-!
# The outcome of a session

What becomes of a session can be said without readers, ticks and phases: decode the bytes as a
whole, cut them into lines, read each line, and stop at the first event that ends an answer.
`Supply.verdict` says it so, and `drive_eq_verdict` says that a session comes to nothing else,
however the bytes were cut and whenever it was painted meanwhile.

## The argument

`Stands` is what the rest of the way depends on while the session is live: the wire format, the
phase, the carry and the text so far. A tick leaves it as it is, and lines add their fragments to
the text. So a drive from a standing session comes to the verdict on what the carry and the chunks
to come have in store, and with each chunk the lines and the text of that verdict only move from
the one to the other.
-/

namespace ChatStream

/-! ## Verdicts -/

namespace Event

/-- The events up to the first that ends an answer, which is the last one heard. -/
def heard : List Event → List Event
  | [] => []
  | e :: rest => e :: if e.isTerminal then [] else heard rest

/-- The text of the events heard. -/
def heardText (es : List Event) : String := .join ((heard es).filterMap text)

theorem heardText_nil : heardText [] = "" := rfl

theorem heardText_cons (e : Event) (es : List Event) :
    heardText (e :: es) = e.text.getD "" ++ if e.isTerminal then "" else heardText es := by
  rw [heardText, heard, List.filterMap_cons]
  cases e.text with
  | none =>
    rw [Option.getD_none, String.empty_append]
    split_ifs <;> rfl
  | some t =>
    dsimp only
    rw [Option.getD_some, String.join_cons]
    split_ifs <;> rfl

/-- Behind an event that ends the answer nothing is heard. -/
theorem heardText_append (es fs : List Event) :
    heardText (es ++ fs) =
      heardText es ++ if (es.findSome? ending?).isSome then "" else heardText fs := by
  induction es with
  | nil => simp [heardText_nil]
  | cons e es ih =>
    rw [List.cons_append, heardText_cons, heardText_cons, List.findSome?_cons, isTerminal_eq, ih]
    cases e.ending? with
    | none => simp [String.append_assoc]
    | some x => simp

end Event

/-- How a session ends, and with which text. -/
structure Verdict where
  text : String
  ending : Ending
  deriving DecidableEq

/-- The verdict on events; without one that ends the answer it ends otherwise. -/
def Verdict.ofEvents (es : List Event) (otherwise : Ending) : Verdict where
  text := Event.heardText es
  ending := (es.findSome? Event.ending?).getD otherwise

/-- The verdict on what the transport gives. The last line counts when the stream ends by itself,
and then the answer is complete. -/
def Supply.verdict (wire : LineFormat) : Supply → Verdict
  | rejection e => { text := "", ending := .errored (.transport e) }
  | stream _ chunks (some e) =>
    .ofEvents ((Carry.completeLines chunks.flatten).map wire.parse) (.errored (.transport e))
  | stream _ chunks none =>
    .ofEvents ((Carry.completeLines chunks.flatten ++
      (Carry.lastLine chunks.flatten).toList).map wire.parse) .completed

theorem PaintSchedule.waiting_fire {s : PaintSchedule} {t : Tick} (ht : s.waiting = some t)
    (a : RunningText) : (s.fire t.id a).1.waiting = none := by
  have hwaiting : s.waiting.any (·.id = t.id) = true := by rw [ht]; simp
  rw [fire, if_pos hwaiting]
  dsimp only
  split_ifs <;> rfl

/-- The lines that a reader has yet to give. -/
def Carry.linesToCome (carry : Carry) (chunks : List Bytes) : Option TransportError → List String
  | some _ => (carry.read chunks.flatten).2
  | none => (carry.read chunks.flatten).2 ++ (carry.read chunks.flatten).1.finish.toList

/-- How a stream ends a session in which nothing else did. -/
def endingOf : Option TransportError → Ending
  | some e => .errored (.transport e)
  | none => .completed

/-- The verdict on the rest of a stream, for a session with so much text. -/
def verdictFrom (wire : LineFormat) (carry : Carry) (text : String) (chunks : List Bytes)
    (failure : Option TransportError) : Verdict where
  text := text ++ Event.heardText ((carry.linesToCome chunks failure).map wire.parse)
  ending := (((carry.linesToCome chunks failure).map wire.parse).findSome? Event.ending?).getD
    (endingOf failure)

theorem Carry.linesToCome_cons (carry : Carry) (chunk : Bytes) (chunks : List Bytes)
    (failure : Option TransportError) :
    carry.linesToCome (chunk :: chunks) failure =
      (carry.read chunk).2 ++ (carry.read chunk).1.linesToCome chunks failure := by
  cases failure <;> simp [linesToCome, read_append]

theorem verdictFrom_cons (wire : LineFormat) (carry : Carry) (text : String) (chunk : Bytes)
    (chunks : List Bytes) (failure : Option TransportError) :
    verdictFrom wire carry text (chunk :: chunks) failure =
      match ((carry.read chunk).2.map wire.parse).findSome? Event.ending? with
      | some e =>
        { text := text ++ Event.heardText ((carry.read chunk).2.map wire.parse), ending := e }
      | none =>
        verdictFrom wire (carry.read chunk).1
          (text ++ Event.heardText ((carry.read chunk).2.map wire.parse)) chunks failure := by
  rw [verdictFrom, carry.linesToCome_cons, List.map_append, List.findSome?_append,
    Event.heardText_append]
  cases ((carry.read chunk).2.map wire.parse).findSome? Event.ending? with
  | some e => simp
  | none => simp [verdictFrom, String.append_assoc]

namespace Controller

variable {σ : Type} {c : Controller σ} {wire : LineFormat} {id : Nat} {phase : Phase}
  {carry : Carry} {text : String}

/-! ## Live sessions and ended ones -/

/-- The current session is in a phase, with its token uncancelled, and has read and heard so
much. -/
structure Stands (c : Controller σ) (wire : LineFormat) (id : Nat) (phase : Phase) (carry : Carry)
    (text : String) : Prop where
  wire : c.config.wire = wire
  free : c.isCancelled id = false
  session : ∃ s, c.session = some s ∧ s.id = id ∧ s.phase = phase ∧ s.lines.carry = carry ∧
    s.text.committed = text

/-- The current session has ended, as the verdict says. -/
def Ended (c : Controller σ) (id : Nat) (v : Verdict) : Prop :=
  ∃ s, c.session = some s ∧ s.id = id ∧ s.phase = .ended v.ending ∧ s.text.committed = v.text

/-- The current session stands where it stood but for its carry and its text, or has ended. -/
def Goes (c : Controller σ) (wire : LineFormat) (id : Nat) (phase : Phase) (carry : Carry)
    (text : String) : Option Ending → Prop
  | none => c.Stands wire id phase carry text
  | some e => c.Ended id { text, ending := e }

/-- What a step comes to that takes so many lines and then goes on, or ends the session. -/
def resultAfter (lines : Nat) : Option Ending → StepResult
  | none => .received lines
  | some e => .finished e.state

/-- The tick that waits for the current session. -/
def tick? (c : Controller σ) : Option Tick := c.session.bind fun s ↦ s.schedule.waiting

theorem ended_finish {s : Session} (hs : c.session = some s) (hl : s.isLive = true) (e : Ending) :
    (c.finish e).Ended s.id { text := s.text.committed, ending := e } := by
  refine ⟨_, (keeps_finish hs hl e).session, rfl, rfl, ?_⟩
  rw [Session.ended, PaintSchedule.finish]
  split_ifs <;> rfl

theorem Ended.isStreaming_eq {v : Verdict} (h : c.Ended id v) : c.isStreaming = false := by
  obtain ⟨s, hs, -, hphase, -⟩ := h
  rw [isStreaming_of_session hs, Session.isLive, hphase]

theorem Ended.state_eq {v : Verdict} (h : c.Ended id v) : c.state = v.ending.state := by
  obtain ⟨s, hs, -, hphase, -⟩ := h
  rw [state, hs]
  dsimp only
  rw [Session.state, hphase]

namespace Stands

theorem keeps {c' : Controller σ} (h : c.Stands wire id phase carry text) (hkeeps : Keeps c c') :
    c'.Stands wire id phase carry text where
  wire := hkeeps.config ▸ h.wire
  free := by
    rw [isCancelled, hkeeps.cancelledTokens]
    exact h.free
  session := hkeeps.session ▸ h.session

theorem exists_live (h : c.Stands wire id phase carry text) (hphase : ∀ e, phase ≠ .ended e) :
    ∃ s, c.session = some s ∧ s.id = id ∧ s.isLive = true := by
  obtain ⟨s, hs, hid, rfl, -, -⟩ := h.session
  refine ⟨s, hs, hid, ?_⟩
  rw [Session.isLive]
  split
  · rename_i e he
    exact absurd he (hphase e)
  · rfl

/-- The session ends with the text that it has. -/
theorem finish (h : c.Stands wire id phase carry text) (hphase : ∀ e, phase ≠ .ended e)
    (e : Ending) : (c.finish e).Ended id { text, ending := e } := by
  obtain ⟨s, hs, hid, hl⟩ := h.exists_live hphase
  obtain ⟨s', hs', -, -, -, htext⟩ := h.session
  cases hs.symm.trans hs'
  have hended := ended_finish hs hl e
  rwa [hid, htext] at hended

/-! ### Lines -/

theorem hear (h : c.Stands wire id phase carry text) (event : Event) :
    (c.hear event).Stands wire id phase carry (text ++ event.text.getD "") := by
  obtain ⟨hwire, hfree, s, hs, hid, hphase, hcarry, htext⟩ := h
  rw [hear_of_session hs]
  cases event.text with
  | none =>
    rw [Option.getD_none, String.append_empty]
    exact ⟨hwire, hfree, s, hs, hid, hphase, hcarry, htext⟩
  | some t =>
    refine ⟨hwire, hfree, _, rfl, ?_⟩
    rw [Session.fragment_eq]
    exact ⟨hid, hphase, hcarry, (s.text.apply_eq t).1.trans (congrArg (· ++ t) htext)⟩

theorem takeLine (h : c.Stands wire id phase carry text) (hphase : ∀ e, phase ≠ .ended e)
    (line : String) :
    (c.takeLine line).Goes wire id phase carry (text ++ (wire.parse line).text.getD "")
      (wire.parse line).ending? := by
  have hheard := (h.keeps (keeps_notes c (c.config.wire.read line).log)).hear (wire.parse line)
  rw [takeLine_eq, endBy]
  rw [h.wire] at hheard ⊢
  cases (wire.parse line).ending? with
  | none => exact hheard
  | some e => exact hheard.finish hphase e

theorem isStreaming (h : c.Stands wire id phase carry text) (hphase : ∀ e, phase ≠ .ended e) :
    c.isStreaming = true := by
  obtain ⟨s, hs, -, hl⟩ := h.exists_live hphase
  exact isStreaming_iff.mpr ⟨s, hs, hl⟩

theorem takeLines (h : c.Stands wire id phase carry text) (hphase : ∀ e, phase ≠ .ended e)
    (lines : List String) :
    (c.takeLines lines).Goes wire id phase carry
      (text ++ Event.heardText (lines.map wire.parse))
      ((lines.map wire.parse).findSome? Event.ending?) := by
  induction lines generalizing c text with
  | nil =>
    rw [List.map_nil, Event.heardText_nil, String.append_empty]
    exact h
  | cons line rest ih =>
    have hline := h.takeLine hphase line
    rw [Controller.takeLines, List.map_cons, Event.heardText_cons, List.findSome?_cons,
      Event.isTerminal_eq]
    generalize (wire.parse line).ending? = ending at hline ⊢
    cases ending with
    | none =>
      rw [if_pos (hline.isStreaming hphase)]
      have hrest := ih hline
      rwa [String.append_assoc] at hrest
    | some e =>
      rw [if_neg (by rw [hline.isStreaming_eq]; exact Bool.false_ne_true)]
      simpa using hline

end Stands

theorem Goes.outcomeAfter_eq {ending : Option Ending} (h : c.Goes wire id phase carry text ending)
    (hphase : ∀ e, phase ≠ .ended e) (lines : Nat) :
    c.outcomeAfter lines = resultAfter lines ending := by
  cases ending with
  | none =>
    have hstands : c.Stands wire id phase carry text := h
    rw [outcomeAfter, if_pos (hstands.isStreaming hphase), resultAfter]
  | some e =>
    have hended : c.Ended id { text, ending := e } := h
    rw [outcomeAfter, hended.isStreaming_eq, if_neg Bool.false_ne_true, hended.state_eq,
      resultAfter]

namespace Stands

/-! ### Items -/

theorem tokenCancelled (h : c.Stands wire id phase carry text) : c.tokenCancelled = false := by
  obtain ⟨-, hfree, s, hs, rfl, -⟩ := h
  rw [tokenCancelled_of_session hs, hfree]

/-- Changes how the session stands where nobody looks. -/
theorem onSession (h : c.Stands wire id phase carry text) {s : Session} (hs : c.session = some s)
    (s' : Session) {phase' : Phase} {carry' : Carry} (hid : s'.id = s.id)
    (hphase : s'.phase = phase') (hcarry : s'.lines.carry = carry')
    (htext : s'.text.committed = s.text.committed) :
    Stands { c with session := some s' } wire id phase' carry' text := by
  obtain ⟨hwire, hfree, s₀, hs₀, hid₀, -, -, htext₀⟩ := h
  cases hs.symm.trans hs₀
  exact ⟨hwire, hfree, s', rfl, hid.trans hid₀, hphase, hcarry, htext.trans htext₀⟩

/-- A chunk is worth its lines. -/
theorem onChunk {n : Nat} (h : c.Stands wire id (.reading n) carry text) (chunk : Bytes) :
    (c.onItem (some (.ok chunk))).1.Goes wire id (.reading n) (carry.read chunk).1
        (text ++ Event.heardText ((carry.read chunk).2.map wire.parse))
        (((carry.read chunk).2.map wire.parse).findSome? Event.ending?) ∧
      (c.onItem (some (.ok chunk))).2 = resultAfter (carry.read chunk).2.length
        (((carry.read chunk).2.map wire.parse).findSome? Event.ending?) := by
  obtain ⟨s, hs, -, hphase, rfl, -⟩ := h.session
  have hpushed := h.onSession hs
    { s with lines := (s.lines.push chunk).1, bytesRead := s.bytesRead + chunk.length }
    rfl hphase rfl rfl
  have hlines := hpushed.takeLines nofun (s.lines.carry.read chunk).2
  rw [onItem.eq_def, h.tokenCancelled, if_neg Bool.false_ne_true]
  dsimp only
  rw [takeChunk, hs]
  exact ⟨hlines, hlines.outcomeAfter_eq nofun _⟩

/-- A read error ends the session with the text that it has. -/
theorem onError {n : Nat} (h : c.Stands wire id (.reading n) carry text) (e : TransportError) :
    (c.onItem (some (.error e))).1.Ended id { text, ending := .errored (.transport e) } ∧
      (c.onItem (some (.error e))).2 = .finished .errored := by
  rw [onItem.eq_def, h.tokenCancelled, if_neg Bool.false_ne_true]
  exact ⟨h.finish (fun e' hp ↦ Phase.noConfusion hp) (.errored (.transport e)), rfl⟩

/-- The end of the stream is worth the last line, and completes the answer without it. -/
theorem onEnd {n : Nat} (h : c.Stands wire id (.reading n) carry text) :
    (c.onItem none).1.Ended id
        { text := text ++ Event.heardText (carry.finish.toList.map wire.parse)
          ending := ((carry.finish.toList.map wire.parse).findSome? Event.ending?).getD
            .completed } ∧
      (c.onItem none).2 = .finished
        (((carry.finish.toList.map wire.parse).findSome? Event.ending?).getD .completed).state := by
  obtain ⟨s, hs, -, hphase, rfl, -⟩ := h.session
  have hfinish : s.lines.finish.2 = s.lines.carry.finish ∧ s.lines.finish.1.carry = .empty := by
    rw [LineReader.finish]
    cases s.lines.carry.finish <;> exact ⟨rfl, rfl⟩
  have hlines := (h.onSession hs { s with lines := s.lines.finish.1 } rfl hphase hfinish.2
    rfl).takeLines nofun s.lines.carry.finish.toList
  rw [onItem.eq_def, h.tokenCancelled, if_neg Bool.false_ne_true]
  dsimp only
  rw [takeEnd_of_session hs, hfinish.1, withoutCarry, endStream]
  generalize ((s.lines.carry.finish.toList.map wire.parse).findSome? Event.ending?) = ending
    at hlines ⊢
  cases ending with
  | none =>
    rw [if_pos (hlines.isStreaming nofun)]
    exact ⟨(hlines.keeps (keeps_note _ _)).finish nofun .completed, rfl⟩
  | some e =>
    rw [if_neg (by rw [hlines.isStreaming_eq]; exact Bool.false_ne_true)]
    exact ⟨hlines, congrArg StepResult.finished hlines.state_eq⟩

/-! ### Ticks and waits -/

theorem turn_eq {n : Nat} (h : c.Stands wire id (.reading n) carry text) :
    c.turn = .reading n c.tick? := by
  obtain ⟨-, hfree, s, hs, rfl, hphase, -⟩ := h
  rw [turn_of_free hs hfree, hphase, tick?, hs]
  rfl

/-- A tick leaves the session where it stands, and waits no more. -/
theorem onTick {n : Nat} (h : c.Stands wire id (.reading n) carry text) {t : Tick}
    (ht : c.tick? = some t) :
    (c.onTick t.id).1.Stands wire id (.reading n) carry text ∧ (c.onTick t.id).1.tick? = none ∧
      (c.onTick t.id).2 = .painted := by
  obtain ⟨s, hs, hid, hphase, hcarry, -⟩ := h.session
  have hwaiting : s.schedule.waiting = some t := by rwa [tick?, hs] at ht
  have htext := congrArg RunningText.committed
    (PaintSchedule.fire_of_waiting hwaiting s.text).2.1
  have hfired := h.onSession hs (s.fired t.id) rfl hphase hcarry htext
  rw [onTick_of_free hs (hid ▸ h.free), paint]
  refine ⟨hfired.keeps (keeps_tellUpdate _ _ _), ?_, rfl⟩
  rw [tick?, (keeps_tellUpdate _ _ _).session]
  exact PaintSchedule.waiting_fire hwaiting s.text

theorem pass (h : c.Stands wire id phase carry text) {w : Wait} (hw : id ∉ w.cancelled) :
    (c.pass w).Stands wire id phase carry text := by
  obtain ⟨tokens, hpass, htokens⟩ := c.exists_pass w
  refine ⟨by rw [hpass]; exact h.wire, ?_, by rw [hpass]; exact h.session⟩
  have hfree := h.free
  rw [isCancelled, Bool.eq_false_iff, Ne, List.contains_iff_mem] at hfree ⊢
  rw [hpass]
  exact fun hmem ↦ hfree ((htokens id hw).mp hmem)

end Stands

theorem length_tick?_le (c : Controller σ) : c.tick?.toList.length ≤ 1 := by
  cases c.tick? with
  | none => exact Nat.zero_le 1
  | some t => exact Nat.le_refl 1

theorem tick?_pass (c : Controller σ) (w : Wait) : (c.pass w).tick? = c.tick? := by
  rw [tick?, session_pass, tick?]

/-! ## Drives -/

/-- A step of a drive that does not end the session. -/
theorem drive_cons {answer : Except TransportError Nat} {items rest : List Item} {m : Moment}
    {wake : Wake} (hwake : c.nextWake answer items m.tickIsDue = (wake, rest)) {c' : Controller σ}
    {o : StepResult}
    (hstep : c.step (m.wait wake) = (c', some o))
    (ho : ∀ state, o ≠ .finished state) (moments : List Moment) :
    c.drive answer items (m :: moments) = c'.drive answer rest moments := by
  rw [drive, hwake]
  dsimp only
  rw [hstep]
  cases o with
  | finished state => exact absurd rfl (ho state)
  | _ => rfl

/-- The last step of a drive. -/
theorem drive_cons_finished {answer : Except TransportError Nat} {items rest : List Item}
    {m : Moment} {wake : Wake} (hwake : c.nextWake answer items m.tickIsDue = (wake, rest))
    {c' : Controller σ} {state : SessionState}
    (hstep : c.step (m.wait wake) = (c', some (.finished state))) (moments : List Moment) :
    c.drive answer items (m :: moments) = (c', some state) := by
  rw [drive, hwake]
  dsimp only
  rw [hstep]

namespace Stands

/-- A step whose tick is due first. -/
theorem step_tick {n : Nat} (h : c.Stands wire id (.reading n) carry text) {w : Wait}
    (hw : id ∉ w.cancelled) {t : Tick} (ht : c.tick? = some t) (hwake : w.wake = .tick) :
    (c.step w).1.Stands wire id (.reading n) carry text ∧ (c.step w).1.tick? = none ∧
      (c.step w).2 = some .painted := by
  obtain ⟨hstands, htick, hresult⟩ := (h.pass hw).onTick ((c.tick?_pass w).trans ht)
  have hstep : c.step w =
      (((c.pass w).onTick t.id).1, some ((c.pass w).onTick t.id).2) := by
    rw [step.eq_def, h.turn_eq, ht, hwake]
  rw [hstep]
  exact ⟨hstands, htick, congrArg some hresult⟩

/-- A step that an item of the stream ends, or its end. -/
theorem step_item {n : Nat} (h : c.Stands wire id (.reading n) carry text) {w : Wait}
    {item : Option Item} (hwake : w.wake = .item item) :
    c.step w = (((c.pass w).onItem item).1, some ((c.pass w).onItem item).2) := by
  rw [step.eq_def, h.turn_eq, hwake]

theorem nextWake_eq {n : Nat} (h : c.Stands wire id (.reading n) carry text)
    (answer : Except TransportError Nat) (items : List Item) (tickIsDue : Bool) :
    c.nextWake answer items tickIsDue =
      if c.tick?.isSome && tickIsDue then (.tick, items) else (.item items.head?, items.tail) := by
  rw [nextWake, h.turn_eq]

/-- From wherever a session stands in its stream, a drive comes to the verdict on the rest. -/
theorem drive {n : Nat} {failure : Option TransportError} {moments : List Moment}
    (h : c.Stands wire id (.reading n) carry text) (answer : Except TransportError Nat)
    (chunks : List Bytes)
    (hmoments : 2 * chunks.length + 1 + c.tick?.toList.length ≤ moments.length)
    (hfree : ∀ m ∈ moments, id ∉ m.cancelled) :
    ∃ c', c.drive answer (chunks.map .ok ++ failure.toList.map .error) moments =
        (c', some (verdictFrom wire carry text chunks failure).ending.state) ∧
      c'.Ended id (verdictFrom wire carry text chunks failure) := by
  induction moments generalizing c chunks carry text with
  | nil =>
    rw [List.length_nil] at hmoments
    omega
  | cons m moments ih =>
    rw [List.length_cons] at hmoments
    obtain ⟨hm, hfree⟩ := List.forall_mem_cons.mp hfree
    have hwake := h.nextWake_eq answer (chunks.map .ok ++ failure.toList.map .error) m.tickIsDue
    by_cases hdue : (c.tick?.isSome && m.tickIsDue) = true
    · -- A tick fires once, and then an item is next.
      rw [if_pos hdue] at hwake
      obtain ⟨t, ht⟩ := Option.isSome_iff_exists.mp (Bool.and_eq_true_iff.mp hdue).1
      obtain ⟨hstands, htick, hresult⟩ := h.step_tick (w := m.wait .tick) hm ht rfl
      rw [drive_cons hwake (Prod.ext rfl hresult) nofun]
      rw [ht, Option.toList_some, List.length_singleton] at hmoments
      exact ih hstands chunks (by rw [htick, Option.toList_none, List.length_nil]; omega) hfree
    · rw [if_neg hdue] at hwake
      have hpass (wake : Wake) := h.pass (w := m.wait wake) hm
      -- An item is one chunk less, and may leave a tick waiting behind it: two steps at most.
      cases chunks with
      | cons chunk rest =>
        have hstep := h.step_item (w := m.wait (.item (some (.ok chunk)))) rfl
        obtain ⟨hgoes, hresult⟩ := (hpass (.item (some (.ok chunk)))).onChunk chunk
        rw [hresult] at hstep
        rw [verdictFrom_cons]
        generalize ((carry.read chunk).2.map wire.parse).findSome? Event.ending? = ending
          at hgoes hstep ⊢
        cases ending with
        | some e => exact ⟨_, drive_cons_finished hwake hstep moments, hgoes⟩
        | none =>
          rw [drive_cons hwake hstep nofun]
          rw [List.length_cons] at hmoments
          refine ih hgoes rest (Nat.le_trans (Nat.add_le_add_left (length_tick?_le _) _) ?_) hfree
          omega
      | nil =>
        cases failure with
        | some e =>
          have hstep := h.step_item (w := m.wait (.item (some (.error e)))) rfl
          obtain ⟨hended, hresult⟩ := (hpass (.item (some (.error e)))).onError e
          rw [hresult] at hstep
          have hverdict : verdictFrom wire carry text [] (some e) =
              { text, ending := .errored (.transport e) } := by
            rw [verdictFrom, Carry.linesToCome, List.flatten_nil, Carry.read_nil, List.map_nil,
              Event.heardText_nil, String.append_empty]
            rfl
          rw [hverdict]
          exact ⟨_, drive_cons_finished hwake hstep moments, hended⟩
        | none =>
          have hstep := h.step_item (w := m.wait (.item none)) rfl
          obtain ⟨hended, hresult⟩ := (hpass (.item none)).onEnd
          rw [hresult] at hstep
          exact ⟨_, drive_cons_finished hwake hstep moments, hended⟩

/-! ### The opening of a stream -/

/-- The request is handed out, and its answer ends the step. -/
theorem step_opening {r : Request} (h : c.Stands wire id (.unopened r) carry text) {w : Wait}
    (hw : id ∉ w.cancelled) {answer : Except TransportError Nat} (hwake : w.wake = .answer answer) :
    ∃ c₁ : Controller σ, c₁.Stands wire id .opening carry text ∧ c₁.tick? = c.tick? ∧
      c.step w = ((c₁.onAnswer answer).1, some (c₁.onAnswer answer).2) := by
  obtain ⟨s, hs, hid, hphase, hcarry, -⟩ := h.session
  have hasked := (h.onSession hs { s with phase := .opening } rfl rfl hcarry rfl).keeps
    (keeps_act _ (.asked r))
  refine ⟨_, hasked.pass hw, ?_, ?_⟩
  · rw [tick?_pass, tick?, tick?, hs]
    rfl
  · rw [step.eq_def, turn_of_free hs (hid ▸ h.free), hphase, hwake]

theorem nextWake_unopened {r : Request} (h : c.Stands wire id (.unopened r) carry text)
    (answer : Except TransportError Nat) (items : List Item) (tickIsDue : Bool) :
    c.nextWake answer items tickIsDue = (.answer answer, items) := by
  obtain ⟨s, hs, hid, hphase, -⟩ := h.session
  rw [nextWake, turn_of_free hs (hid ▸ h.free), hphase]

/-- A rejection ends the session with the text that it has. -/
theorem onRejection (h : c.Stands wire id .opening carry text) (e : TransportError) :
    (c.onAnswer (.error e)).1.Ended id { text, ending := .errored (.transport e) } ∧
      (c.onAnswer (.error e)).2 = .finished .errored := by
  rw [onAnswer.eq_def, h.tokenCancelled, if_neg Bool.false_ne_true]
  exact ⟨h.finish (fun e' hp ↦ Phase.noConfusion hp) (.errored (.transport e)), rfl⟩

/-- A stream is read from where the session stands. -/
theorem onStream (h : c.Stands wire id .opening carry text) (n : Nat) :
    (c.onAnswer (.ok n)).1.Stands wire id (.reading n) carry text ∧
      (c.onAnswer (.ok n)).1.tick? = c.tick? ∧ (c.onAnswer (.ok n)).2 = .opened := by
  obtain ⟨s, hs, -, -, hcarry, -⟩ := h.session
  have hopened := h.onSession hs { s with phase := .reading n } rfl rfl hcarry rfl
  rw [onAnswer.eq_def, h.tokenCancelled, if_neg Bool.false_ne_true]
  dsimp only
  rw [Controller.onSession, hs]
  refine ⟨hopened, ?_, rfl⟩
  rw [tick?, tick?, hs]
  rfl

end Stands

/-! ### The beginning of a session -/

/-- A session that begins has a token of its own, and nothing read or heard. -/
theorem Numbered.stands_begin (hc : c.Numbered) {p : Prompt} {c₀ : Controller σ}
    (hbegin : c.begin p = .ok (c₀, id)) :
    c₀.tick? = none ∧ ∃ r, c₀.Stands c.config.wire id (.unopened r) .empty "" := by
  rw [begin_eq] at hbegin
  split at hbegin
  · cases hbegin
  · cases hbegin
    have hkeeps := keeps_launch c.settle p
    have hfree := (hc.moves c.course_settle.moves).isCancelled_sessionsBegun
    refine ⟨?_, _, ?_, ?_, _, hkeeps.session, rfl, rfl, rfl, rfl⟩
    · rw [tick?, hkeeps.session]
      rfl
    · rw [hkeeps.config]
      exact congrArg Config.wire c.config_settle
    · rw [isCancelled, hkeeps.cancelledTokens]
      exact hfree

/-! ### The verdict -/

theorem verdictFrom_empty (wire : LineFormat) (n : Nat) (chunks : List Bytes)
    (failure : Option TransportError) :
    verdictFrom wire .empty "" chunks failure = (Supply.stream n chunks failure).verdict wire := by
  cases failure with
  | some e =>
    rw [verdictFrom, Carry.linesToCome, Carry.read_empty, String.empty_append]
    rfl
  | none =>
    rw [verdictFrom, Carry.linesToCome, Carry.read_empty, Carry.finish_read_empty,
      String.empty_append]
    rfl

/-- Once the session has ended, a drive only tells so. -/
theorem Ended.drive_cons {v : Verdict} (h : c.Ended id v) (answer : Except TransportError Nat)
    (items : List Item) (m : Moment) (moments : List Moment) :
    c.drive answer items (m :: moments) = (c, some v.ending.state) := by
  have hturn : c.turn = .idle := by
    obtain ⟨s, hs, -, hphase, -⟩ := h
    rw [turn, hs]
    dsimp only
    rw [hphase]
  rw [drive, nextWake, hturn]
  dsimp only
  rw [step.eq_def, hturn]
  dsimp only
  rw [h.state_eq]

/-- What the first step of a session leaves to the next: the drive of a session that is reading, or
an end that no step changes. -/
theorem Stands.drive_after_opening {r : Request} (h : c.Stands wire id (.unopened r) .empty "")
    (htick : c.tick? = none) (supply : Supply) {w : Wait} (hw : id ∉ w.cancelled)
    (hwake : w.wake = .answer supply.answer) {moments : List Moment}
    (hmoments : 2 * supply.chunks.length + 1 ≤ moments.length)
    (hfree : ∀ m ∈ moments, id ∉ m.cancelled) :
    (∃ c', (c.step w).1.drive supply.answer supply.items moments =
        (c', some (supply.verdict wire).ending.state) ∧ c'.Ended id (supply.verdict wire)) ∧
      ((c.step w).2 = some .opened ∨
        (c.step w).2 = some (.finished (supply.verdict wire).ending.state) ∧
          (c.step w).1.Ended id (supply.verdict wire)) := by
  obtain ⟨c₁, hopening, htick₁, hstep⟩ := h.step_opening hw hwake
  rw [hstep]
  cases supply with
  | rejection e =>
    obtain ⟨hended, hresult⟩ := hopening.onRejection e
    refine ⟨?_, .inr ⟨congrArg some hresult, hended⟩⟩
    -- The session is over already; a drive still takes a look at it.
    cases moments with
    | nil => cases hmoments
    | cons m moments => exact ⟨_, hended.drive_cons _ _ m moments, hended⟩
  | stream n chunks failure =>
    obtain ⟨hstands, htick₂, hresult⟩ := hopening.onStream n
    rw [← verdictFrom_empty]
    refine ⟨hstands.drive _ chunks ?_ hfree, .inl (congrArg some hresult)⟩
    rw [htick₂, htick₁, htick]
    exact hmoments

/-- **The outcome of a session.** Whatever a controller has been through, and whatever the transport
gives for a prompt that it takes: if nobody cancels the session, a drive ends it as the verdict on
what the transport gives says, in at most two steps for each chunk and two more, whether the first
of them is taken by the start of the session or by the drive. -/
theorem drive_eq_verdict {c : Controller σ} (hc : c.Reached) (p : Prompt) (id : Nat)
    (supply : Supply) (moments : List Moment)
    (hmoments : 2 * supply.chunks.length + 2 ≤ moments.length)
    (hfree : ∀ m ∈ moments, id ∉ m.cancelled) :
    (∀ c₀, c.begin p = .ok (c₀, id) →
        ∃ c', c₀.drive supply.answer supply.items moments =
            (c', some (supply.verdict c.config.wire).ending.state) ∧
          c'.Ended id (supply.verdict c.config.wire)) ∧
      ∀ w c₁, w.wake = .answer supply.answer → id ∉ w.cancelled → c.start p w = .ok (c₁, id) →
        ∃ c', c₁.drive supply.answer supply.items moments =
            (c', some (supply.verdict c.config.wire).ending.state) ∧
          c'.Ended id (supply.verdict c.config.wire) := by
  refine ⟨fun c₀ hbegin ↦ ?_, fun w c₁ hwake hw hstart ↦ ?_⟩
  · obtain ⟨htick, r, hstands⟩ := hc.numbered.stands_begin hbegin
    cases moments with
    | nil => cases hmoments
    | cons m moments =>
      obtain ⟨hm, hrest⟩ := List.forall_mem_cons.mp hfree
      obtain ⟨hdrive, hfirst⟩ := hstands.drive_after_opening htick supply
        (w := m.wait (.answer supply.answer)) hm rfl (Nat.le_of_succ_le_succ hmoments) hrest
      have hnext := hstands.nextWake_unopened supply.answer supply.items m.tickIsDue
      rcases hfirst with hopened | ⟨hfinished, hended⟩
      · rwa [drive_cons hnext (Prod.ext rfl hopened) nofun]
      · exact ⟨_, drive_cons_finished hnext (Prod.ext rfl hfinished) moments, hended⟩
  · rw [start] at hstart
    split at hstart
    · rename_i c₀ _ hbegin
      cases hstart
      obtain ⟨htick, r, hstands⟩ := hc.numbered.stands_begin hbegin
      exact (hstands.drive_after_opening htick supply hw hwake (Nat.le_of_succ_le hmoments)
        hfree).1
    · cases hstart

/-- An answer cut inside a fragment, whose stream fails after its last event. -/
def cutAnswer : Supply :=
  .stream 0
    ["data: \x7b\"content\":\"a".toUTF8.toList, [],
      "b\"\x7d\r\ndata: \x7b\"content\":\"c\",\"done\":true\x7d\ndata: ".toUTF8.toList]
    (some (.read "reset"))

theorem drive_eq_verdict_cutAnswer :
    ∃ c₀ c' : Controller History,
      (new History.archive {} {} "scripted").begin { message := "hi" } = .ok (c₀, 0) ∧
        c₀.drive cutAnswer.answer cutAnswer.items (List.replicate 8 ⟨[1], 0, true⟩) =
          (c', some .completed) ∧
        c'.Ended 0 { text := "abc", ending := .completed } := by
  obtain ⟨c₀, hbegin⟩ : ∃ c₀, (new History.archive {} {} "scripted").begin { message := "hi" } =
      .ok (c₀, 0) := ⟨_, rfl⟩
  have hfree : ∀ m ∈ List.replicate 8 (⟨[1], 0, true⟩ : Moment), 0 ∉ m.cancelled := by decide
  have hverdict : cutAnswer.verdict {} = { text := "abc", ending := .completed } := by
    decide +kernel
  obtain ⟨c', hdrive, hended⟩ := (drive_eq_verdict ⟨_, _, _, _, [], rfl⟩ { message := "hi" } 0
    cutAnswer (List.replicate 8 ⟨[1], 0, true⟩) (by decide) hfree).1 c₀ hbegin
  refine ⟨c₀, c', hbegin, ?_, ?_⟩
  · rw [hdrive]
    exact congrArg (fun v : Verdict ↦ (c', some v.ending.state)) hverdict
  · rw [← hverdict]
    exact hended

end Controller

end ChatStream
