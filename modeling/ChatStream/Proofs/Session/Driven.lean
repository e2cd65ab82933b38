import ChatStream.Proofs.Session.Cancelled
import ChatStream.Proofs.Session.Consistency
import ChatStream.Proofs.Session.Verdict

/-!
# How long a drive takes

A tick that is due goes before the next item of the stream. Were there always one, a drive would
paint for ever and never read on. There is not: a tick that has fired waits no more, and only the
lines of a chunk leave another one behind them. So paintings are paid for by chunks, one by one.

## The argument

`Route` says in which order the steps of a drive can come: the stream is opened, chunks are read,
and between two of them there is a painting at most, until a step finishes the session. That every
session takes a route is shown step by step (`takesLeg`), whatever the clock does and whoever
cancels; no step depends on what the lines say. How long a route can be is a matter of counting.

A session whose stream is not open yet has heard nothing, and so no tick waits for it. This is the
one thing for which the past of a controller matters.
-/

namespace ChatStream

/-! ## Steps in a row -/

/-- One step of a drive. -/
structure Leg where
  /-- What ended its wait. -/
  wake : Wake
  result : StepResult

namespace Leg

/-- Whether a chunk was read and the session went on. -/
def receives (leg : Leg) : Bool :=
  match leg.result with
  | .received _ => true
  | _ => false

/-- Whether the step came to a painting. -/
def paints (leg : Leg) : Bool := leg.result = .painted

end Leg

/-- The order in which the steps of a drive can come, with the state that the last one tells, for a
stream that is open or not, with a tick waiting or not, and with those items to be read. -/
inductive Route : Bool → Bool → List Item → Option SessionState → List Leg → Prop
  /-- The moments run out. -/
  | stops (isOpen waits : Bool) (items : List Item) : Route isOpen waits items none []
  | opens {waits : Bool} {items : List Item} {outcome : Option SessionState} {legs : List Leg}
      (stream : Nat) : Route true waits items outcome legs →
      Route false waits items outcome (⟨.answer (.ok stream), .opened⟩ :: legs)
  /-- A chunk may leave a tick behind it. -/
  | reads {waits' : Bool} {items : List Item} {outcome : Option SessionState} {legs : List Leg}
      (waits : Bool) (chunk : Bytes) (lines : Nat) : Route true waits' items outcome legs →
      Route true waits (.ok chunk :: items) outcome
        (⟨.item (some (.ok chunk)), .received lines⟩ :: legs)
  /-- A painting takes the tick away. -/
  | paints {items : List Item} {outcome : Option SessionState} {legs : List Leg} :
      Route true false items outcome legs →
      Route true true items outcome (⟨.tick, .painted⟩ :: legs)
  /-- The last step reads one item at most, and that of a stream that is open. -/
  | finishes {isOpen waits : Bool} {items : List Item} {wake : Wake} {state : SessionState} :
      (∀ item, wake = .item item → isOpen = true ∧ item = items.head?) →
      state.isTerminal = true → Route isOpen waits items (some state) [⟨wake, .finished state⟩]

namespace Route

variable {isOpen waits : Bool} {items : List Item} {outcome : Option SessionState}
  {legs : List Leg}

/-- Two steps for each chunk, and one each for the opening, a tick that waits already and the
end. -/
theorem length_le (h : Route isOpen waits items outcome legs) :
    legs.length ≤
      2 * items.countP Except.isOk + (!isOpen).toNat + waits.toNat + outcome.isSome.toNat := by
  induction h with
  | stops => exact Nat.zero_le _
  | opens stream h ih =>
    rw [Bool.not_true, Bool.toNat_false] at ih
    rw [List.length_cons, Bool.not_false, Bool.toNat_true]
    omega
  | @reads waits' items outcome legs waits chunk lines h ih =>
    have hchunk : (Except.ok chunk :: items : List Item).countP Except.isOk =
        items.countP Except.isOk + 1 := List.countP_cons_of_pos rfl
    have hwaits := Bool.toNat_le waits'
    rw [List.length_cons, hchunk]
    omega
  | paints h ih =>
    rw [Bool.toNat_false] at ih
    rw [List.length_cons, Bool.toNat_true]
    omega
  | finishes =>
    rw [List.length_singleton, Option.isSome_some, Bool.toNat_true]
    exact Nat.le_add_left _ _

/-- A painting is paid for by a chunk before it, but for the tick that waits already. -/
theorem countP_paints_le (h : Route isOpen waits items outcome legs) {before : List Leg}
    (hbefore : before <+: legs) :
    before.countP Leg.paints ≤ before.countP Leg.receives + waits.toNat := by
  induction h generalizing before with
  | stops =>
    rw [List.prefix_nil.mp hbefore]
    exact Nat.zero_le _
  | opens stream h ih =>
    rcases List.prefix_cons_iff.mp hbefore with rfl | ⟨rest, rfl, hrest⟩
    · exact Nat.zero_le _
    · rw [List.countP_cons_of_neg Bool.false_ne_true,
        List.countP_cons_of_neg Bool.false_ne_true]
      exact ih hrest
  | @reads waits' items outcome legs waits chunk lines h ih =>
    rcases List.prefix_cons_iff.mp hbefore with rfl | ⟨rest, rfl, hrest⟩
    · exact Nat.zero_le _
    · have hwaits := Bool.toNat_le waits'
      have hrest := ih hrest
      rw [List.countP_cons_of_neg Bool.false_ne_true, List.countP_cons_of_pos rfl]
      omega
  | paints h ih =>
    rcases List.prefix_cons_iff.mp hbefore with rfl | ⟨rest, rfl, hrest⟩
    · exact Nat.zero_le _
    · rw [List.countP_cons_of_pos rfl, List.countP_cons_of_neg Bool.false_ne_true]
      exact Nat.succ_le_succ (ih hrest)
  | @finishes _ _ _ wake state =>
    have hlast : ∀ leg ∈ before, ¬ leg.paints := by
      intro leg hleg
      rw [List.mem_singleton.mp (hbefore.subset hleg)]
      exact Bool.false_ne_true
    rw [List.countP_eq_zero.mpr hlast]
    exact Nat.zero_le _

theorem isTerminal {state : SessionState} (h : Route isOpen waits items (some state) legs) :
    state.isTerminal = true := by
  generalize houtcome : some state = outcome at h
  induction h with
  | stops => cases houtcome
  | opens _ _ ih | reads _ _ _ _ ih | paints _ ih => exact ih houtcome
  | finishes _ hterminal => exact Option.some.inj houtcome ▸ hterminal

end Route

theorem Supply.countP_isOk_items (supply : Supply) :
    supply.items.countP Except.isOk = supply.chunks.length := by
  cases supply with
  | rejection e => rfl
  | stream number chunks failure =>
    rw [items, List.countP_append, List.countP_map, List.countP_map]
    have hchunks : chunks.countP (Except.isOk ∘ (Except.ok : Bytes → Item)) = chunks.length :=
      List.countP_eq_length.mpr fun _ _ ↦ rfl
    have hfailure : failure.toList.countP (Except.isOk ∘ (Except.error : TransportError → Item)) =
        0 := List.countP_eq_zero.mpr fun _ _ ↦ Bool.false_ne_true
    rw [hchunks, hfailure]
    rfl

theorem Ending.isTerminal_state (e : Ending) : e.state.isTerminal = true := by
  cases e <;> rfl

namespace Controller

variable {σ : Type} {c c' : Controller σ} {s : Session}

/-- The steps of a drive, up to the one that finishes the session. -/
def legs (c : Controller σ) (answer : Except TransportError Nat) (items : List Item) :
    List Moment → List Leg
  | [] => []
  | m :: moments =>
    let (wake, items) := c.nextWake answer items m.tickIsDue
    match c.step (m.wait wake) with
    | (_, none) => []
    | (_, some (.finished state)) => [⟨wake, .finished state⟩]
    | (c, some result) => ⟨wake, result⟩ :: c.legs answer items moments

/-- Whether the stream of the session is open. -/
def hasStream (c : Controller σ) : Bool := (c.session.bind Session.stream?).isSome

/-! ## One step -/

/-- What one step of a drive comes to, with the items that it leaves. -/
inductive TakesLeg (c : Controller σ) (items : List Item) :
    Leg → List Item → Controller σ → Prop
  | opens {c' : Controller σ} (stream : Nat) : c.hasStream = false → c'.isStreaming = true →
      c'.hasStream = true → c'.tick? = c.tick? →
      TakesLeg c items ⟨.answer (.ok stream), .opened⟩ items c'
  | reads {c' : Controller σ} {chunk : Bytes} {rest : List Item} (lines : Nat) :
      items = .ok chunk :: rest → c.hasStream = true → c'.isStreaming = true →
      c'.hasStream = true →
      TakesLeg c items ⟨.item (some (.ok chunk)), .received lines⟩ rest c'
  | paints {c' : Controller σ} : c.tick?.isSome = true → c.hasStream = true →
      c'.isStreaming = true → c'.hasStream = true → c'.tick? = none →
      TakesLeg c items ⟨.tick, .painted⟩ items c'
  | finishes {c' : Controller σ} {rest : List Item} {wake : Wake} {state : SessionState} :
      (∀ item, wake = .item item → c.hasStream = true ∧ item = items.head?) →
      c'.state = state → state.isTerminal = true →
      TakesLeg c items ⟨wake, .finished state⟩ rest c'

theorem state_finish (hs : c.session = some s) (hl : s.isLive = true) (e : Ending) :
    (c.finish e).state = e.state := (ended_finish hs hl e).state_eq

theorem hasStream_of_reading {n : Nat} (hs : c.session = some s) (hp : s.phase = .reading n) :
    c.hasStream = true := by
  rw [hasStream, hs, Option.bind_some, Session.stream?, hp]
  rfl

theorem hasStream_eq_false (hs : c.session = some s) (h : s.stream? = none) :
    c.hasStream = false := by
  rw [hasStream, hs, Option.bind_some, h]
  rfl

theorem stream?_of_unopened {request : Request} (hp : s.phase = .unopened request) :
    s.stream? = none := by
  rw [Session.stream?, hp]

theorem Past.hasStream (h : c.Past) (hstreaming : c.isStreaming = true) : c.hasStream = true := by
  obtain ⟨s, hs, ⟨n, hn⟩ | ⟨e, he⟩⟩ := h
  · exact hasStream_of_reading hs hn
  · rw [isStreaming_of_session hs, Session.isLive_of_ended he] at hstreaming
    cases hstreaming

theorem Past.isTerminal_state (h : c.Past) (hrest : c.isStreaming = false) :
    c.state.isTerminal = true := by
  obtain ⟨s, hs, ⟨n, hn⟩ | ⟨e, he⟩⟩ := h
  · rw [isStreaming_of_session hs, isLive_of_reading hn] at hrest
    cases hrest
  · have hstate : c.state = e.state := by
      rw [state, hs]
      dsimp only
      rw [Session.state, he]
    rw [hstate, e.isTerminal_state]

/-- A step that finishes the session reads one item at most. -/
theorem takesLeg_finish {items rest : List Item} {wake : Wake} (hs : c'.session = some s)
    (hl : s.isLive = true) (e : Ending)
    (hwake : ∀ item, wake = .item item → c.hasStream = true ∧ item = items.head?) :
    c.TakesLeg items ⟨wake, .finished e.state⟩ rest (c'.finish e) :=
  .finishes hwake (state_finish hs hl e) e.isTerminal_state

/-- After its lines are taken, a session is streaming and its stream is open, or it is over. -/
theorem takesLeg_lines {items rest : List Item} {chunk : Bytes}
    (hitems : items = .ok chunk :: rest) (hstream : c.hasStream = true) (hpast : c'.Past)
    (lines : Nat) :
    c.TakesLeg items ⟨.item (some (.ok chunk)), c'.outcomeAfter lines⟩ rest c' := by
  rw [outcomeAfter]
  split_ifs with hstreaming
  · exact .reads lines hitems hstream hstreaming (hpast.hasStream hstreaming)
  · refine .finishes (fun item hitem ↦ ⟨hstream, ?_⟩) rfl
      (hpast.isTerminal_state (Bool.eq_false_iff.mpr hstreaming))
    rw [hitems, ← Wake.item.inj hitem]
    rfl

/-- The end of the stream finishes the session, whatever there is in its last line. -/
theorem takesLeg_end {n : Nat} {c₁ : Controller σ} {rest : List Item}
    (hstream : c.hasStream = true) (hs : c₁.session = some s) (hp : s.phase = .reading n) :
    c.TakesLeg [] ⟨.item none, c₁.takeEnd.2⟩ rest c₁.takeEnd.1 := by
  have hwake (item : Option Item) (hitem : Wake.item none = .item item) :
      c.hasStream = true ∧ item = ([] : List Item).head? :=
    ⟨hstream, (Wake.item.inj hitem).symm⟩
  have hl : ({ s with lines := s.lines.finish.1 } : Session).isLive = true := isLive_of_reading hp
  have hstreaming : (c₁.withoutCarry s).isStreaming = true := isStreaming_iff.mpr ⟨_, rfl, hl⟩
  have hpast : (c₁.withoutCarry s).Past := ⟨_, rfl, .inl ⟨n, hp⟩⟩
  have hcourse : Course [] (c₁.withoutCarry s) _ :=
    course_takeLines hstreaming s.lines.finish.2.toList
  have htaken := hpast.course hcourse
  rw [takeEnd_of_session hs, endStream]
  generalize (c₁.withoutCarry s).takeLines s.lines.finish.2.toList = c₂ at htaken ⊢
  split
  · rename_i hlive
    obtain ⟨s₂, hs₂, hl₂⟩ := isStreaming_iff.mp hlive
    exact takesLeg_finish ((keeps_note c₂ _).session.trans hs₂) hl₂ .completed hwake
  · rename_i hover
    exact .finishes hwake rfl (htaken.isTerminal_state (Bool.eq_false_iff.mpr hover))

theorem takesLeg_item {n : Nat} {c₁ : Controller σ} {items : List Item}
    (hstream : c.hasStream = true) (hs : c₁.session = some s) (hp : s.phase = .reading n) :
    c.TakesLeg items ⟨.item items.head?, (c₁.onItem items.head?).2⟩ items.tail
      (c₁.onItem items.head?).1 := by
  have hl := isLive_of_reading hp
  have hwake (item : Option Item) (hitem : Wake.item items.head? = .item item) :
      c.hasStream = true ∧ item = items.head? := ⟨hstream, (Wake.item.inj hitem).symm⟩
  cases hcancelled : c₁.tokenCancelled with
  | true =>
    obtain ⟨ls, hls⟩ := onItem_of_cancelled hcancelled items.head?
    rw [hls]
    exact takesLeg_finish ((keeps_notes c₁ ls).session.trans hs) hl .cancelled hwake
  | false =>
    have hcourse : Course [] c₁ _ := course_onItem hs hp items.head?
    have hpast := Past.course ⟨s, hs, .inl ⟨n, hp⟩⟩ hcourse
    rw [onItem.eq_def, hcancelled, if_neg Bool.false_ne_true] at hpast ⊢
    cases items with
    | nil => exact takesLeg_end hstream hs hp
    | cons item rest =>
      cases item with
      | error e => exact takesLeg_finish hs hl (.errored (.transport e)) hwake
      | ok chunk =>
        dsimp only [List.head?_cons, List.tail_cons] at hpast ⊢
        rw [takeChunk, hs] at hpast ⊢
        exact takesLeg_lines rfl hstream hpast _

theorem takesLeg_answer {c₁ : Controller σ} {items : List Item} (hs : c₁.session = some s)
    (hp : s.phase = .opening) (hstream : c.hasStream = false) (htick : c₁.tick? = c.tick?)
    (answer : Except TransportError Nat) :
    c.TakesLeg items ⟨.answer answer, (c₁.onAnswer answer).2⟩ items (c₁.onAnswer answer).1 := by
  have hl : s.isLive = true := by rw [Session.isLive, hp]
  have hwake (item : Option Item) (hitem : Wake.answer answer = .item item) :
      c.hasStream = true ∧ item = items.head? := by cases hitem
  rw [onAnswer.eq_def]
  split
  · exact takesLeg_finish ((keeps_note c₁ _).session.trans hs) hl .cancelled hwake
  · cases answer with
    | error e => exact takesLeg_finish hs hl (.errored (.transport e)) hwake
    | ok stream =>
      dsimp only [onSession]
      rw [hs]
      refine .opens stream hstream (isStreaming_iff.mpr ⟨_, rfl, rfl⟩)
        (hasStream_of_reading rfl rfl) (.trans ?_ htick)
      rw [tick?, tick?, hs]
      rfl

theorem takesLeg_tick {n : Nat} {t : Tick} {c₁ : Controller σ} {items : List Item}
    (hstream : c.hasStream = true) (htick : c.tick? = some t) (hs : c₁.session = some s)
    (hp : s.phase = .reading n) (hwaiting : s.schedule.waiting = some t) :
    c.TakesLeg items ⟨.tick, (c₁.onTick t.id).2⟩ items (c₁.onTick t.id).1 := by
  have hl := isLive_of_reading hp
  cases hcancelled : c₁.tokenCancelled with
  | true =>
    rw [onTick_of_cancelled hcancelled]
    exact takesLeg_finish hs hl .cancelled nofun
  | false =>
    rw [tokenCancelled_of_session hs] at hcancelled
    rw [onTick_of_free hs hcancelled]
    have hfired : (c₁.paint s t.id).session = some (s.fired t.id) :=
      (keeps_tellUpdate _ _ _).session
    refine .paints (Option.isSome_of_eq_some htick) hstream
      (isStreaming_iff.mpr ⟨_, hfired, hl⟩) (hasStream_of_reading hfired hp) ?_
    rw [tick?, hfired]
    exact PaintSchedule.waiting_fire hwaiting s.text

/-- **A step of a drive** opens the stream, reads a chunk, paints or finishes the session. -/
theorem takesLeg (hstreaming : c.isStreaming = true) (answer : Except TransportError Nat)
    (items : List Item) (m : Moment) :
    ∃ leg rest c', c.nextWake answer items m.tickIsDue = (leg.wake, rest) ∧
      c.step (m.wait leg.wake) = (c', some leg.result) ∧ c.TakesLeg items leg rest c' := by
  have hnothing (item : Option Item) (hitem : Wake.nothing = .item item) :
      c.hasStream = true ∧ item = items.head? := by cases hitem
  have hturn := c.turns
  simp only [nextWake, step.eq_def]
  generalize c.turn = turn at hturn ⊢
  cases hturn with
  | idle hrest => cases hrest.symm.trans hstreaming
  | cancelled hs hl =>
    exact ⟨⟨_, _⟩, _, _, rfl, rfl, takesLeg_finish hs hl .cancelled hnothing⟩
  | @opening s hs hp =>
    have hl : s.isLive = true := by rw [Session.isLive, hp]
    exact ⟨⟨_, _⟩, _, _, rfl, rfl,
      takesLeg_finish hs hl (.errored (.transport neverOpened)) hnothing⟩
  | @unopened s r hs hp =>
    have hstream := hasStream_eq_false hs (stream?_of_unopened hp)
    have hs' := session_pass ({ c with session := some { s with phase := .opening } }.act
      (.asked r)) (m.wait (.answer answer))
    refine ⟨⟨_, _⟩, _, _, rfl, rfl, takesLeg_answer hs' rfl hstream ?_ answer⟩
    rw [tick?_pass, tick?, tick?, hs]
    rfl
  | @reading s n hs hp =>
    have hstream := hasStream_of_reading hs hp
    have htick : c.tick? = s.schedule.waiting := by
      rw [tick?, hs]
      rfl
    have hs' (w : Wait) : (c.pass w).session = some s := (session_pass c w).trans hs
    cases hdue : s.schedule.waiting.isSome && m.tickIsDue with
    | true =>
      obtain ⟨t, hwaiting⟩ := Option.isSome_iff_exists.mp (Bool.and_eq_true_iff.mp hdue).1
      refine ⟨⟨.tick, _⟩, items, _, if_pos hdue, ?_,
        takesLeg_tick hstream (htick.trans hwaiting) (hs' (m.wait .tick)) hp hwaiting⟩
      rw [hwaiting]
      rfl
    | false =>
      refine ⟨⟨.item items.head?, _⟩, _, _, if_neg (Bool.eq_false_iff.mp hdue), rfl,
        takesLeg_item hstream (hs' (m.wait (.item items.head?))) hp⟩

/-! ## Whole drives -/

/-- What a drive does that takes these legs and leaves that outcome and that controller: it needs a
moment for each leg and no more, and without an outcome it has used up all of them. -/
structure Drives (c : Controller σ) (answer : Except TransportError Nat) (items : List Item)
    (moments : List Moment) (legs : List Leg) (c' : Controller σ) (outcome : Option SessionState) :
    Prop where
  route : Route c.hasStream c.tick?.isSome items outcome legs
  drive : c.drive answer items moments = (c', outcome)
  enough : c.drive answer items (moments.take legs.length) = (c', outcome)
  short : ∀ k < legs.length, (c.drive answer items (moments.take k)).2 = none
  unfinished : outcome = none → legs.length = moments.length
  state : ∀ state, outcome = some state → c'.state = state

theorem drives_nil (c : Controller σ) (answer : Except TransportError Nat) (items : List Item) :
    c.Drives answer items [] [] c none where
  route := .stops _ _ _
  drive := rfl
  enough := rfl
  short k hk := by cases hk
  unfinished _ := rfl
  state _ h := by cases h

variable {answer : Except TransportError Nat} {items rest : List Item} {m : Moment}
  {moments : List Moment} {legs : List Leg} {outcome : Option SessionState} {wake : Wake}

/-- The last leg. -/
theorem drives_finished {state : SessionState}
    (hwake : c.nextWake answer items m.tickIsDue = (wake, rest))
    (hstep : c.step (m.wait wake) = (c', some (.finished state)))
    (hroute : Route c.hasStream c.tick?.isSome items (some state) [⟨wake, .finished state⟩])
    (hstate : c'.state = state) (moments : List Moment) :
    c.Drives answer items (m :: moments) [⟨wake, .finished state⟩] c' (some state) where
  route := hroute
  drive := drive_cons_finished hwake hstep moments
  enough := drive_cons_finished hwake hstep _
  short k hk := by
    rw [Nat.lt_one_iff.mp hk]
    rfl
  unfinished h := by cases h
  state _ h := Option.some.inj h ▸ hstate

/-- One leg more. -/
theorem Drives.cons {c₁ : Controller σ} {result : StepResult}
    (h : c₁.Drives answer rest moments legs c' outcome)
    (hwake : c.nextWake answer items m.tickIsDue = (wake, rest))
    (hstep : c.step (m.wait wake) = (c₁, some result))
    (hresult : ∀ state, result ≠ .finished state)
    (hroute : Route c.hasStream c.tick?.isSome items outcome (⟨wake, result⟩ :: legs)) :
    c.Drives answer items (m :: moments) (⟨wake, result⟩ :: legs) c' outcome where
  route := hroute
  drive := (drive_cons hwake hstep hresult moments).trans h.drive
  enough := (drive_cons hwake hstep hresult _).trans h.enough
  short k hk := by
    cases k with
    | zero => rfl
    | succ k =>
      rw [List.take_succ_cons, drive_cons hwake hstep hresult]
      exact h.short k (Nat.lt_of_succ_lt_succ hk)
  unfinished hnone := congrArg (· + 1) (h.unfinished hnone)
  state := h.state

theorem legs_cons {result : StepResult}
    (hwake : c.nextWake answer items m.tickIsDue = (wake, rest))
    (hstep : c.step (m.wait wake) = (c', some result))
    (hresult : ∀ state, result ≠ .finished state) (moments : List Moment) :
    c.legs answer items (m :: moments) = ⟨wake, result⟩ :: c'.legs answer rest moments := by
  rw [Controller.legs, hwake]
  dsimp only
  rw [hstep]
  cases result with
  | finished state => exact absurd rfl (hresult state)
  | _ => rfl

theorem legs_cons_finished {state : SessionState}
    (hwake : c.nextWake answer items m.tickIsDue = (wake, rest))
    (hstep : c.step (m.wait wake) = (c', some (.finished state))) (moments : List Moment) :
    c.legs answer items (m :: moments) = [⟨wake, .finished state⟩] := by
  rw [Controller.legs, hwake]
  dsimp only
  rw [hstep]

/-- **Every drive of a live session takes a route.** -/
theorem exists_drives (hstreaming : c.isStreaming = true) (answer : Except TransportError Nat)
    (items : List Item) (moments : List Moment) :
    ∃ c' outcome, c.Drives answer items moments (c.legs answer items moments) c' outcome := by
  induction moments generalizing c items with
  | nil => exact ⟨c, none, c.drives_nil answer items⟩
  | cons m moments ih =>
    obtain ⟨leg, rest, c₁, hwake, hstep, hleg⟩ := c.takesLeg hstreaming answer items m
    cases hleg with
    | opens stream hclosed hstreaming₁ hstream htick =>
      obtain ⟨c', outcome, hdrives⟩ := ih hstreaming₁ items
      rw [legs_cons hwake hstep nofun]
      refine ⟨c', outcome, hdrives.cons hwake hstep nofun ?_⟩
      have hroute := hdrives.route
      rw [hstream, htick] at hroute
      rw [hclosed]
      exact .opens stream hroute
    | reads lines hitems hopen hstreaming₁ hstream =>
      obtain ⟨c', outcome, hdrives⟩ := ih hstreaming₁ rest
      rw [legs_cons hwake hstep nofun]
      refine ⟨c', outcome, hdrives.cons hwake hstep nofun ?_⟩
      have hroute := hdrives.route
      rw [hstream] at hroute
      rw [hopen, hitems]
      exact .reads _ _ lines hroute
    | paints hwaits hopen hstreaming₁ hstream htick =>
      obtain ⟨c', outcome, hdrives⟩ := ih hstreaming₁ items
      rw [legs_cons hwake hstep nofun]
      refine ⟨c', outcome, hdrives.cons hwake hstep nofun ?_⟩
      have hroute := hdrives.route
      rw [hstream, htick] at hroute
      rw [hopen, hwaits]
      exact .paints hroute
    | @finishes _ _ wake state hitem hstate hterminal =>
      rw [legs_cons_finished hwake hstep]
      exact ⟨c₁, some state,
        drives_finished hwake hstep (.finishes hitem hterminal) hstate moments⟩

/-! ## Before the stream is open -/

/-- The current session has no text, and no tick waits for it. -/
def Unheard (c : Controller σ) : Prop :=
  ∀ s, c.session = some s → s.text = {} ∧ s.schedule.waiting = none

/-- A session has heard something only if its stream is open or was. -/
def HearsPast (c : Controller σ) : Prop := c.Past ∨ c.Unheard

namespace HearsPast

theorem congr (h : c.HearsPast) (hsession : c'.session = c.session) : c'.HearsPast := by
  rwa [HearsPast, Past, Unheard, hsession]

theorem unheard (h : c.HearsPast) (hstreaming : c.isStreaming = true)
    (hclosed : c.hasStream = false) : c.Unheard := by
  refine h.resolve_left fun hpast ↦ ?_
  cases (hpast.hasStream hstreaming).symm.trans hclosed

theorem endWait {r : Controller σ × StepResult} (h : c.HearsPast) (hr : r.1.Past) :
    (c.endWait r).1.HearsPast := by
  rw [Controller.endWait]
  split
  · exact .inl hr
  · exact h

theorem step (h : c.HearsPast) (w : Wait) : (c.step w).1.HearsPast := by
  by_cases hpast : c.Past
  · exact .inl (hpast.course (course_step c w))
  · have hunheard := h.resolve_left hpast
    have hturn := c.turns
    rw [step.eq_def]
    generalize c.turn = turn at hturn ⊢
    cases hturn with
    | idle => exact h
    | cancelled hs => exact .inl (past_finish hs .cancelled)
    | opening hs => exact .inl (past_finish hs (.errored (.transport neverOpened)))
    | reading hs hp => exact absurd ⟨_, hs, .inl ⟨_, hp⟩⟩ hpast
    | @unopened s r hs =>
      have hs' := session_pass
        ({ c with session := some { s with phase := .opening } }.act (.asked r)) w
      dsimp only
      cases w.wake with
      | answer a => exact .inl (past_onAnswer hs' a)
      | _ =>
        refine endWait (.inr fun s' hs'' ↦ ?_) (past_cancelledOpening hs')
        cases hs'.symm.trans hs''
        exact hunheard s hs

theorem finish (h : c.HearsPast) (e : Ending) : (c.finish e).HearsPast := by
  cases hs : c.session with
  | none => rwa [finish_of_none hs]
  | some s => exact .inl (past_finish hs e)

theorem launch (c : Controller σ) (p : Prompt) : (c.launch p).HearsPast := by
  refine .inr fun s hs ↦ ?_
  cases (keeps_launch c p).session.symm.trans hs
  exact ⟨rfl, rfl⟩

theorem apply (h : c.HearsPast) (hw : c.watched = true) (op : Op σ) :
    (c.apply op).HearsPast := by
  cases hprompt : op.prompt? c.config with
  | some q =>
    cases op with
    | begin p =>
      rw [Op.prompt?_begin_eq_some_iff] at hprompt
      rw [Controller.apply, begin_of_isTaken hprompt.1]
      exact launch _ p
    | start p w =>
      rw [Op.prompt?_start, Op.prompt?_begin_eq_some_iff] at hprompt
      rw [Controller.apply, start, begin_of_isTaken hprompt.1]
      exact (launch _ p).step w
    | _ => cases hprompt
  | none =>
    cases htouches : op.touches with
    | false => exact h.congr (apply_of_aloof hw hprompt htouches).1
    | true =>
      cases op with
      | step w => exact h.step w
      | cancel =>
        rw [Controller.apply, cancel]
        split
        · exact h.finish .cancelled
        · exact h
      | drop =>
        rw [Controller.apply, drop]
        split
        · exact finish (c := c.note _) h .cancelled
        · exact h
      | _ => cases htouches

theorem run (h : c.HearsPast) (hw : c.watched = true) (ops : List (Op σ)) :
    (c.run ops).HearsPast := by
  induction ops generalizing c with
  | nil => exact h
  | cons op ops ih => exact ih (h.apply hw op) ((c.later_apply op).watched.trans hw)

end HearsPast

theorem Reached.hearsPast (hc : c.Reached) : c.HearsPast := by
  obtain ⟨archive, store, config, transportName, ops, rfl⟩ := hc
  have hnone {s : Session} : (new archive store config transportName).session ≠ some s := nofun
  have hnew : (new archive store config transportName).HearsPast :=
    .inr fun _ hs ↦ absurd hs hnone
  exact hnew.run rfl ops

/-- **A drive comes to an end.** Whatever a controller has been through, if its session is streaming
and the stream is not open yet, a drive reaches a terminal state and tells it, whenever ticks are
due and whoever cancels meanwhile. It takes two steps for each chunk and two more at most, and each
of them opens the stream, reads one item, paints or finishes the session. At no time were there
more paintings than chunks that came before them. -/
theorem drive_reaches_end (hc : c.Reached) (hs : c.session = some s) (hl : s.isLive = true)
    (hunopened : s.stream? = none) (supply : Supply) (moments : List Moment)
    (hmoments : 2 * supply.chunks.length + 2 ≤ moments.length) :
    ∃ c' state, state.isTerminal = true ∧ c'.state = state ∧
      c.Drives supply.answer supply.items moments
        (c.legs supply.answer supply.items moments) c' (some state) ∧
      Route false false supply.items (some state) (c.legs supply.answer supply.items moments) ∧
      (c.legs supply.answer supply.items moments).length ≤ 2 * supply.chunks.length + 2 ∧
      ∀ before, before <+: c.legs supply.answer supply.items moments →
        before.countP Leg.paints ≤ before.countP Leg.receives := by
  have hstreaming : c.isStreaming = true := isStreaming_iff.mpr ⟨s, hs, hl⟩
  have hclosed := hasStream_eq_false hs hunopened
  have htick : c.tick? = none := by
    rw [tick?, hs]
    exact (hc.hearsPast.unheard hstreaming hclosed s hs).2
  obtain ⟨c', outcome, hdrives⟩ := exists_drives hstreaming supply.answer supply.items moments
  have hroute := hdrives.route
  rw [hclosed, htick] at hroute
  have hlength := hroute.length_le
  rw [supply.countP_isOk_items] at hlength
  cases outcome with
  | none =>
    -- Without an end all moments would be used up, and there are too many of them.
    have hall := hdrives.unfinished rfl
    have hbound : (c.legs supply.answer supply.items moments).length ≤
        2 * supply.chunks.length + 1 := hlength
    omega
  | some state =>
    refine ⟨c', state, hroute.isTerminal, hdrives.state state rfl, hdrives, hroute, hlength,
      fun before hbefore ↦ hroute.countP_paints_le hbefore⟩

/-- An answer in two pieces that ends by itself. -/
def twoPieces : Supply :=
  .stream 0 ["data: \x7b\"content\":\"ab\"\x7d\n".toUTF8.toList,
    "data: \x7b\"content\":\"c\"\x7d\n".toUTF8.toList] none

/-- Where ticks are always due, a drive takes as many steps as it may. -/
theorem drive_reaches_end_twoPieces :
    ∃ c' state, state.isTerminal = true ∧
      ((new History.archive {} {} "scripted").run [.begin { message := "hi" }]).drive
        twoPieces.answer twoPieces.items (List.replicate 7 ⟨[], 20, true⟩) = (c', some state) ∧
      (((new History.archive {} {} "scripted").run [.begin { message := "hi" }]).legs
        twoPieces.answer twoPieces.items (List.replicate 7 ⟨[], 20, true⟩)).map Leg.result =
          [.opened, .received 1, .painted, .received 1, .painted, .finished .completed] := by
  have hsome : ((new History.archive {} {} "scripted").run [.begin { message := "hi" }]).session.map
      (fun s ↦ (s.isLive, s.stream?)) = some (true, none) := by decide +kernel
  obtain ⟨s, hs, heq⟩ := Option.map_eq_some_iff.mp hsome
  obtain ⟨c', state, hterminal, -, hdrives, -⟩ :=
    drive_reaches_end ⟨_, _, _, _, [.begin { message := "hi" }], rfl⟩ hs
      (congrArg Prod.fst heq) (congrArg Prod.snd heq) twoPieces (List.replicate 7 ⟨[], 20, true⟩)
      (by decide)
  exact ⟨c', state, hterminal, hdrives.drive, by decide +kernel⟩

end Controller

end ChatStream
