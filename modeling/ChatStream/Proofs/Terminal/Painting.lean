import ChatStream.Proofs.Session.Finales
import ChatStream.Terminal.Screen

/-!
# What is left on a terminal

A terminal is written to piece by piece, and newlines are added where a piece before did not end its
line. What is left on standard output is nevertheless easy to say: the texts of the sessions, one
after another, each with its last line ended. Neither the frames in which a text came nor the status
lines between two texts can be seen in it.

`Displays` is the invariant. While a session is streaming, its text but for what is pending stands
behind the texts of the sessions before it, and the terminal knows whether that part ends a line. A
status line in the middle of a text would end its line there. No move has one: the status lines at
the end of a session come after its text, and the others are shown between two sessions.
-/

namespace ChatStream

/-! ## Lines -/

/-- Whether a terminal that shows the text is at the start of a line. -/
def endsLine (text : String) : Bool := text.isEmpty || text.toList.getLast? = some '\n'

/-- The text with its last line ended: by a newline, if it is not empty and has none at its end. -/
def lineEnded (text : String) : String := if endsLine text then text else text ++ "\n"

/-- The last piece of a text decides, unless it is empty. -/
theorem endsLine_append (text : String) {piece : String} (h : piece.isEmpty = false) :
    endsLine (text ++ piece) = decide (piece.toList.getLast? = some '\n') := by
  rw [String.isEmpty_eq_false_iff] at h
  have hnonempty : (text ++ piece).isEmpty = false :=
    String.isEmpty_eq_false_iff.mpr fun hempty ↦ h (String.append_eq_empty_iff.mp hempty).2
  rw [endsLine, hnonempty, Bool.false_or, String.toList_append,
    List.getLast?_append_of_ne_nil _ (mt String.toList_eq_nil_iff.mp h)]

/-! ## The screen -/

/-- An event that is not a part of an answer. -/
def ViewEvent.isAside : ViewEvent → Bool
  | .render .. => false
  | _ => true

namespace Screen

variable {s : Screen} {before text : String}

/-- The terminal shows a text behind what was there before, and knows whether that ends its line. -/
structure Shows (s : Screen) (before text : String) : Prop where
  out : s.out = before ++ text
  atLineStart : s.atLineStart = endsLine text

theorem Shows.write (h : s.Shows before text) (piece : String) :
    (s.write piece).Shows before (text ++ piece) := by
  rw [Screen.write]
  split_ifs with hempty
  · rw [String.isEmpty_iff.mp hempty, String.append_empty]
    exact h
  · rw [Bool.not_eq_true] at hempty
    constructor
    · dsimp only
      rw [h.out, String.append_assoc]
    · exact (endsLine_append text hempty).symm

/-- With its line ended, the text is one of those before. -/
theorem Shows.endLine (h : s.Shows before text) :
    s.endLine.Shows (before ++ lineEnded text) "" := by
  rw [Screen.endLine, lineEnded, h.atLineStart]
  split_ifs with hends
  · exact ⟨h.out.trans String.append_empty.symm, h.atLineStart.trans hends⟩
  · refine ⟨?_, rfl⟩
    dsimp only
    rw [h.out, String.append_assoc, String.append_empty]

/-- Between two texts a status line is seen on standard error only. -/
theorem Shows.aside (h : s.Shows before "") {e : ViewEvent} (he : e.isAside = true) :
    (s.paint e).Shows before "" := by
  have hstatus (line : String) : (s.status line).Shows before "" := by
    have hended := h.endLine
    have hbefore : before ++ lineEnded "" = before := String.append_empty
    rw [hbefore] at hended
    exact ⟨hended.out, hended.atLineStart⟩
  cases e with
  | render => cases he
  | notice => exact hstatus _
  | budgetNearLimit => exact hstatus _
  | sessionStarted => exact h
  | stateChanged session state =>
    cases state with
    | cancelled => exact hstatus _
    | _ => exact h

theorem Shows.asides (h : s.Shows before "") {es : List ViewEvent}
    (hes : ∀ e ∈ es, e.isAside = true) : (s.paintAll es).Shows before "" := by
  induction es generalizing s with
  | nil => exact h
  | cons e es ih =>
    obtain ⟨he, hes⟩ := List.forall_mem_cons.mp hes
    exact ih (h.aside he) hes

theorem Shows.frame (h : s.Shows before text) (session : Nat) (delta : String) :
    (s.paint (.render session (.frame delta))).Shows before (text ++ delta) :=
  h.write delta

/-- The final update ends the line of the text, if there is one. -/
theorem Shows.final (h : s.Shows before text) (session : Nat) (delta : String)
    (state : SessionState) :
    (s.paint (.render session (.final delta (text ++ delta) state))).Shows
      (before ++ lineEnded (text ++ delta)) "" := by
  have hwritten := h.write delta
  rw [paint]
  split_ifs with hempty
  · rw [String.isEmpty_iff.mp hempty] at hwritten ⊢
    have hbefore : before ++ lineEnded "" = before := String.append_empty
    rwa [hbefore]
  · exact hwritten.endLine

theorem paintAll_append (s : Screen) (es es' : List ViewEvent) :
    s.paintAll (es ++ es') = (s.paintAll es).paintAll es' :=
  List.foldl_append

/-! ### Standard output -/

/-- The two differ on standard error at most. -/
structure SameAnswer (s s' : Screen) : Prop where
  out : s.out = s'.out
  atLineStart : s.atLineStart = s'.atLineStart

namespace SameAnswer

variable {s s' : Screen}

theorem write (h : s.SameAnswer s') (text : String) : (s.write text).SameAnswer (s'.write text) := by
  rw [Screen.write, Screen.write, h.out]
  split_ifs
  · exact h
  · exact ⟨rfl, rfl⟩

theorem endLine (h : s.SameAnswer s') : s.endLine.SameAnswer s'.endLine := by
  rw [Screen.endLine, Screen.endLine, h.out, h.atLineStart]
  split_ifs with hstart
  · exact ⟨h.out, h.atLineStart⟩
  · exact ⟨rfl, rfl⟩

theorem paint (h : s.SameAnswer s') (e : ViewEvent) : (s.paint e).SameAnswer (s'.paint e) := by
  have hstatus (line : String) : (s.status line).SameAnswer (s'.status line) :=
    ⟨h.endLine.out, h.endLine.atLineStart⟩
  cases e with
  | render session update =>
    cases update with
    | frame delta => exact h.write delta
    | final delta committed state =>
      rw [Screen.paint, Screen.paint]
      split_ifs
      · exact h.write delta
      · exact (h.write delta).endLine
  | notice => exact hstatus _
  | budgetNearLimit => exact hstatus _
  | sessionStarted => exact h
  | stateChanged session state =>
    cases state with
    | cancelled => exact hstatus _
    | _ => exact h

/-- What was on standard error before is not seen in the answer. -/
theorem paintAll (h : s.SameAnswer s') (es : List ViewEvent) :
    (s.paintAll es).SameAnswer (s'.paintAll es) := by
  induction es generalizing s s' with
  | nil => exact h
  | cons e es ih => exact ih (h.paint e)

end SameAnswer

/-! ### Standard error -/

/-- What an event writes to standard error. -/
def statusLine (e : ViewEvent) : String := ((statusText? e).map (· ++ "\n")).getD ""

theorem err_write (s : Screen) (text : String) : (s.write text).err = s.err := by
  rw [Screen.write]
  split_ifs <;> rfl

theorem err_endLine (s : Screen) : s.endLine.err = s.err := by
  rw [endLine]
  split_ifs <;> rfl

theorem err_paint (s : Screen) (e : ViewEvent) : (s.paint e).err = s.err ++ statusLine e := by
  have hstatus (line : String) : (s.status line).err = s.err ++ (line ++ "\n") := by
    rw [status, ← String.append_assoc, ← err_endLine s]
  have hquiet (s' : Screen) (herr : s'.err = s.err) : s'.err = s.err ++ "" := by
    rw [herr, String.append_empty]
  cases e with
  | render session update =>
    cases update with
    | frame delta => exact hquiet _ (s.err_write delta)
    | final delta committed state =>
      refine hquiet _ ?_
      rw [paint]
      split_ifs
      · exact s.err_write delta
      · rw [err_endLine, err_write]
  | notice => exact hstatus _
  | budgetNearLimit => exact hstatus _
  | sessionStarted => exact hquiet s rfl
  | stateChanged session state =>
    cases state with
    | cancelled => exact hstatus _
    | _ => exact hquiet s rfl

/-- Standard error has the status lines of all events, wherever the answer stood meanwhile. -/
theorem err_paintAll (s : Screen) (es : List ViewEvent) :
    (s.paintAll es).err = s.err ++ .join (es.map statusLine) := by
  induction es generalizing s with
  | nil => exact String.append_empty.symm
  | cons e es ih =>
    have hcons : s.paintAll (e :: es) = (s.paint e).paintAll es := rfl
    rw [hcons, ih, err_paint, List.map_cons, String.join_cons, String.append_assoc]

end Screen

/-! ## The controller -/

theorem Deed.finale?_of_isAside {d : Deed} (hd : ∀ e, d.event? = some e → e.isAside = true) :
    d.finale? = none := by
  unfold Deed.finale?
  split
  · cases hd _ rfl
  · rfl

theorem Check.isAside_of_mem (k : Check) : ∀ e ∈ k.events, e.isAside = true := by
  intro e he
  rw [events, List.mem_map] at he
  obtain ⟨n, -, rfl⟩ := he
  rfl

theorem Offer.isAside_of_mem (o : Offer) : ∀ e ∈ o.events, e.isAside = true := by
  intro e he
  rw [events, List.mem_map] at he
  obtain ⟨refusal, -, rfl⟩ := he
  rfl

theorem Ending.isAside_of_mem (e : Ending) : ∀ e' ∈ e.events, e'.isAside = true := by
  cases e with
  | errored f => exact List.forall_mem_singleton.mpr rfl
  | completed | cancelled => exact List.forall_mem_nil _

/-- The end of a session is told in its final update, and behind that nothing of the answer. -/
theorem Closing.exists_events (session : Nat) (committed : String) (k : Closing) :
    ∃ es : List ViewEvent, (∀ e ∈ es, e.isAside = true) ∧
      k.events session committed =
        .render session (.final k.delta committed k.ending.state) :: es := by
  refine ⟨k.offers.flatMap Offer.events ++ .stateChanged session k.ending.state ::
    k.ending.events ++ k.check.events ++ k.later.flatMap Check.events, ?_, rfl⟩
  intro e he
  simp only [List.mem_append, List.mem_cons, List.mem_flatMap] at he
  rcases he with ((⟨o, -, he⟩ | rfl | he) | he) | ⟨k', -, he⟩
  · exact o.isAside_of_mem e he
  · rfl
  · exact k.ending.isAside_of_mem e he
  · exact k.check.isAside_of_mem e he
  · exact k'.isAside_of_mem e he

namespace Controller

variable {σ : Type} {c c' : Controller σ} {s : Session}

/-- A terminal on which all is painted that the controller has shown. -/
def painting (c : Controller σ) : Screen := Screen.paintAll {} c.events

/-- The text of the session that is streaming; where none is, there is no text yet. -/
def liveText (c : Controller σ) : RunningText :=
  match c.session with
  | some s => if s.isLive then s.text else {}
  | none => {}

/-- What the sessions that are over leave on a terminal. -/
def answers (c : Controller σ) : String := .join (c.finales.map fun f ↦ lineEnded f.text)

theorem liveText_of_live (hs : c.session = some s) (hl : s.isLive = true) :
    c.liveText = s.text := by
  rw [liveText, hs]
  exact if_pos hl

theorem liveText_of_rest (hrest : c.isStreaming = false) : c.liveText = {} := by
  rw [liveText]
  split
  · rename_i s hs
    rw [isStreaming_of_session hs] at hrest
    rw [hrest]
    rfl
  · rfl

theorem painting_of_outline {ds : List Deed} (h : c'.outline = c.outline ++ ds) :
    c'.painting = c.painting.paintAll (ds.filterMap Deed.event?) := by
  rw [painting, events_of_outline h, Screen.paintAll_append, painting]

theorem answers_of_finales {f : Finale} (h : c'.finales = c.finales ++ [f]) :
    c'.answers = c.answers ++ lineEnded f.text := by
  rw [answers, h, List.map_append, String.join_append, List.map_singleton, String.join_cons,
    String.join_nil, String.append_empty, answers]

/-- The terminal shows the texts of the sessions that are over, and what is not pending of the text
of the one that is streaming. -/
def Displays (c : Controller σ) : Prop :=
  ∃ shown, shown ++ c.liveText.pending = c.liveText.committed ∧ c.painting.Shows c.answers shown

/-- Between two sessions the terminal shows the texts of those that are over. -/
theorem Displays.shows (hd : c.Displays) (hrest : c.isStreaming = false) :
    c.painting.Shows c.answers "" := by
  obtain ⟨shown, htext, hshows⟩ := hd
  rw [liveText_of_rest hrest] at htext
  rwa [(String.append_eq_empty_iff.mp htext).1] at hshows

theorem displays_of_shows (htext : c.liveText = {}) (h : c.painting.Shows c.answers "") :
    c.Displays := by
  refine ⟨"", ?_, h⟩
  rw [htext]
  rfl

theorem displays_new (archive : Archive σ) (store : σ) (config : Config) (transportName : String) :
    (new archive store config transportName).Displays :=
  displays_of_shows rfl ⟨rfl, rfl⟩

/-! ### What a move paints -/

/-- The view is told nothing. -/
theorem Displays.quiet (hd : c.Displays) {ds : List Deed} (houtline : c'.outline = c.outline ++ ds)
    (hds : ds.filterMap Deed.event? = []) (htext : c'.liveText = c.liveText) : c'.Displays := by
  have hfinales : c'.finales = c.finales := by
    rw [finales_of_outline houtline, List.filterMap_eq_nil_iff.mpr, List.append_nil]
    intro d hd
    refine Deed.finale?_of_isAside fun e he ↦ ?_
    rw [List.filterMap_eq_nil_iff] at hds
    cases (hds d hd).symm.trans he
  rw [Displays, painting_of_outline houtline, hds, htext, answers, hfinales]
  exact hd

/-- The view is told something between two sessions. -/
theorem Displays.asides (hd : c.Displays) (hrest : c.isStreaming = false) {ds : List Deed}
    (houtline : c'.outline = c.outline ++ ds)
    (hds : ∀ e ∈ ds.filterMap Deed.event?, e.isAside = true) (htext : c'.liveText = {}) :
    c'.Displays := by
  have hfinales : c'.finales = c.finales := by
    rw [finales_of_outline houtline, List.filterMap_eq_nil_iff.mpr, List.append_nil]
    exact fun d hd ↦ Deed.finale?_of_isAside fun e he ↦
      hds e (List.mem_filterMap.mpr ⟨d, hd, he⟩)
  refine displays_of_shows htext ?_
  rw [painting_of_outline houtline, answers, hfinales]
  exact (hd.shows hrest).asides hds

theorem Displays.fragment (hd : c.Displays) (hs : c.session = some s) (hl : s.isLive = true)
    (text : String) (scheduled : Bool) :
    Displays { c with session := some (s.fragment c.now text scheduled) } := by
  obtain ⟨shown, htext, hshows⟩ := hd
  obtain ⟨hcommitted, hpending⟩ := s.text.apply_eq text
  refine ⟨shown, ?_, hshows⟩
  rw [liveText_of_live hs hl] at htext
  rw [Session.fragment_eq, liveText_of_live rfl]
  · dsimp only
    rw [hpending, hcommitted, ← String.append_assoc, htext]
  · exact hl

/-- A frame shows what was pending. -/
theorem Displays.paint (hd : c.Displays) (hw : c.watched = true) (hs : c.session = some s)
    (hl : s.isLive = true) {t : Tick} (hwaiting : s.schedule.waiting = some t) :
    (c.paint s t.id).Displays := by
  obtain ⟨shown, htext, hshows⟩ := hd
  obtain ⟨-, hdrained, hupdate⟩ := PaintSchedule.fire_of_waiting hwaiting s.text
  have hkeeps := keeps_tellUpdate { c with session := some (s.fired t.id) } s.id
    (s.schedule.fire t.id s.text).2.2
  have hlive : (c.paint s t.id).liveText = { s.text with pending := "" } :=
    (liveText_of_live hkeeps.session hl).trans hdrained
  rw [liveText_of_live hs hl] at htext
  refine ⟨shown ++ s.text.pending, ?_, ?_⟩
  · rw [hlive, htext]
    exact String.append_empty
  · rw [Controller.paint, hupdate]
    split_ifs with hpending
    · rw [hpending, String.append_empty]
      exact hshows
    · have houtline := outline_tell (c := { c with session := some (s.fired t.id) }) hw
        (.render s.id (.frame s.text.pending))
      have hfinales := (finales_of_outline houtline).trans (List.append_nil _)
      rw [tellUpdate, painting_of_outline houtline, answers, hfinales]
      exact hshows.frame s.id s.text.pending

theorem Displays.finish {h : Chronicle} (hd : c.Displays) (ht : h.Tells c) (hs : c.session = some s)
    (hl : s.isLive = true) (e : Ending) : (c.finish e).Displays := by
  obtain ⟨shown, htext, hshows⟩ := hd
  obtain ⟨k, -, hdelta, -, hevents, -⟩ := ht.exists_events_finish hs hl e
  obtain ⟨es, hes, heq⟩ := k.exists_events s.id s.text.committed
  rw [liveText_of_live hs hl, ← hdelta] at htext
  refine displays_of_shows (liveText_of_rest (isStreaming_finish c e)) ?_
  rw [answers_of_finales (ht.finales_finish hs hl e), painting, hevents, heq,
    Screen.paintAll_append, ← painting, ← htext]
  exact (hshows.final s.id k.delta k.ending.state).asides hes

theorem Displays.launch (hd : c.Displays) (hw : c.watched = true) (hrest : c.isStreaming = false)
    (p : Prompt) : (c.launch p).Displays := by
  have hlive : (c.launch p).liveText = {} := liveText_of_live (keeps_launch c p).session rfl
  exact hd.asides hrest (outline_launch hw p) (fun e he ↦ by
    rcases List.mem_pair.mp he with rfl | rfl <;> rfl) hlive

theorem Displays.move {h : Chronicle} (hd : c.Displays) (ht : h.Tells c) (hmove : Move c c') :
    c'.Displays := by
  -- Most moves tell the view nothing and leave the text as it is.
  have hsilent (houtline : c'.outline = c.outline) (htext : c'.liveText = c.liveText) :
      c'.Displays := hd.quiet (houtline.trans (List.append_nil _).symm) rfl htext
  have hreading {s s' : Session} (hs : c.session = some s) (hl : s.isLive = true)
      (hs' : c'.session = some s') (hl' : s'.isLive = true) (htext : s'.text = s.text) :
      c'.liveText = c.liveText := by
    rw [liveText_of_live hs hl, liveText_of_live hs' hl', htext]
  cases hmove with
  | log l => exact hsilent (outline_note c l) rfl
  | time | store | summary => exact hsilent rfl rfl
  | token =>
    rw [cancelToken_eq] at hsilent ⊢
    exact hsilent rfl rfl
  | ask hs hunopened =>
    refine hd.quiet (outline_act _ _) rfl (hreading hs ?_ rfl rfl rfl)
    rw [Session.isLive, hunopened]
  | opened n hs hopening =>
    refine hsilent rfl (hreading hs ?_ rfl rfl rfl)
    rw [Session.isLive, hopening]
  | chunk bytes hs hreads | streamEnd hs hreads =>
    exact hsilent rfl (hreading hs (isLive_of_reading hreads) rfl (isLive_of_reading hreads) rfl)
  | fragment text scheduled hs hl => exact hd.fragment hs hl text scheduled
  | paint hs hreads hwaiting => exact hd.paint ht.watched hs (isLive_of_reading hreads) hwaiting
  | finish e hs hl => exact hd.finish ht hs hl e
  | launch p hrest => exact hd.launch ht.watched hrest p

theorem Displays.moves {h : Chronicle} (hd : c.Displays) (ht : h.Tells c) (hmoves : Moves c c') :
    c'.Displays := by
  induction hmoves with
  | refl => exact hd
  | tail hbefore hmove ih =>
    obtain ⟨h', ht', -, -⟩ := ht.moves hbefore
    exact ih.move ht' hmove

end Controller

end ChatStream
