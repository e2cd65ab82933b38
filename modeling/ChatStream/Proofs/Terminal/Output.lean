import ChatStream.Proofs.Session.Painted
import ChatStream.Proofs.Terminal.Painting

/-!
# Where the lines of a terminal end

A terminal is told what to write and adds newlines of its own, and all that it knows of what it has
written is one flag. `Knows` says that the flag is right: it is up exactly if nothing is on standard
output or the last character there is a newline. Every event keeps that, in whatever order events
come, and so what a newline is added to is decided by the text itself. This is the first half.

The second half is about terminals that paint what a controller shows. Here the order of events is
not arbitrary, and the texts of the sessions stand on standard output one after another. The one
thing that can break a text in two is a check of the budget while its session is streaming, because
what the user is told of it is a status line. Such a check is made on demand only; the others come
after the text. So texts are whole in a run where no session is streaming when a check is asked for.
-/

namespace ChatStream

/-! ## What an event writes -/

namespace ViewEvent

/-- The part of the answer that an event brings. -/
def delta : ViewEvent → String
  | .render _ update => update.delta
  | _ => ""

/-- Whether the line of the answer is ended at an event: for a status line, or behind a text. -/
def closesLine : ViewEvent → Bool
  | .render _ (.final _ committed _) => !committed.isEmpty
  | e => (statusText? e).isSome

/-- The newline that is added at an event, if one is: the line of the answer is to be ended, and
what has been written so far ends in a character that does not end it. -/
def lineBreak (written : String) (e : ViewEvent) : String :=
  match (written ++ e.delta).toList.getLast? with
  | some a => if e.closesLine ∧ a ≠ '\n' then "\n" else ""
  | none => ""

end ViewEvent

theorem getLast?_eq_none_iff {text : String} : text.toList.getLast? = none ↔ text = "" := by
  rw [List.getLast?_eq_none_iff, String.toList_eq_nil_iff]

/-- A newline is added exactly if a line is to be ended that is not. -/
theorem ViewEvent.lineBreak_eq (written : String) (e : ViewEvent) :
    e.lineBreak written =
      if e.closesLine ∧ endsLine (written ++ e.delta) = false then "\n" else "" := by
  rw [lineBreak, endsLine]
  cases hlast : (written ++ e.delta).toList.getLast? with
  | none =>
    rw [getLast?_eq_none_iff.mp hlast]
    simp
  | some a =>
    have hne : (written ++ e.delta).isEmpty = false := by
      rw [String.isEmpty_eq_false_iff]
      intro hempty
      rw [hempty] at hlast
      cases hlast
    simp [hne]

theorem endsLine_lineEnded (text : String) : endsLine (lineEnded text) = true := by
  rw [lineEnded]
  split_ifs with hends
  · exact hends
  · exact endsLine_append text rfl

/-- Texts whose last lines are ended leave a terminal at the start of a line. -/
theorem endsLine_join_lineEnded (texts : List String) :
    endsLine (.join (texts.map lineEnded)) = true := by
  induction texts using List.reverseRecOn with
  | nil => rfl
  | append_singleton texts text ih =>
    rw [List.map_append, List.map_singleton, String.join_append, String.join_cons, String.join_nil,
      String.append_empty]
    cases hempty : (lineEnded text).isEmpty with
    | true => rwa [String.isEmpty_iff.mp hempty, String.append_empty]
    | false =>
      have hends := endsLine_lineEnded text
      rw [endsLine, hempty, Bool.false_or] at hends
      exact (endsLine_append _ hempty).trans hends

/-! ## One flag -/

namespace Screen

variable {s : Screen}

/-- The terminal knows whether standard output is at the start of a line. -/
def Knows (s : Screen) : Prop := s.atLineStart = endsLine s.out

theorem out_write (s : Screen) (text : String) : (s.write text).out = s.out ++ text := by
  rw [write]
  split_ifs with hempty
  · rw [String.isEmpty_iff.mp hempty, String.append_empty]
  · rfl

theorem Knows.write (h : s.Knows) (text : String) : (s.write text).Knows := by
  rw [Screen.write]
  split_ifs with hempty
  · exact h
  · exact (endsLine_append s.out (Bool.eq_false_iff.mpr hempty)).symm

theorem Knows.out_endLine (h : s.Knows) : s.endLine.out = lineEnded s.out := by
  rw [endLine, lineEnded, ← h]
  split_ifs <;> rfl

theorem atLineStart_endLine (s : Screen) : s.endLine.atLineStart = true := by
  rw [endLine]
  split_ifs with hstart
  · exact hstart
  · rfl

theorem Knows.endLine (h : s.Knows) : s.endLine.Knows := by
  rw [Knows, atLineStart_endLine, h.out_endLine, endsLine_lineEnded]

/-- What an event does to standard output, and to what the terminal knows of it. -/
theorem Knows.paint (h : s.Knows) (e : ViewEvent) :
    (s.paint e).Knows ∧ (s.paint e).out = s.out ++ e.delta ++ e.lineBreak s.out := by
  have hstatus (line : String) (hclose : e.closesLine = true) (hdelta : e.delta = "") :
      (s.status line).Knows ∧ (s.status line).out = s.out ++ e.delta ++ e.lineBreak s.out := by
    refine ⟨h.endLine, h.out_endLine.trans ?_⟩
    rw [e.lineBreak_eq, hclose, hdelta, String.append_empty, lineEnded]
    cases endsLine s.out <;> simp
  have hquiet (hclose : e.closesLine = false) (hdelta : e.delta = "") :
      s.Knows ∧ s.out = s.out ++ e.delta ++ e.lineBreak s.out := by
    refine ⟨h, ?_⟩
    rw [e.lineBreak_eq, hclose, hdelta]
    simp
  cases e with
  | render session update =>
    cases update with
    | frame delta =>
      refine ⟨h.write delta, (s.out_write delta).trans ?_⟩
      rw [ViewEvent.lineBreak_eq]
      exact String.append_empty.symm
    | final delta committed state =>
      rw [Screen.paint, ViewEvent.lineBreak_eq, ViewEvent.closesLine, ViewEvent.delta, Update.delta]
      split_ifs with hempty hbreak hbreak
      · simp [hempty] at hbreak
      · exact ⟨h.write delta, (s.out_write delta).trans String.append_empty.symm⟩
      · refine ⟨(h.write delta).endLine, (h.write delta).out_endLine.trans ?_⟩
        rw [s.out_write, lineEnded, if_neg (Bool.eq_false_iff.mp hbreak.2)]
      · refine ⟨(h.write delta).endLine, (h.write delta).out_endLine.trans ?_⟩
        have hends : endsLine (s.out ++ delta) = true := by
          simpa [hempty] using hbreak
        rw [s.out_write, lineEnded, if_pos hends, String.append_empty]
  | notice => exact hstatus _ rfl rfl
  | budgetNearLimit => exact hstatus _ rfl rfl
  | sessionStarted => exact hquiet rfl rfl
  | stateChanged session state =>
    cases state with
    | cancelled => exact hstatus _ rfl rfl
    | _ => exact hquiet rfl rfl

theorem Knows.paintAll (h : s.Knows) (es : List ViewEvent) : (s.paintAll es).Knows := by
  induction es generalizing s with
  | nil => exact h
  | cons e es ih => exact ih (h.paint e).1

/-! ## Whole runs of a terminal -/

/-- The newlines that are added at the events of a list, one entry for each. -/
def lineBreaks (s : Screen) : List ViewEvent → List String
  | [] => []
  | e :: es => e.lineBreak s.out :: (s.paint e).lineBreaks es

theorem length_lineBreaks (s : Screen) (es : List ViewEvent) :
    (s.lineBreaks es).length = es.length := by
  induction es generalizing s with
  | nil => rfl
  | cons e es ih => exact congrArg (· + 1) (ih _)

theorem getElem?_lineBreaks (s : Screen) (es : List ViewEvent) (i : Nat) :
    (s.lineBreaks es)[i]? = es[i]?.map (ViewEvent.lineBreak (s.paintAll (es.take i)).out) := by
  induction es generalizing s i with
  | nil => rfl
  | cons e es ih =>
    cases i with
    | zero => rfl
    | succ i => exact ih _ i

theorem Knows.out_paintAll (h : s.Knows) (es : List ViewEvent) :
    (s.paintAll es).out =
      s.out ++ .join (List.zipWith (fun e added ↦ e.delta ++ added) es (s.lineBreaks es)) := by
  induction es generalizing s with
  | nil => exact String.append_empty.symm
  | cons e es ih =>
    obtain ⟨hknows, hout⟩ := h.paint e
    have hrest : s.paintAll (e :: es) = (s.paint e).paintAll es := rfl
    rw [hrest, ih hknows, hout, lineBreaks, List.zipWith_cons_cons, String.join_cons]
    simp only [String.append_assoc]

theorem paint_of_statusText {e : ViewEvent} {line : String} (he : statusText? e = some line)
    (s : Screen) : s.paint e = { s.endLine with err := s.err ++ line ++ "\n" } := by
  have hstatus : s.paint e = s.status line := by
    cases e with
    | render => cases he
    | sessionStarted => cases he
    | notice | budgetNearLimit => exact congrArg s.status (Option.some.inj he)
    | stateChanged session state =>
      cases state with
      | cancelled => exact congrArg s.status (Option.some.inj he)
      | _ => cases he
  rw [hstatus, status, err_endLine]

/-- What is on a terminal after a list of events, with the newlines that it added at each of them.

A status line meets the terminal with the line of the answer ended, and is all that is written
then. -/
structure Lays (es : List ViewEvent) (added : List String) : Prop where
  length : added.length = es.length
  out : (paintAll {} es).out =
    .join (List.zipWith (fun e added ↦ e.delta ++ added) es added)
  breaks : ∀ i (e : ViewEvent), es[i]? = some e →
    added[i]? = some (e.lineBreak (paintAll {} (es.take i)).out)
  err : (paintAll {} es).err = .join ((es.filterMap statusText?).map (· ++ "\n"))
  status : ∀ before e after line, es = before ++ e :: after → statusText? e = some line →
    ∃ s : Screen, s = (paintAll {} before).endLine ∧ s.err = (paintAll {} before).err ∧
      endsLine s.out = true ∧
      paintAll {} (before ++ [e]) = { s with err := s.err ++ line ++ "\n" }

theorem join_statusLine (es : List ViewEvent) :
    String.join (es.map statusLine) = .join ((es.filterMap statusText?).map (· ++ "\n")) := by
  induction es with
  | nil => rfl
  | cons e es ih =>
    rw [List.map_cons, String.join_cons, ih, statusLine]
    cases he : statusText? e with
    | none =>
      rw [List.filterMap_cons_none he]
      exact String.empty_append
    | some line =>
      rw [List.filterMap_cons_some he, List.map_cons, String.join_cons]
      rfl

theorem lays (es : List ViewEvent) : Lays es (lineBreaks {} es) where
  length := length_lineBreaks _ es
  out := by
    have hknows : Knows {} := rfl
    rw [hknows.out_paintAll es]
    exact String.empty_append
  breaks i e he := by rw [getElem?_lineBreaks, he, Option.map_some]
  err := by
    rw [err_paintAll, join_statusLine]
    exact String.empty_append
  status before e after line _ he := by
    have hnew : Knows {} := rfl
    have hknows : (paintAll {} before).endLine.Knows := (hnew.paintAll before).endLine
    refine ⟨_, rfl, err_endLine _, ?_, ?_⟩
    · exact hknows.symm.trans (atLineStart_endLine _)
    · rw [paintAll_append, err_endLine]
      exact paint_of_statusText he _

end Screen

/-! ## Texts that are whole -/

namespace Controller

variable {σ : Type} {c c' : Controller σ} {h : Chronicle} {s : Session}

/-- Whether no session is streaming whenever a run asks for a check of the budget. -/
def checksAtRest (c : Controller σ) : List (Op σ) → Bool
  | [] => true
  | op :: ops => (!op.isMeasure || !c.isStreaming) && (c.apply op).checksAtRest ops

theorem Displays.measure (hd : c.Displays) (ht : h.Tells c) (hrest : c.isStreaming = false) :
    c.measure.1.Displays := by
  refine hd.asides hrest (outline_measure ht.watched) ?_
    (liveText_of_rest ((isStreaming_congr (keeps_measure c).session).trans hrest))
  rw [c.checked.filterMap_deeds]
  exact c.checked.isAside_of_mem

theorem Displays.run (hd : c.Displays) (ht : h.Tells c) {ops : List (Op σ)}
    (hchecks : c.checksAtRest ops = true) : (c.run ops).Displays := by
  induction ops generalizing c h with
  | nil => exact hd
  | cons op ops ih =>
    obtain ⟨h', ht', -, -⟩ := ht.apply op
    rw [checksAtRest, Bool.and_eq_true] at hchecks
    refine ih ?_ ht' hchecks.2
    cases hop : op.isMeasure with
    | false => exact hd.moves ht (moves_apply c hop)
    | true =>
      obtain rfl := Op.eq_measure hop
      exact hd.measure ht (by simpa [hop] using hchecks.1)

/-- What the first sessions leave on a terminal. -/
def answersBefore (c : Controller σ) (session : Nat) : String :=
  .join ((c.finales.take session).map fun f ↦ lineEnded f.text)

theorem endsLine_answersBefore (c : Controller σ) (session : Nat) :
    endsLine (c.answersBefore session) = true := by
  have hends := endsLine_join_lineEnded ((c.finales.take session).map Finale.text)
  rwa [List.map_map] at hends

/-- The answer of a session stands behind those of the sessions before it. -/
theorem exists_answers_eq (ht : h.Tells c) {f : Finale} (hf : f ∈ c.finales) :
    ∃ rest, c.answers = c.answersBefore f.session ++ lineEnded f.text ++ rest := by
  obtain ⟨fs, rest, hfinales⟩ := List.append_of_mem hf
  have hlength : f.session = fs.length := by
    have hsessions := congrArg (·[fs.length]?) ht.sessions_finales
    simp only [hfinales, List.map_append, List.map_cons] at hsessions
    rw [List.getElem?_append_right (List.length_map _).le, List.length_map, Nat.sub_self,
      List.getElem?_cons_zero] at hsessions
    obtain ⟨hlt, hnumber⟩ := List.getElem?_eq_some_iff.mp hsessions.symm
    exact hnumber.symm.trans (List.getElem_range hlt)
  refine ⟨.join (rest.map fun f ↦ lineEnded f.text), ?_⟩
  rw [answers, answersBefore, hlength, hfinales, List.take_left, List.map_append, List.map_cons,
    String.join_append, String.join_cons, String.append_assoc]

/-- The texts of the sessions stand on the terminal in the order of the sessions, each with its last
line ended, and behind them what is painted of a text that is still growing. -/
structure PrintsInOrder (c : Controller σ) : Prop where
  sessions : c.finales.map Finale.session = List.range c.sessionsEnded
  out : ∃ shown, shown ++ c.liveText.pending = c.liveText.committed ∧
    c.painting.out = c.answers ++ shown

/-- The text of a session is whole on the terminal, behind the answers of the sessions before it. -/
def ShowsWhole (c : Controller σ) (s : Session) : Prop :=
  endsLine (c.answersBefore s.id) = true ∧
    ∃ rest, c.painting.out = c.answersBefore s.id ++ lineEnded s.text.committed ++ rest

theorem Displays.showsWhole (hd : c.Displays) (ht : h.Tells c) {s : Session} {state : SessionState}
    (hf : { session := s.id, text := s.text.committed, state } ∈ c.finales) : c.ShowsWhole s := by
  obtain ⟨shown, -, hshows⟩ := hd
  obtain ⟨rest, hanswers⟩ := exists_answers_eq ht hf
  refine ⟨c.endsLine_answersBefore s.id, rest ++ shown, ?_⟩
  rw [hshows.out, hanswers, String.append_assoc]

/-- A session that is over, or that the next operation puts an end to, is among those that have
ended. -/
theorem exists_finale_of_over (ht : h.Tells c) (hs : c.session = some s) {ops : List (Op σ)}
    (hover : s.isLive = false ∨ ∃ op rest p, ops = op :: rest ∧ op.prompt? c.config = some p) :
    ∃ state, { session := s.id, text := s.text.committed, state } ∈ (c.run ops).finales := by
  cases hl : s.isLive with
  | false =>
    obtain ⟨e, he⟩ := Session.exists_ending hl
    obtain ⟨fs, hfs⟩ := ht.exists_finales_eq hs he
    have hmem : { session := s.id, text := s.text.committed, state := e.state } ∈ c.finales :=
      hfs ▸ List.mem_append_right _ List.mem_cons_self
    exact ⟨_, (finales_mono (later_run c ops).deeds).subset hmem⟩
  | true =>
    rcases hover with hl' | ⟨op, rest, p, rfl, hp⟩
    · cases hl.symm.trans hl'
    · have hmem := ht.finale_mem_of_prompt hs hl hp
      exact ⟨_, (finales_mono (later_run (c.apply op) rest).deeds).subset hmem⟩

/-- **How a terminal is painted.** Whatever events come, standard output has the parts of the
answers in their order, with a newline behind each that the terminal had to add: before a status
line and after a text, if the character written last does not end its line. Standard error has the
status lines, and whenever one is written the line on standard output is ended.

If the events are those of a controller and no session is streaming when a check of the budget is
asked for, the sessions' texts stand on standard output in the order of the sessions, each whole and
with its last line ended. Behind them stands what was painted of a session still streaming. -/
theorem lays_and_showsWhole (archive : Archive σ) (store : σ) (config : Config)
    (transportName : String) :
    (∀ es, ∃ added, Screen.Lays es added) ∧
      ∀ ops, (new archive store config transportName).checksAtRest ops = true →
        ((new archive store config transportName).run ops).PrintsInOrder ∧
        ∀ before after s, ops = before ++ after →
          ((new archive store config transportName).run before).session = some s →
          (s.isLive = false ∨ ∃ op rest p, after = op :: rest ∧ op.prompt? config = some p) →
          ((new archive store config transportName).run ops).ShowsWhole s := by
  refine ⟨fun es ↦ ⟨_, Screen.lays es⟩, fun ops hchecks ↦ ?_⟩
  have ht := Chronicle.Tells.new archive store config transportName
  have hd := (displays_new archive store config transportName).run ht hchecks
  obtain ⟨h', ht', -, -⟩ := ht.run ops
  constructor
  · obtain ⟨shown, htext, hshows⟩ := hd
    exact ⟨ht'.sessions_finales, shown, htext, hshows.out⟩
  · rintro before after s rfl hs hover
    obtain ⟨hb, htb, -, -⟩ := ht.run before
    have hconfig : ((new archive store config transportName).run before).config = config :=
      (later_run _ before).config
    rw [← hconfig] at hover
    obtain ⟨state, hf⟩ := exists_finale_of_over htb hs hover
    have hrun : (new archive store config transportName).run (before ++ after) =
        ((new archive store config transportName).run before).run after := List.foldl_append
    exact hd.showsWhole ht' (hrun ▸ hf)

/-- A session is replaced while text is pending, and the one in its place is cancelled. -/
def replacedHalfway : List (Op History) :=
  [.begin { message := "again" }, .cancel, .measure]

theorem lays_and_showsWhole_replacedHalfway :
    (new History.archive {} {} "scripted").checksAtRest (halfPainted ++ replacedHalfway) = true ∧
      ∃ s, ((new History.archive {} {} "scripted").run halfPainted).session = some s ∧
        s.text.committed = "abc" ∧ s.text.pending = "c" ∧
        ((new History.archive {} {} "scripted").run
          (halfPainted ++ replacedHalfway)).ShowsWhole s := by
  have hchecks : (new History.archive {} {} "scripted").checksAtRest
      (halfPainted ++ replacedHalfway) = true := by decide +kernel
  have htext : ((new History.archive {} {} "scripted").run halfPainted).session.map
      (fun s ↦ (s.text.committed, s.text.pending)) = some ("abc", "c") := by decide +kernel
  obtain ⟨s, hs, heq⟩ := Option.map_eq_some_iff.mp htext
  obtain ⟨-, hwhole⟩ :=
    (lays_and_showsWhole History.archive {} {} "scripted").2 (halfPainted ++ replacedHalfway)
      hchecks
  refine ⟨hchecks, s, hs, congrArg Prod.fst heq, congrArg Prod.snd heq,
    hwhole halfPainted replacedHalfway s rfl hs (.inr ?_)⟩
  have htaken : (Op.begin { message := "again" } : Op History).prompt? {} =
      some { message := "again" } := by decide +kernel
  exact ⟨_, _, _, rfl, htaken⟩

end Controller

end ChatStream
