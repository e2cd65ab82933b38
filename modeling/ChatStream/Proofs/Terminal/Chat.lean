import ChatStream.Proofs.Session.Requests
import ChatStream.Proofs.Session.Switch
import ChatStream.Proofs.Terminal.Ask

/-!
# A chat

A chat takes one line after another. What the transport is asked can be told from the lines alone:
each message in its turn, and with each message whether the words on a summary since the message
before came to a yes. What is left on standard output are the answers, one for each message, with
nothing of the commands between them.

## The argument

Between two lines the controller is at rest, and everything it has shown is painted and forgotten.
`Awaits` is what is known of a controller that has forgotten nothing, and `Recalls` says that a talk
has such a controller, but for what was painted. A command is a run without a prompt; a message is a
turn over a script that ends.
-/

namespace ChatStream

open Controller Text

/-! ## Lines -/

/-- The lines that a chat takes, trimmed: those before the one that ends it. -/
def typedLines (lines : List String) : List String :=
  (lines.map trim).takeWhile fun line ↦ line ≠ "/quit" && line ≠ "/exit"

/-- Whether a trimmed line is sent. -/
def isMessage (line : String) : Bool :=
  line ≠ "" && line ≠ "/summarize" && line ≠ "/keep" && line ≠ "/clear"

/-- A summary is wanted with the next message: behind the last one it was accepted, and the
acceptance was not taken back. -/
def SummaryWanted (before : List String) : Prop :=
  ∃ earlier later, before = earlier ++ "/summarize" :: later ∧
    ∀ line ∈ later, isMessage line = false ∧ line ≠ "/keep" ∧ line ≠ "/clear"

theorem not_summaryWanted_nil : ¬ SummaryWanted [] := by
  rintro ⟨earlier, later, hnil, -⟩
  exact List.cons_ne_nil _ _ (List.append_eq_nil_iff.mp hnil.symm).2

theorem summaryWanted_append_singleton {before : List String} {line : String} :
    SummaryWanted (before ++ [line]) ↔
      line = "/summarize" ∨
        (isMessage line = false ∧ line ≠ "/keep" ∧ line ≠ "/clear") ∧ SummaryWanted before :=
  exists_split_append_singleton

theorem not_summaryWanted_of_message {before : List String} {line : String}
    (hline : isMessage line = true) : ¬ SummaryWanted (before ++ [line]) := by
  rw [summaryWanted_append_singleton]
  rintro (rfl | ⟨⟨hnot, -⟩, -⟩)
  · cases hline
  · cases hline.symm.trans hnot

theorem not_summaryWanted_of_declined {before : List String} {line : String}
    (hline : line = "/keep" ∨ line = "/clear") : ¬ SummaryWanted (before ++ [line]) := by
  rw [summaryWanted_append_singleton]
  rintro (rfl | ⟨⟨-, hnotKeep, hnotClear⟩, -⟩)
  · exact absurd hline (by decide)
  · exact hline.elim hnotKeep hnotClear

/-- Why a line is read as it is. -/
inductive Parsed (text : String) : TypedLine → Prop
  | empty : text = "" → Parsed text .empty
  | quit : text = "/quit" ∨ text = "/exit" → Parsed text .quit
  | summarize : text = "/summarize" → Parsed text .summarize
  | keepHistory : text = "/keep" → Parsed text .keepHistory
  | clear : text = "/clear" → Parsed text .clear
  | message : text ≠ "/quit" → text ≠ "/exit" → isMessage text = true →
      Parsed text (.message text)

theorem parsed (line : String) : Parsed (trim line) (TypedLine.parse line) := by
  rw [TypedLine.parse]
  split_ifs with hempty hquit hsummarize hkeep hclear
  · exact .empty (String.isEmpty_iff.mp hempty)
  · exact .quit hquit
  · exact .summarize hsummarize
  · exact .keepHistory hkeep
  · exact .clear hclear
  · rw [not_or] at hquit
    refine .message hquit.1 hquit.2 ?_
    rw [isMessage]
    simp [hsummarize, hkeep, hclear, ← String.isEmpty_iff, hempty]

theorem parse_of_quit {line : String} (hends : trim line = "/quit" ∨ trim line = "/exit") :
    TypedLine.parse line = .quit := by
  have hparsed := parsed line
  generalize TypedLine.parse line = typed at hparsed ⊢
  cases hparsed with
  | quit => rfl
  | empty h | summarize h | keepHistory h | clear h =>
    rw [h] at hends
    exact absurd hends (by decide)
  | message hquit hexit => exact absurd hends (not_or.mpr ⟨hquit, hexit⟩)

theorem parse_of_message {line : String} (hquit : trim line ≠ "/quit")
    (hexit : trim line ≠ "/exit") (hline : isMessage (trim line) = true) :
    TypedLine.parse line = .message (trim line) := by
  have hparsed := parsed line
  generalize TypedLine.parse line = typed at hparsed ⊢
  cases hparsed with
  | message => rfl
  | quit hends => exact absurd hends (not_or.mpr ⟨hquit, hexit⟩)
  | empty h | summarize h | keepHistory h | clear h =>
    rw [h] at hline
    cases hline

theorem typedLines_cons_of_quit {line : String} (h : trim line = "/quit" ∨ trim line = "/exit")
    (rest : List String) : typedLines (line :: rest) = [] := by
  rw [typedLines, List.map_cons]
  refine List.takeWhile_cons_of_neg ?_
  rcases h with h | h <;> simp [h]

theorem typedLines_cons {line : String} (hquit : trim line ≠ "/quit") (hexit : trim line ≠ "/exit")
    (rest : List String) : typedLines (line :: rest) = trim line :: typedLines rest := by
  rw [typedLines, List.map_cons]
  refine List.takeWhile_cons_of_pos ?_
  simp [hquit, hexit]

/-- What is left of a line once it is trimmed is not blank. -/
theorem isBlankText_trim {line : String} (h : trim line ≠ "") : isBlankText (trim line) = false := by
  rw [Bool.eq_false_iff]
  intro hblank
  have hall := isBlankText_iff.mp hblank
  rw [IsBlankText, trim, String.toList_ofList, trimChars] at hall
  have hne : ((line.toList.dropWhile isBlank).reverse.dropWhile isBlank) ≠ [] := by
    intro hnil
    rw [trim, trimChars, hnil] at h
    exact h rfl
  have hhead := List.head_dropWhile_not isBlank hne
  have hmem := hall _ (List.mem_reverse.mpr (List.head_mem hne))
  rw [hmem] at hhead
  cases hhead

/-! ## The requests of a chat -/

/-- One request is sent for each message, in order, and it has the directive if and only if a
summary is wanted there. -/
structure Sends (config : Config) (before typed : List String) (rs : List Request) : Prop where
  messages : rs.map Request.message = typed.filter isMessage
  directed : ∀ earlier line later, typed = earlier ++ line :: later → isMessage line = true →
    ∃ r, rs[(earlier.filter isMessage).length]? = some r ∧
      r.IsFor config { message := line } (SummaryWanted (before ++ earlier))

namespace Sends

variable {config : Config} {before typed : List String} {line : String} {rs : List Request}

theorem nil : Sends config before [] [] := by
  constructor
  · rfl
  · intro earlier line later hsplit
    exact absurd (List.append_eq_nil_iff.mp hsplit.symm).2 (List.cons_ne_nil _ _)

theorem command (h : Sends config (before ++ [line]) typed rs) (hline : isMessage line = false) :
    Sends config before (line :: typed) rs := by
  have hskip (lines : List String) : (line :: lines).filter isMessage = lines.filter isMessage :=
    List.filter_cons_of_neg (by simp [hline])
  constructor
  · rw [h.messages, hskip]
  · intro earlier message later hsplit hmessage
    rcases earlier with _ | ⟨first, earlier⟩
    · obtain rfl := List.head_eq_of_cons_eq hsplit
      cases hline.symm.trans hmessage
    · obtain ⟨rfl, hrest⟩ := List.cons.inj hsplit
      have hsent := h.directed earlier message later hrest hmessage
      rw [List.append_assoc, List.singleton_append] at hsent
      rwa [hskip]

theorem message (h : Sends config (before ++ [line]) typed rs) (hline : isMessage line = true)
    {r : Request} (hr : r.IsFor config { message := line } (SummaryWanted before)) :
    Sends config before (line :: typed) (r :: rs) := by
  have htake (lines : List String) :
      (line :: lines).filter isMessage = line :: lines.filter isMessage :=
    List.filter_cons_of_pos hline
  constructor
  · rw [List.map_cons, h.messages, htake, hr.message]
  · intro earlier message later hsplit hmessage
    rcases earlier with _ | ⟨first, earlier⟩
    · obtain rfl := List.head_eq_of_cons_eq hsplit
      refine ⟨r, rfl, ?_⟩
      rwa [List.append_nil]
    · obtain ⟨rfl, hrest⟩ := List.cons.inj hsplit
      have hsent := h.directed earlier message later hrest hmessage
      rw [List.append_assoc, List.singleton_append] at hsent
      rwa [htake]

end Sends

/-! ## Between two lines -/

namespace Controller

/-- After some lines the controller waits for the next one. -/
structure Awaits (config : Config) (before : List String) (c : Controller Ledger) : Prop where
  config : c.config = config
  told : ∃ h : Chronicle, h.Tells c
  numbered : c.Numbered
  rest : c.isStreaming = false
  displays : c.Displays
  due : c.budget.summarize = true ↔ SummaryWanted before

variable {config : Config} {before : List String} {c c' : Controller Ledger} {line : String}

theorem PlaysTo.summarize {σ : Type} {c c' : Controller σ} (hplays : c.PlaysTo c') :
    c'.budget.summarize = c.budget.summarize := by
  refine hplays.keeps (P := fun c' ↦ c'.budget.summarize = c.budget.summarize) rfl ?_
  intro c' op hop hsame
  obtain ⟨hprompt, hsummary, -⟩ := Op.goesOn c'.config hop
  rw [summarize_apply hprompt, hsummary, Option.getD_none, hsame]

/-- What begins no session is seen in no answer. -/
theorem Awaits.run (h : Awaits config before c) {ops : List (Op Ledger)}
    (hops : ∀ op ∈ ops, op.prompt? c.config = none) {before' : List String}
    (hdue : (c.run ops).budget.summarize = true ↔ SummaryWanted before') :
    Awaits config before' (c.run ops) ∧ (c.run ops).answers = c.answers := by
  obtain ⟨chronicle, ht⟩ := h.told
  obtain ⟨chronicle', ht', -, -⟩ := ht.run ops
  obtain ⟨hsession, ks, houtline⟩ := run_at_rest ht.watched h.rest hops
  have hrest := (isStreaming_congr hsession).trans h.rest
  have hasides : ∀ e ∈ (ks.flatMap Check.deeds).filterMap Deed.event?, e.isAside = true := by
    rw [filterMap_flatMap_deeds Check.filterMap_deeds]
    intro e he
    obtain ⟨k, -, he⟩ := List.mem_flatMap.mp he
    exact k.isAside_of_mem e he
  constructor
  · exact ⟨(later_run c ops).config.trans h.config, ⟨chronicle', ht'⟩, h.numbered.run ops, hrest,
      h.displays.asides h.rest houtline hasides (liveText_of_rest hrest), hdue⟩
  · rw [answers, finales_of_checks houtline, answers]

/-- A turn adds its answer, and uses up the request for a summary. -/
theorem Awaits.turn (h : Awaits config before c) {v : Verdict}
    (hplays : (c.launch { message := line }).PlaysTo c') (hended : c'.Ended c.sessionsBegun v)
    (hline : isMessage line = true) :
    Awaits config (before ++ [line]) c' ∧ c'.answers = c.answers ++ lineEnded v.text := by
  obtain ⟨chronicle, ht⟩ := h.told
  obtain ⟨chronicle', ht', -⟩ := tells_of_turn ht h.rest hplays
  have hnumbered := h.numbered.move (.launch { message := line } h.rest)
  have hlater := (Move.later (.launch { message := line } h.rest)).trans hplays.moves.later
  have hused : c'.budget.summarize = false := by
    rw [hplays.summarize, (keeps_launch c _).summarize]
    rfl
  constructor
  · exact ⟨hlater.config.trans h.config, ⟨chronicle', ht'⟩, hplays.numbered hnumbered,
      isStreaming_of_ended hended, displays_of_turn ht h.rest hplays h.displays,
      iff_of_false (Bool.eq_false_iff.mp hused) (not_summaryWanted_of_message hline)⟩
  · exact answers_of_finales (finales_of_turn ht h.rest hplays hended)

end Controller

namespace Talk

variable {config : Config} {before : List String} {t : Talk} {c c' : Controller Ledger}
  {line : String}

/-- The talk has this controller, but for what it has painted and forgotten. -/
structure Recalls (t : Talk) (c : Controller Ledger) : Prop where
  whole : c = t.simulation.controller.preceded c.deeds
  painted : t.simulation.controller.deeds = []
  screen : t.screen.SameAnswer c.painting
  plays : t.simulation.Plays

/-- What is shown next is painted next. -/
theorem Recalls.flush (h : t.Recalls c) {s : Simulation} (hplays : s.Plays)
    (hwhole : c' = s.controller.preceded c.deeds) :
    (Talk.flush { t with simulation := s }).Recalls c' := by
  subst hwhole
  have hpainting : (s.controller.preceded c.deeds).painting =
      c.painting.paintAll s.controller.events := by
    rw [painting, painting, ← Screen.paintAll_append]
    exact congrArg (Screen.paintAll {}) List.filterMap_append
  refine ⟨?_, rfl, ?_, ⟨hplays.script, hplays.agenda, hplays.interruptions⟩⟩
  · simp only [Talk.flush, preceded, List.append_nil]
  · rw [hpainting]
    exact h.screen.paintAll _

theorem Recalls.say (h : t.Recalls c) (text : String) : (t.say text).Recalls c :=
  ⟨h.whole, h.painted, ⟨h.screen.out, h.screen.atLineStart⟩, h.plays⟩

theorem Recalls.isStreaming_eq (h : t.Recalls c) :
    t.simulation.controller.isStreaming = c.isStreaming := by
  rw [h.whole]
  rfl

/-- A command changes the controller, and leaves the transport alone. -/
theorem Recalls.onController (h : t.Recalls c) (hrest : c.isStreaming = false)
    {change : Controller Ledger → Controller Ledger} {ops : List (Op Ledger)}
    (hchange : ∀ c, change c = c.run ops) :
    (t.onController change).Recalls (c.run ops) ∧
      (t.onController change).simulation.transport = t.simulation.transport := by
  rw [onController_of_rest (h.isStreaming_eq.trans hrest)]
  refine ⟨h.flush ⟨h.plays.script, h.plays.agenda, h.plays.interruptions⟩ ?_, rfl⟩
  have hwhole := congrArg (run · ops) h.whole
  rw [run_preceded] at hwhole
  dsimp only
  rwa [hchange]

/-- A message is a turn of the whole controller. -/
theorem Recalls.sendPrompt (h : t.Recalls c) (hnumbered : c.Numbered)
    (hrest : c.isStreaming = false) {p : Prompt} (htaken : p.isTaken c.config = true) :
    ∃ t' c' v state, t.sendPrompt p = .ok (t', state) ∧ t'.Recalls c' ∧
      (c.launch p).PlaysTo c' ∧ c'.Ended c.sessionsBegun v ∧
      t'.simulation.transport.requests =
        t.simulation.transport.requests ++ [buildRequest c.config p c.budget.summarize] := by
  have hnumbered' : t.simulation.controller.Numbered := by
    rw [h.whole] at hnumbered
    exact ⟨hnumbered.token, hnumbered.session⟩
  have htaken' : p.isTaken t.simulation.controller.config = true := by
    rw [h.whole] at htaken
    exact htaken
  obtain ⟨s, v, -, hsent, hplays, hplayed, hended, hrequests⟩ :=
    Simulation.sendPrompt_of_plays h.plays hnumbered' (h.isStreaming_eq.trans hrest) htaken'
  have hrel : (precededBy c.deeds).rel (t.simulation.controller.launch p) (c.launch p) := by
    have hlaunched := congrArg (launch · p) h.whole
    rwa [launch_preceded] at hlaunched
  obtain ⟨c', hplayed', hwhole⟩ := (precededBy c.deeds).playsTo hrel hplayed
  have hturn : t.sendPrompt p =
      .ok (Talk.flush { t with simulation := s }, v.ending.state) := by
    rw [Talk.sendPrompt]
    exact congrArg (Except.map _) hsent
  refine ⟨_, c', v, _, hturn, h.flush hplays hwhole, hplayed', ?_, ?_⟩
  · rw [hwhole, h.whole]
    exact hended
  · rw [h.whole]
    exact hrequests

end Talk

/-! ## Lines taken -/

section Lines

variable {config : Config} {before : List String} {t : Talk} {c : Controller Ledger}
  {line : String}

theorem chatLine_of_quit (t : Talk) (hends : trim line = "/quit" ∨ trim line = "/exit") :
    chatLine t line = none := by
  rw [chatLine, parse_of_quit hends]

/-- What `forget` does, as operations. -/
def forgetting : List (Op Ledger) :=
  [.changeStore fun l ↦ { l with history := l.history.clear }, .declineSummary, .measure]

theorem forget_eq (c : Controller Ledger) : forget c = c.run forgetting := rfl

/-- What begins no session leaves the answers and the transport alone. -/
theorem onController_of_awaits (ha : Awaits config before c) (hr : t.Recalls c)
    {change : Controller Ledger → Controller Ledger} (ops : List (Op Ledger))
    (hchange : ∀ c, change c = c.run ops) (hops : ∀ op ∈ ops, op.prompt? c.config = none)
    {before' : List String}
    (hdue : (c.run ops).budget.summarize = true ↔ SummaryWanted before') :
    ∃ c', Awaits config before' c' ∧ (t.onController change).Recalls c' ∧
      c'.answers = c.answers ∧
      (t.onController change).simulation.transport.requests =
        t.simulation.transport.requests := by
  obtain ⟨hawaits, hanswers⟩ := ha.run hops hdue
  obtain ⟨hrecalls, htransport⟩ := hr.onController ha.rest hchange
  exact ⟨_, hawaits, hrecalls, hanswers, congrArg Scripted.requests htransport⟩

/-- A line that is not sent leaves the answers and the transport alone. -/
theorem chatLine_of_command (ha : Awaits config before c) (hr : t.Recalls c)
    (hquit : trim line ≠ "/quit") (hexit : trim line ≠ "/exit")
    (hline : isMessage (trim line) = false) :
    ∃ t' c', chatLine t line = some t' ∧ Awaits config (before ++ [trim line]) c' ∧
      t'.Recalls c' ∧ c'.answers = c.answers ∧
      t'.simulation.transport.requests = t.simulation.transport.requests := by
  have hparsed := parsed line
  rw [chatLine]
  generalize TypedLine.parse line = typed at hparsed ⊢
  generalize trim line = text at *
  cases hparsed with
  | empty hempty =>
    have hdue : c.budget.summarize = true ↔ SummaryWanted (before ++ [text]) := by
      rw [ha.due, summaryWanted_append_singleton, hempty]
      simp [isMessage]
    have hawaits := (ha.run (List.forall_mem_nil _) hdue).1
    exact ⟨t, c, rfl, hawaits, hr, rfl, rfl⟩
  | quit hends => exact absurd hends (not_or.mpr ⟨hquit, hexit⟩)
  | summarize hsummarize =>
    have hdue : c.acceptSummary.budget.summarize = true ↔ SummaryWanted (before ++ [text]) :=
      iff_of_true rfl (summaryWanted_append_singleton.mpr (.inl hsummarize))
    obtain ⟨c', hawaits, hrecalls, hanswers, hrequests⟩ :=
      onController_of_awaits ha hr [.acceptSummary] (fun _ ↦ rfl)
        (List.forall_mem_singleton.mpr rfl) hdue
    exact ⟨_, c', rfl, hawaits, hrecalls.say _, hanswers, hrequests⟩
  | keepHistory hkeep =>
    have hdue : c.declineSummary.budget.summarize = true ↔ SummaryWanted (before ++ [text]) :=
      iff_of_false Bool.false_ne_true (not_summaryWanted_of_declined (.inl hkeep))
    obtain ⟨c', hawaits, hrecalls, hanswers, hrequests⟩ :=
      onController_of_awaits ha hr [.declineSummary] (fun _ ↦ rfl)
        (List.forall_mem_singleton.mpr rfl) hdue
    exact ⟨_, c', rfl, hawaits, hrecalls, hanswers, hrequests⟩
  | clear hclear =>
    have hused : (forget c).budget.summarize = false := (keeps_measure _).summarize
    have hdue : (forget c).budget.summarize = true ↔ SummaryWanted (before ++ [text]) :=
      iff_of_false (Bool.eq_false_iff.mp hused) (not_summaryWanted_of_declined (.inr hclear))
    obtain ⟨c', hawaits, hrecalls, hanswers, hrequests⟩ :=
      onController_of_awaits ha hr forgetting forget_eq (by simp [forgetting, Op.prompt?]) hdue
    exact ⟨_, c', rfl, hawaits, hrecalls.say _, hanswers, hrequests⟩
  | message _ _ hmessage => cases hline.symm.trans hmessage

/-- A line that is sent is one turn. -/
theorem chatLine_of_message (hmodel : isBlankText config.model = false)
    (ha : Awaits config before c) (hr : t.Recalls c) (hquit : trim line ≠ "/quit")
    (hexit : trim line ≠ "/exit") (hline : isMessage (trim line) = true) :
    ∃ t' c' r, chatLine t line = some t' ∧ Awaits config (before ++ [trim line]) c' ∧
      t'.Recalls c' ∧ c'.answers = c.answers ++ lineEnded t'.simulation.controller.answerText ∧
      t'.simulation.transport.requests = t.simulation.transport.requests ++ [r] ∧
      r.IsFor config { message := trim line } (SummaryWanted before) := by
  have hne : trim line ≠ "" := by
    intro hempty
    rw [hempty] at hline
    cases hline
  have htaken : Prompt.isTaken c.config { message := trim line } = true := by
    rw [ha.config, Prompt.isTaken, hmodel, isBlankText_trim hne]
    rfl
  obtain ⟨t', c', v, state, hsent, hrecalls, hplays, hended, hrequests⟩ :=
    hr.sendPrompt ha.numbered ha.rest htaken
  obtain ⟨hawaits, hanswers⟩ := ha.turn hplays hended hline
  have htext : t'.simulation.controller.answerText = v.text := by
    rw [← answerText_of_ended hended, hrecalls.whole]
    rfl
  refine ⟨t', c', _, ?_, hawaits, hrecalls, hanswers.trans (by rw [htext]), hrequests, ?_⟩
  · rw [chatLine, parse_of_message hquit hexit hline]
    dsimp only
    rw [hsent]
  · rw [ha.config]
    exact isFor_buildRequest config _ ha.due

end Lines

/-! ## The chat -/

/-- The texts of the sessions of a chat, one for each message that is sent. -/
def chatTexts (t : Talk) : List String → List String
  | [] => []
  | line :: rest =>
    match chatLine t line with
    | none => []
    | some t' =>
      if isMessage (trim line) then t'.simulation.controller.answerText :: chatTexts t' rest
      else chatTexts t' rest

section Unfolding

variable {t t' : Talk} {line : String}

theorem chatLines_cons (htaken : chatLine t line = some t') (rest : List String) :
    chatLines t ((line :: rest).map some) = chatLines t' (rest.map some) := by
  rw [List.map_cons, chatLines, htaken]

theorem chatTexts_cons_of_command (htaken : chatLine t line = some t')
    (hline : isMessage (trim line) = false) (rest : List String) :
    chatTexts t (line :: rest) = chatTexts t' rest := by
  rw [chatTexts, htaken]
  exact if_neg (Bool.eq_false_iff.mp hline)

theorem chatTexts_cons_of_message (htaken : chatLine t line = some t')
    (hline : isMessage (trim line) = true) (rest : List String) :
    chatTexts t (line :: rest) = t'.simulation.controller.answerText :: chatTexts t' rest := by
  rw [chatTexts, htaken]
  exact if_pos hline

end Unfolding

/-- From one line on, a chat sends its messages and leaves their answers. -/
theorem chatLines_of_awaits {config : Config} (hmodel : isBlankText config.model = false)
    (lines : List String) {before : List String} {t : Talk} {c : Controller Ledger}
    (ha : Awaits config before c) (hr : t.Recalls c) :
    ∃ t' c' rs, chatLines t (lines.map some) = (t', true) ∧
      Awaits config (before ++ typedLines lines) c' ∧ t'.Recalls c' ∧
      t'.simulation.transport.requests = t.simulation.transport.requests ++ rs ∧
      Sends config before (typedLines lines) rs ∧
      (chatTexts t lines).length = rs.length ∧
      c'.answers = c.answers ++ .join ((chatTexts t lines).map lineEnded) := by
  induction lines generalizing before t c with
  | nil =>
    exact ⟨t, c, [], rfl, (List.append_nil before).symm ▸ ha, hr, (List.append_nil _).symm, .nil,
      rfl, String.append_empty.symm⟩
  | cons line rest ih =>
    by_cases hends : trim line = "/quit" ∨ trim line = "/exit"
    · rw [typedLines_cons_of_quit hends, List.map_cons, chatLines, chatTexts,
        chatLine_of_quit t hends]
      exact ⟨t, c, [], rfl, (List.append_nil before).symm ▸ ha, hr, (List.append_nil _).symm, .nil,
        rfl, String.append_empty.symm⟩
    obtain ⟨hquit, hexit⟩ := not_or.mp hends
    have hbehind : before ++ trim line :: typedLines rest =
        before ++ [trim line] ++ typedLines rest := by
      rw [List.append_assoc, List.singleton_append]
    rw [typedLines_cons hquit hexit, hbehind]
    cases hline : isMessage (trim line) with
    | false =>
      obtain ⟨t₁, c₁, htaken, ha₁, hr₁, hanswers₁, hrequests₁⟩ :=
        chatLine_of_command ha hr hquit hexit hline
      obtain ⟨t', c', rs, hlines, ha', hr', hrequests, hsends, hlength, hanswers⟩ := ih ha₁ hr₁
      rw [chatLines_cons htaken, chatTexts_cons_of_command htaken hline]
      rw [hrequests₁] at hrequests
      rw [hanswers₁] at hanswers
      exact ⟨t', c', rs, hlines, ha', hr', hrequests, hsends.command hline, hlength, hanswers⟩
    | true =>
      obtain ⟨t₁, c₁, r, htaken, ha₁, hr₁, hanswers₁, hrequests₁, hsent⟩ :=
        chatLine_of_message hmodel ha hr hquit hexit hline
      obtain ⟨t', c', rs, hlines, ha', hr', hrequests, hsends, hlength, hanswers⟩ := ih ha₁ hr₁
      rw [chatLines_cons htaken, chatTexts_cons_of_message htaken hline, List.map_cons,
        String.join_cons]
      rw [hrequests₁, List.append_assoc, List.singleton_append] at hrequests
      rw [hanswers₁, String.append_assoc] at hanswers
      exact ⟨t', c', r :: rs, hlines, ha', hr', hrequests, hsends.message hline hsent,
        congrArg (· + 1) hlength, hanswers⟩

theorem awaits_conversation (config : Config) (transport : Scripted) (pace : List Nat) :
    Awaits config [] (Simulation.conversation config transport pace).controller :=
  ⟨rfl, ⟨_, .new _ _ _ _⟩, numbered_new _ _ _ _, rfl, displays_new _ _ _ _,
    iff_of_false Bool.false_ne_true not_summaryWanted_nil⟩

theorem Talk.recalls_new (config : Config) {transport : Scripted} (htransport : transport.Ends)
    (pace : List Nat) :
    (Talk.new config transport pace).Recalls
      (Simulation.conversation config transport pace).controller :=
  ⟨rfl, rfl, ⟨rfl, rfl⟩, ⟨htransport, rfl, rfl⟩⟩

/-- **The trace of a chat** over a script that ends. The messages are sent, one for each line that
is neither blank nor a command, up to the line that ends the chat; each request has the directive if
and only if a summary is wanted there; and standard output is the texts of the answers, each with
its last line ended. -/
theorem chat_trace (config : Config) (hmodel : isBlankText config.model = false)
    (transport : Scripted) (htransport : transport.Ends) (input : Bytes) (lines : List String)
    (hinput : (inputLines input).map Utf8.decode? = lines.map some) (pace : List Nat) :
    (chat config transport input pace).result = true ∧
    (∃ rs, (chat config transport input pace).requests = transport.requests ++ rs ∧
      Sends config [] (typedLines lines) rs ∧
      (chatTexts (.new config transport pace) lines).length = rs.length) ∧
    (chat config transport input pace).screen.out =
      .join ((chatTexts (.new config transport pace) lines).map lineEnded) := by
  obtain ⟨t, c, rs, hlines, ha, hr, hrequests, hsends, hlength, hanswers⟩ :=
    chatLines_of_awaits hmodel lines (awaits_conversation config transport pace)
      (Talk.recalls_new config htransport pace)
  have hclosed : chat config transport input pace =
      { result := true, screen := t.screen, requests := t.simulation.transport.requests } := by
    rw [chat, hinput, hlines]
    exact Talk.close_of_rest (hr.isStreaming_eq.trans ha.rest) hr.painted true
  rw [hclosed]
  refine ⟨rfl, ⟨rs, hrequests, hsends, hlength⟩, ?_⟩
  have hshown : c.painting.out = c.answers :=
    (ha.displays.shows ha.rest).out.trans String.append_empty
  calc t.screen.out
      = c.answers := hr.screen.out.trans hshown
    _ = "" ++ .join ((chatTexts (.new config transport pace) lines).map lineEnded) := hanswers
    _ = _ := String.empty_append

/-- An answer, a rejection, and the answer again. -/
def turnedAway : Scripted :=
  ((Scripted.addChunks {} [openAnswer]).addRejection (.closed "away")).addChunks [openAnswer]

/-- Three messages, one of them with a summary, and what is typed behind the end. -/
def threeMessages : List String :=
  ["hi", "/summarize", "\t", " again ", "/keep", "more", "/exit", "lost"]

theorem chat_trace_turnedAway :
    isBlankText ({} : Config).model = false ∧ turnedAway.Ends ∧
      (inputLines ("\n".intercalate threeMessages).toUTF8.toList).map Utf8.decode? =
        threeMessages.map some ∧
      (∃ rs, (chat {} turnedAway ("\n".intercalate threeMessages).toUTF8.toList [9]).requests =
          turnedAway.requests ++ rs ∧
        Sends {} [] ["hi", "/summarize", "", "again", "/keep", "more"] rs) ∧
      (chat {} turnedAway ("\n".intercalate threeMessages).toUTF8.toList [9]).screen.out =
        "a\nbc\na\nbc\n" := by
  have hmodel : isBlankText ({} : Config).model = false := by decide +kernel
  have hends : turnedAway.Ends :=
    ((Scripted.ends_empty.addChunks _).addRejection _).addChunks _
  have hinput : (inputLines ("\n".intercalate threeMessages).toUTF8.toList).map Utf8.decode? =
      threeMessages.map some := by decide +kernel
  have htyped : typedLines threeMessages = ["hi", "/summarize", "", "again", "/keep", "more"] := by
    decide +kernel
  have htexts : chatTexts (.new {} turnedAway [9]) threeMessages = ["a\nbc", "", "a\nbc"] := by
    decide +kernel
  obtain ⟨-, ⟨rs, hrequests, hsends, -⟩, hout⟩ :=
    chat_trace {} hmodel turnedAway hends _ threeMessages hinput [9]
  rw [htyped] at hsends
  rw [htexts] at hout
  exact ⟨hmodel, hends, hinput, ⟨rs, hrequests, hsends⟩, hout⟩

end ChatStream
