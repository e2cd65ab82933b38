import ChatStream.Proofs.Session.Cancellations
import ChatStream.Proofs.Session.Played
import ChatStream.Proofs.Session.Tandem
import ChatStream.Proofs.Terminal.Painting
import ChatStream.Terminal.Conversation

/-!
# One turn of a conversation

A turn sends a prompt, awaits the end of its session and paints what was shown meanwhile. Over a
script that ends there is no way for it to fail: `sendPrompt_of_plays` says which request is sent,
how the session ends and with which text, and `finales_of_turn` that it is one more session that is
over, behind those that were.

What is painted is forgotten by the controller. To go on reasoning about the whole conversation, the
forgotten deeds are put in front again, which is a tandem like any other.
-/

namespace ChatStream

open Controller

/-! ## Playing in tandem -/

section Tandem

variable {σ τ : Type} {c c' : Controller σ} {d : Controller τ}

theorem Op.exists_alike (τ : Type) {op : Op σ} (hop : op.isPlayed = true) :
    ∃ op' : Op τ, op.Alike op' ∧ op'.isPlayed = true ∧ op.isChange = false := by
  cases op with
  | step w => exact ⟨.step w, .step w, rfl, rfl⟩
  | passTime now => exact ⟨.passTime now, .passTime now, rfl, rfl⟩
  | _ => cases hop

theorem Tandem.playsTo (T : Tandem σ τ) (hrel : T.rel c d) (hplays : c.PlaysTo c') :
    ∃ d', d.PlaysTo d' ∧ T.rel c' d' := by
  have hstart : ∃ d', d.PlaysTo d' ∧ T.rel c d' := ⟨d, .refl d, hrel⟩
  refine hplays.keeps (P := fun c ↦ ∃ d', d.PlaysTo d' ∧ T.rel c d') hstart ?_
  rintro c op hop ⟨d', hplays, hrel⟩
  obtain ⟨op', halike, hop', hchange⟩ := Op.exists_alike τ hop
  refine ⟨d'.apply op', hplays.trans ?_, T.apply hrel halike hchange⟩
  exact ⟨[op'], List.forall_mem_singleton.mpr hop', rfl⟩

/-- A controller in tandem with itself, had it done something more before all else. -/
def precededBy (ds : List Deed) : Tandem σ σ where
  rel c d := d = c.preceded ds
  core := by
    rintro c _ rfl
    rfl
  withCore := by
    rintro c _ rfl k
    rfl
  act := by
    rintro c _ rfl x -
    exact act_preceded c ds x
  commit := by
    rintro c _ rfl r
    exact commit_preceded c ds r
  measure := by
    rintro c _ rfl
    exact measure_preceded c ds

theorem apply_preceded (c : Controller σ) (ds : List Deed) (op : Op σ) :
    (c.preceded ds).apply op = (c.apply op).preceded ds := by
  cases hop : op.isChange with
  | false => exact (precededBy ds).apply rfl (Op.alike_refl op) hop
  | true =>
    cases op with
    | changeStore change => rfl
    | _ => cases hop

theorem run_preceded (c : Controller σ) (ds : List Deed) (ops : List (Op σ)) :
    (c.preceded ds).run ops = (c.run ops).preceded ds := by
  induction ops generalizing c with
  | nil => rfl
  | cons op ops ih =>
    have hcons (c : Controller σ) : c.run (op :: ops) = (c.apply op).run ops := rfl
    rw [hcons, hcons, apply_preceded, ih]

end Tandem

/-! ## The end of a turn -/

namespace Controller

variable {σ : Type} {c c' : Controller σ} {h : Chronicle} {p : Prompt} {v : Verdict}

theorem isStreaming_of_ended {id : Nat} (hended : c.Ended id v) : c.isStreaming = false := by
  obtain ⟨s, hs, -, hphase, -⟩ := hended
  rw [isStreaming_of_session hs, Session.isLive_of_ended hphase]

theorem answerText_of_ended {id : Nat} (hended : c.Ended id v) : c.answerText = v.text := by
  obtain ⟨s, hs, -, -, htext⟩ := hended
  rw [answerText, hs]
  exact htext

section Turn

variable (ht : h.Tells c) (hrest : c.isStreaming = false) (hplays : (c.launch p).PlaysTo c')
include ht hrest hplays

theorem tells_of_turn : ∃ h' : Chronicle, h'.Tells c' ∧ h'.asides = h.asides := by
  obtain ⟨h', ht', hasides, -⟩ := (ht.launch hrest p).moves hplays.moves
  exact ⟨h', ht', hasides.trans (Chronicle.asides_begin _ _ _)⟩

theorem displays_of_turn (hd : c.Displays) : c'.Displays :=
  (hd.launch ht.watched hrest p).moves (ht.launch hrest p) hplays.moves

/-- The session of a turn is over behind all others. -/
theorem finales_of_turn (hended : c'.Ended c.sessionsBegun v) :
    c'.finales =
      c.finales ++ [{ session := c.sessionsBegun, text := v.text, state := v.ending.state }] := by
  obtain ⟨h', ht', -⟩ := tells_of_turn ht hrest hplays
  have hrest' := isStreaming_of_ended hended
  obtain ⟨s, hs, hid, hphase, htext⟩ := hended
  obtain ⟨fs, hfs⟩ := ht'.exists_finales_eq hs hphase
  have hbegun := (ht'.older_sessions hs).1
  have hlength := ht.length_finales
  have hlength' := ht'.length_finales
  rw [sessionsEnded, hrest, if_neg Bool.false_ne_true] at hlength
  rw [sessionsEnded, hrest', if_neg Bool.false_ne_true, hfs, List.length_append,
    List.length_singleton] at hlength'
  have hmono : c.finales <+: c'.finales :=
    finales_mono ((Move.later (.launch p hrest)).deeds.trans hplays.moves.later.deeds)
  rw [hfs] at hmono
  have hfinales : c.finales = fs :=
    (List.prefix_of_prefix_length_le hmono (List.prefix_append _ _) (by omega)).eq_of_length
      (by omega)
  rw [hfs, hfinales, hid, htext]

end Turn

end Controller

/-! ## Sending -/

namespace Simulation

variable {s : Simulation} {p : Prompt}

theorem put_of_rest (hrest : s.controller.isStreaming = false) (c : Controller Ledger) :
    s.put c = { s with controller := c } := by
  have hstream : s.stream? = none := by
    rw [stream?]
    cases hs : s.controller.session with
    | none => rfl
    | some session =>
      rw [isStreaming_of_session hs] at hrest
      obtain ⟨e, he⟩ := Session.exists_ending hrest
      rw [Option.bind_some, Session.stream?, he]
  rw [put, hstream]

/-- **A turn** over a script that ends. -/
theorem sendPrompt_of_plays (hplays : s.Plays) (hnumbered : s.controller.Numbered)
    (hrest : s.controller.isStreaming = false) (htaken : p.isTaken s.controller.config = true) :
    ∃ s' v, v = s.transport.supply.verdict s.controller.config.wire ∧
      s.sendPrompt p = .ok (s', v.ending.state) ∧ s'.Plays ∧
      (s.controller.launch p).PlaysTo s'.controller ∧
      s'.controller.Ended s.controller.sessionsBegun v ∧
      s'.transport.requests = s.transport.requests ++
        [buildRequest s.controller.config p s.controller.budget.summarize] := by
  have hbegin := begin_of_isTaken htaken
  rw [settle_of_rest hrest] at hbegin
  obtain ⟨htick, r, hstands⟩ := hnumbered.stands_begin hbegin
  have hr : r = buildRequest s.controller.config p s.controller.budget.summarize := by
    obtain ⟨session, hs, -, hphase, -⟩ := hstands.session
    cases hs.symm.trans (keeps_launch s.controller p).session
    exact (Phase.unopened.inj hphase).symm
  have hlaunched : ({ s with controller := s.controller.launch p } : Simulation).Plays :=
    ⟨hplays.script, hplays.agenda, hplays.interruptions⟩
  obtain ⟨s', hdrive, hplays', hended, hplayed, hrequests⟩ :=
    drive_ends hlaunched (hnumbered.move (.launch p hrest)) hstands htick
  refine ⟨s', _, rfl, ?_, hplays', hplayed, hended, hr ▸ hrequests⟩
  rw [sendPrompt, hbegin]
  dsimp only
  rw [put_of_rest hrest, hdrive, hended.state_eq]

end Simulation

namespace Talk

variable {t : Talk}

/-- Where no session is streaming, a change of the controller is seen in what it shows only. -/
theorem onController_of_rest (hrest : t.simulation.controller.isStreaming = false)
    (change : Controller Ledger → Controller Ledger) :
    t.onController change =
      flush { t with simulation.controller := change t.simulation.controller } := by
  rw [onController, Simulation.put_of_rest hrest]

/-- A conversation in which no session is streaming and everything is painted is over. -/
theorem close_of_rest {α : Type} (hrest : t.simulation.controller.isStreaming = false)
    (hpainted : t.simulation.controller.deeds = []) (result : α) :
    t.close result =
      { result, screen := t.screen, requests := t.simulation.transport.requests } := by
  have hdrop : t.simulation.controller.drop = t.simulation.controller := by
    rw [drop, hrest]
    rfl
  have hevents : t.simulation.controller.events = [] := by
    rw [events, hpainted]
    rfl
  rw [close, onController_of_rest hrest, hdrop, flush]
  dsimp only
  rw [hevents]
  rfl

end Talk

end ChatStream
