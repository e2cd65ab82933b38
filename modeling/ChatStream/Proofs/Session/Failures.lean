import ChatStream.Proofs.Session.Refusals
import ChatStream.Proofs.Wire.Reported

/-!
# No failure without a word

A server that reports an error says something, and the user gets to see it. A notice of such an
error comes from one place only, the end of a session, and a session ends so only by a line of its
stream, whose error can be seen (`LineFormat.isVisible_of_parse`).

## The argument

`SaysWhy` is about the notices that were shown. Whatever a controller shows by itself is no such
notice, and the end of a session shows one only if the ending brings it. So the whole of a run is
followed by what each part of it shows.
-/

namespace ChatStream

open Json

/-- If the event is the notice of an error of the server, the error can be seen. -/
def ViewEvent.SaysWhy (e : ViewEvent) : Prop :=
  ∀ level m, e = .notice level ("Server error: " ++ m) → IsVisible m

/-- If the session failed by an error of the server, the error can be seen. -/
def Ending.SaysWhy (e : Ending) : Prop := ∀ m, e = .errored (.server m) → IsVisible m

theorem Refusal.saysWhy_warning (e : Refusal) : e.warning.SaysWhy := by
  intro level m h
  rw [warning, ViewEvent.notice.injEq] at h
  have htext := congrArg String.toList h.2
  simp at htext

theorem TransportError.message_ne (e : TransportError) (m : String) :
    e.message ≠ "Server error: " ++ m := by
  have hchars (text : String) (h : text.toList ≠ ("Server error: " ++ m).toList) :
      text ≠ "Server error: " ++ m := mt (congrArg String.toList) h
  cases e with
  | connect endpoint reason =>
    exact hchars ("Failed to reach " ++ endpoint ++ ": " ++ reason) (by simp)
  | status code body =>
    exact hchars ("Server returned " ++ Decimal.natText code ++ ": " ++ body) (by simp)
  | read reason => exact hchars ("Stream read failed: " ++ reason) (by simp)
  | closed reason => exact hchars ("Transport closed: " ++ reason) (by simp)

theorem Ending.saysWhy_notice {f : Failure} (h : (Ending.errored f).SaysWhy) :
    (ViewEvent.notice .error f.message).SaysWhy := by
  intro level m hnotice
  have hmessage := (ViewEvent.notice.inj hnotice).2
  cases f with
  | transport e => exact absurd hmessage (e.message_ne m)
  | server text =>
    rw [Failure.message, String.append_right_inj] at hmessage
    rw [← hmessage]
    exact h text rfl

theorem Event.saysWhy_ending {w : LineFormat} {line : String} {e : Ending}
    (h : (w.parse line).ending? = some e) : e.SaysWhy := by
  rintro m rfl
  cases hevent : w.parse line with
  | error message trailing =>
    rw [hevent] at h
    cases h
    exact LineFormat.isVisible_of_parse hevent
  | _ =>
    rw [hevent] at h
    cases h

namespace Controller

variable {σ : Type} {c : Controller σ}

/-- Every error of the server that was shown can be seen. -/
def SaysWhy (c : Controller σ) : Prop := ∀ e ∈ c.events, e.SaysWhy

namespace SaysWhy

theorem of_deeds {c' : Controller σ} (h : c.SaysWhy) (hdeeds : c'.deeds = c.deeds) :
    c'.SaysWhy := by
  rw [SaysWhy, events, hdeeds]
  exact h

theorem act (h : c.SaysWhy) {d : Deed} (hd : d.event? = none) : (c.act d).SaysWhy := by
  rw [SaysWhy, events_act, hd, Option.toList_none, List.append_nil]
  exact h

theorem note (h : c.SaysWhy) (l : LogLine) : (c.note l).SaysWhy := h.act rfl

theorem notes (h : c.SaysWhy) (ls : List LogLine) : (c.notes ls).SaysWhy := by
  induction ls generalizing c with
  | nil => exact h
  | cons l ls ih => exact ih (h.note l)

theorem tell (h : c.SaysWhy) {e : ViewEvent} (he : e.SaysWhy) : (c.tell e).SaysWhy := by
  rw [Controller.tell]
  split
  · rw [SaysWhy, events_act, List.forall_mem_append]
    exact ⟨h, List.forall_mem_singleton.mpr he⟩
  · exact h.note _

theorem measure (h : c.SaysWhy) : c.measure.1.SaysWhy := by
  obtain ⟨store, budget, -, hmeasure⟩ := c.measure_cases
  have hread : ({ c with store, budget }.act (.measured (c.archive.size c.store))).SaysWhy :=
    act (h.of_deeds rfl) rfl
  rw [hmeasure]
  split
  · exact (hread.note _).tell nofun
  · exact hread

theorem commit (h : c.SaysWhy) (r : Record) : (c.commit r).SaysWhy := by
  have hhanded (store : σ) (ls : List LogLine) (refusal : Option Refusal) :
      (({ c with store }.notes ls).act (.committed r refusal)).SaysWhy := by
    have hstored : ({ c with store } : Controller σ).SaysWhy := h.of_deeds rfl
    exact (hstored.notes ls).act rfl
  rw [Controller.commit]
  split
  · exact hhanded _ _ _
  · rename_i e _
    exact ((hhanded _ _ _).note _).tell e.saysWhy_warning

theorem keepRecords (h : c.SaysWhy) (s : Session) (e : Ending) : (c.keepRecords s e).SaysWhy := by
  have hmade (c : Controller σ) (h : c.SaysWhy) (role : Role) (content : String)
      (model : Option String) : (c.makeRecord role content model).1.SaysWhy := h.of_deeds rfl
  simp only [Controller.keepRecords]
  split
  · exact ((hmade _ (hmade c h _ _ _) _ _ _).commit _).commit _
  · exact (hmade c h _ _ _).commit _

theorem tellUpdate (h : c.SaysWhy) (session : Nat) (update : Option Update) :
    (c.tellUpdate session update).SaysWhy := by
  cases update with
  | none => exact h
  | some u => exact h.tell nofun

theorem close (h : c.SaysWhy) (s : Session) (e : Ending) : (c.close s e).SaysWhy := by
  have hended : ({ c.withdraw s.id e with session := some (s.ended e) }).SaysWhy := by
    refine h.of_deeds ?_
    rw [withdraw, cancelToken_eq]
    split <;> rfl
  exact (hended.notes _).note _

/-- The end of a session shows no error but that of its ending. -/
theorem finish (h : c.SaysWhy) {e : Ending} (he : e.SaysWhy) : (c.finish e).SaysWhy := by
  cases hs : c.session with
  | none => rwa [finish_of_none hs]
  | some s =>
    cases hl : s.isLive with
    | false => rwa [finish_of_not_live hs hl]
    | true =>
      rw [finish_of_live hs hl]
      have hstate (update : Option Update) :=
        (((h.close s e).tellUpdate s.id update).keepRecords (s.ended e) e).tell
          (e := .stateChanged s.id e.state) nofun
      refine measure ?_
      cases e with
      | errored f => exact (hstate _).tell (Ending.saysWhy_notice he)
      | completed | cancelled => exact hstate _

theorem cancel (h : c.SaysWhy) : (c.finish .cancelled).SaysWhy := h.finish nofun

theorem endFailed (h : c.SaysWhy) (e : TransportError) : (c.endFailed e).1.SaysWhy := by
  have hending : (Ending.errored (.transport e)).SaysWhy := by
    intro m hm
    cases hm
  have hfailed : (c.finish (.errored (.transport e))).SaysWhy := h.finish hending
  exact hfailed

/-! ### Lines and chunks -/

/-- An error of the server comes with a line. -/
theorem takeLine (h : c.SaysWhy) (line : String) : (c.takeLine line).SaysWhy := by
  have hheard : ((c.notes (c.config.wire.read line).log).hear
      (c.config.wire.parse line)).SaysWhy := by
    rw [hear]
    split
    · exact h.notes _
    · exact (h.notes _).of_deeds rfl
  rw [takeLine_eq, endBy]
  split
  · rename_i e he
    exact hheard.finish (Event.saysWhy_ending he)
  · exact hheard

theorem takeLines (h : c.SaysWhy) (lines : List String) : (c.takeLines lines).SaysWhy := by
  induction lines generalizing c with
  | nil => exact h
  | cons line rest ih =>
    rw [Controller.takeLines]
    split
    · exact ih (h.takeLine line)
    · exact h.takeLine line

theorem withSession (h : c.SaysWhy) (session : Option Session) :
    ({ c with session } : Controller σ).SaysWhy := h.of_deeds rfl

theorem takeChunk (h : c.SaysWhy) (chunk : Bytes) : (c.takeChunk chunk).1.SaysWhy := by
  cases hs : c.session with
  | none =>
    rw [Controller.takeChunk, hs]
    exact h
  | some s =>
    rw [Controller.takeChunk, hs]
    exact (h.withSession _).takeLines _

theorem takeEnd (h : c.SaysWhy) : c.takeEnd.1.SaysWhy := by
  cases hs : c.session with
  | none =>
    rw [Controller.takeEnd, hs]
    exact h
  | some s =>
    have htaken := (h.withSession (some { s with lines := s.lines.finish.1 })).takeLines
      s.lines.finish.2.toList
    rw [takeEnd_of_session hs, endStream]
    split
    · refine (htaken.note _).finish (e := .completed) fun m hm ↦ ?_
      cases hm
    · exact htaken

/-! ### Steps -/

theorem onAnswer (h : c.SaysWhy) (answer : Except TransportError Nat) :
    (c.onAnswer answer).1.SaysWhy := by
  rw [Controller.onAnswer.eq_def]
  split
  · exact (h.note _).cancel
  · cases answer with
    | ok stream => exact h.withSession _
    | error e => exact h.endFailed e

theorem onTick (h : c.SaysWhy) (id : Nat) : (c.onTick id).1.SaysWhy := by
  cases hs : c.session with
  | none =>
    rw [Controller.onTick, tokenCancelled, hs]
    exact h
  | some s =>
    cases hfree : c.isCancelled s.id with
    | false =>
      rw [onTick_of_free hs hfree]
      exact (h.withSession _).tellUpdate _ _
    | true =>
      rw [Controller.onTick, tokenCancelled_of_session hs, if_pos hfree]
      exact h.cancel

theorem onItem (h : c.SaysWhy) (item : Option Item) : (c.onItem item).1.SaysWhy := by
  rw [Controller.onItem.eq_def]
  split
  · split
    · exact (h.note _).cancel
    · exact h.cancel
  · rcases item with _ | e | chunk
    · exact h.takeEnd
    · exact h.endFailed e
    · exact h.takeChunk chunk

theorem onTornChunk (h : c.SaysWhy) (chunk : Bytes) (taken : Nat) :
    (c.onTornChunk chunk taken).1.SaysWhy := by
  cases hs : c.session with
  | none =>
    rw [Controller.onTornChunk, hs]
    exact h.onItem _
  | some s =>
    rw [Controller.onTornChunk, hs]
    dsimp only
    split
    · exact h.onItem _
    · have htaken := (h.withSession (some { s with
        lines := (s.lines.push chunk).1, bytesRead := s.bytesRead + chunk.length })).takeLines
          ((s.lines.push chunk).2.take taken)
      split
      · exact (htaken.note _).cancel
      · exact htaken

theorem pass (h : c.SaysWhy) (w : Wait) : (c.pass w).SaysWhy := by
  obtain ⟨tokens, hpass, -⟩ := c.exists_pass w
  rw [hpass]
  exact h.of_deeds rfl

theorem endWait (h : c.SaysWhy) {r : Controller σ × StepResult} (hr : r.1.SaysWhy) :
    (c.endWait r).1.SaysWhy := by
  rw [Controller.endWait]
  split
  · exact hr
  · exact h

theorem step (h : c.SaysWhy) (w : Wait) : (c.step w).1.SaysWhy := by
  have hturn := c.turns
  rw [Controller.step.eq_def]
  generalize c.turn = turn at hturn ⊢
  cases hturn with
  | idle => exact h
  | cancelled => exact h.cancel
  | opening => exact h.endFailed neverOpened
  | @unopened s r hs hp hfree =>
    have hopening := h.withSession (some { s with phase := .opening })
    have hasked := (hopening.act (d := .asked r) rfl).pass w
    dsimp only
    split
    · exact hasked.onAnswer _
    · exact hasked.endWait (hasked.note _).cancel
  | @reading s n hs hp hfree =>
    have hpassed := h.pass w
    dsimp only
    split
    · exact hpassed.onItem _
    · exact hpassed.onTornChunk _ _
    · exact hpassed.onTick _
    · exact hpassed.endWait hpassed.cancel

/-! ### Runs -/

theorem launch (h : c.SaysWhy) (p : Prompt) : (c.launch p).SaysWhy := by
  have hstarted : (c.withSession p).SaysWhy := h.of_deeds rfl
  exact ((hstarted.note _).tell (e := .sessionStarted _ _) nofun).tell
    (e := .stateChanged _ _) nofun

theorem settle (h : c.SaysWhy) : c.settle.SaysWhy := by
  rw [Controller.settle]
  split
  · exact (h.note _).cancel
  · exact h

theorem of_begin (h : c.SaysWhy) {p : Prompt} {r : Controller σ × Nat}
    (hbegin : c.begin p = .ok r) : r.1.SaysWhy := by
  rw [begin_eq] at hbegin
  split at hbegin
  · cases hbegin
  · cases hbegin
    exact h.settle.launch p

theorem cancelHandle (h : c.SaysWhy) (session : Nat) : (c.cancelHandle session).SaysWhy := by
  rw [Controller.cancelHandle]
  split
  · rw [cancelToken_eq]
    exact h.of_deeds rfl
  · exact h

theorem apply (h : c.SaysWhy) (op : Op σ) : (c.apply op).SaysWhy := by
  cases op with
  | «begin» p =>
    rw [Controller.apply]
    split
    · rename_i hbegin
      exact h.of_begin hbegin
    · exact h
  | start p w =>
    rw [Controller.apply, Controller.start]
    cases hbegin : c.begin p with
    | ok r => exact (h.of_begin hbegin).step w
    | error e => exact h
  | step w => exact h.step w
  | cancel =>
    rw [Controller.apply, Controller.cancel]
    split
    · exact h.cancel
    · exact h
  | cancelHandle session => exact h.cancelHandle session
  | acceptSummary => exact note (h.of_deeds rfl) _
  | declineSummary => exact h.of_deeds rfl
  | measure => exact h.measure
  | drop =>
    rw [Controller.apply, Controller.drop]
    split
    · exact (h.note _).cancel
    · exact h
  | passTime now => exact h.of_deeds rfl
  | changeStore change => exact h.of_deeds rfl

theorem run (h : c.SaysWhy) (ops : List (Op σ)) : (c.run ops).SaysWhy := by
  induction ops generalizing c with
  | nil => exact h
  | cons op ops ih => exact ih (h.apply op)

end SaysWhy

theorem Reached.saysWhy (h : c.Reached) : c.SaysWhy := by
  obtain ⟨archive, store, config, transportName, ops, rfl⟩ := h
  have hnew : (new archive store config transportName).SaysWhy := List.forall_mem_nil _
  exact hnew.run ops

end Controller

/-- **No error is missed, and none is blank.** A value reports nothing exactly if it is empty, and
otherwise what its innermost `message` says or, if that says nothing, the object nearest to it. A
payload with such a value is an error whatever else it holds. What is reported can be seen, in the
events of every format and in the notices of every run. -/
theorem reports_visibly :
    (∀ v, reported? v = none ↔ v.IsSilent) ∧
      (∀ v m, reported? v = some m ↔ v.Reports m) ∧
      (∀ v m, reported? v = some m → IsVisible m) ∧
      (∀ (p : Payload) m,
        (∃ trailing, p.event = .error m trailing) ↔ ∃ v, p.error = some v ∧ v.Reports m) ∧
      (∀ (w : LineFormat) line m trailing, w.parse line = .error m trailing → IsVisible m) ∧
      ∀ (σ : Type) (c : Controller σ), c.Reached →
        ∀ level m, .notice level ("Server error: " ++ m) ∈ c.events → IsVisible m := by
  refine ⟨fun _ ↦ Value.reported?_eq_none_iff, fun _ _ ↦ Value.reported?_eq_some_iff,
    fun _ _ hm ↦ (Value.reported?_eq_some_iff.mp hm).isVisible,
    fun _ _ ↦ Payload.exists_event_eq_error_iff, fun _ _ _ _ ↦ LineFormat.isVisible_of_parse, ?_⟩
  intro σ c hreached level m hm
  exact hreached.saysWhy _ hm level m rfl

end ChatStream
