import Mathlib.Tactic
import ChatStream.Proofs.Session.Chronicle

/-!
# What each deed writes down and leaves alone

Most of what a controller does only adds to its deeds. `Does` says so of a function that adds deeds
and changes nothing else, and `Keeps` says once which fields a function leaves alone that also
reaches the archive or the budget, so that each function needs one lemma instead of one for every
field. `outline` is what is added, without log lines; the `trace` is its part without requests.

The main statement is `outline_finish`, which lists all that the end of a session adds, in order.
-/

namespace ChatStream

theorem Budget.summarize_observe (b : Budget) (u : Usage) :
    (b.observe u).1.summarize = b.summarize := by
  rw [observe]
  dsimp only
  split_ifs <;> rfl

namespace Controller

variable {σ : Type}

/-! ## Fields left alone -/

/-- The second controller has done more than the first, and differs otherwise at most in the
archive's state, in the budget and in the number of records made; the request for a summary stands
as it stood. -/
structure Keeps (c c' : Controller σ) : Prop where
  archive : c'.archive = c.archive
  config : c'.config = c.config
  transportName : c'.transportName = c.transportName
  session : c'.session = c.session
  cancelledTokens : c'.cancelledTokens = c.cancelledTokens
  sessionsBegun : c'.sessionsBegun = c.sessionsBegun
  now : c'.now = c.now
  watched : c'.watched = c.watched
  summarize : c'.budget.summarize = c.budget.summarize
  deeds : c.deeds <+: c'.deeds

namespace Keeps

theorem trans {a b c : Controller σ} (h : Keeps a b) (h' : Keeps b c) : Keeps a c where
  archive := h'.archive.trans h.archive
  config := h'.config.trans h.config
  transportName := h'.transportName.trans h.transportName
  session := h'.session.trans h.session
  cancelledTokens := h'.cancelledTokens.trans h.cancelledTokens
  sessionsBegun := h'.sessionsBegun.trans h.sessionsBegun
  now := h'.now.trans h.now
  watched := h'.watched.trans h.watched
  summarize := h'.summarize.trans h.summarize
  deeds := h.deeds.trans h'.deeds

end Keeps

/-- The second controller has done more than the first, and differs in nothing else. -/
def Does (c c' : Controller σ) : Prop := ∃ ds, c' = { c with deeds := c.deeds ++ ds }

namespace Does

variable {c c' c'' : Controller σ}

theorem refl (c : Controller σ) : Does c c := ⟨[], by rw [List.append_nil]⟩

theorem trans (h : Does c c') (h' : Does c' c'') : Does c c'' := by
  obtain ⟨ds, rfl⟩ := h
  obtain ⟨ds', rfl⟩ := h'
  exact ⟨ds ++ ds', by rw [List.append_assoc]⟩

theorem keeps (h : Does c c') : Keeps c c' := by
  obtain ⟨ds, rfl⟩ := h
  exact ⟨rfl, rfl, rfl, rfl, rfl, rfl, rfl, rfl, rfl, List.prefix_append _ _⟩

theorem recordsMade (h : Does c c') : c'.recordsMade = c.recordsMade := by
  obtain ⟨ds, rfl⟩ := h
  rfl

end Does

theorem does_act (c : Controller σ) (d : Deed) : Does c (c.act d) := ⟨_, rfl⟩

theorem does_note (c : Controller σ) (l : LogLine) : Does c (c.note l) := does_act c _

theorem does_notes (c : Controller σ) (ls : List LogLine) : Does c (c.notes ls) := by
  induction ls generalizing c with
  | nil => exact .refl c
  | cons l ls ih => exact (does_note c l).trans (ih (c.note l))

theorem does_tell (c : Controller σ) (e : ViewEvent) : Does c (c.tell e) := by
  rw [tell]
  split
  · exact does_act c _
  · exact does_note c _

theorem keeps_act (c : Controller σ) (d : Deed) : Keeps c (c.act d) := (does_act c d).keeps

theorem keeps_note (c : Controller σ) (l : LogLine) : Keeps c (c.note l) := (does_note c l).keeps

theorem keeps_notes (c : Controller σ) (ls : List LogLine) : Keeps c (c.notes ls) :=
  (does_notes c ls).keeps

theorem keeps_tell (c : Controller σ) (e : ViewEvent) : Keeps c (c.tell e) :=
  (does_tell c e).keeps

/-- A check reads the archive, and tells the notice that is due. -/
theorem measure_cases (c : Controller σ) :
    ∃ store budget, budget.summarize = c.budget.summarize ∧ c.measure.1 =
      match c.measure.2 with
      | some n =>
        (({ c with store, budget }.act (.measured (c.archive.size c.store))).note n.log).tell
          (.budgetNearLimit n.tokens n.limit)
      | none => { c with store, budget }.act (.measured (c.archive.size c.store)) := by
  rw [measure]
  generalize c.archive.usage c.store (c.archive.size c.store) = reading
  obtain ⟨store, usage⟩ := reading
  have hsummarize := c.budget.summarize_observe usage
  dsimp only
  generalize c.budget.observe usage = observed at hsummarize
  obtain ⟨budget, _ | n⟩ := observed
  · exact ⟨store, budget, hsummarize, rfl⟩
  · exact ⟨store, budget, hsummarize, rfl⟩

theorem keeps_measure (c : Controller σ) : Keeps c c.measure.1 := by
  obtain ⟨store, budget, hsummarize, hmeasure⟩ := c.measure_cases
  have hread : Keeps c ({ c with store, budget }.act (.measured (c.archive.size c.store))) :=
    ⟨rfl, rfl, rfl, rfl, rfl, rfl, rfl, rfl, hsummarize, List.prefix_append _ _⟩
  rw [hmeasure]
  split
  · exact hread.trans ((keeps_note _ _).trans (keeps_tell _ _))
  · exact hread

/-- What comes of handing in a record: the archive takes it or refuses it, and a refusal is told. -/
theorem does_commit (c : Controller σ) (r : Record) :
    Does { c with store := (c.archive.commit c.store r).state } (c.commit r) := by
  simp only [commit]
  split
  · exact (does_notes _ _).trans (does_act _ _)
  · exact (does_notes _ _).trans <| (does_act _ _).trans <| (does_note _ _).trans (does_tell _ _)

theorem keeps_commit (c : Controller σ) (r : Record) : Keeps c (c.commit r) := by
  have hstore : Keeps c { c with store := (c.archive.commit c.store r).state } :=
    ⟨rfl, rfl, rfl, rfl, rfl, rfl, rfl, rfl, rfl, List.prefix_refl _⟩
  exact hstore.trans (does_commit c r).keeps

theorem keeps_makeRecord (c : Controller σ) (role : Role) (content : String)
    (model : Option String) : Keeps c (c.makeRecord role content model).1 :=
  ⟨rfl, rfl, rfl, rfl, rfl, rfl, rfl, rfl, rfl, List.prefix_refl _⟩

theorem keeps_keepRecords (c : Controller σ) (s : Session) (e : Ending) :
    Keeps c (c.keepRecords s e) := by
  simp only [keepRecords]
  split
  · exact (keeps_makeRecord c _ _ _).trans <| (keeps_makeRecord _ _ _ _).trans <|
      (keeps_commit _ _).trans (keeps_commit _ _)
  · exact (keeps_makeRecord c _ _ _).trans (keeps_commit _ _)

/-! ## The outline and the trace -/

end Controller

/-- Whether a deed is traced: log lines and requests are not. -/
def Deed.isTraced : Deed → Bool
  | .shown _ => true
  | .committed .. => true
  | .measured _ => true
  | _ => false

/-- Whether a deed is more than a log line. -/
def Deed.isOutlined : Deed → Bool
  | .logged _ => false
  | _ => true

/-- The request that a deed hands out. -/
def Deed.request? : Deed → Option Request
  | .asked r => some r
  | _ => none

theorem Check.isTraced_of_mem (k : Check) : ∀ d ∈ k.deeds, d.isTraced := by
  simp [deeds, Deed.isTraced]

theorem Offer.isTraced_of_mem (o : Offer) : ∀ d ∈ o.deeds, d.isTraced := by
  simp [deeds, Deed.isTraced]

theorem Closing.isTraced_of_mem (session : Nat) (committed : String) (k : Closing) :
    ∀ d ∈ k.deeds session committed, d.isTraced := by
  intro d hd
  simp only [deeds, List.cons_append, List.mem_cons, List.mem_append, List.mem_flatMap,
    List.mem_map] at hd
  rcases hd with rfl | ⟨⟨⟨o, -, hd⟩ | rfl | ⟨e, -, rfl⟩⟩ | hd⟩ | ⟨k', -, hd⟩
  · rfl
  · exact o.isTraced_of_mem d hd
  · rfl
  · rfl
  · exact k.check.isTraced_of_mem d hd
  · exact k'.isTraced_of_mem d hd

namespace Controller

variable {σ : Type}

/-- The events shown, the records handed in and the checks of the budget, oldest first. -/
def trace (c : Controller σ) : List Deed := c.deeds.filter Deed.isTraced

/-- All that was done but the log, oldest first. -/
def outline (c : Controller σ) : List Deed := c.deeds.filter Deed.isOutlined

/-- What is picked from the deeds without a look at the log is picked from the outline. -/
theorem filterMap_outline {α : Type} {f : Deed → Option α} (hf : ∀ l, f (.logged l) = none)
    (c : Controller σ) : c.outline.filterMap f = c.deeds.filterMap f := by
  rw [outline, List.filterMap_filter]
  congr 1
  funext d
  cases d with
  | logged l => exact (hf l).symm
  | _ => rfl

theorem trace_eq_filter_outline (c : Controller σ) : c.trace = c.outline.filter Deed.isTraced := by
  rw [trace, outline, List.filter_filter]
  congr 1
  funext d
  cases d <;> rfl

/-- What is picked from the deeds that are traced is picked from the trace. -/
theorem filterMap_trace {α : Type} {f : Deed → Option α}
    (hf : ∀ d, d.isTraced = false → f d = none) (c : Controller σ) :
    c.trace.filterMap f = c.deeds.filterMap f := by
  rw [trace, List.filterMap_filter]
  congr 1
  funext d
  cases htraced : d.isTraced with
  | true => rfl
  | false => exact (hf d htraced).symm

theorem events_eq_filterMap_trace (c : Controller σ) :
    c.events = c.trace.filterMap Deed.event? := by
  refine Eq.trans ?_ (c.filterMap_trace fun d hd ↦ ?_).symm
  · rw [events]
    rfl
  · cases d with
    | shown e => cases hd
    | _ => rfl

theorem requests_eq_filterMap_outline (c : Controller σ) :
    c.requests = c.outline.filterMap Deed.request? := by
  rw [filterMap_outline (fun _ ↦ rfl), requests]
  rfl

/-- The trace grows by what the outline grows by, where that holds no request. -/
theorem trace_of_outline {c c' : Controller σ} {ds : List Deed}
    (h : c'.outline = c.outline ++ ds) (hds : ∀ d ∈ ds, d.isTraced) :
    c'.trace = c.trace ++ ds := by
  rw [trace_eq_filter_outline, h, List.filter_append, ← trace_eq_filter_outline,
    List.filter_eq_self.mpr hds]

theorem events_of_outline {c c' : Controller σ} {ds : List Deed}
    (h : c'.outline = c.outline ++ ds) : c'.events = c.events ++ ds.filterMap Deed.event? := by
  have hevents (c : Controller σ) : c.events = c.outline.filterMap Deed.event? := by
    rw [filterMap_outline (fun _ ↦ rfl), events]
    rfl
  rw [hevents, h, List.filterMap_append, ← hevents]

/-- No request is handed out where the trace grows as the outline does. -/
theorem requests_of_outline {c c' : Controller σ} {ds : List Deed}
    (h : c'.outline = c.outline ++ ds) (hds : ∀ d ∈ ds, d.isTraced) :
    c'.requests = c.requests := by
  have hnone : ds.filterMap Deed.request? = [] := by
    rw [List.filterMap_eq_nil_iff]
    intro d hd
    have htraced := hds d hd
    cases d with
    | asked r => cases htraced
    | _ => rfl
  rw [requests_eq_filterMap_outline, h, List.filterMap_append, hnone, List.append_nil,
    requests_eq_filterMap_outline]

theorem trace_act (c : Controller σ) (d : Deed) :
    (c.act d).trace = c.trace ++ if d.isTraced then [d] else [] := by
  rw [trace, act, List.filter_append, trace, List.filter_cons, List.filter_nil]

theorem outline_act (c : Controller σ) (d : Deed) :
    (c.act d).outline = c.outline ++ if d.isOutlined then [d] else [] := by
  rw [outline, act, List.filter_append, outline, List.filter_cons, List.filter_nil]

@[simp] theorem outline_note (c : Controller σ) (l : LogLine) :
    (c.note l).outline = c.outline := by
  rw [note, outline_act]
  exact List.append_nil _

@[simp] theorem outline_notes (c : Controller σ) (ls : List LogLine) :
    (c.notes ls).outline = c.outline := by
  induction ls generalizing c with
  | nil => rfl
  | cons l ls ih => exact (ih (c.note l)).trans (outline_note c l)

theorem outline_tell {c : Controller σ} (hw : c.watched = true) (e : ViewEvent) :
    (c.tell e).outline = c.outline ++ [.shown e] := by
  rw [tell, if_pos hw, outline_act]
  rfl

theorem trace_note (c : Controller σ) (l : LogLine) : (c.note l).trace = c.trace := by
  rw [trace_eq_filter_outline, outline_note, ← trace_eq_filter_outline]

theorem trace_tell {c : Controller σ} (hw : c.watched = true) (e : ViewEvent) :
    (c.tell e).trace = c.trace ++ [.shown e] := by
  refine trace_of_outline (outline_tell hw e) fun d hd ↦ ?_
  rw [List.mem_singleton.mp hd]
  rfl

/-- The check of the budget that the controller would make now. -/
def checked (c : Controller σ) : Check where
  count := c.archive.size c.store
  notice := c.measure.2

theorem outline_measure {c : Controller σ} (hw : c.watched = true) :
    c.measure.1.outline = c.outline ++ c.checked.deeds := by
  obtain ⟨store, budget, -, hmeasure⟩ := c.measure_cases
  have hread : ({ c with store, budget }.act (.measured (c.archive.size c.store))).outline =
      c.outline ++ [.measured (c.archive.size c.store)] := outline_act _ _
  rw [hmeasure, checked, Check.deeds, Check.events]
  split
  · rename_i n hn
    rw [outline_tell (by rw [(keeps_note _ _).watched]; exact hw), outline_note, hread,
      List.append_assoc, hn]
    rfl
  · rename_i hn
    rw [hread, hn]
    rfl

theorem trace_measure {c : Controller σ} (hw : c.watched = true) :
    c.measure.1.trace = c.trace ++ c.checked.deeds :=
  trace_of_outline (outline_measure hw) c.checked.isTraced_of_mem

theorem recordsMade_measure (c : Controller σ) : c.measure.1.recordsMade = c.recordsMade := by
  obtain ⟨store, budget, -, hmeasure⟩ := c.measure_cases
  rw [hmeasure]
  split
  · exact ((does_note _ _).trans (does_tell _ _)).recordsMade
  · rfl

/-! ## Records -/

/-- What comes of handing in a record now. -/
def offered (c : Controller σ) (r : Record) : Offer where
  record := r
  refusal := (c.archive.commit c.store r).refusal

theorem outline_commit {c : Controller σ} (hw : c.watched = true) (r : Record) :
    (c.commit r).outline = c.outline ++ (c.offered r).deeds := by
  have hstored (store : σ) (ls : List LogLine) (refusal : Option Refusal) :
      (({ c with store }.notes ls).act (.committed r refusal)).outline =
        c.outline ++ [.committed r refusal] := by
    rw [outline_act, outline_notes]
    rfl
  simp only [commit, offered, Offer.deeds, Offer.events]
  split
  · rename_i hnone
    rw [hstored, hnone]
    rfl
  · rename_i e hsome
    have hwatched : ∀ (store : σ) (ls : List LogLine) (d : Deed) (l : LogLine),
        ((({ c with store }.notes ls).act d).note l).watched = true := fun store ls d l ↦ by
      rw [(keeps_note _ _).watched, (keeps_act _ _).watched, (keeps_notes _ _).watched]
      exact hw
    rw [outline_tell (hwatched _ _ _ _), outline_note, hstored, hsome, List.append_assoc]
    rfl

/-- The records that a session hands in which ends so: its message, and its answer if that is
kept. -/
def recordsOf (c : Controller σ) (s : Session) (e : Ending) : List Record :=
  let (c, question) := c.makeRecord .user s.message none
  if keepsAnswer c.config e s.text.committed then
    [question, (c.makeRecord .assistant s.text.committed (some s.model)).2]
  else [question]

/-- The records are named and dated by how many were made before and by the clock. -/
theorem recordsOf_congr {c c' : Controller σ} (hkeeps : Keeps c c')
    (hmade : c'.recordsMade = c.recordsMade) (s : Session) (e : Ending) :
    c'.recordsOf s e = c.recordsOf s e := by
  simp only [recordsOf, makeRecord, hkeeps.config, hkeeps.now, hmade]
  rfl

/-- What came of a record is what the archive said to it. -/
def Answered (archive : Archive σ) (o : Offer) : Prop :=
  ∃ store, o.refusal = (archive.commit store o.record).refusal

theorem answered_offered {c : Controller σ} (r : Record) : Answered c.archive (c.offered r) :=
  ⟨c.store, rfl⟩

/-- A session hands in its records, and what comes of each is told behind it. -/
theorem outline_keepRecords {c : Controller σ} (hw : c.watched = true) (s : Session) (e : Ending) :
    ∃ (question : Offer) (answer : Option Offer),
      (question :: answer.toList).map Offer.record = c.recordsOf s e ∧
        (∀ o ∈ question :: answer.toList, Answered c.archive o) ∧
        (c.keepRecords s e).outline =
          c.outline ++ (question :: answer.toList).flatMap Offer.deeds := by
  have hone (c : Controller σ) (hw : c.watched = true) (question : Record) :
      (c.commit question).outline = c.outline ++ [c.offered question].flatMap Offer.deeds := by
    rw [outline_commit hw, List.flatMap_singleton]
  have htwo (c : Controller σ) (hw : c.watched = true) (question answer : Record) :
      ((c.commit question).commit answer).outline =
        c.outline ++ [c.offered question, (c.commit question).offered answer].flatMap
          Offer.deeds := by
    rw [outline_commit (by rw [(keeps_commit _ _).watched]; exact hw), outline_commit hw]
    simp
  have hanswered (c : Controller σ) (question answer : Record) :
      ∀ o ∈ [c.offered question, (c.commit question).offered answer], Answered c.archive o := by
    intro o ho
    rcases List.mem_pair.mp ho with rfl | rfl
    · exact answered_offered question
    · exact (keeps_commit c question).archive ▸ answered_offered answer
  simp only [keepRecords, recordsOf]
  split
  · refine ⟨_, some _, rfl, ?_, htwo _ (by exact hw) _ _⟩
    exact hanswered _ _ _
  · refine ⟨_, none, rfl, ?_, hone _ (by exact hw) _⟩
    exact List.forall_mem_singleton.mpr (answered_offered _)

theorem recordsMade_keepRecords (c : Controller σ) (s : Session) (e : Ending) :
    (c.keepRecords s e).recordsMade = c.recordsMade + (c.recordsOf s e).length := by
  simp only [keepRecords, recordsOf]
  split
  · rw [(does_commit _ _).recordsMade, (does_commit _ _).recordsMade]
    rfl
  · rw [(does_commit _ _).recordsMade]
    rfl

/-! ## The end of a session -/

end Controller

/-- The session after it ended. -/
def Session.ended (s : Session) (e : Ending) : Session :=
  { s with
    phase := .ended e
    lines := s.lines.clear
    schedule := (s.schedule.finish s.text e.state).1
    text := (s.schedule.finish s.text e.state).2.1 }

namespace Controller

variable {σ : Type}

theorem cancelToken_eq (c : Controller σ) (session : Nat) :
    c.cancelToken session =
      { c with
        cancelledTokens :=
          if c.isCancelled session then c.cancelledTokens else session :: c.cancelledTokens } := by
  rw [cancelToken]
  split_ifs <;> rfl

theorem isCancelled_cancelToken (c : Controller σ) (session : Nat) :
    (c.cancelToken session).isCancelled session = true := by
  rw [cancelToken]
  split_ifs with h
  · exact h
  · rw [isCancelled, List.contains_iff_mem]
    exact List.mem_cons_self

/-- Cancels the token of a session that was cancelled. -/
def withdraw (c : Controller σ) (session : Nat) (e : Ending) : Controller σ :=
  if e = .cancelled then c.cancelToken session else c

/-- The controller that has ended its session and logged it, before anyone else is told. -/
def close (c : Controller σ) (s : Session) (e : Ending) : Controller σ :=
  ({ c.withdraw s.id e with session := some (s.ended e) }.notes
    (s.schedule.finishLog e.state)).note (endLog (s.ended e) e)

/-- Shows the notice of a failure. -/
def tellEnding (c : Controller σ) (e : Ending) : Controller σ :=
  match e with
  | .errored f => c.tell (.notice .error f.message)
  | _ => c

/-- Shows the final update, if there is one. -/
def tellUpdate (c : Controller σ) (session : Nat) (update : Option Update) : Controller σ :=
  match update with
  | some u => c.tell (.render session u)
  | none => c

theorem finish_of_live {c : Controller σ} {s : Session} (hs : c.session = some s)
    (hl : s.isLive = true) (e : Ending) :
    c.finish e =
      ((((((c.close s e).tellUpdate s.id (s.schedule.finish s.text e.state).2.2).keepRecords
        (s.ended e) e).tell (.stateChanged s.id e.state)).tellEnding e).measure).1 := by
  simp only [finish, hs, hl]
  rfl

theorem finish_of_not_live {c : Controller σ} {s : Session} (hs : c.session = some s)
    (hl : s.isLive = false) (e : Ending) : c.finish e = c := by
  simp [finish, hs, hl]

theorem finish_of_none {c : Controller σ} (hs : c.session = none) (e : Ending) :
    c.finish e = c := by
  simp [finish, hs]

theorem does_tellEnding (c : Controller σ) (e : Ending) : Does c (c.tellEnding e) := by
  cases e with
  | errored f => exact does_tell _ _
  | completed => exact .refl _
  | cancelled => exact .refl _

theorem does_tellUpdate (c : Controller σ) (session : Nat) (update : Option Update) :
    Does c (c.tellUpdate session update) := by
  cases update with
  | some u => exact does_tell _ _
  | none => exact .refl _

theorem keeps_tellUpdate (c : Controller σ) (session : Nat) (update : Option Update) :
    Keeps c (c.tellUpdate session update) := (does_tellUpdate c session update).keeps

/-- An end leaves all but the session and its token as they were. -/
theorem does_close (c : Controller σ) (s : Session) (e : Ending) :
    Does { c with
      session := some (s.ended e)
      cancelledTokens := (c.withdraw s.id e).cancelledTokens } (c.close s e) := by
  have hwithdraw : { c with
      session := some (s.ended e)
      cancelledTokens := (c.withdraw s.id e).cancelledTokens } =
      { c.withdraw s.id e with session := some (s.ended e) } := by
    rw [withdraw, cancelToken_eq]
    split_ifs <;> rfl
  rw [close, hwithdraw]
  exact (does_notes _ _).trans (does_note _ _)

theorem keeps_finish {c : Controller σ} {s : Session} (hs : c.session = some s)
    (hl : s.isLive = true) (e : Ending) :
    Keeps { c with
      session := some (s.ended e)
      cancelledTokens := (c.withdraw s.id e).cancelledTokens } (c.finish e) := by
  rw [finish_of_live hs hl]
  exact (does_close c s e).keeps.trans <| (keeps_tellUpdate _ _ _).trans <|
    (keeps_keepRecords _ _ _).trans <| (keeps_tell _ _).trans <|
      (does_tellEnding _ _).keeps.trans (keeps_measure _)

theorem outline_close (c : Controller σ) (s : Session) (e : Ending) :
    (c.close s e).outline = c.outline := by
  rw [close, outline_note, outline_notes, withdraw, cancelToken_eq]
  split_ifs <;> rfl

/-- The records that a session hands in are made where it closes. -/
theorem recordsOf_close (c : Controller σ) (s : Session) (e : Ending) (update : Option Update) :
    ((c.close s e).tellUpdate s.id update).recordsOf (s.ended e) e = c.recordsOf s e := by
  have hclosed := (does_close c s e).trans (does_tellUpdate _ s.id update)
  have htext : (s.ended e).text.committed = s.text.committed := by
    rw [Session.ended, PaintSchedule.finish]
    split_ifs <;> rfl
  rw [recordsOf_congr hclosed.keeps hclosed.recordsMade, recordsOf, htext]
  rfl

/-- Every record that a session hands in is one more made. -/
theorem recordsMade_finish {c : Controller σ} {s : Session} (hs : c.session = some s)
    (hl : s.isLive = true) (e : Ending) :
    (c.finish e).recordsMade = c.recordsMade + (c.recordsOf s e).length := by
  have hclosed (update : Option Update) :=
    (does_close c s e).trans (does_tellUpdate _ s.id update)
  rw [finish_of_live hs hl, recordsMade_measure,
    ((does_tell _ _).trans (does_tellEnding _ _)).recordsMade, recordsMade_keepRecords,
    recordsOf_close, (hclosed _).recordsMade]

/-- **The end of a session**, in order: the final update with the pending text, the records, the
new state, the notice of a failure, and a check of the budget. -/
theorem outline_finish {c : Controller σ} (hw : c.watched = true) {s : Session}
    (hs : c.session = some s) (hl : s.isLive = true) (hopen : s.schedule.closed = false)
    (e : Ending) :
    ∃ k : Closing, k.ending = e ∧ k.delta = s.text.pending ∧ k.later = [] ∧
      k.offers.map Offer.record = c.recordsOf s e ∧ (∀ o ∈ k.offers, Answered c.archive o) ∧
      (c.finish e).outline = c.outline ++ k.deeds s.id s.text.committed := by
  have hupdate : (s.schedule.finish s.text e.state).2.2 =
      some (.final s.text.pending s.text.committed e.state) := by
    simp [PaintSchedule.finish, hopen, RunningText.drain]
  rw [finish_of_live hs hl, hupdate]
  -- Each part of the end writes behind what stands there, so the controllers between two parts
  -- can be forgotten but for their outlines and for being watched.
  have hclose := outline_close c s e
  have harchive := (does_close c s e).keeps.archive
  have hrecordsOf := recordsOf_close c s e
    (some (.final s.text.pending s.text.committed e.state))
  have hwatched := (does_close c s e).keeps.watched.trans hw
  generalize c.close s e = c₁ at hclose harchive hrecordsOf hwatched ⊢
  have hfinal := outline_tell hwatched
    (.render s.id (.final s.text.pending s.text.committed e.state))
  have harchive := (keeps_tell c₁ (.render s.id (.final s.text.pending s.text.committed
    e.state))).archive.trans harchive
  have hwatched := (keeps_tell c₁ (.render s.id (.final s.text.pending s.text.committed
    e.state))).watched.trans hwatched
  simp only [tellUpdate] at hrecordsOf ⊢
  generalize c₁.tell _ = c₂ at hfinal harchive hrecordsOf hwatched ⊢
  obtain ⟨question, answer, hoffers, hanswered, hrecords⟩ :=
    outline_keepRecords hwatched (s.ended e) e
  have hwatched := (keeps_keepRecords c₂ (s.ended e) e).watched.trans hwatched
  generalize c₂.keepRecords _ _ = c₃ at hrecords hwatched ⊢
  have hstate := outline_tell hwatched (.stateChanged s.id e.state)
  have hwatched := (keeps_tell c₃ (.stateChanged s.id e.state)).watched.trans hwatched
  generalize c₃.tell _ = c₄ at hstate hwatched ⊢
  have hnotice : (c₄.tellEnding e).outline = c₄.outline ++ e.events.map .shown := by
    cases e with
    | errored f => exact outline_tell hwatched _
    | completed => exact (List.append_nil _).symm
    | cancelled => exact (List.append_nil _).symm
  have hwatched := (does_tellEnding c₄ e).keeps.watched.trans hwatched
  refine ⟨⟨e, s.text.pending, question, answer, (c₄.tellEnding e).checked, []⟩, rfl, rfl, rfl,
    hoffers.trans hrecordsOf, fun o ho ↦ harchive ▸ hanswered o ho, ?_⟩
  rw [outline_measure hwatched, hnotice, hstate, hrecords, hfinal, hclose]
  simp [Closing.deeds, Closing.offers]

end Controller

end ChatStream
