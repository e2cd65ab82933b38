import ChatStream.Proofs.Session.Protocol
import ChatStream.Proofs.Wire.Payload

/-!
# The page of a session

The running text knows what is pending, and the schedule knows whether a tick waits. A `Page` is the
two of them, with all that happens to both: events are heard, a frame is painted, the final update
is given out.

`IsScheduled` says that they agree: a tick waits if and only if text is pending. `Counts` says that
what the two have counted is what has happened, by a list of the events heard and a number of the
frames painted. An event that ends an answer may carry text that is scheduled no more, so that only
events before it leave a page scheduled; it is counted like the others.
-/

namespace ChatStream

/-! ## Fragments -/

/-- Whether an event is a fragment of the answer and no more. -/
def Event.isContent : Event → Bool
  | .content _ => true
  | _ => false

theorem Event.isContent_eq (e : Event) : e.isContent = (e.text.isSome && !e.isTerminal) := by
  cases e with
  | content | unknown => rfl
  | done | error => exact (Bool.and_false _).symm

theorem PaintSchedule.noteFragment_of_open {s : PaintSchedule} (hopen : s.closed = false)
    (now : Instant) :
    (s.noteFragment now).1.waiting.isSome = true ∧
      (s.noteFragment now).1.stats =
        if s.waiting.isSome then { s.stats with coalesced := s.stats.coalesced + 1 }
        else { s.stats with ticks := s.stats.ticks + 1 } := by
  rw [noteFragment, hopen, if_neg Bool.false_ne_true]
  split_ifs with hwaiting
  · exact ⟨hwaiting, rfl⟩
  · exact ⟨rfl, rfl⟩

/-! ## Pages -/

/-- What a session has to paint, and when. -/
structure Page where
  text : RunningText
  schedule : PaintSchedule

/-- The page of a session. -/
def Session.page (s : Session) : Page := { text := s.text, schedule := s.schedule }

namespace Page

/-- Whether a tick waits. -/
def waits (g : Page) : Bool := g.schedule.waiting.isSome

/-- The page after an event is heard. -/
def heed (now : Instant) (g : Page) (e : Event) : Page where
  text := e.text.elim g.text g.text.apply
  schedule := if e.isContent then (g.schedule.noteFragment now).1 else g.schedule

/-- The page after events are heard. -/
def hear (g : Page) (now : Instant) (es : List Event) : Page := es.foldl (heed now) g

variable {g : Page} {es : List Event}

theorem closed_heed (now : Instant) (g : Page) (e : Event) :
    (g.heed now e).schedule.closed = g.schedule.closed := by
  rw [heed]
  dsimp only
  split_ifs
  · exact PaintSchedule.closed_noteFragment _ _
  · rfl

theorem closed_hear (now : Instant) (g : Page) (es : List Event) :
    (g.hear now es).schedule.closed = g.schedule.closed := by
  induction es generalizing g with
  | nil => rfl
  | cons e es ih => exact (ih (g.heed now e)).trans (closed_heed now g e)

/-- A tick waits once a fragment was heard. -/
theorem waits_heed (hopen : g.schedule.closed = false) (now : Instant) (e : Event) :
    (g.heed now e).waits = (g.waits || e.isContent) := by
  rw [heed, waits]
  dsimp only
  cases e.isContent with
  | true =>
    rw [if_pos rfl, Bool.or_true]
    exact (PaintSchedule.noteFragment_of_open hopen now).1
  | false =>
    rw [if_neg Bool.false_ne_true, Bool.or_false, waits]

theorem waits_hear (hopen : g.schedule.closed = false) (now : Instant) (es : List Event) :
    (g.hear now es).waits = (g.waits || es.any Event.isContent) := by
  induction es generalizing g with
  | nil => exact (Bool.or_false _).symm
  | cons e es ih =>
    have hrest := ih (g := g.heed now e) ((closed_heed now g e).trans hopen)
    rw [List.any_cons, ← Bool.or_assoc, ← waits_heed hopen now]
    exact hrest

/-! ### Counting -/

theorem stats_heed (hopen : g.schedule.closed = false) (now : Instant) (e : Event) :
    (g.heed now e).schedule.stats =
      if e.isContent then
        if g.waits then { g.schedule.stats with coalesced := g.schedule.stats.coalesced + 1 }
        else { g.schedule.stats with ticks := g.schedule.stats.ticks + 1 }
      else g.schedule.stats := by
  rw [waits, ← (PaintSchedule.noteFragment_of_open hopen now).2]
  exact apply_ite PaintSchedule.stats _ _ _

theorem committed_heed (now : Instant) (g : Page) (e : Event) :
    (g.heed now e).text.committed = g.text.committed ++ e.text.getD "" := by
  rw [heed]
  cases e.text with
  | none => exact String.append_empty.symm
  | some text => exact (g.text.apply_eq text).1

theorem fragments_heed (now : Instant) (g : Page) {e : Event} (he : e.text ≠ some "") :
    (g.heed now e).text.fragments = g.text.fragments + if e.text.isSome then 1 else 0 := by
  rw [heed]
  cases htext : e.text with
  | none => rfl
  | some text =>
    have hne : ¬ text.isEmpty = true := by
      rw [String.isEmpty_iff]
      rintro rfl
      exact he htext
    rw [Option.elim_some, RunningText.apply, if_neg hne]
    rfl

/-- What is counted of a page is right: these events were heard, so many frames were painted, and
`lost` says whether a tick was forgotten that neither was painted nor waits. -/
structure Counts (g : Page) (es : List Event) (frames : Nat) (lost : Bool) : Prop where
  painted : g.schedule.stats.frames = frames
  ticks : g.schedule.stats.ticks = frames + (g.waits || lost).toNat
  contents : g.schedule.stats.ticks + g.schedule.stats.coalesced = es.countP Event.isContent
  fragments : g.text.fragments = es.countP (·.text.isSome)
  committed : g.text.committed = .join (es.filterMap Event.text)

variable {frames : Nat}

theorem Counts.heed (hg : g.Counts es frames false) (hopen : g.schedule.closed = false)
    (now : Instant) {e : Event} (he : e.text ≠ some "") :
    (g.heed now e).Counts (es ++ [e]) frames false := by
  constructor
  · rw [stats_heed hopen]
    split_ifs <;> exact hg.painted
  · have hticks := hg.ticks
    rw [Bool.or_false] at hticks
    rw [stats_heed hopen, Bool.or_false, waits_heed hopen]
    -- A fragment finds a tick waiting, or is the first since the last frame.
    split_ifs with hcontent hwaits
    · rw [hwaits] at hticks
      rw [hwaits]
      exact hticks
    · rw [Bool.not_eq_true] at hwaits
      rw [hwaits] at hticks
      rw [hcontent, Bool.or_true]
      exact congrArg (· + 1) hticks
    · rw [Bool.not_eq_true] at hcontent
      rw [hcontent, Bool.or_false]
      exact hticks
  · rw [stats_heed hopen, List.countP_append, List.countP_singleton, ← hg.contents]
    split_ifs
    · exact (Nat.add_assoc _ _ 1).symm
    · exact Nat.add_right_comm _ 1 _
    · rfl
  · rw [fragments_heed now g he, List.countP_append, List.countP_singleton, hg.fragments]
  · rw [committed_heed, List.filterMap_append, String.join_append, ← hg.committed]
    cases htext : e.text <;> simp [htext]

theorem Counts.hear (hg : g.Counts es frames false) (hopen : g.schedule.closed = false)
    (now : Instant) {fs : List Event} (hfs : ∀ e ∈ fs, e.text ≠ some "") :
    (g.hear now fs).Counts (es ++ fs) frames false := by
  induction fs generalizing g es with
  | nil =>
    rw [List.append_nil]
    exact hg
  | cons e fs ih =>
    obtain ⟨he, hfs⟩ := List.forall_mem_cons.mp hfs
    rw [List.append_cons]
    exact ih (hg.heed hopen now he) ((closed_heed now g e).trans hopen) hfs

/-! ### Waiting text -/

/-- A tick waits if and only if text is pending. -/
def IsScheduled (g : Page) : Prop := g.waits = true ↔ g.text.pending ≠ ""

theorem IsScheduled.heed (hg : g.IsScheduled) (hopen : g.schedule.closed = false) (now : Instant)
    {e : Event} (he : e.text ≠ some "") (hterminal : e.isTerminal = false) :
    (g.heed now e).IsScheduled := by
  have hcontent := e.isContent_eq
  rw [hterminal, Bool.not_false, Bool.and_true] at hcontent
  rw [IsScheduled, waits_heed hopen, hcontent, Page.heed]
  cases htext : e.text with
  | none =>
    rw [Option.isSome_none, Bool.or_false]
    exact hg
  | some text =>
    -- The fragment is pending now, and a tick waits for it.
    refine iff_of_true (Bool.or_true _) ?_
    rw [Option.elim_some, (g.text.apply_eq text).2, Ne, String.append_eq_empty_iff]
    rintro ⟨-, rfl⟩
    exact he htext

theorem IsScheduled.hear (hg : g.IsScheduled) (hopen : g.schedule.closed = false) (now : Instant)
    (hes : ∀ e ∈ es, e.text ≠ some "") (hterminal : ∀ e ∈ es, e.isTerminal = false) :
    (g.hear now es).IsScheduled := by
  induction es generalizing g with
  | nil => exact hg
  | cons e es ih =>
    obtain ⟨he, hes⟩ := List.forall_mem_cons.mp hes
    obtain ⟨hfirst, hterminal⟩ := List.forall_mem_cons.mp hterminal
    exact ih (hg.heed hopen now he hfirst) ((closed_heed now g e).trans hopen) hes hterminal

/-! ### Frames and the end -/

/-- The page after all that is pending was painted in a frame. -/
def painted (g : Page) : Page where
  text := { g.text with pending := "" }
  schedule :=
    { g.schedule with
      waiting := none
      stats := { g.schedule.stats with frames := g.schedule.stats.frames + 1 } }

/-- The page after the final update. -/
def closed (g : Page) : Page where
  text := { g.text with pending := "" }
  schedule := { g.schedule with closed := true, waiting := none }

theorem counts_painted (hg : g.Counts es frames false) (hwaits : g.waits = true) :
    g.painted.Counts es (frames + 1) false where
  painted := congrArg (· + 1) hg.painted
  ticks := by
    have hticks := hg.ticks
    rwa [hwaits] at hticks
  contents := hg.contents
  fragments := hg.fragments
  committed := hg.committed

theorem counts_closed (hg : g.Counts es frames false) : g.closed.Counts es frames g.waits where
  painted := hg.painted
  ticks := hg.ticks.trans (by rw [Bool.or_false]; rfl)
  contents := hg.contents
  fragments := hg.fragments
  committed := hg.committed

end Page

namespace Session

variable {s : Session}

theorem page_fragment (s : Session) (now : Instant) {e : Event} {text : String}
    (htext : e.text = some text) :
    (s.fragment now text (!e.isTerminal)).page = s.page.heed now e := by
  rw [fragment_eq, page, Page.heed, e.isContent_eq, htext]
  rfl

theorem page_fired {t : Tick} (hwaiting : s.schedule.waiting = some t)
    (hpending : s.text.pending ≠ "") : (s.fired t.id).page = s.page.painted := by
  have hdue : s.schedule.waiting.any (·.id = t.id) = true := by
    rw [hwaiting]
    exact decide_eq_true rfl
  simp [fired, page, Page.painted, PaintSchedule.fire, hdue, RunningText.drain, hpending]

theorem page_ended (hopen : s.schedule.closed = false) (e : Ending) :
    (s.ended e).page = s.page.closed := by
  simp [ended, page, Page.closed, PaintSchedule.finish, hopen, RunningText.drain]

end Session

end ChatStream
