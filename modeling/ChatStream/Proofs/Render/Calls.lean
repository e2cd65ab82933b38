import ChatStream.Proofs.Session.Page

/-!
# The calls of a page

Whoever drives a page may do so in any order: text comes without a note, ticks fire that were given
out long ago or never, the end is asked for again. What is promised nevertheless is about what was
asked and answered, so every call is kept in a log beside the page.

A tick is outstanding by the log alone: it was given out, and since then it was neither fired nor
was the end. `Tracks` says that the page knows it, and `Numbered`, `Counted` and `Carries` that ids
never repeat, that nothing is counted twice and that no text is lost.

## The argument

`Page.Answers` lists all that a call can do to a page, with what must hold before. Each of the four
is kept by every answer, so it is kept by every run. `Page.orderly_run` puts them together.
-/

namespace ChatStream

/-- What is asked of a page. -/
inductive PageAct
  | apply (delta : String)
  | note
  | fire (id : Nat)
  | finish (state : SessionState)

/-- Whether this is the end of the page. -/
def PageAct.isFinish : PageAct → Bool
  | .finish _ => true
  | _ => false

def PageAct.isNote : PageAct → Bool
  | .note => true
  | _ => false

/-- The text that is applied. -/
def PageAct.delta : PageAct → Option String
  | .apply delta => some delta
  | _ => none

/-- Whether this is the last that is heard of a tick. -/
def PageAct.settles (t : Tick) : PageAct → Bool
  | .fire id => id == t.id
  | .finish _ => true
  | _ => false

/-- Something that is asked of a page, and when. -/
structure PageCall where
  now : Instant
  act : PageAct

/-- What a page gives back. -/
structure PageReply where
  tick : Option Tick := none
  update : Option Update := none

/-- A call with its answer. -/
structure PageEntry where
  call : PageCall
  reply : PageReply

namespace Page

/-- A page of which nothing was asked yet. -/
def fresh (clock : PaintClock) : Page := { text := {}, schedule := .new clock }

/-- Answers a call. -/
def call (g : Page) (c : PageCall) : Page × PageReply :=
  match c.act with
  | .apply delta => ({ g with text := g.text.apply delta }, {})
  | .note =>
    let (schedule, tick) := g.schedule.noteFragment c.now
    ({ g with schedule }, { tick })
  | .fire id =>
    let (schedule, text, update) := g.schedule.fire id g.text
    ({ text, schedule }, { update })
  | .finish state =>
    let (schedule, text, update) := g.schedule.finish g.text state
    ({ text, schedule }, { update })

/-- Answers one call after another, and keeps the log. -/
def run (g : Page) (calls : List PageCall) : Page × List PageEntry :=
  calls.foldl (fun (g, log) c ↦ ((g.call c).1, log ++ [⟨c, (g.call c).2⟩])) (g, [])

/-! ## What a call does -/

/-- The tick that a fragment schedules. -/
def nextTick (g : Page) (now : Instant) : Tick where
  id := g.schedule.lastId + 1
  deadline := g.schedule.clock.boundaryAfter now

/-- The page after a fragment has scheduled a tick. -/
def scheduled (g : Page) (now : Instant) : Page :=
  { g with
    schedule :=
      { g.schedule with
        waiting := some (g.nextTick now)
        lastId := g.schedule.lastId + 1
        stats := { g.schedule.stats with ticks := g.schedule.stats.ticks + 1 } } }

/-- The page after a fragment has found a tick waiting. -/
def coalesced (g : Page) : Page :=
  { g with
    schedule :=
      { g.schedule with
        stats := { g.schedule.stats with coalesced := g.schedule.stats.coalesced + 1 } } }

/-- The page after a tick has fired in vain. -/
def idled (g : Page) : Page := { g with schedule := { g.schedule with waiting := none } }

/-- All that a call can do to a page. -/
inductive Answers (g : Page) : PageCall → Page → PageReply → Prop
  | apply (now : Instant) (delta : String) :
    Answers g ⟨now, .apply delta⟩ { g with text := g.text.apply delta } {}
  | schedule (now : Instant) (hopen : g.schedule.closed = false)
    (hfree : g.schedule.waiting = none) :
    Answers g ⟨now, .note⟩ (g.scheduled now) { tick := some (g.nextTick now) }
  | coalesce (now : Instant) (t : Tick) (hopen : g.schedule.closed = false)
    (hwaiting : g.schedule.waiting = some t) : Answers g ⟨now, .note⟩ g.coalesced {}
  | idle (now : Instant) (t : Tick) (hwaiting : g.schedule.waiting = some t)
    (hpending : g.text.pending = "") : Answers g ⟨now, .fire t.id⟩ g.idled {}
  | paint (now : Instant) (t : Tick) (hwaiting : g.schedule.waiting = some t)
    (hpending : g.text.pending ≠ "") :
    Answers g ⟨now, .fire t.id⟩ g.painted { update := some (.frame g.text.pending) }
  | finish (now : Instant) (state : SessionState) (hopen : g.schedule.closed = false) :
    Answers g ⟨now, .finish state⟩ g.closed
      { update := some (.final g.text.pending g.text.committed state) }
  | stale (now : Instant) (id : Nat) (hother : ∀ t, g.schedule.waiting = some t → id ≠ t.id) :
    Answers g ⟨now, .fire id⟩ g {}
  | late (c : PageCall) (hclosed : g.schedule.closed = true)
    (hc : c.act = .note ∨ ∃ state, c.act = .finish state) : Answers g c g {}

theorem call_note_of_open {g : Page} (hopen : g.schedule.closed = false) (now : Instant) :
    g.call ⟨now, .note⟩ =
      if g.schedule.waiting.isSome then (g.coalesced, {})
      else (g.scheduled now, { tick := some (g.nextTick now) }) := by
  rw [call]
  dsimp only
  rw [PaintSchedule.noteFragment, if_neg (Bool.eq_false_iff.mp hopen)]
  split_ifs <;> rfl

theorem call_fire_of_waiting {g : Page} {t : Tick} (hwaiting : g.schedule.waiting = some t)
    (now : Instant) :
    g.call ⟨now, .fire t.id⟩ =
      if g.text.pending = "" then (g.idled, {})
      else (g.painted, { update := some (.frame g.text.pending) }) := by
  have hdue : g.schedule.waiting.any (·.id = t.id) = true := by
    rw [hwaiting]
    exact decide_eq_true rfl
  rw [call]
  dsimp only
  rw [PaintSchedule.fire, if_pos hdue, RunningText.drain]
  dsimp only
  by_cases hpending : g.text.pending = ""
  · have htext : ({ g.text with pending := "" } : RunningText) = g.text := by
      rw [← hpending]
    rw [if_pos (String.isEmpty_iff.mpr hpending), if_pos hpending, htext]
    rfl
  · rw [if_neg (mt String.isEmpty_iff.mp hpending), if_neg hpending]
    rfl

theorem call_fire_of_stale {g : Page} {id : Nat}
    (hother : ∀ t, g.schedule.waiting = some t → id ≠ t.id) (now : Instant) :
    g.call ⟨now, .fire id⟩ = (g, {}) := by
  have hdue : ¬ g.schedule.waiting.any (·.id = id) = true := by
    rw [Option.any_eq_true]
    rintro ⟨t, ht, hid⟩
    exact hother t ht (of_decide_eq_true hid).symm
  rw [call]
  dsimp only
  rw [PaintSchedule.fire, if_neg hdue]

theorem call_finish (g : Page) (now : Instant) (state : SessionState) :
    g.call ⟨now, .finish state⟩ =
      if g.schedule.closed then (g, {})
      else (g.closed, { update := some (.final g.text.pending g.text.committed state) }) := by
  rw [call]
  dsimp only
  rw [PaintSchedule.finish]
  split_ifs <;> rfl

theorem answers_call (g : Page) (c : PageCall) : g.Answers c (g.call c).1 (g.call c).2 := by
  obtain ⟨now, act⟩ := c
  cases act with
  | apply delta => exact .apply now delta
  | note =>
    cases hclosed : g.schedule.closed with
    | true =>
      have hcall : g.call ⟨now, .note⟩ = (g, {}) := by
        rw [call]
        dsimp only
        rw [PaintSchedule.noteFragment, if_pos hclosed]
      rw [hcall]
      exact .late _ hclosed (.inl rfl)
    | false =>
      rw [call_note_of_open hclosed]
      cases hwaiting : g.schedule.waiting with
      | none => exact .schedule now hclosed hwaiting
      | some t => exact .coalesce now t hclosed hwaiting
  | fire id =>
    by_cases hdue : ∃ t, g.schedule.waiting = some t ∧ t.id = id
    · obtain ⟨t, hwaiting, rfl⟩ := hdue
      rw [call_fire_of_waiting hwaiting]
      split_ifs with hpending
      · exact .idle now t hwaiting hpending
      · exact .paint now t hwaiting hpending
    · have hother : ∀ t, g.schedule.waiting = some t → id ≠ t.id :=
        fun t ht hid ↦ hdue ⟨t, ht, hid.symm⟩
      rw [call_fire_of_stale hother]
      exact .stale now id hother
  | finish state =>
    rw [call_finish]
    split_ifs with hclosed
    · exact .late _ hclosed (.inr ⟨state, rfl⟩)
    · exact .finish now state (Bool.eq_false_of_not_eq_true hclosed)

theorem run_concat (g : Page) (calls : List PageCall) (c : PageCall) :
    g.run (calls ++ [c]) =
      (((g.run calls).1.call c).1, (g.run calls).2 ++ [⟨c, ((g.run calls).1.call c).2⟩]) := by
  rw [run, List.foldl_append, List.foldl_cons, List.foldl_nil]
  rfl

/-- What holds of a fresh page and is kept by every answer holds of every run. -/
theorem run_induction {P : Page → List PageEntry → Prop} {g : Page} (hstart : P g [])
    (hanswer : ∀ {g g' log c reply}, P g log → Answers g c g' reply → P g' (log ++ [⟨c, reply⟩]))
    (calls : List PageCall) : P (g.run calls).1 (g.run calls).2 := by
  induction calls using List.reverseRecOn with
  | nil => exact hstart
  | append_singleton calls c ih =>
    rw [run_concat]
    exact hanswer ih (answers_call _ c)

end Page

/-! ## What the log says -/

namespace PageLog

/-- The ticks that were given out. -/
def ticks (log : List PageEntry) : List Tick := log.filterMap (·.reply.tick)

/-- The updates that were given out. -/
def updates (log : List PageEntry) : List Update := log.filterMap (·.reply.update)

/-- The texts that were applied. -/
def deltas (log : List PageEntry) : List String := log.filterMap (·.call.act.delta)

/-- Whether the end was asked for. -/
def finished (log : List PageEntry) : Bool := log.any (·.call.act.isFinish)

/-- How many fragments were noted before the end was first asked for. -/
def notes (log : List PageEntry) : Nat :=
  (log.takeWhile (!·.call.act.isFinish)).countP (·.call.act.isNote)

/-- A tick was given out, and nothing since then has settled it. -/
def Outstanding (log : List PageEntry) (t : Tick) : Prop :=
  ∃ before e after, log = before ++ e :: after ∧ e.reply.tick = some t ∧
    ∀ e' ∈ after, e'.call.act.settles t = false

variable (log : List PageEntry) (e : PageEntry)

theorem filterMap_concat {α : Type} (f : PageEntry → Option α) :
    (log ++ [e]).filterMap f = log.filterMap f ++ (f e).toList := by
  rw [List.filterMap_append]
  cases hf : f e <;> simp [hf]

theorem ticks_concat : ticks (log ++ [e]) = ticks log ++ e.reply.tick.toList :=
  filterMap_concat log e _

theorem updates_concat : updates (log ++ [e]) = updates log ++ e.reply.update.toList :=
  filterMap_concat log e _

theorem deltas_concat : deltas (log ++ [e]) = deltas log ++ e.call.act.delta.toList :=
  filterMap_concat log e _

theorem finished_concat : finished (log ++ [e]) = (finished log || e.call.act.isFinish) := by
  rw [finished, List.any_append, List.any_cons, List.any_nil, Bool.or_false]
  rfl

/-- Nothing is counted past the end. -/
theorem notes_concat :
    notes (log ++ [e]) =
      notes log + if finished log = false ∧ e.call.act.isNote = true then 1 else 0 := by
  induction log with
  | nil =>
    cases hact : e.call.act <;> simp [notes, finished, hact, PageAct.isFinish, PageAct.isNote]
  | cons first log ih =>
    rw [notes, notes, List.cons_append, List.takeWhile_cons, List.takeWhile_cons, finished,
      List.any_cons]
    cases hfirst : first.call.act.isFinish with
    | true => rfl
    | false =>
      rw [Bool.false_or, ← finished, Bool.not_false, if_pos rfl, if_pos rfl, List.countP_cons,
        List.countP_cons, Nat.add_right_comm]
      exact congrArg (· + _) ih

theorem outstanding_concat (t : Tick) :
    Outstanding (log ++ [e]) t ↔
      e.reply.tick = some t ∨ Outstanding log t ∧ e.call.act.settles t = false := by
  constructor
  · rintro ⟨before, e', after, hlog, htick, hafter⟩
    rcases List.eq_nil_or_concat after with rfl | ⟨after, last, rfl⟩
    · obtain ⟨-, rfl⟩ := List.append_singleton_inj.mp hlog
      exact .inl htick
    · rw [List.concat_eq_append, ← List.cons_append, ← List.append_assoc,
        List.append_singleton_inj] at hlog
      obtain ⟨rfl, rfl⟩ := hlog
      rw [List.concat_eq_append, List.forall_mem_append, List.forall_mem_singleton] at hafter
      exact .inr ⟨⟨before, e', after, rfl, htick, hafter.1⟩, hafter.2⟩
  · rintro (htick | ⟨⟨before, e', after, rfl, htick, hafter⟩, hlast⟩)
    · exact ⟨log, e, [], rfl, htick, List.forall_mem_nil _⟩
    · refine ⟨before, e', after ++ [e], ?_, htick, ?_⟩
      · rw [List.append_assoc, List.cons_append]
      · rw [List.forall_mem_append, List.forall_mem_singleton]
        exact ⟨hafter, hlast⟩

theorem notes_le : notes log ≤ log.length :=
  List.countP_le_length.trans (List.takeWhile_sublist _).length_le

end PageLog

namespace Page

open PageLog

variable {g g' : Page} {log : List PageEntry} {c : PageCall} {reply : PageReply}

/-! ## The outstanding tick -/

/-- The page knows which tick is outstanding, and whether the end was asked for. -/
structure Tracks (g : Page) (log : List PageEntry) : Prop where
  waiting : ∀ t, Outstanding log t ↔ g.schedule.waiting = some t
  closed : g.schedule.closed = finished log
  quiet : g.schedule.closed = true → g.schedule.waiting = none

theorem Tracks.answer (hg : g.Tracks log) (ha : g.Answers c g' reply) :
    g'.Tracks (log ++ [⟨c, reply⟩]) := by
  constructor
  · intro t
    rw [outstanding_concat, hg.waiting]
    cases ha with
    | apply => simp [PageAct.settles]
    | schedule now hopen hfree => simp [PageAct.settles, scheduled, hfree]
    | coalesce => simp [PageAct.settles, coalesced]
    | idle now t₀ hwaiting | paint now t₀ hwaiting =>
      -- The tick that fires was the outstanding one.
      constructor
      · rintro (hnone | ⟨ht, hid⟩)
        · cases hnone
        · rw [Option.some.inj (hwaiting.symm.trans ht)] at hid
          simp [PageAct.settles] at hid
      · intro hnone
        cases hnone
    | finish => simp [PageAct.settles, Page.closed]
    | stale now id hother =>
      have hsettles (ht : g.schedule.waiting = some t) : (PageAct.fire id).settles t = false :=
        beq_false_of_ne (hother t ht)
      simpa using hsettles
    | late c hclosed => simp [hg.quiet hclosed]
  · rw [finished_concat, ← hg.closed]
    cases ha with
    | late c hclosed => simp [hclosed]
    | _ => simp [PageAct.isFinish, scheduled, coalesced, idled, painted, Page.closed]
  · cases ha with
    | schedule now hopen =>
      intro hclosed
      cases hopen.symm.trans hclosed
    | idle | paint | finish => exact fun _ ↦ rfl
    | _ => exact hg.quiet

/-! ## Numbers -/

/-- Ids are counted up from one. -/
def Numbered (g : Page) (log : List PageEntry) : Prop :=
  (ticks log).map (·.id) = List.range' 1 g.schedule.lastId

theorem Numbered.answer (hg : g.Numbered log) (ha : g.Answers c g' reply) :
    g'.Numbered (log ++ [⟨c, reply⟩]) := by
  rw [Numbered, ticks_concat, List.map_append, hg]
  cases ha with
  | schedule now =>
    refine Eq.trans ?_ List.range'_1_concat.symm
    rw [Nat.add_comm 1]
    rfl
  | _ => exact List.append_nil _

theorem Numbered.lastId_eq (hg : g.Numbered log) : g.schedule.lastId = (ticks log).length := by
  rw [← List.length_map (·.id), hg, List.length_range']

/-- What is counted is what was given out. -/
structure Counted (g : Page) (log : List PageEntry) : Prop where
  ticks : g.schedule.stats.ticks = (ticks log).length
  frames : g.schedule.stats.frames = (updates log).countP (!·.isFinal)
  frames_le : g.schedule.stats.frames + g.waits.toNat ≤ g.schedule.stats.ticks
  notes : g.schedule.stats.ticks + g.schedule.stats.coalesced = notes log
  fragments_le : g.text.fragments ≤ log.length

theorem Counted.answer (hg : g.Counted log) (htracks : g.Tracks log)
    (ha : g.Answers c g' reply) : g'.Counted (log ++ [⟨c, reply⟩]) := by
  have hframes := hg.frames_le
  constructor
  · rw [ticks_concat, List.length_append, ← hg.ticks]
    cases ha <;> rfl
  · rw [updates_concat, List.countP_append, ← hg.frames]
    cases ha <;> rfl
  · rw [waits] at hframes ⊢
    cases ha with
    | schedule now hopen hfree =>
      rw [hfree] at hframes
      exact Nat.succ_le_succ hframes
    | paint now t hwaiting =>
      -- The tick that fires was counted already.
      rw [hwaiting] at hframes
      exact hframes
    | idle | finish => exact (Nat.le_add_right _ _).trans hframes
    | _ => exact hframes
  · rw [notes_concat, ← htracks.closed, ← hg.notes]
    cases ha with
    | schedule now hopen =>
      rw [hopen]
      exact Nat.add_right_comm _ _ _
    | coalesce now t hopen =>
      rw [hopen]
      rfl
    | late c hclosed =>
      rw [hclosed]
      rfl
    | _ =>
      rw [if_neg fun h ↦ Bool.false_ne_true h.2]
      rfl
  · rw [List.length_append]
    cases ha with
    | apply now delta =>
      rw [RunningText.apply]
      split_ifs
      · exact hg.fragments_le.trans (Nat.le_add_right _ _)
      · exact Nat.succ_le_succ hg.fragments_le
    | _ => exact hg.fragments_le.trans (Nat.le_add_right _ _)

/-! ## Text -/

/-- No text is lost. -/
structure Carries (g : Page) (log : List PageEntry) : Prop where
  committed : g.text.committed = .join (deltas log)
  painted : .join ((updates log).map Update.delta) ++ g.text.pending = g.text.committed

theorem Carries.answer (hg : g.Carries log) (ha : g.Answers c g' reply) :
    g'.Carries (log ++ [⟨c, reply⟩]) := by
  have hjoin (s : String) : String.join [s] = s := by simp
  constructor
  · rw [deltas_concat, String.join_append, ← hg.committed]
    cases ha with
    | apply now delta =>
      rw [(g.text.apply_eq delta).1]
      exact congrArg (g.text.committed ++ ·) (hjoin delta).symm
    | late c hclosed hc =>
      obtain ⟨now, act⟩ := c
      rcases hc with rfl | ⟨state, rfl⟩
      all_goals exact String.append_empty.symm
    | _ => exact String.append_empty.symm
  · rw [updates_concat, List.map_append, String.join_append]
    have hpainted : String.join ((updates log).map Update.delta) ++ "" ++ g.text.pending =
        g.text.committed := by
      rw [String.append_empty, hg.painted]
    cases ha with
    | apply now delta =>
      rw [(g.text.apply_eq delta).1, (g.text.apply_eq delta).2, ← hpainted]
      exact String.append_assoc.symm
    | paint | finish =>
      refine String.append_empty.trans (Eq.trans ?_ hg.painted)
      exact congrArg (_ ++ ·) (hjoin g.text.pending)
    | _ => exact hpainted

/-! ## All calls -/

/-- What is promised of a page and its log. -/
structure Orderly (g : Page) (log : List PageEntry) : Prop where
  /-- The tick that waits is the one that is outstanding. -/
  waiting : ∀ t, Outstanding log t ↔ g.schedule.waiting = some t
  /-- At most one tick is outstanding. -/
  unique : ∀ t t', Outstanding log t → Outstanding log t' → t = t'
  increasing : (ticks log).Pairwise (·.id < ·.id)
  /-- A note schedules a tick if none is outstanding and the end is still to come, and else none. -/
  note : ∀ now, let (g', reply) := g.call ⟨now, .note⟩
    (reply.tick.isSome = true ↔ (∀ t, ¬ Outstanding log t) ∧ finished log = false) ∧
      reply.update = none ∧ g'.text = g.text
  /-- An outstanding tick that fires takes the pending text. -/
  fire : ∀ t, Outstanding log t → ∀ now, let (g', reply) := g.call ⟨now, .fire t.id⟩
    reply = { update := if g.text.pending = "" then none else some (.frame g.text.pending) } ∧
      g'.text = { g.text with pending := "" }
  /-- No other id does anything. -/
  stale : ∀ id, (∀ t, Outstanding log t → id ≠ t.id) → ∀ now, g.call ⟨now, .fire id⟩ = (g, {})
  /-- The end takes the pending text, and tells all of the text. -/
  finish : finished log = false → ∀ now state, let (g', reply) := g.call ⟨now, .finish state⟩
    reply = { update := some (.final g.text.pending g.text.committed state) } ∧
      g'.text = { g.text with pending := "" }
  /-- After the end nothing is given out, and nothing changes but by text that is applied. -/
  late : finished log = true → ∀ c,
    (g.call c).2 = {} ∧ (c.act.delta = none → (g.call c).1 = g)
  /-- Before the end, every fragment that was noted scheduled a tick or found one waiting. -/
  noted : g.schedule.stats.ticks + g.schedule.stats.coalesced = notes log
  ticks : g.schedule.stats.ticks = (ticks log).length
  frames : g.schedule.stats.frames = (updates log).countP (!·.isFinal)
  frames_le : g.schedule.stats.frames ≤ g.schedule.stats.ticks
  committed : g.text.committed = .join (deltas log)
  /-- What was given out and what is pending make up all of the text. -/
  painted : .join ((updates log).map Update.delta) ++ g.text.pending = g.text.committed
  /-- Nothing is counted higher than there were calls. -/
  bounded : g.schedule.lastId ≤ log.length ∧ notes log ≤ log.length ∧
    g.text.fragments ≤ log.length

theorem Tracks.note (hg : g.Tracks log) (now : Instant) :
    let (g', reply) := g.call ⟨now, .note⟩
    (reply.tick.isSome = true ↔ (∀ t, ¬ Outstanding log t) ∧ finished log = false) ∧
      reply.update = none ∧ g'.text = g.text := by
  have hanswers := answers_call g ⟨now, .note⟩
  generalize g.call ⟨now, .note⟩ = r at hanswers
  obtain ⟨g', reply⟩ := r
  simp only [hg.waiting, ← hg.closed]
  cases hanswers with
  | schedule _ hopen hfree =>
    refine ⟨iff_of_true rfl ⟨?_, hopen⟩, rfl, rfl⟩
    rw [hfree]
    exact nofun
  | coalesce _ t _ hwaiting =>
    exact ⟨iff_of_false nofun fun h ↦ h.1 t hwaiting, rfl, rfl⟩
  | late _ hclosed =>
    refine ⟨iff_of_false nofun fun h ↦ ?_, rfl, rfl⟩
    exact absurd (hclosed.symm.trans h.2) nofun

theorem Tracks.fire (hg : g.Tracks log) {t : Tick} (ht : Outstanding log t) (now : Instant) :
    let (g', reply) := g.call ⟨now, .fire t.id⟩
    reply = { update := if g.text.pending = "" then none else some (.frame g.text.pending) } ∧
      g'.text = { g.text with pending := "" } := by
  rw [call_fire_of_waiting ((hg.waiting t).mp ht)]
  by_cases hpending : g.text.pending = ""
  · rw [if_pos hpending, if_pos hpending, ← hpending]
    exact ⟨rfl, rfl⟩
  · rw [if_neg hpending, if_neg hpending]
    exact ⟨rfl, rfl⟩

theorem Tracks.late (hg : g.Tracks log) (hfinished : finished log = true) (c : PageCall) :
    (g.call c).2 = {} ∧ (c.act.delta = none → (g.call c).1 = g) := by
  have hclosed := hg.closed.trans hfinished
  have hquiet := hg.quiet hclosed
  have hanswers := answers_call g c
  generalize g.call c = r at hanswers
  obtain ⟨g', reply⟩ := r
  cases hanswers with
  | apply => exact ⟨rfl, nofun⟩
  | stale | late => exact ⟨rfl, fun _ ↦ rfl⟩
  | schedule _ hopen | coalesce _ _ hopen | finish _ _ hopen =>
    exact absurd (hclosed.symm.trans hopen) nofun
  | idle _ t hwaiting | paint _ t hwaiting => exact absurd (hquiet.symm.trans hwaiting) nofun

/-- What is kept by every answer. -/
structure Sound (g : Page) (log : List PageEntry) : Prop where
  tracks : g.Tracks log
  numbered : g.Numbered log
  counted : g.Counted log
  carries : g.Carries log

theorem sound_fresh (clock : PaintClock) : (fresh clock).Sound [] where
  tracks :=
    { waiting := fun t ↦ iff_of_false (fun ⟨_, _, _, hlog, _⟩ ↦ by simp at hlog) nofun
      closed := rfl
      quiet := nofun }
  numbered := rfl
  counted := ⟨rfl, rfl, Nat.le_refl 0, rfl, Nat.le_refl 0⟩
  carries := ⟨rfl, rfl⟩

theorem Sound.answer (hg : g.Sound log) (ha : g.Answers c g' reply) :
    g'.Sound (log ++ [⟨c, reply⟩]) where
  tracks := hg.tracks.answer ha
  numbered := hg.numbered.answer ha
  counted := hg.counted.answer hg.tracks ha
  carries := hg.carries.answer ha

theorem sound_run (clock : PaintClock) (calls : List PageCall) :
    ((fresh clock).run calls).1.Sound ((fresh clock).run calls).2 :=
  run_induction (sound_fresh clock) Sound.answer calls

theorem Sound.orderly (hg : g.Sound log) : g.Orderly log where
  waiting := hg.tracks.waiting
  unique t t' ht ht' := by
    rw [hg.tracks.waiting] at ht ht'
    exact Option.some.inj (ht.symm.trans ht')
  increasing := by
    rw [← List.pairwise_map, hg.numbered]
    exact List.pairwise_lt_range'
  note := hg.tracks.note
  fire _ ht := hg.tracks.fire ht
  stale _ hother :=
    call_fire_of_stale fun t ht ↦ hother t ((hg.tracks.waiting t).mpr ht)
  finish hunfinished now state := by
    rw [call_finish, hg.tracks.closed, hunfinished]
    exact ⟨rfl, rfl⟩
  late := hg.tracks.late
  noted := hg.counted.notes
  ticks := hg.counted.ticks
  frames := hg.counted.frames
  frames_le := (Nat.le_add_right _ _).trans hg.counted.frames_le
  committed := hg.carries.committed
  painted := hg.carries.painted
  bounded := by
    refine ⟨?_, notes_le log, hg.counted.fragments_le⟩
    rw [hg.numbered.lastId_eq]
    exact List.length_filterMap_le _ _

/-- The log is of the calls that were made. -/
theorem map_call_run (g : Page) (calls : List PageCall) : (g.run calls).2.map (·.call) = calls := by
  induction calls using List.reverseRecOn with
  | nil => rfl
  | append_singleton calls c ih => rw [run_concat, List.map_append, ih, List.map_singleton]

/-- **Whatever is asked of a page in whatever order,** one tick is outstanding at most, ids never
repeat, no tick but the outstanding one does anything, the end is told once, nothing is given out
after it, and no text is lost or painted twice. -/
theorem orderly_run (clock : PaintClock) (calls : List PageCall) :
    let (g, log) := (fresh clock).run calls
    log.map (·.call) = calls ∧ g.Orderly log := by
  exact ⟨map_call_run (fresh clock) calls, (sound_run clock calls).orderly⟩

end Page

end ChatStream
