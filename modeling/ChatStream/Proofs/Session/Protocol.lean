import ChatStream.Proofs.Session.Operations

/-!
# Every run has a chronicle

A chronicle grows only at its end: its current block gets a passage, is closed or gets a check, or
a new block is begun behind it. Each of these writes new deeds behind the old ones, and each move
of a controller is at most one of these, so that every controller that can be reached has a
chronicle of all that it told its view.

`Chronicle.Tells` is the invariant that is carried along. Besides the trace it ties the current
block to the current session: its number, its end, and the pending text, which is what the session
has committed and the block does not show yet.
-/

namespace ChatStream

/-! ## Growing a block -/

namespace Block

/-- The block with one more passage. -/
def add (b : Block) (p : Passage) : Block := { b with passages := b.passages ++ [p] }

/-- The block with its end. -/
def close (b : Block) (k : Closing) : Block := { b with closing := some k }

/-- The block with a check of the budget, before or after its end. -/
def addCheck (b : Block) (k : Check) : Block :=
  match b.closing with
  | none => b.add (.check k)
  | some e => b.close { e with later := e.later ++ [k] }

variable {b : Block}

theorem closing_eq_none_iff : b.closing = none ↔ b.ending? = none := by
  rw [ending?, Option.map_eq_none_iff]

theorem painted_of_open (hb : b.closing = none) : b.painted = b.framed := by
  rw [painted, hb]
  exact String.append_empty

theorem framed_add (b : Block) (p : Passage) : (b.add p).framed = b.framed ++ p.delta := by
  simp only [framed, add, List.map_append, List.map_singleton, String.join_append, String.join_cons,
    String.join_nil, String.append_empty]

theorem deeds_add (hb : b.closing = none) (p : Passage) :
    (b.add p).deeds = b.deeds ++ p.deeds b.session := by
  simp [deeds, add, hb]

theorem deeds_close (hb : b.closing = none) (k : Closing) :
    (b.close k).deeds = b.deeds ++ k.deeds b.session (b.framed ++ k.delta) := by
  simp [deeds, close, hb, painted, framed]

theorem session_addCheck (b : Block) (k : Check) : (b.addCheck k).session = b.session := by
  rw [addCheck]
  split <;> rfl

theorem ending?_addCheck (b : Block) (k : Check) : (b.addCheck k).ending? = b.ending? := by
  rw [addCheck]
  split
  · rfl
  · rename_i e he
    rw [ending?, ending?, he]
    rfl

theorem painted_addCheck (b : Block) (k : Check) : (b.addCheck k).painted = b.painted := by
  rw [addCheck]
  split
  · rename_i hb
    rw [painted_of_open hb, painted_of_open (b := b.add _) hb, framed_add]
    exact String.append_empty
  · rename_i e he
    rw [painted, painted, he]
    rfl

theorem deeds_addCheck (b : Block) (k : Check) : (b.addCheck k).deeds = b.deeds ++ k.deeds := by
  rw [addCheck]
  split
  · exact deeds_add ‹_› _
  · rename_i e he
    simp [deeds, close, he, painted, framed, Closing.deeds, Closing.offers]

theorem asides_addCheck (b : Block) (k : Check) : (b.addCheck k).asides = b.asides + 1 := by
  rw [addCheck]
  split
  · rename_i hb
    simp [asides, add, hb]
  · rename_i e he
    simp [asides, close, he, Nat.add_assoc]

theorem asides_frame (b : Block) {d : String} (hd : d ≠ "") :
    (b.add (.frame d hd)).asides = b.asides := by
  simp [asides, add]

theorem asides_close (hb : b.closing = none) {k : Closing} (hk : k.later = []) :
    (b.close k).asides = b.asides := by
  simp [asides, close, hb, hk]

end Block

/-! ## Growing a chronicle -/

namespace Chronicle

variable {h : Chronicle} {b : Block}

/-- The chronicle with a new current block. -/
def begin (h : Chronicle) (session : Nat) (model : String) : Chronicle :=
  { h with older := h.blocks, current := some { session, model } }

theorem blocks_of_current (hb : h.current = some b) : h.blocks = h.older ++ [b] := by
  rw [blocks, hb]
  rfl

theorem mem_blocks_of_current (hb : h.current = some b) : b ∈ h.blocks := by
  rw [blocks_of_current hb]
  exact List.mem_append_right _ List.mem_cons_self

theorem deeds_withCurrent (hb : h.current = some b) {b' : Block} {ds : List Deed}
    (hds : b'.deeds = b.deeds ++ ds) :
    ({ h with current := some b' } : Chronicle).deeds = h.deeds ++ ds := by
  simp [deeds, blocks, hb, hds]

theorem asides_withCurrent (hb : h.current = some b) {b' : Block} {n : Nat}
    (hn : b'.asides = b.asides + n) :
    ({ h with current := some b' } : Chronicle).asides = h.asides + n := by
  simp only [asides, blocks, hb, hn, Option.toList_some, List.map_append, List.map_singleton,
    List.sum_append, List.sum_singleton, Nat.add_assoc]

theorem sessions_begin (h : Chronicle) (session : Nat) (model : String) :
    (h.begin session model).blocks.map Block.session = h.blocks.map Block.session ++ [session] :=
  List.map_append

theorem deeds_begin (h : Chronicle) (session : Nat) (model : String) :
    (h.begin session model).deeds =
      h.deeds ++ [.shown (.sessionStarted session model),
        .shown (.stateChanged session .streaming)] := by
  simp [deeds, begin, blocks, Block.deeds]

theorem sessions_withCurrent (hb : h.current = some b) {b' : Block}
    (hsession : b'.session = b.session) :
    ({ h with current := some b' } : Chronicle).blocks.map Block.session =
      h.blocks.map Block.session := by
  simp [blocks, hb, hsession]

theorem asides_begin (h : Chronicle) (session : Nat) (model : String) :
    (h.begin session model).asides = h.asides := by
  simp [asides, begin, blocks, Block.asides]

end Chronicle

/-! ## What a chronicle tells -/

/-- The block tells of the session as it stands. -/
structure Block.Tells (b : Block) (s : Session) : Prop where
  session : b.session = s.id
  ending : b.ending? = s.ending?
  painted : b.painted ++ s.text.pending = s.text.committed
  drained : s.isLive = false → s.text.pending = ""
  closed : s.schedule.closed = !s.isLive

/-- The chronicle tells all that the controller has told its view. -/
structure Chronicle.Tells {σ : Type} (h : Chronicle) (c : Controller σ) : Prop where
  watched : c.watched = true
  trace : c.trace = h.deeds
  sessions : h.blocks.map Block.session = List.range c.sessionsBegun
  older : ∀ b ∈ h.older, b.closing.isSome
  current : Option.Rel Block.Tells h.current c.session
  first : h.current = none → h.older = []

namespace Block.Tells

variable {b : Block} {s : Session}

theorem closing_eq_none (hb : b.Tells s) (hl : s.isLive = true) : b.closing = none := by
  rw [closing_eq_none_iff, hb.ending]
  rwa [Session.isLive_eq, Option.isNone_iff_eq_none] at hl

theorem isSome_closing (hb : b.Tells s) (hl : s.isLive = false) : b.closing.isSome := by
  rw [Option.isSome_iff_ne_none, Ne, closing_eq_none_iff, hb.ending]
  rwa [Session.isLive_eq, Option.isNone_eq_false_iff, Option.isSome_iff_ne_none] at hl

/-- The session changes in what no one is told. -/
theorem congr (hb : b.Tells s) {s' : Session} (hid : s'.id = s.id)
    (hending : s'.ending? = s.ending?) (htext : s'.text = s.text)
    (hclosed : s'.schedule.closed = s.schedule.closed) :
    b.Tells s' where
  session := hb.session.trans hid.symm
  ending := hb.ending.trans hending.symm
  painted := htext ▸ hb.painted
  drained := by
    rw [htext, Session.isLive_eq, hending, ← Session.isLive_eq]
    exact hb.drained
  closed := by
    rw [hclosed, Session.isLive_eq, hending, ← Session.isLive_eq]
    exact hb.closed

theorem addCheck (hb : b.Tells s) (k : Check) : (b.addCheck k).Tells s where
  session := (b.session_addCheck k).trans hb.session
  ending := (b.ending?_addCheck k).trans hb.ending
  painted := by rw [painted_addCheck, hb.painted]
  drained := hb.drained
  closed := hb.closed

end Block.Tells

/-! ## Moves -/

namespace Chronicle.Tells

open Controller

variable {σ : Type} {h : Chronicle} {c c' : Controller σ} {b : Block} {s : Session}

theorem exists_current (ht : h.Tells c) (hs : c.session = some s) :
    ∃ b, h.current = some b ∧ b.Tells s := by
  obtain ⟨-, -, -, -, hcurrent, -⟩ := ht
  rw [hs] at hcurrent
  generalize h.current = current at hcurrent
  cases hcurrent with
  | some hb => exact ⟨_, rfl, hb⟩

/-- While a session is streaming its schedule is open. -/
theorem closed_eq_false (ht : h.Tells c) (hs : c.session = some s) (hl : s.isLive = true) :
    s.schedule.closed = false := by
  obtain ⟨b, -, hb⟩ := ht.exists_current hs
  rw [hb.closed, hl]
  rfl

/-- What the end of a session adds to the outline is a closing. -/
theorem exists_closing (ht : h.Tells c) (hs : c.session = some s) (hl : s.isLive = true)
    (e : Ending) :
    ∃ k : Closing, k.ending = e ∧ k.delta = s.text.pending ∧ k.later = [] ∧
      k.offers.map Offer.record = c.recordsOf s e ∧ (∀ o ∈ k.offers, Answered c.archive o) ∧
      (c.finish e).outline = c.outline ++ k.deeds s.id s.text.committed :=
  outline_finish ht.watched hs hl (ht.closed_eq_false hs hl) e

/-- A move that no one is told of and that leaves the session alone. -/
theorem congr (ht : h.Tells c) (hwatched : c'.watched = c.watched) (htrace : c'.trace = c.trace)
    (hbegun : c'.sessionsBegun = c.sessionsBegun) (hsession : c'.session = c.session) :
    h.Tells c' where
  watched := hwatched.trans ht.watched
  trace := htrace.trans ht.trace
  sessions := hbegun ▸ ht.sessions
  older := ht.older
  current := hsession ▸ ht.current
  first := ht.first

/-- A move that makes the current block longer. -/
theorem onCurrent (ht : h.Tells c) (hb : h.current = some b) {b' : Block} (hb' : b'.Tells s)
    (hs : c'.session = some s) (hid : b'.session = b.session) {ds : List Deed}
    (hds : b'.deeds = b.deeds ++ ds) (hwatched : c'.watched = c.watched)
    (hbegun : c'.sessionsBegun = c.sessionsBegun) (htrace : c'.trace = c.trace ++ ds) :
    ({ h with current := some b' } : Chronicle).Tells c' where
  watched := hwatched.trans ht.watched
  trace := by rw [htrace, ht.trace, deeds_withCurrent hb hds]
  sessions := by rw [hbegun, ← ht.sessions, sessions_withCurrent hb hid]
  older := ht.older
  current := hs ▸ .some hb'
  first := nofun

/-- A move that changes the session in what no one is told. -/
theorem onSession (ht : h.Tells c) (hs : c.session = some s) {s' : Session}
    (hs' : c'.session = some s') (hb : ∀ {b : Block}, b.Tells s → b.Tells s')
    (hwatched : c'.watched = c.watched) (hbegun : c'.sessionsBegun = c.sessionsBegun)
    (htrace : c'.trace = c.trace) : h.Tells c' where
  watched := hwatched.trans ht.watched
  trace := htrace.trans ht.trace
  sessions := hbegun ▸ ht.sessions
  older := ht.older
  current := by
    obtain ⟨b, hcurrent, hb₀⟩ := ht.exists_current hs
    rw [hcurrent, hs']
    exact .some (hb hb₀)
  first := ht.first

end Chronicle.Tells

/-! ### Fragments and frames -/

theorem RunningText.apply_eq (a : RunningText) (text : String) :
    (a.apply text).committed = a.committed ++ text ∧
      (a.apply text).pending = a.pending ++ text := by
  rw [apply]
  split
  · rename_i hempty
    rw [String.isEmpty_iff.mp hempty, String.append_empty, String.append_empty]
    exact ⟨rfl, rfl⟩
  · exact ⟨rfl, rfl⟩

theorem PaintSchedule.closed_noteFragment (s : PaintSchedule) (now : Instant) :
    (s.noteFragment now).1.closed = s.closed := by
  rw [noteFragment]
  split_ifs <;> rfl

theorem Block.Tells.fragment {b : Block} {s : Session} (hb : b.Tells s) (hl : s.isLive = true)
    (now : Instant) (text : String) (scheduled : Bool) :
    b.Tells (s.fragment now text scheduled) := by
  obtain ⟨hcommitted, hpending⟩ := s.text.apply_eq text
  rw [Session.fragment_eq]
  refine ⟨hb.session, hb.ending, ?_, fun hl' ↦ absurd (hl.symm.trans hl') nofun, ?_⟩
  · rw [hcommitted, hpending, ← String.append_assoc, hb.painted]
  · refine Eq.trans ?_ hb.closed
    split
    · exact PaintSchedule.closed_noteFragment _ _
    · rfl

/-- A tick that fires paints the pending text, if there is any. -/
theorem PaintSchedule.fire_of_waiting {s : PaintSchedule} {t : Tick} (ht : s.waiting = some t)
    (a : RunningText) :
    (s.fire t.id a).1.closed = s.closed ∧
      (s.fire t.id a).2.1 = { a with pending := "" } ∧
      (s.fire t.id a).2.2 = if a.pending = "" then none else some (.frame a.pending) := by
  have hwaiting : s.waiting.any (·.id = t.id) = true := by rw [ht]; simp
  rw [fire, if_pos hwaiting]
  simp only [RunningText.drain, String.isEmpty_iff]
  split_ifs <;> exact ⟨rfl, rfl, rfl⟩

namespace Chronicle.Tells

open Controller

variable {σ : Type} {h : Chronicle} {c c' : Controller σ} {b : Block} {s : Session}

/-- A tick that fires makes a frame of the pending text, if there is any. -/
theorem paint (ht : h.Tells c) (hs : c.session = some s) (hl : s.isLive = true) {t : Tick}
    (hwaiting : s.schedule.waiting = some t) :
    ∃ h' : Chronicle, h'.Tells (c.paint s t.id) ∧ h'.asides = h.asides ∧ h'.older = h.older := by
  obtain ⟨b, hcurrent, hb⟩ := ht.exists_current hs
  obtain ⟨hclosed, htext, hupdate⟩ := PaintSchedule.fire_of_waiting hwaiting s.text
  replace htext : (s.fired t.id).text = { s.text with pending := "" } := htext
  have hopen := hb.closing_eq_none hl
  have hkeeps := keeps_tellUpdate { c with session := some (s.fired t.id) } s.id
    (s.schedule.fire t.id s.text).2.2
  by_cases hpending : s.text.pending = ""
  · -- Nothing to paint: the tick is used up, and the text stays as it was.
    rw [if_pos hpending] at hupdate
    have hsame : (s.fired t.id).text = s.text := by rw [htext, ← hpending]
    refine ⟨h, ht.onSession hs hkeeps.session (fun hb ↦ hb.congr rfl rfl hsame hclosed)
      hkeeps.watched hkeeps.sessionsBegun ?_, rfl, rfl⟩
    rw [Controller.paint, hupdate]
    rfl
  · rw [if_neg hpending] at hupdate
    have hpainted : (b.add (.frame s.text.pending hpending)).Tells (s.fired t.id) := by
      refine ⟨hb.session, hb.ending, ?_, fun _ ↦ by rw [htext], hclosed.trans hb.closed⟩
      rw [Block.painted_of_open (b := b.add _) hopen, Block.framed_add, htext]
      refine String.append_empty.trans (Eq.trans ?_ hb.painted)
      rw [Block.painted_of_open hopen]
      rfl
    refine ⟨_, ht.onCurrent hcurrent hpainted hkeeps.session rfl (Block.deeds_add hopen _)
      hkeeps.watched hkeeps.sessionsBegun ?_,
      asides_withCurrent (n := 0) hcurrent (b.asides_frame hpending), rfl⟩
    rw [Controller.paint, hupdate, hb.session]
    refine trace_tell ?_ _
    exact ht.watched

/-- The end of a session closes its block. -/
theorem finish (ht : h.Tells c) (hs : c.session = some s) (hl : s.isLive = true) (e : Ending) :
    ∃ h' : Chronicle, h'.Tells (c.finish e) ∧ h'.asides = h.asides ∧ h'.older = h.older := by
  obtain ⟨b, hcurrent, hb⟩ := ht.exists_current hs
  have hopen := hb.closing_eq_none hl
  have hscheduled := ht.closed_eq_false hs hl
  obtain ⟨k, hending, hdelta, hlater, -, -, houtline⟩ := ht.exists_closing hs hl e
  have htrace := trace_of_outline houtline (k.isTraced_of_mem s.id s.text.committed)
  have hkeeps := keeps_finish hs hl e
  have hframed : b.framed ++ k.delta = s.text.committed := by
    rw [hdelta, ← hb.painted, Block.painted_of_open hopen]
  have hdrained : (s.ended e).text = { s.text with pending := "" } := by
    simp [Session.ended, PaintSchedule.finish, hscheduled, RunningText.drain]
  have hclosed : (b.close k).Tells (s.ended e) := by
    refine ⟨hb.session, congrArg some hending, ?_, fun _ ↦ by rw [hdrained], ?_⟩
    · rw [hdrained]
      exact String.append_empty.trans hframed
    · simp [Session.ended, PaintSchedule.finish, hscheduled, Session.isLive]
  refine ⟨_, ht.onCurrent hcurrent hclosed hkeeps.session rfl
    (Block.deeds_close hopen k) hkeeps.watched hkeeps.sessionsBegun ?_,
    asides_withCurrent (n := 0) hcurrent (Block.asides_close hopen hlater), rfl⟩
  rw [htrace, hframed, hb.session]

/-- No session is streaming, so every block is closed. -/
theorem isSome_closing (ht : h.Tells c) (hc : c.isStreaming = false) :
    ∀ b ∈ h.blocks, b.closing.isSome := by
  intro b hb
  rw [blocks, List.mem_append, Option.mem_toList] at hb
  rcases hb with holder | hcurrent
  · exact ht.older b holder
  · have hrel := ht.current
    rw [hcurrent] at hrel
    cases hs : c.session with
    | none =>
      rw [hs] at hrel
      cases hrel
    | some s =>
      rw [hs] at hrel
      cases hrel with
      | some hb => exact hb.isSome_closing ((isStreaming_of_session hs).symm.trans hc)

/-- A new session begins a new block. -/
theorem launch (ht : h.Tells c) (hc : c.isStreaming = false) (p : Prompt) :
    (h.begin c.sessionsBegun (c.newSession p).model).Tells (c.launch p) := by
  have hkeeps := keeps_launch c p
  have hnew : ({ session := c.sessionsBegun, model := (c.newSession p).model } : Block).Tells
      (c.newSession p) :=
    ⟨rfl, rfl, rfl, fun _ ↦ rfl, rfl⟩
  refine ⟨hkeeps.watched.trans ht.watched, ?_, ?_, ht.isSome_closing hc, ?_, nofun⟩
  · rw [trace_launch ht.watched, ht.trace, deeds_begin]
  · rw [hkeeps.sessionsBegun, sessions_begin, ht.sessions]
    exact List.range_succ.symm
  · rw [hkeeps.session]
    exact .some hnew

/-- Every move makes the chronicle longer or leaves it. -/
theorem move (ht : h.Tells c) (hmove : Move c c') :
    ∃ h' : Chronicle, h'.Tells c' ∧ h'.asides = h.asides ∧ h.older ⊆ h'.older := by
  -- Most moves tell nobody anything, and the rest make the current block longer.
  have hquiet (hc' : h.Tells c') :
      ∃ h' : Chronicle, h'.Tells c' ∧ h'.asides = h.asides ∧ h.older ⊆ h'.older :=
    ⟨h, hc', rfl, List.Subset.refl _⟩
  have hgrown : (∃ h' : Chronicle, h'.Tells c' ∧ h'.asides = h.asides ∧ h'.older = h.older) →
      ∃ h' : Chronicle, h'.Tells c' ∧ h'.asides = h.asides ∧ h.older ⊆ h'.older :=
    fun ⟨h', hc', hasides, holder⟩ ↦ ⟨h', hc', hasides, holder ▸ List.Subset.refl _⟩
  cases hmove with
  | log l => exact hquiet (ht.congr rfl (trace_note c l) rfl rfl)
  | time now => exact hquiet (ht.congr rfl rfl rfl rfl)
  | store change => exact hquiet (ht.congr rfl rfl rfl rfl)
  | summary summarize => exact hquiet (ht.congr rfl rfl rfl rfl)
  | @token session _ =>
    rw [cancelToken_eq] at hquiet ⊢
    exact hquiet (ht.congr rfl rfl rfl rfl)
  | ask hs hp => 
    refine hquiet (ht.onSession hs rfl (fun hb ↦ hb.congr rfl ?_ rfl rfl) rfl rfl ?_)
    · rw [Session.ending?, Session.ending?, hp]
    · exact (trace_act _ _).trans (List.append_nil _)
  | opened n hs hp => 
    refine hquiet (ht.onSession hs rfl (fun hb ↦ hb.congr rfl ?_ rfl rfl) rfl rfl rfl)
    rw [Session.ending?, Session.ending?, hp]
  | chunk bytes hs =>
    exact hquiet (ht.onSession hs rfl (fun hb ↦ hb.congr rfl rfl rfl rfl) rfl rfl rfl)
  | streamEnd hs =>
    exact hquiet (ht.onSession hs rfl (fun hb ↦ hb.congr rfl rfl rfl rfl) rfl rfl rfl)
  | fragment text scheduled hs hl =>
    exact hquiet (ht.onSession hs rfl (fun hb ↦ hb.fragment hl _ _ _) rfl rfl rfl)
  | paint hs hp hwaiting => exact hgrown (ht.paint hs (isLive_of_reading hp) hwaiting)
  | finish e hs hl => exact hgrown (ht.finish hs hl e)
  | launch p hc =>
    exact ⟨_, ht.launch hc p, asides_begin _ _ _, List.subset_append_left _ _⟩

theorem moves (ht : h.Tells c) (hmoves : Moves c c') :
    ∃ h' : Chronicle, h'.Tells c' ∧ h'.asides = h.asides ∧ h.older ⊆ h'.older := by
  induction hmoves with
  | refl => exact ⟨h, ht, rfl, List.Subset.refl _⟩
  | tail _ hmove ih =>
    obtain ⟨h₁, ht₁, hasides₁, holder₁⟩ := ih
    obtain ⟨h₂, ht₂, hasides₂, holder₂⟩ := ht₁.move hmove
    exact ⟨h₂, ht₂, hasides₂.trans hasides₁, List.Subset.trans holder₁ holder₂⟩

/-! ## Runs -/

/-- A check on demand stands behind all that was told before. -/
theorem measure (ht : h.Tells c) :
    ∃ h' : Chronicle, h'.Tells c.measure.1 ∧ h'.asides = h.asides + 1 ∧ h.older ⊆ h'.older := by
  have hkeeps := keeps_measure c
  have htrace := trace_measure ht.watched
  cases hcurrent : h.current with
  | some b =>
    have hrel := ht.current
    rw [hcurrent] at hrel
    generalize hsession : c.session = session at hrel
    cases hrel with
    | some hb =>
      exact ⟨_, ht.onCurrent hcurrent (hb.addCheck c.checked) (hkeeps.session.trans hsession)
        (b.session_addCheck _) (b.deeds_addCheck _) hkeeps.watched hkeeps.sessionsBegun htrace,
        asides_withCurrent hcurrent (b.asides_addCheck _), List.Subset.refl _⟩
  | none =>
    -- Before the first session there is no block that could hold the check.
    have holder := ht.first hcurrent
    refine ⟨{ h with before := h.before ++ [c.checked] },
      ⟨hkeeps.watched.trans ht.watched, ?_, hkeeps.sessionsBegun ▸ ht.sessions, ht.older,
        hkeeps.session ▸ ht.current, ht.first⟩, ?_, List.Subset.refl _⟩
    · rw [htrace, ht.trace]
      simp [deeds, blocks, hcurrent, holder]
    · simp [asides, blocks, hcurrent, holder]

theorem apply (ht : h.Tells c) (op : Op σ) :
    ∃ h' : Chronicle, h'.Tells (c.apply op) ∧
      h'.asides = h.asides + (if op.isMeasure then 1 else 0) ∧ h.older ⊆ h'.older := by
  cases hop : op.isMeasure with
  | false => exact ht.moves (moves_apply c hop)
  | true =>
    obtain rfl := Op.eq_measure hop
    exact ht.measure

theorem run (ht : h.Tells c) (ops : List (Op σ)) :
    ∃ h' : Chronicle, h'.Tells (c.run ops) ∧
      h'.asides = h.asides + ops.countP Op.isMeasure ∧ h.older ⊆ h'.older := by
  induction ops generalizing h c with
  | nil => exact ⟨h, ht, rfl, List.Subset.refl _⟩
  | cons op ops ih =>
    obtain ⟨h₁, ht₁, hasides₁, holder₁⟩ := ht.apply op
    obtain ⟨h₂, ht₂, hasides₂, holder₂⟩ := ih ht₁
    refine ⟨h₂, ht₂, ?_, List.Subset.trans holder₁ holder₂⟩
    rw [hasides₂, hasides₁, List.countP_cons]
    omega

theorem new (archive : Archive σ) (store : σ) (config : Config) (transportName : String) :
    Chronicle.Tells {} (Controller.new archive store config transportName) where
  watched := rfl
  trace := rfl
  sessions := rfl
  older _ hb := absurd hb List.not_mem_nil
  current := .none
  first _ := rfl

end Chronicle.Tells

namespace Controller

variable {σ : Type}

theorem Reached.tells {c : Controller σ} (hc : c.Reached) : ∃ h : Chronicle, h.Tells c := by
  obtain ⟨archive, store, config, transportName, ops, rfl⟩ := hc
  obtain ⟨h, ht, -, -⟩ := (Chronicle.Tells.new archive store config transportName).run ops
  exact ⟨h, ht⟩

/-- **The protocol of the view.** Whatever is done with a controller, its events are those of a
chronicle: one block for each session, in the order of their numbers, each closed but for the
current one, which is closed once its session has ended and says how. There are as many checks of
the budget beside those at the ends of sessions as were asked for. -/
theorem run_events (archive : Archive σ) (store : σ) (config : Config) (transportName : String)
    (ops : List (Op σ)) :
    ∃ h : Chronicle,
      ((new archive store config transportName).run ops).events = h.events ∧
      ((new archive store config transportName).run ops).trace = h.deeds ∧
      h.blocks.map Block.session =
        List.range ((new archive store config transportName).run ops).sessionsBegun ∧
      (∀ b ∈ h.older, b.closing.isSome) ∧
      h.current.map (fun b ↦ (b.session, b.ending?)) =
        ((new archive store config transportName).run ops).session.map
          (fun s ↦ (s.id, s.ending?)) ∧
      h.asides = ops.countP Op.isMeasure := by
  obtain ⟨h, ht, hasides, -⟩ := (Chronicle.Tells.new archive store config transportName).run ops
  generalize (new archive store config transportName).run ops = c at ht ⊢
  refine ⟨h, ?_, ht.trace, ht.sessions, ht.older, ?_, hasides.trans (Nat.zero_add _)⟩
  · rw [events_eq_filterMap_trace, ht.trace, h.filterMap_deeds]
  · have hrel := ht.current
    generalize h.current = current, c.session = session at hrel
    cases hrel with
    | none => rfl
    | some hb => rw [Option.map_some, Option.map_some, hb.session, hb.ending]

end Controller

end ChatStream
