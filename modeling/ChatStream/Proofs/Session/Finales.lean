import ChatStream.Proofs.Session.Protocol

/-!
# How the sessions ended

A controller knows its current session and forgets the ones before it. How these ended can still be
read off what it did, because the final update of a session has all of its text and its last state.
Read in order, these are the `finales`: one for each session that has ended, by their numbers.

Whatever is said about sessions that are over is said about finales. They never change, since deeds
are only added, and no two are of one session.
-/

namespace ChatStream

/-- How a session ended, as the view was told. -/
structure Finale where
  session : Nat
  /-- All of its text. -/
  text : String
  state : SessionState
  deriving DecidableEq, Repr

/-- The end of a session that a deed tells. -/
def Deed.finale? : Deed → Option Finale
  | .shown (.render session (.final _ text state)) => some { session, text, state }
  | _ => none

/-- The end of the session of a block. -/
def Block.finale? (b : Block) : Option Finale :=
  b.closing.map fun k ↦ { session := b.session, text := b.painted, state := k.ending.state }

namespace Controller

variable {σ : Type}

/-- The ends of sessions that the view was told of, oldest first. -/
def finales (c : Controller σ) : List Finale := c.deeds.filterMap Deed.finale?

/-- The number of sessions that have ended. -/
def sessionsEnded (c : Controller σ) : Nat :=
  if c.isStreaming then c.sessionsBegun - 1 else c.sessionsBegun

theorem finales_of_outline {c c' : Controller σ} {ds : List Deed}
    (h : c'.outline = c.outline ++ ds) :
    c'.finales = c.finales ++ ds.filterMap Deed.finale? := by
  rw [finales, ← filterMap_outline (fun _ ↦ rfl), h, List.filterMap_append,
    filterMap_outline (fun _ ↦ rfl), finales]

end Controller

/-! ## The finale of a block -/

theorem Check.finale?_of_mem (k : Check) : ∀ d ∈ k.deeds, d.finale? = none := by
  simp [deeds, events, Deed.finale?]

theorem Offer.finale?_of_mem (o : Offer) : ∀ d ∈ o.deeds, d.finale? = none := by
  simp [deeds, events, Deed.finale?]

theorem Passage.finale?_of_mem (session : Nat) (p : Passage) :
    ∀ d ∈ p.deeds session, d.finale? = none := by
  cases p with
  | frame text hne => exact List.forall_mem_singleton.mpr rfl
  | check k => exact k.finale?_of_mem

/-- The end of a session is told in its final update and nowhere else. -/
theorem Closing.filterMap_finale? (session : Nat) (committed : String) (k : Closing) :
    (k.deeds session committed).filterMap Deed.finale? =
      [{ session, text := committed, state := k.ending.state }] := by
  have hrest : ∀ d ∈ k.offers.flatMap Offer.deeds ++
      .shown (.stateChanged session k.ending.state) :: k.ending.events.map .shown ++
      k.check.deeds ++ k.later.flatMap Check.deeds, d.finale? = none := by
    intro d hd
    simp only [List.mem_append, List.mem_cons, List.mem_flatMap, List.mem_map] at hd
    rcases hd with ((⟨o, -, hd⟩ | rfl | ⟨e, he, rfl⟩) | hd) | ⟨k', -, hd⟩
    · exact o.finale?_of_mem d hd
    · rfl
    · -- The one event of an ending is a notice.
      cases hending : k.ending with
      | errored f =>
        rw [hending, Ending.events, List.mem_singleton] at he
        rw [he]
        rfl
      | completed | cancelled =>
        rw [hending] at he
        cases he
    · exact k.check.finale?_of_mem d hd
    · exact k'.finale?_of_mem d hd
  have hfinal : (Deed.shown (.render session (.final k.delta committed k.ending.state))).finale? =
      some { session, text := committed, state := k.ending.state } := rfl
  simp only [deeds, List.cons_append]
  rw [List.filterMap_cons_some hfinal, List.filterMap_eq_nil_iff.mpr hrest]

theorem Block.filterMap_finale? (b : Block) :
    b.deeds.filterMap Deed.finale? = b.finale?.toList := by
  have hpassages : (b.passages.flatMap (Passage.deeds b.session)).filterMap Deed.finale? = [] := by
    rw [List.filterMap_eq_nil_iff]
    intro d hd
    obtain ⟨p, -, hd⟩ := List.mem_flatMap.mp hd
    exact p.finale?_of_mem b.session d hd
  have hopening (ds : List Deed) :
      (.shown (.sessionStarted b.session b.model) :: .shown (.stateChanged b.session .streaming) ::
        ds : List Deed).filterMap Deed.finale? = ds.filterMap Deed.finale? := rfl
  rw [deeds, List.cons_append, List.cons_append, hopening, List.filterMap_append, hpassages,
    List.nil_append, finale?]
  cases b.closing with
  | none => rfl
  | some k =>
    rw [Option.toList_some, List.flatMap_singleton, k.filterMap_finale?]
    rfl

/-- Closed blocks have a finale each. -/
theorem Block.sessions_filterMap_finale? {bs : List Block} (hbs : ∀ b ∈ bs, b.closing.isSome) :
    (bs.filterMap Block.finale?).map Finale.session = bs.map Block.session := by
  induction bs with
  | nil => rfl
  | cons b bs ih =>
    obtain ⟨hb, hbs⟩ := List.forall_mem_cons.mp hbs
    obtain ⟨k, hk⟩ := Option.isSome_iff_exists.mp hb
    have hfinale : b.finale? = some ⟨b.session, b.painted, k.ending.state⟩ := by
      rw [finale?, hk]
      rfl
    rw [List.filterMap_cons_some hfinale, List.map_cons, List.map_cons, ih hbs]

/-! ## The finales of a chronicle -/

namespace Chronicle.Tells

open Controller

variable {σ : Type} {h : Chronicle} {c c' : Controller σ} {s : Session}

theorem finales_eq (ht : h.Tells c) : c.finales = h.blocks.filterMap Block.finale? := by
  have htrace : c.trace.filterMap Deed.finale? = c.finales := by
    refine c.filterMap_trace fun d hd ↦ ?_
    cases d with
    | shown e => cases hd
    | _ => rfl
  have hbefore : (h.before.flatMap Check.deeds).filterMap Deed.finale? = [] := by
    rw [List.filterMap_eq_nil_iff]
    intro d hd
    obtain ⟨k, -, hd⟩ := List.mem_flatMap.mp hd
    exact k.finale?_of_mem d hd
  rw [← htrace, ht.trace, deeds, List.filterMap_append, hbefore, List.nil_append,
    List.filterMap_flatMap]
  simp only [Block.filterMap_finale?]
  exact (List.filterMap_eq_flatMap_toList _ _).symm

/-- The current session is the one that began last. -/
theorem older_sessions (ht : h.Tells c) (hs : c.session = some s) :
    s.id + 1 = c.sessionsBegun ∧ h.older.map Block.session = List.range s.id := by
  obtain ⟨b, hcurrent, hb⟩ := ht.exists_current hs
  have hsessions := ht.sessions
  rw [blocks_of_current hcurrent, List.map_append, List.map_singleton] at hsessions
  cases hbegun : c.sessionsBegun with
  | zero =>
    rw [hbegun] at hsessions
    exact absurd hsessions (List.concat_ne_nil _ _)
  | succ n =>
    rw [hbegun, List.range_succ] at hsessions
    obtain ⟨holder, hlast⟩ := List.append_inj' hsessions rfl
    have hn : s.id = n := hb.session.symm.trans (List.head_eq_of_cons_eq hlast)
    rw [hn]
    exact ⟨rfl, holder⟩

theorem sessionsBegun_eq_zero_iff (ht : h.Tells c) :
    c.sessionsBegun = 0 ↔ c.session = none := by
  constructor
  · intro hbegun
    cases hs : c.session with
    | none => rfl
    | some s =>
      have hid := (ht.older_sessions hs).1
      omega
  · intro hs
    have hcurrent : h.current = none := by
      have hrel := ht.current
      rw [hs] at hrel
      generalize h.current = current at hrel
      cases hrel
      rfl
    have hsessions := ht.sessions
    rw [blocks, hcurrent, ht.first hcurrent] at hsessions
    exact List.range_eq_nil.mp hsessions.symm

/-- **The sessions that have ended** are the first ones, in the order of their numbers. -/
theorem sessions_finales (ht : h.Tells c) :
    c.finales.map Finale.session = List.range c.sessionsEnded := by
  rw [ht.finales_eq, sessionsEnded]
  split_ifs with hstreaming
  · obtain ⟨s, hs, hl⟩ := isStreaming_iff.mp hstreaming
    obtain ⟨b, hcurrent, hb⟩ := ht.exists_current hs
    obtain ⟨hid, holder⟩ := ht.older_sessions hs
    have hopen : b.finale? = none := by
      rw [Block.finale?, hb.closing_eq_none hl]
      rfl
    have hbegun : c.sessionsBegun - 1 = s.id := by omega
    rw [blocks_of_current hcurrent, List.filterMap_append, List.filterMap_cons_none hopen,
      List.filterMap_nil, List.append_nil, Block.sessions_filterMap_finale? ht.older, holder,
      hbegun]
  · rw [Bool.not_eq_true] at hstreaming
    rw [Block.sessions_filterMap_finale? (ht.isSome_closing hstreaming), ht.sessions]

theorem length_finales (ht : h.Tells c) : c.finales.length = c.sessionsEnded := by
  have hlength := congrArg List.length ht.sessions_finales
  rwa [List.length_map, List.length_range] at hlength

/-- The finale of a session that is over is the last one, as long as no other begins. -/
theorem exists_finales_eq (ht : h.Tells c) (hs : c.session = some s) {e : Ending}
    (he : s.phase = .ended e) :
    ∃ fs, c.finales = fs ++ [{ session := s.id, text := s.text.committed, state := e.state }] := by
  obtain ⟨b, hcurrent, hb⟩ := ht.exists_current hs
  have hl := Session.isLive_of_ended he
  have htext : b.painted = s.text.committed := by
    rw [← hb.painted, hb.drained hl, String.append_empty]
  have hending := hb.ending
  rw [Session.ending?, he] at hending
  obtain ⟨k, hk, hke⟩ := Option.map_eq_some_iff.mp hending
  have hfinale : b.finale? =
      some { session := s.id, text := s.text.committed, state := e.state } := by
    rw [Block.finale?, hk, ← hb.session, ← htext, ← hke]
    rfl
  refine ⟨h.older.filterMap Block.finale?, ?_⟩
  rw [ht.finales_eq, blocks_of_current hcurrent, List.filterMap_append,
    List.filterMap_cons_some hfinale, List.filterMap_nil]

/-- A session ends once. -/
theorem finale_unique (ht : h.Tells c) {f f' : Finale} (hf : f ∈ c.finales) (hf' : f' ∈ c.finales)
    (hsession : f.session = f'.session) : f = f' := by
  have hnodup : (c.finales.map Finale.session).Nodup := ht.sessions_finales ▸ List.nodup_range
  exact List.inj_on_of_nodup_map hnodup hf hf' hsession

/-- A session that has a finale is over, as the finale says. -/
theorem exists_ending_of_finale (ht : h.Tells c) (hs : c.session = some s) {f : Finale}
    (hf : f ∈ c.finales) (hid : f.session = s.id) :
    ∃ e, s.phase = .ended e ∧ e.state = f.state ∧ s.text.committed = f.text := by
  have hmem : f.session ∈ List.range c.sessionsEnded :=
    ht.sessions_finales ▸ List.mem_map_of_mem hf
  cases hl : s.isLive with
  | true =>
    -- All finales are of sessions before the one that is streaming.
    have hbegun := (ht.older_sessions hs).1
    rw [sessionsEnded, isStreaming_of_session hs, hl, if_pos rfl, List.mem_range, hid] at hmem
    omega
  | false =>
    obtain ⟨e, he⟩ := Session.exists_ending hl
    obtain ⟨fs, hfs⟩ := ht.exists_finales_eq hs he
    have hlast : ({ session := s.id, text := s.text.committed, state := e.state } : Finale) ∈
        c.finales := hfs ▸ List.mem_append_right _ List.mem_cons_self
    have heq := ht.finale_unique hlast hf hid.symm
    exact ⟨e, he, congrArg Finale.state heq, congrArg Finale.text heq⟩

theorem finales_finish (ht : h.Tells c) (hs : c.session = some s) (hl : s.isLive = true)
    (e : Ending) :
    (c.finish e).finales =
      c.finales ++ [{ session := s.id, text := s.text.committed, state := e.state }] := by
  obtain ⟨k, rfl, -, -, -, -, houtline⟩ := ht.exists_closing hs hl e
  rw [finales_of_outline houtline, k.filterMap_finale?]

/-- The next message ends a session that is streaming, with the text that it has. -/
theorem finale_mem_of_prompt (ht : h.Tells c) (hs : c.session = some s) (hl : s.isLive = true)
    {op : Op σ} {p : Prompt} (hp : op.prompt? c.config = some p) :
    { session := s.id, text := s.text.committed, state := .cancelled } ∈ (c.apply op).finales := by
  have hsettled : { session := s.id, text := s.text.committed, state := .cancelled } ∈
      c.settle.finales := by
    rw [settle, if_pos (isStreaming_iff.mpr ⟨s, hs, hl⟩)]
    have hnoted (l : LogLine) : h.Tells (c.note l) := ht.congr rfl (trace_note c l) rfl rfl
    rw [(hnoted _).finales_finish hs hl]
    exact List.mem_append_right _ List.mem_cons_self
  have hlaunch : Later c.settle (c.settle.launch p) := Move.later (.launch p c.isStreaming_settle)
  have hlater := hlaunch.trans (course_of_prompt hp).moves.later
  exact (hlater.deeds.filterMap _).subset hsettled

/-- The end of a session hands out no request, and its events are those of a closing. -/
theorem exists_events_finish (ht : h.Tells c) (hs : c.session = some s) (hl : s.isLive = true)
    (e : Ending) :
    ∃ k : Closing, k.ending = e ∧ k.delta = s.text.pending ∧ k.later = [] ∧
      (c.finish e).events = c.events ++ k.events s.id s.text.committed ∧
      (c.finish e).requests = c.requests := by
  obtain ⟨k, hending, hdelta, hlater, -, -, houtline⟩ := ht.exists_closing hs hl e
  have htraced := k.isTraced_of_mem s.id s.text.committed
  refine ⟨k, hending, hdelta, hlater, ?_, requests_of_outline houtline htraced⟩
  rw [events_eq_filterMap_trace, trace_of_outline houtline htraced, List.filterMap_append,
    k.filterMap_deeds, events_eq_filterMap_trace]

theorem requests_finish (ht : h.Tells c) (e : Ending) : (c.finish e).requests = c.requests := by
  cases hs : c.session with
  | none => rw [finish_of_none hs]
  | some s =>
    cases hl : s.isLive with
    | false => rw [finish_of_not_live hs hl]
    | true =>
      obtain ⟨-, -, -, -, -, hrequests⟩ := ht.exists_events_finish hs hl e
      exact hrequests

theorem requests_noteFinish (ht : h.Tells c) (l : LogLine) (e : Ending) :
    ((c.note l).finish e).requests = c.requests := by
  have hnoted : h.Tells (c.note l) := ht.congr rfl (trace_note c l) rfl rfl
  rw [hnoted.requests_finish, requests_eq_filterMap_outline, outline_note,
    ← requests_eq_filterMap_outline]

end Chronicle.Tells

namespace Controller

variable {σ : Type} {c c' : Controller σ}

/-- A tick that fires is told in a frame at most. -/
theorem exists_outline_paint (hw : c.watched = true) {s : Session} {t : Tick}
    (hwaiting : s.schedule.waiting = some t) :
    ∃ ds, (c.paint s t.id).outline = c.outline ++ ds ∧
      ∀ d ∈ ds, ∃ text, d = .shown (.render s.id (.frame text)) := by
  obtain ⟨-, -, hupdate⟩ := PaintSchedule.fire_of_waiting hwaiting s.text
  rw [paint, hupdate]
  split_ifs
  · exact ⟨[], (List.append_nil _).symm, List.forall_mem_nil _⟩
  · have hwatched : ({ c with session := some (s.fired t.id) } : Controller σ).watched = true := hw
    exact ⟨_, outline_tell hwatched _, List.forall_mem_singleton.mpr ⟨_, rfl⟩⟩

/-- What was told is never taken back. -/
theorem finales_mono (h : c.deeds <+: c'.deeds) : c.finales <+: c'.finales := h.filterMap _

/-- Checks of the budget end no session and hand out no request. -/
theorem finales_of_checks {ks : List Check} (h : c'.outline = c.outline ++ ks.flatMap Check.deeds) :
    c'.finales = c.finales := by
  have hnone : (ks.flatMap Check.deeds).filterMap Deed.finale? = [] := by
    rw [List.filterMap_eq_nil_iff]
    intro d hd
    obtain ⟨k, -, hd⟩ := List.mem_flatMap.mp hd
    exact k.finale?_of_mem d hd
  rw [finales_of_outline h, hnone, List.append_nil]

theorem requests_of_checks {ks : List Check}
    (h : c'.outline = c.outline ++ ks.flatMap Check.deeds) : c'.requests = c.requests := by
  refine requests_of_outline h fun d hd ↦ ?_
  obtain ⟨k, -, hd⟩ := List.mem_flatMap.mp hd
  exact k.isTraced_of_mem d hd

end Controller

end ChatStream
