import ChatStream.Proofs.Session.Protocol

/-!
# What a session has painted

The updates of a session are those of its block, in order, and a block was built so that nothing in
it is lost or repeated. What is left to say is which updates these are, and that the committed text
of a session only grows: while it is the current one by fragments, and never once it has ended,
because its block is then among the older ones, where nothing changes any more.
-/

namespace ChatStream

/-! ## The updates of a session -/

/-- The update that an event gives of a session. -/
def ViewEvent.update? (session : Nat) : ViewEvent → Option Update
  | .render n u => if n = session then some u else none
  | _ => none

/-- The updates that the view was given of a session, oldest first. -/
def Controller.updates {σ : Type} (c : Controller σ) (session : Nat) : List Update :=
  c.events.filterMap (ViewEvent.update? session)

/-- The text that the view was given of a session. -/
def Controller.paintedText {σ : Type} (c : Controller σ) (session : Nat) : String :=
  .join ((c.updates session).map Update.delta)

/-- The frame of a passage. -/
def Passage.frame? : Passage → Option Update
  | .frame d _ => some (.frame d)
  | .check _ => none

/-- The final update of a block that is closed so. -/
def Closing.final (k : Closing) (committed : String) : Update :=
  .final k.delta committed k.ending.state

/-- The updates in a block. -/
def Block.updates (b : Block) : List Update :=
  b.passages.filterMap Passage.frame? ++ b.closing.toList.map (Closing.final · b.painted)

theorem Check.updates_eq_nil (session : Nat) (k : Check) :
    k.events.filterMap (ViewEvent.update? session) = [] := by
  rw [events]
  cases k.notice <;> rfl

theorem Offer.updates_eq_nil (session : Nat) (o : Offer) :
    o.events.filterMap (ViewEvent.update? session) = [] := by
  rw [events]
  cases o.refusal <;> rfl

theorem Ending.updates_eq_nil (session : Nat) (e : Ending) :
    e.events.filterMap (ViewEvent.update? session) = [] := by
  cases e <;> rfl

theorem Passage.filterMap_events (session : Nat) (p : Passage) (n : Nat) :
    (p.events n).filterMap (ViewEvent.update? session) =
      if n = session then p.frame?.toList else [] := by
  cases p with
  | frame d hd =>
    rw [events, List.filterMap_cons, List.filterMap_nil, ViewEvent.update?]
    split_ifs <;> rfl
  | check k => exact (k.updates_eq_nil session).trans (ite_self _).symm

theorem Closing.filterMap_events (session : Nat) (k : Closing) (n : Nat) (committed : String) :
    (k.events n committed).filterMap (ViewEvent.update? session) =
      if n = session then [k.final committed] else [] := by
  simp only [events, List.filterMap_append, List.filterMap_cons, ViewEvent.update?,
    filterMap_flatMap_eq_nil (Offer.updates_eq_nil session), Ending.updates_eq_nil,
    Check.updates_eq_nil, filterMap_flatMap_eq_nil (Check.updates_eq_nil session),
    List.append_nil, final]
  split_ifs <;> rfl

theorem Block.filterMap_events (session : Nat) (b : Block) :
    b.events.filterMap (ViewEvent.update? session) =
      if b.session = session then b.updates else [] := by
  simp only [events, updates, List.filterMap_append, List.filterMap_cons, ViewEvent.update?,
    List.filterMap_flatMap, Passage.filterMap_events, Closing.filterMap_events, List.cons_append]
  split_ifs
  · rw [← List.filterMap_eq_flatMap_toList, List.map_eq_flatMap]
  · simp

/-- The frames of a block have text, and end with the final update once the block is closed. -/
theorem Block.updates_eq (b : Block) :
    ∃ ds : List String, (∀ d ∈ ds, d ≠ "") ∧ .join ds = b.framed ∧
      b.updates = ds.map .frame ++ b.closing.toList.map (Closing.final · b.painted) := by
  obtain ⟨ds, hds, hjoin, hframes⟩ : ∃ ds : List String, (∀ d ∈ ds, d ≠ "") ∧
      String.join ds = .join (b.passages.map Passage.delta) ∧
      b.passages.filterMap Passage.frame? = ds.map .frame := by
    induction b.passages with
    | nil => exact ⟨[], nofun, rfl, rfl⟩
    | cons p ps ih =>
      obtain ⟨ds, hds, hjoin, hframes⟩ := ih
      cases p with
      | frame d hd =>
        refine ⟨d :: ds, List.forall_mem_cons.mpr ⟨hd, hds⟩, ?_, ?_⟩
        · rw [List.map_cons, String.join_cons, String.join_cons, hjoin]
          rfl
        · exact congrArg (Update.frame d :: ·) hframes
      | check k =>
        refine ⟨ds, hds, ?_, ?_⟩
        · rw [List.map_cons, String.join_cons, hjoin]
          exact String.empty_append.symm
        · rw [List.filterMap_cons_none rfl, hframes]
  exact ⟨ds, hds, hjoin, by rw [updates, hframes]⟩

/-- The deltas of the updates of a block are all that it paints. -/
theorem Block.join_updates (b : Block) : .join (b.updates.map Update.delta) = b.painted := by
  obtain ⟨ds, -, hjoin, hupdates⟩ := b.updates_eq
  have hframes : (ds.map Update.frame).map Update.delta = ds := by
    rw [List.map_map]
    exact List.map_id ds
  rw [hupdates, List.map_append, String.join_append, hframes, hjoin, painted]
  cases b.closing with
  | none => rfl
  | some k =>
    simp only [Option.toList_some, List.map_singleton, String.join_cons, String.join_nil,
      String.append_empty]
    rfl

namespace Chronicle.Tells

variable {σ : Type} {h : Chronicle} {c : Controller σ} {b : Block}

theorem updates_eq_flatMap (ht : h.Tells c) (session : Nat) :
    c.updates session =
      h.blocks.flatMap fun b ↦ if b.session = session then b.updates else [] := by
  rw [Controller.updates, Controller.events_eq_filterMap_trace, ht.trace, h.filterMap_deeds, events,
    List.filterMap_append, filterMap_flatMap_eq_nil (Check.updates_eq_nil session),
    List.nil_append, List.filterMap_flatMap]
  simp only [Block.filterMap_events]

/-- The updates of a session are those of its block. -/
theorem updates_of_mem (ht : h.Tells c) (hb : b ∈ h.blocks) :
    c.updates b.session = b.updates := by
  have hnodup : (h.blocks.map Block.session).Nodup := ht.sessions ▸ List.nodup_range
  rw [ht.updates_eq_flatMap]
  -- No two blocks have one number, so the blocks around this one have no update of its session.
  generalize h.blocks = blocks at hb hnodup
  obtain ⟨before, after, rfl⟩ := List.append_of_mem hb
  rw [List.map_append, List.map_cons, List.nodup_append, List.nodup_cons] at hnodup
  obtain ⟨-, ⟨hafter, -⟩, hdisjoint⟩ := hnodup
  have hother : ∀ b' ∈ before ++ after, b'.session ≠ b.session := by
    intro b' hb' heq
    rw [List.mem_append] at hb'
    rcases hb' with hb' | hb'
    · exact hdisjoint _ (List.mem_map_of_mem hb') _ List.mem_cons_self heq
    · exact hafter (heq ▸ List.mem_map_of_mem hb')
  have hnil : ∀ bs : List Block, bs ⊆ before ++ after →
      bs.flatMap (fun b' ↦ if b'.session = b.session then b'.updates else []) = [] :=
    fun bs hbs ↦ List.flatMap_eq_nil_iff.mpr fun b' hb' ↦ if_neg (hother b' (hbs hb'))
  rw [List.flatMap_append, List.flatMap_cons, if_pos rfl,
    hnil before (List.subset_append_left _ _), hnil after (List.subset_append_right _ _),
    List.append_nil, List.nil_append]

theorem paintedText_of_mem (ht : h.Tells c) (hb : b ∈ h.blocks) :
    c.paintedText b.session = b.painted := by
  rw [Controller.paintedText, ht.updates_of_mem hb, b.join_updates]

/-- An older block is that of an earlier session. -/
theorem lt_of_mem_older (ht : h.Tells c) (hb : b ∈ h.older) :
    ∃ s, c.session = some s ∧ b.session < s.id := by
  cases hcurrent : h.current with
  | none =>
    rw [ht.first hcurrent] at hb
    cases hb
  | some b' =>
    have hrel := ht.current
    rw [hcurrent] at hrel
    generalize hsession : c.session = session at hrel
    cases hrel with
    | @some _ s hb' =>
      have hsorted : (h.blocks.map Block.session).Pairwise (· < ·) :=
        ht.sessions ▸ List.pairwise_lt_range
      rw [blocks_of_current hcurrent, List.map_append, List.pairwise_append] at hsorted
      have hlt := hsorted.2.2 _ (List.mem_map_of_mem hb) _ List.mem_cons_self
      exact ⟨s, rfl, hb'.session ▸ hlt⟩

theorem exists_of_mem_updates (ht : h.Tells c) {session : Nat} {u : Update}
    (hu : u ∈ c.updates session) : ∃ b ∈ h.blocks, u ∈ b.updates := by
  rw [ht.updates_eq_flatMap, List.mem_flatMap] at hu
  obtain ⟨b, hb, hu⟩ := hu
  split_ifs at hu
  · exact ⟨b, hb, hu⟩
  · cases hu

end Chronicle.Tells

/-! ## The committed text of a session -/

section Growth

open Controller

variable {σ : Type} {h : Chronicle} {c c' : Controller σ} {s : Session}

/-- A move makes the text of the session longer or leaves it, or is the beginning of another
session. -/
theorem Controller.Move.grows (hmove : Move c c') (hs : c.session = some s) :
    (∃ s', c'.session = some s' ∧ s'.id = s.id ∧
        ∃ t, s'.text.committed = s.text.committed ++ t) ∨
      c.isStreaming = false ∧ ∃ p, c' = c.launch p := by
  have hsame {s' : Session} (hs' : c'.session = some s') (hid : s'.id = s.id)
      (htext : s'.text.committed = s.text.committed) :
      ∃ s', c'.session = some s' ∧ s'.id = s.id ∧
        ∃ t, s'.text.committed = s.text.committed ++ t :=
    ⟨s', hs', hid, "", htext.trans String.append_empty.symm⟩
  have hcurrent {s' : Session} (hs' : c.session = some s') : s' = s :=
    Option.some.inj (hs'.symm.trans hs)
  cases hmove with
  | log | time | store | summary => exact .inl (hsame hs rfl rfl)
  | token =>
    rw [cancelToken_eq] at hsame ⊢
    exact .inl (hsame hs rfl rfl)
  | ask hs' | opened _ hs' | chunk _ hs' | streamEnd hs' =>
    cases hcurrent hs'
    exact .inl (hsame rfl rfl rfl)
  | fragment text scheduled hs' =>
    cases hcurrent hs'
    refine .inl ⟨_, rfl, ?_, text, ?_⟩
    · rw [Session.fragment_eq]
    · rw [Session.fragment_eq]
      exact (s.text.apply_eq text).1
  | @paint s' _ t hs' _ hwaiting =>
    cases hcurrent hs'
    have hfired := congrArg RunningText.committed
      (PaintSchedule.fire_of_waiting hwaiting s.text).2.1
    exact .inl (hsame (keeps_tellUpdate _ _ _).session rfl hfired)
  | finish e hs' hl =>
    cases hcurrent hs'
    refine .inl (hsame (keeps_finish hs hl e).session rfl ?_)
    rw [Session.ended, PaintSchedule.finish]
    split_ifs <;> rfl
  | launch p hc => exact .inr ⟨hc, p, rfl⟩

/-- The chronicle tells of the controller, and the text of a session that was the current one once
goes on there: as that of the current session still, or painted as a whole in an older block. -/
def Chronicle.Continues (h : Chronicle) (s : Session) (c : Controller σ) : Prop :=
  h.Tells c ∧
    ((∃ s', c.session = some s' ∧ s'.id = s.id ∧
        ∃ t, s'.text.committed = s.text.committed ++ t) ∨
      ∃ b ∈ h.older, b.session = s.id ∧ ∃ t, b.painted = s.text.committed ++ t)

theorem Chronicle.Continues.move (hcont : h.Continues s c) (hmove : Move c c') :
    ∃ h' : Chronicle, h'.Continues s c' := by
  obtain ⟨ht, ⟨s₁, hs₁, hid, t, htext⟩ | ⟨b, hb, htext⟩⟩ := hcont
  · rcases hmove.grows hs₁ with ⟨s₂, hs₂, hid₂, t₂, htext₂⟩ | ⟨hc, p, rfl⟩
    · obtain ⟨h', ht', -, -⟩ := ht.move hmove
      refine ⟨h', ht', .inl ⟨s₂, hs₂, hid₂.trans hid, t ++ t₂, ?_⟩⟩
      rw [htext₂, htext, String.append_assoc]
    · -- The session has ended, so its block has painted everything.
      obtain ⟨b, hb, hblock⟩ := ht.exists_current hs₁
      have hdrained := hblock.drained ((isStreaming_of_session hs₁).symm.trans hc)
      have hpainted := hblock.painted
      rw [hdrained, String.append_empty] at hpainted
      exact ⟨_, ht.launch hc p, .inr
        ⟨b, mem_blocks_of_current hb, hblock.session.trans hid, t, hpainted.trans htext⟩⟩
  · -- Older blocks are never touched again.
    obtain ⟨h', ht', -, holder⟩ := ht.move hmove
    exact ⟨h', ht', .inr ⟨b, holder hb, htext⟩⟩

theorem Chronicle.Continues.moves (hcont : h.Continues s c) (hmoves : Moves c c') :
    ∃ h' : Chronicle, h'.Continues s c' := by
  induction hmoves with
  | refl => exact ⟨h, hcont⟩
  | tail _ hmove ih =>
    obtain ⟨h', hcont'⟩ := ih
    exact hcont'.move hmove

theorem Chronicle.Continues.apply (hcont : h.Continues s c) (op : Op σ) :
    ∃ h' : Chronicle, h'.Continues s (c.apply op) := by
  cases hop : op.isMeasure with
  | false => exact hcont.moves (moves_apply c hop)
  | true =>
    obtain rfl := Op.eq_measure hop
    obtain ⟨ht, hgoes⟩ := hcont
    obtain ⟨h', ht', -, holder⟩ := ht.measure
    refine ⟨h', ht', hgoes.imp ?_ ?_⟩
    · rintro ⟨s', hs', hid⟩
      exact ⟨s', (keeps_measure c).session.trans hs', hid⟩
    · rintro ⟨b, hb, htext⟩
      exact ⟨b, holder hb, htext⟩

theorem Chronicle.Continues.run (hcont : h.Continues s c) (ops : List (Op σ)) :
    ∃ h' : Chronicle, h'.Continues s (c.run ops) := by
  induction ops generalizing h c with
  | nil => exact ⟨h, hcont⟩
  | cons op ops ih =>
    obtain ⟨h', hcont'⟩ := hcont.apply op
    exact ih hcont'

end Growth

/-! ## The texts of a reached controller -/

namespace Controller

variable {σ : Type}

/-- **Painted text.** The updates of the current session and what is pending amount to its committed
text, and every frame has some of it. Whatever is done, its committed text goes on where it was,
though another session may be the current one then. Once it has ended nothing is pending, and the
last update is the only final one and has all of the text. -/
theorem painted_append_pending {c : Controller σ} (hc : c.Reached) {s : Session}
    (hs : c.session = some s) :
    c.paintedText s.id ++ s.text.pending = s.text.committed ∧
      (∀ session d, .frame d ∈ c.updates session → d ≠ "") ∧
      (∀ ops, ∃ s', (c.run ops).session = some s' ∧
        (s'.id = s.id ∧ (∃ t, s'.text.committed = s.text.committed ++ t) ∨
          s.id < s'.id ∧ ∃ t, (c.run ops).paintedText s.id = s.text.committed ++ t)) ∧
      ∀ e, s.phase = .ended e → s.text.pending = "" ∧
        ∃ ds d, c.updates s.id = ds.map .frame ++ [.final d s.text.committed e.state] ∧
          String.join ds ++ d = s.text.committed := by
  obtain ⟨h, ht⟩ := hc.tells
  obtain ⟨b, hcurrent, hb⟩ := ht.exists_current hs
  have hmem := Chronicle.mem_blocks_of_current hcurrent
  have hpainted := ht.paintedText_of_mem hmem
  have hupdates := ht.updates_of_mem hmem
  rw [hb.session] at hpainted hupdates
  refine ⟨by rw [hpainted, hb.painted], ?_, ?_, ?_⟩
  · intro session d hd
    obtain ⟨b', -, hd⟩ := ht.exists_of_mem_updates hd
    obtain ⟨ds, hds, -, heq⟩ := b'.updates_eq
    rw [heq, List.mem_append, List.mem_map, List.mem_map] at hd
    rcases hd with ⟨d', hd', hframe⟩ | ⟨k, -, hfinal⟩
    · cases hframe
      exact hds d hd'
    · cases hfinal
  · intro ops
    have hcont : h.Continues s c := ⟨ht, .inl ⟨s, hs, rfl, "", String.append_empty.symm⟩⟩
    obtain ⟨h', ht', hgoes⟩ := hcont.run ops
    rcases hgoes with ⟨s', hs', hid, htext⟩ | ⟨b', hb', hid, htext⟩
    · exact ⟨s', hs', .inl ⟨hid, htext⟩⟩
    · obtain ⟨s', hs', hlt⟩ := ht'.lt_of_mem_older hb'
      have htold := ht'.paintedText_of_mem (List.mem_append_left _ hb')
      rw [hid] at htold hlt
      exact ⟨s', hs', .inr ⟨hlt, by rw [htold]; exact htext⟩⟩
  · intro e he
    have hl : s.isLive = false := by rw [Session.isLive, he]
    have hdrained := hb.drained hl
    have hall := hb.painted
    rw [hdrained, String.append_empty] at hall
    have hending := hb.ending
    rw [Session.ending?, he] at hending
    obtain ⟨k, hk, hke⟩ := Option.map_eq_some_iff.mp hending
    obtain ⟨ds, -, hjoin, heq⟩ := b.updates_eq
    refine ⟨hdrained, ds, k.delta, ?_, ?_⟩
    · rw [hupdates, heq, hk, ← hke, ← hall]
      rfl
    · rw [hjoin, ← hall, Block.painted, hk]
      rfl

/-- A run in which one fragment is painted and the next is not. -/
def halfPainted : List (Op History) :=
  [.begin { message := "hi" },
    .step { now := 0, wake := .answer (.ok 0) },
    .step { now := 0, wake := .item (some (.ok (line "ab"))) },
    .step { now := 9, wake := .tick },
    .step { now := 9, wake := .item (some (.ok (line "c"))) }]
where
  line (text : String) : Bytes :=
    Utf8.encode ("data: \x7b\"content\":\"" ++ text ++ "\"\x7d\n")

theorem painted_append_pending_halfPainted :
    ∃ s, ((new History.archive {} {} "scripted").run halfPainted).session = some s ∧
      s.text.committed = "abc" ∧
      ((new History.archive {} {} "scripted").run halfPainted).paintedText s.id ++ "c" = "abc" := by
  have hpending : ((new History.archive {} {} "scripted").run halfPainted).session.map
      (fun s ↦ (s.text.pending, s.text.committed)) = some ("c", "abc") := by decide +kernel
  obtain ⟨s, hs, htext⟩ := Option.map_eq_some_iff.mp hpending
  obtain ⟨hpending, hcommitted⟩ := Prod.mk.inj htext
  have hpainted := (painted_append_pending ⟨_, _, _, _, _, rfl⟩ hs).1
  rw [hpending, hcommitted] at hpainted
  exact ⟨s, hs, hcommitted, hpainted⟩

end Controller

end ChatStream
