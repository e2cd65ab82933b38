import ChatStream.Proofs.Render.Boundaries
import ChatStream.Proofs.Render.Calls

/-!
# One frame for each boundary

However fast fragments come, a page is painted at the rate of its clock. A frame is painted when a
tick fires, and the deadline of a tick is a boundary. Where time goes forward and no tick fires
early, no two ticks share a deadline: a tick is scheduled only once the one before it has fired, so
that the one deadline lies in the past and the other is still to come.

## The argument

`Paced` counts frames against deadlines. By any instant there have been no more frames than ticks
were due, and a tick that is due and still waits is one frame in reserve. The frame that a tick
paints uses up its reserve, because it comes at the deadline or later.
-/

namespace ChatStream

/-- Whether a frame was painted, and this early. -/
def PageEntry.paintsBy (u : Instant) (e : PageEntry) : Bool :=
  e.reply.update.any (!·.isFinal) && decide (e.call.now ≤ u)

/-- The tick is one that a fragment schedules at an instant: its deadline is a boundary behind it,
not further than an interval, or the origin if that is still to come. -/
structure PaintClock.Schedules (clock : PaintClock) (now : Instant) (t : Tick) : Prop where
  boundary : t.deadline ∈ Set.range clock.boundary
  later : now < t.deadline
  soon : clock.origin ≤ now → t.deadline ≤ now + clock.interval
  origin : now < clock.origin → t.deadline = clock.origin

namespace PageLog

/-- How many frames were painted by an instant. -/
def framesBy (log : List PageEntry) (u : Instant) : Nat := log.countP (·.paintsBy u)

/-- How many ticks were due by an instant. -/
def ticksBy (log : List PageEntry) (u : Instant) : Nat := (ticks log).countP (·.deadline ≤ u)

theorem framesBy_concat (log : List PageEntry) (e : PageEntry) (u : Instant) :
    framesBy (log ++ [e]) u = framesBy log u + (e.paintsBy u).toNat := by
  rw [framesBy, List.countP_append, List.countP_singleton]
  cases e.paintsBy u <;> rfl

theorem ticksBy_concat (log : List PageEntry) (e : PageEntry) (u : Instant) :
    ticksBy (log ++ [e]) u = ticksBy log u + (e.reply.tick.any (·.deadline ≤ u)).toNat := by
  rw [ticksBy, ticks_concat, List.countP_append]
  cases e.reply.tick with
  | none => rfl
  | some t =>
    rw [Option.toList_some, List.countP_singleton, Option.any_some]
    cases decide (t.deadline ≤ u) <;> rfl

end PageLog

namespace Page

open PageLog

/-- The calls are made by one who keeps time. -/
structure Timely (clock : PaintClock) (calls : List PageCall) : Prop where
  /-- Time never goes backwards. -/
  forward : calls.Pairwise (·.now ≤ ·.now)
  /-- Every fragment comes while the clock can name a boundary behind it. -/
  reaches : ∀ c ∈ calls, c.act.isNote = true → clock.Reaches c.now
  /-- No outstanding tick fires before its deadline. -/
  due : ∀ before c after, calls = before ++ c :: after →
    ∀ t, Outstanding ((fresh clock).run before).2 t → c.act = .fire t.id → t.deadline ≤ c.now

variable {clock : PaintClock} {g g' : Page} {log : List PageEntry} {calls : List PageCall}
  {c : PageCall} {reply : PageReply}

theorem Timely.of_concat (h : Timely clock (calls ++ [c])) : Timely clock calls where
  forward := (List.pairwise_append.mp h.forward).1
  reaches c' hc' := h.reaches c' (List.mem_append_left _ hc')
  due before c' after hcalls := by
    refine h.due before c' (after ++ [c]) ?_
    rw [hcalls, List.append_assoc, List.cons_append]

/-- The page keeps to its clock. -/
structure Paced (clock : PaintClock) (g : Page) (log : List PageEntry) : Prop where
  clock_eq : g.schedule.clock = clock
  scheduled : ∀ e ∈ log, ∀ t, e.reply.tick = some t → clock.Schedules e.call.now t
  increasing : (ticks log).Pairwise (·.deadline < ·.deadline)
  /-- While the page is open, every tick that waits no more was due at some time. -/
  passed : g.schedule.closed = false → ∀ t ∈ ticks log,
    g.schedule.waiting = some t ∨ ∃ e ∈ log, t.deadline ≤ e.call.now
  /-- Frames, and the one in reserve, were due. -/
  frames : ∀ u,
    framesBy log u + (g.schedule.waiting.any (·.deadline ≤ u)).toNat ≤ ticksBy log u

theorem paced_fresh (clock : PaintClock) : (fresh clock).Paced clock [] where
  clock_eq := rfl
  scheduled := nofun
  increasing := .nil
  passed := nofun
  frames _ := Nat.le_refl 0

theorem schedules_nextTick (hreaches : g.schedule.clock.Reaches c.now) :
    g.schedule.clock.Schedules c.now (g.nextTick c.now) where
  boundary := hreaches.boundaryAfter_mem
  later := hreaches.lt_boundaryAfter
  soon := hreaches.boundaryAfter_le
  origin := PaintClock.boundaryAfter_of_lt

namespace Paced

theorem schedules (hg : g.Paced clock log)
    (hreaches : c.act.isNote = true → clock.Reaches c.now) (ha : g.Answers c g' reply) :
    ∀ t, reply.tick = some t → clock.Schedules c.now t := by
  cases ha with
  | schedule now =>
    have hreaches := hreaches rfl
    rw [← hg.clock_eq] at hreaches ⊢
    rintro t ⟨⟩
    exact schedules_nextTick hreaches
  | _ => exact nofun

/-- A tick is due later than all that were given out before it. -/
theorem deadline_lt (hg : g.Paced clock log) (hpast : ∀ e ∈ log, e.call.now ≤ c.now)
    (hreaches : c.act.isNote = true → clock.Reaches c.now) (ha : g.Answers c g' reply) :
    ∀ t ∈ ticks log, ∀ t', reply.tick = some t' → t.deadline < t'.deadline := by
  have hschedules := hg.schedules hreaches ha
  cases ha with
  | schedule now hopen hfree =>
    intro t ht t' ht'
    obtain ⟨e, he, hdeadline⟩ := (hg.passed hopen t ht).resolve_left fun hwaiting ↦
      absurd (hfree.symm.trans hwaiting) nofun
    exact (hdeadline.trans (hpast e he)).trans_lt (hschedules t' ht').later
  | _ => exact fun _ _ ↦ nofun

theorem passed_answer (hg : g.Paced clock log)
    (hdue : ∀ t, g.schedule.waiting = some t → c.act = .fire t.id → t.deadline ≤ c.now)
    (ha : g.Answers c g' reply) (hopen : g'.schedule.closed = false) :
    ∀ t ∈ ticks (log ++ [⟨c, reply⟩]),
      g'.schedule.waiting = some t ∨ ∃ e ∈ log ++ [⟨c, reply⟩], t.deadline ≤ e.call.now := by
  have hold (hopen : g.schedule.closed = false) (t : Tick) (ht : t ∈ ticks log) :
      g.schedule.waiting = some t ∨ ∃ e ∈ log ++ [⟨c, reply⟩], t.deadline ≤ e.call.now :=
    (hg.passed hopen t ht).imp_right fun ⟨e, he, hdeadline⟩ ↦
      ⟨e, List.mem_append_left _ he, hdeadline⟩
  rw [ticks_concat]
  cases ha with
  | schedule now _ hfree =>
    intro t ht
    rcases List.mem_append.mp ht with ht | ht
    · exact .inr ((hold hopen t ht).resolve_left fun hwaiting ↦
        absurd (hfree.symm.trans hwaiting) nofun)
    · exact .inl (congrArg some (List.mem_singleton.mp ht).symm)
  | idle now t₀ hwaiting | paint now t₀ hwaiting =>
    intro t ht
    rw [Option.toList_none, List.append_nil] at ht
    refine .inr ((hold hopen t ht).elim (fun ht ↦ ?_) id)
    -- The tick that waited fires now.
    obtain rfl := Option.some.inj (hwaiting.symm.trans ht)
    exact ⟨_, List.mem_concat_self, hdue _ hwaiting rfl⟩
  | finish => exact absurd hopen nofun
  | _ =>
    rw [Option.toList_none, List.append_nil]
    exact hold hopen

theorem frames_answer (hg : g.Paced clock log)
    (hdue : ∀ t, g.schedule.waiting = some t → c.act = .fire t.id → t.deadline ≤ c.now)
    (ha : g.Answers c g' reply) (u : Instant) :
    framesBy (log ++ [⟨c, reply⟩]) u + (g'.schedule.waiting.any (·.deadline ≤ u)).toNat ≤
      ticksBy (log ++ [⟨c, reply⟩]) u := by
  have hframes := hg.frames u
  rw [framesBy_concat, ticksBy_concat]
  cases ha with
  | schedule now hopen hfree =>
    rw [hfree] at hframes
    exact Nat.add_le_add_right hframes _
  | paint now t hwaiting =>
    -- A frame that is painted by then is painted for a tick that is due by then.
    have hdeadline := hdue t hwaiting rfl
    have hpaints : ((PageEntry.mk ⟨now, .fire t.id⟩ ⟨none, some (.frame g.text.pending)⟩).paintsBy
        u).toNat ≤ (decide (t.deadline ≤ u)).toNat := by
      refine Bool.toNat_le_toNat fun hpaints ↦ ?_
      rw [PageEntry.paintsBy, Bool.and_eq_true, decide_eq_true_eq] at hpaints
      exact decide_eq_true (hdeadline.trans hpaints.2)
    rw [hwaiting] at hframes
    exact (Nat.add_le_add_left hpaints _).trans hframes
  | idle | finish => exact (Nat.le_add_right _ _).trans hframes
  | _ => exact hframes

theorem answer (hg : g.Paced clock log) (hpast : ∀ e ∈ log, e.call.now ≤ c.now)
    (hreaches : c.act.isNote = true → clock.Reaches c.now)
    (hdue : ∀ t, g.schedule.waiting = some t → c.act = .fire t.id → t.deadline ≤ c.now)
    (ha : g.Answers c g' reply) : g'.Paced clock (log ++ [⟨c, reply⟩]) where
  clock_eq := by
    refine Eq.trans ?_ hg.clock_eq
    cases ha <;> rfl
  scheduled := by
    rw [List.forall_mem_append, List.forall_mem_singleton]
    exact ⟨hg.scheduled, hg.schedules hreaches ha⟩
  increasing := by
    rw [ticks_concat, List.pairwise_append]
    refine ⟨hg.increasing, ?_, fun t ht t' ht' ↦ ?_⟩
    · cases reply.tick with
      | none => exact .nil
      | some t => exact List.pairwise_singleton _ t
    · exact hg.deadline_lt hpast hreaches ha t ht t' (Option.mem_toList.mp ht')
  passed := hg.passed_answer hdue ha
  frames := hg.frames_answer hdue ha

theorem deadlines_mem (hg : g.Paced clock log) :
    ∀ b ∈ (ticks log).map (·.deadline), b ∈ Set.range clock.boundary := by
  rintro _ hb
  obtain ⟨t, ht, rfl⟩ := List.mem_map.mp hb
  obtain ⟨e, he, hreply⟩ := List.mem_filterMap.mp ht
  exact (hg.scheduled e he t hreply).boundary

theorem exists_indices (hg : g.Paced clock log) :
    ∃ ks : List Nat, ks.Pairwise (· < ·) ∧
      (ticks log).map (·.deadline) = ks.map clock.boundary := by
  have hmem : (ticks log).map (·.deadline) ∈ Set.range (List.map clock.boundary) := by
    rw [Set.range_list_map]
    exact hg.deadlines_mem
  obtain ⟨ks, hks⟩ := hmem
  refine ⟨ks, ?_, hks.symm⟩
  have hincreasing := List.pairwise_map.mpr hg.increasing
  rw [← hks, List.pairwise_map] at hincreasing
  exact hincreasing.imp clock.boundary_strictMono.lt_iff_lt.mp

/-- The deadlines by then are boundaries, and no two are one. -/
theorem framesBy_le (hg : g.Paced clock log) (u : Instant) :
    framesBy log u ≤ {b | b ∈ Set.range clock.boundary ∧ b ≤ u}.ncard := by
  let due := ((ticks log).map (·.deadline)).filter (· ≤ u)
  have hlength : ticksBy log u = due.length := by
    rw [← List.countP_eq_length_filter, List.countP_map]
    rfl
  have hnodup : due.Nodup :=
    ((List.pairwise_map.mpr hg.increasing).imp Nat.ne_of_lt).filter _
  have hfinite : {b | b ∈ Set.range clock.boundary ∧ b ≤ u}.Finite :=
    (Set.finite_Iic u).subset fun _ hb ↦ hb.2
  calc framesBy log u
    _ ≤ ticksBy log u := (Nat.le_add_right _ _).trans (hg.frames u)
    _ = due.toFinset.card := by rw [hlength, List.toFinset_card_of_nodup hnodup]
    _ = (due.toFinset : Set Instant).ncard := (Set.ncard_coe_finset _).symm
    _ ≤ _ := Set.ncard_le_ncard ?_ hfinite
  intro b hb
  obtain ⟨hb, hle⟩ := List.mem_filter.mp (List.mem_toFinset.mp hb)
  exact ⟨hg.deadlines_mem b hb, of_decide_eq_true hle⟩

end Paced

theorem paced_run (h : Timely clock calls) :
    ((fresh clock).run calls).1.Paced clock ((fresh clock).run calls).2 := by
  induction calls using List.reverseRecOn with
  | nil => exact paced_fresh clock
  | append_singleton calls c ih =>
    have hforward := (List.pairwise_append.mp h.forward).2.2
    have htracks := (sound_run clock calls).tracks
    rw [run_concat]
    refine (ih h.of_concat).answer ?_ (h.reaches c List.mem_concat_self) ?_ (answers_call _ c)
    · intro e he
      refine hforward e.call ?_ c (List.mem_singleton_self c)
      rw [← map_call_run (fresh clock) calls]
      exact List.mem_map_of_mem he
    · intro t ht
      exact h.due calls c [] rfl t ((htracks.waiting t).mpr ht)

/-- **A page paints at the rate of its clock.** The deadlines of its ticks are boundaries, each
further on than the one before, later than the fragment that scheduled it and by an interval at
most. So by any instant no more frames were painted than there are boundaries up to it, however
many fragments came. -/
theorem frames_run_le (h : Timely clock calls) :
    let log := ((fresh clock).run calls).2
    (∃ ks : List Nat, ks.Pairwise (· < ·) ∧
      (ticks log).map (·.deadline) = ks.map fun k ↦ clock.origin + k * clock.interval) ∧
    (∀ e ∈ log, ∀ t, e.reply.tick = some t → e.call.now < t.deadline ∧
      (clock.origin ≤ e.call.now → t.deadline ≤ e.call.now + clock.interval) ∧
      (e.call.now < clock.origin → t.deadline = clock.origin)) ∧
    ∀ u, framesBy log u ≤ {b | b ∈ Set.range clock.boundary ∧ b ≤ u}.ncard := by
  have hpaced := paced_run h
  refine ⟨hpaced.exists_indices, fun e he t ht ↦ ?_, hpaced.framesBy_le⟩
  have hschedules := hpaced.scheduled e he t ht
  exact ⟨hschedules.later, hschedules.soon, hschedules.origin⟩

/-- A clock that paints every sixteen milliseconds. -/
def everyFrame : PaintClock := .new 1000 16000000

/-- A tick fires one frame late, and the next fragment comes with it. -/
def lateTick : List PageCall :=
  [⟨1000, .apply "a"⟩, ⟨1000, .note⟩, ⟨5000, .note⟩, ⟨40000000, .fire 1⟩, ⟨40000000, .note⟩]

theorem timely_lateTick : Timely everyFrame lateTick where
  forward := by decide
  reaches c hc _ := by
    refine ⟨3, ?_, by decide⟩
    revert c hc
    decide
  due before c after hcalls t ht hfire := by
    have hwaiting := ((sound_run everyFrame before).tracks.waiting t).mp ht
    have hbefore : before = lateTick.take before.length := by rw [hcalls, List.take_left]
    have hc : lateTick[before.length]? = some c := by
      rw [hcalls, List.getElem?_append_right (Nat.le_refl _), Nat.sub_self]
      rfl
    have hlength := (List.getElem?_eq_some_iff.mp hc).1
    change before.length < 5 at hlength
    -- The fourth call is the only one that fires a tick.
    interval_cases hn : before.length
    case «3» =>
      rw [hbefore] at hwaiting
      cases hwaiting
      cases hc
      decide
    all_goals
      cases hc
      cases hfire

theorem frames_lateTick :
    Timely everyFrame lateTick ∧ framesBy ((fresh everyFrame).run lateTick).2 40000000 = 1 ∧
      1 ≤ {b | b ∈ Set.range everyFrame.boundary ∧ b ≤ 40000000}.ncard := by
  have hframes : framesBy ((fresh everyFrame).run lateTick).2 40000000 = 1 := by decide
  have hbound := (frames_run_le timely_lateTick).2.2 40000000
  rw [hframes] at hbound
  exact ⟨timely_lateTick, hframes, hbound⟩

end Page

end ChatStream
