import ChatStream.Proofs.Session.Journal
import ChatStream.Proofs.Session.Records
import ChatStream.Session.Drive
import ChatStream.Session.Simulation

/-!
# A store that refuses

A record that is refused is told in a warning, and that is all that comes of it. So two runs with
the same operations over two archives, of which each refuses what it likes, differ in their warnings
and in nothing else that is told or returned, as long as the archives measure the same.

Without that condition the two may differ in their budget notices as well, and in nothing besides:
`Beside` is a tandem under which the notices decide about the rest of the events. The condition then
makes the notices equal, since those of a run are what one budget gives for its readings.
-/

namespace ChatStream

/-- Whether the event is a warning. -/
def ViewEvent.isWarning : ViewEvent → Bool
  | .notice .warning _ => true
  | _ => false

/-- The warning that a record was refused. -/
def Refusal.warning (e : Refusal) : ViewEvent :=
  .notice .warning ("Could not save message: " ++ e.message)

namespace Controller

variable {σ τ : Type}

/-- The events without the warnings. -/
def quietEvents (c : Controller σ) : List ViewEvent := c.events.filter fun e ↦ !e.isWarning

/-- The warnings among the events. -/
def warnings (c : Controller σ) : List ViewEvent := c.events.filter ViewEvent.isWarning

/-- Why records were refused, oldest first. -/
def refusals (c : Controller σ) : List Refusal := c.offers.filterMap Offer.refusal

/-- What the operations of a run return. -/
def returns (c : Controller σ) : List (Op σ) → List Returned
  | [] => []
  | op :: ops => c.returned op :: (c.apply op).returns ops

/-! ## What is picked from the deeds -/

theorem filterMap_act {α : Type} (c : Controller σ) (d : Deed) (f : Deed → Option α) :
    (c.act d).deeds.filterMap f = c.deeds.filterMap f ++ (f d).toList := by
  rw [act, List.filterMap_append]
  cases h : f d with
  | none => rw [List.filterMap_cons_none h, List.filterMap_nil, Option.toList_none]
  | some a => rw [List.filterMap_cons_some h, List.filterMap_nil, Option.toList_some]

theorem events_act (c : Controller σ) (d : Deed) :
    (c.act d).events = c.events ++ d.event?.toList :=
  filterMap_act c d Deed.event?

theorem requests_act (c : Controller σ) (d : Deed) :
    (c.act d).requests = c.requests ++ d.request?.toList :=
  filterMap_act c d Deed.request?

end Controller

theorem Deed.isWarning_of_isOwn {d : Deed} (hd : d.isOwn = true) {e : ViewEvent}
    (he : d.event? = some e) : e.isWarning = false := by
  unfold Deed.event? at he
  split at he
  · cases he
    unfold ViewEvent.isWarning
    split
    · cases hd
    · rfl
  · cases he

theorem Deed.offer?_of_isOwn {d : Deed} (hd : d.isOwn = true) : d.offer? = none := by
  unfold Deed.offer?
  split
  · cases hd
  · rfl

theorem Offer.events_eq (o : Offer) : o.events = o.refusal.toList.map Refusal.warning := rfl

theorem Offer.isWarning_of_mem (o : Offer) : ∀ e ∈ o.events, e.isWarning = true := by
  intro e he
  rw [events_eq, List.mem_map] at he
  obtain ⟨refusal, -, rfl⟩ := he
  rfl

theorem Check.isWarning_of_mem (k : Check) : ∀ e ∈ k.events, e.isWarning = false := by
  intro e he
  rw [Check.events, List.mem_map] at he
  obtain ⟨n, -, rfl⟩ := he
  rfl

namespace Controller

variable {σ τ : Type} {c c' : Controller σ} {d d' : Controller τ}

/-! ## Warnings -/

/-- There is a warning for each record that was refused, and no other. -/
def Warns (c : Controller σ) : Prop := c.warnings = c.refusals.map Refusal.warning

theorem warnings_act (c : Controller σ) {x : Deed} (hx : x.isOwn = true) :
    (c.act x).warnings = c.warnings := by
  have hnone : x.event?.toList.filter ViewEvent.isWarning = [] := by
    rw [List.filter_eq_nil_iff]
    intro e he
    rw [x.isWarning_of_isOwn hx (Option.mem_toList.mp he)]
    exact Bool.false_ne_true
  rw [warnings, events_act, List.filter_append, hnone, List.append_nil, warnings]

theorem offers_act (c : Controller σ) {x : Deed} (hx : x.isOwn = true) :
    (c.act x).offers = c.offers := by
  rw [offers, filterMap_act, Deed.offer?_of_isOwn hx, Option.toList_none, List.append_nil, offers]

theorem offers_commit (hw : c.watched = true) (r : Record) :
    (c.commit r).offers = c.offers ++ [c.offered r] := by
  rw [offers_of_outline (outline_commit hw r), Offer.filterMap_offer?]

theorem offers_measure (hw : c.watched = true) : c.measure.1.offers = c.offers := by
  rw [offers_of_outline (outline_measure hw), Check.filterMap_offer?, List.append_nil]

theorem quietEvents_commit (hw : c.watched = true) (r : Record) :
    (c.commit r).quietEvents = c.quietEvents := by
  have hnone : ((c.offered r).events.filter fun e ↦ !e.isWarning) = [] := by
    rw [List.filter_eq_nil_iff]
    intro e he
    rw [(c.offered r).isWarning_of_mem e he]
    exact Bool.false_ne_true
  rw [quietEvents, events_of_outline (outline_commit hw r), List.filter_append,
    Offer.filterMap_deeds, hnone, List.append_nil, quietEvents]

theorem quietEvents_measure (hw : c.watched = true) :
    c.measure.1.quietEvents = c.quietEvents ++ c.checked.events := by
  have hall : (c.checked.events.filter fun e ↦ !e.isWarning) = c.checked.events := by
    rw [List.filter_eq_self]
    intro e he
    rw [c.checked.isWarning_of_mem e he]
    rfl
  rw [quietEvents, events_of_outline (outline_measure hw), List.filter_append,
    Check.filterMap_deeds, hall, quietEvents]

theorem requests_commit (hw : c.watched = true) (r : Record) :
    (c.commit r).requests = c.requests :=
  requests_of_outline (outline_commit hw r) (c.offered r).isTraced_of_mem

theorem requests_measure (hw : c.watched = true) : c.measure.1.requests = c.requests :=
  requests_of_outline (outline_measure hw) c.checked.isTraced_of_mem

/-! ## Warnings, one by one -/

theorem Warns.act (h : c.Warns) {x : Deed} (hx : x.isOwn = true) : (c.act x).Warns := by
  rw [Warns, warnings_act c hx, refusals, offers_act c hx]
  exact h

theorem Warns.commit (h : c.Warns) (hw : c.watched = true) (r : Record) : (c.commit r).Warns := by
  have hwarnings : (c.commit r).warnings = c.warnings ++ (c.offered r).events := by
    rw [warnings, events_of_outline (outline_commit hw r), List.filter_append,
      Offer.filterMap_deeds, List.filter_eq_self.mpr (c.offered r).isWarning_of_mem, warnings]
  rw [Warns, hwarnings, refusals, offers_commit hw, List.filterMap_append, List.map_append,
    ← refusals, h, Offer.events_eq]
  rfl

theorem Warns.measure (h : c.Warns) (hw : c.watched = true) : c.measure.1.Warns := by
  have hnone : c.checked.events.filter ViewEvent.isWarning = [] := by
    rw [List.filter_eq_nil_iff]
    intro e he
    rw [c.checked.isWarning_of_mem e he]
    exact Bool.false_ne_true
  have hwarnings : c.measure.1.warnings = c.warnings := by
    rw [warnings, events_of_outline (outline_measure hw), List.filter_append,
      Check.filterMap_deeds, hnone, List.append_nil, warnings]
  rw [Warns, hwarnings, refusals, offers_measure hw]
  exact h

/-! ## Two controllers -/

/-- Both have done the same but for what their archives said: the same requests, the same records
handed in, a warning for each that was refused, and the same besides if the notices at the checks
are the same. -/
structure Beside (c : Controller σ) (d : Controller τ) : Prop where
  core : c.core = d.core
  watched : c.watched = true
  warns : c.Warns
  warns' : d.Warns
  requests : c.requests = d.requests
  records : c.offers.map Offer.record = d.offers.map Offer.record
  checks : c.checks.length = d.checks.length
  events : c.checks.map Check.notice = d.checks.map Check.notice → c.quietEvents = d.quietEvents

namespace Beside

theorem watched' (h : Beside c d) : d.watched = true :=
  (congrArg Core.watched h.core).symm.trans h.watched

theorem act (h : Beside c d) {x : Deed} (hx : x.isOwn = true) : Beside (c.act x) (d.act x) := by
  have hquiet {υ : Type} (c : Controller υ) :
      (c.act x).quietEvents = c.quietEvents ++ x.event?.toList.filter fun e ↦ !e.isWarning := by
    rw [quietEvents, events_act, List.filter_append, quietEvents]
  constructor
  · exact h.core
  · exact h.watched
  · exact h.warns.act hx
  · exact h.warns'.act hx
  · rw [requests_act, requests_act, h.requests]
  · rw [offers_act c hx, offers_act d hx, h.records]
  · rw [checks_act c hx, checks_act d hx, h.checks]
  · intro hnotices
    rw [checks_act c hx, checks_act d hx] at hnotices
    rw [hquiet, hquiet, h.events hnotices]

theorem commit (h : Beside c d) (r : Record) : Beside (c.commit r) (d.commit r) := by
  have hwatched' := h.watched'
  constructor
  · rw [core_commit, core_commit, h.core]
  · exact (keeps_commit c r).watched.trans h.watched
  · exact h.warns.commit h.watched r
  · exact h.warns'.commit hwatched' r
  · rw [requests_commit h.watched, requests_commit hwatched', h.requests]
  · rw [offers_commit h.watched, offers_commit hwatched', List.map_append, List.map_append,
      h.records]
    rfl
  · rw [checks_commit h.watched, checks_commit hwatched', h.checks]
  · intro hnotices
    rw [checks_commit h.watched, checks_commit hwatched'] at hnotices
    rw [quietEvents_commit h.watched, quietEvents_commit hwatched', h.events hnotices]

theorem measure (h : Beside c d) : Beside c.measure.1 d.measure.1 := by
  have hwatched' := h.watched'
  constructor
  · rw [core_measure, core_measure, h.core]
  · exact (keeps_measure c).watched.trans h.watched
  · exact h.warns.measure h.watched
  · exact h.warns'.measure hwatched'
  · rw [requests_measure h.watched, requests_measure hwatched', h.requests]
  · rw [offers_measure h.watched, offers_measure hwatched', h.records]
  · rw [checks_measure h.watched, checks_measure hwatched', List.length_append,
      List.length_append, h.checks]
    rfl
  · intro hnotices
    rw [checks_measure h.watched, checks_measure hwatched', List.map_append,
      List.map_append] at hnotices
    obtain ⟨hbefore, hnow⟩ := List.append_inj hnotices (by simp [h.checks])
    have hnow : c.checked.notice = d.checked.notice := List.head_eq_of_cons_eq hnow
    rw [quietEvents_measure h.watched, quietEvents_measure hwatched', h.events hbefore,
      Check.events, Check.events, hnow]

/-- Controllers side by side, as a tandem. -/
def tandem (σ τ : Type) : Tandem σ τ where
  rel := Beside
  core h := h.core
  withCore h k := ⟨core_withCore h.core k, h.watched, h.warns, h.warns', h.requests, h.records,
    h.checks, h.events⟩
  act h _ := h.act
  commit h := h.commit
  measure h := h.measure

theorem apply (h : Beside c d) {op : Op σ} {op' : Op τ} (hsame : op.Alike op') :
    Beside (c.apply op) (d.apply op') := by
  cases hop : op.isChange with
  | false => exact (tandem σ τ).apply h hsame hop
  | true =>
    cases hsame with
    | changeStore =>
      exact ⟨h.core, h.watched, h.warns, h.warns', h.requests, h.records, h.checks, h.events⟩
    | _ => cases hop

theorem run (h : Beside c d) {ops : List (Op σ)} {ops' : List (Op τ)}
    (hsame : List.Forall₂ Op.Alike ops ops') : Beside (c.run ops) (d.run ops') := by
  induction hsame generalizing c d with
  | nil => exact h
  | cons hop _ ih => exact ih (h.apply hop)

theorem returns_eq (h : Beside c d) {ops : List (Op σ)} {ops' : List (Op τ)}
    (hsame : List.Forall₂ Op.Alike ops ops') : c.returns ops = d.returns ops' := by
  induction hsame generalizing c d with
  | nil => rfl
  | cons hop _ ih =>
    rw [returns, returns, (tandem σ τ).returned_eq h hop, ih (h.apply hop)]

/-- Both wait for the same, and would be woken by the same. -/
theorem nextWake_eq (h : Beside c d) (answer : Except TransportError Nat) (items : List Item)
    (tickIsDue : Bool) :
    c.nextWake answer items tickIsDue = d.nextWake answer items tickIsDue := by
  have hturn := (tandem σ τ).turn h
  rw [nextWake, nextWake]
  generalize c.turn = turn at hturn ⊢
  generalize d.turn = turn' at hturn ⊢
  cases hturn <;> rfl

end Beside

theorem beside_new (archive : Archive σ) (store : σ) (archive' : Archive τ) (store' : τ)
    (config : Config) (transportName : String) :
    Beside (new archive store config transportName) (new archive' store' config transportName) :=
  ⟨rfl, rfl, rfl, rfl, rfl, rfl, rfl, fun _ ↦ rfl⟩

/-! ## Equal readings -/

/-- What two controllers have in common of which only the archives differ: all that decides what is
done next, the budget, the requests, the events but for the warnings, the records handed in, and
what the next step waits for. -/
structure Agree (c : Controller σ) (d : Controller τ) : Prop where
  core : c.core = d.core
  session : c.session = d.session
  budget : c.budget = d.budget
  requests : c.requests = d.requests
  events : c.quietEvents = d.quietEvents
  records : c.offers.map Offer.record = d.offers.map Offer.record
  nextWake : ∀ answer items tickIsDue,
    c.nextWake answer items tickIsDue = d.nextWake answer items tickIsDue

/-- Two controllers that have done the same agree once one budget has given them all of their
notices. -/
theorem Beside.agree (h : Beside c d) {b : Budget} {j : Journal σ} {j' : Journal τ}
    (ha : Accounts b j c) (ha' : Accounts b j' d)
    (hread : j.found.map c.archive.reading = j'.found.map d.archive.reading) : Agree c d := by
  have hnotices : c.checks.map Check.notice = d.checks.map Check.notice := by
    rw [ha.notices, hread, ← ha'.notices]
  have hsummarize : c.budget.summarize = d.budget.summarize := congrArg Core.summarize h.core
  have hbudget : ({ c.budget with summarize := b.summarize } : Budget) =
      { d.budget with summarize := b.summarize } := by
    rw [ha.budget, hread, ← ha'.budget]
  constructor
  · exact h.core
  · exact congrArg Core.session h.core
  · calc
      c.budget = { { c.budget with summarize := b.summarize } with
          summarize := c.budget.summarize } := rfl
      _ = { { d.budget with summarize := b.summarize } with
          summarize := d.budget.summarize } := by rw [hbudget, hsummarize]
      _ = d.budget := rfl
  · exact h.requests
  · exact h.events hnotices
  · exact h.records
  · exact h.nextWake_eq

/-- **A store that refuses steers nothing.** Two runs have the same operations, over archives that
take and refuse records as they like and may change in any way between two operations; but whenever
the budget is checked, both archives say the same. Then the same is returned by each operation, and
all along the runs the same is to be seen: sessions with their states, texts and failures, requests,
records handed in, and events but for the warnings. Of these each run has one for each record that
was refused, in order; and whatever is refused, the records are those that the prompts and the ends
of the sessions call for, the answer of a session behind its message. -/
theorem run_unmoved_by_refusals (archive : Archive σ) (store : σ) (archive' : Archive τ)
    (store' : τ) (config : Config) (transportName : String) {ops : List (Op σ)}
    {ops' : List (Op τ)} (hsame : List.Forall₂ Op.Alike ops ops')
    (hmeter : (new archive store config transportName).readings ops =
      (new archive' store' config transportName).readings ops') :
    (new archive store config transportName).returns ops =
        (new archive' store' config transportName).returns ops' ∧
      ∀ n,
        Agree ((new archive store config transportName).run (ops.take n))
            ((new archive' store' config transportName).run (ops'.take n)) ∧
          ((new archive store config transportName).run (ops.take n)).Warns ∧
          ((new archive' store' config transportName).run (ops'.take n)).Warns ∧
          ((new archive store config transportName).run (ops.take n)).offers.map
              (fun o ↦ o.record.entry) =
            (((ops.take n).filterMap (Op.prompt? config)).zip
              ((new archive store config transportName).run (ops.take n)).finales).flatMap
                fun (p, f) ↦ f.entries config p := by
  have hnew := beside_new archive store archive' store' config transportName
  refine ⟨hnew.returns_eq hsame, fun n ↦ ?_⟩
  have hrun := hnew.run (List.forall₂_take n hsame)
  have ha := (accounts_new archive store config transportName).run rfl (ops.take n)
  have ha' := (accounts_new archive' store' config transportName).run rfl (ops'.take n)
  have hlater := later_run (new archive store config transportName) (ops.take n)
  have hlater' := later_run (new archive' store' config transportName) (ops'.take n)
  have hfiled := filed_run archive store config transportName (ops.take n)
  refine ⟨hrun.agree ha ha' ?_, hrun.warns, hrun.warns', ?_⟩
  · have hread := readings_take (new archive store config transportName) ops n
    have hread' := readings_take (new archive' store' config transportName) ops' n
    have hlength : ((new archive store config transportName).readings (ops.take n)).length =
        ((new archive' store' config transportName).readings (ops'.take n)).length := by
      have hcounts := congrArg List.length ha.counts
      have hcounts' := congrArg List.length ha'.counts
      simp only [List.length_map] at hcounts hcounts'
      rw [readings, readings, List.length_map, List.length_map]
      exact hcounts.symm.trans (hrun.checks.trans hcounts')
    rw [← hmeter] at hread'
    rw [hlater.archive, hlater'.archive]
    exact (List.prefix_of_prefix_length_le hread hread' hlength.le).eq_of_length hlength
  · rw [hfiled.entries, hlater.config]
    rfl

/-- A message whose answer comes to its end, and a check of the budget. -/
def oneChecked : List (Op Ledger) :=
  [.begin { message := "hi" },
    .step { now := 0, wake := .answer (.ok 0) },
    .step { now := 0, wake := .item (some (.ok
      "data: \x7b\"content\":\"a\",\"done\":true\x7d\n".toUTF8.toList)) },
    .measure]

/-- The message is refused in one run and taken in the other, and its answer is handed in. -/
theorem run_unmoved_by_refusals_oneChecked :
    ((new Ledger.archive { history := {}, refusals := [0], readings := some [⟨9, 10⟩] } {}
        "scripted").run oneChecked).refusals = [⟨"disk full"⟩] ∧
      ((new Ledger.archive { history := {}, refusals := [0], readings := some [⟨9, 10⟩] } {}
        "scripted").run oneChecked).offers.map (fun o ↦ o.record.content) = ["hi", "a"] ∧
      Agree
        ((new Ledger.archive { history := {}, refusals := [0], readings := some [⟨9, 10⟩] } {}
          "scripted").run oneChecked)
        ((new Ledger.archive { history := {}, readings := some [⟨9, 10⟩] } {}
          "scripted").run oneChecked) := by
  refine ⟨by decide +kernel, by decide +kernel, ?_⟩
  have hsame : List.Forall₂ Op.Alike oneChecked oneChecked :=
    List.forall₂_same.mpr fun op _ ↦ op.alike_refl
  have hmeter : (new Ledger.archive
        { history := {}, refusals := [0], readings := some [⟨9, 10⟩] } {} "scripted").readings
          oneChecked =
      (new Ledger.archive { history := {}, readings := some [⟨9, 10⟩] } {} "scripted").readings
        oneChecked := by decide +kernel
  obtain ⟨-, hagree⟩ := run_unmoved_by_refusals _ _ _ _ _ _ hsame hmeter
  exact (hagree oneChecked.length).1

end Controller

end ChatStream
