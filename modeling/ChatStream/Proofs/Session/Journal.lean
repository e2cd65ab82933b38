import ChatStream.Proofs.Budget.Readings
import ChatStream.Proofs.Session.Protocol
import ChatStream.Proofs.Session.Tandem

/-!
# The checks of a run

A controller writes down that it checked its budget, and behind it the notice that was due. Of the
reading it keeps only the size of the conversation: what was in the archive just then is not among
its deeds. But the records handed in are, and what an archive becomes with a record is known, so the
archive can be followed along the deeds. `Controller.journal` does so for a run, and keeps the state
of the archive at each check.

`Accounts` is the invariant: the journal never loses the archive, and the checks of a run have the
notices that come of their readings when one budget takes them one after another. It is carried
through an operation by a `Tandem` of a controller with itself, so that only a record and a check
have to be looked at.
-/

namespace ChatStream

/-! ## The checks among the deeds -/

/-- The notice that a deed shows. -/
def Deed.notice? : Deed → Option NearLimit
  | .shown (.budgetNearLimit tokens limit) => some { tokens, limit }
  | _ => none

/-- The checks written down, with one more deed: a new check, or the notice of the last one. -/
def Check.enter (ks : List Check) : Deed → List Check
  | .measured count => ks ++ [{ count, notice := none }]
  | .shown (.budgetNearLimit tokens limit) =>
    match ks.getLast? with
    | some k => ks.dropLast ++ [{ k with notice := some { tokens, limit } }]
    | none => []
  | _ => ks

/-- The checks that are written down in deeds, after those that were. -/
def Check.read (ks : List Check) (ds : List Deed) : List Check := ds.foldl Check.enter ks

/-- The state of an archive as it can be told from what a controller did, and the states in which
the checks found it. -/
structure Journal (σ : Type) where
  store : σ
  found : List σ := []

namespace Journal

variable {σ : Type}

/-- The journal with one more deed. -/
def enter (archive : Archive σ) (j : Journal σ) : Deed → Journal σ
  | .committed r _ => { j with store := (archive.commit j.store r).state }
  | .measured count => { store := (archive.usage j.store count).1, found := j.found ++ [j.store] }
  | _ => j

/-- The journal with more deeds. -/
def follow (archive : Archive σ) (j : Journal σ) (ds : List Deed) : Journal σ :=
  ds.foldl (enter archive) j

end Journal

/-- What the archive says of the conversation in that state. -/
def Archive.reading {σ : Type} (archive : Archive σ) (store : σ) : Usage :=
  (archive.usage store (archive.size store)).2

namespace Controller

variable {σ : Type}

/-- The checks of the budget, oldest first. -/
def checks (c : Controller σ) : List Check := Check.read [] c.outline

/-- The journal after an operation. -/
def journalOf (c : Controller σ) (j : Journal σ) : Op σ → Journal σ
  | .changeStore change => { j with store := change j.store }
  | op => j.follow c.archive ((c.apply op).outline.drop c.outline.length)

/-- The journal after a run. -/
def journal (c : Controller σ) (j : Journal σ) : List (Op σ) → Journal σ
  | [] => j
  | op :: ops => (c.apply op).journal (c.journalOf j op) ops

/-- What the archive says at each check of a run. -/
def readings (c : Controller σ) (ops : List (Op σ)) : List Usage :=
  (c.journal { store := c.store } ops).found.map c.archive.reading

end Controller

/-! ## What a record and a check enter -/

theorem Check.read_append (ks : List Check) (ds ds' : List Deed) :
    Check.read ks (ds ++ ds') = Check.read (Check.read ks ds) ds' :=
  List.foldl_append

theorem Check.enter_of_isOwn (ks : List Check) {d : Deed} (hd : d.isOwn = true) :
    Check.enter ks d = ks := by
  unfold Check.enter
  split
  · cases hd
  · cases hd
  · rfl

theorem Check.read_of_isOwn (ks : List Check) {ds : List Deed} (hds : ∀ d ∈ ds, d.isOwn = true) :
    Check.read ks ds = ks := by
  induction ds with
  | nil => rfl
  | cons d ds ih =>
    obtain ⟨hd, hds⟩ := List.forall_mem_cons.mp hds
    rw [Check.read, List.foldl_cons, Check.enter_of_isOwn ks hd]
    exact ih hds

theorem Check.read_offer (ks : List Check) (o : Offer) : Check.read ks o.deeds = ks := by
  rw [Offer.deeds, Offer.events]
  cases o.refusal <;> rfl

theorem Check.read_check (ks : List Check) (k : Check) : Check.read ks k.deeds = ks ++ [k] := by
  obtain ⟨count, _ | n⟩ := k
  · rfl
  · have hlast : Check.read ks (Check.deeds { count, notice := some n }) =
        Check.enter (ks ++ [{ count, notice := none }]) (.shown (.budgetNearLimit n.tokens n.limit)) :=
      rfl
    rw [hlast, Check.enter, List.getLast?_concat, List.dropLast_concat]

theorem notice?_of_isOwn {d : Deed} (hd : d.isOwn = true) : d.notice? = none := by
  unfold Deed.notice?
  split
  · cases hd
  · rfl

theorem Offer.filterMap_notice? (o : Offer) : o.deeds.filterMap Deed.notice? = [] := by
  rw [Offer.deeds, Offer.events]
  cases o.refusal <;> rfl

theorem Check.filterMap_notice? (k : Check) :
    k.deeds.filterMap Deed.notice? = k.notice.toList := by
  rw [Check.deeds, Check.events]
  cases k.notice <;> rfl

namespace Journal

variable {σ : Type} (archive : Archive σ) (j : Journal σ)

theorem follow_append (ds ds' : List Deed) :
    j.follow archive (ds ++ ds') = (j.follow archive ds).follow archive ds' :=
  List.foldl_append

theorem enter_of_isOwn {d : Deed} (hd : d.isOwn = true) : j.enter archive d = j := by
  unfold enter
  split
  · cases hd
  · cases hd
  · rfl

theorem follow_of_isOwn {ds : List Deed} (hds : ∀ d ∈ ds, d.isOwn = true) :
    j.follow archive ds = j := by
  induction ds with
  | nil => rfl
  | cons d ds ih =>
    obtain ⟨hd, hds⟩ := List.forall_mem_cons.mp hds
    rw [follow, List.foldl_cons, enter_of_isOwn archive j hd]
    exact ih hds

theorem follow_offer (o : Offer) :
    j.follow archive o.deeds = { j with store := (archive.commit j.store o.record).state } := by
  rw [Offer.deeds, Offer.events]
  cases o.refusal <;> rfl

theorem found_follow (ds : List Deed) : j.found <+: (j.follow archive ds).found := by
  induction ds generalizing j with
  | nil => exact List.prefix_refl _
  | cons d ds ih =>
    have hentered : j.found <+: (j.enter archive d).found := by
      unfold enter
      split
      · exact List.prefix_refl _
      · exact List.prefix_append _ _
      · exact List.prefix_refl _
    exact hentered.trans (ih _)

theorem follow_check (k : Check) :
    j.follow archive k.deeds =
      { store := (archive.usage j.store k.count).1, found := j.found ++ [j.store] } := by
  rw [Check.deeds, Check.events]
  cases k.notice <;> rfl

end Journal

namespace Controller

variable {σ : Type} {c c' : Controller σ}

/-! ## What a record and a check change -/

theorem measure_eq (c : Controller σ) :
    c.measure.1.store = (c.archive.usage c.store (c.archive.size c.store)).1 ∧
      c.measure.1.budget = (c.budget.observe (c.archive.reading c.store)).1 ∧
      c.measure.2 = (c.budget.observe (c.archive.reading c.store)).2 := by
  have htold (c : Controller σ) (l : LogLine) (e : ViewEvent) :
      ((c.note l).tell e).store = c.store ∧ ((c.note l).tell e).budget = c.budget := by
    obtain ⟨ds, h⟩ := (does_note c l).trans (does_tell _ e)
    rw [h]
    exact ⟨rfl, rfl⟩
  simp only [measure, Archive.reading]
  split
  · rename_i n hn
    exact ⟨(htold _ _ _).1, (htold _ _ _).2, hn.symm⟩
  · rename_i hn
    exact ⟨rfl, rfl, hn.symm⟩

theorem commit_eq (c : Controller σ) (r : Record) :
    (c.commit r).store = (c.archive.commit c.store r).state ∧ (c.commit r).budget = c.budget := by
  obtain ⟨ds, h⟩ := does_commit c r
  rw [h]
  exact ⟨rfl, rfl⟩

theorem checks_of_outline {ds : List Deed} (h : c'.outline = c.outline ++ ds) :
    c'.checks = Check.read c.checks ds := by
  rw [checks, h, Check.read_append, checks]

theorem outline_act_of_isOwn (c : Controller σ) {d : Deed} (hd : d.isOwn = true) :
    ∃ ds, (c.act d).outline = c.outline ++ ds ∧ ∀ d ∈ ds, d.isOwn = true := by
  rw [outline_act]
  refine ⟨_, rfl, fun d' hd' ↦ ?_⟩
  split_ifs at hd'
  · rwa [List.mem_singleton.mp hd']
  · cases hd'

theorem checks_act (c : Controller σ) {d : Deed} (hd : d.isOwn = true) :
    (c.act d).checks = c.checks := by
  obtain ⟨ds, houtline, hds⟩ := c.outline_act_of_isOwn hd
  rw [checks_of_outline houtline, Check.read_of_isOwn _ hds]

theorem checks_commit (hw : c.watched = true) (r : Record) : (c.commit r).checks = c.checks := by
  rw [checks_of_outline (outline_commit hw r), Check.read_offer]

theorem checks_measure (hw : c.watched = true) :
    c.measure.1.checks = c.checks ++ [c.checked] := by
  rw [checks_of_outline (outline_measure hw), Check.read_check]

/-! ## The journal keeps up -/

/-- The journal has the archive as it is, and the notices of the checks are those that a budget
gives when it takes their readings one after another. -/
structure Accounts (b : Budget) (j : Journal σ) (c : Controller σ) : Prop where
  store : j.store = c.store
  budget : { c.budget with summarize := b.summarize } =
    b.after (j.found.map c.archive.reading)
  notices : c.checks.map Check.notice = b.notices (j.found.map c.archive.reading)
  counts : c.checks.map Check.count = j.found.map c.archive.size
  shown : c.outline.filterMap Deed.notice? = c.checks.filterMap Check.notice

namespace Accounts

variable {b : Budget} {j : Journal σ}

/-- Neither is a record handed in nor the budget checked. -/
theorem of_isOwn (ha : Accounts b j c) {ds : List Deed} (houtline : c'.outline = c.outline ++ ds)
    (hds : ∀ d ∈ ds, d.isOwn = true) (harchive : c'.archive = c.archive)
    (hstore : c'.store = c.store)
    (hbudget : { c'.budget with summarize := b.summarize } =
      { c.budget with summarize := b.summarize }) : Accounts b j c' := by
  have hchecks : c'.checks = c.checks := by
    rw [checks_of_outline houtline, Check.read_of_isOwn _ hds]
  have hnone : ds.filterMap Deed.notice? = [] :=
    List.filterMap_eq_nil_iff.mpr fun d hd ↦ notice?_of_isOwn (hds d hd)
  constructor
  · exact ha.store.trans hstore.symm
  · rw [hbudget, harchive, ha.budget]
  · rw [hchecks, harchive, ha.notices]
  · rw [hchecks, harchive, ha.counts]
  · rw [houtline, List.filterMap_append, hnone, List.append_nil, hchecks, ha.shown]

theorem commit (ha : Accounts b j c) (hw : c.watched = true) (r : Record) :
    Accounts b (j.follow c.archive (c.offered r).deeds) (c.commit r) := by
  have houtline := outline_commit hw r
  have harchive := (keeps_commit c r).archive
  obtain ⟨hstore, hbudget⟩ := c.commit_eq r
  have hchecks := checks_commit hw r
  rw [Journal.follow_offer]
  constructor
  · rw [hstore, ← ha.store]
    rfl
  · rw [hbudget, harchive, ha.budget]
  · rw [hchecks, harchive, ha.notices]
  · rw [hchecks, harchive, ha.counts]
  · rw [houtline, List.filterMap_append, Offer.filterMap_notice?, List.append_nil, hchecks,
      ha.shown]

theorem measure (ha : Accounts b j c) (hw : c.watched = true) :
    Accounts b (j.follow c.archive c.checked.deeds) c.measure.1 := by
  have houtline := outline_measure hw
  have harchive := (keeps_measure c).archive
  obtain ⟨hstore, hbudget, hnotice⟩ := c.measure_eq
  have hchecks := checks_measure hw
  -- The budget that takes the readings differs from that of the controller in the request for a
  -- summary at most.
  have hobserve := c.budget.observe_summarize b.summarize (c.archive.reading c.store)
  rw [ha.budget] at hobserve
  rw [Journal.follow_check, ha.store]
  constructor
  · exact hstore.symm
  · rw [hbudget, harchive, List.map_append, List.map_singleton, Budget.after_append_singleton,
      hobserve]
  · rw [hchecks, harchive, List.map_append, List.map_append, List.map_singleton,
      List.map_singleton, Budget.notices_append_singleton, hobserve, ha.notices, checked, hnotice]
  · rw [hchecks, harchive, List.map_append, List.map_append, ha.counts]
    rfl
  · rw [houtline, List.filterMap_append, Check.filterMap_notice?, hchecks, List.filterMap_append,
      ha.shown]
    rfl

end Accounts

/-! ## Operations and runs -/

variable {b : Budget} {j : Journal σ}

/-- The first controller has become the second, and the journal has kept up with it. -/
def Follows (b : Budget) (j : Journal σ) (c c' : Controller σ) : Prop :=
  c'.archive = c.archive ∧ c'.watched = true ∧
    ∃ ds, c'.outline = c.outline ++ ds ∧ Accounts b (j.follow c.archive ds) c'

theorem Follows.extend {c'' : Controller σ} {ds : List Deed} (h : Follows b j c c')
    (harchive : c''.archive = c'.archive) (hwatched : c''.watched = c'.watched)
    (houtline : c''.outline = c'.outline ++ ds)
    (ha : ∀ j, Accounts b j c' → Accounts b (j.follow c'.archive ds) c'') :
    Follows b j c c'' := by
  obtain ⟨harchive', hwatched', ds', houtline', ha'⟩ := h
  refine ⟨harchive.trans harchive', hwatched.trans hwatched', ds' ++ ds, ?_, ?_⟩
  · rw [houtline, houtline', List.append_assoc]
  · rw [Journal.follow_append, ← harchive']
    rw [← harchive'] at ha'
    exact ha _ ha'

/-- A controller in tandem with itself, as long as a journal keeps up. -/
def followed (b : Budget) (j : Journal σ) (c₀ : Controller σ) : Tandem σ σ where
  rel c d := c = d ∧ Follows b j c₀ c
  core h := congrArg Controller.core h.1
  withCore := by
    rintro c _ ⟨rfl, h⟩ k
    refine ⟨rfl, h.extend rfl rfl (List.append_nil _).symm fun j ha ↦ ?_⟩
    exact ha.of_isOwn (List.append_nil _).symm (List.forall_mem_nil _) rfl rfl rfl
  act := by
    rintro c _ ⟨rfl, h⟩ x hx
    obtain ⟨ds, houtline, hds⟩ := c.outline_act_of_isOwn hx
    refine ⟨rfl, h.extend rfl rfl houtline fun j ha ↦ ?_⟩
    rw [Journal.follow_of_isOwn _ j hds]
    exact ha.of_isOwn houtline hds rfl rfl rfl
  commit := by
    rintro c _ ⟨rfl, h⟩ r
    have hkeeps := keeps_commit c r
    exact ⟨rfl, h.extend hkeeps.archive hkeeps.watched (outline_commit h.2.1 r)
      fun j ha ↦ ha.commit h.2.1 r⟩
  measure := by
    rintro c _ ⟨rfl, h⟩
    have hkeeps := keeps_measure c
    exact ⟨rfl, h.extend hkeeps.archive hkeeps.watched (outline_measure h.2.1)
      fun j ha ↦ ha.measure h.2.1⟩

theorem journalOf_of_not_change {op : Op σ} (hop : op.isChange = false) :
    c.journalOf j op = j.follow c.archive ((c.apply op).outline.drop c.outline.length) := by
  cases op with
  | changeStore => cases hop
  | _ => rfl

/-- **The journal keeps up** with every operation. -/
theorem Accounts.apply (ha : Accounts b j c) (hw : c.watched = true) (op : Op σ) :
    Accounts b (c.journalOf j op) (c.apply op) := by
  cases hop : op.isChange with
  | true =>
    cases op with
    | changeStore change =>
      exact ⟨congrArg change ha.store, ha.budget, ha.notices, ha.counts, ha.shown⟩
    | _ => cases hop
  | false =>
    have hstart : (followed b j c).rel c c :=
      ⟨rfl, rfl, hw, [], (List.append_nil _).symm, ha⟩
    obtain ⟨-, -, -, ds, houtline, ha'⟩ :=
      (followed b j c).apply hstart (Op.alike_refl op) hop
    rw [journalOf_of_not_change hop, houtline, List.drop_left]
    exact ha'

theorem Accounts.run (ha : Accounts b j c) (hw : c.watched = true) (ops : List (Op σ)) :
    Accounts b (c.journal j ops) (c.run ops) := by
  induction ops generalizing c j with
  | nil => exact ha
  | cons op ops ih => exact ih (ha.apply hw op) ((c.later_apply op).watched.trans hw)

/-! ## The first part of a run -/

theorem journal_append (c : Controller σ) (j : Journal σ) (ops more : List (Op σ)) :
    c.journal j (ops ++ more) = (c.run ops).journal (c.journal j ops) more := by
  induction ops generalizing c j with
  | nil => rfl
  | cons op ops ih => exact ih (c.apply op) (c.journalOf j op)

theorem found_journalOf (c : Controller σ) (j : Journal σ) (op : Op σ) :
    j.found <+: (c.journalOf j op).found := by
  cases hop : op.isChange with
  | true =>
    cases op with
    | changeStore => exact List.prefix_refl _
    | _ => cases hop
  | false =>
    rw [journalOf_of_not_change hop]
    exact j.found_follow _ _

theorem found_journal (c : Controller σ) (j : Journal σ) (ops : List (Op σ)) :
    j.found <+: (c.journal j ops).found := by
  induction ops generalizing c j with
  | nil => exact List.prefix_refl _
  | cons op ops ih => exact (c.found_journalOf j op).trans (ih _ _)

/-- What is read in the first part of a run is what the whole run reads first. -/
theorem readings_take (c : Controller σ) (ops : List (Op σ)) (n : Nat) :
    c.readings (ops.take n) <+: c.readings ops := by
  have hfound := (c.run (ops.take n)).found_journal
    (c.journal { store := c.store } (ops.take n)) (ops.drop n)
  rw [← journal_append, List.take_append_drop] at hfound
  exact hfound.map _

theorem accounts_new (archive : Archive σ) (store : σ) (config : Config)
    (transportName : String) :
    Accounts (.new config.contextLimit config.nearFraction) { store }
      (new archive store config transportName) :=
  ⟨rfl, rfl, rfl, rfl, rfl⟩

end Controller

end ChatStream
