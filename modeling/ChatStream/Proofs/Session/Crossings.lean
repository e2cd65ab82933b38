import ChatStream.Proofs.Session.Finales
import ChatStream.Proofs.Session.Journal

/-!
# When a conversation comes near its limit

A history is at once where the records go and what is measured, so what a check reads is what the
history keeps just then: pruned, cleared or not. A notice is due where that comes to the threshold
and did not at the check before. `nearLimit_notices` says so for all runs, with the history of each
check taken from the journal.

## Which checks there are

The chronicle of a run has a check in each closing, behind the records, and besides those the checks
that were asked for. `Chronicle.checks` lists them in order, and they are the checks of the run.
-/

namespace ChatStream

/-! ## Readings under one limit -/

/-- Under one limit the window is the same for every reading. -/
theorem Budget.getElem?_notices_of_forall {limit : Nat} {us : List Usage}
    (hus : ∀ u ∈ us, u.limit = limit) (b : Budget) {i : Nat} (hi : i < us.length) :
    (b.notices us)[i]? = some
      (if b.nearAt (b.windowFor limit) us[i].tokens = true ∧
          (if i = 0 then b.notified else b.nearAt (b.windowFor limit) us[i - 1].tokens) = false then
        some { tokens := us[i].tokens, limit := b.windowFor limit }
      else none) := by
  have hwindow {j : Nat} (hj : j < us.length) :
      windowAfter b.limit (us.take (j + 1)) = b.windowFor limit := by
    refine windowAfter_of_forall (fun u hu ↦ hus u (List.mem_of_mem_take hu)) ?_ b
    exact List.ne_nil_of_length_pos (by rw [List.length_take]; omega)
  have hnear {j : Nat} (hj : j < us.length) :
      b.isNearAt us j = b.nearAt (b.windowFor limit) us[j].tokens := by
    rw [isNearAt, List.getElem?_eq_getElem hj, Option.any_some, hwindow hj]
  have hwas : b.wasNear us i =
      if i = 0 then b.notified else b.nearAt (b.windowFor limit) us[i - 1].tokens := by
    cases i with
    | zero => rfl
    | succ i => exact hnear (Nat.lt_of_succ_lt hi)
  rw [getElem?_notices, List.getElem?_eq_getElem hi, Option.map_some, hnear hi, hwas, hwindow hi]

/-! ## The checks of a chronicle -/

def Passage.checks : Passage → List Check
  | .frame .. => []
  | .check k => [k]

/-- The check at the end, and those after it. -/
def Closing.checks (k : Closing) : List Check := k.check :: k.later

def Block.checks (b : Block) : List Check :=
  b.passages.flatMap Passage.checks ++ b.closing.toList.flatMap Closing.checks

/-- All checks, in order. -/
def Chronicle.checks (h : Chronicle) : List Check :=
  h.before ++ h.blocks.flatMap Block.checks

theorem Check.read_flatMap {α : Type} {deeds : α → List Deed} (checks : α → List Check)
    (h : ∀ a ks, Check.read ks (deeds a) = ks ++ checks a) (as : List α) (ks : List Check) :
    Check.read ks (as.flatMap deeds) = ks ++ as.flatMap checks := by
  induction as generalizing ks with
  | nil => exact (List.append_nil ks).symm
  | cons a as ih =>
    rw [List.flatMap_cons, Check.read_append, h, ih, List.flatMap_cons, List.append_assoc]

theorem Check.read_flatMap_deeds (ks ks' : List Check) :
    Check.read ks (ks'.flatMap Check.deeds) = ks ++ ks' := by
  rw [Check.read_flatMap (fun k ↦ [k]) (fun k ks ↦ Check.read_check ks k),
    List.flatMap_singleton']

theorem Passage.read_deeds (session : Nat) (p : Passage) (ks : List Check) :
    Check.read ks (p.deeds session) = ks ++ p.checks := by
  cases p with
  | frame d hd => exact (List.append_nil ks).symm
  | check k => exact Check.read_check ks k

theorem Closing.read_deeds (session : Nat) (committed : String) (k : Closing) (ks : List Check) :
    Check.read ks (k.deeds session committed) = ks ++ k.checks := by
  have hoffers : Check.read ks (k.offers.flatMap Offer.deeds) = ks := by
    rw [Check.read_flatMap (fun _ ↦ []) (fun o ks ↦ ?_)]
    · simp
    · rw [Check.read_offer, List.append_nil]
  have hending (ks : List Check) : Check.read ks (k.ending.events.map .shown) = ks := by
    cases k.ending <;> rfl
  have hown (ks : List Check) {d : Deed} (hd : d.isOwn = true) (ds : List Deed) :
      Check.read ks (d :: ds) = Check.read ks ds := by
    rw [Check.read, List.foldl_cons, Check.enter_of_isOwn ks hd, Check.read]
  rw [Closing.deeds, Check.read_append, Check.read_append, Check.read_append, hown ks rfl, hoffers,
    hown ks rfl, hending, Check.read_check, Check.read_flatMap_deeds, List.append_assoc,
    List.singleton_append, Closing.checks]

theorem Block.read_deeds (b : Block) (ks : List Check) :
    Check.read ks b.deeds = ks ++ b.checks := by
  have hopening (ds : List Deed) :
      Check.read ks (.shown (.sessionStarted b.session b.model) ::
        .shown (.stateChanged b.session .streaming) :: ds) = Check.read ks ds := rfl
  rw [Block.deeds, List.cons_append, List.cons_append, hopening, Check.read_append,
    Check.read_flatMap _ (Passage.read_deeds b.session),
    Check.read_flatMap _ (Closing.read_deeds b.session b.painted), List.append_assoc, Block.checks]

theorem Chronicle.read_deeds (h : Chronicle) : Check.read [] h.deeds = h.checks := by
  rw [Chronicle.deeds, Check.read_append, Check.read_flatMap_deeds, List.nil_append,
    Check.read_flatMap _ Block.read_deeds, Chronicle.checks]

theorem Check.read_filter_isTraced (ks : List Check) (ds : List Deed) :
    Check.read ks (ds.filter Deed.isTraced) = Check.read ks ds := by
  induction ds generalizing ks with
  | nil => rfl
  | cons d ds ih =>
    have hcons : Check.read ks (d :: ds) = Check.read (Check.enter ks d) ds := rfl
    cases d with
    | shown e => exact ih _
    | committed r refusal => exact ih _
    | measured count => exact ih _
    | asked r | logged l => exact ih ks

/-- The checks of a controller are those of its chronicle. -/
theorem Chronicle.Tells.checks_eq {σ : Type} {c : Controller σ} {h : Chronicle} (ht : h.Tells c) :
    c.checks = h.checks := by
  rw [Controller.checks, ← Check.read_filter_isTraced, ← c.trace_eq_filter_outline, ht.trace,
    h.read_deeds]

theorem Block.length_checks (b : Block) :
    b.checks.length = (if b.closing.isSome then 1 else 0) + b.asides := by
  have hpassages (ps : List Passage) : (ps.flatMap Passage.checks).length =
      Block.asides { session := b.session, model := b.model, passages := ps } := by
    induction ps with
    | nil => rfl
    | cons p ps ih =>
      rw [List.flatMap_cons, List.length_append, ih]
      simp only [asides, List.countP_cons]
      cases p with
      | frame d hd => simp [Passage.checks]
      | check k => simp [Passage.checks, Nat.add_comm]
  have hasides : b.asides =
      Block.asides { session := b.session, model := b.model, passages := b.passages } +
        (b.closing.map fun k ↦ k.later.length).getD 0 := rfl
  rw [checks, List.length_append, hpassages, hasides]
  cases b.closing with
  | none => simp
  | some k =>
    have hclosing : ([k].flatMap Closing.checks).length = 1 + k.later.length := by
      rw [List.flatMap_singleton, Closing.checks, List.length_cons, Nat.add_comm]
    rw [Option.toList_some, hclosing]
    simp only [Option.isSome_some, Option.map_some, Option.getD_some, ↓reduceIte]
    omega

/-- There is one check for each session that has ended, and besides those the ones on demand. -/
theorem Chronicle.length_checks (h : Chronicle) :
    h.checks.length = (h.blocks.filterMap Block.finale?).length + h.asides := by
  have hblocks (bs : List Block) : (bs.flatMap Block.checks).length =
      (bs.filterMap Block.finale?).length + (bs.map Block.asides).sum := by
    induction bs with
    | nil => rfl
    | cons b bs ih =>
      rw [List.flatMap_cons, List.length_append, ih, b.length_checks, List.filterMap_cons,
        Block.finale?]
      cases b.closing with
      | none => simp; omega
      | some k => simp; omega
  rw [checks, List.length_append, hblocks, asides]
  omega

/-- The notice that an event is. -/
def ViewEvent.notice? : ViewEvent → Option NearLimit
  | .budgetNearLimit tokens limit => some { tokens, limit }
  | _ => none

/-! ## Histories -/

namespace History

/-- The tokens of all records that are kept. -/
def total (t : History) : Nat := (t.records.map recordTokens).sum

/-- The context window in force: that of the history, or else the one that is set, which is one at
least. -/
def window (t : History) (config : Config) : Nat :=
  if 0 < t.contextLimit then t.contextLimit else max config.contextLimit 1

/-- The records that are kept come to the threshold for the window in force. -/
def IsNear (t : History) (config : Config) : Prop :=
  { Budget.new config.contextLimit config.nearFraction with limit := t.window config }.threshold ≤
    min maxTokens t.total

instance (t : History) (config : Config) : Decidable (t.IsNear config) :=
  inferInstanceAs (Decidable (_ ≤ _))

theorem foldl_min_add (m : Nat) (rs : List Record) (n : Nat) :
    rs.foldl (fun sum r ↦ min m (sum + recordTokens r)) (min m n) =
      min m (n + (rs.map recordTokens).sum) := by
  induction rs generalizing n with
  | nil => rfl
  | cons r rs ih =>
    have hstep : min m (min m n + recordTokens r) = min m (n + recordTokens r) := by omega
    rw [List.foldl_cons, hstep, ih, List.map_cons, List.sum_cons, Nat.add_assoc]

/-- What is read of a history is all that it keeps. -/
theorem reading_archive (t : History) :
    archive.reading t = { tokens := min maxTokens t.total, limit := t.contextLimit } := by
  have hall : t.records.drop (t.records.length - t.size) = t.records := by
    rw [size, Nat.sub_self, List.drop_zero]
  have htokens := foldl_min_add maxTokens t.records 0
  rw [Nat.zero_add, Nat.min_zero] at htokens
  rw [Archive.reading, archive]
  simp only [usage, hall]
  rw [htokens, total]

theorem windowFor_new (t : History) (config : Config) :
    (Budget.new config.contextLimit config.nearFraction).windowFor t.contextLimit =
      t.window config := rfl

/-- What is known of a budget that reads histories under one limit, one after another. -/
theorem getElem?_notices (config : Config) {limit : Nat} {ts : List History}
    (hts : ∀ t ∈ ts, t.contextLimit = limit) {i : Nat} (hi : i < ts.length) :
    ((Budget.new config.contextLimit config.nearFraction).notices
        (ts.map archive.reading))[i]? = some
      (if ts[i].IsNear config ∧ (i = 0 ∨ ¬ ts[i - 1].IsNear config) then
        some { tokens := min maxTokens ts[i].total, limit := ts[i].window config }
      else none) := by
  have hus : ∀ u ∈ ts.map archive.reading, u.limit = limit := by
    intro u hu
    obtain ⟨t, ht, rfl⟩ := List.mem_map.mp hu
    rw [reading_archive]
    exact hts t ht
  have hwindow (j : Nat) (hj : j < ts.length) :
      (Budget.new config.contextLimit config.nearFraction).windowFor limit =
        ts[j].window config := by
    rw [← hts _ (List.getElem_mem hj), windowFor_new]
  have hnear (j : Nat) (hj : j < ts.length) :
      (Budget.new config.contextLimit config.nearFraction).nearAt
          ((Budget.new config.contextLimit config.nearFraction).windowFor limit)
          (min maxTokens ts[j].total) = true ↔ ts[j].IsNear config := by
    rw [hwindow j hj]
    exact decide_eq_true_iff
  have hi' : i < (ts.map archive.reading).length := by rwa [List.length_map]
  rw [Budget.getElem?_notices_of_forall hus _ hi']
  simp only [List.getElem_map, reading_archive]
  refine congrArg some (if_congr (and_congr (hnear i hi) ?_) ?_ rfl)
  · rw [← hnear (i - 1) (by omega)]
    by_cases hzero : i = 0
    · simp [hzero, Budget.new]
    · simp [hzero]
  · rw [hwindow i hi]

end History

namespace Controller

variable {σ : Type}

/-! ## What every check finds -/

/-- What an archive keeps through records and readings, a journal keeps as well. -/
theorem forall_mem_found_follow {archive : Archive σ} {P : σ → Prop}
    (hcommit : ∀ store r, P store → P (archive.commit store r).state)
    (husage : ∀ store count, P store → P (archive.usage store count).1) {j : Journal σ}
    (hj : P j.store ∧ ∀ store ∈ j.found, P store) (ds : List Deed) :
    P (j.follow archive ds).store ∧ ∀ store ∈ (j.follow archive ds).found, P store := by
  induction ds generalizing j with
  | nil => exact hj
  | cons d ds ih =>
    refine ih ?_
    unfold Journal.enter
    split
    · exact ⟨hcommit _ _ hj.1, hj.2⟩
    · refine ⟨husage _ _ hj.1, ?_⟩
      exact List.forall_mem_append.mpr ⟨hj.2, List.forall_mem_singleton.mpr hj.1⟩
    · exact hj

/-- What an archive keeps through every record, every reading and every change of a run, it has at
each check. -/
theorem forall_mem_found {c : Controller σ} {P : σ → Prop} {ops : List (Op σ)}
    (hcommit : ∀ store r, P store → P (c.archive.commit store r).state)
    (husage : ∀ store count, P store → P (c.archive.usage store count).1)
    (hchange : ∀ change, .changeStore change ∈ ops → ∀ store, P store → P (change store))
    {j : Journal σ} (hj : P j.store ∧ ∀ store ∈ j.found, P store) :
    ∀ store ∈ (c.journal j ops).found, P store := by
  induction ops generalizing c j with
  | nil => exact hj.2
  | cons op ops ih =>
    have harchive := (c.later_apply op).archive
    rw [← harchive] at hcommit husage
    refine ih hcommit husage (fun change hmem ↦ hchange change (List.mem_cons_of_mem _ hmem)) ?_
    rw [harchive] at hcommit husage
    cases hop : op.isChange with
    | true =>
      cases op with
      | changeStore change => exact ⟨hchange change List.mem_cons_self _ hj.1, hj.2⟩
      | _ => cases hop
    | false =>
      rw [journalOf_of_not_change hop]
      exact forall_mem_found_follow hcommit husage hj _

/-! ## Near-limit notices -/

/-- The states in which the checks of a run found the archive. -/
def found (c : Controller σ) (ops : List (Op σ)) : List σ :=
  (c.journal { store := c.store } ops).found

theorem contextLimit_of_mem_found (t : History) (config : Config) (transportName : String)
    {ops : List (Op History)}
    (hops : ∀ change, .changeStore change ∈ ops → ∀ t, (change t).contextLimit = t.contextLimit) :
    ∀ t' ∈ (new History.archive t config transportName).found ops,
      t'.contextLimit = t.contextLimit := by
  have hbegins : ∀ t' ∈ ({ store := t } : Journal History).found,
      t'.contextLimit = t.contextLimit := List.forall_mem_nil _
  exact forall_mem_found (P := fun t' ↦ t'.contextLimit = t.contextLimit)
    (c := new History.archive t config transportName) (j := { store := t })
    (fun t' r ht' ↦ ht') (fun t' count ht' ↦ ht')
    (fun change hmem t' ht' ↦ (hops change hmem t').trans ht') ⟨rfl, hbegins⟩

theorem filterMap_events_notice? (c : Controller σ) :
    c.events.filterMap ViewEvent.notice? = c.outline.filterMap Deed.notice? := by
  have hnotice (d : Deed) : d.notice? = d.event?.bind ViewEvent.notice? := by
    cases d with
    | shown e => cases e <;> rfl
    | _ => rfl
  rw [filterMap_outline (fun _ ↦ rfl), funext hnotice, ← List.filterMap_filterMap]
  rfl

/-- What is known of the notices of a run in which the budget was checked so often on demand, and
the checks found those histories. -/
structure Notices (config : Config) (c : Controller History) (found : List History)
    (demanded : Nat) : Prop where
  /-- The checks stand in the closings, each behind its records, and where they were asked for. -/
  chronicle : ∃ h : Chronicle, h.Tells c ∧ h.checks = c.checks ∧ h.asides = demanded
  length : c.checks.length = c.finales.length + demanded
  counts : c.checks.map Check.count = found.map History.size
  shown : c.events.filterMap ViewEvent.notice? = c.checks.filterMap Check.notice
  notices : ∀ i (hi : i < found.length),
    (c.checks.map Check.notice)[i]? = some
      (if found[i].IsNear config ∧ (i = 0 ∨ ¬ found[i - 1].IsNear config) then
        some { tokens := min maxTokens found[i].total, limit := found[i].window config }
      else none)

/-- **Near-limit notices.** A history is both where the records go and what is measured, and in a
run it may be cleared between two operations, or changed in any way that leaves its context limit.
The budget is checked once at the end of each session, behind its records, and once whenever that
is asked for. A notice is shown at a check if and only if the history that it finds is near the
limit, and it is the first check or the one before found a history that was not; the notice has the
tokens of all records kept and the window in force. -/
theorem nearLimit_notices (t : History) (config : Config) (transportName : String)
    {ops : List (Op History)}
    (hops : ∀ change, .changeStore change ∈ ops → ∀ t, (change t).contextLimit = t.contextLimit) :
    Notices config ((new History.archive t config transportName).run ops)
      ((new History.archive t config transportName).found ops) (ops.countP Op.isMeasure) := by
  obtain ⟨h, ht, hasides, -⟩ :=
    (Chronicle.Tells.new History.archive t config transportName).run ops
  rw [show (({} : Chronicle).asides) = 0 from rfl, Nat.zero_add] at hasides
  have ha := (accounts_new History.archive t config transportName).run rfl ops
  have hlater := later_run (new History.archive t config transportName) ops
  have hlimit := contextLimit_of_mem_found t config transportName hops
  refine ⟨⟨h, ht, ht.checks_eq.symm, hasides⟩, ?_, ?_, ?_, ?_⟩
  · rw [ht.checks_eq, h.length_checks, ht.finales_eq, hasides]
  · rw [ha.counts, hlater.archive]
    rfl
  · rw [filterMap_events_notice?, ha.shown]
  · intro i hi
    rw [ha.notices, hlater.archive]
    exact History.getElem?_notices config hlimit hi

/-- A message that fills the window, a check, and the same again over a cleared history. -/
def filledTwice : List (Op History) :=
  [.begin { message := "twenty-nine letters are eight" }, .cancel, .measure,
    .changeStore History.clear, .measure,
    .begin { message := "twenty-nine letters are eight" }, .cancel]

theorem nearLimit_notices_filledTwice :
    Notices { contextLimit := 10 }
        ((new History.archive {} { contextLimit := 10 } "scripted").run filledTwice)
        ((new History.archive {} { contextLimit := 10 } "scripted").found filledTwice) 2 ∧
      ((new History.archive {} { contextLimit := 10 } "scripted").run filledTwice).checks.map
        Check.notice = [some ⟨8, 10⟩, none, none, some ⟨8, 10⟩] := by
  refine ⟨nearLimit_notices {} { contextLimit := 10 } "scripted" ?_, by decide +kernel⟩
  intro change hmem t
  simp only [filledTwice, List.mem_cons, reduceCtorEq, Op.changeStore.injEq, List.not_mem_nil,
    false_or, or_false] at hmem
  rw [hmem]
  rfl

end Controller

end ChatStream
