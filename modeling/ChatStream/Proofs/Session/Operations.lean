import ChatStream.Proofs.Session.Moves

/-!
# What an operation comes to

An operation checks the budget, says something about a summary, begins a session, or takes the
session that there is further along its course. `Operates` is that choice with all that is known in
each case, and `operates` says that there is no other. What runs keep is therefore shown for four
kinds of operations, of which three are a few moves and the fourth is a check.

## Prompts in a run

Whether a prompt is taken depends on the prompt and the settings alone, never on what the controller
is doing. So the sessions of a run can be read off its operations: `Op.prompt?` gives the prompt of
which an operation begins a session, and the sessions are numbered by these.
-/

namespace ChatStream

/-! ## Operations -/

/-- Whether a session begins with a prompt: there is a message in it, and a model to send it to. -/
def Prompt.isTaken (config : Config) (p : Prompt) : Bool :=
  !Text.isBlankText p.message && !Text.isBlankText config.model

namespace Op

variable {σ : Type}

/-- The prompt of which an operation begins a session. -/
def prompt? (config : Config) : Op σ → Option Prompt
  | .begin p => if p.isTaken config then some p else none
  | .start p _ => if p.isTaken config then some p else none
  | _ => none

theorem prompt?_start (config : Config) (p : Prompt) (w : Wait) :
    (start p w : Op σ).prompt? config = (begin p : Op σ).prompt? config := rfl

theorem prompt?_begin_eq_some_iff {config : Config} {p q : Prompt} :
    (begin p : Op σ).prompt? config = some q ↔ p.isTaken config = true ∧ p = q := by
  rw [prompt?, Option.ite_none_right_eq_some, Option.some.injEq]

theorem prompt?_begin_eq_none_iff {config : Config} {p : Prompt} :
    (begin p : Op σ).prompt? config = none ↔ p.isTaken config = false := by
  rw [prompt?, ite_eq_right_iff, Bool.eq_false_iff]
  exact forall_congr' fun _ ↦ iff_of_false nofun id

/-- The sessions whose handles are cancelled in an operation. -/
def handles : Op σ → List Nat
  | .start _ w => w.cancelled
  | .step w => w.cancelled
  | .cancelHandle session => [session]
  | _ => []

/-- What an operation says about a summary: that there is to be one, or that there is not. -/
def summary? : Op σ → Option Bool
  | .acceptSummary => some true
  | .declineSummary => some false
  | _ => none

/-- Whether an operation may change the session that there is. -/
def touches : Op σ → Bool
  | .step _ => true
  | .cancel => true
  | .drop => true
  | _ => false

/-- The operation is one that takes the session further, or does nothing to it. -/
def GoesOn (config : Config) (op : Op σ) : Prop :=
  op.prompt? config = none ∧ op.summary? = none ∧ op.isMeasure = false

end Op

namespace Controller

variable {σ : Type} {c c' : Controller σ}

/-! ## Ends and beginnings -/

theorem isStreaming_finish (c : Controller σ) (e : Ending) : (c.finish e).isStreaming = false := by
  rw [Bool.eq_false_iff, Ne, isStreaming_iff]
  rintro ⟨s', hs', hl'⟩
  cases hs : c.session with
  | none =>
    rw [finish_of_none hs, hs] at hs'
    cases hs'
  | some s =>
    cases hl : s.isLive with
    | false =>
      rw [finish_of_not_live hs hl, hs, Option.some.injEq] at hs'
      rw [← hs', hl] at hl'
      cases hl'
    | true =>
      rw [(keeps_finish hs hl e).session, Option.some.injEq] at hs'
      rw [← hs'] at hl'
      cases hl'

theorem course_settle (c : Controller σ) : Course [] c c.settle := by
  rw [settle]
  split
  · exact course_noteFinish c _ .cancelled
  · exact .refl

theorem isStreaming_settle (c : Controller σ) : c.settle.isStreaming = false := by
  rw [settle]
  split
  · exact isStreaming_finish _ _
  · rename_i h
    exact Bool.eq_false_iff.mpr h

theorem config_settle (c : Controller σ) : c.settle.config = c.config := by
  rw [settle]
  split
  · rename_i hstreaming
    obtain ⟨s, hs, hl⟩ := isStreaming_iff.mp hstreaming
    exact (keeps_finish (c := c.note _) hs hl .cancelled).config
  · rfl

theorem refuses_eq_none_iff (c : Controller σ) (p : Prompt) :
    c.refuses p = none ↔ p.isTaken c.config = true := by
  rw [refuses, Prompt.isTaken]
  split_ifs with hmessage hmodel
  · simp [hmessage]
  · simp [hmodel]
  · simp [hmessage, hmodel]

/-- A prompt that is taken settles what there is and begins a session. -/
theorem begin_of_isTaken {p : Prompt} (h : p.isTaken c.config = true) :
    c.begin p = .ok (c.settle.launch p, c.settle.sessionsBegun) := by
  rw [begin_eq, (c.refuses_eq_none_iff p).mpr h]

theorem exists_begin_eq_error {p : Prompt} (h : p.isTaken c.config = false) :
    ∃ e, c.begin p = .error e := by
  rw [begin_eq]
  cases hrefuses : c.refuses p with
  | some e => exact ⟨e, rfl⟩
  | none =>
    rw [refuses_eq_none_iff, h] at hrefuses
    cases hrefuses

/-! ## Kinds of operations -/

/-- What an operation comes to, with what is known of it. -/
inductive Operates (c : Controller σ) : Op σ → Controller σ → Prop
  | measure : Operates c .measure c.measure.1
  | summary {op : Op σ} (summarize : Bool) (ls : List LogLine) : op.summary? = some summarize →
      op.prompt? c.config = none →
      Operates c op ({ c with budget := { c.budget with summarize } }.notes ls)
  | goesOn {op : Op σ} {c' : Controller σ} : op.GoesOn c.config → Course op.handles c c' →
      Operates c op c'
  | begins {op : Op σ} {c' : Controller σ} {p : Prompt} : op.prompt? c.config = some p →
      op.summary? = none → Course op.handles (c.settle.launch p) c' → Operates c op c'

theorem operates_begin (c : Controller σ) (p : Prompt) :
    Operates c (.begin p) (c.apply (.begin p)) := by
  rw [apply]
  cases htaken : p.isTaken c.config with
  | true =>
    rw [begin_of_isTaken htaken]
    exact .begins (Op.prompt?_begin_eq_some_iff.mpr ⟨htaken, rfl⟩) rfl .refl
  | false =>
    obtain ⟨e, he⟩ := exists_begin_eq_error htaken
    rw [he]
    exact .goesOn ⟨Op.prompt?_begin_eq_none_iff.mpr htaken, rfl, rfl⟩ .refl

theorem operates_start (c : Controller σ) (p : Prompt) (w : Wait) :
    Operates c (.start p w) (c.apply (.start p w)) := by
  have hprompt : (Op.start p w : Op σ).prompt? c.config = (Op.begin p : Op σ).prompt? c.config :=
    Op.prompt?_start c.config p w
  rw [apply, start]
  cases htaken : p.isTaken c.config with
  | true =>
    rw [begin_of_isTaken htaken]
    have hsome := hprompt.trans (Op.prompt?_begin_eq_some_iff.mpr ⟨htaken, rfl⟩)
    exact .begins hsome rfl (course_step _ w)
  | false =>
    obtain ⟨e, he⟩ := exists_begin_eq_error htaken
    rw [he]
    exact .goesOn ⟨hprompt.trans (Op.prompt?_begin_eq_none_iff.mpr htaken), rfl, rfl⟩ .refl

/-- **Every operation** is of one of the four kinds. -/
theorem operates (c : Controller σ) (op : Op σ) : Operates c op (c.apply op) := by
  cases op with
  | begin p => exact c.operates_begin p
  | start p w => exact c.operates_start p w
  | step w => exact .goesOn ⟨rfl, rfl, rfl⟩ (course_step c w)
  | cancel =>
    refine .goesOn ⟨rfl, rfl, rfl⟩ ?_
    rw [apply, cancel]
    split
    · exact course_finish c .cancelled
    · exact .refl
  | cancelHandle session =>
    exact .goesOn ⟨rfl, rfl, rfl⟩ (course_cancelHandle c List.mem_cons_self)
  | acceptSummary =>
    exact .summary true [{ level := .info, message := "Summarization accepted for next message" }]
      rfl rfl
  | declineSummary => exact .summary false [] rfl rfl
  | measure => exact .measure
  | drop =>
    refine .goesOn ⟨rfl, rfl, rfl⟩ ?_
    rw [apply, drop]
    split
    · exact course_noteFinish c _ .cancelled
    · exact .refl
  | passTime now =>
    exact .goesOn ⟨rfl, rfl, rfl⟩ (.single (.of_tokens (.time c now) rfl rfl rfl))
  | changeStore change =>
    exact .goesOn ⟨rfl, rfl, rfl⟩ (.single (.of_tokens (.store c change) rfl rfl rfl))

/-- An operation with a prompt that is taken settles what there is, begins a session and takes it
along its course. -/
theorem course_of_prompt {op : Op σ} {p : Prompt} (h : op.prompt? c.config = some p) :
    Course op.handles (c.settle.launch p) (c.apply op) := by
  have hop := c.operates op
  generalize c.apply op = c' at hop ⊢
  cases hop with
  | measure => cases h
  | summary _ _ _ hnone => cases hnone.symm.trans h
  | goesOn hgoes _ => cases hgoes.1.symm.trans h
  | begins hsome _ hcourse =>
    cases hsome.symm.trans h
    exact hcourse

/-- An operation that touches the session takes it along its course. -/
theorem course_of_touches {op : Op σ} (hop : op.prompt? c.config = none)
    (htouches : op.touches = true) : Course op.handles c (c.apply op) := by
  have hoperates := c.operates op
  generalize c.apply op = c' at hoperates ⊢
  cases hoperates with
  | measure => cases htouches
  | summary summarize ls hsummary =>
    -- What is said about a summary is not said to the session.
    cases op with
    | acceptSummary | declineSummary => cases htouches
    | _ => cases hsummary
  | goesOn _ hcourse => exact hcourse
  | begins hsome => cases hop.symm.trans hsome

theorem Course.summarize {handles : List Nat} (h : Course handles c c') :
    c'.budget.summarize = c.budget.summarize := by
  induction h with
  | refl => rfl
  | tail _ hwithin ih => exact hwithin.summarize.trans ih

/-- Every operation is made of moves, but for the check of the budget on demand. -/
theorem moves_apply (c : Controller σ) {op : Op σ} (h : op.isMeasure = false) :
    Moves c (c.apply op) := by
  have hop := c.operates op
  generalize c.apply op = c' at hop ⊢
  cases hop with
  | measure => cases h
  | summary summarize ls =>
    have hnotes : Course [] { c with budget := { c.budget with summarize } } _ := course_notes _ ls
    exact hnotes.moves.head (.summary c summarize)
  | goesOn _ hcourse => exact hcourse.moves
  | @begins _ _ p _ _ hcourse =>
    have hlaunched := c.course_settle.moves.tail (.launch p c.isStreaming_settle)
    exact hlaunched.trans hcourse.moves

/-! ## What never changes and what only grows -/

/-- The second controller is what the first may have become. -/
structure Later (c c' : Controller σ) : Prop where
  archive : c'.archive = c.archive
  config : c'.config = c.config
  watched : c'.watched = c.watched
  begun : c.sessionsBegun ≤ c'.sessionsBegun
  tokens : c.cancelledTokens ⊆ c'.cancelledTokens
  deeds : c.deeds <+: c'.deeds

theorem isCancelled_of_subset (htokens : c.cancelledTokens ⊆ c'.cancelledTokens) {n : Nat}
    (hn : c.isCancelled n = true) : c'.isCancelled n = true := by
  rw [isCancelled, List.contains_iff_mem] at hn ⊢
  exact htokens hn

namespace Later

theorem refl (c : Controller σ) : Later c c :=
  ⟨rfl, rfl, rfl, Nat.le_refl _, List.Subset.refl _, List.prefix_refl _⟩

theorem trans {c'' : Controller σ} (h : Later c c') (h' : Later c' c'') : Later c c'' where
  archive := h'.archive.trans h.archive
  config := h'.config.trans h.config
  watched := h'.watched.trans h.watched
  begun := h.begun.trans h'.begun
  tokens := List.Subset.trans h.tokens h'.tokens
  deeds := h.deeds.trans h'.deeds

theorem isCancelled (h : Later c c') {n : Nat} (hn : c.isCancelled n = true) :
    c'.isCancelled n = true :=
  isCancelled_of_subset h.tokens hn

end Later

theorem Keeps.later (h : Keeps c c') : Later c c' where
  archive := h.archive
  config := h.config
  watched := h.watched
  begun := Nat.le_of_eq h.sessionsBegun.symm
  tokens := h.cancelledTokens ▸ List.Subset.refl _
  deeds := h.deeds

theorem later_cancelToken (c : Controller σ) (session : Nat) :
    Later c (c.cancelToken session) := by
  rw [cancelToken]
  split
  · exact .refl c
  · exact ⟨rfl, rfl, rfl, Nat.le_refl _, List.subset_cons_self _ _, List.prefix_refl _⟩

/-- Only the session, its token and the count of sessions are ever changed in place. -/
theorem later_withSession (c : Controller σ) (session : Option Session) :
    Later c { c with session } :=
  ⟨rfl, rfl, rfl, Nat.le_refl _, List.Subset.refl _, List.prefix_refl _⟩

theorem Move.later (h : Move c c') : Later c c' := by
  cases h with
  | log l => exact (keeps_note c l).later
  | time | store | summary =>
    exact ⟨rfl, rfl, rfl, Nat.le_refl _, List.Subset.refl _, List.prefix_refl _⟩
  | token => exact later_cancelToken c _
  | ask => exact (later_withSession c _).trans (keeps_act _ _).later
  | opened | chunk | streamEnd | fragment => exact later_withSession c _
  | paint => exact (later_withSession c _).trans (keeps_tellUpdate _ _ _).later
  | @finish s e hs hl =>
    have hwithdraw : c.cancelledTokens ⊆ (c.withdraw s.id e).cancelledTokens := by
      rw [withdraw]
      split_ifs
      · exact (later_cancelToken c s.id).tokens
      · exact List.Subset.refl _
    refine Later.trans ?_ (keeps_finish hs hl e).later
    exact ⟨rfl, rfl, rfl, Nat.le_refl _, hwithdraw, List.prefix_refl _⟩
  | launch p =>
    refine Later.trans ?_ (keeps_launch c p).later
    exact ⟨rfl, rfl, rfl, Nat.le_succ _, List.Subset.refl _, List.prefix_refl _⟩

theorem Moves.later (h : Moves c c') : Later c c' := by
  induction h with
  | refl => exact .refl _
  | tail _ hmove ih => exact ih.trans hmove.later

theorem later_apply (c : Controller σ) (op : Op σ) : Later c (c.apply op) := by
  cases hop : op.isMeasure with
  | false => exact (moves_apply c hop).later
  | true =>
    obtain rfl := Op.eq_measure hop
    exact (keeps_measure c).later

theorem later_run (c : Controller σ) (ops : List (Op σ)) : Later c (c.run ops) := by
  induction ops generalizing c with
  | nil => exact .refl c
  | cons op ops ih => exact (c.later_apply op).trans (ih _)

/-! ## Controllers at rest -/

/-- Where no session is streaming, no move within a session reaches one or is told to anyone. -/
theorem Within.at_rest {handles : List Nat} (h : Within handles c c')
    (hrest : c.isStreaming = false) : c'.session = c.session ∧ c'.outline = c.outline := by
  have hnot {s : Session} (hs : c.session = some s) : s.isLive ≠ true := by
    rw [← isStreaming_of_session hs, hrest]
    exact Bool.false_ne_true
  have hphase {s : Session} (hs : c.session = some s) : ∃ e, s.phase = .ended e :=
    Session.exists_ending (Bool.eq_false_iff.mpr (hnot hs))
  cases h.move with
  | log l => exact ⟨rfl, outline_note c l⟩
  | time | store | summary => exact ⟨rfl, rfl⟩
  | token =>
    rw [cancelToken_eq]
    exact ⟨rfl, rfl⟩
  | ask hs hp | opened _ hs hp | chunk _ hs hp | streamEnd hs hp | paint hs hp =>
    obtain ⟨e, he⟩ := hphase hs
    cases hp.symm.trans he
  | fragment _ _ hs hl | finish _ hs hl => exact absurd hl (hnot hs)
  | launch p => exact absurd h (not_within_launch c p)

theorem isStreaming_congr (h : c'.session = c.session) : c'.isStreaming = c.isStreaming := by
  rw [isStreaming, state, h, isStreaming, state]

theorem Course.at_rest {handles : List Nat} (h : Course handles c c')
    (hrest : c.isStreaming = false) : c'.session = c.session ∧ c'.outline = c.outline := by
  induction h with
  | refl => exact ⟨rfl, rfl⟩
  | tail _ hwithin ih =>
    obtain ⟨hsession, houtline⟩ := ih
    obtain ⟨hsession', houtline'⟩ := hwithin.at_rest ((isStreaming_congr hsession).trans hrest)
    exact ⟨hsession'.trans hsession, houtline'.trans houtline⟩

/-- An operation that neither begins a session nor touches the one that there is leaves it as it
is, and is told to no one but for a check of the budget. -/
theorem apply_of_aloof (hw : c.watched = true) {op : Op σ} (hop : op.prompt? c.config = none)
    (haloof : op.touches = false) :
    (c.apply op).session = c.session ∧
      ∃ ks : List Check, (c.apply op).outline = c.outline ++ ks.flatMap Check.deeds := by
  have hsilent {c' : Controller σ} (hsession : c'.session = c.session)
      (houtline : c'.outline = c.outline) :
      c'.session = c.session ∧
        ∃ ks : List Check, c'.outline = c.outline ++ ks.flatMap Check.deeds :=
    ⟨hsession, [], houtline.trans (List.append_nil _).symm⟩
  cases op with
  | begin p =>
    obtain ⟨e, he⟩ := exists_begin_eq_error (Op.prompt?_begin_eq_none_iff.mp hop)
    rw [apply, he]
    exact hsilent rfl rfl
  | start p w =>
    rw [Op.prompt?_start] at hop
    obtain ⟨e, he⟩ := exists_begin_eq_error (Op.prompt?_begin_eq_none_iff.mp hop)
    rw [apply, start, he]
    exact hsilent rfl rfl
  | step | cancel | drop => cases haloof
  | cancelHandle session =>
    rw [apply, cancelHandle, cancelToken_eq]
    split_ifs <;> exact hsilent rfl rfl
  | acceptSummary => exact hsilent rfl (outline_note _ _)
  | declineSummary | passTime | changeStore => exact hsilent rfl rfl
  | measure =>
    refine ⟨(keeps_measure c).session, [c.checked], ?_⟩
    rw [apply, outline_measure hw, List.flatMap_singleton]

/-- At rest, an operation that begins no session leaves the last one as it is, and is told to no
one but for a check of the budget. -/
theorem apply_at_rest (hw : c.watched = true) (hrest : c.isStreaming = false) {op : Op σ}
    (hop : op.prompt? c.config = none) :
    (c.apply op).session = c.session ∧
      ∃ ks : List Check, (c.apply op).outline = c.outline ++ ks.flatMap Check.deeds := by
  cases htouches : op.touches with
  | false => exact apply_of_aloof hw hop htouches
  | true =>
    obtain ⟨hsession, houtline⟩ := (course_of_touches hop htouches).at_rest hrest
    exact ⟨hsession, [], houtline.trans (List.append_nil _).symm⟩

/-- A controller stays at rest until a session begins. -/
theorem run_at_rest (hw : c.watched = true) (hrest : c.isStreaming = false) {ops : List (Op σ)}
    (hops : ∀ op ∈ ops, op.prompt? c.config = none) :
    (c.run ops).session = c.session ∧
      ∃ ks : List Check, (c.run ops).outline = c.outline ++ ks.flatMap Check.deeds := by
  induction ops generalizing c with
  | nil => exact ⟨rfl, [], (List.append_nil _).symm⟩
  | cons op ops ih =>
    obtain ⟨hop, hops⟩ := List.forall_mem_cons.mp hops
    obtain ⟨hsession, ks, houtline⟩ := apply_at_rest hw hrest hop
    have hlater := c.later_apply op
    obtain ⟨hsession', ks', houtline'⟩ := ih (hlater.watched.trans hw)
      ((isStreaming_congr hsession).trans hrest) (hlater.config ▸ hops)
    refine ⟨hsession'.trans hsession, ks ++ ks', ?_⟩
    rw [List.flatMap_append, ← List.append_assoc, ← houtline, ← houtline']
    rfl

/-! ## Runs -/

theorem run_append (c : Controller σ) (ops more : List (Op σ)) :
    c.run (ops ++ more) = (c.run ops).run more :=
  List.foldl_append

theorem run_singleton (c : Controller σ) (op : Op σ) : c.run [op] = c.apply op := rfl

/-- What an operation keeps, whatever was done before it, a run keeps. -/
theorem run_induction {P : List (Op σ) → Controller σ → Prop} (hnil : P [] c)
    (happly : ∀ ops op, P ops (c.run ops) → P (ops ++ [op]) ((c.run ops).apply op))
    (ops : List (Op σ)) : P ops (c.run ops) := by
  induction ops using List.reverseRecOn with
  | nil => exact hnil
  | append_singleton ops op ih =>
    rw [run_append, run_singleton]
    exact happly ops op ih

end Controller

end ChatStream
