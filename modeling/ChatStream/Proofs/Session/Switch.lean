import Mathlib.Data.List.TakeWhile
import ChatStream.Proofs.Session.Cancellations

/-!
# From one session to the next

A new message ends the session that is streaming and begins another, in one go. `begin_switches`
says what this comes to from anywhere: either the message is refused, which depends on the message
and the model alone and leaves everything as it is, or the session that there was is settled first
and the new one has nothing of it.

## One stream at a time

A controller holds its current session only, so it cannot show that those before it have let go of
their streams. The finales can. Every session that was begun is over, as the view was told, or it is
the current one and streaming; and a session that is over holds no stream.
-/

namespace ChatStream

open Text

/-! ## Blank texts -/

/-- There is nothing but blanks in the text. -/
def IsBlankText (s : String) : Prop := ∀ ch ∈ s.toList, isBlank ch = true

theorem isBlankText_iff {s : String} : isBlankText s = true ↔ IsBlankText s := by
  have hstart (cs : List Char) : cs.dropWhile isBlank = [] ↔ ∀ ch ∈ cs, isBlank ch = true :=
    List.dropWhile_eq_nil_iff
  have hnil (cs : List Char) : trimChars cs = [] ↔ ∀ ch ∈ cs, isBlank ch = true := by
    rw [trimChars, List.reverse_eq_nil_iff, hstart, ← hstart cs]
    constructor
    · intro hrest
      -- The first character that is left would be none of the blanks.
      cases hdrop : cs.dropWhile isBlank with
      | nil => rfl
      | cons ch rest =>
        have hne : cs.dropWhile isBlank ≠ [] := by simp [hdrop]
        have hhead := List.head_dropWhile_not isBlank hne
        have hblank := hrest ch (by simp [hdrop])
        simp [hdrop, hblank] at hhead
    · intro hdrop
      rw [hdrop]
      simp
  rw [isBlankText, trim, IsBlankText, ← hnil, String.isEmpty_iff, ← String.toList_eq_nil_iff,
    String.toList_ofList]

/-- Nothing was read, heard or painted in the session, and it holds no stream. -/
structure Session.IsFresh (s : Session) : Prop where
  live : s.isLive = true
  stream : s.stream? = none
  lines : s.lines = .new
  text : s.text = {}
  bytes : s.bytesRead = 0
  waiting : s.schedule.waiting = none
  opened : s.schedule.closed = false
  stats : s.schedule.stats = {}

namespace Controller

variable {σ : Type} {c c' : Controller σ} {p : Prompt} {id : Nat}

/-! ## What is refused -/

/-- Why a prompt is refused: its message is blank, or else there is no model to send it to. -/
def RefusedFor (c : Controller σ) (p : Prompt) (e : BeginError) : Prop :=
  IsBlankText p.message ∧ e = .emptyMessage ∨
    ¬ IsBlankText p.message ∧ IsBlankText c.config.model ∧
      e = .invalidRequest "no model configured"

theorem refuses_eq_some_iff {e : BeginError} : c.refuses p = some e ↔ c.RefusedFor p e := by
  rw [refuses, RefusedFor, ← isBlankText_iff, ← isBlankText_iff]
  split_ifs with hmessage hmodel
  · rw [Option.some.injEq, eq_comm]
    simp [hmessage]
  · rw [Option.some.injEq, eq_comm]
    simp [hmessage, hmodel]
  · simp [hmessage, hmodel]

theorem begin_eq_error_iff {e : BeginError} : c.begin p = .error e ↔ c.RefusedFor p e := by
  rw [begin_eq, ← refuses_eq_some_iff]
  cases c.refuses p with
  | none => simp
  | some e' => simp

theorem start_eq_error_iff {e : BeginError} (w : Wait) :
    c.start p w = .error e ↔ c.RefusedFor p e := by
  rw [start, ← begin_eq_error_iff]
  cases c.begin p with
  | error e' => simp
  | ok started => simp

/-! ## What is begun -/

/-- What becomes of a controller whose message is taken. First the session that is streaming is
cancelled, if there is one; then a fresh session is begun, with the request that was asked for. -/
structure Switches (c : Controller σ) (p : Prompt) (c' : Controller σ) (id : Nat) : Prop where
  settled : ∃ c₀ model, (∀ s, c.session = some s → s.isLive = true → c.Cancels s c₀) ∧
    (c.isStreaming = false → c₀ = c) ∧ c₀.isStreaming = false ∧ c₀.sessionsBegun = id ∧
    c'.cancelledTokens = c₀.cancelledTokens ∧
    c'.outline = c₀.outline ++
      [.shown (.sessionStarted id model), .shown (.stateChanged id .streaming)]
  session : ∃ s, c'.session = some s ∧ s.id = id ∧ s.message = p.message ∧ s.IsFresh ∧
    s.phase = .unopened (buildRequest c.config p c.budget.summarize)
  token : c'.isCancelled id = false
  summarize : c'.budget.summarize = false

theorem switches_of_begin {h : Chronicle} (ht : h.Tells c) (hnumbered : c.Numbered)
    (hbegin : c.begin p = .ok (c', id)) : c.Switches p c' id := by
  obtain ⟨-, rfl, rfl⟩ := begin_eq_ok hbegin
  have hcourse := c.course_settle
  have hkeeps := keeps_launch c.settle p
  have hwatched := hcourse.moves.later.watched.trans ht.watched
  have hsummarize : c.settle.budget.summarize = c.budget.summarize := hcourse.summarize
  constructor
  · refine ⟨c.settle, _, fun s hs hl ↦ ?_, settle_of_rest, c.isStreaming_settle, rfl,
      hkeeps.cancelledTokens, outline_launch hwatched p⟩
    exact (cancels_finish ht hs hl).of_agrees (agrees_settle (isStreaming_iff.mpr ⟨s, hs, hl⟩))
  · refine ⟨_, hkeeps.session, rfl, rfl, ⟨rfl, rfl, rfl, rfl, rfl, rfl, rfl, rfl⟩, ?_⟩
    rw [newSession, c.config_settle, hsummarize]
  · rw [isCancelled, hkeeps.cancelledTokens]
    exact (hnumbered.moves hcourse.moves).isCancelled_sessionsBegun
  · exact hkeeps.summarize

/-! ## One stream at a time -/

/-- The view was told that the session with that number is over. -/
def IsOver (c : Controller σ) (session : Nat) : Prop := ∃ f ∈ c.finales, f.session = session

theorem isOver_iff {h : Chronicle} (ht : h.Tells c) {n : Nat} :
    c.IsOver n ↔ n < c.sessionsEnded := by
  rw [← List.mem_range, ← ht.sessions_finales, List.mem_map]
  rfl

/-- A session that is not over is the current one. -/
theorem isOver_or_current {h : Chronicle} (ht : h.Tells c) {n : Nat} (hn : n < c.sessionsBegun) :
    c.IsOver n ∨ ∃ s, c.session = some s ∧ s.id = n ∧ s.isLive = true := by
  rw [isOver_iff ht, sessionsEnded]
  by_cases hstreaming : c.isStreaming = true
  · obtain ⟨s, hs, hl⟩ := isStreaming_iff.mp hstreaming
    have hbegun := (ht.older_sessions hs).1
    rw [if_pos hstreaming]
    rcases Nat.lt_or_ge n s.id with hlt | hge
    · exact .inl (by omega)
    · exact .inr ⟨s, hs, by omega, hl⟩
  · rw [if_neg hstreaming]
    exact .inl hn

/-- **From one session to the next.** From wherever a controller has come to, a message is refused
for what it is and for want of a model, and then nothing has happened. Any other is taken: what was
streaming is cancelled to its end, and behind that a fresh session begins. And of all sessions that
were begun, only the current one can hold a stream. -/
theorem begin_switches (hc : c.Reached) (p : Prompt) :
    (∀ e, c.begin p = .error e ↔ c.RefusedFor p e) ∧
      (∀ w e, c.start p w = .error e ↔ c.RefusedFor p e) ∧
      (∀ e, c.RefusedFor p e → c.apply (.begin p) = c ∧ ∀ w, c.apply (.start p w) = c) ∧
      (∀ c' id, c.begin p = .ok (c', id) →
        c.Switches p c' id ∧ ∀ w, c.start p w = .ok ((c'.step w).1, id)) ∧
      (∀ n < c.sessionsBegun,
        c.IsOver n ∨ ∃ s, c.session = some s ∧ s.id = n ∧ s.isLive = true) ∧
      ∀ s, c.session = some s → c.IsOver s.id → s.stream? = none := by
  obtain ⟨h, ht⟩ := hc.tells
  refine ⟨fun e ↦ begin_eq_error_iff, fun w e ↦ start_eq_error_iff w, fun e hrefused ↦ ?_,
    fun c' id hbegin ↦ ?_, fun n hn ↦ isOver_or_current ht hn, fun s hs hover ↦ ?_⟩
  · constructor
    · rw [apply, begin_eq_error_iff.mpr hrefused]
    · intro w
      rw [apply, (start_eq_error_iff w).mpr hrefused]
  · refine ⟨switches_of_begin ht hc.numbered hbegin, fun w ↦ ?_⟩
    rw [start, hbegin]
  · obtain ⟨f, hf, hid⟩ := hover
    obtain ⟨e, he, -⟩ := ht.exists_ending_of_finale hs hf hid
    rw [Session.stream?, he]

/-- A message in the middle of an answer. -/
theorem begin_switches_halfHeard :
    ∃ c' id, ((new History.archive {} {} "scripted").run halfHeard).begin { message := "next" } =
        .ok (c', id) ∧
      ((new History.archive {} {} "scripted").run halfHeard).Switches { message := "next" } c' id ∧
      ((new History.archive {} {} "scripted").run halfHeard).begin { message := " \n" } =
        .error .emptyMessage := by
  have hconfig := (later_run (new History.archive {} {} "scripted") halfHeard).config
  have htaken : Prompt.isTaken ((new History.archive {} {} "scripted").run halfHeard).config
      { message := "next" } = true := by
    rw [hconfig]
    decide +kernel
  have hreached : ((new History.archive {} {} "scripted").run halfHeard).Reached :=
    ⟨_, _, _, _, _, rfl⟩
  have hbegin := begin_of_isTaken htaken
  obtain ⟨-, -, -, htakes, -⟩ := begin_switches hreached { message := "next" }
  obtain ⟨hrefuses, -⟩ := begin_switches hreached { message := " \n" }
  refine ⟨_, _, hbegin, (htakes _ _ hbegin).1, (hrefuses _).mpr (.inl ⟨?_, rfl⟩)⟩
  rw [← isBlankText_iff]
  decide +kernel

end Controller

end ChatStream
