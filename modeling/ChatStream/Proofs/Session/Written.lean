import ChatStream.Proofs.Session.Verdict
import ChatStream.Proofs.Wire.Written

/-!
# Written answers arrive

A session that is fed an answer in event lines ends completed, with the text of the answer:
`drive_written`. It makes no difference which characters the fragments are made of, how their lines
end, where the bytes are cut and when the session is painted meanwhile.

The bytes have been turned into lines and events already, in `WrittenAnswer.pieces_wireText`,
`parse_fragmentLine` and `parse_closingLine`. What is left is to hear them: each event of a fragment
adds the fragment, an empty one nothing, and the last event is the first that ends the answer.
-/

namespace ChatStream

open Utf8

namespace WrittenAnswer

theorem text_parse_fragmentLine (s : String) :
    (({} : LineFormat).parse (fragmentLine s)).text.getD "" = s ∧
      (({} : LineFormat).parse (fragmentLine s)).ending? = none := by
  rw [parse_fragmentLine]
  split_ifs with hempty
  · exact ⟨(String.isEmpty_iff.mp hempty).symm, rfl⟩
  · exact ⟨rfl, rfl⟩

/-- The fragments are heard before whatever comes after them. -/
theorem ofEvents_fragments (fragments : List (String × LineEnd)) (es : List Event)
    (otherwise : Ending) :
    Verdict.ofEvents
        ((fragments.map fun (s, _) ↦ fragmentLine s).map ({} : LineFormat).parse ++ es) otherwise =
      { text := .join (fragments.map Prod.fst) ++ Event.heardText es
        ending := (es.findSome? Event.ending?).getD otherwise } := by
  induction fragments with
  | nil =>
    rw [List.map_nil, List.map_nil, List.map_nil, String.join_nil, String.empty_append]
    rfl
  | cons f fragments ih =>
    obtain ⟨s, e⟩ := f
    obtain ⟨htext, hending⟩ := text_parse_fragmentLine s
    simp only [Verdict.ofEvents, Verdict.mk.injEq] at ih ⊢
    simp only [List.map_cons, List.cons_append, Event.heardText_cons, List.findSome?_cons,
      Event.isTerminal_eq, htext, hending, ih, String.join_cons, String.append_assoc]
    simp

/-- The verdict on the lines of an answer. -/
theorem ofEvents_lines (a : WrittenAnswer) (otherwise : Ending) :
    Verdict.ofEvents (a.lines.map ({} : LineFormat).parse) otherwise =
      { text := a.text, ending := .completed } := by
  have htrailing := getD_filter_isEmpty a.trailing
  rw [lines, List.map_append, ofEvents_fragments, List.map_singleton, parse_closingLine,
    Event.heardText_cons]
  simp [Event.text, Event.isTerminal, Event.ending?, htrailing, text]

/-- The verdict on an answer as it was written, wherever its bytes are cut. A stream that fails
behind the end of the last line has said all. -/
theorem verdict_wireText (a : WrittenAnswer) (n : Nat) {chunks : List Bytes}
    {failure : Option TransportError} (hbytes : chunks.flatten = encode a.wireText)
    (hend : failure = none ∨ a.lastEnd.isSome = true) :
    (Supply.stream n chunks failure).verdict {} = { text := a.text, ending := .completed } := by
  have hclosing : (closingLine a.trailing).isEmpty = false := by
    rw [closingLine_eq]
    simp
  have hcomplete : a.lastEnd.isSome = true →
      Carry.completeLines chunks.flatten = a.lines ∧ Carry.lastLine chunks.flatten = none := by
    intro hend
    rw [Carry.completeLines, Carry.lastLine, hbytes, pieces_wireText, if_pos hend]
    simp
  cases failure with
  | some e =>
    rw [Supply.verdict, (hcomplete (hend.resolve_left (Option.some_ne_none e))).1, ofEvents_lines]
  | none =>
    have hlines : Carry.completeLines chunks.flatten ++ (Carry.lastLine chunks.flatten).toList =
        a.lines := by
      by_cases hend : a.lastEnd.isSome = true
      · simp [hcomplete hend]
      · rw [Carry.completeLines, Carry.lastLine, hbytes, pieces_wireText, if_neg hend, lines]
        simp [hclosing]
    rw [Supply.verdict, hlines, ofEvents_lines]

end WrittenAnswer

namespace Controller

variable {σ : Type} {c : Controller σ} {wire : LineFormat} {id : Nat}

/-- From an unopened session whose request a stream answers, a drive comes to the verdict on the
stream. -/
theorem Stands.drive_stream {r : Request} (h : c.Stands wire id (.unopened r) .empty "")
    (htick : c.tick? = none) (n : Nat) (chunks : List Bytes) (failure : Option TransportError)
    {moments : List Moment} (hmoments : 2 * chunks.length + 2 ≤ moments.length)
    (hfree : ∀ m ∈ moments, id ∉ m.cancelled) :
    ∃ c', c.drive (.ok n) (chunks.map .ok ++ failure.toList.map .error) moments =
        (c', some ((Supply.stream n chunks failure).verdict wire).ending.state) ∧
      c'.Ended id ((Supply.stream n chunks failure).verdict wire) := by
  rcases moments with _ | ⟨m, moments⟩
  · cases hmoments
  · obtain ⟨hm, hrest⟩ := List.forall_mem_cons.mp hfree
    obtain ⟨c₁, hopening, htick₁, hstep⟩ := h.step_opening (w := m.wait (.answer (.ok n))) hm rfl
    obtain ⟨hstands, htick₂, hresult⟩ := hopening.onStream n
    rw [hresult] at hstep
    rw [← verdictFrom_empty, drive_cons (h.nextWake_unopened _ _ _) hstep nofun]
    refine hstands.drive _ chunks ?_ hrest
    rw [htick₂, htick₁, htick]
    exact Nat.le_of_succ_le_succ hmoments

/-- **Written answers arrive.** Whatever a controller with the default wire format has been through,
and whatever the text of an answer is made of: a session that is given the answer in event lines,
cut anywhere, ends completed and has heard the text. -/
theorem drive_written (hc : c.Reached) (hwire : c.config.wire = {}) (p : Prompt) (id n : Nat)
    (a : WrittenAnswer) (chunks : List Bytes) (failure : Option TransportError)
    (hbytes : chunks.flatten = encode a.wireText)
    (hend : failure = none ∨ a.lastEnd.isSome = true) (moments : List Moment)
    (hmoments : 2 * chunks.length + 2 ≤ moments.length)
    (hfree : ∀ m ∈ moments, id ∉ m.cancelled) :
    (∀ c₀, c.begin p = .ok (c₀, id) →
        ∃ c', c₀.drive (.ok n) (chunks.map .ok ++ failure.toList.map .error) moments =
            (c', some .completed) ∧
          c'.Ended id { text := a.text, ending := .completed }) ∧
      ∀ w c₁, w.wake = .answer (.ok n) → id ∉ w.cancelled → c.start p w = .ok (c₁, id) →
        ∃ c', c₁.drive (.ok n) (chunks.map .ok ++ failure.toList.map .error) moments =
            (c', some .completed) ∧
          c'.Ended id { text := a.text, ending := .completed } := by
  have hverdict := a.verdict_wireText n hbytes hend
  have hbegun {c₀ : Controller σ} (hbegin : c.begin p = .ok (c₀, id)) :
      c₀.tick? = none ∧ ∃ r, c₀.Stands {} id (.unopened r) .empty "" :=
    hwire ▸ hc.numbered.stands_begin hbegin
  refine ⟨fun c₀ hbegin ↦ ?_, fun w c₁ hwake hw hstart ↦ ?_⟩
  · obtain ⟨htick, r, hstands⟩ := hbegun hbegin
    have hdrive := hstands.drive_stream htick n chunks failure hmoments hfree
    rwa [hverdict] at hdrive
  · rw [start] at hstart
    split at hstart
    · rename_i c₀ _ hbegin
      cases hstart
      obtain ⟨htick, r, hstands⟩ := hbegun hbegin
      have hdrive := (hstands.drive_after_opening htick (.stream n chunks failure) hw hwake
        (Nat.le_of_succ_le hmoments) hfree).1
      rwa [hverdict] at hdrive
    · cases hstart

/-- Quotes, line ends, a marker and an announcement in the fragments of an answer, one of which is
empty. -/
def awkwardAnswer : WrittenAnswer where
  fragments := [("\"\n", .returnFeed), ("", .feed), ("data: [START]\r", .feed)]
  trailing := some "é\x00"
  lastEnd := none

/-- Its bytes, cut inside their one character of two bytes. -/
def awkwardChunks : List Bytes :=
  [(encode awkwardAnswer.wireText).take 102, [], (encode awkwardAnswer.wireText).drop 102]

theorem drive_written_awkwardAnswer :
    ∃ c₀ c' : Controller History,
      (new History.archive {} {} "scripted").begin { message := "hi" } = .ok (c₀, 0) ∧
        c₀.drive (.ok 0) (awkwardChunks.map .ok) (List.replicate 8 ⟨[1], 0, true⟩) =
          (c', some .completed) ∧
        c'.Ended 0 { text := "\"\ndata: [START]\ré\x00", ending := .completed } := by
  obtain ⟨c₀, hbegin⟩ : ∃ c₀, (new History.archive {} {} "scripted").begin { message := "hi" } =
      .ok (c₀, 0) := ⟨_, rfl⟩
  have hbytes : awkwardChunks.flatten = encode awkwardAnswer.wireText := by
    simp [awkwardChunks]
  have hfree : ∀ m ∈ List.replicate 8 (⟨[1], 0, true⟩ : Moment), 0 ∉ m.cancelled := by decide
  obtain ⟨c', hdrive, hended⟩ := (drive_written ⟨_, _, _, _, [], rfl⟩ rfl { message := "hi" } 0 0
    awkwardAnswer awkwardChunks none hbytes (.inl rfl) (List.replicate 8 ⟨[1], 0, true⟩)
    (by decide) hfree).1 c₀ hbegin
  exact ⟨c₀, c', hbegin, by simpa using hdrive, hended⟩

end Controller

end ChatStream
