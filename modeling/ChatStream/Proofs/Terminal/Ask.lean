import ChatStream.Proofs.Terminal.FirstTurn
import ChatStream.Proofs.Transport.Pieces

/-!
# One message

`ask` sends one message and is over. What it leaves is a function of the verdict on what the script
holds for the request, and the verdict on a captured answer is one on its bytes, not on the pieces
in which they are replayed.
-/

namespace ChatStream

open Controller Text

/-! ## Replayed bytes -/

namespace Scripted

theorem ends_ofWire (bytes : Bytes) (size : Nat) : (ofWire bytes size).Ends :=
  ends_empty.addChunks _

theorem requests_ofWire (bytes : Bytes) (size : Nat) : (ofWire bytes size).requests = [] := rfl

theorem cutQueue_map_ok (chunks : List Bytes) : cutQueue (chunks.map .ok) = (chunks, none) := by
  induction chunks with
  | nil => rfl
  | cons chunk chunks ih => rw [List.map_cons, cutQueue, ih]

theorem supply_ofWire (bytes : Bytes) (size : Nat) :
    (ofWire bytes size).supply = .stream 0 (pieces size bytes) none := by
  have hsupply : (ofWire bytes size).supply =
      .stream 0 (cutQueue ((pieces size bytes).map .ok)).1
        (cutQueue ((pieces size bytes).map .ok)).2 := rfl
  rw [hsupply, cutQueue_map_ok]

/-- A replay comes to the verdict on the bytes. -/
theorem verdict_ofWire (bytes : Bytes) (size : Nat) (wire : LineFormat) :
    (ofWire bytes size).supply.verdict wire = (Supply.stream 0 [bytes] none).verdict wire := by
  rw [supply_ofWire, Supply.verdict, Supply.verdict, flatten_pieces, List.flatten_singleton]

end Scripted

/-! ## One message -/

/-- **One message** over a script that ends: what is left is said by the verdict on what the script
holds for it. -/
theorem ask_eq (config : Config) {transport : Scripted} (htransport : transport.Ends) (p : Prompt)
    (htaken : p.isTaken config = true) (pace : List Nat) :
    ask config transport p pace =
      { result := .ok (transport.supply.verdict config.wire).ending.state
        screen := firstScreen config p (transport.supply.verdict config.wire)
        requests := transport.requests ++ [buildRequest config p false] } ∧
    ∃ t, (Talk.new config transport pace).sendPrompt p =
        .ok (t, (transport.supply.verdict config.wire).ending.state) ∧
      t.simulation.controller.answerText = (transport.supply.verdict config.wire).text := by
  have hnew : (Simulation.conversation config transport pace).Plays := ⟨htransport, rfl, rfl⟩
  obtain ⟨s, v, hv, hsent, -, hplays, hended, hrequests⟩ :=
    Simulation.sendPrompt_of_plays hnew (numbered_new _ _ _ _) rfl htaken
  have hrel : overOpen.rel (Simulation.conversation config transport pace).controller
      (new History.archive config.history config "channel") := ⟨⟨rfl, ⟨rfl, rfl⟩⟩, rfl⟩
  obtain ⟨d, hplays', -, rfl⟩ := overOpen.playsTo (overOpen.launch hrel p) hplays
  have hpainting := painting_of_first hplays' hended
  have hturn : (Talk.new config transport pace).sendPrompt p =
      .ok (Talk.flush { simulation := s }, v.ending.state) := by
    rw [Talk.sendPrompt]
    exact congrArg (Except.map _) hsent
  have hclosed := Talk.close_of_rest (t := Talk.flush { simulation := s })
    (isStreaming_of_ended hended) rfl
    (.ok v.ending.state : Except BeginError SessionState)
  have hverdict : transport.supply.verdict config.wire = v := hv.symm
  rw [hverdict]
  refine ⟨?_, _, hturn, answerText_of_ended hended⟩
  rw [ask, hturn]
  refine hclosed.trans ?_
  have hscreen : (Talk.flush { simulation := s }).screen = firstScreen config p v := hpainting
  rw [hscreen]
  exact congrArg (Finished.mk _ _) hrequests

/-- **What is printed depends on the bytes alone.** A captured answer is replayed in pieces of any
size and at any pace. Neither the end of the session nor anything that is left on the terminal
depends on them, and on standard output that is the text of the answer with its last line ended. -/
theorem ask_ofWire (config : Config) (p : Prompt) (hmodel : isBlankText config.model = false)
    (hmessage : isBlankText p.message = false) (bytes : Bytes) :
    (∀ size size' pace pace', ask config (.ofWire bytes size) p pace =
      ask config (.ofWire bytes size') p pace') ∧
    ∀ size pace, ∃ t state,
      (Talk.new config (.ofWire bytes size) pace).sendPrompt p = .ok (t, state) ∧
        (ask config (.ofWire bytes size) p pace).result = .ok state ∧
        (ask config (.ofWire bytes size) p pace).screen.out =
          lineEnded t.simulation.controller.answerText := by
  have htaken : p.isTaken config = true := by
    rw [Prompt.isTaken, hmodel, hmessage]
    rfl
  have hask (size : Nat) (pace : List Nat) :=
    ask_eq config (Scripted.ends_ofWire bytes size) p htaken pace
  simp only [Scripted.verdict_ofWire, Scripted.requests_ofWire] at hask
  constructor
  · intro size size' pace pace'
    rw [(hask size pace).1, (hask size' pace').1]
  · intro size pace
    obtain ⟨hresult, t, hsent, htext⟩ := hask size pace
    refine ⟨t, _, hsent, congrArg Finished.result hresult, ?_⟩
    rw [hresult, htext, out_firstScreen]

/-- An answer that ends in the middle of a line, whose end of stream completes it. -/
def openAnswer : Bytes :=
  "data: \x7b\"content\":\"a\\nb\"\x7d\ndata: \x7b\"content\":\"c\"\x7d".toUTF8.toList

theorem ask_ofWire_openAnswer :
    isBlankText ({} : Config).model = false ∧ isBlankText "hi" = false ∧
      ask {} (.ofWire openAnswer 0) { message := "hi" } =
        ask {} (.ofWire openAnswer 40) { message := "hi" } [20, 0, 7] ∧
      (ask {} (.ofWire openAnswer 0) { message := "hi" }).screen.out = "a\nbc\n" := by
  have hmodel : isBlankText ({} : Config).model = false := by decide +kernel
  have hmessage : isBlankText "hi" = false := by decide +kernel
  obtain ⟨hsame, -⟩ := ask_ofWire {} { message := "hi" } hmodel hmessage openAnswer
  refine ⟨hmodel, hmessage, hsame _ _ _ _, ?_⟩
  decide +kernel

end ChatStream
