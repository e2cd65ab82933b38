import ChatStream.Proofs.Wire.Whole

/-!
# What a reader carries over

Between two chunks a reader has bytes of a character that has only begun and the text of a line that
is still open. `Carry.openEnd_reads` says that this is all that it has, however many chunks it has
taken and whatever bytes were in them. The bytes held begin a character and want for some of it, so
there are at most three, and if nothing follows they make one replacement. The line has no line feed
in it.

Of a text nothing is lost. While the bytes are the beginning of an encoded text, those that have not
been given out in lines are those carried over: the lines with their ends, the open line and the
bytes held are exactly the bytes that were read.

## The argument

Decoding and cutting are looked at apart. Decoding settles characters and keeps bytes back
(`Utf8.settled`), and what it settles of the beginning of a text encodes to the bytes it took
(`Utf8.encode_settled`). Cutting takes these characters one by one, and each leaves lines and an open
line that spell the text so far (`Carry.Spells.takeChar`).
-/

namespace ChatStream

namespace Utf8

/-- Bytes that are held back begin a character and are not all of it. -/
theorem Holdable.exists_rest {h : Bytes} (hh : Holdable h) :
    ∃ c rest, rest ≠ [] ∧ h ++ rest = String.utf8EncodeChar c := by
  rcases hh with rfl | hstanding
  · exact ⟨'a', _, String.utf8EncodeChar_ne_nil, List.nil_append _⟩
  · obtain ⟨rest, c, hc⟩ := exists_complete hstanding
    refine ⟨c, rest, ?_, eq_utf8EncodeChar hc⟩
    rintro rfl
    rw [List.append_nil, hstanding] at hc
    cases hc

theorem Holdable.lossy_eq {h : Bytes} (hh : Holdable h) :
    lossy h = if h = [] then "" else "\uFFFD" := by
  rw [← String.toList_inj, toList_lossy, hh.settled_eq]
  split_ifs <;> rfl

/-- What is settled of the beginning of a text encodes to the bytes that it was settled of. -/
theorem flatMap_settled {bytes : Bytes} {cs : List Char}
    (h : bytes <+: cs.flatMap String.utf8EncodeChar) :
    (settled bytes).1.flatMap String.utf8EncodeChar ++ (settled bytes).2 = bytes := by
  induction cs generalizing bytes with
  | nil =>
    obtain rfl := List.prefix_nil.mp h
    rw [settled]
    rfl
  | cons c cs ih =>
    rw [List.flatMap_cons] at h
    rcases List.prefix_or_prefix_of_prefix h (List.prefix_append _ _) with hshort | ⟨rest, rfl⟩
    · -- The bytes end in the first character, or with it.
      rcases startsCharacter_iff.mp ⟨c, hshort⟩ with rfl | hstanding
      · rw [settled]
        rfl
      · cases hs : standing bytes with
        | complete c' =>
          obtain rfl := eq_utf8EncodeChar hs
          have hchar := settled_utf8EncodeChar c' []
          rw [List.append_nil, settled] at hchar
          rw [hchar]
          simp
        | unfinished => rw [Holdable.settled_eq (.inr hs)]; rfl
        | broken => exact absurd hs hstanding
    · rw [settled_utf8EncodeChar, List.flatMap_cons, List.append_assoc,
        ih ((List.prefix_append_right_inj _).mp h)]

theorem encode_settled {bytes : Bytes} {text : String} (h : bytes <+: encode text) :
    encode (.ofList (settled bytes).1) ++ (settled bytes).2 = bytes := by
  rw [encode_eq] at h
  rw [encode_eq, String.toList_ofList]
  exact flatMap_settled h

theorem encode_append (s t : String) : encode (s ++ t) = encode s ++ encode t := by
  rw [encode_eq, encode_eq, encode_eq, String.toList_append, List.flatMap_append]

theorem length_encode (s : String) : (encode s).length = s.utf8ByteSize := rfl

end Utf8

namespace Carry

open Utf8

/-! ## Cutting -/

/-- The lines with their ends and the open line are the text, and the open line is open. -/
structure Spells (p : Progress) (text : String) : Prop where
  openLine : '\n' ∉ p.1.openLine.toList
  spelled : ∃ ended, ended.map Prod.fst = p.2.toList ∧ text = rejoin ended ++ p.1.openLine

theorem rejoin_append_singleton (ended : List (String × LineEnd)) (line : String) (e : LineEnd) :
    rejoin (ended ++ [(line, e)]) = rejoin ended ++ (line ++ e.text) := by
  rw [rejoin, List.map_append, String.join_append, rejoin]
  simp

/-- A character more. -/
theorem Spells.takeChar {p : Progress} {text : String} (h : Spells p text) (c : Char) :
    Spells (takeChar p c) (text.push c) := by
  obtain ⟨hopen, ended, hended, rfl⟩ := h
  obtain ⟨carry, lines⟩ := p
  rw [Carry.takeChar]
  by_cases hc : c = '\n'
  · -- The open line becomes a line, and its end is what was taken off it and the line feed.
    obtain ⟨e, he⟩ := exists_lineEnd carry.openLine
    rw [if_pos hc]
    refine ⟨List.not_mem_nil, ended ++ [(dropReturn carry.openLine, e)], ?_, ?_⟩
    · simp [hended]
    · rw [rejoin_append_singleton, ← he, hc, ← String.toList_inj]
      simp
  · rw [if_neg hc]
    refine ⟨?_, ended, hended, ?_⟩
    · simpa using ⟨hopen, Ne.symm hc⟩
    · rw [← String.toList_inj]
      simp

theorem Spells.foldl {p : Progress} {text : String} (h : Spells p text) (chars : List Char) :
    Spells (chars.foldl Carry.takeChar p) (text ++ .ofList chars) := by
  induction chars generalizing p text with
  | nil => simpa using h
  | cons c chars ih =>
    have hpush : text ++ .ofList (c :: chars) = text.push c ++ .ofList chars := by
      rw [← String.toList_inj]
      simp
    rw [hpush]
    exact ih (h.takeChar c)

/-! ## Reading -/

/-- What is carried over is the open end of a stream. -/
structure OpenEnd (c : Carry) : Prop where
  openLine : '\n' ∉ c.openLine.toList
  length_held : c.held.length ≤ 3
  /-- The bytes held begin a character and are not all of it. -/
  held : ∃ ch rest, rest ≠ [] ∧ c.held ++ rest = String.utf8EncodeChar ch
  lossy_held : lossy c.held = if c.held = [] then "" else "\uFFFD"
  /-- The last line is the open one with what the bytes held are decoded to. -/
  finish : c.finish = (some (dropReturn (c.openLine ++ lossy c.held))).filter (!·.isEmpty)

/-- A whole byte string taken at once, as decoded characters taken one by one. -/
theorem read_empty_eq_foldl (bytes : Bytes) :
    empty.read bytes =
      (((settled bytes).1.foldl takeChar ({ held := (settled bytes).2 }, #[])).1,
        ((settled bytes).1.foldl takeChar ({ held := (settled bytes).2 }, #[])).2.toList) := by
  rw [read_eq_readWhole holdable_nil, readWhole, foldl_takeChar_eq]
  simp [empty]

theorem held_read_empty (bytes : Bytes) : (empty.read bytes).1.held = (settled bytes).2 := by
  rw [read_eq_readWhole holdable_nil]
  rfl

theorem spells_read_empty (bytes : Bytes) :
    Spells ((empty.read bytes).1, (empty.read bytes).2.toArray) (.ofList (settled bytes).1) := by
  have hnew : Spells ({ held := (settled bytes).2 }, #[]) "" := ⟨List.not_mem_nil, [], rfl, rfl⟩
  have hspells := hnew.foldl (settled bytes).1
  rw [String.empty_append] at hspells
  rw [read_empty_eq_foldl]
  exact hspells

theorem finish_eq {c : Carry} (hc : Holdable c.held) :
    c.finish = (some (dropReturn (c.openLine ++ lossy c.held))).filter (!·.isEmpty) := by
  have htext : (if c.held.isEmpty then c.openLine else c.openLine.push replacement) =
      c.openLine ++ lossy c.held := by
    rw [hc.lossy_eq, ← String.toList_inj]
    simp only [List.isEmpty_iff]
    split_ifs <;> simp [replacement]
  rw [finish, htext, Option.filter_some]
  cases (dropReturn (c.openLine ++ lossy c.held)).isEmpty <;> rfl

theorem openEnd_read_empty (bytes : Bytes) : (empty.read bytes).1.OpenEnd where
  openLine := (spells_read_empty bytes).openLine
  length_held := (holdable_read holdable_nil bytes).length_le
  held := (holdable_read holdable_nil bytes).exists_rest
  lossy_held := (holdable_read holdable_nil bytes).lossy_eq
  finish := finish_eq (holdable_read holdable_nil bytes)

/-- **What is carried over.** After any chunks a reader has an open line and a start of a character.
If the bytes so far are the beginning of an encoded text, none is lost: the lines, each with an end,
the open line and the bytes held are these bytes, and the size of what is carried over is the number
of bytes that have not been given out. -/
theorem openEnd_reads (chunks : List Bytes) :
    (empty.reads chunks).1.OpenEnd ∧ ∀ text, chunks.flatten <+: encode text →
      ∃ ended : List (String × LineEnd), ended.map Prod.fst = (empty.reads chunks).2 ∧
        encode (rejoin ended) ++ encode (empty.reads chunks).1.openLine ++
          (empty.reads chunks).1.held = chunks.flatten ∧
        (encode (rejoin ended)).length + (empty.reads chunks).1.size = chunks.flatten.length := by
  rw [reads_eq_read]
  refine ⟨openEnd_read_empty _, fun text htext ↦ ?_⟩
  obtain ⟨ended, hended, hspelled⟩ := (spells_read_empty chunks.flatten).spelled
  dsimp only at hended hspelled
  have hbytes := encode_settled htext
  rw [hspelled, encode_append, ← held_read_empty] at hbytes
  refine ⟨ended, hended, hbytes, ?_⟩
  have hlength := congrArg List.length hbytes
  rw [List.length_append, List.length_append] at hlength
  rw [← hlength, size, ← length_encode]
  omega

/-- A text cut within its last character. -/
theorem openEnd_reads_halfEuro :
    ([[0x61, 0x0D, 0x0A, 0xE2], [0x82]] : List Bytes).flatten <+: encode "a\r\n\u20AC" ∧
      ∃ ended : List (String × LineEnd),
        ended.map Prod.fst = (empty.reads [[0x61, 0x0D, 0x0A, 0xE2], [0x82]]).2 ∧
        (encode (rejoin ended)).length +
          (empty.reads [[0x61, 0x0D, 0x0A, 0xE2], [0x82]]).1.size = 5 := by
  have hcut : ([[0x61, 0x0D, 0x0A, 0xE2], [0x82]] : List Bytes).flatten <+:
      encode "a\r\n\u20AC" := by decide +kernel
  obtain ⟨ended, hended, -, hlength⟩ := (openEnd_reads [[0x61, 0x0D, 0x0A, 0xE2], [0x82]]).2 _ hcut
  exact ⟨hcut, ended, hended, hlength⟩

end Carry

end ChatStream
