import ChatStream.Proofs.Text.Subparts
import ChatStream.Proofs.Wire.Written

/-!
# The lines of a whole stream

A reader decodes as it goes, keeps the text of an open line and takes the carriage return off when
the line is done. `reads_empty_eq_pieces` holds it to what is plainly wanted of all bytes at once:
decode them, cut the text at every line feed, take at most one carriage return off each piece, and
leave out a last piece with nothing in it. Decoding is `Utf8.Decodes`, which says where a character
is written and knows nothing of readers.

So nothing is lost but the line ends. Each line with its end again, and what follows the last line
feed, are the decoded text; only a carriage return at the very end may be missing.
-/

namespace ChatStream.Carry

open Utf8

/-- Lines and their ends, one behind the other. -/
def rejoin (ended : List (String × LineEnd)) : String :=
  .join (ended.map fun (line, e) ↦ line ++ e.text)

/-- What the carriage return takes off a line is one carriage return, or nothing. -/
theorem exists_dropReturn_append (line : String) :
    ∃ lost, (lost = "" ∨ lost = "\r") ∧ line = dropReturn line ++ lost := by
  rcases List.eq_nil_or_concat line.toList with hnil | ⟨front, c, hline⟩
  · exact ⟨"", .inl rfl, by simp [dropReturn, hnil]⟩
  · rw [List.concat_eq_append] at hline
    by_cases hc : c = '\r'
    · refine ⟨"\r", .inr rfl, ?_⟩
      rw [← String.toList_inj, String.toList_append, dropReturn, hline]
      simp [hc]
    · refine ⟨"", .inl rfl, ?_⟩
      rw [dropReturn, hline, List.getLast?_concat, String.append_empty]
      split
      · rename_i hreturn
        exact absurd (Option.some.inj hreturn) hc
      · rfl

/-- A piece and the line feed behind it are a line and its end. -/
theorem exists_lineEnd (piece : String) :
    ∃ e : LineEnd, piece ++ "\n" = dropReturn piece ++ e.text := by
  obtain ⟨lost, hlost, hpiece⟩ := exists_dropReturn_append piece
  have hjoined : piece ++ "\n" = dropReturn piece ++ (lost ++ "\n") := by
    rw [← String.append_assoc, ← hpiece]
  rcases hlost with rfl | rfl
  · exact ⟨.feed, hjoined⟩
  · exact ⟨.returnFeed, hjoined⟩

/-- The pieces of a text, each but the last with the end of its line, are the text. -/
theorem exists_rejoin (piece : List Char) (pieces : List (List Char)) :
    ∃ ended lost, ended.map Prod.fst =
        ((piece :: pieces).map fun piece ↦ dropReturn (.ofList piece)).dropLast ∧
      (lost = "" ∨ lost = "\r") ∧
      String.ofList (['\n'].intercalate (piece :: pieces)) =
        rejoin ended ++
          (((piece :: pieces).map fun piece ↦ dropReturn (.ofList piece)).getLast?.getD "") ++
          lost := by
  -- Only the last piece has no line feed behind it, so only there a carriage return is lost.
  induction pieces generalizing piece with
  | nil =>
    obtain ⟨lost, hlost, hpiece⟩ := exists_dropReturn_append (.ofList piece)
    exact ⟨[], lost, rfl, hlost, by simpa [rejoin] using hpiece⟩
  | cons next pieces ih =>
    obtain ⟨ended, lost, hended, hlost, htext⟩ := ih next
    obtain ⟨e, he⟩ := exists_lineEnd (.ofList piece)
    refine ⟨(dropReturn (.ofList piece), e) :: ended, lost, by simp [hended], hlost, ?_⟩
    have hjoin : rejoin ((dropReturn (.ofList piece), e) :: ended) =
        String.ofList piece ++ "\n" ++ rejoin ended := by
      rw [he, rejoin, List.map_cons, String.join_cons, rejoin]
    have hcons : String.ofList (['\n'].intercalate (piece :: next :: pieces)) =
        String.ofList piece ++ "\n" ++ String.ofList (['\n'].intercalate (next :: pieces)) := by
      rw [List.intercalate_cons_cons, String.ofList_append, String.ofList_append]
    rw [hcons, htext, hjoin]
    simp [String.append_assoc]

/-- **A stream is read as a whole.** However its bytes are cut, a reader gives out the pieces of the
decoded text between the line feeds, and the last one when the stream ends unless it is empty. With
their ends they are the text again, up to a carriage return at the very end. -/
theorem reads_empty_eq_pieces (chunks : List Bytes) :
    ∃ text : List Char, (∀ cs, Decodes chunks.flatten cs ↔ cs = text) ∧
      ∃ pieces, pieces = (text.splitOn '\n').map (fun piece ↦ dropReturn (.ofList piece)) ∧
        (Carry.empty.reads chunks).2 = pieces.dropLast ∧
        (Carry.empty.reads chunks).1.finish = pieces.getLast?.filter (!·.isEmpty) ∧
        ∃ ended lost, ended.map Prod.fst = (Carry.empty.reads chunks).2 ∧
          (lost = "" ∨ lost = "\r") ∧
          String.ofList text =
            rejoin ended ++ (Carry.empty.reads chunks).1.finish.getD "" ++ lost := by
  refine ⟨(lossy chunks.flatten).toList, fun cs ↦ decodes_iff, pieces chunks.flatten, rfl, ?_⟩
  have hlines : (Carry.empty.reads chunks).2 = (pieces chunks.flatten).dropLast := by
    rw [reads_eq_read, read_empty, completeLines]
  have hlast : (Carry.empty.reads chunks).1.finish =
      (pieces chunks.flatten).getLast?.filter (!·.isEmpty) := by
    rw [reads_eq_read, finish_read_empty, lastLine]
  refine ⟨hlines, hlast, ?_⟩
  obtain ⟨piece, rest, hsplit⟩ := List.exists_cons_of_ne_nil
    (List.splitOn_ne_nil '\n' (lossy chunks.flatten).toList)
  obtain ⟨ended, lost, hended, hlost, htext⟩ := exists_rejoin piece rest
  rw [← hsplit, List.intercalate_splitOn] at htext
  rw [← hsplit] at hended
  refine ⟨ended, lost, hended.trans hlines.symm, hlost, ?_⟩
  rw [htext, hlast, getD_filter_isEmpty]
  rfl

end ChatStream.Carry
