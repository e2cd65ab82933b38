import ChatStream.Proofs.Text.Utf8
import ChatStream.Wire.Lines

/-!
# Lines do not depend on where the bytes are cut

`Carry.read` goes byte by byte. `Carry.readWhole` takes a chunk in one go: it puts the bytes held
back in front, decodes all that is certain of them, cuts the text at its line feeds and puts the
open line in front of the first piece. `read_eq_readWhole` says that the two agree wherever a
reader can stand, so that what is proved of one holds of the other.

The main statement is `reads_eq_read_flatten`: a reader that takes chunks one after another ends
with the carry, the lines and the last line of one that takes all their bytes at once, whatever the
bytes are and wherever they were cut. What a reader at the start of a stream makes of all bytes at
once is said without a reader: `completeLines` and `lastLine` decode them as a whole and cut the
text.
-/

namespace ChatStream.Carry

open Utf8

/-! ## Characters into lines -/

/-- Changes what a reader at work holds back. -/
private def hold (p : Progress) (held : Bytes) : Progress := ({ p.1 with held }, p.2)

private theorem takeChar_hold (p : Progress) (held : Bytes) (ch : Char) :
    takeChar (hold p held) ch = hold (takeChar p ch) held := by
  simp only [takeChar, hold]
  split <;> rfl

private theorem foldl_takeChar_hold (p : Progress) (held : Bytes) (chars : List Char) :
    chars.foldl takeChar (hold p held) = hold (chars.foldl takeChar p) held := by
  induction chars generalizing p with
  | nil => rfl
  | cons ch chars ih => rw [List.foldl_cons, takeChar_hold, ih, List.foldl_cons]

/-- The pieces of a text between its line feeds, the first of which continues `openLine`. -/
def linePieces (openLine : String) (chars : List Char) : List (List Char) :=
  (chars.splitOn '\n').modifyHead (openLine.toList ++ ·)

theorem linePieces_ne_nil (openLine : String) (chars : List Char) :
    linePieces openLine chars ≠ [] := by
  simp [linePieces]

theorem linePieces_nil (openLine : String) : linePieces openLine [] = [openLine.toList] := by
  simp [linePieces]

theorem linePieces_feed (openLine : String) (chars : List Char) :
    linePieces openLine ('\n' :: chars) = openLine.toList :: linePieces "" chars := by
  have hid : ∀ l : List (List Char), l.modifyHead (fun x ↦ x) = l := fun l ↦ by cases l <;> rfl
  simp [linePieces, List.splitOn_cons_eq_if_modifyHead, hid]

theorem linePieces_push (openLine : String) {ch : Char} (h : ch ≠ '\n') (chars : List Char) :
    linePieces openLine (ch :: chars) = linePieces (openLine.push ch) chars := by
  simp [linePieces, List.splitOn_cons_eq_if_modifyHead, h, List.modifyHead_modifyHead,
    Function.comp_def]

/-- Taking characters one by one cuts the text at its line feeds. -/
theorem foldl_takeChar_eq (held : Bytes) (openLine : String) (lines : Array String)
    (chars : List Char) :
    chars.foldl takeChar ({ held, openLine }, lines) =
      ({ held, openLine := .ofList ((linePieces openLine chars).getLastD []) },
        lines ++ ((linePieces openLine chars).dropLast.map
          fun piece ↦ dropReturn (.ofList piece)).toArray) := by
  induction chars generalizing openLine lines with
  | nil => simp [linePieces_nil]
  | cons ch chars ih =>
    by_cases hch : ch = '\n'
    · subst hch
      have hne := linePieces_ne_nil "" chars
      rw [List.foldl_cons, takeChar, if_pos rfl, ih, linePieces_feed,
        List.dropLast_cons_of_ne_nil hne]
      obtain ⟨piece, rest, hcons⟩ := List.exists_cons_of_ne_nil hne
      simp [hcons, List.getLastD_eq_getLast?]
    · rw [List.foldl_cons, takeChar, if_neg hch, ih, linePieces_push _ hch]

/-! ## A chunk in one go -/

/-- Reads one chunk in one go: the bytes held back and the chunk are decoded together as far as
they are certain, and the text is cut at its line feeds. -/
def readWhole (c : Carry) (chunk : Bytes) : Carry × List String :=
  let (chars, held) := settled (c.held ++ chunk)
  let pieces := linePieces c.openLine chars
  ({ held, openLine := .ofList (pieces.getLastD []) },
    pieces.dropLast.map fun piece ↦ dropReturn (.ofList piece))

/-- The bytes of a chunk, taken one by one, are decoded together with what was held back. -/
theorem foldl_takeByte_eq {p : Progress} (hp : Holdable p.1.held) (chunk : Bytes) :
    chunk.foldl takeByte p =
      (settled (p.1.held ++ chunk)).1.foldl takeChar
        (hold p (settled (p.1.held ++ chunk)).2) := by
  induction chunk generalizing p with
  | nil =>
    rw [List.append_nil, hp.settled_eq]
    rfl
  | cons byte chunk ih =>
    have hbyte : takeByte p byte =
        hold ((step p.1.held byte).1.foldl takeChar p) (step p.1.held byte).2 := by
      rw [← foldl_takeChar_hold]
      rfl
    have hheld : (takeByte p byte).1.held = (step p.1.held byte).2 := by rw [hbyte]; rfl
    rw [List.foldl_cons, ih (by rw [hheld]; exact holdable_step byte), hheld,
      settled_append_cons hp, List.foldl_append, hbyte, foldl_takeChar_hold p]
    rfl

theorem read_eq_readWhole {c : Carry} (hc : Holdable c.held) (chunk : Bytes) :
    c.read chunk = c.readWhole chunk := by
  rw [read, foldl_takeByte_eq (p := (c, #[])) hc, hold, foldl_takeChar_eq, readWhole]
  simp

/-! ## Readers and their chunks -/

/-- The carry of a reader that has taken some chunks since the start of its stream. -/
inductive Reached : Carry → Prop
  | empty : Reached .empty
  | read {c : Carry} (chunk : Bytes) : Reached c → Reached (c.read chunk).1

theorem holdable_read {c : Carry} (hc : Holdable c.held) (chunk : Bytes) :
    Holdable (c.read chunk).1.held := by
  rw [read_eq_readWhole hc]
  exact holdable_settled _

theorem Reached.holdable {c : Carry} (hc : c.Reached) : Holdable c.held := by
  induction hc with
  | empty => exact holdable_nil
  | read chunk _ ih => exact holdable_read ih chunk

/-- Reads chunks one after another, and gathers the lines. -/
def reads (c : Carry) : List Bytes → Carry × List String
  | [] => (c, [])
  | chunk :: rest =>
    let (c, lines) := c.read chunk
    let (c, more) := c.reads rest
    (c, lines ++ more)

/-- Lines completed earlier are only carried along. -/
theorem foldl_takeChar_lines (c : Carry) (lines : Array String) (chars : List Char) :
    chars.foldl takeChar (c, lines) =
      ((chars.foldl takeChar (c, #[])).1, lines ++ (chars.foldl takeChar (c, #[])).2) := by
  rw [foldl_takeChar_eq c.held c.openLine, foldl_takeChar_eq c.held c.openLine]
  simp

theorem foldl_takeByte_lines (c : Carry) (lines : Array String) (chunk : Bytes) :
    chunk.foldl takeByte (c, lines) =
      ((chunk.foldl takeByte (c, #[])).1, lines ++ (chunk.foldl takeByte (c, #[])).2) := by
  induction chunk generalizing c lines with
  | nil => simp
  | cons byte chunk ih =>
    have hbyte : takeByte (c, lines) byte =
        ((takeByte (c, #[]) byte).1, lines ++ (takeByte (c, #[]) byte).2) :=
      foldl_takeChar_lines { c with held := (step c.held byte).2 } lines _
    rw [List.foldl_cons, List.foldl_cons, hbyte, ih, ih _ (takeByte (c, #[]) byte).2]
    simp

theorem read_nil (c : Carry) : c.read [] = (c, []) := rfl

theorem read_append (c : Carry) (x y : Bytes) :
    c.read (x ++ y) = (((c.read x).1.read y).1, (c.read x).2 ++ ((c.read x).1.read y).2) := by
  simp only [read, List.foldl_append]
  rw [foldl_takeByte_lines (x.foldl takeByte (c, #[])).1]
  simp

theorem reads_eq_read (c : Carry) (chunks : List Bytes) :
    c.reads chunks = c.read chunks.flatten := by
  induction chunks generalizing c with
  | nil => rfl
  | cons chunk rest ih => simp only [reads, List.flatten_cons, read_append, ih]

/-- **Cuts leave no trace.** However the bytes after a reader's first chunks are cut, it ends with
the carry, the lines and the last line that it would have had from all of them in one chunk, decoded
together with what it held back. -/
theorem reads_eq_read_flatten {c : Carry} (hc : c.Reached) (chunks : List Bytes) :
    c.reads chunks = c.read chunks.flatten ∧
      c.read chunks.flatten = c.readWhole chunks.flatten ∧
      (c.reads chunks).1.finish = (c.read chunks.flatten).1.finish :=
  ⟨reads_eq_read c chunks, read_eq_readWhole hc.holdable _, by rw [reads_eq_read]⟩

/-- A reader inside a character of three bytes, then cuts inside it, between carriage return and
line feed, and before a byte that no character starts with. -/
theorem reads_inside_character :
    (Carry.empty.read [0x61, 0xE2]).1.Reached ∧
      (Carry.empty.read [0x61, 0xE2]).1.reads [[0x82], [], [0xAC, 0x0D], [0x0A], [0xFF]] =
        (Carry.empty.read [0x61, 0xE2]).1.read [0x82, 0xAC, 0x0D, 0x0A, 0xFF] ∧
      (Carry.empty.read [0x61, 0xE2]).1.read [0x82, 0xAC, 0x0D, 0x0A, 0xFF] =
        ({ openLine := "\uFFFD" }, ["a€"]) :=
  have hc : (Carry.empty.read [0x61, 0xE2]).1.Reached := .read _ .empty
  ⟨hc, (reads_eq_read_flatten hc [[0x82], [], [0xAC, 0x0D], [0x0A], [0xFF]]).1, by decide +kernel⟩

/-! ## All the lines of a byte string -/

/-- The pieces of a byte string between its line feeds, decoded as a whole. -/
def pieces (bytes : Bytes) : List String :=
  ((lossy bytes).toList.splitOn '\n').map fun piece ↦ dropReturn (.ofList piece)

/-- The lines of a byte string that have their line feed. -/
def completeLines (bytes : Bytes) : List String := (pieces bytes).dropLast

/-- What follows the last line feed, unless it is nothing. -/
def lastLine (bytes : Bytes) : Option String := (pieces bytes).getLast?.filter (!·.isEmpty)

/-- A character that is no line feed belongs to the last piece. -/
theorem linePieces_snoc (openLine : String) (chars : List Char) {ch : Char} (h : ch ≠ '\n') :
    (linePieces openLine (chars ++ [ch])).dropLast.map (fun piece ↦ dropReturn (.ofList piece)) =
        (linePieces openLine chars).dropLast.map (fun piece ↦ dropReturn (.ofList piece)) ∧
      String.ofList ((linePieces openLine (chars ++ [ch])).getLastD []) =
        (String.ofList ((linePieces openLine chars).getLastD [])).push ch := by
  have hfold := foldl_takeChar_eq [] openLine #[] (chars ++ [ch])
  rw [List.foldl_append, List.foldl_cons, List.foldl_nil, foldl_takeChar_eq, takeChar, if_neg h]
    at hfold
  simp only [Prod.mk.injEq, Carry.mk.injEq, true_and, Array.empty_append] at hfold
  exact ⟨(List.toArray_inj hfold.2).symm, hfold.1.symm⟩

theorem linePieces_empty (chars : List Char) : linePieces "" chars = chars.splitOn '\n' := by
  rw [linePieces]
  cases chars.splitOn '\n' <;> rfl

theorem read_empty (bytes : Bytes) : (Carry.empty.read bytes).2 = completeLines bytes := by
  rw [read_eq_readWhole holdable_nil, readWhole, completeLines, pieces, toList_lossy,
    ← List.map_dropLast, ← linePieces_empty]
  change (linePieces "" (settled bytes).1).dropLast.map _ = _
  split_ifs
  · rw [List.append_nil]
  · rw [(linePieces_snoc _ _ (by decide)).1]

theorem finish_read_empty (bytes : Bytes) :
    (Carry.empty.read bytes).1.finish = lastLine bytes := by
  have hlast : (linePieces "" (lossy bytes).toList).getLast? =
      some ((linePieces "" (lossy bytes).toList).getLastD []) := by
    obtain ⟨piece, rest, hcons⟩ := List.exists_cons_of_ne_nil
      (linePieces_ne_nil "" (lossy bytes).toList)
    rw [hcons]
    rfl
  have htext : (if (settled bytes).2.isEmpty then
        String.ofList ((linePieces "" (settled bytes).1).getLastD [])
      else (String.ofList ((linePieces "" (settled bytes).1).getLastD [])).push replacement) =
      .ofList ((linePieces "" (lossy bytes).toList).getLastD []) := by
    rw [toList_lossy]
    simp only [List.isEmpty_iff]
    split_ifs
    · rw [List.append_nil]
    · rw [(linePieces_snoc _ _ (by decide)).2]
  have hread : (Carry.empty.read bytes).1 =
      { held := (settled bytes).2
        openLine := .ofList ((linePieces "" (settled bytes).1).getLastD []) } := by
    rw [read_eq_readWhole holdable_nil]
    rfl
  rw [hread, finish]
  dsimp only
  rw [htext, lastLine, pieces, ← linePieces_empty, List.getLast?_map, hlast, Option.map_some,
    Option.filter_some]
  cases (dropReturn (.ofList ((linePieces "" (lossy bytes).toList).getLastD []))).isEmpty <;> rfl

end ChatStream.Carry
