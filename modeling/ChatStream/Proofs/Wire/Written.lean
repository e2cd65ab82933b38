import ChatStream.Proofs.Text.Encoding
import ChatStream.Proofs.Wire.Lines
import ChatStream.Proofs.Wire.Payload

/-!
# Answers as they are written

A server writes an answer as event lines: a line for each fragment, and a last one that ends the
answer, perhaps with a fragment of its own. `WrittenAnswer` is such an answer, with the end of each
line; `WrittenAnswer.wireText` is its text on the wire.

Four layers are taken back here, one after the other. Bytes are decoded as they were encoded
(`pieces_encode`). A line ends where it was written to end, for a quoted text has no line feed in it
and every line ends in a brace, so no carriage return that belongs to a line is lost (`IsLine`).
A payload begins and ends with a brace, so trimming leaves it alone, and it is not the announcement
(`parse_marked_object`). And a tree is read back from its text.
-/

namespace ChatStream

open Json Text

/-! ## Event lines -/

/-- What ends a line. -/
inductive LineEnd
  | feed
  | returnFeed
  deriving DecidableEq, Repr

/-- The characters that end a line. -/
def LineEnd.text : LineEnd → String
  | .feed => "\n"
  | .returnFeed => "\r\n"

/-- The line of a fragment. -/
def fragmentLine (s : String) : String := "data: \x7b\"content\":" ++ quote s ++ "\x7d"

/-- The line that ends an answer. -/
def closingLine : Option String → String
  | some t => "data: \x7b\"content\":" ++ quote t ++ ",\"done\":true\x7d"
  | none => "data: \x7b\"done\":true\x7d"

/-- An answer in event lines. -/
structure WrittenAnswer where
  /-- The fragments, each with the end of its line. -/
  fragments : List (String × LineEnd)
  /-- The fragment that comes with the end of the answer. -/
  trailing : Option String
  /-- The end of the last line, which may be left out. -/
  lastEnd : Option LineEnd
  deriving DecidableEq, Repr

namespace WrittenAnswer

/-- The text of the answer. -/
def text (a : WrittenAnswer) : String :=
  .join (a.fragments.map Prod.fst) ++ a.trailing.getD ""

/-- The lines of fragments, each with its end. -/
def fragmentText (fragments : List (String × LineEnd)) : String :=
  .join (fragments.map fun (s, e) ↦ fragmentLine s ++ e.text)

/-- The answer on the wire. -/
def wireText (a : WrittenAnswer) : String :=
  fragmentText a.fragments ++ closingLine a.trailing ++ a.lastEnd.elim "" LineEnd.text

/-- The lines of the answer. -/
def lines (a : WrittenAnswer) : List String :=
  (a.fragments.map fun (s, _) ↦ fragmentLine s) ++ [closingLine a.trailing]

end WrittenAnswer

/-! ## Events of lines -/

/-- An object is written between braces. -/
theorem toList_render_object (members : List (Option String × Tree)) :
    ∃ mid, (Tree.object members).render.toList = '\x7b' :: mid ++ ['\x7d'] := by
  refine ⟨(memberTokens members).flatMap fun tok ↦ tok.render.toList, ?_⟩
  rw [Tree.toList_render, Tree.tokens]
  simp [Token.render]

/-- The event of an object that is written behind the marker. -/
theorem parse_marked_object {members : List (Option String × Tree)}
    (h : ∀ tok ∈ (Tree.object members).tokens, ∀ n, tok ≠ .numeral n) :
    ({} : LineFormat).parse ("data: " ++ (Tree.object members).render) =
      ((Payload.ofTree? (.object members)).map Payload.event).getD .unknown := by
  have hparse : ({} : LineFormat).parse ("data: " ++ ("" ++ (Tree.object members).render ++ "")) =
      _ := parse_object (Tree.spelledBy_render h) nofun nofun
  rwa [String.empty_append, String.append_empty] at hparse

/-- The payload of a fragment. -/
def fragmentMembers (s : String) : List (Option String × Tree) :=
  [(some "content", .text (some s))]

/-- The payload that ends an answer. -/
def closingMembers (t : Option String) : List (Option String × Tree) :=
  (t.toList.flatMap fragmentMembers) ++ [(some "done", .truth true)]

theorem fragmentLine_eq (s : String) :
    fragmentLine s = "data: " ++ (Tree.object (fragmentMembers s)).render := by
  unfold fragmentLine
  apply String.toList_inj.mp
  simp [fragmentMembers, Tree.toList_render, Tree.tokens, memberTokens, Token.render, toList_quote,
    escapeChar]

theorem closingLine_eq (t : Option String) :
    closingLine t = "data: " ++ (Tree.object (closingMembers t)).render := by
  unfold closingLine
  apply String.toList_inj.mp
  cases t <;> simp [closingMembers, fragmentMembers, Tree.toList_render, Tree.tokens, memberTokens,
    Token.render, toList_quote, escapeChar]

theorem fragmentTokens_ne_numeral (s : String) :
    ∀ tok ∈ (Tree.object (fragmentMembers s)).tokens, ∀ n, tok ≠ .numeral n := by
  simp [fragmentMembers, Tree.tokens, memberTokens]

theorem closingTokens_ne_numeral (t : Option String) :
    ∀ tok ∈ (Tree.object (closingMembers t)).tokens, ∀ n, tok ≠ .numeral n := by
  cases t <;> simp [closingMembers, fragmentMembers, Tree.tokens, memberTokens]

/-- A fragment is read back; an empty one says nothing. -/
theorem parse_fragmentLine (s : String) :
    ({} : LineFormat).parse (fragmentLine s) = if s.isEmpty then .unknown else .content s := by
  have hpayload : Payload.ofTree? (.object (fragmentMembers s)) = some { content := some s } := by
    simp [fragmentMembers, Payload.ofTree?, Tree.fields?, uniqueMember?, optional?, Tree.string?]
  rw [fragmentLine_eq, parse_marked_object (fragmentTokens_ne_numeral s), hpayload, Option.map_some,
    Option.getD_some, Payload.event, Option.bind_none]
  dsimp only
  rw [Option.filter_some]
  cases s.isEmpty <;> rfl

/-- The end of an answer is read back, with its fragment unless that is empty. -/
theorem parse_closingLine (t : Option String) :
    ({} : LineFormat).parse (closingLine t) = .done (t.filter (!·.isEmpty)) := by
  have hpayload : Payload.ofTree? (.object (closingMembers t)) =
      some { content := t, done := some true } := by
    cases t <;> simp [closingMembers, fragmentMembers, Payload.ofTree?, Tree.fields?, uniqueMember?,
      optional?, Tree.string?, Tree.truth?]
  rw [closingLine_eq, parse_marked_object (closingTokens_ne_numeral t), hpayload, Option.map_some,
    Option.getD_some]
  rfl

/-- Leaving out an empty fragment leaves no text out. -/
theorem getD_filter_isEmpty (t : Option String) : (t.filter (!·.isEmpty)).getD "" = t.getD "" := by
  cases t with
  | none => rfl
  | some t =>
    rw [Option.filter_some]
    by_cases hempty : t.isEmpty = true
    · simp [String.isEmpty_iff.mp hempty]
    · simp [hempty]

/-! ## Lines of texts -/

/-- A line that stays as it is behind its end: no line feed is in it, and no carriage return ends
it. -/
def IsLine (line : String) : Prop := '\n' ∉ line.toList ∧ line.toList.getLast? ≠ some '\r'

theorem feed_not_mem_escapeChar (c : Char) : '\n' ∉ escapeChar c := by
  by_cases hfeed : c = '\n'
  · subst hfeed
    decide
  · rw [escapeChar]
    split_ifs <;> simp [Ne.symm hfeed]

theorem feed_not_mem_render {tok : Token} (h : ∀ n, tok ≠ .numeral n) :
    '\n' ∉ tok.render.toList := by
  cases tok with
  | numeral n => exact absurd rfl (h n)
  | truth b => cases b <;> decide
  | text s =>
    cases s with
    | some s =>
      rw [Token.render, toList_quote]
      simp [feed_not_mem_escapeChar]
    | none => decide
  | _ => decide

theorem isLine_marked_object {members : List (Option String × Tree)}
    (h : ∀ tok ∈ (Tree.object members).tokens, ∀ n, tok ≠ .numeral n) :
    IsLine ("data: " ++ (Tree.object members).render) := by
  have hmarker : '\n' ∉ "data: ".toList := by decide
  constructor
  · rw [String.toList_append, Tree.toList_render, List.mem_append, List.mem_flatMap]
    rintro (hfront | ⟨tok, htok, hfeed⟩)
    · exact hmarker hfront
    · exact feed_not_mem_render (h tok htok) hfeed
  · obtain ⟨mid, hrender⟩ := toList_render_object members
    rw [String.toList_append, hrender, ← List.append_assoc, List.getLast?_concat]
    decide

theorem isLine_fragmentLine (s : String) : IsLine (fragmentLine s) := by
  rw [fragmentLine_eq]
  exact isLine_marked_object (fragmentTokens_ne_numeral s)

theorem isLine_closingLine (t : Option String) : IsLine (closingLine t) := by
  rw [closingLine_eq]
  exact isLine_marked_object (closingTokens_ne_numeral t)

namespace Carry

open Utf8

theorem dropReturn_of_isLine {line : String} (h : IsLine line) : dropReturn line = line := by
  rw [dropReturn]
  split
  · rename_i hreturn
    exact absurd hreturn h.2
  · rfl

theorem dropReturn_return (line : String) :
    dropReturn (.ofList (line.toList ++ ['\r'])) = line := by
  simp [dropReturn]

/-- The pieces of a text as it was written. -/
theorem pieces_encode (s : String) :
    pieces (encode s) = (s.toList.splitOn '\n').map fun piece ↦ dropReturn (.ofList piece) := by
  rw [pieces, lossy_encode]

theorem pieces_of_isLine {line : String} (h : IsLine line) : pieces (encode line) = [line] := by
  rw [pieces_encode, List.splitOn_eq_singleton h.1, List.map_singleton, String.ofList_toList,
    dropReturn_of_isLine h]

/-- A line and its end are one piece, and the rest goes on behind it. -/
theorem pieces_append {line : String} (h : IsLine line) (e : LineEnd) (rest : String) :
    pieces (encode (line ++ e.text ++ rest)) = line :: pieces (encode rest) := by
  have hsplit : ∀ start : List Char, '\n' ∉ start →
      (start ++ '\n' :: rest.toList).splitOn '\n' = start :: rest.toList.splitOn '\n' :=
    fun start hstart ↦ List.splitOn_append_cons_self_of_not_mem hstart rest.toList
  rw [pieces_encode, pieces_encode]
  cases e with
  | feed =>
    have htext : (line ++ LineEnd.feed.text ++ rest).toList =
        line.toList ++ '\n' :: rest.toList := by
      simp [LineEnd.text]
    rw [htext, hsplit _ h.1, List.map_cons, String.ofList_toList, dropReturn_of_isLine h]
  | returnFeed =>
    have htext : (line ++ LineEnd.returnFeed.text ++ rest).toList =
        (line.toList ++ ['\r']) ++ '\n' :: rest.toList := by
      simp [LineEnd.text]
    rw [htext, hsplit _ (by simp [h.1]), List.map_cons, dropReturn_return]

end Carry

namespace WrittenAnswer

open Utf8 Carry

theorem pieces_fragmentText (fragments : List (String × LineEnd)) (rest : String) :
    Carry.pieces (encode (fragmentText fragments ++ rest)) =
      (fragments.map fun (s, _) ↦ fragmentLine s) ++ Carry.pieces (encode rest) := by
  induction fragments with
  | nil => simp [fragmentText]
  | cons f fragments ih =>
    obtain ⟨s, e⟩ := f
    have htext : fragmentText ((s, e) :: fragments) ++ rest =
        fragmentLine s ++ e.text ++ (fragmentText fragments ++ rest) := by
      rw [fragmentText, List.map_cons, String.join_cons, String.append_assoc]
      rfl
    rw [htext, pieces_append (isLine_fragmentLine s), ih]
    rfl

/-- The pieces of an answer are its lines, and an empty one behind the last line if that has an
end. -/
theorem pieces_wireText (a : WrittenAnswer) :
    Carry.pieces (encode a.wireText) = a.lines ++ if a.lastEnd.isSome then [""] else [] := by
  have hempty : Carry.pieces (encode "") = [""] := pieces_of_isLine ⟨nofun, nofun⟩
  rw [wireText, lines, String.append_assoc, pieces_fragmentText]
  cases a.lastEnd with
  | none =>
    rw [Option.elim_none, String.append_empty, pieces_of_isLine (isLine_closingLine _)]
    simp
  | some e =>
    have hclosing := pieces_append (isLine_closingLine a.trailing) e ""
    rw [String.append_empty, hempty] at hclosing
    rw [Option.elim_some, hclosing]
    simp

end WrittenAnswer

end ChatStream
