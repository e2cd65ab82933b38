import ChatStream.Proofs.Text.Subparts
import ChatStream.Wire.Lines

/-!
# Every line feed ends a line

A line feed is one byte, and that byte is part of no other character. So whatever bytes are held
back when it comes, they are settled before it and it is read for itself (`step_feed`); and no other
byte brings a line feed about (`feed_not_mem_step`). Lines are therefore counted by looking at the
bytes, however malformed they are: a chunk completes as many lines as it has line feeds.

The main statement is `answers_run_new`, about a reader to which chunks, ends and clearings come in
any order. Its count is that of the line feeds and of the last lines, and no line has a line feed in
it. After an end or a clearing the reader is as good as new, but for its count.
-/

namespace ChatStream

namespace Utf8

/-! ## Line feeds in bytes and in text -/

theorem standing_feed : standing [0x0A] = .complete '\n' := rfl

/-- No character is begun by other bytes and goes on with a line feed. -/
theorem standing_snoc_feed {held : Bytes} (h : held ≠ []) :
    standing (held ++ [0x0A]) = .broken := by
  have htail : isContinuation 0x0A = false := rfl
  have hlead (a : UInt8) : followsLead a 0x0A = false := by
    rw [Bool.eq_false_iff]
    intro hfollows
    exact Bool.false_ne_true (htail ▸ (bounds_of_followsLead hfollows).2.1)
  match held with
  | [] => exact absurd rfl h
  | [a] | [a, _] | [a, _, _] => simp [standing, hlead, htail]
  | _ :: _ :: _ :: _ :: _ => simp [standing]

/-- A line feed settles what is held back, and is then read for itself. -/
theorem step_feed (held : Bytes) :
    step held 0x0A = ((if held.isEmpty then [] else [replacement]) ++ ['\n'], []) := by
  cases held with
  | nil => rfl
  | cons a held =>
    rw [step, standing_snoc_feed (by simp)]
    simp [standing_feed]

theorem eq_feed_of_standing {held : Bytes} {b : UInt8}
    (h : standing (held ++ [b]) = .complete '\n') : b = 0x0A := by
  have hbytes := eq_utf8EncodeChar h
  rw [show String.utf8EncodeChar '\n' = [] ++ [0x0A] from rfl] at hbytes
  exact List.singleton_inj.mp (List.append_inj' hbytes rfl).2

/-- No other byte brings a line feed about. -/
theorem feed_not_mem_step (held : Bytes) {b : UInt8} (hb : b ≠ 0x0A) : '\n' ∉ (step held b).1 := by
  have hreplacement : '\n' ≠ replacement := by decide
  have hchar (h : Bytes) {c : Char} (hc : standing (h ++ [b]) = .complete c) : '\n' ≠ c := by
    rintro rfl
    exact hb (eq_feed_of_standing hc)
  rw [step]
  split
  · rename_i c hc
    simpa using hchar held hc
  · exact List.not_mem_nil
  · split
    · simpa using hreplacement
    · split
      · rename_i c hc
        simpa [hreplacement] using hchar [] hc
      · simpa using hreplacement
      · simpa using hreplacement

theorem count_feed_step (held : Bytes) (b : UInt8) :
    (step held b).1.count '\n' = [b].count 0x0A := by
  by_cases hb : b = 0x0A
  · subst hb
    rw [step_feed]
    split <;> rfl
  · rw [List.count_eq_zero_of_not_mem (feed_not_mem_step held hb),
      List.count_eq_zero_of_not_mem (by simpa using Ne.symm hb)]

end Utf8

namespace Carry

open Utf8

/-! ## Lines of chunks -/

theorem size_takeChar (p : Progress) (c : Char) :
    (takeChar p c).2.size = p.2.size + [c].count '\n' := by
  rw [takeChar]
  split_ifs with hc
  · simp [hc]
  · rw [List.count_eq_zero_of_not_mem (by simpa using Ne.symm hc)]
    rfl

theorem size_foldl_takeChar (p : Progress) (cs : List Char) :
    (cs.foldl takeChar p).2.size = p.2.size + cs.count '\n' := by
  induction cs generalizing p with
  | nil => rfl
  | cons c cs ih =>
    rw [List.foldl_cons, ih, size_takeChar, Nat.add_assoc, ← List.count_append,
      List.singleton_append]

theorem size_foldl_takeByte (p : Progress) (chunk : Bytes) :
    (chunk.foldl takeByte p).2.size = p.2.size + chunk.count 0x0A := by
  induction chunk generalizing p with
  | nil => rfl
  | cons b chunk ih =>
    have hbyte : (takeByte p b).2.size = p.2.size + [b].count 0x0A := by
      rw [← count_feed_step p.1.held b]
      exact size_foldl_takeChar _ _
    rw [List.foldl_cons, ih, hbyte, Nat.add_assoc, ← List.count_append, List.singleton_append]

/-- A chunk completes as many lines as it has line feeds. -/
theorem length_read (c : Carry) (chunk : Bytes) : (c.read chunk).2.length = chunk.count 0x0A := by
  have hsize := size_foldl_takeByte (c, #[]) chunk
  rw [read, Array.length_toList, hsize]
  exact Nat.zero_add _

/-- Neither the open line nor a line given out has a line feed in it. -/
def Whole (p : Progress) : Prop :=
  '\n' ∉ p.1.openLine.toList ∧ ∀ line ∈ p.2, '\n' ∉ line.toList

theorem feed_not_mem_dropReturn {line : String} (h : '\n' ∉ line.toList) :
    '\n' ∉ (dropReturn line).toList := by
  rw [dropReturn]
  split
  · rw [String.toList_ofList]
    exact fun hmem ↦ h (List.dropLast_subset _ hmem)
  · exact h

theorem Whole.takeChar {p : Progress} (hp : Whole p) (c : Char) : Whole (takeChar p c) := by
  obtain ⟨hopen, hlines⟩ := hp
  rw [Carry.takeChar]
  split_ifs with hc
  · refine ⟨List.not_mem_nil, fun line hline ↦ ?_⟩
    rcases Array.mem_push.mp hline with hline | rfl
    · exact hlines line hline
    · exact feed_not_mem_dropReturn hopen
  · refine ⟨?_, hlines⟩
    rw [String.toList_push, List.mem_append, List.mem_singleton]
    exact not_or.mpr ⟨hopen, Ne.symm hc⟩

theorem Whole.takeByte {p : Progress} (hp : Whole p) (b : UInt8) : Whole (takeByte p b) := by
  have hfold (cs : List Char) : ∀ {p : Progress}, Whole p → Whole (cs.foldl Carry.takeChar p) := by
    induction cs with
    | nil => exact id
    | cons c cs ih => exact fun hp ↦ ih (hp.takeChar c)
  exact hfold (step p.1.held b).1 (p := ({ p.1 with held := (step p.1.held b).2 }, p.2)) hp

/-- A chunk leaves an open line without a line feed, and completes lines without one. -/
theorem feed_not_mem_read {c : Carry} (hc : '\n' ∉ c.openLine.toList) (chunk : Bytes) :
    '\n' ∉ (c.read chunk).1.openLine.toList ∧ ∀ line ∈ (c.read chunk).2, '\n' ∉ line.toList := by
  have hfold : ∀ {p : Progress}, Whole p → Whole (chunk.foldl Carry.takeByte p) := by
    induction chunk with
    | nil => exact id
    | cons b chunk ih => exact fun hp ↦ ih (hp.takeByte b)
  obtain ⟨hopen, hlines⟩ := hfold (p := (c, #[])) ⟨hc, by simp⟩
  exact ⟨hopen, fun line hline ↦ hlines line (Array.mem_toList_iff.mp hline)⟩

theorem feed_not_mem_finish {c : Carry} (hc : '\n' ∉ c.openLine.toList) {line : String}
    (h : c.finish = some line) : '\n' ∉ line.toList := by
  have hreplacement : '\n' ≠ replacement := by decide
  have htext : '\n' ∉
      (if c.held.isEmpty then c.openLine else c.openLine.push replacement).toList := by
    split_ifs
    · exact hc
    · rw [String.toList_push, List.mem_append, List.mem_singleton]
      exact not_or.mpr ⟨hc, hreplacement⟩
  simp only [finish, Option.ite_none_left_eq_some, Option.some.injEq] at h
  exact h.2 ▸ feed_not_mem_dropReturn htext

end Carry

namespace LineReader

/-! ## Readers at work -/

/-- What may be done with a reader. -/
inductive Op
  | push (chunk : Bytes)
  | finish
  | clear
  deriving DecidableEq, Repr

/-- What a reader gives out in return. -/
inductive Answer
  | lines (lines : List String)
  | last (line : Option String)
  | nothing
  deriving DecidableEq, Repr

/-- The bytes that come with an operation. -/
def Op.bytes : Op → Bytes
  | .push chunk => chunk
  | _ => []

/-- Whether a last line is given out. -/
def Answer.isLast : Answer → Bool
  | .last line => line.isSome
  | _ => false

/-- What an operation makes of a reader, and what is given out. -/
def apply (r : LineReader) : Op → LineReader × Answer
  | .push chunk => ((r.push chunk).1, .lines (r.push chunk).2)
  | .finish => (r.finish.1, .last r.finish.2)
  | .clear => (r.clear, .nothing)

/-- Operations one after another. -/
def run (r : LineReader) : List Op → LineReader × List Answer
  | [] => (r, [])
  | op :: ops =>
    (((r.apply op).1.run ops).1, (r.apply op).2 :: ((r.apply op).1.run ops).2)

/-- An operation is answered as it should be: a chunk with a line for each line feed in it, an end
with at most one line, and neither with a line feed in a line. -/
def Answers : Op → Answer → Prop
  | .push chunk, .lines lines =>
    lines.length = chunk.count 0x0A ∧ ∀ line ∈ lines, '\n' ∉ line.toList
  | .finish, .last line => ∀ text ∈ line, '\n' ∉ text.toList
  | .clear, .nothing => True
  | _, _ => False

theorem run_cons (r : LineReader) (op : Op) (ops : List Op) :
    r.run (op :: ops) =
      (((r.apply op).1.run ops).1, (r.apply op).2 :: ((r.apply op).1.run ops).2) := rfl

theorem run_append (r : LineReader) (before after : List Op) :
    r.run (before ++ after) =
      (((r.run before).1.run after).1, (r.run before).2 ++ ((r.run before).1.run after).2) := by
  induction before generalizing r with
  | nil => rfl
  | cons op before ih => rw [List.cons_append, run_cons, run_cons, ih, List.cons_append]

theorem carry_finish (r : LineReader) : r.finish.1.carry = .empty := by
  rw [finish]
  split <;> rfl

theorem snd_finish (r : LineReader) : r.finish.2 = r.carry.finish := by
  rw [finish]
  split <;> simp_all

theorem apply_congr {r r' : LineReader} (h : r.carry = r'.carry) (op : Op) :
    (r.apply op).1.carry = (r'.apply op).1.carry ∧ (r.apply op).2 = (r'.apply op).2 := by
  cases op with
  | push chunk => simp [apply, push, h]
  | finish => simp [apply, carry_finish, snd_finish, h]
  | clear => exact ⟨rfl, rfl⟩

/-- What is given out depends on the carry alone. -/
theorem run_congr {r r' : LineReader} (h : r.carry = r'.carry) (ops : List Op) :
    (r.run ops).2 = (r'.run ops).2 := by
  induction ops generalizing r r' with
  | nil => rfl
  | cons op ops ih =>
    obtain ⟨hcarry, hanswer⟩ := apply_congr h op
    rw [run_cons, run_cons, ih hcarry, hanswer]

/-- One operation, with what it adds to the count. -/
theorem apply_spec {r : LineReader} (hr : '\n' ∉ r.carry.openLine.toList) (op : Op) :
    Answers op (r.apply op).2 ∧ '\n' ∉ (r.apply op).1.carry.openLine.toList ∧
      (r.apply op).1.lineCount =
        r.lineCount + op.bytes.count 0x0A + if (r.apply op).2.isLast then 1 else 0 := by
  cases op with
  | push chunk =>
    obtain ⟨hopen, hlines⟩ := Carry.feed_not_mem_read hr chunk
    have hlength := Carry.length_read r.carry chunk
    exact ⟨⟨hlength, hlines⟩, hopen, congrArg (r.lineCount + ·) hlength⟩
  | finish =>
    refine ⟨?_, ?_, ?_⟩
    · rw [apply, snd_finish]
      exact fun line hline ↦ Carry.feed_not_mem_finish hr hline
    · rw [apply, carry_finish]
      exact List.not_mem_nil
    · rw [apply, Answer.isLast, snd_finish, finish]
      split <;> simp_all [Op.bytes]
  | clear => exact ⟨trivial, List.not_mem_nil, rfl⟩

theorem run_spec {r : LineReader} (hr : '\n' ∉ r.carry.openLine.toList) (ops : List Op) :
    List.Forall₂ Answers ops (r.run ops).2 ∧
      (r.run ops).1.lineCount =
        r.lineCount + (ops.flatMap Op.bytes).count 0x0A + (r.run ops).2.countP Answer.isLast := by
  induction ops generalizing r with
  | nil => exact ⟨.nil, rfl⟩
  | cons op ops ih =>
    obtain ⟨hanswer, hopen, hcount⟩ := apply_spec hr op
    obtain ⟨hanswers, hcounts⟩ := ih hopen
    refine ⟨.cons hanswer hanswers, ?_⟩
    rw [run_cons, hcounts, hcount, List.flatMap_cons, List.count_append, List.countP_cons]
    omega

/-- **Every line feed ends a line.** Whatever chunks, ends and clearings a reader is given, each is
answered as it should be, a line is counted for every line feed and for every last line, and behind
an end or a clearing the reader gives out what a new one does. -/
theorem answers_run_new (ops : List Op) :
    List.Forall₂ Answers ops (new.run ops).2 ∧
      (new.run ops).1.lineCount =
        (ops.flatMap Op.bytes).count 0x0A + (new.run ops).2.countP Answer.isLast ∧
      ∀ after, (new.run (ops ++ .finish :: after)).2 =
          (new.run (ops ++ [.finish])).2 ++ (new.run after).2 ∧
        (new.run (ops ++ .clear :: after)).2 =
          (new.run (ops ++ [.clear])).2 ++ (new.run after).2 := by
  obtain ⟨hanswers, hcount⟩ := run_spec (r := new) List.not_mem_nil ops
  have hfresh (op : Op) (hop : ∀ r : LineReader, (r.apply op).1.carry = .empty) (after : List Op) :
      (new.run (ops ++ op :: after)).2 = (new.run (ops ++ [op])).2 ++ (new.run after).2 := by
    have hcarry : (new.run (ops ++ [op])).1.carry = new.carry := by
      rw [run_append]
      exact hop _
    rw [List.append_cons, run_append new (ops ++ [op]) after]
    exact congrArg (_ ++ ·) (run_congr hcarry after)
  refine ⟨hanswers, ?_, fun after ↦
    ⟨hfresh .finish carry_finish after, hfresh .clear (fun _ ↦ rfl) after⟩⟩
  rw [hcount, new, Nat.zero_add]

end LineReader

end ChatStream
