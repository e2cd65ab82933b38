import ChatStream.SourceScan
import Mathlib.Data.List.Infix

/-!
# Heads of functions

The head of a function is its indentation, the words that qualify it in their order, `fn`, its name
and whatever else is on the line (`Head`). The scanner should find the function at such a line and
tell its kind, since a function that it misses lends its lines to the function above and is checked
by the rules for that one.

It goes by a few runs of characters, and `Head.enclosing_body` says how far that gets. A head is
found if nothing qualifies it, if only `async` does, or if the first word is a visibility, `const`
or `unsafe` (`Head.found`); after another first word it is passed over. It is taken for that of an
async function if `async fn ` stands on the line, be it in the name or in what follows
(`Head.Marked`), so an `async` that is not the last word does not count. The scanner is right about
a function, whatever is around it, exactly if it finds the head and the mark says what the words
say.
-/

namespace ChatStream.SourceScan

open Text

/-! ## Runs of characters -/

theorem contains_iff {run cs : List Char} : contains run cs = true ↔ run <:+: cs := by
  induction cs with
  | nil => rw [contains, List.isEmpty_iff, List.infix_nil]
  | cons c cs ih =>
    rw [contains, Bool.or_eq_true, List.isPrefixOf_iff_prefix, ih, List.infix_cons_iff]

/-- Where no comment begins, all is code. -/
theorem beforeComment_eq_self {cs : List Char} (h : ¬ [' ', '/', '/'] <:+: cs) :
    beforeComment cs = cs := by
  induction cs with
  | nil => rfl
  | cons c cs ih =>
    rw [List.infix_cons_iff, not_or] at h
    rw [beforeComment, if_neg (mt List.isPrefixOf_iff_prefix.mp h.1), ih h.2]

/-- Two texts with a character between them that a run does not have. -/
theorem infix_append_cons_of_notMem {c : Char} {run as bs : List Char} (hc : c ∉ run) :
    run <:+: as ++ c :: bs ↔ run <:+: as ∨ run <:+: bs := by
  have hempty {part : List Char} (hpart : part ⊆ run) : part <+: c :: bs → part = [] := by
    cases part with
    | nil => exact fun _ ↦ rfl
    | cons d part =>
      rw [List.cons_prefix_cons]
      rintro ⟨rfl, -⟩
      exact absurd (hpart List.mem_cons_self) hc
  constructor
  · rw [List.infix_append_iff_ne_nil, List.infix_cons_iff]
    rintro (has | (hstart | hbs) | ⟨left, right, -, hne, rfl, -, hright⟩)
    · exact .inl has
    · rw [hempty (List.Subset.refl _) hstart]
      exact .inl List.nil_infix
    · exact .inr hbs
    · exact absurd (hempty (List.subset_append_right _ _) hright) hne
  · rintro (has | hbs)
    · exact has.trans List.infix_append_left
    · exact (List.infix_cons hbs).trans List.infix_append_right

/-- A run that begins with no blank does not begin among blanks. -/
theorem infix_append_of_blank {c : Char} {run indent cs : List Char} (hc : isBlank c = false)
    (hindent : ∀ b ∈ indent, isBlank b = true) : c :: run <:+: indent ++ cs ↔ c :: run <:+: cs := by
  induction indent with
  | nil => rfl
  | cons b indent ih =>
    have hne : c ≠ b := by
      rintro rfl
      simp [hindent c List.mem_cons_self] at hc
    rw [List.cons_append, List.infix_cons_iff, List.cons_prefix_cons,
      ih fun b hb ↦ hindent b (List.mem_cons_of_mem _ hb)]
    simp [hne]

/-! ## Words before `fn` -/

/-- The words that qualify a function. -/
inductive Qualifier
  /-- The visibility, which may be restricted to a scope. -/
  | visible (scope : Option String)
  /-- The word `const`. -/
  | constant
  | async
  /-- The word `unsafe`. -/
  | unguarded
  /-- A foreign calling convention, which may be named. -/
  | foreign (convention : Option String)
  deriving DecidableEq, Repr

/-- How a qualifier is written. -/
def Qualifier.text : Qualifier → String
  | .visible none => "pub"
  | .visible (some scope) => "pub(" ++ scope ++ ")"
  | .constant => "const"
  | .async => "async"
  | .unguarded => "unsafe"
  | .foreign none => "extern"
  | .foreign (some convention) => "extern \"" ++ convention ++ "\""

/-- The place of a qualifier among the others. -/
def Qualifier.rank : Qualifier → Nat
  | .visible _ => 0
  | .constant => 1
  | .async => 2
  | .unguarded => 3
  | .foreign _ => 4

/-- A line from its first word on. -/
def declaration (tail : String) : List Qualifier → String
  | [] => "fn " ++ tail
  | q :: qualifiers => q.text ++ " " ++ declaration tail qualifiers

@[simp]
theorem toList_declaration_nil (tail : String) :
    (declaration tail []).toList = 'f' :: 'n' :: ' ' :: tail.toList := by
  simp [declaration]

@[simp]
theorem toList_declaration_cons (tail : String) (q : Qualifier) (qualifiers : List Qualifier) :
    (declaration tail (q :: qualifiers)).toList =
      q.text.toList ++ ' ' :: (declaration tail qualifiers).toList := by
  simp [declaration]

/-- What marks an async function for the scanner. -/
def mark : List Char := "async fn ".toList

theorem mark_eq : mark = ['a', 's', 'y', 'n', 'c', ' ', 'f', 'n', ' '] := rfl

/-- The mark does not reach beyond a text that ends in a character that it does not have. -/
theorem mark_infix_closed_append {c : Char} {text as : List Char} (hc : c ∉ mark)
    (htext : text = as ++ [c]) (cs : List Char) :
    mark <:+: text ++ ' ' :: cs ↔ mark <:+: text ∨ mark <:+: cs := by
  have hne : mark ≠ [] := by decide
  have hsplit : text ++ ' ' :: cs = as ++ c :: ' ' :: cs := by simp [htext]
  rw [hsplit, htext, infix_append_cons_of_notMem hc, infix_append_cons_of_notMem hc,
    List.infix_nil, or_iff_left hne, List.infix_cons_iff, mark_eq]
  simp

/-- The mark does not reach from a word into the next, except from `async` into `fn`. -/
theorem mark_infix_text_append (q : Qualifier) (cs : List Char) :
    mark <:+: q.text.toList ++ ' ' :: cs ↔
      (q = .async ∧ "fn ".toList <+: cs) ∨ mark <:+: q.text.toList ∨ mark <:+: cs := by
  rcases q with (_ | scope) | _ | _ | _ | (_ | convention)
  case visible.some =>
    have htext : (Qualifier.visible (some scope)).text.toList =
        ("pub(" ++ scope).toList ++ [')'] := by simp [Qualifier.text]
    simp [mark_infix_closed_append (by decide) htext]
  case foreign.some =>
    have htext : (Qualifier.foreign (some convention)).text.toList =
        ("extern \"" ++ convention).toList ++ ['\x22'] := by simp [Qualifier.text]
    simp [mark_infix_closed_append (by decide) htext]
  all_goals simp [Qualifier.text, mark_eq, List.infix_cons_iff]

/-- No word begins as `fn` does, nor with a blank or a comment. -/
theorem Qualifier.exists_toList_text_eq_cons (q : Qualifier) :
    ∃ c cs, q.text.toList = c :: cs ∧ isBlank c = false ∧ c ≠ 'f' ∧ c ≠ '/' := by
  rcases q with (_ | scope) | _ | _ | _ | (_ | convention) <;>
    simp [Qualifier.text, isBlank]

theorem fn_prefix_declaration {tail : String} {qualifiers : List Qualifier} :
    "fn ".toList <+: (declaration tail qualifiers).toList ↔ qualifiers = [] := by
  cases qualifiers with
  | nil => simp
  | cons q qualifiers =>
    obtain ⟨c, cs, hc, -, hne, -⟩ := q.exists_toList_text_eq_cons
    simp [hc, hne.symm]

theorem fn_infix_declaration (tail : String) (q : Qualifier) (qualifiers : List Qualifier) :
    " fn ".toList <:+: (declaration tail (q :: qualifiers)).toList := by
  induction qualifiers generalizing q with
  | nil =>
    rw [toList_declaration_cons, toList_declaration_nil]
    exact (List.IsPrefix.isInfix ⟨tail.toList, rfl⟩).trans List.infix_append_right
  | cons r qualifiers ih =>
    rw [toList_declaration_cons]
    exact (List.infix_cons (ih r)).trans List.infix_append_right

/-- Where the mark stands from the first word on. -/
theorem mark_infix_declaration {tail : String} {qualifiers : List Qualifier} :
    mark <:+: (declaration tail qualifiers).toList ↔
      qualifiers.getLast? = some .async ∨ (∃ q ∈ qualifiers, mark <:+: q.text.toList) ∨
        mark <:+: tail.toList := by
  induction qualifiers with
  | nil => simp [mark_eq, List.infix_cons_iff]
  | cons q qualifiers ih =>
    have hlast : (q :: qualifiers).getLast? = some .async ↔
        (q = .async ∧ qualifiers = []) ∨ qualifiers.getLast? = some .async := by
      cases qualifiers with
      | nil => simp
      | cons r qualifiers => simp [List.getLast?_cons_cons]
    rw [toList_declaration_cons, mark_infix_text_append, fn_prefix_declaration, ih, hlast,
      List.exists_mem_cons_iff]
    simp only [or_assoc, or_left_comm]

/-! ## Heads -/

/-- The head of a function, with no comment on its line. -/
structure Head where
  indent : String
  qualifiers : List Qualifier
  name : String
  rest : String
  blank_indent : ∀ c ∈ indent.toList, isBlank c = true
  ordered : qualifiers.Pairwise (·.rank < ·.rank)
  no_comment : ¬ " //".toList <:+: (indent ++ declaration (name ++ rest) qualifiers).toList

namespace Head

/-- The line that the head stands on. -/
def line (h : Head) : String := h.indent ++ declaration (h.name ++ h.rest) h.qualifiers

/-- The line from its first word on, character by character. -/
def unindented (h : Head) : List Char := (declaration (h.name ++ h.rest) h.qualifiers).toList

/-- The kind of the function, which the words tell. -/
def kind (h : Head) : FunctionKind := if .async ∈ h.qualifiers then .async else .sync

/-- Whether the scanner finds the function. -/
def found (h : Head) : Bool :=
  match h.qualifiers with
  | [] | [.async] | .visible _ :: _ | .constant :: _ | .unguarded :: _ => true
  | .async :: _ :: _ | .foreign _ :: _ => false

/-- Whether the mark stands on the line: as the end of the words, within the scope of the visibility
or the name of the calling convention, or after `fn`. -/
def Marked (h : Head) : Prop :=
  h.qualifiers.getLast? = some .async ∨ (∃ q ∈ h.qualifiers, mark <:+: q.text.toList) ∨
    mark <:+: (h.name ++ h.rest).toList

instance (h : Head) : Decidable h.Marked := inferInstanceAs (Decidable (_ ∨ _ ∨ _))

variable (h : Head)

theorem toList_line : h.line.toList = h.indent.toList ++ h.unindented := by
  rw [line, String.toList_append, unindented]

theorem exists_unindented_eq_cons :
    ∃ c cs, h.unindented = c :: cs ∧ isBlank c = false ∧ c ≠ '/' := by
  rw [unindented]
  cases h.qualifiers with
  | nil => exact ⟨_, _, toList_declaration_nil _, by decide, by decide⟩
  | cons q qualifiers =>
    obtain ⟨c, cs, hc, hblank, -, hslash⟩ := q.exists_toList_text_eq_cons
    exact ⟨c, _, by rw [toList_declaration_cons, hc, List.cons_append], hblank, hslash⟩

theorem dropWhile_line : h.line.toList.dropWhile isBlank = h.unindented := by
  obtain ⟨c, cs, hc, hblank, -⟩ := h.exists_unindented_eq_cons
  rw [toList_line, List.dropWhile_append_of_pos h.blank_indent, hc,
    List.dropWhile_cons_of_neg (by simp [hblank])]

/-- All of the line is code. -/
theorem codeChars_line : codeChars h.line.toList = h.line.toList := by
  obtain ⟨c, cs, hc, -, hslash⟩ := h.exists_unindented_eq_cons
  rw [codeChars, dropWhile_line, hc, if_neg (by simp [hslash.symm])]
  exact beforeComment_eq_self h.no_comment

theorem mark_infix_line : mark <:+: h.line.toList ↔ h.Marked := by
  rw [toList_line, mark_eq, infix_append_of_blank (by decide) h.blank_indent, ← mark_eq,
    unindented, mark_infix_declaration, Marked]

/-- The runs that the scanner looks for make out the heads that it finds. -/
theorem found_iff : h.found = true ↔
    "fn ".toList <+: h.unindented ∨ "async fn ".toList <+: h.unindented ∨
      ("pub".toList <+: h.unindented ∨ "const ".toList <+: h.unindented ∨
        "unsafe ".toList <+: h.unindented) ∧ " fn ".toList <:+: h.line.toList := by
  cases hq : h.qualifiers with
  | nil => simp [found, unindented, hq]
  | cons q qualifiers =>
    have hfn : " fn ".toList <:+: h.line.toList := by
      rw [toList_line, unindented, hq]
      exact (fn_infix_declaration _ _ _).trans List.infix_append_right
    rw [and_iff_left hfn]
    rcases q with (_ | scope) | _ | _ | _ | (_ | convention)
    case async =>
      cases qualifiers with
      | nil => simp [found, unindented, hq, Qualifier.text]
      | cons r qualifiers =>
        -- No word can stand for `fn` after `async `.
        obtain ⟨c, cs, hc, -, hne, -⟩ := r.exists_toList_text_eq_cons
        have hasync : Qualifier.async.text = "async" := rfl
        simp [found, unindented, hq, hasync, hc, hne.symm]
    all_goals simp [found, unindented, hq, Qualifier.text]

/-- What the scanner makes of a head. -/
theorem declares?_line :
    declares? h.line = if h.found then some (if h.Marked then .async else .sync) else none := by
  simp only [declares?, codeChars_line, dropWhile_line, Bool.or_eq_true, Bool.and_eq_true,
    List.isPrefixOf_iff_prefix, contains_iff, found_iff, ← mark_infix_line, or_assoc]
  rfl

end Head

/-- Within lines that declare nothing, the function is that of the line before them, or the nearest
above it. -/
theorem enclosing?_append {body : List String} (hbody : ∀ l ∈ body, declares? l = none)
    (above below : List String) (line : String) :
    enclosing? (above ++ line :: (body ++ below)) (above.length + body.length) =
      some ((declares? line).or (above.reverse.findSome? declares?)) := by
  have htake : (above ++ line :: (body ++ below)).take (above.length + body.length + 1) =
      above ++ line :: body := by
    rw [Nat.add_assoc, List.take_length_add_append, List.take_succ_cons, List.take_left]
  have hnone : body.reverse.findSome? declares? = none := by
    simpa using hbody
  rw [enclosing?, htake, if_neg (by simp), List.reverse_append, List.reverse_cons,
    List.append_assoc, List.findSome?_append, hnone, Option.none_or, List.singleton_append,
    List.findSome?_cons]
  cases declares? line <;> rfl

namespace Head

/-- **The function around a line.** In the body of a function the scanner answers by its head, if it
finds that, and by what is above if it does not. It tells the kind of the function, whatever is
around it, exactly if it finds the head and the mark says what the words say. -/
theorem enclosing_body (h : Head) :
    (∀ above body below, (∀ l ∈ body, declares? l = none) →
      enclosing? (above ++ h.line :: (body ++ below)) (above.length + body.length) =
        some (if h.found then some (if h.Marked then .async else .sync)
          else above.reverse.findSome? declares?)) ∧
    ((∀ above body below, (∀ l ∈ body, declares? l = none) →
      enclosing? (above ++ h.line :: (body ++ below)) (above.length + body.length) =
        some (some h.kind)) ↔ h.found ∧ (h.Marked ↔ .async ∈ h.qualifiers)) := by
  have hanswer (above body below : List String) (hbody : ∀ l ∈ body, declares? l = none) :
      enclosing? (above ++ h.line :: (body ++ below)) (above.length + body.length) =
        some (if h.found then some (if h.Marked then .async else .sync)
          else above.reverse.findSome? declares?) := by
    rw [enclosing?_append hbody, declares?_line]
    split_ifs <;> rfl
  refine ⟨hanswer, fun hright ↦ ?_, fun ⟨hfound, hmarked⟩ above body below hbody ↦ ?_⟩
  · -- The head alone, with nothing above that could be taken for it.
    have halone := (hanswer [] [] [] nofun).symm.trans (hright [] [] [] nofun)
    rw [kind] at halone
    split_ifs at halone <;> simp_all
  · rw [hanswer above body below hbody, if_pos hfound, kind]
    simp only [hmarked]

/-- An async function that the scanner does not find. -/
def passedOver : Head where
  indent := ""
  qualifiers := [.async, .unguarded]
  name := "load"
  rest := "() \x7b"
  blank_indent := by simp
  ordered := by decide
  no_comment := by decide +kernel

/-- A blocking call in an async function, which the scanner has in the function above. -/
theorem enclosing_body_passedOver :
    (∀ l ∈ ["    std::fs::read(path)"], declares? l = none) ∧
      enclosing? (["fn main() \x7b"] ++ passedOver.line :: (["    std::fs::read(path)"] ++ []))
        (["fn main() \x7b"].length + ["    std::fs::read(path)"].length) = some (some .sync) := by
  have hbody : ∀ l ∈ ["    std::fs::read(path)"], declares? l = none := by decide +kernel
  refine ⟨hbody, ?_⟩
  rw [passedOver.enclosing_body.1 _ _ _ hbody]
  decide +kernel

/-- The scanner does not find every async function. -/
theorem exists_enclosing_ne_kind :
    ¬ ∀ (h : Head) (above : List String),
      enclosing? (above ++ [h.line]) above.length = some (some h.kind) := by
  intro hall
  have hnone : enclosing? ([] ++ [passedOver.line]) 0 = some none := by decide +kernel
  have hsome := hall passedOver []
  rw [List.length_nil, hnone] at hsome
  cases hsome

end Head

end ChatStream.SourceScan
