import ChatStream.Proofs.Json.Reading
import ChatStream.Proofs.Json.Spelling

/-!
# The grammar of JSON

`Tree.SpelledBy` is the grammar: a text spells a tree if it is made of the tokens of that tree, each
in one of its spellings, with blanks around them. `Tree.parse?_eq_some_iff` says that the reader
accepts these texts and no others, and gives each its tree.

That the tokens of a tree are read back is known (`Tree.readsBack`). The other direction is about
tokens that nobody wrote. `Read` says for each place where the machine may stand which tokens have
brought it there, and `Read.step` that one more token brings it one step further; so when it has
come to a tree, it has read the tokens of that tree. The same machine settles where a numeral ends:
there is no place where it takes two numerals in a row.
-/

namespace ChatStream.Json

/-! ## Tokens that make a tree -/

/-- Behind a numeral only a comma or a closing bracket may come. -/
theorem step_step_numeral (p : Progress) (n n' : Decimal.Numeral) :
    (p.step (.numeral n)).bind (·.step (.numeral n')) = none := by
  -- Only where a value may stand is the first one taken, and then it is handed over.
  have hdeliver (levels : List Level) :
      (deliver levels (.numeral n)).step (.numeral n') = none := by
    rcases levels with _ | ⟨⟨items⟩ | ⟨members, name⟩, up⟩ <;> rfl
  cases p with
  | done t => rfl
  | reading levels pending =>
    cases pending with
    | value => exact hdeliver levels
    | firstItem => exact hdeliver levels
    | firstName | name | separator => rcases levels with _ | ⟨⟨items⟩ | ⟨members, name⟩, up⟩ <;> rfl
    | colon => rfl

theorem run_append (p : Progress) (toks toks' : List Token) :
    p.run (toks ++ toks') = (p.run toks).bind (·.run toks') := by
  induction toks generalizing p with
  | nil => rfl
  | cons tok toks ih =>
    rw [List.cons_append, Progress.run_cons, Progress.run_cons, Option.bind_assoc]
    simp only [ih]

theorem apart_of_run {p p' : Progress} {toks : List Token} (h : p.run toks = some p') :
    Apart toks := by
  rintro n n' ⟨before, after, rfl⟩
  rw [run_append, run_append, Option.bind_eq_some_iff] at h
  obtain ⟨q, hq, -⟩ := h
  rw [Option.bind_eq_some_iff] at hq
  obtain ⟨r, -, hr⟩ := hq
  rw [Progress.run_cons, Option.bind_eq_some_iff] at hr
  obtain ⟨r', hr', hr''⟩ := hr
  rw [Progress.run_cons] at hr''
  have hnone := step_step_numeral r n n'
  rw [hr', Option.bind_some] at hnone
  rw [hnone] at hr''
  cases hr''

theorem Tree.apart_tokens (t : Tree) : Apart t.tokens := by
  have hrun := t.readsBack [] []
  rw [List.append_nil] at hrun
  exact apart_of_run hrun

/-! ## What the machine has read -/

/-- Items, each with the comma behind it. -/
def itemsBehind (items : List Tree) : List Token := items.flatMap fun t ↦ t.tokens ++ [.comma]

/-- Members, each with the comma behind it. -/
def membersBehind (members : List (Option String × Tree)) : List Token :=
  members.flatMap fun m ↦ .text m.1 :: .colon :: (m.2.tokens ++ [.comma])

/-- What was read of an open bracket up to the value that it waits for. -/
def Level.tokens : Level → List Token
  | .array items => .openArray :: itemsBehind items.reverse
  | .object members name =>
    .openObject :: (membersBehind members.reverse ++ [.text name, .colon])

/-- What was read of the open brackets, the outermost first. -/
def levelTokens (levels : List Level) : List Token := levels.reverse.flatMap Level.tokens

/-- The tokens have brought the machine to where it stands. -/
inductive Read : Progress → List Token → Prop
  | done (t : Tree) : Read (.done t) t.tokens
  | value (levels : List Level) : Read (.reading levels .value) (levelTokens levels)
  | firstItem (up : List Level) :
    Read (.reading (.array [] :: up) .firstItem) (levelTokens up ++ [.openArray])
  | firstName (name : Option String) (up : List Level) :
    Read (.reading (.object [] name :: up) .firstName) (levelTokens up ++ [.openObject])
  | name (members : List (Option String × Tree)) (name : Option String) (up : List Level) :
    Read (.reading (.object members name :: up) .name)
      (levelTokens up ++ .openObject :: membersBehind members.reverse)
  | colon (members : List (Option String × Tree)) (name : Option String) (up : List Level) :
    Read (.reading (.object members name :: up) .colon)
      (levelTokens up ++ .openObject :: (membersBehind members.reverse ++ [.text name]))
  | item (t : Tree) (items : List Tree) (up : List Level) :
    Read (.reading (.array (t :: items) :: up) .separator)
      (levelTokens up ++ .openArray :: (itemsBehind items.reverse ++ t.tokens))
  | member (k : Option String) (t : Tree) (members : List (Option String × Tree))
    (name : Option String) (up : List Level) :
    Read (.reading (.object ((k, t) :: members) name :: up) .separator)
      (levelTokens up ++
        .openObject :: (membersBehind members.reverse ++ .text k :: .colon :: t.tokens))

theorem levelTokens_cons (level : Level) (up : List Level) :
    levelTokens (level :: up) = levelTokens up ++ level.tokens := by
  simp [levelTokens]

theorem itemTokens_concat (items : List Tree) (t : Tree) :
    itemTokens (items ++ [t]) = itemsBehind items ++ t.tokens := by
  induction items with
  | nil => simp [itemTokens, itemsBehind]
  | cons item items ih =>
    obtain ⟨next, rest, hcons⟩ := List.exists_cons_of_ne_nil (l := items ++ [t]) (by simp)
    rw [List.cons_append, hcons, itemTokens_cons, ← hcons, ih]
    simp [itemsBehind]

theorem memberTokens_concat (members : List (Option String × Tree)) (k : Option String) (t : Tree) :
    memberTokens (members ++ [(k, t)]) =
      membersBehind members ++ .text k :: .colon :: t.tokens := by
  induction members with
  | nil => simp [memberTokens, membersBehind]
  | cons m members ih =>
    obtain ⟨next, rest, hcons⟩ := List.exists_cons_of_ne_nil (l := members ++ [(k, t)]) (by simp)
    obtain ⟨k', t'⟩ := m
    rw [List.cons_append, hcons, memberTokens_cons, ← hcons, ih]
    simp [membersBehind]

/-- A value is handed to the bracket that waits for it. -/
theorem read_deliver (levels : List Level) (t : Tree) :
    Read (deliver levels t) (levelTokens levels ++ t.tokens) := by
  rcases levels with _ | ⟨⟨items⟩ | ⟨members, name⟩, up⟩
  · exact .done t
  · rw [levelTokens_cons, Level.tokens, List.append_assoc, List.cons_append]
    exact .item t items up
  · rw [levelTokens_cons, Level.tokens, List.append_assoc, List.cons_append, List.append_assoc]
    exact .member name t members none up

theorem read_beginValue {levels : List Level} {tok : Token} {p : Progress}
    (h : beginValue levels tok = some p) : Read p (levelTokens levels ++ [tok]) := by
  cases tok with
  | openArray =>
    cases h
    exact .firstItem levels
  | openObject =>
    cases h
    exact .firstName none levels
  | closeArray | closeObject | comma | colon => cases h
  | _ =>
    cases h
    exact read_deliver levels _

theorem read_takeName {members : List (Option String × Tree)} {name : Option String}
    {up : List Level} {tok : Token} {p : Progress}
    (h : takeName (.object members name :: up) tok = some p) :
    Read p (levelTokens up ++ .openObject :: (membersBehind members.reverse ++ [tok])) := by
  cases tok with
  | text k =>
    cases h
    exact .colon members k up
  | _ => cases h

/-- One more token brings the machine one step further. -/
theorem Read.step {p p' : Progress} {toks : List Token} {tok : Token} (h : Read p toks)
    (hstep : p.step tok = some p') : Read p' (toks ++ [tok]) := by
  -- One case for each place where the machine may stand; a bracket that closes hands over a value.
  cases h with
  | done t => cases hstep
  | value levels => exact read_beginValue hstep
  | firstItem up =>
    simp only [Progress.step] at hstep
    split_ifs at hstep with hclose
    · subst hclose
      cases hstep
      have hread := read_deliver up (.array [])
      simpa [Tree.tokens, itemTokens] using hread
    · have hread := read_beginValue hstep
      simpa [levelTokens_cons, Level.tokens, itemsBehind] using hread
  | firstName name up =>
    simp only [Progress.step] at hstep
    split_ifs at hstep with hclose
    · subst hclose
      cases hstep
      have hread := read_deliver up (.object [])
      simpa [Tree.tokens, memberTokens] using hread
    · have hread := read_takeName hstep
      simpa [membersBehind] using hread
  | name members name up =>
    have hread := read_takeName hstep
    simpa using hread
  | colon members name up =>
    simp only [Progress.step] at hstep
    split_ifs at hstep with hcolon
    subst hcolon
    cases hstep
    have hread := Read.value (.object members name :: up)
    simpa [levelTokens_cons, Level.tokens] using hread
  | item t items up =>
    cases tok with
    | comma =>
      cases hstep
      have hread := Read.value (.array (t :: items) :: up)
      simpa [levelTokens_cons, Level.tokens, itemsBehind] using hread
    | closeArray =>
      cases hstep
      have hread := read_deliver up (.array (t :: items).reverse)
      simpa [Tree.tokens, itemTokens_concat] using hread
    | _ => cases hstep
  | member k t members name up =>
    cases tok with
    | comma =>
      cases hstep
      have hread := Read.name ((k, t) :: members) name up
      simpa [membersBehind] using hread
    | closeObject =>
      cases hstep
      have hread := read_deliver up (.object ((k, t) :: members).reverse)
      simpa [Tree.tokens, memberTokens_concat] using hread
    | _ => cases hstep

theorem Read.run {p p' : Progress} {toks toks' : List Token} (h : Read p toks)
    (hrun : p.run toks' = some p') : Read p' (toks ++ toks') := by
  induction toks' generalizing p toks with
  | nil =>
    cases hrun
    rwa [List.append_nil]
  | cons tok toks' ih =>
    rw [Progress.run_cons, Option.bind_eq_some_iff] at hrun
    obtain ⟨q, hq, hrest⟩ := hrun
    rw [List.append_cons]
    exact ih (h.step hq) hrest

/-- Tokens that make a tree are the tokens of that tree. -/
theorem Tree.tokens_of_ofTokens? {toks : List Token} {t : Tree} (h : Tree.ofTokens? toks = some t) :
    t.tokens = toks := by
  rw [ofTokens?] at h
  split at h
  · rename_i t' hrun
    cases h
    have hread := (Read.value []).run hrun
    generalize htoks : levelTokens [] ++ toks = toks' at hread
    cases hread
    exact htoks.symm
  · cases h

/-! ## Texts -/

/-- The text is a way to write the tree. -/
def Tree.SpelledBy (t : Tree) (s : String) : Prop := TokensSpelled t.tokens s.toList

/-- **The reader is the grammar.** A text is read as a tree if and only if it is a way to write
it. -/
theorem Tree.parse?_eq_some_iff {s : String} {t : Tree} :
    Tree.parse? s = some t ↔ t.SpelledBy s := by
  rw [parse?, tokens?, Option.bind_eq_some_iff]
  constructor
  · rintro ⟨toks, hscan, htree⟩
    obtain ⟨toks', rfl, hspelled⟩ := tokensSpelled_of_scan hscan
    rwa [SpelledBy, tokens_of_ofTokens? htree]
  · intro h
    exact ⟨t.tokens, scanTokens_eq h t.apart_tokens [] (Nat.le_refl _), t.ofTokens?_tokens⟩

/-- An object is written between braces, and with blanks around them. -/
theorem Tree.SpelledBy.braces {members : List (Option String × Tree)} {s : String}
    (h : (Tree.object members).SpelledBy s) :
    ∃ ws mid ws', s.toList = ws ++ ('\x7b' :: mid ++ ['\x7d']) ++ ws' ∧
      (∀ c ∈ ws, isSpace c = true) ∧ (∀ c ∈ ws', isSpace c = true) ∧
      (Tree.object members).SpelledBy (.ofList ('\x7b' :: mid ++ ['\x7d'])) := by
  rw [SpelledBy, tokens] at h
  obtain ⟨front, back, hs, hfront, hback⟩ := h.exists_append
  rw [← List.singleton_append] at hfront
  obtain ⟨opening, inside, rfl, hopening, hinside⟩ := hfront.exists_append
  obtain ⟨ws, _, ws₁, rfl, ⟨⟩, hws, hws₁⟩ := hopening.exists_of_singleton
  obtain ⟨ws₂, _, ws', rfl, ⟨⟩, hws₂, hws'⟩ := hback.exists_of_singleton
  have hclosing : TokensSpelled [.closeObject] (ws₂ ++ ['\x7d']) :=
    hws₂.append (.cons .closeObject .nil)
  have hobject := TokensSpelled.cons .openObject ((hws₁.append hinside).append hclosing)
  refine ⟨ws, ws₁ ++ inside ++ ws₂, ws', ?_, hws.isSpace_of_nil, hws'.isSpace_of_nil, ?_⟩
  · rw [hs]
    simp
  · rw [SpelledBy, tokens, String.toList_ofList]
    simpa using hobject

/-! ## Trees as they are written -/

/-- The text of tokens written one behind the other. -/
theorem toList_foldl_render (out : String) (toks : List Token) :
    (toks.foldl (fun out tok ↦ out ++ tok.render) out).toList =
      out.toList ++ toks.flatMap fun tok ↦ tok.render.toList := by
  induction toks generalizing out with
  | nil => simp
  | cons tok toks ih => simp [ih]

theorem Tree.toList_render (t : Tree) :
    t.render.toList = t.tokens.flatMap fun tok ↦ tok.render.toList :=
  toList_foldl_render "" t.tokens

/-- What is written for a tree spells it, as long as each numeral is spelled by its characters. -/
theorem Tree.spelledBy_render_of_numerals {t : Tree}
    (h : ∀ n, .numeral n ∈ t.tokens → NumeralSpelled n n.chars) : t.SpelledBy t.render := by
  rw [SpelledBy, toList_render]
  exact tokensSpelled_render h

theorem Tree.spelledBy_render {t : Tree} (h : ∀ tok ∈ t.tokens, ∀ n, tok ≠ .numeral n) :
    t.SpelledBy t.render :=
  spelledBy_render_of_numerals fun n hn ↦ absurd rfl (h _ hn n)

end ChatStream.Json
