import Mathlib.Tactic
import ChatStream.Json.Tree

/-!
# Trees are read back

The tokens of a tree, read one after another, are that tree again. `Tree.readsBack` says so wherever
a value may stand, with any tokens behind it, so that the items of an array and the members of an
object can be put together from it.
-/

namespace ChatStream.Json

theorem itemTokens_cons (t t' : Tree) (ts : List Tree) :
    itemTokens (t :: t' :: ts) = t.tokens ++ .comma :: itemTokens (t' :: ts) := by
  rw [itemTokens]
  nofun

theorem memberTokens_cons (k : Option String) (t : Tree) (m : Option String × Tree)
    (ms : List (Option String × Tree)) :
    memberTokens ((k, t) :: m :: ms) =
      .text k :: .colon :: (t.tokens ++ .comma :: memberTokens (m :: ms)) := by
  rw [memberTokens]
  · rfl
  · nofun

theorem Progress.run_cons (p : Progress) (tok : Token) (toks : List Token) :
    p.run (tok :: toks) = (p.step tok).bind fun p ↦ p.run toks := by
  rw [run]
  cases p.step tok <;> rfl

/-- The tree is read back from its tokens, wherever a value may stand. -/
def Tree.ReadsBack (t : Tree) : Prop :=
  ∀ levels rest,
    (Progress.reading levels .value).run (t.tokens ++ rest) = (deliver levels t).run rest

/-- The items of an array, from the first on. -/
theorem run_itemTokens (up : List Level) (done : List Tree) {t : Tree} {ts : List Tree}
    (h : ∀ item ∈ t :: ts, item.ReadsBack) (rest : List Token) :
    (Progress.reading (.array done :: up) .value).run
        (itemTokens (t :: ts) ++ .closeArray :: rest) =
      (deliver up (.array (done.reverse ++ t :: ts))).run rest := by
  induction ts generalizing done t with
  | nil =>
    have hclose : (Progress.reading (.array (t :: done) :: up) .separator).step .closeArray =
        some (deliver up (.array (t :: done).reverse)) := rfl
    rw [itemTokens, h t List.mem_cons_self, deliver, Progress.run_cons, hclose, Option.bind_some,
      List.reverse_cons]
  | cons t' ts ih =>
    obtain ⟨ht, hts⟩ := List.forall_mem_cons.mp h
    have hcomma : (Progress.reading (.array (t :: done) :: up) .separator).step .comma =
        some (.reading (.array (t :: done) :: up) .value) := rfl
    rw [itemTokens_cons, List.append_assoc, ht, deliver, List.cons_append, Progress.run_cons,
      hcomma, Option.bind_some, ih (t :: done) hts, List.reverse_cons, List.append_assoc,
      List.singleton_append]

/-- One member of an object. -/
theorem run_member (up : List Level) (done : List (Option String × Tree)) (name k : Option String)
    {t : Tree} (ht : t.ReadsBack) (rest : List Token) :
    (Progress.reading (.object done name :: up) .name).run
        (.text k :: .colon :: (t.tokens ++ rest)) =
      (Progress.reading (.object ((k, t) :: done) none :: up) .separator).run rest := by
  have hname : (Progress.reading (.object done name :: up) .name).step (.text k) =
      some (.reading (.object done k :: up) .colon) := rfl
  have hcolon : (Progress.reading (.object done k :: up) .colon).step .colon =
      some (.reading (.object done k :: up) .value) := rfl
  rw [Progress.run_cons, hname, Option.bind_some, Progress.run_cons, hcolon, Option.bind_some, ht,
    deliver]

/-- The members of an object, from the first on. -/
theorem run_memberTokens (up : List Level) (done : List (Option String × Tree))
    (name : Option String) {m : Option String × Tree} {ms : List (Option String × Tree)}
    (h : ∀ member ∈ m :: ms, member.2.ReadsBack) (rest : List Token) :
    (Progress.reading (.object done name :: up) .name).run
        (memberTokens (m :: ms) ++ .closeObject :: rest) =
      (deliver up (.object (done.reverse ++ m :: ms))).run rest := by
  obtain ⟨k, t⟩ := m
  induction ms generalizing done name k t with
  | nil =>
    have hclose : (Progress.reading (.object ((k, t) :: done) none :: up) .separator).step
        .closeObject = some (deliver up (.object ((k, t) :: done).reverse)) := rfl
    rw [memberTokens, List.cons_append, List.cons_append,
      run_member _ _ _ _ (h (k, t) List.mem_cons_self), Progress.run_cons, hclose,
      Option.bind_some, List.reverse_cons]
  | cons m' ms ih =>
    obtain ⟨ht, hms⟩ := List.forall_mem_cons.mp h
    have hcomma : (Progress.reading (.object ((k, t) :: done) none :: up) .separator).step .comma =
        some (.reading (.object ((k, t) :: done) none :: up) .name) := rfl
    rw [memberTokens_cons, List.cons_append, List.cons_append, List.append_assoc,
      run_member _ _ _ _ ht, List.cons_append, Progress.run_cons, hcomma, Option.bind_some,
      ih _ _ _ _ hms, List.reverse_cons, List.append_assoc, List.singleton_append]

/-- The first item of an array is read as any other value, for it does not begin with the closing
bracket. -/
theorem run_firstItem (levels : List Level) (t : Tree) (toks : List Token) :
    (Progress.reading levels .firstItem).run (t.tokens ++ toks) =
      (Progress.reading levels .value).run (t.tokens ++ toks) := by
  have hfirst : ∀ tok ≠ Token.closeArray, ∀ toks,
      (Progress.reading levels .firstItem).run (tok :: toks) =
        (Progress.reading levels .value).run (tok :: toks) := by
    intro tok htok toks
    have hstep : (Progress.reading levels .firstItem).step tok =
        (Progress.reading levels .value).step tok := if_neg htok
    rw [Progress.run_cons, Progress.run_cons, hstep]
  cases t <;> exact hfirst _ (by nofun) _

/-- **Trees are read back.** -/
theorem Tree.readsBack : (t : Tree) → t.ReadsBack
  | .null | .truth _ | .numeral _ | .text _ | .array [] | .object [] => fun _ _ ↦ rfl
  | .array (t :: ts) => fun levels rest ↦ by
    have hitems : ∀ item ∈ t :: ts, item.ReadsBack := fun item _ ↦ item.readsBack
    have hopen (toks : List Token) : (Progress.reading levels .value).run (.openArray :: toks) =
        (Progress.reading (.array [] :: levels) .firstItem).run toks := rfl
    have hfirst : ∃ toks, itemTokens (t :: ts) = t.tokens ++ toks := by
      cases ts with
      | nil => exact ⟨[], (List.append_nil _).symm⟩
      | cons t' ts => exact ⟨_, itemTokens_cons t t' ts⟩
    obtain ⟨toks, htoks⟩ := hfirst
    have hrun := run_itemTokens levels [] hitems rest
    rw [Tree.tokens, List.append_assoc, List.cons_append, hopen, List.singleton_append]
    rw [htoks, List.append_assoc] at hrun ⊢
    rw [run_firstItem, hrun, List.reverse_nil, List.nil_append]
  | .object (m :: ms) => fun levels rest ↦ by
    have hmembers : ∀ member ∈ m :: ms, member.2.ReadsBack := fun member _ ↦ member.2.readsBack
    have hopen (toks : List Token) : (Progress.reading levels .value).run (.openObject :: toks) =
        (Progress.reading (.object [] none :: levels) .firstName).run toks := rfl
    have hfirst : ∃ k toks, memberTokens (m :: ms) = .text k :: toks := by
      obtain ⟨k, t⟩ := m
      cases ms with
      | nil => exact ⟨k, _, rfl⟩
      | cons m' ms => exact ⟨k, _, memberTokens_cons k t m' ms⟩
    obtain ⟨k, toks, htoks⟩ := hfirst
    have hrun := run_memberTokens levels [] none hmembers rest
    rw [Tree.tokens, List.append_assoc, List.cons_append, hopen, List.singleton_append]
    rw [htoks, List.cons_append] at hrun ⊢
    rw [Progress.run_cons] at hrun ⊢
    exact hrun
termination_by t => t
decreasing_by
  · rename_i hitem
    have := List.sizeOf_lt_of_mem hitem
    simp only [Tree.array.sizeOf_spec]
    omega
  · rename_i hmember
    have := List.sizeOf_lt_of_mem hmember
    obtain ⟨k, t⟩ := member
    simp only [Tree.object.sizeOf_spec, Prod.mk.sizeOf_spec] at this ⊢
    omega

theorem Tree.ofTokens?_tokens (t : Tree) : Tree.ofTokens? t.tokens = some t := by
  have hrun := t.readsBack [] []
  rw [List.append_nil] at hrun
  rw [Tree.ofTokens?, hrun]
  rfl

end ChatStream.Json
