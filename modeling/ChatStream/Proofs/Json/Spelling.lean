import Mathlib.Data.List.TakeWhile
import Mathlib.Tactic
import ChatStream.Json.Tree

/-!
# How tokens are spelled

Most tokens of JSON can be written in more than one way: an exponent with either letter, a character
of a string plainly or with an escape, and blanks wherever one token ends. `Token.Spelled` and
`TokensSpelled` say which texts are ways to write a token or a list of tokens, and the scanners are
held to them in both directions. What is scanned was spelled (`spelled_of_scan`,
`tokensSpelled_of_scan`), and what is spelled is scanned (`scanToken?_append`, `scanTokens_eq`).

A numeral is the one token whose end depends on what follows it: behind the digits of one, the
digits of another would be its own. So the second direction is about tokens of which no two numerals
stand side by side (`Apart`). Behind any other token a numeral ends where that token begins.

The writer has one way among these for each token, as long as its numerals are spelled by their own
characters (`Token.spelled_render`).
-/

namespace ChatStream.Json

open Decimal

/-! ## Numerals -/

/-- Decimal digits, and at least one. -/
def IsDigits (ds : List Char) : Prop := ds ≠ [] ∧ ∀ d ∈ ds, d.isDigit = true

/-- How a fraction is written. -/
inductive FractionSpelled : Option (List Char) → List Char → Prop
  | none : FractionSpelled none []
  | some {ds : List Char} (hds : IsDigits ds) : FractionSpelled (some ds) ('.' :: ds)

/-- How an exponent is written: with either letter, and with or without a sign. -/
inductive ExponentSpelled : Option Int → List Char → Prop
  | none : ExponentSpelled none []
  | plain {e : Char} {ds : List Char} (he : e = 'e' ∨ e = 'E') (hds : IsDigits ds) :
    ExponentSpelled (some (ofDigits ds)) (e :: ds)
  | plus {e : Char} {ds : List Char} (he : e = 'e' ∨ e = 'E') (hds : IsDigits ds) :
    ExponentSpelled (some (ofDigits ds)) (e :: '+' :: ds)
  | minus {e : Char} {ds : List Char} (he : e = 'e' ∨ e = 'E') (hds : IsDigits ds) :
    ExponentSpelled (some (-ofDigits ds)) (e :: '-' :: ds)

/-- How a numeral is written: a zero stands before no other digit. -/
inductive NumeralSpelled : Numeral → List Char → Prop
  | mk {negative : Bool} {whole : List Char} {fraction : Option (List Char)} {exponent : Option Int}
    {fs es : List Char} (hwhole : IsDigits whole) (hzero : whole.head? = some '0' → whole = ['0'])
    (hfraction : FractionSpelled fraction fs) (hexponent : ExponentSpelled exponent es) :
    NumeralSpelled ⟨negative, whole, fraction, exponent⟩
      ((if negative then ['-'] else []) ++ (whole ++ (fs ++ es)))

/-- No numeral goes on with what follows. -/
def EndsNumeral (rest : List Char) : Prop :=
  ∀ c ∈ rest.head?, c.isDigit = false ∧ c ≠ '.' ∧ c ≠ 'e' ∧ c ≠ 'E'

theorem spanDigits_eq (cs : List Char) :
    spanDigits cs = (cs.takeWhile Char.isDigit, cs.dropWhile Char.isDigit) :=
  List.span_eq_takeWhile_dropWhile _ _

theorem spanDigits_append {ds rest : List Char} (hds : ∀ d ∈ ds, d.isDigit = true)
    (hrest : ∀ c ∈ rest.head?, c.isDigit = false) : spanDigits (ds ++ rest) = (ds, rest) := by
  have hnone : rest.takeWhile Char.isDigit = [] ∧ rest.dropWhile Char.isDigit = rest := by
    cases rest with
    | nil => exact ⟨rfl, rfl⟩
    | cons c rest =>
      have hc := hrest c rfl
      simp [hc]
  rw [spanDigits_eq, List.takeWhile_append_of_pos hds, List.dropWhile_append_of_pos hds, hnone.1,
    hnone.2, List.append_nil]

theorem of_spanDigits {cs ds rest : List Char} (h : spanDigits cs = (ds, rest)) :
    cs = ds ++ rest ∧ ∀ d ∈ ds, d.isDigit = true := by
  rw [spanDigits_eq, Prod.mk.injEq] at h
  obtain ⟨rfl, rfl⟩ := h
  exact ⟨(List.takeWhile_append_dropWhile).symm, fun d hd ↦ List.mem_takeWhile_imp hd⟩

theorem IsDigits.exists_cons {ds : List Char} (h : IsDigits ds) :
    ∃ d ds', ds = d :: ds' ∧ d.isDigit = true := by
  obtain ⟨d, ds', rfl⟩ := List.exists_cons_of_ne_nil h.1
  exact ⟨d, ds', rfl, h.2 d List.mem_cons_self⟩

theorem ne_of_isDigit {c d : Char} (hd : d.isDigit = true) (hc : c.isDigit = false) : d ≠ c := by
  rintro rfl
  rw [hd] at hc
  cases hc

theorem scanExponent?_append {e : Option Int} {es rest : List Char} (h : ExponentSpelled e es)
    (hrest : EndsNumeral rest) : scanExponent? (es ++ rest) = some (e, rest) := by
  have hspan {ds : List Char} (hds : IsDigits ds) : spanDigits (ds ++ rest) = (ds, rest) :=
    spanDigits_append hds.2 fun c hc ↦ (hrest c hc).1
  cases h with
  | none =>
    cases rest with
    | nil => rfl
    | cons c rest =>
      obtain ⟨-, -, hlower, hupper⟩ := hrest c rfl
      exact if_neg (not_or.mpr ⟨hlower, hupper⟩)
  | plain he hds =>
    have h := hspan hds
    obtain ⟨d, ds, rfl, hd⟩ := hds.exists_cons
    have hminus := ne_of_isDigit hd (c := '-') rfl
    have hplus := ne_of_isDigit hd (c := '+') rfl
    simp only [List.cons_append] at h ⊢
    simp [scanExponent?, he, hminus, hplus, h]
  | plus he hds =>
    have h := hspan hds
    obtain ⟨d, ds, rfl, hd⟩ := hds.exists_cons
    simp only [List.cons_append] at h ⊢
    simp [scanExponent?, he, h]
  | minus he hds =>
    have h := hspan hds
    obtain ⟨d, ds, rfl, hd⟩ := hds.exists_cons
    simp only [List.cons_append] at h ⊢
    simp [scanExponent?, he, h]

theorem exponentSpelled_of_scan {cs rest : List Char} {e : Option Int}
    (h : scanExponent? cs = some (e, rest)) : ∃ es, ExponentSpelled e es ∧ cs = es ++ rest := by
  rw [scanExponent?.eq_def] at h
  split at h
  · rename_i c cs
    split_ifs at h with hc
    · split at h
      rename_i negative body hsign
      split at h
      · cases h
      · rename_i ds rest' hne hspan
        cases h
        obtain ⟨rfl, hall⟩ := of_spanDigits hspan
        have hds : IsDigits ds := ⟨hne, hall⟩
        split at hsign <;> cases hsign
        · exact ⟨_, .minus hc hds, rfl⟩
        · exact ⟨_, .plus hc hds, rfl⟩
        · exact ⟨_, .plain hc hds, rfl⟩
    · cases h
      exact ⟨[], .none, rfl⟩
  · cases h
    exact ⟨[], .none, rfl⟩

theorem ExponentSpelled.endsDigits {e : Option Int} {es rest : List Char}
    (h : ExponentSpelled e es) (hrest : EndsNumeral rest) :
    ∀ c ∈ (es ++ rest).head?, c.isDigit = false ∧ c ≠ '.' := by
  cases h with
  | none => exact fun c hc ↦ ⟨(hrest c hc).1, (hrest c hc).2.1⟩
  | plain he | plus he | minus he =>
    rintro c hc
    cases hc
    rcases he with rfl | rfl <;> decide

theorem scanNumeral?_append {n : Numeral} {cs rest : List Char} (h : NumeralSpelled n cs)
    (hrest : EndsNumeral rest) : scanNumeral? (cs ++ rest) = some (n, rest) := by
  cases h with
  | @mk negative whole fraction exponent fs es hwhole hzero hfraction hexponent =>
    have hexp := scanExponent?_append hexponent hrest
    have hends := hexponent.endsDigits hrest
    have hspan : spanDigits (whole ++ (fs ++ (es ++ rest))) = (whole, fs ++ (es ++ rest)) := by
      refine spanDigits_append hwhole.2 ?_
      cases hfraction with
      | none => exact fun c hc ↦ (hends c hc).1
      | some => simp
    obtain ⟨d, ds, rfl, hd⟩ := hwhole.exists_cons
    rw [scanNumeral?.eq_def]
    split
    rename_i negative' body hsign
    obtain ⟨rfl, rfl⟩ : negative' = negative ∧ body = d :: ds ++ (fs ++ (es ++ rest)) := by
      have hminus := ne_of_isDigit hd (c := '-') rfl
      cases negative with
      | true => simpa [eq_comm] using hsign
      | false => simpa [hminus, eq_comm] using hsign
    rw [hspan]
    split
    · rename_i heq
      cases heq
    -- A zero before other digits is not spelled.
    · rename_i heq
      cases heq
      cases hzero rfl
    -- Behind a point stands the fraction, for nothing else that may follow begins with one.
    · rename_i heq
      obtain ⟨rfl, hpoint⟩ := Prod.mk.inj heq
      cases hfraction with
      | none => exact absurd rfl (hends '.' (by rw [List.nil_append] at hpoint; rw [hpoint]; rfl)).2
      | some hds =>
        rw [List.cons_append, List.cons.injEq] at hpoint
        obtain ⟨-, rfl⟩ := hpoint
        rw [spanDigits_append hds.2 fun c hc ↦ (hends c hc).1]
        obtain ⟨d', ds', rfl, -⟩ := hds.exists_cons
        dsimp only
        rw [hexp]
        rfl
    · rename_i hpoint heq
      obtain ⟨rfl, rfl⟩ := Prod.mk.inj heq
      cases hfraction with
      | none =>
        rw [List.nil_append, hexp]
        rfl
      | some => exact (hpoint _ rfl).elim

theorem numeralSpelled_of_scan {cs rest : List Char} {n : Numeral}
    (h : scanNumeral? cs = some (n, rest)) : ∃ ns, NumeralSpelled n ns ∧ cs = ns ++ rest := by
  rw [scanNumeral?.eq_def] at h
  split at h
  rename_i negative body hsign
  have hcs : cs = (if negative then ['-'] else []) ++ body := by
    split at hsign <;> cases hsign <;> rfl
  have hzero {whole : List Char} (h : ∀ d ds, whole = '0' :: d :: ds → False)
      (hhead : whole.head? = some '0') : whole = ['0'] := by
    match whole, hhead with
    | ['0'], _ => rfl
    | _ :: d :: ds, rfl => exact (h d ds rfl).elim
  split at h
  · cases h
  · cases h
  · rename_i whole rest' hne hlong hspan
    obtain ⟨rfl, hall⟩ := of_spanDigits hspan
    split at h
    · cases h
    · rename_i ds rest'' hne' hspan'
      obtain ⟨rfl, hall'⟩ := of_spanDigits hspan'
      rw [Option.map_eq_some_iff] at h
      obtain ⟨⟨exponent, rest₃⟩, hexp, hn⟩ := h
      cases hn
      obtain ⟨es, hes, rfl⟩ := exponentSpelled_of_scan hexp
      refine ⟨_, .mk ⟨hne, hall⟩ (hzero hlong) (.some ⟨hne', hall'⟩) hes, ?_⟩
      rw [hcs]
      simp
  · rename_i whole rest' hne hlong hpoint hspan
    obtain ⟨rfl, hall⟩ := of_spanDigits hspan
    rw [Option.map_eq_some_iff] at h
    obtain ⟨⟨exponent, rest₃⟩, hexp, hn⟩ := h
    cases hn
    obtain ⟨es, hes, rfl⟩ := exponentSpelled_of_scan hexp
    refine ⟨_, .mk ⟨hne, hall⟩ (hzero hlong) .none hes, ?_⟩
    rw [hcs]
    simp

/-! ## Strings -/

/-- How one place in a string is written. -/
inductive PieceSpelled : Piece → List Char → Prop
  /-- A character that is no quote, no backslash and no control stands for itself. -/
  | plain {c : Char} (hquote : c ≠ '"') (hescape : c ≠ '\\') (hcontrol : 0x20 ≤ c.toNat) :
    PieceSpelled (.char c) [c]
  | simple {e c : Char} (h : simpleEscape? e = some c) : PieceSpelled (.char c) ['\\', e]
  | hex {a b c d : Char} {p : Piece} (h : hexPiece? a b c d = some p) :
    PieceSpelled p ['\\', 'u', a, b, c, d]

/-- How the inside of a string is written. -/
inductive PiecesSpelled : List Piece → List Char → Prop
  | nil : PiecesSpelled [] []
  | cons {p : Piece} {ps : List Piece} {cs rest : List Char} (hp : PieceSpelled p cs)
    (hps : PiecesSpelled ps rest) : PiecesSpelled (p :: ps) (cs ++ rest)

theorem scanString_piece {p : Piece} {cs : List Char} (h : PieceSpelled p cs) (done : List Piece)
    (rest : List Char) : scanString done (cs ++ rest) = scanString (p :: done) rest := by
  cases h with
  | @plain c hquote hescape hcontrol =>
    rw [List.singleton_append, scanString.eq_def]
    split <;> simp_all
  | @simple e c h =>
    have he : e ≠ 'u' := by
      rintro rfl
      cases h
    simp [scanString, h, he]
  | hex h => simp [scanString, h]

theorem scanString_append {ps : List Piece} {cs : List Char} (h : PiecesSpelled ps cs)
    (done : List Piece) (rest : List Char) :
    scanString done (cs ++ '"' :: rest) = some (done.reverse ++ ps, rest) := by
  induction h generalizing done with
  | nil => simp [scanString]
  | cons hp _ ih =>
    rw [List.append_assoc, scanString_piece hp, ih]
    simp

theorem piecesSpelled_of_scan {done ps : List Piece} {cs rest : List Char}
    (h : scanString done cs = some (ps, rest)) :
    ∃ ps' cs', PiecesSpelled ps' cs' ∧ ps = done.reverse ++ ps' ∧ cs = cs' ++ '"' :: rest := by
  fun_induction scanString done cs with
  | case1 => cases h
  | case2 =>
    cases h
    exact ⟨[], [], .nil, by simp, rfl⟩
  | case3 done a b c d rest' p hp ih =>
    obtain ⟨ps', cs', hcs, rfl, rfl⟩ := ih h
    exact ⟨p :: ps', _, .cons (.hex hp) hcs, by simp, rfl⟩
  | case4 => cases h
  | case5 done e rest' hnot c hc ih =>
    obtain ⟨ps', cs', hcs, rfl, rfl⟩ := ih h
    exact ⟨.char c :: ps', _, .cons (.simple hc) hcs, by simp, rfl⟩
  | case6 => cases h
  | case7 => cases h
  | case8 done c rest' hquote _ _ hplain ih =>
    obtain ⟨ps', cs', hcs, rfl, rfl⟩ := ih h
    obtain ⟨hescape, hcontrol⟩ := not_or.mp hplain
    have hplain := PieceSpelled.plain (by simpa using hquote) hescape (Nat.not_lt.mp hcontrol)
    exact ⟨.char c :: ps', _, .cons hplain hcs, by simp, rfl⟩

/-! ## Tokens -/

/-- How a token is written. -/
inductive Token.Spelled : Token → List Char → Prop
  | openArray : Spelled .openArray ['[']
  | closeArray : Spelled .closeArray [']']
  | openObject : Spelled .openObject ['\x7b']
  | closeObject : Spelled .closeObject ['\x7d']
  | comma : Spelled .comma [',']
  | colon : Spelled .colon [':']
  | null : Spelled .null ['n', 'u', 'l', 'l']
  | truth : Spelled (.truth true) ['t', 'r', 'u', 'e']
  | falsity : Spelled (.truth false) ['f', 'a', 'l', 's', 'e']
  | numeral {n : Numeral} {cs : List Char} (h : NumeralSpelled n cs) : Spelled (.numeral n) cs
  | text {ps : List Piece} {cs : List Char} (h : PiecesSpelled ps cs) :
    Spelled (.text (spell? "" ps)) ('"' :: (cs ++ ['"']))

/-- How tokens are written: with blanks in any number before, between and behind them. -/
inductive TokensSpelled : List Token → List Char → Prop
  | nil : TokensSpelled [] []
  | blank {toks : List Token} {c : Char} {cs : List Char} (hc : isSpace c = true)
    (h : TokensSpelled toks cs) : TokensSpelled toks (c :: cs)
  | cons {tok : Token} {toks : List Token} {cs rest : List Char} (htok : tok.Spelled cs)
    (h : TokensSpelled toks rest) : TokensSpelled (tok :: toks) (cs ++ rest)

theorem TokensSpelled.append {toks toks' : List Token} {cs cs' : List Char}
    (h : TokensSpelled toks cs) (h' : TokensSpelled toks' cs') :
    TokensSpelled (toks ++ toks') (cs ++ cs') := by
  induction h with
  | nil => exact h'
  | blank hc _ ih => exact .blank hc ih
  | cons htok _ ih =>
    rw [List.append_assoc]
    exact .cons htok ih

theorem TokensSpelled.exists_append {toks toks' : List Token} {cs : List Char}
    (h : TokensSpelled (toks ++ toks') cs) :
    ∃ front back, cs = front ++ back ∧ TokensSpelled toks front ∧ TokensSpelled toks' back := by
  generalize hall : toks ++ toks' = all at h
  induction h generalizing toks with
  | nil =>
    obtain ⟨rfl, rfl⟩ := List.append_eq_nil_iff.mp hall
    exact ⟨[], [], rfl, .nil, .nil⟩
  | blank hc _ ih =>
    obtain ⟨front, back, rfl, hfront, hback⟩ := ih hall
    exact ⟨_ :: front, back, rfl, .blank hc hfront, hback⟩
  | cons htok h ih =>
    cases toks with
    | nil =>
      subst hall
      exact ⟨[], _, rfl, .nil, .cons htok h⟩
    | cons tok toks =>
      cases hall
      obtain ⟨front, back, rfl, hfront, hback⟩ := ih rfl
      exact ⟨_, back, (List.append_assoc ..).symm, .cons htok hfront, hback⟩

theorem TokensSpelled.isSpace_of_nil {ws : List Char} (h : TokensSpelled [] ws) :
    ∀ c ∈ ws, isSpace c = true := by
  generalize hall : [] = toks at h
  induction h with
  | nil => nofun
  | blank hc _ ih => exact List.forall_mem_cons.mpr ⟨hc, ih hall⟩
  | cons => cases hall

theorem TokensSpelled.exists_of_singleton {tok : Token} {cs : List Char}
    (h : TokensSpelled [tok] cs) :
    ∃ ws mid ws', cs = ws ++ mid ++ ws' ∧ tok.Spelled mid ∧ TokensSpelled [] ws ∧
      TokensSpelled [] ws' := by
  generalize hall : [tok] = toks at h
  induction h with
  | nil => cases hall
  | blank hc _ ih =>
    obtain ⟨ws, mid, ws', rfl, hmid, hws, hws'⟩ := ih hall
    exact ⟨_ :: ws, mid, ws', rfl, hmid, .blank hc hws, hws'⟩
  | cons htok h =>
    cases hall
    exact ⟨[], _, _, rfl, htok, .nil, h⟩

theorem NumeralSpelled.head {n : Numeral} {cs : List Char} (h : NumeralSpelled n cs) :
    ∃ c cs', cs = c :: cs' ∧ (c = '-' ∨ c.isDigit = true) := by
  cases h with
  | @mk negative whole fraction exponent fs es hwhole =>
    cases negative with
    | true => exact ⟨_, _, rfl, .inl rfl⟩
    | false =>
      obtain ⟨d, ds, rfl, hd⟩ := hwhole.exists_cons
      exact ⟨d, _, rfl, .inr hd⟩

theorem scanToken?_append {tok : Token} {cs : List Char} (h : tok.Spelled cs) {rest : List Char}
    (hrest : ∀ n, tok = .numeral n → EndsNumeral rest) :
    scanToken? (cs ++ rest) = some (tok, rest) := by
  cases h with
  | numeral h =>
    have hscan := scanNumeral?_append h (hrest _ rfl)
    obtain ⟨c, cs', rfl, hc⟩ := h.head
    rw [List.cons_append] at hscan ⊢
    rw [scanToken?.eq_def]
    split
    case h_11 =>
      rw [hscan]
      rfl
    all_goals
      rename_i heq
      obtain ⟨rfl, -⟩ := List.cons.inj heq
      exact absurd hc (by decide)
  | text h => simp [scanToken?, scanString_append h]
  | _ => rfl

theorem spelled_of_scan {cs rest : List Char} {tok : Token} (h : scanToken? cs = some (tok, rest)) :
    ∃ cs', tok.Spelled cs' ∧ cs = cs' ++ rest := by
  rw [scanToken?.eq_def] at h
  split at h
  case h_10 =>
    rw [Option.map_eq_some_iff] at h
    obtain ⟨⟨ps, rest'⟩, hscan, htok⟩ := h
    cases htok
    obtain ⟨ps', cs', hcs, rfl, rfl⟩ := piecesSpelled_of_scan hscan
    exact ⟨_, .text hcs, by simp⟩
  case h_11 =>
    rw [Option.map_eq_some_iff] at h
    obtain ⟨⟨n, rest'⟩, hscan, htok⟩ := h
    cases htok
    obtain ⟨cs', hcs, rfl⟩ := numeralSpelled_of_scan hscan
    exact ⟨cs', .numeral hcs, rfl⟩
  all_goals cases h
  · exact ⟨_, .openArray, rfl⟩
  · exact ⟨_, .closeArray, rfl⟩
  · exact ⟨_, .openObject, rfl⟩
  · exact ⟨_, .closeObject, rfl⟩
  · exact ⟨_, .comma, rfl⟩
  · exact ⟨_, .colon, rfl⟩
  · exact ⟨_, .null, rfl⟩
  · exact ⟨_, .truth, rfl⟩
  · exact ⟨_, .falsity, rfl⟩

/-- Every token takes a character, and none begins with a blank. -/
theorem Token.Spelled.exists_cons {tok : Token} {cs : List Char} (h : tok.Spelled cs) :
    ∃ c cs', cs = c :: cs' ∧ isSpace c = false := by
  cases h with
  | numeral h =>
    obtain ⟨c, cs', rfl, hc⟩ := h.head
    refine ⟨c, cs', rfl, ?_⟩
    rcases hc with rfl | hc
    · rfl
    · simp [isSpace, ne_of_isDigit hc]
  | _ => exact ⟨_, _, rfl, rfl⟩

/-- A numeral ends where another token begins. -/
theorem Token.Spelled.endsNumeral {tok : Token} {cs : List Char} (h : tok.Spelled cs)
    (htok : ∀ n, tok ≠ .numeral n) (rest : List Char) : EndsNumeral (cs ++ rest) := by
  cases h with
  | numeral => exact absurd rfl (htok _)
  | _ =>
    intro c hc
    cases hc
    decide

/-- No numeral stands right behind another. -/
def Apart (toks : List Token) : Prop := ∀ n n' : Numeral, ¬ [.numeral n, .numeral n'] <:+: toks

theorem TokensSpelled.endsNumeral {toks : List Token} {cs : List Char} (h : TokensSpelled toks cs)
    (htoks : ∀ n, toks.head? ≠ some (.numeral n)) : EndsNumeral cs := by
  cases h with
  | nil => nofun
  | blank hc h =>
    rename_i c cs
    intro d hd
    cases hd
    simp only [isSpace, Bool.or_eq_true, decide_eq_true_eq] at hc
    rcases hc with ((rfl | rfl) | rfl) | rfl <;> decide
  | cons htok h => exact htok.endsNumeral (fun n hn ↦ htoks n (by rw [hn]; rfl)) _

/-- Tokens are found in every text that is made of them. -/
theorem scanTokens_eq {toks : List Token} {cs : List Char} (h : TokensSpelled toks cs)
    (hapart : Apart toks) (done : List Token) {fuel : Nat} (hfuel : cs.length ≤ fuel) :
    scanTokens done fuel cs = some (done.reverse ++ toks) := by
  induction h generalizing done fuel with
  | nil => simp [scanTokens]
  | blank hc _ ih =>
    cases fuel with
    | zero => cases hfuel
    | succ fuel =>
      rw [scanTokens, if_pos hc]
      exact ih hapart done (Nat.le_of_succ_le_succ hfuel)
  | @cons tok toks cs rest htok h ih =>
    have hends : ∀ n, tok = .numeral n → EndsNumeral rest := by
      rintro n rfl
      refine h.endsNumeral fun n' hn' ↦ hapart n n' ?_
      obtain ⟨toks', rfl⟩ := List.head?_eq_some_iff.mp hn'
      exact ⟨[], toks', rfl⟩
    have hscan := scanToken?_append htok hends
    obtain ⟨c, cs', rfl, hc⟩ := htok.exists_cons
    rw [List.cons_append] at hscan hfuel ⊢
    cases fuel with
    | zero => cases hfuel
    | succ fuel =>
      rw [scanTokens, hc, if_neg Bool.false_ne_true, hscan]
      dsimp only
      rw [ih fun n n' hinfix ↦ hapart n n' (List.infix_cons hinfix)]
      · simp
      · rw [List.length_cons, List.length_append] at hfuel
        omega

theorem tokensSpelled_of_scan {done toks : List Token} {fuel : Nat} {cs : List Char}
    (h : scanTokens done fuel cs = some toks) :
    ∃ toks', toks = done.reverse ++ toks' ∧ TokensSpelled toks' cs := by
  fun_induction scanTokens done fuel cs with
  | case1 =>
    cases h
    exact ⟨[], by simp, .nil⟩
  | case2 => cases h
  | case3 done fuel c rest hc ih =>
    obtain ⟨toks', rfl, hrest⟩ := ih h
    exact ⟨toks', rfl, .blank hc hrest⟩
  | case4 done fuel c rest hc tok rest' hscan ih =>
    obtain ⟨toks', rfl, hrest⟩ := ih h
    obtain ⟨cs', hcs, hsplit⟩ := spelled_of_scan hscan
    exact ⟨tok :: toks', by simp, hsplit ▸ .cons hcs hrest⟩
  | case5 => cases h

/-! ## Tokens as they are written -/

theorem hexDigit?_digitChar {d : Nat} (h : d < 16) : hexDigit? (Nat.digitChar d) = some d := by
  interval_cases d <;> decide

theorem hexPiece?_of_lt {n : Nat} (h : n < 0x20) :
    hexPiece? '0' '0' (Nat.digitChar (n / 16)) (Nat.digitChar (n % 16)) =
      some (.char (Char.ofNat n)) := by
  rw [hexPiece?, hexDigit?_digitChar (by omega), hexDigit?_digitChar (by omega)]
  have hzero : hexDigit? '0' = some 0 := by decide
  have hn : ((0 * 16 + 0) * 16 + n / 16) * 16 + n % 16 = n := by omega
  simp only [hzero, Option.bind_eq_bind, Option.bind_some, Option.pure_def, hn]
  rw [if_neg (by omega)]

theorem pieceSpelled_escapeChar (c : Char) : PieceSpelled (.char c) (escapeChar c) := by
  rw [escapeChar]
  split_ifs with h₁ h₂ h₃ h₄ h₅ h₆ h₇ h₈
  all_goals try (subst c; exact .simple rfl)
  · have hpiece := hexPiece?_of_lt h₈
    rw [Char.ofNat_toNat] at hpiece
    exact .hex hpiece
  · exact .plain h₁ h₂ (Nat.not_lt.mp h₈)

theorem piecesSpelled_flatMap (cs : List Char) :
    PiecesSpelled (cs.map .char) (cs.flatMap escapeChar) := by
  induction cs with
  | nil => exact .nil
  | cons c cs ih => exact .cons (pieceSpelled_escapeChar c) ih

theorem spell?_map_char (done : String) (cs : List Char) :
    spell? done (cs.map .char) = some (done ++ .ofList cs) := by
  induction cs generalizing done with
  | nil => simp [spell?]
  | cons c cs ih =>
    have htext : done.push c ++ String.ofList cs = done ++ String.ofList (c :: cs) := by
      rw [← String.toList_inj]
      simp
    rw [List.map_cons, spell?, ih, htext]

theorem toList_quote (s : String) :
    (quote s).toList = '"' :: s.toList.flatMap escapeChar ++ ['"'] := by
  have hpush (out : String) (cs : List Char) :
      (cs.foldl String.push out).toList = out.toList ++ cs := by
    induction cs generalizing out with
    | nil => simp
    | cons c cs ih => simp [ih]
  have hall (out : String) (cs : List Char) :
      (cs.foldl (fun out c ↦ (escapeChar c).foldl String.push out) out).toList =
        out.toList ++ cs.flatMap escapeChar := by
    induction cs generalizing out with
    | nil => simp
    | cons c cs ih => simp [ih, hpush]
  simp [quote, hall]

/-- What is written for a token spells it. -/
theorem Token.spelled_render {tok : Token} (h : ∀ n, tok = .numeral n → NumeralSpelled n n.chars) :
    tok.Spelled tok.render.toList := by
  cases tok with
  | numeral n =>
    rw [render, Numeral.text, String.toList_ofList]
    exact .numeral (h n rfl)
  | truth b =>
    cases b with
    | true => exact .truth
    | false => exact .falsity
  | text s =>
    cases s with
    | some s =>
      have hspelled := Spelled.text (piecesSpelled_flatMap s.toList)
      rw [spell?_map_char, String.ofList_toList, String.empty_append] at hspelled
      rw [render, toList_quote]
      exact hspelled
    | none =>
      have hhalf : hexPiece? 'd' '8' '0' '0' = some (.half 0xD800) := by decide
      exact .text (.cons (.hex hhalf) .nil)
  | openArray => exact .openArray
  | closeArray => exact .closeArray
  | openObject => exact .openObject
  | closeObject => exact .closeObject
  | comma => exact .comma
  | colon => exact .colon
  | null => exact .null

theorem tokensSpelled_render {toks : List Token}
    (h : ∀ n, .numeral n ∈ toks → NumeralSpelled n n.chars) :
    TokensSpelled toks (toks.flatMap fun tok ↦ tok.render.toList) := by
  induction toks with
  | nil => exact .nil
  | cons tok toks ih =>
    refine .cons (Token.spelled_render fun n hn ↦ h n ?_) (ih fun n hn ↦ h n ?_)
    · rw [hn]
      exact List.mem_cons_self
    · exact List.mem_cons_of_mem tok hn

end ChatStream.Json
