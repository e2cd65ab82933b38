import Mathlib.Logic.Relation
import ChatStream.Proofs.Json.Grammar
import ChatStream.Wire.Event

/-!
# What an error reports

An `error` value is a message, an object around a message, or an object around such an object, to
any depth. What is reported is the message in the middle, if that says anything; otherwise the
object nearest to it is shown whole. Either way the text can be seen.

## The argument

The members called `message` are a way from a value into it, with one step at most from each value
on, so everything is shown by induction along that way. A value reports what the next one reports.
If that reports nothing the value is shown itself, and it is the innermost that could be shown: what
reports nothing is empty, and no way leads on from there (`IsSilent.not_isFull`).
-/

namespace ChatStream

open Text Json Decimal

/-! ## Text that can be seen -/

/-- There is text, with no blanks around it. -/
def IsVisible (s : String) : Prop := s ≠ "" ∧ trim s = s

/-- None of the characters is blank. -/
def IsClear (cs : List Char) : Prop := ∀ c ∈ cs, isBlank c = false

instance (cs : List Char) : Decidable (IsClear cs) := List.decidableBAll _ cs

theorem dropWhile_isBlank_of_head {cs : List Char} (h : ∀ c ∈ cs.head?, isBlank c = false) :
    cs.dropWhile isBlank = cs := by
  cases cs with
  | nil => rfl
  | cons c cs => exact List.dropWhile_cons_of_neg (by simp [h c rfl])

theorem isVisible_of_ends {s : String} (hne : s ≠ "")
    (hhead : ∀ c ∈ s.toList.head?, isBlank c = false)
    (hlast : ∀ c ∈ s.toList.getLast?, isBlank c = false) : IsVisible s := by
  rw [← List.head?_reverse] at hlast
  refine ⟨hne, ?_⟩
  rw [trim, trimChars, dropWhile_isBlank_of_head hhead, dropWhile_isBlank_of_head hlast,
    List.reverse_reverse, String.ofList_toList]

theorem isVisible_of_isClear {s : String} (hne : s ≠ "") (h : IsClear s.toList) : IsVisible s :=
  isVisible_of_ends hne (fun c hc ↦ h c (List.mem_of_mem_head? hc))
    fun c hc ↦ h c (List.mem_of_mem_getLast? hc)

theorem isBlank_of_mem_head?_dropWhile (cs : List Char) :
    ∀ c ∈ (cs.dropWhile isBlank).head?, isBlank c = false := by
  intro c hc
  have hnot := List.head?_dropWhile_not isBlank cs
  rw [Option.mem_def.mp hc] at hnot
  exact hnot

/-- What is left of a text without the blanks around it. -/
theorem isVisible_trim {s : String} (h : trim s ≠ "") : IsVisible (trim s) := by
  have hfront := isBlank_of_mem_head?_dropWhile s.toList
  have hback := isBlank_of_mem_head?_dropWhile (s.toList.dropWhile isBlank).reverse
  refine isVisible_of_ends h ?_ ?_
  · -- The blanks behind it take nothing away from the front.
    have hprefix : (trim s).toList <+: s.toList.dropWhile isBlank := by
      rw [trim, String.toList_ofList, trimChars, ← List.reverse_suffix, List.reverse_reverse]
      exact List.dropWhile_suffix isBlank
    obtain ⟨blanks, hblanks⟩ := hprefix
    intro c hc
    rw [← hblanks] at hfront
    exact hfront c (List.mem_head?_append_of_mem_head? hc)
  · rw [trim, String.toList_ofList, trimChars, List.getLast?_reverse]
    exact hback

/-! ### Numbers -/

namespace IsClear

variable {cs cs' : List Char}

theorem append (h : IsClear cs) (h' : IsClear cs') : IsClear (cs ++ cs') :=
  List.forall_mem_append.mpr ⟨h, h'⟩

theorem of_subset (h : IsClear cs) (hsubset : cs' ⊆ cs) : IsClear cs' :=
  fun c hc ↦ h c (hsubset hc)

theorem zeros (n : Nat) : IsClear (List.replicate n '0') := by
  intro c hc
  rw [List.eq_of_mem_replicate hc]
  rfl

theorem toDigits (n : Nat) : IsClear (toDigits n) := by
  intro c hc
  have hdigit := Nat.isDigit_of_mem_toDigits (by decide) (by decide) hc
  rw [Bool.eq_false_iff]
  intro hblank
  simp only [Char.isDigit_iff_toNat, Char.reduceToNat] at hdigit
  simp only [isBlank, Bool.or_eq_true, Bool.and_eq_true, decide_eq_true_eq, beq_iff_eq] at hblank
  omega

theorem exponentChars (e : Int) : IsClear (Numeral.exponentChars e) := by
  cases e with
  | ofNat k =>
    have hsign : IsClear ['e', '+'] := by decide
    exact hsign.append (toDigits k)
  | negSucc k =>
    have hsign : IsClear ['e', '-'] := by decide
    exact hsign.append (toDigits (k + 1))

theorem chars {n : Numeral} (hwhole : IsClear n.whole)
    (hfraction : ∀ ds, n.fraction = some ds → IsClear ds) : IsClear n.chars := by
  have hpoint : IsClear ['.'] := by decide
  refine ((append ?_ hwhole).append ?_).append ?_
  · split <;> decide
  · split
    · rename_i ds hds
      exact hpoint.append (hfraction ds hds)
    · exact nofun
  · split
    · exact exponentChars _
    · exact nofun

theorem shortest (f : Format) (tie : Tie) (mantissa : Nat) (exponent : Int) :
    IsClear (shortest f tie mantissa exponent).digits := by
  rw [Decimal.shortest]
  dsimp only
  split
  · rename_i ds hds
    obtain ⟨t, -, hgrid⟩ := List.exists_of_findSome?_eq_some hds
    obtain ⟨c, -, rfl⟩ := Option.map_eq_some_iff.mp hgrid
    -- The digits are those of a number without the zeros behind them.
    refine (toDigits c).of_subset fun d hd ↦ ?_
    have hmem := (List.dropWhile_sublist _).subset (List.mem_reverse.mp hd)
    exact List.mem_reverse.mp hmem
  · exact toDigits mantissa

end IsClear

/-- Digits are laid out with nothing but zeros, a point and an exponent. -/
theorem isClear_arrange {ds : Digits} (hds : IsClear ds.digits) (l : Layout) (negative : Bool) :
    IsClear (l.arrange negative ds).chars := by
  rw [Layout.arrange]
  split_ifs
  · refine .chars (.zeros 1) ?_
    rintro _ ⟨⟩
    exact .append (.zeros _) hds
  · refine .chars (.append hds (.zeros _)) ?_
    rintro _ ⟨⟩
    exact .zeros 1
  · exact .chars (.append hds (.zeros _)) nofun
  · refine .chars (hds.of_subset (List.take_subset _ _)) ?_
    rintro _ ⟨⟩
    exact hds.of_subset (List.drop_subset _ _)
  · exact .chars (hds.of_subset (List.take_subset _ _)) nofun
  · refine .chars (hds.of_subset (List.take_subset _ _)) ?_
    rintro _ ⟨⟩
    exact hds.of_subset (List.drop_subset _ _)

theorem chars_ne_nil {n : Numeral}
    (h : n.whole ≠ [] ∨ n.fraction.isSome = true ∨ n.exponent.isSome = true) : n.chars ≠ [] := by
  rw [Numeral.chars]
  rcases h with h | h | h
  · simp [h]
  · obtain ⟨ds, hds⟩ := Option.isSome_iff_exists.mp h
    simp [hds]
  · obtain ⟨e, he⟩ := Option.isSome_iff_exists.mp h
    cases e <;> simp [he, Numeral.exponentChars]

theorem chars_arrange_ne_nil (l : Layout) (negative : Bool) (ds : Digits) :
    (l.arrange negative ds).chars ≠ [] := by
  rw [Layout.arrange]
  split_ifs with hplain hsmall hwhole
  · exact chars_ne_nil (.inl (List.cons_ne_nil _ _))
  · exact chars_ne_nil (.inr (.inl rfl))
  · -- A whole number has as many digits as its exponent asks for, zeros included.
    refine chars_ne_nil (.inl (List.length_pos_iff.mp ?_))
    rw [List.length_append, List.length_replicate]
    omega
  · exact chars_ne_nil (.inr (.inl rfl))
  all_goals exact chars_ne_nil (.inr (.inr rfl))

theorem isVisible_numeral {n : Numeral} (hclear : IsClear n.chars) (hne : n.chars ≠ []) :
    IsVisible (Tree.numeral n).render := by
  have hrender : (Tree.numeral n).render = .ofList n.chars := String.empty_append
  rw [hrender]
  refine isVisible_of_isClear (fun hempty ↦ hne (String.ofList_eq_empty_iff.mp hempty)) ?_
  rw [String.toList_ofList]
  exact hclear

theorem isVisible_float {f : Format} (l : Layout) (x : Binary f) :
    IsVisible (floatTree l x).render := by
  rw [floatTree]
  split
  · rename_i n hn
    rw [Layout.numeral?.eq_def] at hn
    split at hn
    · cases hn
      refine isVisible_numeral (.chars (.zeros 1) ?_) (chars_ne_nil (.inl (List.cons_ne_nil _ _)))
      split_ifs
      · rintro _ ⟨⟩
        exact .zeros 1
      · exact nofun
    · cases hn
      exact isVisible_numeral (isClear_arrange (.shortest _ _ _ _) _ _)
        (chars_arrange_ne_nil _ _ _)
    · cases hn
  · exact isVisible_of_isClear (by decide) (by decide)

theorem isVisible_number (n : Number) : IsVisible n.tree.render := by
  cases n with
  | int n =>
    cases n with
    | ofNat k =>
      exact isVisible_numeral (.chars (.toDigits k) nofun) (chars_ne_nil (.inl Nat.toDigits_ne_nil))
    | negSucc k =>
      exact isVisible_numeral (.chars (.toDigits (k + 1)) nofun)
        (chars_ne_nil (.inl Nat.toDigits_ne_nil))
  | float x => exact isVisible_float doubleLayout x

/-! ### Arrays and objects -/

theorem isVisible_of_brackets {s : String} {b e : Char} {mid : List Char}
    (hs : s.toList = b :: mid ++ [e]) (hb : isBlank b = false) (he : isBlank e = false) :
    IsVisible s := by
  refine isVisible_of_ends ?_ ?_ ?_
  · rintro rfl
    cases hs
  · rw [hs]
    rintro _ ⟨⟩
    exact hb
  · rw [hs, List.getLast?_concat]
    rintro _ ⟨⟩
    exact he

theorem isVisible_array (items : List Value) : IsVisible (Value.array items).render := by
  have hrender : (Value.array items).render.toList =
      '[' :: ((itemTokens (itemTrees items)).flatMap fun tok ↦ tok.render.toList) ++ [']'] := by
    rw [Value.render, Tree.toList_render, Value.tree, Tree.tokens, List.flatMap_append,
      List.flatMap_cons]
    rfl
  exact isVisible_of_brackets hrender rfl rfl

theorem isVisible_object (members : List (String × Value)) :
    IsVisible (Value.object members).render := by
  have hrender : (Value.object members).render.toList =
      '\x7b' :: ((memberTokens (memberTrees members)).flatMap fun tok ↦ tok.render.toList) ++
        ['\x7d'] := by
    rw [Value.render, Tree.toList_render, Value.tree, Tree.tokens, List.flatMap_append,
      List.flatMap_cons]
    rfl
  exact isVisible_of_brackets hrender rfl rfl

/-! ## The way to a message -/

namespace Json.Value

/-- The member called `message` of an object. -/
def message? : Value → Option Value
  | .object members => members.lookup "message"
  | _ => none

def isObject : Value → Bool
  | .object _ => true
  | _ => false

/-- One value is inside another, by members called `message` only. -/
abbrev Leads : Value → Value → Prop := Relation.ReflTransGen fun v w ↦ v.message? = some w

/-- An object with members. -/
def IsFull (v : Value) : Prop := ∃ m ms, v = .object (m :: ms)

/-- A value with nothing to report. -/
inductive IsSilent : Value → Prop
  | null : IsSilent .null
  | no : IsSilent (.truth false)
  | blank {s : String} (h : trim s = "") : IsSilent (.text s)
  | noItems : IsSilent (.array [])
  | noMembers : IsSilent (.object [])

/-- What a value is said to report. If it leads to a value that is no object, and that says
something, it is this; and otherwise the innermost object on the way, among those with members. -/
inductive Reports (v : Value) : String → Prop
  | message {w : Value} {m : String} (hw : v.Leads w) (hplain : w.isObject = false)
    (hm : reported? w = some m) : Reports v m
  | whole {u : Value} (hsilent : ∀ w, v.Leads w → w.isObject = false → reported? w = none)
    (hu : v.Leads u) (hfull : u.IsFull) (hinnermost : ∀ w, u.Leads w → w.IsFull → w = u) :
    Reports v u.render

variable {v w : Value}

theorem sizeOf_lt_of_message? (h : v.message? = some w) : sizeOf w < sizeOf v := by
  cases v with
  | object members =>
    rw [message?] at h
    induction members with
    | nil => cases h
    | cons m ms ih =>
      obtain ⟨k, w'⟩ := m
      rw [List.lookup_cons] at h
      split at h
      · cases h
        simp only [object.sizeOf_spec, List.cons.sizeOf_spec, Prod.mk.sizeOf_spec]
        omega
      · have hrest := ih h
        simp only [object.sizeOf_spec, List.cons.sizeOf_spec] at hrest ⊢
        omega
  | _ => cases h

/-- Induction along the way to the message. -/
theorem message_induction {P : Value → Prop} (h : ∀ v, (∀ w, v.message? = some w → P w) → P v)
    (v : Value) : P v :=
  h v fun w _ ↦ message_induction h w
termination_by sizeOf v
decreasing_by exact sizeOf_lt_of_message? ‹_›

theorem inMembers_eq (members : List (String × Value)) :
    reported?.inMembers members = (Value.object members).message?.bind reported? := by
  induction members with
  | nil =>
    rw [reported?.inMembers]
    rfl
  | cons m ms ih =>
    obtain ⟨k, v⟩ := m
    rw [message?] at ih ⊢
    rw [reported?.inMembers, ih, List.lookup_cons]
    by_cases hk : k = "message"
    · rw [if_pos hk, hk, beq_self_eq_true]
      rfl
    · rw [if_neg hk, beq_false_of_ne (Ne.symm hk)]

/-- What an object reports. -/
theorem reported?_object (members : List (String × Value)) :
    reported? (.object members) =
      ((Value.object members).message?.bind reported?).or
        (if members.isEmpty then none else some (Value.object members).render) := by
  rw [reported?, inMembers_eq]
  cases (Value.object members).message?.bind reported? <;> rfl

theorem reported?_eq_none_iff : reported? v = none ↔ v.IsSilent := by
  cases v with
  | null => exact iff_of_true (by rw [reported?]) .null
  | truth b =>
    cases b with
    | false => exact iff_of_true (by rw [reported?]; rfl) .no
    | true => exact iff_of_false (by rw [reported?]; nofun) nofun
  | number n => exact iff_of_false (by rw [reported?]; nofun) nofun
  | text s =>
    rw [reported?]
    split_ifs with hblank
    · exact iff_of_true rfl (.blank (String.isEmpty_iff.mp hblank))
    · refine iff_of_false nofun fun hsilent ↦ ?_
      cases hsilent with
      | blank h => exact hblank (String.isEmpty_iff.mpr h)
  | array items =>
    cases items with
    | nil => exact iff_of_true (by rw [reported?]; rfl) .noItems
    | cons item items => exact iff_of_false (by rw [reported?]; nofun) nofun
  | object members =>
    rw [reported?_object, Option.or_eq_none_iff]
    cases members with
    | nil => exact iff_of_true ⟨rfl, rfl⟩ .noMembers
    | cons m ms => exact iff_of_false (fun h ↦ nomatch h.2) nofun

/-- The innermost of what is reported is a trimmed text, a word, a number or an array. -/
theorem isVisible_of_plain {m : String} (hplain : v.isObject = false)
    (hm : reported? v = some m) : IsVisible m := by
  cases v with
  | null =>
    rw [reported?] at hm
    cases hm
  | truth b =>
    rw [reported?] at hm
    split_ifs at hm
    cases hm
    exact ⟨by decide, by decide⟩
  | number n =>
    rw [reported?] at hm
    cases hm
    exact isVisible_number n
  | text s =>
    rw [reported?] at hm
    split_ifs at hm with hblank
    cases hm
    exact isVisible_trim (mt String.isEmpty_iff.mpr hblank)
  | array items =>
    rw [reported?] at hm
    split_ifs at hm
    cases hm
    exact isVisible_array items
  | object members => cases hplain

/-! ### What is reported along the way -/

theorem exists_object_of_message? (h : v.message? = some w) : ∃ m ms, v = .object (m :: ms) := by
  cases v with
  | object members =>
    cases members with
    | nil => cases h
    | cons m ms => exact ⟨m, ms, rfl⟩
  | _ => cases h

theorem reported?_of_message? (h : v.message? = some w) :
    reported? v = (reported? w).or (some v.render) := by
  obtain ⟨m, ms, rfl⟩ := exists_object_of_message? h
  rw [reported?_object, h, Option.bind_some]
  rfl

theorem eq_of_leads (hv : v.message? = none) (h : v.Leads w) : w = v := by
  rcases h.cases_head with rfl | ⟨u, hu, -⟩
  · rfl
  · exact absurd (hv.symm.trans hu) nofun

theorem leads_iff {u : Value} (h : v.message? = some w) : v.Leads u ↔ u = v ∨ w.Leads u := by
  rw [Leads, Relation.ReflTransGen.cases_head_iff]
  refine or_congr eq_comm ⟨?_, fun hu ↦ ⟨w, h, hu⟩⟩
  rintro ⟨w', hw', hu⟩
  rwa [Option.some.inj (h.symm.trans hw')]

/-- What is silent leads to nothing that could be shown. -/
theorem IsSilent.not_isFull (h : v.IsSilent) {u : Value} (hu : v.Leads u) : ¬ u.IsFull := by
  have hmessage : v.message? = none := by cases h <;> rfl
  rw [eq_of_leads hmessage hu]
  rintro ⟨m, ms, rfl⟩
  cases h

/-- A value without a `message` inside it reports what it is. -/
theorem reports_iff_of_message?_eq_none {m : String} (hv : v.message? = none) :
    v.Reports m ↔ reported? v = some m := by
  constructor
  · intro h
    cases h with
    | message hw _ hm => rwa [eq_of_leads hv hw] at hm
    | whole _ hu hfull =>
      obtain rfl := eq_of_leads hv hu
      obtain ⟨m, ms, rfl⟩ := hfull
      rw [reported?_object, hv]
      rfl
  · intro hm
    cases hobject : v.isObject with
    | false => exact .message .refl hobject hm
    | true =>
      cases v with
      | object members =>
        rw [reported?_object, hv] at hm
        cases members with
        | nil => cases hm
        | cons m ms =>
          cases hm
          refine .whole (fun w hw hplain ↦ ?_) .refl ⟨m, ms, rfl⟩ fun w hw _ ↦ eq_of_leads hv hw
          rw [eq_of_leads hv hw] at hplain
          cases hplain
      | _ => cases hobject

/-- What is inside reports the same, and silence inside leaves the whole. -/
theorem reports_iff_of_message? {m : String} (hw : v.message? = some w)
    (ih : ∀ m, reported? w = some m ↔ w.Reports m) : v.Reports m ↔ reported? v = some m := by
  have hfull : v.IsFull := exists_object_of_message? hw
  have hobject : v.isObject = true := by
    obtain ⟨_, _, rfl⟩ := hfull
    rfl
  have hinside {x : Value} (hx : v.Leads x) (hplain : x.isObject = false) : w.Leads x := by
    refine ((leads_iff hw).mp hx).resolve_left ?_
    rintro rfl
    exact absurd (hplain.symm.trans hobject) nofun
  have houtside {x : Value} (hx : w.Leads x) : v.Leads x := (leads_iff hw).mpr (.inr hx)
  rw [reported?_of_message? hw]
  constructor
  · intro h
    cases h with
    | message hx hplain hm =>
      rw [(ih m).mpr (.message (hinside hx hplain) hplain hm), Option.some_or]
    | @whole u hsilent hu hufull hinnermost =>
      have hsilent' (x : Value) (hx : w.Leads x) := hsilent x (houtside hx)
      rcases (leads_iff hw).mp hu with rfl | hu
      · cases hreported : reported? w with
        | none => rfl
        | some m =>
          -- Were there more to report inside, `v` would not be the innermost.
          cases (ih m).mp hreported with
          | message hx hplain hm => exact absurd ((hsilent' _ hx hplain).symm.trans hm) nofun
          | whole _ hx hxfull => rw [hinnermost _ (houtside hx) hxfull, Option.some_or]
      · rw [(ih u.render).mpr (.whole hsilent' hu hufull hinnermost), Option.some_or]
  · intro hm
    cases hreported : reported? w with
    | some m' =>
      rw [hreported, Option.some_or] at hm
      cases hm
      cases (ih m).mp hreported with
      | message hx hplain hm => exact .message (houtside hx) hplain hm
      | whole hsilent hx hxfull hinnermost =>
        exact .whole (fun x hx hplain ↦ hsilent x (hinside hx hplain) hplain) (houtside hx) hxfull
          hinnermost
    | none =>
      rw [hreported, Option.none_or] at hm
      cases hm
      have hsilent := reported?_eq_none_iff.mp hreported
      refine .whole (fun x hx hplain ↦ ?_) .refl hfull fun x hx hxfull ↦ ?_
      · rw [Option.eq_none_iff_forall_ne_some]
        intro m hm
        have hw := (ih m).mpr (.message (hinside hx hplain) hplain hm)
        exact absurd (hreported.symm.trans hw) nofun
      · exact ((leads_iff hw).mp hx).resolve_right fun hx ↦ hsilent.not_isFull hx hxfull

theorem reported?_eq_some_iff {m : String} : reported? v = some m ↔ v.Reports m := by
  induction v using message_induction generalizing m with
  | h v ih =>
    cases hmessage : v.message? with
    | none => exact (reports_iff_of_message?_eq_none hmessage).symm
    | some w => exact (reports_iff_of_message? hmessage fun m ↦ ih w hmessage).symm

theorem Reports.isVisible {m : String} (h : v.Reports m) : IsVisible m := by
  cases h with
  | message _ hplain hm => exact isVisible_of_plain hplain hm
  | whole _ _ hfull =>
    obtain ⟨m, ms, rfl⟩ := hfull
    exact isVisible_object (m :: ms)

end Json.Value

/-! ## Events -/

/-- A payload is an error exactly if its `error` reports something, whatever else it holds. -/
theorem Payload.exists_event_eq_error_iff {p : Payload} {m : String} :
    (∃ trailing, p.event = .error m trailing) ↔ ∃ v, p.error = some v ∧ v.Reports m := by
  have hreports : p.error.bind reported? = some m ↔ ∃ v, p.error = some v ∧ v.Reports m := by
    rw [Option.bind_eq_some_iff]
    exact exists_congr fun v ↦ and_congr_right fun _ ↦ Value.reported?_eq_some_iff
  rw [← hreports, event]
  constructor
  · rintro ⟨trailing, h⟩
    cases hreported : p.error.bind reported? with
    | none =>
      -- Without a report the payload is an end, a fragment or nothing.
      rw [hreported] at h
      dsimp only at h
      split at h
      · cases h
      · split at h <;> cases h
    | some message =>
      rw [hreported] at h
      cases h
      rfl
  · intro hreported
    rw [hreported]
    exact ⟨_, rfl⟩

/-- An error that a line reports can be seen. -/
theorem LineFormat.isVisible_of_parse {w : LineFormat} {line m : String} {trailing : Option String}
    (h : w.parse line = .error m trailing) : IsVisible m := by
  rw [parse, read] at h
  dsimp only at h
  split at h
  · cases h
  · split_ifs at h
    · cases h
    · split at h
      · obtain ⟨v, -, hv⟩ := Payload.exists_event_eq_error_iff.mp ⟨trailing, h⟩
        exact hv.isVisible
      · cases h

end ChatStream
