import ChatStream.Proofs.Json.Grammar
import ChatStream.Proofs.Json.Structures
import ChatStream.Wire.Event

/-!
# What payloads say

A payload is read as a structure of three fields, and JSON writes a structure as an object.
`Fields.InLine` says which lines carry given fields as such an object, and `parse_of_inLine` what
they say. Nothing else about a line matters: neither the order of the members nor the members
besides, and neither the blanks nor the escapes.

But a structure is read from an array as well, as its fields in their order. So an object is not the
only payload that says something, and `parse_eq_iff_of_not_object` is about the others.
-/

namespace ChatStream

namespace Json

/-! ## Trees that denote values -/

/-- Arrays and objects are nested at most so deep, numbers are finite, and strings and names denote
text. -/
inductive Tree.Fits : Nat → Tree → Prop
  | null {room : Nat} : Fits room .null
  | truth {room : Nat} (b : Bool) : Fits room (.truth b)
  | numeral {room : Nat} {n : Decimal.Numeral} (h : (Number.ofNumeral? n).isSome = true) :
    Fits room (.numeral n)
  | text {room : Nat} (s : String) : Fits room (.text (some s))
  | array {room : Nat} {items : List Tree} (h : ∀ t ∈ items, Fits room t) :
    Fits (room + 1) (.array items)
  | object {room : Nat} {members : List (Option String × Tree)}
    (hnames : ∀ m ∈ members, m.1.isSome = true) (h : ∀ m ∈ members, Fits room m.2) :
    Fits (room + 1) (.object members)

theorem isSome_mapM {α β : Type} {f : α → Option β} {as : List α} :
    (as.mapM f).isSome = true ↔ ∀ a ∈ as, (f a).isSome = true := by
  induction as with
  | nil => simp
  | cons a as ih =>
    rw [List.mapM_cons, List.forall_mem_cons, ← ih]
    cases f a <;> cases as.mapM f <;> simp

theorem isSome_readMember {α : Type} {read : Tree → Option α} {m : Option String × Tree} :
    (readMember read m).isSome = true ↔ m.1.isSome = true ∧ (read m.2).isSome = true := by
  rw [readMember]
  cases m.1 <;> cases read m.2 <;> simp

theorem Tree.Fits.isSome_value? {room : Nat} {t : Tree} (h : t.Fits room) :
    (t.value? room).isSome = true := by
  induction h with
  | null | truth | text => rw [value?]; rfl
  | numeral h => rwa [value?, Option.isSome_map]
  | array _ ih =>
    rw [value?, Option.isSome_map, isSome_mapM]
    exact ih
  | object hnames _ ih =>
    rw [value?, Option.isSome_map, isSome_mapM]
    exact fun m hm ↦ isSome_readMember.mpr ⟨hnames m hm, ih m hm⟩

/-- No other trees denote values. -/
theorem Tree.fits_of_value? :
    (room : Nat) → (t : Tree) → (t.value? room).isSome = true → t.Fits room
  | _, .null, _ => .null
  | _, .truth b, _ => .truth b
  | _, .numeral n, h => .numeral (by rwa [value?, Option.isSome_map] at h)
  | _, .text (some s), _ => .text s
  | _, .text none, h => by
    rw [value?] at h
    cases h
  | 0, .array _, h | 0, .object _, h => by cases h
  | room + 1, .array items, h => by
    rw [value?, Option.isSome_map, isSome_mapM] at h
    exact .array fun t ht ↦ fits_of_value? room t (h t ht)
  | room + 1, .object members, h => by
    rw [value?, Option.isSome_map, isSome_mapM] at h
    have hmembers := fun m hm ↦ isSome_readMember.mp (h m hm)
    exact .object (fun m hm ↦ (hmembers m hm).1) fun m hm ↦
      fits_of_value? room m.2 (hmembers m hm).2

end Json

open Json Text

/-! ## Payloads -/

namespace Payload

theorem text_event_ne_empty (p : Payload) : p.event.text ≠ some "" := by
  have htrailing : p.content.filter (!·.isEmpty) ≠ some "" := by
    rw [Ne, Option.filter_eq_some_iff]
    rintro ⟨-, hempty⟩
    cases hempty
  rw [event]
  generalize p.content.filter (!·.isEmpty) = trailing at htrailing ⊢
  split
  · exact htrailing
  · split_ifs
    · exact htrailing
    · cases trailing with
      | none => exact (Option.some_ne_none "").symm
      | some text => exact htrailing

/-- The payload is made of its three fields. -/
theorem ofTree?_iff {t : Tree} {content done error : Option Tree} {p : Payload}
    (h : t.fields? ["content", "done", "error"] = some [content, done, error]) :
    ofTree? t = some p ↔
      optional? Tree.string? content = some p.content ∧ optional? Tree.truth? done = some p.done ∧
        optional? (Tree.value? (depthLimit - 1)) error = some p.error := by
  obtain ⟨_, _, _⟩ := p
  simp [ofTree?, h, Option.bind_eq_some_iff]

/-- The items are the fields of the payload, in their order; those at the end may be left out. -/
structure InItems (p : Payload) (items : List Tree) : Prop where
  length_le : items.length ≤ 3
  content : optional? Tree.string? items[0]? = some p.content
  done : optional? Tree.truth? items[1]? = some p.done
  error : optional? (Tree.value? (depthLimit - 1)) items[2]? = some p.error

theorem ofTree?_array {p : Payload} {items : List Tree} :
    ofTree? (.array items) = some p ↔ p.InItems items := by
  have hfields : items.length ≤ 3 → (Tree.array items).fields? ["content", "done", "error"] =
      some [items[0]?, items[1]?, items[2]?] := by
    intro h
    match items, h with
    | [], _ | [_], _ | [_, _], _ | [_, _, _], _ => rfl
  constructor
  · intro h
    by_cases hlength : items.length ≤ 3
    · obtain ⟨hcontent, hdone, herror⟩ := (ofTree?_iff (hfields hlength)).mp h
      exact ⟨hlength, hcontent, hdone, herror⟩
    · have hlong : (Tree.array items).fields? ["content", "done", "error"] = none :=
        if_pos (Nat.not_le.mp hlength)
      rw [ofTree?, hlong] at h
      cases h
  · intro h
    exact (ofTree?_iff (hfields h.length_le)).mpr ⟨h.content, h.done, h.error⟩

end Payload

/-! ## Lines -/

theorem isBlank_of_isSpace {c : Char} (h : isSpace c = true) : isBlank c = true := by
  simp only [isSpace, Bool.or_eq_true, decide_eq_true_eq] at h
  rcases h with ((rfl | rfl) | rfl) | rfl <;> decide

theorem trim_of_blanks {s : String} {ws ws' mid : List Char} {b e : Char}
    (hs : s.toList = ws ++ (b :: mid ++ [e]) ++ ws') (hws : ∀ c ∈ ws, isBlank c = true)
    (hws' : ∀ c ∈ ws', isBlank c = true) (hb : isBlank b = false) (he : isBlank e = false) :
    trim s = .ofList (b :: mid ++ [e]) := by
  have hfront : s.toList.dropWhile isBlank = b :: mid ++ [e] ++ ws' := by
    rw [hs, List.append_assoc, List.dropWhile_append_of_pos hws]
    exact List.dropWhile_cons_of_neg (by simp [hb])
  have hback : (b :: mid ++ [e] ++ ws').reverse.dropWhile isBlank = (b :: mid ++ [e]).reverse := by
    rw [List.reverse_append, List.dropWhile_append_of_pos (by simpa using hws'),
      List.reverse_append]
    exact List.dropWhile_cons_of_neg (by simp [he])
  rw [trim, trimChars, hfront, hback, List.reverse_reverse]

theorem after?_append (lead s : String) : after? lead (lead ++ s) = some s := by
  rw [after?, String.toList_append, List.isPrefixOf?_eq_some_iff_append_eq.mpr rfl, Option.map_some,
    String.ofList_toList]

namespace LineFormat

/-- No line carries an empty fragment. -/
theorem text_parse_ne_empty (w : LineFormat) (line : String) : (w.parse line).text ≠ some "" := by
  rw [parse, read]
  have hsilent : Event.unknown.text ≠ some "" := (Option.some_ne_none "").symm
  dsimp only
  split
  · exact hsilent
  · split_ifs
    · exact hsilent
    · split
      · exact Payload.text_event_ne_empty _
      · exact hsilent

/-- The event of a line is that of its payload, if that is neither blank nor the announcement. -/
theorem parse_eq {w : LineFormat} {line rest : String} (h : after? w.marker line = some rest) :
    w.parse line = if trim rest = "" ∨ trim rest = w.announcement then .unknown else
      (((Tree.parse? (trim rest)).bind Payload.ofTree?).map Payload.event).getD .unknown := by
  rw [parse, read, h]
  dsimp only
  simp only [Bool.or_eq_true, decide_eq_true_eq, String.isEmpty_iff]
  split_ifs
  · rfl
  · cases (Tree.parse? (trim rest)).bind Payload.ofTree? <;> rfl

/-- What makes an event is a tree that is read as a payload. -/
theorem parse_eq_iff {w : LineFormat} {line rest : String} {e : Event}
    (hrest : after? w.marker line = some rest) (he : e ≠ .unknown) :
    w.parse line = e ↔ trim rest ≠ w.announcement ∧
      ∃ t p, Tree.SpelledBy t (trim rest) ∧ Payload.ofTree? t = some p ∧ p.event = e := by
  rw [parse_eq hrest]
  constructor
  · intro h
    split_ifs at h with hother
    · exact absurd h.symm he
    obtain ⟨-, hstart⟩ := not_or.mp hother
    cases hread : (Tree.parse? (trim rest)).bind Payload.ofTree? with
    | none =>
      rw [hread] at h
      exact absurd h.symm he
    | some p =>
      rw [hread] at h
      obtain ⟨t, ht, hp⟩ := Option.bind_eq_some_iff.mp hread
      exact ⟨hstart, t, p, Tree.parse?_eq_some_iff.mp ht, hp, h⟩
  · rintro ⟨hstart, t, p, hspelled, hp, rfl⟩
    have hparse := Tree.parse?_eq_some_iff.mpr hspelled
    -- No tree is spelled by nothing, so the test for a blank payload is passed as well.
    have hempty : trim rest ≠ "" := by
      intro hnil
      rw [hnil] at hparse
      cases hparse
    rw [if_neg (not_or.mpr ⟨hempty, hstart⟩), hparse, Option.bind_some, hp]
    rfl

end LineFormat

/-- The event of an object behind the marker, with blanks around it. -/
theorem parse_object {members : List (Option String × Tree)} {before payload after : String}
    (hpayload : (Tree.object members).SpelledBy payload)
    (hbefore : ∀ c ∈ before.toList, isBlank c = true)
    (hafter : ∀ c ∈ after.toList, isBlank c = true) :
    ({} : LineFormat).parse ("data: " ++ (before ++ payload ++ after)) =
      ((Payload.ofTree? (.object members)).map Payload.event).getD .unknown := by
  obtain ⟨ws, mid, ws', hs, hws, hws', hspelled⟩ := hpayload.braces
  have hline : (before ++ payload ++ after).toList =
      (before.toList ++ ws) ++ ('\x7b' :: mid ++ ['\x7d']) ++ (ws' ++ after.toList) := by
    simp [hs]
  have hfront : ∀ c ∈ before.toList ++ ws, isBlank c = true :=
    List.forall_mem_append.mpr ⟨hbefore, fun c hc ↦ isBlank_of_isSpace (hws c hc)⟩
  have hback : ∀ c ∈ ws' ++ after.toList, isBlank c = true :=
    List.forall_mem_append.mpr ⟨fun c hc ↦ isBlank_of_isSpace (hws' c hc), hafter⟩
  -- The braces are no blanks, so all the blanks around the object go and nothing else does.
  have htrim := trim_of_blanks hline hfront hback rfl rfl
  have hother : ¬(trim (before ++ payload ++ after) = "" ∨
      trim (before ++ payload ++ after) = "[START]") := by
    rw [htrim, ← String.toList_inj, ← String.toList_inj, String.toList_ofList]
    rintro (hempty | hstart)
    · cases hempty
    · exact absurd (List.head_eq_of_cons_eq hstart) (by decide)
  rw [LineFormat.parse_eq (after?_append _ _), if_neg hother, htrim,
    Tree.parse?_eq_some_iff.mpr hspelled, Option.bind_some]

/-! ## Lines that carry fields -/

/-- The fields of a payload, each as far as it is there. -/
structure Fields where
  /-- A fragment or null. -/
  content : Option (Option String) := none
  /-- Whether the answer ends, or null. -/
  done : Option (Option Bool) := none
  /-- Any value. -/
  error : Option Tree := none

namespace Fields

/-- The fragment, unless it is empty. -/
def trailing (f : Fields) : Option String := f.content.join.filter (!·.isEmpty)

/-- The members that the fields are written as. -/
def members (f : Fields) : List (Option String × Tree) :=
  namedMember "content" (f.content.map (nullable fun s ↦ .text (some s))) ++
    (namedMember "done" (f.done.map (nullable .truth)) ++ namedMember "error" f.error)

/-- A member that is no field: its name denotes another text. -/
def IsOther (m : Option String × Tree) : Prop :=
  ∃ name ∉ ["content", "done", "error"], m.1 = some name

/-- The line carries the fields in an object behind the marker: its members in any order, other
members among them, and blanks around the object. -/
inductive InLine (f : Fields) : String → Prop
  | mk {members others : List (Option String × Tree)} {before payload after : String}
    (hothers : ∀ m ∈ others, IsOther m) (hmembers : members.Perm (f.members ++ others))
    (hpayload : (Tree.object members).SpelledBy payload)
    (hbefore : ∀ c ∈ before.toList, isBlank c = true)
    (hafter : ∀ c ∈ after.toList, isBlank c = true) :
    InLine f ("data: " ++ (before ++ payload ++ after))

section
variable {f : Fields} {members others : List (Option String × Tree)}

/-- The fields by name. -/
def named (f : Fields) : List (String × Option Tree) :=
  [("content", f.content.map (nullable fun s ↦ .text (some s))),
    ("done", f.done.map (nullable .truth)), ("error", f.error)]

theorem namedMembers_named (f : Fields) : namedMembers f.named = f.members := by
  simp [named, Fields.members]

theorem fields?_object (hothers : ∀ m ∈ others, IsOther m)
    (hmembers : members.Perm (f.members ++ others)) :
    (Tree.object members).fields? ["content", "done", "error"] =
      some [f.content.map (nullable fun s ↦ .text (some s)), f.done.map (nullable .truth),
        f.error] := by
  rw [← namedMembers_named] at hmembers
  exact (fields?_object_iff f.named (show ["content", "done", "error"].Nodup by decide)).mpr
    ⟨others, hothers, hmembers⟩

end

end Fields

/-- What an error reports is what its value reports. -/
theorem optional?_value? {room : Nat} {error : Option Tree} (h : ∀ t ∈ error, t.Fits room) :
    ∃ value read : Option Value, error.map (Tree.value? room) = value.map some ∧
      optional? (Tree.value? room) error = some read ∧
      read.bind reported? = value.bind reported? := by
  cases error with
  | none => exact ⟨none, none, rfl, rfl, rfl⟩
  | some t =>
    obtain ⟨v, hv⟩ := Option.isSome_iff_exists.mp (h t rfl).isSome_value?
    by_cases hnull : t = .null
    -- Null is read as no error at all; as a value it would report nothing either.
    · subst hnull
      rw [Tree.value?, Option.some_inj] at hv
      subst hv
      exact ⟨some .null, none, by rw [Option.map_some, Tree.value?]; rfl, rfl, rfl⟩
    · refine ⟨some v, some v, ?_, ?_, rfl⟩
      · rw [Option.map_some, hv, Option.map_some]
      · rw [optional?.eq_3 _ _ hnull, hv, Option.map_some]

/-- **Fields decide what a line says.** An error comes before the end, and the end before a mere
fragment; an error that reports nothing is none, nor is an empty fragment any. -/
theorem parse_of_inLine {f : Fields} (herror : ∀ t ∈ f.error, t.Fits 126) :
    (∃ error : Option Value, f.error.map (Tree.value? 126) = error.map some ∧
      ∀ line, f.InLine line →
        ({} : LineFormat).parse line =
          match error.bind reported? with
          | some message => .error message f.trailing
          | none =>
            if f.done = some (some true) then .done f.trailing
            else match f.trailing with
              | some text => .content text
              | none => .unknown) ∧
    ∀ (w : LineFormat) line, (w.parse line).text ≠ some "" := by
  obtain ⟨error, read, hvalue, hread, hreported⟩ := optional?_value? herror
  refine ⟨⟨error, hvalue, ?_⟩, LineFormat.text_parse_ne_empty⟩
  rintro _ ⟨hothers, hmembers, hpayload, hbefore, hafter⟩
  have hcontent := optional?_map_nullable Tree.string? (fun s ↦ .text (some s)) (fun _ ↦ rfl)
    (fun _ ↦ nofun) f.content
  have hdone := optional?_map_nullable Tree.truth? .truth (fun _ ↦ rfl) (fun _ ↦ nofun) f.done
  have hparse := (Payload.ofTree?_iff (p := ⟨f.content.join, f.done.join, read⟩)
    (Fields.fields?_object hothers hmembers)).mpr ⟨hcontent, hdone, hread⟩
  -- The payload depends on the fields alone, and with it all that the line says.
  rw [parse_object hpayload hbefore hafter, hparse, Option.map_some, Option.getD_some,
    Payload.event, ← hreported]
  have hends : f.done.join = some true ↔ f.done = some (some true) := Option.join_eq_some_iff
  simp only [hends]
  rfl

/-- A fragment and an error behind a member that is neither. -/
def shuffledPayload : String :=
  "\x7b\"n\":[1e5] , \"err\\u006fr\":\x7b\"message\":\" full \"\x7d,\"content\":\"x\"\x7d"

theorem parse_of_inLine_shuffled :
    ({} : LineFormat).parse ("data: " ++ (" " ++ shuffledPayload ++ "\t")) =
      .error "full" (some "x") := by
  let error : Tree := .object [(some "message", .text (some " full "))]
  let other : Option String × Tree := (some "n", .array [.numeral ⟨false, ['1'], none, some 5⟩])
  let f : Fields := { content := some (some "x"), error := some error }
  have hvalue : error.value? 126 = some (.object [("message", .text " full ")]) := by cbv
  have herror : ∀ t ∈ f.error, t.Fits 126 := by
    rintro _ ⟨⟩
    exact Tree.fits_of_value? 126 error (by rw [hvalue]; rfl)
  have hspelled : (Tree.object [other, (some "error", error),
      (some "content", .text (some "x"))]).SpelledBy shuffledPayload :=
    Tree.parse?_eq_some_iff.mp rfl
  have hother : ∀ m ∈ [other], Fields.IsOther m :=
    List.forall_mem_singleton.mpr ⟨"n", by decide, rfl⟩
  have hbefore : ∀ c ∈ " ".toList, isBlank c = true := List.forall_mem_singleton.mpr rfl
  have hafter : ∀ c ∈ "\t".toList, isBlank c = true := List.forall_mem_singleton.mpr rfl
  have hline : f.InLine ("data: " ++ (" " ++ shuffledPayload ++ "\t")) :=
    .mk hother (List.reverse_perm (f.members ++ [other])) hspelled hbefore hafter
  obtain ⟨⟨value, hread, hparse⟩, -⟩ := parse_of_inLine herror
  obtain rfl : value = some (.object [("message", .text " full ")]) := by
    cases value with
    | none => cases hread
    | some v =>
      rw [Option.map_some, hvalue, Option.map_some, Option.some_inj, Option.some_inj] at hread
      rw [hread]
  have hreported : reported? (.object [("message", .text " full ")]) = some "full" := by
    rw [reported?, reported?.inMembers, if_pos rfl, reported?]
    rfl
  rw [hparse _ hline, Option.bind_some, hreported]
  rfl

/-! ## Lines that carry no object -/

theorem not_object_of_array {items : List Tree} {s : String} (h : (Tree.array items).SpelledBy s)
    (members : List (Option String × Tree)) : ¬(Tree.object members).SpelledBy s := by
  intro hobject
  have hread := Tree.parse?_eq_some_iff.mpr h
  rw [Tree.parse?_eq_some_iff.mpr hobject] at hread
  cases hread

/-- **Payloads besides objects.** A payload that is no object makes an event only if it is an array
whose items are the fields of a payload, in their order. -/
theorem parse_eq_iff_of_not_object {w : LineFormat} {line rest : String} {e : Event}
    (hrest : after? w.marker line = some rest)
    (hobject : ∀ members, ¬(Tree.object members).SpelledBy (trim rest)) (he : e ≠ .unknown) :
    w.parse line = e ↔ trim rest ≠ w.announcement ∧ ∃ (items : List Tree) (p : Payload),
      (Tree.array items).SpelledBy (trim rest) ∧ p.InItems items ∧ p.event = e := by
  rw [LineFormat.parse_eq_iff hrest he]
  refine and_congr_right fun _ ↦ ⟨?_, ?_⟩
  · rintro ⟨t, p, hspelled, hp, hevent⟩
    cases t with
    | object members => exact absurd hspelled (hobject members)
    | array items => exact ⟨items, p, hspelled, Payload.ofTree?_array.mp hp, hevent⟩
    | null | truth | numeral | text => cases hp
  · rintro ⟨items, p, hspelled, hitems, hevent⟩
    exact ⟨.array items, p, hspelled, Payload.ofTree?_array.mpr hitems, hevent⟩

theorem parse_eq_iff_of_not_object_error :
    ({} : LineFormat).parse "data: [\"x\",null,\"overloaded\"]" =
      .error "overloaded" (some "x") := by
  let p : Payload := { content := some "x", error := some (.text "overloaded") }
  have hspelled : (Tree.array [.text (some "x"), .null, .text (some "overloaded")]).SpelledBy
      (trim "[\"x\",null,\"overloaded\"]") :=
    Tree.parse?_eq_some_iff.mp rfl
  have hitems : p.InItems [.text (some "x"), .null, .text (some "overloaded")] :=
    ⟨Nat.le_refl 3, rfl, rfl, rfl⟩
  have hevent : p.event = .error "overloaded" (some "x") := by decide +kernel
  have hrest : after? ({} : LineFormat).marker "data: [\"x\",null,\"overloaded\"]" =
      some "[\"x\",null,\"overloaded\"]" := rfl
  have hiff := parse_eq_iff_of_not_object (e := .error "overloaded" (some "x")) hrest
    (not_object_of_array hspelled) nofun
  exact hiff.mpr ⟨by decide, _, p, hspelled, hitems, hevent⟩

/-- A line whose payload is no object ends an answer. -/
theorem not_unknown_of_array : ¬∀ (w : LineFormat) (line rest : String),
    after? w.marker line = some rest →
    (∀ members, ¬(Tree.object members).SpelledBy (trim rest)) → w.parse line = .unknown := by
  intro h
  have hspelled : (Tree.array [.text (some "noise"), .truth true]).SpelledBy
      (trim "[\"noise\",true]") := Tree.parse?_eq_some_iff.mp rfl
  have hunknown := h {} "data: [\"noise\",true]" "[\"noise\",true]" rfl
    (not_object_of_array hspelled)
  have hdone : ({} : LineFormat).parse "data: [\"noise\",true]" = .done (some "noise") := by
    decide +kernel
  rw [hdone] at hunknown
  cases hunknown

end ChatStream
