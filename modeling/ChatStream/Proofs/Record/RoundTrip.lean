import ChatStream.Proofs.Json.Structures
import ChatStream.Record

/-!
# Records that are written and read

A record is written as one text, and there are many more from which it is read: the members of an
object come in any order and with others among them, the fields may be an array instead, and a role
may be an object as well as a word. `Record.WrittenAs` says which trees are read as a record, and
`Record.parse?_eq_some_iff` that a text is read as a record if and only if it spells one of these.

The text that is written for a record spells one of them as well, so a record comes back if it fits
its formats (`Record.parse?_render_iff`). Whatever is read does fit, so `Record.canonical?`, which
reads a text and writes what was read, changes nothing more when it is applied again.
-/

namespace ChatStream

open Json Decimal

/-! ## Roles -/

namespace Role

/-- How a role may be written: as its word, or as an object with that word for a name. -/
inductive WrittenAs (r : Role) : Tree → Prop
  | word : WrittenAs r (.text (some r.word))
  | object : WrittenAs r (.object [(some r.word, .null)])

theorem ofWord?_word (r : Role) : ofWord? r.word = some r := by
  cases r <;> rfl

theorem ofWord?_eq_some_iff {s : String} {r : Role} : ofWord? s = some r ↔ s = r.word := by
  constructor
  · intro h
    have hword := List.find?_some (p := fun r : Role ↦ decide (r.word = s)) h
    exact (of_decide_eq_true hword).symm
  · rintro rfl
    exact ofWord?_word r

theorem ofTree?_eq_some_iff {t : Tree} {r : Role} : ofTree? t = some r ↔ r.WrittenAs t := by
  constructor
  · intro h
    rw [ofTree?.eq_def] at h
    split at h
    · obtain rfl := ofWord?_eq_some_iff.mp h
      exact .word
    · obtain rfl := ofWord?_eq_some_iff.mp h
      exact .object
    · cases h
  · rintro (_ | _)
    · exact ofWord?_word r
    · exact ofWord?_word r

end Role

namespace Record

/-! ## What is read -/

/-- The numbers of a record are such as its formats hold. -/
structure Fits (r : Record) : Prop where
  timestamp : -0x8000000000000000 ≤ r.timestamp ∧ r.timestamp ≤ 0x7FFFFFFFFFFFFFFF
  tokenCount : ∀ n ∈ r.tokenCount, n ≤ 0xFFFFFFFF

/-- The trees of the fields. -/
structure Parts where
  id : Tree
  role : Tree
  content : Tree
  timestamp : Tree
  model : Option Tree := none
  tokenCount : Option Tree := none

namespace Parts

/-- The fields by name. -/
def fields (p : Parts) : List (String × Option Tree) :=
  [("id", some p.id), ("role", some p.role), ("content", some p.content),
    ("timestamp_ms", some p.timestamp), ("model", p.model), ("token_count", p.tokenCount)]

/-- The fields denote those of the record. -/
structure Denote (p : Parts) (r : Record) : Prop where
  id : p.id = .text (some r.id)
  role : r.role.WrittenAs p.role
  content : p.content = .text (some r.content)
  timestamp : p.timestamp.IsInt r.timestamp
  model : OptionalAs (fun t s ↦ t = .text (some s)) p.model r.model
  tokenCount : OptionalAs (fun t (n : Nat) ↦ t.IsInt n) p.tokenCount r.tokenCount

end Parts

/-- How a record may be written: as an object with its fields, in any order and with others among
them, or as the array of its fields, where those at the end may be missing. -/
inductive WrittenAs (r : Record) : Tree → Prop
  | object {p : Parts} {members others : List (Option String × Tree)} (hp : p.Denote r)
    (hothers : ∀ m ∈ others, ∃ name ∉ fieldNames, m.1 = some name)
    (hmembers : members.Perm (namedMembers p.fields ++ others)) : WrittenAs r (.object members)
  | array {p : Parts} (hp : p.Denote r) (hmissing : p.model = none → p.tokenCount = none) :
    WrittenAs r
      (.array ([p.id, p.role, p.content, p.timestamp] ++ p.model.toList ++ p.tokenCount.toList))

theorem tokenCount_iff {field : Option Tree} {count : Option Nat} :
    (optional? (Tree.int? 0 0xFFFFFFFF) field).map (Option.map Int.toNat) = some count ↔
      OptionalAs (fun t (n : Nat) ↦ t.IsInt n) field count ∧ ∀ n ∈ count, n ≤ 0xFFFFFFFF := by
  have hread (t : Tree) (n : Nat) : (t.int? 0 0xFFFFFFFF).map Int.toNat = some n ↔
      t.IsInt n ∧ n ≤ 0xFFFFFFFF := by
    rw [Tree.map_toNat_int?_eq_some_iff (by decide)]
    exact and_congr_right fun _ ↦ Int.ofNat_le
  rw [← optional?_map, optional?_eq_some_iff rfl, ← optionalAs_and_iff]
  simp only [hread]

section
variable {r : Record} {p : Parts} {t : Tree}

theorem ofTree?_iff_denote (h : t.fields? fieldNames = some (p.fields.map (·.2))) :
    ofTree? t = some r ↔ r.Fits ∧ p.Denote r := by
  obtain ⟨id, role, content, timestamp, model, tokenCount⟩ := r
  have hfields : ofTree? t = some ⟨id, role, content, timestamp, model, tokenCount⟩ ↔
      p.id.string? = some id ∧ Role.ofTree? p.role = some role ∧ p.content.string? = some content ∧
        p.timestamp.int? (-0x8000000000000000) 0x7FFFFFFFFFFFFFFF = some timestamp ∧
        optional? Tree.string? p.model = some model ∧
        (optional? (Tree.int? 0 0xFFFFFFFF) p.tokenCount).map (Option.map Int.toNat) =
          some tokenCount := by
    simp [ofTree?, h, Parts.fields, Option.bind_eq_some_iff]
  rw [hfields, string?_eq_some_iff, string?_eq_some_iff, Role.ofTree?_eq_some_iff,
    Tree.int?_eq_some_iff (by decide) (by decide), optional?_eq_some_iff rfl, tokenCount_iff]
  simp only [string?_eq_some_iff]
  constructor
  · rintro ⟨hid, hrole, hcontent, ⟨htimestamp, hbounds⟩, hmodel, htokens, hcount⟩
    exact ⟨⟨hbounds, hcount⟩, ⟨hid, hrole, hcontent, htimestamp, hmodel, htokens⟩⟩
  · rintro ⟨hfits, hp⟩
    exact ⟨hp.id, hp.role, hp.content, ⟨hp.timestamp, hfits.timestamp⟩, hp.model, hp.tokenCount,
      hfits.tokenCount⟩

theorem exists_parts (h : ofTree? t = some r) :
    ∃ p : Parts, t.fields? fieldNames = some (p.fields.map (·.2)) := by
  obtain ⟨fields, hfields, h⟩ := Option.bind_eq_some_iff.mp h
  split at h
  · rename_i id role content timestamp model tokenCount
    exact ⟨{ id, role, content, timestamp, model, tokenCount }, hfields⟩
  · cases h

theorem fields?_object_iff_parts {members : List (Option String × Tree)} :
    (Tree.object members).fields? fieldNames = some (p.fields.map (·.2)) ↔
      ∃ others : List (Option String × Tree),
        (∀ m ∈ others, ∃ name ∉ fieldNames, m.1 = some name) ∧
          members.Perm (namedMembers p.fields ++ others) :=
  fields?_object_iff p.fields (show fieldNames.Nodup by decide)

theorem fields?_array_iff_parts {items : List Tree} :
    (Tree.array items).fields? fieldNames = some (p.fields.map (·.2)) ↔
      items = [p.id, p.role, p.content, p.timestamp] ++ p.model.toList ++ p.tokenCount.toList ∧
        (p.model = none → p.tokenCount = none) := by
  have hitems : (p.fields.map (·.2)).reduceOption =
      [p.id, p.role, p.content, p.timestamp] ++ p.model.toList ++ p.tokenCount.toList := by
    rw [Parts.fields]
    cases p.model <;> cases p.tokenCount <;> rfl
  have horder : (p.fields.map (·.2)).Pairwise (fun a b ↦ a = none → b = none) ↔
      (p.model = none → p.tokenCount = none) := by
    simp [Parts.fields]
  rw [fields?_array_iff rfl, hitems, horder]

/-- A record is read from the trees that it may be written as. -/
theorem ofTree?_eq_some_iff : ofTree? t = some r ↔ r.Fits ∧ r.WrittenAs t := by
  constructor
  · intro h
    obtain ⟨p, hp⟩ := exists_parts h
    obtain ⟨hfits, hdenote⟩ := (ofTree?_iff_denote hp).mp h
    refine ⟨hfits, ?_⟩
    cases t with
    | object members =>
      obtain ⟨others, hothers, hmembers⟩ := fields?_object_iff_parts.mp hp
      exact .object hdenote hothers hmembers
    | array items =>
      obtain ⟨rfl, hmissing⟩ := fields?_array_iff_parts.mp hp
      exact .array hdenote hmissing
    | null | truth | numeral | text => cases hp
  · rintro ⟨hfits, ⟨hp, hothers, hmembers⟩ | ⟨hp, hmissing⟩⟩
    · have hfields := fields?_object_iff_parts.mpr ⟨_, hothers, hmembers⟩
      exact (ofTree?_iff_denote hfields).mpr ⟨hfits, hp⟩
    · exact (ofTree?_iff_denote (fields?_array_iff_parts.mpr ⟨rfl, hmissing⟩)).mpr ⟨hfits, hp⟩

end

/-- A text is read as a record if and only if it spells one of the trees that the record may be
written as. -/
theorem parse?_eq_some_iff {s : String} {r : Record} :
    parse? s = some r ↔ r.Fits ∧ ∃ t : Tree, t.SpelledBy s ∧ r.WrittenAs t := by
  rw [parse?, Option.bind_eq_some_iff]
  simp only [Tree.parse?_eq_some_iff, ofTree?_eq_some_iff]
  constructor
  · rintro ⟨t, hspelled, hfits, hwritten⟩
    exact ⟨hfits, t, hspelled, hwritten⟩
  · rintro ⟨hfits, t, hspelled, hwritten⟩
    exact ⟨t, hspelled, hfits, hwritten⟩

/-! ## What is written -/

/-- The trees of the fields, as they are written. -/
def parts (r : Record) : Parts where
  id := .text (some r.id)
  role := .text (some r.role.word)
  content := .text (some r.content)
  timestamp := .numeral (.ofInt r.timestamp)
  model := r.model.map fun m ↦ .text (some m)
  tokenCount := r.tokenCount.map fun n : Nat ↦ .numeral (.ofInt n)

theorem tree_eq (r : Record) : r.tree = .object (namedMembers r.parts.fields) := by
  obtain ⟨id, role, content, timestamp, model, tokenCount⟩ := r
  cases model <;> cases tokenCount <;> rfl

theorem denote_parts (r : Record) : r.parts.Denote r where
  id := rfl
  role := .word
  content := rfl
  timestamp := isInt_ofInt r.timestamp
  model := optionalAs_map (D := fun t s ↦ t = .text (some s)) (fun _ ↦ rfl) r.model
  tokenCount :=
    optionalAs_map (D := fun t (n : Nat) ↦ t.IsInt n) (fun n ↦ isInt_ofInt n) r.tokenCount

/-- The tree that is written for a record is one of those from which it is read. -/
theorem writtenAs_tree (r : Record) : r.WrittenAs r.tree := by
  rw [tree_eq]
  exact .object r.denote_parts (List.forall_mem_nil _) (List.Perm.of_eq (List.append_nil _).symm)

theorem proper_tree (r : Record) : r.tree.Proper := by
  rw [tree_eq]
  refine .object fun m hm ↦ ?_
  obtain ⟨f, hf, -, hvalue⟩ := mem_namedMembers.mp hm
  simp only [Parts.fields, parts, List.mem_cons, List.not_mem_nil, or_false] at hf
  rcases hf with rfl | rfl | rfl | rfl | rfl | rfl
  · exact Option.some.inj hvalue ▸ .text _
  · exact Option.some.inj hvalue ▸ .text _
  · exact Option.some.inj hvalue ▸ .text _
  · exact Option.some.inj hvalue ▸ .numeral (Numeral.proper_ofInt _)
  · obtain ⟨model, -, htext⟩ := Option.map_eq_some_iff.mp hvalue
    exact htext ▸ .text _
  · obtain ⟨n, -, hnumeral⟩ := Option.map_eq_some_iff.mp hvalue
    exact hnumeral ▸ .numeral (Numeral.proper_ofInt _)

/-- A record that fits its formats is read back from its text, and no other is. -/
theorem parse?_render_iff {r : Record} : parse? r.render = some r ↔ r.Fits := by
  rw [parse?, render, r.proper_tree.parse?_render, Option.bind_some, ofTree?_eq_some_iff]
  exact and_iff_left r.writtenAs_tree

/-! ## There and back -/

/-- The text that is written for what is read from a text. -/
def canonical? (s : String) : Option String := (parse? s).map render

/-- Reading the text that is written for a record gives what was read. -/
theorem bind_parse?_canonical? (s : String) : (canonical? s).bind parse? = parse? s := by
  rw [canonical?]
  cases h : parse? s with
  | none => rfl
  | some r => exact parse?_render_iff.mpr (parse?_eq_some_iff.mp h).1

/-- **Records come back.** A record that fits its formats is read from its text. Whatever text a
record is read from, that record fits, so from the text that is then written it is read again, and
written as before. So texts of one record, and only these, have one canonical text. -/
theorem round_trip :
    (∀ r : Record, parse? r.render = some r ↔ r.Fits) ∧
      (∀ s r, parse? s = some r ↔ r.Fits ∧ ∃ t : Tree, t.SpelledBy s ∧ r.WrittenAs t) ∧
      (∀ s, (canonical? s).bind parse? = parse? s) ∧
      (∀ s, (canonical? s).bind canonical? = canonical? s) ∧
      ∀ s s', canonical? s = canonical? s' ↔ parse? s = parse? s' := by
  refine ⟨fun _ ↦ parse?_render_iff, fun _ _ ↦ parse?_eq_some_iff, bind_parse?_canonical?,
    fun s ↦ ?_, fun s s' ↦ ⟨fun h ↦ ?_, fun h ↦ ?_⟩⟩
  · calc (canonical? s).bind canonical?
      _ = ((canonical? s).bind parse?).map render := (Option.map_bind ..).symm
      _ = canonical? s := by rw [bind_parse?_canonical?, canonical?]
  · rw [← bind_parse?_canonical? s, h, bind_parse?_canonical?]
  · rw [canonical?, h, canonical?]

/-- An array in which a role is an object, a model is null and the last field is missing. -/
example :
    canonical? "[\"a\", \x7b\"user\":null\x7d, \"\", -1, null]" =
      some "\x7b\"id\":\"a\",\"role\":\"user\",\"content\":\"\",\"timestamp_ms\":-1\x7d" := by
  decide +kernel

end Record

end ChatStream
