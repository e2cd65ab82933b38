import Mathlib.Data.List.ReduceOption
import ChatStream.Proofs.Json.Numerals

/-!
# Fields of structures

The fields of a structure are looked for by name in an object, and by place in an array. What is
found there is said here without the search: `fields?_object_iff` lists the members of an object
that has given fields, in any order and with others among them, and `fields?_array_iff` the items
of an array. Both are equivalences, so they say as well what is refused.

The same is done for two kinds of fields: for integers (`int?_eq_some_iff`) and for fields that may
be absent or null (`optional?_eq_some_iff`).
-/

namespace ChatStream.Json

open Decimal

/-! ## Members -/

/-- A member with this name, if there is a value for it. -/
def namedMember (name : String) (t : Option Tree) : List (Option String × Tree) :=
  t.toList.map fun t ↦ (some name, t)

/-- The members of an object that has these fields, by name, as far as there are values for them. -/
def namedMembers (fields : List (String × Option Tree)) : List (Option String × Tree) :=
  fields.flatMap fun f ↦ namedMember f.1 f.2

/-- What is left when the members of these names are taken out. -/
def otherMembers (members : List (Option String × Tree)) (names : List String) :
    List (Option String × Tree) :=
  members.filter fun m ↦ ∀ name ∈ names, m.1 ≠ some name

theorem filter_namedMember (name k : String) (t : Option Tree) :
    (namedMember k t).filter (·.1 = some name) = if k = name then namedMember k t else [] := by
  cases t <;> by_cases hname : k = name <;> simp [namedMember, hname]

theorem uniqueMember?_eq_some {members : List (Option String × Tree)} {name : String}
    {t : Option Tree} (h : (members.filter (·.1 = some name)).Perm (namedMember name t)) :
    uniqueMember? members name = some t := by
  rw [uniqueMember?]
  cases t with
  | none => rw [List.perm_nil.mp h]
  | some t => rw [List.perm_singleton.mp h]

@[simp]
theorem namedMembers_nil : namedMembers [] = [] := rfl

@[simp]
theorem namedMembers_cons (f : String × Option Tree) (fields : List (String × Option Tree)) :
    namedMembers (f :: fields) = namedMember f.1 f.2 ++ namedMembers fields := rfl

theorem mem_namedMembers {fields : List (String × Option Tree)} {m : Option String × Tree} :
    m ∈ namedMembers fields ↔ ∃ f ∈ fields, m.1 = some f.1 ∧ f.2 = some m.2 := by
  rw [namedMembers, List.mem_flatMap]
  refine exists_congr fun f ↦ and_congr_right fun _ ↦ ?_
  obtain ⟨name, t⟩ := f
  cases t <;> simp [namedMember, Prod.ext_iff, eq_comm]

section
variable {members : List (Option String × Tree)} {fields : List (String × Option Tree)}

theorem uniqueMember?_eq_some_iff {name : String} {t : Option Tree} :
    uniqueMember? members name = some t ↔
      members.filter (·.1 = some name) = namedMember name t := by
  constructor
  · intro h
    have hname : ∀ m ∈ members.filter (·.1 = some name), m.1 = some name := by
      intro m hm
      exact of_decide_eq_true (List.mem_filter.mp hm).2
    rw [uniqueMember?] at h
    match hfilter : members.filter (·.1 = some name) with
    | [] =>
      rw [hfilter] at h ⊢
      obtain rfl := Option.some.inj h
      rfl
    | [(k, v)] =>
      rw [hfilter] at h hname ⊢
      obtain rfl := Option.some.inj h
      obtain rfl : k = some name := hname (k, v) List.mem_cons_self
      rfl
    | _ :: _ :: _ =>
      rw [hfilter] at h
      cases h
  · exact fun h ↦ uniqueMember?_eq_some (List.Perm.of_eq h)

theorem mapM_eq_some_iff {α β γ : Type} {f : α → Option β} {l : List γ} {g : γ → α} {h : γ → β} :
    (l.map g).mapM f = some (l.map h) ↔ ∀ c ∈ l, f (g c) = some (h c) := by
  induction l with
  | nil => simp
  | cons c l ih =>
    rw [List.forall_mem_cons, ← ih, List.map_cons, List.map_cons, List.mapM_cons]
    cases hf : f (g c) with
    | none => simp
    | some b =>
      cases (l.map g).mapM f <;> simp

theorem filter_otherMembers {name : String} {names : List String} (hname : name ∉ names) :
    (otherMembers members names).filter (·.1 = some name) = members.filter (·.1 = some name) := by
  rw [otherMembers, List.filter_filter]
  refine List.filter_congr fun m _ ↦ ?_
  rw [Bool.eq_iff_iff, Bool.and_eq_true, decide_eq_true_eq, decide_eq_true_eq]
  constructor
  · exact fun h ↦ h.1
  · intro hm
    refine ⟨hm, fun k hk heq ↦ hname ?_⟩
    rw [hm, Option.some_inj] at heq
    exact heq ▸ hk

theorem perm_otherMembers {name : String} {names : List String} (hname : name ∉ names) :
    (members.filter (·.1 = some name) ++ otherMembers members (name :: names)).Perm
      (otherMembers members names) := by
  have hrest : otherMembers members (name :: names) =
      (otherMembers members names).filter fun m ↦ !decide (m.1 = some name) := by
    rw [otherMembers, otherMembers, List.filter_filter]
    refine List.filter_congr fun m _ ↦ ?_
    simp
  rw [hrest, ← filter_otherMembers hname]
  exact List.filter_append_perm _ _

theorem perm_namedMembers (hnames : (fields.map (·.1)).Nodup)
    (h : ∀ f ∈ fields, members.filter (·.1 = some f.1) = namedMember f.1 f.2) :
    members.Perm (namedMembers fields ++ otherMembers members (fields.map (·.1))) := by
  induction fields with
  | nil => simp [namedMembers, otherMembers]
  | cons f fields ih =>
    rw [List.map_cons, List.nodup_cons] at hnames
    rw [List.forall_mem_cons] at h
    have hsplit : (members.filter (·.1 = some f.1) ++ _).Perm _ := perm_otherMembers hnames.1
    rw [h.1] at hsplit
    -- The member of the first field moves from the others to the front.
    refine (ih hnames.2 h.2).trans ((hsplit.symm.append_left _).trans ?_)
    rw [namedMembers_cons, List.append_assoc, List.map_cons]
    exact List.perm_append_comm_assoc ..

theorem filter_namedMembers_of_notMem {name : String} (hname : name ∉ fields.map (·.1)) :
    (namedMembers fields).filter (·.1 = some name) = [] := by
  rw [List.filter_eq_nil_iff]
  intro m hm
  obtain ⟨f, hf, hm, -⟩ := mem_namedMembers.mp hm
  rw [hm, decide_eq_true_eq, Option.some_inj]
  rintro rfl
  exact hname (List.mem_map_of_mem hf)

theorem filter_namedMembers (hnames : (fields.map (·.1)).Nodup) {f : String × Option Tree}
    (hf : f ∈ fields) :
    (namedMembers fields).filter (·.1 = some f.1) = namedMember f.1 f.2 := by
  induction fields with
  | nil => cases hf
  | cons g fields ih =>
    rw [List.map_cons, List.nodup_cons] at hnames
    rw [namedMembers_cons, List.filter_append, filter_namedMember]
    rcases List.mem_cons.mp hf with rfl | hrest
    · rw [if_pos rfl, filter_namedMembers_of_notMem hnames.1, List.append_nil]
    · have hne : g.1 ≠ f.1 := fun heq ↦ hnames.1 (heq ▸ List.mem_map_of_mem hrest)
      rw [if_neg hne, ih hnames.2 hrest, List.nil_append]

end

/-- The fields of an object: with names that differ, each is the value of its member, and there may
be members of other names besides. -/
theorem fields?_object_iff {members : List (Option String × Tree)}
    (fields : List (String × Option Tree)) (hnames : (fields.map (·.1)).Nodup) :
    (Tree.object members).fields? (fields.map (·.1)) = some (fields.map (·.2)) ↔
      ∃ others : List (Option String × Tree),
        (∀ m ∈ others, ∃ name ∉ fields.map (·.1), m.1 = some name) ∧
          members.Perm (namedMembers fields ++ others) := by
  rw [Tree.fields?]
  constructor
  · intro h
    split_ifs at h with hnone
    have hfields := mapM_eq_some_iff.mp h
    refine ⟨otherMembers members (fields.map (·.1)), fun m hm ↦ ?_,
      perm_namedMembers hnames fun f hf ↦ uniqueMember?_eq_some_iff.mp (hfields f hf)⟩
    obtain ⟨hmember, hother⟩ := List.mem_filter.mp hm
    rw [List.any_eq_true] at hnone
    cases hname : m.1 with
    | none => exact absurd ⟨m, hmember, by rw [hname]; rfl⟩ hnone
    | some name =>
      refine ⟨name, fun hmem ↦ ?_, rfl⟩
      exact of_decide_eq_true hother name hmem hname
  · rintro ⟨others, hothers, hperm⟩
    have hnone : ¬members.any (·.1.isNone) = true := by
      rw [List.any_eq_true]
      rintro ⟨m, hm, hmnone⟩
      rcases List.mem_append.mp (hperm.mem_iff.mp hm) with hfield | hother
      · obtain ⟨f, -, hname, -⟩ := mem_namedMembers.mp hfield
        rw [hname] at hmnone
        cases hmnone
      · obtain ⟨name, -, hname⟩ := hothers m hother
        rw [hname] at hmnone
        cases hmnone
    rw [if_neg hnone, mapM_eq_some_iff]
    intro f hf
    have hothers' : others.filter (·.1 = some f.1) = [] := by
      rw [List.filter_eq_nil_iff]
      intro m hm
      obtain ⟨name, hname, hm⟩ := hothers m hm
      rw [hm, decide_eq_true_eq, Option.some_inj]
      rintro rfl
      exact hname (List.mem_map_of_mem hf)
    refine uniqueMember?_eq_some ((hperm.filter _).trans (List.Perm.of_eq ?_))
    rw [List.filter_append, filter_namedMembers hnames hf, hothers', List.append_nil]

/-! ## Items -/

/-- What is missing at the end of a list is all that is missing. -/
theorem exists_missing_iff {α : Type} {fields : List (Option α)} {items : List α} :
    (∃ missing, fields = items.map some ++ List.replicate missing none) ↔
      items = fields.reduceOption ∧ fields.Pairwise fun a b ↦ a = none → b = none := by
  constructor
  · rintro ⟨missing, rfl⟩
    have hitems : (items.map some).Pairwise fun a b : Option α ↦ a = none → b = none :=
      List.pairwise_map.mpr (List.pairwise_of_forall nofun)
    have hmissing : (List.replicate missing none).Pairwise
        fun a b : Option α ↦ a = none → b = none :=
      List.pairwise_replicate.mpr (.inr fun _ ↦ rfl)
    refine ⟨?_, List.pairwise_append.mpr ⟨hitems, hmissing, fun _ _ b hb _ ↦ ?_⟩⟩
    · rw [List.reduceOption_append, List.reduceOption_replicate_none, List.append_nil]
      simp [List.reduceOption]
    · exact List.eq_of_mem_replicate hb
  · rintro ⟨rfl, horder⟩
    induction fields with
    | nil => exact ⟨0, rfl⟩
    | cons a fields ih =>
      obtain ⟨hfirst, hrest⟩ := List.pairwise_cons.mp horder
      cases a with
      | none =>
        have hall := List.eq_replicate_of_mem fun b hb ↦ hfirst b hb rfl
        refine ⟨fields.length + 1, ?_⟩
        rw [List.reduceOption_cons_of_none, hall, List.reduceOption_replicate_none,
          List.length_replicate]
        rfl
      | some t =>
        obtain ⟨missing, hfields⟩ := ih hrest
        refine ⟨missing, ?_⟩
        rw [List.reduceOption_cons_of_some, List.map_cons, List.cons_append, ← hfields]

/-- The fields of an array: its items are what there is of them, and only the last ones are
missing. -/
theorem fields?_array_iff {items : List Tree} {names : List String} {fields : List (Option Tree)}
    (hlength : fields.length = names.length) :
    (Tree.array items).fields? names = some fields ↔
      items = fields.reduceOption ∧ fields.Pairwise fun a b ↦ a = none → b = none := by
  rw [← exists_missing_iff, Tree.fields?]
  constructor
  · intro h
    split_ifs at h
    exact ⟨_, (Option.some.inj h).symm⟩
  · rintro ⟨missing, rfl⟩
    rw [List.length_append, List.length_map, List.length_replicate] at hlength
    rw [if_neg (by omega), ← hlength, Nat.add_sub_cancel_left]

/-! ## Absent fields -/

/-- A field that may be absent or null, and what it denotes. -/
inductive OptionalAs {α : Type} (Denotes : Tree → α → Prop) : Option Tree → Option α → Prop
  | absent : OptionalAs Denotes none none
  | null : OptionalAs Denotes (some .null) none
  | given {t : Tree} {a : α} (h : Denotes t a) : OptionalAs Denotes (some t) (some a)

theorem optional?_eq_some_iff {α : Type} {read : Tree → Option α} (hnull : read .null = none)
    {field : Option Tree} {a : Option α} :
    optional? read field = some a ↔ OptionalAs (fun t a ↦ read t = some a) field a := by
  constructor
  · intro h
    cases field with
    | none =>
      obtain rfl := Option.some.inj h
      exact .absent
    | some t =>
      by_cases ht : t = .null
      · subst ht
        obtain rfl := Option.some.inj h
        exact .null
      · rw [optional?.eq_3 _ _ ht, Option.map_eq_some_iff] at h
        obtain ⟨b, hb, rfl⟩ := h
        exact .given hb
  · rintro (_ | _ | h)
    · rfl
    · rfl
    · rename_i t b
      have ht : t ≠ .null := by
        rintro rfl
        rw [hnull] at h
        cases h
      rw [optional?.eq_3 _ _ ht, h, Option.map_some]

/-- Anything or null. -/
def nullable {α : Type} (write : α → Tree) : Option α → Tree
  | none => .null
  | some a => write a

theorem optional?_map_nullable {α : Type} (read : Tree → Option α) (write : α → Tree)
    (hread : ∀ a, read (write a) = some a) (hnull : ∀ a, write a ≠ .null)
    (field : Option (Option α)) :
    optional? read (field.map (nullable write)) = some field.join := by
  cases field with
  | none => rfl
  | some a =>
    cases a with
    | none => rfl
    | some a =>
      rw [Option.map_some, nullable, optional?.eq_3 _ _ (hnull a), hread]
      rfl

theorem optional?_map {α β : Type} (f : α → β) (read : Tree → Option α) (field : Option Tree) :
    optional? (fun t ↦ (read t).map f) field = (optional? read field).map (Option.map f) := by
  cases field with
  | none => rfl
  | some t =>
    by_cases ht : t = .null
    · subst ht
      rfl
    · rw [optional?.eq_3 _ _ ht, optional?.eq_3 _ _ ht]
      cases read t <;> rfl

theorem optionalAs_and_iff {α : Type} {Denotes : Tree → α → Prop} {p : α → Prop}
    {field : Option Tree} {a : Option α} :
    OptionalAs (fun t a ↦ Denotes t a ∧ p a) field a ↔
      OptionalAs Denotes field a ∧ ∀ b ∈ a, p b := by
  constructor
  · rintro (_ | _ | ⟨hdenotes, hp⟩)
    · exact ⟨.absent, nofun⟩
    · exact ⟨.null, nofun⟩
    · exact ⟨.given hdenotes, by simpa using hp⟩
  · rintro ⟨_ | _ | hdenotes, hp⟩
    · exact .absent
    · exact .null
    · exact .given ⟨hdenotes, hp _ rfl⟩

theorem optionalAs_map {α : Type} {D : Tree → α → Prop} {write : α → Tree}
    (h : ∀ a, D (write a) a) (a : Option α) : OptionalAs D (a.map write) a := by
  cases a with
  | none => exact .absent
  | some a => exact .given (h a)

theorem string?_eq_some_iff {t : Tree} {s : String} : t.string? = some s ↔ t = .text (some s) := by
  constructor
  · intro h
    cases t with
    | text content => exact congrArg Tree.text h
    | null | truth | numeral | array | object => cases h
  · rintro rfl
    rfl

/-! ## Integers -/

/-- The numeral of an integer: it has neither point nor exponent, and no minus before a zero, which
makes it a number of another kind. -/
inductive Tree.IsInt : Tree → Int → Prop
  | natural {m : Numeral} (hinteger : m.isInteger = true) (hsign : m.negative = false) :
    IsInt (.numeral m) (ofDigits m.whole)
  | negative {m : Numeral} (hinteger : m.isInteger = true) (hsign : m.negative = true)
    (hpos : 0 < ofDigits m.whole) : IsInt (.numeral m) (-(ofDigits m.whole : Int))

theorem Number.ofNumeral?_eq_int_iff {m : Numeral} {n : Int} :
    ofNumeral? m = some (.int n) ↔
      (Tree.numeral m).IsInt n ∧ -0x8000000000000000 ≤ n ∧ n < wordBound := by
  have hfloat : (readDouble? m).map Number.float ≠ some (.int n) := by
    cases readDouble? m <;> simp
  rw [ofNumeral?]
  constructor
  · intro h
    split_ifs at h with hinteger hsign hword hword
    · obtain rfl := Number.int.inj (Option.some.inj h)
      refine ⟨.natural hinteger (by simpa using hsign), ?_, Int.ofNat_lt.mpr hword⟩
      omega
    · exact absurd h hfloat
    · obtain rfl := Number.int.inj (Option.some.inj h)
      refine ⟨.negative hinteger (by simpa using hsign) hword.1, ?_, ?_⟩
      · omega
      · rw [wordBound]
        omega
    · exact absurd h hfloat
    · exact absurd h hfloat
  · rintro ⟨hint, hlo, hhi⟩
    rcases hint with ⟨hinteger, hsign⟩ | ⟨hinteger, hsign, hpos⟩
    · rw [if_pos hinteger, if_pos (by rw [hsign]; rfl), if_pos (Int.ofNat_lt.mp hhi)]
    · rw [if_pos hinteger, if_neg (by rw [hsign]; decide), if_pos ⟨hpos, by omega⟩]

theorem Tree.int?_eq_some_iff {lo hi : Int} (hlo : -0x8000000000000000 ≤ lo) (hhi : hi < wordBound)
    {t : Tree} {n : Int} : t.int? lo hi = some n ↔ t.IsInt n ∧ lo ≤ n ∧ n ≤ hi := by
  rw [int?]
  constructor
  · intro h
    split at h
    · rename_i k hk
      split_ifs at h with hbounds
      obtain rfl := Option.some.inj h
      refine ⟨?_, hbounds⟩
      cases t with
      | numeral m => exact (Number.ofNumeral?_eq_int_iff.mp hk).1
      | null | truth | text | array | object => cases hk
    · cases h
  · rintro ⟨hint, hn⟩
    have hnumber : t.number? = some (.int n) := by
      obtain ⟨m, rfl⟩ : ∃ m, t = .numeral m := by
        cases hint <;> exact ⟨_, rfl⟩
      exact Number.ofNumeral?_eq_int_iff.mpr ⟨hint, by omega, by omega⟩
    rw [hnumber]
    exact if_pos hn

theorem Tree.map_toNat_int?_eq_some_iff {hi : Int} (hhi : hi < wordBound) {t : Tree} {n : Nat} :
    (t.int? 0 hi).map Int.toNat = some n ↔ t.IsInt n ∧ (n : Int) ≤ hi := by
  rw [Option.map_eq_some_iff]
  constructor
  · rintro ⟨k, hk, rfl⟩
    obtain ⟨hint, hlo, hle⟩ := (int?_eq_some_iff (by decide) hhi).mp hk
    rw [Int.toNat_of_nonneg hlo]
    exact ⟨hint, hle⟩
  · rintro ⟨hint, hle⟩
    exact ⟨n, (int?_eq_some_iff (by decide) hhi).mpr ⟨hint, n.cast_nonneg, hle⟩, rfl⟩

/-- An integer is written as one. -/
theorem isInt_ofInt (n : Int) : (Tree.numeral (.ofInt n)).IsInt n := by
  cases n with
  | ofNat k =>
    have hint := Tree.IsInt.natural (m := .ofInt (.ofNat k)) rfl rfl
    rwa [show ofDigits (Numeral.ofInt (.ofNat k)).whole = k from ofDigits_toDigits k] at hint
  | negSucc k =>
    have hread : ofDigits (Numeral.ofInt (.negSucc k)).whole = k + 1 := ofDigits_toDigits (k + 1)
    have hint := Tree.IsInt.negative (m := .ofInt (.negSucc k)) rfl rfl (hread ▸ k.succ_pos)
    rwa [hread] at hint

end ChatStream.Json
