import ChatStream.Proofs.Text.Encoding

/-!
# Maximal subparts

`Utf8.standing` knows which bytes make a character by the ranges of its lead bytes. Here the same is
said by what characters are written as, and by nothing else: `standing_eq_complete_iff` for a run
that is a character, `startsCharacter_iff` for one that begins a character.

`Decodes` is decoding in these terms. A character is read where one is written; where none is, the
longest start that begins a character becomes one replacement, or else a lone byte does. There is
exactly one way to do this, and `decodes_iff` says that it is `lossy`. So the machine, which looks
at one byte at a time, is held to a description in which there are neither ranges nor machines.
-/

namespace ChatStream.Utf8

/-! ## Runs that are a character -/

theorem payload_lt (b : UInt8) : payload b < 64 := Nat.mod_lt _ (by decide)

/-- The lead bytes, and the bits that each lets follow. -/
theorem bounds_of_followsLead {a b : UInt8} (h : followsLead a b = true) :
    (0xC2 ≤ a.toNat ∧ a.toNat ≤ 0xF4) ∧ isContinuation b = true ∧
      (a.toNat = 0xE0 → 32 ≤ payload b) ∧ (a.toNat = 0xED → payload b < 32) ∧
      (a.toNat = 0xF0 → 16 ≤ payload b) ∧ (a.toNat = 0xF4 → payload b < 16) := by
  rw [followsLead_iff] at h
  rw [isContinuation_iff, payload]
  omega

theorem ofNat_eq {a : UInt8} {n : Nat} (h : n = a.toNat) : UInt8.ofNat n = a := by
  rw [h, UInt8.ofNat_toNat]

theorem tailByte_eq {b : UInt8} (hb : isContinuation b = true) {n : Nat} (h : n % 64 = payload b) :
    tailByte n = b := by
  rw [isContinuation_iff] at hb
  rw [payload] at h
  exact ofNat_eq (by omega)

/-- A run that is a character is what that character is written as. -/
theorem eq_utf8EncodeChar {bytes : Bytes} {c : Char} (h : standing bytes = .complete c) :
    bytes = String.utf8EncodeChar c := by
  match bytes with
  | [a] =>
    simp only [standing] at h
    split_ifs at h with hone
    cases h
    have hlt : a.toNat < 128 := hone
    rw [utf8EncodeChar_ofNat (.inl (by omega)), if_pos (by omega), UInt8.ofNat_toNat]
  | [a, b] =>
    simp only [standing] at h
    split_ifs at h with hfollows htwo
    cases h
    have hlt : a.toNat < 224 := htwo
    have hb := payload_lt b
    obtain ⟨hlead, hcont, -⟩ := bounds_of_followsLead hfollows
    rw [utf8EncodeChar_ofNat (.inl (by omega)), if_neg (by omega), if_pos (by omega),
      ofNat_eq (a := a) (by omega), tailByte_eq hcont (by omega)]
  | [a, b, c] =>
    simp only [standing, Bool.and_eq_true, decide_eq_true_eq] at h
    split_ifs at h with hrun hthree
    cases h
    obtain ⟨⟨hge, hfollows⟩, hc⟩ := hrun
    have hge : 224 ≤ a.toNat := hge
    have hlt : a.toNat < 240 := hthree
    have hb := payload_lt b
    have hc' := payload_lt c
    obtain ⟨-, hcont, hlow, hsurrogate, -⟩ := bounds_of_followsLead hfollows
    rw [utf8EncodeChar_ofNat (by unfold Nat.isValidChar; omega), if_neg (by omega),
      if_neg (by omega), if_pos (by omega), ofNat_eq (a := a) (by omega),
      tailByte_eq hcont (by omega), tailByte_eq hc (by omega)]
  | [a, b, c, d] =>
    simp only [standing, Bool.and_eq_true, decide_eq_true_eq] at h
    split_ifs at h with hrun
    cases h
    obtain ⟨⟨⟨hge, hfollows⟩, hc⟩, hd⟩ := hrun
    have hge : 240 ≤ a.toNat := hge
    have hb := payload_lt b
    have hc' := payload_lt c
    have hd' := payload_lt d
    obtain ⟨hlead, hcont, -, -, hlow, hhigh⟩ := bounds_of_followsLead hfollows
    rw [utf8EncodeChar_ofNat (by unfold Nat.isValidChar; omega), if_neg (by omega),
      if_neg (by omega), if_neg (by omega), ofNat_eq (a := a) (by omega),
      tailByte_eq hcont (by omega), tailByte_eq hc (by omega), tailByte_eq hd (by omega)]
  | [] | _ :: _ :: _ :: _ :: _ :: _ => cases h

theorem standing_eq_complete_iff {bytes : Bytes} {c : Char} :
    standing bytes = .complete c ↔ bytes = String.utf8EncodeChar c :=
  ⟨eq_utf8EncodeChar, fun h ↦ h ▸ standing_utf8EncodeChar c⟩

/-! ## Runs that begin a character -/

/-- The bytes begin what some character is written as. -/
def StartsCharacter (bytes : Bytes) : Prop := ∃ c, bytes <+: String.utf8EncodeChar c

/-- A byte that may follow a lead byte, for each of them. -/
theorem exists_followsLead {a : UInt8} (h : 0xC2 ≤ a ∧ a ≤ 0xF4) : ∃ b, followsLead a b = true := by
  have hlow : 0xC2 ≤ a.toNat := h.1
  have hhigh : a.toNat ≤ 0xF4 := h.2
  by_cases hnarrow : a.toNat = 0xE0 ∨ a.toNat = 0xF0
  · -- the two leads whose lowest second bytes would spell an overlong form
    refine ⟨0xA0, followsLead_iff.mpr ?_⟩
    rw [show (0xA0 : UInt8).toNat = 0xA0 from rfl]
    omega
  · refine ⟨0x80, followsLead_iff.mpr ?_⟩
    rw [show (0x80 : UInt8).toNat = 0x80 from rfl]
    omega

/-- An unfinished run has a byte that goes on with it. -/
theorem exists_snoc {bytes : Bytes} (h : standing bytes = .unfinished) :
    ∃ b, standing (bytes ++ [b]) ≠ .broken := by
  have htail : isContinuation 0x80 = true := by decide
  rcases bytes with _ | ⟨a, _ | ⟨b, _ | ⟨c, _ | ⟨d, _ | ⟨e, rest⟩⟩⟩⟩⟩
  · cases h
  · simp only [standing] at h
    split_ifs at h with hone hlead
    obtain ⟨b, hb⟩ := exists_followsLead (by simpa using hlead)
    refine ⟨b, ?_⟩
    simp only [List.singleton_append, standing, hb, if_true]
    split_ifs <;> simp
  · simp only [standing] at h
    split_ifs at h with hfollows htwo
    have hge : 0xE0 ≤ a := UInt8.not_lt.mp htwo
    refine ⟨0x80, ?_⟩
    simp only [List.cons_append, List.nil_append, standing, hge, hfollows, htail, decide_true,
      Bool.and_self, if_true]
    split_ifs <;> simp
  · simp only [standing] at h
    split_ifs at h with hrun hthree
    simp only [Bool.and_eq_true, decide_eq_true_eq] at hrun
    have hge : 0xF0 ≤ a := UInt8.not_lt.mp hthree
    refine ⟨0x80, ?_⟩
    simp [standing, hge, hrun, htail]
  · simp only [standing] at h
    split_ifs at h
  · cases h

theorem exists_complete {bytes : Bytes} (h : standing bytes = .unfinished) :
    ∃ t c, standing (bytes ++ t) = .complete c := by
  obtain ⟨b, hb⟩ := exists_snoc h
  cases hs : standing (bytes ++ [b]) with
  | complete c => exact ⟨[b], c, hs⟩
  | broken => exact absurd hs hb
  | unfinished =>
    obtain ⟨t, c, hc⟩ := exists_complete hs
    exact ⟨b :: t, c, by rwa [List.append_cons]⟩
termination_by 4 - bytes.length
decreasing_by
  have hlen := Holdable.length_le (.inr hs)
  simp only [List.length_append, List.length_singleton] at hlen ⊢
  omega

/-- A run begins a character if and only if it is one or may become one. -/
theorem startsCharacter_iff {bytes : Bytes} :
    StartsCharacter bytes ↔ bytes = [] ∨ standing bytes ≠ .broken := by
  constructor
  · rintro ⟨c, t, hc⟩
    have hstanding : standing (bytes ++ t) = .complete c := standing_eq_complete_iff.mpr hc
    rcases List.eq_nil_or_concat t with rfl | ⟨t, b, rfl⟩
    · rw [List.append_nil] at hstanding
      exact .inr (by rw [hstanding]; nofun)
    · rw [List.concat_eq_append, ← List.append_assoc] at hstanding
      have hheld : Holdable (bytes ++ t) := holdable_of_snoc (by rw [hstanding]; nofun)
      exact hheld.of_append.imp_right fun h ↦ by rw [h]; nofun
  · rintro (rfl | hbytes)
    · exact ⟨'a', List.nil_prefix⟩
    · cases hs : standing bytes with
      | complete c => exact ⟨c, by rw [← eq_utf8EncodeChar hs]⟩
      | broken => exact absurd hs hbytes
      | unfinished =>
        obtain ⟨t, c, hc⟩ := exists_complete hs
        exact ⟨c, t, standing_eq_complete_iff.mp hc⟩

/-- No character begins with another one. -/
theorem eq_of_prefix {bytes : Bytes} {c c' : Char} (h : String.utf8EncodeChar c <+: bytes)
    (h' : String.utf8EncodeChar c' <+: bytes) : c = c' := by
  wlog hle : (String.utf8EncodeChar c).length ≤ (String.utf8EncodeChar c').length generalizing c c'
  · exact (this h' h (Nat.le_of_not_le hle)).symm
  obtain ⟨t, ht⟩ := List.prefix_of_prefix_length_le h h' hle
  have hc := standing_utf8EncodeChar c
  have hc' := standing_utf8EncodeChar c'
  rcases List.eq_nil_or_concat t with rfl | ⟨t, b, rfl⟩
  · rw [List.append_nil] at ht
    rw [← ht, hc] at hc'
    cases hc'
    rfl
  · rw [← ht, List.concat_eq_append, ← List.append_assoc] at hc'
    have hheld : Holdable (String.utf8EncodeChar c ++ t) :=
      holdable_of_snoc (by rw [hc']; nofun)
    rw [hheld.of_append.standing_eq String.utf8EncodeChar_ne_nil] at hc
    cases hc

/-! ## Decoding without a machine -/

/-- The start of `bytes` that one replacement stands for: as much as begins a character, and at
least a byte. -/
structure MaximalSubpart (part bytes : Bytes) : Prop where
  front : part <+: bytes
  ne_nil : part ≠ []
  begins : StartsCharacter part ∨ part.length = 1
  longest : ∀ q, q <+: bytes → StartsCharacter q → q.length ≤ part.length

/-- The bytes are decoded as the characters. -/
inductive Decodes : Bytes → List Char → Prop
  | nil : Decodes [] []
  /-- A character is written here. -/
  | char {bytes : Bytes} {c : Char} {cs : List Char} (hc : String.utf8EncodeChar c <+: bytes)
    (hrest : Decodes (bytes.drop (String.utf8EncodeChar c).length) cs) : Decodes bytes (c :: cs)
  /-- No character is written here. -/
  | subpart {bytes part : Bytes} {cs : List Char}
    (hnone : ∀ c, ¬ String.utf8EncodeChar c <+: bytes) (hpart : MaximalSubpart part bytes)
    (hrest : Decodes (bytes.drop part.length) cs) : Decodes bytes (replacement :: cs)

theorem MaximalSubpart.eq {p q bytes : Bytes} (hp : MaximalSubpart p bytes)
    (hq : MaximalSubpart q bytes) : p = q := by
  have hle {p q : Bytes} (hp : MaximalSubpart p bytes) (hq : MaximalSubpart q bytes) :
      p.length ≤ q.length := by
    rcases hp.begins with hbegins | hone
    · exact hq.longest p hp.front hbegins
    · rw [hone]
      exact List.length_pos_of_ne_nil hq.ne_nil
  exact (List.prefix_of_prefix_length_le hp.front hq.front (hle hp hq)).eq_of_length_le (hle hq hp)

/-- There is one way to decode. -/
theorem Decodes.unique {bytes : Bytes} {cs cs' : List Char} (h : Decodes bytes cs)
    (h' : Decodes bytes cs') : cs = cs' := by
  induction h generalizing cs' with
  | nil =>
    cases h' with
    | nil => rfl
    | char hc _ => exact absurd (List.prefix_nil.mp hc) String.utf8EncodeChar_ne_nil
    | subpart _ hpart _ => exact absurd (List.prefix_nil.mp hpart.front) hpart.ne_nil
  | char hc _ ih =>
    cases h' with
    | nil => exact absurd (List.prefix_nil.mp hc) String.utf8EncodeChar_ne_nil
    | char hc' hrest' =>
      obtain rfl := eq_of_prefix hc hc'
      rw [ih hrest']
    | subpart hnone _ _ => exact absurd hc (hnone _)
  | subpart hnone hpart _ ih =>
    cases h' with
    | nil => exact absurd (List.prefix_nil.mp hpart.front) hpart.ne_nil
    | char hc' _ => exact absurd hc' (hnone _)
    | subpart _ hpart' hrest' =>
      obtain rfl := hpart.eq hpart'
      rw [ih hrest']

/-! ### It is `lossy` -/

theorem first?_eq_some {bytes : Bytes} {n : Nat} {c : Char} (h : first? bytes = some (n, c)) :
    0 < n ∧ bytes.take n = String.utf8EncodeChar c := by
  obtain ⟨k, hk, hfound⟩ := List.exists_of_findSome?_eq_some h
  split at hfound
  · rename_i c' hstanding
    cases hfound
    exact ⟨by fin_cases hk <;> decide, eq_utf8EncodeChar hstanding⟩
  · cases hfound

/-- Where no character is found, none is written. -/
theorem not_prefix_of_first?_eq_none {bytes : Bytes} (h : first? bytes = none) (c : Char) :
    ¬ String.utf8EncodeChar c <+: bytes := by
  intro hc
  have htake := (List.prefix_iff_eq_take.mp hc).symm
  have hmem : (String.utf8EncodeChar c).length ∈ [1, 2, 3, 4] := by
    have hpos := c.utf8Size_pos
    have hle := c.utf8Size_le_four
    rw [String.length_utf8EncodeChar]
    simp only [List.mem_cons, List.not_mem_nil, or_false]
    omega
  have hnone := List.findSome?_eq_none_iff.mp h _ hmem
  rw [htake, standing_utf8EncodeChar] at hnone
  cases hnone

/-- The longest start of three bytes or two that is unfinished, or else one byte. -/
theorem brokenLength_cases (bytes : Bytes) :
    (standing (bytes.take 3) = .unfinished ∧ brokenLength bytes = (bytes.take 3).length) ∨
      (standing (bytes.take 3) ≠ .unfinished ∧ standing (bytes.take 2) = .unfinished ∧
        brokenLength bytes = (bytes.take 2).length) ∨
      (standing (bytes.take 3) ≠ .unfinished ∧ standing (bytes.take 2) ≠ .unfinished ∧
        brokenLength bytes = 1) := by
  by_cases hthree : standing (bytes.take 3) = .unfinished
  · exact .inl ⟨hthree, by simp [brokenLength, hthree]⟩
  · by_cases htwo : standing (bytes.take 2) = .unfinished
    · exact .inr (.inl ⟨hthree, htwo, by simp [brokenLength, hthree, htwo]⟩)
    · exact .inr (.inr ⟨hthree, htwo, by simp [brokenLength, hthree, htwo]⟩)

/-- No longer start is unfinished. -/
theorem length_le_brokenLength {bytes q : Bytes} (hq : q <+: bytes)
    (hs : standing q = .unfinished) : q.length ≤ brokenLength bytes := by
  have hle := hq.length_le
  have hlen := Holdable.length_le (.inr hs)
  have htake := (List.prefix_iff_eq_take.mp hq).symm
  have hthree : q.length = 3 → standing (bytes.take 3) = .unfinished := fun hq ↦ by
    rw [← hq, htake, hs]
  have htwo : q.length = 2 → standing (bytes.take 2) = .unfinished := fun hq ↦ by
    rw [← hq, htake, hs]
  have hcases := brokenLength_cases bytes
  simp only [List.length_take] at hcases
  rcases hcases with ⟨-, hbroken⟩ | ⟨hnot, -, hbroken⟩ | ⟨hnot, hnot', hbroken⟩
  · omega
  · have := mt hthree hnot
    omega
  · have := mt hthree hnot
    have := mt htwo hnot'
    omega

theorem maximalSubpart_take {bytes : Bytes} (hne : bytes ≠ []) (h : first? bytes = none) :
    MaximalSubpart (bytes.take (brokenLength bytes)) bytes := by
  have hpos := List.length_pos_of_ne_nil hne
  have hcases := brokenLength_cases bytes
  simp only [List.length_take] at hcases
  refine ⟨List.take_prefix _ _, ?_, ?_, fun q hq hbegins ↦ ?_⟩
  · rw [Ne, List.take_eq_nil_iff]
    rcases hcases with ⟨-, hlen⟩ | ⟨-, -, hlen⟩ | ⟨-, -, hlen⟩ <;> simp [hlen, hne]
  · rcases hcases with ⟨hthree, hlen⟩ | ⟨-, htwo, hlen⟩ | ⟨-, -, hlen⟩
    · rw [hlen, ← List.take_take, List.take_length]
      exact .inl (startsCharacter_iff.mpr (.inr (by rw [hthree]; nofun)))
    · rw [hlen, ← List.take_take, List.take_length]
      exact .inl (startsCharacter_iff.mpr (.inr (by rw [htwo]; nofun)))
    · rw [hlen, List.length_take]
      omega
  · cases hs : standing q with
    | complete c =>
      exact absurd (eq_utf8EncodeChar hs ▸ hq) (not_prefix_of_first?_eq_none h c)
    | broken =>
      obtain rfl := (startsCharacter_iff.mp hbegins).resolve_right (not_not.mpr hs)
      exact Nat.zero_le _
    | unfinished =>
      rw [List.length_take]
      exact le_min (length_le_brokenLength hq hs) hq.length_le

theorem decodes_lossyOnto (done : String) (bytes : Bytes) :
    ∃ cs, Decodes bytes cs ∧ (lossyOnto done bytes).toList = done.toList ++ cs := by
  have hdrop (bytes : Bytes) (n : Nat) : bytes.drop (bytes.take n).length = bytes.drop n := by
    rw [List.length_take, List.drop_eq_drop_iff]
    omega
  fun_induction lossyOnto done bytes with
  | case1 done => exact ⟨[], .nil, by simp⟩
  | case2 done b rest n c hfirst ih =>
    obtain ⟨cs, hcs, htext⟩ := ih
    obtain ⟨hpos, htake⟩ := first?_eq_some hfirst
    refine ⟨c :: cs, .char (c := c) ?_ ?_, by rw [htext]; simp⟩
    · rw [← htake]
      exact List.take_prefix _ _
    · rwa [← htake, hdrop, ← Nat.succ_pred_eq_of_pos hpos]
  | case3 done b rest hfirst ih =>
    obtain ⟨cs, hcs, htext⟩ := ih
    have hpart := maximalSubpart_take (by simp) hfirst
    refine ⟨replacement :: cs, .subpart (not_prefix_of_first?_eq_none hfirst) hpart ?_,
      by rw [htext]; simp⟩
    have hpos : 0 < brokenLength (b :: rest) := by
      by_contra hzero
      exact hpart.ne_nil (by rw [Nat.eq_zero_of_not_pos hzero, List.take_zero])
    rwa [hdrop, ← Nat.succ_pred_eq_of_pos hpos]

/-- **Decoding is `lossy`**, and nothing else is. -/
theorem decodes_iff {bytes : Bytes} {cs : List Char} :
    Decodes bytes cs ↔ cs = (lossy bytes).toList := by
  obtain ⟨cs', hcs', htext⟩ := decodes_lossyOnto "" bytes
  rw [String.toList_empty, List.nil_append] at htext
  rw [lossy, htext]
  exact ⟨fun h ↦ h.unique hcs', fun h ↦ h ▸ hcs'⟩

end ChatStream.Utf8
