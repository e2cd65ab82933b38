import ChatStream.Proofs.Json.Numerals
import ChatStream.Proofs.Request.Parameters
import ChatStream.Proofs.Wire.Payload

/-!
# Bodies that can be read

A body holds a number wherever a sampling parameter is one, and `null` in its place wherever it is
an infinity or no number at all. Nobody reads a parameter from `null`, so a body is read back if and
only if all its parameters are finite (`parse?_body_of_isFinite`, `parse?_body_of_not_isFinite`).
What comes back has everything else as it was; the parameters themselves pass through decimal digits
and a format with more places, and how near they come back is not asked here.
-/

namespace ChatStream

open Json Decimal

namespace Request

/-! ## The tree of a body -/

/-- The value of a member of a body. -/
def bodyMember? (r : Request) (name : String) : Option Tree :=
  match Tree.parse? r.body with
  | some (.object members) => (uniqueMember? members name).join
  | _ => none

theorem proper_floatTree {x : Single} (hvalue : |x.value| ≤ 2 ^ 128) :
    (floatTree singleLayout x).Proper := by
  cases hx : x.isFinite with
  | true =>
    obtain ⟨n, hn, hproper, -⟩ := floatTree_of_isFinite hx hvalue
    rw [hn]
    exact .numeral hproper
  | false =>
    rw [floatTree_of_not_isFinite hx]
    exact .null

theorem proper_attachmentTree (a : Attachment) : (attachmentTree a).Proper := by
  refine .object fun m hm ↦ ?_
  rcases List.mem_pair.mp hm with rfl | rfl
  · exact .text _
  · exact .text _

theorem proper_tree {r : Request} (h : r.sampling.Fits) : r.tree.Proper := by
  refine .object fun m hm ↦ ?_
  simp only [List.mem_append] at hm
  rcases hm with ((hm | hm) | hm) | hm
  · rcases List.mem_pair.mp hm with rfl | rfl
    · exact .text _
    · exact .text _
  · rw [samplingMembers] at hm
    simp only [List.mem_cons, List.not_mem_nil, or_false] at hm
    rcases hm with rfl | rfl | rfl | rfl
    · exact proper_floatTree h.temperature
    · exact proper_floatTree h.topP
    · exact .numeral (Numeral.proper_ofInt _)
    · exact proper_floatTree h.repeatPenalty
  · obtain ⟨s, -, rfl⟩ := List.mem_map.mp hm
    exact .text _
  · split_ifs at hm
    · cases hm
    · obtain rfl := List.mem_singleton.mp hm
      refine .array fun t ht ↦ ?_
      obtain ⟨a, -, rfl⟩ := List.mem_map.mp ht
      exact proper_attachmentTree a

/-- A body is read as the tree of its request. -/
theorem parse?_body {r : Request} (h : r.sampling.Fits) : Tree.parse? r.body = some r.tree :=
  (proper_tree h).parse?_render

/-! ## Members -/

section
variable (r : Request)

/-- The members of a body under the names that a request is read from. -/
theorem fields?_tree :
    r.tree.fields? (ownNames ++ ["temperature", "top_p", "top_k", "repeat_penalty"]) =
      some [some (.text (some r.message)), some (.text (some r.model)),
        r.system.map fun s ↦ .text (some s),
        if r.attachments.isEmpty then none else some (.array (r.attachments.map attachmentTree)),
        some (floatTree singleLayout r.sampling.temperature),
        some (floatTree singleLayout r.sampling.topP), some (.numeral (.ofInt r.sampling.topK)),
        some (floatTree singleLayout r.sampling.repeatPenalty)] := by
  rw [tree, Tree.fields?]
  cases r.system <;> cases r.attachments <;> simp [samplingMembers, uniqueMember?, ownNames]

theorem attachmentOfTree?_attachmentTree (a : Attachment) :
    attachmentOfTree? (attachmentTree a) = some a := by
  simp [attachmentOfTree?, attachmentTree, Tree.fields?, uniqueMember?, Tree.string?]

theorem attachments_read (as : List Attachment) :
    attachmentsOfTree? (.array (as.map attachmentTree)) = some as := by
  rw [attachmentsOfTree?]
  induction as with
  | nil => rfl
  | cons a as ih => simp [List.mapM_cons, attachmentOfTree?_attachmentTree, ih]

theorem single?_floatTree {x : Single} (hvalue : |x.value| ≤ 2 ^ 128) :
    (single? (floatTree singleLayout x)).isSome = x.isFinite := by
  cases hx : x.isFinite with
  | true =>
    obtain ⟨n, hn, -, hnumber⟩ := floatTree_of_isFinite hx hvalue
    obtain ⟨k, hk⟩ := Option.isSome_iff_exists.mp hnumber
    rw [hn, single?, Tree.number?, hk]
    cases k <;> rfl
  | false =>
    rw [floatTree_of_not_isFinite hx]
    rfl

/-- Every member of a body is a value. -/
theorem isSome_value?_floatTree {x : Single} (hvalue : |x.value| ≤ 2 ^ 128) (room : Nat) :
    (Tree.value? room (floatTree singleLayout x)).isSome = true := by
  cases hx : x.isFinite with
  | true =>
    obtain ⟨n, hn, -, hnumber⟩ := floatTree_of_isFinite hx hvalue
    rw [hn, Tree.value?, Option.isSome_map]
    exact hnumber
  | false =>
    rw [floatTree_of_not_isFinite hx, Tree.value?]
    rfl

theorem isSome_mapM_value? (h : r.sampling.Fits) :
    ((samplingMembers r.sampling).mapM fun m ↦ Tree.value? (depthLimit - 1) m.2).isSome = true := by
  rw [isSome_mapM, samplingMembers]
  simp only [List.forall_mem_cons]
  refine ⟨isSome_value?_floatTree h.temperature _, isSome_value?_floatTree h.topP _, ?_,
    isSome_value?_floatTree h.repeatPenalty _, List.forall_mem_nil _⟩
  rw [Tree.value?, ofNumeral?_ofInt (h.topK.trans_lt (by decide))]
  rfl

/-- What a body is read as: the request with the parameters that its numerals denote. -/
theorem ofTree?_tree (h : r.sampling.Fits) :
    ofTree? r.tree = (do
      let temperature ← single? (floatTree singleLayout r.sampling.temperature)
      let topP ← single? (floatTree singleLayout r.sampling.topP)
      let repeatPenalty ← single? (floatTree singleLayout r.sampling.repeatPenalty)
      return { r with sampling := { r.sampling with temperature, topP, repeatPenalty } }) := by
  have hfields := r.fields?_tree
  have htopK : (Tree.numeral (.ofInt r.sampling.topK)).int? 0 0xFFFFFFFF =
      some (r.sampling.topK : Int) := by
    have hle : (r.sampling.topK : Int) ≤ 0xFFFFFFFF := by exact_mod_cast h.topK
    rw [Tree.int?, Tree.number?, ofNumeral?_ofInt (h.topK.trans_lt (by decide))]
    exact if_pos ⟨Int.natCast_nonneg _, hle⟩
  have hsystem : optional? Tree.string? (r.system.map fun s ↦ .text (some s)) = some r.system := by
    cases r.system <;> rfl
  obtain ⟨members, htree, hothers⟩ : ∃ members, r.tree = .object members ∧
      (members.filter fun m ↦ m.1.all fun k ↦ !ownNames.contains k) =
        samplingMembers r.sampling := by
    refine ⟨_, rfl, ?_⟩
    cases r.system <;> cases r.attachments <;> simp [samplingMembers, ownNames]
  have hvalues : ¬((samplingMembers r.sampling).mapM fun m ↦
      Tree.value? (depthLimit - 1) m.2).isNone = true := by
    obtain ⟨values, hvalues⟩ := Option.isSome_iff_exists.mp (r.isSome_mapM_value? h)
    rw [hvalues]
    exact Bool.false_ne_true
  rw [htree] at hfields ⊢
  rw [ofTree?, hothers, if_neg hvalues, hfields]
  simp only [Option.bind_eq_bind, Option.bind_some, Tree.string?, htopK, hsystem, Int.toNat_natCast]
  generalize single? (floatTree singleLayout r.sampling.temperature) = temperature
  generalize single? (floatTree singleLayout r.sampling.topP) = topP
  generalize single? (floatTree singleLayout r.sampling.repeatPenalty) = repeatPenalty
  cases hr : r.attachments with
  | nil => rfl
  | cons a as =>
    rw [List.isEmpty_cons, if_neg Bool.false_ne_true]
    simp only [attachments_read, Option.bind_some]

/-! ## Reading back -/

variable {r}

theorem parse?_body_eq (h : r.sampling.Fits) :
    Request.parse? r.body = (do
      let temperature ← single? (floatTree singleLayout r.sampling.temperature)
      let topP ← single? (floatTree singleLayout r.sampling.topP)
      let repeatPenalty ← single? (floatTree singleLayout r.sampling.repeatPenalty)
      return { r with sampling := { r.sampling with temperature, topP, repeatPenalty } }) := by
  rw [Request.parse?, parse?_body h, Option.bind_some, ofTree?_tree r h]

/-- A body with finite parameters is read as a request that has everything else as it was. -/
theorem parse?_body_of_isFinite (h : r.sampling.Fits) (hfinite : r.sampling.isFinite = true) :
    ∃ temperature topP repeatPenalty, Request.parse? r.body =
      some { r with sampling := { r.sampling with temperature, topP, repeatPenalty } } := by
  rw [Sampling.isFinite, Bool.and_eq_true, Bool.and_eq_true] at hfinite
  obtain ⟨⟨htemperature, htopP⟩, hrepeatPenalty⟩ := hfinite
  rw [← single?_floatTree h.temperature, Option.isSome_iff_exists] at htemperature
  rw [← single?_floatTree h.topP, Option.isSome_iff_exists] at htopP
  rw [← single?_floatTree h.repeatPenalty, Option.isSome_iff_exists] at hrepeatPenalty
  obtain ⟨temperature, htemperature⟩ := htemperature
  obtain ⟨topP, htopP⟩ := htopP
  obtain ⟨repeatPenalty, hrepeatPenalty⟩ := hrepeatPenalty
  refine ⟨temperature, topP, repeatPenalty, ?_⟩
  rw [parse?_body_eq h, htemperature, htopP, hrepeatPenalty]
  rfl

/-- A body with another parameter is read as nothing. -/
theorem parse?_body_of_not_isFinite (h : r.sampling.Fits) (hfinite : r.sampling.isFinite = false) :
    Request.parse? r.body = none := by
  have hnone {x : Single} (hvalue : |x.value| ≤ 2 ^ 128) (hx : x.isFinite = false) :
      single? (floatTree singleLayout x) = none := by
    rw [← Option.not_isSome_iff_eq_none, single?_floatTree hvalue, hx]
    exact Bool.false_ne_true
  rw [parse?_body_eq h]
  rw [Sampling.isFinite, Bool.and_eq_false_iff, Bool.and_eq_false_iff] at hfinite
  rcases hfinite with (hx | hx) | hx
  · rw [hnone h.temperature hx]
    rfl
  · rw [hnone h.topP hx]
    cases single? (floatTree singleLayout r.sampling.temperature) <;> rfl
  · rw [hnone h.repeatPenalty hx]
    cases single? (floatTree singleLayout r.sampling.temperature) <;>
      cases single? (floatTree singleLayout r.sampling.topP) <;> rfl

/-! ## Parameters in a body -/

/-- What stands in a body for a parameter: a number if the parameter is one, and `null`
otherwise. -/
def Holds (t : Option Tree) (x : Single) : Prop :=
  if x.isFinite then ∃ n, t = some (.numeral n) ∧ (Number.ofNumeral? n).isSome = true
  else t = some .null

theorem holds_floatTree {x : Single} (hvalue : |x.value| ≤ 2 ^ 128) :
    Holds (some (floatTree singleLayout x)) x := by
  rw [Holds]
  split_ifs with hx
  · obtain ⟨n, hn, -, hnumber⟩ := floatTree_of_isFinite hx hvalue
    exact ⟨n, congrArg some hn, hnumber⟩
  · rw [floatTree_of_not_isFinite (Bool.eq_false_iff.mpr hx)]

/-- The parameters in a body. -/
theorem bodyMember?_sampling (h : r.sampling.Fits) :
    Holds (r.bodyMember? "temperature") r.sampling.temperature ∧
      Holds (r.bodyMember? "top_p") r.sampling.topP ∧
      r.bodyMember? "top_k" = some (.numeral (.ofInt r.sampling.topK)) ∧
      Holds (r.bodyMember? "repeat_penalty") r.sampling.repeatPenalty := by
  have hmembers : r.bodyMember? "temperature" =
        some (floatTree singleLayout r.sampling.temperature) ∧
      r.bodyMember? "top_p" = some (floatTree singleLayout r.sampling.topP) ∧
      r.bodyMember? "top_k" = some (.numeral (.ofInt r.sampling.topK)) ∧
      r.bodyMember? "repeat_penalty" =
        some (floatTree singleLayout r.sampling.repeatPenalty) := by
    simp only [bodyMember?, parse?_body h, tree]
    cases r.system <;> cases r.attachments <;> simp [samplingMembers, uniqueMember?]
  obtain ⟨htemperature, htopP, htopK, hrepeatPenalty⟩ := hmembers
  rw [htemperature, htopP, hrepeatPenalty]
  exact ⟨holds_floatTree h.temperature, holds_floatTree h.topP, htopK,
    holds_floatTree h.repeatPenalty⟩

end

end Request

end ChatStream
