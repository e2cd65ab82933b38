import Mathlib.Tactic
import ChatStream.Transport.Http

/-!
# Answers that are no stream

The status of an answer alone says whether its body is a stream. Any other body only describes what
is the matter, and no more of it is kept than a few hundred bytes, which end with a character.

## Forwards and backwards

`takeBytes` goes through a text from its start as long as whole characters fit. One can also go back
from the limit, offset by offset, to the first that stands between two characters
(`boundaryFrom`). Both come to the same place, because both find the longest start of the text that
fits (`LongestStart`). The way back is short: no character has more than four bytes.
-/

namespace ChatStream

/-! ## Starts of a text -/

/-- What is kept of a text is its longest start of so many bytes at most. -/
structure LongestStart (limit : Nat) (text kept : String) : Prop where
  isStart : ∃ rest, text = kept ++ rest
  fits : kept.utf8ByteSize ≤ limit
  longest : ∀ before after, text = before ++ after → before.utf8ByteSize ≤ limit →
    ∃ between, kept = before ++ between

theorem utf8ByteSize_ofList_cons (c : Char) (cs : List Char) :
    (String.ofList (c :: cs)).utf8ByteSize = c.utf8Size + (String.ofList cs).utf8ByteSize := by
  rw [String.ofList_cons, String.utf8ByteSize_append, String.utf8ByteSize_singleton]

/-- As many characters are taken as fit, and the next one would not. -/
theorem exists_takeBytes_go (budget : Nat) (done : String) (cs : List Char) :
    ∃ taken rest, cs = taken ++ rest ∧
      takeBytes.go budget done cs = done ++ String.ofList taken ∧
      (String.ofList taken).utf8ByteSize ≤ budget ∧
      ∀ c rest', rest = c :: rest' → budget < (String.ofList taken).utf8ByteSize + c.utf8Size := by
  induction cs generalizing budget done with
  | nil => exact ⟨[], [], rfl, String.append_empty.symm, Nat.zero_le _, nofun⟩
  | cons c cs ih =>
    rw [takeBytes.go]
    split_ifs with hfits
    · obtain ⟨taken, rest, rfl, hgo, hsize, hnext⟩ := ih (budget - c.utf8Size) (done.push c)
      refine ⟨c :: taken, rest, rfl, ?_, ?_, fun c' rest' hrest ↦ ?_⟩
      · rw [hgo, String.push_eq_append, String.append_assoc, String.ofList_cons]
      · rw [utf8ByteSize_ofList_cons]
        omega
      · have hlt := hnext c' rest' hrest
        rw [utf8ByteSize_ofList_cons]
        omega
    · refine ⟨[], c :: cs, rfl, String.append_empty.symm, Nat.zero_le _, ?_⟩
      rintro c' rest' ⟨⟩
      simpa using hfits

theorem longestStart_takeBytes (limit : Nat) (text : String) :
    LongestStart limit text (takeBytes limit text) := by
  obtain ⟨taken, rest, hsplit, hgo, hsize, hnext⟩ := exists_takeBytes_go limit "" text.toList
  rw [String.empty_append] at hgo
  have htext : text = String.ofList taken ++ String.ofList rest := by
    rw [← String.ofList_append, ← hsplit, String.ofList_toList]
  rw [takeBytes, hgo]
  refine ⟨⟨_, htext⟩, hsize, fun before after hbefore hfits ↦ ?_⟩
  have happend : before.toList ++ after.toList = taken ++ rest := by
    rw [← String.toList_append, ← hbefore, hsplit]
  rcases List.append_eq_append_iff.mp happend with ⟨between, rfl, -⟩ | ⟨more, hmore, hrest⟩
  · exact ⟨String.ofList between, by rw [String.ofList_append, String.ofList_toList]⟩
  · cases more with
    | nil =>
      rw [List.append_nil] at hmore
      exact ⟨"", by rw [← hmore, String.ofList_toList, String.append_empty]⟩
    | cons c more =>
      -- One character more than what was taken does not fit.
      have hlt := hnext c _ hrest
      have hsize : before.utf8ByteSize = (String.ofList taken).utf8ByteSize +
          (String.ofList (c :: more)).utf8ByteSize := by
        rw [← String.utf8ByteSize_append, ← String.ofList_append, ← hmore, String.ofList_toList]
      rw [utf8ByteSize_ofList_cons] at hsize
      omega

namespace LongestStart

variable {limit : Nat} {text kept : String}

/-- A text that fits is kept as it is. -/
theorem eq_of_le (h : LongestStart limit text kept) (hfits : text.utf8ByteSize ≤ limit) :
    kept = text := by
  obtain ⟨rest, hrest⟩ := h.isStart
  obtain ⟨between, hbetween⟩ := h.longest text "" String.append_empty.symm hfits
  have hsize := congrArg String.utf8ByteSize hbetween
  have hsize' := congrArg String.utf8ByteSize hrest
  rw [String.utf8ByteSize_append] at hsize hsize'
  have hempty : between = "" := String.utf8ByteSize_eq_zero_iff.mp (by omega)
  rw [hbetween, hempty, String.append_empty]

/-- Of a text that does not fit three bytes less than the limit are kept at least. -/
theorem limit_le (h : LongestStart limit text kept) (hlong : limit < text.utf8ByteSize) :
    limit ≤ kept.utf8ByteSize + 3 := by
  obtain ⟨rest, rfl⟩ := h.isStart
  have hfits := h.fits
  rw [String.utf8ByteSize_append] at hlong
  cases hrest : rest.toList with
  | nil =>
    rw [String.toList_eq_nil_iff.mp hrest, String.utf8ByteSize_empty] at hlong
    omega
  | cons c cs =>
    have hsplit : kept ++ rest = kept ++ String.ofList [c] ++ String.ofList cs := by
      rw [String.append_assoc, ← String.ofList_append, List.singleton_append, ← hrest,
        String.ofList_toList]
    have hnext : (kept ++ String.ofList [c]).utf8ByteSize = kept.utf8ByteSize + c.utf8Size := by
      rw [String.utf8ByteSize_append, utf8ByteSize_ofList_cons, String.ofList_nil,
        String.utf8ByteSize_empty, Nat.add_zero]
    have hfour := c.utf8Size_le_four
    by_contra hshort
    obtain ⟨between, hbetween⟩ := h.longest _ _ hsplit (by omega)
    have hsize := congrArg String.utf8ByteSize hbetween
    have hpos := c.utf8Size_pos
    rw [String.utf8ByteSize_append, hnext] at hsize
    omega

end LongestStart

/-! ## The way back -/

/-- The first offset from the given one backwards that stands between two characters of a text, or
before or behind all of them. -/
def boundaryFrom (text : String) : Nat → Nat
  | 0 => 0
  | n + 1 => if String.Pos.Raw.isValid text ⟨n + 1⟩ then n + 1 else boundaryFrom text n

theorem boundaryFrom_le (text : String) (n : Nat) : boundaryFrom text n ≤ n := by
  induction n with
  | zero => exact Nat.le_refl 0
  | succ n ih =>
    rw [boundaryFrom]
    split_ifs
    · exact Nat.le_refl _
    · exact Nat.le_succ_of_le ih

theorem isValid_boundaryFrom (text : String) (n : Nat) :
    String.Pos.Raw.IsValid text ⟨boundaryFrom text n⟩ := by
  induction n with
  | zero => exact String.Pos.Raw.isValid_zero
  | succ n ih =>
    rw [boundaryFrom]
    split_ifs with hvalid
    · exact String.Pos.Raw.isValid_eq_true_iff.mp hvalid
    · exact ih

/-- No boundary is passed on the way back. -/
theorem le_boundaryFrom {text : String} {k n : Nat} (hk : String.Pos.Raw.IsValid text ⟨k⟩)
    (hkn : k ≤ n) : k ≤ boundaryFrom text n := by
  induction n with
  | zero => exact hkn
  | succ n ih =>
    rw [boundaryFrom]
    split_ifs with hvalid
    · exact hkn
    · refine ih (Nat.le_of_lt_succ (Nat.lt_of_le_of_ne hkn ?_))
      rintro rfl
      exact hvalid (String.Pos.Raw.isValid_eq_true_iff.mpr hk)

/-- The way back ends behind the longest start that fits. -/
theorem LongestStart.boundaryFrom_eq {limit : Nat} {text kept : String}
    (h : LongestStart limit text kept) : boundaryFrom text limit = kept.utf8ByteSize := by
  apply Nat.le_antisymm
  · obtain ⟨before, after, hsplit, hsize⟩ :=
      String.Pos.Raw.isValid_iff_exists_append.mp (isValid_boundaryFrom text limit)
    have hbefore : before.utf8ByteSize = boundaryFrom text limit :=
      (congrArg String.Pos.Raw.byteIdx hsize).symm
    obtain ⟨between, hkept⟩ :=
      h.longest before after hsplit (hbefore.le.trans (boundaryFrom_le text limit))
    rw [← hbefore, hkept, String.utf8ByteSize_append]
    exact Nat.le_add_right _ _
  · obtain ⟨rest, hrest⟩ := h.isStart
    exact le_boundaryFrom (String.Pos.Raw.isValid_iff_exists_append.mpr ⟨kept, rest, hrest, rfl⟩)
      h.fits

/-! ## Replies -/

namespace Reply

/-- The body as a text; nothing of a body that could not be read whole. -/
def text (r : Reply) : String := if r.cut then "" else Utf8.lossy r.pieces.flatten

theorem description_eq (r : Reply) : r.description = takeBytes descriptionLimit r.text := by
  rw [description, text]
  split_ifs <;> rfl

theorem longestStart_description (r : Reply) :
    LongestStart descriptionLimit r.text r.description :=
  r.description_eq ▸ longestStart_takeBytes descriptionLimit r.text

theorem isSuccess_iff (r : Reply) : r.isSuccess = true ↔ 200 ≤ r.status ∧ r.status ≤ 299 := by
  rw [isSuccess, Bool.and_eq_true, decide_eq_true_iff, decide_eq_true_iff]
  omega

end Reply

/-- An answer is a stream exactly if its status is one of success. -/
theorem openHttp_eq_ok_iff (endpoint : String) (r : Reply) :
    (∃ items, openHttp endpoint false (some r) = .ok items) ↔
      200 ≤ r.status ∧ r.status ≤ 299 := by
  rw [← r.isSuccess_iff, openHttp, if_neg Bool.false_ne_true]
  split_ifs with hsuccess
  · exact iff_of_true ⟨_, rfl⟩ hsuccess
  · exact iff_of_false nofun hsuccess

theorem openHttp_eq_error (endpoint : String) {r : Reply}
    (h : ¬ (200 ≤ r.status ∧ r.status ≤ 299)) :
    openHttp endpoint false (some r) = .error (.status r.status r.description) := by
  rw [openHttp, if_neg Bool.false_ne_true]
  exact if_neg (mt r.isSuccess_iff.mp h)

end ChatStream
