import Mathlib.Tactic
import ChatStream.Transport.Scripted

/-!
# Bytes in pieces

Bytes that are replayed are cut into pieces of one size, of which only the last may be shorter. The
cut loses nothing, and no piece is empty.
-/

namespace ChatStream

theorem flatten_go_pieces {size fuel : Nat} (done : List Bytes) {bytes : Bytes}
    (hfuel : bytes.length ≤ fuel) :
    (pieces.go size fuel done bytes).flatten = done.reverse.flatten ++ bytes := by
  induction fuel generalizing done bytes with
  | zero =>
    rw [List.length_eq_zero_iff.mp (Nat.le_zero.mp hfuel)]
    exact (List.append_nil _).symm
  | succ fuel ih =>
    cases bytes with
    | nil => exact (List.append_nil _).symm
    | cons b rest =>
      have hdrop : ((b :: rest).drop (max size 1)).length ≤ fuel := by
        rw [List.length_drop]
        rw [List.length_cons] at hfuel ⊢
        omega
      rw [pieces.go, ih _ hdrop, List.reverse_cons, List.flatten_append, List.flatten_singleton,
        List.append_assoc, List.take_append_drop]

/-- Pieces of any size are the bytes that were cut. -/
theorem flatten_pieces (size : Nat) (bytes : Bytes) : (pieces size bytes).flatten = bytes :=
  flatten_go_pieces [] (Nat.le_refl _)

/-- Bytes cut into pieces of one size, of which only the last may be shorter. -/
structure CutInto (size : Nat) (bytes : Bytes) (chunks : List Bytes) : Prop where
  flatten : chunks.flatten = bytes
  bounds : ∀ chunk ∈ chunks, 1 ≤ chunk.length ∧ chunk.length ≤ max size 1
  full : ∀ chunk ∈ chunks.dropLast, chunk.length = max size 1

theorem go_pieces_nil (size fuel : Nat) (done : List Bytes) :
    pieces.go size fuel done [] = done.reverse := by
  cases fuel <;> rfl

theorem length_of_mem_reverse {size : Nat} {done : List Bytes}
    (hdone : ∀ chunk ∈ done, chunk.length = max size 1) :
    (∀ chunk ∈ done.reverse, 1 ≤ chunk.length ∧ chunk.length ≤ max size 1) ∧
      ∀ chunk ∈ done.reverse.dropLast, chunk.length = max size 1 := by
  have hfull : ∀ chunk ∈ done.reverse, chunk.length = max size 1 :=
    fun chunk hchunk ↦ hdone chunk (List.mem_reverse.mp hchunk)
  refine ⟨fun chunk hchunk ↦ ?_, fun chunk hchunk ↦ hfull chunk (List.mem_of_mem_dropLast hchunk)⟩
  rw [hfull chunk hchunk]
  exact ⟨Nat.le_max_right size 1, Nat.le_refl _⟩

/-- Every piece has the full size but the last, which has what is left. -/
theorem length_of_mem_go_pieces (size : Nat) {fuel : Nat} {done : List Bytes} {bytes : Bytes}
    (hfuel : bytes.length ≤ fuel) (hdone : ∀ chunk ∈ done, chunk.length = max size 1) :
    (∀ chunk ∈ pieces.go size fuel done bytes, 1 ≤ chunk.length ∧ chunk.length ≤ max size 1) ∧
      ∀ chunk ∈ (pieces.go size fuel done bytes).dropLast, chunk.length = max size 1 := by
  induction fuel generalizing done bytes with
  | zero =>
    rw [List.length_eq_zero_iff.mp (Nat.le_zero.mp hfuel), go_pieces_nil]
    exact length_of_mem_reverse hdone
  | succ fuel ih =>
    by_cases hnil : bytes = []
    · rw [hnil, go_pieces_nil]
      exact length_of_mem_reverse hdone
    obtain ⟨b, rest, rfl⟩ := List.exists_cons_of_ne_nil hnil
    rw [List.length_cons] at hfuel
    rw [pieces.go]
    by_cases hlong : max size 1 ≤ (b :: rest).length
    · refine ih ?_ (List.forall_mem_cons.mpr ⟨List.length_take_of_le hlong, hdone⟩)
      rw [List.length_drop, List.length_cons]
      omega
    · -- What is left makes the last piece.
      rw [not_le] at hlong
      rw [List.drop_eq_nil_of_le hlong.le, go_pieces_nil, List.take_of_length_le hlong.le,
        List.reverse_cons, List.dropLast_concat]
      refine ⟨List.forall_mem_append.mpr ⟨(length_of_mem_reverse hdone).1, ?_⟩, ?_⟩
      · exact List.forall_mem_singleton.mpr ⟨Nat.succ_pos _, hlong.le⟩
      · exact fun chunk hchunk ↦ hdone chunk (List.mem_reverse.mp hchunk)

theorem cutInto_pieces (size : Nat) (bytes : Bytes) : CutInto size bytes (pieces size bytes) := by
  have hlength := length_of_mem_go_pieces size (Nat.le_refl bytes.length)
    (List.forall_mem_nil _)
  exact ⟨flatten_pieces size bytes, hlength.1, hlength.2⟩

end ChatStream
