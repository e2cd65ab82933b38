import ChatStream.Proofs.Text.Utf8

/-!
# What is written is read

`encode` writes a text character by character, in one to four bytes. `standing_utf8EncodeChar` says
that what it writes for a character is that character and no other, and from there decoding goes
along the text: no byte that was written is held back or replaced, so `lossy_encode` reads every
text as it was.

Both sides are compared as numbers. The bounds of `followsLead` are those that the numbers of the
characters of three and of four bytes keep, the surrogates left out.
-/

namespace ChatStream.Utf8

/-! ## Bytes as numbers -/

theorem isContinuation_iff {b : UInt8} :
    isContinuation b = true ↔ 0x80 ≤ b.toNat ∧ b.toNat ≤ 0xBF := by
  simp [isContinuation, UInt8.le_iff_toNat_le]

/-- The second bytes after each lead byte, in numbers. -/
theorem followsLead_iff {a b : UInt8} :
    followsLead a b = true ↔
      0xC2 ≤ a.toNat ∧ a.toNat ≤ 0xF4 ∧ 0x80 ≤ b.toNat ∧ b.toNat ≤ 0xBF ∧
        (a.toNat = 0xE0 → 0xA0 ≤ b.toNat) ∧ (a.toNat = 0xED → b.toNat ≤ 0x9F) ∧
        (a.toNat = 0xF0 → 0x90 ≤ b.toNat) ∧ (a.toNat = 0xF4 → b.toNat ≤ 0x8F) := by
  simp only [followsLead, beq_iff_eq, ← UInt8.toNat_inj, UInt8.reduceToNat]
  split_ifs <;> simp [isContinuation_iff, UInt8.le_iff_toNat_le] <;> omega

/-- The byte of a number that fits one. -/
theorem toNat_ofNat {n : Nat} (h : n < 256) : (UInt8.ofNat n).toNat = n :=
  UInt8.toNat_ofNat_of_lt' h

/-- The byte that continues a character with the last six bits of a number. -/
def tailByte (n : Nat) : UInt8 := UInt8.ofNat (n % 64 + 128)

theorem toNat_tailByte (n : Nat) : (tailByte n).toNat = n % 64 + 128 :=
  toNat_ofNat (by omega)

theorem isContinuation_tailByte (n : Nat) : isContinuation (tailByte n) = true := by
  rw [isContinuation_iff, toNat_tailByte]
  omega

theorem payload_tailByte (n : Nat) : payload (tailByte n) = n % 64 := by
  rw [payload, toNat_tailByte]
  omega

/-- A lead byte of two, three or four and what may follow it. -/
theorem followsLead_tailByte {a n : Nat} (ha : 0xC2 ≤ a ∧ a ≤ 0xF4)
    (hn : (a = 0xE0 → 32 ≤ n % 64) ∧ (a = 0xED → n % 64 < 32) ∧ (a = 0xF0 → 16 ≤ n % 64) ∧
      (a = 0xF4 → n % 64 < 16)) : followsLead (UInt8.ofNat a) (tailByte n) = true := by
  rw [followsLead_iff, toNat_tailByte, toNat_ofNat (by omega)]
  omega

theorem ofNat_lt {a : Nat} {b : UInt8} (ha : a < 256) (h : a < b.toNat) : UInt8.ofNat a < b := by
  rwa [UInt8.lt_iff_toNat_lt, toNat_ofNat ha]

theorem le_ofNat {a : Nat} {b : UInt8} (ha : a < 256) (h : b.toNat ≤ a) : b ≤ UInt8.ofNat a := by
  rwa [UInt8.le_iff_toNat_le, toNat_ofNat ha]

/-! ## Characters and texts -/

/-- The bytes of the character with a given number. -/
theorem utf8EncodeChar_ofNat {n : Nat} (h : n.isValidChar) :
    String.utf8EncodeChar (Char.ofNat n) =
      if n ≤ 127 then [UInt8.ofNat n]
      else if n ≤ 2047 then [UInt8.ofNat (n / 64 % 32 + 192), tailByte n]
      else if n ≤ 65535 then [UInt8.ofNat (n / 4096 % 16 + 224), tailByte (n / 64), tailByte n]
      else [UInt8.ofNat (n / 262144 % 8 + 240), tailByte (n / 4096), tailByte (n / 64),
        tailByte n] := by
  have hval : (Char.ofNat n).val.toNat = n := by
    rw [Char.ofNat, dif_pos h]
    rfl
  rw [String.utf8EncodeChar]
  simp only [hval, tailByte]

/-- **What is written is read.** The bytes of a character are exactly that character. -/
theorem standing_utf8EncodeChar (c : Char) :
    standing (String.utf8EncodeChar c) = .complete c := by
  have hvalid : c.toNat < 0xD800 ∨ 0xDFFF < c.toNat ∧ c.toNat < 0x110000 := c.valid
  have hc : Char.ofNat c.toNat = c := Char.ofNat_toNat c
  generalize c.toNat = v at hvalid hc
  rw [← hc, utf8EncodeChar_ofNat hvalid]
  split_ifs with hone htwo hthree
  · -- one byte; the others have a lead byte with its bounds
    rw [standing, if_pos (ofNat_lt (by omega) (Nat.lt_succ_of_le hone)), toNat_ofNat (by omega)]
  · have hfollows := followsLead_tailByte (a := v / 64 % 32 + 192) (n := v) (by omega) (by omega)
    have hlt : UInt8.ofNat (v / 64 % 32 + 192) < 0xE0 := ofNat_lt (by omega) (by simp; omega)
    rw [standing, if_pos hfollows, if_pos hlt, payload_tailByte, toNat_ofNat (by omega)]
    congr 2
    omega
  · have hfollows := followsLead_tailByte (a := v / 4096 % 16 + 224) (n := v / 64) (by omega)
      (by omega)
    have hle : 0xE0 ≤ UInt8.ofNat (v / 4096 % 16 + 224) := le_ofNat (by omega) (by simp)
    have hlt : UInt8.ofNat (v / 4096 % 16 + 224) < 0xF0 := ofNat_lt (by omega) (by simp; omega)
    rw [standing]
    simp only [hfollows, isContinuation_tailByte, hle, hlt, decide_true, Bool.and_self, ↓reduceIte,
      payload_tailByte]
    rw [toNat_ofNat (by omega)]
    congr 2
    omega
  · have hfollows := followsLead_tailByte (a := v / 262144 % 8 + 240) (n := v / 4096) (by omega)
      (by omega)
    have hle : 0xF0 ≤ UInt8.ofNat (v / 262144 % 8 + 240) := le_ofNat (by omega) (by simp)
    rw [standing]
    simp only [hfollows, isContinuation_tailByte, hle, decide_true, Bool.and_self, ↓reduceIte,
      payload_tailByte]
    rw [toNat_ofNat (by omega)]
    congr 2
    omega

theorem settled_utf8EncodeChar (c : Char) (rest : Bytes) :
    settled (String.utf8EncodeChar c ++ rest) = (c :: (settled rest).1, (settled rest).2) := by
  have hstanding := standing_utf8EncodeChar c
  rcases List.eq_nil_or_concat (String.utf8EncodeChar c) with hnil | ⟨h, b, hbytes⟩
  · exact absurd hnil String.utf8EncodeChar_ne_nil
  · rw [hbytes, List.concat_eq_append] at hstanding ⊢
    have hheld : Holdable h := holdable_of_snoc (by rw [hstanding]; nofun)
    rw [List.append_assoc]
    exact settled_of_complete hheld hstanding rest

theorem encode_eq (s : String) : encode s = s.toList.flatMap String.utf8EncodeChar := by
  rw [encode, String.toUTF8_eq_toByteArray, ← String.utf8Encode_toList, List.utf8Encode]
  simp

/-- Nothing of a text is left over. -/
theorem settled_encode (s : String) : settled (encode s) = (s.toList, []) := by
  rw [encode_eq]
  induction s.toList with
  | nil => simp [settled]
  | cons c cs ih => rw [List.flatMap_cons, settled_utf8EncodeChar, ih]

/-- **Texts are read back.** -/
theorem lossy_encode (s : String) : lossy (encode s) = s := by
  rw [← String.toList_inj, toList_lossy, settled_encode, if_pos rfl, List.append_nil]

end ChatStream.Utf8
