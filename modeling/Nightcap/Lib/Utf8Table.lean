import Nightcap.Lib.Utf8

/-! The sequences of bytes that UTF-8 has for one code point, as a table of ranges, and the strings
they make up. -/
namespace Utf8

/-- A byte between two others. -/
def Within (low high b : UInt8) : Prop := low ≤ b ∧ b ≤ high

instance (low high b : UInt8) : Decidable (Within low high b) := inferInstanceAs (Decidable (_ ∧ _))

abbrev Tail : UInt8 → Prop := Within 0x80 0xbf

/-- The four forms of RFC 3629; the second byte has a range of its own behind four of the first
bytes. -/
inductive Sequence : Bytes → Prop
  | one {a : UInt8} (ha : Within 0 0x7f a) : Sequence [a]
  | two {a b : UInt8} (ha : Within 0xc2 0xdf a) (hb : Tail b) : Sequence [a, b]
  | three {a b c : UInt8}
      (hab : a = 0xe0 ∧ Within 0xa0 0xbf b ∨ Within 0xe1 0xec a ∧ Tail b ∨
        a = 0xed ∧ Within 0x80 0x9f b ∨
        Within 0xee 0xef a ∧ Tail b)
      (hc : Tail c) : Sequence [a, b, c]
  | four {a b c d : UInt8}
      (hab : a = 0xf0 ∧ Within 0x90 0xbf b ∨ Within 0xf1 0xf3 a ∧ Tail b ∨
        a = 0xf4 ∧ Within 0x80 0x8f b)
      (hc : Tail c) (hd : Tail d) : Sequence [a, b, c, d]

/-- A concatenation of such sequences. -/
def Sequences (bs : Bytes) : Prop := ∃ ss : List Bytes, (∀ s ∈ ss, Sequence s) ∧ ss.flatten = bs

variable {s bs : Bytes} {a b : UInt8} {n : Nat}

theorem within_iff {low high : UInt8} : Within low high b ↔ low.toNat ≤ b.toNat ∧
    b.toNat ≤ high.toNat := by
  rw [Within, UInt8.le_iff_toNat_le, UInt8.le_iff_toNat_le]

theorem tail_iff : Tail b ↔ 128 ≤ b.toNat ∧ b.toNat ≤ 191 := within_iff

theorem eq_iff_toNat : a = b ↔ a.toNat = b.toNat := UInt8.toNat_inj.symm

theorem byte_eq (h : b.toNat = n) : UInt8.ofNat n = b := by
  rw [← h, UInt8.ofNat_toNat]

theorem toNat_ofNat (h : n < 256) : (UInt8.ofNat n).toNat = n := UInt8.toNat_ofNat_of_lt' h

theorem Sequence.ne_nil (h : Sequence s) : s ≠ [] := by
  cases h <;> exact List.cons_ne_nil _ _

theorem sequences_nil : Sequences [] := ⟨[], nofun, rfl⟩

theorem Sequence.append (h : Sequence s) (hbs : Sequences bs) : Sequences (s ++ bs) := by
  obtain ⟨ss, hss, rfl⟩ := hbs
  exact ⟨s :: ss, List.forall_mem_cons.2 ⟨h, hss⟩, List.flatten_cons⟩

/-! A sequence is what one character is encoded as. -/

theorem sequence_encodeChar (c : Char) : Sequence (String.utf8EncodeChar c) := by
  have hvalid : c.val.toNat < 0xd800 ∨ 0xdfff < c.val.toNat ∧ c.val.toNat < 0x110000 := c.valid
  unfold String.utf8EncodeChar
  simp only
  split
  · refine .one (within_iff.2 ?_)
    rw [toNat_ofNat (by omega)]
    exact ⟨Nat.zero_le _, by assumption⟩
  · split
    · refine .two (within_iff.2 ?_) (tail_iff.2 ?_)
      · simp only [UInt8.reduceToNat]
        rw [toNat_ofNat (by omega)]
        omega
      · rw [toNat_ofNat (by omega)]
        omega
    · split
      · refine .three ?_ (tail_iff.2 ?_)
        · simp only [eq_iff_toNat, within_iff, UInt8.reduceToNat]
          rw [toNat_ofNat (by omega), toNat_ofNat (by omega)]
          omega
        · rw [toNat_ofNat (by omega)]
          omega
      · refine .four ?_ (tail_iff.2 ?_) (tail_iff.2 ?_)
        · simp only [eq_iff_toNat, within_iff, UInt8.reduceToNat]
          rw [toNat_ofNat (by omega), toNat_ofNat (by omega)]
          omega
        · rw [toNat_ofNat (by omega)]
          omega
        · rw [toNat_ofNat (by omega)]
          omega

/-- The character of a number. -/
theorem encodeChar_ofNat (h : n.isValidChar) : (Char.ofNatAux n h).val.toNat = n := rfl

theorem Sequence.exists_char (h : Sequence s) : ∃ c, String.utf8EncodeChar c = s := by
  cases h with
  | @one a ha =>
    simp only [within_iff, UInt8.reduceToNat] at ha
    have hvalid : a.toNat.isValidChar := .inl (by omega)
    refine ⟨Char.ofNatAux a.toNat hvalid, ?_⟩
    unfold String.utf8EncodeChar
    simp only
    rw [encodeChar_ofNat, if_pos (by omega), UInt8.ofNat_toNat]
  | @two a b ha hb =>
    simp only [within_iff, UInt8.reduceToNat] at ha hb
    have hvalid : (a.toNat % 32 * 64 + b.toNat % 64).isValidChar := .inl (by omega)
    refine ⟨Char.ofNatAux _ hvalid, ?_⟩
    unfold String.utf8EncodeChar
    simp only
    rw [encodeChar_ofNat, if_neg (by omega), if_pos (by omega)]
    congr
    · exact byte_eq (by omega)
    · exact byte_eq (by omega)
  | @three a b c hab hc =>
    simp only [eq_iff_toNat, within_iff, UInt8.reduceToNat] at hab hc
    have hvalid : (a.toNat % 16 * 4096 + b.toNat % 64 * 64 + c.toNat % 64).isValidChar := by
      unfold Nat.isValidChar
      omega
    refine ⟨Char.ofNatAux _ hvalid, ?_⟩
    unfold String.utf8EncodeChar
    simp only
    rw [encodeChar_ofNat, if_neg (by omega), if_neg (by omega), if_pos (by omega)]
    congr
    · exact byte_eq (by omega)
    · exact byte_eq (by omega)
    · exact byte_eq (by omega)
  | @four a b c d hab hc hd =>
    simp only [eq_iff_toNat, within_iff, UInt8.reduceToNat] at hab hc hd
    have hvalid :
        (a.toNat % 8 * 262144 + b.toNat % 64 * 4096 + c.toNat % 64 * 64 +
          d.toNat % 64).isValidChar :=
      .inr ⟨by omega, by omega⟩
    refine ⟨Char.ofNatAux _ hvalid, ?_⟩
    unfold String.utf8EncodeChar
    simp only
    rw [encodeChar_ofNat, if_neg (by omega), if_neg (by omega), if_neg (by omega)]
    congr
    · exact byte_eq (by omega)
    · exact byte_eq (by omega)
    · exact byte_eq (by omega)
    · exact byte_eq (by omega)

theorem sequences_encode (cs : List Char) : Sequences (encode cs) := by
  induction cs with
  | nil => exact sequences_nil
  | cons c cs ih => exact (sequence_encodeChar c).append ih

/-- The table and the characters describe the same strings. -/
theorem sequences_iff : Sequences bs ↔ WellFormed bs := by
  constructor
  · rintro ⟨ss, hss, rfl⟩
    induction ss with
    | nil => exact wellFormed_nil
    | cons s ss ih =>
      obtain ⟨hs, hrest⟩ := List.forall_mem_cons.1 hss
      obtain ⟨c, rfl⟩ := hs.exists_char
      exact (wellFormed_encodeChar c).append (ih hrest)
  · rintro ⟨cs, rfl⟩
    exact sequences_encode cs

end Utf8
