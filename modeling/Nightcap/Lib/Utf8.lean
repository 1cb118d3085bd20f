import Mathlib

/-! UTF-8 byte strings as encodings of scalar-value lists, and their code-point boundaries. -/
namespace Utf8

abbrev Bytes := List UInt8

instance : LawfulBEq Bytes := inferInstance

/-- The bytes of a list of scalar values, in order. -/
def encode (cs : List Char) : Bytes := cs.flatMap String.utf8EncodeChar

/-- Well-formed UTF-8: no overlong form, no surrogate, nothing above U+10FFFF, nothing truncated. -/
def WellFormed (bs : Bytes) : Prop := ∃ cs, encode cs = bs

/-- Offset `k` lies within the text and between two code points. -/
def Boundary (bs : Bytes) (k : Nat) : Prop := k ≤ bs.length ∧ WellFormed (bs.take k)

variable {c d : Char} {cs ds : List Char} {bs as ys : Bytes} {j k : Nat}

@[simp] theorem encode_nil : encode [] = [] := rfl

@[simp] theorem encode_cons : encode (c :: cs) = String.utf8EncodeChar c ++ encode cs := rfl

@[simp] theorem encode_append : encode (cs ++ ds) = encode cs ++ encode ds := by
  simp [encode]

/-- A first character is determined by the bytes, and so is what follows it. -/
theorem encodeChar_append_inj (h : String.utf8EncodeChar c ++ as = String.utf8EncodeChar d ++ bs) :
    c = d ∧ as = bs := by
  have hc : c = d := by
    have hx := congrArg List.toByteArray h
    rw [List.toByteArray_append, List.toByteArray_append] at hx
    have hl := ByteArray.utf8DecodeChar?_utf8EncodeChar_append (b := as.toByteArray) (c := c)
    rw [hx, ByteArray.utf8DecodeChar?_utf8EncodeChar_append] at hl
    exact (Option.some.inj hl).symm
  subst hc
  exact ⟨rfl, List.append_cancel_left h⟩

/-- Self-synchronisation: a prefix made of whole characters is a prefix of the characters. -/
theorem encode_append_eq (h : encode cs ++ bs = encode ds) :
    ∃ es, ds = cs ++ es ∧ bs = encode es := by
  induction cs generalizing ds with
  | nil => exact ⟨ds, rfl, by simpa using h⟩
  | cons c cs ih =>
    cases ds with
    | nil => simp at h
    | cons d ds =>
      obtain ⟨rfl, ht⟩ := encodeChar_append_inj (by simpa using h)
      obtain ⟨es, rfl, hes⟩ := ih ht
      exact ⟨es, rfl, hes⟩

theorem encode_injective : Function.Injective encode := by
  intro cs ds h
  have happend : encode cs ++ [] = encode ds := by simpa using h
  obtain ⟨es, rfl, hes⟩ := encode_append_eq happend
  cases es with
  | nil => simp
  | cons e es =>
    have hlen := congrArg List.length hes
    have hpos := String.length_utf8EncodeChar e ▸ e.utf8Size_pos
    rw [encode_cons, List.length_append, List.length_nil] at hlen
    omega

@[simp] theorem wellFormed_nil : WellFormed [] := ⟨[], rfl⟩

theorem wellFormed_encode (cs : List Char) : WellFormed (encode cs) := ⟨cs, rfl⟩

theorem wellFormed_encodeChar (c : Char) : WellFormed (String.utf8EncodeChar c) :=
  ⟨[c], by simp [encode]⟩

theorem WellFormed.append (ha : WellFormed as) (hb : WellFormed bs) : WellFormed (as ++ bs) := by
  obtain ⟨cs, rfl⟩ := ha
  obtain ⟨ds, rfl⟩ := hb
  exact ⟨cs ++ ds, by simp⟩

theorem WellFormed.of_append_left (ha : WellFormed as) (h : WellFormed (as ++ bs)) :
    WellFormed bs := by
  obtain ⟨cs, rfl⟩ := ha
  obtain ⟨ds, hd⟩ := h
  obtain ⟨es, _, rfl⟩ := encode_append_eq hd.symm
  exact wellFormed_encode es

theorem WellFormed.take_length (h : WellFormed bs) : Boundary bs bs.length :=
  ⟨le_rfl, by simpa using h⟩

theorem boundary_zero (bs : Bytes) : Boundary bs 0 := ⟨Nat.zero_le _, by simp⟩

theorem Boundary.drop (hk : Boundary bs k) (h : WellFormed bs) : WellFormed (bs.drop k) :=
  hk.2.of_append_left (by simpa using h)

/-- The bytes with those between two offsets replaced. -/
def splice (bs : Bytes) (j k : Nat) (r : Bytes) : Bytes := bs.take j ++ r ++ bs.drop k

theorem length_splice {r : Bytes} (hj : j ≤ bs.length) :
    (splice bs j k r).length = j + r.length + (bs.length - k) := by
  simp [splice, Nat.min_eq_left hj, Nat.add_assoc]

theorem WellFormed.splice {r : Bytes} (h : WellFormed bs) (hj : Boundary bs j) (hk : Boundary bs k)
    (hr : WellFormed r) : WellFormed (splice bs j k r) :=
  (hj.2.append hr).append (hk.drop h)

/-- A boundary of the replacement is one of the whole. -/
theorem Boundary.splice {r : Bytes} {m : Nat} (hj : Boundary bs j) (hm : Boundary r m) :
    Boundary (splice bs j k r) (j + m) := by
  have hlen : (bs.take j).length = j := by simp [hj.1]
  refine ⟨?_, ?_⟩
  · rw [length_splice hj.1]
    have hle := hm.1
    omega
  · have htake : (Utf8.splice bs j k r).take (j + m) = bs.take j ++ r.take m := by
      rw [Utf8.splice, List.append_assoc, List.take_append, hlen, Nat.add_sub_cancel_left,
        List.take_of_length_le (by omega), List.take_append_of_le_length hm.1]
    rw [htake]
    exact hj.2.append hm.2

/-- Replacing the replacement. -/
theorem splice_splice {r v : Bytes} (hj : j ≤ bs.length) :
    splice (splice bs j k v) j (j + v.length) r = splice bs j k r := by
  have hlen : (bs.take j ++ v).length = j + v.length := by simp [hj]
  have hhead : (splice bs j k v).take j = bs.take j := by
    rw [splice, List.append_assoc, List.take_append_of_le_length (by simp [hj]), List.take_take,
      Nat.min_self]
  have htail : (splice bs j k v).drop (j + v.length) = bs.drop k := by
    rw [splice, ← hlen, List.drop_left]
  rw [splice, hhead, htail, splice]

/-- Putting back what was there. -/
theorem splice_slice (hjk : j ≤ k) : splice bs j k ((bs.drop j).take (k - j)) = bs := by
  have hdrop : bs.drop k = (bs.drop j).drop (k - j) := by
    rw [List.drop_drop, Nat.add_sub_cancel' hjk]
  rw [splice, hdrop, List.append_assoc, List.take_append_drop, List.take_append_drop]

end Utf8
