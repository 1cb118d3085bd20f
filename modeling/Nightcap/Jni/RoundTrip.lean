import Nightcap.Jni.Strings
import Nightcap.Lib.Bits

/-! The codecs invert each other, and standard UTF-8 output is always well formed. -/
namespace Nightcap.Jni

open Utf8 Bits

variable {n : Nat} {rest : Bytes}

/-! The four byte layouts, in arithmetic form. Each encoder writes one of them and the decoder
reads all four. -/

def twoBytes (n : Nat) : Bytes := [UInt8.ofNat (192 + n / 64), UInt8.ofNat (128 + n % 64)]

def threeBytes (n : Nat) : Bytes :=
  [UInt8.ofNat (224 + n / 4096), UInt8.ofNat (128 + n / 64 % 64), UInt8.ofNat (128 + n % 64)]

def fourBytes (n : Nat) : Bytes :=
  [UInt8.ofNat (240 + n / 262144), UInt8.ofNat (128 + n / 4096 % 64),
    UInt8.ofNat (128 + n / 64 % 64), UInt8.ofNat (128 + n % 64)]

/-- Bits that do not overlap are added. -/
theorem or_low {a b i : Nat} (h : b < 2 ^ i) : (a * 2 ^ i) ||| b = a * 2 ^ i + b := by
  rw [Nat.mul_comm, Nat.two_pow_add_eq_or_of_lt h]

theorem continuation_bits (n : Nat) : 0x80 ||| (n &&& 0x3f) = 128 + n % 64 := by
  rw [show (0x3f : Nat) = 2 ^ 6 - 1 from rfl, Nat.and_two_pow_sub_one_eq_mod]
  exact or_low (a := 1) (i := 7) (by omega)

theorem lead_two_bits (h : n ≤ 0x7ff) : 0xc0 ||| (n >>> 6) = 192 + n / 64 := by
  rw [Nat.shiftRight_eq_div_pow]
  exact or_low (a := 6) (i := 5) (by omega)

theorem lead_three_bits (h : n ≤ 0xffff) : 0xe0 ||| (n >>> 12) = 224 + n / 4096 := by
  rw [Nat.shiftRight_eq_div_pow]
  exact or_low (a := 14) (i := 4) (by omega)

theorem lead_four_bits (h : n ≤ 0x10ffff) : 0xf0 ||| (n >>> 18) = 240 + n / 262144 := by
  rw [Nat.shiftRight_eq_div_pow]
  exact or_low (a := 30) (i := 3) (by omega)

theorem lead_two_iff (n : Nat) (h : n < 256) : n &&& 0xe0 = 0xc0 ↔ 192 ≤ n ∧ n < 224 := by
  have hmask : n &&& 0xe0 = n / 2 ^ 5 % 2 ^ 3 * 2 ^ 5 := and_mask n 3 5
  omega

theorem lead_three_iff (n : Nat) (h : n < 256) : n &&& 0xf0 = 0xe0 ↔ 224 ≤ n ∧ n < 240 := by
  have hmask : n &&& 0xf0 = n / 2 ^ 4 % 2 ^ 4 * 2 ^ 4 := and_mask n 4 4
  omega

theorem lead_four_iff (n : Nat) (h : n < 256) : n &&& 0xf8 = 0xf0 ↔ 240 ≤ n ∧ n < 248 := by
  have hmask : n &&& 0xf8 = n / 2 ^ 3 % 2 ^ 5 * 2 ^ 3 := and_mask n 5 3
  omega

/-- The masks of the decoder are ranges. -/
theorem continuation_iff (n : Nat) (h : n < 256) : n &&& 0xc0 = 0x80 ↔ 128 ≤ n ∧ n < 192 := by
  have hmask : n &&& 0xc0 = n / 2 ^ 6 % 2 ^ 2 * 2 ^ 6 := and_mask n 2 6
  omega

theorem toNat_byte (h : n < 256) : (UInt8.ofNat n).toNat = n := by
  simp [UInt8.toNat_ofNat', Nat.mod_eq_of_lt h]

theorem continuation_payload (h : n < 64) : (128 + n) &&& 0x3f = n :=
  (Nat.and_two_pow_sub_one_eq_mod _ 6).trans (by omega)

theorem decodeCodePoint_one (h : 0 < n) (hn : n ≤ 0x7f) :
    decodeCodePoint (UInt8.ofNat n :: rest) = (n, 1) := by
  have hb := toNat_byte (show n < 256 by omega)
  simp only [decodeCodePoint, List.getD_cons_zero, hb]
  rw [if_pos (by omega)]

theorem decodeCodePoint_two (h : n = 0 ∨ 0x80 ≤ n) (hn : n ≤ 0x7ff) :
    decodeCodePoint (twoBytes n ++ rest) = (n, 2) := by
  have h0 := toNat_byte (show 192 + n / 64 < 256 by omega)
  have h1 := toNat_byte (show 128 + n % 64 < 256 by omega)
  simp only [decodeCodePoint, twoBytes, List.cons_append, List.nil_append, List.getD_cons_zero,
    List.getD_cons_succ, h0, h1, List.length_cons]
  have hl : (192 + n / 64) &&& 0x1f = n / 64 :=
    (Nat.and_two_pow_sub_one_eq_mod _ 5).trans (by omega)
  have hc := continuation_payload (show n % 64 < 64 by omega)
  have hcode : ((n / 64) <<< 6) ||| (n % 64) = n := by
    rw [shift_or (by omega)]; omega
  rw [if_neg (by omega), if_pos ⟨(lead_two_iff _ (by omega)).2 (by omega), by omega,
    (continuation_iff _ (by omega)).2 (by omega)⟩, hl, hc, hcode, if_pos (by omega)]

theorem decodeCodePoint_three (h : 0x800 ≤ n) (hn : n ≤ 0xffff) :
    decodeCodePoint (threeBytes n ++ rest) = (n, 3) := by
  have h0 := toNat_byte (show 224 + n / 4096 < 256 by omega)
  have h1 := toNat_byte (show 128 + n / 64 % 64 < 256 by omega)
  have h2 := toNat_byte (show 128 + n % 64 < 256 by omega)
  simp only [decodeCodePoint, threeBytes, List.cons_append, List.nil_append, List.getD_cons_zero,
    List.getD_cons_succ, h0, h1, h2, List.length_cons]
  have hl : (224 + n / 4096) &&& 0x0f = n / 4096 :=
    (Nat.and_two_pow_sub_one_eq_mod _ 4).trans (by omega)
  have hc := continuation_payload (show n / 64 % 64 < 64 by omega)
  have hd := continuation_payload (show n % 64 < 64 by omega)
  have hcode : ((n / 4096) <<< 12) ||| ((n / 64 % 64) <<< 6) ||| (n % 64) = n := by
    rw [shift_or (show (n / 64 % 64) <<< 6 < 2 ^ 12 by rw [Nat.shiftLeft_eq]; omega),
      Nat.shiftLeft_eq, show n / 4096 * 2 ^ 12 + n / 64 % 64 * 2 ^ 6 = (n / 64) * 2 ^ 6 by omega,
      or_low (by omega)]
    omega
  rw [if_neg (by omega), if_neg (by rw [lead_two_iff _ (by omega)]; omega),
    if_pos ⟨(lead_three_iff _ (by omega)).2 (by omega), by omega,
      (continuation_iff _ (by omega)).2 (by omega), (continuation_iff _ (by omega)).2 (by omega)⟩,
    hl, hc, hd, hcode, if_pos h]

theorem decodeCodePoint_four (h : 0x10000 ≤ n) (hn : n ≤ 0x10ffff) :
    decodeCodePoint (fourBytes n ++ rest) = (n, 4) := by
  have h0 := toNat_byte (show 240 + n / 262144 < 256 by omega)
  have h1 := toNat_byte (show 128 + n / 4096 % 64 < 256 by omega)
  have h2 := toNat_byte (show 128 + n / 64 % 64 < 256 by omega)
  have h3 := toNat_byte (show 128 + n % 64 < 256 by omega)
  simp only [decodeCodePoint, fourBytes, List.cons_append, List.nil_append, List.getD_cons_zero,
    List.getD_cons_succ, h0, h1, h2, h3, List.length_cons]
  have hl : (240 + n / 262144) &&& 0x07 = n / 262144 :=
    (Nat.and_two_pow_sub_one_eq_mod _ 3).trans (by omega)
  have hb := continuation_payload (show n / 4096 % 64 < 64 by omega)
  have hc := continuation_payload (show n / 64 % 64 < 64 by omega)
  have hd := continuation_payload (show n % 64 < 64 by omega)
  have hcode : ((n / 262144) <<< 18) ||| ((n / 4096 % 64) <<< 12) ||| ((n / 64 % 64) <<< 6) |||
      (n % 64) = n := by
    rw [shift_or (show (n / 4096 % 64) <<< 12 < 2 ^ 18 by rw [Nat.shiftLeft_eq]; omega),
      Nat.shiftLeft_eq,
      show n / 262144 * 2 ^ 18 + n / 4096 % 64 * 2 ^ 12 = (n / 4096) * 2 ^ 12 by omega,
      or_low (show (n / 64 % 64) <<< 6 < 2 ^ 12 by rw [Nat.shiftLeft_eq]; omega), Nat.shiftLeft_eq,
      show n / 4096 * 2 ^ 12 + n / 64 % 64 * 2 ^ 6 = (n / 64) * 2 ^ 6 by omega, or_low (by omega)]
    omega
  rw [if_neg (by omega), if_neg (by rw [lead_two_iff _ (by omega)]; omega),
    if_neg (by rw [lead_three_iff _ (by omega)]; omega),
    if_pos ⟨(lead_four_iff _ (by omega)).2 (by omega), by omega,
      (continuation_iff _ (by omega)).2 (by omega), (continuation_iff _ (by omega)).2 (by omega),
      (continuation_iff _ (by omega)).2 (by omega)⟩, hl, hb, hc, hd, hcode, if_pos ⟨h, hn⟩]

/-- The standard layout of a code point. -/
def layout (n : Nat) : Bytes :=
  if n ≤ 0x7f then [UInt8.ofNat n]
  else if n ≤ 0x7ff then twoBytes n
  else if n ≤ 0xffff then threeBytes n
  else fourBytes n

theorem layout_ne_nil (n : Nat) : layout n ≠ [] := by
  unfold layout
  split_ifs <;> simp [twoBytes, threeBytes, fourBytes]

/-- A decoder reads a layout back, whatever follows it. -/
theorem decodeCodePoint_layout (h : 0 < n) (hn : n ≤ 0x10ffff) :
    decodeCodePoint (layout n ++ rest) = (n, (layout n).length) := by
  unfold layout
  split_ifs with h1 h2 h3
  · exact decodeCodePoint_one h h1
  · exact decodeCodePoint_two (.inr (by omega)) h2
  · exact decodeCodePoint_three (by omega) h3
  · exact decodeCodePoint_four (by omega) hn

theorem byte_ne_zero (h : 0 < n) (hn : n < 256) : (0 : UInt8) ≠ UInt8.ofNat n := by
  intro he
  have hz := congrArg UInt8.toNat he
  rw [toNat_byte hn] at hz
  simp at hz
  omega

theorem layout_no_zero (h : 0 < n) (hn : n ≤ 0x10ffff) : (0 : UInt8) ∉ layout n := by
  unfold layout
  split_ifs with h1 h2 h3
  · simpa using byte_ne_zero h (by omega)
  all_goals
    simp only [twoBytes, threeBytes, fourBytes, List.mem_cons, List.not_mem_nil, or_false, not_or]
    refine ⟨byte_ne_zero (by omega) (by omega), ?_⟩
  · exact byte_ne_zero (by omega) (by omega)
  · exact ⟨byte_ne_zero (by omega) (by omega), byte_ne_zero (by omega) (by omega)⟩
  · exact ⟨byte_ne_zero (by omega) (by omega), byte_ne_zero (by omega) (by omega),
      byte_ne_zero (by omega) (by omega)⟩

/-- The encoder appends the layout, without replacing anything up to the largest code point. -/
theorem appendUtf8CodePoint_eq (hn : n ≤ 0x10ffff) (output : Bytes) :
    appendUtf8CodePoint n output = output ++ layout n := by
  unfold appendUtf8CodePoint layout
  split_ifs with h1 h2 h3
  · rfl
  · rw [lead_two_bits h2, continuation_bits]
    rfl
  · rw [lead_three_bits h3, continuation_bits, continuation_bits, Nat.shiftRight_eq_div_pow]
    rfl
  · rw [lead_four_bits hn, continuation_bits, continuation_bits, continuation_bits,
      Nat.shiftRight_eq_div_pow, Nat.shiftRight_eq_div_pow]
    rfl

theorem char_le (c : Char) : c.toNat ≤ 0x10ffff := by
  rcases c.valid with h | h
  · exact Nat.le_trans (Nat.le_of_lt h) (by decide)
  · exact Nat.le_of_lt_succ h.2

/-- Lean's own encoding of a character is the layout. -/
theorem utf8EncodeChar_eq_layout (c : Char) : String.utf8EncodeChar c = layout c.toNat := by
  have hc := char_le c
  have hv : c.val.toNat = c.toNat := rfl
  unfold String.utf8EncodeChar layout
  simp only [hv]
  split_ifs with h1 h2 h3
  · rfl
  · rw [twoBytes, Nat.mod_eq_of_lt (show c.toNat / 64 < 0x20 by omega), Nat.add_comm,
      Nat.add_comm (c.toNat % 64)]
  · rw [threeBytes, Nat.mod_eq_of_lt (show c.toNat / 4096 < 0x10 by omega), Nat.add_comm,
      Nat.add_comm (c.toNat / 64 % 64), Nat.add_comm (c.toNat % 64)]
  · rw [fourBytes, Nat.mod_eq_of_lt (show c.toNat / 262144 < 0x08 by omega), Nat.add_comm,
      Nat.add_comm (c.toNat / 4096 % 64), Nat.add_comm (c.toNat / 64 % 64),
      Nat.add_comm (c.toNat % 64)]

/-! Modified UTF-8. -/

theorem appendModifiedUtf8_eq (output : Bytes) (u : JChar) :
    appendModifiedUtf8 output u =
      output ++ if u.toNat = 0 then twoBytes 0 else layout u.toNat := by
  have hu : u.toNat < 65536 := u.toNat_lt
  unfold appendModifiedUtf8 layout
  dsimp only
  split_ifs with h0 h1 h2 h3
  · rfl
  · rfl
  · rw [lead_two_bits h2, continuation_bits]
    rfl
  · rw [lead_three_bits h3, continuation_bits, continuation_bits, Nat.shiftRight_eq_div_pow]
    rfl
  · omega

theorem foldl_appendModifiedUtf8 (us : List JChar) (output : Bytes) :
    us.foldl appendModifiedUtf8 output = output ++ us.flatMap (appendModifiedUtf8 []) := by
  induction us generalizing output with
  | nil => simp
  | cons u us ih => rw [List.foldl_cons, ih, appendModifiedUtf8_eq]; simp [appendModifiedUtf8_eq]

theorem utf16ToModifiedUtf8_whole (us : List JChar) :
    utf16ToModifiedUtf8 us 0 none = us.flatMap (appendModifiedUtf8 []) := by
  cases us with
  | nil => rfl
  | cons u us =>
    simp only [utf16ToModifiedUtf8, List.length_cons]
    rw [if_neg (by omega)]
    simp [foldl_appendModifiedUtf8]

theorem appendModifiedUtf8_ne_nil (u : JChar) : appendModifiedUtf8 [] u ≠ [] := by
  rw [appendModifiedUtf8_eq]
  split_ifs <;> simp [twoBytes, layout_ne_nil]

/-- A zero unit is written as two bytes, so the text can end at a zero byte. -/
theorem appendModifiedUtf8_no_zero (u : JChar) : (0 : UInt8) ∉ appendModifiedUtf8 [] u := by
  have hu : u.toNat < 65536 := u.toNat_lt
  rw [appendModifiedUtf8_eq, List.nil_append]
  split_ifs with h0
  · decide
  · exact layout_no_zero (by omega) (by omega)

/-- The decoder reads back exactly the unit that was written, surrogates included. -/
theorem decodeCodePoint_modified (u : JChar) (rest : Bytes) :
    decodeCodePoint (appendModifiedUtf8 [] u ++ rest) =
      (u.toNat, (appendModifiedUtf8 [] u).length) := by
  have hu : u.toNat < 65536 := u.toNat_lt
  rw [appendModifiedUtf8_eq, List.nil_append]
  split_ifs with h0
  · rw [h0, decodeCodePoint_two (.inl rfl) (by omega)]
    rfl
  · exact decodeCodePoint_layout (by omega) (by omega)

/-- The accumulator is only ever appended to. -/
theorem modifiedUtf8ToUtf16Loop_eq (output : List JChar) (bytes : Bytes) :
    modifiedUtf8ToUtf16Loop output bytes = output ++ modifiedUtf8ToUtf16Loop [] bytes := by
  induction hl : bytes.length using Nat.strong_induction_on generalizing output bytes with
  | _ l ih =>
    subst hl
    cases bytes with
    | nil => simp [modifiedUtf8ToUtf16Loop]
    | cons first rest =>
      have hpos := decodeCodePoint_consumed_pos (first :: rest)
      have hlt : ((first :: rest).drop (decodeCodePoint (first :: rest)).2).length <
          (first :: rest).length := by
        simp only [List.length_drop, List.length_cons]
        omega
      rw [modifiedUtf8ToUtf16Loop, ih _ hlt _ _ rfl]
      conv_rhs => rw [modifiedUtf8ToUtf16Loop, ih _ hlt _ _ rfl]
      simp

theorem modifiedUtf8ToUtf16Loop_step {bytes rest : Bytes} {codePoint : Nat} (hne : bytes ≠ [])
    (h : decodeCodePoint (bytes ++ rest) = (codePoint, bytes.length)) :
    modifiedUtf8ToUtf16Loop [] (bytes ++ rest) =
      codePointUnits codePoint ++ modifiedUtf8ToUtf16Loop [] rest := by
  cases hb : bytes ++ rest with
  | nil => exact absurd (List.append_eq_nil_iff.1 hb).1 hne
  | cons b bs =>
    rw [modifiedUtf8ToUtf16Loop, modifiedUtf8ToUtf16Loop_eq, ← hb, h]
    simp

/-- By induction on the units; each of them is decoded on its own. -/
theorem modifiedUtf8ToUtf16Loop_modified (us : List JChar) :
    modifiedUtf8ToUtf16Loop [] (us.flatMap (appendModifiedUtf8 [])) = us := by
  induction us with
  | nil => simp [modifiedUtf8ToUtf16Loop]
  | cons u us ih =>
    have hu : u.toNat ≤ 0xffff := Nat.le_of_lt_succ u.toNat_lt
    rw [List.flatMap_cons, modifiedUtf8ToUtf16Loop_step (appendModifiedUtf8_ne_nil u)
      (decodeCodePoint_modified u _), ih]
    simp [codePointUnits, hu]

theorem takeWhile_no_zero {bytes : Bytes} (h : (0 : UInt8) ∉ bytes) :
    bytes.takeWhile (· ≠ 0) = bytes := by
  rw [List.takeWhile_eq_self_iff]
  intro b hb
  simp only [ne_eq, decide_not, Bool.not_eq_eq_eq_not, Bool.not_true, decide_eq_false_iff_not]
  rintro rfl
  exact h hb

/-! Standard UTF-8. -/

theorem toNat_ofNat_char (h : n.isValidChar) : (Char.ofNat n).toNat = n := by
  simp [Char.ofNat, h, Char.ofNatAux, Char.toNat, UInt32.toNat]

theorem wellFormed_layout (h : n.isValidChar) : WellFormed (layout n) := by
  rw [← toNat_ofNat_char h, ← utf8EncodeChar_eq_layout]
  exact wellFormed_encodeChar _

theorem isValidChar_le (h : n.isValidChar) : n ≤ 0x10ffff := by
  rcases h with h | h <;> omega

theorem loneCodePoint_valid (u : JChar) : (loneCodePoint u).isValidChar := by
  have hu : u.toNat < 65536 := u.toNat_lt
  unfold loneCodePoint Nat.isValidChar
  split_ifs <;> omega

/-- A pair is a code point beyond the basic plane. -/
theorem pairCodePoint_bounds {u v : JChar} (hu : isHighSurrogate u) (hv : isLowSurrogate v) :
    0x10000 ≤ pairCodePoint u v ∧ pairCodePoint u v ≤ 0x10ffff := by
  unfold isHighSurrogate at hu
  unfold isLowSurrogate at hv
  unfold pairCodePoint
  rw [Nat.shiftLeft_eq]
  omega

theorem appendUtf8CodePoint_wellFormed {output : Bytes} (ho : WellFormed output)
    (h : n.isValidChar) : WellFormed (appendUtf8CodePoint n output) := by
  rw [appendUtf8CodePoint_eq (isValidChar_le h)]
  exact ho.append (wellFormed_layout h)

/-- Whatever the units, only scalar values are written. -/
theorem utf16ToUtf8Loop_wellFormed (output : Bytes) (us : List JChar) (h : WellFormed output) :
    WellFormed (utf16ToUtf8Loop output us) := by
  induction output, us using utf16ToUtf8Loop.induct with
  | case1 output => simpa [utf16ToUtf8Loop] using h
  | case2 output u => exact appendUtf8CodePoint_wellFormed h (loneCodePoint_valid u)
  | case3 output u v rest hp ih =>
    rw [utf16ToUtf8Loop, if_pos hp]
    have hb := pairCodePoint_bounds hp.1 hp.2
    exact ih (appendUtf8CodePoint_wellFormed h (.inr (by omega)))
  | case4 output u v rest hp ih =>
    rw [utf16ToUtf8Loop, if_neg hp]
    exact ih (appendUtf8CodePoint_wellFormed h (loneCodePoint_valid u))

theorem utf16ToUtf8Loop_lone (output : Bytes) {u : JChar} (rest : List JChar)
    (hu : u.toNat < 0xd800 ∨ 0xdfff < u.toNat) :
    utf16ToUtf8Loop output (u :: rest) = utf16ToUtf8Loop (output ++ layout u.toNat) rest := by
  have hl : u.toNat < 65536 := u.toNat_lt
  have hcode : loneCodePoint u = u.toNat := if_neg (by omega)
  have ha := appendUtf8CodePoint_eq (show u.toNat ≤ 0x10ffff by omega) output
  cases rest with
  | nil => simp only [utf16ToUtf8Loop, hcode, ha]
  | cons v rest =>
    have hn : ¬ (isHighSurrogate u ∧ isLowSurrogate v) := by
      rintro ⟨h, _⟩
      unfold isHighSurrogate at h
      omega
    rw [utf16ToUtf8Loop, if_neg hn, hcode, ha]

/-- Two units are read at once, and written as four bytes. -/
theorem utf16ToUtf8Loop_pair (output : Bytes) (rest : List JChar) (h : 0x10000 ≤ n)
    (hn : n ≤ 0x10ffff) :
    utf16ToUtf8Loop output (codePointUnits n ++ rest) =
      utf16ToUtf8Loop (output ++ layout n) rest := by
  have hm : (n - 0x10000) &&& 0x3ff = (n - 0x10000) % 1024 := Nat.and_two_pow_sub_one_eq_mod _ 10
  have hu : (UInt16.ofNat (0xd800 + (n - 0x10000) / 1024)).toNat =
      0xd800 + (n - 0x10000) / 1024 := by
    rw [UInt16.toNat_ofNat']; omega
  have hv : (UInt16.ofNat (0xdc00 + (n - 0x10000) % 1024)).toNat =
      0xdc00 + (n - 0x10000) % 1024 := by
    rw [UInt16.toNat_ofNat']; omega
  have hp : isHighSurrogate (UInt16.ofNat (0xd800 + (n - 0x10000) / 1024)) ∧
      isLowSurrogate (UInt16.ofNat (0xdc00 + (n - 0x10000) % 1024)) := by
    rw [isHighSurrogate, isLowSurrogate, hu, hv]
    omega
  have hcode : pairCodePoint (UInt16.ofNat (0xd800 + (n - 0x10000) / 1024))
      (UInt16.ofNat (0xdc00 + (n - 0x10000) % 1024)) = n := by
    unfold pairCodePoint
    rw [hu, hv, Nat.shiftLeft_eq]
    omega
  rw [codePointUnits, if_neg (by omega), hm, Nat.shiftRight_eq_div_pow]
  change utf16ToUtf8Loop output (_ :: _ :: rest) = _
  rw [utf16ToUtf8Loop, if_pos hp, hcode, appendUtf8CodePoint_eq hn]

/-- A scalar value goes through its UTF-16 units unchanged. -/
theorem utf16ToUtf8Loop_char (output : Bytes) (rest : List JChar) (c : Char) :
    utf16ToUtf8Loop output (codePointUnits c.toNat ++ rest) =
      utf16ToUtf8Loop (output ++ String.utf8EncodeChar c) rest := by
  rw [utf8EncodeChar_eq_layout]
  by_cases hc : c.toNat ≤ 0xffff
  · have hu : (UInt16.ofNat c.toNat).toNat = c.toNat := by
      rw [UInt16.toNat_ofNat']; omega
    have hs : c.toNat < 0xd800 ∨ 0xdfff < c.toNat := by
      rcases c.valid with h | h
      · exact .inl h
      · exact .inr h.1
    rw [codePointUnits, if_pos hc, List.singleton_append,
      utf16ToUtf8Loop_lone output rest (by rwa [hu]), hu]
  · exact utf16ToUtf8Loop_pair output rest (by omega) (char_le c)

/-! Strings of which both codecs lose nothing. -/

def isSurrogate (unit : JChar) : Prop := isHighSurrogate unit ∨ isLowSurrogate unit

instance : DecidablePred isSurrogate := fun _ => inferInstanceAs (Decidable (_ ∨ _))

/-- Every surrogate is half of a pair. -/
def paired : List JChar → Bool
  | [] => true
  | [unit] => !isSurrogate unit
  | unit :: next :: rest =>
    if isHighSurrogate unit ∧ isLowSurrogate next then paired rest
    else !isSurrogate unit && paired (next :: rest)

theorem codePointUnits_lone {u : JChar} : codePointUnits u.toNat = [u] := by
  rw [codePointUnits, if_pos (Nat.le_of_lt_succ u.toNat_lt), UInt16.ofNat_toNat]

theorem codePointUnits_pair {u v : JChar} (hu : isHighSurrogate u) (hv : isLowSurrogate v) :
    codePointUnits (pairCodePoint u v) = [u, v] := by
  have hb := pairCodePoint_bounds hu hv
  have hmask : (pairCodePoint u v - 0x10000) &&& 0x3ff = (pairCodePoint u v - 0x10000) % 1024 :=
    Nat.and_two_pow_sub_one_eq_mod _ 10
  unfold isHighSurrogate at hu
  unfold isLowSurrogate at hv
  have hcode : pairCodePoint u v - 0x10000 = (u.toNat - 0xd800) * 1024 + (v.toNat - 0xdc00) := by
    unfold pairCodePoint
    rw [Nat.shiftLeft_eq]
    omega
  have hhigh : 0xd800 + (pairCodePoint u v - 0x10000) / 1024 = u.toNat := by omega
  have hlow : 0xdc00 + (pairCodePoint u v - 0x10000) % 1024 = v.toNat := by omega
  rw [codePointUnits, if_neg (by omega), hmask, Nat.shiftRight_eq_div_pow]
  change [UInt16.ofNat (0xd800 + (pairCodePoint u v - 0x10000) / 1024), _] = _
  rw [hhigh, hlow, UInt16.ofNat_toNat, UInt16.ofNat_toNat]

theorem isValidChar_lone {u : JChar} (h : ¬ isSurrogate u) : u.toNat.isValidChar := by
  have hu : u.toNat < 65536 := u.toNat_lt
  unfold isSurrogate isHighSurrogate isLowSurrogate at h
  unfold Nat.isValidChar
  omega

/-- Such a string holds the units of scalar values. -/
theorem paired_chars {us : List JChar} (h : paired us) :
    ∃ cs : List Char, us = cs.flatMap (codePointUnits ·.toNat) := by
  induction us using paired.induct with
  | case1 => exact ⟨[], rfl⟩
  | case2 u =>
    have hu : ¬ isSurrogate u := by simpa [paired] using h
    refine ⟨[Char.ofNat u.toNat], ?_⟩
    rw [List.flatMap_singleton, toNat_ofNat_char (isValidChar_lone hu), codePointUnits_lone]
  | case3 u v rest hp ih =>
    rw [paired, if_pos hp] at h
    obtain ⟨cs, rfl⟩ := ih h
    have hb := pairCodePoint_bounds hp.1 hp.2
    refine ⟨Char.ofNat (pairCodePoint u v) :: cs, ?_⟩
    rw [List.flatMap_cons, toNat_ofNat_char (.inr (by omega)), codePointUnits_pair hp.1 hp.2]
    rfl
  | case4 u v rest hp ih =>
    rw [paired, if_neg hp, Bool.and_eq_true] at h
    have hu : ¬ isSurrogate u := by simpa using h.1
    obtain ⟨cs, hcs⟩ := ih h.2
    refine ⟨Char.ofNat u.toNat :: cs, ?_⟩
    rw [List.flatMap_cons, ← hcs, toNat_ofNat_char (isValidChar_lone hu), codePointUnits_lone]
    rfl

/-- Whole characters are written one after another. -/
theorem utf16ToUtf8Loop_chars (output : Bytes) (cs : List Char) :
    utf16ToUtf8Loop output (cs.flatMap (codePointUnits ·.toNat)) = output ++ encode cs := by
  induction cs generalizing output with
  | nil => simp [utf16ToUtf8Loop]
  | cons c cs ih =>
    rw [List.flatMap_cons, utf16ToUtf8Loop_char, ih, encode_cons, List.append_assoc]

/-- Two of them never become the same UTF-8. -/
theorem utf16ToUtf8_injOn : Set.InjOn utf16ToUtf8 {us | paired us} := by
  intro us hus vs hvs h
  obtain ⟨cs, rfl⟩ := paired_chars hus
  obtain ⟨ds, rfl⟩ := paired_chars hvs
  rw [utf16ToUtf8, utf16ToUtf8, utf16ToUtf8Loop_chars, utf16ToUtf8Loop_chars, List.nil_append,
    List.nil_append] at h
  rw [encode_injective h]

/-- Standard UTF-8 without a zero is read as its characters. -/
theorem modifiedUtf8ToUtf16Loop_encode {cs : List Char} (h : ∀ c ∈ cs, 0 < c.toNat) :
    modifiedUtf8ToUtf16Loop [] (encode cs) = cs.flatMap (codePointUnits ·.toNat) := by
  induction cs with
  | nil => simp [modifiedUtf8ToUtf16Loop]
  | cons c cs ih =>
    rw [List.forall_mem_cons] at h
    rw [encode_cons, utf8EncodeChar_eq_layout, modifiedUtf8ToUtf16Loop_step (layout_ne_nil _)
      (decodeCodePoint_layout h.1 (char_le c)), ih h.2, List.flatMap_cons]

theorem encode_no_zero {cs : List Char} (h : ∀ c ∈ cs, 0 < c.toNat) : (0 : UInt8) ∉ encode cs := by
  intro hmem
  obtain ⟨c, hc, hmem⟩ := List.mem_flatMap.1 hmem
  rw [utf8EncodeChar_eq_layout] at hmem
  exact layout_no_zero (h c hc) (char_le c) hmem

/-- What goes through both codecs comes back, unless a NUL ends it early. -/
theorem modifiedUtf8ToUtf16_utf16ToUtf8 {us : List JChar} (h : paired us) (hzero : 0 ∉ us) :
    modifiedUtf8ToUtf16 (some (utf16ToUtf8 us)) = us := by
  obtain ⟨cs, rfl⟩ := paired_chars h
  have hpos : ∀ c ∈ cs, 0 < c.toNat := by
    intro c hc
    by_contra hz
    have hc0 : c.toNat = 0 := by omega
    refine hzero (List.mem_flatMap.2 ⟨c, hc, ?_⟩)
    rw [hc0]
    exact List.mem_singleton_self _
  rw [utf16ToUtf8, utf16ToUtf8Loop_chars, List.nil_append, modifiedUtf8ToUtf16,
    takeWhile_no_zero (encode_no_zero hpos), modifiedUtf8ToUtf16Loop_encode hpos]

/-- A text without a NUL goes there and back unchanged. -/
theorem utf16ToUtf8Loop_encode (output : Bytes) (cs : List Char) (h : (0 : UInt8) ∉ encode cs) :
    utf16ToUtf8Loop output (modifiedUtf8ToUtf16Loop [] (encode cs)) = output ++ encode cs := by
  have hpos : ∀ c ∈ cs, 0 < c.toNat := by
    intro c hc
    by_contra hz
    have hc0 : c.toNat = 0 := by omega
    refine h (List.mem_flatMap.2 ⟨c, hc, ?_⟩)
    rw [utf8EncodeChar_eq_layout, hc0]
    decide
  rw [modifiedUtf8ToUtf16Loop_encode hpos, utf16ToUtf8Loop_chars]

/-- Modified UTF-8 loses no UTF-16 and never contains a NUL; standard UTF-8 passes through the
modified decoder unchanged; and any byte string at all comes out as well-formed UTF-8. -/
theorem codecs_round_trip :
    (∀ u : List JChar, modifiedUtf8ToUtf16 (some (utf16ToModifiedUtf8 u 0 none)) = u ∧
      (0 : UInt8) ∉ utf16ToModifiedUtf8 u 0 none) ∧
    (∀ s : Bytes, WellFormed s → (0 : UInt8) ∉ s →
      utf16ToUtf8 (modifiedUtf8ToUtf16 (some s)) = s) ∧
    (∀ bytes : Bytes, WellFormed (utf16ToUtf8 (modifiedUtf8ToUtf16 (some bytes)))) := by
  refine ⟨fun u => ?_, fun s hs hz => ?_, fun bytes => ?_⟩
  · have hz : (0 : UInt8) ∉ utf16ToModifiedUtf8 u 0 none := by
      rw [utf16ToModifiedUtf8_whole, List.mem_flatMap]
      rintro ⟨v, _, hv⟩
      exact appendModifiedUtf8_no_zero v hv
    refine ⟨?_, hz⟩
    rw [modifiedUtf8ToUtf16, takeWhile_no_zero hz, utf16ToModifiedUtf8_whole,
      modifiedUtf8ToUtf16Loop_modified]
  · obtain ⟨cs, rfl⟩ := hs
    rw [modifiedUtf8ToUtf16, takeWhile_no_zero hz, utf16ToUtf8, utf16ToUtf8Loop_encode [] cs hz,
      List.nil_append]
  · exact utf16ToUtf8Loop_wellFormed [] _ wellFormed_nil

theorem codecs_round_trip_accent :
    utf16ToUtf8 (modifiedUtf8ToUtf16 (some [0xc3, 0xa9])) = [0xc3, 0xa9] :=
  codecs_round_trip.2.1 _ ⟨['é'], by decide⟩ (by decide)

end Nightcap.Jni
