import Nightcap.Graphics.EtcRefinement
import Nightcap.Lib.Bits
import Nightcap.Lib.Etc2

/-! Both branches of `DecodeRgbBlock` decode the ETC2 formats, and both stores of a block put its
texels at the same places. -/
namespace Nightcap.Graphics

open Bits Etc2

variable {target : Target} {b : Block} {x y : Nat}

/-! Bit fields. -/

/-- A block as one number, its first byte the most significant. -/
def blockBits (b : Block) : Nat :=
  (b 0).toNat * 2 ^ 56 + (b 1).toNat * 2 ^ 48 + (b 2).toNat * 2 ^ 40 + (b 3).toNat * 2 ^ 32 +
    (b 4).toNat * 2 ^ 24 + (b 5).toNat * 2 ^ 16 + (b 6).toNat * 2 ^ 8 + (b 7).toNat

theorem and_one (n : Nat) : n &&& 1 = n % 2 := Nat.and_two_pow_sub_one_eq_mod n 1
theorem and_fifteen (n : Nat) : n &&& 15 = n % 16 := Nat.and_two_pow_sub_one_eq_mod n 4

theorem expand4_eq {n : Nat} (h : n < 16) : expand4 n = extend 4 n := by
  revert n
  decide

theorem expand5_eq {n : Nat} (h : n < 32) : expand5 n = extend 5 n := by
  revert n
  decide

theorem expand6_eq {n : Nat} (h : n < 64) : expand6 n = extend 6 n := by
  revert n
  decide

theorem expand7_eq {n : Nat} (h : n < 128) : expand7 n = extend 7 n := by
  revert n
  decide

theorem extend4_lt {n : Nat} (h : n < 16) : extend 4 n < 2 ^ 8 := by
  simp only [extend]
  omega

theorem entry_kDelta {n : Nat} (h : n < 8) : entry kDelta n = signed3 n := by
  revert n
  decide

/-! Words. -/

theorem toNat_word (b₀ b₁ b₂ b₃ : UInt8) : (word b₀ b₁ b₂ b₃).toNat =
    b₀.toNat + b₁.toNat * 2 ^ 8 + b₂.toNat * 2 ^ 16 + b₃.toNat * 2 ^ 24 := by
  have h₀ := b₀.toNat_lt
  have h₁ := b₁.toNat_lt
  have h₂ := b₂.toNat_lt
  have h₃ := b₃.toNat_lt
  have h₁₀ : b₁.toNat * 2 ^ 8 + b₀.toNat < 2 ^ 16 := by omega
  have h₂₀ : b₂.toNat * 2 ^ 16 + (b₁.toNat * 2 ^ 8 + b₀.toNat) < 2 ^ 24 := by
    norm_num at h₁₀ h₂ ⊢
    linarith
  have shifted (b : UInt8) {k : Nat} (hk : k ≤ 24) (h : b.toNat < 2 ^ 8) :
      b.toNat <<< k % 2 ^ 32 = b.toNat <<< k := by
    refine Nat.mod_eq_of_lt ?_
    rw [Nat.shiftLeft_eq]
    calc b.toNat * 2 ^ k < 2 ^ 8 * 2 ^ k := Nat.mul_lt_mul_of_pos_right h (Nat.two_pow_pos k)
      _ ≤ 2 ^ 8 * 2 ^ 24 := Nat.mul_le_mul_left _ (Nat.pow_le_pow_right two_pos hk)
  have hword : (word b₀ b₁ b₂ b₃).toNat =
      b₀.toNat ||| b₁.toNat <<< 8 ||| b₂.toNat <<< 16 ||| b₃.toNat <<< 24 := by
    rw [← shifted b₁ (by omega) h₁, ← shifted b₂ (by omega) h₂, ← shifted b₃ (by omega) h₃]
    rfl
  rw [hword, or_shift h₀, or_shift h₁₀, or_shift h₂₀]
  omega

theorem toNat_clamp255 (value : Int) : (clamp255 value).toNat = clamp value := by
  have h : (max 0 (min value 255)).toNat < 256 := by omega
  rw [clamp255, UInt8.toNat_ofNat', clamp, Nat.mod_eq_of_lt h]

/-- The saturating packs clamp to a byte. -/
theorem packus16_packs32 (value : Int) : packus16 (packs32 value) = clamp255 value := by
  unfold packus16 packs32 clamp255
  congr 2
  omega

/-- Both branches clamp a colour alike. -/
theorem toNat_makeRgba32 (c : Color) :
    (makeRgba32 target c.red c.green c.blue 255).toNat = c.texel.word := by
  have halpha : (UInt8.ofNat ((255 : Int) % 256).toNat).toNat = 255 := rfl
  have hpacked : (clamp255 255).toNat = 255 := rfl
  cases target <;>
    simp only [makeRgba32, packus16_packs32, toNat_word, toNat_clamp255, halpha, hpacked,
      Color.texel, Texel.word]

/-! Byte shuffles. -/

theorem toNat_wordByte (w : UInt32) {k : Nat} (hk : k < 4) :
    (wordByte w k).toNat = w.toNat / 2 ^ (8 * k) % 256 := by
  have hshift : (UInt32.ofNat (8 * k)).toNat % 32 = 8 * k := by
    rw [UInt32.toNat_ofNat']
    omega
  rw [wordByte, UInt32.toNat_toUInt8, UInt32.toNat_shiftRight, hshift, Nat.shiftRight_eq_div_pow]

/-- A word is made of its bytes. -/
theorem word_wordByte (w : UInt32) :
    word (wordByte w 0) (wordByte w 1) (wordByte w 2) (wordByte w 3) = w := by
  have hlt := w.toNat_lt
  rw [← UInt32.toNat_inj, toNat_word, toNat_wordByte w (by omega), toNat_wordByte w (by omega),
    toNat_wordByte w (by omega), toNat_wordByte w (by omega)]
  omega

/-- The colour that a pair of column nibbles names for a texel. -/
def nibbleIndex (combo p : Nat) : Nat :=
  ((((combo >>> 4) >>> p) &&& 1) <<< 1) ||| (((combo &&& 15) >>> p) &&& 1)

theorem nibbleIndex_lt (combo p : Nat) : nibbleIndex combo p < 4 := by
  rw [nibbleIndex, and_one, and_one, shift_or (by omega)]
  omega

theorem shuffle8_columnMask (pal : Nat → UInt32) (combo : Nat) {p k : Nat} (hk : k < 4) :
    shuffle8 (loadWords pal) (columnMask combo) (4 * p + k) =
      wordByte (pal (nibbleIndex combo p)) k := by
  have hp : (4 * p + k) / 4 = p := by omega
  have hkm : (4 * p + k) % 4 = k := by omega
  have hlt := nibbleIndex_lt combo p
  have hmask : columnMask combo (4 * p + k) = UInt8.ofNat (nibbleIndex combo p * 4 + k) := by
    simp only [columnMask, hp, hkm]
    rfl
  have hbyte : (UInt8.ofNat (nibbleIndex combo p * 4 + k)).toNat = nibbleIndex combo p * 4 + k := by
    rw [UInt8.toNat_ofNat']
    omega
  have hlow : ¬ UInt8.ofNat (nibbleIndex combo p * 4 + k) ≥ 128 := by
    rw [ge_iff_le, UInt8.le_iff_toNat_le, hbyte]
    have h128 : (128 : UInt8).toNat = 128 := rfl
    omega
  have hmod : (nibbleIndex combo p * 4 + k) % 16 = nibbleIndex combo p * 4 + k := by omega
  rw [shuffle8, hmask, if_neg hlow, hbyte, hmod, loadWords]
  congr 1
  · congr 1
    omega
  · omega

theorem laneWord_shuffle8 (pal : Nat → UInt32) (combo p : Nat) :
    laneWord (shuffle8 (loadWords pal) (columnMask combo)) p = pal (nibbleIndex combo p) := by
  have hfirst : shuffle8 (loadWords pal) (columnMask combo) (4 * p + 0) =
      wordByte (pal (nibbleIndex combo p)) 0 := shuffle8_columnMask pal combo (by omega)
  rw [Nat.add_zero] at hfirst
  rw [laneWord, hfirst, shuffle8_columnMask pal combo (by omega),
    shuffle8_columnMask pal combo (by omega), shuffle8_columnMask pal combo (by omega),
    word_wordByte]

/-- A bit of a nibble of a plane. -/
theorem nibble_bit {n y : Nat} (hy : y < 4) :
    (n >>> (x * 4) &&& 15) >>> y &&& 1 = n >>> (x * 4 + y) &&& 1 := by
  rw [Nat.shiftRight_add, and_fifteen, and_one, and_one]
  generalize n >>> (x * 4) = m
  interval_cases y <;> simp only [Nat.shiftRight_eq_div_pow] <;> omega

/-- A column's entry of the shuffle table names the colours its texels have. -/
theorem nibbleIndex_column {msb lsb : Nat} (hy : y < 4) :
    nibbleIndex ((((msb >>> (x * 4)) &&& 15) <<< 4) ||| ((lsb >>> (x * 4)) &&& 15)) y =
      indexOf msb lsb (x * 4 + y) := by
  have hlow : lsb >>> (x * 4) &&& 15 < 2 ^ 4 := by
    rw [and_fifteen]
    omega
  have hhigh : (((msb >>> (x * 4)) &&& 15) <<< 4 ||| ((lsb >>> (x * 4)) &&& 15)) >>> 4 =
      (msb >>> (x * 4)) &&& 15 := by
    rw [shift_or hlow, Nat.shiftRight_eq_div_pow]
    omega
  have hrest : (((msb >>> (x * 4)) &&& 15) <<< 4 ||| ((lsb >>> (x * 4)) &&& 15)) &&& 15 =
      (lsb >>> (x * 4)) &&& 15 := by
    rw [shift_or hlow, and_fifteen]
    omega
  rw [nibbleIndex, hhigh, hrest, nibble_bit hy, nibble_bit hy, indexOf]

/-- Half of a flipped column comes from each palette. -/
theorem laneWord_unpackLow64 {v w : Lanes} (hy : y < 4) :
    laneWord (unpackLow64 v (shiftRight8 w)) y = if y < 2 then laneWord v y else laneWord w y := by
  interval_cases y <;> rfl

/-- The subblock of a texel. -/
def half (flipped : Bool) (x y : Nat) : Nat := if flipped then y / 2 else x / 2

theorem laneWord_shuffledColumn (pal : Nat → Nat → UInt32) (flipped : Bool) {msb lsb : Nat}
    (hx : x < 4) (hy : y < 4) :
    laneWord (shuffledColumn pal flipped msb lsb x) y =
      pal (half flipped x y) (indexOf msb lsb (x * 4 + y)) := by
  have hindex : nibbleIndex ((((msb >>> (x * 4)) &&& 15) <<< 4) ||| ((lsb >>> (x * 4)) &&& 15)) y =
      indexOf msb lsb (x * 4 + y) := nibbleIndex_column hy
  unfold shuffledColumn
  dsimp only
  cases flipped with
  | false =>
    have hhalf : half false x y = if x < 2 then 0 else 1 := by
      simp only [half, Bool.false_eq_true, if_false]
      split <;> omega
    rw [Bool.not_false, if_pos rfl, hhalf]
    split <;> rw [laneWord_shuffle8, hindex]
  | true =>
    have hhalf : half true x y = if y < 2 then 0 else 1 := by
      simp only [half, if_true]
      split <;> omega
    rw [Bool.not_true, if_neg Bool.false_ne_true, laneWord_unpackLow64 hy, hhalf]
    split <;> rw [laneWord_shuffle8, hindex]

/-- Whichever branch is compiled, a texel takes its index of its subblock's palette. -/
theorem paletteTexel_eq (pal : Nat → Nat → UInt32) (flipped isOpaque : Bool) {msb lsb : Nat}
    (hx : x < 4) (hy : y < 4) :
    paletteTexel target pal flipped isOpaque msb lsb (x * 4 + y) =
      if isOpaque = false ∧ indexOf msb lsb (x * 4 + y) = 2 then 0
      else pal (half flipped x y) (indexOf msb lsb (x * 4 + y)) := by
  have hdiv : (x * 4 + y) / 4 = x := by omega
  have hmod : (x * 4 + y) % 4 = y := by omega
  unfold paletteTexel
  simp only [hdiv, hmod, laneWord_shuffledColumn pal flipped hx hy]
  generalize indexOf msb lsb (x * 4 + y) = index
  cases isOpaque with
  | true =>
    cases target with
    | x86 => simp
    | portable => cases flipped <;> interval_cases x <;> interval_cases y <;> rfl
  | false =>
    have hhalf : (if flipped then (if y ≥ 2 then 1 else 0) else if x ≥ 2 then 1 else 0) =
        half flipped x y := by
      cases flipped <;> interval_cases x <;> interval_cases y <;> rfl
    simp [hhalf]

/-! The modes. -/

/-- A colour as the source's list of channels. -/
def channels (c : Color) : List Int := [c.red, c.green, c.blue]

theorem toNat_rgba (c : Color) : (rgba target (channels c)).toNat = c.texel.word :=
  toNat_makeRgba32 c

theorem map_channels (c : Color) (d : Int) : (channels c).map (· + d) = channels (c.plus d) := rfl

variable (b)

/-- The bytes as the source reads them. -/
def bytes (i : Nat) : Nat := (b i).toNat

theorem bytes_lt (i : Nat) : bytes b i < 2 ^ 8 := (b i).toNat_lt

theorem blockBits_eq : blockBits b =
    bytes b 0 * 2 ^ 56 + bytes b 1 * 2 ^ 48 + bytes b 2 * 2 ^ 40 + bytes b 3 * 2 ^ 32 +
      bytes b 4 * 2 ^ 24 + bytes b 5 * 2 ^ 16 + bytes b 6 * 2 ^ 8 + bytes b 7 := rfl

/-- A bit below a cut is that of what is cut off. -/
theorem mod_bit (n : Nat) {p k : Nat} (h : p < k) : n % 2 ^ k / 2 ^ p % 2 = n / 2 ^ p % 2 := by
  obtain ⟨m, rfl⟩ := Nat.exists_eq_add_of_lt h
  rw [Nat.add_assoc, Nat.pow_add, Nat.mod_mul_right_div_self,
    Nat.mod_mod_of_dvd _ (dvd_pow_self 2 (Nat.succ_ne_zero m))]

theorem indexOf_eq (hx : x < 4) (hy : y < 4) :
    indexOf (bytes b 4 <<< 8 ||| bytes b 5) (bytes b 6 <<< 8 ||| bytes b 7) (x * 4 + y) =
      index (blockBits b) x y := by
  have h₄ := bytes_lt b 4
  have h₅ := bytes_lt b 5
  have h₆ := bytes_lt b 6
  have h₇ := bytes_lt b 7
  have hmsb : bytes b 4 <<< 8 ||| bytes b 5 = bytes b 4 * 2 ^ 8 + bytes b 5 := shift_or h₅
  have hlsb : bytes b 6 <<< 8 ||| bytes b 7 = bytes b 6 * 2 ^ 8 + bytes b 7 := shift_or h₇
  have hhigh : blockBits b / 2 ^ 16 % 2 ^ 16 = bytes b 4 * 2 ^ 8 + bytes b 5 := by
    rw [blockBits_eq]
    omega
  have hlow : blockBits b % 2 ^ 16 = bytes b 6 * 2 ^ 8 + bytes b 7 := by
    rw [blockBits_eq]
    omega
  have hp : x * 4 + y < 16 := by omega
  rw [indexOf, hmsb, hlsb, and_one, and_one, shift_or (by omega), index]
  simp only [field, Nat.shiftRight_eq_div_pow]
  rw [← hhigh, ← hlow, mod_bit _ hp, mod_bit _ hp, Nat.div_div_eq_div_mul, ← Nat.pow_add,
    Nat.add_sub_cancel_left, Nat.add_sub_cancel_left]
  omega

theorem field_lt (w high low : Nat) : field w high low < 2 ^ (high + 1 - low) :=
  Nat.mod_lt _ (Nat.two_pow_pos _)

/-- A field is the fields it is cut into. -/
theorem field_append (w : Nat) {high mid low : Nat} (hm : mid ≤ high) (hl : low < mid) :
    field w high mid * 2 ^ (mid - low) + field w (mid - 1) low = field w high low := by
  obtain ⟨k, rfl⟩ := Nat.exists_eq_add_of_lt hl
  obtain ⟨n, rfl⟩ := Nat.exists_eq_add_of_le hm
  have hmid : low + k + 1 - low = k + 1 := by omega
  have hsize : low + k + 1 - 1 + 1 - low = k + 1 := by omega
  have hhigh : low + k + 1 + n + 1 - (low + k + 1) = n + 1 := by omega
  have hall : low + k + 1 + n + 1 - low = (k + 1) + (n + 1) := by omega
  simp only [field, hmid, hsize, hhigh, hall]
  rw [Nat.add_assoc low k 1, Nat.pow_add 2 low (k + 1), ← Nat.div_div_eq_div_mul,
    Nat.pow_add 2 (k + 1) (n + 1), Nat.mod_mul]
  ring

theorem field_byte {i lo n : Nat} (hi : i < 8) (hn : lo + n ≤ 8) :
    blockBits b / 2 ^ (8 * (7 - i) + lo) % 2 ^ n = bytes b i / 2 ^ lo % 2 ^ n := by
  have h₀ := bytes_lt b 0
  have h₁ := bytes_lt b 1
  have h₂ := bytes_lt b 2
  have h₃ := bytes_lt b 3
  have h₄ := bytes_lt b 4
  have h₅ := bytes_lt b 5
  have h₆ := bytes_lt b 6
  have h₇ := bytes_lt b 7
  have hbyte : blockBits b / 2 ^ (8 * (7 - i)) % 2 ^ 8 = bytes b i := by
    rw [blockBits_eq]
    interval_cases i <;> omega
  rw [← hbyte, Nat.pow_add, ← Nat.div_div_eq_div_mul]
  have hsplit : 2 ^ 8 = 2 ^ lo * 2 ^ (8 - lo) := by
    rw [← Nat.pow_add]
    congr 1
    omega
  rw [hsplit, Nat.mod_mul_right_div_self, Nat.mod_mod_of_dvd _ (Nat.pow_dvd_pow 2 (by omega))]

/-! The source's shifts and masks of one byte read fields of the block. -/

theorem shr_and_eq (i lo n : Nat) (h : i < 8 ∧ lo + (n + 1) ≤ 8) :
    (bytes b i >>> lo) &&& (2 ^ (n + 1) - 1) =
      field (blockBits b) (8 * (7 - i) + lo + n) (8 * (7 - i) + lo) := by
  have hsize : 8 * (7 - i) + lo + n + 1 - (8 * (7 - i) + lo) = n + 1 := by omega
  rw [Nat.and_two_pow_sub_one_eq_mod, Nat.shiftRight_eq_div_pow, field, hsize, field_byte b h.1 h.2]

theorem and_eq (i n : Nat) (h : i < 8 ∧ n + 1 ≤ 8) :
    bytes b i &&& (2 ^ (n + 1) - 1) = field (blockBits b) (8 * (7 - i) + n) (8 * (7 - i)) :=
  shr_and_eq b i 0 n (by omega)

theorem shr_eq (i lo : Nat) (h : i < 8 ∧ lo < 8) :
    bytes b i >>> lo = field (blockBits b) (8 * (7 - i) + 7) (8 * (7 - i) + lo) := by
  have hread := shr_and_eq b i lo (7 - lo) (by omega)
  have htop : 8 * (7 - i) + lo + (7 - lo) = 8 * (7 - i) + 7 := by omega
  have hlt : bytes b i >>> lo < 2 ^ (7 - lo + 1) := by
    have hsplit : 2 ^ 8 = 2 ^ (7 - lo + 1) * 2 ^ lo := by
      rw [← Nat.pow_add]
      congr 1
      omega
    rw [Nat.shiftRight_eq_div_pow]
    exact Nat.div_lt_of_lt_mul (Nat.mul_comm _ _ ▸ hsplit ▸ bytes_lt b i)
  rwa [htop, Nat.and_two_pow_sub_one_of_lt_two_pow hlt] at hread

/-- A mask inside a byte keeps a field in its place. -/
theorem and_shl_eq (i lo n : Nat) (h : i < 8 ∧ lo + (n + 1) ≤ 8) :
    bytes b i &&& ((2 ^ (n + 1) - 1) <<< lo) =
      field (blockBits b) (8 * (7 - i) + lo + n) (8 * (7 - i) + lo) <<< lo := by
  rw [← shr_and_eq b i lo n h]
  rw [and_mask, Nat.shiftLeft_eq, Nat.and_two_pow_sub_one_eq_mod, Nat.shiftRight_eq_div_pow]

variable {b} {high low n : Nat}

/-! Channels that are fields of the block. -/

theorem expand_field {expand : Nat → Nat} {k : Nat}
    (hexpand : ∀ {n}, n < 2 ^ k → expand n = extend k n)
    (h : n = field (blockBits b) high low) (hs : high + 1 - low = k) :
    expand n = extend k (field (blockBits b) high low) := by
  have hlt := field_lt (blockBits b) high low
  rw [hs] at hlt
  rw [h, hexpand hlt]

/-- A colour packed with its red channel first. -/
theorem pack_eq (red : Nat) {green blue : Nat} (hg : green < 2 ^ 8) (hb : blue < 2 ^ 8) :
    (((red <<< 16) ||| (green <<< 8) ||| blue : Nat) : Int) = Color.value ⟨red, green, blue⟩ := by
  have hlow : green * 2 ^ 8 + blue < 2 ^ 16 := by omega
  rw [Nat.or_assoc, shift_or hb, shift_or hlow]
  simp only [Color.value]
  omega

/-- Two fields that meet read as one. -/
theorem shift_or_field {high mid low n m : Nat} (hn : n = field (blockBits b) high mid)
    (hm : m = field (blockBits b) (mid - 1) low) (h : mid ≤ high) (hl : low < mid) :
    n <<< (mid - low) ||| m = field (blockBits b) high low := by
  have hlt := field_lt (blockBits b) (mid - 1) low
  have hsize : mid - 1 + 1 - low = mid - low := by omega
  rw [hsize] at hlt
  rw [hn, hm, shift_or hlt, field_append (blockBits b) h hl]

theorem paintT_eq (b : Block) (i : Nat) :
    paintT (bytes b) i = channels (tColor (blockBits b) i) := by
  have hr₁ : expand4 ((((bytes b 0 >>> 3) &&& 3) <<< 2) ||| (bytes b 0 &&& 3)) =
      extend 4 (field (blockBits b) 60 59 * 4 + field (blockBits b) 57 56) := by
    have hhigh : (bytes b 0 >>> 3) &&& 3 = field (blockBits b) 60 59 :=
      shr_and_eq b 0 3 1 (by decide)
    have hlow : bytes b 0 &&& 3 = field (blockBits b) 57 56 := and_eq b 0 1 (by decide)
    have hl := field_lt (blockBits b) 57 56
    have hh := field_lt (blockBits b) 60 59
    rw [hhigh, hlow, shift_or hl]
    exact expand4_eq (by omega)
  have hg₁ : expand4 (bytes b 1 >>> 4) = extend 4 (field (blockBits b) 55 52) :=
    expand_field expand4_eq (shr_eq b 1 4 (by decide)) rfl
  have hb₁ : expand4 (bytes b 1 &&& 15) = extend 4 (field (blockBits b) 51 48) :=
    expand_field expand4_eq (and_eq b 1 3 (by decide)) rfl
  have hr₂ : expand4 (bytes b 2 >>> 4) = extend 4 (field (blockBits b) 47 44) :=
    expand_field expand4_eq (shr_eq b 2 4 (by decide)) rfl
  have hg₂ : expand4 (bytes b 2 &&& 15) = extend 4 (field (blockBits b) 43 40) :=
    expand_field expand4_eq (and_eq b 2 3 (by decide)) rfl
  have hb₂ : expand4 (bytes b 3 >>> 4) = extend 4 (field (blockBits b) 39 36) :=
    expand_field expand4_eq (shr_eq b 3 4 (by decide)) rfl
  have hd : (((bytes b 3 >>> 2) &&& 3) <<< 1) ||| (bytes b 3 &&& 1) =
      field (blockBits b) 35 34 * 2 + field (blockBits b) 32 32 := by
    have hhigh : (bytes b 3 >>> 2) &&& 3 = field (blockBits b) 35 34 :=
      shr_and_eq b 3 2 1 (by decide)
    have hlow : bytes b 3 &&& 1 = field (blockBits b) 32 32 := and_eq b 3 0 (by decide)
    rw [hhigh, hlow]
    exact shift_or (field_lt (blockBits b) 32 32)
  rcases i with _ | _ | _ | i <;>
    simp only [paintT, tColor, channels, Color.plus, hr₁, hg₁, hb₁, hr₂, hg₂,
      hb₂, hd, sub_eq_add_neg,
      List.map_cons, List.map_nil]
  all_goals rfl

theorem paintH_eq (b : Block) (i : Nat) :
    paintH (bytes b) i = channels (hColor (blockBits b) i) := by
  have hr₁ : expand4 ((bytes b 0 >>> 3) &&& 15) = extend 4 (field (blockBits b) 62 59) :=
    expand_field expand4_eq (shr_and_eq b 0 3 3 (by decide)) rfl
  have hg₁ : expand4 (((bytes b 0 &&& 7) <<< 1) ||| ((bytes b 1 >>> 4) &&& 1)) =
      extend 4 (field (blockBits b) 58 56 * 2 + field (blockBits b) 52 52) := by
    have hhigh : bytes b 0 &&& 7 = field (blockBits b) 58 56 := and_eq b 0 2 (by decide)
    have hlow : (bytes b 1 >>> 4) &&& 1 = field (blockBits b) 52 52 :=
      shr_and_eq b 1 4 0 (by decide)
    have hl := field_lt (blockBits b) 52 52
    have hh := field_lt (blockBits b) 58 56
    rw [hhigh, hlow, shift_or hl]
    exact expand4_eq (by omega)
  have hb₁ : expand4 ((bytes b 1 &&& 8) ||| ((bytes b 1 &&& 3) <<< 1) ||| (bytes b 2 >>> 7)) =
      extend 4 (field (blockBits b) 51 51 * 8 + field (blockBits b) 49 47) := by
    have htop : bytes b 1 &&& 8 = field (blockBits b) 51 51 <<< 3 := and_shl_eq b 1 3 0 (by decide)
    have hrest : ((bytes b 1 &&& 3) <<< 1) ||| (bytes b 2 >>> 7) = field (blockBits b) 49 47 :=
      shift_or_field (and_eq b 1 1 (by decide)) (shr_eq b 2 7 (by decide)) (by decide) (by decide)
    have hl := field_lt (blockBits b) 49 47
    have hh := field_lt (blockBits b) 51 51
    rw [Nat.or_assoc, htop, hrest, shift_or hl]
    exact expand4_eq (by omega)
  have hr₂ : expand4 ((bytes b 2 >>> 3) &&& 15) = extend 4 (field (blockBits b) 46 43) :=
    expand_field expand4_eq (shr_and_eq b 2 3 3 (by decide)) rfl
  have hg₂ : expand4 (((bytes b 2 &&& 7) <<< 1) ||| (bytes b 3 >>> 7)) =
      extend 4 (field (blockBits b) 42 39) :=
    expand_field expand4_eq
      (shift_or_field (and_eq b 2 2 (by decide)) (shr_eq b 3 7 (by decide))
        (by decide) (by decide)) rfl
  have hb₂ : expand4 ((bytes b 3 >>> 3) &&& 15) = extend 4 (field (blockBits b) 38 35) :=
    expand_field expand4_eq (shr_and_eq b 3 3 3 (by decide)) rfl
  have hd (order : Nat) (ho : order < 2 ^ 1) :
      (bytes b 3 &&& 4) ||| ((bytes b 3 &&& 1) <<< 1) ||| order =
        field (blockBits b) 34 34 * 4 + field (blockBits b) 32 32 * 2 + order := by
    have hhigh : bytes b 3 &&& 4 = field (blockBits b) 34 34 <<< 2 := and_shl_eq b 3 2 0 (by decide)
    have hlow : bytes b 3 &&& 1 = field (blockBits b) 32 32 := and_eq b 3 0 (by decide)
    have hl := field_lt (blockBits b) 32 32
    rw [Nat.or_assoc, hhigh, hlow, shift_or ho, shift_or (by omega)]
    ring
  have hgreen₂ : extend 4 (field (blockBits b) 42 39) < 2 ^ 8 :=
    extend4_lt (field_lt (blockBits b) 42 39)
  have hblue₂ : extend 4 (field (blockBits b) 38 35) < 2 ^ 8 :=
    extend4_lt (field_lt (blockBits b) 38 35)
  have hgreen : extend 4 (field (blockBits b) 58 56 * 2 + field (blockBits b) 52 52) < 2 ^ 8 := by
    have hl := field_lt (blockBits b) 52 52
    have hh := field_lt (blockBits b) 58 56
    exact extend4_lt (by omega)
  have hblue : extend 4 (field (blockBits b) 51 51 * 8 + field (blockBits b) 49 47) < 2 ^ 8 := by
    have hl := field_lt (blockBits b) 49 47
    have hh := field_lt (blockBits b) 51 51
    exact extend4_lt (by omega)
  have hfirst (red : Nat) := pack_eq red hgreen hblue
  have hsecond (red : Nat) := pack_eq red hgreen₂ hblue₂
  have hone (p : Prop) [Decidable p] : (if p then 1 else 0) < 2 ^ 1 := by
    split <;> decide
  have horder (m n : Nat) : (if m ≥ n then 1 else 0 : Nat) = if (m : Int) ≥ n then 1 else 0 :=
    if_congr Int.ofNat_le.symm rfl rfl
  rcases i with _ | _ | _ | i <;>
    simp only [paintH, hColor, channels, Color.plus, hr₁, hg₁, hb₁, hr₂, hg₂, hb₂, horder, hfirst,
      hsecond, hd _ (hone _), sub_eq_add_neg, List.map_cons, List.map_nil]
  all_goals rfl

theorem shiftRight_two (value : Int) : value >>> (2 : Int) = value / 4 := by
  have hnat : value >>> (2 : Int) = value >>> (2 : Nat) := Int.shiftRight_natCast_right value 2
  rw [hnat]
  exact Int.shiftRight_eq_div_pow value 2

theorem planar_eq (b : Block) (hy : y < 4) :
    (planar target (bytes b) (x * 4 + y)).toNat = (planarColor (blockBits b) x y).texel.word := by
  have hro : expand6 ((bytes b 0 >>> 1) &&& 63) = extend 6 (field (blockBits b) 62 57) :=
    expand_field expand6_eq (shr_and_eq b 0 1 5 (by decide)) rfl
  have hgo : expand7 (((bytes b 0 &&& 1) <<< 6) ||| ((bytes b 1 >>> 1) &&& 63)) =
      extend 7 (field (blockBits b) 56 56 * 64 + field (blockBits b) 54 49) := by
    have hhigh : bytes b 0 &&& 1 = field (blockBits b) 56 56 := and_eq b 0 0 (by decide)
    have hlow : (bytes b 1 >>> 1) &&& 63 = field (blockBits b) 54 49 :=
      shr_and_eq b 1 1 5 (by decide)
    have hl := field_lt (blockBits b) 54 49
    have hh := field_lt (blockBits b) 56 56
    rw [hhigh, hlow, shift_or hl]
    exact expand7_eq (by omega)
  have hbo : expand6 (((bytes b 1 &&& 1) <<< 5) ||| (bytes b 2 &&& 0x18) |||
      ((bytes b 2 &&& 3) <<< 1) ||| (bytes b 3 >>> 7)) =
      extend 6 (field (blockBits b) 48 48 * 32 + field (blockBits b) 44 43 * 8 +
        field (blockBits b) 41 39) := by
    have hhigh : bytes b 1 &&& 1 = field (blockBits b) 48 48 := and_eq b 1 0 (by decide)
    have hmid : bytes b 2 &&& 0x18 = field (blockBits b) 44 43 <<< 3 :=
      and_shl_eq b 2 3 1 (by decide)
    have hlow : ((bytes b 2 &&& 3) <<< 1) ||| (bytes b 3 >>> 7) = field (blockBits b) 41 39 :=
      shift_or_field (and_eq b 2 1 (by decide)) (shr_eq b 3 7 (by decide)) (by decide) (by decide)
    have hl := field_lt (blockBits b) 41 39
    have hm := field_lt (blockBits b) 44 43
    have hh := field_lt (blockBits b) 48 48
    have hrest : field (blockBits b) 44 43 * 2 ^ 3 + field (blockBits b) 41 39 < 2 ^ 5 := by omega
    rw [Nat.or_assoc, Nat.or_assoc, hlow, hhigh, hmid, shift_or hl, shift_or hrest, Nat.add_assoc]
    exact expand6_eq (by omega)
  have hrh : expand6 (((bytes b 3 &&& 0x7c) >>> 1) ||| (bytes b 3 &&& 1)) =
      extend 6 (field (blockBits b) 38 34 * 2 + field (blockBits b) 32 32) := by
    have hhigh : bytes b 3 &&& 0x7c = field (blockBits b) 38 34 <<< 2 :=
      and_shl_eq b 3 2 4 (by decide)
    have hdown : (field (blockBits b) 38 34 <<< 2) >>> 1 = field (blockBits b) 38 34 <<< 1 := by
      rw [Nat.shiftRight_eq_div_pow, Nat.shiftLeft_eq, Nat.shiftLeft_eq]
      omega
    have hlow : bytes b 3 &&& 1 = field (blockBits b) 32 32 := and_eq b 3 0 (by decide)
    have hl := field_lt (blockBits b) 32 32
    have hh := field_lt (blockBits b) 38 34
    rw [hhigh, hdown, hlow, shift_or hl]
    exact expand6_eq (by omega)
  have hgh : expand7 (bytes b 4 >>> 1) = extend 7 (field (blockBits b) 31 25) :=
    expand_field expand7_eq (shr_eq b 4 1 (by decide)) rfl
  have hbh : expand6 (((bytes b 4 &&& 1) <<< 5) ||| (bytes b 5 >>> 3)) =
      extend 6 (field (blockBits b) 24 19) :=
    expand_field expand6_eq
      (shift_or_field (and_eq b 4 0 (by decide)) (shr_eq b 5 3 (by decide))
        (by decide) (by decide)) rfl
  have hrv : expand6 (((bytes b 5 &&& 7) <<< 3) ||| (bytes b 6 >>> 5)) =
      extend 6 (field (blockBits b) 18 13) :=
    expand_field expand6_eq
      (shift_or_field (and_eq b 5 2 (by decide)) (shr_eq b 6 5 (by decide))
        (by decide) (by decide)) rfl
  have hgv : expand7 (((bytes b 6 &&& 31) <<< 2) ||| (bytes b 7 >>> 6)) =
      extend 7 (field (blockBits b) 12 6) :=
    expand_field expand7_eq
      (shift_or_field (and_eq b 6 4 (by decide)) (shr_eq b 7 6 (by decide))
        (by decide) (by decide)) rfl
  have hbv : expand6 (bytes b 7 &&& 63) = extend 6 (field (blockBits b) 5 0) :=
    expand_field expand6_eq (and_eq b 7 5 (by decide)) rfl
  have hx : (x * 4 + y) / 4 = x := by omega
  have hy' : (x * 4 + y) % 4 = y := by omega
  rw [← @toNat_makeRgba32 target]
  simp only [planar, planarColor, plane, hro, hgo, hbo, hrh, hgh, hbh, hrv, hgv, hbv, hx, hy',
    shiftRight_two]

theorem channelSum_eq (b : Block) (c low : Nat) (hc : c < 3) (hlow : low = 8 * (7 - c)) :
    channelSum (bytes b) c = secondChannel (blockBits b) low := by
  subst hlow
  have hhigh : bytes b c >>> 3 = field (blockBits b) (8 * (7 - c) + 7) (8 * (7 - c) + 3) :=
    shr_eq b c 3 (by omega)
  have hdelta : bytes b c &&& 7 = field (blockBits b) (8 * (7 - c) + 2) (8 * (7 - c)) :=
    and_eq b c 2 (by omega)
  have hl := field_lt (blockBits b) (8 * (7 - c) + 2) (8 * (7 - c))
  rw [show 8 * (7 - c) + 2 + 1 - 8 * (7 - c) = 3 by omega] at hl
  rw [channelSum, hhigh, hdelta, entry_kDelta hl, secondChannel]

theorem flagBit_eq (b : Block) : bytes b 3 &&& 2 ≠ 0 ↔ flagBit (blockBits b) ≠ 0 := by
  have hbit : bytes b 3 &&& 2 = field (blockBits b) 33 33 <<< 1 := and_shl_eq b 3 1 0 (by decide)
  rw [hbit, Nat.shiftLeft_eq, flagBit]
  omega

theorem flipBit_eq (b : Block) : bytes b 3 &&& 1 ≠ 0 ↔ flipBit (blockBits b) = 1 := by
  have hbit : bytes b 3 &&& 1 = field (blockBits b) 32 32 := and_eq b 3 0 (by decide)
  have hl := field_lt (blockBits b) 32 32
  rw [hbit, flipBit]
  omega

theorem individualBase_eq (b : Block) (sub : Nat) :
    baseColor (bytes b) true sub = channels (individualBase (blockBits b) sub) := by
  have hr₁ : expand4 (bytes b 0 >>> 4) = extend 4 (field (blockBits b) 63 60) :=
    expand_field expand4_eq (shr_eq b 0 4 (by decide)) rfl
  have hg₁ : expand4 (bytes b 1 >>> 4) = extend 4 (field (blockBits b) 55 52) :=
    expand_field expand4_eq (shr_eq b 1 4 (by decide)) rfl
  have hb₁ : expand4 (bytes b 2 >>> 4) = extend 4 (field (blockBits b) 47 44) :=
    expand_field expand4_eq (shr_eq b 2 4 (by decide)) rfl
  have hr₂ : expand4 (bytes b 0 &&& 15) = extend 4 (field (blockBits b) 59 56) :=
    expand_field expand4_eq (and_eq b 0 3 (by decide)) rfl
  have hg₂ : expand4 (bytes b 1 &&& 15) = extend 4 (field (blockBits b) 51 48) :=
    expand_field expand4_eq (and_eq b 1 3 (by decide)) rfl
  have hb₂ : expand4 (bytes b 2 &&& 15) = extend 4 (field (blockBits b) 43 40) :=
    expand_field expand4_eq (and_eq b 2 3 (by decide)) rfl
  cases sub with
  | zero =>
    simp only [baseColor, individualBase, channels, List.map_cons, List.map_nil, if_true, hr₁, hg₁,
      hb₁]
  | succ sub =>
    simp only [baseColor, individualBase, channels, List.map_cons, List.map_nil, if_true,
      Nat.succ_ne_zero, if_false, hr₂, hg₂, hb₂]

theorem differentialBase_eq (b : Block) (sub : Nat) (h₀ : Fits (secondChannel (blockBits b) 56))
    (h₁ : Fits (secondChannel (blockBits b) 48)) (h₂ : Fits (secondChannel (blockBits b) 40)) :
    baseColor (bytes b) false sub = channels (differentialBase (blockBits b) sub) := by
  have hr : expand5 (bytes b 0 >>> 3) = extend 5 (field (blockBits b) 63 59) :=
    expand_field expand5_eq (shr_eq b 0 3 (by decide)) rfl
  have hg : expand5 (bytes b 1 >>> 3) = extend 5 (field (blockBits b) 55 51) :=
    expand_field expand5_eq (shr_eq b 1 3 (by decide)) rfl
  have hb : expand5 (bytes b 2 >>> 3) = extend 5 (field (blockBits b) 47 43) :=
    expand_field expand5_eq (shr_eq b 2 3 (by decide)) rfl
  have hsecond {value : Int} (h : Fits value) : expand5 value.toNat = extend 5 value.toNat := by
    obtain ⟨hlow, hhigh⟩ := h
    exact expand5_eq (by omega)
  cases sub with
  | zero =>
    simp only [baseColor, differentialBase, channels, List.map_cons, List.map_nil,
      Bool.false_eq_true, if_true, if_false, hr, hg, hb]
  | succ sub =>
    simp only [baseColor, differentialBase, channels, channelSum_eq b 0 56 (by decide) rfl,
      channelSum_eq b 1 48 (by decide) rfl, channelSum_eq b 2 40 (by decide) rfl, hsecond h₀,
      hsecond h₁, hsecond h₂, List.map_cons, List.map_nil, Bool.false_eq_true, if_false,
      Nat.succ_ne_zero]

theorem entry_kEtc1Modifiers {table i : Nat} (ht : table < 8) (hi : i < 4) :
    entry (row kEtc1Modifiers table) i = modifier table i := by
  interval_cases table <;> interval_cases i <;> rfl

theorem codeword_eq (b : Block) {sub : Nat} (hsub : sub < 2) :
    (if sub = 0 then bytes b 3 >>> 5 else (bytes b 3 >>> 2) &&& 7) =
      codeword (blockBits b) sub := by
  have hfirst : bytes b 3 >>> 5 = field (blockBits b) 39 37 := shr_eq b 3 5 (by decide)
  have hsecond : (bytes b 3 >>> 2) &&& 7 = field (blockBits b) 36 34 :=
    shr_and_eq b 3 2 2 (by decide)
  interval_cases sub
  · rw [if_pos rfl, hfirst, codeword]
  · rw [if_neg one_ne_zero, hsecond, codeword]
    omega

theorem codeword_lt (b : Block) (sub : Nat) : codeword (blockBits b) sub < 8 := by
  have hfirst : field (blockBits b) 39 37 < 8 := field_lt (blockBits b) 39 37
  have hsecond : field (blockBits b) 36 34 < 8 := field_lt (blockBits b) 36 34
  cases sub with
  | zero => simpa only [codeword] using hfirst
  | succ sub => simpa only [codeword] using hsecond

/-- The precomputed palettes hold the colours of the two subblocks. -/
theorem palette_eq {punchthrough individual : Bool} {base : Nat → Color} {sub i : Nat}
    (hsub : sub < 2) (hi : i < 4)
    (hbase : baseColor (bytes b) individual sub = channels (base sub)) :
    (palette target (bytes b) individual
        (!punchthrough || decide (bytes b 3 &&& 2 ≠ 0)) sub i).toNat =
      (subblockColor (blockBits b) punchthrough base sub i).texel.word := by
  have htransparent : (!(!punchthrough || decide (bytes b 3 &&& 2 ≠ 0)) && decide (i = 0)) = true ↔
      Transparent (blockBits b) punchthrough ∧ i = 0 := by
    have hflag := flagBit_eq b
    unfold Transparent
    cases punchthrough <;> simp_all
  unfold palette subblockColor
  dsimp only
  rw [hbase, codeword_eq b hsub, entry_kEtc1Modifiers (codeword_lt b sub) hi, map_channels,
    toNat_rgba]
  by_cases h : Transparent (blockBits b) punchthrough ∧ i = 0
  · rw [if_pos h, if_pos (htransparent.2 h)]
    simp only [Color.plus, add_zero]
  · rw [if_neg h, if_neg (htransparent.not.2 h)]

theorem index_lt (w x y : Nat) : index w x y < 4 := by
  have hm := field_lt w (16 + (x * 4 + y)) (16 + (x * 4 + y))
  have hl := field_lt w (x * 4 + y) (x * 4 + y)
  rw [Nat.add_sub_cancel_left] at hm hl
  rw [index]
  omega

theorem subblock_lt (w : Nat) (hx : x < 4) (hy : y < 4) : subblock w x y < 2 := by
  unfold subblock
  split <;> omega

theorem half_eq (b : Block) :
    half (decide (bytes b 3 &&& 1 ≠ 0)) x y = subblock (blockBits b) x y := by
  simp only [half, subblock, decide_eq_true_eq, flipBit_eq]

/-- The individual and differential modes. -/
theorem paletteTexel_word {punchthrough individual : Bool} {base : Nat → Color} (hx : x < 4)
    (hy : y < 4)
    (hbase : ∀ sub, baseColor (bytes b) individual sub = channels (base sub)) :
    (paletteTexel target
        (palette target (bytes b) individual (!punchthrough || decide (bytes b 3 &&& 2 ≠ 0)))
        (decide (bytes b 3 &&& 1 ≠ 0)) (!punchthrough || decide (bytes b 3 &&& 2 ≠ 0))
        (bytes b 4 <<< 8 ||| bytes b 5) (bytes b 6 <<< 8 ||| bytes b 7) (x * 4 + y)).toNat =
      (if Transparent (blockBits b) punchthrough ∧ index (blockBits b) x y = 2 then
        Texel.transparent
        else (subblockColor (blockBits b) punchthrough base (subblock (blockBits b) x y)
          (index (blockBits b) x y)).texel).word := by
  have htransparent : (!punchthrough || decide (bytes b 3 &&& 2 ≠ 0)) = false ↔
      Transparent (blockBits b) punchthrough := by
    have hflag := flagBit_eq b
    unfold Transparent
    cases punchthrough <;> simp_all
  rw [paletteTexel_eq _ _ _ hx hy, indexOf_eq b hx hy, half_eq]
  simp only [htransparent]
  split
  · rfl
  · exact palette_eq (subblock_lt _ hx hy) (index_lt _ _ _) (hbase _)

theorem outside_eq (b : Block) (c low : Nat) (hc : c < 3) (hlow : low = 8 * (7 - c)) :
    decide (channelSum (bytes b) c < 0 ∨ channelSum (bytes b) c > 31) =
      decide (¬ Fits (secondChannel (blockBits b) low)) := by
  rw [channelSum_eq b c low hc hlow, decide_eq_decide, Fits]
  omega

/-- The source's tests read the mode of a block. -/
theorem decodeRgbBlock_eq (target : Target) (b : Block) (punchthrough : Bool) (hx : x < 4)
    (hy : y < 4) :
    decodeRgbBlock target b punchthrough (x * 4 + y) =
      if ¬ (punchthrough = false ∧ flagBit (blockBits b) = 0) ∧
          (¬ Fits (secondChannel (blockBits b) 56) ∨ ¬ Fits (secondChannel (blockBits b) 48)) then
        if Transparent (blockBits b) punchthrough ∧ index (blockBits b) x y = 2 then 0
        else rgba target (if ¬ Fits (secondChannel (blockBits b) 56)
          then paintT (bytes b) (index (blockBits b) x y)
          else paintH (bytes b) (index (blockBits b) x y))
      else if ¬ (punchthrough = false ∧ flagBit (blockBits b) = 0) ∧
          ¬ Fits (secondChannel (blockBits b) 40) then planar target (bytes b) (x * 4 + y)
      else paletteTexel target
        (palette target (bytes b) (decide (punchthrough = false ∧ flagBit (blockBits b) = 0))
          (!punchthrough || decide (bytes b 3 &&& 2 ≠ 0)))
        (decide (bytes b 3 &&& 1 ≠ 0)) (!punchthrough || decide (bytes b 3 &&& 2 ≠ 0))
        (bytes b 4 <<< 8 ||| bytes b 5) (bytes b 6 <<< 8 ||| bytes b 7) (x * 4 + y) := by
  have hindividual : (!punchthrough && !decide (bytes b 3 &&& 2 ≠ 0)) =
      decide (punchthrough = false ∧ flagBit (blockBits b) = 0) := by
    have hflag := flagBit_eq b
    cases punchthrough <;> simp_all
  have htransparent : (!(!punchthrough || decide (bytes b 3 &&& 2 ≠ 0))) =
      decide (Transparent (blockBits b) punchthrough) := by
    have hflag := flagBit_eq b
    unfold Transparent
    cases punchthrough <;> simp_all
  unfold decodeRgbBlock
  change (if (!(!punchthrough && !decide (bytes b 3 &&& 2 ≠ 0)) &&
      (decide (channelSum (bytes b) 0 < 0 ∨ channelSum (bytes b) 0 > 31) ||
        decide (channelSum (bytes b) 1 < 0 ∨ channelSum (bytes b) 1 > 31))) = true then
      if (!(!punchthrough || decide (bytes b 3 &&& 2 ≠ 0)) && decide (indexOf
          (bytes b 4 <<< 8 ||| bytes b 5) (bytes b 6 <<< 8 ||| bytes b 7) (x * 4 + y) = 2)) = true
        then 0
      else rgba target
        (if decide (channelSum (bytes b) 0 < 0 ∨ channelSum (bytes b) 0 > 31) = true then
          paintT (bytes b) (indexOf
            (bytes b 4 <<< 8 ||| bytes b 5) (bytes b 6 <<< 8 ||| bytes b 7) (x * 4 + y))
        else paintH (bytes b) (indexOf
          (bytes b 4 <<< 8 ||| bytes b 5) (bytes b 6 <<< 8 ||| bytes b 7) (x * 4 + y)))
    else if (!(!punchthrough && !decide (bytes b 3 &&& 2 ≠ 0)) &&
        decide (channelSum (bytes b) 2 < 0 ∨ channelSum (bytes b) 2 > 31)) = true then
      planar target (bytes b) (x * 4 + y)
    else paletteTexel target
      (palette target (bytes b) (!punchthrough && !decide (bytes b 3 &&& 2 ≠ 0))
        (!punchthrough || decide (bytes b 3 &&& 2 ≠ 0)))
      (decide (bytes b 3 &&& 1 ≠ 0)) (!punchthrough || decide (bytes b 3 &&& 2 ≠ 0))
      (bytes b 4 <<< 8 ||| bytes b 5) (bytes b 6 <<< 8 ||| bytes b 7) (x * 4 + y)) = _
  rw [outside_eq b 0 56 (by decide) rfl, outside_eq b 1 48 (by decide) rfl,
    outside_eq b 2 40 (by decide) rfl, hindividual, htransparent, indexOf_eq b hx hy]
  simp only [Bool.and_eq_true, Bool.or_eq_true, Bool.not_eq_true', decide_eq_false_iff_not,
    decide_eq_true_eq]

/-- Either branch decodes every texel of every block as the format defines it. -/
theorem decodeRgbBlock_texel (target : Target) (b : Block) (punchthrough : Bool) (hx : x < 4)
    (hy : y < 4) :
    (decodeRgbBlock target b punchthrough (x * 4 + y)).toNat =
      (texel (blockBits b) punchthrough x y).word := by
  rw [decodeRgbBlock_eq target b punchthrough hx hy, texel, mode]
  by_cases hi : punchthrough = false ∧ flagBit (blockBits b) = 0
  · rw [if_neg (fun h => h.1 hi), if_neg (fun h => h.1 hi), if_pos hi,
      if_neg (show Mode.individual ≠ .planar by decide), decide_eq_true hi,
      paletteTexel_word hx hy (individualBase_eq b)]
  · rw [if_neg hi, decide_eq_false hi]
    by_cases ht : Fits (secondChannel (blockBits b) 56)
    · by_cases hh : Fits (secondChannel (blockBits b) 48)
      · rw [if_neg (fun h => h.2.elim (· ht) (· hh)), if_neg (not_not.2 ht), if_neg (not_not.2 hh)]
        by_cases hp : Fits (secondChannel (blockBits b) 40)
        · rw [if_neg (fun h => h.2 hp), if_neg (not_not.2 hp),
            if_neg (show Mode.differential ≠ .planar by decide),
            paletteTexel_word hx hy fun sub => differentialBase_eq b sub ht hh hp]
        · rw [if_pos ⟨hi, hp⟩, if_pos hp, if_pos rfl, planar_eq b hy]
      · rw [if_pos ⟨hi, .inr hh⟩, if_neg (not_not.2 ht), if_neg (not_not.2 ht), if_pos hh,
          if_neg (show Mode.h ≠ .planar by decide), paintH_eq]
        split
        · rfl
        · exact toNat_rgba _
    · rw [if_pos ⟨hi, .inl ht⟩, if_pos ht, if_pos ht, if_neg (show Mode.t ≠ .planar by decide),
        paintT_eq]
      split
      · rfl
      · exact toNat_rgba _

theorem decodeRgbBlock_target (target' : Target) (b : Block) (punchthrough : Bool) (hx : x < 4)
    (hy : y < 4) :
    decodeRgbBlock target b punchthrough (x * 4 + y) =
      decodeRgbBlock target' b punchthrough (x * 4 + y) := by
  rw [← UInt32.toNat_inj, decodeRgbBlock_texel target b punchthrough hx hy,
    decodeRgbBlock_texel target' b punchthrough hx hy]

/-! The two stores. -/

variable {job : EtcDecodeJob} {row column : Nat}

theorem texelWrites_target (target' : Target) (hrgba : isRgbaFamily job.format = true)
    (address : Nat) (b : Block) (hx : x < 4) (hy : y < 4) :
    job.texelWrites target address b (x * 4 + y) =
      job.texelWrites target' address b (x * 4 + y) := by
  have hcolumns : blockColumns target job.format b (x * 4 + y) =
      blockColumns target' job.format b (x * 4 + y) := by
    unfold blockColumns
    split <;> rw [decodeRgbBlock_target target' _ _ hx hy]
  simp only [EtcDecodeJob.texelWrites, texelByte, hrgba, if_true, hcolumns]

/-- Every texel of a block at its place in the image, row by row. -/
def EtcDecodeJob.texelStores (job : EtcDecodeJob) (target : Target) (b : Block)
    (row column : Nat) : List (Nat × UInt8) :=
  (List.range 4).flatMap fun y => (List.range 4).flatMap fun x =>
    job.texelWrites target (((row * 4 + y) * job.width.toNat + (column * 4 + x)) * 4) b (x * 4 + y)

theorem interiorWrites_eq (target' : Target) (b : Block) (hrgba : isRgbaFamily job.format = true) :
    job.interiorWrites target b row column = job.texelStores target' b row column := by
  refine List.flatMap_congr fun y hy => List.flatMap_congr fun x hx => ?_
  rw [List.mem_range] at hy hx
  have htexel : EtcDecodeJob.interiorTexel target y x = x * 4 + y := by cases target <;> rfl
  have haddress : (row * 4 * job.width.toNat + column * 4) * 4 + y * job.width.toNat * 4 + x * 4 =
      ((row * 4 + y) * job.width.toNat + (column * 4 + x)) * 4 := by ring
  rw [htexel, haddress, texelWrites_target target' hrgba _ b hx hy]

theorem takeWhile_range_four {base n : Nat} (h : base + 4 ≤ n) :
    (List.range 4).takeWhile (fun i => decide (base + i < n)) = List.range 4 := by
  rw [List.takeWhile_eq_self_iff]
  intro i hi
  rw [List.mem_range] at hi
  exact decide_eq_true (by omega)

theorem edgeWrites_eq (target' : Target) (b : Block) (hrgba : isRgbaFamily job.format = true)
    (hrow : row * 4 + 4 ≤ job.height.toNat) (hcolumn : column * 4 + 4 ≤ job.width.toNat) :
    job.edgeWrites target b row column = job.texelStores target' b row column := by
  have hbytes := texelBytes_rgba hrgba
  unfold EtcDecodeJob.edgeWrites EtcDecodeJob.texelStores
  rw [takeWhile_range_four hrow, takeWhile_range_four hcolumn, hbytes]
  refine List.flatMap_congr fun y hy => List.flatMap_congr fun x hx => ?_
  rw [List.mem_range] at hy hx
  rw [texelWrites_target target' hrgba _ b hx hy, Nat.add_assoc _ (column * 4) x]

/-- Both branches of `DecodeRgbBlock` write the texels the format defines, and the interior and the
edge store of either branch put them at the same places. -/
theorem rgb_branches_agree (b : Block) (punchthrough : Bool) :
    (∀ x < 4, ∀ y < 4,
      decodeRgbBlock .x86 b punchthrough (x * 4 + y) =
          decodeRgbBlock .portable b punchthrough (x * 4 + y) ∧
        ∀ target, (decodeRgbBlock target b punchthrough (x * 4 + y)).toNat =
          (texel (blockBits b) punchthrough x y).word) ∧
    ∀ (job : EtcDecodeJob) (row column : Nat), isRgbaFamily job.format = true →
      row * 4 + 4 ≤ job.height.toNat → column * 4 + 4 ≤ job.width.toNat → ∀ target target',
        job.interiorWrites target b row column = job.texelStores target' b row column ∧
          job.edgeWrites target b row column = job.texelStores target' b row column := by
  constructor
  · intro x hx y hy
    exact ⟨decodeRgbBlock_target .portable b punchthrough hx hy,
      fun target => decodeRgbBlock_texel target b punchthrough hx hy⟩
  · intro job row column hrgba hrow hcolumn target target'
    exact ⟨interiorWrites_eq target' b hrgba, edgeWrites_eq target' b hrgba hrow hcolumn⟩

/-- A flipped differential block, and an image of one block. -/
theorem rgb_branches_agree_flipped :
    decodeRgbBlock .x86 (fun i => UInt8.ofNat (i * 17 + 8)) true (3 * 4 + 2) =
        decodeRgbBlock .portable (fun i => UInt8.ofNat (i * 17 + 8)) true (3 * 4 + 2) ∧
      (⟨.etc2Rgb8A1, some fun i => UInt8.ofNat i, 8, 4, 4, true, 64⟩ : EtcDecodeJob).interiorWrites
          .x86 (fun i => UInt8.ofNat (i * 17 + 8)) 0 0 =
        (⟨.etc2Rgb8A1, some fun i => UInt8.ofNat i, 8, 4, 4, true, 64⟩ : EtcDecodeJob).texelStores
          .portable (fun i => UInt8.ofNat (i * 17 + 8)) 0 0 := by
  have hagree := rgb_branches_agree (fun i => UInt8.ofNat (i * 17 + 8)) true
  exact ⟨(hagree.1 3 (by decide) 2 (by decide)).1,
    (hagree.2 _ 0 0 rfl (by decide) (by decide) .x86 .portable).1⟩

end Nightcap.Graphics
