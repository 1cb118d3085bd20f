import Nightcap.Graphics.EtcRefinement

/-! A range of block rows reads and writes inside its buffers, and writes exactly its texel rows. -/
namespace Nightcap.Graphics

variable {target : Target} {format : EtcFormat} {job : EtcDecodeJob}
  {first count y x a : Nat} {writes : List (Nat × UInt8)} {b b' : Block}

/-- The bytes `DecodeRgbBlock` reads of the eight at `base`. -/
def rgbReads (base : Nat) : List Nat := (List.range 8).map (base + ·)

/-- The bytes `ReadEacBits` and the callers' palettes read of the eight at `base`. -/
def eacReads (base : Nat) : List Nat := [2, 3, 4, 5, 6, 7, 0, 1].map (base + ·)

/-- The bytes of a block that decoding it reads. -/
def blockReads (format : EtcFormat) : List Nat :=
  match format with
  | .etc2Rgb8 | .etc2Rgb8A1 => rgbReads 0
  | .etc2Rgba8 => rgbReads 8 ++ eacReads 0
  | _ => (List.range (etcDecodedTexelBytes format / 2)).flatMap fun c => eacReads (c * 8)

namespace EtcDecodeJob

/-- The source offsets `DecodeEtcImageBlockRows` reads. -/
def blockRowReads (job : EtcDecodeJob) (firstBlockRow blockRowCount : Nat) : List Nat :=
  (List.range' firstBlockRow blockRowCount).flatMap fun y =>
    (List.range job.blocksWide.toNat).flatMap fun x =>
      (blockReads job.format).map fun i =>
        offset ((y * job.blocksWide.toNat + x) * etcBlockBytes job.format + i)

/-- The bytes of the texel rows that a range of block rows covers. -/
def TexelRows (job : EtcDecodeJob) (firstBlockRow blockRowCount a : Nat) : Prop :=
  ∃ row column k, 4 * firstBlockRow ≤ row ∧
    row < min job.height.toNat (4 * (firstBlockRow + blockRowCount)) ∧
    column < job.width.toNat ∧ k < job.texelBytes ∧
    a = (row * job.width.toNat + column) * job.texelBytes + k

end EtcDecodeJob

open EtcDecodeJob

theorem lt_blockBytes_of_mem {i : Nat} (h : i ∈ blockReads format) : i < etcBlockBytes format := by
  cases format <;> simp [blockReads, rgbReads, eacReads, etcDecodedTexelBytes, etcBlockBytes,
    List.range_succ] at h ⊢ <;> omega

/-! The words of a block depend on the bytes it reads only. -/

/-- The first eight bytes of a block. -/
def firstEight (b : Block) : Block := fun i => if i < 8 then b i else 0

/-- What looks at eight bytes only. -/
theorem eq_of_firstEight {α : Type} {f : Block → α} (hf : ∀ b, f (firstEight b) = f b)
    (h : ∀ i < 8, b i = b' i) : f b = f b' := by
  have hfirst : firstEight b = firstEight b' := by
    funext i
    unfold firstEight
    split
    · next hi => exact h i hi
    · rfl
  rw [← hf b, hfirst, hf]

theorem decodeRgbBlock_firstEight (b : Block) :
    decodeRgbBlock target (firstEight b) = decodeRgbBlock target b := rfl

theorem alphaOf_firstEight (b : Block) : alphaOf (firstEight b) = alphaOf b := rfl

theorem readEacBits_firstEight (b : Block) : readEacBits (firstEight b) = readEacBits b := rfl

theorem decodeR11Modifier_firstEight (b : Block) :
    decodeR11Modifier (firstEight b) = decodeR11Modifier b := rfl

theorem mem_rgbReads {base i : Nat} (hi : i < 8) : base + i ∈ rgbReads base :=
  List.mem_map.2 ⟨i, List.mem_range.2 hi, rfl⟩

theorem mem_eacReads {base i : Nat} (hi : i < 8) : base + i ∈ eacReads base := by
  refine List.mem_map.2 ⟨i, ?_, rfl⟩
  interval_cases i <;> decide

theorem channelValue_congr {channel : Nat}
    (h : ∀ i < 8, b (channel * 8 + i) = b' (channel * 8 + i)) :
    channelValue format b channel = channelValue format b' channel := by
  funext texel
  have hbits := eq_of_firstEight readEacBits_firstEight h
  have hmodifier := eq_of_firstEight decodeR11Modifier_firstEight h
  simp only [channelValue, hbits, hmodifier]

theorem blockColumns_congr (hrgba : isRgbaFamily format = true)
    (h : ∀ i ∈ blockReads format, b i = b' i) :
    blockColumns target format b = blockColumns target format b' := by
  funext texel
  have hrgb (hf : blockReads format = rgbReads 0) :
      decodeRgbBlock target b = decodeRgbBlock target b' :=
    eq_of_firstEight decodeRgbBlock_firstEight fun i hi =>
      h i (hf ▸ Nat.zero_add i ▸ mem_rgbReads hi)
  cases format with
  | etc2Rgb8 => simp only [blockColumns, hrgb rfl]
  | etc2Rgb8A1 => simp only [blockColumns, hrgb rfl]
  | etc2Rgba8 =>
    have hhigh : decodeRgbBlock target (fun i => b (8 + i)) =
        decodeRgbBlock target fun i => b' (8 + i) :=
      eq_of_firstEight decodeRgbBlock_firstEight fun i hi =>
        h _ (List.mem_append_left _ (mem_rgbReads hi))
    have hlow : alphaOf b = alphaOf b' :=
      eq_of_firstEight alphaOf_firstEight fun i hi =>
        h i (List.mem_append_right _ (Nat.zero_add i ▸ mem_eacReads hi))
    simp only [blockColumns, hhigh, hlow]
  | _ => cases hrgba

/-- A decoded texel byte depends on the bytes of the block that are read. -/
theorem texelByte_congr {texel k : Nat} (hk : k < etcDecodedTexelBytes format)
    (h : ∀ i ∈ blockReads format, b i = b' i) :
    texelByte target format b texel k = texelByte target format b' texel k := by
  unfold texelByte
  split
  · next hrgba => rw [blockColumns_congr hrgba h]
  · next hrgba =>
    have hchannel : channelValue format b (k / 2) = channelValue format b' (k / 2) := by
      refine channelValue_congr fun i hi => h _ ?_
      have hreads : blockReads format =
          (List.range (etcDecodedTexelBytes format / 2)).flatMap fun c => eacReads (c * 8) := by
        cases format <;> first | rfl | exact absurd rfl hrgba
      rw [hreads]
      refine List.mem_flatMap.2 ⟨k / 2, List.mem_range.2 ?_, mem_eacReads hi⟩
      have heven : etcDecodedTexelBytes format = 2 ∨ etcDecodedTexelBytes format = 4 := by
        cases format <;> simp [etcDecodedTexelBytes]
      omega
    simp only [hchannel]

/-! The ranges of one call. -/

/-- The bytes of a block inside the image lie in the source. -/
theorem block_offset_lt {i : Nat} (hf : job.Holds)
    (hy : y < ceil4 job.height.toNat) (hx : x < ceil4 job.width.toNat)
    (hi : i < etcBlockBytes job.format) :
    offset ((y * ceil4 job.width.toNat + x) * etcBlockBytes job.format + i) <
      job.sourceBytes.toNat := by
  have hblock := mul_add_lt hy hx
  have hlt := mul_add_lt hblock hi
  have hs := hf.blocks
  rw [Nat.mul_comm (ceil4 job.width.toNat)] at hs
  exact (Nat.mod_le _ _).trans_lt (hlt.trans_le hs)

theorem reads_inside (hf : job.Holds)
    (hrange : first + count ≤ ceil4 job.height.toNat) (ha : a ∈ job.blockRowReads first count) :
    a < job.sourceBytes.toNat := by
  simp only [blockRowReads, toNat_blocksWide, List.mem_flatMap, List.mem_map, List.mem_range'_1,
    List.mem_range] at ha
  obtain ⟨y, ⟨_, hy⟩, x, hx, i, hi, rfl⟩ := ha
  exact block_offset_lt hf (by omega) hx (lt_blockBytes_of_mem hi)

theorem texelRows_lt (hf : job.Holds) (h : job.TexelRows first count a) :
    a < job.destinationBytes.toNat := by
  obtain ⟨row, column, k, _, hrow, hcolumn, hk, rfl⟩ := h
  have harea := mul_add_lt (Nat.lt_min.1 hrow).1 hcolumn
  have hlt := mul_add_lt harea hk
  have ht := hf.texels
  rw [Nat.mul_comm job.width.toNat] at ht
  exact hlt.trans_le ht

/-- The blocks of a range of block rows cover its texel rows. -/
theorem written_iff (hf : job.Holds) (hb : job.Bounded) :
    (∃ w ∈ (List.range' first count).flatMap (job.rowWrites target), w.1 = a) ↔
      job.TexelRows first count a := by
  constructor
  · rintro ⟨w, hw, rfl⟩
    simp only [List.mem_flatMap, rowWrites, List.mem_range'_1] at hw
    obtain ⟨y, hy, x, _, hw⟩ := hw
    obtain ⟨hr, hc, hk, hyr, hxc⟩ := (mem_blockWrites hf hb).1 hw
    exact ⟨_, _, _, by omega, by omega, hxc, hk, rfl⟩
  · rintro ⟨row, column, k, hfirst, hrow, hcolumn, hk, rfl⟩
    have hwrite : TexelWrite target job (row / 4) (column / 4) _ :=
      .mk (Nat.mod_lt row four_pos) (Nat.mod_lt column four_pos) hk
        (by omega) (by omega)
    refine ⟨_, List.mem_flatMap.2 ⟨row / 4, ?_, List.mem_flatMap.2 ⟨column / 4, ?_,
      (mem_blockWrites hf hb).2 hwrite⟩⟩, ?_⟩
    · rw [List.mem_range'_1]
      omega
    · rw [List.mem_range, toNat_blocksWide, ceil4]
      omega
    · dsimp only
      rw [Nat.div_add_mod', Nat.div_add_mod']

/-! Bytes outside the source have no influence. -/

theorem texelWrites_congr {address texel : Nat} (h : ∀ i ∈ blockReads job.format, b i = b' i) :
    job.texelWrites target address b texel = job.texelWrites target address b' texel := by
  refine List.map_congr_left fun k hk => ?_
  rw [texelByte_congr (List.mem_range.1 hk) h]

theorem interiorWrites_congr (h : ∀ i ∈ blockReads job.format, b i = b' i) :
    job.interiorWrites target b y x = job.interiorWrites target b' y x := by
  refine List.flatMap_congr fun r _ => List.flatMap_congr fun c _ => ?_
  exact texelWrites_congr h

theorem edgeWrites_congr (h : ∀ i ∈ blockReads job.format, b i = b' i) :
    job.edgeWrites target b y x = job.edgeWrites target b' y x := by
  refine List.flatMap_congr fun r _ => List.flatMap_congr fun c _ => ?_
  exact texelWrites_congr h

/-- The job over another source. -/
def EtcDecodeJob.withSource (job : EtcDecodeJob) (source : Nat → UInt8) : EtcDecodeJob :=
  { job with source := some source }

theorem rowWrites_withSource {source : Nat → UInt8} (hf : job.Holds)
    (hsource : ∀ a < job.sourceBytes.toNat, job.source.getD (fun _ => 0) a = source a)
    (hy : y < ceil4 job.height.toNat) :
    (job.withSource source).rowWrites target y = job.rowWrites target y := by
  have hwide : (job.withSource source).blocksWide = job.blocksWide := rfl
  unfold rowWrites
  rw [hwide]
  refine List.flatMap_congr fun x hx => ?_
  rw [List.mem_range, toNat_blocksWide] at hx
  have hblock : ∀ i ∈ blockReads job.format,
      (job.withSource source).block y x i = job.block y x i := by
    intro i hi
    simp only [block, hwide, toNat_blocksWide]
    exact (hsource _ (block_offset_lt hf hy hx (lt_blockBytes_of_mem hi))).symm
  have hinterior : (job.withSource source).interiorWrites target
      ((job.withSource source).block y x) y x =
      job.interiorWrites target (job.block y x) y x := interiorWrites_congr hblock
  have hedge : (job.withSource source).edgeWrites target ((job.withSource source).block y x) y x =
      job.edgeWrites target (job.block y x) y x := edgeWrites_congr hblock
  unfold blockWrites
  dsimp only
  rw [hinterior, hedge]
  rfl

theorem decode_withSource {source : Nat → UInt8} (hf : job.Holds)
    (hsource : ∀ a < job.sourceBytes.toNat, job.source.getD (fun _ => 0) a = source a) :
    decodeEtcImageBlockRows target (job.withSource source) first count =
      decodeEtcImageBlockRows target job first count := by
  have hfits : (job.withSource source).imageFits = job.imageFits := by
    have hsome : (job.withSource source).source.isSome = job.source.isSome := hf.source.symm
    unfold imageFits
    rw [hsome]
    rfl
  have hhigh : (job.withSource source).blocksHigh = job.blocksHigh := rfl
  unfold decodeEtcImageBlockRows
  rw [hfits, hhigh]
  split
  · rfl
  · split
    · rfl
    · next hrange =>
      rw [toNat_blocksHigh, not_lt] at hrange
      refine congrArg some (List.flatMap_congr fun y hy => rowWrites_withSource hf hsource ?_)
      rw [List.mem_range'_1] at hy
      omega

/-- What a successful call reads and writes. -/
theorem block_rows_bounded (hb : job.Bounded)
    (h : decodeEtcImageBlockRows target job first count = some writes) :
    (∀ a ∈ job.blockRowReads first count, a < job.sourceBytes.toNat) ∧
    (∀ source, (∀ a < job.sourceBytes.toNat, job.source.getD (fun _ => 0) a = source a) →
      decodeEtcImageBlockRows target (job.withSource source) first count = some writes) ∧
    (∀ w ∈ writes, w.1 < job.destinationBytes.toNat) ∧
    ∀ a, (∃ w ∈ writes, w.1 = a) ↔ job.TexelRows first count a := by
  have hcall := h
  unfold decodeEtcImageBlockRows at h
  split at h
  · cases h
  · next hfits =>
    have hf : job.Holds := (imageFits_iff hb).1 (by simpa using hfits)
    split at h
    · cases h
    · next hrange =>
      cases h
      rw [toNat_blocksHigh, not_lt] at hrange
      have hwritten : ∀ a,
          (∃ w ∈ (List.range' first count).flatMap (job.rowWrites target), w.1 = a) ↔
          job.TexelRows first count a := fun a => written_iff hf hb
      refine ⟨fun a => reads_inside hf hrange, ?_, ?_, hwritten⟩
      · intro source hsource
        rw [decode_withSource hf hsource, hcall]
      · intro w hw
        exact texelRows_lt hf ((hwritten w.1).1 ⟨w, hw, rfl⟩)

/-- The second block row of a picture of 5 by 6 texels. -/
def smallJob : EtcDecodeJob where
  format := .etc2Rgba8
  source := some fun i => UInt8.ofNat i
  sourceBytes := 64
  width := 5
  height := 6
  destination := true
  destinationBytes := 120

theorem smallJob_bounded : smallJob.Bounded := by
  refine ⟨?_, ?_⟩ <;> decide

theorem block_rows_bounded_small :
    ∃ writes, decodeEtcImageBlockRows .x86 smallJob 1 1 = some writes ∧
      ∀ a, (∃ w ∈ writes, w.1 = a) ↔ smallJob.TexelRows 1 1 a := by
  have hrows : decodeEtcImageBlockRows .x86 smallJob 1 1 =
      some ((List.range' 1 1).flatMap (smallJob.rowWrites .x86)) := rfl
  exact ⟨_, hrows, (block_rows_bounded smallJob_bounded hrows).2.2.2⟩

end Nightcap.Graphics
