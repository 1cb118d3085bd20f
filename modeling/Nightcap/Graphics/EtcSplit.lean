import Nightcap.Graphics.EtcCopies
import Nightcap.Graphics.EtcRefinement

/-! Splitting an upload neither loses, repeats nor moves a row of blocks, and each part fits its
staging. -/
namespace Nightcap.Graphics.Copies

open Checked

variable {format : EtcFormat} {region : Region} {cap : UInt64} {band layer row : UInt32}

/-! What a region copies, one row of blocks after the other. -/

/-- A row of blocks: where its bytes start in the buffer, and the texels it writes. -/
structure BlockRow where
  source : UInt64
  blocks : UInt32
  aspectMask : UInt32
  mipLevel : UInt32
  layer : UInt32
  x : Int32
  y : Int32
  z : Int32
  width : UInt32
  rows : Nat
  depth : UInt32
deriving DecidableEq

def blockRow (format : EtcFormat) (region : Region) (layer row : Nat) : BlockRow where
  source := region.bufferOffset +
    (UInt64.ofNat layer * region.layerStride format + UInt64.ofNat row * region.rowStride format)
  blocks := region.blocksWide
  aspectMask := region.imageSubresource.aspectMask
  mipLevel := region.imageSubresource.mipLevel
  layer := region.imageSubresource.baseArrayLayer + UInt32.ofNat layer
  x := region.imageOffset.x
  y := region.imageOffset.y + Int32.ofNat (row * 4)
  z := region.imageOffset.z
  width := region.width
  rows := min 4 (region.height.toNat - row * 4)
  depth := region.imageExtent.depth

/-- The first so many rows of a layer. -/
def layerRowsUpTo (format : EtcFormat) (region : Region) (layer rows : Nat) : List BlockRow :=
  (List.range rows).map (blockRow format region layer)

def blockRows (format : EtcFormat) (region : Region) : List BlockRow :=
  (List.range region.layers.toNat).flatMap fun layer =>
    layerRowsUpTo format region layer (ceil4 region.height.toNat)

/-! What a region needs, without any bound on numbers. -/

namespace Region

def rowBytes (format : EtcFormat) (region : Region) : Nat :=
  ceil4 region.rowTexels.toNat * etcBlockBytes format

def layerBytes (format : EtcFormat) (region : Region) : Nat :=
  region.rowBytes format * ceil4 region.layerRows.toNat

/-- From the first byte of the blocks to the last. -/
def spanBytes (format : EtcFormat) (region : Region) (rows layers : Nat) : Nat :=
  (layers - 1) * region.layerBytes format + (rows - 1) * region.rowBytes format +
    ceil4 region.width.toNat * etcBlockBytes format

def outputBytes (format : EtcFormat) (region : Region) (rows layers : Nat) : Nat :=
  ceil4 region.width.toNat * rows * Budget.bcBlockBytes format * layers

def needBytes (format : EtcFormat) (region : Region) (rows layers : Nat) : Nat :=
  alignStaging (region.spanBytes format rows layers) + alignStaging
    (region.outputBytes format rows layers)

def Empty (region : Region) : Prop := region.width = 0 ∨ region.height = 0 ∨ region.layers = 0

instance : Decidable region.Empty := inferInstanceAs (Decidable (_ ∨ _ ∨ _))

/-- An empty region stages nothing. -/
def stagingNeed (format : EtcFormat) (region : Region) : Nat :=
  if region.Empty then 0
  else region.needBytes format (ceil4 region.height.toNat) region.layers.toNat

/-- The code's arithmetic on the blocks of the region is exact. -/
def Small (region : Region) : Prop := region.width.toNat < 2 ^ 31 ∧ region.height.toNat < 2 ^ 31

instance : Decidable region.Small := inferInstanceAs (Decidable (_ ∧ _))

end Region

/-! The code's numbers. -/

theorem etcBlockBytes_le (format : EtcFormat) : etcBlockBytes format ≤ 16 := by
  cases format <;> decide

theorem bcBlockBytes_le (format : EtcFormat) : Budget.bcBlockBytes format ≤ 16 := by
  cases format <;> decide

theorem toUInt64_ceil4 {n : UInt64} (h : n.toNat < 2 ^ 32) :
    (n + 3) / 4 = UInt64.ofNat (ceil4 n.toNat) := by
  apply UInt64.toNat.inj
  rw [UInt64.toNat_div, UInt64.toNat_add, UInt64.toNat_ofNat', ceil4]
  simp only [UInt64.reduceToNat]
  omega

theorem toUInt32_ceil4 {n : UInt32} (h : n.toNat < 2 ^ 31) :
    ((n + 3) / 4).toNat = ceil4 n.toNat := by
  rw [UInt32.toNat_div, UInt32.toNat_add, ceil4]
  simp only [UInt32.reduceToNat]
  omega

theorem rowTexels_lt (region : Region) : region.rowTexels.toNat < 2 ^ 32 := by
  rw [Region.rowTexels, UInt32.toNat_toUInt64]
  exact UInt32.toNat_lt _

theorem layerRows_lt (region : Region) : region.layerRows.toNat < 2 ^ 32 := by
  rw [Region.layerRows, UInt32.toNat_toUInt64]
  exact UInt32.toNat_lt _

theorem rowStride_eq (format : EtcFormat) (region : Region) :
    region.rowStride format = UInt64.ofNat (region.rowBytes format) := by
  rw [Region.rowStride, toUInt64_ceil4 (rowTexels_lt region), Region.rowBytes,
    UInt64.ofNat_mul, blockBytes]

theorem layerStride_eq (format : EtcFormat) (region : Region) :
    region.layerStride format = UInt64.ofNat (region.layerBytes format) := by
  rw [Region.layerStride, rowStride_eq, toUInt64_ceil4 (layerRows_lt region),
    Region.layerBytes, UInt64.ofNat_mul]

theorem align_ofNat {n : Nat} (h : alignStaging n < 2 ^ 64) :
    align (UInt64.ofNat n) = UInt64.ofNat (alignStaging n) := by
  have hwrap : n + 255 < 2 ^ 64 := by
    simp only [alignStaging, kStagingAlignment] at h
    omega
  have hunit : (UInt64.ofNat kStagingAlignment).toNat = 256 := rfl
  apply UInt64.toNat.inj
  rw [UInt64.toNat_ofNat_of_lt' h, align, UInt64.toNat_mul, UInt64.toNat_div, UInt64.toNat_sub,
    UInt64.toNat_add, UInt64.toNat_ofNat_of_lt' (show n < 2 ^ 64 by omega), hunit]
  simp only [alignStaging, kStagingAlignment, UInt64.reduceToNat] at h ⊢
  omega

theorem pred_toUInt64 {n : UInt32} (h : n ≠ 0) : (n - 1).toUInt64 = UInt64.ofNat (n.toNat - 1) := by
  have hpos : 1 ≤ n.toNat := by
    rcases Nat.eq_zero_or_pos n.toNat with h0 | h0
    · exact absurd (UInt32.toNat.inj h0) h
    · exact h0
  have hle : (1 : UInt32) ≤ n := UInt32.le_iff_toNat_le.2 hpos
  rw [← UInt64.ofNat_uInt32ToNat, UInt32.toNat_sub_of_le _ _ hle]
  rfl

theorem need_eq (hsmall : region.Small) {rows layers : UInt32}
    (hrows : rows ≠ 0) (hlayers : layers ≠ 0)
    (h : region.needBytes format rows.toNat layers.toNat < 2 ^ 64) :
    (region.need format rows layers).toNat = region.needBytes format rows.toNat layers.toNat := by
  have hwide : region.blocksWide.toUInt64 = UInt64.ofNat (ceil4 region.width.toNat) := by
    rw [← toUInt32_ceil4 hsmall.1, UInt64.ofNat_uInt32ToNat]
    rfl
  have hspan : (layers - 1).toUInt64 * region.layerStride format +
      (rows - 1).toUInt64 * region.rowStride format +
        region.blocksWide.toUInt64 * blockBytes format =
      UInt64.ofNat (region.spanBytes format rows.toNat layers.toNat) := by
    rw [pred_toUInt64 hlayers, pred_toUInt64 hrows, layerStride_eq, rowStride_eq, hwide, blockBytes,
      Region.spanBytes, UInt64.ofNat_add, UInt64.ofNat_add, UInt64.ofNat_mul,
      UInt64.ofNat_mul, UInt64.ofNat_mul]
  have hout : etc2GpuOutputBytes
      { format := format, blocksWide := region.blocksWide, blocksHigh := rows, layers := layers,
        transcode := true } = UInt64.ofNat (region.outputBytes format rows.toNat layers.toNat) := by
    simp only [etc2GpuOutputBytes, outputLayerBytes, Bool.false_eq_true, if_false, if_true]
    rw [hwide, Region.outputBytes, UInt64.ofNat_mul, UInt64.ofNat_mul, UInt64.ofNat_mul,
      UInt64.ofNat_uInt32ToNat, UInt64.ofNat_uInt32ToNat]
  simp only [Region.needBytes] at h
  rw [Region.need]
  simp only
  rw [hspan, hout, align_ofNat (by omega), align_ofNat (by omega), ← UInt64.ofNat_add,
    UInt64.toNat_ofNat_of_lt' h, Region.needBytes]

/-! Needs in one layer. -/

theorem alignStaging_mono {m n : Nat} (h : m ≤ n) : alignStaging m ≤ alignStaging n := by
  simp only [alignStaging, kStagingAlignment]
  omega

theorem needBytes_mono {rows rows' layers layers' : Nat} (hrows : rows ≤ rows')
    (hlayers : layers ≤ layers') :
    region.needBytes format rows layers ≤ region.needBytes format rows' layers' := by
  refine Nat.add_le_add (alignStaging_mono ?_) (alignStaging_mono ?_)
  · have h1 : (layers - 1) * region.layerBytes format ≤ (layers' - 1) * region.layerBytes format :=
      Nat.mul_le_mul_right _ (by omega)
    have h2 : (rows - 1) * region.rowBytes format ≤ (rows' - 1) * region.rowBytes format :=
      Nat.mul_le_mul_right _ (by omega)
    simp only [Region.spanBytes]
    omega
  · simp only [Region.outputBytes]
    gcongr

/-- Without a second layer, numbers stay small. -/
theorem needBytes_lt (hsmall : region.Small) {rows : Nat} (hrows : rows ≤ 2 ^ 29) :
    region.needBytes format rows 1 < 2 ^ 64 := by
  have hrow : region.rowBytes format ≤ 2 ^ 30 * 16 := by
    refine Nat.mul_le_mul ?_ (etcBlockBytes_le format)
    have hlt := rowTexels_lt region
    simp only [ceil4]
    omega
  have hwide : ceil4 region.width.toNat ≤ 2 ^ 29 := by
    have hlt := hsmall.1
    simp only [ceil4]
    omega
  have h1 : (rows - 1) * region.rowBytes format ≤ 2 ^ 29 * (2 ^ 30 * 16) :=
    Nat.mul_le_mul (by omega) hrow
  have h2 : ceil4 region.width.toNat * etcBlockBytes format ≤ 2 ^ 29 * 16 :=
    Nat.mul_le_mul hwide (etcBlockBytes_le format)
  have h3 : ceil4 region.width.toNat * rows * Budget.bcBlockBytes format ≤ 2 ^ 29 * 2 ^ 29 * 16 :=
    Nat.mul_le_mul (Nat.mul_le_mul hwide hrows) (bcBlockBytes_le format)
  have hspan : region.spanBytes format rows 1 ≤ 2 ^ 63 + 2 ^ 33 := by
    simp only [Region.spanBytes, Nat.sub_self, Nat.zero_mul]
    omega
  have hout : region.outputBytes format rows 1 ≤ 2 ^ 62 := by
    simp only [Region.outputBytes, Nat.mul_one]
    omega
  simp only [Region.needBytes, alignStaging, kStagingAlignment]
  omega

theorem blocksHigh_toNat (hsmall : region.Small) :
    region.blocksHigh.toNat = ceil4 region.height.toNat :=
  toUInt32_ceil4 hsmall.2

theorem blocksHigh_le (hsmall : region.Small) : region.blocksHigh.toNat ≤ 2 ^ 29 := by
  have hlt := hsmall.2
  rw [blocksHigh_toNat hsmall, ceil4]
  omega

theorem toNat_min (a b : UInt32) : (min a b).toNat = min a.toNat b.toNat := by
  change (if a ≤ b then a else b).toNat = _
  split
  · rename_i h
    have hle := UInt32.le_iff_toNat_le.1 h
    omega
  · rename_i h
    have hlt := mt UInt32.le_iff_toNat_le.2 h
    omega

/-! One part. -/

@[simp] theorem piece_width : (region.piece format band layer row).width = region.width := rfl

@[simp] theorem piece_rowStride :
    (region.piece format band layer row).rowStride format = region.rowStride format := rfl

/-- The last part of a layer is lower, and may end inside a block. -/
theorem piece_height (hsmall : region.Small) (hband : band.toNat ≤ 2 ^ 29)
    (hrow : row < region.blocksHigh) :
    (region.piece format band layer row).height.toNat =
      min (band.toNat * 4) (region.height.toNat - row.toNat * 4) := by
  have hlt : row.toNat < ceil4 region.height.toNat := by
    rw [← blocksHigh_toNat hsmall]
    exact UInt32.lt_iff_toNat_lt.1 hrow
  have hsize := hsmall.2
  simp only [ceil4] at hlt
  have hmul : (row * 4).toNat = row.toNat * 4 := by
    rw [UInt32.toNat_mul]
    simp only [UInt32.reduceToNat]
    omega
  have hle : row * 4 ≤ region.height := UInt32.le_iff_toNat_le.2 (by omega)
  have hbandMul : (band * 4).toNat = band.toNat * 4 := by
    rw [UInt32.toNat_mul]
    simp only [UInt32.reduceToNat]
    omega
  have hsub : (region.height - row * 4).toNat = region.height.toNat - row.toNat * 4 := by
    rw [UInt32.toNat_sub_of_le _ _ hle, hmul]
  exact (toNat_min ..).trans (by rw [hbandMul, hsub])

theorem piece_ceil4 (hsmall : region.Small) (hband : band.toNat ≤ 2 ^ 29)
    (hrow : row < region.blocksHigh) :
    ceil4 (region.piece format band layer row).height.toNat =
      min band.toNat (ceil4 region.height.toNat - row.toNat) := by
  rw [piece_height hsmall hband hrow]
  simp only [ceil4]
  omega

theorem blockRow_piece (hsmall : region.Small) (hband : band.toNat ≤ 2 ^ 29)
    (hrow : row < region.blocksHigh)
    {r : Nat} (hr : r < band.toNat) :
    blockRow format (region.piece format band layer row) 0 r =
      blockRow format region layer.toNat (row.toNat + r) := by
  have hrows : min 4 ((region.piece format band layer row).height.toNat - r * 4) =
      min 4 (region.height.toNat - (row.toNat + r) * 4) := by
    rw [piece_height hsmall hband hrow]
    omega
  have hsource : (region.piece format band layer row).bufferOffset +
        (UInt64.ofNat 0 * (region.piece format band layer row).layerStride format +
          UInt64.ofNat r * region.rowStride format) =
      region.bufferOffset + (UInt64.ofNat layer.toNat * region.layerStride format +
        UInt64.ofNat (row.toNat + r) * region.rowStride format) := by
    have hzero : UInt64.ofNat 0 = 0 := rfl
    rw [UInt64.ofNat_add, UInt64.ofNat_uInt32ToNat,
      UInt64.ofNat_uInt32ToNat, hzero, UInt64.zero_mul,
      UInt64.zero_add, UInt64.add_mul]
    simp only [Region.piece, UInt64.add_assoc]
  have hy : (region.piece format band layer row).imageOffset.y + Int32.ofNat (r * 4) =
      region.imageOffset.y + Int32.ofNat ((row.toNat + r) * 4) := by
    have hoffset : (row * 4).toInt32 = Int32.ofNat (row.toNat * 4) := by
      rw [← UInt32.toInt32_ofNat', UInt32.ofNat_mul, UInt32.ofNat_toNat]
      rfl
    simp only [Region.piece]
    rw [hoffset, Nat.add_mul, Int32.ofNat_add, Int32.add_assoc]
  have hlayer : (region.piece format band layer row).imageSubresource.baseArrayLayer +
      UInt32.ofNat 0 =
      region.imageSubresource.baseArrayLayer + UInt32.ofNat layer.toNat := by
    rw [UInt32.ofNat_toNat]
    exact UInt32.add_zero _
  rw [blockRow, blockRow, piece_rowStride, hsource, hy, hlayer, hrows]
  rfl

/-- A part copies its own rows of the layer. -/
theorem blockRows_piece (hsmall : region.Small) (hband : band.toNat ≤ 2 ^ 29)
    (hrow : row < region.blocksHigh) :
    blockRows format (region.piece format band layer row) =
      (List.range' row.toNat (min band.toNat (ceil4 region.height.toNat - row.toNat))).map
        (blockRow format region layer.toNat) := by
  have hlayers : (region.piece format band layer row).layers.toNat = 1 := rfl
  rw [blockRows, hlayers, List.range_one, List.flatMap_singleton, layerRowsUpTo,
    piece_ceil4 hsmall hband hrow,
    List.range'_eq_map_range, List.map_map]
  refine List.map_congr_left fun r hr => ?_
  rw [List.mem_range] at hr
  exact blockRow_piece hsmall hband hrow (by omega)

/-- A part of the region fits where a whole band does. -/
theorem stagingNeed_piece (hsmall : region.Small) (hband : band.toNat ≤ 2 ^ 29)
    (hrow : row < region.blocksHigh) :
    (region.piece format band layer row).stagingNeed format ≤
      region.needBytes format band.toNat 1 := by
  rw [Region.stagingNeed]
  split
  · exact Nat.zero_le _
  · have hlayers : (region.piece format band layer row).layers.toNat = 1 := rfl
    rw [hlayers, piece_ceil4 hsmall hband hrow]
    have heq (rows : Nat) : (region.piece format band layer row).needBytes format rows 1 =
        region.needBytes format rows 1 := by
      simp only [Region.needBytes, Region.spanBytes, Nat.sub_self, Nat.zero_mul]
      rfl
    rw [heq]
    exact needBytes_mono (Nat.min_le_left ..) le_rfl

/-! The loops. -/

variable {err : Unit → Prop} {fits : Region → Prop} {before after out : List Region}
  {rows more : List BlockRow}

/-- The search ends on a band that fits, and finds one of at least one row. -/
theorem meets_search {fits : UInt32 → Bool} {high : UInt32} (hone : fits 1)
    (hhigh : 1 ≤ high.toNat) :
    Meets (loop (searchRound fits) kMaxRounds (1, high))
      (fun band => fits band ∧ 1 ≤ band.toNat ∧ band.toNat ≤ high.toNat) err := by
  refine meets_loop
    (fun s => fits s.1 ∧ 1 ≤ s.1.toNat ∧ s.1.toNat ≤ s.2.toNat ∧ s.2.toNat ≤ high.toNat)
    (fun s => s.2.toNat - s.1.toNat) ?_ ⟨hone, le_rfl, hhigh, le_rfl⟩ ?_
  · rintro ⟨band, top⟩ ⟨hfits, hlow, hle, htop⟩
    simp only at hfits hlow hle htop
    have hbits := UInt32.toNat_lt top
    rw [searchRound]
    split
    · rename_i hlt
      have hlt' := UInt32.lt_iff_toNat_lt.1 hlt
      have hmiddle : (band + (top - band + 1) / 2).toNat =
          band.toNat + (top.toNat - band.toNat + 1) / 2 := by
        rw [UInt32.toNat_add, UInt32.toNat_div, UInt32.toNat_add,
          UInt32.toNat_sub_of_le _ _ (UInt32.le_iff_toNat_le.2 hle)]
        simp only [UInt32.reduceToNat]
        omega
      simp only
      split
      · rename_i hfit
        refine meets_ok ⟨⟨hfit, ?_, ?_, htop⟩, ?_⟩ <;> simp only [hmiddle] <;> omega
      · have hpred : (band + (top - band + 1) / 2 - 1).toNat =
            band.toNat + (top.toNat - band.toNat + 1) / 2 - 1 := by
          have hone : (1 : UInt32).toNat = 1 := rfl
          rw [UInt32.toNat_sub_of_le _ _ (UInt32.le_iff_toNat_le.2 (by omega)), hmiddle, hone]
        refine meets_ok ⟨⟨hfits, hlow, ?_, ?_⟩, ?_⟩ <;> simp only [hpred] <;> omega
    · exact meets_ok ⟨hfits, hlow, by omega⟩
  · have hbits := UInt32.toNat_lt high
    simp only [kMaxRounds]
    omega

/-- More parts, which copy these rows and all fit. -/
structure Grown (format : EtcFormat) (fits : Region → Prop) (before after : List Region)
    (rows : List BlockRow) : Prop where
  rows : after.flatMap (blockRows format) = before.flatMap (blockRows format) ++ rows
  parts : ∀ part ∈ after, part ∈ before ∨ fits part

namespace Grown

theorem refl : Grown format fits before before [] where
  rows := (List.append_nil _).symm
  parts _ h := .inl h

theorem trans {next : List Region} (h : Grown format fits before after rows)
    (h' : Grown format fits after next more) : Grown format fits before next (rows ++ more) where
  rows := by rw [h'.rows, h.rows, List.append_assoc]
  parts part hpart := (h'.parts part hpart).elim (h.parts part) .inr

theorem snoc {part : Region} (h : Grown format fits before after rows) (hpart : fits part) :
    Grown format fits before (after ++ [part]) (rows ++ blockRows format part) where
  rows := by rw [List.flatMap_append, h.rows, List.flatMap_singleton, List.append_assoc]
  parts p hp := by
    rw [List.mem_append, List.mem_singleton] at hp
    obtain hp | rfl := hp
    · exact h.parts p hp
    · exact .inr hpart

end Grown

theorem meets_grow {ι : Type} {step : List Region → ι → Comp Unit (List Region)}
    {copied : ι → List BlockRow}
    {xs : List ι}
    (hstep : ∀ out, ∀ x ∈ xs, Meets (step out x) (Grown format fits out · (copied x)) err) :
    Meets (xs.foldlM step before) (Grown format fits before · (xs.flatMap copied)) err := by
  induction xs generalizing before with
  | nil => exact meets_pure .refl
  | cons x xs ih =>
    rw [List.foldlM_cons]
    refine meets_bind (hstep before x (List.mem_cons_self ..)) fun out hout => ?_
    refine (ih fun out y hy => hstep out y (List.mem_cons_of_mem _ hy)).mono
      (fun after hafter => ?_) fun _ h => h
    rw [List.flatMap_cons]
    exact hout.trans hafter

theorem meets_bands (hsmall : region.Small) (hlow : 1 ≤ band.toNat) (hhigh : band.toNat ≤ 2 ^ 29)
    (hfits : ∀ row < region.blocksHigh, fits (region.piece format band layer row)) :
    Meets (loop (bandRound format region band layer) kMaxRounds (0, out))
      (Grown format fits out · (layerRowsUpTo format region layer.toNat
        (ceil4 region.height.toNat))) err := by
  have hcount := blocksHigh_le hsmall
  rw [blocksHigh_toNat hsmall] at hcount
  refine meets_loop
    (fun s => s.1.toNat ≤ 2 ^ 30 ∧
      Grown format fits out s.2
        (layerRowsUpTo format region layer.toNat (min s.1.toNat (ceil4 region.height.toNat))))
    (fun s => ceil4 region.height.toNat - s.1.toNat) ?_ ⟨Nat.zero_le _, ?_⟩ ?_
  · rintro ⟨row, now⟩ ⟨hrow, hnow⟩
    simp only at hrow hnow
    rw [bandRound]
    split
    · rename_i hlt
      have hlt' : row.toNat < ceil4 region.height.toNat := by
        rw [← blocksHigh_toNat hsmall]
        exact UInt32.lt_iff_toNat_lt.1 hlt
      have hnext : (row + band).toNat = row.toNat + band.toNat := by
        rw [UInt32.toNat_add]
        omega
      have hgrown := hnow.snoc (hfits row hlt)
      have hrows : layerRowsUpTo format region layer.toNat
          (min row.toNat (ceil4 region.height.toNat)) ++
          blockRows format (region.piece format band layer row) =
          layerRowsUpTo format region layer.toNat
            (min (row + band).toNat (ceil4 region.height.toNat)) := by
        rw [blockRows_piece hsmall hhigh hlt, hnext, Nat.min_eq_left hlt'.le,
          layerRowsUpTo, ← List.map_append,
          List.range_eq_range']
        have happend := List.range'_append_1 (s := 0) (m := row.toNat)
          (n := min band.toNat (ceil4 region.height.toNat - row.toNat))
        rw [Nat.zero_add] at happend
        rw [happend, layerRowsUpTo, List.range_eq_range']
        congr 2
        omega
      rw [hrows] at hgrown
      refine meets_ok ⟨⟨?_, hgrown⟩, ?_⟩ <;> simp only [hnext] <;> omega
    · rename_i hge
      have hge' : ceil4 region.height.toNat ≤ row.toNat := by
        rw [← blocksHigh_toNat hsmall]
        exact Nat.le_of_not_lt (mt UInt32.lt_iff_toNat_lt.2 hge)
      rw [Nat.min_eq_right hge'] at hnow
      exact meets_ok hnow
  · have hzero : (0 : UInt32).toNat = 0 := rfl
    simp only [hzero, Nat.zero_min]
    exact .refl
  · simp only [kMaxRounds]
    omega

theorem toNat_ne_zero {n : UInt32} (h : n ≠ 0) : n.toNat ≠ 0 := fun h0 => h (UInt32.toNat.inj h0)

/-- What any part of a split can be: it fits, or it is a whole region of 2 ^ 64 bytes or more whose
need has wrapped around to one that fits. -/
def Fits (format : EtcFormat) (regions : List Region) (cap : UInt64) (part : Region) : Prop :=
  part.stagingNeed format ≤ cap.toNat ∨
    (part ∈ regions ∧ 2 ^ 64 ≤ part.stagingNeed format ∧
      part.need format part.blocksHigh part.layers ≤ cap)

/-- No part of the region fits, down to a single row of its blocks. -/
def RowTooLarge (format : EtcFormat) (cap : UInt64) (region : Region) : Prop :=
  ¬ region.Empty ∧ cap.toNat < region.needBytes format 1 1

theorem fits_whole {regions : List Region} (hmem : region ∈ regions) (hsmall : region.Small)
    (h : region.width = 0 ∨ region.height = 0 ∨ region.layers = 0 ∨
      region.need format region.blocksHigh region.layers ≤ cap) : Fits format
        regions cap region := by
  by_cases hempty : region.Empty
  · exact .inl (by rw [Region.stagingNeed, if_pos hempty]; exact Nat.zero_le _)
  · simp only [Region.Empty, not_or] at hempty
    obtain ⟨hwidth, hheight, hlayers⟩ := hempty
    have hneed : region.need format region.blocksHigh region.layers ≤ cap := by
      rcases h with h | h | h | h
      · exact absurd h hwidth
      · exact absurd h hheight
      · exact absurd h hlayers
      · exact h
    have hstaging : region.stagingNeed format =
        region.needBytes format region.blocksHigh.toNat region.layers.toNat := by
      rw [Region.stagingNeed, if_neg (by simp only [Region.Empty]; tauto), blocksHigh_toNat hsmall]
    have hhigh : region.blocksHigh ≠ 0 := by
      intro h0
      have hcount := blocksHigh_toNat hsmall
      have hpos := toNat_ne_zero hheight
      rw [h0, UInt32.toNat_zero, ceil4] at hcount
      omega
    rcases Nat.lt_or_ge (region.stagingNeed format) (2 ^ 64) with hlt | hge
    · rw [hstaging] at hlt
      rw [UInt64.le_iff_toNat_le, need_eq hsmall hhigh hlayers hlt, ← hstaging] at hneed
      exact .inl hneed
    · exact .inr ⟨hmem, hge, hneed⟩

theorem need_row_eq (hsmall : region.Small) {rows : UInt32} (hrows : rows ≠ 0)
    (hle : rows.toNat ≤ 2 ^ 29) :
    (region.need format rows 1).toNat = region.needBytes format rows.toNat 1 :=
  need_eq hsmall hrows (by decide) (needBytes_lt hsmall hle)

theorem meets_splitRegion {regions : List Region} (hmem : region ∈ regions)
    (hsmall : region.Small) :
    Meets (splitRegion format cap out region)
      (Grown format (Fits format regions cap) out · (blockRows format region))
      (fun _ => ∃ region ∈ regions, RowTooLarge format cap region) := by
  rw [splitRegion]
  refine meets_ite (fun h => meets_pure ?_) fun h => meets_ite (fun hrow => ?_) fun hrow => ?_
  · exact Grown.refl.snoc (fits_whole hmem hsmall h)
  · rw [UInt64.lt_iff_toNat_lt, need_row_eq hsmall (by decide) (by decide)] at hrow
    simp only [not_or] at h
    refine meets_refuse ⟨region, hmem, ?_, hrow⟩
    simp only [Region.Empty]
    tauto
  · simp only [not_or] at h
    have hcount := blocksHigh_le hsmall
    have hone : region.need format 1 1 ≤ cap := UInt64.not_lt.1 hrow
    have hpos : 1 ≤ region.blocksHigh.toNat := by
      have hheight := toNat_ne_zero h.2.1
      rw [blocksHigh_toNat hsmall, ceil4]
      omega
    refine meets_bind (meets_search (by simpa using hone) hpos) fun band hband => ?_
    obtain ⟨hfit, hlow, hhigh⟩ := hband
    have hband : band ≠ 0 := by
      rintro rfl
      exact absurd hlow (by decide)
    have hcap : region.needBytes format band.toNat 1 ≤ cap.toNat := by
      rw [← need_row_eq hsmall hband (by omega), ← UInt64.le_iff_toNat_le]
      simpa using hfit
    refine meets_grow fun out layer hlayer => ?_
    have hlayer' : layer < 2 ^ 32 := (List.mem_range.1 hlayer).trans (UInt32.toNat_lt _)
    have hbands : Meets
        (loop (bandRound format region band (UInt32.ofNat layer)) kMaxRounds (0, out))
        (Grown format (Fits format regions cap) out ·
          (layerRowsUpTo format region (UInt32.ofNat layer).toNat (ceil4 region.height.toNat)))
        (fun _ => ∃ region ∈ regions, RowTooLarge format cap region) :=
      meets_bands hsmall hlow (by omega) fun row hrow =>
        .inl ((stagingNeed_piece hsmall (by omega) hrow).trans hcap)
    rwa [UInt32.toNat_ofNat_of_lt' hlayer'] at hbands

/-- Every row of blocks of every layer is copied once and in order, from the same bytes to the same
texels, by parts that fit unless a whole region needs 2 ^ 64 bytes; a refusal is for a row that does
not fit alone. -/
theorem splitForStaging_spec (format : EtcFormat) (regions : List Region) (cap : UInt64)
    (hsmall : ∀ region ∈ regions, region.Small) :
    Meets (splitForStaging format regions cap)
      (fun out => out.flatMap (blockRows format) = regions.flatMap (blockRows format) ∧
        ∀ part ∈ out, Fits format regions cap part)
      (fun _ => ∃ region ∈ regions, RowTooLarge format cap region) := by
  have hregions : Meets (regions.foldlM (splitRegion format cap) [])
      (Grown format (Fits format regions cap) [] · (regions.flatMap (blockRows format)))
      (fun _ => ∃ region ∈ regions, RowTooLarge format cap region) :=
    meets_grow fun out region hmem => meets_splitRegion hmem (hsmall region hmem)
  rw [splitForStaging]
  refine hregions.mono (fun out hout => ⟨?_, fun part hpart => ?_⟩) fun _ h => h
  · rw [hout.rows, List.flatMap_nil, List.nil_append]
  · exact (hout.parts part hpart).elim (fun h => absurd h List.not_mem_nil) id

/-- Two layers of 512 bytes each in their buffers, split to stage 512 bytes at a time. -/
theorem splitForStaging_spec_twoLayers :
    Meets (splitForStaging .etc2Rgb8
        [{ imageSubresource := { layerCount := 2 }, imageExtent := ⟨16, 16, 1⟩ }] 512)
      (fun out => out.flatMap (blockRows .etc2Rgb8) =
          [({ imageSubresource := { layerCount := 2 },
              imageExtent := ⟨16, 16, 1⟩ } : Region)].flatMap
            (blockRows .etc2Rgb8) ∧
        ∀ part ∈ out, Fits .etc2Rgb8
          [{ imageSubresource := { layerCount := 2 }, imageExtent := ⟨16, 16, 1⟩ }] 512 part)
      (fun _ =>
        ∃ region ∈
        [({ imageSubresource := { layerCount := 2 }, imageExtent := ⟨16, 16, 1⟩ } : Region)],
        RowTooLarge .etc2Rgb8 512 region) :=
  splitForStaging_spec _ _ _ (by
    intro region hregion
    rw [List.mem_singleton] at hregion
    subst hregion
    decide)

/-- One block in each of nine layers 2 ^ 61 bytes apart: the need wraps around to 512. -/
theorem splitForStaging_wraps :
    let region : Region :=
      { bufferRowLength := 2 ^ 31, bufferImageHeight := 2 ^ 31,
        imageSubresource := { layerCount := 9 }, imageExtent := ⟨4, 4, 1⟩ }
    region.Small ∧ splitForStaging .etc2Rgb8 [region] 512 = .ok [region] ∧
      512 < region.stagingNeed .etc2Rgb8 :=
  ⟨by decide, rfl, by decide⟩

end Nightcap.Graphics.Copies
