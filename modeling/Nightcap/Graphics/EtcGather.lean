import Nightcap.Lib.Slices
import Nightcap.Graphics.EtcSplit

/-! Gathering the uploads of a plan packs their blocks, whichever way each is copied, and the plan
gives every upload its own range of the target. -/
namespace Nightcap.Graphics.Copies

open Checked Slices

variable {record : ImageRecord} {device : VkDevice} {source : VkBuffer}
  {image : VkImage} {region : Region}
  {upload : PendingUpload} {plan : Plan} {format : EtcFormat} {mem destination : List UInt8}
  {address offset layer row : Nat} {err : Unit → Prop}

/-! The blocks of a region, packed. -/

def block (mem : List UInt8) (format : EtcFormat) (region : Region)
    (address layer row column : Nat) : List UInt8 :=
  slice mem (address + (layer * region.layerBytes format + row * region.rowBytes format) +
    column * etcBlockBytes format) (etcBlockBytes format)

def packedRow (mem : List UInt8) (format : EtcFormat) (region : Region) (address layer row : Nat) :
    List UInt8 :=
  (List.range (ceil4 region.width.toNat)).flatMap (block mem format region address layer row)

def packedLayer (mem : List UInt8) (format : EtcFormat) (region : Region)
    (address layer : Nat) : List UInt8 :=
  (List.range (ceil4 region.height.toNat)).flatMap (packedRow mem format region address layer)

/-- Layer by layer, row by row, column by column. -/
def packedBlocks (mem : List UInt8) (format : EtcFormat) (region : Region)
    (address : Nat) : List UInt8 :=
  (List.range region.layers.toNat).flatMap (packedLayer mem format region address)

def Region.rowPacked (format : EtcFormat) (region : Region) : Nat :=
  ceil4 region.width.toNat * etcBlockBytes format

def Region.layerPacked (format : EtcFormat) (region : Region) : Nat :=
  ceil4 region.height.toNat * region.rowPacked format

def Region.span (format : EtcFormat) (region : Region) : Nat :=
  region.spanBytes format (ceil4 region.height.toNat) region.layers.toNat

theorem packedRow_eq (mem : List UInt8) (format : EtcFormat) (region : Region)
    (address layer row : Nat) :
    packedRow mem format region address layer row =
      slice mem (address + (layer * region.layerBytes format + row * region.rowBytes format))
        (region.rowPacked format) :=
  (slice_mul ..).symm

/-! What a plan says about an upload. -/

/-- An upload of a region as `PlanRegions` fills it in, its numbers modulo 2 ^ 64. -/
structure Planned (record : ImageRecord) (region : Region) (upload : PendingUpload) : Prop where
  width_pos : 0 < region.width.toNat
  height_pos : 0 < region.height.toNat
  layers_pos : 0 < region.layers.toNat
  wide : region.width.toNat ≤ region.rowTexels.toNat
  high : region.height.toNat ≤ region.layerRows.toNat
  height : upload.height = region.height.toNat
  layers : upload.layers = region.layers.toNat
  compressed : upload.compressed = region.layerPacked record.format * region.layers.toNat % 2 ^ 64
  rowStride : upload.sourceRowStride = region.rowBytes record.format % 2 ^ 64
  layerStride : upload.sourceLayerStride = region.layerBytes record.format % 2 ^ 64
  span : upload.sourceSpan = region.span record.format % 2 ^ 64

theorem toUInt64_toUInt32_ceil4 (n : UInt32) :
    (n.toUInt64 + 3) / 4 = UInt64.ofNat (ceil4 n.toNat) := by
  have h :=
    toUInt64_ceil4 (n := n.toUInt64) (by rw [UInt32.toNat_toUInt64]; exact UInt32.toNat_lt n)
  rwa [UInt32.toNat_toUInt64] at h

theorem ofNat_pred {n : Nat} (h : 0 < n) : UInt64.ofNat n - 1 = UInt64.ofNat (n - 1) := by
  rw [UInt64.ofNat_sub (by omega)]
  rfl

theorem planRegion_planned {total : UInt64} {copy : Region}
    (h : planRegion record device source image total region = some (copy, upload)) :
    Planned record region upload ∧ upload.targetOffset = total.toNat ∧
      upload.targetBytes < 2 ^ 64 := by
  rw [planRegion, Option.bind_eq_bind, Option.bind_eq_some_iff] at h
  obtain ⟨⟨compressed, decoded⟩, hcounts, h⟩ := h
  rw [etc2UploadByteCounts] at hcounts
  split at hcounts
  · cases hcounts
  rename_i hpos
  simp only [not_or] at hpos
  simp only [Option.some.injEq, Prod.mk.injEq] at hcounts
  simp only at h
  split at h
  · cases h
  split at h
  · cases h
  rename_i hfit
  simp only [not_or, UInt64.not_lt, UInt64.le_iff_toNat_le, UInt32.toNat_toUInt64] at hfit
  have hplanned (u : PendingUpload) (hheight : u.height = region.height.toNat)
      (hlayers : u.layers = region.layers.toNat) (hcompressed : u.compressed = compressed.toNat)
      (hrow : u.sourceRowStride = (region.rowStride record.format).toNat)
      (hlayer : u.sourceLayerStride = (region.layerStride record.format).toNat)
      (hspan : u.sourceSpan =
        ((region.layers - 1).toUInt64 * region.layerStride record.format +
          ((region.height.toUInt64 + 3) / 4 - 1) * region.rowStride record.format +
          (region.width.toUInt64 + 3) / 4 * blockBytes record.format).toNat) :
      Planned record region u := by
    have hheightPos : 0 < region.height.toNat := Nat.pos_of_ne_zero (toNat_ne_zero hpos.2.1)
    have hceil : 0 < ceil4 region.height.toNat := by
      simp only [ceil4]
      omega
    refine ⟨Nat.pos_of_ne_zero (toNat_ne_zero hpos.1), hheightPos,
      Nat.pos_of_ne_zero (toNat_ne_zero hpos.2.2.2), hfit.1, hfit.2, hheight,
      hlayers, ?_, ?_, ?_, ?_⟩
    · rw [hcompressed, ← hcounts.1]
      change ((region.width.toUInt64 + 3) / 4 * ((region.height.toUInt64 + 3) / 4) * _ * _).toNat =
        _
      rw [toUInt64_toUInt32_ceil4, toUInt64_toUInt32_ceil4, blockBytes, ← UInt64.ofNat_uInt32ToNat,
        ← UInt64.ofNat_mul, ← UInt64.ofNat_mul, ← UInt64.ofNat_mul,
        UInt64.toNat_ofNat', Region.layerPacked,
        Region.rowPacked]
      congr 1
      ring
    · rw [hrow, rowStride_eq, UInt64.toNat_ofNat']
    · rw [hlayer, layerStride_eq, UInt64.toNat_ofNat']
    · rw [hspan, pred_toUInt64 hpos.2.2.2, toUInt64_toUInt32_ceil4,
        toUInt64_toUInt32_ceil4, ofNat_pred hceil,
        layerStride_eq, rowStride_eq, blockBytes, ← UInt64.ofNat_mul,
        ← UInt64.ofNat_mul, ← UInt64.ofNat_mul,
        ← UInt64.ofNat_add, ← UInt64.ofNat_add, UInt64.toNat_ofNat', Region.span, Region.spanBytes]
  split at h
  · simp only [Option.bind_eq_bind, Option.bind_eq_some_iff, Option.pure_def, Option.some.injEq,
      Prod.mk.injEq] at h
    obtain ⟨x, hx, y, hy, hcopy, rfl⟩ := h
    exact ⟨hplanned _ rfl rfl rfl rfl rfl rfl, rfl, UInt64.toNat_lt _⟩
  · simp only [Option.pure_def, Option.some.injEq, Prod.mk.injEq] at h
    obtain ⟨hcopy, rfl⟩ := h
    exact ⟨hplanned _ rfl rfl rfl rfl rfl rfl, rfl, UInt64.toNat_lt _⟩

/-- Where a row of blocks ends. -/
theorem row_le_span (hlayer : layer < region.layers.toNat)
    (hrow : row < ceil4 region.height.toNat) :
    layer * region.layerBytes format + row * region.rowBytes format + region.rowPacked format ≤
      region.span format := by
  have h1 : layer * region.layerBytes format ≤
      (region.layers.toNat - 1) * region.layerBytes format := Nat.mul_le_mul_right _ (by omega)
  have h2 : row * region.rowBytes format ≤
      (ceil4 region.height.toNat - 1) * region.rowBytes format := Nat.mul_le_mul_right _ (by omega)
  rw [Region.span, Region.spanBytes, ← Region.rowPacked]
  omega

namespace Planned

variable (h : Planned record region upload)

include h

theorem rowPacked_le : region.rowPacked record.format ≤ region.rowBytes record.format := by
  have hwide := h.wide
  refine Nat.mul_le_mul_right _ ?_
  simp only [ceil4]
  omega

theorem layerPacked_le : region.layerPacked record.format ≤ region.layerBytes record.format := by
  have hhigh := h.high
  rw [Region.layerPacked, Region.layerBytes, Nat.mul_comm]
  refine Nat.mul_le_mul h.rowPacked_le ?_
  simp only [ceil4]
  omega

theorem ceil4_pos : 0 < ceil4 region.height.toNat := by
  have hpos := h.height_pos
  simp only [ceil4]
  omega

/-- The packed blocks and the span, layer by layer and row by row. -/
theorem packed_eq : region.layerPacked record.format * region.layers.toNat =
    (region.layers.toNat - 1) * region.layerPacked record.format +
      (ceil4 region.height.toNat - 1) * region.rowPacked record.format +
        region.rowPacked record.format := by
  obtain ⟨l, hl⟩ := Nat.exists_eq_add_of_lt h.layers_pos
  obtain ⟨r, hr⟩ := Nat.exists_eq_add_of_lt h.ceil4_pos
  rw [Region.layerPacked, hl, hr]
  simp only [Nat.zero_add, Nat.add_sub_cancel]
  ring

theorem packed_le_span :
    region.layerPacked record.format * region.layers.toNat ≤ region.span record.format := by
  have h1 := Nat.mul_le_mul_left (region.layers.toNat - 1) h.layerPacked_le
  have h2 := Nat.mul_le_mul_left (ceil4 region.height.toNat - 1) h.rowPacked_le
  rw [h.packed_eq, Region.span, Region.spanBytes, ← Region.rowPacked]
  omega

/-- A span as long as the packed blocks leaves no padding between rows, nor between layers. -/
theorem unpadded
    (hspan : region.span record.format = region.layerPacked record.format * region.layers.toNat)
    (hlayer : layer < region.layers.toNat) (hrow : row < ceil4 region.height.toNat) :
    layer * region.layerBytes record.format + row * region.rowBytes record.format =
      layer * region.layerPacked record.format + row * region.rowPacked record.format := by
  have h1 := Nat.mul_le_mul_left (region.layers.toNat - 1) h.layerPacked_le
  have h2 := Nat.mul_le_mul_left (ceil4 region.height.toNat - 1) h.rowPacked_le
  rw [h.packed_eq, Region.span, Region.spanBytes, ← Region.rowPacked] at hspan
  have hlayers : layer * region.layerBytes record.format =
      layer * region.layerPacked record.format := by
    rcases Nat.eq_zero_or_pos layer with rfl | hpos
    · rw [Nat.zero_mul, Nat.zero_mul]
    · rw [Nat.eq_of_mul_eq_mul_left (show 0 < region.layers.toNat - 1 by omega)
        (show (region.layers.toNat - 1) * region.layerBytes record.format =
          (region.layers.toNat - 1) * region.layerPacked record.format by omega)]
  have hrows : row * region.rowBytes record.format = row * region.rowPacked record.format := by
    rcases Nat.eq_zero_or_pos row with rfl | hpos
    · rw [Nat.zero_mul, Nat.zero_mul]
    · rw [Nat.eq_of_mul_eq_mul_left (show 0 < ceil4 region.height.toNat - 1 by omega)
        (show (ceil4 region.height.toNat - 1) * region.rowBytes record.format =
          (ceil4 region.height.toNat - 1) * region.rowPacked record.format by omega)]
  rw [hlayers, hrows]

/-! Numbers below 2 ^ 64 are what the plan holds. -/

variable (hexact : region.span record.format < 2 ^ 64)

include hexact

theorem span_eq : upload.sourceSpan = region.span record.format := by
  rw [h.span, Nat.mod_eq_of_lt hexact]

theorem compressed_eq :
    upload.compressed = region.layerPacked record.format * region.layers.toNat := by
  rw [h.compressed, Nat.mod_eq_of_lt (h.packed_le_span.trans_lt hexact)]

theorem compressedLayer_eq :
    upload.compressed / upload.layers = region.layerPacked record.format := by
  rw [h.compressed_eq hexact, h.layers, Nat.mul_div_cancel _ h.layers_pos]

theorem packedRow_eq : upload.compressed / upload.layers / ((upload.height + 3) / 4) =
    region.rowPacked record.format := by
  have hrows : (upload.height + 3) / 4 = ceil4 region.height.toNat := by rw [h.height, ceil4]
  rw [h.compressedLayer_eq hexact, hrows, Region.layerPacked, Nat.mul_div_cancel_left _ h.ceil4_pos]

theorem rowOffset_eq (hlayer : layer < region.layers.toNat)
    (hrow : row < ceil4 region.height.toNat) :
    (layer * upload.sourceLayerStride + row * upload.sourceRowStride) % 2 ^ 64 =
      layer * region.layerBytes record.format + row * region.rowBytes record.format := by
  have hle : layer * region.layerBytes record.format + row * region.rowBytes record.format +
      region.rowPacked record.format ≤ region.span record.format := row_le_span hlayer hrow
  rw [h.layerStride, h.rowStride, Nat.add_mod, Nat.mul_mod_mod, Nat.mul_mod_mod, ← Nat.add_mod,
    Nat.mod_eq_of_lt (by omega)]

end Planned

/-! Both ways of gathering. -/

theorem meets_copy {source : View} {i bytes : Nat} (hread : i + bytes ≤ source.size)
    (hview : source.base + source.size ≤ mem.length) (hroom : offset + bytes ≤ destination.length) :
    Meets (copyHostVisibleMemory mem source i bytes offset destination)
      (· = overwrite destination offset (slice mem (source.base + i) bytes)) err := by
  refine meets_bind (meets_bytesAt_eq hview hread) fun read hbytes => ?_
  rw [if_pos hroom]
  refine meets_pure ?_
  have hlen : (slice mem (source.base + i) bytes).length = bytes := length_slice (by omega)
  rw [overwrite, hlen, hbytes]
  rfl

section

variable (h : Planned record region upload) (hexact : region.span record.format < 2 ^ 64)
  (hsource : address + upload.sourceSpan ≤ mem.length)

include h hexact hsource

theorem length_packedRow (hlayer : layer < region.layers.toNat)
    (hrow : row < ceil4 region.height.toNat) :
    (packedRow mem record.format region address layer row).length =
      region.rowPacked record.format := by
  have hspan := h.span_eq hexact
  have hle : layer * region.layerBytes record.format + row * region.rowBytes record.format +
      region.rowPacked record.format ≤ region.span record.format := row_le_span hlayer hrow
  rw [packedRow_eq]
  exact length_slice (by omega)

theorem length_packedLayer (hlayer : layer < region.layers.toNat) :
    (packedLayer mem record.format region address layer).length =
      region.layerPacked record.format :=
  length_pieces fun _ hrow => length_packedRow h hexact hsource hlayer hrow

theorem length_packedBlocks :
    (packedBlocks mem record.format region address).length = upload.compressed := by
  rw [h.compressed_eq hexact, Nat.mul_comm]
  exact length_pieces fun _ hlayer => length_packedLayer h hexact hsource hlayer

variable (hroom : offset + upload.compressed ≤ destination.length)

include hroom

theorem meets_gatherRows :
    Meets (gatherRows mem ⟨address, upload.sourceSpan⟩ upload offset destination)
      (· = overwrite destination offset (packedBlocks mem record.format region address)) err := by
  have hspan := h.span_eq hexact
  have hlayerEq := h.compressedLayer_eq hexact
  have hrows : (upload.height + 3) / 4 = ceil4 region.height.toNat := by rw [h.height, ceil4]
  rw [gatherRows, h.packedRow_eq hexact, hrows, h.layers]
  rw [h.compressed_eq hexact, Nat.mul_comm] at hroom
  refine meets_overwrites (fun _ hlayer => length_packedLayer h hexact hsource hlayer) ?_ hroom
  intro layer hlayer ys hys
  have hfit : (layer + 1) * region.layerPacked record.format ≤
      region.layers.toNat * region.layerPacked record.format := Nat.mul_le_mul_right _ hlayer
  rw [Nat.succ_mul] at hfit
  refine meets_overwrites (fun _ hrow => length_packedRow h hexact hsource hlayer hrow) ?_ ?_
  · intro row hrow zs hzs
    have hle : layer * region.layerBytes record.format + row * region.rowBytes record.format +
      region.rowPacked record.format ≤ region.span record.format := row_le_span hlayer hrow
    have hin : (row + 1) * region.rowPacked record.format ≤ region.layerPacked record.format :=
      Nat.mul_le_mul_right _ hrow
    rw [Nat.succ_mul] at hin
    rw [gatherRow, hlayerEq, h.rowOffset_eq hexact hlayer hrow, packedRow_eq]
    exact meets_copy (by rw [hspan]; exact hle) hsource (by omega)
  · change offset + layer * region.layerPacked record.format +
      region.layerPacked record.format ≤ ys.length
    omega

theorem meets_gatherWhole (hwhole : upload.sourceSpan = upload.compressed) :
    Meets (gatherWhole mem ⟨address, upload.sourceSpan⟩ upload offset destination)
      (· = overwrite destination offset (packedBlocks mem record.format region address)) err := by
  have hspan : region.span record.format = region.layerPacked record.format *
      region.layers.toNat := by
    rw [← h.span_eq hexact, hwhole, h.compressed_eq hexact]
  have hpacked : packedBlocks mem record.format region address =
      slice mem address upload.compressed := by
    rw [h.compressed_eq hexact, Nat.mul_comm, slice_mul, packedBlocks]
    refine List.flatMap_congr fun layer hlayer => ?_
    rw [List.mem_range] at hlayer
    rw [Region.layerPacked, slice_mul, packedLayer]
    refine List.flatMap_congr fun row hrow => ?_
    rw [List.mem_range] at hrow
    rw [packedRow_eq, h.unpadded hspan hlayer hrow, Region.layerPacked, Nat.add_assoc]
  rw [hpacked]
  exact meets_copy (by rw [hwhole, Nat.zero_add]) hsource hroom

end

/-! Runs. -/

variable {regions : List Region} {uploads : List PendingUpload} {sources : List Nat}

/-- The blocks of all regions, one after the other. -/
def packedUploads (mem : List UInt8) (format : EtcFormat)
    (regions : List Region) (sources : List Nat) :
    List UInt8 :=
  (regions.zip sources).flatMap fun x => packedBlocks mem format x.1 x.2

theorem meets_gatherUpload (h : Planned record region upload)
    (hexact : region.span record.format < 2 ^ 64)
    (hsource : address + upload.sourceSpan ≤ mem.length)
    (hroom : offset + upload.compressed ≤ destination.length) :
    Meets (gatherUpload mem (offset, destination) (upload, address))
      (fun s => s.1 = offset + upload.compressed ∧
        s.2 = overwrite destination offset
          (packedBlocks mem record.format region address)) err := by
  rw [gatherUpload]
  refine meets_ite (fun hwhole => ?_) fun _ => ?_
  · exact meets_bind (meets_gatherWhole h hexact hsource hroom hwhole) fun copied hpacked =>
      meets_pure ⟨rfl, hpacked⟩
  · exact meets_bind (meets_gatherRows h hexact hsource hroom) fun copied hpacked =>
      meets_pure ⟨rfl, hpacked⟩

theorem meets_gather (h : List.Forall₂ (Planned record) regions uploads)
    (hexact : ∀ region ∈ regions, region.span record.format < 2 ^ 64)
    (hlength : sources.length = regions.length)
    (hsource : ∀ x ∈ uploads.zip sources, x.2 + x.1.sourceSpan ≤ mem.length)
    (hroom : offset + (uploads.map (·.compressed)).sum ≤ destination.length) :
    Meets ((uploads.zip sources).foldlM (gatherUpload mem) (offset, destination))
      (fun s =>
        s.2 = overwrite destination offset (packedUploads mem record.format regions sources)) err ∧
      (packedUploads mem record.format regions sources).length =
      (uploads.map (·.compressed)).sum := by
  induction h generalizing sources offset destination with
  | nil => exact ⟨meets_pure (by simp [packedUploads]), rfl⟩
  | @cons region upload regions uploads hfirst hrest ih =>
    obtain ⟨address, sources, rfl⟩ := List.exists_cons_of_length_eq_add_one hlength
    rw [List.map_cons, List.sum_cons] at hroom ⊢
    have hspan := hexact region (List.mem_cons_self ..)
    have hbound : address + upload.sourceSpan ≤ mem.length :=
      hsource (upload, address) (List.mem_cons_self ..)
    have hpacked := length_packedBlocks hfirst hspan hbound
    have hcons : packedUploads mem record.format (region :: regions) (address :: sources) =
        packedBlocks mem record.format region address ++
          packedUploads mem record.format regions sources := by
      rw [packedUploads, List.zip_cons_cons, List.flatMap_cons]
      rfl
    have hlater {off : Nat} {written : List UInt8}
        (hroom : off + (uploads.map (·.compressed)).sum ≤ written.length) :=
      ih (fun r hr => hexact r (List.mem_cons_of_mem _ hr)) (by simpa using hlength)
        (fun x hx => hsource x (List.mem_cons_of_mem _ hx)) hroom
    have hsize := (@hlater (offset + upload.compressed) destination (by omega)).2
    refine ⟨?_, by rw [hcons, List.length_append, hpacked, hsize]⟩
    rw [List.zip_cons_cons, List.foldlM_cons]
    refine meets_bind (meets_gatherUpload hfirst hspan hbound (by omega)) fun s hs => ?_
    obtain ⟨off, written⟩ := s
    obtain ⟨rfl, rfl⟩ := hs
    have hlen :
        (overwrite destination offset (packedBlocks mem record.format region address)).length =
        destination.length := length_overwrite (by omega)
    refine (hlater (by omega)).1.mono (fun t ht => ?_) fun _ he => he
    rw [ht, hcons, ← hpacked]
    exact overwrite_overwrite (by omega)

/-- Each range begins where the one before ends. -/
def Consecutive : Nat → List PendingUpload → Prop
  | _, [] => True
  | start, upload :: uploads =>
    upload.targetOffset = start ∧ Consecutive (start + upload.targetBytes) uploads

theorem Consecutive.le_of_mem {start : Nat} (h : Consecutive start uploads)
    (hmem : upload ∈ uploads) :
    start ≤ upload.targetOffset := by
  induction uploads generalizing start with
  | nil => cases hmem
  | cons first uploads ih =>
    obtain ⟨hstart, hrest⟩ := h
    rw [List.mem_cons] at hmem
    obtain rfl | hmem := hmem
    · exact hstart.ge
    · exact (Nat.le_add_right ..).trans (ih hrest hmem)

theorem Consecutive.disjoint {start : Nat} (h : Consecutive start uploads) :
    uploads.Pairwise fun a b => a.targetOffset + a.targetBytes ≤ b.targetOffset := by
  induction uploads generalizing start with
  | nil => exact .nil
  | cons first uploads ih =>
    obtain ⟨hstart, hrest⟩ := h
    refine .cons (fun later hlater => ?_) (ih hrest)
    rw [hstart]
    exact hrest.le_of_mem hlater

theorem planRegions_run {after : Plan}
    (h : regions.foldlM (Plan.add record device source image) plan = some after) :
    ∃ added, after.uploads = plan.uploads ++ added ∧ List.Forall₂ (Planned record) regions added ∧
      (plan.total.toNat + (added.map (·.targetBytes)).sum < 2 ^ 64 →
        Consecutive plan.total.toNat added) := by
  induction regions generalizing plan with
  | nil =>
    simp only [List.foldlM_nil, Option.pure_def, Option.some.injEq] at h
    exact ⟨[], by rw [h, List.append_nil], .nil, fun _ => trivial⟩
  | cons region regions ih =>
    rw [List.foldlM_cons, Option.bind_eq_bind, Option.bind_eq_some_iff] at h
    obtain ⟨next, hnext, h⟩ := h
    simp only [Plan.add, Option.bind_eq_bind, Option.bind_eq_some_iff, Option.pure_def,
      Option.some.injEq] at hnext
    obtain ⟨⟨copy, upload⟩, hregion, rfl⟩ := hnext
    obtain ⟨hplanned, hoffset, hbytes⟩ := planRegion_planned hregion
    obtain ⟨added, huploads, hrest, hconsecutive⟩ := ih h
    refine ⟨upload :: added, by simp [huploads], .cons hplanned hrest, fun htotal => ?_⟩
    rw [List.map_cons, List.sum_cons] at htotal
    have hnext : (plan.total + UInt64.ofNat upload.targetBytes).toNat =
        plan.total.toNat + upload.targetBytes := by
      rw [UInt64.toNat_add, UInt64.toNat_ofNat_of_lt' hbytes, Nat.mod_eq_of_lt (by omega)]
    simp only [hnext] at hconsecutive
    exact ⟨hoffset, hconsecutive (by omega)⟩

theorem planRegions_planned (h : planRegions record device source image regions = some plan) :
    List.Forall₂ (Planned record) regions plan.uploads ∧
      ((plan.uploads.map (·.targetBytes)).sum < 2 ^ 64 → Consecutive 0 plan.uploads) := by
  rw [planRegions] at h
  split at h
  · cases h
  obtain ⟨added, huploads, hplanned, hconsecutive⟩ := planRegions_run h
  rw [List.nil_append] at huploads
  rw [huploads]
  refine ⟨hplanned, fun htotal => hconsecutive ?_⟩
  change 0 + _ < _
  rwa [Nat.zero_add]

theorem exists_planned (h : List.Forall₂ (Planned record) regions uploads)
    (hmem : upload ∈ uploads) :
    ∃ region ∈ regions, Planned record region upload := by
  induction h with
  | nil => cases hmem
  | cons hfirst hrest ih =>
    rw [List.mem_cons] at hmem
    obtain rfl | hmem := hmem
    · exact ⟨_, List.mem_cons_self .., hfirst⟩
    · obtain ⟨region, hregion, hplanned⟩ := ih hmem
      exact ⟨region, List.mem_cons_of_mem _ hregion, hplanned⟩

theorem gatherCompressed_eq (h : List.Forall₂ (Planned record) regions uploads)
    (hexact : ∀ region ∈ regions, region.span record.format < 2 ^ 64)
    (hlength : sources.length = regions.length)
    (hsource : ∀ x ∈ uploads.zip sources, x.2 + x.1.sourceSpan ≤ mem.length)
    (hroom : (uploads.map (·.compressed)).sum ≤ destination.length) :
    gatherCompressed mem uploads sources destination =
      .ok (overwrite destination 0 (packedUploads mem record.format regions sources)) := by
  have hrun : Meets (gatherCompressed mem uploads sources destination)
      (· = overwrite destination 0 (packedUploads mem record.format regions sources)) fun _ =>
        False := by
    rw [gatherCompressed]
    exact meets_bind (meets_gather h hexact hlength hsource (by omega)).1 fun s hs => meets_pure hs
  obtain ⟨written, hok, rfl⟩ := hrun.ok
  exact hok

theorem gatherRows_eq_gatherWhole (h : Planned record region upload)
    (hexact : region.span record.format < 2 ^ 64)
    (hsource : address + upload.sourceSpan ≤ mem.length)
    (hwhole : upload.sourceSpan = upload.compressed)
    (hroom : offset + upload.compressed ≤ destination.length) :
    gatherRows mem ⟨address, upload.sourceSpan⟩ upload offset destination =
      gatherWhole mem ⟨address, upload.sourceSpan⟩ upload offset destination := by
  obtain ⟨byRows, hrows, rfl⟩ := Meets.ok (meets_gatherRows h hexact hsource hroom)
  obtain ⟨whole, hone, rfl⟩ := Meets.ok (meets_gatherWhole h hexact hsource hroom hwhole)
  rw [hrows, hone]

/-- Uploads whose spans are below 2 ^ 64 bytes are read inside them and packed, the same way by
either path; and target ranges whose sizes sum up to less than 2 ^ 64 follow each other. -/
theorem gatherCompressed_spec (h : planRegions record device source image regions = some plan) :
    ((∀ region ∈ regions, region.span record.format < 2 ^ 64) →
      ∀ (mem : List UInt8) (sources : List Nat) (destination : List UInt8),
        sources.length = regions.length →
        (∀ x ∈ plan.uploads.zip sources, x.2 + x.1.sourceSpan ≤ mem.length) →
        ((plan.uploads.map (·.compressed)).sum ≤ destination.length →
          gatherCompressed mem plan.uploads sources destination =
            .ok (overwrite destination 0 (packedUploads mem record.format regions sources))) ∧
        ∀ x ∈ plan.uploads.zip sources, x.1.sourceSpan = x.1.compressed →
          ∀ offset, offset + x.1.compressed ≤ destination.length →
            gatherRows mem ⟨x.2, x.1.sourceSpan⟩ x.1 offset destination =
              gatherWhole mem ⟨x.2, x.1.sourceSpan⟩ x.1 offset destination) ∧
      ((plan.uploads.map (·.targetBytes)).sum < 2 ^ 64 →
        Consecutive 0 plan.uploads ∧
          plan.uploads.Pairwise fun a b => a.targetOffset + a.targetBytes ≤ b.targetOffset) := by
  obtain ⟨hplanned, hconsecutive⟩ := planRegions_planned h
  refine ⟨fun hexact mem sources destination hlength hsource =>
      ⟨fun hroom => gatherCompressed_eq hplanned hexact hlength hsource hroom, ?_⟩,
    fun htotal => ⟨hconsecutive htotal, (hconsecutive htotal).disjoint⟩⟩
  rintro ⟨upload, address⟩ hx hwhole offset hroom
  obtain ⟨region, hmem, hregion⟩ := exists_planned hplanned (List.of_mem_zip hx).1
  exact gatherRows_eq_gatherWhole hregion (hexact region hmem) (hsource _ hx) hwhole hroom

/-- A padded region of four blocks, and one of a single block. -/
theorem gatherCompressed_spec_padded :
    let record : ImageRecord := { format := .etc2Rgb8, width := 8, height := 8 }
    let regions : List Region :=
      [{ bufferRowLength := 12, imageExtent := ⟨5, 8, 1⟩ }, { imageExtent := ⟨4, 4, 1⟩ }]
    let mem := (List.range 40).map UInt8.ofNat
    ∃ plan, planRegions record 0 0 0 regions = some plan ∧
      gatherCompressed mem plan.uploads [0, 24] (List.replicate 40 0) =
        .ok (overwrite (List.replicate 40 0) 0 (packedUploads mem .etc2Rgb8 regions [0, 24])) ∧
      Consecutive 0 plan.uploads := by
  intro record regions mem
  have h := @gatherCompressed_spec record 0 0 0 _ regions rfl
  exact ⟨_, rfl, (h.1 (by decide) mem [0, 24] (List.replicate 40 0) rfl (by decide)).1 (by decide),
    (h.2 (by decide)).1⟩

/-- Sizes that wrap around: the third range is the first one again, and 2 ^ 64 bytes of blocks are
gathered as none. -/
theorem gatherCompressed_wraps :
    let record : ImageRecord := { format := .etc2Rgb8, width := 2 ^ 30, height := 2 ^ 30 }
    let region (layers : UInt32) : Region :=
      { imageSubresource := { layerCount := layers }, imageExtent := ⟨2 ^ 30, 2 ^ 30, 1⟩ }
    (∃ plan, planRegions record 0 0 0 [region 2, region 2, region 2] = some plan ∧
      plan.uploads.map (fun upload => (upload.targetOffset, upload.targetBytes)) =
        [(0, 2 ^ 63), (2 ^ 63, 2 ^ 63), (0, 2 ^ 63)]) ∧
    ∃ plan, planRegions record 0 0 0 [region 32] = some plan ∧
      plan.uploads.map (fun upload => (upload.sourceSpan, upload.compressed)) = [(0, 0)] ∧
      gatherCompressed (List.replicate 8 1) plan.uploads [0] [0] = .ok [0] ∧
      1 ∈ packedUploads (List.replicate 8 1) .etc2Rgb8 [region 32] [0] := by
  intro record region
  refine ⟨⟨_, rfl, by decide⟩, _, rfl, by decide, by decide, ?_⟩
  have hblock : (1 : UInt8) ∈ block (List.replicate 8 1) .etc2Rgb8 (region 32) 0 0 0 0 := by decide
  refine List.mem_flatMap.2 ⟨(region 32, 0), List.mem_singleton_self _, ?_⟩
  refine List.mem_flatMap.2 ⟨0, List.mem_range.2 (by decide), ?_⟩
  refine List.mem_flatMap.2 ⟨0, List.mem_range.2 (by decide), ?_⟩
  exact List.mem_flatMap.2 ⟨0, List.mem_range.2 (by decide), hblock⟩

end Nightcap.Graphics.Copies
