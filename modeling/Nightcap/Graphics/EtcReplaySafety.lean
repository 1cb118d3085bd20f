import Nightcap.Graphics.EtcReplay
import Nightcap.Graphics.EtcKeptBlocks

/-! The parallel replay of a submit's uploads and block copies leaves what one upload or copy at a
time leaves, in the order in which they were recorded. -/
namespace Nightcap.Graphics.Replay

open Slices Interleave ConflictFree Transition
open Kept hiding emitUpload fillBlockCopy Event

variable {m m' m'' : Store} {job a b : EmitJob} {upload : PendingUpload}
  {copy : BlockCopy} {jobs : List EmitJob}
  {copies : List BlockCopy} {target : Target} {scaleRgba : ScaleRgba}
  {workerCount : Nat} {image : Image}
  {handle : VkImage} {mip : Nat} {bytes : Bytes} {p : Program Store}

/-! The store as cells: the kept blocks of each mip, and each byte of staging. -/

inductive Cell
  | kept (handle : VkImage) (mip : Nat)
  | byte (pointer : Pointer)

def Cell.Value : Cell → Type
  | kept _ _ => Option (Image × Option Bytes)
  | byte _ => UInt8

/-- An image but for its kept blocks. -/
def bare (image : Image) : Image := { image with blocks := fun _ => none }

def mipOf (images : Images) (handle : VkImage) (mip : Nat) : Option (Image × Option Bytes) :=
  (images handle).map fun image => (bare image, image.blocks mip)

def Store.get (m : Store) : (k : Cell) → k.Value
  | .kept handle mip => mipOf m.images handle mip
  | .byte pointer => m.staging pointer

theorem bare_eq {image' : Image} (h : bare image = bare image')
    (hblocks : image.blocks = image'.blocks) :
    image = image' := by
  cases image
  cases image'
  cases hblocks
  simp only [bare, Image.mk.injEq] at h
  obtain ⟨rfl, rfl, -⟩ := h
  rfl

/-- A store is known from its cells. -/
theorem get_ext (m m' : Store) (h : ∀ k, m.get k = m'.get k) : m = m' := by
  obtain ⟨images, staging⟩ := m
  obtain ⟨images', staging'⟩ := m'
  have hstaging : staging = staging' := funext fun pointer => h (.byte pointer)
  have himages : images = images' := by
    funext handle
    have hmip (mip : Nat) : mipOf images handle mip = mipOf images' handle mip :=
      h (.kept handle mip)
    have hzero := hmip 0
    cases hfound : images handle with
    | none =>
      rw [mipOf, hfound, Option.map_none] at hzero
      exact (Option.map_eq_none_iff.1 hzero.symm).symm
    | some image =>
      rw [mipOf, hfound, Option.map_some] at hzero
      obtain ⟨image', hfound', heq⟩ := Option.map_eq_some_iff.1 hzero.symm
      rw [hfound', Option.some_inj]
      refine bare_eq (Prod.mk.inj heq).1.symm (funext fun mip => ?_)
      have hat := hmip mip
      rw [mipOf, mipOf, hfound, hfound', Option.map_some, Option.map_some, Option.some_inj] at hat
      exact (Prod.mk.inj hat).2
  rw [hstaging, himages]

/-! Footprints of the parts. -/

section Footprints

variable {reads writes : Set Cell}

/-- A byte of staging is written without reading any cell. -/
theorem local_write {pointer : Pointer} {byte : UInt8} (h : .byte pointer ∈ writes) :
    Local Store.get reads writes fun m => m.write pointer byte := by
  intro m m' _ k
  cases k with
  | kept handle mip => exact .inl ⟨rfl, rfl⟩
  | byte pointer' =>
    rcases eq_or_ne pointer' pointer with rfl | hne
    · refine .inr ⟨h, ?_⟩
      change Function.update m.staging pointer' byte pointer' =
        Function.update m'.staging pointer' byte pointer'
      rw [Function.update_self, Function.update_self]
    · exact .inl ⟨Function.update_of_ne hne .., Function.update_of_ne hne ..⟩

/-- Stores into a mapped range write the bytes of the range. -/
theorem within_storing {start : Option Pointer} {stores : List (Nat × UInt8)}
    (hstores : ∀ w ∈ stores, ∀ t, start = some t → .byte (pointerAt t w.1) ∈ writes)
    (hp : Within Store.get reads writes p) :
    Within Store.get reads writes (storing start stores p) := by
  induction stores with
  | nil => exact hp
  | cons w stores ih =>
    rw [List.forall_mem_cons] at hstores
    refine .act ?_ (fun _ _ _ => rfl) fun _ => ih hstores.2
    cases start with
    | none => exact Local.id
    | some t => exact local_write (hstores.1 t rfl)

/-- A change of a mip's blocks that depends on its image and on these blocks. -/
def Steady (mip : Nat) (f : Image → Option Bytes) : Prop :=
  ∀ image image', bare image = bare image' → image.blocks mip = image'.blocks mip →
    f image = f image'

theorem mipOf_modify_self {images : Images} {f : Image → Option Bytes} :
    mipOf (images.modify handle mip f) handle mip = (images handle).map fun image =>
      (bare image, f image) := by
  cases himage : images handle with
  | none => rw [mipOf, modify_none himage, himage, Option.map_none, Option.map_none]
  | some image =>
    rw [mipOf, modify_self himage, Option.map_some, Option.map_some]
    simp only [Function.update_self]
    rfl

theorem mipOf_modify_of_ne {images : Images} {f : Image → Option Bytes}
    {handle' : VkImage} {mip' : Nat}
    (h : handle' = handle → mip' ≠ mip) :
    mipOf (images.modify handle mip f) handle' mip' = mipOf images handle' mip' := by
  rcases eq_or_ne handle' handle with rfl | hne
  · cases himage : images handle' with
    | none => rw [modify_none himage]
    | some image =>
      rw [mipOf, mipOf, modify_self himage, himage, Option.map_some, Option.map_some]
      simp only [Function.update_of_ne (h rfl)]
      rfl
  · rw [mipOf, mipOf, modify_other hne]

/-- A change of one mip's blocks reads and writes that mip's cell only. -/
theorem local_modify {f : Image → Option Bytes} (hf : Steady mip f)
    (hreads : .kept handle mip ∈ reads)
    (hwrites : .kept handle mip ∈ writes) :
    Local Store.get reads writes fun m => m.keep fun images => images.modify handle mip f := by
  intro m m' hm k
  cases k with
  | byte pointer => exact .inl ⟨rfl, rfl⟩
  | kept handle' mip' =>
    by_cases h : handle' = handle ∧ mip' = mip
    · obtain ⟨rfl, rfl⟩ := h
      refine .inr ⟨hwrites, ?_⟩
      change mipOf (m.images.modify handle' mip' f) handle' mip' = mipOf
        (m'.images.modify handle' mip' f) handle' mip'
      rw [mipOf_modify_self, mipOf_modify_self]
      have hcell : mipOf m.images handle' mip' = mipOf m'.images handle' mip' := hm _ hreads
      unfold mipOf at hcell
      cases himage : m.images handle' with
      | none =>
        rw [himage, Option.map_none] at hcell
        rw [Option.map_eq_none_iff.1 hcell.symm]
      | some image =>
        rw [himage, Option.map_some] at hcell
        obtain ⟨image', himage', heq⟩ := Option.map_eq_some_iff.1 hcell.symm
        obtain ⟨hbare, hblocks⟩ := Prod.mk.inj heq
        rw [himage', Option.map_some, Option.map_some, hbare, hf image' image hbare hblocks]
    · exact .inl ⟨mipOf_modify_of_ne fun hhandle hmip => h ⟨hhandle, hmip⟩,
        mipOf_modify_of_ne fun hhandle hmip => h ⟨hhandle, hmip⟩⟩

theorem record_eq {image' : Image} (h : bare image = bare image') :
    image.record = image'.record := by
  simp only [bare, Image.mk.injEq] at h
  exact h.1

/-- An upload's change of the kept blocks. -/
theorem local_store (h : job.upload.topLevel = false →
    .kept job.upload.image job.upload.mipLevel ∈ reads ∧
    .kept job.upload.image job.upload.mipLevel ∈ writes) :
    Local Store.get reads writes fun m =>
      m.keep fun images => Kept.storeScaledUpload images job.upload job.compressed := by
  unfold Kept.storeScaledUpload
  cases htop : job.upload.topLevel with
  | true => exact Local.id
  | false =>
    obtain ⟨hreads, hwrites⟩ := h htop
    cases hfull : job.upload.fullMip with
    | true => exact local_modify (fun _ _ _ _ => rfl) hreads hwrites
    | false =>
      refine local_modify (fun image image' hbare hblocks => ?_) hreads hwrites
      rw [hblocks, record_eq hbare]

theorem within_reading {rest : Bytes → Program Store}
    (h : .kept job.upload.image job.upload.mipLevel ∈ reads)
    (hrest : ∀ blocks, Within Store.get reads writes (rest blocks)) :
    Within Store.get reads writes (job.readingWidened rest) := by
  refine .act Local.id (fun m m' hm => ?_) fun m => hrest _
  have hcell : mipOf m.images job.upload.image job.upload.mipLevel =
    mipOf m'.images job.upload.image job.upload.mipLevel := hm _ h
  have hwidened (images : Images) : widenedBlocks
      (images job.upload.image) job.upload job.compressed =
      ((mipOf images job.upload.image job.upload.mipLevel).bind fun found =>
        patchKeptBlocks found.2 found.1.record job.upload job.compressed).getD
          (edgeBlocks job.upload job.compressed) := by
    rw [widenedBlocks, mipOf]
    cases images job.upload.image <;> rfl
  rw [hwidened, hwidened, hcell]

end Footprints

/-! How far the stores of an upload or a copy reach. -/

theorem fst_memcpy_lt {offset : Nat} {w : Nat × UInt8} (h : w ∈ memcpy offset bytes) :
    w.1 < offset + bytes.length := by
  obtain ⟨x, hx, rfl⟩ := List.mem_map.1 h
  have hmem := List.mem_zipIdx hx
  rw [Prod.fst_swap]
  omega

theorem length_header (words : List Nat) : (header words).length = words.length * 4 := by
  simp [header, List.length_flatMap]

theorem length_slice_le (xs : Bytes) (i n : Nat) :
    (slice xs i n).length ≤ n := List.length_take_le ..

/-- The reach of the rows that an upload keeps for scaling. -/
theorem fst_scaleSource_lt {rows rowBytes : Nat} {w : Nat × UInt8}
    (h : w ∈ scaleSourceStores upload rows rowBytes bytes) :
    w.1 < kEtc2ScaleHeaderBytes +
      ((rows - 1) * (upload.scaleRowBlocks * etcBlockBytes upload.format) + rowBytes) := by
  rcases List.mem_append.1 h with hrow | hheader
  · obtain ⟨row, hin, hw⟩ := List.mem_flatMap.1 hrow
    have hlt := fst_memcpy_lt hw
    have hle := length_slice_le bytes (row * rowBytes) rowBytes
    have hrows : row * (upload.scaleRowBlocks * etcBlockBytes upload.format) ≤
        (rows - 1) * (upload.scaleRowBlocks * etcBlockBytes upload.format) :=
      Nat.mul_le_mul_right _ (Nat.le_sub_one_of_lt (List.mem_range.1 hin))
    omega
  · have hlt := fst_memcpy_lt hheader
    rw [length_header] at hlt
    have hheaderBytes : kEtc2ScaleHeaderBytes = 16 := rfl
    simp only [List.length_cons, List.length_nil] at hlt
    omega

theorem fst_decodedRows_lt {w : Nat × UInt8} (h : w ∈ decodedRows upload bytes) :
    w.1 < upload.targetHeight * (upload.targetWidth * etcDecodedTexelBytes upload.format) := by
  obtain ⟨y, hy, hw⟩ := List.mem_flatMap.1 h
  have hlt := fst_memcpy_lt hw
  have hle := length_slice_le bytes (y * upload.width * etcDecodedTexelBytes upload.format)
    (upload.targetWidth * etcDecodedTexelBytes upload.format)
  have hrows : (y + 1) * (upload.targetWidth * etcDecodedTexelBytes upload.format) ≤
      upload.targetHeight * (upload.targetWidth * etcDecodedTexelBytes upload.format) :=
    Nat.mul_le_mul_right _ (List.mem_range.1 hy)
  rw [Nat.succ_mul] at hrows
  omega

theorem length_copyRegion_le {images : Images} (h : copyRegion images copy = some bytes) :
    bytes.length ≤ copy.high * (copy.wide * copy.blockBytes) := by
  unfold copyRegion at h
  split at h
  · cases h
  · split at h
    · cases h
    · cases h
      rw [List.length_flatMap]
      refine (List.sum_le_card_nsmul _ (copy.wide * copy.blockBytes) fun n hn => ?_).trans (by simp)
      obtain ⟨row, -, rfl⟩ := List.mem_map.1 hn
      exact length_slice_le ..

/-! The tasks. -/

/-- `ScaleRgba` stores inside its destination. -/
def ScaleRgba.Fits (scaleRgba : ScaleRgba) : Prop :=
  ∀ source sourceWidth sourceHeight stride width height,
    ∀ w ∈ scaleRgba source sourceWidth sourceHeight stride width height, w.1 < width * height * 4

/-- The kept blocks that an upload may look at. -/
def jobReads (job : EmitJob) : Set Cell :=
  { k | (job.upload.topLevel = false ∨ job.upload.widened = true) ∧
    k = .kept job.upload.image job.upload.mipLevel }

def jobWrites (job : EmitJob) : Set Cell :=
  { k | (job.upload.topLevel = false ∧ k = .kept job.upload.image job.upload.mipLevel) ∨
    ∃ pointer ∈ job.span, k = .byte pointer }

theorem within_store (hp : Within Store.get (jobReads job) (jobWrites job) p) :
    Within Store.get (jobReads job) (jobWrites job) (job.storeScaledUpload p) :=
  .act (local_store fun htop => ⟨⟨.inl htop, rfl⟩, .inl ⟨htop, rfl⟩⟩) (fun _ _ _ => rfl) fun _ => hp

theorem within_target {stores : List (Nat × UInt8)} (h : ∀ w ∈ stores, w.1 < emitBytes job.upload) :
    Within Store.get (jobReads job) (jobWrites job) (storing job.upload.target stores .done) := by
  refine within_storing
    (fun w hw t ht => .inr ⟨pointerAt t w.1, ⟨t, ht, rfl, Nat.le_add_right .., ?_⟩, rfl⟩) .done
  exact Nat.add_lt_add_left (h w hw) _

theorem within_emitScaleSource (hkeep : job.upload.keepOnly = false)
    (hscaled : job.upload.scaleRowBlocks ≠ 0) :
    Within Store.get (jobReads job) (jobWrites job) job.emitScaleSource := by
  refine within_store ?_
  split
  · rename_i hwidened
    refine within_reading ⟨.inr hwidened, rfl⟩ fun blocks => within_target fun w hw => ?_
    simp only [emitBytes, hkeep, hscaled, hwidened, Bool.false_eq_true, if_false, ne_eq,
      not_false_eq_true, if_true]
    exact fst_scaleSource_lt hw
  · rename_i hwidened
    refine within_target fun w hw => ?_
    simp only [emitBytes, hkeep, hscaled, hwidened, Bool.false_eq_true, if_false, ne_eq,
      not_false_eq_true, if_true]
    exact fst_scaleSource_lt hw

/-- An upload stays within its cells, whichever of its ways it takes. -/
theorem within_emitUpload (hscale : scaleRgba.Fits) (job : EmitJob) :
    Within Store.get (jobReads job) (jobWrites job) (job.emitUpload target scaleRgba) := by
  unfold EmitJob.emitUpload
  simp only
  split
  · exact within_store .done
  · rename_i hkeep
    rw [Bool.not_eq_true] at hkeep
    split
    · exact within_emitScaleSource hkeep ‹_›
    · rename_i hscaled
      split
      · rename_i hwidened
        refine within_store (within_reading ⟨.inr hwidened, rfl⟩ fun blocks => ?_)
        split
        · exact .done
        · refine within_target fun w hw => ?_
          simp only [emitBytes, hkeep, hscaled, hwidened, Bool.false_eq_true,
            if_false, true_or, if_true]
          exact hscale _ _ _ _ _ _ w hw
      · rename_i hwidened
        split
        · rename_i hlarge
          refine within_store (within_target fun w hw => ?_)
          simp only [emitBytes, hkeep, hscaled, hwidened, hlarge, Bool.false_eq_true,
            if_false, or_true, if_true]
          exact hscale _ _ _ _ _ _ w hw
        · rename_i hlarge
          refine within_store (within_target fun w hw => ?_)
          simp only [emitBytes, hkeep, hscaled, hwidened, hlarge,
            Bool.false_eq_true, if_false, or_self]
          split at hw
          · rename_i hsame
            rw [if_pos hsame]
            have hlt := fst_memcpy_lt hw
            rw [List.length_take] at hlt
            omega
          · rename_i hother
            rw [if_neg hother]
            exact fst_decodedRows_lt hw

/-- A copy reads the blocks it copies and the mip it keeps them in. -/
def copyReads (copy : BlockCopy) : Set Cell :=
  {.kept copy.image copy.mip, .kept copy.keep copy.keepMip}

def copyWrites (copy : BlockCopy) : Set Cell :=
  { k | k = .kept copy.keep copy.keepMip ∨ ∃ pointer ∈ span copy.target copy.targetBytes,
    k = .byte pointer }

theorem local_keepBlocks {region : Option Bytes} :
    Local Store.get (copyReads copy) (copyWrites copy) fun m => m.keep fun images =>
      keepBlocks images copy region := by
  unfold keepBlocks
  split
  · exact Local.id
  · refine local_modify (fun image image' _ hblocks => ?_) (.inr rfl) (.inl rfl)
    rw [hblocks]

theorem copyRegion_congr {images images' : Images}
    (h : mipOf images copy.image copy.mip = mipOf images' copy.image copy.mip) :
    copyRegion images copy = copyRegion images' copy := by
  have hsource (images : Images) : sourceBlocks images copy =
      (mipOf images copy.image copy.mip).bind Prod.snd := by
    rw [sourceBlocks, mipOf]
    cases images copy.image <;> rfl
  rw [copyRegion, copyRegion, hsource, hsource, h]

theorem within_copyStores {stores : List (Nat × UInt8)} (h : ∀ w ∈ stores, w.1 < copy.targetBytes)
    (hp : Within Store.get (copyReads copy) (copyWrites copy) p) :
    Within Store.get (copyReads copy) (copyWrites copy) (storing copy.target stores p) := by
  refine within_storing
    (fun w hw t ht => .inr ⟨pointerAt t w.1, ⟨t, ht, rfl, Nat.le_add_right .., ?_⟩, rfl⟩) hp
  exact Nat.add_lt_add_left (h w hw) _

theorem within_fillBlockCopy (copy : BlockCopy) :
    Within Store.get (copyReads copy) (copyWrites copy) (fillBlockCopy copy) := by
  refine within_copyStores (fun w hw => ?_) (.act Local.id (fun m m' hm => ?_) fun m =>
    within_copyStores (fun w hw => ?_) (.act local_keepBlocks (fun _ _ _ => rfl) fun _ => .done))
  · split at hw
    · rename_i hheader
      have hlt := fst_memcpy_lt hw
      rw [length_header] at hlt
      have hsixteen : kEtc2ScaleHeaderBytes = 16 := rfl
      rw [BlockCopy.targetBytes, if_pos hheader]
      simp only [List.length_cons, List.length_nil] at hlt
      omega
    · exact absurd hw List.not_mem_nil
  · have hcell : mipOf m.images copy.image copy.mip = mipOf m'.images copy.image copy.mip :=
      hm _ (.inl rfl)
    rw [copyRegion_congr hcell]
  · have hlt := fst_memcpy_lt hw
    have hle : ((copyRegion m.images copy).getD
        (List.replicate (copy.wide * copy.blockBytes * copy.high) 0)).length ≤
          copy.wide * copy.high * copy.blockBytes := by
      cases hregion : copyRegion m.images copy with
      | none =>
        rw [Option.getD_none, List.length_replicate]
        exact (Nat.mul_right_comm ..).le
      | some region =>
        refine (length_copyRegion_le hregion).trans (le_of_eq ?_)
        rw [Nat.mul_left_comm, Nat.mul_assoc]
    rw [BlockCopy.targetBytes]
    omega

section Tasks

variable (target : Target) (hscale : scaleRgba.Fits)

def task : Event → Task Store.get
  | .inl job =>
    ⟨job.emitUpload target scaleRgba, jobReads job, jobWrites job, within_emitUpload hscale job⟩
  | .inr copy => ⟨fillBlockCopy copy, copyReads copy, copyWrites copy, within_fillBlockCopy copy⟩

/-- Uploads may be emitted together when neither waits for the other. -/
theorem free_uploads (hkept : ¬ a.Conflicts b)
    (hspan : Disjoint a.span b.span ∨ a.emission = b.emission) :
    (task target hscale (.inl a)).Free (task target hscale (.inl b)) where
  left := by
    rintro k ⟨hreads, rfl⟩ (⟨htop, hkey⟩ | ⟨pointer, -, hkey⟩)
    · simp only [Cell.kept.injEq] at hkey
      refine hkept ⟨Prod.ext hkey.1 hkey.2, ?_⟩
      simp only [Bool.not_eq_true]
      exact hreads.imp (fun ha => ⟨ha, .inl htop⟩) fun ha => ⟨ha, htop⟩
    · cases hkey
  right := by
    rintro k ⟨hreads, rfl⟩ (⟨htop, hkey⟩ | ⟨pointer, -, hkey⟩)
    · simp only [Cell.kept.injEq] at hkey
      refine hkept ⟨Prod.ext hkey.1.symm hkey.2.symm, .inl ?_⟩
      simp only [Bool.not_eq_true]
      exact ⟨htop, hreads⟩
    · cases hkey
  both := by
    rintro k (⟨htop, rfl⟩ | ⟨pointer, hin, rfl⟩) (⟨htop', hkey⟩ | ⟨pointer', hin', hkey⟩) m
    · simp only [Cell.kept.injEq] at hkey
      refine absurd ⟨Prod.ext hkey.1 hkey.2, .inl ?_⟩ hkept
      simp only [Bool.not_eq_true]
      exact ⟨htop, .inl htop'⟩
    · cases hkey
    · cases hkey
    · simp only [Cell.byte.injEq] at hkey
      subst hkey
      rcases hspan with hdisjoint | hsame
      · exact absurd hin' (Set.disjoint_left.1 hdisjoint hin)
      · -- The programs are the same, since none looks at the order.
        have hprogram : a.emitUpload target scaleRgba = b.emitUpload target scaleRgba :=
          congrArg (fun job => job.emitUpload target scaleRgba) hsame
        change Store.get ((a.emitUpload target scaleRgba).run m) _ = _
        rw [hprogram]
        rfl

/-- A copy may be filled before an upload that it does not wait for. -/
theorem free_copy (hkept : ¬ job.ConflictsCopy copy)
    (hspan : Disjoint job.span (span copy.target copy.targetBytes)) :
    (task target hscale (.inr copy)).Free (task target hscale (.inl job)) where
  left := by
    rintro k (rfl | rfl) (⟨htop, hkey⟩ | ⟨pointer, -, hkey⟩)
    · simp only [Cell.kept.injEq] at hkey
      exact hkept
        (.inl ⟨by rw [htop]; exact Bool.false_ne_true, .inl (Prod.ext hkey.1.symm hkey.2.symm)⟩)
    · cases hkey
    · simp only [Cell.kept.injEq] at hkey
      exact hkept
        (.inl ⟨by rw [htop]; exact Bool.false_ne_true, .inr (Prod.ext hkey.1.symm hkey.2.symm)⟩)
    · cases hkey
  right := by
    rintro k ⟨hreads, rfl⟩ (hkey | ⟨pointer, -, hkey⟩)
    · simp only [Cell.kept.injEq] at hkey
      rcases hreads with htop | hwidened
      · exact hkept (.inl ⟨by rw [htop]; exact Bool.false_ne_true, .inr (Prod.ext hkey.1 hkey.2)⟩)
      · exact hkept (.inr ⟨hwidened, Prod.ext hkey.1 hkey.2⟩)
    · cases hkey
  both := by
    rintro k (rfl | ⟨pointer, hin, rfl⟩) (⟨htop, hkey⟩ | ⟨pointer', hin', hkey⟩) m
    · simp only [Cell.kept.injEq] at hkey
      exact absurd
        (.inl ⟨by rw [htop]; exact Bool.false_ne_true, .inr (Prod.ext hkey.1.symm hkey.2.symm)⟩)
        hkept
    · cases hkey
    · cases hkey
    · simp only [Cell.byte.injEq] at hkey
      subst hkey
      exact absurd hin (Set.disjoint_left.1 hspan hin')

end Tasks

/-! Passes and batches. -/

section Passes

variable (hscale : scaleRgba.Fits)

/-- The jobs one at a time. -/
def emitAll (target : Target) (scaleRgba : ScaleRgba) (jobs : List EmitJob) (m : Store) : Store :=
  jobs.foldl (fun m job => (job.emitUpload target scaleRgba).run m) m

theorem emitAll_eq :
    emitAll target scaleRgba jobs m =
      (jobs.map fun job => task target hscale (.inl job)).foldl Task.run m := by
  rw [List.foldl_map]
  rfl

theorem emitAll_append {jobs' : List EmitJob} :
    emitAll target scaleRgba (jobs ++ jobs') m = emitAll target scaleRgba jobs'
      (emitAll target scaleRgba jobs m) :=
  List.foldl_append ..

/-- Jobs that may be emitted together. -/
def Together (jobs : List EmitJob) : Prop :=
  jobs.Pairwise fun a b => ¬ a.Conflicts b ∧ (Disjoint a.span b.span ∨ a.emission = b.emission)

theorem Together.free (h : Together jobs) :
    (jobs.map fun job => task target hscale (.inl job)).Pairwise Task.Free :=
  List.pairwise_map.2 (h.imp fun hab => free_uploads target hscale hab.1 hab.2)

include hscale

theorem emitPass_iff (h : Together jobs) :
    EmitPass target scaleRgba workerCount jobs m m' ↔ m' = emitAll target scaleRgba jobs m := by
  have hprograms : jobs.map (fun job => job.emitUpload target scaleRgba) =
      programs (jobs.map fun job => task target hscale (.inl job)) := by
    rw [programs, List.map_map]
    rfl
  unfold EmitPass
  split
  · rename_i hnil
    rw [hnil]
    rfl
  · rename_i hjobs
    rw [hprograms, emitAll_eq hscale]
    constructor
    · rintro ⟨calls, hcalls, s, hreach, hdone, rfl⟩
      have hpos : 0 < calls := by
        rcases hcalls with rfl | ⟨htwo, -⟩
        · exact Nat.one_pos
        · omega
      exact memory_of_done get_ext (h.free hscale) hpos hreach hdone
    · rintro rfl
      obtain ⟨as, s, hrun, hdone⟩ :=
        @exists_done _ m 1 (programs (jobs.map fun job => task target hscale (.inl job)))
        ⟨⟨0, m⟩, fun _ => .drawing⟩
      have hreach :
          (pool 1 (programs (jobs.map fun job => task target hscale (.inl job))) m).Reachable s :=
        ⟨_, as, rfl, hrun⟩
      exact ⟨1, .inl rfl, s, hreach, hdone,
        memory_of_done get_ext (h.free hscale) Nat.one_pos hreach hdone⟩

theorem emitBatch_iff (h : Together jobs) :
    EmitBatch target scaleRgba workerCount jobs m m' ↔ m' = emitAll target scaleRgba jobs m := by
  have hzero : Together (jobs.filter fun job => job.upload.mipLevel = 0) :=
    h.sublist List.filter_sublist
  have hrest : Together (jobs.filter fun job => ¬ job.upload.mipLevel = 0) :=
    h.sublist List.filter_sublist
  have hperm := List.filter_append_perm (fun job : EmitJob => decide (job.upload.mipLevel = 0)) jobs
  have hall : emitAll target scaleRgba (jobs.filter fun job => ¬ job.upload.mipLevel = 0)
      (emitAll target scaleRgba (jobs.filter fun job => job.upload.mipLevel = 0) m) =
      emitAll target scaleRgba jobs m := by
    rw [← emitAll_append, emitAll_eq hscale, emitAll_eq hscale]
    refine (Task.foldl_perm get_ext (h.free hscale) ?_ m).symm
    refine List.Perm.map _ ?_
    simp only [decide_not]
    exact hperm.symm
  unfold EmitBatch
  simp only [emitPass_iff hscale hzero, emitPass_iff hscale hrest, exists_eq_left, hall]

end Passes

/-! The loops. -/

/-- The mips of a run are those of its jobs, and these may be emitted together. -/
structure Run.Sound (run : Run) : Prop where
  writes : ∀ key, key ∈ run.writes ↔ ∃ a ∈ run.jobs, ¬ a.upload.topLevel ∧ a.key = key
  reads : ∀ key, key ∈ run.reads ↔ ∃ a ∈ run.jobs, a.upload.widened ∧ a.key = key
  together : Together run.jobs

theorem sound_empty : Run.Sound {} where
  writes key := by simp
  reads key := by simp
  together := .nil

theorem Run.Sound.blocks_iff {run : Run} (h : run.Sound) : run.blocks job ↔
    ∃ a ∈ run.jobs, a.Conflicts job := by
  unfold Run.blocks EmitJob.Conflicts
  rw [h.writes, h.reads]
  constructor
  · rintro (⟨htop, ⟨a, ha, hw, hk⟩ | ⟨a, ha, hr, hk⟩⟩ | ⟨hr, a, ha, hw, hk⟩)
    · exact ⟨a, ha, hk, .inl ⟨hw, .inl htop⟩⟩
    · exact ⟨a, ha, hk, .inr ⟨hr, htop⟩⟩
    · exact ⟨a, ha, hk, .inl ⟨hw, .inr hr⟩⟩
  · rintro ⟨a, ha, hk, ⟨hw, htop | hr⟩ | ⟨hr, htop⟩⟩
    · exact .inl ⟨htop, .inl ⟨a, ha, hw, hk⟩⟩
    · exact .inr ⟨hr, a, ha, hw, hk⟩
    · exact .inl ⟨htop, .inr ⟨a, ha, hr, hk⟩⟩

theorem Run.Sound.blocksCopy_iff {run : Run} (h : run.Sound) :
    run.blocksCopy copy ↔ ∃ a ∈ run.jobs, a.ConflictsCopy copy := by
  unfold Run.blocksCopy EmitJob.ConflictsCopy
  rw [h.writes, h.writes, h.reads]
  constructor
  · rintro (⟨a, ha, hw, hk⟩ | ⟨a, ha, hw, hk⟩ | ⟨a, ha, hr, hk⟩)
    · exact ⟨a, ha, .inl ⟨hw, .inl hk⟩⟩
    · exact ⟨a, ha, .inl ⟨hw, .inr hk⟩⟩
    · exact ⟨a, ha, .inr ⟨hr, hk⟩⟩
  · rintro ⟨a, ha, ⟨hw, hk | hk⟩ | ⟨hr, hk⟩⟩
    · exact .inl ⟨a, ha, hw, hk⟩
    · exact .inr (.inl ⟨a, ha, hw, hk⟩)
    · exact .inr (.inr ⟨a, ha, hr, hk⟩)

/-- A job that neither conflicts with the run nor overlaps it keeps the run sound. -/
theorem Run.Sound.push {run : Run} (h : run.Sound)
    (hjob : ∀ a ∈ run.jobs, ¬ a.Conflicts job ∧
      (Disjoint a.span job.span ∨ a.emission = job.emission)) :
    (run.push job).Sound where
  writes key := by
    simp only [Run.push, List.mem_append, List.mem_singleton]
    split <;> rename_i htop
    · rw [List.mem_cons, h.writes]
      constructor
      · rintro (rfl | ⟨a, ha, hrest⟩)
        · exact ⟨job, .inr rfl, htop, rfl⟩
        · exact ⟨a, .inl ha, hrest⟩
      · rintro ⟨a, ha | rfl, hw, hk⟩
        · exact .inr ⟨a, ha, hw, hk⟩
        · exact .inl hk.symm
    · rw [h.writes]
      constructor
      · rintro ⟨a, ha, hrest⟩
        exact ⟨a, .inl ha, hrest⟩
      · rintro ⟨a, ha | rfl, hw, hk⟩
        · exact ⟨a, ha, hw, hk⟩
        · exact absurd hw htop
  reads key := by
    simp only [Run.push, List.mem_append, List.mem_singleton]
    split <;> rename_i hwidened
    · rw [List.mem_cons, h.reads]
      constructor
      · rintro (rfl | ⟨a, ha, hrest⟩)
        · exact ⟨job, .inr rfl, hwidened, rfl⟩
        · exact ⟨a, .inl ha, hrest⟩
      · rintro ⟨a, ha | rfl, hr, hk⟩
        · exact .inr ⟨a, ha, hr, hk⟩
        · exact .inl hk.symm
    · rw [h.reads]
      constructor
      · rintro ⟨a, ha, hrest⟩
        exact ⟨a, .inl ha, hrest⟩
      · rintro ⟨a, ha | rfl, hr, hk⟩
        · exact ⟨a, ha, hr, hk⟩
        · exact absurd hr hwidened
  together := by
    refine List.pairwise_append.2 ⟨h.together, List.pairwise_singleton _ _, fun a ha b hb => ?_⟩
    rw [List.mem_singleton.1 hb]
    exact hjob a ha

/-- The loops over the events of both lists. -/
def EmittedEvents (target : Target) (scaleRgba : ScaleRgba) (workerCount : Nat) :
    List Event → Run → Store → Store → Prop
  | [], run, m, m' => EmitBatch target scaleRgba workerCount run.jobs m m'
  | .inl job :: events, run, m, m' =>
    ∃ run' between, Flushed target scaleRgba workerCount (run.blocks job) run m run' between ∧
      EmittedEvents target scaleRgba workerCount events (run'.push job) between m'
  | .inr copy :: events, run, m, m' =>
    ∃ run' between, Flushed target scaleRgba workerCount (run.blocksCopy copy) run m run' between ∧
      EmittedEvents target scaleRgba workerCount events run' ((fillBlockCopy copy).run between) m'

theorem emitted_eq {run : Run} :
    Emitted target scaleRgba workerCount jobs copies run m m' =
      EmittedEvents target scaleRgba workerCount
        (interleave (fun job => job.upload.order) BlockCopy.order jobs copies) run m m' := by
  fun_induction Emitted target scaleRgba workerCount jobs copies run m m' with
  | case1 run m m' => rw [interleave_nil]; rfl
  | case2 run m m' job jobs ih => simp only [ih, interleave_nil, List.map_cons, EmittedEvents]
  | case3 run m m' copy copies ih => simp only [ih, interleave, List.map_cons, EmittedEvents]
  | case4 run m m' job jobs copy copies hlt ih =>
    rw [interleave, if_pos hlt]; simp only [ih, EmittedEvents]
  | case5 run m m' job jobs copy copies hge ih =>
    rw [interleave, if_neg hge]; simp only [ih, EmittedEvents]

/-- Their targets are apart, or the later one waits for the earlier one. -/
def Apart : Event → Event → Prop
  | .inl a, .inl b => a.Conflicts b ∨ Disjoint a.span b.span ∨ a.emission = b.emission
  | .inl job, .inr copy =>
    job.ConflictsCopy copy ∨ Disjoint job.span (span copy.target copy.targetBytes)
  | .inr copy, .inl job =>
    job.ConflictsCopy copy ∨ Disjoint job.span (span copy.target copy.targetBytes)
  | .inr _, .inr _ => True

theorem Apart.symm {e d : Event} (h : Apart e d) : Apart d e := by
  cases e with
  | inl a =>
    cases d with
    | inl b =>
      rcases h with ⟨hkey, hkept⟩ | hspan | hsame
      · refine .inl ⟨hkey.symm, ?_⟩
        tauto
      · exact .inr (.inl hspan.symm)
      · exact .inr (.inr hsame.symm)
    | inr copy => exact h
  | inr copy =>
    cases d with
    | inl b => exact h
    | inr copy' => trivial

instance : Std.Symm Apart := ⟨fun _ _ => Apart.symm⟩

/-- In order, uploads and copies are apart wherever none of them waits for the other. -/
theorem inOrder_apart (h : Placed jobs copies) : (inOrder jobs copies).Pairwise Apart := by
  have hjobs : (sortJobs jobs).Pairwise fun a b => Apart (.inl a) (.inl b) :=
    ((List.mergeSort_perm jobs _).pairwise_iff fun hab => Apart.symm hab).2 h.uploads
  have hall : ((sortJobs jobs).map Sum.inl ++ (sortCopies copies).map Sum.inr).Pairwise Apart := by
    refine List.pairwise_append.2 ⟨List.pairwise_map.2 hjobs,
      List.pairwise_map.2 ?_, fun e he d hd => ?_⟩
    · exact List.pairwise_of_forall fun _ _ => trivial
    · obtain ⟨job, hjob, rfl⟩ := List.mem_map.1 he
      obtain ⟨copy, hcopy, rfl⟩ := List.mem_map.1 hd
      exact h.copies job (List.mem_mergeSort.1 hjob) copy (List.mem_mergeSort.1 hcopy)
  exact (interleave_perm.pairwise_iff Apart.symm).2 hall

section Loops

variable {run : Run} {blocked : Prop} (hscale : scaleRgba.Fits)

include hscale

theorem flushed_iff {P : Run → Store → Prop} (hrun : run.Sound) :
    (∃ run' between, Flushed target scaleRgba workerCount blocked run m run' between ∧
      P run' between) ↔
      (blocked ∧ P {} (emitAll target scaleRgba run.jobs m)) ∨ (¬ blocked ∧ P run m) := by
  constructor
  · rintro ⟨run', between, ⟨hb, rfl, hbatch⟩ | ⟨hb, rfl, rfl⟩, hp⟩
    · rw [(emitBatch_iff hscale hrun.together).1 hbatch] at hp
      exact .inl ⟨hb, hp⟩
    · exact .inr ⟨hb, hp⟩
  · rintro (⟨hb, hp⟩ | ⟨hb, hp⟩)
    · exact ⟨{}, _, .inl ⟨hb, rfl, (emitBatch_iff hscale hrun.together).2 rfl⟩, hp⟩
    · exact ⟨run, m, .inr ⟨hb, rfl, rfl⟩, hp⟩

/-- A copy that nothing in the run waits for is filled as if the run had been emitted. -/
theorem fill_commute (h : ∀ a ∈ jobs, ¬ a.ConflictsCopy copy ∧
    Disjoint a.span (span copy.target copy.targetBytes)) :
    emitAll target scaleRgba jobs ((fillBlockCopy copy).run m) =
      (fillBlockCopy copy).run (emitAll target scaleRgba jobs m) := by
  rw [emitAll_eq hscale, emitAll_eq hscale]
  refine Task.foldl_commute (t := task target hscale (.inr copy)) get_ext (fun u hu => ?_) m
  obtain ⟨a, ha, rfl⟩ := List.mem_map.1 hu
  exact free_copy target hscale (h a ha).1 (h a ha).2

/-- By induction on the events: what waits for the run is preceded by its emission. -/
theorem emittedEvents_iff {events : List Event} (hrun : run.Sound)
    (h : (run.jobs.map Sum.inl ++ events).Pairwise Apart) :
    EmittedEvents target scaleRgba workerCount events run m m' ↔
      m' = events.foldl (emit target scaleRgba) (emitAll target scaleRgba run.jobs m) := by
  induction events generalizing run m with
  | nil => exact emitBatch_iff hscale hrun.together
  | cons e events ih =>
    obtain ⟨-, hevents, hbefore⟩ := List.pairwise_append.1 h
    cases e with
    | inl job =>
      have hwith (a : EmitJob) (ha : a ∈ run.jobs) : Apart (.inl a) (.inl job) :=
        hbefore _ (List.mem_map_of_mem ha) _ List.mem_cons_self
      rw [EmittedEvents, flushed_iff hscale hrun]
      by_cases hb : run.blocks job
      · have hnew : (({} : Run).push job).Sound := sound_empty.push fun a ha =>
            absurd ha List.not_mem_nil
        have hih := @ih (emitAll target scaleRgba run.jobs m) (({} : Run).push job) hnew hevents
        simp only [hb, true_and, not_true, false_and, or_false]
        exact hih
      · have hclear : ∀ a ∈ run.jobs, ¬ a.Conflicts job :=
          fun a ha hc => hb (hrun.blocks_iff.2 ⟨a, ha, hc⟩)
        have hnew : (run.push job).Sound :=
          hrun.push fun a ha => ⟨hclear a ha, (hwith a ha).resolve_left (hclear a ha)⟩
        have hih := @ih m (run.push job) hnew (by
          simpa only [Run.push, List.map_append, List.map_cons, List.map_nil, List.append_assoc,
            List.singleton_append] using h)
        simp only [hb, false_and, false_or, not_false_eq_true, true_and]
        rw [hih, Run.push, emitAll_append]
        rfl
    | inr copy =>
      have hwith (a : EmitJob) (ha : a ∈ run.jobs) : Apart (.inl a) (.inr copy) :=
        hbefore _ (List.mem_map_of_mem ha) _ List.mem_cons_self
      rw [EmittedEvents, flushed_iff hscale hrun]
      by_cases hb : run.blocksCopy copy
      · have hih :=
          @ih ((fillBlockCopy copy).run (emitAll target scaleRgba run.jobs m))
            {} sound_empty hevents.of_cons
        simp only [hb, true_and, not_true, false_and, or_false]
        exact hih
      · have hclear : ∀ a ∈ run.jobs, ¬ a.ConflictsCopy copy :=
          fun a ha hc => hb (hrun.blocksCopy_iff.2 ⟨a, ha, hc⟩)
        have hih := @ih ((fillBlockCopy copy).run m) run hrun
          (h.sublist ((List.Sublist.refl _).append (List.sublist_cons_self _ _)))
        simp only [hb, false_and, false_or, not_false_eq_true, true_and]
        rw [hih, fill_commute hscale fun a ha =>
          ⟨hclear a ha, (hwith a ha).resolve_left (hclear a ha)⟩]
        rfl

end Loops

/-! The whole replay. -/

/-- Whatever the number of workers and their schedules, the replay leaves what one upload or copy at
a time leaves. -/
theorem decodeAndEmit_iff {target : Target} {scaleRgba : ScaleRgba} {workerCount : Nat}
    {uploads : List PendingUpload}
    {source decoded : Bytes} {copies : List BlockCopy} {m m' : Store} (hscale : scaleRgba.Fits)
    (hplaced : Placed (emitJobs source decoded 0 0 uploads) copies) :
    DecodeAndEmit target scaleRgba workerCount uploads source decoded copies m m' ↔
      m' = (inOrder (emitJobs source decoded 0 0 uploads) copies).foldl
        (emit target scaleRgba) m := by
  rw [DecodeAndEmit, emitted_eq]
  exact emittedEvents_iff hscale sound_empty (inOrder_apart hplaced)

/-! Two uploads, and between them a copy that waits for the first and that the second waits for. -/

def uploadAt (mip order : Nat) : PendingUpload :=
  { image := 1
    mipLevel := mip
    compressed := 8
    decoded := 64
    width := 4
    height := 4
    layers := 1
    fullMip := true
    targetWidth := 4
    targetHeight := 4
    targetBytes := 64
    target := some ⟨0, mip * 64⟩
    order := order }

def copyBetween : BlockCopy :=
  { image := 1
    mipBlocksWide := 1
    mipBlocksHigh := 1
    wide := 1
    high := 1
    blockBytes := 8
    target := some ⟨0, 128⟩
    keep := 1
    keepMip := 1
    keepBlocksWide := 1
    keepBlocksHigh := 1
    order := 1 }

theorem span_disjoint {start start' bytes bytes' : Nat}
    (h : start + bytes ≤ start' ∨ start' + bytes' ≤ start) :
    Disjoint (span (some ⟨0, start⟩) bytes) (span (some ⟨0, start'⟩) bytes') := by
  refine Set.disjoint_left.2 ?_
  rintro pointer ⟨t, ht, -, hlow, hhigh⟩ ⟨t', ht', -, hlow', hhigh'⟩
  cases ht
  cases ht'
  dsimp only at hlow hhigh hlow' hhigh'
  omega

def unwritten : Store where
  images _ := some
    { record := { format := .etc2Rgb8, width := 8, height := 8 }
      arrayLayers := 1
      unshifted := rfl
      layered := fun _ => rfl
      bounded := by decide }
  staging _ := 0

theorem decodeAndEmit_iff_between :
    DecodeAndEmit .x86 (fun _ _ _ _ _ _ => []) 4 [uploadAt 0 0, uploadAt 1 2] (List.replicate 16 7)
      (List.replicate 128 9) [copyBetween] unwritten
      ((inOrder
        (emitJobs (List.replicate 16 7) (List.replicate 128 9) 0 0 [uploadAt 0 0, uploadAt 1 2])
        [copyBetween]).foldl (emit .x86 fun _ _ _ _ _ _ => []) unwritten) := by
  refine (decodeAndEmit_iff (fun _ _ _ _ _ _ w hw => absurd hw List.not_mem_nil) ⟨?_, ?_⟩).2 rfl
  · refine List.pairwise_cons.2 ⟨fun b hb => ?_, List.pairwise_singleton _ _⟩
    rw [List.mem_singleton.1 hb]
    exact .inr (.inl (span_disjoint (.inl (by decide))))
  · intro job hjob copy hcopy
    rw [List.mem_singleton.1 hcopy]
    rcases List.mem_cons.1 hjob with rfl | hjob
    · exact .inl (.inl ⟨by decide, .inl rfl⟩)
    · rw [List.mem_singleton.1 hjob]
      exact .inl (.inl ⟨by decide, .inr rfl⟩)

end Nightcap.Graphics.Replay
