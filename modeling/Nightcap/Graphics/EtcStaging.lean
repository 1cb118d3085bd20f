import Nightcap.Graphics.EtcCommands

/-! Staging blocks: ranges are taken front to back, and a block starts over once its last range is
back. -/
namespace Nightcap.Graphics

def kStagingAlignment : Nat := 256
def kIdleStagingBlocks : Nat := 4
def kMaxGpuStagingBlocks : Nat := 8

/-- `size` rounded up to `kStagingAlignment`. -/
def alignStaging (size : Nat) : Nat :=
  (size + kStagingAlignment - 1) / kStagingAlignment * kStagingAlignment

theorem le_alignStaging (size : Nat) : size ≤ alignStaging size := by
  simp only [alignStaging, kStagingAlignment]
  omega

theorem dvd_alignStaging (size : Nat) : kStagingAlignment ∣ alignStaging size := Nat.dvd_mul_left ..

structure StagingBlock where
  /-- What tells it from the other blocks. -/
  address : Nat
  device : VkDevice
  deviceLocal : Bool
  capacity : Nat
  /-- First byte not yet handed out. -/
  head : Nat
  /-- The ranges command buffers hold. -/
  live : Nat
  head_le : head ≤ capacity
  head_aligned : kStagingAlignment ∣ head

namespace StagingBlock

variable {block : StagingBlock} {size serial : Nat}

/-- The block `AcquireStaging` creates when no other has room, with its first range taken. -/
def create (stagingBlockBytes address : Nat) (device : VkDevice) (deviceLocal : Bool) (size : Nat) :
    StagingBlock where
  address := address
  device := device
  deviceLocal := deviceLocal
  capacity := max stagingBlockBytes (alignStaging size)
  head := alignStaging size
  live := 1
  head_le := Nat.le_max_right ..
  head_aligned := dvd_alignStaging size

def fits (block : StagingBlock) (device : VkDevice) (deviceLocal : Bool) (size : Nat) : Bool :=
  block.device == device && block.deviceLocal == deviceLocal &&
    decide (alignStaging size ≤ block.capacity - block.head)

/-- The block with one more range taken, if there is room for it. -/
def take (block : StagingBlock) (size : Nat) : StagingBlock :=
  if h : alignStaging size ≤ block.capacity - block.head then
    { block with
      head := block.head + alignStaging size
      live := block.live + 1
      head_le := by have := block.head_le; omega
      head_aligned := Nat.dvd_add block.head_aligned (dvd_alignStaging size) }
  else block

/-- `--live`, and back to the front with the last range. -/
def drop (block : StagingBlock) : StagingBlock :=
  if block.live - 1 = 0 then
    { block with live := 0, head := 0, head_le := Nat.zero_le _, head_aligned := Nat.dvd_zero _ }
  else { block with live := block.live - 1 }

@[simp] theorem take_address : (block.take size).address = block.address := by
  unfold take
  split <;> rfl

@[simp] theorem take_capacity : (block.take size).capacity = block.capacity := by
  unfold take
  split <;> rfl

@[simp] theorem drop_address : block.drop.address = block.address := by
  unfold drop
  split <;> rfl

@[simp] theorem drop_capacity : block.drop.capacity = block.capacity := by
  unfold drop
  split <;> rfl

@[simp] theorem drop_live : block.drop.live = block.live - 1 := by
  unfold drop
  split
  · next h => exact h.symm
  · rfl

theorem drop_head (h : block.live - 1 ≠ 0) : block.drop.head = block.head := by
  rw [drop, if_neg h]

theorem take_of_fits {device : VkDevice} {deviceLocal : Bool}
    (h : block.fits device deviceLocal size = true) :
    (block.take size).head = block.head + alignStaging size ∧
    (block.take size).live = block.live + 1 ∧
      block.head + alignStaging size ≤ block.capacity := by
  simp only [fits, Bool.and_eq_true, decide_eq_true_eq] at h
  have hle := block.head_le
  rw [take, dif_pos h.2]
  exact ⟨rfl, rfl, by omega⟩

end StagingBlock

/-- The range `AcquireStaging` hands out of a block. -/
def StagingBlock.range (block : StagingBlock) (size serial : Nat) : Staging :=
  ⟨block.address, block.head, alignStaging size, serial⟩

/-- The locked search of `AcquireStaging`: the first block with room, with the range taken. -/
def acquireFrom (device : VkDevice) (deviceLocal : Bool) (size serial : Nat) :
    List StagingBlock → Option (List StagingBlock × Staging)
  | [] => none
  | block :: rest =>
    if block.fits device deviceLocal size then
      some (block.take size :: rest, block.range size serial)
    else (acquireFrom device deviceLocal size serial rest).map fun r => (block :: r.1, r.2)

/-- One range of `ReleaseStaging`. -/
def dropRange (blocks : List StagingBlock) (staging : Staging) : List StagingBlock :=
  blocks.map fun block => if block.address = staging.block then block.drop else block

/-- The blocks `ReleaseStaging` keeps: the empty ones only up to `limit` bytes. -/
def sweep (limit : Nat) : Nat → List StagingBlock → List StagingBlock
  | _, [] => []
  | idleBytes, block :: rest =>
    if block.live = 0 ∧ limit < (idleBytes + block.capacity) % 2 ^ 64 then
      sweep limit idleBytes rest
    else
      block :: sweep limit
        (if block.live = 0 then (idleBytes + block.capacity) % 2 ^ 64 else idleBytes) rest

def releaseStaging (stagingBlockBytes : Nat) (blocks : List StagingBlock)
    (released : List Staging) :
    List StagingBlock :=
  sweep (kIdleStagingBlocks * stagingBlockBytes % 2 ^ 64) 0 (released.foldl dropRange blocks)

/-! What a block is about to hold, what has been handed out of it, and how the two stay together. -/

/-- Two ranges without a byte in common. -/
def Staging.Apart (r r' : Staging) : Prop :=
  r.block = r'.block → r.offset + r.bytes ≤ r'.offset ∨ r'.offset + r'.bytes ≤ r.offset

theorem Staging.Apart.symm {r r' : Staging} (h : r.Apart r') : r'.Apart r :=
  fun hb => (h hb.symm).symm

/-- How many of the ranges are in the block at an address. -/
def rangesIn (outstanding : Finset Staging) (address : Nat) : Nat :=
  (outstanding.filter (·.block = address)).card

/-- The blocks and the ranges handed out of them. -/
structure Stocked (blocks : List StagingBlock) (outstanding : Finset Staging) : Prop where
  addresses : (blocks.map StagingBlock.address).Nodup
  inside : ∀ r ∈ outstanding, ∃ block ∈ blocks, block.address = r.block ∧
    r.offset + r.bytes ≤ block.head
  aligned : ∀ r ∈ outstanding, kStagingAlignment ∣ r.offset
  apart : ∀ r ∈ outstanding, ∀ r' ∈ outstanding, r ≠ r' → r.Apart r'
  live : ∀ block ∈ blocks, block.live = rangesIn outstanding block.address

section Stocked

variable {blocks blocks' : List StagingBlock} {outstanding : Finset Staging} {block : StagingBlock}
  {r : Staging} {device : VkDevice} {deviceLocal : Bool} {size serial address : Nat}

theorem eq_of_address {b b' : StagingBlock} (h : (blocks.map StagingBlock.address).Nodup)
    (hb : b ∈ blocks)
    (hb' : b' ∈ blocks) (heq : b.address = b'.address) : b = b' :=
  List.inj_on_of_nodup_map h hb hb' heq

theorem rangesIn_insert (hr : r ∉ outstanding) : rangesIn (insert r outstanding) address =
    rangesIn outstanding address + if r.block = address then 1 else 0 := by
  unfold rangesIn
  rw [Finset.filter_insert]
  split
  · rw [Finset.card_insert_of_notMem]
    intro h
    exact hr (Finset.mem_of_mem_filter _ h)
  · rfl

theorem rangesIn_erase (hr : r ∈ outstanding) : rangesIn (outstanding.erase r) address +
    (if r.block = address then 1 else 0) = rangesIn outstanding address := by
  conv_rhs => rw [← Finset.insert_erase hr]
  rw [rangesIn_insert (Finset.notMem_erase r outstanding)]

theorem rangesIn_pos (hr : r ∈ outstanding) : 0 < rangesIn outstanding r.block :=
  Finset.card_pos.2 ⟨r, Finset.mem_filter.2 ⟨hr, rfl⟩⟩

/-- The search changes one block, which had room. -/
theorem acquireFrom_eq_some
    (h : acquireFrom device deviceLocal size serial blocks = some (blocks', r)) :
    ∃ before block after, blocks = before ++ block :: after ∧
      blocks' = before ++ block.take size :: after ∧ block.fits device deviceLocal size = true ∧
      r = block.range size serial := by
  induction blocks generalizing blocks' with
  | nil => cases h
  | cons b rest ih =>
    simp only [acquireFrom] at h
    split at h
    · next hfits =>
      simp only [Option.some.injEq, Prod.mk.injEq] at h
      obtain ⟨rfl, rfl⟩ := h
      exact ⟨[], b, rest, rfl, rfl, hfits, rfl⟩
    · obtain ⟨⟨rest', r'⟩, hrest, heq⟩ := Option.map_eq_some_iff.1 h
      simp only [Prod.mk.injEq] at heq
      obtain ⟨rfl, rfl⟩ := heq
      obtain ⟨before, block, after, rfl, rfl, hfits, hr⟩ := ih hrest
      exact ⟨b :: before, block, after, rfl, rfl, hfits, hr⟩

/-- A range at the head of a block is apart from what the block has handed out. -/
theorem Stocked.apart_head (h : Stocked blocks outstanding) (hb : block ∈ blocks)
    (hr : r ∈ outstanding) : r.Apart (block.range size serial) := by
  intro heq
  obtain ⟨b, hbin, haddress, hle⟩ := h.inside r hr
  obtain rfl := eq_of_address h.addresses hbin hb (haddress.trans heq)
  exact .inl hle

theorem Stocked.acquire (h : Stocked blocks outstanding)
    (hacquire : acquireFrom device deviceLocal size serial blocks = some (blocks', r))
    (hfresh : r ∉ outstanding) : Stocked blocks' (insert r outstanding) := by
  obtain ⟨before, block, after, rfl, rfl, hfits, rfl⟩ := acquireFrom_eq_some hacquire
  obtain ⟨hhead, hlive, -⟩ := StagingBlock.take_of_fits hfits
  have hblock : block ∈ before ++ block :: after := by simp
  have haddresses : (before ++ block.take size :: after).map StagingBlock.address =
      (before ++ block :: after).map StagingBlock.address := by simp
  have hothers : ∀ b, b ∈ before ∨ b ∈ after → b.address ≠ block.address := by
    intro b hb heq
    have hnd := h.addresses
    rw [List.map_append, List.map_cons, List.nodup_append] at hnd
    obtain ⟨-, hafter, hbefore⟩ := hnd
    rcases hb with hb | hb
    · exact hbefore _ (List.mem_map_of_mem hb) _ (by simp) heq
    · exact (List.nodup_cons.1 hafter).1 (heq ▸ List.mem_map_of_mem hb)
  refine ⟨haddresses ▸ h.addresses, ?_, ?_, ?_, ?_⟩
  · intro r hr
    rcases Finset.mem_insert.1 hr with rfl | hr
    · refine ⟨block.take size, by simp, by simp [StagingBlock.range], ?_⟩
      rw [hhead]
      exact le_rfl
    · obtain ⟨b, hb, haddress, hle⟩ := h.inside r hr
      simp only [List.mem_append, List.mem_cons] at hb
      rcases hb with hb | rfl | hb
      · exact ⟨b, by simp [hb], haddress, hle⟩
      · exact ⟨b.take size, by simp, by simpa using haddress, by omega⟩
      · exact ⟨b, by simp [hb], haddress, hle⟩
  · intro r hr
    rcases Finset.mem_insert.1 hr with rfl | hr
    · exact block.head_aligned
    · exact h.aligned r hr
  · intro r hr r' hr' hne
    rcases Finset.mem_insert.1 hr with rfl | hr <;> rcases Finset.mem_insert.1 hr' with rfl | hr'
    · exact absurd rfl hne
    · exact (h.apart_head hblock hr').symm
    · exact h.apart_head hblock hr
    · exact h.apart r hr r' hr' hne
  · intro b hb
    rw [rangesIn_insert hfresh]
    simp only [List.mem_append, List.mem_cons] at hb
    rcases hb with hb | rfl | hb
    · rw [if_neg (by simpa [StagingBlock.range] using (hothers b (.inl hb)).symm)]
      exact h.live b (by simp [hb])
    · simp only [StagingBlock.take_address, StagingBlock.range, if_true, hlive, h.live block hblock]
    · rw [if_neg (by simpa [StagingBlock.range] using (hothers b (.inr hb)).symm)]
      exact h.live b (by simp [hb])

/-- A new block with its first range. -/
theorem Stocked.push {stagingBlockBytes : Nat} (h : Stocked blocks outstanding)
    (hfresh : ∀ b ∈ blocks, b.address ≠ address) :
    Stocked (blocks ++ [.create stagingBlockBytes address device deviceLocal size])
      (insert ⟨address, 0, alignStaging size, serial⟩ outstanding) := by
  have houtside : ∀ r ∈ outstanding, r.block ≠ address := by
    intro r hr heq
    obtain ⟨b, hb, haddress, -⟩ := h.inside r hr
    exact hfresh b hb (haddress.trans heq)
  have hnew : (⟨address, 0, alignStaging size, serial⟩ : Staging) ∉ outstanding :=
    fun hr => houtside _ hr rfl
  refine ⟨?_, ?_, ?_, ?_, ?_⟩
  · rw [List.map_append, List.nodup_append]
    refine ⟨h.addresses, List.nodup_singleton _, ?_⟩
    intro a ha b hb
    obtain ⟨block, hblock, rfl⟩ := List.mem_map.1 ha
    obtain rfl := List.mem_singleton.1 hb
    exact hfresh block hblock
  · intro r hr
    rcases Finset.mem_insert.1 hr with rfl | hr
    · refine ⟨.create stagingBlockBytes address device deviceLocal size, by simp, rfl, ?_⟩
      simp [StagingBlock.create]
    · obtain ⟨b, hb, hin⟩ := h.inside r hr
      exact ⟨b, by simp [hb], hin⟩
  · intro r hr
    rcases Finset.mem_insert.1 hr with rfl | hr
    · exact Nat.dvd_zero _
    · exact h.aligned r hr
  · intro r hr r' hr' hne
    rcases Finset.mem_insert.1 hr with rfl | hr <;> rcases Finset.mem_insert.1 hr' with rfl | hr'
    · exact absurd rfl hne
    · exact fun heq => absurd heq.symm (houtside r' hr')
    · exact fun heq => absurd heq (houtside r hr)
    · exact h.apart r hr r' hr' hne
  · intro b hb
    rw [rangesIn_insert hnew]
    rcases List.mem_append.1 hb with hb | hb
    · rw [if_neg (hfresh b hb).symm]
      exact h.live b hb
    · obtain rfl := List.mem_singleton.1 hb
      have hnone : rangesIn outstanding address = 0 := by
        refine Finset.card_eq_zero.2 (Finset.filter_eq_empty_iff.2 fun r hr => houtside r hr)
      simp [StagingBlock.create, hnone]

theorem dropRange_addresses : (dropRange blocks r).map StagingBlock.address =
    blocks.map StagingBlock.address := by
  rw [dropRange, List.map_map]
  refine List.map_congr_left fun b _ => ?_
  simp only [Function.comp_apply]
  split <;> simp

theorem mem_dropRange {b : StagingBlock} (hb : b ∈ blocks) :
    (if b.address = r.block then b.drop else b) ∈ dropRange blocks r := List.mem_map_of_mem hb

/-- One range goes back. -/
theorem Stocked.dropOne (h : Stocked blocks outstanding) (hr : r ∈ outstanding) :
    Stocked (dropRange blocks r) (outstanding.erase r) := by
  refine ⟨?_, ?_, ?_, ?_, ?_⟩
  · rw [dropRange_addresses]
    exact h.addresses
  · intro r' hr'
    obtain ⟨hne, hr'⟩ := Finset.mem_erase.1 hr'
    obtain ⟨b, hb, haddress, hle⟩ := h.inside r' hr'
    refine ⟨_, mem_dropRange (r := r) hb, ?_, ?_⟩
    · split <;> simpa using haddress
    · split
      · next heq =>
        -- Another range of the block is still out, so it is not rewound.
        have hpos := rangesIn_pos (Finset.mem_erase.2 ⟨hne, hr'⟩)
        have herase := @rangesIn_erase _ _ b.address hr
        rw [if_pos heq.symm] at herase
        rw [← haddress] at hpos
        have hlive := h.live b hb
        rwa [StagingBlock.drop_head (by omega)]
      · exact hle
  · exact fun r' hr' => h.aligned r' (Finset.mem_of_mem_erase hr')
  · exact fun r' hr' r'' hr'' =>
      h.apart r' (Finset.mem_of_mem_erase hr') r'' (Finset.mem_of_mem_erase hr'')
  · intro b' hb'
    obtain ⟨b, hb, rfl⟩ := List.mem_map.1 hb'
    have hlive := h.live b hb
    have herase := @rangesIn_erase _ _ b.address hr
    split
    · next heq =>
      rw [if_pos heq.symm] at herase
      rw [StagingBlock.drop_live, StagingBlock.drop_address]
      omega
    · next hne =>
      rw [if_neg fun heq => hne heq.symm] at herase
      omega

theorem Stocked.dropAll {released : List Staging} (h : Stocked blocks outstanding)
    (hin : ∀ r ∈ released, r ∈ outstanding) (hnd : released.Nodup) :
    Stocked (released.foldl dropRange blocks) (outstanding \ released.toFinset) := by
  induction released generalizing blocks outstanding with
  | nil => simpa using h
  | cons r rest ih =>
    obtain ⟨hrest, hnd⟩ := List.nodup_cons.1 hnd
    have hstep := ih (h.dropOne (hin r (.head _))) (fun r' hr' => Finset.mem_erase.2
      ⟨fun heq => hrest (heq ▸ hr'), hin r' (.tail _ hr')⟩) hnd
    rw [List.foldl_cons, List.toFinset_cons, Finset.insert_eq, Finset.sdiff_union_distrib,
      ← Finset.sdiff_sdiff_left', Finset.sdiff_singleton_eq_erase]
    exact hstep

theorem sweep_sublist (limit idleBytes : Nat) (blocks : List StagingBlock) :
    (sweep limit idleBytes blocks).Sublist blocks := by
  induction blocks generalizing idleBytes with
  | nil => exact .slnil
  | cons b rest ih =>
    simp only [sweep]
    split
    · exact (ih _).cons _
    · exact (ih _).cons_cons _

/-- A block that is not empty stays. -/
theorem mem_sweep {limit idleBytes : Nat} (hb : block ∈ blocks) (hlive : block.live ≠ 0) :
    block ∈ sweep limit idleBytes blocks := by
  induction blocks generalizing idleBytes with
  | nil => cases hb
  | cons b rest ih =>
    simp only [sweep]
    rcases List.mem_cons.1 hb with rfl | hb
    · rw [if_neg fun h => hlive h.1]
      exact .head _
    · split
      · exact ih hb
      · exact .tail _ (ih hb)

theorem Stocked.sweep (h : Stocked blocks outstanding) (limit idleBytes : Nat) :
    Stocked (sweep limit idleBytes blocks) outstanding := by
  refine ⟨h.addresses.sublist ((sweep_sublist limit idleBytes blocks).map _),
    ?_, h.aligned, h.apart, ?_⟩
  · intro r hr
    obtain ⟨b, hb, haddress, hle⟩ := h.inside r hr
    refine ⟨b, mem_sweep hb ?_, haddress, hle⟩
    have hpos := rangesIn_pos hr
    have hlive := h.live b hb
    rw [haddress] at hlive
    omega
  · exact fun b hb => h.live b ((sweep_sublist limit idleBytes blocks).subset hb)

theorem Stocked.release {stagingBlockBytes : Nat} {released : List Staging}
    (h : Stocked blocks outstanding)
    (hin : ∀ r ∈ released, r ∈ outstanding) (hnd : released.Nodup) :
    Stocked (releaseStaging stagingBlockBytes blocks released) (outstanding \ released.toFinset) :=
  (h.dropAll hin hnd).sweep _ _

/-- A block that a range is still out of keeps its head. -/
theorem Stocked.dropAll_head {released : List Staging} (h : Stocked blocks outstanding)
    (hin : ∀ r ∈ released, r ∈ outstanding) (hnd : released.Nodup) (hb : block ∈ blocks)
    (hout : rangesIn (outstanding \ released.toFinset) block.address ≠ 0) :
    ∃ b ∈ released.foldl dropRange blocks, b.address = block.address ∧ b.head = block.head := by
  induction released generalizing blocks outstanding block with
  | nil => exact ⟨block, hb, rfl, rfl⟩
  | cons r rest ih =>
    obtain ⟨hrest, hnd⟩ := List.nodup_cons.1 hnd
    have hr := hin r (.head _)
    rw [List.toFinset_cons, Finset.insert_eq, Finset.sdiff_union_distrib,
      ← Finset.sdiff_sdiff_left',
      Finset.sdiff_singleton_eq_erase] at hout
    have hstep : ∀ b : StagingBlock, b.address = block.address →
        rangesIn (outstanding.erase r \ rest.toFinset) b.address ≠ 0 := fun b heq => heq ▸ hout
    have hle : rangesIn (outstanding.erase r \ rest.toFinset) block.address ≤
        rangesIn (outstanding.erase r) block.address :=
      Finset.card_le_card (Finset.filter_subset_filter _ Finset.sdiff_subset)
    have hrest' : ∀ r' ∈ rest, r' ∈ outstanding.erase r := fun r' hr' => Finset.mem_erase.2
      ⟨fun heq => hrest (heq ▸ hr'), hin r' (.tail _ hr')⟩
    obtain ⟨b, hbin, haddress, hhead⟩ := ih (h.dropOne hr) hrest' hnd (mem_dropRange (r := r) hb)
      (hstep _ (by split <;> simp))
    refine ⟨b, hbin, haddress.trans (by split <;> simp), hhead.trans ?_⟩
    split
    · next heq =>
      have herase := @rangesIn_erase _ _ block.address hr
      rw [if_pos heq.symm] at herase
      have hlive := h.live block hb
      exact StagingBlock.drop_head (by omega)
    · rfl

/-- `ReleaseStaging` rewinds and destroys only blocks that nothing is out of any more. -/
theorem Stocked.release_keeps {stagingBlockBytes : Nat} {released : List Staging}
    (h : Stocked blocks outstanding) (hin : ∀ r ∈ released, r ∈ outstanding) (hnd : released.Nodup)
    (hb : block ∈ blocks) (hout : rangesIn (outstanding \ released.toFinset) block.address ≠ 0) :
    ∃ b ∈ releaseStaging stagingBlockBytes blocks released,
      b.address = block.address ∧ b.head = block.head := by
  obtain ⟨b, hbin, haddress, hhead⟩ := h.dropAll_head hin hnd hb hout
  have hlive := (h.dropAll hin hnd).live b hbin
  rw [haddress] at hlive
  exact ⟨b, mem_sweep hbin (hlive ▸ hout), haddress, hhead⟩

/-- `AcquireStaging` rewinds and destroys none. -/
theorem acquireFrom_keeps
    (hacquire : acquireFrom device deviceLocal size serial blocks = some (blocks', r))
    (hb : block ∈ blocks) : ∃ b ∈ blocks', b.address = block.address ∧ block.head ≤ b.head := by
  obtain ⟨before, taken, after, rfl, rfl, hfits, -⟩ := acquireFrom_eq_some hacquire
  obtain ⟨hhead, -, -⟩ := StagingBlock.take_of_fits hfits
  simp only [List.mem_append, List.mem_cons] at hb
  rcases hb with hb | rfl | hb
  · exact ⟨block, by simp [hb], rfl, le_rfl⟩
  · exact ⟨block.take size, by simp, by simp, by omega⟩
  · exact ⟨block, by simp [hb], rfl, le_rfl⟩

end Stocked

end Nightcap.Graphics
