import Nightcap.Graphics.EtcGather

/-! The levels of an upscaled image: its own below the top ones, and what a region of either becomes
on the host. -/
namespace Nightcap.Graphics.Copies

open Checked

variable {base scale mip top : UInt32} {record : ImageRecord}

/-! Sizes. -/

theorem level_pos (size mip : Nat) : 0 < Budget.level size mip :=
  Nat.lt_of_lt_of_le Nat.zero_lt_one (Nat.le_max_left ..)

theorem mipExtent_toNat (hmip : mip.toNat < 32) :
    (mipExtent base mip).toNat = Budget.level base.toNat mip.toNat := by
  have hshift : (base >>> mip).toNat = base.toNat >>> mip.toNat := by
    rw [UInt32.toNat_shiftRight, Nat.mod_eq_of_lt hmip]
  rw [mipExtent, Budget.level, ← hshift]
  change (if (1 : UInt32) ≤ base >>> mip then base >>> mip else 1).toNat = _
  have hone : (1 : UInt32).toNat = 1 := rfl
  split
  · rename_i h
    rw [UInt32.le_iff_toNat_le, hone] at h
    omega
  · rename_i h
    rw [UInt32.le_iff_toNat_le, hone] at h
    omega

/-- Host level `top + k` is as large as the image's level `k`. -/
theorem level_native (size top k : Nat) : Budget.level (size * 2 ^ top)
    (top + k) = Budget.level size k := by
  rw [Budget.level, Budget.level, Nat.shiftRight_add, Nat.shiftRight_eq_div_pow (size * 2 ^ top),
    Nat.mul_div_cancel _ (Nat.two_pow_pos top)]

/-- A host level above them is as large as level 0 at its own factor. -/
theorem level_top (size : Nat) {top l : Nat} (h : l ≤ top) :
    Budget.level (size * 2 ^ top) l = Budget.level (size * 2 ^ (top - l)) 0 := by
  have hsplit : size * 2 ^ top = size * 2 ^ (top - l) * 2 ^ l := by
    rw [Nat.mul_assoc, ← Nat.pow_add, Nat.sub_add_cancel h]
  have hnative := level_native (size * 2 ^ (top - l)) l 0
  rw [Nat.add_zero] at hnative
  rw [hsplit, hnative]

/-! One axis of a region. -/

/-- Where the host has the texel of an application mip: its edge is the host mip's edge. -/
def hostTexel (base scale mip texel : Nat) : Nat :=
  if Budget.level base mip ≤ texel then Budget.level (base * scale) mip else texel * scale

theorem mul_level_le {base scale mip : Nat} (h : base >>> mip ≠ 0) :
    Budget.level base mip * scale ≤ Budget.level (base * scale) mip := by
  have hle : base / 2 ^ mip * scale ≤ base * scale / 2 ^ mip := by
    rw [Nat.le_div_iff_mul_le (Nat.two_pow_pos mip), Nat.mul_right_comm]
    exact Nat.mul_le_mul_right _ (Nat.div_mul_le_self ..)
  rw [Nat.shiftRight_eq_div_pow] at h
  rw [Budget.level, Budget.level, Nat.shiftRight_eq_div_pow, Nat.shiftRight_eq_div_pow,
    max_eq_right (Nat.one_le_iff_ne_zero.2 h)]
  exact hle.trans (Nat.le_max_right ..)

/-- Texels before the edge are before the host's edge, with all of theirs. -/
theorem mul_lt_hostLevel {base scale mip texel : Nat} (hscale : 0 < scale)
    (h : texel < Budget.level base mip) :
    texel * scale < Budget.level (base * scale) mip := by
  rcases Nat.eq_zero_or_pos (base >>> mip) with h0 | hpos
  · have htexel : texel = 0 := by
      rw [Budget.level, h0] at h
      omega
    rw [htexel, Nat.zero_mul]
    exact level_pos ..
  · have hlt := Nat.mul_lt_mul_of_pos_right h hscale
    exact hlt.trans_le (mul_level_le hpos.ne')

theorem hostTexel_lt {base scale mip texel texel' : Nat} (hscale : 0 < scale) (h : texel < texel')
    (hlt : texel < Budget.level base mip) :
    hostTexel base scale mip texel < hostTexel base scale mip texel' := by
  rw [hostTexel, if_neg (Nat.not_le.2 hlt), hostTexel]
  split
  · exact mul_lt_hostLevel hscale hlt
  · exact Nat.mul_lt_mul_of_pos_right h hscale

theorem toUInt32_toNat {offset : Int32} {texel : Nat} (h : offset.toInt = texel) :
    offset.toUInt32.toNat = texel := by
  have hbits : offset.toUInt32.toNat = offset.toBitVec.toNat := rfl
  have hint : offset.toInt = offset.toBitVec.toInt := rfl
  rw [hbits]
  rw [hint, BitVec.toInt_eq_toNat_cond] at h
  have hlt := offset.toBitVec.isLt
  split at h <;> omega

/-- A region that begins before the edge of the mip. -/
theorem scaledAxis_spec {offset : Int32} {extent : UInt32} {start : Nat} (hmip : mip.toNat < 32)
    (hscale : 0 < scale.toNat) (hbase : base.toNat * scale.toNat < 2 ^ 32)
    (hoffset : offset.toInt = start)
    (hstart : start < Budget.level base.toNat mip.toNat) (hextent : 0 < extent.toNat)
    (hend : start + extent.toNat < 2 ^ 32) :
    ∃ axis, scaledAxis base scale mip offset extent = some axis ∧
      axis.hostStart.toNat = hostTexel base.toNat scale.toNat mip.toNat start ∧
      axis.hostEnd.toNat = hostTexel base.toNat scale.toNat mip.toNat (start + extent.toNat) ∧
      axis.texels.toNat = min (Budget.level base.toNat mip.toNat)
        (start + extent.toNat) - start := by
  have hproduct : (base * scale).toNat = base.toNat * scale.toNat := by
    rw [UInt32.toNat_mul, Nat.mod_eq_of_lt hbase]
  have hsize : (mipExtent base mip).toNat = Budget.level base.toNat mip.toNat :=
    mipExtent_toNat hmip
  have hhost : (mipExtent (base * scale) mip).toNat =
      Budget.level (base.toNat * scale.toNat) mip.toNat := by
    rw [mipExtent_toNat hmip, hproduct]
  have hoff := toUInt32_toNat hoffset
  have hbound : Budget.level (base.toNat * scale.toNat) mip.toNat < 2 ^ 32 :=
    hhost ▸ UInt32.toNat_lt _
  have hnext : (offset.toUInt32 + extent).toNat = start + extent.toNat := by
    rw [UInt32.toNat_add, hoff, Nat.mod_eq_of_lt hend]
  have happEnd : (min (mipExtent base mip) (offset.toUInt32 + extent)).toNat =
      min (Budget.level base.toNat mip.toNat) (start + extent.toNat) := by
    rw [toNat_min, hsize, hnext]
  have hfirst : (offset.toUInt32 * scale).toNat =
      hostTexel base.toNat scale.toNat mip.toNat start := by
    have hlt := mul_lt_hostLevel hscale hstart
    rw [UInt32.toNat_mul, hoff, Nat.mod_eq_of_lt (by omega), hostTexel,
      if_neg (Nat.not_le.2 hstart)]
  have hlast : (if min (mipExtent base mip) (offset.toUInt32 + extent) = mipExtent base mip then
        mipExtent (base * scale) mip
      else min (mipExtent (base * scale) mip)
        (min (mipExtent base mip) (offset.toUInt32 + extent) * scale)).toNat =
      hostTexel base.toNat scale.toNat mip.toNat (start + extent.toNat) := by
    rw [hostTexel]
    split
    · rename_i h
      rw [← UInt32.toNat_inj, happEnd, hsize] at h
      rw [if_pos (by omega), hhost]
    · rename_i h
      rw [← UInt32.toNat_inj, happEnd, hsize] at h
      have hlt :=
        mul_lt_hostLevel hscale
          (show start + extent.toNat < Budget.level base.toNat mip.toNat by omega)
      have hinside : min (Budget.level base.toNat mip.toNat) (start + extent.toNat) =
          start + extent.toNat := by
        omega
      have hscaled : (min (mipExtent base mip) (offset.toUInt32 + extent) * scale).toNat =
          (start + extent.toNat) * scale.toNat := by
        rw [UInt32.toNat_mul, happEnd, hinside, Nat.mod_eq_of_lt (by omega)]
      rw [if_neg (by omega), toNat_min, hhost, hscaled, Nat.min_eq_right hlt.le]
  have horder :=
    @hostTexel_lt base.toNat scale.toNat mip.toNat start (start + extent.toNat) hscale (by omega)
    hstart
  have hin : ¬ (offset < 0 ∨ mipExtent base mip ≤ offset.toUInt32) := by
    rw [Int32.lt_iff_toInt_lt, hoffset, UInt32.le_iff_toNat_le, hsize, hoff]
    have hzero : (0 : Int32).toInt = 0 := rfl
    omega
  rw [scaledAxis]
  simp only
  rw [if_neg hin, if_neg (by rw [UInt32.le_iff_toNat_le, hlast, hfirst]; omega)]
  refine ⟨_, rfl, hfirst, hlast, ?_⟩
  have hle : offset.toUInt32 ≤ min (mipExtent base mip) (offset.toUInt32 + extent) := by
    rw [UInt32.le_iff_toNat_le, happEnd, hoff]
    omega
  rw [UInt32.toNat_sub_of_le _ _ hle, happEnd, hoff]

/-! Regions along an axis. -/

structure AxisRegion where
  offset : Int32
  extent : UInt32
deriving DecidableEq

/-- Regions of a mip of so many texels, one after the other from a texel on: each begins before the
edge, so that only the last may reach past it. -/
def Tiles (size : Nat) : Nat → List AxisRegion → Prop
  | start, [] => size ≤ start
  | start, region :: regions =>
    start < size ∧ region.offset.toInt = start ∧ 0 < region.extent.toNat ∧
      Tiles size (start + region.extent.toNat) regions

/-- Host intervals, none of them empty, one after the other from a texel to the last. -/
def Covers (stop : Nat) : Nat → List Axis → Prop
  | start, [] => start = stop
  | start, axis :: axes =>
    axis.hostStart.toNat = start ∧ start < axis.hostEnd.toNat ∧ Covers stop axis.hostEnd.toNat axes

theorem scaledAxis_tiles {regions : List AxisRegion} {start : Nat} (hmip : mip.toNat < 32)
    (hscale : 0 < scale.toNat) (hbase : base.toNat * scale.toNat < 2 ^ 32)
    (htiles : Tiles (Budget.level base.toNat mip.toNat) start regions)
    (hends : ∀ region ∈ regions, region.offset.toInt + region.extent.toNat < 2 ^ 32) :
    ∃ axes, regions.map (fun region => scaledAxis base scale mip region.offset region.extent) =
      axes.map some ∧
      Covers (Budget.level (base.toNat * scale.toNat) mip.toNat)
        (hostTexel base.toNat scale.toNat mip.toNat start) axes ∧
      (axes.map fun axis => axis.texels.toNat).sum = Budget.level base.toNat mip.toNat - start := by
  induction regions generalizing start with
  | nil =>
    have hdone : Budget.level base.toNat mip.toNat ≤ start := htiles
    refine ⟨[], rfl, ?_, ?_⟩
    · rw [hostTexel, if_pos hdone]
      exact rfl
    · rw [Nat.sub_eq_zero_of_le hdone]
      rfl
  | cons region regions ih =>
    obtain ⟨hstart, hoffset, hextent, hrest⟩ := htiles
    have hend := hends region (List.mem_cons_self ..)
    rw [hoffset] at hend
    obtain ⟨axis, haxis, hfirst, hlast, htexels⟩ :=
      scaledAxis_spec hmip hscale hbase hoffset hstart hextent (by omega)
    obtain ⟨axes, haxes, hcovers, hsum⟩ := ih hrest fun r hr => hends r (List.mem_cons_of_mem _ hr)
    refine ⟨axis :: axes, by rw [List.map_cons, haxis, haxes, List.map_cons], ⟨hfirst, ?_, ?_⟩, ?_⟩
    · rw [hlast]
      exact hostTexel_lt hscale (by omega) hstart
    · rw [hlast]
      exact hcovers
    · rw [List.map_cons, List.sum_cons, htexels, hsum]
      omega

/-! Ranges of levels. -/

/-- The first level past the range, in an image of so many levels. -/
def LevelRange.stop (levels : Nat) (range : LevelRange) : Nat :=
  if range.count = kRemainingMipLevels then levels else range.base.toNat + range.count.toNat

/-- Ranges, none of them empty, one after the other from a level to the image's last. -/
def Ranges (levels : Nat) : Nat → List LevelRange → Prop
  | start, [] => start = levels
  | start, range :: ranges =>
    range.base.toNat = start ∧ start < range.stop levels ∧ Ranges levels (range.stop levels) ranges

variable {levels start : Nat} {range : LevelRange} {ranges : List LevelRange}

theorem Ranges.le (h : Ranges levels start ranges) : start ≤ levels := by
  induction ranges generalizing start with
  | nil => exact Nat.le_of_eq h
  | cons range ranges ih => exact h.2.1.le.trans (ih h.2.2)

theorem hostLevels_below (hlevels : levels + top.toNat < 2 ^ 32 - 1)
    (h : Ranges levels start ranges)
    (hstart : 0 < start) :
    Ranges (levels + top.toNat) (start + top.toNat) (ranges.map (hostLevels top)) := by
  induction ranges generalizing start with
  | nil =>
    have hdone : start = levels := h
    rw [hdone]
    exact rfl
  | cons range ranges ih =>
    obtain ⟨hbase, hstop, hrest⟩ := h
    have hle := Ranges.le hrest
    have hmoved : hostLevels top range = { range with base := range.base + top } := by
      rw [hostLevels, if_pos]
      rintro h0
      rw [h0] at hbase
      have hzero : (0 : UInt32).toNat = 0 := rfl
      omega
    have hnext : (range.base + top).toNat = start + top.toNat := by
      rw [UInt32.toNat_add, hbase, Nat.mod_eq_of_lt (by omega)]
    have hend : (hostLevels top range).stop (levels + top.toNat) =
        range.stop levels + top.toNat := by
      rw [hmoved, LevelRange.stop, LevelRange.stop]
      split
      · rfl
      · simp only [hnext, hbase]
        omega
    refine ⟨by rw [hmoved]; exact hnext, by rw [hend]; omega, ?_⟩
    rw [hend]
    exact ih hrest (by omega)

theorem hostLevels_ranges (hlevels : levels + top.toNat < 2 ^ 32 - 1) (hpos : 0 < levels)
    (h : Ranges levels 0 ranges) : Ranges (levels + top.toNat) 0 (ranges.map (hostLevels top)) := by
  cases ranges with
  | nil => exact absurd (show 0 = levels from h) (by omega)
  | cons range ranges =>
    obtain ⟨hbase, hstop, hrest⟩ := h
    have hle := Ranges.le hrest
    have hzero : range.base = 0 := UInt32.toNat.inj hbase
    have hmoved : (hostLevels top range).base = 0 ∧
        (hostLevels top range).stop (levels + top.toNat) = range.stop levels + top.toNat := by
      rw [hostLevels, if_neg (by rw [hzero]; exact not_not_intro rfl)]
      split
      · rename_i hcount
        rw [LevelRange.stop, if_neg hcount, hbase] at hle hstop
        have hsum : (range.count + top).toNat = range.count.toNat + top.toNat := by
          rw [UInt32.toNat_add, Nat.mod_eq_of_lt (by omega)]
        have hsmall : range.count + top ≠ kRemainingMipLevels := by
          intro h
          rw [h] at hsum
          have hmax : kRemainingMipLevels.toNat = 2 ^ 32 - 1 := rfl
          omega
        refine ⟨hzero, ?_⟩
        rw [LevelRange.stop, LevelRange.stop, if_neg hsmall, if_neg hcount]
        simp only [hbase, hsum]
        omega
      · rename_i hcount
        rw [not_not] at hcount
        exact ⟨hzero, by rw [LevelRange.stop, LevelRange.stop, if_pos hcount, if_pos hcount]⟩
    refine ⟨by rw [hmoved.1]; rfl, by rw [hmoved.2]; omega, ?_⟩
    rw [hmoved.2]
    exact hostLevels_below hlevels hrest hstop

/-! The whole image. -/

theorem shiftLeft_two {t : UInt32} (h : t.toNat ≤ 30) :
    (2 <<< t : UInt32).toNat = 2 ^ (t.toNat + 1) := by
  have htwo : (2 : UInt32).toNat = 2 := rfl
  have hlt : 2 ^ (t.toNat + 1) < 2 ^ 32 := Nat.pow_lt_pow_right (by decide) (by omega)
  rw [UInt32.toNat_shiftLeft, htwo, Nat.mod_eq_of_lt (show t.toNat < 32 by omega), Nat.shiftLeft_eq,
    Nat.mul_comm, ← Nat.pow_succ, Nat.mod_eq_of_lt hlt]

theorem topLevelCount_eq (hscale : scale.toNat = 2 ^ top.toNat) (htop : top.toNat ≤ 30) :
    topLevelCount scale = .ok top := by
  have hloop : Meets (loop (topLevelRound scale) kMaxRounds 0) (· = top) fun _ => False := by
    refine meets_loop (fun t => t.toNat ≤ top.toNat)
      (fun t => top.toNat - t.toNat) ?_ (Nat.zero_le _) ?_
    · intro t ht
      have hshift := shiftLeft_two (show t.toNat ≤ 30 by omega)
      rw [topLevelRound]
      refine meets_ite (fun h => ?_) fun h => ?_
      · rw [UInt32.le_iff_toNat_le, hshift, hscale, Nat.pow_le_pow_iff_right (by decide)] at h
        have hnext : (t + 1).toNat = t.toNat + 1 := by
          have hone : (1 : UInt32).toNat = 1 := rfl
          rw [UInt32.toNat_add, hone, Nat.mod_eq_of_lt (by omega)]
        refine meets_ok ⟨?_, ?_⟩ <;> rw [hnext] <;> omega
      · rw [UInt32.le_iff_toNat_le, hshift, hscale, Nat.pow_le_pow_iff_right (by decide)] at h
        exact meets_ok (UInt32.toNat.inj (by omega))
    · simp only [kMaxRounds]
      omega
  obtain ⟨t, ht, rfl⟩ := hloop.ok
  exact ht

/-- A region as large as its mip. -/
theorem scaledAxis_whole (hmip : mip.toNat < 32) (hscale : 0 < scale.toNat)
    (hbase : base.toNat * scale.toNat < 2 ^ 32) :
    ∃ axis, scaledAxis base scale mip 0 (mipExtent base mip) = some axis ∧
      axis.hostStart.toNat = 0 ∧
      axis.hostEnd.toNat = Budget.level (base.toNat * scale.toNat) mip.toNat := by
  have hsize : (mipExtent base mip).toNat = Budget.level base.toNat mip.toNat :=
    mipExtent_toNat hmip
  have hpos := level_pos base.toNat mip.toNat
  obtain ⟨axis, haxis, hfirst, hlast, -⟩ :=
    @scaledAxis_spec base scale mip 0 (mipExtent base mip) 0 hmip
    hscale hbase rfl hpos (by omega) (by rw [Nat.zero_add]; exact UInt32.toNat_lt _)
  refine ⟨axis, haxis, ?_, ?_⟩
  · rw [hfirst, hostTexel, if_neg (Nat.not_le.2 hpos), Nat.zero_mul]
  · rw [hlast, Nat.zero_add, hsize, hostTexel, if_pos le_rfl]

/-- What an axis of an image's levels is on the host: its own levels as planned below the top ones,
each top level as planned at its own factor, and the regions of a mip side by side. -/
structure AxisPlanned (record : ImageRecord) (mipLevels : Nat) (base : UInt32) : Prop where
  native : ∀ k : UInt32, k.toNat < mipLevels →
    Budget.level (base.toNat * record.scale.toNat) (record.top.toNat + k.toNat) =
      Budget.level base.toNat k.toNat ∧
      ∃ axis, scaledAxis base (nativeRecord record).scale k 0 (mipExtent base k) = some axis ∧
        axis.hostStart.toNat = 0 ∧
        axis.hostEnd.toNat =
          Budget.level (base.toNat * record.scale.toNat)
            ((nativeRecord record).mipOffset.toNat + k.toNat)
  above : ∀ l : UInt32, l < record.top →
    ∃ axis, scaledAxis base (topRecord record l).scale 0 0 (mipExtent base 0) = some axis ∧
      axis.hostStart.toNat = 0 ∧
      axis.hostEnd.toNat =
        Budget.level (base.toNat * record.scale.toNat) (topRecord record l).mipOffset.toNat
  tiles : ∀ mip : UInt32, mip.toNat < mipLevels → ∀ regions : List AxisRegion,
    Tiles (Budget.level base.toNat mip.toNat) 0 regions →
    (∀ region ∈ regions, region.offset.toInt + region.extent.toNat < 2 ^ 32) →
    ∃ axes,
      regions.map (fun region => scaledAxis base record.scale mip region.offset region.extent) =
        axes.map some ∧
      Covers (Budget.level (base.toNat * record.scale.toNat) mip.toNat) 0 axes ∧
      (axes.map fun axis => axis.texels.toNat).sum = Budget.level base.toNat mip.toNat

theorem axisPlanned {mipLevels : Nat} (hscale : record.scale.toNat = 2 ^ record.top.toNat)
    (hbase : base.toNat * record.scale.toNat < 2 ^ 32) (hlevels : mipLevels ≤ 32) :
    AxisPlanned record mipLevels base := by
  have hpos : 0 < record.scale.toNat := hscale ▸ Nat.two_pow_pos _
  have htop : record.top.toNat < 32 := by
    have hlt := UInt32.toNat_lt record.scale
    rwa [hscale, Nat.pow_lt_pow_iff_right (by decide)] at hlt
  refine ⟨fun k hk => ?_, fun l hl => ?_, fun mip hmip regions htiles hends => ?_⟩
  · have hnative := level_native base.toNat record.top.toNat k.toNat
    rw [← hscale] at hnative
    have hone : (nativeRecord record).scale.toNat = 1 := rfl
    obtain ⟨axis, haxis, hfirst, hlast⟩ := @scaledAxis_whole base (nativeRecord record).scale k
      (show k.toNat < 32 by omega) (by rw [hone]; exact Nat.one_pos)
      (by rw [hone, Nat.mul_one]; exact UInt32.toNat_lt base)
    rw [hone, Nat.mul_one, ← hnative] at hlast
    exact ⟨hnative, axis, haxis, hfirst, hlast⟩
  · have hlt := UInt32.lt_iff_toNat_lt.1 hl
    have hfactor : (topRecord record l).scale.toNat = 2 ^ (record.top.toNat - l.toNat) := by
      change (record.scale >>> l).toNat = _
      rw [UInt32.toNat_shiftRight, Nat.mod_eq_of_lt (show l.toNat < 32 by omega), hscale,
        Nat.shiftRight_eq_div_pow,
        Nat.pow_div hlt.le (by decide)]
    have hsmall : base.toNat * (topRecord record l).scale.toNat < 2 ^ 32 := by
      refine (Nat.mul_le_mul_left _ ?_).trans_lt hbase
      rw [hfactor, hscale]
      exact Nat.pow_le_pow_right (by decide) (Nat.sub_le ..)
    have hzero : (0 : UInt32).toNat = 0 := rfl
    obtain ⟨axis, haxis, hfirst, hlast⟩ := @scaledAxis_whole base (topRecord record l).scale 0
      (by rw [hzero]; decide) (by rw [hfactor]; exact Nat.two_pow_pos _) hsmall
    refine ⟨axis, haxis, hfirst, ?_⟩
    have habove := level_top base.toNat hlt.le
    rw [hlast, hfactor, hscale, hzero]
    exact habove.symm
  · obtain ⟨axes, haxes, hcovers, hsum⟩ :=
      scaledAxis_tiles (show mip.toNat < 32 by omega) hpos hbase htiles hends
    rw [hostTexel, if_neg (Nat.not_le.2 (level_pos ..)), Nat.zero_mul] at hcovers
    exact ⟨axes, haxes, hcovers, hsum⟩

/-- An upscaled image: its levels are as planned on both axes, and ranges of them are ranges of host
levels. -/
theorem upscaledLevels_spec (record : ImageRecord) (mipLevels : Nat)
    (hscale : record.scale.toNat = 2 ^ record.top.toNat)
    (hwidth : record.width.toNat * record.scale.toNat < 2 ^ 32)
    (hheight : record.height.toNat * record.scale.toNat < 2 ^ 32) (hpos : 0 < mipLevels)
    (hlevels : mipLevels ≤ Nat.log2 (max record.width.toNat record.height.toNat) + 1) :
    (record.top.toNat ≤ 30 → topLevelCount record.scale = .ok record.top) ∧
      AxisPlanned record mipLevels record.width ∧ AxisPlanned record mipLevels record.height ∧
      ∀ ranges, Ranges mipLevels 0 ranges →
        Ranges (mipLevels + record.top.toNat) 0 (ranges.map (hostLevels record.top)) := by
  have hlog : mipLevels ≤ 32 := by
    have hmax : max record.width.toNat record.height.toNat < 2 ^ 32 :=
      Nat.max_lt.2 ⟨UInt32.toNat_lt _, UInt32.toNat_lt _⟩
    rcases Nat.eq_zero_or_pos (max record.width.toNat record.height.toNat) with h0 | hne
    · rw [h0] at hlevels
      have hzero : Nat.log2 0 = 0 := rfl
      omega
    · have hlt := (Nat.log2_lt hne.ne').2 hmax
      omega
  have htop : record.top.toNat < 32 := by
    have hlt := UInt32.toNat_lt record.scale
    rwa [hscale, Nat.pow_lt_pow_iff_right (by decide)] at hlt
  exact ⟨topLevelCount_eq hscale, axisPlanned hscale hwidth hlog, axisPlanned hscale hheight hlog,
    fun ranges h => hostLevels_ranges (by omega) hpos h⟩

/-- 13 x 7 texels at a factor of four, with all their mips. -/
theorem upscaledLevels_spec_odd :
    let record : ImageRecord :=
      { format := .etc2Rgb8, scale := 4, top := 2, width := 13, height := 7 }
    topLevelCount 4 = .ok 2 ∧ AxisPlanned record 4 13 ∧ AxisPlanned record 4 7 ∧
      Ranges 6 0 ([⟨0, 1⟩, ⟨1, kRemainingMipLevels⟩].map (hostLevels 2)) := by
  intro record
  have h := upscaledLevels_spec record 4 rfl (by decide) (by decide) (by decide) (by decide)
  exact ⟨h.1 (by decide), h.2.1, h.2.2.1, h.2.2.2 _ ⟨rfl, by decide, rfl, by decide, rfl⟩⟩

/-- A last region so wide that its end wraps around has no place on the host. -/
theorem scaledAxis_wraps :
    Tiles (Budget.level 8 0) 0 [⟨0, 4⟩, ⟨4, 2 ^ 32 - 2⟩] ∧
      scaledAxis 8 2 0 0 4 = some ⟨4, 0, 8⟩ ∧ scaledAxis 8 2 0 4 (2 ^ 32 - 2) = none :=
  ⟨⟨by decide, rfl, by decide, by decide, rfl, by decide, Nat.le_of_ble_eq_true rfl⟩,
    by decide, by decide⟩

end Nightcap.Graphics.Copies
