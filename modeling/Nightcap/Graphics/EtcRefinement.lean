import Nightcap.Graphics.EtcImage

/-! Whatever the schedule, a batch leaves what decoding each image row by row leaves. -/
namespace Nightcap.Graphics

open WorkQueue Transition

variable {target : Target} {job : EtcDecodeJob} {jobs : List EtcDecodeJob} {plan : DecodePlan}
  {y x r c k i : Nat}

/-- The block counts of an image, rounded up. -/
def ceil4 (n : Nat) : Nat := (n + 3) / 4

namespace EtcDecodeJob

/-- Both buffers are there and large enough for a non-empty image. -/
structure Holds (job : EtcDecodeJob) : Prop where
  source : job.source.isSome = true
  destination : job.destination = true
  width : 0 < job.width.toNat
  height : 0 < job.height.toNat
  blocks : ceil4 job.width.toNat * ceil4 job.height.toNat * etcBlockBytes job.format ≤
    job.sourceBytes.toNat
  texels : job.width.toNat * job.height.toNat * job.texelBytes ≤ job.destinationBytes.toNat

/-- Byte counts as large as any buffer. -/
structure Bounded (job : EtcDecodeJob) : Prop where
  source : job.sourceBytes.toNat < 2 ^ 48
  destination : job.destinationBytes.toNat < 2 ^ 48

theorem toNat_blocksWide : job.blocksWide.toNat = ceil4 job.width.toNat := by
  have hw := job.width.toNat_lt
  simp [blocksWide, UInt64.toNat_div, UInt64.toNat_add, ceil4]
  omega

theorem toNat_blocksHigh : job.blocksHigh.toNat = ceil4 job.height.toNat := by
  have hh := job.height.toNat_lt
  simp [blocksHigh, UInt64.toNat_div, UInt64.toNat_add, ceil4]
  omega

theorem toNat_blocksWide32 : job.blocksWide32.toNat = (job.width.toNat + 3) % 2 ^ 32 / 4 := by
  simp [blocksWide32, UInt32.toNat_div, UInt32.toNat_add]

theorem toNat_blocksHigh32 : job.blocksHigh32.toNat = (job.height.toNat + 3) % 2 ^ 32 / 4 := by
  simp [blocksHigh32, UInt32.toNat_div, UInt32.toNat_add]

theorem texelBytes_cases (job : EtcDecodeJob) : job.texelBytes = 2 ∨ job.texelBytes = 4 := by
  unfold texelBytes
  cases job.format <;> simp [etcDecodedTexelBytes]

theorem blockBytes_cases (job : EtcDecodeJob) : etcBlockBytes job.format = 8 ∨
    etcBlockBytes job.format = 16 := by
  cases job.format <;> simp [etcBlockBytes]

end EtcDecodeJob

open EtcDecodeJob

/-- If one of the two 64-bit products wraps, the other refuses the image. -/
theorem products_exact {w h bb tb source destination : Nat} (hw : w < 2 ^ 32) (hh : h < 2 ^ 32)
    (hbb : bb = 8 ∨ bb = 16) (htb : tb = 2 ∨ tb = 4) (hs : source < 2 ^ 48)
    (hd : destination < 2 ^ 48) :
    (ceil4 w * ceil4 h * bb % 2 ^ 64 ≤ source ∧ w * h * tb % 2 ^ 64 ≤ destination) ↔
      (ceil4 w * ceil4 h * bb ≤ source ∧ w * h * tb ≤ destination) := by
  have hcw : ceil4 w ≤ 2 ^ 30 := by
    simp only [ceil4]
    omega
  have hch : ceil4 h ≤ 2 ^ 30 := by
    simp only [ceil4]
    omega
  have hprod : ceil4 w * ceil4 h ≤ 2 ^ 60 := by
    calc ceil4 w * ceil4 h ≤ 2 ^ 30 * 2 ^ 30 := Nat.mul_le_mul hcw hch
      _ = 2 ^ 60 := by norm_num
  constructor
  · rintro ⟨h₁, h₂⟩
    by_cases hfull : ceil4 w * ceil4 h = 2 ^ 60
    · -- Only an image of 2 ^ 30 by 2 ^ 30 blocks can wrap the first product; the second refuses it.
      exfalso
      have hw30 : ceil4 w = 2 ^ 30 := by
        by_contra hne
        have hlt : ceil4 w ≤ 2 ^ 30 - 1 := by omega
        have hle := Nat.mul_le_mul hlt hch
        omega
      have hh30 : ceil4 h = 2 ^ 30 := by
        by_contra hne
        have hlt : ceil4 h ≤ 2 ^ 30 - 1 := by omega
        have hle := Nat.mul_le_mul hcw hlt
        omega
      simp only [ceil4] at hw30 hh30
      have hwr : w = 2 ^ 32 - 3 ∨ w = 2 ^ 32 - 2 ∨ w = 2 ^ 32 - 1 := by omega
      have hhr : h = 2 ^ 32 - 3 ∨ h = 2 ^ 32 - 2 ∨ h = 2 ^ 32 - 1 := by omega
      rcases hwr with rfl | rfl | rfl <;> rcases hhr with rfl | rfl | rfl <;>
        rcases htb with rfl | rfl <;> omega
    · have hexact : ceil4 w * ceil4 h * bb % 2 ^ 64 = ceil4 w * ceil4 h * bb := by
        refine Nat.mod_eq_of_lt ?_
        rcases hbb with rfl | rfl <;> omega
      rw [hexact] at h₁
      have harea : w * h ≤ 16 * (ceil4 w * ceil4 h) := by
        have hw4 : w ≤ 4 * ceil4 w := by
          simp only [ceil4]
          omega
        have hh4 : h ≤ 4 * ceil4 h := by
          simp only [ceil4]
          omega
        calc w * h ≤ (4 * ceil4 w) * (4 * ceil4 h) := Nat.mul_le_mul hw4 hh4
          _ = 16 * (ceil4 w * ceil4 h) := by ring
      refine ⟨h₁, ?_⟩
      have hsmall : w * h * tb < 2 ^ 64 := by
        rcases hbb with rfl | rfl <;> rcases htb with rfl | rfl <;> omega
      rwa [Nat.mod_eq_of_lt hsmall] at h₂
  · rintro ⟨h₁, h₂⟩
    exact ⟨(Nat.mod_le _ _).trans h₁, (Nat.mod_le _ _).trans h₂⟩

theorem imageFits_iff (hb : job.Bounded) : job.imageFits = true ↔ job.Holds := by
  have hexact := products_exact job.width.toNat_lt job.height.toNat_lt
    (blockBytes_cases job) (texelBytes_cases job) hb.source hb.destination
  have hblock : (UInt64.ofNat (etcBlockBytes job.format)).toNat = etcBlockBytes job.format := by
    rcases blockBytes_cases job with h | h <;> rw [h] <;> rfl
  have htexel : (UInt64.ofNat job.texelBytes).toNat = job.texelBytes := by
    rcases texelBytes_cases job with h | h <;> rw [h] <;> rfl
  have h₁ : job.blocksWide * job.blocksHigh * UInt64.ofNat (etcBlockBytes job.format) ≤
      job.sourceBytes ↔ ceil4 job.width.toNat * ceil4 job.height.toNat *
        etcBlockBytes job.format % 2 ^ 64 ≤ job.sourceBytes.toNat := by
    rw [UInt64.le_iff_toNat_le, UInt64.toNat_mul, UInt64.toNat_mul, hblock, toNat_blocksWide,
      toNat_blocksHigh, Nat.mod_mul_mod]
  have h₂ : job.width.toUInt64 * job.height.toUInt64 * UInt64.ofNat job.texelBytes ≤
      job.destinationBytes ↔ job.width.toNat * job.height.toNat * job.texelBytes % 2 ^ 64 ≤
        job.destinationBytes.toNat := by
    rw [UInt64.le_iff_toNat_le, UInt64.toNat_mul, UInt64.toNat_mul, htexel,
      UInt32.toNat_toUInt64, UInt32.toNat_toUInt64, Nat.mod_mul_mod]
  have hw : job.width ≠ 0 ↔ 0 < job.width.toNat := by
    rw [Nat.pos_iff_ne_zero, ← UInt32.toNat_zero, ne_eq, ne_eq, UInt32.toNat_inj]
  have hh : job.height ≠ 0 ↔ 0 < job.height.toNat := by
    rw [Nat.pos_iff_ne_zero, ← UInt32.toNat_zero, ne_eq, ne_eq, UInt32.toNat_inj]
  simp only [imageFits, Bool.and_eq_true, decide_eq_true_eq, bne_iff_ne, h₁, h₂, hw, hh]
  constructor
  · rintro ⟨⟨⟨⟨⟨hs, hd⟩, hw⟩, hh⟩, hb⟩, ht⟩
    exact ⟨hs, hd, hw, hh, (hexact.1 ⟨hb, ht⟩).1, (hexact.1 ⟨hb, ht⟩).2⟩
  · intro h
    have hmod := hexact.2 ⟨h.blocks, h.texels⟩
    exact ⟨⟨⟨⟨⟨h.source, h.destination⟩, h.width⟩, h.height⟩, hmod.1⟩, hmod.2⟩

/-! The writes of one image. -/

/-- A byte of a texel of the block at `y`, `x`, written where the texel belongs. -/
inductive TexelWrite (target : Target) (job : EtcDecodeJob) (y x : Nat) : Nat × UInt8 → Prop
  | mk {r c k : Nat} (hr : r < 4) (hc : c < 4) (hk : k < job.texelBytes)
      (hy : y * 4 + r < job.height.toNat) (hx : x * 4 + c < job.width.toNat) :
    TexelWrite target job y x
      (((y * 4 + r) * job.width.toNat + (x * 4 + c)) * job.texelBytes + k,
        texelByte target job.format (job.block y x) (c * 4 + r) k)

theorem mul_add_lt {a b m n : Nat} (ha : a < m) (hb : b < n) : a * n + b < m * n := by
  calc a * n + b < a * n + n := by omega
    _ = (a + 1) * n := by ring
    _ ≤ m * n := Nat.mul_le_mul_right n ha

theorem mul_add_inj {a b a' b' n : Nat} (h : a * n + b = a' * n + b') (hb : b < n) (hb' : b' < n) :
    a = a' ∧ b = b' := by
  have hn : 0 < n := by omega
  have hdiv := congrArg (· / n) h
  simp only [Nat.add_comm _ b, Nat.add_comm _ b', Nat.add_mul_div_right _ _ hn,
    Nat.div_eq_of_lt hb, Nat.div_eq_of_lt hb', Nat.zero_add] at hdiv
  subst hdiv
  exact ⟨rfl, by omega⟩

/-- Inside the image no offset wraps. -/
theorem offset_exact (hf : job.Holds) (hb : job.Bounded) (hy : y < job.height.toNat)
    (hx : x < job.width.toNat) (hk : k < job.texelBytes) :
    offset ((y * job.width.toNat + x) * job.texelBytes + k) =
      (y * job.width.toNat + x) * job.texelBytes + k := by
  have harea : y * job.width.toNat + x < job.width.toNat * job.height.toNat := by
    rw [Nat.mul_comm job.width.toNat]
    exact mul_add_lt hy hx
  have hlt := mul_add_lt harea hk
  have hd := hb.destination
  have ht := hf.texels
  exact Nat.mod_eq_of_lt (by omega)

theorem mem_takeWhile_range {b n : Nat} :
    r ∈ (List.range 4).takeWhile (fun i => decide (b + i < n)) ↔ r < 4 ∧ b + r < n := by
  have hrange : List.range 4 = [0, 1, 2, 3] := rfl
  rw [hrange]
  simp only [List.takeWhile_cons, List.takeWhile_nil, decide_eq_true_eq]
  split_ifs <;> simp <;> omega

theorem texelBytes_rgba (h : isRgbaFamily job.format = true) : job.texelBytes = 4 := by
  unfold texelBytes
  cases hf : job.format <;> simp_all [isRgbaFamily, etcDecodedTexelBytes]

theorem mem_interiorWrites (hf : job.Holds) (hb : job.Bounded)
    (hrgba : isRgbaFamily job.format = true)
    (hy : y * 4 + 4 ≤ job.height.toNat) (hx : x * 4 + 4 ≤ job.width.toNat) {w : Nat × UInt8} :
    w ∈ job.interiorWrites target (job.block y x) y x ↔ TexelWrite target job y x w := by
  have htb := texelBytes_rgba hrgba
  have haddress : ∀ r c k,
      (y * 4 * job.width.toNat + x * 4) * 4 + r * job.width.toNat * 4 + c * 4 + k =
      ((y * 4 + r) * job.width.toNat + (x * 4 + c)) * job.texelBytes + k := by
    intro r c k
    rw [htb]
    ring
  have htexel : ∀ r c, interiorTexel target r c = c * 4 + r := by
    intro r c
    cases target <;> rfl
  simp only [interiorWrites, texelWrites, List.mem_flatMap, List.mem_map, List.mem_range, haddress,
    htexel]
  constructor
  · rintro ⟨r, hr, c, hc, k, hk, rfl⟩
    rw [offset_exact hf hb (by omega) (by omega) hk]
    exact .mk hr hc hk (by omega) (by omega)
  · rintro ⟨hr, hc, hk, hyr, hxc⟩
    rename_i r c k
    exact ⟨r, hr, c, hc, k, hk, by rw [offset_exact hf hb hyr hxc hk]⟩

theorem mem_edgeWrites (hf : job.Holds) (hb : job.Bounded) {w : Nat × UInt8} :
    w ∈ job.edgeWrites target (job.block y x) y x ↔ TexelWrite target job y x w := by
  simp only [edgeWrites, texelWrites, List.mem_flatMap, List.mem_map, mem_takeWhile_range,
    List.mem_range, Nat.add_assoc (_ * _) (x * 4)]
  constructor
  · rintro ⟨r, ⟨hr, hy⟩, c, ⟨hc, hx⟩, k, hk, rfl⟩
    rw [offset_exact hf hb hy hx hk]
    exact .mk hr hc hk hy hx
  · rintro ⟨hr, hc, hk, hy, hx⟩
    rename_i r c k
    exact ⟨r, ⟨hr, hy⟩, c, ⟨hc, hx⟩, k, hk, by rw [offset_exact hf hb hy hx hk]⟩

/-- Interior and edge blocks store the same texels at the same places. -/
theorem mem_blockWrites (hf : job.Holds) (hb : job.Bounded) {w : Nat × UInt8} :
    w ∈ job.blockWrites target y x ↔ TexelWrite target job y x w := by
  unfold blockWrites
  dsimp only
  split
  · next h =>
    simp only [Bool.and_eq_true, decide_eq_true_eq] at h
    exact mem_interiorWrites hf hb h.1.1 h.1.2 h.2
  · exact mem_edgeWrites hf hb

/-- The place of a texel byte determines its block, so any two blocks agree on it. -/
theorem texelWrite_functional {y' x' : Nat} {v w : Nat × UInt8} (hv : TexelWrite target job y x v)
    (hw : TexelWrite target job y' x' w) (h : v.1 = w.1) : v.2 = w.2 := by
  obtain ⟨hr, hc, hk, hy, hx⟩ := hv
  obtain ⟨hr', hc', hk', hy', hx'⟩ := hw
  obtain ⟨hcell, rfl⟩ := mul_add_inj h hk hk'
  obtain ⟨hrow, hcolumn⟩ := mul_add_inj hcell hx hx'
  obtain ⟨rfl, rfl⟩ := mul_add_inj hrow hr hr'
  obtain ⟨rfl, rfl⟩ := mul_add_inj hcolumn hc hc'
  rfl

theorem rows_functional (hf : job.Holds) (hb : job.Bounded) (ys : List Nat) :
    Functional (ys.flatMap (job.rowWrites target)) := by
  intro v hv w hw h
  simp only [List.mem_flatMap, rowWrites] at hv hw
  obtain ⟨y, _, x, _, hv⟩ := hv
  obtain ⟨y', _, x', _, hw⟩ := hw
  exact texelWrite_functional ((mem_blockWrites hf hb).1 hv) ((mem_blockWrites hf hb).1 hw) h

/-- The first byte of the destination is written with row 0. -/
theorem first_byte_written (hf : job.Holds) (hb : job.Bounded) :
    (0, texelByte target job.format (job.block 0 0) 0 0) ∈
      (List.range (ceil4 job.height.toNat)).flatMap (job.rowWrites target) := by
  have hw := hf.width
  have hh := hf.height
  have htb : 0 < job.texelBytes := by
    rcases texelBytes_cases job with h | h <;> omega
  have hwrite : TexelWrite target job 0 0 (0, texelByte target job.format (job.block 0 0) 0 0) := by
    have hwritten : TexelWrite target job 0 0 _ :=
      .mk (r := 0) (c := 0) (k := 0) (by omega) (by omega) htb (by omega) (by omega)
    simpa using hwritten
  refine List.mem_flatMap.2 ⟨0, List.mem_range.2 ?_, List.mem_flatMap.2 ⟨0, List.mem_range.2 ?_,
    (mem_blockWrites hf hb).2 hwrite⟩⟩
  · simp only [ceil4]
    omega
  · rw [toNat_blocksWide]
    simp only [ceil4]
    omega

/-! The bands of a batch. -/

/-- The bands of a job cover its rows in order, each row once. -/
theorem bandsFrom_rows {rows high row : Nat} (hr : 0 < rows) :
    (bandsFrom i rows high row).flatMap (fun b => List.range' b.firstBlockRow b.blockRowCount) =
      List.range' row (high - row) := by
  fun_induction bandsFrom i rows high row with
  | case1 row h ih =>
    rw [List.flatMap_cons, ih]
    dsimp only
    by_cases hlast : high - row ≤ rows
    · rw [Nat.min_eq_right hlast, show high - (row + rows) = 0 by omega]
      simp
    · rw [Nat.min_eq_left (by omega), List.range'_append_1]
      congr 1
      omega
  | case2 row h => simp [show high - row = 0 by omega]

theorem mem_bandsFrom {rows high row : Nat} {b : DecodeBand} (hb : b ∈ bandsFrom i rows high row) :
    b.job = i ∧ b.firstBlockRow + b.blockRowCount ≤ high := by
  fun_induction bandsFrom i rows high row with
  | case1 row h ih =>
    rcases List.mem_cons.1 hb with rfl | hb
    · exact ⟨rfl, by dsimp only; omega⟩
    · exact ih hb
  | case2 row h => cases hb

/-- A write of one image as a write of the batch. -/
def tagged (i : Nat) (w : Nat × UInt8) : (Nat × Nat) × UInt8 := ((i, w.1), w.2)

/-- What a batch writes for one of its jobs. -/
def jobWrites (target : Target) (i : Nat) (job : EtcDecodeJob) : List ((Nat × Nat) × UInt8) :=
  if job.imageFits then
    ((List.range job.blocksHigh32.toNat).flatMap (job.rowWrites target)).map (tagged i)
  else []

theorem blocksHigh32_le (job : EtcDecodeJob) : job.blocksHigh32.toNat ≤ job.blocksHigh.toNat := by
  have hh := job.height.toNat_lt
  rw [toNat_blocksHigh32, toNat_blocksHigh, ceil4]
  omega

theorem bandWrites_eq {b : DecodeBand} (hj : jobs[i]? = some job) (hf : job.imageFits = true)
    (hb : b.job = i) (hle : b.firstBlockRow + b.blockRowCount ≤ job.blocksHigh.toNat) :
    bandWrites target jobs b =
      ((List.range' b.firstBlockRow b.blockRowCount).flatMap (job.rowWrites target)).map
        (tagged i) := by
  subst hb
  simp only [bandWrites, hj, decodeEtcImageBlockRows, hf]
  rw [if_neg (by simp), if_neg (by omega)]
  rfl

theorem rowsPerBand_pos (blocksWide : UInt32) :
    0 < (max 1 (kBlocksPerBand / blocksWide.toUInt64)).toUInt32.toNat := by
  have hq : (kBlocksPerBand / blocksWide.toUInt64).toNat ≤ 4096 := by
    rw [UInt64.toNat_div]
    exact Nat.div_le_self _ _
  change 0 < (if 1 ≤ kBlocksPerBand / blocksWide.toUInt64 then kBlocksPerBand / blocksWide.toUInt64
    else 1).toUInt32.toNat
  rw [UInt64.toNat_toUInt32]
  split
  · next h =>
    have hle := UInt64.le_iff_toNat_le.1 h
    have hone : (1 : UInt64).toNat = 1 := rfl
    omega
  · decide

theorem planJob_writes (target : Target) (hj : jobs[i]? = some job)
    (hp : planJob i job = some plan) :
    plan.ok = [job.imageFits] ∧
      plan.bands.flatMap (bandWrites target jobs) = jobWrites target i job := by
  unfold planJob at hp
  by_cases hf : job.imageFits = true
  · rw [if_neg (by simp [hf])] at hp
    split at hp
    · cases hp
    · next hwide =>
      cases hp
      refine ⟨by rw [hf], ?_⟩
      rw [jobWrites, if_pos hf, List.range_eq_range', ← Nat.sub_zero job.blocksHigh32.toNat,
        ← bandsFrom_rows (i := i) (rowsPerBand_pos job.blocksWide32),
        List.flatMap_assoc, List.map_flatMap]
      refine List.flatMap_congr fun b hb => ?_
      obtain ⟨hbj, hle⟩ := mem_bandsFrom hb
      exact bandWrites_eq hj hf hbj (hle.trans (by simpa using blocksHigh32_le job))
  · rw [if_pos (by simpa using hf)] at hp
    cases hp
    simp [jobWrites, hf]

theorem planJobs_writes {rest : List EtcDecodeJob} (target : Target)
    (hj : ∀ k job, rest[k]? = some job → jobs[i + k]? = some job)
    (hp : planJobs i rest = some plan) :
    plan.ok = rest.map EtcDecodeJob.imageFits ∧
      plan.bands.flatMap (bandWrites target jobs) =
        (rest.zipIdx i).flatMap fun p => jobWrites target p.2 p.1 := by
  induction rest generalizing i plan with
  | nil =>
    cases hp
    exact ⟨rfl, rfl⟩
  | cons job rest ih =>
    simp only [planJobs, Option.bind_eq_bind, Option.bind_eq_some_iff] at hp
    obtain ⟨first, hfirst, more, hmore, hp⟩ := hp
    cases hp
    obtain ⟨hok, hbands⟩ := planJob_writes target (hj 0 job rfl) hfirst
    obtain ⟨hok', hbands'⟩ := ih (i := i + 1) (fun k job hk => by
      have h := hj (k + 1) job (by simpa using hk)
      rwa [show i + (k + 1) = i + 1 + k by omega] at h) hmore
    constructor
    · simp [hok, hok']
    · simp [hbands, hbands']

theorem planJobs_isSome {rest : List EtcDecodeJob} :
    (planJobs i rest).isSome = true ↔
      ∀ job ∈ rest, job.imageFits = true → job.blocksWide32 ≠ 0 := by
  induction rest generalizing i with
  | nil => simp [planJobs]
  | cons job rest ih =>
    rw [List.forall_mem_cons, ← ih (i := i + 1)]
    by_cases hf : job.imageFits = true
    · by_cases hw : job.blocksWide32 = 0
      · simp [planJobs, planJob, hf, hw]
      · cases hr : planJobs (i + 1) rest <;> simp [planJobs, planJob, hf, hw, hr]
    · cases hr : planJobs (i + 1) rest <;> simp [planJobs, planJob, hf, hr]

/-! The whole batch. -/

theorem mem_jobWrites {w : (Nat × Nat) × UInt8} (hw : w ∈ jobWrites target i job) :
    job.imageFits = true ∧ w.1.1 = i ∧
      (w.1.2, w.2) ∈ (List.range job.blocksHigh32.toNat).flatMap (job.rowWrites target) := by
  unfold jobWrites at hw
  split at hw
  · next hf =>
    obtain ⟨v, hv, rfl⟩ := List.mem_map.1 hw
    exact ⟨hf, rfl, hv⟩
  · cases hw

theorem batch_functional (hb : ∀ job ∈ jobs, job.Bounded) :
    Functional ((jobs.zipIdx 0).flatMap fun p => jobWrites target p.2 p.1) := by
  intro v hv w hw h
  obtain ⟨⟨job, k⟩, hjob, hv⟩ := List.mem_flatMap.1 hv
  obtain ⟨⟨job', k'⟩, hjob', hw⟩ := List.mem_flatMap.1 hw
  obtain ⟨hf, hvk, hv⟩ := mem_jobWrites hv
  obtain ⟨_, hwk, hw⟩ := mem_jobWrites hw
  obtain rfl : k = k' := hvk.symm.trans ((congrArg Prod.fst h).trans hwk)
  rw [List.mk_mem_zipIdx_iff_getElem?] at hjob hjob'
  obtain rfl : job = job' := Option.some.inj (hjob.symm.trans hjob')
  have hbound := hb job (List.mem_of_getElem? hjob)
  exact rows_functional ((imageFits_iff hbound).1 hf) hbound _ _ hv _ hw (by rw [h])

/-- What the batch leaves in one job's destination. -/
def rowsWritten (target : Target) (job : EtcDecodeJob) : List (Nat × UInt8) :=
  if job.imageFits then (List.range job.blocksHigh32.toNat).flatMap (job.rowWrites target) else []

theorem jobWrites_tagged :
    ((jobWrites target k job).filter (·.1.1 = i)).map (fun w => (w.1.2, w.2)) =
    if k = i then rowsWritten target job else [] := by
  by_cases hki : k = i
  · subst hki
    rw [if_pos rfl, List.filter_eq_self.2]
    · unfold jobWrites rowsWritten
      split
      · rw [List.map_map]
        exact List.map_id _
      · rfl
    · intro w hw
      simpa using (mem_jobWrites hw).2.1
  · rw [if_neg hki, List.filter_eq_nil_iff.2]
    · rfl
    · intro w hw
      simpa [(mem_jobWrites hw).2.1] using hki

/-- Of all writes of a batch, one job's destination sees those of that job. -/
theorem batch_tagged {rest : List EtcDecodeJob} :
    (((rest.zipIdx k).flatMap fun p => jobWrites target p.2 p.1).filter (·.1.1 = i)).map
        (fun w => (w.1.2, w.2)) =
      if k ≤ i then (rest[i - k]?).elim [] (rowsWritten target) else [] := by
  induction rest generalizing k with
  | nil => simp
  | cons job rest ih =>
    rw [List.zipIdx_cons, List.flatMap_cons, List.filter_append, List.map_append, ih,
      jobWrites_tagged]
    rcases Nat.lt_trichotomy k i with hlt | rfl | hgt
    · rw [if_neg (by omega), if_pos (by omega), if_pos (by omega),
        show i - k = i - (k + 1) + 1 by omega]
      simp
    · simp
    · rw [if_neg (by omega), if_neg (by omega), if_neg (by omega)]
      rfl

/-- Decoding every block row of an image once, in order. -/
def decodeInOrder (target : Target) (job : EtcDecodeJob) (m : Nat → UInt8) : Nat → UInt8 :=
  (List.range (ceil4 job.height.toNat)).foldl (fun m y => writeAll m (job.rowWrites target y)) m

theorem decodeInOrder_eq {m : Nat → UInt8} : decodeInOrder target job m =
    writeAll m ((List.range (ceil4 job.height.toNat)).flatMap (job.rowWrites target)) := by
  rw [decodeInOrder, writeAll_flatMap]

/-- Whatever the schedule, a job's destination ends up with the rows its bands cover. -/
theorem batch_memory {workers : Nat} {memory : Memory} {s : State workers (Nat × Nat) UInt8}
    (hb : ∀ job ∈ jobs, job.Bounded) (hp : planJobs 0 jobs = some plan) (hw : 0 < workers)
    (hr : (decodeLTS target jobs plan workers memory).Reachable s) (hd : s.Done)
    (hj : jobs[i]? = some job) :
    (fun a => s.memory (i, a)) =
      writeAll (fun a => memory (i, a)) (rowsWritten target job) := by
  have hwrites := (planJobs_writes target (i := 0)
    (fun k job (hk : jobs[k]? = some job) => by simpa using hk) hp).2
  have hflat : (plan.bands.map (bandWrites target jobs)).flatten =
      (jobs.zipIdx 0).flatMap fun p => jobWrites target p.2 p.1 := by
    rw [← hwrites, List.flatMap_def]
  have hm := memory_of_done (hflat ▸ batch_functional hb) hw hr hd
  rw [hm, hflat, writeAll_tagged, batch_tagged, if_pos (Nat.zero_le i), Nat.sub_zero, hj]
  rfl

/-- `DecodeEtcJobs` on a batch: no division by zero, `ok` for the images that fit, and under any
schedule an end with every fitting image decoded row by row. -/
def JobsDecoded (target : Target) (jobs : List EtcDecodeJob) (workerCount : Nat) : Prop :=
  ∃ plan, planJobs 0 jobs = some plan ∧
    (∀ (i : Nat) (job : EtcDecodeJob), jobs[i]? = some job →
      (plan.ok[i]? = some true ↔ job.Holds)) ∧
    ∀ workers, Runners (plan.threads workerCount) workers → ∀ memory,
      (∃ bound, ∀ is t,
        (decodeLTS target jobs plan workers memory).Run (start workers memory) is t →
        is.length ≤ bound) ∧
      ∀ s, (decodeLTS target jobs plan workers memory).Reachable s →
        (∃ is t, (decodeLTS target jobs plan workers memory).Run s is t ∧ t.Done) ∧
        (s.Done → ∀ (i : Nat) (job : EtcDecodeJob), jobs[i]? = some job → plan.ok[i]? = some true →
          (fun a => s.memory (i, a)) = decodeInOrder target job fun a => memory (i, a))

/-- `DecodeEtcImage` on an image: true exactly when it fits, with every row decoded. -/
def ImageDecoded (target : Target) (job : EtcDecodeJob) : Prop :=
  ((decodeEtcImage target job).isSome = true ↔ job.Holds) ∧
    ∀ writes, decodeEtcImage target job = some writes →
      ∀ m, writeAll m writes = decodeInOrder target job m

theorem rowsWritten_exact (hf : job.imageFits = true) (hh : job.height.toNat + 3 < 2 ^ 32) :
    rowsWritten target job =
      (List.range (ceil4 job.height.toNat)).flatMap (job.rowWrites target) := by
  rw [rowsWritten, if_pos hf, toNat_blocksHigh32, Nat.mod_eq_of_lt hh, ceil4]

/-- A height within three of 2 ^ 32 leaves no rows at all. -/
theorem rowsWritten_wraps (hh : ¬ job.height.toNat + 3 < 2 ^ 32) : rowsWritten target job = [] := by
  have hlt := job.height.toNat_lt
  have hzero : job.blocksHigh32.toNat = 0 := by
    rw [toNat_blocksHigh32]
    omega
  simp [rowsWritten, hzero]

/-- Some memory shows that row 0 was not decoded. -/
theorem decodeInOrder_ne (target : Target) (hf : job.Holds) (hb : job.Bounded) :
    ∃ m : Nat → UInt8, decodeInOrder target job m ≠ m := by
  refine ⟨fun _ => texelByte target job.format (job.block 0 0) 0 0 + 1, fun heq => ?_⟩
  have hzero := congrFun heq 0
  rw [decodeInOrder_eq,
    writeAll_of_mem (rows_functional hf hb _) (first_byte_written hf hb)] at hzero
  simp at hzero

theorem blocksWide32_eq_zero (h : job.Holds) :
    job.blocksWide32 = 0 ↔ ¬ job.width.toNat + 3 < 2 ^ 32 := by
  have hw := h.width
  have hlt := job.width.toNat_lt
  rw [← UInt32.toNat_inj, toNat_blocksWide32, UInt32.toNat_zero]
  omega

theorem plan_ok_iff (hb : ∀ job ∈ jobs, job.Bounded) (hp : planJobs 0 jobs = some plan)
    (hj : jobs[i]? = some job) : plan.ok[i]? = some true ↔ job.Holds := by
  have hok := (planJobs_writes .portable (i := 0)
    (fun k job (hk : jobs[k]? = some job) => by simpa using hk) hp).1
  rw [hok, List.getElem?_map, hj, ← imageFits_iff (hb job (List.mem_of_getElem? hj))]
  simp

theorem runners_pos {workerCount workers : Nat} (h : Runners workerCount workers) :
    0 < workers := by
  rcases h with rfl | ⟨h, _⟩ <;> omega

theorem jobsDecoded_of_exact (hb : ∀ job ∈ jobs, job.Bounded)
    (hexact : ∀ job ∈ jobs, job.Holds →
      job.width.toNat + 3 < 2 ^ 32 ∧ job.height.toNat + 3 < 2 ^ 32) (workerCount : Nat) :
    JobsDecoded target jobs workerCount := by
  have hsome : (planJobs 0 jobs).isSome = true := by
    rw [planJobs_isSome]
    intro job hjob hf
    have hfits := (imageFits_iff (hb job hjob)).1 hf
    rw [ne_eq, blocksWide32_eq_zero hfits, not_not]
    exact (hexact job hjob hfits).1
  obtain ⟨plan, hp⟩ := Option.isSome_iff_exists.1 hsome
  refine ⟨plan, hp, fun i job hj => plan_ok_iff hb hp hj, fun workers hw memory => ⟨?_, ?_⟩⟩
  · refine ⟨(start workers memory).work (plan.bands.map (bandWrites target jobs)), ?_⟩
    intro is t hrun
    have hwork := work_run hrun
    omega
  · intro s hs
    refine ⟨exists_done s, fun hd i job hj hok => ?_⟩
    have hjob := List.mem_of_getElem? hj
    have hfits := (plan_ok_iff hb hp hj).1 hok
    rw [batch_memory hb hp (runners_pos hw) hs hd hj, decodeInOrder_eq,
      rowsWritten_exact ((imageFits_iff (hb job hjob)).2 hfits) (hexact job hjob hfits).2]

theorem exact_of_jobsDecoded (hb : ∀ job ∈ jobs, job.Bounded) {workerCount : Nat}
    (h : JobsDecoded target jobs workerCount) (hjob : job ∈ jobs) (hf : job.Holds) :
    job.width.toNat + 3 < 2 ^ 32 ∧ job.height.toNat + 3 < 2 ^ 32 := by
  obtain ⟨plan, hp, hok, hrun⟩ := h
  have hfits := (imageFits_iff (hb job hjob)).2 hf
  constructor
  · have hsome : (planJobs 0 jobs).isSome = true := by rw [hp]; rfl
    by_contra hw
    exact planJobs_isSome.1 hsome job hjob hfits ((blocksWide32_eq_zero hf).2 hw)
  · by_contra hh
    obtain ⟨i, hj⟩ := List.mem_iff_getElem?.1 hjob
    obtain ⟨m, hm⟩ := decodeInOrder_ne target hf (hb job hjob)
    obtain ⟨_, hend⟩ := hrun 1 (.inl rfl) fun a => m a.2
    obtain ⟨is, s, hr, hd⟩ := (hend _ ⟨_, [], rfl, .refl _⟩).1
    have hs : (decodeLTS target jobs plan 1 fun a => m a.2).Reachable s := ⟨_, is, rfl, hr⟩
    have hrows := (hend s hs).2 hd i job hj ((hok i job hj).2 hf)
    rw [batch_memory hb hp one_pos hs hd hj, rowsWritten_wraps hh] at hrows
    exact hm hrows.symm

theorem decodeEtcImage_eq (target : Target) (hf : job.imageFits = true) :
    decodeEtcImage target job = some (rowsWritten target job) := by
  have hle := blocksHigh32_le job
  rw [decodeEtcImage, decodeEtcImageBlockRows, if_neg (by simp [hf]), if_neg (by omega),
    rowsWritten, if_pos hf, List.range_eq_range']

theorem imageDecoded_iff (hb : job.Bounded) :
    ImageDecoded target job ↔ (job.Holds → job.height.toNat + 3 < 2 ^ 32) := by
  by_cases hf : job.imageFits = true
  · have hfits := (imageFits_iff hb).1 hf
    have heq := decodeEtcImage_eq target hf
    constructor
    · rintro ⟨_, hwrites⟩ _
      by_contra hh
      obtain ⟨m, hm⟩ := decodeInOrder_ne target hfits hb
      have hrows := hwrites _ heq m
      rw [rowsWritten_wraps hh] at hrows
      exact hm hrows.symm
    · intro hh
      refine ⟨by simp [heq, hfits], fun writes hw m => ?_⟩
      rw [heq] at hw
      cases hw
      rw [decodeInOrder_eq, rowsWritten_exact hf (hh hfits)]
  · have hfits : ¬ job.Holds := fun h => hf ((imageFits_iff hb).2 h)
    have heq : decodeEtcImage target job = none := by
      simp [decodeEtcImage, decodeEtcImageBlockRows, hf]
    refine ⟨fun _ h => absurd h hfits, fun _ => ⟨by simp [heq, hfits], ?_⟩⟩
    intro writes hw
    rw [heq] at hw
    cases hw

/-- Decoding is right exactly for the images whose dimensions leave room for the rounding-up in
32 bits. -/
theorem etc_decoding_iff (hb : ∀ job ∈ jobs, job.Bounded) (target : Target) (workerCount : Nat) :
    (JobsDecoded target jobs workerCount ↔ ∀ job ∈ jobs, job.Holds →
      job.width.toNat + 3 < 2 ^ 32 ∧ job.height.toNat + 3 < 2 ^ 32) ∧
    ∀ job ∈ jobs, (ImageDecoded target job ↔ (job.Holds → job.height.toNat + 3 < 2 ^ 32)) :=
  ⟨⟨fun h _ hjob hf => exact_of_jobsDecoded hb h hjob hf,
    fun h => jobsDecoded_of_exact hb h workerCount⟩,
    fun job hjob => imageDecoded_iff (hb job hjob)⟩

/-- A single-channel image with buffers of 16 GiB. -/
def largeJob (width height : UInt32) : EtcDecodeJob where
  format := .eacR11
  source := some fun _ => 0
  sourceBytes := 17179869184
  width := width
  height := height
  destination := true
  destinationBytes := 17179869184

theorem largeJob_bounded {width height : UInt32} : (largeJob width height).Bounded := by
  have hbytes : (17179869184 : UInt64).toNat < 2 ^ 48 := by decide
  exact ⟨hbytes, hbytes⟩

theorem etc_decoding_iff_pixel : JobsDecoded .x86 [largeJob 1 1] 4 := by
  have hb : ∀ job ∈ [largeJob 1 1], job.Bounded := by simp [largeJob_bounded]
  refine (etc_decoding_iff hb .x86 4).1.2 ?_
  intro job hjob _
  obtain rfl := List.mem_singleton.1 hjob
  decide

/-- A fitting row of 2 ^ 32 - 1 texels divides by zero, and a fitting column of as many is reported
as decoded with nothing written. -/
theorem etc_decoding_wraps :
    (largeJob 4294967295 1).Holds ∧ planJobs 0 [largeJob 4294967295 1] = none ∧
      (largeJob 1 4294967295).Holds ∧ decodeEtcImage .x86 (largeJob 1 4294967295) = some [] ∧
      ¬ JobsDecoded .x86 [largeJob 4294967295 1] 4 ∧
      ¬ ImageDecoded .x86 (largeJob 1 4294967295) := by
  have hwide : (largeJob 4294967295 1).Holds := (imageFits_iff largeJob_bounded).1 (by decide)
  have htall : (largeJob 1 4294967295).Holds := (imageFits_iff largeJob_bounded).1 (by decide)
  refine ⟨hwide, rfl, htall, by decide, ?_, ?_⟩
  · rintro ⟨plan, hp, _⟩
    cases hp
  · rw [imageDecoded_iff largeJob_bounded]
    intro h
    exact absurd (h htall) (by decide)

end Nightcap.Graphics
