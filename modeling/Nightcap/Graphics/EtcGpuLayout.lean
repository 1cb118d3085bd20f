import Nightcap.Graphics.EtcGpuJobs
import Nightcap.Graphics.EtcSplit

/-! The parts of staged jobs are apart and inside the range of their group, and a call that fails
gives its ranges back. -/
namespace Nightcap.Graphics.Copies

variable {gpu : GpuUpload} {group : Group} {g : Grouping} {maxBytes total : UInt64} {start : Nat}
  {ps qs : List (Nat × Nat)} {p : Nat × Nat}

/-! Parts of a range, one behind the other and each aligned. -/

def partsBytes (ps : List (Nat × Nat)) : Nat := (ps.map fun p => alignStaging p.2).sum

/-- Offsets and sizes of parts that follow each other from an offset on. -/
def Packed : Nat → List (Nat × Nat) → Prop
  | _, [] => True
  | start, p :: ps => p.1 = start ∧ Packed (start + alignStaging p.2) ps

/-- Two parts without a byte in common. -/
def PartsApart (p q : Nat × Nat) : Prop := p.1 + p.2 ≤ q.1 ∨ q.1 + q.2 ≤ p.1

theorem partsBytes_append : partsBytes (ps ++ qs) = partsBytes ps + partsBytes qs := by
  rw [partsBytes, List.map_append, List.sum_append]
  rfl

theorem partsBytes_cons : partsBytes (p :: ps) = alignStaging p.2 + partsBytes ps := by
  rw [partsBytes, List.map_cons, List.sum_cons]
  rfl

theorem Packed.append (h : Packed start ps) (h' : Packed (start + partsBytes ps) qs) :
    Packed start (ps ++ qs) := by
  induction ps generalizing start with
  | nil => exact h'
  | cons p ps ih =>
    refine ⟨h.1, ih h.2 ?_⟩
    rw [partsBytes_cons] at h'
    rwa [Nat.add_assoc]

theorem Packed.inside (h : Packed start ps) (hp : p ∈ ps) :
    start ≤ p.1 ∧ p.1 + p.2 ≤ start + partsBytes ps := by
  induction ps generalizing start with
  | nil => cases hp
  | cons first ps ih =>
    rw [partsBytes_cons]
    rw [List.mem_cons] at hp
    obtain rfl | hp := hp
    · have hle := le_alignStaging p.2
      have hfirst := h.1
      omega
    · have hrest := ih h.2 hp
      omega

theorem Packed.apart (h : Packed start ps) : ps.Pairwise PartsApart := by
  induction ps generalizing start with
  | nil => exact .nil
  | cons first ps ih =>
    refine .cons (fun later hlater => .inl ?_) (ih h.2)
    have hle := le_alignStaging first.2
    have hfirst := h.1
    have hin := h.2.inside hlater
    omega

/-- The parts moved by as much, in 64 bits. -/
theorem Packed.shift {offset : Nat} (h : Packed start ps)
    (hfit : offset + start + partsBytes ps < 2 ^ 64) :
    Packed (offset + start) (ps.map fun p => ((p.1 + offset) % 2 ^ 64, p.2)) := by
  induction ps generalizing start with
  | nil => trivial
  | cons p ps ih =>
    rw [partsBytes_cons] at hfit
    have hfirst := h.1
    refine ⟨?_, ?_⟩
    · simp only
      omega
    · have hrest := ih h.2 (by omega)
      rwa [← Nat.add_assoc] at hrest

/-! The parts of a job. -/

namespace GpuUpload

def sourcePart (gpu : GpuUpload) : Nat × Nat := (gpu.job.sourceOffset.toNat, gpu.sourceSpan.toNat)

def outputPart (job : Etc2GpuJob) : Nat × Nat :=
  (job.destinationOffset.toNat, (etc2GpuOutputBytes job).toNat)

/-- The source, the decoded texels, the output and the encoded output, as far as there are any. -/
def parts (gpu : GpuUpload) : List (Nat × Nat) :=
  gpu.sourcePart :: ((if gpu.decode then [outputPart gpu.decoding] else []) ++ outputPart gpu.job ::
    if gpu.encode then [outputPart gpu.encoding] else [])

/-- What the parts take, without any bound on numbers. -/
def needBytes (gpu : GpuUpload) : Nat := partsBytes gpu.parts

/-- Where the stages of a job read and write. -/
structure Chained (gpu : GpuUpload) : Prop where
  decoding : gpu.decode = true →
    gpu.decoding.sourceOffset = gpu.job.sourceOffset + kScaleHeader ∧
      gpu.job.scaleTexelsOffset = gpu.decoding.destinationOffset
  encoding : gpu.encoding.sourceOffset = gpu.job.destinationOffset

end GpuUpload

theorem align_toNat {n : UInt64} (h : alignStaging n.toNat < 2 ^ 64) :
    (align n).toNat = alignStaging n.toNat := by
  have halign := align_ofNat h
  rw [UInt64.ofNat_toNat] at halign
  rw [halign, UInt64.toNat_ofNat_of_lt' h]

namespace GpuUpload

theorem needBytes_eq (gpu : GpuUpload) : gpu.needBytes =
    alignStaging gpu.sourceSpan.toNat +
      ((if gpu.decode then alignStaging (etc2GpuOutputBytes gpu.decoding).toNat else 0) +
        (alignStaging (etc2GpuOutputBytes gpu.job).toNat +
          if gpu.encode then alignStaging (etc2GpuOutputBytes gpu.encoding).toNat else 0)) := by
  rw [needBytes, parts, partsBytes_cons, partsBytes_append, partsBytes_cons]
  congr 2
  · split <;> simp [partsBytes, outputPart]
  · congr 1
    split <;> simp [partsBytes, outputPart]

theorem need_toNat (h : gpu.needBytes < 2 ^ 64) : gpu.need.toNat = gpu.needBytes := by
  rw [needBytes_eq] at h ⊢
  rw [need, UInt64.toNat_add, UInt64.toNat_add, UInt64.toNat_add,
    align_toNat (by omega), align_toNat (by omega)]
  cases hd : gpu.decode <;> cases he : gpu.encode <;>
    simp only [hd, he, if_true, Bool.false_eq_true, if_false] at h ⊢
  · have h0 : (0 : UInt64).toNat = 0 := rfl
    omega
  · have h0 : (0 : UInt64).toNat = 0 := rfl
    rw [align_toNat (by omega)]
    omega
  · have h0 : (0 : UInt64).toNat = 0 := rfl
    rw [align_toNat (by omega)]
    omega
  · rw [align_toNat (by omega), align_toNat (by omega)]
    omega

theorem place_needBytes (gpu : GpuUpload) (total : UInt64) :
    (gpu.place total).needBytes = gpu.needBytes := by
  rw [needBytes_eq, needBytes_eq]
  cases hd : gpu.decode <;> simp only [place, hd] <;> rfl

theorem place_packed (h : total.toNat + gpu.needBytes < 2 ^ 64) :
    Packed total.toNat (gpu.place total).parts := by
  rw [needBytes_eq] at h
  have hcursor : (total + align gpu.sourceSpan).toNat =
      total.toNat + alignStaging gpu.sourceSpan.toNat := by
    rw [UInt64.toNat_add, align_toNat (by omega), Nat.mod_eq_of_lt (by omega)]
  -- The output follows the decoded texels, or the source where nothing is decoded.
  have houtput : (gpu.place total).job.destinationOffset.toNat =
      total.toNat + alignStaging gpu.sourceSpan.toNat +
      if gpu.decode then alignStaging (etc2GpuOutputBytes gpu.decoding).toNat else 0 := by
    cases hd : gpu.decode
    · simp only [place, hd, Bool.false_eq_true, if_false]
      exact hcursor
    · simp only [hd, if_true] at h
      simp only [place, hd, if_true]
      rw [UInt64.toNat_add, hcursor, align_toNat (by omega), Nat.mod_eq_of_lt (by omega)]
  have hencoded : gpu.encode = true → (gpu.place total).encoding.destinationOffset.toNat =
      (gpu.place total).job.destinationOffset.toNat + alignStaging
      (etc2GpuOutputBytes gpu.job).toNat := by
    intro he
    simp only [he, if_true] at h
    change ((gpu.place total).job.destinationOffset + align (etc2GpuOutputBytes gpu.job)).toNat = _
    rw [UInt64.toNat_add, align_toNat (by omega), Nat.mod_eq_of_lt (by omega)]
  have hdecoded : Packed (total.toNat + alignStaging gpu.sourceSpan.toNat)
      (if gpu.decode then [outputPart (gpu.place total).decoding] else []) := by
    split
    · rename_i hd
      refine ⟨?_, trivial⟩
      rw [← hcursor]
      simp only [outputPart, place, hd, if_true]
    · trivial
  have hafter : total.toNat + alignStaging gpu.sourceSpan.toNat +
      partsBytes (if gpu.decode then [outputPart (gpu.place total).decoding] else []) =
      (gpu.place total).job.destinationOffset.toNat := by
    rw [houtput]
    split
    · rename_i hd
      simp only [partsBytes, outputPart, place, hd, if_true, List.map_cons,
        List.map_nil, List.sum_cons,
        List.sum_nil, Nat.add_zero]
      rfl
    · rfl
  have hlast : Packed ((gpu.place total).job.destinationOffset.toNat +
        alignStaging (etc2GpuOutputBytes gpu.job).toNat)
      (if gpu.encode then [outputPart (gpu.place total).encoding] else []) := by
    split
    · rename_i he
      exact ⟨hencoded he, trivial⟩
    · trivial
  rw [← hafter] at hlast
  exact ⟨rfl, hdecoded.append ⟨hafter.symm, hlast⟩⟩

theorem place_chained (gpu : GpuUpload) (total : UInt64) : (gpu.place total).Chained where
  decoding hd := by
    have hd' : gpu.decode = true := hd
    simp only [place, hd', if_true, and_self]
  encoding := rfl

/-- The job as it was asked for. -/
def bareJob (job : Etc2GpuJob) : Etc2GpuJob :=
  { job with sourceOffset := 0, destinationOffset := 0, scaleTexelsOffset := 0, fast := false }

def bare (gpu : GpuUpload) : GpuUpload :=
  { gpu with
    staging := 0
    job := bareJob gpu.job
    decoding := bareJob gpu.decoding
    encoding := bareJob gpu.encoding }

theorem place_bare (gpu : GpuUpload) (total : UInt64) : (gpu.place total).bare = gpu.bare := by
  cases hd : gpu.decode <;> simp only [place, bare, bareJob, hd] <;> rfl

theorem rebase_bare (gpu : GpuUpload) (range : Staging) : (gpu.rebase range).bare = gpu.bare := by
  cases hd : gpu.decode <;> simp only [rebase, bare, bareJob, hd] <;> rfl

/-- A job in its range has its parts moved there. -/
theorem rebase_parts (gpu : GpuUpload) (range : Staging) :
    (gpu.rebase range).parts = gpu.parts.map fun p => ((p.1 + range.offset) % 2 ^ 64, p.2) := by
  have hadd (n : UInt64) : (n + UInt64.ofNat range.offset).toNat =
      (n.toNat + range.offset) % 2 ^ 64 := by
    rw [UInt64.toNat_add, UInt64.toNat_ofNat', Nat.add_mod_mod]
  have hpart (job : Etc2GpuJob) : outputPart { job with
      sourceOffset := job.sourceOffset + UInt64.ofNat range.offset
      destinationOffset := job.destinationOffset + UInt64.ofNat range.offset } =
      (((outputPart job).1 + range.offset) % 2 ^ 64, (outputPart job).2) := by
    rw [outputPart, hadd]
    rfl
  rw [parts, parts, List.map_cons, List.map_append, List.map_cons]
  congr 1
  · rw [sourcePart, sourcePart, ← hadd]
    rfl
  · congr 1
    · cases hd : gpu.decode
      · simp only [rebase, hd, Bool.false_eq_true, if_false, List.map_nil]
      · simp only [rebase, hd, if_true, List.map_cons, List.map_nil, hpart]
    · congr 1
      · exact hpart gpu.job
      · cases he : gpu.encode
        · simp only [rebase, he, Bool.false_eq_true, if_false, List.map_nil]
        · simp only [rebase, he, if_true, List.map_cons, List.map_nil, hpart]

theorem Chained.rebase (h : gpu.Chained) (range : Staging) : (gpu.rebase range).Chained where
  decoding hd := by
    have hd' : gpu.decode = true := hd
    obtain ⟨hsource, htexels⟩ := h.decoding hd'
    simp only [GpuUpload.rebase, hd', if_true, hsource, htexels, and_true]
    rw [UInt64.add_assoc, UInt64.add_comm kScaleHeader, UInt64.add_assoc]
  encoding := by
    simp only [GpuUpload.rebase, h.encoding]

/-- The copy reads the output of the last stage. -/
def Emits (gpu : GpuUpload) (region : Region) : Prop := gpu.emit region = region

theorem emit_emits (gpu : GpuUpload) (region : Region) : gpu.Emits (gpu.emit region) := rfl

theorem Emits.rebase {region : Region} (h : gpu.Emits region) (range : Staging) :
    (gpu.rebase range).Emits
      { region with bufferOffset := region.bufferOffset + UInt64.ofNat range.offset } := by
  rw [Emits, ← h]
  cases he : gpu.encode <;> simp only [GpuUpload.rebase, emit, last, he] <;> rfl

end GpuUpload

/-! Groups. -/

open GpuUpload

def Region.bare (region : Region) : Region :=
  { region with bufferOffset := 0, bufferRowLength := 0, bufferImageHeight := 0 }

def jobsBytes (jobs : List GpuUpload) : Nat := (jobs.map GpuUpload.needBytes).sum

theorem jobsBytes_eq (jobs : List GpuUpload) :
    jobsBytes jobs = partsBytes (jobs.flatMap GpuUpload.parts) := by
  induction jobs with
  | nil => rfl
  | cons gpu jobs ih =>
    rw [List.flatMap_cons, partsBytes_append, ← ih, jobsBytes, List.map_cons, List.sum_cons]
    rfl

/-- A job that writes blocks, or the texels of a whole mip. -/
def Capped (gpu : GpuUpload) : Prop := gpu.job.transcode = true ∨ gpu.job.scale = true

/-- What holds of a group that has not been staged yet. -/
structure Group.Sound (maxBytes : UInt64) (group : Group) : Prop where
  laid : jobsBytes group.jobs < 2 ^ 64 →
    group.total.toNat = jobsBytes group.jobs ∧ Packed 0 (group.jobs.flatMap GpuUpload.parts)
  chained : ∀ gpu ∈ group.jobs, gpu.Chained
  capped : 1 < group.jobs.length → (∀ gpu ∈ group.jobs, Capped gpu) →
    jobsBytes group.jobs < 2 ^ 64 →
    jobsBytes group.jobs ≤ maxBytes.toNat
  emitted : List.Forall₂ GpuUpload.Emits group.jobs group.regions

theorem Group.Sound.empty : Group.Sound maxBytes {} where
  laid _ := ⟨rfl, trivial⟩
  chained _ h := absurd h List.not_mem_nil
  capped h := absurd h (by decide)
  emitted := .nil

theorem Group.Sound.append {region : Region} (h : group.Sound maxBytes)
    (hcap : group.jobs ≠ [] → Capped gpu → group.total + gpu.need ≤ maxBytes) :
    (Grouping.append group gpu region).Sound maxBytes := by
  have hbytes : jobsBytes (Grouping.append group gpu region).jobs =
      jobsBytes group.jobs + gpu.needBytes := by
    simp only [jobsBytes, Grouping.append, List.map_append, List.map_cons,
      List.map_nil, List.sum_append,
      List.sum_cons, List.sum_nil, Nat.add_zero, place_needBytes]
  have htotal : jobsBytes group.jobs + gpu.needBytes < 2 ^ 64 →
      (group.total + gpu.need).toNat = jobsBytes group.jobs + gpu.needBytes := by
    intro hfit
    rw [UInt64.toNat_add, (h.laid (by omega)).1, need_toNat (by omega), Nat.mod_eq_of_lt hfit]
  refine ⟨fun hfit => ?_, fun x hx => ?_, fun hmore hall hfit => ?_, ?_⟩
  · rw [hbytes] at hfit ⊢
    obtain ⟨hsum, hpacked⟩ := h.laid (by omega)
    refine ⟨htotal hfit, ?_⟩
    change Packed 0 ((group.jobs ++ [gpu.place group.total]).flatMap GpuUpload.parts)
    rw [List.flatMap_append, List.flatMap_singleton]
    refine hpacked.append ?_
    rw [← jobsBytes_eq, Nat.zero_add, ← hsum]
    exact place_packed (by omega)
  · have hx' : x ∈ group.jobs ++ [gpu.place group.total] := hx
    rw [List.mem_append, List.mem_singleton] at hx'
    obtain hx' | rfl := hx'
    · exact h.chained x hx'
    · exact place_chained gpu group.total
  · rw [hbytes] at hfit ⊢
    have hgpu : Capped gpu :=
      hall (gpu.place group.total) (List.mem_append_right _ (List.mem_singleton_self _))
    have hne : group.jobs ≠ [] := by
      intro h0
      have hlen : (group.jobs ++ [gpu.place group.total]).length = 1 := by rw [h0]; rfl
      exact absurd hmore
        (by rw [show (Grouping.append group gpu region).jobs.length = 1 from hlen]; decide)
    have hle := hcap hne hgpu
    rwa [UInt64.le_iff_toNat_le, htotal hfit] at hle
  · exact List.rel_append h.emitted (.cons (emit_emits ..) .nil)

variable {region : Region} {gpus : List GpuUpload} {rewritten : List Region}

/-- The groups hold the jobs and copies so far, in order. -/
structure Grouping.Holds (maxBytes : UInt64) (g : Grouping) (gpus : List GpuUpload)
    (rewritten : List Region) :
    Prop where
  sound : ∀ group ∈ g.groups, group.Sound maxBytes
  jobs : (g.groups.flatMap (·.jobs)).map GpuUpload.bare = gpus.map GpuUpload.bare
  regions : (g.groups.flatMap (·.regions)).map Region.bare = rewritten.map Region.bare

theorem Grouping.Holds.add (h : g.Holds maxBytes gpus rewritten)
    (gpu : GpuUpload) (region : Region) :
    (g.add maxBytes (gpu, region)).Holds maxBytes (gpus ++ [gpu]) (rewritten ++ [region]) := by
  -- A job starts a group after all there are, or joins the last one.
  obtain ⟨before, group, hadd, hgroups, hbefore, hgroup⟩ : ∃ before group,
      (g.add maxBytes (gpu, region)).groups = before ++ [append group gpu region] ∧
      (before ++ [group]).flatMap (·.jobs) = g.groups.flatMap (·.jobs) ∧
      (before ++ [group]).flatMap (·.regions) = g.groups.flatMap (·.regions) ∧
      (∀ x ∈ before, x.Sound maxBytes) ∧ (append group gpu region).Sound maxBytes := by
    rw [Grouping.add]
    split
    · exact ⟨g.groups, {}, rfl, by simp, by simp, h.sound,
        Group.Sound.empty.append fun hne => absurd rfl hne⟩
    · rename_i hstart
      have hlast := h.sound g.last (List.mem_append_right _ (List.mem_singleton_self _))
      refine ⟨g.before, g.last, rfl, rfl, rfl,
        fun x hx => h.sound x (List.mem_append_left _ hx), hlast.append fun hne hcap => ?_⟩
      have hcap' : (gpu.job.transcode || gpu.job.scale) = true := by simpa [Capped] using hcap
      have hne' : g.last.jobs.isEmpty = false := by simpa using hne
      simp only [Grouping.startsGroup, hcap', hne', Bool.not_false, Bool.and_true, Bool.true_and,
        decide_eq_true_eq] at hstart
      exact UInt64.not_lt.1 hstart
  refine ⟨fun x hx => ?_, ?_, ?_⟩
  · rw [hadd, List.mem_append, List.mem_singleton] at hx
    obtain hx | rfl := hx
    · exact hgroup.1 x hx
    · exact hgroup.2
  · rw [hadd, List.map_append, ← h.jobs, ← hgroups]
    simp [Grouping.append, place_bare]
  · rw [hadd, List.map_append, ← h.regions, ← hbefore]
    simp [Grouping.append]
    rfl

theorem groupJobs_holds (hlength : rewritten.length = gpus.length) :
    (∀ group ∈ groupJobs maxBytes gpus rewritten, group.Sound maxBytes) ∧
      ((groupJobs maxBytes gpus rewritten).flatMap (·.jobs)).map GpuUpload.bare =
        gpus.map GpuUpload.bare ∧
      ((groupJobs maxBytes gpus rewritten).flatMap (·.regions)).map Region.bare =
        rewritten.map Region.bare := by
  have hrun : ∀ (xs : List (GpuUpload × Region)) (g : Grouping) (gpus : List GpuUpload)
      (rewritten : List Region),
      g.Holds maxBytes gpus rewritten →
      (xs.foldl (Grouping.add maxBytes) g).Holds maxBytes (gpus ++ xs.map (·.1))
      (rewritten ++ xs.map (·.2)) := by
    intro xs
    induction xs with
    | nil =>
      intro g gpus rewritten h
      simpa using h
    | cons x xs ih =>
      intro g gpus rewritten h
      have hstep := ih _ _ _ (h.add x.1 x.2)
      rwa [List.append_assoc, List.append_assoc] at hstep
  have hstart : Grouping.Holds maxBytes {} [] [] := by
    refine ⟨fun group hgroup => ?_, rfl, rfl⟩
    obtain rfl := List.mem_singleton.1 hgroup
    exact .empty
  have h := hrun (gpus.zip rewritten) {} [] [] hstart
  rw [List.nil_append, List.nil_append, List.map_fst_zip (by omega),
    List.map_snd_zip (by omega)] at h
  exact ⟨h.sound, h.jobs, h.regions⟩

/-! Ranges. -/

variable {pool pool' : Pool} {range : Staging} {stagingBlockBytes size : UInt64} {device : VkDevice}
  {creates : Nat → Bool} {released : List Staging}

/-- Every block's count is that of its ranges, which are apart; new ranges and blocks are unlike any
before. -/
structure Pool.Sound (pool : Pool) : Prop where
  stocked : Stocked pool.blocks pool.outstanding
  serials : ∀ range ∈ pool.outstanding, range.serial < pool.handed
  addresses : ∀ block ∈ pool.blocks, block.address < pool.created
  capacities : ∀ block ∈ pool.blocks, block.capacity < 2 ^ 64

theorem Pool.Sound.initial : Pool.Sound {} where
  stocked := ⟨List.nodup_nil, nofun, nofun, nofun, nofun⟩
  serials _ h := absurd h (Finset.notMem_empty _)
  addresses _ h := absurd h List.not_mem_nil
  capacities _ h := absurd h List.not_mem_nil

theorem Pool.Sound.fresh (h : pool.Sound) (hrange : pool.handed ≤ range.serial) :
    range ∉ pool.outstanding :=
  fun hin => absurd (h.serials range hin) (Nat.not_lt.2 hrange)

theorem alignStaging_of_dvd {n : Nat} (h : kStagingAlignment ∣ n) : alignStaging n = n := by
  obtain ⟨k, rfl⟩ := h
  simp only [alignStaging, kStagingAlignment]
  omega

theorem dvd_align (n : UInt64) : kStagingAlignment ∣ (align n).toNat := by
  have hunit : (UInt64.ofNat kStagingAlignment).toNat = 256 := rfl
  rw [align, UInt64.toNat_mul, hunit, kStagingAlignment]
  omega

/-- A range `AcquireStaging` hands out: a new one of the bytes asked for. -/
structure Handed (pool pool' : Pool) (range : Staging) (size : UInt64) : Prop where
  sound : pool'.Sound
  serial : range.serial = pool.handed
  handed : pool'.handed = pool.handed + 1
  outstanding : pool'.outstanding = insert range pool.outstanding
  bytes : range.bytes = (align size).toNat
  fits : range.offset + range.bytes < 2 ^ 64

theorem acquireStaging_handed (h : pool.Sound)
    (hacquire : acquireStaging stagingBlockBytes device creates size pool = some (pool', range)) :
    Handed pool pool' range size := by
  have haligned : alignStaging (align size).toNat = (align size).toNat :=
    alignStaging_of_dvd (dvd_align size)
  rw [acquireStaging] at hacquire
  simp only at hacquire
  split at hacquire
  · cases hacquire
  split at hacquire
  · rename_i blocks found hfound
    simp only [Option.some.injEq, Prod.mk.injEq] at hacquire
    obtain ⟨rfl, rfl⟩ := hacquire
    obtain ⟨before, block, after, hblocks, rfl, hfits, rfl⟩ := acquireFrom_eq_some hfound
    have hblock : block ∈ pool.blocks := by rw [hblocks]; simp
    obtain ⟨-, -, hroom⟩ := StagingBlock.take_of_fits hfits
    have hcapacity := h.capacities block hblock
    have hmember : ∀ b ∈ before ++ block.take (align size).toNat :: after,
        ∃ b' ∈ pool.blocks, b'.address = b.address ∧ b'.capacity = b.capacity := by
      intro b hb
      rw [List.mem_append, List.mem_cons] at hb
      obtain hb | rfl | hb := hb
      · exact ⟨b, by rw [hblocks]; simp [hb], rfl, rfl⟩
      · exact ⟨block, hblock, StagingBlock.take_address.symm, StagingBlock.take_capacity.symm⟩
      · exact ⟨b, by rw [hblocks]; simp [hb], rfl, rfl⟩
    have hnew : block.range (align size).toNat pool.handed ∉ pool.outstanding := h.fresh le_rfl
    refine ⟨⟨h.stocked.acquire hfound hnew, fun r hr => ?_, fun b hb => ?_, fun b hb => ?_⟩,
      rfl, rfl, rfl, haligned, ?_⟩
    · rw [Finset.mem_insert] at hr
      obtain rfl | hr := hr
      · exact Nat.lt_succ_self _
      · exact (h.serials r hr).trans (Nat.lt_succ_self _)
    · obtain ⟨b', hb', haddress, -⟩ := hmember b hb
      exact haddress ▸ h.addresses b' hb'
    · obtain ⟨b', hb', -, hsame⟩ := hmember b hb
      exact hsame ▸ h.capacities b' hb'
    · exact lt_of_le_of_lt hroom hcapacity
  · split at hacquire
    · simp only [Option.some.injEq, Prod.mk.injEq] at hacquire
      obtain ⟨rfl, rfl⟩ := hacquire
      have hbits := UInt64.toNat_lt (align size)
      refine ⟨⟨h.stocked.push fun b hb => (h.addresses b hb).ne, fun r hr => ?_,
        fun b hb => ?_, fun b hb => ?_⟩,
        rfl, rfl, rfl, haligned, ?_⟩
      · rw [Finset.mem_insert] at hr
        obtain rfl | hr := hr
        · exact Nat.lt_succ_self _
        · exact (h.serials r hr).trans (Nat.lt_succ_self _)
      · rw [List.mem_append, List.mem_singleton] at hb
        obtain hb | rfl := hb
        · exact (h.addresses b hb).trans (Nat.lt_succ_self _)
        · exact Nat.lt_succ_self _
      · rw [List.mem_append, List.mem_singleton] at hb
        obtain hb | rfl := hb
        · exact h.capacities b hb
        · change max stagingBlockBytes.toNat (alignStaging (align size).toNat) < 2 ^ 64
          rw [haligned]
          exact Nat.max_lt.2 ⟨UInt64.toNat_lt _, hbits⟩
      · change 0 + alignStaging (align size).toNat < 2 ^ 64
        rwa [haligned, Nat.zero_add]
    · cases hacquire

/-- The blocks left are blocks that were there. -/
theorem mem_releaseStaging {blockBytes : Nat} {blocks : List StagingBlock} {block : StagingBlock}
    (h : block ∈ releaseStaging blockBytes blocks released) :
    ∃ before ∈ blocks, before.address = block.address ∧ before.capacity = block.capacity := by
  have hdropped := (sweep_sublist _ _ _).subset h
  clear h
  induction released generalizing blocks with
  | nil => exact ⟨block, hdropped, rfl, rfl⟩
  | cons range released ih =>
    obtain ⟨next, hnext, haddress, hcapacity⟩ := ih hdropped
    obtain ⟨before, hbefore, rfl⟩ := List.mem_map.1 hnext
    refine ⟨before, hbefore, ?_, ?_⟩
    · rw [← haddress]
      split <;> simp
    · rw [← hcapacity]
      split <;> simp

theorem Pool.Sound.release (h : pool.Sound) (hin : ∀ range ∈ released, range ∈ pool.outstanding)
    (hnodup : released.Nodup) : (pool.release stagingBlockBytes released).Sound where
  stocked := h.stocked.release hin hnodup
  serials range hrange := h.serials range (Finset.mem_sdiff.1 hrange).1
  addresses block hblock := by
    obtain ⟨before, hbefore, haddress, -⟩ := mem_releaseStaging hblock
    exact haddress ▸ h.addresses before hbefore
  capacities block hblock := by
    obtain ⟨before, hbefore, -, hcapacity⟩ := mem_releaseStaging hblock
    exact hcapacity ▸ h.capacities before hbefore

/-! Groups in their ranges. -/

/-- What holds of a group in its range: its parts are apart and inside the range, stages and copies
read what the stage before them wrote, and more than one job fits the cap. -/
structure Staged.Sound (maxBytes : UInt64) (s : Staged) : Prop where
  apart : jobsBytes s.jobs < 2 ^ 64 → (s.jobs.flatMap GpuUpload.parts).Pairwise PartsApart
  inside : jobsBytes s.jobs < 2 ^ 64 → ∀ p ∈ s.jobs.flatMap GpuUpload.parts,
    s.range.offset ≤ p.1 ∧ p.1 + p.2 ≤ s.range.offset + s.range.bytes
  chained : ∀ gpu ∈ s.jobs, gpu.Chained
  emitted : List.Forall₂ GpuUpload.Emits s.jobs s.regions
  capped : 1 < s.jobs.length → (∀ gpu ∈ s.jobs, Capped gpu) → jobsBytes s.jobs < 2 ^ 64 →
    jobsBytes s.jobs ≤ maxBytes.toNat

theorem dvd_partsBytes (ps : List (Nat × Nat)) : kStagingAlignment ∣ partsBytes ps := by
  refine List.dvd_sum fun n hn => ?_
  obtain ⟨p, -, rfl⟩ := List.mem_map.1 hn
  exact dvd_alignStaging p.2

theorem jobsBytes_rebase (jobs : List GpuUpload) (range : Staging) :
    jobsBytes (jobs.map (·.rebase range)) = jobsBytes jobs := by
  rw [jobsBytes, List.map_map, jobsBytes]
  refine congrArg List.sum (List.map_congr_left fun gpu _ => ?_)
  rw [Function.comp_apply, GpuUpload.needBytes, rebase_parts, GpuUpload.needBytes,
    partsBytes, List.map_map]
  rfl

theorem rebase_flatMap (jobs : List GpuUpload) (range : Staging) :
    (jobs.map (·.rebase range)).flatMap GpuUpload.parts =
      (jobs.flatMap GpuUpload.parts).map fun p => ((p.1 + range.offset) % 2 ^ 64, p.2) := by
  rw [List.flatMap_map, List.map_flatMap]
  simp only [rebase_parts]

theorem Group.Sound.stage (h : group.Sound maxBytes)
    (hrange : Handed pool pool' range group.total) :
    (group.stage range).Sound maxBytes := by
  have hbytes : jobsBytes (group.stage range).jobs = jobsBytes group.jobs := jobsBytes_rebase ..
  have hfit : jobsBytes group.jobs < 2 ^ 64 → range.bytes = jobsBytes group.jobs := by
    intro hlt
    have haligned : alignStaging (jobsBytes group.jobs) = jobsBytes group.jobs := by
      rw [jobsBytes_eq]
      exact alignStaging_of_dvd (dvd_partsBytes _)
    have htotal := (h.laid hlt).1
    rw [hrange.bytes, align_toNat (by rw [htotal, haligned]; exact hlt), htotal, haligned]
  have hpacked : jobsBytes group.jobs < 2 ^ 64 →
      Packed range.offset ((group.stage range).jobs.flatMap GpuUpload.parts) ∧
        partsBytes ((group.stage range).jobs.flatMap GpuUpload.parts) = range.bytes := by
    intro hlt
    have hbits := hrange.fits
    have hmoved : (group.stage range).jobs.flatMap GpuUpload.parts =
        (group.jobs.flatMap GpuUpload.parts).map fun p => ((p.1 + range.offset) % 2 ^ 64, p.2) :=
      rebase_flatMap ..
    refine ⟨?_, by rw [← jobsBytes_eq, hbytes, hfit hlt]⟩
    rw [hmoved]
    refine (h.laid hlt).2.shift ?_
    rw [← jobsBytes_eq, Nat.add_zero, ← hfit hlt]
    exact hbits
  refine ⟨fun hlt => ?_, fun hlt p hp => ?_, fun gpu hgpu => ?_, ?_, fun hmore hall hlt => ?_⟩
  · rw [hbytes] at hlt
    exact (hpacked hlt).1.apart
  · rw [hbytes] at hlt
    have hin := (hpacked hlt).1.inside hp
    rwa [(hpacked hlt).2] at hin
  · obtain ⟨before, hbefore, rfl⟩ := List.mem_map.1 hgpu
    exact (h.chained before hbefore).rebase range
  · rw [Group.stage, List.forall₂_map_left_iff, List.forall₂_map_right_iff]
    exact h.emitted.imp fun gpu region hemits => hemits.rebase range
  · rw [hbytes] at hlt ⊢
    refine h.capped ?_ (fun gpu hgpu => hall (gpu.rebase range) (List.mem_map_of_mem hgpu)) hlt
    rwa [Group.stage, List.length_map] at hmore

/-- Ranges taken since a pool was as it is, all of them out. -/
structure Taken (start pool : Pool) (ranges : List Staging) : Prop where
  sound : pool.Sound
  handed : start.handed ≤ pool.handed
  nodup : ranges.Nodup
  serials : ∀ range ∈ ranges, start.handed ≤ range.serial
  outstanding : pool.outstanding = start.outstanding ∪ ranges.toFinset

theorem Taken.take {start : Pool} {ranges : List Staging} (h : Taken start pool ranges)
    (hrange : Handed pool pool' range size) : Taken start pool' (ranges ++ [range]) := by
  have hout : range ∉ pool.outstanding := h.sound.fresh hrange.serial.ge
  have hnew : range ∉ ranges := by
    intro hin
    rw [h.outstanding] at hout
    exact hout (Finset.mem_union_right _ (List.mem_toFinset.2 hin))
  refine ⟨hrange.sound, h.handed.trans ?_, ?_, fun r hr => ?_, ?_⟩
  · rw [hrange.handed]
    exact Nat.le_succ _
  · rw [List.nodup_append]
    refine ⟨h.nodup, List.nodup_singleton _, fun a ha b hb => ?_⟩
    rw [List.mem_singleton] at hb
    rintro rfl
    exact hnew (hb ▸ ha)
  · rw [List.mem_append, List.mem_singleton] at hr
    obtain hr | rfl := hr
    · exact h.serials r hr
    · exact h.handed.trans hrange.serial.ge
  · rw [hrange.outstanding, h.outstanding, List.toFinset_append]
    ext r
    simp only [Finset.mem_insert, Finset.mem_union, List.mem_toFinset, List.mem_singleton]
    tauto

/-- All of them go back. -/
theorem Taken.release {start : Pool} {ranges : List Staging} (h : Taken start pool ranges)
    (hstart : start.Sound) :
    (pool.release stagingBlockBytes ranges).Sound ∧
      (pool.release stagingBlockBytes ranges).outstanding = start.outstanding := by
  refine ⟨h.sound.release (fun r hr => ?_) h.nodup, ?_⟩
  · rw [h.outstanding]
    exact Finset.mem_union_right _ (List.mem_toFinset.2 hr)
  · change pool.outstanding \ ranges.toFinset = _
    rw [h.outstanding, Finset.union_sdiff_right]
    refine Finset.sdiff_eq_self_of_disjoint (Finset.disjoint_left.2 fun r hr hin => ?_)
    exact hstart.fresh (h.serials r (List.mem_toFinset.1 hin)) hr

variable {start : Pool} {groups : List Group} {staged : List Staged}

theorem stageGroups_spec (hstart : start.Sound) (htaken : Taken start pool (staged.map (·.range)))
    (hgroups : ∀ group ∈ groups, group.Sound maxBytes) :
    match stageGroups stagingBlockBytes device creates groups staged pool with
    | (pool, none) => pool.Sound ∧ pool.outstanding = start.outstanding
    | (pool, some all) => Taken start pool (all.map (·.range)) ∧
      ∃ added, all = staged ++ added ∧ (∀ s ∈ added, s.Sound maxBytes) ∧
        List.Forall₂ (fun group s => s = group.stage s.range) groups added := by
  induction groups generalizing staged pool with
  | nil => exact ⟨htaken, [], by simp, by simp, .nil⟩
  | cons group groups ih =>
    rw [stageGroups]
    cases hacquire : acquireStaging stagingBlockBytes device creates group.total pool with
    | none => exact htaken.release hstart
    | some r =>
      obtain ⟨pool', range⟩ := r
      have hrange := acquireStaging_handed htaken.sound hacquire
      have hsound := hgroups group (List.mem_cons_self ..)
      have htaken' : Taken start pool' ((staged ++ [group.stage range]).map (·.range)) := by
        rw [List.map_append]
        exact htaken.take hrange
      have hrest := ih htaken' fun g hg => hgroups g (List.mem_cons_of_mem _ hg)
      simp only
      generalize stageGroups stagingBlockBytes device creates groups
        (staged ++ [group.stage range]) pool' = out at hrest
      obtain ⟨last, all⟩ := out
      cases all with
      | none => exact hrest
      | some all =>
        obtain ⟨htaken'', added, hall, hadded, hmatch⟩ := hrest
        refine ⟨htaken'', group.stage range :: added, by rw [hall, List.append_assoc]; rfl,
          fun s hs => ?_, .cons rfl hmatch⟩
        rw [List.mem_cons] at hs
        obtain rfl | hs := hs
        · exact hsound.stage hrange
        · exact hadded s hs

/-! The whole call. -/

theorem Staged.Sound.withFast {s : Staged} (h : s.Sound maxBytes) (fast : Bool) :
    (s.withFast fast).Sound maxBytes := by
  have hparts : (s.withFast fast).jobs.flatMap GpuUpload.parts =
      s.jobs.flatMap GpuUpload.parts := by
    rw [Staged.withFast, List.flatMap_map]
    rfl
  have hbytes : jobsBytes (s.withFast fast).jobs = jobsBytes s.jobs := by
    rw [jobsBytes_eq, jobsBytes_eq, hparts]
  refine ⟨fun hlt => ?_, fun hlt p hp => ?_, fun gpu hgpu => ?_, ?_, fun hmore hall hlt => ?_⟩
  · rw [hparts]
    exact h.apart (hbytes ▸ hlt)
  · rw [hparts] at hp
    exact h.inside (hbytes ▸ hlt) p hp
  · obtain ⟨before, hbefore, rfl⟩ := List.mem_map.1 hgpu
    exact ⟨(h.chained before hbefore).decoding, (h.chained before hbefore).encoding⟩
  · rw [Staged.withFast, List.forall₂_map_left_iff]
    refine h.emitted.imp fun gpu region hemits => ?_
    rw [GpuUpload.Emits, ← hemits]
    cases he : gpu.encode <;> simp only [GpuUpload.emit, GpuUpload.last, he] <;> rfl
  · rw [hbytes] at hlt ⊢
    rw [Staged.withFast, List.length_map] at hmore
    exact h.capped hmore (fun gpu hgpu =>
      hall { gpu with job := { gpu.job with fast := fast } } (List.mem_map.2 ⟨gpu, hgpu, rfl⟩)) hlt

/-- What staging keeps of each group is kept of them all. -/
theorem staged_map {α β : Type*} {fast : Bool} {f : Staged → List α} {g : Group → List α}
    (bare : α → β) (h : List.Forall₂ (fun group s => s = Group.stage group s.range) groups staged)
    (hstage : ∀ group range, (f ((Group.stage group range).withFast fast)).map bare =
      (g group).map bare) :
    ((staged.map (·.withFast fast)).flatMap f).map bare = (groups.flatMap g).map bare := by
  induction h with
  | nil => rfl
  | @cons group s groups staged hfirst hrest ih =>
    rw [List.map_cons, List.flatMap_cons, List.map_append, ih, List.flatMap_cons,
      List.map_append, hfirst, hstage]

theorem staged_jobs {fast : Bool}
    (h : List.Forall₂ (fun group s => s = Group.stage group s.range) groups staged) :
    ((staged.map (·.withFast fast)).flatMap (·.jobs)).map GpuUpload.bare =
      (groups.flatMap (·.jobs)).map GpuUpload.bare := by
  refine staged_map GpuUpload.bare h fun group range => ?_
  simp only [Staged.withFast, Group.stage, List.map_map]
  exact List.map_congr_left fun gpu _ => rebase_bare gpu range

theorem staged_regions {fast : Bool}
    (h : List.Forall₂ (fun group s => s = Group.stage group s.range) groups staged) :
    ((staged.map (·.withFast fast)).flatMap (·.regions)).map Region.bare =
      (groups.flatMap (·.regions)).map Region.bare := by
  refine staged_map Region.bare h fun group range => ?_
  simp only [Staged.withFast, Group.stage, List.map_map]
  exact List.map_congr_left fun region _ => rfl

/-- What a call may come to: every range laid out soundly, with the jobs and copies all there and in
order; or a failure that leaves what is out and the command records as they were. -/
def StagingSound (maxBytes : UInt64) (commandBuffer : VkCommandBuffer) (gpus : List GpuUpload)
    (rewritten : List Region) (state : GpuState) : GpuState × Option (List Staged) → Prop
  | (after, some staged) =>
    after.pool.Sound ∧ (∀ s ∈ staged, s.Sound maxBytes) ∧
      (staged.flatMap (·.jobs)).map GpuUpload.bare = gpus.map GpuUpload.bare ∧
      (staged.flatMap (·.regions)).map Region.bare = rewritten.map Region.bare ∧
      after.pool.outstanding = state.pool.outstanding ∪ (staged.map (·.range)).toFinset ∧
      (after.commands commandBuffer).gpuUploads =
        (state.commands commandBuffer).gpuUploads ++ staged.flatMap (·.jobs)
  | (after, none) =>
    after.pool.Sound ∧ after.pool.outstanding = state.pool.outstanding ∧
      after.commands = state.commands

theorem stageGpuJobs_sound (stagingBlockBytes : UInt64) (device : VkDevice)
    (creates : Nat → Bool) (fast : Bool)
    (commandBuffer : VkCommandBuffer) (gpus : List GpuUpload)
    (rewritten : List Region) (state : GpuState)
    (hpool : state.pool.Sound) (hlength : rewritten.length = gpus.length) :
    StagingSound (maxGpuStagingBytes stagingBlockBytes) commandBuffer gpus rewritten state
      (stageGpuJobs stagingBlockBytes device creates fast commandBuffer gpus rewritten state) := by
  obtain ⟨hgroups, hjobs, hregions⟩ :=
    @groupJobs_holds (maxGpuStagingBytes stagingBlockBytes) gpus rewritten hlength
  have hnone : Taken state.pool state.pool (([] : List Staged).map (·.range)) :=
    ⟨hpool, le_rfl, List.nodup_nil, nofun, (Finset.union_empty _).symm⟩
  have hstage := @stageGroups_spec _ _ stagingBlockBytes device creates _ _ _ hpool hnone hgroups
  rw [stageGpuJobs]
  simp only
  generalize stageGroups stagingBlockBytes device creates _ [] state.pool = out at hstage
  obtain ⟨pool, all⟩ := out
  cases all with
  | none => exact ⟨hstage.1, hstage.2, rfl⟩
  | some all =>
    obtain ⟨htaken, added, hall, hsound, hmatch⟩ := hstage
    rw [List.nil_append] at hall
    subst hall
    have hranges : (all.map (·.withFast fast)).map (·.range) = all.map (·.range) := by
      rw [List.map_map]
      rfl
    refine ⟨htaken.sound, fun s hs => ?_, ?_, ?_, ?_, ?_⟩
    · obtain ⟨before, hbefore, rfl⟩ := List.mem_map.1 hs
      exact (hsound before hbefore).withFast fast
    · rw [← hjobs]
      exact staged_jobs hmatch
    · rw [← hregions]
      exact staged_regions hmatch
    · rw [hranges]
      exact htaken.outstanding
    · simp only [Function.update_self]

/-- Jobs of `ScaleJob` with and without an encode, and a transcode. -/
def mixedJobs : List GpuUpload :=
  [{ scaleJob 1 .etc2Rgb8 1 1 16 16 true with sourceSpan := 24 },
    { scaleJob 1 .etc2Rgb8 1 1 16 16 false with sourceSpan := 24 },
    { sourceSpan := 64, job := { blocksWide := 2, blocksHigh := 4, transcode := true } }]

theorem stageGpuJobs_sound_mixed :
    (stageGpuJobs 4096 1 (fun _ => true) false 2 mixedJobs
      (List.replicate 3 { imageExtent := ⟨16, 16, 1⟩ })
      {}).2.isSome ∧
    StagingSound (maxGpuStagingBytes 4096) 2 mixedJobs
      (List.replicate 3 { imageExtent := ⟨16, 16, 1⟩ }) {}
      (stageGpuJobs 4096 1 (fun _ => true) false 2 mixedJobs
        (List.replicate 3 { imageExtent := ⟨16, 16, 1⟩ }) {}) :=
  ⟨by decide, stageGpuJobs_sound 4096 1 (fun _ => true) false 2 mixedJobs _ {} .initial rfl⟩

/-- A source of almost 2 ^ 64 bytes is taken for none. -/
theorem stageGpuJobs_wraps :
    (stageGpuJobs 4096 1 (fun _ => true) false 2
        [{ sourceSpan := 0xFFFFFFFFFFFFFF9C
           job := { blocksWide := 1, blocksHigh := 1, transcode := true } }]
        [{ imageExtent := ⟨4, 4, 1⟩ }] {}).2.map
      (fun staged => staged.map fun s =>
        (s.jobs.flatMap GpuUpload.parts, s.range.offset, s.range.bytes)) =
      some [([(0, 0xFFFFFFFFFFFFFF9C), (0, 16)], 0, 256)] := by
  decide

end Nightcap.Graphics.Copies
