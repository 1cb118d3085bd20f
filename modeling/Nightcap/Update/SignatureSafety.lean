import Mathlib
import Nightcap.Update.HostAbiSignature

/-! The matches of a signature are all the places with its bytes and its semantics, and a unique
match is the only place with its bytes. -/
namespace Nightcap.Update.HostAbi

variable {disasm : Disasm} {reference candidate image : ElfImage}
  {spec : SignatureSpec} {multiple : Bool}
  {s : Signature} {m : SignatureMatch} {rva : UInt64} {instruction : Instruction}
  {mask mask' : List Bool} {text : Bytes} {base i k n p count : Nat} {e : String}

theorem bind_ok {α β : Type} {x : Except String α} {f : α → Except String β} {b : β}
    (h : (x >>= f) = .ok b) :
    ∃ a, x = .ok a ∧ f a = .ok b := by
  cases x with
  | error e => cases h
  | ok a => exact ⟨a, rfl, h⟩

/-- A check that refuses lets nothing behind it run. -/
theorem check_ok {β : Type} {c : Prop} [Decidable c] {f : Unit → Except String β} {b : β}
    (h : (if c then Except.error e >>= f else f ()) = .ok b) : ¬ c ∧ f () = .ok b := by
  by_cases hc : c
  · rw [if_pos hc] at h
    cases h
  · rw [if_neg hc] at h
    exact ⟨hc, h⟩

theorem bind_error {α β : Type} {x : Except String α} {f : α → Except String β}
    (h : (x >>= f) = .error e) : x = .error e ∨ ∃ a, x = .ok a ∧ f a = .error e := by
  cases x with
  | error e' =>
    cases h
    exact .inl rfl
  | ok a => exact .inr ⟨a, rfl, h⟩

theorem check_error {β : Type} {c : Prop} [Decidable c] {f : Unit → Except String β} {e' : String}
    (h : (if c then Except.error e' >>= f else f ()) = .error e) :
    c ∧ e' = e ∨ ¬ c ∧ f () = .error e := by
  by_cases hc : c
  · rw [if_pos hc] at h
    cases h
    exact .inl ⟨hc, rfl⟩
  · rw [if_neg hc] at h
    exact .inr ⟨hc, h⟩

/-! The bytes that count. -/

/-- The bytes of an instruction that hold its immediate or its displacement, as places of the
signature. -/
def Instruction.Covers (instruction : Instruction) (reference_rva : UInt64) (i : Nat) : Prop :=
  let start := (instruction.address - reference_rva).toNat
  start + instruction.immediate_offset.toNat ≤ i ∧
      i < start + instruction.immediate_offset.toNat + instruction.immediate_size.toNat ∨
    start + instruction.displacement_offset.toNat ≤ i ∧
      i < start + instruction.displacement_offset.toNat + instruction.displacement_size.toNat

theorem clear_length (indices : List Nat) (mask : List Bool) :
    (indices.foldl (fun mask index => mask.set (base + index) false) mask).length =
      mask.length := by
  induction indices generalizing mask with
  | nil => rfl
  | cons index indices ih => rw [List.foldl_cons, ih, List.length_set]

theorem set_getD : (mask.set k false).getD i false = true ↔ mask.getD i false = true ∧ k ≠ i := by
  rw [List.getD_eq_getElem?_getD, List.getD_eq_getElem?_getD, List.getElem?_set]
  by_cases hk : k = i
  · rw [if_pos hk]
    split <;> simp [hk]
  · rw [if_neg hk]
    simp [hk]

theorem clear_getD (indices : List Nat) (mask : List Bool) :
    (indices.foldl (fun mask index => mask.set (base + index) false) mask).getD i false = true ↔
      mask.getD i false = true ∧ ∀ index ∈ indices, base + index ≠ i := by
  induction indices generalizing mask with
  | nil => exact ⟨fun h => ⟨h, fun _ hin => absurd hin List.not_mem_nil⟩, fun h => h.1⟩
  | cons index indices ih =>
    rw [List.foldl_cons, ih, set_getD, List.forall_mem_cons, and_assoc]

theorem maskField_ok {offset size : UInt8}
    (h : maskField instruction base offset size mask = .ok mask') :
    mask'.length = mask.length ∧ ∀ i, mask'.getD i false = true ↔
      mask.getD i false = true ∧
        ¬ (base + offset.toNat ≤ i ∧ i < base + offset.toNat + size.toNat) := by
  unfold maskField at h
  split at h
  · rename_i hsize
    cases h
    refine ⟨rfl, fun i => ⟨fun hi => ⟨hi, ?_⟩, fun hi => hi.1⟩⟩
    rw [hsize, UInt8.toNat_zero]
    omega
  · split at h
    · cases h
    · cases h
      refine ⟨clear_length _ _, fun i => ?_⟩
      rw [clear_getD]
      refine and_congr_right fun _ => ⟨fun hall hin => ?_, fun hout index hindex => ?_⟩
      · exact hall (i - base) (List.mem_range'_1.2 (by omega)) (by omega)
      · rw [List.mem_range'_1] at hindex
        omega

theorem maskInstruction_ok (h : maskInstruction rva mask instruction = .ok mask') :
    mask'.length = mask.length ∧
      ∀ i, mask'.getD i false = true ↔ mask.getD i false = true ∧ ¬ instruction.Covers rva i := by
  obtain ⟨between, himmediate, hdisplacement⟩ := bind_ok h
  obtain ⟨hlength, hfirst⟩ := maskField_ok himmediate
  obtain ⟨hlength', hsecond⟩ := maskField_ok hdisplacement
  refine ⟨hlength'.trans hlength, fun i => ?_⟩
  rw [hsecond, hfirst, and_assoc, ← not_or]
  rfl

theorem masks_ok {instructions : List Instruction}
    (h : instructions.foldlM (maskInstruction rva) mask = .ok mask') :
    mask'.length = mask.length ∧ ∀ i, mask'.getD i false = true ↔
      mask.getD i false = true ∧ ∀ instruction ∈ instructions, ¬ instruction.Covers rva i := by
  induction instructions generalizing mask with
  | nil =>
    cases h
    exact ⟨rfl, fun i => ⟨fun hi => ⟨hi, fun _ hin => absurd hin List.not_mem_nil⟩, fun hi => hi.1⟩⟩
  | cons instruction instructions ih =>
    rw [List.foldlM_cons] at h
    obtain ⟨between, hone, hrest⟩ := bind_ok h
    obtain ⟨hlength, hfirst⟩ := maskInstruction_ok hone
    obtain ⟨hlength', hall⟩ := ih hrest
    refine ⟨hlength'.trans hlength, fun i => ?_⟩
    rw [hall, hfirst, List.forall_mem_cons, and_assoc]

/-! The bytes of a signature are not none. -/

/-- The sizes of the instructions, as a number. -/
def sizes (instructions : List Instruction) : Nat := (instructions.map fun x => x.size.toNat).sum

theorem decodeInstructions_ok {source : List CsInsn} {start expected : UInt64}
    {instructions : List Instruction}
    (h : decodeInstructions start source = .ok (instructions, expected)) :
    instructions.length = source.length ∧ instructions.length ≤ sizes instructions ∧
      sizes instructions ≤ instructions.length * 65535 ∧
        expected = start + UInt64.ofNat (sizes instructions) ∧
      ∀ back, instructions.getLast? = some back → back.address + back.size.toUInt64 = expected := by
  induction source generalizing start instructions with
  | nil =>
    cases h
    exact ⟨rfl, Nat.le_refl _, Nat.le_refl _, (UInt64.add_zero _).symm,
      fun back hback => by cases hback⟩
  | cons insn source ih =>
    unfold decodeInstructions at h
    split at h
    · cases h
    · rename_i x86 hdetail
      split at h
      · cases h
      · rename_i hgood
        obtain ⟨operands, -, h⟩ := bind_ok h
        obtain ⟨⟨rest, behind⟩, hrest, h⟩ := bind_ok h
        cases h
        obtain ⟨hlength, hlow, hhigh, hend, hlast⟩ := ih hrest
        have hsize : insn.size.toNat ≠ 0 := fun h0 => hgood (.inr (UInt16.toNat_inj.1 h0))
        have hbound := insn.size.toNat_lt
        simp only [sizes, List.map_cons, List.sum_cons, List.length_cons] at hlow hhigh ⊢
        refine ⟨by omega, by omega, by omega, ?_, fun back hback => ?_⟩
        · rw [hend, UInt64.ofNat_add, UInt64.add_assoc, UInt64.ofNat_uInt16ToNat]
          rfl
        · cases rest with
          | nil =>
            cases hback
            rw [hend]
            have haddress : insn.address = start := by
              by_contra hother
              exact hgood (.inl hother)
            rw [haddress]
            exact (UInt64.add_zero _).symm
          | cons x rest => exact hlast back hback

theorem decode_ok {maximum : UInt64} {instructions : List Instruction}
    (h : decode disasm image rva count maximum = .ok instructions) :
    ∀ back, instructions.getLast? = some back →
      (back.address + back.size.toUInt64 - rva).toNat ≠ 0 := by
  unfold decode at h
  obtain ⟨hcount, h⟩ := check_ok h
  simp only at h
  obtain ⟨-, -, h⟩ := bind_ok h
  obtain ⟨offset, -, h⟩ := bind_ok h
  obtain ⟨bytes, -, h⟩ := bind_ok h
  obtain ⟨hlength, h⟩ := check_ok h
  obtain ⟨⟨result, expected⟩, hresult, h⟩ := bind_ok h
  obtain ⟨-, -, h⟩ := bind_ok h
  cases h
  obtain ⟨hsame, hlow, hhigh, hend, hlast⟩ := decodeInstructions_ok hresult
  intro back hback
  have hsmall : sizes result < UInt64.size := by
    have hsize : UInt64.size = 2 ^ 64 := rfl
    omega
  rw [hlast back hback, hend, UInt64.add_comm, UInt64.add_sub_cancel,
    UInt64.toNat_ofNat_of_lt' hsmall]
  omega

/-! What a signature is. -/

/-- A byte of the signature that is no part of an immediate or a displacement. -/
def Signature.Unmasked (s : Signature) (spec : SignatureSpec) (i : Nat) : Prop :=
  i < s.encoded.length ∧ ∀ instruction ∈ s.instructions, ¬ instruction.Covers spec.reference_rva i

/-- A run of such bytes. -/
def Signature.Run (s : Signature) (spec : SignatureSpec) (offset size : Nat) : Prop :=
  offset < s.encoded.length ∧ ∀ i, offset ≤ i → i < offset + size → s.Unmasked spec i

/-- All unmasked bytes of the signature are at a place of a text. -/
def Signature.Matches (s : Signature) (spec : SignatureSpec) (text : Bytes) (p : Nat) : Prop :=
  p + s.encoded.length ≤ text.length ∧ ∀ i, s.Unmasked spec i → text[p + i]? = s.encoded[i]?

theorem bytes_ok {offset size : UInt64} (h : image.bytes offset size = .ok text) :
    text.length = size.toNat := by
  unfold ElfImage.bytes at h
  split at h
  · rename_i hrange
    cases h
    rw [checkedRange, Bool.and_eq_true, decide_eq_true_eq, decide_eq_true_eq] at hrange
    have hbounded := image.bounded
    have hfile : image.fileSize.toNat = image.file.length := by
      rw [ElfImage.fileSize, UInt64.toNat_ofNat_of_lt']
      have hsize : UInt64.size = 2 ^ 64 := rfl
      have hmaximum : kMaximumElfBytes = 2 ^ 29 := rfl
      omega
    have hsize := UInt64.le_iff_toNat_le.1 hrange.2
    rw [UInt64.toNat_sub_of_le _ _ hrange.1, hfile] at hsize
    rw [List.length_take, List.length_drop]
    omega
  · cases h

theorem replicate_getD : (List.replicate n true).getD i false = true ↔ i < n := by
  rw [List.getD_eq_getElem?_getD, List.getElem?_replicate]
  by_cases hi : i < n <;> simp [hi]

/-- The mask of a signature is what its instructions cover, and a signature has bytes. -/
theorem signature_ok (h : signature disasm reference spec = .ok s) :
    s.encoded ≠ [] ∧ s.mask.length = s.encoded.length ∧
      ∀ i, s.mask.getD i false = true ↔ s.Unmasked spec i := by
  obtain ⟨instructions, hdecode, h⟩ := bind_ok h
  split at h
  · cases h
  · rename_i back hback
    obtain ⟨offset, -, h⟩ := bind_ok h
    obtain ⟨encoded, hbytes, h⟩ := bind_ok h
    obtain ⟨mask, hmask, h⟩ := bind_ok h
    cases h
    have hlength := bytes_ok hbytes
    have hsome := decode_ok hdecode back hback
    obtain ⟨hmasked, hcounts⟩ := masks_ok hmask
    rw [List.length_replicate] at hmasked
    refine ⟨fun hnil => ?_, hmasked, fun i => ?_⟩
    · have hnone : encoded = [] := hnil
      rw [hnone] at hlength
      exact hsome hlength.symm
    · rw [hcounts, Signature.Unmasked]
      exact and_congr_left fun _ => replicate_getD

/-! The anchor. -/

/-- What the loop knows after `k` rounds: its run is one of bytes that count and is still open or
not, and no run so far is longer than the one it chose. -/
structure Chosen (mask : List Bool) (k : Nat) (a : Anchor) : Prop where
  begins : a.anchor_size = 0 → a.anchor_offset = 0
  counts : ∀ i, a.anchor_offset ≤ i → i < a.anchor_offset + a.anchor_size → mask.getD i false = true
  open_run : a.running = true → a.run_start < k ∧
    (∀ i, a.run_start ≤ i → i < k → mask.getD i false = true) ∧
    ∀ i, i + 1 = a.run_start → mask.getD i false = false
  closed : a.running = false → ∀ i, i + 1 = k → mask.getD i false = false
  longest : ∀ start n, start + n ≤ k → (∀ i, start ≤ i → i < start + n → mask.getD i false = true) →
    n ≤ a.anchor_size ∨ a.running = true ∧ a.run_start ≤ start

theorem chosen_first : Chosen mask 0 {} where
  begins _ := rfl
  counts i hlow hhigh := by
    have hnone : ({} : Anchor).anchor_size = 0 := rfl
    omega
  open_run h := by cases h
  closed _ i hi := by omega
  longest start n hn _ := .inl (by omega)

/-- A byte that does not count ends the run. -/
theorem chosen_masked {a : Anchor} (h : Chosen mask k a) (hmasked : mask.getD k false = false) :
    Chosen mask (k + 1) (anchorStep mask a k) := by
  have hends : ∀ start n, (∀ i, start ≤ i → i < start + n → mask.getD i false = true) →
      start + n ≤ k + 1 →
      n = 0 ∨ start + n ≤ k := by
    intro start n hall hn
    by_contra hover
    have hat := hall k (by omega) (by omega)
    rw [hmasked] at hat
    cases hat
  have hlast : ∀ i, i + 1 = k + 1 → mask.getD i false = false := by
    intro i hi
    obtain rfl : i = k := by omega
    exact hmasked
  unfold anchorStep
  cases hrunning : a.running with
  | false =>
    simp only [hmasked, Bool.false_and, Bool.and_false, Bool.not_false,
      Bool.false_eq_true, if_false]
    refine ⟨h.begins, h.counts, fun hopen => ?_, fun _ => hlast, fun start n hn hall => ?_⟩
    · rw [hrunning] at hopen
      cases hopen
    · rcases hends start n hall hn with rfl | hbefore
      · exact .inl (Nat.zero_le _)
      · exact h.longest start n hbefore hall
  | true =>
    obtain ⟨hstart, hopen, -⟩ := h.open_run hrunning
    have hold : ∀ start n, start + n ≤ k + 1 →
        (∀ i, start ≤ i → i < start + n → mask.getD i false = true) →
        n ≤ a.anchor_size ∨ n ≤ k - a.run_start := by
      intro start n hn hall
      rcases hends start n hall hn with rfl | hbefore
      · exact .inl (Nat.zero_le _)
      · rcases h.longest start n hbefore hall with hle | ⟨-, hfrom⟩
        · exact .inl hle
        · exact .inr (by omega)
    simp only [hmasked, Bool.false_and, Bool.not_false, Bool.and_self,
      Bool.false_eq_true, if_false, if_true]
    split
    · rename_i hlonger
      refine ⟨fun hzero => ?_, fun i hlow hhigh => hopen i hlow ?_, nofun, fun _ => hlast,
        fun start n hn hall => .inl ?_⟩
      · simp only at hzero
        omega
      · simp only at hlow hhigh
        omega
      · simp only
        rcases hold start n hn hall with hle | hle <;> omega
    · refine ⟨h.begins, h.counts, nofun, fun _ => hlast, fun start n hn hall => .inl ?_⟩
      simp only
      rcases hold start n hn hall with hle | hle <;> omega

/-- A byte that counts opens a run or goes on with it. -/
theorem chosen_counts {a : Anchor} (h : Chosen mask k a) (hcounts : mask.getD k false = true) :
    Chosen mask (k + 1) (anchorStep mask a k) := by
  unfold anchorStep
  cases hrunning : a.running with
  | false =>
    have hclosed := h.closed hrunning
    simp only [hcounts, Bool.not_false, Bool.and_self, if_true]
    refine ⟨h.begins, h.counts, fun _ =>
      ⟨Nat.lt_succ_self k, fun i hlow hhigh => ?_, fun i hi => hclosed i hi⟩,
      nofun, fun start n hn hall => ?_⟩
    · obtain rfl : i = k := by
        simp only at hlow
        omega
      exact hcounts
    · rcases Nat.lt_or_ge k (start + n) with hafter | hbefore
      · refine .inr ⟨rfl, ?_⟩
        -- The byte in front of the new run does not count.
        by_contra hfront
        simp only at hfront
        have hat := hall (k - 1) (by omega) (by omega)
        rw [hclosed (k - 1) (by omega)] at hat
        cases hat
      · rcases h.longest start n hbefore hall with hle | ⟨hopen, -⟩
        · exact .inl hle
        · rw [hrunning] at hopen
          cases hopen
  | true =>
    obtain ⟨hstart, hopen, hboundary⟩ := h.open_run hrunning
    simp only [hcounts, Bool.not_true, Bool.and_false, Bool.false_and, Bool.false_eq_true, if_false]
    refine ⟨h.begins, h.counts, fun _ => ⟨by omega, fun i hlow hhigh => ?_, hboundary⟩,
      fun hclosed => ?_,
      fun start n hn hall => ?_⟩
    · rcases Nat.lt_or_ge i k with hbefore | hat
      · exact hopen i hlow hbefore
      · obtain rfl : i = k := by omega
        exact hcounts
    · rw [hrunning] at hclosed
      cases hclosed
    · rcases Nat.lt_or_ge k (start + n) with hafter | hbefore
      · refine .inr ⟨hrunning, ?_⟩
        by_contra hfront
        have hat := hall (a.run_start - 1) (by omega) (by omega)
        rw [hboundary (a.run_start - 1) (by omega)] at hat
        cases hat
      · exact h.longest start n hbefore hall

theorem chosen_rounds : ∀ k, Chosen mask k ((List.range k).foldl (anchorStep mask) {})
  | 0 => chosen_first
  | k + 1 => by
    rw [List.range_succ, List.foldl_append]
    cases hat : mask.getD k false with
    | false => exact chosen_masked (chosen_rounds k) hat
    | true => exact chosen_counts (chosen_rounds k) hat

theorem run_unmasked {offset size : Nat} (h : signature disasm reference spec = .ok s)
    (hrun : s.Run spec offset size) : MaskedSearch.Unmasked s.encoded s.mask offset size := by
  obtain ⟨-, -, hcounts⟩ := signature_ok h
  refine ⟨hrun.1, ?_, fun i hlow hhigh => (hcounts i).2 (hrun.2 i hlow hhigh)⟩
  by_contra hout
  have hbegins := hrun.1
  have hlast := (hrun.2 (offset + size - 1) (by omega) (by omega)).1
  omega

/-- The anchor is a run of bytes that count, and no such run is longer. -/
theorem chooseAnchor_longest (h : signature disasm reference spec = .ok s) :
    s.Run spec (chooseAnchor s.mask).anchor_offset (chooseAnchor s.mask).anchor_size ∧
      ∀ offset size, s.Run spec offset size → size ≤ (chooseAnchor s.mask).anchor_size := by
  obtain ⟨hne, hlength, hcounts⟩ := signature_ok h
  have hchosen : Chosen s.mask (s.mask.length + 1) (chooseAnchor s.mask) := chosen_rounds _
  refine ⟨⟨?_, fun i hlow hhigh => (hcounts i).1 (hchosen.counts i hlow hhigh)⟩,
    fun offset size hrun => ?_⟩
  · by_cases hzero : (chooseAnchor s.mask).anchor_size = 0
    · rw [hchosen.begins hzero]
      exact List.length_pos_iff.2 hne
    · exact ((hcounts _).1 (hchosen.counts _ (Nat.le_refl _) (by omega))).1
  · have hinside := (run_unmasked h hrun).inside
    rcases hchosen.longest offset size (by omega) fun i hlow hhigh =>
        (hcounts i).2 (hrun.2 i hlow hhigh) with
      hle | ⟨hopen, -⟩
    · exact hle
    · -- The last round is behind the mask and closes the run.
      obtain ⟨hstart, hall, -⟩ := hchosen.open_run hopen
      have hat := ((hcounts _).1 (hall s.mask.length (by omega) (by omega))).1
      omega

/-! The places and their semantics. -/

theorem matches_iff (h : signature disasm reference spec = .ok s) :
    p ∈ MaskedSearch.positions s.encoded s.mask text ↔ s.Matches spec text p := by
  obtain ⟨-, -, hcounts⟩ := signature_ok h
  rw [MaskedSearch.mem_positions, Signature.Matches, MaskedSearch.sameAt, List.all_eq_true]
  refine and_congr_right fun _ => ⟨fun hall i hi => ?_, fun hall i hi => ?_⟩
  · have hat := hall i (List.mem_range.2 hi.1)
    rw [(hcounts i).2 hi, Bool.not_true, Bool.false_or, beq_iff_eq] at hat
    exact hat
  · cases hmask : s.mask.getD i false with
    | false => rfl
    | true => rw [hall i ((hcounts i).1 hmask), Bool.not_true, Bool.false_or, beq_iff_eq]

theorem semanticMatches_append (f : Nat → Except String SignatureMatch)
    (places : List Nat) (p : Nat) :
    semanticMatches f (places ++ [p]) =
      match f p with
      | .ok m => ((semanticMatches f places).1 ++ [m], (semanticMatches f places).2)
      | .error e => ((semanticMatches f places).1,
        if (semanticMatches f places).2.isEmpty then e else (semanticMatches f places).2) := by
  rw [semanticMatches, List.foldl_append]
  rfl

/-- The last loop keeps the matches in order, and has an error only from a place. -/
theorem semanticMatches_eq (f : Nat → Except String SignatureMatch) (places : List Nat) :
    (semanticMatches f places).1 = places.filterMap (fun p => (f p).toOption) ∧
      ((semanticMatches f places).2 ≠ "" → ∃ p ∈ places,
        f p = .error (semanticMatches f places).2) := by
  induction places using List.reverseRecOn with
  | nil => exact ⟨rfl, fun h => absurd rfl h⟩
  | append_singleton places p ih =>
    obtain ⟨hfound, herror⟩ := ih
    rw [semanticMatches_append, List.filterMap_append, ← hfound]
    cases hp : f p with
    | ok m =>
      refine ⟨by simp [hp, Except.toOption], fun h => ?_⟩
      obtain ⟨q, hq, hsame⟩ := herror h
      exact ⟨q, List.mem_append_left _ hq, hsame⟩
    | error e =>
      refine ⟨by simp [hp, Except.toOption], fun h => ?_⟩
      simp only at h ⊢
      by_cases hfirst : (semanticMatches f places).2.isEmpty = true
      · rw [if_pos hfirst]
        exact ⟨p, List.mem_append_right _ (List.mem_singleton_self p), hp⟩
      · rw [if_neg hfirst]
        obtain ⟨q, hq, hsame⟩ := herror fun hnone => hfirst (String.isEmpty_iff.2 hnone)
        exact ⟨q, List.mem_append_left _ hq, hsame⟩

/-- The candidate's instructions at an address pass, and are what the match has. -/
structure Accepted (disasm : Disasm) (candidate : ElfImage) (spec : SignatureSpec)
    (reference : List Instruction)
    (rva : UInt64) (m : SignatureMatch) : Prop where
  address : m.rva = rva
  same : m.reference = reference
  decodes : decode disasm candidate rva spec.instruction_count 4096 = .ok m.candidate
  passes : validateSemantics reference m.candidate spec = .ok ()

theorem semanticMatch_ok {instructions : List Instruction} :
    semanticMatch disasm candidate spec instructions rva = .ok m ↔
      Accepted disasm candidate spec instructions rva m := by
  constructor
  · intro h
    obtain ⟨decoded, hdecode, h⟩ := bind_ok h
    obtain ⟨⟨⟩, hpasses, h⟩ := bind_ok h
    cases h
    exact ⟨rfl, rfl, hdecode, hpasses⟩
  · rintro ⟨haddress, hsame, hdecode, hpasses⟩
    subst haddress hsame
    simp only [semanticMatch, hdecode, hpasses, bind, Except.bind]

/-- The semantics at a place are not the reference's. -/
def Rejected (disasm : Disasm) (candidate : ElfImage) (spec : SignatureSpec)
    (reference : List Instruction)
    (rva : UInt64) (e : String) : Prop :=
  decode disasm candidate rva spec.instruction_count 4096 = .error e ∨
    ∃ instructions, decode disasm candidate rva spec.instruction_count 4096 = .ok instructions ∧
      validateSemantics reference instructions spec = .error e

theorem semanticMatch_error {instructions : List Instruction}
    (h : semanticMatch disasm candidate spec instructions rva = .error e) :
    Rejected disasm candidate spec instructions rva e := by
  rcases bind_error h with hdecode | ⟨decoded, hdecode, h⟩
  · exact .inl hdecode
  · rcases bind_error h with hdiffers | ⟨-, -, h⟩
    · exact .inr ⟨decoded, hdecode, hdiffers⟩
    · cases h

/-- The matches of a signature in the text of a candidate, with their places. -/
structure Found (disasm : Disasm) (candidate : ElfImage) (spec : SignatureSpec)
    (s : Signature) (address : UInt64)
    (text : Bytes) (places : List Nat) (found : List SignatureMatch) : Prop where
  ascending : places.Pairwise (· < ·)
  /-- Exactly the places with the bytes and the semantics. -/
  complete : ∀ p, p ∈ places ↔ s.Matches spec text p ∧
    ∃ m, Accepted disasm candidate spec s.instructions (address + UInt64.ofNat p) m
  accepted :
    List.Forall₂
    (fun p m => Accepted disasm candidate spec s.instructions (address + UInt64.ofNat p) m)
    places found

/-- Why there may be no matches in a text. -/
inductive Fails (disasm : Disasm) (candidate : ElfImage) (spec : SignatureSpec)
    (multiple : Bool) (s : Signature)
    (address : UInt64) (text : Bytes) (e : String) : Prop
  | none (h : ∀ p, ¬ s.Matches spec text p)
  | many (hone : multiple = false) (p q : Nat) (hne : p ≠ q) (hp : s.Matches spec text p)
      (hq : s.Matches spec text q)
  | semantics (p : Nat) (hp : s.Matches spec text p) (honly : ∀ q, s.Matches spec text q → q = p)
      (h : Rejected disasm candidate spec s.instructions (address + UInt64.ofNat p) e)

theorem forall₂_filterMap {α β : Type} (f : α → Option β) (l : List α) :
    List.Forall₂ (fun a b => f a = some b) (l.filter fun a => (f a).isSome) (l.filterMap f) := by
  induction l with
  | nil => exact .nil
  | cons a l ih =>
    cases ha : f a with
    | none => simpa [ha] using ih
    | some b => simpa [ha] using ih

theorem toOption_some {x : Except String SignatureMatch} : x.toOption = some m ↔ x = .ok m := by
  cases x <;> simp [Except.toOption]

/-- The matches among the places with the bytes. -/
theorem found_of_positions (candidate : ElfImage) (text : Bytes)
    (h : signature disasm reference spec = .ok s)
    (address : UInt64) :
    ∃ places, Found disasm candidate spec s address text places
      (semanticMatches
        (fun p => semanticMatch disasm candidate spec s.instructions (address + UInt64.ofNat p))
        (MaskedSearch.positions s.encoded s.mask text)).1 := by
  rw [(semanticMatches_eq _ _).1]
  refine ⟨_, MaskedSearch.positions_pairwise.filter _, fun p => ?_,
    (forall₂_filterMap _ _).imp fun p m hm => ?_⟩
  · rw [List.mem_filter, matches_iff h, Option.isSome_iff_exists]
    refine and_congr_right fun _ => exists_congr fun m => ?_
    rw [toOption_some, semanticMatch_ok]
  · rwa [toOption_some, semanticMatch_ok] at hm

/-- The run of bytes that is searched for makes no difference. -/
theorem matchAnchored_any {offset size offset' size' : Nat}
    (h : signature disasm reference spec = .ok s)
    (hrun : s.Run spec offset size) (hrun' : s.Run spec offset' size') :
    matchAnchored disasm candidate spec multiple s offset size =
      matchAnchored disasm candidate spec multiple s offset' size' := by
  unfold matchAnchored
  simp only [MaskedSearch.scan_eq_positions (run_unmasked h hrun),
    MaskedSearch.scan_eq_positions (run_unmasked h hrun')]

theorem matchAnchored_ok {offset size : Nat} {found : List SignatureMatch}
    (h : signature disasm reference spec = .ok s) (hrun : s.Run spec offset size)
    (hok : matchAnchored disasm candidate spec multiple s offset size = .ok found) :
    ∃ section_text text places, candidate.findSection ".text" = some section_text ∧
      candidate.sectionBytes section_text = .ok text ∧
      Found disasm candidate spec s section_text.address text places found ∧
      (∃ p, s.Matches spec text p) ∧
      (multiple = false → ∀ p q, s.Matches spec text p → s.Matches spec text q → p = q) := by
  unfold matchAnchored at hok
  split at hok
  · cases hok
  · rename_i section_text hsection
    obtain ⟨text, htext, hok⟩ := bind_ok hok
    rw [MaskedSearch.scan_eq_positions (run_unmasked h hrun)] at hok
    obtain ⟨hsome, hok⟩ := check_ok hok
    obtain ⟨hone, hok⟩ := check_ok hok
    obtain ⟨-, hok⟩ := check_ok hok
    cases hok
    obtain ⟨places, hfound⟩ := found_of_positions candidate text h section_text.address
    obtain ⟨p, hp⟩ := List.exists_mem_of_ne_nil _ hsome
    refine ⟨section_text, text, places, hsection, htext, hfound, ⟨p, (matches_iff h).1 hp⟩,
      fun hmultiple p q hp hq => ?_⟩
    have hlength : (MaskedSearch.positions s.encoded s.mask text).length = 1 := by
      by_contra hother
      exact hone ⟨hmultiple, hother⟩
    obtain ⟨only, honly⟩ := List.length_eq_one_iff.1 hlength
    rw [← matches_iff h, honly, List.mem_singleton] at hp hq
    exact hp.trans hq.symm

theorem two_places {places : List Nat} (hne : places ≠ []) (hlength : places.length ≠ 1)
    (h : places.Pairwise (· < ·)) : ∃ p q, p ∈ places ∧ q ∈ places ∧ p ≠ q := by
  match places, hne, hlength, h with
  | [_], _, hlength, _ => exact absurd rfl hlength
  | p :: q :: rest, _, _, h =>
    refine ⟨p, q, List.mem_cons_self, List.mem_cons_of_mem _ List.mem_cons_self, ?_⟩
    have hlt := List.rel_of_pairwise_cons h List.mem_cons_self
    omega

theorem matchAnchored_error {offset size : Nat} (h : signature disasm reference spec = .ok s)
    (hrun : s.Run spec offset size)
    (herror : matchAnchored disasm candidate spec multiple s offset size = .error e) :
    candidate.findSection ".text" = none ∨
      ∃ section_text, candidate.findSection ".text" = some section_text ∧
        (candidate.sectionBytes section_text = .error e ∨
          ∃ text, candidate.sectionBytes section_text = .ok text ∧
            Fails disasm candidate spec multiple s section_text.address text e) := by
  unfold matchAnchored at herror
  split at herror
  · exact .inl ‹_›
  · rename_i section_text hsection
    refine .inr ⟨section_text, hsection, ?_⟩
    rcases bind_error herror with htext | ⟨text, htext, herror⟩
    · exact .inl htext
    · refine .inr ⟨text, htext, ?_⟩
      rw [MaskedSearch.scan_eq_positions (run_unmasked h hrun)] at herror
      rcases check_error herror with ⟨hnone, -⟩ | ⟨hsome, herror⟩
      · refine .none fun p hp => ?_
        rw [← matches_iff h, hnone] at hp
        cases hp
      · rcases check_error herror with ⟨⟨hmultiple, hmany⟩, -⟩ | ⟨-, herror⟩
        · obtain ⟨p, q, hp, hq, hne⟩ := two_places hsome hmany MaskedSearch.positions_pairwise
          exact .many hmultiple p q hne ((matches_iff h).1 hp) ((matches_iff h).1 hq)
        · rcases check_error herror with ⟨⟨-, hone, hfirst⟩, rfl⟩ | ⟨-, herror⟩
          · obtain ⟨only, honly⟩ := List.length_eq_one_iff.1 hone
            obtain ⟨p, hp, hrejected⟩ := (semanticMatches_eq _ _).2 hfirst
            rw [honly, List.mem_singleton] at hp
            subst hp
            have hmatches : ∀ q, s.Matches spec text q ↔ q = p := fun q => by
              rw [← matches_iff h, honly, List.mem_singleton]
            exact .semantics p ((hmatches p).2 rfl) (fun q hq => (hmatches q).1 hq)
              (semanticMatch_error hrejected)
          · cases herror

/-- `FindSignatureMatches` is the search with any run of enough bytes as its anchor. -/
theorem findSignatureMatches_eq (h : signature disasm reference spec = .ok s) :
    findSignatureMatches disasm reference candidate spec multiple =
      if (chooseAnchor s.mask).anchor_size < spec.minimum_anchor_bytes then
        .error "normalized signature has no selective fixed anchor"
      else matchAnchored disasm candidate spec multiple s (chooseAnchor s.mask).anchor_offset
        (chooseAnchor s.mask).anchor_size := by
  rw [findSignatureMatches, h]
  simp only [bind, Except.bind]

/-- `FindSignatureMatches` has the places of the candidate's text with the bytes and the semantics,
and no others; why it has none; and a single match is at the only place with the bytes. -/
theorem findSignatureMatches_spec (disasm : Disasm) (reference candidate : ElfImage)
    (spec : SignatureSpec) :
    (∀ multiple found, findSignatureMatches disasm reference candidate spec multiple = .ok found →
      ∃ s section_text text places, signature disasm reference spec = .ok s ∧
        candidate.findSection ".text" = some section_text ∧
          candidate.sectionBytes section_text = .ok text ∧
        Found disasm candidate spec s section_text.address text places found ∧
        (∃ p, s.Matches spec text p) ∧
        (multiple = false → ∀ p q, s.Matches spec text p → s.Matches spec text q → p = q)) ∧
    (∀ multiple e, findSignatureMatches disasm reference candidate spec multiple = .error e →
      signature disasm reference spec = .error e ∨ ∃ s, signature disasm reference spec = .ok s ∧
        ((∀ offset size, s.Run spec offset size → size < spec.minimum_anchor_bytes) ∨
          candidate.findSection ".text" = none ∨
          ∃ section_text, candidate.findSection ".text" = some section_text ∧
            (candidate.sectionBytes section_text = .error e ∨
              ∃ text, candidate.sectionBytes section_text = .ok text ∧
                Fails disasm candidate spec multiple s section_text.address text e))) ∧
    (∀ m, findSignatureMatch disasm reference candidate spec = .ok m →
      ∃ s section_text text p, signature disasm reference spec = .ok s ∧
        candidate.findSection ".text" = some section_text ∧
          candidate.sectionBytes section_text = .ok text ∧
        (∀ q, s.Matches spec text q ↔ q = p) ∧
        Accepted disasm candidate spec s.instructions (section_text.address + UInt64.ofNat p) m) ∧
    (∀ s multiple offset size, signature disasm reference spec = .ok s → s.Run spec offset size →
      spec.minimum_anchor_bytes ≤ size →
      findSignatureMatches disasm reference candidate spec multiple =
        matchAnchored disasm candidate spec multiple s offset size) := by
  have hmatches : ∀ multiple found,
      findSignatureMatches disasm reference candidate spec multiple = .ok found →
      ∃ s section_text text places, signature disasm reference spec = .ok s ∧
        candidate.findSection ".text" = some section_text ∧
          candidate.sectionBytes section_text = .ok text ∧
        Found disasm candidate spec s section_text.address text places found ∧
        (∃ p, s.Matches spec text p) ∧
        (multiple = false → ∀ p q, s.Matches spec text p → s.Matches spec text q → p = q) := by
    intro multiple found h
    obtain ⟨s, hs, -⟩ := bind_ok h
    rw [findSignatureMatches_eq hs] at h
    split at h
    · cases h
    · obtain ⟨section_text, text, places, hrest⟩ :=
        matchAnchored_ok hs (chooseAnchor_longest hs).1 h
      exact ⟨s, section_text, text, places, hs, hrest⟩
  refine ⟨hmatches, fun multiple e h => ?_, fun m h => ?_,
    fun s multiple offset size hs hrun hsize => ?_⟩
  · rcases bind_error h with hs | ⟨s, hs, -⟩
    · exact .inl hs
    · refine .inr ⟨s, hs, ?_⟩
      rw [findSignatureMatches_eq hs] at h
      obtain ⟨hrun, hlongest⟩ := chooseAnchor_longest hs
      split at h
      · exact .inl fun offset size hother => Nat.lt_of_le_of_lt (hlongest offset size hother) ‹_›
      · exact .inr (matchAnchored_error hs hrun h)
  · obtain ⟨found, hfound, h⟩ := bind_ok h
    obtain ⟨s, section_text, text, places, hs, hsection, htext, hplaces, ⟨p, hp⟩, honly⟩ :=
      hmatches _ _ hfound
    match found, h with
    | [_], rfl =>
      obtain ⟨place, rest, haccepted, hnil, rfl⟩ := List.forall₂_cons_right_iff.1 hplaces.accepted
      have hplace := ((hplaces.complete place).1 List.mem_cons_self).1
      refine ⟨s, section_text, text, place, hs, hsection, htext, fun q =>
        ⟨fun hq => ?_, fun hq => ?_⟩, haccepted⟩
      · exact honly rfl q place hq hplace
      · rwa [hq]
  · obtain ⟨hanchor, hlongest⟩ := chooseAnchor_longest hs
    rw [findSignatureMatches_eq hs,
      if_neg (Nat.not_lt.2 (Nat.le_trans hsize (hlongest offset size hrun)))]
    exact matchAnchored_any hs hanchor hrun

/-! A call and three instructions behind it, elsewhere in the candidate. -/

/-- Capstone on calls, `test eax, eax`, `mov rdi, rbx`, `ret` and `nop`. -/
def callInstructions : Nat → Bytes → UInt64 → List CsInsn
  | count + 1, 0xe8 :: a :: b :: c :: d :: rest, address =>
    let target := address.toNat + 5 + a.toNat + b.toNat <<< 8 + c.toNat <<< 16 + d.toNat <<< 24
    ⟨address, 5, "call", true, false, false, some ⟨1, 4, 0, 0, [⟨8, .imm target⟩]⟩⟩ ::
      callInstructions count rest (address + 5)
  | count + 1, 0x85 :: 0xc0 :: rest, address =>
    ⟨address, 2, "test", false, false, false,
      some ⟨0, 0, 0, 0, [⟨4, .reg (some "eax")⟩, ⟨4, .reg (some "eax")⟩]⟩⟩ ::
      callInstructions count rest (address + 2)
  | count + 1, 0x48 :: 0x89 :: 0xdf :: rest, address =>
    ⟨address, 3, "mov", false, false, false,
      some ⟨0, 0, 0, 0, [⟨8, .reg (some "rdi")⟩, ⟨8, .reg (some "rbx")⟩]⟩⟩ ::
      callInstructions count rest (address + 3)
  | count + 1, 0xc3 :: rest, address =>
    ⟨address, 1, "ret", false, false, true, some ⟨0, 0, 0, 0, []⟩⟩ ::
      callInstructions count rest (address + 1)
  | count + 1, 0x90 :: rest, address =>
    ⟨address, 1, "nop", false, false, false, some ⟨0, 0, 0, 0, []⟩⟩ ::
      callInstructions count rest (address + 1)
  | _, _, _ => []

def callDisasm : Disasm := fun bytes address count => callInstructions count bytes address

def callImage : ElfImage where
  file := [0xe8, 0x10, 0, 0, 0, 0x85, 0xc0, 0x48, 0x89, 0xdf, 0xc3]
  segments := [⟨0, 0x1000, 11, 11, PF_R ||| PF_X⟩]
  sections := [⟨".text", 0x1000, 0, 11⟩]
  bounded := by decide

def movedImage : ElfImage where
  file :=
    [0x90, 0x90, 0x85, 0xc0, 0xc3, 0xe8, 0x20, 0, 0, 0, 0x85, 0xc0, 0x48, 0x89, 0xdf, 0xc3, 0x90]
  segments := [⟨0, 0x2000, 17, 17, PF_R ||| PF_X⟩]
  sections := [⟨".text", 0x2000, 0, 17⟩]
  bounded := by decide

def callSpec : SignatureSpec where
  name := "call"
  reference_rva := 0x1000
  instruction_count := 4

/-- The anchor is behind the call, whose target differs. -/
theorem findSignatureMatches_spec_call : ∃ s m, signature callDisasm callImage callSpec = .ok s ∧
    (chooseAnchor s.mask).anchor_offset = 5 ∧
      findSignatureMatch callDisasm callImage movedImage callSpec = .ok m ∧ m.rva = 0x2005 ∧
        ∃ p, ∀ q, s.Matches callSpec movedImage.file q ↔ q = p := by
  have hsignature : ∃ s, signature callDisasm callImage callSpec = .ok s ∧
      (chooseAnchor s.mask).anchor_offset = 5 := ⟨_, rfl, by decide⟩
  have hfound : (findSignatureMatch callDisasm callImage movedImage callSpec).map (·.rva) =
      .ok 0x2005 := by decide +kernel
  obtain ⟨s, hs, hanchor⟩ := hsignature
  cases hm : findSignatureMatch callDisasm callImage movedImage callSpec with
  | error e =>
    rw [hm] at hfound
    cases hfound
  | ok m =>
    rw [hm] at hfound
    obtain ⟨s', section_text, text, p, hs', hsection, htext, honly, -⟩ :=
      (findSignatureMatches_spec callDisasm callImage movedImage callSpec).2.2.1 m hm
    have hfirst : movedImage.findSection ".text" = some ⟨".text", 0x2000, 0, 17⟩ := by decide
    rw [hfirst] at hsection
    cases hsection
    cases hs.symm.trans hs'
    cases (show Except.ok movedImage.file = .ok text from htext)
    exact ⟨s, m, hs, hanchor, rfl, Except.ok.inj hfound, p, honly⟩

/-! An image of one `nop`, and a decoder for it. -/

def nopImage : ElfImage where
  file := [0x90]
  segments := [⟨0, 0, 1, 1, PF_R ||| PF_X⟩]
  sections := [⟨".text", 0, 0, 1⟩]
  bounded := by decide

def nopDisasm : Disasm := fun _ address _ =>
  [⟨address, 1, "nop", false, false, false, some ⟨0, 0, 0, 0, []⟩⟩]

def nopSpec (minimum_anchor_bytes : Nat) : SignatureSpec where
  name := "nop"
  reference_rva := 0
  instruction_count := 1
  minimum_anchor_bytes := minimum_anchor_bytes

def nopSignature : Signature := ⟨[⟨0, 1, "nop", [], 0, 0, 0, 0, false, false⟩], [0x90], [true]⟩

/-- A signature without a run of six bytes is not looked for, though its only place passes. -/
theorem findSignatureMatches_noAnchor :
    signature nopDisasm nopImage (nopSpec 6) = .ok nopSignature ∧
      nopImage.findSection ".text" = some ⟨".text", 0, 0, 1⟩ ∧
      nopImage.sectionBytes ⟨".text", 0, 0, 1⟩ = .ok [0x90] ∧
      (∀ q, nopSignature.Matches (nopSpec 6) [0x90] q ↔ q = 0) ∧
      Accepted nopDisasm nopImage (nopSpec 6) nopSignature.instructions 0
        ⟨0, nopSignature.instructions, nopSignature.instructions⟩ ∧
      findSignatureMatches nopDisasm nopImage nopImage (nopSpec 6) true =
        .error "normalized signature has no selective fixed anchor" := by
  refine ⟨by decide, by decide, by decide, fun q => ⟨fun hq => ?_, fun hq => ?_⟩,
    ⟨rfl, rfl, by decide, by decide⟩, by decide⟩
  · have hinside : q + 1 ≤ 1 := hq.1
    omega
  · refine ⟨by rw [hq]; decide, fun i hi => ?_⟩
    have hfirst : i < 1 := hi.1
    obtain rfl : i = 0 := by omega
    rw [hq]
    rfl

end Nightcap.Update.HostAbi
