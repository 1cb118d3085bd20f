import Nightcap.Graphics.TextureOverride

/-! `ResampleRgba` averages boxes of the source, whichever path a row takes, unless a column offset
or a sum wraps. -/
namespace Nightcap.Graphics

open WorkQueue Boxes

namespace ResampleCall

variable {call : ResampleCall} {y x k a : Nat}

/-- The buffers the call was given hold both images. -/
structure Buffers (call : ResampleCall) : Prop where
  source : call.source.isSome = true
  destination : call.destination = true
  stride : call.sourceWidth.toNat * 4 ≤ call.sourceStrideBytes.toNat
  sourceFits : call.sourceHeight.toNat * call.sourceStrideBytes.toNat < 2 ^ 64
  destinationFits : call.width.toNat * call.height.toNat * 4 < 2 ^ 64

/-- Neither image is empty. -/
structure Inhabited (call : ResampleCall) : Prop where
  sourceWidth : 0 < call.sourceWidth.toNat
  sourceHeight : 0 < call.sourceHeight.toNat
  width : 0 < call.width.toNat
  height : 0 < call.height.toNat

/-! The boxes as computed are the boxes meant. -/

theorem wrap32_of_lt {n : Nat} (h : n < 2 ^ 32) : wrap32 n = n := Nat.mod_eq_of_lt h

theorem wrap64_of_lt {n : Nat} (h : n < 2 ^ 64) : wrap64 n = n := Nat.mod_eq_of_lt h

theorem mul_lt_of_lt {m n : Nat} (hm : m < 2 ^ 32) (hn : n < 2 ^ 32) : m * n < 2 ^ 64 := by
  calc m * n ≤ m * 2 ^ 32 := Nat.mul_le_mul_left m hn.le
    _ < 2 ^ 32 * 2 ^ 32 := Nat.mul_lt_mul_of_pos_right hm (by norm_num)
    _ = 2 ^ 64 := by norm_num

/-- An end of a box, before it is made at least one cell wide. -/
theorem wrap64_next {i m n : Nat} (hi : i < m) (hm : m < 2 ^ 32) (hn : n < 2 ^ 32) :
    wrap64 (wrap64 (i + 1) * n) / m = (i + 1) * n / m := by
  have hsucc : i + 1 ≤ m := hi
  have hle : (i + 1) * n ≤ m * n := Nat.mul_le_mul_right n hsucc
  have hlt := mul_lt_of_lt hm hn
  rw [wrap64_of_lt (by omega : i + 1 < 2 ^ 64), wrap64_of_lt (by omega)]

theorem wrap64_mul {i m n : Nat} (hi : i < m) (hm : m < 2 ^ 32) (hn : n < 2 ^ 32) :
    wrap64 (i * n) = i * n :=
  wrap64_of_lt (mul_lt_of_lt (hi.trans hm) hn)

theorem x0_eq (hc : call.Inhabited) (hx : x < call.width.toNat) :
    call.x0 x = boxStart call.sourceWidth.toNat call.width.toNat x := by
  have hlt := boxStart_lt hc.sourceWidth hx
  have hw := call.sourceWidth.toNat_lt
  rw [x0, wrap64_mul hx call.width.toNat_lt hw, ← boxStart, wrap32_of_lt (by omega)]

theorem x1_eq (hc : call.Inhabited) (hx : x < call.width.toNat) :
    call.x1 x = boxEnd call.sourceWidth.toNat call.width.toNat x := by
  have hlt := boxStart_lt hc.sourceWidth hx
  have hle := boxEnd_le hc.sourceWidth hx
  have hw := call.sourceWidth.toNat_lt
  have hend : (x + 1) * call.sourceWidth.toNat / call.width.toNat ≤ call.sourceWidth.toNat :=
    (le_max_right _ _).trans hle
  rw [x1, wrap64_next hx call.width.toNat_lt hw, x0_eq hc hx, wrap32_of_lt (by omega),
    wrap32_of_lt (by omega), boxEnd]

theorem y0_eq (hy : y < call.height.toNat) :
    call.y0 y = boxStart call.sourceHeight.toNat call.height.toNat y := by
  rw [y0, wrap64_mul hy call.height.toNat_lt call.sourceHeight.toNat_lt, ← boxStart]

theorem y1_eq (hc : call.Inhabited) (hy : y < call.height.toNat) :
    call.y1 y = boxEnd call.sourceHeight.toNat call.height.toNat y := by
  have hlt := boxStart_lt hc.sourceHeight hy
  have hh := call.sourceHeight.toNat_lt
  rw [y1, wrap64_next hy call.height.toNat_lt hh, y0_eq hy, wrap64_of_lt (by omega), boxEnd]
  split <;> omega

theorem oneTexelColumns_iff (hc : call.Inhabited) : call.oneTexelColumns = true ↔
    ∀ x < call.width.toNat, boxEnd call.sourceWidth.toNat call.width.toNat x =
      boxStart call.sourceWidth.toNat call.width.toNat x + 1 := by
  have hw := call.sourceWidth.toNat_lt
  simp only [oneTexelColumns, List.all_eq_true, List.mem_range, decide_eq_true_eq]
  refine forall₂_congr fun x hx => ?_
  have hlt := boxStart_lt hc.sourceWidth hx
  rw [x1_eq hc hx, x0_eq hc hx, wrap32_of_lt (by omega)]

/-! The bytes a row stores. -/

/-- The byte a row stores for a channel, which depends on the row's box alone. -/
def rowByte (call : ResampleCall) (y x c : Nat) : UInt8 :=
  if call.oneTexelColumns && call.y1 y = wrap64 (call.y0 y + 1) then
    call.load (call.texelOffset y x c)
  else call.boxByte y x c

/-- The place of a channel in the destination. -/
def place (call : ResampleCall) (y x c : Nat) : Nat := (y * call.width.toNat + x) * 4 + c

/-- The stores of a row: every byte of it once, in order, each with its channel. -/
structure RowStores (call : ResampleCall) (y : Nat) (writes : List (Nat × UInt8)) : Prop where
  addresses : writes.map Prod.fst =
    List.range' (y * (call.width.toNat * 4)) (call.width.toNat * 4)
  bytes : ∀ x < call.width.toNat, ∀ c < 4, (call.place y x c, call.rowByte y x c) ∈ writes

theorem place_lt {c : Nat} (hy : y < call.height.toNat) (hx : x < call.width.toNat) (hc : c < 4) :
    call.place y x c < call.width.toNat * call.height.toNat * 4 := by
  have hrow : y * call.width.toNat + x < call.height.toNat * call.width.toNat := by
    calc y * call.width.toNat + x < y * call.width.toNat + call.width.toNat := by omega
      _ = (y + 1) * call.width.toNat := by ring
      _ ≤ call.height.toNat * call.width.toNat := Nat.mul_le_mul_right _ hy
  rw [Nat.mul_comm call.width.toNat]
  unfold place
  omega

/-- A row written channel by channel at its places. -/
theorem rowStores_of_flatMap (hb : call.Buffers) (hy : y < call.height.toNat)
    {address : Nat → Nat → Nat} {byte : Nat → Nat → UInt8}
    (haddress : ∀ x c, address x c = call.place y x c)
    (hbyte : ∀ x < call.width.toNat, ∀ c < 4, byte x c = call.rowByte y x c) :
    RowStores call y ((List.range call.width.toNat).flatMap fun x => (List.range 4).map fun c =>
      (wrap64 (address x c), byte x c)) := by
  have hexact : ∀ x < call.width.toNat, ∀ c < 4, wrap64 (address x c) = call.place y x c := by
    intro x hx c hc
    have hlt := place_lt hy hx hc
    have hfits := hb.destinationFits
    rw [haddress, wrap64_of_lt (by omega)]
  constructor
  · have hrange : List.range' (y * (call.width.toNat * 4)) (call.width.toNat * 4) =
        (List.range (call.width.toNat * 4)).map (y * (call.width.toNat * 4) + ·) := by
      rw [List.range'_eq_map_range]
    rw [hrange, ← flatMap_range_range, List.map_flatMap, List.map_flatMap]
    refine List.flatMap_congr fun x hx => ?_
    rw [List.map_map, List.map_map]
    refine List.map_congr_left fun c hc => ?_
    rw [List.mem_range] at hx hc
    simp only [Function.comp_apply, hexact x hx c hc, place]
    ring
  · intro x hx c hc
    refine List.mem_flatMap.2 ⟨x, List.mem_range.2 hx, List.mem_map.2 ⟨c, List.mem_range.2 hc, ?_⟩⟩
    rw [hexact x hx c hc, hbyte x hx c hc]

theorem functional_of_nodup {writes : List (Nat × UInt8)} (h : (writes.map Prod.fst).Nodup) :
    Functional writes := by
  intro v hv w hw heq
  rw [List.inj_on_of_nodup_map h hv hw heq]

/-! The rows of a call. -/

/-- A byte of a row of the source. -/
def InSource (call : ResampleCall) (a : Nat) : Prop :=
  ∃ sy < call.sourceHeight.toNat, ∃ i < call.sourceWidth.toNat * 4,
    a = sy * call.sourceStrideBytes.toNat + i

/-- What the first `n` rows leave. -/
structure Rows (call : ResampleCall) (n : Nat) (s : Resampling) : Prop where
  stores : s.stores = List.range (n * (call.width.toNat * 4))
  bytes : ∀ y < n, ∀ x < call.width.toNat, ∀ c < 4,
    s.memory (call.place y x c) = call.rowByte y x c
  loads : ∀ a ∈ s.loads, call.InSource a
  previous : 0 < n → s.previousY0 = call.y0 (n - 1) ∧ s.previousY1 = call.y1 (n - 1)

variable {s : Resampling} {n : Nat} {writes : List (Nat × UInt8)} {loads : List Nat}

theorem rows_store (h : call.Rows n s) (hw : call.RowStores n writes)
    (hl : ∀ a ∈ loads, call.InSource a) {s' : Resampling} (hm : s'.memory = s.memory)
    (hs : s'.stores = s.stores) (hr : s'.loads = s.loads)
    (hp : s'.previousY0 = call.y0 n ∧ s'.previousY1 = call.y1 n) :
    call.Rows (n + 1) (s'.store writes loads) := by
  have hnodup : (writes.map Prod.fst).Nodup := by
    rw [hw.addresses]
    exact List.nodup_range'
  constructor
  · change s'.stores ++ writes.map Prod.fst = _
    rw [hs, h.stores, hw.addresses, Nat.succ_mul, List.range_add, List.range'_eq_map_range]
  · intro y hy x hx c hc
    change writeAll s'.memory writes (call.place y x c) = _
    rw [hm]
    rcases Nat.lt_succ_iff_lt_or_eq.1 hy with hlt | rfl
    · rw [writeAll_of_notMem, h.bytes y hlt x hx c hc]
      intro w hw' heq
      have hmem := List.mem_map_of_mem (f := Prod.fst) hw'
      rw [hw.addresses, List.mem_range'_1, heq, place] at hmem
      have hrow : (y + 1) * (call.width.toNat * 4) ≤ n * (call.width.toNat * 4) :=
        Nat.mul_le_mul_right _ hlt
      have hsplit : (y + 1) * (call.width.toNat * 4) =
          (y * call.width.toNat) * 4 + call.width.toNat * 4 := by ring
      omega
    · exact writeAll_of_mem (functional_of_nodup hnodup) (hw.bytes x hx c hc)
  · intro a ha
    rcases List.mem_append.1 ha with ha | ha
    · exact h.loads a (hr ▸ ha)
    · exact hl a ha
  · intro _
    exact hp

theorem rowByte_congr {y' : Nat} (h₀ : call.y0 y = call.y0 y') (h₁ : call.y1 y = call.y1 y') :
    call.rowByte y x k = call.rowByte y' x k := by
  unfold rowByte texelOffset boxByte count sum
  rw [h₀, h₁]

theorem rowBytes_eq : call.rowBytes = call.width.toNat * 4 := by
  have hw := call.width.toNat_lt
  exact wrap64_of_lt (by omega)

/-- Copying the row above is right where both rows have one box. -/
theorem repeatedRow_stores (hb : call.Buffers) (h : call.Rows (y + 1) s)
    (hy : y + 1 < call.height.toNat) (h₀ : call.y0 (y + 1) = call.y0 y)
    (h₁ : call.y1 (y + 1) = call.y1 y) :
    call.RowStores (y + 1) (call.repeatedRow s.memory (y + 1)) := by
  have hflat : call.repeatedRow s.memory (y + 1) =
      (List.range call.width.toNat).flatMap fun x => (List.range 4).map fun c =>
        (wrap64 (call.place (y + 1) x c), s.memory (wrap64 (call.place y x c))) := by
    rw [repeatedRow, rowBytes_eq, ← flatMap_range_range, List.map_flatMap]
    refine List.flatMap_congr fun x _ => ?_
    rw [List.map_map]
    refine List.map_congr_left fun c _ => ?_
    have hto : (y + 1) * (call.width.toNat * 4) + (x * 4 + c) = call.place (y + 1) x c := by
      unfold place
      ring
    have hfrom : (y + 1) * (call.width.toNat * 4) - call.width.toNat * 4 + (x * 4 + c) =
        call.place y x c := by
      rw [Nat.succ_mul, Nat.add_sub_cancel, place]
      ring
    simp only [Function.comp_apply, hto, hfrom]
  rw [hflat]
  refine rowStores_of_flatMap hb hy (fun _ _ => rfl) fun x hx c hc => ?_
  have hlt := place_lt ((Nat.lt_succ_self y).trans hy) hx hc
  have hfits := hb.destinationFits
  rw [wrap64_of_lt (by omega), h.bytes y (Nat.lt_succ_self y) x hx c hc, rowByte_congr h₀ h₁]

theorem texelRow_stores (hb : call.Buffers) (hy : y < call.height.toNat)
    (hpath : (call.oneTexelColumns && call.y1 y = wrap64 (call.y0 y + 1)) = true) :
    call.RowStores y (call.texelRow y) := by
  refine rowStores_of_flatMap hb hy (fun x c => ?_) fun x hx c hc => ?_
  · rw [rowBytes_eq, place]
    ring
  · rw [rowByte, if_pos hpath]

theorem boxRow_stores (hb : call.Buffers) (hy : y < call.height.toNat)
    (hpath : ¬ (call.oneTexelColumns && call.y1 y = wrap64 (call.y0 y + 1)) = true) :
    call.RowStores y (call.boxRow y) := by
  refine rowStores_of_flatMap hb hy (fun x c => rfl) fun x hx c hc => ?_
  rw [rowByte, if_neg hpath]

theorem inSource_of_lt {sy i : Nat} (hb : call.Buffers) (hy : sy < call.sourceHeight.toNat)
    (hi : i < call.sourceWidth.toNat * 4) :
    call.InSource (wrap64 (sy * call.sourceStrideBytes.toNat + i)) := by
  refine ⟨sy, hy, i, hi, wrap64_of_lt ?_⟩
  have hrow : (sy + 1) * call.sourceStrideBytes.toNat ≤
      call.sourceHeight.toNat * call.sourceStrideBytes.toNat := Nat.mul_le_mul_right _ hy
  have hfits := hb.sourceFits
  have hstride := hb.stride
  rw [Nat.succ_mul] at hrow
  omega

/-- Even a wrapped column offset stays inside its row. -/
theorem texelLoads_inSource (hb : call.Buffers) (hc : call.Inhabited) (hy : y < call.height.toNat)
    (ha : a ∈ call.texelLoads y) : call.InSource a := by
  simp only [texelLoads, List.mem_flatMap, List.mem_map, List.mem_range] at ha
  obtain ⟨x, hx, k, hk, rfl⟩ := ha
  have hcolumn : call.x0 x < call.sourceWidth.toNat := x0_eq hc hx ▸ boxStart_lt hc.sourceWidth hx
  have hwrapped : wrap32 (call.x0 x * 4) ≤ call.x0 x * 4 := Nat.mod_le _ _
  rw [texelOffset, Nat.add_assoc, y0_eq hy]
  exact inSource_of_lt hb (boxStart_lt hc.sourceHeight hy) (by omega)

theorem boxLoads_inSource (hb : call.Buffers) (hc : call.Inhabited) (hy : y < call.height.toNat)
    (ha : a ∈ call.boxLoads y) : call.InSource a := by
  simp only [boxLoads, List.mem_flatMap, List.mem_map, List.mem_range, List.mem_range'_1] at ha
  obtain ⟨x, hx, sy, hsy, sx, hsx, c, hc', rfl⟩ := ha
  rw [y0_eq hy, y1_eq hc hy] at hsy
  rw [x0_eq hc hx, x1_eq hc hx] at hsx
  have hrow := boxEnd_le hc.sourceHeight hy
  have hcolumn := boxEnd_le hc.sourceWidth hx
  rw [pixelOffset, Nat.add_assoc]
  exact inSource_of_lt hb (by omega) (by omega)

theorem rows_step (hb : call.Buffers) (hc : call.Inhabited) (h : call.Rows n s)
    (hn : n < call.height.toNat) : call.Rows (n + 1) (call.row s n) := by
  unfold row
  split
  · next hrepeat =>
    obtain ⟨hpos, h₀, h₁⟩ := hrepeat
    obtain ⟨y, rfl⟩ : ∃ y, n = y + 1 := ⟨n - 1, by omega⟩
    obtain ⟨hp₀, hp₁⟩ := h.previous hpos
    refine rows_store h (repeatedRow_stores hb h hn (h₀.trans hp₀) (h₁.trans hp₁))
      (by simp) rfl rfl rfl ⟨h₀.symm, h₁.symm⟩
  · dsimp only
    split
    · next hpath =>
      exact rows_store h (texelRow_stores hb hn hpath) (fun a => texelLoads_inSource hb hc hn)
        rfl rfl rfl ⟨rfl, rfl⟩
    · next hpath =>
      exact rows_store h (boxRow_stores hb hn hpath) (fun a => boxLoads_inSource hb hc hn)
        rfl rfl rfl ⟨rfl, rfl⟩

theorem rows_run (hb : call.Buffers) (hc : call.Inhabited) (memory : Nat → UInt8)
    (hn : n ≤ call.height.toNat) :
    call.Rows n ((List.range n).foldl call.row ⟨0, 0, memory, [], []⟩) := by
  induction n with
  | zero =>
    exact ⟨by simp, fun _ hy => absurd hy (Nat.not_lt_zero _),
      fun _ ha => (List.not_mem_nil ha).elim, fun h => absurd h (lt_irrefl 0)⟩
  | succ n ih =>
    rw [List.range_succ, List.foldl_append]
    exact rows_step hb hc (ih (by omega)) hn

/-! The averages. -/

/-- A byte of the source image. -/
def pixel (call : ResampleCall) (sy sx c : Nat) : Nat :=
  (call.source.getD (fun _ => 0) (sy * call.sourceStrideBytes.toNat + sx * 4 + c)).toNat

/-- The columns of the box of destination column `x`. -/
def columns (call : ResampleCall) (x : Nat) : Finset Nat :=
  Finset.Ico (boxStart call.sourceWidth.toNat call.width.toNat x)
    (boxEnd call.sourceWidth.toNat call.width.toNat x)

/-- The rows of the box of destination row `y`. -/
def rows (call : ResampleCall) (y : Nat) : Finset Nat :=
  Finset.Ico (boxStart call.sourceHeight.toNat call.height.toNat y)
    (boxEnd call.sourceHeight.toNat call.height.toNat y)

def boxSum (call : ResampleCall) (y x c : Nat) : Nat :=
  ∑ sy ∈ call.rows y, ∑ sx ∈ call.columns x, call.pixel sy sx c

def boxCount (call : ResampleCall) (y x : Nat) : Nat := (call.rows y).card * (call.columns x).card

theorem load_pixelOffset {sy sx c : Nat} (hb : call.Buffers) (hy : sy < call.sourceHeight.toNat)
    (hx : sx < call.sourceWidth.toNat) (hc : c < 4) :
    (call.load (call.pixelOffset sy sx c)).toNat = call.pixel sy sx c := by
  have hrow : (sy + 1) * call.sourceStrideBytes.toNat ≤
      call.sourceHeight.toNat * call.sourceStrideBytes.toNat := Nat.mul_le_mul_right _ hy
  have hfits := hb.sourceFits
  have hstride := hb.stride
  rw [Nat.succ_mul] at hrow
  rw [load, pixel, pixelOffset, wrap64_of_lt (by omega)]

theorem foldl_wrap64 (f : Nat → Nat) (l : List Nat) (start : Nat) :
    l.foldl (fun sum a => wrap64 (sum + f a)) (wrap64 start) = wrap64 (start + (l.map f).sum) :=
  foldl_add_mod f (2 ^ 64) l start

/-- The nested loops of a box keep its sum, wrapped. -/
theorem foldl_foldl_wrap64 (f : Nat → Nat → Nat) (l l' : List Nat) (start : Nat) :
    l.foldl (fun sum sy => l'.foldl (fun sum sx => wrap64 (sum + f sy sx)) sum) (wrap64 start) =
      wrap64 (start + (l.map fun sy => (l'.map (f sy)).sum).sum) := by
  induction l generalizing start with
  | nil => rfl
  | cons sy l ih =>
    rw [List.foldl_cons, foldl_wrap64, ih, List.map_cons, List.sum_cons, Nat.add_assoc]

theorem sum_eq (hb : call.Buffers) (hc : call.Inhabited) (hy : y < call.height.toNat)
    (hx : x < call.width.toNat) (hk : k < 4) : call.sum y x k = wrap64 (call.boxSum y x k) := by
  have hloops := foldl_foldl_wrap64 (fun sy sx => (call.load (call.pixelOffset sy sx k)).toNat)
    (List.range' (call.y0 y) (call.y1 y - call.y0 y))
    (List.range' (call.x0 x) (call.x1 x - call.x0 x)) 0
  have hrow := boxEnd_le hc.sourceHeight hy
  have hcolumn := boxEnd_le hc.sourceWidth hx
  refine hloops.trans (congrArg wrap64 ?_)
  simp only [Nat.zero_add, sum_range'_eq_sum_Ico, x0_eq hc hx, x1_eq hc hx, y0_eq hy, y1_eq hc hy]
  refine Finset.sum_congr rfl fun sy hsy => Finset.sum_congr rfl fun sx hsx => ?_
  rw [rows, Finset.mem_Ico] at hsy
  rw [columns, Finset.mem_Ico] at hsx
  exact load_pixelOffset hb (by omega) (by omega) hk

theorem count_eq (hc : call.Inhabited) (hy : y < call.height.toNat) (hx : x < call.width.toNat) :
    call.count y x = call.boxCount y x := by
  have hrow := boxEnd_le hc.sourceHeight hy
  have hcolumn := boxEnd_le hc.sourceWidth hx
  have hh := call.sourceHeight.toNat_lt
  have hw := call.sourceWidth.toNat_lt
  rw [count, y0_eq hy, y1_eq hc hy, x0_eq hc hx, x1_eq hc hx, boxCount, rows, columns, Nat.card_Ico,
    Nat.card_Ico]
  exact wrap64_of_lt (mul_lt_of_lt (by omega) (by omega))

theorem boxCount_pos : 0 < call.boxCount y x := by
  have hrow : boxStart call.sourceHeight.toNat call.height.toNat y < _ := boxStart_lt_boxEnd
  have hcolumn : boxStart call.sourceWidth.toNat call.width.toNat x < _ := boxStart_lt_boxEnd
  rw [boxCount, rows, columns, Nat.card_Ico, Nat.card_Ico]
  exact Nat.mul_pos (by omega) (by omega)

theorem boxSum_le : call.boxSum y x k ≤ 255 * call.boxCount y x := by
  have hpixel (sy sx : Nat) : call.pixel sy sx k ≤ 255 := Nat.lt_succ_iff.1 (UInt8.toNat_lt _)
  calc call.boxSum y x k ≤ ∑ sy ∈ call.rows y, ∑ sx ∈ call.columns x, 255 :=
        Finset.sum_le_sum fun sy _ => Finset.sum_le_sum fun sx _ => hpixel sy sx
    _ = 255 * call.boxCount y x := by
        simp only [Finset.sum_const, smul_eq_mul, boxCount]
        ring

/-- The average of a box, unless its wrapped sum is another. -/
theorem boxByte_eq_iff (hb : call.Buffers) (hc : call.Inhabited) (hy : y < call.height.toNat)
    (hx : x < call.width.toNat) (hk : k < 4) :
    (call.boxByte y x k).toNat = roundedAverage (call.boxSum y x k) (call.boxCount y x) ↔
      call.boxSum y x k + call.boxCount y x / 2 < 2 ^ 64 := by
  have hpos : 0 < call.boxCount y x := boxCount_pos
  have hbound : call.boxCount y x < 2 ^ 64 := by
    rw [← count_eq hc hy hx]
    exact Nat.mod_lt _ (by norm_num)
  have hsum : call.boxSum y x k ≤ 255 * call.boxCount y x := boxSum_le
  have haverage := roundedAverage_le hpos hsum
  have hbyte {n : Nat} (h : n ≤ 255) : (UInt8.ofNat n).toNat = n := by
    rw [UInt8.toNat_ofNat', Nat.mod_eq_of_lt (by omega)]
  rw [boxByte, count_eq hc hy hx, sum_eq hb hc hy hx hk]
  split
  · next hone =>
    rw [hone] at hsum ⊢
    have hsmall : call.boxSum y x k < 2 ^ 64 := by omega
    rw [wrap64_of_lt hsmall, hbyte (by omega), roundedAverage_one]
    exact iff_of_true rfl (by omega)
  · have hwrapped : wrap64 (wrap64 (call.boxSum y x k) + call.boxCount y x / 2) =
        (call.boxSum y x k + call.boxCount y x / 2) % 2 ^ 64 := Nat.mod_add_mod _ _ _
    rw [hwrapped]
    unfold roundedAverage at haverage ⊢
    constructor
    · intro heq
      by_contra hlarge
      have hlt := wrapped_lt hpos hbound.le (not_lt.1 hlarge)
      rw [hbyte (by omega)] at heq
      omega
    · intro hsmall
      rw [Nat.mod_eq_of_lt hsmall, hbyte haverage]

/-- A one-texel row reads the right pixel if its column, cut to thirty bits, holds the same. -/
theorem load_texelOffset (hb : call.Buffers) (hc : call.Inhabited) (hy : y < call.height.toNat)
    (hx : x < call.width.toNat) (hk : k < 4) :
    (call.load (call.texelOffset y x k)).toNat =
      call.pixel (boxStart call.sourceHeight.toNat call.height.toNat y)
        (boxStart call.sourceWidth.toNat call.width.toNat x % 2 ^ 30) k := by
  have hcolumn := boxStart_lt hc.sourceWidth hx
  have hcut : wrap32 (call.x0 x * 4) =
      boxStart call.sourceWidth.toNat call.width.toNat x % 2 ^ 30 * 4 := by
    rw [x0_eq hc hx, wrap32]
    omega
  have hread : call.texelOffset y x k =
      call.pixelOffset (boxStart call.sourceHeight.toNat call.height.toNat y)
        (boxStart call.sourceWidth.toNat call.width.toNat x % 2 ^ 30) k := by
    rw [texelOffset, hcut, y0_eq hy, pixelOffset]
  rw [hread]
  exact load_pixelOffset hb (boxStart_lt hc.sourceHeight hy) ((Nat.mod_le _ _).trans_lt hcolumn) hk

/-- Every column box, and the row's, is one texel. -/
def OneTexel (call : ResampleCall) (y : Nat) : Prop :=
  (∀ x < call.width.toNat, boxEnd call.sourceWidth.toNat call.width.toNat x =
      boxStart call.sourceWidth.toNat call.width.toNat x + 1) ∧
    boxEnd call.sourceHeight.toNat call.height.toNat y =
      boxStart call.sourceHeight.toNat call.height.toNat y + 1

theorem path_iff (hc : call.Inhabited) (hy : y < call.height.toNat) :
    (call.oneTexelColumns && call.y1 y = wrap64 (call.y0 y + 1)) = true ↔ call.OneTexel y := by
  have hlt := boxStart_lt hc.sourceHeight hy
  have hh := call.sourceHeight.toNat_lt
  rw [Bool.and_eq_true, oneTexelColumns_iff hc, decide_eq_true_eq, y0_eq hy, y1_eq hc hy,
    wrap64_of_lt (by omega), OneTexel]

/-- What a row stores is the average exactly where nothing that matters wraps. -/
theorem rowByte_eq_iff (hb : call.Buffers) (hc : call.Inhabited) (hy : y < call.height.toNat)
    (hx : x < call.width.toNat) (hk : k < 4) :
    (call.rowByte y x k).toNat = roundedAverage (call.boxSum y x k) (call.boxCount y x) ↔
      (call.OneTexel y →
        call.pixel (boxStart call.sourceHeight.toNat call.height.toNat y)
            (boxStart call.sourceWidth.toNat call.width.toNat x % 2 ^ 30) k =
          call.pixel (boxStart call.sourceHeight.toNat call.height.toNat y)
            (boxStart call.sourceWidth.toNat call.width.toNat x) k) ∧
      (¬ call.OneTexel y → call.boxSum y x k + call.boxCount y x / 2 < 2 ^ 64) := by
  unfold rowByte
  by_cases hone : call.OneTexel y
  · have hcount : call.boxCount y x = 1 := by
      rw [boxCount, rows, columns, Nat.card_Ico, Nat.card_Ico, hone.1 x hx, hone.2,
        Nat.add_sub_cancel_left, Nat.add_sub_cancel_left]
    have hsum : call.boxSum y x k = call.pixel
        (boxStart call.sourceHeight.toNat call.height.toNat y)
        (boxStart call.sourceWidth.toNat call.width.toNat x) k := by
      rw [boxSum, rows, columns, hone.1 x hx, hone.2, Nat.Ico_succ_singleton, Finset.sum_singleton,
        Nat.Ico_succ_singleton, Finset.sum_singleton]
    rw [if_pos ((path_iff hc hy).2 hone), load_texelOffset hb hc hy hx hk, hcount,
      roundedAverage_one, hsum]
    exact ⟨fun h => ⟨fun _ => h, fun h' => absurd hone h'⟩, fun h => h.1 hone⟩
  · rw [if_neg ((path_iff hc hy).not.2 hone), boxByte_eq_iff hb hc hy hx hk]
    exact ⟨fun h => ⟨fun h' => absurd h' hone, fun _ => h⟩, fun h => h.2 hone⟩

/-- Loads stay in the rows of the source, every byte of the destination is stored once, and each
channel is the rounded average of its box. -/
def Resampled (call : ResampleCall) : Prop :=
  ∀ memory, (∀ a ∈ (resampleRgba call memory).loads, call.InSource a) ∧
    (∀ a, (resampleRgba call memory).stores.count a =
      if a < call.width.toNat * call.height.toNat * 4 then 1 else 0) ∧
    ∀ y < call.height.toNat, ∀ x < call.width.toNat, ∀ c < 4,
      ((resampleRgba call memory).memory (call.place y x c)).toNat =
        roundedAverage (call.boxSum y x c) (call.boxCount y x)

/-- The source is not empty where the destination is not, a one-texel row has the same pixels at its
columns and at those columns cut to thirty bits, and no other box has a sum too large for 64
bits. -/
def Exact (call : ResampleCall) : Prop :=
  0 < call.width.toNat → 0 < call.height.toNat →
    0 < call.sourceWidth.toNat ∧ 0 < call.sourceHeight.toNat ∧
    ∀ y < call.height.toNat, ∀ x < call.width.toNat, ∀ c < 4,
      (call.OneTexel y →
        call.pixel (boxStart call.sourceHeight.toNat call.height.toNat y)
            (boxStart call.sourceWidth.toNat call.width.toNat x % 2 ^ 30) c =
          call.pixel (boxStart call.sourceHeight.toNat call.height.toNat y)
            (boxStart call.sourceWidth.toNat call.width.toNat x) c) ∧
      (¬ call.OneTexel y → call.boxSum y x c + call.boxCount y x / 2 < 2 ^ 64)

theorem eq_zero_iff_not_pos {n : UInt32} : n = 0 ↔ ¬ 0 < n.toNat := by
  rw [← UInt32.toNat_inj, UInt32.toNat_zero]
  omega

/-- The early return is taken for empty images only. -/
theorem resampleRgba_eq (hb : call.Buffers) (memory : Nat → UInt8) : resampleRgba call memory =
    if 0 < call.width.toNat ∧ 0 < call.height.toNat ∧ 0 < call.sourceWidth.toNat ∧
        0 < call.sourceHeight.toNat then
      (List.range call.height.toNat).foldl call.row ⟨0, 0, memory, [], []⟩
    else ⟨0, 0, memory, [], []⟩ := by
  have hw := call.sourceWidth.toNat_lt
  have hstride : ¬ call.sourceStrideBytes.toNat < wrap64 (call.sourceWidth.toNat * 4) := by
    rw [wrap64_of_lt (by omega), not_lt]
    exact hb.stride
  have hsource : ¬ call.source.isNone = true := by
    have hsome := hb.source
    cases h : call.source <;> simp_all
  unfold resampleRgba
  simp only [hb.destination, eq_zero_iff_not_pos]
  by_cases h : 0 < call.width.toNat ∧ 0 < call.height.toNat ∧ 0 < call.sourceWidth.toNat ∧
      0 < call.sourceHeight.toNat
  · rw [if_pos h, if_neg]
    rintro (h' | h' | h' | h' | h' | h' | h')
    · exact hsource h'
    · cases h'
    · exact h' h.1
    · exact h' h.2.1
    · exact h' h.2.2.1
    · exact h' h.2.2.2
    · exact hstride h'
  · rw [if_neg h, if_pos]
    tauto

/-- The rows of a whole call. -/
theorem resampled_rows (hb : call.Buffers) (hc : call.Inhabited) (memory : Nat → UInt8) :
    call.Rows call.height.toNat (resampleRgba call memory) := by
  rw [resampleRgba_eq hb, if_pos ⟨hc.width, hc.height, hc.sourceWidth, hc.sourceHeight⟩]
  exact rows_run hb hc memory le_rfl

theorem count_range (n a : Nat) : (List.range n).count a = if a < n then 1 else 0 := by
  split
  · next h => exact List.count_eq_one_of_mem List.nodup_range (List.mem_range.2 h)
  · next h => exact List.count_eq_zero_of_not_mem (List.mem_range.not.2 h)

theorem resampled_of_exact (hb : call.Buffers) (h : call.Exact) : call.Resampled := by
  intro memory
  by_cases hpos : 0 < call.width.toNat ∧ 0 < call.height.toNat
  · obtain ⟨hsw, hsh, hboxes⟩ := h hpos.1 hpos.2
    have hc : call.Inhabited := ⟨hsw, hsh, hpos.1, hpos.2⟩
    have hrows := resampled_rows hb hc memory
    refine ⟨hrows.loads, fun a => ?_, fun y hy x hx c hc' => ?_⟩
    · have hsize : call.height.toNat * (call.width.toNat * 4) =
          call.width.toNat * call.height.toNat * 4 := by ring
      rw [hrows.stores, hsize, count_range]
    · rw [hrows.bytes y hy x hx c hc', rowByte_eq_iff hb hc hy hx hc']
      exact hboxes y hy x hx c hc'
  · have hempty : call.width.toNat * call.height.toNat * 4 = 0 := by
      rcases not_and_or.1 hpos with h | h
      · simp [Nat.eq_zero_of_not_pos h]
      · simp [Nat.eq_zero_of_not_pos h]
    rw [resampleRgba_eq hb, if_neg fun h => hpos ⟨h.1, h.2.1⟩, hempty]
    refine ⟨fun a ha => (List.not_mem_nil ha).elim, fun a => rfl, fun y hy x hx => ?_⟩
    exact absurd ⟨(Nat.zero_le x).trans_lt hx, (Nat.zero_le y).trans_lt hy⟩ hpos

theorem exact_of_resampled (hb : call.Buffers) (h : call.Resampled) : call.Exact := by
  intro hw hh
  have hsource : 0 < call.sourceWidth.toNat ∧ 0 < call.sourceHeight.toNat := by
    by_contra hempty
    have hcount := (h fun _ => 0).2.1 0
    rw [resampleRgba_eq hb, if_neg fun h => hempty ⟨h.2.2.1, h.2.2.2⟩,
      if_pos (by positivity)] at hcount
    exact absurd hcount Nat.zero_ne_one
  have hc : call.Inhabited := ⟨hsource.1, hsource.2, hw, hh⟩
  refine ⟨hsource.1, hsource.2, fun y hy x hx c hc' => ?_⟩
  rw [← rowByte_eq_iff hb hc hy hx hc', ← (resampled_rows hb hc fun _ => 0).bytes y hy x hx c hc']
  exact (h fun _ => 0).2.2 y hy x hx c hc'

/-- Nothing wraps below 2 ^ 30 columns and 2 ^ 56 bytes. -/
theorem exact_of_modest (hb : call.Buffers) (hw : call.sourceWidth.toNat ≤ 2 ^ 30)
    (hs : call.sourceHeight.toNat * call.sourceStrideBytes.toNat ≤ 2 ^ 56)
    (hsw : 0 < call.sourceWidth.toNat) (hsh : 0 < call.sourceHeight.toNat) : call.Exact := by
  intro hwidth hheight
  refine ⟨hsw, hsh, fun y hy x hx c hc => ⟨fun _ => ?_, fun _ => ?_⟩⟩
  · have hcolumn := boxStart_lt hsw hx
    rw [Nat.mod_eq_of_lt (by omega)]
  · have hsum : call.boxSum y x c ≤ 255 * call.boxCount y x := boxSum_le
    have hrows : (call.rows y).card ≤ call.sourceHeight.toNat := by
      have hend := boxEnd_le hsh hy
      rw [rows, Nat.card_Ico]
      omega
    have hcolumns : (call.columns x).card ≤ call.sourceWidth.toNat := by
      have hend := boxEnd_le hsw hx
      rw [columns, Nat.card_Ico]
      omega
    have hcount : call.boxCount y x * 4 ≤ 2 ^ 56 := by
      calc call.boxCount y x * 4
          ≤ call.sourceHeight.toNat * call.sourceWidth.toNat * 4 :=
            Nat.mul_le_mul_right 4 (Nat.mul_le_mul hrows hcolumns)
        _ = call.sourceHeight.toNat * (call.sourceWidth.toNat * 4) := by ring
        _ ≤ call.sourceHeight.toNat * call.sourceStrideBytes.toNat :=
          Nat.mul_le_mul_left _ hb.stride
        _ ≤ 2 ^ 56 := hs
    omega

end ResampleCall

/-- Resampling averages boxes exactly where no column offset and no sum wraps in a way that
shows. -/
theorem resampled_iff {call : ResampleCall} (hb : call.Buffers) : call.Resampled ↔ call.Exact :=
  ⟨ResampleCall.exact_of_resampled hb, ResampleCall.resampled_of_exact hb⟩

/-- Two texels and a row of padding averaged to one. -/
def halvingCall : ResampleCall where
  source := some fun i => UInt8.ofNat (i * 3)
  sourceWidth := 2
  sourceHeight := 1
  sourceStrideBytes := 12
  width := 1
  height := 1
  destination := true

theorem halvingCall_buffers : halvingCall.Buffers := by
  constructor <;> decide

theorem resampled_iff_halving : halvingCall.Resampled := by
  refine (resampled_iff halvingCall_buffers).2
    (ResampleCall.exact_of_modest halvingCall_buffers ?_ ?_ ?_ ?_)
  all_goals decide

/-- A row of 2 ^ 30 + 1 texels copied to one as long: the last texel differs from the first. -/
def wideCall : ResampleCall where
  source := some fun i => if i < 4 then 0 else 1
  sourceWidth := 1073741825
  sourceHeight := 1
  sourceStrideBytes := 4294967300
  width := 1073741825
  height := 1
  destination := true

theorem wideCall_buffers : wideCall.Buffers := by
  constructor <;> decide

/-- The last texel's offset wraps to the first texel. -/
theorem wideCall_not_resampled : ¬ wideCall.Resampled := by
  intro h
  have hone : wideCall.OneTexel 0 := by
    refine ⟨fun x _ => ?_, rfl⟩
    exact (boxEnd_self (by decide)).trans (congrArg (· + 1) (boxStart_self (by decide)).symm)
  have hexact := ResampleCall.exact_of_resampled wideCall_buffers h (by decide) (by decide)
  have hlast := (hexact.2.2 0 (by decide) (2 ^ 30) (by decide) 0 (by decide)).1 hone
  have hcolumn : boxStart wideCall.sourceWidth.toNat wideCall.width.toNat (2 ^ 30) = 2 ^ 30 :=
    boxStart_self (by decide)
  rw [hcolumn] at hlast
  exact absurd hlast (by decide)

end Nightcap.Graphics
