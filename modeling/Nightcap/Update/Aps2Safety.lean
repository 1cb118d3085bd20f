import Nightcap.Lib.Bits
import Nightcap.Lib.Sleb128
import Nightcap.Update.Aps2

/-! `DecodeAps2` accepts the group encodings of relocations, and gives these relocations. -/
namespace Nightcap.Update.Aps2

open Checked Bits

variable {bytes rest : Bytes} {value shift : Nat} {v : Int}

/-! `SlebReader::Pop`. -/

theorem int64_eq {n : Int} (hlow : -(2 ^ 63) ≤ n) (hhigh : n < 2 ^ 63) : int64 n = n := by
  have hdouble : -((2 ^ 64 : Nat) : Int) ≤ n * 2 := by omega
  have hdouble' : n * 2 < (2 ^ 64 : Nat) := by omega
  exact Int.bmod_eq_of_le_mul_two hdouble hdouble'

/-- Numbers that differ by a multiple of 2^64 wrap around to the same one. -/
theorem int64_congr {m n : Int} (k : Int) (h : m = n + (2 ^ 64 : Nat) * k) : int64 m = int64 n := by
  rw [h]
  exact Int.add_mul_bmod_self_left n (2 ^ 64) k

theorem and_bit (byte k : Nat) : byte &&& 2 ^ k = byte / 2 ^ k % 2 * 2 ^ k := by
  have hmask := and_mask byte 1 k
  rwa [pow_one, Nat.add_sub_cancel (n := 1) (m := 1), Nat.shiftLeft_eq, one_mul] at hmask

/-- The sign of the last seven bits of a number. -/
def last (byte : Nat) : Int := if byte < 64 then byte else byte - 128

/-- The last byte of a number that fits. -/
theorem signExtend_low {byte : Nat} (hbyte : byte < 128) (hshift : shift < 57)
    (hvalue : value < 2 ^ shift) :
    int64 (signExtend (value ||| byte <<< shift % 2 ^ 64) (shift + 7) byte) =
      int64 (value + last byte * 2 ^ shift) := by
  obtain ⟨c, hc⟩ : ∃ c, 2 ^ 64 = 2 ^ (shift + 7) * c := ⟨2 ^ (57 - shift), by
    rw [← Nat.pow_add]
    congr 1
    omega⟩
  have hseven : 2 ^ (shift + 7) = 2 ^ shift * 128 := Nat.pow_add 2 shift 7
  have hcpos : 0 < c := Nat.pos_of_ne_zero fun h => by
    rw [h, Nat.mul_zero] at hc
    cases hc
  have hbound : byte * 2 ^ shift + value < 2 ^ (shift + 7) := by
    rw [hseven]
    nlinarith
  have hfit : byte * 2 ^ shift < 2 ^ 64 := by
    rw [hc]
    nlinarith
  have hword : value ||| byte <<< shift % 2 ^ 64 = byte * 2 ^ shift + value := by
    rw [Nat.shiftLeft_eq, Nat.mod_eq_of_lt hfit, or_mul hvalue]
  have hbit : byte &&& 0x40 = byte / 2 ^ 6 % 2 * 2 ^ 6 := and_bit byte 6
  rw [hword, signExtend, last]
  rcases Nat.lt_or_ge byte 64 with hpos | hneg
  · rw [if_neg (by omega), if_pos hpos]
    push_cast
    congr 1
    ring
  · have hones : (2 ^ 64 - 1) <<< (shift + 7) % 2 ^ 64 = (c - 1) * 2 ^ (shift + 7) := by
      have hall : 2 ^ 64 - 1 = (2 ^ (shift + 7) - 1) * c + (c - 1) := by
        rw [hc, Nat.sub_mul, Nat.one_mul]
        have hle : c ≤ 2 ^ (shift + 7) * c := Nat.le_mul_of_pos_left c (Nat.two_pow_pos _)
        omega
      rw [Nat.shiftLeft_eq, hall, hc, Nat.mul_comm _ (2 ^ (shift + 7)), Nat.mul_mod_mul_left,
        Nat.mul_comm _ c, Nat.mul_add_mod, Nat.mod_eq_of_lt (by omega), Nat.mul_comm]
    have hsum : (c - 1) * 2 ^ (shift + 7) + 2 ^ (shift + 7) = 2 ^ 64 := by
      rw [hc, ← Nat.succ_mul, Nat.succ_eq_add_one, Nat.sub_add_cancel hcpos, Nat.mul_comm]
    rw [if_pos (by omega), if_neg (by omega), hones, or_mul hbound]
    refine int64_congr 1 ?_
    have hcast : (((c - 1) * 2 ^ (shift + 7) : Nat) : Int) = (2 ^ 64 : Nat) - 2 ^ shift * 128 := by
      rw [← hsum, hseven]
      push_cast
      ring
    rw [Nat.cast_add, hcast]
    push_cast
    ring

/-- The last byte of a number that may not fit. -/
theorem signExtend_high {byte : Nat} (hlow : 57 ≤ shift) (hshift : shift ≤ 63)
    (hvalue : value < 2 ^ shift) :
    int64 (signExtend (value ||| byte <<< shift % 2 ^ 64) (shift + 7) byte) =
      int64 (value + last byte * 2 ^ shift) := by
  obtain ⟨c, hc⟩ : ∃ c, 2 ^ 64 = 2 ^ shift * c := ⟨2 ^ (64 - shift), by
    rw [← Nat.pow_add]
    congr 1
    omega⟩
  obtain ⟨d, hd⟩ : ∃ d, 2 ^ shift * 128 = 2 ^ 64 * d := ⟨2 ^ (shift - 57), by
    rw [← Nat.pow_add, show (128 : Nat) = 2 ^ 7 from rfl, ← Nat.pow_add]
    congr 1
    omega⟩
  have hword : value ||| byte <<< shift % 2 ^ 64 = byte % c * 2 ^ shift + value := by
    rw [Nat.shiftLeft_eq, hc, Nat.mul_comm byte, Nat.mul_mod_mul_left, Nat.mul_comm, or_mul hvalue]
  have hbyte : (byte : Int) = byte % c + c * (byte / c : Nat) := by
    exact_mod_cast (Nat.mod_add_div byte c).symm
  have hcast : ((2 ^ 64 : Nat) : Int) = 2 ^ shift * c := by
    rw [hc]
    push_cast
    ring
  rw [hword, signExtend, if_neg (by omega), last]
  split
  · refine int64_congr (-(byte / c : Nat)) ?_
    rw [hcast, hbyte]
    push_cast
    ring
  · refine int64_congr (d - (byte / c : Nat)) ?_
    have hd' : (2 : Int) ^ shift * 128 = (2 ^ 64 : Nat) * d := by exact_mod_cast hd
    rw [mul_sub, ← hd', hcast, hbyte]
    push_cast
    ring

theorem signExtend_eq {byte : Nat} (hbyte : byte < 128) (hshift : shift ≤ 63)
    (hvalue : value < 2 ^ shift) :
    int64 (signExtend (value ||| byte <<< shift % 2 ^ 64) (shift + 7) byte) =
      int64 (value + last byte * 2 ^ shift) := by
  rcases Nat.lt_or_ge shift 57 with hlow | hhigh
  · exact signExtend_low hbyte hlow hvalue
  · exact signExtend_high hhigh hshift hvalue

theorem and_low (byte : Nat) : byte &&& 0x7f = byte % 128 := Nat.and_two_pow_sub_one_eq_mod byte 7

theorem and_high (byte : Nat) : byte &&& 0x80 = byte / 128 % 2 * 128 := and_bit byte 7

theorem read_last {b : UInt8} (h : b.toNat < 128) (rest : Bytes) :
    Sleb128.read (b :: rest) = some (last b.toNat, rest) := by
  rw [Sleb128.read, last, if_pos h]
  split
  · rfl
  · rfl

theorem read_more {b : UInt8} (h : 128 ≤ b.toNat) (rest : Bytes) :
    Sleb128.read (b :: rest) =
      (Sleb128.read rest).map fun r => ((b.toNat : Int) - 128 + 128 * r.1, r.2) := by
  rw [Sleb128.read, if_neg (by omega), if_neg (by omega)]

/-- The loop reads a number that has no more than so many bytes. -/
theorem popLoop_read {m : Nat} (hread : Sleb128.read bytes = some (v, rest))
    (hsize : bytes.length ≤ rest.length + m) (hshift : shift + 7 * m = 70)
    (hvalue : value < 2 ^ shift) :
    ∃ value' shift' byte, popLoop bytes value shift = pure (value', shift', byte, rest) ∧
      int64 (signExtend value' shift' byte) = int64 (value + v * 2 ^ shift) := by
  induction bytes generalizing m value shift v with
  | nil => cases hread
  | cons b tail ih =>
    have hless := Sleb128.length_read hread
    have hlt := b.toNat_lt
    have hin : ¬ shift ≥ 70 := by
      dsimp only at hless
      omega
    rw [popLoop, if_neg hin, and_low, and_high]
    dsimp only
    rcases Nat.lt_or_ge b.toNat 128 with hlast | hmore
    · rw [read_last hlast] at hread
      obtain ⟨rfl, rfl⟩ := Prod.mk.inj (Option.some.inj hread)
      rw [if_neg (by omega), Nat.mod_eq_of_lt hlast]
      exact ⟨_, _, _, rfl, signExtend_eq hlast (by omega) hvalue⟩
    · rw [read_more hmore] at hread
      obtain ⟨r, htail, hr⟩ := Option.map_eq_some_iff.1 hread
      obtain ⟨rfl, rfl⟩ := Prod.mk.inj hr
      have hshorter := Sleb128.length_read htail
      rw [List.length_cons] at hsize
      have hlow : shift + 7 ≤ 63 := by omega
      have hseven : 2 ^ (shift + 7) = 2 ^ shift * 128 := Nat.pow_add 2 shift 7
      have hbound : b.toNat % 128 * 2 ^ shift + value < 2 ^ (shift + 7) := by
        have hdigit : b.toNat % 128 < 128 := Nat.mod_lt _ (by decide)
        rw [hseven]
        nlinarith
      have hfit : b.toNat % 128 * 2 ^ shift < 2 ^ 64 := by
        have hle : 2 ^ (shift + 7) ≤ 2 ^ 64 := Nat.pow_le_pow_right (by decide) (by omega)
        omega
      rw [if_pos (by omega), Nat.shiftLeft_eq, Nat.mod_eq_of_lt hfit, or_mul hvalue]
      obtain ⟨m, rfl⟩ : ∃ k, m = k + 1 := ⟨m - 1, by omega⟩
      have hsize' : tail.length ≤ r.2.length + m := by omega
      have hshift' : shift + 7 + 7 * m = 70 := by omega
      obtain ⟨value', shift', byte, hloop, hend⟩ := ih htail hsize' hshift' hbound
      refine ⟨value', shift', byte, hloop, hend.trans ?_⟩
      have hdigit : ((b.toNat % 128 : Nat) : Int) = b.toNat - 128 := by omega
      have hsum : ((b.toNat % 128 * 2 ^ shift + value : Nat) : Int) + r.1 * 2 ^ (shift + 7) =
          value + (b.toNat - 128 + 128 * r.1) * 2 ^ shift := by
        rw [Nat.cast_add, Nat.cast_mul, hdigit, pow_add]
        push_cast
        ring
      rw [hsum]

/-- What the loop accepts is a number. -/
theorem read_popLoop {r : Nat × Nat × Nat × Bytes} {m : Nat} (hshift : shift + 7 * m = 70)
    (h : popLoop bytes value shift = .ok r) :
    ∃ v, Sleb128.read bytes = some (v, r.2.2.2) ∧ bytes.length ≤ r.2.2.2.length + m := by
  induction bytes generalizing m value shift with
  | nil => cases h
  | cons b tail ih =>
    rw [popLoop] at h
    split at h
    · cases h
    · rename_i hin
      rw [and_high] at h
      dsimp only at h
      have hlt := b.toNat_lt
      split at h
      · rename_i hmore
        obtain ⟨m, rfl⟩ : ∃ k, m = k + 1 := ⟨m - 1, by omega⟩
        have hmore' : shift + 7 + 7 * m = 70 := by omega
        obtain ⟨v, hread, hsize⟩ := ih hmore' h
        refine ⟨b.toNat - 128 + 128 * v, ?_, ?_⟩
        · rw [read_more (by omega), hread, Option.map_some]
        · rw [List.length_cons]
          omega
      · rename_i hlast
        obtain rfl := Except.ok.inj h
        refine ⟨_, read_last (by omega) _, ?_⟩
        dsimp only
        rw [List.length_cons]
        omega

/-- `Pop` reads numbers of up to ten bytes, as far as 64 bits hold them. -/
theorem pop_read (hread : Sleb128.read bytes = some (v, rest))
    (hsize : bytes.length ≤ rest.length + 10) :
    pop bytes = .ok (int64 v, rest) := by
  obtain ⟨value', shift', byte, hloop, hend⟩ := popLoop_read hread hsize rfl (Nat.two_pow_pos 0)
  rw [pop, hloop]
  have hvalue : ((0 : Nat) : Int) + v * 2 ^ 0 = v := by
    push_cast
    ring
  rw [hvalue] at hend
  exact congrArg (fun n => Except.ok (n, rest)) hend

theorem read_pop {w : Int} (h : pop bytes = .ok (w, rest)) :
    ∃ v, Sleb128.read bytes = some (v, rest) ∧ w = int64 v := by
  rw [pop] at h
  cases hloop : popLoop bytes 0 0 with
  | error stop =>
    rw [hloop] at h
    cases h
  | ok r =>
    have hten : 0 + 7 * 10 = 70 := rfl
    obtain ⟨v, hread, hsize⟩ := read_popLoop hten hloop
    have hrest : r.2.2.2 = rest := by
      rw [hloop] at h
      exact (Prod.mk.inj (Except.ok.inj h)).2
    rw [hrest] at hread hsize
    have hpop := pop_read hread hsize
    rw [pop, h] at hpop
    exact ⟨v, hread, (Prod.mk.inj (Except.ok.inj hpop)).1⟩

/-- `Pop` undoes the shortest encoding of every 64-bit integer. -/
theorem pop_encode (hlow : -(2 ^ 63) ≤ v) (hhigh : v < 2 ^ 63) (rest : Bytes) :
    pop (Sleb128.encode v ++ rest) = .ok (v, rest) := by
  have hlength : (Sleb128.encode v).length ≤ 9 + 1 := Sleb128.length_encode (by omega) (by omega)
  have hpop := pop_read (Sleb128.read_encode v rest) (by rw [List.length_append]; omega)
  rwa [int64_eq hlow hhigh] at hpop

/-! What a group encoding says. -/

/-- A group of relocations, with the flags that say how it is written. -/
structure Packed where
  flags : Nat
  head : Relocation
  tail : List Relocation

def Packed.relocations (g : Packed) : List Relocation := g.head :: g.tail

def Packed.last (g : Packed) : Relocation := g.relocations.getLast (List.cons_ne_nil _ _)

/-- What is written for one relocation after another. -/
def entryNumbers (flags : Nat) (prev r : Relocation) : List Int :=
  (if flags &&& kGroupedByOffsetDelta = 0 then [(r.offset : Int) - prev.offset] else []) ++
    (if flags &&& kGroupedByInfo = 0 then [(r.info : Int)] else []) ++
    (if addendMode flags = kGroupHasAddend then [(r.addend : Int) - prev.addend] else [])

def entriesNumbers (flags : Nat) : Relocation → List Relocation → List Int
  | _, [] => []
  | prev, r :: rs => entryNumbers flags prev r ++ entriesNumbers flags r rs

/-- What is written for a group, `prev` being the relocation before it. -/
def Packed.numbers (prev : Relocation) (g : Packed) : List Int :=
  [(g.relocations.length : Int), (g.flags : Int)] ++
    (if g.flags &&& kGroupedByOffsetDelta ≠ 0 then [(g.head.offset : Int) - prev.offset] else []) ++
    (if g.flags &&& kGroupedByInfo ≠ 0 then [(g.head.info : Int)] else []) ++
    (if addendMode g.flags = kGroupHasAddend ||| kGroupedByAddend then
      [(g.head.addend : Int) - prev.addend] else []) ++
    entriesNumbers g.flags prev g.relocations

/-- The relocations have what their group says for all of them. -/
def Follows (flags : Nat) (delta info addend : Int) : Relocation → List Relocation → Prop
  | _, [] => True
  | prev, r :: rs =>
    (flags &&& kGroupedByOffsetDelta ≠ 0 → (r.offset : Int) = prev.offset + delta) ∧
      (flags &&& kGroupedByInfo ≠ 0 → (r.info : Int) = info) ∧
      (addendMode flags ≠ kGroupHasAddend → (r.addend : Int) = addend) ∧
      Follows flags delta info addend r rs

/-- The flags can represent the group. -/
def Packed.Represents (prev : Relocation) (g : Packed) : Prop :=
  g.flags < 16 ∧ Follows g.flags ((g.head.offset : Int) - prev.offset) g.head.info
    (if addendMode g.flags = kGroupHasAddend ||| kGroupedByAddend then (g.head.addend : Int) else 0)
    prev g.relocations

/-- One group after another. -/
def groupsNumbers : Relocation → List Packed → List Int
  | _, [] => []
  | prev, g :: gs => g.numbers prev ++ groupsNumbers g.last gs

def Represent : Relocation → List Packed → Prop
  | _, [] => True
  | prev, g :: gs => g.Represents prev ∧ Represent g.last gs

def allRelocations (gs : List Packed) : List Relocation := gs.flatMap Packed.relocations

/-- The relocation before the first group. -/
def origin (first : Nat) : Relocation := { offset := first, info := 0, addend := 0 }

/-- The numbers of an encoding that starts from `first`. -/
def numbers (first : Nat) (gs : List Packed) : List Int :=
  [((allRelocations gs).length : Int), (first : Int)] ++ groupsNumbers (origin first) gs

def InRange (r : Relocation) : Prop :=
  r.offset < 2 ^ 63 ∧ r.info < 2 ^ 63 ∧ r.addend < 2 ^ 63

/-- Groups that can be written down, of relocations with fields below 2^63. -/
structure Valid (first : Nat) (gs : List Packed) : Prop where
  start : first < 2 ^ 63
  represent : Represent (origin first) gs
  range : ∀ r ∈ allRelocations gs, InRange r

/-! Reading numbers. -/

/-- The numbers that `Pop` reads one after the other, and what it leaves. -/
inductive Reads : Bytes → List Int → Bytes → Prop
  | nil (bytes : Bytes) : Reads bytes [] bytes
  | cons {bytes mid rest : Bytes} {v : Int} {vs : List Int} (h : pop bytes = .ok (v, mid))
      (htail : Reads mid vs rest) : Reads bytes (v :: vs) rest

variable {mid : Bytes} {vs ws : List Int}

theorem Reads.append (h : Reads bytes vs mid) (h' : Reads mid ws rest) :
    Reads bytes (vs ++ ws) rest := by
  induction h with
  | nil => exact h'
  | cons hpop _ ih => exact .cons hpop (ih h')

theorem Reads.split (h : Reads bytes (vs ++ ws) rest) :
    ∃ mid, Reads bytes vs mid ∧ Reads mid ws rest := by
  induction vs generalizing bytes with
  | nil => exact ⟨bytes, .nil _, h⟩
  | cons v vs ih =>
    cases h with
    | cons hpop htail =>
      obtain ⟨mid, hleft, hright⟩ := ih htail
      exact ⟨mid, .cons hpop hleft, hright⟩

theorem reads_one : Reads bytes [v] rest ↔ pop bytes = .ok (v, rest) := by
  constructor
  · intro h
    cases h with
    | cons hpop htail =>
      cases htail
      exact hpop
  · intro h
    exact .cons h (.nil _)

theorem reads_none : Reads bytes [] rest ↔ bytes = rest := by
  constructor
  · intro h
    cases h
    rfl
  · rintro rfl
    exact .nil _

theorem popIf_ok {c : Prop} [Decidable c] {d : Int} :
    popIf c d bytes = .ok (v, rest) ↔
      Reads bytes (if c then [v] else []) rest ∧ (¬ c → v = d) := by
  rw [popIf]
  by_cases hc : c
  · rw [if_pos hc, if_pos hc, reads_one, and_iff_left (fun h => absurd hc h)]
  · rw [if_neg hc, if_neg hc, reads_none]
    constructor
    · intro h
      obtain ⟨rfl, rfl⟩ := Prod.mk.inj (Except.ok.inj h)
      exact ⟨rfl, fun _ => rfl⟩
    · rintro ⟨rfl, h⟩
      rw [h hc]
      rfl

theorem addIf_ok {c : Prop} [Decidable c] {a : Int} :
    addIf c a bytes = .ok (v, rest) ↔
      ∃ d, Reads bytes (if c then [d] else []) rest ∧ v = if c then int64 (a + d) else a := by
  rw [addIf]
  by_cases hc : c
  · simp only [if_pos hc, bind_eq_ok, reads_one, Prod.exists]
    constructor
    · rintro ⟨d, mid, hpop, h⟩
      obtain ⟨rfl, rfl⟩ := Prod.mk.inj (Except.ok.inj h)
      exact ⟨d, hpop, rfl⟩
    · rintro ⟨d, hpop, rfl⟩
      exact ⟨d, rest, hpop, rfl⟩
  · simp only [if_neg hc, reads_none, exists_const]
    constructor
    · intro h
      obtain ⟨rfl, rfl⟩ := Prod.mk.inj (Except.ok.inj h)
      exact ⟨rfl, rfl⟩
    · rintro ⟨rfl, rfl⟩
      rfl

/-- The integers of 64 bits. -/
def Fits (n : Int) : Prop := -(2 ^ 63) ≤ n ∧ n < 2 ^ 63

theorem fits_int64 (n : Int) : Fits (int64 n) := by
  have hlow : -(((2 ^ 64 : Nat) : Int) / 2) ≤ int64 n := Int.le_bmod (Nat.two_pow_pos 64)
  have hhigh : int64 n < ((2 ^ 64 : Nat) + 1) / 2 := Int.bmod_lt (Nat.two_pow_pos 64)
  constructor
  · omega
  · omega

theorem fits_pop (h : pop bytes = .ok (v, rest)) : Fits v := by
  obtain ⟨w, -, rfl⟩ := read_pop h
  exact fits_int64 w

/-- A sum that comes out as no negative number is exact. -/
theorem int64_add {a d : Int} (ha : 0 ≤ a) (ha' : a < 2 ^ 63) (hd : Fits d)
    (h : 0 ≤ int64 (a + d)) : int64 (a + d) = a + d := by
  obtain ⟨hlow, hhigh⟩ := hd
  rcases Int.lt_or_le (a + d) (2 ^ 63) with hin | hout
  · exact int64_eq (by omega) hin
  · have hwrap : int64 (a + d) = int64 (a + d - 2 ^ 64) := int64_congr 1 (by push_cast; ring)
    have hneg : int64 (a + d - 2 ^ 64) = a + d - 2 ^ 64 := int64_eq (by omega) (by omega)
    omega

/-! One relocation. -/

variable {g : Group} {s s' : Decoding} {prev r : Relocation} {reader : Bytes}

/-- The loop is at the relocation after `prev`. -/
structure Before (g : Group) (s : Decoding) (prev : Relocation) : Prop where
  offset : s.relocation_offset = prev.offset
  addend : addendMode g.flags = kGroupHasAddend → s.relocation_addend = prev.addend
  offset_lt : prev.offset < 2 ^ 63
  addend_lt : prev.addend < 2 ^ 63
  delta : Fits g.offset_delta
  info_lt : s.relocation_info < 2 ^ 63
  shared_lt : s.relocation_addend < 2 ^ 63

/-- The relocation that is written next is `r`. -/
structure Enters (g : Group) (s : Decoding) (prev r : Relocation) (reader : Bytes) : Prop where
  reads : Reads s.reader (entryNumbers g.flags prev r) reader
  range : InRange r
  offset : g.flags &&& kGroupedByOffsetDelta ≠ 0 → (r.offset : Int) = prev.offset + g.offset_delta
  info : g.flags &&& kGroupedByInfo ≠ 0 → (r.info : Int) = s.relocation_info
  addend : addendMode g.flags ≠ kGroupHasAddend → (r.addend : Int) = s.relocation_addend

def Decoding.push (s : Decoding) (r : Relocation) (reader : Bytes) : Decoding where
  reader := reader
  relocation_offset := r.offset
  relocation_info := r.info
  relocation_addend := r.addend
  result := s.result ++ [r]

theorem relocation_ok (hb : Before g s prev) (h : relocation g s = .ok s') :
    ∃ r reader, Enters g s prev r reader ∧ s' = s.push r reader := by
  rw [relocation] at h
  obtain ⟨⟨delta, mid⟩, hdelta, h⟩ := bind_eq_ok.1 h
  obtain ⟨⟨info, mid'⟩, hinfo, h⟩ := bind_eq_ok.1 h
  obtain ⟨⟨addend, reader⟩, haddend, h⟩ := bind_eq_ok.1 h
  obtain ⟨hreads, hshared⟩ := popIf_ok.1 hdelta
  obtain ⟨hreads', hshared'⟩ := popIf_ok.1 hinfo
  obtain ⟨d, hreads'', haddend⟩ := addIf_ok.1 haddend
  dsimp only at h
  split at h
  · cases h
  · rename_i hrange
    obtain rfl := Except.ok.inj h
    obtain ⟨hoffset0, hinfo0, haddend0⟩ :
        0 ≤ int64 (s.relocation_offset + delta) ∧ 0 ≤ info ∧ 0 ≤ addend := by omega
    have hdeltafits : Fits delta := by
      by_cases hgroup : g.flags &&& kGroupedByOffsetDelta = 0
      · rw [if_pos hgroup] at hreads
        exact fits_pop (reads_one.1 hreads)
      · rw [hshared hgroup]
        exact hb.delta
    have hsum : int64 (s.relocation_offset + delta) = prev.offset + delta := by
      rw [hb.offset] at hoffset0 ⊢
      exact int64_add (Int.natCast_nonneg _) (by exact_mod_cast hb.offset_lt) hdeltafits hoffset0
    have hinfolt : info < 2 ^ 63 := by
      by_cases hgroup : g.flags &&& kGroupedByInfo = 0
      · rw [if_pos hgroup] at hreads'
        exact (fits_pop (reads_one.1 hreads')).2
      · rw [hshared' hgroup]
        exact hb.info_lt
    have hsum' : addendMode g.flags = kGroupHasAddend → addend = prev.addend + d := by
      intro hmode
      rw [if_pos hmode] at hreads'' haddend
      rw [haddend, hb.addend hmode] at haddend0 ⊢
      exact int64_add (Int.natCast_nonneg _) (by exact_mod_cast hb.addend_lt)
        (fits_pop (reads_one.1 hreads'')) haddend0
    have hsame : addendMode g.flags ≠ kGroupHasAddend → addend = s.relocation_addend := by
      intro hmode
      rw [haddend, if_neg hmode]
    have haddendlt : addend < 2 ^ 63 := by
      by_cases hmode : addendMode g.flags = kGroupHasAddend
      · rw [if_pos hmode] at haddend
        rw [haddend]
        exact (fits_int64 _).2
      · rw [hsame hmode]
        exact hb.shared_lt
    have hoffsetlt : int64 (s.relocation_offset + delta) < 2 ^ 63 := (fits_int64 _).2
    refine ⟨⟨(int64 (s.relocation_offset + delta)).toNat, info.toNat, addend.toNat⟩,
      reader, ⟨?_, ?_,
        ?_, ?_, ?_⟩, ?_⟩
    · have hentry : entryNumbers g.flags prev ⟨(int64 (s.relocation_offset + delta)).toNat,
          info.toNat, addend.toNat⟩ =
            (if g.flags &&& kGroupedByOffsetDelta = 0 then [delta] else []) ++
              (if g.flags &&& kGroupedByInfo = 0 then [info] else []) ++
              (if addendMode g.flags = kGroupHasAddend then [d] else []) := by
        rw [entryNumbers]
        dsimp only
        rw [Int.toNat_of_nonneg hoffset0, Int.toNat_of_nonneg hinfo0, Int.toNat_of_nonneg haddend0,
          hsum, add_sub_cancel_left]
        congr 1
        split
        · rename_i hmode
          rw [hsum' hmode, add_sub_cancel_left]
        · rfl
      rw [hentry]
      exact (hreads.append hreads').append hreads''
    · refine ⟨?_, ?_, ?_⟩
      · dsimp only
        omega
      · dsimp only
        omega
      · dsimp only
        omega
    · intro hgroup
      dsimp only
      rw [Int.toNat_of_nonneg hoffset0, hsum, hshared hgroup]
    · intro hgroup
      dsimp only
      rw [Int.toNat_of_nonneg hinfo0, hshared' hgroup]
    · intro hmode
      dsimp only
      rw [Int.toNat_of_nonneg haddend0, hsame hmode]
    · simp only [Decoding.push, Int.toNat_of_nonneg hoffset0, Int.toNat_of_nonneg hinfo0,
        Int.toNat_of_nonneg haddend0]

theorem relocation_enters (hb : Before g s prev) (h : Enters g s prev r reader) :
    relocation g s = .ok (s.push r reader) := by
  obtain ⟨hroom, hroom', hroom''⟩ := h.range
  obtain ⟨mid', hreads, hlast⟩ := h.reads.split
  obtain ⟨mid, hfirst, hsecond⟩ := hreads.split
  have hdelta : popIf (g.flags &&& kGroupedByOffsetDelta = 0) g.offset_delta s.reader =
      .ok ((r.offset : Int) - prev.offset, mid) := by
    refine popIf_ok.2 ⟨hfirst, fun hgroup => ?_⟩
    rw [h.offset hgroup, add_sub_cancel_left]
  have hinfo : popIf (g.flags &&& kGroupedByInfo = 0) s.relocation_info mid =
      .ok ((r.info : Int), mid') := popIf_ok.2 ⟨hsecond, h.info⟩
  have haddend : addIf (addendMode g.flags = kGroupHasAddend) s.relocation_addend mid' =
      .ok ((r.addend : Int), reader) := by
    refine addIf_ok.2 ⟨_, hlast, ?_⟩
    split
    · rename_i hmode
      rw [hb.addend hmode, add_sub_cancel, int64_eq (by omega) (by exact_mod_cast hroom'')]
    · rename_i hmode
      exact h.addend hmode
  have hsum : int64 (s.relocation_offset + ((r.offset : Int) - prev.offset)) = r.offset := by
    rw [hb.offset, add_sub_cancel, int64_eq (by omega) (by exact_mod_cast hroom)]
  rw [relocation]
  refine bind_eq_ok.2 ⟨_, hdelta, bind_eq_ok.2 ⟨_, hinfo, bind_eq_ok.2 ⟨_, haddend, ?_⟩⟩⟩
  dsimp only
  rw [hsum, if_neg (by omega)]
  rfl

/-! The relocations of a group. -/

variable {rs : List Relocation} {flags n : Nat} {delta delta' info info' addend addend' : Int}

theorem Enters.before (hb : Before g s prev) (h : Enters g s prev r reader) :
    Before g (s.push r reader) r where
  offset := rfl
  addend := fun _ => rfl
  offset_lt := h.range.1
  addend_lt := h.range.2.2
  delta := hb.delta
  info_lt := by
    have hroom := h.range.2.1
    simp only [Decoding.push]
    omega
  shared_lt := by
    have hroom := h.range.2.2
    simp only [Decoding.push]
    omega

theorem Follows.congr (h : Follows flags delta info addend prev rs)
    (hdelta : flags &&& kGroupedByOffsetDelta ≠ 0 → delta = delta')
    (hinfo : flags &&& kGroupedByInfo ≠ 0 → info = info')
    (haddend : addendMode flags ≠ kGroupHasAddend → addend = addend') :
    Follows flags delta' info' addend' prev rs := by
  induction rs generalizing prev with
  | nil => exact trivial
  | cons r rs ih =>
    obtain ⟨ho, hi, ha, hrest⟩ := h
    refine ⟨fun hgroup => ?_, fun hgroup => (hi hgroup).trans (hinfo hgroup),
      fun hmode => (ha hmode).trans (haddend hmode), ih hrest⟩
    rw [ho hgroup, hdelta hgroup]

/-- The offset, the info and the addend that the loop has after the relocations `rs`. -/
def Decoding.ends (s : Decoding) (rs : List Relocation) : Int × Int × Int :=
  match rs.getLast? with
  | none => (s.relocation_offset, s.relocation_info, s.relocation_addend)
  | some r => (r.offset, r.info, r.addend)

theorem ends_cons : s.ends (r :: rs) = (s.push r reader).ends rs := by
  rw [Decoding.ends, Decoding.ends, List.getLast?_cons]
  cases rs.getLast? <;> rfl

/-- The loop has read the relocations `rs`. -/
structure Ran (g : Group) (s : Decoding) (prev : Relocation)
    (rs : List Relocation) (s' : Decoding) :
    Prop where
  reads : Reads s.reader (entriesNumbers g.flags prev rs) s'.reader
  range : ∀ r ∈ rs, InRange r
  follows : Follows g.flags g.offset_delta s.relocation_info s.relocation_addend prev rs
  result : s'.result = s.result ++ rs
  ends : (s'.relocation_offset, s'.relocation_info, s'.relocation_addend) = s.ends rs

theorem Ran.cons (hrun : Ran g (s.push r reader) r rs s') (h : Enters g s prev r reader) :
    Ran g s prev (r :: rs) s' where
  reads := h.reads.append hrun.reads
  range := List.forall_mem_cons.2 ⟨h.range, hrun.range⟩
  follows := ⟨h.offset, h.info, h.addend, hrun.follows.congr (fun _ => rfl) h.info h.addend⟩
  result := by rw [hrun.result, Decoding.push, List.append_assoc, List.singleton_append]
  ends := hrun.ends.trans ends_cons.symm

theorem Ran.nil (g : Group) (s : Decoding) (prev : Relocation) : Ran g s prev [] s where
  reads := .nil _
  range := by
    intro r hr
    cases hr
  follows := trivial
  result := (List.append_nil _).symm
  ends := rfl

theorem relocations_ok (hb : Before g s prev) (h : relocations g n s = .ok s') :
    ∃ rs, rs.length = n ∧ Ran g s prev rs s' := by
  induction n generalizing s prev with
  | zero =>
    obtain rfl := Except.ok.inj h
    exact ⟨[], rfl, .nil g s prev⟩
  | succ n ih =>
    obtain ⟨mid, hone, hrest⟩ := bind_eq_ok.1 h
    obtain ⟨r, reader, henters, rfl⟩ := relocation_ok hb hone
    obtain ⟨rs, rfl, hrun⟩ := ih (henters.before hb) hrest
    exact ⟨r :: rs, rfl, hrun.cons henters⟩

theorem relocations_follow (hb : Before g s prev)
    (hreads : Reads s.reader (entriesNumbers g.flags prev rs) rest) (hrange : ∀ r ∈ rs, InRange r)
    (hfollows : Follows g.flags g.offset_delta s.relocation_info s.relocation_addend prev rs) :
    ∃ s', relocations g rs.length s = .ok s' ∧ Ran g s prev rs s' ∧ s'.reader = rest := by
  induction rs generalizing s prev with
  | nil =>
    cases hreads
    exact ⟨s, rfl, .nil g s prev, rfl⟩
  | cons r rs ih =>
    obtain ⟨mid, hfirst, htail⟩ := hreads.split
    obtain ⟨ho, hi, ha, hrest⟩ := hfollows
    obtain ⟨hrange, hranges⟩ := List.forall_mem_cons.1 hrange
    have henters : Enters g s prev r mid := ⟨hfirst, hrange, ho, hi, ha⟩
    obtain ⟨s', hloop, hrun, hreader⟩ := ih (henters.before hb) htail hranges
      (hrest.congr (fun _ => rfl) (fun hgroup => (hi hgroup).symm) (fun hmode => (ha hmode).symm))
    refine ⟨s', ?_, hrun.cons henters, hreader⟩
    exact bind_eq_ok.2 ⟨_, relocation_enters hb henters, hloop⟩

/-! The head of a group. -/

variable {count : Nat}

theorem groupAddend_ok {a : Int} :
    groupAddend flags a bytes = .ok (v, rest) ↔
      ∃ d, Reads bytes (if addendMode flags = kGroupHasAddend ||| kGroupedByAddend then [d] else [])
          rest ∧
        v = if addendMode flags = kGroupHasAddend ||| kGroupedByAddend then int64 (a + d)
          else if addendMode flags ≠ kGroupHasAddend then 0 else a := by
  have hpure (w : Int) : (pure (w, bytes) : Comp String _) = .ok (v, rest) ↔
      bytes = rest ∧ v = w := by
    constructor
    · intro h
      obtain ⟨rfl, rfl⟩ := Prod.mk.inj (Except.ok.inj h)
      exact ⟨rfl, rfl⟩
    · rintro ⟨rfl, rfl⟩
      rfl
  rw [groupAddend]
  split
  · exact addIf_ok
  · simp only [reads_none, exists_const]
    split
    · exact hpure 0
    · exact hpure a

theorem flags_lt {n : Int} (hfits : Fits n) (h : 0 ≤ n) :
    n.toNat &&& (2 ^ 64 - 1 - 0x0f) = 0 ↔ n.toNat < 16 := by
  have hmask : n.toNat &&& (2 ^ 64 - 1 - 0x0f) = n.toNat / 2 ^ 4 % 2 ^ 60 * 2 ^ 4 :=
    and_mask n.toNat 60 4
  have hlt := hfits.2
  omega

/-- What the head of a group says, `d` being the addend in it. -/
structure Heads (count : Nat) (s : Decoding) (g : Group) (d : Int) (s' : Decoding) : Prop where
  reads : Reads s.reader ([(g.size : Int), (g.flags : Int)] ++
    (if g.flags &&& kGroupedByOffsetDelta ≠ 0 then [g.offset_delta] else []) ++
    (if g.flags &&& kGroupedByInfo ≠ 0 then [s'.relocation_info] else []) ++
    (if addendMode g.flags = kGroupHasAddend ||| kGroupedByAddend then [d] else [])) s'.reader
  size_pos : 0 < g.size
  size_le : g.size ≤ count - s.result.length
  flags : g.flags < 16
  delta : ¬ g.flags &&& kGroupedByOffsetDelta ≠ 0 → g.offset_delta = 0
  info : ¬ g.flags &&& kGroupedByInfo ≠ 0 → s'.relocation_info = s.relocation_info
  addend : s'.relocation_addend =
    if addendMode g.flags = kGroupHasAddend ||| kGroupedByAddend then
      int64 (s.relocation_addend + d)
    else if addendMode g.flags ≠ kGroupHasAddend then 0 else s.relocation_addend
  offset : s'.relocation_offset = s.relocation_offset
  result : s'.result = s.result

theorem groupHead_ok : groupHead count s = .ok (g, s') ↔ ∃ d, Heads count s g d s' := by
  rw [groupHead]
  constructor
  · intro h
    obtain ⟨⟨size, mid⟩, hsize, h⟩ := bind_eq_ok.1 h
    obtain ⟨⟨flags, mid'⟩, hflags, h⟩ := bind_eq_ok.1 h
    dsimp only at h
    split at h
    · cases h
    · rename_i hvalid
      obtain ⟨⟨delta, mid''⟩, hdelta, h⟩ := bind_eq_ok.1 h
      obtain ⟨⟨info, mid'''⟩, hinfo, h⟩ := bind_eq_ok.1 h
      obtain ⟨⟨addend, reader⟩, haddend, h⟩ := bind_eq_ok.1 h
      obtain ⟨rfl, rfl⟩ := Prod.mk.inj (Except.ok.inj h)
      rw [not_or, not_or, not_or, not_not] at hvalid
      obtain ⟨hpos, hle, hneg, hlow⟩ := hvalid
      obtain ⟨hreads, hnone⟩ := popIf_ok.1 hdelta
      obtain ⟨hreads', hsame⟩ := popIf_ok.1 hinfo
      obtain ⟨d, hreads'', haddend⟩ := groupAddend_ok.1 haddend
      have hsmall := (flags_lt (fits_pop hflags) (by omega)).1 hlow
      refine ⟨d, ?_, ?_, ?_, hsmall, hnone, hsame, haddend, rfl, rfl⟩
      · have hhead : Reads s.reader [(size.toNat : Int), (flags.toNat : Int)] mid' := by
          rw [Int.toNat_of_nonneg (by omega), Int.toNat_of_nonneg (by omega)]
          exact .cons hsize (reads_one.2 hflags)
        exact ((hhead.append hreads).append hreads').append hreads''
      · dsimp only
        omega
      · dsimp only
        omega
  · rintro ⟨d, h⟩
    obtain ⟨m₃, hreads, hlast⟩ := h.reads.split
    obtain ⟨m₂, hreads, hinfo⟩ := hreads.split
    obtain ⟨m₁, hhead, hdelta⟩ := hreads.split
    cases hhead with
    | cons hsize hflags =>
      have hlow := h.flags
      have hpos := h.size_pos
      have hle := h.size_le
      have hflags' := reads_one.1 hflags
      have hsmall : (g.flags : Int).toNat &&& (2 ^ 64 - 1 - 0x0f) = 0 :=
        (flags_lt (fits_pop hflags') (Int.natCast_nonneg _)).2 (by omega)
      refine bind_eq_ok.2 ⟨_, hsize, bind_eq_ok.2 ⟨_, hflags', ?_⟩⟩
      dsimp only
      rw [if_neg (by rw [hsmall]; omega)]
      refine bind_eq_ok.2 ⟨_, popIf_ok.2 ⟨hdelta, h.delta⟩, bind_eq_ok.2 ⟨_,
        popIf_ok.2 ⟨hinfo, h.info⟩, bind_eq_ok.2 ⟨_, groupAddend_ok.2 ⟨d, hlast, h.addend⟩, ?_⟩⟩⟩
      have hoffset := h.offset
      have hresult := h.result
      obtain ⟨reader, offset, info, addend, result⟩ := s'
      dsimp only at hoffset hresult
      rw [hoffset, hresult]
      rfl

/-! One group. -/

variable {p : Packed} {gs : List Packed} {start : Nat}

/-- The loop is at the group after the relocation `prev`. -/
structure Between (s : Decoding) (prev : Relocation) : Prop where
  offset : s.relocation_offset = prev.offset
  addend : s.relocation_addend = prev.addend
  offset_lt : prev.offset < 2 ^ 63
  addend_lt : prev.addend < 2 ^ 63
  info_lt : s.relocation_info < 2 ^ 63

theorem modes_differ : kGroupHasAddend ||| kGroupedByAddend ≠ kGroupHasAddend := by decide

theorem Heads.before {d : Int} (hb : Between s prev) (h : Heads count s g d s') :
    Before g s' prev := by
  obtain ⟨m₃, hreads, -⟩ := h.reads.split
  obtain ⟨m₂, hreads, hinfo⟩ := hreads.split
  obtain ⟨m₁, -, hdelta⟩ := hreads.split
  refine ⟨h.offset.trans hb.offset, fun hmode => ?_, hb.offset_lt, hb.addend_lt, ?_, ?_, ?_⟩
  · rw [h.addend, if_neg (by rw [hmode]; exact modes_differ.symm),
      if_neg (not_not.2 hmode), hb.addend]
  · by_cases hgroup : g.flags &&& kGroupedByOffsetDelta ≠ 0
    · rw [if_pos hgroup] at hdelta
      exact fits_pop (reads_one.1 hdelta)
    · rw [h.delta hgroup]
      exact ⟨by decide, by decide⟩
  · by_cases hgroup : g.flags &&& kGroupedByInfo ≠ 0
    · rw [if_pos hgroup] at hinfo
      exact (fits_pop (reads_one.1 hinfo)).2
    · rw [h.info hgroup]
      exact hb.info_lt
  · rw [h.addend]
    split
    · exact (fits_int64 _).2
    · split
      · decide
      · rw [hb.addend]
        exact_mod_cast hb.addend_lt

/-- A round of the loop over the groups reads the group `p`. -/
structure Decodes (count : Nat) (s : Decoding) (prev : Relocation) (p : Packed) (s' : Decoding) :
    Prop where
  reads : Reads s.reader (p.numbers prev) s'.reader
  represents : p.Represents prev
  range : ∀ r ∈ p.relocations, InRange r
  result : s'.result = s.result ++ p.relocations
  within : s'.result.length ≤ count
  next : Between s' p.last

theorem Ran.between {p : Packed} (hrun : Ran g s prev p.relocations s') : Between s' p.last := by
  have hends := hrun.ends
  have hlast : p.relocations.getLast? = some p.last :=
    List.getLast?_eq_some_getLast (List.cons_ne_nil _ _)
  rw [Decoding.ends, hlast] at hends
  obtain ⟨ho, hi, ha⟩ : s'.relocation_offset = p.last.offset ∧ s'.relocation_info = p.last.info ∧
      s'.relocation_addend = p.last.addend := by
    obtain ⟨ho, hrest⟩ := Prod.mk.inj hends
    obtain ⟨hi, ha⟩ := Prod.mk.inj hrest
    exact ⟨ho, hi, ha⟩
  obtain ⟨hoffset, hinfo, haddend⟩ := hrun.range p.last (List.getLast_mem _)
  exact ⟨ho, ha, hoffset, haddend, by rw [hi]; exact_mod_cast hinfo⟩

/-- The numbers at the head of a group. -/
theorem numbers_eq (prev : Relocation) (p : Packed) : p.numbers prev =
    ([(p.relocations.length : Int), (p.flags : Int)] ++
      (if p.flags &&& kGroupedByOffsetDelta ≠ 0 then
        [(p.head.offset : Int) - prev.offset] else []) ++
      (if p.flags &&& kGroupedByInfo ≠ 0 then [(p.head.info : Int)] else []) ++
      (if addendMode p.flags = kGroupHasAddend ||| kGroupedByAddend then
        [(p.head.addend : Int) - prev.addend] else [])) ++
    entriesNumbers p.flags prev p.relocations := rfl

theorem written_congr {c : Prop} [Decidable c] {w : Int} (h : c → v = w) :
    (if c then [v] else []) = if c then [w] else [] := by
  split
  · rename_i hc
    rw [h hc]
  · rfl

theorem groupRound_ok (hb : Between s prev) (h : groupRound count s = .ok (.inl s')) :
    ∃ p, Decodes count s prev p s' := by
  rw [groupRound] at h
  split at h
  · obtain ⟨⟨g, mid⟩, hhead, h⟩ := bind_eq_ok.1 h
    obtain ⟨last, hloop, h⟩ := bind_eq_ok.1 h
    obtain rfl : last = s' := Sum.inl.inj (Except.ok.inj h)
    obtain ⟨d, hheads⟩ := groupHead_ok.1 hhead
    obtain ⟨rs, hsize, hrun⟩ := relocations_ok (hheads.before hb) hloop
    have hpos := hheads.size_pos
    have hle := hheads.size_le
    cases rs with
    | nil =>
      rw [← hsize] at hpos
      cases hpos
    | cons head tail =>
      obtain ⟨ho, hi, ha, -⟩ := hrun.follows
      have hadded : addendMode g.flags = kGroupHasAddend ||| kGroupedByAddend →
          (head.addend : Int) = prev.addend + d := by
        intro hmode
        have hshared : (head.addend : Int) = int64 (prev.addend + d) := by
          rw [ha (by rw [hmode]; exact modes_differ), hheads.addend, if_pos hmode, hb.addend]
        obtain ⟨mid', -, hlast⟩ := hheads.reads.split
        rw [if_pos hmode] at hlast
        rw [hshared]
        exact int64_add (Int.natCast_nonneg _) (by exact_mod_cast hb.addend_lt)
          (fits_pop (reads_one.1 hlast)) (by rw [← hshared]; exact Int.natCast_nonneg _)
      have hnumbers : (Packed.mk g.flags head tail).numbers prev =
          ([(g.size : Int), (g.flags : Int)] ++
            (if g.flags &&& kGroupedByOffsetDelta ≠ 0 then [g.offset_delta] else []) ++
            (if g.flags &&& kGroupedByInfo ≠ 0 then [mid.relocation_info] else []) ++
            (if addendMode g.flags = kGroupHasAddend ||| kGroupedByAddend then [d] else [])) ++
          entriesNumbers g.flags prev (head :: tail) := by
        rw [numbers_eq, Packed.relocations, hsize]
        dsimp only
        rw [written_congr fun hgroup => (by rw [ho hgroup, add_sub_cancel_left] :
            (head.offset : Int) - prev.offset = g.offset_delta),
          written_congr hi,
          written_congr fun hmode => (by rw [hadded hmode, add_sub_cancel_left] :
            (head.addend : Int) - prev.addend = d)]
      refine ⟨⟨g.flags, head, tail⟩, ?_, ⟨hheads.flags, ?_⟩, hrun.range, ?_, ?_, hrun.between⟩
      · rw [hnumbers]
        exact hheads.reads.append hrun.reads
      · refine hrun.follows.congr (fun hgroup => ?_)
          (fun hgroup => (hi hgroup).symm) (fun hmode => ?_)
        · dsimp only
          rw [ho hgroup, add_sub_cancel_left]
        · dsimp only
          split
          · exact (ha hmode).symm
          · rename_i hnone
            rw [hheads.addend, if_neg hnone, if_pos hmode]
      · rw [hrun.result, hheads.result]
        rfl
      · rw [hrun.result, hheads.result, List.length_append, hsize]
        omega
  · cases h

theorem groupRound_decodes (hb : Between s prev)
    (hreads : Reads s.reader (p.numbers prev) rest) (hrep : p.Represents prev)
    (hrange : ∀ r ∈ p.relocations, InRange r)
    (hroom : s.result.length + p.relocations.length ≤ count) :
    ∃ s', groupRound count s = .ok (.inl s') ∧ Decodes count s prev p s' ∧ s'.reader = rest := by
  obtain ⟨hflags, hfollows⟩ := hrep
  rw [numbers_eq] at hreads
  obtain ⟨mid, hhead, hentries⟩ := hreads.split
  have hsize : 0 < p.relocations.length := Nat.succ_pos _
  have hheads : Heads count s ⟨p.relocations.length, p.flags,
      if p.flags &&& kGroupedByOffsetDelta ≠ 0 then (p.head.offset : Int) - prev.offset else 0⟩
      ((p.head.addend : Int) - prev.addend)
      { s with
        reader := mid
        relocation_info :=
          if p.flags &&& kGroupedByInfo ≠ 0 then (p.head.info : Int) else s.relocation_info
        relocation_addend :=
          if addendMode p.flags = kGroupHasAddend ||| kGroupedByAddend then (p.head.addend : Int)
          else if addendMode p.flags ≠ kGroupHasAddend then 0 else s.relocation_addend } := by
    obtain ⟨hoffset, hinfo, haddend⟩ := hrange p.head (List.mem_cons_self ..)
    refine ⟨?_, hsize, ?_, hflags, ?_, ?_, ?_, rfl, rfl⟩
    · dsimp only
      rw [written_congr fun hgroup => if_pos hgroup, written_congr fun hgroup => if_pos hgroup]
      exact hhead
    · dsimp only
      omega
    · exact fun hgroup => if_neg hgroup
    · exact fun hgroup => if_neg hgroup
    · dsimp only
      split
      · rw [hb.addend, add_sub_cancel, int64_eq (by omega) (by exact_mod_cast haddend)]
      · rfl
  obtain ⟨s', hloop, hrun, hreader⟩ := relocations_follow (hheads.before hb) hentries hrange
    (hfollows.congr (fun hgroup => (if_pos hgroup).symm) (fun hgroup => (if_pos hgroup).symm)
      (fun hmode => by
        dsimp only
        split
        · rfl
        · rfl))
  refine ⟨s', ?_, ⟨?_, ⟨hflags, hfollows⟩, hrange, hrun.result, ?_, hrun.between⟩, hreader⟩
  · rw [groupRound, if_pos (by omega)]
    exact bind_eq_ok.2 ⟨_, groupHead_ok.2 ⟨_, hheads⟩, bind_eq_ok.2 ⟨_, hloop, rfl⟩⟩
  · rw [numbers_eq, hreader]
    exact hhead.append hentries
  · rw [hrun.result, List.length_append]
    exact hroom

/-! The whole. -/

theorem meets_popLoop (bytes : Bytes) (value shift : Nat) :
    Meets (popLoop bytes value shift) (fun _ => True) (fun _ => True) := by
  induction bytes generalizing value shift with
  | nil => exact meets_refuse trivial
  | cons b rest ih =>
    refine meets_ite (fun _ => meets_refuse trivial) (fun _ => ?_)
    exact meets_ite (fun _ => ih _ _) (fun _ => meets_pure trivial)

theorem meets_pop (bytes : Bytes) : Meets (pop bytes) (fun _ => True) (fun _ => True) :=
  meets_bind (meets_popLoop bytes 0 0) fun _ _ => meets_pure trivial

theorem meets_popIf (c : Prop) [Decidable c] (d : Int) (bytes : Bytes) :
    Meets (popIf c d bytes) (fun _ => True) (fun _ => True) :=
  meets_ite (fun _ => meets_pop bytes) (fun _ => meets_pure trivial)

theorem meets_addIf (c : Prop) [Decidable c] (a : Int) (bytes : Bytes) :
    Meets (addIf c a bytes) (fun _ => True) (fun _ => True) :=
  meets_ite (fun _ => meets_bind (meets_pop bytes) fun _ _ => meets_pure trivial)
    (fun _ => meets_pure trivial)

theorem meets_groupHead (count : Nat) (s : Decoding) :
    Meets (groupHead count s) (fun _ => True) (fun _ => True) := by
  refine meets_bind (meets_pop _) fun _ _ => meets_bind (meets_pop _) fun _ _ => ?_
  refine meets_ite (fun _ => meets_refuse trivial) (fun _ => ?_)
  refine meets_bind (meets_popIf _ _ _) fun _ _ => meets_bind (meets_popIf _ _ _) fun _ _ => ?_
  refine meets_bind (?_ : Meets _ (fun _ => True) _) fun _ _ => meets_pure trivial
  exact meets_ite (fun _ => meets_addIf _ _ _)
    (fun _ => meets_ite (fun _ => meets_pure trivial) (fun _ => meets_pure trivial))

theorem meets_relocation (g : Group) (s : Decoding) :
    Meets (relocation g s) (fun _ => True) (fun _ => True) := by
  refine meets_bind (meets_popIf _ _ _) fun _ _ => meets_bind (meets_popIf _ _ _) fun _ _ => ?_
  refine meets_bind (meets_addIf _ _ _) fun _ _ => ?_
  exact meets_ite (fun _ => meets_refuse trivial) (fun _ => meets_pure trivial)

theorem meets_relocations (g : Group) (n : Nat) (s : Decoding) :
    Meets (relocations g n s) (fun _ => True) (fun _ => True) := by
  induction n generalizing s with
  | zero => exact meets_pure trivial
  | succ n ih => exact meets_bind (meets_relocation g s) fun s _ => ih s

theorem meets_groupRound (count : Nat) (s : Decoding) :
    Meets (groupRound count s) (fun _ => True) (fun _ => True) := by
  refine meets_ite (fun _ => meets_bind (meets_groupHead count s) fun _ _ => ?_)
    (fun _ => meets_pure trivial)
  exact meets_bind (meets_relocations _ _ _) fun _ _ => meets_pure trivial

/-- The relocation before the next group. -/
def lastOf (prev : Relocation) (gs : List Packed) : Relocation :=
  gs.foldl (fun _ g => g.last) prev

theorem groupsNumbers_snoc (prev : Relocation) (gs : List Packed) (p : Packed) :
    groupsNumbers prev (gs ++ [p]) = groupsNumbers prev gs ++ p.numbers (lastOf prev gs) := by
  induction gs generalizing prev with
  | nil => exact List.append_nil _
  | cons g gs ih =>
    rw [List.cons_append, groupsNumbers, ih, groupsNumbers, List.append_assoc]
    rfl

theorem represent_snoc (prev : Relocation) (gs : List Packed) (p : Packed) :
    Represent prev (gs ++ [p]) ↔ Represent prev gs ∧ p.Represents (lastOf prev gs) := by
  induction gs generalizing prev with
  | nil => exact ⟨fun h => ⟨trivial, h.1⟩, fun h => ⟨h.2, trivial⟩⟩
  | cons g gs ih =>
    rw [List.cons_append, Represent, ih, Represent, and_assoc]
    rfl

theorem allRelocations_snoc (gs : List Packed) (p : Packed) :
    allRelocations (gs ++ [p]) = allRelocations gs ++ p.relocations := by
  rw [allRelocations, List.flatMap_append, List.flatMap_singleton]
  rfl

/-- The loop has read the groups `gs`. -/
structure Grouped (count start : Nat) (bytes : Bytes) (s : Decoding) (gs : List Packed) : Prop where
  reads : Reads bytes (groupsNumbers (origin start) gs) s.reader
  represent : Represent (origin start) gs
  range : ∀ r ∈ allRelocations gs, InRange r
  result : s.result = allRelocations gs
  within : s.result.length ≤ count
  next : Between s (lastOf (origin start) gs)

theorem Grouped.snoc (h : Grouped count start bytes s gs)
    (hp : Decodes count s (lastOf (origin start) gs) p s') :
    Grouped count start bytes s' (gs ++ [p]) where
  reads := by
    rw [groupsNumbers_snoc]
    exact h.reads.append hp.reads
  represent := (represent_snoc _ _ _).2 ⟨h.represent, hp.represents⟩
  range := by
    intro r hr
    rw [allRelocations_snoc, List.mem_append] at hr
    exact hr.elim (h.range r) (hp.range r)
  result := by rw [hp.result, h.result, allRelocations_snoc]
  within := hp.within
  next := by
    have hlast : lastOf (origin start) (gs ++ [p]) = p.last := by
      rw [lastOf, List.foldl_append]
      rfl
    rw [hlast]
    exact hp.next

theorem grouped_start (count : Nat) (bytes : Bytes) (h : start < 2 ^ 63) :
    Grouped count start bytes { reader := bytes, relocation_offset := start } [] where
  reads := .nil _
  represent := trivial
  range := by
    intro r hr
    cases hr
  result := rfl
  within := Nat.zero_le _
  next := ⟨rfl, rfl, h, Nat.two_pow_pos 63, Int.pow_pos (by decide)⟩

theorem meets_groups (count : Nat) (bytes : Bytes) (h : start < 2 ^ 63) :
    Meets (loop (groupRound count) (count + 1) { reader := bytes, relocation_offset := start })
      (fun s => ∃ gs, Grouped count start bytes s gs ∧ s.result.length = count)
      (fun _ => True) := by
  refine meets_loop (fun s => ∃ gs, Grouped count start bytes s gs)
    (fun s => count - s.result.length) ?_ ⟨[], grouped_start count bytes h⟩
    (Nat.lt_succ_of_le (Nat.sub_le _ _))
  rintro s ⟨gs, hs⟩
  refine (meets_groupRound count s).of_ok fun a ha => ?_
  have hwithin := hs.within
  cases a with
  | inl s' =>
    obtain ⟨p, hp⟩ := groupRound_ok hs.next ha
    have hlonger := congrArg List.length hp.result
    have hmore := hp.within
    have hpos : 0 < p.relocations.length := Nat.succ_pos _
    rw [List.length_append] at hlonger
    exact ⟨⟨gs ++ [p], hs.snoc hp⟩, by omega⟩
  | inr s' =>
    rw [groupRound] at ha
    split at ha
    · obtain ⟨r, -, ha⟩ := bind_eq_ok.1 ha
      obtain ⟨t, -, ha⟩ := bind_eq_ok.1 ha
      cases ha
    · rename_i hlast
      obtain rfl : s = s' := Sum.inr.inj (Except.ok.inj ha)
      exact ⟨gs, hs, by omega⟩

/-- The rounds that read the groups one after the other. -/
theorem loop_groups {prev : Relocation} {rounds : Nat} (hb : Between s prev)
    (hreads : Reads s.reader (groupsNumbers prev gs) rest) (hrep : Represent prev gs)
    (hrange : ∀ r ∈ allRelocations gs, InRange r)
    (hcount : s.result.length + (allRelocations gs).length = count)
    (hrounds : (allRelocations gs).length < rounds) :
    ∃ s', loop (groupRound count) rounds s = .ok s' ∧ s'.reader = rest ∧
      s'.result = s.result ++ allRelocations gs := by
  induction gs generalizing s prev rounds with
  | nil =>
    obtain ⟨rounds, rfl⟩ : ∃ k, rounds = k + 1 := ⟨rounds - 1, by omega⟩
    cases hreads
    refine ⟨s, ?_, rfl, (List.append_nil _).symm⟩
    have hdone : groupRound count s = pure (.inr s) := by
      rw [groupRound, if_neg]
      rw [← hcount]
      exact Nat.not_lt.2 (Nat.le_refl _)
    rw [loop, hdone]
    rfl
  | cons p gs ih =>
    obtain ⟨rounds, rfl⟩ : ∃ k, rounds = k + 1 := ⟨rounds - 1, by omega⟩
    have hsplit : allRelocations (p :: gs) = p.relocations ++ allRelocations gs := List.flatMap_cons
    have hpos : 0 < p.relocations.length := Nat.succ_pos _
    rw [hsplit] at hrange hcount hrounds ⊢
    rw [List.length_append] at hcount hrounds
    obtain ⟨mid, hhead, htail⟩ := hreads.split
    have hroom : s.result.length + p.relocations.length ≤ count := by omega
    obtain ⟨s₁, hround, hp, rfl⟩ := groupRound_decodes hb hhead hrep.1
      (fun r hr => hrange r (List.mem_append_left _ hr)) hroom
    have hlonger := congrArg List.length hp.result
    rw [List.length_append] at hlonger
    have hcount' : s₁.result.length + (allRelocations gs).length = count := by omega
    have hrounds' : (allRelocations gs).length < rounds := by omega
    obtain ⟨s', hloop, hreader, hresult⟩ := ih hp.next htail hrep.2
      (fun r hr => hrange r (List.mem_append_right _ hr)) hcount' hrounds'
    refine ⟨s', ?_, hreader, ?_⟩
    · rw [loop, hround]
      exact hloop
    · rw [hresult, hp.result, List.append_assoc]

/-! Bytes and numbers. -/

/-- The numbers that were read are those of the bytes, as far as 64 bits hold them. -/
theorem Reads.readAll (h : Reads bytes vs []) :
    ∃ ws, Sleb128.readAll bytes = some ws ∧ ws.map int64 = vs := by
  generalize hend : ([] : Bytes) = rest at h
  induction h with
  | nil bytes =>
    subst hend
    exact ⟨[], by rw [Sleb128.readAll], rfl⟩
  | cons hpop _ ih =>
    obtain ⟨ws, hall, rfl⟩ := ih hend
    obtain ⟨w, hread, rfl⟩ := read_pop hpop
    exact ⟨w :: ws, by rw [Sleb128.readAll_cons hread, hall, Option.map_some], rfl⟩

theorem map_int64 {ws : List Int} (h : ∀ w ∈ ws, Fits w) : ws.map int64 = ws := by
  conv_rhs => rw [← List.map_id ws]
  exact List.map_congr_left fun w hw => int64_eq (h w hw).1 (h w hw).2

theorem reads_encode (h : ∀ v ∈ vs, Fits v) : Reads (vs.flatMap Sleb128.encode) vs [] := by
  induction vs with
  | nil => exact .nil _
  | cons v vs ih =>
    obtain ⟨hv, hvs⟩ := List.forall_mem_cons.1 h
    exact .cons (pop_encode hv.1 hv.2 _) (ih hvs)

/-! `DecodeAps2`. -/

theorem fits_nat {n : Nat} (h : n < 2 ^ 63) : Fits n := by
  constructor
  · omega
  · omega

theorem fits_sub {m n : Nat} (hm : m < 2 ^ 63) (hn : n < 2 ^ 63) : Fits ((m : Int) - n) := by
  constructor
  · omega
  · omega

theorem forall_written {c : Prop} [Decidable c] (h : Fits v) :
    ∀ w ∈ (if c then [v] else []), Fits w := by
  intro w hw
  split at hw
  · exact List.mem_singleton.1 hw ▸ h
  · cases hw

theorem fits_entries (hoffset : prev.offset < 2 ^ 63) (haddend : prev.addend < 2 ^ 63)
    (hrange : ∀ r ∈ rs, InRange r) : ∀ v ∈ entriesNumbers flags prev rs, Fits v := by
  induction rs generalizing prev with
  | nil =>
    intro v hv
    cases hv
  | cons r rs ih =>
    obtain ⟨hr, hrs⟩ := List.forall_mem_cons.1 hrange
    rw [entriesNumbers, entryNumbers]
    refine List.forall_mem_append.2
      ⟨List.forall_mem_append.2 ⟨List.forall_mem_append.2 ⟨?_, ?_⟩, ?_⟩,
        ih hr.1 hr.2.2 hrs⟩
    · exact forall_written (fits_sub hr.1 hoffset)
    · exact forall_written (fits_nat hr.2.1)
    · exact forall_written (fits_sub hr.2.2 haddend)

theorem fits_group (hoffset : prev.offset < 2 ^ 63) (haddend : prev.addend < 2 ^ 63)
    (hflags : p.flags < 16) (hsize : p.relocations.length < 2 ^ 63)
    (hrange : ∀ r ∈ p.relocations, InRange r) : ∀ v ∈ p.numbers prev, Fits v := by
  obtain ⟨ho, hi, ha⟩ := hrange p.head (List.mem_cons_self ..)
  rw [numbers_eq]
  refine List.forall_mem_append.2 ⟨List.forall_mem_append.2 ⟨List.forall_mem_append.2
    ⟨List.forall_mem_append.2 ⟨?_, ?_⟩, ?_⟩, ?_⟩, fits_entries hoffset haddend hrange⟩
  · have hflags' : p.flags < 2 ^ 63 := by omega
    simpa using ⟨fits_nat hsize, fits_nat hflags'⟩
  · exact forall_written (fits_sub ho hoffset)
  · exact forall_written (fits_nat hi)
  · exact forall_written (fits_sub ha haddend)

theorem fits_groups (hoffset : prev.offset < 2 ^ 63) (haddend : prev.addend < 2 ^ 63)
    (hrep : Represent prev gs) (hsize : (allRelocations gs).length < 2 ^ 63)
    (hrange : ∀ r ∈ allRelocations gs, InRange r) : ∀ v ∈ groupsNumbers prev gs, Fits v := by
  induction gs generalizing prev with
  | nil =>
    intro v hv
    cases hv
  | cons p gs ih =>
    have hsplit : allRelocations (p :: gs) = p.relocations ++ allRelocations gs := List.flatMap_cons
    rw [hsplit] at hsize hrange
    rw [List.length_append] at hsize
    obtain ⟨hp, hgs⟩ := List.forall_mem_append.1 hrange
    obtain ⟨ho, -, ha⟩ := hp p.last (List.getLast_mem _)
    rw [groupsNumbers]
    exact List.forall_mem_append.2 ⟨fits_group hoffset haddend hrep.1.1 (by omega) hp,
      ih ho ha hrep.2 (by omega) hgs⟩

/-- The numbers of an encoding have 64 bits. -/
theorem fits_numbers (h : Valid start gs) (hsize : (allRelocations gs).length < 2 ^ 63) :
    ∀ v ∈ numbers start gs, Fits v := by
  refine List.forall_mem_append.2 ⟨?_, fits_groups h.start (Nat.two_pow_pos 63) h.represent hsize
    h.range⟩
  simpa using ⟨fits_nat hsize, fits_nat h.start⟩

/-- Reading ends, and what is accepted are the numbers of an encoding of the relocations. -/
theorem meets_decodeAps2 (encoded : Bytes) :
    Meets (decodeAps2 encoded) (fun result => ∃ start gs, encoded.take 4 = magic ∧ Valid start gs ∧
      result = allRelocations gs ∧ Reads (encoded.drop 4) (numbers start gs) [])
        (fun _ => True) := by
  refine meets_ite (fun _ => meets_refuse trivial) (fun hmagic => ?_)
  rw [not_or, not_not] at hmagic
  refine meets_bind ((meets_pop _).of_ok fun a ha => ha) fun ⟨count, mid⟩ hcount => ?_
  refine meets_bind ((meets_pop _).of_ok fun a ha => ha) fun ⟨first, reader⟩ hfirst => ?_
  refine meets_ite (fun _ => meets_refuse trivial) (fun hvalid => ?_)
  rw [not_or, not_or] at hvalid
  obtain ⟨hcount0, -, hfirst0⟩ := hvalid
  obtain ⟨-, hfirstlt⟩ := fits_pop hfirst
  have hstart : first = (first.toNat : Int) := (Int.toNat_of_nonneg (by omega)).symm
  have hroom : first.toNat < 2 ^ 63 := by omega
  have hgroups := meets_groups count.toNat reader hroom
  rw [← hstart] at hgroups
  refine meets_bind hgroups fun s hs => ?_
  obtain ⟨gs, hs, hlength⟩ := hs
  refine meets_ite (fun _ => meets_refuse trivial) (fun hend => ?_)
  refine meets_pure ⟨first.toNat, gs, hmagic.2, ⟨by omega, hs.represent, hs.range⟩, hs.result, ?_⟩
  have hsize : count = ((allRelocations gs).length : Int) := by
    rw [← hs.result, hlength, Int.toNat_of_nonneg (by omega)]
  rw [numbers, ← hsize, ← hstart, ← not_not.1 hend]
  exact Reads.append (.cons hcount (reads_one.2 hfirst)) hs.reads

theorem decodeAps2_reads {encoded : Bytes} (hmagic : encoded.take 4 = magic) (h : Valid start gs)
    (hmax : (allRelocations gs).length ≤ kMaximumRelocations)
    (hreads : Reads (encoded.drop 4) (numbers start gs) []) :
    decodeAps2 encoded = .ok (allRelocations gs) := by
  have hlength : ¬ encoded.length < 4 := by
    intro hshort
    have hsize := congrArg List.length hmagic
    rw [List.length_take, magic] at hsize
    simp at hsize
    omega
  obtain ⟨reader, hhead, hgroups⟩ := hreads.split
  cases hhead with
  | cons hcount hfirst =>
    have hfirst := reads_one.1 hfirst
    have hstart : Between { reader, relocation_offset := start } (origin start) :=
      ⟨rfl, rfl, h.start, Nat.two_pow_pos 63, Int.pow_pos (by decide)⟩
    obtain ⟨s', hloop, hreader, hresult⟩ := loop_groups hstart hgroups h.represent h.range
      (Nat.zero_add _) (Nat.lt_succ_self _)
    rw [decodeAps2, if_neg (by rw [not_or, not_not]; exact ⟨hlength, hmagic⟩)]
    refine bind_eq_ok.2 ⟨_, hcount, bind_eq_ok.2 ⟨_, hfirst, ?_⟩⟩
    dsimp only
    rw [if_neg (by omega), Int.toNat_natCast]
    refine bind_eq_ok.2 ⟨s', hloop, ?_⟩
    rw [if_neg (not_not.2 hreader), hresult]
    rfl

/-- The bytes of an encoding. -/
def encode (start : Nat) (gs : List Packed) : Bytes :=
  magic ++ (numbers start gs).flatMap Sleb128.encode

theorem decodeAps2_encode (h : Valid start gs)
    (hmax : (allRelocations gs).length ≤ kMaximumRelocations) :
    decodeAps2 (encode start gs) = .ok (allRelocations gs) := by
  have hsize : (allRelocations gs).length < 2 ^ 63 := by
    rw [kMaximumRelocations] at hmax
    omega
  have htake : (encode start gs).take 4 = magic := List.take_left' rfl
  have hdrop : (encode start gs).drop 4 = (numbers start gs).flatMap Sleb128.encode :=
    List.drop_left' rfl
  refine decodeAps2_reads htake h hmax ?_
  rw [hdrop]
  exact reads_encode (fits_numbers h hsize)

/-- What a call comes to: it ends; what it accepts is, to the last byte, an encoding of the
relocations it returns, whose numbers are read exactly where they have 64 bits; and it accepts every
encoding of so many relocations. -/
theorem decodeAps2_spec (encoded : Bytes) (start : Nat) (gs : List Packed)
    (v : Int) (rest : Bytes) :
    (∀ f, decodeAps2 encoded ≠ .error (.fault f)) ∧
      (∀ result, decodeAps2 encoded = .ok result → ∃ ws start gs,
        encoded.take 4 = magic ∧ Sleb128.readAll (encoded.drop 4) = some ws ∧ Valid start gs ∧
          result = allRelocations gs ∧ ws.map int64 = numbers start gs ∧
            ((∀ w ∈ ws, Fits w) → ws = numbers start gs)) ∧
      (Fits v → pop (Sleb128.encode v ++ rest) = .ok (v, rest)) ∧
      (Valid start gs → (allRelocations gs).length ≤ kMaximumRelocations →
        decodeAps2 (encode start gs) = .ok (allRelocations gs)) := by
  have hmeets := meets_decodeAps2 encoded
  refine ⟨?_, ?_, fun h => pop_encode h.1 h.2 rest, decodeAps2_encode⟩
  · intro f hfault
    rw [hfault] at hmeets
    exact hmeets
  · intro result hresult
    rw [hresult] at hmeets
    obtain ⟨start, gs, hmagic, hvalid, hall, hreads⟩ := hmeets
    obtain ⟨ws, hread, hws⟩ := hreads.readAll
    exact ⟨ws, start, gs, hmagic, hread, hvalid, hall, hws, fun h => (map_int64 h).symm.trans hws⟩

/-- Two relocations with one info, written with their addends. -/
def pair : Packed := { flags := 9, head := ⟨16, 8, 5⟩, tail := [⟨24, 8, 3⟩] }

theorem valid_pair : Valid 8 [pair] where
  start := by decide
  represent := by
    refine ⟨⟨by decide, ?_⟩, trivial⟩
    simp [pair, Packed.relocations, Follows, kGroupedByOffsetDelta, kGroupedByInfo, addendMode,
      kGroupHasAddend, kGroupedByAddend]
  range := by
    intro r hr
    have hmem : r = ⟨16, 8, 5⟩ ∨ r = ⟨24, 8, 3⟩ := by
      simpa [allRelocations, Packed.relocations, pair] using hr
    obtain rfl | rfl := hmem
    · exact ⟨by decide, by decide, by decide⟩
    · exact ⟨by decide, by decide, by decide⟩

theorem decodeAps2_spec_pair :
    decodeAps2 (encode 8 [pair]) = .ok [⟨16, 8, 5⟩, ⟨24, 8, 3⟩] ∧
      pop (Sleb128.encode (-(2 ^ 63)) ++ [7]) = .ok (-(2 ^ 63), [7]) :=
  ⟨(decodeAps2_spec [] 8 [pair] 0 []).2.2.2 valid_pair (by decide),
    (decodeAps2_spec [] 8 [pair] (-(2 ^ 63)) [7]).2.2.1 ⟨by decide, by decide⟩⟩

/-- A group of so many relocations of nothing. -/
def zeros (n : Nat) : Packed :=
  { flags := 15, head := ⟨0, 0, 0⟩, tail := List.replicate n ⟨0, 0, 0⟩ }

theorem relocations_zeros (n : Nat) :
    (zeros n).relocations = List.replicate (n + 1) ⟨0, 0, 0⟩ := rfl

theorem follows_zeros (n flags : Nat) :
    Follows flags 0 0 0 ⟨0, 0, 0⟩ (List.replicate n ⟨0, 0, 0⟩) := by
  induction n with
  | zero => exact trivial
  | succ n ih => exact ⟨fun _ => rfl, fun _ => rfl, fun _ => rfl, ih⟩

theorem valid_zeros (n : Nat) : Valid 0 [zeros n] where
  start := Nat.two_pow_pos 63
  represent := by
    have hflags : (zeros n).flags < 16 := Nat.lt_succ_self 15
    have hall := follows_zeros (n + 1) 15
    refine ⟨⟨hflags, ?_⟩, trivial⟩
    rw [relocations_zeros]
    refine hall.congr (fun _ => rfl) (fun _ => rfl) (fun _ => ?_)
    split
    · rfl
    · rfl
  range := by
    intro r hr
    have hmem : r ∈ List.replicate (n + 1) ⟨0, 0, 0⟩ := by
      rwa [allRelocations, List.flatMap_singleton, relocations_zeros] at hr
    obtain rfl := (List.mem_replicate.1 hmem).2
    exact ⟨Nat.two_pow_pos 63, Nat.two_pow_pos 63, Nat.two_pow_pos 63⟩

/-- More relocations than the decoder takes. -/
theorem decodeAps2_too_many (h : Valid start gs)
    (hmax : kMaximumRelocations < (allRelocations gs).length)
    (hsize : (allRelocations gs).length < 2 ^ 63) :
    decodeAps2 (encode start gs) = refuse "APS2 relocation header is invalid" := by
  have hdrop : (encode start gs).drop 4 = (numbers start gs).flatMap Sleb128.encode :=
    List.drop_left' rfl
  have hlength : ¬ (encode start gs).length < 4 := by
    rw [encode, List.length_append, magic]
    simp
  have hreads : Reads ((encode start gs).drop 4) (numbers start gs) [] := by
    rw [hdrop]
    exact reads_encode (fits_numbers h hsize)
  obtain ⟨reader, hhead, -⟩ := hreads.split
  cases hhead with
  | cons hcount hfirst =>
    rw [decodeAps2, if_neg (by rw [not_or, not_not]; exact ⟨hlength, List.take_left' rfl⟩), hcount]
    have hfirst := reads_one.1 hfirst
    change (pop _ >>= _) = _
    rw [hfirst]
    exact if_pos (by omega)

/-- The number 2^64, whose last bit is bit 1 of its tenth byte. -/
def tenthByte : Bytes := List.replicate 9 128 ++ [2]

/-- An encoding of one relocation too many is refused, and one of a relocation at 2^64 is read as
one of a relocation at 0. -/
theorem too_many_and_tenth_byte :
    (Valid 0 [zeros kMaximumRelocations] ∧ decodeAps2 (encode 0 [zeros kMaximumRelocations]) =
      refuse "APS2 relocation header is invalid") ∧
    Sleb128.read tenthByte = some (2 ^ 64, []) ∧
      decodeAps2 (magic ++ [1, 0, 1, 1, 8] ++ tenthByte) = .ok [⟨0, 8, 0⟩] := by
  refine ⟨⟨valid_zeros _, decodeAps2_too_many (valid_zeros _) ?_ ?_⟩, by decide,
    by decide +kernel⟩
  · rw [allRelocations, List.flatMap_singleton, relocations_zeros, List.length_replicate]
    exact Nat.lt_succ_self _
  · rw [allRelocations, List.flatMap_singleton, relocations_zeros, List.length_replicate]
    decide

end Nightcap.Update.Aps2
