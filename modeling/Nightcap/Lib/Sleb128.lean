import Mathlib

/-! Signed integers of any size as bytes of seven bits, lowest first, all but the last marked. -/
namespace Sleb128

variable {v : Int} {n : Nat} {bytes rest : List UInt8}

/-- The integer in front, and the bytes behind it. -/
def read : List UInt8 → Option (Int × List UInt8)
  | [] => none
  | b :: rest =>
    if b.toNat < 64 then some (b.toNat, rest)
    else if b.toNat < 128 then some (b.toNat - 128, rest)
    else (read rest).map fun r => (b.toNat - 128 + 128 * r.1, r.2)

theorem length_read {r : Int × List UInt8} (h : read bytes = some r) :
    r.2.length < bytes.length := by
  induction bytes generalizing r with
  | nil => cases h
  | cons b rest ih =>
    rw [read] at h
    split at h
    · obtain rfl := Option.some.inj h
      exact Nat.lt_succ_self _
    · split at h
      · obtain rfl := Option.some.inj h
        exact Nat.lt_succ_self _
      · obtain ⟨r', hread, rfl⟩ := Option.map_eq_some_iff.1 h
        have hlt := ih hread
        exact Nat.lt_succ_of_lt hlt

/-- All integers of the bytes. -/
def readAll (bytes : List UInt8) : Option (List Int) :=
  match bytes with
  | [] => some []
  | b :: rest =>
    match _h : read (b :: rest) with
    | none => none
    | some (v, rest') => (readAll rest').map (v :: ·)
termination_by bytes.length
decreasing_by exact length_read _h

/-- The shortest bytes of an integer. -/
def encode (v : Int) : List UInt8 :=
  if -64 ≤ v ∧ v < 64 then [UInt8.ofNat (v % 128).toNat]
  else UInt8.ofNat (v % 128 + 128).toNat :: encode (v / 128)
termination_by v.natAbs
decreasing_by omega

theorem readAll_cons {r : Int × List UInt8} (h : read bytes = some r) :
    readAll bytes = (readAll r.2).map (r.1 :: ·) := by
  cases bytes with
  | nil => cases h
  | cons b rest =>
    rw [readAll]
    split
    · rename_i hnone
      rw [h] at hnone
      cases hnone
    · rename_i v rest' hsome
      rw [h] at hsome
      obtain rfl := Option.some.inj hsome
      rfl

theorem toNat_byte {n : Nat} (h : n < 256) : (UInt8.ofNat n).toNat = n := by
  rw [UInt8.toNat_ofNat', Nat.mod_eq_of_lt h]

/-- Reading undoes encoding. -/
theorem read_encode (v : Int) (rest : List UInt8) : read (encode v ++ rest) = some (v, rest) := by
  fun_induction encode v with
  | case1 v h =>
    have hbyte : (UInt8.ofNat (v % 128).toNat).toNat = (v % 128).toNat := toNat_byte (by omega)
    rw [List.singleton_append, read, hbyte]
    split
    · have hv : ((v % 128).toNat : Int) = v := by omega
      rw [hv]
    · have hv : ((v % 128).toNat : Int) - 128 = v := by omega
      rw [if_pos (by omega), hv]
  | case2 v h ih =>
    have hbyte : (UInt8.ofNat (v % 128 + 128).toNat).toNat = (v % 128 + 128).toNat :=
      toNat_byte (by omega)
    have hv : ((v % 128 + 128).toNat : Int) - 128 + 128 * (v / 128) = v := by omega
    rw [List.cons_append, read, hbyte, if_neg (by omega), if_neg (by omega),
      ih, Option.map_some, hv]

/-- How long the bytes of an integer of so many bits are. -/
theorem length_encode (hlow : -(2 ^ (7 * n + 6)) ≤ v) (hhigh : v < 2 ^ (7 * n + 6)) :
    (encode v).length ≤ n + 1 := by
  induction n generalizing v with
  | zero =>
    rw [encode, if_pos (by omega)]
    rfl
  | succ n ih =>
    rw [encode]
    split
    · rw [List.length_singleton]
      omega
    · have hpow : (2 : Int) ^ (7 * (n + 1) + 6) = 128 * 2 ^ (7 * n + 6) := by ring
      rw [hpow] at hlow hhigh
      rw [List.length_cons]
      exact Nat.succ_le_succ (ih (by omega) (by omega))

end Sleb128
