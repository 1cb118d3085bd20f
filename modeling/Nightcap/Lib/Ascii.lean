import Nightcap.Lib.Utf8

/-! Byte strings under the "C" locale: case, blanks, digits, and cutting at ASCII bytes. -/
namespace Ascii

open Utf8

/-- The byte of an ASCII character. -/
def chr (c : Char) : UInt8 := UInt8.ofNat c.toNat

def is (c : Char) (b : UInt8) : Bool := b == chr c

/-- The bytes of an ASCII literal. -/
def bytes (s : String) : Bytes := s.toList.map chr

def toLower (b : UInt8) : UInt8 := if 65 ≤ b ∧ b ≤ 90 then b + 32 else b

def lower (s : Bytes) : Bytes := s.map toLower

def isSpace (b : UInt8) : Bool := b == 32 || (9 ≤ b && b ≤ 13)

def isDigit (b : UInt8) : Bool := 48 ≤ b && b ≤ 57

def trim (s : Bytes) : Bytes := (s.dropWhile isSpace).rdropWhile isSpace

def allDigits (s : Bytes) : Bool := !s.isEmpty && s.all isDigit

/-- The value of a run of decimal digits. -/
def decimal (s : Bytes) : Nat := s.foldl (fun n b => 10 * n + (b.toNat - 48)) 0

/-- The decimal digits of a number. -/
def ofNat (n : Nat) : Bytes := (Nat.toDigits 10 n).map chr

/-- Where `needle` first occurs. -/
def find (needle : Bytes) : Bytes → Option Nat
  | [] => if needle.isEmpty then some 0 else none
  | b :: s => if needle.isPrefixOf (b :: s) then some 0 else (find needle s).map (· + 1)

variable {s t : Bytes} {b c : UInt8} {p : UInt8 → Bool}

@[simp] theorem toLower_toLower : toLower (toLower b) = toLower b := by
  have h : ∀ n < 256, toLower (toLower (UInt8.ofNat n)) = toLower (UInt8.ofNat n) := by
    decide +kernel
  simpa using h b.toNat b.toNat_lt

@[simp] theorem lower_lower : lower (lower s) = lower s := by
  simp [lower]

/-- A byte below 0x80 is a whole character on its own, wherever it stands. -/
theorem utf8EncodeChar_of_mem {x : Char} (hb : b ∈ String.utf8EncodeChar x) (hl : b < 128) :
    String.utf8EncodeChar x = [b] := by
  have high : ∀ n, 128 ≤ n → n < 256 → ¬ UInt8.ofNat n < 128 := by
    intro n hn hn' hlt
    have hlt' := UInt8.lt_iff_toNat_lt.1 hlt
    rw [UInt8.toNat_ofNat', Nat.mod_eq_of_lt hn'] at hlt'
    exact absurd hlt' (by simpa using hn)
  unfold String.utf8EncodeChar at hb ⊢
  dsimp only at hb ⊢
  split_ifs at hb ⊢ with h1 h2 h3
  · simp only [List.mem_singleton] at hb
    rw [hb]
  all_goals
    simp only [List.mem_cons, List.not_mem_nil, or_false] at hb
    exfalso
    rcases hb with rfl | rfl | rfl | rfl <;> exact high _ (by omega) (by omega) hl

/-- UTF-8 cut at an ASCII byte is UTF-8 on both sides. -/
theorem wellFormed_split (h : WellFormed (s ++ b :: t)) (hb : b < 128) :
    WellFormed s ∧ WellFormed t := by
  obtain ⟨cs, hcs⟩ := h
  induction cs generalizing s with
  | nil => simp at hcs
  | cons x cs ih =>
    rw [encode_cons, List.append_eq_append_iff] at hcs
    rcases hcs with ⟨s', rfl, hcs⟩ | ⟨x', hx, hcs⟩
    · exact ⟨(wellFormed_encodeChar x).append (ih hcs).1, (ih hcs).2⟩
    · cases x' with
      | nil =>
        rw [List.append_nil] at hx
        obtain ⟨_, ht⟩ := ih (s := []) (by simpa using hcs.symm)
        exact ⟨hx ▸ wellFormed_encodeChar x, ht⟩
      | cons y x' =>
        obtain ⟨rfl, rfl⟩ := List.cons.inj hcs
        have hs := utf8EncodeChar_of_mem (b := b) (x := x) (by simp [hx]) hb
        rw [hs] at hx
        cases s with
        | nil =>
          obtain rfl : x' = [] := by simpa using hx.symm
          exact ⟨wellFormed_nil, wellFormed_encode cs⟩
        | cons z s => simp at hx

theorem wellFormed_tail (h : WellFormed (b :: s)) (hb : b < 128) : WellFormed s :=
  (wellFormed_split (s := []) h hb).2

theorem wellFormed_ascii (hb : b < 128) : WellFormed [b] := by
  have hn : b.toNat < 128 := UInt8.lt_iff_toNat_lt.1 hb
  have hc : (Char.ofNat b.toNat).toNat = b.toNat := by
    have hv : b.toNat.isValidChar := .inl (by omega)
    simp [Char.ofNat, hv, Char.ofNatAux, Char.toNat, UInt32.toNat]
  refine ⟨[Char.ofNat b.toNat], ?_⟩
  have hv : (Char.ofNat b.toNat).val.toNat = b.toNat := hc
  simp [encode, String.utf8EncodeChar, hv, show b.toNat ≤ 127 by omega]

theorem wellFormed_of_ascii (h : ∀ b ∈ s, b < 128) : WellFormed s := by
  induction s with
  | nil => exact wellFormed_nil
  | cons b s ih =>
    rw [List.forall_mem_cons] at h
    exact (wellFormed_ascii h.1).append (ih h.2)

theorem toLower_lt (h : b < 128) : toLower b < 128 := by
  have hs : ∀ n < 256, UInt8.ofNat n < 128 → toLower (UInt8.ofNat n) < 128 := by decide +kernel
  simpa using hs b.toNat b.toNat_lt (by simpa using h)

theorem toLower_of_le (h : ¬ b < 128) : toLower b = b := by
  have hs : ∀ n < 256, ¬ UInt8.ofNat n < 128 → toLower (UInt8.ofNat n) = UInt8.ofNat n := by
    decide +kernel
  simpa using hs b.toNat b.toNat_lt (by simpa using h)

theorem wellFormed_lower (h : WellFormed s) : WellFormed (lower s) := by
  obtain ⟨cs, rfl⟩ := h
  induction cs with
  | nil => exact wellFormed_nil
  | cons x cs ih =>
    rw [encode_cons, lower, List.map_append]
    refine WellFormed.append ?_ ih
    by_cases hx : ∃ b ∈ String.utf8EncodeChar x, b < 128
    · obtain ⟨b, hb, hl⟩ := hx
      rw [utf8EncodeChar_of_mem hb hl]
      exact wellFormed_ascii (toLower_lt hl)
    · rw [List.map_congr_left fun b hb => toLower_of_le fun hl => hx ⟨b, hb, hl⟩, List.map_id']
      exact wellFormed_encodeChar x

theorem find_eq_some {needle : Bytes} {k : Nat} (h : find needle s = some k) :
    s = s.take k ++ needle ++ s.drop (k + needle.length) := by
  induction s generalizing k with
  | nil =>
    simp only [find] at h
    split_ifs at h with hn
    obtain rfl := List.isEmpty_iff.1 hn
    simp
  | cons b s ih =>
    simp only [find] at h
    split_ifs at h with hn
    · obtain rfl := Option.some.inj h
      obtain ⟨t, ht⟩ := List.isPrefixOf_iff_prefix.1 hn
      simp [← ht]
    · obtain ⟨k', hk, rfl⟩ := Option.map_eq_some_iff.1 h
      rw [Nat.add_right_comm, List.take_succ_cons, List.drop_succ_cons]
      simpa using ih hk

theorem decimal_lt (h : allDigits s = true) : decimal s < 10 ^ s.length := by
  have hfold : ∀ (s : Bytes) (n : Nat), s.all isDigit = true →
      s.foldl (fun n b => 10 * n + (b.toNat - 48)) n < (n + 1) * 10 ^ s.length := by
    intro s
    induction s with
    | nil => simp
    | cons b s ih =>
      intro n hs
      simp only [List.all_cons, Bool.and_eq_true] at hs
      have hb : b.toNat ≤ 57 := by
        have := hs.1
        simp only [isDigit, Bool.and_eq_true, decide_eq_true_eq, UInt8.le_iff_toNat_le] at this
        exact this.2
      rw [List.foldl_cons, List.length_cons]
      calc _ < (10 * n + (b.toNat - 48) + 1) * 10 ^ s.length := ih _ hs.2
        _ ≤ ((n + 1) * 10) * 10 ^ s.length := by gcongr; omega
        _ = (n + 1) * 10 ^ (s.length + 1) := by ring
  simpa [decimal] using hfold s 0 (by simp [allDigits] at h; simpa using h.2)

/-- What stands at and before the first byte with `p`. -/
theorem dropWhile_not_cons (h : s.dropWhile (!p ·) = b :: t) :
    p b = true ∧ s = s.takeWhile (!p ·) ++ b :: t := by
  refine ⟨?_, ?_⟩
  · simpa [h] using List.head_dropWhile_not (!p ·) (show s.dropWhile (!p ·) ≠ [] by simp [h])
  · rw [← h, List.takeWhile_append_dropWhile]

theorem takeWhile_not_of_nil (h : s.dropWhile (!p ·) = []) : s.takeWhile (!p ·) = s := by
  have hs := List.takeWhile_append_dropWhile (p := (!p ·)) (l := s)
  rwa [h, List.append_nil] at hs

section Cut
variable (hp : ∀ b, p b = true → b < 128)
include hp

theorem wellFormed_takeWhile_not (h : WellFormed s) : WellFormed (s.takeWhile (!p ·)) := by
  cases hd : s.dropWhile (!p ·) with
  | nil => rwa [takeWhile_not_of_nil hd]
  | cons b t =>
    obtain ⟨hb, hs⟩ := dropWhile_not_cons hd
    exact (wellFormed_split (hs ▸ h) (hp b hb)).1

theorem wellFormed_dropWhile_not (h : WellFormed s) (hd : s.dropWhile (!p ·) = b :: t) :
    WellFormed t := by
  obtain ⟨hb, hs⟩ := dropWhile_not_cons hd
  exact (wellFormed_split (hs ▸ h) (hp b hb)).2

theorem wellFormed_dropWhile (h : WellFormed s) : WellFormed (s.dropWhile p) := by
  induction s with
  | nil => simp
  | cons b s ih =>
    rw [List.dropWhile_cons]
    split_ifs with hb
    · exact ih (wellFormed_tail h (hp b hb))
    · exact h

theorem wellFormed_rdropWhile (h : WellFormed s) : WellFormed (s.rdropWhile p) := by
  induction s using List.reverseRecOn with
  | nil => simp [List.rdropWhile]
  | append_singleton s b ih =>
    by_cases hb : p b = true
    · rw [List.rdropWhile_concat_pos _ _ _ hb]
      exact ih (wellFormed_split h (hp b hb)).1
    · rwa [List.rdropWhile_concat_neg _ _ _ hb]

theorem wellFormed_rtakeWhile_not (h : WellFormed s) : WellFormed (s.rtakeWhile (!p ·)) := by
  have hs := List.rdropWhile_append_rtakeWhile (p := (!p ·)) (l := s)
  by_cases hn : s.rdropWhile (!p ·) = []
  · rw [hn, List.nil_append] at hs
    rwa [hs]
  · have hb := List.rdropWhile_last_not (!p ·) s hn
    rw [← List.dropLast_append_getLast hn, List.append_assoc] at hs
    exact (wellFormed_split (hs ▸ h) (hp _ (by simpa using hb))).2

theorem wellFormed_splitOnP (h : WellFormed s) : ∀ piece ∈ s.splitOnP p, WellFormed piece := by
  induction hn : s.length using Nat.strong_induction_on generalizing s with
  | _ n ih =>
    cases hd : s.dropWhile (!p ·) with
    | nil =>
      have hs : ∀ b ∈ s, p b = false := by simpa using List.dropWhile_eq_nil_iff.1 hd
      rw [List.splitOnP_eq_singleton hs]
      simpa using h
    | cons b t =>
      obtain ⟨hb, hs⟩ := dropWhile_not_cons hd
      have hcut := wellFormed_split (hs ▸ h) (hp b hb)
      have hl := congrArg List.length hs
      simp only [List.length_append, List.length_cons] at hl
      have hno : ∀ x ∈ s.takeWhile (!p ·), p x = false := fun x hx => by
        simpa using List.mem_takeWhile_imp hx
      rw [hs, List.splitOnP_append_cons_of_forall_mem hno b hb, List.forall_mem_cons]
      exact ⟨hcut.1, ih t.length (by omega) hcut.2 rfl⟩

end Cut

theorem isSpace_lt (h : isSpace b = true) : b < 128 := by
  have hs : ∀ n < 256, isSpace (UInt8.ofNat n) = true → UInt8.ofNat n < 128 := by decide +kernel
  simpa using hs b.toNat b.toNat_lt (by simpa using h)

theorem wellFormed_trim (h : WellFormed s) : WellFormed (trim s) :=
  wellFormed_rdropWhile (fun _ => isSpace_lt) (wellFormed_dropWhile (fun _ => isSpace_lt) h)

theorem toNat_chr {c : Char} (h : c.isDigit) : (chr c).toNat = c.toNat := by
  have hc : c.toNat ≤ 57 := by
    simp only [Char.isDigit, Bool.and_eq_true, decide_eq_true_eq] at h
    exact UInt32.le_iff_toNat_le.1 h.2
  rw [chr, UInt8.toNat_ofNat']
  omega

theorem decimal_ofNat (n : Nat) : decimal (ofNat n) = n := by
  have hd : ∀ c ∈ Nat.toDigits 10 n, c.isDigit := fun c hc =>
    Nat.isDigit_of_mem_toDigits (by omega) le_rfl hc
  rw [decimal, ofNat, List.foldl_map]
  refine Eq.trans ?_ (Nat.ofDigitChars_ten_toDigits (n := n))
  rw [Nat.ofDigitChars_eq_foldl]
  refine List.foldl_ext _ _ _ fun m c hc => ?_
  rw [toNat_chr (hd c hc)]
  rfl

theorem isDigit_chr {c : Char} (h : c.isDigit) : isDigit (chr c) = true := by
  have hc := toNat_chr h
  simp only [Char.isDigit, Bool.and_eq_true, decide_eq_true_eq] at h
  have hlow : 48 ≤ c.toNat := UInt32.le_iff_toNat_le.1 h.1
  have hhigh : c.toNat ≤ 57 := UInt32.le_iff_toNat_le.1 h.2
  rw [isDigit, Bool.and_eq_true, decide_eq_true_eq, decide_eq_true_eq, UInt8.le_iff_toNat_le,
    UInt8.le_iff_toNat_le, hc]
  exact ⟨hlow, hhigh⟩

theorem ofNat_ne_nil (n : Nat) : ofNat n ≠ [] :=
  fun h => Nat.toDigits_ne_nil (List.map_eq_nil_iff.1 h)

theorem allDigits_ofNat (n : Nat) : allDigits (ofNat n) = true := by
  have hne : (ofNat n).isEmpty = false := List.isEmpty_eq_false_iff.2 (ofNat_ne_nil n)
  rw [allDigits, hne, Bool.not_false, Bool.true_and, ofNat, List.all_map, List.all_eq_true]
  exact fun c hc => isDigit_chr (Nat.isDigit_of_mem_toDigits (by decide) le_rfl hc)

theorem ofNat_injective : Function.Injective ofNat :=
  Function.LeftInverse.injective decimal_ofNat

end Ascii
