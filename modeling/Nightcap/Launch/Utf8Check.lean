import Nightcap.Launch.Uri
import Nightcap.Lib.Bits
import Nightcap.Lib.Checked
import Nightcap.Lib.Utf8Table

/-! `IsValidUtf8` over the bytes it reads: it stays within the string and accepts what the table of
UTF-8 allows. -/
namespace Nightcap.Launch

open Utf8 Checked Bits

def byteOf (value : Bytes) (index : Nat) : Comp Empty UInt8 :=
  match value[index]? with
  | some b => pure b
  | none => fault .read

/-- How many continuation bytes a first byte asks for, and the bits of its own. -/
def leadOf (first : UInt8) : Option (Nat × UInt8) :=
  if 0xc2 ≤ first && first ≤ 0xdf then some (1, first &&& 0x1f)
  else if 0xe0 ≤ first && first ≤ 0xef then some (2, first &&& 0x0f)
  else if 0xf0 ≤ first && first ≤ 0xf4 then some (3, first &&& 0x07)
  else none

/-- The continuation bytes still to come, from an offset on. -/
def continuationsAt (value : Bytes) (index : Nat) : Nat → Nat → UInt32 → Comp Empty (Option UInt32)
  | 0, _, code => pure (some code)
  | left + 1, offset, code => do
    let continuation ← byteOf value (index + offset)
    if isContinuation continuation then
      continuationsAt value index left (offset + 1)
        (code <<< 6 ||| (continuation &&& 0x3f).toUInt32)
    else pure none

def isRefusedCode (count : Nat) (code : UInt32) : Bool :=
  count == 2 && code < 0x800 || count == 3 && code < 0x10000 || 0xd800 ≤ code &&
    code ≤ 0xdfff || 0x10ffff < code

/-- The rest of a sequence of more than one byte. -/
def sequenceRound (value : Bytes) (index count : Nat) (bits : UInt8) : Comp Empty (Nat ⊕ Bool) :=
  if value.length ≤ index + count then pure (.inr false)
  else do
    match ← continuationsAt value index count 1 bits.toUInt32 with
    | none => pure (.inr false)
    | some code =>
      pure (if isRefusedCode count code then .inr false else .inl (index + (count + 1)))

def utf8Round (value : Bytes) (index : Nat) : Comp Empty (Nat ⊕ Bool) :=
  if index < value.length then do
    let first ← byteOf value index
    if first ≤ 0x7f then pure (.inl (index + 1))
    else
      match leadOf first with
      | none => pure (.inr false)
      | some (count, bits) => sequenceRound value index count bits
  else pure (.inr true)

/-- The function over the string in memory. -/
def isValidUtf8Loop (value : Bytes) : Comp Empty Bool := loop (utf8Round value) (value.length + 1) 0

variable {value rest tail cs : Bytes} {first b c d a bits : UInt8} {code : UInt32}
  {index offset k rounds count : Nat}

/-! The loop over the string reads what the list still holds. -/

theorem byteOf_drop (hrest : value.drop index = rest) (hb : rest[k]? = some b) :
    byteOf value (index + k) = .ok b := by
  rw [← hrest, List.getElem?_drop] at hb
  rw [byteOf, hb]
  rfl

theorem continuationsAt_drop (hrest : value.drop (index + offset) = cs ++ rest) :
    continuationsAt value index cs.length offset code =
      .ok (if cs.all isContinuation then
        some (cs.foldl (fun c b => c <<< 6 ||| (b &&& 0x3f).toUInt32) code) else none) := by
  induction cs generalizing offset code with
  | nil => rfl
  | cons b cs ih =>
    have hread : byteOf value (index + offset) = .ok b := byteOf_drop (k := 0) hrest rfl
    have hnext : value.drop (index + (offset + 1)) = cs ++ rest := by
      rw [← Nat.add_assoc, ← List.drop_drop, hrest]
      rfl
    rw [List.length_cons, continuationsAt, hread]
    change (if isContinuation b then _ else _) = _
    cases hb : isContinuation b with
    | false => simp [hb]; rfl
    | true =>
      rw [if_pos rfl, ih hnext, List.all_cons, hb, Bool.true_and]
      rfl

theorem length_of_drop (hrest : value.drop index = first :: tail) :
    value.length = index + (tail.length + 1) := by
  have hlen := congrArg List.length hrest
  rw [List.length_drop, List.length_cons] at hlen
  omega

theorem utf8Round_end (hrest : value.drop index = []) :
    utf8Round value index = .ok (.inr true) := by
  rw [utf8Round, if_neg (Nat.not_lt.2 (List.drop_eq_nil_iff.1 hrest))]
  rfl

theorem utf8Round_first (hrest : value.drop index = first :: tail) :
    utf8Round value index =
      if first ≤ 0x7f then .ok (.inl (index + 1))
      else
        match leadOf first with
        | none => .ok (.inr false)
        | some (count, bits) => sequenceRound value index count bits := by
  have hlen := length_of_drop hrest
  have hread : byteOf value index = .ok first := byteOf_drop (k := 0) hrest rfl
  rw [utf8Round, if_pos (by omega), hread]
  rfl

theorem sequenceRound_truncated (hrest : value.drop index = first :: tail)
    (hshort : tail.length < count) :
    sequenceRound value index count bits = .ok (.inr false) := by
  have hlen := length_of_drop hrest
  rw [sequenceRound, if_pos (by omega)]
  rfl

theorem sequenceRound_whole (hrest : value.drop index = first :: (cs ++ rest)) :
    sequenceRound value index cs.length bits =
      .ok (if cs.all isContinuation && !isRefusedCode cs.length (codePoint bits cs) then
        .inl (index + (cs.length + 1)) else .inr false) := by
  have hlen := length_of_drop hrest
  rw [List.length_append] at hlen
  have hnext : value.drop (index + 1) = cs ++ rest := by
    rw [← List.drop_drop, hrest]
    rfl
  rw [sequenceRound, if_neg (by omega), continuationsAt_drop hnext]
  cases hall : cs.all isContinuation with
  | false => rfl
  | true =>
    change Except.ok (if isRefusedCode cs.length (codePoint bits cs) then _ else _) = _
    cases hcode : isRefusedCode cs.length (codePoint bits cs) with
    | false => rfl
    | true => rfl

/-! The list in the same terms. -/

theorem not_isRefusedCode_one : (!isRefusedCode 1 code) = isScalar code := by
  simp [isRefusedCode, isScalar, ← UInt32.not_lt]

theorem not_isRefusedCode_two : (!isRefusedCode 2 code) = (0x800 ≤ code && isScalar code) := by
  simp [isRefusedCode, isScalar, ← UInt32.not_lt, Bool.and_assoc]

theorem not_isRefusedCode_three : (!isRefusedCode 3 code) = (0x10000 ≤ code && isScalar code) := by
  simp [isRefusedCode, isScalar, ← UInt32.not_lt, Bool.and_assoc]

/-- What is left of the list behind a first byte. -/
theorem isValidUtf8_first :
    isValidUtf8 (first :: tail) =
      if first ≤ 0x7f then isValidUtf8 tail
      else
        match leadOf first with
        | none => false
        | some (count, bits) =>
          if tail.length < count then false
          else (tail.take count).all isContinuation &&
            !isRefusedCode count (codePoint bits (tail.take count)) &&
            isValidUtf8 (tail.drop count) := by
  rw [isValidUtf8.eq_def, leadOf]
  simp only
  split
  · rfl
  · split
    · match tail with
      | [] => rfl
      | b :: rest => simp [not_isRefusedCode_one]
    · split
      · match tail with
        | [] => rfl
        | [b] => rfl
        | b :: c :: rest => simp [not_isRefusedCode_two, Bool.and_assoc]
      · split
        · match tail with
          | [] => rfl
          | [b] => rfl
          | [b, c] => rfl
          | b :: c :: d :: rest => simp [not_isRefusedCode_three, Bool.and_assoc]
        · rfl

/-- The loop comes to what the list says of the bytes from its index on. -/
theorem loop_eq (hrest : value.drop index = rest) (hrounds : rest.length < rounds) :
    loop (utf8Round value) rounds index = .ok (isValidUtf8 rest) := by
  induction rounds generalizing index rest with
  | zero => cases hrounds
  | succ rounds ih =>
    rw [loop]
    cases rest with
    | nil =>
      rw [utf8Round_end hrest]
      rfl
    | cons first tail =>
      rw [List.length_cons] at hrounds
      rw [utf8Round_first hrest, isValidUtf8_first]
      split
      · have hnext : value.drop (index + 1) = tail := by
          rw [← List.drop_drop, hrest]
          rfl
        exact ih hnext (by omega)
      · split
        · rfl
        · rename_i count bits hlead
          split
          · rw [sequenceRound_truncated hrest (by assumption)]
            rfl
          · have hcount : (tail.take count).length = count := by
              rw [List.length_take]
              omega
            have hsplit : value.drop index = first :: (tail.take count ++ tail.drop count) := by
              rw [hrest, List.take_append_drop]
            have hnext : value.drop (index + (count + 1)) = tail.drop count := by
              rw [← List.drop_drop, hrest, List.drop_succ_cons]
            have hround : sequenceRound value index (tail.take count).length bits = _ :=
              sequenceRound_whole hsplit
            rw [hcount] at hround
            rw [hround]
            cases hok : (tail.take count).all isContinuation &&
              !isRefusedCode count (codePoint bits (tail.take count)) with
            | false => rfl
            | true =>
              have hless : (tail.drop count).length ≤ tail.length := by
                rw [List.length_drop]
                omega
              exact ih hnext (by omega)

theorem isValidUtf8Loop_eq (value : Bytes) : isValidUtf8Loop value = .ok (isValidUtf8 value) :=
  loop_eq List.drop_zero (Nat.lt_succ_self _)

/-! What is accepted behind a first byte. -/

theorem isContinuation_iff : isContinuation b = true ↔ Tail b := by
  have hb := b.toNat_lt
  have hmask : (b &&& 0xc0).toNat = b.toNat / 2 ^ 6 % 2 ^ 2 * 2 ^ 6 := by
    rw [UInt8.toNat_and]
    exact and_mask b.toNat 2 6
  have hten : (0x80 : UInt8).toNat = 128 := rfl
  rw [isContinuation, beq_iff_eq, ← UInt8.toNat_inj, hmask, tail_iff, hten]
  omega

theorem isScalar_iff :
    isScalar code = true ↔ ¬ (0xd800 ≤ code.toNat ∧ code.toNat ≤ 0xdfff) ∧
      code.toNat ≤ 0x10ffff := by
  simp [isScalar, UInt32.le_iff_toNat_le]
  omega

theorem toNat_shift (hcode : code.toNat < 2 ^ 26) :
    (code <<< 6 ||| (b &&& 0x3f).toUInt32).toNat = code.toNat * 64 + b.toNat % 64 := by
  have hsix : (6 : UInt32).toNat % 32 = 6 := rfl
  have hpayload : (b &&& 0x3f).toUInt32.toNat = b.toNat % 64 := by
    rw [UInt8.toNat_toUInt32, UInt8.toNat_and]
    exact Nat.and_two_pow_sub_one_eq_mod _ 6
  have hsmall : code.toNat <<< 6 < 2 ^ 32 := by
    rw [Nat.shiftLeft_eq]
    omega
  rw [UInt32.toNat_or, UInt32.toNat_shiftLeft, hpayload, hsix, Nat.mod_eq_of_lt hsmall,
    shift_or (show b.toNat % 64 < 2 ^ 6 by omega)]
  rfl

/-- No bit is lost while the shifted bits fit. -/
theorem toNat_foldl (hcode : (code.toNat + 1) * 64 ^ cs.length ≤ 2 ^ 32) :
    (cs.foldl (fun (c : UInt32) b => c <<< 6 ||| (b &&& 0x3f).toUInt32) code).toNat =
      cs.foldl (fun n b => n * 64 + b.toNat % 64) code.toNat := by
  induction cs generalizing code with
  | nil => rfl
  | cons b cs ih =>
    rw [List.length_cons, pow_succ] at hcode
    have hpos : 0 < 64 ^ cs.length := by positivity
    have hcode' : (code.toNat + 1) * 64 * 64 ^ cs.length ≤ 2 ^ 32 := by
      calc (code.toNat + 1) * 64 * 64 ^ cs.length
          = (code.toNat + 1) * (64 ^ cs.length * 64) := by ring
        _ ≤ 2 ^ 32 := hcode
    have hsmall : (code.toNat + 1) * 64 ≤ 2 ^ 32 := (Nat.le_mul_of_pos_right _ hpos).trans hcode'
    have hstep := toNat_shift (b := b) (show code.toNat < 2 ^ 26 by omega)
    have hnext : ((code <<< 6 ||| (b &&& 0x3f).toUInt32).toNat + 1) * 64 ^ cs.length ≤ 2 ^ 32 := by
      refine (Nat.mul_le_mul_right _ ?_).trans hcode'
      rw [hstep]
      omega
    rw [List.foldl_cons, List.foldl_cons, ih hnext, hstep]

theorem toNat_codePoint (bits : UInt8) (cs : Bytes)
    (hbits : bits.toNat < 32) (hcs : cs.length ≤ 3) :
    (codePoint bits cs).toNat = cs.foldl (fun n b => n * 64 + b.toNat % 64) bits.toNat := by
  refine toNat_foldl ?_
  rw [UInt8.toNat_toUInt32]
  calc (bits.toNat + 1) * 64 ^ cs.length ≤ 2 ^ 5 * 64 ^ 3 :=
        Nat.mul_le_mul (by omega) (Nat.pow_le_pow_right (by decide) hcs)
    _ ≤ 2 ^ 32 := by decide

theorem two_iff (ha : Within 0xc2 0xdf a) :
    ([b].all isContinuation && !isRefusedCode 1 (codePoint (a &&& 0x1f) [b])) = true ↔
      Sequence [a, b] := by
  have hbits : (a &&& 0x1f).toNat = a.toNat % 32 := by
    rw [UInt8.toNat_and]
    exact Nat.and_two_pow_sub_one_eq_mod _ 5
  have hcode := toNat_codePoint (a &&& 0x1f) [b] (by omega) (by simp)
  rw [List.foldl_cons, List.foldl_nil, hbits] at hcode
  rw [not_isRefusedCode_one, Bool.and_eq_true, List.all_cons, List.all_nil,
    Bool.and_true, isContinuation_iff,
    isScalar_iff, hcode]
  constructor
  · rintro ⟨hb, -⟩
    exact .two ha hb
  · intro h
    cases h with
    | two _ hb => exact ⟨hb, by omega⟩

theorem three_iff (ha : Within 0xe0 0xef a) :
    ([b, c].all isContinuation && !isRefusedCode 2 (codePoint (a &&& 0x0f) [b, c])) = true ↔
      Sequence [a, b, c] := by
  have hbits : (a &&& 0x0f).toNat = a.toNat % 16 := by
    rw [UInt8.toNat_and]
    exact Nat.and_two_pow_sub_one_eq_mod _ 4
  have hcode := toNat_codePoint (a &&& 0x0f) [b, c] (by omega) (by simp)
  rw [List.foldl_cons, List.foldl_cons, List.foldl_nil, hbits] at hcode
  have hlow : (0x800 : UInt32).toNat = 0x800 := rfl
  simp only [not_isRefusedCode_two, Bool.and_eq_true, List.all_cons, List.all_nil,
    Bool.and_true, isContinuation_iff,
    isScalar_iff, decide_eq_true_eq, UInt32.le_iff_toNat_le, hlow, hcode]
  simp only [within_iff, UInt8.reduceToNat] at ha
  constructor
  · rintro ⟨⟨hb, hc⟩, hlarge, hscalar⟩
    refine .three ?_ hc
    simp only [eq_iff_toNat, within_iff, UInt8.reduceToNat] at hb ⊢
    omega
  · intro h
    cases h with
    | three hab hc =>
      simp only [eq_iff_toNat, within_iff, UInt8.reduceToNat] at hab hc ⊢
      omega

theorem four_iff (ha : Within 0xf0 0xf4 a) :
    ([b, c, d].all isContinuation && !isRefusedCode 3 (codePoint (a &&& 0x07) [b, c, d])) = true ↔
      Sequence [a, b, c, d] := by
  have hbits : (a &&& 0x07).toNat = a.toNat % 8 := by
    rw [UInt8.toNat_and]
    exact Nat.and_two_pow_sub_one_eq_mod _ 3
  have hcode := toNat_codePoint (a &&& 0x07) [b, c, d] (by omega) (by simp)
  rw [List.foldl_cons, List.foldl_cons, List.foldl_cons, List.foldl_nil, hbits] at hcode
  have hlow : (0x10000 : UInt32).toNat = 0x10000 := rfl
  simp only [not_isRefusedCode_three, Bool.and_eq_true, List.all_cons, List.all_nil,
    Bool.and_true, isContinuation_iff,
    isScalar_iff, decide_eq_true_eq, UInt32.le_iff_toNat_le, hlow, hcode]
  simp only [within_iff, UInt8.reduceToNat] at ha
  constructor
  · rintro ⟨⟨hb, hc, hd⟩, hlarge, hscalar⟩
    refine .four ?_ hc hd
    simp only [eq_iff_toNat, within_iff, UInt8.reduceToNat] at hb ⊢
    omega
  · intro h
    cases h with
    | four hab hc hd =>
      simp only [eq_iff_toNat, within_iff, UInt8.reduceToNat] at hab hc hd ⊢
      omega

theorem within_of_and {low high : UInt8} (h : (decide (low ≤ a) && decide (a ≤ high)) = true) :
    Within low high a := by
  rw [Bool.and_eq_true, decide_eq_true_eq, decide_eq_true_eq] at h
  exact h

theorem and_of_within {low high : UInt8} (h : Within low high a) :
    (decide (low ≤ a) && decide (a ≤ high)) = true := by
  rw [Bool.and_eq_true, decide_eq_true_eq, decide_eq_true_eq]
  exact h

theorem leadOf_two (ha : Within 0xc2 0xdf a) : leadOf a = some (1, a &&& 0x1f) := by
  rw [leadOf, if_pos (and_of_within ha)]

theorem leadOf_three (ha : Within 0xe0 0xef a) : leadOf a = some (2, a &&& 0x0f) := by
  have htwo : ¬ Within 0xc2 0xdf a := by
    simp only [within_iff, UInt8.reduceToNat] at ha ⊢
    omega
  rw [leadOf, if_neg fun h => htwo (within_of_and h), if_pos (and_of_within ha)]

theorem leadOf_four (ha : Within 0xf0 0xf4 a) : leadOf a = some (3, a &&& 0x07) := by
  have htwo : ¬ Within 0xc2 0xdf a := by
    simp only [within_iff, UInt8.reduceToNat] at ha ⊢
    omega
  have hthree : ¬ Within 0xe0 0xef a := by
    simp only [within_iff, UInt8.reduceToNat] at ha ⊢
    omega
  rw [leadOf, if_neg fun h => htwo (within_of_and h), if_neg fun h => hthree (within_of_and h),
    if_pos (and_of_within ha)]

/-- The sequences of more than one byte are what the code accepts behind their first byte. -/
theorem sequence_of_accepted (hlead : leadOf first = some (cs.length, bits))
    (hok : (cs.all isContinuation && !isRefusedCode cs.length (codePoint bits cs)) = true) :
    Sequence (first :: cs) := by
  unfold leadOf at hlead
  split at hlead
  · match cs, hlead, hok with
    | [b], rfl, hok => exact (two_iff (within_of_and (by assumption))).1 hok
  · split at hlead
    · match cs, hlead, hok with
      | [b, c], rfl, hok => exact (three_iff (within_of_and (by assumption))).1 hok
    · split at hlead
      · match cs, hlead, hok with
        | [b, c, d], rfl, hok => exact (four_iff (within_of_and (by assumption))).1 hok
      · cases hlead

theorem accepted_of_sequence (h : Sequence (first :: cs)) (hfirst : ¬ first ≤ 0x7f) :
    ∃ bits, leadOf first = some (cs.length, bits) ∧
      (cs.all isContinuation && !isRefusedCode cs.length (codePoint bits cs)) = true := by
  cases h with
  | one ha => exact absurd ha.2 hfirst
  | two ha hb => exact ⟨_, leadOf_two ha, (two_iff ha).2 (.two ha hb)⟩
  | three hab hc =>
    have ha : Within 0xe0 0xef first := by
      simp only [eq_iff_toNat, within_iff, UInt8.reduceToNat] at hab ⊢
      omega
    exact ⟨_, leadOf_three ha, (three_iff ha).2 (.three hab hc)⟩
  | four hab hc hd =>
    have ha : Within 0xf0 0xf4 first := by
      simp only [eq_iff_toNat, within_iff, UInt8.reduceToNat] at hab ⊢
      omega
    exact ⟨_, leadOf_four ha, (four_iff ha).2 (.four hab hc hd)⟩

theorem sequence_ascii (h : Sequence (first :: cs)) (hfirst : first ≤ 0x7f) : cs = [] := by
  have hle := UInt8.le_iff_toNat_le.1 hfirst
  cases h with
  | one _ => rfl
  | two ha _ =>
    simp only [within_iff, UInt8.reduceToNat] at ha hle
    omega
  | three hab _ =>
    simp only [eq_iff_toNat, within_iff, UInt8.reduceToNat] at hab hle
    omega
  | four hab _ _ =>
    simp only [eq_iff_toNat, within_iff, UInt8.reduceToNat] at hab hle
    omega

/-- A sequence in front is passed over. -/
theorem isValidUtf8_append {s : Bytes} (h : Sequence s) :
    isValidUtf8 (s ++ rest) = isValidUtf8 rest := by
  cases s with
  | nil => exact absurd rfl h.ne_nil
  | cons first cs =>
    rw [List.cons_append, isValidUtf8_first]
    by_cases hfirst : first ≤ 0x7f
    · rw [if_pos hfirst, sequence_ascii h hfirst]
      rfl
    · obtain ⟨bits, hlead, hok⟩ := accepted_of_sequence h hfirst
      rw [if_neg hfirst, hlead]
      simp only
      rw [if_neg (by rw [List.length_append]; omega), List.take_left,
        List.drop_left, hok, Bool.true_and]

/-- A string that is accepted begins with a sequence. -/
theorem isValidUtf8_uncons (h : isValidUtf8 (first :: tail) = true) :
    ∃ s rest, Sequence s ∧ first :: tail = s ++ rest ∧ isValidUtf8 rest = true := by
  rw [isValidUtf8_first] at h
  split at h
  · exact ⟨[first], tail, .one ⟨UInt8.zero_le, by assumption⟩, rfl, h⟩
  · split at h
    · cases h
    · rename_i count bits hlead
      split at h
      · cases h
      · obtain ⟨hok, hrest⟩ := Bool.and_eq_true_iff.1 h
        have hcount : (tail.take count).length = count := by
          rw [List.length_take]
          omega
        refine ⟨first :: tail.take count, tail.drop count, ?_, ?_, hrest⟩
        · have hlead' : leadOf first = some ((tail.take count).length, bits) := by
            rw [hcount]
            exact hlead
          refine sequence_of_accepted hlead' ?_
          rw [hcount]
          exact hok
        · rw [List.cons_append, List.take_append_drop]

theorem isValidUtf8_flatten {ss : List Bytes} (h : ∀ s ∈ ss, Sequence s) :
    isValidUtf8 ss.flatten = true := by
  induction ss with
  | nil => rfl
  | cons s ss ih =>
    obtain ⟨hs, hss⟩ := List.forall_mem_cons.1 h
    rw [List.flatten_cons, isValidUtf8_append hs]
    exact ih hss

theorem sequences_of_isValidUtf8 (h : isValidUtf8 value = true) : Sequences value := by
  induction hlen : value.length using Nat.strong_induction_on generalizing value with
  | _ n ih =>
    cases value with
    | nil => exact sequences_nil
    | cons first tail =>
      obtain ⟨s, rest, hs, heq, hrest⟩ := isValidUtf8_uncons h
      have hpos := List.length_pos_of_ne_nil hs.ne_nil
      rw [heq, List.length_append] at hlen
      rw [heq]
      exact hs.append (ih rest.length (by omega) hrest rfl)

/-- The check reads within the string, comes to an end, and accepts just what the table allows: the
encodings of some characters. -/
theorem isValidUtf8Loop_spec (value : Bytes) :
    isValidUtf8Loop value = .ok (isValidUtf8 value) ∧
      (isValidUtf8 value = true ↔ Sequences value) ∧
      (isValidUtf8 value = true ↔ WellFormed value) := by
  have htable : isValidUtf8 value = true ↔ Sequences value := by
    refine ⟨sequences_of_isValidUtf8, ?_⟩
    rintro ⟨ss, hss, rfl⟩
    exact isValidUtf8_flatten hss
  exact ⟨isValidUtf8Loop_eq value, htable, htable.trans sequences_iff⟩

end Nightcap.Launch
