import Nightcap.Audio.BufferQueue

/-! What a buffer queue's counters say about the tickets that are outstanding. -/
namespace Nightcap.Audio.Queue

variable {τ : Type} {maxBuffers : UInt32} {s s' : Queue τ} {held : ReleaseTicket}
  {tickets tickets' : List ReleaseTicket}

/-- The counters agree with the tickets that are outstanding. -/
structure Balanced (maxBuffers : UInt32) (outstanding : List ReleaseTicket)
    (s : Queue τ) : Prop where
  counted : s.forced = false → s.pendingCount.toNat = outstanding.count ⟨s.generation⟩
  balance : s.forced = false →
    s.submittedBuffers = s.consumedBuffers + s.discardedBuffers + s.pendingCount
  ages : ∀ ticket ∈ outstanding, ticket.generation ≤ s.generation
  bound : s.pendingCount.toNat ≤ maxBuffers.toNat
  noUnderflow : s.underflowed = false

/-- The counters are the same. -/
structure SameCounts (s s' : Queue τ) : Prop where
  pendingCount : s'.pendingCount = s.pendingCount
  submittedBuffers : s'.submittedBuffers = s.submittedBuffers
  consumedBuffers : s'.consumedBuffers = s.consumedBuffers
  discardedBuffers : s'.discardedBuffers = s.discardedBuffers
  generation : s'.generation = s.generation
  forced : s'.forced = s.forced
  underflowed : s'.underflowed = s.underflowed

theorem Balanced.same (h : Balanced maxBuffers tickets s) (hs : SameCounts s s') :
    Balanced maxBuffers tickets s' := by
  refine ⟨?_, ?_, ?_, ?_, ?_⟩
  · rw [hs.forced, hs.pendingCount, hs.generation]
    exact h.counted
  · rw [hs.forced, hs.submittedBuffers, hs.consumedBuffers, hs.discardedBuffers, hs.pendingCount]
    exact h.balance
  · rw [hs.generation]
    exact h.ages
  · rw [hs.pendingCount]
    exact h.bound
  · rw [hs.underflowed]
    exact h.noUnderflow

theorem Balanced.perm (h : Balanced maxBuffers tickets s)
    (hp : tickets.Perm tickets') : Balanced maxBuffers tickets' s := by
  refine ⟨fun hf => ?_, h.balance, fun ticket hm => h.ages ticket (hp.mem_iff.2 hm), h.bound,
    h.noUnderflow⟩
  rw [← hp.count_eq]
  exact h.counted hf

theorem pendingCount_pos (h : Balanced maxBuffers (held :: tickets) s)
    (hg : held.generation = s.generation) (hf : s.forced = false) : 0 < s.pendingCount := by
  have hc := h.counted hf
  obtain ⟨generation⟩ := held
  subst hg
  rw [List.count_cons_self] at hc
  rw [UInt64.lt_iff_toNat_lt, hc]
  exact Nat.succ_pos _

/-- One buffer less is pending: its ticket is not outstanding any more. -/
theorem toNat_pred (h : 0 < s.pendingCount) :
    (s.pendingCount - 1).toNat = s.pendingCount.toNat - 1 := by
  rw [UInt64.toNat_sub_of_le _ _ ?_]
  · rfl
  · exact UInt64.le_iff_toNat_le.2 (Nat.succ_le_of_lt (UInt64.lt_iff_toNat_lt.1 h))

theorem underflowed_subtractPending (h : 0 < s.pendingCount) :
    s.subtractPending.underflowed = s.underflowed := by
  have hne : (s.pendingCount == 0) = false := by
    refine beq_eq_false_iff_ne.2 fun he => ?_
    rw [he] at h
    exact absurd h (by decide)
  simp [subtractPending, hne]

/-- One was subtracted from the count for a ticket that is not outstanding any more. -/
structure Subtracted (maxBuffers : UInt32) (tickets : List ReleaseTicket)
    (s s' : Queue τ) : Prop where
  counted : s'.forced = false → s'.pendingCount.toNat = tickets.count ⟨s'.generation⟩
  pending : s'.forced = false → s.pendingCount = s'.pendingCount + 1
  bound : s'.pendingCount.toNat ≤ maxBuffers.toNat
  noUnderflow : s'.underflowed = false
  generation : s'.generation = s.generation
  forced : s'.forced = s.forced
  submittedBuffers : s'.submittedBuffers = s.submittedBuffers
  consumedBuffers : s'.consumedBuffers = s.consumedBuffers
  discardedBuffers : s'.discardedBuffers = s.discardedBuffers

theorem subtracted_subtractPending (h : Balanced maxBuffers (held :: tickets) s)
    (hg : held.generation = s.generation) (hpos : 0 < s.pendingCount) :
    Subtracted maxBuffers tickets s s.subtractPending := by
  refine ⟨fun hf => ?_, fun _ => ?_, ?_, ?_, rfl, rfl, rfl, rfl, rfl⟩
  · have hc := h.counted hf
    obtain ⟨generation⟩ := held
    subst hg
    rw [List.count_cons_self] at hc
    change (s.pendingCount - 1).toNat = _
    rw [toNat_pred hpos, hc]
    rfl
  · change s.pendingCount = s.pendingCount - 1 + 1
    rw [UInt64.sub_add_cancel]
  · change (s.pendingCount - 1).toNat ≤ _
    rw [toNat_pred hpos]
    exact (Nat.sub_le _ _).trans h.bound
  · rw [underflowed_subtractPending hpos]
    exact h.noUnderflow

/-- A release finds a count of zero only after `Shutdown` has forced it. -/
theorem subtracted_release (h : Balanced maxBuffers (held :: tickets) s)
    (hg : held.generation = s.generation) :
    Subtracted maxBuffers tickets s (if 0 < s.pendingCount then s.subtractPending else s) := by
  split
  · next hpos => exact subtracted_subtractPending h hg hpos
  · next hzero =>
    have hforced : s.forced ≠ false := fun hf => hzero (pendingCount_pos h hg hf)
    exact ⟨fun hf => absurd hf hforced, fun hf => absurd hf hforced, h.bound,
      h.noUnderflow, rfl, rfl, rfl,
      rfl, rfl⟩

/-- A refused buffer is taken back. -/
theorem balanced_refused (h : Balanced maxBuffers (held :: tickets) s)
    (hg : held.generation = s.generation) (hf : s.forced = false) :
    Balanced maxBuffers tickets
      { s.subtractPending with submittedBuffers := s.submittedBuffers - 1 } := by
  have hsub := subtracted_subtractPending h hg (pendingCount_pos h hg hf)
  refine ⟨hsub.counted, fun hf => ?_, fun ticket hm => h.ages ticket (.tail _ hm), hsub.bound,
    hsub.noUnderflow⟩
  have hb := h.balance hf
  rw [hsub.pending hf] at hb
  change s.submittedBuffers - 1 = s.consumedBuffers + s.discardedBuffers +
    s.subtractPending.pendingCount
  rw [hb, ← UInt64.add_assoc, UInt64.add_sub_cancel]

theorem Subtracted.balanced_discarded (hsub : Subtracted maxBuffers tickets s s')
    (h : Balanced maxBuffers (held :: tickets) s) :
    Balanced maxBuffers tickets { s' with discardedBuffers := s'.discardedBuffers + 1 } := by
  refine ⟨hsub.counted, fun hf => ?_, fun ticket hm => ?_, hsub.bound, hsub.noUnderflow⟩
  · have hb := h.balance (hsub.forced ▸ hf)
    rw [hsub.pending hf, ← hsub.submittedBuffers, ← hsub.consumedBuffers,
      ← hsub.discardedBuffers] at hb
    change s'.submittedBuffers = s'.consumedBuffers + (s'.discardedBuffers + 1) + s'.pendingCount
    rw [hb]
    ac_rfl
  · change ticket.generation ≤ s'.generation
    rw [hsub.generation]
    exact h.ages ticket (.tail _ hm)

theorem sameCounts_consume (sizeBytes : UInt64) :
    SameCounts { s with consumedBuffers := s.consumedBuffers + 1 } (s.consume sizeBytes) := by
  unfold consume
  split <;> exact ⟨rfl, rfl, rfl, rfl, rfl, rfl, rfl⟩

theorem Subtracted.balanced_consumed (hsub : Subtracted maxBuffers tickets s s')
    (h : Balanced maxBuffers (held :: tickets) s) (sizeBytes : UInt64) :
    Balanced maxBuffers tickets (s'.consume sizeBytes) := by
  refine Balanced.same ?_ (sameCounts_consume sizeBytes)
  refine ⟨hsub.counted, fun hf => ?_, fun ticket hm => ?_, hsub.bound, hsub.noUnderflow⟩
  · have hb := h.balance (hsub.forced ▸ hf)
    rw [hsub.pending hf, ← hsub.submittedBuffers, ← hsub.consumedBuffers,
      ← hsub.discardedBuffers] at hb
    change s'.submittedBuffers = s'.consumedBuffers + 1 + s'.discardedBuffers + s'.pendingCount
    rw [hb]
    ac_rfl
  · change ticket.generation ≤ s'.generation
    rw [hsub.generation]
    exact h.ages ticket (.tail _ hm)

theorem releaseBuffer_older (h : held.generation ≠ s.generation) (sizeBytes : UInt64) :
    s.releaseBuffer held sizeBytes = s := if_pos h

/-- The sink releases a buffer. -/
theorem balanced_released (h : Balanced maxBuffers (held :: tickets) s) (sizeBytes : UInt64) :
    Balanced maxBuffers tickets (s.releaseBuffer held sizeBytes) := by
  by_cases hg : held.generation = s.generation
  · have hsub := subtracted_release h hg
    unfold releaseBuffer
    rw [if_neg (not_not_intro hg)]
    simp only
    generalize (if 0 < s.pendingCount then s.subtractPending else s) = settled at hsub ⊢
    split
    · exact hsub.balanced_discarded h
    · exact hsub.balanced_consumed h sizeBytes
  · rw [releaseBuffer_older hg]
    refine ⟨fun hf => ?_, h.balance, fun ticket hm => h.ages ticket (.tail _ hm), h.bound,
      h.noUnderflow⟩
    rw [h.counted hf, List.count_cons_of_ne]
    intro he
    exact hg (congrArg ReleaseTicket.generation he)

/-- `AbiEnqueue` counts a buffer. -/
theorem balanced_submitted (h : Balanced maxBuffers tickets s)
    (hroom : ¬maxBuffers.toUInt64 ≤ s.pendingCount) :
    Balanced maxBuffers (⟨s.generation⟩ :: tickets) { s with
      pendingCount := s.pendingCount + 1, submittedBuffers := s.submittedBuffers + 1 } := by
  have hlt : s.pendingCount.toNat < maxBuffers.toNat := by
    simpa [UInt64.le_iff_toNat_le] using hroom
  have hmax : maxBuffers.toNat < 2 ^ 32 := maxBuffers.toNat_lt
  have hone : (s.pendingCount + 1).toNat = s.pendingCount.toNat + 1 := by
    rw [UInt64.toNat_add]
    exact Nat.mod_eq_of_lt (by change _ + 1 < _; omega)
  refine ⟨fun hf => ?_, fun hf => ?_, fun ticket hm => ?_, ?_, h.noUnderflow⟩
  · change (s.pendingCount + 1).toNat = List.count _ _
    rw [hone, h.counted hf, List.count_cons_self]
  · change s.submittedBuffers + 1 = s.consumedBuffers + s.discardedBuffers + (s.pendingCount + 1)
    rw [h.balance hf, UInt64.add_assoc]
  · cases hm with
    | head => exact Nat.le_refl _
    | tail _ hm => exact h.ages ticket hm
  · change (s.pendingCount + 1).toNat ≤ _
    rw [hone]
    exact hlt

/-- `AbiClear` discards what is pending; the tickets outstanding are of an older generation. -/
theorem balanced_cleared (h : Balanced maxBuffers tickets s) :
    Balanced maxBuffers tickets { s with
      generation := s.generation + 1
      discardedBuffers := s.discardedBuffers + s.pendingCount
      pendingCount := 0 } := by
  refine ⟨fun _ => ?_, fun hf => ?_, fun ticket hm => Nat.le_succ_of_le (h.ages ticket hm),
    Nat.zero_le _,
    h.noUnderflow⟩
  · refine (List.count_eq_zero.2 fun hm => ?_).symm
    exact Nat.not_succ_le_self _ (h.ages _ hm)
  · change s.submittedBuffers = s.consumedBuffers + (s.discardedBuffers + s.pendingCount) + 0
    rw [h.balance hf, UInt64.add_zero, UInt64.add_assoc]

end Nightcap.Audio.Queue
