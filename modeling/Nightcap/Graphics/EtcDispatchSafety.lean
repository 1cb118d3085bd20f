import Nightcap.Graphics.EtcDispatch

/-! The ranges handed out stay apart and in their blocks, batches complete in the order of their
tickets, and no range goes back while a batch that writes to it is pending. -/
namespace Nightcap.Graphics.Dispatch

open Transition Threads

/-! Who has a range. -/

section Ownership

variable {ο : Type*} {f f' : ο → List Staging} {outstanding : Finset Staging}
  {r : Staging} {o o' : ο}

/-- Every range has one owner at most, and those that have one are out. -/
structure OwnedBy (f : ο → List Staging) (outstanding : Finset Staging) : Prop where
  nodup : ∀ o, (f o).Nodup
  out : ∀ o, ∀ r ∈ f o, r ∈ outstanding
  unique : ∀ o o' r, r ∈ f o → r ∈ f o' → o = o'

namespace OwnedBy

theorem congr (h : OwnedBy f outstanding) (hperm : ∀ o, (f' o).Perm (f o)) :
    OwnedBy f' outstanding where
  nodup o := (hperm o).nodup_iff.2 (h.nodup o)
  out o r hr := h.out o r ((hperm o).mem_iff.1 hr)
  unique o o' r hr hr' := h.unique o o' r ((hperm o).mem_iff.1 hr) ((hperm o').mem_iff.1 hr')

/-- A new range. -/
theorem hand (h : OwnedBy f outstanding) (hr : r ∉ outstanding) (hperm : (f' o).Perm (r :: f o))
    (hsame : ∀ x, x ≠ o → f' x = f x) : OwnedBy f' (insert r outstanding) := by
  have hmem : ∀ x r', r' ∈ f' x → (x = o ∧ r' = r) ∨ r' ∈ f x := by
    intro x r' hr'
    by_cases hx : x = o
    · subst hx
      rcases List.mem_cons.1 (hperm.mem_iff.1 hr') with rfl | hr'
      · exact .inl ⟨rfl, rfl⟩
      · exact .inr hr'
    · exact .inr (hsame x hx ▸ hr')
  refine ⟨fun x => ?_, fun x r' hr' => ?_, fun x y r' hx hy => ?_⟩
  · by_cases hx : x = o
    · subst hx
      exact hperm.nodup_iff.2 (List.nodup_cons.2 ⟨fun hin => hr (h.out _ r hin), h.nodup _⟩)
    · rw [hsame x hx]
      exact h.nodup x
  · rcases hmem x r' hr' with ⟨-, rfl⟩ | hin
    · exact Finset.mem_insert_self ..
    · exact Finset.mem_insert_of_mem (h.out x r' hin)
  · rcases hmem x r' hx with ⟨rfl, heq⟩ | hinx <;> rcases hmem y r' hy with ⟨rfl, heq'⟩ | hiny
    · rfl
    · exact absurd (heq ▸ h.out y _ hiny) hr
    · exact absurd (heq' ▸ h.out x _ hinx) hr
    · exact h.unique x y r' hinx hiny

/-- An owner gives ranges back. -/
theorem giveBack {released : List Staging} (h : OwnedBy f outstanding)
    (hperm : (f o).Perm (released ++ f' o)) (hsame : ∀ x, x ≠ o → f' x = f x) :
    OwnedBy f' (outstanding \ released.toFinset) := by
  have hnd := hperm.nodup_iff.1 (h.nodup o)
  have hmem : ∀ x r', r' ∈ f' x → r' ∈ f x := by
    intro x r' hr'
    by_cases hx : x = o
    · subst hx
      exact hperm.mem_iff.2 (List.mem_append_right _ hr')
    · exact hsame x hx ▸ hr'
  refine ⟨fun x => ?_, fun x r' hr' => ?_, fun x y r' hx hy =>
    h.unique x y r' (hmem x r' hx) (hmem y r' hy)⟩
  · by_cases hx : x = o
    · subst hx
      exact (List.nodup_append.1 hnd).2.1
    · rw [hsame x hx]
      exact h.nodup x
  · refine Finset.mem_sdiff.2 ⟨h.out x r' (hmem x r' hr'), fun hrel => ?_⟩
    have hrel := List.mem_toFinset.1 hrel
    obtain rfl := h.unique x o r' (hmem x r' hr') (hperm.mem_iff.2 (List.mem_append_left _ hrel))
    exact (List.nodup_append.1 hnd).2.2 r' hrel r' hr' rfl

/-- Two owners share what they have anew. -/
theorem transfer (h : OwnedBy f outstanding) (hne : o ≠ o')
    (hperm : (f' o ++ f' o').Perm (f o ++ f o')) (hsame : ∀ x, x ≠ o → x ≠ o' → f' x = f x) :
    OwnedBy f' outstanding := by
  have hnd : (f o ++ f o').Nodup := by
    refine List.nodup_append.2 ⟨h.nodup o, h.nodup o', ?_⟩
    rintro r hr r' hr' rfl
    exact hne (h.unique o o' r hr hr')
  have hnd' := hperm.nodup_iff.2 hnd
  obtain ⟨hndo, hndo', hapart⟩ := List.nodup_append.1 hnd'
  have hboth : ∀ x r, (x = o ∨ x = o') → r ∈ f' x → r ∈ f o ∨ r ∈ f o' := by
    rintro x r (rfl | rfl) hr
    · exact List.mem_append.1 (hperm.mem_iff.1 (List.mem_append_left _ hr))
    · exact List.mem_append.1 (hperm.mem_iff.1 (List.mem_append_right _ hr))
  have hothers : ∀ x r, x ≠ o → x ≠ o' → r ∈ f' x → ∀ y, (y = o ∨ y = o') → r ∉ f' y := by
    intro x r hx hx' hr y hy hry
    rw [hsame x hx hx'] at hr
    rcases hboth y r hy hry with hin | hin
    · exact hx (h.unique x o r hr hin)
    · exact hx' (h.unique x o' r hr hin)
  refine ⟨fun x => ?_, fun x r hr => ?_, fun x y r hr hr' => ?_⟩
  · by_cases hx : x = o
    · exact hx ▸ hndo
    · by_cases hx' : x = o'
      · exact hx' ▸ hndo'
      · rw [hsame x hx hx']
        exact h.nodup x
  · by_cases hx : x = o ∨ x = o'
    · rcases hboth x r hx hr with hin | hin
      · exact h.out o r hin
      · exact h.out o' r hin
    · rw [not_or] at hx
      exact h.out x r (hsame x hx.1 hx.2 ▸ hr)
  · by_cases hx : x = o ∨ x = o' <;> by_cases hy : y = o ∨ y = o'
    · rcases hx with rfl | rfl <;> rcases hy with rfl | rfl
      · rfl
      · exact absurd rfl (hapart r hr r hr')
      · exact absurd rfl (hapart r hr' r hr)
      · rfl
    · rw [not_or] at hy
      exact absurd hr (hothers y r hy.1 hy.2 hr' x hx)
    · rw [not_or] at hx
      exact absurd hr' (hothers x r hx.1 hx.2 hr y hy)
    · rw [not_or] at hx hy
      exact h.unique x y r (hsame x hx.1 hx.2 ▸ hr) (hsame y hy.1 hy.2 ▸ hr')

end OwnedBy

end Ownership

/-! What recorded work writes to. -/

/-- All the `bytes` from a pointer on are in a range. -/
def Inside (p : Pointer) (bytes : Nat) (r : Staging) : Prop :=
  p.block = r.block ∧ r.offset ≤ p.offset ∧ p.offset + bytes ≤ r.offset + r.bytes

/-- What is inside a range meets no range apart from it. -/
theorem Inside.not_meets {p : Pointer} {bytes : Nat} {r r' : Staging} (h : Inside p bytes r)
    (ha : r.Apart r') : ¬ Meets p bytes r' := by
  rintro ⟨hb, hlt, hlt'⟩
  obtain ⟨hblock, hle, hle'⟩ := h
  rcases ha (hblock.symm.trans hb) with hoff | hoff <;> omega

structure RecordSound (record : CommandRecord) : Prop where
  targets : ∀ p bytes, Writes record.uploads record.blockCopies p bytes →
    ∃ r ∈ record.staging, Inside p bytes r
  keepOnly : ∀ u ∈ record.uploads, u.keepOnly = true → u.target = none

section Records

variable {record : CommandRecord} {uploads : List PendingUpload} {copies : List BlockCopy}
  {p : Pointer} {bytes total : Nat} {r : Recording} {texels : Staging}

@[simp] theorem addUploads_staging : (record.addUploads uploads).staging = record.staging := by
  induction uploads generalizing record with
  | nil => rfl
  | cons u rest ih => exact ih

@[simp] theorem addUploads_secondaries :
    (record.addUploads uploads).secondaries = record.secondaries := by
  induction uploads generalizing record with
  | nil => rfl
  | cons u rest ih => exact ih

@[simp] theorem addUploads_lastTicket :
    (record.addUploads uploads).lastTicket = record.lastTicket := by
  induction uploads generalizing record with
  | nil => rfl
  | cons u rest ih => exact ih

@[simp] theorem addUploads_blockCopies :
    (record.addUploads uploads).blockCopies = record.blockCopies := by
  induction uploads generalizing record with
  | nil => rfl
  | cons u rest ih => exact ih

@[simp] theorem addBlockCopies_staging :
    (record.addBlockCopies copies).staging = record.staging := by
  induction copies generalizing record with
  | nil => rfl
  | cons c rest ih => exact ih

@[simp] theorem addBlockCopies_secondaries :
    (record.addBlockCopies copies).secondaries = record.secondaries := by
  induction copies generalizing record with
  | nil => rfl
  | cons c rest ih => exact ih

@[simp] theorem addBlockCopies_lastTicket :
    (record.addBlockCopies copies).lastTicket = record.lastTicket := by
  induction copies generalizing record with
  | nil => rfl
  | cons c rest ih => exact ih

@[simp] theorem addBlockCopies_uploads :
    (record.addBlockCopies copies).uploads = record.uploads := by
  induction copies generalizing record with
  | nil => rfl
  | cons c rest ih => exact ih

/-- The uploads of a record are those it had and those that were added, with other orders. -/
theorem mem_addUploads {u : PendingUpload} (hu : u ∈ (record.addUploads uploads).uploads) :
    u ∈ record.uploads ∨ ∃ v ∈ uploads, ∃ order, u = { v with order } := by
  induction uploads generalizing record with
  | nil => exact .inl hu
  | cons v rest ih =>
    rcases ih hu with hin | ⟨w, hw, hrest⟩
    · rcases List.mem_append.1 hin with hin | hin
      · exact .inl hin
      · exact .inr ⟨v, .head _, _, List.mem_singleton.1 hin⟩
    · exact .inr ⟨w, .tail _ hw, hrest⟩

theorem mem_addBlockCopies {c : BlockCopy} (hc : c ∈ (record.addBlockCopies copies).blockCopies) :
    c ∈ record.blockCopies ∨ ∃ d ∈ copies, ∃ order, c = { d with order } := by
  induction copies generalizing record with
  | nil => exact .inl hc
  | cons d rest ih =>
    rcases ih hc with hin | ⟨w, hw, hrest⟩
    · rcases List.mem_append.1 hin with hin | hin
      · exact .inl hin
      · exact .inr ⟨d, .head _, _, List.mem_singleton.1 hin⟩
    · exact .inr ⟨w, .tail _ hw, hrest⟩

theorem Recording.le_pad (r : Recording) (n : Nat) : n ≤ r.pad n := by
  unfold Recording.pad
  split <;> omega

/-- The pieces are placed one after the other. -/
theorem mem_placeUploads {u : PendingUpload} (hu : u ∈ r.placeUploads texels total uploads) :
    u.keepOnly = false ∧ ∃ offset, u.target = some ⟨texels.block, texels.offset + offset⟩ ∧
      offset + u.targetBytes ≤ total + (uploads.map fun u => r.pad u.targetBytes).sum := by
  induction uploads generalizing total with
  | nil => cases hu
  | cons v rest ih =>
    have hpad := r.le_pad v.targetBytes
    rcases List.mem_cons.1 hu with rfl | hu
    · refine ⟨rfl, total, rfl, ?_⟩
      simp only [List.map_cons, List.sum_cons]
      omega
    · obtain ⟨hkeep, offset, htarget, hle⟩ := ih hu
      refine ⟨hkeep, offset, htarget, ?_⟩
      simp only [List.map_cons, List.sum_cons]
      omega

theorem mem_placeCopies {c : BlockCopy} (hc : c ∈ r.placeCopies texels total copies) :
    ∃ offset, c.target = some ⟨texels.block, texels.offset + offset⟩ ∧
      offset + c.targetBytes ≤ total + (copies.map fun c => r.pad c.targetBytes).sum := by
  induction copies generalizing total with
  | nil => cases hc
  | cons d rest ih =>
    have hpad := r.le_pad d.targetBytes
    rcases List.mem_cons.1 hc with rfl | hc
    · refine ⟨total, rfl, ?_⟩
      have heq : BlockCopy.targetBytes
          { d with target := some ⟨texels.block, texels.offset + total⟩ } = d.targetBytes := rfl
      simp only [List.map_cons, List.sum_cons, heq]
      omega
    · obtain ⟨offset, htarget, hle⟩ := ih hc
      refine ⟨offset, htarget, ?_⟩
      simp only [List.map_cons, List.sum_cons]
      omega

theorem attachTo_staging : (r.attachTo record).staging = record.staging ++ r.texels.toList := by
  unfold Recording.attachTo
  split
  · next texels h => simp [h]
  · next h => simp [h]

theorem attachTo_secondaries : (r.attachTo record).secondaries = record.secondaries := by
  unfold Recording.attachTo
  split <;> simp

theorem attachTo_lastTicket : (r.attachTo record).lastTicket = record.lastTicket := by
  unfold Recording.attachTo
  split <;> simp

/-- A record stays sound when the range is as long as the pieces. -/
theorem RecordSound.attach (h : RecordSound record) (hsize : ∀ x ∈ r.texels, r.total ≤ x.bytes) :
    RecordSound (r.attachTo record) := by
  have hold : ∀ p bytes, Writes record.uploads record.blockCopies p bytes →
      ∃ x ∈ (r.attachTo record).staging, Inside p bytes x := by
    intro p bytes hw
    obtain ⟨x, hx, hin⟩ := h.targets p bytes hw
    exact ⟨x, attachTo_staging ▸ List.mem_append_left _ hx, hin⟩
  cases ht : r.texels with
  | some texels =>
    have htotal := hsize texels ht
    have hlast : texels ∈ (r.attachTo record).staging := by
      rw [attachTo_staging, ht]
      simp
    have hin : ∀ offset n, offset + n ≤ r.total →
        Inside ⟨texels.block, texels.offset + offset⟩ n texels :=
      fun offset n hle => ⟨rfl, Nat.le_add_right .., by simp only; omega⟩
    simp only [Recording.attachTo, ht] at hold hlast ⊢
    refine ⟨?_, ?_⟩
    · rintro p bytes (⟨u, hu, htarget, rfl⟩ | ⟨c, hc, htarget, rfl⟩)
      · rw [addBlockCopies_uploads] at hu
        rcases mem_addUploads hu with hu | ⟨v, hv, order, rfl⟩
        · exact hold p _ (.inl ⟨u, hu, htarget, rfl⟩)
        · obtain ⟨-, offset, hoffset, hle⟩ := mem_placeUploads hv
          cases hoffset.symm.trans htarget
          refine ⟨texels, hlast, hin offset _ ?_⟩
          simp only [Recording.total, Recording.uploadBytes]
          omega
      · rcases mem_addBlockCopies hc with hc | ⟨d, hd, order, rfl⟩
        · rw [addUploads_blockCopies] at hc
          exact hold p _ (.inr ⟨c, hc, htarget, rfl⟩)
        · obtain ⟨offset, hoffset, hle⟩ := mem_placeCopies hd
          cases hoffset.symm.trans htarget
          exact ⟨texels, hlast, hin offset _ hle⟩
    · intro u hu hkeep
      rw [addBlockCopies_uploads] at hu
      rcases mem_addUploads hu with hu | ⟨v, hv, order, rfl⟩
      · exact h.keepOnly u hu hkeep
      · exact absurd ((mem_placeUploads hv).1.symm.trans hkeep) Bool.false_ne_true
  | none =>
    simp only [Recording.attachTo, ht] at hold ⊢
    refine ⟨?_, ?_⟩
    · rintro p bytes (⟨u, hu, htarget, rfl⟩ | ⟨c, hc, htarget, rfl⟩)
      · rw [addBlockCopies_uploads] at hu
        rcases mem_addUploads hu with hu | ⟨v, hv, order, rfl⟩
        · exact hold p _ (.inl ⟨u, hu, htarget, rfl⟩)
        · obtain ⟨w, -, rfl⟩ := List.mem_map.1 hv
          cases htarget
      · rcases mem_addBlockCopies hc with hc | ⟨d, hd, order, rfl⟩
        · rw [addUploads_blockCopies] at hc
          exact hold p _ (.inr ⟨c, hc, htarget, rfl⟩)
        · obtain ⟨e, -, rfl⟩ := List.mem_map.1 hd
          cases htarget
    · intro u hu hkeep
      rw [addBlockCopies_uploads] at hu
      rcases mem_addUploads hu with hu | ⟨v, hv, order, rfl⟩
      · exact h.keepOnly u hu hkeep
      · obtain ⟨w, -, rfl⟩ := List.mem_map.1 hv
        rfl

end Records

/-! What becomes of the records. -/

section Commands

variable {commands commands' : Commands} {c d : VkCommandBuffer}
  {record : CommandRecord} {ticket : Nat}
  {submit : Submit} {readable : Readable}

theorem at_insert : Commands.at (commands.insert c record) c = record := by
  simp [Commands.at, AList.lookup_insert]

theorem at_insert_of_ne (h : d ≠ c) : Commands.at (commands.insert c record) d = commands.at d := by
  simp [Commands.at, AList.lookup_insert_ne h]

theorem at_erase_of_ne (h : d ≠ c) : Commands.at (commands.erase c) d = commands.at d := by
  simp [Commands.at, AList.lookup_erase_ne h]

theorem at_erase : Commands.at (commands.erase c) c = {} := by
  simp [Commands.at, AList.lookup_erase]

theorem at_of_lookup (h : commands.lookup c = some record) : commands.at c = record := by
  simp [Commands.at, h]

/-- What a record that is neither made anew nor erased keeps. -/
structure Kept (commands commands' : Commands) (c : VkCommandBuffer) : Prop where
  staging : (commands.at c).staging ⊆ (commands'.at c).staging
  secondaries : (commands.at c).secondaries ⊆ (commands'.at c).secondaries
  lastTicket : (commands.at c).lastTicket ≤ (commands'.at c).lastTicket

theorem Kept.of_eq (h : commands'.at c = commands.at c) : Kept commands commands' c := by
  constructor <;> rw [h]
  all_goals exact List.Subset.refl _

theorem Kept.insert (hs : (commands.at d).staging ⊆ record.staging)
    (hsec : (commands.at d).secondaries ⊆ record.secondaries)
    (ht : (commands.at d).lastTicket ≤ record.lastTicket) :
    Kept commands (commands.insert d record) c := by
  by_cases hc : c = d
  · subst hc
    exact ⟨by rwa [at_insert], by rwa [at_insert], by rwa [at_insert]⟩
  · exact .of_eq (at_insert_of_ne hc)

theorem Covers.mono (h : Covers commands submit c)
    (hkept : ∀ d, Covers commands submit d → Kept commands commands' d) :
    Covers commands' submit c := by
  rcases h with h | ⟨primary, hp, hc⟩
  · exact .inl h
  · exact .inr ⟨primary, hp, (hkept primary (.inl hp)).secondaries hc⟩

/-- The records that differ at most in what they execute. -/
structure Executed (commands commands' : Commands) (c : VkCommandBuffer) : Prop where
  uploads : (commands'.at c).uploads = (commands.at c).uploads
  blockCopies : (commands'.at c).blockCopies = (commands.at c).blockCopies
  staging : (commands'.at c).staging = (commands.at c).staging
  secondaries : (commands.at c).secondaries ⊆ (commands'.at c).secondaries
  lastTicket : (commands'.at c).lastTicket = (commands.at c).lastTicket

theorem executed_cmdExecuteCommands {secondaries : List VkCommandBuffer} :
    Executed commands (cmdExecuteCommands commands d secondaries) c := by
  unfold cmdExecuteCommands
  induction secondaries generalizing commands with
  | nil => exact ⟨rfl, rfl, rfl, List.Subset.refl _, rfl⟩
  | cons first rest ih =>
    rw [List.foldl_cons]
    split
    · exact ih
    · next record _ =>
      have hrest := @ih (commands.insert d ((commands.at d).addSecondary first record.nextOrder))
      by_cases hc : c = d
      · subst hc
        have hat := @at_insert commands c ((commands.at c).addSecondary first record.nextOrder)
        refine ⟨?_, ?_, ?_, ?_, ?_⟩
        · rw [hrest.uploads, hat]
          rfl
        · rw [hrest.blockCopies, hat]
          rfl
        · rw [hrest.staging, hat]
          rfl
        · refine List.Subset.trans ?_ hrest.secondaries
          rw [hat]
          exact List.subset_append_left ..
        · rw [hrest.lastTicket, hat]
          rfl
      · have hat :=
          @at_insert_of_ne commands _ _ ((commands.at d).addSecondary first record.nextOrder) hc
        exact ⟨hat ▸ hrest.uploads, hat ▸ hrest.blockCopies, hat ▸ hrest.staging,
          hat ▸ hrest.secondaries, hat ▸ hrest.lastTicket⟩

/-- `last_ticket` of a record raised to a ticket. -/
def bump (ticket : Nat) (record : CommandRecord) : CommandRecord :=
  { record with lastTicket := max record.lastTicket ticket }

theorem bump_bump : (bump ticket ∘ bump ticket) = bump ticket := by
  funext record
  simp [bump]

theorem lookup_raise : (raise ticket commands c).lookup d =
    if d = c then (commands.lookup d).map (bump ticket) else commands.lookup d := by
  unfold raise
  by_cases hd : d = c
  · subst hd
    split
    · next h => simp [h]
    · next record h => simp [h, AList.lookup_insert, bump]
  · rw [if_neg hd]
    split
    · rfl
    · exact AList.lookup_insert_ne hd

theorem lookup_raises {cs : List VkCommandBuffer} : (cs.foldl (raise ticket) commands).lookup d =
    if d ∈ cs then (commands.lookup d).map (bump ticket) else commands.lookup d := by
  induction cs generalizing commands with
  | nil => rfl
  | cons c rest ih =>
    rw [List.foldl_cons, ih, lookup_raise]
    by_cases hc : d = c
    · subst hc
      simp only [if_true, List.mem_cons, true_or, Option.map_map, bump_bump, ite_self]
    · simp only [List.mem_cons, hc, false_or, if_false]

theorem lookup_raiseAll : (raiseAll ticket commands c).lookup d =
    if d ∈ c :: (commands.at c).secondaries then (commands.lookup d).map (bump ticket)
    else commands.lookup d := by
  unfold raiseAll
  split
  · next h =>
    have hat : (commands.at c).secondaries = [] := by simp [Commands.at, h]
    rw [hat]
    split
    · next hd =>
      obtain rfl := List.mem_singleton.1 hd
      simp [h]
    · rfl
  · next record h =>
    rw [at_of_lookup h, ← List.foldl_cons, lookup_raises]

theorem at_bump (h : commands'.lookup d = (commands.lookup d).map (bump ticket)) :
    (commands'.at d).secondaries = (commands.at d).secondaries := by
  cases hl : commands.lookup d <;> simp [Commands.at, h, hl, bump]

/-- The covered records are raised and the others stay. -/
theorem lookup_remember {cs : List VkCommandBuffer} :
    ((∃ c ∈ cs, d ∈ c :: (commands.at c).secondaries) →
      (cs.foldl (raiseAll ticket) commands).lookup d = (commands.lookup d).map (bump ticket)) ∧
    ((¬ ∃ c ∈ cs, d ∈ c :: (commands.at c).secondaries) →
      (cs.foldl (raiseAll ticket) commands).lookup d = commands.lookup d) := by
  induction cs generalizing commands with
  | nil => exact ⟨by simp, fun _ => rfl⟩
  | cons c rest ih =>
    have hsame : ∀ e, ((raiseAll ticket commands c).at e).secondaries =
        (commands.at e).secondaries := by
      intro e
      have h := @lookup_raiseAll commands c e ticket
      split at h
      · exact at_bump h
      · rw [Commands.at, h, Commands.at]
    obtain ⟨hin, hout⟩ := @ih (raiseAll ticket commands c)
    simp only [hsame] at hin hout
    have hfirst := @lookup_raiseAll commands c d ticket
    simp only [List.foldl_cons]
    by_cases hrest : ∃ c ∈ rest, d ∈ c :: (commands.at c).secondaries
    · obtain ⟨e, he, hd⟩ := hrest
      refine ⟨fun _ => ?_, fun hnone => absurd ⟨e, .tail _ he, hd⟩ hnone⟩
      rw [hin ⟨e, he, hd⟩, hfirst]
      split
      · rw [Option.map_map, bump_bump]
      · rfl
    · rw [hout hrest, hfirst]
      constructor
      · rintro ⟨e, he, hd⟩
        rcases List.mem_cons.1 he with rfl | he
        · rw [if_pos hd]
        · exact absurd ⟨e, he, hd⟩ hrest
      · intro hnone
        exact if_neg fun hd => hnone ⟨c, .head _, hd⟩

theorem covers_iff : Covers commands submit d ↔
    ∃ c ∈ submit.commandBuffers, d ∈ c :: (commands.at c).secondaries := by
  constructor
  · rintro (hd | ⟨c, hc, hd⟩)
    · exact ⟨d, hd, .head _⟩
    · exact ⟨c, hc, .tail _ hd⟩
  · rintro ⟨c, hc, hd⟩
    rcases List.mem_cons.1 hd with rfl | hd
    · exact .inl hc
    · exact .inr ⟨c, hc, hd⟩

/-! What a submit collects comes from the records it covers. -/

/-- An upload of a record, in another place. -/
def UploadOf (record : CommandRecord) (u : PendingUpload) : Prop :=
  ∃ v ∈ record.uploads, ∃ order, u = { v with order }

def CopyOf (record : CommandRecord) (copy : BlockCopy) : Prop :=
  ∃ v ∈ record.blockCopies, ∃ order, copy = { v with order }

/-- Whatever was found is in a record with some property. -/
def FoundIn (P : VkCommandBuffer → Prop) (commands : Commands) (found : Collected) : Prop :=
  (∀ u ∈ found.uploads, ∃ c, P c ∧ UploadOf (commands.at c) u) ∧
    ∀ copy ∈ found.blockCopies, ∃ c, P c ∧ CopyOf (commands.at c) copy

theorem FoundIn.append {P : VkCommandBuffer → Prop} {a b : Collected} (ha : FoundIn P commands a)
    (hb : FoundIn P commands b) : FoundIn P commands (a ++ b) := by
  refine ⟨fun u hu => ?_, fun copy hc => ?_⟩
  · rcases List.mem_append.1 hu with hu | hu
    · exact ha.1 u hu
    · exact hb.1 u hu
  · rcases List.mem_append.1 hc with hc | hc
    · exact ha.2 copy hc
    · exact hb.2 copy hc

theorem FoundIn.mono {P Q : VkCommandBuffer → Prop} {a : Collected} (ha : FoundIn P commands a)
    (h : ∀ c, P c → Q c) : FoundIn Q commands a := by
  refine ⟨fun u hu => ?_, fun copy hc => ?_⟩
  · obtain ⟨c, hP, hin⟩ := ha.1 u hu
    exact ⟨c, h c hP, hin⟩
  · obtain ⟨c, hP, hin⟩ := ha.2 copy hc
    exact ⟨c, h c hP, hin⟩

theorem foundIn_collect {P : VkCommandBuffer → Prop} {base : Nat} (h : P c) :
    FoundIn P commands (collect commands readable c base) := by
  unfold collect
  split
  · exact ⟨nofun, nofun⟩
  · next record hr =>
    have hat := at_of_lookup hr
    refine ⟨fun u hu => ?_, fun copy hc => ?_⟩
    · obtain ⟨v, hv, rfl⟩ := List.mem_map.1 hu
      exact ⟨c, h, v, hat ▸ (List.mem_filter.1 hv).1, _, rfl⟩
    · obtain ⟨v, hv, rfl⟩ := List.mem_map.1 hc
      exact ⟨c, h, v, hat ▸ hv, _, rfl⟩

theorem foundIn_collectPrimary {P : VkCommandBuffer → Prop} {base : Nat} (h : P c)
    (hsec : ∀ d ∈ record.secondaries, P d) :
    FoundIn P commands (collectPrimary commands readable c record base) := by
  have hfold : ∀ (inners : List (VkCommandBuffer × Nat)) (found : Collected),
      FoundIn P commands found → (∀ inner ∈ inners, P inner.1) →
      FoundIn P commands (inners.foldl
        (fun found inner => found ++ collect commands readable inner.1 (base + inner.2))
          found) := by
    intro inners
    induction inners with
    | nil => exact fun _ hf _ => hf
    | cons first rest ih =>
      intro found hf hin
      exact ih _ (hf.append (foundIn_collect (hin first (.head _)))) fun inner hi =>
        hin inner (.tail _ hi)
  exact hfold _ _ (foundIn_collect h) fun inner hi => hsec _ (List.of_mem_zip hi).1

theorem foundIn_collectSubmit {n : Nat} {cs : List VkCommandBuffer} :
    FoundIn (fun d => ∃ c ∈ cs, d ∈ c :: (commands.at c).secondaries) commands
      (collectSubmit commands readable n cs) := by
  induction cs generalizing n with
  | nil => exact ⟨nofun, nofun⟩
  | cons c rest ih =>
    have hrest : ∀ d, (∃ c ∈ rest, d ∈ c :: (commands.at c).secondaries) →
        ∃ e ∈ c :: rest, d ∈ e :: (commands.at e).secondaries := by
      rintro d ⟨e, he, hd⟩
      exact ⟨e, .tail _ he, hd⟩
    simp only [collectSubmit]
    split
    · exact ih.mono hrest
    · next record hr =>
      refine (foundIn_collectPrimary ⟨c, .head _, .head _⟩ ?_).append (ih.mono hrest)
      intro d hd
      exact ⟨c, .head _, .tail _ (at_of_lookup hr ▸ hd)⟩

end Commands

/-! The invariant. -/

structure SubmitSound (commands : Commands) (s : Submit) : Prop where
  targets : ∀ p bytes, Writes s.work s.blockCopies p bytes →
    ∃ c, Covers commands s c ∧ ∃ r ∈ (commands.at c).staging, Inside p bytes r
  keepOnly : ∀ u ∈ s.work, u.keepOnly = true → u.target = none
  uploads : s.uploads ⊆ s.work

/-- The ranges a thread has in its locals. -/
def Place.held : Place → List Staging
  | .acquire r _ | .create r _ | .push r _ | .stage r | .attach r | .dropStaged r =>
    r.texels.toList ++ r.staged
  | .dropTexels texels => [texels]
  | .releaseStaging doomed => doomed
  | _ => []

/-- The host-visible range is as long as the pieces. -/
def Recording.Sized (r : Recording) : Prop := ∀ x ∈ r.texels, r.total ≤ x.bytes

/-- What a recording call has so far. -/
def Place.Prepared : Place → Prop
  | .acquire r deviceLocal | .create r deviceLocal | .push r deviceLocal =>
    r.Sized ∧ if deviceLocal then r.gpu ≠ none else r.texels = none ∧ r.staged = []
  | .stage r => r.Sized
  | .attach r => r.Sized ∧ r.staged = []
  | .collect s => s.work = [] ∧ s.uploads = []
  | _ => True

inductive Owner (τ : Type*)
  | thread (t : Option τ)
  | buffer (commandBuffer : VkCommandBuffer)

variable {τ : Type*}

def owns (st : State τ) : Owner τ → List Staging
  | .thread t => (st.own t).held
  | .buffer commandBuffer => (st.shared.commands.at commandBuffer).staging

/-- Whoever releases a range that the batch writes to waits for the batch, or will once the submit
has remembered its ticket. -/
def Settled (st : State τ) (batch : DecodeBatch) : Prop :=
  ∀ p bytes, batch.Writes p bytes → ∃ c, ∃ r ∈ (st.shared.commands.at c).staging, Inside p bytes r ∧
    (batch.ticket ≤ (st.shared.commands.at c).lastTicket ∨
      ∃ t submit, st.own t = .remember submit batch.ticket ∧ submit.gpuWaits = true ∧
        Covers st.shared.commands submit c)

structure Sound (st : State τ) : Prop where
  apart : ReleasedApart st
  stocked : Stocked st.shared.blocks st.shared.outstanding
  addresses : ∀ b ∈ st.shared.blocks, b.address < st.shared.created
  serials : ∀ r ∈ st.shared.outstanding, r.serial < st.shared.handed
  owned : OwnedBy (owns st) st.shared.outstanding
  records : ∀ c, RecordSound (st.shared.commands.at c)
  prepared : ∀ t, (st.own t).Prepared
  submits : ∀ t s, (st.own t).submitting = some s → SubmitSound st.shared.commands s
  pending : ∀ batch ∈ st.pending, Settled st batch
  issued : st.shared.issuedTicket = st.shared.completedTicket + st.pending.length
  tickets : st.pending.map DecodeBatch.ticket =
    List.range' (st.shared.completedTicket + 1) st.pending.length
  waiting : ∀ t c ticket, st.own t = .releaseWait c ticket ∨ st.own t = .releaseErase c ticket →
    (st.shared.commands.at c).lastTicket ≤ ticket
  waited : ∀ t c ticket, st.own t = .releaseErase c ticket → ticket ≤ st.shared.completedTicket

/-- What a thread other than the dispatcher may do in a step that leaves the queue alone. -/
structure Change (st : State τ) (t : τ) (s' : Shared τ) (p' : Place) : Prop where
  stocked : Stocked s'.blocks s'.outstanding
  addresses : ∀ b ∈ s'.blocks, b.address < s'.created
  serials : ∀ r ∈ s'.outstanding, r.serial < s'.handed
  records : ∀ c, RecordSound (s'.commands.at c)
  prepared : p'.Prepared
  submit : ∀ s, p'.submitting = some s → SubmitSound s'.commands s
  queue : s'.queue = st.shared.queue
  issued : s'.issuedTicket = st.shared.issuedTicket
  completed : s'.completedTicket = st.shared.completedTicket
  kept : ∀ c, Kept st.shared.commands s'.commands c ∨
    ∃ ticket, st.own (some t) = .releaseErase c ticket
  raised : ∀ c, (∃ s, (st.own (some t)).submitting = some s ∧ Covers st.shared.commands s c) ∨
    (s'.commands.at c).lastTicket ≤ (st.shared.commands.at c).lastTicket
  remembered : ∀ s ticket, st.own (some t) = .remember s ticket → s.gpuWaits = true →
    ∀ c, Covers st.shared.commands s c → (st.shared.commands.at c).staging ≠ [] →
      ticket ≤ (s'.commands.at c).lastTicket
  waiting : ∀ c ticket, p' = .releaseWait c ticket ∨ p' = .releaseErase c ticket →
    (s'.commands.at c).lastTicket ≤ ticket
  waited : ∀ c ticket, p' = .releaseErase c ticket → ticket ≤ s'.completedTicket

variable {st : State τ} {t : τ} {s' : Shared τ} {p' : Place} {batch : DecodeBatch}
  {answers : Answers} {stagingBlockBytes : Nat} {c : VkCommandBuffer} {ticket : Nat}

theorem pending_ticket (h : Sound st) (hb : batch ∈ st.pending) :
    st.shared.completedTicket < batch.ticket ∧ batch.ticket ≤ st.shared.issuedTicket := by
  have hmem : batch.ticket ∈ st.pending.map DecodeBatch.ticket := List.mem_map_of_mem hb
  rw [h.tickets, List.mem_range'_1] at hmem
  have := h.issued
  omega

/-- A record that a submit covers, or that a pending batch is settled by, is not erased. -/
theorem Change.kept_of_covered (h : Sound st) (hc : Change st t s' p') {u : Option τ} {s : Submit}
    (hs : (st.own u).submitting = some s) (hcov : Covers st.shared.commands s c) :
    Kept st.shared.commands s'.commands c := by
  rcases hc.kept c with hk | ⟨ticket, hp⟩
  · exact hk
  · exact absurd hcov (h.apart u (some t) s c hs (by rw [hp]; rfl))

theorem Change.kept_of_pending (h : Sound st) (hc : Change st t s' p') (hb : batch ∈ st.pending)
    (hle : batch.ticket ≤ (st.shared.commands.at c).lastTicket) :
    Kept st.shared.commands s'.commands c := by
  rcases hc.kept c with hk | ⟨ticket, hp⟩
  · exact hk
  · have hlt := (pending_ticket h hb).1
    have hwait := h.waiting _ c ticket (.inr hp)
    have hwaited := h.waited _ c ticket hp
    omega

/-- What a pending batch writes to is in a range of a record, which no thread has. -/
theorem Sound.not_meets_held (h : Sound st) (hb : batch ∈ st.pending) {p : Pointer} {bytes : Nat}
    (hw : batch.Writes p bytes) {u : Option τ} {r : Staging} (hr : r ∈ (st.own u).held) :
    ¬ Meets p bytes r := by
  obtain ⟨c, x, hx, hin, -⟩ := h.pending batch hb p bytes hw
  have hxr : x ≠ r := by
    rintro rfl
    cases h.owned.unique (.thread u) (.buffer c) x hr hx
  exact hin.not_meets
    (h.stocked.apart x (h.owned.out (.buffer c) x hx) r (h.owned.out (.thread u) r hr) hxr)

section

variable {s : Submit}

theorem submitSound_of_empty (hw : s.work = []) (hc : s.blockCopies = []) (hu : s.uploads = []) :
    SubmitSound st.shared.commands s := by
  refine ⟨?_, by simp [hw], by simp [hu]⟩
  rintro p bytes (⟨u, hin, -⟩ | ⟨c, hin, -⟩)
  · rw [hw] at hin
    cases hin
  · rw [hc] at hin
    cases hin

/-- What a submit collected. -/
theorem SubmitSound.collected (h : Sound st) {found : Collected}
    (hfound : FoundIn (Covers st.shared.commands s) st.shared.commands found)
    (hw : s.work ⊆ found.uploads) (hc : s.blockCopies ⊆ found.blockCopies)
    (hu : s.uploads ⊆ s.work) :
    SubmitSound st.shared.commands s := by
  refine ⟨?_, ?_, hu⟩
  · rintro p bytes (⟨u, hin, htarget, rfl⟩ | ⟨copy, hin, htarget, rfl⟩)
    · obtain ⟨c, hcov, v, hv, order, rfl⟩ := hfound.1 u (hw hin)
      exact ⟨c, hcov, (h.records c).targets p _ (.inl ⟨v, hv, htarget, rfl⟩)⟩
    · obtain ⟨c, hcov, v, hv, order, rfl⟩ := hfound.2 copy (hc hin)
      exact ⟨c, hcov, (h.records c).targets p _ (.inr ⟨v, hv, htarget, rfl⟩)⟩
  · intro u hin hkeep
    obtain ⟨c, -, v, hv, order, rfl⟩ := hfound.1 u (hw hin)
    exact (h.records c).keepOnly v hv hkeep

theorem at_remember (hcov : Covers st.shared.commands s c) (hw : s.gpuWaits = true)
    (hin : (st.shared.commands.at c).staging ≠ []) :
    ticket ≤ ((st.shared.remember s ticket).commands.at c).lastTicket := by
  have hlookup := @lookup_remember st.shared.commands c ticket s.commandBuffers
  cases hl : st.shared.commands.lookup c with
  | none => simp [Commands.at, hl] at hin
  | some record =>
    have hraised := hlookup.1 (covers_iff.1 hcov)
    simp only [Shared.remember, hw, if_true]
    simp [Commands.at, hraised, hl, bump]

/-- Apart from the tickets the records stay. -/
theorem remember_cases : (st.shared.remember s ticket).commands.at c = st.shared.commands.at c ∨
    Covers st.shared.commands s c ∧
      (st.shared.remember s ticket).commands.at c = bump ticket (st.shared.commands.at c) := by
  have hlookup := @lookup_remember st.shared.commands c ticket s.commandBuffers
  simp only [Shared.remember]
  split
  · by_cases hcov : Covers st.shared.commands s c
    · cases hl : st.shared.commands.lookup c with
      | none =>
        left
        simp [Commands.at, hlookup.1 (covers_iff.1 hcov), hl]
      | some record =>
        right
        refine ⟨hcov, ?_⟩
        simp [Commands.at, hlookup.1 (covers_iff.1 hcov), hl]
    · left
      simp [Commands.at, hlookup.2 fun h => hcov (covers_iff.2 h)]
  · exact .inl rfl

end

theorem le_completed_of_waited {s : Shared τ} (h : s.waited ticket) :
    ticket ≤ s.completedTicket := by
  rcases h with rfl | h
  · exact Nat.zero_le _
  · exact h

/-- A step of the dispatcher takes a batch of the queue or completes the one it has. -/
theorem dispatch_cases (hstep : dispatch st.shared (st.own none) = some (s', p')) :
    (∃ batch rest, st.own none = .idle ∧ st.shared.queue = batch :: rest ∧
      s' = { st.shared with queue := rest } ∧ p' = .running batch) ∨
    ∃ batch, st.own none = .running batch ∧
      s' = { st.shared with completedTicket := batch.ticket } ∧ p' = .idle := by
  cases hp : st.own none <;> rw [hp] at hstep
  case idle =>
    simp only [dispatch] at hstep
    split at hstep
    · cases hstep
    · next batch rest hq =>
      cases hstep
      exact .inl ⟨batch, rest, rfl, hq, rfl, rfl⟩
  case running batch =>
    simp only [dispatch] at hstep
    cases hstep
    exact .inr ⟨batch, rfl, rfl, rfl⟩
  all_goals cases hstep

/-- A step is one of the dispatcher, the start of a call, or one of a thread in a call. -/
theorem act_cases {t : Option τ} {a : Act}
    (hact : act stagingBlockBytes t st.shared (st.own t) a = some (s', p')) :
    (t = none ∧ dispatch st.shared (st.own none) = some (s', p')) ∨
    ∃ u, t = some u ∧
      ((∃ call, st.own (some u) = .idle ∧ (∀ r, call = .record r → r.Fresh) ∧ s' = st.shared ∧
          p' = begin st.shared call) ∨
        (∃ answers,
          lockedStep stagingBlockBytes st.shared answers (st.own (some u)) = some (s', p')) ∨
        ∃ answers, freeStep stagingBlockBytes u st.shared answers
          (st.own (some u)) = some (s', p')) := by
  cases t with
  | none =>
    cases a with
    | call call => cases hact
    | step answers => exact .inl ⟨rfl, hact⟩
  | some u =>
    refine .inr ⟨u, rfl, ?_⟩
    cases a with
    | call call =>
      left
      simp only [act] at hact
      split at hact
      · next hp =>
        refine ⟨call, hp, ?_⟩
        split at hact
        · next r =>
          split at hact
          · next hfresh =>
            cases hact
            exact ⟨fun r' heq => by cases heq; exact hfresh, rfl, rfl⟩
          · cases hact
        · next hnot =>
          cases hact
          exact ⟨fun r heq => absurd heq (hnot r), rfl, rfl⟩
      · cases hact
    | step answers =>
      right
      simp only [act] at hact
      split at hact
      · rcases Option.or_eq_some_iff.1 hact with hstep | ⟨-, hstep⟩
        · exact .inl ⟨answers, hstep⟩
        · exact .inr ⟨answers, hstep⟩
      · exact .inr ⟨answers, hact⟩

theorem initial_sound {imageTickets : VkImage → Option Nat} :
    Sound (⟨{ imageTickets }, fun _ => .idle⟩ : State τ) where
  apart := nofun
  stocked := ⟨List.nodup_nil, nofun, nofun, nofun, nofun⟩
  addresses := nofun
  serials := nofun
  owned := by
    refine ⟨?_, ?_, ?_⟩
    · rintro (t | c) <;> exact List.nodup_nil
    · rintro (t | c) r hr <;> cases hr
    · rintro (t | c) o r hr <;> cases hr
  records c := by
    refine ⟨?_, nofun⟩
    rintro p bytes (⟨_, hin, -⟩ | ⟨_, hin, -⟩) <;> cases hin
  prepared _ := trivial
  submits := nofun
  pending := nofun
  issued := rfl
  tickets := rfl
  waiting := by
    rintro t c ticket (hp | hp) <;> cases hp
  waited := nofun

/-! What a step does to the blocks. -/

/-- No block goes back to its front or goes away, and no range comes back. -/
def Keeps (s s' : Shared τ) : Prop :=
  (∀ b ∈ s.blocks, ∃ b' ∈ s'.blocks, b'.address = b.address ∧ b.head ≤ b'.head) ∧
    s.outstanding ⊆ s'.outstanding

theorem keeps_of_eq {s : Shared τ} (hb : s'.blocks = s.blocks)
    (ho : s'.outstanding = s.outstanding) :
    Keeps s s' :=
  ⟨fun b hin => ⟨b, hb ▸ hin, rfl, le_rfl⟩, ho ▸ Finset.Subset.refl _⟩

theorem lockedStep_blocks
    (hstep : lockedStep stagingBlockBytes st.shared answers (st.own (some t)) =
      some (s', p')) :
    Keeps st.shared s' ∨ ∃ released, (∃ rest, (st.own (some t)).held.Perm (released ++ rest)) ∧
      s' = st.shared.giveBack stagingBlockBytes released := by
  cases hp : st.own (some t) <;> rw [hp] at hstep
  case acquire r deviceLocal =>
    left
    simp only [lockedStep] at hstep
    split at hstep
    · cases hstep
      exact keeps_of_eq rfl rfl
    · split at hstep
      · next blocks range hacquire =>
        cases hstep
        exact ⟨fun b hb => acquireFrom_keeps hacquire hb, Finset.subset_insert ..⟩
      · cases hstep
        exact keeps_of_eq rfl rfl
  case push r deviceLocal =>
    left
    simp only [lockedStep] at hstep
    cases hstep
    exact ⟨fun b hb => ⟨b, List.mem_append_left _ hb, rfl, le_rfl⟩, Finset.subset_insert ..⟩
  case dropStaged r =>
    simp only [lockedStep] at hstep
    cases hstep
    exact .inr ⟨r.staged, ⟨r.texels.toList, List.perm_append_comm⟩, rfl⟩
  case dropTexels texels =>
    simp only [lockedStep] at hstep
    cases hstep
    exact .inr ⟨[texels], ⟨[], .refl _⟩, rfl⟩
  case releaseStaging doomed =>
    simp only [lockedStep] at hstep
    cases hstep
    exact .inr ⟨doomed, ⟨[], .of_eq (List.append_nil _).symm⟩, rfl⟩
  case attach r =>
    left
    simp only [lockedStep] at hstep
    split at hstep <;> cases hstep <;> exact keeps_of_eq rfl rfl
  case releaseTicket c =>
    left
    simp only [lockedStep] at hstep
    split at hstep <;> cases hstep <;> exact keeps_of_eq rfl rfl
  case releaseErase c ticket =>
    left
    simp only [lockedStep] at hstep
    split at hstep <;> cases hstep <;> exact keeps_of_eq rfl rfl
  all_goals
    left
    cases hstep
    try exact keeps_of_eq rfl rfl

theorem freeStep_blocks (hstep : freeStep stagingBlockBytes t st.shared answers (st.own (some t)) =
      some (s', p')) : Keeps st.shared s' ∧ s'.completedTicket = st.shared.completedTicket := by
  cases hp : st.own (some t) <;> rw [hp] at hstep <;> simp only [freeStep] at hstep
  case lock s =>
    split at hstep <;> cases hstep
    exact ⟨keeps_of_eq rfl rfl, rfl⟩
  case wait s ticket =>
    split at hstep <;> cases hstep
    exact ⟨keeps_of_eq rfl rfl, rfl⟩
  case releaseWait c ticket =>
    split at hstep <;> cases hstep
    exact ⟨keeps_of_eq rfl rfl, rfl⟩
  all_goals
    cases hstep
    try exact ⟨keeps_of_eq rfl rfl, rfl⟩

theorem lockedStep_completed
    (hstep : lockedStep stagingBlockBytes st.shared answers (st.own (some t)) =
      some (s', p')) : s'.completedTicket = st.shared.completedTicket := by
  cases hp : st.own (some t) <;> rw [hp] at hstep <;> simp only [lockedStep] at hstep
  case acquire r deviceLocal =>
    split at hstep
    · cases hstep
      rfl
    · split at hstep <;> cases hstep <;> rfl
  case attach r => split at hstep <;> cases hstep <;> rfl
  case releaseTicket c => split at hstep <;> cases hstep <;> rfl
  case releaseErase c ticket => split at hstep <;> cases hstep <;> rfl
  all_goals
    cases hstep
    try rfl

/-- A step leaves the blocks alone, hands out a range, or takes back ranges that a thread had. -/
theorem act_blocks {t : Option τ} {a : Act}
    (hact : act stagingBlockBytes t st.shared (st.own t) a = some (s', p')) :
    Keeps st.shared s' ∨ ∃ released, (∃ rest, (st.own t).held.Perm (released ++ rest)) ∧
      s' = st.shared.giveBack stagingBlockBytes released := by
  rcases act_cases hact with
      ⟨rfl, hstep⟩ | ⟨u, rfl, ⟨call, -, -, rfl, -⟩ | ⟨answers, hstep⟩ | ⟨answers, hstep⟩⟩
  · rcases dispatch_cases hstep with ⟨batch, rest, -, -, rfl, -⟩ | ⟨batch, -, rfl, -⟩
    · exact .inl (keeps_of_eq rfl rfl)
    · exact .inl (keeps_of_eq rfl rfl)
  · exact .inl (keeps_of_eq rfl rfl)
  · exact lockedStep_blocks hstep
  · exact .inl (freeStep_blocks hstep).1

/-! One step. -/

variable [DecidableEq τ]

theorem pending_set (hq : s'.queue = st.shared.queue) :
    State.pending (st.set (some t) s' p') = st.pending := by
  have hnone : (st.set (some t) s' p').own none = st.own none := System.set_own_of_ne nofun
  rw [State.pending, State.pending, hnone, System.set_shared, hq]

theorem Change.settled (h : Sound st) (hc : Change st t s' p') (hb : batch ∈ st.pending) :
    Settled (st.set (some t) s' p') batch := by
  intro p bytes hw
  obtain ⟨c, r, hr, hin, hdone | ⟨u, s, hu, hwaits, hcov⟩⟩ := h.pending batch hb p bytes hw
  · have hk := hc.kept_of_pending h hb hdone
    exact ⟨c, r, hk.staging hr, hin, .inl (hdone.trans hk.lastTicket)⟩
  · have hsub : (st.own u).submitting = some s := by rw [hu]; rfl
    have hk := hc.kept_of_covered h hsub hcov
    refine ⟨c, r, hk.staging hr, hin, ?_⟩
    by_cases heq : u = some t
    · subst heq
      exact .inl (hc.remembered s batch.ticket hu hwaits c hcov (List.ne_nil_of_mem hr))
    · refine .inr ⟨u, s, ?_, hwaits, hcov.mono fun d hd => hc.kept_of_covered h hsub hd⟩
      rw [System.set_own_of_ne heq]
      exact hu

theorem SubmitSound.mono {commands commands' : Commands} {s : Submit} (h : SubmitSound commands s)
    (hkept : ∀ d, Covers commands s d → Kept commands commands' d) : SubmitSound commands' s := by
  refine ⟨fun p bytes hw => ?_, h.keepOnly, h.uploads⟩
  obtain ⟨c, hcov, r, hr, hin⟩ := h.targets p bytes hw
  exact ⟨c, hcov.mono hkept, r, (hkept c hcov).staging hr, hin⟩

theorem Sound.change (h : Sound st) (hc : Change st t s' p')
    (howned : OwnedBy (owns (st.set (some t) s' p')) s'.outstanding)
    (hapart : ReleasedApart (st.set (some t) s' p')) : Sound (st.set (some t) s' p') where
  apart := hapart
  stocked := hc.stocked
  addresses := hc.addresses
  serials := hc.serials
  owned := howned
  records := hc.records
  prepared u := by
    by_cases hu : u = some t
    · subst hu
      rw [System.set_own_self]
      exact hc.prepared
    · rw [System.set_own_of_ne hu]
      exact h.prepared u
  submits u s hs := by
    by_cases hu : u = some t
    · subst hu
      rw [System.set_own_self] at hs
      exact hc.submit s hs
    · rw [System.set_own_of_ne hu] at hs
      exact (h.submits u s hs).mono fun d hd => hc.kept_of_covered h hs hd
  pending batch hb := by
    rw [pending_set hc.queue] at hb
    exact hc.settled h hb
  issued := by
    rw [pending_set hc.queue, System.set_shared, hc.issued, hc.completed]
    exact h.issued
  tickets := by
    rw [pending_set hc.queue, System.set_shared, hc.completed]
    exact h.tickets
  waiting u c ticket hu := by
    by_cases heq : u = some t
    · subst heq
      rw [System.set_own_self] at hu
      exact hc.waiting c ticket hu
    · rw [System.set_own_of_ne heq] at hu
      have hrel : (st.own u).releasing = some c := by
        rcases hu with hu | hu <;> rw [hu] <;> rfl
      rcases hc.raised c with ⟨s, hs, hcov⟩ | hle
      · exact absurd hcov (h.apart _ u s c hs hrel)
      · exact hle.trans (h.waiting u c ticket hu)
  waited u c ticket hu := by
    rw [System.set_shared, hc.completed]
    by_cases heq : u = some t
    · subst heq
      rw [System.set_own_self] at hu
      exact hc.completed ▸ hc.waited c ticket hu
    · rw [System.set_own_of_ne heq] at hu
      exact h.waited u c ticket hu

/-! What the owners have after a step of a thread. -/

theorem owns_self : owns (st.set (some t) s' p') (.thread (some t)) = p'.held := by
  simp [owns]

theorem owns_thread {u : Option τ} (hu : u ≠ some t) :
    owns (st.set (some t) s' p') (.thread u) = owns st (.thread u) := by
  simp [owns, System.set_own_of_ne hu]

/-- The step changes what the thread has, and no record's ranges. -/
theorem owns_of_ne {o : Owner τ} (ho : o ≠ .thread (some t))
    (hstaging : ∀ c, (s'.commands.at c).staging = (st.shared.commands.at c).staging) :
    owns (st.set (some t) s' p') o = owns st o := by
  cases o with
  | thread u => exact owns_thread fun hu => ho (hu ▸ rfl)
  | buffer c => exact hstaging c

theorem Sound.owned_move (h : Sound st) (hheld : p'.held.Perm (st.own (some t)).held)
    (hstaging : ∀ c, (s'.commands.at c).staging = (st.shared.commands.at c).staging) :
    OwnedBy (owns (st.set (some t) s' p')) st.shared.outstanding := by
  refine h.owned.congr fun o => ?_
  by_cases ho : o = .thread (some t)
  · subst ho
    rw [owns_self]
    exact hheld
  · rw [owns_of_ne ho hstaging]

/-- A step that only moves the thread on. -/
theorem Sound.move (h : Sound st) (hheld : p'.held.Perm (st.own (some t)).held)
    (hprep : p'.Prepared)
    (hsub : ∀ s, p'.submitting = some s → SubmitSound st.shared.commands s)
    (hrem : ∀ s ticket, st.own (some t) ≠ .remember s ticket)
    (hwaiting : ∀ c ticket, p' = .releaseWait c ticket ∨ p' = .releaseErase c ticket →
      (st.shared.commands.at c).lastTicket ≤ ticket)
    (hwaited : ∀ c ticket, p' = .releaseErase c ticket → ticket ≤ st.shared.completedTicket)
    (hapart : ReleasedApart (st.set (some t) st.shared p')) :
    Sound (st.set (some t) st.shared p') := by
  refine h.change ?_ (h.owned_move hheld fun _ => rfl) hapart
  exact {
    stocked := h.stocked
    addresses := h.addresses
    serials := h.serials
    records := h.records
    prepared := hprep
    submit := hsub
    queue := rfl
    issued := rfl
    completed := rfl
    kept := fun c => .inl (.of_eq rfl)
    raised := fun c => .inr le_rfl
    remembered := fun s ticket hp => absurd hp (hrem s ticket)
    waiting := hwaiting
    waited := hwaited }

/-- A step within `AcquireStaging` or `ReleaseStaging`. -/
theorem Sound.allocate (h : Sound st) {blocks : List StagingBlock} {created handed : Nat}
    {outstanding : Finset Staging}
    (hs' : s' = { st.shared with
      blocks := blocks, created := created, handed := handed, outstanding := outstanding })
    (hstocked : Stocked blocks outstanding) (haddresses : ∀ b ∈ blocks, b.address < created)
    (hserials : ∀ r ∈ outstanding, r.serial < handed)
    (howned : OwnedBy (owns (st.set (some t) s' p')) outstanding) (hprep : p'.Prepared)
    (hsub : p'.submitting = none) (hrel : p'.releasing = none)
    (hrem : ∀ s ticket, st.own (some t) ≠ .remember s ticket)
    (hapart : ReleasedApart (st.set (some t) s' p')) : Sound (st.set (some t) s' p') := by
  subst hs'
  refine h.change ?_ howned hapart
  exact {
    stocked := hstocked
    addresses := haddresses
    serials := hserials
    records := h.records
    prepared := hprep
    submit := fun s hs => absurd (hsub.symm.trans hs) nofun
    queue := rfl
    issued := rfl
    completed := rfl
    kept := fun c => .inl (.of_eq rfl)
    raised := fun c => .inr le_rfl
    remembered := fun s ticket hp => absurd hp (hrem s ticket)
    waiting := by
      rintro c ticket (rfl | rfl) <;> cases hrel
    waited := by
      rintro c ticket rfl
      cases hrel }

/-- `AcquireStaging` returns a range to the thread. -/
theorem Sound.handOut (h : Sound st) {blocks : List StagingBlock} {range : Staging} {created : Nat}
    (hs' : s' = { st.shared.handOut blocks range with created := created })
    (hstocked : Stocked blocks (insert range st.shared.outstanding))
    (haddresses : ∀ b ∈ blocks, b.address < created) (hserial : range.serial = st.shared.handed)
    (hheld : p'.held.Perm (range :: (st.own (some t)).held)) (hprep : p'.Prepared)
    (hsub : p'.submitting = none) (hrel : p'.releasing = none)
    (hrem : ∀ s ticket, st.own (some t) ≠ .remember s ticket)
    (hapart : ReleasedApart (st.set (some t) s' p')) : Sound (st.set (some t) s' p') := by
  have hfresh : range ∉ st.shared.outstanding := by
    intro hin
    have := h.serials range hin
    omega
  refine h.allocate hs' hstocked haddresses ?_ ?_ hprep hsub hrel hrem hapart
  · intro r hr
    rcases Finset.mem_insert.1 hr with rfl | hr
    · exact hserial ▸ Nat.lt_succ_self _
    · exact (h.serials r hr).trans (Nat.lt_succ_self _)
  · subst hs'
    refine h.owned.hand (o := .thread (some t)) hfresh ?_ fun o ho => owns_of_ne ho fun _ => rfl
    rw [owns_self]
    exact hheld

theorem foldl_dropRange_addresses {blocks : List StagingBlock} {released : List Staging} :
    (released.foldl dropRange blocks).map StagingBlock.address =
      blocks.map StagingBlock.address := by
  induction released generalizing blocks with
  | nil => rfl
  | cons r rest ih => exact ih.trans dropRange_addresses

theorem address_releaseStaging {blocks : List StagingBlock}
    {released : List Staging} {b : StagingBlock}
    (hb : b ∈ releaseStaging stagingBlockBytes blocks released) :
    b.address ∈ blocks.map StagingBlock.address := by
  have hsub := (sweep_sublist _ _ _).subset hb
  exact foldl_dropRange_addresses ▸ List.mem_map_of_mem hsub

/-- `ReleaseStaging` takes ranges from the thread. -/
theorem Sound.giveBack (h : Sound st) {released : List Staging}
    (hheld : (st.own (some t)).held.Perm (released ++ p'.held)) (hprep : p'.Prepared)
    (hsub : p'.submitting = none) (hrel : p'.releasing = none)
    (hrem : ∀ s ticket, st.own (some t) ≠ .remember s ticket)
    (hapart : ReleasedApart (st.set (some t) (st.shared.giveBack stagingBlockBytes released) p')) :
    Sound (st.set (some t) (st.shared.giveBack stagingBlockBytes released) p') := by
  have hnd := hheld.nodup_iff.1 (h.owned.nodup (.thread (some t)))
  have hin : ∀ r ∈ released, r ∈ st.shared.outstanding := fun r hr =>
    h.owned.out (.thread (some t)) r (hheld.mem_iff.2 (List.mem_append_left _ hr))
  refine h.allocate rfl (h.stocked.release hin (List.nodup_append.1 hnd).1) ?_
    ?_ ?_ hprep hsub hrel hrem
    hapart
  · intro b hb
    obtain ⟨b', hb', haddress⟩ := List.mem_map.1 (address_releaseStaging hb)
    exact haddress ▸ h.addresses b' hb'
  · exact fun r hr => h.serials r (Finset.mem_sdiff.1 hr).1
  · refine h.owned.giveBack (o := .thread (some t)) ?_ fun o ho => owns_of_ne ho fun _ => rfl
    rw [owns_self]
    exact hheld

/-- A section that adds to the record of a command buffer, with ranges of the thread. -/
theorem Sound.record (h : Sound st) {f : CommandRecord → CommandRecord} {events : List Event}
    {moved : List Staging}
    (hstaging : (f (st.shared.commands.at c)).staging = (st.shared.commands.at c).staging ++ moved)
    (hsecondaries : (f (st.shared.commands.at c)).secondaries =
      (st.shared.commands.at c).secondaries)
    (hticket : (f (st.shared.commands.at c)).lastTicket = (st.shared.commands.at c).lastTicket)
    (hrecord : RecordSound (f (st.shared.commands.at c)))
    (hheld : (st.own (some t)).held.Perm (moved ++ p'.held)) (hprep : p'.Prepared)
    (hsub : p'.submitting = none) (hrel : p'.releasing = none)
    (hrem : ∀ s ticket, st.own (some t) ≠ .remember s ticket)
    (hapart : ReleasedApart (st.set (some t) (st.shared.record c f events) p')) :
    Sound (st.set (some t) (st.shared.record c f events) p') := by
  have hat : (st.shared.record c f events).commands.at c = f (st.shared.commands.at c) := at_insert
  have hother : ∀ d, d ≠ c →
      (st.shared.record c f events).commands.at d = st.shared.commands.at d :=
    fun d hd => at_insert_of_ne hd
  refine h.change ?_ ?_ hapart
  · exact {
      stocked := h.stocked
      addresses := h.addresses
      serials := h.serials
      records := fun d => by
        by_cases hd : d = c
        · rw [hd, hat]
          exact hrecord
        · rw [hother d hd]
          exact h.records d
      prepared := hprep
      submit := fun s hs => absurd (hsub.symm.trans hs) nofun
      queue := rfl
      issued := rfl
      completed := rfl
      kept := fun d => .inl (.insert (by rw [hstaging]; exact List.subset_append_left ..)
        (by rw [hsecondaries]; exact List.Subset.refl _) hticket.ge)
      raised := fun d => .inr (by
        by_cases hd : d = c
        · rw [hd, hat, hticket]
        · rw [hother d hd])
      remembered := fun s ticket hp => absurd hp (hrem s ticket)
      waiting := by
        rintro d ticket (rfl | rfl) <;> cases hrel
      waited := by
        rintro d ticket rfl
        cases hrel }
  · refine @OwnedBy.transfer _ _ _ _ (.thread (some t)) (.buffer c) h.owned nofun ?_ ?_
    · have hbuffer : owns (st.set (some t) (st.shared.record c f events) p') (.buffer c) =
          owns st (.buffer c) ++ moved := (congrArg CommandRecord.staging hat).trans hstaging
      rw [owns_self, hbuffer]
      have hswap : (p'.held ++ (owns st (.buffer c) ++ moved)).Perm
          (moved ++ p'.held ++ owns st (.buffer c)) := by
        rw [← List.append_assoc]
        exact (List.perm_append_comm).trans (by rw [List.append_assoc])
      exact hswap.trans (hheld.symm.append_right _)
    · rintro (u | d) hu hd
      · exact owns_thread fun heq => hu (heq ▸ rfl)
      · exact congrArg CommandRecord.staging (hother d fun heq => hd (heq ▸ rfl))

/-! The steps of a recording call. -/

section Recording

variable {r : Recording} {range : Staging} {deviceLocal : Bool}

theorem held_next : r.next.held = r.texels.toList ++ r.staged := by
  unfold Recording.next
  split <;> rfl

theorem submitting_next : r.next.submitting = none := by
  unfold Recording.next
  split <;> rfl

theorem releasing_next : r.next.releasing = none := by
  unfold Recording.next
  split <;> rfl

theorem prepared_next (hsized : r.Sized) (hstaged : r.gpu = none → r.staged = []) :
    r.next.Prepared := by
  unfold Recording.next
  split
  · next hg => exact ⟨hsized, hstaged hg⟩
  · exact hsized
  · next hg => exact ⟨hsized, by simp [hg]⟩

theorem submitting_acquired : (r.acquired deviceLocal range).submitting = none := by
  unfold Recording.acquired
  split <;> exact submitting_next

theorem releasing_acquired : (r.acquired deviceLocal range).releasing = none := by
  unfold Recording.acquired
  split <;> exact releasing_next

theorem held_acquired (hprep : (Place.acquire r deviceLocal).Prepared) :
    (r.acquired deviceLocal range).held.Perm (range :: (r.texels.toList ++ r.staged)) := by
  unfold Recording.acquired
  cases deviceLocal with
  | true =>
    simp only [if_true, held_next]
    rw [← List.append_assoc]
    exact List.perm_append_singleton ..
  | false =>
    obtain ⟨-, ht, hs⟩ := hprep
    simp only [Bool.false_eq_true, if_false, held_next, ht, hs]
    rfl

theorem prepared_acquired (hprep : (Place.acquire r deviceLocal).Prepared)
    (hbytes : range.bytes = alignStaging (r.size deviceLocal)) :
    (r.acquired deviceLocal range).Prepared := by
  unfold Recording.acquired
  cases deviceLocal with
  | true =>
    obtain ⟨hsized, hgpu⟩ := hprep
    exact prepared_next hsized fun hg => absurd (Option.map_eq_none_iff.1 hg) hgpu
  | false =>
    obtain ⟨-, -, hs⟩ := hprep
    refine prepared_next ?_ fun _ => hs
    rintro x ⟨⟩
    rw [hbytes]
    exact le_alignStaging _

theorem held_failed (hprep : (Place.acquire r deviceLocal).Prepared) :
    (r.failed deviceLocal).held = r.texels.toList ++ r.staged := by
  unfold Recording.failed
  cases deviceLocal with
  | true => rfl
  | false =>
    obtain ⟨-, ht, hs⟩ := hprep
    rw [ht, hs]
    rfl

theorem acquireFrom_addresses {blocks blocks' : List StagingBlock}
    {device : VkDevice} {size serial : Nat}
    (h : acquireFrom device deviceLocal size serial blocks = some (blocks', range)) :
    blocks'.map StagingBlock.address = blocks.map StagingBlock.address ∧
      range.bytes = alignStaging size ∧ range.serial = serial := by
  obtain ⟨before, block, after, rfl, rfl, -, rfl⟩ := acquireFrom_eq_some h
  exact ⟨by simp, rfl, rfl⟩

/-- A step that moves a recording call on. -/
theorem Sound.moveRecording (h : Sound st) (hheld : p'.held.Perm (st.own (some t)).held)
    (hprep : p'.Prepared) (hsub : p'.submitting = none) (hrel : p'.releasing = none)
    (hrem : ∀ s ticket, st.own (some t) ≠ .remember s ticket)
    (hapart : ReleasedApart (st.set (some t) st.shared p')) :
    Sound (st.set (some t) st.shared p') := by
  refine h.move hheld hprep (fun s hs => absurd (hsub.symm.trans hs) nofun) hrem ?_ ?_ hapart
  · rintro c ticket (rfl | rfl) <;> cases hrel
  · rintro c ticket rfl
    cases hrel

theorem Sound.fail (h : Sound st) (hprep : (Place.acquire r deviceLocal).Prepared)
    (hheld : (st.own (some t)).held = r.texels.toList ++ r.staged)
    (hrem : ∀ s ticket, st.own (some t) ≠ .remember s ticket)
    (hapart : ReleasedApart (st.set (some t) st.shared (r.failed deviceLocal))) :
    Sound (st.set (some t) st.shared (r.failed deviceLocal)) := by
  refine h.moveRecording ?_ ?_ ?_ ?_ hrem hapart
  · rw [hheld, held_failed hprep]
  all_goals cases deviceLocal <;> trivial

theorem acquire_sound (h : Sound st) (hp : st.own (some t) = .acquire r deviceLocal)
    (hstep : lockedStep stagingBlockBytes st.shared answers
      (.acquire r deviceLocal) = some (s', p'))
    (hapart : ReleasedApart (st.set (some t) s' p')) : Sound (st.set (some t) s' p') := by
  have hprep := h.prepared (some t)
  rw [hp] at hprep
  have hheld : (st.own (some t)).held = r.texels.toList ++ r.staged := by rw [hp]; rfl
  have hrem : ∀ s ticket, st.own (some t) ≠ .remember s ticket := by rw [hp]; exact nofun
  simp only [lockedStep] at hstep
  split at hstep
  · cases hstep
    exact h.fail hprep hheld hrem hapart
  · split at hstep
    · next blocks range hacquire =>
      cases hstep
      obtain ⟨haddresses, hbytes, hserial⟩ := acquireFrom_addresses hacquire
      have hfresh : range ∉ st.shared.outstanding := by
        intro hin
        have := h.serials range hin
        omega
      refine @Sound.handOut _ _ _ _ _ _ h _ _ st.shared.created rfl
        (h.stocked.acquire hacquire hfresh) ?_
        hserial ?_ (prepared_acquired hprep hbytes) submitting_acquired
          releasing_acquired hrem hapart
      · intro b hb
        have hin : b.address ∈ st.shared.blocks.map StagingBlock.address :=
          haddresses ▸ List.mem_map_of_mem hb
        obtain ⟨b', hb', heq⟩ := List.mem_map.1 hin
        exact heq ▸ h.addresses b' hb'
      · rw [hheld]
        exact held_acquired hprep
    · cases hstep
      refine h.moveRecording ?_ hprep rfl rfl hrem hapart
      rw [hheld]
      rfl

theorem push_sound (h : Sound st) (hp : st.own (some t) = .push r deviceLocal)
    (hstep : lockedStep stagingBlockBytes st.shared answers (.push r deviceLocal) = some (s', p'))
    (hapart : ReleasedApart (st.set (some t) s' p')) : Sound (st.set (some t) s' p') := by
  have hprep := h.prepared (some t)
  rw [hp] at hprep
  have hrem : ∀ s ticket, st.own (some t) ≠ .remember s ticket := by rw [hp]; exact nofun
  simp only [lockedStep] at hstep
  cases hstep
  refine @Sound.handOut _ _ _ _ _ _ h _ _ (st.shared.created + 1) rfl (h.stocked.push ?_) ?_ rfl ?_
    (prepared_acquired hprep rfl) submitting_acquired releasing_acquired hrem hapart
  · intro b hb
    exact (h.addresses b hb).ne
  · intro b hb
    rcases List.mem_append.1 hb with hb | hb
    · exact (h.addresses b hb).trans (Nat.lt_succ_self _)
    · obtain rfl := List.mem_singleton.1 hb
      exact Nat.lt_succ_self _
  · rw [hp]
    exact held_acquired hprep

theorem create_sound (h : Sound st) (hp : st.own (some t) = .create r deviceLocal)
    (hstep : freeStep stagingBlockBytes t st.shared answers (.create r deviceLocal) = some (s', p'))
    (hapart : ReleasedApart (st.set (some t) s' p')) : Sound (st.set (some t) s' p') := by
  have hprep := h.prepared (some t)
  rw [hp] at hprep
  have hheld : (st.own (some t)).held = r.texels.toList ++ r.staged := by rw [hp]; rfl
  have hrem : ∀ s ticket, st.own (some t) ≠ .remember s ticket := by rw [hp]; exact nofun
  simp only [freeStep] at hstep
  split at hstep <;> cases hstep
  · refine h.moveRecording ?_ hprep rfl rfl hrem hapart
    rw [hheld]
    rfl
  · exact h.fail hprep hheld hrem hapart

theorem stage_sound (h : Sound st) (hp : st.own (some t) = .stage r)
    (hstep : lockedStep stagingBlockBytes st.shared answers (.stage r) = some (s', p'))
    (hapart : ReleasedApart (st.set (some t) s' p')) : Sound (st.set (some t) s' p') := by
  have hprep := h.prepared (some t)
  rw [hp] at hprep
  have hrem : ∀ s ticket, st.own (some t) ≠ .remember s ticket := by rw [hp]; exact nofun
  simp only [lockedStep] at hstep
  cases hstep
  have hold := h.records r.commandBuffer
  refine @Sound.record _ _ _ _ _ _ h _ _ r.staged rfl rfl rfl ?_ ?_ ⟨hprep, rfl⟩ rfl rfl hrem hapart
  · refine ⟨fun p bytes hw => ?_, hold.keepOnly⟩
    obtain ⟨x, hx, hin⟩ := hold.targets p bytes hw
    exact ⟨x, List.mem_append_left _ hx, hin⟩
  · rw [hp]
    simp only [Place.held, List.append_nil]
    exact List.perm_append_comm

theorem attach_sound (h : Sound st) (hp : st.own (some t) = .attach r)
    (hstep : lockedStep stagingBlockBytes st.shared answers (.attach r) = some (s', p'))
    (hapart : ReleasedApart (st.set (some t) s' p')) : Sound (st.set (some t) s' p') := by
  have hprep := h.prepared (some t)
  rw [hp] at hprep
  obtain ⟨hsized, hstaged⟩ := hprep
  have hheld : (st.own (some t)).held = r.texels.toList := by
    rw [hp]
    simp [Place.held, hstaged]
  have hrem : ∀ s ticket, st.own (some t) ≠ .remember s ticket := by rw [hp]; exact nofun
  simp only [lockedStep] at hstep
  split at hstep
  · next hnone =>
    cases hstep
    simp only [Bool.and_eq_true, Option.isNone_iff_eq_none] at hnone
    refine h.moveRecording ?_ trivial rfl rfl hrem hapart
    rw [hheld, hnone.1.1]
    rfl
  · cases hstep
    refine h.record attachTo_staging attachTo_secondaries attachTo_lastTicket
      ((h.records _).attach hsized) ?_ trivial rfl rfl hrem hapart
    rw [hheld]
    simp [Place.held]

theorem dropStaged_sound (h : Sound st) (hp : st.own (some t) = .dropStaged r)
    (hstep : lockedStep stagingBlockBytes st.shared answers (.dropStaged r) = some (s', p'))
    (hapart : ReleasedApart (st.set (some t) s' p')) : Sound (st.set (some t) s' p') := by
  have hrem : ∀ s ticket, st.own (some t) ≠ .remember s ticket := by rw [hp]; exact nofun
  simp only [lockedStep] at hstep
  cases hstep
  refine h.giveBack ?_ ?_ ?_ ?_ hrem hapart
  · rw [hp]
    cases ht : r.texels <;> simp [Place.held, ht]
    exact (List.perm_append_singleton _ _).symm
  all_goals cases r.texels <;> trivial

end Recording

/-! The steps of a submit. -/

section Submits

variable {s : Submit}

/-- A step that moves a submit on. -/
theorem Sound.moveSubmit (h : Sound st) (hheld : (st.own (some t)).held = [])
    (hheld' : p'.held = []) (hprep : p'.Prepared)
    (hsub : ∀ s, p'.submitting = some s → SubmitSound st.shared.commands s)
    (hrel : p'.releasing = none) (hrem : ∀ s ticket, st.own (some t) ≠ .remember s ticket)
    (hapart : ReleasedApart (st.set (some t) st.shared p')) :
    Sound (st.set (some t) st.shared p') := by
  refine h.move (by rw [hheld, hheld']) hprep hsub hrem ?_ ?_ hapart
  · rintro c ticket (rfl | rfl) <;> cases hrel
  · rintro c ticket rfl
    cases hrel

theorem collected_cases {found : Collected} {timeline : VkDevice → Bool} :
    s.collected found timeline = .idle ∨ ∃ s', (s.collected found timeline = .fillTicket s' ∨
      s.collected found timeline = .apartTicket s' ∨ s.collected found timeline = .lock s' ∨
      s.collected found timeline = .issued s') ∧ s'.commandBuffers = s.commandBuffers ∧
        s'.uploads = s.uploads ∧ s'.blockCopies = found.blockCopies ∧
          (s'.work = found.uploads ∨ s'.work = s.work) := by
  unfold Submit.collected
  split
  · split
    · exact .inl rfl
    · exact .inr ⟨_, .inl rfl, rfl, rfl, rfl, .inr rfl⟩
  · next first rest hfound =>
    refine .inr ⟨{ s with
      work := found.uploads
      blockCopies := found.blockCopies
      async := s.allowAsync && (rest.all fun u => u.device == first.device) &&
        timeline first.device },
      .inr ?_, rfl, rfl, rfl, .inl rfl⟩
    dsimp only
    split
    · exact .inl rfl
    · split
      · exact .inr (.inl rfl)
      · exact .inr (.inr rfl)

theorem collect_sound (h : Sound st) (hp : st.own (some t) = .collect s)
    (hstep : lockedStep stagingBlockBytes st.shared answers (.collect s) = some (s', p'))
    (hapart : ReleasedApart (st.set (some t) s' p')) : Sound (st.set (some t) s' p') := by
  have hprep := h.prepared (some t)
  rw [hp] at hprep
  obtain ⟨hwork, huploads⟩ := hprep
  have hrem : ∀ s ticket, st.own (some t) ≠ .remember s ticket := by rw [hp]; exact nofun
  have hheld : (st.own (some t)).held = [] := by rw [hp]; rfl
  simp only [lockedStep] at hstep
  cases hstep
  have hfound :=
    (@foundIn_collectSubmit st.shared.commands answers.readable 0 s.commandBuffers).mono
    fun _ => covers_iff.2
  rcases @collected_cases s (collectSubmit st.shared.commands answers.readable 0 s.commandBuffers)
      answers.timeline with hidle | ⟨s₁, hnext, hcbs, hup, hcopies, hwork'⟩
  · rw [hidle] at hapart ⊢
    exact h.moveSubmit hheld rfl trivial nofun rfl hrem hapart
  · have hcovers : Covers st.shared.commands s₁ = Covers st.shared.commands s := by
      funext c
      simp only [Covers, hcbs]
    have hsound : SubmitSound st.shared.commands s₁ := by
      refine .collected h (hcovers ▸ hfound) ?_ (by rw [hcopies]; exact List.Subset.refl _) ?_
      · rcases hwork' with heq | heq
        · rw [heq]
          exact List.Subset.refl _
        · rw [heq, hwork]
          exact List.nil_subset _
      · rw [hup, huploads]
        exact List.nil_subset _
    rcases hnext with hnext | hnext | hnext | hnext <;> rw [hnext] at hapart ⊢
    all_goals
      refine h.moveSubmit hheld rfl trivial ?_ rfl hrem hapart
      rintro _ ⟨⟩
      exact hsound

/-- A place of a submit whose next place has the same submit. -/
theorem Sound.passSubmit (h : Sound st) (hs : (st.own (some t)).submitting = some s)
    (hheld : (st.own (some t)).held = []) (hheld' : p'.held = []) (hprep : p'.Prepared)
    (hsub : p'.submitting = some s ∨ p'.submitting = none) (hrel : p'.releasing = none)
    (hrem : ∀ s ticket, st.own (some t) ≠ .remember s ticket)
    (hapart : ReleasedApart (st.set (some t) st.shared p')) :
    Sound (st.set (some t) st.shared p') := by
  refine h.moveSubmit hheld hheld' hprep ?_ hrel hrem hapart
  intro s₁ hs₁
  rcases hsub with hsub | hsub
  · cases hsub.symm.trans hs₁
    exact h.submits _ s hs
  · cases hsub.symm.trans hs₁

theorem compare_sound (h : Sound st) (hp : st.own (some t) = .apartCompare s ticket)
    (hstep : freeStep stagingBlockBytes t st.shared answers
      (.apartCompare s ticket) = some (s', p'))
    (hapart : ReleasedApart (st.set (some t) s' p')) : Sound (st.set (some t) s' p') := by
  have hrem : ∀ s ticket, st.own (some t) ≠ .remember s ticket := by rw [hp]; exact nofun
  have hs := h.submits (some t) s (by rw [hp]; rfl)
  simp only [freeStep] at hstep
  cases hstep
  refine h.moveSubmit (by rw [hp]; rfl) rfl trivial ?_ rfl hrem hapart
  rintro _ ⟨⟩
  split
  · refine ⟨?_, hs.keepOnly, hs.uploads⟩
    rintro p bytes (hw | ⟨c, hc, -⟩)
    · exact hs.targets p bytes (.inl hw)
    · cases hc
  · exact hs

theorem lock_sound (h : Sound st) (hp : st.own (some t) = .lock s)
    (hstep : freeStep stagingBlockBytes t st.shared answers (.lock s) = some (s', p'))
    (hapart : ReleasedApart (st.set (some t) s' p')) : Sound (st.set (some t) s' p') := by
  have hs := h.submits (some t) s (by rw [hp]; rfl)
  simp only [freeStep] at hstep
  split at hstep
  · cases hstep
  · cases hstep
    refine h.change ?_ (h.owned_move (by rw [hp]; rfl) fun _ => rfl) hapart
    exact {
      stocked := h.stocked
      addresses := h.addresses
      serials := h.serials
      records := h.records
      prepared := trivial
      submit := by
        rintro _ ⟨⟩
        exact ⟨hs.targets, hs.keepOnly, fun u hu => (List.mem_filter.1 hu).1⟩
      queue := rfl
      issued := rfl
      completed := rfl
      kept := fun c => .inl (.of_eq rfl)
      raised := fun c => .inr le_rfl
      remembered := by
        rw [hp]
        exact nofun
      waiting := nofun
      waited := nofun }

/-- The batch is queued: its submit is about to remember the ticket. -/
theorem enqueue_sound (h : Sound st) (hp : st.own (some t) = .enqueue s)
    (hstep : freeStep stagingBlockBytes t st.shared answers (.enqueue s) = some (s', p'))
    (hapart : ReleasedApart (st.set (some t) s' p')) : Sound (st.set (some t) s' p') := by
  have hs := h.submits (some t) s (by rw [hp]; rfl)
  simp only [freeStep] at hstep
  cases hstep
  set st' : State τ := st.set (some t) { st.shared with
    issuedTicket := st.shared.issuedTicket + 1
    queue := st.shared.queue ++ [⟨st.shared.issuedTicket + 1, s.uploads, s.blockCopies⟩] }
    (.remember s (st.shared.issuedTicket + 1)) with hst'
  have hown : ∀ u, u ≠ some t → st'.own u = st.own u := fun u hu => System.set_own_of_ne hu
  have hself : st'.own (some t) = .remember s (st.shared.issuedTicket + 1) := System.set_own_self
  have hpend : State.pending st' =
      State.pending st ++ [⟨st.shared.issuedTicket + 1, s.uploads, s.blockCopies⟩] := by
    rw [State.pending, State.pending, hown none nofun]
    split <;> rfl
  have hlen : (State.pending st').length = (State.pending st).length + 1 := by simp [hpend]
  refine {
    apart := hapart
    stocked := h.stocked
    addresses := h.addresses
    serials := h.serials
    owned := h.owned_move (by rw [hp]; rfl) fun _ => rfl
    records := h.records
    prepared := ?_
    submits := ?_
    pending := ?_
    issued := ?_
    tickets := ?_
    waiting := ?_
    waited := ?_ }
  · intro u
    by_cases hu : u = some t
    · rw [hu, hself]
      trivial
    · rw [hown u hu]
      exact h.prepared u
  · intro u s₁ hs₁
    by_cases hu : u = some t
    · rw [hu, hself] at hs₁
      cases hs₁
      exact hs
    · rw [hown u hu] at hs₁
      exact h.submits u s₁ hs₁
  · intro batch hb p bytes hw
    rw [hpend] at hb
    rcases List.mem_append.1 hb with hb | hb
    · obtain ⟨c, r, hr, hin, hdone | ⟨u, s₁, hu, hrest⟩⟩ := h.pending batch hb p bytes hw
      · exact ⟨c, r, hr, hin, .inl hdone⟩
      · refine ⟨c, r, hr, hin, .inr ⟨u, s₁, ?_, hrest⟩⟩
        rw [hown u]
        · exact hu
        · rintro rfl
          rw [hp] at hu
          cases hu
    · obtain rfl := List.mem_singleton.1 hb
      have hwork : Writes s.work s.blockCopies p bytes := by
        rcases hw with ⟨u, hu, hrest⟩ | hw
        · exact .inl ⟨u, hs.uploads hu, hrest⟩
        · exact .inr hw
      obtain ⟨c, hcov, r, hr, hin⟩ := hs.targets p bytes hwork
      refine ⟨c, r, hr, hin, .inr ⟨some t, s, hself, ?_, hcov⟩⟩
      -- A batch that writes somewhere is one the GPU waits for.
      simp only [Submit.gpuWaits, Bool.or_eq_true, Bool.not_eq_true', List.any_eq_true]
      rcases hwork with ⟨u, hu, htarget, -⟩ | ⟨copy, hcopy, -⟩
      · refine .inr ⟨u, hu, ?_⟩
        cases hkeep : u.keepOnly with
        | false => rfl
        | true => cases (hs.keepOnly u hu hkeep).symm.trans htarget
      · left
        cases hcopies : s.blockCopies with
        | nil =>
          rw [hcopies] at hcopy
          cases hcopy
        | cons => rfl
  · have := h.issued
    rw [hlen]
    change st.shared.issuedTicket + 1 = st.shared.completedTicket + (st.pending.length + 1)
    omega
  · have hissued := h.issued
    rw [hlen, List.range'_concat, hpend, List.map_append, h.tickets]
    have heq : st.shared.issuedTicket + 1 = st.shared.completedTicket + 1 + 1 *
        st.pending.length := by omega
    rw [List.map_singleton, heq]
    rfl
  · intro u c ticket hu
    by_cases heq : u = some t
    · rw [heq, hself] at hu
      rcases hu with hu | hu <;> cases hu
    · rw [hown u heq] at hu
      exact h.waiting u c ticket hu
  · intro u c ticket hu
    by_cases heq : u = some t
    · rw [heq, hself] at hu
      cases hu
    · rw [hown u heq] at hu
      exact h.waited u c ticket hu

theorem remember_sound (h : Sound st) (hp : st.own (some t) = .remember s ticket)
    (hstep : freeStep stagingBlockBytes t st.shared answers (.remember s ticket) = some (s', p'))
    (hapart : ReleasedApart (st.set (some t) s' p')) : Sound (st.set (some t) s' p') := by
  simp only [freeStep] at hstep
  cases hstep
  have hstaging : ∀ c, ((st.shared.remember s ticket).commands.at c).staging =
      (st.shared.commands.at c).staging := by
    intro c
    rcases @remember_cases _ st c ticket s with heq | ⟨-, heq⟩ <;> rw [heq]
    rfl
  refine h.change ?_ (h.owned_move (by rw [hp]; rfl) hstaging) hapart
  exact {
    stocked := h.stocked
    addresses := h.addresses
    serials := h.serials
    records := fun c => by
      have hold := h.records c
      rcases @remember_cases _ st c ticket s with heq | ⟨-, heq⟩ <;> rw [heq]
      · exact hold
      · exact ⟨hold.targets, hold.keepOnly⟩
    prepared := trivial
    submit := nofun
    queue := rfl
    issued := rfl
    completed := rfl
    kept := fun c => by
      left
      rcases @remember_cases _ st c ticket s with heq | ⟨-, heq⟩
      · exact .of_eq heq
      · refine ⟨?_, ?_, ?_⟩ <;> rw [heq]
        · exact List.Subset.refl _
        · exact List.Subset.refl _
        · exact Nat.le_max_left ..
    raised := fun c => by
      rcases @remember_cases _ st c ticket s with heq | ⟨hcov, -⟩
      · exact .inr (by rw [heq])
      · exact .inl ⟨s, by rw [hp]; rfl, hcov⟩
    remembered := by
      rintro s₁ ticket₁ hp₁ hw c hcov hin
      cases hp.symm.trans hp₁
      exact at_remember hcov hw hin
    waiting := nofun
    waited := nofun }

theorem execute_sound (h : Sound st) {commandBuffer : VkCommandBuffer}
    {secondaries : List VkCommandBuffer}
    (hp : st.own (some t) = .execute commandBuffer secondaries)
    (hstep : lockedStep stagingBlockBytes st.shared answers (.execute commandBuffer secondaries) =
      some (s', p'))
    (hapart : ReleasedApart (st.set (some t) s' p')) : Sound (st.set (some t) s' p') := by
  simp only [lockedStep] at hstep
  cases hstep
  have hexec : ∀ c, Executed st.shared.commands
      (cmdExecuteCommands st.shared.commands commandBuffer secondaries) c := fun c =>
    executed_cmdExecuteCommands
  refine h.change ?_ (h.owned_move (by rw [hp]; rfl) fun c => (hexec c).staging) hapart
  exact {
    stocked := h.stocked
    addresses := h.addresses
    serials := h.serials
    records := fun c => by
      have hold := h.records c
      refine ⟨?_, ?_⟩
      · rw [(hexec c).uploads, (hexec c).blockCopies, (hexec c).staging]
        exact hold.targets
      · rw [(hexec c).uploads]
        exact hold.keepOnly
    prepared := trivial
    submit := nofun
    queue := rfl
    issued := rfl
    completed := rfl
    kept :=
      fun c => .inl ⟨by rw [(hexec c).staging]; exact List.Subset.refl _, (hexec c).secondaries,
        (hexec c).lastTicket.ge⟩
    raised := fun c => .inr (hexec c).lastTicket.le
    remembered := by
      rw [hp]
      exact nofun
    waiting := nofun
    waited := nofun }

end Submits

/-! The steps of a release. -/

theorem releaseTicket_sound (h : Sound st) (hp : st.own (some t) = .releaseTicket c)
    (hstep : lockedStep stagingBlockBytes st.shared answers (.releaseTicket c) = some (s', p'))
    (hapart : ReleasedApart (st.set (some t) s' p')) : Sound (st.set (some t) s' p') := by
  have hrem : ∀ s ticket, st.own (some t) ≠ .remember s ticket := by rw [hp]; exact nofun
  simp only [lockedStep] at hstep
  split at hstep
  · cases hstep
    exact h.move (by rw [hp]; rfl) trivial nofun hrem nofun nofun hapart
  · next record hl =>
    cases hstep
    refine h.move (by rw [hp]; rfl) trivial nofun hrem ?_ nofun hapart
    rintro d ticket (heq | hnone)
    · cases heq
      rw [at_of_lookup hl]
    · cases hnone

theorem releaseWait_sound (h : Sound st) (hp : st.own (some t) = .releaseWait c ticket)
    (hstep : freeStep stagingBlockBytes t st.shared answers (.releaseWait c ticket) = some (s', p'))
    (hapart : ReleasedApart (st.set (some t) s' p')) : Sound (st.set (some t) s' p') := by
  have hrem : ∀ s ticket, st.own (some t) ≠ .remember s ticket := by rw [hp]; exact nofun
  simp only [freeStep] at hstep
  split at hstep
  · next hwaited =>
    cases hstep
    refine h.move (by rw [hp]; rfl) trivial nofun hrem ?_ ?_ hapart
    · rintro d ticket (hnone | heq)
      · cases hnone
      · cases heq
        exact h.waiting _ _ _ (.inl hp)
    · rintro d ticket heq
      cases heq
      exact le_completed_of_waited hwaited
  · cases hstep

theorem releaseErase_sound (h : Sound st) (hp : st.own (some t) = .releaseErase c ticket)
    (hstep : lockedStep stagingBlockBytes st.shared answers
      (.releaseErase c ticket) = some (s', p'))
    (hapart : ReleasedApart (st.set (some t) s' p')) : Sound (st.set (some t) s' p') := by
  have hrem : ∀ s ticket, st.own (some t) ≠ .remember s ticket := by rw [hp]; exact nofun
  simp only [lockedStep] at hstep
  split at hstep
  · cases hstep
    exact h.move (by rw [hp]; rfl) trivial nofun hrem nofun nofun hapart
  · next record hl =>
    cases hstep
    refine h.change ?_ ?_ hapart
    · exact {
        stocked := h.stocked
        addresses := h.addresses
        serials := h.serials
        records := fun d => by
          by_cases hd : d = c
          · rw [hd, at_erase]
            refine ⟨?_, nofun⟩
            rintro p bytes (⟨_, hin, -⟩ | ⟨_, hin, -⟩) <;> cases hin
          · rw [at_erase_of_ne hd]
            exact h.records d
        prepared := trivial
        submit := nofun
        queue := rfl
        issued := rfl
        completed := rfl
        kept := fun d => by
          by_cases hd : d = c
          · exact .inr ⟨ticket, hd ▸ hp⟩
          · exact .inl (.of_eq (at_erase_of_ne hd))
        raised := fun d => by
          right
          by_cases hd : d = c
          · rw [hd, at_erase]
            exact Nat.zero_le _
          · rw [at_erase_of_ne hd]
        remembered := fun s ticket hp => absurd hp (hrem s ticket)
        waiting := nofun
        waited := nofun }
    · refine @OwnedBy.transfer _ _ _ _ (.thread (some t)) (.buffer c) h.owned nofun ?_ ?_
      · have hbuffer : owns (st.set (some t) { st.shared with
            commands := st.shared.commands.erase c
            hasCommands := !(st.shared.commands.erase c).entries.isEmpty
            history := Function.update st.shared.history c [] }
            (.releaseStaging record.staging)) (.buffer c) = [] :=
          congrArg CommandRecord.staging at_erase
        have hold : owns st (.buffer c) = record.staging :=
          congrArg CommandRecord.staging (at_of_lookup hl)
        have hthread : owns st (.thread (some t)) = [] := by
          simp only [owns, hp]
          rfl
        rw [owns_self, hbuffer, hold, hthread, List.append_nil, List.nil_append]
        rfl
      · rintro (u | d) hu hd
        · exact owns_thread fun heq => hu (heq ▸ rfl)
        · exact congrArg CommandRecord.staging (at_erase_of_ne fun heq => hd (heq ▸ rfl))

/-! Every step. -/

theorem lockedStep_sound (h : Sound st)
    (hstep : lockedStep stagingBlockBytes st.shared answers (st.own (some t)) = some (s', p'))
    (hapart : ReleasedApart (st.set (some t) s' p')) : Sound (st.set (some t) s' p') := by
  cases hp : st.own (some t) <;> rw [hp] at hstep
  case acquire r deviceLocal => exact acquire_sound h hp hstep hapart
  case push r deviceLocal => exact push_sound h hp hstep hapart
  case stage r => exact stage_sound h hp hstep hapart
  case attach r => exact attach_sound h hp hstep hapart
  case dropStaged r => exact dropStaged_sound h hp hstep hapart
  case dropTexels texels =>
    simp only [lockedStep] at hstep
    cases hstep
    exact h.giveBack (by rw [hp]; rfl) trivial rfl rfl (by rw [hp]; exact nofun) hapart
  case releaseStaging doomed =>
    simp only [lockedStep] at hstep
    cases hstep
    exact h.giveBack (by rw [hp]; simp [Place.held]) trivial rfl rfl
      (by rw [hp]; exact nofun) hapart
  case execute commandBuffer secondaries => exact execute_sound h hp hstep hapart
  case collect s => exact collect_sound h hp hstep hapart
  case apartTicket s =>
    simp only [lockedStep] at hstep
    cases hstep
    exact h.passSubmit (s := s) (by rw [hp]; rfl) (by rw [hp]; rfl) rfl trivial (.inl rfl) rfl
      (by rw [hp]; exact nofun) hapart
  case fillTicket s =>
    simp only [lockedStep] at hstep
    cases hstep
    exact h.passSubmit (s := s) (by rw [hp]; rfl) (by rw [hp]; rfl) rfl trivial (.inl rfl) rfl
      (by rw [hp]; exact nofun) hapart
  case releaseTicket c => exact releaseTicket_sound h hp hstep hapart
  case releaseErase c ticket => exact releaseErase_sound h hp hstep hapart
  all_goals cases hstep

theorem freeStep_sound (h : Sound st)
    (hstep : freeStep stagingBlockBytes t st.shared answers (st.own (some t)) = some (s', p'))
    (hapart : ReleasedApart (st.set (some t) s' p')) : Sound (st.set (some t) s' p') := by
  cases hp : st.own (some t) <;> rw [hp] at hstep
  case create r deviceLocal => exact create_sound h hp hstep hapart
  case apartCompare s ticket => exact compare_sound h hp hstep hapart
  case issued s =>
    simp only [freeStep] at hstep
    cases hstep
    exact h.passSubmit (s := s) (by rw [hp]; rfl) (by rw [hp]; rfl) rfl trivial (.inl rfl) rfl
      (by rw [hp]; exact nofun) hapart
  case wait s ticket =>
    simp only [freeStep] at hstep
    split at hstep <;> cases hstep
    exact h.passSubmit (s := s) (by rw [hp]; rfl) (by rw [hp]; rfl) rfl trivial (.inr rfl) rfl
      (by rw [hp]; exact nofun) hapart
  case lock s => exact lock_sound h hp hstep hapart
  case enqueue s => exact enqueue_sound h hp hstep hapart
  case remember s ticket => exact remember_sound h hp hstep hapart
  case releaseWait c ticket => exact releaseWait_sound h hp hstep hapart
  all_goals cases hstep

/-- The start of a call. -/
theorem begin_sound (h : Sound st) {call : Call} (hp : st.own (some t) = .idle)
    (hfresh : ∀ r, call = .record r → r.Fresh)
    (hapart : ReleasedApart (st.set (some t) st.shared (begin st.shared call))) :
    Sound (st.set (some t) st.shared (begin st.shared call)) := by
  have hrem : ∀ s ticket, st.own (some t) ≠ .remember s ticket := by rw [hp]; exact nofun
  cases call with
  | record r =>
    obtain ⟨-, -, ht, hs⟩ := hfresh r rfl
    have hsized : r.Sized := by
      intro x hx
      rw [ht] at hx
      cases hx
    have hnone : r.texels.toList ++ r.staged = [] := by rw [ht, hs]; rfl
    simp only [begin] at hapart ⊢
    split at hapart
    · next hhost =>
      rw [if_pos hhost]
      exact h.moveRecording (by rw [hp]; exact .of_eq hnone) ⟨hsized, ht, hs⟩ rfl rfl hrem hapart
    · next hhost =>
      rw [if_neg hhost]
      exact h.moveRecording (by rw [hp, held_next]; exact .of_eq hnone)
        (prepared_next hsized fun _ => hs)
        submitting_next releasing_next hrem hapart
  | execute commandBuffer secondaries =>
    simp only [begin] at hapart ⊢
    refine h.moveRecording ?_ ?_ ?_ ?_ hrem hapart
    · rw [hp]
      split <;> rfl
    all_goals split <;> trivial
  | submit commandBuffers allowAsync =>
    simp only [begin] at hapart ⊢
    split at hapart
    · next hc =>
      rw [if_pos hc]
      refine h.moveSubmit (by rw [hp]; rfl) rfl ⟨rfl, rfl⟩ ?_ rfl hrem hapart
      rintro _ ⟨⟩
      exact submitSound_of_empty rfl rfl rfl
    · next hc =>
      rw [if_neg hc]
      exact h.moveRecording (by rw [hp]) trivial rfl rfl hrem hapart
  | release commandBuffer =>
    simp only [begin] at hapart ⊢
    split at hapart
    · next hc =>
      rw [if_pos hc]
      exact h.move (by rw [hp]; rfl) trivial nofun hrem nofun nofun hapart
    · next hc =>
      rw [if_neg hc]
      exact h.moveRecording (by rw [hp]) trivial rfl rfl hrem hapart

/-- What a step of the dispatcher does to the pending batches. -/
theorem dispatch_pending (h : Sound st) (hstep : dispatch st.shared (st.own none) = some (s', p')) :
    ((State.pending (st.set none s' p') = st.pending ∧
      s'.completedTicket = st.shared.completedTicket) ∨
      ∃ batch, st.pending = batch :: State.pending (st.set none s' p') ∧
        s'.completedTicket = st.shared.completedTicket + 1 ∧
          batch.ticket = s'.completedTicket) := by
  rcases dispatch_cases hstep with ⟨batch, rest, hp, hq, rfl, rfl⟩ | ⟨batch, hp, rfl, rfl⟩
  · left
    simp only [State.pending, System.set_own_self, System.set_shared, hp, hq, and_self]
  · right
    have hpend : st.pending = batch :: State.pending (st.set none
        { st.shared with completedTicket := batch.ticket } .idle) := by
      simp only [State.pending, System.set_own_self, System.set_shared, hp]
    have htickets := h.tickets
    rw [hpend, List.map_cons, List.length_cons, List.range'_succ] at htickets
    have hticket := (List.cons.inj htickets).1
    exact ⟨batch, hpend, hticket, rfl⟩

theorem dispatch_sound (h : Sound st) (hstep : dispatch st.shared (st.own none) = some (s', p'))
    (hapart : ReleasedApart (st.set none s' p')) : Sound (st.set none s' p') := by
  have hpending := dispatch_pending h hstep
  -- Neither place of the dispatcher has ranges, a submit or a release.
  have hplaces : (p' = .idle ∨ ∃ batch, p' = .running batch) ∧
      (st.own none = .idle ∨ ∃ batch, st.own none = .running batch) ∧
      s' = { st.shared with queue := s'.queue, completedTicket := s'.completedTicket } := by
    rcases dispatch_cases hstep with ⟨batch, rest, hp, hq, rfl, rfl⟩ | ⟨batch, hp, rfl, rfl⟩
    · exact ⟨.inr ⟨batch, rfl⟩, .inl hp, rfl⟩
    · exact ⟨.inl rfl, .inr ⟨batch, hp⟩, rfl⟩
  obtain ⟨hp', hp, hs'⟩ := hplaces
  generalize hq : s'.queue = queue at hs'
  generalize hc : s'.completedTicket = completed at hs' hpending
  subst hs'
  have hown : ∀ u, u ≠ none →
      (st.set none { st.shared with queue := queue, completedTicket := completed }
        p').own u = st.own u := fun u hu => System.set_own_of_ne hu
  have hle : st.shared.completedTicket ≤ completed := by
    rcases hpending with ⟨-, heq⟩ | ⟨-, -, heq, -⟩ <;> omega
  refine {
    apart := hapart
    stocked := h.stocked
    addresses := h.addresses
    serials := h.serials
    owned := ?_
    records := h.records
    prepared := ?_
    submits := ?_
    pending := ?_
    issued := ?_
    tickets := ?_
    waiting := ?_
    waited := ?_ }
  · refine h.owned.congr ?_
    rintro (u | c)
    · by_cases hu : u = none
      · subst hu
        simp only [owns, System.set_own_self]
        rcases hp' with rfl | ⟨b, rfl⟩ <;> rcases hp with hp | ⟨b', hp⟩ <;> rw [hp] <;> rfl
      · simp only [owns, hown u hu, List.Perm.refl]
    · exact .refl _
  · intro u
    by_cases hu : u = none
    · subst hu
      rw [System.set_own_self]
      rcases hp' with rfl | ⟨b, rfl⟩ <;> trivial
    · rw [hown u hu]
      exact h.prepared u
  · intro u s hs
    by_cases hu : u = none
    · subst hu
      rw [System.set_own_self] at hs
      rcases hp' with rfl | ⟨b, rfl⟩ <;> cases hs
    · rw [hown u hu] at hs
      exact h.submits u s hs
  · intro batch hb p bytes hw
    have hin : batch ∈ st.pending := by
      rcases hpending with ⟨heq, -⟩ | ⟨first, heq, -⟩
      · exact heq ▸ hb
      · exact heq ▸ .tail _ hb
    obtain ⟨c, r, hr, hinside, hdone | ⟨u, s, hu, hrest⟩⟩ := h.pending batch hin p bytes hw
    · exact ⟨c, r, hr, hinside, .inl hdone⟩
    · refine ⟨c, r, hr, hinside, .inr ⟨u, s, ?_, hrest⟩⟩
      rw [hown u]
      · exact hu
      · rintro rfl
        rcases hp with hp | ⟨b, hp⟩ <;> rw [hp] at hu <;> cases hu
  · have hissued := h.issued
    simp only [System.set_shared]
    rcases hpending with ⟨heq, rfl⟩ | ⟨first, heq, rfl, -⟩
    · rw [heq]
      exact hissued
    · rw [heq, List.length_cons] at hissued
      exact hissued.trans (Nat.add_right_comm _ _ 1)
  · have htickets := h.tickets
    simp only [System.set_shared]
    rcases hpending with ⟨heq, rfl⟩ | ⟨first, heq, rfl, -⟩
    · rw [heq]
      exact htickets
    · rw [heq, List.map_cons, List.length_cons, List.range'_succ] at htickets
      exact (List.cons.inj htickets).2
  · intro u c ticket hu
    by_cases heq : u = none
    · subst heq
      rw [System.set_own_self] at hu
      rcases hp' with rfl | ⟨b, rfl⟩ <;> rcases hu with hu | hu <;> cases hu
    · rw [hown u heq] at hu
      exact h.waiting u c ticket hu
  · intro u c ticket hu
    by_cases heq : u = none
    · subst heq
      rw [System.set_own_self] at hu
      rcases hp' with rfl | ⟨b, rfl⟩ <;> cases hu
    · rw [hown u heq] at hu
      exact (h.waited u c ticket hu).trans hle

theorem act_sound (h : Sound st) {t : Option τ} {a : Act}
    (hact : act stagingBlockBytes t st.shared (st.own t) a = some (s', p'))
    (hapart : ReleasedApart (st.set t s' p')) : Sound (st.set t s' p') := by
  rcases act_cases hact with
      ⟨rfl, hstep⟩ | ⟨u, rfl,
        ⟨call, hp, hfresh, rfl, rfl⟩ | ⟨answers, hstep⟩ | ⟨answers, hstep⟩⟩
  · exact dispatch_sound h hstep hapart
  · exact begin_sound h hp hfresh hapart
  · exact lockedStep_sound h hstep hapart
  · exact freeStep_sound h hstep hapart

theorem reachable_sound {imageTickets : VkImage → Option Nat}
    (h : (system stagingBlockBytes imageTickets).Reachable st) : Sound st := by
  refine h.invariant (I := Sound) ?_ ?_
  · rintro _ rfl
    exact initial_sound
  · rintro st ⟨t, a⟩ _ ⟨⟨s', p', hact, rfl⟩, hapart⟩ hs
    exact act_sound hs hact hapart

/-- Only the dispatcher completes a batch, the first that is pending. -/
theorem act_completed (h : Sound st) {t : Option τ} {a : Act}
    (hact : act stagingBlockBytes t st.shared (st.own t) a = some (s', p')) :
    s'.completedTicket = st.shared.completedTicket ∨
      ∃ batch, st.pending = batch :: State.pending (st.set t s' p') ∧
        s'.completedTicket = st.shared.completedTicket + 1 ∧ batch.ticket = s'.completedTicket := by
  rcases act_cases hact with
      ⟨rfl, hstep⟩ | ⟨u, rfl, ⟨call, -, -, rfl, -⟩ | ⟨answers, hstep⟩ | ⟨answers, hstep⟩⟩
  · rcases dispatch_pending h hstep with ⟨-, heq⟩ | hcompleted
    · exact .inl heq
    · exact .inr hcompleted
  · exact .inl rfl
  · exact .inl (lockedStep_completed hstep)
  · exact .inl (freeStep_blocks hstep).2

/-- In every run. The ranges that are out are aligned, in a block, and apart from each other; a
block counts them, and goes back to its front or away only when there are none. Batches complete one
by one in the order of their tickets. No range goes back that a pending batch still writes to. -/
theorem staging_safe {imageTickets : VkImage → Option Nat} {st' : State τ} {a : Option τ × Act}
    (hst : (system stagingBlockBytes imageTickets).Reachable st)
    (hstep : (system stagingBlockBytes imageTickets).step st a st') :
    (∀ r ∈ st.shared.outstanding, kStagingAlignment ∣ r.offset ∧
      ∃ block ∈ st.shared.blocks, block.address = r.block ∧ r.offset + r.bytes ≤ block.capacity) ∧
    (∀ r ∈ st.shared.outstanding, ∀ r' ∈ st.shared.outstanding, r ≠ r' → r.Apart r') ∧
    (∀ block ∈ st.shared.blocks, block.live = rangesIn st.shared.outstanding block.address) ∧
    (∀ block ∈ st.shared.blocks,
      (∃ block' ∈ st'.shared.blocks, block'.address = block.address ∧ block.head ≤ block'.head) ∨
        rangesIn st'.shared.outstanding block.address = 0) ∧
    st.pending.map DecodeBatch.ticket =
      List.range' (st.shared.completedTicket + 1) st.pending.length ∧
    (st'.shared.completedTicket = st.shared.completedTicket ∨
      ∃ batch, st.pending = batch :: st'.pending ∧
        st'.shared.completedTicket = st.shared.completedTicket + 1 ∧
          batch.ticket = st'.shared.completedTicket) ∧
    ∀ r ∈ st.shared.outstanding, r ∉ st'.shared.outstanding → ∀ batch ∈ st.pending, ∀ p bytes,
      batch.Writes p bytes → ¬ Meets p bytes r := by
  have hs := reachable_sound hst
  obtain ⟨⟨s', p', hact, rfl⟩, -⟩ := hstep
  refine ⟨?_, hs.stocked.apart, hs.stocked.live, ?_, hs.tickets, act_completed hs hact, ?_⟩
  · intro r hr
    obtain ⟨block, hb, haddress, hle⟩ := hs.stocked.inside r hr
    exact ⟨hs.stocked.aligned r hr, block, hb, haddress, hle.trans block.head_le⟩
  · intro block hb
    rcases act_blocks hact with ⟨hkeeps, -⟩ | ⟨released, ⟨rest, hperm⟩, rfl⟩
    · exact .inl (hkeeps block hb)
    · have hnd := List.nodup_append.1 (hperm.nodup_iff.1 (hs.owned.nodup (.thread a.1)))
      have hin : ∀ r ∈ released, r ∈ st.shared.outstanding := fun r hr =>
        hs.owned.out (.thread a.1) r (hperm.mem_iff.2 (List.mem_append_left _ hr))
      by_cases hout : rangesIn (st.shared.outstanding \ released.toFinset) block.address = 0
      · exact .inr hout
      · obtain ⟨b, hbin, haddress, hhead⟩ :=
          @Stocked.release_keeps _ _ _ stagingBlockBytes _ hs.stocked hin hnd.1 hb hout
        exact .inl ⟨b, hbin, haddress, hhead.ge⟩
  · intro r hr hgone batch hbatch p bytes hw
    rcases act_blocks hact with ⟨-, hkeeps⟩ | ⟨released, ⟨rest, hperm⟩, rfl⟩
    · exact absurd (hkeeps hr) hgone
    · have hrel : r ∈ released := by
        by_contra hnot
        exact hgone (Finset.mem_sdiff.2 ⟨hr, fun hin => hnot (List.mem_toFinset.1 hin)⟩)
      exact hs.not_meets_held hbatch hw (hperm.mem_iff.2 (List.mem_append_left _ hrel))

/-- A thread records an upload and submits it; the dispatcher takes the batch while the thread still
remembers its ticket. -/
def submitRun : List (Option Unit × Act) :=
  let thread (act : Act) : Option Unit × Act := (some (), act)
  [thread
    (.call (.record
      { device := 1, commandBuffer := 5, uploads := [{ targetBytes := 100 }], host := true })),
    thread (.step {}), thread (.step {}), thread (.step {}), thread (.step {}),
    thread (.call (.submit [5] true)), thread (.step {}), thread (.step {}), thread (.step {}),
    (none, .step {})]

/-- A step into a state where nothing is released. -/
def quietNext (st : State Unit) (a : Option Unit × Act) : Option (State Unit) :=
  (next (act 4096) st a).filter fun st =>
    (st.own none).releasing.isNone && (st.own (some ())).releasing.isNone

theorem quietNext_step {st st' : State Unit} {a : Option Unit × Act}
    (h : quietNext st a = some st') :
    (system 4096 fun _ => none).step st a st' := by
  obtain ⟨hnext, hquiet⟩ := Option.filter_eq_some_iff.1 h
  obtain ⟨⟨s', p'⟩, hact, rfl⟩ := Option.map_eq_some_iff.1 hnext
  refine ⟨⟨s', p', hact, rfl⟩, ?_⟩
  rintro t (_ | _) submit c - hrel
  all_goals
    simp only [Bool.and_eq_true, Option.isNone_iff_eq_none] at hquiet
    first
      | exact absurd (hquiet.1.symm.trans hrel) nofun
      | exact absurd (hquiet.2.symm.trans hrel) nofun

/-- What holds when that batch completes. -/
theorem staging_safe_submit : ∃ st st' : State Unit, st.shared.outstanding.card = 1 ∧
    (∀ block ∈ st.shared.blocks, block.live = rangesIn st.shared.outstanding block.address) ∧
    st'.shared.completedTicket = 1 := by
  have hrun : ∃ st, submitRun.foldlM quietNext ⟨{ imageTickets := fun _ => none }, fun _ => .idle⟩ =
      some st ∧ st.shared.outstanding.card = 1 ∧
        ∃ st', quietNext st (none, .step {}) = some st' ∧ st'.shared.completedTicket = 1 :=
    ⟨_, rfl, rfl, _, rfl, rfl⟩
  obtain ⟨st, hst, hcard, st', hstep, hcompleted⟩ := hrun
  have hreach : (system 4096 fun _ => none).Reachable st :=
    ⟨_, submitRun, rfl, LTS.Run.of_foldlM (fun _ _ _ => quietNext_step) hst⟩
  have hsafe := staging_safe hreach (quietNext_step hstep)
  exact ⟨st, st', hcard, hsafe.2.2.1, hcompleted⟩

end Nightcap.Graphics.Dispatch
