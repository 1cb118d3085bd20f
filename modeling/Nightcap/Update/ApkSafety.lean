import Nightcap.Update.ApkSignature

/-! Reading the signing block of any mapped file stays inside it and ends. -/
namespace Nightcap.Update.ApkSignature

open Checked Utf8

variable {ε : Type} {mapping : Mapping} {err : ε → Prop} {reader : Reader} {span sequence : View}
  {values : List IdBytes} {minimum position pairsEnd cursor id : Nat} {block : SigningBlock}

/-- One view is a part of another. -/
def Part (inner outer : View) : Prop :=
  outer.base ≤ inner.base ∧ inner.base + inner.size ≤ outer.base + outer.size

theorem Part.trans {inner middle outer : View} (h : Part inner middle) (h' : Part middle outer) :
    Part inner outer := ⟨h'.1.trans h.1, h.2.trans h'.2⟩

theorem Part.within (h : Part span mapping.whole) : span.base + span.size ≤ mapping.bytes.length :=
  h.2.trans (Nat.zero_add _).le

theorem part_whole (h : span.base + span.size ≤ mapping.bytes.length) : Part span mapping.whole :=
  ⟨Nat.zero_le _, h.trans (Nat.zero_add _).ge⟩

theorem whole_within : mapping.whole.base + mapping.whole.size ≤ mapping.bytes.length :=
  (Nat.zero_add _).le

/-- The numbers of the mapping are far from wrapping around. -/
theorem Mapping.small (mapping : Mapping) : mapping.bytes.length < 2 ^ 64 :=
  mapping.bounded.trans (by decide)

/-! Readers. -/

/-- The reader stands in its span. -/
def Reader.Standing (reader : Reader) : Prop := reader.position ≤ reader.span.size

theorem standing_ofSpan (span : View) : (Reader.ofSpan span).Standing := Nat.zero_le _

/-- What is left of a span after a read. -/
structure Reader.After (reader next : Reader) : Prop where
  span : next.span = reader.span
  forward : reader.position < next.position
  standing : next.Standing

theorem meets_remaining (h : reader.Standing) :
    Meets (reader.remaining : Comp ε Nat) (· = reader.span.size - reader.position) err :=
  meets_sub h

theorem meets_u32Value (hspan : Part reader.span mapping.whole) (h : reader.Standing) :
    Meets (reader.u32Value mapping)
      (fun r => ∀ p, r = some p → p.1 < 2 ^ 32 ∧ reader.After p.2) err := by
  have hwithin := hspan.within
  have hsmall := mapping.small
  refine meets_bind (meets_remaining h) fun left hleft => ?_
  refine meets_ite (fun _ => meets_pure nofun) fun hroom => ?_
  refine meets_bind (meets_u32At hwithin hsmall (by omega)) fun value hvalue => ?_
  refine meets_bind (meets_add (by omega)) fun next hnext => ?_
  refine meets_pure fun p hp => ?_
  cases hp
  refine ⟨hvalue, rfl, ?_, ?_⟩
  · simp only
    omega
  · change next ≤ reader.span.size
    omega

/-- A record lies in the span it is read from. -/
theorem meets_lengthPrefixed (hspan : Part reader.span mapping.whole) (h : reader.Standing) :
    Meets (reader.lengthPrefixed mapping)
      (fun r => ∀ p, r = some p → Part p.1 reader.span ∧ reader.After p.2) err := by
  have hwithin := hspan.within
  have hsmall := mapping.small
  refine meets_bind (meets_u32Value hspan h) fun read hread => ?_
  cases read with
  | none => exact meets_pure nofun
  | some read =>
    obtain ⟨size, next⟩ := read
    obtain ⟨hsize, hsame, hforward, hstanding⟩ := hread _ rfl
    have hinside : next.position ≤ next.span.size := hstanding
    refine meets_bind (meets_remaining hstanding) fun left hleft => ?_
    refine meets_ite (fun _ => meets_pure nofun) fun hroom => ?_
    simp only at hsame hforward hinside hleft hroom ⊢
    rw [hsame] at hinside hleft ⊢
    refine meets_bind (meets_add (by omega)) fun behind hbehind => ?_
    refine meets_pure fun p hp => ?_
    cases hp
    refine ⟨⟨Nat.le_add_right _ _, ?_⟩, rfl, ?_, ?_⟩
    · simp only
      omega
    · simp only
      omega
    · change behind ≤ reader.span.size
      omega

/-- The reader of a sequence and the records it has read. -/
structure Reading (sequence : View) (reader : Reader) (values : List IdBytes) : Prop where
  span : reader.span = sequence
  standing : reader.Standing
  parts : ∀ value ∈ values, Part value.bytes sequence

theorem meets_parseIdRecord (hsequence : Part sequence mapping.whole)
    (h : Reading sequence reader values) :
    Meets (parseIdRecord mapping reader values)
      (Sum.elim (fun next => Reading sequence next.1 next.2 ∧
          sequence.size - next.1.position < sequence.size - reader.position)
        fun values => ∀ value ∈ values, Part value.bytes sequence) (fun _ => True) := by
  have hspan : Part reader.span mapping.whole := h.span ▸ hsequence
  refine meets_bind (meets_remaining h.standing) fun left hleft => ?_
  refine meets_ite (fun _ => ?_) fun hmore => ?_
  · exact meets_ite (fun _ => meets_refuse trivial) fun _ => meets_pure h.parts
  · refine meets_bind (meets_require (meets_lengthPrefixed hspan h.standing) trivial) ?_
    rintro ⟨record, records⟩ ⟨hrecord, hrecords⟩
    have hfields : Part (Reader.ofSpan record).span mapping.whole := hrecord.trans hspan
    refine meets_bind (meets_require (meets_u32Value hfields (standing_ofSpan record)) trivial) ?_
    rintro ⟨id, fields⟩ ⟨_, hfield⟩
    have hrest : Part fields.span mapping.whole := hfield.span ▸ hfields
    refine meets_bind (meets_require (meets_lengthPrefixed hrest hfield.standing) trivial) ?_
    rintro ⟨bytes, behind⟩ ⟨hbytes, hbehind⟩
    refine meets_bind (meets_remaining hbehind.standing) fun rest _ => ?_
    refine meets_ite (fun _ => meets_refuse trivial) fun _ => meets_pure ?_
    have hpart : Part bytes sequence := by
      have hsame : fields.span = record := hfield.span
      rw [hsame] at hbytes
      rw [h.span] at hrecord
      exact hbytes.trans hrecord
    refine ⟨⟨hrecords.span.trans h.span, hrecords.standing, ?_⟩, ?_⟩
    · intro value hvalue
      rcases List.mem_append.1 hvalue with hvalue | hvalue
      · exact h.parts value hvalue
      · rw [List.mem_singleton.1 hvalue]
        exact hpart
    · have hforward : reader.position < records.position := hrecords.forward
      have hstanding : records.position ≤ records.span.size := hrecords.standing
      rw [hrecords.span, h.span] at hstanding
      rw [h.span] at hleft
      simp only
      omega

/-- A sequence in the file is read to records that lie in it. -/
theorem meets_parseIdSequence (hsequence : Part sequence mapping.whole) :
    Meets (parseIdSequence mapping sequence)
      (fun values => ∀ value ∈ values, Part value.bytes sequence) (fun _ => True) := by
  refine meets_loop (fun state => Reading sequence state.1 state.2)
    (fun state => sequence.size - state.1.position)
    (fun state hstate => meets_parseIdRecord hsequence hstate) ?_ ?_
  · exact ⟨rfl, standing_ofSpan sequence, by simp⟩
  · simp only [Reader.ofSpan]
    omega

/-! The end record. -/

theorem meets_commentSize (h : position + 22 ≤ mapping.bytes.length) :
    Meets (commentSize mapping position) (· < 2 ^ 16) err := by
  have hsmall := mapping.small
  have hbyte : ∀ i, i < mapping.bytes.length →
      Meets (byteAt mapping.bytes mapping.whole i) (· < 256) err :=
    fun i hi => meets_byteAt whole_within hi
  refine meets_bind (meets_add (by omega)) fun lowAt hlowAt => ?_
  refine meets_bind (hbyte lowAt (by omega)) fun low hlow => ?_
  refine meets_bind (meets_add (by omega)) fun highAt hhighAt => ?_
  refine meets_bind (hbyte highAt (by omega)) fun high hhigh => ?_
  have hlow' : low < 2 ^ 8 := hlow
  exact meets_pure (or_shift_lt hlow' hhigh)

theorem meets_isEocd (h : position + 22 ≤ mapping.bytes.length) :
    Meets (isEocd mapping position) (fun _ => True) err := by
  have hbounded := mapping.bounded
  have hword : position + 4 ≤ mapping.whole.size := by
    change position + 4 ≤ mapping.bytes.length
    omega
  refine meets_bind (meets_u32At whole_within mapping.small hword) fun signature _ => ?_
  refine meets_ite (fun _ => meets_pure trivial) fun _ => ?_
  refine meets_bind (meets_commentSize h) fun comment hcomment => ?_
  refine meets_bind (meets_add (by omega)) fun behind hbehind => ?_
  exact meets_bind (meets_add (by omega)) fun finish _ => meets_pure trivial

theorem meets_eocdStep (hlow : minimum ≤ position) (h : position + 22 ≤ mapping.bytes.length) :
    Meets (eocdStep mapping minimum position)
      (Sum.elim (fun previous => (minimum ≤ previous ∧ previous + 22 ≤ mapping.bytes.length) ∧
        previous < position) fun eocd => minimum ≤ eocd ∧ eocd + 22 ≤ mapping.bytes.length)
          (· ≠ "") := by
  refine meets_bind (meets_isEocd h) fun found _ => ?_
  refine meets_ite (fun _ => meets_pure ⟨hlow, h⟩) fun _ => ?_
  refine meets_ite (fun _ => meets_refuse (by decide)) fun hmore => ?_
  refine meets_bind (meets_sub (by omega)) fun previous hprevious => meets_pure ?_
  simp only [Sum.elim_inl]
  omega

/-- The end record, with its comment of at most 65535 bytes, is the end of the file. -/
theorem meets_findEocd : Meets (findEocd mapping)
    (fun eocd => eocd + 22 ≤ mapping.bytes.length ∧ mapping.bytes.length ≤ eocd + 65557)
    (· ≠ "") := by
  have hminimum := mapping.minimum
  have hfirst : Meets (eocdMinimum mapping : Comp String Nat)
      (fun minimum => minimum + 22 ≤ mapping.bytes.length ∧ mapping.bytes.length ≤ minimum + 65557)
      (· ≠ "") := by
    refine meets_ite (fun hlong => ?_) fun _ => meets_pure (by omega)
    exact (meets_sub hlong.le).mono (fun _ h => by omega) fun _ h => h
  refine meets_bind hfirst fun minimum hmin => ?_
  refine meets_bind (meets_sub (by omega)) fun last hlast => ?_
  have hsearch : Meets (loop (eocdStep mapping minimum) (mapping.bytes.length + 1) last)
      (fun eocd => minimum ≤ eocd ∧ eocd + 22 ≤ mapping.bytes.length) (· ≠ "") := by
    refine meets_loop (fun position => minimum ≤ position ∧ position + 22 ≤ mapping.bytes.length) id
      (fun position hposition => meets_eocdStep hposition.1 hposition.2) (by omega) ?_
    change last < mapping.bytes.length + 1
    omega
  exact hsearch.mono (fun _ h => by omega) fun _ h => h

/-! The signing block. -/

/-- The block ends at the central directory, in front of the end record, and holds its schemes. -/
structure SigningBlock.Placed (mapping : Mapping) (block : SigningBlock) : Prop where
  ordered : block.begin + 32 ≤ block.centralDirectory
  directory : block.centralDirectory ≤ block.eocd
  eocd : block.eocd + 22 ≤ mapping.bytes.length
  schemes : ∀ span, span ∈ [block.v2, block.v3, block.v31].filterMap (fun s => s) →
    Part span ⟨block.begin, block.centralDirectory - block.begin⟩

theorem meets_addPair (h : block.Placed mapping)
    (hspan : Part span ⟨block.begin, block.centralDirectory - block.begin⟩) :
    Meets (block.addPair id span) (fun next => next.Placed mapping ∧ next.begin = block.begin ∧
      next.centralDirectory = block.centralDirectory ∧ next.eocd = block.eocd) (· ≠ "") := by
  have hset : ∀ next : SigningBlock, next.begin = block.begin →
      next.centralDirectory = block.centralDirectory → next.eocd = block.eocd →
      (∀ scheme, scheme ∈ [next.v2, next.v3, next.v31].filterMap (fun s => s) →
        scheme = span ∨ scheme ∈ [block.v2, block.v3, block.v31].filterMap (fun s => s)) →
      next.Placed mapping := by
    intro next hbegin hdirectory heocd hschemes
    refine ⟨by rw [hbegin, hdirectory]; exact h.ordered,
      by rw [hdirectory, heocd]; exact h.directory,
      by rw [heocd]; exact h.eocd, fun scheme hscheme => ?_⟩
    rw [hbegin, hdirectory]
    rcases hschemes scheme hscheme with rfl | hscheme
    · exact hspan
    · exact h.schemes scheme hscheme
  unfold SigningBlock.addPair SigningBlock.select
  split_ifs
  · cases hv : block.v31 with
    | some scheme => exact meets_refuse (by decide)
    | none => exact meets_pure ⟨hset _ rfl rfl rfl (by simp [hv]; tauto), rfl, rfl, rfl⟩
  · cases hv : block.v3 with
    | some scheme => exact meets_refuse (by decide)
    | none => exact meets_pure ⟨hset _ rfl rfl rfl (by simp [hv]; tauto), rfl, rfl, rfl⟩
  · cases hv : block.v2 with
    | some scheme => exact meets_refuse (by decide)
    | none => exact meets_pure ⟨hset _ rfl rfl rfl (by simp [hv]), rfl, rfl, rfl⟩
  · exact meets_pure ⟨h, rfl, rfl, rfl⟩

theorem meets_parsePair (hend : pairsEnd = block.centralDirectory - 24)
    (hcursor : cursor ≤ pairsEnd)
    (hbegin : block.begin ≤ cursor) (h : block.Placed mapping) :
    Meets (parsePair mapping pairsEnd cursor block)
      (Sum.elim (fun next => (pairsEnd = next.2.centralDirectory - 24 ∧ next.1 ≤ pairsEnd ∧
          next.2.begin ≤ next.1 ∧ next.2.Placed mapping ∧ next.2.eocd = block.eocd) ∧
            pairsEnd - next.1 < pairsEnd - cursor)
        fun found => found.Placed mapping ∧ found.eocd = block.eocd) (· ≠ "") := by
  have hsmall := mapping.small
  have hordered := h.ordered
  have hdirectory := h.directory
  have heocd := h.eocd
  have hwhole : mapping.whole.size = mapping.bytes.length := rfl
  refine meets_ite (fun _ => ?_) fun hmore => ?_
  · exact meets_ite (fun _ => meets_refuse (by decide)) fun _ => meets_pure ⟨h, rfl⟩
  · refine meets_bind (meets_sub (by omega)) fun left hleft => ?_
    refine meets_ite (fun _ => meets_refuse (by decide)) fun hroom => ?_
    refine meets_bind (meets_u64At whole_within hsmall (by omega)) fun pairSize _ => ?_
    refine meets_bind (meets_add (by omega)) fun pair hpair => ?_
    refine meets_bind (meets_sub (by omega)) fun left' hleft' => ?_
    refine meets_ite (fun _ => meets_refuse (by decide)) fun hsize => ?_
    refine meets_bind (meets_u32At whole_within hsmall (by omega)) fun id _ => ?_
    refine meets_bind (meets_add (by omega)) fun valueAt hvalueAt => ?_
    refine meets_bind (meets_sub (by omega)) fun valueSize hvalueSize => ?_
    refine meets_bind (meets_addPair h ⟨by simp only; omega, by simp only; omega⟩) ?_
    rintro next ⟨hplaced, hbegin', hdirectory', heocd'⟩
    refine meets_bind (meets_add (by omega)) fun behind hbehind => meets_pure ?_
    refine ⟨⟨?_, ?_, ?_, hplaced, heocd'⟩, ?_⟩
    · rw [hdirectory', hend]
    · simp only
      omega
    · simp only
      omega
    · simp only
      omega

theorem meets_parseSigningBlock :
    Meets (parseSigningBlock mapping)
      (fun block => block.Placed mapping ∧ mapping.bytes.length ≤ block.eocd + 65557) (· ≠ "") := by
  have hsmall := mapping.small
  have hwhole : mapping.whole.size = mapping.bytes.length := rfl
  refine meets_bind meets_findEocd fun eocd heocd => ?_
  refine meets_bind (meets_add (by omega)) fun offsetAt hoffsetAt => ?_
  refine meets_bind (meets_u32At whole_within hsmall (by omega)) fun centralDirectory _ => ?_
  refine meets_ite (fun _ => meets_refuse (by decide)) fun hdirectory => ?_
  refine meets_bind (meets_sub (by omega)) fun magicAt hmagicAt => ?_
  have hmagic : kSigningMagic.length = 16 := by decide
  refine meets_bind (meets_bytesAt whole_within (by omega)) fun magic _ => ?_
  refine meets_ite (fun _ => meets_refuse (by decide)) fun _ => ?_
  refine meets_bind (meets_sub (by omega)) fun footerAt hfooterAt => ?_
  refine meets_bind (meets_u64At whole_within hsmall (by omega)) fun footerSize _ => ?_
  refine meets_bind (meets_sub (by omega)) fun limit hlimit => ?_
  refine meets_ite (fun _ => meets_refuse (by decide)) fun hfooter => ?_
  refine meets_bind (meets_add (by omega)) fun totalSize htotal => ?_
  refine meets_bind (meets_sub (by omega)) fun begin hbegin => ?_
  refine meets_bind (meets_u64At whole_within hsmall (by omega)) fun headerSize _ => ?_
  refine meets_ite (fun _ => meets_refuse (by decide)) fun _ => ?_
  refine meets_bind (meets_add (by omega)) fun cursor hcursor => ?_
  refine meets_bind (meets_sub (by omega)) fun pairsEnd hpairsEnd => ?_
  have hpairs : Meets
      (loop (fun state => parsePair mapping pairsEnd state.1 state.2) (mapping.bytes.length + 1)
        (cursor, { begin, centralDirectory, eocd })) (fun block => block.Placed mapping ∧
          block.eocd = eocd) (· ≠ "") := by
    refine meets_loop (fun state => pairsEnd = state.2.centralDirectory - 24 ∧ state.1 ≤ pairsEnd ∧
        state.2.begin ≤ state.1 ∧ state.2.Placed mapping ∧ state.2.eocd = eocd)
          (fun state => pairsEnd - state.1)
      (fun state hstate => ?_) ?_ ?_
    · obtain ⟨hend, hcursor', hbegin', hplaced, hsame⟩ := hstate
      exact hsame ▸ meets_parsePair hend hcursor' hbegin' hplaced
    · refine ⟨hpairsEnd, by simp only; omega, by simp only; omega, ?_, rfl⟩
      exact ⟨by simp only; omega, by simp only; omega, heocd.1, by simp⟩
    · simp only
      omega
  refine hpairs.mono (fun block hblock => ⟨hblock.1, ?_⟩) fun _ h => h
  rw [hblock.2]
  exact heocd.2

/-- The parsers of a mapped file never read outside it, wrap a number around or run on; and a
signing block that is found lies in front of the central directory, that in front of the end
record. -/
theorem signing_block_safe (mapping : Mapping) :
    Meets (findEocd mapping) (fun eocd => eocd < mapping.bytes.length) (fun _ => True) ∧
      Meets (parseSigningBlock mapping) (fun block => 0 ≤ block.begin ∧
        block.begin ≤ block.centralDirectory ∧ block.centralDirectory ≤ block.eocd ∧
        block.eocd < mapping.bytes.length ∧ block.Placed mapping) (fun _ => True) ∧
      (∀ sequence, Part sequence mapping.whole → Meets (parseIdSequence mapping sequence)
        (fun values => ∀ value ∈ values, Part value.bytes sequence) (fun _ => True)) ∧
      ∀ reader : Reader, Part reader.span mapping.whole → reader.Standing →
        Meets (reader.u32Value mapping)
          (fun r => ∀ p, r = some p → p.1 < 2 ^ 32 ∧ reader.After p.2) (fun _ : String => True) ∧
        Meets (reader.lengthPrefixed mapping)
          (fun r => ∀ p, r = some p → Part p.1 reader.span ∧ reader.After p.2)
          (fun _ : String => True) := by
  refine ⟨?_, ?_, fun sequence => meets_parseIdSequence, fun reader hspan hstanding =>
    ⟨meets_u32Value hspan hstanding, meets_lengthPrefixed hspan hstanding⟩⟩
  · exact meets_findEocd.mono (fun _ h => by omega) fun _ _ => trivial
  · refine meets_parseSigningBlock.mono (fun block hblock => ?_) fun _ _ => trivial
    have h := hblock.1
    have hordered := h.ordered
    have heocd := h.eocd
    exact ⟨Nat.zero_le _, by omega, h.directory, by omega, h⟩

end Nightcap.Update.ApkSignature
