import Nightcap.Update.AndroidManifest

/-! Whatever a manifest declares, its reading stays inside it and its chunks, and ends. -/
namespace Nightcap.Update.AndroidManifest

open Checked Utf8

variable {ε : Type} {mem : Bytes} {err : ε → Prop} {refused : String → Prop}
  {offset cursor size index : Nat} {chunk xml : Chunk} {storage range : View} {strings : List Bytes}
  {value : Bytes}

/-- The view lies in the input. -/
def Within (mem : Bytes) (view : View) : Prop := view.base + view.size ≤ mem.length

/-- The chunk at the offset has a header and lies in the input. -/
structure Chunk.Fits (mem : Bytes) (offset : Nat) (chunk : Chunk) : Prop where
  header : 8 ≤ chunk.headerSize
  ordered : chunk.headerSize ≤ chunk.size
  within : Within mem (chunk.range offset)

theorem within_whole : Within mem (whole mem) := (Nat.zero_add _).le

theorem meets_u16 (hmem : mem.length < 2 ^ 64) :
    Meets (u16 mem offset) (fun r => ∀ v, r = some v → v < 2 ^ 16) err := by
  refine meets_ite (fun _ => meets_pure nofun) fun hoffset => ?_
  refine meets_bind (meets_sub (Nat.not_lt.1 hoffset)) fun left hleft => ?_
  refine meets_ite (fun _ => meets_pure nofun) fun hroom => ?_
  refine meets_bind (meets_u16At within_whole hmem (by simp only [whole]; omega)) fun v hv => ?_
  refine meets_pure fun w hw => ?_
  cases hw
  exact hv

theorem meets_u32 (hmem : mem.length < 2 ^ 64) :
    Meets (u32 mem offset) (fun r => ∀ v, r = some v → v < 2 ^ 32) err := by
  refine meets_ite (fun _ => meets_pure nofun) fun hoffset => ?_
  refine meets_bind (meets_sub (Nat.not_lt.1 hoffset)) fun left hleft => ?_
  refine meets_ite (fun _ => meets_pure nofun) fun hroom => ?_
  refine meets_bind (meets_u32At within_whole hmem (by simp only [whole]; omega)) fun v hv => ?_
  refine meets_pure fun w hw => ?_
  cases hw
  exact hv

theorem meets_u16In (hmem : mem.length < 2 ^ 64) (hlow : range.base ≤ offset)
    (hhigh : offset + 2 ≤ range.base + range.size) :
    Meets (u16In mem range offset) (fun r => ∀ v, r = some v → v < 2 ^ 16) err :=
  meets_bind (meets_inside hlow hhigh) fun _ _ => meets_u16 hmem

theorem meets_u32In (hmem : mem.length < 2 ^ 64) (hlow : range.base ≤ offset)
    (hhigh : offset + 4 ≤ range.base + range.size) :
    Meets (u32In mem range offset) (fun r => ∀ v, r = some v → v < 2 ^ 32) err :=
  meets_bind (meets_inside hlow hhigh) fun _ _ => meets_u32 hmem

theorem meets_slice : Meets (slice mem offset size) (Within mem) err := by
  refine meets_ite (fun _ => meets_pure (Nat.zero_le _)) fun hoffset => ?_
  refine meets_bind (meets_sub (Nat.not_lt.1 hoffset)) fun left hleft => ?_
  refine meets_ite (fun _ => meets_pure (Nat.zero_le _)) fun hroom => meets_pure ?_
  change offset + size ≤ mem.length
  omega

theorem meets_readChunk (hmem : mem.length ≤ 2 ^ 24) (hoffset : offset ≤ mem.length) :
    Meets (readChunk mem offset) (fun r => ∀ c, r = some c → Chunk.Fits mem offset c) err := by
  have hlarge : mem.length < 2 ^ 64 := by omega
  refine meets_bind (meets_u16 hlarge) fun type htype => ?_
  cases type with
  | none => exact meets_pure nofun
  | some type =>
    refine meets_bind (meets_add (by omega)) fun headerAt hheaderAt => ?_
    refine meets_bind (meets_u16 hlarge) fun headerSize hheader => ?_
    cases headerSize with
    | none => exact meets_pure nofun
    | some headerSize =>
      refine meets_bind (meets_add (by omega)) fun sizeAt hsizeAt => ?_
      refine meets_bind (meets_u32 hlarge) fun size hsize => ?_
      cases size with
      | none => exact meets_pure nofun
      | some size =>
        refine meets_ite (fun _ => meets_pure nofun) fun hok => ?_
        refine meets_bind (meets_sub hoffset) fun left hleft => ?_
        refine meets_ite (fun _ => meets_pure nofun) fun hroom => ?_
        refine meets_bind (meets_inside (le_refl _) (by simp only; omega)) fun _ _ => ?_
        refine meets_pure fun c hc => ?_
        cases hc
        refine ⟨by simp only; omega, by simp only; omega, ?_⟩
        change offset + size ≤ mem.length
        omega

/-! Strings. -/

theorem meets_readUtf8Length (hmem : mem.length < 2 ^ 64) (hw : Within mem storage) :
    Meets (readUtf8Length mem storage cursor)
      (fun r => ∀ p, r = some p → p.2 ≤ storage.size) err := by
  have hsize : storage.base + storage.size ≤ mem.length := hw
  refine meets_ite (fun _ => meets_pure nofun) fun hcursor => ?_
  refine meets_bind (meets_byteAt hw (by omega)) fun first hfirst => ?_
  refine meets_bind (meets_add (by omega)) fun next hnext => ?_
  refine meets_ite (fun _ => meets_pure fun p hp => ?_) fun _ => ?_
  · cases hp
    simp only
    omega
  · refine meets_ite (fun _ => meets_pure nofun) fun hmore => ?_
    refine meets_bind (meets_byteAt hw (by omega)) fun second hsecond => ?_
    refine meets_bind (meets_add (by omega)) fun behind hbehind => ?_
    refine meets_pure fun p hp => ?_
    cases hp
    simp only
    omega

theorem meets_readUtf16Length (hmem : mem.length < 2 ^ 64) (hw : Within mem storage) :
    Meets (readUtf16Length mem storage cursor)
      (fun r => ∀ p, r = some p → p.2 ≤ storage.size) err := by
  have hsize : storage.base + storage.size ≤ mem.length := hw
  refine meets_ite (fun _ => meets_pure nofun) fun hcursor => ?_
  refine meets_bind (meets_sub (by omega)) fun left hleft => ?_
  refine meets_ite (fun _ => meets_pure nofun) fun hroom => ?_
  refine meets_bind (meets_u16At hw hmem (by omega)) fun first hfirst => ?_
  refine meets_bind (meets_add (by omega)) fun next hnext => ?_
  refine meets_ite (fun _ => meets_pure fun p hp => ?_) fun _ => ?_
  · cases hp
    simp only
    omega
  · refine meets_ite (fun _ => meets_pure nofun) fun hmore => ?_
    refine meets_bind (meets_sub (by omega)) fun left' hleft' => ?_
    refine meets_ite (fun _ => meets_pure nofun) fun hroom' => ?_
    refine meets_bind (meets_u16At hw hmem (by omega)) fun second hsecond => ?_
    refine meets_bind (meets_add (by omega)) fun behind hbehind => ?_
    refine meets_pure fun p hp => ?_
    cases hp
    simp only
    omega

theorem meets_readUtf8String (hmem : mem.length < 2 ^ 64) (hw : Within mem storage) :
    Meets (readUtf8String mem storage) (fun _ => True) (· ≠ "") := by
  have hsize : storage.base + storage.size ≤ mem.length := hw
  refine meets_bind (meets_require (meets_readUtf8Length hmem hw) (by decide)) fun first hfirst =>
    ?_
  refine meets_bind (meets_require (meets_readUtf8Length hmem hw) (by decide))
    fun second hsecond => ?_
  refine meets_ite (fun _ => meets_refuse (by decide)) fun hcursor => ?_
  refine meets_bind (meets_sub (by omega)) fun left hleft => ?_
  refine meets_ite (fun _ => meets_refuse (by decide)) fun hroom => ?_
  refine meets_bind (meets_add (by omega)) fun behind hbehind => ?_
  refine meets_bind (meets_byteAt hw (by omega)) fun terminator _ => ?_
  refine meets_ite (fun _ => meets_refuse (by decide)) fun _ => ?_
  exact (meets_bytesAt hw (by omega)).mono (fun _ _ => trivial) fun _ h => h

theorem meets_readUtf16Unit (hmem : mem.length < 2 ^ 64) (hw : Within mem storage)
    (hroom : cursor + index * 2 + 2 ≤ storage.size) :
    Meets (readUtf16Unit mem storage cursor value index) (fun _ => True) (· ≠ "") := by
  have hsize : storage.base + storage.size ≤ mem.length := hw
  refine meets_bind (meets_mul (by omega)) fun skipped hskipped => ?_
  refine meets_bind (meets_add (by omega)) fun position hposition => ?_
  refine meets_bind (meets_u16At hw hmem (by omega)) fun point hpoint => ?_
  exact meets_ite (fun _ => meets_refuse (by decide)) fun _ => meets_pure trivial

theorem meets_readUtf16String (hmem : mem.length < 2 ^ 64) (hw : Within mem storage) :
    Meets (readUtf16String mem storage) (fun _ => True) (· ≠ "") := by
  refine meets_bind (meets_require (meets_readUtf16Length hmem hw) (by decide)) fun first hfirst =>
    ?_
  refine meets_bind (meets_sub hfirst) fun left hleft => ?_
  refine meets_ite (fun _ => meets_refuse (by decide)) fun hroom => ?_
  refine meets_foldlM (fun _ => True) (fun value index hindex _ => ?_) trivial
  have hlt := List.mem_range.1 hindex
  exact meets_readUtf16Unit hmem hw (by omega)

/-- A row of the pool's offsets and the string it leads to. -/
theorem meets_readPoolString {isUtf8 : Bool} {stringsStart count : Nat} (hmem : mem.length ≤ 2 ^ 24)
    (hc : chunk.Fits mem offset) (hcount : count ≤ 1000000) (hindex : index < count)
    (hrows : count * 4 ≤ chunk.size - chunk.headerSize) (hstart : stringsStart < chunk.size) :
    Meets (readPoolString mem offset chunk isUtf8 stringsStart strings index) (fun _ => True)
      (· ≠ "") := by
  have hlarge : mem.length < 2 ^ 64 := by omega
  have hinside : offset + chunk.size ≤ mem.length := hc.within
  have hordered := hc.ordered
  refine meets_bind (meets_add (by omega)) fun header hheader => ?_
  refine meets_bind (meets_mul (by omega)) fun row hrow => ?_
  refine meets_bind (meets_add (by omega)) fun offsetAt hoffsetAt => ?_
  have hlow : (chunk.range offset).base ≤ offsetAt := by
    change offset ≤ offsetAt
    omega
  have hhigh : offsetAt + 4 ≤ (chunk.range offset).base + (chunk.range offset).size := by
    change offsetAt + 4 ≤ offset + chunk.size
    omega
  refine meets_bind (meets_require (meets_u32In hlarge hlow hhigh) (by decide)) fun relative _ => ?_
  refine meets_bind (meets_sub hstart.le) fun room hroom => ?_
  refine meets_ite (fun _ => meets_refuse (by decide)) fun hrelative => ?_
  refine meets_bind (meets_add (by omega)) fun first hfirst => ?_
  refine meets_bind (meets_add (by omega)) fun start hstartAt => ?_
  refine meets_bind (meets_sub (by omega)) fun left hleft => ?_
  have hbegin : (chunk.range offset).base ≤ start := by
    change offset ≤ start
    omega
  have hend : start + left ≤ (chunk.range offset).base + (chunk.range offset).size := by
    change start + left ≤ offset + chunk.size
    omega
  refine meets_bind (meets_inside hbegin hend) fun _ _ => ?_
  refine meets_bind meets_slice fun storage hstorage => ?_
  have hread : Meets (readString mem isUtf8 storage) (fun _ => True) (· ≠ "") :=
    meets_ite (fun _ => meets_readUtf8String hlarge hstorage)
      fun _ => meets_readUtf16String hlarge hstorage
  exact meets_bind hread fun _ _ => meets_pure trivial

theorem meets_parseStringPool (hmem : mem.length ≤ 2 ^ 24) (hc : chunk.Fits mem offset) :
    Meets (parseStringPool mem offset chunk) (fun _ => True) (· ≠ "") := by
  have hlarge : mem.length < 2 ^ 64 := by omega
  have hinside : offset + chunk.size ≤ mem.length := hc.within
  have hordered := hc.ordered
  refine meets_ite (fun _ => meets_refuse (by decide)) fun hheader => ?_
  -- The header is long enough for the words read from it.
  have hword : ∀ i position, i + 4 ≤ 28 → position = offset + i →
      Meets (u32In mem (chunk.range offset) position)
        (fun r => ∀ v, r = some v → v < 2 ^ 32) (· ≠ "") := by
    rintro i _ hi rfl
    refine meets_u32In hlarge (Nat.le_add_right _ _) ?_
    change offset + i + 4 ≤ offset + chunk.size
    omega
  refine meets_bind (meets_add (by omega)) fun countAt hcountAt => ?_
  refine meets_bind (meets_require (hword 8 _ (by decide) hcountAt) (by decide)) fun count _ => ?_
  refine meets_ite (fun _ => meets_refuse (by decide)) fun hcount => ?_
  refine meets_bind (meets_add (by omega)) fun flagsAt hflagsAt => ?_
  refine meets_bind (meets_require (hword 16 _ (by decide) hflagsAt) (by decide)) fun flags _ => ?_
  refine meets_bind (meets_add (by omega)) fun startAt hstartAt => ?_
  refine meets_bind (meets_require (hword 20 _ (by decide) hstartAt) (by decide))
    fun stringsStart _ => ?_
  refine meets_ite (fun _ => meets_refuse (by decide)) fun hstart => ?_
  refine meets_bind (meets_mul (by omega)) fun rows hrows => ?_
  refine meets_bind (meets_sub hordered) fun body hbody => ?_
  refine meets_ite (fun _ => meets_refuse (by decide)) fun hfits => ?_
  refine meets_foldlM (fun _ => True) (fun strings index hindex _ => ?_) trivial
  exact meets_readPoolString hmem hc (by omega) (List.mem_range.1 hindex) (by omega) (by omega)

/-! Elements. -/

/-- An identity without an error has a package and a version. -/
def Named (identity : AndroidManifestIdentity) : Prop :=
  identity.error = "" → identity.packageName ≠ [] ∧ identity.versionCode ≠ 0

theorem named_failed {message : String} (h : message ≠ "") : Named (failed message) :=
  fun herror => absurd herror h

theorem named_error (identity : AndroidManifestIdentity) {message : String} (h : message ≠ "") :
    Named { identity with error := message } := fun herror => absurd herror h

theorem meets_readAttribute {identity : AndroidManifestIdentity}
    {attributes attributeSize count : Nat} (hmem : mem.length ≤ 2 ^ 24)
    (hfinish : range.base + range.size ≤ mem.length) (hlow : range.base ≤ attributes)
    (hindex : index < count) (hsize : 20 ≤ attributeSize)
    (htotal : attributes + count * attributeSize ≤ range.base + range.size) :
    Meets (readAttribute mem range strings attributes attributeSize identity index) (fun _ => True)
      Named := by
  have hlarge : mem.length < 2 ^ 64 := by omega
  have hrow : index * attributeSize + attributeSize ≤ count * attributeSize := by
    rw [← Nat.succ_mul]
    exact Nat.mul_le_mul_right _ hindex
  have htruncated : Named { identity with error := "Android manifest attribute is truncated" } :=
    named_error identity (by decide)
  refine meets_bind (meets_mul (by omega)) fun skipped hskipped => ?_
  refine meets_bind (meets_add (by omega)) fun attributeAt hat => ?_
  have hword : ∀ i position, i + 4 ≤ 20 → position = attributeAt + i →
      Meets (u32In mem range position) (fun r => ∀ v, r = some v → v < 2 ^ 32) Named := by
    rintro i _ hi rfl
    exact meets_u32In hlarge (by omega) (by omega)
  refine meets_bind (meets_add (by omega)) fun nameAt hnameAt => ?_
  refine meets_bind (meets_require (hword 4 _ (by decide) hnameAt) htruncated) fun nameIndex _ => ?_
  refine meets_bind (meets_add (by omega)) fun rawAt hrawAt => ?_
  refine meets_bind (meets_require (hword 8 _ (by decide) hrawAt) htruncated) fun rawIndex _ => ?_
  refine meets_bind (meets_add (by omega)) fun dataAt hdataAt => ?_
  refine meets_bind (meets_require (hword 16 _ (by decide) hdataAt) htruncated) fun typedData _ =>
    ?_
  cases poolString strings nameIndex with
  | none => exact meets_pure trivial
  | some name =>
    refine meets_bind (meets_add (by omega)) fun typeAt htypeAt => ?_
    refine meets_bind (meets_inside (by omega) (by omega)) fun _ _ => ?_
    have hbyte : typeAt < (whole mem).size := by
      change typeAt < mem.length
      omega
    exact meets_bind (meets_byteAt within_whole hbyte) fun _ _ => meets_pure trivial

theorem meets_readElement (hmem : mem.length ≤ 2 ^ 24) (hc : chunk.Fits mem offset) :
    Meets (readElement mem offset chunk strings)
      (fun r => ∀ identity, r = some identity → Named identity) Named := by
  have hlarge : mem.length < 2 ^ 64 := by omega
  have hinside : offset + chunk.size ≤ mem.length := hc.within
  have hmalformed : Named (failed "Android XML start element is malformed") :=
    named_failed (by decide)
  have hexceeded : Named (failed "Android manifest attributes exceed their chunk") :=
    named_failed (by decide)
  refine meets_ite (fun _ => meets_refuse hmalformed) fun hheader => ?_
  have hshort : ∀ i position, i + 2 ≤ 36 → position = offset + i →
      Meets (u16In mem (chunk.range offset) position)
        (fun r => ∀ v, r = some v → v < 2 ^ 16) Named := by
    rintro i _ hi rfl
    refine meets_u16In hlarge (Nat.le_add_right _ _) ?_
    change offset + i + 2 ≤ offset + chunk.size
    omega
  refine meets_bind (meets_add (by omega)) fun tagAt htagAt => ?_
  have htag : tagAt + 4 ≤ (chunk.range offset).base + (chunk.range offset).size := by
    change tagAt + 4 ≤ offset + chunk.size
    omega
  have hbase : (chunk.range offset).base ≤ tagAt := by
    change offset ≤ tagAt
    omega
  refine meets_bind (meets_require (meets_u32In hlarge hbase htag) hmalformed) fun tagIndex _ => ?_
  refine meets_bind (meets_add (by omega)) fun startAt hstartAt => ?_
  refine meets_bind (meets_require (hshort 24 _ (by decide) hstartAt) hmalformed)
    fun attributeStart hstart => ?_
  refine meets_bind (meets_add (by omega)) fun sizeAt hsizeAt => ?_
  refine meets_bind (meets_require (hshort 26 _ (by decide) hsizeAt) hmalformed)
    fun attributeSize hsize => ?_
  refine meets_bind (meets_add (by omega)) fun countAt hcountAt => ?_
  refine meets_bind (meets_require (hshort 28 _ (by decide) hcountAt) hmalformed)
    fun attributeCount hcount => ?_
  refine meets_ite (fun _ => meets_refuse hmalformed) fun hstride => ?_
  refine meets_ite (fun _ => meets_pure nofun) fun _ => ?_
  refine meets_bind (meets_add (by omega)) fun node hnode => ?_
  refine meets_bind (meets_add (by omega)) fun attributes hattributes => ?_
  refine meets_bind (meets_add (by omega)) fun finish hfinish => ?_
  refine meets_ite (fun _ => meets_refuse hexceeded) fun hbegin => ?_
  have hproduct : attributeCount * attributeSize < 2 ^ 64 := by
    calc attributeCount * attributeSize ≤ 2 ^ 16 * 2 ^ 16 := Nat.mul_le_mul hcount.le hsize.le
      _ < 2 ^ 64 := by decide
  refine meets_bind (meets_mul hproduct) fun total htotal => ?_
  refine meets_bind (meets_sub (by omega)) fun left hleft => ?_
  refine meets_ite (fun _ => meets_refuse hexceeded) fun hfits => ?_
  refine meets_bind (meets_foldlM (fun _ => True) (fun identity index hindex _ => ?_) trivial)
    fun identity _ => ?_
  · refine meets_readAttribute hmem hinside ?_ (List.mem_range.1 hindex) (by omega) ?_
    · change offset ≤ attributes
      omega
    · change attributes + attributeCount * attributeSize ≤ offset + chunk.size
      omega
  · refine meets_ite (fun _ => meets_refuse (named_error identity (by decide))) fun hnamed => ?_
    refine meets_pure fun r hr => ?_
    cases hr
    exact fun _ => not_or.1 hnamed

/-! The scan of the chunks. -/

theorem meets_skipChunk {scan : Scan} (hmem : mem.length ≤ 2 ^ 24)
    (hc : chunk.Fits mem scan.offset) :
    Meets (skipChunk scan chunk)
      (Sum.elim (fun next => next.offset ≤ mem.length ∧
        mem.length - next.offset < mem.length - scan.offset) Named) Named := by
  have hinside : scan.offset + chunk.size ≤ mem.length := hc.within
  have hheader := hc.header
  have hordered := hc.ordered
  refine meets_bind (meets_add (by omega)) fun next hnext => meets_pure ?_
  change next ≤ mem.length ∧ mem.length - next < mem.length - scan.offset
  omega

/-- A round of the scan comes to an end, or leaves less of the input. -/
theorem meets_scanChunk {scan : Scan} (hmem : mem.length ≤ 2 ^ 24)
    (hoffset : scan.offset ≤ mem.length) :
    Meets (scanChunk mem xml scan)
      (Sum.elim (fun next => next.offset ≤ mem.length ∧
        mem.length - next.offset < mem.length - scan.offset) Named) Named := by
  refine meets_ite (fun _ => meets_refuse (named_failed (by decide))) fun _ => ?_
  refine meets_bind (meets_require (meets_readChunk hmem hoffset) (named_failed (by decide)))
    fun chunk hc => ?_
  refine meets_ite (fun _ => ?_) fun _ => ?_
  · refine meets_ite (fun _ => meets_refuse (named_failed (by decide))) fun _ => ?_
    exact meets_bind (meets_rethrow (meets_parseStringPool hmem hc) fun _ => named_failed)
      fun strings _ => meets_skipChunk hmem hc
  · cases scan.pool with
    | none => exact meets_skipChunk hmem hc
    | some strings =>
      refine meets_ite (fun _ => ?_) fun _ => meets_skipChunk hmem hc
      refine meets_bind (meets_readElement hmem hc) fun found hfound => ?_
      cases found with
      | none => exact meets_skipChunk hmem hc
      | some identity => exact meets_pure (hfound identity rfl)

theorem meets_parse (hmem : mem.length ≤ 2 ^ 24) : Meets (parse mem) Named Named := by
  have hinvalid : Named (failed "AndroidManifest.xml is not valid binary XML") :=
    named_failed (by decide)
  refine meets_bind (meets_require (meets_readChunk hmem (Nat.zero_le _)) hinvalid)
    fun xml hxml => ?_
  refine meets_ite (fun _ => meets_refuse hinvalid) fun _ => ?_
  refine meets_loop (fun scan => scan.offset ≤ mem.length) (fun scan => mem.length - scan.offset)
    (fun scan hscan => meets_scanChunk hmem hscan) ?_ (by simp only; omega)
  have hinside : 0 + xml.size ≤ mem.length := hxml.within
  have hordered := hxml.ordered
  simp only
  omega

/-- Every manifest of at most 16 MiB is read to an identity: no read leaves the input or the chunk
it belongs to, no number wraps around, and every loop ends. -/
theorem parseAndroidManifest_safe (hmem : mem.length ≤ 16 * 1024 * 1024) :
    ∃ identity, parseAndroidManifest mem = .ok identity ∧ Named identity :=
  (meets_parse hmem).result

/-- A little-endian word. -/
def word (n : Nat) : Bytes := (List.range 4).map fun i => UInt8.ofNat (n >>> (8 * i))

/-- A UTF-8 string of a pool. -/
def pooled (value : Bytes) : Bytes :=
  [UInt8.ofNat value.length, UInt8.ofNat value.length] ++ value ++ [0]

/-- A string pool of four strings, and the element `manifest` with a package and a version code. -/
def smallManifest : Bytes :=
  let strings := [Ascii.bytes "manifest", Ascii.bytes "package", Ascii.bytes "versionCode",
    Ascii.bytes "a.b"].flatMap pooled
  word 0x00080003 ++ word 172 ++
    (word 0x001c0001 ++ word 88 ++ word 4 ++ word 0 ++ word kUtf8Flag ++ word 44 ++ word 0 ++
      word 0 ++ word 11 ++ word 21 ++ word 35 ++ strings ++ [0, 0, 0]) ++
    (word 0x00100102 ++ word 76 ++ word 2 ++ word kNoIndex ++ word kNoIndex ++ word 0 ++
      word 0x00140014 ++ word 2 ++ word 0 ++
      (word kNoIndex ++ word 1 ++ word 3 ++ word 0x03000008 ++ word 3) ++
      (word kNoIndex ++ word 2 ++ word kNoIndex ++ word 0x10000008 ++ word 7))

/-- What is read from it. -/
theorem parseAndroidManifest_safe_small :
    ∃ identity, parseAndroidManifest smallManifest = .ok identity ∧ Named identity ∧
      identity = { packageName := Ascii.bytes "a.b", versionCode := 7 } := by
  obtain ⟨identity, hparse, hnamed⟩ : ∃ identity,
      parseAndroidManifest smallManifest = .ok identity ∧
      Named identity := parseAndroidManifest_safe (by decide +kernel)
  have hread : parseAndroidManifest smallManifest =
      .ok { packageName := Ascii.bytes "a.b", versionCode := 7 } := by decide +kernel
  exact ⟨identity, hparse, hnamed, Except.ok.inj (hparse.symm.trans hread)⟩

end Nightcap.Update.AndroidManifest
