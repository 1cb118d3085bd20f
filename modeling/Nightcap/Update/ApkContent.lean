import Nightcap.Update.ApkVerifySafety

/-! The content digest of an APK covers all of it but the signing block and the field for the place
of the central directory. -/
namespace Nightcap.Update.ApkSignature

open Checked Utf8

variable {mapping mapping' : Mapping} {ssl : OpenSsl} {block block' : SigningBlock} {hash : Hash}
  {content d : Bytes} {a b size : Nat}

theorem orRefuse_ok {α : Type} {x : Option α} {e : String} {r : α} (h : orRefuse x e = .ok r) :
    x = some r := by
  cases x with
  | none => cases h
  | some s =>
    cases h
    rfl

theorem mapM_ok {α β : Type} {f : α → Comp String β} {xs : List α} {ys : List β}
    (h : xs.mapM f = .ok ys) :
    List.Forall₂ (fun x y => f x = .ok y) xs ys := by
  induction xs generalizing ys with
  | nil =>
    cases h
    exact .nil
  | cons x xs ih =>
    rw [List.mapM_cons] at h
    obtain ⟨y, hy, h⟩ := bind_eq_ok.1 h
    obtain ⟨rest, hrest, h⟩ := bind_eq_ok.1 h
    cases h
    exact .cons hy (ih hrest)

theorem putU32_inj (ha : a < 2 ^ 32) (hb : b < 2 ^ 32) (h : putU32 a = putU32 b) : a = b := by
  unfold putU32 at h
  simp only [List.cons.injEq, ← UInt8.toNat_inj, UInt8.toNat_ofNat'] at h
  omega

theorem length_putU32 : (putU32 a).length = 4 := rfl

/-! Chunks. -/

theorem flatten_chunks (content : Bytes) : (chunks content).flatten = content := by
  unfold chunks
  split
  · rename_i hempty
    rw [List.isEmpty_iff.1 hempty]
    rfl
  · exact Pieces.flatten_pieces _ _

theorem length_chunks (content : Bytes) : (chunks content).length = chunkCount content := by
  unfold chunks chunkCount
  split
  · rename_i hempty
    rw [List.isEmpty_iff.1 hempty]
    rfl
  · rename_i hmore
    exact Pieces.length_pieces (by decide) fun hnone => hmore (by rw [hnone]; rfl)

theorem chunks_single (hne : content ≠ []) (hsmall : content.length ≤ kChunkBytes) :
    chunks content = [content] := by
  unfold chunks
  rw [if_neg (fun hempty => hne (List.isEmpty_iff.1 hempty)), Pieces.pieces_last hsmall]

/-- A section is known from its chunks. -/
theorem chunks_injective : Function.Injective chunks := by
  intro x y h
  rw [← flatten_chunks x, h, flatten_chunks]

/-! The sections. -/

def sectionsOf (mapping : Mapping) (block : SigningBlock) : List Bytes :=
  [mapping.bytes.take block.begin,
    (mapping.bytes.drop block.centralDirectory).take (block.eocd - block.centralDirectory),
    (mapping.bytes.drop block.eocd).take 16 ++ putU32 block.begin ++
    (mapping.bytes.drop block.eocd).drop 20]

theorem bytesAt_ok {view : View} {bytes : Bytes} {i : Nat}
    (h : (bytesAt mapping.bytes view i size : Comp String Bytes) = .ok bytes) :
    bytes = (mapping.bytes.drop (view.base + i)).take size := by
  unfold bytesAt at h
  split at h
  · cases h
    rfl
  · cases h

theorem contentSections_ok {sections : List Bytes}
    (h : contentSections mapping block = .ok sections) :
    sections = sectionsOf mapping block ∧ block.begin < 2 ^ 32 := by
  unfold contentSections at h
  obtain ⟨recordSize, hsize, h⟩ := bind_eq_ok.1 h
  obtain ⟨record, hrecord, h⟩ := bind_eq_ok.1 h
  split at h
  · cases h
  · rename_i hfits
    obtain ⟨content, hcontent, h⟩ := bind_eq_ok.1 h
    obtain ⟨directorySize, hdirectorySize, h⟩ := bind_eq_ok.1 h
    obtain ⟨directory, hdirectory, h⟩ := bind_eq_ok.1 h
    cases h
    have hsub : ∀ x y z : Nat, (sub x y : Comp String Nat) = .ok z → z = x - y := by
      intro x y z hz
      unfold sub at hz
      split at hz <;> cases hz
      rfl
    have hbase : mapping.whole.base = 0 := rfl
    have hrecord' := bytesAt_ok hrecord
    have hcontent' := bytesAt_ok hcontent
    have hdirectory' := bytesAt_ok hdirectory
    rw [hbase, Nat.zero_add] at hrecord' hcontent' hdirectory'
    rw [hsub _ _ _ hsize, List.take_of_length_le (by rw [List.length_drop])] at hrecord'
    rw [hsub _ _ _ hdirectorySize] at hdirectory'
    rw [List.drop_zero] at hcontent'
    subst hrecord' hcontent' hdirectory'
    exact ⟨rfl, by omega⟩

/-- What a digest is computed from. -/
theorem computeContentDigest_ok (h : computeContentDigest mapping ssl block hash = .ok d) :
    block.begin < 2 ^ 32 ∧ ∃ digests,
      List.Forall₂
        (fun chunk digest => ssl.digest hash (0xa5 :: putU32 chunk.length ++ chunk) = some digest)
        ((sectionsOf mapping block).flatMap chunks) digests ∧
      digests.length < 2 ^ 32 ∧
        ssl.digest hash (0x5a :: putU32 digests.length ++ digests.flatten) = some d := by
  unfold computeContentDigest at h
  obtain ⟨sections, hsections, h⟩ := bind_eq_ok.1 h
  obtain ⟨rfl, hbegin⟩ := contentSections_ok hsections
  simp only at h
  split at h
  · cases h
  · rename_i hcount
    obtain ⟨digests, hdigests, h⟩ := bind_eq_ok.1 h
    have hall := (mapM_ok hdigests).imp fun chunk digest hchunk => orRefuse_ok hchunk
    have hlength : digests.length = ((sectionsOf mapping block).map chunkCount).sum := by
      rw [← hall.length_eq, List.length_flatMap]
      simp only [length_chunks]
    refine ⟨hbegin, digests, hall, by omega, ?_⟩
    rw [hlength]
    exact orRefuse_ok h

/-- The record is one chunk, the last of all. -/
theorem chunks_record (hblock : block.Placed mapping)
    (hnear : mapping.bytes.length ≤ block.eocd + 65557) :
    (sectionsOf mapping block).flatMap chunks =
      (chunks (mapping.bytes.take block.begin) ++
        chunks ((mapping.bytes.drop block.centralDirectory).take
          (block.eocd - block.centralDirectory))) ++
      [(mapping.bytes.drop block.eocd).take 16 ++ putU32 block.begin ++
        (mapping.bytes.drop block.eocd).drop 20] := by
  have heocd := hblock.eocd
  have hsize : kChunkBytes = 1048576 := rfl
  have hlength : ((mapping.bytes.drop block.eocd).take 16 ++ putU32 block.begin ++
      (mapping.bytes.drop block.eocd).drop 20).length = mapping.bytes.length - block.eocd := by
    simp only [List.length_append, List.length_take, List.length_drop, length_putU32]
    omega
  have hne : (mapping.bytes.drop block.eocd).take 16 ++ putU32 block.begin ++
      (mapping.bytes.drop block.eocd).drop 20 ≠ [] :=
    List.ne_nil_of_length_pos (by omega)
  simp only [sectionsOf, List.flatMap_cons, List.flatMap_nil, List.append_nil]
  rw [chunks_single hne (by omega)]
  exact (List.append_assoc _ _ _).symm

/-- The digests of chunks name the chunks. -/
theorem chunks_of_digests (hinj : ∀ x y d, ssl.digest hash x = some d →
    ssl.digest hash y = some d → x = y)
    {xs ys : List Bytes} {digests : List Bytes}
    (hx : List.Forall₂ (fun chunk digest => ssl.digest hash (0xa5 :: putU32 chunk.length ++ chunk) =
      some digest) xs digests)
    (hy : List.Forall₂ (fun chunk digest => ssl.digest hash (0xa5 :: putU32 chunk.length ++ chunk) =
      some digest) ys digests) :
    xs = ys := by
  induction hx generalizing ys with
  | nil => exact (List.forall₂_nil_right_iff.1 hy).symm
  | cons hfirst _ ih =>
    cases hy with
    | cons hfirst' hrest' =>
      have hsame := List.tail_eq_of_cons_eq (hinj _ _ _ hfirst hfirst')
      rw [(List.append_inj hsame rfl).2, ih hrest']

/-- Two files that differ in nothing but their signing blocks and the fields for the place of the
central directory. -/
def DifferInSigning (mapping mapping' : Mapping) (block block' : SigningBlock) : Prop :=
  ∃ content signing signing' directory start field field' rest : Bytes,
    mapping.bytes = content ++ signing ++ directory ++ start ++ field ++ rest ∧
      mapping'.bytes = content ++ signing' ++ directory ++ start ++ field' ++ rest ∧
      block.begin = content.length ∧ block'.begin = content.length ∧
      block.centralDirectory = content.length + signing.length ∧
        block'.centralDirectory = content.length + signing'.length ∧
      block.eocd = block.centralDirectory + directory.length ∧
        block'.eocd = block'.centralDirectory + directory.length ∧
      start.length = 16 ∧ field.length = 4 ∧ field'.length = 4

/-- The file cut where its sections and the field end. -/
theorem cut_file (h : block.Placed mapping) : mapping.bytes = mapping.bytes.take block.begin ++
    (mapping.bytes.drop block.begin).take (block.centralDirectory - block.begin) ++
    (mapping.bytes.drop block.centralDirectory).take (block.eocd - block.centralDirectory) ++
    (mapping.bytes.drop block.eocd).take 16 ++ ((mapping.bytes.drop block.eocd).drop 16).take 4 ++
    (mapping.bytes.drop block.eocd).drop 20 := by
  have hordered := h.ordered
  have hdirectory := h.directory
  have hjoin : ∀ i j : Nat, i ≤ j →
      mapping.bytes.drop i = (mapping.bytes.drop i).take (j - i) ++ mapping.bytes.drop j := by
    intro i j hij
    have hdrop : mapping.bytes.drop j = (mapping.bytes.drop i).drop (j - i) := by
      rw [List.drop_drop, Nat.add_sub_cancel' hij]
    rw [hdrop, List.take_append_drop]
  have hrecord : mapping.bytes.drop block.eocd = (mapping.bytes.drop block.eocd).take 16 ++
      (((mapping.bytes.drop block.eocd).drop 16).take 4 ++
        (mapping.bytes.drop block.eocd).drop 20) := by
    have htail : (mapping.bytes.drop block.eocd).drop 20 =
        ((mapping.bytes.drop block.eocd).drop 16).drop 4 := by
      simp only [List.drop_drop, Nat.add_assoc, Nat.reduceAdd]
    rw [htail, List.take_append_drop, List.take_append_drop]
  simp only [List.append_assoc]
  rw [← hrecord, ← hjoin _ _ hdirectory, ← hjoin _ _ (by omega), List.take_append_drop]

/-- Files with one content digest differ in nothing that is signed. -/
theorem content_digest_covers (ssl : OpenSsl) (hash : Hash) (size : Nat)
    (hinj : ∀ x y d, ssl.digest hash x = some d → ssl.digest hash y = some d → x = y)
    (hsize : ∀ x d, ssl.digest hash x = some d → d.length = size)
    (hparse : parseSigningBlock mapping = .ok block)
    (hparse' : parseSigningBlock mapping' = .ok block')
    (hd : computeContentDigest mapping ssl block hash = .ok d)
    (hd' : computeContentDigest mapping' ssl block' hash = .ok d) :
    DifferInSigning mapping mapping' block block' := by
  have hplaced : ∀ {m : Mapping} {b : SigningBlock}, parseSigningBlock m = .ok b →
      b.Placed m ∧ m.bytes.length ≤ b.eocd + 65557 := by
    intro m b hb
    have hmeets : Meets (parseSigningBlock m) (fun b => b.Placed m ∧
        m.bytes.length ≤ b.eocd + 65557) (· ≠ "") :=
      meets_parseSigningBlock
    rwa [hb] at hmeets
  obtain ⟨hblock, hnear⟩ := hplaced hparse
  obtain ⟨hblock', hnear'⟩ := hplaced hparse'
  obtain ⟨hbegin, digests, hchunks, hcount, htop⟩ := computeContentDigest_ok hd
  obtain ⟨hbegin', digests', hchunks', hcount', htop'⟩ := computeContentDigest_ok hd'
  -- the list of the digests, from the digest over it
  have hinput := List.tail_eq_of_cons_eq (hinj _ _ _ htop htop')
  obtain ⟨hcounts, hflatten⟩ := List.append_inj hinput rfl
  have hlength : digests.length = digests'.length := putU32_inj hcount hcount' hcounts
  have hfixed : ∀ {chunks digests : List Bytes},
      List.Forall₂ (fun chunk digest => ssl.digest hash (0xa5 :: putU32 chunk.length ++ chunk) =
        some digest) chunks digests →
        ∀ digest ∈ digests, digest.length = size := by
    intro chunks digests hall digest hdigest
    obtain ⟨n, hn, rfl⟩ := List.getElem_of_mem hdigest
    exact hsize _ _ (hall.get (hall.length_eq ▸ hn) hn)
  obtain rfl : digests = digests' :=
    Pieces.eq_of_flatten hlength (hfixed hchunks) (hfixed hchunks') hflatten
  -- the chunks, of which the last is the record with the place of the signing block
  have hall := chunks_of_digests hinj hchunks hchunks'
  rw [chunks_record hblock hnear, chunks_record hblock' hnear'] at hall
  obtain ⟨hfront, hlast⟩ := List.append_inj' hall rfl
  have hrecord := List.singleton_inj.1 hlast
  have heocd := hblock.eocd
  have heocd' := hblock'.eocd
  have hstarts : ((mapping.bytes.drop block.eocd).take 16).length = 16 := by
    rw [List.length_take, List.length_drop]
    omega
  have hstarts' : ((mapping'.bytes.drop block'.eocd).take 16).length = 16 := by
    rw [List.length_take, List.length_drop]
    omega
  obtain ⟨hhead, hrest⟩ := List.append_inj hrecord (by
    rw [List.length_append, List.length_append, hstarts, hstarts', length_putU32, length_putU32])
  obtain ⟨hstart, hfield⟩ := List.append_inj hhead (hstarts.trans hstarts'.symm)
  have hsame : block.begin = block'.begin := putU32_inj hbegin hbegin' hfield
  have hordered := hblock.ordered
  have hordered' := hblock'.ordered
  have hdirectory := hblock.directory
  have hdirectory' := hblock'.directory
  have hlengths : (mapping.bytes.take block.begin).length =
      (mapping'.bytes.take block'.begin).length := by
    rw [List.length_take, List.length_take]
    omega
  obtain ⟨hcontent, hdirectories⟩ := List.append_inj hfront (by
    rw [length_chunks, length_chunks, chunkCount, chunkCount, hlengths])
  have hcontent := chunks_injective hcontent
  have hdirectories := chunks_injective hdirectories
  refine ⟨_, _,
    (mapping'.bytes.drop block'.begin).take (block'.centralDirectory - block'.begin), _, _, _,
    ((mapping'.bytes.drop block'.eocd).drop 16).take 4, _, cut_file hblock, ?_, ?_⟩
  · have hcut := cut_file hblock'
    rwa [← hcontent, ← hdirectories, ← hstart, ← hrest] at hcut
  · have hdirectoryLength := congrArg List.length hdirectories
    simp only [List.length_take, List.length_drop] at hdirectoryLength ⊢
    omega

/-! Two archives of one file of which only the signing blocks differ, and the SHA-256 of what is
hashed for them. -/

/-- Sections of one chunk each. -/
theorem computeContentDigest_small {sections digests : List Bytes}
    (hsections : contentSections mapping block = .ok sections)
    (hsmall : ∀ s ∈ sections, s ≠ [] ∧ s.length ≤ kChunkBytes)
    (hcount : sections.length ≠ 0 ∧ sections.length ≤ 0xffffffff)
    (hdigests : sections.mapM (chunkDigest ssl hash) = .ok digests)
    (htop : ssl.digest hash (0x5a :: putU32 sections.length ++ digests.flatten) = some d) :
    computeContentDigest mapping ssl block hash = .ok d := by
  have hchunks : ∀ xs : List Bytes, (∀ s ∈ xs, s ≠ [] ∧ s.length ≤ kChunkBytes) →
      xs.flatMap chunks = xs ∧ (xs.map chunkCount).sum = xs.length := by
    intro xs hxs
    induction xs with
    | nil => exact ⟨rfl, rfl⟩
    | cons x xs ih =>
      obtain ⟨⟨hne, hle⟩, hrest⟩ := List.forall_mem_cons.1 hxs
      obtain ⟨hsame, hsum⟩ := ih hrest
      have hsingle := chunks_single hne hle
      have hone : chunkCount x = 1 := by rw [← length_chunks, hsingle, List.length_singleton]
      rw [List.flatMap_cons, hsingle, hsame, List.map_cons, List.sum_cons, hone, hsum]
      exact ⟨rfl, Nat.add_comm _ _⟩
  obtain ⟨hsame, hsum⟩ := hchunks sections hsmall
  unfold computeContentDigest
  simp only [hsections, bind, Except.bind, hsame, hsum, hdigests, htop]
  rw [if_neg (by omega)]
  rfl

/-- A stored file `a` of one byte. -/
def zipContent : Bytes :=
  [80, 75, 3, 4, 20, 0, 0, 0, 0, 0, 0, 0, 33, 0, 131, 22, 220, 140, 1, 0, 0, 0, 1, 0, 0, 0, 1, 0, 0,
    0, 97, 120]

def zipDirectory : Bytes :=
  [80, 75, 1, 2, 20, 0, 20, 0, 0, 0, 0, 0, 0, 0, 33, 0, 131, 22, 220, 140,
    1, 0, 0, 0, 1, 0, 0, 0, 1,
    0, 0, 0, 0, 0, 0, 0, 0, 0, 0, 0, 0, 0, 0, 0, 0, 0, 97]

/-- The end record for a central directory at this place. -/
def zipRecord (directory : UInt8) : Bytes :=
  [80, 75, 5, 6, 0, 0, 0, 0, 1, 0, 1, 0, 47, 0, 0, 0, directory, 0, 0, 0, 0, 0]

def contentChunk : Bytes :=
  [117, 103, 49, 237, 180, 28, 99, 80, 212, 183, 60, 58, 14, 85, 225, 216,
    148, 127, 6, 240, 39, 175,
    232, 105, 125, 108, 99, 24, 151, 125, 103, 89]

def directoryChunk : Bytes :=
  [217, 17, 254, 137, 11, 38, 103, 129, 1, 214, 232, 100, 95, 231, 86, 41, 37, 152, 25, 204, 154,
    191, 56, 49, 72, 77, 204, 57, 235, 7, 253, 246]

def recordChunk : Bytes :=
  [130, 43, 59, 148, 74, 78, 46, 96, 81, 236, 89, 116, 16, 183, 138, 199, 230, 196, 185, 150, 57,
    238, 178, 102, 189, 235, 208, 61, 194, 77, 149, 209]

def zipDigest : Bytes :=
  [199, 14, 181, 248, 201, 113, 86, 79, 83, 14, 120, 98, 233, 173, 2, 216,
    187, 204, 228, 33, 98, 42,
    79, 106, 249, 103, 30, 84, 208, 50, 254, 223]

/-- The SHA-256 of the chunks and of their digests; nothing else can be hashed. -/
def recordingSsl : OpenSsl :=
  { refusing with
    digest := fun hash input =>
      match hash with
      | .sha512 => none
      | .sha256 =>
        if input = 0xa5 :: putU32 32 ++ zipContent then some contentChunk
        else if input = 0xa5 :: putU32 47 ++ zipDirectory then some directoryChunk
        else if input = 0xa5 :: putU32 22 ++ zipRecord 32 then some recordChunk
        else if input = 0x5a :: putU32 3 ++ (contentChunk ++ directoryChunk ++ recordChunk) then
          some zipDigest
        else none }

/-- The archive with an empty signature of scheme v2. -/
def signedApk : Mapping where
  bytes :=
    zipContent ++
      ([40, 0, 0, 0, 0, 0, 0, 0] ++ [8, 0, 0, 0, 0, 0, 0, 0] ++ [0x1a, 0x87, 0x09, 0x71] ++
        [0, 0, 0, 0] ++ [40, 0, 0, 0, 0, 0, 0, 0] ++ kSigningMagic) ++
      zipDirectory ++ zipRecord 80
  minimum := by decide +kernel
  bounded := by decide +kernel

def signedBlock : SigningBlock :=
  { v2 := some ⟨52, 4⟩, begin := 32, centralDirectory := 80, eocd := 127 }

/-- The archive with a longer signature. -/
def resignedApk : Mapping where
  bytes :=
    zipContent ++
      ([44, 0, 0, 0, 0, 0, 0, 0] ++ [12, 0, 0, 0, 0, 0, 0, 0] ++ [0x1a, 0x87, 0x09, 0x71] ++
        [0, 0, 0, 0, 0, 0, 0, 0] ++ [44, 0, 0, 0, 0, 0, 0, 0] ++ kSigningMagic) ++
      zipDirectory ++ zipRecord 84
  minimum := by decide +kernel
  bounded := by decide +kernel

def resignedBlock : SigningBlock :=
  { v2 := some ⟨52, 8⟩, begin := 32, centralDirectory := 84, eocd := 131 }

theorem content_digest_covers_resigned :
    DifferInSigning signedApk resignedApk signedBlock resignedBlock := by
  have hinj : ∀ x y d, recordingSsl.digest .sha256 x = some d →
      recordingSsl.digest .sha256 y = some d → x = y := by
    have hdiffer : [contentChunk, directoryChunk, recordChunk, zipDigest].Nodup := by decide
    simp only [List.nodup_cons, List.mem_cons, List.not_mem_nil, or_false, not_or] at hdiffer
    obtain ⟨⟨h1, h2, h3⟩, ⟨h4, h5⟩, h6, -⟩ := hdiffer
    intro x y d hx hy
    simp only [recordingSsl] at hx hy
    split_ifs at hx hy
    all_goals
      cases hx
      simp_all
  have hsize : ∀ x d, recordingSsl.digest .sha256 x = some d → d.length = 32 := by
    intro x d hx
    simp only [recordingSsl] at hx
    split_ifs at hx
    all_goals
      cases hx
      rfl
  have hsmall : ∀ s ∈ [zipContent, zipDirectory, zipRecord 32], s ≠ [] ∧
      s.length ≤ kChunkBytes := by
    decide
  have hdigests : [zipContent, zipDirectory, zipRecord 32].mapM (chunkDigest recordingSsl .sha256) =
      .ok [contentChunk, directoryChunk, recordChunk] := by
    decide +kernel
  have htop : recordingSsl.digest .sha256
      (0x5a :: putU32 3 ++ [contentChunk, directoryChunk, recordChunk].flatten) =
        some zipDigest := by
    decide +kernel
  have hsigned : computeContentDigest signedApk recordingSsl signedBlock .sha256 = .ok zipDigest :=
    computeContentDigest_small (by decide +kernel) hsmall (by decide) hdigests htop
  have hresigned :
      computeContentDigest resignedApk recordingSsl resignedBlock .sha256 = .ok zipDigest :=
    computeContentDigest_small (by decide +kernel) hsmall (by decide) hdigests htop
  exact content_digest_covers recordingSsl .sha256 32 hinj hsize (by decide +kernel)
    (by decide +kernel) hsigned hresigned

end Nightcap.Update.ApkSignature
