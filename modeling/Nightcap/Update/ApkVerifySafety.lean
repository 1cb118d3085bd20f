import Nightcap.Update.ApkSafety
import Nightcap.Update.ApkVerify

/-! An APK is accepted for its signers alone, and refused with a message, unless its scheme has no
signer at all. -/
namespace Nightcap.Update.ApkSignature

open Checked Utf8

variable {α : Type} {mapping : Mapping} {ssl : OpenSsl} {reader fields : Reader}
  {span signer signedData scheme sequence : View} {block : SigningBlock} {hash : Hash}
  {v3 : Bool} {key : ssl.Key}
  {e : String} {err : String → Prop} {certificates : View} {leaf : Option String}

theorem append_ne_empty {s t : String} (h : s ≠ "") : s ++ t ≠ "" := by
  intro heq
  exact h (String.append_eq_empty_iff.1 heq).1

theorem meets_orRefuse {x : Option α} (he : err e) : Meets (orRefuse x e)
    (fun a => x = some a) err := by
  cases x with
  | none => exact meets_refuse he
  | some a => exact meets_pure rfl

theorem meets_spanBytes (h : Part span mapping.whole) :
    Meets (spanBytes mapping span) (fun bytes => bytes.length = span.size) err :=
  meets_bytesAt whole_within (h.within.trans (Nat.le_refl _))

/-! Fields of a record. -/

/-- The reader of the same span, further on or not. -/
structure Reader.Follows (reader next : Reader) : Prop where
  span : next.span = reader.span
  standing : next.Standing

theorem Reader.After.follows {next : Reader} (h : reader.After next) :
    reader.Follows next := ⟨h.span, h.standing⟩

theorem Reader.Follows.part {next : Reader} (h : reader.Follows next)
    (hspan : Part reader.span mapping.whole) :
    Part next.span mapping.whole := h.span ▸ hspan

theorem meets_field (hspan : Part reader.span mapping.whole) (h : reader.Standing) (he : err e) :
    Meets (require (reader.lengthPrefixed mapping) e)
      (fun r => Part r.1 mapping.whole ∧ reader.Follows r.2) err :=
  (meets_require (meets_lengthPrefixed hspan h) he).mono
    (fun _ hr => ⟨hr.1.trans hspan, hr.2.follows⟩) fun _ h => h

theorem meets_number (hspan : Part reader.span mapping.whole) (h : reader.Standing) (he : err e) :
    Meets (require (reader.u32Value mapping) e) (fun r => reader.Follows r.2) err :=
  (meets_require (meets_u32Value hspan h) he).mono (fun _ hr => hr.2.follows) fun _ h => h

theorem meets_sdkRange (hspan : Part reader.span mapping.whole) (h : reader.Standing) (he : err e) :
    Meets (sdkRange mapping v3 reader e) (fun r => reader.Follows r.2) err := by
  refine meets_ite (fun _ => ?_) fun _ => meets_pure ⟨rfl, h⟩
  refine meets_bind (meets_number hspan h he) ?_
  rintro ⟨minimum, next⟩ hnext
  refine meets_bind (meets_number (hnext.part hspan) hnext.standing he) ?_
  rintro ⟨maximum, last⟩ hlast
  exact meets_pure ⟨hlast.span.trans hnext.span, hlast.standing⟩

theorem meets_skipReserved (hspan : Part reader.span mapping.whole) (h : reader.Standing) :
    Meets (skipReserved mapping v3 reader) (fun next => reader.Follows next) (· ≠ "") := by
  refine meets_bind (meets_remaining h) fun left _ => ?_
  refine meets_ite (fun _ => ?_) fun _ => meets_pure ⟨rfl, h⟩
  refine meets_bind (meets_field hspan h (by decide)) ?_
  rintro ⟨reserved, next⟩ ⟨-, hnext⟩
  exact meets_ite (fun _ => meets_refuse (by decide)) fun _ => meets_pure hnext

theorem meets_parseSignedData (h : Part signedData mapping.whole) :
    Meets (parseSignedData mapping signedData v3)
      (fun r => Part r.digests mapping.whole ∧ Part r.certificates mapping.whole) (· ≠ "") := by
  have hstart : Part (Reader.ofSpan signedData).span mapping.whole := h
  refine meets_bind (meets_field hstart (standing_ofSpan _) (by decide)) ?_
  rintro ⟨digests, first⟩ ⟨hdigests, hfirst⟩
  have hspan := hfirst.part h
  refine meets_bind (meets_field hspan hfirst.standing (by decide)) ?_
  rintro ⟨certificates, second⟩ ⟨hcertificates, hsecond⟩
  have hspan := hsecond.part hspan
  refine meets_bind (meets_sdkRange hspan hsecond.standing (by decide)) ?_
  rintro ⟨sdks, third⟩ hthird
  have hspan := hthird.part hspan
  refine meets_bind (meets_field hspan hthird.standing (by decide)) ?_
  rintro ⟨attributes, fourth⟩ ⟨-, hfourth⟩
  have hspan := hfourth.part hspan
  refine meets_bind (meets_skipReserved hspan hfourth.standing) fun last hlast => ?_
  refine meets_bind (meets_remaining hlast.standing) fun left _ => ?_
  refine meets_ite (fun _ => meets_refuse ?_) fun _ => meets_pure ⟨hdigests, hcertificates⟩
  exact append_ne_empty (by decide)

theorem meets_fieldsMalformed (h : reader.Standing) {post : α → Prop} :
    Meets (fieldsMalformed signer signedData reader) post (· ≠ "") := by
  refine meets_bind (meets_remaining h) fun left _ => meets_refuse ?_
  repeat' apply append_ne_empty
  decide

theorem meets_afterFailure (hspan : Part reader.span mapping.whole) (h : reader.Standing) :
    Meets reader.afterFailure (fun next => next.Standing) err := by
  have hwithin := hspan.within
  have hbounded := mapping.bounded
  have hposition : reader.position ≤ reader.span.size := h
  refine meets_bind (meets_remaining h) fun left hleft => ?_
  refine meets_ite (fun _ => meets_pure h) fun hroom => ?_
  refine meets_bind (meets_add (by omega)) fun next hnext => meets_pure ?_
  change next ≤ reader.span.size
  omega

theorem meets_parseSignerFields (hspan : Part reader.span mapping.whole) (h : reader.Standing) :
    Meets (parseSignerFields mapping signer signedData reader)
      (fun r => Part r.1 mapping.whole ∧ Part r.2 mapping.whole) (· ≠ "") := by
  refine meets_bind (meets_lengthPrefixed hspan h) fun first hfirst => ?_
  cases first with
  | none => exact meets_bind (meets_afterFailure hspan h) fun next hnext =>
    meets_fieldsMalformed hnext
  | some first =>
    obtain ⟨hsignatures, hafter⟩ := hfirst _ rfl
    have hspan' := hafter.follows.part hspan
    refine meets_bind (meets_lengthPrefixed hspan' hafter.standing) fun second hsecond => ?_
    cases second with
    | none => exact meets_bind (meets_afterFailure hspan' hafter.standing) fun next hnext =>
      meets_fieldsMalformed hnext
    | some second =>
      obtain ⟨hkey, hafter'⟩ := hsecond _ rfl
      refine meets_bind (meets_remaining hafter'.standing) fun left _ => ?_
      refine meets_ite (fun _ => meets_fieldsMalformed hafter'.standing) fun _ => meets_pure ?_
      exact ⟨hsignatures.trans hspan, hkey.trans hspan'⟩

theorem meets_parseSigner (h : Part signer mapping.whole) :
    Meets (parseSigner mapping signer v3)
      (fun r => Part r.signedData mapping.whole ∧ Part r.signatures mapping.whole ∧
        Part r.publicKeyBytes mapping.whole) (· ≠ "") := by
  have hstart : Part (Reader.ofSpan signer).span mapping.whole := h
  refine meets_bind (meets_field hstart (standing_ofSpan _) (by decide)) ?_
  rintro ⟨signedData, first⟩ ⟨hsigned, hfirst⟩
  have hspan := hfirst.part h
  refine meets_bind (meets_sdkRange hspan hfirst.standing (by decide)) ?_
  rintro ⟨sdks, second⟩ hsecond
  have hspan := hsecond.part hspan
  refine meets_ite (fun _ => meets_refuse (by decide)) fun _ => ?_
  refine meets_bind (meets_parseSignerFields hspan hsecond.standing) ?_
  rintro ⟨signatures, publicKeyBytes⟩ ⟨hsignatures, hkey⟩
  exact meets_pure ⟨hsigned, hsignatures, hkey⟩

theorem selectAlgorithm_parts {digests signatures : List IdBytes} {algorithm : SignatureAlgorithm}
    {signature digest : View}
    (h : selectAlgorithm digests signatures = some (algorithm, signature, digest)) :
    supportedAlgorithm algorithm.id = some algorithm ∧ ⟨algorithm.id, digest⟩ ∈ digests ∧
      ∃ record ∈ signatures, record.bytes = signature := by
  obtain ⟨record, hrecord, hselected⟩ := List.exists_of_findSome?_eq_some h
  obtain ⟨found, hfound, hselected⟩ := Option.bind_eq_some_iff.1 hselected
  obtain ⟨⟨id, bytes⟩, hdigest, heq⟩ := Option.map_eq_some_iff.1 hselected
  cases heq
  have hid : algorithm.id = record.id := by
    unfold supportedAlgorithm at hfound
    split at hfound <;> cases hfound <;> rfl
  have hmatches := List.find?_some hdigest
  have hsame : id = algorithm.id := by simpa using hmatches
  refine ⟨by rw [hid, hfound], ?_, record, hrecord, rfl⟩
  rw [← hsame]
  exact List.mem_of_find?_eq_some hdigest

/-! The digest of the content. -/

theorem meets_contentSections (h : block.Placed mapping) :
    Meets (contentSections mapping block) (fun _ => True) (· ≠ "") := by
  have hordered := h.ordered
  have hdirectory := h.directory
  have heocd := h.eocd
  have hwhole : mapping.whole.size = mapping.bytes.length := rfl
  refine meets_bind (meets_sub (by omega)) fun recordSize hrecordSize => ?_
  refine meets_bind (meets_bytesAt whole_within (by omega)) fun record _ => ?_
  refine meets_ite (fun _ => meets_refuse (by decide)) fun _ => ?_
  refine meets_bind (meets_bytesAt whole_within (by omega)) fun content _ => ?_
  refine meets_bind (meets_sub hdirectory) fun directorySize hsize => ?_
  refine meets_bind (meets_bytesAt whole_within (by omega)) fun directory _ => ?_
  exact meets_pure trivial

theorem meets_mapM {ι : Type} {f : ι → Comp String α} (xs : List ι)
    (hf : ∀ x, Meets (f x) (fun _ => True) err) :
    Meets (xs.mapM f) (fun _ => True) err := by
  induction xs with
  | nil => exact meets_pure trivial
  | cons x xs ih =>
    rw [List.mapM_cons]
    exact meets_bind (hf x) fun a _ => meets_bind ih fun as _ => meets_pure trivial

theorem meets_computeContentDigest (h : block.Placed mapping) :
    Meets (computeContentDigest mapping ssl block hash) (fun _ => True) (· ≠ "") := by
  refine meets_bind (meets_contentSections h) fun sections _ => ?_
  refine meets_ite (fun _ => meets_refuse (by decide)) fun _ => ?_
  refine meets_bind (meets_mapM _ fun chunk => ?_) fun digests _ => ?_
  · exact (meets_orRefuse (by decide)).mono (fun _ _ => trivial) fun _ h => h
  · exact (meets_orRefuse (by decide)).mono (fun _ _ => trivial) fun _ h => h

/-! The certificates. -/

/-- The first certificate of a sequence has the key, and the fingerprint is that of its bytes. -/
def LeafCertificate (mapping : Mapping) (ssl : OpenSsl) (certificates : View) (key : ssl.Key)
    (fingerprint : String) :
    Prop :=
  ∃ span next encoded certificate own digest,
    (Reader.ofSpan certificates).lengthPrefixed mapping =
    (.ok (some (span, next)) : Comp String _) ∧
      spanBytes mapping span = .ok encoded ∧
        ssl.readCertificate encoded = some (certificate, encoded.length) ∧
        ssl.certificateKey certificate = some own ∧ ssl.sameKey own key = true ∧
          ssl.digest .sha256 encoded = some digest ∧ digest.length = 32 ∧ fingerprint = hex digest

/-- The reader of the sequence, and what the loop has kept of the first certificate. -/
structure Certifying (mapping : Mapping) (ssl : OpenSsl) (certificates : View)
    (key : ssl.Key) (reader : Reader)
    (leaf : Option String) : Prop where
  span : reader.span = certificates
  standing : reader.Standing
  first : leaf = none → reader = Reader.ofSpan certificates
  kept : ∀ fingerprint, leaf = some fingerprint →
    LeafCertificate mapping ssl certificates key fingerprint

theorem require_eq_ok {x : Comp String (Option α)} {a : α} :
    require x e = .ok a ↔ x = .ok (some a) := by
  unfold require
  rw [bind_eq_ok]
  constructor
  · rintro ⟨r, hr, h⟩
    cases r with
    | none => cases h
    | some b =>
      cases h
      exact hr
  · intro h
    exact ⟨some a, h, rfl⟩

theorem meets_verifyCertificate (hcertificates : Part certificates mapping.whole)
    (h : Certifying mapping ssl certificates key reader leaf) :
    Meets (verifyCertificate mapping ssl key reader leaf)
      (Sum.elim (fun next => Certifying mapping ssl certificates key next.1 next.2 ∧
          certificates.size - next.1.position < certificates.size - reader.position)
        fun fingerprint => LeafCertificate mapping ssl certificates key fingerprint) (· ≠ "") := by
  have hspan : Part reader.span mapping.whole := h.span ▸ hcertificates
  refine meets_bind (meets_remaining h.standing) fun left hleft => ?_
  refine meets_ite (fun _ => ?_) fun hmore => ?_
  · cases hleaf : leaf with
    | none => exact meets_refuse (by decide)
    | some fingerprint => exact meets_pure (h.kept fingerprint hleaf)
  · refine meets_bind
      (Meets.self (meets_require (meets_lengthPrefixed hspan h.standing) (by decide))) ?_
    rintro ⟨span, next⟩ ⟨⟨hpart, hafter⟩, hread⟩
    refine meets_ite (fun _ => meets_refuse (by decide)) fun _ => ?_
    refine meets_bind (Meets.self (meets_spanBytes (hpart.trans hspan))) ?_
    rintro encoded ⟨-, hencoded⟩
    refine meets_bind (meets_orRefuse (by decide)) ?_
    rintro ⟨certificate, used⟩ hcertificate
    refine meets_ite (fun _ => meets_refuse (by decide)) fun hused => ?_
    refine meets_ite (fun _ => meets_refuse (by decide)) fun hown => ?_
    refine meets_bind (meets_orRefuse (by decide)) fun digest hdigest => ?_
    refine meets_ite (fun _ => meets_refuse (by decide)) fun hlength => meets_pure ?_
    obtain rfl : used = encoded.length := not_not.1 hused
    refine ⟨⟨hafter.span.trans h.span, hafter.standing, nofun, ?_⟩, ?_⟩
    · intro fingerprint hfingerprint
      cases hleaf : leaf with
      | some kept =>
        rw [hleaf, Option.getD_some, Option.some_inj] at hfingerprint
        exact hfingerprint ▸ h.kept kept hleaf
      | none =>
        rw [hleaf, Option.getD_none, Option.some_inj] at hfingerprint
        rw [hleaf, Option.isNone_none, Bool.true_and, Bool.not_eq_true', Bool.not_eq_false] at hown
        obtain ⟨own, hkey, hsame⟩ := (Option.any_eq_true _ _).1 hown
        rw [h.first hleaf] at hread
        exact ⟨span, next, encoded, certificate, own, digest, require_eq_ok.1 hread, hencoded,
          hcertificate, hkey, hsame,
          hdigest, not_not.1 hlength, hfingerprint.symm⟩
    · have hforward : reader.position < next.position := hafter.forward
      have hstanding : next.position ≤ next.span.size := hafter.standing
      rw [hafter.span, h.span] at hstanding
      rw [h.span] at hleft
      simp only
      omega

theorem meets_verifyCertificates (hcertificates : Part certificates mapping.whole) :
    Meets (verifyCertificates mapping ssl certificates key)
      (fun fingerprint => LeafCertificate mapping ssl certificates key fingerprint) (· ≠ "") := by
  refine meets_loop (fun state => Certifying mapping ssl certificates key state.1 state.2)
    (fun state => certificates.size - state.1.position)
    (fun state hstate => meets_verifyCertificate hcertificates hstate) ?_ ?_
  · exact ⟨rfl, standing_ofSpan certificates, fun _ => rfl, nofun⟩
  · simp only [Reader.ofSpan]
    omega

/-! A signer. -/

/-- What a signer is accepted for: the signature over its signed data, the digest of the content in
that data, and the certificate of its key. -/
structure SignedBy (mapping : Mapping) (ssl : OpenSsl) (block : SigningBlock)
    (signer : View) (v3 : Bool)
    (fingerprint : String) (parsed : Signer) (signedData : SignedData)
    (algorithm : SignatureAlgorithm) (key : ssl.Key) :
    Prop where
  signer : parseSigner mapping signer v3 = .ok parsed
  data : parseSignedData mapping parsed.signedData v3 = .ok signedData
  supported : supportedAlgorithm algorithm.id = some algorithm
  public_key : readPublicKey mapping ssl parsed.publicKeyBytes = .ok key
  signature :
    ∃ signatures record signed signature,
    parseIdSequence mapping parsed.signatures = .ok signatures ∧
    record ∈ signatures ∧ spanBytes mapping record.bytes = .ok signature ∧
      spanBytes mapping parsed.signedData = .ok signed ∧
        ssl.verifies algorithm key signed signature = true
  content : ∃ digests record content, parseIdSequence mapping signedData.digests = .ok digests ∧
    record ∈ digests ∧
    record.id = algorithm.id ∧ spanBytes mapping record.bytes = .ok content ∧
      computeContentDigest mapping ssl block algorithm.digest = .ok content
  certificate : LeafCertificate mapping ssl signedData.certificates key fingerprint

theorem meets_verifySignedData {algorithm : SignatureAlgorithm} {signed signature : Bytes} :
    Meets (verifySignedData ssl algorithm key signed signature)
      (fun _ => ssl.verifies algorithm key signed signature = true) (· ≠ "") := by
  refine meets_ite (fun _ => meets_refuse (by decide)) fun _ => ?_
  refine meets_ite (fun _ => meets_refuse (by decide)) fun _ => ?_
  refine meets_ite (fun _ => meets_refuse (by decide)) fun hverifies => meets_pure ?_
  simpa using hverifies

theorem meets_readPublicKey (h : Part span mapping.whole) :
    Meets (readPublicKey mapping ssl span) (fun _ => True) (· ≠ "") := by
  refine meets_bind (meets_spanBytes h) fun encoded _ => ?_
  refine meets_bind (meets_orRefuse (by decide)) ?_
  rintro ⟨key, used⟩ -
  exact meets_ite (fun _ => meets_refuse (by decide)) fun _ => meets_pure trivial

theorem meets_verifySigner (hblock : block.Placed mapping) (hsigner : Part signer mapping.whole) :
    Meets (verifySigner mapping ssl block signer v3)
      (fun fingerprint => ∃ fields signedData algorithm key,
        SignedBy mapping ssl block signer v3 fingerprint fields signedData algorithm key)
          (fun _ => True) := by
  have hany : ∀ e : String, e ≠ "" → True := fun _ _ => trivial
  refine meets_bind (Meets.self ((meets_parseSigner hsigner).mono (fun _ h => h) hany)) ?_
  rintro fields ⟨⟨hsigned, hsignatures, hkey⟩, hfields⟩
  refine meets_bind (Meets.self ((meets_parseSignedData hsigned).mono (fun _ h => h) hany)) ?_
  rintro signedData ⟨⟨hdigests, hcertificates⟩, hsignedData⟩
  refine meets_ite (fun _ => meets_refuse trivial) fun _ => ?_
  refine meets_bind (Meets.self (meets_parseIdSequence hdigests)) ?_
  rintro digests ⟨hdigestParts, hdigestRecords⟩
  refine meets_bind (Meets.self (meets_parseIdSequence hsignatures)) ?_
  rintro signatures ⟨hsignatureParts, hsignatureRecords⟩
  refine meets_ite (fun _ => meets_refuse trivial) fun _ => ?_
  refine meets_bind (meets_orRefuse trivial) ?_
  rintro ⟨algorithm, signature, digest⟩ hselected
  obtain ⟨hsupported, hdigest, record, hrecord, rfl⟩ := selectAlgorithm_parts hselected
  refine meets_bind (Meets.self ((meets_readPublicKey hkey).mono (fun _ h => h) hany)) ?_
  rintro key ⟨-, hread⟩
  refine meets_bind (Meets.self (meets_spanBytes hsigned)) ?_
  rintro signed ⟨-, hsignedBytes⟩
  have hsignaturePart := (hsignatureParts record hrecord).trans hsignatures
  refine meets_bind (Meets.self (meets_spanBytes hsignaturePart)) ?_
  rintro signatureBytes ⟨-, hsignatureBytes⟩
  refine meets_bind (meets_verifySignedData.mono (fun _ h => h) hany) fun _ hverifies => ?_
  refine meets_bind (Meets.self ((meets_computeContentDigest hblock).mono (fun _ h => h) hany)) ?_
  rintro calculated ⟨-, hcalculated⟩
  have hdigestPart := (hdigestParts _ hdigest).trans hdigests
  refine meets_bind (Meets.self (meets_spanBytes hdigestPart)) ?_
  rintro expected ⟨-, hexpected⟩
  refine meets_ite (fun _ => meets_refuse trivial) fun hsame => ?_
  obtain rfl : expected = calculated := not_not.1 hsame
  refine (meets_verifyCertificates hcertificates).mono (fun fingerprint hleaf => ?_) hany
  exact ⟨fields, signedData, algorithm, key, hfields, hsignedData, hsupported, hread,
    ⟨signatures, record, signed, signatureBytes, hsignatureRecords, hrecord, hsignatureBytes,
      hsignedBytes, hverifies⟩,
    ⟨digests, _, expected, hdigestRecords, hdigest, rfl, hexpected, hcalculated⟩, hleaf⟩

/-! The signers of a scheme. -/

/-- The records that are read one after another, up to a reader. -/
inductive Reads (mapping : Mapping) (first : Reader) : List View → Reader → Prop
  | start : Reads mapping first [] first
  | next {spans : List View} {reader next : Reader} {span : View} :
    Reads mapping first spans reader →
      reader.lengthPrefixed mapping = (.ok (some (span, next)) : Comp String _) →
      Reads mapping first (spans ++ [span]) next

/-- The signers that are read, with the fingerprint of each. -/
def Signed (mapping : Mapping) (ssl : OpenSsl) (block : SigningBlock)
    (v3 : Bool) (signers : List View)
    (fingerprints : List String) : Prop :=
  List.Forall₂ (fun signer fingerprint => ∃ parsed signedData algorithm key,
    SignedBy mapping ssl block signer v3 fingerprint parsed signedData algorithm key) signers
      fingerprints

structure Verifying (mapping : Mapping) (ssl : OpenSsl) (block : SigningBlock)
    (v3 : Bool) (sequence : View)
    (reader : Reader) (fingerprints : List String) : Prop where
  span : reader.span = sequence
  standing : reader.Standing
  read : ∃ signers, Reads mapping (Reader.ofSpan sequence) signers reader ∧
    Signed mapping ssl block v3 signers fingerprints

theorem meets_verifyNextSigner {fingerprints : List String} (hblock : block.Placed mapping)
    (hsequence : Part sequence mapping.whole)
    (h : Verifying mapping ssl block v3 sequence reader fingerprints) :
    Meets (verifyNextSigner mapping ssl block v3 reader fingerprints)
      (Sum.elim (fun next => Verifying mapping ssl block v3 sequence next.1 next.2 ∧
          sequence.size - next.1.position < sequence.size - reader.position)
        fun certificates => certificates ≠ [] ∧ ∃ last, last.position = sequence.size ∧
          Verifying mapping ssl block v3 sequence last certificates)
      (fun e => e ≠ "" ∨ sequence.size = 0) := by
  have hspan : Part reader.span mapping.whole := h.span ▸ hsequence
  have hposition : reader.position ≤ reader.span.size := h.standing
  obtain ⟨signers, hreads, hsigned⟩ := h.read
  refine meets_bind (meets_remaining h.standing) fun left hleft => ?_
  rw [h.span] at hleft hposition
  refine meets_ite (fun hnone => ?_) fun hmore => ?_
  · refine meets_ite (fun hsome => meets_pure ?_) fun hempty => meets_refuse (.inr ?_)
    · exact ⟨List.ne_nil_of_length_pos hsome, reader, by omega, h⟩
    · obtain rfl : fingerprints = [] := List.length_eq_zero_iff.1 (by omega)
      obtain rfl : signers = [] := List.forall₂_nil_right_iff.1 hsigned
      have hstart : reader = Reader.ofSpan sequence := by
        generalize hspans : ([] : List View) = spans at hreads
        cases hreads with
        | start => rfl
        | next _ _ =>
          exact absurd hspans.symm (List.append_ne_nil_of_right_ne_nil _ (List.cons_ne_nil _ _))
      rw [hstart] at hleft
      have hzero : (Reader.ofSpan sequence).position = 0 := rfl
      omega
  · refine meets_bind
      (Meets.self (meets_require (meets_lengthPrefixed hspan h.standing) (.inl (by decide)))) ?_
    rintro ⟨signer, next⟩ ⟨⟨hpart, hafter⟩, hread⟩
    refine meets_ite (fun _ => meets_refuse (.inl (by decide))) fun _ => ?_
    refine meets_bind
      (meets_rethrow (meets_verifySigner hblock (hpart.trans hspan)) fun e _ => .inl ?_) ?_
    · by_cases he : e.isEmpty = true
      · rw [if_pos he]
        decide
      · rw [if_neg he]
        rintro rfl
        exact he rfl
    · intro fingerprint hfingerprint
      refine meets_ite (fun _ => meets_refuse (.inl (by decide))) fun _ => meets_pure ?_
      refine ⟨⟨hafter.span.trans h.span, hafter.standing, signers ++ [signer],
        .next hreads (require_eq_ok.1 hread), ?_⟩, ?_⟩
      · exact List.rel_append hsigned (.cons hfingerprint .nil)
      · have hforward : reader.position < next.position := hafter.forward
        have hstanding : next.position ≤ next.span.size := hafter.standing
        rw [hafter.span, h.span] at hstanding
        simp only
        omega

/-- The scheme holds one sequence of signers, and nothing behind it. -/
def Holds (mapping : Mapping) (scheme sequence : View) : Prop :=
  ∃ fields, (Reader.ofSpan scheme).lengthPrefixed mapping =
    (.ok (some (sequence, fields)) : Comp String _) ∧
    fields.position = scheme.size

/-- All signers of the scheme are accepted, and there is one. -/
def SchemeSigned (mapping : Mapping) (ssl : OpenSsl) (block : SigningBlock)
    (scheme : View) (v3 : Bool)
    (fingerprints : List String) : Prop :=
  ∃ sequence signers last, Holds mapping scheme sequence ∧
    Reads mapping (Reader.ofSpan sequence) signers last ∧
    last.position = sequence.size ∧ signers ≠ [] ∧ Signed mapping ssl block v3 signers fingerprints

theorem meets_verifyScheme (hblock : block.Placed mapping) (hscheme : Part scheme mapping.whole) :
    Meets (verifyScheme mapping ssl block scheme v3) (SchemeSigned mapping ssl block scheme v3)
      (fun e => e ≠ "" ∨ ∃ sequence, Holds mapping scheme sequence ∧ sequence.size = 0) := by
  have hstart : Part (Reader.ofSpan scheme).span mapping.whole := hscheme
  refine meets_bind (Meets.self
    (meets_require (meets_lengthPrefixed hstart (standing_ofSpan scheme)) (.inl (by decide)))) ?_
  rintro ⟨sequence, fields⟩ ⟨⟨hpart, hafter⟩, hread⟩
  have hstanding : fields.position ≤ fields.span.size := hafter.standing
  have hspan : fields.span = scheme := hafter.span
  refine meets_bind (meets_remaining hafter.standing) fun left hleft => ?_
  refine meets_ite (fun _ => meets_refuse (.inl (by decide))) fun hbehind => ?_
  rw [hspan] at hleft hstanding
  have hholds : Holds mapping scheme sequence := ⟨fields, require_eq_ok.1 hread, by omega⟩
  have hsequence : Part sequence mapping.whole := hpart.trans hstart
  have hloop : Meets
      (loop (fun state => verifyNextSigner mapping ssl block v3 state.1 state.2) (sequence.size + 1)
        (Reader.ofSpan sequence, [])) (fun certificates => certificates ≠ [] ∧
          ∃ last, last.position = sequence.size ∧
          Verifying mapping ssl block v3 sequence last certificates)
          (fun e => e ≠ "" ∨ sequence.size = 0) := by
    refine meets_loop (fun state => Verifying mapping ssl block v3 sequence state.1 state.2)
      (fun state => sequence.size - state.1.position)
      (fun state hstate => meets_verifyNextSigner hblock hsequence hstate) ?_ ?_
    · exact ⟨rfl, standing_ofSpan sequence, [], .start, .nil⟩
    · simp only [Reader.ofSpan]
      omega
  refine hloop.mono ?_ fun e he => he.imp_right fun hzero => ⟨sequence, hholds, hzero⟩
  rintro certificates ⟨hne, last, hlast, -, -, signers, hreads, hsigned⟩
  refine ⟨sequence, signers, last, hholds, hreads, hlast, ?_, hsigned⟩
  rintro rfl
  exact hne (List.forall₂_nil_left_iff.1 hsigned)

theorem spanBytes_eq (h : Part span mapping.whole) :
    spanBytes mapping span = .ok ((mapping.bytes.drop span.base).take span.size) := by
  have hwithin := h.within
  have hwhole : mapping.whole.base + span.base = span.base := Nat.zero_add _
  have hmeets : Meets (spanBytes mapping span)
      (· = (mapping.bytes.drop (mapping.whole.base + span.base)).take span.size) (fun _ => False) :=
    meets_bytesAt_eq whole_within hwithin
  obtain ⟨bytes, hbytes, rfl⟩ := hmeets.ok
  rw [hbytes, hwhole]

/-- A record at the start of a span. -/
theorem lengthPrefixed_ofSpan (h : Part span mapping.whole) (hroom : 4 ≤ span.size) : ∃ size,
    (u32At mapping.bytes span 0 : Comp String Nat) = .ok size ∧
      (Reader.ofSpan span).lengthPrefixed mapping =
        (if span.size - 4 < size then .ok none
          else .ok (some (⟨span.base + 4, size⟩, ⟨span, 4 + size⟩)) :
            Comp String (Option (View × Reader))) := by
  have hwithin := h.within
  have hbounded := mapping.bounded
  have hmeets : Meets (u32At mapping.bytes span 0 : Comp String Nat)
      (· < 2 ^ 32) (fun _ => False) :=
    meets_u32At hwithin mapping.small hroom
  obtain ⟨size, hsize, hlt⟩ := hmeets.ok
  have hstart : (sub span.size 0 : Comp String Nat) = .ok span.size := if_pos (Nat.zero_le _)
  have hbehind : (add 64 0 4 : Comp String Nat) = .ok 4 := rfl
  have hleft : (sub span.size 4 : Comp String Nat) = .ok (span.size - 4) := if_pos hroom
  refine ⟨size, hsize, ?_⟩
  have hvalue : (Reader.ofSpan span).u32Value mapping =
      (.ok (some (size, ⟨span, 4⟩)) : Comp String _) := by
    simp only [Reader.u32Value, Reader.remaining, Reader.ofSpan, hstart, hsize,
      hbehind, bind, Except.bind,
      if_neg (Nat.not_lt.2 hroom)]
    rfl
  simp only [Reader.lengthPrefixed, hvalue, Reader.remaining, hleft, bind, Except.bind]
  by_cases hfits : span.size - 4 < size
  · rw [if_pos hfits, if_pos hfits]
    rfl
  · have hadd : (add 64 4 size : Comp String Nat) = .ok (4 + size) := if_pos (by omega)
    rw [if_neg hfits, if_neg hfits, hadd]
    rfl

/-- A scheme without a signer is four zero bytes: the size of its sequence, and nothing else. -/
theorem holds_empty_iff (hscheme : Part scheme mapping.whole) :
    (∃ sequence, Holds mapping scheme sequence ∧ sequence.size = 0) ↔
      spanBytes mapping scheme = .ok [0, 0, 0, 0] := by
  have hwithin := hscheme.within
  rw [spanBytes_eq hscheme, Except.ok.injEq]
  rcases Nat.lt_or_ge scheme.size 4 with hshort | hroom
  · refine iff_of_false ?_ fun heq => ?_
    · rintro ⟨sequence, ⟨fields, hread, -⟩, -⟩
      have hstart : (sub scheme.size 0 : Comp String Nat) = .ok scheme.size :=
        if_pos (Nat.zero_le _)
      simp only [Reader.lengthPrefixed, Reader.u32Value, Reader.remaining, Reader.ofSpan,
        hstart, bind, Except.bind,
        if_pos hshort] at hread
      cases hread
    · have hlength := congrArg List.length heq
      rw [List.length_take, List.length_drop] at hlength
      simp only [List.length_cons, List.length_nil] at hlength
      omega
  · obtain ⟨size, hsize, hread⟩ := lengthPrefixed_ofSpan hscheme hroom
    have hzero :=
      u32At_eq_zero (ε := String) hwithin mapping.small (show 0 + 4 ≤ scheme.size from hroom)
    rw [hsize, Nat.add_zero, Except.ok.injEq] at hzero
    constructor
    · rintro ⟨sequence, ⟨fields, hfields, hposition⟩, hempty⟩
      rw [hread] at hfields
      split at hfields
      · cases hfields
      · cases hfields
        obtain rfl : size = 0 := hempty
        have hfour : 4 + 0 = scheme.size := hposition
        rw [← hfour]
        exact hzero.1 rfl
    · intro heq
      have hfour : scheme.size = 4 := by
        have hlength := congrArg List.length heq
        rw [List.length_take, List.length_drop] at hlength
        simp only [List.length_cons, List.length_nil] at hlength
        omega
      rw [hfour] at heq
      obtain rfl : size = 0 := hzero.2 heq
      rw [if_neg (Nat.not_lt_zero _)] at hread
      exact ⟨_, ⟨_, hread, by rw [hfour]⟩, rfl⟩

/-! The whole verification. -/

/-- The scheme that is verified is in the file, or it is empty. -/
theorem scheme_part (h : block.Placed mapping) : Part block.scheme mapping.whole := by
  have hordered := h.ordered
  have hdirectory := h.directory
  have heocd := h.eocd
  have hinside : ∀ span, span ∈ [block.v2, block.v3, block.v31].filterMap (fun s => s) →
      Part span mapping.whole := by
    intro span hspan
    refine (h.schemes span hspan).trans (part_whole ?_)
    simp only
    omega
  unfold SigningBlock.scheme
  cases hv2 : block.v2 with
  | some span => exact hinside span (by simp [hv2])
  | none =>
    cases hv31 : block.v31 with
    | some span => exact hinside span (by simp [hv31])
    | none =>
      cases hv3 : block.v3 with
      | some span => exact hinside span (by simp [hv3])
      | none => exact part_whole (Nat.zero_le _)

theorem scheme_found {sequence : View} (h : Holds mapping block.scheme sequence) :
    block.v2.or (block.v31.or block.v3) = some block.scheme := by
  obtain ⟨fields, hread, -⟩ := h
  unfold SigningBlock.scheme at hread ⊢
  cases hfound : block.v2.or (block.v31.or block.v3) with
  | some span => rfl
  | none =>
    rw [hfound] at hread
    cases hread

/-- The chosen scheme of the file has no signer. -/
def Unsigned (file : Except MapFailure Mapping) : Prop :=
  ∃ mapping block, file = .ok mapping ∧ parseSigningBlock mapping = .ok block ∧
    spanBytes mapping block.scheme = .ok [0, 0, 0, 0]

/-- A result without an error is one of a scheme all of whose signers were accepted, and has
certificates. -/
def Vouches (ssl : OpenSsl) (file : Except MapFailure Mapping)
    (result : ApkSignatureResult) : Prop :=
  result.error = "" → result.certificate_sha256 ≠ [] ∧
    ∃ mapping block scheme fingerprints, file = .ok mapping ∧
      parseSigningBlock mapping = .ok block ∧
      block.v2.or (block.v31.or block.v3) = some scheme ∧
        SchemeSigned mapping ssl block scheme block.v2.isNone fingerprints

theorem meets_verifyMapping (ssl : OpenSsl) (mapping : Mapping) : Meets (verifyMapping ssl mapping)
    (fun result => result.error = "" ∧ Vouches ssl (.ok mapping) result)
    (fun e => e ≠ "" ∨ Unsigned (.ok mapping)) := by
  refine meets_bind (Meets.self (meets_parseSigningBlock.mono (fun _ h => h) fun _ h => .inl h)) ?_
  rintro block ⟨⟨hblock, -⟩, hparse⟩
  have hscheme := scheme_part hblock
  have hverify : Meets (verifyScheme mapping ssl block block.scheme block.v2.isNone)
      (SchemeSigned mapping ssl block block.scheme block.v2.isNone)
      (fun e => e ≠ "" ∨ Unsigned (.ok mapping)) := by
    refine (meets_verifyScheme hblock hscheme).mono (fun _ h => h) fun e he =>
      he.imp_right fun hempty => ?_
    exact ⟨mapping, block, rfl, hparse, (holds_empty_iff hscheme).1 hempty⟩
  refine meets_bind hverify fun certificates hsigned => meets_pure ⟨rfl, fun _ => ⟨?_, ?_⟩⟩
  · obtain ⟨sequence, signers, last, -, -, -, hsigners, hfingerprints⟩ := hsigned
    intro hnone
    have hsorted := (List.dedup_eq_nil _).1 hnone
    have hperm := (List.mergeSort_perm certificates (· ≤ ·)).symm
    rw [hsorted] at hperm
    rw [hperm.eq_nil] at hfingerprints
    exact hsigners (List.forall₂_nil_right_iff.1 hfingerprints)
  · obtain ⟨sequence, signers, last, hholds, hrest⟩ := hsigned
    exact ⟨mapping, block, block.scheme, certificates, rfl, hparse, scheme_found hholds,
      sequence, signers, last, hholds,
      hrest⟩

theorem verifyScheme_unsigned (h : Holds mapping scheme sequence) (hempty : sequence.size = 0)
    (hspan : Part scheme mapping.whole) :
    verifyScheme mapping ssl block scheme v3 = refuse "" := by
  obtain ⟨fields, hread, hposition⟩ := h
  have hstart : Part (Reader.ofSpan scheme).span mapping.whole := hspan
  have hmeets : Meets ((Reader.ofSpan scheme).lengthPrefixed mapping)
      (fun r => ∀ p, r = some p → Part p.1 scheme ∧ (Reader.ofSpan scheme).After p.2)
      (fun _ : String => False) :=
    meets_lengthPrefixed hstart (standing_ofSpan scheme)
  rw [hread] at hmeets
  obtain ⟨-, hafter⟩ := hmeets _ rfl
  have hsame : fields.span = scheme := hafter.span
  have hleft : (fields.remaining : Comp String Nat) = .ok 0 := by
    rw [Reader.remaining, hsame, hposition, sub, if_pos le_rfl, Nat.sub_self]
  have hnone : ((Reader.ofSpan sequence).remaining : Comp String Nat) = .ok 0 := by
    rw [Reader.remaining, Reader.ofSpan, hempty]
    rfl
  unfold verifyScheme
  simp only [require_eq_ok.2 hread, hleft, bind, Except.bind, hempty]
  simp only [loop, verifyNextSigner, hnone, bind, Except.bind]
  rfl

/-- The verification of any file has a result, which keeps its promise unless the scheme has no
signer: then it has neither an error nor a certificate. -/
theorem verifyApkSignature_spec (ssl : OpenSsl) (file : Except MapFailure Mapping) :
    ∃ result, verifyApkSignature ssl file = .ok result ∧
      (Vouches ssl file result ↔ ¬ Unsigned file) := by
  cases file with
  | error failure =>
    refine ⟨_, rfl, iff_of_true (fun hnone => ?_) ?_⟩
    · cases failure <;> exact absurd hnone (by decide)
    · rintro ⟨mapping, block, hfile, -⟩
      cases hfile
  | ok mapping =>
    by_cases hunsigned : Unsigned (.ok mapping)
    · obtain ⟨_, block, hfile, hparse, hbytes⟩ := id hunsigned
      cases hfile
      have hmeets : Meets (parseSigningBlock mapping)
          (fun block => block.Placed mapping ∧ mapping.bytes.length ≤ block.eocd + 65557)
          (· ≠ "") := meets_parseSigningBlock
      rw [hparse] at hmeets
      have hscheme := scheme_part hmeets.1
      obtain ⟨sequence, hholds, hempty⟩ := (holds_empty_iff hscheme).2 hbytes
      have hverify : verifyMapping ssl mapping = refuse "" := by
        simp only [verifyMapping, hparse, bind, Except.bind,
          verifyScheme_unsigned hholds hempty hscheme]
        rfl
      refine ⟨{ error := "" }, ?_, iff_of_false (fun hvouches => ?_) (not_not.2 hunsigned)⟩
      · simp only [verifyApkSignature, hverify]
        rfl
      · exact (hvouches rfl).1 rfl
    · have hmeets := meets_verifyMapping ssl mapping
      simp only [verifyApkSignature]
      cases hverify : verifyMapping ssl mapping with
      | ok r =>
        rw [hverify] at hmeets
        exact ⟨r, rfl, iff_of_true hmeets.2 hunsigned⟩
      | error stop =>
        rw [hverify] at hmeets
        cases stop with
        | fault f => exact hmeets.elim
        | refused e =>
          have hne : e ≠ "" := hmeets.resolve_right hunsigned
          exact ⟨{ error := e }, rfl, iff_of_true (fun hnone => absurd hnone hne) hunsigned⟩

/-! A file whose v2 scheme holds a sequence of no signers. -/

/-- An OpenSSL that accepts nothing. -/
def refusing : OpenSsl where
  Key := Unit
  Certificate := Unit
  digest _ _ := none
  readKey _ := none
  startsVerification _ _ := false
  configuresPss _ _ := false
  verifies _ _ _ _ := false
  readCertificate _ := none
  certificateKey _ := none
  sameKey _ _ := false

def unsignedApk : Mapping where
  bytes :=
    [40, 0, 0, 0, 0, 0, 0, 0] ++ [8, 0, 0, 0, 0, 0, 0, 0] ++ [0x1a, 0x87, 0x09,
      0x71] ++ [0, 0, 0, 0] ++
      [40, 0, 0, 0, 0, 0, 0, 0] ++ kSigningMagic ++
        [0x50, 0x4b, 5, 6] ++ [0, 0, 0, 0, 0, 0, 0, 0, 0, 0, 0, 0] ++ [48, 0, 0, 0] ++ [0, 0]
  minimum := by decide
  bounded := by decide

/-- It passes without an error and without a certificate. -/
theorem verifyApkSignature_unsigned :
    verifyApkSignature refusing (.ok unsignedApk) = .ok {} ∧
      ¬ Vouches refusing (.ok unsignedApk) {} := by
  refine ⟨by rfl, fun hvouches => ?_⟩
  exact (hvouches rfl).1 rfl

end Nightcap.Update.ApkSignature
