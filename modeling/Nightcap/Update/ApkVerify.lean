import Nightcap.Lib.Pieces
import Nightcap.Update.ApkSignature

/-! The verification of an APK: the digest of its content, the signers of its scheme and their
certificates. -/
namespace Nightcap.Update.ApkSignature

open Checked Utf8

inductive Hash
  | sha256
  | sha512
deriving DecidableEq

structure SignatureAlgorithm where
  id : Nat
  digest : Hash
  pss : Bool
deriving DecidableEq

def supportedAlgorithm (id : Nat) : Option SignatureAlgorithm :=
  match id with
  | 0x0101 => some ⟨id, .sha256, true⟩
  | 0x0102 => some ⟨id, .sha512, true⟩
  | 0x0103 => some ⟨id, .sha256, false⟩
  | 0x0104 => some ⟨id, .sha512, false⟩
  | 0x0201 => some ⟨id, .sha256, false⟩
  | 0x0202 => some ⟨id, .sha512, false⟩
  | 0x0301 => some ⟨id, .sha256, false⟩
  | _ => none

/-- What OpenSSL answers; a key or a certificate comes with the number of bytes it was read from. -/
structure OpenSsl where
  Key : Type
  Certificate : Type
  digest : Hash → Bytes → Option Bytes
  readKey : Bytes → Option (Key × Nat)
  startsVerification : Hash → Key → Bool
  configuresPss : Hash → Key → Bool
  verifies : SignatureAlgorithm → Key → Bytes → Bytes → Bool
  readCertificate : Bytes → Option (Certificate × Nat)
  certificateKey : Certificate → Option Key
  sameKey : Key → Key → Bool

/-- What a step of OpenSSL gives, or a refusal. -/
def orRefuse {α : Type} (x : Option α) (e : String) : Comp String α :=
  match x with
  | some a => pure a
  | none => refuse e

def hexDigit (digit : Nat) : Char := Char.ofNat (if digit < 10 then 48 + digit else 87 + digit)

def hex (bytes : Bytes) : String :=
  String.ofList (bytes.flatMap fun byte => [hexDigit (byte.toNat / 16), hexDigit (byte.toNat % 16)])

section

variable (mapping : Mapping) (ssl : OpenSsl)

/-- The bytes of a span. -/
def spanBytes (span : View) : Comp String Bytes :=
  bytesAt mapping.bytes mapping.whole span.base span.size

/-! The digest of the content. -/

def kChunkBytes : Nat := 1024 * 1024

/-- `PutU32`. -/
def putU32 (value : Nat) : Bytes :=
  [UInt8.ofNat value, UInt8.ofNat (value / 2 ^ 8), UInt8.ofNat (value / 2 ^ 16),
    UInt8.ofNat (value / 2 ^ 24)]

/-- A section in chunks; an empty one has none. -/
def chunks (content : Bytes) : List Bytes :=
  if content.isEmpty then [] else Pieces.pieces kChunkBytes content

def chunkCount (content : Bytes) : Nat := (content.length + kChunkBytes - 1) / kChunkBytes

/-- What the digest covers: all but the signing block, with the block's place as that of the central
directory. -/
def contentSections (block : SigningBlock) : Comp String (List Bytes) := do
  let recordSize ← sub mapping.bytes.length block.eocd
  let record ← bytesAt mapping.bytes mapping.whole block.eocd recordSize
  if record.length < 20 ∨ 0xffffffff < block.begin then
    refuse "APK is too large for Signature Scheme v2/v3"
  else do
    let content ← bytesAt mapping.bytes mapping.whole 0 block.begin
    let directorySize ← sub block.eocd block.centralDirectory
    let directory ← bytesAt mapping.bytes mapping.whole block.centralDirectory directorySize
    pure [content, directory, record.take 16 ++ putU32 block.begin ++ record.drop 20]

def chunkDigest (hash : Hash) (chunk : Bytes) : Comp String Bytes :=
  orRefuse (ssl.digest hash (0xa5 :: putU32 chunk.length ++ chunk)) "cannot hash APK content chunk"

def computeContentDigest (block : SigningBlock) (hash : Hash) : Comp String Bytes := do
  let sections ← contentSections mapping block
  let count := (sections.map chunkCount).sum
  if count = 0 ∨ 0xffffffff < count then refuse "APK content chunk count is invalid"
  else do
    let digests ← (sections.flatMap chunks).mapM (chunkDigest ssl hash)
    orRefuse (ssl.digest hash (0x5a :: putU32 count ++ digests.flatten))
      "cannot hash APK content digest list"

/-! One signer. -/

def verifySignedData (algorithm : SignatureAlgorithm) (key : ssl.Key)
    (signedData signature : Bytes) :
    Comp String Unit :=
  if !ssl.startsVerification algorithm.digest key then
    refuse "cannot initialise APK signer verification"
  else if algorithm.pss && !ssl.configuresPss algorithm.digest key then
    refuse "cannot configure APK RSA-PSS verification"
  else if !ssl.verifies algorithm key signedData signature then
    refuse "APK signer signature verification failed"
  else pure ()

/-- The SDK range of a v3 signer; a v2 signer has none. -/
def sdkRange (v3 : Bool) (fields : Reader) (e : String) : Comp String ((Nat × Nat) × Reader) :=
  if v3 then do
    let (minimum, fields) ← require (fields.u32Value mapping) e
    let (maximum, fields) ← require (fields.u32Value mapping) e
    pure ((minimum, maximum), fields)
  else pure ((0, 0), fields)

structure SignedData where
  digests : View
  certificates : View
  sdks : Nat × Nat

def reservedMalformed : String := "APK v2 signed-data reserved field is malformed"

/-- The one empty field that a v2 signer may have behind its attributes. -/
def skipReserved (v3 : Bool) (fields : Reader) : Comp String Reader := do
  let left ← fields.remaining
  if v3 = false ∧ left ≠ 0 then do
    let (reserved, fields) ← require (fields.lengthPrefixed mapping) reservedMalformed
    if reserved.size ≠ 0 then refuse reservedMalformed else pure fields
  else pure fields

def parseSignedData (signedData : View) (v3 : Bool) : Comp String SignedData := do
  let (digests, fields) ← require ((Reader.ofSpan signedData).lengthPrefixed mapping)
    "APK signed-data digest list is malformed"
  let (certificates, fields) ← require (fields.lengthPrefixed mapping)
    "APK signed-data certificate list is malformed"
  let (sdks, fields) ← sdkRange mapping v3 fields "APK v3 signed-data SDK range is malformed"
  let (_, fields) ← require
      (fields.lengthPrefixed mapping) "APK signed-data attributes are malformed"
  let fields ← skipReserved mapping v3 fields
  let left ← fields.remaining
  if left ≠ 0 then refuse ("APK signed-data has trailing fields: " ++ toString left)
  else pure ⟨digests, certificates, sdks⟩

/-- Where a failed read of a record leaves its reader: behind the size, if there is one. -/
def Reader.afterFailure (reader : Reader) : Comp String Reader := do
  let left ← reader.remaining
  if left < 4 then pure reader
  else do
    let next ← add 64 reader.position 4
    pure { reader with position := next }

def fieldsMalformed {α : Type} (signer signedData : View) (fields : Reader) : Comp String α := do
  let left ← fields.remaining
  refuse ("APK signer fields are malformed (signer=" ++ toString signer.size ++ ", signed=" ++
    toString signedData.size ++ ", remaining=" ++ toString left ++ ")")

/-- The signatures and the public key, with nothing behind them. -/
def parseSignerFields (signer signedData : View) (fields : Reader) : Comp String (View × View) := do
  match ← fields.lengthPrefixed mapping with
  | none => do fieldsMalformed signer signedData (← fields.afterFailure)
  | some (signatures, fields) => do
    match ← fields.lengthPrefixed mapping with
    | none => do fieldsMalformed signer signedData (← fields.afterFailure)
    | some (publicKeyBytes, fields) => do
      let left ← fields.remaining
      if left ≠ 0 then fieldsMalformed signer signedData fields
      else pure (signatures, publicKeyBytes)

structure Signer where
  signedData : View
  sdks : Nat × Nat
  signatures : View
  publicKeyBytes : View

def sdkRangeInvalid : String := "APK v3 signer SDK range is invalid"

def parseSigner (signer : View) (v3 : Bool) : Comp String Signer := do
  let (signedData, fields) ← require ((Reader.ofSpan signer).lengthPrefixed mapping)
      "APK signer has no signed data"
  let (sdks, fields) ← sdkRange mapping v3 fields sdkRangeInvalid
  if v3 = true ∧ sdks.2 < sdks.1 then refuse sdkRangeInvalid
  else do
    let (signatures, publicKeyBytes) ← parseSignerFields mapping signer signedData fields
    pure ⟨signedData, sdks, signatures, publicKeyBytes⟩

/-- The first signature of a supported algorithm, with the digest of that algorithm. -/
def selectAlgorithm (digests signatures : List IdBytes) :
    Option (SignatureAlgorithm × View × View) :=
  signatures.findSome? fun signature =>
    (supportedAlgorithm signature.id).bind fun algorithm =>
      (digests.find? (·.id == algorithm.id)).map fun digest =>
      (algorithm, signature.bytes, digest.bytes)

def readPublicKey (publicKeyBytes : View) : Comp String ssl.Key := do
  let encoded ← spanBytes mapping publicKeyBytes
  let (key, used) ← orRefuse (ssl.readKey encoded) "APK signer public key is malformed"
  if used ≠ encoded.length then refuse "APK signer public key is malformed" else pure key

/-- One certificate of the sequence; the first is the signer's own, and its fingerprint is kept. -/
def verifyCertificate (key : ssl.Key) (reader : Reader) (leaf : Option String) :
    Comp String ((Reader × Option String) ⊕ String) := do
  let left ← reader.remaining
  if left = 0 then
    match leaf with
    | some fingerprint => pure (.inr fingerprint)
    | none => refuse "APK signer has no certificate"
  else do
    let (span, reader) ← require
        (reader.lengthPrefixed mapping) "APK signer certificate sequence is malformed"
    if span.size = 0 then refuse "APK signer certificate sequence is malformed"
    else do
      let encoded ← spanBytes mapping span
      let (certificate, used) ← orRefuse
          (ssl.readCertificate encoded) "APK signer certificate is malformed"
      if used ≠ encoded.length then refuse "APK signer certificate is malformed"
      else if leaf.isNone && !(ssl.certificateKey certificate).any fun own =>
        ssl.sameKey own key then
        refuse "APK signer public key does not match its certificate"
      else do
        let digest ← orRefuse (ssl.digest .sha256 encoded) "cannot hash APK signing certificate"
        if digest.length ≠ 32 then refuse "cannot hash APK signing certificate"
        else pure (.inl (reader, some (leaf.getD (hex digest))))

def verifyCertificates (certificates : View) (key : ssl.Key) : Comp String String :=
  loop (fun state => verifyCertificate mapping ssl key state.1 state.2) (certificates.size + 1)
    (Reader.ofSpan certificates, none)

/-- The fingerprint of a signer's certificate. -/
def verifySigner (block : SigningBlock) (signer : View) (v3 : Bool) : Comp String String := do
  let signer ← parseSigner mapping signer v3
  let signedData ← parseSignedData mapping signer.signedData v3
  if v3 = true ∧ signer.sdks ≠ signedData.sdks then
    refuse "APK signed-data has a mismatched SDK range"
  else do
    let digests ← parseIdSequence mapping signedData.digests
    let signatures ← parseIdSequence mapping signer.signatures
    if digests.map (·.id) ≠ signatures.map (·.id) then
      refuse "APK signer digest and signature algorithms disagree"
    else do
      let (algorithm, signature, digest) ← orRefuse (selectAlgorithm digests signatures)
        "APK signer has no supported matching signature and digest"
      let key ← readPublicKey mapping ssl signer.publicKeyBytes
      let signed ← spanBytes mapping signer.signedData
      let signature ← spanBytes mapping signature
      verifySignedData ssl algorithm key signed signature
      let calculated ← computeContentDigest mapping ssl block algorithm.digest
      let expected ← spanBytes mapping digest
      if expected ≠ calculated then refuse "APK content digest verification failed"
      else verifyCertificates mapping ssl signedData.certificates key

/-! The scheme. -/

def signersMalformed : String := "APK signer sequence is malformed"

/-- One signer of the sequence, with the fingerprints so far; an end without a signer has no
message. -/
def verifyNextSigner (block : SigningBlock) (v3 : Bool) (signers : Reader)
    (certificates : List String) :
    Comp String ((Reader × List String) ⊕ List String) := do
  let left ← signers.remaining
  if left = 0 then
    if certificates.length > 0 then pure (.inr certificates) else refuse ""
  else do
    let (signer, signers) ← require (signers.lengthPrefixed mapping) signersMalformed
    if signer.size = 0 then refuse signersMalformed
    else do
      let certificate ← rethrow (fun e => if e.isEmpty then signersMalformed else e)
        (verifySigner mapping ssl block signer v3)
      if certificates.length + 1 > 16 then refuse "APK contains too many signers"
      else pure (.inl (signers, certificates ++ [certificate]))

def containerMalformed : String := "APK signature scheme signer container is malformed"

def verifyScheme (block : SigningBlock) (scheme : View) (v3 : Bool) :
    Comp String (List String) := do
  let (signerSequence, fields) ← require
      ((Reader.ofSpan scheme).lengthPrefixed mapping) containerMalformed
  let left ← fields.remaining
  if left ≠ 0 then refuse containerMalformed
  else
    loop (fun state => verifyNextSigner mapping ssl block v3 state.1 state.2)
      (signerSequence.size + 1)
      (Reader.ofSpan signerSequence, [])

end

/-- The scheme that is verified: v2 where there is one, and v3.1 before v3. -/
def SigningBlock.scheme (block : SigningBlock) : View :=
  (block.v2.or (block.v31.or block.v3)).getD ⟨0, 0⟩

structure ApkSignatureResult where
  certificate_sha256 : List String := []
  error : String := ""
deriving DecidableEq

/-- Why a file cannot be mapped. -/
inductive MapFailure
  | cannotOpen
  | notRegular
  | cannotMap

def MapFailure.error : MapFailure → String
  | .cannotOpen => "cannot open APK for signature verification"
  | .notRegular => "APK is not a bounded regular file"
  | .cannotMap => "cannot map APK for signature verification"

/-- A refusal is the error of a result without certificates. -/
def verifyMapping (ssl : OpenSsl) (mapping : Mapping) : Comp String ApkSignatureResult := do
  let block ← parseSigningBlock mapping
  let certificates ← verifyScheme mapping ssl block block.scheme block.v2.isNone
  pure { certificate_sha256 := (certificates.mergeSort (· ≤ ·)).dedup }

def verifyApkSignature (ssl : OpenSsl) (file : Except MapFailure Mapping) :
    Except Fault ApkSignatureResult :=
  match file with
  | .error failure => .ok { error := failure.error }
  | .ok mapping => result (rethrow (fun e => { error := e }) (verifyMapping ssl mapping))

end Nightcap.Update.ApkSignature
