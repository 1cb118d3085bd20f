import Nightcap.Compat.ConstructorPolicy
import Nightcap.Lib.Json
import Nightcap.Update.HostAbiSignature

/-! The leading constructors of a payload as the host ABI deriver finds them in another one, and the
ranges of constructors that it derives from that. -/
namespace Nightcap.Update.HostAbi

open Compat

/-! RVAs in a sidecar. -/

def hexValue (character : UInt8) : Nat := if character ≤ 57 then character.toNat - 48
    else character.toNat - 97 + 10

def isLowerHex (character : UInt8) : Bool := 48 ≤ character && character ≤ 57 ||
    97 ≤ character && character ≤ 102

def parseRvaDigit (description : String) (result : Nat) (character : UInt8) : Except String Nat :=
  if (2 ^ 64 - 1 - hexValue character) / 16 < result then
    .error (description ++ " RVA exceeds 64 bits")
  else .ok (result * 16 + hexValue character)

def parseRva (value : Json) (description : String) : Except String UInt64 :=
  match value with
  | .string encoded =>
    if encoded.length < 3 || encoded.take 2 != [48, 120] || encoded[2]? == some 48 ||
        !(encoded.drop 2).all isLowerHex then
      .error (description ++ " must be a canonical nonzero hex RVA")
    else do
      let result ← (encoded.drop 2).foldlM (parseRvaDigit description) 0
      .ok (UInt64.ofNat result)
  | _ => .error (description ++ " must be a nonzero hex RVA")

def hexDigit (digit : Nat) : UInt8 := UInt8.ofNat (if digit < 10 then 48 + digit else 87 + digit)

/-- The digits come lowest first and are turned around. -/
def formatRva (value : UInt64) : Bytes :=
  [48, 120] ++ ((Nat.digits 16 value.toNat).map hexDigit).reverse

/-! The code of one constructor. -/

def directJumpTarget (instruction : Instruction) (description : String) : Except String UInt64 :=
  match instruction.operands with
  | [operand] =>
    if instruction.mnemonic ≠ "jmp" ∨ operand.type ≠ .kImmediate ∨ operand.value < 0 then
      .error (description ++ " is not one direct jump")
    else .ok (UInt64.ofInt operand.value)
  | _ => .error (description ++ " is not one direct jump")

/-- The first of the decoded instructions. -/
def decodeOne (disasm : Disasm) (image : ElfImage) (rva : UInt64) : Except String Instruction := do
  match ← decode disasm image rva 1 16 with
  | instruction :: _ => .ok instruction
  | [] => .error "cannot decode normalized instruction signature"

def findConstructorBoundaryMatch (disasm : Disasm)
    (reference candidate : ElfImage) (spec : SignatureSpec)
    (candidate_entries : List UInt64) : Except String SignatureMatch := do
  let reference_wrapper ← decodeOne disasm reference spec.reference_rva
  let reference_target ← directJumpTarget reference_wrapper "reference constructor boundary"
  let target_match ← findSignatureMatch disasm reference candidate
    { name := spec.name ++ "-target"
      reference_rva := reference_target
      instruction_count := spec.instruction_count }
  let found := candidate_entries.filterMap fun candidate_entry =>
    match decodeOne disasm candidate candidate_entry with
    | .error _ => none
    | .ok candidate_wrapper =>
      match directJumpTarget candidate_wrapper "candidate constructor boundary" with
      | .error _ => none
      | .ok candidate_target =>
        if candidate_target = target_match.rva then
          some (⟨candidate_entry, [reference_wrapper], [candidate_wrapper]⟩ : SignatureMatch)
        else none
  match found with
  | [m] => .ok m
  | _ => .error (spec.name ++ " no longer targets its verified boundary")

def ripTargets (instruction : Instruction) : List UInt64 :=
  instruction.operands.filterMap fun operand =>
    if operand.type = .kMemory ∧ operand.rip_relative = true then
      some (instruction.address + instruction.size.toUInt64 + UInt64.ofInt operand.value)
    else none

def isRegisterOperand (operand : Operand) (name : String) : Bool :=
  operand.type = .kRegister && operand.register_name == name

/-- A stack frame in front of a publication. -/
def opensFrame : List Instruction → Bool
  | push :: link :: _ =>
    match push.operands, link.operands with
    | [pushed], [to_operand, from_operand] =>
      push.mnemonic == "push" && isRegisterOperand pushed "rbp" && link.mnemonic == "mov" &&
        isRegisterOperand to_operand "rbp" && isRegisterOperand from_operand "rsp"
    | _, _ => false
  | _ => false

def publishes (load exchange store : Instruction) : Bool :=
  match load.operands, exchange.operands, store.operands with
  | [loaded, _], [exchanged, exchanged_with], [stored_to, stored_from] =>
    match ripTargets load, ripTargets exchange, ripTargets store with
    | [object], [slot], [stored] =>
      load.mnemonic == "lea" && isRegisterOperand loaded "rax" && exchange.mnemonic == "xchg" &&
        exchanged.size == 8 && isRegisterOperand exchanged_with "rax" && store.mnemonic == "mov" &&
        stored_to.size == 8 && isRegisterOperand stored_from "rax" && object == stored &&
        (object == slot + 8 || object + 0x38 == slot)
    | _, _, _ => false
  | _, _, _ => false

def publicationBehind (disasm : Disasm) (image : ElfImage) (entry : UInt64) (frame : Nat) :
    Option (List Instruction) :=
  match decode disasm image entry (frame + 3) 64 with
  | .error _ => none
  | .ok decoded =>
    if frame ≠ 0 ∧ opensFrame decoded = false then none
    else
      match decoded.drop frame with
      | [load, exchange, store] =>
        if publishes load exchange store then some [load, exchange, store] else none
      | _ => none

def jniSingletonPublication (disasm : Disasm) (image : ElfImage) (entry : UInt64) :
    Except String (List Instruction) :=
  match [0, 2].findSome? (publicationBehind disasm image entry) with
  | some publication => .ok publication
  | none =>
    .error ("JNI singleton initializer at " ++ String.ofList
      ((formatRva entry).map fun b => Char.ofNat b.toNat) ++
      " does not publish its singleton")

def findJniSingletonMatch (disasm : Disasm) (reference candidate : ElfImage) (spec : SignatureSpec)
    (candidate_entries : List UInt64) : Except String SignatureMatch :=
  match findSignatureMatch disasm reference candidate spec with
  | .ok whole => .ok whole
  | .error _ => do
    let reference_publication ← jniSingletonPublication disasm reference spec.reference_rva
    let found ← findSignatureMatch disasm reference candidate
      { name := "jni-singleton-publication"
        reference_rva := (reference_publication.head?.map (·.address)).getD 0
        instruction_count := reference_publication.length
        minimum_anchor_bytes := 3 }
    let entry := candidate_entries.findSome? fun entry =>
      match jniSingletonPublication disasm candidate entry with
      | .error _ => none
      | .ok publication =>
        if publication.head?.map (·.address) = some found.rva then
          some (⟨entry, reference_publication, publication⟩ : SignatureMatch)
        else none
    match entry with
    | some m => .ok m
    | none => .error "JNI singleton initializer is not a leading constructor"

/-! `MatchLeadingConstructors`. -/

def kLeadingConstructorBegin : Nat := 2

def kLeadingConstructorCount : Nat := 4

def kLeadingConstructorWindow : Nat := kLeadingConstructorCount + 2

structure LeadingConstructors where
  reference_index : List Nat
  reference_end : Nat
  candidate_offset : List Nat
  candidate_entry : List UInt64
  window : Nat
  jni_singleton : SignatureMatch
deriving DecidableEq

/-- What finds one constructor of the reference image in the candidate image. -/
structure Finders where
  firstInstruction : UInt64 → Except String Instruction
  jniSingleton : SignatureSpec → List UInt64 → Except String SignatureMatch
  boundary : SignatureSpec → List UInt64 → Except String SignatureMatch
  signature : SignatureSpec → Except String SignatureMatch

def hostFinders (disasm : Disasm) (reference candidate : ElfImage) : Finders where
  firstInstruction := decodeOne disasm reference
  jniSingleton := findJniSingletonMatch disasm reference candidate
  boundary := findConstructorBoundaryMatch disasm reference candidate
  signature := findSignatureMatch disasm reference candidate

def kMoved : String := "constructor moved outside verified init-array boundary"

def kShape : String := "init-array shape is not derivable"

def kConstructorInstructionCount : Nat := 24

/-- `std::set::insert`. -/
def insertIndex (index : Nat) : List Nat → List Nat
  | [] => [index]
  | first :: rest =>
    if index < first then index :: first :: rest
    else if index = first then first :: rest
    else first :: insertIndex index rest

/-- The index that a key of the anchors names. -/
def anchorIndex (reference_count : Nat) (key : Bytes) : Except String Nat :=
  let index := Ascii.decimal key
  if !Ascii.allDigits key || 2 ^ 64 ≤ index || index < kLeadingConstructorBegin ||
      kLeadingConstructorBegin + kLeadingConstructorWindow ≤ index ||
      reference_count ≤ index then
    .error kMoved
  else .ok index

/-- The indexes of the anchors in ascending order, in an array of four. -/
def leadingIndexes (constructor_anchors : Json) (reference_count : Nat) :
    Except String (List Nat) :=
  match constructor_anchors with
  | .object fields => do
    if fields.length ≠ kLeadingConstructorCount then
      .error "constructor anchors are invalid"
    let anchor_indexes ← fields.foldlM (fun indexes (field : Bytes × Json) => do
      .ok (insertIndex (← anchorIndex reference_count field.1) indexes)) []
    let reference_index :=
      anchor_indexes ++ List.replicate (kLeadingConstructorCount - anchor_indexes.length) 0
    if reference_count ≤ reference_index.getLastD 0 + 1 then
      .error kShape
    .ok reference_index
  | _ => .error "constructor anchors are invalid"

/-- The variables of the loop over the anchors. -/
structure Matching where
  candidate_offset : List Nat := []
  candidate_entry : List UInt64 := []
  jni_singleton : Option SignatureMatch := none
deriving DecidableEq

def constructorName (index : Nat) : String := "constructor-" ++ toString index

/-- The anchor of an index is what the reference runs there. -/
def verifiedEntry (constructor_anchors : Json) (reference_init : List UInt64) (index : Nat) :
    Except String UInt64 := do
  let anchor ← parseRva ((constructor_anchors.field? (Ascii.ofNat index)).getD .null)
      (constructorName index)
  if anchor ≠ reference_init.getD index 0 then
    .error kMoved
  .ok anchor

def findConstructor (finders : Finders) (jni_spec : SignatureSpec)
    (candidate_entries : List UInt64) (index : Nat)
    (reference_entry : UInt64) : Except String SignatureMatch :=
  if reference_entry = jni_spec.reference_rva then finders.jniSingleton jni_spec candidate_entries
  else do
    let first ← finders.firstInstruction reference_entry
    let spec : SignatureSpec :=
      { name := constructorName index
        reference_rva := reference_entry
        instruction_count := kConstructorInstructionCount }
    if first.mnemonic = "jmp" then finders.boundary spec candidate_entries
    else finders.signature spec

def matchConstructor (finders : Finders) (constructor_anchors : Json) (jni_spec : SignatureSpec)
    (reference_init candidate_entries : List UInt64) (matching : Matching) (index : Nat) :
    Except String Matching := do
  let reference_entry ← verifiedEntry constructor_anchors reference_init index
  let found ← findConstructor finders jni_spec candidate_entries index reference_entry
  match candidate_entries.idxOf? found.rva with
  | none => .error kMoved
  | some candidate_offset =>
    if matching.candidate_offset.contains candidate_offset then .error kMoved
    else
      .ok
        { candidate_offset := matching.candidate_offset ++ [candidate_offset]
          candidate_entry := matching.candidate_entry ++ [found.rva]
          jni_singleton :=
            if reference_entry = jni_spec.reference_rva then some found
            else matching.jni_singleton }

def matchLeadingConstructors (finders : Finders) (constructor_anchors : Json)
    (jni_spec : SignatureSpec)
    (reference_init candidate_init : List UInt64) : Except String LeadingConstructors := do
  let leading_end := kLeadingConstructorBegin + kLeadingConstructorCount
  if reference_init.length < leading_end ∨ candidate_init.length < leading_end then
    .error kShape
  let window := min kLeadingConstructorWindow (candidate_init.length - kLeadingConstructorBegin - 1)
  if window < kLeadingConstructorCount then
    .error kShape
  let candidate_entries := (candidate_init.drop kLeadingConstructorBegin).take window
  let reference_index ← leadingIndexes constructor_anchors reference_init.length
  let matching ← reference_index.foldlM
    (matchConstructor finders constructor_anchors jni_spec reference_init candidate_entries) {}
  match matching.jni_singleton with
  | none => .error "JNI singleton initializer is not a leading constructor"
  | some jni_singleton =>
    .ok
      { reference_index := reference_index
        reference_end := reference_index.getLastD 0 + 1
        candidate_offset := matching.candidate_offset
        candidate_entry := matching.candidate_entry
        window := window
        jni_singleton := jni_singleton }

/-! `RemapConstructorRanges`. -/

/-- The pairs of an anchor of the reference and its place in the window. -/
def LeadingConstructors.anchors (leading : LeadingConstructors) : List (Nat × Nat) :=
  leading.reference_index.zip leading.candidate_offset

/-- A leading constructor in the range runs. -/
def runAnchor (range : ConstructorRange) (runs : List Bool) (anchor : Nat × Nat) : List Bool :=
  if range.begin ≤ anchor.1 ∧ anchor.1 < range.end_exclusive then runs.set anchor.2 true else runs

def runLeading (leading : LeadingConstructors) (range : ConstructorRange)
    (runs : List Bool) : List Bool :=
  leading.anchors.foldl (runAnchor range) runs

/-- The variables of the loop over the ranges. -/
structure Remapping where
  runs : List Bool
  previous_end : Nat := 0
  tail_begin : Nat := 2 ^ 64 - 1
  tail_end : Nat := 0

def kCannotFit : String := "constructor range cannot fit candidate init-array"

/-- A range of the document, if it is one at all. -/
def remapRange (leading : LeadingConstructors) (reference_count : Nat) (s : Remapping) :
    Option ConstructorRange → Except String Remapping
  | none => .error "constructor range is invalid"
  | some range =>
    if range.end_exclusive ≤ range.begin ∨ range.begin < s.previous_end ∨
      reference_count < range.end_exclusive ∨
        range.begin < kLeadingConstructorBegin then .error kCannotFit
    else .ok ⟨runLeading leading range s.runs, range.end_exclusive,
      range.begin, range.end_exclusive⟩

/-- A constructor that the reference lacks runs, and a leading one does not yet. -/
def initialRuns (leading : LeadingConstructors) : List Bool :=
  leading.candidate_offset.foldl (fun runs offset => runs.set offset false)
    (List.replicate leading.window true)

/-- The ranges of a document: nothing, if they are not an array. -/
def remapConstructorRanges (ranges : Option (List (Option ConstructorRange)))
    (leading : LeadingConstructors)
    (reference_count candidate_count : Nat) : Except String (List ConstructorRange) :=
  match ranges with
  | none | some [] => .error "constructor ranges are missing"
  | some ranges => do
    let s ← ranges.foldlM (remapRange leading reference_count) { runs := initialRuns leading }
    let candidate_leading_end := kLeadingConstructorBegin + leading.window
    if leading.reference_end < s.tail_begin ∨ s.tail_end ≠ reference_count ∨
        reference_count ≤ leading.reference_end ∨ candidate_count ≤ candidate_leading_end then
      .error kCannotFit
    .ok (Runs.close (Runs.scan (s.runs.getD · false) kLeadingConstructorBegin leading.window)
      candidate_leading_end candidate_count)

/-! What `DeriveDocuments` derives of it. -/

/-- The parts of a sidecar about constructors. -/
structure Sidecar where
  profile : HostAbiProfile
  constructor_rvas : Json
  jni_singleton_initializer_rva : UInt64

def Sidecar.jniSpec (sidecar : Sidecar) : SignatureSpec where
  name := "jni-singleton-initializer"
  reference_rva := sidecar.jni_singleton_initializer_rva
  instruction_count := 11

/-- The index that a leading constructor of the reference has in the candidate. -/
def LeadingConstructors.carried (leading : LeadingConstructors) (index : Nat) : Option Nat :=
  (leading.reference_index.idxOf? index).map fun anchor =>
    kLeadingConstructorBegin + leading.candidate_offset.getD anchor 0

def deriveProfile (reference : HostAbiProfile) (leading : LeadingConstructors)
    (candidate_count : Nat) :
    Except String HostAbiProfile :=
  let remap (ranges : List ConstructorRange) :=
    remapConstructorRanges
      (some (ranges.map some)) leading reference.init_array_count candidate_count
  match remap reference.constructor_run_ranges,
    remap reference.native_mimalloc_constructor_run_ranges with
  | .ok constructor_ranges, .ok native_ranges =>
    match leading.carried reference.native_mimalloc_thread_initializer_after_constructor with
    | none => .error "native allocator TLS boundary is no longer verified"
    | some thread_boundary =>
      .ok
        { init_array_count := candidate_count
          constructor_run_ranges := constructor_ranges
          native_mimalloc_constructor_run_ranges := native_ranges
          native_mimalloc_thread_initializer_after_constructor := thread_boundary }
  | .error e, .ok _ => .error e
  | _, .error e => .error e

/-- `object[key] = value`. -/
def assign (fields : List (Bytes × Json)) (key : Bytes) (value : Json) : List (Bytes × Json) :=
  Json.insertField key value (fields.filter (·.1 ≠ key))

/-- The four leading constructors by their index in the candidate. -/
def constructorAnchors (leading : LeadingConstructors) : Json :=
  .object ((leading.candidate_offset.zip leading.candidate_entry).foldl
    (fun fields (offset, entry) =>
      assign fields (Ascii.ofNat (kLeadingConstructorBegin + offset)) (.string (formatRva entry)))
    [])

def deriveSidecar (finders : Finders) (reference : Sidecar)
    (reference_init candidate_init : List UInt64) :
    Except String Sidecar := do
  if reference_init.length ≠ reference.profile.init_array_count ∨ candidate_init.length < 8 then
    .error kShape
  let leading ← matchLeadingConstructors finders reference.constructor_rvas
      reference.jniSpec reference_init
    candidate_init
  let profile ← deriveProfile reference.profile leading candidate_init.length
  .ok ⟨profile, constructorAnchors leading, leading.jni_singleton.rva⟩

end Nightcap.Update.HostAbi
