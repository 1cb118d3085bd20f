import Nightcap.Lib.MaskedSearch

/-! `FindSignatureMatches` of the host ABI deriver: the code of a reference image in a candidate
image. The decoder is a parameter. -/
namespace Nightcap.Update.HostAbi

abbrev Bytes := List UInt8

def kMaximumElfBytes : Nat := 512 * 1024 * 1024

def checkedRange (offset size limit : UInt64) : Bool := offset ≤ limit && size ≤ limit - offset

/-! `ElfImage`, once it is open. -/

def PF_X : UInt32 := 1
def PF_W : UInt32 := 2
def PF_R : UInt32 := 4

structure Segment where
  offset : UInt64
  address : UInt64
  file_size : UInt64
  memory_size : UInt64
  flags : UInt32
deriving DecidableEq

def Segment.containsMemory (s : Segment) (rva size : UInt64) : Bool :=
  s.address ≤ rva && checkedRange (rva - s.address) size s.memory_size

def Segment.containsFile (s : Segment) (rva size : UInt64) : Bool :=
  s.address ≤ rva && checkedRange (rva - s.address) size s.file_size

structure Section where
  name : String
  address : UInt64
  offset : UInt64
  size : UInt64
deriving DecidableEq

structure ElfImage where
  file : Bytes
  segments : List Segment
  sections : List Section
  bounded : file.length ≤ kMaximumElfBytes

namespace ElfImage

def fileSize (image : ElfImage) : UInt64 := UInt64.ofNat image.file.length

def findSection (image : ElfImage) (name : String) : Option Section :=
  image.sections.find? fun s => s.name == name

def bytes (image : ElfImage) (offset size : UInt64) : Except String Bytes :=
  if checkedRange offset size image.fileSize then
    .ok ((image.file.drop offset.toNat).take size.toNat)
  else .error "ELF byte range exceeds file bounds"

def sectionBytes (image : ElfImage) (s : Section) : Except String Bytes :=
  image.bytes s.offset s.size

/-- The one segment with such memory. -/
def segmentForMemory (image : ElfImage) (rva size : UInt64) : Option Segment :=
  match image.segments.filter fun s => s.containsMemory rva size with
  | [s] => some s
  | _ => none

def requireCode (image : ElfImage) (rva size : UInt64) : Except String Unit :=
  match image.segmentForMemory rva size with
  | none => .error "RVA is not in a read/execute ELF segment"
  | some s =>
    if !s.containsFile rva size || s.flags &&& (PF_R ||| PF_X) != PF_R ||| PF_X ||
      s.flags &&& PF_W != 0 then
      .error "RVA is not in a read/execute ELF segment"
    else .ok ()

def offsetForRva (image : ElfImage) (rva size : UInt64) : Except String UInt64 :=
  match image.segments.filter fun s => s.containsFile rva size with
  | [] => .error "RVA has no file mapping"
  | [s] => .ok (s.offset + rva - s.address)
  | _ => .error "RVA has no unique file mapping"

end ElfImage

/-! What Capstone decodes. -/

inductive CsValue
  | reg (name : Option String)
  | imm (imm : Int)
  | mem (segment base index : Option String) (scale disp : Int) (rip : Bool)
  | other
deriving DecidableEq

structure CsOperand where
  size : UInt8
  value : CsValue
deriving DecidableEq

structure CsX86 where
  imm_offset : UInt8
  imm_size : UInt8
  disp_offset : UInt8
  disp_size : UInt8
  operands : List CsOperand
deriving DecidableEq

structure CsInsn where
  address : UInt64
  size : UInt16
  mnemonic : String
  call : Bool
  jump : Bool
  ret : Bool
  detail : Option CsX86
deriving DecidableEq

/-- `cs_disasm`: so many instructions of the bytes at an address, or as many as there are. -/
abbrev Disasm := Bytes → UInt64 → Nat → List CsInsn

/-! `Disassembler::Decode`. -/

inductive OperandType
  | kRegister
  | kImmediate
  | kMemory
deriving DecidableEq

structure Operand where
  type : OperandType
  register_name : String := ""
  segment_name : String := ""
  base_name : String := ""
  index_name : String := ""
  scale : Int := 0
  value : Int := 0
  size : UInt8
  rip_relative : Bool := false
deriving DecidableEq

structure Instruction where
  address : UInt64
  size : UInt16
  mnemonic : String
  operands : List Operand
  immediate_offset : UInt8
  immediate_size : UInt8
  displacement_offset : UInt8
  displacement_size : UInt8
  control_flow : Bool
  returns : Bool
deriving DecidableEq

def decodeOperand (source : CsOperand) : Except String Operand :=
  match source.value with
  | .reg name => .ok ⟨.kRegister, name.getD "", "", "", "", 0, 0, source.size, false⟩
  | .imm imm => .ok ⟨.kImmediate, "", "", "", "", 0, imm, source.size, false⟩
  | .mem segment base index scale disp rip =>
    .ok ⟨.kMemory, "", segment.getD "", base.getD "", index.getD "", scale, disp, source.size, rip⟩
  | .other => .error "signature contains an unsupported x86 operand"

/-- The loop of `Decode`: the instructions and the address behind them. -/
def decodeInstructions : UInt64 → List CsInsn → Except String (List Instruction × UInt64)
  | expected_address, [] => .ok ([], expected_address)
  | expected_address, source :: rest =>
    match source.detail with
    | none => .error "instruction signature is not contiguous"
    | some x86 =>
      if source.address ≠ expected_address ∨ source.size = 0 then
        .error "instruction signature is not contiguous"
      else do
        let operands ← x86.operands.mapM decodeOperand
        let (result, expected_address) ← decodeInstructions
            (expected_address + source.size.toUInt64) rest
        .ok (⟨source.address, source.size, source.mnemonic, operands, x86.imm_offset, x86.imm_size,
          x86.disp_offset, x86.disp_size, source.call || source.jump, source.ret⟩ :: result,
            expected_address)

def decode (disasm : Disasm) (image : ElfImage) (rva : UInt64) (count : Nat)
    (maximum_bytes : UInt64) :
    Except String (List Instruction) := do
  if count = 0 ∨ 256 < count then
    .error "signature instruction count is invalid"
  image.requireCode rva 1
  let offset ← image.offsetForRva rva 1
  let bytes ← image.bytes offset (min maximum_bytes (image.fileSize - offset))
  let decoded := disasm bytes rva count
  if decoded.length ≠ count then
    .error "cannot decode normalized instruction signature"
  let (result, expected_address) ← decodeInstructions rva decoded
  image.requireCode rva (expected_address - rva)
  .ok result

/-! `ValidateSemantics`. -/

structure SignatureSpec where
  name : String
  reference_rva : UInt64
  instruction_count : Nat
  registry_size_may_change : Bool := false
  minimum_anchor_bytes : Nat := 6
  registry_size_indices : Nat × Nat := (8, 12)
  renamed_register_indices : List Nat := []

def isDigit (c : Char) : Bool := '0' ≤ c && c ≤ '9'

/-- The 64-bit register that `name` is all or part of, such as rax for eax. -/
def registerFamily (name : String) : String :=
  match name.toList with
  | 'r' :: digit :: rest =>
    if isDigit digit then
      String.ofList (('r' :: digit :: rest).reverse.dropWhile (!isDigit ·)).reverse
    else named name
  | _ => named name
where
  named (name : String) : String :=
    match ["ax", "bx", "cx", "dx", "si", "di", "bp", "sp"].find? fun family =>
      name == family || name == "e" ++ family || name == "r" ++ family with
    | some family => "r" ++ family
    | none => name

/-- Reference register families and the candidate families that stand for them. -/
structure RegisterRenames where
  forward : List (String × String) := []
  backward : List (String × String) := []

/-- `std::map::emplace`: what the key has afterwards. -/
def emplace (map : List (String × String)) (key value : String) : List (String × String) × String :=
  match map.lookup key with
  | some found => (map, found)
  | none => ((key, value) :: map, value)

def RegisterRenames.accept (renames : RegisterRenames) (reference candidate : String) :
    Bool × RegisterRenames :=
  let left := registerFamily reference
  let right := registerFamily candidate
  let (forward, forward_found) := emplace renames.forward left right
  let (backward, backward_found) := emplace renames.backward right left
  (forward_found == right && backward_found == left, ⟨forward, backward⟩)

def sameSemanticOperand (left right : Operand) (control_flow wildcard_size renamed : Bool)
    (renames : RegisterRenames) : Bool × RegisterRenames :=
  if left.type ≠ right.type ∨ left.size ≠ right.size then (false, renames)
  else
    match left.type with
    | .kRegister =>
      if renamed then renames.accept left.register_name right.register_name
      else (left.register_name == right.register_name, renames)
    | .kImmediate => (control_flow || wildcard_size || left.value == right.value, renames)
    | .kMemory =>
      (left.segment_name == right.segment_name && left.base_name == right.base_name &&
        left.index_name == right.index_name && left.scale == right.scale &&
        left.rip_relative == right.rip_relative &&
          (left.rip_relative || left.value == right.value), renames)

def SignatureSpec.wildcard (spec : SignatureSpec) (index : Nat) : Bool :=
  spec.registry_size_may_change &&
    (index == spec.registry_size_indices.1 || index == spec.registry_size_indices.2)

/-- The operands of one instruction. -/
def validateOperands (index : Nat) (control_flow wildcard renamed : Bool) :
    List (Operand × Operand) → RegisterRenames → Except String RegisterRenames
  | [], renames => .ok renames
  | (left, right) :: rest, renames =>
    match sameSemanticOperand left right control_flow wildcard renamed renames with
    | (true, renames) => validateOperands index control_flow wildcard renamed rest renames
    | (false, _) => .error ("normalized instruction operand changed at index " ++ toString index)

/-- The instructions from an index on. -/
def validateInstructions (spec : SignatureSpec) (index : Nat) :
    List (Instruction × Instruction) → RegisterRenames → Except String Unit
  | [], _ => .ok ()
  | (left, right) :: rest, renames => do
    if left.mnemonic ≠ right.mnemonic ∨ left.operands.length ≠ right.operands.length then
      .error ("normalized instruction semantics changed at index " ++ toString index)
    let renames ← validateOperands index left.control_flow (spec.wildcard index)
      (spec.renamed_register_indices.contains index) (left.operands.zip right.operands) renames
    validateInstructions spec (index + 1) rest renames

def registrySize (candidate : List Instruction) (index : Nat) : Except String Int :=
  match candidate[index]? with
  | none => .error "registry initializer size index is outside its signature"
  | some instruction =>
    match instruction.operands with
    | [_, operand] =>
      if operand.type ≠ .kImmediate then .error "registry initializer size operands changed"
      else .ok operand.value
    | _ => .error "registry initializer size operands changed"

def validateSemantics (reference candidate : List Instruction) (spec : SignatureSpec) :
    Except String Unit := do
  if reference.length ≠ candidate.length then
    .error "normalized signature instruction count changed"
  validateInstructions spec 0 (reference.zip candidate) {}
  if spec.registry_size_may_change then
    let first ← registrySize candidate spec.registry_size_indices.1
    let second ← registrySize candidate spec.registry_size_indices.2
    if first ≠ second ∨ first < 0x100 ∨ 0x1000 < first ∨ first % 8 ≠ 0 then
      .error "registry initializer object size is inconsistent"

/-! `FindSignatureMatches`. -/

/-- The bytes of one field of an instruction do not count. -/
def maskField (instruction : Instruction) (base : Nat) (offset size : UInt8) (mask : List Bool) :
    Except String (List Bool) :=
  if size = 0 then .ok mask
  else if offset = 0 ∨ instruction.size.toNat < offset.toNat + size.toNat then
    .error "Capstone returned an invalid operand encoding range"
  else .ok
    ((List.range' offset.toNat size.toNat).foldl
      (fun mask index => mask.set (base + index) false) mask)

def maskInstruction (reference_rva : UInt64) (mask : List Bool) (instruction : Instruction) :
    Except String (List Bool) := do
  let base := (instruction.address - reference_rva).toNat
  let mask ← maskField instruction base instruction.immediate_offset instruction.immediate_size mask
  maskField instruction base instruction.displacement_offset instruction.displacement_size mask

/-- What is looked for: the instructions of the reference, their bytes, and which of these count. -/
structure Signature where
  instructions : List Instruction
  encoded : Bytes
  mask : List Bool
deriving DecidableEq

def signature (disasm : Disasm) (reference : ElfImage) (spec : SignatureSpec) :
    Except String Signature := do
  let instructions ← decode disasm reference spec.reference_rva spec.instruction_count 4096
  match instructions.getLast? with
  | none => .error "signature instruction count is invalid"
  | some back =>
    let signature_size := back.address + back.size.toUInt64 - spec.reference_rva
    let offset ← reference.offsetForRva spec.reference_rva signature_size
    let encoded ← reference.bytes offset signature_size
    let mask ← instructions.foldlM (maskInstruction spec.reference_rva)
        (List.replicate encoded.length true)
    .ok ⟨instructions, encoded, mask⟩

/-- The variables of the loop that chooses the anchor. -/
structure Anchor where
  anchor_offset : Nat := 0
  anchor_size : Nat := 0
  run_start : Nat := 0
  running : Bool := false

def anchorStep (mask : List Bool) (a : Anchor) (index : Nat) : Anchor :=
  let enabled := mask.getD index false
  if enabled && !a.running then { a with run_start := index, running := true }
  else if !enabled && a.running then
    if a.anchor_size < index - a.run_start then
      { a with anchor_offset := a.run_start, anchor_size := index - a.run_start, running := false }
    else { a with running := false }
  else a

/-- The longest run of bytes that count. -/
def chooseAnchor (mask : List Bool) : Anchor :=
  (List.range (mask.length + 1)).foldl (anchorStep mask) {}

structure SignatureMatch where
  rva : UInt64
  reference : List Instruction
  candidate : List Instruction
deriving DecidableEq

/-- One round of the last loop. -/
def semanticMatch (disasm : Disasm) (candidate : ElfImage) (spec : SignatureSpec)
    (reference : List Instruction)
    (match_rva : UInt64) : Except String SignatureMatch := do
  let instructions ← decode disasm candidate match_rva spec.instruction_count 4096
  validateSemantics reference instructions spec
  .ok ⟨match_rva, reference, instructions⟩

/-- The last loop: the matches, and the first error. -/
def semanticMatches (f : Nat → Except String SignatureMatch) (places : List Nat) :
    List SignatureMatch × String :=
  places.foldl (fun (found, first_semantic_error) place =>
    match f place with
    | .ok m => (found ++ [m], first_semantic_error)
    | .error e =>
      (found, if first_semantic_error.isEmpty then e else first_semantic_error)) ([], "")

/-- `FindSignatureMatches` from its search on, with the run of bytes at `anchor_offset` as the
anchor. -/
def matchAnchored (disasm : Disasm) (candidate : ElfImage) (spec : SignatureSpec)
    (allow_multiple_candidates : Bool) (s : Signature) (anchor_offset anchor_size : Nat) :
    Except String (List SignatureMatch) :=
  match candidate.findSection ".text" with
  | none => .error "candidate has no .text section"
  | some text => do
    let candidate_text ← candidate.sectionBytes text
    let places := MaskedSearch.scan candidate_text s.encoded s.mask anchor_offset anchor_size
    if places = [] then
      .error ("signature " ++ spec.name ++ " matched 0 candidate locations")
    if allow_multiple_candidates = false ∧ places.length ≠ 1 then
      .error ("signature " ++ spec.name ++ " matched " ++
        toString places.length ++ " candidate locations")
    let (semantic_matches, first_semantic_error) := semanticMatches
      (fun place => semanticMatch disasm candidate spec s.instructions
        (text.address + UInt64.ofNat place)) places
    if semantic_matches = [] ∧ places.length = 1 ∧ first_semantic_error ≠ "" then
      .error first_semantic_error
    .ok semantic_matches

def findSignatureMatches (disasm : Disasm) (reference candidate : ElfImage) (spec : SignatureSpec)
    (allow_multiple_candidates : Bool) : Except String (List SignatureMatch) := do
  let s ← signature disasm reference spec
  let anchor := chooseAnchor s.mask
  if anchor.anchor_size < spec.minimum_anchor_bytes then
    .error "normalized signature has no selective fixed anchor"
  matchAnchored disasm candidate spec allow_multiple_candidates s
    anchor.anchor_offset anchor.anchor_size

def findSignatureMatch (disasm : Disasm) (reference candidate : ElfImage) (spec : SignatureSpec) :
    Except String SignatureMatch := do
  let found ← findSignatureMatches disasm reference candidate spec false
  match found with
  | [m] => .ok m
  | _ =>
    .error ("signature " ++ spec.name ++ " matched " ++ toString found.length ++
      " candidate locations")

end Nightcap.Update.HostAbi
