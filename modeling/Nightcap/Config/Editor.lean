import Nightcap.Config.Edits

/-! Reading, setting and unsetting one key of a config file. -/
namespace Nightcap.Config

open Utf8 Ascii Framing KeyPaths

structure RuntimeConfigEdit where
  text : Bytes := []
  error : Bytes := []
deriving DecidableEq

structure RuntimeConfigValue where
  found : Bool := false
  value : Bytes := []
  error : Bytes := []
deriving DecidableEq

/-- `Fail`: no text. -/
def fail (key reason : Bytes) : RuntimeConfigEdit :=
  { error := bytes "cannot change " ++ key ++ bytes ": " ++ reason }

def joinPath (path : List Bytes) : Bytes := joined pathSeparator path

/-- `EraseSubtree`. -/
def eraseSubtree (path : Bytes) (leaves : Leaves) : Leaves := eraseBelow pathSeparator path leaves

namespace Source

variable (s : Source)

/-- The pairs the path leads through, as far as the file has them. -/
def findChain : Option Node → List Bytes → Except Bytes (List Pair)
  | none, _ => .ok []
  | some _, [] => .ok []
  | some node, name :: path =>
    match s.findPair node name with
    | none => .ok []
    | some pair =>
      if pair.aliasAt.isSome && !path.isEmpty then
        .error (name ++
          bytes " is a YAML alias, and a key below an alias cannot be changed on its own")
      else
        match findChain (some pair.value) path with
        | .ok chain => .ok (pair :: chain)
        | .error reason => .error reason

/-- The edits, and whether they replace a value by a section; `scalar` is none to unset. -/
def edits (chain : List Pair) (path : List Bytes) (scalar : Option Bytes) : List Edit × Bool :=
  match scalar with
  | none => (if chain.length = path.length then s.unset chain else [], false)
  | some scalar =>
    match chain.getLast? with
    | some pair =>
      if chain.length = path.length then (s.setExisting pair scalar, false)
      else s.setMissing s.settings chain path scalar
    | none => s.setMissing s.settings chain path scalar

def leaves : Leaves :=
  match s.settings with
  | none => ∅
  | some root => flatten [] root ∅

end Source

/-- The sections on the way to a key. -/
def eraseSections (path : List Bytes) (leaves : Leaves) : Leaves :=
  (List.range' 1 (path.length - 1)).foldl
  (fun leaves count => leaves.erase (joinPath (path.take count)))
    leaves

/-- What the file is expected to set after the edit. -/
def expected (path : List Bytes) (depth : Nat) (replaced : Bool) (raw : Option Bytes)
    (leaves : Leaves) : Leaves :=
  let leaves := eraseSubtree (joinPath path) leaves
  let leaves := if replaced then eraseSubtree (joinPath (path.take depth)) leaves else leaves
  let leaves := eraseSections path leaves
  match raw with
  | some raw => leaves.insert (joinPath path) raw
  | none => leaves

/-- `Change`. Sets the key to a scalar whose parsed value is `raw`, or unsets it when there is no
scalar; a text that does not differ in this key alone is refused. -/
def change (load : Loader) (text key : Bytes) (scalar : Option Bytes) (raw : Bytes) :
    RuntimeConfigEdit :=
  match splitKey key with
  | none => fail key (bytes "the key is not a dotted list of names")
  | some path =>
    match Source.parse load text with
    | .error error => fail key error
    | .ok source =>
      if source.settings.any (!·.isMapping) then
        fail key (bytes "the top level of the file is not a list of settings")
      else
        match source.findChain source.settings path with
        | .error reason => fail key reason
        | .ok chain =>
          let edits := source.edits chain path scalar
          let text := applyEdits text edits.1
          match Source.parse load text with
          | .error _ => fail key (bytes "the edit would leave the file unreadable")
          | .ok result =>
            let actual :=
              if scalar.isNone then eraseSections path result.leaves else result.leaves
            if actual =
                expected path chain.length edits.2 (scalar.map fun _ => raw) source.leaves then
              { text }
            else fail key (bytes "the edit would change other settings")

def setRuntimeConfigString (load : Loader) (text key value : Bytes) : RuntimeConfigEdit :=
  change load text key (some (quoteString value)) value

def unsetRuntimeConfigValue (load : Loader) (text key : Bytes) : RuntimeConfigEdit :=
  change load text key none []

/-- The node a path leads to. -/
def Source.nodeAt (s : Source) : Option Node → List Bytes → Option Node
  | node, [] => node
  | none, _ :: _ => none
  | some node, name :: path => s.nodeAt ((s.findPair node name).map (·.value)) path

def getRuntimeConfigValue (load : Loader) (text key : Bytes) : RuntimeConfigValue :=
  match splitKey key with
  | none =>
    { error := bytes "cannot read " ++ key ++ bytes ": the key is not a dotted list of names" }
  | some path =>
    match Source.parse load text with
    | .error error => { error := bytes "cannot read " ++ key ++ bytes ": " ++ error }
    | .ok source =>
      match source.nodeAt source.settings path with
      | some (.scalar value style start finish) =>
        if (Node.scalar value style start finish).isNull then {} else { found := true, value }
      | _ => {}

end Nightcap.Config
