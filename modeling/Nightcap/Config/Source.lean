import Nightcap.Lib.Ascii
import Nightcap.Lib.KeyPaths

/-! A parsed config file: libyaml's tree, and the byte position of every node. -/
namespace Nightcap.Config

open Utf8 Ascii

/-- `yaml_mark_t`; `index` counts characters. -/
structure Mark where
  index : Nat := 0
  line : Nat := 0
  column : Nat := 0
deriving DecidableEq

inductive ScalarStyle
  | plain
  | singleQuoted
  | doubleQuoted
  | literal
  | folded
deriving DecidableEq

/-- `yaml_node_t`; the node an alias names stands again in the alias's place. -/
inductive Node
  | scalar (value : Bytes) (style : ScalarStyle) (start finish : Mark)
  | sequence (flow : Bool) (items : List Node) (start finish : Mark)
  | mapping (flow : Bool) (pairs : List (Node × Node)) (start finish : Mark)

/-- `yaml_parser_load`: the root of the document, which an empty stream lacks, or what the problem
is and the line it is on. -/
abbrev Loader := Bytes → Except (Option (Bytes × Nat)) (Option Node)

namespace Node

def start : Node → Mark
  | .scalar _ _ start _ | .sequence _ _ start _ | .mapping _ _ start _ => start

def finish : Node → Mark
  | .scalar _ _ _ finish | .sequence _ _ _ finish | .mapping _ _ _ finish => finish

/-- `ScalarValue`, of a scalar only. -/
def scalarValue : Node → Option Bytes
  | .scalar value .. => some value
  | _ => none

def isNull : Node → Bool
  | .scalar _ _ start finish => start.index == finish.index
  | _ => false

def isBlockCollection : Node → Bool
  | .scalar .. => false
  | .sequence flow .. | .mapping flow .. => !flow

def isFlowMapping : Node → Bool
  | .mapping flow .. => flow
  | _ => false

def isMapping : Node → Bool
  | .mapping .. => true
  | _ => false

def pairs : Node → List (Node × Node)
  | .mapping _ pairs .. => pairs
  | _ => []

def isBlockScalar : Node → Bool
  | .scalar _ style .. => style == .literal || style == .folded
  | _ => false

end Node

/-! Scanning. -/

/-- `byte`: the byte at a position, zero past the end. -/
def byteAt (text : Bytes) (i : Nat) : UInt8 := text.getD i 0

def slice (text : Bytes) (begin finish : Nat) : Bytes := (text.drop begin).take (finish - begin)

/-- `find_first_not_of`. -/
def findFirstNotOf (chars text : Bytes) (start : Nat) : Option Nat :=
  ((text.drop start).findIdx? (!chars.contains ·)).map (start + ·)

/-- `find_first_of`. -/
def findFirstOf (chars text : Bytes) (start : Nat) : Option Nat :=
  ((text.drop start).findIdx? (chars.contains ·)).map (start + ·)

/-- `size - 1` in `size_t`. -/
def before (size : Nat) : Nat := if size = 0 then 2 ^ 64 - 1 else size - 1

/-- `BreakLength` at the start of a text. -/
def breakLength (text : Bytes) : Nat :=
  if byteAt text 0 == 0x0d then (if byteAt text 1 == 0x0a then 2 else 1)
  else if byteAt text 0 == 0x0a then 1
  else if byteAt text 0 == 0xc2 && byteAt text 1 == 0x85 then 2
  else if byteAt text 0 == 0xe2 && byteAt text 1 == 0x80 &&
      (byteAt text 2 == 0xa8 || byteAt text 2 == 0xa9) then 3
  else 0

structure LineInfo where
  begin : Nat := 0
  /-- The end of the line's text, before its break. -/
  finish : Nat := 0
  /-- Inside a value that spans lines. -/
  content : Bool := false
  /-- Starts with a key of a block mapping. -/
  key : Bool := false
  indent : Nat := 0
  name : Bytes := []
deriving DecidableEq

/-- The bytes of a character that has this first byte. -/
def characterWidth (lead : UInt8) : Nat :=
  if lead < 0x80 then 1 else if lead < 0xe0 then 2 else if lead < 0xf0 then 3 else 4

/-- The positions of the characters from `position` on, of which `skip` bytes belong to the one
before. -/
def charStarts : Nat → Nat → Bytes → List Nat
  | _, _, [] => []
  | skip + 1, position, _ :: text => charStarts skip (position + 1) text
  | 0, position, lead :: text =>
    position :: charStarts (characterWidth lead - 1) (position + 1) text

/-- The lines from `position` on, the first of which begins at `begin`. -/
def scanLines : Nat → Nat → Nat → Bytes → List LineInfo
  | _, begin, position, [] => [{ begin, finish := position }]
  | skip + 1, begin, position, _ :: text => scanLines skip begin (position + 1) text
  | 0, begin, position, byte :: text =>
    match breakLength (byte :: text) with
    | 0 => scanLines 0 begin (position + 1) text
    | more + 1 =>
      { begin, finish := position } ::
        scanLines more (position + more + 1) (position + 1) text

/-- The first line break. -/
def firstBreak : Bytes → Option Bytes
  | [] => none
  | byte :: text =>
    if breakLength (byte :: text) = 0 then firstBreak text
    else some ((byte :: text).take (breakLength (byte :: text)))

structure Source where
  text : Bytes
  bom : Nat := 0
  eol : Bytes := bytes "\n"
  charToByte : List Nat := []
  lines : List LineInfo := []
  root : Option Node := none
  /-- The block scalar whose text runs to the end of a file without a final line break. -/
  openBlockScalar : Option Node := none

namespace Source

/-- The layout of a text that is not parsed yet. -/
def ofText (text : Bytes) : Source :=
  let bom :=
    if byteAt text 0 == 0xef && byteAt text 1 == 0xbb && byteAt text 2 == 0xbf then 3 else 0
  { text
    bom
    eol := (firstBreak text).getD (bytes "\n")
    charToByte := charStarts 0 bom (text.drop bom) ++ [text.length]
    lines := scanLines 0 0 0 text }

/-- `Byte`: marks count characters and skip a byte order mark. -/
def byte (s : Source) (mark : Mark) : Nat :=
  s.charToByte.getD (min mark.index (s.charToByte.length - 1)) 0

def line (s : Source) (i : Nat) : LineInfo := s.lines.getD i {}

/-- The binary search of `LineAt` between `low` and `high`. -/
def searchLine (s : Source) (byte : Nat) : Nat → Nat → Nat → Nat
  | 0, low, _ => low
  | fuel + 1, low, high =>
    if 1 < high - low then
      let middle := low + (high - low) / 2
      if (s.line middle).begin ≤ byte then s.searchLine byte fuel middle high
      else s.searchLine byte fuel low middle
    else low

def lineAt (s : Source) (byte : Nat) : Nat := s.searchLine byte s.lines.length 0 s.lines.length

/-- The byte of a column that only spaces precede. -/
def columnByte (s : Source) (line column : Nat) : Nat :=
  (s.line line).begin + (if line = 0 then s.bom else 0) + column

/-- Steps back over the breaks and the blank lines that belong to a block scalar. -/
def stepBack (s : Source) (begin : Nat) : Nat → Nat → Nat
  | 0, finish => finish
  | fuel + 1, finish =>
    if begin + 1 < finish then
      let lineEnd := (s.line (s.lineAt (finish - 1))).finish
      if lineEnd < finish then s.stepBack begin fuel lineEnd
      else if is ' ' (byteAt s.text (finish - 1)) then s.stepBack begin fuel (finish - 1)
      else finish
    else finish

mutual

/-- One past the last byte of the node's own text. -/
def lastByte (s : Source) : Node → Nat
  | .scalar value style start finish =>
    if (Node.scalar value style start finish).isBlockScalar then
      s.stepBack (s.byte start) (s.byte finish) (s.byte finish)
    else s.byte finish
  | .mapping flow pairs _ finish =>
    if flow then s.byte finish else s.lastPairByte (s.byte finish) pairs
  | .sequence flow items _ finish =>
    if flow then s.byte finish else s.lastItemByte (s.byte finish) items

def lastPairByte (s : Source) (otherwise : Nat) : List (Node × Node) → Nat
  | [] => otherwise
  | (key, value) :: pairs =>
    if pairs.isEmpty then max (s.byte key.finish) (s.lastByte value)
    else s.lastPairByte otherwise pairs

def lastItemByte (s : Source) (otherwise : Nat) : List Node → Nat
  | [] => otherwise
  | item :: items =>
    if items.isEmpty then s.lastByte item else s.lastItemByte otherwise items

end

/-- The first byte after the key's colon, or the key's end, and whether it has a colon. -/
def afterColon (s : Source) (key : Node) : Nat × Bool :=
  let position := s.byte key.finish
  match findFirstNotOf (bytes " ") s.text position with
  | some colon => if is ':' (byteAt s.text colon) then (colon + 1, true) else (position, false)
  | none => (position, false)

end Source

/-- A pair of a mapping, with the place of the alias that is its value. -/
structure Pair where
  mapping : Node
  index : Nat
  key : Node
  value : Node
  aliasAt : Option (Nat × Nat) := none

namespace Source

/-- The end of an alias, of which a flow mapping's punctuation is no part. -/
def aliasEnd (flow : Bool) : Nat → Bytes → Nat
  | position, [] => position
  | position, c :: text =>
    if is ' ' c || breakLength (c :: text) != 0 || (flow && (is ',' c || is '}' c)) then position
    else aliasEnd flow (position + 1) text

def makePair (s : Source) (mapping : Node) (index : Nat) (raw : Node × Node) : Pair :=
  let after := s.afterColon raw.1
  let aliasAt :=
    match findFirstNotOf (bytes " ") s.text after.1 with
    | some star =>
      if after.2 && is '*' (byteAt s.text star) then
        some (star, aliasEnd mapping.isFlowMapping (star + 1) (s.text.drop (star + 1)))
      else none
    | none => none
  { mapping, index, key := raw.1, value := raw.2, aliasAt }

def findPair (s : Source) (mapping : Node) (name : Bytes) : Option Pair :=
  (mapping.pairs.findIdx? (·.1.scalarValue == some name)).bind fun index =>
    mapping.pairs[index]?.map (s.makePair mapping index)

/-- One past the last byte of the pair's value, or of its colon. -/
def valueEnd (s : Source) (pair : Pair) : Nat :=
  match pair.aliasAt with
  | some (_, finish) => finish
  | none => max (s.lastByte pair.value) (s.afterColon pair.key).1

/-- The end of a word: what no space and no line break is in. -/
def wordEnd : Nat → Bytes → Nat
  | position, [] => position
  | position, c :: text =>
    if is ' ' c || breakLength (c :: text) != 0 then position else wordEnd (position + 1) text

/-- The end of the anchor and the tag after `finish`. -/
def propertiesEndFrom (s : Source) : Nat → Nat → Nat
  | 0, finish => finish
  | fuel + 1, finish =>
    match findFirstNotOf (bytes " ") s.text finish with
    | some position =>
      if is '&' (byteAt s.text position) || is '!' (byteAt s.text position) then
        s.propertiesEndFrom fuel (wordEnd position (s.text.drop position))
      else finish
    | none => finish

def propertiesEnd (s : Source) (start : Nat) : Nat := s.propertiesEndFrom (s.text.length + 1) start

end Source

/-! Parsing. -/

def maxNodeVisits : Nat := 100000

def visit (visits : Nat) : Except Bytes Nat :=
  if maxNodeVisits < visits + 1 then .error (bytes "the file's aliases repeat too much of it")
  else .ok (visits + 1)

mutual

/-- `Check`, from `visits` visits on. -/
def check (visits : Nat) : Node → Except Bytes Nat
  | .scalar .. => visit visits
  | .mapping _ pairs .. =>
    match visit visits with
    | .ok visits => checkPairs visits [] pairs
    | .error error => .error error
  | .sequence _ items .. =>
    match visit visits with
    | .ok visits => checkItems visits items
    | .error error => .error error

/-- The pairs of a mapping, of which no two have one name. -/
def checkPairs (visits : Nat) (names : List Bytes) : List (Node × Node) → Except Bytes Nat
  | [] => .ok visits
  | (key, value) :: pairs =>
    let repeated := key.scalarValue.filter (· ∈ names)
    match repeated with
    | some name =>
      .error (bytes "the key " ++ name ++ bytes " is set twice, again on line " ++
        ofNat (key.start.line + 1))
    | none =>
      match check visits value with
      | .ok visits => checkPairs visits (key.scalarValue.toList ++ names) pairs
      | .error error => .error error

def checkItems (visits : Nat) : List Node → Except Bytes Nat
  | [] => .ok visits
  | item :: items =>
    match check visits item with
    | .ok visits => checkItems visits items
    | .error error => .error error

end

namespace Source

def updateLines (s : Source) (f : Nat → LineInfo → LineInfo) : Source :=
  { s with lines := s.lines.zipIdx.map fun l => f l.2 l.1 }

/-- What `IndexNode` does for a node that is no block collection. -/
def indexContent (s : Source) (node : Node) : Source :=
  let first := s.lineAt (s.byte node.start)
  let lastByte := s.lastByte node
  let last := s.lineAt (lastByte - 1)
  let s' := s.updateLines fun i line =>
    if first < i ∧ i ≤ last then { line with content := true } else line
  if first < last && lastByte == s.text.length && node.isBlockScalar then
    { s' with openBlockScalar := some node }
  else s'

/-- The line of a key that only spaces, or a byte order mark, precede. -/
def indexKey (s : Source) (key : Node) : Source :=
  match key.scalarValue with
  | some name =>
    let keyByte := s.byte key.start
    let row := s.lineAt keyByte
    if s.columnByte row key.start.column == keyByte &&
        (slice s.text (s.line row).begin keyByte).all fun b =>
          is ' ' b || b == 0xef || b == 0xbb || b == 0xbf then
      s.updateLines fun i line =>
        if i = row then { line with key := true, indent := key.start.column, name } else line
    else s
  | none => s

mutual

def indexNode (s : Source) : Node → Source
  | .scalar value style start finish => s.indexContent (.scalar value style start finish)
  | .sequence flow items start finish =>
    if flow then s.indexContent (.sequence flow items start finish) else s.indexItems items
  | .mapping flow pairs start finish =>
    if flow then s.indexContent (.mapping flow pairs start finish) else s.indexPairs pairs

def indexItems (s : Source) : List Node → Source
  | [] => s
  | item :: items => (s.indexNode item).indexItems items

def indexPairs (s : Source) : List (Node × Node) → Source
  | [] => s
  | (key, value) :: pairs => ((s.indexKey key).indexNode value).indexPairs pairs

end

def parse (load : Loader) (text : Bytes) : Except Bytes Source :=
  if (byteAt text 0 == 0xff && byteAt text 1 == 0xfe) ||
      (byteAt text 0 == 0xfe && byteAt text 1 == 0xff) then
    .error (bytes "the file is not UTF-8")
  else
    match load text with
    | .error none => .error (bytes "the file is not valid YAML")
    | .error (some (problem, line)) =>
      .error (bytes "the file is not valid YAML: " ++ problem ++ bytes " on line " ++
        ofNat (line + 1))
    | .ok none => .ok (ofText text)
    | .ok (some root) =>
      match check 0 root with
      | .error error => .error error
      | .ok _ => .ok ({ ofText text with root := some root }.indexNode root)

end Source

/-! What a file sets. -/

/-- The leaves of a tree, under the names on the way joined. -/
abbrev Leaves := Finmap fun _ : Bytes => Bytes

/-- `kPathSeparator`; it is in no key the editor accepts. -/
def pathSeparator : UInt8 := 0x1f

/-- `kEmptyCollection`. -/
def emptyCollection : Bytes := [0x1e]

def joinPrefix (path name : Bytes) : Bytes :=
  if path.isEmpty then name else path ++ pathSeparator :: name

mutual

/-- `Flatten`. -/
def flatten (path : Bytes) : Node → Leaves → Leaves
  | .scalar value .., leaves => leaves.insert path value
  | .mapping _ pairs .., leaves =>
    if pairs.isEmpty then leaves.insert path emptyCollection else flattenPairs path pairs leaves
  | .sequence _ items .., leaves =>
    if items.isEmpty then leaves.insert path emptyCollection else flattenItems path 0 items leaves

def flattenPairs (path : Bytes) : List (Node × Node) → Leaves → Leaves
  | [], leaves => leaves
  | (key, value) :: pairs, leaves =>
    flattenPairs path pairs
      (flatten (joinPrefix path (key.scalarValue.getD (bytes "?"))) value leaves)

def flattenItems (path : Bytes) (index : Nat) : List Node → Leaves → Leaves
  | [], leaves => leaves
  | item :: items, leaves =>
    flattenItems path (index + 1) items (flatten (path ++ pathSeparator :: ofNat index) item leaves)

end

/-- The file's settings: its top-level node, unless that is an empty value. -/
def Source.settings (s : Source) : Option Node := s.root.filter (!·.isNull)

end Nightcap.Config
