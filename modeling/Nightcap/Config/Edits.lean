import Nightcap.Config.Source

/-! The edits of a config file: replacements of byte ranges of its text. -/
namespace Nightcap.Config

open Utf8 Ascii

/-! Keys and scalars. -/

def isKeyCharacter (c : UInt8) : Bool :=
  (0x61 ≤ c && c ≤ 0x7a) || (0x41 ≤ c && c ≤ 0x5a) || isDigit c || is '_' c || is '-' c

/-- `SplitKey`: the names of a dotted key, when they are names. -/
def splitKey (key : Bytes) : Option (List Bytes) :=
  let path := key.splitOn (chr '.')
  if path.all fun name => !name.isEmpty && name.all isKeyCharacter then some path else none

def hexDigit (n : UInt8) : UInt8 := if n < 10 then 0x30 + n else 0x41 + (n - 10)

/-- `AppendHexEscape`. -/
def hexEscape (byte : UInt8) : Bytes :=
  bytes "\\x" ++ [hexDigit (byte >>> 4), hexDigit (byte &&& 0xf)]

/-- The inside of a double-quoted scalar; `skip` bytes are already escaped. -/
def quotedText : Nat → Bytes → Bytes
  | _, [] => []
  | skip + 1, _ :: value => quotedText skip value
  | 0, c :: value =>
    let next := byteAt value 0
    let last := byteAt value 1
    if c == 0x22 || c == 0x5c then 0x5c :: c :: quotedText 0 value
    else if c < 0x20 || c == 0x7f then hexEscape c ++ quotedText 0 value
    else if c == 0xc2 && 0x80 ≤ next && next ≤ 0x9f then hexEscape next ++ quotedText 1 value
    else if c == 0xe2 && next == 0x80 && (last == 0xa8 || last == 0xa9) then
      bytes (if last == 0xa8 then "\\L" else "\\P") ++ quotedText 2 value
    else if c == 0xef && next == 0xbb && last == 0xbf then bytes "\\uFEFF" ++ quotedText 2 value
    else c :: quotedText 0 value

def quoteString (value : Bytes) : Bytes :=
  let plain :=
    !value.isEmpty && value.head? != some (chr ' ') && value.getLast? != some (chr ' ') &&
      value.head? != some (chr '-') &&
      value.all fun c => isKeyCharacter c || is '.' c || is '/' c || is ' ' c
  if plain then value else 0x22 :: quotedText 0 value ++ [0x22]

/-! Edits. -/

/-- The text takes the place of the bytes from `begin` to `finish`. -/
structure Edit where
  begin : Nat
  finish : Nat
  text : Bytes
deriving DecidableEq

/-- `Apply` from a position on; an edit inside a text that an earlier one replaced is left out. -/
def applyFrom (text : Bytes) : Nat → List Edit → Bytes
  | position, [] => text.drop position
  | position, edit :: edits =>
    if edit.begin < position then applyFrom text position edits
    else
      slice text position edit.begin ++ edit.text ++
        applyFrom text (max position edit.finish) edits

def applyEdits (text : Bytes) (edits : List Edit) : Bytes :=
  applyFrom text 0 (edits.insertionSort fun left right => left.begin ≤ right.begin)

/-! Commented keys. -/

/-- A `# name:` line. -/
structure CommentedKey where
  /-- The column the key has once it is uncommented. -/
  indent : Nat
  name : Bytes
  rest : Bytes

def parseCommentedKey (line : Bytes) : Option CommentedKey :=
  match findFirstNotOf (bytes " ") line 0 with
  | none => none
  | some hash =>
    if !is '#' (byteAt line hash) then none
    else
      match findFirstNotOf (bytes " ") line (hash + 1) with
      | none => none
      | some nameAt =>
        let name := (line.drop nameAt).takeWhile isKeyCharacter
        let finish := nameAt + name.length
        if nameAt == hash + 1 || name.isEmpty || finish == line.length ||
            !is ':' (byteAt line finish) ||
            (decide (finish + 1 < line.length) && !is ' ' (byteAt line (finish + 1))) then none
        else some { indent := nameAt - 2, name, rest := line.drop (finish + 1) }

/-- Where the comment after a value begins: a `#` after a space, outside of quotes. -/
def commentIndex (quote : Option UInt8) (escaped : Bool) (previous : UInt8) :
    Nat → Bytes → Option Nat
  | _, [] => none
  | index, c :: rest =>
    if escaped then commentIndex quote false c (index + 1) rest
    else
      match quote with
      | some q =>
        if c == 0x5c && q == 0x22 then commentIndex quote true c (index + 1) rest
        else commentIndex (if c == q then none else quote) false c (index + 1) rest
      | none =>
        if c == 0x22 || c == 0x27 then commentIndex (some c) false c (index + 1) rest
        else if is '#' c && decide (0 < index) && is ' ' previous then some index
        else commentIndex none false c (index + 1) rest

/-- The comment that follows a value, with the spaces before it. -/
def trailingComment (rest : Bytes) : Bytes :=
  match commentIndex none false 0 0 rest with
  | none => []
  | some index =>
    let start := ((rest.take index).rdropWhile (is ' ')).length
    match findFirstNotOf (bytes " ") rest 0 with
    | some value => rest.drop (if value < start then start else index - 1)
    | none => rest.drop (index - 1)

namespace Source

variable (s : Source)

/-- The lines from one on, up to and with another. -/
def rows (first last : Nat) : List Nat := List.range' first (last + 1 - first)

/-- The lines below one. -/
def rowsBelow (row : Nat) : List Nat := List.range' (row + 1) (s.lines.length - (row + 1))

/-- The first byte of a line's text that is no space, or its end. -/
def firstText (row : Nat) : Nat :=
  match findFirstNotOf (bytes " ") s.text (s.columnByte row 0) with
  | none => (s.line row).finish
  | some position => if (s.line row).finish < position then (s.line row).finish else position

/-- A blank line, or a comment. -/
def isComment (row : Nat) : Bool :=
  s.firstText row == (s.line row).finish ||
    (is '#' (byteAt s.text (s.firstText row)) && !(s.line row).content)

def commentOut (first last column : Nat) : List Edit :=
  (rows first last).filterMap fun row =>
    if s.isComment row then none
    else
      let position := min (s.columnByte row column) (s.firstText row)
      some ⟨position, position, bytes "# "⟩

/-- The last line of a section, over the comments below it that are indented enough. -/
def extendOver (minColumn : Nat) : Nat → List Nat → Nat
  | anchor, [] => anchor
  | anchor, row :: rows =>
    let text := s.firstText row
    if text == (s.line row).finish then extendOver minColumn anchor rows
    else if (s.line row).key || (s.line row).content || !is '#' (byteAt s.text text) then anchor
    else
      extendOver minColumn (if minColumn ≤ text - s.columnByte row 0 then row else anchor) rows

def extendOverComments (anchor minColumn : Nat) : Nat :=
  s.extendOver minColumn anchor (s.rowsBelow anchor)

/-- The indicators of the header of a block scalar. -/
def indicators (header : Nat) : Bytes :=
  let text := slice s.text header (s.line (s.lineAt header)).finish
  text.take ((findFirstOf (bytes " #") text 0).getD text.length)

/-- Strips the final breaks of the block scalar that the file ends in. -/
def stripOpenScalar : List Edit :=
  match s.openBlockScalar with
  | none => []
  | some scalar =>
    let header := s.byte scalar.start
    match findFirstOf (bytes "+") (s.indicators header) 0 with
    | some keep => [⟨header + keep, header + keep + 1, bytes "-"⟩]
    | none =>
      if (findFirstOf (bytes "-") (s.indicators header) 0).isNone then
        [⟨header + 1, header + 1, bytes "-"⟩]
      else []

def insertLinesAfter (row : Nat) (added : List Bytes) : List Edit :=
  if row + 1 < s.lines.length then
    let position := (s.line (row + 1)).begin
    [⟨position, position, added.flatMap (· ++ s.eol)⟩]
  else
    s.stripOpenScalar ++
      [⟨s.text.length, s.text.length, added.flatMap (s.eol ++ ·) ++ s.eol⟩]

def appendLines (added : List Bytes) : List Edit :=
  let last := s.lines.length - 1
  if (s.line last).begin != (s.line last).finish then s.insertLinesAfter last added
  else [⟨s.text.length, s.text.length, added.flatMap (· ++ s.eol)⟩]

end Source

/-! The commented chain. -/

structure StackEntry where
  indent : Nat
  name : Bytes
  row : Nat

def popToParentOf (indent : Nat) (entries : List StackEntry) : List StackEntry :=
  entries.rdropWhile (indent ≤ ·.indent)

/-- The entries and then the name lead along the path. -/
def onPath (entries : List StackEntry) (name : Bytes) (path : List Bytes) : Bool :=
  path[entries.length]? == some name && entries.map (·.name) == path.take entries.length

/-- What the scan for commented keys has seen. -/
structure Scan where
  active : List StackEntry := []
  overlay : List StackEntry := []
  overlayBase : Nat := 0
  /-- The indentation of the last commented key, if it is off the path. -/
  offPath : Option Nat := none

namespace Source

variable (s : Source)

/-- The next line of settings is indented past the column. -/
def cutsASection (column : Nat) : List Nat → Bool
  | [] => false
  | row :: rows =>
    if s.isComment row then cutsASection column rows
    else (s.line row).content || decide (column < s.firstText row - s.columnByte row 0)

def commentedKeyAt (row : Nat) : Option CommentedKey :=
  let begin := s.columnByte row 0
  if (s.line row).finish < begin then none
  else parseCommentedKey (slice s.text begin (s.line row).finish)

/-- The loop of `FindCommentedChain` over the lines that are left. -/
def findCommentedChainFrom (path : List Bytes) (depth column : Nat) : Scan → List Nat → List Nat
  | _, [] => []
  | scan, row :: rows =>
    let info := s.line row
    if info.key then
      findCommentedChainFrom path depth column
        { scan with
          offPath := none
          overlay := []
          active := popToParentOf info.indent scan.active ++ [⟨info.indent, info.name, row⟩] } rows
    else if info.content then findCommentedChainFrom path depth column scan rows
    else
      match s.commentedKeyAt row with
      | none => findCommentedChainFrom path depth column scan rows
      | some parsed =>
        if scan.offPath.any (· < parsed.indent) then
          findCommentedChainFrom path depth column scan rows
        else
          let chain :=
            popToParentOf parsed.indent
              (if scan.overlay.isEmpty then scan.active
              else scan.active.take scan.overlayBase ++ scan.overlay)
          if !onPath chain parsed.name path then
            findCommentedChainFrom path depth column
              { scan with
                overlay := popToParentOf parsed.indent scan.overlay
                offPath := some parsed.indent } rows
          else
            let base :=
              if scan.overlay.isEmpty || decide (chain.length < scan.overlayBase) then chain.length
              else scan.overlayBase
            let overlay := chain.drop base ++ [⟨parsed.indent, parsed.name, row⟩]
            if chain.length + 1 != path.length || base != depth || s.cutsASection column rows then
              findCommentedChainFrom path depth column
                { scan with overlay, overlayBase := base, offPath := none } rows
            else overlay.map (·.row)

/-- The lines of the commented keys that lead from the section of the first `depth` names down to
the path. -/
def findCommentedChain (path : List Bytes) (depth column : Nat) : List Nat :=
  s.findCommentedChainFrom path depth column {} (List.range s.lines.length)

end Source

/-! Writing a value. -/

def indentStep : Nat := 2

/-- `a: {b: {c: value}}` for the names. -/
def flowText (scalar : Bytes) : List Bytes → Bytes
  | [] => scalar
  | [name] => name ++ bytes ": " ++ scalar
  | name :: names => name ++ bytes ": \x7b" ++ flowText scalar names ++ bytes "\x7d"

def keyText (indent : Nat) (name : Bytes) : Bytes :=
  List.replicate indent (chr ' ') ++ name ++ bytes ":"

mutual

/-- The leaf a node ends in; none when a block collection on the way is empty. -/
def lastLeaf : Node → Option Node
  | .scalar value style start finish => some (.scalar value style start finish)
  | .mapping flow pairs start finish =>
    if flow then some (.mapping flow pairs start finish) else lastLeafOfPairs pairs
  | .sequence flow items start finish =>
    if flow then some (.sequence flow items start finish) else lastLeafOfItems items

def lastLeafOfPairs : List (Node × Node) → Option Node
  | [] => none
  | (_, value) :: pairs => if pairs.isEmpty then lastLeaf value else lastLeafOfPairs pairs

def lastLeafOfItems : List Node → Option Node
  | [] => none
  | item :: items => if items.isEmpty then lastLeaf item else lastLeafOfItems items

end

namespace Source

variable (s : Source)

/-- The value of a key that has none yet. -/
def fillEmptyValue (pair : Pair) (text : Bytes) : List Edit :=
  let after := s.afterColon pair.key
  [⟨after.1, after.1, bytes (if after.2 then " " else ": ") ++ text⟩]

/-- Comments out a block section below its key. -/
def commentOutBlockValue (pair : Pair) : List Edit :=
  s.commentOut
    (max (s.lineAt (s.byte pair.value.start)) (s.lineAt (s.byte pair.key.start) + 1))
    (s.lineAt (before (s.lastByte pair.value))) pair.key.start.column

/-- The blank lines below one. -/
def skipBlank : Nat → Nat → Nat
  | 0, row => row
  | fuel + 1, row =>
    if row + 2 < s.lines.length && s.firstText (row + 1) == (s.line (row + 1)).finish then
      skipBlank fuel (row + 1)
    else row

/-- The last line a block section owns, with the blank lines its last value keeps. -/
def lastLine (node : Node) : Nat :=
  let row := s.lineAt (before (s.lastByte node))
  match lastLeaf node with
  | none => row
  | some leaf =>
    if !leaf.isBlockScalar || s.lineAt (before (s.lastByte leaf)) != row ||
        (findFirstOf (bytes "+") (s.indicators (s.byte leaf.start)) 0).isNone then row
    else s.skipBlank s.lines.length row

def setExisting (pair : Pair) (scalar : Bytes) : List Edit :=
  match pair.aliasAt with
  | some (begin, finish) => [⟨begin, finish, scalar⟩]
  | none =>
    if pair.value.isNull then s.fillEmptyValue pair scalar
    else if pair.value.isBlockCollection then
      -- a section becomes a single value, and its lines stay as comments
      let position := s.propertiesEnd (s.afterColon pair.key).1
      s.commentOutBlockValue pair ++ [⟨position, position, bytes " " ++ scalar⟩]
    else
      let begin := s.byte pair.value.start
      let finish := s.lastByte pair.value
      let properties := s.propertiesEnd begin
      if properties == begin then [⟨begin, finish, scalar⟩]
      else
        match findFirstNotOf (bytes " \r\n") s.text properties with
        | none => [⟨properties, properties, bytes " " ++ scalar⟩]
        | some content =>
          if finish ≤ content then [⟨properties, properties, bytes " " ++ scalar⟩]
          else [⟨content, finish, scalar⟩]

/-- The rewritten line of a commented key; `first` is the column the first of them has. -/
def uncomment (row first indent : Nat) (value : Bytes) : List Edit :=
  match s.commentedKeyAt row with
  | none => []
  | some parsed =>
    [⟨s.columnByte row 0, (s.line row).finish,
      keyText (indent + (parsed.indent - first)) parsed.name ++ value ++
        trailingComment parsed.rest⟩]

/-- Writes the rest of the path below a section, from an indentation on. -/
def addKeys (path : List Bytes) (depth indent : Nat) (anchor : Option Nat) (scalar : Bytes) :
    List Edit :=
  match s.findCommentedChain path depth indent with
  | row :: rows =>
    let first := ((s.commentedKeyAt row).map (·.indent)).getD 0
    (row :: rows).flatMap fun r =>
      -- a commented key on the way down becomes a section
      s.uncomment r first indent
        (if some r == (row :: rows).getLast? then bytes " " ++ scalar else [])
  | [] =>
    let names := path.drop depth
    let added := names.zipIdx.map fun n =>
      keyText (indent + indentStep * n.2) n.1 ++
        if n.2 + 1 = names.length then bytes " " ++ scalar else []
    match anchor with
    | none => s.appendLines added
    | some anchor => s.insertLinesAfter anchor added

/-- Adds the rest of the path to a section, which is the file itself when it has no parent. -/
def addToSection (container : Node) (parent : Option Pair) (path : List Bytes) (depth : Nat)
    (scalar : Bytes) : List Edit :=
  let text := flowText scalar (path.drop depth)
  if container.isFlowMapping then
    match container.pairs.getLast? with
    | none =>
      let position := ((findFirstOf [0x7b] s.text (s.byte container.start)).map (· + 1)).getD 0
      [⟨position, position, text⟩]
    | some raw =>
      let position := s.valueEnd (s.makePair container (container.pairs.length - 1) raw)
      [⟨position, position, bytes ", " ++ text⟩]
  else
    let indent := (container.pairs.head?.map (·.1.start.column)).getD 0
    let minColumn := (parent.map (·.key.start.column + 1)).getD 0
    let anchor := s.extendOverComments (s.lastLine container) minColumn
    s.addKeys path depth indent (some anchor) scalar

/-- The value of a key makes way for a section with the rest of the path. -/
def replaceBySection (parent : Pair) (path : List Bytes) (depth : Nat) (scalar : Bytes) :
    List Edit :=
  let container := parent.value
  if parent.mapping.isFlowMapping then
    let text := [0x7b] ++ flowText scalar (path.drop depth) ++ [0x7d]
    if container.isNull then s.fillEmptyValue parent text
    else [⟨s.byte container.start, s.lastByte container, text⟩]
  else
    let column := parent.key.start.column
    let after := (s.afterColon parent.key).1
    let cleared :=
      if container.isBlockCollection then s.commentOutBlockValue parent
      else if !container.isNull then [⟨after, s.lastByte container, []⟩]
      else []
    let anchor :=
      s.extendOverComments (s.lineAt (before (max (s.lastByte container) after))) (column + 1)
    cleared ++ s.addKeys path depth (column + indentStep) (some anchor) scalar

/-- Adds a key the file does not have. `chain` holds the sections of the path that do exist;
whether the innermost one held a value that had to make way. -/
def setMissing (root : Option Node) (chain : List Pair) (path : List Bytes) (scalar : Bytes) :
    List Edit × Bool :=
  match chain.getLast?, root with
  | some parent, _ =>
    if parent.value.isMapping then
      (s.addToSection parent.value (some parent) path chain.length scalar, false)
    else (s.replaceBySection parent path chain.length scalar, true)
  | none, some root => (s.addToSection root none path 0 scalar, false)
  | none, none => (s.addKeys path 0 0 none scalar, false)

/-- The sections left without a key, from the innermost on. -/
def emptied : List Pair → List Edit
  | pair :: parent :: chain =>
    if pair.mapping.pairs.length != 1 || parent.mapping.isFlowMapping then []
    else
      let row := s.lineAt (s.byte parent.key.start)
      s.commentOut row row parent.key.start.column ++ emptied (parent :: chain)
  | _ => []

/-- Takes a pair out of a flow mapping. -/
def unsetFlow (pair : Pair) : List Edit :=
  let pairs := pair.mapping.pairs
  match pairs[pair.index + 1]? with
  | some next => [⟨s.byte pair.key.start, s.byte next.1.start, []⟩]
  | none =>
    match pair.index with
    | previous + 1 =>
      match pairs[previous]? with
      | some raw => [⟨s.valueEnd (s.makePair pair.mapping previous raw), s.valueEnd pair, []⟩]
      | none => []
    | 0 =>
      [⟨((findFirstOf [0x7b] s.text (s.byte pair.mapping.start)).map (· + 1)).getD 0,
        before (s.byte pair.mapping.finish), []⟩]

/-- Takes out the last pair of the chain. -/
def unset (chain : List Pair) : List Edit :=
  match chain.getLast? with
  | none => []
  | some pair =>
    if pair.mapping.isFlowMapping then s.unsetFlow pair
    else
      s.commentOut (s.lineAt (s.byte pair.key.start)) (s.lineAt (before (s.valueEnd pair)))
        pair.key.start.column ++ s.emptied chain.reverse

end Source

end Nightcap.Config
