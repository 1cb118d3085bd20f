import Mathlib

/-! ETC2 and EAC blocks: sixteen texels from eight or sixteen bytes. -/
namespace Nightcap.Graphics

inductive EtcFormat
  | etc2Rgb8
  | etc2Rgb8A1
  | etc2Rgba8
  | eacR11
  | eacR11Signed
  | eacRg11
  | eacRg11Signed
deriving DecidableEq

/-- The branch of the source's conditional compilation. -/
inductive Target
  | portable
  | x86
deriving DecidableEq

/-- The bytes of a block, from its start. -/
abbrev Block := Nat → UInt8

def kDistance : List Int := [3, 6, 11, 16, 23, 32, 41, 64]

def kDelta : List Int := [0, 1, 2, 3, -4, -3, -2, -1]

/-- Indexed by the two index bits, the high one first. -/
def kEtc1Modifiers : List (List Int) :=
  [[2, 8, -2, -8], [5, 17, -5, -17], [9, 29, -9, -29], [13, 42, -13, -42], [18, 60, -18, -60],
    [24, 80, -24, -80], [33, 106, -33, -106], [47, 183, -47, -183]]

def kEacModifiers : List (List Int) :=
  [[-3, -6, -9, -15, 2, 5, 8, 14], [-3, -7, -10, -13, 2, 6, 9, 12],
    [-2, -5, -8, -13, 1, 4, 7, 12], [-2, -4, -6, -13, 1, 3, 5, 12],
    [-3, -6, -8, -12, 2, 5, 7, 11], [-3, -7, -9, -11, 2, 6, 8, 10],
    [-4, -7, -8, -11, 3, 6, 7, 10], [-3, -5, -8, -11, 2, 4, 7, 10],
    [-2, -6, -8, -10, 1, 5, 7, 9], [-2, -5, -8, -10, 1, 4, 7, 9],
    [-2, -4, -8, -10, 1, 3, 7, 9], [-2, -5, -7, -10, 1, 4, 6, 9],
    [-3, -4, -7, -10, 2, 3, 6, 9], [-1, -2, -3, -10, 0, 1, 2, 9],
    [-4, -6, -8, -9, 3, 5, 7, 8], [-3, -5, -7, -9, 2, 4, 6, 8]]

def entry (table : List Int) (index : Nat) : Int := table.getD index 0

def row (table : List (List Int)) (index : Nat) : List Int := table.getD index []

def clamp255 (value : Int) : UInt8 := UInt8.ofNat (max 0 (min value 255)).toNat

def expand4 (value : Nat) : Nat := (value <<< 4) ||| value
def expand5 (value : Nat) : Nat := (value <<< 3) ||| (value >>> 2)
def expand6 (value : Nat) : Nat := (value <<< 2) ||| (value >>> 4)
def expand7 (value : Nat) : Nat := (value <<< 1) ||| (value >>> 6)

/-- Four bytes, lowest first. -/
def word (b₀ b₁ b₂ b₃ : UInt8) : UInt32 :=
  b₀.toUInt32 ||| (b₁.toUInt32 <<< 8) ||| (b₂.toUInt32 <<< 16) ||| (b₃.toUInt32 <<< 24)

def wordByte (w : UInt32) (k : Nat) : UInt8 := (w >>> UInt32.ofNat (8 * k)).toUInt8

/-! The vector instructions the x86 branch uses. -/

/-- Sixteen bytes. -/
abbrev Lanes := Nat → UInt8

/-- One lane of `_mm_packs_epi32`. -/
def packs32 (value : Int) : Int := max (-32768) (min value 32767)

/-- One lane of `_mm_packus_epi16`. -/
def packus16 (value : Int) : UInt8 := UInt8.ofNat (max 0 (min value 255)).toNat

def loadWords (words : Nat → UInt32) : Lanes := fun i => wordByte (words (i / 4)) (i % 4)

def laneWord (v : Lanes) (i : Nat) : UInt32 :=
  word (v (4 * i)) (v (4 * i + 1)) (v (4 * i + 2)) (v (4 * i + 3))

/-- `_mm_shuffle_epi8`. -/
def shuffle8 (v mask : Lanes) : Lanes :=
  fun i => if mask i ≥ 128 then 0 else v ((mask i).toNat % 16)

/-- `_mm_srli_si128` by eight bytes. -/
def shiftRight8 (v : Lanes) : Lanes := fun i => if i < 8 then v (i + 8) else 0

/-- `_mm_unpacklo_epi64`. -/
def unpackLow64 (v w : Lanes) : Lanes := fun i => if i < 8 then v i else w (i - 8)

/-- `ColumnShuffleTable::masks`. -/
def columnMask (combo : Nat) : Lanes := fun i =>
  let m := combo >>> 4
  let l := combo &&& 15
  let p := i / 4
  let color := (((m >>> p) &&& 1) <<< 1) ||| ((l >>> p) &&& 1)
  UInt8.ofNat (color * 4 + i % 4)

def makeRgba32 (target : Target) (r g b a : Int) : UInt32 :=
  match target with
  | .portable => word (clamp255 r) (clamp255 g) (clamp255 b) (UInt8.ofNat (a % 256).toNat)
  | .x86 =>
    word (packus16 (packs32 r)) (packus16 (packs32 g)) (packus16 (packs32 b)) (packus16 (packs32 a))

/-! `DecodeRgbBlock`. -/

/-- The two index bits of a column-major texel. -/
def indexOf (msb lsb texel : Nat) : Nat :=
  (((msb >>> texel) &&& 1) <<< 1) ||| ((lsb >>> texel) &&& 1)

/-- The colours of the T mode. -/
def paintT (v : Nat → Nat) (index : Nat) : List Int :=
  let c1 : List Int := [expand4 ((((v 0 >>> 3) &&& 3) <<< 2) ||| (v 0 &&& 3)), expand4 (v 1 >>> 4),
    expand4 (v 1 &&& 15)]
  let c2 : List Int := [expand4 (v 2 >>> 4), expand4 (v 2 &&& 15), expand4 (v 3 >>> 4)]
  let d := entry kDistance ((((v 3 >>> 2) &&& 3) <<< 1) ||| (v 3 &&& 1))
  match index with
  | 0 => c1
  | 1 => c2.map (· + d)
  | 2 => c2
  | _ => c2.map (· - d)

/-- The colours of the H mode. -/
def paintH (v : Nat → Nat) (index : Nat) : List Int :=
  let r1 := expand4 ((v 0 >>> 3) &&& 15)
  let g1 := expand4 (((v 0 &&& 7) <<< 1) ||| ((v 1 >>> 4) &&& 1))
  let b1 := expand4 ((v 1 &&& 8) ||| ((v 1 &&& 3) <<< 1) ||| (v 2 >>> 7))
  let r2 := expand4 ((v 2 >>> 3) &&& 15)
  let g2 := expand4 (((v 2 &&& 7) <<< 1) ||| (v 3 >>> 7))
  let b2 := expand4 ((v 3 >>> 3) &&& 15)
  let v1 := (r1 <<< 16) ||| (g1 <<< 8) ||| b1
  let v2 := (r2 <<< 16) ||| (g2 <<< 8) ||| b2
  let d := entry kDistance
    ((v 3 &&& 4) ||| ((v 3 &&& 1) <<< 1) ||| (if v1 ≥ v2 then 1 else 0))
  let c1 : List Int := [r1, g1, b1]
  let c2 : List Int := [r2, g2, b2]
  match index with
  | 0 => c1.map (· + d)
  | 1 => c1.map (· - d)
  | 2 => c2.map (· + d)
  | _ => c2.map (· - d)

def rgba (target : Target) (color : List Int) : UInt32 :=
  makeRgba32 target (entry color 0) (entry color 1) (entry color 2) 255

/-- One texel of the planar mode. -/
def planar (target : Target) (v : Nat → Nat) (texel : Nat) : UInt32 :=
  let x : Int := (texel / 4 : Nat)
  let y : Int := (texel % 4 : Nat)
  let channel (o h w : Nat) : Int := (x * (h - o) + y * (w - o) + 4 * o + 2) >>> 2
  let ro := expand6 ((v 0 >>> 1) &&& 63)
  let go := expand7 (((v 0 &&& 1) <<< 6) ||| ((v 1 >>> 1) &&& 63))
  let bo := expand6 (((v 1 &&& 1) <<< 5) ||| (v 2 &&& 0x18) ||| ((v 2 &&& 3) <<< 1) ||| (v 3 >>> 7))
  let rh := expand6 (((v 3 &&& 0x7c) >>> 1) ||| (v 3 &&& 1))
  let gh := expand7 (v 4 >>> 1)
  let bh := expand6 (((v 4 &&& 1) <<< 5) ||| (v 5 >>> 3))
  let rv := expand6 (((v 5 &&& 7) <<< 3) ||| (v 6 >>> 5))
  let gv := expand7 (((v 6 &&& 31) <<< 2) ||| (v 7 >>> 6))
  let bv := expand6 (v 7 &&& 63)
  makeRgba32 target (channel ro rh rv) (channel go gh gv) (channel bo bh bv) 255

/-- A colour channel plus its signed difference. -/
def channelSum (v : Nat → Nat) (c : Nat) : Int := (v c >>> 3 : Nat) + entry kDelta (v c &&& 7)

/-- The base colour of a subblock. The sums are not negative where the source gets here. -/
def baseColor (v : Nat → Nat) (individual : Bool) (sub : Nat) : List Int :=
  [0, 1, 2].map fun c =>
    if individual then ((if sub = 0 then expand4 (v c >>> 4) else expand4 (v c &&& 15) : Nat) : Int)
    else ((if sub = 0 then expand5 (v c >>> 3) else expand5 (channelSum v c).toNat : Nat) : Int)

/-- The four colours of a subblock. -/
def palette (target : Target) (v : Nat → Nat) (individual isOpaque : Bool) (sub index : Nat) :
    UInt32 :=
  let table := row kEtc1Modifiers (if sub = 0 then v 3 >>> 5 else (v 3 >>> 2) &&& 7)
  let modifier := if !isOpaque && index = 0 then 0 else entry table index
  rgba target ((baseColor v individual sub).map (· + modifier))

/-- One column of an opaque block by byte shuffles. -/
def shuffledColumn (pal : Nat → Nat → UInt32) (flipped : Bool) (msb lsb x : Nat) : Lanes :=
  let combo := (((msb >>> (x * 4)) &&& 15) <<< 4) ||| ((lsb >>> (x * 4)) &&& 15)
  let mask := columnMask combo
  if !flipped then
    if x < 2 then shuffle8 (loadWords (pal 0)) mask else shuffle8 (loadWords (pal 1)) mask
  else
    unpackLow64 (shuffle8 (loadWords (pal 0)) mask)
      (shiftRight8 (shuffle8 (loadWords (pal 1)) mask))

/-- The texels of the two palettes, in the individual and differential modes. -/
def paletteTexel (target : Target) (pal : Nat → Nat → UInt32) (flipped isOpaque : Bool)
    (msb lsb texel : Nat) : UInt32 :=
  let x := texel / 4
  let y := texel % 4
  let index := indexOf msb lsb texel
  if isOpaque then
    match target with
    | .x86 => laneWord (shuffledColumn pal flipped msb lsb x) y
    | .portable =>
      if !flipped then (if x < 2 then pal 0 index else pal 1 index)
      else (if y < 2 then pal 0 index else pal 1 index)
  else if index = 2 then 0
  else pal (if flipped then (if y ≥ 2 then 1 else 0) else (if x ≥ 2 then 1 else 0)) index

/-- `DecodeRgbBlock`: the RGBA word of each column-major texel. -/
def decodeRgbBlock (target : Target) (b : Block) (punchthrough : Bool) (texel : Nat) : UInt32 :=
  let v := fun i => (b i).toNat
  let diffOrOpaque := v 3 &&& 2 ≠ 0
  let isOpaque := !punchthrough || diffOrOpaque
  let individual := !punchthrough && !diffOrOpaque
  let msb := (v 4 <<< 8) ||| v 5
  let lsb := (v 6 <<< 8) ||| v 7
  let outside c := decide (channelSum v c < 0 ∨ channelSum v c > 31)
  if !individual && (outside 0 || outside 1) then
    let index := indexOf msb lsb texel
    if !isOpaque && index = 2 then 0
    else rgba target (if outside 0 then paintT v index else paintH v index)
  else if !individual && outside 2 then planar target v texel
  else paletteTexel target (palette target v individual isOpaque)
    (v 3 &&& 1 ≠ 0) isOpaque msb lsb texel

/-! EAC. -/

def readEacBits (b : Block) : Nat :=
  [2, 3, 4, 5, 6, 7].foldl (fun bits i => (bits <<< 8) ||| (b i).toNat) 0

def eacIndexFromBits (bits texel : Nat) : Nat := (bits >>> (45 - texel * 3)) &&& 7

def eacTable (b : Block) : List Int := row kEacModifiers ((b 1).toNat &&& 15)

def alphaOf (b : Block) (texel : Nat) : UInt8 :=
  clamp255 ((b 0).toNat +
    entry (eacTable b) (eacIndexFromBits (readEacBits b) texel) * ((b 1).toNat >>> 4 : Nat))

def decodeR11Modifier (b : Block) (index : Nat) (isSigned : Bool) : UInt16 :=
  let multiplier : Int := ((b 1).toNat >>> 4 : Nat)
  let modifier := entry (eacTable b) index
  let scaled := if multiplier ≠ 0 then modifier * multiplier * 8 else modifier
  if !isSigned then
    let value := (max 0 (min ((b 0).toNat * 8 + 4 + scaled) 2047)).toNat
    UInt16.ofNat ((value <<< 5) ||| (value >>> 6))
  else
    let base := max (-127) (b 0).toInt8.toInt
    let value := max (-1023) (min (base * 8 + scaled) 1023)
    let magnitude := value.natAbs
    let expanded := UInt16.ofNat ((magnitude <<< 5) ||| (magnitude >>> 5))
    if value < 0 then -expanded else expanded

def etcBlockBytes : EtcFormat → Nat
  | .etc2Rgba8 | .eacRg11 | .eacRg11Signed => 16
  | _ => 8

def etcDecodedTexelBytes : EtcFormat → Nat
  | .eacR11 | .eacR11Signed => 2
  | _ => 4

def isRgbaFamily : EtcFormat → Bool
  | .etc2Rgb8 | .etc2Rgb8A1 | .etc2Rgba8 => true
  | _ => false

def isSignedFormat : EtcFormat → Bool
  | .eacR11Signed | .eacRg11Signed => true
  | _ => false

/-- The source's `cols`. -/
def blockColumns (target : Target) (format : EtcFormat) (b : Block) (texel : Nat) : UInt32 :=
  match format with
  | .etc2Rgba8 =>
    (decodeRgbBlock target (fun i => b (8 + i)) false texel &&& (0x00FFFFFF : UInt32)) |||
      ((alphaOf b texel).toUInt32 <<< 24)
  | _ => decodeRgbBlock target b (format = .etc2Rgb8A1) texel

/-- A 16-bit channel of an EAC texel. -/
def channelValue (format : EtcFormat) (b : Block) (channel texel : Nat) : UInt16 :=
  let cb : Block := fun i => b (channel * 8 + i)
  decodeR11Modifier cb (eacIndexFromBits (readEacBits cb) texel) (isSignedFormat format)

/-- Byte `k` of a decoded texel. -/
def texelByte (target : Target) (format : EtcFormat) (b : Block) (texel k : Nat) : UInt8 :=
  if isRgbaFamily format then wordByte (blockColumns target format b texel) k
  else
    let value := channelValue format b (k / 2) texel
    if k % 2 = 0 then value.toUInt8 else (value >>> 8).toUInt8

end Nightcap.Graphics
