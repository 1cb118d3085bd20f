import Mathlib

/-! The ETC2 RGB8 and RGB8A1 block formats: the colour of each texel of a 64-bit block. -/
namespace Nightcap.Etc2

/-- Bits `high` down to `low` of a block. -/
def field (w high low : Nat) : Nat := w / 2 ^ low % 2 ^ (high + 1 - low)

/-- A channel of `n` bits, its high bits repeated down to eight. -/
def extend (n value : Nat) : Nat := value * 2 ^ (8 - n) + value / 2 ^ (2 * n - 8)

/-- Three bits in two's complement. -/
def signed3 (value : Nat) : Int := if value < 4 then value else value - 8

/-- A colour before its channels are clamped. -/
structure Color where
  red : Int
  green : Int
  blue : Int

def Color.plus (c : Color) (d : Int) : Color := ⟨c.red + d, c.green + d, c.blue + d⟩

/-- A colour as one number, red first. -/
def Color.value (c : Color) : Int := c.red * 65536 + c.green * 256 + c.blue

/-- The four bytes of a texel. -/
structure Texel where
  red : Nat
  green : Nat
  blue : Nat
  alpha : Nat
deriving DecidableEq

def clamp (value : Int) : Nat := (max 0 (min value 255)).toNat

def Color.texel (c : Color) : Texel := ⟨clamp c.red, clamp c.green, clamp c.blue, 255⟩

def Texel.transparent : Texel := ⟨0, 0, 0, 0⟩

/-- A texel as a little-endian word. -/
def Texel.word (t : Texel) : Nat := t.red + t.green * 2 ^ 8 + t.blue * 2 ^ 16 + t.alpha * 2 ^ 24

inductive Mode
  | individual
  | differential
  | t
  | h
  | planar
deriving DecidableEq

variable (w : Nat)

/-- The second base channel of the differential mode: five bits and a signed difference, the
eight of them ending at bit `low`. -/
def secondChannel (low : Nat) : Int :=
  field w (low + 7) (low + 3) + signed3 (field w (low + 2) low)

def Fits (value : Int) : Prop := 0 ≤ value ∧ value ≤ 31

instance (value : Int) : Decidable (Fits value) := inferInstanceAs (Decidable (_ ∧ _))

/-- The differential bit, read as the opaque bit with punch-through alpha. -/
def flagBit : Nat := field w 33 33

def flipBit : Nat := field w 32 32

/-- Which of the second base channels overflows picks the mode. -/
def mode (punchthrough : Bool) : Mode :=
  if punchthrough = false ∧ flagBit w = 0 then .individual
  else if ¬ Fits (secondChannel w 56) then .t
  else if ¬ Fits (secondChannel w 48) then .h
  else if ¬ Fits (secondChannel w 40) then .planar
  else .differential

/-- Texels may be transparent. -/
def Transparent (punchthrough : Bool) : Prop := punchthrough = true ∧ flagBit w = 0

instance (punchthrough : Bool) : Decidable (Transparent w punchthrough) :=
  inferInstanceAs (Decidable (_ ∧ _))

/-- The two index bits of texel `(x, y)`, from the two planes. -/
def index (x y : Nat) : Nat :=
  2 * field w (16 + (x * 4 + y)) (16 + (x * 4 + y)) + field w (x * 4 + y) (x * 4 + y)

/-- The halves of a block lie side by side, or one over the other when flipped. -/
def subblock (x y : Nat) : Nat := if flipBit w = 1 then y / 2 else x / 2

def distances : List Int := [3, 6, 11, 16, 23, 32, 41, 64]

def intensities : List (Int × Int) :=
  [(2, 8), (5, 17), (9, 29), (13, 42), (18, 60), (24, 80), (33, 106), (47, 183)]

/-- The high index bit is the sign, the low one picks the larger intensity. -/
def modifier (table index : Nat) : Int :=
  let (small, large) := intensities.getD table (0, 0)
  match index with
  | 0 => small
  | 1 => large
  | 2 => -small
  | _ => -large

def individualBase : Nat → Color
  | 0 => ⟨extend 4 (field w 63 60), extend 4 (field w 55 52), extend 4 (field w 47 44)⟩
  | _ => ⟨extend 4 (field w 59 56), extend 4 (field w 51 48), extend 4 (field w 43 40)⟩

def differentialBase : Nat → Color
  | 0 => ⟨extend 5 (field w 63 59), extend 5 (field w 55 51), extend 5 (field w 47 43)⟩
  | _ => ⟨extend 5 (secondChannel w 56).toNat, extend 5 (secondChannel w 48).toNat,
      extend 5 (secondChannel w 40).toNat⟩

def codeword : Nat → Nat
  | 0 => field w 39 37
  | _ => field w 36 34

/-- Where texels may be transparent, index 0 leaves its base colour alone. -/
def subblockColor (punchthrough : Bool) (base : Nat → Color) (sub index : Nat) : Color :=
  if Transparent w punchthrough ∧ index = 0 then base sub
  else (base sub).plus (modifier (codeword w sub) index)

def tColor (index : Nat) : Color :=
  let first : Color := ⟨extend 4 (field w 60 59 * 4 + field w 57 56), extend 4 (field w 55 52),
    extend 4 (field w 51 48)⟩
  let second : Color :=
    ⟨extend 4 (field w 47 44), extend 4 (field w 43 40), extend 4 (field w 39 36)⟩
  let d := distances.getD (field w 35 34 * 2 + field w 32 32) 0
  match index with
  | 0 => first
  | 1 => second.plus d
  | 2 => second
  | _ => second.plus (-d)

def hColor (index : Nat) : Color :=
  let first : Color := ⟨extend 4 (field w 62 59), extend 4 (field w 58 56 * 2 + field w 52 52),
    extend 4 (field w 51 51 * 8 + field w 49 47)⟩
  let second : Color :=
    ⟨extend 4 (field w 46 43), extend 4 (field w 42 39), extend 4 (field w 38 35)⟩
  let order := if first.value ≥ second.value then 1 else 0
  let d := distances.getD (field w 34 34 * 4 + field w 32 32 * 2 + order) 0
  match index with
  | 0 => first.plus d
  | 1 => first.plus (-d)
  | 2 => second.plus d
  | _ => second.plus (-d)

/-- A plane through three corner values. -/
def plane (x y origin horizontal vertical : Nat) : Int :=
  (x * ((horizontal : Int) - origin) + y * ((vertical : Int) - origin) + 4 * origin + 2) / 4

def planarColor (x y : Nat) : Color where
  red := plane x y (extend 6 (field w 62 57)) (extend 6 (field w 38 34 * 2 + field w 32 32))
    (extend 6 (field w 18 13))
  green := plane x y (extend 7 (field w 56 56 * 64 + field w 54 49)) (extend 7 (field w 31 25))
    (extend 7 (field w 12 6))
  blue := plane x y (extend 6 (field w 48 48 * 32 + field w 44 43 * 8 + field w 41 39))
    (extend 6 (field w 24 19)) (extend 6 (field w 5 0))

/-- Texel `(x, y)` of a block. -/
def texel (punchthrough : Bool) (x y : Nat) : Texel :=
  let i := index w x y
  if mode w punchthrough = .planar then (planarColor w x y).texel
  else if Transparent w punchthrough ∧ i = 2 then .transparent
  else
    match mode w punchthrough with
    | .t => (tColor w i).texel
    | .h => (hColor w i).texel
    | .individual => (subblockColor w punchthrough (individualBase w) (subblock w x y) i).texel
    | _ => (subblockColor w punchthrough (differentialBase w) (subblock w x y) i).texel

end Nightcap.Etc2
