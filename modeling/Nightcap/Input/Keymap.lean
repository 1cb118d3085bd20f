import Mathlib

/-! From SDL's keys and buttons to the codes of Android and of the native input interface. -/
namespace Nightcap.Input

structure AndroidKeyMapping where
  scanCode : Int32 := 0
  keyCode : Int32 := 0
deriving DecidableEq

def AndroidKeyMapping.valid (m : AndroidKeyMapping) : Bool := 0 < m.scanCode && 0 < m.keyCode

/-- The cases of the switch over `SDL_Scancode`, in the source's order. -/
def androidKeys : List (UInt32 × AndroidKeyMapping) :=
  [(4, ⟨30, 29⟩), (5, ⟨48, 30⟩), (6, ⟨46, 31⟩), (7, ⟨32, 32⟩), (8, ⟨18, 33⟩), (9, ⟨33, 34⟩),
    (10, ⟨34, 35⟩), (11, ⟨35, 36⟩), (12, ⟨23, 37⟩), (13, ⟨36, 38⟩), (14, ⟨37, 39⟩),
    (15, ⟨38, 40⟩), (16, ⟨50, 41⟩), (17, ⟨49, 42⟩), (18, ⟨24, 43⟩), (19, ⟨25, 44⟩),
    (20, ⟨16, 45⟩), (21, ⟨19, 46⟩), (22, ⟨31, 47⟩), (23, ⟨20, 48⟩), (24, ⟨22, 49⟩),
    (25, ⟨47, 50⟩), (26, ⟨17, 51⟩), (27, ⟨45, 52⟩), (28, ⟨21, 53⟩), (29, ⟨44, 54⟩),
    (30, ⟨2, 8⟩), (31, ⟨3, 9⟩), (32, ⟨4, 10⟩), (33, ⟨5, 11⟩), (34, ⟨6, 12⟩), (35, ⟨7, 13⟩),
    (36, ⟨8, 14⟩), (37, ⟨9, 15⟩), (38, ⟨10, 16⟩), (39, ⟨11, 7⟩), (40, ⟨28, 66⟩),
    (41, ⟨1, 111⟩), (42, ⟨14, 67⟩), (43, ⟨15, 61⟩), (44, ⟨57, 62⟩), (45, ⟨12, 69⟩),
    (46, ⟨13, 70⟩), (47, ⟨26, 71⟩), (48, ⟨27, 72⟩), (49, ⟨43, 73⟩), (51, ⟨39, 74⟩),
    (52, ⟨40, 75⟩), (53, ⟨41, 68⟩), (54, ⟨51, 55⟩), (55, ⟨52, 56⟩), (56, ⟨53, 76⟩),
    (57, ⟨58, 115⟩), (58, ⟨59, 131⟩), (59, ⟨60, 132⟩), (60, ⟨61, 133⟩), (61, ⟨62, 134⟩),
    (62, ⟨63, 135⟩), (63, ⟨64, 136⟩), (64, ⟨65, 137⟩), (65, ⟨66, 138⟩), (66, ⟨67, 139⟩),
    (67, ⟨68, 140⟩), (68, ⟨87, 141⟩), (69, ⟨88, 142⟩), (70, ⟨99, 120⟩), (71, ⟨70, 116⟩),
    (72, ⟨119, 121⟩), (73, ⟨110, 124⟩), (74, ⟨102, 122⟩), (75, ⟨104, 92⟩), (76, ⟨111, 112⟩),
    (77, ⟨107, 123⟩), (78, ⟨109, 93⟩), (79, ⟨106, 22⟩), (80, ⟨105, 21⟩), (81, ⟨108, 20⟩),
    (82, ⟨103, 19⟩), (83, ⟨69, 143⟩), (84, ⟨98, 154⟩), (85, ⟨55, 155⟩), (86, ⟨74, 156⟩),
    (87, ⟨78, 157⟩), (88, ⟨96, 160⟩), (89, ⟨79, 145⟩), (90, ⟨80, 146⟩), (91, ⟨81, 147⟩),
    (92, ⟨75, 148⟩), (93, ⟨76, 149⟩), (94, ⟨77, 150⟩), (95, ⟨71, 151⟩), (96, ⟨72, 152⟩),
    (97, ⟨73, 153⟩), (98, ⟨82, 144⟩), (99, ⟨83, 158⟩), (224, ⟨29, 113⟩), (225, ⟨42, 59⟩),
    (226, ⟨56, 57⟩), (227, ⟨125, 117⟩), (228, ⟨97, 114⟩), (229, ⟨54, 60⟩), (230, ⟨100, 58⟩),
    (231, ⟨126, 118⟩), (101, ⟨127, 82⟩)]

/-- The key code of a digit or a letter, 0 for any other key. -/
def fallbackKeycode (sdlKey : UInt32) : Int32 :=
  if 48 ≤ sdlKey ∧ sdlKey ≤ 57 then 7 + (sdlKey.toInt32 - 48)
  else if 97 ≤ sdlKey ∧ sdlKey ≤ 122 then 29 + (sdlKey.toInt32 - 97)
  else if 65 ≤ sdlKey ∧ sdlKey ≤ 90 then 29 + (sdlKey.toInt32 - 65)
  else 0

def mapSdlKeyToAndroid (sdlScancode sdlKey : UInt32) : AndroidKeyMapping :=
  match androidKeys.lookup sdlScancode with
  | some mapping => mapping
  | none =>
    if 0 < fallbackKeycode sdlKey then
      ⟨if 0 < sdlScancode then sdlScancode.toInt32 else fallbackKeycode sdlKey,
        fallbackKeycode sdlKey⟩
    else if 0 < sdlScancode then ⟨sdlScancode.toInt32, sdlScancode.toInt32⟩
    else {}

/-- Without a key to fall back on, the scancode alone has a mapping. -/
def hasMapping (sdlScancode : UInt32) : Bool := (mapSdlKeyToAndroid sdlScancode 0).valid

theorem androidKeys_valid : ∀ p ∈ androidKeys, p.2.valid = true := by decide +kernel

/-- Such a scancode keeps a mapping whatever key is reported with it. -/
theorem hasMapping_iff (sdlScancode : UInt32) :
    hasMapping sdlScancode = true ↔
      ∀ sdlKey, (mapSdlKeyToAndroid sdlScancode sdlKey).valid = true := by
  refine ⟨fun h sdlKey => ?_, fun h => h 0⟩
  unfold hasMapping mapSdlKeyToAndroid at h
  unfold mapSdlKeyToAndroid
  cases hl : androidKeys.lookup sdlScancode with
  | some mapping =>
    obtain ⟨l₁, l₂, heq, _⟩ := List.lookup_eq_some_iff.1 hl
    exact androidKeys_valid (sdlScancode, mapping) (by rw [heq]; simp)
  | none =>
    rw [hl] at h
    have hzero : ¬ 0 < fallbackKeycode 0 := by decide
    dsimp only at h ⊢
    rw [if_neg hzero] at h
    split at h
    · next hpos =>
      simp only [AndroidKeyMapping.valid, Bool.and_self, decide_eq_true_eq] at h
      by_cases hf : 0 < fallbackKeycode sdlKey
      · simp [AndroidKeyMapping.valid, hf, hpos, h]
      · simp [AndroidKeyMapping.valid, hf, hpos, h]
    · cases h

def mapSdlMouseButtonToRoblox (sdlButton : UInt8) : Int32 :=
  if sdlButton = 1 then 0
  else if sdlButton = 3 then 1
  else if sdlButton = 2 then 2
  else if sdlButton = 4 then 7
  else if sdlButton = 5 then 15
  else -1

inductive GamepadFamily
  | kUnknown
  | kXbox
  | kPlayStation4
  | kPlayStation5
deriving DecidableEq

def robloxGamepadType : GamepadFamily → Int32
  | .kPlayStation4 => 1
  | .kPlayStation5 => 2
  | .kXbox => 3
  | .kUnknown => 0

/-- The cases of the switch over SDL's gamepad buttons. -/
def androidButtons : List (UInt8 × Int32) :=
  [(0, 96), (1, 97), (2, 99), (3, 100), (11, 19), (12, 20), (13, 21), (14, 22), (9, 102), (10, 103),
    (7, 106), (8, 107), (6, 108), (4, 109)]

def mapSdlGamepadButtonToAndroid (sdlButton : UInt8) : Int32 :=
  (androidButtons.lookup sdlButton).getD (-1)

end Nightcap.Input
