import Nightcap.Lib.Signal
import Nightcap.Input.Footprint

/-! What the native side sees of one gamepad: it is connected first, and its buttons take turns. -/
namespace Nightcap.Input

open Text Signal StateFrame

variable {sink : Sink} {r r' : Router} {log more : List Native} {d k : Int32} {b c : UInt8}

/-! The buttons as bits. -/

theorem toBitVec_mask (hb : b < 32) :
    ((1 : UInt32) <<< b.toUInt32).toBitVec = BitVec.twoPow 32 b.toNat := by
  have hlt : b.toNat < 32 := hb
  have hmod : (b.toUInt32.toBitVec % 32).toNat = b.toNat := by
    rw [BitVec.toNat_umod]
    simp [Nat.mod_eq_of_lt hlt]
  rw [UInt32.toBitVec_shiftLeft, BitVec.twoPow_eq, ← hmod]
  rfl

theorem has_eq_getLsbD (mask : UInt32) (hb : b < 32) :
    has mask b = mask.toBitVec.getLsbD b.toNat := by
  have hlt : b.toNat < 32 := hb
  have hzero : mask &&& ((1 : UInt32) <<< b.toUInt32) = 0 ↔
      mask.toBitVec.getLsbD b.toNat = false := by
    rw [← UInt32.toBitVec_inj, UInt32.toBitVec_and, toBitVec_mask hb, BitVec.and_twoPow]
    cases mask.toBitVec.getLsbD b.toNat with
    | false => simp
    | true =>
      simp only [if_true, Bool.true_eq_false, iff_false]
      intro h
      have hbit := congrArg (BitVec.getLsbD · b.toNat) h
      simp [hlt] at hbit
  rw [has, decide_eq_true hb, Bool.true_and, Bool.eq_iff_iff, bne_iff_ne, ne_eq, hzero]
  simp

theorem has_or (mask : UInt32) (hb : b < 32) (hc : c < 32) :
    has (mask ||| ((1 : UInt32) <<< b.toUInt32)) c = (has mask c || c == b) := by
  have hlt : b.toNat < 32 := hb
  rw [has_eq_getLsbD _ hc, has_eq_getLsbD _ hc, UInt32.toBitVec_or, toBitVec_mask hb,
    BitVec.getLsbD_or, BitVec.getLsbD_twoPow]
  by_cases h : c = b
  · subst h
    simp [hlt]
  · have hn : ¬ b.toNat = c.toNat := fun he => h (UInt8.toNat_inj.1 he).symm
    simp [h, hn]

theorem has_and_not (mask : UInt32) (hb : b < 32) (hc : c < 32) :
    has (mask &&& ~~~((1 : UInt32) <<< b.toUInt32)) c = (has mask c && c != b) := by
  have hlt : b.toNat < 32 := hb
  have hlt' : c.toNat < 32 := hc
  rw [has_eq_getLsbD _ hc, has_eq_getLsbD _ hc, UInt32.toBitVec_and, UInt32.toBitVec_not,
    toBitVec_mask hb, BitVec.getLsbD_and, BitVec.getLsbD_not, BitVec.getLsbD_twoPow]
  by_cases h : c = b
  · subst h
    simp [hlt]
  · have hn : ¬ b.toNat = c.toNat := fun he => h (UInt8.toNat_inj.1 he).symm
    simp [h, hn, hlt']

theorem has_zero (b : UInt8) : has 0 b = false := by simp [has]

theorem has_lt {mask : UInt32} (h : has mask b = true) : b < 32 := by
  rw [has, Bool.and_eq_true] at h
  exact of_decide_eq_true h.1

theorem kButtons_lt : ∀ b ∈ kButtons, b < 32 := by decide +kernel

theorem kButtons_nodup : (kButtons.map mapSdlGamepadButtonToAndroid).Nodup := by
  have hmap : kButtons.map mapSdlGamepadButtonToAndroid =
      [96, 97, 99, 100, 19, 20, 21, 22, 103, 102, 106, 107, 109, 108] := rfl
  rw [hmap]
  simp

theorem kButtons_injective (hb : b ∈ kButtons) (hc : c ∈ kButtons)
    (h : mapSdlGamepadButtonToAndroid b = mapSdlGamepadButtonToAndroid c) : b = c :=
  List.inj_on_of_nodup_map kButtons_nodup hb hc h

/-- The buttons that have a key are those that are announced. -/
theorem mem_kButtons (h : ¬ mapSdlGamepadButtonToAndroid b < 0) : b ∈ kButtons := by
  have hall : ∀ entry ∈ androidButtons, entry.1 ∈ kButtons := by simp [androidButtons, kButtons]
  unfold mapSdlGamepadButtonToAndroid at h
  cases hl : androidButtons.lookup b with
  | none =>
    rw [hl] at h
    exact absurd (by decide) h
  | some key =>
    obtain ⟨l₁, l₂, heq, _⟩ := List.lookup_eq_some_iff.1 hl
    exact hall (b, key) (by rw [heq]; simp)

namespace ActiveGamepad

variable {g g' : ActiveGamepad}

/-- The keys that are down, in the order in which they are released. -/
def heldKeys (g : ActiveGamepad) : List Int32 :=
  (kButtons.filter (has g.pressedButtons)).map mapSdlGamepadButtonToAndroid

theorem mem_heldKeys : k ∈ g.heldKeys ↔
    ∃ b ∈ kButtons, has g.pressedButtons b = true ∧ mapSdlGamepadButtonToAndroid b = k := by
  simp [heldKeys, and_assoc]

theorem mem_heldKeys_map (hb : b ∈ kButtons) :
    mapSdlGamepadButtonToAndroid b ∈ g.heldKeys ↔ has g.pressedButtons b = true := by
  rw [mem_heldKeys]
  constructor
  · rintro ⟨c, hc, hh, he⟩
    rwa [← kButtons_injective hc hb he]
  · intro h
    exact ⟨b, hb, h, rfl⟩

/-- What a gamepad keeps to: only announced buttons are down, and only while it is connected. -/
structure WellFormed (g : ActiveGamepad) : Prop where
  announced : ∀ b, has g.pressedButtons b = true → b ∈ kButtons
  connected : ∀ b, has g.pressedButtons b = true → g.connected = true

theorem heldKeys_of_zero (h : g.pressedButtons = 0) : g.heldKeys = [] := by
  rw [heldKeys, h]
  simp [has_zero]

theorem heldKeys_of_disconnected (h : g.WellFormed) (hc : g.connected = false) :
    g.heldKeys = [] := by
  refine List.eq_nil_iff_forall_not_mem.2 fun k hk => ?_
  obtain ⟨b, _, hb, _⟩ := mem_heldKeys.1 hk
  rw [h.connected b hb] at hc
  cases hc

theorem wellFormed_of_zero (h : g.pressedButtons = 0) : g.WellFormed where
  announced b hb := by simp [h, has_zero] at hb
  connected b hb := by simp [h, has_zero] at hb

/-- The pressed buttons after a button event. -/
def press (g : ActiveGamepad) (b : UInt8) (pressed : Bool) : ActiveGamepad :=
  let mask := (1 : UInt32) <<< b.toUInt32
  { g with pressedButtons := if pressed then g.pressedButtons ||| mask
    else g.pressedButtons &&& ~~~mask }

theorem has_press (hb : b < 32) (hc : c < 32) (pressed : Bool) :
    has (g.press b pressed).pressedButtons c = if c = b then pressed
      else has g.pressedButtons c := by
  cases pressed with
  | true =>
    refine (has_or _ hb hc).trans ?_
    by_cases h : c = b <;> simp [h]
  | false =>
    refine (has_and_not _ hb hc).trans ?_
    by_cases h : c = b <;> simp [h]

theorem mem_heldKeys_press (hb : b ∈ kButtons) (pressed : Bool) :
    k ∈ (g.press b pressed).heldKeys ↔
      if k = mapSdlGamepadButtonToAndroid b then pressed = true else k ∈ g.heldKeys := by
  have hlt := kButtons_lt b hb
  by_cases hk : k = mapSdlGamepadButtonToAndroid b
  · subst hk
    rw [if_pos rfl, mem_heldKeys_map hb, has_press hlt hlt, if_pos rfl]
  · rw [if_neg hk, mem_heldKeys, mem_heldKeys]
    refine exists_congr fun c => and_congr_right fun hc => and_congr_left fun he => ?_
    have hcb : c ≠ b := fun h => hk (h ▸ he.symm)
    rw [has_press hlt (kButtons_lt c hc), if_neg hcb]

theorem WellFormed.press (h : g.WellFormed) (hc : g.connected = true) (hb : b ∈ kButtons)
    (pressed : Bool) : (g.press b pressed).WellFormed where
  announced c hp := by
    rw [has_press (kButtons_lt b hb) (has_lt hp)] at hp
    split at hp
    · next he => exact he ▸ hb
    · exact h.announced c hp
  connected _ _ := hc

end ActiveGamepad

/-! The native side of a device. -/

/-- The calls that press or release a key of a device. -/
def buttonSignal (d k : Int32) : Native → Option Bool
  | .gamepadButton device key pressed => if device = d ∧ key = k then some pressed else none
  | _ => none

/-- The calls that connect or disconnect a device. -/
def connectSignal (d : Int32) : Native → Option Bool
  | .gamepadConnect device _ => if device = d then some true else none
  | .gamepadDisconnect device => if device = d then some false else none
  | _ => none

/-- Whether a device is connected, and one of its keys down, after one more call; nothing if the
call is out of turn. -/
def padStep (d k : Int32) (state : Bool × Bool) (n : Native) : Option (Bool × Bool) :=
  match connectSignal d n, buttonSignal d k n with
  | some true, _ => if state = (false, false) then some (true, false) else none
  | some false, _ => if state = (true, false) then some (false, false) else none
  | none, some pressed => if state = (true, !pressed) then some (true, pressed) else none
  | none, none => some state

def padRun (d k : Int32) (state : Bool × Bool) (log : List Native) : Option (Bool × Bool) :=
  log.foldlM (padStep d k) state

theorem padRun_append (d k : Int32) (state : Bool × Bool) (log more : List Native) :
    padRun d k state (log ++ more) = (padRun d k state log).bind (padRun d k · more) :=
  List.foldlM_append ..

theorem padRun_snoc (d k : Int32) (state : Bool × Bool) (log : List Native) (n : Native) :
    padRun d k state (log ++ [n]) = (padRun d k state log).bind (padStep d k · n) := by
  rw [padRun_append]
  congr 1
  funext state
  exact bind_pure _

/-- Every button call of the device comes while it is connected. -/
def ConnectedFirst (d k : Int32) (log : List Native) : Prop :=
  ∀ before n after b, log = before ++ n :: after → buttonSignal d k n = some b →
    held (connectSignal d) before = true

theorem connectSignal_of_button {n : Native} {pressed : Bool}
    (h : buttonSignal d k n = some pressed) :
    connectSignal d n = none := by
  cases n with
  | gamepadButton => rfl
  | _ => cases h

/-- What an accepted log says. -/
structure PadWords (d k : Int32) (log : List Native) (state : Bool × Bool) : Prop where
  connected : held (connectSignal d) log = state.1
  pressed : held (buttonSignal d k) log = state.2
  alternates : Alternates (buttonSignal d k) log
  connectedFirst : ConnectedFirst d k log

theorem held_quiet {sig : Native → Option Bool} {n : Native} (h : sig n = none) :
    held sig (log ++ [n]) = held sig log := held_append (by simpa using h)

/-- A call of the device in its turn. -/
theorem padStep_cases {state state' : Bool × Bool} {n : Native}
    (h : padStep d k state n = some state') :
    (∃ connected, connectSignal d n = some connected ∧ buttonSignal d k n = none ∧
      state = (!connected, false) ∧ state' = (connected, false)) ∨
    (∃ pressed, connectSignal d n = none ∧ buttonSignal d k n = some pressed ∧
      state = (true, !pressed) ∧ state' = (true, pressed)) ∨
    (connectSignal d n = none ∧ buttonSignal d k n = none ∧ state' = state) := by
  have hquiet {c : Bool} (hc : connectSignal d n = some c) : buttonSignal d k n = none := by
    cases hb : buttonSignal d k n with
    | none => rfl
    | some pressed =>
      rw [connectSignal_of_button hb] at hc
      cases hc
  unfold padStep at h
  split at h
  · next hc =>
    split at h
    · next hs => exact .inl ⟨true, hc, hquiet hc, hs, (Option.some.inj h).symm⟩
    · cases h
  · next hc =>
    split at h
    · next hs => exact .inl ⟨false, hc, hquiet hc, hs, (Option.some.inj h).symm⟩
    · cases h
  · next pressed hc hb =>
    split at h
    · next hs => exact .inr (.inl ⟨pressed, hc, hb, hs, (Option.some.inj h).symm⟩)
    · cases h
  · next hc hb => exact .inr (.inr ⟨hc, hb, (Option.some.inj h).symm⟩)

theorem ConnectedFirst.snoc {n : Native} (h : ConnectedFirst d k log)
    (hn : ∀ b, buttonSignal d k n = some b → held (connectSignal d) log = true) :
    ConnectedFirst d k (log ++ [n]) := fun before c after b heq hc =>
  forall_split_snoc (P := fun before c => ∀ b, buttonSignal d k c = some b →
    held (connectSignal d) before = true) (fun before c after heq b hc =>
      h before c after b heq hc) hn
    before c after heq b hc

theorem padWords_snoc {state state' : Bool × Bool} {n : Native} (h : PadWords d k log state)
    (hs : padStep d k state n = some state') : PadWords d k (log ++ [n]) state' := by
  rcases padStep_cases hs with ⟨connected, hc, hb, rfl, rfl⟩ | ⟨pressed, hc, hb, rfl, rfl⟩ |
    ⟨hc, hb, rfl⟩
  · refine ⟨held_snoc hc, (held_quiet hb).trans h.pressed, h.alternates.snoc ?_,
      h.connectedFirst.snoc ?_⟩ <;> simp [hb]
  · refine ⟨(held_quiet hc).trans h.connected, held_snoc hb, h.alternates.snoc ?_,
      h.connectedFirst.snoc ?_⟩
    · intro b he
      rw [hb] at he
      cases he
      exact h.pressed
    · intro _ _
      exact h.connected
  · refine ⟨(held_quiet hc).trans h.connected,
      (held_quiet hb).trans h.pressed, h.alternates.snoc ?_,
      h.connectedFirst.snoc ?_⟩ <;> simp [hb]

theorem padWords_of_run {state : Bool × Bool} (h : padRun d k (false, false) log = some state) :
    PadWords d k log state := by
  induction log using List.reverseRecOn generalizing state with
  | nil =>
    obtain rfl : (false, false) = state := by simpa [padRun] using h
    refine ⟨rfl, rfl, alternates_nil, ?_⟩
    intro before n after b he
    simp at he
  | append_singleton log n ih =>
    rw [padRun_snoc] at h
    obtain ⟨mid, hmid, hs⟩ := Option.bind_eq_some_iff.1 h
    exact padWords_snoc (ih hmid) hs

/-- A call that presses no button. -/
def Native.lifts : Native → Bool
  | .gamepadButton _ _ pressed => !pressed
  | _ => true

/-- Calls that press nothing release a key at most once. -/
theorem buttonWord_of_run {state state' : Bool × Bool} (hm : ∀ n ∈ more, n.lifts = true)
    (h : padRun d k state more = some state') :
    more.filterMap (buttonSignal d k) = (if state.2 = state'.2 then [] else [false]) ∧
      (state.2 = false → state'.2 = false) := by
  induction more generalizing state with
  | nil =>
    obtain rfl : state = state' := by simpa [padRun] using h
    simp
  | cons n more ih =>
    rw [List.forall_mem_cons] at hm
    obtain ⟨mid, hmid, hrest⟩ := Option.bind_eq_some_iff.1 h
    obtain ⟨hword, hdown⟩ := ih hm.2 hrest
    rcases padStep_cases hmid with ⟨connected, hc, hb, rfl, rfl⟩ | ⟨pressed, hc, hb, rfl, rfl⟩ |
      ⟨hc, hb, rfl⟩
    · rw [List.filterMap_cons_none hb]
      exact ⟨hword, hdown⟩
    · obtain rfl : pressed = false := by
        cases n with
        | gamepadButton device key p =>
          have hp : p = pressed := by
            simp only [buttonSignal] at hb
            split at hb
            · exact Option.some.inj hb
            · cases hb
          have hl := hm.1
          simpa [Native.lifts, hp] using hl
        | _ => cases hb
      have hfinal := hdown rfl
      rw [List.filterMap_cons_some hb, hword, hfinal]
      simp
    · rw [List.filterMap_cons_none hb]
      exact ⟨hword, hdown⟩

end Nightcap.Input
