import Nightcap.Lib.Utf8

/-! Walking UTF-8 text with utf8proc: validity, grapheme boundaries and UTF-16 positions. -/
namespace Nightcap.Text

open Utf8

/-- What the editor uses of utf8proc. `iterate` is the code point in front and its length in bytes,
`none` when nothing could be read; a grapheme break may depend on the state it keeps. -/
structure Utf8proc where
  iterate : Bytes → Option (Nat × Nat)
  graphemeBreak : Nat → Nat → Int → Bool × Int

/-- `utf8proc_iterate` reads a well-formed character and nothing else. -/
structure Utf8proc.Faithful (u : Utf8proc) : Prop where
  reads : ∀ c rest,
    u.iterate (String.utf8EncodeChar c ++ rest) = some (c.toNat, (String.utf8EncodeChar c).length)
  only : ∀ bs r, u.iterate bs = some r → ∃ c rest, bs = String.utf8EncodeChar c ++ rest

structure Utf8Layout where
  valid : Bool
  utf16Units : Nat
  graphemeBoundaries : List Nat

/-- The UTF-16 units of a code point. -/
def unitsOf (codepoint : Nat) : Nat := if codepoint > 0xffff then 2 else 1

section

variable (u : Utf8proc)

/-- The loop of `Layout`; `rest` is the text from `offset` on. -/
def layoutLoop (offset : Nat) (previous : Option Nat) (breakState : Int) (units : Nat)
    (boundaries : List Nat) (rest : Bytes) : Utf8Layout :=
  if rest = [] then
    { valid := true
      utf16Units := units
      graphemeBoundaries :=
        if boundaries.getLast? = some offset then boundaries else boundaries ++ [offset] }
  else
    match u.iterate rest with
    | none => ⟨false, 0, boundaries⟩
    | some (codepoint, count) =>
      if count = 0 then ⟨false, 0, boundaries⟩
      else
        let r := match previous with
          | some before => u.graphemeBreak before codepoint breakState
          | none => (false, breakState)
        let boundaries := if r.1 then boundaries ++ [offset] else boundaries
        let units := units + unitsOf codepoint
        if units > 2147483647 then ⟨false, 0, boundaries⟩
        else layoutLoop (offset + count) (some codepoint) r.2 units boundaries (rest.drop count)
termination_by rest.length
decreasing_by
  have hpos : 0 < rest.length := List.length_pos_iff.2 ‹_›
  rw [List.length_drop]
  omega

def layout (text : Bytes) : Utf8Layout := layoutLoop u 0 none 0 0 [0] text

def utf16Loop (units : Nat) (rest : Bytes) : Nat :=
  if rest = [] then units
  else
    match u.iterate rest with
    | none => 0
    | some (codepoint, count) =>
      if count = 0 then 0 else utf16Loop (units + unitsOf codepoint) (rest.drop count)
termination_by rest.length
decreasing_by
  have hpos : 0 < rest.length := List.length_pos_iff.2 ‹_›
  rw [List.length_drop]
  omega

def utf16Cursor (text : Bytes) (byteOffset : Nat) : Nat := utf16Loop u 0 (text.take byteOffset)

/-- The loop of `Utf8CharacterByteOffset`; `size` is the size of the whole text. -/
def characterLoop (size : Nat) : Nat → Nat → Bytes → Nat
  | 0, offset, _ => offset
  | index + 1, offset, rest =>
    if rest = [] then offset
    else
      match u.iterate rest with
      | none => size
      | some (_, count) =>
        if count = 0 then size else characterLoop size index (offset + count) (rest.drop count)

def utf8CharacterByteOffset (text : Bytes) (characterIndex : Int) : Nat :=
  if characterIndex < 0 then text.length
  else characterLoop u text.length characterIndex.toNat 0 text

end

/-- The UTF-16 length of a list of characters. -/
def utf16Length (cs : List Char) : Nat := (cs.map fun c => unitsOf c.toNat).sum

variable {u : Utf8proc} {text rest bs : Bytes} {c : Char} {cs ds : List Char} {k offset units : Nat}
  {previous : Option Nat} {breakState : Int} {boundaries : List Nat}

@[simp] theorem utf16Length_nil : utf16Length [] = 0 := rfl

@[simp] theorem utf16Length_cons : utf16Length (c :: cs) = unitsOf c.toNat + utf16Length cs := rfl

theorem encodeChar_length_pos (c : Char) : 0 < (String.utf8EncodeChar c).length := by
  rw [List.length_pos_iff]
  intro h
  have hsize := String.length_utf8EncodeChar c
  rw [h] at hsize
  exact absurd hsize.symm (Nat.ne_of_gt c.utf8Size_pos)

theorem encodeChar_ne_nil : String.utf8EncodeChar c ++ rest ≠ [] := by
  have hpos := encodeChar_length_pos c
  intro h
  rw [(List.append_eq_nil_iff.1 h).1] at hpos
  exact absurd hpos (by simp)

/-- No character has more UTF-16 units than bytes. -/
theorem unitsOf_le (c : Char) : unitsOf c.toNat ≤ (String.utf8EncodeChar c).length := by
  have hval : c.toNat = c.val.toNat := rfl
  unfold unitsOf String.utf8EncodeChar
  dsimp only
  split_ifs <;> simp
  omega

theorem utf16Length_le (cs : List Char) : utf16Length cs ≤ (encode cs).length := by
  induction cs with
  | nil => simp
  | cons c cs ih =>
    have hc := unitsOf_le c
    simp only [utf16Length_cons, encode_cons, List.length_append]
    omega

theorem Utf8proc.Faithful.iterate_inv (hu : u.Faithful) {r : Nat × Nat}
    (h : u.iterate bs = some r) :
    ∃ c rest, bs = String.utf8EncodeChar c ++ rest ∧
      r = (c.toNat, (String.utf8EncodeChar c).length) := by
  obtain ⟨c, rest, rfl⟩ := hu.only bs r h
  rw [hu.reads] at h
  exact ⟨c, rest, rfl, (Option.some.inj h).symm⟩

/-- One step over a character. -/
theorem layoutLoop_char (hu : u.Faithful) (offset : Nat) (previous : Option Nat) (breakState : Int)
    (units : Nat) (boundaries : List Nat) (c : Char) (rest : Bytes) :
    ∃ breaks state, layoutLoop u offset previous breakState units boundaries
        (String.utf8EncodeChar c ++ rest) =
      (if units + unitsOf c.toNat > 2147483647 then
        ⟨false, 0, if breaks then boundaries ++ [offset] else boundaries⟩
      else layoutLoop u (offset + (String.utf8EncodeChar c).length) (some c.toNat) state
        (units + unitsOf c.toNat) (if breaks then boundaries ++ [offset] else boundaries) rest) ∧
      (breaks = true → previous.isSome = true) := by
  have hpos := Nat.ne_of_gt (encodeChar_length_pos c)
  rw [layoutLoop, if_neg encodeChar_ne_nil, hu.reads]
  dsimp only
  rw [if_neg hpos, List.drop_left]
  cases previous with
  | none => exact ⟨_, _, rfl, nofun⟩
  | some before => exact ⟨_, _, rfl, fun _ => rfl⟩

theorem layoutLoop_wellFormed (hu : u.Faithful)
    (h : (layoutLoop u offset previous breakState units boundaries rest).valid = true) :
    WellFormed rest := by
  induction hn : rest.length using Nat.strong_induction_on generalizing offset previous breakState
    units boundaries rest with
  | _ n ih =>
    by_cases hr : rest = []
    · exact hr ▸ wellFormed_nil
    · cases hi : u.iterate rest with
      | none => simp [layoutLoop, hr, hi] at h
      | some r =>
        obtain ⟨c, tail, rfl, rfl⟩ := hu.iterate_inv hi
        obtain ⟨breaks, state, heq, _⟩ :=
          layoutLoop_char hu offset previous breakState units boundaries c tail
        rw [heq] at h
        split at h
        · cases h
        · have hlt : tail.length < n := by
            have hpos := encodeChar_length_pos c
            rw [← hn, List.length_append]
            omega
          exact (wellFormed_encodeChar c).append (ih tail.length hlt h rfl)

theorem layoutLoop_encode (hu : u.Faithful) (h : units + utf16Length cs ≤ 2147483647) :
    (layoutLoop u offset previous breakState units boundaries (encode cs)).valid = true := by
  induction cs generalizing offset previous breakState units boundaries with
  | nil => simp [layoutLoop]
  | cons c cs ih =>
    rw [utf16Length_cons] at h
    obtain ⟨breaks, state, heq, _⟩ :=
      layoutLoop_char hu offset previous breakState units boundaries c (encode cs)
    rw [encode_cons, heq, if_neg (by omega)]
    exact ih (by omega)

theorem wellFormed_of_valid (hu : u.Faithful) (h : (layout u text).valid = true) :
    WellFormed text :=
  layoutLoop_wellFormed hu h

theorem valid_of_wellFormed (hu : u.Faithful) (h : WellFormed text)
    (hsize : text.length ≤ 2147483647) : (layout u text).valid = true := by
  obtain ⟨cs, rfl⟩ := h
  have hle := utf16Length_le cs
  exact layoutLoop_encode hu (by omega)

/-- What the loop knows of the boundaries it has found before `offset`. -/
structure Marks (text : Bytes) (offset : Nat) (previous : Option Nat)
    (boundaries : List Nat) : Prop where
  boundary : ∀ b ∈ boundaries, Boundary text b
  sorted : boundaries.Pairwise (· < ·)
  below : previous.isSome = true → ∀ b ∈ boundaries, b < offset
  first : previous = none → boundaries = [0] ∧ offset = 0

theorem marks_start (text : Bytes) : Marks text 0 none [0] where
  boundary := by simpa using boundary_zero text
  sorted := by simp
  below := nofun
  first _ := ⟨rfl, rfl⟩

theorem pairwise_snoc (h : boundaries.Pairwise (· < ·)) (hb : ∀ b ∈ boundaries, b < k) :
    (boundaries ++ [k]).Pairwise (· < ·) := by
  rw [List.pairwise_append]
  exact ⟨h, by simp, by simpa using hb⟩

theorem marks_advance {breaks : Bool} {count : Nat} (h : Marks text offset previous boundaries)
    (hb : Boundary text offset) (hbreaks : breaks = true → previous.isSome = true)
    (hc : 0 < count) :
    Marks text (offset + count) (some k)
      (if breaks then boundaries ++ [offset] else boundaries) where
  boundary b hm := by
    cases breaks with
    | false => exact h.boundary b hm
    | true =>
      rcases List.mem_append.1 hm with hm | hm
      · exact h.boundary b hm
      · exact List.mem_singleton.1 hm ▸ hb
  sorted := by
    cases breaks with
    | false => exact h.sorted
    | true => exact pairwise_snoc h.sorted (h.below (hbreaks rfl))
  below _ b hm := by
    have hold : ∀ b ∈ boundaries, b < offset + count := by
      intro b hb'
      cases previous with
      | none =>
        obtain ⟨rfl, rfl⟩ := h.first rfl
        simpa [List.mem_singleton.1 hb'] using hc
      | some before => exact (h.below rfl b hb').trans (by omega)
    cases breaks with
    | false => exact hold b hm
    | true =>
      rcases List.mem_append.1 hm with hm | hm
      · exact hold b hm
      · rw [List.mem_singleton.1 hm]
        omega
  first := nofun

/-- The boundaries a layout reports lie between code points, in order. -/
theorem layoutLoop_marks (hu : u.Faithful) (ds : List Char) (htext : text = encode ds ++ rest)
    (hoffset : offset = (encode ds).length) (h : Marks text offset previous boundaries) :
    let found := (layoutLoop u offset previous breakState units boundaries rest).graphemeBoundaries
    (∀ b ∈ found, Boundary text b) ∧ found.Pairwise (· < ·) := by
  induction hn :
    rest.length using Nat.strong_induction_on generalizing ds offset previous breakState
    units boundaries rest with
  | _ n ih =>
    have hb : Boundary text offset := by
      subst htext hoffset
      exact ⟨by simp, by simpa using wellFormed_encode ds⟩
    by_cases hr : rest = []
    · rw [layoutLoop, if_pos hr]
      dsimp only
      split
      · exact ⟨h.boundary, h.sorted⟩
      · next hlast =>
        have hbelow : ∀ b ∈ boundaries, b < offset := by
          cases hp : previous with
          | none =>
            obtain ⟨rfl, rfl⟩ := h.first hp
            exact absurd rfl hlast
          | some before => exact h.below (by rw [hp]; rfl)
        refine ⟨fun b hm => ?_, pairwise_snoc h.sorted hbelow⟩
        rcases List.mem_append.1 hm with hm | hm
        · exact h.boundary b hm
        · exact List.mem_singleton.1 hm ▸ hb
    · cases hi : u.iterate rest with
      | none => simpa [layoutLoop, hr, hi] using ⟨h.boundary, h.sorted⟩
      | some r =>
        obtain ⟨c, tail, rfl, rfl⟩ := hu.iterate_inv hi
        have hpos := encodeChar_length_pos c
        obtain ⟨breaks, state, heq, hbreaks⟩ :=
          layoutLoop_char hu offset previous breakState units boundaries c tail
        have hm := marks_advance (k := c.toNat) h hb hbreaks hpos
        rw [heq]
        split
        · exact ⟨hm.boundary, hm.sorted⟩
        · refine ih tail.length ?_ (ds ++ [c]) ?_ ?_ hm rfl
          · rw [← hn, List.length_append]
            omega
          · rw [htext, encode_append, List.append_assoc]
            simp
          · rw [hoffset, encode_append]
            simp

theorem layout_boundary (hu : u.Faithful) (hb : k ∈ (layout u text).graphemeBoundaries) :
    Boundary text k :=
  (layoutLoop_marks hu [] rfl rfl (marks_start text)).1 k hb

theorem layout_sorted (hu : u.Faithful) : (layout u text).graphemeBoundaries.Pairwise (· < ·) :=
  (layoutLoop_marks hu [] rfl rfl (marks_start text)).2

/-- The boundaries of a valid text include its end. -/
theorem layoutLoop_last (hu : u.Faithful)
    (h : (layoutLoop u offset previous breakState units boundaries rest).valid = true) :
    offset + rest.length ∈
      (layoutLoop u offset previous breakState units boundaries rest).graphemeBoundaries := by
  induction hn : rest.length using Nat.strong_induction_on generalizing offset previous breakState
    units boundaries rest with
  | _ n ih =>
    by_cases hr : rest = []
    · subst hr hn
      rw [layoutLoop, if_pos rfl]
      dsimp only
      split
      · next hlast => exact List.mem_of_getLast? hlast
      · simp
    · cases hi : u.iterate rest with
      | none => simp [layoutLoop, hr, hi] at h
      | some r =>
        obtain ⟨c, tail, rfl, rfl⟩ := hu.iterate_inv hi
        have hpos := encodeChar_length_pos c
        obtain ⟨breaks, state, heq, _⟩ :=
          layoutLoop_char hu offset previous breakState units boundaries c tail
        rw [heq] at h ⊢
        rw [List.length_append] at hn
        split at h
        · cases h
        · next hunits =>
          rw [if_neg hunits]
          have hmem := ih tail.length (by omega) h rfl
          rwa [Nat.add_assoc, hn] at hmem

theorem layout_last (hu : u.Faithful) (h : (layout u text).valid = true) :
    text.length ∈ (layout u text).graphemeBoundaries := by
  simpa [layout] using layoutLoop_last hu h

/-! Positions. -/

theorem utf16Loop_encode (hu : u.Faithful) :
    utf16Loop u units (encode cs) = units + utf16Length cs := by
  induction cs generalizing units with
  | nil => simp [utf16Loop]
  | cons c cs ih =>
    have hpos := Nat.ne_of_gt (encodeChar_length_pos c)
    rw [encode_cons, utf16Loop, if_neg encodeChar_ne_nil, hu.reads]
    dsimp only
    rw [if_neg hpos, List.drop_left, ih, utf16Length_cons]
    omega

/-- The number is the UTF-16 length of the bytes. -/
def HasUtf16Length (bs : Bytes) (n : Nat) : Prop := ∃ cs, encode cs = bs ∧ n = utf16Length cs

theorem hasUtf16Length_nil : HasUtf16Length [] 0 := ⟨[], rfl, rfl⟩

theorem utf16Cursor_spec (hu : u.Faithful) (hk : Boundary text k) :
    HasUtf16Length (text.take k) (utf16Cursor u text k) := by
  obtain ⟨cs, hcs⟩ := hk.2
  refine ⟨cs, hcs, ?_⟩
  rw [utf16Cursor, ← hcs, utf16Loop_encode hu, Nat.zero_add]

theorem characterLoop_boundary {size index : Nat} (hu : u.Faithful) (ds : List Char)
    (htext : text = encode ds ++ encode cs)
    (hoffset : offset = (encode ds).length) (hsize : size = text.length) :
    Boundary text (characterLoop u size index offset (encode cs)) := by
  have hb : Boundary text offset := by
    subst htext hoffset
    exact ⟨by simp, by simpa using wellFormed_encode ds⟩
  induction index generalizing ds cs offset with
  | zero => exact hb
  | succ index ih =>
    cases cs with
    | nil => simpa [characterLoop] using hb
    | cons c cs =>
      have hpos := Nat.ne_of_gt (encodeChar_length_pos c)
      rw [encode_cons, characterLoop, if_neg encodeChar_ne_nil, hu.reads]
      dsimp only
      rw [if_neg hpos, List.drop_left]
      have hnext : offset + (String.utf8EncodeChar c).length = (encode (ds ++ [c])).length := by
        rw [hoffset, encode_append]
        simp
      have htext' : text = encode (ds ++ [c]) ++ encode cs := by
        rw [htext]
        simp
      refine ih (ds ++ [c]) htext' hnext ?_
      rw [hnext, htext']
      exact ⟨by simp, by rw [List.take_left]; exact wellFormed_encode _⟩

theorem utf8CharacterByteOffset_boundary (hu : u.Faithful) (h : WellFormed text) (index : Int) :
    Boundary text (utf8CharacterByteOffset u text index) := by
  unfold utf8CharacterByteOffset
  split
  · exact h.take_length
  · obtain ⟨cs, rfl⟩ := h
    exact characterLoop_boundary hu [] rfl rfl rfl

end Nightcap.Text
