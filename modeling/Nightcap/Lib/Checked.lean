import Mathlib

/-! Computations over a memory in which a stray read, a number that wraps around and a loop without
end are faults, and the rules that exclude them. -/
namespace Checked

inductive Fault
  /-- A read outside its view. -/
  | read
  /-- An access outside the range it belongs to. -/
  | outside
  | wrap
  | endless
deriving DecidableEq

/-- A computation stops on its own terms or on a fault. -/
inductive Stop (ε : Type*)
  | refused (e : ε)
  | fault (f : Fault)
deriving DecidableEq

abbrev Comp (ε α : Type) := Except (Stop ε) α

variable {ε δ σ α β : Type}

def refuse (e : ε) : Comp ε α := .error (.refused e)

def fault (f : Fault) : Comp ε α := .error (.fault f)

/-- Refusals in other terms. -/
def rethrow (f : δ → ε) : Comp δ α → Comp ε α
  | .ok a => .ok a
  | .error (.refused e) => refuse (f e)
  | .error (.fault e) => fault e

/-- A part of the memory, from an address on. -/
structure View where
  base : Nat
  size : Nat
deriving DecidableEq

def byteAt (mem : List UInt8) (view : View) (i : Nat) : Comp ε Nat :=
  if i < view.size then
    match mem[view.base + i]? with
    | some b => .ok b.toNat
    | none => fault .read
  else fault .read

/-- The bytes of a part of a view. -/
def bytesAt (mem : List UInt8) (view : View) (i size : Nat) : Comp ε (List UInt8) :=
  if i + size ≤ view.size ∧ view.base + view.size ≤ mem.length then
    .ok ((mem.drop (view.base + i)).take size)
  else fault .read

/-- The range holds so many bytes from an address on. -/
def inside (range : View) (i size : Nat) : Comp ε Unit :=
  if range.base ≤ i ∧ i + size ≤ range.base + range.size then .ok () else fault .outside

/-- A computation that may come back without a value is refused then. -/
def require (x : Comp ε (Option α)) (e : ε) : Comp ε α := do
  match ← x with
  | some a => pure a
  | none => refuse e

/-- A refusal as no value. -/
def attempt : Comp δ α → Comp ε (Option α)
  | .ok a => .ok (some a)
  | .error (.refused _) => .ok none
  | .error (.fault e) => fault e

/-! Unsigned numbers of so many bits. -/

def add (bits a b : Nat) : Comp ε Nat := if a + b < 2 ^ bits then .ok (a + b) else fault .wrap

def sub (a b : Nat) : Comp ε Nat := if b ≤ a then .ok (a - b) else fault .wrap

def mul (bits a b : Nat) : Comp ε Nat := if a * b < 2 ^ bits then .ok (a * b) else fault .wrap

/-! Little-endian numbers in memory. -/

def u16At (mem : List UInt8) (view : View) (i : Nat) : Comp ε Nat := do
  let low ← byteAt mem view i
  let next ← add 64 i 1
  let high ← byteAt mem view next
  pure (low ||| high <<< 8)

def u32At (mem : List UInt8) (view : View) (i : Nat) : Comp ε Nat := do
  let low ← u16At mem view i
  let next ← add 64 i 2
  let high ← u16At mem view next
  pure (low ||| high <<< 16)

def u64At (mem : List UInt8) (view : View) (i : Nat) : Comp ε Nat := do
  let low ← u32At mem view i
  let next ← add 64 i 4
  let high ← u32At mem view next
  pure (low ||| high <<< 32)

/-- A loop for at most so many rounds. -/
def loop (body : σ → Comp ε (σ ⊕ β)) : Nat → σ → Comp ε β
  | 0, _ => fault .endless
  | rounds + 1, s => do
    match ← body s with
    | .inl s => loop body rounds s
    | .inr b => pure b

/-! Rules. -/

/-- No fault: a result that meets the one condition, or a refusal that meets the other. -/
def Meets (x : Comp ε α) (post : α → Prop) (err : ε → Prop) : Prop :=
  match x with
  | .ok a => post a
  | .error (.refused e) => err e
  | .error (.fault _) => False

variable {x : Comp ε α} {f : α → Comp ε β} {body : σ → Comp ε (σ ⊕ β)} {mid post : α → Prop}
  {after : β → Prop} {err err' : ε → Prop} {mem : List UInt8} {view range : View}
  {a b i j size bits rounds : Nat} {s : σ}

theorem bind_eq_ok {b : β} : (x >>= f) = .ok b ↔ ∃ a, x = .ok a ∧ f a = .ok b := by
  constructor
  · intro h
    match x, h with
    | .ok a, h => exact ⟨a, rfl, h⟩
  · rintro ⟨a, rfl, h⟩
    exact h

theorem meets_pure {a : α} (h : post a) : Meets (pure a : Comp ε α) post err := h

theorem meets_ok {a : α} (h : post a) : Meets (.ok a : Comp ε α) post err := h

theorem meets_refuse {e : ε} (h : err e) : Meets (refuse e : Comp ε α) post err := h

theorem meets_bind (hx : Meets x mid err) (hf : ∀ a, mid a → Meets (f a) after err) :
    Meets (x >>= f) after err := by
  match x, hx with
  | .ok a, hx => exact hf a hx
  | .error (.refused e), hx => exact hx

theorem Meets.mono (hx : Meets x mid err) (h : ∀ a, mid a → post a) (he : ∀ e, err e → err' e) :
    Meets x post err' := by
  match x, hx with
  | .ok a, hx => exact h a hx
  | .error (.refused e), hx => exact he e hx

/-- What a computation without faults comes to. -/
theorem Meets.of_ok (hx : Meets x (fun _ => True) err) (h : ∀ a, x = .ok a → post a) :
    Meets x post err := by
  match x, hx with
  | .ok a, _ => exact h a rfl
  | .error (.refused e), hx => exact hx

/-- What is known of a result, and how it came about. -/
theorem Meets.self (hx : Meets x mid err) : Meets x (fun a => mid a ∧ x = .ok a) err := by
  match x, hx with
  | .ok a, hx => exact ⟨hx, rfl⟩
  | .error (.refused e), hx => exact hx

theorem meets_ite {c : Prop} [Decidable c] {y : Comp ε α} (hx : c → Meets x post err)
    (hy : ¬ c → Meets y post err) : Meets (if c then x else y) post err := by
  by_cases hc : c
  · rw [if_pos hc]
    exact hx hc
  · rw [if_neg hc]
    exact hy hc

theorem meets_rethrow {x : Comp δ α} {g : δ → ε} {errd : δ → Prop} (hx : Meets x post errd)
    (h : ∀ e, errd e → err (g e)) : Meets (rethrow g x) post err := by
  match x, hx with
  | .ok a, hx => exact hx
  | .error (.refused e), hx => exact h e hx

theorem meets_byteAt (hview : view.base + view.size ≤ mem.length) (hi : i < view.size) :
    Meets (byteAt mem view i) (· < 256) err := by
  have hlt : view.base + i < mem.length := by omega
  rw [byteAt, if_pos hi, List.getElem?_eq_getElem hlt]
  exact UInt8.toNat_lt _

theorem meets_bytesAt (hview : view.base + view.size ≤ mem.length) (hi : i + size ≤ view.size) :
    Meets (bytesAt mem view i size) (·.length = size) err := by
  rw [bytesAt, if_pos ⟨hi, hview⟩]
  change ((mem.drop (view.base + i)).take size).length = size
  rw [List.length_take, List.length_drop]
  omega

theorem meets_bytesAt_eq (hview : view.base + view.size ≤ mem.length) (hi : i + size ≤ view.size) :
    Meets (bytesAt mem view i size) (· = (mem.drop (view.base + i)).take size) err := by
  rw [bytesAt, if_pos ⟨hi, hview⟩]
  exact meets_ok rfl

theorem meets_inside (hlow : range.base ≤ i) (hhigh : i + size ≤ range.base + range.size) :
    Meets (inside range i size) (fun _ => True) err := by
  rw [inside, if_pos ⟨hlow, hhigh⟩]
  exact meets_ok trivial

theorem meets_add (h : a + b < 2 ^ bits) : Meets (add bits a b) (· = a + b) err := by
  rw [add, if_pos h]
  exact meets_ok rfl

theorem meets_sub (h : b ≤ a) : Meets (sub a b) (· = a - b) err := by
  rw [sub, if_pos h]
  exact meets_ok rfl

theorem meets_mul (h : a * b < 2 ^ bits) : Meets (mul bits a b) (· = a * b) err := by
  rw [mul, if_pos h]
  exact meets_ok rfl

theorem meets_require {x : Comp ε (Option α)} {e : ε}
    (hx : Meets x (fun r => ∀ a, r = some a → post a) err) (he : err e) :
    Meets (require x e) post err := by
  refine meets_bind hx fun r hr => ?_
  cases r with
  | none => exact meets_refuse he
  | some a => exact meets_pure (hr a rfl)

theorem or_shift_lt {low high width : Nat} (hlow : low < 2 ^ width) (hhigh : high < 2 ^ width) :
    low ||| high <<< width < 2 ^ (width + width) := by
  refine Nat.or_lt_two_pow (hlow.trans_le (Nat.pow_le_pow_right (by decide) (by omega))) ?_
  rw [Nat.shiftLeft_eq, pow_add]
  exact Nat.mul_lt_mul_of_pos_right hhigh (by positivity)

theorem meets_u16At (hview : view.base + view.size ≤ mem.length) (hmem : mem.length < 2 ^ 64)
    (hi : i + 2 ≤ view.size) : Meets (u16At mem view i) (· < 2 ^ 16) err := by
  refine meets_bind (meets_byteAt hview (by omega)) fun low hlow => ?_
  refine meets_bind (meets_add (by omega)) fun next hnext => ?_
  refine meets_bind (meets_byteAt hview (by omega)) fun high hhigh => ?_
  have hlow' : low < 2 ^ 8 := hlow
  exact meets_pure (or_shift_lt hlow' hhigh)

theorem meets_u32At (hview : view.base + view.size ≤ mem.length) (hmem : mem.length < 2 ^ 64)
    (hi : i + 4 ≤ view.size) : Meets (u32At mem view i) (· < 2 ^ 32) err := by
  refine meets_bind (meets_u16At hview hmem (by omega)) fun low hlow => ?_
  refine meets_bind (meets_add (by omega)) fun next hnext => ?_
  refine meets_bind (meets_u16At hview hmem (by omega)) fun high hhigh => ?_
  exact meets_pure (or_shift_lt hlow hhigh)

theorem meets_u64At (hview : view.base + view.size ≤ mem.length) (hmem : mem.length < 2 ^ 64)
    (hi : i + 8 ≤ view.size) : Meets (u64At mem view i) (· < 2 ^ 64) err := by
  refine meets_bind (meets_u32At hview hmem (by omega)) fun low hlow => ?_
  refine meets_bind (meets_add (by omega)) fun next hnext => ?_
  refine meets_bind (meets_u32At hview hmem (by omega)) fun high hhigh => ?_
  exact meets_pure (or_shift_lt hlow hhigh)

/-- The bytes that a number is read from. -/
theorem byteAt_eq (hview : view.base + view.size ≤ mem.length) (hi : i < view.size) :
    (byteAt mem view i : Comp ε Nat) = .ok (mem.getD (view.base + i) 0).toNat := by
  have hlt : view.base + i < mem.length := by omega
  rw [byteAt, if_pos hi, List.getElem?_eq_getElem hlt, List.getD_eq_getElem _ _ hlt]

theorem u16At_eq (hview : view.base + view.size ≤ mem.length) (hmem : mem.length < 2 ^ 64)
    (hi : i + 2 ≤ view.size) :
    (u16At mem view i : Comp ε Nat) =
      .ok ((mem.getD (view.base + i) 0).toNat |||
        (mem.getD (view.base + (i + 1)) 0).toNat <<< 8) := by
  have hadd : (add 64 i 1 : Comp ε Nat) = .ok (i + 1) := if_pos (by omega)
  simp only [u16At, byteAt_eq hview (show i < view.size by omega), hadd,
    byteAt_eq hview (show i + 1 < view.size by omega),
    bind, Except.bind]
  rfl

theorem u32At_eq (hview : view.base + view.size ≤ mem.length) (hmem : mem.length < 2 ^ 64)
    (hi : i + 4 ≤ view.size) :
    (u32At mem view i : Comp ε Nat) =
      .ok (((mem.getD (view.base + i) 0).toNat |||
        (mem.getD (view.base + (i + 1)) 0).toNat <<< 8) |||
        ((mem.getD (view.base + (i + 2)) 0).toNat |||
          (mem.getD (view.base + (i + 2 + 1)) 0).toNat <<< 8) <<< 16) := by
  have hadd : (add 64 i 2 : Comp ε Nat) = .ok (i + 2) := if_pos (by omega)
  simp only [u32At, u16At_eq hview hmem (show i + 2 ≤ view.size by omega), hadd,
    u16At_eq hview hmem (show i + 2 + 2 ≤ view.size by omega), bind, Except.bind]
  rfl

theorem take_four (h : i + 4 ≤ mem.length) :
    (mem.drop i).take 4 = [mem.getD i 0, mem.getD (i + 1) 0, mem.getD (i + 2) 0,
      mem.getD (i + 3) 0] := by
  have hget : ∀ k, mem.getD (i + k) 0 = (mem.drop i).getD k 0 := by
    intro k
    rw [List.getD_eq_getElem?_getD, List.getD_eq_getElem?_getD, List.getElem?_drop]
  have hfirst : mem.getD i 0 = (mem.drop i).getD 0 0 := hget 0
  have hlength : 4 ≤ (mem.drop i).length := by
    rw [List.length_drop]
    omega
  rw [hfirst, hget, hget, hget]
  match mem.drop i, hlength with
  | a :: b :: c :: d :: rest, _ => rfl

theorem u32At_eq_zero (hview : view.base + view.size ≤ mem.length) (hmem : mem.length < 2 ^ 64)
    (hi : i + 4 ≤ view.size) :
    (u32At mem view i : Comp ε Nat) = .ok 0 ↔ (mem.drop (view.base + i)).take 4 = [0, 0, 0, 0] := by
  have hzero : ∀ b : UInt8, b.toNat = 0 ↔ b = 0 := fun b => UInt8.toNat_inj (b := 0)
  rw [u32At_eq hview hmem hi, take_four (by omega), Except.ok.injEq]
  simp only [Nat.or_eq_zero_iff, Nat.shiftLeft_eq_zero_iff, hzero, List.cons.injEq,
    and_true, ← Nat.add_assoc]
  constructor
  · rintro ⟨⟨hfirst, hsecond⟩, hthird, hfourth⟩
    exact ⟨hfirst, hsecond, hthird, hfourth⟩
  · rintro ⟨hfirst, hsecond, hthird, hfourth⟩
    exact ⟨⟨hfirst, hsecond⟩, hthird, hfourth⟩

/-- A loop whose rounds keep an invariant and lessen a measure ends in time. -/
theorem meets_loop (inv : σ → Prop) (measure : σ → Nat)
    (hbody : ∀ s, inv s → Meets (body s)
      (Sum.elim (fun t => inv t ∧ measure t < measure s) after) err)
    (hs : inv s) (hrounds : measure s < rounds) : Meets (loop body rounds s) after err := by
  induction rounds generalizing s with
  | zero => cases hrounds
  | succ rounds ih =>
    refine meets_bind (hbody s hs) fun r hr => ?_
    cases r with
    | inl t => exact ih hr.1 (by have hless := hr.2; omega)
    | inr b => exact meets_pure hr

/-- A loop over a list keeps an invariant. -/
theorem meets_foldlM {ι : Type} {step : σ → ι → Comp ε σ} (inv : σ → Prop) {xs : List ι}
    (hstep : ∀ s, ∀ x ∈ xs, inv s → Meets (step s x) inv err) (hs : inv s) :
    Meets (xs.foldlM step s) inv err := by
  induction xs generalizing s with
  | nil => exact meets_pure hs
  | cons x xs ih =>
    rw [List.foldlM_cons]
    refine meets_bind (hstep s x (List.mem_cons_self ..) hs) fun t ht => ?_
    exact ih (fun s y hy => hstep s y (List.mem_cons_of_mem _ hy)) ht

/-- What never refuses has a result. -/
theorem Meets.ok (h : Meets x post fun _ => False) : ∃ a, x = .ok a ∧ post a := by
  match x, h with
  | .ok a, h => exact ⟨a, rfl, h⟩

/-- Where refusals are results too, there is a result. -/
def result : Comp α α → Except Fault α
  | .ok a => .ok a
  | .error (.refused a) => .ok a
  | .error (.fault f) => .error f

theorem Meets.result {x : Comp α α} (h : Meets x post post) : ∃ a, result x = .ok a ∧ post a := by
  match x, h with
  | .ok a, h => exact ⟨a, rfl, h⟩
  | .error (.refused a), h => exact ⟨a, rfl, h⟩

end Checked
