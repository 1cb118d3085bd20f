import Nightcap.Session.System
import Mathlib.Computability.Language

/-! The order in which native callbacks can occur. -/
namespace Nightcap.Session

open Coordinator Transition Computability

/-- A callback without its arguments. -/
inductive Kind
  | setGameForeground
  | startGame
  | updateSurface
  | pauseGame
  | resumeGame
  | leaveGame
  | shutdownRuntime
deriving DecidableEq

def Callback.kind : Callback → Kind
  | .setGameForeground => .setGameForeground
  | .startGame .. => .startGame
  | .updateSurface _ => .updateSurface
  | .pauseGame => .pauseGame
  | .resumeGame _ => .resumeGame
  | .leaveGame => .leaveGame
  | .shutdownRuntime => .shutdownRuntime

def Event.kind? : Event → Option Kind
  | .called callback => some callback.kind
  | _ => none

/-- The native callbacks invoked so far, oldest first. -/
def System.callbacks (sys : System) : List Kind := sys.history.filterMap Event.kind?

/-! The lifecycle as a regular language. -/

def letter (k : Kind) : Language Kind := {[k]}

def foregrounds : Language Kind := letter .setGameForeground * (letter .setGameForeground)∗

def started : Language Kind :=
  foregrounds * letter .startGame *
    (letter .updateSurface + letter .pauseGame * foregrounds * letter .resumeGame)∗

/-- `set_game_foreground+ start_game (update_surface | pause_game set_game_foreground+ resume_game)*
(pause_game set_game_foreground*)? leave_game?` -/
def lifecycle : Language Kind :=
  started * (1 + letter .pauseGame * (letter .setGameForeground)∗) * (1 + letter .leaveGame)

def prefixes (l : Language Kind) : Language Kind := {p | ∃ w ∈ l, p <+: w}

/-- The lifecycle broken off anywhere, by a shutdown or by nothing yet. -/
def cutLifecycle : Language Kind := prefixes lifecycle * (1 + letter .shutdownRuntime)

/-- How far a session has come. -/
inductive Phase
  | fresh
  | foregrounded
  | running
  | paused
  | repaused
  | left
deriving DecidableEq

def Phase.next : Phase → Kind → Option Phase
  | .fresh, .setGameForeground => some .foregrounded
  | .foregrounded, .setGameForeground => some .foregrounded
  | .foregrounded, .startGame => some .running
  | .running, .updateSurface => some .running
  | .running, .pauseGame => some .paused
  | .running, .leaveGame => some .left
  | .paused, .setGameForeground => some .repaused
  | .paused, .leaveGame => some .left
  | .repaused, .setGameForeground => some .repaused
  | .repaused, .resumeGame => some .running
  | .repaused, .leaveGame => some .left
  | _, _ => none

variable {ph ph' : Phase} {w : List Kind} {k : Kind} {l : Language Kind} {s : Coordinator}
  {sys sys' : System}

/-- The words that lead to a phase. -/
inductive Spells : Phase → List Kind → Prop
  | nil : Spells .fresh []
  | snoc {ph ph' : Phase} {w : List Kind} {k : Kind} (h : Spells ph w)
      (hn : ph.next k = some ph') : Spells ph' (w ++ [k])

def Phase.language : Phase → Language Kind
  | .fresh => 1
  | .foregrounded => foregrounds
  | .running => started
  | .paused => started * letter .pauseGame
  | .repaused => started * letter .pauseGame * foregrounds
  | .left => lifecycle

theorem snoc_mem_mul (h : w ∈ l) : w ++ [k] ∈ l * letter k :=
  Language.append_mem_mul h rfl

theorem le_mul_kstar (l m : Language Kind) : l ≤ l * m∗ :=
  calc l = l * 1 := (mul_one l).symm
    _ ≤ l * m∗ := by
      gcongr
      exact one_le_kstar

theorem letter_le_foregrounds : letter .setGameForeground ≤ foregrounds := le_mul_kstar _ _

theorem foregrounds_le_kstar : foregrounds ≤ (letter .setGameForeground)∗ := mul_kstar_le_kstar

theorem foregrounds_mul_le : foregrounds * letter .setGameForeground ≤ foregrounds := by
  rw [foregrounds, mul_assoc]
  grw [kstar_mul_le_kstar]

/-- One more turn of the running loop. -/
theorem started_mul_le
    (h : l ≤ letter .updateSurface + letter .pauseGame * foregrounds * letter .resumeGame) :
    started * l ≤ started := by
  rw [started, mul_assoc]
  grw [h, kstar_mul_le_kstar]

theorem started_le_lifecycle : started ≤ lifecycle :=
  calc started = started * 1 * 1 := by simp
    _ ≤ lifecycle := by
      unfold lifecycle
      gcongr <;> exact le_self_add

theorem paused_le_lifecycle : started * letter .pauseGame * (letter .setGameForeground)∗ ≤
    lifecycle :=
  calc started * letter .pauseGame * (letter .setGameForeground)∗
      = started * (letter .pauseGame * (letter .setGameForeground)∗) * 1 := by
        rw [mul_one, mul_assoc]
    _ ≤ lifecycle := by
      unfold lifecycle
      gcongr
      · exact le_add_self
      · exact le_self_add

theorem left_le_lifecycle (h : l ≤ 1 + letter .pauseGame * (letter .setGameForeground)∗) :
    started * l * letter .leaveGame ≤ lifecycle := by
  unfold lifecycle
  gcongr
  exact le_add_self

theorem language_mul_le (hn : ph.next k = some ph') : ph.language * letter k ≤ ph'.language := by
  cases ph <;> cases k <;> cases hn <;> simp only [Phase.language]
  -- One goal for each arrow of `Phase.next`, in its order.
  · grw [one_mul, letter_le_foregrounds]
  · exact foregrounds_mul_le
  · exact le_mul_kstar _ _
  · exact started_mul_le le_self_add
  · exact le_rfl
  · simpa using left_le_lifecycle (l := 1) le_self_add
  · grw [letter_le_foregrounds]
  · exact left_le_lifecycle ((le_mul_kstar _ _).trans le_add_self)
  · rw [mul_assoc]
    grw [foregrounds_mul_le]
  · rw [mul_assoc, mul_assoc]
    refine started_mul_le ?_
    rw [← mul_assoc]
    exact le_add_self
  · rw [mul_assoc started]
    refine left_le_lifecycle ?_
    grw [foregrounds_le_kstar]
    exact le_add_self

theorem Spells.mem_language (h : Spells ph w) : w ∈ ph.language := by
  induction h with
  | nil => exact Language.nil_mem_one
  | snoc _ hn ih => exact language_mul_le hn (snoc_mem_mul ih)

theorem mem_prefixes (h : w ∈ lifecycle) : w ∈ prefixes lifecycle := ⟨w, h, List.prefix_rfl⟩

theorem startGame_mem_lifecycle (h : w ∈ foregrounds) : w ++ [.startGame] ∈ lifecycle := by
  have hs : foregrounds * letter .startGame ≤ started := le_mul_kstar _ _
  exact started_le_lifecycle (hs (snoc_mem_mul h))

theorem Spells.mem_prefixes (h : Spells ph w) : w ∈ prefixes lifecycle := by
  have hm := h.mem_language
  cases ph with
  | fresh =>
    obtain rfl : w = [] := hm
    have hf : [.setGameForeground] ∈ foregrounds := letter_le_foregrounds rfl
    exact ⟨_, startGame_mem_lifecycle hf, List.nil_prefix⟩
  | foregrounded => exact ⟨_, startGame_mem_lifecycle hm, List.prefix_append w _⟩
  | running => exact Session.mem_prefixes (started_le_lifecycle hm)
  | paused => exact Session.mem_prefixes (paused_le_lifecycle (le_mul_kstar _ _ hm))
  | repaused =>
    refine Session.mem_prefixes (paused_le_lifecycle ?_)
    exact mul_le_mul_right foregrounds_le_kstar _ hm
  | left => exact Session.mem_prefixes hm

/-- How often a phase has seen a callback of a kind that occurs once. -/
def Phase.uses : Phase → Kind → Nat
  | .fresh, _ | .foregrounded, _ => 0
  | .running, .startGame | .paused, .startGame | .repaused, .startGame => 1
  | .left, .startGame | .left, .leaveGame => 1
  | _, _ => 0

theorem Spells.count_eq (h : Spells ph w) (hk : k = .startGame ∨ k = .leaveGame ∨
    k = .shutdownRuntime) : w.count k = ph.uses k := by
  induction h with
  | nil => simp [Phase.uses]
  | @snoc ph ph' w k' _ hn ih =>
    rw [List.count_append, ih]
    rcases hk with rfl | rfl | rfl <;> cases ph <;> cases k' <;> cases hn <;> decide

end Nightcap.Session
