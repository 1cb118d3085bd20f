import Nightcap.Lib.Threads

/-! `WindowTextInputOwner`: threads of the guest ask for text input, the main thread starts and
stops it. -/
namespace Nightcap.Window.TextInput

open Transition Threads

structure TextInputArea where
  x : Int := 0
  y : Int := 0
  width : Int := 0
  height : Int := 0
  cursor : Int := 0
deriving DecidableEq

def TextInputArea.valid (area : TextInputArea) : Bool := area.width > 0 && area.height > 0

def kSafeDefaultArea : TextInputArea := ⟨0, 0, 1, 1, 0⟩

structure TextInputOptions where
  robloxTextInputType : Int := 0
  multiline : Bool := false
deriving DecidableEq

inductive CommandType
  | kShow
  | kHide
deriving DecidableEq

structure Command where
  type : CommandType
  generation : Nat
  area : TextInputArea := {}
  options : TextInputOptions := {}
deriving DecidableEq

/-- What the owner asks of its backend. A start tells whether it succeeded. -/
inductive BackendCall
  | setArea (area : TextInputArea)
  | clearArea
  | start (options : TextInputOptions) (success : Bool)
  | stop
  | flushTextEvents
deriving DecidableEq

structure Answers where
  setArea : Bool := true
  clearArea : Bool := true
  start : Bool := true
  stop : Bool := true

structure Shared (τ : Type*) where
  enabled : Bool := false
  mutex : Option τ := none
  /-- `pending_command_`, where `has_pending_command_`. -/
  pendingCommand : Option Command := none
  acceptedGeneration : Nat := 0
  /-- From here on owned by the main thread. -/
  active : Bool := false
  activeGeneration : Nat := 0
  activeArea : TextInputArea := {}
  focused : Bool := true
  /-- From here on not in the code: what the backend was asked for. -/
  calls : List BackendCall := []
  /-- The generations that became active since it was last enabled. -/
  generations : List Nat := []
  /-- The last request accepted since it was last disabled. -/
  lastAccepted : Option Command := none
  focusHeld : Bool := false
  /-- Whether the backend failed in the `Pump` that took the last command. -/
  failed : Bool := false

/-- Where a thread is: out, with what its last call returned, or before a section of `mutex_` or one
that only touches what the main thread owns. -/
inductive Place
  | returned (result : Bool)
  | lockEnabled (enabled : Bool)
  | stop
  | lockPump
  | pump (command : Command)
  | lockClear (shutdown : Bool)
  | lockRequest (command : Command)
  /-- Still in the section, the request checked against `enabled_`. -/
  | accept (command : Command)
deriving DecidableEq

inductive Call
  | setEnabled (enabled : Bool)
  | pump
  | onViewportChanged
  | onFocusGained
  | onFocusLost
  | shutdown
  | requestShowTextInput (generation : Nat) (area : TextInputArea) (options : TextInputOptions)
  | requestHideTextInput (generation : Nat)

inductive Act
  | call (c : Call)
  | step (answers : Answers)

variable {τ : Type*}

namespace Shared

variable (s : Shared τ) (answers : Answers)

def called (calls : List BackendCall) : Shared τ := { s with calls := s.calls ++ calls }

def stopAndClear : Shared τ :=
  { s.called [.stop, .clearArea, .flushTextEvents] with
    active := false
    activeGeneration := 0
    activeArea := {} }

def stopResult : Bool := answers.stop && answers.clearArea

def showCommand (command : Command) : Shared τ × Bool :=
  if s.active then
    ({ s.called [.setArea command.area] with activeArea := command.area }, answers.setArea)
  else if !answers.setArea then (s.called [.flushTextEvents, .setArea command.area], false)
  else if !answers.start then
    (s.called [.flushTextEvents, .setArea command.area,
      .start command.options false, .clearArea], false)
  else
    ({ s.called [.flushTextEvents, .setArea command.area, .start command.options true] with
        active := true
        activeGeneration := command.generation
        activeArea := command.area
        generations := s.generations ++ [command.generation] }, true)

def run (command : Command) : Shared τ × Bool :=
  if !s.focused then (s, true)
  else
    match command.type with
    | .kHide =>
      if !s.active || s.activeGeneration > command.generation then (s, true)
      else (s.stopAndClear, stopResult answers)
    | .kShow =>
      if s.active && s.activeGeneration != command.generation then
        if !stopResult answers then (s.stopAndClear, false)
        else s.stopAndClear.showCommand answers command
      else s.showCommand answers command

def accepts (command : Command) : Bool :=
  match command.type with
  | .kShow => command.generation ≥ s.acceptedGeneration
  | .kHide => command.generation = s.acceptedGeneration

def accept (command : Command) : Shared τ :=
  { s with
    mutex := none
    acceptedGeneration := command.generation
    pendingCommand := some command
    lastAccepted := some command
    focusHeld := s.focused }

def stop (backend : Bool) : Shared τ :=
  if s.active then s.stopAndClear else if backend then s.called [.flushTextEvents] else s

end Shared

def requested : Call → Option Command
  | .requestShowTextInput generation area options =>
    some ⟨.kShow, generation, if area.valid then area else kSafeDefaultArea, options⟩
  | .requestHideTextInput generation => some ⟨.kHide, generation, {}, {}⟩
  | _ => none

variable (backend : Bool)

/-- The start of a call of the main thread, up to its first section of `mutex_`. -/
def beginMain (s : Shared τ) : Call → Option (Shared τ × Place)
  | .setEnabled enabled =>
    let s' := { s with
      enabled := enabled
      generations := if enabled && !s.enabled then [] else s.generations }
    some (s', if enabled != s.enabled then .lockEnabled enabled else .returned true)
  | .pump => some (s, if !s.enabled || !backend then .returned true else .lockPump)
  | .onViewportChanged =>
    some (if s.active && backend then s.called [.setArea s.activeArea] else s, .returned true)
  | .onFocusGained => some ({ s with focused := true }, .returned true)
  | .onFocusLost => some ({ s with focused := false, focusHeld := false }, .lockClear false)
  | .shutdown => some ({ s with enabled := false }, .lockClear true)
  | _ => none

def beginRequest (s : Shared τ) (c : Call) : Option (Shared τ × Place) :=
  (requested c).map fun command =>
    (s, if !s.enabled || command.generation = 0 then .returned false else .lockRequest command)

def continueCall (t : Option τ) (s : Shared τ) (answers : Answers) : Place →
    Option (Shared τ × Place)
  | .returned _ => none
  | .lockEnabled enabled =>
    if s.mutex.isSome then none
    else
      some ({ s with
          pendingCommand := none
          acceptedGeneration := 0
          lastAccepted := if enabled then s.lastAccepted else none },
        if enabled then .returned true else .stop)
  | .stop => some (s.stop backend, .returned true)
  | .lockPump =>
    if s.mutex.isSome then none
    else
      match s.pendingCommand with
      | none => some (s, .returned true)
      | some command => some ({ s with pendingCommand := none, failed := false }, .pump command)
  | .pump command =>
    let (s', result) := s.run answers command
    some ({ s' with failed := !result }, .returned result)
  | .lockClear shutdown =>
    if s.mutex.isSome then none
    else
      some ({ s with
          pendingCommand := none
          lastAccepted := if shutdown then none else s.lastAccepted }, .stop)
  | .lockRequest command =>
    if s.mutex.isSome then none
    else if !s.enabled then some (s, .returned false)
    else some ({ s with mutex := t }, .accept command)
  | .accept command =>
    if s.accepts command then some (s.accept command, .returned true)
    else some ({ s with mutex := none }, .returned false)

def act (t : Option τ) (s : Shared τ) (place : Place) : Act → Option (Shared τ × Place)
  | .call c =>
    match place with
    | .returned _ => if t.isNone then beginMain backend s c else beginRequest s c
    | _ => none
  | .step answers => continueCall backend t s answers place

abbrev State (τ : Type*) := System (Option τ) (Shared τ) Place

variable [DecidableEq τ]

def system : LTS (State τ) (Option τ × Act) := interleaving {} (.returned true) (act backend)

/-- No request is accepted while `SetEnabled(true)` has set `enabled_` and not yet cleared the
command. -/
def Undisturbed (st : State τ) (a : Option τ × Act) : Prop :=
  ∀ command, st.own a.1 = .accept command → st.shared.accepts command = true →
    st.own none ≠ .lockEnabled true

def switches (calls : List BackendCall) : List Bool :=
  calls.filterMap fun call =>
    match call with
    | .start _ true => some true
    | .stop => some false
    | _ => none

/-- What the owner promises. Starts and stops alternate, a start first; text input is active exactly
after a start; while enabled, generations do not go down; the last accepted request is obeyed once a
`Pump` has taken it, with the focus held and no failure; and without focus, or disabled, nothing is
active. -/
structure Safe (st : State τ) : Prop where
  alternating : (false :: switches st.shared.calls).IsChain (· ≠ ·)
  active_iff : st.shared.active = true ↔ (switches st.shared.calls).getLast? = some true
  rising : st.shared.generations.Pairwise (· ≤ ·) ∧
    (st.shared.enabled = true → st.shared.active = true →
      st.shared.generations.getLast? = some st.shared.activeGeneration)
  obeyed : ∀ result command, st.own none = .returned result → st.shared.enabled = true →
    st.shared.pendingCommand = none → st.shared.lastAccepted = some command →
    st.shared.focusHeld = true → st.shared.failed = false →
    (st.shared.active = true ↔ command.type = .kShow) ∧
      (command.type = .kShow → st.shared.activeGeneration = command.generation ∧
        st.shared.activeArea = command.area)
  inactive : ∀ result, st.own none = .returned result →
    st.shared.focused = false ∨ st.shared.enabled = false → st.shared.active = false

end Nightcap.Window.TextInput
