import Nightcap.Window.TextInputOwner

/-! Text input follows the last accepted request, as long as none is accepted while the owner is
only half enabled. -/
namespace Nightcap.Window.TextInput

open Transition Threads

variable {τ : Type*} {s s' : Shared τ} {answers : Answers}
  {command c : Command} {backend result : Bool}
  {calls : List BackendCall}

/-! What the main thread does to the backend. -/

/-- Starts and stops alternate, and tell what is active. -/
structure Switched (s : Shared τ) : Prop where
  alternating : (false :: switches s.calls).IsChain (· ≠ ·)
  active_iff : s.active = true ↔ (switches s.calls).getLast? = some true

theorem switches_append (xs ys : List BackendCall) :
    switches (xs ++ ys) = switches xs ++ switches ys :=
  List.filterMap_append

theorem Switched.quiet (h : Switched s) (hcalls : s'.calls = s.calls ++ calls)
    (hq : switches calls = [])
    (hactive : s'.active = s.active) : Switched s' := by
  have hsame : switches s'.calls = switches s.calls := by
    rw [hcalls, switches_append, hq, List.append_nil]
  exact ⟨hsame ▸ h.alternating, by rw [hactive, hsame]; exact h.active_iff⟩

theorem Switched.same (h : Switched s) (hcalls : s'.calls = s.calls)
    (hactive : s'.active = s.active) :
    Switched s' :=
  ⟨hcalls ▸ h.alternating, by rw [hactive, hcalls]; exact h.active_iff⟩

/-- A switch that is due. -/
theorem Switched.switch {b : Bool} (h : Switched s) (hcalls : s'.calls = s.calls ++ calls)
    (hb : switches calls = [b]) (hold : s.active = !b) (hnew : s'.active = b) : Switched s' := by
  have hsame : switches s'.calls = switches s.calls ++ [b] := by
    rw [hcalls, switches_append, hb]
  refine ⟨?_, ?_⟩
  · rw [hsame, ← List.cons_append]
    refine List.isChain_append.2 ⟨h.alternating, by simp, ?_⟩
    intro x hx y hy
    obtain rfl : y = b := by simpa using hy.symm
    have hiff := h.active_iff
    cases hl : switches s.calls using List.reverseRecOn with
    | nil =>
      rw [hl] at hx hiff
      obtain rfl : x = false := by simpa using hx.symm
      cases y <;> simp_all
    | append_singleton xs z =>
      rw [hl] at hx hiff
      obtain rfl : z = x := by simpa [List.getLast?_cons] using hx
      cases y <;> cases z <;> simp_all
  · rw [hnew, hsame]
    simp

/-- What the main thread leaves alone when it runs a command or stops. -/
structure Frame (s s' : Shared τ) : Prop where
  enabled : s'.enabled = s.enabled
  mutex : s'.mutex = s.mutex
  pendingCommand : s'.pendingCommand = s.pendingCommand
  acceptedGeneration : s'.acceptedGeneration = s.acceptedGeneration
  focused : s'.focused = s.focused
  lastAccepted : s'.lastAccepted = s.lastAccepted
  focusHeld : s'.focusHeld = s.focusHeld

theorem Switched.stopAndClear (h : Switched s) (hactive : s.active = true) :
    Switched s.stopAndClear :=
  h.switch rfl rfl hactive rfl

theorem stop_switched (h : Switched s) : Switched (s.stop backend) ∧
    (s.stop backend).active = false ∧
    Frame s (s.stop backend) ∧ (s.stop backend).generations = s.generations := by
  unfold Shared.stop
  split
  · next hactive => exact ⟨h.stopAndClear hactive, rfl, ⟨rfl, rfl, rfl, rfl, rfl, rfl, rfl⟩, rfl⟩
  · next hactive =>
    rw [Bool.not_eq_true] at hactive
    split
    · exact ⟨h.quiet rfl rfl rfl, hactive, ⟨rfl, rfl, rfl, rfl, rfl, rfl, rfl⟩, rfl⟩
    · exact ⟨h, hactive, ⟨rfl, rfl, rfl, rfl, rfl, rfl, rfl⟩, rfl⟩

/-- What a `Pump` makes of a command. -/
structure Ran (s s' : Shared τ) (command : Command) (result : Bool) : Prop where
  switched : Switched s'
  frame : Frame s s'
  generations : s'.generations = s.generations ∧ (s'.active = true → s.active = true ∧
      s'.activeGeneration = s.activeGeneration) ∨
    s'.generations = s.generations ++ [command.generation] ∧
      s'.activeGeneration = command.generation
  unfocused : s.focused = false → s'.active = s.active
  obeyed : s.focused = true → (s.active = true → s.activeGeneration ≤ command.generation) →
    result = true → (s'.active = true ↔ command.type = .kShow) ∧
      (command.type = .kShow → s'.activeGeneration = command.generation ∧
        s'.activeArea = command.area)

theorem showCommand_ran (h : Switched s) (hf : s.focused = true) (htype : command.type = .kShow)
    (hgen : s.active = true → s.activeGeneration = command.generation)
    (hs : s.showCommand answers command = (s', result)) : Ran s s' command result := by
  unfold Shared.showCommand at hs
  split at hs
  · next hactive =>
    cases hs
    refine ⟨h.quiet rfl rfl rfl, ⟨rfl, rfl, rfl, rfl, rfl, rfl, rfl⟩,
      .inl ⟨rfl, fun _ => ⟨hactive, rfl⟩⟩,
      fun _ => rfl, fun _ _ _ => ⟨⟨fun _ => htype, fun _ => hactive⟩, fun _ => ⟨hgen hactive, rfl⟩⟩⟩
  · next hactive =>
    rw [Bool.not_eq_true] at hactive
    have hnot : s.active = true → s.active = true ∧ s.activeGeneration = s.activeGeneration :=
      fun h => ⟨h, rfl⟩
    split at hs
    · cases hs
      exact ⟨h.quiet rfl rfl rfl, ⟨rfl, rfl, rfl, rfl, rfl, rfl, rfl⟩,
        .inl ⟨rfl, hnot⟩, fun _ => rfl, nofun⟩
    · split at hs
      · cases hs
        exact ⟨h.quiet rfl rfl rfl, ⟨rfl, rfl, rfl, rfl, rfl, rfl, rfl⟩,
          .inl ⟨rfl, hnot⟩, fun _ => rfl, nofun⟩
      · cases hs
        refine ⟨h.switch rfl rfl hactive rfl, ⟨rfl, rfl, rfl, rfl, rfl, rfl, rfl⟩,
          .inr ⟨rfl, rfl⟩, ?_, ?_⟩
        · exact fun hunf => (nomatch hf.symm.trans hunf)
        · exact fun _ _ _ => ⟨⟨fun _ => htype, fun _ => rfl⟩, fun _ => ⟨rfl, rfl⟩⟩

theorem run_ran (h : Switched s) (hs : s.run answers command = (s', result)) :
    Ran s s' command result := by
  unfold Shared.run at hs
  cases hf : s.focused with
  | false =>
    rw [hf] at hs
    cases hs
    exact ⟨h, ⟨rfl, rfl, rfl, rfl, rfl, rfl, rfl⟩, .inl ⟨rfl, fun h => ⟨h, rfl⟩⟩, fun _ => rfl,
      fun hfoc => (nomatch hf.symm.trans hfoc)⟩
  | true =>
    simp only [hf, Bool.not_true, Bool.false_eq_true, if_false] at hs
    cases htype : command.type with
    | kHide =>
      simp only [htype] at hs
      split at hs
      · next hnone =>
        cases hs
        refine ⟨h, ⟨rfl, rfl, rfl, rfl, rfl, rfl, rfl⟩, .inl ⟨rfl, fun h => ⟨h, rfl⟩⟩, fun _ => rfl,
          fun _ hle _ => ⟨⟨fun hactive => ?_, fun heq => (nomatch htype.symm.trans heq)⟩,
            fun heq => (nomatch htype.symm.trans heq)⟩⟩
        have := hle hactive
        simp only [hactive, Bool.not_true, Bool.false_or, decide_eq_true_eq] at hnone
        omega
      · next hsome =>
        cases hs
        have hactive : s.active = true := by
          by_contra hnot
          rw [Bool.not_eq_true] at hnot
          simp [hnot] at hsome
        refine ⟨h.stopAndClear hactive, ⟨rfl, rfl, rfl, rfl, rfl, rfl, rfl⟩, .inl ⟨rfl, nofun⟩,
          fun hunf => (nomatch hf.symm.trans hunf), fun _ _ _ => ⟨⟨nofun, ?_⟩, ?_⟩⟩
        · exact fun heq => (nomatch htype.symm.trans heq)
        · exact fun heq => (nomatch htype.symm.trans heq)
    | kShow =>
      simp only [htype] at hs
      split at hs
      · next hother =>
        have hactive : s.active = true := by
          rw [Bool.and_eq_true] at hother
          exact hother.1
        have hstopped := h.stopAndClear hactive
        split at hs
        · cases hs
          exact ⟨hstopped, ⟨rfl, rfl, rfl, rfl, rfl, rfl, rfl⟩, .inl ⟨rfl, nofun⟩,
            fun hunf => (nomatch hf.symm.trans hunf), nofun⟩
        · have hran := showCommand_ran hstopped hf htype nofun hs
          have hframe := hran.frame
          refine ⟨hran.switched, ⟨hframe.enabled, hframe.mutex, hframe.pendingCommand,
            hframe.acceptedGeneration, hframe.focused, hframe.lastAccepted, hframe.focusHeld⟩, ?_,
              fun hunf => (nomatch hf.symm.trans hunf),
            fun _ _ => hran.obeyed hf nofun⟩
          rcases hran.generations with ⟨heq, hkeep⟩ | hnew
          · exact .inl ⟨heq, fun hact => nomatch (hkeep hact).1⟩
          · exact .inr hnew
      · next hsame =>
        refine showCommand_ran h hf htype (fun hactive => ?_) hs
        simpa [hactive] using hsame

/-! The invariant. -/

/-- The places where the main thread is not about to stop anything. -/
def Place.settled : Place → Bool
  | .lockEnabled enabled => enabled
  | .stop | .lockClear _ => false
  | _ => true

/-- What the owner keeps, with the main thread at a place. -/
structure Core (s : Shared τ) (p : Place) : Prop where
  switched : Switched s
  guarded : s.mutex ≠ none → s.enabled = true ∨ p = .lockEnabled false ∨ p = .lockClear true
  sorted : s.generations.Pairwise (· ≤ ·)
  latest : s.enabled = true → s.active = true → s.generations.getLast? = some s.activeGeneration
  bounded : s.enabled = true → p ≠ .lockEnabled true → ∀ g ∈ s.generations, g ≤ s.acceptedGeneration
  pending : ∀ c, s.pendingCommand = some c →
    c.generation = s.acceptedGeneration ∧ s.lastAccepted = some c
  half : ∀ enabled, p = .lockEnabled enabled → s.enabled = enabled
  looking : p = .lockPump → s.enabled = true
  enabling : p = .lockEnabled true → s.generations = [] ∧ s.active = false ∧ s.lastAccepted = none
  disabled : s.enabled = false → p ≠ .lockEnabled false →
    p ≠ .lockClear true → s.lastAccepted = none
  focused : s.focusHeld = true → s.focused = true
  stopping : p = .stop ∨ (∃ shutdown, p = .lockClear shutdown) →
    s.enabled = false ∨ s.focused = false
  taken : ∀ c, p = .pump c → s.enabled = true ∧ c.generation ≤ s.acceptedGeneration ∧
    (∀ g ∈ s.generations, g ≤ c.generation) ∧ (s.pendingCommand = none → s.lastAccepted = some c)
  obeyed : (∀ c, p ≠ .pump c) → s.enabled = true → s.pendingCommand = none → ∀ c,
    s.lastAccepted = some c → s.focusHeld = true → s.failed = false →
    (s.active = true ↔ c.type = .kShow) ∧
      (c.type = .kShow → s.activeGeneration = c.generation ∧ s.activeArea = c.area)
  inactive : p.settled = true → s.focused = false ∨ s.enabled = false → s.active = false

variable {p p' : Place}

/-- Out of every call, or about to look for a command. -/
def Place.calm : Place → Bool
  | .returned _ | .lockPump => true
  | _ => false

theorem Core.calm (h : Core s p) (hp : p.calm = true) (hp' : p'.calm = true)
    (hlook : p' = .lockPump → s.enabled = true) : Core s p' := by
  cases p <;> cases hp <;> cases p' <;> cases hp' <;>
    exact ⟨h.switched, fun hm => (h.guarded hm).imp_right (by simp), h.sorted, h.latest,
      fun he _ => h.bounded he nofun, h.pending, nofun, hlook, nofun,
      fun he _ _ => h.disabled he nofun nofun, h.focused, by simp, nofun,
      fun _ => h.obeyed nofun, h.inactive⟩

theorem setEnabled_core (h : Core s (.returned result)) (enabled : Bool)
    (hne : enabled ≠ s.enabled) :
    Core { s with
      enabled := enabled
      generations := if enabled && !s.enabled then [] else s.generations }
        (.lockEnabled enabled) := by
  cases enabled with
  | true =>
    have hs : s.enabled = false := Bool.eq_false_of_not_eq_true (Ne.symm hne)
    have hnone := h.inactive rfl (.inr hs)
    have hlast := h.disabled hs nofun nofun
    simp only [hs, Bool.not_false, Bool.and_self, if_true]
    exact {
      switched := h.switched.same rfl rfl
      guarded := fun _ => .inl rfl
      sorted := List.Pairwise.nil
      latest := fun _ hactive => nomatch hnone.symm.trans hactive
      bounded := fun _ hp => absurd rfl hp
      pending := h.pending
      half := by simp
      looking := nofun
      enabling := fun _ => ⟨rfl, hnone, hlast⟩
      disabled := nofun
      focused := h.focused
      stopping := by simp
      taken := nofun
      obeyed := fun _ _ _ c hc => nomatch hlast.symm.trans hc
      inactive := fun _ _ => hnone }
  | false =>
    have hs : s.enabled = true := by simpa using Ne.symm hne
    simp only [Bool.false_and, Bool.false_eq_true, if_false]
    exact {
      switched := h.switched.same rfl rfl
      guarded := fun _ => .inr (.inl rfl)
      sorted := h.sorted
      latest := nofun
      bounded := nofun
      pending := h.pending
      half := by simp
      looking := nofun
      enabling := nofun
      disabled := fun _ hp => absurd rfl hp
      focused := h.focused
      stopping := by simp
      taken := nofun
      obeyed := fun _ he => nomatch he
      inactive := nofun }

theorem begin_core (h : Core s (.returned result)) {call : Call}
    (hstep : beginMain backend s call = some (s', p')) : Core s' p' := by
  have hback : Core s (.returned true) := h.calm rfl rfl nofun
  cases call with
  | setEnabled enabled =>
    cases hstep
    by_cases hne : enabled = s.enabled
    · subst hne
      simpa using hback
    · have hflag : (enabled != s.enabled) = true := by simpa using hne
      rw [hflag]
      exact setEnabled_core h enabled hne
  | pump =>
    cases hstep
    split
    · exact hback
    · next hgo =>
      refine h.calm rfl rfl fun _ => ?_
      simp only [Bool.or_eq_true, Bool.not_eq_true', not_or, Bool.not_eq_false] at hgo
      exact hgo.1
  | onViewportChanged =>
    cases hstep
    split
    · exact { hback with switched := h.switched.quiet rfl rfl rfl }
    · exact hback
  | onFocusGained =>
    cases hstep
    exact { hback with
      switched := h.switched.same rfl rfl
      focused := fun _ => rfl
      stopping := by simp
      inactive := fun _ hor => h.inactive rfl (.inr (hor.resolve_left nofun)) }
  | onFocusLost =>
    cases hstep
    exact {
      switched := h.switched.same rfl rfl
      guarded := fun hm => (h.guarded hm).imp_right (by simp)
      sorted := h.sorted
      latest := h.latest
      bounded := fun he _ => h.bounded he nofun
      pending := h.pending
      half := nofun
      looking := nofun
      enabling := nofun
      disabled := fun he _ _ => h.disabled he nofun nofun
      focused := nofun
      stopping := fun _ => .inr rfl
      taken := nofun
      obeyed := fun _ _ _ _ _ => nofun
      inactive := nofun }
  | shutdown =>
    cases hstep
    exact {
      switched := h.switched.same rfl rfl
      guarded := fun _ => .inr (.inr rfl)
      sorted := h.sorted
      latest := nofun
      bounded := nofun
      pending := h.pending
      half := nofun
      looking := nofun
      enabling := nofun
      disabled := fun _ _ hp => absurd rfl hp
      focused := h.focused
      stopping := fun _ => .inl rfl
      taken := nofun
      obeyed := fun _ => nofun
      inactive := nofun }
  | requestShowTextInput => cases hstep
  | requestHideTextInput => cases hstep

theorem lockEnabled_core {enabled : Bool} (h : Core s (.lockEnabled enabled))
    (hfree : s.mutex = none) :
    Core { s with
      pendingCommand := none
      acceptedGeneration := 0
      lastAccepted := if enabled then s.lastAccepted else none }
      (if enabled then .returned true else .stop) := by
  have hhalf := h.half enabled rfl
  cases enabled with
  | true =>
    obtain ⟨hgenerations, hnone, hlast⟩ := h.enabling rfl
    exact {
      switched := h.switched.same rfl rfl
      guarded := fun hm => absurd hfree hm
      sorted := h.sorted
      latest := h.latest
      bounded := fun _ _ g hg => by simp [hgenerations] at hg
      pending := nofun
      half := nofun
      looking := nofun
      enabling := nofun
      disabled := fun hd => nomatch hhalf.symm.trans hd
      focused := h.focused
      stopping := by simp
      taken := nofun
      obeyed := fun _ _ _ c hc => nomatch hlast.symm.trans hc
      inactive := fun _ _ => hnone }
  | false =>
    exact {
      switched := h.switched.same rfl rfl
      guarded := fun hm => absurd hfree hm
      sorted := h.sorted
      latest := h.latest
      bounded := fun he => nomatch hhalf.symm.trans he
      pending := nofun
      half := nofun
      looking := nofun
      enabling := nofun
      disabled := fun _ _ _ => rfl
      focused := h.focused
      stopping := fun _ => .inl hhalf
      taken := nofun
      obeyed := fun _ he => nomatch hhalf.symm.trans he
      inactive := nofun }

theorem lockClear_core {shutdown : Bool} (h : Core s (.lockClear shutdown))
    (hfree : s.mutex = none) :
    Core { s with
      pendingCommand := none
      lastAccepted := if shutdown then none else s.lastAccepted } .stop where
  switched := h.switched.same rfl rfl
  guarded := fun hm => absurd hfree hm
  sorted := h.sorted
  latest := h.latest
  bounded := fun he _ => h.bounded he nofun
  pending := nofun
  half := nofun
  looking := nofun
  enabling := nofun
  disabled := fun he _ _ => by
    cases shutdown with
    | true => rfl
    | false => exact h.disabled he nofun (by simp)
  focused := h.focused
  stopping := fun _ => h.stopping (.inr ⟨shutdown, rfl⟩)
  taken := nofun
  obeyed := fun _ he _ c _ hheld => by
    rcases h.stopping (.inr ⟨shutdown, rfl⟩) with hd | hf
    · exact nomatch hd.symm.trans he
    · exact nomatch hf.symm.trans (h.focused hheld)
  inactive := nofun

theorem stop_core (h : Core s .stop) : Core (s.stop backend) (.returned result) := by
  obtain ⟨hswitched, hnone, hframe, hgenerations⟩ := @stop_switched _ s backend h.switched
  exact {
    switched := hswitched
    guarded := fun hm => by
      rw [hframe.mutex] at hm
      rw [hframe.enabled]
      exact (h.guarded hm).imp_right (by simp)
    sorted := hgenerations ▸ h.sorted
    latest := fun _ hactive => nomatch hnone.symm.trans hactive
    bounded := fun he _ => by
      rw [hgenerations, hframe.acceptedGeneration]
      exact h.bounded (hframe.enabled ▸ he) nofun
    pending := fun c hc => by
      rw [hframe.acceptedGeneration, hframe.lastAccepted]
      exact h.pending c (hframe.pendingCommand ▸ hc)
    half := nofun
    looking := nofun
    enabling := nofun
    disabled :=
      fun he _ _ => hframe.lastAccepted.trans (h.disabled (hframe.enabled ▸ he) nofun nofun)
    focused := fun hheld => hframe.focused.trans (h.focused (hframe.focusHeld ▸ hheld))
    stopping := by simp
    taken := nofun
    obeyed := fun _ he _ c _ hheld => by
      rcases h.stopping (.inl rfl) with hd | hf
      · exact nomatch hd.symm.trans (hframe.enabled.symm.trans he)
      · exact nomatch hf.symm.trans (h.focused (hframe.focusHeld.symm.trans hheld))
    inactive := fun _ _ => hnone }

theorem take_core (h : Core s .lockPump) (hc : s.pendingCommand = some command) :
    Core { s with pendingCommand := none, failed := false } (.pump command) := by
  have he := h.looking rfl
  obtain ⟨hgeneration, hlast⟩ := h.pending command hc
  exact {
    switched := h.switched.same rfl rfl
    guarded := fun _ => .inl he
    sorted := h.sorted
    latest := h.latest
    bounded := fun he _ => h.bounded he nofun
    pending := nofun
    half := nofun
    looking := nofun
    enabling := nofun
    disabled := fun hd => nomatch he.symm.trans hd
    focused := h.focused
    stopping := by simp
    taken := fun c hp => by
      cases hp
      exact ⟨he, hgeneration.le, hgeneration ▸ h.bounded he nofun, fun _ => hlast⟩
    obeyed := fun hp => absurd rfl (hp command)
    inactive := fun _ => h.inactive rfl }

/-- The command is run while the focus is had, if the last request is to be obeyed. -/
theorem pump_core (h : Core s (.pump command)) (hrun : s.run answers command = (s', result)) :
    Core { s' with failed := !result } (.returned result) := by
  obtain ⟨he, hle, hgenerations, hlast⟩ := h.taken command rfl
  have hran := run_ran h.switched hrun
  have hframe := hran.frame
  have he' : s'.enabled = true := hframe.enabled.trans he
  have hbelow : s.active = true → s.activeGeneration ≤ command.generation := fun hactive =>
    hgenerations _ (List.mem_of_getLast? (h.latest he hactive))
  exact {
    switched := hran.switched.same rfl rfl
    guarded := fun _ => .inl he'
    sorted := by
      rcases hran.generations with ⟨heq, -⟩ | ⟨heq, -⟩
      · exact heq ▸ h.sorted
      · simp only [heq]
        refine List.pairwise_append.2 ⟨h.sorted, List.pairwise_singleton _ _, fun g hg g' hg' => ?_⟩
        rw [List.mem_singleton.1 hg']
        exact hgenerations g hg
    latest := fun _ hactive => by
      rcases hran.generations with ⟨heq, hkeep⟩ | ⟨heq, hnew⟩
      · obtain ⟨hold, hsame⟩ := hkeep hactive
        simp only [heq, hsame]
        exact h.latest he hold
      · simp only [heq, hnew]
        exact List.getLast?_concat ..
    bounded := fun _ _ g hg => by
      simp only [hframe.acceptedGeneration]
      rcases hran.generations with ⟨heq, -⟩ | ⟨heq, -⟩
      · exact h.bounded he nofun g (heq ▸ hg)
      · simp only [heq, List.mem_append, List.mem_singleton] at hg
        rcases hg with hg | rfl
        · exact h.bounded he nofun g hg
        · exact hle
    pending := fun c hc => by
      simp only [hframe.acceptedGeneration, hframe.lastAccepted]
      exact h.pending c (hframe.pendingCommand ▸ hc)
    half := nofun
    looking := nofun
    enabling := nofun
    disabled := fun hd => nomatch he'.symm.trans hd
    focused := fun hheld => hframe.focused.trans (h.focused (hframe.focusHeld ▸ hheld))
    stopping := by simp
    taken := nofun
    obeyed := fun _ _ hp c hc hheld hfailed => by
      obtain rfl : command = c :=
        Option.some.inj ((hlast (hframe.pendingCommand ▸ hp)).symm.trans (hframe.lastAccepted ▸ hc))
      exact hran.obeyed (h.focused (hframe.focusHeld ▸ hheld)) hbelow (by simpa using hfailed)
    inactive := fun _ hor => by
      have hf : s.focused = false := by
        rcases hor with hf | hd
        · exact hframe.focused ▸ hf
        · exact nomatch he'.symm.trans hd
      exact (hran.unfocused hf).trans (h.inactive rfl (.inl hf)) }

theorem continue_core (h : Core s p) (hmain : ∀ c, p ≠ .lockRequest c ∧ p ≠ .accept c)
    (hstep : continueCall backend none s answers p = some (s', p')) : Core s' p' := by
  cases p with
  | returned result => cases hstep
  | lockEnabled enabled =>
    simp only [continueCall] at hstep
    split at hstep <;> cases hstep
    next hfree => exact lockEnabled_core h (by simpa using hfree)
  | stop =>
    cases hstep
    exact stop_core h
  | lockPump =>
    simp only [continueCall] at hstep
    split at hstep
    · cases hstep
    · split at hstep
      · cases hstep
        exact h.calm rfl rfl nofun
      · next command hc =>
        cases hstep
        exact take_core h hc
  | pump command =>
    simp only [continueCall] at hstep
    cases hstep
    exact pump_core h rfl
  | lockClear shutdown =>
    simp only [continueCall] at hstep
    split at hstep <;> cases hstep
    next hfree => exact lockClear_core h (by simpa using hfree)
  | lockRequest command => exact absurd rfl (hmain command).1
  | accept command => exact absurd rfl (hmain command).2

/-! The steps of a request. -/

theorem Core.unlock {mutex : Option τ} (h : Core s p) (hm : mutex ≠ none → s.enabled = true) :
    Core { s with mutex := mutex } p :=
  ⟨h.switched.same rfl rfl, fun hne => .inl (hm hne), h.sorted, h.latest,
    h.bounded, h.pending, h.half,
    h.looking, h.enabling, h.disabled, h.focused, h.stopping, h.taken, h.obeyed, h.inactive⟩

/-- An accepted request waits for a `Pump`. -/
theorem Core.accept (h : Core s p) (hlocked : s.mutex ≠ none) (hcalm : p ≠ .lockEnabled true)
    (haccepts : s.accepts c = true) : Core (s.accept c) p := by
  have hle : s.acceptedGeneration ≤ c.generation := by
    unfold Shared.accepts at haccepts
    split at haccepts
    · simpa using haccepts
    · have heq : c.generation = s.acceptedGeneration := by simpa using haccepts
      omega
  exact {
    switched := h.switched.same rfl rfl
    guarded := fun hne => absurd rfl hne
    sorted := h.sorted
    latest := h.latest
    bounded := fun he hp g hg => (h.bounded he hp g hg).trans hle
    pending := fun d hd => by
      obtain rfl := Option.some.inj hd
      exact ⟨rfl, rfl⟩
    half := h.half
    looking := h.looking
    enabling := fun hp => absurd hp hcalm
    disabled := fun hd hne hne' => by
      rcases h.guarded hlocked with he | hp | hp
      · exact nomatch hd.symm.trans he
      · exact absurd hp hne
      · exact absurd hp hne'
    focused := fun hheld => hheld
    stopping := h.stopping
    taken := fun d hp => by
      obtain ⟨he, hd, hg, -⟩ := h.taken d hp
      exact ⟨he, hd.trans hle, hg, nofun⟩
    obeyed := fun _ _ => nofun
    inactive := h.inactive }

/-! The runs. -/

structure Sound (st : State τ) : Prop where
  core : Core st.shared (st.own none)
  main : ∀ c, st.own none ≠ .lockRequest c ∧ st.own none ≠ .accept c
  others : ∀ u, (∃ result, st.own (some u) = .returned result) ∨
    (∃ c, st.own (some u) = .lockRequest c) ∨ ∃ c, st.own (some u) = .accept c
  locked : ∀ u c, st.own (some u) = .accept c → st.shared.mutex = some u

variable {st : State τ} {u : τ}

theorem Sound.safe (h : Sound st) : Safe st where
  alternating := h.core.switched.alternating
  active_iff := h.core.switched.active_iff
  rising := ⟨h.core.sorted, h.core.latest⟩
  obeyed result c hp he hpending hlast hheld hfailed :=
    h.core.obeyed (fun d hd => by rw [hp] at hd; cases hd) he hpending c hlast hheld hfailed
  inactive result hp := h.core.inactive (by rw [hp]; rfl)

/-- What the main thread can go on to. -/
theorem main_places {call : Call} (hstep : beginMain backend s call = some (s', p')) :
    s'.mutex = s.mutex ∧ ∀ c, p' ≠ .lockRequest c ∧ p' ≠ .accept c := by
  cases call <;> cases hstep
  case setEnabled enabled =>
    refine ⟨rfl, ?_⟩
    split <;> simp
  case pump =>
    refine ⟨rfl, ?_⟩
    split <;> simp
  case onViewportChanged =>
    split <;> exact ⟨rfl, by simp⟩
  all_goals exact ⟨rfl, by simp⟩

theorem main_continues (h : Core s p)
    (hstep : continueCall backend none s answers p = some (s', p'))
    (hmain : ∀ c, p ≠ .lockRequest c ∧ p ≠ .accept c) :
    s'.mutex = s.mutex ∧ ∀ c, p' ≠ .lockRequest c ∧ p' ≠ .accept c := by
  cases p with
  | returned result => cases hstep
  | lockEnabled enabled =>
    simp only [continueCall] at hstep
    split at hstep <;> cases hstep
    cases enabled <;> exact ⟨rfl, by simp⟩
  | stop =>
    cases hstep
    exact ⟨(stop_switched h.switched).2.2.1.mutex, by simp⟩
  | lockPump =>
    simp only [continueCall] at hstep
    split at hstep
    · cases hstep
    · split at hstep <;> cases hstep <;> exact ⟨rfl, by simp⟩
  | pump command =>
    simp only [continueCall] at hstep
    cases hstep
    exact ⟨(run_ran h.switched rfl).frame.mutex, by simp⟩
  | lockClear shutdown =>
    simp only [continueCall] at hstep
    split at hstep <;> cases hstep
    exact ⟨rfl, by simp⟩
  | lockRequest command => exact absurd rfl (hmain command).1
  | accept command => exact absurd rfl (hmain command).2

theorem initial_sound : Sound (⟨{}, fun _ => .returned true⟩ : State τ) where
  core := {
    switched := ⟨List.isChain_singleton _, by simp [switches]⟩
    guarded := fun hne => absurd rfl hne
    sorted := List.Pairwise.nil
    latest := nofun
    bounded := nofun
    pending := nofun
    half := nofun
    looking := nofun
    enabling := nofun
    disabled := fun _ _ _ => rfl
    focused := nofun
    stopping := by simp
    taken := nofun
    obeyed := nofun
    inactive := fun _ _ => rfl }
  main _ := ⟨nofun, nofun⟩
  others _ := .inl ⟨true, rfl⟩
  locked := nofun

variable [DecidableEq τ]

theorem own_request : (st.set none s' p').own (some u) = st.own (some u) :=
  System.set_own_of_ne (Option.some_ne_none u)

theorem own_main : (st.set (some u) s' p').own none = st.own none :=
  System.set_own_of_ne (Option.some_ne_none u).symm

theorem main_sound (h : Sound st) (hcore : Core s' p')
    (hplaces : s'.mutex = st.shared.mutex ∧ ∀ c, p' ≠ .lockRequest c ∧ p' ≠ .accept c) :
    Sound (st.set none s' p') where
  core := by simpa using hcore
  main := by simpa using hplaces.2
  others u := by
    rw [own_request]
    exact h.others u
  locked u c hu := by
    rw [own_request] at hu
    exact hplaces.1.trans (h.locked u c hu)

theorem request_sound (h : Sound st) (hcore : Core s' (st.own none))
    (hplace : (∃ result, p' = .returned result) ∨ (∃ c, p' = .lockRequest c) ∨ ∃ c, p' = .accept c)
    (hlocked : ∀ c, p' = .accept c → s'.mutex = some u)
    (hothers : ∀ v c, v ≠ u → st.own (some v) = .accept c → s'.mutex = some v) :
    Sound (st.set (some u) s' p') where
  core := by
    rw [System.set_shared, own_main]
    exact hcore
  main := by
    rw [own_main]
    exact h.main
  others v := by
    by_cases hv : v = u
    · subst hv
      rw [System.set_own_self]
      exact hplace
    · rw [System.set_own_of_ne (by simpa using hv)]
      exact h.others v
  locked v c hc := by
    by_cases hv : v = u
    · subst hv
      rw [System.set_own_self] at hc
      exact hlocked c hc
    · rw [System.set_own_of_ne (by simpa using hv)] at hc
      exact hothers v c hv hc

theorem request_step (h : Sound st)
    (hstep : continueCall backend (some u) st.shared answers (st.own (some u)) = some (s', p'))
    (hcalm : ∀ c, st.own (some u) = .accept c → st.shared.accepts c = true →
      st.own none ≠ .lockEnabled true) : Sound (st.set (some u) s' p') := by
  rcases h.others u with ⟨result, hp⟩ | ⟨c, hp⟩ | ⟨c, hp⟩ <;> rw [hp] at hstep
  · cases hstep
  · simp only [continueCall] at hstep
    split at hstep
    · cases hstep
    · next hfree =>
      have hfree : st.shared.mutex = none := by simpa using hfree
      have hothers : ∀ v c, v ≠ u → st.own (some v) ≠ .accept c := fun v c _ hv =>
        nomatch hfree.symm.trans (h.locked v c hv)
      split at hstep
      · cases hstep
        exact request_sound h h.core (.inl ⟨_, rfl⟩) nofun fun v c hv hc =>
          absurd hc (hothers v c hv)
      · next he =>
        cases hstep
        exact request_sound h (h.core.unlock fun _ => by simpa using he) (.inr (.inr ⟨_, rfl⟩))
          (fun _ _ => rfl) fun v c hv hc => absurd hc (hothers v c hv)
  · have hmine := h.locked u c hp
    have hothers : ∀ v d, v ≠ u → st.own (some v) ≠ .accept d := fun v d hv hd =>
      hv (Option.some.inj ((h.locked v d hd).symm.trans hmine))
    simp only [continueCall] at hstep
    split at hstep
    · next haccepts =>
      cases hstep
      refine request_sound h (h.core.accept ?_ (hcalm c hp haccepts) haccepts) (.inl ⟨_, rfl⟩) nofun
        fun v d hv hd => absurd hd (hothers v d hv)
      rw [hmine]
      exact nofun
    · cases hstep
      exact request_sound h (h.core.unlock fun hne => absurd rfl hne) (.inl ⟨_, rfl⟩) nofun
        fun v d hv hd => absurd hd (hothers v d hv)

theorem sound_step {a : Option τ × Act} {st' : State τ} (h : Sound st)
    (hstep : (system backend).step st a st') (hcalm : Undisturbed st a) : Sound st' := by
  obtain ⟨t, a⟩ := a
  obtain ⟨s', p', hact, rfl⟩ := hstep
  cases a with
  | call call =>
    simp only [act] at hact
    split at hact
    · next result hp =>
      cases t with
      | none =>
        rw [Option.isNone_none, if_pos rfl] at hact
        exact main_sound h (begin_core (hp ▸ h.core) hact) (main_places hact)
      | some u =>
        rw [Option.isNone_some, if_neg Bool.false_ne_true] at hact
        obtain ⟨c, -, heq⟩ := Option.map_eq_some_iff.1 hact
        cases heq
        refine request_sound h h.core ?_ ?_ fun v c _ hc => h.locked v c hc
        · split
          · exact .inl ⟨_, rfl⟩
          · exact .inr (.inl ⟨_, rfl⟩)
        · intro d hd
          split at hd <;> cases hd
    · cases hact
  | step answers =>
    cases t with
    | none =>
      exact main_sound h (continue_core h.core h.main hact) (main_continues h.core hact h.main)
    | some u => exact request_step h hact fun c hc => hcalm c hc

/-- In every run in which no request is accepted while `SetEnabled(true)` is only half done. -/
theorem text_input_safe (h : ((system backend).restrict Undisturbed).Reachable st) : Safe st := by
  refine Sound.safe (h.invariant (I := Sound) ?_ ?_)
  · rintro _ rfl
    exact initial_sound
  · rintro st a st' ⟨hstep, hcalm⟩ hs
    exact sound_step hs hstep hcalm

/-- A thread of the guest shows text input, and a `Pump` starts it. -/
theorem text_input_safe_show : ∃ st : State Unit, st.own none = .returned true ∧
    st.shared.active = true ∧ (switches st.shared.calls).getLast? = some true := by
  have hrun : ∃ st : State Unit, ((system true).restrict Undisturbed).Reachable st ∧
      st.own none = .returned true ∧ st.shared.active = true :=
    ⟨_, ⟨_, [(none, .call (.setEnabled true)), (none, .step {}),
        (some (), .call (.requestShowTextInput 7 ⟨0, 0, 8, 8, 0⟩ {})), (some (), .step {}),
        (some (), .step {}), (none, .call .pump), (none, .step {}), (none, .step {})], rfl,
      .cons ⟨⟨_, _, rfl, rfl⟩, nofun⟩
        (.cons ⟨⟨_, _, rfl, rfl⟩, nofun⟩ (.cons ⟨⟨_, _, rfl, rfl⟩, nofun⟩
          (.cons ⟨⟨_, _, rfl, rfl⟩, nofun⟩ (.cons ⟨⟨_, _, rfl, rfl⟩, fun _ _ _ => nofun⟩
            (.cons ⟨⟨_, _, rfl, rfl⟩, nofun⟩ (.cons ⟨⟨_, _, rfl, rfl⟩, nofun⟩
              (.cons ⟨⟨_, _, rfl, rfl⟩, nofun⟩ (.refl _))))))))⟩, rfl, rfl⟩
  obtain ⟨st, hst, hown, hactive⟩ := hrun
  exact ⟨st, hown, hactive, (text_input_safe hst).active_iff.1 hactive⟩

/-- A thread finds the owner enabled and has its show accepted before `SetEnabled(true)` clears the
command: no `Pump` will start it. -/
theorem accepted_show_lost : ∃ st : State Unit, (system true).Reachable st ∧
    st.own (some ()) = .returned true ∧ st.shared.active = false ∧ ¬ Safe st := by
  have hrun : ∃ st : State Unit, [(none, Act.call (.setEnabled true)),
      (some (), .call (.requestShowTextInput 7 ⟨0, 0, 8, 8, 0⟩ {})), (some (), .step {}),
      (some (), .step {}), (none, .step {}), (none, .call .pump), (none, .step {})].foldlM
      (next (act true)) ⟨{}, fun _ => .returned true⟩ = some st ∧
        st.own (some ()) = .returned true ∧
      st.shared.active = false ∧ st.own none = .returned true ∧ st.shared.enabled = true ∧
      st.shared.pendingCommand = none ∧
        st.shared.lastAccepted = some ⟨.kShow, 7, ⟨0, 0, 8, 8, 0⟩, {}⟩ ∧
      st.shared.focusHeld = true ∧ st.shared.failed = false :=
    ⟨_, rfl, rfl, rfl, rfl, rfl, rfl, rfl, rfl, rfl⟩
  obtain ⟨st, hst, hreturned, hinactive, hp, he, hpending, hlast, hheld, hfailed⟩ := hrun
  refine ⟨st, reachable_of_foldlM hst, hreturned, hinactive, fun hsafe => ?_⟩
  have hactive := (hsafe.obeyed true _ hp he hpending hlast hheld hfailed).1.2 rfl
  exact nomatch hinactive.symm.trans hactive

end Nightcap.Window.TextInput
