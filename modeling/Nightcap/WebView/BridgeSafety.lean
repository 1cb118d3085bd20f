import Nightcap.Lib.Signal
import Nightcap.WebView.Bridge

/-! The game is told `Unfocused` before `Focused` and each once, and what was tracked is
reported. -/
namespace Nightcap.WebView

open Transition Threads

/-! What an exit and the events do to the shared state. -/

/-- The event of an exit. -/
def WindowExit.event (x : WindowExit) : Option PendingHostWindowEvent :=
  if x.tracked then (closeEvent x.window.source).map fun type =>
    { type, generation := x.window.generation }
  else none

section Spec

variable {s : Shared} {w : HostWindow} {x : WindowExit} {event : PendingHostWindowEvent}

theorem push_spec (hroom : s.pendingHostWindowEvents.length < kMaximumPendingHostWindowEvents) :
    s.push event = { s with
      pendingHostWindowEvents := s.pendingHostWindowEvents ++ [event]
      queued := s.queued ++ [event] } := by
  simp only [Shared.push, if_neg hroom.ne]

/-- What an exit changes. -/
structure Exited (s : Shared) (w : HostWindow) (s' : Shared) (x : WindowExit) : Prop where
  window : x.window = w
  exits : s'.exits = s.exits ++ [x]
  queued : s'.queued = s.queued ++ x.event.toList
  pending : s'.pendingHostWindowEvents = s.pendingHostWindowEvents ++ x.event.toList
  next : s'.nextHostWindowGeneration = s.nextHostWindowGeneration
  begun : s'.begun = s.begun
  tracks : s'.tracks = s.tracks
  accepted : s'.accepted = s.accepted
  told : s'.told = s.told
  slot : (x.tracked = false ∧ s'.target = s.target) ∨
    (x.tracked = true ∧ s.target.activeGeneration = w.generation ∧
      (s'.target.activeGeneration = 0 ∨
        x.event.isSome ∧ s'.target = { s.target with closeQueued := true }))
  untracked : x.tracked = false → s.target.activeGeneration = w.generation →
    s.target.closeQueued = true

theorem exited_spec (hroom : s.pendingHostWindowEvents.length < kMaximumPendingHostWindowEvents)
    (hgen : w.generation ≠ 0)
    (hsource : s.target.activeGeneration = w.generation → s.target.activeSource = w.source) :
    ∃ x, Exited s w (s.hostWindowExited w) x := by
  cases htracked : s.target.activeGeneration == w.generation && !s.target.closeQueued with
  | false =>
    refine ⟨⟨w, false⟩, ?_⟩
    have hs : s.hostWindowExited w = { s with exits := s.exits ++ [⟨w, false⟩] } := by
      simp only [Shared.hostWindowExited, htracked, Bool.not_false, if_true]
    rw [hs]
    refine ⟨rfl, rfl, ?_, ?_, rfl, rfl, rfl, rfl, rfl, .inl ⟨rfl, rfl⟩, fun _ hactive => ?_⟩
    · simp [WindowExit.event]
    · simp [WindowExit.event]
    · simpa [hactive] using htracked
  | true =>
    have hactive : s.target.activeGeneration = w.generation := by
      simpa using (Bool.and_eq_true_iff.1 htracked).1
    refine ⟨⟨w, true⟩, ?_⟩
    cases hc : closeEvent s.target.activeSource with
    | none =>
      have hw : closeEvent w.source = none := hsource hactive ▸ hc
      have hs : s.hostWindowExited w = { s with
          exits := s.exits ++ [⟨w, true⟩]
          target := { s.target with activeGeneration := 0, browserLoginFallback := false } } := by
        simp only [Shared.hostWindowExited, htracked, hc, Bool.not_true,
          Bool.false_eq_true, if_false]
      rw [hs]
      refine ⟨rfl, rfl, ?_, ?_, rfl, rfl, rfl, rfl, rfl, .inr ⟨rfl, hactive, .inl rfl⟩, nofun⟩
      · simp [WindowExit.event, hw]
      · simp [WindowExit.event, hw]
    | some type =>
      have hw : closeEvent w.source = some type := hsource hactive ▸ hc
      have hs : s.hostWindowExited w = { s with
          exits := s.exits ++ [⟨w, true⟩]
          target := { s.target with closeQueued := true }
          pendingHostWindowEvents := s.pendingHostWindowEvents ++ [⟨type, w.generation, []⟩]
          queued := s.queued ++ [⟨type, w.generation, []⟩] } := by
        simp only [Shared.hostWindowExited, htracked, hc, Bool.not_true,
          Bool.false_eq_true, if_false,
          Shared.queueHostWindowEvent, if_neg hgen]
        rw [push_spec]
        exact hroom
      rw [hs]
      refine ⟨rfl, rfl, ?_, ?_, rfl, rfl, rfl, rfl, rfl, .inr ⟨rfl, hactive, .inr ⟨?_, rfl⟩⟩, nofun⟩
      · simp [WindowExit.event, hw]
      · simp [WindowExit.event, hw]
      · simp [WindowExit.event, hw]

theorem closeEvent_closing {n : Nat} {userId : Utf8.Bytes} {source : OpenSource}
    {type : HostWindowEventType} (h : closeEvent source = some type) :
    (⟨type, n, userId⟩ : PendingHostWindowEvent).closing := by
  cases source <;> cases h <;> rfl

theorem event_spec (h : x.event = some event) :
    x.tracked = true ∧ event.closing ∧ event.generation = x.window.generation := by
  unfold WindowExit.event at h
  split at h
  · next htracked =>
    obtain ⟨type, htype, rfl⟩ := Option.map_eq_some_iff.1 h
    exact ⟨htracked, closeEvent_closing htype, rfl⟩
  · cases h

end Spec

/-! The windows. -/

/-- What an open that the sink has not accepted puts back if it is refused. -/
def Place.saved : Place → Option (HostWindow × HostWindowCloseTarget)
  | dispatchOpen w _ previous | restore w previous _ => some (w, previous)
  | _ => none

variable {τ : Type*} [DecidableEq τ] {nativeLogin : Option String}
  {st st' : State τ} {a : τ × Act} {t : τ}
  {s' : Shared} {place' : Place} {w : HostWindow}

/-- Generations tell windows apart, and each window is at one point of its life. -/
structure Windows (st : State τ) : Prop where
  next : st.shared.nextHostWindowGeneration ≠ 0
  bound : ∀ w ∈ st.shared.begun, w.generation ≠ 0 ∧
    w.generation < st.shared.nextHostWindowGeneration
  unique : ∀ w ∈ st.shared.begun, ∀ v ∈ st.shared.begun, w.generation = v.generation → w = v
  opening : ∀ t w, (st.own t).opening = some w → w ∈ st.shared.begun ∧ w ∉ st.shared.accepted
  apart : ∀ t u w, (st.own t).opening = some w → (st.own u).opening = some w → t = u
  placed : ∀ t w previous, (st.own t).saved = some (w, previous) → w ∈ st.shared.tracks
  accepted : ∀ w ∈ st.shared.accepted, w ∈ st.shared.begun ∧ w ∈ st.shared.tracks
  unfocusing : ∀ t w, (st.own t).unfocusing = some w → st.shared.Running w ∧ w.source.takesFocus
  alone : ∀ t u w, (st.own t).unfocusing = some w → (st.own u).unfocusing = some w → t = u
  exits : ∀ x ∈ st.shared.exits, x.window ∈ st.shared.accepted
  once : (st.shared.exits.map (·.window)).Nodup

/-- A step that leaves the windows where they are. -/
theorem Windows.frame (h : Windows st)
    (hnext : s'.nextHostWindowGeneration = st.shared.nextHostWindowGeneration)
    (hbegun : s'.begun = st.shared.begun) (htracks : st.shared.tracks ⊆ s'.tracks)
    (haccepted : s'.accepted = st.shared.accepted) (hexits : s'.exits = st.shared.exits)
    (hopening : ∀ w, place'.opening = some w → (st.own t).opening = some w)
    (hplaced : ∀ w previous, place'.saved = some (w, previous) → w ∈ s'.tracks)
    (hunfocusing : ∀ w, place'.unfocusing = some w → (st.own t).unfocusing = some w) :
    Windows (st.set t s' place') := by
  have hrunning : ∀ w, st.shared.Running w → s'.Running w := by
    intro w hw
    rw [Shared.Running, haccepted, hexits]
    exact hw
  have hsub (f : Place → Option HostWindow) (hf : ∀ w, f place' = some w →
      f (st.own t) = some w) (u : τ)
      (w : HostWindow) (hu : f ((st.set t s' place').own u) = some w) : f (st.own u) = some w := by
    by_cases hut : u = t
    · subst hut
      rw [System.set_own_self] at hu
      exact hf w hu
    · rwa [System.set_own_of_ne hut] at hu
  refine ⟨(hnext ▸ h.next : s'.nextHostWindowGeneration ≠ 0), ?_, ?_, ?_,
    ?_, ?_, ?_, ?_, ?_, ?_, ?_⟩
  · rw [System.set_shared, hnext, hbegun]
    exact h.bound
  · rw [System.set_shared, hbegun]
    exact h.unique
  · intro u w hu
    rw [System.set_shared, hbegun, haccepted]
    exact h.opening u w (hsub _ hopening u w hu)
  · intro u v w hu hv
    exact h.apart u v w (hsub _ hopening u w hu) (hsub _ hopening v w hv)
  · refine (System.forall_set (P := fun _ place => ∀ w previous,
      Place.saved place = some (w, previous) →
      w ∈ s'.tracks)).2 ⟨hplaced, fun u _ w previous hu => htracks (h.placed u w previous hu)⟩
  · rw [System.set_shared, hbegun, haccepted]
    exact fun w hw => ⟨(h.accepted w hw).1, htracks (h.accepted w hw).2⟩
  · intro u w hu
    obtain ⟨hw, hfocus⟩ := h.unfocusing u w (hsub _ hunfocusing u w hu)
    exact ⟨hrunning w hw, hfocus⟩
  · intro u v w hu hv
    exact h.alone u v w (hsub _ hunfocusing u w hu) (hsub _ hunfocusing v w hv)
  · rw [System.set_shared, hexits, haccepted]
    exact h.exits
  · rw [System.set_shared, hexits]
    exact h.once

/-- A window gets its generation. -/
theorem Windows.begin (h : Windows st) (hw : w.generation = st.shared.nextHostWindowGeneration)
    (hnext : s'.nextHostWindowGeneration = st.shared.nextHostWindowGeneration + 1)
    (hbegun : s'.begun = st.shared.begun ++ [w]) (htracks : s'.tracks = st.shared.tracks)
    (haccepted : s'.accepted = st.shared.accepted) (hexits : s'.exits = st.shared.exits)
    (hopening : place'.opening = some w) (hplaced : place'.saved = none)
    (hunfocusing : place'.unfocusing = none) :
    Windows (st.set t s' place') := by
  have hfresh : w ∉ st.shared.begun := fun hin => (h.bound w hin).2.ne hw
  have hne : ∀ v ∈ st.shared.begun, v.generation ≠ w.generation := fun v hv => by
    have := (h.bound v hv).2
    omega
  have hother : ∀ u v, (st.own u).opening = some v → v ≠ w := by
    rintro u v hu rfl
    exact hfresh (h.opening u v hu).1
  refine ⟨(hnext ▸ Nat.succ_ne_zero _ : s'.nextHostWindowGeneration ≠ 0), ?_, ?_, ?_,
    ?_, ?_, ?_, ?_, ?_, ?_, ?_⟩
  · rw [System.set_shared, hbegun, hnext]
    intro v hv
    rcases List.mem_append.1 hv with hv | hv
    · exact ⟨(h.bound v hv).1, (h.bound v hv).2.trans (Nat.lt_succ_self _)⟩
    · obtain rfl := List.mem_singleton.1 hv
      exact ⟨hw ▸ h.next, by omega⟩
  · rw [System.set_shared, hbegun]
    intro u hu v hv heq
    rcases List.mem_append.1 hu with hu | hu <;> rcases List.mem_append.1 hv with hv | hv
    · exact h.unique u hu v hv heq
    · rw [List.mem_singleton.1 hv] at heq
      exact absurd heq (hne u hu)
    · rw [List.mem_singleton.1 hu] at heq
      exact absurd heq.symm (hne v hv)
    · exact (List.mem_singleton.1 hu).trans (List.mem_singleton.1 hv).symm
  · rw [System.set_shared, hbegun, haccepted]
    refine (System.forall_set (P := fun _ place => ∀ v, Place.opening place = some v →
      v ∈ st.shared.begun ++ [w] ∧ v ∉ st.shared.accepted)).2 ⟨fun v hv => ?_, fun u _ v hu => ?_⟩
    · obtain rfl : w = v := by simpa [hopening] using hv
      exact ⟨List.mem_append_right _ (List.mem_singleton_self _), fun hin =>
        hfresh (h.accepted _ hin).1⟩
    · exact ⟨List.mem_append_left _ (h.opening u v hu).1, (h.opening u v hu).2⟩
  · intro u v x hu hv
    by_cases hut : u = t <;> by_cases hvt : v = t
    · exact hut.trans hvt.symm
    · subst hut
      rw [System.set_own_self, hopening] at hu
      rw [System.set_own_of_ne hvt] at hv
      exact absurd (Option.some.inj hu).symm (hother v x hv)
    · subst hvt
      rw [System.set_own_self, hopening] at hv
      rw [System.set_own_of_ne hut] at hu
      exact absurd (Option.some.inj hv).symm (hother u x hu)
    · rw [System.set_own_of_ne hut] at hu
      rw [System.set_own_of_ne hvt] at hv
      exact h.apart u v x hu hv
  · rw [System.set_shared, htracks]
    exact (System.forall_set (P := fun _ place => ∀ v previous,
      Place.saved place = some (v, previous) →
      v ∈ st.shared.tracks)).2
        ⟨fun v previous hv => (nomatch hplaced.symm.trans hv), fun u _ => h.placed u⟩
  · rw [System.set_shared, hbegun, haccepted, htracks]
    exact fun v hv => ⟨List.mem_append_left _ (h.accepted v hv).1, (h.accepted v hv).2⟩
  · simp only [System.set_shared, Shared.Running, haccepted, hexits]
    exact (System.forall_set (P := fun _ place => ∀ v, Place.unfocusing place = some v →
      st.shared.Running v ∧ v.source.takesFocus)).2
      ⟨fun v hv => (nomatch hunfocusing.symm.trans hv), fun u _ => h.unfocusing u⟩
  · intro u v x hu hv
    by_cases hut : u = t
    · subst hut
      rw [System.set_own_self] at hu
      exact (nomatch hunfocusing.symm.trans hu)
    · by_cases hvt : v = t
      · subst hvt
        rw [System.set_own_self] at hv
        exact (nomatch hunfocusing.symm.trans hv)
      · rw [System.set_own_of_ne hut] at hu
        rw [System.set_own_of_ne hvt] at hv
        exact h.alone u v x hu hv
  · rw [System.set_shared, hexits, haccepted]
    exact h.exits
  · rw [System.set_shared, hexits]
    exact h.once

/-- The sink accepts an open. -/
theorem Windows.accept (h : Windows st) {previous : HostWindowCloseTarget}
    (hopening : (st.own t).opening = some w) (hsaved : (st.own t).saved = some (w, previous))
    (hnext : s'.nextHostWindowGeneration = st.shared.nextHostWindowGeneration)
    (hbegun : s'.begun = st.shared.begun) (htracks : s'.tracks = st.shared.tracks)
    (haccepted : s'.accepted = st.shared.accepted ++ [w]) (hexits : s'.exits = st.shared.exits)
    (hopening' : place'.opening = none) (hplaced : place'.saved = none)
    (hunfocusing : ∀ v, place'.unfocusing = some v → v = w ∧ w.source.takesFocus) :
    Windows (st.set t s' place') := by
  obtain ⟨hbegun_w, hnew⟩ := h.opening t w hopening
  have hopenings : ∀ u v, ((st.set t s' place').own u).opening = some v →
      u ≠ t ∧ (st.own u).opening = some v := by
    intro u v hu
    by_cases hut : u = t
    · subst hut
      rw [System.set_own_self, hopening'] at hu
      cases hu
    · rw [System.set_own_of_ne hut] at hu
      exact ⟨hut, hu⟩
  have hrunning : ∀ v, st.shared.Running v → s'.Running v := by
    intro v hv
    rw [Shared.Running, haccepted, hexits]
    exact ⟨List.mem_append_left _ hv.1, hv.2⟩
  have hunfocusings : ∀ u v, ((st.set t s' place').own u).unfocusing = some v →
      u = t ∧ v = w ∧ w.source.takesFocus ∨ u ≠ t ∧ (st.own u).unfocusing = some v := by
    intro u v hu
    by_cases hut : u = t
    · subst hut
      rw [System.set_own_self] at hu
      exact .inl ⟨rfl, hunfocusing v hu⟩
    · rw [System.set_own_of_ne hut] at hu
      exact .inr ⟨hut, hu⟩
  refine ⟨(hnext ▸ h.next : s'.nextHostWindowGeneration ≠ 0), ?_, ?_, ?_,
    ?_, ?_, ?_, ?_, ?_, ?_, ?_⟩
  · rw [System.set_shared, hbegun, hnext]
    exact h.bound
  · rw [System.set_shared, hbegun]
    exact h.unique
  · intro u v hu
    obtain ⟨hut, hu⟩ := hopenings u v hu
    obtain ⟨hv, hnot⟩ := h.opening u v hu
    rw [System.set_shared, hbegun, haccepted]
    refine ⟨hv, fun hin => ?_⟩
    rcases List.mem_append.1 hin with hin | hin
    · exact hnot hin
    · rw [List.mem_singleton.1 hin] at hu
      exact hut (h.apart u t w hu hopening)
  · intro u v x hu hv
    exact h.apart u v x (hopenings u x hu).2 (hopenings v x hv).2
  · rw [System.set_shared, htracks]
    exact (System.forall_set (P := fun _ place => ∀ v previous,
      Place.saved place = some (v, previous) →
      v ∈ st.shared.tracks)).2
        ⟨fun v previous hv => (nomatch hplaced.symm.trans hv), fun u _ => h.placed u⟩
  · rw [System.set_shared, hbegun, haccepted, htracks]
    intro v hv
    rcases List.mem_append.1 hv with hv | hv
    · exact h.accepted v hv
    · rw [List.mem_singleton.1 hv]
      exact ⟨hbegun_w, h.placed t w previous hsaved⟩
  · intro u v hu
    rcases hunfocusings u v hu with ⟨-, rfl, hfocus⟩ | ⟨-, hu⟩
    · refine ⟨?_, hfocus⟩
      rw [System.set_shared, Shared.Running, haccepted, hexits]
      refine ⟨List.mem_append_right _ (List.mem_singleton_self _), fun x hx heq => hnew ?_⟩
      exact heq ▸ h.exits x hx
    · exact ⟨hrunning v (h.unfocusing u v hu).1, (h.unfocusing u v hu).2⟩
  · intro u v x hu hv
    rcases hunfocusings u x hu with ⟨hu, hx, -⟩ | ⟨-, hu⟩ <;>
      rcases hunfocusings v x hv with ⟨hv, hx', -⟩ | ⟨-, hv⟩
    · exact hu.trans hv.symm
    · exact absurd (hx ▸ (h.unfocusing v x hv).1.1) hnew
    · exact absurd (hx' ▸ (h.unfocusing u x hu).1.1) hnew
    · exact h.alone u v x hu hv
  · rw [System.set_shared, hexits, haccepted]
    exact fun x hx => List.mem_append_left _ (h.exits x hx)
  · rw [System.set_shared, hexits]
    exact h.once

/-- A window exits whose `Unfocused` is queued. -/
theorem Windows.exit (h : Windows st) {x : WindowExit} (hw : st.shared.Running w)
    (hunfocusing : ∀ u, (st.own u).unfocusing ≠ some w) (hs : Exited st.shared w s' x) :
    Windows (st.set t s' (.returned {})) := by
  have hown (f : Place → Option HostWindow) (hf : f (.returned {}) = none) (u : τ) (v : HostWindow)
      (hu : f ((st.set t s' (.returned {})).own u) = some v) : f (st.own u) = some v := by
    by_cases hut : u = t
    · subst hut
      rw [System.set_own_self, hf] at hu
      cases hu
    · rwa [System.set_own_of_ne hut] at hu
  refine ⟨(hs.next ▸ h.next : s'.nextHostWindowGeneration ≠ 0), ?_, ?_, ?_,
    ?_, ?_, ?_, ?_, ?_, ?_, ?_⟩
  · rw [System.set_shared, hs.begun, hs.next]
    exact h.bound
  · rw [System.set_shared, hs.begun]
    exact h.unique
  · intro u v hu
    rw [System.set_shared, hs.begun, hs.accepted]
    exact h.opening u v (hown _ rfl u v hu)
  · intro u v y hu hv
    exact h.apart u v y (hown _ rfl u y hu) (hown _ rfl v y hv)
  · rw [System.set_shared, hs.tracks]
    exact (System.forall_set (P := fun _ place => ∀ v previous,
      Place.saved place = some (v, previous) →
      v ∈ st.shared.tracks)).2 ⟨nofun, fun u _ => h.placed u⟩
  · rw [System.set_shared, hs.begun, hs.accepted, hs.tracks]
    exact h.accepted
  · intro u v hu
    have hold := hown _ rfl u v hu
    obtain ⟨hv, hfocus⟩ := h.unfocusing u v hold
    refine ⟨?_, hfocus⟩
    rw [System.set_shared, Shared.Running, hs.accepted, hs.exits]
    refine ⟨hv.1, fun y hy heq => ?_⟩
    rcases List.mem_append.1 hy with hy | hy
    · exact hv.2 y hy heq
    · rw [List.mem_singleton.1 hy, hs.window] at heq
      exact hunfocusing u (heq ▸ hold)
  · intro u v y hu hv
    exact h.alone u v y (hown _ rfl u y hu) (hown _ rfl v y hv)
  · rw [System.set_shared, hs.exits, hs.accepted]
    intro y hy
    rcases List.mem_append.1 hy with hy | hy
    · exact h.exits y hy
    · rw [List.mem_singleton.1 hy, hs.window]
      exact hw.1
  · rw [System.set_shared, hs.exits, List.map_append, List.map_singleton, hs.window]
    refine List.nodup_append.2 ⟨h.once, List.nodup_singleton _, fun y hy v hv heq => ?_⟩
    obtain ⟨x, hx, rfl⟩ := List.mem_map.1 hy
    exact hw.2 x hx (heq.trans (List.mem_singleton.1 hv))

/-! The events that were queued. -/

/-- The last exit of a window that takes the focus. -/
def lastFocusExit (s : Shared) : Option WindowExit :=
  (s.exits.filter (·.window.source.takesFocus)).getLast?

def newestFocus (events : List PendingHostWindowEvent) : Option PendingHostWindowEvent :=
  (events.filter (·.focusEvent)).getLast?

structure Queue (st : State τ) : Prop where
  closes : st.shared.queued.filter (·.closing) = st.shared.exits.filterMap WindowExit.event
  unfocusedOnce : ∀ w, st.shared.queued.count (unfocused w) ≤ 1
  unfocusedFrom : ∀ e ∈ st.shared.queued, e.type = .kDataModelUnfocused →
    ∃ w ∈ st.shared.accepted, e.generation = w.generation
  unfocusedIn : ∀ w ∈ st.shared.accepted, w.source.takesFocus →
    unfocused w ∈ st.shared.queued ∨ ∃ t, (st.own t).unfocusing = some w
  unfocusedOut : ∀ t w, (st.own t).unfocusing = some w → unfocused w ∉ st.shared.queued
  ordered : ∀ before e after, st.shared.queued = before ++ e :: after →
    e.type = .kDataModelFocused →
    ∃ w ∈ st.shared.accepted, e = focused w ∧ unfocused w ∈ before
  /-- The game is left without the focus only while a window is to give it back. -/
  newest : ∀ e, newestFocus st.shared.queued = some e → e.type = .kDataModelUnfocused →
    (∃ w, st.shared.Running w ∧ w.source.takesFocus) ∨ ∃ x, lastFocusExit st.shared = some x ∧
      x.tracked = false

/-- Events queued behind leave each `Unfocused` of the other threads in the queue or to come. -/
theorem Queue.unfocusedIn_append (h : Queue st) (events : List PendingHostWindowEvent)
    (hplace : (st.own t).unfocusing ≠ some w) (hw : w ∈ st.shared.accepted)
    (hfocus : w.source.takesFocus) : unfocused w ∈ st.shared.queued ++ events ∨
      ∃ u, ((st.set t s' place').own u).unfocusing = some w := by
  rcases h.unfocusedIn w hw hfocus with hin | ⟨u, hu⟩
  · exact .inl (List.mem_append_left _ hin)
  · have hut : u ≠ t := by
      rintro rfl
      exact hplace hu
    refine .inr ⟨u, ?_⟩
    rwa [System.set_own_of_ne hut]

/-- A step that queues nothing: at most it accepts the window whose `Unfocused` it is to queue. -/
theorem Queue.frame (h : Queue st) (hqueued : s'.queued = st.shared.queued)
    (hexits : s'.exits = st.shared.exits)
    (hsub : st.shared.accepted ⊆ s'.accepted)
    (haccepted : ∀ v ∈ s'.accepted, v ∈ st.shared.accepted ∨
      (v.source.takesFocus → place'.unfocusing = some v))
    (hnew : ∀ v, place'.unfocusing = some v → (st.own t).unfocusing = some v ∨
      unfocused v ∉ st.shared.queued)
    (hkept : ∀ v, (st.own t).unfocusing = some v → place'.unfocusing = some v) :
    Queue (st.set t s' place') := by
  refine ⟨?_, ?_, ?_, ?_, ?_, ?_, ?_⟩
  · rw [System.set_shared, hqueued, hexits]
    exact h.closes
  · rw [System.set_shared, hqueued]
    exact h.unfocusedOnce
  · rw [System.set_shared, hqueued]
    intro e he htype
    obtain ⟨v, hv, hgen⟩ := h.unfocusedFrom e he htype
    exact ⟨v, hsub hv, hgen⟩
  · rw [System.set_shared, hqueued]
    intro v hv hfocus
    rcases haccepted v hv with hold | hplace
    · rcases h.unfocusedIn v hold hfocus with hin | ⟨u, hu⟩
      · exact .inl hin
      · refine .inr ⟨u, ?_⟩
        by_cases hut : u = t
        · subst hut
          rw [System.set_own_self]
          exact hkept v hu
        · rwa [System.set_own_of_ne hut]
    · refine .inr ⟨t, ?_⟩
      rw [System.set_own_self]
      exact hplace hfocus
  · rw [System.set_shared, hqueued]
    refine (System.forall_set (P := fun _ place => ∀ v, Place.unfocusing place = some v →
      unfocused v ∉ st.shared.queued)).2 ⟨fun v hv => ?_, fun u _ => h.unfocusedOut u⟩
    rcases hnew v hv with hold | hout
    · exact h.unfocusedOut t v hold
    · exact hout
  · rw [System.set_shared, hqueued]
    intro before e after heq htype
    obtain ⟨v, hv, he⟩ := h.ordered before e after heq htype
    exact ⟨v, hsub hv, he⟩
  · simp only [System.set_shared, hqueued, lastFocusExit, hexits]
    intro e he htype
    rcases h.newest e he htype with ⟨v, hv, hfocus⟩ | hlast
    · refine .inl ⟨v, ?_, hfocus⟩
      rw [Shared.Running, hexits]
      exact ⟨hsub hv.1, hv.2⟩
    · exact .inr hlast

theorem newestFocus_append (events : List PendingHostWindowEvent) (e : PendingHostWindowEvent) :
    newestFocus (events ++ [e]) = if e.focusEvent then some e else newestFocus events := by
  unfold newestFocus
  rw [List.filter_append]
  by_cases he : e.focusEvent = true
  · simp [he]
  · simp [he]

/-- The `Unfocused` of an accepted window is queued. -/
theorem Queue.unfocus (h : Queue st) (hw : Windows st) (hplace : (st.own t).unfocusing = some w)
    (hqueued : s'.queued = st.shared.queued ++ [unfocused w]) (hexits : s'.exits = st.shared.exits)
    (haccepted : s'.accepted = st.shared.accepted) (hplace' : place'.unfocusing = none) :
    Queue (st.set t s' place') := by
  obtain ⟨hrunning, hfocus⟩ := hw.unfocusing t w hplace
  have hout := h.unfocusedOut t w hplace
  refine ⟨?_, ?_, ?_, ?_, ?_, ?_, ?_⟩
  · have hnot : ([unfocused w].filter (·.closing)) = [] := rfl
    rw [System.set_shared, hqueued, hexits, List.filter_append, hnot, List.append_nil]
    exact h.closes
  · intro v
    rw [System.set_shared, hqueued, List.count_append, List.count_singleton]
    have hv := h.unfocusedOnce v
    split
    · next heq =>
      rw [← beq_iff_eq.1 heq, List.count_eq_zero_of_not_mem hout]
    · omega
  · rw [System.set_shared, hqueued, haccepted]
    intro e he htype
    rcases List.mem_append.1 he with he | he
    · exact h.unfocusedFrom e he htype
    · rw [List.mem_singleton.1 he]
      exact ⟨w, hrunning.1, rfl⟩
  · rw [System.set_shared, hqueued, haccepted]
    intro v hv hvfocus
    by_cases hvw : v = w
    · subst hvw
      exact .inl (List.mem_append_right _ (List.mem_singleton_self _))
    · exact h.unfocusedIn_append _
        (fun hu => hvw (Option.some.inj (hu.symm.trans hplace))) hv hvfocus
  · rw [System.set_shared, hqueued]
    refine (System.forall_set (P := fun _ place => ∀ v, Place.unfocusing place = some v →
      unfocused v ∉ st.shared.queued ++ [unfocused w])).2
      ⟨fun v hv => (nomatch hplace'.symm.trans hv), fun u hut v hu hin => ?_⟩
    rcases List.mem_append.1 hin with hin | hin
    · exact h.unfocusedOut u v hu hin
    · have hgen : v.generation = w.generation :=
        congrArg PendingHostWindowEvent.generation (List.mem_singleton.1 hin)
      have hvbegun := (hw.accepted v (hw.unfocusing u v hu).1.1).1
      obtain rfl := hw.unique v hvbegun w (hw.accepted w hrunning.1).1 hgen
      exact hut (hw.alone u t v hu hplace)
  · rw [System.set_shared, hqueued, haccepted]
    refine Signal.forall_split_snoc (P := fun before e => e.type = .kDataModelFocused →
      ∃ v ∈ st.shared.accepted, e = focused v ∧ unfocused v ∈ before) h.ordered fun htype => ?_
    cases htype
  · intro e he htype
    refine .inl ⟨w, ?_, hfocus⟩
    rw [System.set_shared, Shared.Running, haccepted, hexits]
    exact hrunning

/-- Another event is queued. -/
theorem Queue.other (h : Queue st) {event : PendingHostWindowEvent}
    (hevent : event.type = .kStartConversationWithUser)
    (hqueued : s'.queued = st.shared.queued ++ [event]) (hexits : s'.exits = st.shared.exits)
    (haccepted : s'.accepted = st.shared.accepted) (hplace : ∀ v, (st.own t).unfocusing ≠ some v)
    (hplace' : place'.unfocusing = none) : Queue (st.set t s' place') := by
  have hne : ∀ v, event ≠ unfocused v := by
    rintro v rfl
    cases hevent
  refine ⟨?_, ?_, ?_, ?_, ?_, ?_, ?_⟩
  · have hnot : ([event].filter (·.closing)) = [] := by
      simp [PendingHostWindowEvent.closing, hevent]
    rw [System.set_shared, hqueued, hexits, List.filter_append, hnot, List.append_nil]
    exact h.closes
  · intro v
    rw [System.set_shared, hqueued, List.count_append, List.count_singleton,
      if_neg (by simpa using hne v)]
    exact h.unfocusedOnce v
  · rw [System.set_shared, hqueued, haccepted]
    intro e he htype
    rcases List.mem_append.1 he with he | he
    · exact h.unfocusedFrom e he htype
    · rw [List.mem_singleton.1 he, hevent] at htype
      cases htype
  · rw [System.set_shared, hqueued, haccepted]
    exact fun v hv hvfocus => h.unfocusedIn_append _ (hplace v) hv hvfocus
  · rw [System.set_shared, hqueued]
    refine (System.forall_set (P := fun _ place => ∀ v, Place.unfocusing place = some v →
      unfocused v ∉ st.shared.queued ++ [event])).2
      ⟨fun v hv => (nomatch hplace'.symm.trans hv), fun u _ v hu hin => ?_⟩
    rcases List.mem_append.1 hin with hin | hin
    · exact h.unfocusedOut u v hu hin
    · exact hne v (List.mem_singleton.1 hin).symm
  · rw [System.set_shared, hqueued, haccepted]
    refine Signal.forall_split_snoc (P := fun before e => e.type = .kDataModelFocused →
      ∃ v ∈ st.shared.accepted, e = focused v ∧ unfocused v ∈ before) h.ordered fun htype => ?_
    rw [hevent] at htype
    cases htype
  · have hnot : event.focusEvent = false := by simp [PendingHostWindowEvent.focusEvent, hevent]
    simp only [System.set_shared, hqueued, newestFocus_append, hnot, Bool.false_eq_true,
      if_false, lastFocusExit,
      Shared.Running, haccepted, hexits]
    exact h.newest

theorem closeEvent_focused {source : OpenSource} (h : closeEvent source = some .kDataModelFocused) :
    source.takesFocus = true := by
  cases source <;> first | rfl | cases h

theorem closeEvent_unfocused {source : OpenSource} :
    closeEvent source ≠ some .kDataModelUnfocused := by
  cases source <;> nofun

theorem closeEvent_of_takesFocus {source : OpenSource} (h : source.takesFocus = true) :
    closeEvent source = some .kDataModelFocused := by
  cases source <;> first | rfl | cases h

theorem event_type {x : WindowExit} {e : PendingHostWindowEvent} (h : x.event = some e) :
    ∃ type, closeEvent x.window.source = some type ∧ e = ⟨type, x.window.generation, []⟩ := by
  unfold WindowExit.event at h
  split at h
  · obtain ⟨type, htype, rfl⟩ := Option.map_eq_some_iff.1 h
    exact ⟨type, htype, rfl⟩
  · cases h

theorem lastFocusExit_append (exits : List WindowExit) (x : WindowExit) :
    ((exits ++ [x]).filter (·.window.source.takesFocus)).getLast? =
      if x.window.source.takesFocus then some x
      else (exits.filter (·.window.source.takesFocus)).getLast? := by
  rw [List.filter_append]
  by_cases hx : x.window.source.takesFocus = true
  · simp [hx]
  · simp [hx]

/-- Who is to give the focus back does not change with the exit of another window. -/
theorem Exited.returned {s : Shared} {x : WindowExit} (hs : Exited s w s' x)
    (hfocus : w.source.takesFocus = false)
    (h : (∃ v, s.Running v ∧ v.source.takesFocus) ∨ ∃ y,
      lastFocusExit s = some y ∧ y.tracked = false) :
    (∃ v, s'.Running v ∧ v.source.takesFocus) ∨
      ∃ y, lastFocusExit s' = some y ∧ y.tracked = false := by
  rcases h with ⟨v, hv, hvfocus⟩ | hold
  · refine .inl ⟨v, ?_, hvfocus⟩
    rw [Shared.Running, hs.accepted, hs.exits]
    refine ⟨hv.1, fun y hy heq => ?_⟩
    rcases List.mem_append.1 hy with hy | hy
    · exact hv.2 y hy heq
    · rw [List.mem_singleton.1 hy, hs.window] at heq
      rw [← heq, hfocus] at hvfocus
      cases hvfocus
  · refine .inr ?_
    rw [lastFocusExit, hs.exits, lastFocusExit_append, hs.window, hfocus]
    exact hold

/-- A window exits. -/
theorem Queue.exit (h : Queue st) {x : WindowExit} (hw : st.shared.Running w)
    (hunfocusing : ∀ u, (st.own u).unfocusing ≠ some w) (hs : Exited st.shared w s' x)
    (hplace : ∀ v, (st.own t).unfocusing ≠ some v) : Queue (st.set t s' (.returned {})) := by
  have hevent : ∀ e ∈ x.event.toList, e.closing ∧ ∃ type, closeEvent w.source = some type ∧
      e = ⟨type, w.generation, []⟩ := by
    intro e he
    have hsome := Option.mem_toList.1 he
    refine ⟨(event_spec hsome).2.1, ?_⟩
    rw [← hs.window]
    exact event_type hsome
  have hne : ∀ v, unfocused v ∉ x.event.toList := by
    intro v hv
    obtain ⟨-, type, htype, heq⟩ := hevent _ hv
    exact closeEvent_unfocused (htype.trans (congrArg (some ·.type) heq.symm))
  refine ⟨?_, ?_, ?_, ?_, ?_, ?_, ?_⟩
  · have hall : x.event.toList.filter (·.closing) = x.event.toList :=
      List.filter_eq_self.2 fun e he => (hevent e he).1
    have hmap : [x].filterMap WindowExit.event = x.event.toList := by
      cases hx : x.event <;> simp [hx]
    rw [System.set_shared, hs.queued, hs.exits, List.filter_append,
      List.filterMap_append, hall, hmap, h.closes]
  · intro v
    rw [System.set_shared, hs.queued, List.count_append, List.count_eq_zero_of_not_mem (hne v)]
    exact h.unfocusedOnce v
  · rw [System.set_shared, hs.queued, hs.accepted]
    intro e he htype
    rcases List.mem_append.1 he with he | he
    · exact h.unfocusedFrom e he htype
    · obtain ⟨-, type, hclose, rfl⟩ := hevent e he
      obtain rfl : type = .kDataModelUnfocused := htype
      exact absurd hclose closeEvent_unfocused
  · rw [System.set_shared, hs.queued, hs.accepted]
    exact fun v hv hvfocus => h.unfocusedIn_append _ (hplace v) hv hvfocus
  · rw [System.set_shared, hs.queued]
    refine (System.forall_set (P := fun _ place => ∀ v, Place.unfocusing place = some v →
      unfocused v ∉ st.shared.queued ++ x.event.toList)).2 ⟨nofun, fun u _ v hu hin => ?_⟩
    rcases List.mem_append.1 hin with hin | hin
    · exact h.unfocusedOut u v hu hin
    · exact hne v hin
  · rw [System.set_shared, hs.queued, hs.accepted]
    cases hx : x.event with
    | none =>
      rw [Option.toList_none, List.append_nil]
      exact h.ordered
    | some event =>
      refine Signal.forall_split_snoc (P := fun before e => e.type = .kDataModelFocused →
        ∃ v ∈ st.shared.accepted, e = focused v ∧ unfocused v ∈ before) h.ordered fun htype => ?_
      obtain ⟨-, type, hclose, rfl⟩ := hevent event (by rw [hx]; exact List.mem_singleton_self _)
      obtain rfl : type = .kDataModelFocused := htype
      refine ⟨w, hw.1, rfl, ?_⟩
      rcases h.unfocusedIn w hw.1 (closeEvent_focused hclose) with hin | ⟨u, hu⟩
      · exact hin
      · exact absurd hu (hunfocusing u)
  · rw [System.set_shared, hs.queued]
    intro e he htype
    have hlast := lastFocusExit_append st.shared.exits x
    rw [hs.window] at hlast
    cases hx : x.event with
    | none =>
      rw [hx, Option.toList_none, List.append_nil] at he
      cases hfocus : w.source.takesFocus with
      | true =>
        -- An exit without an event, of a window that takes the focus, was not tracked.
        refine .inr ⟨x, ?_, ?_⟩
        · rw [lastFocusExit, hs.exits, hlast, if_pos hfocus]
        · cases htracked : x.tracked with
          | false => rfl
          | true =>
            rw [WindowExit.event, if_pos htracked, hs.window, closeEvent_of_takesFocus hfocus] at hx
            cases hx
      | false =>
        exact hs.returned hfocus (h.newest e he htype)
    | some event =>
      rw [hx, Option.toList_some, newestFocus_append] at he
      obtain ⟨-, type, hclose, rfl⟩ := hevent event (by rw [hx]; exact List.mem_singleton_self _)
      split at he
      · cases he
        obtain rfl : type = .kDataModelUnfocused := htype
        exact absurd hclose closeEvent_unfocused
      · next hnot =>
        have hfocus : w.source.takesFocus = false := by
          cases hfocus : w.source.takesFocus with
          | false => rfl
          | true =>
            rw [closeEvent_of_takesFocus hfocus] at hclose
            cases hclose
            exact absurd rfl hnot
        exact hs.returned hfocus (h.newest e he htype)

/-! The events on their way. -/

structure Delivery (st : State τ) : Prop where
  alone : ∀ t u, (st.own t).held ≠ [] → (st.own u).held ≠ [] → t = u
  idle : (∀ t, (st.own t).held = []) →
    st.shared.queued = st.shared.told ++ st.shared.pendingHostWindowEvents
  busy : ∀ t, (st.own t).held ≠ [] →
    st.shared.queued = st.shared.told ++ (st.own t).held ++ st.shared.pendingHostWindowEvents
  clearing : ∀ t e, (st.own t).clearing = some e → e ∈ st.shared.told ∧ e.closing

/-- Events are queued, or none. -/
theorem Delivery.append (h : Delivery st) (es : List PendingHostWindowEvent)
    (hqueued : s'.queued = st.shared.queued ++ es)
    (hpending : s'.pendingHostWindowEvents = st.shared.pendingHostWindowEvents ++ es)
    (htold : s'.told = st.shared.told) (hheld : place'.held = (st.own t).held)
    (hclearing : place'.clearing = none) : Delivery (st.set t s' place') := by
  have hown : ∀ u, ((st.set t s' place').own u).held = (st.own u).held := by
    intro u
    by_cases hut : u = t
    · subst hut
      rw [System.set_own_self, hheld]
    · rw [System.set_own_of_ne hut]
  refine ⟨?_, ?_, ?_, ?_⟩
  · intro u v hu hv
    rw [hown] at hu hv
    exact h.alone u v hu hv
  · intro hall
    rw [System.set_shared, hqueued, hpending, htold, h.idle fun u => (hown u).symm.trans (hall u),
      List.append_assoc]
  · intro u hu
    rw [hown] at hu ⊢
    rw [System.set_shared, hqueued, hpending, htold, h.busy u hu, List.append_assoc]
  · rw [System.set_shared, htold]
    exact (System.forall_set (P := fun _ place => ∀ e, Place.clearing place = some e →
      e ∈ st.shared.told ∧ e.closing)).2 ⟨fun e he => (nomatch hclearing.symm.trans he),
        fun u _ => h.clearing u⟩

/-- A drain that nobody else runs takes the events. -/
theorem Delivery.take (h : Delivery st) (hnone : ∀ u, (st.own u).held = [])
    (hqueued : s'.queued = st.shared.queued) (htold : s'.told = st.shared.told)
    (hpending : place'.held ++ s'.pendingHostWindowEvents = st.shared.pendingHostWindowEvents)
    (hclearing : place'.clearing = none) : Delivery (st.set t s' place') := by
  have hat : ∀ u, ((st.set t s' place').own u).held ≠ [] → u = t := by
    intro u hu
    by_contra hut
    rw [System.set_own_of_ne hut] at hu
    exact hu (hnone u)
  have hidle := h.idle hnone
  refine ⟨?_, ?_, ?_, ?_⟩
  · intro u v hu hv
    exact (hat u hu).trans (hat v hv).symm
  · intro hall
    have hempty := hall t
    rw [System.set_own_self] at hempty
    rw [hempty, List.nil_append] at hpending
    rw [System.set_shared, hqueued, htold, hpending, hidle]
  · intro u hu
    obtain rfl := hat u hu
    rw [System.set_own_self, System.set_shared, hqueued, htold, List.append_assoc, hpending, hidle]
  · rw [System.set_shared, htold]
    exact (System.forall_set (P := fun _ place => ∀ e, Place.clearing place = some e →
      e ∈ st.shared.told ∧ e.closing)).2 ⟨fun e he => (nomatch hclearing.symm.trans he),
        fun u _ => h.clearing u⟩

/-- A drain works on the events it holds. -/
theorem Delivery.work (h : Delivery st) (hholds : (st.own t).held ≠ [])
    (hqueued : s'.queued = st.shared.queued)
    (hmoved : s'.told ++ place'.held ++ s'.pendingHostWindowEvents =
      st.shared.told ++ (st.own t).held ++ st.shared.pendingHostWindowEvents)
    (htold : st.shared.told ⊆ s'.told)
    (hclearing : ∀ e, place'.clearing = some e → e ∈ s'.told ∧ e.closing) :
    Delivery (st.set t s' place') := by
  have hat : ∀ u, ((st.set t s' place').own u).held ≠ [] → u = t := by
    intro u hu
    by_contra hut
    rw [System.set_own_of_ne hut] at hu
    exact hut (h.alone u t hu hholds)
  have hbusy := h.busy t hholds
  refine ⟨?_, ?_, ?_, ?_⟩
  · intro u v hu hv
    exact (hat u hu).trans (hat v hv).symm
  · intro hall
    have hempty := hall t
    rw [System.set_own_self] at hempty
    rw [hempty, List.append_nil] at hmoved
    rw [System.set_shared, hqueued, hmoved, hbusy]
  · intro u hu
    obtain rfl := hat u hu
    rw [System.set_own_self, System.set_shared, hqueued, hmoved, hbusy]
  · exact (System.forall_set (P := fun _ place => ∀ e, Place.clearing place = some e →
      e ∈ s'.told ∧ e.closing)).2
      ⟨hclearing, fun u _ e he => ⟨htold (h.clearing u e he).1, (h.clearing u e he).2⟩⟩

/-! The slot. -/

/-- The window in the slot is still opening, or running, or its close is on its way. -/
def Tracked (st : State τ) (target : HostWindowCloseTarget) : Prop :=
  if target.closeQueued then
    ∃ e, e.closing ∧ e.generation = target.activeGeneration ∧ Undelivered st e
  else
    (∃ u w, (st.own u).opening = some w ∧ w.generation = target.activeGeneration) ∨
      ∃ w, st.shared.Running w ∧ w.generation = target.activeGeneration

structure Tracking (st : State τ) : Prop where
  slot : st.shared.target.activeGeneration = 0 ∨ Tracked st st.shared.target
  slotBegun : st.shared.target.activeGeneration ≠ 0 →
    ⟨st.shared.target.activeGeneration, st.shared.target.activeSource⟩ ∈ st.shared.begun
  savedBegun : ∀ t w previous, (st.own t).saved = some (w, previous) →
    previous.activeGeneration ≠ 0 →
    ⟨previous.activeGeneration, previous.activeSource⟩ ∈ st.shared.begun
  /-- Nothing has taken the slot from the window tracked last. -/
  last : ∀ w, st.shared.tracks.getLast? = some w →
    (∃ t previous, (st.own t).saved = some (w, previous)) ∨ st.shared.Running w →
      st.shared.target.activeGeneration = w.generation
  exits : ∀ x ∈ st.shared.exits, x.tracked = false →
    ∃ before w after, st.shared.tracks = before ++ x.window :: w :: after

/-- A step after which the same window is in the slot, for the same reason. -/
theorem Tracked.frame {target : HostWindowCloseTarget} (h : Tracked st target)
    (hrunning : ∀ v, st.shared.Running v → v.generation = target.activeGeneration → s'.Running v)
    (hopening : ∀ v, (st.own t).opening = some v → v.generation = target.activeGeneration →
      place'.opening = some v ∨ s'.Running v)
    (hundelivered : ∀ e, e.closing → e.generation = target.activeGeneration →
      e ∈ st.shared.pendingHostWindowEvents ∨ e ∈ (st.own t).held ∨ (st.own t).clearing = some e →
        e ∈ s'.pendingHostWindowEvents ∨ e ∈ place'.held ∨ place'.clearing = some e) :
    Tracked (st.set t s' place') target := by
  unfold Tracked at h ⊢
  split at h
  · next hclose =>
    rw [if_pos hclose]
    obtain ⟨e, he, hgen, hon⟩ := h
    refine ⟨e, he, hgen, ?_⟩
    have hkept := hundelivered e he hgen
    have hof : (e ∈ s'.pendingHostWindowEvents ∨ e ∈ place'.held ∨ place'.clearing = some e) →
        Undelivered (st.set t s' place') e := by
      rintro (hpending | hheld)
      · exact .inl hpending
      · refine .inr ⟨t, ?_⟩
        rwa [System.set_own_self]
    rcases hon with hpending | ⟨u, hu⟩
    · exact hof (hkept (.inl hpending))
    · by_cases hut : u = t
      · subst hut
        exact hof (hkept (.inr hu))
      · refine .inr ⟨u, ?_⟩
        rwa [System.set_own_of_ne hut]
  · next hclose =>
    rw [if_neg hclose]
    rcases h with ⟨u, v, hu, hgen⟩ | ⟨v, hv, hgen⟩
    · by_cases hut : u = t
      · subst hut
        rcases hopening v hu hgen with hopen | hrun
        · refine .inl ⟨u, v, ?_, hgen⟩
          rwa [System.set_own_self]
        · exact .inr ⟨v, hrun, hgen⟩
      · refine .inl ⟨u, v, ?_, hgen⟩
        rwa [System.set_own_of_ne hut]
    · exact .inr ⟨v, hrunning v hv hgen, hgen⟩

/-- A step that leaves the slot alone. -/
theorem Tracking.frame (h : Tracking st) (htarget : s'.target = st.shared.target)
    (hbegun : st.shared.begun ⊆ s'.begun) (htracks : s'.tracks = st.shared.tracks)
    (hexits : s'.exits = st.shared.exits) (haccepted : st.shared.accepted ⊆ s'.accepted)
    (hnew : ∀ v, s'.Running v → st.shared.Running v ∨ ∃ previous,
      (st.own t).saved = some (v, previous))
    (hopening : ∀ v, (st.own t).opening = some v →
      v.generation = st.shared.target.activeGeneration →
      place'.opening = some v ∨ s'.Running v)
    (hsaved : ∀ x, place'.saved = some x → (st.own t).saved = some x)
    (hundelivered : ∀ e, e.closing → e.generation = st.shared.target.activeGeneration →
      e ∈ st.shared.pendingHostWindowEvents ∨ e ∈ (st.own t).held ∨ (st.own t).clearing = some e →
        e ∈ s'.pendingHostWindowEvents ∨ e ∈ place'.held ∨ place'.clearing = some e) :
    Tracking (st.set t s' place') := by
  have hsaveds : ∀ u x, ((st.set t s' place').own u).saved = some x →
      (st.own u).saved = some x := by
    intro u x hu
    by_cases hut : u = t
    · subst hut
      rw [System.set_own_self] at hu
      exact hsaved x hu
    · rwa [System.set_own_of_ne hut] at hu
  have hrunning : ∀ v, st.shared.Running v → s'.Running v := by
    intro v hv
    rw [Shared.Running, hexits]
    exact ⟨haccepted hv.1, hv.2⟩
  refine ⟨?_, ?_, ?_, ?_, ?_⟩
  · rw [System.set_shared, htarget]
    rcases h.slot with hzero | htracked
    · exact .inl hzero
    · exact .inr (htracked.frame (fun v hv _ => hrunning v hv) hopening hundelivered)
  · rw [System.set_shared, htarget]
    exact fun hne => hbegun (h.slotBegun hne)
  · intro u w previous hu hne
    exact hbegun (h.savedBegun u w previous (hsaveds u _ hu) hne)
  · rw [System.set_shared, htarget, htracks]
    intro v hv hlive
    refine h.last v hv ?_
    rcases hlive with ⟨u, previous, hu⟩ | hrun
    · exact .inl ⟨u, previous, hsaveds u _ hu⟩
    · rcases hnew v hrun with hold | ⟨previous, hplace⟩
      · exact .inr hold
      · exact .inl ⟨t, previous, hplace⟩
  · rw [System.set_shared, hexits, htracks]
    exact h.exits

theorem saved_opening {place : Place} {previous : HostWindowCloseTarget}
    (h : place.saved = some (w, previous)) :
    place.opening = some w := by
  cases place <;> cases h <;> rfl

/-- An open takes the slot. -/
theorem Tracking.track (h : Tracking st) {request : RobloxWebViewOpenRequest} {fallback : Bool}
    (hbegun : w ∈ st.shared.begun) :
    Tracking
      (st.set t (st.shared.track w fallback) (.dispatchOpen w request st.shared.target)) := by
  refine ⟨.inr ?_, fun _ => hbegun, ?_, ?_, ?_⟩
  · refine .inl ⟨t, w, ?_, rfl⟩
    rw [System.set_own_self]
    rfl
  · refine (System.forall_set (P := fun _ place => ∀ v previous,
      Place.saved place = some (v, previous) →
      previous.activeGeneration ≠ 0 →
        ⟨previous.activeGeneration, previous.activeSource⟩ ∈ st.shared.begun)).2
      ⟨fun v previous hv => ?_, fun u _ => h.savedBegun u⟩
    cases hv
    exact h.slotBegun
  · intro v hv _
    have hlast : (st.shared.tracks ++ [w]).getLast? = some v := hv
    rw [List.getLast?_concat] at hlast
    exact congrArg HostWindow.generation (Option.some.inj hlast)
  · intro x hx htracked
    obtain ⟨before, v, after, heq⟩ := h.exits x hx htracked
    refine ⟨before, v, after ++ [w], ?_⟩
    have htracks : (st.shared.track w fallback).tracks = st.shared.tracks ++ [w] := rfl
    rw [System.set_shared, htracks, heq, List.append_assoc]
    rfl

/-- A refused open that still has the slot puts back what was in it. -/
theorem Tracking.restore (h : Tracking st) (hwin : Windows st) {previous : HostWindowCloseTarget}
    {status status' : Status} (hplace : st.own t = .restore w previous status)
    (hactive : st.shared.target.activeGeneration = w.generation)
    (hcovered : previous.activeGeneration = 0 ∨ Awaited st t previous) :
    Tracking (st.set t { st.shared with target := previous } (.returned status')) := by
  have hsaved : (st.own t).saved = some (w, previous) := by rw [hplace]; rfl
  have hopening := saved_opening hsaved
  obtain ⟨hbegun, hnew⟩ := hwin.opening t w hopening
  have hother : ∀ u, u ≠ t →
      (st.set t { st.shared with target := previous } (.returned status')).own u = st.own u :=
    fun u hut => System.set_own_of_ne hut
  refine ⟨?_, h.savedBegun t w previous hsaved, ?_, ?_, h.exits⟩
  · rcases hcovered with hzero | hawaited
    · exact .inl hzero
    · refine .inr ?_
      unfold Awaited at hawaited
      unfold Tracked
      rw [System.set_shared]
      split at hawaited
      · next hclose =>
        rw [if_pos hclose]
        obtain ⟨e, he, hgen, hon⟩ := hawaited
        refine ⟨e, he, hgen, ?_⟩
        rcases hon with hpending | ⟨u, hu⟩
        · exact .inl hpending
        · have hut : u ≠ t := by
            rintro rfl
            rw [hplace] at hu
            rcases hu with hu | hu
            · cases hu
            · cases hu
          refine .inr ⟨u, ?_⟩
          rwa [hother u hut]
      · next hclose =>
        rw [if_neg hclose]
        rcases hawaited with ⟨u, v, hut, hu, hgen⟩ | hrun
        · refine .inl ⟨u, v, ?_, hgen⟩
          rwa [hother u hut]
        · exact .inr hrun
  · refine (System.forall_set (P := fun _ place => ∀ v previous,
      Place.saved place = some (v, previous) →
      previous.activeGeneration ≠ 0 →
        ⟨previous.activeGeneration, previous.activeSource⟩ ∈ st.shared.begun)).2
      ⟨fun v previous' hv => ?_, fun u _ => h.savedBegun u⟩
    cases hv
  · intro v hv hlive
    exfalso
    rcases hlive with ⟨u, previous', hu⟩ | hrun
    · have hut : u ≠ t := by
        rintro rfl
        rw [System.set_own_self] at hu
        cases hu
      rw [hother u hut] at hu
      have hgen := h.last v hv (.inl ⟨u, previous', hu⟩)
      obtain rfl :=
        hwin.unique w hbegun v (hwin.opening u v (saved_opening hu)).1 (hactive.symm.trans hgen)
      exact hut (hwin.apart u t w (saved_opening hu) hopening)
    · have hgen := h.last v hv (.inr hrun)
      obtain rfl := hwin.unique w hbegun v (hwin.accepted v hrun.1).1 (hactive.symm.trans hgen)
      exact hnew hrun.1

section Unreported

omit [DecidableEq τ]

/-- What is on its way to the game was queued. -/
theorem Undelivered.queued {e : PendingHostWindowEvent} (h : Undelivered st e) (hd : Delivery st) :
    e ∈ st.shared.queued := by
  have hparts : ∃ held,
      st.shared.queued = st.shared.told ++ held ++ st.shared.pendingHostWindowEvents ∧
      ∀ u, (st.own u).held ≠ [] → (st.own u).held = held := by
    by_cases hall : ∀ u, (st.own u).held = []
    · exact ⟨[], by rw [hd.idle hall, List.append_nil], fun u hu => absurd (hall u) hu⟩
    · obtain ⟨v, hv⟩ := not_forall.1 hall
      exact ⟨_, hd.busy v hv, fun u hu => by rw [hd.alone u v hu hv]⟩
  obtain ⟨held, hqueued, hheld⟩ := hparts
  rw [hqueued, List.mem_append, List.mem_append]
  rcases h with hpending | ⟨u, hu | hu⟩
  · exact .inr hpending
  · exact .inl (.inr (hheld u (List.ne_nil_of_mem hu) ▸ hu))
  · exact .inl (.inl (hd.clearing u e hu).1)

/-- A closing event is that of an exit. -/
theorem closing_exited (hq : Queue st) {e : PendingHostWindowEvent} (hin : e ∈ st.shared.queued)
    (he : e.closing) : ∃ x ∈ st.shared.exits, x.event = some e ∧
      e.generation = x.window.generation := by
  have hfilter : e ∈ st.shared.queued.filter (·.closing) := List.mem_filter.2 ⟨hin, he⟩
  rw [hq.closes] at hfilter
  obtain ⟨x, hx, hevent⟩ := List.mem_filterMap.1 hfilter
  exact ⟨x, hx, hevent, (event_spec hevent).2.2⟩

/-- An event of an exit is of no window that is still to exit. -/
theorem closing_gone (hwin : Windows st) (hq : Queue st) {e : PendingHostWindowEvent}
    (hin : e ∈ st.shared.queued) (he : e.closing) (hw : w ∈ st.shared.begun)
    (hgen : e.generation = w.generation) :
    w ∈ st.shared.accepted ∧ ¬ st.shared.Running w := by
  obtain ⟨x, hx, -, hxgen⟩ := closing_exited hq hin he
  have hxw := hwin.exits x hx
  obtain rfl := hwin.unique x.window (hwin.accepted _ hxw).1 w hw (hxgen.symm.trans hgen)
  exact ⟨hxw, fun hrun => hrun.2 x hx rfl⟩

/-- The slot of a running window has no close queued. -/
theorem Tracking.slot_open (h : Tracking st) (hwin : Windows st) (hq : Queue st) (hd : Delivery st)
    (hw : st.shared.Running w) (hgen : st.shared.target.activeGeneration = w.generation) :
    st.shared.target.closeQueued = false := by
  have hbegun := (hwin.accepted w hw.1).1
  have htracked := h.slot.resolve_left (hgen ▸ (hwin.bound w hbegun).1)
  unfold Tracked at htracked
  split at htracked
  · obtain ⟨e, he, hegen, hon⟩ := htracked
    exact absurd hw (closing_gone hwin hq (hon.queued hd) he hbegun (hegen.trans hgen)).2
  · next hclose => exact Bool.eq_false_iff.2 hclose

end Unreported

/-- A member of a list that is not its last has one after it. -/
theorem exists_after {α : Type*} {l : List α} {x : α} (hx : x ∈ l) (hlast : l.getLast? ≠ some x) :
    ∃ before y after, l = before ++ x :: y :: after := by
  obtain ⟨before, after, rfl⟩ := List.append_of_mem hx
  cases after with
  | nil => exact absurd (by simp) hlast
  | cons y after => exact ⟨before, y, after, rfl⟩

/-- A window exits. -/
theorem Tracking.exit (h : Tracking st) (hwin : Windows st) (hq : Queue st)
    (hd : Delivery st) {x : WindowExit}
    (hw : st.shared.Running w) (hs : Exited st.shared w s' x) (hopening : (st.own t).opening = none)
    (hheld : (st.own t).held = []) (hclearing : (st.own t).clearing = none) :
    Tracking (st.set t s' (.returned {})) := by
  have hbegun := (hwin.accepted w hw.1).1
  have hrunning : ∀ v, s'.Running v → st.shared.Running v ∧ v ≠ w := by
    intro v hv
    rw [Shared.Running, hs.accepted, hs.exits] at hv
    refine ⟨⟨hv.1, fun y hy => hv.2 y (List.mem_append_left _ hy)⟩, ?_⟩
    rintro rfl
    exact hv.2 x (List.mem_append_right _ (List.mem_singleton_self _)) hs.window
  have hsaved : ∀ u v previous, ((st.set t s' (.returned {})).own u).saved = some (v, previous) →
      (st.own u).saved = some (v, previous) := by
    intro u v previous hu
    by_cases hut : u = t
    · subst hut
      rw [System.set_own_self] at hu
      cases hu
    · rwa [System.set_own_of_ne hut] at hu
  -- Whoever is still to exit and was tracked last had the slot, and is not the window that exits.
  have hlast : ∀ v, st.shared.tracks.getLast? = some v →
      (∃ u previous, ((st.set t s' (.returned {})).own u).saved = some (v, previous)) ∨
        s'.Running v →
        st.shared.target.activeGeneration = v.generation ∧ v ≠ w := by
    rintro v hv (⟨u, previous, hu⟩ | hrun)
    · have hsav := hsaved u v previous hu
      refine ⟨h.last v hv (.inl ⟨u, previous, hsav⟩), ?_⟩
      rintro rfl
      exact (hwin.opening u v (saved_opening hsav)).2 hw.1
    · exact ⟨h.last v hv (.inr (hrunning v hrun).1), (hrunning v hrun).2⟩
  have hlive : ∀ v, st.shared.tracks.getLast? = some v →
      (∃ u previous, ((st.set t s' (.returned {})).own u).saved = some (v, previous)) ∨
        s'.Running v →
        v ∈ st.shared.begun := by
    rintro v hv (⟨u, previous, hu⟩ | hrun)
    · exact (hwin.opening u v (saved_opening (hsaved u v previous hu))).1
    · exact (hwin.accepted v (hrunning v hrun).1.1).1
  refine ⟨?_, ?_, ?_, ?_, ?_⟩
  · rw [System.set_shared]
    rcases hs.slot with ⟨huntracked, htarget⟩ | ⟨-, hgen, hzero | ⟨hsome, htarget⟩⟩
    · rw [htarget]
      rcases h.slot with hzero | htracked
      · exact .inl hzero
      · refine .inr
          (htracked.frame (fun v hv hgen => ?_) (fun v hv => (nomatch hopening.symm.trans hv)) ?_)
        · rw [Shared.Running, hs.accepted, hs.exits]
          refine ⟨hv.1, fun y hy heq => ?_⟩
          rcases List.mem_append.1 hy with hy | hy
          · exact hv.2 y hy heq
          · rw [List.mem_singleton.1 hy, hs.window] at heq
            subst heq
            have hclose := hs.untracked huntracked hgen.symm
            rw [h.slot_open hwin hq hd hw hgen.symm] at hclose
            cases hclose
        · rintro e - - (hpending | hin | hin)
          · rw [hs.pending]
            exact .inl (List.mem_append_left _ hpending)
          · rw [hheld] at hin
            cases hin
          · rw [hclearing] at hin
            cases hin
    · exact .inl hzero
    · obtain ⟨e, hevent⟩ := Option.isSome_iff_exists.1 hsome
      refine .inr ?_
      rw [htarget]
      obtain ⟨-, hclosing, hegen⟩ := event_spec hevent
      refine ⟨e, hclosing, ?_, .inl ?_⟩
      · rw [hegen, hs.window]
        exact hgen.symm
      · rw [System.set_shared, hs.pending, hevent]
        exact List.mem_append_right _ (List.mem_singleton_self _)
  · rw [System.set_shared, hs.begun]
    intro hne
    rcases hs.slot with ⟨-, htarget⟩ | ⟨-, -, hzero | ⟨-, htarget⟩⟩
    · rw [htarget] at hne ⊢
      exact h.slotBegun hne
    · exact absurd hzero hne
    · rw [htarget] at hne ⊢
      exact h.slotBegun hne
  · rw [System.set_shared, hs.begun]
    exact fun u v previous hu => h.savedBegun u v previous (hsaved u v previous hu)
  · rw [System.set_shared, hs.tracks]
    intro v hv hliving
    obtain ⟨hgen, hne⟩ := hlast v hv hliving
    rcases hs.slot with ⟨-, htarget⟩ | ⟨-, hactive, hzero | ⟨-, htarget⟩⟩
    · rw [htarget]
      exact hgen
    · exact absurd (hwin.unique v (hlive v hv hliving) w hbegun (hgen.symm.trans hactive)) hne
    · rw [htarget]
      exact hgen
  · rw [System.set_shared, hs.exits, hs.tracks]
    intro y hy huntracked
    rcases List.mem_append.1 hy with hy | hy
    · exact h.exits y hy huntracked
    · rw [List.mem_singleton.1 hy] at huntracked ⊢
      rw [hs.window]
      refine exists_after (hwin.accepted w hw.1).2 fun hlastw => ?_
      have hgen := h.last w hlastw (.inr hw)
      have hclose := hs.untracked huntracked hgen
      rw [h.slot_open hwin hq hd hw hgen] at hclose
      cases hclose

/-- The slot hears of a closed window. -/
theorem Tracking.clear (h : Tracking st) (hwin : Windows st) (hq : Queue st) (hd : Delivery st)
    {event : PendingHostWindowEvent} {rest : List PendingHostWindowEvent}
    (hplace : st.own t = .clearActive event rest) :
    Tracking (st.set t (st.shared.clearActive event) (next rest)) := by
  have hclearing : (st.own t).clearing = some event := by rw [hplace]; rfl
  have hin : event ∈ st.shared.queued := Undelivered.queued (.inr ⟨t, .inr hclearing⟩) hd
  have hclosing := (hd.clearing t event hclearing).2
  have hopening : (next rest).opening = none := by cases rest <;> rfl
  have hsaved : (next rest).saved = none := by cases rest <;> rfl
  have hheld : (next rest).held = rest := by cases rest <;> rfl
  unfold Shared.clearActive
  split
  · next hactive =>
    refine ⟨.inl rfl, fun hne => absurd rfl hne, ?_, ?_, h.exits⟩
    · exact (System.forall_set (P := fun _ place => ∀ v previous,
        Place.saved place = some (v, previous) →
        previous.activeGeneration ≠ 0 →
          ⟨previous.activeGeneration, previous.activeSource⟩ ∈ st.shared.begun)).2
        ⟨fun v previous hv => (nomatch hsaved.symm.trans hv), fun u _ => h.savedBegun u⟩
    · intro v hv hliving
      exfalso
      rcases hliving with ⟨u, previous, hu⟩ | hrun
      · have hut : u ≠ t := by
          rintro rfl
          rw [System.set_own_self, hsaved] at hu
          cases hu
        rw [System.set_own_of_ne hut] at hu
        have hgen := h.last v hv (.inl ⟨u, previous, hu⟩)
        obtain ⟨hvbegun, hnew⟩ := hwin.opening u v (saved_opening hu)
        exact hnew (closing_gone hwin hq hin hclosing hvbegun (hactive.symm.trans hgen)).1
      · have hgen := h.last v hv (.inr hrun)
        exact (closing_gone hwin hq hin hclosing (hwin.accepted v hrun.1).1
          (hactive.symm.trans hgen)).2 hrun
  · next hactive =>
    refine h.frame rfl (List.Subset.refl _) rfl rfl (List.Subset.refl _)
      (fun v hv => .inl hv) ?_ ?_ ?_
    · intro v hv
      rw [hplace] at hv
      cases hv
    · intro y hy
      exact (nomatch hsaved.symm.trans hy)
    · rintro e - hgen (hpending | hin | hin)
      · exact .inl hpending
      · refine .inr (.inl ?_)
        rw [hheld]
        rwa [hplace] at hin
      · rw [hclearing] at hin
        obtain rfl := Option.some.inj hin
        exact absurd hgen.symm hactive

/-! Steps and runs. -/

structure Sound (st : State τ) : Prop where
  windows : Windows st
  queue : Queue st
  delivery : Delivery st
  tracking : Tracking st

/-- A step that only moves its thread, and no event, window or slot. -/
theorem Sound.quiet (h : Sound st) (hopening : place'.opening = (st.own t).opening)
    (hsaved : place'.saved = (st.own t).saved)
    (hunfocusing : place'.unfocusing = (st.own t).unfocusing)
    (hheld : place'.held = (st.own t).held) (hclearing : (st.own t).clearing = none)
    (hclearing' : place'.clearing = none) : Sound (st.set t st.shared place') where
  windows := h.windows.frame rfl rfl (List.Subset.refl _) rfl rfl (fun _ hv => hopening ▸ hv)
    (fun v previous hv => h.windows.placed t v previous (hsaved ▸ hv))
    (fun _ hv => hunfocusing ▸ hv)
  queue :=
    h.queue.frame rfl rfl (List.Subset.refl _) (fun _ hv => .inl hv)
      (fun _ hv => .inl (hunfocusing ▸ hv))
    (fun _ hv => hunfocusing.symm ▸ hv)
  delivery :=
    h.delivery.append [] (List.append_nil _).symm (List.append_nil _).symm rfl hheld hclearing'
  tracking := by
    refine h.tracking.frame rfl (List.Subset.refl _) rfl rfl
      (List.Subset.refl _) (fun _ hv => .inl hv)
      (fun _ hv _ => .inl (hopening.symm ▸ hv)) (fun _ hy => hsaved ▸ hy) ?_
    rintro e - - (hpending | hin | hin)
    · exact .inl hpending
    · exact .inr (.inl (hheld.symm ▸ hin))
    · exact (nomatch hclearing.symm.trans hin)

/-- A step of a drain, which touches no window. -/
theorem Sound.drain (h : Sound st) (hopening : (st.own t).opening = none)
    (hunfocusing : (st.own t).unfocusing = none)
    (hopening' : place'.opening = none) (hsaved' : place'.saved = none)
    (hunfocusing' : place'.unfocusing = none)
    (told pending : List PendingHostWindowEvent)
    (hdelivery : Delivery
      (st.set t { st.shared with told, pendingHostWindowEvents := pending } place'))
    (hundelivered : ∀ e, e.closing →
      e ∈ st.shared.pendingHostWindowEvents ∨ e ∈ (st.own t).held ∨ (st.own t).clearing = some e →
        e ∈ pending ∨ e ∈ place'.held ∨ place'.clearing = some e) :
    Sound (st.set t { st.shared with told, pendingHostWindowEvents := pending } place') where
  windows :=
    h.windows.frame rfl rfl (List.Subset.refl _) rfl rfl
      (fun _ hv => (nomatch hopening'.symm.trans hv))
    (fun _ _ hv => (nomatch hsaved'.symm.trans hv))
    (fun _ hv => (nomatch hunfocusing'.symm.trans hv))
  queue := h.queue.frame rfl rfl (List.Subset.refl _) (fun _ hv => .inl hv)
    (fun _ hv => (nomatch hunfocusing'.symm.trans hv))
    (fun _ hv => (nomatch hunfocusing.symm.trans hv))
  delivery := hdelivery
  tracking :=
    h.tracking.frame rfl (List.Subset.refl _) rfl rfl (List.Subset.refl _) (fun _ hv => .inl hv)
    (fun _ hv => (nomatch hopening.symm.trans hv)) (fun _ hy => (nomatch hsaved'.symm.trans hy))
    fun e he _ => hundelivered e he

theorem next_places (events : List PendingHostWindowEvent) : (next events).opening = none ∧
    (next events).saved = none ∧ (next events).unfocusing = none ∧ (next events).held = events ∧
    (next events).clearing = none := by
  cases events <;> exact ⟨rfl, rfl, rfl, rfl, rfl⟩

theorem call_sound {status : Status} {c : Call} (h : Sound st)
    (hplace : st.own t = .returned status)
    (hrunning : ∀ w, c = .hostWindowExited w → st.shared.Running w)
    (hcovered : Covered st (t, .call c)) :
    Sound (st.set t (begin nativeLogin st.shared c).1 (begin nativeLogin st.shared c).2) := by
  have hopening : (st.own t).opening = none := by rw [hplace]; rfl
  have hsaved : (st.own t).saved = none := by rw [hplace]; rfl
  have hunfocusing : (st.own t).unfocusing = none := by rw [hplace]; rfl
  have hheld : (st.own t).held = [] := by rw [hplace]; rfl
  have hclearing : (st.own t).clearing = none := by rw [hplace]; rfl
  cases c with
  | dispatchOpenRequest request source =>
    simp only [begin]
    split
    · exact h.quiet hopening.symm hsaved.symm hunfocusing.symm hheld.symm hclearing rfl
    · refine ⟨h.windows.begin rfl rfl rfl rfl rfl rfl rfl rfl rfl,
        h.queue.frame rfl rfl (List.Subset.refl _) (fun _ hv => .inl hv) (fun _ hv => nomatch hv)
          (fun _ hv => (nomatch hunfocusing.symm.trans hv)),
        h.delivery.append [] (List.append_nil _).symm
          (List.append_nil _).symm rfl hheld.symm rfl, ?_⟩
      refine h.tracking.frame rfl (List.subset_append_left _ _) rfl rfl
        (List.Subset.refl _) (fun _ hv => .inl hv)
        (fun _ hv => (nomatch hopening.symm.trans hv)) (fun _ hy => nomatch hy) ?_
      rintro e - - (hpending | hin | hin)
      · exact .inl hpending
      · exact (nomatch (hheld ▸ hin))
      · exact (nomatch hclearing.symm.trans hin)
  | hostWindowExited w =>
    have hw := hrunning w rfl
    have hbegun := (h.windows.accepted w hw.1).1
    obtain ⟨x, hx⟩ := exited_spec hcovered.room (h.windows.bound w hbegun).1 fun hactive => by
      have hslot := h.tracking.slotBegun (hactive ▸ (h.windows.bound w hbegun).1)
      exact congrArg HostWindow.source (h.windows.unique _ hslot w hbegun hactive)
    have hnone := hcovered.unfocused w rfl
    exact ⟨h.windows.exit hw hnone hx,
      h.queue.exit hw hnone hx (fun v hv => (nomatch hunfocusing.symm.trans hv)),
      h.delivery.append _ hx.queued hx.pending hx.told hheld.symm rfl,
      h.tracking.exit h.windows h.queue h.delivery hw hx hopening hheld hclearing⟩
  | queueStartConversation userId =>
    simp only [begin, Shared.queueStartConversation]
    rw [push_spec hcovered.room]
    refine ⟨h.windows.frame rfl rfl (List.Subset.refl _) rfl rfl (fun _ hv => nomatch hv)
      (fun _ _ hv => nomatch hv)
        (fun _ hv => nomatch hv),
      h.queue.other rfl rfl rfl rfl (fun v hv => (nomatch hunfocusing.symm.trans hv)) rfl,
      h.delivery.append _ rfl rfl rfl hheld.symm rfl, ?_⟩
    refine h.tracking.frame rfl (List.Subset.refl _) rfl rfl
      (List.Subset.refl _) (fun _ hv => .inl hv)
      (fun _ hv => (nomatch hopening.symm.trans hv)) (fun _ hy => nomatch hy) ?_
    rintro e - - (hpending | hin | hin)
    · exact .inl (List.mem_append_left _ hpending)
    · exact (nomatch (hheld ▸ hin))
    · exact (nomatch hclearing.symm.trans hin)
  | drainHostWindowEvents =>
    simp only [begin]
    cases hevents : st.shared.pendingHostWindowEvents with
    | nil =>
      have hsame : { st.shared with pendingHostWindowEvents := [] } = st.shared := by rw [← hevents]
      rw [List.isEmpty_nil, if_pos rfl, hsame]
      exact h.quiet hopening.symm hsaved.symm hunfocusing.symm hheld.symm hclearing rfl
    | cons e rest =>
      have hnone := (hcovered.drained rfl).resolve_left (by rw [hevents]; nofun)
      rw [List.isEmpty_cons, if_neg Bool.false_ne_true]
      refine h.drain hopening hunfocusing rfl rfl rfl st.shared.told []
        (h.delivery.take hnone rfl rfl ?_ rfl) ?_
      · rw [hevents]
        exact List.append_nil _
      · rintro e - (hpending | hin | hin)
        · exact .inr (.inl (hevents ▸ hpending))
        · exact (nomatch (hheld ▸ hin))
        · exact (nomatch hclearing.symm.trans hin)

/-- The sink accepts an open. -/
theorem Sound.accept (h : Sound st) {previous : HostWindowCloseTarget}
    (hopening : (st.own t).opening = some w)
    (hsaved : (st.own t).saved = some (w, previous)) (hunfocusing : (st.own t).unfocusing = none)
    (hheld : (st.own t).held = []) (hclearing : (st.own t).clearing = none)
    (hopening' : place'.opening = none) (hsaved' : place'.saved = none) (hheld' : place'.held = [])
    (hclearing' : place'.clearing = none)
    (hunfocusing' : ∀ v, place'.unfocusing = some v ↔ v = w ∧ w.source.takesFocus = true) :
    Sound (st.set t { st.shared with accepted := st.shared.accepted ++ [w] } place') := by
  obtain ⟨hbegun, hnew⟩ := h.windows.opening t w hopening
  have hout : unfocused w ∉ st.shared.queued := by
    intro hin
    obtain ⟨v, hv, hgen⟩ := h.queue.unfocusedFrom _ hin rfl
    obtain rfl := h.windows.unique w hbegun v (h.windows.accepted v hv).1 hgen
    exact hnew hv
  have hrunning : ∀ v, Shared.Running { st.shared with accepted := st.shared.accepted ++ [w] } v →
      st.shared.Running v ∨ v = w := by
    rintro v ⟨hv, hnone⟩
    rcases List.mem_append.1 hv with hv | hv
    · exact .inl ⟨hv, hnone⟩
    · exact .inr (List.mem_singleton.1 hv)
  have hrun : Shared.Running { st.shared with accepted := st.shared.accepted ++ [w] } w :=
    ⟨List.mem_append_right _ (List.mem_singleton_self _), fun x hx heq =>
      hnew (heq ▸ h.windows.exits x hx)⟩
  refine ⟨h.windows.accept hopening hsaved rfl rfl rfl rfl rfl hopening' hsaved' fun v =>
    (hunfocusing' v).1,
    h.queue.frame rfl rfl (List.subset_append_left _ _) ?_ ?_
      (fun v hv => (nomatch hunfocusing.symm.trans hv)),
    h.delivery.append [] (List.append_nil _).symm (List.append_nil _).symm rfl
      (hheld'.trans hheld.symm)
      hclearing', ?_⟩
  · intro v hv
    rcases List.mem_append.1 hv with hv | hv
    · exact .inl hv
    · rw [List.mem_singleton.1 hv]
      exact .inr fun hfocus => (hunfocusing' w).2 ⟨rfl, hfocus⟩
  · intro v hv
    rw [((hunfocusing' v).1 hv).1]
    exact .inr hout
  · refine h.tracking.frame rfl (List.Subset.refl _) rfl rfl (List.subset_append_left _ _) ?_ ?_
      (fun y hy => (nomatch hsaved'.symm.trans hy)) ?_
    · intro v hv
      rcases hrunning v hv with hold | rfl
      · exact .inl hold
      · exact .inr ⟨previous, hsaved⟩
    · intro v hv _
      obtain rfl := Option.some.inj (hopening.symm.trans hv)
      exact .inr hrun
    · rintro e - - (hpending | hin | hin)
      · exact .inl hpending
      · exact (nomatch (hheld ▸ hin))
      · exact (nomatch hclearing.symm.trans hin)

theorem track_sound {request : RobloxWebViewOpenRequest} {fallback : Bool} (h : Sound st)
    (hplace : st.own t = .track w request fallback) :
    Sound (st.set t (st.shared.track w fallback) (.dispatchOpen w request st.shared.target)) := by
  have hopening : (st.own t).opening = some w := by rw [hplace]; rfl
  have hunfocusing : (st.own t).unfocusing = none := by rw [hplace]; rfl
  have hheld : (st.own t).held = [] := by rw [hplace]; rfl
  refine ⟨h.windows.frame rfl rfl (List.subset_append_left _ _) rfl rfl
    (fun v hv => hopening.trans hv) ?_
      (fun v hv => (nomatch hv)),
    h.queue.frame rfl rfl (List.Subset.refl _) (fun v hv => .inl hv) (fun v hv => (nomatch hv))
      (fun v hv => (nomatch hunfocusing.symm.trans hv)),
    h.delivery.append [] (List.append_nil _).symm (List.append_nil _).symm rfl hheld.symm rfl,
    h.tracking.track (h.windows.opening t w hopening).1⟩
  intro v previous hv
  cases hv
  exact List.mem_append_right _ (List.mem_singleton_self _)

theorem unfocus_sound (h : Sound st) (hplace : st.own t = .queueUnfocused w)
    (hroom : st.shared.pendingHostWindowEvents.length < kMaximumPendingHostWindowEvents) :
    Sound (st.set t (st.shared.queueHostWindowEvent .kDataModelUnfocused w.generation)
      (.returned {})) := by
  have hopening : (st.own t).opening = none := by rw [hplace]; rfl
  have hunfocusing : (st.own t).unfocusing = some w := by rw [hplace]; rfl
  have hheld : (st.own t).held = [] := by rw [hplace]; rfl
  have hclearing : (st.own t).clearing = none := by rw [hplace]; rfl
  have hw := (h.windows.unfocusing t w hunfocusing).1
  have hpos := (h.windows.bound w (h.windows.accepted w hw.1).1).1
  rw [Shared.queueHostWindowEvent, if_neg hpos, push_spec hroom]
  refine ⟨h.windows.frame rfl rfl (List.Subset.refl _) rfl rfl (fun v hv => (nomatch hv))
      (fun v previous hv => (nomatch hv)) (fun v hv => (nomatch hv)),
    h.queue.unfocus h.windows hunfocusing rfl rfl rfl rfl,
    h.delivery.append _ rfl rfl rfl hheld.symm rfl, ?_⟩
  refine h.tracking.frame rfl (List.Subset.refl _) rfl rfl
    (List.Subset.refl _) (fun v hv => .inl hv)
    (fun v hv => (nomatch hopening.symm.trans hv)) (fun y hy => (nomatch hy)) ?_
  rintro e - - (hpending | hin | hin)
  · exact .inl (List.mem_append_left _ hpending)
  · exact (nomatch (hheld ▸ hin))
  · exact (nomatch hclearing.symm.trans hin)

theorem restore_sound {previous : HostWindowCloseTarget} {status : Status} (h : Sound st)
    (hplace : st.own t = .restore w previous status)
    (hcovered : st.shared.target.activeGeneration = w.generation →
      previous.activeGeneration = 0 ∨ Awaited st t previous) :
    Sound (st.set t (st.shared.restore w previous) (.returned status)) := by
  have hopening : (st.own t).opening = some w := by rw [hplace]; rfl
  have hunfocusing : (st.own t).unfocusing = none := by rw [hplace]; rfl
  have hheld : (st.own t).held = [] := by rw [hplace]; rfl
  have hclearing : (st.own t).clearing = none := by rw [hplace]; rfl
  have hshared : ∃ target, st.shared.restore w previous = { st.shared with target } ∧
      Tracking (st.set t { st.shared with target } (.returned status)) := by
    unfold Shared.restore
    split
    · next hactive =>
        exact ⟨previous, rfl, h.tracking.restore h.windows hplace hactive (hcovered hactive)⟩
    · next hactive =>
      refine ⟨st.shared.target, rfl, ?_⟩
      refine h.tracking.frame rfl (List.Subset.refl _) rfl rfl (List.Subset.refl _)
        (fun v hv => .inl hv) ?_
        (fun y hy => (nomatch hy)) ?_
      · intro v hv hgen
        obtain rfl := Option.some.inj (hopening.symm.trans hv)
        exact absurd hgen.symm hactive
      · rintro e - - (hpending | hin | hin)
        · exact .inl hpending
        · exact (nomatch (hheld ▸ hin))
        · exact (nomatch hclearing.symm.trans hin)
  obtain ⟨target, heq, htracking⟩ := hshared
  rw [heq]
  exact ⟨h.windows.frame rfl rfl (List.Subset.refl _) rfl rfl (fun v hv => (nomatch hv))
      (fun v previous hv => (nomatch hv)) (fun v hv => (nomatch hv)),
    h.queue.frame rfl rfl (List.Subset.refl _) (fun v hv => .inl hv) (fun v hv => (nomatch hv))
      (fun v hv => (nomatch hunfocusing.symm.trans hv)),
    h.delivery.append [] (List.append_nil _).symm
      (List.append_nil _).symm rfl hheld.symm rfl, htracking⟩

/-- The game is told of an event, or the event is put back with those after it. -/
theorem deliver_sound {event : PendingHostWindowEvent} {rest : List PendingHostWindowEvent}
    {answers : Answers}
    (h : Sound st) (hplace : st.own t = .deliver event rest)
    (hstep : continueCall st.shared answers (.deliver event rest) = some (s', place')) :
    Sound (st.set t s' place') := by
  have hopening : (st.own t).opening = none := by rw [hplace]; rfl
  have hsaved : (st.own t).saved = none := by rw [hplace]; rfl
  have hunfocusing : (st.own t).unfocusing = none := by rw [hplace]; rfl
  have hheld : (st.own t).held = event :: rest := by rw [hplace]; rfl
  have hholds : (st.own t).held ≠ [] := by rw [hheld]; nofun
  have hclearing : (st.own t).clearing = none := by rw [hplace]; rfl
  have hback : Sound (st.set t st.shared (.putBack (event :: rest) answers.jni)) :=
    h.quiet hopening.symm hsaved.symm hunfocusing.symm hheld.symm hclearing rfl
  have htold : ∀ {place : Place}, place.opening = none → place.saved = none →
      place.unfocusing = none →
      place.held = rest → (∀ e, place.clearing = some e → e = event ∧ event.closing) →
      (event.closing → place.clearing = some event) →
        Sound (st.set t { st.shared with told := st.shared.told ++ [event] } place) := by
    intro place hopening' hsaved' hunfocusing' hheld' hof hto
    refine h.drain hopening hunfocusing hopening' hsaved' hunfocusing' (st.shared.told ++ [event])
      st.shared.pendingHostWindowEvents ?_ ?_
    · refine h.delivery.work hholds rfl ?_ (List.subset_append_left _ _) fun e he => ?_
      · rw [hheld, hheld']
        simp
      · obtain ⟨rfl, hclosing⟩ := hof e he
        exact ⟨List.mem_append_right _ (List.mem_singleton_self _), hclosing⟩
    · rintro e hclosing (hpending | hin | hin)
      · exact .inl hpending
      · rw [hheld] at hin
        rcases List.mem_cons.1 hin with rfl | hin
        · exact .inr (.inr (hto hclosing))
        · exact .inr (.inl (hheld' ▸ hin))
      · exact (nomatch hclearing.symm.trans hin)
  obtain ⟨hnext, hnextSaved, hnextUnfocusing, hnextHeld, hnextClearing⟩ := next_places rest
  have hskip : ¬ event.closing = true →
      Sound (st.set t { st.shared with told := st.shared.told ++ [event] } (next rest)) :=
    fun hnot =>
    htold hnext hnextSaved hnextUnfocusing hnextHeld
      (fun e he => (nomatch hnextClearing.symm.trans he))
      fun hclosing => absurd hclosing hnot
  have hclose : event.closing = true →
      Sound (st.set t { st.shared with told := st.shared.told ++ [event] }
        (.clearActive event rest)) :=
    fun hclosing =>
      htold rfl rfl rfl rfl (fun e he => ⟨(Option.some.inj he).symm, hclosing⟩) fun _ => rfl
  simp only [continueCall] at hstep
  cases htype : event.type with
  | kStartConversationWithUser =>
    rw [htype] at hstep
    cases hstep
    exact hskip (by simp [PendingHostWindowEvent.closing, htype])
  | kDataModelUnfocused =>
    rw [htype] at hstep
    dsimp only at hstep
    split at hstep
    · cases hstep
      exact hskip (by simp [PendingHostWindowEvent.closing, htype])
    · cases hstep
      exact hback
  | kDataModelFocused =>
    rw [htype] at hstep
    dsimp only at hstep
    split at hstep
    · cases hstep
      exact hclose (by simp [PendingHostWindowEvent.closing, htype])
    · cases hstep
      exact hback
  | kMessageBusWindowClose =>
    rw [htype] at hstep
    dsimp only at hstep
    split at hstep
    · cases hstep
      exact hclose (by simp [PendingHostWindowEvent.closing, htype])
    · cases hstep
      exact hback

theorem clear_sound {event : PendingHostWindowEvent} {rest : List PendingHostWindowEvent}
    (h : Sound st)
    (hplace : st.own t = .clearActive event rest) :
    Sound (st.set t (st.shared.clearActive event) (next rest)) := by
  have hunfocusing : (st.own t).unfocusing = none := by rw [hplace]; rfl
  have hheld : (st.own t).held = rest := by rw [hplace]; rfl
  obtain ⟨hnext, hnextSaved, hnextUnfocusing, hnextHeld, hnextClearing⟩ := next_places rest
  have htracking := h.tracking.clear h.windows h.queue h.delivery hplace
  obtain ⟨target, heq⟩ : ∃ target, st.shared.clearActive event = { st.shared with target } := by
    unfold Shared.clearActive
    split
    · exact ⟨_, rfl⟩
    · exact ⟨st.shared.target, rfl⟩
  rw [heq] at htracking ⊢
  exact ⟨h.windows.frame rfl rfl (List.Subset.refl _) rfl rfl
    (fun v hv => (nomatch hnext.symm.trans hv))
      (fun v previous hv => (nomatch hnextSaved.symm.trans hv))
      (fun v hv => (nomatch hnextUnfocusing.symm.trans hv)),
    h.queue.frame rfl rfl (List.Subset.refl _) (fun v hv => .inl hv)
      (fun v hv => (nomatch hnextUnfocusing.symm.trans hv))
      (fun v hv => (nomatch hunfocusing.symm.trans hv)),
    h.delivery.append [] (List.append_nil _).symm (List.append_nil _).symm rfl
      (hnextHeld.trans hheld.symm)
      hnextClearing, htracking⟩

theorem putBack_sound {events : List PendingHostWindowEvent}
    {status status' : Status} (h : Sound st)
    (hplace : st.own t = .putBack events status) :
    Sound (st.set t
      { st.shared with pendingHostWindowEvents := events ++ st.shared.pendingHostWindowEvents }
      (.returned status')) := by
  have hopening : (st.own t).opening = none := by rw [hplace]; rfl
  have hunfocusing : (st.own t).unfocusing = none := by rw [hplace]; rfl
  have hheld : (st.own t).held = events := by rw [hplace]; rfl
  have hclearing : (st.own t).clearing = none := by rw [hplace]; rfl
  refine h.drain hopening hunfocusing rfl rfl rfl st.shared.told
    (events ++ st.shared.pendingHostWindowEvents) ?_ ?_
  · cases events with
    | nil =>
      exact h.delivery.append [] (List.append_nil _).symm
        (List.append_nil _).symm rfl hheld.symm rfl
    | cons event rest =>
      refine h.delivery.work (by rw [hheld]; nofun) rfl ?_ (List.Subset.refl _) fun e he =>
        (nomatch he)
      rw [hheld]
      simp [Place.held]
  · rintro e - (hpending | hin | hin)
    · exact .inl (List.mem_append_right _ hpending)
    · exact .inl (List.mem_append_left _ (hheld ▸ hin))
    · exact (nomatch hclearing.symm.trans hin)

/-- A step of a call in progress. -/
theorem continue_sound {answers : Answers} (h : Sound st)
    (hstep : continueCall st.shared answers (st.own t) = some (s', place'))
    (hcovered : Covered st (t, .step answers)) : Sound (st.set t s' place') := by
  cases hplace : st.own t with
  | returned status =>
    rw [hplace] at hstep
    cases hstep
  | track w request fallback =>
    rw [hplace] at hstep
    cases hstep
    exact track_sound h hplace
  | dispatchOpen w request previous =>
    rw [hplace] at hstep
    have hopening : (st.own t).opening = some w := by rw [hplace]; rfl
    have hsaved : (st.own t).saved = some (w, previous) := by rw [hplace]; rfl
    have hunfocusing : (st.own t).unfocusing = none := by rw [hplace]; rfl
    have hheld : (st.own t).held = [] := by rw [hplace]; rfl
    have hclearing : (st.own t).clearing = none := by rw [hplace]; rfl
    simp only [continueCall] at hstep
    split at hstep
    · cases hstep
      cases hfocus : w.source.takesFocus with
      | true =>
        refine h.accept hopening hsaved hunfocusing hheld hclearing rfl rfl rfl rfl fun v =>
          ⟨fun hv => ⟨(Option.some.inj hv).symm, hfocus⟩, ?_⟩
        rintro ⟨rfl, -⟩
        rfl
      | false =>
        refine h.accept hopening hsaved hunfocusing hheld hclearing rfl rfl rfl rfl fun v =>
          ⟨fun hv => (nomatch hv), ?_⟩
        rintro ⟨-, hfocus'⟩
        exact nomatch hfocus.symm.trans hfocus'
    · cases hstep
      exact h.quiet hopening.symm hsaved.symm hunfocusing.symm hheld.symm hclearing rfl
  | queueUnfocused w =>
    rw [hplace] at hstep
    cases hstep
    exact unfocus_sound h hplace hcovered.room
  | restore w previous status =>
    rw [hplace] at hstep
    cases hstep
    exact restore_sound h hplace (hcovered.restored w previous status hplace)
  | acquire events =>
    rw [hplace] at hstep
    cases hstep
    have hopening : (st.own t).opening = none := by rw [hplace]; rfl
    have hsaved : (st.own t).saved = none := by rw [hplace]; rfl
    have hunfocusing : (st.own t).unfocusing = none := by rw [hplace]; rfl
    have hheld : (st.own t).held = events := by rw [hplace]; rfl
    have hclearing : (st.own t).clearing = none := by rw [hplace]; rfl
    obtain ⟨hnext, hnextSaved, hnextUnfocusing, hnextHeld, hnextClearing⟩ := next_places events
    split
    · exact h.quiet (hnext.trans hopening.symm) (hnextSaved.trans hsaved.symm)
        (hnextUnfocusing.trans hunfocusing.symm)
        (hnextHeld.trans hheld.symm) hclearing hnextClearing
    · exact h.quiet hopening.symm hsaved.symm hunfocusing.symm hheld.symm hclearing rfl
  | deliver event rest =>
    rw [hplace] at hstep
    exact deliver_sound h hplace hstep
  | clearActive event rest =>
    rw [hplace] at hstep
    cases hstep
    exact clear_sound h hplace
  | putBack events status =>
    rw [hplace] at hstep
    cases hstep
    exact putBack_sound h hplace

theorem sound_step {what : Act} (h : Sound st)
    (hact : act nativeLogin t st.shared (st.own t) what = some (s', place'))
    (hcovered : Covered st (t, what)) :
    Sound (st.set t s' place') := by
  cases what with
  | call c =>
    cases hplace : st.own t with
    | returned status =>
      rw [hplace] at hact
      obtain ⟨hrunning, heq⟩ : (∀ w, c = .hostWindowExited w → st.shared.Running w) ∧
          begin nativeLogin st.shared c = (s', place') := by
        cases c with
        | hostWindowExited w =>
          simp only [act] at hact
          split at hact
          · next hrun =>
            refine ⟨fun v hv => ?_, Option.some.inj hact⟩
            cases hv
            exact hrun
          · cases hact
        | _ => exact ⟨nofun, Option.some.inj hact⟩
      have hs : Sound
          (st.set t (begin nativeLogin st.shared c).1 (begin nativeLogin st.shared c).2) :=
        call_sound h hplace hrunning hcovered
      rwa [heq] at hs
    | _ =>
      rw [hplace] at hact
      cases hact
  | step answers => exact continue_sound h hact hcovered

section Initial

omit [DecidableEq τ]

theorem initial_sound : Sound (⟨{}, fun _ => .returned {}⟩ : State τ) where
  windows :=
    ⟨Nat.one_ne_zero, nofun, nofun, nofun, nofun, nofun, nofun, nofun, nofun, nofun, List.nodup_nil⟩
  queue := by
    refine ⟨rfl, fun w => Nat.zero_le _, nofun, nofun, nofun, ?_, nofun⟩
    intro before e after heq
    exact absurd heq.symm (by simp)
  delivery := ⟨fun _ _ h => absurd rfl h, fun _ => rfl, fun _ h => absurd rfl h, nofun⟩
  tracking := ⟨.inl rfl, fun h => absurd rfl h, nofun, nofun, nofun⟩

end Initial

theorem reachable_sound (h : ((system nativeLogin).restrict Covered).Reachable st) : Sound st := by
  refine h.invariant (I := Sound) ?_ ?_
  · rintro _ rfl
    exact initial_sound
  · rintro st ⟨t, what⟩ _ ⟨⟨s', place', hact, rfl⟩, hcovered⟩ hs
    exact sound_step hs hact hcovered

/-! What the game was told. -/

section Told

omit [DecidableEq τ]

theorem Delivery.told (h : Delivery st) : ∃ more, st.shared.queued = st.shared.told ++ more := by
  by_cases hall : ∀ u, (st.own u).held = []
  · exact ⟨_, h.idle hall⟩
  · obtain ⟨u, hu⟩ := not_forall.1 hall
    exact ⟨(st.own u).held ++ st.shared.pendingHostWindowEvents,
      by rw [h.busy u hu, List.append_assoc]⟩

/-- Each exit queues its own event. -/
theorem Sound.closes_nodup (h : Sound st) : (st.shared.queued.filter (·.closing)).Nodup := by
  rw [h.queue.closes, List.Nodup, List.pairwise_filterMap]
  refine (List.pairwise_map.1 h.windows.once).imp_of_mem fun hx hy hne e he e' he' heq => hne ?_
  have hxe := (event_spec he).2.2
  have hye := (event_spec he').2.2
  exact h.windows.unique _ (h.windows.accepted _ (h.windows.exits _ hx)).1 _
    (h.windows.accepted _ (h.windows.exits _ hy)).1 (hxe.symm.trans (heq ▸ hye))

theorem Settled.told (hs : Settled st) (h : Sound st) : st.shared.told = st.shared.queued := by
  have hnone : ∀ u, (st.own u).held = [] := by
    intro u
    obtain ⟨status, hu⟩ := hs.returned u
    rw [hu]
    rfl
  rw [h.delivery.idle hnone, hs.drained, List.append_nil]

theorem Sound.inactive (h : Sound st) (hs : Settled st) :
    st.shared.target.activeGeneration = 0 := by
  rcases h.tracking.slot with hzero | htracked
  · exact hzero
  · exfalso
    unfold Tracked at htracked
    split at htracked
    · obtain ⟨e, -, -, hpending | ⟨u, hu⟩⟩ := htracked
      · rw [hs.drained] at hpending
        cases hpending
      · obtain ⟨status, hplace⟩ := hs.returned u
        rw [hplace] at hu
        rcases hu with hu | hu
        · cases hu
        · cases hu
    · rcases htracked with ⟨u, w, hu, -⟩ | ⟨w, hw, -⟩
      · obtain ⟨status, hplace⟩ := hs.returned u
        rw [hplace] at hu
        cases hu
      · exact hs.exited w hw

theorem Sound.closed_once (h : Sound st) {x : WindowExit} (hx : x ∈ st.shared.exits)
    (hsource : x.window.source = .kMessageBus) :
    st.shared.queued.count (closed x.window) = if x.tracked then 1 else 0 := by
  have hcount : st.shared.queued.count (closed x.window) =
      (st.shared.queued.filter (·.closing)).count (closed x.window) :=
    (List.count_filter (p := PendingHostWindowEvent.closing) rfl).symm
  have hnodup := h.closes_nodup
  rw [hcount]
  cases htracked : x.tracked with
  | true =>
    refine List.count_eq_one_of_mem hnodup ?_
    rw [h.queue.closes]
    refine List.mem_filterMap.2 ⟨x, hx, ?_⟩
    rw [WindowExit.event, if_pos htracked, hsource]
    rfl
  | false =>
    refine List.count_eq_zero_of_not_mem fun hin => ?_
    rw [h.queue.closes] at hin
    obtain ⟨y, hy, hevent⟩ := List.mem_filterMap.1 hin
    obtain ⟨hytracked, -, hgen⟩ := event_spec hevent
    have hwindow : y.window = x.window :=
      h.windows.unique _ (h.windows.accepted _ (h.windows.exits y hy)).1 _
        (h.windows.accepted _ (h.windows.exits x hx)).1 hgen.symm
    have hyx : y = x := List.inj_on_of_nodup_map h.windows.once hy hx hwindow
    rw [hyx, htracked] at hytracked
    cases hytracked

theorem Sound.focus_returned (h : Sound st) (hs : Settled st) {x : WindowExit}
    (hlast : lastFocusExit st.shared = some x) (htracked : x.tracked = true) :
    ∃ w, newestFocus st.shared.queued = some (focused w) := by
  have hmem : x ∈ st.shared.exits.filter (·.window.source.takesFocus) := List.mem_of_getLast? hlast
  obtain ⟨hx, hfocus⟩ := List.mem_filter.1 hmem
  have hevent : x.event = some (focused x.window) := by
    rw [WindowExit.event, if_pos htracked, closeEvent_of_takesFocus hfocus]
    rfl
  have hin : focused x.window ∈ st.shared.queued.filter (·.closing) := by
    rw [h.queue.closes]
    exact List.mem_filterMap.2 ⟨x, hx, hevent⟩
  have hne : st.shared.queued.filter (·.focusEvent) ≠ [] :=
    List.ne_nil_of_mem (List.mem_filter.2 ⟨(List.mem_filter.1 hin).1, rfl⟩)
  obtain ⟨e, he⟩ : ∃ e, newestFocus st.shared.queued = some e :=
    ⟨_, List.getLast?_eq_some_getLast hne⟩
  obtain ⟨hequeued, hefocus⟩ := List.mem_filter.1 (List.mem_of_getLast? he)
  have htype : e.type ≠ .kDataModelUnfocused := by
    intro htype
    rcases h.queue.newest e he htype with ⟨w, hw, -⟩ | ⟨y, hy, hytracked⟩
    · exact hs.exited w hw
    · obtain rfl := Option.some.inj (hlast.symm.trans hy)
      exact nomatch htracked.symm.trans hytracked
  have hfocused : e.type = .kDataModelFocused := by
    simpa [PendingHostWindowEvent.focusEvent, htype] using hefocus
  obtain ⟨before, after, heq⟩ := List.append_of_mem hequeued
  obtain ⟨w, -, rfl, -⟩ := h.queue.ordered before e after heq hfocused
  exact ⟨w, he⟩

theorem Sound.safe (h : Sound st) : Safe st := by
  obtain ⟨more, hmore⟩ := h.delivery.told
  have hcount : ∀ e, st.shared.told.count e ≤ st.shared.queued.count e := by
    intro e
    rw [hmore, List.count_append]
    exact Nat.le_add_right _ _
  refine ⟨?_, fun w => (hcount _).trans (h.queue.unfocusedOnce w), fun w => (hcount _).trans ?_,
    h.tracking.exits, h.inactive, ?_, ?_⟩
  · intro before e after heq htype
    refine h.queue.ordered before e (after ++ more) ?_ htype
    rw [hmore, heq, List.append_assoc]
    rfl
  · rw [← List.count_filter (p := PendingHostWindowEvent.closing) (a := focused w) rfl]
    exact List.nodup_iff_count_le_one.1 h.closes_nodup _
  · intro hs x hx hsource
    rw [hs.told h]
    exact h.closed_once hx hsource
  · intro hs x hlast htracked
    rw [hs.told h]
    exact h.focus_returned hs hlast htracked

/-- A refused open leaves a window that is still running to be reported. -/
theorem Sound.reports (h : Sound st) {p : HostWindow}
    {previous : HostWindowCloseTarget} {status : Status}
    (hplace : st.own t = .restore w previous status)
    (hactive : st.shared.target.activeGeneration = w.generation)
    (hcovered : previous.activeGeneration = 0 ∨ Awaited st t previous) (hp : st.shared.Running p)
    (hgen : previous.activeGeneration = p.generation) :
    (st.shared.restore w previous).Reports p := by
  have hbegun := (h.windows.accepted p hp.1).1
  have hpos : previous.activeGeneration ≠ 0 := hgen ▸ (h.windows.bound p hbegun).1
  have hsaved : (st.own t).saved = some (w, previous) := by rw [hplace]; rfl
  have hsource := h.windows.unique _ (h.tracking.savedBegun t w previous hsaved hpos) p hbegun hgen
  rw [Shared.restore, if_pos hactive]
  refine ⟨hgen, congrArg HostWindow.source hsource, ?_⟩
  have hawaited := hcovered.resolve_left hpos
  unfold Awaited at hawaited
  split at hawaited
  · obtain ⟨e, he, hegen, hon⟩ := hawaited
    exact absurd hp
      (closing_gone h.windows h.queue (hon.queued h.delivery) he hbegun (hegen.trans hgen)).2
  · next hclose => exact Bool.eq_false_iff.2 hclose

end Told

/-- In every covered run the game is told `Unfocused` before `Focused` and each once, a refused open
gives the slot back, and once every window has exited all that was still tracked is reported. -/
theorem host_windows_safe (h : ((system nativeLogin).restrict Covered).Reachable st) :
    Safe st ∧ ∀ t answers w previous status, st.own t = .restore w previous status →
      Covered st (t, .step answers) → st.shared.target.activeGeneration = w.generation →
        ∀ p, st.shared.Running p → previous.activeGeneration = p.generation →
          (st.shared.restore w previous).Reports p := by
  have hs := reachable_sound h
  refine ⟨hs.safe, ?_⟩
  intro t answers w previous status hplace hcovered hactive p hp hgen
  exact hs.reports hplace hactive (hcovered.restored w previous status hplace hactive) hp hgen

theorem covered_step {st : State Unit} {answers : Answers}
    (hroom : st.shared.pendingHostWindowEvents.length < kMaximumPendingHostWindowEvents)
    (hsaved : (st.own ()).saved = none ∨ ∃ w request previous,
      st.own () = .dispatchOpen w request previous) :
    Covered st ((), .step answers) where
  room := hroom
  unfocused := nofun
  restored := by
    intro w previous status hplace
    have hat : st.own () = .restore w previous status := hplace
    rw [hat] at hsaved
    rcases hsaved with hsaved | ⟨_, _, _, hsaved⟩
    · cases hsaved
    · cases hsaved
  drained := nofun

theorem covered_call {st : State Unit} {status : Status} {c : Call}
    (hplace : st.own () = .returned status)
    (hroom : st.shared.pendingHostWindowEvents.length < kMaximumPendingHostWindowEvents) :
    Covered st ((), .call c) where
  room := hroom
  unfocused := by
    rintro w - ⟨⟩
    rw [hplace]
    nofun
  restored := by
    intro w previous status' hat
    exact nomatch hplace.symm.trans hat
  drained := by
    rintro -
    refine .inr ?_
    rintro ⟨⟩
    rw [hplace]
    rfl

def profilePage : RobloxWebViewOpenRequest := { url := [117] }

/-- A profile is opened and closed. -/
theorem host_windows_safe_profile : ∃ st : State Unit, Settled st ∧ st.shared.exits ≠ [] ∧
    st.shared.target.activeGeneration = 0 ∧
    ∃ w, (st.shared.told.filter (·.focusEvent)).getLast? = some (focused w) := by
  have hrun : ∃ st : State Unit, ((system none).restrict Covered).Reachable st ∧
      st.own () = .returned {} ∧
      st.shared.pendingHostWindowEvents = [] ∧ st.shared.accepted = [⟨1, .kDataModelNotification⟩] ∧
      st.shared.exits = [⟨⟨1, .kDataModelNotification⟩, true⟩] :=
    ⟨_, ⟨_, [((), .call (.dispatchOpenRequest profilePage .kDataModelNotification)),
      ((), .step {}), ((), .step {}),
      ((), .step {}), ((), .call (.hostWindowExited ⟨1, .kDataModelNotification⟩)),
        ((), .call .drainHostWindowEvents), ((), .step {}), ((), .step {}),
        ((), .step {}), ((), .step {})], rfl,
      .cons ⟨⟨_, _, rfl, rfl⟩, covered_call rfl (by decide)⟩
        (.cons ⟨⟨_, _, rfl, rfl⟩, covered_step (by decide) (.inl rfl)⟩
        (.cons ⟨⟨_, _, rfl, rfl⟩, covered_step (by decide) (.inr ⟨_, _, _, rfl⟩)⟩
        (.cons ⟨⟨_, _, rfl, rfl⟩, covered_step (by decide) (.inl rfl)⟩
        (.cons ⟨⟨_, _, rfl, rfl⟩, covered_call rfl (by decide)⟩
        (.cons ⟨⟨_, _, rfl, rfl⟩, covered_call rfl (by decide)⟩
        (.cons ⟨⟨_, _, rfl, rfl⟩, covered_step (by decide) (.inl rfl)⟩
        (.cons ⟨⟨_, _, rfl, rfl⟩, covered_step (by decide) (.inl rfl)⟩
        (.cons ⟨⟨_, _, rfl, rfl⟩, covered_step (by decide) (.inl rfl)⟩
        (.cons ⟨⟨_, _, rfl, rfl⟩, covered_step (by decide) (.inl rfl)⟩ (.refl _))))))))))⟩, rfl,
          rfl, rfl, rfl⟩
  obtain ⟨st, hst, hreturned, hpending, haccepted, hexits⟩ := hrun
  have hsettled : Settled st := by
    refine ⟨fun _ => ⟨_, hreturned⟩, ?_, hpending⟩
    rintro w ⟨hw, hnone⟩
    rw [haccepted] at hw
    rw [hexits] at hnone
    exact hnone _ (List.mem_singleton_self _) (List.mem_singleton.1 hw).symm
  have hsafe := (host_windows_safe hst).1
  refine ⟨st, hsettled, by rw [hexits]; nofun, hsafe.inactive hsettled, ?_⟩
  refine hsafe.focusReturned hsettled ⟨⟨1, .kDataModelNotification⟩, true⟩ ?_ rfl
  rw [hexits]
  rfl

/-- A window of the message bus that another one replaces is never reported as closed. -/
theorem superseded_never_closed : ∃ st : State Unit, (system none).Reachable st ∧ Settled st ∧
    ∃ w ∈ st.shared.accepted, w.source = .kMessageBus ∧ st.shared.told.count (closed w) = 0 := by
  have hrun : ∃ st : State Unit,
      [((), Act.call (.dispatchOpenRequest profilePage .kMessageBus)), ((), .step {}),
        ((), .step {}), ((), .call (.dispatchOpenRequest profilePage .kMessageBus)),
        ((), .step {}), ((), .step {}),
        ((), .call (.hostWindowExited ⟨1, .kMessageBus⟩)),
        ((), .call (.hostWindowExited ⟨2, .kMessageBus⟩)),
        ((), .call .drainHostWindowEvents), ((), .step {}), ((), .step {}), ((), .step {})].foldlM
      (Threads.next (act none)) ⟨{}, fun _ => .returned {}⟩ = some st ∧ st.own () = .returned {} ∧
      st.shared.pendingHostWindowEvents = [] ∧
        st.shared.accepted = [⟨1, .kMessageBus⟩, ⟨2, .kMessageBus⟩] ∧
      st.shared.exits = [⟨⟨1, .kMessageBus⟩, false⟩, ⟨⟨2, .kMessageBus⟩, true⟩] ∧
      st.shared.told = [closed ⟨2, .kMessageBus⟩] :=
    ⟨_, rfl, rfl, rfl, rfl, rfl, rfl⟩
  obtain ⟨st, hst, hreturned, hpending, haccepted, hexits, htold⟩ := hrun
  refine ⟨st, reachable_of_foldlM hst, ⟨fun _ => ⟨_, hreturned⟩, ?_, hpending⟩,
    ⟨1, .kMessageBus⟩, ?_, rfl, ?_⟩
  · rintro w ⟨hw, hnone⟩
    rw [haccepted] at hw
    rw [hexits] at hnone
    rcases List.mem_pair.1 hw with rfl | rfl
    · exact hnone _ List.mem_cons_self rfl
    · exact hnone _ (List.mem_cons_of_mem _ (List.mem_singleton_self _)) rfl
  · rw [haccepted]
    exact List.mem_cons_self
  · rw [htold]
    decide

end Nightcap.WebView
