import Nightcap.Window.SurfaceLifecycle

/-! The events of a `WindowSurfaceLifecycle`, polled or queued, spell out one surface lifetime after
another. -/
namespace Nightcap.Window

open Transition WindowSurfaceLifecycle

/-- What the events so far say about the surface. -/
inductive View
  | none (last : UInt64)
  | created (generation : UInt64)
  | shown (surface : WindowSurfaceSnapshot)

def View.generation : View → UInt64
  | .none last => last
  | .created generation => generation
  | .shown surface => surface.generation

/-- An available surface of a real generation that passes the check of `Activate`. -/
structure Usable (s : WindowSurfaceSnapshot) : Prop where
  generation : s.generation ≠ 0
  available : s.available = true
  valid : s.valid = true

/-- Which event may come next. -/
inductive Next : View → WindowSurfaceEvent → Prop
  | created {last : UInt64} {s : WindowSurfaceSnapshot} (h : s.generation.toNat = last.toNat + 1) :
      Next (.none last) ⟨.created, s⟩
  | first {generation : UInt64} {s : WindowSurfaceSnapshot}
    (h : s.generation = generation) (hu : Usable s) :
      Next (.created generation) ⟨.changed, s⟩
  | changed {s s' : WindowSurfaceSnapshot} (h : s'.generation = s.generation) (hu : Usable s') :
      Next (.shown s) ⟨.changed, s'⟩
  | destroyed {s s' : WindowSurfaceSnapshot} (h : s'.generation = s.generation) :
      Next (.shown s) ⟨.destroyed, s'⟩

def View.after (e : WindowSurfaceEvent) : View :=
  match e.type with
  | .created => .created e.surface.generation
  | .changed => .shown e.surface
  | .destroyed => .none e.surface.generation

/-- The view once the events have been seen. -/
def View.afterAll (v : View) (es : List WindowSurfaceEvent) : View :=
  es.foldl (fun _ e => .after e) v

def Legal : View → List WindowSurfaceEvent → Prop
  | _, [] => True
  | v, e :: es => Next v e ∧ Legal (.after e) es

/-- The view of a snapshot. -/
def WindowSurfaceSnapshot.view (s : WindowSurfaceSnapshot) : View :=
  if s.available then .shown s else .none s.generation

/-- What one event does to the surface it is replayed on. -/
def WindowSurfaceEvent.replay (s : WindowSurfaceSnapshot) (e : WindowSurfaceEvent) :
    WindowSurfaceSnapshot :=
  match e.type with
  | .created => e.surface
  | .changed => e.surface
  | .destroyed => { s with nativeWindow := 0, available := false }

/-- The events of a lifecycle seen from a view end at its snapshot. -/
structure Follows (v : View) (es : List WindowSurfaceEvent) (s : WindowSurfaceSnapshot) : Prop where
  legal : Legal v es
  final : v.afterAll es = s.view
  usable : s.available = true → Usable s

/-- The types of the events of one generation, in order. -/
def typesOf (g : UInt64) (es : List WindowSurfaceEvent) : List WindowSurfaceEventType :=
  (es.filter (fun e => e.surface.generation == g)).map (·.type)

/-- `Changed* Destroyed?`. -/
def Closing (w : List WindowSurfaceEventType) : Prop :=
  ∃ n c, c ≤ 1 ∧ w = List.replicate n .changed ++ List.replicate c .destroyed

/-- `Created? Changed* Destroyed?` -/
def Lifetime (w : List WindowSurfaceEventType) : Prop :=
  Closing w ∨ ∃ w', w = .created :: w' ∧ Closing w'

/-- One lifetime after the other, from the surface the stream starts with to the current one. -/
structure Lifetimes (initial : WindowSurfaceSnapshot) (es : List WindowSurfaceEvent)
    (current : WindowSurfaceSnapshot) : Prop where
  word : ∀ g, Lifetime (typesOf g es)
  opened : ∀ g, g ≠ initial.generation → typesOf g es ≠ [] →
    (typesOf g es).head? = some .created
  rising : (initial.generation :: es.map (·.surface.generation)).IsChain
    (fun g g' => g' = g ∨ g'.toNat = g.toNat + 1)
  closed : ∀ before d after, es = before ++ d :: after → d.type = .destroyed →
    ∀ e ∈ after, e.surface.generation ≠ d.surface.generation
  replaced : ∀ before e after, es = before ++ e :: after → e.type = .created →
    ∃ d ∈ before, d.type = .destroyed ∧
      e.surface.generation.toNat = d.surface.generation.toNat + 1
  replayed : es.foldl WindowSurfaceEvent.replay initial = current
  usable : ∀ e ∈ es, e.type = .changed → e.surface.available = true ∧
    e.surface.nativeWindow ≠ 0 ∧ kMinimumWindowWidth ≤ e.surface.width ∧
    kMinimumWindowHeight ≤ e.surface.height

/-- The one kind of step every report is made of. -/
inductive Moved (l l' : WindowSurfaceLifecycle) : Prop
  | changed (hu : Usable l.current) (hu' : Usable l'.current)
      (hg : l'.current.generation = l.current.generation)
      (hq : l'.events = (l.queueLocked .changed l'.current).events)
      (ha : l'.active = l.active)
  | destroyed (hu : Usable l.current) (h : l' = l.destroyLocked)
  | restored (ha : l.current.available = false) (hu : Usable l'.current)
      (hg : l'.current.generation.toNat = l.current.generation.toNat + 1)
      (hq : l'.events = l.events ++ [⟨.created, l'.current⟩, ⟨.changed, l'.current⟩])
      (hl : l'.active = l.active)

variable {l l' : WindowSurfaceLifecycle} {s s' initial : WindowSurfaceSnapshot}
  {e : WindowSurfaceEvent} {es p q q' : List WindowSurfaceEvent} {st st' : SurfaceStream}

@[simp] theorem View.afterAll_nil (v : View) : v.afterAll [] = v := rfl

@[simp] theorem View.afterAll_cons (v : View) (e : WindowSurfaceEvent)
    (es : List WindowSurfaceEvent) : v.afterAll (e :: es) = (View.after e).afterAll es := rfl

theorem View.afterAll_append (v : View) (p q : List WindowSurfaceEvent) :
    v.afterAll (p ++ q) = (v.afterAll p).afterAll q := List.foldl_append

theorem Legal.append_iff {v : View} :
    Legal v (p ++ q) ↔ Legal v p ∧ Legal (v.afterAll p) q := by
  induction p generalizing v with
  | nil => simp [Legal]
  | cons e p ih => simp [Legal, ih, and_assoc]

theorem Next.generation_le {v : View} (h : Next v e) :
    v.generation.toNat ≤ e.surface.generation.toNat := by
  cases h with
  | created h => simp only [View.generation]; omega
  | first h => simp [View.generation, h]
  | changed h => simp [View.generation, h]
  | destroyed h => simp [View.generation, h]

theorem View.generation_after (e : WindowSurfaceEvent) :
    (View.after e).generation = e.surface.generation := by
  cases h : e.type <;> simp [View.after, View.generation, h]

theorem queueLocked_current (l : WindowSurfaceLifecycle) (type : WindowSurfaceEventType)
    (s : WindowSurfaceSnapshot) : (l.queueLocked type s).current = l.current := by
  unfold queueLocked
  split <;> [split; rfl] <;> rfl

theorem queueLocked_active (l : WindowSurfaceLifecycle) (type : WindowSurfaceEventType)
    (s : WindowSurfaceSnapshot) : (l.queueLocked type s).active = l.active := by
  unfold queueLocked
  split <;> [split; rfl] <;> rfl

theorem queueLocked_events {type : WindowSurfaceEventType} (h : type ≠ .changed) :
    (l.queueLocked type s).events = l.events ++ [⟨type, s⟩] := by
  unfold queueLocked
  split
  · rw [if_neg (fun hc => h hc.1)]
  · rfl

/-- What is queued does not depend on the surface of the lifecycle. -/
theorem queueLocked_with (l : WindowSurfaceLifecycle) (current : WindowSurfaceSnapshot)
    (type : WindowSurfaceEventType) (s : WindowSurfaceSnapshot) :
    ({ l with current }.queueLocked type s).events = (l.queueLocked type s).events := by
  unfold queueLocked
  dsimp only
  cases l.events.getLast? with
  | none => rfl
  | some back =>
    dsimp only
    split_ifs <;> rfl

/-- A `Changed` event goes to the back, in the place of one of the same generation already there. -/
theorem queueLocked_changed (l : WindowSurfaceLifecycle) (s : WindowSurfaceSnapshot) :
    ∃ q, (l.queueLocked .changed s).events = q ++ [⟨.changed, s⟩] ∧
      (q = l.events ∨ ∃ s₀, l.events = q ++ [⟨.changed, s₀⟩] ∧ s₀.generation = s.generation) := by
  unfold queueLocked
  split
  · rename_i back hb
    split
    · rename_i hc
      obtain ⟨-, ht, hg⟩ := hc
      obtain ⟨q, hq⟩ := List.getLast?_eq_some_iff.1 hb
      refine ⟨q, by simp [hq, ht], .inr ⟨back.surface, ?_, hg⟩⟩
      rw [hq, ← ht]
    · exact ⟨l.events, rfl, .inl rfl⟩
  · exact ⟨l.events, rfl, .inl rfl⟩

theorem destroyLocked_current (l : WindowSurfaceLifecycle) :
    l.destroyLocked.current = { l.current with nativeWindow := 0, available := false } := by
  simp only [destroyLocked, queueLocked_current]

theorem destroyLocked_events (l : WindowSurfaceLifecycle) :
    l.destroyLocked.events =
      l.events ++ [⟨.destroyed, { l.current with available := false }⟩] :=
  queueLocked_events (by decide)

/-- The generation after one that is not the last. -/
theorem generation_succ {g : UInt64} (h : g ≠ generationLimit) :
    (g + 1).toNat = g.toNat + 1 := by
  have hne : g.toNat ≠ generationLimit.toNat := fun hc => h (UInt64.toNat_inj.1 hc)
  have hl : generationLimit.toNat = 18446744073709551615 := rfl
  have hlt := g.toNat_lt
  rw [UInt64.toNat_add, UInt64.toNat_one, Nat.mod_eq_of_lt (by omega)]

theorem generation_ne_zero {g last : UInt64} (h : g.toNat = last.toNat + 1) : g ≠ 0 := by
  rintro rfl
  simp at h

/-- A new surface: `Created`, and `Changed` right behind it. -/
theorem queueLocked_renewed (l : WindowSurfaceLifecycle) (s : WindowSurfaceSnapshot) :
    ((l.queueLocked .created s).queueLocked .changed s).events =
      l.events ++ [⟨.created, s⟩, ⟨.changed, s⟩] := by
  obtain ⟨q, hq, hb⟩ := queueLocked_changed (l.queueLocked .created s) s
  rw [queueLocked_events (by decide)] at hb
  rw [hq]
  rcases hb with rfl | ⟨s₀, hb, -⟩
  · simp
  · have hl := congrArg List.getLast? hb
    simp at hl

/-- The lifecycle with `s` as its surface from now on. -/
theorem Moved.renewed (ha : l.current.available = false) (hu : Usable s)
    (hg : s.generation.toNat = l.current.generation.toNat + 1) :
    Moved l ((({ l with current := s }).queueLocked .created s).queueLocked .changed s) := by
  refine .restored ha ?_ ?_ ?_ ?_
  · simpa only [queueLocked_current] using hu
  · simpa only [queueLocked_current] using hg
  · simp only [queueLocked_current]
    exact queueLocked_renewed _ s
  · simp only [queueLocked_active]

theorem restoreLocked_moved {nativeWindow : UInt64} {width height : UInt32} {dpiScale : Float32}
    (ha : l.current.available = false)
    (hv : validAvailableSurface nativeWindow width height dpiScale = true) :
    Relation.ReflTransGen Moved l (l.restoreLocked nativeWindow width height dpiScale).1 := by
  unfold restoreLocked
  split
  · exact .refl
  · rename_i hg
    have hs := generation_succ hg
    exact .single (.renewed ha ⟨generation_ne_zero hs, rfl, hv⟩ hs)

theorem destroyLocked_unavailable (l : WindowSurfaceLifecycle) :
    l.destroyLocked.current.available = false := by rw [destroyLocked_current]

theorem observe_moved (hc : l.current.available = true → Usable l.current)
    (nativeWindow : UInt64) (width height : UInt32) (dpiScale : Float32) :
    Relation.ReflTransGen Moved l (l.observe nativeWindow width height dpiScale).1 := by
  have hd (ha : l.current.available = true) : Relation.ReflTransGen Moved l l.destroyLocked :=
    .single (.destroyed (hc ha) rfl)
  unfold observe
  split_ifs with h1 h2 h3 h4 h5 h6 h7 h8 h9
  · exact .refl
  · exact hd h3
  · exact .refl
  · exact hd h6.1
  · exact .refl
  all_goals try exact .refl
  all_goals
    have hv : validAvailableSurface nativeWindow width height dpiScale = true := by
      simp only [not_or, UInt32.not_lt] at h5
      simp [validAvailableSurface, h2, h5, h4]
  · exact restoreLocked_moved (by simpa using h7) hv
  · exact (hd (by simpa using h7)).trans (restoreLocked_moved (destroyLocked_unavailable l) hv)
  · have ha : l.current.available = true := by simpa using h7
    have hu := hc ha
    rw [not_not.1 h8] at hv
    refine .single (.changed hu ?_ ?_ ?_ ?_)
    · simp only [queueLocked_current]
      exact ⟨hu.generation, ha, hv⟩
    · simp only [queueLocked_current]
    · rw [queueLocked_current, queueLocked_with]
    · rw [queueLocked_active]

theorem refresh_moved (hc : l.current.available = true → Usable l.current) :
    Relation.ReflTransGen Moved l l.refresh.1 := by
  unfold refresh
  split_ifs with h1 h2
  · exact .refl
  · exact .refl
  · have hu : Usable l.current := by
      apply hc
      simp only [Bool.or_eq_true, Bool.not_eq_true', not_or, Bool.not_eq_false] at h2
      exact h2.1
    refine .single (.changed hu ?_ ?_ ?_ ?_)
    · rwa [queueLocked_current]
    · rw [queueLocked_current]
    · rw [queueLocked_current]
    · rw [queueLocked_active]

theorem recreate_moved (hc : l.current.available = true → Usable l.current) :
    Relation.ReflTransGen Moved l l.recreate.1 := by
  unfold recreate
  split_ifs with h1 h2 h3
  · exact .refl
  · exact .refl
  · exact .refl
  · have hu : Usable l.current := by
      apply hc
      simp only [Bool.or_eq_true, Bool.not_eq_true', not_or, Bool.not_eq_false] at h2
      exact h2.1
    have hs := generation_succ h3
    have hd : Moved l l.destroyLocked := .destroyed hu rfl
    refine .tail (.single hd) (.renewed (destroyLocked_unavailable l)
      (s := { l.current with generation := l.current.generation + 1 }) ?_ ?_)
    · exact ⟨generation_ne_zero hs, hu.available, hu.valid⟩
    · rwa [destroyLocked_current]

/-- Everything a report can do. -/
theorem report_moved (hc : l.current.available = true → Usable l.current) (r : SurfaceReport) :
    Relation.ReflTransGen Moved l (l.report r).1 := by
  cases r with
  | observe nativeWindow width height dpiScale => exact observe_moved hc _ _ _ _
  | refresh => exact refresh_moved hc
  | recreate => exact recreate_moved hc

theorem Next.again {v : View} (h : Next v ⟨.changed, s⟩) (hg : s.generation = s'.generation)
    (hu : Usable s') : Next v ⟨.changed, s'⟩ := by
  cases h with
  | first h => exact .first (hg.symm.trans h) hu
  | changed h => exact .changed (hg.symm.trans h) hu

theorem view_of_available (h : s.available = true) : s.view = .shown s := by
  simp [WindowSurfaceSnapshot.view, h]

theorem view_of_unavailable (h : s.available = false) : s.view = .none s.generation := by
  simp [WindowSurfaceSnapshot.view, h]

/-- A step of the lifecycle adds to the end of its events, or renews the last of them. -/
theorem Follows.moved {v : View} (h : Follows v (p ++ l.events) l.current) (hm : Moved l l') :
    Follows v (p ++ l'.events) l'.current := by
  obtain ⟨hl, hf, -⟩ := h
  cases hm with
  | changed hu hu' hg hq =>
    obtain ⟨q, hq', hb⟩ := queueLocked_changed l l'.current
    rw [hq, hq', ← List.append_assoc]
    refine ⟨?_, ?_, fun _ => hu'⟩
    · rw [Legal.append_iff]
      rcases hb with rfl | ⟨s₀, hb, hg₀⟩
      · refine ⟨hl, ?_, trivial⟩
        rw [hf, view_of_available hu.available]
        exact .changed hg hu'
      · rw [hb, ← List.append_assoc, Legal.append_iff] at hl
        exact ⟨hl.1, hl.2.1.again hg₀ hu', trivial⟩
    · rw [View.afterAll_append, view_of_available hu'.available]
      rfl
  | destroyed hu hd =>
    subst hd
    rw [destroyLocked_events, ← List.append_assoc]
    refine ⟨?_, ?_, ?_⟩
    · refine Legal.append_iff.2 ⟨hl, ?_, trivial⟩
      rw [hf, view_of_available hu.available]
      exact .destroyed rfl
    · rw [View.afterAll_append, destroyLocked_current, view_of_unavailable rfl]
      rfl
    · rw [destroyLocked_current]
      exact nofun
  | restored ha hu hg hq =>
    rw [hq, ← List.append_assoc]
    refine ⟨?_, ?_, fun _ => hu⟩
    · refine Legal.append_iff.2 ⟨hl, ?_, ?_, trivial⟩
      · rw [hf, view_of_unavailable ha]
        exact .created hg
      · exact .first rfl hu
    · rw [View.afterAll_append, view_of_available hu.available]
      rfl

theorem Follows.report {v : View} (h : Follows v (p ++ l.events) l.current) (r : SurfaceReport) :
    Follows v (p ++ (l.report r).1.events) (l.report r).1.current := by
  have hm := report_moved h.usable r
  generalize (l.report r).1 = l' at hm
  induction hm with
  | refl => exact h
  | tail _ hm ih => exact ih.moved hm

theorem replayed_moved (h : (p ++ l.events).foldl WindowSurfaceEvent.replay initial = l.current)
    (hm : Moved l l') :
    (p ++ l'.events).foldl WindowSurfaceEvent.replay initial = l'.current := by
  cases hm with
  | changed hu hu' hg hq =>
    obtain ⟨q, hq', -⟩ := queueLocked_changed l l'.current
    rw [hq, hq', ← List.append_assoc, List.foldl_append]
    rfl
  | destroyed hu hd =>
    subst hd
    rw [destroyLocked_events, ← List.append_assoc, List.foldl_append, h, destroyLocked_current]
    rfl
  | restored ha hu hg hq =>
    rw [hq, ← List.append_assoc, List.foldl_append]
    rfl

@[simp] theorem typesOf_nil (g : UInt64) : typesOf g [] = [] := rfl

theorem typesOf_cons_self (e : WindowSurfaceEvent) (es : List WindowSurfaceEvent) :
    typesOf e.surface.generation (e :: es) = e.type :: typesOf e.surface.generation es := by
  simp [typesOf]

theorem typesOf_cons_of_ne {g : UInt64} (h : e.surface.generation ≠ g)
    (es : List WindowSurfaceEvent) : typesOf g (e :: es) = typesOf g es := by
  simp [typesOf, h]

theorem typesOf_eq_nil {g : UInt64} (h : ∀ e ∈ es, e.surface.generation ≠ g) :
    typesOf g es = [] := by
  simpa [typesOf] using h

theorem Legal.generation_le {v : View} (h : Legal v es) :
    ∀ e ∈ es, v.generation.toNat ≤ e.surface.generation.toNat := by
  induction es generalizing v with
  | nil => simp
  | cons d es ih =>
    obtain ⟨hn, hl⟩ := h
    have hd := hn.generation_le
    intro e he
    rcases List.mem_cons.1 he with rfl | he
    · exact hd
    · have hr := ih hl e he
      rw [View.generation_after] at hr
      omega

/-- Nothing of a destroyed surface comes back. -/
theorem Legal.generation_ne {last : UInt64} (h : Legal (.none last) es) :
    ∀ e ∈ es, e.surface.generation ≠ last := by
  cases es with
  | nil => simp
  | cons d es =>
    obtain ⟨hn, hl⟩ := h
    cases hn with
    | created hg =>
      intro e he hc
      have hr : last.toNat + 1 ≤ e.surface.generation.toNat := by
        rcases List.mem_cons.1 he with rfl | he
        · exact hg.ge
        · have hr := hl.generation_le e he
          rw [View.generation_after] at hr
          exact hg.ge.trans hr
      rw [hc] at hr
      omega

theorem Closing.nil : Closing [] := ⟨0, 0, by omega, rfl⟩

theorem Closing.destroyed : Closing [.destroyed] := ⟨0, 1, by omega, rfl⟩

theorem Closing.changed {w : List WindowSurfaceEventType} (h : Closing w) :
    Closing (.changed :: w) := by
  obtain ⟨n, c, hc, rfl⟩ := h
  exact ⟨n + 1, c, hc, by rw [List.replicate_succ, List.cons_append]⟩

/-- A surface the view knows of ends as it should, and every other one has a lifetime of its own. -/
theorem Legal.types {v : View} (h : Legal v es) (g : UInt64) :
    (g = v.generation → Closing (typesOf g es)) ∧
      (g ≠ v.generation → typesOf g es = [] ∨
        ∃ w, typesOf g es = .created :: w ∧ Closing w) := by
  induction es generalizing v with
  | nil => exact ⟨fun _ => .nil, fun _ => .inl rfl⟩
  | cons e es ih =>
    obtain ⟨hn, hl⟩ := h
    have hr := ih hl
    rw [View.generation_after] at hr
    cases hn with
    | created hg =>
      rename_i last s
      refine ⟨fun he => ?_, fun hne => ?_⟩
      · have hd : Legal (.none last) (⟨.created, s⟩ :: es) := ⟨.created hg, hl⟩
        rw [he]
        simp only [View.generation]
        rw [typesOf_eq_nil hd.generation_ne]
        exact .nil
      · by_cases hs : s.generation = g
        · subst hs
          rw [typesOf_cons_self ⟨.created, s⟩]
          exact .inr ⟨_, rfl, hr.1 rfl⟩
        · rw [typesOf_cons_of_ne hs]
          exact hr.2 (Ne.symm hs)
    | first hg hu =>
      rename_i generation s
      subst hg
      refine ⟨?_, fun hne => ?_⟩
      · rintro rfl
        simp only [View.generation]
        rw [typesOf_cons_self ⟨.changed, s⟩]
        exact (hr.1 rfl).changed
      · rw [typesOf_cons_of_ne (Ne.symm hne)]
        exact hr.2 hne
    | changed hg hu =>
      rename_i s s'
      refine ⟨fun he => ?_, fun hne => ?_⟩
      · obtain rfl : g = s'.generation := he.trans hg.symm
        rw [typesOf_cons_self ⟨.changed, s'⟩]
        exact (hr.1 rfl).changed
      · rw [View.generation, ← hg] at hne
        rw [typesOf_cons_of_ne (Ne.symm hne)]
        exact hr.2 hne
    | destroyed hg =>
      rename_i s s'
      refine ⟨fun he => ?_, fun hne => ?_⟩
      · obtain rfl : g = s'.generation := he.trans hg.symm
        have hd : Legal (.none s'.generation) es := hl
        rw [typesOf_cons_self ⟨.destroyed, s'⟩, typesOf_eq_nil hd.generation_ne]
        exact .destroyed
      · rw [View.generation, ← hg] at hne
        rw [typesOf_cons_of_ne (Ne.symm hne)]
        exact hr.2 hne

theorem Legal.rising {v : View} (h : Legal v es) :
    (v.generation :: es.map (·.surface.generation)).IsChain
      (fun g g' => g' = g ∨ g'.toNat = g.toNat + 1) := by
  induction es generalizing v with
  | nil => exact .singleton _
  | cons e es ih =>
    obtain ⟨hn, hl⟩ := h
    have hr := ih hl
    rw [View.generation_after] at hr
    refine .cons_cons ?_ hr
    cases hn with
    | created hg => exact .inr hg
    | first hg => exact .inl hg
    | changed hg => exact .inl hg
    | destroyed hg => exact .inl hg

/-- A view without a surface is the start, or a surface was destroyed. -/
theorem View.destroyed_of_none {v : View} {last : UInt64} (h : v.afterAll es = .none last) :
    v = .none last ∨ ∃ d ∈ es, d.type = .destroyed ∧ d.surface.generation = last := by
  rcases List.eq_nil_or_concat es with rfl | ⟨es, d, rfl⟩
  · exact .inl h
  · rw [List.concat_eq_append, View.afterAll_append] at h
    refine .inr ⟨d, by simp, ?_⟩
    change View.after d = _ at h
    cases hd : d.type <;> simp_all [View.after]

theorem Legal.usable {v : View} (h : Legal v es) :
    ∀ e ∈ es, e.type = .changed → Usable e.surface := by
  induction es generalizing v with
  | nil => simp
  | cons d es ih =>
    obtain ⟨hn, hl⟩ := h
    intro e he ht
    rcases List.mem_cons.1 he with rfl | he
    · cases hn with
      | created => cases ht
      | first _ hu => exact hu
      | changed _ hu => exact hu
      | destroyed => cases ht
    · exact ih hl e he ht

theorem Usable.extent (h : Usable s) : s.nativeWindow ≠ 0 ∧ kMinimumWindowWidth ≤ s.width ∧
    kMinimumWindowHeight ≤ s.height := by
  have hv := h.valid
  simp only [WindowSurfaceSnapshot.valid, validAvailableSurface, Bool.and_eq_true, bne_iff_ne,
    decide_eq_true_eq] at hv
  exact ⟨hv.1.1.1, hv.1.1.2, hv.1.2⟩

/-- Events that follow a usable surface are lifetimes. -/
theorem Legal.lifetimes (h : Legal (.shown initial) es)
    (hr : es.foldl WindowSurfaceEvent.replay initial = s) : Lifetimes initial es s where
  word g := by
    by_cases hg : g = initial.generation
    · exact .inl ((h.types g).1 hg)
    · rcases (h.types g).2 hg with he | he
      · rw [he]
        exact .inl .nil
      · exact .inr he
  opened g hg hne := by
    rcases (h.types g).2 hg with he | ⟨w, he, -⟩
    · exact absurd he hne
    · rw [he]
      rfl
  rising := h.rising
  closed before d after he hd := by
    rw [he, Legal.append_iff] at h
    have hl := h.2.2
    simp only [View.after, hd] at hl
    exact hl.generation_ne
  replaced before e after he ht := by
    rw [he, Legal.append_iff] at h
    obtain ⟨-, hn, -⟩ := h
    generalize hv : (View.shown initial).afterAll before = v at hn
    cases hn with
    | created hg =>
      rcases View.destroyed_of_none hv with hc | ⟨d, hm, hd, rfl⟩
      · cases hc
      · exact ⟨d, hm, hd, hg⟩
    | first => cases ht
    | changed => cases ht
    | destroyed => cases ht
  replayed := hr
  usable e he ht := by
    have hu := h.usable e he ht
    exact ⟨hu.available, hu.extent⟩

theorem activate_usable {l₀ : WindowSurfaceLifecycle} {nativeWindow : UInt64}
    {width height : UInt32} {dpiScale : Float32}
    (h : l₀.activate nativeWindow width height dpiScale = (l, {})) :
    Usable l.current ∧ l.events = [] ∧ l.current.generation = 1 := by
  unfold activate at h
  cases hv : validAvailableSurface nativeWindow width height dpiScale with
  | false =>
    rw [hv] at h
    split at h <;> simp [failedPrecondition, invalidArgument] at h
  | true =>
    rw [hv] at h
    split at h
    · simp [failedPrecondition] at h
    · simp only [Bool.not_true, Bool.false_eq_true, if_false, Prod.mk.injEq] at h
      obtain ⟨rfl, -⟩ := h
      exact ⟨⟨show (1 : UInt64) ≠ 0 by decide, rfl, hv⟩, rfl, rfl⟩

theorem Follows.init (h : Usable l.current) (he : l.events = []) :
    Follows (.shown l.current) l.events l.current := by
  rw [he]
  exact ⟨trivial, (view_of_available h.available).symm, fun _ => h⟩

theorem replayed_report {v : View} (h : Follows v (p ++ l.events) l.current)
    (hr : (p ++ l.events).foldl WindowSurfaceEvent.replay initial = l.current)
    (r : SurfaceReport) :
    (p ++ (l.report r).1.events).foldl WindowSurfaceEvent.replay initial =
      (l.report r).1.current := by
  have hm := report_moved h.usable r
  generalize (l.report r).1 = l' at hm
  induction hm with
  | refl => exact hr
  | tail _ hm ih => exact replayed_moved ih hm

theorem poll_spec (l : WindowSurfaceLifecycle) :
    l.poll.1.current = l.current ∧ l.events = l.poll.2.toList ++ l.poll.1.events := by
  unfold poll
  cases he : l.events with
  | nil => simp [he]
  | cons e es => simp

theorem surfaceStream_step {v : View} {a : SurfaceAction} (hs : st.step a = some st')
    (h : Follows v st.events st.lifecycle.current)
    (hr : st.events.foldl WindowSurfaceEvent.replay initial = st.lifecycle.current) :
    Follows v st'.events st'.lifecycle.current ∧
      st'.events.foldl WindowSurfaceEvent.replay initial = st'.lifecycle.current := by
  cases a with
  | report r =>
    obtain rfl : { st with lifecycle := (st.lifecycle.report r).1 } = st' := by
      simpa [SurfaceStream.step] using hs
    exact ⟨h.report r, replayed_report h hr r⟩
  | poll =>
    obtain ⟨hc, he⟩ := poll_spec st.lifecycle
    simp only [SurfaceStream.step, Option.some.injEq] at hs
    subst hs
    have hev : st.events = (st.polled ++ st.lifecycle.poll.2.toList) ++
        st.lifecycle.poll.1.events := by
      rw [SurfaceStream.events, he, List.append_assoc]
    rw [hev, ← hc] at h hr
    exact ⟨h, hr⟩

/-- Every stream that starts with a usable surface is lifetimes of it and of its successors. -/
theorem lifetimes_reachable (hu : Usable l.current) (he : l.events = [])
    (h : (surfaceLTS l).Reachable st) :
    Lifetimes l.current st.events st.lifecycle.current := by
  have hi : Follows (.shown l.current) st.events st.lifecycle.current ∧
      st.events.foldl WindowSurfaceEvent.replay l.current = st.lifecycle.current := by
    refine h.invariant (I := fun st => Follows (.shown l.current) st.events
      st.lifecycle.current ∧
      st.events.foldl WindowSurfaceEvent.replay l.current = st.lifecycle.current) ?_ ?_
    · rintro st rfl
      refine ⟨.init hu he, ?_⟩
      change l.events.foldl _ _ = _
      rw [he]
      rfl
    · intro st a st' hs hi
      exact surfaceStream_step hs hi.1 hi.2
  exact hi.1.legal.lifetimes hi.2

end Nightcap.Window
