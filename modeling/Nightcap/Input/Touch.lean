import Nightcap.Input.Footprint
import Mathlib.Computability.Language

/-! Runs of the input router: pointer ids, and what the native side sees of each pointer. -/
namespace Nightcap.Input

open Text StateFrame Computability

variable {sink : Sink} {r r' : Router} {p : Int32} {log more : List Native} {ids : List Int32}

/-- What a native call says about a pointer. -/
def touchLetter (p : Int32) : Native → Option Int32
  | .touch id _ _ action _ _ => if id = p then some action else none
  | _ => none

def touchWord (p : Int32) (log : List Native) : List Int32 := log.filterMap (touchLetter p)

def touchAction (action : Int32) : Language Int32 := {[action]}

/-- `Down Move*` -/
def holding : Language Int32 := touchAction kAndroidTouchDown * (touchAction kAndroidTouchMove)∗

/-- `(Down Move* Up)*` -/
def taps : Language Int32 := (holding * touchAction kAndroidTouchUp)∗

/-- What the native side has seen of a pointer that is down, or that is not. -/
def seen (down : Prop) [Decidable down] : Language Int32 := if down then taps * holding else taps

theorem taps_mul_down : taps * touchAction kAndroidTouchDown ≤ taps * holding := by
  unfold holding
  calc taps * touchAction kAndroidTouchDown
      = taps * (touchAction kAndroidTouchDown * 1) := by rw [mul_one]
    _ ≤ taps * (touchAction kAndroidTouchDown * (touchAction kAndroidTouchMove)∗) := by
      gcongr
      exact one_le_kstar

theorem holding_mul_move : taps * holding * touchAction kAndroidTouchMove ≤ taps * holding := by
  rw [mul_assoc, holding, mul_assoc]
  grw [kstar_mul_le_kstar]

theorem holding_mul_up : taps * holding * touchAction kAndroidTouchUp ≤ taps := by
  rw [mul_assoc]
  exact kstar_mul_le_kstar

theorem touchWord_append (p : Int32) (log more : List Native) :
    touchWord p (log ++ more) = touchWord p log ++ touchWord p more := List.filterMap_append ..

theorem touchWord_quiet (h : ∀ n ∈ more, n.group ≠ .touch) : touchWord p more = [] := by
  refine List.filterMap_eq_nil_iff.2 fun n hn => ?_
  cases n with
  | touch => exact absurd rfl (h _ hn)
  | _ => rfl

/-- The pointers that are down, and what the native side has seen of every pointer. -/
structure TouchesShow (ids : List Int32) (log : List Native) : Prop where
  nodup : ids.Nodup
  bounds : ∀ p ∈ ids, 0 ≤ p ∧ p < 32
  word : ∀ p, touchWord p log ∈ seen (p ∈ ids)

namespace TouchesShow

theorem quiet (h : TouchesShow ids log) (hm : ∀ n ∈ more, n.group ≠ .touch) :
    TouchesShow ids (log ++ more) where
  nodup := h.nodup
  bounds := h.bounds
  word p := by
    rw [touchWord_append, touchWord_quiet hm, List.append_nil]
    exact h.word p

variable {id action width height : Int32} {x y : Float32} {ids' : List Int32}

/-- A call for one pointer. -/
theorem call (h : TouchesShow ids log) (hnodup : ids'.Nodup) (hbounds : ∀ p ∈ ids', 0 ≤ p ∧ p < 32)
    (hother : ∀ p, p ≠ id → (p ∈ ids' ↔ p ∈ ids))
    (hself : seen (id ∈ ids) * touchAction action ≤ seen (id ∈ ids')) :
    TouchesShow ids' (log ++ [.touch id x y action width height]) where
  nodup := hnodup
  bounds := hbounds
  word p := by
    rw [touchWord_append]
    by_cases hp : p = id
    · subst hp
      have hword : touchWord p [.touch p x y action width height] = [action] := by
        simp [touchWord, touchLetter]
      rw [hword]
      exact hself (Language.append_mem_mul (h.word p) rfl)
    · have hword : touchWord p [.touch id x y action width height] = [] := by
        simp [touchWord, touchLetter, Ne.symm hp]
      rw [hword, List.append_nil]
      simpa only [seen, hother p hp] using h.word p

theorem down (h : TouchesShow ids log) (hnew : id ∉ ids) (hlow : 0 ≤ id) (hhigh : id < 32) :
    TouchesShow (ids ++ [id]) (log ++ [.touch id x y kAndroidTouchDown width height]) := by
  refine h.call ?_ ?_ ?_ ?_
  · rw [← List.concat_eq_append]
    exact h.nodup.concat hnew
  · intro p hp
    rcases List.mem_append.1 hp with hp | hp
    · exact h.bounds p hp
    · obtain rfl := List.mem_singleton.1 hp
      exact ⟨hlow, hhigh⟩
  · intro p hp
    simp [hp]
  · rw [seen, seen, if_neg hnew, if_pos (by simp)]
    exact taps_mul_down

theorem move (h : TouchesShow ids log) (hold : id ∈ ids) :
    TouchesShow ids (log ++ [.touch id x y kAndroidTouchMove width height]) := by
  refine h.call h.nodup h.bounds (fun _ _ => Iff.rfl) ?_
  rw [seen, if_pos hold]
  exact holding_mul_move

theorem up (h : TouchesShow ids log) (hold : id ∈ ids) :
    TouchesShow (ids.erase id) (log ++ [.touch id x y kAndroidTouchUp width height]) := by
  refine h.call (h.nodup.erase id) (fun p hp => h.bounds p (List.mem_of_mem_erase hp)) ?_ ?_
  · intro p hp
    exact List.mem_erase_of_ne hp
  · rw [seen, seen, if_pos hold, if_neg h.nodup.not_mem_erase]
    exact holding_mul_up

end TouchesShow

/-! The router. -/

/-- The pointer ids of the active touches. -/
def Router.pointerIds (r : Router) : List Int32 := r.activeTouches.map (·.pointerId)

/-- What holds of the touches between two calls of the router. -/
structure TouchSound (sink : Sink) (r : Router) : Prop where
  shows : TouchesShow r.pointerIds r.native
  count : r.snapshot.activeTouches = r.activeTouches.length
  absent : sink.touch = false → r.activeTouches = []
  unfocused : r.snapshot.focused = false → r.activeTouches = []
  inactive : r.snapshot.active = false → r.activeTouches = []

theorem TouchSound.frame (h : TouchSound sink r) (hf : Footprint (· ≠ .touch) r r') :
    TouchSound sink r' := by
  obtain ⟨more, hn, hm⟩ := hf.native
  have ht : r'.activeTouches = r.activeTouches := congrArg Prod.fst (hf.part .touch (by simp))
  have hc : r'.snapshot.activeTouches = r.snapshot.activeTouches :=
    congrArg Prod.snd (hf.part .touch (by simp))
  constructor
  · rw [Router.pointerIds, ht, hn]
    exact h.shows.quiet hm
  · rw [hc, ht]
    exact h.count
  · rw [ht]
    exact h.absent
  · intro hu
    rw [ht]
    refine h.unfocused (Bool.eq_false_iff.2 fun hfocused => ?_)
    rw [hf.focused hfocused] at hu
    cases hu
  · rw [ht, hf.active]
    exact h.inactive

/-! One touch event. -/

theorem allocatePointerIdLocked_spec (h : ¬ allocatePointerIdLocked r < 0) :
    allocatePointerIdLocked r ∉ r.pointerIds ∧ 0 ≤ allocatePointerIdLocked r ∧
      allocatePointerIdLocked r < 32 := by
  unfold allocatePointerIdLocked at h ⊢
  dsimp only at h ⊢
  cases hfree : (List.range kMaximumAndroidPointers).find? fun candidate =>
      !r.activeTouches.any (·.pointerId == Int32.ofNat candidate) with
  | none =>
    rw [hfree] at h
    exact absurd (by decide) h
  | some candidate =>
    have hlt : candidate < 32 := by
      simpa [kMaximumAndroidPointers] using List.mem_of_find?_eq_some hfree
    have hnew : ¬ r.activeTouches.any (·.pointerId == Int32.ofNat candidate) = true := by
      simpa using List.find?_some hfree
    refine ⟨?_, ?_⟩
    · simpa [Router.pointerIds] using hnew
    · change 0 ≤ Int32.ofNat candidate ∧ Int32.ofNat candidate < 32
      interval_cases candidate <;> decide

/-- The active touches after a touch event. -/
def touchesAfter (event : TouchEvent) (active : Option Nat) (id : Int32) (x y : Float32)
    (touches : List ActiveTouch) : List ActiveTouch :=
  if event.action = .kDown then touches ++ [⟨event.touchId, event.fingerId, id, x, y⟩]
  else
    match active with
    | none => touches
    | some index =>
      if event.action = .kMove then touches.modify index fun t => { t with x, y }
      else touches.eraseIdx index

theorem dispatchTouch_spec (hok : ∀ log n, (sink.answer log n).isOk = true) (event : TouchEvent)
    (active : Option Nat) (id action : Int32) (r : Router) :
    let r' := ((dispatchTouch sink event active id action).run r).2
    ∃ x y width height, r'.native = r.native ++ [.touch id x y action width height] ∧
      r'.activeTouches = touchesAfter event active id x y r.activeTouches ∧
      r'.snapshot.activeTouches = r'.activeTouches.length := by
  let v := r.snapshot.viewport
  let x := clamp event.x 0 1 * v.roundedGuestWidth.toFloat32
  let y := clamp event.y 0 1 * v.roundedGuestHeight.toFloat32
  let n := Native.touch id x y action v.roundedGuestWidth v.roundedGuestHeight
  let status := sink.answer r.native n
  let called : Router := { r with native := r.native ++ [n] }
  let count (s : Router) : Router :=
    { s with snapshot := { s.snapshot with activeTouches := s.activeTouches.length } }
  let after : Router :=
    { called with activeTouches := touchesAfter event active id x y r.activeTouches }
  have hupdate : (if event.action = .kDown ∧ status.isOk = true then
      { called with activeTouches :=
        called.activeTouches ++ [⟨event.touchId, event.fingerId, id, x, y⟩] }
      else match active with
        | none => called
        | some index =>
          if event.action = .kMove then
            if status.isOk then
              { called with activeTouches :=
                called.activeTouches.modify index fun t => { t with x, y } }
            else called
          else { called with activeTouches := called.activeTouches.eraseIdx index }) = after := by
    have hs : status.isOk = true := hok _ _
    simp only [hs, and_true, if_true, after, touchesAfter]
    split
    · rfl
    · cases active with
      | none => rfl
      | some index =>
        dsimp only
        split <;> rfl
  have hrun : ((dispatchTouch sink event active id action).run r).2 =
      ((nativeResultLocked status .kTouch).run (count after)).2 :=
    congrArg (fun s => ((nativeResultLocked status .kTouch).run (count s)).2) hupdate
  have hsame := (nativeResultLocked_frame status .kTouch (count after)).sameInput
  have ht := congrArg Prod.fst (hsame.part .touch)
  have hc := congrArg Prod.snd (hsame.part .touch)
  rw [hrun]
  exact ⟨x, y, v.roundedGuestWidth, v.roundedGuestHeight, hsame.native, ht,
    hc.trans (congrArg List.length ht).symm⟩

/-- A touch call of a focused, active router. -/
theorem TouchSound.called (hs : TouchesShow r'.pointerIds r'.native)
    (hc : r'.snapshot.activeTouches = r'.activeTouches.length) (htouch : sink.touch = true)
    (hf : r'.snapshot.focused = true) (ha : r'.snapshot.active = true) : TouchSound sink r' where
  shows := hs
  count := hc
  absent := by simp [htouch]
  unfocused := by simp [hf]
  inactive := by simp [ha]

theorem map_touchesAfter_move (event : TouchEvent) (index : Nat) (id : Int32) (x y : Float32)
    (touches : List ActiveTouch) (he : event.action = .kMove) :
    (touchesAfter event (some index) id x y touches).map (·.pointerId) =
      touches.map (·.pointerId) := by
  rw [touchesAfter, if_neg (by simp [he]), if_pos he]
  refine List.ext_getElem? fun i => ?_
  rw [List.getElem?_map, List.getElem?_map, List.getElem?_modify]
  split
  · cases touches[i]? <;> rfl
  · cases touches[i]? <;> rfl

/-- What a touch event can do. -/
theorem handleTouchLocked_cases (sink : Sink) (event : TouchEvent) (r : Router) :
    let r' := ((handleTouchLocked sink event).run r).2
    r' = r ∨ sink.touch = true ∧
      ((event.action = .kDown ∧ ¬ allocatePointerIdLocked r < 0 ∧
          r' = ((dispatchTouch sink event none
            (allocatePointerIdLocked r) kAndroidTouchDown).run r).2) ∨
        ∃ index touch, event.action ≠ .kDown ∧ r.activeTouches[index]? = some touch ∧
          r' = ((dispatchTouch sink event (some index) touch.pointerId
            (if event.action = .kMove then kAndroidTouchMove else kAndroidTouchUp)).run r).2) := by
  unfold handleTouchLocked
  cases htouch : sink.touch with
  | false => exact .inl rfl
  | true =>
    rw [if_neg (by simp), StateT.run_bind, StateT.run_get, pure_bind]
    dsimp only
    split
    · exact .inl rfl
    · next he _ =>
      split
      · exact .inl rfl
      · next hid => exact .inr ⟨rfl, .inl ⟨he, hid, rfl⟩⟩
    · exact .inl rfl
    · next index hfind hdown =>
      have hlt := (List.findIdx?_eq_some_iff_getElem.1 hfind).1
      have hget : r.activeTouches[index]? = some r.activeTouches[index] :=
        List.getElem?_eq_getElem hlt
      refine .inr ⟨rfl, .inr ⟨index, _, fun he => hdown he, hget, ?_⟩⟩
      rw [hget]
      rfl

theorem handleTouchLocked_sound (hok : ∀ log n, (sink.answer log n).isOk = true)
    (event : TouchEvent)
    (h : TouchSound sink r) (hf : r.snapshot.focused = true) (ha : r.snapshot.active = true) :
    TouchSound sink ((handleTouchLocked sink event).run r).2 := by
  have hkept : Footprint (· = .touch) r ((handleTouchLocked sink event).run r).2 :=
    handleTouchLocked_frame event r
  have hf' := hkept.focused hf
  have ha' := hkept.active.trans ha
  rcases handleTouchLocked_cases sink event r with
      hr | ⟨htouch, ⟨he, hid, hr⟩ | ⟨index, touch, he, ht, hr⟩⟩
  · rw [hr]
    exact h
  · obtain ⟨hnew, hlow, hhigh⟩ := allocatePointerIdLocked_spec hid
    obtain ⟨x, y, width, height, hn, htouches, hc⟩ := dispatchTouch_spec hok event none
      (allocatePointerIdLocked r) kAndroidTouchDown r
    rw [hr] at hf' ha' ⊢
    refine .called ?_ hc htouch hf' ha'
    rw [hn, Router.pointerIds, htouches, touchesAfter, if_pos he, List.map_append]
    exact h.shows.down hnew hlow hhigh
  · obtain ⟨x, y, width, height, hn, htouches, hc⟩ := dispatchTouch_spec hok event (some index)
      touch.pointerId (if event.action = .kMove then kAndroidTouchMove else kAndroidTouchUp) r
    have hmem : touch.pointerId ∈ r.pointerIds :=
      List.mem_map.2 ⟨touch, List.mem_of_getElem? ht, rfl⟩
    rw [hr] at hf' ha' ⊢
    refine .called ?_ hc htouch hf' ha'
    rw [hn, Router.pointerIds, htouches]
    by_cases hmove : event.action = .kMove
    · rw [map_touchesAfter_move _ _ _ _ _ _ hmove, if_pos hmove]
      exact h.shows.move hmem
    · obtain ⟨hlt, hget⟩ := List.getElem?_eq_some_iff.1 ht
      have hids : index < r.pointerIds.length := by simpa [Router.pointerIds] using hlt
      have hid : r.pointerIds[index] = touch.pointerId := by simp [Router.pointerIds, hget]
      have herase : (r.activeTouches.eraseIdx index).map (·.pointerId) =
          r.pointerIds.erase touch.pointerId := by
        rw [← hid, h.shows.nodup.erase_getElem index hids, ← List.eraseIdx_map]
        rfl
      rw [touchesAfter, if_neg he, if_neg hmove, if_neg hmove, herase]
      exact h.shows.up hmem

/-! Releasing every touch. -/

/-- The calls that lift the touches, in order. -/
def touchUps (v : Viewport) (touches : List ActiveTouch) : List Native :=
  touches.map fun touch =>
    .touch touch.pointerId touch.x touch.y kAndroidTouchUp v.roundedGuestWidth
    v.roundedGuestHeight

theorem releaseTouches_native (htouch : sink.touch = true) (first : Status) (r : Router) :
    ((releaseTouches sink first).run r).2.native =
      r.native ++ touchUps r.snapshot.viewport r.activeTouches := by
  unfold releaseTouches
  rw [htouch]
  exact releaseLoop_native _ .kTouch r.activeTouches first r

theorem releaseTouches_idle {first : Status} (h : r.activeTouches = []) :
    ((releaseTouches sink first).run r).2.native = r.native := by
  change (((r.activeTouches.foldlM _ first : RouterM Status)).run r).2.native = r.native
  rw [h]
  rfl

theorem TouchesShow.release {touches : List ActiveTouch} (v : Viewport)
    (h : TouchesShow (touches.map (·.pointerId)) log) : TouchesShow []
    (log ++ touchUps v touches) := by
  induction touches generalizing log with
  | nil => simpa [touchUps] using h
  | cons touch touches ih =>
    have hup : TouchesShow (((touch :: touches).map (·.pointerId)).erase touch.pointerId)
        (log ++ touchUps v [touch]) := h.up (List.mem_map.2 ⟨touch, List.mem_cons_self .., rfl⟩)
    rw [List.map_cons, List.erase_cons_head] at hup
    simpa [touchUps] using ih hup

/-- Each touch that was active is lifted once. -/
theorem touchWord_touchUps {touches : List ActiveTouch} (v : Viewport)
    (h : (touches.map (·.pointerId)).Nodup) (p : Int32) : touchWord p (touchUps v touches) =
      if p ∈ touches.map (·.pointerId) then [kAndroidTouchUp] else [] := by
  induction touches with
  | nil => rfl
  | cons touch touches ih =>
    rw [List.map_cons, List.nodup_cons] at h
    have hcons : touchWord p (touchUps v (touch :: touches)) =
        (if touch.pointerId = p then [kAndroidTouchUp] else []) ++ touchWord p
        (touchUps v touches) := by
      by_cases hp : touch.pointerId = p <;> simp [touchWord, touchUps, touchLetter, hp]
    rw [hcons, ih h.2]
    by_cases hp : touch.pointerId = p
    · subst hp
      simp [h.1]
    · simp [hp, Ne.symm hp]

/-- The touches between a state and one in which all of them have been lifted. -/
structure TouchesLifted (r r' : Router) : Prop where
  none : r'.activeTouches = []
  count : r'.snapshot.activeTouches = 0
  shows : TouchesShow [] r'.native
  native : ∃ more, r'.native = r.native ++ more ∧
    ∀ p, touchWord p more = if p ∈ r.pointerIds then [kAndroidTouchUp] else []

theorem TouchesLifted.same {s : Router} (h : TouchesLifted r s) (hs : SameInput s r') :
    TouchesLifted r r' where
  none := (congrArg Prod.fst (hs.part .touch)).trans h.none
  count := (congrArg Prod.snd (hs.part .touch)).trans h.count
  shows := by
    rw [hs.native]
    exact h.shows
  native := by
    rw [hs.native]
    exact h.native

theorem TouchesLifted.frame {s : Router} (h : TouchesLifted r s)
    (hf : Footprint (· ≠ .touch) s r') :
    TouchesLifted r r' := by
  obtain ⟨more, hn, hm⟩ := hf.native
  obtain ⟨ups, hups, hword⟩ := h.native
  constructor
  · exact (congrArg Prod.fst (hf.part .touch (by simp))).trans h.none
  · exact (congrArg Prod.snd (hf.part .touch (by simp))).trans h.count
  · rw [hn]
    exact h.shows.quiet hm
  · refine ⟨ups ++ more, by rw [hn, hups, List.append_assoc], fun p => ?_⟩
    rw [touchWord_append, touchWord_quiet hm, List.append_nil, hword]

/-- `ReleasePressedInputsLocked` lifts every touch. -/
theorem releasePressedInputsLocked_lifts (h : TouchSound sink r) :
    TouchesLifted r ((releasePressedInputsLocked sink).run r).2 := by
  obtain ⟨s, first, hf, hnone, hcount, more, hn, hm⟩ := releasePressedInputsLocked_touches sink r
  have hs := h.frame hf
  obtain ⟨before, hnb, hmb⟩ := hf.native
  have hids : s.pointerIds = r.pointerIds :=
    congrArg (List.map _) (congrArg Prod.fst (hf.part .touch (by simp)))
  -- without a touch entry there is nothing to lift
  obtain ⟨ups, hups, hshows, hword⟩ : ∃ ups,
      ((releaseTouches sink first).run s).2.native = s.native ++ ups ∧
      TouchesShow [] (s.native ++ ups) ∧
      ∀ p, touchWord p ups = if p ∈ r.pointerIds then [kAndroidTouchUp] else [] := by
    cases htouch : sink.touch with
    | true =>
      refine ⟨_, releaseTouches_native htouch first s, hs.shows.release _, ?_⟩
      rw [← hids]
      exact touchWord_touchUps _ hs.shows.nodup
    | false =>
      have hno := hs.absent htouch
      have hnoIds : s.pointerIds = [] := by rw [Router.pointerIds, hno, List.map_nil]
      refine ⟨[], ?_, ?_, ?_⟩
      · rw [releaseTouches_idle hno, List.append_nil]
      · rw [List.append_nil, ← hnoIds]
        exact hs.shows
      · intro p
        rw [← hids, hnoIds]
        rfl
  constructor
  · exact hnone
  · exact hcount
  · rw [hn, hups]
    exact hshows.quiet hm
  · refine ⟨before ++ ups ++ more, ?_, fun p => ?_⟩
    · rw [hn, hups, hnb, List.append_assoc, List.append_assoc, List.append_assoc]
    rw [touchWord_append, touchWord_append, touchWord_quiet hmb, touchWord_quiet hm, hword]
    simp

theorem touchSound_of_lifted (h : TouchesLifted r r') : TouchSound sink r' where
  shows := by
    rw [Router.pointerIds, h.none]
    exact h.shows
  count := by rw [h.count, h.none, List.length_nil]
  absent _ := h.none
  unfocused _ := h.none
  inactive _ := h.none

theorem windowFocus_lifts (replies : Replies) (h : TouchSound sink r)
    (hf : r.snapshot.focused = true) :
    TouchesLifted r ((handleWindowFocus sink replies false).run r).2 :=
  (releasePressedInputsLocked_lifts h).same (handleWindowFocus_release sink replies hf).1

theorem deactivate_lifts (replies : Replies) (h : TouchSound sink r)
    (ha : r.snapshot.active = true) :
    TouchesLifted r ((deactivate sink replies).run r).2 := by
  have hlifted := releasePressedInputsLocked_lifts h
  refine TouchesLifted.same (hlifted.frame ?_) (deactivate_release sink replies ha).1
  exact (disconnectGamepadsLocked_frame _).mono fun g hg => by simp [hg]

theorem touchSound_step (hok : ∀ log n, (sink.answer log n).isOk = true) {call : Call × Replies}
    (h : TouchSound sink r) : TouchSound sink (perform sink r call) := by
  refine perform_keeps (g := .touch) (fun _ _ hf hs => hs.frame hf) ?_ ?_ ?_ ?_ h
  · intro viewport focused ha
    have hnone := h.inactive ha
    have hshows := h.shows
    rw [Router.pointerIds, hnone] at hshows
    exact ⟨hshows, rfl, fun _ => rfl, fun _ => rfl, fun _ => rfl⟩
  · intro _ ha
    exact touchSound_of_lifted (deactivate_lifts call.2 h ha)
  · intro _ _ hf
    exact touchSound_of_lifted (windowFocus_lifts call.2 h hf)
  · intro event _ hg ha
    cases event with
    | touch event =>
      have hfocused : TouchSound sink ((takeFocus).run r).2 := h.frame (takeFocus_frame r)
      exact handleTouchLocked_sound hok event hfocused rfl ha
    | _ => cases hg

theorem touchSound_initial : TouchSound sink {} where
  shows := ⟨List.nodup_nil, by simp [Router.pointerIds], fun p => Language.nil_mem_kstar _⟩
  count := rfl
  absent _ := rfl
  unfocused _ := rfl
  inactive _ := rfl

end Nightcap.Input
