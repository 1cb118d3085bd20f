import Nightcap.Launch.Broker

/-! Accepted launches are dispatched in order: none is lost, doubled or overtaken by a failed
dispatch. -/
namespace Nightcap.Launch

open Transition Mutex

variable {τ ρ : Type} [DecidableEq τ] {requests : Requests ρ}
  {options : Options} {initial : Option ρ}
  {s s' : Broker τ ρ} {t : τ} {p : Pc ρ}

namespace Pc

/-- The thread holds `queue_mutex_`. -/
def inQueue : Pc ρ → Bool
  | .queueLocked .. | .queuePublish _ | .queueUnlock .. => true
  | .popLocked _ | .popPublish .. | .popUnlock .. | .breakUnlock => true
  | .returnLocked .. | .returnPublish _ | .returnUnlock _ => true
  | .clearLocked | .clearPublish | .clearUnlock => true
  | _ => false

/-- The thread holds `drain_mutex_`. -/
def inDrain : Pc ρ → Bool
  | .drainLocked _ | .drainLoop _ | .drainUnlock _ | .dispatch .. => true
  | .popLocked _ | .popPublish .. | .popUnlock .. | .breakUnlock => true
  | .returnLock .. | .returnLocked .. | .returnPublish _ | .returnUnlock _ => true
  | .shutdownStop | .shutdownJoin | .shutdownUnlock _ => true
  | .clearLock | .clearLocked | .clearPublish | .clearUnlock => true
  | _ => false

/-- The request `Drain` has taken out of the queue. -/
def taken : Pc ρ → Option ρ
  | .popPublish _ request | .popUnlock _ request | .dispatch _ request => some request
  | .returnLock request _ | .returnLocked request _ => some request
  | _ => none

/-- The thread has changed the queue and not published its size yet. -/
def unpublished : Pc ρ → Bool
  | .queuePublish _ | .popPublish .. | .returnPublish _ | .clearPublish => true
  | _ => false

/-- Two places between which a thread takes and leaves nothing. -/
structure Alike (p q : Pc ρ) : Prop where
  inQueue : p.inQueue = q.inQueue
  inDrain : p.inDrain = q.inDrain
  taken : p.taken = q.taken
  unpublished : p.unpublished = q.unpublished

theorem inQueue_of_unpublished (h : p.unpublished = true) : p.inQueue = true := by
  cases p <;> first | rfl | cases h

end Pc

/-- The request being dispatched. -/
def Broker.inFlight (s : Broker τ ρ) : Option ρ := kept s.drainMutex s.pc Pc.taken

/-- What holds between two accesses of the threads. -/
structure Sound (options : Options) (s : Broker τ ρ) : Prop where
  queue : Owned s.queueMutex s.pc Pc.inQueue
  drain : Owned s.drainMutex s.pc Pc.inDrain
  fifo : s.cleared = false → s.dispatched ++ s.inFlight.toList ++ s.pending = s.accepted
  count : (∃ t, (s.pc t).unpublished = true) ∨ s.pendingCount = s.pending.length
  bound : s.pending.length ≤ options.maximumPendingLaunches + s.returned.toNat
  notReturned : s.inFlight.isSome = true → s.returned = false

/-! Steps that leave the queue alone. -/

/-- The queue, its published size and its history are the same. -/
structure SameQueue (s s' : Broker τ ρ) : Prop where
  pending : s'.pending = s.pending
  pendingCount : s'.pendingCount = s.pendingCount
  accepted : s'.accepted = s.accepted
  dispatched : s'.dispatched = s.dispatched
  returned : s'.returned = s.returned
  cleared : s'.cleared = s.cleared

theorem Sound.silent (h : Sound options s) (hq : Owned s'.queueMutex s'.pc Pc.inQueue)
    (hd : Owned s'.drainMutex s'.pc Pc.inDrain) (hs : SameQueue s s')
    (hf : s'.inFlight = s.inFlight)
    (hpc : s'.pc = Function.update s.pc t p) (hp : p.unpublished = (s.pc t).unpublished) :
    Sound options s' := by
  refine ⟨hq, hd, ?_, ?_, ?_, ?_⟩
  · rw [hs.cleared, hs.dispatched, hf, hs.pending, hs.accepted]
    exact h.fifo
  · rw [hs.pendingCount, hs.pending]
    refine h.count.imp ?_ id
    rintro ⟨u, hu⟩
    refine ⟨u, ?_⟩
    rw [hpc]
    by_cases he : u = t
    · subst he
      rw [Function.update_self, hp, hu]
    · rw [Function.update_of_ne he, hu]
  · rw [hs.pending, hs.returned]
    exact h.bound
  · rw [hf, hs.returned]
    exact h.notReturned

/-- A step that takes and leaves no mutex. -/
theorem Sound.move (h : Sound options s) (hs : SameQueue s s') (hq : s'.queueMutex = s.queueMutex)
    (hd : s'.drainMutex = s.drainMutex) (hpc : s'.pc = Function.update s.pc t p)
    {q : Pc ρ} (hat : s.pc t = q) (ha : p.Alike q) : Sound options s' := by
  subst hat
  refine h.silent ?_ ?_ hs ?_ hpc ha.unpublished
  · rw [hq, hpc]
    exact h.queue.move ha.inQueue
  · rw [hd, hpc]
    exact h.drain.move ha.inDrain
  · rw [Broker.inFlight, hd, hpc]
    exact kept_move ha.taken

theorem Sound.goto (h : Sound options s) {q : Pc ρ} (hat : s.pc t = q) (ha : p.Alike q) :
    Sound options (s.goto t p) := h.move ⟨rfl, rfl, rfl, rfl, rfl, rfl⟩ rfl rfl rfl hat ha

theorem Sound.finish (h : Sound options s) {q : Pc ρ} (hat : s.pc t = q) (ha : Pc.Alike .idle q)
    (outcome : Outcome) : Sound options (s.finish t outcome) :=
  h.move ⟨rfl, rfl, rfl, rfl, rfl, rfl⟩ rfl rfl rfl hat ha

theorem Sound.lockQueue (h : Sound options s) (hl : s.lockQueue t p = some s')
    (hiq : p.inQueue = true) (hid : p.inDrain = (s.pc t).inDrain)
    (ht : p.taken = (s.pc t).taken) (hp : p.unpublished = (s.pc t).unpublished) :
    Sound options s' := by
  unfold Broker.lockQueue at hl
  split at hl
  · cases hl
  · next hfree =>
    cases hl
    have hnone : s.queueMutex = none := by simpa using hfree
    refine h.silent (h.queue.acquire hnone hiq) (h.drain.move hid)
      ⟨rfl, rfl, rfl, rfl, rfl, rfl⟩ ?_ rfl hp
    exact kept_move ht

theorem Sound.unlockQueue (h : Sound options s) (hs : SameQueue s s') (hq : s'.queueMutex = none)
    (hd : s'.drainMutex = s.drainMutex) (hpc : s'.pc = Function.update s.pc t p)
    (hin : (s.pc t).inQueue = true) (hiq : p.inQueue = false) (hid : p.inDrain = (s.pc t).inDrain)
    (ht : p.taken = (s.pc t).taken) (hp : p.unpublished = (s.pc t).unpublished) :
    Sound options s' := by
  refine h.silent ?_ ?_ hs ?_ hpc hp
  · rw [hq, hpc]
    exact h.queue.release hin hiq
  · rw [hd, hpc]
    exact h.drain.move hid
  · rw [Broker.inFlight, hd, hpc]
    exact kept_move ht

theorem Sound.lockDrain (h : Sound options s) (hl : s.lockDrain t p = some s')
    (hid : p.inDrain = true) (hiq : p.inQueue = (s.pc t).inQueue)
    (ht : p.taken = none) (hp : p.unpublished = (s.pc t).unpublished) : Sound options s' := by
  unfold Broker.lockDrain at hl
  split at hl
  · cases hl
  · next hfree =>
    cases hl
    have hnone : s.drainMutex = none := by simpa using hfree
    refine h.silent (h.queue.move hiq) (h.drain.acquire hnone hid)
      ⟨rfl, rfl, rfl, rfl, rfl, rfl⟩ ?_ rfl hp
    rw [Broker.inFlight, Broker.inFlight, hnone]
    simp [kept, Broker.goto, ht]

theorem Sound.unlockDrain (h : Sound options s) (hs : SameQueue s s')
    (hq : s'.queueMutex = s.queueMutex) (hd : s'.drainMutex = none)
    (hpc : s'.pc = Function.update s.pc t p) (hin : (s.pc t).inDrain = true)
    (hid : p.inDrain = false)
    (hiq : p.inQueue = (s.pc t).inQueue) (ht : (s.pc t).taken = none)
    (hp : p.unpublished = (s.pc t).unpublished) : Sound options s' := by
  refine h.silent ?_ ?_ hs ?_ hpc hp
  · rw [hq, hpc]
    exact h.queue.move hiq
  · rw [hd, hpc]
    exact h.drain.release hin hid
  · have hnone : s.inFlight = none := by rw [Broker.inFlight, kept_self h.drain hin, ht]
    rw [hnone, Broker.inFlight, hd]
    rfl

/-! Steps that change the queue. -/

theorem Sound.publish (h : Sound options s) (hiq : p.inQueue = (s.pc t).inQueue)
    (hid : p.inDrain = (s.pc t).inDrain) (ht : p.taken = (s.pc t).taken) :
    Sound options (s.publishPendingCount.goto t p) := by
  have hf : (s.publishPendingCount.goto t p).inFlight = s.inFlight := kept_move ht
  refine ⟨h.queue.move hiq, h.drain.move hid, ?_, .inr rfl, h.bound, ?_⟩
  · rw [hf]
    exact h.fifo
  · rw [hf]
    exact h.notReturned

/-- A request is accepted. -/
theorem Sound.push (h : Sound options s) {peer : Bool} {request : ρ}
    (hpc : s.pc t = .queueLocked peer request)
    (hroom : s.pending.length < options.maximumPendingLaunches) :
    Sound options ({ s with
      pending := s.pending ++ [request], accepted := s.accepted ++ [request] }.goto t
        (.queuePublish peer)) := by
  have hf : kept s.drainMutex (Function.update s.pc t (.queuePublish peer)) Pc.taken = s.inFlight :=
    kept_move (by rw [hpc]; rfl)
  refine ⟨h.queue.move (by rw [hpc]; rfl), h.drain.move (by rw [hpc]; rfl), fun hc => ?_,
    .inl ⟨t, by simp [Broker.goto, Pc.unpublished]⟩, ?_, fun hi => ?_⟩
  · change s.dispatched ++ (kept s.drainMutex (Function.update s.pc t (.queuePublish peer))
      Pc.taken).toList ++ (s.pending ++ [request]) = s.accepted ++ [request]
    rw [hf, ← h.fifo hc, List.append_assoc, List.append_assoc, List.append_assoc]
  · change (s.pending ++ [request]).length ≤ _
    rw [List.length_append, List.length_singleton]
    omega
  · exact h.notReturned (hf ▸ hi)

/-- `Drain` takes the first request. -/
theorem Sound.pop (h : Sound options s) {maximum : Nat} {request : ρ} {rest : List ρ}
    (hpc : s.pc t = .popLocked maximum) (hpending : s.pending = request :: rest) :
    Sound options
      ({ s with pending := rest, returned := false }.goto t (.popPublish maximum request)) := by
  have hin : (s.pc t).inDrain = true := by rw [hpc]; rfl
  have hbefore : s.inFlight = none := by
    rw [Broker.inFlight, kept_self h.drain hin, hpc]
    rfl
  have hafter : kept s.drainMutex (Function.update s.pc t (.popPublish maximum request)) Pc.taken =
      some request := by
    rw [h.drain.holder hin]
    simp [kept, Pc.taken]
  refine ⟨h.queue.move (by rw [hpc]; rfl), h.drain.move (by rw [hpc]; rfl), fun hc => ?_,
    .inl ⟨t, by simp [Broker.goto, Pc.unpublished]⟩, ?_, fun _ => rfl⟩
  · change s.dispatched ++ (kept s.drainMutex (Function.update s.pc t (.popPublish maximum request))
      Pc.taken).toList ++ rest = s.accepted
    rw [hafter, ← h.fifo hc, hbefore, hpending]
    simp
  · have hb := h.bound
    rw [hpending, List.length_cons] at hb
    have hone : s.returned.toNat ≤ 1 := Bool.toNat_le _
    change rest.length ≤ _ + 0
    omega

/-- A failed dispatch puts its request back in front. -/
theorem Sound.putBack (h : Sound options s) {request : ρ} {status : Status}
    (hpc : s.pc t = .returnLocked request status) :
    Sound options ({ s with pending := request :: s.pending, returned := true }.goto t
      (.returnPublish status)) := by
  have hin : (s.pc t).inDrain = true := by rw [hpc]; rfl
  have hbefore : s.inFlight = some request := by
    rw [Broker.inFlight, kept_self h.drain hin, hpc]
    rfl
  have hafter : kept s.drainMutex
      (Function.update s.pc t (.returnPublish status)) Pc.taken = none := by
    rw [h.drain.holder hin]
    simp [kept, Pc.taken]
  refine ⟨h.queue.move (by rw [hpc]; rfl), h.drain.move (by rw [hpc]; rfl), fun hc => ?_,
    .inl ⟨t, by simp [Broker.goto, Pc.unpublished]⟩, ?_, fun hi => ?_⟩
  · change s.dispatched ++ (kept s.drainMutex (Function.update s.pc t (.returnPublish status))
      Pc.taken).toList ++ request :: s.pending = s.accepted
    rw [hafter, ← h.fifo hc, hbefore]
    simp
  · have hb := h.bound
    rw [h.notReturned (by rw [hbefore]; rfl)] at hb
    exact Nat.succ_le_succ hb
  · have hnone :
        (kept s.drainMutex (Function.update s.pc t (.returnPublish status)) Pc.taken).isSome =
        true := hi
    rw [hafter] at hnone
    cases hnone

/-- A dispatch succeeds. -/
theorem Sound.dispatched (h : Sound options s) {maximum : Nat} {request : ρ}
    (hpc : s.pc t = .dispatch maximum request) :
    Sound options
      ({ s with dispatched := s.dispatched ++ [request] }.goto t (.drainLoop maximum)) := by
  have hin : (s.pc t).inDrain = true := by rw [hpc]; rfl
  have hbefore : s.inFlight = some request := by
    rw [Broker.inFlight, kept_self h.drain hin, hpc]
    rfl
  have hafter : kept s.drainMutex
      (Function.update s.pc t (.drainLoop maximum)) Pc.taken = none := by
    rw [h.drain.holder hin]
    simp [kept, Pc.taken]
  refine ⟨h.queue.move (by rw [hpc]; rfl), h.drain.move (by rw [hpc]; rfl),
    fun hc => ?_, ?_, h.bound,
    fun hi => ?_⟩
  · change s.dispatched ++ [request] ++ (kept s.drainMutex (Function.update s.pc t
      (.drainLoop maximum)) Pc.taken).toList ++ s.pending = s.accepted
    rw [hafter, ← h.fifo hc, hbefore]
    simp
  · refine h.count.imp ?_ id
    rintro ⟨u, hu⟩
    have hne : u ≠ t := by
      rintro rfl
      rw [hpc] at hu
      cases hu
    exact ⟨u, by simpa [Broker.goto, Function.update_of_ne hne] using hu⟩
  · have hnone : (kept s.drainMutex (Function.update s.pc t (.drainLoop maximum)) Pc.taken).isSome =
        true := hi
    rw [hafter] at hnone
    cases hnone

/-- `Shutdown` empties the queue. -/
theorem Sound.clear (h : Sound options s) (hpc : s.pc t = .clearLocked) :
    Sound options
      ({ s with pending := [], returned := false, cleared := true }.goto t .clearPublish) := by
  refine ⟨h.queue.move (by rw [hpc]; rfl), h.drain.move (by rw [hpc]; rfl), nofun,
    .inl ⟨t, by simp [Broker.goto, Pc.unpublished]⟩, Nat.zero_le _, fun _ => rfl⟩

/-! Threads. -/

theorem startCall_sound {move : Move ρ} (h : Sound options s) (hpc : s.pc t = .idle)
    (hstep : startCall requests s t move = some s') : Sound options s' := by
  unfold startCall at hstep
  split at hstep
  · split at hstep <;> cases hstep
    · exact h.finish hpc ⟨rfl, rfl, rfl, rfl⟩ _
    · exact h.goto hpc ⟨rfl, rfl, rfl, rfl⟩
  · split at hstep <;> cases hstep
    · exact h.finish hpc ⟨rfl, rfl, rfl, rfl⟩ _
    · exact h.goto hpc ⟨rfl, rfl, rfl, rfl⟩
  · split at hstep <;> cases hstep
    · exact h.finish hpc ⟨rfl, rfl, rfl, rfl⟩ _
    · exact h.goto hpc ⟨rfl, rfl, rfl, rfl⟩
  · cases hstep
    exact h.goto hpc ⟨rfl, rfl, rfl, rfl⟩
  · cases hstep

theorem queueStep_sound (h : Sound options s) (hstep : queueStep options s t (s.pc t) = some s') :
    Sound options s' := by
  unfold queueStep at hstep
  split at hstep
  · next peer request hpc =>
    split at hstep <;> cases hstep
    · exact h.finish hpc ⟨rfl, rfl, rfl, rfl⟩ _
    · exact h.goto hpc ⟨rfl, rfl, rfl, rfl⟩
  · next peer request hpc => refine h.lockQueue hstep rfl ?_ ?_ ?_ <;> rw [hpc] <;> rfl
  · next peer request hpc =>
    split at hstep
    · cases hstep
      exact h.goto hpc ⟨rfl, rfl, rfl, rfl⟩
    · split at hstep <;> cases hstep
      · exact h.goto hpc ⟨rfl, rfl, rfl, rfl⟩
      · next hroom => exact h.push hpc (Nat.lt_of_not_le hroom)
  · next peer hpc =>
    cases hstep
    refine h.publish ?_ ?_ ?_ <;> rw [hpc] <;> rfl
  · next peer status hpc =>
    cases hstep
    refine h.unlockQueue (p := .idle) ⟨rfl, rfl, rfl, rfl, rfl, rfl⟩ rfl rfl rfl ?_ rfl ?_ ?_ ?_ <;>
      rw [hpc] <;> rfl
  · cases hstep

theorem drainStep_sound (h : Sound options s) (hstep : drainStep s t (s.pc t) = some s') :
    Sound options s' := by
  unfold drainStep at hstep
  split at hstep
  · next maximum hpc =>
    split at hstep <;> cases hstep <;>
      exact h.goto hpc ⟨rfl, rfl, rfl, rfl⟩
  · next maximum hpc =>
    split at hstep <;> cases hstep
    · exact h.goto hpc ⟨rfl, rfl, rfl, rfl⟩
    · exact h.finish hpc ⟨rfl, rfl, rfl, rfl⟩ _
  · next maximum hpc => refine h.lockDrain hstep rfl ?_ rfl ?_ <;> rw [hpc] <;> rfl
  · next maximum hpc =>
    split at hstep <;> cases hstep <;>
      exact h.goto hpc ⟨rfl, rfl, rfl, rfl⟩
  · next hpc =>
    cases hstep
    exact h.goto hpc ⟨rfl, rfl, rfl, rfl⟩
  · next maximum hpc => refine h.lockQueue hstep rfl ?_ ?_ ?_ <;> rw [hpc] <;> rfl
  · next maximum hpc =>
    split at hstep <;> cases hstep
    · exact h.goto hpc ⟨rfl, rfl, rfl, rfl⟩
    · next request rest hpending => exact h.pop hpc hpending
  · next maximum request hpc =>
    cases hstep
    refine h.publish ?_ ?_ ?_ <;> rw [hpc] <;> rfl
  · next maximum request hpc =>
    cases hstep
    refine h.unlockQueue ⟨rfl, rfl, rfl, rfl, rfl, rfl⟩ rfl rfl rfl ?_ rfl ?_ ?_ ?_ <;>
      rw [hpc] <;> rfl
  · next request status hpc => refine h.lockQueue hstep rfl ?_ ?_ ?_ <;> rw [hpc] <;> rfl
  · next request status hpc =>
    cases hstep
    exact h.putBack hpc
  · next status hpc =>
    cases hstep
    refine h.publish ?_ ?_ ?_ <;> rw [hpc] <;> rfl
  · next status hpc =>
    cases hstep
    refine h.unlockQueue ⟨rfl, rfl, rfl, rfl, rfl, rfl⟩ rfl rfl rfl ?_ rfl ?_ ?_ ?_ <;>
      rw [hpc] <;> rfl
  · next hpc =>
    cases hstep
    refine h.unlockQueue ⟨rfl, rfl, rfl, rfl, rfl, rfl⟩ rfl rfl rfl ?_ rfl ?_ ?_ ?_ <;>
      rw [hpc] <;> rfl
  · next status hpc =>
    cases hstep
    refine h.unlockDrain (p := .idle) ⟨rfl, rfl, rfl, rfl, rfl, rfl⟩ rfl rfl rfl ?_ rfl ?_ ?_ ?_ <;>
      rw [hpc] <;> rfl
  · cases hstep

theorem shutdownStep_sound (h : Sound options s) (hstep : shutdownStep s t (s.pc t) = some s') :
    Sound options s' := by
  unfold shutdownStep at hstep
  split at hstep
  · next hpc =>
    split at hstep <;> cases hstep
    exact h.move ⟨rfl, rfl, rfl, rfl, rfl, rfl⟩ rfl rfl rfl hpc ⟨rfl, rfl, rfl, rfl⟩
  · next hpc =>
    split at hstep <;> cases hstep
    · exact h.move (p := .idle) ⟨rfl, rfl, rfl, rfl, rfl, rfl⟩ rfl rfl rfl hpc ⟨rfl, rfl, rfl, rfl⟩
    · exact h.goto hpc ⟨rfl, rfl, rfl, rfl⟩
  · next hpc => refine h.lockDrain hstep rfl ?_ rfl ?_ <;> rw [hpc] <;> rfl
  · next hpc =>
    cases hstep
    exact h.move ⟨rfl, rfl, rfl, rfl, rfl, rfl⟩ rfl rfl rfl hpc ⟨rfl, rfl, rfl, rfl⟩
  · next hpc => refine h.lockQueue hstep rfl ?_ ?_ ?_ <;> rw [hpc] <;> rfl
  · next hpc =>
    cases hstep
    exact h.clear hpc
  · next hpc =>
    cases hstep
    refine h.publish ?_ ?_ ?_ <;> rw [hpc] <;> rfl
  · next hpc =>
    cases hstep
    refine h.unlockQueue ⟨rfl, rfl, rfl, rfl, rfl, rfl⟩ rfl rfl rfl ?_ rfl ?_ ?_ ?_ <;>
      rw [hpc] <;> rfl
  · next status hpc =>
    cases hstep
    refine h.unlockDrain (p := .idle) ⟨rfl, rfl, rfl, rfl, rfl, rfl⟩ rfl rfl rfl ?_ rfl ?_ ?_ ?_ <;>
      rw [hpc] <;> rfl
  · cases hstep

theorem sound_step {label : τ × Move ρ} (h : Sound options s)
    (hstep : step requests options s label = some s') : Sound options s' := by
  obtain ⟨t, move⟩ := label
  unfold step at hstep
  split at hstep
  · next hpc => exact startCall_sound h hpc hstep
  · next maximum request status hpc hmove =>
    split at hstep <;> cases hstep
    · exact h.dispatched hpc
    · exact h.goto hpc ⟨rfl, rfl, rfl, rfl⟩
  · next joined hpc hmove =>
    split at hstep <;> cases hstep
    · exact h.goto hpc ⟨rfl, rfl, rfl, rfl⟩
    · exact h.goto hpc ⟨rfl, rfl, rfl, rfl⟩
  · rcases Option.or_eq_some_iff.1 hstep with hq | ⟨_, hrest⟩
    · exact queueStep_sound h hq
    · rcases Option.or_eq_some_iff.1 hrest with hd | ⟨_, hs⟩
      · exact drainStep_sound h hd
      · exact shutdownStep_sound h hs
  · cases hstep

omit [DecidableEq τ] in
theorem sound_start (h : start requests options initial = some s) : Sound options s := by
  have hmutex (inside : Pc ρ → Bool) (hi : inside .idle = false) :
      Owned (none : Option τ) (fun _ => .idle) inside := fun t => by simp [hi]
  unfold start at h
  split at h
  · cases h
  · next hvalid =>
    split at h
    · cases h
      exact ⟨hmutex _ rfl, hmutex _ rfl, fun _ => rfl, .inr rfl, Nat.zero_le _, nofun⟩
    · cases h
    · cases h
      refine ⟨hmutex _ rfl, hmutex _ rfl, fun _ => rfl, .inr rfl, ?_, nofun⟩
      have hroom : options.maximumPendingLaunches ≠ 0 := by
        simp only [Options.valid, Bool.not_eq_true', Bool.not_eq_false,
          Bool.and_eq_true, bne_iff_ne,
          ne_eq] at hvalid
        exact hvalid.1.1.1
      exact Nat.one_le_iff_ne_zero.2 hroom

theorem sound_reachable (h : (brokerLTS requests options initial).Reachable s) : Sound options s :=
  h.invariant (fun _ hi => sound_start hi) fun _ _ _ hstep hs => sound_step hs hstep

/-- Between any two accesses from `Start` on: until `Shutdown` empties the queue, the requests that
were dispatched, the one being dispatched and the queue are the accepted ones in order; the
published size is right while the mutex is free; and only a request that a failed dispatch returned
exceeds the limit. -/
theorem launches_in_order (h : (brokerLTS requests options initial).Reachable s) :
    (s.cleared = false → s.dispatched ++ s.inFlight.toList ++ s.pending = s.accepted) ∧
    (s.queueMutex = none → s.pendingCount = s.pending.length) ∧
    s.pending.length ≤ options.maximumPendingLaunches + s.returned.toNat := by
  have hs := sound_reachable h
  refine ⟨hs.fifo, fun hfree => ?_, hs.bound⟩
  rcases hs.count with ⟨t, ht⟩ | hcount
  · have hin := Pc.inQueue_of_unpublished ht
    rw [hs.queue.outside hfree t] at hin
    cases hin
  · exact hcount

/-- Requests that are their own JSON. -/
def rawRequests : Requests Utf8.Bytes := ⟨id, some⟩

/-- One thread drains the first of two requests; its dispatch fails. -/
def failedDrain : List (Bool × Move Utf8.Bytes) :=
  [(true, .queueInitial [2]), (true, .access), (true, .access), (true, .access), (true, .access),
    (true, .access), (false, .drain true 1), (false, .access), (false, .access), (false, .access),
    (false, .access), (false, .access), (false, .access), (false, .access),
    (false, .dispatched (platform "busy")), (false, .access), (false, .access), (false, .access)]

theorem launches_in_order_failed : ∃ s : Broker Bool Utf8.Bytes,
    (brokerLTS rawRequests {} (some [1])).Reachable s ∧ s.returned = true ∧ s.pending = [[1], [2]] ∧
      s.dispatched ++ s.inFlight.toList ++ s.pending = s.accepted := by
  obtain ⟨s, hs⟩ : ∃ s, failedDrain.foldlM (step rawRequests {})
      { pending := [[1]], pendingCount := 1, stopping := false, started := true
        accepted := [[1]] } =
      some s := ⟨_, rfl⟩
  have hreach : (brokerLTS rawRequests {} (some [1])).Reachable s :=
    ⟨_, failedDrain, rfl, .of_foldlM (fun _ _ _ h => h) hs⟩
  refine ⟨s, hreach, ?_, ?_, (launches_in_order hreach).1 ?_⟩ <;> cases hs <;> rfl

end Nightcap.Launch
