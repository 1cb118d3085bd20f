import Nightcap.Audio.Counters
import Nightcap.Audio.Jobs

/-! Every submitted buffer is consumed, discarded or pending, in every interleaving of threads and
sink. -/
namespace Nightcap.Audio

open Transition Mutex

variable {τ : Type} {worker : τ} {maxBuffers : UInt32} {s s' : Queue τ} {t : τ} {p : Pc}
  {held : ReleaseTicket}

namespace Pc

/-- The thread holds `sink_operation_mutex`. -/
def inOperation : Pc → Bool
  | .enqueueLocked | .enqueueSink _ | .enqueueReleased | .enqueueFailed .. => true
  | .clearLocked | .clearSink | .clearFailed _ => true
  | .commandLocked | .commandSink | .commandFailed _ => true
  | .shutdownSink => true
  | _ => false

/-- The ticket of a counted buffer that the sink has not taken yet. -/
def ticket : Pc → Option ReleaseTicket
  | .enqueueSink ticket | .enqueueFailed ticket _ => some ticket
  | _ => none

/-- The thread is the one that shuts the queue down. -/
def stops : Pc → Bool
  | .shutdownLock | .shutdownSink | .shutdownJoin | .shutdownJoining | .shutdownLast => true
  | _ => false

/-- The thread has taken `sink_operation_mutex` to shut the queue down. -/
def sinkStopped : Pc → Bool
  | .shutdownSink | .shutdownJoin | .shutdownJoining | .shutdownLast => true
  | _ => false

/-- A place that a thread reaches from another without taking or leaving anything. -/
structure Follows (p q : Pc) : Prop where
  inOperation : p.inOperation = q.inOperation
  ticket : p.ticket = q.ticket
  stops : p.stops = true → q.stops = true
  sinkStopped : p.sinkStopped = true → q.sinkStopped = true

theorem stops_of_sinkStopped (h : p.sinkStopped = true) : p.stops = true := by
  cases p <;> first | rfl | cases h

end Pc

namespace Queue

/-- The ticket of the `Enqueue` in progress. -/
def inFlight (s : Queue τ) : Option ReleaseTicket := kept s.sinkOperationMutex s.pc Pc.ticket

/-- The tickets that are still to be released or undone. -/
def outstanding (s : Queue τ) : List ReleaseTicket := s.inFlight.toList ++ s.borrowed

/-- The queue stops, and no `Enqueue` can change its counters. -/
structure Quiet (s : Queue τ) : Prop where
  stopping : s.stopping = true
  inFlight : s.inFlight = none

/-- What holds of the threads between two steps. -/
structure Threads (s : Queue τ) : Prop where
  operation : Owned s.sinkOperationMutex s.pc Pc.inOperation
  current : ∀ ticket, s.inFlight = some ticket → ticket.generation = s.generation
  stops : ∀ t, (s.pc t).stops = true → s.stopping = true
  sinkStopped : ∀ t, (s.pc t).sinkStopped = true → s.Quiet
  forced : s.forced = true → s.Quiet

structure Sound (maxBuffers : UInt32) (s : Queue τ) : Prop where
  threads : s.Threads
  balanced : Balanced maxBuffers s.outstanding s

/-! Threads. -/

/-- The flags that `Shutdown` sets and the generation are the same. -/
structure SameFlags (s s' : Queue τ) : Prop where
  stopping : s'.stopping = s.stopping
  forced : s'.forced = s.forced
  generation : s'.generation = s.generation

theorem inFlight_self (h : s.Threads) (hin : (s.pc t).inOperation = true) :
    s.inFlight = (s.pc t).ticket := kept_self h.operation hin

/-- What the threads depend on is the same. -/
structure SameThreads (s s' : Queue τ) : Prop where
  flags : SameFlags s s'
  sinkOperationMutex : s'.sinkOperationMutex = s.sinkOperationMutex
  pc : s'.pc = s.pc
  borrowed : s'.borrowed = s.borrowed

theorem SameThreads.trans {u : Queue τ} (h : SameThreads s s') (h' : SameThreads s' u) :
    SameThreads s u :=
  ⟨⟨h'.flags.stopping.trans h.flags.stopping, h'.flags.forced.trans h.flags.forced,
    h'.flags.generation.trans h.flags.generation⟩,
    h'.sinkOperationMutex.trans h.sinkOperationMutex, h'.pc.trans h.pc,
    h'.borrowed.trans h.borrowed⟩

theorem SameThreads.inFlight (h : SameThreads s s') : s'.inFlight = s.inFlight := by
  rw [Queue.inFlight, h.sinkOperationMutex, h.pc, Queue.inFlight]

theorem sameThreads_consume (sizeBytes : UInt64) : SameThreads s (s.consume sizeBytes) := by
  unfold consume
  split <;> exact ⟨⟨rfl, rfl, rfl⟩, rfl, rfl, rfl⟩

theorem sameThreads_releaseBuffer (sizeBytes : UInt64) :
    SameThreads s (s.releaseBuffer held sizeBytes) := by
  unfold releaseBuffer
  split
  · exact ⟨⟨rfl, rfl, rfl⟩, rfl, rfl, rfl⟩
  · simp only
    generalize hs : (if 0 < s.pendingCount then s.subtractPending else s) = settled
    have hsettled : SameThreads s settled := by
      subst hs
      split <;> exact ⟨⟨rfl, rfl, rfl⟩, rfl, rfl, rfl⟩
    split
    · exact hsettled.trans ⟨⟨rfl, rfl, rfl⟩, rfl, rfl, rfl⟩
    · exact hsettled.trans (sameThreads_consume sizeBytes)

theorem Threads.same (h : s.Threads) (hs : SameFlags s s')
    (hmutex : s'.sinkOperationMutex = s.sinkOperationMutex) (hpc : s'.pc = s.pc) : s'.Threads := by
  have hflight : s'.inFlight = s.inFlight := by rw [Queue.inFlight, hmutex, hpc, Queue.inFlight]
  have hquiet : s.Quiet → s'.Quiet := fun hq =>
    ⟨hs.stopping.trans hq.stopping, hflight.trans hq.inFlight⟩
  refine ⟨?_, ?_, fun u hu => ?_, fun u hu => ?_, fun hf => ?_⟩
  · rw [hmutex, hpc]
    exact h.operation
  · rw [hflight, hs.generation]
    exact h.current
  · rw [hpc] at hu
    rw [hs.stopping]
    exact h.stops u hu
  · rw [hpc] at hu
    exact hquiet (h.sinkStopped u hu)
  · exact hquiet (h.forced (hs.forced ▸ hf))

/-- The sink releases a buffer it holds. -/
theorem Sound.released (h : Sound maxBuffers s) (hheld : held ∈ s.borrowed) (sizeBytes : UInt64) :
    Sound maxBuffers
      ({ s with borrowed := s.borrowed.erase held }.releaseBuffer held sizeBytes) := by
  have hsame : SameThreads { s with borrowed := s.borrowed.erase held }
      ({ s with borrowed := s.borrowed.erase held }.releaseBuffer held sizeBytes) :=
    sameThreads_releaseBuffer sizeBytes
  refine ⟨h.threads.same ⟨hsame.flags.stopping, hsame.flags.forced, hsame.flags.generation⟩
    hsame.sinkOperationMutex hsame.pc, ?_⟩
  have hperm : s.outstanding.Perm (held :: (s.inFlight.toList ++ s.borrowed.erase held)) :=
    ((List.perm_cons_erase hheld).append_left _).trans List.perm_middle
  have hb : Balanced maxBuffers (held :: (s.inFlight.toList ++ s.borrowed.erase held))
      { s with borrowed := s.borrowed.erase held } :=
    (h.balanced.perm hperm).same ⟨rfl, rfl, rfl, rfl, rfl, rfl, rfl⟩
  rw [outstanding, hsame.inFlight, hsame.borrowed]
  exact balanced_released hb sizeBytes

/-- A step of the callback thread. -/
theorem Sound.runCallbacks (h : Sound maxBuffers s) (hstep : s.runCallbacks = some s') :
    Sound maxBuffers s' := by
  have hsame {u : Queue τ} (hc : SameCounts s u) (ht : SameThreads s u) : Sound maxBuffers u := by
    refine ⟨h.threads.same ht.flags ht.sinkOperationMutex ht.pc, ?_⟩
    rw [outstanding, ht.inFlight, ht.borrowed]
    exact h.balanced.same hc
  unfold Queue.runCallbacks at hstep
  split at hstep
  · cases hstep
  · split at hstep
    · cases hstep
      exact hsame ⟨rfl, rfl, rfl, rfl, rfl, rfl, rfl⟩ ⟨⟨rfl, rfl, rfl⟩, rfl, rfl, rfl⟩
    · split at hstep <;> cases hstep
      exact hsame ⟨rfl, rfl, rfl, rfl, rfl, rfl, rfl⟩ ⟨⟨rfl, rfl, rfl⟩, rfl, rfl, rfl⟩

theorem sound_initial : Sound maxBuffers ({ callbackThreadStarted := true } : Queue τ) := by
  refine ⟨⟨fun _ => ?_, nofun, nofun, nofun, nofun⟩, fun _ => rfl, fun _ => rfl,
    nofun, Nat.zero_le _, rfl⟩
  simp [Pc.inOperation]

variable [DecidableEq τ]

/-- One thread moves. -/
theorem Threads.update (h : s.Threads) (hpc : s'.pc = Function.update s.pc t p)
    (hop : Owned s'.sinkOperationMutex s'.pc Pc.inOperation)
    (hcurrent : ∀ ticket, s'.inFlight = some ticket → ticket.generation = s'.generation)
    (hstopping : s.stopping = true → s'.stopping = true)
    (hstops : p.stops = true → s'.stopping = true)
    (hquiet : s.Quiet → s'.Quiet) (hsink : p.sinkStopped = true → s'.Quiet)
    (hforced : s'.forced = true → s'.Quiet) : s'.Threads := by
  refine ⟨hop, hcurrent, fun u hu => ?_, fun u hu => ?_, hforced⟩
  · rw [hpc] at hu
    by_cases he : u = t
    · subst he
      rw [Function.update_self] at hu
      exact hstops hu
    · rw [Function.update_of_ne he] at hu
      exact hstopping (h.stops u hu)
  · rw [hpc] at hu
    by_cases he : u = t
    · subst he
      rw [Function.update_self] at hu
      exact hsink hu
    · rw [Function.update_of_ne he] at hu
      exact hquiet (h.sinkStopped u hu)

theorem Threads.move (h : s.Threads) (hs : SameFlags s s')
    (hmutex : s'.sinkOperationMutex = s.sinkOperationMutex) (hpc : s'.pc = Function.update s.pc t p)
    {q : Pc} (hat : s.pc t = q) (hp : p.Follows q) : s'.Threads := by
  subst hat
  have hflight : s'.inFlight = s.inFlight := by
    rw [inFlight, hmutex, hpc]
    exact kept_move hp.ticket
  have hquiet : s.Quiet → s'.Quiet := by
    rintro ⟨hstopping, hnone⟩
    exact ⟨hs.stopping.trans hstopping, hflight.trans hnone⟩
  refine h.update hpc ?_ ?_ ?_ ?_ hquiet ?_ ?_
  · rw [hmutex, hpc]
    exact h.operation.move hp.inOperation
  · rw [hflight, hs.generation]
    exact h.current
  · rw [hs.stopping]
    exact id
  · intro hstops
    rw [hs.stopping]
    exact h.stops t (hp.stops hstops)
  · intro hsink
    exact hquiet (h.sinkStopped t (hp.sinkStopped hsink))
  · intro hforced
    exact hquiet (h.forced (hs.forced ▸ hforced))

/-- A thread takes `sink_operation_mutex`. -/
theorem Threads.enter (h : s.Threads) (hs : SameFlags s s') (hfree : s.sinkOperationMutex = none)
    (hmutex : s'.sinkOperationMutex = some t) (hpc : s'.pc = Function.update s.pc t p)
    (hin : p.inOperation = true) (hticket : p.ticket = none)
    (hstops : p.stops = true → (s.pc t).stops = true) : s'.Threads := by
  have hflight : s'.inFlight = none := by simp [inFlight, kept, hmutex, hpc, hticket]
  have hquiet : s.stopping = true → s'.Quiet :=
    fun hstopping => ⟨hs.stopping.trans hstopping, hflight⟩
  refine h.update hpc ?_ ?_ ?_ ?_ (fun hq => hquiet hq.stopping) ?_ ?_
  · rw [hmutex, hpc]
    exact h.operation.acquire hfree hin
  · rw [hflight]
    intro ticket hticket
    cases hticket
  · rw [hs.stopping]
    exact id
  · intro hp
    rw [hs.stopping]
    exact h.stops t (hstops hp)
  · intro hsink
    exact hquiet (h.stops t (hstops (Pc.stops_of_sinkStopped hsink)))
  · intro hforced
    exact hquiet (h.forced (hs.forced ▸ hforced)).stopping

/-- A thread leaves `sink_operation_mutex`. -/
theorem Threads.leave (h : s.Threads) (hs : SameFlags s s') (hmutex : s'.sinkOperationMutex = none)
    (hpc : s'.pc = Function.update s.pc t p) (hin : (s.pc t).inOperation = true)
    (hout : p.inOperation = false) (hsink : p.stops = true → (s.pc t).sinkStopped = true) :
    s'.Threads := by
  have hflight : s'.inFlight = none := by simp [inFlight, kept, hmutex]
  have hquiet : s.Quiet → s'.Quiet := fun hq => ⟨hs.stopping.trans hq.stopping, hflight⟩
  refine h.update hpc ?_ ?_ ?_ ?_ hquiet ?_ ?_
  · rw [hmutex, hpc]
    exact h.operation.release hin hout
  · rw [hflight]
    intro ticket hticket
    cases hticket
  · rw [hs.stopping]
    exact id
  · intro hp
    exact (hquiet (h.sinkStopped t (hsink hp))).stopping
  · intro hp
    exact hquiet (h.sinkStopped t (hsink (Pc.stops_of_sinkStopped hp)))
  · intro hforced
    exact hquiet (h.forced (hs.forced ▸ hforced))

/-! Steps. -/

/-- A step that changes no counter and moves no ticket. -/
theorem Sound.move (h : Sound maxBuffers s) (hs : SameFlags s s') (hc : SameCounts s s')
    (hmutex : s'.sinkOperationMutex = s.sinkOperationMutex) (hborrowed : s'.borrowed = s.borrowed)
    (hpc : s'.pc = Function.update s.pc t p) {q : Pc} (hat : s.pc t = q) (hp : p.Follows q) :
    Sound maxBuffers s' := by
  refine ⟨h.threads.move hs hmutex hpc hat hp, ?_⟩
  have hflight : s'.inFlight = s.inFlight := by
    rw [inFlight, hmutex, hpc]
    exact kept_move (hat ▸ hp.ticket)
  rw [outstanding, hflight, hborrowed]
  exact h.balanced.same hc

theorem Sound.goto (h : Sound maxBuffers s) {q : Pc} (hat : s.pc t = q) (hp : p.Follows q) :
    Sound maxBuffers (s.goto t p) :=
  h.move ⟨rfl, rfl, rfl⟩ ⟨rfl, rfl, rfl, rfl, rfl, rfl, rfl⟩ rfl rfl rfl hat hp

theorem Sound.finish (h : Sound maxBuffers s) {q : Pc} (hat : s.pc t = q) (hp : Pc.idle.Follows q)
    (outcome : Outcome) : Sound maxBuffers (s.finish t outcome) :=
  h.move ⟨rfl, rfl, rfl⟩ ⟨rfl, rfl, rfl, rfl, rfl, rfl, rfl⟩ rfl rfl rfl hat hp

theorem Sound.lockOperation (h : Sound maxBuffers s) (hl : s.lockOperation t p = some s')
    (hin : p.inOperation = true) (hticket : p.ticket = none)
    (hstops : p.stops = true → (s.pc t).stops = true) : Sound maxBuffers s' := by
  unfold Queue.lockOperation at hl
  split at hl
  · cases hl
  · next hfree =>
    cases hl
    have hnone : s.sinkOperationMutex = none := by simpa using hfree
    have hbefore : s.inFlight = none := by simp [inFlight, kept, hnone]
    refine ⟨h.threads.enter ⟨rfl, rfl, rfl⟩ hnone rfl rfl hin hticket hstops, ?_⟩
    have hb := h.balanced
    rw [outstanding, hbefore] at hb
    have hafter : kept (some t) (Function.update s.pc t p) Pc.ticket = none := by
      simp [kept, hticket]
    change Balanced _ ((kept (some t) (Function.update s.pc t p) Pc.ticket).toList ++ s.borrowed) _
    rw [hafter]
    exact hb.same ⟨rfl, rfl, rfl, rfl, rfl, rfl, rfl⟩

/-- A call that counted nothing leaves `sink_operation_mutex`. -/
theorem Sound.leave (h : Sound maxBuffers s) (hs : SameFlags s s') (hc : SameCounts s s')
    (hmutex : s'.sinkOperationMutex = none) (hborrowed : s'.borrowed = s.borrowed)
    (hpc : s'.pc = Function.update s.pc t p) (hin : (s.pc t).inOperation = true)
    (hticket : (s.pc t).ticket = none) (hout : p.inOperation = false)
    (hsink : p.stops = true → (s.pc t).sinkStopped = true) : Sound maxBuffers s' := by
  refine ⟨h.threads.leave hs hmutex hpc hin hout hsink, ?_⟩
  have hbefore : s.inFlight = none := (inFlight_self h.threads hin).trans hticket
  have hafter : s'.inFlight = none := by simp [inFlight, kept, hmutex]
  have hb := h.balanced
  rw [outstanding, hbefore] at hb
  rw [outstanding, hafter, hborrowed]
  exact hb.same hc

theorem Sound.finishOperation (h : Sound maxBuffers s) {q : Pc} (hat : s.pc t = q)
    (hin : q.inOperation = true) (hticket : q.ticket = none) (outcome : Outcome) :
    Sound maxBuffers (s.finishOperation t outcome) := by
  subst hat
  exact h.leave (p := .idle) ⟨rfl, rfl, rfl⟩ ⟨rfl, rfl, rfl, rfl, rfl, rfl,
    rfl⟩ rfl rfl rfl hin hticket
    rfl nofun

/-- The sink takes a buffer. -/
theorem Sound.taken (h : Sound maxBuffers s)
    (hat : s.pc t = .enqueueSink held) (outcome : Outcome) :
    Sound maxBuffers ({ s with borrowed := held :: s.borrowed }.finishOperation t outcome) := by
  have hin : (s.pc t).inOperation = true := by
    rw [hat]
    rfl
  have hflight : s.inFlight = some held := by
    rw [inFlight_self h.threads hin, hat]
    rfl
  refine ⟨h.threads.leave (p := .idle) ⟨rfl, rfl, rfl⟩ rfl rfl hin rfl nofun, ?_⟩
  have hb := h.balanced
  rw [outstanding, hflight] at hb
  exact hb.same ⟨rfl, rfl, rfl, rfl, rfl, rfl, rfl⟩

/-- The sink has refused a buffer. -/
theorem Sound.refused (h : Sound maxBuffers s) {status : Status}
    (hat : s.pc t = .enqueueFailed held status) :
    Sound maxBuffers (s.enqueueFailedSection t status) := by
  have hin : (s.pc t).inOperation = true := by
    rw [hat]
    rfl
  have hflight : s.inFlight = some held := by
    rw [inFlight_self h.threads hin, hat]
    rfl
  have hforced : s.forced = false := by
    refine Bool.eq_false_iff.2 fun hf => ?_
    have hnone := (h.threads.forced hf).inFlight
    rw [hflight] at hnone
    cases hnone
  refine ⟨h.threads.leave (p := .idle) ⟨rfl, rfl, rfl⟩ rfl rfl hin rfl nofun, ?_⟩
  have hb := h.balanced
  rw [outstanding, hflight] at hb
  have hundone := balanced_refused hb (h.threads.current held hflight) hforced
  exact hundone.same ⟨rfl, rfl, rfl, rfl, rfl, rfl, rfl⟩

/-- `AbiEnqueue` counts a buffer before the sink gets it. -/
theorem Sound.submitted (h : Sound maxBuffers s) (hat : s.pc t = .enqueueLocked)
    (hrunning : s.stopping = false) (hroom : ¬maxBuffers.toUInt64 ≤ s.pendingCount) :
    Sound maxBuffers ({ s with
      pendingCount := s.pendingCount + 1, submittedBuffers := s.submittedBuffers + 1 }.goto t
        (.enqueueSink ⟨s.generation⟩)) := by
  have hin : (s.pc t).inOperation = true := by
    rw [hat]
    rfl
  have hbefore : s.inFlight = none := by
    rw [inFlight_self h.threads hin, hat]
    rfl
  have hafter : kept s.sinkOperationMutex (Function.update s.pc t (.enqueueSink ⟨s.generation⟩))
      Pc.ticket = some ⟨s.generation⟩ := by
    rw [h.threads.operation.holder hin]
    simp [kept, Pc.ticket]
  have hloud : ¬s.Quiet := fun hq => by
    rw [hq.stopping] at hrunning
    cases hrunning
  refine ⟨h.threads.update rfl (h.threads.operation.move (by rw [hat]; rfl)) ?_ id
    (fun hp => by cases hp)
    (fun hq => absurd hq hloud) (fun hp => by cases hp)
    (fun hf => absurd (h.threads.forced hf) hloud), ?_⟩
  · intro ticket hticket
    cases hafter.symm.trans hticket
    rfl
  · have hb := h.balanced
    rw [outstanding, hbefore] at hb
    change Balanced
      _ ((kept s.sinkOperationMutex (Function.update s.pc t _) Pc.ticket).toList ++ s.borrowed) _
    rw [hafter]
    exact (balanced_submitted hb hroom).same ⟨rfl, rfl, rfl, rfl, rfl, rfl, rfl⟩

/-- `AbiClear` discards what is pending. -/
theorem Sound.cleared (h : Sound maxBuffers s) (hat : s.pc t = .clearLocked) :
    Sound maxBuffers ({ s with
      generation := s.generation + 1
      discardedBuffers := s.discardedBuffers + s.pendingCount
      pendingCount := 0 }.goto t .clearSink) := by
  have hin : (s.pc t).inOperation = true := by
    rw [hat]
    rfl
  have hbefore : s.inFlight = none := by
    rw [inFlight_self h.threads hin, hat]
    rfl
  have hafter : kept s.sinkOperationMutex (Function.update s.pc t .clearSink) Pc.ticket = none := by
    rw [h.threads.operation.holder hin]
    simp [kept, Pc.ticket]
  refine ⟨h.threads.update rfl (h.threads.operation.move (by rw [hat]; rfl)) ?_ id
    (fun hp => by cases hp)
    (fun hq => ⟨hq.stopping, hafter⟩) (fun hp => by cases hp)
    (fun hf => ⟨(h.threads.forced hf).stopping, hafter⟩), ?_⟩
  · intro ticket hticket
    cases hafter.symm.trans hticket
  · have hb := h.balanced
    rw [outstanding, hbefore] at hb
    change Balanced
      _ ((kept s.sinkOperationMutex (Function.update s.pc t .clearSink) Pc.ticket).toList ++
        s.borrowed) _
    rw [hafter]
    exact (balanced_cleared hb).same ⟨rfl, rfl, rfl, rfl, rfl, rfl, rfl⟩

/-- `Shutdown` begins. -/
theorem Sound.stopped (h : Sound maxBuffers s) (hat : s.pc t = .idle) :
    Sound maxBuffers ({ s with
      shutdownStarted := true
      stopping := true
      callback := nullptr
      callbackContext := nullptr
      callbackJobs := [] }.goto t .shutdownLock) := by
  have hflight : kept s.sinkOperationMutex (Function.update s.pc t .shutdownLock) Pc.ticket =
      s.inFlight :=
    kept_move (by rw [hat]; rfl)
  refine ⟨h.threads.update rfl (h.threads.operation.move (by rw [hat]; rfl)) ?_ (fun _ => rfl)
    (fun _ => rfl) (fun hq => ⟨rfl, hflight.trans hq.inFlight⟩) nofun
    (fun hf => ⟨rfl, hflight.trans (h.threads.forced hf).inFlight⟩), ?_⟩
  · intro ticket hticket
    exact h.threads.current ticket (hflight.symm.trans hticket)
  · change Balanced _ ((kept s.sinkOperationMutex (Function.update s.pc t .shutdownLock)
      Pc.ticket).toList ++ s.borrowed) _
    rw [hflight]
    exact h.balanced.same ⟨rfl, rfl, rfl, rfl, rfl, rfl, rfl⟩

/-- `Shutdown` forces the count to zero. -/
theorem Sound.forcedZero (h : Sound maxBuffers s) (hat : s.pc t = .shutdownLast) (status : Status) :
    Sound maxBuffers
      ({ s with
        lastStatus := status, pendingCount := 0, forced := true, shutdownComplete := true }.goto t
          .idle) := by
  have hquiet : s.Quiet := h.threads.sinkStopped t (by rw [hat]; rfl)
  have hflight : kept s.sinkOperationMutex (Function.update s.pc t .idle) Pc.ticket = s.inFlight :=
    kept_move (by rw [hat]; rfl)
  have hafter := hflight.trans hquiet.inFlight
  refine ⟨h.threads.update rfl (h.threads.operation.move (by rw [hat]; rfl)) ?_ id nofun
    (fun _ => ⟨hquiet.stopping, hafter⟩) nofun (fun _ => ⟨hquiet.stopping, hafter⟩), ?_⟩
  · intro ticket hticket
    cases hafter.symm.trans hticket
  · change Balanced
      _ ((kept s.sinkOperationMutex (Function.update s.pc t .idle) Pc.ticket).toList ++
        s.borrowed) _
    rw [hflight]
    exact ⟨nofun, nofun, h.balanced.ages, Nat.zero_le _, h.balanced.noUnderflow⟩

/-- The sink releases the buffer that a thread is enqueuing. -/
theorem Sound.releasedInside (h : Sound maxBuffers s) (hat : s.pc t = .enqueueSink held)
    (sizeBytes : UInt64) :
    Sound maxBuffers ((s.releaseBuffer held sizeBytes).goto t .enqueueReleased) := by
  have hsame : SameThreads s (s.releaseBuffer held sizeBytes) := sameThreads_releaseBuffer sizeBytes
  have hin : (s.pc t).inOperation = true := by
    rw [hat]
    rfl
  have hbefore : s.inFlight = some held := by
    rw [inFlight_self h.threads hin, hat]
    rfl
  have hmutex : (s.releaseBuffer held sizeBytes).sinkOperationMutex = some t :=
    hsame.sinkOperationMutex.trans (h.threads.operation.holder hin)
  have hafter : ((s.releaseBuffer held sizeBytes).goto t .enqueueReleased).inFlight = none := by
    change kept (s.releaseBuffer held sizeBytes).sinkOperationMutex
      (Function.update _ t .enqueueReleased)
      Pc.ticket = none
    rw [hmutex]
    simp [kept, Pc.ticket]
  have hthreads := h.threads.same hsame.flags hsame.sinkOperationMutex hsame.pc
  refine ⟨hthreads.update rfl (hthreads.operation.move (by rw [hsame.pc, hat]; rfl)) ?_ id
    (fun hp => by cases hp)
    (fun hq => ⟨hq.stopping, hafter⟩) (fun hp => by cases hp)
    (fun hf => ⟨(hthreads.forced hf).stopping, hafter⟩), ?_⟩
  · rw [hafter]
    intro ticket hticket
    cases hticket
  · have hb := h.balanced
    rw [outstanding, hbefore] at hb
    rw [outstanding, hafter]
    change Balanced _ (s.releaseBuffer held sizeBytes).borrowed _
    rw [hsame.borrowed]
    exact (balanced_released hb sizeBytes).same ⟨rfl, rfl, rfl, rfl, rfl, rfl, rfl⟩

/-! Threads step by step. -/

theorem startCall_sound {move : Move} (h : Sound maxBuffers s) (hat : s.pc t = .idle)
    (hstep : startCall worker s t move = some s') : Sound maxBuffers s' := by
  unfold startCall at hstep
  split at hstep
  · split at hstep
    · cases hstep
      exact h.finish hat ⟨rfl, rfl, nofun, nofun⟩ _
    · exact h.lockOperation hstep rfl rfl nofun
  · exact h.lockOperation hstep rfl rfl nofun
  · cases hstep
    unfold abiRegisterCallback
    split
    · exact h.finish hat ⟨rfl, rfl, nofun, nofun⟩ _
    · exact h.move (p := .idle) ⟨rfl, rfl, rfl⟩ ⟨rfl, rfl, rfl, rfl, rfl, rfl, rfl⟩ rfl rfl rfl hat
        ⟨rfl, rfl, nofun, nofun⟩
  · exact h.lockOperation hstep rfl rfl nofun
  · exact h.lockOperation hstep rfl rfl nofun
  · cases hstep
    unfold shutdownSection
    split
    · split
      · exact h
      · exact h.goto hat ⟨rfl, rfl, nofun, nofun⟩
    · exact h.stopped hat
  · cases hstep

theorem sinkStep_sound {status : Status} (h : Sound maxBuffers s)
    (hstep : sinkStep s t status (s.pc t) = some s') : Sound maxBuffers s' := by
  unfold sinkStep at hstep
  split at hstep
  · next ticket hat =>
    split at hstep <;> cases hstep
    · exact h.taken hat _
    · exact h.goto hat ⟨rfl, rfl, nofun, nofun⟩
  · next hat =>
    split at hstep <;> cases hstep
    exact h.finishOperation hat rfl rfl _
  · next hat =>
    split at hstep <;> cases hstep
    · exact h.finishOperation hat rfl rfl _
    · exact h.goto hat ⟨rfl, rfl, nofun, nofun⟩
  · next hat =>
    split at hstep <;> cases hstep
    · exact h.finishOperation hat rfl rfl _
    · exact h.goto hat ⟨rfl, rfl, nofun, nofun⟩
  · next hat =>
    cases hstep
    refine h.leave (t := t) (p := .shutdownJoin) ⟨rfl, rfl, rfl⟩
      ⟨rfl, rfl, rfl, rfl, rfl, rfl, rfl⟩ rfl rfl
      rfl ?_ ?_ rfl ?_ <;> rw [hat]
    · rfl
    · rfl
    · exact id
  · cases hstep

theorem sectionStep_sound {allocated : Bool} (h : Sound maxBuffers s)
    (hstep : sectionStep maxBuffers s t allocated (s.pc t) = some s') : Sound maxBuffers s' := by
  unfold sectionStep at hstep
  split at hstep
  · next hat =>
    cases hstep
    unfold enqueueSection
    split
    · exact h.finishOperation hat rfl rfl _
    · next hrunning =>
      split
      · exact h.finishOperation hat rfl rfl _
      · next hroom =>
        split
        · refine h.leave (t := t) (p := .idle) ⟨rfl, rfl, rfl⟩
            ⟨rfl, rfl, rfl, rfl, rfl, rfl, rfl⟩ rfl rfl
            rfl ?_ ?_ rfl nofun <;> rw [hat] <;> rfl
        · exact h.submitted hat (Bool.eq_false_iff.2 hrunning) hroom
  · next ticket status hat =>
    cases hstep
    exact h.refused hat
  · next hat =>
    cases hstep
    unfold clearSection
    split
    · exact h.finishOperation hat rfl rfl _
    · exact h.cleared hat
  · next status hat =>
    cases hstep
    refine h.leave (t := t) (p := .idle) ⟨rfl, rfl, rfl⟩ ⟨rfl, rfl, rfl, rfl, rfl, rfl, rfl⟩ rfl rfl
      rfl ?_ ?_ rfl nofun <;> rw [hat] <;> rfl
  · next hat =>
    cases hstep
    unfold commandSection
    split
    · exact h.finishOperation hat rfl rfl _
    · exact h.goto hat ⟨rfl, rfl, nofun, nofun⟩
  · next status hat =>
    cases hstep
    refine h.leave (t := t) (p := .idle) ⟨rfl, rfl, rfl⟩ ⟨rfl, rfl, rfl, rfl, rfl, rfl, rfl⟩ rfl rfl
      rfl ?_ ?_ rfl nofun <;> rw [hat] <;> rfl
  · next hat =>
    split at hstep <;> cases hstep
    exact h.goto hat ⟨rfl, rfl, nofun, nofun⟩
  · next hat =>
    refine h.lockOperation hstep rfl rfl fun _ => ?_
    rw [hat]
    rfl
  · next hat =>
    split at hstep <;> cases hstep
    · exact h.goto hat ⟨rfl, rfl, id, id⟩
    · exact h.goto hat ⟨rfl, rfl, id, id⟩
  · next hat =>
    cases hstep
    unfold shutdownLastSection
    simp only
    split
    · exact h.forcedZero hat _
    · exact h.move (p := .idle) ⟨rfl, rfl, rfl⟩ ⟨rfl, rfl, rfl, rfl, rfl, rfl, rfl⟩ rfl rfl rfl hat
        ⟨rfl, rfl, nofun, nofun⟩
  · cases hstep

theorem sound_step {label : Label τ} (h : Sound maxBuffers s)
    (hstep : step worker maxBuffers s label = some s') : Sound maxBuffers s' := by
  cases label with
  | thread t move =>
    change threadStep worker maxBuffers s t move = some s' at hstep
    unfold threadStep at hstep
    split at hstep
    · next hat => exact startCall_sound h hat hstep
    · exact sectionStep_sound h hstep
    · exact sinkStep_sound h hstep
    · next hat =>
      split at hstep <;> cases hstep
      exact h.move ⟨rfl, rfl, rfl⟩ ⟨rfl, rfl, rfl, rfl, rfl, rfl, rfl⟩ rfl rfl rfl hat
        ⟨rfl, rfl, id, id⟩
    · cases hstep
  | release ticket sizeBytes =>
    simp only [step] at hstep
    split at hstep <;> cases hstep
    next hheld => exact h.released hheld sizeBytes
  | releaseInside t sizeBytes =>
    simp only [step] at hstep
    split at hstep <;> cases hstep
    next ticket hat => exact h.releasedInside hat sizeBytes
  | callbacks =>
    simp only [step] at hstep
    split at hstep
    · exact h.runCallbacks hstep
    · cases hstep

theorem sound_reachable (h : (queueLTS worker maxBuffers).Reachable s) : Sound maxBuffers s := by
  refine h.invariant (fun s hi => ?_) fun _ _ _ hstep hs => sound_step hs hstep
  obtain rfl : s = { callbackThreadStarted := true } := hi
  exact sound_initial

/-- The ticket a step releases. -/
def releasedTicket (s : Queue τ) : Label τ → Option ReleaseTicket
  | .release ticket _ => some ticket
  | .releaseInside t _ => (s.pc t).ticket
  | _ => none

/-- The statistics, the index and the jobs are the same. -/
structure Uncounted (s s' : Queue τ) : Prop where
  getStats : s'.getStats = s.getStats
  processedBuffers : s'.processedBuffers = s.processedBuffers
  callbackJobs : s'.callbackJobs = s.callbackJobs
  queued : s'.queued = s.queued

theorem uncounted_older {label : Label τ} (hstep : step worker maxBuffers s label = some s')
    (hticket : releasedTicket s label = some held) (hold : held.generation < s.generation) :
    Uncounted s s' := by
  cases label with
  | thread t move => cases hticket
  | release ticket sizeBytes =>
    cases hticket
    simp only [step] at hstep
    split at hstep <;> cases hstep
    have hsame : ({ s with borrowed := s.borrowed.erase held } : Queue τ).releaseBuffer
        held sizeBytes =
        { s with borrowed := s.borrowed.erase held } := by
      refine releaseBuffer_older ?_ sizeBytes
      exact hold.ne
    rw [hsame]
    exact ⟨rfl, rfl, rfl, rfl⟩
  | releaseInside t sizeBytes =>
    simp only [step] at hstep
    split at hstep <;> cases hstep
    next ticket hat =>
      rw [releasedTicket, hat] at hticket
      cases hticket
      rw [releaseBuffer_older hold.ne]
      exact ⟨rfl, rfl, rfl, rfl⟩
  | callbacks => cases hticket

/-- In every interleaving: until `Shutdown` forces the count to zero, also within an `Enqueue`, the
buffers submitted are those consumed, discarded and pending; the count stays within its limits; a
release of an older generation counts nothing; a callback is queued only for a buffer consumed by
the same step, as it is registered then; and none is waiting or queued again once the queue
stops. -/
theorem buffers_accounted (h : (queueLTS worker maxBuffers).Reachable s) :
    (s.forced = false →
      s.submittedBuffers = s.consumedBuffers + s.discardedBuffers + s.pendingCount) ∧
    s.pendingCount.toNat ≤ maxBuffers.toNat ∧ s.underflowed = false ∧
    (∀ label s' ticket, step worker maxBuffers s label = some s' →
      releasedTicket s label = some ticket →
      ticket.generation < s.generation → Uncounted s s') ∧
    (∀ label s', step worker maxBuffers s label = some s' →
      s'.queued = s.queued ∨ JobForConsumed s s') ∧
    (s.stopping = true → s.callbackJobs = [] ∧
      ∀ labels s', (queueLTS worker maxBuffers).Run s labels s' → s'.queued = s.queued) := by
  have hs := sound_reachable h
  refine ⟨hs.balanced.balance, hs.balanced.bound, hs.balanced.noUnderflow,
    fun _ _ _ hstep hticket hold => uncounted_older hstep hticket hold, fun label s' hstep => ?_,
    fun hstopping => ⟨(jobsInOrder_reachable h).stopped hstopping, fun _ _ hrun =>
      queued_stopped hrun hstopping⟩⟩
  rcases job_step hstep with hno | hjob | hcalled
  · exact .inl hno.queued
  · exact .inr hjob
  · exact .inl hcalled.queued

/-- A buffer is released while it is enqueued; the sink keeps a second one over the whole
shutdown. -/
def lateRelease : List (Label Bool) :=
  [.thread true (.registerCallback 5 6), .thread true (.enqueue 1 4), .thread true (.locked true),
    .releaseInside true 4, .thread true (.sink {}), .thread true (.enqueue 1 4),
    .thread true (.locked true), .thread true (.sink {}), .thread false .shutdown]

theorem buffers_accounted_lateRelease : ∃ s : Queue Bool, (queueLTS false 8).Reachable s ∧
    s.stopping = true ∧ s.queued = [⟨5, 6⟩] ∧ s.pendingCount = 1 ∧
    s.submittedBuffers = s.consumedBuffers + s.discardedBuffers + s.pendingCount := by
  obtain ⟨s, hs⟩ : ∃ s, lateRelease.foldlM (step false 8)
      { callbackThreadStarted := true } = some s :=
    ⟨_, rfl⟩
  have hreach : (queueLTS false 8).Reachable s :=
    ⟨_, lateRelease, rfl, .of_foldlM (fun _ _ _ h => h) hs⟩
  refine ⟨s, hreach, ?_, ?_, ?_, (buffers_accounted hreach).1 ?_⟩ <;> cases hs <;> rfl

end Queue

end Nightcap.Audio
