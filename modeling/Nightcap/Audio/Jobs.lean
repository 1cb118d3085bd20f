import Nightcap.Audio.BufferQueue

/-! Callback jobs: queued for consumed buffers, called in order, none once the queue stops. -/
namespace Nightcap.Audio.Queue

open Transition

variable {τ : Type} {worker : τ} {maxBuffers : UInt32} {s s' : Queue τ} {t : τ} {p : Pc}
  {held : ReleaseTicket}

/-- No job is queued, and none dropped before the queue stops. -/
structure NoJob (s s' : Queue τ) : Prop where
  queued : s'.queued = s.queued
  called : s'.called = s.called
  jobs : s'.stopping = s.stopping ∧ s'.callbackJobs = s.callbackJobs ∨
    s'.stopping = true ∧ s'.callbackJobs = []

/-- The callback registered at the moment is queued for a buffer that is consumed. -/
structure JobForConsumed (s s' : Queue τ) : Prop where
  running : s.stopping = false
  registered : s.callback ≠ nullptr
  consumedBuffers : s'.consumedBuffers = s.consumedBuffers + 1
  queued : s'.queued = s.queued ++ [⟨s.callback, s.callbackContext⟩]
  callbackJobs : s'.callbackJobs = s.callbackJobs ++ [⟨s.callback, s.callbackContext⟩]
  called : s'.called = s.called
  stopping : s'.stopping = s.stopping

theorem releaseBuffer_job (sizeBytes : UInt64) :
    NoJob s (s.releaseBuffer held sizeBytes) ∨
      JobForConsumed s (s.releaseBuffer held sizeBytes) := by
  have hconsume {u : Queue τ} (hu : u.stopping = false) :
      NoJob u (u.consume sizeBytes) ∨ JobForConsumed u (u.consume sizeBytes) := by
    unfold consume
    split
    · exact .inl ⟨rfl, rfl, .inl ⟨rfl, rfl⟩⟩
    · next hregistered => exact .inr ⟨hu, hregistered, rfl, rfl, rfl, rfl, rfl⟩
  unfold releaseBuffer
  split
  · exact .inl ⟨rfl, rfl, .inl ⟨rfl, rfl⟩⟩
  · split <;> dsimp only <;> split
    · exact .inl ⟨rfl, rfl, .inl ⟨rfl, rfl⟩⟩
    · next hrunning =>
      have hrunning : s.stopping = false := Bool.eq_false_iff.2 hrunning
      rcases hconsume (show s.subtractPending.stopping = false from hrunning) with hno | hjob
      · exact .inl ⟨hno.queued, hno.called, hno.jobs⟩
      · exact .inr ⟨hjob.running, hjob.registered, hjob.consumedBuffers,
          hjob.queued, hjob.callbackJobs,
          hjob.called, hjob.stopping⟩
    · exact .inl ⟨rfl, rfl, .inl ⟨rfl, rfl⟩⟩
    · next hrunning => exact hconsume (Bool.eq_false_iff.2 hrunning)

/-- `RunCallbacks` takes a job out of the queue and calls it. -/
structure JobCalled (s s' : Queue τ) : Prop where
  running : s.stopping = false
  stopping : s'.stopping = s.stopping
  queued : s'.queued = s.queued
  jobs : s'.called ++ s'.callbackJobs = s.called ++ s.callbackJobs

theorem runCallbacks_job (hstep : s.runCallbacks = some s') : NoJob s s' ∨ JobCalled s s' := by
  unfold Queue.runCallbacks at hstep
  split at hstep
  · cases hstep
  · split at hstep
    · next hstopping =>
      cases hstep
      exact .inl ⟨rfl, rfl, .inr ⟨hstopping, rfl⟩⟩
    · next hrunning =>
      split at hstep
      · cases hstep
      · next job jobs hjobs =>
        cases hstep
        refine .inr ⟨Bool.eq_false_iff.2 hrunning, rfl, rfl, ?_⟩
        simp [hjobs]

variable [DecidableEq τ]

theorem startCall_noJob {move : Move} (hstep : startCall worker s t move = some s') :
    NoJob s s' := by
  unfold startCall lockOperation at hstep
  split at hstep
  · split at hstep
    · cases hstep
      exact ⟨rfl, rfl, .inl ⟨rfl, rfl⟩⟩
    · split at hstep <;> cases hstep
      exact ⟨rfl, rfl, .inl ⟨rfl, rfl⟩⟩
  · split at hstep <;> cases hstep
    exact ⟨rfl, rfl, .inl ⟨rfl, rfl⟩⟩
  · cases hstep
    unfold abiRegisterCallback
    split <;> exact ⟨rfl, rfl, .inl ⟨rfl, rfl⟩⟩
  · split at hstep <;> cases hstep
    exact ⟨rfl, rfl, .inl ⟨rfl, rfl⟩⟩
  · split at hstep <;> cases hstep
    exact ⟨rfl, rfl, .inl ⟨rfl, rfl⟩⟩
  · cases hstep
    unfold shutdownSection
    split
    · split <;> exact ⟨rfl, rfl, .inl ⟨rfl, rfl⟩⟩
    · exact ⟨rfl, rfl, .inr ⟨rfl, rfl⟩⟩
  · cases hstep

theorem sinkStep_noJob {status : Status} (hstep : sinkStep s t status p = some s') :
    NoJob s s' := by
  unfold sinkStep at hstep
  split at hstep
  all_goals try split at hstep
  all_goals cases hstep
  all_goals exact ⟨rfl, rfl, .inl ⟨rfl, rfl⟩⟩

theorem sectionStep_noJob {allocated : Bool}
    (hstep : sectionStep maxBuffers s t allocated p = some s') : NoJob s s' := by
  unfold sectionStep lockOperation at hstep
  split at hstep
  · cases hstep
    unfold enqueueSection
    split
    · exact ⟨rfl, rfl, .inl ⟨rfl, rfl⟩⟩
    · split
      · exact ⟨rfl, rfl, .inl ⟨rfl, rfl⟩⟩
      · split <;> exact ⟨rfl, rfl, .inl ⟨rfl, rfl⟩⟩
  · cases hstep
    exact ⟨rfl, rfl, .inl ⟨rfl, rfl⟩⟩
  · cases hstep
    unfold clearSection
    split <;> exact ⟨rfl, rfl, .inl ⟨rfl, rfl⟩⟩
  · cases hstep
    exact ⟨rfl, rfl, .inl ⟨rfl, rfl⟩⟩
  · cases hstep
    unfold commandSection
    split <;> exact ⟨rfl, rfl, .inl ⟨rfl, rfl⟩⟩
  · cases hstep
    exact ⟨rfl, rfl, .inl ⟨rfl, rfl⟩⟩
  · split at hstep <;> cases hstep
    exact ⟨rfl, rfl, .inl ⟨rfl, rfl⟩⟩
  · split at hstep <;> cases hstep
    exact ⟨rfl, rfl, .inl ⟨rfl, rfl⟩⟩
  · split at hstep <;> cases hstep <;> exact ⟨rfl, rfl, .inl ⟨rfl, rfl⟩⟩
  · cases hstep
    unfold shutdownLastSection
    simp only
    split <;> exact ⟨rfl, rfl, .inl ⟨rfl, rfl⟩⟩
  · cases hstep

theorem threadStep_noJob {move : Move} (hstep : threadStep worker maxBuffers s t move = some s') :
    NoJob s s' := by
  unfold threadStep at hstep
  split at hstep
  · exact startCall_noJob hstep
  · exact sectionStep_noJob hstep
  · exact sinkStep_noJob hstep
  · split at hstep <;> cases hstep
    exact ⟨rfl, rfl, .inl ⟨rfl, rfl⟩⟩
  · cases hstep

theorem job_step {label : Label τ} (hstep : step worker maxBuffers s label = some s') :
    NoJob s s' ∨ JobForConsumed s s' ∨ JobCalled s s' := by
  cases label with
  | thread t move => exact .inl (threadStep_noJob hstep)
  | release ticket sizeBytes =>
    simp only [step] at hstep
    split at hstep <;> cases hstep
    rcases releaseBuffer_job (s := { s with borrowed := s.borrowed.erase ticket }) sizeBytes with
        hno | hjob
    · exact .inl ⟨hno.queued, hno.called, hno.jobs⟩
    · exact .inr (.inl ⟨hjob.running, hjob.registered, hjob.consumedBuffers, hjob.queued,
        hjob.callbackJobs, hjob.called, hjob.stopping⟩)
  | releaseInside t sizeBytes =>
    simp only [step] at hstep
    split at hstep <;> cases hstep
    next ticket hat =>
      rcases (releaseBuffer_job sizeBytes : NoJob s (s.releaseBuffer ticket _) ∨ _) with hno | hjob
      · exact .inl ⟨hno.queued, hno.called, hno.jobs⟩
      · exact .inr (.inl ⟨hjob.running, hjob.registered, hjob.consumedBuffers, hjob.queued,
          hjob.callbackJobs, hjob.called, hjob.stopping⟩)
  | callbacks =>
    simp only [step] at hstep
    split at hstep
    · exact (runCallbacks_job hstep).imp_right .inr
    · cases hstep

/-- Callbacks are called in the order of their jobs, and none is waiting once the queue stops. -/
structure JobsInOrder (s : Queue τ) : Prop where
  running : s.stopping = false → s.called ++ s.callbackJobs = s.queued
  stopped : s.stopping = true → s.callbackJobs = []

theorem jobsInOrder_step {label : Label τ} (h : JobsInOrder s)
    (hstep : step worker maxBuffers s label = some s') : JobsInOrder s' := by
  rcases job_step hstep with hno | hjob | hcalled
  · rcases hno.jobs with ⟨hsame, hjobs⟩ | ⟨hstopped, hempty⟩
    · refine ⟨fun hf => ?_, fun ht => ?_⟩
      · rw [hno.called, hjobs, hno.queued]
        exact h.running (hsame.symm.trans hf)
      · rw [hjobs]
        exact h.stopped (hsame.symm.trans ht)
    · refine ⟨fun hf => ?_, fun _ => hempty⟩
      rw [hstopped] at hf
      cases hf
  · have hrunning := hjob.stopping.trans hjob.running
    refine ⟨fun _ => ?_, fun ht => ?_⟩
    · rw [hjob.called, hjob.callbackJobs, hjob.queued, ← List.append_assoc, h.running hjob.running]
    · rw [hrunning] at ht
      cases ht
  · have hrunning := hcalled.stopping.trans hcalled.running
    refine ⟨fun _ => ?_, fun ht => ?_⟩
    · rw [hcalled.jobs, hcalled.queued]
      exact h.running hcalled.running
    · rw [hrunning] at ht
      cases ht

theorem jobsInOrder_reachable (h : (queueLTS worker maxBuffers).Reachable s) : JobsInOrder s := by
  refine h.invariant (fun s hi => ?_) fun _ _ _ hstep hs => jobsInOrder_step hs hstep
  obtain rfl : s = { callbackThreadStarted := true } := hi
  exact ⟨fun _ => rfl, nofun⟩

/-- A stopped queue queues no job again. -/
theorem queued_stopped {labels : List (Label τ)}
    (hrun : (queueLTS worker maxBuffers).Run s labels s')
    (hstopping : s.stopping = true) : s'.queued = s.queued := by
  refine (hrun.invariant (I := fun u => u.stopping = true ∧ u.queued = s.queued) ?_
    ⟨hstopping, rfl⟩).2
  rintro u label v hstep ⟨hu, hq⟩
  rcases job_step hstep with hno | hjob | hcalled
  · refine ⟨?_, hno.queued.trans hq⟩
    rcases hno.jobs with ⟨hsame, -⟩ | ⟨hv, -⟩
    · exact hsame.trans hu
    · exact hv
  · have hrunning := hjob.running
    rw [hu] at hrunning
    cases hrunning
  · have hrunning := hcalled.running
    rw [hu] at hrunning
    cases hrunning

end Nightcap.Audio.Queue
