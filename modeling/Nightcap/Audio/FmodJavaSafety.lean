import Nightcap.Audio.FmodJavaRuntime
import Nightcap.Lib.Mutex

/-! The buffer pool of an FMOD device: what its slots, its counters and its sink have to do with
each other, whoever writes, releases and closes. -/
namespace Nightcap.Audio.FmodJava

open Transition Threads Mutex

/-! The slots of one device. -/

def BufferSlot.isPending (slot : BufferSlot) : Bool := slot.state == .kPending

def BufferSlot.pendingSize (slot : BufferSlot) : Nat := if slot.isPending then slot.sizeBytes else 0

/-- What the holder of `operation_mutex` is doing with a slot. -/
inductive Phase
  | committing (slot size : Nat)
  | enqueuing (slot size : Nat)
  | rollingBack (slot size : Nat)
deriving DecidableEq

def Phase.slot : Phase → Nat
  | .committing slot _ | .enqueuing slot _ | .rollingBack slot _ => slot

section

variable {τ : Type*} {device : Device τ} {phase phase' : Option Phase} {i j slot size : Nat}
  {value old : BufferSlot} {slots : List BufferSlot}

/-- What the writer in its phase knows of its slot. -/
def Phase.Knows (device : Device τ) : Phase → Prop
  | .committing slot size => device.slots[slot]? = some ⟨.kReserved, size⟩
  | .enqueuing slot size =>
    device.slots[slot]? = some ⟨.kPending, size⟩ ∧ slot ∉ device.borrowed ∧
      device.sinkShutDown = false ∧ device.hasSink = true ∧ device.lateWrites = 0
  | .rollingBack slot size =>
    device.slots[slot]? = some ⟨.kPending, size⟩ ∧ slot ∉ device.borrowed

/-- The invariant of a device. -/
structure DeviceSound (phase : Option Phase) (device : Device τ) : Prop where
  length : device.slots.length = device.geometry.slotCount
  buffers : device.pendingBuffers = device.slots.countP BufferSlot.isPending
  bytes : device.pendingBytes = (device.slots.map BufferSlot.pendingSize).sum
  nodup : device.borrowed.Nodup
  borrowed : ∀ i ∈ device.borrowed, ∃ size, device.slots[i]? = some ⟨.kPending, size⟩
  reserved : ∀ i slot, device.slots[i]? = some slot → slot.state = .kReserved →
    ∃ size, phase = some (.committing i size)
  knows : ∀ p, phase = some p → p.Knows device
  shutDown : device.sinkShutDown = true → device.closing = true
  sink : device.opened = true → device.hasSink = false → device.closing = true
  onTime : device.closing = false → device.lateWrites = 0
  late : device.lateWrites ≤ 1

theorem countP_set (h : slots[i]? = some old) :
    (slots.set i value).countP BufferSlot.isPending + old.isPending.toNat =
      slots.countP BufferSlot.isPending + value.isPending.toNat := by
  obtain ⟨hi, rfl⟩ := List.getElem?_eq_some_iff.1 h
  have hpos : slots[i].isPending = true → 0 < slots.countP BufferSlot.isPending :=
    fun hp => List.countP_pos_iff.2 ⟨_, List.getElem_mem hi, hp⟩
  rw [List.countP_set hi]
  cases hold : slots[i].isPending with
  | false => cases value.isPending <;> simp
  | true =>
    have := hpos hold
    cases value.isPending <;> simp <;> omega

theorem sum_map_set {α : Type*} {l : List α} {x y : α} {i : ℕ} (f : α → ℕ) (h : l[i]? = some x) :
    ((l.set i y).map f).sum + f x = (l.map f).sum + f y := by
  induction l generalizing i with
  | nil => cases h
  | cons z l ih =>
    cases i with
    | zero =>
      obtain rfl := Option.some.inj h
      simp only [List.set_cons_zero, List.map_cons, List.sum_cons]
      omega
    | succ i =>
      have := ih (i := i) (by simpa using h)
      simp only [List.set_cons_succ, List.map_cons, List.sum_cons]
      omega

theorem getElem?_set_of_ne (h : i ≠ j) : (slots.set i value)[j]? = slots[j]? :=
  List.getElem?_set_ne h

theorem getElem?_set_of_some (h : slots[i]? = some old) : (slots.set i value)[i]? = some value := by
  obtain ⟨hi, _⟩ := List.getElem?_eq_some_iff.1 h
  rw [List.getElem?_set_self hi]

theorem DeviceSound.initial : DeviceSound none ({} : Device τ) := by
  refine ⟨rfl, rfl, rfl, List.nodup_nil, nofun, ?_, nofun, nofun, nofun,
    fun _ => rfl, Nat.zero_le _⟩
  intro i slot h
  cases h

theorem DeviceSound.create {geometry : Geometry} :
    DeviceSound none (Device.create geometry : Device τ) := by
  have hfree : ∀ (i : Nat) (slot : BufferSlot),
      (Device.create geometry : Device τ).slots[i]? = some slot → slot = {} := by
    intro i slot h
    exact (List.mem_replicate.1 (List.mem_of_getElem? h)).2
  refine ⟨List.length_replicate, ?_, ?_, List.nodup_nil, nofun, ?_, nofun, nofun, nofun,
    fun _ => rfl, Nat.zero_le _⟩
  · simp [Device.create, List.countP_replicate, BufferSlot.isPending]
  · simp [Device.create, BufferSlot.pendingSize, BufferSlot.isPending]
  · intro i slot h hs
    rw [hfree i slot h] at hs
    cases hs

theorem DeviceSound.reserve (h : DeviceSound none device)
    (hslot : device.slots[slot]? = some value) (hfree : value.state = .kFree) :
    DeviceSound (some (.committing slot size)) (device.reserve slot size) := by
  have hset : (device.slots.set slot ⟨.kReserved, size⟩)[slot]? = some ⟨.kReserved, size⟩ :=
    getElem?_set_of_some hslot
  have hpending : value.isPending = false := by simp [BufferSlot.isPending, hfree]
  refine ⟨?_, ?_, ?_, h.nodup, ?_, ?_, ?_, h.shutDown, h.sink, h.onTime, h.late⟩
  · exact List.length_set.trans h.length
  · have := @countP_set _ ⟨.kReserved, size⟩ _ _ hslot
    rw [hpending] at this
    exact h.buffers.trans (Nat.add_right_cancel this).symm
  · have := sum_map_set (y := ⟨.kReserved, size⟩) BufferSlot.pendingSize hslot
    have hz : value.pendingSize = 0 := by rw [BufferSlot.pendingSize, hpending]; rfl
    rw [hz] at this
    exact h.bytes.trans (Nat.add_right_cancel this).symm
  · intro j hj
    obtain ⟨n, hn⟩ := h.borrowed j hj
    have hne : slot ≠ j := by
      rintro rfl
      rw [hslot] at hn
      obtain rfl := Option.some.inj hn
      cases hfree
    exact ⟨n, (getElem?_set_of_ne hne).trans hn⟩
  · intro j other hj hs
    by_cases hne : slot = j
    · subst hne
      exact ⟨size, rfl⟩
    · have hj' : device.slots[j]? = some other := (getElem?_set_of_ne hne).symm.trans hj
      obtain ⟨n, hn⟩ := h.reserved j other hj' hs
      cases hn
  · rintro p hp
    obtain rfl := Option.some.inj hp
    exact hset

theorem DeviceSound.cancel (h : DeviceSound (some (.committing slot size)) device) :
    DeviceSound none (device.cancel slot) := by
  have hslot : device.slots[slot]? = some ⟨.kReserved, size⟩ := h.knows _ rfl
  refine ⟨?_, ?_, ?_, h.nodup, ?_, ?_, nofun, h.shutDown, h.sink, h.onTime, h.late⟩
  · exact List.length_set.trans h.length
  · have := @countP_set _ ⟨.kFree, 0⟩ _ _ hslot
    exact h.buffers.trans (Nat.add_right_cancel this).symm
  · have := sum_map_set (y := ⟨.kFree, 0⟩) BufferSlot.pendingSize hslot
    exact h.bytes.trans (Nat.add_right_cancel this).symm
  · intro j hj
    obtain ⟨n, hn⟩ := h.borrowed j hj
    have hne : slot ≠ j := by
      rintro rfl
      rw [hslot] at hn
      cases hn
    exact ⟨n, (getElem?_set_of_ne hne).trans hn⟩
  · intro j other hj hs
    by_cases hne : slot = j
    · subst hne
      rw [show (device.cancel slot).slots = device.slots.set slot ⟨.kFree, 0⟩ from rfl,
        getElem?_set_of_some hslot] at hj
      obtain rfl := Option.some.inj hj
      cases hs
    · have hj' : device.slots[j]? = some other := (getElem?_set_of_ne hne).symm.trans hj
      obtain ⟨n, hn⟩ := h.reserved j other hj' hs
      cases hn
      exact absurd rfl hne

theorem DeviceSound.commit (h : DeviceSound (some (.committing slot size)) device)
    (hclosing : device.closing = false) (hsink : device.hasSink = true) :
    DeviceSound (some (.enqueuing slot size)) (device.commit slot size) := by
  have hslot : device.slots[slot]? = some ⟨.kReserved, size⟩ := h.knows _ rfl
  have hset : (device.slots.set slot ⟨.kPending, size⟩)[slot]? = some ⟨.kPending, size⟩ :=
    getElem?_set_of_some hslot
  have hnew : slot ∉ device.borrowed := by
    intro hmem
    obtain ⟨n, hn⟩ := h.borrowed slot hmem
    rw [hslot] at hn
    cases hn
  refine ⟨?_, ?_, ?_, h.nodup, ?_, ?_, ?_, h.shutDown, h.sink, h.onTime, h.late⟩
  · exact List.length_set.trans h.length
  · have := @countP_set _ ⟨.kPending, size⟩ _ _ hslot
    show device.pendingBuffers + 1 = _
    rw [h.buffers]
    exact this.symm
  · have := sum_map_set (y := ⟨.kPending, size⟩) BufferSlot.pendingSize hslot
    show device.pendingBytes + size = _
    rw [h.bytes]
    exact this.symm
  · intro j hj
    obtain ⟨n, hn⟩ := h.borrowed j hj
    have hne : slot ≠ j := by
      rintro rfl
      exact hnew hj
    exact ⟨n, (getElem?_set_of_ne hne).trans hn⟩
  · intro j other hj hs
    by_cases hne : slot = j
    · subst hne
      have heq := hset.symm.trans hj
      obtain rfl := Option.some.inj heq
      cases hs
    · have hj' : device.slots[j]? = some other := (getElem?_set_of_ne hne).symm.trans hj
      obtain ⟨n, hn⟩ := h.reserved j other hj' hs
      cases hn
      exact absurd rfl hne
  · rintro p hp
    obtain rfl := Option.some.inj hp
    refine ⟨hset, hnew, Bool.eq_false_iff.2 fun hs => ?_, hsink, h.onTime hclosing⟩
    exact absurd ((h.shutDown hs).symm.trans hclosing) (by decide)

theorem DeviceSound.enqueue (h : DeviceSound (some (.enqueuing slot size)) device)
    (accepted : Bool) :
    DeviceSound (if accepted then none else some (.rollingBack slot size))
      (device.enqueue slot accepted) := by
  obtain ⟨hslot, hnew, hshut, hsink, hlate⟩ := h.knows _ rfl
  have hlate' : (device.enqueue slot accepted).lateWrites = if device.closing then 1 else 0 := by
    simp [Device.enqueue, hlate]
  refine ⟨h.length, h.buffers, h.bytes, ?_, ?_, ?_, ?_, h.shutDown, h.sink, ?_, ?_⟩
  · cases accepted with
    | true => exact List.nodup_cons.2 ⟨hnew, h.nodup⟩
    | false => exact h.nodup
  · cases accepted with
    | true =>
      intro j hj
      rcases List.mem_cons.1 hj with rfl | hj
      · exact ⟨size, hslot⟩
      · exact h.borrowed j hj
    | false => exact h.borrowed
  · intro j other hj hs
    obtain ⟨n, hn⟩ := h.reserved j other hj hs
    cases hn
  · intro p hp
    cases accepted with
    | true => cases hp
    | false =>
      obtain rfl := Option.some.inj hp
      exact ⟨hslot, hnew⟩
  · intro hclosing
    have hclosing : device.closing = false := hclosing
    rw [hlate', hclosing]
    rfl
  · rw [hlate']
    split <;> omega

/-- A slot that is pending, and that the sink does not have, becomes free. -/
theorem DeviceSound.free (h : DeviceSound phase device)
    (hslot : device.slots[slot]? = some ⟨.kPending, size⟩) (hnew : slot ∉ device.borrowed)
    (hother : ∀ p, phase' = some p → phase = some p ∧ p.slot ≠ slot)
    (hkeep : ∀ i n, phase = some (.committing i n) → phase' = phase) :
    DeviceSound phase' (device.free slot size) := by
  have hother' : ∀ {j}, slot ≠ j → (device.free slot size).slots[j]? = device.slots[j]? :=
    fun hne => getElem?_set_of_ne hne
  refine ⟨?_, ?_, ?_, h.nodup, ?_, ?_, ?_, h.shutDown, h.sink, h.onTime, h.late⟩
  · exact List.length_set.trans h.length
  · have := @countP_set _ ⟨.kFree, 0⟩ _ _ hslot
    have hcount : (device.slots.set slot ⟨.kFree, 0⟩).countP BufferSlot.isPending + 1 =
        device.slots.countP BufferSlot.isPending := this
    show device.pendingBuffers - 1 = (device.slots.set slot ⟨.kFree, 0⟩).countP _
    rw [h.buffers]
    omega
  · have := sum_map_set (y := ⟨.kFree, 0⟩) BufferSlot.pendingSize hslot
    have hsum : ((device.slots.set slot ⟨.kFree, 0⟩).map BufferSlot.pendingSize).sum + size =
        (device.slots.map BufferSlot.pendingSize).sum := this
    show device.pendingBytes - size = ((device.slots.set slot ⟨.kFree, 0⟩).map _).sum
    rw [h.bytes]
    omega
  · intro j hj
    obtain ⟨n, hn⟩ := h.borrowed j hj
    have hne : slot ≠ j := by
      rintro rfl
      exact hnew hj
    exact ⟨n, (hother' hne).trans hn⟩
  · intro j other hj hs
    by_cases hne : slot = j
    · subst hne
      have heq := (getElem?_set_of_some hslot).symm.trans hj
      obtain rfl := Option.some.inj heq
      cases hs
    · obtain ⟨n, hn⟩ := h.reserved j other ((hother' hne).symm.trans hj) hs
      exact ⟨n, (hkeep j n hn).trans hn⟩
  · intro p hp
    obtain ⟨hphase, hne⟩ := hother p hp
    have hknows := h.knows p hphase
    cases p with
    | committing i n => exact (hother' (Ne.symm hne)).trans hknows
    | enqueuing i n => exact ⟨(hother' (Ne.symm hne)).trans hknows.1, hknows.2⟩
    | rollingBack i n => exact ⟨(hother' (Ne.symm hne)).trans hknows.1, hknows.2⟩

theorem DeviceSound.rollback (h : DeviceSound (some (.rollingBack slot size)) device) :
    DeviceSound none (device.free slot size) := by
  obtain ⟨hslot, hnew⟩ := h.knows _ rfl
  exact h.free hslot hnew nofun nofun

/-- The sink releases a slot it had. -/
theorem DeviceSound.release (h : DeviceSound phase device) (hmem : slot ∈ device.borrowed)
    (hslot : device.slots[slot]? = some ⟨.kPending, size⟩) :
    DeviceSound phase
      ({ device with borrowed := device.borrowed.erase slot }.free slot size) := by
  have hback : DeviceSound phase { device with borrowed := device.borrowed.erase slot } := by
    refine ⟨h.length, h.buffers, h.bytes, h.nodup.erase _,
      fun i hi => h.borrowed i (List.mem_of_mem_erase hi), h.reserved, fun p hp => ?_, h.shutDown,
      h.sink, h.onTime, h.late⟩
    have hknows := h.knows p hp
    cases p with
    | committing i n => exact hknows
    | enqueuing i n =>
      exact ⟨hknows.1, fun hi => hknows.2.1 (List.mem_of_mem_erase hi), hknows.2.2⟩
    | rollingBack i n => exact ⟨hknows.1, fun hi => hknows.2 (List.mem_of_mem_erase hi)⟩
  refine hback.free hslot (h.nodup.not_mem_erase) (fun p hp => ⟨hp, ?_⟩) (fun _ _ _ => rfl)
  rintro rfl
  have hknows := h.knows p hp
  cases p with
  | committing i n =>
    have heq := Eq.trans (Eq.symm hknows) hslot
    cases heq
  | enqueuing i n => exact hknows.2.1 hmem
  | rollingBack i n => exact hknows.2 hmem

theorem DeviceSound.mark (h : DeviceSound phase device) :
    DeviceSound phase { device with closing := true } := by
  refine ⟨h.length, h.buffers, h.bytes, h.nodup, h.borrowed, h.reserved, ?_, fun _ => rfl,
    fun _ _ => rfl, nofun, h.late⟩
  intro p hp
  have hknows := h.knows p hp
  cases p <;> exact hknows

theorem DeviceSound.shutDownSink (h : DeviceSound none device) (hclosing : device.closing = true) :
    DeviceSound none { device with sinkShutDown := true } :=
  ⟨h.length, h.buffers, h.bytes, h.nodup, h.borrowed, h.reserved, nofun, fun _ => hclosing, h.sink,
    h.onTime, h.late⟩

theorem DeviceSound.dropSink (h : DeviceSound none device) (hclosing : device.closing = true) :
    DeviceSound none { device with hasSink := false } :=
  ⟨h.length, h.buffers, h.bytes, h.nodup, h.borrowed, h.reserved, nofun, h.shutDown,
    fun _ _ => hclosing, h.onTime, h.late⟩

theorem DeviceSound.setMutex {mutex : Option τ} (h : DeviceSound phase device) :
    DeviceSound phase { device with operationMutex := mutex } := by
  refine ⟨h.length, h.buffers, h.bytes, h.nodup, h.borrowed, h.reserved, ?_, h.shutDown, h.sink,
    h.onTime, h.late⟩
  intro p hp
  have hknows := h.knows p hp
  cases p <;> exact hknows

/-- While nobody is at it, a device whose pending buffers do not fill the pool has a free slot. -/
theorem DeviceSound.findFreeSlot (h : DeviceSound none device)
    (hcapacity : device.pendingBuffers < device.geometry.slotCount) :
    ∃ slot value, device.findFreeSlot = some slot ∧ device.slots[slot]? = some value ∧
      value.state = .kFree := by
  cases hfind : device.findFreeSlot with
  | none =>
    have hall : ∀ value ∈ device.slots, value.isPending = true := by
      intro value hmem
      have hnot := List.findIdx?_eq_none_iff.1 hfind value hmem
      obtain ⟨i, hi⟩ := List.mem_iff_getElem?.1 hmem
      obtain ⟨state, size⟩ := value
      cases state with
      | kFree => cases hnot
      | kReserved =>
        obtain ⟨n, hn⟩ := h.reserved i _ hi rfl
        cases hn
      | kPending => rfl
    have hcount := List.countP_eq_length.2 hall
    rw [h.buffers, hcount, h.length] at hcapacity
    exact absurd hcapacity (lt_irrefl _)
  | some slot =>
    obtain ⟨hlt, hp, -⟩ := List.findIdx?_eq_some_iff_getElem.1 hfind
    exact ⟨slot, _, rfl, List.getElem?_eq_getElem hlt, by simpa using hp⟩

end

/-! Threads and devices. -/

section

variable {δ ι : Type*}

/-- The device whose `operation_mutex` a thread holds. -/
def Place.held : Place δ ι → Option δ
  | .writeCheck d _ | .writeWait d _ | .writeCommit d _ _ | .writeEnqueue d _ _ => some d
  | .writeSubmitted d _ | .writeRollback d _ _ _ | .writeLeave d _ => some d
  | .closeSink d _ | .closeRead d _ | .closeLeave d _ _ => some d
  | _ => none

def Place.phase : Place δ ι → Option Phase
  | .writeCommit _ size slot => some (.committing slot size)
  | .writeEnqueue _ size slot => some (.enqueuing slot size)
  | .writeRollback _ size slot _ => some (.rollingBack slot size)
  | _ => none

/-- The bytes of a write that is pending and not counted as submitted. -/
def Place.inFlight : Place δ ι → Option Nat
  | .writeEnqueue _ size _ | .writeSubmitted _ size | .writeRollback _ size _ _ => some size
  | _ => none

def After.devices : After δ → List δ
  | .shutdown rest => rest
  | _ => []

/-- The devices a thread has a pointer to. -/
def Place.devices : Place δ ι → List δ
  | .initPublish _ d => [d]
  | .writeOperation d _ | .writeCheck d _ | .writeWait d _ | .writeCommit d _ _ => [d]
  | .writeEnqueue d _ _ | .writeSubmitted d _ | .writeRollback d _ _ _ | .writeLeave d _ => [d]
  | .closeMark d after | .closeOperation d after | .closeSink d after => d :: after.devices
  | .closeRead d after | .closeLeave d after _ => d :: after.devices
  | .shutdownNext rest => rest
  | _ => []

/-- The places of `CloseDevice` after `closing` was set. -/
def Place.closes : Place δ ι → Option δ
  | .closeOperation d _ | .closeSink d _ | .closeRead d _ | .closeLeave d _ _ => some d
  | _ => none

end

variable {τ δ ι : Type*} {st : State τ δ ι} {t u : τ} {d e : δ}
  {place place' : Place δ ι} {device : Device τ} {s' : Shared τ δ ι}

/-- What the thread that holds a device's `operation_mutex` is doing with a slot. -/
def phaseOf (st : State τ δ ι) (d : δ) : Option Phase :=
  kept (st.shared.devices d).operationMutex (fun t => (st.own t).place) Place.phase

/-- How the counters move with a device and with the write of a thread. -/
structure Balance (c c' : Counters) (device device' : Device τ) (flight flight' : Option Nat) :
    Prop where
  pendingBuffers : c'.pendingBuffers + device.pendingBuffers =
    c.pendingBuffers + device'.pendingBuffers
  pendingBytes : c'.pendingBytes + device.pendingBytes = c.pendingBytes + device'.pendingBytes
  buffers : c'.submittedBuffers + (flight'.map fun _ => 1).getD 0 +
      (c.consumedBuffers + c.discardedBuffers + c.pendingBuffers) =
    c.submittedBuffers + (flight.map fun _ => 1).getD 0 +
      (c'.consumedBuffers + c'.discardedBuffers + c'.pendingBuffers)
  bytes : c'.submittedBytes + flight'.getD 0 +
      (c.consumedBytes + c.discardedBytes + c.pendingBytes) =
    c.submittedBytes + flight.getD 0 +
      (c'.consumedBytes + c'.discardedBytes + c'.pendingBytes)

theorem Balance.same {c : Counters} {device device' : Device τ} {flight flight' : Option Nat}
    (hb : device'.pendingBuffers = device.pendingBuffers)
    (hbytes : device'.pendingBytes = device.pendingBytes) (hf : flight' = flight) :
    Balance c c device device' flight flight' := by
  subst hf
  exact ⟨by rw [hb], by rw [hbytes], rfl, rfl⟩

section Set

variable [DecidableEq τ]

/-- What a step must not change if it touches no device. -/
structure Alike (place place' : Place δ ι) : Prop where
  held : place'.held = place.held
  phase : place'.phase = place.phase
  inFlight : place'.inFlight = place.inFlight

theorem places_set : (fun u => ((st.set t s' ⟨place'⟩).own u).place) =
    Function.update (fun u => (st.own u).place) t place' := by
  funext u
  by_cases hu : u = t
  · subst hu
    rw [System.set_own_self, Function.update_self]
  · rw [System.set_own_of_ne hu, Function.update_of_ne hu]

theorem phaseOf_holder (hm : (s'.devices d).operationMutex = some t) :
    phaseOf (st.set t s' ⟨place'⟩) d = place'.phase := by
  unfold phaseOf
  rw [System.set_shared, hm]
  show ((st.set t s' ⟨place'⟩).own t).place.phase = place'.phase
  rw [System.set_own_self]

/-- The phase of a device does not change with its slots. -/
theorem phaseOf_same
    (hm : (s'.devices d).operationMutex = (st.shared.devices d).operationMutex) :
    phaseOf (st.set t s' ⟨(st.own t).place⟩) d = phaseOf st d := by
  unfold phaseOf
  rw [places_set, System.set_shared, hm, Function.update_eq_self]

theorem opened_set (h : ∀ u, ∀ e ∈ (st.own u).place.devices, (st.shared.devices e).opened = true)
    (hkeep : ∀ e, (st.shared.devices e).opened = true → (s'.devices e).opened = true)
    (hnew : ∀ e ∈ place'.devices, (s'.devices e).opened = true) :
    ∀ u, ∀ e ∈ ((st.set t s' ⟨place'⟩).own u).place.devices, (s'.devices e).opened = true :=
  (System.forall_set (P := fun _ (th : Thread δ ι) =>
    ∀ e ∈ th.place.devices, (s'.devices e).opened = true)).2
      ⟨hnew, fun u _ e he => hkeep e (h u e he)⟩

theorem closes_set (h : ∀ u e, (st.own u).place.closes = some e →
    (st.shared.devices e).closing = true)
    (hkeep : ∀ e, (st.shared.devices e).closing = true → (s'.devices e).closing = true)
    (hnew : ∀ e, place'.closes = some e → (s'.devices e).closing = true) :
    ∀ u e, ((st.set t s' ⟨place'⟩).own u).place.closes = some e → (s'.devices e).closing = true :=
  (System.forall_set (P := fun _ (th : Thread δ ι) =>
    ∀ e, th.place.closes = some e → (s'.devices e).closing = true)).2
      ⟨hnew, fun u _ e he => hkeep e (h u e he)⟩

variable [Fintype τ]

theorem sum_inFlight (f : Option Nat → Nat) :
    ∑ u, f ((st.set t s' ⟨place'⟩).own u).place.inFlight + f (st.own t).place.inFlight =
      ∑ u, f (st.own u).place.inFlight + f place'.inFlight :=
  System.sum_set fun th : Thread δ ι => f th.place.inFlight

end Set

section Closing

variable [DecidableEq δ] {s : Shared τ δ ι}

theorem closing_setDevice (hc : (s.devices d).closing = true)
    (hkeep : (s.devices e).closing = true → device.closing = true) :
    ((s.setDevice e device).devices d).closing = true := by
  by_cases hde : d = e
  · subst hde
    simp only [Shared.setDevice, Function.update_self]
    exact hkeep hc
  · simp only [Shared.setDevice, Function.update_of_ne hde]
    exact hc

theorem closing_reserveSlot {size : Nat} (hc : (s.devices d).closing = true) :
    ((reserveSlot s e size).1.devices d).closing = true := by
  unfold reserveSlot
  simp only
  split
  · exact hc
  split
  · exact hc
  · exact closing_setDevice hc id

theorem closing_release {slot : Nat} (hc : (s.devices d).closing = true)
    (hstep : release s e slot = some s') : (s'.devices d).closing = true := by
  unfold release at hstep
  simp only at hstep
  split at hstep
  · cases hstep
    have hborrow : ((s.setDevice e
        { s.devices e with borrowed := (s.devices e).borrowed.erase slot }).devices d).closing =
        true := closing_setDevice hc id
    unfold releaseOwnedBuffer
    simp only
    split
    · exact hborrow
    split
    · exact hborrow
    · exact closing_setDevice hborrow id
  · cases hstep

variable [DecidableEq ι] {options : Options} {answer : Status}

/-- Only a commit, with `closing` not set, leads to the sink. -/
theorem step_enqueues {size slot : Nat}
    (hstep : step options t s answer place = some (s', .writeEnqueue d size slot)) :
    (s.devices d).closing = false := by
  cases place <;> simp only [step, lockOperation, reserveSlot] at hstep
  case writeCommit e size' slot' =>
    split at hstep
    · cases hstep
    · rename_i hopen
      cases hstep
      simp only [Bool.or_eq_true, not_or, Bool.not_eq_true] at hopen
      exact hopen.1
  case closeLeave e after status =>
    obtain ⟨-, heq⟩ := Prod.mk.inj (Option.some.inj hstep)
    cases after <;> cases heq
  all_goals
    repeat' split at hstep
    all_goals cases hstep

/-- `closing` is never reset. -/
theorem step_closing (hopened : (s.devices d).opened = true) (hc : (s.devices d).closing = true)
    (hstep : step options t s answer place = some (s', place')) :
    (s'.devices d).closing = true := by
  cases place <;> simp only [step, lockOperation] at hstep
  case initSink identity geometry e =>
    split at hstep
    · cases hstep
      exact hc
    split at hstep
    · cases hstep
    · rename_i hfresh
      cases hstep
      have hde : d ≠ e := by
        rintro rfl
        exact hfresh hopened
      simpa [Shared.setDevice, Function.update_of_ne hde] using hc
  case writeCheck e size =>
    split at hstep
    · cases hstep
      exact hc
    · have heq := Option.some.inj hstep
      split at heq
      · rw [← (Prod.mk.inj heq).1]
        exact closing_reserveSlot hc
      · cases heq
        exact hc
  case writeWait e size =>
    split at hstep
    · rw [← (Prod.mk.inj (Option.some.inj hstep)).1]
      exact closing_reserveSlot hc
    · cases hstep
  all_goals
    repeat' split at hstep
    all_goals cases hstep
    all_goals first
      | exact hc
      | exact closing_setDevice hc id
      | exact closing_setDevice hc fun _ => rfl
end Closing

variable [DecidableEq δ] [Fintype τ] [Fintype δ]

structure Sound (st : State τ δ ι) : Prop where
  owned : ∀ d, Owned (st.shared.devices d).operationMutex (fun t => (st.own t).place)
    (fun place => place.held = some d)
  device : ∀ d, DeviceSound (phaseOf st d) (st.shared.devices d)
  opened : ∀ t, ∀ d ∈ (st.own t).place.devices, (st.shared.devices d).opened = true
  table : ∀ entry ∈ st.shared.table, (st.shared.devices entry.2).opened = true
  fresh : ∀ d, (st.shared.devices d).opened = false → st.shared.devices d = {}
  closes : ∀ t d, (st.own t).place.closes = some d → (st.shared.devices d).closing = true
  pendingBuffers : st.shared.counters.pendingBuffers = ∑ d, (st.shared.devices d).pendingBuffers
  pendingBytes : st.shared.counters.pendingBytes = ∑ d, (st.shared.devices d).pendingBytes
  buffers : st.shared.counters.submittedBuffers +
      ∑ t, ((st.own t).place.inFlight.map fun _ => 1).getD 0 =
    st.shared.counters.consumedBuffers + st.shared.counters.discardedBuffers +
      st.shared.counters.pendingBuffers
  bytes : st.shared.counters.submittedBytes + ∑ t, ((st.own t).place.inFlight).getD 0 =
    st.shared.counters.consumedBytes + st.shared.counters.discardedBytes +
      st.shared.counters.pendingBytes

theorem Sound.phaseOf_self (h : Sound st) (ht : (st.own t).place.held = some d) :
    phaseOf st d = (st.own t).place.phase :=
  kept_self (h.owned d) (t := t) (decide_eq_true ht)

/-- Whoever holds a device's `operation_mutex` and has no slot finds none reserved. -/
theorem Sound.idle (h : Sound st) (hheld : (st.own t).place.held = some d)
    (hphase : (st.own t).place.phase = none) : DeviceSound none (st.shared.devices d) := by
  have hdevice := h.device d
  rwa [h.phaseOf_self hheld, hphase] at hdevice

/-- A pending slot is in the counts of its device, and these are in the counters. -/
theorem Sound.pending_le (h : Sound st) {size slot : Nat}
    (hslot : (st.shared.devices d).slots[slot]? = some ⟨.kPending, size⟩) :
    1 ≤ (st.shared.devices d).pendingBuffers ∧ size ≤ (st.shared.devices d).pendingBytes ∧
      (st.shared.devices d).pendingBuffers ≤ st.shared.counters.pendingBuffers ∧
      (st.shared.devices d).pendingBytes ≤ st.shared.counters.pendingBytes := by
  have hmem := List.mem_of_getElem? hslot
  refine ⟨?_, ?_, ?_, ?_⟩
  · rw [(h.device d).buffers]
    exact List.countP_pos_iff.2 ⟨_, hmem, rfl⟩
  · rw [(h.device d).bytes]
    exact List.single_le_sum (fun _ _ => Nat.zero_le _) _ (List.mem_map.2 ⟨_, hmem, rfl⟩)
  · rw [h.pendingBuffers]
    exact Finset.single_le_sum (f := fun d => (st.shared.devices d).pendingBuffers)
      (fun _ _ => Nat.zero_le _) (Finset.mem_univ d)
  · rw [h.pendingBytes]
    exact Finset.single_le_sum (f := fun d => (st.shared.devices d).pendingBytes)
      (fun _ _ => Nat.zero_le _) (Finset.mem_univ d)

/-- A device found in the table is open. -/
theorem Sound.lookup [DecidableEq ι] (h : Sound st) {identity : ι}
    (hfind : st.shared.table.lookup identity = some d) :
    (st.shared.devices d).opened = true := by
  have hmem : (identity, d) ∈ st.shared.table := by
    obtain ⟨before, after, heq, _⟩ := List.lookup_eq_some_iff.1 hfind
    rw [heq]
    simp
  exact h.table _ hmem

theorem act_closing [DecidableEq ι] {options : Options} {a : Act δ ι}
    {th' : Thread δ ι} (h : Sound st)
    (hc : (st.shared.devices d).closing = true)
    (hact : act options t st.shared (st.own t) a = some (s', th')) :
    (s'.devices d).closing = true ∧ ∀ size slot, th'.place = .writeEnqueue d size slot →
      (st.own t).place = .writeEnqueue d size slot := by
  have hopened : (st.shared.devices d).opened = true := by
    by_contra hnot
    rw [h.fresh d (Bool.eq_false_iff.2 hnot)] at hc
    cases hc
  cases a with
  | call c =>
    unfold act at hact
    cases hp : (st.own t).place with
    | returned status =>
      simp only [hp] at hact
      cases hact
      refine ⟨hc, fun size slot heq => ?_⟩
      cases c <;> cases heq
    | _ =>
      simp only [hp] at hact
      cases hact
  | step answer =>
    obtain ⟨⟨s₁, place₁⟩, hstep, heq⟩ := Option.map_eq_some_iff.1 hact
    cases heq
    refine ⟨step_closing hopened hc hstep, ?_⟩
    rintro size slot rfl
    rw [step_enqueues hstep] at hc
    cases hc
  | release e slot =>
    obtain ⟨s₁, hstep, heq⟩ := Option.map_eq_some_iff.1 hact
    cases heq
    exact ⟨closing_release hc hstep, fun _ _ => id⟩

theorem initial_sound : Sound (⟨{ devices := fun _ => {} }, fun _ => {}⟩ : State τ δ ι) := by
  refine ⟨fun _ _ => ⟨nofun, nofun⟩, fun _ => .initial, fun _ => nofun, nofun, fun _ _ => rfl,
    fun _ _ => nofun, ?_, ?_, ?_, ?_⟩
  · exact Finset.sum_const_zero.symm
  · exact Finset.sum_const_zero.symm
  · simp [Place.inFlight]
  · simp [Place.inFlight]

variable [DecidableEq τ]

/-- A device that the thread neither touches nor holds keeps its phase. -/
theorem phaseOf_of_not_held (h : Sound st) (he : s'.devices e = st.shared.devices e)
    (hheld : (st.own t).place.held ≠ some e) :
    phaseOf (st.set t s' ⟨place'⟩) e = phaseOf st e := by
  unfold phaseOf
  rw [System.set_shared, he]
  cases hm : (st.shared.devices e).operationMutex with
  | none => rfl
  | some u =>
    have hu : u ≠ t := by
      rintro rfl
      have := (h.owned e u).2 hm
      exact hheld (of_decide_eq_true this)
    show ((st.set t s' ⟨place'⟩).own u).place.phase = (st.own u).place.phase
    rw [System.set_own_of_ne hu]

/-- A step that touches no device. -/
theorem Sound.go (h : Sound st) (hd : s'.devices = st.shared.devices)
    (hc : s'.counters = st.shared.counters) (halike : Alike (st.own t).place place')
    (htable : ∀ entry ∈ s'.table, (st.shared.devices entry.2).opened = true)
    (hopened : ∀ e ∈ place'.devices, (st.shared.devices e).opened = true)
    (hcloses : ∀ e, place'.closes = some e → (st.shared.devices e).closing = true) :
    Sound (st.set t s' ⟨place'⟩) := by
  have hphase : ∀ e, phaseOf (st.set t s' ⟨place'⟩) e = phaseOf st e := by
    intro e
    by_cases hheld : (st.own t).place.held = some e
    · rw [h.phaseOf_self hheld, phaseOf_holder, halike.phase]
      rw [hd]
      exact (h.owned e t).1 (decide_eq_true hheld)
    · exact phaseOf_of_not_held h (by rw [hd]) hheld
  have hsum (f : Option Nat → Nat) := @sum_inFlight _ _ _ st t place' s' _ _ f
  refine ⟨?_, ?_, ?_, ?_, ?_, ?_, ?_, ?_, ?_, ?_⟩
  · intro e
    rw [places_set, System.set_shared, hd]
    exact (h.owned e).move (by rw [halike.held])
  · intro e
    rw [hphase, System.set_shared, hd]
    exact h.device e
  · exact opened_set h.opened (fun e he => by rw [hd]; exact he) (by rw [hd]; exact hopened)
  · rw [System.set_shared, hd]
    exact htable
  · rw [System.set_shared, hd]
    exact h.fresh
  · exact closes_set h.closes (fun e he => by rw [hd]; exact he) (by rw [hd]; exact hcloses)
  · rw [System.set_shared, hd, hc]
    exact h.pendingBuffers
  · rw [System.set_shared, hd, hc]
    exact h.pendingBytes
  · have := hsum fun n => (n.map fun _ => 1).getD 0
    rw [halike.inFlight] at this
    rw [System.set_shared, hc, Nat.add_right_cancel this]
    exact h.buffers
  · have := hsum fun n => n.getD 0
    rw [halike.inFlight] at this
    rw [System.set_shared, hc, Nat.add_right_cancel this]
    exact h.bytes

/-- A step that changes one device. -/
theorem Sound.touch (h : Sound st) (hd : s'.devices = Function.update st.shared.devices d device)
    (htable : s'.table = st.shared.table)
    (hheld : ∀ e, e ≠ d → (st.own t).place.held = some e ∨ place'.held = some e →
      place' = (st.own t).place)
    (howned : Owned device.operationMutex (Function.update (fun u => (st.own u).place) t place')
      (fun place => place.held = some d))
    (hdevice : DeviceSound (phaseOf (st.set t s' ⟨place'⟩) d) device)
    (hopened : device.opened = true)
    (hplaces : ∀ e ∈ place'.devices, e ∈ (st.own t).place.devices ∨ e = d)
    (hclosing : (st.shared.devices d).closing = true → device.closing = true)
    (hcloses : ∀ e, place'.closes = some e →
      (st.own t).place.closes = some e ∨ e = d ∧ device.closing = true)
    (hbalance : Balance st.shared.counters s'.counters (st.shared.devices d) device
      (st.own t).place.inFlight place'.inFlight) :
    Sound (st.set t s' ⟨place'⟩) := by
  have hself : s'.devices d = device := by rw [hd, Function.update_self]
  have hne : ∀ e, e ≠ d → s'.devices e = st.shared.devices e := by
    intro e he
    rw [hd, Function.update_of_ne he]
  have hkeep : ∀ e, (st.shared.devices e).opened = true → (s'.devices e).opened = true := by
    intro e he
    by_cases hed : e = d
    · rw [hed, hself]
      exact hopened
    · rw [hne e hed]
      exact he
  have hkeep' : ∀ e, (st.shared.devices e).closing = true → (s'.devices e).closing = true := by
    intro e he
    by_cases hed : e = d
    · rw [hed, hself]
      exact hclosing (hed ▸ he)
    · rw [hne e hed]
      exact he
  have hsumD (f : Device τ → Nat) : ∑ e, f (s'.devices e) + f (st.shared.devices d) =
      ∑ e, f (st.shared.devices e) + f device := by
    rw [hd]
    exact sum_update st.shared.devices f
  have hsum (f : Option Nat → Nat) := @sum_inFlight _ _ _ st t place' s' _ _ f
  refine ⟨?_, ?_, ?_, ?_, ?_, ?_, ?_, ?_, ?_, ?_⟩
  · intro e
    rw [places_set, System.set_shared]
    by_cases hed : e = d
    · rw [hed, hself]
      exact howned
    · rw [hne e hed]
      refine (h.owned e).move ?_
      by_cases hany : (st.own t).place.held = some e ∨ place'.held = some e
      · rw [hheld e hed hany]
      · simp [not_or.1 hany]
  · intro e
    rw [System.set_shared]
    by_cases hed : e = d
    · rw [hed, hself]
      exact hdevice
    · have hphase : phaseOf (st.set t s' ⟨place'⟩) e = phaseOf st e := by
        by_cases hmine : (st.own t).place.held = some e
        · rw [h.phaseOf_self hmine, phaseOf_holder, hheld e hed (.inl hmine)]
          rw [hne e hed]
          exact (h.owned e t).1 (decide_eq_true hmine)
        · exact phaseOf_of_not_held h (hne e hed) hmine
      rw [hphase, hne e hed]
      exact h.device e
  · refine opened_set h.opened hkeep fun e he => ?_
    rcases hplaces e he with hold | rfl
    · exact hkeep e (h.opened t e hold)
    · rw [hself]
      exact hopened
  · rw [System.set_shared, htable]
    exact fun entry hentry => hkeep _ (h.table entry hentry)
  · intro e he
    rw [System.set_shared] at he ⊢
    by_cases hed : e = d
    · rw [hed, hself, hopened] at he
      cases he
    · rw [hne e hed] at he ⊢
      exact h.fresh e he
  · refine closes_set h.closes hkeep' fun e he => ?_
    rcases hcloses e he with hold | ⟨rfl, hnew⟩
    · exact hkeep' e (h.closes t e hold)
    · rw [hself]
      exact hnew
  · have h₁ := hsumD fun device => device.pendingBuffers
    have h₂ := hbalance.pendingBuffers
    have h₃ := h.pendingBuffers
    rw [System.set_shared]
    omega
  · have h₁ := hsumD fun device => device.pendingBytes
    have h₂ := hbalance.pendingBytes
    have h₃ := h.pendingBytes
    rw [System.set_shared]
    omega
  · have h₁ := hsum fun n => (n.map fun _ => 1).getD 0
    have h₂ := hbalance.buffers
    have h₃ := h.buffers
    rw [System.set_shared]
    omega
  · have h₁ := hsum fun n => n.getD 0
    have h₂ := hbalance.bytes
    have h₃ := h.bytes
    rw [System.set_shared]
    omega

/-- A step of the thread that holds the device. -/
theorem Sound.hold (h : Sound st) (ht : (st.own t).place.held = some d) (ht' : place'.held = some d)
    (hd : s'.devices = Function.update st.shared.devices d device)
    (htable : s'.table = st.shared.table)
    (hm : device.operationMutex = (st.shared.devices d).operationMutex)
    (hdevice : DeviceSound (st.own t).place.phase (st.shared.devices d) →
      DeviceSound place'.phase device)
    (hopened : device.opened = (st.shared.devices d).opened)
    (hplaces : ∀ e ∈ place'.devices, e ∈ (st.own t).place.devices)
    (hmem : d ∈ (st.own t).place.devices)
    (hclosing : device.closing = (st.shared.devices d).closing)
    (hcloses : ∀ e, place'.closes = some e → (st.own t).place.closes = some e)
    (hbalance : Balance st.shared.counters s'.counters (st.shared.devices d) device
      (st.own t).place.inFlight place'.inFlight) :
    Sound (st.set t s' ⟨place'⟩) := by
  have howner : (st.shared.devices d).operationMutex = some t := (h.owned d t).1 (decide_eq_true ht)
  refine h.touch hd htable ?_ ?_ ?_ (hopened.trans (h.opened t d hmem))
    (fun e he => .inl (hplaces e he)) (fun hc => hclosing.trans hc)
    (fun e he => .inl (hcloses e he)) hbalance
  · intro e hne hany
    rw [ht, ht'] at hany
    rcases hany with heq | heq <;> exact absurd (Option.some.inj heq).symm hne
  · rw [hm]
    exact (h.owned d).move (by rw [ht, ht'])
  · rw [phaseOf_holder (by rw [hd, Function.update_self, hm]; exact howner)]
    exact hdevice (h.phaseOf_self ht ▸ h.device d)

/-- A step that takes `operation_mutex`. -/
theorem Sound.lock (h : Sound st) (ht : (st.own t).place.held = none) (ht' : place'.held = some d)
    (hfree : (st.shared.devices d).operationMutex = none)
    (hphase : place'.phase = none) (hflight : place'.inFlight = (st.own t).place.inFlight)
    (hplaces : ∀ e ∈ place'.devices, e ∈ (st.own t).place.devices)
    (hmem : d ∈ (st.own t).place.devices)
    (hcloses : ∀ e, place'.closes = some e → (st.own t).place.closes = some e) :
    Sound (st.set t
      (st.shared.setDevice d { st.shared.devices d with operationMutex := some t }) ⟨place'⟩) := by
  refine h.touch rfl rfl ?_ ?_ ?_ (h.opened t d hmem) (fun e he => .inl (hplaces e he)) id
    (fun e he => .inl (hcloses e he)) (.same rfl rfl hflight)
  · intro e hne hany
    rw [ht, ht'] at hany
    rcases hany with heq | heq
    · cases heq
    · exact absurd (Option.some.inj heq).symm hne
  · exact (h.owned d).acquire hfree (decide_eq_true ht')
  · rw [phaseOf_holder (by simp [Shared.setDevice]), hphase]
    have hnone : phaseOf st d = none := by
      rw [phaseOf, hfree]
      rfl
    exact (hnone ▸ h.device d).setMutex

/-- A step that leaves `operation_mutex`. -/
theorem Sound.unlock (h : Sound st) (ht : (st.own t).place.held = some d) (ht' : place'.held = none)
    (hphase : (st.own t).place.phase = none)
    (hflight : place'.inFlight = (st.own t).place.inFlight)
    (hplaces : ∀ e ∈ place'.devices, e ∈ (st.own t).place.devices)
    (hmem : d ∈ (st.own t).place.devices) (hcloses : place'.closes = none) :
    Sound (st.set t (unlockOperation st.shared d) ⟨place'⟩) := by
  refine h.touch rfl rfl ?_ ?_ ?_ (h.opened t d hmem) (fun e he => .inl (hplaces e he)) id
    (fun e he => by rw [hcloses] at he; cases he) (.same rfl rfl hflight)
  · intro e hne hany
    rw [ht, ht'] at hany
    rcases hany with heq | heq
    · exact absurd (Option.some.inj heq).symm hne
    · cases heq
  · exact (h.owned d).release (decide_eq_true ht) (by rw [ht']; rfl)
  · have hnone : phaseOf (st.set t (unlockOperation st.shared d) ⟨place'⟩) d = none := by
      unfold phaseOf
      simp [unlockOperation, Shared.setDevice, kept]
    rw [hnone]
    have hdevice := h.device d
    rw [h.phaseOf_self ht, hphase] at hdevice
    exact hdevice.setMutex

/-- A step on a device that the thread does not hold. -/
theorem Sound.outside (h : Sound st) (ht : (st.own t).place.held = none) (ht' : place'.held = none)
    (hd : s'.devices = Function.update st.shared.devices d device)
    (htable : s'.table = st.shared.table)
    (hm : device.operationMutex = (st.shared.devices d).operationMutex)
    (hdevice : DeviceSound (phaseOf st d) device) (hopened : device.opened = true)
    (hplaces : ∀ e ∈ place'.devices, e ∈ (st.own t).place.devices ∨ e = d)
    (hclosing : (st.shared.devices d).closing = true → device.closing = true)
    (hcloses : ∀ e, place'.closes = some e → e = d ∧ device.closing = true)
    (hbalance : Balance st.shared.counters s'.counters (st.shared.devices d) device
      (st.own t).place.inFlight place'.inFlight) :
    Sound (st.set t s' ⟨place'⟩) := by
  have howner : (st.shared.devices d).operationMutex ≠ some t := by
    intro hm
    have := of_decide_eq_true ((h.owned d t).2 hm)
    rw [ht] at this
    cases this
  refine h.touch hd htable ?_ ?_ ?_ hopened hplaces hclosing (fun e he => .inr (hcloses e he))
    hbalance
  · intro e hne hany
    rw [ht, ht'] at hany
    rcases hany with heq | heq <;> cases heq
  · rw [hm]
    exact (h.owned d).move (by rw [ht, ht'])
  · have hsame : phaseOf (st.set t s' ⟨place'⟩) d = phaseOf st d := by
      unfold phaseOf
      rw [System.set_shared, hd, Function.update_self, hm]
      cases hmu : (st.shared.devices d).operationMutex with
      | none => rfl
      | some u =>
        have hu : u ≠ t := by
          rintro rfl
          exact howner hmu
        show ((st.set t s' ⟨place'⟩).own u).place.phase = (st.own u).place.phase
        rw [System.set_own_of_ne hu]
    rw [hsame]
    exact hdevice

/-! One step. -/

/-- A section that touches no device. -/
theorem step_go (h : Sound st) (hp : (st.own t).place = place) (hd : s'.devices = st.shared.devices)
    (hc : s'.counters = st.shared.counters) (halike : Alike place place')
    (htable : ∀ entry ∈ s'.table, entry ∈ st.shared.table ∨
      (st.shared.devices entry.2).opened = true)
    (hopened : ∀ e ∈ place'.devices, e ∈ place.devices ∨ (st.shared.devices e).opened = true)
    (hcloses : ∀ e, place'.closes = some e → place.closes = some e) :
    Sound (st.set t s' ⟨place'⟩) := by
  subst hp
  refine h.go hd hc halike ?_ ?_ ?_
  · intro entry hentry
    rcases htable entry hentry with hold | hnew
    · exact h.table entry hold
    · exact hnew
  · intro e he
    rcases hopened e he with hold | hnew
    · exact h.opened t e hold
    · exact hnew
  · exact fun e he => h.closes t e (hcloses e he)

theorem lockOperation_sound (h : Sound st)
    (hstep : lockOperation t st.shared d place = some (s', place'))
    (ht : (st.own t).place.held = none) (ht' : place.held = some d) (hphase : place.phase = none)
    (hflight : place.inFlight = (st.own t).place.inFlight)
    (hplaces : ∀ e ∈ place.devices, e ∈ (st.own t).place.devices)
    (hmem : d ∈ (st.own t).place.devices)
    (hcloses : ∀ e, place.closes = some e → (st.own t).place.closes = some e) :
    Sound (st.set t s' ⟨place'⟩) := by
  unfold lockOperation at hstep
  simp only at hstep
  split at hstep
  · rename_i hfree
    cases hstep
    exact h.lock ht ht' hfree hphase hflight hplaces hmem hcloses
  · cases hstep

/-- `Write` reserves a slot, or leaves. -/
theorem reserveSlot_sound (h : Sound st) {size : Nat} (hheld : (st.own t).place.held = some d)
    (hphase : (st.own t).place.phase = none) (hflight : (st.own t).place.inFlight = none)
    (hdevices : (st.own t).place.devices = [d])
    (hcapacity : hasCapacity (st.shared.devices d) = true) :
    Sound (st.set t (reserveSlot st.shared d size).1 ⟨(reserveSlot st.shared d size).2⟩) := by
  have hidle : DeviceSound none (st.shared.devices d) := by
    have := h.device d
    rwa [h.phaseOf_self hheld, hphase] at this
  have hleave : ∀ status, Sound (st.set t st.shared ⟨.writeLeave d status⟩) := by
    intro status
    refine step_go h rfl rfl rfl ⟨hheld.symm, hphase.symm, hflight.symm⟩ (fun _ => .inl) ?_ nofun
    intro e he
    left
    rw [hdevices]
    exact he
  unfold reserveSlot
  simp only
  split
  · exact hleave _
  · rename_i hopen
    have hroom : (st.shared.devices d).pendingBuffers <
        (st.shared.devices d).geometry.slotCount := by
      unfold hasCapacity at hcapacity
      rcases Bool.or_eq_true_iff.1 hcapacity with hclosed | hroom
      · exact absurd hclosed hopen
      · exact of_decide_eq_true hroom
    obtain ⟨slot, value, hfind, hslot, hfree⟩ := hidle.findFreeSlot hroom
    rw [hfind]
    refine h.hold hheld rfl rfl rfl rfl (fun _ => hidle.reserve hslot hfree) rfl ?_ ?_ rfl nofun ?_
    · rw [hdevices]
      exact fun e he => he
    · rw [hdevices]
      exact List.mem_singleton_self d
    · exact .same rfl rfl hflight.symm

theorem writeSubmitted_sound (h : Sound st) {size : Nat}
    (hp : (st.own t).place = .writeSubmitted d size) :
    Sound (st.set t { st.shared with counters := st.shared.counters.submit size }
      ⟨.writeLeave d {}⟩) := by
  have hmem : d ∈ (st.own t).place.devices := by rw [hp]; exact List.mem_singleton_self d
  have hsame : st.shared.devices = Function.update st.shared.devices d (st.shared.devices d) :=
    (Function.update_eq_self _ _).symm
  refine h.hold (by rw [hp]; rfl) rfl hsame rfl rfl ?_ rfl ?_ hmem rfl nofun ?_
  · rw [hp]
    exact id
  · rw [hp]
    exact fun e he => he
  · rw [hp]
    refine ⟨rfl, rfl, ?_, ?_⟩
    · simp only [Counters.submit, Place.inFlight, Option.map_some, Option.map_none,
        Option.getD_some, Option.getD_none]
    · simp only [Counters.submit, Place.inFlight, Option.getD_some, Option.getD_none]
      omega

theorem writeLeave_sound (h : Sound st) {status : Status}
    (hp : (st.own t).place = .writeLeave d status) :
    Sound (st.set t (unlockOperation st.shared d) ⟨.apiLeave status⟩) := by
  refine h.unlock ?_ rfl ?_ ?_ nofun ?_ rfl
  · rw [hp]
    rfl
  · rw [hp]
    rfl
  · rw [hp]
    rfl
  · rw [hp]
    exact List.mem_singleton_self d

theorem closeMark_sound (h : Sound st) {after : After δ}
    (hp : (st.own t).place = .closeMark d after) :
    Sound (st.set t (st.shared.setDevice d { st.shared.devices d with closing := true })
      ⟨.closeOperation d after⟩) := by
  refine h.outside (by rw [hp]; rfl) rfl rfl rfl rfl (h.device d).mark ?_ ?_ (fun _ => rfl) ?_ ?_
  · exact h.opened t d (by rw [hp]; exact List.mem_cons_self)
  · rw [hp]
    exact fun e he => .inl he
  · intro e he
    exact ⟨(Option.some.inj he).symm, rfl⟩
  · rw [hp]
    exact .same rfl rfl rfl

theorem closeLeave_sound (h : Sound st) {after : After δ} {status : Status}
    (hp : (st.own t).place = .closeLeave d after status) :
    Sound (st.set t (unlockOperation st.shared d) ⟨afterClose status after⟩) := by
  have hmem : d ∈ (st.own t).place.devices := by rw [hp]; exact List.mem_cons_self
  refine h.unlock (by rw [hp]; rfl) ?_ (by rw [hp]; rfl) ?_ ?_ hmem ?_
  · cases after <;> rfl
  · rw [hp]
    cases after <;> rfl
  · rw [hp]
    cases after with
    | shutdown rest => exact fun e he => List.mem_cons_of_mem _ he
    | _ => nofun
  · cases after <;> rfl

theorem release_sound (h : Sound st) {slot : Nat} (hstep : release st.shared d slot = some s') :
    Sound (st.set t s' (st.own t)) := by
  unfold release at hstep
  simp only at hstep
  split at hstep
  · rename_i hmem
    obtain ⟨size, hslot⟩ := (h.device d).borrowed slot hmem
    obtain ⟨h₁, h₂, h₃, h₄⟩ := h.pending_le hslot
    have hopen : (st.shared.devices d).opened = true := by
      by_contra hnot
      rw [h.fresh d (Bool.eq_false_iff.2 hnot)] at hmem
      cases hmem
    have hs' : s' = { st.shared.setDevice d
        ({ st.shared.devices d with borrowed := (st.shared.devices d).borrowed.erase slot }.free
          slot size) with
        counters := st.shared.counters.release size (st.shared.devices d).closing } := by
      rw [← Option.some.inj hstep]
      simp [releaseOwnedBuffer, Shared.setDevice, hslot]
    subst hs'
    refine h.touch rfl rfl (fun _ _ _ => rfl) ?_ ?_ hopen (fun e he => .inl he) id
      (fun e he => .inl he) ?_
    · exact (h.owned d).move rfl
    · rw [phaseOf_same (by simp [Shared.setDevice, Device.free, Device.setSlot])]
      exact (h.device d).release hmem hslot
    · refine ⟨?_, ?_, ?_, ?_⟩
      · cases (st.shared.devices d).closing <;>
          simp only [Counters.release, Counters.unpend, Device.free] <;> simp <;> omega
      · cases (st.shared.devices d).closing <;>
          simp only [Counters.release, Counters.unpend, Device.free] <;> simp <;> omega
      · cases (st.shared.devices d).closing <;>
          simp only [Counters.release, Counters.unpend] <;> simp <;> omega
      · cases (st.shared.devices d).closing <;>
          simp only [Counters.release, Counters.unpend] <;> simp <;> omega
  · cases hstep

variable [DecidableEq ι] {options : Options} {answer : Status} {a : Act δ ι}

theorem initEnter_sound (h : Sound st) {identity : Option ι} {args : InitArgs}
    (hp : (st.own t).place = .initEnter identity args d)
    (hstep : step options t st.shared answer (.initEnter identity args d) = some (s', place')) :
    Sound (st.set t s' ⟨place'⟩) := by
  simp only [step] at hstep
  split at hstep
  · cases hstep
    exact step_go h hp rfl rfl ⟨rfl, rfl, rfl⟩ (fun _ => .inl) nofun nofun
  · obtain ⟨rfl, rfl⟩ := Prod.mk.inj (Option.some.inj hstep)
    split <;> exact step_go h hp rfl rfl ⟨rfl, rfl, rfl⟩ (fun _ => .inl) nofun nofun

theorem initReserve_sound (h : Sound st) {identity : ι} {geometry : Geometry}
    (hp : (st.own t).place = .initReserve identity geometry d)
    (hstep : step options t st.shared answer (.initReserve identity geometry d) =
      some (s', place')) :
    Sound (st.set t s' ⟨place'⟩) := by
  simp only [step] at hstep
  split at hstep
  · cases hstep
    exact step_go h hp rfl rfl ⟨rfl, rfl, rfl⟩ (fun _ => .inl) nofun nofun
  split at hstep
  · cases hstep
    exact step_go h hp rfl rfl ⟨rfl, rfl, rfl⟩ (fun _ => .inl) nofun nofun
  split at hstep
  · cases hstep
    exact step_go h hp rfl rfl ⟨rfl, rfl, rfl⟩ (fun _ => .inl) nofun nofun
  · cases hstep
    exact step_go h hp rfl rfl ⟨rfl, rfl, rfl⟩ (fun _ => .inl) nofun nofun

/-- The device that `Initialize` makes is a new one. -/
theorem initSink_sound (h : Sound st) {identity : ι} {geometry : Geometry}
    (hp : (st.own t).place = .initSink identity geometry d)
    (hstep : step options t st.shared answer (.initSink identity geometry d) = some (s', place')) :
    Sound (st.set t s' ⟨place'⟩) := by
  simp only [step] at hstep
  split at hstep
  · cases hstep
    exact step_go h hp rfl rfl ⟨rfl, rfl, rfl⟩ (fun _ => .inl) nofun nofun
  split at hstep
  · cases hstep
  · rename_i hfresh
    cases hstep
    have hempty : st.shared.devices d = {} := h.fresh d (Bool.eq_false_iff.2 hfresh)
    have hphase : phaseOf st d = none := by
      rw [phaseOf, hempty]
      rfl
    refine h.outside (by rw [hp]; rfl) rfl rfl rfl ?_ ?_ rfl ?_ ?_ nofun ?_
    · rw [hempty]
      rfl
    · rw [hphase]
      exact .create
    · intro e he
      exact .inr (List.mem_singleton.1 he)
    · rw [hempty]
      exact id
    · rw [hempty, hp]
      exact .same rfl rfl rfl

theorem initPublish_sound (h : Sound st) {identity : ι}
    (hp : (st.own t).place = .initPublish identity d)
    (hstep : step options t st.shared answer (.initPublish identity d) = some (s', place')) :
    Sound (st.set t s' ⟨place'⟩) := by
  have hopen : (st.shared.devices d).opened = true :=
    h.opened t d (by rw [hp]; exact List.mem_singleton_self d)
  have hclose : ∀ status, ∀ e ∈ (Place.closeMark d (.initReject status) : Place δ ι).devices,
      e ∈ (Place.initPublish identity d).devices ∨ (st.shared.devices e).opened = true :=
    fun _ e he => .inl he
  simp only [step] at hstep
  split at hstep
  · cases hstep
    exact step_go h hp rfl rfl ⟨rfl, rfl, rfl⟩ (fun _ => .inl) (hclose _) nofun
  split at hstep
  · cases hstep
    exact step_go h hp rfl rfl ⟨rfl, rfl, rfl⟩ (fun _ => .inl) (hclose _) nofun
  split at hstep
  · cases hstep
    exact step_go h hp rfl rfl ⟨rfl, rfl, rfl⟩ (fun _ => .inl) (hclose _) nofun
  · cases hstep
    refine step_go h hp rfl rfl ⟨rfl, rfl, rfl⟩ ?_ nofun nofun
    intro entry hentry
    rcases List.mem_cons.1 hentry with rfl | hold
    · exact .inr hopen
    · exact .inl hold

theorem writeEnter_sound (h : Sound st) {identity : Option ι} {bytesGiven : Bool} {size : Nat}
    (hp : (st.own t).place = .writeEnter identity bytesGiven size)
    (hstep : step options t st.shared answer (.writeEnter identity bytesGiven size) =
      some (s', place')) :
    Sound (st.set t s' ⟨place'⟩) := by
  simp only [step] at hstep
  split at hstep
  · cases hstep
    exact step_go h hp rfl rfl ⟨rfl, rfl, rfl⟩ (fun _ => .inl) nofun nofun
  · obtain ⟨rfl, rfl⟩ := Prod.mk.inj (Option.some.inj hstep)
    split
    · split <;> exact step_go h hp rfl rfl ⟨rfl, rfl, rfl⟩ (fun _ => .inl) nofun nofun
    · exact step_go h hp rfl rfl ⟨rfl, rfl, rfl⟩ (fun _ => .inl) nofun nofun

theorem writeLookup_sound (h : Sound st) {identity : ι} {size : Nat}
    (hp : (st.own t).place = .writeLookup identity size)
    (hstep : step options t st.shared answer (.writeLookup identity size) = some (s', place')) :
    Sound (st.set t s' ⟨place'⟩) := by
  simp only [step] at hstep
  split at hstep
  · cases hstep
    exact step_go h hp rfl rfl ⟨rfl, rfl, rfl⟩ (fun _ => .inl) nofun nofun
  split at hstep
  · cases hstep
    exact step_go h hp rfl rfl ⟨rfl, rfl, rfl⟩ (fun _ => .inl) nofun nofun
  · rename_i d hfind
    cases hstep
    refine step_go h hp rfl rfl ⟨rfl, rfl, rfl⟩ (fun _ => .inl) ?_ nofun
    intro e he
    obtain rfl := List.mem_singleton.1 he
    exact .inr (h.lookup hfind)

theorem writeOperation_sound (h : Sound st) {size : Nat}
    (hp : (st.own t).place = .writeOperation d size)
    (hstep : step options t st.shared answer (.writeOperation d size) = some (s', place')) :
    Sound (st.set t s' ⟨place'⟩) := by
  refine lockOperation_sound h hstep ?_ rfl rfl ?_ ?_ ?_ nofun
  · rw [hp]
    rfl
  · rw [hp]
    rfl
  · rw [hp]
    exact fun e he => he
  · rw [hp]
    exact List.mem_singleton_self d

theorem writeCheck_sound (h : Sound st) {size : Nat} (hp : (st.own t).place = .writeCheck d size)
    (hstep : step options t st.shared answer (.writeCheck d size) = some (s', place')) :
    Sound (st.set t s' ⟨place'⟩) := by
  simp only [step] at hstep
  split at hstep
  · cases hstep
    exact step_go h hp rfl rfl ⟨rfl, rfl, rfl⟩ (fun _ => .inl) (fun e he => .inl he) nofun
  · by_cases hcapacity : hasCapacity (st.shared.devices d) = true
    · rw [if_pos hcapacity] at hstep
      obtain ⟨rfl, rfl⟩ := Prod.mk.inj (Option.some.inj hstep)
      exact reserveSlot_sound h (by rw [hp]; rfl) (by rw [hp]; rfl) (by rw [hp]; rfl)
        (by rw [hp]; rfl) hcapacity
    · rw [if_neg hcapacity] at hstep
      cases hstep
      exact step_go h hp rfl rfl ⟨rfl, rfl, rfl⟩ (fun _ => .inl) (fun e he => .inl he) nofun

theorem writeWait_sound (h : Sound st) {size : Nat} (hp : (st.own t).place = .writeWait d size)
    (hstep : step options t st.shared answer (.writeWait d size) = some (s', place')) :
    Sound (st.set t s' ⟨place'⟩) := by
  simp only [step] at hstep
  split at hstep
  · rename_i hcapacity
    obtain ⟨rfl, rfl⟩ := Prod.mk.inj (Option.some.inj hstep)
    exact reserveSlot_sound h (by rw [hp]; rfl) (by rw [hp]; rfl) (by rw [hp]; rfl)
      (by rw [hp]; rfl) hcapacity
  · cases hstep

theorem writeCommit_sound (h : Sound st) {size slot : Nat}
    (hp : (st.own t).place = .writeCommit d size slot)
    (hstep : step options t st.shared answer (.writeCommit d size slot) = some (s', place')) :
    Sound (st.set t s' ⟨place'⟩) := by
  have hheld : (st.own t).place.held = some d := by rw [hp]; rfl
  have hmem : d ∈ (st.own t).place.devices := by rw [hp]; exact List.mem_singleton_self d
  simp only [step] at hstep
  split at hstep
  · cases hstep
    refine h.hold hheld rfl rfl rfl rfl ?_ rfl ?_ hmem rfl nofun ?_
    · rw [hp]
      exact DeviceSound.cancel
    · rw [hp]
      exact fun e he => he
    · rw [hp]
      exact .same rfl rfl rfl
  · rename_i hopen
    simp only [Bool.or_eq_true, Bool.not_eq_true', not_or, Bool.not_eq_true, Bool.not_eq_false]
      at hopen
    cases hstep
    refine h.hold hheld rfl rfl rfl rfl ?_ rfl ?_ hmem rfl nofun ?_
    · rw [hp]
      exact fun hdevice => hdevice.commit hopen.1 hopen.2
    · rw [hp]
      exact fun e he => he
    · rw [hp]
      refine ⟨?_, ?_, ?_, ?_⟩
      · simp only [Counters.pend, Device.commit]
        omega
      · simp only [Counters.pend, Device.commit]
        omega
      · simp only [Counters.pend, Place.inFlight, Option.map_some, Option.map_none,
          Option.getD_some, Option.getD_none]
        omega
      · simp only [Counters.pend, Place.inFlight, Option.getD_some, Option.getD_none]
        omega

theorem writeEnqueue_sound (h : Sound st) {size slot : Nat}
    (hp : (st.own t).place = .writeEnqueue d size slot)
    (hstep : step options t st.shared answer (.writeEnqueue d size slot) = some (s', place')) :
    Sound (st.set t s' ⟨place'⟩) := by
  have hheld : (st.own t).place.held = some d := by rw [hp]; rfl
  have hmem : d ∈ (st.own t).place.devices := by rw [hp]; exact List.mem_singleton_self d
  cases hok : answer.isOk with
  | true =>
    simp only [step, hok, if_true] at hstep
    cases hstep
    refine h.hold hheld rfl rfl rfl rfl ?_ rfl ?_ hmem rfl nofun ?_
    · rw [hp]
      exact fun hdevice => hdevice.enqueue true
    · rw [hp]
      exact fun e he => he
    · rw [hp]
      exact .same rfl rfl rfl
  | false =>
    simp only [step, hok] at hstep
    cases hstep
    refine h.hold hheld rfl rfl rfl rfl ?_ rfl ?_ hmem rfl nofun ?_
    · rw [hp]
      exact fun hdevice => hdevice.enqueue false
    · rw [hp]
      exact fun e he => he
    · rw [hp]
      exact .same rfl rfl rfl

theorem writeRollback_sound (h : Sound st) {size slot : Nat} {status : Status}
    (hp : (st.own t).place = .writeRollback d size slot status)
    (hstep : step options t st.shared answer (.writeRollback d size slot status) =
      some (s', place')) :
    Sound (st.set t s' ⟨place'⟩) := by
  have hheld : (st.own t).place.held = some d := by rw [hp]; rfl
  have hmem : d ∈ (st.own t).place.devices := by rw [hp]; exact List.mem_singleton_self d
  have hdevice := h.device d
  rw [h.phaseOf_self hheld, hp] at hdevice
  have hslot : (st.shared.devices d).slots[slot]? = some ⟨.kPending, size⟩ :=
    (hdevice.knows _ rfl).1
  obtain ⟨h₁, h₂, h₃, h₄⟩ := h.pending_le hslot
  simp only [step, hslot, Option.any_some] at hstep
  cases hstep
  refine h.hold hheld rfl rfl rfl rfl ?_ rfl ?_ hmem rfl nofun ?_
  · rw [hp]
    exact DeviceSound.rollback
  · rw [hp]
    exact fun e he => he
  · rw [hp]
    refine ⟨?_, ?_, ?_, ?_⟩
    · simp only [Counters.unpend, Device.free]
      omega
    · simp only [Counters.unpend, Device.free]
      omega
    · simp only [Counters.unpend, Place.inFlight, Option.map_some, Option.map_none,
        Option.getD_some, Option.getD_none]
      omega
    · simp only [Counters.unpend, Place.inFlight, Option.getD_some, Option.getD_none]
      omega

theorem closeEnter_sound (h : Sound st) {identity : Option ι}
    (hp : (st.own t).place = .closeEnter identity)
    (hstep : step options t st.shared answer (.closeEnter identity) = some (s', place')) :
    Sound (st.set t s' ⟨place'⟩) := by
  cases identity with
  | none =>
    cases hstep
    exact step_go h hp rfl rfl ⟨rfl, rfl, rfl⟩ (fun _ => .inl) nofun nofun
  | some identity =>
    simp only [step] at hstep
    split at hstep <;> cases hstep <;>
      exact step_go h hp rfl rfl ⟨rfl, rfl, rfl⟩ (fun _ => .inl) nofun nofun

theorem closeTake_sound (h : Sound st) {identity : ι} (hp : (st.own t).place = .closeTake identity)
    (hstep : step options t st.shared answer (.closeTake identity) = some (s', place')) :
    Sound (st.set t s' ⟨place'⟩) := by
  simp only [step] at hstep
  split at hstep
  · cases hstep
    exact step_go h hp rfl rfl ⟨rfl, rfl, rfl⟩ (fun _ => .inl) nofun nofun
  · rename_i d hfind
    cases hstep
    refine step_go h hp rfl rfl ⟨rfl, rfl, rfl⟩ ?_ ?_ nofun
    · exact fun entry hentry => .inl (List.mem_of_mem_filter hentry)
    · intro e he
      obtain rfl := List.mem_singleton.1 he
      exact .inr (h.lookup hfind)

theorem closeOperation_sound (h : Sound st) {after : After δ}
    (hp : (st.own t).place = .closeOperation d after)
    (hstep : step options t st.shared answer (.closeOperation d after) = some (s', place')) :
    Sound (st.set t s' ⟨place'⟩) := by
  refine lockOperation_sound h hstep ?_ rfl rfl ?_ ?_ ?_ ?_
  · rw [hp]
    rfl
  · rw [hp]
    rfl
  · rw [hp]
    exact fun e he => he
  · rw [hp]
    exact List.mem_cons_self
  · rw [hp]
    exact fun e he => he

theorem closeSink_sound (h : Sound st) {after : After δ}
    (hp : (st.own t).place = .closeSink d after)
    (hstep : step options t st.shared answer (.closeSink d after) = some (s', place')) :
    Sound (st.set t s' ⟨place'⟩) := by
  have hclosing : (st.shared.devices d).closing = true := h.closes t d (by rw [hp]; rfl)
  simp only [step] at hstep
  split at hstep
  · cases hstep
    exact step_go h hp rfl rfl ⟨rfl, rfl, rfl⟩ (fun _ => .inl)
      (fun e he => .inl he) (fun e he => he)
  split at hstep
  · cases hstep
    refine h.hold (by rw [hp]; rfl) rfl rfl rfl rfl ?_ rfl ?_ ?_ rfl ?_ ?_
    · rw [hp]
      exact fun hdevice => hdevice.shutDownSink hclosing
    · rw [hp]
      exact fun e he => he
    · rw [hp]
      exact List.mem_cons_self
    · rw [hp]
      exact fun e he => he
    · rw [hp]
      exact .same rfl rfl rfl
  split at hstep
  · cases hstep
    exact step_go h hp rfl rfl ⟨rfl, rfl, rfl⟩ (fun _ => .inl)
      (fun e he => .inl he) (fun e he => he)
  · cases hstep

theorem closeRead_sound (h : Sound st) {after : After δ}
    (hp : (st.own t).place = .closeRead d after)
    (hstep : step options t st.shared answer (.closeRead d after) = some (s', place')) :
    Sound (st.set t s' ⟨place'⟩) := by
  have hclosing : (st.shared.devices d).closing = true := h.closes t d (by rw [hp]; rfl)
  simp only [step] at hstep
  cases hstep
  refine h.hold (by rw [hp]; rfl) rfl rfl rfl rfl ?_ rfl ?_ ?_ rfl ?_ ?_
  · rw [hp]
    exact fun hdevice => hdevice.dropSink hclosing
  · rw [hp]
    exact fun e he => he
  · rw [hp]
    exact List.mem_cons_self
  · rw [hp]
    exact fun e he => he
  · rw [hp]
    exact .same rfl rfl rfl

theorem shutdownEnter_sound (h : Sound st) (hp : (st.own t).place = .shutdownEnter)
    (hstep : step options t st.shared answer .shutdownEnter = some (s', place')) :
    Sound (st.set t s' ⟨place'⟩) := by
  simp only [step] at hstep
  split at hstep
  · split at hstep
    · cases hstep
      exact step_go h hp rfl rfl ⟨rfl, rfl, rfl⟩ (fun _ => .inl) nofun nofun
    · cases hstep
  · cases hstep
    refine step_go h hp rfl rfl ⟨rfl, rfl, rfl⟩ nofun ?_ nofun
    intro e he
    obtain ⟨entry, hentry, rfl⟩ := List.mem_map.1 he
    exact .inr (h.table entry hentry)

theorem shutdownNext_sound (h : Sound st) {rest : List δ}
    (hp : (st.own t).place = .shutdownNext rest)
    (hstep : step options t st.shared answer (.shutdownNext rest) = some (s', place')) :
    Sound (st.set t s' ⟨place'⟩) := by
  cases rest with
  | nil =>
    cases hstep
    exact step_go h hp rfl rfl ⟨rfl, rfl, rfl⟩ (fun _ => .inl) nofun nofun
  | cons d rest =>
    cases hstep
    exact step_go h hp rfl rfl ⟨rfl, rfl, rfl⟩ (fun _ => .inl) (fun e he => .inl he) nofun

theorem shutdownDrain_sound (h : Sound st) (hp : (st.own t).place = .shutdownDrain)
    (hstep : step options t st.shared answer .shutdownDrain = some (s', place')) :
    Sound (st.set t s' ⟨place'⟩) := by
  simp only [step] at hstep
  split at hstep
  · cases hstep
    exact step_go h hp rfl rfl ⟨rfl, rfl, rfl⟩ (fun _ => .inl) nofun nofun
  · cases hstep

theorem step_sound (h : Sound st)
    (hstep : step options t st.shared answer (st.own t).place = some (s', place')) :
    Sound (st.set t s' ⟨place'⟩) := by
  cases hp : (st.own t).place <;> rw [hp] at hstep
  case returned => cases hstep
  case apiLeave | initCancel | shutdownDone =>
    cases hstep
    exact step_go h hp rfl rfl ⟨rfl, rfl, rfl⟩ (fun _ => .inl) nofun nofun
  case initEnter => exact initEnter_sound h hp hstep
  case initReserve => exact initReserve_sound h hp hstep
  case initSink => exact initSink_sound h hp hstep
  case initPublish => exact initPublish_sound h hp hstep
  case writeEnter => exact writeEnter_sound h hp hstep
  case writeLookup => exact writeLookup_sound h hp hstep
  case writeOperation => exact writeOperation_sound h hp hstep
  case writeCheck => exact writeCheck_sound h hp hstep
  case writeWait => exact writeWait_sound h hp hstep
  case writeCommit => exact writeCommit_sound h hp hstep
  case writeEnqueue => exact writeEnqueue_sound h hp hstep
  case writeSubmitted =>
    cases hstep
    exact writeSubmitted_sound h hp
  case writeRollback => exact writeRollback_sound h hp hstep
  case writeLeave =>
    cases hstep
    exact writeLeave_sound h hp
  case closeEnter => exact closeEnter_sound h hp hstep
  case closeTake => exact closeTake_sound h hp hstep
  case closeMark =>
    cases hstep
    exact closeMark_sound h hp
  case closeOperation => exact closeOperation_sound h hp hstep
  case closeSink => exact closeSink_sound h hp hstep
  case closeRead => exact closeRead_sound h hp hstep
  case closeLeave =>
    cases hstep
    exact closeLeave_sound h hp
  case shutdownEnter => exact shutdownEnter_sound h hp hstep
  case shutdownNext => exact shutdownNext_sound h hp hstep
  case shutdownDrain => exact shutdownDrain_sound h hp hstep

theorem act_sound {th' : Thread δ ι} (h : Sound st)
    (hact : act options t st.shared (st.own t) a = some (s', th')) : Sound (st.set t s' th') := by
  cases a with
  | call c =>
    unfold act at hact
    cases hp : (st.own t).place with
    | returned status =>
      simp only [hp] at hact
      cases hact
      cases c <;> exact step_go h hp rfl rfl ⟨rfl, rfl, rfl⟩ (fun _ => .inl) nofun nofun
    | _ =>
      simp only [hp] at hact
      cases hact
  | step answer =>
    obtain ⟨⟨s₁, place₁⟩, hstep, heq⟩ := Option.map_eq_some_iff.1 hact
    cases heq
    exact step_sound h hstep
  | release d slot =>
    obtain ⟨s₁, hstep, heq⟩ := Option.map_eq_some_iff.1 hact
    cases heq
    exact release_sound h hstep

theorem reachable_sound (h : (system options τ δ ι).Reachable st) : Sound st := by
  refine h.invariant (I := Sound) ?_ ?_
  · rintro _ rfl
    exact initial_sound
  · rintro st ⟨t, a⟩ _ ⟨s', th', hact, rfl⟩ hs
    exact act_sound hs hact

/-- Once `closing` is set, only a write that was on its way to the sink comes there. -/
theorem enqueuing_of_closing {as : List (τ × Act δ ι)} {st' : State τ δ ι} (h : Sound st)
    (hc : (st.shared.devices d).closing = true) (hrun : (system options τ δ ι).Run st as st') :
    ∀ t size slot, (st'.own t).place = .writeEnqueue d size slot →
      (st.own t).place = .writeEnqueue d size slot := by
  refine (hrun.invariant (I := fun st' => Sound st' ∧ (st'.shared.devices d).closing = true ∧
    ∀ t size slot, (st'.own t).place = .writeEnqueue d size slot →
      (st.own t).place = .writeEnqueue d size slot) ?_ ⟨h, hc, fun _ _ _ => id⟩).2.2
  rintro st₁ ⟨t, a⟩ _ ⟨s', th', hact, rfl⟩ ⟨hs, hc, hold⟩
  obtain ⟨hclosing, hown⟩ := act_closing hs hc hact
  refine ⟨act_sound hs hact, hclosing, fun u size slot hp => hold u size slot ?_⟩
  by_cases hu : u = t
  · subst hu
    rw [System.set_own_self] at hp
    exact hown size slot hp
  · rwa [System.set_own_of_ne hu] at hp

/-- In every run: the pending counter is the number of pending slots; at most one slot of a device
is reserved; a write that found capacity finds a slot; while no write is pending and not counted,
what was submitted is what was consumed, discarded or is pending; no write reaches a sink whose
`Shutdown` has begun; at most one reaches it once `closing` is set, and that one had committed its
slot before. -/
theorem pool_sound (h : (system options τ δ ι).Reachable st) :
    (∀ d, (st.shared.devices d).pendingBuffers =
      (st.shared.devices d).slots.countP BufferSlot.isPending) ∧
    (∀ d (i j : Nat) (si sj : BufferSlot), (st.shared.devices d).slots[i]? = some si →
      si.state = .kReserved →
      (st.shared.devices d).slots[j]? = some sj → sj.state = .kReserved → i = j) ∧
    (∀ t d size, (st.own t).place = .writeCheck d size ∨ (st.own t).place = .writeWait d size →
      (st.shared.devices d).pendingBuffers < (st.shared.devices d).geometry.slotCount →
        (st.shared.devices d).findFreeSlot ≠ none) ∧
    ((∀ t, (st.own t).place.inFlight = none) →
      st.shared.counters.submittedBuffers = st.shared.counters.consumedBuffers +
        st.shared.counters.discardedBuffers + st.shared.counters.pendingBuffers ∧
      st.shared.counters.submittedBytes = st.shared.counters.consumedBytes +
        st.shared.counters.discardedBytes + st.shared.counters.pendingBytes) ∧
    (∀ t d size slot, (st.own t).place = .writeEnqueue d size slot →
      (st.shared.devices d).sinkShutDown = false ∧ (st.shared.devices d).hasSink = true) ∧
    (∀ d, (st.shared.devices d).lateWrites ≤ 1) ∧
    ∀ d as st', (st.shared.devices d).closing = true → (system options τ δ ι).Run st as st' →
      ∀ t size slot, (st'.own t).place = .writeEnqueue d size slot →
        (st.own t).place = .writeEnqueue d size slot := by
  have hs := reachable_sound h
  refine ⟨fun d => (hs.device d).buffers, ?_, ?_, ?_, ?_, fun d => (hs.device d).late,
    fun _ _ _ hc hrun => enqueuing_of_closing hs hc hrun⟩
  · intro d i j si sj hi hsi hj hsj
    obtain ⟨n, hn⟩ := (hs.device d).reserved i si hi hsi
    obtain ⟨m, hm⟩ := (hs.device d).reserved j sj hj hsj
    cases hn.symm.trans hm
    rfl
  · intro t d size hp hroom
    have hidle : DeviceSound none (st.shared.devices d) := by
      rcases hp with hp | hp <;> exact hs.idle (t := t) (by rw [hp]; rfl) (by rw [hp]; rfl)
    obtain ⟨slot, value, hfind, -⟩ := hidle.findFreeSlot hroom
    rw [hfind]
    nofun
  · intro hnone
    have hbuffers := hs.buffers
    have hbytes := hs.bytes
    simp only [hnone, Option.map_none, Option.getD_none, Finset.sum_const_zero, Nat.add_zero]
      at hbuffers hbytes
    exact ⟨hbuffers, hbytes⟩
  · intro t d size slot hp
    have hdevice := hs.device d
    rw [hs.phaseOf_self (t := t) (by rw [hp]; rfl), hp] at hdevice
    obtain ⟨-, -, hshut, hsink, -⟩ := hdevice.knows _ rfl
    exact ⟨hshut, hsink⟩

def writer : Fin 2 := ⟨0, Nat.zero_lt_two⟩

def closer : Fin 2 := ⟨1, Nat.one_lt_two⟩

/-- One thread opens a device and writes; another closes it while the write is between its commit
and the sink. -/
def closeDuringWrite : List (Fin 2 × Act Unit Unit) :=
  let go (t : Fin 2) : Fin 2 × Act Unit Unit := (t, .step {})
  [(writer, .call (.init (some ()) ⟨2, 48000, 4, 4⟩ ())), go writer,
    go writer, go writer, go writer,
    go writer, (writer, .call (.write (some ()) true 16)), go writer,
    go writer, go writer, go writer,
    go writer, (closer, .call (.close (some ()))), go closer, go closer, go closer, go writer]

/-- What holds at the end of that run. -/
theorem pool_sound_closing : ∃ st : State (Fin 2) Unit Unit,
    (system {} (Fin 2) Unit Unit).Reachable st ∧ (st.shared.devices ()).closing = true ∧
      (st.shared.devices ()).pendingBuffers = 1 ∧
      (st.shared.devices ()).slots.countP BufferSlot.isPending = 1 ∧
      (st.shared.devices ()).lateWrites ≤ 1 := by
  have hrun : ∃ st, closeDuringWrite.foldlM (next (act {}))
      ⟨{ devices := fun _ => {} }, fun _ => {}⟩ =
      some st ∧ (st.shared.devices ()).closing = true ∧ (st.shared.devices ()).pendingBuffers = 1 :=
    ⟨_, rfl, rfl, rfl⟩
  obtain ⟨st, hst, hclosing, hpending⟩ := hrun
  have hreach := reachable_of_foldlM hst
  obtain ⟨hbuffers, -, -, -, -, hlate, -⟩ := pool_sound hreach
  exact ⟨st, hreach, hclosing, hpending, (hbuffers ()).symm.trans hpending, hlate ()⟩

/-- The write has reached the sink though `Close` had begun. -/
theorem write_after_close : ∃ st : State (Fin 2) Unit Unit,
    (system {} (Fin 2) Unit Unit).Reachable st ∧ (st.shared.devices ()).lateWrites = 1 := by
  have hrun : ∃ st, closeDuringWrite.foldlM (next (act {}))
      ⟨{ devices := fun _ => {} }, fun _ => {}⟩ =
      some st ∧ (st.shared.devices ()).lateWrites = 1 := ⟨_, rfl, rfl⟩
  obtain ⟨st, hst, hlate⟩ := hrun
  exact ⟨st, reachable_of_foldlM hst, hlate⟩

end Nightcap.Audio.FmodJava
