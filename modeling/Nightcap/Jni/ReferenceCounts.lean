import Nightcap.Jni.ReferenceSlots

/-! The reference counts of the handle table: each is the number of the handle's owners. -/
namespace Nightcap.Jni.References

open Transition Holdings

variable {s s' u : JniState} {order : MapOrder} {t : Thread} {obj value c : Handle} {i index : Nat}
  {objs rest children : List Handle} {op : Op}

/-- The registrations in all frames of all threads. -/
def locals (s : JniState) : Multiset Handle :=
  held (fun frames => (frames.flatMap LocalFrame.handles : List Handle)) s.local_frames

def owners (s : JniState) : Multiset Handle :=
  locals s + (s.globals : List Handle) + stored s + fieldValues s.static_object_fields

/-- The references that the calls in progress have taken out of their frames. -/
def inFlight (s : JniState) : Multiset Handle :=
  held (fun tasks => (tasks.map Task.handle : List Handle)) s.pending

/-- A handle that is neither null nor kept forever. -/
def Ordinary (s : JniState) (obj : Handle) : Prop := obj ≠ 0 ∧ obj ∉ s.known_classes ∧
    obj ∉ s.singleton_handles

def IsStored (s : JniState) (obj : Handle) : Prop := obj ∈ s.object_storage ∨ obj ∈ s.array_storage

/-- No frame keeps a count of 0. -/
def Filled (s : JniState) (frames : List LocalFrame) : Prop :=
  ∀ frame ∈ frames, ∀ obj, Ordinary s obj → frame.lookup obj ≠ some 0

/-- Every count is the number of the owners, those yet to be released included. -/
structure Counted (s : JniState) (objs : List Handle) : Prop where
  counts : ∀ obj, Ordinary s obj → ((s.jni_ref_counts obj).getD 0).toNat =
    (owners s).count obj + (inFlight s).count obj + objs.count obj
  stored : ∀ obj, Ordinary s obj → (IsStored s obj ↔ s.jni_ref_counts obj ≠ none)
  positive : ∀ obj, Ordinary s obj → s.jni_ref_counts obj ≠ some 0
  arrays : ∀ obj ∈ s.array_storage, isSegmentHandle obj = false
  filled : ∀ t, Filled s (s.frames t)

theorem toNat_sub_one {n : UInt32} (h : n ≠ 0) : (n - 1).toNat + 1 = n.toNat := by
  have hone : 1 ≤ n.toNat := Nat.pos_of_ne_zero fun hzero => h (UInt32.toNat_inj.1 hzero)
  rw [UInt32.toNat_sub_of_le n 1 (UInt32.le_iff_toNat_le.2 hone)]
  exact Nat.sub_add_cancel hone

theorem isSegmentHandle_handle (hpos : 0 < i) (h : i < kJniSegmentCapacity) :
    isSegmentHandle (jniHandleFromIndex i) = true := by
  have hand : jniHandleFromIndex i &&& 0xffff = 0 := by
    rw [handleFromIndex_eq, show (0xffff : Nat) = 2 ^ 16 - 1 from rfl,
      Nat.and_two_pow_sub_one_eq_mod]
    exact Nat.mul_mod_left i 65536
  have hne : jniHandleFromIndex i ≠ 0 := by
    rw [handleFromIndex_eq]
    exact Nat.mul_ne_zero (Nat.ne_of_gt hpos) (by decide)
  have hshift : jniHandleFromIndex i >>> kJniHandleShift = i := by
    rw [jniHandleFromIndex, Nat.shiftLeft_shiftRight]
  rw [isSegmentHandle, hand, hshift]
  simp [hne, h]

theorem Slots.segment (hs : Slots s) (h : Occupied s obj) : isSegmentHandle obj = true := by
  obtain ⟨i, rfl, hpos, hlt, -⟩ := h
  exact isSegmentHandle_handle hpos (Nat.lt_of_lt_of_le hlt hs.index_le)

/-- Freeing a slot touches nothing but the slots. -/
theorem freeSegmentSlot_frame (s : JniState) (obj : Handle) :
    ∃ my_segment segment_types free_slots results,
      freeSegmentSlot s obj = { s with my_segment, segment_types, free_slots, results } := by
  rw [freeSegmentSlot]
  split
  · exact ⟨_, _, _, _, rfl⟩
  · exact ⟨_, _, _, _, rfl⟩

theorem counted_initial : Counted {} [] where
  counts _ _ := rfl
  stored _ _ :=
    ⟨fun h => h.elim (absurd · (AList.notMem_empty _)) (absurd · (AList.notMem_empty _)), fun h =>
      absurd rfl h⟩
  positive _ _ := nofun
  arrays _ h := absurd h (AList.notMem_empty _)
  filled _ := nofun

namespace Counted

/-- References change hands. -/
theorem move (hc : Counted s objs) (hcounts : s'.jni_ref_counts = s.jni_ref_counts)
    (hordinary : ∀ obj, Ordinary s' obj → Ordinary s obj)
    (hstored : ∀ obj, IsStored s' obj ↔ IsStored s obj)
    (harrays : ∀ obj, obj ∈ s'.array_storage → obj ∈ s.array_storage)
    (hfilled : ∀ t, Filled s (s'.frames t))
    (h : ∀ obj, Ordinary s' obj →
      (owners s').count obj + (inFlight s').count obj + children.count obj =
      (owners s).count obj + (inFlight s).count obj + objs.count obj) : Counted s' children where
  counts obj hobj := by rw [hcounts, h obj hobj, hc.counts obj (hordinary obj hobj)]
  stored obj hobj := by rw [hstored, hcounts, hc.stored obj (hordinary obj hobj)]
  positive obj hobj hn := hc.positive obj (hordinary obj hobj) (hcounts ▸ hn)
  arrays obj hobj := hc.arrays obj (harrays obj hobj)
  filled t frame hframe obj hobj := hfilled t frame hframe obj (hordinary obj hobj)

theorem isSome_of_stored (hc : Counted s objs) (hobj : Ordinary s obj) (h : IsStored s obj) :
    ∃ n, s.jni_ref_counts obj = some n :=
  Option.ne_none_iff_exists'.1 ((hc.stored obj hobj).1 h)

/-- A handle nothing is stored under has no owner. -/
theorem unowned (hc : Counted s objs) (hobj : Ordinary s obj) (h : ¬IsStored s obj) :
    s.jni_ref_counts obj = none ∧ (owners s).count obj = 0 ∧ (inFlight s).count obj = 0 ∧
      objs.count obj = 0 := by
  have hnone : s.jni_ref_counts obj = none := by
    by_contra hne
    exact h ((hc.stored obj hobj).2 hne)
  have hcount := hc.counts obj hobj
  rw [hnone, Option.getD_none, UInt32.toNat_zero] at hcount
  exact ⟨hnone, by omega, by omega, by omega⟩

/-- One handle's count is set anew. -/
theorem recount (hc : Counted s objs) {n : UInt32} (hpos : Ordinary s obj → n ≠ 0)
    (hstored : Ordinary s obj → IsStored s obj)
    (h : Ordinary s obj →
      n.toNat = (owners s).count obj + (inFlight s).count obj + children.count obj)
    (hother : ∀ other, other ≠ obj → children.count other = objs.count other) :
    Counted { s with jni_ref_counts :=
      Function.update s.jni_ref_counts obj (some n) } children where
  counts other ho := by
    change ((Function.update s.jni_ref_counts obj (some n) other).getD 0).toNat =
      (owners s).count other + (inFlight s).count other + children.count other
    by_cases heq : other = obj
    · subst heq
      rw [Function.update_self, Option.getD_some, h ho]
    · rw [Function.update_of_ne heq, hother other heq, hc.counts other ho]
  stored other ho := by
    change IsStored s other ↔ Function.update s.jni_ref_counts obj (some n) other ≠ none
    by_cases heq : other = obj
    · subst heq
      rw [Function.update_self]
      exact ⟨nofun, fun _ => hstored ho⟩
    · rw [Function.update_of_ne heq, hc.stored other ho]
  positive other ho hzero := by
    change Function.update s.jni_ref_counts obj (some n) other = some 0 at hzero
    by_cases heq : other = obj
    · subst heq
      rw [Function.update_self, Option.some.injEq] at hzero
      exact hpos ho hzero
    · rw [Function.update_of_ne heq] at hzero
      exact hc.positive other ho hzero
  arrays := hc.arrays
  filled := hc.filled

/-- The last reference to a handle is the one that is released. -/
theorem last (hc : Counted s (obj :: rest)) {n : UInt32} (hobj : Ordinary s obj)
    (hn : s.jni_ref_counts obj = some n) (hlast : n ≤ 1) :
    (owners s).count obj = 0 ∧ (inFlight s).count obj = 0 ∧ rest.count obj = 0 := by
  have hcount := hc.counts obj hobj
  have hone : n.toNat ≤ 1 := UInt32.le_iff_toNat_le.1 hlast
  rw [hn, Option.getD_some, List.count_cons_self] at hcount
  exact ⟨by omega, by omega, by omega⟩

/-- A handle dies, and what it refers to is to be released. -/
theorem dies (hc : Counted s (obj :: rest)) {n : UInt32} (hn : s.jni_ref_counts obj = some n)
    (hlast : n ≤ 1)
    (hcounts : s'.jni_ref_counts = Function.update s.jni_ref_counts obj none)
    (hordinary : ∀ other, Ordinary s' other ↔ Ordinary s other)
    (hgone : Ordinary s obj → ¬IsStored s' obj)
    (hstored : ∀ other, other ≠ obj → (IsStored s' other ↔ IsStored s other))
    (harrays : ∀ other, other ∈ s'.array_storage → other ∈ s.array_storage)
    (hframes : s'.local_frames = s.local_frames)
    (h : ∀ other, (owners s').count other + (inFlight s').count other + children.count other =
      (owners s).count other + (inFlight s).count other) : Counted s' (children ++ rest) where
  counts other hother := by
    have hother := (hordinary other).1 hother
    have hmoved := h other
    rw [hcounts, List.count_append]
    by_cases heq : other = obj
    · subst heq
      obtain ⟨howners, hflight, hrest⟩ := hc.last hother hn hlast
      rw [Function.update_self, Option.getD_none, UInt32.toNat_zero]
      omega
    · have hcount := hc.counts other hother
      rw [List.count_cons_of_ne (Ne.symm heq)] at hcount
      rw [Function.update_of_ne heq]
      omega
  stored other hother := by
    have hother := (hordinary other).1 hother
    rw [hcounts]
    by_cases heq : other = obj
    · subst heq
      simpa using hgone hother
    · rw [Function.update_of_ne heq, hstored other heq, hc.stored other hother]
  positive other hother hzero := by
    rw [hcounts] at hzero
    by_cases heq : other = obj
    · subst heq
      simp at hzero
    · exact hc.positive other ((hordinary other).1 hother)
        (by rwa [Function.update_of_ne heq] at hzero)
  arrays other hother := hc.arrays other (harrays other hother)
  filled t frame hframe other hother := by
    rw [JniState.frames, hframes] at hframe
    exact hc.filled t frame hframe other ((hordinary other).1 hother)

/-- The slots of objects are no addresses of arrays. -/
theorem apart (hc : Counted s objs) (hs : Slots s) (h : obj ∈ s.array_storage) :
    obj ∉ s.object_storage := by
  intro hobj
  have htrue := hs.segment (hs.objects obj hobj)
  rw [hc.arrays obj h] at htrue
  cases htrue

theorem released (hc : Counted s (obj :: rest)) (hs : Slots s)
    (h : Released s order obj s' children) :
    Counted s' (children ++ rest) := by
  cases h with
  | idle h =>
    refine { hc with counts := fun other hother => ?_ }
    have hcount := hc.counts other hother
    rw [List.nil_append]
    by_cases heq : other = obj
    · subst heq
      obtain h0 | hn := h
      · exact absurd h0 hother.1
      · rw [hn, Option.getD_none, UInt32.toNat_zero, List.count_cons_self] at hcount
        omega
    · rwa [List.count_cons_of_ne (Ne.symm heq)] at hcount
  | counted n hobj hn hmany =>
    have hless : (n - 1).toNat + 1 = n.toNat := toNat_sub_one fun hzero => by
      rw [hzero] at hmany
      cases hmany
    refine hc.recount (fun _ hzero => ?_) (fun hobj => (hc.stored obj hobj).2 (by rw [hn]; nofun))
      (fun hobj => ?_) ?_
    · have hmany : 1 < n.toNat := UInt32.lt_iff_toNat_lt.1 hmany
      rw [hzero, UInt32.toNat_zero] at hless
      omega
    · have hcount := hc.counts obj hobj
      rw [hn, Option.getD_some, List.count_cons_self] at hcount
      rw [List.nil_append]
      omega
    · intro other hne
      rw [List.nil_append, List.count_cons_of_ne (Ne.symm hne)]
  | array n elements hobj hn hlast h =>
    have hmem : obj ∈ s.array_storage := AList.lookup_isSome.1 (by rw [h]; rfl)
    refine hc.dies hn hlast rfl (fun _ => .rfl) (fun _ hstored => ?_) (fun other hne => ?_)
      (fun other ho => (AList.mem_erase.1 ho).2) rfl fun other => ?_
    · obtain ho | ha := hstored
      · exact hc.apart hs hmem ho
      · exact (AList.mem_erase.1 ha).1 rfl
    · exact or_congr .rfl (AList.mem_erase.trans (and_iff_right hne))
    · have hheld :=
        count_held_erase (f := Multiset.ofList) (m := s.array_storage) (a := obj) (c := other)
      rw [part, h, Option.elim_some, Multiset.coe_count] at hheld
      simp only [owners, locals, References.stored, inFlight, uncount, Multiset.count_add]
      omega
  | kept n hobj hn hlast harray h =>
    have hnot : ¬Ordinary s obj := fun ho => h.elim ho.2.1 ho.2.2
    exact hc.dies hn hlast rfl (fun _ => .rfl) (absurd · hnot) (fun _ _ => .rfl)
      (fun _ => id) rfl fun _ => rfl
  | object n object hobj hn hlast harray hclass hsingle h =>
    have hfree := freeSegmentSlot_frame (uncount s obj) obj
    generalize freeSegmentSlot (uncount s obj) obj = u at hfree
    obtain ⟨my_segment, segment_types, free_slots, results, rfl⟩ := hfree
    refine hc.dies hn hlast rfl (fun _ => .rfl) (fun _ hstored => ?_) (fun other hne => ?_)
      (fun _ => id) rfl fun other => ?_
    · obtain ho | ha := hstored
      · exact (AList.mem_erase.1 ho).1 rfl
      · exact AList.lookup_eq_none.1 harray ha
    · exact or_congr (AList.mem_erase.trans (and_iff_right hne)) .rfl
    · have hheld :=
        count_held_erase (f := fieldValues) (m := s.object_storage) (a := obj) (c := other)
      have hperm := (order.fields_perm obj object).count_eq other
      rw [part, h, Option.elim_some, fieldValues, Multiset.coe_count] at hheld
      simp only [owners, locals, References.stored, inFlight, uncount, Multiset.count_add]
      omega
  | vacant n hobj hn hlast harray hclass hsingle h =>
    obtain ho | ha := (hc.stored obj ⟨hobj, hclass, hsingle⟩).2 (by rw [hn]; nofun)
    · exact absurd ho (AList.lookup_eq_none.1 h)
    · exact absurd ha (AList.lookup_eq_none.1 harray)

theorem releaseAll (hc : Counted s objs) (hs : Slots s) : Counted (releaseAll s order objs) [] := by
  have hboth : Slots (References.releaseAll s order objs) ∧
      Counted (References.releaseAll s order objs) [] :=
    releaseAll_induct (P := fun s objs => Slots s ∧ Counted s objs)
      (fun _ _ _ _ _ ⟨hs, hc⟩ h => ⟨hs.released h, hc.released hs h⟩) ⟨hs, hc⟩
  exact hboth.2

end Counted

/-- What may be retained: something stored, or something that is kept forever. -/
def Live (s : JniState) (obj : Handle) : Prop :=
  obj = 0 ∨ obj ∈ s.known_classes ∨ obj ∈ s.singleton_handles ∨ IsStored s obj

theorem Live.isStored (h : Live s obj) (hobj : Ordinary s obj) : IsStored s obj := by
  obtain h0 | hc | hsing | hstored := h
  · exact absurd h0 hobj.1
  · exact absurd hc hobj.2.1
  · exact absurd hsing hobj.2.2
  · exact hstored

theorem Live.retain (h : Live s obj) (other : Handle) : Live (retainJniReference s other) obj := by
  unfold retainJniReference
  split <;> exact h

theorem count_setFrames (frames : List LocalFrame) :
    (locals (s.setFrames t frames)).count c + ((s.frames t).flatMap LocalFrame.handles).count c =
      (frames.flatMap LocalFrame.handles).count c + (locals s).count c := by
  have h := count_held_insert (f := fun frames : List LocalFrame =>
    (frames.flatMap LocalFrame.handles : Multiset Handle)) (m := s.local_frames)
    (a := t) (b := frames) (c := c)
  have hpart : part (fun frames : List LocalFrame =>
      (frames.flatMap LocalFrame.handles : Multiset Handle))
      s.local_frames t = (s.frames t).flatMap LocalFrame.handles := by
    rw [part, JniState.frames]
    cases s.local_frames.lookup t <;> rfl
  rwa [hpart, Multiset.coe_count, Multiset.coe_count] at h

theorem count_setTasks (tasks : List Task) :
    (inFlight (s.setTasks t tasks)).count c + ((s.tasks t).map Task.handle).count c =
      (tasks.map Task.handle).count c + (inFlight s).count c := by
  have h :=
    count_held_insert (f := fun tasks : List Task => (tasks.map Task.handle : Multiset Handle))
    (m := s.pending) (a := t) (b := tasks) (c := c)
  have hpart : part (fun tasks : List Task =>
      (tasks.map Task.handle : Multiset Handle)) s.pending t =
      (s.tasks t).map Task.handle := by
    rw [part, JniState.tasks]
    cases s.pending.lookup t <;> rfl
  rwa [hpart, Multiset.coe_count, Multiset.coe_count] at h

/-- A frame holds as many references to a handle as it counts. -/
theorem LocalFrame.count_handles (frame : LocalFrame) (c : Handle) :
    frame.handles.count c = ((frame.lookup c).getD 0).toNat := by
  obtain ⟨entries, hnodup⟩ := frame
  change (entries.flatMap fun entry => List.replicate entry.2.toNat entry.1).count c =
    ((entries.dlookup c).getD 0).toNat
  induction entries with
  | nil => rfl
  | cons entry entries ih =>
    obtain ⟨obj, count⟩ := entry
    rw [List.nodupKeys_cons] at hnodup
    rw [List.flatMap_cons, List.count_append, ih hnodup.2]
    by_cases heq : obj = c
    · subst heq
      rw [List.count_replicate_self, List.dlookup_cons_eq, List.dlookup_eq_none.2 hnodup.1]
      rfl
    · rw [List.count_replicate, if_neg (by simpa using heq), List.dlookup_cons_ne _ _ (Ne.symm heq),
        Nat.zero_add]

theorem LocalFrame.count_register {frame : LocalFrame}
    (h : c = obj → frame.handles.count obj + 1 < 2 ^ 32) :
    (frame.register obj).handles.count c = (obj :: frame.handles).count c := by
  rw [LocalFrame.count_handles, LocalFrame.register, List.count_cons, LocalFrame.count_handles]
  by_cases heq : c = obj
  · subst heq
    have hroom := h rfl
    rw [LocalFrame.count_handles] at hroom
    rw [AList.lookup_insert, Option.getD_some, UInt32.toNat_add,
      UInt32.toNat_one, Nat.mod_eq_of_lt hroom,
      beq_self_eq_true, if_pos rfl]
  · rw [AList.lookup_insert_ne heq, if_neg (by simpa using Ne.symm heq), Nat.add_zero]

theorem count_registerIn {frames : List LocalFrame}
    (h : c = obj → (frames.flatMap LocalFrame.handles).count obj + 1 < 2 ^ 32) :
    ((registerIn obj frames).flatMap LocalFrame.handles).count c =
      (obj :: frames.flatMap LocalFrame.handles).count c := by
  cases frames with
  | nil =>
    rw [registerIn, List.flatMap_singleton, LocalFrame.count_register h, List.flatMap_nil]; rfl
  | cons frame frames =>
    rw [registerIn, List.flatMap_cons, List.flatMap_cons, ← List.cons_append,
      List.count_append, List.count_append,
      LocalFrame.count_register fun heq => ?_]
    have hroom := h heq
    rw [List.flatMap_cons, List.count_append] at hroom
    omega

theorem flatMap_ensureLocalFrame (frames : List LocalFrame) :
    (ensureLocalFrame frames).flatMap LocalFrame.handles = frames.flatMap LocalFrame.handles := by
  cases frames <;> rfl

theorem fieldValues_eq_held (object : Fields) :
    fieldValues object = held (fun value => {value}) object := by
  rw [fieldValues, held]
  induction object.entries with
  | nil => rfl
  | cons entry entries ih =>
    rw [List.map_cons, List.map_cons, List.sum_cons, ← ih,
      Multiset.singleton_add, Multiset.cons_coe]

/-- A field's new value takes the place of its old one. -/
theorem count_fieldValues_insert (object : Fields) (name : Utf8.Bytes)
    (value : Handle) (hne : c ≠ 0) :
    (fieldValues (object.insert name value)).count c + [(object.lookup name).getD 0].count c =
      [value].count c + (fieldValues object).count c := by
  have h :=
    count_held_insert (f := fun value : Handle => ({value} : Multiset Handle))
      (m := object) (a := name)
    (b := value) (c := c)
  rw [← fieldValues_eq_held, ← fieldValues_eq_held] at h
  have hone : ∀ value : Handle, Multiset.count c {value} = [value].count c := fun value => by
    rw [← Multiset.coe_singleton, Multiset.coe_count]
  have hpart : (part (fun value : Handle => ({value} : Multiset Handle)) object name).count c =
      [(object.lookup name).getD 0].count c := by
    rw [part]
    cases object.lookup name with
    | none =>
      rw [Option.elim_none, Option.getD_none, List.count_cons_of_ne (Ne.symm hne),
        Multiset.count_zero, List.count_nil]
    | some previous => exact hone previous
  rwa [hpart, hone] at h

theorem count_unregisterIn_ne {frames : List LocalFrame} (h : c ≠ obj) :
    ((unregisterIn obj frames).flatMap LocalFrame.handles).count c =
      (frames.flatMap LocalFrame.handles).count c := by
  induction frames with
  | nil => rfl
  | cons frame frames ih =>
    rw [unregisterIn]
    split
    · next count hcount =>
      rw [List.flatMap_cons, List.flatMap_cons, List.count_append, List.count_append,
        LocalFrame.count_handles,
        LocalFrame.count_handles]
      split
      · rw [AList.lookup_erase_ne h]
      · rw [AList.lookup_insert_ne h]
    · rw [List.flatMap_cons, List.flatMap_cons, List.count_append, List.count_append, ih]

theorem count_unregisterIn_self {frames : List LocalFrame}
    (hfilled : ∀ frame ∈ frames, frame.lookup obj ≠ some 0)
    (h : ∃ frame ∈ frames, obj ∈ frame) :
    ((unregisterIn obj frames).flatMap LocalFrame.handles).count obj + 1 =
      (frames.flatMap LocalFrame.handles).count obj := by
  induction frames with
  | nil =>
    obtain ⟨frame, hframe, -⟩ := h
    cases hframe
  | cons frame frames ih =>
    rw [unregisterIn]
    split
    · next count hcount =>
      have hpos : count ≠ 0 := fun hzero => hfilled frame List.mem_cons_self (hzero ▸ hcount)
      have hless := toNat_sub_one hpos
      rw [List.flatMap_cons, List.flatMap_cons, List.count_append, List.count_append,
        LocalFrame.count_handles,
        LocalFrame.count_handles, hcount, Option.getD_some, ← hless]
      split
      · next hlast =>
        rw [AList.lookup_erase, Option.getD_none, hlast]
        omega
      · rw [AList.lookup_insert, Option.getD_some]
        omega
    · next hnone =>
      obtain ⟨other, hother, hin⟩ := h
      obtain rfl | hother := List.mem_cons.1 hother
      · exact absurd hin (AList.lookup_eq_none.1 hnone)
      · rw [List.flatMap_cons, List.flatMap_cons, List.count_append, List.count_append, add_assoc,
          ih (fun frame hframe => hfilled frame (List.mem_cons_of_mem _ hframe))
            ⟨other, hother, hin⟩]

theorem frames_setFrames {u : Thread} (frames : List LocalFrame) :
    (s.setFrames t frames).frames u = if u = t then frames else s.frames u := by
  rw [JniState.frames, JniState.setFrames]
  split
  · next heq => rw [heq, AList.lookup_insert, Option.getD_some]
  · next heq => rw [AList.lookup_insert_ne heq, JniState.frames]

theorem filled_setFrames {frames : List LocalFrame} (hs : ∀ u, Filled s (s.frames u))
    (h : Filled s frames) (u : Thread) :
    Filled s ((s.setFrames t frames).frames u) := by
  rw [frames_setFrames]
  split
  · exact h
  · exact hs u

theorem Filled.ensure {frames : List LocalFrame} (h : Filled s frames) :
    Filled s (ensureLocalFrame frames) := by
  cases frames with
  | nil =>
    intro frame hframe obj _
    rw [List.mem_singleton.1 hframe, AList.lookup_empty]
    nofun
  | cons frame frames => exact h

theorem Filled.register {frames : List LocalFrame} (h : Filled s frames)
    (hroom : Ordinary s obj → (frames.flatMap LocalFrame.handles).count obj + 1 < 2 ^ 32) :
    Filled s (registerIn obj frames) := by
  have hone : ∀ frame : LocalFrame, (Ordinary s obj → frame.handles.count obj + 1 < 2 ^ 32) →
      (∀ c, Ordinary s c → frame.lookup c ≠ some 0) → ∀ c, Ordinary s c →
      (frame.register obj).lookup c ≠ some 0 := by
    intro frame hframe hfilled c hc
    by_cases heq : c = obj
    · subst heq
      have hcount := @LocalFrame.count_register c c frame fun _ => hframe hc
      intro hzero
      rw [LocalFrame.count_handles, hzero, List.count_cons_self] at hcount
      cases hcount
    · rw [LocalFrame.register, AList.lookup_insert_ne heq]
      exact hfilled c hc
  cases frames with
  | nil =>
    intro frame hframe
    rw [List.mem_singleton.1 hframe]
    refine hone ∅ hroom fun c _ => ?_
    rw [AList.lookup_empty]
    nofun
  | cons first frames =>
    intro frame hframe
    obtain rfl | hframe := List.mem_cons.1 hframe
    · refine hone first (fun hobj => ?_) (h first List.mem_cons_self)
      have hcount := hroom hobj
      rw [List.flatMap_cons, List.count_append] at hcount
      omega
    · exact h frame (List.mem_cons_of_mem _ hframe)

theorem Filled.unregister {frames : List LocalFrame} (h : Filled s frames) :
    Filled s (unregisterIn obj frames) := by
  induction frames with
  | nil => exact h
  | cons first frames ih =>
    have hrest : Filled s frames := fun frame hframe => h frame (List.mem_cons_of_mem _ hframe)
    rw [unregisterIn]
    split
    · next count hcount =>
      intro frame hframe c hc
      obtain rfl | hframe := List.mem_cons.1 hframe
      · have hfirst := h first List.mem_cons_self c hc
        split
        · by_cases heq : c = obj
          · rw [heq, AList.lookup_erase]
            nofun
          · rwa [AList.lookup_erase_ne heq]
        · next hmore =>
          by_cases heq : c = obj
          · rw [heq, AList.lookup_insert]
            exact fun hzero => hmore (Option.some.inj hzero)
          · rwa [AList.lookup_insert_ne heq]
      · exact hrest frame hframe c hc
    · intro frame hframe
      obtain rfl | hframe := List.mem_cons.1 hframe
      · exact h frame List.mem_cons_self
      · exact ih hrest frame hframe

theorem retain_frame (s : JniState) (obj : Handle) :
    ∃ jni_ref_counts, retainJniReference s obj = { s with jni_ref_counts } := by
  rw [retainJniReference]
  split
  · exact ⟨_, rfl⟩
  · exact ⟨_, rfl⟩

namespace Counted

/-- Only the frames, the calls in progress and the global references differ. -/
theorem hand (hc : Counted s objs)
    (hs' : s' = { s with
      local_frames := s'.local_frames, pending := s'.pending, globals := s'.globals })
    (hfilled : ∀ t, Filled s (s'.frames t))
    (h : ∀ obj, Ordinary s obj →
      (locals s').count obj + s'.globals.count obj + (inFlight s').count obj + children.count obj =
        (locals s).count obj + s.globals.count obj + (inFlight s).count obj + objs.count obj) :
    Counted s' children := by
  have hordinary : ∀ obj, Ordinary s' obj → Ordinary s obj := by
    rw [hs']
    exact fun _ => id
  have hstored : References.stored s' = References.stored s := by
    rw [hs']
    rfl
  have hstatic : s'.static_object_fields = s.static_object_fields := by rw [hs']
  refine hc.move ?_ hordinary ?_ ?_ hfilled fun obj hobj => ?_
  · rw [hs']
  · rw [hs']
    exact fun _ => .rfl
  · rw [hs']
    exact fun _ => id
  · have hmoved := h obj (hordinary obj hobj)
    simp only [owners, hstored, hstatic, Multiset.count_add, Multiset.coe_count]
    omega

/-- A null reference counts for nothing. -/
theorem null (hc : Counted s objs) (h : ∀ obj, obj ≠ 0 → children.count obj = objs.count obj) :
    Counted s children :=
  hc.hand rfl hc.filled fun obj hobj => by rw [h obj hobj.1]

theorem retain (hc : Counted s objs) (h : Live s obj)
    (hroom : Ordinary s obj → ((s.jni_ref_counts obj).getD 0).toNat + 1 < 2 ^ 32) :
    Counted (retainJniReference s obj) (obj :: objs) := by
  unfold retainJniReference
  split
  · next h0 =>
    exact hc.null fun other hne => by rw [List.count_cons_of_ne (h0 ▸ Ne.symm hne)]
  · have hnext : Ordinary s obj → ((s.jni_ref_counts obj).elim 1 (· + 1)).toNat =
        (owners s).count obj + (inFlight s).count obj + (obj :: objs).count obj := by
      intro hobj
      obtain ⟨n, hn⟩ := hc.isSome_of_stored hobj (h.isStored hobj)
      have hcount := hc.counts obj hobj
      have hfits := hroom hobj
      rw [hn, Option.getD_some] at hcount hfits
      rw [hn, Option.elim_some, List.count_cons_self, UInt32.toNat_add,
        UInt32.toNat_one, Nat.mod_eq_of_lt hfits]
      omega
    refine hc.recount (fun hobj hzero => ?_) h.isStored hnext fun other hne =>
      List.count_cons_of_ne (Ne.symm hne)
    have hcount := hnext hobj
    rw [hzero, UInt32.toNat_zero, List.count_cons_self] at hcount
    omega

theorem register (hc : Counted s (obj :: objs)) : Counted (registerLocalRef s t obj) objs := by
  unfold registerLocalRef
  split
  · next h0 =>
    exact hc.null fun other hne => by rw [List.count_cons_of_ne (h0 ▸ Ne.symm hne)]
  · have hroom : Ordinary s obj →
        ((s.frames t).flatMap LocalFrame.handles).count obj + 1 < 2 ^ 32 := by
      intro hobj
      have hcount := hc.counts obj hobj
      have hlocals := count_setFrames (s := s) (t := t) (c := obj) []
      have hlt := UInt32.toNat_lt ((s.jni_ref_counts obj).getD 0)
      rw [List.count_cons_self, owners, Multiset.count_add, Multiset.count_add,
        Multiset.count_add] at hcount
      rw [List.flatMap_nil, List.count_nil] at hlocals
      omega
    refine hc.hand rfl
      (filled_setFrames hc.filled ((hc.filled t).register hroom)) fun other hother => ?_
    have hframes := count_setFrames (s := s) (t := t) (c := other) (registerIn obj (s.frames t))
    rw [count_registerIn fun heq => hroom (heq ▸ hother)] at hframes
    simp only [List.count_cons, JniState.setFrames] at hframes ⊢
    change _ + _ + (inFlight s).count other + _ = _
    omega

theorem retainTimes (hc : Counted s objs) (h : Live s obj) (n : Nat)
    (hroom : Ordinary s obj →
      (owners s).count obj + (inFlight s).count obj + objs.count obj + n < 2 ^ 32) :
    Counted (retainTimes obj n s) (List.replicate n obj ++ objs) := by
  induction n generalizing s objs with
  | zero => exact hc
  | succ n ih =>
    have hone := hc.retain h fun hobj => by
      rw [hc.counts obj hobj]
      have hfits := hroom hobj
      omega
    have hnext := ih hone (h.retain obj) fun hobj => ?_
    · refine hnext.null fun other _ => ?_
      rw [List.replicate_succ, List.cons_append, List.count_cons, List.count_append,
        List.count_append, List.count_cons]
      omega
    · obtain ⟨jni_ref_counts, hframe⟩ := retain_frame s obj
      rw [hframe] at hobj ⊢
      have hfits := hroom hobj
      change (owners s).count obj + (inFlight s).count obj + _ + n < _
      rw [List.count_cons_self]
      omega

/-- A local reference the caller owns leaves its frame. -/
theorem unregister (hc : Counted s objs) (h : Ordinary s obj → ∃ frame ∈ s.frames t, obj ∈ frame) :
    Counted (unregisterLocalRef s t obj) (obj :: objs) := by
  unfold unregisterLocalRef
  split
  · next h0 => exact hc.null fun other hne => by rw [List.count_cons_of_ne (h0 ▸ Ne.symm hne)]
  · refine hc.hand rfl (filled_setFrames hc.filled (hc.filled t).unregister) fun other hother => ?_
    have hframes := count_setFrames (s := s) (t := t) (c := other) (unregisterIn obj (s.frames t))
    simp only [List.count_cons, JniState.setFrames] at hframes ⊢
    change _ + _ + (inFlight s).count other + _ = _
    by_cases heq : other = obj
    · subst heq
      have hself :=
        count_unregisterIn_self
          (fun frame hframe => hc.filled t frame hframe other hother) (h hother)
      simp only [beq_self_eq_true, if_true]
      omega
    · rw [count_unregisterIn_ne heq] at hframes
      rw [if_neg (by simpa using Ne.symm heq)]
      omega

theorem newGlobal (hc : Counted s (obj :: objs)) :
    Counted { s with globals := if obj = 0 then s.globals else obj :: s.globals } objs := by
  refine hc.hand rfl hc.filled fun other hother => ?_
  change (locals s).count other + _ + (inFlight s).count other + _ = _
  split
  · next h0 => rw [List.count_cons_of_ne (h0 ▸ Ne.symm hother.1)]
  · rw [List.count_cons, List.count_cons]
    omega

theorem deleteGlobal (hc : Counted s objs) (h : Ordinary s obj → obj ∈ s.globals) :
    Counted { s with globals := s.globals.erase obj } (obj :: objs) := by
  refine hc.hand rfl hc.filled fun other hother => ?_
  change (locals s).count other + _ + (inFlight s).count other + _ = _
  by_cases heq : other = obj
  · subst heq
    have hpos := List.count_pos_iff.2 (h hother)
    rw [List.count_erase_self, List.count_cons_self]
    omega
  · rw [List.count_erase_of_ne heq, List.count_cons_of_ne (Ne.symm heq)]

/-- More handles are kept forever. -/
theorem keep (hc : Counted s objs) (known_classes singleton_handles : List Handle)
    (class_handles singleton_objects)
    (hclasses : ∀ obj ∈ s.known_classes, obj ∈ known_classes)
    (hsingle : ∀ obj ∈ s.singleton_handles, obj ∈ singleton_handles) :
    Counted { s with known_classes, singleton_handles, class_handles, singleton_objects } objs :=
  hc.move rfl (fun _ h => ⟨h.1, fun hk => h.2.1 (hclasses _ hk), fun hk => h.2.2 (hsingle _ hk)⟩)
    (fun _ => .rfl)
    (fun _ => id) hc.filled fun _ _ => rfl

/-- A new object or array comes with one reference, and takes over others. -/
theorem born (hc : Counted s objs) (hfree : ¬IsStored s obj)
    (hcounts : s'.jni_ref_counts = Function.update s.jni_ref_counts obj (some 1))
    (hordinary : ∀ other, Ordinary s' other → Ordinary s other)
    (hstored : ∀ other, IsStored s' other ↔ other = obj ∨ IsStored s other)
    (harrays : ∀ other ∈ s'.array_storage, isSegmentHandle other = false)
    (hframes : s'.local_frames = s.local_frames)
    (h : ∀ other, (owners s').count other + (inFlight s').count other =
      (owners s).count other + (inFlight s).count other + objs.count other) : Counted s' [obj] where
  counts other hother := by
    have hmoved := h other
    have hcount := hc.counts other (hordinary other hother)
    rw [hcounts]
    by_cases heq : other = obj
    · subst heq
      obtain ⟨-, howners, hflight, hobjs⟩ := hc.unowned (hordinary other hother) hfree
      rw [Function.update_self, Option.getD_some, List.count_cons_self,
        List.count_nil, UInt32.toNat_one]
      omega
    · rw [Function.update_of_ne heq, List.count_cons_of_ne (Ne.symm heq), List.count_nil]
      omega
  stored other hother := by
    rw [hcounts, hstored]
    by_cases heq : other = obj
    · subst heq
      simp
    · rw [Function.update_of_ne heq, ← hc.stored other (hordinary other hother)]
      simp [heq]
  positive other hother hzero := by
    rw [hcounts] at hzero
    by_cases heq : other = obj
    · subst heq
      rw [Function.update_self, Option.some.injEq] at hzero
      cases hzero
    · exact hc.positive other (hordinary other hother) (by rwa [Function.update_of_ne heq] at hzero)
  arrays := harrays
  filled t frame hframe other hother := by
    rw [JniState.frames, hframes] at hframe
    exact hc.filled t frame hframe other (hordinary other hother)

/-- A new array has one owner, the local reference to it. -/
theorem storeArray (hc : Counted s objs) (hs : Slots s) (hseg : isSegmentHandle obj = false)
    (hnew : obj ∉ s.array_storage) : Counted (storeArray s t obj objs) [] := by
  have hfree : ¬IsStored s obj := by
    rintro (ho | ha)
    · have htrue := hs.segment (hs.objects obj ho)
      rw [hseg] at htrue
      cases htrue
    · exact hnew ha
  refine register
    (hc.born hfree rfl (fun _ => id) (fun other => ?_) (fun other ho => ?_) rfl fun other => ?_)
  · change (other ∈ s.object_storage ∨ other ∈ s.array_storage.insert obj objs) ↔ _
    rw [AList.mem_insert]
    exact or_left_comm
  · obtain rfl | ho := (AList.mem_insert _).1 ho
    · exact hseg
    · exact hc.arrays other ho
  · have hheld :=
      count_held_insert (f := Multiset.ofList) (m := s.array_storage) (a := obj)
        (b := objs) (c := other)
    rw [part, AList.lookup_eq_none.2 hnew, Option.elim_none, Multiset.count_zero,
      Multiset.coe_count] at hheld
    simp only [owners, locals, References.stored, inFlight, Multiset.count_add]
    omega

theorem storeObject (hc : Counted s []) (hs : Slots s) : Counted (storeObject s order t).1 [] := by
  obtain h | ⟨index, u, ha, h⟩ := hs.storeObject_cases order t
  · rw [h]
    exact hc
  · rw [h]
    dsimp only
    obtain ⟨i, hi, hpos, hlt, -⟩ := ha.occupied
    rw [← handleFromIndex_injective hi] at hpos hlt
    have hseg : isSegmentHandle (jniHandleFromIndex index) = true :=
      isSegmentHandle_handle hpos (Nat.lt_of_lt_of_le hlt ha.index_le)
    have hobjects : jniHandleFromIndex index ∉ s.object_storage :=
      fun ho => ha.fresh (hs.objects _ ho)
    have hfree : ¬IsStored s (jniHandleFromIndex index) := by
      rintro (ho | harr)
      · exact hobjects ho
      · rw [hc.arrays _ harr] at hseg
        cases hseg
    obtain ⟨free_slots, jni_ref_index, rfl⟩ := ha.state
    refine register
      (hc.born hfree rfl (fun _ => id) (fun other => ?_) hc.arrays rfl fun other => ?_)
    · change (other ∈ s.object_storage.insert (jniHandleFromIndex index) ∅ ∨
        other ∈ s.array_storage) ↔ _
      rw [AList.mem_insert]
      exact or_assoc
    · have hheld :=
        count_held_insert (f := fieldValues) (m := s.object_storage)
          (a := jniHandleFromIndex index) (b := ∅) (c := other)
      have hempty : (fieldValues ∅).count other = 0 := rfl
      rw [part, AList.lookup_eq_none.2 hobjects, Option.elim_none,
        Multiset.count_zero, hempty] at hheld
      simp only [owners, locals, References.stored, inFlight, Multiset.count_add, List.count_nil]
      omega

theorem storeClass (hc : Counted s []) (hs : Slots s) (cls : Nat) :
    Counted (storeClass s cls).1 [] := by
  unfold References.storeClass
  split
  · exact hc
  · split
    · exact hc
    · next index u hu =>
      obtain ⟨free_slots, jni_ref_index, rfl⟩ := (hs.allocated hu).state
      exact hc.move rfl (fun _ h => ⟨h.1, fun hk => h.2.1 (List.mem_cons_of_mem _ hk), h.2.2⟩)
        (fun _ => .rfl)
        (fun _ => id) hc.filled fun _ _ => rfl

theorem singletonObject (hc : Counted s []) (hs : Slots s) (class_name : Utf8.Bytes) :
    Counted (singletonObject s order t class_name).1 [] := by
  unfold References.singletonObject
  split
  · exact hc
  · exact (hc.storeObject hs).keep _ _ _ _ (fun _ h => h) fun _ h => List.mem_cons_of_mem _ h

/-- References of frames go over to the call that releases them. -/
theorem pass (hc : Counted s objs) (htasks : s.tasks t = []) {frames : List LocalFrame}
    (hfilled : Filled s frames)
    (tasks : List Task)
    (h : ∀ c, (frames.flatMap LocalFrame.handles).count c + (tasks.map Task.handle).count c +
      children.count c = ((s.frames t).flatMap LocalFrame.handles).count c + objs.count c) :
    Counted ((s.setFrames t frames).setTasks t tasks) children := by
  refine hc.hand rfl (filled_setFrames hc.filled hfilled) fun other _ => ?_
  have hlocals := count_setFrames (s := s) (t := t) (c := other) frames
  have hflight := count_setTasks (s := s) (t := t) (c := other) tasks
  have hmoved := h other
  rw [htasks, List.map_nil, List.count_nil] at hflight
  change (locals (s.setFrames t frames)).count other + s.globals.count other +
    (inFlight (s.setTasks t tasks)).count other + _ = _
  omega

theorem map_release (releases : List Handle) :
    (releases.map Task.release).map Task.handle = releases := by
  rw [List.map_map]
  exact List.map_id' releases

theorem popFrame_handles (frames : List LocalFrame) :
    (popFrame frames).1.handles ++ (popFrame frames).2.flatMap LocalFrame.handles =
      frames.flatMap LocalFrame.handles := by
  cases frames with
  | nil => rfl
  | cons frame frames =>
    cases frames with
    | nil => simp [popFrame, LocalFrame.handles]
    | cons other frames => rfl

theorem popFrame_filled {frames : List LocalFrame} (h : Filled s frames) :
    Filled s (popFrame frames).2 := by
  cases frames with
  | nil => exact h
  | cons frame frames =>
    cases frames with
    | nil =>
      change Filled s (ensureLocalFrame [])
      exact Filled.ensure fun _ hframe => absurd hframe List.not_mem_nil
    | cons other frames => exact fun frame hframe => h frame (List.mem_cons_of_mem _ hframe)

theorem popLocal (hc : Counted s (obj :: objs)) (htasks : s.tasks t = []) :
    Counted ((s.setFrames t (popFrame (ensureLocalFrame (s.frames t))).2).setTasks t
      ((order.frames [(popFrame (ensureLocalFrame (s.frames t))).1]).map .release ++
        [.register obj])) objs := by
  refine hc.pass htasks (popFrame_filled (hc.filled t).ensure) _ fun c => ?_
  have hframes := congrArg (List.count c) (popFrame_handles (ensureLocalFrame (s.frames t)))
  have hperm := (order.frames_perm [(popFrame (ensureLocalFrame (s.frames t))).1]).count_eq c
  rw [flatMap_ensureLocalFrame, List.count_append] at hframes
  rw [List.flatMap_singleton] at hperm
  rw [List.map_append, map_release, List.count_append, hperm, List.map_singleton,
    List.count_cons, List.count_cons,
    List.count_nil, Task.handle]
  omega

theorem detach (hc : Counted s objs) (htasks : s.tasks t = []) :
    Counted (releaseThreadLocalRefs s order t) objs := by
  have hnone : Filled s [] := fun _ hframe => absurd hframe List.not_mem_nil
  refine hc.pass htasks hnone _ fun c => ?_
  have hperm := (order.frames_perm (s.frames t).reverse).count_eq c
  rw [map_release, hperm, List.flatMap_nil, List.count_nil,
    ((List.reverse_perm (s.frames t)).flatMap_right LocalFrame.handles).count_eq]
  omega

theorem push (hc : Counted s objs) : Counted (pushLocalJniFrame s t) objs := by
  have hfilled : Filled s (∅ :: ensureLocalFrame (s.frames t)) := by
    intro frame hframe obj hobj
    obtain rfl | hframe := List.mem_cons.1 hframe
    · rw [AList.lookup_empty]
      nofun
    · exact (hc.filled t).ensure frame hframe obj hobj
  refine hc.hand rfl (filled_setFrames hc.filled hfilled) fun other _ => ?_
  have hframes :=
    count_setFrames (s := s) (t := t) (c := other) (∅ :: ensureLocalFrame (s.frames t))
  rw [List.flatMap_cons, flatMap_ensureLocalFrame] at hframes
  change (locals (s.setFrames t _)).count other + s.globals.count other +
    (inFlight s).count other + _ = _
  change _ = ((s.frames t).flatMap LocalFrame.handles).count other + _ at hframes
  omega

/-- A call goes on with what it has left to do. -/
theorem resume (hc : Counted s []) {task : Task} {tasks : List Task}
    (htasks : s.tasks t = task :: tasks) :
    Counted (s.setTasks t tasks) [task.handle] := by
  refine hc.hand rfl hc.filled fun other _ => ?_
  have hflight := count_setTasks (s := s) (t := t) (c := other) tasks
  rw [htasks, List.map_cons, List.count_cons] at hflight
  change (locals s).count other + s.globals.count other +
    (inFlight (s.setTasks t tasks)).count other + _ = _
  rw [List.count_cons, List.count_nil]
  omega

theorem setObject (hc : Counted s [value]) {key : Handle} {object : Fields} (name : Utf8.Bytes)
    (h : s.object_storage.lookup key = some object) :
    Counted { s with object_storage := s.object_storage.insert key (object.insert name value) }
      [(object.lookup name).getD 0] := by
  have hkey : key ∈ s.object_storage := AList.lookup_isSome.1 (by rw [h]; rfl)
  refine hc.move rfl (fun _ => id) (fun other => or_congr ?_ .rfl)
    (fun _ => id) hc.filled fun other hother => ?_
  · rw [AList.mem_insert]
    exact ⟨fun ho => ho.elim (· ▸ hkey) id, .inr⟩
  · have hfield := count_fieldValues_insert object name value hother.1
    have hheld := count_held_insert (f := fieldValues) (m := s.object_storage) (a := key)
      (b := object.insert name value) (c := other)
    rw [part, h, Option.elim_some] at hheld
    simp only [owners, locals, References.stored, inFlight, Multiset.count_add]
    omega

theorem setStatic (hc : Counted s [value]) (name : Utf8.Bytes) :
    Counted { s with static_object_fields := s.static_object_fields.insert name value }
      [(s.static_object_fields.lookup name).getD 0] := by
  refine hc.move rfl (fun _ => id) (fun _ => .rfl) (fun _ => id) hc.filled fun other hother => ?_
  have hfield := count_fieldValues_insert s.static_object_fields name value hother.1
  simp only [owners, locals, References.stored, inFlight, Multiset.count_add]
  omega

theorem retainable (hc : Counted s objs) (h : Live s obj) : Retainable s obj := by
  obtain h0 | hclass | hsingle | hstored := h
  · exact .inl h0
  · exact .inr (.inr (.inl hclass))
  · exact .inr (.inr (.inr (.inl hsingle)))
  · by_cases hobj : Ordinary s obj
    · exact .inr (.inl ((hc.stored obj hobj).1 hstored))
    · by_contra hno
      simp only [Retainable, not_or] at hno
      exact hobj ⟨hno.1, hno.2.2.1, hno.2.2.2.1⟩

/-- What has an owner may be retained. -/
theorem live_of_owned (hc : Counted s objs) (h : obj ∈ owners s) : Live s obj := by
  by_contra hdead
  simp only [Live, not_or] at hdead
  obtain ⟨h0, hclass, hsingle, hstored⟩ := hdead
  have hnone := (hc.unowned ⟨h0, hclass, hsingle⟩ hstored).2.1
  exact Multiset.count_ne_zero.2 h hnone

end Counted

theorem retainTimes_frame (s : JniState) (obj : Handle) (n : Nat) :
    ∃ jni_ref_counts, retainTimes obj n s = { s with jni_ref_counts } := by
  induction n generalizing s with
  | zero => exact ⟨_, rfl⟩
  | succ n ih =>
    obtain ⟨jni_ref_counts, hretain⟩ := retain_frame s obj
    obtain ⟨final, hrest⟩ := ih (retainJniReference s obj)
    exact ⟨final, by rw [retainTimes, hrest, hretain]⟩

theorem mem_fieldValues {object : Fields} {name : Utf8.Bytes}
    (h : object.lookup name = some value) :
    value ∈ fieldValues object := by
  rw [fieldValues, Multiset.mem_coe]
  exact List.mem_map.2 ⟨⟨name, value⟩, (AList.mem_lookup_iff (s := object)).1 h, rfl⟩

/-- What a read finds has an owner. -/
theorem owned_of_found (h : obj ∈ found s op) : obj ∈ owners s := by
  unfold found at h
  split at h
  · next t holder field_name =>
    obtain ⟨⟨key, object, name⟩, hfield, hvalue⟩ :=
      Option.bind_eq_some_iff.1 (Option.mem_toList.1 h)
    have hlookup := fieldOf_lookup hfield
    have hheld := held_erase (f := fieldValues) hlookup
    have hmem : obj ∈ held fieldValues s.object_storage := by
      rw [hheld]
      exact Multiset.mem_add.2 (.inl (mem_fieldValues hvalue))
    simp only [owners, stored, Multiset.mem_add]
    exact .inl (.inr (.inl hmem))
  · next t name =>
    obtain ⟨name, -, hvalue⟩ := Option.bind_eq_some_iff.1 (Option.mem_toList.1 h)
    exact Multiset.mem_add.2 (.inr (mem_fieldValues hvalue))
  · cases h

/-- A deletion names a handle that its caller owns. -/
def Owned (s : JniState) : Op → Prop
  | .deleteLocalRef t obj => Ordinary s obj → ∃ frame ∈ s.frames t, obj ∈ frame
  | .deleteGlobalRef _ obj => Ordinary s obj → obj ∈ s.globals
  | _ => True

/-- Deletions and retained handles are as JNI asks for, and the address of an array is no slot's
handle. -/
def Disciplined (s : JniState) (label : MapOrder × Op) : Prop :=
  (∀ obj ∈ passed s label.2, Live s obj) ∧
  (∀ address ∈ label.2.address, isSegmentHandle address = false) ∧
    Owned s label.2

/-- The owners of every handle can be counted in 32 bits, with room for the reference that a call
takes before it releases another. -/
def Bounded (s : JniState) : Prop := ∀ obj, Ordinary s obj →
    (owners s + inFlight s).count obj < 2 ^ 32 - 1

theorem Counted.room (hc : Counted s []) (hb : Bounded s) (hobj : Ordinary s obj) :
    ((s.jni_ref_counts obj).getD 0).toNat + 1 < 2 ^ 32 := by
  have hbound := hb obj hobj
  rw [Multiset.count_add] at hbound
  rw [hc.counts obj hobj, List.count_nil]
  omega

/-- The elements of a new array are among the owners. -/
theorem count_makeObjectArray {address init : Handle} (len : Int) (hne : init ≠ address)
    (haddress : address ∉ s.array_storage) :
    (owners (makeObjectArray s t address len init) + inFlight
      (makeObjectArray s t address len init)).count init =
      (owners s).count init + (inFlight s).count init + len.toNat := by
  obtain ⟨jni_ref_counts, hframe⟩ := retainTimes_frame s init len.toNat
  have harrays := count_held_insert (f := Multiset.ofList) (m := s.array_storage) (a := address)
    (b := List.replicate len.toNat init) (c := init)
  have hlocals := count_setFrames (s := s) (t := t) (c := init) (registerIn address (s.frames t))
  rw [part, AList.lookup_eq_none.2 haddress, Option.elim_none,
    Multiset.count_zero, Multiset.coe_count,
    List.count_replicate_self] at harrays
  rw [count_registerIn fun heq => absurd heq hne, List.count_cons_of_ne hne.symm] at hlocals
  rw [makeObjectArray, storeArray, registerLocalRef, hframe]
  dsimp only
  split
  · simp only [owners, locals, stored, inFlight, Multiset.count_add]
    omega
  · change (locals (s.setFrames t (registerIn address (s.frames t))) + (s.globals : List Handle) +
      (held fieldValues s.object_storage +
        held Multiset.ofList (s.array_storage.insert address (List.replicate len.toNat init))) +
      fieldValues s.static_object_fields + inFlight s).count init = _
    simp only [owners, stored, Multiset.count_add]
    omega

theorem counted_call (hs : Slots s) (hc : Counted s []) (h : Disciplined s (order, op))
    (htasks : s.tasks op.thread = [])
    (haddress : ∀ address ∈ op.address, address ∉ s.array_storage) (hb : Bounded s)
    (hafter : Bounded (call s order op)) :
    Counted (call s order op) [] := by
  obtain ⟨hlive, hseg, howned⟩ := h
  cases op with
  | storeObject t => exact hc.storeObject hs
  | storeClass t cls => exact hc.storeClass hs cls
  | singletonObject t class_name => exact hc.singletonObject hs class_name
  | markSingletonHandle t obj =>
    exact hc.keep _ _ _ _ (fun _ h => h) fun _ h => List.mem_cons_of_mem _ h
  | makeByteArray t address => exact hc.storeArray hs (hseg address rfl) (haddress address rfl)
  | makeFloatArray t address => exact hc.storeArray hs (hseg address rfl) (haddress address rfl)
  | makeObjectArray t address len init =>
    obtain hlen | hlen := Nat.eq_zero_or_pos len.toNat
    · rw [call, makeObjectArray, hlen]
      exact hc.storeArray hs (hseg address rfl) (haddress address rfl)
    · have hinit := hlive init (List.mem_replicate.2 ⟨Nat.ne_of_gt hlen, rfl⟩)
      obtain ⟨jni_ref_counts, hframe⟩ := retainTimes_frame s init len.toNat
      have hcounted := hc.retainTimes hinit len.toNat fun hobj => ?_
      · rw [List.append_nil] at hcounted
        refine hcounted.storeArray (hs.retainTimes (hc.retainable hinit) _) (hseg address rfl) ?_
        rw [hframe]
        exact haddress address rfl
      · have hne : init ≠ address := by
          rintro rfl
          obtain ho | ha := hinit.isStored hobj
          · have htrue := hs.segment (hs.objects init ho)
            rw [hseg init rfl] at htrue
            cases htrue
          · exact haddress init rfl ha
        have hordinary : Ordinary (makeObjectArray s t address len init) init := by
          rw [makeObjectArray, storeArray, registerLocalRef, hframe]
          split
          · exact hobj
          · exact hobj
        have hbound := hafter init hordinary
        rw [call, count_makeObjectArray len hne (haddress address rfl)] at hbound
        rw [List.count_nil]
        omega
  | newLocalRef t obj => exact (hc.retain (hlive obj List.mem_cons_self) (hc.room hb)).register
  | deleteLocalRef t obj => exact (hc.unregister howned).releaseAll hs.unregister
  | newGlobalRef t obj => exact (hc.retain (hlive obj List.mem_cons_self) (hc.room hb)).newGlobal
  | deleteGlobalRef t obj =>
    have hglobals : Slots { s with globals := s.globals.erase obj } := { hs with }
    exact (hc.deleteGlobal howned).releaseAll hglobals
  | pushLocalJniFrame t => exact hc.push
  | popLocalJniFrame t result =>
    have hcounted := hc.retain (hlive result List.mem_cons_self) (hc.room hb)
    obtain ⟨jni_ref_counts, hframe⟩ := retain_frame s result
    refine hcounted.popLocal ?_
    rw [hframe]
    exact htasks
  | releaseThreadLocalRefs t => exact hc.detach htasks
  | setObjectFieldRaw t obj field_name value =>
    rw [call, setObjectFieldRaw]
    split
    · exact hc
    · next key object name hfield =>
      have hvalue := hlive value (by
        rw [passed, hfield]
        exact List.mem_cons_self)
      have hlookup : (retainJniReference s value).object_storage.lookup key = some object := by
        rw [retain_objects]
        exact fieldOf_lookup hfield
      have hkey := AList.lookup_isSome.1 (by rw [hlookup]; rfl)
      exact ((hc.retain hvalue (hc.room hb)).setObject name hlookup).releaseAll
        ((hs.retain (hc.retainable hvalue)).setObject hkey)
  | objectFieldValue t obj field_name =>
    rw [call, objectFieldValue]
    split
    · exact hc
    · next key object name hfield =>
      split
      · exact hc
      · next value hvalue =>
        have hfound : value ∈ found s (.objectFieldValue t obj field_name) := by
          rw [found, hfield, Option.bind_some]
          exact Option.mem_toList.2 hvalue
        exact (hc.retain (hc.live_of_owned (owned_of_found hfound)) (hc.room hb)).register
  | setStaticObjectFieldRaw t name value =>
    cases name with
    | none => exact hc
    | some name =>
      have hvalue := hlive value List.mem_cons_self
      exact ((hc.retain hvalue (hc.room hb)).setStatic name).releaseAll
        ((hs.retain (hc.retainable hvalue)).setStatic _)
  | staticObjectFieldValue t name =>
    rw [call, staticObjectFieldValue]
    split
    · exact hc
    · next value hvalue =>
      have hfound : value ∈ found s (.staticObjectFieldValue t name) := Option.mem_toList.2 hvalue
      exact (hc.retain (hc.live_of_owned (owned_of_found hfound)) (hc.room hb)).register
  | resume t => exact hc

theorem counted_step (hs : Slots s) (hc : Counted s []) (hb : Bounded s)
    (h : Disciplined s (order, op))
    (hstep : step s order op = some s') (hafter : Bounded s') : Slots s' ∧ Counted s' [] := by
  have hlive : ∀ obj ∈ retained s op, Retainable s obj := by
    intro obj hobj
    obtain hpassed | hfound := List.mem_append.1 hobj
    · exact hc.retainable (h.1 obj hpassed)
    · exact hc.retainable (hc.live_of_owned (owned_of_found hfound))
  refine ⟨slots_step hs hlive hstep, ?_⟩
  obtain ⟨t, task, tasks, rfl, htasks, rfl⟩ | ⟨-, htasks, haddress, rfl⟩ := step_cases hstep
  · cases task with
    | release obj => exact (hc.resume htasks).releaseAll (hs.setTasks tasks)
    | register obj => exact (hc.resume htasks).register
  · exact counted_call hs hc h htasks (fun address ha => (haddress address ha).2) hb hafter

theorem bounded_initial : Bounded {} := by
  intro obj _
  have hnone : owners {} + inFlight {} = 0 := rfl
  rw [hnone, Multiset.count_zero]
  decide

/-- The runs in which the handles passed are as JNI asks for, and the owners can be counted. -/
def disciplinedRuns : LTS JniState (MapOrder × Op) :=
  (references.restrict Disciplined).staying Bounded

theorem counted_reachable (h : disciplinedRuns.Reachable s) : Slots s ∧ Counted s [] := by
  have hall : Bounded s ∧ Slots s ∧ Counted s [] := by
    refine h.invariant (I := fun s => Bounded s ∧ Slots s ∧ Counted s []) ?_ ?_
    · rintro _ rfl
      exact ⟨bounded_initial, slots_initial, counted_initial⟩
    · rintro s label s' ⟨⟨hstep, hdisciplined⟩, hafter⟩ ⟨hb, hs, hc⟩
      exact ⟨hafter, counted_step hs hc hb hdisciplined hstep hafter⟩
  exact hall.2

theorem inFlight_idle (h : ∀ t, s.tasks t = []) : inFlight s = 0 := by
  refine List.sum_eq_zero fun part hpart => ?_
  obtain ⟨⟨t, tasks⟩, hentry, rfl⟩ := List.mem_map.1 hpart
  have hlookup : s.pending.lookup t = some tasks := (AList.mem_lookup_iff (s := s.pending)).2 hentry
  have htasks := h t
  rw [JniState.tasks, hlookup, Option.getD_some] at htasks
  subst htasks
  rfl

/-- The counts are the numbers of the owners, and what is stored is what has owners. -/
def CountsOwners (s : JniState) (owned : Multiset Handle) : Prop :=
  ∀ obj, Ordinary s obj →
    ((s.jni_ref_counts obj).getD 0).toNat = owned.count obj ∧ (IsStored s obj ↔ 0 < owned.count obj)

theorem Counted.countsOwners (hc : Counted s []) : CountsOwners s (owners s + inFlight s) := by
  intro obj hobj
  have hcount := hc.counts obj hobj
  have hstored := hc.stored obj hobj
  rw [List.count_nil, Nat.add_zero, ← Multiset.count_add] at hcount
  refine ⟨hcount, hstored.trans ?_⟩
  rw [← hcount]
  cases hn : s.jni_ref_counts obj with
  | none => simp
  | some n =>
    refine iff_of_true nofun (Nat.pos_of_ne_zero fun hzero => hc.positive obj hobj ?_)
    have hn0 : n = 0 := UInt32.toNat_inj.1 hzero
    rw [hn, hn0]

/-- A slot that is not in use holds nothing that has an owner. -/
theorem Counted.vacant (hs : Slots s) (hc : Counted s []) (hpos : 0 < i)
    (hlt : i < kJniSegmentCapacity)
    (h : ¬Occupied s (jniHandleFromIndex i)) :
    ¬IsStored s (jniHandleFromIndex i) ∧
      (Ordinary s (jniHandleFromIndex i) →
        (owners s + inFlight s).count (jniHandleFromIndex i) = 0) := by
  have hstored : ¬IsStored s (jniHandleFromIndex i) := by
    rintro (ho | harr)
    · exact h (hs.objects _ ho)
    · have hseg := isSegmentHandle_handle hpos hlt
      rw [hc.arrays _ harr] at hseg
      cases hseg
  refine ⟨hstored, fun hobj => ?_⟩
  exact Nat.eq_zero_of_not_pos fun hcount => hstored ((hc.countsOwners _ hobj).2.2 hcount)

/-- Counts are the numbers of owners, and no slot of a handle with an owner is free or handed
out. -/
theorem references_counted (h : disciplinedRuns.Reachable s) :
    CountsOwners s (owners s + inFlight s) ∧ ((∀ t, s.tasks t = []) → CountsOwners s (owners s)) ∧
      (∀ i ∈ s.free_slots, ¬IsStored s (jniHandleFromIndex i) ∧
        (Ordinary s (jniHandleFromIndex i) →
          (owners s + inFlight s).count (jniHandleFromIndex i) = 0)) ∧
      ∀ point type index s', allocateSegmentSlot s point type = some (index, s') →
        jniHandleFromIndex index ∉ s.results ∧ ¬IsStored s (jniHandleFromIndex index) ∧
          (Ordinary s (jniHandleFromIndex index) →
            (owners s + inFlight s).count (jniHandleFromIndex index) = 0) := by
  obtain ⟨hs, hc⟩ := counted_reachable h
  have hcounts := hc.countsOwners
  refine ⟨hcounts, fun hidle => ?_, fun i hi => ?_, fun point type index u hu => ?_⟩
  · rwa [inFlight_idle hidle, add_zero] at hcounts
  · obtain ⟨hpos, hlt, -⟩ := hs.free i hi
    refine hc.vacant hs hpos (Nat.lt_of_lt_of_le hlt hs.index_le) ?_
    rintro ⟨j, hj, -, -, hfree⟩
    exact hfree (handleFromIndex_injective hj ▸ hi)
  · have ha := hs.allocated hu
    obtain ⟨j, hj, hpos, hlt, -⟩ := ha.occupied
    rw [← handleFromIndex_injective hj] at hpos hlt
    exact ⟨fun hr => ha.fresh (hs.results _ hr),
      hc.vacant hs hpos (Nat.lt_of_lt_of_le hlt ha.index_le) ha.fresh⟩

instance (s : JniState) : DecidablePred (IsStored s) := fun _ => inferInstanceAs (Decidable (_ ∨ _))

instance (s : JniState) : DecidablePred (Ordinary s) :=
  fun _ => inferInstanceAs (Decidable (_ ∧ _ ∧ _))

instance (s : JniState) : DecidablePred (Live s) :=
  fun _ => inferInstanceAs (Decidable (_ ∨ _ ∨ _ ∨ _))

instance (s : JniState) : DecidablePred (Owned s) := fun op => by
  cases op <;> dsimp only [Owned] <;> infer_instance

instance (s : JniState) (label : MapOrder × Op) : Decidable (Disciplined s label) :=
  inferInstanceAs (Decidable (_ ∧ _ ∧ _))

def disciplinedStep (s : JniState) (label : MapOrder × Op) : Option JniState :=
  if Disciplined s label then
    (step s label.1 label.2).bind fun s =>
      if (owners s + inFlight s).card < 2 ^ 32 - 1 then some s else none
  else none

theorem disciplinedStep_step (label : MapOrder × Op) (h : disciplinedStep s label = some s') :
    disciplinedRuns.step s label s' := by
  rw [disciplinedStep, Option.ite_none_right_eq_some] at h
  obtain ⟨hdisciplined, hstep⟩ := h
  obtain ⟨u, hu, hfew⟩ := Option.bind_eq_some_iff.1 hstep
  rw [Option.ite_none_right_eq_some, Option.some.injEq] at hfew
  obtain ⟨hfew, rfl⟩ := hfew
  exact ⟨⟨hu, hdisciplined⟩, fun obj _ => Nat.lt_of_le_of_lt (Multiset.count_le_card obj _) hfew⟩

/-- An object in a field and in an array outlives the frame it was made in. -/
theorem references_counted_shared :
    ∃ s, (∀ t, s.tasks t = []) ∧ s.jni_ref_counts 131072 = some 3 ∧ CountsOwners s (owners s) := by
  have hrun : ∃ s, ([.pushLocalJniFrame 0, .storeObject 0, .storeObject 0,
      .setObjectFieldRaw 0 65536 (some []) 131072, .makeObjectArray 0 5000000000016 2 131072,
      .newGlobalRef 0 65536,
      .popLocalJniFrame 0 5000000000016, .resume 0, .resume 0, .resume 0, .resume 0].map
        (MapOrder.stored, ·)).foldlM disciplinedStep {} = some s ∧
      s.jni_ref_counts 131072 = some 3 ∧ s.pending.entries.all (·.2 = []) := by
    refine ⟨_, rfl, ?_, ?_⟩ <;> decide
  obtain ⟨s, hs, hcount, hpending⟩ := hrun
  have hidle : ∀ t, s.tasks t = [] := by
    intro t
    rw [JniState.tasks]
    cases hlookup : s.pending.lookup t with
    | none => rfl
    | some tasks =>
      have hentry := (AList.mem_lookup_iff (s := s.pending)).1 hlookup
      simpa using List.all_eq_true.1 hpending _ hentry
  have hreach : disciplinedRuns.Reachable s :=
    ⟨_, _, rfl, LTS.Run.of_foldlM (fun _ label _ => disciplinedStep_step label) hs⟩
  exact ⟨s, hidle, hcount, (references_counted hreach).2.1 hidle⟩

/-- One object, and so many global references to it besides the local one. -/
def shared (n : Nat) : JniState :=
  let s := (storeObject {} .stored 0).1
  { s with
    jni_ref_counts := Function.update s.jni_ref_counts 65536 (some (UInt32.ofNat n + 1))
    globals := List.replicate n 65536 }

theorem shared_count (n : Nat) : (shared n).jni_ref_counts 65536 = some (UInt32.ofNat n + 1) := by
  have hupdate : (shared n).jni_ref_counts =
      Function.update (storeObject {} .stored 0).1.jni_ref_counts 65536
        (some (UInt32.ofNat n + 1)) := rfl
  rw [hupdate, Function.update_self]

theorem newGlobalRef_shared (n : Nat) : newGlobalRef (shared n) 65536 = shared (n + 1) := by
  rw [newGlobalRef, retainJniReference, if_neg (by decide), shared_count]
  simp only [shared, Function.update_idem, Option.elim_some,
    if_neg (show (65536 : Nat) ≠ 0 by decide),
    UInt32.ofNat_add, List.replicate_succ]
  rfl

theorem reachable_shared (n : Nat) : (references.restrict Disciplined).Reachable (shared n) := by
  induction n with
  | zero =>
    refine ⟨{}, [(.stored, .storeObject 0)], rfl, .single ⟨?_, nofun, nofun, trivial⟩⟩
    have hcounts : (storeObject {} .stored 0).1.jni_ref_counts =
        Function.update (storeObject {} .stored 0).1.jni_ref_counts 65536
          (some (UInt32.ofNat 0 + 1)) :=
      (Function.update_idem ..).symm
    rw [shared, ← hcounts]
    rfl
  | succ n ih =>
    refine ih.run (.single (a := (.stored, .newGlobalRef 0 65536)) ⟨?_, ?_, nofun, trivial⟩)
    · rw [← newGlobalRef_shared]
      rfl
    · intro obj hobj
      rw [List.mem_singleton.1 hobj]
      exact .inr (.inr (.inr (.inl ((AList.mem_insert _).2 (.inl rfl)))))

/-- With 2^32 references to an object its count is 0. -/
theorem references_counted_overflow :
    ¬∀ s, (references.restrict Disciplined).Reachable s →
      CountsOwners s (owners s + inFlight s) := by
  intro h
  have hordinary : Ordinary (shared (2 ^ 32 - 1)) 65536 :=
    ⟨by decide, List.not_mem_nil, List.not_mem_nil⟩
  have hcount := (h _ (reachable_shared (2 ^ 32 - 1)) 65536 hordinary).1
  have hzero : UInt32.ofNat (2 ^ 32 - 1) + 1 = 0 := by decide
  have hglobals : (shared (2 ^ 32 - 1)).globals = List.replicate (2 ^ 32 - 1) 65536 := rfl
  rw [shared_count, hzero, owners, hglobals] at hcount
  simp only [Multiset.count_add, Multiset.coe_count, List.count_replicate_self, Option.getD_some,
    UInt32.toNat_zero] at hcount
  omega

end Nightcap.Jni.References
