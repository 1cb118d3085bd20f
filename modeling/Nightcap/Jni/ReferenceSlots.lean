import Nightcap.Jni.References

/-! The slots of the handle table: which are free, and whose the others are. -/
namespace Nightcap.Jni.References

open Transition Holdings

variable {s s' u : JniState} {order : MapOrder} {t : Thread}
  {obj value h : Handle} {i j index fuel : Nat}
  {objs children : List Handle} {P : JniState → List Handle → Prop} {op : Op}

theorem handleFromIndex_eq (i : Nat) : jniHandleFromIndex i = Nat.mul i 65536 :=
  Nat.shiftLeft_eq i 16

theorem handleFromIndex_injective : Function.Injective jniHandleFromIndex := by
  intro i j h
  rw [handleFromIndex_eq, handleFromIndex_eq] at h
  exact Nat.eq_of_mul_eq_mul_right (by decide) h

theorem indexFromHandle_handle (h : i < kJniSegmentCapacity) :
    jniIndexFromHandle (jniHandleFromIndex i) = i := by
  have hcap : kJniSegmentCapacity = 100000 := rfl
  rw [jniIndexFromHandle, jniHandleFromIndex, Nat.shiftLeft_shiftRight, Nat.mod_eq_of_lt]
  omega

/-- The state without the count of a handle. -/
def uncount (s : JniState) (obj : Handle) : JniState :=
  { s with jni_ref_counts := Function.update s.jni_ref_counts obj none }

/-- What the release of one handle does. -/
inductive Released (s : JniState) (order : MapOrder) (obj : Handle) : JniState → List Handle → Prop
  | idle (h : obj = 0 ∨ s.jni_ref_counts obj = none) : Released s order obj s []
  | counted (n : UInt32) (hobj : obj ≠ 0) (hn : s.jni_ref_counts obj = some n) (hmany : 1 < n) :
    Released s order obj
      { s with jni_ref_counts := Function.update s.jni_ref_counts obj (some (n - 1)) } []
  | array (n : UInt32) (elements : List Handle) (hobj : obj ≠ 0)
    (hn : s.jni_ref_counts obj = some n) (hlast : n ≤ 1)
    (h : s.array_storage.lookup obj = some elements) :
    Released s order obj { uncount s obj with array_storage := s.array_storage.erase obj } elements
  | kept (n : UInt32) (hobj : obj ≠ 0) (hn : s.jni_ref_counts obj = some n) (hlast : n ≤ 1)
    (harray : s.array_storage.lookup obj = none)
    (h : obj ∈ s.known_classes ∨ obj ∈ s.singleton_handles) :
    Released s order obj (uncount s obj) []
  | object (n : UInt32) (object : Fields) (hobj : obj ≠ 0) (hn : s.jni_ref_counts obj = some n)
    (hlast : n ≤ 1)
    (harray : s.array_storage.lookup obj = none) (hclass : obj ∉ s.known_classes)
    (hsingle : obj ∉ s.singleton_handles) (h : s.object_storage.lookup obj = some object) :
    Released s order obj
      { freeSegmentSlot (uncount s obj) obj with object_storage := s.object_storage.erase obj }
      (order.fields obj object)
  | vacant (n : UInt32) (hobj : obj ≠ 0) (hn : s.jni_ref_counts obj = some n) (hlast : n ≤ 1)
    (harray : s.array_storage.lookup obj = none) (hclass : obj ∉ s.known_classes)
    (hsingle : obj ∉ s.singleton_handles) (h : s.object_storage.lookup obj = none) :
    Released s order obj (freeSegmentSlot (uncount s obj) obj) []

@[simp] theorem freeSegmentSlot_objects :
    (freeSegmentSlot s obj).object_storage = s.object_storage := by
  unfold freeSegmentSlot
  dsimp only
  split <;> rfl

@[simp] theorem freeSegmentSlot_arrays :
    (freeSegmentSlot s obj).array_storage = s.array_storage := by
  unfold freeSegmentSlot
  dsimp only
  split <;> rfl

theorem setObjects_self {objects : AList fun _ : Handle => Fields}
    (h : objects = s.object_storage) :
    { s with object_storage := objects } = s := by
  rw [h]

theorem released (s : JniState) (order : MapOrder) (obj : Handle) :
    Released s order obj (releaseOne s order obj).1 (releaseOne s order obj).2 := by
  unfold releaseOne
  split
  · next hobj => exact .idle (.inl hobj)
  · next hobj =>
    split
    · next hn => exact .idle (.inr hn)
    · next n hn =>
      split
      · next hmany => exact .counted n hobj hn hmany
      · next hlast =>
        have hlast := UInt32.not_lt.1 hlast
        dsimp only
        split
        · next elements he => exact .array n elements hobj hn hlast he
        · next harray =>
          split
          · next hclass => exact .kept n hobj hn hlast harray (.inl hclass)
          · next hclass =>
            split
            · next hsingle => exact .kept n hobj hn hlast harray (.inr hsingle)
            · next hsingle =>
              split
              · next object ho =>
                rw [freeSegmentSlot_objects] at ho
                simp only [freeSegmentSlot_objects]
                exact .object n object hobj hn hlast harray hclass hsingle ho
              · next ho =>
                rw [freeSegmentSlot_objects] at ho
                exact .vacant n hobj hn hlast harray hclass hsingle ho

@[simp] theorem stored_freeSegmentSlot : stored (freeSegmentSlot s obj) = stored s := by
  rw [stored, freeSegmentSlot_objects, freeSegmentSlot_arrays, stored]

/-- What dies hands over exactly what it refers to. -/
theorem Released.card (h : Released s order obj s' children) :
    (stored s').card + children.length = (stored s).card := by
  cases h with
  | idle h => rfl
  | counted n hobj hn hmany => rfl
  | array n elements hobj hn hlast h =>
    have hheld := held_erase (f := Multiset.ofList) h
    simp only [stored, uncount, Multiset.card_add, hheld, Multiset.coe_card]
    omega
  | kept n hobj hn hlast harray h => rfl
  | object n object hobj hn hlast harray hclass hsingle h =>
    have hheld := held_erase (f := fieldValues) h
    have hlength := (order.fields_perm obj object).length_eq
    simp only [stored, freeSegmentSlot_arrays, uncount, Multiset.card_add, hheld]
    simp only [fieldValues, Multiset.coe_card, hlength]
    omega
  | vacant n hobj hn hlast harray hclass hsingle h =>
    rw [stored_freeSegmentSlot]
    rfl

/-- What a whole release keeps follows from what one object's or array's release keeps. -/
theorem releases_induct (hstep : ∀ s obj rest s' children, P s (obj :: rest) →
      Released s order obj s' children → P s' (children ++ rest))
    (hfuel : (stored s).card + objs.length ≤ fuel) (h : P s objs) :
    P (releases order fuel s objs) [] := by
  induction fuel generalizing s objs with
  | zero =>
    obtain rfl : objs = [] := List.length_eq_zero_iff.1 (by omega)
    exact h
  | succ fuel ih =>
    cases objs with
    | nil => exact h
    | cons obj rest =>
      have hone := released s order obj
      refine ih ?_ (hstep _ _ _ _ _ h hone)
      have hcard := hone.card
      rw [List.length_cons] at hfuel
      rw [List.length_append]
      omega

@[simp] theorem retain_objects : (retainJniReference s obj).object_storage = s.object_storage := by
  unfold retainJniReference
  split <;> rfl

theorem fieldOf_lookup {field_name : Option Utf8.Bytes} {key : Handle}
    {object : Fields} {name : Utf8.Bytes}
    (h : fieldOf s obj field_name = some (key, object, name)) :
    s.object_storage.lookup key = some object := by
  unfold fieldOf at h
  simp only [Option.bind_eq_bind, Option.bind_eq_some_iff, Option.some.injEq, Prod.mk.injEq] at h
  obtain ⟨_, -, _, hlook, _, -, rfl, rfl, rfl⟩ := h
  exact hlook

theorem releaseAll_nil : releaseAll s order [] = s := by
  unfold releaseAll
  cases (stored s).card + ([] : List Handle).length <;> rfl

theorem releaseAll_induct (hstep : ∀ s obj rest s' children, P s (obj :: rest) →
      Released s order obj s' children → P s' (children ++ rest)) (h : P s objs) :
    P (releaseAll s order objs) [] := releases_induct hstep le_rfl h

def OutOfTable (obj : Handle) : Prop :=
  ¬(0 < jniIndexFromHandle obj ∧ jniIndexFromHandle obj < kJniSegmentCapacity)

/-- A handle whose slot is handed out. -/
def Occupied (s : JniState) (obj : Handle) : Prop :=
  ∃ i, obj = jniHandleFromIndex i ∧ 0 < i ∧ i < s.jni_ref_index ∧ i ∉ s.free_slots

/-- A handle that frees no free slot when its count runs out. -/
def Anchored (s : JniState) (obj : Handle) : Prop :=
  obj ∈ s.array_storage ∨ obj ∈ s.known_classes ∨ obj ∈ s.singleton_handles ∨
    OutOfTable obj ∨ Occupied s obj

structure Slots (s : JniState) : Prop where
  some_index : 0 < s.jni_ref_index
  index_le : s.jni_ref_index ≤ kJniSegmentCapacity
  nodup : s.free_slots.Nodup
  free : ∀ i ∈ s.free_slots, 0 < i ∧ i < s.jni_ref_index ∧ s.my_segment i = none ∧
    s.segment_types i = .kEmpty
  counted : ∀ obj, s.jni_ref_counts obj ≠ none → Anchored s obj
  objects : ∀ obj ∈ s.object_storage, Occupied s obj
  pointers : ∀ i key, s.my_segment i = some (.object key) →
    key = jniHandleFromIndex i ∧ key ∈ s.object_storage
  results : ∀ obj ∈ s.results, Occupied s obj
  results_nodup : s.results.Nodup

theorem slots_initial : Slots {} where
  some_index := Nat.one_pos
  index_le := by decide
  nodup := .nil
  free := nofun
  counted _ h := absurd rfl h
  objects _ h := absurd h (AList.notMem_empty _)
  pointers := nofun
  results := nofun
  results_nodup := .nil

/-- What a handle may be retained as: nothing, something that still has a count, or something that
is never freed. -/
def Retainable (s : JniState) (obj : Handle) : Prop :=
  obj = 0 ∨ s.jni_ref_counts obj ≠ none ∨ obj ∈ s.known_classes ∨
    obj ∈ s.singleton_handles ∨ OutOfTable obj

theorem Retainable.retain (h : Retainable s obj) (other : Handle) :
    Retainable (retainJniReference s other) obj := by
  unfold retainJniReference
  split
  · exact h
  · refine h.imp_right (.imp_left fun hn => ?_)
    by_cases heq : obj = other
    · subst heq
      simp
    · simpa [Function.update_of_ne heq] using hn

namespace Slots

theorem table_index (hs : Slots s) (h : Occupied s obj) :
    obj = jniHandleFromIndex (jniIndexFromHandle obj) ∧ ¬OutOfTable obj := by
  obtain ⟨i, rfl, hpos, hlt, -⟩ := h
  have hcap : i < kJniSegmentCapacity := Nat.lt_of_lt_of_le hlt hs.index_le
  rw [OutOfTable, indexFromHandle_handle hcap, not_not]
  exact ⟨rfl, hpos, hcap⟩

theorem retain (hs : Slots s) (h : Retainable s obj) : Slots (retainJniReference s obj) := by
  unfold retainJniReference
  split
  · exact hs
  · next hobj =>
    refine { hs with counted := fun other hother => ?_ }
    by_cases heq : other = obj
    · subst heq
      obtain h0 | hn | hc | hsing | hout := h
      · exact absurd h0 hobj
      · exact hs.counted _ hn
      · exact .inr (.inl hc)
      · exact .inr (.inr (.inl hsing))
      · exact .inr (.inr (.inr (.inl hout)))
    · exact hs.counted other (by simpa [Function.update_of_ne heq] using hother)

theorem mark (hs : Slots s) (obj : Handle) (singleton_objects : Utf8.Bytes → Option Handle) :
    Slots { s with singleton_objects, singleton_handles := obj :: s.singleton_handles } :=
  { hs with
    counted := fun other hother =>
      (hs.counted other hother).imp_right (.imp_right (.imp_left (List.mem_cons_of_mem _))) }

theorem register (hs : Slots s) : Slots (registerLocalRef s t obj) := by
  unfold registerLocalRef
  split
  · exact hs
  · exact { hs with }

theorem unregister (hs : Slots s) : Slots (unregisterLocalRef s t obj) := by
  unfold unregisterLocalRef
  split
  · exact hs
  · exact { hs with }

/-- A handle loses its count. -/
theorem uncount (hs : Slots s) (obj : Handle) : Slots (uncount s obj) := by
  refine { hs with counted := fun other hother => ?_ }
  by_cases heq : other = obj
  · exact absurd (by rw [heq]; exact Function.update_self ..) hother
  · exact hs.counted other (by simpa [References.uncount, Function.update_of_ne heq] using hother)

theorem recount (hs : Slots s) (n : UInt32) (h : Anchored s obj) :
    Slots { s with jni_ref_counts := Function.update s.jni_ref_counts obj (some n) } := by
  refine { hs with counted := fun other hother => ?_ }
  by_cases heq : other = obj
  · exact heq ▸ h
  · exact hs.counted other (by simpa [Function.update_of_ne heq] using hother)

theorem dropArray (hs : Slots s) (h : s.jni_ref_counts obj = none) :
    Slots { s with array_storage := s.array_storage.erase obj } := by
  refine { hs with counted := fun other hother => ?_ }
  have hne : other ≠ obj := by
    rintro rfl
    exact hother h
  exact (hs.counted other hother).imp_left fun ha => AList.mem_erase.2 ⟨hne, ha⟩

/-- Freeing the slot of a handle leaves every other handle's. -/
theorem occupied_freed (hs : Slots s) (hocc : Occupied s obj) {other : Handle}
    (h : Occupied s other) (hne : other ≠ obj) :
    Occupied (freeSegmentSlot s obj) other := by
  obtain ⟨hidx, htable⟩ := hs.table_index hocc
  obtain ⟨i, rfl, hpos, hlt, hfree⟩ := h
  rw [freeSegmentSlot, if_pos (not_not.1 htable)]
  refine ⟨i, rfl, hpos, hlt, fun hmem => ?_⟩
  obtain rfl | hmem := List.mem_cons.1 hmem
  · exact hne hidx.symm
  · exact hfree hmem

/-- An object that loses its last count leaves its slot empty. -/
theorem freeObject (hs : Slots s) (hcount : s.jni_ref_counts obj = none) (hocc : Occupied s obj) :
    Slots { freeSegmentSlot s obj with object_storage := s.object_storage.erase obj } := by
  obtain ⟨hidx, htable⟩ := hs.table_index hocc
  have hkeep : ∀ {other}, Occupied s other → other ≠ obj → Occupied (freeSegmentSlot s obj) other :=
    hs.occupied_freed hocc
  have hfree : jniIndexFromHandle obj ∉ s.free_slots := by
    obtain ⟨i, rfl, hpos, hlt, hfree⟩ := hocc
    rwa [indexFromHandle_handle (Nat.lt_of_lt_of_le hlt hs.index_le)]
  have htable := not_not.1 htable
  rw [freeSegmentSlot] at hkeep ⊢
  simp only [if_pos htable] at hkeep ⊢
  constructor
  · exact hs.some_index
  · exact hs.index_le
  · exact List.nodup_cons.2 ⟨hfree, hs.nodup⟩
  · intro i hi
    dsimp only at hi ⊢
    by_cases heq : i = jniIndexFromHandle obj
    · subst heq
      obtain ⟨j, hj, hpos, hlt, -⟩ := id hocc
      have hcap := Nat.lt_of_lt_of_le hlt hs.index_le
      rw [hj, indexFromHandle_handle hcap]
      exact ⟨hpos, hlt, Function.update_self .., Function.update_self ..⟩
    · rw [Function.update_of_ne heq, Function.update_of_ne heq]
      exact hs.free i ((List.mem_cons.1 hi).resolve_left heq)
  · intro other hother
    have hne : other ≠ obj := by
      rintro rfl
      exact hother hcount
    obtain ha | hc | hsing | hout | hocc := hs.counted other hother
    · exact .inl ha
    · exact .inr (.inl hc)
    · exact .inr (.inr (.inl hsing))
    · exact .inr (.inr (.inr (.inl hout)))
    · exact .inr (.inr (.inr (.inr (hkeep hocc hne))))
  · intro other ho
    obtain ⟨hne, hmem⟩ := AList.mem_erase.1 ho
    exact hkeep (hs.objects other hmem) hne
  · intro i key hkey
    dsimp only at hkey
    have hne : i ≠ jniIndexFromHandle obj := by
      rintro rfl
      rw [Function.update_self] at hkey
      cases hkey
    rw [Function.update_of_ne hne] at hkey
    obtain ⟨rfl, hmem⟩ := hs.pointers i key hkey
    refine ⟨rfl, AList.mem_erase.2 ⟨fun heq => ?_, hmem⟩⟩
    exact hne (handleFromIndex_injective (heq.trans hidx))
  · intro other ho
    obtain ⟨hmem, hne⟩ := List.mem_filter.1 ho
    refine hkeep (hs.results other hmem) ?_
    rintro rfl
    exact absurd rfl (of_decide_eq_true hne)
  · exact hs.results_nodup.filter _

/-- A handle outside the table frees nothing. -/
theorem freeNothing (hs : Slots s) (hout : OutOfTable obj) :
    Slots { freeSegmentSlot s obj with object_storage := s.object_storage.erase obj } := by
  have hsame : freeSegmentSlot s obj = s := if_neg hout
  rw [hsame]
  refine { hs with
    objects := fun other ho => hs.objects other (AList.mem_erase.1 ho).2
    pointers := ?_ }
  intro i key hkey
  obtain ⟨hi, hmem⟩ := hs.pointers i key hkey
  refine ⟨hi, AList.mem_erase.2 ⟨?_, hmem⟩⟩
  rintro rfl
  exact (hs.table_index (hs.objects key hmem)).2 hout

theorem freed {n : UInt32} (hs : Slots s) (hn : s.jni_ref_counts obj = some n)
    (harray : s.array_storage.lookup obj = none) (hclass : obj ∉ s.known_classes)
    (hsingle : obj ∉ s.singleton_handles) :
    Slots { freeSegmentSlot (References.uncount s obj) obj with
      object_storage := s.object_storage.erase obj } := by
  obtain ha | hc | hsing | hout | hocc := hs.counted obj (by rw [hn]; nofun)
  · exact absurd ha (AList.lookup_eq_none.1 harray)
  · exact absurd hc hclass
  · exact absurd hsing hsingle
  · exact (hs.uncount obj).freeNothing hout
  · exact (hs.uncount obj).freeObject (Function.update_self ..) hocc

theorem released (hs : Slots s) (h : Released s order obj s' children) : Slots s' := by
  cases h with
  | idle h => exact hs
  | counted n hobj hn hmany => exact hs.recount _ (hs.counted obj (by rw [hn]; nofun))
  | array n elements hobj hn hlast h => exact (hs.uncount obj).dropArray (Function.update_self ..)
  | kept n hobj hn hlast harray h => exact hs.uncount obj
  | object n object hobj hn hlast harray hclass hsingle h =>
    exact hs.freed hn harray hclass hsingle
  | vacant n hobj hn hlast harray hclass hsingle h =>
    have hfree := hs.freed hn harray hclass hsingle
    have hsame : s.object_storage.erase obj = s.object_storage :=
      AList.ext (List.kerase_of_notMem_keys (AList.lookup_eq_none.1 h))
    rwa [setObjects_self] at hfree
    exact hsame.trans (freeSegmentSlot_objects (s := References.uncount s obj)).symm

theorem releaseAll (hs : Slots s) (objs : List Handle) : Slots (releaseAll s order objs) :=
  releaseAll_induct (P := fun s _ => Slots s) (fun _ _ _ _ _ hs h => hs.released h) hs

theorem setFrames (hs : Slots s) (frames : List LocalFrame) :
    Slots (s.setFrames t frames) := { hs with }

theorem setTasks (hs : Slots s) (tasks : List Task) : Slots (s.setTasks t tasks) := { hs with }

theorem setStatic (hs : Slots s) (static_object_fields : Fields) :
    Slots { s with static_object_fields } := { hs with }

theorem setObject (hs : Slots s) {key : Handle} {object : Fields} (h : key ∈ s.object_storage) :
    Slots { s with object_storage := s.object_storage.insert key object } := by
  have hkeys : ∀ other, other ∈ s.object_storage.insert key object ↔ other ∈ s.object_storage := by
    intro other
    rw [AList.mem_insert]
    exact ⟨fun ho => ho.elim (· ▸ h) id, .inr⟩
  exact { hs with
    objects := fun other ho => hs.objects other ((hkeys other).1 ho)
    pointers := fun i key hkey => (hs.pointers i key hkey).imp_right (hkeys _).2 }

end Slots

/-- What a slot that is handed out leaves of the free ones. -/
structure Allocated (s : JniState) (point : Nat → Pointer) (type : SegmentType)
    (index : Nat) (s' : JniState) :
    Prop where
  state : ∃ free_slots jni_ref_index, s' =
    { s with
      my_segment := Function.update s.my_segment index (some (point index))
      segment_types := Function.update s.segment_types index type
      results := jniHandleFromIndex index :: s.results
      free_slots, jni_ref_index }
  fresh : ¬Occupied s (jniHandleFromIndex index)
  occupied : Occupied s' (jniHandleFromIndex index)
  keeps : ∀ {obj}, Occupied s obj → Occupied s' obj
  some_index : 0 < s'.jni_ref_index
  index_le : s'.jni_ref_index ≤ kJniSegmentCapacity
  nodup : s'.free_slots.Nodup
  free : ∀ i ∈ s'.free_slots, i ≠ index ∧ 0 < i ∧ i < s'.jni_ref_index ∧ s.my_segment i = none ∧
    s.segment_types i = .kEmpty

theorem Slots.allocated (hs : Slots s) {point : Nat → Pointer} {type : SegmentType}
    (h : allocateSegmentSlot s point type = some (index, s')) :
    Allocated s point type index s' := by
  unfold allocateSegmentSlot at h
  dsimp only at h
  split at h
  · next i free_slots hfree =>
    obtain ⟨rfl, rfl⟩ := Prod.mk.inj (Option.some.inj h)
    have hnodup := hs.nodup
    rw [hfree, List.nodup_cons] at hnodup
    have hmem : ∀ j, j ∈ free_slots → j ∈ s.free_slots :=
      fun j hj => hfree ▸ List.mem_cons_of_mem _ hj
    obtain ⟨hpos, hlt, -, -⟩ := hs.free i (hfree ▸ List.mem_cons_self)
    constructor
    · exact ⟨_, _, rfl⟩
    · rintro ⟨j, hj, -, -, hin⟩
      rw [← handleFromIndex_injective hj, hfree] at hin
      exact hin List.mem_cons_self
    · exact ⟨i, rfl, hpos, hlt, hnodup.1⟩
    · rintro _ ⟨j, rfl, hj, hjlt, hjfree⟩
      exact ⟨j, rfl, hj, hjlt, fun hmem' => hjfree (hmem j hmem')⟩
    · exact hs.some_index
    · exact hs.index_le
    · exact hnodup.2
    · intro j hj
      refine ⟨?_, hs.free j (hmem j hj)⟩
      rintro rfl
      exact hnodup.1 hj
  · next hfree =>
    split at h
    · next hindex =>
      obtain ⟨rfl, rfl⟩ := Prod.mk.inj (Option.some.inj h)
      constructor
      · exact ⟨_, _, rfl⟩
      · rintro ⟨j, hj, -, hlt, -⟩
        rw [← handleFromIndex_injective hj] at hlt
        exact Nat.lt_irrefl _ hlt
      · exact ⟨s.jni_ref_index, rfl, hs.some_index, Nat.lt_succ_self _,
          by rw [hfree]; exact List.not_mem_nil⟩
      · rintro _ ⟨j, rfl, hj, hjlt, hjfree⟩
        exact ⟨j, rfl, hj, Nat.lt_succ_of_lt hjlt, hjfree⟩
      · exact Nat.succ_pos _
      · exact hindex.2
      · exact hs.nodup
      · intro j hj
        obtain ⟨hj0, hjlt, hrest⟩ := hs.free j hj
        exact ⟨Nat.ne_of_lt hjlt, hj0, Nat.lt_succ_of_lt hjlt, hrest⟩
    · cases h

/-- The slot is as its pointer says once what it points to is stored. -/
theorem Slots.fill {point : Nat → Pointer} {type : SegmentType} (hs : Slots s)
    (ha : Allocated s point type index u) (objects : AList fun _ : Handle => Fields)
    (classes : List Handle)
    (class_handles : Nat → Option Handle)
    (hobjects : ∀ key, key ∈ objects → key ∈ s.object_storage ∨ key = jniHandleFromIndex index)
    (hkept : ∀ key ∈ s.object_storage, key ∈ objects)
    (hclasses : ∀ obj ∈ s.known_classes, obj ∈ classes)
    (hpoint : ∀ key, point index = .object key → key = jniHandleFromIndex index ∧ key ∈ objects) :
    Slots { u with object_storage := objects, known_classes := classes, class_handles } := by
  obtain ⟨free_slots, jni_ref_index, rfl⟩ := ha.state
  constructor
  · exact ha.some_index
  · exact ha.index_le
  · exact ha.nodup
  · intro i hi
    obtain ⟨hne, hpos, hlt, hnone, hempty⟩ := ha.free i hi
    refine ⟨hpos, hlt, ?_, ?_⟩
    · exact (Function.update_of_ne hne ..).trans hnone
    · exact (Function.update_of_ne hne ..).trans hempty
  · intro obj hobj
    obtain harr | hc | hsing | hout | hocc := hs.counted obj hobj
    · exact .inl harr
    · exact .inr (.inl (hclasses obj hc))
    · exact .inr (.inr (.inl hsing))
    · exact .inr (.inr (.inr (.inl hout)))
    · exact .inr (.inr (.inr (.inr (ha.keeps hocc))))
  · intro key hkey
    obtain hkey | rfl := hobjects key hkey
    · exact ha.keeps (hs.objects key hkey)
    · exact ha.occupied
  · intro i key hkey
    by_cases hi : i = index
    · subst hi
      have hkey : Function.update s.my_segment i (some (point i)) i = some (.object key) := hkey
      rw [Function.update_self, Option.some.injEq] at hkey
      exact hpoint key hkey
    · have hkey : Function.update s.my_segment index (some (point index)) i =
          some (.object key) := hkey
      rw [Function.update_of_ne hi] at hkey
      exact (hs.pointers i key hkey).imp_right (hkept key)
  · intro obj hobj
    obtain rfl | hobj := List.mem_cons.1 hobj
    · exact ha.occupied
    · exact ha.keeps (hs.results obj hobj)
  · exact List.nodup_cons.2 ⟨fun hmem => ha.fresh (hs.results _ hmem), hs.results_nodup⟩

namespace Slots

theorem storeClass (hs : Slots s) (cls : Nat) : Slots (storeClass s cls).1 := by
  unfold References.storeClass
  split
  · exact hs
  · split
    · exact hs
    · next index u hu =>
      have ha := hs.allocated hu
      obtain ⟨free_slots, jni_ref_index, rfl⟩ := ha.state
      exact hs.fill ha _ _ _ (fun _ h => .inl h) (fun _ h => h)
        (fun _ h => List.mem_cons_of_mem _ h) nofun

/-- A new object takes the place of none. -/
theorem storeObject_cases (hs : Slots s) (order : MapOrder) (t : Thread) :
    storeObject s order t = (s, 0) ∨
      ∃ index u, Allocated s (.object <| jniHandleFromIndex ·) .kObject index u ∧
        storeObject s order t =
          (registerLocalRef
            { u with
              object_storage := s.object_storage.insert (jniHandleFromIndex index) ∅
              jni_ref_counts :=
                Function.update s.jni_ref_counts (jniHandleFromIndex index) (some 1) }
            t (jniHandleFromIndex index), jniHandleFromIndex index) := by
  unfold References.storeObject
  split
  · exact .inl rfl
  · next index u hu =>
    have ha := hs.allocated hu
    refine .inr ⟨index, u, ha, ?_⟩
    obtain ⟨free_slots, jni_ref_index, rfl⟩ := ha.state
    have hnone : s.object_storage.lookup (jniHandleFromIndex index) = none :=
      AList.lookup_eq_none.2 fun hmem => ha.fresh (hs.objects _ hmem)
    dsimp only
    rw [hnone, Option.elim_none, releaseAll_nil]

theorem storeObject (hs : Slots s) : Slots (storeObject s order t).1 := by
  obtain h | ⟨index, u, ha, h⟩ := hs.storeObject_cases order t
  · rw [h]
    exact hs
  · rw [h]
    dsimp only
    have hfill :=
      hs.fill ha (s.object_storage.insert (jniHandleFromIndex index) ∅)
        s.known_classes u.class_handles
      (fun key hkey => (AList.mem_insert _).1 hkey |>.symm)
      (fun key hkey => (AList.mem_insert _).2 (.inr hkey))
      (fun _ h => h) fun key hkey => by
        obtain rfl := Pointer.object.inj hkey
        exact ⟨rfl, (AList.mem_insert _).2 (.inl rfl)⟩
    obtain ⟨free_slots, jni_ref_index, rfl⟩ := id ha.state
    exact (hfill.recount 1 (.inr (.inr (.inr (.inr ha.occupied))))).register

theorem singletonObject (hs : Slots s) (class_name : Utf8.Bytes) :
    Slots (singletonObject s order t class_name).1 := by
  unfold References.singletonObject
  split
  · exact hs
  · exact hs.storeObject.mark _ _

theorem storeArray (hs : Slots s) (address : Handle) (objects : List Handle) :
    Slots (storeArray s t address objects) := by
  have hstored : Slots { s with array_storage := s.array_storage.insert address objects } :=
    { hs with counted := fun obj hobj => (hs.counted obj hobj).imp_left fun h =>
      (AList.mem_insert _).2 (.inr h) }
  exact (hstored.recount 1 (.inl ((AList.mem_insert _).2 (.inl rfl)))).register

theorem retainTimes (hs : Slots s) (h : Retainable s obj) (n : Nat) :
    Slots (retainTimes obj n s) := by
  induction n generalizing s with
  | zero => exact hs
  | succ n ih => exact ih (hs.retain h) (h.retain obj)

theorem newLocal (hs : Slots s) (h : Retainable s obj) : Slots (newLocalJniReference s t obj) :=
  (hs.retain h).register

theorem popLocal (hs : Slots s) (h : Retainable s obj) : Slots (popLocalJniFrame s order t obj) :=
  ((hs.retain h).setFrames _).setTasks _

theorem setField (hs : Slots s) {field_name : Option Utf8.Bytes}
    (h : (fieldOf s obj field_name).isSome → Retainable s value) :
    Slots (setObjectFieldRaw s order obj field_name value) := by
  unfold setObjectFieldRaw
  split
  · exact hs
  · next key object name hfield =>
    have hkey : s.object_storage.lookup key = some object := fieldOf_lookup hfield
    refine Slots.releaseAll (Slots.setObject (hs.retain (h (by rw [hfield]; rfl))) ?_) _
    rw [retain_objects]
    exact AList.lookup_isSome.1 (by rw [hkey]; rfl)

end Slots

/-- The handles that the caller of a call has it retain. -/
def passed (s : JniState) : Op → List Handle
  | .makeObjectArray _ _ len init => List.replicate len.toNat init
  | .newLocalRef _ obj | .newGlobalRef _ obj => [obj]
  | .popLocalJniFrame _ result => [result]
  | .setObjectFieldRaw _ obj field_name value =>
    ((fieldOf s obj field_name).map fun _ => value).toList
  | .setStaticObjectFieldRaw _ name value => (name.map fun _ => value).toList
  | _ => []

/-- What a read of a field retains. -/
def found (s : JniState) : Op → List Handle
  | .objectFieldValue _ obj field_name =>
    ((fieldOf s obj field_name).bind fun (_, object, name) => object.lookup name).toList
  | .staticObjectFieldValue _ name => (name.bind s.static_object_fields.lookup).toList
  | _ => []

/-- What a call retains, besides what it stores itself. -/
def retained (s : JniState) (op : Op) : List Handle := passed s op ++ found s op

theorem slots_call (hs : Slots s) (h : ∀ obj ∈ retained s op, Retainable s obj) :
    Slots (call s order op) := by
  cases op with
  | storeObject t => exact hs.storeObject
  | storeClass t cls => exact hs.storeClass cls
  | singletonObject t class_name => exact hs.singletonObject class_name
  | markSingletonHandle t obj => exact hs.mark obj _
  | makeByteArray t address => exact hs.storeArray address []
  | makeFloatArray t address => exact hs.storeArray address []
  | makeObjectArray t address len init =>
    by_cases hlen : len.toNat = 0
    · rw [call, makeObjectArray, hlen]
      exact hs.storeArray address []
    · have hinit := h init (List.mem_append_left _ (List.mem_replicate.2 ⟨hlen, rfl⟩))
      exact (hs.retainTimes hinit _).storeArray address _
  | newLocalRef t obj => exact hs.newLocal (h obj List.mem_cons_self)
  | deleteLocalRef t obj => exact hs.unregister.releaseAll [obj]
  | newGlobalRef t obj =>
    have hret := hs.retain (h obj List.mem_cons_self)
    exact { hret with }
  | deleteGlobalRef t obj =>
    have hglobals : Slots { s with globals := s.globals.erase obj } := { hs with }
    exact hglobals.releaseAll [obj]
  | pushLocalJniFrame t => exact hs.setFrames _
  | popLocalJniFrame t result => exact hs.popLocal (h result List.mem_cons_self)
  | releaseThreadLocalRefs t => exact (hs.setFrames _).setTasks _
  | setObjectFieldRaw t obj field_name value =>
    refine hs.setField fun hsome => h value ?_
    obtain ⟨field, hfield⟩ := Option.isSome_iff_exists.1 hsome
    rw [retained, passed, hfield]
    exact List.mem_cons_self
  | objectFieldValue t obj field_name =>
    rw [call, objectFieldValue]
    split
    · exact hs
    · next key object name hfield =>
      split
      · exact hs
      · next value hvalue =>
        refine hs.newLocal (h value ?_)
        rw [retained, found, hfield, Option.bind_some]
        dsimp only
        rw [hvalue]
        exact List.mem_cons_self
  | setStaticObjectFieldRaw t name value =>
    cases name with
    | none => exact hs
    | some name =>
      have hret := hs.retain (h value List.mem_cons_self)
      exact Slots.releaseAll (hret.setStatic _) _
  | staticObjectFieldValue t name =>
    rw [call, staticObjectFieldValue]
    split
    · exact hs
    · next value hvalue =>
      refine hs.newLocal (h value ?_)
      rw [retained, found, hvalue]
      exact List.mem_cons_self
  | resume t => exact hs

/-- One step does what its call does, or one of the things its thread has left to do. -/
theorem step_cases (h : step s order op = some s') :
    (∃ t task tasks, op = .resume t ∧ s.tasks t = task :: tasks ∧
      s' = perform (s.setTasks t tasks) order t task) ∨
      (∀ t, op ≠ .resume t) ∧ s.tasks op.thread = [] ∧
        (∀ address ∈ op.address, address ≠ 0 ∧ address ∉ s.array_storage) ∧
          s' = call s order op := by
  unfold step at h
  split at h
  · next t task tasks htasks => exact .inl ⟨t, task, tasks, rfl, htasks, (Option.some.inj h).symm⟩
  · cases h
  · cases h
  · next hresume htasks =>
    split at h
    · next haddress => exact .inr ⟨fun t => hresume t, htasks, haddress, (Option.some.inj h).symm⟩
    · cases h

/-- Every handle a step retains still stands for something, or frees nothing. -/
def RetainsLive (s : JniState) (label : MapOrder × Op) : Prop :=
  ∀ obj ∈ retained s label.2, Retainable s obj

theorem slots_step (hs : Slots s) (h : ∀ obj ∈ retained s op, Retainable s obj)
    (hstep : step s order op = some s') :
    Slots s' := by
  obtain ⟨t, task, tasks, rfl, -, rfl⟩ | ⟨-, -, -, rfl⟩ := step_cases hstep
  · cases task with
    | release obj => exact (hs.setTasks tasks).releaseAll [obj]
    | register obj => exact (hs.setTasks tasks).register
  · exact slots_call hs h

theorem slots_reachable (h : (references.restrict RetainsLive).Reachable s) : Slots s := by
  refine h.invariant ?_ ?_
  · rintro _ rfl
    exact slots_initial
  · rintro s label s' ⟨hstep, hlive⟩ hs
    exact slots_step hs hlive hstep

/-- The free slots are apart from the used ones, and no two results that are still there share a
handle. -/
structure Partition (s : JniState) : Prop where
  nodup : s.free_slots.Nodup
  free : ∀ i ∈ s.free_slots, i < s.jni_ref_index ∧ s.my_segment i = none ∧
    s.segment_types i = .kEmpty
  results : s.results.Nodup

/-- While no step retains a handle that has lost its count, the table stays a partition. -/
theorem slots_partition (h : (references.restrict RetainsLive).Reachable s) : Partition s where
  nodup := (slots_reachable h).nodup
  free i hi := ((slots_reachable h).free i hi).2
  results := (slots_reachable h).results_nodup

instance : DecidablePred OutOfTable := fun _ => inferInstanceAs (Decidable (¬_))

instance (s : JniState) (obj : Handle) : Decidable (Retainable s obj) :=
  inferInstanceAs (Decidable (_ ∨ _ ∨ _ ∨ _ ∨ _))

instance (s : JniState) (label : MapOrder × Op) : Decidable (RetainsLive s label) :=
  inferInstanceAs (Decidable (∀ obj ∈ retained s label.2, Retainable s obj))

def liveStep (s : JniState) (label : MapOrder × Op) : Option JniState :=
  if RetainsLive s label then step s label.1 label.2 else none

theorem liveStep_step (label : MapOrder × Op) (h : liveStep s label = some s') :
    (references.restrict RetainsLive).step s label s' := by
  rw [liveStep, Option.ite_none_right_eq_some] at h
  exact ⟨h.2, h.1⟩

/-- An object dies with its global reference, and a second one takes its slot. -/
theorem slots_partition_reused : ∃ s, s.results = [jniHandleFromIndex 1] ∧
    s.jni_ref_index = 2 ∧ Partition s := by
  have hrun : ∃ s,
      ([.storeObject 0, .newGlobalRef 0 65536, .deleteLocalRef 0 65536, .deleteGlobalRef 1 65536,
        .storeObject 1].map (MapOrder.stored, ·)).foldlM liveStep {} = some s ∧
      s.results = [jniHandleFromIndex 1] ∧ s.jni_ref_index = 2 := by
    refine ⟨_, rfl, ?_, ?_⟩ <;> decide
  obtain ⟨s, hs, hresults, hindex⟩ := hrun
  exact ⟨s, hresults, hindex,
    slots_partition ⟨_, _, rfl, LTS.Run.of_foldlM (fun _ label _ => liveStep_step label) hs⟩⟩

/-- A global reference made of a dead object frees its slot a second time. -/
theorem slots_partition_stale : ¬∀ s, references.Reachable s → Partition s := by
  have hrun : ∃ s,
      ([.storeObject 0, .deleteLocalRef 0 65536, .newGlobalRef 0 65536, .deleteGlobalRef 0 65536,
        .storeObject 0, .storeObject 0].map (MapOrder.stored, ·)).foldlM
        (fun s (label : MapOrder × Op) => step s label.1 label.2) {} = some s ∧
      s.results = [jniHandleFromIndex 1, jniHandleFromIndex 1] := by
    refine ⟨_, rfl, ?_⟩
    decide
  obtain ⟨s, hs, hresults⟩ := hrun
  intro h
  have hpart := h s ⟨_, _, rfl, LTS.Run.of_foldlM (fun _ _ _ hstep => hstep) hs⟩
  exact absurd hpart.results (by rw [hresults]; decide)

end Nightcap.Jni.References
