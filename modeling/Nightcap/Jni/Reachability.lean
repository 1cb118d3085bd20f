import Nightcap.Jni.ReferenceCounts
import Nightcap.Lib.Ancestry

/-! What the handle table keeps: everything that can still be reached, and beyond that only what
cycles hold. -/
namespace Nightcap.Jni.References

open Transition Holdings Relation Ancestry

variable {s : JniState} {a b obj : Handle}

theorem mem_held {α β γ : Type} [DecidableEq α] {f : β → Multiset γ}
    {m : AList fun _ : α => β} {c : γ} :
    c ∈ held f m ↔ ∃ a b, m.lookup a = some b ∧ c ∈ f b := by
  have hjoin : held f m = Multiset.join (m.entries.map fun e => f e.2 : List (Multiset γ)) :=
    (Multiset.sum_coe _).symm
  rw [hjoin, Multiset.mem_join]
  constructor
  · rintro ⟨part, hpart, hc⟩
    obtain ⟨⟨a, b⟩, he, rfl⟩ := List.mem_map.1 hpart
    exact ⟨a, b, AList.mem_lookup_iff.2 he, hc⟩
  · rintro ⟨a, b, hlookup, hc⟩
    exact ⟨f b, List.mem_map.2 ⟨⟨a, b⟩, AList.mem_lookup_iff.1 hlookup, rfl⟩, hc⟩

/-- An object's field or an array's element. -/
def Refers (s : JniState) (a b : Handle) : Prop :=
  (∃ object, s.object_storage.lookup a = some object ∧ b ∈ fieldValues object) ∨
    ∃ elements, s.array_storage.lookup a = some elements ∧ b ∈ elements

/-- What refers to a handle besides the ordinary objects and arrays: a frame, a global or a static
reference, a call in progress, or what is kept forever. -/
def Root (s : JniState) (a : Handle) : Prop :=
  a ∈ locals s + (s.globals : List Handle) + fieldValues s.static_object_fields + inFlight s ∨
    (IsStored s a ∧ ¬Ordinary s a)

theorem mem_stored : b ∈ stored s ↔ ∃ a, Refers s a b := by
  rw [stored, Multiset.mem_add, mem_held, mem_held]
  exact exists_or.symm

theorem Refers.isStored (h : Refers s a b) : IsStored s a := by
  obtain ⟨object, hobject, -⟩ | ⟨elements, helements, -⟩ := h
  · exact .inl (AList.lookup_isSome.1 (by rw [hobject]; rfl))
  · exact .inr (AList.lookup_isSome.1 (by rw [helements]; rfl))

theorem finite_stored (s : JniState) : {obj | IsStored s obj}.Finite := by
  refine (List.finite_toSet (s.object_storage.keys ++ s.array_storage.keys)).subset fun obj hobj =>
    ?_
  exact List.mem_append.2 hobj

theorem mem_owners : b ∈ owners s + inFlight s ↔
    b ∈ locals s + (s.globals : List Handle) + fieldValues s.static_object_fields + inFlight s ∨
      ∃ a, Refers s a b := by
  rw [← mem_stored, owners]
  simp only [Multiset.mem_add]
  tauto

/-- An ordinary object or array is kept exactly as long as it can be reached, or hangs on a
cycle. -/
theorem stored_iff_reached (h : disciplinedRuns.Reachable s) (hobj : Ordinary s obj) :
    IsStored s obj ↔ (∃ a, Root s a ∧ ReflTransGen (Refers s) a obj) ∨
      ∃ c, TransGen (Refers s) c c ∧ ReflTransGen (Refers s) c obj := by
  have hcounts := (counted_reachable h).2.countsOwners
  constructor
  · intro hstored
    have hfinite : {x | IsStored s x ∧ Ordinary s x}.Finite :=
      (finite_stored s).subset fun x hx => hx.1
    refine root_or_cycle hfinite ?_ ⟨hstored, hobj⟩
    · rintro b ⟨hb, hordinary⟩
      obtain hroot | ⟨a, ha⟩ := mem_owners.1 (Multiset.count_pos.1 ((hcounts b hordinary).2.1 hb))
      · exact .inl (.inl hroot)
      · refine .inr ⟨a, ?_, ha⟩
        by_cases hkept : Ordinary s a
        · exact .inr ⟨ha.isStored, hkept⟩
        · exact .inl (.inr ⟨ha.isStored, hkept⟩)
  · have hreferred : ∀ a, Refers s a obj → IsStored s obj := fun a ha =>
      (hcounts obj hobj).2.2 (Multiset.count_pos.2 (mem_owners.2 (.inr ⟨a, ha⟩)))
    have hpath : ∀ c, TransGen (Refers s) c obj → IsStored s obj := by
      intro c hc
      obtain ⟨a, -, ha⟩ := TransGen.tail'_iff.1 hc
      exact hreferred a ha
    rintro (⟨a, hroot, hreach⟩ | ⟨c, hcycle, hreach⟩)
    · obtain rfl | hc := reflTransGen_iff_eq_or_transGen.1 hreach
      · obtain howned | ⟨-, hkept⟩ := hroot
        · exact (hcounts _ hobj).2.2 (Multiset.count_pos.2 (mem_owners.2 (.inl howned)))
        · exact absurd hobj hkept
      · exact hpath a hc
    · obtain rfl | hc := reflTransGen_iff_eq_or_transGen.1 hreach
      · exact hpath _ hcycle
      · exact hpath c hc

/-- An object that refers to itself stays when the frame it was made in is gone. -/
theorem stored_iff_reached_self :
    ∃ s, locals s = 0 ∧ IsStored s 65536 ∧ ∃ c, TransGen (Refers s) c c ∧
      ReflTransGen (Refers s) c 65536 := by
  have hrun : ∃ s,
      ([.pushLocalJniFrame 0, .storeObject 0, .setObjectFieldRaw 0 65536 (some []) 65536,
          .popLocalJniFrame 0 0, .resume 0, .resume 0].map (MapOrder.stored, ·)).foldlM
        disciplinedStep {} = some s ∧
      locals s = 0 ∧ Ordinary s 65536 ∧ IsStored s 65536 ∧ ¬IsStored s 0 ∧
        s.known_classes = [] ∧ s.singleton_handles = [] ∧
        locals s + (s.globals : List Handle) + fieldValues s.static_object_fields +
          inFlight s = 0 := by
    refine ⟨_, rfl, ?_, ?_, ?_, ?_, ?_, ?_, ?_⟩ <;> decide
  obtain ⟨s, hs, hlocals, hordinary, hstored, hnull, hclasses, hsingles, hroots⟩ := hrun
  have hreach : disciplinedRuns.Reachable s :=
    ⟨_, _, rfl, LTS.Run.of_foldlM (fun _ label _ => disciplinedStep_step label) hs⟩
  refine ⟨s, hlocals, hstored, ?_⟩
  obtain ⟨a, hroot | ⟨ha, hkept⟩, -⟩ | hcycle := (stored_iff_reached hreach hordinary).1 hstored
  · rw [hroots] at hroot
    exact absurd hroot (Multiset.notMem_zero a)
  · refine absurd ⟨?_, ?_, ?_⟩ hkept
    · rintro rfl
      exact hnull ha
    · simp [hclasses]
    · simp [hsingles]
  · exact hcycle

end Nightcap.Jni.References
