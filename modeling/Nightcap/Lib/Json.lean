import Nightcap.Lib.Ascii

/-! JSON documents, and what a printer and a parser for them promise each other. -/

/-- A document tree. Signed and unsigned integers are kept apart, and an object lists its fields in
key order. -/
inductive Json
  | null
  | bool (b : Bool)
  | unsigned (n : UInt64)
  | integer (n : Int64)
  | float (bits : UInt64)
  | string (s : Utf8.Bytes)
  | array (elements : List Json)
  | object (fields : List (Utf8.Bytes × Json))

namespace Json

open Utf8

/-- Adds a field in key order; a key already present keeps its value. -/
def insertField (k : Bytes) (v : Json) : List (Bytes × Json) → List (Bytes × Json)
  | [] => [(k, v)]
  | (k', v') :: fields =>
    if k = k' then (k', v') :: fields
    else if k < k' then (k, v) :: (k', v') :: fields
    else (k', v') :: insertField k v fields

/-- An object from its fields in any order. -/
def ofFields (fields : List (Bytes × Json)) : Json :=
  .object (fields.foldl (fun fs f => insertField f.1 f.2 fs) [])

/-- The field of an object. -/
def field? (k : Bytes) : Json → Option Json
  | .object fields => fields.lookup k
  | _ => none

mutual

/-- Every string of the tree, keys included, is well-formed UTF-8. -/
def Textual : Json → Prop
  | .string s => WellFormed s
  | .array elements => TextualList elements
  | .object fields => TextualFields fields
  | _ => True

def TextualList : List Json → Prop
  | [] => True
  | j :: js => Textual j ∧ TextualList js

def TextualFields : List (Bytes × Json) → Prop
  | [] => True
  | (k, j) :: fields => WellFormed k ∧ Textual j ∧ TextualFields fields

end

mutual

/-- The tree read back from its own text: a non-negative integer literal reads as unsigned. -/
def reread : Json → Json
  | .integer n => if 0 ≤ n then .unsigned n.toUInt64 else .integer n
  | .array elements => .array (rereadList elements)
  | .object fields => .object (rereadFields fields)
  | j => j

def rereadList : List Json → List Json
  | [] => []
  | j :: js => reread j :: rereadList js

def rereadFields : List (Bytes × Json) → List (Bytes × Json)
  | [] => []
  | (k, j) :: fields => (k, reread j) :: rereadFields fields

end

/-- A JSON library: `dump` fails by raising an error, `parse` by discarding the text. -/
structure Library where
  dump : Json → Option Bytes
  parse : Bytes → Option Json

/-- The documented behaviour at one document: it prints exactly when its strings are UTF-8, and the
text reads back as the same document. -/
def Library.FaithfulAt (json : Library) (document : Json) : Prop :=
  ((json.dump document).isSome ↔ document.Textual) ∧
    ∀ text, json.dump document = some text → json.parse text = some document.reread

/-- What is printed reads back as the same document, which prints the same. -/
def Library.RoundTrips (json : Library) (document : Json) : Prop :=
  ∀ text, json.dump document = some text →
    json.parse text = some document.reread ∧ json.dump document.reread = some text

theorem textualList_iff {js : List Json} : TextualList js ↔ ∀ j ∈ js, Textual j := by
  induction js with
  | nil => simp [TextualList]
  | cons j js ih => simp [TextualList, ih]

theorem rereadList_eq (js : List Json) : rereadList js = js.map reread := by
  induction js with
  | nil => rfl
  | cons j js ih => simp [rereadList, ih]

variable {k key : Bytes} {v : Json} {fields acc : List (Bytes × Json)}

theorem lookup_cons_ite :
    List.lookup key ((k, v) :: fields) = if key = k then some v else fields.lookup key := by
  rw [List.lookup_cons]
  by_cases h : key = k
  · simp [h]
  · rw [beq_false_of_ne h, if_neg h]

theorem lookup_insertField (h : fields.lookup k = none) :
    (insertField k v fields).lookup key = if key = k then some v else fields.lookup key := by
  induction fields with
  | nil => exact lookup_cons_ite
  | cons f fields ih =>
    obtain ⟨k', v'⟩ := f
    rw [lookup_cons_ite] at h
    have hne : k ≠ k' := by
      rintro rfl
      simp at h
    rw [if_neg hne] at h
    rw [insertField, if_neg hne]
    split
    · exact lookup_cons_ite
    · rw [lookup_cons_ite, lookup_cons_ite, ih h]
      by_cases hk : key = k'
      · subst hk
        simp [Ne.symm hne]
      · simp [hk]

theorem lookup_foldl_insertField (hn : (fields.map Prod.fst).Nodup)
    (ha : ∀ k ∈ fields.map Prod.fst, acc.lookup k = none) :
    (fields.foldl (fun fs f => insertField f.1 f.2 fs) acc).lookup key =
      (acc.lookup key).or (fields.lookup key) := by
  induction fields generalizing acc with
  | nil => simp
  | cons f fields ih =>
    obtain ⟨k, v⟩ := f
    obtain ⟨hnot, hn⟩ := List.nodup_cons.1 hn
    have hk : acc.lookup k = none := ha k List.mem_cons_self
    rw [List.foldl_cons, ih hn fun k' hk' => ?_, lookup_insertField hk, lookup_cons_ite]
    · by_cases he : key = k
      · subst he
        simp [hk]
      · simp [he]
    · rw [lookup_insertField hk, if_neg (ne_of_mem_of_not_mem hk' hnot)]
      exact ha k' (List.mem_cons_of_mem _ hk')

/-- An object built from fields with different keys has these fields. -/
theorem field?_ofFields (hn : (fields.map Prod.fst).Nodup) :
    (ofFields fields).field? key = fields.lookup key := by
  rw [ofFields, field?, lookup_foldl_insertField hn fun _ _ => rfl]
  rfl

theorem lookup_rereadFields :
    (rereadFields fields).lookup key = (fields.lookup key).map reread := by
  induction fields with
  | nil => rfl
  | cons f fields ih =>
    rw [rereadFields, List.lookup_cons, List.lookup_cons, ih]
    cases key == f.1 <;> rfl

/-- The fields of an object, read back. -/
theorem reread_ofFields (hn : (fields.map Prod.fst).Nodup) :
    ∃ fs, (ofFields fields).reread = .object fs ∧
    ∀ key, fs.lookup key = (fields.lookup key).map reread := by
  refine ⟨_, by rw [ofFields, reread], fun key => ?_⟩
  rw [lookup_rereadFields, ← field?_ofFields hn]
  rfl

theorem lookup_of_mem (hn : (fields.map Prod.fst).Nodup) (h : (k, v) ∈ fields) :
    fields.lookup k = some v := by
  induction fields with
  | nil => cases h
  | cons f fields ih =>
    obtain ⟨k', v'⟩ := f
    obtain ⟨hnot, hn⟩ := List.nodup_cons.1 hn
    rw [lookup_cons_ite]
    rcases List.mem_cons.1 h with heq | hin
    · cases heq
      rw [if_pos rfl]
    · have hne : k ≠ k' := by
        rintro rfl
        exact hnot (List.mem_map.2 ⟨_, hin, rfl⟩)
      rw [if_neg hne, ih hn hin]

theorem lookup_of_notMem (h : k ∉ fields.map Prod.fst) : fields.lookup k = none := by
  rw [List.lookup_eq_none_iff]
  intro f hf
  have hne : k ≠ f.1 := by
    rintro rfl
    exact h (List.mem_map.2 ⟨f, hf, rfl⟩)
  simpa using hne

theorem textualFields_insertField (hk : WellFormed k) (hv : v.Textual) (h : TextualFields fields) :
    TextualFields (insertField k v fields) := by
  induction fields with
  | nil => exact ⟨hk, hv, trivial⟩
  | cons f fields ih =>
    obtain ⟨k', v'⟩ := f
    obtain ⟨hk', hv', hrest⟩ := h
    unfold insertField
    split
    · exact ⟨hk', hv', hrest⟩
    · split
      · exact ⟨hk, hv, hk', hv', hrest⟩
      · exact ⟨hk', hv', ih hrest⟩

theorem textual_ofFields (h : TextualFields fields) : (ofFields fields).Textual := by
  have hfold : ∀ acc, TextualFields acc →
      TextualFields (fields.foldl (fun fs f => insertField f.1 f.2 fs) acc) := by
    induction fields with
    | nil => exact fun _ ha => ha
    | cons f fields ih =>
      obtain ⟨hk, hv, hrest⟩ := h
      exact fun acc ha => ih hrest _ (textualFields_insertField hk hv ha)
  rw [ofFields, Textual]
  exact hfold [] trivial

end Json
