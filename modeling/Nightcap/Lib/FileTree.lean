import Nightcap.Lib.Utf8

/-! File trees: entries, and directories as lists of named entries. -/
namespace FileTree

open Utf8

inductive Entry
  | regular (contents : Bytes)
  | directory (entries : List (Bytes × Entry))
  | symlink (target : Option Entry)
  | special

abbrev Directory := List (Bytes × Entry)

namespace Directory

variable {d : Directory} {name other : Bytes} {e : Entry}

def erase (d : Directory) (name : Bytes) : Directory := d.filter (·.1 ≠ name)

def set (d : Directory) (name : Bytes) (e : Entry) : Directory := (name, e) :: erase d name

@[simp] theorem lookup_erase_self : (erase d name).lookup name = none := by
  rw [List.lookup_eq_none_iff]
  intro p hp
  have hne : p.1 ≠ name := by simpa using (List.mem_filter.1 hp).2
  simpa using hne.symm

theorem lookup_erase_ne (h : other ≠ name) : (erase d name).lookup other = d.lookup other := by
  induction d with
  | nil => rfl
  | cons p d ih =>
    obtain ⟨k, v⟩ := p
    by_cases hk : k = name
    · have hb : (other == k) = false := by simpa [hk] using h
      rw [List.lookup_cons, hb, ← ih, erase, List.filter_cons_of_neg (by simpa using hk)]
      rfl
    · rw [erase, List.filter_cons_of_pos (by simpa using hk), List.lookup_cons, List.lookup_cons,
        ← ih]
      rfl

@[simp] theorem lookup_set_self : (set d name e).lookup name = some e := by
  simp [set]

theorem lookup_set_ne (h : other ≠ name) : (set d name e).lookup other = d.lookup other := by
  have hb : (other == name) = false := by simpa using h
  rw [set, List.lookup_cons, hb]
  exact lookup_erase_ne h

end Directory

/-- What stands at the end of a chain of links. -/
def Entry.follow : Entry → Option Entry
  | .symlink (some target) => target.follow
  | .symlink none => none
  | e => some e

/-- The entry a relative path leads to. Links are followed on the way, not at the end. -/
def Entry.at (e : Entry) : List Bytes → Option Entry
  | [] => some e
  | name :: path =>
    match e.follow with
    | some (.directory entries) =>
      match entries.lookup name with
      | some child => child.at path
      | none => none
    | _ => none

/-- Whether opening the path finds anything, links followed. -/
def resolves : Option Entry → Bool
  | none => false
  | some e => e.follow.isSome

/-- Whether `rename` puts a source onto this target: a directory replaces an empty directory only,
anything else replaces what is not a directory. -/
def Entry.renames : Entry → Option Entry → Bool
  | _, none => true
  | .directory _, some (.directory entries) => entries.isEmpty
  | .directory _, some _ => false
  | _, some (.directory _) => false
  | _, some _ => true

/-- What a directory holds at a path, however deep; no link is followed. -/
inductive Stands : Directory → List Bytes → Entry → Prop
  | here {d : Directory} {name : Bytes} {e : Entry} (h : (name, e) ∈ d) : Stands d [name] e
  | inside {d below : Directory} {name : Bytes} {path : List Bytes} {e : Entry}
      (h : (name, .directory below) ∈ d) (hb : Stands below path e) : Stands d (name :: path) e

/-- What an entry is or holds. -/
def Entry.Holds (e₀ : Entry) (path : List Bytes) (e : Entry) : Prop :=
  (path = [] ∧ e = e₀) ∨ ∃ d, e₀ = .directory d ∧ Stands d path e

/-- Neither a link nor anything special. -/
def Entry.Plain (e : Entry) : Prop := (∃ contents, e = .regular contents) ∨ ∃ d, e = .directory d

/-- What may be the name of an entry: not empty, and without slash and NUL. -/
def ValidName (name : Bytes) : Prop := name ≠ [] ∧ 47 ∉ name ∧ 0 ∉ name

mutual

/-- Every directory gives its entries valid names, and no two the same. -/
def Entry.WellFormed : Entry → Prop
  | .directory entries => WellNamed entries
  | _ => True

def WellNamed : List (Bytes × Entry) → Prop
  | [] => True
  | (name, e) :: entries =>
    ValidName name ∧ name ∉ entries.map Prod.fst ∧ e.WellFormed ∧ WellNamed entries

end

section Stands

variable {d below : Directory} {name : Bytes} {path : List Bytes} {e e' : Entry}

theorem WellNamed.of_mem (h : WellNamed d) (hm : (name, e) ∈ d) :
    ValidName name ∧ e.WellFormed := by
  induction d with
  | nil => cases hm
  | cons p d ih =>
    obtain ⟨n, e₀⟩ := p
    rw [WellNamed] at h
    rcases List.mem_cons.1 hm with heq | hm
    · cases heq
      exact ⟨h.1, h.2.2.1⟩
    · exact ih h.2.2.2 hm

theorem WellNamed.validName (h : WellNamed d) (hm : (name, e) ∈ d) : ValidName name :=
  (h.of_mem hm).1

theorem WellNamed.directory (h : WellNamed d) (hm : (name, .directory below) ∈ d) :
    WellNamed below := by
  have hwf := (h.of_mem hm).2
  rwa [Entry.WellFormed] at hwf

theorem WellNamed.unique (h : WellNamed d) (hm : (name, e) ∈ d) (hm' : (name, e') ∈ d) :
    e = e' := by
  induction d with
  | nil => cases hm
  | cons p d ih =>
    obtain ⟨n, e₀⟩ := p
    obtain ⟨_, hn, _, hd⟩ := h
    rcases List.mem_cons.1 hm with heq | hin <;> rcases List.mem_cons.1 hm' with heq' | hin'
    · cases heq
      cases heq'
      rfl
    · cases heq
      exact absurd (List.mem_map.2 ⟨_, hin', rfl⟩) hn
    · cases heq'
      exact absurd (List.mem_map.2 ⟨_, hin, rfl⟩) hn
    · exact ih hd hin hin'

theorem Stands.ne_nil (h : Stands d path e) : path ≠ [] := by
  cases h <;> exact List.cons_ne_nil _ _

theorem Stands.names (h : Stands d path e) (hd : WellNamed d) : ∀ n ∈ path, ValidName n := by
  induction h with
  | here hm =>
    rintro n hn
    obtain rfl := List.mem_singleton.1 hn
    exact hd.validName hm
  | inside hm _ ih =>
    rw [List.forall_mem_cons]
    exact ⟨hd.validName hm, ih (hd.directory hm)⟩

/-- A path leads to one entry. -/
theorem Stands.unique (h : Stands d path e) (h' : Stands d path e') (hd : WellNamed d) :
    e = e' := by
  induction h with
  | here hm =>
    cases h' with
    | here hm' => exact hd.unique hm hm'
    | inside _ hb => exact absurd rfl hb.ne_nil
  | inside hm hb ih =>
    cases h' with
    | here => exact absurd rfl hb.ne_nil
    | inside hm' hb' =>
      obtain rfl := Entry.directory.inj (hd.unique hm hm')
      exact ih hb' (hd.directory hm)

theorem stands_nil : ¬ Stands [] path e := by
  rintro (hm | ⟨hm, _⟩) <;> cases hm

/-- What stands in a directory stands in its first entry or in the others. -/
theorem stands_cons {e₀ : Entry} : Stands ((name, e₀) :: d) path e ↔
    (∃ rest, path = name :: rest ∧ e₀.Holds rest e) ∨ Stands d path e := by
  constructor
  · intro h
    cases h with
    | here hm =>
      rcases List.mem_cons.1 hm with heq | hm
      · cases heq
        exact .inl ⟨[], rfl, .inl ⟨rfl, rfl⟩⟩
      · exact .inr (.here hm)
    | inside hm hb =>
      rcases List.mem_cons.1 hm with heq | hm
      · cases heq
        exact .inl ⟨_, rfl, .inr ⟨_, rfl, hb⟩⟩
      · exact .inr (.inside hm hb)
  · rintro (⟨rest, rfl, ⟨rfl, rfl⟩ | ⟨below, rfl, hb⟩⟩ | h)
    · exact .here List.mem_cons_self
    · exact .inside List.mem_cons_self hb
    · cases h with
      | here hm => exact .here (.tail _ hm)
      | inside hm hb => exact .inside (.tail _ hm) hb

theorem holds_directory : (Entry.directory d).Holds path e ↔
    (path = [] ∧ e = .directory d) ∨ Stands d path e := by
  constructor
  · rintro (h | ⟨_, heq, hb⟩)
    · exact .inl h
    · obtain rfl := Entry.directory.inj heq
      exact .inr hb
  · rintro (h | h)
    · exact .inl h
    · exact .inr ⟨d, rfl, h⟩

theorem Entry.Holds.names {e₀ : Entry} (h : e₀.Holds path e) (hd : e₀.WellFormed) :
    ∀ n ∈ path, ValidName n := by
  rcases h with ⟨rfl, _⟩ | ⟨below, rfl, hb⟩
  · nofun
  · rw [Entry.WellFormed] at hd
    exact hb.names hd

/-- The first name on a path is that of an entry. -/
theorem Stands.head {rest : List Bytes} (h : Stands d (name :: rest) e) :
    name ∈ d.map Prod.fst := by
  cases h with
  | here hm => exact List.mem_map.2 ⟨_, hm, rfl⟩
  | inside hm => exact List.mem_map.2 ⟨_, hm, rfl⟩

end Stands

/-- A directory as a file system has it. -/
structure Tree where
  entries : Directory
  named : WellNamed entries

namespace Tree

def root (t : Tree) : Entry := .directory t.entries

/-- The regular files of a tree, by path and contents. -/
def files (t : Tree) : Set (List Bytes × Bytes) := {f | Stands t.entries f.1 (.regular f.2)}

/-- A tree of regular files and directories only. -/
def Plain (t : Tree) : Prop := ∀ path e, Stands t.entries path e → e.Plain

end Tree

end FileTree
