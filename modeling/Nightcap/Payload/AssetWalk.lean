import Nightcap.Payload.AssetTree

/-! What the walk over an asset tree collects. -/
namespace Nightcap.Payload

open Utf8 Ascii FileTree Framing

variable {names rest : List Bytes} {name : Bytes} {e : Entry} {d : Directory}
  {stands : List Bytes → Entry → Prop} {files : List (Bytes × Bytes)}

/-- The walk lists each regular file once, or it refuses for an entry of another kind. -/
def Listed (names : List Bytes) (stands : List Bytes → Entry → Prop) :
    Except String (List (Bytes × Bytes)) → Prop
  | .ok files =>
    (∀ path e, stands path e → e.Plain) ∧ files.Nodup ∧
      ∀ f, f ∈ files ↔ ∃ path, stands path (.regular f.2) ∧ f.1 = joined 47 (names ++ path)
  | .error error => bytes error ≠ [] ∧ ∃ path e, stands path e ∧ ¬ e.Plain

theorem valid_append (hn : ∀ n ∈ names, ValidName n) (hr : ∀ n ∈ rest, ValidName n) :
    ∀ n ∈ names ++ rest, ValidName n :=
  List.forall_mem_append.2 ⟨hn, hr⟩

/-- Valid names can be told from the path they make. -/
theorem joined_names (hn : ∀ n ∈ names, ValidName n) (hr : ∀ n ∈ rest, ValidName n)
    (h : joined 47 names = joined 47 rest) : names = rest :=
  joined_injective (fun n h => ⟨(hn n h).1, (hn n h).2.1⟩) (fun n h => ⟨(hr n h).1, (hr n h).2.1⟩) h

theorem child_path (hn : ∀ n ∈ names, ValidName n) :
    (if (joined 47 names).isEmpty then name else joined 47 names ++ bytes "/" ++ name) =
      joined 47 (names ++ [name]) := by
  by_cases hempty : names = []
  · subst hempty
    rfl
  · have hne : joined 47 names ≠ [] := fun h =>
      hempty ((joined_eq_nil fun n h => (hn n h).1).1 h)
    rw [if_neg (by simpa using hne), joined_snoc hempty, List.append_assoc]
    rfl

theorem listed_regular {contents : Bytes} :
    Listed names (Entry.regular contents).Holds (.ok [(joined 47 names, contents)]) := by
  refine ⟨?_, List.nodup_singleton _, ?_⟩
  · rintro path e (⟨_, rfl⟩ | ⟨_, heq, _⟩)
    · exact .inl ⟨contents, rfl⟩
    · cases heq
  · rintro ⟨p, c⟩
    rw [List.mem_singleton]
    constructor
    · intro h
      cases h
      exact ⟨[], .inl ⟨rfl, rfl⟩, by rw [List.append_nil]⟩
    · rintro ⟨path, ⟨rfl, heq⟩ | ⟨_, heq, _⟩, hp⟩
      · cases heq
        rw [List.append_nil] at hp
        exact Prod.ext hp rfl
      · cases heq

theorem listed_directory {r : Except String (List (Bytes × Bytes))}
    (h : Listed names (Stands d) r) : Listed names (Entry.directory d).Holds r := by
  cases r with
  | error =>
    obtain ⟨hne, path, e, hs, hp⟩ := h
    exact ⟨hne, path, e, holds_directory.2 (.inr hs), hp⟩
  | ok files =>
    obtain ⟨hp, hnd, hm⟩ := h
    refine ⟨?_, hnd, ?_⟩
    · intro path e he
      rcases holds_directory.1 he with ⟨_, rfl⟩ | hs
      · exact .inr ⟨d, rfl⟩
      · exact hp path e hs
    · intro f
      rw [hm f]
      constructor
      · rintro ⟨path, hs, hf⟩
        exact ⟨path, holds_directory.2 (.inr hs), hf⟩
      · rintro ⟨path, he, hf⟩
        rcases holds_directory.1 he with ⟨_, heq⟩ | hs
        · cases heq
        · exact ⟨path, hs, hf⟩

/-- Files below different names have different paths. -/
theorem listed_disjoint {more : List (Bytes × Bytes)} (hn : ∀ n ∈ names, ValidName n)
    (hd : WellNamed ((name, e) :: d)) (h₁ : Listed (names ++ [name]) e.Holds (.ok files))
    (h₂ : Listed names (Stands d) (.ok more)) : files.Disjoint more := by
  obtain ⟨hname, hnew, hwf, hrest⟩ := hd
  rintro f hf hf'
  obtain ⟨p, hp, heq⟩ := (h₁.2.2 f).1 hf
  obtain ⟨q, hq, heq'⟩ := (h₂.2.2 f).1 hf'
  have hpath : names ++ [name] ++ p = names ++ q := by
    refine joined_names ?_ (valid_append hn (hq.names hrest)) (heq.symm.trans heq')
    exact valid_append (valid_append hn (by simpa using hname)) (hp.names hwf)
  rw [List.append_assoc] at hpath
  obtain rfl := List.append_cancel_left hpath
  exact hnew hq.head

theorem listed_cons {r₁ r₂ : Except String (List (Bytes × Bytes))}
    (hn : ∀ n ∈ names, ValidName n) (hd : WellNamed ((name, e) :: d)) :
    Listed (names ++ [name]) e.Holds r₁ → Listed names (Stands d) r₂ →
      Listed names (Stands ((name, e) :: d))
        (match r₁ with
        | .error error => .error error
        | .ok files =>
          match r₂ with
          | .error error => .error error
          | .ok more => .ok (files ++ more)) := by
  intro h₁ h₂
  cases r₁ with
  | error =>
    obtain ⟨hne, path, e', hs, hp⟩ := h₁
    exact ⟨hne, name :: path, e', stands_cons.2 (.inl ⟨path, rfl, hs⟩), hp⟩
  | ok files =>
    cases r₂ with
    | error =>
      obtain ⟨hne, path, e', hs, hp⟩ := h₂
      exact ⟨hne, path, e', stands_cons.2 (.inr hs), hp⟩
    | ok more =>
      refine ⟨?_, List.nodup_append'.2 ⟨h₁.2.1, h₂.2.1, listed_disjoint hn hd h₁ h₂⟩, ?_⟩
      · intro path e' hs
        rcases stands_cons.1 hs with ⟨rest, _, he⟩ | hs
        · exact h₁.1 rest e' he
        · exact h₂.1 path e' hs
      · intro f
        rw [List.mem_append, h₁.2.2 f, h₂.2.2 f]
        constructor
        · rintro (⟨path, hs, hf⟩ | ⟨path, hs, hf⟩)
          · exact ⟨name :: path, stands_cons.2 (.inl ⟨path, rfl, hs⟩), by simpa using hf⟩
          · exact ⟨path, stands_cons.2 (.inr hs), hf⟩
        · rintro ⟨path, hs, hf⟩
          rcases stands_cons.1 hs with ⟨rest, rfl, he⟩ | hs
          · exact .inl ⟨rest, he, by simpa using hf⟩
          · exact .inr ⟨path, hs, hf⟩

mutual

theorem collectFiles_listed {names : List Bytes} (hn : ∀ n ∈ names, ValidName n) :
    (e : Entry) → e.WellFormed → Listed names e.Holds (collectFiles (joined 47 names) e)
  | .regular contents, _ => by
    rw [collectFiles]
    exact listed_regular
  | .directory entries, h => by
    rw [Entry.WellFormed] at h
    rw [collectFiles]
    exact listed_directory (collectEntries_listed hn entries h)
  | .symlink target, _ => by
    rw [collectFiles]
    refine ⟨by decide, [], .symlink target, .inl ⟨rfl, rfl⟩, ?_⟩
    rintro (⟨_, heq⟩ | ⟨_, heq⟩) <;> cases heq
  | .special, _ => by
    rw [collectFiles]
    refine ⟨by decide, [], .special, .inl ⟨rfl, rfl⟩, ?_⟩
    rintro (⟨_, heq⟩ | ⟨_, heq⟩) <;> cases heq

theorem collectEntries_listed {names : List Bytes} (hn : ∀ n ∈ names, ValidName n) :
    (d : List (Bytes × Entry)) → WellNamed d →
      Listed names (Stands d) (collectEntries (joined 47 names) d)
  | [], _ => by
    rw [collectEntries]
    refine ⟨fun _ _ hs => absurd hs stands_nil, List.nodup_nil, fun f => ?_⟩
    constructor
    · nofun
    · rintro ⟨_, hs, _⟩
      exact absurd hs stands_nil
  | (name, e) :: entries, h => by
    obtain ⟨hname, hnew, hwf, hrest⟩ := h
    rw [collectEntries, child_path hn]
    have hchild : ∀ n ∈ names ++ [name], ValidName n := valid_append hn (by simpa using hname)
    exact listed_cons hn ⟨hname, hnew, hwf, hrest⟩ (collectFiles_listed hchild e hwf)
      (collectEntries_listed hn entries hrest)

end

end Nightcap.Payload
