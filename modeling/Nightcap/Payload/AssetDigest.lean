import Nightcap.Payload.AssetWalk

/-! The lines under an asset tree digest: what they determine, and what determines them. -/
namespace Nightcap.Payload

open Utf8 Ascii FileTree Framing

variable {lib : Libraries} {files more : List (Bytes × Bytes)} {d : Directory} {a b : Bytes}

/-! Hexadecimal digits. -/

theorem hexDigit_toNat {n : UInt8} (h : n.toNat < 16) :
    (hexDigit n).toNat = if n.toNat < 10 then 48 + n.toNat else 87 + n.toNat := by
  unfold hexDigit
  by_cases hlt : n < 10
  · have hn : n.toNat < 10 := UInt8.lt_iff_toNat_lt.1 hlt
    rw [if_pos hlt, if_pos hn, UInt8.toNat_add]
    exact Nat.mod_eq_of_lt (show 48 + n.toNat < 256 by omega)
  · have hn : ¬ n.toNat < 10 := fun h => hlt (UInt8.lt_iff_toNat_lt.2 h)
    rw [if_neg hlt, if_neg hn, UInt8.toNat_add]
    exact Nat.mod_eq_of_lt (show 87 + n.toNat < 256 by omega)

theorem toNat_high (n : UInt8) : (n >>> 4).toNat = n.toNat / 16 := by
  rw [UInt8.toNat_shiftRight, Nat.shiftRight_eq_div_pow]
  rfl

theorem toNat_low (n : UInt8) : (n &&& 15).toNat = n.toNat % 16 := by
  rw [UInt8.toNat_and]
  exact Nat.and_two_pow_sub_one_eq_mod n.toNat 4

theorem hexDigit_inj {m n : UInt8} (hm : m.toNat < 16) (hn : n.toNat < 16)
    (h : hexDigit m = hexDigit n) : m.toNat = n.toNat := by
  have hv := congrArg UInt8.toNat h
  rw [hexDigit_toNat hm, hexDigit_toNat hn] at hv
  split at hv <;> split at hv <;> omega

theorem formatHex_injective : Function.Injective formatHex := by
  intro a b h
  induction a generalizing b with
  | nil =>
    cases b with
    | nil => rfl
    | cons n b => cases h
  | cons m a ih =>
    cases b with
    | nil => cases h
    | cons n b =>
      have hm := m.toNat_lt
      have hn := n.toNat_lt
      obtain ⟨hhigh, ht⟩ := List.cons.inj h
      obtain ⟨hlow, ht⟩ := List.cons.inj ht
      have h₁ := hexDigit_inj (by rw [toNat_high]; omega) (by rw [toNat_high]; omega) hhigh
      have h₂ := hexDigit_inj (by rw [toNat_low]; omega) (by rw [toNat_low]; omega) hlow
      rw [toNat_high, toNat_high] at h₁
      rw [toNat_low, toNat_low] at h₂
      have heq : m = n := UInt8.toNat_inj.1 (by omega)
      rw [heq, ih ht]

theorem hexDigit_ne {n c : UInt8} (hn : n.toNat < 16) (hc : c.toNat < 48) : c ≠ hexDigit n := by
  rintro rfl
  rw [hexDigit_toNat hn] at hc
  split at hc <;> omega

theorem notMem_formatHex {c : UInt8} (hc : c.toNat < 48) : c ∉ formatHex a := by
  induction a with
  | nil => exact List.not_mem_nil
  | cons n a ih =>
    have hn := n.toNat_lt
    have h₁ : c ≠ hexDigit (n >>> 4) := hexDigit_ne (by rw [toNat_high]; omega) hc
    have h₂ : c ≠ hexDigit (n &&& 15) := hexDigit_ne (by rw [toNat_low]; omega) hc
    intro hin
    rcases List.mem_cons.1 hin with heq | hin
    · exact h₁ heq
    · rcases List.mem_cons.1 hin with heq | hin
      · exact h₂ heq
      · exact ih hin

/-! Lines. -/

theorem fileDigest_notMem {count : Nat} {c : UInt8} (hc : c.toNat < 48) :
    c ∉ fileDigest lib count a := by
  unfold fileDigest
  split
  · exact List.not_mem_nil
  · exact notMem_formatHex hc

theorem treeLine_inj {p q : Bytes} (ha : 32 ∉ a) (hb : 32 ∉ b)
    (h : treeLine a p = treeLine b q) : a = b ∧ p = q := by
  have hsep : ∀ digest path, treeLine digest path = digest ++ 32 :: 32 :: path := by
    intro digest path
    rw [treeLine, List.append_assoc]
    rfl
  rw [hsep, hsep] at h
  obtain ⟨hab, hpq⟩ := split_first ha hb h
  exact ⟨hab, (List.cons.inj hpq).2⟩

/-- The line of a file. -/
def lineOf (lib : Libraries) (count : Nat) (file : Bytes × Bytes) : Bytes :=
  treeLine (fileDigest lib count file.2) file.1

theorem assetText_eq : assetText lib files =
    terminated 0 ((sortFiles files).map (lineOf lib files.length)) := by
  rw [assetText, treeText, List.zipWith_map, List.zipWith_self]
  rfl

theorem lineOf_inj {count : Nat} {f g : Bytes × Bytes}
    (h : lineOf lib count f = lineOf lib count g) :
    fileDigest lib count f.2 = fileDigest lib count g.2 ∧ f.1 = g.1 :=
  treeLine_inj (fileDigest_notMem (by decide)) (fileDigest_notMem (by decide)) h

theorem lineOf_notMem {count : Nat} {f : Bytes × Bytes} (h : 0 ∉ f.1) : 0 ∉ lineOf lib count f := by
  rw [lineOf, treeLine, List.append_assoc, List.mem_append, not_or]
  refine ⟨fileDigest_notMem (by decide), ?_⟩
  rw [List.mem_append, not_or]
  exact ⟨by decide, h⟩

/-! The files of a tree. -/

/-- A file with its path as one text. -/
def flat (f : List Bytes × Bytes) : Bytes × Bytes := (joined 47 f.1, f.2)

variable {t u : Tree}

theorem collect_listed (t : Tree) : Listed [] (Stands t.entries) (collectEntries [] t.entries) :=
  collectEntries_listed (fun _ h => absurd h List.not_mem_nil) t.entries t.named

theorem collect_plain (h : collectEntries [] t.entries = .ok files) : t.Plain := by
  have hl := collect_listed t
  rw [h] at hl
  exact hl.1

theorem collect_refuses {error : String} (h : collectEntries [] t.entries = .error error) :
    bytes error ≠ [] ∧ ¬ t.Plain := by
  have hl := collect_listed t
  rw [h] at hl
  obtain ⟨hne, path, e, hs, hp⟩ := hl
  exact ⟨hne, fun hall => hp (hall path e hs)⟩

theorem mem_collect (h : collectEntries [] t.entries = .ok files) (f : Bytes × Bytes) :
    f ∈ files ↔ f ∈ flat '' t.files := by
  have hl := collect_listed t
  rw [h] at hl
  rw [hl.2.2 f]
  constructor
  · rintro ⟨path, hs, hf⟩
    exact ⟨(path, f.2), hs, Prod.ext hf.symm rfl⟩
  · rintro ⟨⟨path, c⟩, hs, rfl⟩
    exact ⟨path, hs, rfl⟩

theorem collect_nodup (h : collectEntries [] t.entries = .ok files) : files.Nodup := by
  have hl := collect_listed t
  rw [h] at hl
  exact hl.2.1

/-- The names on the path of a file can be told from the text. -/
theorem files_names {f : List Bytes × Bytes} (h : f ∈ t.files) : ∀ n ∈ f.1, ValidName n :=
  Stands.names h t.named

theorem flat_inj {f g : List Bytes × Bytes} (hf : f ∈ t.files) (hg : g ∈ u.files)
    (h : flat f = flat g) : f = g := by
  obtain ⟨hp, hc⟩ := Prod.ext_iff.1 h
  exact Prod.ext (joined_names (files_names hf) (files_names hg) hp) hc

/-- As many files are listed as there are. -/
theorem collect_length (h : collectEntries [] t.entries = .ok files) :
    files.length = t.files.ncard := by
  have hset : (files.toFinset : Set (Bytes × Bytes)) = flat '' t.files := by
    ext f
    rw [Finset.mem_coe, List.mem_toFinset]
    exact mem_collect h f
  have hinj : Set.InjOn flat t.files := fun f hf g hg => flat_inj hf hg
  rw [← hinj.ncard_image, ← hset, Set.ncard_coe_finset,
    List.toFinset_card_of_nodup (collect_nodup h)]

theorem collect_path_unique (h : collectEntries [] t.entries = .ok files) {f g : Bytes × Bytes}
    (hf : f ∈ files) (hg : g ∈ files) (hp : f.1 = g.1) : f = g := by
  obtain ⟨f', hf', rfl⟩ := (mem_collect h f).1 hf
  obtain ⟨g', hg', rfl⟩ := (mem_collect h g).1 hg
  have hnames : f'.1 = g'.1 := joined_names (files_names hf') (files_names hg') hp
  have hg'' : (f'.1, g'.2) ∈ t.files := hnames ▸ hg'
  have hcontents : Entry.regular f'.2 = .regular g'.2 :=
    Stands.unique hf' hg'' t.named
  have heq : f' = g' := Prod.ext hnames (Entry.regular.inj hcontents)
  rw [heq]

@[simp] theorem mem_sortFiles {f : Bytes × Bytes} : f ∈ sortFiles files ↔ f ∈ files :=
  List.mem_insertionSort _

@[simp] theorem length_sortFiles : (sortFiles files).length = files.length :=
  List.length_insertionSort _ _

/-- Two listings of the same files sort the same. -/
theorem sortFiles_unique (hf : files.Nodup) (hm : more.Nodup) (hmem : ∀ f, f ∈ files ↔ f ∈ more)
    (hkey : ∀ f ∈ files, ∀ g ∈ files, f.1 = g.1 → f = g) : sortFiles files = sortFiles more := by
  have hperm : (sortFiles files).Perm (sortFiles more) :=
    ((List.perm_insertionSort _ files).trans ((List.perm_ext_iff_of_nodup hf hm).2 hmem)).trans
      (List.perm_insertionSort _ more).symm
  have htotal : Std.Total fun (f g : Bytes × Bytes) => f.1 ≤ g.1 :=
    ⟨fun f g => List.le_total f.1 g.1⟩
  have htrans : IsTrans (Bytes × Bytes) fun f g => f.1 ≤ g.1 := ⟨fun _ _ _ => List.le_trans⟩
  refine hperm.eq_of_pairwise ?_ (List.pairwise_insertionSort _ files)
    (List.pairwise_insertionSort _ more)
  intro f g hf hg hle hge
  have hf := mem_sortFiles.1 hf
  have hg := (hmem g).2 (mem_sortFiles.1 hg)
  exact hkey f hf g hg (List.le_antisymm hle hge)

/-- The text depends on the files alone. -/
theorem assetText_determined (ht : collectEntries [] t.entries = .ok files)
    (hu : collectEntries [] u.entries = .ok more) (h : u.files = t.files) :
    assetText lib more = assetText lib files ∧ more.length = files.length := by
  have hlen : more.length = files.length := by
    rw [collect_length hu, collect_length ht, h]
  have hsort : sortFiles more = sortFiles files := by
    refine sortFiles_unique (collect_nodup hu) (collect_nodup ht) ?_ ?_
    · intro f
      rw [mem_collect hu, mem_collect ht, h]
    · intro f hf g hg
      exact collect_path_unique hu hf hg
  exact ⟨by rw [assetText_eq, assetText_eq, hsort, hlen], hlen⟩

theorem collect_notMem (h : collectEntries [] t.entries = .ok files) {f : Bytes × Bytes}
    (hf : f ∈ files) : 0 ∉ f.1 := by
  obtain ⟨f', hf', rfl⟩ := (mem_collect h f).1 hf
  exact notMem_joined (by decide) fun n hn => (files_names hf' n hn).2.2

theorem lines_notMem (h : collectEntries [] t.entries = .ok files) {count : Nat} :
    ∀ l ∈ (sortFiles files).map (lineOf lib count), 0 ∉ l := by
  intro l hl
  obtain ⟨f, hf, rfl⟩ := List.mem_map.1 hl
  exact lineOf_notMem (collect_notMem h (mem_sortFiles.1 hf))

/-- The text has as many lines as there are files, and none is shared by two kinds of file. -/
theorem lines_of_text (ht : collectEntries [] t.entries = .ok files)
    (hu : collectEntries [] u.entries = .ok more) (h : assetText lib files = assetText lib more) :
    (sortFiles files).map (lineOf lib files.length) =
      (sortFiles more).map (lineOf lib files.length) ∧ files.length = more.length := by
  rw [assetText_eq, assetText_eq] at h
  have hlines := terminated_injective (lines_notMem ht) (lines_notMem hu) h
  have hlen : files.length = more.length := by
    simpa [sortFiles] using congrArg List.length hlines
  exact ⟨hlen ▸ hlines, hlen⟩

/-- Where the files are hashed, the text determines them. -/
theorem mem_of_text (ht : collectEntries [] t.entries = .ok files)
    (hu : collectEntries [] u.entries = .ok more) (hcount : UInt32.ofNat files.length ≠ 0)
    (hinj : Set.InjOn lib.sha256 {c | (∃ f ∈ files, f.2 = c) ∨ ∃ f ∈ more, f.2 = c})
    (h : assetText lib files = assetText lib more) : ∀ f ∈ files, f ∈ more := by
  intro f hf
  obtain ⟨hlines, _⟩ := lines_of_text ht hu h
  have hline : lineOf lib files.length f ∈ (sortFiles more).map (lineOf lib files.length) := by
    rw [← hlines]
    exact List.mem_map_of_mem (mem_sortFiles.2 hf)
  obtain ⟨g, hg, heq⟩ := List.mem_map.1 hline
  have hg := mem_sortFiles.1 hg
  obtain ⟨hdigest, hpath⟩ := lineOf_inj heq
  rw [fileDigest, fileDigest, if_neg hcount, if_neg hcount] at hdigest
  have hcontents : g.2 = f.2 :=
    hinj (.inr ⟨g, hg, rfl⟩) (.inl ⟨f, hf, rfl⟩) (formatHex_injective hdigest)
  rwa [← Prod.ext hpath hcontents]

end Nightcap.Payload
