import Nightcap.Payload.AssetDigest

/-! What an asset tree digest vouches for. -/
namespace Nightcap.Payload

open Utf8 Ascii FileTree Framing Transition JobPool

variable {lib : Libraries} {faults : Faults} {hardware : UInt32} {path : Bytes} {t u : Tree}
  {files more : List (Bytes × Bytes)} {root : Option Entry} {r : Except Bytes (Bytes × Nat)}

theorem HashFault.message_ne_nil (fault : HashFault) : fault.message path ≠ [] := by
  cases fault <;> simp [HashFault.message, bytes]

theorem WalkFault.message_ne_nil (fault : WalkFault) : fault.message ≠ [] := by
  cases fault <;> decide

theorem FoldFault.message_ne_nil (fault : FoldFault) : fault.message ≠ [] := by
  cases fault <;> decide

/-! The threads. -/

theorem min_eq_zero {a b : UInt32} (ha : a ≠ 0) : min a b = 0 ↔ b = 0 := by
  have hmin : min a b = if a ≤ b then a else b := rfl
  rw [hmin]
  by_cases hle : a ≤ b
  · rw [if_pos hle]
    constructor
    · intro h
      exact absurd h ha
    · rintro rfl
      exact UInt32.toNat_inj.1 (Nat.le_zero.1 (UInt32.le_iff_toNat_le.1 hle))
  · rw [if_neg hle]

/-- No thread is started exactly where the count of files is cut to zero. -/
theorem hashWorkers_eq_zero {n : Nat} : hashWorkers hardware n = 0 ↔ UInt32.ofNat n = 0 := by
  refine min_eq_zero fun h => ?_
  have hone : (if hardware = 0 then 1 else hardware) ≠ 0 := by
    split_ifs with h0
    · decide
    · exact h0
  exact absurd ((min_eq_zero hone).1 h) (by decide)

/-- Without threads nothing happens. -/
theorem reachable_zero {n : Nat} {jobs : List (Except Bytes Bytes)}
    {s : JobPool.State n Bytes Bytes}
    (hn : n = 0) (h : (poolLTS n jobs).Reachable s) : s = start n Bytes Bytes := by
  subst hn
  refine h.invariant (I := fun s => s = start 0 Bytes Bytes) (fun _ hs => hs) ?_
  intro _ i
  exact i.elim0

theorem mem_jobs {e : Except Bytes Bytes}
    (h : e ∈ (sortFiles files).map (hashFile lib faults path)) :
    ∃ f ∈ files, hashFile lib faults path f = e := by
  obtain ⟨f, hf, he⟩ := List.mem_map.1 h
  exact ⟨f, mem_sortFiles.1 hf, he⟩

theorem hashFile_error {f : Bytes × Bytes} {e : Bytes} (h : hashFile lib faults path f = .error e) :
    faults.file f.1 ≠ none ∧ e ≠ [] := by
  unfold hashFile at h
  cases hf : faults.file f.1 with
  | none => simp [hf] at h
  | some fault =>
    rw [hf] at h
    obtain rfl := Except.error.inj h
    exact ⟨by simp, fault.message_ne_nil⟩

theorem hashFile_ok {f : Bytes × Bytes} {b : Bytes} (h : hashFile lib faults path f = .ok b) :
    faults.file f.1 = none ∧ b = formatHex (lib.sha256 f.2) := by
  unfold hashFile at h
  cases hf : faults.file f.1 with
  | none =>
    rw [hf] at h
    exact ⟨rfl, (Except.ok.inj h).symm⟩
  | some fault => simp [hf] at h

/-- What the threads leave behind where none of them has met a failure. -/
theorem pool_digests {s : JobPool.State (hashWorkers hardware files.length).toNat Bytes Bytes}
    (hs : (poolLTS _ ((sortFiles files).map (hashFile lib faults path))).Reachable s)
    (hd : s.Done) (he : s.error = none) :
    (List.range (sortFiles files).length).map (fun k => (s.results k).getD []) =
        (sortFiles files).map (fun f => fileDigest lib files.length f.2) ∧
      (UInt32.ofNat files.length ≠ 0 → ∀ f ∈ files, faults.file f.1 = none) := by
  by_cases hcount : UInt32.ofNat files.length = 0
  · have hzero : (hashWorkers hardware files.length).toNat = 0 := by
      rw [hashWorkers_eq_zero.2 hcount]
      rfl
    have hstart := reachable_zero hzero hs
    refine ⟨?_, fun h => absurd hcount h⟩
    rw [hstart]
    refine List.ext_getElem (by simp) ?_
    intro k _ _
    simp [start, fileDigest, hcount]
  · have hpos : 0 < (hashWorkers hardware files.length).toNat := by
      refine Nat.pos_of_ne_zero fun h => hcount ?_
      exact hashWorkers_eq_zero.1 (UInt32.toNat_inj.1 h)
    rcases done_cases hpos hs hd with ⟨e, heq, _⟩ | ⟨_, hall⟩
    · simp [he] at heq
    · have hjob : ∀ k (hk : k < (sortFiles files).length), ∃ b, s.results k = some b ∧
          hashFile lib faults path (sortFiles files)[k] = .ok b := by
        intro k hk
        obtain ⟨b, hb, hjob⟩ := hall k (by simpa using hk)
        refine ⟨b, hb, ?_⟩
        rw [List.getElem?_map, List.getElem?_eq_getElem hk] at hjob
        exact Option.some.inj hjob
      refine ⟨List.ext_getElem (by simp) ?_, ?_⟩
      · intro k hk _
        obtain ⟨b, hb, hjob⟩ := hjob k (by simpa using hk)
        simp [hb, (hashFile_ok hjob).2, fileDigest, hcount]
      · intro _ f hf
        obtain ⟨k, hk, rfl⟩ := List.getElem_of_mem (mem_sortFiles.2 hf)
        obtain ⟨b, _, hjob⟩ := hjob k hk
        exact (hashFile_ok hjob).1

/-! What a call returns. -/

theorem foldDigests_ok {sorted : List (Bytes × Bytes)} {results : Nat → Option Bytes}
    {result : Bytes × Nat} (h : foldDigests lib faults sorted results = .ok result) :
    result = (formatHex (lib.sha256 (treeText
      ((List.range sorted.length).map fun k => (results k).getD []) (sorted.map Prod.fst))),
        sorted.length) := by
  unfold foldDigests at h
  cases hf : faults.fold with
  | none =>
    rw [hf] at h
    exact (Except.ok.inj h).symm
  | some fault => simp [hf] at h

theorem foldDigests_error {sorted : List (Bytes × Bytes)} {results : Nat → Option Bytes} {e : Bytes}
    (h : foldDigests lib faults sorted results = .error e) : faults.fold ≠ none ∧ e ≠ [] := by
  unfold foldDigests at h
  cases hf : faults.fold with
  | none => simp [hf] at h
  | some fault =>
    rw [hf] at h
    obtain rfl := Except.error.inj h
    exact ⟨by simp, fault.message_ne_nil⟩

/-- A digest is the one the threads agree on, over files that were hashed or never looked at. -/
theorem returns_ok {result : Bytes × Nat} (h : Returns lib faults hardware path root (.ok result)) :
    ∃ entries files, root = some (.directory entries) ∧ collectEntries [] entries = .ok files ∧
      result = (formatHex (lib.sha256 (assetText lib files)), files.length) ∧
      (UInt32.ofNat files.length ≠ 0 → ∀ f ∈ files, faults.file f.1 = none) := by
  generalize hr : (Except.ok result : Except Bytes (Bytes × Nat)) = r at h
  cases h with
  | unreal => cases hr
  | interrupted => cases hr
  | refused => cases hr
  | failed => cases hr
  | @folded entries files s hw hc hs hd he =>
    obtain ⟨hdigests, hfaults⟩ := pool_digests hs hd he
    have hresult := foldDigests_ok hr.symm
    rw [hdigests, length_sortFiles] at hresult
    exact ⟨entries, files, rfl, hc, hresult, hfaults⟩

/-- Every error says something. -/
theorem returns_error {e : Bytes} (h : Returns lib faults hardware path (some t.root) (.error e)) :
    e ≠ [] := by
  generalize hr : (Except.error e : Except Bytes (Bytes × Nat)) = r at h
  cases h with
  | unreal h => exact absurd rfl (h t.entries)
  | interrupted =>
    obtain rfl := Except.error.inj hr
    exact WalkFault.message_ne_nil _
  | refused h =>
    obtain rfl := Except.error.inj hr
    exact (collect_refuses h).1
  | failed hw hc hs hd he =>
    obtain rfl := Except.error.inj hr
    obtain ⟨f, _, hf⟩ := mem_jobs ((invariant_reachable hs).error _ he)
    exact (hashFile_error hf).2
  | folded => exact (foldDigests_error hr.symm).2

/-- Every schedule comes to an end. -/
theorem exists_returns (lib : Libraries) (faults : Faults) (hardware : UInt32) (path : Bytes)
    (root : Option Entry) : ∃ r, Returns lib faults hardware path root r := by
  by_cases hreal : ∃ entries, root = some (.directory entries)
  · obtain ⟨entries, rfl⟩ := hreal
    cases hw : faults.walk with
    | some fault => exact ⟨_, .interrupted hw⟩
    | none =>
      cases hc : collectEntries [] entries with
      | error => exact ⟨_, .refused hc⟩
      | ok files =>
        obtain ⟨s, hs, hd⟩ :=
          @exists_done _ _ _ ((sortFiles files).map (hashFile lib faults path)) _
          ⟨start (hashWorkers hardware files.length).toNat Bytes Bytes, [], rfl, .refl _⟩
        cases he : s.error with
        | some => exact ⟨_, .failed hw hc hs hd he⟩
        | none => exact ⟨_, .folded hw hc hs hd he⟩
  · exact ⟨_, .unreal fun entries h => hreal ⟨entries, h⟩⟩

/-- A plain tree whose files are not looked at always gets a digest. -/
theorem returns_unhashed (hw : faults.walk = none) (hf : faults.fold = none)
    (hc : collectEntries [] t.entries = .ok files) (hcount : UInt32.ofNat files.length = 0)
    (h : Returns lib faults hardware path (some t.root) r) : ∃ result, r = .ok result := by
  cases h with
  | unreal h => exact absurd rfl (h t.entries)
  | interrupted h => simp [hw] at h
  | refused h => simp [hc] at h
  | @failed _ files' _ _ _ hc' hs _ he =>
    obtain rfl := Except.ok.inj (hc.symm.trans hc')
    have hzero : (hashWorkers hardware files.length).toNat = 0 := by
      rw [hashWorkers_eq_zero.2 hcount]
      rfl
    rw [reachable_zero hzero hs] at he
    cases he
  | folded =>
    unfold foldDigests
    rw [hf]
    exact ⟨_, rfl⟩

/-- Without failures a plain tree always gets a digest. -/
theorem returns_noFaults (hc : collectEntries [] t.entries = .ok files)
    (h : Returns lib noFaults hardware path (some t.root) r) : ∃ result, r = .ok result := by
  cases h with
  | unreal h => exact absurd rfl (h t.entries)
  | interrupted h => cases h
  | refused h => simp [hc] at h
  | failed _ _ hs _ he =>
    obtain ⟨f, _, hf⟩ := mem_jobs ((invariant_reachable hs).error _ he)
    exact absurd rfl (hashFile_error hf).1
  | folded => exact ⟨_, rfl⟩

/-- The byte strings that are hashed for a tree. -/
def Hashed (lib : Libraries) (t : Tree) : Set Bytes :=
  {b | (∃ f ∈ t.files, f.2 = b) ∨
    ∃ files, collectEntries [] t.entries = .ok files ∧ assetText lib files = b}

/-- What the digest of a tree is good for, whatever the order of the entries, the number of threads
and their schedule. -/
structure Vouches (lib : Libraries) (t : Tree) : Prop where
  answers : ∀ hardware path, t.Plain → (∃ r, Returns lib noFaults hardware path (some t.root) r) ∧
    ∀ r, Returns lib noFaults hardware path (some t.root) r → ∃ result, r = .ok result
  determined : ∀ (u : Tree) faults faults' hardware hardware' path path' result result',
    u.files = t.files → Returns lib faults hardware path (some t.root) (.ok result) →
    Returns lib faults' hardware' path' (some u.root) (.ok result') → result' = result
  faithful : ∀ (u : Tree) faults faults' hardware hardware' path path' result result',
    Set.InjOn lib.sha256 (Hashed lib t ∪ Hashed lib u) →
    Returns lib faults hardware path (some t.root) (.ok result) →
    Returns lib faults' hardware' path' (some u.root) (.ok result') → result'.1 = result.1 →
    u.files = t.files
  refuses : ∀ faults hardware path r,
    (¬ t.Plain ∨ ∃ f ∈ t.files, faults.file (joined 47 f.1) ≠ none) →
    Returns lib faults hardware path (some t.root) r → ∃ e, r = .error e ∧ e ≠ []

theorem returns_determined {faults' : Faults} {hardware' : UInt32} {path' : Bytes}
    {result result' : Bytes × Nat} (h : u.files = t.files)
    (ht : Returns lib faults hardware path (some t.root) (.ok result))
    (hu : Returns lib faults' hardware' path' (some u.root) (.ok result')) : result' = result := by
  obtain ⟨_, files, heq, hc, rfl, _⟩ := returns_ok ht
  obtain ⟨_, more, heq', hc', rfl, _⟩ := returns_ok hu
  cases heq
  cases heq'
  obtain ⟨htext, hlen⟩ := assetText_determined hc hc' h
  rw [htext, hlen]

theorem files_subset (hc : collectEntries [] t.entries = .ok files)
    (hc' : collectEntries [] u.entries = .ok more) (h : ∀ f ∈ files, f ∈ more) :
    t.files ⊆ u.files := by
  intro f hf
  have hin : flat f ∈ files := (mem_collect hc _).2 ⟨f, hf, rfl⟩
  obtain ⟨g, hg, heq⟩ := (mem_collect hc' _).1 (h _ hin)
  rwa [← flat_inj hg hf heq]

theorem contents_hashed (hc : collectEntries [] t.entries = .ok files) {f : Bytes × Bytes}
    (hf : f ∈ files) : f.2 ∈ Hashed lib t := by
  obtain ⟨g, hg, rfl⟩ := (mem_collect hc f).1 hf
  exact .inl ⟨g, hg, rfl⟩

theorem returns_faithful {faults' : Faults} {hardware' : UInt32} {path' : Bytes}
    {result result' : Bytes × Nat} (hcount : UInt32.ofNat t.files.ncard ≠ 0 ∨ t.files.ncard = 0)
    (hinj : Set.InjOn lib.sha256 (Hashed lib t ∪ Hashed lib u))
    (ht : Returns lib faults hardware path (some t.root) (.ok result))
    (hu : Returns lib faults' hardware' path' (some u.root) (.ok result'))
    (h : result'.1 = result.1) : u.files = t.files := by
  obtain ⟨_, files, heq, hc, rfl, _⟩ := returns_ok ht
  obtain ⟨_, more, heq', hc', rfl, _⟩ := returns_ok hu
  cases heq
  cases heq'
  have htext : assetText lib more = assetText lib files :=
    hinj (.inr (.inr ⟨more, hc', rfl⟩)) (.inl (.inr ⟨files, hc, rfl⟩)) (formatHex_injective h)
  have hlen : more.length = files.length := (lines_of_text hc' hc htext).2
  rw [← collect_length hc] at hcount
  rcases hcount with hcount | hcount
  · refine Set.Subset.antisymm (files_subset hc' hc ?_) (files_subset hc hc' ?_)
    · refine mem_of_text hc' hc (hlen ▸ hcount) (hinj.mono ?_) htext
      rintro _ (⟨f, hf, rfl⟩ | ⟨f, hf, rfl⟩)
      · exact .inr (contents_hashed hc' hf)
      · exact .inl (contents_hashed hc hf)
    · refine mem_of_text hc hc' hcount (hinj.mono ?_) htext.symm
      rintro _ (⟨f, hf, rfl⟩ | ⟨f, hf, rfl⟩)
      · exact .inl (contents_hashed hc hf)
      · exact .inr (contents_hashed hc' hf)
  · rw [hcount] at hlen
    obtain rfl := List.eq_nil_of_length_eq_zero hcount
    obtain rfl := List.eq_nil_of_length_eq_zero hlen
    exact Set.Subset.antisymm (files_subset hc' hc fun _ hf => hf)
      (files_subset hc hc' fun _ hf => hf)

theorem returns_refuses (hcount : UInt32.ofNat t.files.ncard ≠ 0 ∨ t.files.ncard = 0)
    (hbad : ¬ t.Plain ∨ ∃ f ∈ t.files, faults.file (joined 47 f.1) ≠ none)
    (h : Returns lib faults hardware path (some t.root) r) : ∃ e, r = .error e ∧ e ≠ [] := by
  cases r with
  | error e => exact ⟨e, rfl, returns_error h⟩
  | ok result =>
    obtain ⟨_, files, heq, hc, _, hfaults⟩ := returns_ok h
    cases heq
    rw [← collect_length hc] at hcount
    rcases hbad with hplain | ⟨f, hf, hfault⟩
    · exact absurd (collect_plain hc) hplain
    · have hin : flat f ∈ files := (mem_collect hc _).2 ⟨f, hf, rfl⟩
      rcases hcount with hcount | hcount
      · exact absurd (hfaults hcount _ hin) hfault
      · obtain rfl := List.eq_nil_of_length_eq_zero hcount
        cases hin

theorem ofNat_eq_zero {n : Nat} : UInt32.ofNat n = 0 ↔ n % 2 ^ 32 = 0 := by
  rw [← UInt32.toNat_inj, UInt32.toNat_ofNat']
  rfl

/-- The tree digest does what it is for, except on a plain tree whose number of files is cut to
zero: no thread is started then, and no file is hashed. -/
theorem assetTree_vouches_iff (lib : Libraries) (t : Tree) :
    Vouches lib t ↔ ¬ t.Plain ∨ t.files.ncard = 0 ∨ t.files.ncard % 2 ^ 32 ≠ 0 := by
  cases hc : collectEntries [] t.entries with
  | error error =>
    obtain ⟨_, hplain⟩ := collect_refuses hc
    refine iff_of_true ?_ (.inl hplain)
    have hnone : ∀ {faults hardware path result},
        ¬ Returns lib faults hardware path (some t.root) (.ok result) := by
      intro faults hardware path result h
      obtain ⟨_, files, heq, hc', _⟩ := returns_ok h
      cases heq
      simp [hc] at hc'
    constructor
    · exact fun _ _ h => absurd h hplain
    · exact fun _ _ _ _ _ _ _ _ _ _ h => absurd h hnone
    · exact fun _ _ _ _ _ _ _ _ _ _ h => absurd h hnone
    · intro faults hardware path r _ h
      cases r with
      | error e => exact ⟨e, rfl, returns_error h⟩
      | ok result => exact absurd h hnone
  | ok files =>
    have hplain := collect_plain hc
    rw [← collect_length hc]
    constructor
    · intro h
      by_contra hcon
      simp only [not_or, not_not] at hcon
      obtain ⟨_, hne, hmod⟩ := hcon
      obtain ⟨f, hf⟩ := List.exists_mem_of_length_pos (Nat.pos_of_ne_zero hne)
      obtain ⟨g, hg, rfl⟩ := (mem_collect hc f).1 hf
      -- Every file fails, and yet no thread looks at one.
      let faults : Faults := ⟨none, fun _ => some .unread, none⟩
      obtain ⟨r, hr⟩ := exists_returns lib faults 1 [] (some t.root)
      obtain ⟨e, rfl, _⟩ := h.refuses faults 1 [] r (.inr ⟨g, hg, by simp [faults]⟩) hr
      obtain ⟨result, heq⟩ := returns_unhashed rfl rfl hc (ofNat_eq_zero.2 hmod) hr
      cases heq
    · intro h
      have hcount : UInt32.ofNat t.files.ncard ≠ 0 ∨ t.files.ncard = 0 := by
        rw [← collect_length hc]
        rcases h with h | h | h
        · exact absurd hplain h
        · exact .inr h
        · exact .inl fun hz => h (ofNat_eq_zero.1 hz)
      constructor
      · intro hardware path _
        exact ⟨exists_returns lib noFaults hardware path _, fun r hr => returns_noFaults hc hr⟩
      · intro u _ _ _ _ _ _ _ _ hfiles ht hu
        exact returns_determined hfiles ht hu
      · intro u _ _ _ _ _ _ _ _ hinj ht hu heq
        exact returns_faithful hcount hinj ht hu heq
      · intro faults hardware path r hbad hr
        exact returns_refuses hcount hbad hr

/-! A tree with too many files. -/

/-- Where no thread is started, the text is that of the paths. -/
theorem assetText_unhashed (h : UInt32.ofNat files.length = 0) : assetText lib files =
    terminated 0 (((files.map Prod.fst).insertionSort (· ≤ ·)).map (treeLine [])) := by
  have hsort : (files.map Prod.fst).insertionSort (· ≤ ·) = (sortFiles files).map Prod.fst :=
    (List.map_insertionSort _ _ Prod.fst files fun _ _ _ _ => Iff.rfl).symm
  rw [assetText_eq, hsort, List.map_map]
  congr 1
  refine List.map_congr_left fun f _ => ?_
  rw [lineOf, fileDigest, if_pos h]
  rfl

theorem ofNat_valid (k : Nat) : ValidName (ofNat k) := by
  have hdigit : ∀ b ∈ ofNat k, 48 ≤ b.toNat := by
    intro b hb
    obtain ⟨c, hc, rfl⟩ := List.mem_map.1 hb
    have hd := Nat.isDigit_of_mem_toDigits (by decide) (by decide) hc
    rw [toNat_chr hd]
    simp only [Char.isDigit, Bool.and_eq_true, decide_eq_true_eq] at hd
    exact hd.1
  refine ⟨?_, fun h => absurd (hdigit _ h) (by decide), fun h => absurd (hdigit _ h) (by decide)⟩
  intro h
  have hlen := congrArg List.length h
  rw [ofNat, List.length_map] at hlen
  exact absurd (List.eq_nil_of_length_eq_zero hlen) (Nat.toDigits_ne_nil)

def numberedEntries (contents : Bytes) (ks : List Nat) : List (Bytes × Entry) :=
  ks.map fun k => (ofNat k, .regular contents)

theorem wellNamed_numbered {contents : Bytes} {ks : List Nat} (h : ks.Nodup) :
    WellNamed (numberedEntries contents ks) := by
  induction ks with
  | nil => exact trivial
  | cons k ks ih =>
    rw [List.nodup_cons] at h
    refine ⟨ofNat_valid k, ?_, trivial, ih h.2⟩
    intro hin
    obtain ⟨p, hp, heq⟩ := List.mem_map.1 hin
    obtain ⟨j, hj, rfl⟩ := List.mem_map.1 hp
    exact h.1 (ofNat_injective heq ▸ hj)

/-- Files named 0 to n - 1, all with the same contents. -/
def numbered (n : Nat) (contents : Bytes) : Tree :=
  ⟨numberedEntries contents (List.range n), wellNamed_numbered List.nodup_range⟩

theorem collect_numbered {contents : Bytes} (ks : List Nat) :
    collectEntries [] (numberedEntries contents ks) =
      .ok (ks.map fun k => (ofNat k, contents)) := by
  induction ks with
  | nil => rfl
  | cons k ks ih =>
    rw [numberedEntries, List.map_cons, collectEntries, ← numberedEntries, ih]
    rfl

theorem numbered_returns {n : Nat} (h : UInt32.ofNat n = 0) (lib : Libraries) :
    ∃ result, ∀ contents,
      Returns lib noFaults 8 [] (some (numbered n contents).root) (.ok result) := by
  refine ⟨(formatHex (lib.sha256 (terminated 0
    ((((List.range n).map ofNat).insertionSort (· ≤ ·)).map (treeLine [])))), n),
      fun contents => ?_⟩
  have hc : collectEntries [] (numbered n contents).entries = _ := collect_numbered (List.range n)
  obtain ⟨r, hr⟩ := exists_returns lib noFaults 8 [] (some (numbered n contents).root)
  obtain ⟨result, rfl⟩ := returns_noFaults hc hr
  obtain ⟨_, files, heq, hc', hresult, _⟩ := returns_ok hr
  cases heq
  obtain rfl := Except.ok.inj (hc.symm.trans hc')
  rw [assetText_unhashed (by simpa using h), List.map_map, List.length_map,
    List.length_range] at hresult
  rw [hresult] at hr
  exact hr

/-- A library whose hash is injective. -/
def plainLibraries : Libraries := ⟨fun _ => none, id⟩

theorem numbered_files {n : Nat} (hn : 0 < n) :
    (numbered n [0]).files ≠ (numbered n [1]).files := by
  intro h
  have hin : ([ofNat 0], [0]) ∈ (numbered n [0]).files :=
    Stands.here (List.mem_map.2 ⟨0, List.mem_range.2 hn, rfl⟩)
  rw [h] at hin
  have hin' : ([ofNat 0], [1]) ∈ (numbered n [1]).files :=
    Stands.here (List.mem_map.2 ⟨0, List.mem_range.2 hn, rfl⟩)
  have heq := Stands.unique hin hin' (numbered n [1]).named
  cases heq

/-- With 2^32 files the digest is the same whatever they contain. -/
theorem many_files_unhashed :
    (∃ result, ∀ contents, Returns plainLibraries noFaults 8 []
      (some (numbered (2 ^ 32) contents).root) (.ok result)) ∧
    (numbered (2 ^ 32) [0]).files ≠ (numbered (2 ^ 32) [1]).files ∧
    Function.Injective plainLibraries.sha256 ∧
    ¬ Vouches plainLibraries (numbered (2 ^ 32) [0]) := by
  obtain ⟨result, hr⟩ := numbered_returns (n := 2 ^ 32) (by decide) plainLibraries
  have hne := numbered_files (n := 2 ^ 32) (by decide)
  refine ⟨⟨result, hr⟩, hne, Function.injective_id, fun h => hne ?_⟩
  exact (h.faithful _ _ _ _ _ _ _ _ _ Function.injective_id.injOn (hr [0]) (hr [1]) rfl).symm

end Nightcap.Payload
