import Nightcap.Update.ZipArchive

/-! An extraction stays below its destination and its limit, and overwrites nothing. -/
namespace Nightcap.Update.ZipArchive

open Utf8 Transition

variable {x : Extraction} {disk : Disk} {s t : State} {path output : Path} {entry : ZipEntry}
  {bytes : Bytes} {answer : Answer} {node : Option Node} {missing : List Path}

/-! Names. -/

/-- What may name an entry of a directory. -/
def PlainName (name : Bytes) : Prop := name ≠ [] ∧ name ≠ dot ∧ name ≠ dotDot ∧ 47 ∉ name

theorem plain_components (h : safeLoop bytes = true) : ∀ c ∈ components bytes, PlainName c := by
  induction hn : bytes.length using Nat.strong_induction_on generalizing bytes with
  | _ n ih =>
    rw [safeLoop] at h
    rw [components]
    by_cases hempty : bytes = []
    · simp [hempty]
    · rw [if_neg hempty] at h ⊢
      have hshorter := afterComponent_shorter hempty
      split at h
      · next hbad =>
        -- A component is empty only in front of a slash.
        exfalso
        simp only [Bool.and_eq_true, beq_iff_eq] at h
        have hall := h.1
        rw [afterComponent, h.2] at hall
        exact hempty hall
      · next hgood =>
        rw [not_or, not_or] at hgood
        intro c hc
        rcases List.mem_cons.1 hc with rfl | hc
        · refine ⟨hgood.1, hgood.2.1, hgood.2.2, fun hslash => ?_⟩
          have hne := List.mem_takeWhile_imp hslash
          simp at hne
        · exact ih _ (hn ▸ hshorter) h rfl c hc

theorem components_ne_nil (h : bytes ≠ []) : components bytes ≠ [] := by
  rw [components, if_neg h]
  exact List.cons_ne_nil _ _

theorem safe_components (h : isSafeArchivePath bytes = true) :
    ∀ c ∈ components bytes, PlainName c := by
  unfold isSafeArchivePath at h
  split at h
  · cases h
  · exact plain_components h

/-- Where an extraction may make something: at its destination and on the way there, and below. -/
def Allowed (destination path : Path) : Prop :=
  path <+: destination ∨
    ∃ names, names ≠ [] ∧ path = destination ++ names ∧ ∀ name ∈ names, PlainName name

theorem allowed_way {destination : Path} (hpath : path <+: output)
    (h : Allowed destination output) : Allowed destination path := by
  rcases h with h | ⟨names, _, rfl, hplain⟩
  · exact .inl (hpath.trans h)
  · rcases Nat.le_total path.length destination.length with hle | hle
    · exact .inl (List.prefix_of_prefix_length_le hpath (List.prefix_append _ _) hle)
    · obtain ⟨below, rfl⟩ :=
        List.prefix_of_prefix_length_le (List.prefix_append destination names) hpath hle
      have hbelow := (List.prefix_append_right_inj _).1 hpath
      cases below with
      | nil => exact .inl (by simp)
      | cons name below =>
        exact .inr ⟨name :: below, List.cons_ne_nil _ _, rfl,
          fun name hname => hplain name (hbelow.subset hname)⟩

theorem allowed_ancestors {destination : Path} (h : Allowed destination output) :
    ∀ path ∈ ancestors output, Allowed destination path := by
  intro path hpath
  obtain ⟨n, _, rfl⟩ := List.mem_map.1 hpath
  exact allowed_way (List.take_prefix _ _) h

/-- An entry that is extracted. -/
structure Extracted (x : Extraction) (entry : ZipEntry) : Prop where
  selected : selects x entry = true
  safe : isSafeArchivePath (relativeOf x entry) = true

theorem Extracted.allowed (h : Extracted x entry) : Allowed x.destination (outputOf x entry) := by
  have hne : relativeOf x entry ≠ [] := by
    have hselected := h.selected
    simp only [selects, Bool.and_eq_true, bne_iff_ne] at hselected
    exact hselected.2
  exact .inr ⟨_, components_ne_nil hne, rfl, safe_components h.safe⟩

/-! What holds between two calls. -/

/-- The entries before an index that are to become files. -/
def wanted (x : Extraction) (count : Nat) : List Nat :=
  (List.range count).filter fun j =>
    match x.entries[j]? with
    | some entry => selects x entry && !entry.directory
    | none => false

/-- A finished file holds what minizip delivered, as much as was declared. -/
def Complete (x : Extraction) (s : State) (file : Nat × Bytes) : Prop :=
  ∃ entry, x.entries[file.1]? = some entry ∧ file.2.length = entry.uncompressedSize ∧
    s.disk (outputOf x entry) = some (.file file.2)

/-- The file of the current entry, on a path where there was nothing. -/
structure Current (x : Extraction) (disk : Disk) (s : State) (output : Path) : Prop where
  entry : ∃ entry, x.entries[s.index]? = some entry ∧ Extracted x entry ∧ entry.directory = false ∧
    output = outputOf x entry ∧ s.total + entry.uncompressedSize ≤ x.maximumTotalBytes
  fresh : disk output = none
  apart : ∀ file ∈ s.completed, ∀ entry, x.entries[file.1]? = some entry → outputOf x entry ≠ output

/-- The declared size of the current entry. -/
def State.size (x : Extraction) (s : State) : Nat :=
  match x.entries[s.index]? with
  | some entry => entry.uncompressedSize
  | none => 0

/-- What holds at a call. -/
def AtCall (x : Extraction) (disk : Disk) (s : State) : Prop :=
  match s.pc with
  | .openArchive => s.index = 0 ∧ s.bytes = s.total ∧ s.completed = []
  | .info => s.bytes = s.total ∧ s.completed.map Prod.fst = wanted x s.index
  | .makeDirectories missing output => s.bytes = s.total ∧
      s.completed.map Prod.fst = wanted x s.index ∧ (∀ path ∈ missing, Allowed x.destination path) ∧
      ∃ entry, x.entries[s.index]? = some entry ∧ Extracted x entry ∧
        match output with
        | none => entry.directory = true
        | some output => entry.directory = false ∧ output = outputOf x entry ∧
            s.total + entry.uncompressedSize ≤ x.maximumTotalBytes
  | .create output => s.bytes = s.total ∧ s.completed.map Prod.fst = wanted x s.index ∧
      ∃ entry, x.entries[s.index]? = some entry ∧ Extracted x entry ∧ entry.directory = false ∧
        output = outputOf x entry ∧ s.total + entry.uncompressedSize ≤ x.maximumTotalBytes
  | .openEntry output => s.bytes = s.total ∧ s.completed.map Prod.fst = wanted x s.index ∧
      Current x disk s output ∧ s.delivered = [] ∧ s.disk output = some (.file s.delivered)
  | .read output written => s.bytes = s.total + written ∧
      s.completed.map Prod.fst = wanted x s.index ∧ Current x disk s output ∧
      written ≤ s.size x ∧ s.delivered.length = written ∧ s.disk output = some (.file s.delivered)
  | .write output written chunk offset => s.bytes = s.total + written + offset ∧
      s.completed.map Prod.fst = wanted x s.index ∧ Current x disk s output ∧
      written + chunk.length ≤ s.size x ∧ offset ≤ chunk.length ∧
      s.delivered.length = written + chunk.length ∧
      ∃ contents, s.disk output = some (.file contents) ∧
        contents ++ chunk.drop offset = s.delivered
  | .closeEntry output written failure => s.completed.map Prod.fst = wanted x s.index ∧
      Current x disk s output ∧ s.bytes ≤ x.maximumTotalBytes ∧
      (failure = none → s.bytes = s.total + written ∧ s.delivered.length = written ∧
        s.disk output = some (.file s.delivered))
  | .remove output _ => Current x disk s output ∧ s.bytes ≤ x.maximumTotalBytes
  | .next => s.bytes = s.total ∧ s.index < x.entries.length ∧
      s.completed.map Prod.fst = wanted x (s.index + 1)
  | .done true _ => s.bytes = s.total ∧ s.completed.map Prod.fst = wanted x x.entries.length
  | .done false _ => s.bytes ≤ x.maximumTotalBytes

structure Kept (x : Extraction) (disk : Disk) (s : State) : Prop where
  atCall : AtCall x disk s
  total : s.total ≤ x.maximumTotalBytes
  files : s.files = s.completed.length
  complete : ∀ file ∈ s.completed, Complete x s file
  /-- What was there is there. -/
  kept : ∀ path node, disk path = some node → s.disk path = some node
  /-- What has changed is where it may. -/
  made : ∀ path, s.disk path ≠ disk path → Allowed x.destination path

/-- A new call over the same state. -/
theorem Kept.call {pc : Pc} (h : Kept x disk s) (hcall : AtCall x disk { s with pc }) :
    Kept x disk { s with pc } := ⟨hcall, h.total, h.files, h.complete, h.kept, h.made⟩

theorem Kept.fail (h : Kept x disk s) (hbytes : s.bytes ≤ x.maximumTotalBytes) (error : Bytes) :
    Kept x disk (s.fail error) := h.call hbytes

theorem Kept.fresh (h : Kept x disk s) (hnone : s.disk path = none) : disk path = none := by
  cases hinitial : disk path with
  | none => rfl
  | some node =>
    rw [h.kept path node hinitial] at hnone
    cases hnone

/-- A path where there is nothing is no finished file's. -/
theorem Kept.apart (h : Kept x disk s) (hnone : s.disk path = none) :
    ∀ file ∈ s.completed, ∀ entry, x.entries[file.1]? = some entry → outputOf x entry ≠ path := by
  rintro file hfile entry hentry rfl
  obtain ⟨entry', hentry', _, hdisk⟩ := h.complete file hfile
  rw [hentry] at hentry'
  cases hentry'
  rw [hnone] at hdisk
  cases hdisk

/-- A change on an allowed path that was free and is no finished file's. -/
theorem Kept.set {next : State} (h : Kept x disk s) (hnext : next.disk = s.disk.set path node)
    (hcompleted : next.completed = s.completed) (hfresh : disk path = none)
    (hallowed : Allowed x.destination path)
    (hapart : ∀ file ∈ s.completed, ∀ entry, x.entries[file.1]? = some entry →
      outputOf x entry ≠ path) (hcall : AtCall x disk next)
    (htotal : next.total = s.total) (hfiles : next.files = s.files) : Kept x disk next where
  atCall := hcall
  total := htotal ▸ h.total
  files := by rw [hfiles, hcompleted, h.files]
  complete file hfile := by
    rw [hcompleted] at hfile
    obtain ⟨entry, hentry, hsize, hdisk⟩ := h.complete file hfile
    refine ⟨entry, hentry, hsize, ?_⟩
    rw [hnext, Disk.set, if_neg (hapart file hfile entry hentry), hdisk]
  kept p n hp := by
    rw [hnext, Disk.set]
    split
    · next heq =>
      rw [heq, hfresh] at hp
      cases hp
    · exact h.kept p n hp
  made p hp := by
    rw [hnext, Disk.set] at hp
    split at hp
    · next heq => exact heq ▸ hallowed
    · exact h.made p hp

theorem Current.allowed (h : Current x disk s output) : Allowed x.destination output := by
  obtain ⟨entry, _, hextracted, _, rfl, _⟩ := h.entry
  exact hextracted.allowed

/-! One lemma for each call. -/

theorem kept_opened {error : Option Bytes} {first : GoTo} (h : Kept x disk s)
    (hpc : s.pc = .openArchive) : Kept x disk (afterOpened x s error first) := by
  have hcall := h.atCall
  rw [AtCall, hpc] at hcall
  obtain ⟨hindex, hbytes, hcompleted⟩ := hcall
  have hbound : s.bytes ≤ x.maximumTotalBytes := hbytes ▸ h.total
  have hdone : x.entries = [] → Kept x disk { s with pc := .done true [] } := by
    intro hempty
    refine h.call ⟨hbytes, ?_⟩
    rw [hcompleted, hempty]
    rfl
  cases error with
  | some error => exact h.fail hbound error
  | none =>
    cases first with
    | ok =>
      unfold afterOpened
      dsimp only
      by_cases hempty : x.entries = []
      · rw [if_pos hempty]
        exact hdone hempty
      · rw [if_neg hempty]
        refine h.call ⟨hbytes, ?_⟩
        rw [hcompleted, hindex]
        rfl
    | endOfList =>
      unfold afterOpened
      dsimp only
      split
      · next hempty => exact hdone hempty
      · exact h.fail hbound _
    | failed =>
      unfold afterOpened
      dsimp only
      split
      · next hempty => exact hdone hempty
      · exact h.fail hbound _

/-- An entry that is passed over adds nothing to those wanted. -/
theorem wanted_succ_skip {index : Nat} (hentry : x.entries[index]? = some entry)
    (hskip : (selects x entry && !entry.directory) = false) :
    wanted x (index + 1) = wanted x index := by
  simp [wanted, List.range_succ, hentry, hskip]

theorem wanted_succ {index : Nat} (hentry : x.entries[index]? = some entry)
    (htake : (selects x entry && !entry.directory) = true) :
    wanted x (index + 1) = wanted x index ++ [index] := by
  simp [wanted, List.range_succ, hentry, htake]

theorem kept_info {info : InfoAnswer} (h : Kept x disk s) (hpc : s.pc = .info)
    (hentry : x.entries[s.index]? = some entry) : Kept x disk (afterInfo x s entry info) := by
  have hcall := h.atCall
  rw [AtCall, hpc] at hcall
  obtain ⟨hbytes, hwanted⟩ := hcall
  have hbound : s.bytes ≤ x.maximumTotalBytes := hbytes ▸ h.total
  have hindex : s.index < x.entries.length := (List.getElem?_eq_some_iff.1 hentry).1
  unfold afterInfo
  split
  · exact h.fail hbound _
  · split
    · exact h.fail hbound _
    · split
      · next hskip =>
        refine h.call ⟨hbytes, hindex, ?_⟩
        rw [wanted_succ_skip hentry (by simpa using fun hsel => absurd hsel (by simpa using hskip))]
        exact hwanted
      · next hselected =>
        split
        · exact h.fail hbound _
        · next hok =>
          simp only [Bool.not_eq_true, Bool.not_eq_false', Bool.or_eq_false_iff,
            decide_eq_false_iff_not, Nat.not_lt] at hselected hok
          have hextracted : Extracted x entry :=
            ⟨by simpa using hselected, by simpa using hok.1.1.1⟩
          have hroom : s.total + entry.uncompressedSize ≤ x.maximumTotalBytes := by
            have hsize := hok.1.2
            have htotal := hok.2
            omega
          have hways := allowed_ancestors hextracted.allowed
          have hparent : ∀ path ∈ ancestors (outputOf x entry).dropLast,
              Allowed x.destination path :=
            allowed_ancestors (allowed_way (List.dropLast_prefix _) hextracted.allowed)
          split
          · next hdirectory =>
            exact h.call ⟨hbytes, hwanted, hways, entry, hentry, hextracted, hdirectory⟩
          · next hfile =>
            exact h.call ⟨hbytes, hwanted, hparent, entry, hentry, hextracted,
              by simpa using hfile, rfl, hroom⟩

theorem kept_made {output : Option Path} {ok : Bool} (h : Kept x disk s)
    (hpc : s.pc = .makeDirectories missing output) :
    Kept x disk (afterMade s missing output ok) := by
  have hcall := h.atCall
  rw [AtCall, hpc] at hcall
  obtain ⟨hbytes, hwanted, hallowed, entry, hentry, hextracted, houtput⟩ := hcall
  have hbound : s.bytes ≤ x.maximumTotalBytes := hbytes ▸ h.total
  have hindex : s.index < x.entries.length := (List.getElem?_eq_some_iff.1 hentry).1
  cases missing with
  | nil =>
    cases output with
    | none =>
      refine h.call ⟨hbytes, hindex, ?_⟩
      rw [wanted_succ_skip hentry (by simp [show entry.directory = true from houtput])]
      exact hwanted
    | some output => exact h.call ⟨hbytes, hwanted, entry, hentry, hextracted, houtput⟩
  | cons path missing =>
    have hrest : ∀ p ∈ missing, Allowed x.destination p :=
      fun p hp => hallowed p (List.mem_cons_of_mem _ hp)
    have hmade : AtCall x disk { s with pc := .makeDirectories missing output } :=
      ⟨hbytes, hwanted, hrest, entry, hentry, hextracted, houtput⟩
    unfold afterMade
    dsimp only
    split
    · exact h.call hmade
    · exact h.fail hbound _
    · split
      · exact h.call hmade
      · exact h.fail hbound _
    · next hnone =>
      split
      · exact h.set rfl rfl (h.fresh hnone) (hallowed path (List.mem_cons_self ..)) (h.apart hnone)
          hmade rfl rfl
      · exact h.fail hbound _

theorem kept_created {ok : Bool} (h : Kept x disk s) (hpc : s.pc = .create output) :
    Kept x disk (afterCreated s output ok) := by
  have hcall := h.atCall
  rw [AtCall, hpc] at hcall
  obtain ⟨hbytes, hwanted, entry, hentry, hextracted, hfile, rfl, hroom⟩ := hcall
  unfold afterCreated
  split
  · next hfree =>
    simp only [Bool.and_eq_true, beq_iff_eq] at hfree
    have hnone := hfree.2
    have hcurrent : Current x disk s (outputOf x entry) :=
      ⟨⟨entry, hentry, hextracted, hfile, rfl, hroom⟩, h.fresh hnone, h.apart hnone⟩
    refine h.set rfl rfl (h.fresh hnone) hextracted.allowed (h.apart hnone) ?_ rfl rfl
    refine ⟨hbytes, hwanted, ⟨hcurrent.entry, hcurrent.fresh, hcurrent.apart⟩, rfl, ?_⟩
    simp [Disk.set]
  · exact h.fail (hbytes ▸ h.total) _

theorem kept_entryOpened {ok : Bool} (h : Kept x disk s) (hpc : s.pc = .openEntry output) :
    Kept x disk (afterEntryOpened s output ok) := by
  have hcall := h.atCall
  rw [AtCall, hpc] at hcall
  obtain ⟨hbytes, hwanted, hcurrent, hdelivered, hdisk⟩ := hcall
  have hcurrent' : ∀ pc, Current x disk { s with pc } output :=
    fun _ => ⟨hcurrent.entry, hcurrent.fresh, hcurrent.apart⟩
  unfold afterEntryOpened
  cases ok with
  | true =>
    refine h.call ⟨hbytes, hwanted, hcurrent' _, Nat.zero_le _, ?_, hdisk⟩
    rw [hdelivered]
    rfl
  | false =>
    refine h.call ⟨hcurrent' _, ?_⟩
    exact hbytes ▸ h.total

theorem State.size_eq (hentry : x.entries[s.index]? = some entry) :
    s.size x = entry.uncompressedSize := by
  rw [State.size, hentry]

/-- Nothing of the current entry goes beyond the limit. -/
theorem Current.room (h : Current x disk s output) : s.total + s.size x ≤ x.maximumTotalBytes := by
  obtain ⟨entry, hentry, _, _, _, hroom⟩ := h.entry
  rw [State.size_eq hentry]
  exact hroom

theorem Current.call {pc : Pc} (h : Current x disk s output) :
    Current x disk { s with pc } output :=
  ⟨h.entry, h.fresh, h.apart⟩

theorem kept_read {data : ReadAnswer} (h : Kept x disk s) {written : Nat}
    (hpc : s.pc = .read output written) (hentry : x.entries[s.index]? = some entry) :
    Kept x disk (afterRead s entry output written data) := by
  have hcall := h.atCall
  rw [AtCall, hpc] at hcall
  obtain ⟨hbytes, hwanted, hcurrent, hwritten, hdelivered, hdisk⟩ := hcall
  have hroom := hcurrent.room
  have hsize := State.size_eq hentry
  have hbound : s.bytes ≤ x.maximumTotalBytes := by omega
  cases data with
  | failed => exact h.call ⟨hwanted, hcurrent.call, hbound, nofun⟩
  | data chunk =>
    cases chunk with
    | nil => exact h.call ⟨hwanted, hcurrent.call, hbound, fun _ => ⟨hbytes, hdelivered, hdisk⟩⟩
    | cons byte chunk =>
      unfold afterRead
      dsimp only
      split
      · exact h.call ⟨hwanted, hcurrent.call, hbound, nofun⟩
      · next hfits =>
        rw [not_or, Nat.not_lt, Nat.not_lt] at hfits
        have hwrite : AtCall x disk { s with
            pc := .write output written (byte :: chunk) 0
            delivered := s.delivered ++ byte :: chunk } := by
          refine ⟨hbytes, hwanted, ⟨hcurrent.entry, hcurrent.fresh, hcurrent.apart⟩, ?_,
            Nat.zero_le _, ?_, s.delivered, hdisk, rfl⟩
          · change written + (byte :: chunk).length ≤ s.size x
            omega
          · rw [List.length_append, hdelivered]
        exact ⟨hwrite, h.total, h.files, h.complete, h.kept, h.made⟩

theorem Disk.append_eq {disk : Disk} {contents : Bytes} (h : disk path = some (.file contents)) :
    disk.append path bytes = disk.set path (some (.file (contents ++ bytes))) := by
  rw [Disk.append, h]

theorem Disk.set_self {disk : Disk} : disk.set path node path = node := by
  rw [Disk.set, if_pos rfl]

theorem kept_wrote {out : WriteAnswer} (h : Kept x disk s) {written offset : Nat} {chunk : Bytes}
    (hpc : s.pc = .write output written chunk offset)
    (hcount : ∀ count, out = .count count → offset + count ≤ chunk.length) :
    Kept x disk (afterWrote s output written chunk offset out) := by
  have hcall := h.atCall
  rw [AtCall, hpc] at hcall
  obtain ⟨hbytes, hwanted, hcurrent, hwritten, hoffset, hlength, contents,
      hdisk, hdelivered⟩ := hcall
  have hroom := hcurrent.room
  cases out with
  | interrupted => exact h
  | failed error =>
    refine h.call ⟨hwanted, hcurrent.call, ?_, nofun⟩
    change s.bytes ≤ x.maximumTotalBytes
    omega
  | count count =>
    have hcount := hcount count rfl
    have happend : s.disk.append output ((chunk.drop offset).take count) =
        s.disk.set output (some (.file (contents ++ (chunk.drop offset).take count))) :=
      Disk.append_eq hdisk
    have hrest : (contents ++ (chunk.drop offset).take count) ++ chunk.drop (offset + count) =
        s.delivered := by
      rw [List.append_assoc, ← List.drop_drop, List.take_append_drop, hdelivered]
    unfold afterWrote
    dsimp only
    split
    · refine h.set happend rfl hcurrent.fresh hcurrent.allowed hcurrent.apart ?_ rfl rfl
      refine ⟨?_, hwanted, ⟨hcurrent.entry, hcurrent.fresh, hcurrent.apart⟩,
        hwritten, hcount, hlength,
        contents ++ (chunk.drop offset).take count, ?_, hrest⟩
      · change s.bytes + count = s.total + written + (offset + count)
        omega
      · change s.disk.append _ _ _ = _
        rw [happend, Disk.set_self]
    · next hlast =>
      have hall : contents ++ (chunk.drop offset).take count = s.delivered := by
        rw [List.drop_of_length_le (Nat.not_lt.1 hlast), List.append_nil] at hrest
        exact hrest
      refine h.set happend rfl hcurrent.fresh hcurrent.allowed hcurrent.apart ?_ rfl rfl
      refine ⟨?_, hwanted, ⟨hcurrent.entry, hcurrent.fresh, hcurrent.apart⟩, hwritten, hlength, ?_⟩
      · change s.bytes + count = s.total + (written + chunk.length)
        omega
      · change s.disk.append _ _ _ = _
        rw [happend, Disk.set_self, hall]

theorem kept_closed {failure : Option Bytes} {ok : Bool} {written : Nat} (h : Kept x disk s)
    (hpc : s.pc = .closeEntry output written failure) (hentry : x.entries[s.index]? = some entry) :
    Kept x disk (afterClosed s entry output written failure ok) := by
  have hcall := h.atCall
  rw [AtCall, hpc] at hcall
  obtain ⟨hwanted, hcurrent, hbound, hwhole⟩ := hcall
  have hremove : ∀ error, Kept x disk { s with pc := .remove output error } :=
    fun _ => h.call ⟨hcurrent.call, hbound⟩
  cases failure with
  | some error => exact hremove error
  | none =>
    obtain ⟨hbytes, hdelivered, hdisk⟩ := hwhole rfl
    unfold afterClosed
    dsimp only
    split
    · exact hremove _
    · split
      · exact hremove _
      · next hsize =>
        rw [not_not] at hsize
        obtain ⟨entry', hentry', hextracted, hfile, rfl, hroom⟩ := hcurrent.entry
        rw [hentry] at hentry'
        cases hentry'
        exact {
          atCall := by
            refine ⟨?_, (List.getElem?_eq_some_iff.1 hentry).1, ?_⟩
            · change s.bytes = s.total + entry.uncompressedSize
              omega
            · rw [wanted_succ hentry (by simp [hextracted.selected, hfile]),
                List.map_append, hwanted]
              rfl
          total := hroom
          files := by simp [h.files]
          complete := by
            intro file hmem
            rcases List.mem_append.1 hmem with hmem | hmem
            · exact h.complete file hmem
            · rw [List.mem_singleton] at hmem
              subst hmem
              exact ⟨entry, hentry, hdelivered.trans hsize, hdisk⟩
          kept := h.kept
          made := h.made }

/-- Removing is no overwriting: only what this extraction has made goes. -/
theorem kept_removed {error : Bytes} {ok : Bool} (h : Kept x disk s)
    (hpc : s.pc = .remove output error) : Kept x disk (afterRemoved s output error ok) := by
  have hcall := h.atCall
  rw [AtCall, hpc] at hcall
  obtain ⟨hcurrent, hbound⟩ := hcall
  unfold afterRemoved
  cases ok with
  | true => exact h.set rfl rfl hcurrent.fresh hcurrent.allowed hcurrent.apart hbound rfl rfl
  | false => exact h.call hbound

theorem kept_next {ok : Bool} (h : Kept x disk s) (hpc : s.pc = .next) :
    Kept x disk (afterNext x s ok) := by
  have hcall := h.atCall
  rw [AtCall, hpc] at hcall
  obtain ⟨hbytes, hindex, hwanted⟩ := hcall
  unfold afterNext
  split
  · next hlast =>
    have hlength : x.entries.length = s.index + 1 := by omega
    refine ⟨⟨hbytes, ?_⟩, h.total, h.files, h.complete, h.kept, h.made⟩
    rw [hlength]
    exact hwanted
  · split
    · exact ⟨⟨hbytes, hwanted⟩, h.total, h.files, h.complete, h.kept, h.made⟩
    · exact h.fail (hbytes ▸ h.total) _

/-! Runs. -/

theorem kept_initial : Kept x disk { disk } where
  atCall := ⟨rfl, rfl, rfl⟩
  total := Nat.zero_le _
  files := rfl
  complete := nofun
  kept _ _ h := h
  made _ h := absurd rfl h

theorem kept_step (hstep : (extractLTS x disk).step s answer t) (h : Kept x disk s) :
    Kept x disk t := by
  obtain ⟨hpermitted, hstep⟩ := hstep
  have hcount : ∀ output written chunk offset count, s.pc = .write output written chunk offset →
      answer = .wrote (.count count) → offset + count ≤ chunk.length := by
    rintro output written chunk offset count hpc rfl
    simpa [permitted, hpc] using hpermitted
  clear hpermitted
  unfold step at hstep
  split at hstep <;> cases hstep
  · next hpc => exact kept_opened h hpc
  · next hpc hentry => exact kept_info h hpc hentry
  · next hpc => exact kept_made h hpc
  · next hpc => exact kept_created h hpc
  · next hpc => exact kept_entryOpened h hpc
  · next hpc hentry => exact kept_read h hpc hentry
  · next hpc =>
    refine kept_wrote h hpc ?_
    rintro count rfl
    exact hcount _ _ _ _ count hpc rfl
  · next hpc hentry => exact kept_closed h hpc hentry
  · next hpc => exact kept_removed h hpc
  · next hpc => exact kept_next h hpc

theorem kept_reachable (h : (extractLTS x disk).Reachable s) : Kept x disk s := by
  refine h.invariant ?_ fun _ _ _ hstep => kept_step hstep
  rintro s rfl
  exact kept_initial

/-! The whole call. -/

theorem wanted_length {count : Nat} (h : count ≤ x.entries.length) : (wanted x count).length =
    ((x.entries.take count).filter fun entry => selects x entry && !entry.directory).length := by
  induction count with
  | zero => rfl
  | succ count ih =>
    have hentry : x.entries[count]? = some x.entries[count] := List.getElem?_eq_getElem h
    have ih := ih (Nat.le_of_succ_le h)
    rw [List.take_add_one, List.filter_append, List.length_append, ← ih, hentry]
    cases htake : selects x x.entries[count] && !x.entries[count].directory with
    | true => rw [wanted_succ hentry htake]; simp [htake]
    | false => rw [wanted_succ_skip hentry htake]; simp [htake]

/-- Every selected entry that is no directory has become a file, all of it. -/
structure Whole (x : Extraction) (s : State) : Prop where
  files : s.files = (x.entries.filter fun entry => selects x entry && !entry.directory).length
  written : ∀ index entry, x.entries[index]? = some entry → selects x entry = true →
    entry.directory = false → ∃ bytes, (index, bytes) ∈ s.completed ∧
      bytes.length = entry.uncompressedSize ∧ s.disk (outputOf x entry) = some (.file bytes)

theorem Kept.bounded (h : Kept x disk s) : s.bytes ≤ x.maximumTotalBytes := by
  have hcall := h.atCall
  have htotal := h.total
  unfold AtCall at hcall
  split at hcall
  · omega
  · omega
  · omega
  · omega
  · omega
  · next output written _ =>
    have hroom := hcall.2.2.1.room
    omega
  · next output written chunk offset _ =>
    have hroom := hcall.2.2.1.room
    omega
  · exact hcall.2.2.1
  · exact hcall.2
  · omega
  · omega
  · exact hcall

theorem Kept.whole {error : Bytes} (h : Kept x disk s) (hdone : s.pc = .done true error) :
    Whole x s := by
  have hcall := h.atCall
  rw [AtCall, hdone] at hcall
  obtain ⟨_, hwanted⟩ := hcall
  constructor
  · rw [h.files, ← List.length_map (f := Prod.fst), hwanted, wanted_length le_rfl, List.take_length]
  · intro index entry hentry hselected hfile
    have hmem : index ∈ wanted x x.entries.length := by
      rw [wanted, List.mem_filter, List.mem_range]
      exact ⟨(List.getElem?_eq_some_iff.1 hentry).1, by simp [hentry, hselected, hfile]⟩
    rw [← hwanted] at hmem
    obtain ⟨⟨index', bytes⟩, hcompleted, rfl⟩ := List.mem_map.1 hmem
    obtain ⟨entry', hentry', hsize, hdisk⟩ := h.complete _ hcompleted
    rw [hentry] at hentry'
    cases hentry'
    exact ⟨bytes, hcompleted, hsize, hdisk⟩

variable {listing : Listing} {namePrefix : Bytes} {destination : Path} {maximumTotalBytes : Nat}

/-- Whatever minizip and the file system answer, and however far the extraction has come. -/
theorem extractZipPrefix_safe
    (h : (extractZipPrefix listing namePrefix destination maximumTotalBytes disk).Reachable s) :
    (∀ path, s.disk path ≠ disk path → Allowed destination path) ∧
      s.bytes ≤ maximumTotalBytes ∧
      (∀ path node, disk path = some node → s.disk path = some node) ∧
      ∀ error, s.pc = .done true error →
        ∃ entries, listZipEntries listing kMaximumEntries = .ok entries ∧
        Whole { entries, namePrefix, destination, maximumTotalBytes } s := by
  unfold extractZipPrefix at h
  split at h
  · next error _ =>
    have hs : s = { disk, pc := .done false error } := by
      refine h.invariant (I := fun s => s = _) (fun _ h => h) ?_
      rintro s answer t ⟨⟩
    subst hs
    exact ⟨fun _ h => absurd rfl h, Nat.zero_le _, fun _ _ h => h, nofun⟩
  · next entries hlisted =>
    have hkept := kept_reachable h
    refine ⟨hkept.made, hkept.bounded, hkept.kept, ?_⟩
    intro error hdone
    exact ⟨entries, hlisted, hkept.whole hdone⟩

/-- An archive of one file. -/
def letterListing : Listing where
  openError := none
  declared := some 1
  first := .ok
  infos _ := .info { name := Ascii.bytes "a/b", uncompressedSize := 1, externalFa := 0 }
  next _ := false

def letterExtraction : Extraction where
  entries := [⟨Ascii.bytes "a/b", 1, false, false⟩]
  namePrefix := Ascii.bytes "a/"
  destination := [Ascii.bytes "out"]
  maximumTotalBytes := 1

/-- A disk with nothing on it. -/
def emptyDisk : Disk := fun path => if path = [] then some .directory else none

/-- The answers where everything goes well. -/
def letterAnswers : List Answer :=
  [.opened none .ok, .info (letterListing.infos 0), .made true, .made true, .created true,
    .entryOpened true, .read (.data [7]), .wrote (.count 1), .read (.data []),
    .closed true, .next true]

def permittedStep (x : Extraction) (s : State) (answer : Answer) : Option State :=
  if permitted s answer then step x s answer else none

theorem run_of_answers {answers : List Answer} (h : answers.foldlM (permittedStep x) s = some t) :
    (extractLTS x disk).Run s answers t := by
  refine LTS.Run.of_foldlM ?_ h
  intro s answer t hstep
  unfold permittedStep at hstep
  split at hstep
  · next hpermitted => exact ⟨hpermitted, hstep⟩
  · cases hstep

theorem letter_extracted : ∃ s : State,
    (extractZipPrefix letterListing (Ascii.bytes "a/")
      [Ascii.bytes "out"] 1 emptyDisk).Reachable s ∧
      s.pc = .done true [] ∧ s.disk [Ascii.bytes "out"] = some .directory := by
  have hlisted : listZipEntries letterListing kMaximumEntries = .ok letterExtraction.entries := by
    decide +kernel
  have hends : (letterAnswers.foldlM (permittedStep letterExtraction) { disk := emptyDisk }).map
      (fun s => (s.pc, s.disk [Ascii.bytes "out"])) = some (.done true [], some .directory) := by
    decide +kernel
  obtain ⟨s, hrun, hend⟩ := Option.map_eq_some_iff.1 hends
  rw [Prod.mk.injEq] at hend
  refine ⟨s, ?_, hend⟩
  rw [extractZipPrefix, hlisted]
  exact ⟨_, _, rfl, run_of_answers hrun⟩

theorem extractZipPrefix_safe_letter : ∃ s : State, s.pc = .done true [] ∧ s.bytes ≤ 1 ∧
    ∃ entries, listZipEntries letterListing kMaximumEntries = .ok entries ∧
      Whole ⟨entries, Ascii.bytes "a/", [Ascii.bytes "out"], 1⟩ s := by
  obtain ⟨s, hreach, hdone, _⟩ := letter_extracted
  obtain ⟨_, hbytes, _, hwhole⟩ := extractZipPrefix_safe hreach
  exact ⟨s, hdone, hbytes, hwhole [] hdone⟩

/-- `create_directories` makes the destination itself. -/
theorem letter_makes_destination : ∃ s : State,
    (extractZipPrefix letterListing (Ascii.bytes "a/")
      [Ascii.bytes "out"] 1 emptyDisk).Reachable s ∧
      emptyDisk [Ascii.bytes "out"] = none ∧ s.disk [Ascii.bytes "out"] = some .directory ∧
      ¬ ∃ names, names ≠ [] ∧ [Ascii.bytes "out"] = [Ascii.bytes "out"] ++ names := by
  obtain ⟨s, hreach, _, hdisk⟩ := letter_extracted
  refine ⟨s, hreach, by decide +kernel, hdisk, ?_⟩
  rintro ⟨names, hne, hnames⟩
  exact hne (by simpa using hnames)

end Nightcap.Update.ZipArchive
