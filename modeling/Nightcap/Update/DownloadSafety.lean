import Nightcap.Lib.CrashPoints
import Nightcap.Update.HttpDownload

/-! A resumed download never mixes two representations, at any point a crash can leave it. -/
namespace Nightcap.Update.Download

open Utf8 Ascii CrashPoints Transition

variable {sha256 : Bytes → Bytes} {version : Bytes → Bytes → Bytes}
  {request : HttpTransferRequest} {start : Start}
  {d : Files} {h h' : DownloadHeaders} {w w' : FileWriter} {transfer : Transfer}
  {rep : Bytes} {ops : List FileOp}
  {lines : List (Bytes × Saved)} {chunks : List Chunk} {line : Bytes} {saved : Saved}
  {status : Int} {taken : Bool}

/-- The statuses whose body is kept. -/
def Accepted (status : Int) : Prop := status = 200 ∨ status = 206

instance : DecidablePred Accepted :=
  fun status => inferInstanceAs (Decidable (status = 200 ∨ status = 206))

def Transfer.headers (request : HttpTransferRequest) (start : Start) (transfer : Transfer) :
    Bool × DownloadHeaders :=
  let read := readLines (response request start) transfer.lines
  (read.1, read.2.1)

def Transfer.body (transfer : Transfer) : Bytes := (transfer.chunks.map Chunk.data).flatten

/-- How libcurl and an honest server answer a request with the representation `rep`. The server
tells two representations of one address apart by strong entity tags, and sends part of one under
`If-Range` only while its tag is the one asked for. -/
structure Serves (version : Bytes → Bytes → Bytes) (request : HttpTransferRequest) (start : Start)
    (transfer : Transfer) (rep : Bytes) : Prop where
  blocks : ∀ before line after, transfer.lines = before ++ line :: after → isStatusLine line.1 →
    ¬Accepted (readLines (response request start) before).2.1.status
  http_status : transfer.http_status = (transfer.headers request start).2.status
  refused : (perform request start transfer).1 = false → transfer.status ≠ .ok
  complete : (transfer.headers request start).1 → transfer.chunks ≠ [] ∨ transfer.status = .ok →
    (transfer.headers request start).2.complete
  whole : (transfer.headers request start).2.status = 200 →
    transfer.body <+: rep ∧ (transfer.status = .ok → transfer.body = rep)
  ranged : ∀ first last total rest, (transfer.headers request start).2.status = 206 →
    rangeValues (transfer.headers request start).2.range = some (first, last, total, rest) →
    total = rep.length ∧ transfer.body <+: (rep.drop first).take (last + 1 - first) ∧
      (transfer.status = .ok → transfer.body = (rep.drop first).take (last + 1 - first))
  tagged : Accepted (transfer.headers request start).2.status →
    strongEtag (transfer.headers request start).2.etag →
    rep = version request.url (transfer.headers request start).2.etag
  ifRange : 0 < start.existing → (transfer.headers request start).2.status = 206 →
    rep = version request.url start.etag

/-- A response that is kept from the first byte on has a strong tag of its own, unless no strong tag
is on record. -/
def Settled (request : HttpTransferRequest) (start : Start) (state : Option StateRecord)
    (transfer : Transfer) : Prop :=
  start.existing = 0 → Accepted (transfer.headers request start).2.status →
    strongEtag (transfer.headers request start).2.etag = false →
    ∀ record, state = some record → strongEtag record.etag = false

/-- What is in the partial file beside a strong tag is a beginning of the representation with that
tag. -/
def Consistent (version : Bytes → Bytes → Bytes) (d : Files) : Prop :=
  ∀ part record, d.part = some part → part ≠ [] → d.state = some record → strongEtag record.etag →
    part <+: version record.url record.etag

theorem applyAll_append (d : Files) (ops more : List FileOp) :
    applyAll d (ops ++ more) = applyAll (applyAll d ops) more := List.foldl_append

theorem consistent_of_empty (h : d.part = none ∨ d.part = some []) : Consistent version d := by
  intro part record hpart hne
  rcases h with h | h
  · rw [h] at hpart
    cases hpart
  · rw [h] at hpart
    exact absurd (Option.some.inj hpart).symm hne

theorem consistent_of_unrecorded (h : d.state = none) : Consistent version d := by
  intro part record _ _ hstate
  rw [h] at hstate
  cases hstate

/-- Every operation but a write and a saved record keeps the files consistent. -/
theorem Consistent.apply {op : FileOp} (hd : Consistent version d)
    (hwrite : ∀ data, op ≠ .write data)
    (hsave : ∀ record, op = .saveState record → d.part = none ∨ d.part = some []) :
    Consistent version (op.apply d) := by
  cases op with
  | removePart removed =>
    cases removed with
    | true => exact consistent_of_empty (.inl rfl)
    | false => exact hd
  | removeState removed =>
    cases removed with
    | true => exact consistent_of_unrecorded rfl
    | false => exact hd
  | openPart truncate =>
    cases truncate with
    | true => exact consistent_of_empty (.inr rfl)
    | false =>
      intro part record hpart hne hstate hstrong
      cases hold : d.part with
      | none =>
        simp only [FileOp.apply, hold] at hpart
        exact absurd (Option.some.inj hpart).symm hne
      | some old =>
        simp only [FileOp.apply, hold] at hpart
        exact hd part record (hold.trans hpart) hne hstate hstrong
  | write data => exact absurd rfl (hwrite data)
  | saveState record => exact consistent_of_empty (hsave record rfl)
  | publish => exact consistent_of_empty (.inl rfl)

/-- An operation that adds nothing to either file. -/
def FileOp.Quiet : FileOp → Prop
  | .write _ | .saveState _ => False
  | _ => True

theorem through_quiet (hd : Consistent version d) (hops : ∀ op ∈ ops, FileOp.Quiet op) :
    Through FileOp.apply (Consistent version) d ops := by
  refine Through.of_step hd fun d hd op hop => hd.apply ?_ ?_
  all_goals
    have hquiet := hops op hop
    rintro _ rfl
    exact hquiet.elim

/-! ## The header lines -/

theorem endHeaders_kept : (endHeaders h saved).2.1.url = h.url ∧
    (endHeaders h saved).2.1.offset = h.offset ∧
    (endHeaders h saved).2.1.status = h.status ∧ (endHeaders h saved).2.1.etag = h.etag ∧
    (endHeaders h saved).2.1.complete = true := by
  unfold endHeaders readRange
  grind

theorem writeStateFile_ops {record : StateRecord} {op : FileOp}
    (h : op ∈ (writeStateFile record saved).2) :
    op = .saveState record := by
  cases saved <;> simp_all [writeStateFile]

theorem endHeaders_ops {op : FileOp} (hop : op ∈ (endHeaders h saved).2.2) :
    op = .saveState ⟨h.url, h.etag⟩ ∧ h.offset = 0 := by
  unfold endHeaders readRange at hop
  have hsave := @writeStateFile_ops saved ⟨h.url, h.etag⟩ op
  grind

/-- The end of accepted headers records their strong tag, and nothing else is ever recorded. -/
theorem endHeaders_taken (hoffset : h.offset = 0) (htaken : (endHeaders h saved).1 = true) :
    (endHeaders h saved).2.2 =
      if Accepted h.status ∧ strongEtag h.etag then [FileOp.saveState ⟨h.url, h.etag⟩] else [] := by
  unfold endHeaders readRange writeStateFile at *
  unfold Accepted
  grind

theorem readDownloadHeaders_kept : (readDownloadHeaders h line saved).2.1.url = h.url ∧
    (readDownloadHeaders h line saved).2.1.offset = h.offset := by
  have hend := @endHeaders_kept h saved
  unfold readDownloadHeaders
  grind

theorem readDownloadHeaders_ops {op : FileOp} (hop : op ∈ (readDownloadHeaders h line saved).2.2) :
    (∃ record, op = .saveState record) ∧ h.offset = 0 := by
  have hend := @endHeaders_ops h saved op
  unfold readDownloadHeaders at hop
  grind

/-- The state file once some lines are read: the tag of accepted headers, else what was there. -/
def Recorded (was : Option StateRecord) (h : DownloadHeaders) (state : Option StateRecord) : Prop :=
  (h.complete = true ∧ Accepted h.status ∧ strongEtag h.etag = true →
    state = some ⟨h.url, h.etag⟩) ∧
    (¬(h.complete = true ∧ Accepted h.status ∧ strongEtag h.etag = true) → state = was)

variable {was : Option StateRecord}

theorem Recorded.next (hs : Recorded was h d.state) (hoffset : h.offset = 0)
    (hblock : isStatusLine line = true → ¬Accepted h.status)
    (htaken : (readDownloadHeaders h line saved).1 = true) :
    Recorded was (readDownloadHeaders h line saved).2.1
      (applyAll d (readDownloadHeaders h line saved).2.2).state := by
  unfold readDownloadHeaders at htaken ⊢
  by_cases hstatus : isStatusLine line = true
  · have hwas : d.state = was := hs.2 fun h => hblock hstatus h.2.1
    simp [hstatus, Recorded, applyAll, hwas]
  by_cases hblank : isBlank line = true
  · simp only [hstatus, hblank, if_true, Bool.false_eq_true, if_false] at htaken ⊢
    obtain ⟨hurl, -, hsame, htag, hcomplete⟩ := @endHeaders_kept h saved
    rw [endHeaders_taken hoffset htaken]
    unfold Recorded
    rw [hurl, hsame, htag, hcomplete]
    by_cases hstrong : Accepted h.status ∧ strongEtag h.etag = true
    · simp [hstrong, applyAll, FileOp.apply]
    · have hwas : d.state = was := hs.2 fun h => hstrong h.2
      simp [hstrong, applyAll, hwas]
  by_cases hcomplete : h.complete = true
  · simpa [hstatus, hblank, hcomplete, applyAll] using hs
  · have hwas : d.state = was := hs.2 fun h => hcomplete h.1
    simp only [hstatus, hblank, hcomplete, if_false, Bool.false_eq_true]
    split <;> simp [Recorded, hcomplete, applyAll, hwas]

/-- A status line never follows the headers of an accepted response. -/
def Blocks (h : DownloadHeaders) (lines : List (Bytes × Saved)) : Prop :=
  ∀ before line after, lines = before ++ line :: after → isStatusLine line.1 →
    ¬Accepted (readLines h before).2.1.status

theorem Blocks.tail (hblocks : Blocks h ((line, saved) :: lines))
    (htaken : (readDownloadHeaders h line saved).1 = true) :
    Blocks (readDownloadHeaders h line saved).2.1 lines := by
  intro before next after hlines hstatus
  have hnot :=
    hblocks ((line, saved) :: before) next after (by rw [hlines, List.cons_append]) hstatus
  simpa [readLines, htaken] using hnot

theorem readLines_records (hs : Recorded was h d.state) (hoffset : h.offset = 0)
    (hblocks : Blocks h lines)
    (htaken : (readLines h lines).1 = true) :
    Recorded was (readLines h lines).2.1 (applyAll d (readLines h lines).2.2).state ∧
      (readLines h lines).2.1.url = h.url := by
  induction lines generalizing h d with
  | nil => exact ⟨hs, rfl⟩
  | cons first lines ih =>
    obtain ⟨line, saved⟩ := first
    by_cases hline : (readDownloadHeaders h line saved).1 = true
    · simp only [readLines, hline, if_true] at htaken ⊢
      have hkept := @readDownloadHeaders_kept h line saved
      have hfirst :=
        hs.next hoffset (fun hstatus => hblocks [] (line, saved) lines rfl hstatus) hline
      rw [applyAll_append, ← hkept.1]
      exact ih hfirst (hkept.2.trans hoffset) (hblocks.tail hline) htaken
    · simp [readLines, hline] at htaken

theorem readLines_ops {op : FileOp} (hop : op ∈ (readLines h lines).2.2) :
    (∃ record, op = .saveState record) ∧ h.offset = 0 := by
  induction lines generalizing h with
  | nil => cases hop
  | cons first lines ih =>
    obtain ⟨line, saved⟩ := first
    have hkept := @readDownloadHeaders_kept h line saved
    simp only [readLines] at hop
    split at hop
    · rcases List.mem_append.1 hop with hop | hop
      · exact readDownloadHeaders_ops hop
      · obtain ⟨hsave, hoffset⟩ := ih hop
        exact ⟨hsave, hkept.2 ▸ hoffset⟩
    · exact readDownloadHeaders_ops hop

/-- The headers of a resumed download write nothing. -/
theorem readLines_resuming (hoffset : h.offset ≠ 0) : (readLines h lines).2.2 = [] := by
  rw [List.eq_nil_iff_forall_not_mem]
  intro op hop
  exact hoffset (readLines_ops hop).2

theorem applyAll_saves (hops : ∀ op ∈ ops, ∃ record, op = FileOp.saveState record) (d : Files) :
    (applyAll d ops).part = d.part ∧ (applyAll d ops).destination = d.destination := by
  induction ops generalizing d with
  | nil => exact ⟨rfl, rfl⟩
  | cons op ops ih =>
    obtain ⟨record, rfl⟩ := hops op List.mem_cons_self
    exact ih (fun op hop => hops op (List.mem_cons_of_mem _ hop)) _

/-- Headers read over an empty partial file leave it empty, whatever they record. -/
theorem through_saves (hpart : d.part = some [])
    (hops : ∀ op ∈ ops, ∃ record, op = FileOp.saveState record) :
    Through FileOp.apply (fun d => Consistent version d ∧ d.part = some []) d ops := by
  refine Through.of_step ⟨consistent_of_empty (.inr hpart), hpart⟩ ?_
  rintro d ⟨-, hpart⟩ op hop
  obtain ⟨record, rfl⟩ := hops op hop
  exact ⟨consistent_of_empty (.inr hpart), hpart⟩

/-- What an end of headers that is taken has checked. -/
def Checked (h : DownloadHeaders) : Prop :=
  h.complete = true → (h.status = 200 → h.offset = 0) ∧
    (h.status = 206 → ∃ first last total, rangeValues h.range = some (first, last, total, []) ∧
      first = h.offset ∧
      first ≤ last ∧ last + 1 = total ∧ h.total = total)

theorem readRange_checked (hvalid : (readRange h).1 = true) : ∃ first last total,
    rangeValues h.range = some (first, last, total, []) ∧ first = h.offset ∧
      first ≤ last ∧ last + 1 = total ∧
      (readRange h).2 = { h with total } := by
  unfold readRange at hvalid ⊢
  split at hvalid
  · cases hvalid
  · rename_i first last total rest hvalues
    simp only [Bool.and_eq_true, List.isEmpty_iff, beq_iff_eq, decide_eq_true_eq] at hvalid
    obtain ⟨⟨⟨⟨⟨rfl, hfirst⟩, hle⟩, hlt⟩, hlast⟩, -⟩ := hvalid
    exact ⟨first, last, total, hvalues, hfirst, hle, by omega, rfl⟩

theorem endHeaders_checked (htaken : (endHeaders h saved).1 = true) :
    Checked (endHeaders h saved).2.1 := by
  have hrange := @readRange_checked { h with complete := true }
  unfold endHeaders at htaken ⊢
  unfold Checked
  grind

theorem Checked.next (hc : Checked h) (htaken : (readDownloadHeaders h line saved).1 = true) :
    Checked (readDownloadHeaders h line saved).2.1 := by
  have hend := @endHeaders_checked h saved
  unfold readDownloadHeaders at htaken ⊢
  unfold Checked at *
  grind

theorem readLines_checked (hc : Checked h) (htaken : (readLines h lines).1 = true) :
    Checked (readLines h lines).2.1 ∧ (readLines h lines).2.1.offset = h.offset := by
  induction lines generalizing h with
  | nil => exact ⟨hc, rfl⟩
  | cons first lines ih =>
    obtain ⟨line, saved⟩ := first
    have hkept := @readDownloadHeaders_kept h line saved
    by_cases hline : (readDownloadHeaders h line saved).1 = true
    · simp only [readLines, hline, if_true] at htaken ⊢
      rw [← hkept.2]
      exact ih (hc.next hline) htaken
    · simp [readLines, hline] at htaken

theorem readDownloadHeaders_refused (hoffset : h.offset = 0)
    (h' : (readDownloadHeaders h line saved).1 = false) :
    Accepted (readDownloadHeaders h line saved).2.1.status := by
  unfold readDownloadHeaders endHeaders readRange at *
  unfold Accepted
  grind

/-- Only a response that would be kept has its headers refused. -/
theorem readLines_refused (hoffset : h.offset = 0) (hrefused : (readLines h lines).1 = false) :
    Accepted (readLines h lines).2.1.status := by
  induction lines generalizing h with
  | nil => cases hrefused
  | cons first lines ih =>
    obtain ⟨line, saved⟩ := first
    have hkept := @readDownloadHeaders_kept h line saved
    by_cases hline : (readDownloadHeaders h line saved).1 = true
    · simp only [readLines, hline, if_true] at hrefused ⊢
      exact ih (hkept.2.trans hoffset) hrefused
    · simp only [readLines, hline, Bool.false_eq_true, if_false]
      exact readDownloadHeaders_refused hoffset (by simpa using hline)

/-! ## The body -/

theorem writes_prefix (data : Bytes) (cuts : List Nat) : (writes data cuts).flatten <+: data := by
  fun_induction writes data cuts with
  | case1 => exact List.nil_prefix
  | case2 => exact List.nil_prefix
  | case3 b data n cuts ih =>
    obtain ⟨rest, hrest⟩ := ih
    refine ⟨rest, ?_⟩
    rw [List.flatten_cons, List.append_assoc, hrest, List.cons_append, List.take_append_drop]

/-- What a piece of the body does to the files and the writer. -/
theorem writeFileBytes_spec (status : Int) (w : FileWriter) (chunk : Chunk) :
    ∃ pieces, (writeFileBytes status w chunk).2.2 = pieces.map .write ∧
      pieces.flatten <+: chunk.data ∧
      (¬Accepted status → pieces = []) ∧
      ((writeFileBytes status w chunk).1 = true → Accepted status → pieces.flatten = chunk.data ∧
        (writeFileBytes status w chunk).2.1.written = w.written + chunk.data.length ∧
        (writeFileBytes status w chunk).2.1.written ≤ w.maximum ∧
        (writeFileBytes status w chunk).2.1.maximum = w.maximum ∧
        (writeFileBytes status w chunk).2.1.sha256 = w.sha256.map (· ++ chunk.data)) := by
  by_cases hstatus : Accepted status
  · have hkept : ¬(status ≠ 200 ∧ status ≠ 206) := by
      rintro ⟨h200, h206⟩
      exact hstatus.elim h200 h206
    by_cases hroom : w.maximum < chunk.data.length ∨ w.maximum - chunk.data.length < w.written
    · refine ⟨[], ?_, List.nil_prefix, fun _ => rfl, ?_⟩
      · simp [writeFileBytes, hkept, hroom]
      · simp [writeFileBytes, hkept, hroom]
    · refine ⟨writes chunk.data chunk.cuts, ?_, writes_prefix _ _, fun h => absurd hstatus h, ?_⟩
      · simp only [writeFileBytes, hkept, hroom, if_false]
        split_ifs <;> rfl
      · intro htaken _
        simp only [writeFileBytes, hkept, hroom, if_false] at htaken ⊢
        split_ifs at htaken ⊢ with hwhole hhash
        exact ⟨by simpa using hwhole, rfl, by simp only; omega, rfl, rfl⟩
  · have hdropped : status ≠ 200 ∧ status ≠ 206 :=
      ⟨fun h => hstatus (.inl h), fun h => hstatus (.inr h)⟩
    refine ⟨[], ?_, List.nil_prefix, fun _ => rfl, fun _ h => absurd h hstatus⟩
    simp [writeFileBytes, hdropped]

theorem writeChunks_spec (status : Int) (w : FileWriter) (chunks : List Chunk)
    (hroom : w.written ≤ w.maximum) :
    ∃ pieces, (writeChunks status w chunks).2.2 = pieces.map .write ∧
      pieces.flatten <+: (chunks.map Chunk.data).flatten ∧ (¬Accepted status → pieces = []) ∧
      ((writeChunks status w chunks).1 = true → Accepted status →
        pieces.flatten = (chunks.map Chunk.data).flatten ∧
        (writeChunks status w chunks).2.1.written =
          w.written + (chunks.map Chunk.data).flatten.length ∧
        (writeChunks status w chunks).2.1.written ≤ w.maximum ∧
        (writeChunks status w chunks).2.1.sha256 = w.sha256.map
        (· ++ (chunks.map Chunk.data).flatten)) := by
  induction chunks generalizing w with
  | nil =>
    exact ⟨[], rfl, List.nil_prefix, fun _ => rfl, fun _ _ =>
      ⟨rfl, rfl, hroom, by simp [writeChunks]⟩⟩
  | cons chunk chunks ih =>
    obtain ⟨pieces, hops, hprefix, hnone, htaken⟩ := writeFileBytes_spec status w chunk
    by_cases hstatus : Accepted status
    · by_cases hone : (writeFileBytes status w chunk).1 = true
      · obtain ⟨hwhole, hwritten, hroom', hmaximum, hsha⟩ := htaken hone hstatus
        obtain ⟨more, hops', hprefix', -, htaken'⟩ :=
          ih (writeFileBytes status w chunk).2.1 (hmaximum ▸ hroom')
        refine ⟨pieces ++ more, ?_, ?_, fun h => absurd hstatus h, ?_⟩
        · simp only [writeChunks, hone, if_true, hops, hops', List.map_append]
        · rw [List.flatten_append, hwhole, List.map_cons, List.flatten_cons]
          exact (List.prefix_append_right_inj _).2 hprefix'
        · intro hall _
          simp only [writeChunks, hone, if_true] at hall ⊢
          obtain ⟨hwhole', hwritten', hmax', hsha'⟩ := htaken' hall hstatus
          rw [List.flatten_append, List.map_cons, List.flatten_cons, hwhole, hwhole',
            hwritten', hsha', hwritten, hsha,
            List.length_append, Option.map_map]
          refine ⟨rfl, by omega, ?_, ?_⟩
          · rw [hwritten', hwritten, hmaximum] at hmax'
            omega
          · congr 1
            funext digested
            simp
      · refine ⟨pieces, ?_, ?_, fun h => absurd hstatus h, ?_⟩
        · simp only [writeChunks, hone, Bool.false_eq_true, if_false, hops]
        · exact hprefix.trans (by simp)
        · intro hall
          simp [writeChunks, hone] at hall
    · obtain ⟨more, hops', -, hnone', -⟩ := ih w hroom
      have hkept : (writeFileBytes status w chunk) = (true, w, []) := by
        have hdropped : status ≠ 200 ∧ status ≠ 206 :=
          ⟨fun h => hstatus (.inl h), fun h => hstatus (.inr h)⟩
        simp [writeFileBytes, hdropped]
      refine ⟨[], ?_, List.nil_prefix, fun _ => rfl, fun _ h => absurd h hstatus⟩
      rw [hnone' hstatus] at hops'
      simp only [writeChunks, hkept, if_true, hops', List.map_nil, List.append_nil]

theorem applyAll_writes (pieces : List Bytes) (part : Bytes) (hpart : d.part = some part) :
    applyAll d (pieces.map .write) = { d with part := some (part ++ pieces.flatten) } := by
  induction pieces generalizing d part with
  | nil =>
    rw [List.flatten_nil, List.append_nil, ← hpart]
    rfl
  | cons piece pieces ih =>
    change applyAll (FileOp.apply d (.write piece)) (pieces.map .write) = _
    rw [ih (part ++ piece) (by simp [FileOp.apply, hpart])]
    simp [FileOp.apply]

/-- Writes are consistent all along if each beginning of what they write is. -/
theorem through_writes (pieces : List Bytes) (part : Bytes) (hpart : d.part = some part)
    (hgood : ∀ data, data <+: pieces.flatten →
      Consistent version { d with part := some (part ++ data) }) :
    Through FileOp.apply (Consistent version) d (pieces.map .write) := by
  induction pieces generalizing d part with
  | nil =>
    have hnow := hgood [] List.nil_prefix
    rwa [List.append_nil, ← hpart] at hnow
  | cons piece pieces ih =>
    have hnow := hgood [] List.nil_prefix
    rw [List.append_nil, ← hpart] at hnow
    refine ⟨hnow, ih (part ++ piece) (by simp [FileOp.apply, hpart]) fun data hdata => ?_⟩
    have hnext := hgood (piece ++ data) ((List.prefix_append_right_inj piece).2 hdata)
    simpa [FileOp.apply] using hnext

/-! ## One request -/

/-- The files once the partial file is opened: empty beside any record, or the beginning of the
representation that is resumed. -/
def Opened (version : Bytes → Bytes → Bytes) (request : HttpTransferRequest) (start : Start)
    (d : Files) : Prop :=
  (start.existing = 0 ∧ d.part = some []) ∨
    ∃ part, d.part = some part ∧ part.length = start.existing ∧ 0 < start.existing ∧
      part <+: version request.url start.etag ∧ strongEtag start.etag = true ∧
      d.state = some ⟨request.url, start.etag⟩

theorem Opened.consistent (hd : Opened version request start d) : Consistent version d := by
  rcases hd with ⟨-, hpart⟩ | ⟨part, hpart, -, -, hprefix, -, hstate⟩
  · exact consistent_of_empty (.inr hpart)
  · intro part' record hpart' _ hstate' _
    rw [hpart] at hpart'
    rw [hstate] at hstate'
    cases hpart'
    cases hstate'
    exact hprefix

theorem response_offset : (response request start).offset = start.existing := rfl

theorem recorded_response (d : Files) : Recorded d.state (response request start) d.state :=
  ⟨fun h => absurd h.1 Bool.false_ne_true, fun _ => rfl⟩

theorem checked_response : Checked (response request start) := fun h => absurd h Bool.false_ne_true

/-- The headers of one request leave the partial file alone. -/
theorem headers_part (d : Files) :
    (applyAll d (readLines (response request start) transfer.lines).2.2).part = d.part :=
  (applyAll_saves (fun _ hop => (readLines_ops hop).1) d).1

theorem perform_refused (hrefused : (transfer.headers request start).1 = false) :
    perform request start transfer =
      (false, (transfer.headers request start).2, writer request start,
        (readLines (response request start) transfer.lines).2.2) := by
  simp only [Transfer.headers] at hrefused ⊢
  simp [perform, hrefused]

theorem perform_taken (htaken : (transfer.headers request start).1 = true) :
    perform request start transfer =
      ((writeChunks (transfer.headers request start).2.status
        (writer request start) transfer.chunks).1,
        (transfer.headers request start).2,
        (writeChunks (transfer.headers request start).2.status
          (writer request start) transfer.chunks).2.1,
        (readLines (response request start) transfer.lines).2.2 ++
          (writeChunks (transfer.headers request start).2.status
            (writer request start) transfer.chunks).2.2) := by
  simp only [Transfer.headers] at htaken ⊢
  simp [perform, htaken]

/-- The headers of a request that starts afresh record their tag once they are accepted. -/
theorem headers_state (hfresh : start.existing = 0)
    (hserves : Serves version request start transfer rep)
    (htaken : (transfer.headers request start).1 = true) (d : Files) :
    Recorded d.state (transfer.headers request start).2
        (applyAll d (readLines (response request start) transfer.lines).2.2).state ∧
      (transfer.headers request start).2.url = request.url :=
  readLines_records (recorded_response d) hfresh hserves.blocks htaken

theorem through_headers (hd : Opened version request start d) :
    Through FileOp.apply (Consistent version) d
      (readLines (response request start) transfer.lines).2.2 := by
  rcases hd with ⟨-, hpart⟩ | hd
  · exact (through_saves hpart fun _ hop => (readLines_ops hop).1).mono fun _ h => h.1
  · have hresuming : (response request start).offset ≠ 0 := by
      obtain ⟨part, -, -, hpos, -⟩ := hd
      rw [response_offset]
      omega
    rw [readLines_resuming hresuming]
    exact Opened.consistent (.inr hd)

/-- What a kept body adds to the partial file goes on with the representation that is recorded. -/
theorem body_consistent (hserves : Serves version request start transfer rep)
    (hsettled : Settled request start d.state transfer) (hd : Opened version request start d)
    (htaken : (transfer.headers request start).1 = true)
    (hkept : Accepted (transfer.headers request start).2.status)
    {part data : Bytes} (hpart : d.part = some part) (hdata : data <+: transfer.body) :
    Consistent version { applyAll d (readLines (response request start) transfer.lines).2.2 with
      part := some (part ++ data) } := by
  intro whole record hwhole hne hstate hstrong
  cases hwhole
  rcases hd with ⟨hfresh, hempty⟩ | ⟨old, hold, hlength, hpos, hprefix, htag, hwas⟩
  · obtain rfl : part = [] := Option.some.inj (hpart.symm.trans hempty)
    rw [List.nil_append] at hne ⊢
    obtain ⟨hrecorded, hurl⟩ := headers_state hfresh hserves htaken d
    have hchunks : transfer.chunks ≠ [] := by
      intro hnone
      rw [Transfer.body, hnone, List.map_nil, List.flatten_nil, List.prefix_nil] at hdata
      exact hne hdata
    have hcomplete := hserves.complete htaken (.inl hchunks)
    by_cases htagged : strongEtag (transfer.headers request start).2.etag = true
    · have hnew := hrecorded.1 ⟨hcomplete, hkept, htagged⟩
      simp only at hstate
      rw [hnew] at hstate
      cases hstate
      rw [hurl, ← hserves.tagged hkept htagged]
      refine hdata.trans ?_
      rcases hkept with h200 | h206
      · exact (hserves.whole h200).1
      · obtain ⟨first, last, total, hvalues, hfirst, -⟩ :=
          ((readLines_checked checked_response htaken).1 hcomplete).2 h206
        obtain ⟨-, hbody, -⟩ := hserves.ranged first last total [] h206 hvalues
        have hzero : first = 0 := by
          rw [hfirst, (readLines_checked checked_response htaken).2, response_offset, hfresh]
        rw [hzero, List.drop_zero] at hbody
        exact hbody.trans (List.take_prefix _ _)
    · have hsame := hrecorded.2 fun h => htagged h.2.2
      simp only at hstate
      rw [hsame] at hstate
      have hweak := hsettled hfresh hkept (by simpa using htagged) record hstate
      exact absurd (hweak.symm.trans hstrong) Bool.false_ne_true
  · obtain rfl : part = old := Option.some.inj (hpart.symm.trans hold)
    have hresuming : (response request start).offset ≠ 0 := by
      rw [response_offset]
      omega
    rw [readLines_resuming hresuming] at hstate
    change d.state = some record at hstate
    rw [hwas] at hstate
    cases hstate
    by_cases hnone : data = []
    · rw [hnone, List.append_nil]
      exact hprefix
    have hchunks : transfer.chunks ≠ [] := by
      intro h
      rw [Transfer.body, h, List.map_nil, List.flatten_nil, List.prefix_nil] at hdata
      exact hnone hdata
    have hcomplete := hserves.complete htaken (.inl hchunks)
    have hchecked := (readLines_checked checked_response htaken).1 hcomplete
    have hoffset := (readLines_checked checked_response htaken).2
    rcases hkept with h200 | h206
    · exact absurd ((hoffset.symm.trans (hchecked.1 h200)) : start.existing = 0) (by omega)
    · obtain ⟨first, last, total, hvalues, hfirst, -⟩ := hchecked.2 h206
      obtain ⟨-, hbody, -⟩ := hserves.ranged first last total [] h206 hvalues
      have hstart : first = part.length := by rw [hfirst, hoffset, response_offset, hlength]
      rw [hserves.ifRange hpos h206, hstart] at hbody
      obtain ⟨rest, hrest⟩ := hprefix
      have hdrop : (version request.url start.etag).drop part.length = rest := by
        rw [← hrest, List.drop_left]
      rw [hdrop] at hbody
      rw [← hrest]
      exact (List.prefix_append_right_inj part).2 ((hdata.trans hbody).trans (List.take_prefix _ _))

theorem Opened.part (hd : Opened version request start d) : ∃ part, d.part = some part ∧
    part.length = start.existing := by
  rcases hd with ⟨hfresh, hpart⟩ | ⟨part, hpart, hlength, -⟩
  · exact ⟨[], hpart, hfresh.symm⟩
  · exact ⟨part, hpart, hlength⟩

/-- The writes of one request, after what its headers record. -/
theorem perform_writes (hstart : start.existing ≤ request.maximum_bytes)
    (htaken : (transfer.headers request start).1 = true) :
    ∃ pieces, (perform request start transfer).2.2.2 =
        (readLines (response request start) transfer.lines).2.2 ++ pieces.map .write ∧
      pieces.flatten <+: transfer.body ∧
        (¬Accepted (transfer.headers request start).2.status → pieces = []) := by
  obtain ⟨pieces, hops, hprefix, hnone, -⟩ :=
    writeChunks_spec (transfer.headers request start).2.status
    (writer request start) transfer.chunks hstart
  exact ⟨pieces, by rw [perform_taken htaken, hops], hprefix, hnone⟩

theorem through_perform (hserves : Serves version request start transfer rep)
    (hsettled : Settled request start d.state transfer)
    (hstart : start.existing ≤ request.maximum_bytes) (hd : Opened version request start d) :
    Through FileOp.apply (Consistent version) d (perform request start transfer).2.2.2 := by
  by_cases htaken : (transfer.headers request start).1 = true
  · obtain ⟨pieces, hops, hprefix, hnone⟩ := perform_writes hstart htaken
    obtain ⟨part, hpart, -⟩ := hd.part
    rw [hops]
    refine (through_headers hd).append
      (through_writes pieces part ((headers_part d).trans hpart) fun data hdata => ?_)
    by_cases hkept : Accepted (transfer.headers request start).2.status
    · exact body_consistent hserves hsettled hd htaken hkept hpart (hdata.trans hprefix)
    · rw [hnone hkept, List.flatten_nil, List.prefix_nil] at hdata
      rw [hdata, List.append_nil, ← hpart, ← headers_part d]
      exact (through_headers hd).last
  · rw [perform_refused (by simpa using htaken)]
    exact through_headers hd

/-- A response that is not kept leaves the opened files as they are. -/
theorem perform_unkept (hserves : Serves version request start transfer rep)
    (hstart : start.existing ≤ request.maximum_bytes) (hd : Opened version request start d)
    (hunkept : ¬Accepted transfer.http_status) :
    applyAll d (perform request start transfer).2.2.2 = d := by
  rw [hserves.http_status] at hunkept
  have hheaders : applyAll d (readLines (response request start) transfer.lines).2.2 = d := by
    by_cases hfresh : start.existing = 0
    · by_cases htaken : (transfer.headers request start).1 = true
      · have hstate := (headers_state hfresh hserves htaken d).1.2 fun h => hunkept h.2.1
        obtain ⟨hpart, hdestination⟩ := applyAll_saves
          (fun _ hop => (@readLines_ops (response request start) transfer.lines _ hop).1) d
        generalize applyAll d _ = d' at hstate hpart hdestination
        cases d
        cases d'
        simp_all
      · exact absurd (readLines_refused hfresh (by simpa [Transfer.headers] using htaken)) hunkept
    · rw [readLines_resuming hfresh]
      rfl
  by_cases htaken : (transfer.headers request start).1 = true
  · obtain ⟨pieces, hops, -, hnone, -⟩ := writeChunks_spec (transfer.headers request start).2.status
      (writer request start) transfer.chunks hstart
    rw [perform_taken htaken, hops, hnone hunkept, List.map_nil, List.append_nil, hheaders]
  · rw [perform_refused (by simpa using htaken), hheaders]

/-- The files before a partial file is opened. -/
def Openable (version : Bytes → Bytes → Bytes) (request : HttpTransferRequest)
    (start : Start) (d : Files) : Prop :=
  Consistent version d ∧
    Opened version request start (FileOp.apply d (.openPart (!decide (0 < start.existing))))

theorem Opened.openable (hd : Opened version request start d) :
    Openable version request start d := by
  refine ⟨hd.consistent, ?_⟩
  rcases hd with ⟨hfresh, hpart⟩ | ⟨part, hpart, hlength, hpos, hrest⟩
  · exact .inl ⟨hfresh, by simp [FileOp.apply, hfresh]⟩
  · exact .inr ⟨part, by simp [FileOp.apply, hpos, hpart], hlength, hpos, hrest⟩

theorem conclude_finished {redirect : Nat} {resuming : Bool} {current digest : Bytes}
    {removed : Removed} {result : HttpDownloadResult} {retryable : Bool}
    (hc : conclude request redirect resuming current h w transfer removed digest =
      .finished ops result retryable) : ∀ op ∈ ops, FileOp.Quiet op := by
  have hpart : ∀ removed, FileOp.Quiet (.removePart removed) := fun _ => trivial
  have hstate : ∀ removed, FileOp.Quiet (.removeState removed) := fun _ => trivial
  unfold conclude at hc
  grind

theorem conclude_redirected {redirect : Nat} {resuming : Bool} {current digest next : Bytes}
    {removed : Removed}
    (hc : conclude request redirect resuming current h w transfer removed digest =
      .redirected next) :
    ¬Accepted transfer.http_status := by
  unfold conclude redirectStatus at hc
  unfold Accepted
  grind

theorem through_setup {resuming removed : Bool} {setup : Setup} {error : DownloadError}
    (hd : Consistent version d) (hsetup : setupFailure resuming removed setup = some (ops, error)) :
    Through FileOp.apply (Consistent version) d ops := by
  refine through_quiet hd fun op hop => ?_
  have hkind : (∃ truncate, op = .openPart truncate) ∨ op = .removePart removed := by
    unfold setupFailure at hsetup
    grind
  rcases hkind with ⟨truncate, rfl⟩ | rfl <;> trivial

/-- Each request of an attempt is answered with a representation, and the answer is settled. -/
def Served (version : Bytes → Bytes → Bytes) (request : HttpTransferRequest) (start : Start)
    (state : Option StateRecord) (hops : Nat → Hop) (reps : Nat → Bytes) : Prop :=
  ∀ redirect, Serves version request start (hops redirect).transfer (reps redirect) ∧
    Settled request start state (hops redirect).transfer

theorem through_requests {hops : Nat → Hop} {reps : Nat → Bytes}
    (hserved : Served version request start d.state hops reps)
    (hstart : start.existing ≤ request.maximum_bytes) (left redirect : Nat) (current : Bytes)
    (hd : Openable version request start d) :
    Through FileOp.apply (Consistent version) d
      (requests sha256 request start hops left redirect current d).ops := by
  induction left generalizing redirect current d with
  | zero => exact through_quiet hd.1 (by simp [requests, FileOp.Quiet])
  | succ left ih =>
    unfold requests
    dsimp only
    split
    · rename_i ops error hsetup
      exact through_setup hd.1 hsetup
    · obtain ⟨hserves, hsettled⟩ := hserved redirect
      have hopened : Through FileOp.apply (Consistent version) d
          (.openPart (!decide (0 < start.existing)) ::
            (perform request start (hops redirect).transfer).2.2.2) :=
        ⟨hd.1, through_perform hserves hsettled hstart hd.2⟩
      split
      · rename_i more result retryable hc
        exact hopened.append (through_quiet hopened.last (conclude_finished hc))
      · rename_i next hc
        have hsame := perform_unkept hserves hstart hd.2 (conclude_redirected hc)
        have hsame' : applyAll d (.openPart (!decide (0 < start.existing)) ::
            (perform request start (hops redirect).transfer).2.2.2) =
            FileOp.apply d (.openPart (!decide (0 < start.existing))) := hsame
        refine hopened.append (ih ?_ (redirect + 1) next ?_)
        · change Served version request start (applyAll d (_ :: _)).state hops reps
          rw [hsame']
          exact hserved
        · change Openable version request start (applyAll d (_ :: _))
          rw [hsame']
          exact hd.2.openable

/-! ## Attempts and calls -/

theorem recordedEtag_strong {state : Option StateRecord}
    (hstrong : strongEtag (recordedEtag request state) = true) :
    state = some ⟨request.url, recordedEtag request state⟩ := by
  unfold recordedEtag at *
  cases hstate : state with
  | none => simp [hstate, strongEtag] at hstrong
  | some record =>
    simp only [hstate] at hstrong ⊢
    split at hstrong
    · rename_i hurl
      rw [← hurl, if_pos rfl]
    · simp [strongEtag] at hstrong

theorem readStateFile_some {readable : Bool} {record : StateRecord}
    (h : readStateFile readable d = some record) : d.state = some record :=
  (Option.filter_eq_some_iff.1 h).1

variable {t : Try}

theorem readStart_openable (hd : Consistent version d) :
    Through FileOp.apply (Consistent version) d (readStart request t d).ops ∧
      Openable version request (readStart request t d) (applyAll d (readStart request t d).ops) ∧
      (readStart request t d).existing ≤ request.maximum_bytes := by
  have hthrough : Through FileOp.apply (Consistent version) d
      [.removePart t.removed.part, .removeState t.removed.state] :=
    through_quiet hd (by simp [FileOp.Quiet])
  have hremoved : ∀ start : Start, start.existing = 0 → Openable version request start
      (applyAll d [.removePart t.removed.part, .removeState t.removed.state]) :=
    fun start hfresh => ⟨hthrough.last, .inl ⟨hfresh, by simp [FileOp.apply, hfresh]⟩⟩
  cases hpart : d.part with
  | none =>
    simp only [readStart, hpart]
    exact ⟨hthrough, hremoved _ rfl, Nat.zero_le _⟩
  | some part =>
    by_cases hkept : request.maximum_bytes < part.length ∨
        strongEtag (recordedEtag request (readStateFile t.readable d)) = false
    · simp only [readStart, hpart, hkept, if_true]
      exact ⟨hthrough, hremoved _ rfl, Nat.zero_le _⟩
    · simp only [readStart, hpart, hkept, if_false]
      simp only [not_or, Bool.not_eq_false, Nat.not_lt] at hkept
      obtain ⟨hmaximum, hstrong⟩ := hkept
      have hstate := readStateFile_some (recordedEtag_strong hstrong)
      refine ⟨hd, ⟨hd, ?_⟩, hmaximum⟩
      by_cases hnone : part = []
      · subst hnone
        exact .inl ⟨rfl, by simp [FileOp.apply]⟩
      · have hpos : 0 < part.length := List.length_pos_iff.2 hnone
        exact .inr ⟨part, by simp [FileOp.apply, applyAll, hpos, hpart], rfl, hpos,
          hd part _ hpart hnone hstate hstrong, hstrong, hstate⟩

/-- Each request of an attempt is answered so, by the record that its start leaves. -/
def Try.Served (version : Bytes → Bytes → Bytes)
    (request : HttpTransferRequest) (reps : Nat → Bytes)
    (t : Try) (d : Files) : Prop :=
  Download.Served version request (readStart request t d)
    (applyAll d (readStart request t d).ops).state t.hops reps

theorem through_attempt {reps : Nat → Bytes} (hserved : t.Served version request reps d)
    (hd : Consistent version d) :
    Through FileOp.apply (Consistent version) d (downloadFileAttempt sha256 request t d).ops := by
  obtain ⟨hread, hopenable, hmaximum⟩ := @readStart_openable _ request _ t hd
  exact hread.append (through_requests hserved hmaximum _ _ _ hopenable)

/-- A condition on every attempt of a download, over the files it starts from. -/
def Along (sha256 : Bytes → Bytes) (P : Nat → Files → Prop) (request : HttpTransferRequest)
    (tries : Nat → Try) : Nat → Nat → Files → Prop
  | 0, attempt, d => P attempt d
  | left + 1, attempt, d =>
    P attempt d ∧
      ((downloadFileAttempt sha256 request (tries attempt) d).result.error ≠ none →
        (downloadFileAttempt sha256 request (tries attempt) d).retryable = true →
        Along sha256 P request tries left (attempt + 1)
          (applyAll d (downloadFileAttempt sha256 request (tries attempt) d).ops))

theorem attempts_last {tries : Nat → Try} {left attempt : Nat}
    (hlast : (downloadFileAttempt sha256 request (tries attempt) d).result.error = none ∨
      (downloadFileAttempt sha256 request (tries attempt) d).retryable = false ∨ left = 0) :
    (attempts sha256 request tries left attempt d).result =
        (downloadFileAttempt sha256 request (tries attempt) d).result ∧
      ∃ more, (attempts sha256 request tries left attempt d).ops =
          (downloadFileAttempt sha256 request (tries attempt) d).ops ++ more ∧
          (∀ op ∈ more, FileOp.Quiet op) ∧
        ((downloadFileAttempt sha256 request (tries attempt) d).result.error = none →
          more = []) := by
  unfold attempts
  dsimp only
  split
  · exact ⟨rfl, [], (List.append_nil _).symm, by simp, fun _ => rfl⟩
  · rename_i herror
    split
    · exact ⟨rfl, _, rfl, by simp [FileOp.Quiet], fun h => absurd h herror⟩
    · rename_i hretry
      obtain rfl : left = 0 := by tauto
      exact ⟨rfl, [], (List.append_nil _).symm, by simp, fun _ => rfl⟩

theorem attempts_again {tries : Nat → Try} {left attempt : Nat}
    (herror : (downloadFileAttempt sha256 request (tries attempt) d).result.error ≠ none)
    (hretry : (downloadFileAttempt sha256 request (tries attempt) d).retryable = true) :
    (attempts sha256 request tries (left + 1) attempt d).result =
        (attempts sha256 request tries left (attempt + 1)
          (applyAll d (downloadFileAttempt sha256 request (tries attempt) d).ops)).result ∧
      (attempts sha256 request tries (left + 1) attempt d).ops =
        (downloadFileAttempt sha256 request (tries attempt) d).ops ++
          (attempts sha256 request tries left (attempt + 1)
            (applyAll d (downloadFileAttempt sha256 request (tries attempt) d).ops)).ops := by
  rw [attempts]
  simp [herror, hretry]

theorem Along.first {P : Nat → Files → Prop} {tries : Nat → Try} {left attempt : Nat}
    (h : Along sha256 P request tries left attempt d) : P attempt d := by
  cases left with
  | zero => exact h
  | succ left => exact h.1

/-- Each request of a call is answered with its representation, and the answer is settled. -/
def Call.Served (sha256 : Bytes → Bytes) (version : Bytes → Bytes → Bytes)
    (reps : Nat → Nat → Bytes) (d : Files)
    (c : Call) : Prop :=
  Along sha256
    (fun attempt d => (c.tries attempt).Served version c.request (reps attempt) d)
    c.request c.tries c.left 1 d

variable {reps : Nat → Nat → Bytes}

theorem through_attempts {tries : Nat → Try} (left attempt : Nat)
    (hserved : Along sha256
      (fun attempt d => (tries attempt).Served version request (reps attempt) d)
      request tries left attempt d) (hd : Consistent version d) :
    Through FileOp.apply (Consistent version) d
      (attempts sha256 request tries left attempt d).ops := by
  induction left generalizing attempt d with
  | zero =>
    obtain ⟨-, more, hops, hquiet, -⟩ :=
      @attempts_last sha256 request d tries 0 attempt (.inr (.inr rfl))
    have hfirst := @through_attempt sha256 _ _ _ _ _ hserved.first hd
    rw [hops]
    exact hfirst.append (through_quiet hfirst.last hquiet)
  | succ left ih =>
    have hfirst := @through_attempt sha256 _ _ _ _ _ hserved.first hd
    by_cases hagain : (downloadFileAttempt sha256 request (tries attempt) d).result.error ≠ none ∧
        (downloadFileAttempt sha256 request (tries attempt) d).retryable = true
    · rw [(attempts_again hagain.1 hagain.2).2]
      exact hfirst.append (ih (attempt + 1) (hserved.2 hagain.1 hagain.2) hfirst.last)
    · obtain ⟨-, more, hops, hquiet, -⟩ := @attempts_last sha256 request d tries (left + 1) attempt
        (by simp only [ne_eq, not_and, Bool.not_eq_true] at hagain; tauto)
      rw [hops]
      exact hfirst.append (through_quiet hfirst.last hquiet)

theorem through_downloadFile {c : Call} (hserved : c.Served sha256 version reps d)
    (hd : Consistent version d) :
    Through FileOp.apply (Consistent version) d (downloadFile sha256 c d).ops := by
  have hall := through_attempts c.left 1 hserved hd
  unfold downloadFile
  split
  · exact hd
  split
  · exact hd
  dsimp only
  split_ifs
  · exact hall
  · exact hall.append (through_quiet hall.last (by simp [FileOp.Quiet]))
  · exact hall

theorem consistent_step {c : Call} {d' : Files} (hstep : (store sha256).step d c d')
    (hserved : c.Served sha256 version reps d) (hd : Consistent version d) :
    Consistent version d' := by
  have hall := through_downloadFile hserved hd
  obtain rfl : d' = applyAll d (c.ops sha256 d) := hstep
  unfold Call.ops
  split
  · exact hall.last
  · exact hall.take _

/-- The calls of a destination whose requests are all answered so. -/
def served (sha256 : Bytes → Bytes) (version : Bytes → Bytes → Bytes) : LTS Files Call :=
  (store sha256).restrict fun d c => ∃ reps, c.Served sha256 version reps d

theorem reachable_consistent (hreach : (served sha256 version).Reachable d) :
    Consistent version d := by
  refine hreach.invariant ?_ ?_
  · intro d hinit
    exact consistent_of_empty (.inl hinit.1)
  · rintro d c d' ⟨hstep, reps, hserved⟩ hd
    exact consistent_step hstep hserved hd

/-- Whatever calls come before, and wherever any of them crashes, the bytes kept beside a strong tag
begin the representation with that tag. -/
theorem part_begins_version (hreach : (served sha256 version).Reachable d)
    {part : Bytes} {record : StateRecord}
    (hpart : d.part = some part) (hnonempty : part ≠ []) (hrecord : d.state = some record)
    (hstrong : strongEtag record.etag) : part <+: version record.url record.etag :=
  reachable_consistent hreach part record hpart hnonempty hrecord hstrong

/-- A first response of two bytes of four, cut off. -/
def firstHalf : Transfer where
  lines :=
    [(bytes "HTTP/2 200\r\n", .written), (bytes "ETag: \"a\"\r\n", .written),
      (bytes "\r\n", .written)]
  chunks := [⟨[1, 2], [0, 0], true⟩]
  status := .recvError
  http_status := 200

def halfRequest : HttpTransferRequest :=
  { url := bytes "u", maximum_bytes := 10, maximum_attempts := 1 }

def halfCall (transfer : Transfer) : Call :=
  { request := halfRequest, tries := fun _ => { hops := fun _ => { transfer } } }

def halfFiles : Files := { part := some [1, 2], state := some ⟨bytes "u", bytes "\"a\""⟩ }

theorem firstHalf_served : (halfCall firstHalf).Served id (fun _ _ => [1, 2, 3, 4])
    (fun _ _ => [1, 2, 3, 4]) {} := by
  intro redirect
  change Serves _ halfRequest (readStart halfRequest _ {}) firstHalf [1, 2, 3, 4] ∧
    Settled halfRequest (readStart halfRequest _ {}) none firstHalf
  refine ⟨⟨?_, by decide, by decide, by decide, by decide, ?_, by decide, by decide⟩,
    by unfold Settled; decide⟩
  · rintro (_ | ⟨_, _ | ⟨_, _ | ⟨_, before⟩⟩⟩) line after hlines <;> simp [firstHalf] at hlines
    · intro _
      decide
    · obtain ⟨rfl, rfl, -⟩ := hlines
      decide
    · obtain ⟨rfl, rfl, rfl, -⟩ := hlines
      decide
  · intro first last total rest h206
    exact absurd h206 (by decide)

theorem halfFiles_reachable : (served id fun _ _ => [1, 2, 3, 4]).Reachable halfFiles := by
  refine ⟨{}, [halfCall firstHalf], ⟨rfl, rfl⟩, .single ⟨?_, _, firstHalf_served⟩⟩
  change halfFiles = applyAll {} ((halfCall firstHalf).ops id {})
  decide

theorem part_begins_version_half : halfFiles.part = some [1, 2] ∧
    ([1, 2] : Bytes) <+: [1, 2, 3, 4] :=
  ⟨rfl, part_begins_version halfFiles_reachable rfl (by decide) rfl (by decide)⟩

/-- The headers of the first response, cut off before its first byte. -/
def noBytes : Transfer := { firstHalf with chunks := [] }

/-- Two bytes of another representation, without a tag. -/
def untagged : Transfer :=
  { firstHalf with
    lines := [(bytes "HTTP/2 200\r\n", .written), (bytes "\r\n", .written)]
    chunks := [⟨[9, 9], [7], true⟩] }

/-- Where an answer is not settled, its bytes stay beside the tag of another one. -/
theorem unsettled_mixes :
    (store id).Reachable (applyAll {} ((halfCall noBytes).ops id {} ++
      (halfCall untagged).ops id (applyAll {} ((halfCall noBytes).ops id {})))) ∧
    ¬ Consistent (fun _ _ => [1, 2, 3, 4]) (applyAll {} ((halfCall noBytes).ops id {} ++
      (halfCall untagged).ops id (applyAll {} ((halfCall noBytes).ops id {})))) := by
  refine ⟨?_, fun h => ?_⟩
  · rw [applyAll_append]
    exact ⟨{}, [halfCall noBytes, halfCall untagged], ⟨rfl, rfl⟩, .cons rfl (.single rfl)⟩
  · have hprefix :=
      h [9, 9] ⟨bytes "u", bytes "\"a\""⟩ (by decide) (by decide) (by decide) (by decide)
    revert hprefix
    decide

end Nightcap.Update.Download
