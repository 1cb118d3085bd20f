import Nightcap.Update.DownloadSafety

/-! What a finished download has put in place of the destination. -/
namespace Nightcap.Update.Download

open Utf8 Ascii CrashPoints Transition

variable {sha256 : Bytes → Bytes} {version : Bytes → Bytes → Bytes}
  {request : HttpTransferRequest} {start : Start}
  {d : Files} {h : DownloadHeaders} {w : FileWriter} {transfer : Transfer}
  {rep : Bytes} {ops : List FileOp}
  {reps : Nat → Nat → Bytes}

theorem conclude_success {redirect : Nat} {resuming : Bool} {current digest : Bytes}
    {removed : Removed} {result : HttpDownloadResult} {retryable : Bool}
    (hc : conclude request redirect resuming current h w transfer removed digest =
      .finished ops result retryable) (hsuccess : result.error = none) :
    ops = [] ∧ transfer.status = .ok ∧ Accepted transfer.http_status ∧ w.written ≠ 0 ∧
      (transfer.http_status = 206 → w.written = h.total) ∧ digest ≠ [] ∧
      result = { bytes_written := w.written, sha256 := digest, final_url := current } := by
  unfold conclude failed at hc
  dsimp only at hc
  split_ifs at hc
  all_goals
    cases hc
    try cases hsuccess
  rename_i hended hkept hrange hdigest
  simp only [not_or, not_not, not_and] at hended hkept hrange
  refine ⟨rfl, hended.1, ?_, hkept.2, hrange, hdigest, rfl⟩
  unfold Accepted
  tauto

/-- A request that ends well has left the whole of its representation in the partial file. -/
theorem perform_success (hserves : Serves version request start transfer rep)
    (hstart : start.existing ≤ request.maximum_bytes) (hd : Opened version request start d)
    (hok : transfer.status = .ok) (hkept : Accepted transfer.http_status) :
    (applyAll d (perform request start transfer).2.2.2).part = some rep ∧
      (perform request start transfer).2.2.1.written = rep.length ∧
        rep.length ≤ request.maximum_bytes ∧
      (start.existing = 0 → (perform request start transfer).2.2.1.sha256 = some rep) := by
  have hall : (perform request start transfer).1 = true := by
    by_contra h
    exact hserves.refused (by simpa using h) hok
  have htaken : (transfer.headers request start).1 = true := by
    by_contra h
    rw [perform_refused (by simpa using h)] at hall
    cases hall
  have hcomplete := hserves.complete htaken (.inr hok)
  obtain ⟨hchecked, hoffset⟩ := readLines_checked checked_response htaken
  rw [hserves.http_status] at hkept
  obtain ⟨pieces, hops, -, -, hwhole⟩ := writeChunks_spec (transfer.headers request start).2.status
    (writer request start) transfer.chunks hstart
  rw [perform_taken htaken] at hall
  obtain ⟨hpieces, hwritten, hmaximum, hsha⟩ := hwhole hall hkept
  obtain ⟨part, hpart, hlength⟩ := hd.part
  have hafter : (applyAll d (perform request start transfer).2.2.2).part = some
      (part ++ transfer.body) := by
    rw [perform_taken htaken, hops, applyAll_append,
      applyAll_writes pieces part ((headers_part d).trans hpart), hpieces]
    rfl
  have hrep : part ++ transfer.body = rep := by
    rcases hkept with h200 | h206
    · have hfresh : start.existing = 0 := hoffset.symm.trans ((hchecked hcomplete).1 h200)
      rw [List.length_eq_zero_iff.1 (hlength.trans hfresh), List.nil_append,
        (hserves.whole h200).2 hok]
    · obtain ⟨first, last, total, hvalues, hfirst, hle, hlast, -⟩ := (hchecked hcomplete).2 h206
      obtain ⟨htotal, -, hbody⟩ := hserves.ranged first last total [] h206 hvalues
      have hexisting : first = part.length := by rw [hfirst, hoffset, response_offset, hlength]
      have hrest : transfer.body = rep.drop part.length := by
        rw [hbody hok, hexisting, List.take_of_length_le]
        rw [List.length_drop]
        omega
      rcases hd with ⟨hfresh, -⟩ | ⟨old, hold, -, hpos, hprefix, -⟩
      · have hempty : part = [] := List.length_eq_zero_iff.1 (hlength.trans hfresh)
        rw [hrest, hempty, List.length_nil, List.drop_zero, List.nil_append]
      · obtain rfl : part = old := Option.some.inj (hpart.symm.trans hold)
        rw [← hserves.ifRange hpos h206] at hprefix
        obtain ⟨more, rfl⟩ := hprefix
        rw [hrest, List.drop_left]
  have hsize : (perform request start transfer).2.2.1.written = rep.length := by
    rw [perform_taken htaken]
    simp only
    rw [hwritten, ← hrep, List.length_append, hlength]
    rfl
  refine ⟨hafter.trans (congrArg some hrep), hsize, ?_, ?_⟩
  · rw [← hsize, perform_taken htaken]
    exact hmaximum
  · intro hfresh
    rw [perform_taken htaken]
    simp only
    rw [hsha, ← hrep, List.length_eq_zero_iff.1 (hlength.trans hfresh)]
    simp [writer, hfresh, Transfer.body]

/-- One complete representation is in the partial file, of the size and digest that are returned. -/
structure Complete (sha256 : Bytes → Bytes) (request : HttpTransferRequest)
    (rep : Bytes) (d : Files)
    (result : HttpDownloadResult) : Prop where
  part : d.part = some rep
  nonempty : rep ≠ []
  maximum : rep.length ≤ request.maximum_bytes
  bytes_written : result.bytes_written = rep.length
  digest : result.sha256 = sha256 rep

theorem requests_success {hops : Nat → Hop} {reps : Nat → Bytes}
    (hserved : Served version request start d.state hops reps)
    (hstart : start.existing ≤ request.maximum_bytes) (left redirect : Nat) (current : Bytes)
    (hd : Openable version request start d)
    (hsuccess : (requests sha256 request start hops left redirect current d).result.error = none) :
    ∃ redirect', Complete sha256 request (reps redirect')
      (applyAll d (requests sha256 request start hops left redirect current d).ops)
      (requests sha256 request start hops left redirect current d).result := by
  induction left generalizing redirect current d with
  | zero => cases hsuccess
  | succ left ih =>
    unfold requests at hsuccess ⊢
    dsimp only at hsuccess ⊢
    split at hsuccess
    · cases hsuccess
    · obtain ⟨hserves, hsettled⟩ := hserved redirect
      split at hsuccess
      · rename_i more result retryable hc
        obtain ⟨rfl, hok, hkept, hwritten, -, hdigest, rfl⟩ := conclude_success hc hsuccess
        obtain ⟨hpart, hsize, hmaximum, hsha⟩ := perform_success hserves hstart hd.2 hok hkept
        rw [List.append_nil]
        have hpart' : (applyAll d (.openPart (!decide (0 < start.existing)) ::
            (perform request start (hops redirect).transfer).2.2.2)).part = some
              (reps redirect) := hpart
        refine ⟨redirect, hpart', ?_, hmaximum, hsize, ?_⟩
        · rintro hnone
          rw [hnone] at hsize
          exact hwritten hsize
        · unfold digestOf at hdigest ⊢
          split at hdigest
          · rename_i hdigested
            simp only [hdigested, if_true]
            split
            · rw [hpart']
              rfl
            · rw [hsha (by omega)]
              rfl
          · exact absurd rfl hdigest
      · rename_i next hc
        have hsame := perform_unkept hserves hstart hd.2 (conclude_redirected hc)
        have hsame' : applyAll d (.openPart (!decide (0 < start.existing)) ::
            (perform request start (hops redirect).transfer).2.2.2) =
            FileOp.apply d (.openPart (!decide (0 < start.existing))) := hsame
        rw [applyAll_append]
        refine ih ?_ (redirect + 1) next ?_ hsuccess
        · rw [hsame']
          exact hserved
        · rw [hsame']
          exact hd.2.openable

theorem attempt_success {t : Try} {reps : Nat → Bytes}
    (hserved : t.Served version request reps d) (hd : Consistent version d)
    (hsuccess : (downloadFileAttempt sha256 request t d).result.error = none) :
    ∃ redirect, Complete sha256 request (reps redirect)
      (applyAll d (downloadFileAttempt sha256 request t d).ops)
      (downloadFileAttempt sha256 request t d).result := by
  obtain ⟨-, hopenable, hmaximum⟩ := @readStart_openable _ request _ t hd
  have hrequests := requests_success hserved hmaximum _ _ _ hopenable hsuccess
  rw [← applyAll_append] at hrequests
  exact hrequests

theorem attempts_success {tries : Nat → Try} (left attempt : Nat)
    (hserved : Along sha256
      (fun attempt d => (tries attempt).Served version request (reps attempt) d)
      request tries left attempt d) (hd : Consistent version d)
    (hsuccess : (attempts sha256 request tries left attempt d).result.error = none) :
    ∃ attempt' redirect, Complete sha256 request (reps attempt' redirect)
      (applyAll d (attempts sha256 request tries left attempt d).ops)
      (attempts sha256 request tries left attempt d).result := by
  induction left generalizing attempt d with
  | zero =>
    obtain ⟨hresult, more, hops, -, hnone⟩ :=
      @attempts_last sha256 request d tries 0 attempt (.inr (.inr rfl))
    rw [hresult] at hsuccess
    rw [hresult, hops, hnone hsuccess, List.append_nil]
    exact ⟨attempt, attempt_success hserved.first hd hsuccess⟩
  | succ left ih =>
    by_cases hagain : (downloadFileAttempt sha256 request (tries attempt) d).result.error ≠ none ∧
        (downloadFileAttempt sha256 request (tries attempt) d).retryable = true
    · obtain ⟨hresult, hops⟩ := @attempts_again _ _ _ _ left _ hagain.1 hagain.2
      rw [hresult] at hsuccess
      rw [hresult, hops, applyAll_append]
      exact ih (attempt + 1) (hserved.2 hagain.1 hagain.2)
        (through_attempt hserved.first hd).last hsuccess
    · obtain ⟨hresult, more, hops, -, hnone⟩ :=
        @attempts_last sha256 request d tries (left + 1) attempt
        (by simp only [ne_eq, not_and, Bool.not_eq_true] at hagain; tauto)
      rw [hresult] at hsuccess
      rw [hresult, hops, hnone hsuccess, List.append_nil]
      exact ⟨attempt, attempt_success hserved.first hd hsuccess⟩

/-! ## The destination -/

theorem applyAll_destination (hops : FileOp.publish ∉ ops) (d : Files) :
    (applyAll d ops).destination = d.destination := by
  induction ops generalizing d with
  | nil => rfl
  | cons op ops ih =>
    rw [List.mem_cons, not_or] at hops
    refine (ih hops.2 (FileOp.apply d op)).trans ?_
    cases op with
    | publish => exact absurd rfl hops.1
    | _ => rfl

theorem conclude_local {redirect : Nat} {resuming : Bool} {current digest : Bytes}
    {removed : Removed} {result : HttpDownloadResult} {retryable : Bool}
    (hc : conclude request redirect resuming current h w transfer removed digest =
      .finished ops result retryable) : FileOp.publish ∉ ops := by
  unfold conclude at hc
  grind

theorem setupFailure_local {resuming removed : Bool} {setup : Setup} {error : DownloadError}
    (hsetup : setupFailure resuming removed setup = some (ops, error)) : FileOp.publish ∉ ops := by
  unfold setupFailure at hsetup
  grind

theorem perform_local (hstart : start.existing ≤ request.maximum_bytes) :
    FileOp.publish ∉ (perform request start transfer).2.2.2 := by
  have hheaders : FileOp.publish ∉ (readLines (response request start) transfer.lines).2.2 := by
    intro hop
    obtain ⟨⟨record, h⟩, -⟩ := readLines_ops hop
    cases h
  by_cases htaken : (transfer.headers request start).1 = true
  · obtain ⟨pieces, hops, -⟩ := @perform_writes _ _ transfer hstart htaken
    rw [hops, List.mem_append, not_or]
    exact ⟨hheaders, by simp⟩
  · rw [perform_refused (by simpa using htaken)]
    exact hheaders

theorem requests_local {hops : Nat → Hop} (hstart : start.existing ≤ request.maximum_bytes)
    (left redirect : Nat)
    (current : Bytes) (d : Files) :
    FileOp.publish ∉ (requests sha256 request start hops left redirect current d).ops := by
  induction left generalizing redirect current d with
  | zero => simp [requests]
  | succ left ih =>
    have hperform := @perform_local _ _ (hops redirect).transfer hstart
    unfold requests
    dsimp only
    split
    · rename_i ops error hsetup
      exact setupFailure_local hsetup
    · split
      · rename_i more result retryable hc
        simp [hperform, conclude_local hc]
      · rename_i next hc
        simp [hperform, ih]

theorem readStart_local {t : Try} : FileOp.publish ∉ (readStart request t d).ops ∧
    (readStart request t d).existing ≤ request.maximum_bytes := by
  unfold readStart
  grind

/-- No attempt touches the destination. -/
theorem attempts_local (tries : Nat → Try) (left attempt : Nat) (d : Files) :
    FileOp.publish ∉ (attempts sha256 request tries left attempt d).ops := by
  have hone : ∀ attempt d,
      FileOp.publish ∉ (downloadFileAttempt sha256 request (tries attempt) d).ops := by
    intro attempt d
    obtain ⟨hread, hstart⟩ := @readStart_local request d (tries attempt)
    simp [downloadFileAttempt, hread, requests_local hstart]
  induction left generalizing attempt d with
  | zero =>
    unfold attempts
    dsimp only
    split_ifs <;> simp [hone]
  | succ left ih =>
    unfold attempts
    dsimp only
    split_ifs <;> simp [hone, ih]

/-- Wherever a download stops, the destination holds what it held or one complete representation;
once the download returns without error, it holds that one, of the size and digest that are
returned, and beside it nothing is left but a record that could not be removed. -/
theorem download_publishes {c : Call} (hreach : (served sha256 version).Reachable d)
    (hserved : c.Served sha256 version reps d) (n : Nat) :
    ((applyAll d ((downloadFile sha256 c d).ops.take n)).destination = d.destination ∨
        ∃ attempt redirect, (applyAll d ((downloadFile sha256 c d).ops.take n)).destination = some
          (reps attempt redirect) ∧
          reps attempt redirect ≠ [] ∧ (reps attempt redirect).length ≤ c.request.maximum_bytes) ∧
      ((downloadFile sha256 c d).result.error = none →
        ∃ attempt redirect,
          (applyAll d (downloadFile sha256 c d).ops).destination = some (reps attempt redirect) ∧
          (applyAll d (downloadFile sha256 c d).ops).part = none ∧
          (c.removed = true → (applyAll d (downloadFile sha256 c d).ops).state = none) ∧
          (downloadFile sha256 c d).result.bytes_written = (reps attempt redirect).length ∧
          (downloadFile sha256 c d).result.sha256 = sha256 (reps attempt redirect)) := by
  have hd := reachable_consistent hreach
  have hlocal := @attempts_local sha256 c.request c.tries c.left 1 d
  have hsuccess := @attempts_success sha256 _ _ _ _ _ c.left 1 hserved hd
  have hkept : ∀ n,
      (applyAll d ((attempts sha256 c.request c.tries c.left 1 d).ops.take n)).destination =
      d.destination :=
    fun n => applyAll_destination (fun hop => hlocal (List.mem_of_mem_take hop)) d
  unfold downloadFile
  split
  · exact ⟨.inl (by simp [applyAll]), fun h => by cases h⟩
  split
  · exact ⟨.inl (by simp [applyAll]), fun h => by cases h⟩
  dsimp only
  split_ifs with herror hrenamed
  · exact ⟨.inl (hkept n), fun h => absurd h herror⟩
  · obtain ⟨attempt, redirect, hcomplete⟩ := hsuccess (not_not.1 herror)
    generalize hall : (attempts sha256 c.request c.tries c.left 1 d).ops = ops at hkept hcomplete
    generalize (attempts sha256 c.request c.tries c.left 1 d).result = result at herror hcomplete
    have hpublished : ∀ more, (applyAll (applyAll d ops) (.publish :: more)) =
        applyAll { applyAll d ops with part := none, destination := (applyAll d ops).part } more :=
      fun _ => rfl
    constructor
    · rw [List.take_append, applyAll_append]
      cases hmore : n - ops.length with
      | zero => exact .inl (hkept n)
      | succ more =>
        rw [List.take_of_length_le (by omega), List.take_succ_cons, hpublished]
        refine .inr ⟨attempt, redirect, ?_, hcomplete.nonempty, hcomplete.maximum⟩
        rw [applyAll_destination, hcomplete.part]
        cases more <;> simp
    · intro _
      simp only [applyAll_append, hpublished, hcomplete.part]
      refine ⟨attempt, redirect, rfl, rfl, fun hremoved => ?_, hcomplete.bytes_written,
        hcomplete.digest⟩
      rw [hremoved]
      rfl
  · exact ⟨.inl (hkept n), fun h => by cases h⟩

/-- The other two bytes, asked for with the tag of the first. -/
def secondHalf : Transfer where
  lines := [(bytes "HTTP/2 206\r\n", .written), (bytes "Content-Range: bytes 2-3/4\r\n", .written),
    (bytes "\r\n", .written)]
  chunks := [⟨[3, 4], [7], true⟩]
  status := .ok
  http_status := 206

theorem secondHalf_served :
    (halfCall secondHalf).Served id (fun _ _ => [1, 2, 3, 4])
    (fun _ _ => [1, 2, 3, 4]) halfFiles := by
  intro redirect
  change Serves _ halfRequest (readStart halfRequest _ halfFiles) secondHalf [1, 2, 3, 4] ∧
    Settled halfRequest (readStart halfRequest _ halfFiles) halfFiles.state secondHalf
  refine ⟨⟨?_, by decide, by decide, by decide, by decide, ?_, by decide, by decide⟩,
    by unfold Settled; decide⟩
  · rintro (_ | ⟨_, _ | ⟨_, _ | ⟨_, before⟩⟩⟩) line after hlines <;> simp [secondHalf] at hlines
    · intro _
      decide
    · obtain ⟨rfl, rfl, -⟩ := hlines
      decide
    · obtain ⟨rfl, rfl, rfl, -⟩ := hlines
      decide
  · intro first last total rest _ hvalues
    have hrange : some (2, 3, 4, []) = some (first, last, total, rest) := hvalues
    cases hrange
    decide

theorem download_publishes_half :
    (applyAll halfFiles (downloadFile id (halfCall secondHalf) halfFiles).ops).destination =
        some [1, 2, 3, 4] ∧
      (applyAll halfFiles (downloadFile id (halfCall secondHalf) halfFiles).ops).part = none ∧
      (applyAll halfFiles (downloadFile id (halfCall secondHalf) halfFiles).ops).state = none ∧
      (downloadFile id (halfCall secondHalf) halfFiles).result.sha256 = [1, 2, 3, 4] := by
  obtain ⟨-, hresult⟩ := download_publishes halfFiles_reachable secondHalf_served 0
  obtain ⟨_, _, hdestination, hpart, hstate, -, hdigest⟩ := hresult (by decide)
  exact ⟨hdestination, hpart, hstate rfl, hdigest⟩

end Nightcap.Update.Download
