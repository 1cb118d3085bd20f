import Nightcap.Lib.Interleave
import Nightcap.Graphics.EtcDispatchSafety

/-! The orders of what a submit collects are those of its program: command buffers in submit order,
each in recording order, and the work of a secondary where the primary executes it. -/
namespace Nightcap.Graphics.Orders

open Interleave Transition Threads Dispatch

variable {history : VkCommandBuffer → List Event} {events : List Event}
  {record record' : CommandRecord}
  {commands : Commands} {readable : Readable} {base : Nat} {c d : VkCommandBuffer}
  {cs : List VkCommandBuffer}

abbrev Work := PendingUpload ⊕ BlockCopy

abbrev orderOf : Work → Nat := stamp PendingUpload.order BlockCopy.order

/-! The program. -/

/-- What a command buffer records itself. -/
def own : Event → List Work
  | .upload u => [.inl u]
  | .copy c => [.inr c]
  | .execute _ _ => []

/-- With the work of the secondaries it executes. -/
def executed (history : VkCommandBuffer → List Event) : Event → List Work
  | .execute secondary _ => (history secondary).flatMap own
  | event => own event

/-- The uploads and block copies of a submit as the application means them to happen. -/
def program (history : VkCommandBuffer → List Event) (cs : List VkCommandBuffer) : List Work :=
  cs.flatMap fun c => (history c).flatMap (executed history)

/-- The work without its order. -/
def unordered : Work → Work :=
  Sum.map (fun u => { u with order := 0 }) fun c => { c with order := 0 }

/-- Whether the host can read what the work needs. -/
def available (readable : Readable) : Work → Bool
  | .inl u => readable u.source u.sourceOffset u.sourceSpan
  | .inr _ => true

/-- The uploads and copies of a submit, as `DecodeAndEmit` merges them. -/
def merged (found : Collected) : List Work :=
  interleave PendingUpload.order BlockCopy.order
    (found.uploads.mergeSort fun a b => a.order ≤ b.order)
    (found.blockCopies.mergeSort fun a b => a.order ≤ b.order)

/-! The program with its orders. -/

def place (base : Nat) : Work → Work := Sum.map (fun u => { u with order := base }) fun c =>
    { c with order := base }

def extent : Event → Nat
  | .execute _ span => span
  | _ => 1

def total (events : List Event) : Nat := (events.map extent).sum

def ownFrom : Nat → List Event → List Work
  | _, [] => []
  | base, event :: events => (own event).map (place base) ++ ownFrom (base + extent event) events

def executedFrom (history : VkCommandBuffer → List Event) : Nat → List Event → List Work
  | _, [] => []
  | base, .execute secondary span :: events =>
    ownFrom base (history secondary) ++ executedFrom history (base + span) events
  | base, event :: events =>
    (own event).map (place base) ++ executedFrom history (base + extent event) events

/-- Which secondaries are executed, and from which order on. -/
def executes : Nat → List Event → List (VkCommandBuffer × Nat)
  | _, [] => []
  | base, .execute secondary span :: events => (secondary, base) :: executes (base + span) events
  | base, event :: events => executes (base + extent event) events

def programFrom (history : VkCommandBuffer → List Event) : Nat → List VkCommandBuffer → List Work
  | _, [] => []
  | base, c :: cs =>
    executedFrom history base (history c) ++ programFrom history (base + total (history c)) cs

@[simp] theorem orderOf_place (base : Nat) (w : Work) : orderOf (place base w) = base := by
  cases w <;> rfl

@[simp] theorem unordered_place (base : Nat) (w : Work) :
    unordered (place base w) = unordered w := by
  cases w <;> rfl

theorem own_length (event : Event) :
    own event = [] ∨ (∃ w, own event = [w]) ∧ extent event = 1 := by
  cases event with
  | upload u => exact .inr ⟨⟨_, rfl⟩, rfl⟩
  | copy c => exact .inr ⟨⟨_, rfl⟩, rfl⟩
  | execute s span => exact .inl rfl

/-- Work in its order, from one order on and below another. -/
def Ascends (low high : Nat) (ws : List Work) : Prop :=
  (ws.Pairwise fun v w => orderOf v < orderOf w) ∧ ∀ w ∈ ws, low ≤ orderOf w ∧ orderOf w < high

theorem Ascends.append {low middle high : Nat} {ws ws' : List Work} (h : Ascends low middle ws)
    (h' : Ascends middle high ws') (hlow : low ≤ middle) (hhigh : middle ≤ high) :
    Ascends low high (ws ++ ws') := by
  refine ⟨List.pairwise_append.2 ⟨h.1, h'.1, fun v hv w hw => (h.2 v hv).2.trans_le (h'.2 w hw).1⟩,
    fun w hw => ?_⟩
  rcases List.mem_append.1 hw with hw | hw
  · exact ⟨(h.2 w hw).1, (h.2 w hw).2.trans_le hhigh⟩
  · exact ⟨hlow.trans (h'.2 w hw).1, (h'.2 w hw).2⟩

theorem ascends_own (base : Nat) (event : Event) :
    Ascends base (base + extent event) ((own event).map (place base)) := by
  rcases own_length event with hnone | ⟨⟨w, hw⟩, hone⟩
  · rw [hnone]
    exact ⟨.nil, fun w hw => absurd hw List.not_mem_nil⟩
  · rw [hw, hone]
    refine ⟨List.pairwise_singleton _ _, fun v hv => ?_⟩
    rw [List.mem_singleton.1 hv, orderOf_place]
    exact ⟨le_rfl, Nat.lt_succ_self _⟩

theorem total_cons (event : Event) : total (event :: events) = extent event + total events :=
  List.sum_cons ..

theorem ascends_ownFrom (base : Nat) (events : List Event) :
    Ascends base (base + total events) (ownFrom base events) := by
  induction events generalizing base with
  | nil => exact ⟨.nil, fun w hw => absurd hw List.not_mem_nil⟩
  | cons event events ih =>
    rw [total_cons, ← Nat.add_assoc]
    exact (ascends_own base event).append (ih _) (Nat.le_add_right ..) (Nat.le_add_right ..)

/-- A secondary has recorded as much as was kept free for it. -/
def Spanned (history : VkCommandBuffer → List Event) (events : List Event) : Prop :=
  ∀ secondary span, .execute secondary span ∈ events → total (history secondary) = span

theorem executedFrom_cons (event : Event) : ∃ ws, executedFrom history base (event :: events) =
    ws ++ executedFrom history (base + extent event) events ∧
      (Spanned history [event] → Ascends base (base + extent event) ws) ∧
      ws.map unordered = (executed history event).map unordered := by
  cases event with
  | upload u => exact ⟨_, rfl, fun _ => ascends_own base (.upload u), rfl⟩
  | copy c => exact ⟨_, rfl, fun _ => ascends_own base (.copy c), rfl⟩
  | execute s span =>
    refine ⟨_, rfl, fun hspan => ?_, ?_⟩
    · have hlength := hspan s span (List.mem_singleton_self _)
      have h := ascends_ownFrom base (history s)
      rwa [hlength] at h
    · change (ownFrom base (history s)).map unordered = ((history s).flatMap own).map unordered
      generalize history s = es
      induction es generalizing base with
      | nil => rfl
      | cons e es ih =>
        rw [ownFrom, List.map_append, ih, List.flatMap_cons, List.map_append, List.map_map]
        congr 1
        exact List.map_congr_left fun w _ => unordered_place base w

theorem ascends_executedFrom (h : Spanned history events) :
    Ascends base (base + total events) (executedFrom history base events) := by
  induction events generalizing base with
  | nil => exact ⟨.nil, fun w hw => absurd hw List.not_mem_nil⟩
  | cons event events ih =>
    obtain ⟨ws, heq, hascends, -⟩ := @executedFrom_cons history events base event
    rw [heq, total_cons, ← Nat.add_assoc]
    refine (hascends fun s span hin => h s span ?_).append
      (ih fun s span hin => h s span (List.mem_cons_of_mem _ hin))
      (Nat.le_add_right ..) (Nat.le_add_right ..)
    rw [List.mem_singleton.1 hin]
    exact List.mem_cons_self

theorem unordered_executedFrom :
    (executedFrom history base events).map unordered =
    (events.flatMap (executed history)).map unordered := by
  induction events generalizing base with
  | nil => rfl
  | cons event events ih =>
    obtain ⟨ws, heq, -, hsame⟩ := @executedFrom_cons history events base event
    rw [heq, List.map_append, hsame, ih, List.flatMap_cons, List.map_append]

theorem ascends_programFrom (h : ∀ c ∈ cs, Spanned history (history c)) :
    ∃ high, Ascends base high (programFrom history base cs) := by
  induction cs generalizing base with
  | nil => exact ⟨base, .nil, fun w hw => absurd hw List.not_mem_nil⟩
  | cons c cs ih =>
    rw [List.forall_mem_cons] at h
    obtain ⟨high, hrest⟩ := @ih (base + total (history c)) h.2
    refine ⟨max high (base + total (history c)),
      (ascends_executedFrom h.1).append ?_ (Nat.le_add_right ..) (le_max_right ..)⟩
    exact ⟨hrest.1, fun w hw => ⟨(hrest.2 w hw).1, (hrest.2 w hw).2.trans_le (le_max_left ..)⟩⟩

theorem unordered_programFrom :
    (programFrom history base cs).map unordered = (program history cs).map unordered := by
  induction cs generalizing base with
  | nil => rfl
  | cons c cs ih =>
    rw [programFrom, List.map_append, unordered_executedFrom, ih, program, program,
      List.flatMap_cons, List.map_append]

/-- A primary's own work, and then that of each secondary, is all of its work. -/
theorem executedFrom_perm : (executedFrom history base events).Perm
    (ownFrom base events ++ (executes base events).flatMap fun inner =>
      ownFrom inner.2 (history inner.1)) := by
  induction events generalizing base with
  | nil => exact .refl _
  | cons event events ih =>
    cases event with
    | upload u =>
      exact (ih.append_left ((own (.upload u)).map (place base))).trans
        (.of_eq (List.append_assoc ..).symm)
    | copy c =>
      exact (ih.append_left ((own (.copy c)).map (place base))).trans
        (.of_eq (List.append_assoc ..).symm)
    | execute s span =>
      rw [executedFrom, ownFrom, executes, List.flatMap_cons]
      exact (ih.append_left _).trans (List.perm_append_comm_assoc ..)

/-! What a record holds. -/

def lefts (ws : List Work) : List PendingUpload := ws.filterMap Sum.getLeft?

def rights (ws : List Work) : List BlockCopy := ws.filterMap Sum.getRight?

/-- The record holds the work of its history, with the orders counted on from `first`. -/
structure Holds (first record : CommandRecord) (events : List Event) : Prop where
  uploads : record.uploads = first.uploads ++ lefts (ownFrom first.nextOrder events)
  blockCopies : record.blockCopies = first.blockCopies ++ rights (ownFrom first.nextOrder events)
  nextOrder : record.nextOrder = first.nextOrder + total events
  lengths : record.secondaries.length = record.secondaryOrders.length
  executes : record.secondaries.zip record.secondaryOrders =
    first.secondaries.zip first.secondaryOrders ++ executes first.nextOrder events

/-- What a record keeps of its history. -/
structure SameWork (record record' : CommandRecord) : Prop where
  uploads : record.uploads = record'.uploads
  blockCopies : record.blockCopies = record'.blockCopies
  nextOrder : record.nextOrder = record'.nextOrder
  secondaries : record.secondaries = record'.secondaries
  secondaryOrders : record.secondaryOrders = record'.secondaryOrders

theorem holds_foldl (hlengths : record.secondaries.length = record.secondaryOrders.length)
    (events : List Event) :
    Holds record (events.foldl CommandRecord.add record) events := by
  induction events generalizing record with
  | nil =>
    exact ⟨(List.append_nil _).symm, (List.append_nil _).symm, rfl, hlengths,
      (List.append_nil _).symm⟩
  | cons event events ih =>
    rw [List.foldl_cons]
    cases event with
    | upload u =>
      have h := @ih (record.addUpload u) hlengths
      refine ⟨h.uploads.trans (List.append_assoc ..), h.blockCopies,
        h.nextOrder.trans ?_, h.lengths, h.executes⟩
      rw [total_cons, ← Nat.add_assoc]
      rfl
    | copy c =>
      have h := @ih (record.addBlockCopy c) hlengths
      refine ⟨h.uploads, h.blockCopies.trans (List.append_assoc ..),
        h.nextOrder.trans ?_, h.lengths, h.executes⟩
      rw [total_cons, ← Nat.add_assoc]
      rfl
    | execute s span =>
      have hlengths' : (record.addSecondary s span).secondaries.length =
          (record.addSecondary s span).secondaryOrders.length := by
        simp only [CommandRecord.addSecondary, List.length_append, List.length_singleton, hlengths]
      have h := @ih (record.addSecondary s span) hlengths'
      refine ⟨h.uploads, h.blockCopies, h.nextOrder.trans ?_, h.lengths, h.executes.trans ?_⟩
      · rw [total_cons, ← Nat.add_assoc]
        rfl
      · change (record.secondaries ++ [s]).zip
          (record.secondaryOrders ++ [record.nextOrder]) ++ _ = _
        rw [List.zip_append hlengths, List.append_assoc]
        rfl

theorem SameWork.holds (h : SameWork record (events.foldl CommandRecord.add {})) :
    Holds {} record events := by
  obtain ⟨huploads, hcopies, hnext, hlengths, hexecutes⟩ := @holds_foldl {} rfl events
  exact ⟨h.uploads.trans huploads, h.blockCopies.trans hcopies, h.nextOrder.trans hnext,
    by rw [h.secondaries, h.secondaryOrders, hlengths],
    by rw [h.secondaries, h.secondaryOrders, hexecutes]⟩

/-! What a submit collects. -/

def works (found : Collected) : List Work :=
  found.uploads.map Sum.inl ++ found.blockCopies.map Sum.inr

theorem works_append (found found' : Collected) :
    (works (found ++ found')).Perm (works found ++ works found') := by
  obtain ⟨us, bs⟩ := found
  obtain ⟨us', bs'⟩ := found'
  change ((us ++ us').map Sum.inl ++ (bs ++ bs').map Sum.inr).Perm _
  rw [List.map_append, List.map_append, works, works, List.append_assoc, List.append_assoc]
  exact List.Perm.append_left _ (List.perm_append_comm_assoc ..)

theorem works_foldl {β : Type} (found : Collected) (xs : List β) (f : β → Collected) :
    (works (xs.foldl (fun found x => found ++ f x) found)).Perm
    (works found ++ xs.flatMap fun x => works (f x)) := by
  induction xs generalizing found with
  | nil => rw [List.flatMap_nil, List.append_nil]; exact .refl _
  | cons x xs ih =>
    rw [List.foldl_cons, List.flatMap_cons, ← List.append_assoc]
    exact (ih _).trans ((works_append _ _).append_right _)

theorem ownFrom_shift (base first : Nat) (events : List Event) :
    ownFrom (first + base) events =
      (ownFrom first events).map (Sum.map (fun u => { u with order := u.order + base })
        fun c => { c with order := c.order + base }) := by
  induction events generalizing first with
  | nil => rfl
  | cons event events ih =>
    rw [ownFrom, ownFrom, List.map_append, ← ih, List.map_map, Nat.add_right_comm]
    congr 1
    refine List.map_congr_left fun w _ => ?_
    cases w <;> rfl

/-- Every record holds the work of its history. -/
def Recorded (commands : Commands) (history : VkCommandBuffer → List Event) : Prop :=
  ∀ c, SameWork (commands.at c) ((history c).foldl CommandRecord.add {})

theorem works_collect (h : Recorded commands history) (base : Nat) (c : VkCommandBuffer) :
    (works (collect commands readable c base)).Perm
    ((ownFrom base (history c)).filter (available readable)) := by
  have hholds := (h c).holds
  have huploads : (commands.at c).uploads = lefts (ownFrom 0 (history c)) := hholds.uploads
  have hcopies : (commands.at c).blockCopies = rights (ownFrom 0 (history c)) := hholds.blockCopies
  have hcollect : collect commands readable c base =
      { uploads :=
        ((commands.at c).uploads.filter fun u => readable u.source u.sourceOffset u.sourceSpan).map
          fun u => { u with order := u.order + base }
        blockCopies := (commands.at c).blockCopies.map fun c =>
          { c with order := c.order + base } } := by
    unfold collect Commands.at
    cases commands.lookup c <;> rfl
  have hshift := ownFrom_shift base 0 (history c)
  rw [Nat.zero_add] at hshift
  rw [hcollect, huploads, hcopies, hshift, works]
  generalize ownFrom 0 (history c) = ws
  induction ws with
  | nil => exact .refl _
  | cons w ws ih =>
    cases w with
    | inl u =>
      cases hreadable : readable u.source u.sourceOffset u.sourceSpan with
      | true =>
        simp only [lefts, rights, List.filterMap_cons, Sum.getLeft?_inl, Sum.getRight?_inl,
          List.map_cons, Sum.map_inl,
          List.filter_cons, hreadable, available, if_true, List.cons_append]
        exact ih.cons _
      | false =>
        simp only [lefts, rights, List.filterMap_cons, Sum.getLeft?_inl, Sum.getRight?_inl,
          List.map_cons, Sum.map_inl,
          List.filter_cons, hreadable, available, Bool.false_eq_true, if_false]
        exact ih
    | inr c =>
      simp only [lefts, rights, List.filterMap_cons, Sum.getLeft?_inr, Sum.getRight?_inr,
        List.map_cons, Sum.map_inr,
        List.filter_cons, available, if_true]
      exact List.perm_middle.trans (ih.cons _)

theorem executes_add (base first : Nat) (events : List Event) :
    executes (base + first) events = (executes first events).map fun inner =>
      (inner.1, base + inner.2) := by
  induction events generalizing first with
  | nil => rfl
  | cons event events ih => cases event <;> simp only [executes, List.map_cons, Nat.add_assoc, ih]

theorem works_collectPrimary (h : Recorded commands history) (base : Nat) (c : VkCommandBuffer) :
    (works (collectPrimary commands readable c (commands.at c) base)).Perm
      ((executedFrom history base (history c)).filter (available readable)) := by
  have hexecutes : (commands.at c).secondaries.zip (commands.at c).secondaryOrders =
      executes 0 (history c) :=
    (h c).holds.executes
  have hsecondaries : List.Perm
      ((executes 0 (history c)).flatMap fun inner =>
        works (collect commands readable inner.1 (base + inner.2)))
      (((executes base (history c)).flatMap fun inner => ownFrom inner.2 (history inner.1)).filter
        (available readable)) := by
    have hshift := executes_add base 0 (history c)
    rw [Nat.add_zero] at hshift
    rw [hshift, List.flatMap_map, List.filter_flatMap]
    exact List.Perm.flatMap_left _ fun inner _ => works_collect h _ _
  rw [collectPrimary, hexecutes]
  refine (works_foldl _ _ _).trans (((works_collect h base c).append hsecondaries).trans ?_)
  rw [← List.filter_append]
  exact (executedFrom_perm.filter _).symm

theorem works_collectSubmit (h : Recorded commands history) (base : Nat)
    (cs : List VkCommandBuffer) :
    (works (collectSubmit commands readable base cs)).Perm
      ((programFrom history base cs).filter (available readable)) := by
  induction cs generalizing base with
  | nil => exact .refl _
  | cons c cs ih =>
    have hnext : total (history c) = (commands.at c).nextOrder := by
      rw [(h c).holds.nextOrder]
      exact (Nat.zero_add _).symm
    have hprimary := @works_collectPrimary history commands readable h base c
    rw [programFrom, List.filter_append, collectSubmit, hnext]
    cases hlookup : commands.lookup c with
    | none =>
      have hempty : commands.at c = {} := by rw [Commands.at, hlookup, Option.getD_none]
      have hnothing : works (collectPrimary commands readable c {} base) = [] := by
        have hcollect : collect commands readable c base = {} := by rw [collect, hlookup]
        rw [collectPrimary, hcollect]
        rfl
      rw [hempty] at hprimary ⊢
      rw [hnothing] at hprimary
      rw [hprimary.nil_eq.symm]
      exact ih base
    | some record =>
      rw [at_of_lookup hlookup] at hprimary ⊢
      exact (works_append _ _).trans (hprimary.append (ih _))

/-! Every run keeps records and histories together. -/

variable {τ : Type*} {stagingBlockBytes : Nat} {imageTickets : VkImage → Option Nat}
  {s s' : State τ}
  {a : Option τ × Act}

theorem SameWork.refl (record : CommandRecord) : SameWork record record := ⟨rfl, rfl, rfl, rfl, rfl⟩

theorem SameWork.foldl (h : SameWork record record') (events : List Event) :
    SameWork (events.foldl CommandRecord.add record) (events.foldl CommandRecord.add record') := by
  induction events generalizing record record' with
  | nil => exact h
  | cons event events ih =>
    refine ih ?_
    obtain ⟨huploads, hcopies, hnext, hsecondaries, horders⟩ := h
    cases event <;>
      simp only [CommandRecord.add, CommandRecord.addUpload, CommandRecord.addBlockCopy,
        CommandRecord.addSecondary] <;>
      constructor <;> simp only [huploads, hcopies, hnext, hsecondaries, horders]

theorem SameWork.trans {record'' : CommandRecord} (h : SameWork record record')
    (h' : SameWork record' record'') :
    SameWork record record'' :=
  ⟨h.uploads.trans h'.uploads, h.blockCopies.trans h'.blockCopies, h.nextOrder.trans h'.nextOrder,
    h.secondaries.trans h'.secondaries, h.secondaryOrders.trans h'.secondaryOrders⟩

/-- What one command buffer adds to its record. -/
theorem Recorded.add {commands' : Commands} (h : Recorded commands history)
    (hother : ∀ d, d ≠ c → commands'.at d = commands.at d)
    (hadded : SameWork (commands'.at c) (events.foldl CommandRecord.add (commands.at c))) :
    Recorded commands' (Function.update history c (history c ++ events)) := by
  intro d
  rcases eq_or_ne d c with rfl | hne
  · rw [Function.update_self, List.foldl_append]
    exact hadded.trans ((h d).foldl events)
  · rw [Function.update_of_ne hne, hother d hne]
    exact h d

theorem attachTo_sameWork (r : Recording) (record : CommandRecord) :
    SameWork (r.attachTo record) (r.events.foldl CommandRecord.add record) := by
  have huploads (us : List PendingUpload) (record : CommandRecord) :
      (us.map Event.upload).foldl CommandRecord.add record = record.addUploads us := by
    rw [List.foldl_map]
    rfl
  have hcopies (bs : List BlockCopy) (record : CommandRecord) :
      (bs.map Event.copy).foldl CommandRecord.add record = record.addBlockCopies bs := by
    rw [List.foldl_map]
    rfl
  unfold Recording.attachTo Recording.events
  cases r.texels with
  | none =>
    simp only [List.foldl_append, huploads, hcopies]
    exact .refl _
  | some texels =>
    simp only
    rw [← huploads, ← hcopies, ← List.foldl_append]
    have hstaged : SameWork { record with staging := record.staging ++ [texels] } record :=
      ⟨rfl, rfl, rfl, rfl, rfl⟩
    exact hstaged.foldl _

theorem cmdExecuteCommands_at (secondaries : List VkCommandBuffer) (commands : Commands) :
    (cmdExecuteCommands commands c secondaries).at c =
        (executeEvents c commands secondaries).foldl CommandRecord.add (commands.at c) ∧
      ∀ d, d ≠ c → (cmdExecuteCommands commands c secondaries).at d = commands.at d := by
  induction secondaries generalizing commands with
  | nil => exact ⟨rfl, fun _ _ => rfl⟩
  | cons secondary rest ih =>
    rw [cmdExecuteCommands, List.foldl_cons, executeEvents]
    cases hlookup : commands.lookup secondary with
    | none => exact ih commands
    | some record =>
      obtain ⟨hself, hother⟩ :=
        ih (commands.insert c ((commands.at c).addSecondary secondary record.nextOrder))
      refine ⟨hself.trans ?_, fun d hd => (hother d hd).trans (at_insert_of_ne hd)⟩
      rw [at_insert]
      rfl

section Steps

variable {shared shared' : Shared τ} {p p' : Place} {answers : Answers} {t : τ}

theorem recorded_record {f : CommandRecord → CommandRecord}
    (h : Recorded shared.commands shared.history)
    (hf : SameWork (f (shared.commands.at c))
      (events.foldl CommandRecord.add (shared.commands.at c))) :
    Recorded (shared.record c f events).commands (shared.record c f events).history := by
  refine h.add (fun d hd => at_insert_of_ne hd) ?_
  change SameWork (Commands.at (shared.commands.insert c _) c) _
  rw [at_insert]
  exact hf

theorem recorded_locked (h : Recorded shared.commands shared.history)
    (hstep : lockedStep stagingBlockBytes shared answers p = some (shared', p')) :
    Recorded shared'.commands shared'.history := by
  cases p with
  | acquire r deviceLocal =>
    simp only [lockedStep] at hstep
    split at hstep
    · cases hstep
      exact h
    · split at hstep <;> cases hstep <;> exact h
  | push r deviceLocal => cases hstep; exact h
  | stage r => cases hstep; exact recorded_record h ⟨rfl, rfl, rfl, rfl, rfl⟩
  | attach r =>
    simp only [lockedStep] at hstep
    split at hstep
    · cases hstep
      exact h
    · cases hstep
      exact recorded_record h (attachTo_sameWork r _)
  | dropStaged r => cases hstep; exact h
  | dropTexels texels => cases hstep; exact h
  | execute c secondaries =>
    cases hstep
    obtain ⟨hself, hother⟩ := @cmdExecuteCommands_at c secondaries shared.commands
    exact h.add hother (by rw [hself]; exact .refl _)
  | collect submit => cases hstep; exact h
  | apartTicket submit => cases hstep; exact h
  | fillTicket submit => cases hstep; exact h
  | releaseTicket c =>
    simp only [lockedStep] at hstep
    split at hstep <;> cases hstep <;> exact h
  | releaseErase c ticket =>
    simp only [lockedStep] at hstep
    split at hstep
    · cases hstep
      exact h
    · cases hstep
      intro d
      simp only
      rcases eq_or_ne d c with rfl | hne
      · rw [Function.update_self, at_erase]
        exact .refl _
      · rw [Function.update_of_ne hne, at_erase_of_ne hne]
        exact h d
  | releaseStaging doomed => cases hstep; exact h
  | _ => cases hstep

/-- Tickets are no work. -/
theorem recorded_remember (h : Recorded shared.commands shared.history)
    (submit : Submit) (ticket : Nat) :
    Recorded (shared.remember submit ticket).commands (shared.remember submit ticket).history := by
  intro d
  let st : State τ := ⟨shared, fun _ => .idle⟩
  have hcases : (st.shared.remember submit ticket).commands.at d = st.shared.commands.at d ∨
      Covers st.shared.commands submit d ∧
        (st.shared.remember submit ticket).commands.at d = bump ticket (st.shared.commands.at d) :=
        remember_cases
  rcases hcases with hsame | ⟨-, hraised⟩
  · exact hsame ▸ h d
  · exact SameWork.trans (hraised ▸ ⟨rfl, rfl, rfl, rfl, rfl⟩) (h d)

theorem recorded_free [DecidableEq τ] (h : Recorded shared.commands shared.history)
    (hstep : freeStep stagingBlockBytes t shared answers p = some (shared', p')) :
    Recorded shared'.commands shared'.history := by
  cases p with
  | create r deviceLocal => cases hstep; exact h
  | apartCompare submit ticket => cases hstep; exact h
  | issued submit => cases hstep; exact h
  | wait submit ticket =>
    simp only [freeStep] at hstep
    split at hstep <;> cases hstep
    exact h
  | lock submit =>
    simp only [freeStep] at hstep
    split at hstep <;> cases hstep
    exact h
  | enqueue submit => cases hstep; exact h
  | remember submit ticket => cases hstep; exact recorded_remember h submit ticket
  | releaseWait c ticket =>
    simp only [freeStep] at hstep
    split at hstep <;> cases hstep
    exact h
  | _ => cases hstep

end Steps

variable [DecidableEq τ]

theorem recorded_step (h : Recorded s.shared.commands s.shared.history)
    (hs : (system stagingBlockBytes imageTickets).step s a s') :
    Recorded s'.shared.commands s'.shared.history := by
  obtain ⟨⟨shared, p, hact, rfl⟩, -⟩ := hs
  rcases act_cases hact with
      ⟨-, hstep⟩ | ⟨t, -, ⟨call, -, -, rfl, -⟩ | ⟨answers, hstep⟩ | ⟨answers, hstep⟩⟩
  · rcases dispatch_cases hstep with ⟨batch, rest, -, -, rfl, -⟩ | ⟨batch, -, rfl, -⟩ <;> exact h
  · exact h
  · exact recorded_locked h hstep
  · exact recorded_free h hstep

theorem recorded_reachable (h : (system stagingBlockBytes imageTickets).Reachable s) :
    Recorded s.shared.commands s.shared.history := by
  refine LTS.Reachable.invariant (I := fun s => Recorded s.shared.commands s.shared.history) ?_ ?_ h
  · rintro _ rfl
    exact fun _ => .refl _
  · intro s a s' hs hrec
    exact recorded_step hrec hs

/-- Whatever was recorded before, the orders of what a submit collects are distinct, and following
them is following the program. -/
theorem submit_in_program_order {τ : Type*} [DecidableEq τ] {stagingBlockBytes : Nat}
    {imageTickets : VkImage → Option Nat} {s : State τ}
    {cs : List VkCommandBuffer} {readable : Readable}
    (h : (system stagingBlockBytes imageTickets).Reachable s)
    (hfinished : ∀ c ∈ cs, ∀ secondary span, .execute secondary span ∈ s.shared.history c →
      (s.shared.commands.at secondary).nextOrder = span) :
    (merged (collectSubmit s.shared.commands readable 0 cs)).Pairwise
    (fun v w => orderOf v < orderOf w) ∧
      (merged (collectSubmit s.shared.commands readable 0 cs)).map unordered =
        ((program s.shared.history cs).filter (available readable)).map unordered := by
  have hrecorded := recorded_reachable h
  have hspanned : ∀ c ∈ cs, Spanned s.shared.history (s.shared.history c) := by
    intro c hc secondary span hin
    rw [← hfinished c hc secondary span hin, (hrecorded secondary).holds.nextOrder]
    exact (Nat.zero_add _).symm
  obtain ⟨high, hascends, -⟩ := @ascends_programFrom s.shared.history 0 cs hspanned
  have hmerged : merged (collectSubmit s.shared.commands readable 0 cs) =
      (programFrom s.shared.history 0 cs).filter (available readable) :=
    interleave_sort (hascends.filter _) (works_collectSubmit hrecorded 0 cs)
  rw [hmerged]
  refine ⟨hascends.filter _, ?_⟩
  have havailable : available readable = available readable ∘ unordered := by
    funext w
    cases w <;> rfl
  rw [havailable, ← List.filter_map, unordered_programFrom, List.filter_map]

/-- A secondary is executed twice, between an upload and a copy. -/
def executedTwice : List (Option Unit × Act) :=
  let thread (act : Act) : Option Unit × Act := (some (), act)
  [thread
    (.call (.record
      { device := 1, commandBuffer := 7, uploads := [{ image := 7 }], host := false })),
    thread (.step {}),
    thread (.call
      (.record { device := 1, commandBuffer := 5, uploads := [{ image := 5 }], host := false })),
    thread (.step {}),
    thread (.call (.execute 5 [7, 7])), thread (.step {}),
    thread (.call
      (.record
        { device := 1, commandBuffer := 5, copies := [{ image := 7, keep := 5 }], host := false })),
    thread (.step {})]

theorem submit_in_program_order_twice : ∃ s : State Unit,
    (merged (collectSubmit s.shared.commands (fun _ _ _ => true) 0 [5])).map unordered =
      [.inl { image := 5, keepOnly := true }, .inl { image := 7, keepOnly := true },
        .inl { image := 7, keepOnly := true }, .inr { image := 7, keep := 5 }] := by
  have hrun : ∃ s, executedTwice.foldlM quietNext ⟨{ imageTickets := fun _ => none },
      fun _ => .idle⟩ = some s ∧
      s.shared.history 5 = [.upload { image := 5, keepOnly := true }, .execute 7 1, .execute 7 1,
        .copy { image := 7, keep := 5 }] ∧
      (s.shared.commands.at 7).nextOrder = 1 ∧
      ((program s.shared.history [5]).filter (available fun _ _ _ => true)).map unordered =
        [.inl { image := 5, keepOnly := true }, .inl { image := 7, keepOnly := true },
          .inl { image := 7, keepOnly := true }, .inr { image := 7, keep := 5 }] :=
            ⟨_, rfl, rfl, rfl, rfl⟩
  obtain ⟨s, hs, hhistory, hspan, hprogram⟩ := hrun
  have hreach : (system 4096 fun _ => none).Reachable s :=
    ⟨_, executedTwice, rfl, LTS.Run.of_foldlM (fun _ _ _ => quietNext_step) hs⟩
  refine ⟨s, (submit_in_program_order hreach fun c hc secondary span hin => ?_).2.trans hprogram⟩
  rw [List.mem_singleton.1 hc, hhistory] at hin
  simp only [List.mem_cons, reduceCtorEq, Event.execute.injEq, List.not_mem_nil, or_false,
    false_or, or_self] at hin
  rw [hin.1, hin.2, hspan]

end Nightcap.Graphics.Orders
