import Nightcap.Compat.PthreadKey
import Nightcap.Lib.Mutex

/-! The pthread keys refine their history: each access that matters is one event, allowed by what
came before. -/
namespace Nightcap.Compat.PthreadKey

open Transition Threads KeyHistory Mutex

theorem isInUse_iff {sequence : Nat} : isInUse sequence = true ↔ sequence % 2 = 1 := by
  unfold isInUse kSequenceInUseBit
  rw [Nat.and_one_is_mod, bne_iff_ne]
  omega

theorem isInUse_eq_false_iff {sequence : Nat} : isInUse sequence = false ↔ sequence % 2 = 0 := by
  rw [← Bool.not_eq_true, isInUse_iff]
  omega

theorem decodeKey_encodeKey (index : Index) : decodeKey (encodeKey index) = some index := by
  revert index
  decide

theorem encodeKey_injective : Function.Injective encodeKey := by
  intro i j h
  have heq := congrArg decodeKey h
  rw [decodeKey_encodeKey, decodeKey_encodeKey] at heq
  exact Option.some.inj heq

variable {τ ν δ : Type*} {t u : τ} {s s' : Shared τ ν δ} {th th' : Thread ν δ} {a : Act ν δ}
  {index i : Index} {slot slot' : KeySlot δ} {own own' : KeyValue ν} {place : Place ν δ}
  {st : State τ ν δ}

/-- The thread holds `mutex_`. -/
def Place.inside : Place ν δ → Bool
  | .createLoad .. | .createStoreDestructor .. | .createStoreSequence .. => true
  | .deleteLoad _ | .deleteStoreSequence .. | .deleteStoreDestructor _ | .unlock _ => true
  | _ => false

/-- Where the thread is in the loops of `Clean`. -/
def Place.frame : Place ν δ → Option Frame
  | .cleanLoad frame | .cleanDestructor frame _ | .cleanConfirm frame _ _ => some frame
  | _ => none

/-- The destructor of the key in a slot, if there is one. -/
def KeySlot.live (slot : KeySlot δ) : Option (Option δ) :=
  if isInUse slot.sequence then some slot.destructor else none

/-- What a thread has for a slot as it is now. -/
def holding (slot : KeySlot δ) (own : KeyValue ν) : Option ν :=
  if isInUse slot.sequence && own.sequence == slot.sequence then own.value else none

/-- What `Clean` knows of the value it is about to pass on. -/
structure Confirmable (s : Shared τ ν δ) (th : Thread ν δ) (frame : Frame) (sequence : Nat) :
    Prop where
  inUse : sequence % 2 = 1
  le : sequence ≤ (s.slots frame.index).sequence
  own : (th.values frame.index).sequence = sequence
  value : (th.values frame.index).value ≠ none

/-- What a thread knows from where it is. -/
def Placed (s : Shared τ ν δ) (th : Thread ν δ) : Prop :=
  match th.place with
  | .createStoreDestructor _ index sequence =>
    (s.slots index).sequence = sequence ∧ sequence % 2 = 0
  | .createStoreSequence destructor index sequence =>
    (s.slots index).sequence = sequence ∧ sequence % 2 = 0 ∧
      (s.slots index).destructor = destructor
  | .deleteStoreSequence index sequence =>
    (s.slots index).sequence = sequence ∧ sequence % 2 = 1
  | .deleteStoreDestructor index => (s.slots index).sequence % 2 = 0
  | .cleanDestructor frame sequence => Confirmable s th frame sequence
  | .cleanConfirm frame sequence destructor =>
    Confirmable s th frame sequence ∧
      ((s.slots frame.index).sequence = sequence → (s.slots frame.index).destructor = destructor)
  | _ => True

/-- Sequences only grow, and a slot in use keeps its destructor. -/
structure Grows (s s' : Shared τ ν δ) : Prop where
  le : ∀ i, (s.slots i).sequence ≤ (s'.slots i).sequence
  destructor : ∀ i, (s.slots i).sequence % 2 = 1 → (s'.slots i).sequence = (s.slots i).sequence →
    (s'.slots i).destructor = (s.slots i).destructor

/-- What a thread knows stays true while others act. -/
theorem Placed.other (h : Placed s th) (hg : Grows s s')
    (hin : th.place.inside = true → s'.slots = s.slots) : Placed s' th := by
  unfold Placed at h ⊢
  cases hp : th.place with
  | createStoreDestructor d index sequence =>
    rw [hp] at h hin
    rw [hin rfl]
    exact h
  | createStoreSequence d index sequence =>
    rw [hp] at h hin
    rw [hin rfl]
    exact h
  | deleteStoreSequence index sequence =>
    rw [hp] at h hin
    rw [hin rfl]
    exact h
  | deleteStoreDestructor index =>
    rw [hp] at h hin
    rw [hin rfl]
    exact h
  | cleanDestructor frame sequence =>
    rw [hp] at h
    exact ⟨h.inUse, h.le.trans (hg.le _), h.own, h.value⟩
  | cleanConfirm frame sequence destructor =>
    rw [hp] at h
    obtain ⟨hc, hd⟩ := h
    refine ⟨⟨hc.inUse, hc.le.trans (hg.le _), hc.own, hc.value⟩, fun heq => ?_⟩
    -- The sequence is the one loaded, so it was all the time in between.
    have hle := hc.le
    have hge := hg.le frame.index
    have hsame : (s.slots frame.index).sequence = sequence := by omega
    have hodd := hc.inUse
    rw [hg.destructor frame.index (by omega) (by omega)]
    exact hd hsame
  | _ => trivial

theorem Grows.refl (h : s'.slots = s.slots) : Grows s s' :=
  ⟨fun i => by rw [h], fun i _ _ => by rw [h]⟩

/-- Another slot's destructor, or one that is not in use. -/
theorem Grows.destructor_update (h : s'.slots = Function.update s.slots index slot)
    (hs : slot.sequence = (s.slots index).sequence) (hfree : (s.slots index).sequence % 2 = 0) :
    Grows s s' := by
  constructor
  · intro i
    rw [h]
    by_cases hi : i = index
    · subst hi
      rw [Function.update_self, hs]
    · rw [Function.update_of_ne hi]
  · intro i hodd _
    have hi : i ≠ index := by
      rintro rfl
      omega
    rw [h, Function.update_of_ne hi]

theorem Grows.sequence_update (h : s'.slots = Function.update s.slots index slot)
    (hs : slot.sequence = (s.slots index).sequence + 1) : Grows s s' := by
  constructor
  · intro i
    rw [h]
    by_cases hi : i = index
    · subst hi
      rw [Function.update_self, hs]
      omega
    · rw [Function.update_of_ne hi]
  · intro i _ hsame
    have hi : i ≠ index := by
      rintro rfl
      rw [h, Function.update_self, hs] at hsame
      omega
    rw [h, Function.update_of_ne hi]

/-- The keys, when one slot has changed. -/
theorem live_update {log log' : History τ Index ν δ} {slots : Index → KeySlot δ}
    (hlive : live i log = (slots i).live)
    (hlog : live i log' = if index = i then slot.live else live i log) :
    live i log' = (Function.update slots index slot i).live := by
  by_cases hi : i = index
  · subst hi
    rw [hlog, if_pos rfl, Function.update_self]
  · rw [hlog, if_neg (Ne.symm hi), Function.update_of_ne hi, hlive]

theorem holding_of_ne (h : own.sequence ≠ slot.sequence) : holding slot own = none := by
  rw [holding, beq_eq_false_iff_ne.2 h, Bool.and_false]
  rfl

theorem holding_self (h : slot.sequence % 2 = 1) (hs : own.sequence = slot.sequence) :
    holding slot own = own.value := by
  rw [holding, isInUse_iff.2 h, hs, beq_self_eq_true]
  rfl

/-! What a step does. -/

/-- What an access does to the slots, the thread's values and the history. -/
inductive Effect (t : τ) (s : Shared τ ν δ) (th : Thread ν δ) : Shared τ ν δ → Thread ν δ → Prop
  | go (mutex : Option τ) (place : Place ν δ) (destroying : Option Frame)
      (hframe : ∀ f, place.frame = some f ∨ destroying = some f →
        ∃ g, (th.place.frame = some g ∨ th.destroying = some g) ∧ g.round = f.round)
      (hapart : place.frame ≠ none → destroying = none) :
      Effect t s th { s with mutex } { th with place, destroying }
  | storeDestructor (index : Index) (destructor : Option δ) (place : Place ν δ)
      (h : (s.slots index).sequence % 2 = 0) (hplace : place.frame = none)
      (hin : th.place.inside = true) :
      Effect t s th
        { s with slots := Function.update s.slots index { s.slots index with destructor } }
        { th with place }
  | create (index : Index) (place : Place ν δ) (h : (s.slots index).sequence % 2 = 0)
      (hplace : place.frame = none) (hin : th.place.inside = true) :
      Effect t s th
        { s with
          slots := Function.update s.slots index
            { s.slots index with sequence := (s.slots index).sequence + 1 }
          log := .create index (s.slots index).destructor :: s.log }
        { th with place }
  | delete (index : Index) (place : Place ν δ) (h : (s.slots index).sequence % 2 = 1)
      (hplace : place.frame = none) (hin : th.place.inside = true) :
      Effect t s th
        { s with
          slots := Function.update s.slots index
            { s.slots index with sequence := (s.slots index).sequence + 1 }
          log := .delete index :: s.log }
        { th with place }
  | get (index : Index) (own : KeyValue ν) (outcome : Outcome ν)
      (hseq : own.sequence = (th.values index).sequence)
      (hown : holding (s.slots index) own = holding (s.slots index) (th.values index)) :
      Effect t s th
        { s with log := .get t index (holding (s.slots index) (th.values index)) :: s.log }
        { th with place := .returned outcome, values := Function.update th.values index own }
  | set (index : Index) (value : Option ν) (h : (s.slots index).sequence % 2 = 1) :
      Effect t s th { s with log := .set t index value :: s.log }
        { th with
          place := .returned .ok
          values := Function.update th.values index ⟨(s.slots index).sequence, value⟩ }
  | clean (f : Frame) (h : f.round = 0) (hidle : th.destroying = none) :
      Effect t s th { s with log := .round t :: .clean t :: s.log }
        { th with place := .cleanLoad f }
  | round (f g : Frame) (h : g.round = f.round + 1) (hround : g.round < kBionicDestructorIterations)
      (hf : th.place.frame = some f ∨ th.destroying = some f) :
      Effect t s th { s with log := .round t :: s.log }
        { th with place := .cleanLoad g, destroying := none }
  | destroy (f : Frame) (destructor : δ) (hf : th.place.frame = some f)
    (h : (s.slots f.index).sequence % 2 = 1)
      (hd : (s.slots f.index).destructor = some destructor)
      (hown : (th.values f.index).sequence = (s.slots f.index).sequence)
      (hvalue : (th.values f.index).value ≠ none) :
      Effect t s th
        { s with log := .destroy t f.index (th.values f.index).value destructor :: s.log }
        { place := .returned .ok
          values := Function.update th.values f.index { th.values f.index with value := none }
          destroying := some f }

/-- What a step does to `mutex_`: nothing, or the thread takes it, or leaves it. -/
inductive Locks (t : τ) (s : Shared τ ν δ) (th : Thread ν δ)
    (s' : Shared τ ν δ) (th' : Thread ν δ) :
    Prop
  | same (hm : s'.mutex = s.mutex) (hin : th'.place.inside = th.place.inside)
  | take (hm : s.mutex = none) (hm' : s'.mutex = some t) (hin : th'.place.inside = true)
  | leave (hin : th.place.inside = true) (hm' : s'.mutex = none) (hin' : th'.place.inside = false)

/-- All a step must show. -/
structure Stepped (t : τ) (s : Shared τ ν δ) (th : Thread ν δ) (s' : Shared τ ν δ)
    (th' : Thread ν δ) : Prop where
  effect : Effect t s th s' th'
  locks : Locks t s th s' th'
  placed : Placed s' th'

theorem Stepped.go (hframe : place.frame = none) (hin : place.inside = th.place.inside)
    (hplaced : Placed s { th with place }) : Stepped t s th s { th with place } :=
  ⟨.go s.mutex place th.destroying (fun f hf => ⟨f, .inr (by simpa [hframe] using hf), rfl⟩)
    (fun hne => absurd hframe hne), .same rfl hin, hplaced⟩

theorem cleanOn_stepped {f g : Frame} (hf : th.place.frame = some f ∨ th.destroying = some f)
    (hround : g.round = f.round) (hin : th.place.inside = false) :
    Stepped t s th (cleanOn t s { th with destroying := none } g).1
      (cleanOn t s { th with destroying := none } g).2 := by
  unfold cleanOn
  split
  · exact ⟨.go s.mutex _ none (fun f' hf' => ⟨f, hf, by
      rcases hf' with hf' | hf'
      · obtain rfl := Option.some.inj hf'
        exact hround.symm
      · cases hf'⟩) (fun _ => rfl), .same rfl hin.symm, trivial⟩
  · split
    · exact ⟨.go s.mutex _ none (fun f' hf' => by rcases hf' with hf' | hf' <;> cases hf')
        (fun _ => rfl), .same rfl hin.symm, trivial⟩
    · split
      · rename_i hmore
        exact ⟨.round f _ (by rw [← hround]) hmore hf, .same rfl hin.symm, trivial⟩
      · exact ⟨.go s.mutex _ none (fun f' hf' => by rcases hf' with hf' | hf' <;> cases hf')
          (fun _ => rfl), .same rfl hin.symm, trivial⟩

/-- `Clean` goes on from one of its accesses. -/
theorem cleanOn_stepped_of_place {f : Frame} (hf : th.place.frame = some f)
    (hapart : th.place.frame ≠ none → th.destroying = none) (hin : th.place.inside = false)
    (h : some (cleanOn t s th f) = some (s', th')) : Stepped t s th s' th' := by
  have hidle : th.destroying = none := hapart (by rw [hf]; nofun)
  have hsame : { th with destroying := none } = th := by rw [← hidle]
  have hstep := cleanOn_stepped (t := t) (s := s) (g := f) (.inl hf) rfl hin
  rw [hsame] at hstep
  rw [Option.some.inj h] at hstep
  exact hstep

theorem createLock_stepped {destructor : Option δ} (h : access t s th = some (s', th'))
    (hp : th.place = .createLock destructor) : Stepped t s th s' th' := by
  simp only [access, hp] at h
  split at h
  · rename_i hm
    cases h
    exact ⟨.go (some t) _ th.destroying
      (fun f hf => ⟨f, .inr (by simpa [Place.frame] using hf), rfl⟩)
      (fun hne => absurd rfl hne), .take hm rfl rfl, trivial⟩
  · cases h

theorem createLoad_stepped {destructor : Option δ} (h : access t s th = some (s', th'))
    (hp : th.place = .createLoad destructor index) : Stepped t s th s' th' := by
  simp only [access, hp] at h
  cases h
  have hin : th.place.inside = true := by rw [hp]; rfl
  cases hused : isInUse (s.slots index).sequence with
  | false =>
    exact .go rfl hin.symm ⟨rfl, isInUse_eq_false_iff.1 hused⟩
  | true =>
    simp only [Bool.not_true, Bool.false_eq_true, if_false]
    split <;> exact .go rfl hin.symm trivial

theorem createStoreDestructor_stepped {destructor : Option δ} {sequence : Nat}
    (h : access t s th = some (s', th')) (hplaced : Placed s th)
    (hp : th.place = .createStoreDestructor destructor index sequence) : Stepped t s th s' th' := by
  simp only [Placed, hp] at hplaced
  simp only [access, hp] at h
  cases h
  obtain ⟨rfl, heven⟩ := hplaced
  have hin : th.place.inside = true := by rw [hp]; rfl
  refine ⟨.storeDestructor index destructor _ heven rfl hin, .same rfl hin.symm, ?_⟩
  simpa [Placed] using heven

theorem createStoreSequence_stepped {destructor : Option δ} {sequence : Nat}
    (h : access t s th = some (s', th')) (hplaced : Placed s th)
    (hp : th.place = .createStoreSequence destructor index sequence) : Stepped t s th s' th' := by
  simp only [Placed, hp] at hplaced
  simp only [access, hp] at h
  cases h
  obtain ⟨rfl, heven, rfl⟩ := hplaced
  have hin : th.place.inside = true := by rw [hp]; rfl
  exact ⟨.create index _ heven rfl hin, .same rfl hin.symm, trivial⟩

theorem deleteLock_stepped (h : access t s th = some (s', th'))
    (hp : th.place = .deleteLock index) : Stepped t s th s' th' := by
  simp only [access, hp] at h
  split at h
  · rename_i hm
    cases h
    exact ⟨.go (some t) _ th.destroying
      (fun f hf => ⟨f, .inr (by simpa [Place.frame] using hf), rfl⟩)
      (fun hne => absurd rfl hne), .take hm rfl rfl, trivial⟩
  · cases h

theorem deleteLoad_stepped (h : access t s th = some (s', th'))
    (hp : th.place = .deleteLoad index) : Stepped t s th s' th' := by
  simp only [access, hp] at h
  cases h
  have hin : th.place.inside = true := by rw [hp]; rfl
  cases hused : isInUse (s.slots index).sequence with
  | false => exact .go rfl hin.symm trivial
  | true => exact .go rfl hin.symm ⟨rfl, isInUse_iff.1 hused⟩

theorem deleteStoreSequence_stepped {sequence : Nat} (h : access t s th = some (s', th'))
    (hplaced : Placed s th)
    (hp : th.place = .deleteStoreSequence index sequence) : Stepped t s th s' th' := by
  simp only [Placed, hp] at hplaced
  simp only [access, hp] at h
  cases h
  obtain ⟨rfl, hodd⟩ := hplaced
  have hin : th.place.inside = true := by rw [hp]; rfl
  refine ⟨.delete index _ hodd rfl hin, .same rfl hin.symm, ?_⟩
  simp only [Placed, Function.update_self]
  omega

theorem deleteStoreDestructor_stepped (h : access t s th = some (s', th')) (hplaced : Placed s th)
    (hp : th.place = .deleteStoreDestructor index) : Stepped t s th s' th' := by
  simp only [Placed, hp] at hplaced
  simp only [access, hp] at h
  cases h
  have hin : th.place.inside = true := by rw [hp]; rfl
  exact ⟨.storeDestructor index none _ hplaced rfl hin, .same rfl hin.symm, trivial⟩

theorem unlock_stepped {outcome : Outcome ν} (h : access t s th = some (s', th'))
    (hp : th.place = .unlock outcome) : Stepped t s th s' th' := by
  simp only [access, hp] at h
  cases h
  exact ⟨.go none _ th.destroying (fun f hf => ⟨f, .inr (by simpa [Place.frame] using hf), rfl⟩)
    (fun hne => absurd rfl hne), .leave (by rw [hp]; rfl) rfl rfl, trivial⟩

theorem getLoad_stepped (h : access t s th = some (s', th'))
    (hp : th.place = .getLoad index) : Stepped t s th s' th' := by
  simp only [access, hp] at h
  have hin : th.place.inside = false := by rw [hp]; rfl
  split at h
  · rename_i hmine
    cases h
    have hheld : holding (s.slots index) (th.values index) = (th.values index).value :=
      if_pos hmine
    have heffect := @Effect.get _ _ _ t s th index (th.values index)
      (.value (th.values index).value) rfl rfl
    rw [Function.update_eq_self, hheld] at heffect
    exact ⟨heffect, .same rfl hin.symm, trivial⟩
  · rename_i hmine
    cases h
    have hheld : ∀ own : KeyValue ν, own.sequence = (th.values index).sequence →
        holding (s.slots index) own = none := by
      intro own hown
      exact if_neg (by rw [hown]; exact hmine)
    have heffect := @Effect.get _ _ _ t s th index
      ⟨(th.values index).sequence, none⟩ (.value none) rfl
      ((hheld ⟨_, none⟩ rfl).trans (hheld (th.values index) rfl).symm)
    rw [hheld (th.values index) rfl] at heffect
    exact ⟨heffect, .same rfl hin.symm, trivial⟩

theorem setLoad_stepped {value : Option ν} (h : access t s th = some (s', th'))
    (hp : th.place = .setLoad index value) : Stepped t s th s' th' := by
  simp only [access, hp] at h
  have hin : th.place.inside = false := by rw [hp]; rfl
  cases hused : isInUse (s.slots index).sequence with
  | false =>
    simp only [hused] at h
    cases h
    exact .go rfl hin.symm trivial
  | true =>
    simp only [hused] at h
    cases h
    exact ⟨.set index value (isInUse_iff.1 hused), .same rfl hin.symm, trivial⟩

theorem cleanLoad_stepped {f : Frame} (h : access t s th = some (s', th'))
    (hapart : th.place.frame ≠ none → th.destroying = none)
    (hp : th.place = .cleanLoad f) : Stepped t s th s' th' := by
  simp only [access, hp] at h
  have hin : th.place.inside = false := by rw [hp]; rfl
  have hframe : th.place.frame = some f := by rw [hp]; rfl
  split at h
  · exact cleanOn_stepped_of_place hframe hapart hin h
  · rename_i hfree
    cases h
    simp only [Bool.or_eq_true, Bool.not_eq_true', bne_iff_ne, not_or, Bool.not_eq_false,
      ne_eq, not_not, Bool.not_eq_true, Option.isNone_eq_false_iff] at hfree
    obtain ⟨⟨hused, hseq⟩, hvalue⟩ := hfree
    refine ⟨.go s.mutex _ th.destroying (fun g hg => ?_) (fun _ => hapart (by rw [hframe]; nofun)),
      .same rfl hin.symm, ?_⟩
    · rcases hg with hg | hg
      · exact ⟨g, .inl (hframe.trans hg), rfl⟩
      · exact ⟨g, .inr hg, rfl⟩
    · exact ⟨isInUse_iff.1 hused, le_rfl, hseq, fun h0 => by
        rw [h0] at hvalue
        cases hvalue⟩

theorem cleanDestructor_stepped {f : Frame} {sequence : Nat} (h : access t s th = some (s', th'))
    (hplaced : Placed s th)
    (hapart : th.place.frame ≠ none → th.destroying = none)
    (hp : th.place = .cleanDestructor f sequence) : Stepped t s th s' th' := by
  simp only [Placed, hp] at hplaced
  simp only [access, hp] at h
  cases h
  have hin : th.place.inside = false := by rw [hp]; rfl
  have hframe : th.place.frame = some f := by rw [hp]; rfl
  refine ⟨.go s.mutex _ th.destroying (fun g hg => ?_) (fun _ => hapart (by rw [hframe]; nofun)),
    .same rfl hin.symm, ?_⟩
  · rcases hg with hg | hg
    · exact ⟨g, .inl (hframe.trans hg), rfl⟩
    · exact ⟨g, .inr hg, rfl⟩
  · exact ⟨⟨hplaced.inUse, hplaced.le, hplaced.own, hplaced.value⟩, fun _ => rfl⟩

theorem cleanConfirm_stepped {f : Frame} {sequence : Nat} {destructor : Option δ}
    (h : access t s th = some (s', th')) (hplaced : Placed s th)
    (hapart : th.place.frame ≠ none → th.destroying = none)
    (hp : th.place = .cleanConfirm f sequence destructor) : Stepped t s th s' th' := by
  simp only [Placed, hp] at hplaced
  simp only [access, hp] at h
  obtain ⟨hc, hd⟩ := hplaced
  have hin : th.place.inside = false := by rw [hp]; rfl
  have hframe : th.place.frame = some f := by rw [hp]; rfl
  cases destructor with
  | none => exact cleanOn_stepped_of_place hframe hapart hin h
  | some destructor =>
    simp only at h
    split at h
    · exact cleanOn_stepped_of_place hframe hapart hin h
    · rename_i hsame
      have hsame := (not_not.1 hsame).symm
      cases h
      have hodd := hc.inUse
      rw [← hsame] at hodd
      exact ⟨.destroy f destructor hframe hodd (hd hsame) (hc.own.trans hsame.symm) hc.value,
        .same rfl hin.symm, trivial⟩

theorem access_stepped (h : access t s th = some (s', th')) (hplaced : Placed s th)
    (hapart : th.place.frame ≠ none → th.destroying = none) : Stepped t s th s' th' := by
  cases hp : th.place with
  | returned outcome =>
    simp only [access, hp] at h
    cases h
  | createLock destructor => exact createLock_stepped h hp
  | createLoad destructor index => exact createLoad_stepped h hp
  | createStoreDestructor destructor index sequence =>
    exact createStoreDestructor_stepped h hplaced hp
  | createStoreSequence destructor index sequence => exact createStoreSequence_stepped h hplaced hp
  | deleteLock index => exact deleteLock_stepped h hp
  | deleteLoad index => exact deleteLoad_stepped h hp
  | deleteStoreSequence index sequence => exact deleteStoreSequence_stepped h hplaced hp
  | deleteStoreDestructor index => exact deleteStoreDestructor_stepped h hplaced hp
  | unlock outcome => exact unlock_stepped h hp
  | getLoad index => exact getLoad_stepped h hp
  | setLoad index value => exact setLoad_stepped h hp
  | cleanLoad f => exact cleanLoad_stepped h hapart hp
  | cleanDestructor f sequence => exact cleanDestructor_stepped h hplaced hapart hp
  | cleanConfirm f sequence destructor => exact cleanConfirm_stepped h hplaced hapart hp

theorem call_stepped {c : Call ν δ} {outcome : Outcome ν} (hp : th.place = .returned outcome)
    (hclean : c = .clean → th.destroying = none) :
    Stepped t s th (call t s th c).1 (call t s th c).2 := by
  have hin : th.place.inside = false := by rw [hp]; rfl
  cases c with
  | create keyGiven destructor =>
    cases keyGiven with
    | true => exact .go rfl hin.symm trivial
    | false => exact .go rfl hin.symm trivial
  | delete key =>
    cases hk : decodeKey key with
    | none =>
      simp only [call, hk]
      exact .go rfl hin.symm trivial
    | some index =>
      simp only [call, hk]
      exact .go rfl hin.symm trivial
  | get key =>
    cases hk : decodeKey key with
    | none =>
      simp only [call, hk]
      exact .go rfl hin.symm trivial
    | some index =>
      simp only [call, hk]
      exact .go rfl hin.symm trivial
  | set key value =>
    cases hk : decodeKey key with
    | none =>
      simp only [call, hk]
      exact .go rfl hin.symm trivial
    | some index =>
      simp only [call, hk]
      exact .go rfl hin.symm trivial
  | clean => exact ⟨.clean ⟨0, first, 0⟩ rfl (hclean rfl), .same rfl hin.symm, trivial⟩

theorem act_stepped (h : act t s th a = some (s', th')) (hplaced : Placed s th)
    (hapart : th.place.frame ≠ none → th.destroying = none) : Stepped t s th s' th' := by
  cases a with
  | access => exact access_stepped h hplaced hapart
  | call c =>
    obtain ⟨place, values, destroying⟩ := th
    cases place with
    | returned outcome =>
      have hcalled : (c = .clean → destroying = none) ∧
          call t s ⟨.returned outcome, values, destroying⟩ c = (s', th') := by
        cases destroying with
        | none => cases c <;> exact ⟨fun _ => rfl, Option.some.inj h⟩
        | some f =>
          cases c with
          | clean => cases h
          | _ => exact ⟨nofun, Option.some.inj h⟩
      have hstep :=
        @call_stepped _ _ _ t s ⟨.returned outcome, values, destroying⟩ c _ rfl hcalled.1
      rw [hcalled.2] at hstep
      exact hstep
    | _ => cases h
  | destroyed =>
    obtain ⟨place, values, destroying⟩ := th
    cases place with
    | returned outcome =>
      cases destroying with
      | none => cases h
      | some f =>
        have hstep := @cleanOn_stepped _ _ _ t s ⟨.returned outcome, values, some f⟩ f
          { f with calledDestructors := f.calledDestructors + 1 } (.inr rfl) rfl rfl
        rw [Option.some.inj h] at hstep
        exact hstep
    | _ => cases h

/-! The invariant. -/

variable [DecidableEq τ]

/-- The invariant of every run. -/
structure Sound (st : State τ ν δ) : Prop where
  owned : Owned st.shared.mutex (fun t => (st.own t).place) Place.inside
  live : ∀ i, live i st.shared.log = (st.shared.slots i).live
  held : ∀ t i, held t i st.shared.log = holding (st.shared.slots i) ((st.own t).values i)
  le : ∀ t i, ((st.own t).values i).sequence ≤ (st.shared.slots i).sequence
  placed : ∀ t, Placed st.shared (st.own t)
  round : ∀ t frame, (st.own t).place.frame = some frame ∨ (st.own t).destroying = some frame →
    rounds t st.shared.log = frame.round + 1
  apart : ∀ t, (st.own t).place.frame ≠ none → (st.own t).destroying = none
  legal : Legal kBionicDestructorIterations st.shared.log

/-- What a step must keep, of the thread that acts and of the others. -/
structure Kept (st : State τ ν δ) (t : τ) (s' : Shared τ ν δ) (th' : Thread ν δ) : Prop where
  grows : Grows st.shared s'
  inside : s'.slots = st.shared.slots ∨ (st.own t).place.inside = true
  live : ∀ i, live i s'.log = (s'.slots i).live
  heldOwn : ∀ i, held t i s'.log = holding (s'.slots i) (th'.values i)
  heldOther : ∀ u, u ≠ t → ∀ i, held u i s'.log = holding (s'.slots i) ((st.own u).values i)
  le : ∀ i, (th'.values i).sequence ≤ (s'.slots i).sequence
  round : ∀ f, th'.place.frame = some f ∨ th'.destroying = some f →
    rounds t s'.log = f.round + 1
  roundOther : ∀ u, u ≠ t → rounds u s'.log = rounds u st.shared.log
  apart : th'.place.frame ≠ none → th'.destroying = none
  legal : Legal kBionicDestructorIterations s'.log

theorem Kept.sound (h : Kept st t s' th') (hs : Sound st)
    (howned : Owned s'.mutex (fun u => ((st.set t s' th').own u).place) Place.inside)
    (hplaced : Placed s' th') : Sound (st.set t s' th') := by
  refine ⟨howned, h.live, ?_, ?_, ?_, ?_, ?_, h.legal⟩
  · exact (System.forall_set (P := fun u (th : Thread ν δ) => ∀ i,
      KeyHistory.held u i s'.log = holding (s'.slots i) (th.values i))).2 ⟨h.heldOwn, h.heldOther⟩
  · exact (System.forall_set (P := fun _ (th : Thread ν δ) => ∀ i,
      (th.values i).sequence ≤ (s'.slots i).sequence)).2
        ⟨h.le, fun u _ i => (hs.le u i).trans (h.grows.le i)⟩
  · refine (System.forall_set (P := fun _ th => Placed s' th)).2 ⟨hplaced, fun u hu => ?_⟩
    refine (hs.placed u).other h.grows fun hin => ?_
    rcases h.inside with hsame | ht
    · exact hsame
    · exact absurd (hs.owned.unique hin ht) hu
  · refine (System.forall_set (P := fun u (th : Thread ν δ) => ∀ f,
      th.place.frame = some f ∨ th.destroying = some f → rounds u s'.log = f.round + 1)).2
        ⟨h.round, fun u hu f hf => (h.roundOther u hu).trans (hs.round u f hf)⟩
  · exact (System.forall_set (P := fun _ (th : Thread ν δ) =>
      th.place.frame ≠ none → th.destroying = none)).2 ⟨h.apart, fun u _ => hs.apart u⟩

theorem KeySlot.live_of_inUse (h : slot.sequence % 2 = 1) : slot.live = some slot.destructor :=
  if_pos (isInUse_iff.2 h)

theorem KeySlot.live_of_not_inUse (h : slot.sequence % 2 = 0) : slot.live = none :=
  if_neg (by rw [isInUse_eq_false_iff.2 h]; decide)

/-- Nobody holds anything in a slot whose sequence has moved on. -/
theorem held_moved {log log' : History τ Index ν δ} {slots : Index → KeySlot δ}
    (hlog : held u i log' = if index = i then none else held u i log)
    (hheld : held u i log = holding (slots i) own) (hle : own.sequence ≤ (slots i).sequence)
    (hs : slot.sequence = (slots index).sequence + 1) :
    held u i log' = holding (Function.update slots index slot i) own := by
  by_cases hi : i = index
  · subst hi
    rw [hlog, if_pos rfl, Function.update_self, holding_of_ne]
    omega
  · rw [hlog, if_neg (Ne.symm hi), Function.update_of_ne hi, hheld]

theorem le_update {slots : Index → KeySlot δ} {values : Index → KeyValue ν}
    (hle : ∀ i, (values i).sequence ≤ (slots i).sequence)
    (hown : own.sequence ≤ (slots index).sequence) (i : Index) :
    (Function.update values index own i).sequence ≤ (slots i).sequence := by
  by_cases hi : i = index
  · subst hi
    rwa [Function.update_self]
  · rw [Function.update_of_ne hi]
    exact hle i

/-- The values of the thread that acted, when one of them has changed. -/
theorem held_update {log log' : History τ Index ν δ} {slots : Index → KeySlot δ}
    {values : Index → KeyValue ν} (hheld : ∀ i, held t i log = holding (slots i) (values i))
    (hlog : ∀ i, i ≠ index → held t i log' = held t i log)
    (hown : held t index log' = holding (slots index) own) (i : Index) :
    held t i log' = holding (slots i) (Function.update values index own i) := by
  by_cases hi : i = index
  · subst hi
    rw [Function.update_self, hown]
  · rw [Function.update_of_ne hi, hlog i hi, hheld]

/-- A thread that leaves the loops of `Clean` alone. -/
theorem Sound.round_of_none (hs : Sound st) (hplace : place.frame = none) :
    ∀ f, place.frame = some f ∨ (st.own t).destroying = some f →
      rounds t st.shared.log = f.round + 1 := by
  intro f hf
  rw [hplace] at hf
  rcases hf with hf | hf
  · cases hf
  · exact hs.round t f (.inr hf)

theorem storeDestructor_kept (hs : Sound st) {destructor : Option δ}
    (h : (st.shared.slots index).sequence % 2 = 0) (hplace : place.frame = none)
    (hin : (st.own t).place.inside = true) :
    Kept st t { st.shared with
      slots := Function.update st.shared.slots index { st.shared.slots index with destructor } }
      { st.own t with place } := by
  have hseq : ∀ i, ((Function.update st.shared.slots index
      { st.shared.slots index with destructor }) i).sequence = (st.shared.slots i).sequence := by
    intro i
    by_cases hi : i = index
    · subst hi
      rw [Function.update_self]
    · rw [Function.update_of_ne hi]
  have hholding : ∀ i (own : KeyValue ν), holding (Function.update st.shared.slots index
      { st.shared.slots index with destructor } i) own = holding (st.shared.slots i) own := by
    intro i own
    rw [holding, hseq, ← holding]
  refine ⟨.destructor_update rfl rfl h, .inr hin, ?_, ?_, ?_, ?_, hs.round_of_none hplace,
    fun _ _ => rfl, fun hne => absurd hplace hne, hs.legal⟩
  · refine fun i => live_update (hs.live i) ?_
    by_cases hi : index = i
    · subst hi
      rw [if_pos rfl, hs.live index, KeySlot.live_of_not_inUse h]
      refine (KeySlot.live_of_not_inUse ?_).symm
      exact h
    · rw [if_neg hi]
  · intro i
    rw [hholding]
    exact hs.held t i
  · intro u _ i
    rw [hholding]
    exact hs.held u i
  · intro i
    rw [hseq]
    exact hs.le t i

/-- `Create` and `Delete`: the sequence moves on by one. -/
theorem moved_kept (hs : Sound st) {e : Event τ Index ν δ}
    (hslot : slot.sequence = (st.shared.slots index).sequence + 1)
    (hlive : ∀ i, KeyHistory.live i (e :: st.shared.log) =
      if index = i then slot.live else KeyHistory.live i st.shared.log)
    (hheld : ∀ u i, held u i (e :: st.shared.log) = if index = i then none
      else held u i st.shared.log)
    (hrounds : ∀ u, rounds u (e :: st.shared.log) = rounds u st.shared.log)
    (hallowed : e.Allowed kBionicDestructorIterations st.shared.log)
    (hplace : place.frame = none) (hin : (st.own t).place.inside = true) :
    Kept st t { st.shared with
      slots := Function.update st.shared.slots index slot, log := e :: st.shared.log }
      { st.own t with place } := by
  refine ⟨.sequence_update rfl hslot, .inr hin, fun i =>
    live_update (hs.live i) (hlive i), ?_, ?_, ?_,
    ?_, fun u _ => hrounds u, fun hne => absurd hplace hne, hallowed, hs.legal⟩
  · exact fun i => held_moved (hheld t i) (hs.held t i) (hs.le t i) hslot
  · exact fun u _ i => held_moved (hheld u i) (hs.held u i) (hs.le u i) hslot
  · exact fun i => (hs.le t i).trans ((Grows.sequence_update (s := st.shared) rfl hslot).le i)
  · exact fun f hf => (hrounds t).trans (hs.round_of_none hplace f hf)

theorem create_kept (hs : Sound st) (h : (st.shared.slots index).sequence % 2 = 0)
    (hplace : place.frame = none) (hin : (st.own t).place.inside = true) :
    Kept st t { st.shared with
      slots := Function.update st.shared.slots index
        { st.shared.slots index with sequence := (st.shared.slots index).sequence + 1 }
      log := .create index (st.shared.slots index).destructor :: st.shared.log }
      { st.own t with place } := by
  have hused : ((st.shared.slots index).sequence + 1) % 2 = 1 := by omega
  refine moved_kept hs rfl (fun i => ?_) (fun _ _ => rfl) (fun _ => rfl) ?_ hplace hin
  · rw [KeySlot.live_of_inUse hused]
    rfl
  · exact (hs.live index).trans (KeySlot.live_of_not_inUse h)

theorem delete_kept (hs : Sound st) (h : (st.shared.slots index).sequence % 2 = 1)
    (hplace : place.frame = none) (hin : (st.own t).place.inside = true) :
    Kept st t { st.shared with
      slots := Function.update st.shared.slots index
        { st.shared.slots index with sequence := (st.shared.slots index).sequence + 1 }
      log := .delete index :: st.shared.log } { st.own t with place } := by
  have hfree : ((st.shared.slots index).sequence + 1) % 2 = 0 := by omega
  refine moved_kept hs rfl (fun i => ?_) (fun _ _ => rfl) (fun _ => rfl) ?_ hplace hin
  · rw [KeySlot.live_of_not_inUse hfree]
    rfl
  · show KeyHistory.live index st.shared.log ≠ none
    rw [hs.live index, KeySlot.live_of_inUse h]
    exact Option.some_ne_none _

theorem get_kept (hs : Sound st) {outcome : Outcome ν}
    (hseq : own.sequence = ((st.own t).values index).sequence)
    (hown : holding (st.shared.slots index) own =
      holding (st.shared.slots index) ((st.own t).values index)) :
    Kept st t { st.shared with
      log := .get t index (holding (st.shared.slots index) ((st.own t).values index)) ::
        st.shared.log }
      { st.own t with
        place := .returned outcome, values := Function.update (st.own t).values index own } := by
  refine ⟨.refl rfl, .inl rfl, hs.live, ?_, fun u _ => hs.held u, ?_, ?_, fun _ _ => rfl,
    fun hne => absurd rfl hne, ?_, hs.legal⟩
  · exact held_update (hs.held t) (fun _ _ => rfl) ((hs.held t index).trans hown.symm)
  · exact le_update (hs.le t) (hseq.trans_le (hs.le t index))
  · exact hs.round_of_none rfl
  · exact (hs.held t index).symm

theorem set_kept (hs : Sound st) {value : Option ν}
    (h : (st.shared.slots index).sequence % 2 = 1) :
    Kept st t { st.shared with log := .set t index value :: st.shared.log }
      { st.own t with
        place := .returned .ok
        values := Function.update (st.own t).values index
          ⟨(st.shared.slots index).sequence, value⟩ } := by
  refine ⟨.refl rfl, .inl rfl, hs.live, ?_, ?_, ?_, ?_, fun _ _ => rfl,
    fun hne => absurd rfl hne, ?_,
    hs.legal⟩
  · refine held_update (hs.held t) ?_ ?_
    · exact fun i hi => if_neg fun h => hi h.2.symm
    · rw [holding_self h rfl]
      simp [KeyHistory.held]
  · intro u hu i
    exact (if_neg fun h => hu h.1.symm).trans (hs.held u i)
  · exact le_update (hs.le t) le_rfl
  · exact hs.round_of_none rfl
  · show KeyHistory.live index st.shared.log ≠ none
    rw [hs.live index, KeySlot.live_of_inUse h]
    exact Option.some_ne_none _

theorem clean_kept (hs : Sound st) {f : Frame} (h : f.round = 0)
    (hidle : (st.own t).destroying = none) :
    Kept st t { st.shared with log := .round t :: .clean t :: st.shared.log }
      { st.own t with place := .cleanLoad f } := by
  refine ⟨.refl rfl, .inl rfl, hs.live, hs.held t, fun u _ => hs.held u, hs.le t, ?_, ?_,
    fun _ => hidle, ?_, trivial, hs.legal⟩
  · intro g hg
    rcases hg with hg | hg
    · obtain rfl := Option.some.inj hg
      simp [rounds, h]
    · rw [hidle] at hg
      cases hg
  · intro u hu
    simp only [rounds, if_neg (Ne.symm hu)]
  · simp [Event.Allowed, rounds, kBionicDestructorIterations]

theorem round_kept (hs : Sound st) {f g : Frame} (h : g.round = f.round + 1)
    (hround : g.round < kBionicDestructorIterations)
    (hf : (st.own t).place.frame = some f ∨ (st.own t).destroying = some f) :
    Kept st t { st.shared with log := .round t :: st.shared.log }
      { st.own t with place := .cleanLoad g, destroying := none } := by
  have hrounds := hs.round t f hf
  refine ⟨.refl rfl, .inl rfl, hs.live, hs.held t, fun u _ => hs.held u, hs.le t,
    ?_, ?_, fun _ => rfl, ?_,
    hs.legal⟩
  · intro g' hg
    rcases hg with hg | hg
    · obtain rfl := Option.some.inj hg
      simp only [rounds, if_true]
      omega
    · cases hg
  · intro u hu
    simp only [rounds, if_neg (Ne.symm hu)]
  · show rounds t st.shared.log < _
    omega

theorem destroy_kept (hs : Sound st) {f : Frame} {destructor : δ}
    (hf : (st.own t).place.frame = some f) (h : (st.shared.slots f.index).sequence % 2 = 1)
    (hd : (st.shared.slots f.index).destructor = some destructor)
    (hown : ((st.own t).values f.index).sequence = (st.shared.slots f.index).sequence)
    (hvalue : ((st.own t).values f.index).value ≠ none) :
    Kept st t { st.shared with
      log := .destroy t f.index ((st.own t).values f.index).value destructor :: st.shared.log }
      { place := .returned .ok
        values := Function.update (st.own t).values f.index
          { (st.own t).values f.index with value := none }
        destroying := some f } := by
  have hheld : held t f.index st.shared.log = ((st.own t).values f.index).value :=
    (hs.held t f.index).trans (holding_self h hown)
  refine ⟨.refl rfl, .inl rfl, hs.live, ?_, ?_, ?_, ?_, fun _ _ => rfl,
    fun hne => absurd rfl hne, ?_,
    hs.legal⟩
  · refine held_update (hs.held t) ?_ ?_
    · exact fun i hi => if_neg fun h => hi h.2.symm
    · refine Eq.trans ?_ (holding_self h ?_).symm
      · exact if_pos ⟨rfl, rfl⟩
      · exact hown
  · intro u hu i
    exact (if_neg fun h => hu h.1.symm).trans (hs.held u i)
  · exact le_update (hs.le t) (hs.le t f.index)
  · intro g hg
    rcases hg with hg | hg
    · cases hg
    · obtain rfl := Option.some.inj hg
      exact hs.round t f (.inl hf)
  · refine ⟨?_, hheld.symm, hvalue⟩
    rw [hs.live f.index, KeySlot.live_of_inUse h, hd]

theorem Effect.kept (he : Effect t st.shared (st.own t) s' th') (hs : Sound st) :
    Kept st t s' th' := by
  cases he with
  | go mutex place destroying hframe hapart =>
    refine ⟨.refl rfl, .inl rfl, hs.live, hs.held t, fun u _ => hs.held u, hs.le t, ?_,
      fun _ _ => rfl, hapart, hs.legal⟩
    intro f hf
    obtain ⟨g, hg, hround⟩ := hframe f hf
    rw [← hround]
    exact hs.round t g hg
  | storeDestructor index destructor place h hplace hin =>
    exact storeDestructor_kept hs h hplace hin
  | create index place h hplace hin => exact create_kept hs h hplace hin
  | delete index place h hplace hin => exact delete_kept hs h hplace hin
  | get index own outcome hseq hown => exact get_kept hs hseq hown
  | set index value h => exact set_kept hs h
  | clean f h hidle => exact clean_kept hs h hidle
  | round f g h hround hf => exact round_kept hs h hround hf
  | destroy f destructor hf h hd hown hvalue => exact destroy_kept hs hf h hd hown hvalue

theorem Locks.owned (h : Locks t st.shared (st.own t) s' th')
    (hs : Owned st.shared.mutex (fun t => (st.own t).place) Place.inside) :
    Owned s'.mutex (fun u => ((st.set t s' th').own u).place) Place.inside := by
  have hplaces : (fun u => ((st.set t s' th').own u).place) =
      Function.update (fun u => (st.own u).place) t th'.place := by
    funext u
    by_cases hu : u = t
    · subst hu
      rw [System.set_own_self, Function.update_self]
    · rw [System.set_own_of_ne hu, Function.update_of_ne hu]
  rw [hplaces]
  cases h with
  | same hm hin =>
    rw [hm]
    exact hs.move hin
  | take hm hm' hin =>
    rw [hm']
    exact hs.acquire hm hin
  | leave hin hm' hin' =>
    rw [hm']
    exact hs.release hin hin'

theorem initial_sound : Sound (⟨initial, fun _ => {}⟩ : State τ ν δ) := by
  have hreserved : ∀ i : Index, i = ⟨0, by decide⟩ ∨ i = ⟨1, by decide⟩ ∨ 2 ≤ i.val := by
    decide
  refine ⟨?_, ?_, ?_, ?_, fun _ => trivial, ?_, fun _ hne => absurd rfl hne, ?_⟩
  · intro u
    exact ⟨nofun, nofun⟩
  · intro i
    rcases hreserved i with rfl | rfl | hi
    · simp [initial, live, KeySlot.live, isInUse, kSequenceInUseBit]
    · simp [initial, live, KeySlot.live, isInUse, kSequenceInUseBit]
    · have hslot : (initial : Shared τ ν δ).slots i = {} := if_neg (by omega)
      show live i (initial : Shared τ ν δ).log = ((initial : Shared τ ν δ).slots i).live
      rw [hslot]
      have h₀ : (⟨0, by decide⟩ : Index) ≠ i :=
        fun h => absurd (congrArg Fin.val h) (by simp; omega)
      have h₁ : (⟨1, by decide⟩ : Index) ≠ i :=
        fun h => absurd (congrArg Fin.val h) (by simp; omega)
      simp [initial, live, h₀, h₁, KeySlot.live, isInUse]
  · intro u i
    have hnone : held u i (initial : Shared τ ν δ).log = none := by
      simp [initial, held]
    refine hnone.trans (Eq.symm ?_)
    unfold holding
    split <;> rfl
  · exact fun _ _ => Nat.zero_le _
  · intro u f hf
    rcases hf with hf | hf <;> cases hf
  · exact ⟨by simp [Event.Allowed, live], by simp [Event.Allowed, live], trivial⟩

theorem reachable_sound (h : (system τ ν δ).Reachable st) : Sound st := by
  refine h.invariant (I := Sound) ?_ ?_
  · rintro _ rfl
    exact initial_sound
  · rintro st ⟨t, a⟩ _ ⟨s', th', hact, rfl⟩ hs
    have hstep := act_stepped hact (hs.placed t) (hs.apart t)
    exact (hstep.effect.kept hs).sound hs (hstep.locks.owned hs.owned) hstep.placed

/-- In every run: two keys that are live together differ; `Get` returns what the thread last set
since the key was created, unless `Clean` has passed it on since, and nothing for a deleted key;
`Clean` passes on what the thread holds, never a null pointer, to the destructor the key was created
with, and between two values of a key the thread has set one; and it makes at most four rounds. -/
theorem history_sound (h : (system τ ν δ).Reachable st) :
    (∀ after mid before (i j : Index) d d',
      st.shared.log = after ++ .create j d' :: (mid ++ .create i d :: before) →
        Event.delete i ∉ mid → encodeKey j ≠ encodeKey i) ∧
    (∀ after before t i result, st.shared.log = after ++ .get t i result :: before →
      result = held t i before ∧ (live i before = none → result = none)) ∧
    (∀ after before t i value d, st.shared.log = after ++ .destroy t i value d :: before →
      value = held t i before ∧ value ≠ none ∧ live i before = some (some d)) ∧
    (∀ after mid before t i value value' d d',
      st.shared.log = after ++ .destroy t i value' d' :: (mid ++ .destroy t i value d :: before) →
        ∃ v, Event.set t i v ∈ mid) ∧
    ∀ t, rounds t st.shared.log ≤ 4 := by
  have hs := (reachable_sound h).legal
  refine ⟨?_, ?_, ?_, ?_, fun t => hs.rounds_le⟩
  · intro after mid before i j d d' hlog hlive heq
    rw [hlog] at hs
    exact hs.create_ne hlive (encodeKey_injective heq)
  · intro after before t i result hlog
    rw [hlog] at hs
    have hresult : result = held t i before := hs.allowed
    exact ⟨hresult, fun hnot => hresult.trans (hs.suffix.2.held_of_not_live hnot)⟩
  · intro after before t i value d hlog
    rw [hlog] at hs
    obtain ⟨hlive, hvalue, hne⟩ := hs.allowed
    exact ⟨hvalue, hne, hlive⟩
  · intro after mid before t i value value' d d' hlog
    rw [hlog] at hs
    exact hs.set_between

/-- A thread that exits, and whose destructor looks at its key, from the creation of the key on. -/
def exitRun : List (Unit × Act Nat Nat) :=
  [.call (.create true (some 7)), .access, .access, .access, .access, .access, .access, .access,
    .call (.set (encodeKey ⟨2, by decide⟩) (some 5)), .access,
    .call .clean, .access, .access, .access, .access, .access,
    .call (.get (encodeKey ⟨2, by decide⟩)), .access].map ((), ·)

/-- What `Get` returned in that run. -/
theorem history_sound_exit : ∃ (st : State Unit Nat Nat) (before : _) (i : Index),
    st.shared.log = .get () i none :: before ∧ none = held () i before ∧
      rounds () st.shared.log ≤ 4 := by
  have hrun : ∃ st, exitRun.foldlM (next act) ⟨initial, fun _ => {}⟩ = some st ∧
      ∃ before, st.shared.log = .get () ⟨2, by decide⟩ none :: before := ⟨_, rfl, _, rfl⟩
  obtain ⟨st, hst, before, hlog⟩ := hrun
  obtain ⟨-, hget, -, -, hrounds⟩ := history_sound (reachable_of_foldlM hst)
  exact ⟨st, before, _, hlog, (hget [] before () _ none hlog).1, hrounds ()⟩

/-- In a destructor the key of the value passed to it reads as a null pointer. -/
theorem get_in_destructor : ∃ (st : State Unit Nat Nat) (before : _) (i : Index),
    (system Unit Nat Nat).Reachable st ∧ st.shared.log = .get () i none :: before ∧
      live i before = some (some 7) ∧ lastSet () i before = some 5 := by
  have hrun : ∃ st, exitRun.foldlM (next act) ⟨initial, fun _ => {}⟩ = some st ∧
      ∃ before, st.shared.log = .get () ⟨2, by decide⟩ none :: before ∧
        live ⟨2, by decide⟩ before = some (some 7) ∧
        lastSet () ⟨2, by decide⟩ before = some 5 := ⟨_, rfl, _, rfl, rfl, rfl⟩
  obtain ⟨st, hst, before, hlog, hlive, hset⟩ := hrun
  exact ⟨st, before, _, reachable_of_foldlM hst, hlog, hlive, hset⟩

end Nightcap.Compat.PthreadKey
