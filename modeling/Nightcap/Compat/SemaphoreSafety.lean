import Nightcap.Compat.Semaphore

/-! The semaphore counts its waits and posts and loses no wake-up, as long as no count reaches
`2 ^ 30`. -/
namespace Nightcap.Compat.Semaphore

open Transition Threads

/-! The word. -/

section Words

variable {x : Word}

theorem semValue_eq : semValue x = x.toInt / 2 := by
  rw [semValue, BitVec.toInt_sshiftRight, Int.shiftRight_eq_div_pow]
  rfl

/-- The lowest bit is not part of the count. -/
theorem semValue_masked : semValue (x &&& kSemValueMask) = semValue x := by
  have hbits : (x &&& kSemValueMask).sshiftRight kSemValueShift = x.sshiftRight kSemValueShift := by
    ext i hi
    rw [kSemValueMask, kSemValueShift, BitVec.getElem_sshiftRight, BitVec.getElem_sshiftRight]
    interval_cases i <;> simp
    exact fun _ => rfl
  rw [semValue, hbits, semValue]

theorem semValue_dec (h : 0 ≤ semValue x) :
    semValue ((x - kSemOne) &&& kSemValueMask) = semValue x - 1 := by
  have hone : kSemOne.toNat = 2 := by decide
  have := x.isLt
  rw [semValue_masked, semValue_eq, semValue_eq] at *
  rw [BitVec.toInt_eq_toNat_cond, BitVec.toNat_sub, hone]
  rw [BitVec.toInt_eq_toNat_cond] at *
  split at h <;> split <;> omega

theorem semValue_inc (h : 0 ≤ semValue x) (hne : semValue x ≠ 2 ^ 30 - 1) :
    semValue ((x + kSemOne) &&& kSemValueMask) = semValue x + 1 := by
  have hone : kSemOne.toNat = 2 := by decide
  have := x.isLt
  rw [semValue_masked, semValue_eq, semValue_eq] at *
  rw [BitVec.toInt_eq_toNat_cond, BitVec.toNat_add, hone]
  rw [BitVec.toInt_eq_toNat_cond] at *
  split at h <;> split <;> omega

/-- One more than the largest count is the smallest one. -/
theorem semValue_wraps (h : semValue x = 2 ^ 30 - 1) :
    semValue ((x + kSemOne) &&& kSemValueMask) = -2 ^ 30 := by
  have hone : kSemOne.toNat = 2 := by decide
  have := x.isLt
  rw [semValue_masked, semValue_eq] at *
  rw [BitVec.toInt_eq_toNat_cond, BitVec.toNat_add, hone]
  rw [BitVec.toInt_eq_toNat_cond] at h
  split at h <;> split <;> omega

theorem semValue_encode (h : x.toNat ≤ semValueMax) :
    semValue (semEncode x) = if x.toNat < 2 ^ 30 then (x.toNat : Int) else x.toNat - 2 ^ 31 := by
  rw [semEncode, semValue_masked, semValue_eq, BitVec.toInt_eq_toNat_cond, BitVec.toNat_shiftLeft]
  simp only [semValueMax, kSemValueShift, Nat.shiftLeft_eq] at *
  split <;> split <;> omega

theorem semInit_some {count : Word} (h : semInit false x = some count) :
    x.toNat ≤ semValueMax ∧ count = semEncode x := by
  simp only [semInit, Bool.false_eq_true, if_false] at h
  split at h
  · cases h
  · next hle => exact ⟨Nat.le_of_not_lt hle, (Option.some.inj h).symm⟩

end Words

variable {τ : Type*} {st : State τ} {t : τ} {s' : Shared τ} {p' : Place} {value : Nat}
  {x count oldValue : Word} {disturbed : Bool}

theorem afterDec_exchange (h : afterDec x = .waitExchange oldValue) : 0 ≤ semValue oldValue := by
  unfold afterDec at h
  split at h
  · cases h
  · next hle =>
    cases h
    exact Int.not_lt.1 hle

/-- The invariant: the count is what is left, or minus one over nothing, and sleepers slept over
that or are about to be woken. -/
structure Sound (value : Nat) (st : State τ) : Prop where
  counted : 0 ≤ semValue st.shared.count ∧
      semValue st.shared.count + st.shared.waits = value + st.shared.posts ∨
    semValue st.shared.count = -1 ∧ st.shared.waits = value + st.shared.posts
  placed : ∀ t oldValue, st.own t = .waitExchange oldValue → 0 ≤ semValue oldValue
  woken : st.shared.sleepers ≠ [] → semValue st.shared.count = -1 ∨ ∃ t, st.own t = .postWake

theorem Sound.safe (h : Sound value st) : Safe value st := by
  refine ⟨?_, ?_, fun hpos hsleep => ?_⟩
  · rcases h.counted with ⟨hle, heq⟩ | ⟨-, heq⟩ <;> omega
  · rcases h.counted with ⟨-, heq⟩ | hnone
    · exact .inl heq
    · exact .inr hnone
  · rcases h.woken hsleep with hminus | hwake
    · omega
    · exact hwake

theorem fresh_sound (hinit : semInit false x = some count) (hlt : x.toNat < 2 ^ 30) :
    Sound x.toNat (fresh count : State τ) := by
  obtain ⟨hle, rfl⟩ := semInit_some hinit
  have hvalue := semValue_encode hle
  rw [if_pos hlt] at hvalue
  refine ⟨.inl ⟨?_, ?_⟩, nofun, fun hne => absurd rfl hne⟩
  · rw [fresh, hvalue]
    omega
  · rw [fresh, hvalue]

variable [DecidableEq τ]

theorem exists_wake (ht : st.own t ≠ .postWake) (h : ∃ u, st.own u = .postWake) :
    ∃ u, (st.set t s' p').own u = .postWake := by
  obtain ⟨u, hu⟩ := h
  refine ⟨u, ?_⟩
  rw [System.set_own_of_ne]
  · exact hu
  · rintro rfl
    exact ht hu

theorem Sound.placed_set (h : Sound value st)
    (hplaced : ∀ oldValue, p' = .waitExchange oldValue → 0 ≤ semValue oldValue)
    (u : τ) (oldValue : Word)
    (hu : (st.set t s' p').own u = .waitExchange oldValue) : 0 ≤ semValue oldValue := by
  by_cases heq : u = t
  · subst heq
    rw [System.set_own_self] at hu
    exact hplaced oldValue hu
  · rw [System.set_own_of_ne heq] at hu
    exact h.placed u oldValue hu

/-- A step that leaves the word alone. -/
theorem Sound.move (h : Sound value st) (hcount : s'.count = st.shared.count)
    (hwaits : s'.waits = st.shared.waits) (hposts : s'.posts = st.shared.posts)
    (hsleep : s'.sleepers ≠ [] → st.shared.sleepers ≠ [] ∨ semValue st.shared.count = -1)
    (hplaced : ∀ oldValue, p' = .waitExchange oldValue → 0 ≤ semValue oldValue)
    (hwake : st.own t = .postWake → s'.sleepers = []) : Sound value (st.set t s' p') := by
  refine ⟨?_, h.placed_set hplaced, fun hne => ?_⟩
  · rw [System.set_shared, hcount, hwaits, hposts]
    exact h.counted
  · rw [System.set_shared] at hne ⊢
    rw [hcount]
    rcases hsleep hne with hold | hminus
    · rcases h.woken hold with hminus | hany
      · exact .inl hminus
      · exact .inr (exists_wake (fun hw => hne (hwake hw)) hany)
    · exact .inl hminus

/-- The exchange of a wait takes one, or leaves minus one where there was nothing. -/
theorem Sound.dec (h : Sound value st) (hp : st.own t = .waitExchange st.shared.count)
    (hcount : s'.count = (st.shared.count - kSemOne) &&& kSemValueMask)
    (hwaits : s'.waits = if semValue st.shared.count > 0 then st.shared.waits + 1
      else st.shared.waits)
    (hposts : s'.posts = st.shared.posts) (hsleep : s'.sleepers = st.shared.sleepers)
    (hplaced : ∀ oldValue, p' = .waitExchange oldValue → 0 ≤ semValue oldValue) :
    Sound value (st.set t s' p') := by
  have hle := h.placed t _ hp
  have hvalue : semValue s'.count = semValue st.shared.count - 1 := by rw [hcount, semValue_dec hle]
  refine ⟨?_, h.placed_set hplaced, fun hne => ?_⟩
  · rw [System.set_shared, hvalue, hwaits, hposts]
    rcases h.counted with ⟨-, heq⟩ | ⟨hminus, -⟩
    · split
      · left
        constructor <;> omega
      · right
        constructor <;> omega
    · omega
  · rw [System.set_shared, hsleep] at hne
    rcases h.woken hne with hminus | hany
    · omega
    · exact .inr (exists_wake (by rw [hp]; exact nofun) hany)

/-- The exchange of a post adds one, to nothing if there was less, and is followed by a wake
then. -/
theorem Sound.inc (h : Sound value st) (hp : st.own t ≠ .postWake)
    (hcount : s'.count = if semValue st.shared.count < 0 then kSemOne
      else (st.shared.count + kSemOne) &&& kSemValueMask)
    (hroom : semValue st.shared.count ≠ 2 ^ 30 - 1)
    (hwaits : s'.waits = st.shared.waits) (hposts : s'.posts = st.shared.posts + 1)
    (hsleep : s'.sleepers = st.shared.sleepers)
    (hnext : p' = if semValue st.shared.count < 0 then .postWake else .returned .ok) :
    Sound value (st.set t s' p') ∧ semValue s'.count = max (semValue st.shared.count) 0 + 1 := by
  have hvalue : semValue s'.count = max (semValue st.shared.count) 0 + 1 := by
    rw [hcount]
    split
    · next hlt =>
      have hone : semValue kSemOne = 1 := by decide
      omega
    · next hge =>
      rw [semValue_inc (Int.not_lt.1 hge) hroom]
      omega
  refine ⟨⟨?_, h.placed_set ?_, fun hne => ?_⟩, hvalue⟩
  · rw [System.set_shared, hvalue, hwaits, hposts]
    rcases h.counted with ⟨hle, heq⟩ | ⟨hminus, heq⟩
    · left
      constructor <;> omega
    · left
      constructor <;> omega
  · intro oldValue heq
    rw [hnext] at heq
    split at heq <;> cases heq
  · rw [System.set_shared, hsleep] at hne
    right
    rcases h.woken hne with hminus | hany
    · refine ⟨t, ?_⟩
      rw [System.set_own_self, hnext, if_pos]
      omega
    · exact exists_wake hp hany

theorem afterInc_cases : afterInc x = .returned .EOVERFLOW ∨ afterInc x = .postExchange x := by
  unfold afterInc
  split
  · exact .inl rfl
  · exact .inr rfl

/-- A post reads the word, and is to exchange it or refuses. -/
theorem Sound.reload (h : Sound value st) (hwake : st.own t ≠ .postWake) (a : Act) :
    Sound value (st.set t st.shared (afterInc st.shared.count)) ∧
      PostsOne st (t, a) (st.set t st.shared (afterInc st.shared.count)) := by
  constructor
  · refine h.move rfl rfl rfl .inl (fun old heq => ?_) fun hw => absurd hw hwake
    rcases @afterInc_cases st.shared.count with hnext | hnext <;> cases hnext.symm.trans heq
  · refine fun _ => .inr ⟨?_, rfl⟩
    rw [System.set_own_self]
    rcases @afterInc_cases st.shared.count with hnext | hnext <;> rw [hnext]
    · exact .inl rfl
    · exact .inr (.inr ⟨_, rfl⟩)

/-- A step keeps the invariant, and a step of a post adds one or leaves the word alone. -/
theorem access_sound (h : Sound value st)
    (hact : access t st.shared (st.own t) disturbed = some (s', p'))
    (hroom : Room st (t, .access disturbed)) :
    Sound value (st.set t s' p') ∧ PostsOne st (t, .access disturbed) (st.set t s' p') := by
  cases hp : st.own t with
  | returned result =>
    rw [hp] at hact
    cases hact
  | waitLoad =>
    rw [hp] at hact
    cases hact
    refine ⟨h.move rfl rfl rfl .inl (fun _ => afterDec_exchange) (by simp [hp]), ?_⟩
    rintro (hpost | ⟨_, hpost⟩) <;> cases hp.symm.trans hpost
  | waitExchange oldValue =>
    rw [hp] at hact
    refine ⟨?_, by rintro (hpost | ⟨_, hpost⟩) <;> cases hp.symm.trans hpost⟩
    simp only [access] at hact
    split at hact
    · next hok =>
      obtain ⟨rfl, -⟩ := hok
      split at hact
      · next hpos =>
        cases hact
        exact h.dec hp rfl (if_pos hpos).symm rfl rfl nofun
      · next hzero =>
        cases hact
        exact h.dec hp rfl (if_neg hzero).symm rfl rfl nofun
    · cases hact
      exact h.move rfl rfl rfl .inl (fun _ => afterDec_exchange) (by simp [hp])
  | waitFutex =>
    rw [hp] at hact
    refine ⟨?_, by rintro (hpost | ⟨_, hpost⟩) <;> cases hp.symm.trans hpost⟩
    simp only [access] at hact
    split at hact
    · next hminus =>
      cases hact
      refine h.move rfl rfl rfl (fun _ => .inr ?_) nofun (by simp [hp])
      rw [hminus]
      decide
    · cases hact
      exact h.move rfl rfl rfl .inl nofun (by simp [hp])
  | waitAsleep =>
    rw [hp] at hact
    refine ⟨?_, by rintro (hpost | ⟨_, hpost⟩) <;> cases hp.symm.trans hpost⟩
    simp only [access] at hact
    split at hact
    · next hin =>
      split at hact <;> cases hact
      exact h.move rfl rfl rfl (fun _ => .inl (List.ne_nil_of_mem hin)) nofun (by simp [hp])
    · cases hact
      exact h.move rfl rfl rfl .inl nofun (by simp [hp])
  | postLoad =>
    rw [hp] at hact
    cases hact
    exact h.reload (by rw [hp]; exact nofun) _
  | postExchange oldValue =>
    rw [hp] at hact
    simp only [access] at hact
    split at hact
    · next hok =>
      obtain ⟨rfl, hcalm⟩ := hok
      rw [Bool.not_eq_true] at hcalm
      subst hcalm
      cases hact
      refine And.imp_right (fun hvalue _ => .inl ⟨?_, hvalue⟩)
        (h.inc (by rw [hp]; exact nofun) rfl (hroom _ hp rfl rfl) rfl rfl rfl rfl)
      rw [System.set_own_self]
      split
      · exact .inr rfl
      · exact .inl rfl
    · cases hact
      exact h.reload (by rw [hp]; exact nofun) _
  | postWake =>
    rw [hp] at hact
    cases hact
    refine ⟨h.move rfl rfl rfl (fun hne => absurd rfl hne) nofun fun _ => rfl, ?_⟩
    rintro (hpost | ⟨_, hpost⟩) <;> cases hp.symm.trans hpost

theorem sound_step {a : τ × Act} {st' : State τ} (h : Sound value st)
    (hstep : (system count).step st a st')
    (hroom : Room st a) : Sound value st' ∧ PostsOne st a st' := by
  obtain ⟨t, a⟩ := a
  obtain ⟨s', p', hact, rfl⟩ := hstep
  cases a with
  | call operation =>
    simp only [act] at hact
    split at hact
    · next result hp =>
      cases hact
      refine ⟨h.move rfl rfl rfl .inl (fun _ => by cases operation <;> exact nofun) ?_, ?_⟩
      · exact fun hw => by cases hp.symm.trans hw
      · rintro (hpost | ⟨_, hpost⟩) <;> cases hp.symm.trans hpost
    · cases hact
  | access disturbed => exact access_sound h hact hroom

/-- The exchange that has no room leaves the smallest count there is. -/
theorem breaks_step {a : τ × Act} {st' : State τ} (hstep : (system count).step st a st')
    (hroom : ¬ Room st a) : ¬ Safe value st' := by
  obtain ⟨t, a⟩ := a
  obtain ⟨s', p', hact, rfl⟩ := hstep
  simp only [Room, not_forall, ne_eq, not_not] at hroom
  obtain ⟨oldValue, hp, rfl, heq, hmax⟩ := hroom
  simp only [act, hp, access] at hact
  rw [if_pos ⟨heq, by decide⟩] at hact
  cases hact
  intro hsafe
  have hwrap := semValue_wraps hmax
  have hge : ¬ semValue oldValue < 0 := by omega
  have hcounted := hsafe.counted
  have hwaited := hsafe.waited
  simp only [System.set_shared, if_neg hge, hwrap] at hcounted hwaited
  rcases hcounted with hcounted | ⟨hminus, -⟩ <;> omega

theorem restricted_sound (hinit : semInit false x = some count) (hlt : x.toNat < 2 ^ 30)
    (h : ((system count).restrict Room).Reachable st) : Sound x.toNat st := by
  refine h.invariant (I := Sound x.toNat) ?_ ?_
  · rintro _ rfl
    exact fresh_sound hinit hlt
  · rintro st a st' ⟨hstep, hroom⟩ hs
    exact (sound_step hs hstep hroom).1

/-- What `sem_init` stores is the value it was given exactly below `2 ^ 30`. From there on, as long
as no post finds the largest count, everything holds in every state and step; the post that does
breaks it. -/
theorem counts_iff (hinit : semInit false x = some count) :
    (Safe x.toNat (fresh count : State τ) ↔ x.toNat < 2 ^ 30) ∧
    (x.toNat < 2 ^ 30 → ∀ st : State τ, ((system count).restrict Room).Reachable st →
      Safe x.toNat st ∧ ∀ a st', (system count).step st a st' →
        (Safe x.toNat st' ∧ PostsOne st a st' ↔ Room st a)) := by
  refine ⟨⟨fun hsafe => ?_, fun hlt => (fresh_sound hinit hlt).safe⟩, fun hlt st hst => ?_⟩
  · obtain ⟨hle, rfl⟩ := semInit_some hinit
    have hvalue := semValue_encode hle
    by_contra hge
    rw [if_neg hge] at hvalue
    have hcounted := hsafe.counted
    simp only [fresh, hvalue, semValueMax] at hcounted hle
    rcases hcounted with hcounted | ⟨hminus, hnone⟩ <;> omega
  · have hs := restricted_sound hinit hlt hst
    refine ⟨hs.safe, fun a st' hstep => ⟨fun hgood => ?_, fun hroom => ?_⟩⟩
    · by_contra hnot
      exact breaks_step hstep hnot hgood.1
    · obtain ⟨hsound, hpost⟩ := sound_step hs hstep hroom
      exact ⟨hsound.safe, hpost⟩

instance (st : State τ) (a : τ × Act) : Decidable (Room st a) :=
  match hp : st.own a.1 with
  | .postExchange oldValue =>
    decidable_of_iff
      (a.2 = .access false → st.shared.count = oldValue → semValue oldValue ≠ 2 ^ 30 - 1)
      ⟨fun h _ ho => by cases hp.symm.trans ho; exact h, fun h => h oldValue hp⟩
  | .returned _ | .waitLoad | .waitExchange _ | .waitFutex | .waitAsleep | .postLoad | .postWake =>
    isTrue fun _ ho => by cases hp.symm.trans ho

/-- A thread takes the one there is and sleeps over the next, and another thread is about to
post. -/
def waitAndPost : List (Fin 2 × Act) :=
  [(0, .call .wait), (0, .access false), (0, .access false), (0, .call .wait), (0, .access false),
    (0, .access false), (0, .access false), (1, .call .post), (1, .access false)]

/-- The post at the end of that run. -/
theorem counts_iff_posted : ∃ st st' : State (Fin 2),
    ((system (semEncode 1)).restrict Room).Reachable st ∧ st.shared.waits = 1 ∧
      st.shared.sleepers = [0] ∧ Safe 1 st ∧
      (system (semEncode 1)).step st (1, .access false) st' ∧ st'.shared.posts = 1 ∧ Safe 1 st' ∧
        PostsOne st (1, .access false) st' := by
  have hrun : ∃ st : State (Fin 2), waitAndPost.foldlM (nextIf act Room)
      (fresh (semEncode 1)) = some st ∧
      st.shared.waits = 1 ∧ st.shared.sleepers = [0] ∧ Room st (1, .access false) ∧
        ∃ s' place', act 1 st.shared (st.own 1) (.access false) = some (s', place') ∧
          s'.posts = 1 :=
    ⟨_, rfl, rfl, rfl, by decide, _, _, rfl, rfl⟩
  obtain ⟨st, hst, hwaits, hsleepers, hroom, s', place', hact, hposts⟩ := hrun
  have hreach := reachable_of_nextIf hst
  have hinit : semInit false 1 = some (semEncode 1) := rfl
  obtain ⟨hsafe, hstep⟩ := (counts_iff hinit).2 (by decide) st hreach
  have hpost := (hstep (1, .access false) _ ⟨s', place', hact, rfl⟩).2 hroom
  exact ⟨st, _, hreach, hwaits, hsleepers, hsafe, ⟨s', place', hact, rfl⟩, hposts, hpost.1, hpost.2⟩

/-- A post to a semaphore of `2 ^ 30 - 1`, which `sem_init` accepts, succeeds and makes the count
negative. -/
theorem post_wraps : semInit false (2 ^ 30 - 1) = some (semEncode (2 ^ 30 - 1)) ∧
    ∃ st : State Unit, (system (semEncode (2 ^ 30 - 1))).Reachable st ∧
      st.own () = .returned .ok ∧ st.shared.posts = 1 ∧ st.shared.waits = 0 ∧
        semValue st.shared.count = -2 ^ 30 ∧ ¬ Safe (2 ^ 30 - 1) st := by
  refine ⟨rfl, ?_⟩
  have hrun : ∃ st : State Unit,
      [((), Act.call .post), ((), .access false), ((), .access false)].foldlM
      (next act) (fresh (semEncode (2 ^ 30 - 1))) = some st ∧ st.own () = .returned .ok ∧
        st.shared.posts = 1 ∧ st.shared.waits = 0 ∧ semValue st.shared.count = -2 ^ 30 :=
    ⟨_, rfl, rfl, rfl, rfl, by decide⟩
  obtain ⟨st, hst, hown, hposts, hwaits, hvalue⟩ := hrun
  refine ⟨st, reachable_of_foldlM hst, hown, hposts, hwaits, hvalue, fun hsafe => ?_⟩
  have hcounted := hsafe.counted
  rw [hposts, hwaits, hvalue] at hcounted
  omega

end Nightcap.Compat.Semaphore
