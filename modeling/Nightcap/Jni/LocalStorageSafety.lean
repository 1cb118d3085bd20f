import Nightcap.Jni.LocalStorage
import Nightcap.Jni.RoundTrip

/-! The users of the local storage do not see each other's values, and what the storage keeps about
them. -/
namespace Nightcap.Jni

open Utf8 Ascii TaggedStore Transition

variable {b : UInt8} {m n : Int64} {key value list rest : Bytes} {i user : UserId}
  {count : Nat} {k : Bytes}
  {string text other : List JChar}

/-! The text of a number. -/

theorem mem_ofNat (h : b ∈ ofNat count) : 48 ≤ b.toNat ∧ b.toNat ≤ 57 := by
  obtain ⟨c, hc, rfl⟩ := List.mem_map.1 h
  have hd : c.isDigit := Nat.isDigit_of_mem_toDigits (by omega) le_rfl hc
  rw [toNat_chr hd]
  simp only [Char.isDigit, Bool.and_eq_true, decide_eq_true_eq] at hd
  exact ⟨UInt32.le_iff_toNat_le.1 hd.1, UInt32.le_iff_toNat_le.1 hd.2⟩

theorem mem_toStringBytes (h : b ∈ toStringBytes n) :
    b.toNat = 45 ∨ 48 ≤ b.toNat ∧ b.toNat ≤ 57 := by
  unfold toStringBytes at h
  split at h
  · rcases List.mem_cons.1 h with rfl | h
    · exact .inl rfl
    · exact .inr (mem_ofNat h)
  · exact .inr (mem_ofNat h)

theorem toStringBytes_ne_nil : toStringBytes n ≠ [] := by
  unfold toStringBytes
  split
  · exact List.cons_ne_nil _ _
  · exact ofNat_ne_nil _

theorem comma_notMem : (44 : UInt8) ∉ toStringBytes n := by
  intro h
  have hb : (44 : UInt8).toNat = 44 := rfl
  have hmem := mem_toStringBytes h
  omega

theorem underscore_notMem : (95 : UInt8) ∉ toStringBytes n := by
  intro h
  have hb : (95 : UInt8).toNat = 95 := rfl
  have hmem := mem_toStringBytes h
  omega

theorem minus_cons_ne : 45 :: ofNat count ≠ ofNat m.toInt.natAbs := by
  intro h
  have hmem : (45 : UInt8) ∈ ofNat m.toInt.natAbs := h ▸ List.mem_cons_self
  have hb : (45 : UInt8).toNat = 45 := rfl
  have hdigit := mem_ofNat hmem
  omega

theorem toStringBytes_injective : Function.Injective toStringBytes := by
  intro m n h
  apply Int64.toInt_inj.1
  unfold toStringBytes at h
  split at h
  · rename_i hm
    split at h
    · rename_i hn
      have habs := ofNat_injective (List.cons_injective h)
      have hm' := Int64.lt_iff_toInt_lt.1 hm
      have hn' := Int64.lt_iff_toInt_lt.1 hn
      have hzero : (0 : Int64).toInt = 0 := rfl
      omega
    · exact absurd h minus_cons_ne
  · rename_i hm
    split at h
    · exact absurd h.symm minus_cons_ne
    · rename_i hn
      have habs := ofNat_injective h
      have hm' := mt Int64.lt_iff_toInt_lt.2 hm
      have hn' := mt Int64.lt_iff_toInt_lt.2 hn
      have hzero : (0 : Int64).toInt = 0 := rfl
      omega

/-! Every user's keys begin with the number and an underscore. -/

theorem takeWhile_tag : (toStringBytes n ++ [95] ++ rest).takeWhile (· ≠ 95) = toStringBytes n := by
  rw [List.append_assoc, List.takeWhile_append_of_pos]
  · simp
  · intro b hb
    have hne : b ≠ 95 := fun h => underscore_notMem (h ▸ hb)
    simpa using hne

def userTags : Tags UserId UInt8 where
  tag user := toStringBytes user ++ [95]
  apart := by
    intro i j xs ys h
    apply toStringBytes_injective
    have htake := congrArg (List.takeWhile (· ≠ 95)) h
    rwa [takeWhile_tag, takeWhile_tag] at htake

/-- An integer and an underscore. -/
def beginsWithInteger (key : Bytes) : Bool :=
  let digits := if key.head? == some 45 then key.drop 1 else key
  let rest := digits.dropWhile isDigit
  rest.length < digits.length && rest.head? == some 95

theorem dropWhile_ofNat : (ofNat count ++ [95] ++ rest).dropWhile isDigit = 95 :: rest := by
  rw [List.append_assoc, List.dropWhile_append_of_pos]
  · rfl
  · intro b hb
    have hdigit := mem_ofNat hb
    simp only [isDigit, Bool.and_eq_true, decide_eq_true_eq, UInt8.le_iff_toNat_le]
    exact hdigit

theorem head_ofNat : ((ofNat count ++ [95] ++ rest).head? == some 45) = false := by
  obtain ⟨d, digits, hdigits⟩ := List.exists_cons_of_ne_nil (ofNat_ne_nil count)
  have hmem : d ∈ ofNat count := hdigits ▸ List.mem_cons_self
  have hb : (45 : UInt8).toNat = 45 := rfl
  have hne : d ≠ 45 := by
    rintro rfl
    have hdigit := mem_ofNat hmem
    omega
  simp [hdigits, hne]

theorem length_tag : rest.length + 1 < (ofNat count ++ [95] ++ rest).length := by
  have hpos := List.length_pos_of_ne_nil (ofNat_ne_nil count)
  simp only [List.length_append, List.length_singleton]
  omega

theorem beginsWithInteger_tag : beginsWithInteger (toStringBytes n ++ [95] ++ rest) = true := by
  unfold beginsWithInteger toStringBytes
  split
  · have hhead : ((45 :: ofNat n.toInt.natAbs ++ [95] ++ rest).head? == some 45) = true := rfl
    have hdrop : (45 :: ofNat n.toInt.natAbs ++ [95] ++ rest).drop 1 =
        ofNat n.toInt.natAbs ++ [95] ++ rest := rfl
    simp only [hhead, if_true, hdrop]
    rw [dropWhile_ofNat, List.length_cons, decide_eq_true length_tag]
    rfl
  · simp only [head_ofNat, Bool.false_eq_true, if_false]
    rw [dropWhile_ofNat, List.length_cons, decide_eq_true length_tag]
    rfl

theorem untagged_of_global (h : beginsWithInteger key = false) : Untagged userTags key := by
  rintro user ⟨rest, rfl⟩
  exact Bool.false_ne_true (h.symm.trans beginsWithInteger_tag)

theorem untagged_kUsers : Untagged userTags kUsers := untagged_of_global (by decide)

theorem untagged_kCurrentUser : Untagged userTags kCurrentUser := untagged_of_global (by decide)

/-! The comma list of the users. -/

theorem commaListContains_intercalate {items : List Bytes}
    (hcomma : ∀ item ∈ items, (44 : UInt8) ∉ item)
    (hne : items ≠ []) :
    commaListContains ([44].intercalate items) value = items.contains value := by
  rw [commaListContains, List.splitOn_intercalate 44 hcomma hne]

theorem intercalate_ne_nil {items : List Bytes} (hitems : ∀ item ∈ items, item ≠ [])
    (hne : items ≠ []) :
    ([44] : Bytes).intercalate items ≠ [] := by
  cases items with
  | nil => exact absurd rfl hne
  | cons item items =>
    have hitem := hitems item List.mem_cons_self
    cases items with
    | nil => rwa [List.intercalate_singleton]
    | cons next items =>
      rw [List.intercalate_cons_cons]
      simp [hitem]

theorem intercalate_append_singleton {items : List Bytes} (hne : items ≠ []) :
    ([44] : Bytes).intercalate (items ++ [value]) = [44].intercalate items ++ [44] ++ value := by
  induction items with
  | nil => exact absurd rfl hne
  | cons item items ih =>
    cases items with
    | nil => simp [List.intercalate_cons_cons]
    | cons next items =>
      have hnext := ih (List.cons_ne_nil _ _)
      rw [List.cons_append, List.cons_append, List.intercalate_cons_cons, ← List.cons_append, hnext,
        List.intercalate_cons_cons]
      simp only [List.append_assoc]

/-- A new value goes behind the others. -/
theorem appendCommaListValue_new {items : List Bytes} (hcomma : ∀ item ∈ items, (44 : UInt8) ∉ item)
    (hitems : ∀ item ∈ items, item ≠ []) (hvalue : value ≠ []) (hnew : value ∉ items) :
    appendCommaListValue ([44].intercalate items) value = [44].intercalate (items ++ [value]) := by
  have hempty : value.isEmpty = false := by
    rw [List.isEmpty_eq_false_iff]
    exact hvalue
  cases items with
  | nil =>
    rw [List.nil_append, List.intercalate_singleton, List.intercalate_nil,
      appendCommaListValue, hempty, Bool.false_or,
      if_neg]
    · rfl
    · simpa [commaListContains] using hvalue
  | cons item items =>
    have hne : item :: items ≠ [] := List.cons_ne_nil _ _
    have hcontains : commaListContains ([44].intercalate (item :: items)) value = false := by
      rw [commaListContains_intercalate hcomma hne]
      simpa using hnew
    have hlist : ([44].intercalate (item :: items)).isEmpty = false := by
      rw [List.isEmpty_eq_false_iff]
      exact intercalate_ne_nil hitems hne
    rw [appendCommaListValue, hempty, hcontains, hlist, intercalate_append_singleton hne]
    rfl

/-- The list of numbers as the refresh makes it. -/
theorem foldl_appendCommaListValue (before : List UserId) {users : List UserId}
    (hnodup : (before ++ users).Nodup) :
    (users.map toStringBytes).foldl appendCommaListValue
    ([44].intercalate (before.map toStringBytes)) =
      [44].intercalate ((before ++ users).map toStringBytes) := by
  induction users generalizing before with
  | nil => rw [List.append_nil]; rfl
  | cons user users ih =>
    rw [List.map_cons, List.foldl_cons, appendCommaListValue_new]
    · have hsplit : before ++ user :: users = before ++ [user] ++ users := by simp
      rw [hsplit] at hnodup ⊢
      have hmap : before.map toStringBytes ++ [toStringBytes user] =
          (before ++ [user]).map toStringBytes := by simp
      rw [hmap]
      exact ih _ hnodup
    · intro item hitem
      obtain ⟨n, -, rfl⟩ := List.mem_map.1 hitem
      exact comma_notMem
    · intro item hitem
      obtain ⟨n, -, rfl⟩ := List.mem_map.1 hitem
      exact toStringBytes_ne_nil
    · exact toStringBytes_ne_nil
    · intro hmem
      have huser : user ∈ before := (List.mem_map_of_injective toStringBytes_injective).1 hmem
      exact (List.disjoint_of_nodup_append hnodup) huser List.mem_cons_self

/-- The numbers of the users in some order, with commas between them. -/
def ListsUsers (users : List UserId) (list : Bytes) : Prop :=
  ∃ order : List UserId, order.Perm users ∧ list = [44].intercalate (order.map toStringBytes)

variable {environment : Environment} {iteration : Iteration} {s t : LocalStorage}
  {a : Accounts} {c : Call}

theorem listsUsers_refresh (iteration : Iteration) (hnodup : s.users.Nodup) :
    ∃ list, ListsUsers s.users list ∧
      refreshLocalStorageUsersValueLocked iteration s =
        { s with values := put s.values kUsers list } := by
  have hperm := iteration.perm s.users
  refine ⟨_, ⟨_, hperm, rfl⟩, ?_⟩
  have hlist := foldl_appendCommaListValue [] (hperm.nodup_iff.2 hnodup)
  rw [List.map_nil, List.intercalate_nil, List.nil_append] at hlist
  rw [refreshLocalStorageUsersValueLocked, hlist]

/-! The storage and the accounts it stands for. -/

/-- A key whose value a user may ask for. -/
def ValueKey (key : List JChar) : Prop := paired key ∧ stringFromJString key ≠ kUserKeys

/-- A value that comes back as it was given. -/
def Intact (value : List JChar) : Prop := paired value ∧ 0 ∉ value

instance : DecidablePred ValueKey := fun _ => inferInstanceAs (Decidable (_ ∧ _))

instance : DecidablePred Intact := fun _ => inferInstanceAs (Decidable (_ ∧ _))

structure Agrees (environment : Environment) (s : LocalStorage) (a : Accounts) : Prop where
  current : (currentLocalStorageUserLocked environment s).currentUser = a.currentUser
  stored : ∀ user key, ValueKey key →
    view userTags s.values user (stringFromJString key) = (a.stored user key).map stringFromJString
  intact : ∀ user key value, a.stored user key = some value → Intact value
  users : ∀ list, s.values kUsers = some list → ListsUsers s.users list
  currentUser : ∀ text, s.values kCurrentUser = some text → text = toStringBytes a.currentUser
  nodup : s.users.Nodup
  settled : s.currentUser = kLocalStorageUninitializedUser → s.values kUsers = none ∨
    parseLocalStorageUserIdFromEnv environment = kLocalStorageUninitializedUser ∧
      kLocalStorageUninitializedUser ∈ s.users
  unlisted : s.values kUsers = none →
    ∀ user ∈ s.users, user = parseLocalStorageUserIdFromEnv environment

/-- The current user is known, and stays so. -/
structure Settled (environment : Environment) (s : LocalStorage) (a : Accounts) : Prop where
  agrees : Agrees environment s a
  current : s.currentUser = a.currentUser
  known : s.currentUser = kLocalStorageUninitializedUser →
    parseLocalStorageUserIdFromEnv environment = kLocalStorageUninitializedUser ∧
      kLocalStorageUninitializedUser ∈ s.users

theorem current_of_known
    (h : s.currentUser = kLocalStorageUninitializedUser →
      parseLocalStorageUserIdFromEnv environment = kLocalStorageUninitializedUser) :
    (currentLocalStorageUserLocked environment s).currentUser = s.currentUser := by
  unfold currentLocalStorageUserLocked
  split
  · rename_i hcurrent
    exact (h hcurrent).trans hcurrent.symm
  · rfl

theorem kNoUser_ne : kLocalStorageUninitializedUser ≠ kLocalStorageNoUser := by decide

theorem Agrees.locked (h : Agrees environment s a) :
    Settled environment (currentLocalStorageUserLocked environment s) a := by
  by_cases hcurrent : s.currentUser = kLocalStorageUninitializedUser
  · have hlocked : currentLocalStorageUserLocked environment s = { s with
        currentUser := parseLocalStorageUserIdFromEnv environment
        users := if parseLocalStorageUserIdFromEnv environment ≠ kLocalStorageNoUser then
          s.users.insert (parseLocalStorageUserIdFromEnv environment) else s.users } := by
      rw [currentLocalStorageUserLocked, if_pos hcurrent]
    have hcurrentUser := h.current
    rw [hlocked] at hcurrentUser ⊢
    have hknown : parseLocalStorageUserIdFromEnv environment = kLocalStorageUninitializedUser →
        parseLocalStorageUserIdFromEnv environment = kLocalStorageUninitializedUser ∧
          kLocalStorageUninitializedUser ∈
            (if parseLocalStorageUserIdFromEnv environment ≠ kLocalStorageNoUser then
              s.users.insert (parseLocalStorageUserIdFromEnv environment) else s.users) := by
      intro hparse
      rw [hparse, if_pos kNoUser_ne]
      exact ⟨rfl, List.mem_insert_self⟩
    refine ⟨⟨?_, h.stored, h.intact, ?_, h.currentUser, ?_, fun hc => .inr (hknown hc),
      fun hnone user hmem => ?_⟩, hcurrentUser, hknown⟩
    · rw [current_of_known fun hc => hc]
      exact hcurrentUser
    · intro list hlist
      obtain hnone | ⟨hparse, hmem⟩ := h.settled hcurrent
      · exact absurd (hnone.symm.trans hlist) (Option.some_ne_none _).symm
      · simp only [hparse, List.insert_of_mem hmem, ite_self]
        exact h.users list hlist
    · simp only
      split
      · exact h.nodup.insert
      · exact h.nodup
    · simp only at hmem
      split at hmem
      · rcases List.mem_insert_iff.1 hmem with hnew | hold
        · exact hnew
        · exact h.unlisted hnone user hold
      · exact h.unlisted hnone user hmem
  · have hlocked : currentLocalStorageUserLocked environment s = s := by
      rw [currentLocalStorageUserLocked, if_neg hcurrent]
    have hcurrentUser := h.current
    rw [hlocked] at hcurrentUser ⊢
    exact ⟨h, hcurrentUser, fun hc => absurd hc hcurrent⟩

theorem kCurrentUser_ne : kCurrentUser ≠ kUsers := by decide

/-- The values after a refresh of the list. -/
theorem Agrees.refreshed (hknown : s.currentUser = kLocalStorageUninitializedUser →
      parseLocalStorageUserIdFromEnv environment = kLocalStorageUninitializedUser ∧
        kLocalStorageUninitializedUser ∈ s.users)
    (hcurrent : s.currentUser = a.currentUser)
    (hstored : ∀ user key, ValueKey key →
      view userTags s.values user (stringFromJString key) =
        (a.stored user key).map stringFromJString)
    (hintact : ∀ user key value, a.stored user key = some value → Intact value)
    (hcurrentUser : ∀ text, s.values kCurrentUser = some text → text = toStringBytes a.currentUser)
    (hnodup : s.users.Nodup) :
    Agrees environment (refreshLocalStorageUsersValueLocked iteration s) a := by
  obtain ⟨list, hlist, heq⟩ := listsUsers_refresh iteration hnodup
  rw [heq]
  refine ⟨?_, ?_, hintact, ?_, ?_, hnodup, fun hc => .inr (hknown hc), fun hnone => ?_⟩
  · exact (current_of_known (s := { s with values := put s.values kUsers list }) fun hc =>
      (hknown hc).1).trans hcurrent
  · intro user key hkey
    exact (view_put_untagged untagged_kUsers).trans (hstored user key hkey)
  · intro other hother
    have hsame : put s.values kUsers list kUsers = some other := hother
    rw [put_self, Option.some_inj] at hsame
    exact hsame ▸ hlist
  · intro text htext
    have hsame : put s.values kUsers list kCurrentUser = some text := htext
    rw [put_of_ne kCurrentUser_ne] at hsame
    exact hcurrentUser text hsame
  · have hsame : put s.values kUsers list kUsers = none := hnone
    rw [put_self] at hsame
    cases hsame

/-! What the two changes of an account leave. -/

theorem Accounts.set_self : (a.set user string text).stored user string = some text := by
  simp [Accounts.set]

theorem Accounts.set_other (h : ¬ (i = user ∧ other = string)) :
    (a.set user string text).stored i other = a.stored i other := by
  by_cases hi : i = user
  · subst hi
    have hk : other ≠ string := fun hk => h ⟨rfl, hk⟩
    simp [Accounts.set, Function.update_of_ne hk]
  · simp [Accounts.set, hi]

theorem Accounts.delete_self : (a.delete user).stored user string = none := by
  simp [Accounts.delete]

theorem Accounts.delete_other (h : i ≠ user) :
    (a.delete user).stored i string = a.stored i string := by
  simp [Accounts.delete, h]

theorem Settled.set (h : Settled environment s a) (hkey : paired string) (hvalue : Intact text) :
    Agrees environment (localStorageSetUserValueLocked iteration s user (stringFromJString string)
      (stringFromJString text)) (a.set user string text) := by
  refine Agrees.refreshed (fun hc => ?_) h.current ?_ ?_ ?_ h.agrees.nodup.insert
  · exact ⟨(h.known hc).1, List.mem_insert_of_mem (h.known hc).2⟩
  · intro i k hk
    have hother : ¬ (i = user ∧ stringFromJString k = kUserKeys) := fun heq => hk.2 heq.2
    refine (view_put_other hother).trans ?_
    by_cases heq : i = user ∧ k = string
    · obtain ⟨rfl, rfl⟩ := heq
      rw [Accounts.set_self]
      exact view_put_self
    · have hbytes : ¬ (i = user ∧ stringFromJString k = stringFromJString string) :=
        fun hsame => heq ⟨hsame.1, utf16ToUtf8_injOn hk.1 hkey hsame.2⟩
      rw [Accounts.set_other heq]
      exact (view_put_other hbytes).trans (h.agrees.stored i k hk)
  · intro i k v hv
    by_cases heq : i = user ∧ k = string
    · obtain ⟨rfl, rfl⟩ := heq
      rw [Accounts.set_self, Option.some_inj] at hv
      exact hv ▸ hvalue
    · rw [Accounts.set_other heq] at hv
      exact h.agrees.intact i k v hv
  · intro entry hentry
    have hput : ∀ (values : Store UInt8 Bytes) (k v : Bytes),
        put values (localStorageUserKey k user) v kCurrentUser = values kCurrentUser :=
      fun _ _ _ => put_untagged (T := userTags) untagged_kCurrentUser
    exact h.agrees.currentUser entry (((hput _ _ _).trans (hput _ _ _)).symm.trans hentry)

theorem Settled.delete (h : Settled environment s a)
    (hmeets : s.currentUser = user → user ≠ kLocalStorageNoUser → s.values kCurrentUser = none) :
    Agrees environment (refreshLocalStorageUsersValueLocked iteration
      { values := clear s.values (toStringBytes user ++ [95])
        users := s.users.erase user
        currentUser := if s.currentUser = user then kLocalStorageNoUser else s.currentUser })
          (a.delete user) := by
  refine Agrees.refreshed (fun hc => ?_) ?_ ?_ ?_ ?_ (h.agrees.nodup.erase user)
  · simp only at hc ⊢
    split at hc
    · exact absurd hc.symm kNoUser_ne
    · rename_i hother
      refine ⟨(h.known hc).1, (List.mem_erase_of_ne ?_).2 (h.known hc).2⟩
      rintro rfl
      exact hother hc
  · rw [Accounts.delete, ← h.current]
  · intro i k hk
    by_cases hi : i = user
    · subst hi
      rw [Accounts.delete_self]
      exact view_clear_self (T := userTags)
    · rw [Accounts.delete_other hi]
      exact (view_clear_other hi).trans (h.agrees.stored i k hk)
  · intro i k v hv
    by_cases hi : i = user
    · subst hi
      rw [Accounts.delete_self] at hv
      cases hv
    · rw [Accounts.delete_other hi] at hv
      exact h.agrees.intact i k v hv
  · intro text htext
    have hclear : clear s.values (toStringBytes user ++ [95]) kCurrentUser =
        s.values kCurrentUser :=
      clear_untagged (T := userTags) untagged_kCurrentUser
    replace htext := hclear.symm.trans htext
    have hold := h.agrees.currentUser text htext
    rw [Accounts.delete, ← h.current]
    split
    · rename_i heq
      by_cases hno : user = kLocalStorageNoUser
      · rw [hold, ← h.current, heq, hno]
      · exact absurd ((hmeets heq hno).symm.trans htext) (Option.some_ne_none _).symm
    · rw [hold, h.current]

/-- The number of the user is stored behind the list. -/
theorem Agrees.setCurrentUser (h : Agrees environment s a)
    (hmeets : user = kLocalStorageUninitializedUser →
      parseLocalStorageUserIdFromEnv environment = kLocalStorageUninitializedUser) :
    Agrees environment (call environment iteration s (.setCurrentUser user)).2
      (a.call (.setCurrentUser user)) := by
  have hnodup : (if user ≠ kLocalStorageNoUser then s.users.insert user else s.users).Nodup := by
    split
    · exact h.nodup.insert
    · exact h.nodup
  obtain ⟨list, hlist, heq⟩ := listsUsers_refresh iteration
    (s := { s with
      currentUser := user
      users := if user ≠ kLocalStorageNoUser then s.users.insert user else s.users })
    hnodup
  rw [call]
  simp only
  rw [heq]
  refine ⟨?_, ?_, h.intact, ?_, ?_, hnodup, ?_, fun hnone => ?_⟩
  · rw [current_of_known hmeets]
    rfl
  · intro i k hk
    exact ((view_put_untagged untagged_kCurrentUser).trans
      (view_put_untagged untagged_kUsers)).trans (h.stored i k hk)
  · intro other hother
    have hsame : put (put s.values kUsers list) kCurrentUser
        (toStringBytes user) kUsers = some other := hother
    rw [put_of_ne kCurrentUser_ne.symm, put_self, Option.some_inj] at hsame
    exact hsame ▸ hlist
  · intro text htext
    have hsame : put (put s.values kUsers list) kCurrentUser (toStringBytes user) kCurrentUser =
        some text := htext
    rw [put_self, Option.some_inj] at hsame
    exact hsame.symm
  · intro huser
    have huser : user = kLocalStorageUninitializedUser := huser
    refine .inr ⟨hmeets huser, ?_⟩
    simp only [huser, if_pos kNoUser_ne]
    exact List.mem_insert_self
  · have hsame : put (put s.values kUsers list) kCurrentUser
        (toStringBytes user) kUsers = none := hnone
    rw [put_of_ne kCurrentUser_ne.symm, put_self] at hsame
    cases hsame

/-- A change at a key of no user, and of no entry that the storage keeps. -/
theorem Settled.global {values : Store UInt8 Bytes} (h : Settled environment s a)
    (hview : ∀ user key, view userTags values user key = view userTags s.values user key)
    (husers : values kUsers = s.values kUsers)
    (hcurrent : values kCurrentUser = s.values kCurrentUser) :
    Agrees environment { s with values := values } a := by
  refine ⟨?_, fun user key hkey => (hview user _).trans (h.agrees.stored user key hkey),
    h.agrees.intact, ?_, ?_,
    h.agrees.nodup, fun hc => .inr (h.known hc), fun hnone =>
      h.agrees.unlisted (husers.symm.trans hnone)⟩
  · exact (current_of_known (s := { s with values := values }) fun hc =>
      (h.known hc).1).trans h.current
  · intro list hlist
    exact h.agrees.users list (husers.symm.trans hlist)
  · intro text htext
    exact h.agrees.currentUser text (hcurrent.symm.trans htext)

/-! The calls. -/

/-- A key of no user, and of none of the storage's own entries. -/
def GlobalKey (key : Bytes) : Prop :=
  beginsWithInteger key = false ∧ key ≠ kUsers ∧ key ≠ kCurrentUser

def Call.Allowed : Call → Prop
  | .setSecureValue key _ | .deleteSecureValue key => GlobalKey (stringFromJString key)
  | .setSecureValueForCurrentUser key _ | .setSecureValueForUser key _ _ =>
    stringFromJString key ≠ kUserKeys
  | _ => True

/-- The current user as the next call finds it. -/
def currentUserOf (environment : Environment) (s : LocalStorage) : UserId :=
  (currentLocalStorageUserLocked environment s).currentUser

/-- Where the storage does right: no user takes the number that stands for none yet (unless the
environment names that one), no key or value of a user has a lone surrogate in it and no value a
NUL, and the current user is deleted only while the storage has no entry of it. -/
def Call.Meets (environment : Environment) (s : LocalStorage) : Call → Prop
  | .setCurrentUser user => user = kLocalStorageUninitializedUser →
      parseLocalStorageUserIdFromEnv environment = kLocalStorageUninitializedUser
  | .setSecureValueForCurrentUser key value =>
    currentUserOf environment s ≠ kLocalStorageNoUser → paired key ∧ Intact value
  | .setSecureValueForUser key value _ => paired key ∧ Intact value
  | .getSecureValueForCurrentUser key | .getSecureValueForUser key _ => paired key
  | .deleteUserValues user => currentUserOf environment s = user → user ≠ kLocalStorageNoUser →
      s.values kCurrentUser = none
  | .deleteCurrentUserValues => currentUserOf environment s ≠ kLocalStorageNoUser →
    s.values kCurrentUser = none
  | _ => True

theorem locked_values : (currentLocalStorageUserLocked environment s).values = s.values := by
  unfold currentLocalStorageUserLocked
  split
  · rfl
  · rfl

theorem agrees_call (h : Agrees environment s a) (hallowed : c.Allowed)
    (hmeets : c.Meets environment s) :
    Agrees environment (call environment iteration s c).2 (a.call c) := by
  have hlocked := h.locked
  cases c with
  | setCurrentUser user => exact h.setCurrentUser hmeets
  | getCurrentUser => exact hlocked.agrees
  | getUsers => exact hlocked.agrees
  | getSecureValue key => exact hlocked.agrees
  | getSecureValueForUser key user => exact hlocked.agrees
  | getSecureValueForCurrentUser key =>
    rw [call]
    simp only
    split
    · exact hlocked.agrees
    · exact hlocked.agrees.locked.agrees
  | setSecureValue key value =>
    have huntagged := untagged_of_global hallowed.1
    exact hlocked.global (fun _ _ => view_put_untagged huntagged) (put_of_ne hallowed.2.1.symm)
      (put_of_ne hallowed.2.2.symm)
  | deleteSecureValue key =>
    have huntagged := untagged_of_global hallowed.1
    exact hlocked.global (fun _ _ => view_drop_untagged huntagged)
      (Function.update_of_ne hallowed.2.1.symm ..)
      (Function.update_of_ne hallowed.2.2.symm ..)
  | setSecureValueForUser key value user =>
    have hintact : paired key ∧ Intact value := hmeets
    exact hlocked.set hintact.1 hintact.2
  | setSecureValueForCurrentUser key value =>
    have haccounts : a.call (.setSecureValueForCurrentUser key value) =
        if currentUserOf environment s = kLocalStorageNoUser then a
        else a.set (currentUserOf environment s) key value := by
      rw [currentUserOf, hlocked.current]
      rfl
    rw [haccounts]
    unfold call currentUserOf
    simp only
    split
    · exact hlocked.agrees
    · rename_i hcurrent
      have hintact : paired key ∧ Intact value := hmeets hcurrent
      exact hlocked.set hintact.1 hintact.2
  | deleteUserValues user =>
    have hnone : currentUserOf environment s = user → user ≠ kLocalStorageNoUser →
        s.values kCurrentUser = none := hmeets
    refine hlocked.delete fun hcurrent hno => ?_
    rw [locked_values]
    exact hnone hcurrent hno
  | deleteCurrentUserValues =>
    have haccounts : a.call .deleteCurrentUserValues =
        if currentUserOf environment s = kLocalStorageNoUser then a
        else a.delete (currentUserOf environment s) := by
      rw [currentUserOf, hlocked.current]
      rfl
    rw [haccounts]
    unfold call currentUserOf
    simp only
    split
    · exact hlocked.agrees
    · rename_i hcurrent
      have hnone : s.values kCurrentUser = none := hmeets hcurrent
      refine hlocked.agrees.locked.delete fun _ _ => ?_
      rw [locked_values, locked_values]
      exact hnone

/-! What the users read. -/

theorem makeString_nil : makeString [] = .string [] :=
  congrArg Answer.string (@modifiedUtf8ToUtf16_utf16ToUtf8 [] rfl List.not_mem_nil)

theorem Agrees.getD_intact (h : Agrees environment s a) :
    makeString (((a.stored user string).map stringFromJString).getD []) =
      .string ((a.stored user string).getD []) := by
  cases hvalue : a.stored user string with
  | none => exact makeString_nil
  | some value =>
    have hintact := h.intact user string value hvalue
    exact congrArg Answer.string (modifiedUtf8ToUtf16_utf16ToUtf8 hintact.1 hintact.2)

theorem Agrees.read (h : Agrees environment s a) (hkey : ValueKey string) :
    (call environment iteration s (.getSecureValueForUser string user)).1 =
      .string ((a.stored user string).getD []) := by
  rw [← h.getD_intact, ← h.stored user string hkey]
  unfold call localStorageGetValue
  simp only [locked_values]
  rfl

theorem Agrees.readCurrent (h : Agrees environment s a) (hkey : ValueKey string) :
    (call environment iteration s (.getSecureValueForCurrentUser string)).1 =
      .string (if a.currentUser = kLocalStorageNoUser then []
        else (a.stored a.currentUser string).getD []) := by
  have hcurrent := h.locked.current
  unfold call localStorageGetValue
  simp only [locked_values, hcurrent]
  split
  · exact makeString_nil
  · rw [← h.getD_intact, ← h.stored a.currentUser string hkey]
    rfl

/-- What holds of the storage for the accounts it stands for. -/
structure Kept (environment : Environment) (s : LocalStorage) (a : Accounts) : Prop where
  current : currentUserOf environment s = a.currentUser
  reads : ∀ iteration user key, ValueKey key →
    (call environment iteration s (.getSecureValueForUser key user)).1 =
      .string ((a.stored user key).getD [])
  readsCurrent : ∀ iteration key, ValueKey key →
    (call environment iteration s (.getSecureValueForCurrentUser key)).1 =
      .string (if a.currentUser = kLocalStorageNoUser then []
        else (a.stored a.currentUser key).getD [])
  known : s.users.Nodup
  users : ∀ list, s.values kUsers = some list → ListsUsers s.users list
  unlisted : s.values kUsers = none →
    ∀ user ∈ s.users, user = parseLocalStorageUserIdFromEnv environment
  currentUser : ∀ text, s.values kCurrentUser = some text →
    text = toStringBytes (currentUserOf environment s)

theorem Agrees.kept (h : Agrees environment s a) : Kept environment s a where
  current := h.current
  reads _ _ _ hkey := h.read hkey
  readsCurrent _ _ hkey := h.readCurrent hkey
  known := h.nodup
  users := h.users
  unlisted := h.unlisted
  currentUser text htext := (h.currentUser text htext).trans (congrArg toStringBytes h.current.symm)

/-- The user whose values a call changes. -/
def Accounts.owner (a : Accounts) : Call → Option UserId
  | .setSecureValueForCurrentUser .. | .deleteCurrentUserValues => some a.currentUser
  | .setSecureValueForUser _ _ user | .deleteUserValues user => some user
  | _ => none

theorem Accounts.call_other (h : a.owner c ≠ some user) :
    (a.call c).stored user string = a.stored user string := by
  have hset : ∀ {i k v}, some i ≠ some user →
      (a.set i k v).stored user string = a.stored user string :=
    fun hi => Accounts.set_other fun heq => hi (congrArg some heq.1.symm)
  have hdelete : ∀ {i}, some i ≠ some user →
      (a.delete i).stored user string = a.stored user string :=
    fun hi => Accounts.delete_other fun heq => hi (congrArg some heq.symm)
  cases c with
  | setSecureValueForUser => exact hset h
  | deleteUserValues => exact hdelete h
  | setSecureValueForCurrentUser =>
    unfold Accounts.call
    simp only
    split
    · rfl
    · exact hset h
  | deleteCurrentUserValues =>
    unfold Accounts.call
    simp only
    split
    · rfl
    · exact hdelete h
  | _ => rfl

/-- The storage beside the accounts that the same calls make. -/
def localStorageSystem (environment : Environment) : LTS (LocalStorage × Accounts)
    (Iteration × Call) where
  initial s := s = ({}, ⟨parseLocalStorageUserIdFromEnv environment, fun _ _ => none⟩)
  step s l t := l.2.Allowed ∧ t = ((call environment l.1 s.1 l.2).2, s.2.call l.2)

def Meeting (environment : Environment) (s : LocalStorage × Accounts)
    (l : Iteration × Call) : Prop :=
  l.2.Meets environment s.1

theorem agrees_initial :
    Agrees environment {} ⟨parseLocalStorageUserIdFromEnv environment, fun _ _ => none⟩ where
  current := rfl
  stored _ _ _ := rfl
  intact _ _ _ h := by cases h
  users _ h := by cases h
  currentUser _ h := by cases h
  nodup := List.nodup_nil
  settled _ := .inl rfl
  unlisted _ := List.forall_mem_nil _

theorem agrees_reachable {p : LocalStorage × Accounts}
    (h : ((localStorageSystem environment).restrict (Meeting environment)).Reachable p) :
    Agrees environment p.1 p.2 := by
  refine h.invariant (I := fun p => Agrees environment p.1 p.2) ?_ ?_
  · rintro p rfl
    exact agrees_initial
  · rintro p l q ⟨⟨hallowed, rfl⟩, hmeets⟩ hp
    exact agrees_call hp hallowed hmeets

/-- In every run of such calls each user reads what was last set for them, whatever is done for the
others. -/
theorem localStorage_spec {p : LocalStorage × Accounts}
    (h : ((localStorageSystem environment).restrict (Meeting environment)).Reachable p) :
    Kept environment p.1 p.2 ∧
      ∀ l q user key, ((localStorageSystem environment).restrict (Meeting environment)).step p l q →
        p.2.owner l.2 ≠ some user → ValueKey key → ∀ iteration,
          (call environment iteration q.1 (.getSecureValueForUser key user)).1 =
            (call environment iteration p.1 (.getSecureValueForUser key user)).1 := by
  have hagrees := agrees_reachable h
  refine ⟨hagrees.kept, ?_⟩
  rintro l q user key ⟨⟨hallowed, rfl⟩, hmeets⟩ howner hkey iteration
  rw [(agrees_call hagrees hallowed hmeets).read hkey, hagrees.read hkey,
    Accounts.call_other howner]

def inOrder : Iteration := ⟨id, fun _ => .refl _⟩

/-- The storage and the accounts after some calls. -/
def afterCalls (environment : Environment) (calls : List Call) : LocalStorage × Accounts :=
  calls.foldl (fun p c => ((call environment inOrder p.1 c).2, p.2.call c))
    ({}, ⟨parseLocalStorageUserIdFromEnv environment, fun _ _ => none⟩)

/-- A user's value is read back, beside another user's. -/
theorem localStorage_spec_twoUsers :
    (call {} inOrder
      (afterCalls {} [.setSecureValueForUser [107] [49] 1, .setSecureValueForUser [107] [50] 11]).1
      (.getSecureValueForUser [107] 1)).1 = .string [49] := by
  have hone : ((localStorageSystem {}).restrict (Meeting {})).step (afterCalls {} [])
      (inOrder, .setSecureValueForUser [107] [49] 1)
      (afterCalls {} [.setSecureValueForUser [107] [49] 1]) :=
    ⟨⟨show stringFromJString [107] ≠ kUserKeys by decide, rfl⟩,
      show paired [107] ∧ Intact [49] by decide⟩
  have htwo : ((localStorageSystem {}).restrict (Meeting {})).step
      (afterCalls {} [.setSecureValueForUser [107] [49] 1])
      (inOrder, .setSecureValueForUser [107] [50] 11)
      (afterCalls {} [.setSecureValueForUser [107] [49] 1, .setSecureValueForUser [107] [50] 11]) :=
    ⟨⟨show stringFromJString [107] ≠ kUserKeys by decide, rfl⟩,
      show paired [107] ∧ Intact [50] by decide⟩
  exact ((localStorage_spec ⟨_, _, rfl, .cons hone (.single htwo)⟩).1.reads inOrder 1 [107]
    (by decide)).trans (by decide)

/-- Deleting the values of the current user leaves the storage naming that user. -/
theorem localStorage_staleCurrentUser :
    (localStorageSystem {}).Reachable (afterCalls {} [.setCurrentUser 5, .deleteUserValues 5]) ∧
      ¬ Kept {} (afterCalls {} [.setCurrentUser 5, .deleteUserValues 5]).1
        (afterCalls {} [.setCurrentUser 5, .deleteUserValues 5]).2 := by
  have hset : (localStorageSystem {}).step (afterCalls {} []) (inOrder, .setCurrentUser 5)
      (afterCalls {} [.setCurrentUser 5]) := ⟨trivial, rfl⟩
  have hdelete : (localStorageSystem {}).step (afterCalls {} [.setCurrentUser 5])
      (inOrder, .deleteUserValues 5)
      (afterCalls {} [.setCurrentUser 5, .deleteUserValues 5]) := ⟨trivial, rfl⟩
  refine ⟨⟨_, _, rfl, .cons hset (.single hdelete)⟩, fun h => ?_⟩
  have htext := h.currentUser (bytes "5") (by decide)
  revert htext
  decide

end Nightcap.Jni
