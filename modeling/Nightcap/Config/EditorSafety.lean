import Nightcap.Config.Editor

/-! An edit that succeeds changes what one key reads as, and what no other key does. -/
namespace Nightcap.Config

open Utf8 Ascii Framing KeyPaths

/-! What a tree gives a path. -/

namespace Node

/-- The value of the first pair with a name. -/
def childOf (pairs : List (Node × Node)) (name : Bytes) : Option Node :=
  (pairs.find? (·.1.scalarValue == some name)).map (·.2)

def descend : Node → List Bytes → Option Node
  | node, [] => some node
  | node, name :: path => (childOf node.pairs name).bind (descend · path)

/-- The value of a leaf; an empty collection is one. -/
def leaf : Node → Option Bytes
  | .scalar value .. => some value
  | .sequence _ items .. => if items.isEmpty then some emptyCollection else none
  | .mapping _ pairs .. => if pairs.isEmpty then some emptyCollection else none

def leafAt (node : Node) (path : List Bytes) : Option Bytes := (node.descend path).bind leaf

variable (P : Node → Prop)

mutual

/-- The node and every value in it has a property. -/
def All : Node → Prop
  | .scalar value style start finish => P (.scalar value style start finish)
  | .sequence flow items start finish => P (.sequence flow items start finish) ∧ AllItems items
  | .mapping flow pairs start finish => P (.mapping flow pairs start finish) ∧ AllPairs pairs

def AllItems : List Node → Prop
  | [] => True
  | item :: items => All item ∧ AllItems items

def AllPairs : List (Node × Node) → Prop
  | [] => True
  | (_, value) :: pairs => All value ∧ AllPairs pairs

end

variable {P} {node value : Node} {pairs : List (Node × Node)} {name : Bytes}
  {path rest : List Bytes}

theorem All.self (h : node.All P) : P node := by
  cases node with
  | scalar => exact h
  | sequence => exact h.1
  | mapping => exact h.1

theorem allPairs_child (h : AllPairs P pairs) (hc : childOf pairs name = some value) :
    value.All P := by
  induction pairs with
  | nil => cases hc
  | cons pair pairs ih =>
    unfold childOf at hc ih
    rw [List.find?_cons] at hc
    split at hc
    · obtain rfl := Option.some.inj hc
      exact h.1
    · exact ih h.2 hc

theorem All.descend (h : node.All P) (hd : node.descend path = some value) : value.All P := by
  induction path generalizing node with
  | nil =>
    obtain rfl := Option.some.inj hd
    exact h
  | cons name path ih =>
    obtain ⟨child, hc, hrest⟩ := Option.bind_eq_some_iff.1 hd
    cases node with
    | mapping => exact ih (allPairs_child h.2 hc) hrest
    | scalar => cases hc
    | sequence => cases hc

theorem descend_append (node : Node) (path rest : List Bytes) :
    node.descend (path ++ rest) = (node.descend path).bind (·.descend rest) := by
  induction path generalizing node with
  | nil => rfl
  | cons name path ih =>
    rw [List.cons_append, Node.descend, Node.descend]
    cases childOf node.pairs name with
    | none => rfl
    | some child => exact ih child

/-- Nothing is below a node that is no mapping. -/
theorem leafAt_below (hd : node.descend path = some value) (hv : value.isMapping = false)
    (hr : rest ≠ []) : node.leafAt (path ++ rest) = none := by
  rw [leafAt, descend_append, hd]
  cases rest with
  | nil => exact absurd rfl hr
  | cons name rest =>
    cases value with
    | mapping => cases hv
    | scalar => rfl
    | sequence => rfl

/-- What the config schema can hold: mappings with distinct names for keys, and values other than
the mark of an empty collection. -/
def Configurable : Node → Prop
  | .scalar value .. => value ≠ emptyCollection
  | .sequence .. => False
  | .mapping _ pairs .. =>
    (∀ pair ∈ pairs, ∃ name, pair.1.scalarValue = some name ∧ name ≠ [] ∧
      name.all isKeyCharacter = true) ∧ (pairs.map (·.1.scalarValue)).Nodup

/-- A value of no extent is empty. -/
def Spelled : Node → Prop
  | .scalar value _ start finish => start.index = finish.index → value = []
  | _ => True

end Node

/-! Paths of names. -/

/-- Names the editor accepts. -/
def Names (path : List Bytes) : Prop := ∀ name ∈ path, name ≠ [] ∧ name.all isKeyCharacter = true

variable {path rest : List Bytes} {name : Bytes}

theorem isName_of_all (hn : name ≠ []) (h : name.all isKeyCharacter = true) :
    IsName pathSeparator name := by
  refine ⟨hn, fun hs => ?_⟩
  have hk := List.all_eq_true.1 h _ hs
  exact absurd hk (by decide)

theorem Names.isName (h : Names path) : ∀ name ∈ path, IsName pathSeparator name :=
  fun name hn => isName_of_all (h name hn).1 (h name hn).2

theorem Names.append (h : Names path) (hr : Names rest) : Names (path ++ rest) := by
  intro name hn
  rcases List.mem_append.1 hn with hn | hn
  · exact h name hn
  · exact hr name hn

theorem Names.take (h : Names path) (n : Nat) : Names (path.take n) :=
  fun name hn => h name (List.mem_of_mem_take hn)

theorem Names.snoc (h : Names path) (hn : name ≠ []) (ha : name.all isKeyCharacter = true) :
    Names (path ++ [name]) := by
  refine h.append fun n hm => ?_
  obtain rfl := List.mem_singleton.1 hm
  exact ⟨hn, ha⟩

theorem joinPath_injective (h : Names path) (hr : Names rest) (hj : joinPath path = joinPath rest) :
    path = rest :=
  joined_injective h.isName hr.isName hj

theorem joinPrefix_joinPath (h : Names path) :
    joinPrefix (joinPath path) name = joinPath (path ++ [name]) := by
  unfold joinPrefix joinPath
  by_cases hp : path = []
  · subst hp
    rfl
  · rw [joined_snoc hp, if_neg]
    rw [List.isEmpty_iff, joined_eq_nil fun l hl => (h l hl).1]
    exact hp

theorem splitKey_names {key : Bytes} (h : splitKey key = some path) : Names path ∧ path ≠ [] := by
  unfold splitKey at h
  dsimp only at h
  split_ifs at h with ha
  obtain rfl := Option.some.inj h
  refine ⟨fun name hn => ?_, List.splitOnPPrepend_ne_nil _ _ _⟩
  have hname := List.all_eq_true.1 ha name hn
  rw [Bool.and_eq_true, Bool.not_eq_true', List.isEmpty_eq_false_iff] at hname
  exact hname

/-! Flattening loses nothing. -/

/-- The leaves of the pairs, below a path. -/
def pairsLeafAt (pairs : List (Node × Node)) : List Bytes → Option Bytes
  | [] => none
  | name :: path => (Node.childOf pairs name).bind (·.leafAt path)

theorem pairsLeafAt_absent {pairs : List (Node × Node)}
    (h : some name ∉ pairs.map (·.1.scalarValue)) :
    pairsLeafAt pairs (name :: path) = none := by
  have hf : pairs.find? (·.1.scalarValue == some name) = none := by
    rw [List.find?_eq_none]
    intro pair hp hb
    exact h (List.mem_map.2 ⟨pair, hp, by simpa using hb⟩)
  rw [pairsLeafAt, Node.childOf, hf]
  rfl

theorem leafAt_mapping (flow : Bool) {pairs : List (Node × Node)} (start finish : Mark)
    (hp : pairs ≠ []) :
    (Node.mapping flow pairs start finish).leafAt path = pairsLeafAt pairs path := by
  cases path with
  | nil =>
    cases pairs with
    | nil => exact absurd rfl hp
    | cons => rfl
  | cons name path =>
    rw [Node.leafAt, Node.descend, pairsLeafAt, Option.bind_assoc]
    rfl

/-- What flattening below a path does to the map: it holds the leaves below the path, and keeps the
rest. -/
def Flattens (path : List Bytes) (leafAt : List Bytes → Option Bytes) (before after : Leaves) :
    Prop :=
  (∀ rest, Names rest → after.lookup (joinPath (path ++ rest)) =
    (leafAt rest).or (before.lookup (joinPath (path ++ rest)))) ∧
  ∀ other, Names other → ¬ path <+: other →
    after.lookup (joinPath other) = before.lookup (joinPath other)

variable {before after leaves : Leaves} {leafAt : List Bytes → Option Bytes}

/-- One leaf, under the path itself. -/
theorem flattens_insert (hp : Names path) {value : Bytes} (hnil : leafAt [] = some value)
    (hcons : ∀ name rest, leafAt (name :: rest) = none) :
    Flattens path leafAt leaves (leaves.insert (joinPath path) value) := by
  refine ⟨fun rest hr => ?_, fun other ho hne => ?_⟩
  · cases rest with
    | nil =>
      rw [List.append_nil, hnil, Finmap.lookup_insert]
      rfl
    | cons name rest =>
      rw [hcons, Finmap.lookup_insert_of_ne]
      · rfl
      · intro hj
        have heq := joinPath_injective (hp.append hr) hp hj
        simp at heq
  · rw [Finmap.lookup_insert_of_ne]
    intro hj
    rw [joinPath_injective ho hp hj] at hne
    exact hne (List.prefix_refl _)

theorem flattens_cons {key value : Node} {pairs : List (Node × Node)} {middle : Leaves}
    (hp : Names path) (hk : key.scalarValue = some name) (hn : name ≠ [])
    (ha : name.all isKeyCharacter = true) (habsent : some name ∉ pairs.map (·.1.scalarValue))
    (hv : Flattens (path ++ [name]) value.leafAt before middle)
    (hps : Flattens path (pairsLeafAt pairs) middle after) :
    Flattens path (pairsLeafAt ((key, value) :: pairs)) before after := by
  have hnot (other : List Bytes) (h : ¬ path <+: other) : ¬ path ++ [name] <+: other :=
    fun hpre => h ((List.prefix_append path [name]).trans hpre)
  refine ⟨fun rest hr => ?_, fun other ho hne => ?_⟩
  · rw [hps.1 rest hr]
    cases rest with
    | nil =>
      rw [List.append_nil, pairsLeafAt, pairsLeafAt]
      refine hv.2 path hp fun hpre => ?_
      have hlen := hpre.length_le
      simp at hlen
    | cons first rest =>
      by_cases hf : first = name
      · subst hf
        rw [pairsLeafAt_absent habsent, Option.none_or]
        have hvr := hv.1 rest fun n hm => hr n (List.mem_cons_of_mem _ hm)
        rw [List.append_assoc, List.singleton_append] at hvr
        rw [hvr, pairsLeafAt, Node.childOf, List.find?_cons_of_pos (by simp [hk])]
        rfl
      · have hfind : pairsLeafAt ((key, value) :: pairs) (first :: rest) =
            pairsLeafAt pairs (first :: rest) := by
          rw [pairsLeafAt, pairsLeafAt, Node.childOf, Node.childOf, List.find?_cons_of_neg]
          simpa [hk] using fun h => hf h.symm
        rw [hfind, hv.2 _ (hp.append hr)]
        intro hpre
        rw [List.prefix_append_right_inj, List.cons_prefix_cons] at hpre
        exact hf hpre.1.symm
  · rw [hps.2 other ho hne, hv.2 other ho (hnot other hne)]

mutual

theorem flattens_flatten {path : List Bytes} (hp : Names path) (leaves : Leaves) :
    (node : Node) → node.All Node.Configurable →
      Flattens path node.leafAt leaves (flatten (joinPath path) node leaves)
  | .scalar value style start finish, _ => by
    unfold flatten
    exact flattens_insert hp rfl fun _ _ => rfl
  | .sequence flow items start finish, h => absurd h.1 id
  | .mapping flow pairs start finish, h => by
    unfold flatten
    by_cases hpairs : pairs = []
    · subst hpairs
      exact flattens_insert hp rfl fun _ _ => rfl
    · rw [List.isEmpty_eq_false_iff.2 hpairs, if_neg Bool.false_ne_true]
      have hf := flattens_flattenPairs hp leaves pairs h.1 h.2
      refine ⟨fun rest hr => ?_, hf.2⟩
      rw [leafAt_mapping flow start finish hpairs]
      exact hf.1 rest hr

theorem flattens_flattenPairs {path : List Bytes} (hp : Names path) (leaves : Leaves) :
    (pairs : List (Node × Node)) →
      (Node.mapping false pairs {} {}).Configurable → Node.AllPairs Node.Configurable pairs →
      Flattens path (pairsLeafAt pairs) leaves (flattenPairs (joinPath path) pairs leaves)
  | [], _, _ => by
    unfold flattenPairs
    refine ⟨fun rest _ => ?_, fun _ _ _ => rfl⟩
    cases rest <;> rfl
  | (key, value) :: pairs, hc, h => by
    unfold flattenPairs
    obtain ⟨hnames, hnodup⟩ := hc
    rw [List.forall_mem_cons] at hnames
    rw [List.map_cons, List.nodup_cons] at hnodup
    obtain ⟨⟨name, hk, hn, ha⟩, hnames⟩ := hnames
    rw [hk, Option.getD_some, joinPrefix_joinPath hp]
    have hv := flattens_flatten (hp.snoc hn ha) leaves value h.1
    have hps := flattens_flattenPairs hp (flatten (joinPath (path ++ [name])) value leaves) pairs
      ⟨hnames, hnodup.2⟩ h.2
    exact flattens_cons hp hk hn ha (hk ▸ hnodup.1) hv hps

end

/-! What a file reads as. -/

namespace Source

variable {s : Source} {load : Loader} {text : Bytes} {root node : Node}

theorem root_indexContent (s : Source) (node : Node) : (s.indexContent node).root = s.root := by
  unfold indexContent
  dsimp only
  split_ifs <;> rfl

theorem root_indexKey (s : Source) (key : Node) : (s.indexKey key).root = s.root := by
  unfold indexKey
  split
  · dsimp only
    split_ifs <;> rfl
  · rfl

mutual

theorem root_indexNode (s : Source) : (node : Node) → (s.indexNode node).root = s.root
  | .scalar value style start finish => root_indexContent s _
  | .sequence flow items start finish => by
    unfold indexNode
    cases flow with
    | true => exact root_indexContent s _
    | false => exact root_indexItems s items
  | .mapping flow pairs start finish => by
    unfold indexNode
    cases flow with
    | true => exact root_indexContent s _
    | false => exact root_indexPairs s pairs

theorem root_indexItems (s : Source) : (items : List Node) → (s.indexItems items).root = s.root
  | [] => rfl
  | item :: items => by
    unfold indexItems
    rw [root_indexItems (s.indexNode item) items, root_indexNode s item]

theorem root_indexPairs (s : Source) :
    (pairs : List (Node × Node)) → (s.indexPairs pairs).root = s.root
  | [] => rfl
  | (key, value) :: pairs => by
    unfold indexPairs
    rw [root_indexPairs ((s.indexKey key).indexNode value) pairs,
      root_indexNode (s.indexKey key) value, root_indexKey]

end

/-- The tree of a source is the loader's. -/
theorem parse_root (h : parse load text = .ok s) : load text = .ok s.root := by
  unfold parse at h
  split_ifs at h
  split at h
  · cases h
  · cases h
  · rename_i hl
    cases h
    exact hl
  · rename_i root hl
    split at h
    · cases h
    · cases h
      rw [hl, root_indexNode]

/-- Every node of the settings is as the loader's trees are. -/
theorem settings_all {P : Node → Prop} (h : parse load text = .ok s)
    (hall : ∀ root, load text = .ok (some root) → root.All P) (hs : s.settings = some root) :
    root.All P := by
  obtain ⟨hr, -⟩ := Option.filter_eq_some_iff.1 hs
  exact hall root (by rw [parse_root h, hr])

theorem findPair_value (s : Source) (node : Node) (name : Bytes) :
    (s.findPair node name).map (·.value) = Node.childOf node.pairs name := by
  unfold findPair Node.childOf
  rw [List.find?_eq_bind_findIdx?_getElem?, Option.map_bind, Option.map_bind]
  congr 1
  funext index
  simp only [Function.comp_apply, Option.map_map]
  rfl

theorem nodeAt_some (s : Source) (node : Node) (path : List Bytes) :
    s.nodeAt (some node) path = node.descend path := by
  induction path generalizing node with
  | nil => rfl
  | cons name path ih =>
    rw [nodeAt, findPair_value, Node.descend]
    cases Node.childOf node.pairs name with
    | none =>
      cases path with
      | nil => rfl
      | cons => rfl
    | some child => exact ih child

/-- The flattened map has exactly the leaves. -/
theorem lookup_leaves (hs : s.settings = some root) (hroot : root.All Node.Configurable)
    {path : List Bytes} (hp : Names path) : s.leaves.lookup (joinPath path) = root.leafAt path := by
  have hflat : Flattens [] root.leafAt ∅ (flatten (joinPath []) root ∅) :=
    flattens_flatten (by simp [Names]) ∅ root hroot
  have hf := hflat.1 path hp
  rw [List.nil_append, Finmap.lookup_empty, Option.or_none] at hf
  rw [← hf, leaves, hs]
  rfl

end Source

/-- What a leaf reads as. -/
def reading : Option Bytes → Bytes
  | some value => if value = emptyCollection then [] else value
  | none => []

section Get

variable {load : Loader} {text key : Bytes} {s : Source}

/-- The schema: what the trees of a text may be. -/
def Schema (load : Loader) (text : Bytes) : Prop :=
  ∀ root, load text = .ok (some root) → root.All Node.Configurable

/-- A loader that gives no text to values of no extent. -/
def Loader.Spelled (load : Loader) : Prop :=
  ∀ text root, load text = .ok (some root) → root.All Node.Spelled

/-- Reading a key is looking its leaf up. -/
theorem getRuntimeConfigValue_spec (hl : load.Spelled) (hc : Schema load text)
    (hk : splitKey key = some path) (hs : Source.parse load text = .ok s) :
    getRuntimeConfigValue load text key = {} ∧
        reading (s.leaves.lookup (joinPath path)) = [] ∧
        (∀ value, s.leaves.lookup (joinPath path) = some value →
          value = [] ∨ value = emptyCollection) ∨
      ∃ value, value ≠ emptyCollection ∧ s.leaves.lookup (joinPath path) = some value ∧
        getRuntimeConfigValue load text key = { found := true, value } := by
  obtain ⟨hnames, hne⟩ := splitKey_names hk
  unfold getRuntimeConfigValue
  rw [hk, hs]
  dsimp only
  cases hroot : s.settings with
  | none =>
    left
    have hleaves : s.leaves = ∅ := by rw [Source.leaves, hroot]
    have hnode : s.nodeAt none path = none := by
      cases path with
      | nil => exact absurd rfl hne
      | cons => rfl
    rw [hnode, hleaves, Finmap.lookup_empty]
    exact ⟨rfl, rfl, nofun⟩
  | some root =>
    have hconf := Source.settings_all hs hc hroot
    have hspell := Source.settings_all hs (hl text) hroot
    rw [Source.nodeAt_some, Source.lookup_leaves hroot hconf hnames, Node.leafAt]
    cases hd : root.descend path with
    | none => exact .inl ⟨rfl, rfl, nofun⟩
    | some node =>
      have hnode := (hconf.descend hd).self
      have hempty := (hspell.descend hd).self
      cases node with
      | sequence => exact hnode.elim
      | mapping flow pairs start finish =>
        left
        cases pairs with
        | nil => exact ⟨rfl, rfl, fun value hv => .inr (Option.some.inj hv).symm⟩
        | cons => exact ⟨rfl, rfl, nofun⟩
      | scalar value style start finish =>
        dsimp only
        by_cases hnull : (Node.scalar value style start finish).isNull = true
        · obtain rfl := hempty (by simpa [Node.isNull] using hnull)
          rw [if_pos hnull]
          exact .inl ⟨rfl, rfl, fun value hv => .inl (Option.some.inj hv).symm⟩
        · rw [if_neg hnull]
          exact .inr ⟨value, hnode, rfl, rfl⟩

theorem getRuntimeConfigValue_value (hl : load.Spelled) (hc : Schema load text)
    (hk : splitKey key = some path) (hs : Source.parse load text = .ok s) :
    (getRuntimeConfigValue load text key).value = reading (s.leaves.lookup (joinPath path)) ∧
      (getRuntimeConfigValue load text key).error = [] := by
  rcases getRuntimeConfigValue_spec hl hc hk hs with ⟨hg, hr, -⟩ | ⟨value, hne, hlookup, hg⟩
  · rw [hg, hr]
    exact ⟨rfl, rfl⟩
  · rw [hg, hlookup, reading, if_neg hne]
    exact ⟨rfl, rfl⟩

end Get

/-! What an edit changes. -/

section Change

variable {load : Loader} {text key raw : Bytes} {scalar : Option Bytes} {source : Source}
  {chain : List Pair} {node : Node} {other : List Bytes} {depth : Nat} {replaced : Bool}

/-- An edit either fails, or passed the checks. -/
theorem change_spec (load : Loader) (text key : Bytes) (scalar : Option Bytes) (raw : Bytes) :
    (∃ reason, change load text key scalar raw = fail key reason) ∨
      ∃ path source chain result, splitKey key = some path ∧
        Source.parse load text = .ok source ∧
        source.findChain source.settings path = .ok chain ∧
        Source.parse load (applyEdits text (source.edits chain path scalar).1) = .ok result ∧
        (if scalar.isNone = true then eraseSections path result.leaves else result.leaves) =
          expected path chain.length (source.edits chain path scalar).2 (scalar.map fun _ => raw)
            source.leaves ∧
        change load text key scalar raw =
          { text := applyEdits text (source.edits chain path scalar).1 } := by
  unfold change
  cases hk : splitKey key with
  | none => exact .inl ⟨_, rfl⟩
  | some path =>
    dsimp only
    cases hs : Source.parse load text with
    | error error => exact .inl ⟨_, rfl⟩
    | ok source =>
      dsimp only
      by_cases hm : source.settings.any (!·.isMapping) = true
      · rw [if_pos hm]
        exact .inl ⟨_, rfl⟩
      · rw [if_neg hm]
        cases hchain : source.findChain source.settings path with
        | error reason => exact .inl ⟨_, rfl⟩
        | ok chain =>
          dsimp only
          cases hresult :
            Source.parse load (applyEdits text (source.edits chain path scalar).1) with
          | error error => exact .inl ⟨_, rfl⟩
          | ok result =>
            dsimp only
            by_cases heq : (if scalar.isNone = true then eraseSections path result.leaves
                else result.leaves) = expected path chain.length
                  (source.edits chain path scalar).2 (scalar.map fun _ => raw) source.leaves
            · rw [if_pos heq]
              exact .inr ⟨path, source, chain, result, rfl, rfl, hchain, hresult, heq, rfl⟩
            · rw [if_neg heq]
              exact .inl ⟨_, rfl⟩

theorem fail_error (key reason : Bytes) : (fail key reason).error ≠ [] :=
  List.append_ne_nil_of_left_ne_nil (List.append_ne_nil_of_left_ne_nil
    (List.append_ne_nil_of_left_ne_nil (by decide) _) _) _

theorem change_failed (h : (change load text key scalar raw).error ≠ []) :
    (change load text key scalar raw).text = [] := by
  obtain ⟨reason, hf⟩ | ⟨_, _, _, _, -, -, -, -, -, ht⟩ := change_spec load text key scalar raw
  · rw [hf]
    rfl
  · rw [ht] at h
    exact absurd rfl h

theorem edits_replaced (h : (source.edits chain path scalar).2 = true) :
    ∃ parent, chain.getLast? = some parent ∧ parent.value.isMapping = false := by
  unfold Source.edits at h
  cases scalar with
  | none => cases h
  | some scalar =>
    have hmissing (h : (source.setMissing source.settings chain path scalar).2 = true) :
        ∃ parent, chain.getLast? = some parent ∧ parent.value.isMapping = false := by
      unfold Source.setMissing at h
      cases hlast : chain.getLast? with
      | none =>
        rw [hlast] at h
        cases hset : source.settings <;> rw [hset] at h <;> cases h
      | some parent =>
        rw [hlast] at h
        dsimp only at h
        split_ifs at h with hm
        exact ⟨parent, rfl, by simpa using hm⟩
    dsimp only at h
    split at h
    · split_ifs at h
      exact hmissing h
    · exact hmissing h

/-- The chain leads down the path. -/
theorem findChain_spec (h : source.findChain (some node) path = .ok chain) :
    ∀ parent, chain.getLast? = some parent →
      node.descend (path.take chain.length) = some parent.value := by
  induction path generalizing node chain with
  | nil =>
    cases h
    nofun
  | cons name path ih =>
    unfold Source.findChain at h
    split at h
    · cases h
      nofun
    · rename_i pair hpair
      have hchild : Node.childOf node.pairs name = some pair.value := by
        rw [← source.findPair_value, hpair]
        rfl
      split_ifs at h
      split at h
      · rename_i tail htail
        cases h
        intro parent hlast
        rw [List.length_cons, List.take_succ_cons, Node.descend, hchild]
        cases tail with
        | nil =>
          cases hlast
          rfl
        | cons next tail => exact ih htail parent hlast
      · cases h

theorem lookup_foldl_erase {counts : List Nat} {f : Nat → Bytes} {k : Bytes} (m : Leaves)
    (h : ∀ n ∈ counts, f n ≠ k) :
    (counts.foldl (fun m n => m.erase (f n)) m).lookup k = m.lookup k := by
  induction counts generalizing m with
  | nil => rfl
  | cons n counts ih =>
    rw [List.forall_mem_cons] at h
    rw [List.foldl_cons, ih _ h.2, Finmap.lookup_erase_ne h.1.symm]

/-- Only sections on the way are taken out. -/
theorem lookup_eraseSections (hp : Names path) (ho : Names other)
    (h : ∀ n, n < path.length → path.take n ≠ other) :
    (eraseSections path leaves).lookup (joinPath other) = leaves.lookup (joinPath other) := by
  refine lookup_foldl_erase leaves fun n hn hj => ?_
  rw [List.mem_range'_1] at hn
  exact h n (by omega) (joinPath_injective (hp.take n) ho hj)

theorem take_ne_self {n : Nat} (h : n < path.length) : path.take n ≠ path := by
  intro heq
  have hlen := congrArg List.length heq
  rw [List.length_take] at hlen
  omega

theorem take_ne_of_not_prefix {n : Nat} (h : ¬ other <+: path) : path.take n ≠ other := by
  rintro rfl
  exact h (List.take_prefix _ _)

/-- Nothing else is expected to change. -/
theorem lookup_expected_other {raw : Option Bytes} (hp : Names path) (hne : path ≠ [])
    (ho : Names other) (h : ¬ path <+: other) (h' : ¬ other <+: path)
    (hdepth : replaced = true → path.take depth ≠ [] ∧
      (path.take depth <+: other → leaves.lookup (joinPath other) = none)) :
    (expected path depth replaced raw leaves).lookup (joinPath other) =
      leaves.lookup (joinPath other) := by
  have hself : (eraseSubtree (joinPath path) leaves).lookup (joinPath other) =
      leaves.lookup (joinPath other) := lookup_eraseBelow_of_not hp.isName ho.isName hne h
  have hreplaced : (if replaced then
      eraseSubtree (joinPath (path.take depth)) (eraseSubtree (joinPath path) leaves)
      else eraseSubtree (joinPath path) leaves).lookup (joinPath other) =
        leaves.lookup (joinPath other) := by
    cases replaced with
    | false => exact hself
    | true =>
      obtain ⟨htake, hnone⟩ := hdepth rfl
      rw [if_pos rfl]
      by_cases hpre : path.take depth <+: other
      · rw [eraseSubtree, lookup_eraseBelow, hself, hnone hpre, ite_self]
      · exact (lookup_eraseBelow_of_not (hp.take depth).isName ho.isName htake hpre).trans hself
  have hsections : (eraseSections path (if replaced then
      eraseSubtree (joinPath (path.take depth)) (eraseSubtree (joinPath path) leaves)
      else eraseSubtree (joinPath path) leaves)).lookup (joinPath other) = _ :=
    lookup_eraseSections hp ho fun n _ => take_ne_of_not_prefix h'
  unfold expected
  dsimp only
  cases raw with
  | none => exact hsections.trans hreplaced
  | some raw =>
    rw [Finmap.lookup_insert_of_ne]
    · exact hsections.trans hreplaced
    · intro hj
      exact h (joinPath_injective ho hp hj ▸ List.prefix_refl _)

/-- The key itself is expected to be as asked. -/
theorem lookup_expected_self {raw : Option Bytes} (hp : Names path) :
    (expected path depth replaced raw leaves).lookup (joinPath path) = raw := by
  unfold expected
  dsimp only
  cases raw with
  | some raw => exact Finmap.lookup_insert _
  | none =>
    refine (lookup_eraseSections hp hp fun n hn => take_ne_self hn).trans ?_
    have hself : (eraseSubtree (joinPath path) leaves).lookup (joinPath path) = none :=
      lookup_eraseBelow_self
    cases replaced with
    | false => exact hself
    | true =>
      rw [if_pos rfl, eraseSubtree, lookup_eraseBelow, hself, ite_self]

end Change

/-! The claims about an edit. -/

/-- Neither key leads to the other. -/
def Unrelated (key key' : Bytes) : Prop :=
  ∀ path path', splitKey key = some path → splitKey key' = some path' →
    ¬ path <+: path' ∧ ¬ path' <+: path

/-- The key reads the same in both texts; an absent value reads as the empty one. -/
def SameReading (load : Loader) (text result key : Bytes) : Prop :=
  (getRuntimeConfigValue load result key).value = (getRuntimeConfigValue load text key).value ∧
    (getRuntimeConfigValue load result key).error = (getRuntimeConfigValue load text key).error

/-- An edit of one key: a failed one has no text, one that succeeds leaves the key as it is meant to
be and every unrelated key as it was. -/
def EditsOnly (load : Loader) (text key : Bytes) (edit : RuntimeConfigEdit)
    (Meant : RuntimeConfigValue → Prop) : Prop :=
  (edit.error ≠ [] → edit.text = []) ∧
  (edit.error = [] → Schema load text → Schema load edit.text →
    Meant (getRuntimeConfigValue load edit.text key) ∧
    ∀ key', Unrelated key key' → SameReading load text edit.text key')

/-- Setting a key: it is found with the value, and may be absent only if that is empty. -/
def SetsOnly (load : Loader) (text key value : Bytes) : Prop :=
  EditsOnly load text key (setRuntimeConfigString load text key value) fun result =>
    result = { found := true, value } ∨ value = [] ∧ result = {}

/-- Unsetting a key: it is not found. -/
def UnsetsOnly (load : Loader) (text key : Bytes) : Prop :=
  EditsOnly load text key (unsetRuntimeConfigValue load text key) fun result => result = {}

section Edit

variable {load : Loader} {text key raw : Bytes} {scalar : Option Bytes}

theorem sameReading_of_split {result key' : Bytes} (h : splitKey key' = none) :
    SameReading load text result key' := by
  unfold SameReading getRuntimeConfigValue
  rw [h]
  exact ⟨rfl, rfl⟩

/-- What makes way for a section has nothing below it. -/
theorem replaced_below {source : Source} {chain : List Pair} {other : List Bytes}
    (hs : Source.parse load text = .ok source) (hc : Schema load text) (ho : Names other)
    (hchain : source.findChain source.settings path = .ok chain) (h : ¬ other <+: path)
    (hr : (source.edits chain path scalar).2 = true) :
    path.take chain.length ≠ [] ∧
      (path.take chain.length <+: other → source.leaves.lookup (joinPath other) = none) := by
  obtain ⟨parent, hlast, hm⟩ := edits_replaced hr
  have hne : chain ≠ [] := by
    rintro rfl
    cases hlast
  cases hroot : source.settings with
  | none =>
    rw [hroot, Source.findChain] at hchain
    cases hchain
    exact absurd rfl hne
  | some root =>
    rw [hroot] at hchain
    have hd := findChain_spec hchain parent hlast
    refine ⟨fun htake => ?_, fun hpre => ?_⟩
    · cases path with
      | nil =>
        cases hchain
        exact hne rfl
      | cons name path =>
        cases chain with
        | nil => exact hne rfl
        | cons => cases htake
    · obtain ⟨rest, rfl⟩ := hpre
      rw [Source.lookup_leaves hroot (Source.settings_all hs hc hroot) ho]
      refine Node.leafAt_below hd hm ?_
      rintro rfl
      rw [List.append_nil] at h
      exact h (List.take_prefix _ _)

/-- The edit leaves the key with the leaf it is meant to have, and all unrelated ones alone. -/
theorem change_editsOnly (hl : load.Spelled) {Meant : RuntimeConfigValue → Prop}
    (hmeant : ∀ result path s, Schema load result → splitKey key = some path →
      Source.parse load result = .ok s →
      s.leaves.lookup (joinPath path) = scalar.map (fun _ => raw) →
      Meant (getRuntimeConfigValue load result key)) :
    EditsOnly load text key (change load text key scalar raw) Meant := by
  refine ⟨change_failed, fun herror hct hcr => ?_⟩
  obtain ⟨reason, hf⟩ | ⟨path, source, chain, result, hk, hs, hchain, hresult, heq, hedit⟩ :=
    change_spec load text key scalar raw
  · rw [hf] at herror
    exact absurd herror (fail_error _ _)
  rw [hedit] at hcr ⊢
  dsimp only at hcr ⊢
  obtain ⟨hnames, hne⟩ := splitKey_names hk
  have hlookup (other : List Bytes) (ho : Names other)
      (hsec : ∀ n, n < path.length → path.take n ≠ other) :
      result.leaves.lookup (joinPath other) = (expected path chain.length
        (source.edits chain path scalar).2 (scalar.map fun _ => raw) source.leaves).lookup
          (joinPath other) := by
    rw [← heq]
    cases scalar with
    | some scalar => rfl
    | none => exact (lookup_eraseSections hnames ho hsec).symm
  refine ⟨hmeant _ path result hcr hk hresult ?_, fun key' hunrelated => ?_⟩
  · rw [hlookup path hnames fun n hn => take_ne_self hn, lookup_expected_self hnames]
  · cases hk' : splitKey key' with
    | none => exact sameReading_of_split hk'
    | some other =>
      obtain ⟨h, h'⟩ := hunrelated path other hk hk'
      obtain ⟨ho, -⟩ := splitKey_names hk'
      have hsame : result.leaves.lookup (joinPath other) =
          source.leaves.lookup (joinPath other) :=
        (hlookup other ho fun n _ => take_ne_of_not_prefix h').trans
          (lookup_expected_other hnames hne ho h h' (replaced_below hs hct ho hchain h'))
      obtain ⟨hvalue, herror⟩ := getRuntimeConfigValue_value hl hcr hk' hresult
      obtain ⟨hvalue', herror'⟩ := getRuntimeConfigValue_value hl hct hk' hs
      exact ⟨by rw [hvalue, hvalue', hsame], by rw [herror, herror']⟩

theorem setRuntimeConfigString_setsOnly (hl : load.Spelled) (text key : Bytes) {value : Bytes}
    (hv : value ≠ emptyCollection) : SetsOnly load text key value := by
  refine change_editsOnly hl fun result path s hc hk hs hlookup => ?_
  rcases getRuntimeConfigValue_spec hl hc hk hs with ⟨hg, -, hempty⟩ | ⟨value', -, hlookup', hg⟩
  · rcases hempty value hlookup with h | h
    · exact .inr ⟨h, hg⟩
    · exact absurd h hv
  · obtain rfl := Option.some.inj (hlookup'.symm.trans hlookup)
    exact .inl hg

theorem unsetRuntimeConfigValue_unsetsOnly (hl : load.Spelled) (text key : Bytes) :
    UnsetsOnly load text key := by
  refine change_editsOnly hl fun result path s hc hk hs hlookup => ?_
  rcases getRuntimeConfigValue_spec hl hc hk hs with ⟨hg, -⟩ | ⟨value', -, hlookup', -⟩
  · exact hg
  · exact nomatch hlookup'.symm.trans hlookup

end Edit

/-- An edit changes its key only, unless the value is the mark of an empty section, for a loader
that gives no text to values of no extent. -/
theorem runtimeConfigEdit_only (load : Loader) (hl : load.Spelled) (text key : Bytes) :
    (∀ value, value ≠ emptyCollection → SetsOnly load text key value) ∧
      UnsetsOnly load text key :=
  ⟨fun _ hv => setRuntimeConfigString_setsOnly hl text key hv,
    unsetRuntimeConfigValue_unsetsOnly hl text key⟩

/-- The pairs of the lines `name: value`, with libyaml's marks; the other lines set nothing. -/
def settingPairs : Nat → Nat → List Bytes → List (Node × Node)
  | _, _, [] => []
  | index, row, line :: lines =>
    let pairs := settingPairs (index + line.length + 1) (row + 1) lines
    let name := line.takeWhile isKeyCharacter
    let value := line.drop (name.length + 2)
    let column := name.length + 2
    if name.isEmpty then pairs
    else
      (.scalar name .plain ⟨index, row, 0⟩ ⟨index + name.length, row, name.length⟩,
        .scalar value .plain ⟨index + column, row, column⟩
          ⟨index + column + value.length, row, column + value.length⟩) :: pairs

/-- Reads lines of settings, comments and nothing else. -/
def settingsLoader : Loader := fun text =>
  let lines := text.splitOn (chr '\n')
  match settingPairs 0 0 lines with
  | [] => .ok none
  | pair :: pairs =>
    .ok (some (.mapping false (pair :: pairs) pair.1.start ⟨text.length, lines.length - 1, 0⟩))

theorem settingPairs_spelled (index row : Nat) (lines : List Bytes) :
    Node.AllPairs Node.Spelled (settingPairs index row lines) := by
  induction lines generalizing index row with
  | nil => trivial
  | cons line lines ih =>
    unfold settingPairs
    simp only
    split
    · exact ih _ _
    · refine ⟨fun hnull => ?_, ih _ _⟩
      dsimp only at hnull ⊢
      exact List.eq_nil_of_length_eq_zero (by omega)

theorem settingsLoader_spelled : settingsLoader.Spelled := by
  intro text root hroot
  unfold settingsLoader at hroot
  have hpairs := settingPairs_spelled 0 0 (text.splitOn (chr '\n'))
  simp only at hroot
  split at hroot
  · cases hroot
  · next pair pairs heq =>
    rw [heq] at hpairs
    rw [← Option.some.inj (Except.ok.inj hroot)]
    exact ⟨trivial, hpairs⟩

/-- A file with a comment and two settings. -/
def twoSettings : Bytes := bytes "# frames\nfps: 60\nscale: 2\n"

/-- One setting of a file is changed, and another one taken out of it. -/
theorem runtimeConfigEdit_only_settings :
    (SetsOnly settingsLoader twoSettings (bytes "scale") (bytes "3") ∧
      setRuntimeConfigString settingsLoader twoSettings (bytes "scale") (bytes "3") =
        { text := bytes "# frames\nfps: 60\nscale: 3\n" }) ∧
      UnsetsOnly settingsLoader twoSettings (bytes "fps") ∧
        unsetRuntimeConfigValue settingsLoader twoSettings (bytes "fps") =
          { text := bytes "# frames\n# fps: 60\nscale: 2\n" } :=
  ⟨⟨(runtimeConfigEdit_only _ settingsLoader_spelled _ _).1 _ (by decide), by decide +kernel⟩,
    (runtimeConfigEdit_only _ settingsLoader_spelled _ _).2, by decide +kernel⟩

/-- The tree of `a: ` and a value. -/
def oneSetting (value : Node) : Node :=
  .mapping false [(.scalar (bytes "a") .plain { index := 0 } { index := 1 }, value)] {} {}

theorem oneSetting_all {P : Node → Prop} {value : Node} (h : P (oneSetting value))
    (hv : value.All P) : (oneSetting value).All P := ⟨h, hv, trivial⟩

/-- Reads `a: x`, and what an edit makes of it, as a tree with one value. -/
def oneSettingLoader (value : Bytes → Node) : Loader := fun text =>
  if text = [] then .ok none else .ok (some (oneSetting (value text)))

theorem oneSettingLoader_spelled {value : Bytes → Node}
    (h : ∀ text, (value text).All Node.Spelled) :
    (oneSettingLoader value).Spelled := by
  intro text root hroot
  unfold oneSettingLoader at hroot
  split_ifs at hroot
  · cases hroot
  · rw [← Option.some.inj (Except.ok.inj hroot)]
    exact oneSetting_all trivial (h text)

/-- An empty section stands for the mark of one, and a value of no extent is not found. -/
theorem setRuntimeConfigString_unread :
    (∃ load : Loader, load.Spelled ∧ ¬ SetsOnly load [] (bytes "a") emptyCollection) ∧
      ∃ load : Loader, ¬ SetsOnly load [] (bytes "a") (bytes "x") := by
  refine ⟨⟨oneSettingLoader fun _ => .mapping true [] {} {}, oneSettingLoader_spelled fun _ =>
      ⟨trivial, trivial⟩, fun h => ?_⟩,
    ⟨oneSettingLoader fun _ => .scalar (bytes "x") .plain {} {}, fun h => ?_⟩⟩
  · have hread := (h.2 (by decide +kernel) ?_ ?_).1
    · exact absurd hread (by decide +kernel)
    · intro root hroot
      cases hroot
    · intro root hroot
      cases hroot
      exact ⟨⟨by decide, by decide⟩, ⟨⟨by decide, by decide⟩, trivial⟩, trivial⟩
  · have hread := (h.2 (by decide +kernel) ?_ ?_).1
    · exact absurd hread (by decide +kernel)
    · intro root hroot
      cases hroot
    · intro root hroot
      cases hroot
      refine oneSetting_all ⟨by decide, by decide⟩ ?_
      exact show bytes "x" ≠ emptyCollection by decide

end Nightcap.Config
