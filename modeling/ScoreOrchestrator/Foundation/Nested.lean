/-
Module: Foundation.Nested
Purpose: Maps nested in maps to any depth: lookup along a path, the deep merge in which the
  right-hand side wins, and what the merge leaves at every path.
Main exports: Nested, Nested.ext_get?, Nested.at?, Nested.deepMerge, Nested.at?_deepMerge_leaf
-/
import Mathlib.Data.List.Dedup
import Mathlib.Data.List.Sort
import Mathlib.Data.String.Basic
import ScoreOrchestrator.Foundation.Table

namespace ScoreOrchestrator.Foundation

variable {bound : Nat}

/-- A map from texts to such values again, or a leaf.  The keys of a map are sorted, so
that maps with the same entries are one value. -/
inductive Nested (Leaf : Type) where
  | leaf (value : Leaf)
  | node (keys : List String) (sorted : keys.Pairwise (· < ·))
      (value : (key : String) → key ∈ keys → Nested Leaf)

namespace Nested

variable {Leaf : Type}

/-- Is this a map? -/
def isNode : Nested Leaf → Bool
  | .leaf _ => false
  | .node _ _ _ => true

/-- The value under a key. -/
def get? : Nested Leaf → String → Option (Nested Leaf)
  | .leaf _, _ => none
  | .node keys _ value, key =>
    if member : key ∈ keys then some (value key member) else none

@[simp] theorem get?_leaf (value : Leaf) (key : String) : (leaf value).get? key = none := rfl

/-- Two maps with the same entries are equal. -/
theorem ext_get? {first second : Nested Leaf} (firstNode : first.isNode = true)
    (secondNode : second.isNode = true) (same : ∀ key, first.get? key = second.get? key) :
    first = second := by
  cases first with
  | leaf => cases firstNode
  | node keys sorted value =>
    cases second with
    | leaf => cases secondNode
    | node keys' sorted' value' =>
      have members : ∀ key, key ∈ keys ↔ key ∈ keys' := by
        intro key
        have here := congrArg Option.isSome (same key)
        by_cases first : key ∈ keys <;> by_cases second : key ∈ keys' <;>
          simp_all [get?]
      have permuted : keys.Perm keys' :=
        (List.perm_ext_iff_of_nodup (sorted.imp ne_of_lt) (sorted'.imp ne_of_lt)).mpr
          members
      obtain rfl : keys = keys' :=
        permuted.eq_of_pairwise
          (fun _ _ _ _ before after => absurd before (lt_asymm after)) sorted sorted'
      congr 1
      funext key member
      have here := same key
      simpa [get?, member] using here

/-! ### Building maps -/

/-- The map that has some of the given keys, each with the value found for it. -/
def build (keys : List String) (lookup : String → Option (Nested Leaf)) : Nested Leaf :=
  let listed := (keys.filter fun key => (lookup key).isSome).dedup
  .node (listed.insertionSort (· ≤ ·))
    (by
      have distinct : (listed.insertionSort (· ≤ ·)).Nodup :=
        (List.perm_insertionSort _ listed).nodup_iff.mpr (List.nodup_dedup _)
      exact ((List.pairwise_insertionSort (· ≤ ·) listed).and distinct).imp
        fun both => lt_of_le_of_ne both.1 both.2)
    (fun key member => (lookup key).get (by
      have kept := List.mem_dedup.mp ((List.mem_insertionSort _).mp member)
      exact (List.mem_filter.mp kept).2))

@[simp] theorem isNode_build (keys : List String) (lookup : String → Option (Nested Leaf)) :
    (build keys lookup).isNode = true := rfl

theorem get?_build (keys : List String) (lookup : String → Option (Nested Leaf)) (key : String) :
    (build keys lookup).get? key = if key ∈ keys then lookup key else none := by
  simp only [build, get?, List.mem_insertionSort, List.mem_dedup, List.mem_filter]
  by_cases listed : key ∈ keys
  · by_cases found : (lookup key).isSome = true
    · simp [listed, found]
    · have absent : lookup key = none := Option.not_isSome_iff_eq_none.mp found
      simp [absent]
  · simp [listed]

/-- A table as a map. -/
def ofTable (table : Table (Prod.fst : String × Nested Leaf → String)) : Nested Leaf :=
  build (table.rows.map Prod.fst) fun key => (table.find? key).map Prod.snd

@[simp] theorem isNode_ofTable (table : Table (Prod.fst : String × Nested Leaf → String)) :
    (ofTable table).isNode = true := rfl

@[simp] theorem get?_ofTable (table : Table (Prod.fst : String × Nested Leaf → String))
    (key : String) : (ofTable table).get? key = (table.find? key).map Prod.snd := by
  unfold ofTable
  rw [get?_build]
  split
  · rfl
  next unlisted =>
    cases found : table.find? key with
    | none => rfl
    | some row =>
      obtain ⟨member, rfl⟩ := Table.find?_eq_some.mp found
      exact absurd (List.mem_map_of_mem member) unlisted

/-- The entries of a map, if this is one. -/
def table? : Nested Leaf → Option (Table (Prod.fst : String × Nested Leaf → String))
  | .leaf _ => none
  | .node keys sorted value =>
    some
      { rows := keys.attach.map fun key => (key.1, value key.1 key.2)
        nodup := by
          have names : (keys.attach.map fun key => (key.1, value key.1 key.2)).map
              Prod.fst = keys := by
            simp [Function.comp_def]
          rw [names]
          exact sorted.imp ne_of_lt }

variable {value : Nested Leaf}

/-- The entries of a map make up that map. -/
theorem ofTable_of_table? {table : Table (Prod.fst : String × Nested Leaf → String)}
    (entries : value.table? = some table) : ofTable table = value := by
  cases value with
  | leaf => cases entries
  | node keys sorted value =>
    refine ext_get? rfl rfl fun key => ?_
    have rows : table.rows = keys.attach.map fun key => (key.1, value key.1 key.2) := by
      rw [← Option.some.inj entries]
    rw [get?_ofTable]
    by_cases member : key ∈ keys
    · have listed : (key, value key member) ∈ table.rows := by
        rw [rows]
        exact List.mem_map.mpr ⟨⟨key, member⟩, List.mem_attach _ _, rfl⟩
      have found : table.find? key = some (key, value key member) :=
        Table.find?_eq_some.mpr ⟨listed, rfl⟩
      simp [found, get?, member]
    · have absent : table.find? key = none := by
        rw [Table.find?_eq_none, rows]
        intro row listed named
        obtain ⟨other, _, rfl⟩ := List.mem_map.mp listed
        exact member (named ▸ other.2)
      simp [absent, get?, member]

theorem table?_isSome (value : Nested Leaf) : value.table?.isSome = value.isNode := by
  cases value <;> rfl

theorem exists_table (isMap : value.isNode = true) : ∃ table, value.table? = some table :=
  Option.isSome_iff_exists.mp ((table?_isSome value).trans isMap)

/-! ### Folding -/

/-- The value with its leaves and its maps replaced, from the inside out. -/
def fold {Result : Type} (onLeaf : Leaf → Result) (onNode : List (String × Result) → Result) :
    Nested Leaf → Result
  | .leaf value => onLeaf value
  | .node keys _ value =>
    onNode (keys.attach.map fun key => (key.1, fold onLeaf onNode (value key.1 key.2)))

/-- A map is replaced by its entries, each with its value replaced. -/
theorem exists_fold_node {Result : Type} {onLeaf : Leaf → Result}
    {onNode : List (String × Result) → Result} (isMap : value.isNode = true) :
    ∃ rows, value.fold onLeaf onNode = onNode rows ∧ (rows.map Prod.fst).Nodup ∧
      ∀ key result, (key, result) ∈ rows ↔
        ∃ inner, value.get? key = some inner ∧ inner.fold onLeaf onNode = result := by
  cases value with
  | leaf => cases isMap
  | node keys sorted value =>
    refine ⟨_, rfl, ?_, fun key result => ?_⟩
    · have names : (keys.attach.map fun key =>
          (key.1, fold onLeaf onNode (value key.1 key.2))).map Prod.fst = keys := by
        simp [Function.comp_def]
      rw [names]
      exact sorted.imp ne_of_lt
    · constructor
      · intro listed
        obtain ⟨⟨name, member⟩, _, same⟩ := List.mem_map.mp listed
        obtain ⟨rfl, rfl⟩ := Prod.mk.inj same
        exact ⟨value name member, by simp [get?, member], rfl⟩
      · rintro ⟨inner, found, rfl⟩
        by_cases member : key ∈ keys
        · obtain rfl : value key member = inner := by simpa [get?, member] using found
          exact List.mem_map.mpr ⟨⟨key, member⟩, List.mem_attach _ _, rfl⟩
        · simp [get?, member] at found

/-! ### Depth -/

/-- How many maps are nested in each other. -/
def depth : Nested Leaf → Nat
  | .leaf _ => 0
  | .node keys _ value => (keys.attach.map fun key => depth (value key.1 key.2)).foldr max 0 + 1

theorem foldr_max_le {numbers : List Nat} :
    numbers.foldr max 0 ≤ bound ↔ ∀ number ∈ numbers, number ≤ bound := by
  induction numbers with
  | nil => simp
  | cons first rest ih => simp [ih]

theorem depth_le_succ :
    value.depth ≤ bound + 1 ↔ ∀ key inner, value.get? key = some inner → inner.depth ≤ bound := by
  cases value with
  | leaf => simp [depth]
  | node keys sorted value =>
    rw [depth, Nat.add_le_add_iff_right, foldr_max_le]
    constructor
    · intro each key inner found
      by_cases member : key ∈ keys
      · obtain rfl : value key member = inner := by simpa [get?, member] using found
        exact each _ (List.mem_map.mpr ⟨⟨key, member⟩, List.mem_attach _ _, rfl⟩)
      · simp [get?, member] at found
    · intro each number listed
      obtain ⟨⟨key, member⟩, _, rfl⟩ := List.mem_map.mp listed
      exact each key _ (by simp [get?, member])

theorem isNode_of_depth (shallow : value.depth ≤ 0) : value.isNode = false := by
  cases value with
  | leaf => rfl
  | node => simp [depth] at shallow

/-! ### Paths -/

/-- The value at a path. -/
def at? : Nested Leaf → List String → Option (Nested Leaf)
  | value, [] => some value
  | value, key :: rest => (value.get? key).bind fun inner => inner.at? rest

/-- A leaf stands in the way of a path: at a proper beginning of it. -/
def Blocks (value : Nested Leaf) (path : List String) : Prop :=
  ∃ front back found, path = front ++ back ∧ back ≠ [] ∧ value.at? front = some (.leaf found)

@[simp] theorem at?_nil (value : Nested Leaf) : value.at? [] = some value := by
  cases value <;> rfl

theorem at?_cons (value : Nested Leaf) (key : String) (rest : List String) :
    value.at? (key :: rest) = (value.get? key).bind fun inner => inner.at? rest := by
  cases value <;> rfl

theorem blocks_leaf (found : Leaf) (key : String) (rest : List String) :
    (leaf found).Blocks (key :: rest) :=
  ⟨[], key :: rest, found, rfl, by simp, by simp⟩

theorem blocks_cons (isMap : value.isNode = true) (key : String) (rest : List String) :
    value.Blocks (key :: rest) ↔ ∃ inner, value.get? key = some inner ∧ inner.Blocks rest := by
  constructor
  · rintro ⟨front, back, found, split, nonempty, reached⟩
    cases front with
    | nil =>
      rw [at?_nil] at reached
      cases reached
      cases isMap
    | cons first front =>
      obtain ⟨rfl, later⟩ := List.cons_eq_cons.mp split
      rw [at?_cons] at reached
      obtain ⟨inner, here, there⟩ := Option.bind_eq_some_iff.mp reached
      exact ⟨inner, here, front, back, found, later, nonempty, there⟩
  · rintro ⟨inner, here, front, back, found, split, nonempty, there⟩
    refine ⟨key :: front, back, found, by rw [split]; rfl, nonempty, ?_⟩
    rw [at?_cons, here]
    exact there

/-! ### Deep merge -/

/-- Two maps are merged key by key; of two other values the right one is taken. -/
def deepMerge : Nested Leaf → Nested Leaf → Nested Leaf
  | .node keys _ value, .node keys' _ value' =>
    build (keys ++ keys') fun key =>
      if member : key ∈ keys then
        if member' : key ∈ keys' then some (deepMerge (value key member) (value' key member'))
        else some (value key member)
      else if member' : key ∈ keys' then some (value' key member')
      else none
  | _, right => right

@[simp] theorem deepMerge_leaf (left : Nested Leaf) (value : Leaf) :
    left.deepMerge (.leaf value) = .leaf value := by
  cases left <;> rfl

@[simp] theorem leaf_deepMerge (value : Leaf) (right : Nested Leaf) :
    (leaf value).deepMerge right = right := by
  cases right <;> rfl

/-- What a key has after a merge, from what it has on both sides. -/
def mergeOption : Option (Nested Leaf) → Option (Nested Leaf) → Option (Nested Leaf)
  | some left, some right => some (left.deepMerge right)
  | none, right => right
  | left, none => left

@[simp] theorem mergeOption_none (left : Option (Nested Leaf)) : mergeOption left none = left := by
  cases left <;> rfl

@[simp] theorem none_mergeOption (right : Option (Nested Leaf)) :
    mergeOption none right = right := rfl

variable {left right : Nested Leaf}

theorem get?_deepMerge (leftNode : left.isNode = true) (rightNode : right.isNode = true)
    (key : String) :
    (left.deepMerge right).get? key = mergeOption (left.get? key) (right.get? key) := by
  cases left with
  | leaf => cases leftNode
  | node keys sorted value =>
    cases right with
    | leaf => cases rightNode
    | node keys' sorted' value' =>
      rw [deepMerge, get?_build]
      by_cases member : key ∈ keys <;> by_cases member' : key ∈ keys' <;>
        simp [get?, mergeOption, member, member']

theorem isNode_deepMerge (left right : Nested Leaf) :
    (left.deepMerge right).isNode = right.isNode := by
  cases left <;> cases right <;> rfl

theorem depth_deepMerge (shallow : left.depth ≤ bound) (shallow' : right.depth ≤ bound) :
    (left.deepMerge right).depth ≤ bound := by
  induction bound generalizing left right with
  | zero =>
    have isLeaf := isNode_of_depth shallow'
    cases right with
    | leaf => simp [depth]
    | node => cases isLeaf
  | succ bound ih =>
    cases left with
    | leaf => rwa [leaf_deepMerge]
    | node keys sorted value =>
      cases right with
      | leaf => simp [depth]
      | node keys' sorted' value' =>
        rw [depth_le_succ] at shallow shallow' ⊢
        intro key inner found
        rw [get?_deepMerge rfl rfl] at found
        cases here : (node keys sorted value).get? key with
        | none =>
          rw [here] at found
          exact shallow' key inner found
        | some first =>
          cases there : (node keys' sorted' value').get? key with
          | none =>
            rw [here, there] at found
            obtain rfl := Option.some.inj found
            exact shallow key first here
          | some second =>
            rw [here, there] at found
            obtain rfl := Option.some.inj found
            exact ih (shallow key first here)
              (shallow' key second there)

theorem depth_mergeOption {left right : Option (Nested Leaf)} {merged : Nested Leaf}
    (shallow : ∀ value, left = some value → value.depth ≤ bound)
    (shallow' : ∀ value, right = some value → value.depth ≤ bound)
    (both : mergeOption left right = some merged) : merged.depth ≤ bound := by
  cases left with
  | none => exact shallow' merged both
  | some first =>
    cases right with
    | none => exact shallow merged both
    | some second =>
      obtain rfl := Option.some.inj both
      exact depth_deepMerge (shallow first rfl) (shallow' second rfl)

/-- A leaf of a merge is one of the right side, or one of the left side at a path for
which the right side has nothing and no leaf in the way. -/
theorem at?_deepMerge_leaf {path : List String} {value : Leaf} :
    (left.deepMerge right).at? path = some (.leaf value) ↔
      right.at? path = some (.leaf value) ∨
        right.at? path = none ∧ ¬right.Blocks path ∧ left.at? path = some (.leaf value) := by
  induction path generalizing left right with
  | nil =>
    rw [at?_nil, at?_nil]
    cases right with
    | leaf found => simp
    | node keys' sorted' value' =>
      have merged := isNode_deepMerge left (node keys' sorted' value')
      constructor
      · intro same
        rw [Option.some.inj same] at merged
        cases merged
      · rintro (same | ⟨missing, _⟩)
        · cases same
        · cases missing
  | cons key rest ih =>
    cases right with
    | leaf found => simp [at?_cons, blocks_leaf]
    | node keys' sorted' value' =>
      cases left with
      | leaf found => simp [at?_cons]
      | node keys sorted inner =>
        rw [at?_cons, at?_cons, at?_cons, get?_deepMerge rfl rfl, blocks_cons rfl]
        cases (node keys sorted inner).get? key with
        | none => cases (node keys' sorted' value').get? key <;> simp [mergeOption]
        | some first =>
          cases (node keys' sorted' value').get? key with
          | none => simp [mergeOption]
          | some second => simpa [mergeOption] using ih

/-- Where the right side has nothing and no leaf in the way, the left side stays. -/
theorem at?_deepMerge_of_absent {path : List String} (absent : right.at? path = none)
    (unblocked : ¬right.Blocks path) : (left.deepMerge right).at? path = left.at? path := by
  induction path generalizing left right with
  | nil => simp at absent
  | cons key rest ih =>
    cases right with
    | leaf found => exact absurd (blocks_leaf found key rest) unblocked
    | node keys' sorted' value' =>
      cases left with
      | leaf found => rw [leaf_deepMerge, absent, at?_cons, get?_leaf]; rfl
      | node keys sorted value =>
        rw [at?_cons, at?_cons, get?_deepMerge rfl rfl]
        rw [at?_cons] at absent
        rw [blocks_cons rfl] at unblocked
        cases there : (node keys' sorted' value').get? key with
        | none => simp
        | some second =>
          rw [there] at absent unblocked
          cases (node keys sorted value).get? key with
          | none => exact absent
          | some first =>
            refine ih absent fun blocked => ?_
            exact unblocked ⟨second, rfl, blocked⟩

/-- A value merged with itself is that value. -/
theorem deepMerge_self (value : Nested Leaf) : value.deepMerge value = value := by
  induction value with
  | leaf => rfl
  | node keys sorted value ih =>
    refine ext_get? rfl rfl fun key => ?_
    rw [get?_deepMerge rfl rfl]
    by_cases member : key ∈ keys
    · simp [get?, member, mergeOption, ih]
    · simp [get?, member, mergeOption]

end Nested

end ScoreOrchestrator.Foundation
