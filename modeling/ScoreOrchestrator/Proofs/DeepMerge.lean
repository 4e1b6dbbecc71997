/-
Module: Proofs.DeepMerge
Purpose: The merge of Go maps comes to the deep merge from left to right, in whatever order
  the maps are ranged over, and what it has at every path.
-/
import ScoreOrchestrator.Reconcile.Values

namespace ScoreOrchestrator.Reconcile

open Foundation
open Nested (mergeOption)

variable {Leaf : Type} {order : IterOrder} {maps : List (GoMap (Nested Leaf))}

/-- All maps merged, from left to right. -/
def mergeAll (maps : List (GoMap (Nested Leaf))) : Nested Leaf :=
  maps.foldl (fun merged m => merged.deepMerge (.ofTable m)) (.ofTable .empty)

theorem mergeAll_append (maps : List (GoMap (Nested Leaf))) (m : GoMap (Nested Leaf)) :
    mergeAll (maps ++ [m]) = (mergeAll maps).deepMerge (.ofTable m) := by
  simp [mergeAll]

/-! ### The loops -/

theorem get?_ofTable (entries : GoMap (Nested Leaf)) (key : String) :
    (Nested.ofTable entries).get? key = entries.get? key :=
  Nested.get?_ofTable entries key

theorem deepMerge_empty (m : GoMap (Nested Leaf)) :
    (Nested.ofTable (.empty : GoMap (Nested Leaf))).deepMerge (.ofTable m) = .ofTable m := by
  refine Nested.ext_get? ?_ rfl fun key => ?_
  · rw [Nested.isNode_deepMerge]
    rfl
  · rw [Nested.get?_deepMerge rfl rfl, get?_ofTable]
    rfl

/-- The inner call does what is expected of it for maps nested at most so deep. -/
def Merges (merge : List (GoMap (Nested Leaf)) → GoMap (Nested Leaf)) (bound : Nat) : Prop :=
  ∀ first second : GoMap (Nested Leaf), (Nested.ofTable first).depth ≤ bound →
    (Nested.ofTable second).depth ≤ bound →
    Nested.ofTable (merge [first, second]) =
      (Nested.ofTable first).deepMerge (.ofTable second)

section

variable {merge : List (GoMap (Nested Leaf)) → GoMap (Nested Leaf)} {bound : Nat}
  {result : GoMap (Nested Leaf)}

/-- One turn of the inner loop puts the merge of both values. -/
theorem mergeEntry_eq (merges : Merges merge bound) {entry : String × Nested Leaf}
    (shallow : entry.2.depth ≤ bound)
    (shallow' : ∀ existing, result.get? entry.1 = some existing → existing.depth ≤ bound) :
    ∃ merged, mergeEntry merge result entry = result.set entry.1 merged ∧
      some merged = mergeOption (result.get? entry.1) (some entry.2) := by
  unfold mergeEntry
  cases found : result.get? entry.1 with
  | none => exact ⟨_, rfl, rfl⟩
  | some existing =>
    dsimp only
    cases first : existing.table? with
    | none =>
      refine ⟨_, rfl, ?_⟩
      cases existing with
      | leaf => simp [mergeOption]
      | node => cases first
    | some existingMap =>
      cases second : entry.2.table? with
      | none =>
        refine ⟨_, rfl, ?_⟩
        cases inner : entry.2 with
        | leaf => simp [mergeOption]
        | node => rw [inner] at second; cases second
      | some valueMap =>
        refine ⟨_, rfl, ?_⟩
        have firstIs := Nested.ofTable_of_table? first
        have secondIs := Nested.ofTable_of_table? second
        rw [merges existingMap valueMap (firstIs ▸ shallow' existing found)
          (secondIs ▸ shallow), firstIs, secondIs]
        rfl

/-- The inner loop merges the entries of one map, each under its key. -/
theorem get?_mergeEntries (merges : Merges merge bound) {rows : List (String × Nested Leaf)}
    (distinct : (rows.map Prod.fst).Nodup) (shallow : ∀ row ∈ rows, row.2.depth ≤ bound)
    (shallow' : ∀ key existing, result.get? key = some existing → existing.depth ≤ bound)
    (key : String) :
    (rows.foldl (mergeEntry merge) result).get? key =
      mergeOption (result.get? key) ((GoMap.ofList rows).get? key) := by
  induction rows generalizing result with
  | nil => simp [GoMap.get?_ofList]
  | cons row rest ih =>
    obtain ⟨fresh, later⟩ := List.nodup_cons.mp distinct
    obtain ⟨merged, put, both⟩ := mergeEntry_eq merges (shallow row (.head _))
      (shallow' row.1)
    have deeper : ∀ key existing, (result.set row.1 merged).get? key = some existing →
        existing.depth ≤ bound := by
      intro key existing found
      rw [GoMap.get?_set] at found
      split at found
      · obtain rfl := Option.some.inj found
        refine Nested.depth_mergeOption (shallow' row.1) ?_ both.symm
        rintro value same
        exact Option.some.inj same ▸ shallow row (.head _)
      · exact shallow' key existing found
    rw [List.foldl_cons, put,
      ih later (fun row member => shallow row (.tail _ member)) deeper,
      GoMap.get?_set, GoMap.get?_ofList_cons]
    by_cases here : key = row.1
    · subst here
      have absent : (GoMap.ofList rest).get? row.1 = none := by
        rw [Option.eq_none_iff_forall_ne_some]
        intro value found
        have member := (GoMap.get?_ofList_eq_some later).mp found
        exact fresh (List.mem_map.mpr ⟨_, member, rfl⟩)
      simp [absent, both]
    · simp [here]

/-- The outer loop merges one map after the other. -/
theorem ofTable_mergeTables (merges : Merges merge bound)
    (shallow : ∀ m ∈ maps, (Nested.ofTable m).depth ≤ bound + 1)
    (shallow' : (Nested.ofTable result).depth ≤ bound + 1) :
    Nested.ofTable (maps.foldl
        (fun result m => (order.range m).foldl (mergeEntry merge) result) result) =
      maps.foldl (fun merged m => merged.deepMerge (.ofTable m)) (.ofTable result) := by
  induction maps generalizing result with
  | nil => rfl
  | cons m rest ih =>
    have entries : ∀ key existing, result.get? key = some existing → existing.depth ≤ bound := by
      intro key existing found
      exact Nested.depth_le_succ.mp shallow' key existing
        ((get?_ofTable result key).trans found)
    have values : ∀ row ∈ order.range m, row.2.depth ≤ bound := by
      intro row member
      refine Nested.depth_le_succ.mp (shallow m (.head _)) row.1 row.2 ?_
      rw [get?_ofTable]
      exact GoMap.get?_eq_some.mpr (IterOrder.mem_range.mp member)
    have one : Nested.ofTable ((order.range m).foldl (mergeEntry merge) result) =
        (Nested.ofTable result).deepMerge (.ofTable m) := by
      refine Nested.ext_get? rfl (Nested.isNode_deepMerge _ _) fun key => ?_
      rw [Nested.get?_deepMerge rfl rfl, get?_ofTable, get?_ofTable, get?_ofTable,
        get?_mergeEntries merges (order.nodup_range m) values entries,
        order.get?_ofList_range]
    have later := ih (fun m member => shallow m (.tail _ member))
      (one ▸ Nested.depth_deepMerge shallow' (shallow m (.head _)))
    rw [List.foldl_cons, List.foldl_cons, later, one]

end

/-- With fuel for the deepest map, the merge is the deep merge from left to right. -/
theorem ofTable_mergeMapsWithin {fuel : Nat}
    (enough : ∀ m ∈ maps, (Nested.ofTable m).depth ≤ fuel) :
    Nested.ofTable (mergeMapsWithin order fuel maps) = mergeAll maps := by
  induction fuel generalizing maps with
  | zero =>
    cases maps with
    | nil => rfl
    | cons m rest =>
      have isLeaf := Nested.isNode_of_depth (enough m (.head _))
      cases isLeaf
  | succ fuel ih =>
    have merges : Merges (fun maps : List (GoMap (Nested Leaf)) =>
        mergeMapsWithin order fuel maps) fuel := by
      intro first second shallow shallow'
      have pair : Nested.ofTable (mergeMapsWithin order fuel [first, second]) =
          mergeAll [first, second] := ih (by simp [shallow, shallow'])
      rw [pair]
      simp [mergeAll, deepMerge_empty]
    exact ofTable_mergeTables merges enough (by simp [Nested.depth_le_succ])

/-- `mergeMaps` is the deep merge from left to right. -/
theorem ofTable_mergeMaps (order : IterOrder) (maps : List (GoMap (Nested Leaf))) :
    Nested.ofTable (mergeMaps order maps) = mergeAll maps := by
  apply ofTable_mergeMapsWithin
  intro m member
  exact Nested.foldr_max_le.mp le_rfl _ (List.mem_map_of_mem member)

/-! ### Precedence -/

/-- The value at a path below a map. -/
def valueAt (m : GoMap (Nested Leaf)) (path : List String) : Option (Nested Leaf) :=
  (Nested.ofTable m).at? path

/-- One of the maps has this leaf at the path, and none of the later ones has anything
there or a leaf in the way. -/
def Wins (maps : List (GoMap (Nested Leaf))) (path : List String) (value : Leaf) : Prop :=
  ∃ earlier m later, maps = earlier ++ m :: later ∧ valueAt m path = some (.leaf value) ∧
    ∀ other ∈ later, valueAt other path = none ∧ ¬(Nested.ofTable other).Blocks path

/-- What wins when one more map comes last. -/
theorem wins_append {last : GoMap (Nested Leaf)} {path : List String} {value : Leaf} :
    Wins (maps ++ [last]) path value ↔
      valueAt last path = some (.leaf value) ∨
        valueAt last path = none ∧ ¬(Nested.ofTable last).Blocks path ∧
          Wins maps path value := by
  constructor
  · rintro ⟨earlier, m, later, split, found, free⟩
    rcases List.eq_nil_or_concat later with rfl | ⟨front, other, rfl⟩
    · obtain ⟨_, same⟩ := List.append_inj' split rfl
      obtain rfl : last = m := List.singleton_inj.mp same
      exact .inl found
    · rw [List.concat_eq_append, ← List.cons_append, ← List.append_assoc] at split
      obtain ⟨before, same⟩ := List.append_inj' split rfl
      obtain rfl : last = other := List.singleton_inj.mp same
      obtain ⟨absent, open_⟩ := free last (by simp)
      exact .inr ⟨absent, open_, earlier, m, front, before, found,
        fun other member => free other (by simp [member])⟩
  · rintro (found | ⟨absent, open_, earlier, m, later, rfl, found, free⟩)
    · exact ⟨maps, last, [], rfl, found, List.forall_mem_nil _⟩
    · refine ⟨earlier, m, later ++ [last], by simp, found, fun other member => ?_⟩
      rcases List.mem_append.mp member with before | final
      · exact free other before
      · obtain rfl := List.mem_singleton.mp final
        exact ⟨absent, open_⟩

theorem at?_mergeAll_leaf {path : List String} {value : Leaf} (nonempty : path ≠ []) :
    (mergeAll maps).at? path = some (.leaf value) ↔ Wins maps path value := by
  induction maps using List.reverseRecOn with
  | nil =>
    cases path with
    | nil => exact absurd rfl nonempty
    | cons key rest => simp [mergeAll, Nested.at?_cons, Wins]
  | append_singleton maps last ih =>
    rw [mergeAll_append, Nested.at?_deepMerge_leaf, wins_append, ih]
    rfl

/-- The values of a merge that are no maps are just those that win, whatever the maps and
their nesting and whatever the iteration order; and a map merged with itself is that map. -/
theorem mergeMaps_precedence (order : IterOrder) :
    (∀ (maps : List (GoMap (Nested Leaf))) (path : List String) (value : Leaf), path ≠ [] →
      (valueAt (mergeMaps order maps) path = some (.leaf value) ↔ Wins maps path value)) ∧
    ∀ m : GoMap (Nested Leaf), Nested.ofTable (mergeMaps order [m, m]) = .ofTable m := by
  constructor
  · intro maps path value nonempty
    rw [valueAt, ofTable_mergeMaps]
    exact at?_mergeAll_leaf nonempty
  · intro m
    rw [ofTable_mergeMaps]
    simp [mergeAll, deepMerge_empty, Nested.deepMerge_self]

end ScoreOrchestrator.Reconcile
