/-
Module: Foundation.Table
Purpose: Finite tables of rows with pairwise distinct keys, kept in a row order
  that lookups never depend on.
Main exports: Table, Table.find?, Table.put, Table.erase, Table.find?_put_self
-/
import Mathlib.Data.List.Nodup

namespace ScoreOrchestrator.Foundation

/-- Rows whose keys are pairwise distinct.  The row order is data: it is the
order in which a listing returns them. -/
structure Table {α κ : Type} (key : α → κ) where
  rows : List α
  nodup : (rows.map key).Nodup

namespace Table

variable {α κ : Type} {key : α → κ} {wanted : κ} {row : α}

@[ext] theorem ext {first second : Table key} (same : first.rows = second.rows) :
    first = second := by
  cases first
  cases second
  cases same
  rfl

instance [DecidableEq α] : DecidableEq (Table key) := fun first second =>
  decidable_of_iff (first.rows = second.rows)
    ⟨Table.ext, fun same => same ▸ rfl⟩

instance : Inhabited (Table key) := ⟨⟨[], by simp⟩⟩

/-- The table without rows. -/
def empty : Table key := ⟨[], by simp⟩

variable [DecidableEq κ]

/-- The row stored under a key. -/
def find? (table : Table key) (wanted : κ) : Option α :=
  table.rows.find? fun row => key row = wanted

/-- Store a row: in the place of the row with its key, or else at the end. -/
def put (table : Table key) (row : α) : Table key :=
  if present : key row ∈ table.rows.map key then
    { rows := table.rows.map fun old => if key old = key row then row else old
      nodup := by
        have same :
            (table.rows.map fun old => if key old = key row then row else old).map
              key = table.rows.map key := by
          rw [List.map_map]
          apply List.map_congr_left
          intro old _
          by_cases equal : key old = key row <;> simp [equal]
        rw [same]
        exact table.nodup }
  else
    { rows := table.rows ++ [row]
      nodup := by
        rw [List.map_append, List.nodup_append]
        refine ⟨table.nodup, by simp, ?_⟩
        intro first firstMember second secondMember
        simp only [List.map_cons, List.map_nil, List.mem_singleton]
          at secondMember
        subst secondMember
        exact fun equal => present (equal ▸ firstMember) }

/-- Drop the row stored under a key, if any. -/
def erase (table : Table key) (unwanted : κ) : Table key where
  rows := table.rows.filter fun row => key row ≠ unwanted
  nodup := (List.filter_sublist.map key).nodup table.nodup

/-- The table of a list of rows; a later row replaces an earlier one with its
key. -/
def ofRows (rows : List α) : Table key := rows.foldl Table.put empty

omit [DecidableEq κ] in
/-- Two rows with one key are one row. -/
theorem eq_of_key_eq (table : Table key) {first second : α} (firstMember : first ∈ table.rows)
    (secondMember : second ∈ table.rows) (same : key first = key second) : first = second :=
  List.inj_on_of_nodup_map table.nodup firstMember secondMember same

variable {table : Table key}

theorem find?_eq_some : table.find? wanted = some row ↔ row ∈ table.rows ∧ key row = wanted := by
  constructor
  · intro found
    exact ⟨List.mem_of_find?_eq_some found, by simpa using List.find?_some found⟩
  · rintro ⟨member, rfl⟩
    cases found : table.find? (key row) with
    | none =>
      have absent := List.find?_eq_none.mp found row member
      simp at absent
    | some other =>
      have otherMember := List.mem_of_find?_eq_some found
      have otherKey : key other = key row := by
        simpa using List.find?_some found
      rw [table.eq_of_key_eq otherMember member otherKey]

theorem find?_eq_none : table.find? wanted = none ↔ ∀ row ∈ table.rows, key row ≠ wanted := by
  simp [find?]

theorem find?_of_mem (member : row ∈ table.rows) : table.find? (key row) = some row :=
  find?_eq_some.mpr ⟨member, rfl⟩

/-- The rows with one key, as a list. -/
theorem filter_key (table : Table key) (wanted : κ) :
    table.rows.filter (fun row => key row = wanted) = (table.find? wanted).toList := by
  obtain ⟨rows, distinct⟩ := table
  unfold find?
  induction rows with
  | nil => rfl
  | cons row rest ih =>
    obtain ⟨fresh, later⟩ := List.nodup_cons.mp distinct
    by_cases same : key row = wanted
    · have others : rest.filter (fun row => key row = wanted) = [] := by
        rw [List.filter_eq_nil_iff]
        intro other member named
        have repeated : key other = key row := (of_decide_eq_true named).trans same.symm
        exact fresh (List.mem_map.mpr ⟨other, member, repeated⟩)
      simp [same, others]
    · simpa [same] using ih later

/-- After a put the table holds the new row and the old rows under other
keys. -/
theorem mem_put {other : α} :
    other ∈ (table.put row).rows ↔ other = row ∨ other ∈ table.rows ∧ key other ≠ key row := by
  unfold put
  split
  next present =>
    simp only [List.mem_map]
    constructor
    · rintro ⟨old, member, rfl⟩
      by_cases equal : key old = key row <;> simp [equal, member]
    · rintro (rfl | ⟨member, different⟩)
      · obtain ⟨old, member, equal⟩ := List.mem_map.mp present
        exact ⟨old, member, by simp [equal]⟩
      · exact ⟨other, member, by simp [different]⟩
  next absent =>
    simp only [List.mem_append, List.mem_singleton]
    constructor
    · rintro (member | rfl)
      · refine .inr ⟨member, fun equal => absent ?_⟩
        exact equal ▸ List.mem_map_of_mem member
      · exact .inl rfl
    · rintro (rfl | ⟨member, _⟩)
      · exact .inr rfl
      · exact .inl member

theorem mem_erase {unwanted : κ} :
    row ∈ (table.erase unwanted).rows ↔ row ∈ table.rows ∧ key row ≠ unwanted := by
  simp [erase]

@[simp] theorem find?_empty (wanted : κ) : (empty : Table key).find? wanted = none := rfl

@[simp] theorem find?_put_self (table : Table key) (row : α) :
    (table.put row).find? (key row) = some row :=
  find?_eq_some.mpr ⟨mem_put.mpr (.inl rfl), rfl⟩

theorem find?_put_of_ne (table : Table key) (different : wanted ≠ key row) :
    (table.put row).find? wanted = table.find? wanted := by
  apply Option.ext
  intro other
  rw [find?_eq_some, find?_eq_some, mem_put]
  constructor
  · rintro ⟨rfl | ⟨member, _⟩, rfl⟩
    · exact absurd rfl different
    · exact ⟨member, rfl⟩
  · rintro ⟨member, rfl⟩
    exact ⟨.inr ⟨member, different⟩, rfl⟩

theorem find?_erase_of_ne (table : Table key) {unwanted : κ} (different : wanted ≠ unwanted) :
    (table.erase unwanted).find? wanted = table.find? wanted := by
  apply Option.ext
  intro row
  rw [find?_eq_some, find?_eq_some, mem_erase]
  constructor
  · rintro ⟨⟨member, _⟩, rfl⟩
    exact ⟨member, rfl⟩
  · rintro ⟨member, rfl⟩
    exact ⟨⟨member, different⟩, rfl⟩

/-- Looking up after a put, by cases on the key. -/
theorem find?_put (table : Table key) (row : α) (wanted : κ) :
    (table.put row).find? wanted =
      if wanted = key row then some row else table.find? wanted := by
  split
  next same => rw [same, find?_put_self]
  next different => rw [find?_put_of_ne table different]

/-- A list of rows is looked up from its end. -/
theorem find?_foldl_put (rows : List α) (table : Table key) (wanted : κ) :
    (rows.foldl put table).find? wanted =
      (rows.reverse.find? fun row => key row = wanted).or (table.find? wanted) := by
  induction rows generalizing table with
  | nil => simp
  | cons row rest ih =>
    rw [List.foldl_cons, ih, find?_put, List.reverse_cons,
      List.find?_append, Option.or_assoc]
    congr 1
    by_cases same : wanted = key row
    · simp [same]
    · simp [same, Ne.symm same]

theorem find?_ofRows (rows : List α) (wanted : κ) :
    (ofRows rows : Table key).find? wanted = rows.reverse.find? fun row => key row = wanted := by
  rw [ofRows, find?_foldl_put, find?_empty, Option.or_none]

theorem rows_foldl_put {rows : List α} (distinct : ((table.rows ++ rows).map key).Nodup) :
    (rows.foldl put table).rows = table.rows ++ rows := by
  induction rows generalizing table with
  | nil => simp
  | cons row rows ih =>
    have absent : key row ∉ table.rows.map key := by
      rw [List.map_append, List.map_cons] at distinct
      intro present
      exact (List.nodup_append.mp distinct).2.2 _ present _ (.head _) rfl
    have stored : (table.put row).rows = table.rows ++ [row] := by
      rw [put, dif_neg absent]
    rw [List.foldl_cons, ih] <;> simp [stored]
    simpa using distinct

/-- Storing the rows of a table one by one gives the table again. -/
theorem ofRows_rows (table : Table key) : ofRows table.rows = table :=
  ext (rows_foldl_put table.nodup)

end Table

end ScoreOrchestrator.Foundation
