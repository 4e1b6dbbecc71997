/-
Module: Foundation.Traverse
Purpose: Traversals of a list, and loops over one, with a function that may fail: when
  they succeed, and what their results are.
Main exports: forall₂_of_mapM_ok, exists_mapM_ok, mapM_ok_of_perm, foldlM_ok_keeps
-/
import Mathlib.Data.List.Perm.Basic

namespace ScoreOrchestrator.Foundation

/-! ### Lists related element by element -/

section

variable {α β : Type} {related : α → β → Prop} {items : List α} {results : List β}

theorem exists_left_of_forall₂ (all : List.Forall₂ related items results) {result : β}
    (member : result ∈ results) : ∃ item ∈ items, related item result := by
  induction all with
  | nil => cases member
  | cons head _ ih =>
    rcases List.mem_cons.mp member with rfl | later
    · exact ⟨_, .head _, head⟩
    · obtain ⟨item, itemMember, found⟩ := ih later
      exact ⟨item, .tail _ itemMember, found⟩

theorem exists_right_of_forall₂ (all : List.Forall₂ related items results) {item : α}
    (member : item ∈ items) : ∃ result ∈ results, related item result := by
  induction all with
  | nil => cases member
  | cons head _ ih =>
    rcases List.mem_cons.mp member with rfl | later
    · exact ⟨_, .head _, head⟩
    · obtain ⟨result, resultMember, found⟩ := ih later
      exact ⟨result, .tail _ resultMember, found⟩

/-- What related elements share, the lists share in order. -/
theorem map_eq_of_forall₂ {γ : Type} {before : α → γ} {after : β → γ}
    (keeps : ∀ item result, related item result → after result = before item)
    (all : List.Forall₂ related items results) : results.map after = items.map before := by
  induction all with
  | nil => rfl
  | cons head _ ih => rw [List.map_cons, List.map_cons, keeps _ _ head, ih]

end

/-! ### Attempts -/

theorem exists_of_toOption {α ε : Type} {attempt : Except ε α}
    (succeeds : attempt.toOption.isSome = true) : ∃ value, attempt = .ok value := by
  cases attempt with
  | error fault => cases succeeds
  | ok value => exact ⟨value, rfl⟩

/-! ### Traversals -/

variable {α β ε : Type} {visit : α → Except ε β} {items : List α} {results : List β}

section

variable (visited : items.mapM visit = .ok results)
include visited

theorem forall₂_of_mapM_ok :
    List.Forall₂ (fun item result => visit item = .ok result) items results := by
  induction items generalizing results with
  | nil =>
    cases visited
    exact .nil
  | cons item rest ih =>
    rw [List.mapM_cons] at visited
    cases head : visit item with
    | error fault =>
      rw [head] at visited
      cases visited
    | ok result =>
      cases tail : rest.mapM visit with
      | error fault =>
        rw [head, tail] at visited
        cases visited
      | ok others =>
        rw [head, tail] at visited
        cases visited
        exact .cons head (ih tail)

/-- Every result comes from an item. -/
theorem exists_of_mem_mapM {result : β} (member : result ∈ results) :
    ∃ item ∈ items, visit item = .ok result :=
  exists_left_of_forall₂ (forall₂_of_mapM_ok visited) member

/-- Every item has a result. -/
theorem exists_mem_mapM {item : α} (member : item ∈ items) :
    ∃ result ∈ results, visit item = .ok result :=
  exists_right_of_forall₂ (forall₂_of_mapM_ok visited) member

/-- Two traversals of one list, seen alike item by item, are seen alike as a whole. -/
theorem map_eq_map_of_mapM_ok {β' γ : Type} {visit' : α → Except ε β'} {results' : List β'}
    {seen : β → γ} {seen' : β' → γ} (visited' : items.mapM visit' = .ok results')
    (alike : ∀ item ∈ items, ∀ result result', visit item = .ok result →
      visit' item = .ok result' → seen result = seen' result') :
    results.map seen = results'.map seen' := by
  have first := forall₂_of_mapM_ok visited
  have second := forall₂_of_mapM_ok visited'
  clear visited visited'
  induction first generalizing results' with
  | nil =>
    cases second
    rfl
  | cons head _ ih =>
    cases second with
    | cons head' tail' =>
      have rest := ih
        (fun item member => alike item (.tail _ member)) tail'
      rw [List.map_cons, List.map_cons, alike _ (.head _) _ _ head head', rest]

end

/-- A traversal succeeds where every item does. -/
theorem exists_mapM_ok (all : ∀ item ∈ items, ∃ result, visit item = .ok result) :
    ∃ results, items.mapM visit = .ok results := by
  induction items with
  | nil => exact ⟨[], rfl⟩
  | cons item rest ih =>
    obtain ⟨result, head⟩ := all item (.head _)
    obtain ⟨results, tail⟩ := ih fun other member =>
      all other (.tail _ member)
    exact ⟨result :: results, by rw [List.mapM_cons, head, tail]; rfl⟩

/-- One failing item makes the whole traversal fail. -/
theorem mapM_error_of_mem {item : α} (member : item ∈ items)
    (fails : ∃ fault, visit item = .error fault) : ∃ fault, items.mapM visit = .error fault := by
  cases visited : items.mapM visit with
  | error fault => exact ⟨fault, rfl⟩
  | ok results =>
    obtain ⟨fault, failed⟩ := fails
    obtain ⟨result, _, found⟩ := exists_mem_mapM visited member
    rw [failed] at found
    cases found

theorem mapM_ok_of_forall₂
    (all : List.Forall₂ (fun item result => visit item = .ok result) items results) :
    items.mapM visit = .ok results := by
  induction all with
  | nil => rfl
  | cons head _ ih =>
    rw [List.mapM_cons, head, ih]
    rfl

/-- The order of the items decides the order of the results and nothing else. -/
theorem mapM_ok_of_perm {others : List α} (permuted : others.Perm items)
    (visited : items.mapM visit = .ok results) :
    ∃ reordered, others.mapM visit = .ok reordered ∧ reordered.Perm results := by
  obtain ⟨reordered, related, arranged⟩ :=
    List.perm_comp_forall₂ permuted (forall₂_of_mapM_ok visited)
  exact ⟨reordered, mapM_ok_of_forall₂ related, arranged⟩

/-! ### Loops -/

section

variable {σ : Type} {turn : σ → α → Except ε σ} {state final : σ}

/-- A loop succeeds if what holds before a turn, for the items that are left, lets the
turn succeed and holds again after it. -/
theorem exists_foldlM_ok (holds : List α → σ → Prop)
    (next : ∀ item rest state, holds (item :: rest) state →
      ∃ after, turn state item = .ok after ∧ holds rest after) (start : holds items state) :
    ∃ final, items.foldlM turn state = .ok final ∧ holds [] final := by
  induction items generalizing state with
  | nil => exact ⟨state, rfl, start⟩
  | cons item rest ih =>
    obtain ⟨after, turned, kept⟩ := next item rest state start
    obtain ⟨final, looped, ended⟩ := ih kept
    refine ⟨final, ?_, ended⟩
    rw [List.foldlM_cons, turned]
    exact looped

/-- What holds before a loop and is passed on by each turn, for the items that are left,
holds after it. -/
theorem foldlM_ok_keeps (holds : List α → σ → Prop)
    (keeps : ∀ item rest state after, turn state item = .ok after →
      holds (item :: rest) state → holds rest after) (looped : items.foldlM turn state = .ok final)
    (start : holds items state) : holds [] final := by
  induction items generalizing state with
  | nil =>
    cases looped
    exact start
  | cons item rest ih =>
    rw [List.foldlM_cons] at looped
    cases turned : turn state item with
    | error fault =>
      rw [turned] at looped
      cases looped
    | ok after =>
      rw [turned] at looped
      exact ih looped (keeps item rest state after turned start)

end

/-! ### Traversals that may find nothing -/

/-- All elements have to be found, and then their results are listed. -/
theorem mapM_option_eq {α β : Type} (visit : α → Option β) (fallback : β) (items : List α) :
    items.mapM visit =
      if ∀ item ∈ items, (visit item).isSome then
        some (items.map fun item => (visit item).getD fallback)
      else none := by
  induction items with
  | nil => simp
  | cons item items ih =>
    rw [List.mapM_cons, ih]
    cases visited : visit item with
    | none => simp [visited]
    | some result =>
      simp only [List.forall_mem_cons, visited, Option.isSome_some, true_and,
        List.map_cons, Option.getD_some]
      split <;> rfl

end ScoreOrchestrator.Foundation
