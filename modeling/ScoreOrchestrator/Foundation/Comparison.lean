/-
Module: Foundation.Comparison
Purpose: Comparators, their strict weak orders, and what sorting by them gives:
  the best of a list, whatever the order of the list.
Main exports: isStrictWeakOrder_of_transCmp, SliceSort, SliceSort.best
-/
import Mathlib.Data.List.Sort
import Mathlib.Order.Defs.Unbundled

namespace ScoreOrchestrator.Foundation

/-! ### Comparators -/

section

variable {α β : Type}

/-- Compare what may be missing; a missing value is less than any other. -/
def optionCmp (cmp : α → α → Ordering) : Option α → Option α → Ordering
  | none, none => .eq
  | none, some _ => .lt
  | some _, none => .gt
  | some first, some second => cmp first second

instance optionCmp_trans (cmp : α → α → Ordering) [Std.TransCmp cmp] :
    Std.TransCmp (optionCmp cmp) where
  eq_swap {first second} := by
    cases first with
    | none => cases second <;> rfl
    | some first =>
      cases second with
      | none => rfl
      | some second =>
        have swapped : cmp first second = (cmp second first).swap := Std.OrientedCmp.eq_swap
        exact swapped
  isLE_trans {first second third} early late := by
    cases first with
    | none => cases third <;> rfl
    | some first =>
      cases second with
      | none => cases early
      | some second =>
        cases third with
        | none => cases late
        | some third =>
          have through : (cmp first third).isLE = true :=
            Std.TransCmp.isLE_trans (b := second) early late
          exact through

/-- The other way round. -/
def descending (cmp : α → α → Ordering) (first second : α) : Ordering := cmp second first

instance descending_trans (cmp : α → α → Ordering) [Std.TransCmp cmp] :
    Std.TransCmp (descending cmp) where
  eq_swap {first second} := by
    have swapped : cmp second first = (cmp first second).swap := Std.OrientedCmp.eq_swap
    exact swapped
  isLE_trans {first second third} early late := by
    have through : (cmp third first).isLE = true := Std.TransCmp.isLE_trans (b := second) late early
    exact through

/-- Compare by what a function makes of the values. -/
def comparedBy (key : α → β) (cmp : β → β → Ordering) (first second : α) : Ordering :=
  cmp (key first) (key second)

instance comparedBy_trans (key : α → β) (cmp : β → β → Ordering) [Std.TransCmp cmp] :
    Std.TransCmp (comparedBy key cmp) where
  eq_swap {first second} := by
    have swapped : cmp (key first) (key second) = (cmp (key second) (key first)).swap :=
      Std.OrientedCmp.eq_swap
    exact swapped
  isLE_trans {first second third} early late := by
    have through : (cmp (key first) (key third)).isLE = true :=
      Std.TransCmp.isLE_trans (b := key second) early late
    exact through

/-- Values of which neither comes before the other compare as equal. -/
theorem compared_eq {cmp : α → α → Ordering} [Std.OrientedCmp cmp] {first second : α}
    (notBefore : ¬cmp first second = .lt) (notAfter : ¬cmp second first = .lt) :
    cmp first second = .eq := by
  cases compared : cmp first second with
  | lt => exact absurd compared notBefore
  | eq => rfl
  | gt => exact absurd (Std.OrientedCmp.gt_iff_lt.mp compared) notAfter

/-- A comparator gives a strict weak order. -/
theorem isStrictWeakOrder_of_transCmp (cmp : α → α → Ordering) [Std.TransCmp cmp] :
    IsStrictWeakOrder α fun first second => cmp first second = .lt where
  irrefl value := by
    have equal : cmp value value = .eq := Std.ReflCmp.compare_self
    simp [equal]
  trans _ _ _ early late := Std.TransCmp.lt_trans early late
  incomp_trans first second third early late := by
    have same : cmp first third = .eq :=
      Std.TransCmp.eq_trans (compared_eq early.1 early.2) (compared_eq late.1 late.2)
    have back : cmp third first = .eq := Std.OrientedCmp.eq_comm.mp same
    simp [same, back]

/-- What is not less than a value that is not less than another is not less than that
one. -/
theorem not_less_trans {less : α → α → Prop} (strict : IsStrictWeakOrder α less)
    {first second third : α} (early : ¬less first second) (late : ¬less second third) :
    ¬less first third := by
  intro above
  have below : ¬less second first := fun back => late (strict.trans _ _ _ back above)
  have beyond : ¬less third second := fun back => early (strict.trans _ _ _ above back)
  exact (strict.incomp_trans _ _ _ ⟨early, below⟩ ⟨late, beyond⟩).1 above

end

/-! ### Sorting -/

/-- A sort function in the manner of `sort.Slice`: it permutes its input, and sorts it
if the comparison is a strict weak order. -/
structure SliceSort where
  sort : {α : Type} → (α → α → Bool) → List α → List α
  perm : ∀ {α : Type} (less : α → α → Bool) (items : List α),
    (sort less items).Perm items
  sorted : ∀ {α : Type} (less : α → α → Bool),
    IsStrictWeakOrder α (fun first second => less first second = true) →
      ∀ items, (sort less items).Pairwise fun first second => less second first = false

namespace SliceSort

/-- Insertion sort, for one. -/
def insertion : SliceSort where
  sort less items := items.insertionSort fun first second => less second first = false
  perm less items := List.perm_insertionSort _ items
  sorted {α} less strict items := by
    let notAfter : α → α → Prop := fun first second => less second first = false
    have total : Std.Total notAfter := ⟨fun first second => by
      by_contra neither
      simp only [notAfter, not_or, Bool.not_eq_false] at neither
      exact strict.irrefl _ (strict.trans _ _ _ neither.1 neither.2)⟩
    have trans : IsTrans α notAfter := ⟨fun first second third early late => by
      simp only [notAfter, ← Bool.not_eq_true] at early late ⊢
      exact not_less_trans strict late early⟩
    exact List.pairwise_insertionSort notAfter items

section

variable {α : Type} (slice : SliceSort) (less : α → α → Bool)

/-- The first item after sorting. -/
def best (items : List α) : Option α := (slice.sort less items).head?

theorem best_isSome {items : List α} (nonempty : items ≠ []) :
    (slice.best less items).isSome = true := by
  unfold best
  cases sorted : slice.sort less items with
  | nil =>
    have permuted := slice.perm less items
    rw [sorted] at permuted
    exact absurd permuted.nil_eq.symm nonempty
  | cons first rest => rfl

variable {less}

theorem mem_of_best {items : List α} {chosen : α} (picked : slice.best less items = some chosen) :
    chosen ∈ items :=
  (slice.perm less items).mem_iff.mp (List.mem_of_head? picked)

/-- Nothing beats the best item. -/
theorem not_less_best (strict : IsStrictWeakOrder α fun first second => less first second = true)
    {items : List α} {chosen item : α} (picked : slice.best less items = some chosen)
    (member : item ∈ items) : less item chosen = false := by
  have sorted := slice.sorted less strict items
  have listed := (slice.perm less items).mem_iff.mpr member
  unfold best at picked
  cases order : slice.sort less items with
  | nil =>
    rw [order] at picked
    cases picked
  | cons first rest =>
    rw [order] at picked sorted listed
    cases picked
    rcases List.mem_cons.mp listed with rfl | later
    · exact Bool.eq_false_iff.mpr (strict.irrefl item)
    · exact List.rel_of_pairwise_cons sorted later

/-- Where any two items compare, the best one does not depend on how the items are
listed, nor on how they are sorted. -/
theorem best_perm (other : SliceSort)
    (strict : IsStrictWeakOrder α fun first second => less first second = true)
    {items others : List α} (permuted : items.Perm others)
    (connected : ∀ first ∈ items, ∀ second ∈ items, less first second = false →
      less second first = false → first = second) :
    slice.best less items = other.best less others := by
  by_cases empty : items = []
  · subst empty
    have noOthers : others = [] := permuted.nil_eq.symm
    subst noOthers
    have first := slice.perm less ([] : List α)
    have second := other.perm less ([] : List α)
    rw [best, best, first.eq_nil, second.eq_nil]
  · have nonempty : others ≠ [] := fun none => empty (none ▸ permuted).eq_nil
    obtain ⟨chosen, picked⟩ := Option.isSome_iff_exists.mp (slice.best_isSome less empty)
    obtain ⟨rival, rivalPicked⟩ := Option.isSome_iff_exists.mp (other.best_isSome less nonempty)
    have member := slice.mem_of_best picked
    have rivalMember := permuted.mem_iff.mpr (other.mem_of_best rivalPicked)
    have notBeaten := slice.not_less_best strict picked rivalMember
    have notBeating := other.not_less_best strict rivalPicked (permuted.mem_iff.mp member)
    rw [picked, rivalPicked, connected chosen member rival rivalMember notBeating notBeaten]

end

end SliceSort

end ScoreOrchestrator.Foundation
