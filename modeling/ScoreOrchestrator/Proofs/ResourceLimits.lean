/-
Module: Proofs.ResourceLimits
Purpose: What the resource constraints of a backend mean for a Workload: the four forms
  of a range beside the check of the selector, and the check beside the quantities of
  Kubernetes.
-/
import Mathlib.Tactic.Ring
import ScoreOrchestrator.Proofs.Quantities

namespace ScoreOrchestrator.Selection

open Foundation

variable {value factor : Int} {unit : List Char} {quantity : String} {low high actual : String}

/-! ### Dimensions -/

/-- What is constrained. -/
inductive Dimension where
  | cpu
  | memory
  | storage
deriving DecidableEq, Repr

variable {dimension : Dimension}

namespace Dimension

/-- The name under which containers request it. -/
def resource : Dimension → String
  | cpu => "cpu"
  | memory => "memory"
  | storage => "ephemeral-storage"

/-- The constraint on it. -/
def constraint (constraints : Config.ResourceConstraints) : Dimension → String
  | cpu => constraints.cpu
  | memory => constraints.memory
  | storage => constraints.storage

/-- The text that `calculateWorkloadResources` produces for it. -/
def total (order : IterOrder) (workload : Workload) : Dimension → String
  | cpu => (calculateWorkloadResources order workload).1
  | memory => (calculateWorkloadResources order workload).2.1
  | storage => (calculateWorkloadResources order workload).2.2

/-- How its totals are printed. -/
def print (dimension : Dimension) (value : Int) : String :=
  match dimension with
  | cpu => toString value ++ "m"
  | memory | storage => toString value

theorem total_eq (order : IterOrder) (workload : Workload) (dimension : Dimension) :
    dimension.total order workload =
      dimension.print (wrapInt64 (requestSum workload dimension.resource)) := by
  cases dimension <;> simp only [total, calculateWorkloadResources_eq, print, resource]

theorem print_injective {first second : Int}
    (same : dimension.print first = dimension.print second) : first = second := by
  cases dimension with
  | cpu => exact toString_injective ((String.append_left_inj _).mp same)
  | memory | storage => exact toString_injective same

end Dimension

/-- A number with a known unit, or with none, has the value it shows. -/
theorem quantityValue_append {number : String} (read : signedValue number.toList = some value)
    (known : (unit, factor) ∈ ([], 1) :: knownUnits) :
    quantityValue (number ++ String.ofList unit) = some (value * factor) := by
  have nonempty : ¬(number.toList ++ unit).isEmpty = true := by
    intro empty
    have none : number.toList = [] := (List.append_eq_nil_iff.mp (List.isEmpty_iff.mp empty)).1
    rw [none] at read
    cases read
  have split : unitOf (number.toList ++ unit) = (number.toList, factor) := by
    obtain bare | known := List.mem_cons.mp known
    · cases bare
      rw [List.append_nil]
      exact unitOf_bare (isAlpha_of_signedValue read)
    · exact unitOf_append _ known
  simp only [quantityValue, quantityNumber, String.toList_append, String.toList_ofList,
    if_neg nonempty, split, read, Option.map_some]

theorem quantityValue_print (dimension : Dimension) (value : Int) :
    quantityValue (dimension.print value) = some value := by
  have read := signedValue_repr value
  cases dimension with
  | cpu =>
    have known : (['m'], 1) ∈ ([], 1) :: knownUnits := by decide
    have shown := quantityValue_append read known
    rwa [Int.mul_one] at shown
  | memory | storage =>
    have shown := quantityValue_append read (.head knownUnits)
    rwa [Int.mul_one, String.ofList_nil, String.append_empty] at shown

/-- A total that is read back is the total. -/
theorem parseQuantity_print (dimension : Dimension) (fits : FitsInt64 value) :
    parseQuantity (dimension.print value) = some value :=
  parseQuantity_of_fits (quantityValue_print dimension value) fits

theorem parseQuantity_total (order : IterOrder) (workload : Workload) (dimension : Dimension) :
    parseQuantity (dimension.total order workload) =
      some (wrapInt64 (requestSum workload dimension.resource)) := by
  rw [dimension.total_eq]
  exact parseQuantity_print dimension (fitsInt64_wrapInt64 _)

theorem validateResourceConstraints_iff {order : IterOrder} {workload : Workload}
    {constraints : Config.ResourceConstraints} :
    validateResourceConstraints order workload constraints = true ↔
      ∀ dimension : Dimension, validateQuantityConstraint (dimension.total order workload)
        (dimension.constraint constraints) = true := by
  simp only [validateResourceConstraints, Bool.and_eq_true]
  constructor
  · rintro ⟨⟨cpu, memory⟩, storage⟩ (_ | _ | _)
    · exact cpu
    · exact memory
    · exact storage
  · intro all
    exact ⟨⟨all .cpu, all .memory⟩, all .storage⟩

/-! ### The forms of a range -/

/-- The quantity range grammar: `q`, `min-max`, `min-` and `-max`. -/
inductive RangeForm where
  | exact (quantity : String)
  | between (low high : String)
  | atLeast (low : String)
  | atMost (high : String)
deriving DecidableEq, Repr

variable {form : RangeForm}

namespace RangeForm

def text : RangeForm → String
  | exact quantity => quantity
  | between low high => low ++ "-" ++ high
  | atLeast low => low ++ "-"
  | atMost high => "-" ++ high

/-- The lower bound, if there is one. -/
def minimum : RangeForm → Option String
  | exact quantity => some quantity
  | between low _ => some low
  | atLeast low => some low
  | atMost _ => none

/-- The upper bound, if there is one. -/
def maximum : RangeForm → Option String
  | exact quantity => some quantity
  | between _ high => some high
  | atLeast _ => none
  | atMost high => some high

def quantities (form : RangeForm) : List String := form.minimum.toList ++ form.maximum.toList

theorem mem_quantities : quantity ∈ form.quantities ↔
    quantity ∈ form.minimum ∨ quantity ∈ form.maximum := by
  simp [quantities]

/-- A value keeps the bounds, by their values. -/
def Within (form : RangeForm) (value : Int) : Prop :=
  (∀ low ∈ form.minimum, ∀ bound ∈ parseQuantity low, bound ≤ value) ∧
    ∀ high ∈ form.maximum, ∀ bound ∈ parseQuantity high, value ≤ bound

/-- No quantity is empty or has a minus sign, so that the text has one reading. -/
def Unsigned (form : RangeForm) : Prop :=
  ∀ quantity ∈ form.quantities, quantity ≠ "" ∧ '-' ∉ quantity.toList

/-- The quantity of the exact form is written as a total of its value is printed. -/
def Printed (dimension : Dimension) : RangeForm → Prop
  | exact quantity => ∀ value ∈ parseQuantity quantity, quantity = dimension.print value
  | between _ _ | atLeast _ | atMost _ => True

theorem Printed.of_range (range : ∀ quantity, form ≠ exact quantity) : form.Printed dimension := by
  cases form with
  | exact quantity => exact absurd rfl (range quantity)
  | between | atLeast | atMost => trivial

/-- The forms whose text is taken for what they say.  An exact quantity with a minus sign is
taken for a maximum, which is no other thing only for the least number; a second minus sign
in a range lets nothing in, which is right if there is nothing between the bounds. -/
def Faithful (dimension : Dimension) : RangeForm → Prop
  | exact quantity =>
    (exact quantity).Unsigned ∧ (exact quantity).Printed dimension ∨
      ∃ magnitude, quantity = "-" ++ magnitude ∧
        parseQuantity magnitude = some (-(2 ^ 63)) ∧ parseQuantity quantity = some (-(2 ^ 63))
  | between low high =>
    (between low high).Unsigned ∨
      ('-' ∈ low.toList ∨ '-' ∈ high.toList) ∧
        ∀ least ∈ parseQuantity low, ∀ most ∈ parseQuantity high, most < least
  | atLeast low => (atLeast low).Unsigned
  | atMost high => (atMost high).Unsigned

end RangeForm

/-! ### What the selector makes of them -/

/-- Parts without the separator are found again. -/
theorem splitText_intercalate {separator : Char} {text : String} {parts : List String}
    (joined : text.toList = [separator].intercalate (parts.map String.toList))
    (nonempty : parts ≠ []) (apart : ∀ part ∈ parts, separator ∉ part.toList) :
    splitText separator text = parts := by
  have separate : ∀ letters ∈ parts.map String.toList, separator ∉ letters := by
    simpa using apart
  have some : parts.map String.toList ≠ [] := by simpa using nonempty
  rw [splitText, joined, List.splitOn_intercalate separator separate some]
  simp

theorem splitText_exact (unsigned : '-' ∉ quantity.toList) :
    splitText '-' quantity = [quantity] := by
  apply splitText_intercalate <;> simp [unsigned]

theorem splitText_range (lower : '-' ∉ low.toList) (upper : '-' ∉ high.toList) :
    splitText '-' (low ++ "-" ++ high) = [low, high] := by
  apply splitText_intercalate <;> simp [lower, upper]

theorem validate_exact (unsigned : '-' ∉ quantity.toList) (nonempty : quantity ≠ "") :
    validateQuantityConstraint actual quantity = true ↔ actual = quantity := by
  simp [validateQuantityConstraint, splitText_exact unsigned, nonempty]

theorem boundKept_iff {bound : String} {kept : Int → Bool} :
    boundKept bound kept = true ↔
      bound = "" ∨ ∃ value ∈ parseQuantity bound, kept value = true := by
  simp [boundKept, Option.any_eq_true]

/-- A range is kept by the value of the total. -/
theorem validate_range (lower : '-' ∉ low.toList) (upper : '-' ∉ high.toList)
    (read : parseQuantity actual = some value) :
    validateQuantityConstraint actual (low ++ "-" ++ high) = true ↔
      (low = "" ∨ ∃ bound ∈ parseQuantity low, bound ≤ value) ∧
        (high = "" ∨ ∃ bound ∈ parseQuantity high, value ≤ bound) := by
  have nonempty : low ++ "-" ++ high ≠ "" := by
    intro empty
    have letters := congrArg String.toList empty
    simp at letters
  simp [validateQuantityConstraint, splitText_range lower upper, nonempty, read, boundKept_iff]

theorem length_splitOn (separator : Char) (text : List Char) :
    (text.splitOn separator).length = text.count separator + 1 := by
  induction text with
  | nil => rfl
  | cons letter text ih =>
    rw [List.splitOn_cons_eq_if_modifyHead, List.count_cons]
    split <;> simp [*]

/-- A text with two separators is refused. -/
theorem refused_of_count {constraint : String} (twice : 2 ≤ constraint.toList.count '-') :
    validateQuantityConstraint actual constraint = false := by
  have parts : 3 ≤ (splitText '-' constraint).length := by
    rw [splitText, List.length_map, length_splitOn]
    omega
  have nonempty : constraint ≠ "" := by
    rintro rfl
    cases twice
  unfold validateQuantityConstraint
  split
  next single =>
    rw [single] at parts
    simp at parts
  next double =>
    rw [double] at parts
    simp at parts
  next => simp [nonempty]

/-- A range in which a bound has a minus sign is refused. -/
theorem RangeForm.refused (range : ∀ quantity, form ≠ .exact quantity)
    (member : quantity ∈ form.quantities) (signed : '-' ∈ quantity.toList) (actual : String) :
    validateQuantityConstraint actual form.text = false := by
  apply refused_of_count
  have inside := List.count_pos_iff.mpr signed
  have separator : "-".toList.count '-' = 1 := by decide
  cases form with
  | exact => exact absurd rfl (range _)
  | between low high =>
    have which : quantity = low ∨ quantity = high := by
      simpa [quantities, minimum, maximum] using member
    rw [text, String.toList_append, String.toList_append, List.count_append, List.count_append]
    obtain rfl | rfl := which <;> omega
  | atLeast | atMost =>
    cases List.mem_singleton.mp member
    rw [text, String.toList_append, List.count_append]
    omega

/-- A quantity that can be read has a minus sign in front or none. -/
theorem magnitude_of_parseQuantity (read : parseQuantity quantity = some value)
    (signed : '-' ∈ quantity.toList) :
    ∃ magnitude, quantity = "-" ++ magnitude ∧ magnitude ≠ "" ∧ '-' ∉ magnitude.toList := by
  obtain ⟨number, spelled, -⟩ := (parseQuantity_isSome_iff quantity).mp (read ▸ rfl)
  have filled : ¬quantity.toList.isEmpty = true := by
    intro empty
    rw [List.isEmpty_iff.mp empty] at signed
    cases signed
  rw [quantityNumber, if_neg filled] at spelled
  obtain ⟨digits, natural, digital, shape⟩ := signedValue_cases spelled
  obtain ⟨nonempty, all, -⟩ := naturalValue_eq_some.mp digital
  have noSign : '-' ∉ digits := fun member => absurd (all '-' member) (by decide)
  obtain ⟨unit, text, noUnit⟩ : ∃ unit, quantity.toList = (unitOf quantity.toList).1 ++ unit ∧
      '-' ∉ unit := by
    obtain ⟨unit, known, text⟩ | ⟨bare, -⟩ := unitOf_cases quantity.toList
    · have letters : ∀ row ∈ knownUnits, '-' ∉ row.1 := by decide
      exact ⟨unit, text, letters _ known⟩
    · exact ⟨[], by rw [bare, List.append_nil], by simp⟩
  obtain ⟨sign, -⟩ | ⟨sign, -⟩ := shape
  · rw [sign] at text
    refine ⟨String.ofList (digits ++ unit), ?_, ?_, ?_⟩
    · apply String.toList_injective
      simp [text]
    · intro empty
      have letters := congrArg String.toList empty
      simp [nonempty] at letters
    · simp [noSign, noUnit]
  · rw [text] at signed
    obtain sign | sign := sign <;> rw [sign] at signed <;> simp [noSign, noUnit] at signed

theorem fits_of_parseQuantity (read : parseQuantity quantity = some value) : FitsInt64 value := by
  obtain ⟨exact, -, rfl⟩ := exact_of_parseQuantity read
  exact fitsInt64_wrapInt64 exact

/-- The quantities of a form can be read, each in one way. -/
def RangeForm.Readable (form : RangeForm) : Prop :=
  ∀ quantity ∈ form.quantities, (parseQuantity quantity).isSome

theorem RangeForm.text_range (range : ∀ quantity, form ≠ .exact quantity) :
    form.text = form.minimum.getD "" ++ "-" ++ form.maximum.getD "" := by
  cases form with
  | exact quantity => exact absurd rfl (range quantity)
  | between | atLeast | atMost => simp [text, minimum, maximum]

/-- Of a range without a minus sign the bounds are checked that are not empty. -/
theorem validate_bounds (range : ∀ quantity, form ≠ .exact quantity)
    (noSign : ∀ quantity ∈ form.quantities, '-' ∉ quantity.toList)
    (read : parseQuantity actual = some value) :
    validateQuantityConstraint actual form.text = true ↔
      (∀ low ∈ form.minimum, low = "" ∨ ∃ bound ∈ parseQuantity low, bound ≤ value) ∧
        ∀ high ∈ form.maximum, high = "" ∨ ∃ bound ∈ parseQuantity high, value ≤ bound := by
  have part {bound : Option String} (listed : ∀ quantity ∈ bound, quantity ∈ form.quantities) :
      '-' ∉ (bound.getD "").toList := by
    cases bound with
    | none => decide
    | some quantity => exact noSign quantity (listed quantity rfl)
  have lower := part fun _ given => RangeForm.mem_quantities.mpr (.inl given)
  have upper := part fun _ given => RangeForm.mem_quantities.mpr (.inr given)
  rw [RangeForm.text_range range, validate_range lower upper read]
  cases form.minimum <;> cases form.maximum <;> simp

theorem bound_kept_iff (kept : Int → Prop) (given : quantity ≠ "")
    (readable : (parseQuantity quantity).isSome) :
    (quantity = "" ∨ ∃ bound ∈ parseQuantity quantity, kept bound) ↔
      ∀ bound ∈ parseQuantity quantity, kept bound := by
  obtain ⟨value, read⟩ := Option.isSome_iff_exists.mp readable
  simp [given, read]

theorem within_exact {bound : Int} (read : parseQuantity quantity = some bound) :
    (RangeForm.exact quantity).Within value ↔ value = bound := by
  simp only [RangeForm.Within, RangeForm.minimum, RangeForm.maximum, Option.mem_def,
    Option.some.injEq, forall_eq', read]
  omega

theorem within_between {least most : Int} (lowRead : parseQuantity low = some least)
    (highRead : parseQuantity high = some most) :
    (RangeForm.between low high).Within value ↔ least ≤ value ∧ value ≤ most := by
  simp [RangeForm.Within, RangeForm.minimum, RangeForm.maximum, lowRead, highRead]

/-- The check of a total against a form is by value, if the exact form is printed. -/
theorem validate_form (unsigned : form.Unsigned) (readable : form.Readable)
    (printed : form.Printed dimension) (fits : FitsInt64 value) :
    validateQuantityConstraint (dimension.print value) form.text = true ↔ form.Within value := by
  by_cases range : ∀ quantity, form ≠ .exact quantity
  · have bounded {quantity : String} (listed : quantity ∈ form.quantities) (kept : Int → Prop) :=
      bound_kept_iff kept (unsigned quantity listed).1 (readable quantity listed)
    rw [validate_bounds range (fun quantity listed => (unsigned quantity listed).2)
      (parseQuantity_print dimension fits)]
    refine and_congr (forall₂_congr fun low given => ?_) (forall₂_congr fun high given => ?_)
    · exact bounded (RangeForm.mem_quantities.mpr (.inl given)) _
    · exact bounded (RangeForm.mem_quantities.mpr (.inr given)) _
  · obtain ⟨quantity, rfl⟩ := by simpa using range
    obtain ⟨nonempty, noMinus⟩ := unsigned quantity (.head _)
    obtain ⟨exact, bound⟩ := Option.isSome_iff_exists.mp (readable quantity (.head _))
    have shown : quantity = dimension.print exact := printed exact bound
    have same : dimension.print value = quantity ↔ value = exact := by
      rw [shown]
      exact ⟨Dimension.print_injective, congrArg _⟩
    rw [RangeForm.text, validate_exact noMinus nonempty, same, within_exact bound]

/-- What is accepted is within the bounds, also for an exact form. -/
theorem within_of_validate (unsigned : form.Unsigned) (readable : form.Readable)
    (fits : FitsInt64 value)
    (accepted : validateQuantityConstraint (dimension.print value) form.text = true) :
    form.Within value := by
  cases form with
  | exact quantity =>
    obtain ⟨nonempty, noMinus⟩ := unsigned quantity (.head _)
    have same : dimension.print value = quantity := (validate_exact noMinus nonempty).mp accepted
    have read := parseQuantity_print dimension fits
    rw [same] at read
    exact (within_exact read).mpr rfl
  | between _ _ | atLeast _ | atMost _ =>
    exact (validate_form unsigned readable trivial fits).mp accepted

/-- Every value of `int64` is the total of some Workload. -/
theorem exists_workload_total (dimension : Dimension) (fits : FitsInt64 value) :
    ∃ workload, ∀ order, dimension.total order workload = dimension.print value := by
  let requests : List (String × String) := [(dimension.resource, dimension.print value)]
  have held : (GoMap.ofList requests).get? dimension.resource = some (dimension.print value) :=
    GoMap.get?_set_self (.ofList []) _ _
  have sum : requestSum (requestingWorkload [("app", requests)]) dimension.resource =
      value := by
    have single : requestSum (requestingWorkload [("app", requests)]) dimension.resource =
        (((GoMap.ofList requests).get? dimension.resource).bind parseQuantity).getD 0 + 0 :=
      rfl
    rw [single, held, Option.bind_some, parseQuantity_print dimension fits, Option.getD_some,
      Int.add_zero]
  refine ⟨requestingWorkload [("app", requests)], fun order => ?_⟩
  rw [dimension.total_eq, sum, wrapInt64_eq_iff.mpr fits]

/-- The check of totals against a form is by value. -/
def RangeForm.Checked (dimension : Dimension) (form : RangeForm) : Prop :=
  ∀ value, FitsInt64 value →
    (validateQuantityConstraint (dimension.print value) form.text = true ↔ form.Within value)

/-- An exact quantity with a minus sign is taken for a maximum. -/
theorem checked_negated_iff {magnitude : String} {bound : Int}
    (read : parseQuantity ("-" ++ magnitude) = some bound) (nonempty : magnitude ≠ "")
    (noSign : '-' ∉ magnitude.toList) :
    (RangeForm.exact ("-" ++ magnitude)).Checked dimension ↔
      parseQuantity magnitude = some (-(2 ^ 63)) ∧ bound = -(2 ^ 63) := by
  have taken {value : Int} (fits : FitsInt64 value) :
      validateQuantityConstraint (dimension.print value) ("-" ++ magnitude) = true ↔
        ∃ most ∈ parseQuantity magnitude, value ≤ most := by
    have empty : '-' ∉ "".toList := by decide
    have range := validate_range empty noSign (parseQuantity_print dimension fits)
    simpa [nonempty] using range
  constructor
  · intro checked
    have fits := fits_of_parseQuantity read
    obtain ⟨most, mostRead, -⟩ :=
      (taken fits).mp ((checked bound fits).mpr ((within_exact read).mpr rfl))
    have kept (value : Int) (fits : FitsInt64 value) (below : value ≤ most) : value = bound :=
      (within_exact read).mp ((checked value fits).mp ((taken fits).mpr ⟨most, mostRead, below⟩))
    have mostFits := fits_of_parseQuantity mostRead
    have least := kept (-(2 ^ 63)) (by decide) mostFits.1
    have same := kept most mostFits le_rfl
    exact ⟨mostRead.trans (congrArg some (same.trans least.symm)), least.symm⟩
  · rintro ⟨mostRead, rfl⟩ value fits
    rw [RangeForm.text, taken fits, within_exact read, mostRead]
    simp only [Option.mem_def, Option.some.injEq, exists_eq_left']
    unfold FitsInt64 at fits
    omega

theorem checked_exact_iff (readable : (RangeForm.exact quantity).Readable) :
    (RangeForm.exact quantity).Checked dimension ↔
      (RangeForm.exact quantity).Faithful dimension := by
  obtain ⟨bound, read⟩ := Option.isSome_iff_exists.mp (readable quantity (.head _))
  by_cases signed : '-' ∈ quantity.toList
  · obtain ⟨magnitude, rfl, nonempty, noSign⟩ := magnitude_of_parseQuantity read signed
    rw [checked_negated_iff read nonempty noSign]
    constructor
    · rintro ⟨mostRead, rfl⟩
      exact .inr ⟨magnitude, rfl, mostRead, read⟩
    · rintro (⟨unsigned, -⟩ | ⟨_, same, mostRead, least⟩)
      · exact absurd signed (unsigned _ (.head _)).2
      · cases (String.append_right_inj _).mp same
        exact ⟨mostRead, Option.some.inj (read.symm.trans least)⟩
  · constructor
    · intro checked
      have nonempty : quantity ≠ "" := by
        rintro rfl
        -- the empty text lets everything in
        have one := (within_exact read).mp ((checked 1 (by decide)).mp rfl)
        cases one
        cases read
      refine .inl ⟨?_, fun value valueRead => ?_⟩
      · intro other member
        have same : other = quantity := by
          simpa [RangeForm.quantities, RangeForm.minimum, RangeForm.maximum] using member
        exact same ▸ ⟨nonempty, signed⟩
      · cases valueRead.symm.trans read
        have accepted := (checked bound (fits_of_parseQuantity read)).mpr
          ((within_exact read).mpr rfl)
        exact ((validate_exact signed nonempty).mp accepted).symm
    · rintro (⟨unsigned, printed⟩ | ⟨magnitude, rfl, -⟩)
      · exact fun value fits => validate_form unsigned readable printed fits
      · simp at signed

/-- A range is checked by value if no bound is empty or has a minus sign, and otherwise only
if it should let nothing in. -/
theorem checked_range_iff (range : ∀ quantity, form ≠ .exact quantity) (readable : form.Readable) :
    form.Checked dimension ↔ form.Unsigned ∨
      (∃ quantity ∈ form.quantities, '-' ∈ quantity.toList) ∧
        ∀ value, FitsInt64 value → ¬form.Within value := by
  constructor
  · intro checked
    by_cases signed : ∃ quantity ∈ form.quantities, '-' ∈ quantity.toList
    · refine .inr ⟨signed, fun value fits within => ?_⟩
      obtain ⟨quantity, listed, minus⟩ := signed
      have accepted := (checked value fits).mpr within
      rw [RangeForm.refused range listed minus] at accepted
      cases accepted
    · push Not at signed
      refine .inl fun quantity listed => ⟨?_, signed quantity listed⟩
      -- a bound that is empty is not checked
      rintro rfl
      have bounds {value : Int} (fits : FitsInt64 value) :=
        validate_bounds range signed (parseQuantity_print dimension fits)
      have fitting {other : String} (listed : other ∈ form.quantities) :
          ∃ bound ∈ parseQuantity other, FitsInt64 bound := by
        obtain ⟨bound, read⟩ := Option.isSome_iff_exists.mp (readable other listed)
        exact ⟨bound, read, fits_of_parseQuantity read⟩
      obtain low | high := RangeForm.mem_quantities.mp listed
      · have least : FitsInt64 (-(2 ^ 63)) := by decide
        have within := (checked _ least).mp ((bounds least).mpr
          ⟨fun other given => .inl (Option.mem_unique given low), fun other given => .inr ?_⟩)
        · exact absurd (within.1 "" low 0 rfl) (by decide)
        · obtain ⟨bound, read, fits⟩ := fitting (RangeForm.mem_quantities.mpr (.inr given))
          exact ⟨bound, read, fits.1⟩
      · have most : FitsInt64 (2 ^ 63 - 1) := by decide
        have within := (checked _ most).mp ((bounds most).mpr
          ⟨fun other given => .inr ?_, fun other given => .inl (Option.mem_unique given high)⟩)
        · exact absurd (within.2 "" high 0 rfl) (by decide)
        · obtain ⟨bound, read, fits⟩ := fitting (RangeForm.mem_quantities.mpr (.inl given))
          exact ⟨bound, read, Int.le_sub_one_of_lt fits.2⟩
  · rintro (unsigned | ⟨⟨quantity, listed, minus⟩, empty⟩) value fits
    · exact validate_form unsigned readable (.of_range range) fits
    · rw [RangeForm.refused range listed minus]
      exact iff_of_false (by simp) (empty value fits)

theorem checked_between_iff (readable : (RangeForm.between low high).Readable) :
    (RangeForm.between low high).Checked dimension ↔
      (RangeForm.between low high).Faithful dimension := by
  obtain ⟨least, lowRead⟩ := Option.isSome_iff_exists.mp (readable low (.head _))
  obtain ⟨most, highRead⟩ := Option.isSome_iff_exists.mp (readable high (.tail _ (.head _)))
  rw [checked_range_iff (by simp) readable]
  refine or_congr_right (and_congr ?_ ⟨fun empty _ isLeast _ isMost => ?_, ?_⟩)
  · simp [RangeForm.mem_quantities, RangeForm.minimum, RangeForm.maximum]
  · by_contra apart
    exact empty _ (fits_of_parseQuantity isLeast)
      ((within_between isLeast isMost).mpr ⟨le_rfl, not_lt.mp apart⟩)
  · intro crossed value fits within
    have bounds := (within_between lowRead highRead).mp within
    have apart := crossed least lowRead most highRead
    omega

/-- A range that should let something in has to be without minus signs. -/
theorem checked_iff_of_within (range : ∀ quantity, form ≠ .exact quantity)
    (readable : form.Readable) (fits : FitsInt64 value) (within : form.Within value) :
    form.Checked dimension ↔ form.Unsigned := by
  rw [checked_range_iff range readable]
  apply or_iff_left
  rintro ⟨_, empty⟩
  exact empty value fits within

/-- For every form whose quantities can be read, the check is by value just if the form is
faithful. -/
theorem range_semantics_iff (dimension : Dimension) {form : RangeForm} (readable : form.Readable) :
    (∀ order workload, ∃ actual,
      parseQuantity (dimension.total order workload) = some actual ∧
        (validateQuantityConstraint (dimension.total order workload) form.text = true ↔
          form.Within actual)) ↔ form.Faithful dimension := by
  have checked : (∀ order workload, ∃ actual,
      parseQuantity (dimension.total order workload) = some actual ∧
        (validateQuantityConstraint (dimension.total order workload) form.text = true ↔
          form.Within actual)) ↔ form.Checked dimension := by
    constructor
    · intro decides value fits
      obtain ⟨workload, totals⟩ := exists_workload_total dimension fits
      obtain ⟨actual, read, checked⟩ := decides .entryOrder workload
      rw [totals, parseQuantity_print dimension fits] at read
      cases read
      rwa [totals] at checked
    · intro checked order workload
      refine ⟨_, parseQuantity_total order workload dimension, ?_⟩
      rw [dimension.total_eq]
      exact checked _ (fitsInt64_wrapInt64 _)
  rw [checked]
  cases form with
  | exact => exact checked_exact_iff readable
  | between => exact checked_between_iff readable
  | atLeast quantity | atMost quantity =>
    obtain ⟨bound, read⟩ := Option.isSome_iff_exists.mp (readable quantity (.head _))
    apply checked_iff_of_within (by simp) readable (fits_of_parseQuantity read)
    simp [RangeForm.Within, RangeForm.minimum, RangeForm.maximum, read]

theorem range_semantics_cpu :
    ∃ actual,
      parseQuantity (Dimension.cpu.total .entryOrder
          (requestingWorkload [("app", [("cpu", "250m")])])) = some actual ∧
        (validateQuantityConstraint (Dimension.cpu.total .entryOrder
            (requestingWorkload [("app", [("cpu", "250m")])])) "100m-4000m" = true ↔
          (RangeForm.between "100m" "4000m").Within actual) := by
  have unsigned : (RangeForm.between "100m" "4000m").Unsigned := by
    unfold RangeForm.Unsigned
    decide +kernel
  have readable : (RangeForm.between "100m" "4000m").Readable := by
    unfold RangeForm.Readable
    decide +kernel
  exact (range_semantics_iff .cpu readable).mpr (.inl unsigned) _ _

/-- A container that asks for one GiB is refused by the constraint of one GiB: the total
is printed in bytes, and the texts differ. -/
theorem range_compares_texts :
    Dimension.memory.total .entryOrder (requestingWorkload [("app", [("memory", "1Gi")])]) =
        "1073741824" ∧
      parseQuantity "1073741824" = parseQuantity "1Gi" ∧
      validateQuantityConstraint "1073741824" (RangeForm.exact "1Gi").text = false := by
  decide +kernel

/-! ### Quantities of Kubernetes -/

/-- A power of ten. -/
def tenTo : Int → ℚ
  | .ofNat exponent => ((10 ^ exponent : Nat) : ℚ)
  | .negSucc exponent => 1 / ((10 ^ (exponent + 1) : Nat) : ℚ)

/-- The suffixes of k8s.io/apimachinery/pkg/api/resource, with what they multiply by. -/
def kubeSuffixes : List (List Char × ℚ) :=
  [([], 1), (['n'], tenTo (-9)), (['u'], tenTo (-6)), (['m'], tenTo (-3)),
    (['k'], tenTo 3), (['M'], tenTo 6), (['G'], tenTo 9), (['T'], tenTo 12),
    (['P'], tenTo 15), (['E'], tenTo 18), (['K', 'i'], 1024), (['M', 'i'], 1024 ^ 2),
    (['G', 'i'], 1024 ^ 3), (['T', 'i'], 1024 ^ 4), (['P', 'i'], 1024 ^ 5),
    (['E', 'i'], 1024 ^ 6)]

/-- What a suffix multiplies by: one of the list, or a decimal exponent. -/
def kubeScale (suffix : List Char) : Option ℚ :=
  match kubeSuffixes.lookup suffix, suffix with
  | some scale, _ => some scale
  | none, 'e' :: exponent | none, 'E' :: exponent => (signedValue exponent).map tenTo
  | none, _ => none

/-- The value of a quantity without a sign: digits, perhaps a fraction, and a suffix. -/
def kubeMagnitude (text : List Char) : Option ℚ :=
  let whole := text.takeWhile fun letter => letter.isDigit
  let rest := text.dropWhile fun letter => letter.isDigit
  let (fraction, suffix) : List Char × List Char :=
    match rest with
    | '.' :: decimals =>
      (decimals.takeWhile fun letter => letter.isDigit,
        decimals.dropWhile fun letter => letter.isDigit)
    | _ => ([], rest)
  if whole.isEmpty && fraction.isEmpty then none
  else
    (kubeScale suffix).map fun scale =>
      (digitsValue (whole ++ fraction) : ℚ) / ((10 ^ fraction.length : Nat) : ℚ) * scale

/-- The amount that a Kubernetes quantity stands for, in cores or bytes; `none` is no
quantity.  It is the exact number, before the library rounds below nano or caps it. -/
def kubeQuantity (quantity : String) : Option ℚ :=
  match quantity.toList with
  | '-' :: magnitude => (kubeMagnitude magnitude).map fun amount => -amount
  | '+' :: magnitude => kubeMagnitude magnitude
  | magnitude => kubeMagnitude magnitude

/-- The text of a container's request, if it has one. -/
def requestText (resource : String) (container : ContainerSpec) : Option String :=
  container.resources.bind fun resources => resources.requests.get? resource

/-- What all containers of a Workload request together. -/
def kubeTotal (workload : Workload) (resource : String) : ℚ :=
  (workload.spec.containers.rows.map fun (_, container) =>
    ((requestText resource container).bind kubeQuantity).getD 0).sum

example : kubeQuantity "1.5Ki" = some 1536 := by decide +kernel

example : kubeQuantity "-2e-1" = some (-1 / 5) := by decide +kernel

/-! ### Where the selector agrees with Kubernetes -/

/-- The units in which the selector and Kubernetes mean the same. -/
def Dimension.units : Dimension → List (List Char × Int)
  | cpu => [(['m'], 1)]
  | memory | storage => [([], 1), (['M', 'i'], 1024 ^ 2), (['G', 'i'], 1024 ^ 3)]

/-- What the selector counts is this many to one core or byte. -/
def Dimension.scale : Dimension → ℚ
  | cpu => 1000
  | memory | storage => 1

/-- A whole number in such a unit, of a value that fits. -/
def Dimension.Plain (dimension : Dimension) (quantity : String) : Prop :=
  ∃ number value unit factor, (unit, factor) ∈ dimension.units ∧
    quantity = number ++ String.ofList unit ∧ signedValue number.toList = some value ∧
    FitsInt64 (value * factor)

/-- What the units have in common: the selector knows them, they do not begin like a
number, and they are the same multiple for Kubernetes. -/
theorem Dimension.units_agree (used : (unit, factor) ∈ dimension.units) :
    (unit, factor) ∈ ([], 1) :: knownUnits ∧
      (unit.takeWhile fun letter => letter.isDigit) = [] ∧ unit.head? ≠ some '.' ∧
      kubeScale unit = some (factor / dimension.scale) := by
  have all : ∀ row ∈ dimension.units, row ∈ ([], 1) :: knownUnits ∧
      (row.1.takeWhile fun letter => letter.isDigit) = [] ∧ row.1.head? ≠ some '.' ∧
      kubeScale row.1 = some (row.2 / dimension.scale) := by
    cases dimension <;> decide +kernel
  exact all (unit, factor) used

theorem kubeMagnitude_append {digits : List Char} {value : Nat}
    (read : naturalValue digits = some value)
    (letters : (unit.takeWhile fun letter => letter.isDigit) = [])
    (noFraction : unit.head? ≠ some '.') :
    kubeMagnitude (digits ++ unit) = (kubeScale unit).map fun scale => (value : ℚ) * scale := by
  obtain ⟨nonempty, all, rfl⟩ := naturalValue_eq_some.mp read
  have kept : (unit.dropWhile fun letter => letter.isDigit) = unit := dropWhile_of_takeWhile letters
  unfold kubeMagnitude
  simp only [List.takeWhile_append_of_pos all, List.dropWhile_append_of_pos all, letters,
    kept, List.append_nil]
  split
  · exact absurd rfl noFraction
  · simp [nonempty]

/-- A whole number in such a unit is the same amount for Kubernetes. -/
theorem kubeQuantity_append {number : String} (used : (unit, factor) ∈ dimension.units)
    (read : signedValue number.toList = some value) :
    kubeQuantity (number ++ String.ofList unit) =
      some ((value * factor : Int) / dimension.scale) := by
  obtain ⟨-, letters, noFraction, scale⟩ := dimension.units_agree used
  obtain ⟨digits, natural, spelled, shape⟩ := signedValue_cases read
  have magnitude : kubeMagnitude (digits ++ unit) = some (natural * factor / dimension.scale) := by
    rw [kubeMagnitude_append spelled letters noFraction, scale, Option.map_some,
      mul_div_assoc]
  unfold kubeQuantity
  rw [String.toList_append, String.toList_ofList]
  obtain ⟨sign, rfl⟩ | ⟨sign, rfl⟩ := shape
  · rw [sign]
    simp only [List.cons_append, magnitude, Option.map_some]
    push_cast
    rw [neg_mul, neg_div]
  · push_cast
    obtain sign | sign := sign
    · rw [sign]
      simp only [List.cons_append, magnitude]
    · -- the first letter is a digit, and no sign
      rw [sign]
      obtain ⟨nonempty, all, -⟩ := naturalValue_eq_some.mp spelled
      obtain ⟨first, rest, rfl⟩ := List.exists_cons_of_ne_nil nonempty
      have digit := all first (.head _)
      split
      next shape =>
        cases shape
        cases digit
      next shape =>
        cases shape
        cases digit
      next => exact magnitude

/-- A plain quantity is read by the selector, and is the amount that it says. -/
theorem Dimension.Plain.values (plain : dimension.Plain quantity) :
    ∃ exact : Int, parseQuantity quantity = some exact ∧
      kubeQuantity quantity = some (exact / dimension.scale) := by
  obtain ⟨number, value, unit, factor, used, rfl, read, fits⟩ := plain
  have known := (dimension.units_agree used).1
  exact ⟨value * factor, parseQuantity_of_fits (quantityValue_append read known) fits,
    kubeQuantity_append used read⟩

theorem Dimension.Plain.ne_empty (plain : dimension.Plain quantity) : quantity ≠ "" := by
  obtain ⟨number, value, unit, factor, -, rfl, read, -⟩ := plain
  intro empty
  have letters := congrArg String.toList empty
  have nothing : number.toList = [] := by
    simp only [String.toList_append] at letters
    exact (List.append_eq_nil_iff.mp letters).1
  rw [nothing] at read
  cases read

theorem Dimension.Plain.nonneg (plain : dimension.Plain quantity) (noSign : '-' ∉ quantity.toList)
    (parsed : parseQuantity quantity = some value) : 0 ≤ value := by
  obtain ⟨number, shown, unit, factor, used, rfl, read, fits⟩ := plain
  have known := (dimension.units_agree used).1
  rw [parseQuantity_of_fits (quantityValue_append read known) fits] at parsed
  cases parsed
  have positive : ∀ row ∈ ([], 1) :: knownUnits, 0 ≤ row.2 := by decide
  apply Int.mul_nonneg _ (positive _ known)
  obtain ⟨digits, natural, -, ⟨sign, -⟩ | ⟨-, rfl⟩⟩ := signedValue_cases read
  · simp [sign] at noSign
  · exact Int.natCast_nonneg natural

/-! ### The limits -/

/-- The bounds of a form are whole numbers in the units of the dimension.  An exact one has
no minus sign: its text would be that of a maximum. -/
def RangeForm.Plain (dimension : Dimension) (form : RangeForm) : Prop :=
  (∀ quantity ∈ form.quantities, dimension.Plain quantity) ∧
    ∀ quantity, form = .exact quantity → '-' ∉ quantity.toList

/-- The amount keeps the bounds, as Kubernetes reads them. -/
def RangeForm.Limits (form : RangeForm) (amount : ℚ) : Prop :=
  (∀ low ∈ form.minimum, ∃ bound ∈ kubeQuantity low, bound ≤ amount) ∧
    ∀ high ∈ form.maximum, ∃ bound ∈ kubeQuantity high, amount ≤ bound

/-- The constraints that have these forms. -/
def constraintsOf (forms : Dimension → Option RangeForm) : Config.ResourceConstraints where
  cpu := ((forms .cpu).map RangeForm.text).getD ""
  memory := ((forms .memory).map RangeForm.text).getD ""
  storage := ((forms .storage).map RangeForm.text).getD ""

/-- What the text of a request counts for: a whole number, perhaps with a sign and the unit m,
or so many MiB or GiB.  Any other text counts for nothing. -/
def countOf (quantity : String) : Int :=
  ((quantityNumber quantity).filter fun number => FitsInt64 number).elim 0 fun number =>
    number * (unitOf quantity.toList).2

/-- What the texts of all requests count for together, in 64 bits. -/
def counted (workload : Workload) (dimension : Dimension) : Int :=
  wrapInt64 (workload.spec.containers.rows.map fun (_, container) =>
    (requestText dimension.resource container).elim 0 countOf).sum

theorem wrapInt64_countOf (resource : String) (container : ContainerSpec) :
    wrapInt64 ((requestText resource container).elim 0 countOf) =
      wrapInt64 ((requestOf resource container).getD 0) := by
  have read : requestOf resource container =
      (requestText resource container).bind parseQuantity := rfl
  rw [read]
  cases requestText resource container with
  | none => rfl
  | some quantity =>
    simp only [Option.elim_some, Option.bind_some, countOf, parseQuantity_eq]
    cases (quantityNumber quantity).filter fun number => FitsInt64 number with
    | none => rfl
    | some number => exact (wrapInt64_eq_iff.mpr (fitsInt64_wrapInt64 _)).symm

/-- That is what the selector makes of them. -/
theorem counted_eq (workload : Workload) (dimension : Dimension) :
    counted workload dimension = wrapInt64 (requestSum workload dimension.resource) := by
  unfold counted requestSum
  induction workload.spec.containers.rows with
  | nil => rfl
  | cons row rows ih =>
    simp only [List.map_cons, List.sum_cons]
    rw [← wrapInt64_add, wrapInt64_countOf, wrapInt64_add, Int.add_comm, ← wrapInt64_add, ih,
      wrapInt64_add, Int.add_comm]

theorem fits_counted (workload : Workload) (dimension : Dimension) :
    FitsInt64 (counted workload dimension) :=
  fitsInt64_wrapInt64 _

/-- The requests count for what they are to Kubernetes.  A count that is negative passes for
anything up to nothing. -/
def Tallies (workload : Workload) (dimension : Dimension) : Prop :=
  if 0 ≤ counted workload dimension then
    kubeTotal workload dimension.resource = counted workload dimension / dimension.scale
  else kubeTotal workload dimension.resource ≤ 0

instance (workload : Workload) (dimension : Dimension) :
    Decidable (Tallies workload dimension) := by
  unfold Tallies
  infer_instance

theorem Dimension.scale_pos (dimension : Dimension) : 0 < dimension.scale := by
  cases dimension <;> decide +kernel

/-- Plain bounds of an accepted form have no minus sign. -/
theorem RangeForm.Plain.unsigned (plain : form.Plain dimension)
    (accepted : validateQuantityConstraint actual form.text = true) : form.Unsigned := by
  intro quantity member
  refine ⟨(plain.1 quantity member).ne_empty, fun signed => ?_⟩
  by_cases range : ∀ quantity, form ≠ .exact quantity
  · rw [RangeForm.refused range member signed] at accepted
    cases accepted
  · obtain ⟨other, rfl⟩ := by simpa using range
    have same : quantity = other := by simpa [quantities, minimum, maximum] using member
    exact plain.2 other rfl (same ▸ signed)

theorem RangeForm.Plain.readable (plain : form.Plain dimension) : form.Readable := by
  intro quantity member
  obtain ⟨exact, parsed, -⟩ := (plain.1 quantity member).values
  rw [parsed]
  rfl

/-- What is accepted of a sum that tallies is within the limits. -/
theorem limits_of_tallies {workload : Workload} (tallies : Tallies workload dimension)
    (plain : form.Plain dimension)
    (accepted : validateQuantityConstraint (dimension.print (counted workload dimension))
      form.text = true) : form.Limits (kubeTotal workload dimension.resource) := by
  have unsigned := plain.unsigned accepted
  have fits := fits_counted workload dimension
  have within := within_of_validate unsigned plain.readable fits accepted
  have positive := dimension.scale_pos
  unfold Tallies at tallies
  generalize counted workload dimension = sum at tallies within
  constructor
  · intro low member
    have listed : low ∈ form.quantities := List.mem_append_left _ (Option.mem_toList.mpr member)
    obtain ⟨exact, parsed, amount⟩ := (plain.1 low listed).values
    have bound := (plain.1 low listed).nonneg (unsigned low listed).2 parsed
    have kept : exact ≤ sum := within.1 low member exact parsed
    refine ⟨_, amount, ?_⟩
    rw [if_pos (bound.trans kept)] at tallies
    rw [tallies]
    gcongr
  · intro high member
    have listed : high ∈ form.quantities := List.mem_append_right _ (Option.mem_toList.mpr member)
    obtain ⟨exact, parsed, amount⟩ := (plain.1 high listed).values
    have bound := (plain.1 high listed).nonneg (unsigned high listed).2 parsed
    have kept : sum ≤ exact := within.2 high member exact parsed
    refine ⟨_, amount, ?_⟩
    split at tallies
    · rw [tallies]
      gcongr
    · have above : (0 : ℚ) ≤ exact := by exact_mod_cast bound
      exact tallies.trans (div_nonneg above positive.le)

theorem Dimension.constraint_constraintsOf (dimension : Dimension)
    (forms : Dimension → Option RangeForm) :
    dimension.constraint (constraintsOf forms) =
      ((forms dimension).map RangeForm.text).getD "" := by
  cases dimension <;> rfl

theorem Dimension.plain_print (dimension : Dimension) (fits : FitsInt64 value) :
    dimension.Plain (dimension.print value) := by
  have read := signedValue_repr value
  rw [← Int.mul_one value] at fits
  cases dimension with
  | cpu => exact ⟨_, value, ['m'], 1, .head _, rfl, read, fits⟩
  | memory | storage => exact ⟨_, value, [], 1, .head _, (String.append_empty).symm, read, fits⟩

theorem Dimension.unsigned_print (dimension : Dimension) (positive : 0 ≤ value) :
    '-' ∉ (dimension.print value).toList := by
  obtain ⟨natural, rfl⟩ := Int.eq_ofNat_of_zero_le positive
  have digits := (naturalValue_eq_some.mp (naturalValue_repr natural)).2.1
  have noSign : '-' ∉ (toString (natural : Int)).toList := fun member =>
    absurd (digits '-' member) (by decide)
  cases dimension with
  | cpu => simpa [print] using noSign
  | memory | storage => exact noSign

theorem Dimension.kubeQuantity_print (dimension : Dimension) (fits : FitsInt64 value) :
    kubeQuantity (dimension.print value) = some (value / dimension.scale) := by
  obtain ⟨exact, parsed, amount⟩ := (dimension.plain_print fits).values
  cases parsed.symm.trans (parseQuantity_print dimension fits)
  exact amount

/-- A range whose bounds are one printed number. -/
theorem plain_of_printed (fits : FitsInt64 value) (positive : 0 ≤ value)
    (range : ∀ quantity, form ≠ .exact quantity)
    (printed : ∀ quantity ∈ form.quantities, quantity = dimension.print value) :
    form.Plain dimension ∧ form.Unsigned := by
  have plain := dimension.plain_print fits
  refine ⟨⟨fun quantity member => ?_, fun quantity exact => absurd exact (range quantity)⟩,
    fun quantity member => ?_⟩
  · rw [printed quantity member]
    exact plain
  · rw [printed quantity member]
    exact ⟨plain.ne_empty, dimension.unsigned_print positive⟩

/-- A constraint on one dimension and none on the others. -/
def onlyOn (dimension : Dimension) (form : RangeForm) : Dimension → Option RangeForm := fun other =>
  if other = dimension then some form else none

/-- A plain range alone is kept by what the requests count for. -/
theorem validate_onlyOn {workload : Workload} (plain : form.Plain dimension)
    (unsigned : form.Unsigned) (range : ∀ quantity, form ≠ .exact quantity)
    (within : form.Within (counted workload dimension)) :
    validateResourceConstraints .entryOrder workload (constraintsOf (onlyOn dimension form)) =
      true := by
  refine validateResourceConstraints_iff.mpr fun other => ?_
  rw [other.constraint_constraintsOf, other.total_eq, ← counted_eq, onlyOn]
  split
  next same =>
    rw [same]
    exact (validate_form unsigned plain.readable (.of_range range)
      (fits_counted workload dimension)).mpr within
  next => rfl

/-- Two containers that ask for three quarters of a core. -/
def modestWorkload : Workload :=
  requestingWorkload [("app", [("cpu", "250m")]), ("proxy", [("cpu", "500m")])]

/-- At most one core. -/
def oneCore : Dimension → Option RangeForm
  | .cpu => some (.atMost "1000m")
  | .memory | .storage => none

/-- A container that asks for two cores and a TiB. -/
def hungryWorkload : Workload := requestingWorkload [("app", [("cpu", "2"), ("memory", "1Ti")])]

end ScoreOrchestrator.Selection
