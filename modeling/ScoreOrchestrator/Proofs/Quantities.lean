/-
Module: Proofs.Quantities
Purpose: The quantity arithmetic of the selector beside exact integers: what it reads,
  sums and prints, where it wraps around, and which of the validator's constraints it
  can read.
-/
import Mathlib.Algebra.BigOperators.Group.List.Basic
import Mathlib.Tactic.Linarith
import ScoreOrchestrator.Proofs.BackendSelection

namespace ScoreOrchestrator.Selection

open Foundation

variable {value : Int} {text unit number : List Char} {part : String}

/-! ### Integers of 64 bits -/

/-- The values of `int64`. -/
def FitsInt64 (value : Int) : Prop := -(2 ^ 63) ≤ value ∧ value < 2 ^ 63

instance (value : Int) : Decidable (FitsInt64 value) := inferInstanceAs (Decidable (_ ∧ _))

theorem fitsInt64_wrapInt64 (value : Int) : FitsInt64 (wrapInt64 value) := by
  have below := Int.le_bmod (x := value) (m := 2 ^ 64) (by decide)
  have above := Int.bmod_lt (x := value) (m := 2 ^ 64) (by decide)
  unfold FitsInt64 wrapInt64
  omega

/-- Wrapping around shows exactly where a value does not fit. -/
theorem wrapInt64_eq_iff : wrapInt64 value = value ↔ FitsInt64 value := by
  constructor
  · intro same
    rw [← same]
    exact fitsInt64_wrapInt64 value
  · intro fits
    unfold FitsInt64 at fits
    exact Int.bmod_eq_of_le (by omega) (by omega)

/-! ### Numbers -/

/-- The number that decimal digits spell, if there are any and nothing else. -/
def naturalValue (digits : List Char) : Option Nat :=
  if !digits.isEmpty && digits.all fun digit => digit.isDigit then
    some (digitsValue digits)
  else none

/-- The number that an optional sign and decimal digits spell, of whatever size. -/
def signedValue (text : List Char) : Option Int :=
  match text with
  | '-' :: digits => (naturalValue digits).map fun value : Nat => -(value : Int)
  | '+' :: digits => (naturalValue digits).map fun value : Nat => (value : Int)
  | digits => (naturalValue digits).map fun value : Nat => (value : Int)

theorem naturalValue_eq_some {digits : List Char} {value : Nat} :
    naturalValue digits = some value ↔
      digits ≠ [] ∧ (∀ digit ∈ digits, digit.isDigit = true) ∧
        digitsValue digits = value := by
  simp [naturalValue, and_assoc]

/-- The test for digits and then the test for the bounds, under either sign. -/
theorem filter_map_naturalValue (digits : List Char) (signed : Nat → Int) :
    ((naturalValue digits).map signed).filter (fun value => FitsInt64 value) =
      if !digits.isEmpty && digits.all fun digit => digit.isDigit then
        if FitsInt64 (signed (digitsValue digits)) then some (signed (digitsValue digits))
        else none
      else none := by
  unfold naturalValue
  by_cases spelled : (!digits.isEmpty && digits.all fun digit => digit.isDigit) = true
  · rw [if_pos spelled, if_pos spelled, Option.map_some, Option.filter_some]
    simp only [decide_eq_true_eq]
  · rw [if_neg spelled, if_neg spelled, Option.map_none, Option.filter_none]

/-- `ParseInt` refuses what is no number and what does not fit. -/
theorem parseInt_eq (text : List Char) :
    parseInt text = (signedValue text).filter fun value => FitsInt64 value := by
  unfold parseInt signedValue
  split
  next negative digits read =>
    -- the sign of the source's match
    split at read <;> cases read
    · exact (filter_map_naturalValue digits fun value => -(value : Int)).symm
    · exact (filter_map_naturalValue digits fun value => (value : Int)).symm
    · simp only [Bool.false_eq_true, if_false]
      exact (filter_map_naturalValue text fun value => (value : Int)).symm

theorem parseInt_eq_some :
    parseInt text = some value ↔ signedValue text = some value ∧ FitsInt64 value := by
  rw [parseInt_eq, Option.filter_eq_some_iff, decide_eq_true_eq]

/-- Without a sign it is the digits alone. -/
theorem signedValue_of_naturalValue {digits : List Char} {value : Nat}
    (read : naturalValue digits = some value) : signedValue digits = some (value : Int) := by
  have all := (naturalValue_eq_some.mp read).2.1
  unfold signedValue
  split
  · exact absurd (all '-' (.head _)) (by decide)
  · exact absurd (all '+' (.head _)) (by decide)
  · rw [read]
    rfl

theorem isAlpha_of_isDigit {letter : Char} (digit : letter.isDigit = true) :
    letter.isAlpha = false := by
  have high : letter.val ≤ '9'.val := by
    have bounds : (decide (letter.val ≥ '0'.val) && decide (letter.val ≤ '9'.val)) = true := digit
    rw [Bool.and_eq_true] at bounds
    exact of_decide_eq_true bounds.2
  have upper : ¬(letter.val ≥ 'A'.val ∧ letter.val ≤ 'Z'.val) := fun range =>
    absurd (UInt32.le_trans range.1 high) (by decide)
  have lower : ¬letter.val ≥ 'a'.val := fun above =>
    absurd (UInt32.le_trans above high) (by decide)
  have letters : letter.isAlpha = (decide (letter.val ≥ 'A'.val ∧ letter.val ≤ 'Z'.val) ||
      (decide (letter.val ≥ 'a'.val) && decide (letter.val ≤ 'z'.val))) := rfl
  rw [letters, decide_eq_false upper, decide_eq_false lower]
  rfl

/-- A number is a minus sign and digits, a plus sign and digits, or digits. -/
theorem signedValue_cases (read : signedValue text = some value) :
    ∃ digits natural, naturalValue digits = some natural ∧
      (text = '-' :: digits ∧ value = -(natural : Int) ∨
        (text = '+' :: digits ∨ text = digits) ∧ value = natural) := by
  unfold signedValue at read
  split at read <;> obtain ⟨natural, spelled, rfl⟩ := Option.map_eq_some_iff.mp read
  next digits => exact ⟨digits, natural, spelled, .inl ⟨rfl, rfl⟩⟩
  next digits => exact ⟨digits, natural, spelled, .inr ⟨.inl rfl, rfl⟩⟩
  next => exact ⟨text, natural, spelled, .inr ⟨.inr rfl, rfl⟩⟩

/-- Numbers have no letters. -/
theorem isAlpha_of_signedValue (read : signedValue text = some value) :
    ∀ letter ∈ text, letter.isAlpha = false := by
  obtain ⟨digits, natural, spelled, shape⟩ := signedValue_cases read
  have noLetters : ∀ letter ∈ digits, letter.isAlpha = false := fun letter member =>
    isAlpha_of_isDigit ((naturalValue_eq_some.mp spelled).2.1 letter member)
  obtain ⟨rfl, -⟩ | ⟨rfl | rfl, -⟩ := shape
  · exact List.forall_mem_cons.mpr ⟨by decide, noLetters⟩
  · exact List.forall_mem_cons.mpr ⟨by decide, noLetters⟩
  · exact noLetters

/-! ### Printed numbers -/

theorem naturalValue_repr (value : Nat) : naturalValue value.repr.toList = some value := by
  rw [Nat.toList_repr]
  refine naturalValue_eq_some.mpr ⟨Nat.toDigits_ne_nil, fun digit member => ?_, ?_⟩
  · exact Nat.isDigit_of_mem_toDigits (b := 10) (by decide) (by decide) member
  · have read : Nat.ofDigitChars 10 (Nat.toDigits 10 value) 0 = value :=
      Nat.ofDigitChars_toDigits (by decide) (by decide)
    simpa only [Nat.ofDigitChars, Nat.mul_comm 10, digitsValue] using read

/-- A printed number is read back. -/
theorem signedValue_repr (value : Int) : signedValue (toString value).toList = some value := by
  rw [Int.toString_eq_repr]
  cases value with
  | ofNat value => exact signedValue_of_naturalValue (naturalValue_repr value)
  | negSucc value =>
    have shape : (Int.negSucc value).repr.toList = '-' :: value.succ.repr.toList := by
      simp [Int.repr]
    rw [shape]
    simp only [signedValue, naturalValue_repr, Option.map_some]
    rfl

theorem toString_injective {first second : Int} (same : toString first = toString second) :
    first = second := by
  have read := congrArg (fun text : String => signedValue text.toList) same
  simpa only [signedValue_repr, Option.some.injEq] using read

/-! ### Units -/

/-- The units that the selector knows, with their factors. -/
def knownUnits : List (List Char × Int) :=
  [(['m'], 1), (['M', 'i'], 1024 ^ 2), (['G', 'i'], 1024 ^ 3)]

/-- A quantity taken apart: its number and the factor of its unit. -/
def unitOf (text : List Char) : List Char × Int :=
  (knownUnits.findSome? fun (unit, factor) =>
    (stripSuffix unit text).map fun number => (number, factor)).getD (text, 1)

theorem stripSuffix_eq_some : stripSuffix unit text = some number ↔ text = number ++ unit := by
  unfold stripSuffix
  constructor
  · intro stripped
    split at stripped
    next isSuffix =>
      obtain ⟨front, rfl⟩ := List.isSuffixOf_iff_suffix.mp isSuffix
      cases stripped
      simp
    next => cases stripped
  · rintro rfl
    simp

theorem stripSuffix_eq_none : stripSuffix unit text = none ↔ ∀ number, text ≠ number ++ unit := by
  simp only [Option.eq_none_iff_forall_ne_some, ne_eq, stripSuffix_eq_some]

/-- A text either ends in a known unit, or it is taken as a bare number. -/
theorem unitOf_cases (text : List Char) :
    (∃ unit, (unit, (unitOf text).2) ∈ knownUnits ∧ text = (unitOf text).1 ++ unit) ∨
      unitOf text = (text, 1) ∧ ∀ row ∈ knownUnits, ∀ number, text ≠ number ++ row.1 := by
  unfold unitOf
  cases found : knownUnits.findSome? fun (unit, factor) =>
      (stripSuffix unit text).map fun number => (number, factor) with
  | some taken =>
    obtain ⟨⟨unit, factor⟩, known, stripped⟩ := List.exists_of_findSome?_eq_some found
    obtain ⟨number, cut, rfl⟩ := Option.map_eq_some_iff.mp stripped
    exact .inl ⟨unit, known, stripSuffix_eq_some.mp cut⟩
  | none =>
    refine .inr ⟨rfl, fun row known => ?_⟩
    have missing := List.findSome?_eq_none_iff.mp found row known
    exact stripSuffix_eq_none.mp (Option.map_eq_none_iff.mp missing)

theorem mem_of_mem_unitOf {letter : Char} (member : letter ∈ (unitOf text).1) : letter ∈ text := by
  obtain ⟨unit, -, split⟩ | ⟨bare, -⟩ := unitOf_cases text
  · rw [split]
    exact List.mem_append_left _ member
  · rwa [bare] at member

/-- The known units are told apart by their last letters. -/
theorem append_unit_inj {first second : List Char × Int} {other : List Char}
    (known : first ∈ knownUnits) (known' : second ∈ knownUnits)
    (same : number ++ first.1 = other ++ second.1) : number = other ∧ first = second := by
  -- read backwards, the units differ in the first or second letter
  have backwards := congrArg List.reverse same
  simp only [knownUnits, List.mem_cons, List.not_mem_nil, or_false] at known known'
  rcases known with rfl | rfl | rfl <;> rcases known' with rfl | rfl | rfl <;>
    simp at backwards <;> exact ⟨backwards, rfl⟩

theorem unitOf_append {factor : Int} (number : List Char) (known : (unit, factor) ∈ knownUnits) :
    unitOf (number ++ unit) = (number, factor) := by
  obtain ⟨other, known', same⟩ | ⟨-, bare⟩ := unitOf_cases (number ++ unit)
  · obtain ⟨numbers, rows⟩ := append_unit_inj known known' same
    exact Prod.ext numbers.symm (congrArg Prod.snd rows).symm
  · exact absurd rfl (bare _ known number)

/-- Known units begin with a letter. -/
theorem knownUnit_letters {row : List Char × Int} (known : row ∈ knownUnits) :
    (row.1.takeWhile fun letter => letter.isDigit) = [] ∧
      ∃ letter ∈ row.1, letter.isAlpha = true := by
  simp only [knownUnits, List.mem_cons, List.not_mem_nil, or_false] at known
  rcases known with rfl | rfl | rfl
  · exact ⟨rfl, 'm', .head _, rfl⟩
  · exact ⟨rfl, 'M', .head _, rfl⟩
  · exact ⟨rfl, 'G', .head _, rfl⟩

/-- Without letters there is no unit. -/
theorem unitOf_bare (bare : ∀ letter ∈ text, letter.isAlpha = false) : unitOf text = (text, 1) := by
  obtain ⟨unit, known, split⟩ | ⟨unitless, -⟩ := unitOf_cases text
  · obtain ⟨letter, member, alpha⟩ := (knownUnit_letters known).2
    have noLetter := bare letter (by rw [split]; exact List.mem_append_right _ member)
    rw [alpha] at noLetter
    cases noLetter
  · exact unitless

theorem one_le_factor (text : List Char) : 1 ≤ (unitOf text).2 := by
  obtain ⟨unit, known, -⟩ | ⟨bare, -⟩ := unitOf_cases text
  · have positive : ∀ row ∈ knownUnits, 1 ≤ row.2 := by decide
    exact positive (unit, (unitOf text).2) known
  · rw [bare]

/-! ### Quantities -/

/-- The number of a quantity, without its unit; the empty one asks for nothing. -/
def quantityNumber (quantity : String) : Option Int :=
  if quantity.toList.isEmpty then some 0 else signedValue (unitOf quantity.toList).1

/-- The mathematical value of a quantity in its unit. -/
def quantityValue (quantity : String) : Option Int :=
  (quantityNumber quantity).map fun number => number * (unitOf quantity.toList).2

/-- The number has to fit, and what is returned is the product of 64 bits. -/
theorem parseQuantity_eq (quantity : String) :
    parseQuantity quantity =
      ((quantityNumber quantity).filter fun number => FitsInt64 number).map
        fun number => wrapInt64 (number * (unitOf quantity.toList).2) := by
  have bare (text : List Char) :
      parseInt text = (parseInt text).map fun number => wrapInt64 (number * 1) := by
    cases read : parseInt text with
    | none => rfl
    | some number =>
      have fits := (parseInt_eq_some.mp read).2
      rw [Option.map_some, Int.mul_one, wrapInt64_eq_iff.mpr fits]
  unfold parseQuantity quantityNumber
  by_cases empty : quantity.toList.isEmpty
  · rw [if_pos empty, if_pos empty, Option.filter_some, if_pos (by decide), Option.map_some,
      Int.zero_mul]
    rfl
  · rw [if_neg empty, if_neg empty, ← parseInt_eq]
    simp only [unitOf, knownUnits, List.findSome?]
    cases stripSuffix ['m'] quantity.toList with
    | some number => exact bare number
    | none =>
      cases stripSuffix ['M', 'i'] quantity.toList with
      | some number => simp only [Int.mul_assoc]; rfl
      | none =>
        cases stripSuffix ['G', 'i'] quantity.toList with
        | some number => simp only [Int.mul_assoc]; rfl
        | none => exact bare quantity.toList

/-- What is read is the exact value, wrapped around. -/
theorem exact_of_parseQuantity {quantity : String} (read : parseQuantity quantity = some value) :
    ∃ exact, quantityValue quantity = some exact ∧ value = wrapInt64 exact := by
  rw [parseQuantity_eq] at read
  obtain ⟨number, kept, rfl⟩ := Option.map_eq_some_iff.mp read
  obtain ⟨spelled, -⟩ := Option.filter_eq_some_iff.mp kept
  exact ⟨_, congrArg (Option.map _) spelled, rfl⟩

/-- A quantity whose value fits is read as it is. -/
theorem parseQuantity_of_fits {quantity : String} {exact : Int}
    (value : quantityValue quantity = some exact) (fits : FitsInt64 exact) :
    parseQuantity quantity = some exact := by
  obtain ⟨number, spelled, rfl⟩ := Option.map_eq_some_iff.mp value
  have numberFits : FitsInt64 number := by
    have positive := one_le_factor quantity.toList
    unfold FitsInt64 at fits ⊢
    constructor <;> nlinarith
  rw [parseQuantity_eq, spelled, Option.filter_some, if_pos (decide_eq_true numberFits),
    Option.map_some, wrapInt64_eq_iff.mpr fits]

/-- What is accepted is a number that fits. -/
theorem parseQuantity_isSome_iff (quantity : String) :
    (parseQuantity quantity).isSome ↔
      ∃ number, quantityNumber quantity = some number ∧ FitsInt64 number := by
  rw [parseQuantity_eq, Option.isSome_map, Option.isSome_iff_exists]
  simp only [Option.filter_eq_some_iff, decide_eq_true_eq]

/-! ### Totals -/

/-- The mathematical sum of the parsed requests for one resource. -/
def requestSum (workload : Workload) (resource : String) : Int :=
  (workload.spec.containers.rows.map fun (_, container) =>
    (requestOf resource container).getD 0).sum

theorem foldl_requests (resource : String) (rows : List (String × ContainerSpec)) (start : Int) :
    rows.foldl (fun total (_, container) =>
      match requestOf resource container with
      | some quantity => wrapInt64 (total + quantity)
      | none => total) (wrapInt64 start) =
      wrapInt64 (start +
        (rows.map fun (_, container) => (requestOf resource container).getD 0).sum) := by
  induction rows generalizing start with
  | nil => simp
  | cons row rows ih =>
    rw [List.foldl_cons, List.map_cons, List.sum_cons]
    cases requested : requestOf resource row.2 with
    | some quantity => simp only [requested, wrapInt64_add, ih, Option.getD_some, Int.add_assoc]
    | none => simp only [requested, ih, Option.getD_none, Int.zero_add]

/-- A total is the sum of the requests, wrapped around. -/
theorem totalRequests_eq (order : IterOrder) (workload : Workload) (resource : String) :
    totalRequests order workload resource = wrapInt64 (requestSum workload resource) := by
  have summed := foldl_requests resource (order.range workload.spec.containers) 0
  have permuted := (order.perm workload.spec.containers.rows).map
    fun row => (requestOf resource row.2).getD 0
  rw [Int.zero_add] at summed
  exact summed.trans (congrArg wrapInt64 permuted.sum_eq)

theorem calculateWorkloadResources_eq (order : IterOrder) (workload : Workload) :
    calculateWorkloadResources order workload =
      (toString (wrapInt64 (requestSum workload "cpu")) ++ "m",
        toString (wrapInt64 (requestSum workload "memory")),
        toString (wrapInt64 (requestSum workload "ephemeral-storage"))) := by
  simp only [calculateWorkloadResources, totalRequests_eq]

theorem toString_eq_iff {first second : Int} : toString first = toString second ↔ first = second :=
  ⟨toString_injective, congrArg toString⟩

/-- Reading and summing quantities is exact just where nothing leaves `int64`. -/
theorem quantities_exact_iff (quantity : String) (order : IterOrder) (workload : Workload) :
    (parseQuantity quantity = none ∨
      ∃ exact, quantityValue quantity = some exact ∧
        (parseQuantity quantity = some exact ↔ FitsInt64 exact)) ∧
      (calculateWorkloadResources order workload =
          (toString (requestSum workload "cpu") ++ "m", toString (requestSum workload "memory"),
            toString (requestSum workload "ephemeral-storage")) ↔
        FitsInt64 (requestSum workload "cpu") ∧
          FitsInt64 (requestSum workload "memory") ∧
          FitsInt64 (requestSum workload "ephemeral-storage")) := by
  constructor
  · cases read : parseQuantity quantity with
    | none => exact .inl rfl
    | some value =>
      obtain ⟨exact, spelled, rfl⟩ := exact_of_parseQuantity read
      refine .inr ⟨exact, spelled, ?_⟩
      rw [Option.some.injEq, wrapInt64_eq_iff]
  · rw [calculateWorkloadResources_eq]
    simp only [Prod.mk.injEq, String.append_left_inj, toString_eq_iff, wrapInt64_eq_iff]

/-- A Workload whose containers have the given requests. -/
def requestingWorkload (containers : List (String × List (String × String))) : Workload where
  metadata := { name := "web", ns := "default" }
  spec := { containers := .ofList (containers.map fun (name, requests) =>
    (name, { image := "nginx"
             resources := some { limits := .ofList [], requests := .ofList requests } })) }
  status := default

theorem quantities_exact_web :
    parseQuantity "512Mi" = some (512 * 1024 ^ 2) ∧
      calculateWorkloadResources .entryOrder
          (requestingWorkload [("app", [("cpu", "250m"), ("memory", "1Gi")]),
            ("proxy", [("cpu", "50m")])]) = ("300m", "1073741824", "0") := by
  obtain ⟨parsed, summed⟩ := quantities_exact_iff "512Mi" .entryOrder
    (requestingWorkload [("app", [("cpu", "250m"), ("memory", "1Gi")]),
      ("proxy", [("cpu", "50m")])])
  constructor
  · obtain unread | ⟨exact, spelled, exactly⟩ := parsed
    · exact absurd unread (by decide +kernel)
    · have value : quantityValue "512Mi" = some (512 * 1024 ^ 2) := by decide +kernel
      cases spelled.symm.trans value
      exact exactly.mpr (by decide)
  · exact summed.mpr (by decide +kernel)

/-- Two containers that each ask for the largest number of bytes. -/
def greedyWorkload : Workload :=
  requestingWorkload [("app", [("memory", "9223372036854775807")]),
    ("proxy", [("memory", "9223372036854775807")])]

/-- Sixteen EiB are read as nothing, and the two greedy containers sum to less than
nothing. -/
theorem quantities_wrap_around :
    parseQuantity "17179869184Gi" = some 0 ∧
      quantityValue "17179869184Gi" = some (2 ^ 64) ∧
      calculateWorkloadResources .entryOrder greedyWorkload = ("0m", "-2", "0") ∧
      requestSum greedyWorkload "memory" = 2 ^ 64 - 2 := by
  decide +kernel

/-! ### The constraint language of the validator -/

/-- The digits that a part of a constraint begins with. -/
def partDigits (part : String) : List Char := part.toList.takeWhile fun letter => letter.isDigit

/-- The unit that follows them. -/
def partUnit (part : String) : List Char := part.toList.dropWhile fun letter => letter.isDigit

/-- The parts that the selector can read: it knows the unit, and the number fits. -/
def Readable (part : String) : Prop :=
  (partUnit part = [] ∨ partUnit part ∈ knownUnits.map Prod.fst) ∧
    digitsValue (partDigits part) < 2 ^ 63

instance (part : String) : Decidable (Readable part) := inferInstanceAs (Decidable (_ ∧ _))

theorem signedValue_of_unsigned (unsigned : ∀ letter ∈ text, letter ≠ '-' ∧ letter ≠ '+') :
    signedValue text = (naturalValue text).map fun value : Nat => (value : Int) := by
  unfold signedValue
  split
  · exact absurd rfl (unsigned '-' (.head _)).1
  · exact absurd rfl (unsigned '+' (.head _)).2
  · rfl

/-- A quantity of the validator is digits and then letters. -/
theorem isQuantity_iff :
    Config.isQuantity text = true ↔
      (text.takeWhile fun letter => letter.isDigit) ≠ [] ∧
        ∀ letter ∈ text.dropWhile fun letter => letter.isDigit, letter.isAlpha = true := by
  have lengths : ((text.takeWhile fun letter => letter.isDigit) ++
      text.dropWhile fun letter => letter.isDigit).length = text.length :=
    congrArg List.length List.takeWhile_append_dropWhile
  rw [List.length_append] at lengths
  simp only [Config.isQuantity, Bool.and_eq_true, decide_eq_true_eq, List.all_eq_true,
    ← List.length_pos_iff]
  refine and_congr_left fun _ => ?_
  omega

theorem partDigits_append_partUnit (part : String) :
    partDigits part ++ partUnit part = part.toList :=
  List.takeWhile_append_dropWhile

theorem isDigit_of_mem_partDigits {digit : Char} (member : digit ∈ partDigits part) :
    digit.isDigit = true :=
  (List.all_eq_true.mp List.all_takeWhile) digit member

/-- What begins with no digit is left alone. -/
theorem dropWhile_of_takeWhile (letters : (unit.takeWhile fun letter => letter.isDigit) = []) :
    (unit.dropWhile fun letter => letter.isDigit) = unit := by
  have whole : (unit.takeWhile fun letter => letter.isDigit) ++
      (unit.dropWhile fun letter => letter.isDigit) = unit :=
    List.takeWhile_append_dropWhile
  rwa [letters, List.nil_append] at whole

/-- A part is taken apart in only one way. -/
theorem part_unique (split : part.toList = number ++ unit)
    (digits : ∀ digit ∈ number, digit.isDigit = true)
    (letters : (unit.takeWhile fun letter => letter.isDigit) = []) :
    partDigits part = number ∧ partUnit part = unit := by
  have kept := dropWhile_of_takeWhile letters
  unfold partDigits partUnit
  rw [split, List.takeWhile_append_of_pos digits, List.dropWhile_append_of_pos digits,
    letters, kept, List.append_nil]
  exact ⟨rfl, rfl⟩

/-- The selector's number is a number just when the rest of the part is a unit it
knows, and then it is the digits of the part. -/
theorem naturalValue_unitOf {value : Nat} :
    naturalValue (unitOf part.toList).1 = some value ↔
      partDigits part ≠ [] ∧
        (partUnit part = [] ∨ partUnit part ∈ knownUnits.map Prod.fst) ∧
        digitsValue (partDigits part) = value := by
  constructor
  · intro read
    obtain ⟨nonempty, digits, rfl⟩ := naturalValue_eq_some.mp read
    obtain ⟨unit, known, split⟩ | ⟨bare, -⟩ := unitOf_cases part.toList
    · obtain ⟨number, rest⟩ := part_unique split digits (knownUnit_letters known).1
      rw [number, rest]
      exact ⟨nonempty, .inr (List.mem_map_of_mem known), rfl⟩
    · rw [bare] at nonempty digits ⊢
      obtain ⟨number, rest⟩ := part_unique (List.append_nil _).symm digits rfl
      rw [number, rest]
      exact ⟨nonempty, .inl rfl, rfl⟩
  · rintro ⟨nonempty, ending, rfl⟩
    have digits : ∀ digit ∈ partDigits part, digit.isDigit = true :=
      fun digit member => isDigit_of_mem_partDigits member
    have number : (unitOf part.toList).1 = partDigits part := by
      rw [← partDigits_append_partUnit]
      obtain bare | known := ending
      · rw [bare, List.append_nil,
          unitOf_bare fun digit member => isAlpha_of_isDigit (digits digit member)]
      · obtain ⟨⟨unit, factor⟩, known, same⟩ := List.mem_map.mp known
        rw [← same, unitOf_append _ known]
    rw [number]
    exact naturalValue_eq_some.mpr ⟨nonempty, digits, rfl⟩

/-- Of the quantities of the validator the selector accepts the readable ones. -/
theorem parseQuantity_isSome_iff_readable (accepted : Config.isQuantity part.toList = true) :
    (parseQuantity part).isSome ↔ Readable part := by
  obtain ⟨nonempty, letters⟩ := isQuantity_iff.mp accepted
  have filled : ¬part.toList.isEmpty = true := by
    intro empty
    rw [List.isEmpty_iff] at empty
    exact nonempty (by rw [empty]; rfl)
  have unsigned : ∀ letter ∈ (unitOf part.toList).1, letter ≠ '-' ∧ letter ≠ '+' := by
    intro letter member
    have inside := mem_of_mem_unitOf member
    rw [← partDigits_append_partUnit, List.mem_append] at inside
    obtain digit | alpha := inside
    · have isDigit := isDigit_of_mem_partDigits digit
      constructor <;> rintro rfl <;> exact absurd isDigit (by decide)
    · have isAlpha := letters letter alpha
      constructor <;> rintro rfl <;> exact absurd isAlpha (by decide)
  rw [parseQuantity_isSome_iff, quantityNumber, if_neg filled,
    signedValue_of_unsigned unsigned]
  constructor
  · rintro ⟨number, read, fits⟩
    obtain ⟨value, spelled, rfl⟩ := Option.map_eq_some_iff.mp read
    obtain ⟨-, ending, rfl⟩ := naturalValue_unitOf.mp spelled
    exact ⟨ending, by unfold FitsInt64 at fits; omega⟩
  · rintro ⟨ending, fits⟩
    have read := naturalValue_unitOf.mpr ⟨nonempty, ending, rfl⟩
    refine ⟨digitsValue (partDigits part), by rw [read]; rfl, ?_⟩
    unfold FitsInt64
    omega

/-- One or two parts, each empty or a quantity of the validator. -/
def QuantityParts (constraint : String) : Prop :=
  (splitText '-' constraint).length ∈ [1, 2] ∧
    ∀ part ∈ splitText '-' constraint, part = "" ∨ Config.isQuantity part.toList = true

theorem quantityParts_of_constraintPattern {constraint : String}
    (accepted : Config.constraintPattern constraint = true) : QuantityParts constraint := by
  unfold Config.constraintPattern at accepted
  unfold QuantityParts splitText
  split at accepted
  next quantity parts =>
    rw [parts]
    exact ⟨by simp, by simpa using .inr accepted⟩
  next low high parts =>
    rw [parts]
    refine ⟨by simp, ?_⟩
    simp only [Bool.or_eq_true, Bool.and_eq_true, List.isEmpty_iff] at accepted
    rcases accepted with (⟨lower, upper⟩ | ⟨rfl, upper⟩) | ⟨lower, rfl⟩ <;> simp [*]
  next => cases accepted

theorem quantityParts_of_validateRange {path value detail : String}
    (accepted : Config.validateRange path value detail = []) : QuantityParts value := by
  unfold Config.validateRange at accepted
  by_cases given : value = ""
  · rw [given]
    exact ⟨by decide, by decide⟩
  · apply quantityParts_of_constraintPattern
    simpa [given] using accepted

/-- Of the parts of an accepted constraint the selector can read the empty ones and the
readable quantities. -/
theorem accepted_parts_iff {resources : Config.ResourceConstraints} {path : String}
    (accepted : Config.validateResourceConstraints resources path = []) {constraint : String}
    (member : constraint ∈ [resources.cpu, resources.memory, resources.storage]) :
    (splitText '-' constraint).length ∈ [1, 2] ∧
      ∀ part ∈ splitText '-' constraint,
        (part = "" ∨ (parseQuantity part).isSome ↔ part = "" ∨ Readable part) := by
  have parts : QuantityParts constraint := by
    simp only [Config.validateResourceConstraints, List.append_eq_nil_iff] at accepted
    obtain ⟨⟨cpu, memory⟩, storage⟩ := accepted
    simp only [List.mem_cons, List.not_mem_nil, or_false] at member
    rcases member with rfl | rfl | rfl
    · exact quantityParts_of_validateRange cpu
    · exact quantityParts_of_validateRange memory
    · exact quantityParts_of_validateRange storage
  refine ⟨parts.1, fun part inside => ?_⟩
  obtain empty | quantity := parts.2 part inside
  · exact iff_of_true (.inl empty) (.inl empty)
  · rw [parseQuantity_isSome_iff_readable quantity]

theorem accepted_parts_memory :
    Config.validateResourceConstraints { memory := "128Mi-8Gi" } "resources" = [] ∧
      ∀ part ∈ splitText '-' "128Mi-8Gi", part = "" ∨ (parseQuantity part).isSome := by
  have accepted : Config.validateResourceConstraints { memory := "128Mi-8Gi" } "resources" =
      [] := by
    decide +kernel
  have member : "128Mi-8Gi" ∈ ["", "128Mi-8Gi", ""] := by decide
  have parts := accepted_parts_iff accepted member
  refine ⟨accepted, fun part inside => (parts.2 part inside).mpr ?_⟩
  revert part
  decide +kernel

/-- A maximum of 512 KiB is accepted, and no Workload is ever let in. -/
theorem accepted_unreadable :
    Config.validateResourceConstraints { memory := "-512Ki" } "resources" = [] ∧
      splitText '-' "-512Ki" = ["", "512Ki"] ∧
      parseQuantity "512Ki" = none ∧
      ∀ order workload,
        validateResourceConstraints order workload { memory := "-512Ki" } = false := by
  refine ⟨by decide +kernel, by decide +kernel, by decide +kernel, fun order workload => ?_⟩
  have split : splitText '-' "-512Ki" = ["", "512Ki"] := by decide +kernel
  have unread : parseQuantity "512Ki" = none := by decide +kernel
  have refused (actual : String) : validateQuantityConstraint actual "-512Ki" = false := by
    simp [validateQuantityConstraint, split, boundKept, unread]
  simp [validateResourceConstraints, refused]

end ScoreOrchestrator.Selection
