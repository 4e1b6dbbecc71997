/-
Module: Proofs.Placeholders
Purpose: What the resolution of a value makes of its placeholders, for values put
  together from literal texts and references in the two spellings.
-/
import ScoreOrchestrator.Foundation.Scanning
import ScoreOrchestrator.Foundation.Traverse
import ScoreOrchestrator.Reconcile.Resolver

namespace ScoreOrchestrator.Reconcile

open Foundation

/-! ### Values in pieces -/

/-- The two spellings of a reference, without and with `outputs`. -/
inductive Spelling where
  | short
  | long
deriving DecidableEq, Repr

namespace Spelling

/-- The text of a reference, as the source prints it. -/
def templateVar (spelling : Spelling) (resourceKey outputKey : String) : String :=
  match spelling with
  | short => "$\x7bresources." ++ resourceKey ++ "." ++ outputKey ++ "\x7d"
  | long => "$\x7bresources." ++ resourceKey ++ ".outputs." ++ outputKey ++ "\x7d"

/-- The expression that finds it. -/
def pattern : Spelling → Regex
  | short => resourceRefPattern
  | long => resourceRefWithOutputsPattern

/-- What stands between the dot after the resource key and the output key. -/
def middle : Spelling → List Char
  | short => []
  | long => ['o', 'u', 't', 'p', 'u', 't', 's', '.']

theorem forall_ne_short {holds : Spelling → Prop} :
    (∀ other ≠ short, holds other) ↔ holds long := by
  constructor
  · intro all
    exact all long (by decide)
  · rintro held (_ | _) different
    · exact absurd rfl different
    · exact held

theorem forall_ne_long {holds : Spelling → Prop} : (∀ other ≠ long, holds other) ↔ holds short := by
  constructor
  · intro all
    exact all short (by decide)
  · rintro held (_ | _) different
    · exact held
    · exact absurd rfl different

end Spelling

/-- A piece of a value. -/
inductive Piece where
  | literal (text : String)
  | reference (spelling : Spelling) (resourceKey outputKey : String)
deriving DecidableEq, Repr

/-- The keys that a reference may have. -/
structure ValidKeys (spelling : Spelling) (resourceKey outputKey : String) : Prop where
  resourceKey_ne : resourceKey ≠ ""
  resourceKey_letters :
    ∀ letter ∈ resourceKey.toList, letter ≠ '.' ∧ letter ≠ '\x7d' ∧ letter ≠ '$'
  outputKey_ne : outputKey ≠ ""
  outputKey_letters : ∀ letter ∈ outputKey.toList, letter ≠ '\x7d' ∧ letter ≠ '$'
  outputKey_start : spelling = .short → ¬Spelling.long.middle <+: outputKey.toList

instance (spelling : Spelling) (resourceKey outputKey : String) :
    Decidable (ValidKeys spelling resourceKey outputKey) :=
  decidable_of_iff
    (resourceKey ≠ "" ∧
      (resourceKey.toList.all fun letter =>
        letter ≠ '.' ∧ letter ≠ '\x7d' ∧ letter ≠ '$') = true ∧
      outputKey ≠ "" ∧
      (outputKey.toList.all fun letter => letter ≠ '\x7d' ∧ letter ≠ '$') = true ∧
      (spelling = .short → ¬Spelling.long.middle <+: outputKey.toList)) (by
    simp only [List.all_eq_true, decide_eq_true_eq]
    exact ⟨fun ⟨first, second, third, fourth, fifth⟩ => ⟨first, second, third, fourth, fifth⟩,
      fun ⟨first, second, third, fourth, fifth⟩ => ⟨first, second, third, fourth, fifth⟩⟩)

namespace Piece

/-- The text of a piece. -/
def text : Piece → String
  | literal text => text
  | reference spelling resourceKey outputKey => spelling.templateVar resourceKey outputKey

/-- Literal texts have no dollar sign. -/
def Valid : Piece → Prop
  | literal text => '$' ∉ text.toList
  | reference spelling resourceKey outputKey => ValidKeys spelling resourceKey outputKey

instance : DecidablePred Valid
  | literal text => inferInstanceAs (Decidable ('$' ∉ text.toList))
  | reference spelling resourceKey outputKey =>
    inferInstanceAs (Decidable (ValidKeys spelling resourceKey outputKey))

end Piece

/-- A value put together. -/
def templateOf (pieces : List Piece) : String := String.join (pieces.map Piece.text)

/-- An output of a resource, if both keys are there. -/
def outputOf (outputs : AvailableOutputs) (resourceKey outputKey : String) : Option String :=
  (outputs.get? resourceKey).bind fun own => own.get? outputKey

/-- What a piece stands for. -/
def Piece.resolved (outputs : AvailableOutputs) : Piece → Option String
  | literal text => some text
  | reference _ resourceKey outputKey => outputOf outputs resourceKey outputKey

/-- What a value stands for: every reference is replaced by its output, and all have to
be there. -/
def resolution (outputs : AvailableOutputs) (pieces : List Piece) : Option String :=
  (pieces.mapM (Piece.resolved outputs)).map String.join

/-- The keys of the references in one spelling, in order. -/
def referencesIn (spelling : Spelling) (pieces : List Piece) : List (String × String) :=
  pieces.filterMap fun piece =>
    match piece with
    | .literal _ => none
    | .reference spelled resourceKey outputKey =>
      if spelled = spelling then some (resourceKey, outputKey) else none

@[simp] theorem referencesIn_same (spelling : Spelling) (resourceKey outputKey : String)
    (pieces : List Piece) :
    referencesIn spelling (.reference spelling resourceKey outputKey :: pieces) =
      (resourceKey, outputKey) :: referencesIn spelling pieces := by
  simp [referencesIn]

theorem referencesIn_other {spelling other : Spelling} (different : other ≠ spelling)
    (resourceKey outputKey : String) (pieces : List Piece) :
    referencesIn spelling (.reference other resourceKey outputKey :: pieces) =
      referencesIn spelling pieces := by
  simp [referencesIn, different]

theorem mem_referencesIn {spelling : Spelling} {pieces : List Piece}
    {resourceKey outputKey : String} :
    (resourceKey, outputKey) ∈ referencesIn spelling pieces ↔
      .reference spelling resourceKey outputKey ∈ pieces := by
  simp only [referencesIn, List.mem_filterMap]
  constructor
  · rintro ⟨piece, member, found⟩
    cases piece with
    | literal _ => cases found
    | reference spelled _ _ =>
      dsimp only at found
      split at found
      next same =>
        cases found
        exact same ▸ member
      next => cases found
  · intro member
    exact ⟨_, member, by simp⟩

/-! ### The letters of a reference -/

/-- What follows the dollar sign of every reference. -/
def opening : List Char := ['\x7b', 'r', 'e', 's', 'o', 'u', 'r', 'c', 'e', 's', '.']

namespace Spelling

/-- The letters after the dollar sign. -/
def body (spelling : Spelling) (resourceKey outputKey : List Char) : List Char :=
  opening ++ (resourceKey ++ '.' :: (spelling.middle ++ outputKey ++ ['\x7d']))

/-- The letters of two texts with others before, between and after them. -/
theorem toList_around {before between after : String} {opens middle closes : List Char}
    (first : before.toList = opens) (second : between.toList = middle)
    (third : after.toList = closes) (left right : String) :
    (before ++ left ++ between ++ right ++ after).toList =
      opens ++ left.toList ++ middle ++ right.toList ++ closes := by
  simp [first, second, third]

theorem toList_templateVar (spelling : Spelling) (resourceKey outputKey : String) :
    (spelling.templateVar resourceKey outputKey).toList =
      '$' :: spelling.body resourceKey.toList outputKey.toList := by
  have opens : "$\x7bresources.".toList = '$' :: opening := by decide
  have dot : ".".toList = ['.'] := by decide
  have outputs : ".outputs.".toList = '.' :: middle .long := by decide
  have closes : "\x7d".toList = ['\x7d'] := by decide
  cases spelling with
  | short =>
    refine (toList_around opens dot closes resourceKey outputKey).trans ?_
    simp [body, middle]
  | long =>
    refine (toList_around opens outputs closes resourceKey outputKey).trans ?_
    simp [body]

theorem pattern_eq (spelling : Spelling) :
    spelling.pattern = ('$' :: opening).foldr Regex.lit
      (.seq (.group (.manyExcept '.')) (.lit '.' (spelling.middle.foldr Regex.lit
        (.seq (.group (.manyExcept '\x7d')) (.single '\x7d'))))) := by
  cases spelling <;> rfl

end Spelling

section Keys

variable {spelling other : Spelling} {resourceKey outputKey : String}

section

variable (valid : ValidKeys spelling resourceKey outputKey)
include valid

theorem ValidKeys.dot_notMem : '.' ∉ resourceKey.toList := fun member =>
  (valid.resourceKey_letters _ member).1 rfl

theorem ValidKeys.brace_notMem : '\x7d' ∉ spelling.middle ++ outputKey.toList := by
  intro member
  obtain middle | key := List.mem_append.mp member
  · revert middle
    cases spelling <;> decide
  · exact (valid.outputKey_letters _ key).1 rfl

/-- The only dollar sign of a reference is its first letter. -/
theorem ValidKeys.dollar_notMem : '$' ∉ spelling.body resourceKey.toList outputKey.toList := by
  have opens : '$' ∉ opening := by decide
  have middle : '$' ∉ spelling.middle := by cases spelling <;> decide
  have first : '$' ∉ resourceKey.toList := fun member =>
    (valid.resourceKey_letters _ member).2.2 rfl
  have second : '$' ∉ outputKey.toList := fun member =>
    (valid.outputKey_letters _ member).2 rfl
  simp [Spelling.body, opens, middle, first, second]

/-- After its first letter no end of a reference begins with a dollar sign. -/
theorem ValidKeys.suffix_cases {front back : List Char}
    (split : '$' :: spelling.body resourceKey.toList outputKey.toList = front ++ back)
    (nonempty : back ≠ []) :
    back = '$' :: spelling.body resourceKey.toList outputKey.toList ∨
      ∃ letter tail, back = letter :: tail ∧ letter ≠ '$' := by
  cases front with
  | nil => exact .inl split.symm
  | cons head front =>
    obtain ⟨-, inner⟩ := List.cons.inj split
    obtain ⟨letter, tail, rfl⟩ := List.exists_cons_of_ne_nil nonempty
    refine .inr ⟨letter, tail, rfl, ?_⟩
    rintro rfl
    exact valid.dollar_notMem (by rw [inner]; simp)

/-- Of two references one begins the other only if they are the same. -/
theorem ValidKeys.eq_of_prefix {resourceKey' outputKey' : String} {rest : List Char}
    (valid' : ValidKeys other resourceKey' outputKey')
    (starts : spelling.body resourceKey.toList outputKey.toList <+:
      other.body resourceKey'.toList outputKey'.toList ++ rest) :
    spelling = other ∧ resourceKey = resourceKey' ∧ outputKey = outputKey' := by
  simp only [Spelling.body, List.append_assoc, List.prefix_append_right_inj] at starts
  obtain ⟨sameResource, starts⟩ := prefix_until valid.dot_notMem valid'.dot_notMem starts
  have tails : spelling.middle ++ outputKey.toList ++ '\x7d' :: [] <+:
      other.middle ++ outputKey'.toList ++ '\x7d' :: rest := by
    simpa using starts
  obtain ⟨sameTail, -⟩ := prefix_until valid.brace_notMem valid'.brace_notMem tails
  cases spelling <;> cases other
  · exact ⟨rfl, String.toList_inj.mp sameResource, String.toList_inj.mp sameTail⟩
  · exact absurd ⟨_, sameTail.symm⟩ (valid.outputKey_start rfl)
  · exact absurd ⟨_, sameTail⟩ (valid'.outputKey_start rfl)
  · exact ⟨rfl, String.toList_inj.mp sameResource,
      String.toList_inj.mp (List.append_cancel_left sameTail)⟩

end

/-! ### Searching -/

/-- A match begins with a dollar sign. -/
theorem Spelling.run_pattern_of_ne {letter : Char} (input : List Char) (different : letter ≠ '$') :
    spelling.pattern.run (letter :: input) = [] := by
  rw [spelling.pattern_eq, List.foldr_cons]
  exact Regex.run_lit_of_ne different

/-- The expression of a spelling on a reference of any spelling: it goes through the
resource key and on to what is between the keys. -/
theorem ValidKeys.run_pattern (valid : ValidKeys other resourceKey outputKey) (rest : List Char) :
    spelling.pattern.run ('$' :: other.body resourceKey.toList outputKey.toList ++ rest) =
      ((spelling.middle.foldr Regex.lit (.seq (.group (.manyExcept '\x7d')) (.single '\x7d'))).run
          (other.middle ++ outputKey.toList ++ '\x7d' :: rest)).map fun late =>
        ⟨'$' :: opening ++ (resourceKey.toList ++ '.' :: late.text),
          resourceKey.toList :: late.groups, late.rest⟩ := by
  have nonempty : resourceKey.toList ≠ [] := by
    simpa using valid.resourceKey_ne
  have shape : '$' :: other.body resourceKey.toList outputKey.toList ++ rest =
      ('$' :: opening) ++ (resourceKey.toList ++ '.' ::
        (other.middle ++ outputKey.toList ++ '\x7d' :: rest)) := by
    simp [Spelling.body]
  rw [shape, spelling.pattern_eq, Regex.run_literal_append,
    Regex.run_until nonempty valid.dot_notMem fun letter tail different =>
      Regex.run_lit_of_ne different,
    Regex.run_lit_self]
  simp

/-- A reference is found by the expression of its spelling. -/
theorem ValidKeys.run_pattern_self (valid : ValidKeys spelling resourceKey outputKey)
    (rest : List Char) :
    spelling.pattern.run ('$' :: spelling.body resourceKey.toList outputKey.toList ++ rest) =
      [⟨'$' :: spelling.body resourceKey.toList outputKey.toList,
        [resourceKey.toList, outputKey.toList], rest⟩] := by
  have nonempty : outputKey.toList ≠ [] := by
    simpa using valid.outputKey_ne
  have absent : '\x7d' ∉ outputKey.toList := fun member =>
    (valid.outputKey_letters _ member).1 rfl
  have ends : (Regex.seq (.group (.manyExcept '\x7d')) (.single '\x7d')).run
      (outputKey.toList ++ '\x7d' :: rest) =
        [⟨outputKey.toList ++ ['\x7d'], [outputKey.toList], rest⟩] := by
    rw [Regex.run_until nonempty absent fun letter tail different => by
      simp [Regex.single, Regex.run, different]]
    simp [Regex.single, Regex.run]
  rw [valid.run_pattern, List.append_assoc, Regex.run_literal_append, ends]
  simp [Spelling.body]

/-- A short reference is not found by the long expression. -/
theorem ValidKeys.run_long (valid : ValidKeys .short resourceKey outputKey) (rest : List Char) :
    Spelling.long.pattern.run
      ('$' :: Spelling.short.body resourceKey.toList outputKey.toList ++ rest) = [] := by
  have noBrace : '\x7d' ∉ Spelling.long.middle := by decide
  have other : ¬Spelling.long.middle <+:
      Spelling.short.middle ++ outputKey.toList ++ '\x7d' :: rest := by
    intro starts
    exact valid.outputKey_start rfl (prefix_before noBrace starts)
  rw [valid.run_pattern, Regex.run_literal_of_not_starts other, List.map_nil]

/-- Where there is no dollar sign there is no match. -/
theorem Spelling.findAllFrom_plain {text : List Char} (plain : '$' ∉ text) (rest : List Char) :
    spelling.pattern.findAllFrom 0 (text ++ rest) = spelling.pattern.findAllFrom 0 rest := by
  apply Regex.findAllFrom_pass
  rintro front (_ | ⟨letter, back⟩) rfl nonempty
  · exact absurd rfl nonempty
  · exact spelling.run_pattern_of_ne _ fun same => plain (by simp [same])

/-- No long match begins in a short reference. -/
theorem ValidKeys.run_suffixes (valid : ValidKeys .short resourceKey outputKey)
    (rest front back : List Char)
    (split : '$' :: Spelling.short.body resourceKey.toList outputKey.toList = front ++ back)
    (nonempty : back ≠ []) : Spelling.long.pattern.run (back ++ rest) = [] := by
  obtain rfl | ⟨letter, tail, rfl, different⟩ := valid.suffix_cases split nonempty
  · exact valid.run_long rest
  · exact Spelling.run_pattern_of_ne _ different

end Keys

/-- The matches of a spelling are its references, if no other reference can be taken for
one. -/
theorem findAll_templateOf {spelling : Spelling} {pieces : List Piece}
    (valid : ∀ piece ∈ pieces, piece.Valid)
    (single : spelling = .long ∨ referencesIn .long pieces = []) :
    (spelling.pattern.findAll (templateOf pieces).toList).map Match.groups =
      (referencesIn spelling pieces).map fun keys => [keys.1.toList, keys.2.toList] := by
  have letters : (templateOf pieces).toList = pieces.flatMap fun piece => piece.text.toList := by
    rw [templateOf, String.toList_join, List.flatMap_map]
  rw [letters]
  unfold Regex.findAll
  clear letters
  induction pieces with
  | nil => rfl
  | cons piece pieces ih =>
    rw [List.flatMap_cons]
    have rest := ih fun later member => valid later (.tail _ member)
    cases piece with
    | literal text =>
      rw [Piece.text, Spelling.findAllFrom_plain (valid _ (.head _))]
      exact rest single
    | reference spelled resourceKey outputKey =>
      have keys : ValidKeys spelled resourceKey outputKey := valid _ (.head _)
      rw [Piece.text, Spelling.toList_templateVar]
      by_cases same : spelled = spelling
      · subst same
        have found := keys.run_pattern_self
          (pieces.flatMap fun piece => piece.text.toList)
        rw [Regex.findAllFrom_hit (by simp) (congrArg List.head? found), List.map_cons,
          referencesIn_same, List.map_cons]
        refine congrArg (List.cons _) (rest (single.imp_right fun none => ?_))
        cases spelled with
        | short => rwa [referencesIn_other (by decide)] at none
        | long => rw [referencesIn_same] at none; cases none
      · -- a short reference, passed over by the long expression
        cases spelled with
        | long =>
          rw [referencesIn_same] at single
          exact absurd (single.resolve_right (by simp)).symm same
        | short =>
          obtain rfl : spelling = .long := by
            cases spelling with
            | short => exact absurd rfl same
            | long => rfl
          rw [referencesIn_other same, Regex.findAllFrom_pass]
          · exact rest (.inl rfl)
          · exact keys.run_suffixes _

/-! ### Replacing -/

/-- A text in which no reference begins, whatever comes after it. -/
def Inert (text : List Char) : Prop := ¬['$', '\x7b'] <:+: text ∧ text.getLast? ≠ some '$'

theorem inert_of_plain {text : List Char} (plain : '$' ∉ text) : Inert text := by
  constructor
  · intro inside
    exact plain (inside.subset (.head _))
  · intro last
    exact plain (List.mem_of_getLast? last)

theorem Inert.not_starts {text : List Char} (inert : Inert text) (tail rest front back : List Char)
    (split : text = front ++ back) (nonempty : back ≠ []) :
    ¬ '$' :: '\x7b' :: tail <+: back ++ rest := by
  subst split
  intro starts
  cases back with
  | nil => exact nonempty rfl
  | cons first back =>
    obtain ⟨rfl, after⟩ := List.cons_prefix_cons.mp starts
    cases back with
    | nil => exact inert.2 (by simp)
    | cons second back =>
      obtain ⟨rfl, -⟩ := List.cons_prefix_cons.mp after
      exact inert.1 ⟨front, back, by simp⟩

section Rendering

variable (outputs : AvailableOutputs) (spelling : Spelling)
  (done : List (String × String)) (keys : String × String)

/-- The letters of a piece once some references of a spelling are replaced. -/
def Piece.rendered : Piece → List Char
  | literal text => text.toList
  | reference spelled resourceKey outputKey =>
    if spelled = spelling ∧ (resourceKey, outputKey) ∈ done then
      ((outputOf outputs resourceKey outputKey).getD "").toList
    else (spelled.templateVar resourceKey outputKey).toList

/-- The letters of the value once some references of a spelling are replaced. -/
def letters (pieces : List Piece) : List Char :=
  pieces.flatMap (Piece.rendered outputs spelling done)

/-- The value once some references of a spelling are replaced. -/
def render (pieces : List Piece) : String := .ofList (letters outputs spelling done pieces)

/-- The piece is a reference in whose place an output has been put. -/
def Piece.Inserted : Piece → Prop
  | literal _ => False
  | reference spelled resourceKey outputKey => spelled = spelling ∧ (resourceKey, outputKey) ∈ done

instance : DecidablePred (Piece.Inserted spelling done)
  | .literal _ => inferInstanceAs (Decidable False)
  | .reference _ _ _ => inferInstanceAs (Decidable (_ ∧ _))

/-- In the output put in place of a piece a reference begins, which may go on in what
stands after it. -/
def Piece.Respells (after : List Piece) (piece : Piece) : Prop :=
  piece.Inserted spelling done ∧
    ∃ back ∈ (piece.rendered outputs spelling done).tails, back ≠ [] ∧
      (spelling.templateVar keys.1 keys.2).toList <+:
        back ++ letters outputs spelling done after

instance (after : List Piece) :
    DecidablePred (Piece.Respells outputs spelling done keys after) := fun _ =>
  inferInstanceAs (Decidable (_ ∧ ∃ back ∈ _, _))

/-- Some output that has been put in place of a reference spells a reference. -/
def Respelled : List Piece → Prop
  | [] => False
  | piece :: after => piece.Respells outputs spelling done keys after ∨ Respelled after

instance decidableRespelled :
    DecidablePred (Respelled outputs spelling done keys)
  | [] => inferInstanceAs (Decidable False)
  | _ :: after =>
    have := decidableRespelled after
    inferInstanceAs (Decidable (_ ∨ _))

/-- The piece is the reference, not replaced yet. -/
def Piece.Pending (piece : Piece) : Prop := piece = .reference spelling keys.1 keys.2 ∧ keys ∉ done

instance : DecidablePred (Piece.Pending spelling done keys) := fun _ =>
  inferInstanceAs (Decidable (_ ∧ _))

variable {outputs spelling done keys} {pieces : List Piece} {piece : Piece}
  {value : String}

theorem render_nil (pieces : List Piece) :
    render outputs spelling [] pieces = templateOf pieces := by
  apply String.toList_inj.mp
  rw [render, letters, String.toList_ofList, templateOf, String.toList_join, List.flatMap_map]
  refine List.flatMap_congr fun piece _ => ?_
  cases piece <;> simp [Piece.rendered, Piece.text]

theorem Piece.Pending.rendered (pending : piece.Pending spelling done keys) :
    piece.rendered outputs spelling done =
      (spelling.templateVar keys.1 keys.2).toList := by
  obtain ⟨rfl, missing⟩ := pending
  exact if_neg fun inserted => missing inserted.2

/-- One more reference replaced. -/
theorem rendered_snoc (held : outputOf outputs keys.1 keys.2 = some value) (piece : Piece) :
    piece.rendered outputs spelling (done ++ [keys]) =
      if piece.Pending spelling done keys then value.toList
      else piece.rendered outputs spelling done := by
  cases piece with
  | literal text => simp [Piece.rendered, Piece.Pending]
  | reference spelled first second =>
    by_cases same : spelled = spelling ∧ (first, second) = keys
    · obtain ⟨rfl, rfl⟩ := same
      by_cases before : (first, second) ∈ done
      · simp [Piece.rendered, Piece.Pending, before]
      · simp_all [Piece.rendered, Piece.Pending]
    · have other : ¬ (Piece.reference spelled first second).Pending spelling done keys := by
        rintro ⟨equal, _⟩
        cases equal
        exact same ⟨rfl, rfl⟩
      rw [if_neg other, Piece.rendered, Piece.rendered]
      refine if_congr ?_ rfl rfl
      rw [List.mem_append, List.mem_singleton]
      tauto

theorem letters_cons (piece : Piece) (after : List Piece) :
    letters outputs spelling done (piece :: after) =
      piece.rendered outputs spelling done ++
        letters outputs spelling done after :=
  List.flatMap_cons

/-- Outside of outputs, a reference begins only where it stands. -/
theorem Piece.not_starts {after : List Piece} (keysValid : ValidKeys spelling keys.1 keys.2)
    (valid : piece.Valid) (other : ¬ piece.Pending spelling done keys)
    (unspelled : ¬ piece.Respells outputs spelling done keys after) {front back : List Char}
    (split : piece.rendered outputs spelling done = front ++ back) (nonempty : back ≠ []) :
    ¬ (spelling.templateVar keys.1 keys.2).toList <+:
      back ++ letters outputs spelling done after := by
  intro starts
  by_cases inserted : piece.Inserted spelling done
  · have isTail := (List.mem_tails back _).mpr ⟨front, split.symm⟩
    exact unspelled ⟨inserted, back, isTail, nonempty, starts⟩
  · rw [Spelling.toList_templateVar] at starts
    obtain ⟨letter, tail, rfl⟩ := List.exists_cons_of_ne_nil nonempty
    obtain ⟨rfl, inner⟩ := List.cons_prefix_cons.mp starts
    cases piece with
    | literal text =>
      have plain : '$' ∉ text.toList := valid
      exact plain (by rw [show text.toList = _ from split]; simp)
    | reference spelled first second =>
      have valid' : ValidKeys spelled first second := valid
      have whole := Spelling.toList_templateVar spelled first second
      rw [← show (Piece.reference spelled first second).rendered outputs spelling done =
        _ from if_neg inserted, split] at whole
      obtain same | ⟨_, _, equal, different⟩ := valid'.suffix_cases whole.symm nonempty
      · cases same
        obtain ⟨rfl, rfl, rfl⟩ := keysValid.eq_of_prefix valid' inner
        exact other ⟨rfl, fun member => inserted ⟨rfl, member⟩⟩
      · cases equal
        exact different rfl

/-- One replacement, over the whole value. -/
theorem replaceAll_render (keysValid : ValidKeys spelling keys.1 keys.2)
    (held : outputOf outputs keys.1 keys.2 = some value) (valid : ∀ piece ∈ pieces, piece.Valid)
    (unspelled : ¬ Respelled outputs spelling done keys pieces) :
    replaceAll (render outputs spelling done pieces)
        (spelling.templateVar keys.1 keys.2) value =
      render outputs spelling (done ++ [keys]) pieces := by
  unfold replaceAll render
  rw [String.toList_ofList]
  congr 1
  induction pieces with
  | nil => rfl
  | cons piece pieces ih =>
    rw [letters_cons, letters_cons, rendered_snoc held, ← ih
      (fun later member => valid later (.tail _ member)) fun later => unspelled (.inr later)]
    split
    next pending =>
      rw [pending.rendered]
      exact replaceFrom_hit _ _ (by simp [Spelling.toList_templateVar])
    next other =>
      apply replaceFrom_pass
      intro front back split nonempty
      exact Piece.not_starts keysValid (valid piece (.head _)) other
        (fun here => unspelled (.inl here)) split nonempty

/-- Outputs in which no reference begins spell none. -/
theorem not_respelled_of_inert
    (inert : ∀ first second output, (first, second) ∈ referencesIn spelling pieces →
      outputOf outputs first second = some output → Inert output.toList) :
    ¬ Respelled outputs spelling done keys pieces := by
  induction pieces with
  | nil => exact id
  | cons piece after ih =>
    rintro (⟨inserted, back, isTail, nonempty, starts⟩ | later)
    · cases piece with
      | literal text => exact inserted
      | reference spelled first second =>
        obtain ⟨rfl, member⟩ := inserted
        simp only [Piece.rendered, member, and_self, if_true] at isTail
        cases there : outputOf outputs first second with
        | none => simp_all
        | some output =>
          obtain ⟨front, split⟩ := (List.mem_tails back _).mp isTail
          rw [there] at split
          rw [Spelling.toList_templateVar] at starts
          exact (inert first second output (mem_referencesIn.mpr (.head _)) there).not_starts
            _ _ front back split.symm nonempty starts
    · exact ih (fun first second output member => inert first second output
        (mem_referencesIn.mpr (.tail _ (mem_referencesIn.mp member)))) later

/-! ### Replacing what spells a reference -/

/-- The pending references are occurrences, and what is respelled is one more. -/
theorem pending_add_le_occurrences (outputs : AvailableOutputs) (spelling : Spelling)
    (done : List (String × String)) (keys : String × String) (pieces : List Piece) :
    pieces.countP (Piece.Pending spelling done keys) +
        (if Respelled outputs spelling done keys pieces then 1 else 0) ≤
      occurrences (spelling.templateVar keys.1 keys.2).toList
        (letters outputs spelling done pieces) := by
  induction pieces with
  | nil => simp [Respelled]
  | cons piece after ih =>
    rw [letters_cons, List.countP_cons]
    by_cases here : piece.Respells outputs spelling done keys after
    · obtain ⟨inserted, back, isTail, nonempty, starts⟩ := here
      obtain ⟨front, split⟩ := (List.mem_tails back _).mp isTail
      have more := occurrences_lt_append split.symm nonempty starts
      have other : ¬ piece.Pending spelling done keys := by
        rintro ⟨rfl, missing⟩
        exact missing inserted.2
      simp only [other, decide_false, Bool.false_eq_true, if_false]
      split <;> omega
    · have later : Respelled outputs spelling done keys (piece :: after) ↔
          Respelled outputs spelling done keys after := or_iff_right here
      simp only [later]
      by_cases pending : piece.Pending spelling done keys
      · have more := occurrences_lt_append (List.nil_append _).symm
          (by simp [Spelling.toList_templateVar])
          (List.prefix_append (spelling.templateVar keys.1 keys.2).toList
            (letters outputs spelling done after))
        rw [pending.rendered]
        simp only [pending, decide_true, if_true]
        omega
      · have more := occurrences_le_append (spelling.templateVar keys.1 keys.2).toList
          (piece.rendered outputs spelling done)
          (letters outputs spelling done after)
        simp only [pending, decide_false, Bool.false_eq_true, if_false]
        omega

theorem length_letters_snoc (spelling : Spelling) (done : List (String × String))
    (held : outputOf outputs keys.1 keys.2 = some value) (pieces : List Piece) :
    (letters outputs spelling (done ++ [keys]) pieces).length +
        pieces.countP (Piece.Pending spelling done keys) *
          (spelling.templateVar keys.1 keys.2).toList.length =
      (letters outputs spelling done pieces).length +
        pieces.countP (Piece.Pending spelling done keys) * value.toList.length := by
  induction pieces with
  | nil => simp [letters]
  | cons piece after ih =>
    rw [letters_cons, letters_cons, rendered_snoc held, List.countP_cons, List.length_append,
      List.length_append]
    by_cases pending : piece.Pending spelling done keys
    · rw [pending.rendered]
      simp only [pending, if_true, decide_true, Nat.add_mul, Nat.one_mul]
      omega
    · simp only [pending, if_false, decide_false, Bool.false_eq_true, Nat.add_zero]
      omega

/-- What begins without a dollar sign still begins after one more replacement. -/
theorem starts_snoc (held : outputOf outputs keys.1 keys.2 = some value) {text front : List Char}
    (plain : '$' ∉ text) (starts : text <+: front ++ letters outputs spelling done pieces) :
    text <+: front ++ letters outputs spelling (done ++ [keys]) pieces := by
  induction pieces generalizing front with
  | nil => exact starts
  | cons piece after ih =>
    rw [letters_cons] at starts ⊢
    rw [rendered_snoc held]
    split
    next pending =>
      rw [pending.rendered, Spelling.toList_templateVar] at starts
      exact (prefix_before plain starts).trans (List.prefix_append _ _)
    next =>
      rw [← List.append_assoc] at starts ⊢
      exact ih starts

section

variable (respelled : Respelled outputs spelling done keys pieces)
include respelled

theorem Respelled.exists_split :
    ∃ before piece after, pieces = before ++ piece :: after ∧
      piece.Respells outputs spelling done keys after := by
  induction pieces with
  | nil => exact respelled.elim
  | cons piece after ih =>
    obtain here | later := respelled
    · exact ⟨[], piece, after, rfl, here⟩
    · obtain ⟨before, other, rest, rfl, found⟩ := ih later
      exact ⟨piece :: before, other, rest, rfl, found⟩

variable (keysValid : ValidKeys spelling keys.1 keys.2)
  (held : outputOf outputs keys.1 keys.2 = some value)
  (same : replaceFrom (spelling.templateVar keys.1 keys.2).toList value.toList 0
    (letters outputs spelling done pieces) = letters outputs spelling (done ++ [keys]) pieces)
include keysValid held same

/-- If the text is as it should be although an output spells the reference, the output
that is put in its place is as long: there are more occurrences than references. -/
theorem Respelled.length_eq :
    value.toList.length = (spelling.templateVar keys.1 keys.2).toList.length := by
  have count := pending_add_le_occurrences outputs spelling done keys pieces
  have pending := length_letters_snoc spelling done held pieces
  rw [if_pos respelled] at count
  obtain ⟨extra, isCount⟩ := Nat.exists_eq_add_of_lt count
  rw [Spelling.toList_templateVar] at *
  have all := length_replaceFrom keysValid.dollar_notMem value.toList
    (letters outputs spelling done pieces) 0
  rw [same, List.drop_zero, isCount] at all
  refine Nat.eq_of_mul_eq_mul_left (Nat.succ_pos extra) ?_
  simp only [Nat.add_mul, Nat.succ_mul] at all ⊢
  omega

/-- A respelled reference is replaced too, and the text is then as it should be only if
the reference stands for itself. -/
theorem Respelled.eq_of_replaceFrom :
    value.toList = (spelling.templateVar keys.1 keys.2).toList := by
  have single := keysValid.dollar_notMem
  have equal := respelled.length_eq keysValid held same
  obtain ⟨before, piece, after, rfl, inserted, back, isTail, nonempty, starts⟩ :=
    respelled.exists_split
  have shift := length_letters_snoc spelling done held before
  obtain ⟨front, split⟩ := (List.mem_tails back _).mp isTail
  obtain ⟨letter, tail, rfl⟩ := List.exists_cons_of_ne_nil nonempty
  rw [Spelling.toList_templateVar] at same equal starts shift ⊢
  obtain ⟨rfl, inner⟩ := List.cons_prefix_cons.mp starts
  rw [List.append_eq] at inner
  have unmoved : piece.rendered outputs spelling (done ++ [keys]) =
      front ++ '$' :: tail := by
    rw [rendered_snoc held, split]
    exact if_neg fun pending => pending.2 (pending.1 ▸ inserted).2
  have cut {done : List (String × String)}
      (whole : piece.rendered outputs spelling done = front ++ '$' :: tail) :
      letters outputs spelling done (before ++ piece :: after) =
        (letters outputs spelling done before ++ front) ++
          '$' :: (tail ++ letters outputs spelling done after) := by
    rw [letters, List.flatMap_append, List.flatMap_cons, whole]
    simp [letters]
  rw [cut split.symm, cut unmoved, replaceFrom_append single _ _ (Nat.zero_le _)] at same
  -- nothing has moved before the reference that is spelled
  have early := length_replaceFrom single value.toList
    (letters outputs spelling done before ++ front) 0
  rw [equal] at early shift
  obtain ⟨_, window⟩ := List.append_inj same (by simp_all)
  have begins := starts_snoc held single inner
  obtain ⟨rest, isRest⟩ := inner
  rw [← isRest, ← List.cons_append, replaceFrom_hit _ _ (by simp)] at window
  have both : '$' :: spelling.body keys.1.toList keys.2.toList <+: value.toList ++ _ :=
    window ▸ List.cons_prefix_cons.mpr ⟨rfl, begins⟩
  exact ((List.prefix_of_prefix_length_le both (List.prefix_append _ _) equal.ge).eq_of_length
    equal.symm).symm

end

/-- One replacement does what it should just if no output spells the reference, or the
reference stands for itself. -/
theorem replaceAll_render_iff (done : List (String × String))
    (keysValid : ValidKeys spelling keys.1 keys.2)
    (held : outputOf outputs keys.1 keys.2 = some value) (valid : ∀ piece ∈ pieces, piece.Valid) :
    replaceAll (render outputs spelling done pieces)
        (spelling.templateVar keys.1 keys.2) value =
      render outputs spelling (done ++ [keys]) pieces ↔
    (Respelled outputs spelling done keys pieces →
      value = spelling.templateVar keys.1 keys.2) := by
  constructor
  · intro same respelled
    have letters := String.ofList_injective same
    rw [render, String.toList_ofList] at letters
    exact String.toList_inj.mp (respelled.eq_of_replaceFrom keysValid held letters)
  · intro harmless
    by_cases respelled : Respelled outputs spelling done keys pieces
    · have itself := harmless respelled
      rw [replaceAll, itself, Spelling.toList_templateVar, replaceFrom_self, List.drop_zero,
        String.ofList_toList, render, render, letters, letters]
      refine congrArg String.ofList (List.flatMap_congr fun piece _ => ?_)
      rw [rendered_snoc held]
      split
      next pending => rw [pending.rendered, itself]
      next => rfl
    · exact replaceAll_render keysValid held valid respelled

/-- A piece once all references of a spelling are replaced. -/
def Piece.replaced (outputs : AvailableOutputs) (spelling : Spelling) :
    Piece → String
  | literal text => text
  | reference spelled resourceKey outputKey =>
    if spelled = spelling then (outputOf outputs resourceKey outputKey).getD ""
    else spelled.templateVar resourceKey outputKey

theorem render_all (all : ∀ keys ∈ referencesIn spelling pieces, keys ∈ done) :
    render outputs spelling done pieces =
      String.join (pieces.map (Piece.replaced outputs spelling)) := by
  apply String.toList_inj.mp
  rw [render, letters, String.toList_ofList, String.toList_join, List.flatMap_map]
  refine List.flatMap_congr fun piece member => ?_
  cases piece with
  | literal text => rfl
  | reference spelled resourceKey outputKey =>
    by_cases same : spelled = spelling
    · subst same
      have replaced := all _ (mem_referencesIn.mpr member)
      simp [Piece.rendered, Piece.replaced, replaced]
    · simp [Piece.rendered, Piece.replaced, same]

theorem toOption_lookupOutput (outputs : AvailableOutputs) (resourceKey outputKey : String) :
    (lookupOutput outputs resourceKey outputKey).toOption =
      outputOf outputs resourceKey outputKey := by
  unfold lookupOutput outputOf
  cases outputs.get? resourceKey with
  | none => rfl
  | some own =>
    dsimp only
    rw [Option.bind_some]
    cases own.get? outputKey <;> rfl

section Loop

variable {found : List Match} {listed : List (String × String)}

theorem substitute_cons {first : Match} {templateVar : String → String → String}
    (here : first.groups = [keys.1.toList, keys.2.toList])
    (held : outputOf outputs keys.1 keys.2 = some value) (text : String) :
    substitute outputs templateVar (first :: found) text =
      substitute outputs templateVar found
        (replaceAll text (templateVar keys.1 keys.2) value) := by
  have looked := toOption_lookupOutput outputs keys.1 keys.2
  rw [substitute, here]
  simp only [String.ofList_toList]
  cases read : lookupOutput outputs keys.1 keys.2 with
  | error fault =>
    rw [read, held] at looked
    cases looked
  | ok output =>
    rw [read, held] at looked
    cases looked
    rfl

/-- The loop fails just if an output is missing. -/
theorem isSome_substitute {templateVar : String → String → String}
    (groups : found.map Match.groups = listed.map fun keys => [keys.1.toList, keys.2.toList])
    (text : String) :
    (substitute outputs templateVar found text).toOption.isSome ↔
      ∀ keys ∈ listed, (outputOf outputs keys.1 keys.2).isSome := by
  induction listed generalizing found text with
  | nil =>
    cases List.map_eq_nil_iff.mp groups
    simp [substitute, Except.toOption]
  | cons keys listed ih =>
    obtain ⟨first, found, rfl, here, later⟩ := List.map_eq_cons_iff.mp groups
    rw [List.forall_mem_cons]
    cases held : outputOf outputs keys.1 keys.2 with
    | some value =>
      rw [substitute_cons here held, ih later]
      simp
    | none =>
      have looked := toOption_lookupOutput outputs keys.1 keys.2
      rw [substitute, here]
      simp only [String.ofList_toList]
      cases read : lookupOutput outputs keys.1 keys.2 with
      | error fault => simp [Except.toOption]
      | ok output =>
        rw [read, held] at looked
        cases looked

/-- Every round of the loop does what it should just if no output spells a reference that
is replaced later, or that reference stands for itself. -/
theorem substitute_take_iff (done : List (String × String))
    (groups : found.map Match.groups = listed.map fun keys => [keys.1.toList, keys.2.toList])
    (valid : ∀ piece ∈ pieces, piece.Valid)
    (known : ∀ keys ∈ listed, keys ∈ referencesIn spelling pieces)
    (there : ∀ keys ∈ listed, (outputOf outputs keys.1 keys.2).isSome) :
    (∀ count, substitute outputs spelling.templateVar (found.take count)
        (render outputs spelling done pieces) =
      .ok (render outputs spelling (done ++ listed.take count) pieces)) ↔
    ∀ early keys late, listed = early ++ keys :: late →
      Respelled outputs spelling (done ++ early) keys pieces →
      outputOf outputs keys.1 keys.2 = some (spelling.templateVar keys.1 keys.2) := by
  induction listed generalizing found done with
  | nil =>
    cases List.map_eq_nil_iff.mp groups
    simp [substitute]
  | cons keys listed ih =>
    obtain ⟨first, found, rfl, here, later⟩ := List.map_eq_cons_iff.mp groups
    obtain ⟨value, held⟩ := Option.isSome_iff_exists.mp (there keys (.head _))
    have keysValid := valid _ (mem_referencesIn.mp (known keys (.head _)))
    have step := replaceAll_render_iff done keysValid held valid
    have rest := ih (done ++ [keys]) later
      (fun other member => known other (.tail _ member))
      fun other member => there other (.tail _ member)
    simp only [List.append_assoc, List.singleton_append] at rest
    constructor
    · intro all early other late split
      have one := all 1
      rw [List.take_succ_cons, substitute_cons here held, List.take_succ_cons] at one
      have once := Except.ok.inj one
      cases early with
      | nil =>
        obtain ⟨rfl, rfl⟩ := List.cons.inj split
        rw [List.append_nil, held]
        exact fun respelled => congrArg some (step.mp once respelled)
      | cons head early =>
        obtain ⟨rfl, rfl⟩ := List.cons.inj split
        refine rest.mp (fun count => ?_) early other late rfl
        have more := all (count + 1)
        rwa [List.take_succ_cons, substitute_cons here held, once, List.take_succ_cons]
          at more
    · intro harmless count
      have once := step.mpr fun respelled => Option.some.inj <| held.symm.trans <|
        harmless [] keys listed rfl (by rwa [List.append_nil])
      cases count with
      | zero => simp [substitute]
      | succ count =>
        rw [List.take_succ_cons, substitute_cons here held, once, List.take_succ_cons]
        refine rest.mpr (fun early other late split => ?_) count
        exact harmless (keys :: early) other late (by rw [split]; rfl)

/-- The loop over the references: an error if one is missing, and otherwise they are all
replaced, if no reference begins in an output. -/
theorem substitute_render (groups : found.map Match.groups =
      (referencesIn spelling pieces).map fun keys => [keys.1.toList, keys.2.toList])
    (valid : ∀ piece ∈ pieces, piece.Valid)
    (inert : ∀ first second output, (first, second) ∈ referencesIn spelling pieces →
      outputOf outputs first second = some output → Inert output.toList) :
    (substitute outputs spelling.templateVar found (templateOf pieces)).toOption =
      if ∀ keys ∈ referencesIn spelling pieces,
          (outputOf outputs keys.1 keys.2).isSome then
        some (render outputs spelling (referencesIn spelling pieces) pieces)
      else none := by
  split
  next there =>
    have rounds := (substitute_take_iff [] groups valid (fun _ => id) there).mpr
      (fun _ _ _ _ respelled => (not_respelled_of_inert inert respelled).elim) found.length
    have size := congrArg List.length groups
    rw [List.length_map, List.length_map] at size
    rw [List.take_length, size, List.take_length, List.nil_append, render_nil] at rounds
    rw [rounds]
    rfl
  next missing =>
    rw [← isSome_substitute groups (templateOf pieces)] at missing
    simpa using missing

end Loop

/-- The spelling that a value is resolved in: the long one if there is such a
reference. -/
def spellingOf (pieces : List Piece) : Spelling :=
  if referencesIn .long pieces = [] then .short else .long

theorem spellingOf_single (pieces : List Piece) :
    spellingOf pieces = .long ∨ referencesIn .long pieces = [] := by
  unfold spellingOf
  split
  next none => exact .inr none
  next => exact .inl rfl

/-- Resolution is the loop over the references of one spelling. -/
theorem resolveValue_eq_substitute (valid : ∀ piece ∈ pieces, piece.Valid) :
    resolveValue (templateOf pieces) outputs =
      substitute outputs (spellingOf pieces).templateVar
        ((spellingOf pieces).pattern.findAll (templateOf pieces).toList) (templateOf pieces) := by
  have count := congrArg List.length (findAll_templateOf valid (.inl rfl))
  rw [List.length_map, List.length_map] at count
  unfold resolveValue
  by_cases none : referencesIn .long pieces = []
  · have spelled : spellingOf pieces = .short := if_pos none
    have unmatched : resourceRefWithOutputsPattern.findAll (templateOf pieces).toList = [] :=
      List.length_eq_zero_iff.mp (by rw [none] at count; exact count)
    rw [spelled]
    simp only [unmatched, substitute, List.length_nil, if_true]
    rfl
  · have spelled : spellingOf pieces = .long := if_neg none
    have matched : (resourceRefWithOutputsPattern.findAll
        (templateOf pieces).toList).length ≠ 0 := by
      intro zero
      exact none (List.length_eq_zero_iff.mp (count.symm.trans zero))
    rw [spelled]
    simp only [if_neg matched]
    exact bind_pure _

/-- What resolution makes of a value: the references of one spelling have to be there and
are replaced, and the others stay as they are. -/
theorem resolveValue_eq (valid : ∀ piece ∈ pieces, piece.Valid)
    (inert : ∀ first second output,
      (first, second) ∈ referencesIn (spellingOf pieces) pieces →
        outputOf outputs first second = some output → Inert output.toList) :
    (resolveValue (templateOf pieces) outputs).toOption =
      if ∀ keys ∈ referencesIn (spellingOf pieces) pieces,
          (outputOf outputs keys.1 keys.2).isSome then
        some (String.join (pieces.map (Piece.replaced outputs (spellingOf pieces))))
      else none := by
  rw [resolveValue_eq_substitute valid,
    substitute_render (findAll_templateOf valid (spellingOf_single pieces)) valid inert,
    render_all fun _ => id]

end Rendering

/-! ### Complete resolution -/

theorem isSome_resolved_iff {outputs : AvailableOutputs} {pieces : List Piece} :
    (∀ piece ∈ pieces, (piece.resolved outputs).isSome) ↔
      ∀ spelling, ∀ keys ∈ referencesIn spelling pieces,
        (outputOf outputs keys.1 keys.2).isSome := by
  constructor
  · intro all spelling keys member
    exact all _ (mem_referencesIn.mp member)
  · intro all piece member
    cases piece with
    | literal text => rfl
    | reference spelling resourceKey outputKey =>
      exact all spelling (resourceKey, outputKey) (mem_referencesIn.mpr member)

theorem resolution_eq (outputs : AvailableOutputs) (pieces : List Piece) :
    resolution outputs pieces =
      if ∀ piece ∈ pieces, (piece.resolved outputs).isSome then
        some (String.join (pieces.map fun piece =>
          (piece.resolved outputs).getD ""))
      else none := by
  rw [resolution, mapM_option_eq _ ""]
  split <;> rfl

/-- If there are only references of the spelling, replacing them resolves the value. -/
theorem resolution_of_only {outputs : AvailableOutputs} {spelling : Spelling} {pieces : List Piece}
    (only : ∀ other ≠ spelling, referencesIn other pieces = []) :
    (if ∀ keys ∈ referencesIn spelling pieces,
        (outputOf outputs keys.1 keys.2).isSome then
      some (String.join (pieces.map (Piece.replaced outputs spelling)))
    else none) = resolution outputs pieces := by
  have there : (∀ keys ∈ referencesIn spelling pieces,
      (outputOf outputs keys.1 keys.2).isSome) ↔
        ∀ piece ∈ pieces, (piece.resolved outputs).isSome := by
    rw [isSome_resolved_iff]
    refine ⟨fun all other => ?_, fun all => all spelling⟩
    by_cases same : other = spelling
    · rw [same]
      exact all
    · simp [only other same]
  have texts : pieces.map (Piece.replaced outputs spelling) =
      pieces.map fun piece => (piece.resolved outputs).getD "" := by
    refine List.map_congr_left fun piece member => ?_
    cases piece with
    | literal text => rfl
    | reference spelled resourceKey outputKey =>
      have listed := mem_referencesIn.mpr member
      have same : spelled = spelling := by
        by_contra different
        rw [only spelled different] at listed
        cases listed
      rw [Piece.replaced, if_pos same]
      rfl
  rw [resolution_eq, texts]
  simp only [there]

/-- A resolved value has no dollar sign, if the outputs have none. -/
theorem resolution_plain {outputs : AvailableOutputs} {pieces : List Piece} {result : String}
    (valid : ∀ piece ∈ pieces, piece.Valid)
    (plain : ∀ resourceKey outputKey output,
      outputOf outputs resourceKey outputKey = some output → '$' ∉ output.toList)
    (resolved : resolution outputs pieces = some result) : '$' ∉ result.toList := by
  rw [resolution_eq] at resolved
  split at resolved
  next all =>
    cases resolved
    rw [String.toList_join, List.flatMap_map, List.mem_flatMap]
    rintro ⟨piece, member, inside⟩
    cases piece with
    | literal text => exact valid _ member inside
    | reference spelling resourceKey outputKey =>
      obtain ⟨output, held⟩ := Option.isSome_iff_exists.mp (all _ member)
      rw [held] at inside
      exact plain resourceKey outputKey output held inside
  next => cases resolved

/-- References are all resolved just if they are in one spelling, or a missing output
hides that they are not. -/
theorem resolveValue_complete_iff {pieces : List Piece} {outputs : AvailableOutputs}
    (valid : ∀ piece ∈ pieces, piece.Valid)
    (plain : ∀ resourceKey outputKey output,
      outputOf outputs resourceKey outputKey = some output → '$' ∉ output.toList) :
    (resolveValue (templateOf pieces) outputs).toOption =
        resolution outputs pieces ↔
      referencesIn .short pieces = [] ∨ referencesIn .long pieces = [] ∨
        ∃ keys ∈ referencesIn .long pieces, outputOf outputs keys.1 keys.2 = none := by
  have resolves := resolveValue_eq valid fun first second output _ held =>
    inert_of_plain (plain first second output held)
  rw [resolves]
  constructor
  · intro complete
    by_contra mixed
    push Not at mixed
    obtain ⟨short, long, present⟩ := mixed
    have spelled : spellingOf pieces = .long := if_neg long
    rw [spelled, if_pos fun keys member => Option.isSome_iff_ne_none.mpr (present keys member)]
      at complete
    -- a short reference is left in the value, with its dollar sign
    obtain ⟨keys, listed⟩ := List.exists_mem_of_ne_nil _ short
    refine resolution_plain valid plain complete.symm ?_
    rw [String.toList_join, List.flatMap_map, List.mem_flatMap]
    refine ⟨_, mem_referencesIn.mp listed, ?_⟩
    rw [Piece.replaced, if_neg (by decide), Spelling.toList_templateVar]
    exact .head _
  · rintro (short | long | ⟨keys, member, missing⟩)
    · cases spelled : spellingOf pieces with
      | short =>
        have long : referencesIn .long pieces = [] := by
          by_contra some
          rw [spellingOf, if_neg some] at spelled
          cases spelled
        exact resolution_of_only (Spelling.forall_ne_short.mpr long)
      | long => exact resolution_of_only (Spelling.forall_ne_long.mpr short)
    · have spelled : spellingOf pieces = .short := if_pos long
      rw [spelled]
      exact resolution_of_only (Spelling.forall_ne_short.mpr long)
    · have spelled : spellingOf pieces = .long := if_neg (List.ne_nil_of_mem member)
      have absent : ¬(outputOf outputs keys.1 keys.2).isSome = true := by
        rw [missing]
        decide
      rw [spelled, resolution_eq, if_neg fun all => absent (all keys member),
        if_neg fun all => absent (isSome_resolved_iff.mp all .long keys member)]

/-- What holds of every output in the map. -/
theorem forall_outputOf {outputs : AvailableOutputs} {holds : String → Prop}
    (all : ∀ row ∈ outputs.rows, ∀ entry ∈ row.2.rows, holds entry.2)
    (resourceKey outputKey output : String)
    (held : outputOf outputs resourceKey outputKey = some output) : holds output := by
  obtain ⟨own, row, entry⟩ := Option.bind_eq_some_iff.mp held
  exact all _ (GoMap.get?_eq_some.mp row) _ (GoMap.get?_eq_some.mp entry)

/-- A connection string with two references to one resource. -/
def addressPieces : List Piece :=
  [.literal "postgres://", .reference .short "db" "host", .literal ":",
    .reference .short "db" "port"]

def addressOutputs : AvailableOutputs :=
  .ofList [("db", .ofList [("host", "pg"), ("port", "5432")])]

theorem resolveValue_complete_address :
    (resolveValue (templateOf addressPieces) addressOutputs).toOption =
        resolution addressOutputs addressPieces ∧
      resolution addressOutputs addressPieces = some "postgres://pg:5432" := by
  have valid : ∀ piece ∈ addressPieces, piece.Valid := by decide +kernel
  have plain : ∀ row ∈ addressOutputs.rows, ∀ entry ∈ row.2.rows, '$' ∉ entry.2.toList := by
    decide +kernel
  have short : referencesIn .long addressPieces = [] := by decide +kernel
  exact ⟨(resolveValue_complete_iff valid (forall_outputOf plain)).mpr (.inr (.inl short)),
    by decide +kernel⟩

/-- A value with a reference in each spelling. -/
def mixedPieces : List Piece := [.reference .short "db" "host", .reference .long "db" "port"]

/-- The reference in the short spelling is left in the value. -/
theorem resolveValue_leaves_short :
    (resolveValue (templateOf mixedPieces) addressOutputs).toOption =
        some "$\x7bresources.db.host\x7d5432" ∧
      resolution addressOutputs mixedPieces = some "pg5432" := by
  decide +kernel

/-! ### Inserted text -/

/-- The outputs are inserted as they are, in every round of the loop, just if no output
put in place of a reference spells one that is replaced later, with what stands after it,
or the later one stands for itself. -/
theorem resolveValue_inserts_iff {pieces : List Piece} {outputs : AvailableOutputs}
    {result : String} (valid : ∀ piece ∈ pieces, piece.Valid)
    (short : referencesIn .long pieces = [])
    (resolved : resolveValue (templateOf pieces) outputs = .ok result) :
    (resolution outputs pieces = some result ∧
      ∀ count, substitute outputs Spelling.short.templateVar
          ((resourceRefPattern.findAll (templateOf pieces).toList).take count) (templateOf pieces) =
        .ok (render outputs .short ((referencesIn .short pieces).take count) pieces)) ↔
    ∀ early keys late, referencesIn .short pieces = early ++ keys :: late →
      Respelled outputs .short early keys pieces →
      outputOf outputs keys.1 keys.2 =
        some (Spelling.short.templateVar keys.1 keys.2) := by
  have spelled : spellingOf pieces = .short := if_pos short
  have groups := findAll_templateOf valid (spellingOf_single pieces)
  rw [resolveValue_eq_substitute valid] at resolved
  rw [spelled] at groups resolved
  have there := (isSome_substitute groups _).mp (by rw [resolved]; rfl)
  have rounds := substitute_take_iff [] groups valid (fun _ => id) there
  rw [render_nil] at rounds
  refine Iff.trans ⟨And.right, fun all => ⟨?_, all⟩⟩ rounds
  -- after the last round the whole value is resolved
  have size := congrArg List.length groups
  rw [List.length_map, List.length_map] at size
  have last := all (referencesIn .short pieces).length
  rw [List.take_length, ← size, show resourceRefPattern = Spelling.short.pattern from rfl,
    List.take_length] at last
  rw [← resolution_of_only (Spelling.forall_ne_short.mpr short), if_pos there,
    ← render_all fun _ => id]
  exact congrArg some (Except.ok.inj (last.symm.trans resolved))

/-- Two references next to each other. -/
def adjacentPieces : List Piece :=
  [.reference .short "app" "greeting", .reference .short "vault" "password"]

def vaultOutputs (greeting : String) : AvailableOutputs :=
  .ofList [("app", .ofList [("greeting", greeting)]),
    ("vault", .ofList [("password", "pa$$word")])]

/-- A greeting may have the form of a reference, as long as it is not the one that comes
after it. -/
theorem resolveValue_inserts_dollars :
    resolution (vaultOutputs "$\x7bHOME\x7d") adjacentPieces = some "$\x7bHOME\x7dpa$$word" := by
  have valid : ∀ piece ∈ adjacentPieces, piece.Valid := by decide +kernel
  have short : referencesIn .long adjacentPieces = [] := by decide +kernel
  have resolved : resolveValue (templateOf adjacentPieces) (vaultOutputs "$\x7bHOME\x7d") =
      .ok "$\x7bHOME\x7dpa$$word" := by
    decide +kernel
  have unspelled : ¬ Respelled (vaultOutputs "$\x7bHOME\x7d") .short [("app", "greeting")]
      ("vault", "password") adjacentPieces := by
    decide +kernel
  refine ((resolveValue_inserts_iff valid short resolved).mpr ?_).1
  intro early keys late split respelled
  have listed : referencesIn .short adjacentPieces =
      [("app", "greeting"), ("vault", "password")] := by decide +kernel
  rw [listed] at split
  rcases early with _ | ⟨first, _ | ⟨second, more⟩⟩
  · obtain ⟨rfl, rfl⟩ := List.cons.inj split
    exact absurd respelled (by decide +kernel)
  · obtain ⟨rfl, rest⟩ := List.cons.inj split
    obtain ⟨rfl, rfl⟩ := List.cons.inj rest
    exact absurd respelled unspelled
  · simp at split

/-- A greeting that spells the other reference. -/
def spellingGreeting : String := "$\x7bresources.vault.password\x7d"

/-- It is given the output of the other resource. -/
theorem resolveValue_rewrites_output :
    (resolveValue (templateOf adjacentPieces) (vaultOutputs spellingGreeting)).toOption =
        some "pa$$wordpa$$word" ∧
      resolution (vaultOutputs spellingGreeting) adjacentPieces =
        some (spellingGreeting ++ "pa$$word") := by
  decide +kernel

end ScoreOrchestrator.Reconcile
