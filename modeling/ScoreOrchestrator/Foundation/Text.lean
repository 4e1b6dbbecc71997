/-
Module: Foundation.Text
Purpose: Regular expressions with capture groups under leftmost-first matching,
  and the plain substring operations, over lists of characters.
Main exports: Regex, Regex.Denotes, Regex.findAll, Regex.matchText_iff, replaceAll
-/
import Mathlib.Data.List.Infix

namespace ScoreOrchestrator.Foundation

/-!
A matcher in the style of RE2: `run` lists every way an expression matches an
initial part of the input, in order of preference, so that its head is the
match a leftmost-first engine reports.  `Denotes` is the language of an
expression; `matchText_iff` ties the matcher to it.
-/

variable {accepts : Char → Bool} {input word : List Char}

/-- Expressions built from character classes, greedy repetition of a class,
sequence and capture groups. -/
inductive Regex where
  | chr (accepts : Char → Bool)
  | plus (accepts : Char → Bool)
  | seq (first second : Regex)
  | group (inner : Regex)

/-- One way to match an initial part of the input. -/
structure Match where
  text : List Char
  groups : List (List Char)
  rest : List Char
deriving Repr, DecidableEq

/-- The ways to split off a non-empty run of accepted characters, longest
first. -/
def spans (accepts : Char → Bool) : List Char → List (List Char × List Char)
  | [] => []
  | head :: tail =>
    if accepts head then
      (spans accepts tail).map (fun span => (head :: span.1, span.2)) ++
        [([head], tail)]
    else []

namespace Regex

/-- A literal character followed by an expression. -/
def lit (expected : Char) (rest : Regex) : Regex := .seq (.chr (· == expected)) rest

/-- A literal text followed by an expression. -/
def literal (text : String) (rest : Regex) : Regex := text.toList.foldr lit rest

/-- `[^c]+`. -/
def manyExcept (excluded : Char) : Regex := .plus (· != excluded)

/-- The single character `c`. -/
def single (expected : Char) : Regex := .chr (· == expected)

/-- All matches at the start of the input, in order of preference. -/
def run : Regex → List Char → List Match
  | .chr accepts, input =>
    match input with
    | [] => []
    | head :: tail => if accepts head then [⟨[head], [], tail⟩] else []
  | .plus accepts, input => (spans accepts input).map fun span => ⟨span.1, [], span.2⟩
  | .seq first second, input =>
    (first.run input).flatMap fun early =>
      (second.run early.rest).map fun late =>
        ⟨early.text ++ late.text, early.groups ++ late.groups, late.rest⟩
  | .group inner, input =>
    (inner.run input).map fun found =>
      { found with groups := found.text :: found.groups }

/-- `FindAllSubmatch`: the leftmost matches, none overlapping another.  `skip`
counts the characters that the last match still covers. -/
def findAllFrom (expression : Regex) : Nat → List Char → List Match
  | _, [] => []
  | skip + 1, _ :: tail => findAllFrom expression skip tail
  | 0, head :: tail =>
    match (expression.run (head :: tail)).head? with
    | some found => found :: findAllFrom expression (found.text.length - 1) tail
    | none => findAllFrom expression 0 tail

def findAll (expression : Regex) (input : List Char) : List Match := expression.findAllFrom 0 input

/-- `MatchString`: is there a match anywhere? -/
def matchText (expression : Regex) (input : List Char) : Bool :=
  input.tails.any fun suffix => !(expression.run suffix).isEmpty

/-- The words of an expression. -/
inductive Denotes : Regex → List Char → Prop where
  | chr {accepts : Char → Bool} {letter : Char} (accepted : accepts letter) :
      Denotes (.chr accepts) [letter]
  | plus {accepts : Char → Bool} {word : List Char} (nonempty : word ≠ [])
      (accepted : ∀ letter ∈ word, accepts letter) :
      Denotes (.plus accepts) word
  | seq {first second : Regex} {early late : List Char}
      (left : Denotes first early) (right : Denotes second late) :
      Denotes (.seq first second) (early ++ late)
  | group {inner : Regex} {word : List Char} (body : Denotes inner word) :
      Denotes (.group inner) word

end Regex

theorem mem_spans {rest : List Char} :
    (word, rest) ∈ spans accepts input ↔
      input = word ++ rest ∧ word ≠ [] ∧ ∀ letter ∈ word, accepts letter := by
  induction input generalizing word with
  | nil =>
    simp only [spans, List.not_mem_nil, false_iff]
    rintro ⟨split, nonempty, _⟩
    exact nonempty (List.append_eq_nil_iff.mp split.symm).1
  | cons head tail ih =>
    by_cases accepted : accepts head
    · simp only [spans, accepted, if_true, List.mem_append, List.mem_map,
        List.mem_singleton, Prod.mk.injEq, Prod.exists]
      constructor
      · rintro (⟨inner, _, member, rfl, rfl⟩ | ⟨rfl, rfl⟩)
        · obtain ⟨rfl, _, all⟩ := ih.mp member
          simp [accepted]
          exact all
        · simp [accepted]
      · rintro ⟨split, nonempty, all⟩
        cases word with
        | nil => exact absurd rfl nonempty
        | cons letter others =>
          obtain ⟨rfl, rfl⟩ := split
          cases others with
          | nil => exact .inr ⟨rfl, rfl⟩
          | cons next more =>
            refine .inl ⟨next :: more, rest, ?_, rfl, rfl⟩
            exact ih.mpr
              ⟨rfl, by simp, fun letter member => all letter (by simp [member])⟩
    · rw [spans, if_neg accepted]
      simp only [List.not_mem_nil, false_iff]
      rintro ⟨split, nonempty, all⟩
      cases word with
      | nil => exact nonempty rfl
      | cons letter others =>
        simp only [List.cons_append, List.cons.injEq] at split
        exact accepted (split.1 ▸ all letter (by simp))

variable {expression : Regex}

namespace Regex

/-- Every listed match is a word of the expression that starts the input. -/
theorem denotes_of_mem_run {found : Match} (member : found ∈ expression.run input) :
    input = found.text ++ found.rest ∧ Denotes expression found.text := by
  induction expression generalizing input found with
  | chr accepts =>
    cases input with
    | nil => simp [run] at member
    | cons head tail =>
      by_cases accepted : accepts head
      · simp only [run, accepted, if_true, List.mem_singleton] at member
        subst member
        exact ⟨rfl, .chr accepted⟩
      · simp [run, accepted] at member
  | plus accepts =>
    simp only [run, List.mem_map, Prod.exists] at member
    obtain ⟨word, rest, spanned, rfl⟩ := member
    obtain ⟨split, nonempty, all⟩ := mem_spans.mp spanned
    exact ⟨split, .plus nonempty all⟩
  | seq first second firstHypothesis secondHypothesis =>
    simp only [run, List.mem_flatMap, List.mem_map] at member
    obtain ⟨early, earlyMember, late, lateMember, rfl⟩ := member
    obtain ⟨split, left⟩ := firstHypothesis earlyMember
    obtain ⟨splitRest, right⟩ := secondHypothesis lateMember
    exact ⟨by rw [split, splitRest, List.append_assoc], .seq left right⟩
  | group inner ih =>
    simp only [run, List.mem_map] at member
    obtain ⟨body, bodyMember, rfl⟩ := member
    obtain ⟨split, word⟩ := ih bodyMember
    exact ⟨split, .group word⟩

/-- Every word of the expression that starts the input is listed. -/
theorem exists_mem_run (denotes : Denotes expression word) (rest : List Char) :
    ∃ found ∈ expression.run (word ++ rest), found.text = word ∧ found.rest = rest := by
  induction denotes generalizing rest with
  | chr accepted => exact ⟨_, by simp [run, accepted]; rfl, rfl, rfl⟩
  | @plus accepts word nonempty all =>
    refine ⟨⟨word, [], rest⟩, ?_, rfl, rfl⟩
    simp only [run, List.mem_map, Prod.exists]
    exact ⟨word, rest, mem_spans.mpr ⟨rfl, nonempty, all⟩, rfl⟩
  | @seq first second early late _ _ firstHypothesis secondHypothesis =>
    obtain ⟨head, headMember, rfl, headRest⟩ := firstHypothesis (late ++ rest)
    obtain ⟨tail, tailMember, rfl, rfl⟩ := secondHypothesis rest
    refine ⟨⟨head.text ++ tail.text, head.groups ++ tail.groups, tail.rest⟩,
      ?_, rfl, rfl⟩
    simp only [run, List.mem_flatMap, List.mem_map]
    exact ⟨head, by simpa using headMember, tail, headRest ▸ tailMember, rfl⟩
  | group _ ih =>
    obtain ⟨found, member, rfl, rfl⟩ := ih rest
    exact ⟨_, List.mem_map_of_mem member, rfl, rfl⟩

/-- `MatchString` holds exactly of the texts with a word of the expression in
them. -/
theorem matchText_iff :
    expression.matchText input = true ↔ ∃ word, word <:+: input ∧ Denotes expression word := by
  simp only [matchText, List.any_eq_true, List.mem_tails, Bool.not_eq_true',
    List.isEmpty_eq_false_iff]
  constructor
  · rintro ⟨suffix, ⟨before, rfl⟩, nonempty⟩
    obtain ⟨found, member⟩ := List.exists_mem_of_ne_nil _ nonempty
    obtain ⟨rfl, denotes⟩ := denotes_of_mem_run member
    exact ⟨found.text, ⟨before, found.rest, by simp⟩, denotes⟩
  · rintro ⟨word, ⟨before, after, rfl⟩, denotes⟩
    obtain ⟨found, member, _, _⟩ := exists_mem_run denotes after
    exact ⟨word ++ after, ⟨before, by simp⟩, List.ne_nil_of_mem member⟩

theorem denotes_chr : Denotes (.chr accepts) word ↔ ∃ letter, accepts letter ∧ word = [letter] := by
  constructor
  · rintro ⟨accepted⟩
    exact ⟨_, accepted, rfl⟩
  · rintro ⟨letter, accepted, rfl⟩
    exact .chr accepted

theorem denotes_plus :
    Denotes (.plus accepts) word ↔ word ≠ [] ∧ ∀ letter ∈ word, accepts letter := by
  constructor
  · rintro ⟨⟩
    exact ⟨‹_›, ‹_›⟩
  · rintro ⟨nonempty, all⟩
    exact .plus nonempty all

theorem denotes_seq {first second : Regex} :
    Denotes (.seq first second) word ↔
      ∃ early late, word = early ++ late ∧ Denotes first early ∧
        Denotes second late := by
  constructor
  · rintro ⟨⟩
    exact ⟨_, _, rfl, ‹_›, ‹_›⟩
  · rintro ⟨early, late, rfl, left, right⟩
    exact .seq left right

end Regex

/-! ### Plain substrings -/

/-- `strings.Contains`. -/
def contains (text part : String) : Bool :=
  text.toList.tails.any fun suffix => part.toList.isPrefixOf suffix

/-- Replace every occurrence of a non-empty text, from the left, none
overlapping another.  `skip` counts the characters still to drop. -/
def replaceFrom (old new : List Char) : Nat → List Char → List Char
  | _, [] => []
  | skip + 1, _ :: tail => replaceFrom old new skip tail
  | 0, head :: tail =>
    if old.isPrefixOf (head :: tail) then
      new ++ replaceFrom old new (old.length - 1) tail
    else head :: replaceFrom old new 0 tail

/-- `strings.ReplaceAll` for a non-empty `old`. -/
def replaceAll (text old new : String) : String :=
  .ofList (replaceFrom old.toList new.toList 0 text.toList)

/-! ### Joined names -/

/-- Two texts joined by a separator that both may contain: the joins agree only
if the parts do, or if the separator is read at two places. -/
theorem joined_eq_iff (separator : Char) {first second early late : List Char} :
    first ++ separator :: early = second ++ separator :: late ↔
      (first = second ∧ early = late) ∨
      (∃ between, second = first ++ separator :: between ∧
        early = between ++ separator :: late) ∨
      (∃ between, first = second ++ separator :: between ∧
        late = between ++ separator :: early) := by
  rw [List.append_eq_append_iff]
  constructor
  · rintro (⟨gap, split, rest⟩ | ⟨gap, split, rest⟩)
    · cases gap with
      | nil =>
        simp only [List.nil_append, List.cons.injEq, true_and] at rest
        exact .inl ⟨by simpa using split.symm, rest⟩
      | cons letter between =>
        simp only [List.cons_append, List.cons.injEq] at rest
        obtain ⟨rfl, rest⟩ := rest
        exact .inr (.inl ⟨between, split, rest⟩)
    · cases gap with
      | nil =>
        simp only [List.nil_append, List.cons.injEq, true_and] at rest
        exact .inl ⟨by simpa using split, rest.symm⟩
      | cons letter between =>
        simp only [List.cons_append, List.cons.injEq] at rest
        obtain ⟨rfl, rest⟩ := rest
        exact .inr (.inr ⟨between, split, rest⟩)
  · rintro (⟨rfl, rfl⟩ | ⟨between, rfl, rfl⟩ | ⟨between, rfl, rfl⟩)
    · exact .inl ⟨[], by simp, by simp⟩
    · exact .inl ⟨separator :: between, rfl, rfl⟩
    · exact .inr ⟨separator :: between, rfl, rfl⟩

/-- The same for strings joined by a hyphen. -/
theorem hyphenated_eq_iff {first second early late : String} :
    first ++ "-" ++ early = second ++ "-" ++ late ↔
      (first = second ∧ early = late) ∨
      (∃ between, second = first ++ "-" ++ between ∧
        early = between ++ "-" ++ late) ∨
      (∃ between, first = second ++ "-" ++ between ∧
        late = between ++ "-" ++ early) := by
  have join : ∀ left right : String,
      (left ++ "-" ++ right).toList = left.toList ++ '-' :: right.toList := by
    intro left right
    simp [String.toList_append]
  have reread : ∀ whole start rest tail : String,
      (∃ between : List Char, whole.toList = start.toList ++ '-' :: between ∧
          rest.toList = between ++ '-' :: tail.toList) ↔
        ∃ between : String, whole = start ++ "-" ++ between ∧
          rest = between ++ "-" ++ tail := by
    intro whole start rest tail
    constructor
    · rintro ⟨between, split, joined⟩
      refine ⟨.ofList between, String.toList_inj.mp ?_, String.toList_inj.mp ?_⟩
      · rw [join, split, String.toList_ofList]
      · rw [join, joined, String.toList_ofList]
    · rintro ⟨between, rfl, rfl⟩
      exact ⟨between.toList, join _ _, join _ _⟩
  rw [← String.toList_inj, join, join, joined_eq_iff, String.toList_inj,
    String.toList_inj, reread, reread]

end ScoreOrchestrator.Foundation
