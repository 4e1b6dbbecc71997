/-
Module: Foundation.Scanning
Purpose: Scans from the left over a text that is put together from pieces: what a search
  for an expression and a replacement do, piece by piece.
Main exports: Regex.findAllFrom_pass, Regex.findAllFrom_hit, replaceFrom_pass, replaceFrom_hit
-/
import ScoreOrchestrator.Foundation.Text

namespace ScoreOrchestrator.Foundation

variable {text word : List Char} {stop : Char}

/-! ### Runs of an expression -/

namespace Regex

variable {expression next : Regex} {input rest : List Char}

theorem run_lit_self (expected : Char) :
    (lit expected next).run (expected :: input) =
      (next.run input).map fun late => { late with text := expected :: late.text } := by
  simp [lit, run]

theorem run_lit_of_ne {expected head : Char} (different : head ≠ expected) :
    (lit expected next).run (head :: input) = [] := by
  simp [lit, run, different]

/-- A literal text is cut off. -/
theorem run_literal_append (text : List Char) :
    (text.foldr lit next).run (text ++ input) =
      (next.run input).map fun late => { late with text := text ++ late.text } := by
  induction text with
  | nil => simp
  | cons head tail ih =>
    rw [List.foldr_cons, List.cons_append, run_lit_self, ih, List.map_map]
    rfl

/-- What begins otherwise does not match. -/
theorem run_literal_of_not_starts (other : ¬text <+: input) :
    (text.foldr lit next).run input = [] := by
  induction text generalizing input with
  | nil => exact absurd (List.nil_prefix) other
  | cons head tail ih =>
    rw [List.foldr_cons]
    cases input with
    | nil => rfl
    | cons letter input =>
      by_cases same : letter = head
      · subst same
        have unmatched : ¬tail <+: input := fun starts =>
          other (List.cons_prefix_cons.mpr ⟨rfl, starts⟩)
        rw [run_lit_self, ih unmatched, List.map_nil]
      · exact run_lit_of_ne same

end Regex

/-- Of the runs before a character that ends them only the longest counts, if whatever
follows has to begin with that character. -/
theorem flatMap_spans {accepts : Char → Bool} {rest : List Char} {Found : Type}
    (follow : List Char × List Char → List Found) (nonempty : word ≠ [])
    (accepted : ∀ letter ∈ word, accepts letter) (refused : accepts stop = false)
    (needs : ∀ span letter tail, letter ≠ stop → follow (span, letter :: tail) = []) :
    (spans accepts (word ++ stop :: rest)).flatMap follow = follow (word, stop :: rest) := by
  induction word generalizing follow with
  | nil => exact absurd rfl nonempty
  | cons head tail ih =>
    have headAccepted : accepts head = true := accepted head (.head _)
    have tailAccepted : ∀ letter ∈ tail, accepts letter = true :=
      fun letter member => accepted letter (.tail _ member)
    rw [List.cons_append, spans, if_pos headAccepted, List.flatMap_append,
      List.flatMap_map, List.flatMap_singleton]
    cases tail with
    | nil => simp [spans, refused]
    | cons second others =>
      have different : second ≠ stop := by
        rintro rfl
        exact absurd (tailAccepted second (.head _)) (by rw [refused]; decide)
      rw [ih (fun span => follow (head :: span.1, span.2)) (by simp) tailAccepted
        fun span letter tail other => needs (head :: span) letter tail other]
      rw [List.cons_append, needs [head] second _ different, List.append_nil]

namespace Regex

variable {expression next : Regex} {input rest : List Char}

/-- A group of everything up to a character, and what begins with that character. -/
theorem run_until (nonempty : word ≠ []) (absent : stop ∉ word)
    (needs : ∀ letter tail, letter ≠ stop → next.run (letter :: tail) = []) :
    (seq (group (manyExcept stop)) next).run (word ++ stop :: rest) =
      (next.run (stop :: rest)).map fun late =>
        ⟨word ++ late.text, word :: late.groups, late.rest⟩ := by
  have accepted : ∀ letter ∈ word, (letter != stop) = true := by
    intro letter member
    simp only [bne_iff_ne, ne_eq]
    rintro rfl
    exact absent member
  let follow (span : List Char × List Char) : List Match :=
    (next.run span.2).map fun late => ⟨span.1 ++ late.text, span.1 :: late.groups, late.rest⟩
  have single : (spans (· != stop) (word ++ stop :: rest)).flatMap follow =
      follow (word, stop :: rest) := by
    refine flatMap_spans follow nonempty accepted (by simp) fun span letter tail other => ?_
    exact congrArg (List.map _) (needs letter tail other)
  refine Eq.trans ?_ single
  simp [run, manyExcept, List.flatMap_map, follow]

/-! ### Searching -/

theorem findAllFrom_skip (word : List Char) :
    expression.findAllFrom word.length (word ++ rest) = expression.findAllFrom 0 rest := by
  induction word with
  | nil => rfl
  | cons head tail ih => exact ih

/-- No match begins in the text. -/
theorem findAllFrom_pass
    (none : ∀ front back, text = front ++ back → back ≠ [] → expression.run (back ++ rest) = []) :
    expression.findAllFrom 0 (text ++ rest) = expression.findAllFrom 0 rest := by
  induction text with
  | nil => rfl
  | cons head tail ih =>
    have here := none [] (head :: tail) rfl (by simp)
    rw [List.cons_append] at here
    rw [List.cons_append, findAllFrom, here]
    exact ih fun front back split => none (head :: front) back (by rw [split]; rfl)

/-- A match is taken, and the search goes on after it. -/
theorem findAllFrom_hit {groups : List (List Char)} (nonempty : text ≠ [])
    (found : (expression.run (text ++ rest)).head? = some ⟨text, groups, rest⟩) :
    expression.findAllFrom 0 (text ++ rest) =
      ⟨text, groups, rest⟩ :: expression.findAllFrom 0 rest := by
  cases text with
  | nil => exact absurd rfl nonempty
  | cons head tail =>
    rw [List.cons_append] at found ⊢
    rw [findAllFrom, found]
    exact congrArg (List.cons _) (findAllFrom_skip tail)

end Regex

/-! ### Words that end with a character -/

/-- Two words that end with a character found nowhere in them agree if one begins the
other. -/
theorem prefix_until {first second early late : List Char} (absent : stop ∉ first)
    (absent' : stop ∉ second) (starts : first ++ stop :: early <+: second ++ stop :: late) :
    first = second ∧ early <+: late := by
  induction first generalizing second with
  | nil =>
    cases second with
    | nil => exact ⟨rfl, (List.cons_prefix_cons.mp starts).2⟩
    | cons head tail =>
      have same := (List.cons_prefix_cons.mp starts).1
      exact absurd (.head _) (same ▸ absent')
  | cons head tail ih =>
    cases second with
    | nil =>
      have same := (List.cons_prefix_cons.mp starts).1
      exact absurd (.head _) (same ▸ absent)
    | cons head' tail' =>
      obtain ⟨rfl, rest⟩ := List.cons_prefix_cons.mp starts
      obtain ⟨rfl, after⟩ := ih (fun member => absent (.tail _ member))
        (fun member => absent' (.tail _ member)) rest
      exact ⟨rfl, after⟩

/-- A text without the character that begins such a word begins it before the end. -/
theorem prefix_before {late : List Char} (absent : stop ∉ text)
    (starts : text <+: word ++ stop :: late) : text <+: word := by
  induction text generalizing word with
  | nil => exact List.nil_prefix
  | cons head tail ih =>
    cases word with
    | nil =>
      have same := (List.cons_prefix_cons.mp starts).1
      exact absurd (.head _) (same ▸ absent)
    | cons head' word =>
      obtain ⟨rfl, rest⟩ := List.cons_prefix_cons.mp starts
      exact List.cons_prefix_cons.mpr
        ⟨rfl, ih (fun member => absent (.tail _ member)) rest⟩

/-! ### Replacing -/

theorem replaceFrom_skip (old new word rest : List Char) :
    replaceFrom old new word.length (word ++ rest) = replaceFrom old new 0 rest := by
  induction word with
  | nil => rfl
  | cons head tail ih => exact ih

/-- No occurrence begins in the text. -/
theorem replaceFrom_pass {old new rest : List Char}
    (none : ∀ front back, text = front ++ back → back ≠ [] → ¬old <+: back ++ rest) :
    replaceFrom old new 0 (text ++ rest) = text ++ replaceFrom old new 0 rest := by
  induction text with
  | nil => rfl
  | cons head tail ih =>
    have here : old.isPrefixOf (head :: (tail ++ rest)) = false := by
      rw [← Bool.not_eq_true, List.isPrefixOf_iff_prefix]
      exact none [] (head :: tail) rfl (by simp)
    rw [List.cons_append, replaceFrom, here]
    exact congrArg (List.cons head)
      (ih fun front back split => none (head :: front) back (by rw [split]; rfl))

/-- An occurrence is replaced, and the scan goes on after it. -/
theorem replaceFrom_hit {old : List Char} (new rest : List Char) (nonempty : old ≠ []) :
    replaceFrom old new 0 (old ++ rest) = new ++ replaceFrom old new 0 rest := by
  cases old with
  | nil => exact absurd rfl nonempty
  | cons head tail =>
    have here : (head :: tail).isPrefixOf (head :: (tail ++ rest)) = true :=
      List.isPrefixOf_iff_prefix.mpr ⟨rest, rfl⟩
    rw [List.cons_append, replaceFrom, if_pos here]
    exact congrArg (new ++ ·) (replaceFrom_skip (head :: tail) new tail rest)

/-- The number of places at which a word begins in a text. -/
def occurrences (word text : List Char) : Nat := text.tails.countP word.isPrefixOf

theorem occurrences_cons (word : List Char) (head : Char) (tail : List Char) :
    occurrences word (head :: tail) =
      occurrences word tail + if word <+: head :: tail then 1 else 0 := by
  simp [occurrences, List.countP_cons]

theorem occurrences_le_append (word text rest : List Char) :
    occurrences word rest ≤ occurrences word (text ++ rest) := by
  induction text with
  | nil => exact le_rfl
  | cons head tail ih =>
    rw [List.cons_append, occurrences_cons]
    exact Nat.le_add_right_of_le ih

/-- A word that begins in a text is counted there. -/
theorem occurrences_lt_append {rest front back : List Char} (split : text = front ++ back)
    (nonempty : back ≠ []) (starts : word <+: back ++ rest) :
    occurrences word rest < occurrences word (text ++ rest) := by
  obtain ⟨head, tail, rfl⟩ := List.exists_cons_of_ne_nil nonempty
  have here : occurrences word (head :: tail ++ rest) = occurrences word (tail ++ rest) + 1 := by
    rw [List.cons_append] at starts ⊢
    rw [occurrences_cons, if_pos starts]
  have later := occurrences_le_append word tail rest
  have all := occurrences_le_append word front (head :: tail ++ rest)
  rw [split, List.append_assoc]
  omega

/-! ### Words with a letter of their own at the start -/

section

variable {first : Char} {body : List Char}

/-- A replacement by itself changes nothing. -/
theorem replaceFrom_self (first : Char) (body text : List Char) (skip : Nat) :
    replaceFrom (first :: body) (first :: body) skip text = text.drop skip := by
  fun_induction replaceFrom (first :: body) (first :: body) skip text with
  | case1 => simp
  | case2 skip head tail ih => exact ih
  | case3 head tail starts ih =>
    obtain ⟨rfl, rest, rfl⟩ := List.cons_prefix_cons.mp (List.isPrefixOf_iff_prefix.mp starts)
    rw [ih, List.length_cons, Nat.add_sub_cancel, List.drop_left]
    rfl
  | case4 head tail other ih => rw [ih, List.drop_zero, List.drop_zero]

theorem occurrences_of_notMem (absent : first ∉ text) (rest : List Char) :
    occurrences (first :: body) (text ++ rest) = occurrences (first :: body) rest := by
  induction text with
  | nil => rfl
  | cons head tail ih =>
    have other : ¬ first :: body <+: head :: (tail ++ rest) := by
      intro starts
      exact absent ((List.cons_prefix_cons.mp starts).1 ▸ .head _)
    rw [List.cons_append, occurrences_cons, if_neg other]
    exact ih fun member => absent (.tail _ member)

/-- Every occurrence of such a word is replaced, and the text is longer or shorter by
that. -/
theorem length_replaceFrom (single : first ∉ body) (new text : List Char) (skip : Nat) :
    (replaceFrom (first :: body) new skip text).length +
        occurrences (first :: body) (text.drop skip) * (first :: body).length =
      (text.drop skip).length + occurrences (first :: body) (text.drop skip) * new.length := by
  fun_induction replaceFrom (first :: body) new skip text with
  | case1 => simp [occurrences]
  | case2 skip head tail ih => exact ih
  | case3 head tail starts ih =>
    rw [List.isPrefixOf_iff_prefix] at starts
    obtain ⟨rfl, rest, rfl⟩ := List.cons_prefix_cons.mp starts
    have count : occurrences (first :: body) (first :: (body ++ rest)) =
        occurrences (first :: body) rest + 1 := by
      rw [occurrences_cons, if_pos starts, occurrences_of_notMem single]
    simp only [List.length_cons, Nat.add_sub_cancel, List.drop_left] at ih
    simp only [List.drop_zero, count, List.length_append, List.length_cons,
      Nat.add_sub_cancel, Nat.add_mul, Nat.one_mul]
    omega
  | case4 head tail other ih =>
    rw [List.isPrefixOf_iff_prefix] at other
    rw [List.drop_zero] at ih ⊢
    rw [occurrences_cons, if_neg other, Nat.add_zero]
    simp only [List.length_cons] at ih ⊢
    omega

/-- A replacement can be cut where the first letter stands. -/
theorem replaceFrom_append (single : first ∉ body) (new rest : List Char) {skip : Nat}
    (within : skip ≤ text.length) :
    replaceFrom (first :: body) new skip (text ++ first :: rest) =
      replaceFrom (first :: body) new skip text ++
        replaceFrom (first :: body) new 0 (first :: rest) := by
  fun_induction replaceFrom (first :: body) new skip text with
  | case1 skip =>
    obtain rfl : skip = 0 := Nat.le_zero.mp within
    rfl
  | case2 skip head tail ih => exact ih (Nat.le_of_succ_le_succ within)
  | case3 head tail starts ih =>
    rw [List.isPrefixOf_iff_prefix] at starts
    have here : (first :: body).isPrefixOf (head :: (tail ++ first :: rest)) = true :=
      List.isPrefixOf_iff_prefix.mpr (starts.trans ⟨first :: rest, rfl⟩)
    rw [List.cons_append, replaceFrom, if_pos here, List.append_assoc, ih]
    exact Nat.sub_le_of_le_add starts.length_le
  | case4 head tail other ih =>
    have here : ¬ (first :: body).isPrefixOf (head :: (tail ++ first :: rest)) = true := by
      rw [List.isPrefixOf_iff_prefix] at other ⊢
      intro starts
      obtain ⟨rfl, inner⟩ := List.cons_prefix_cons.mp starts
      exact other (List.cons_prefix_cons.mpr ⟨rfl, prefix_before single inner⟩)
    rw [List.cons_append, replaceFrom, if_neg here, ih (Nat.zero_le _), List.cons_append]

end

end ScoreOrchestrator.Foundation
