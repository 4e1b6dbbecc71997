/-
Module: Projection.Placeholder
Purpose: The scan for unresolved placeholders in a resolved values document
  (internal/projection/placeholder.go).
Trusted boundary: human-reviewed spec
Main exports: hasUnresolvedPlaceholders, ContainsPlaceholder, scan_exact
-/
import ScoreOrchestrator.Api.Types
import ScoreOrchestrator.Foundation.Json
import ScoreOrchestrator.Foundation.Text

namespace ScoreOrchestrator.Projection

open Foundation

/-- The expression of a dollar sign and a non-empty text in braces. -/
def placeholderRe : Regex := .literal "$\x7b" (.seq (.manyExcept '\x7d') (.single '\x7d'))

mutual

/-- `scan`: does any string value match `placeholderRe`? -/
def scan : Json → Bool
  | .str text => placeholderRe.matchText text.toList
  | .arr items => scanItems items
  | .obj fields => scanFields fields
  | _ => false

def scanItems : List Json → Bool
  | [] => false
  | item :: rest => scan item || scanItems rest

def scanFields : List (String × Json) → Bool
  | [] => false
  | (_, value) :: rest => scan value || scanFields rest

end

/-- `HasUnresolvedPlaceholders`.  A document that does not parse counts as
unresolved. -/
def hasUnresolvedPlaceholders (codec : JsonCodec) (raw : String) : Bool × Option GoError :=
  if raw = "" then (false, none)
  else
    match codec.unmarshal raw with
    | .error text => (true, some { text })
    | .ok document => (scan document, none)

/-! ### What the scan decides -/

/-- A text with a placeholder in it: a dollar sign, then a non-empty text in
braces. -/
def ContainsPlaceholder (text : String) : Prop :=
  ∃ before body after, body ≠ [] ∧ '\x7d' ∉ body ∧
    text.toList = before ++ '$' :: '\x7b' :: (body ++ '\x7d' :: after)

theorem placeholderRe_denotes {word : List Char} :
    placeholderRe.Denotes word ↔
      ∃ body, body ≠ [] ∧ '\x7d' ∉ body ∧
        word = '$' :: '\x7b' :: (body ++ ['\x7d']) := by
  have letters : "$\x7b".toList = ['$', '\x7b'] := by decide
  simp only [placeholderRe, Regex.literal, letters, List.foldr_cons,
    List.foldr_nil, Regex.lit, Regex.manyExcept, Regex.single,
    Regex.denotes_seq, Regex.denotes_chr, Regex.denotes_plus, beq_iff_eq,
    bne_iff_ne, ne_eq]
  constructor
  · rintro ⟨_, _, rfl, ⟨_, rfl, rfl⟩, _, _, rfl, ⟨_, rfl, rfl⟩, body, _, rfl,
      ⟨nonempty, inside⟩, _, rfl, rfl⟩
    exact ⟨body, nonempty, fun member => inside _ member rfl, rfl⟩
  · rintro ⟨body, nonempty, inside, rfl⟩
    refine ⟨['$'], _, rfl, ⟨_, rfl, rfl⟩, ['\x7b'], _, rfl, ⟨_, rfl, rfl⟩,
      body, ['\x7d'], rfl, ⟨nonempty, ?_⟩, _, rfl, rfl⟩
    intro letter member same
    exact inside (same ▸ member)

theorem placeholderRe_matchText_iff {text : String} :
    placeholderRe.matchText text.toList = true ↔ ContainsPlaceholder text := by
  rw [Regex.matchText_iff]
  constructor
  · rintro ⟨word, ⟨before, after, split⟩, denotes⟩
    obtain ⟨body, nonempty, inside, rfl⟩ := placeholderRe_denotes.mp denotes
    exact ⟨before, body, after, nonempty, inside, by simp [← split]⟩
  · rintro ⟨before, body, after, nonempty, inside, split⟩
    refine ⟨_, ⟨before, after, ?_⟩,
      placeholderRe_denotes.mpr ⟨body, nonempty, inside, rfl⟩⟩
    simp [split]

theorem scanItems_eq_false {items : List Json} :
    scanItems items = false ↔ ∀ item ∈ items, scan item = false := by
  induction items with
  | nil => simp [scanItems]
  | cons item rest ih => simp [scanItems, ih]

theorem scanFields_eq_false {fields : List (String × Json)} :
    scanFields fields = false ↔ ∀ entry ∈ fields, scan entry.2 = false := by
  induction fields with
  | nil => simp [scanFields]
  | cons entry rest ih => simp [scanFields, ih]

/-- A clean scan leaves no placeholder in any string value, however deep. -/
theorem not_containsPlaceholder_of_scan {document : Json} {text : String}
    (clean : scan document = false) (inside : document.HasString text) :
    ¬ ContainsPlaceholder text := by
  induction inside with
  | here =>
    rw [← placeholderRe_matchText_iff]
    simpa [scan] using clean
  | item member _ ih =>
    exact ih
      (scanItems_eq_false.mp (by simpa [scan] using clean) _ member)
  | field member _ ih =>
    exact ih
      (scanFields_eq_false.mp (by simpa [scan] using clean) _ member)

mutual

/-- A scan that reports something has a string value to show for it. -/
theorem exists_of_scan : ∀ document : Json, scan document = true →
    ∃ text, document.HasString text ∧ ContainsPlaceholder text
  | .null, found => by simp [scan] at found
  | .bool _, found => by simp [scan] at found
  | .num _, found => by simp [scan] at found
  | .str text, found => by
      rw [scan] at found
      exact ⟨text, .here, placeholderRe_matchText_iff.mp found⟩
  | .arr items, found => by
      rw [scan] at found
      obtain ⟨item, member, text, inside, holds⟩ := exists_of_scanItems items found
      exact ⟨text, .item member inside, holds⟩
  | .obj fields, found => by
      rw [scan] at found
      obtain ⟨entry, member, text, inside, holds⟩ := exists_of_scanFields fields found
      exact ⟨text, .field member inside, holds⟩

theorem exists_of_scanItems : ∀ items : List Json, scanItems items = true →
    ∃ item ∈ items, ∃ text, item.HasString text ∧ ContainsPlaceholder text
  | [], found => by simp [scanItems] at found
  | item :: rest, found => by
      rw [scanItems, Bool.or_eq_true] at found
      rcases found with here | later
      · exact ⟨item, .head _, exists_of_scan item here⟩
      · obtain ⟨other, member, holds⟩ := exists_of_scanItems rest later
        exact ⟨other, .tail _ member, holds⟩

theorem exists_of_scanFields : ∀ fields : List (String × Json), scanFields fields = true →
    ∃ entry ∈ fields, ∃ text, entry.2.HasString text ∧ ContainsPlaceholder text
  | [], found => by simp [scanFields] at found
  | (name, value) :: rest, found => by
      rw [scanFields, Bool.or_eq_true] at found
      rcases found with here | later
      · exact ⟨(name, value), .head _, exists_of_scan value here⟩
      · obtain ⟨other, member, holds⟩ := exists_of_scanFields rest later
        exact ⟨other, .tail _ member, holds⟩

end

/-- The scan reports just the documents with a placeholder in some string value, and a
text that is no document is reported as well. -/
theorem scan_exact (codec : JsonCodec) :
    (∀ document : Json, scan document = true ↔
      ∃ text, document.HasString text ∧ ContainsPlaceholder text) ∧
    ∀ raw, raw ≠ "" → (∀ document, codec.unmarshal raw ≠ .ok document) →
      (hasUnresolvedPlaceholders codec raw).1 = true := by
  constructor
  · intro document
    refine ⟨exists_of_scan document, ?_⟩
    rintro ⟨text, inside, holds⟩
    by_contra clean
    exact not_containsPlaceholder_of_scan (Bool.not_eq_true _ ▸ clean) inside holds
  · intro raw nonempty invalid
    unfold hasUnresolvedPlaceholders
    rw [if_neg nonempty]
    cases decoded : codec.unmarshal raw with
    | error text => rfl
    | ok document => exact absurd decoded (invalid document)

/-- A document whose text was written by the codec passes only with a clean
scan. -/
theorem scan_of_hasUnresolvedPlaceholders {codec : JsonCodec} {document : Json} {raw : String}
    (wrote : codec.marshal document = .ok raw)
    (passed : (hasUnresolvedPlaceholders codec raw).1 = false) : scan document = false := by
  have back := codec.unmarshal_marshal wrote
  have nonempty : raw ≠ "" := by
    rintro rfl
    exact codec.unmarshal_empty document back
  simpa [hasUnresolvedPlaceholders, nonempty, back] using passed

end ScoreOrchestrator.Projection
