/-
Module: Foundation.Json
Purpose: JSON values, the law a codec has to meet, and a codec for documents
  without numbers that meets it.
Main exports: Json, Json.HasString, JsonCodec, JsonCodec.text
-/
import Mathlib.Data.List.Basic

namespace ScoreOrchestrator.Foundation

/-- A JSON value as a decoder returns it.  A number is the text that the decoder prints for
it. -/
inductive Json where
  | null
  | bool (value : Bool)
  | num (literal : String)
  | str (text : String)
  | arr (items : List Json)
  | obj (fields : List (String × Json))

namespace Json

/-- A string value somewhere inside a document.  Object keys do not count. -/
inductive HasString : Json → String → Prop where
  | here {text : String} : HasString (.str text) text
  | item {items : List Json} {value : Json} {text : String}
      (member : value ∈ items) (inside : HasString value text) :
      HasString (.arr items) text
  | field {fields : List (String × Json)} {entry : String × Json} {text : String}
      (member : entry ∈ fields) (inside : HasString entry.2 text) :
      HasString (.obj fields) text

/-- The value of an object's field. -/
def field? (document : Json) (name : String) : Option Json :=
  match document with
  | .obj fields => (fields.find? fun entry => entry.1 = name).map Prod.snd
  | _ => none

end Json

/-- A pair of encoder and decoder.  Either may refuse its input; what the
encoder writes, the decoder reads back, and no document is the empty text. -/
structure JsonCodec where
  marshal : Json → Except String String
  unmarshal : String → Except String Json
  unmarshal_marshal : ∀ {document raw}, marshal document = .ok raw →
    unmarshal raw = .ok document
  unmarshal_empty : ∀ document, unmarshal "" ≠ .ok document

namespace Json

/-! ### A text codec -/

/-- Escape quotes and backslashes, and close the string. -/
def quoteTail : List Char → List Char
  | [] => ['"']
  | letter :: rest =>
    if letter = '"' ∨ letter = '\\' then '\\' :: letter :: quoteTail rest
    else letter :: quoteTail rest

/-- The rest of a string literal after its opening quote. -/
def readString : List Char → Option (List Char × List Char)
  | [] => none
  | '"' :: rest => some ([], rest)
  | '\\' :: letter :: rest => (readString rest).map fun read => (letter :: read.1, read.2)
  | letter :: rest => (readString rest).map fun read => (letter :: read.1, read.2)

theorem readString_quoteTail (text rest : List Char) :
    readString (quoteTail text ++ rest) = some (text, rest) := by
  induction text with
  | nil => rfl
  | cons letter others ih =>
    by_cases special : letter = '"' ∨ letter = '\\'
    · simp [quoteTail, special, readString, ih]
    · have plain := not_or.mp special
      simp [quoteTail, readString, ih, plain.1, plain.2]

/-- A string literal.  Control characters have no escape here. -/
def writeString (text : String) : Option (List Char) :=
  if text.toList.all fun letter => 32 ≤ letter.toNat then
    some ('"' :: quoteTail text.toList)
  else none

mutual

/-- Encode a value; numbers are left to other codecs. -/
def write : Json → Option (List Char)
  | .null => some ['n', 'u', 'l', 'l']
  | .bool true => some ['t', 'r', 'u', 'e']
  | .bool false => some ['f', 'a', 'l', 's', 'e']
  | .num _ => none
  | .str text => writeString text
  | .arr [] => some ['[', ']']
  | .arr (value :: rest) => do
      let head ← write value
      let tail ← writeItems rest
      some ('[' :: (head ++ tail))
  | .obj [] => some ['\x7b', '\x7d']
  | .obj ((name, value) :: rest) => do
      let key ← writeString name
      let head ← write value
      let tail ← writeFields rest
      some ('\x7b' :: (key ++ ':' :: (head ++ tail)))

/-- The items after the first, and the closing bracket. -/
def writeItems : List Json → Option (List Char)
  | [] => some [']']
  | value :: rest => do
      let head ← write value
      let tail ← writeItems rest
      some (',' :: (head ++ tail))

/-- The fields after the first, and the closing brace. -/
def writeFields : List (String × Json) → Option (List Char)
  | [] => some ['\x7d']
  | (name, value) :: rest => do
      let key ← writeString name
      let head ← write value
      let tail ← writeFields rest
      some (',' :: (key ++ ':' :: (head ++ tail)))

end

/-- A string literal with its opening quote. -/
def readQuoted : List Char → Option (String × List Char)
  | '"' :: rest => (readString rest).map fun read => (.ofList read.1, read.2)
  | _ => none

mutual

/-- Decode one value from the start of the input. -/
def read : Nat → List Char → Option (Json × List Char)
  | 0, _ => none
  | _ + 1, 'n' :: 'u' :: 'l' :: 'l' :: rest => some (.null, rest)
  | _ + 1, 't' :: 'r' :: 'u' :: 'e' :: rest => some (.bool true, rest)
  | _ + 1, 'f' :: 'a' :: 'l' :: 's' :: 'e' :: rest => some (.bool false, rest)
  | _ + 1, '[' :: ']' :: rest => some (.arr [], rest)
  | fuel + 1, '[' :: input => do
      let (value, afterValue) ← read fuel input
      let (items, rest) ← readItems fuel afterValue
      some (.arr (value :: items), rest)
  | _ + 1, '\x7b' :: '\x7d' :: rest => some (.obj [], rest)
  | fuel + 1, '\x7b' :: input => do
      let (entry, afterEntry) ← readEntry fuel input
      let (fields, rest) ← readFields fuel afterEntry
      some (.obj (entry :: fields), rest)
  | _ + 1, input => do
      let (text, rest) ← readQuoted input
      some (.str text, rest)

def readItems : Nat → List Char → Option (List Json × List Char)
  | 0, _ => none
  | _ + 1, ']' :: rest => some ([], rest)
  | fuel + 1, ',' :: input => do
      let (value, afterValue) ← read fuel input
      let (items, rest) ← readItems fuel afterValue
      some (value :: items, rest)
  | _ + 1, _ => none

def readEntry : Nat → List Char → Option ((String × Json) × List Char)
  | 0, _ => none
  | fuel + 1, input => do
      let (name, afterName) ← readQuoted input
      match afterName with
      | ':' :: input =>
        let (value, rest) ← read fuel input
        some ((name, value), rest)
      | _ => none

def readFields : Nat → List Char → Option (List (String × Json) × List Char)
  | 0, _ => none
  | _ + 1, '\x7d' :: rest => some ([], rest)
  | fuel + 1, ',' :: input => do
      let (entry, afterEntry) ← readEntry fuel input
      let (fields, rest) ← readFields fuel afterEntry
      some (entry :: fields, rest)
  | _ + 1, _ => none

end

theorem readQuoted_writeString {text : String} {written : List Char}
    (done : writeString text = some written) (rest : List Char) :
    readQuoted (written ++ rest) = some (text, rest) := by
  unfold writeString at done
  split at done
  · cases done
    simp [readQuoted, readString_quoteTail]
  · cases done

theorem writeString_head {text : String} {written : List Char}
    (done : writeString text = some written) : ∃ tail, written = '"' :: tail := by
  unfold writeString at done
  split at done
  · cases done
    exact ⟨_, rfl⟩
  · cases done

/-- No written value starts with a closing bracket. -/
theorem write_head {value : Json} {written : List Char} (done : write value = some written) :
    ∃ head tail, written = head :: tail ∧ head ≠ ']' := by
  cases value with
  | null => cases done; exact ⟨_, _, rfl, by decide⟩
  | bool value => cases value <;> cases done <;> exact ⟨_, _, rfl, by decide⟩
  | num literal => simp [write] at done
  | str text =>
    obtain ⟨tail, rfl⟩ := writeString_head done
    exact ⟨_, _, rfl, by decide⟩
  | arr items =>
    cases items with
    | nil => cases done; exact ⟨_, _, rfl, by decide⟩
    | cons value rest =>
      simp only [write, Option.bind_eq_bind, Option.bind_eq_some_iff,
        Option.some.injEq] at done
      obtain ⟨_, _, _, _, rfl⟩ := done
      exact ⟨_, _, rfl, by decide⟩
  | obj fields =>
    cases fields with
    | nil => cases done; exact ⟨_, _, rfl, by decide⟩
    | cons entry rest =>
      simp only [write, Option.bind_eq_bind, Option.bind_eq_some_iff,
        Option.some.injEq] at done
      obtain ⟨_, _, _, _, _, _, rfl⟩ := done
      exact ⟨_, _, rfl, by decide⟩

/-- Reading `"name": value` back, given that the value reads back. -/
theorem readEntry_append {name : String} {value : Json} {key head rest : List Char} {fuel : Nat}
    (named : writeString name = some key) (reads : read fuel (head ++ rest) = some (value, rest)) :
    readEntry (fuel + 1) (key ++ ':' :: (head ++ rest)) = some ((name, value), rest) := by
  simp [readEntry, readQuoted_writeString named, reads]

mutual

theorem read_write : ∀ (value : Json) {written : List Char} (rest : List Char)
    (fuel : Nat), write value = some written → written.length ≤ fuel →
      read fuel (written ++ rest) = some (value, rest)
  | value, written, rest, 0, done, enough => by
      obtain ⟨head, tail, rfl, _⟩ := write_head done
      simp at enough
  | .null, _, rest, fuel + 1, done, _ => by
      cases done
      simp [read]
  | .bool true, _, rest, fuel + 1, done, _ => by
      cases done
      simp [read]
  | .bool false, _, rest, fuel + 1, done, _ => by
      cases done
      simp [read]
  | .num _, _, _, _ + 1, done, _ => by simp [write] at done
  | .str text, _, rest, fuel + 1, done, _ => by
      have quoted := readQuoted_writeString done rest
      obtain ⟨tail, rfl⟩ := writeString_head done
      rw [List.cons_append] at quoted ⊢
      simp [read, quoted]
  | .arr [], _, rest, fuel + 1, done, _ => by
      cases done
      simp [read]
  | .arr (value :: items), _, rest, fuel + 1, done, enough => by
      simp only [write, Option.bind_eq_bind, Option.bind_eq_some_iff,
        Option.some.injEq] at done
      obtain ⟨head, headDone, tail, tailDone, rfl⟩ := done
      simp only [List.length_cons, List.length_append] at enough
      have first := read_write value (tail ++ rest) fuel headDone (by omega)
      have others := readItems_writeItems items rest fuel tailDone (by omega)
      -- the head letter decides between `[]` and a first item
      obtain ⟨letter, more, rfl, notClosing⟩ := write_head headDone
      simp only [List.cons_append, List.append_assoc] at first ⊢
      simp [read, first, others, notClosing]
  | .obj [], _, rest, fuel + 1, done, _ => by
      cases done
      simp [read]
  | .obj ((name, value) :: fields), _, rest, fuel + 1, done, enough => by
      simp only [write, Option.bind_eq_bind, Option.bind_eq_some_iff,
        Option.some.injEq] at done
      obtain ⟨key, keyDone, head, headDone, tail, tailDone, rfl⟩ := done
      obtain ⟨letters, rfl⟩ := writeString_head keyDone
      simp only [List.length_cons, List.length_append] at enough
      obtain ⟨fuel, rfl⟩ : ∃ less, fuel = less + 1 := ⟨fuel - 1, by omega⟩
      have first := readEntry_append keyDone
        (read_write value (tail ++ rest) fuel headDone (by omega))
      have others := readFields_writeFields fields rest (fuel + 1) tailDone (by omega)
      simp only [List.cons_append, List.append_assoc] at first ⊢
      simp [read, first, others]

theorem readItems_writeItems : ∀ (items : List Json) {written : List Char}
    (rest : List Char) (fuel : Nat), writeItems items = some written →
      written.length ≤ fuel →
      readItems fuel (written ++ rest) = some (items, rest)
  | [], _, rest, 0, done, enough => by
      cases done
      simp at enough
  | [], _, rest, fuel + 1, done, _ => by
      cases done
      simp [readItems]
  | value :: items, _, rest, fuel, done, enough => by
      simp only [writeItems, Option.bind_eq_bind, Option.bind_eq_some_iff,
        Option.some.injEq] at done
      obtain ⟨head, headDone, tail, tailDone, rfl⟩ := done
      simp only [List.length_cons, List.length_append] at enough
      obtain ⟨fuel, rfl⟩ : ∃ less, fuel = less + 1 := ⟨fuel - 1, by omega⟩
      have first := read_write value (tail ++ rest) fuel headDone (by omega)
      have others := readItems_writeItems items rest fuel tailDone (by omega)
      simp [readItems, first, others]

theorem readFields_writeFields : ∀ (fields : List (String × Json))
    {written : List Char} (rest : List Char) (fuel : Nat),
      writeFields fields = some written → written.length ≤ fuel →
      readFields fuel (written ++ rest) = some (fields, rest)
  | [], _, rest, 0, done, enough => by
      cases done
      simp at enough
  | [], _, rest, fuel + 1, done, _ => by
      cases done
      simp [readFields]
  | (name, value) :: fields, _, rest, fuel, done, enough => by
      simp only [writeFields, Option.bind_eq_bind, Option.bind_eq_some_iff,
        Option.some.injEq] at done
      obtain ⟨key, keyDone, head, headDone, tail, tailDone, rfl⟩ := done
      simp only [List.length_cons, List.length_append] at enough
      obtain ⟨fuel, rfl⟩ : ∃ less, fuel = less + 2 := ⟨fuel - 2, by omega⟩
      have first := readEntry_append keyDone
        (read_write value (tail ++ rest) fuel headDone (by omega))
      have others := readFields_writeFields fields rest (fuel + 1) tailDone (by omega)
      simp [readFields, first, others]

end

/-- Encode a document. -/
def encode (document : Json) : Except String String :=
  match write document with
  | some written => .ok (.ofList written)
  | none => .error "json: unsupported value"

/-- Decode a whole text as one document. -/
def decode (raw : String) : Except String Json :=
  match read raw.toList.length raw.toList with
  | some (document, []) => .ok document
  | _ => .error "json: invalid document"

theorem decode_encode {document : Json} {raw : String} (done : encode document = .ok raw) :
    decode raw = .ok document := by
  unfold encode at done
  split at done
  next written wrote =>
    cases done
    have back := read_write document [] written.length wrote (Nat.le_refl _)
    rw [List.append_nil] at back
    simp [decode, back]
  next => cases done

end Json

/-- The codec for documents without numbers and control characters. -/
def JsonCodec.text : JsonCodec where
  marshal := Json.encode
  unmarshal := Json.decode
  unmarshal_marshal := Json.decode_encode
  unmarshal_empty := by
    intro document decoded
    simp [Json.decode, Json.read] at decoded

end ScoreOrchestrator.Foundation
