/-
Module: Proofs.ComposedValues
Purpose: When the composition of template values is the deep merge of the JSON documents
  that its parts stand for.  The merge knows only maps of one Go type, and takes any other
  map as a whole.
-/
import ScoreOrchestrator.Proofs.DeepMerge

namespace ScoreOrchestrator.Reconcile

open Foundation
open Nested (mergeOption)

variable {document : Json} {key : String} {inner value left right : GoAny} {path : List String}
  {claims : List ResourceClaim} {fields : List (String × Json)} {holds : List String → Json → Prop}

/-! ### Documents -/

theorem decodeFields_eq (fields : List (String × Json)) :
    decodeFields fields = fields.map fun entry => (entry.1, decodeAny entry.2) := by
  induction fields with
  | nil => rfl
  | cons entry rest ih => rw [decodeFields, ih, List.map_cons]

/-- The fields of a decoded object. -/
theorem get?_decodeAny_obj (fields : List (String × Json)) (key : String) :
    (decodeAny (.obj fields)).get? key = ((GoMap.ofList fields).get? key).map decodeAny := by
  rw [decodeAny, Nested.get?_ofTable, Table.find?_ofRows, decodeFields_eq, GoMap.get?_ofList,
    ← List.map_reverse, List.find?_map]
  simp [Function.comp_def]

/-- A document that is an object. -/
def IsObject (document : Json) : Prop := (decodeAny document).isNode = true

theorem isObject_iff : IsObject document ↔ ∃ fields, document = .obj fields := by
  cases document with
  | obj fields => simp [IsObject, decodeAny]
  | _ => simp [IsObject, decodeAny, Nested.isNode]

theorem decodeAny_of_not_isObject (other : ¬IsObject document) :
    decodeAny document = .leaf document := by
  cases document with
  | obj fields => exact absurd (isObject_iff.mpr ⟨fields, rfl⟩) other
  | _ => rfl

theorem isObject_of_get? (found : (decodeAny document).get? key = some inner) :
    IsObject document := by
  by_contra other
  rw [decodeAny_of_not_isObject other] at found
  cases found

/-- The document that a value is encoded to, with all its objects as maps. -/
def expand (value : GoAny) : GoAny := decodeAny (encodeAny value)

theorem expand_leaf (document : Json) : expand (.leaf document) = decodeAny document := rfl

/-- A map is encoded to an object with the encoded values of its keys. -/
theorem exists_encodeAny_obj (isMap : value.isNode = true) :
    ∃ rows, encodeAny value = .obj rows ∧ (rows.map Prod.fst).Nodup ∧
      ∀ key document, (key, document) ∈ rows ↔
        ∃ inner, value.get? key = some inner ∧ encodeAny inner = document :=
  Nested.exists_fold_node isMap

theorem isNode_expand (isMap : value.isNode = true) : (expand value).isNode = true := by
  obtain ⟨rows, encoded, _⟩ := exists_encodeAny_obj isMap
  rw [expand, encoded]
  rfl

theorem get?_expand (isMap : value.isNode = true) (key : String) :
    (expand value).get? key = (value.get? key).map expand := by
  obtain ⟨rows, encoded, distinct, entries⟩ := exists_encodeAny_obj isMap
  rw [expand, encoded, get?_decodeAny_obj]
  cases here : value.get? key with
  | some inner =>
    have listed := (entries key (encodeAny inner)).mpr ⟨inner, here, rfl⟩
    rw [(GoMap.get?_ofList_eq_some distinct).mpr listed]
    rfl
  | none =>
    have absent : (GoMap.ofList rows).get? key = none := by
      rw [Option.eq_none_iff_forall_ne_some]
      intro document found
      obtain ⟨inner, there, _⟩ := (entries key document).mp
        ((GoMap.get?_ofList_eq_some distinct).mp found)
      rw [here] at there
      cases there
    rw [absent]
    rfl

/-! ### Maps of other types -/

/-- A map of another type than `map[string]interface{}` stands at the path. -/
def Typed (value : GoAny) (path : List String) (fields : List (String × Json)) : Prop :=
  value.at? path = some (.leaf (.obj fields))

theorem not_typed_decodeAny (document : Json) (path : List String) (fields : List (String × Json)) :
    ¬Typed (decodeAny document) path fields := by
  induction path generalizing document with
  | nil =>
    intro typed
    have same : decodeAny document = .leaf (.obj fields) := by simpa [Typed] using typed
    cases document <;> simp [decodeAny] at same
    have isNode := congrArg Nested.isNode same
    cases isNode
  | cons key rest ih =>
    intro typed
    rw [Typed, Nested.at?_cons] at typed
    obtain ⟨inner, found, there⟩ := Option.bind_eq_some_iff.mp typed
    obtain ⟨others, rfl⟩ := isObject_iff.mp (isObject_of_get? found)
    rw [get?_decodeAny_obj] at found
    obtain ⟨document, _, rfl⟩ := Option.map_eq_some_iff.mp found
    exact ih document there

theorem typed_of_get? (found : value.get? key = some inner) (typed : Typed inner path fields) :
    Typed value (key :: path) fields := by
  rw [Typed, Nested.at?_cons, found]
  exact typed

/-- Without maps of other types a value is the document it stands for. -/
theorem expand_of_untyped (untyped : ∀ path fields, ¬Typed value path fields) :
    expand value = value := by
  induction value with
  | leaf document =>
    rw [expand_leaf]
    refine decodeAny_of_not_isObject fun isObject => ?_
    obtain ⟨fields, rfl⟩ := isObject_iff.mp isObject
    exact untyped [] fields (by simp [Typed])
  | node keys sorted inner ih =>
    refine Nested.ext_get? (isNode_expand rfl) rfl fun key => ?_
    rw [get?_expand rfl]
    cases found : (Nested.node keys sorted inner).get? key with
    | none => rfl
    | some value =>
      by_cases member : key ∈ keys
      · obtain rfl : inner key member = value := by
          simpa [Nested.get?, member] using found
        refine congrArg some (ih key member fun path fields typed => ?_)
        exact untyped (key :: path) fields (typed_of_get? found typed)
      · simp [Nested.get?, member] at found

theorem expand_decodeAny (document : Json) : expand (decodeAny document) = decodeAny document :=
  expand_of_untyped (not_typed_decodeAny document)

/-! ### Merging values and merging documents -/

/-- Wherever a map of another type is laid over the document, it has all the keys that the
document has there. -/
def Covers (document value : GoAny) : Prop :=
  ∀ path fields key, Typed value path fields → (document.at? (path ++ [key])).isSome →
    key ∈ fields.map Prod.fst

/-- No map of another type has an object in it. -/
def Flat (value : GoAny) : Prop :=
  ∀ path fields, Typed value path fields → ∀ entry ∈ fields, ¬IsObject entry.2

/-- What lies at the place of a map of another type is no object. -/
def Apart (left right : GoAny) : Prop :=
  ∀ path fields, Typed left path fields → ∀ inner, right.at? path = some inner →
    (expand inner).isNode = false

theorem isSome_get?_decodeAny_obj :
    ((decodeAny (.obj fields)).get? key).isSome ↔ key ∈ fields.map Prod.fst := by
  rw [get?_decodeAny_obj, Option.isSome_map, GoMap.get?_ofList, Option.isSome_map,
    List.find?_isSome]
  simp

/-- A flat object laid over a document as a whole is the merge of both just if it has all
keys of the document. -/
theorem eq_deepMerge_obj_iff {document : GoAny} (flat : ∀ entry ∈ fields, ¬IsObject entry.2) :
    decodeAny (.obj fields) = document.deepMerge (decodeAny (.obj fields)) ↔
      ∀ key, (document.get? key).isSome → key ∈ fields.map Prod.fst := by
  have isObject : (decodeAny (.obj fields)).isNode = true := isObject_iff.mpr ⟨fields, rfl⟩
  cases document with
  | leaf found => simp
  | node keys sorted value =>
    constructor
    · intro same key present
      obtain ⟨left, here⟩ := Option.isSome_iff_exists.mp present
      rw [← isSome_get?_decodeAny_obj, same, Nested.get?_deepMerge rfl isObject, here]
      cases (decodeAny (.obj fields)).get? key <;> rfl
    · intro covered
      refine Nested.ext_get? isObject (by rwa [Nested.isNode_deepMerge]) fun key => ?_
      rw [Nested.get?_deepMerge rfl isObject]
      cases here : (Nested.node keys sorted value).get? key with
      | none => rfl
      | some left =>
        have listed := covered key (by rw [here]; rfl)
        obtain ⟨right, there⟩ :=
          Option.isSome_iff_exists.mp (isSome_get?_decodeAny_obj.mpr listed)
        -- what a flat object has under a key replaces whatever was there
        obtain ⟨leaf, rfl⟩ : ∃ leaf, right = .leaf leaf := by
          rw [get?_decodeAny_obj, GoMap.get?_ofList, Option.map_map] at there
          obtain ⟨entry, found, rfl⟩ := Option.map_eq_some_iff.mp there
          have member := List.mem_reverse.mp (List.mem_of_find?_eq_some found)
          exact ⟨entry.2, decodeAny_of_not_isObject (flat entry member)⟩
        rw [there]
        simp [mergeOption]

theorem flat_of_get? (flat : Flat value) (found : value.get? key = some inner) : Flat inner :=
  fun path fields typed => flat (key :: path) fields (typed_of_get? found typed)

theorem apart_of_get? {first second : GoAny} (apart : Apart left right)
    (here : left.get? key = some first) (there : right.get? key = some second) :
    Apart first second := by
  intro path fields typed inner reached
  refine apart (key :: path) fields (typed_of_get? here typed) inner ?_
  rw [Nested.at?_cons, there]
  exact reached

/-- Below two maps, covering is covering under each key that both have. -/
theorem covers_iff_of_nodes (leftNode : left.isNode = true) (rightNode : right.isNode = true) :
    Covers (expand left) right ↔ ∀ key first second, left.get? key = some first →
      right.get? key = some second → Covers (expand first) second := by
  constructor
  · intro covers key first second here there path fields name typed present
    refine covers (key :: path) fields name (typed_of_get? there typed) ?_
    rw [List.cons_append, Nested.at?_cons, get?_expand leftNode, here]
    exact present
  · intro each path fields name typed present
    cases path with
    | nil =>
      have same : right = .leaf (.obj fields) := by simpa [Typed] using typed
      rw [same] at rightNode
      cases rightNode
    | cons key rest =>
      rw [Typed, Nested.at?_cons] at typed
      obtain ⟨second, there, typed⟩ := Option.bind_eq_some_iff.mp typed
      rw [List.cons_append, Nested.at?_cons, get?_expand leftNode] at present
      cases here : left.get? key with
      | none =>
        rw [here] at present
        cases present
      | some first =>
        rw [here] at present
        exact each key first second here there rest fields name typed present

/-- Two maps are merged like the documents they stand for just if the values are that both
have under one key. -/
theorem expand_deepMerge_nodes (leftNode : left.isNode = true) (rightNode : right.isNode = true) :
    expand (left.deepMerge right) = (expand left).deepMerge (expand right) ↔
      ∀ key first second, left.get? key = some first → right.get? key = some second →
        expand (first.deepMerge second) = (expand first).deepMerge (expand second) := by
  have merged : (left.deepMerge right).isNode = true := by
    rwa [Nested.isNode_deepMerge]
  have values : ∀ key, (expand (left.deepMerge right)).get? key =
      (mergeOption (left.get? key) (right.get? key)).map expand := by
    intro key
    rw [get?_expand merged, Nested.get?_deepMerge leftNode rightNode]
  have documents : ∀ key, ((expand left).deepMerge (expand right)).get? key =
      mergeOption ((left.get? key).map expand) ((right.get? key).map expand) := by
    intro key
    rw [Nested.get?_deepMerge (isNode_expand leftNode) (isNode_expand rightNode),
      get?_expand leftNode, get?_expand rightNode]
  constructor
  · intro same key first second here there
    have found := congrArg (fun value => value.get? key) same
    rw [values, documents, here, there] at found
    exact Option.some.inj found
  · intro each
    refine Nested.ext_get? (isNode_expand merged) ?_ fun key => ?_
    · rw [Nested.isNode_deepMerge]
      exact isNode_expand rightNode
    · rw [values, documents]
      cases here : left.get? key with
      | none => rfl
      | some first =>
        cases there : right.get? key with
        | none => rfl
        | some second => exact congrArg some (each key first second here there)

/-- A leaf is merged like the document it stands for just if it covers what was there. -/
theorem expand_deepMerge_leaf_iff (flat : Flat (.leaf document)) :
    expand (left.deepMerge (.leaf document)) = (expand left).deepMerge (expand (.leaf document)) ↔
      Covers (expand left) (.leaf document) := by
  have root : ∀ {path fields}, Typed (.leaf document) path fields →
      path = [] ∧ document = .obj fields := by
    intro path fields typed
    cases path with
    | nil => exact ⟨rfl, by simpa [Typed] using typed⟩
    | cons => cases typed
  rw [Nested.deepMerge_leaf, expand_leaf]
  by_cases isObject : IsObject document
  · obtain ⟨fields, rfl⟩ := isObject_iff.mp isObject
    rw [eq_deepMerge_obj_iff (flat [] fields (by simp [Typed]))]
    constructor
    · intro covered path others key typed present
      obtain ⟨rfl, same⟩ := root typed
      obtain rfl : fields = others := by simpa using same
      exact covered key (by simpa [Nested.at?_cons] using present)
    · intro covers key present
      exact covers [] fields key (by simp [Typed]) (by simpa [Nested.at?_cons] using present)
  · rw [decodeAny_of_not_isObject isObject, Nested.deepMerge_leaf]
    refine iff_of_true rfl fun path fields key typed _ => ?_
    exact absurd (isObject_iff.mpr ⟨fields, (root typed).2⟩) isObject

/-- Merging values comes to merging the documents they stand for exactly if the maps of
other types cover what they are laid over. -/
theorem expand_deepMerge_iff (flat : Flat right) (apart : Apart left right) :
    expand (left.deepMerge right) = (expand left).deepMerge (expand right) ↔
      Covers (expand left) right := by
  induction right generalizing left with
  | leaf document => exact expand_deepMerge_leaf_iff flat
  | node keys sorted value ih =>
    cases left with
    | leaf document =>
      -- a map replaces a leaf, unless that is a map of another type
      have other : ¬IsObject document := by
        intro isObject
        obtain ⟨fields, rfl⟩ := isObject_iff.mp isObject
        have not := apart [] fields (by simp [Typed]) _ (Nested.at?_nil _)
        rw [isNode_expand rfl] at not
        cases not
      rw [Nested.leaf_deepMerge, expand_leaf, decodeAny_of_not_isObject other,
        Nested.leaf_deepMerge]
      refine iff_of_true rfl fun path fields key _ present => ?_
      cases path <;> cases present
    | node keys' sorted' value' =>
      rw [expand_deepMerge_nodes rfl rfl, covers_iff_of_nodes rfl rfl]
      refine forall₃_congr fun key first second => forall₂_congr fun here there => ?_
      by_cases member : key ∈ keys
      · obtain rfl : value key member = second := by
          simpa [Nested.get?, member] using there
        exact ih key member (flat_of_get? flat there)
          (apart_of_get? apart here there)
      · simp [Nested.get?, member] at there

/-! ### Leaves -/

/-- Something holds of every leaf of a value and the path to it. -/
def Leaves (holds : List String → Json → Prop) (value : GoAny) : Prop :=
  ∀ path document, value.at? path = some (.leaf document) → holds path document

/-- Something holds of every entry of a map. -/
def Each (holds : String → GoAny → Prop) (entries : GoMap GoAny) : Prop :=
  ∀ key value, entries.get? key = some value → holds key value

section

variable {holds : String → GoAny → Prop} {entries : GoMap GoAny}

theorem each_empty : Each holds .empty := by
  intro key value found
  cases found

theorem Each.set (each : Each holds entries) (here : holds key value) :
    Each holds (entries.set key value) := by
  intro other found there
  rw [GoMap.get?_set] at there
  split at there
  next same =>
    rw [same, ← Option.some.inj there]
    exact here
  next => exact each other found there

theorem each_single (here : holds key value) : Each holds (.ofList [(key, value)]) :=
  each_empty.set here

theorem Each.setWhen (each : Each holds entries) {condition : Bool} (here : holds key value) :
    Each holds (setWhen condition key value entries) := by
  unfold Reconcile.setWhen
  split
  · exact each.set here
  · exact each

theorem Each.setGiven (each : Each holds entries) {V : Type} {given : Option V} {value : V → GoAny}
    (here : ∀ held, holds key (value held)) : Each holds (setGiven given key value entries) := by
  cases given with
  | none => exact each
  | some held => exact each.set (here held)

theorem each_rangeValues {V : Type} {order : IterOrder} {values : V → GoMap GoAny} {given : GoMap V}
    (here : ∀ name spec, holds name (.ofTable (values spec))) :
    Each holds (rangeValues order values given) := by
  unfold rangeValues
  generalize order.range given = rows
  suffices later : ∀ result : GoMap GoAny, Each holds result → Each holds
      (rows.foldl (fun result entry => result.set entry.1 (.ofTable (values entry.2))) result) from
    later .empty each_empty
  induction rows with
  | nil => exact fun _ each => each
  | cons row rest ih => exact fun result each => ih _ (each.set (here row.1 row.2))

end

theorem leaves_leaf (here : holds [] document) : Leaves holds (.leaf document) := by
  intro path other found
  cases path with
  | nil =>
    obtain rfl : document = other := by simpa using found
    exact here
  | cons => cases found

theorem leaves_ofTable {entries : GoMap GoAny}
    (each : Each (fun key => Leaves fun path => holds (key :: path)) entries) :
    Leaves holds (.ofTable entries) := by
  intro path document found
  cases path with
  | nil =>
    have same : Nested.ofTable entries = .leaf document := by simpa using found
    have isNode := congrArg Nested.isNode same
    cases isNode
  | cons key rest =>
    rw [Nested.at?_cons, get?_ofTable] at found
    obtain ⟨inner, here, there⟩ := Option.bind_eq_some_iff.mp found
    exact each key inner here rest document there

theorem Leaves.mono {weaker : List String → Json → Prop} (leaves : Leaves holds value)
    (implies : ∀ path document, holds path document → weaker path document) : Leaves weaker value :=
  fun path document found => implies path document (leaves path document found)

/-- A document that is no object, or one without objects in it. -/
def FlatDocument (document : Json) : Prop :=
  ∀ fields, document = .obj fields → ∀ entry ∈ fields, ¬IsObject entry.2

theorem flatDocument_of_not_isObject (other : ¬IsObject document) : FlatDocument document :=
  fun fields same => absurd (isObject_iff.mpr ⟨fields, same⟩) other

theorem flat_of_leaves (leaves : Leaves (fun _ => FlatDocument) value) : Flat value :=
  fun path fields typed => leaves path (.obj fields) typed fields rfl

theorem not_isObject_str (text : String) : ¬IsObject (.str text) := by
  simp [isObject_iff]

theorem not_isObject_arr (items : List Json) : ¬IsObject (.arr items) := by
  simp [isObject_iff]

theorem leaves_ofTextMap (encode : String → String) (entries : GoMap String) :
    Leaves (fun _ => FlatDocument) (ofTextMap encode entries) := by
  apply leaves_leaf
  rintro fields same entry member
  obtain rfl : _ = fields := Json.obj.inj same
  obtain ⟨given, _, rfl⟩ := List.mem_map.mp ((List.mem_insertionSort _).mp member)
  exact not_isObject_str _

/-! ### What the Workload and the claims contribute -/

theorem leaves_containerValues (container : ContainerSpec) :
    Leaves (fun _ => FlatDocument) (.ofTable (containerValues container)) := by
  have texts : ∀ items, FlatDocument (.arr items) := fun items =>
    flatDocument_of_not_isObject (not_isObject_arr items)
  apply leaves_ofTable
  refine ((((each_single ?_).setWhen ?_).setWhen ?_).setWhen ?_).setWhen ?_
  · exact leaves_leaf (flatDocument_of_not_isObject (not_isObject_str _))
  · exact leaves_leaf (texts _)
  · exact leaves_leaf (texts _)
  · exact leaves_ofTextMap id _
  · exact leaves_leaf (texts _)

theorem leaves_serviceValues (service : ServiceSpec) :
    Leaves (fun _ => FlatDocument) (.ofTable (serviceValues service)) :=
  leaves_ofTable (each_empty.setWhen
    (leaves_leaf (flatDocument_of_not_isObject (not_isObject_arr _))))

/-- A value without maps of other types, under another key than `outputs`. -/
def ResourceField (key : String) (value : GoAny) : Prop :=
  Leaves (fun _ document => ¬IsObject document) value ∧ key ≠ "outputs"

theorem each_resourceValues (codec : JsonCodec) (resource : ResourceSpec) :
    Each ResourceField (resourceValues codec resource) := by
  have text : ∀ text, Leaves (fun _ document => ¬IsObject document) (ofText text) :=
    fun text => leaves_leaf (not_isObject_str text)
  have first : Each ResourceField (setGiven resource.class_ "class" ofText
      (.ofList [("type", ofText resource.type)])) :=
    (each_single ⟨text resource.type, by decide⟩).setGiven
      fun class_ => ⟨text class_, by decide⟩
  unfold resourceValues
  split
  · exact first
  · split
    · exact first
    next document _ =>
      refine first.set ⟨?_, by decide⟩
      intro path inner found isObject
      obtain ⟨fields, rfl⟩ := isObject_iff.mp isObject
      exact not_typed_decodeAny document path fields found

/-- An entry of the normalized Workload: maps of other types are flat, and under
`resources` there are none and no outputs. -/
structure NormalizedField (key : String) (value : GoAny) : Prop where
  flat : Leaves (fun _ => FlatDocument) value
  untyped : key = "resources" → Leaves (fun _ document => ¬IsObject document) value
  isNode : key = "resources" → value.isNode = true
  resources : key = "resources" → ∀ name inner, value.get? name = some inner →
    inner.isNode = true ∧ inner.get? "outputs" = none

/-- Under another key nothing more is asked. -/
theorem NormalizedField.of_ne (other : key ≠ "resources")
    (flat : Leaves (fun _ => FlatDocument) value) : NormalizedField key value :=
  ⟨flat, fun same => absurd same other, fun same => absurd same other,
    fun same => absurd same other⟩

theorem normalizedField_resources (order : IterOrder) (codec : JsonCodec)
    (resources : GoMap ResourceSpec) :
    NormalizedField "resources"
      (.ofTable (rangeValues order (resourceValues codec) resources)) := by
  have untyped : Leaves (fun _ document => ¬IsObject document)
      (.ofTable (rangeValues order (resourceValues codec) resources)) := by
    refine leaves_ofTable (each_rangeValues fun name resource => leaves_ofTable ?_)
    exact fun key value found => (each_resourceValues codec resource key value found).1
  have without : Each (fun _ inner => inner.isNode = true ∧ inner.get? "outputs" = none)
      (rangeValues order (resourceValues codec) resources) := by
    refine each_rangeValues fun name resource => ⟨rfl, ?_⟩
    rw [get?_ofTable, Option.eq_none_iff_forall_ne_some]
    exact fun value found => (each_resourceValues codec resource _ value found).2 rfl
  refine ⟨untyped.mono fun _ _ => flatDocument_of_not_isObject, fun _ => untyped,
    fun _ => rfl, fun _ name inner found => without name inner ?_⟩
  rwa [get?_ofTable] at found

theorem each_normalizeWorkload (settings : ValueSettings) (workload : Workload) :
    Each NormalizedField (normalizeWorkload settings workload) := by
  have text : ∀ text, Leaves (fun _ => FlatDocument) (ofText text) :=
    fun text => leaves_leaf (flatDocument_of_not_isObject (not_isObject_str text))
  refine ((((((each_empty.setWhen ?_).setGiven ?_).setWhen ?_).set ?_).set ?_).setGiven
    ?_).setGiven ?_
  · refine .of_ne (by decide) (leaves_ofTable (each_rangeValues fun name container => ?_))
    exact leaves_containerValues container
  · exact fun service => .of_ne (by decide) (leaves_serviceValues service)
  · exact normalizedField_resources settings.order settings.codec workload.spec.resources
  · exact .of_ne (by decide) (text _)
  · exact .of_ne (by decide) (text _)
  · exact fun labels => .of_ne (by decide) (leaves_ofTextMap id labels)
  · exact fun annotations => .of_ne (by decide) (leaves_ofTextMap id annotations)

theorem leaves_outputValues (settings : ValueSettings) (claim : ResourceClaim)
    (outputs : ResourceClaimOutputs) :
    Leaves (fun _ => FlatDocument) (.ofTable (outputValues settings claim outputs)) := by
  have text : ∀ text, Leaves (fun _ => FlatDocument) (ofText text) :=
    fun text => leaves_leaf (flatDocument_of_not_isObject (not_isObject_str text))
  have reference : ∀ ref, Leaves (fun _ => FlatDocument) (referenceValue ref) :=
    fun ref => leaves_ofTable (each_single (text ref.name))
  apply leaves_ofTable
  refine ((((each_empty.setGiven reference).setGiven reference).setGiven text).setGiven
    text).setGiven fun cert => leaves_ofTable ?_
  exact (each_empty.setGiven text).setGiven fun data => leaves_ofTextMap settings.base64 data

/-- The leaves of the claims' outputs: flat, and below `outputs`. -/
def OutputLeaf (path : List String) (document : Json) : Prop :=
  FlatDocument document ∧ ∃ rest, path = "outputs" :: rest

theorem each_extractLoop {settings : ValueSettings} {resources extracted : GoMap GoAny}
    (each : Each (fun _ => Leaves OutputLeaf) resources)
    (done : extractLoop settings claims resources = some extracted) :
    Each (fun _ => Leaves OutputLeaf) extracted := by
  induction claims generalizing resources with
  | nil => exact Option.some.inj done ▸ each
  | cons claim rest ih =>
    unfold extractLoop at done
    split at done
    · exact ih each done
    · split at done
      · cases done
      next outputs _ =>
        refine ih (each.setWhen ?_) done
        refine leaves_ofTable (each_single ?_)
        exact (leaves_outputValues settings claim outputs).mono
          fun path document flat => ⟨flat, path, rfl⟩

/-- An entry of the outputs of all claims: it stands under `resources`, and its leaves below
the `outputs` of some claim. -/
def OutputField (key : String) (value : GoAny) : Prop :=
  key = "resources" ∧
    Leaves (fun path document => ∃ name rest, path = name :: rest ∧ OutputLeaf rest document)
      value

theorem each_extractOutputs {settings : ValueSettings} {outputs : GoMap GoAny}
    (done : extractOutputs settings claims = some outputs) : Each OutputField outputs := by
  unfold extractOutputs at done
  split at done
  · exact Option.some.inj done ▸ each_empty
  · obtain ⟨resources, loop, rfl⟩ := Option.map_eq_some_iff.mp done
    refine each_empty.setWhen ⟨rfl, leaves_ofTable fun name value found => ?_⟩
    refine (each_extractLoop each_empty loop name value found).mono ?_
    exact fun path document leaf => ⟨name, path, rfl, leaf⟩

/-- Where outputs are present if they are announced, there is no nil dereference. -/
theorem exists_extractOutputs (settings : ValueSettings)
    (present : ∀ claim ∈ claims, claim.status.outputsAvailable = true →
      claim.status.outputs.isSome = true) :
    ∃ outputs, extractOutputs settings claims = some outputs := by
  suffices loop : ∀ resources, ∃ extracted,
      extractLoop settings claims resources = some extracted by
    obtain ⟨extracted, done⟩ := loop .empty
    unfold extractOutputs
    split
    · exact ⟨_, rfl⟩
    · exact ⟨_, by rw [done]; rfl⟩
  induction claims with
  | nil => exact fun resources => ⟨resources, rfl⟩
  | cons claim rest ih =>
    intro resources
    have later := ih fun claim member => present claim (.tail _ member)
    unfold extractLoop
    split
    · exact later resources
    next available =>
      obtain ⟨outputs, given⟩ := Option.isSome_iff_exists.mp
        (present claim (.head _) (by simpa using available))
      rw [given]
      exact later _

/-! ### Layers -/

section

variable {fields : List (String × Json)} {normalized outputs : GoMap GoAny}
  (normal : Each NormalizedField normalized) (extracted : Each OutputField outputs)
include normal

/-- The defaults have no maps of other types, and the Workload has none among its
resources. -/
theorem head_of_typed {others : List (String × Json)}
    (typed : Typed ((decodeAny (.obj fields)).deepMerge (.ofTable normalized)) path others) :
    ∃ key rest, path = key :: rest ∧ key ≠ "resources" := by
  rcases Nested.at?_deepMerge_leaf.mp typed with right | ⟨_, _, left⟩
  · cases path with
    | nil =>
      have same : Nested.ofTable normalized = .leaf (.obj others) := by simpa using right
      cases congrArg Nested.isNode same
    | cons key rest =>
      refine ⟨key, rest, rfl, fun resources => ?_⟩
      rw [Nested.at?_cons, get?_ofTable] at right
      obtain ⟨value, here, there⟩ := Option.bind_eq_some_iff.mp right
      exact (normal key value here).untyped resources rest _ there
        (isObject_iff.mpr ⟨others, rfl⟩)
  · exact absurd left (not_typed_decodeAny _ path others)

/-- So the resources are kept as they are when the merge is encoded. -/
theorem expand_resources :
    (expand ((decodeAny (.obj fields)).deepMerge (.ofTable normalized))).get? "resources" =
      ((decodeAny (.obj fields)).deepMerge (.ofTable normalized)).get? "resources" := by
  rw [get?_expand (by rw [Nested.isNode_deepMerge]; rfl)]
  cases found : ((decodeAny (.obj fields)).deepMerge (.ofTable normalized)).get? "resources" with
  | none => rfl
  | some value =>
    refine congrArg some (expand_of_untyped fun path others typed => ?_)
    obtain ⟨key, rest, split, other⟩ := head_of_typed normal (typed_of_get? found typed)
    obtain ⟨rfl, _⟩ := List.cons_eq_cons.mp split
    exact other rfl

theorem expand_normalized_resources :
    (expand (.ofTable normalized)).get? "resources" = normalized.get? "resources" := by
  rw [get?_expand rfl, get?_ofTable]
  cases found : normalized.get? "resources" with
  | none => rfl
  | some value =>
    refine congrArg some (expand_of_untyped fun path others typed => ?_)
    exact (normal _ value found).untyped rfl path _ typed (isObject_iff.mpr ⟨others, rfl⟩)

/-- The Workload has nothing at the place of outputs, and nothing in their way. -/
theorem absent_outputs (name : String) (rest : List String) :
    (Nested.ofTable normalized).at? ("resources" :: name :: "outputs" :: rest) = none ∧
      ¬(Nested.ofTable normalized).Blocks ("resources" :: name :: "outputs" :: rest) := by
  rw [Nested.at?_cons, Nested.blocks_cons rfl, get?_ofTable]
  cases found : normalized.get? "resources" with
  | none => simp
  | some value =>
    have field := normal _ value found
    rw [Option.bind_some, Nested.at?_cons]
    cases there : value.get? name with
    | none => simp [Nested.blocks_cons (field.isNode rfl), there]
    | some inner =>
      obtain ⟨isNode, none⟩ := field.resources rfl name inner there
      simp [Nested.blocks_cons (field.isNode rfl), Nested.blocks_cons isNode, there,
        Nested.at?_cons, none]

include extracted

omit normal in
theorem path_of_typed_outputs {others : List (String × Json)}
    (typed : Typed (.ofTable outputs) path others) :
    ∃ name rest, path = "resources" :: name :: "outputs" :: rest := by
  cases path with
  | nil =>
    have same : Nested.ofTable outputs = .leaf (.obj others) := by simpa [Typed] using typed
    cases congrArg Nested.isNode same
  | cons key rest =>
    rw [Typed, Nested.at?_cons, get?_ofTable] at typed
    obtain ⟨value, here, there⟩ := Option.bind_eq_some_iff.mp typed
    obtain ⟨rfl, leaves⟩ := extracted key value here
    obtain ⟨name, _, rfl, _, rest, rfl⟩ := leaves _ _ there
    exact ⟨name, rest, rfl⟩

/-- What the outputs are laid over is what the defaults have there. -/
theorem covers_outputs_iff :
    Covers (expand ((decodeAny (.obj fields)).deepMerge (.ofTable normalized))) (.ofTable outputs) ↔
      Covers (decodeAny (.obj fields)) (.ofTable outputs) := by
  refine forall₃_congr fun path others key => forall_congr' fun typed => ?_
  obtain ⟨name, rest, rfl⟩ := path_of_typed_outputs extracted typed
  have here : (expand ((decodeAny (.obj fields)).deepMerge (.ofTable normalized))).at?
      ("resources" :: name :: "outputs" :: (rest ++ [key])) =
      (decodeAny (.obj fields)).at? ("resources" :: name :: "outputs" :: (rest ++ [key])) := by
    rw [Nested.at?_cons, expand_resources normal, ← Nested.at?_cons]
    obtain ⟨absent, unblocked⟩ := absent_outputs normal name (rest ++ [key])
    exact Nested.at?_deepMerge_of_absent absent unblocked
  simp only [List.cons_append, here]

omit normal in
theorem flat_outputs : Flat (.ofTable outputs) := by
  refine flat_of_leaves (leaves_ofTable fun key value found => ?_)
  exact (extracted key value found).2.mono fun _ _ ⟨_, _, _, flat, _⟩ => flat

/-- If the three layers are merged like the documents they stand for, then so are the lower
two: the outputs leave all keys but one alone, and under that one both agree in any case. -/
theorem expand_below
    (same : expand (((decodeAny (.obj fields)).deepMerge (.ofTable normalized)).deepMerge
        (.ofTable outputs)) =
      ((decodeAny (.obj fields)).deepMerge (expand (.ofTable normalized))).deepMerge
        (expand (.ofTable outputs))) :
    expand ((decodeAny (.obj fields)).deepMerge (.ofTable normalized)) =
      (decodeAny (.obj fields)).deepMerge (expand (.ofTable normalized)) := by
  have isObject : (decodeAny (.obj fields)).isNode = true := isObject_iff.mpr ⟨fields, rfl⟩
  have expanded : ∀ entries : GoMap GoAny, (expand (.ofTable entries)).isNode = true :=
    fun entries => isNode_expand rfl
  have merged : ∀ (left : GoAny) {right : GoAny}, right.isNode = true →
      (left.deepMerge right).isNode = true := by
    intro left right isNode
    rwa [Nested.isNode_deepMerge]
  refine Nested.ext_get? (isNode_expand (merged _ rfl)) (merged _ (expanded _)) fun key => ?_
  by_cases resources : key = "resources"
  · rw [resources, expand_resources normal, Nested.get?_deepMerge isObject rfl,
      Nested.get?_deepMerge isObject (expanded _), expand_normalized_resources normal,
      get?_ofTable]
  · have absent : outputs.get? key = none := by
      rw [Option.eq_none_iff_forall_ne_some]
      exact fun value found => resources (extracted key value found).1
    have unchanged : (expand (((decodeAny (.obj fields)).deepMerge
        (.ofTable normalized)).deepMerge (.ofTable outputs))).get? key =
        (expand ((decodeAny (.obj fields)).deepMerge (.ofTable normalized))).get? key := by
      rw [get?_expand (merged _ rfl), get?_expand (merged _ rfl),
        Nested.get?_deepMerge (merged _ rfl) rfl, get?_ofTable, absent, Nested.mergeOption_none]
    have nothing : (expand (.ofTable outputs)).get? key = none := by
      rw [get?_expand rfl, get?_ofTable, absent]
      rfl
    rw [← unchanged, same, Nested.get?_deepMerge (merged _ (expanded _)) (expanded _), nothing,
      Nested.mergeOption_none]

/-- The three layers are merged like the documents they stand for exactly if the maps of
other types in the Workload and in the outputs cover what the defaults have there. -/
theorem expand_layers_iff :
    expand (((decodeAny (.obj fields)).deepMerge (.ofTable normalized)).deepMerge
        (.ofTable outputs)) =
        ((decodeAny (.obj fields)).deepMerge (expand (.ofTable normalized))).deepMerge
          (expand (.ofTable outputs)) ↔
      Covers (decodeAny (.obj fields)) (.ofTable normalized) ∧
        Covers (decodeAny (.obj fields)) (.ofTable outputs) := by
  have flat : Flat (.ofTable normalized) :=
    flat_of_leaves (leaves_ofTable fun key value found => (normal key value found).flat)
  have first := expand_deepMerge_iff flat
    (fun path others typed => absurd typed (not_typed_decodeAny (.obj fields) path others))
  rw [expand_decodeAny] at first
  have apart : Apart ((decodeAny (.obj fields)).deepMerge (.ofTable normalized))
      (.ofTable outputs) := by
    intro path others typed inner found
    obtain ⟨key, rest, rfl, other⟩ := head_of_typed normal typed
    rw [Nested.at?_cons, get?_ofTable] at found
    obtain ⟨value, here, _⟩ := Option.bind_eq_some_iff.mp found
    exact absurd (extracted key value here).1 other
  have second := expand_deepMerge_iff (flat_outputs extracted) apart
  rw [covers_outputs_iff normal extracted] at second
  rw [← first, ← second]
  constructor
  · intro same
    have below := expand_below normal extracted same
    exact ⟨below, by rw [below]; exact same⟩
  · rintro ⟨below, same⟩
    rw [same, below]

end

/-! ### The composition -/

theorem exists_unmarshalDefaults {codec : JsonCodec} {defaults : RawExtension}
    (object : codec.unmarshal defaults.raw = .ok (.obj fields)) :
    ∃ defaultsMap, Nested.ofTable defaultsMap = decodeAny (.obj fields) ∧
      unmarshalDefaults codec (some defaults) = .ok defaultsMap := by
  have given : defaults.raw ≠ "" := by
    intro empty
    rw [empty] at object
    exact codec.unmarshal_empty _ object
  obtain ⟨defaultsMap, isMap⟩ := Nested.exists_table (isObject_iff.mpr ⟨fields, rfl⟩)
  refine ⟨defaultsMap, Nested.ofTable_of_table? isMap, ?_⟩
  unfold unmarshalDefaults
  simp only [given, if_false, object, isMap]

/-- The document that is composed is the deep merge of the defaults, the Workload and the
outputs exactly if every map of another type that the Workload and the outputs have, such
as variables and labels, has all the keys that the defaults have in its place. -/
theorem composeValues_deepMerge_iff (settings : ValueSettings) {defaults : RawExtension}
    (workload : Workload) {claims : List ResourceClaim} {fields : List (String × Json)}
    (object : settings.codec.unmarshal defaults.raw = .ok (.obj fields))
    (present : ∀ claim ∈ claims, claim.status.outputsAvailable = true →
      claim.status.outputs.isSome = true) :
    ∃ outputs, extractOutputs settings claims = some outputs ∧
      ((∃ merged text, settings.codec.marshal merged = .error text ∧
          composeValues settings (some defaults) workload claims =
            some (.error { text := "failed to marshal composed values: " ++ text })) ∨
        ∃ result document,
          composeValues settings (some defaults) workload claims = some (.ok result) ∧
          settings.codec.unmarshal result.raw = .ok document ∧
          (decodeAny document =
              ((decodeAny (.obj fields)).deepMerge
                (expand (.ofTable (normalizeWorkload settings workload)))).deepMerge
                (expand (.ofTable outputs)) ↔
            Covers (decodeAny (.obj fields)) (.ofTable (normalizeWorkload settings workload)) ∧
              Covers (decodeAny (.obj fields)) (.ofTable outputs))) := by
  obtain ⟨outputs, extracted⟩ := exists_extractOutputs settings present
  obtain ⟨defaultsMap, isMap, unmarshals⟩ := exists_unmarshalDefaults object
  refine ⟨outputs, extracted, ?_⟩
  -- the merge is that of the values; what is encoded is the document they stand for
  have merged : Nested.ofTable (mergeMaps settings.order
      [defaultsMap, normalizeWorkload settings workload, outputs]) =
      ((decodeAny (.obj fields)).deepMerge
        (.ofTable (normalizeWorkload settings workload))).deepMerge (.ofTable outputs) := by
    rw [ofTable_mergeMaps, ← isMap]
    simp only [mergeAll, List.foldl_cons, List.foldl_nil, deepMerge_empty]
  unfold composeValues
  rw [unmarshals]
  simp only [extracted, merged]
  split
  next text refused => exact .inl ⟨_, text, refused, rfl⟩
  next raw written =>
    refine .inr ⟨_, _, rfl, settings.codec.unmarshal_marshal written, ?_⟩
    exact expand_layers_iff (each_normalizeWorkload settings workload)
      (each_extractOutputs extracted)

/-! ### A label of the defaults -/

def labelSettings : ValueSettings where
  order := .entryOrder
  codec := .text
  base64 := id
  emptyLabels := false
  emptyAnnotations := false
  emptyData := fun _ => false

def labelDefaults : List (String × Json) := [("labels", .obj [("team", .str "core")])]

def labelDefaultsRaw : RawExtension := { raw := "\x7b\"labels\":\x7b\"team\":\"core\"\x7d\x7d" }

/-- A Workload with one label. -/
def labelWorkload (label : String) : Workload :=
  { (default : Workload) with
    metadata := { name := "web", ns := "shop", labels := .ofList [(label, "web")] } }

/-- The text at a path, if there is one. -/
def textAt (value : GoAny) (path : List String) : Option String :=
  match value.at? path with
  | some (.leaf (.str text)) => some text
  | _ => none

theorem unmarshal_labelDefaults :
    labelSettings.codec.unmarshal labelDefaultsRaw.raw = .ok (.obj labelDefaults) :=
  JsonCodec.text.unmarshal_marshal rfl

theorem covers_labelWorkload : Covers (decodeAny (.obj labelDefaults))
    (.ofTable (normalizeWorkload labelSettings (labelWorkload "team"))) := by
  have labels : Leaves (fun path document => IsObject document →
      path = ["labels"] ∧ document = .obj [("team", .str "web")])
      (.ofTable (normalizeWorkload labelSettings (labelWorkload "team"))) := by
    refine leaves_ofTable (((each_empty.set ?_).set ?_).set ?_)
    · exact leaves_leaf fun isObject => absurd isObject (not_isObject_str _)
    · exact leaves_leaf fun isObject => absurd isObject (not_isObject_str _)
    · exact leaves_leaf fun _ => ⟨rfl, rfl⟩
  intro path fields key typed present
  obtain ⟨rfl, same⟩ := labels path _ typed (isObject_iff.mpr ⟨fields, rfl⟩)
  obtain rfl := Json.obj.inj same
  have inDefaults : (decodeAny (.obj labelDefaults)).get? "labels" =
      some (decodeAny (.obj [("team", .str "core")])) := get?_decodeAny_obj labelDefaults "labels"
  rw [List.singleton_append, Nested.at?_cons, inDefaults, Option.bind_some, Nested.at?_cons]
    at present
  have listed : key ∈ [("team", Json.str "core")].map Prod.fst :=
    isSome_get?_decodeAny_obj.mp (by simpa using present)
  exact listed

/-- A Workload with a label of the same key overrides it, as a deep merge does. -/
theorem composeValues_deepMerge_same_label :
    ∃ outputs result document, extractOutputs labelSettings [] = some outputs ∧
      composeValues labelSettings (some labelDefaultsRaw) (labelWorkload "team") [] =
        some (.ok result) ∧
      labelSettings.codec.unmarshal result.raw = .ok document ∧
      decodeAny document =
        ((decodeAny (.obj labelDefaults)).deepMerge (expand (.ofTable
          (normalizeWorkload labelSettings (labelWorkload "team"))))).deepMerge
          (expand (.ofTable outputs)) := by
  obtain ⟨outputs, extracted, refused | ⟨result, document, composed, decoded, agrees⟩⟩ :=
    composeValues_deepMerge_iff labelSettings (labelWorkload "team") unmarshal_labelDefaults
      (List.forall_mem_nil _)
  · obtain ⟨_, _, _, failed⟩ := refused
    have succeeds : (composeValues labelSettings (some labelDefaultsRaw)
        (labelWorkload "team") []).any (fun result => result.toOption.isSome) = true := by
      decide +kernel
    rw [failed] at succeeds
    cases succeeds
  · refine ⟨outputs, result, document, extracted, composed, decoded, agrees.mpr ?_⟩
    refine ⟨covers_labelWorkload, fun path fields key typed => ?_⟩
    obtain ⟨name, rest, rfl⟩ := path_of_typed_outputs (each_extractOutputs extracted) typed
    obtain rfl : (.empty : GoMap GoAny) = outputs := Option.some.inj extracted
    cases typed

/-- A Workload with a label of another key drops the label of the defaults, which a deep
merge keeps. -/
theorem composeValues_drops_default_label :
    ∃ outputs result document,
      labelSettings.codec.unmarshal labelDefaultsRaw.raw = .ok (.obj labelDefaults) ∧
      extractOutputs labelSettings [] = some outputs ∧
      composeValues labelSettings (some labelDefaultsRaw) (labelWorkload "app") [] =
        some (.ok result) ∧
      labelSettings.codec.unmarshal result.raw = .ok document ∧
      textAt (decodeAny document) ["labels", "team"] = none ∧
      textAt (((decodeAny (.obj labelDefaults)).deepMerge (expand (.ofTable
          (normalizeWorkload labelSettings (labelWorkload "app"))))).deepMerge
          (expand (.ofTable outputs))) ["labels", "team"] = some "core" := by
  refine ⟨.empty, { raw := "\x7b\"labels\":\x7b\"app\":\"web\"\x7d,\"name\":\"web\"," ++
      "\"namespace\":\"shop\"\x7d" },
    .obj [("labels", .obj [("app", .str "web")]), ("name", .str "web"),
      ("namespace", .str "shop")], unmarshal_labelDefaults, rfl, ?_, ?_, ?_, ?_⟩
  · decide +kernel
  · exact JsonCodec.text.unmarshal_marshal rfl
  · decide +kernel
  · decide +kernel

end ScoreOrchestrator.Reconcile
