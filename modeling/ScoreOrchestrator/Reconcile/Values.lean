/-
Module: Reconcile.Values
Purpose: Composition of template values from defaults, the Workload and the outputs of its
  claims (internal/reconcile/values.go).
Trusted boundary: human-reviewed spec
Main exports: GoAny, mergeMaps, normalizeWorkload, extractOutputs, composeValues
-/
import ScoreOrchestrator.Foundation.Nested
import ScoreOrchestrator.Reconcile.Resolver

namespace ScoreOrchestrator.Reconcile

open Foundation

/-! ### Values of any type

An `interface{}` is a `map[string]interface{}` or a value of another type.  Nothing looks
into the latter before it is encoded, so it is kept as the JSON it is encoded to: a
`map[string]string` is a leaf, although it is encoded to an object. -/

abbrev GoAny := Nested Json

mutual

/-- `json.Unmarshal` into an `interface{}`: every object becomes a
`map[string]interface{}`, in which the last of repeated keys counts. -/
def decodeAny : Json → GoAny
  | .obj fields => .ofTable (.ofRows (decodeFields fields))
  | value => .leaf value

def decodeFields : List (String × Json) → List (String × GoAny)
  | [] => []
  | (name, value) :: rest => (name, decodeAny value) :: decodeFields rest

end

/-- The document that `json.Marshal` writes, with sorted keys. -/
def encodeAny : GoAny → Json := Nested.fold id .obj

/-- A string. -/
def ofText (text : String) : GoAny := .leaf (.str text)

/-- An `int32`. -/
def ofNumber (number : Nat) : GoAny := .leaf (.num (toString number))

/-- A `[]string`. -/
def ofTexts (texts : List String) : GoAny := .leaf (.arr (texts.map .str))

/-- A map of strings, each of which is encoded to a string. -/
def ofTextMap (encode : String → String) (entries : GoMap String) : GoAny :=
  .leaf (objectOf (entries.rows.map fun entry => (entry.1, .str (encode entry.2))))

/-! ### Merging -/

section

variable {Leaf : Type}

/-- The body of the two loops of `mergeMaps`; `merge` is the function itself, called for
maps that are nested in its arguments. -/
def mergeEntry (merge : List (GoMap (Nested Leaf)) → GoMap (Nested Leaf))
    (result : GoMap (Nested Leaf)) (entry : String × Nested Leaf) : GoMap (Nested Leaf) :=
  match result.get? entry.1 with
  | none => result.set entry.1 entry.2
  | some existing =>
    match existing.table?, entry.2.table? with
    | some existingMap, some valueMap =>
      result.set entry.1 (.ofTable (merge [existingMap, valueMap]))
    | _, _ => result.set entry.1 entry.2

/-- `mergeMaps`, for maps that are nested at most so deep. -/
def mergeMapsWithin (order : IterOrder) :
    Nat → List (GoMap (Nested Leaf)) → GoMap (Nested Leaf)
  | 0, _ => .empty
  | fuel + 1, maps =>
    maps.foldl
      (fun result m => (order.range m).foldl (mergeEntry (mergeMapsWithin order fuel)) result)
      .empty

/-- How deep maps are nested in the arguments. -/
def depthOf (maps : List (GoMap (Nested Leaf))) : Nat :=
  (maps.map fun m => (Nested.ofTable m).depth).foldr max 0

/-- `mergeMaps`. -/
def mergeMaps (order : IterOrder) (maps : List (GoMap (Nested Leaf))) : GoMap (Nested Leaf) :=
  mergeMapsWithin order (depthOf maps) maps

end

/-! ### The parts -/

/-- What a composition finds besides its arguments: the iteration order of maps, the JSON
codec and the encoding of bytes, and which maps are empty without being nil, since the
object model has no nil maps. -/
structure ValueSettings where
  order : IterOrder
  codec : JsonCodec
  base64 : String → String
  emptyLabels : Bool
  emptyAnnotations : Bool
  emptyData : ResourceClaim → Bool

/-- A map that may be nil. -/
def givenMap (isEmpty : Bool) (entries : GoMap String) : Option (GoMap String) :=
  if entries.rows.length = 0 && !isEmpty then none else some entries

/-- `m[key] = value`, under a condition. -/
def setWhen (holds : Bool) (key : String) (value : GoAny) (entries : GoMap GoAny) : GoMap GoAny :=
  if holds then entries.set key value else entries

/-- `m[key] = value`, for a value that may be missing. -/
def setGiven {V : Type} (given : Option V) (key : String) (value : V → GoAny)
    (entries : GoMap GoAny) : GoMap GoAny :=
  match given with
  | none => entries
  | some held => entries.set key (value held)

/-- A field of a struct with `omitempty`. -/
def fieldOf (name : String) (text : Option String) : List (String × Json) :=
  match text with
  | none => []
  | some text => [(name, .str text)]

/-- A `FileSpec` as it is encoded. -/
def encodeFile (file : FileSpec) : Json :=
  .obj ([("target", .str file.target)] ++ fieldOf "mode" file.mode ++
    (match file.source with
      | none => []
      | some source => [("source", .obj [("uri", .str source.uri)])]) ++
    fieldOf "content" file.content ++ fieldOf "binaryContent" file.binaryContent)

/-- The values of one container. -/
def containerValues (container : ContainerSpec) : GoMap GoAny :=
  let containerMap : GoMap GoAny := .ofList [("image", ofText container.image)]
  let containerMap := setWhen (container.command.length > 0) "command"
    (ofTexts container.command) containerMap
  let containerMap := setWhen (container.args.length > 0) "args"
    (ofTexts container.args) containerMap
  let variables_ := container.variables_.getD .empty
  let containerMap := setWhen (variables_.rows.length > 0) "env"
    (ofTextMap id variables_) containerMap
  setWhen (container.files.length > 0) "files"
    (.leaf (.arr (container.files.map encodeFile))) containerMap

/-- The values of one port. -/
def portValues (port : ServicePort) : GoMap GoAny :=
  let portMap : GoMap GoAny := .ofList [("port", ofNumber port.port)]
  let portMap := setWhen (port.protocol ≠ "") "protocol" (ofText port.protocol) portMap
  setGiven port.targetPort "targetPort" ofNumber portMap

/-- The values of the service. -/
def serviceValues (service : ServiceSpec) : GoMap GoAny :=
  setWhen (service.ports.length > 0) "ports"
    (.leaf (.arr (service.ports.map fun port => encodeAny (.ofTable (portValues port))))) .empty

/-- The values of one resource.  Parameters that cannot be decoded are left out. -/
def resourceValues (codec : JsonCodec) (resource : ResourceSpec) : GoMap GoAny :=
  let resourceMap : GoMap GoAny := .ofList [("type", ofText resource.type)]
  let resourceMap := setGiven resource.class_ "class" ofText resourceMap
  match resource.params with
  | none => resourceMap
  | some params =>
    match codec.unmarshal params.raw with
    | .error _ => resourceMap
    | .ok document => resourceMap.set "params" (decodeAny document)

/-- A loop that makes one value of each entry of a map. -/
def rangeValues {V : Type} (order : IterOrder) (values : V → GoMap GoAny) (entries : GoMap V) :
    GoMap GoAny :=
  (order.range entries).foldl
    (fun result entry => result.set entry.1 (.ofTable (values entry.2))) .empty

/-- `normalizeWorkload`. -/
def normalizeWorkload (settings : ValueSettings) (workload : Workload) : GoMap GoAny :=
  let result : GoMap GoAny := .empty
  let result := setWhen (workload.spec.containers.rows.length > 0) "containers"
    (.ofTable (rangeValues settings.order containerValues workload.spec.containers)) result
  let result := setGiven workload.spec.service "service"
    (fun service => .ofTable (serviceValues service)) result
  let result := setWhen (workload.spec.resources.rows.length > 0) "resources"
    (.ofTable (rangeValues settings.order (resourceValues settings.codec)
      workload.spec.resources)) result
  let result := result.set "name" (ofText workload.metadata.name)
  let result := result.set "namespace" (ofText workload.metadata.ns)
  let result := setGiven (givenMap settings.emptyLabels workload.metadata.labels) "labels"
    (ofTextMap id) result
  setGiven (givenMap settings.emptyAnnotations workload.metadata.annotations) "annotations"
    (ofTextMap id) result

/-- `map[string]interface{}{"name": ref.Name}`. -/
def referenceValue (ref : LocalObjectReference) : GoAny :=
  .ofTable (GoMap.ofList [("name", ofText ref.name)])

/-- The values of a certificate.  Its data are bytes, which are encoded in base64. -/
def certValues (settings : ValueSettings) (claim : ResourceClaim) (cert : CertificateOutput) :
    GoMap GoAny :=
  let certMap := setGiven cert.secretName "secretName" ofText .empty
  setGiven (givenMap (settings.emptyData claim) cert.data) "data" (ofTextMap settings.base64)
    certMap

/-- The outputs of one claim. -/
def outputValues (settings : ValueSettings) (claim : ResourceClaim)
    (outputs : ResourceClaimOutputs) : GoMap GoAny :=
  let resourceOutputs : GoMap GoAny := .empty
  let resourceOutputs := setGiven outputs.secretRef "secretRef" referenceValue resourceOutputs
  let resourceOutputs := setGiven outputs.configMapRef "configMapRef" referenceValue resourceOutputs
  let resourceOutputs := setGiven outputs.uri "uri" ofText resourceOutputs
  let resourceOutputs := setGiven outputs.image "image" ofText resourceOutputs
  setGiven outputs.cert "cert" (fun cert => .ofTable (certValues settings claim cert))
    resourceOutputs

/-- The loop of `extractOutputs`.  Outputs announced as available but absent are a nil
dereference, for which there is no result. -/
def extractLoop (settings : ValueSettings) :
    List ResourceClaim → GoMap GoAny → Option (GoMap GoAny)
  | [], resources => some resources
  | claim :: rest, resources =>
    if !claim.status.outputsAvailable then extractLoop settings rest resources
    else
      match claim.status.outputs with
      | none => none
      | some outputs =>
        let resourceOutputs := outputValues settings claim outputs
        extractLoop settings rest
          (setWhen (resourceOutputs.rows.length > 0) claim.spec.key
            (.ofTable (GoMap.ofList [("outputs", .ofTable resourceOutputs)])) resources)

/-- `extractOutputs`. -/
def extractOutputs (settings : ValueSettings) (claims : List ResourceClaim) :
    Option (GoMap GoAny) :=
  if claims.length = 0 then some .empty
  else
    (extractLoop settings claims .empty).map fun resources =>
      setWhen (resources.rows.length > 0) "resources" (.ofTable resources) .empty

/-! ### Composition -/

/-- The defaults as a map.  Empty bytes stand for `Raw` being nil, and null leaves the
map empty. -/
def unmarshalDefaults (codec : JsonCodec) :
    Option RawExtension → Except GoError (GoMap GoAny)
  | none => .ok .empty
  | some defaults =>
    if defaults.raw = "" then .ok .empty
    else
      match codec.unmarshal defaults.raw with
      | .error text => .error { text }
      | .ok .null => .ok .empty
      | .ok document =>
        match (decodeAny document).table? with
        | some defaultsMap => .ok defaultsMap
        | none =>
          .error { text := "json: cannot unmarshal value into Go value of type " ++
            "map[string]interface \x7b\x7d" }

/-- `composeValues`. -/
def composeValues (settings : ValueSettings) (defaults : Option RawExtension) (workload : Workload)
    (claims : List ResourceClaim) : Option (Except GoError RawExtension) :=
  match unmarshalDefaults settings.codec defaults with
  | .error fault => some (.error (fault.wrap "failed to unmarshal defaults: "))
  | .ok defaultsMap =>
    let normalizedMap := normalizeWorkload settings workload
    match extractOutputs settings claims with
    | none => none
    | some outputsMap =>
      let result := mergeMaps settings.order [defaultsMap, normalizedMap, outputsMap]
      match settings.codec.marshal (encodeAny (.ofTable result)) with
      | .error text => some (.error { text := "failed to marshal composed values: " ++ text })
      | .ok raw => some (.ok { raw })

end ScoreOrchestrator.Reconcile
