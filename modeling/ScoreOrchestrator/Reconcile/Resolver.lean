/-
Module: Reconcile.Resolver
Purpose: Substitution of resource outputs into container variables
  (internal/reconcile/resolver.go).
Trusted boundary: human-reviewed spec
Main exports: resolveValue, buildResolvedOutputsMap, resolvedDocument,
  resolveAllPlaceholders
-/
import Mathlib.Data.List.Sort
import ScoreOrchestrator.Api.Server
import ScoreOrchestrator.Foundation.Json
import ScoreOrchestrator.Foundation.Text

namespace ScoreOrchestrator.Reconcile

open Foundation

/-! ### Values -/

/-- The outputs of each resource key. -/
abbrev AvailableOutputs := GoMap (GoMap String)

/-- `resources.<key>.<name>` in a placeholder. -/
def resourceRefPattern : Regex :=
  .literal "$\x7bresources."
    (.seq (.group (.manyExcept '.'))
      (.literal "." (.seq (.group (.manyExcept '\x7d')) (.single '\x7d'))))

/-- `resources.<key>.outputs.<name>` in a placeholder. -/
def resourceRefWithOutputsPattern : Regex :=
  .literal "$\x7bresources."
    (.seq (.group (.manyExcept '.'))
      (.literal ".outputs."
        (.seq (.group (.manyExcept '\x7d')) (.single '\x7d'))))

/-- The value a reference stands for. -/
def lookupOutput (availableOutputs : AvailableOutputs) (resourceKey outputKey : String) :
    Except GoError String :=
  match availableOutputs.get? resourceKey with
  | none => .error { text := "resource '" ++ resourceKey ++ "' has no outputs available" }
  | some outputs =>
    match outputs.get? outputKey with
    | none =>
      .error { text := "resource '" ++ resourceKey ++ "' missing output '" ++
        outputKey ++ "'" }
    | some resolvedValue => .ok resolvedValue

/-- The loop over the matches of one of the two patterns.  `templateVar` spells
the reference as that pattern has it. -/
def substitute (availableOutputs : AvailableOutputs) (templateVar : String → String → String) :
    List Match → String → Except GoError String
  | [], result => .ok result
  | found :: rest, result =>
    match found.groups with
    | resourceKey :: outputKey :: _ =>
      match lookupOutput availableOutputs (.ofList resourceKey) (.ofList outputKey) with
      | .error fault => .error fault
      | .ok resolvedValue =>
        substitute availableOutputs templateVar rest
          (replaceAll result
            (templateVar (.ofList resourceKey) (.ofList outputKey))
            resolvedValue)
    | _ => substitute availableOutputs templateVar rest result

/-- `resolveValue`.  The short spelling is tried only when the value has no
reference in the long one; matches are always those of the original value. -/
def resolveValue (value : String) (availableOutputs : AvailableOutputs) :
    Except GoError String := do
  let outputsMatches := resourceRefWithOutputsPattern.findAll value.toList
  let result ← substitute availableOutputs
    (fun resourceKey outputKey =>
      "$\x7bresources." ++ resourceKey ++ ".outputs." ++ outputKey ++ "\x7d")
    outputsMatches value
  if outputsMatches.length = 0 then
    substitute availableOutputs
      (fun resourceKey outputKey =>
        "$\x7bresources." ++ resourceKey ++ "." ++ outputKey ++ "\x7d")
      (resourceRefPattern.findAll value.toList) result
  else .ok result

/-! ### Outputs -/

/-- The made-up outputs of a claim whose Secret could not be read. -/
def fallbackOutputs (claim : ResourceClaim) (outputs : GoMap String) : GoMap String :=
  if claim.spec.type = "postgres" then
    let name := claim.metadata.name
    let username := "postgres-" ++ name
    let password := "password-" ++ name
    let host := name ++ "-postgres"
    let database := "db_" ++ name
    (((((outputs.set "username" username).set "password" password).set
      "host" host).set "port" "5432").set "database" database).set "uri"
        ("postgresql://" ++ username ++ ":" ++ password ++ "@" ++ host ++
          ":5432/" ++ database)
  else outputs

/-- Add an optional output. -/
def setSome (outputs : GoMap String) (key : String) (value : Option String) : GoMap String :=
  match value with
  | some text => outputs.set key text
  | none => outputs

/-- Add the data of the referenced Secret, or the fallback if it cannot be
read. -/
def addSecretOutputs (claim : ResourceClaim) (outputs : GoMap String) :
    Option LocalObjectReference → Client (GoMap String)
  | none => pure outputs
  | some secretRef => do
      let read ← Program.request
        (.get .secret { ns := claim.metadata.ns, name := secretRef.name })
      match read with
      | .ok secret =>
        pure (secret.spec.data.rows.foldl
          (fun entries entry => entries.set entry.1 entry.2) outputs)
      | .error _ => pure (fallbackOutputs claim outputs)

/-- The body of the loop for one claim with available outputs. -/
def claimOutputs (claim : ResourceClaim) (published : ResourceClaimOutputs) :
    Client (GoMap String) := do
  let outputs ← addSecretOutputs claim
    (setSome .empty "uri" published.uri) published.secretRef
  let outputs := setSome outputs "image" published.image
  pure (setSome outputs "cert" (published.cert.bind CertificateOutput.secretName))

/-- `buildResolvedOutputsMap`.  Outputs announced as available but absent are a
nil dereference. -/
def buildResolvedOutputsMap :
    List ResourceClaim → AvailableOutputs → Client AvailableOutputs
  | [], availableOutputs => pure availableOutputs
  | claim :: rest, availableOutputs =>
    if claim.status.outputsAvailable then
      match claim.status.outputs with
      | none => .crash "nil pointer dereference: claim.Status.Outputs"
      | some published => do
          let outputs ← claimOutputs claim published
          buildResolvedOutputsMap rest
            (availableOutputs.set claim.spec.key outputs)
    else buildResolvedOutputsMap rest availableOutputs

/-! ### The resolved document -/

/-- A Go map as the encoder sees it: with sorted keys. -/
def objectOf (fields : List (String × Json)) : Json :=
  .obj (fields.insertionSort fun first second => first.1 ≤ second.1)

/-- The resolved variables of one container. -/
def resolveEnv (order : IterOrder) (availableOutputs : AvailableOutputs) (containerName : String)
    (variables_ : GoMap String) : Except GoError (List (String × Json)) :=
  (order.range variables_).mapM fun entry =>
    match resolveValue entry.2 availableOutputs with
    | .ok resolvedValue => .ok (entry.1, .str resolvedValue)
    | .error fault =>
      .error (fault.wrap ("failed to resolve env var " ++ entry.1 ++
        " in container " ++ containerName ++ ": "))

/-- One entry of the `containers` object. -/
def resolveContainer (order : IterOrder) (availableOutputs : AvailableOutputs)
    (entry : String × ContainerSpec) : Except GoError (String × Json) :=
  match entry.2.variables_ with
  | none => .ok (entry.1, .obj [])
  | some variables_ => do
      let env ← resolveEnv order availableOutputs entry.1 variables_
      .ok (entry.1, .obj [("env", objectOf env)])

/-- The document that is marshalled into the plan. -/
def resolvedDocument (order : IterOrder) (workload : Workload)
    (availableOutputs : AvailableOutputs) : Except GoError Json := do
  let containers ← (order.range workload.spec.containers).mapM
    (resolveContainer order availableOutputs)
  .ok (.obj [("containers", objectOf containers)])

/-- `resolveAllPlaceholders`. -/
def resolveAllPlaceholders (order : IterOrder) (codec : JsonCodec) (workload : Workload)
    (claims : List ResourceClaim) : Client (Except GoError RawExtension) := do
  let availableOutputs ← buildResolvedOutputsMap claims .empty
  match resolvedDocument order workload availableOutputs with
  | .error fault => pure (.error fault)
  | .ok document =>
    match codec.marshal document with
    | .error text => pure (.error { text := "failed to marshal resolved values: " ++ text })
    | .ok raw => pure (.ok { raw })

end ScoreOrchestrator.Reconcile
