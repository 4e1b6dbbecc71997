/-
Module: Config.Validation
Purpose: The validator of orchestrator configurations
  (internal/config/validation.go), and what a configuration that it accepts is
  like.
Trusted boundary: human-reviewed spec
Main exports: FieldError, Validator, validate, Coherent, coherent_of_validate
-/
import ScoreOrchestrator.Config.Types
import ScoreOrchestrator.Foundation.Text

namespace ScoreOrchestrator.Config

open Foundation

variable {path : String} {seen : List String}

/-! ### Field errors -/

/-- `field.ErrorType`. -/
inductive FieldErrorType where
  | invalid
  | required
  | duplicate
  | notSupported
  | notFound
deriving DecidableEq, Repr

/-- The value that `field.Error` reports. -/
inductive BadValue where
  | text (value : String)
  | number (value : Int)
deriving DecidableEq, Repr

/-- `field.Error`. -/
structure FieldError where
  type : FieldErrorType
  field : String
  badValue : BadValue
  detail : String
deriving DecidableEq, Repr

/-- `field.Invalid`. -/
def invalid (path : String) (badValue : BadValue) (detail : String) : FieldError :=
  { type := .invalid, field := path, badValue, detail }

/-- `field.Required`. -/
def required (path detail : String) : FieldError :=
  { type := .required, field := path, badValue := .text "", detail }

/-- `field.Duplicate`. -/
def duplicate (path value : String) : FieldError :=
  { type := .duplicate, field := path, badValue := .text value, detail := "" }

/-- `field.NotFound`. -/
def notFound (path value : String) : FieldError :=
  { type := .notFound, field := path, badValue := .text value, detail := "" }

/-- `field.NotSupported`. -/
def notSupported (path value : String) (validValues : List String) : FieldError :=
  { type := .notSupported
    field := path
    badValue := .text value
    detail := "supported values: " ++
      ", ".intercalate (validValues.map fun valid => "\"" ++ valid ++ "\"") }

/-- `path.Child(name)`. -/
def child (path name : String) : String := path ++ "." ++ name

/-- `path.Index(i)`. -/
def index (path : String) (i : Nat) : String := path ++ "[" ++ toString i ++ "]"

/-! ### Single fields -/

/-- `Validator`, with the iteration order of its maps and the label check of
k8s.io/apimachinery, which answers with the texts of its complaints. -/
structure Validator where
  order : IterOrder
  isDNS1123Label : String → List String

def validTemplateKinds : GoMap Bool :=
  .ofList [("manifests", true), ("helm", true), ("kustomize", true)]

def validRuntimeClasses : GoMap Bool :=
  .ofList [("kubernetes", true), ("ecs", true), ("nomad", true)]

/-- A field that has to be one of the names of a map. -/
def validateMember (v : Validator) (valid : GoMap Bool) (path value missing : String) :
    List FieldError :=
  if value = "" then [required path missing]
  else if (valid.get? value).getD false then []
  else [notSupported path value ((v.order.range valid).map Prod.fst)]

/-- A name that has to be given, and given once; the names so far are in a map. -/
def validateName (path name missing : String) (seen : List String) :
    List FieldError × List String :=
  if name = "" then ([required path missing], seen)
  else (if name ∈ seen then [duplicate path name] else [], name :: seen)

/-- `[0-9]+[a-zA-Z]*`. -/
def isQuantity (text : List Char) : Bool :=
  let unit := text.dropWhile fun letter => letter.isDigit
  unit.length < text.length && unit.all fun letter => letter.isAlpha

/-- `constraintPattern`: a quantity, or a range with at least one bound. -/
def constraintPattern (text : String) : Bool :=
  match text.toList.splitOn '-' with
  | [quantity] => isQuantity quantity
  | [low, high] =>
    (isQuantity low && isQuantity high) || (low.isEmpty && isQuantity high) ||
      (isQuantity low && high.isEmpty)
  | _ => false

/-- A resource constraint that is given must have the format of one. -/
def validateRange (path value detail : String) : List FieldError :=
  if value ≠ "" && !constraintPattern value then [invalid path (.text value) detail]
  else []

/-! ### Sections -/

/-- `validateTemplate`. -/
def validateTemplate (v : Validator) (template : TemplateSpec) (path : String) : List FieldError :=
  validateMember v validTemplateKinds (child path "kind") template.kind "kind is required" ++
    if template.ref = "" then [required (child path "ref") "ref is required"] else []

/-- `validateResourceConstraints`. -/
def validateResourceConstraints (resources : ResourceConstraints) (path : String) :
    List FieldError :=
  validateRange (child path "cpu") resources.cpu "invalid CPU constraint format" ++
    validateRange (child path "memory") resources.memory
      "invalid memory constraint format" ++
    validateRange (child path "storage") resources.storage
      "invalid storage constraint format"

/-- `validateConstraints`, for constraints that may be missing. -/
def validateConstraints (constraints : Option ConstraintsSpec) (path : String) : List FieldError :=
  match constraints.bind (·.resources) with
  | none => []
  | some resources => validateResourceConstraints resources (child path "resources")

/-- `validateBackend`, with the backend IDs so far. -/
def validateBackend (v : Validator) (backend : BackendSpec) (path : String)
    (backendIds : List String) : List FieldError × List String :=
  let (idErrs, backendIds) := validateName (child path "backendId") backend.backendId
    "backendId is required" backendIds
  (idErrs ++ validateMember v validRuntimeClasses (child path "runtimeClass")
        backend.runtimeClass "runtimeClass is required" ++
      validateTemplate v backend.template (child path "template") ++
      (if backend.version = "" then
        [required (child path "version") "version is required"] else []) ++
      (if backend.priority < 0 then
        [invalid (child path "priority") (.number backend.priority)
          "priority must be non-negative"] else []) ++
      validateConstraints backend.constraints (child path "constraints"),
    backendIds)

/-- The loop over the backends of a profile. -/
def validateBackends (v : Validator) (path : String) :
    Nat → List BackendSpec → List String → List FieldError × List String
  | _, [], backendIds => ([], backendIds)
  | j, backend :: rest, backendIds =>
    let (errs, backendIds) := validateBackend v backend (index path j) backendIds
    let (more, backendIds) := validateBackends v path (j + 1) rest backendIds
    (errs ++ more, backendIds)

/-- The name of a profile, with the profile names so far. -/
def validateProfileName (v : Validator) (path name : String) (profileNames : List String) :
    List FieldError × List String :=
  if name = "" then ([required path "name is required"], profileNames)
  else
    let complaints := v.isDNS1123Label name
    ((if complaints ≠ [] then
        [invalid path (.text name) ("; ".intercalate complaints)] else []) ++
      (if name ∈ profileNames then [duplicate path name] else []),
      name :: profileNames)

/-- The loop of `validateProfiles`. -/
def validateProfileLoop (v : Validator) (path : String) :
    Nat → List ProfileSpec → List String → List String → List FieldError
  | _, [], _, _ => []
  | i, profile :: rest, profileNames, backendIds =>
    let profilePath := index path i
    let (nameErrs, profileNames) := validateProfileName v (child profilePath "name")
      profile.name profileNames
    let noBackends :=
      if profile.backends.isEmpty then
        [required (child profilePath "backends")
          "at least one backend must be defined"]
      else []
    let (backendErrs, backendIds) := validateBackends v (child profilePath "backends") 0
      profile.backends backendIds
    nameErrs ++ noBackends ++ backendErrs ++
      validateProfileLoop v path (i + 1) rest profileNames backendIds

/-- `validateProfiles`. -/
def validateProfiles (v : Validator) (profiles : List ProfileSpec) (path : String) :
    List FieldError :=
  if profiles.isEmpty then [required path "at least one profile must be defined"]
  else validateProfileLoop v path 0 profiles [] []

/-- `validateClasses`. -/
def validateClasses (path : String) : Nat → List ClassSpec → List String → List FieldError
  | _, [], _ => []
  | i, class_ :: rest, classNames =>
    let classPath := index path i
    let (nameErrs, classNames) := validateName (child classPath "name") class_.name
      "name is required" classNames
    nameErrs ++ validateConstraints class_.constraints (child classPath "constraints") ++
      validateClasses path (i + 1) rest classNames

/-- `validateProvisioners`. -/
def validateProvisioners (path : String) :
    Nat → List ProvisionerSpec → List String → List FieldError
  | _, [], _ => []
  | i, provisioner :: rest, provisionerTypes =>
    let provisionerPath := index path i
    let (typeErrs, provisionerTypes) := validateName (child provisionerPath "type")
      provisioner.type "type is required" provisionerTypes
    typeErrs ++
      (if provisioner.provisioner = "" then
        [required (child provisionerPath "provisioner") "provisioner is required"]
        else []) ++
      validateClasses (child provisionerPath "classes") 0 provisioner.classes [] ++
      validateProvisioners path (i + 1) rest provisionerTypes

/-- `validateDefaults`. -/
def validateDefaults (defaults : DefaultsSpec) (path : String) : List FieldError :=
  (if defaults.profile = "" then
      [required (child path "profile") "default profile is required"] else []) ++
    defaults.selectors.zipIdx.flatMap fun (selector, i) =>
      let selectorPath := index (child path "selectors") i
      (if selector.matchLabels.rows.isEmpty && selector.matchExpressions.isEmpty then
          [required selectorPath
            "selector must specify either matchLabels or matchExpressions"] else []) ++
        validateConstraints selector.constraints (child selectorPath "constraints")

/-- `validateCrossReferences`. -/
def validateCrossReferences (config : OrchestratorConfig) : List FieldError :=
  let profileNames := config.spec.profiles.map fun profile => profile.name
  (if config.spec.defaults.profile ≠ "" ∧ config.spec.defaults.profile ∉ profileNames then
      [notFound "spec.defaults.profile" config.spec.defaults.profile] else []) ++
    (config.spec.defaults.selectors.zipIdx.flatMap fun (selector, i) =>
      if selector.profile ≠ "" ∧ selector.profile ∉ profileNames then
        [notFound (child (index "spec.defaults.selectors" i) "profile") selector.profile]
      else []) ++
    config.spec.provisioners.zipIdx.flatMap fun (provisioner, i) =>
      match provisioner.defaults with
      | none => []
      | some defaults =>
        if defaults.class_ ≠ "" ∧
            (provisioner.classes.all fun class_ => class_.name ≠ defaults.class_) then
          [notFound (child (child (index "spec.provisioners" i) "defaults") "class")
            defaults.class_]
        else []

/-- The errors that `Validate` collects. -/
def validationErrors (v : Validator) (config : OrchestratorConfig) : List FieldError :=
  (if config.apiVersion ≠ "score.dev/v1b1" then
      [invalid "apiVersion" (.text config.apiVersion) "must be 'score.dev/v1b1'"]
    else []) ++
    (if config.kind ≠ "OrchestratorConfig" then
      [invalid "kind" (.text config.kind) "must be 'OrchestratorConfig'"] else []) ++
    (if config.metadata.name = "" then
      [required "metadata.name" "name is required"] else []) ++
    validateProfiles v config.spec.profiles "spec.profiles" ++
    validateProvisioners "spec.provisioners" 0 config.spec.provisioners [] ++
    validateDefaults config.spec.defaults "spec.defaults" ++
    validateCrossReferences config

/-- `Validate`; the error aggregates the errors of the fields. -/
def validate (v : Validator) (config : OrchestratorConfig) : Except (List FieldError) Unit :=
  match validationErrors v config with
  | [] => .ok ()
  | errs => .error errs

/-! ### Accepted configurations -/

/-- The IDs of some backends, in document order. -/
def backendIdsOf (backends : List BackendSpec) : List String :=
  backends.map fun backend => backend.backendId

/-- The names of some profiles, in document order. -/
def profileNamesOf (profiles : List ProfileSpec) : List String :=
  profiles.map fun profile => profile.name

/-- What holds of a configuration across its sections: names and IDs are given and
given once, and references lead somewhere. -/
structure Coherent (config : OrchestratorConfig) : Prop where
  named : "" ∉ profileNamesOf config.spec.profiles
  names : (profileNamesOf config.spec.profiles).Nodup
  ids : (config.spec.profiles.flatMap fun profile =>
    backendIdsOf profile.backends).Nodup
  default_ : config.spec.defaults.profile ∈ profileNamesOf config.spec.profiles
  selectors : ∀ selector ∈ config.spec.defaults.selectors, selector.profile ≠ "" →
    selector.profile ∈ profileNamesOf config.spec.profiles

theorem validateName_ok {name missing : String}
    (ok : (validateName path name missing seen).1 = []) :
    name ∉ seen ∧ (validateName path name missing seen).2 = name :: seen := by
  unfold validateName at ok ⊢
  split at ok
  · cases ok
  next given =>
    rw [if_neg given]
    refine ⟨fun twice => ?_, rfl⟩
    rw [if_pos twice] at ok
    cases ok

variable {v : Validator}

theorem validateProfileName_ok {name : String}
    (ok : (validateProfileName v path name seen).1 = []) :
    name ≠ "" ∧ name ∉ seen ∧ (validateProfileName v path name seen).2 = name :: seen := by
  unfold validateProfileName at ok ⊢
  split at ok
  · cases ok
  next given =>
    rw [if_neg given]
    refine ⟨given, fun twice => ?_, rfl⟩
    have second := (List.append_eq_nil_iff.mp ok).2
    rw [if_pos twice] at second
    cases second

theorem validateBackend_ok {backend : BackendSpec}
    (ok : (validateBackend v backend path seen).1 = []) :
    backend.backendId ∉ seen ∧
      (validateBackend v backend path seen).2 = backend.backendId :: seen := by
  simp only [validateBackend, List.append_eq_nil_iff] at ok
  exact validateName_ok ok.1.1.1.1.1

/-- One step of the loop adds one ID that was not there. -/
theorem validateBackends_ok {backends : List BackendSpec} {j : Nat} (distinct : seen.Nodup)
    (ok : (validateBackends v path j backends seen).1 = []) :
    (validateBackends v path j backends seen).2 = (backendIdsOf backends).reverse ++ seen ∧
      ((backendIdsOf backends).reverse ++ seen).Nodup := by
  induction backends generalizing j seen with
  | nil => exact ⟨rfl, distinct⟩
  | cons backend rest ih =>
    simp only [validateBackends, List.append_eq_nil_iff] at ok ⊢
    obtain ⟨fresh, grown⟩ := validateBackend_ok ok.1
    rw [grown] at ok ⊢
    obtain ⟨final, nodup⟩ := ih (List.nodup_cons.mpr ⟨fresh, distinct⟩) ok.2
    have listed : (backendIdsOf (backend :: rest)).reverse ++ seen =
        (backendIdsOf rest).reverse ++ backend.backendId :: seen := by
      simp [backendIdsOf]
    rw [listed]
    exact ⟨final, nodup⟩

/-- The same for the loop over the profiles, which shares both maps. -/
theorem validateProfileLoop_ok {profiles : List ProfileSpec} {i : Nat} {names ids : List String}
    (named : "" ∉ names) (distinctNames : names.Nodup) (distinctIds : ids.Nodup)
    (ok : validateProfileLoop v path i profiles names ids = []) :
    "" ∉ (profileNamesOf profiles).reverse ++ names ∧
      ((profileNamesOf profiles).reverse ++ names).Nodup ∧
      ((profiles.flatMap fun profile => backendIdsOf profile.backends).reverse ++ ids).Nodup := by
  induction profiles generalizing i names ids with
  | nil => exact ⟨named, distinctNames, distinctIds⟩
  | cons profile rest ih =>
    simp only [validateProfileLoop, List.append_eq_nil_iff] at ok
    obtain ⟨⟨⟨nameOk, _⟩, backendsOk⟩, restOk⟩ := ok
    obtain ⟨given, freshName, grownNames⟩ := validateProfileName_ok nameOk
    obtain ⟨grownIds, nodupIds⟩ := validateBackends_ok distinctIds backendsOk
    rw [grownNames, grownIds] at restOk
    have later := ih
      (fun member => (List.mem_cons.mp member).elim (given ∘ Eq.symm) named)
      (List.nodup_cons.mpr ⟨freshName, distinctNames⟩) nodupIds restOk
    simpa [profileNamesOf] using later

theorem validateProfiles_ok {profiles : List ProfileSpec}
    (ok : validateProfiles v profiles path = []) :
    "" ∉ profileNamesOf profiles ∧ (profileNamesOf profiles).Nodup ∧
      (profiles.flatMap fun profile => backendIdsOf profile.backends).Nodup := by
  unfold validateProfiles at ok
  split at ok
  · cases ok
  · have all := validateProfileLoop_ok (by simp) List.nodup_nil List.nodup_nil ok
    simpa using all

theorem validateDefaults_ok {defaults : DefaultsSpec} (ok : validateDefaults defaults path = []) :
    defaults.profile ≠ "" := by
  intro missing
  have first := (List.append_eq_nil_iff.mp ok).1
  rw [if_pos missing] at first
  cases first

theorem validateCrossReferences_ok {config : OrchestratorConfig}
    (ok : validateCrossReferences config = []) :
    (config.spec.defaults.profile ≠ "" →
      config.spec.defaults.profile ∈ profileNamesOf config.spec.profiles) ∧
      ∀ selector ∈ config.spec.defaults.selectors, selector.profile ≠ "" →
        selector.profile ∈ profileNamesOf config.spec.profiles := by
  simp only [validateCrossReferences, List.append_eq_nil_iff, List.flatMap_eq_nil_iff] at ok
  obtain ⟨⟨defaultOk, selectorsOk⟩, _⟩ := ok
  refine ⟨fun given => ?_, fun selector member given => ?_⟩
  · by_contra missing
    rw [if_pos ⟨given, missing⟩] at defaultOk
    cases defaultOk
  · by_contra missing
    obtain ⟨i, bound, listed⟩ := List.getElem_of_mem member
    have checked := selectorsOk (selector, i)
      (List.mem_zipIdx_iff_getElem?.mpr (by rw [List.getElem?_eq_getElem bound, listed]))
    rw [if_pos ⟨given, missing⟩] at checked
    cases checked

/-- An accepted configuration is coherent. -/
theorem coherent_of_validate {config : OrchestratorConfig} (accepted : validate v config = .ok ()) :
    Coherent config := by
  have ok : validationErrors v config = [] := by
    unfold validate at accepted
    split at accepted
    · assumption
    · cases accepted
  simp only [validationErrors, List.append_eq_nil_iff] at ok
  obtain ⟨⟨⟨⟨_, profiles⟩, _⟩, defaults⟩, references⟩ := ok
  obtain ⟨named, names, ids⟩ := validateProfiles_ok profiles
  obtain ⟨default_, selectors⟩ := validateCrossReferences_ok references
  exact ⟨named, names, ids, default_ (validateDefaults_ok defaults), selectors⟩

end ScoreOrchestrator.Config
