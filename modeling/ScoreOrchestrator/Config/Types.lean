/-
Module: Config.Types
Purpose: The orchestrator configuration of api/v1b1/orchestratorconfig_types.go.  A slice
  or map that is nil is one without entries.
Trusted boundary: human-reviewed spec
Main exports: OrchestratorConfig, ProfileSpec, BackendSpec, ConstraintsSpec,
  SelectorSpec
-/
import ScoreOrchestrator.Api.Types

namespace ScoreOrchestrator.Config

/-- `metav1.LabelSelectorOperator`, a plain string in Go. -/
inductive LabelSelectorOperator where
  | in_
  | notIn
  | exists_
  | doesNotExist
  | other (text : String)
deriving DecidableEq, Repr

/-- `metav1.LabelSelectorRequirement`. -/
structure LabelSelectorRequirement where
  key : String
  operator : LabelSelectorOperator
  values : List String := []
deriving DecidableEq, Repr

structure ResourceConstraints where
  cpu : String := ""
  memory : String := ""
  storage : String := ""
deriving DecidableEq, Repr, Inhabited

mutual

structure SelectorSpec where
  matchLabels : GoMap String := .empty
  matchExpressions : List LabelSelectorRequirement := []
  profile : String := ""
  constraints : Option ConstraintsSpec := none

structure ConstraintsSpec where
  selectors : List SelectorSpec := []
  features : List String := []
  regions : List String := []
  resources : Option ResourceConstraints := none

end

structure BackendSpec where
  backendId : String
  runtimeClass : String
  template : TemplateSpec
  priority : Int
  version : String
  constraints : Option ConstraintsSpec := none

structure ProfileSpec where
  name : String
  description : String := ""
  backends : List BackendSpec

structure ClassSpec where
  name : String
  description : String := ""
  parameters : Option RawExtension := none
  constraints : Option ConstraintsSpec := none

structure ProvisionerDefaults where
  class_ : String := ""
  params : Option RawExtension := none

structure ProvisionerSpec where
  type : String
  provisioner : String
  classes : List ClassSpec := []
  defaults : Option ProvisionerDefaults := none

structure DefaultsSpec where
  profile : String
  selectors : List SelectorSpec := []

structure OrchestratorConfigSpec where
  profiles : List ProfileSpec
  provisioners : List ProvisionerSpec := []
  defaults : DefaultsSpec

structure OrchestratorConfigMeta where
  name : String
  version : String := ""

structure OrchestratorConfig where
  apiVersion : String
  kind : String
  metadata : OrchestratorConfigMeta
  spec : OrchestratorConfigSpec
  reconciler : Option RawExtension := none

end ScoreOrchestrator.Config
