import ProductionStack.KubeObjects
import ProductionStack.Quiescence

namespace ProductionStack.VLLMRouterController

open KubeObjects Quiescence

structure VLLMRouter where
  name : String
  namespaceName : String
  labels : Dict String String := .empty
  replicas : Int
  serviceDiscovery : String
  k8sLabelSelector : String := ""
  staticBackends : String := ""
  staticModels : String := ""
  routingLogic : String := ""
  sessionKey : String := ""
  engineScrapeInterval : Int := 0
  requestStatsWindow : Int := 0
  extraArgs : List String := []
  nodeSelectorTerms : Option (List NodeSelectorTerm) := none
  serviceAccountName : String := ""
  port : Int
  image : ImageSpec
  resources : ResourceSpec := {}
  env : List EnvSpec := []
  vllmApiKeySecret : String := ""
  vllmApiKeyName : String := ""

def apiKeyEnv (router : VLLMRouter) : List EnvVar :=
  if router.vllmApiKeySecret ≠ "" ∧ router.vllmApiKeyName ≠ "" then
    [{ name := "VLLM_API_KEY", valueFrom := some ⟨router.vllmApiKeySecret, router.vllmApiKeyName⟩ }]
  else []

def buildEnv (router : VLLMRouter) : List EnvVar := router.env.map EnvSpec.var ++ apiKeyEnv router

/-- Any other discovery gets no arguments of its own. -/
def serviceDiscoveryArgs (router : VLLMRouter) : Except Panic (List String) :=
  if router.serviceDiscovery = "k8s" then
    .ok ["--k8s-namespace", router.namespaceName, "--k8s-label-selector", router.k8sLabelSelector]
  else if router.serviceDiscovery = "static" then
    if router.staticBackends = "" ∨ router.staticModels = "" then
      .error (.message "static service discovery requires both staticBackends and staticModels")
    else .ok ["--static-backends", router.staticBackends, "--static-models", router.staticModels]
  else .ok []

def nonzeroFlag (flag : String) (value : Int) : List String := if value ≠ 0 then [flag, toString value] else []

def buildArgs (router : VLLMRouter) : Except Panic (List String) := do
  let discovery ← serviceDiscoveryArgs router
  return ["--host", "0.0.0.0", "--port", toString router.port, "--service-discovery", router.serviceDiscovery] ++
    discovery ++
    textFlag "--routing-logic" router.routingLogic ++
    textFlag "--session-key" router.sessionKey ++
    nonzeroFlag "--engine-stats-interval" router.engineScrapeInterval ++
    nonzeroFlag "--request-stats-window" router.requestStatsWindow ++
    router.extraArgs

section Generators

variable {Quantity : Type} (fmt : QuantityFormat Quantity)

def routerContainer (router : VLLMRouter) (resources : ResourceRequirements Quantity) (args : List String) :
    Container Quantity :=
  { name := "router"
    image := router.image.reference
    imagePullPolicy := router.image.policy
    args := args
    env := buildEnv router
    ports := [⟨"http", router.port⟩]
    resources := resources
    livenessProbe := some
      { path := "/health"
        port := router.port
        initialDelaySeconds := 30
        periodSeconds := 5
        failureThreshold := 3 } }

def deploymentForVLLMRouter (router : VLLMRouter) : Except Panic (Deployment Quantity) := do
  let resources ← cpuAndMemory fmt router.resources
  let args ← buildArgs router
  return {
    name := router.name
    namespaceName := router.namespaceName
    replicas := some router.replicas
    matchLabels := objectLabels router.name router.labels
    templateLabels := objectLabels router.name router.labels
    serviceAccountName := router.serviceAccountName
    imagePullSecrets := router.image.pullSecrets
    nodeSelectorTerms := router.nodeSelectorTerms
    containers := [routerContainer router resources args] }

variable [DecidableEq Quantity]

/-- The expected deployment is made after the replicas are compared. -/
def deploymentNeedsUpdate (d : Deployment Quantity) (router : VLLMRouter) : Except Panic Bool :=
  match d.replicas with
  | none => .error .nilPointer
  | some replicas =>
    if replicas ≠ router.replicas then .ok true
    else do
      let expected ← deploymentForVLLMRouter fmt router
      match expected.containers, d.containers with
      | expectedContainer :: _, container :: _ =>
        if expectedContainer.image ≠ container.image then return true
        else return decide (expectedContainer.resources ≠ container.resources)
      | _, _ => .error .indexOutOfRange

def deploymentSlot (router : VLLMRouter) : Slot (Deployment Quantity) Panic :=
  ⟨deploymentForVLLMRouter fmt router, fun d => deploymentNeedsUpdate fmt d router⟩

end Generators

end ProductionStack.VLLMRouterController
