import ProductionStack.KubeObjects
import ProductionStack.Quiescence

namespace ProductionStack.VLLMRuntimeController

open KubeObjects Quiescence

structure ModelSpec where
  modelURL : String
  hfTokenSecret : String := ""
  hfTokenName : String := ""
  enableLoRA : Bool := false
  enableTool : Bool := false
  toolCallParser : String := ""
  maxModelLen : Int := 0
  dtype : String := ""
  maxNumSeqs : Int := 0

structure VLLMConfig where
  enableChunkedPrefill : Bool := false
  enablePrefixCaching : Bool := false
  tensorParallelSize : Int := 0
  gpuMemoryUtilization : String := ""
  maxLoras : Int := 0
  extraArgs : List String := []
  v1 : Bool := false
  port : Int
  env : List EnvSpec := []

structure LMCacheConfig where
  enabled : Bool := false
  cpuOffloadingBufferSize : String := ""
  diskOffloadingBufferSize : String := ""
  remoteURL : String := ""
  remoteSerde : String := ""
  deriving DecidableEq, Repr

structure StorageConfig where
  enabled : Bool := false
  storageClassName : String := ""
  size : String := ""
  accessMode : String := ""
  mountPath : String := ""
  volumeName : String := ""

structure SidecarConfig where
  enabled : Bool := false
  name : String := ""
  image : ImageSpec := ⟨"", "", "", ""⟩
  command : List String := []
  args : List String := []
  env : List EnvSpec := []
  resources : ResourceSpec := {}
  mountPath : String := ""

structure VLLMRuntime where
  name : String
  namespaceName : String
  labels : Dict String String := .empty
  model : ModelSpec
  vllmConfig : VLLMConfig
  lmCacheConfig : LMCacheConfig := {}
  storageConfig : StorageConfig := {}
  replicas : Int
  deployStrategy : String := ""
  resources : ResourceSpec := {}
  image : ImageSpec
  sidecarConfig : SidecarConfig := {}

def healthProbe (vr : VLLMRuntime) (initialDelay timeout success failure : Nat) : Probe :=
  { path := "/health"
    port := vr.vllmConfig.port
    scheme := "HTTP"
    initialDelaySeconds := initialDelay
    periodSeconds := 20
    timeoutSeconds := timeout
    successThreshold := success
    failureThreshold := failure }

def readinessProbe (vr : VLLMRuntime) : Probe := healthProbe vr 10 5 1 10

def livenessProbe (vr : VLLMRuntime) : Probe := healthProbe vr 10 3 1 10

def startupProbe (vr : VLLMRuntime) : Probe := healthProbe vr 120 3 0 100

def numberFlag (flag : String) (value : Int) : List String := if 0 < value then [flag, toString value] else []

/-- A brace in the texts is written by its code. -/
def kvTransferConfig (v1 : Bool) : String :=
  if v1 then "\x7b\"kv_connector\":\"LMCacheConnectorV1\",\"kv_role\":\"kv_both\"\x7d"
  else "\x7b\"kv_connector\":\"LMCacheConnector\",\"kv_role\":\"kv_both\"\x7d"

def buildArgs (vr : VLLMRuntime) : List String :=
  [vr.model.modelURL, "--host", "0.0.0.0", "--port", toString vr.vllmConfig.port] ++
    (if vr.model.enableLoRA then ["--enable-lora"] else []) ++
    (if vr.model.enableTool then ["--enable-auto-tool-choice"] else []) ++
    textFlag "--tool-call-parser" vr.model.toolCallParser ++
    (if vr.vllmConfig.enableChunkedPrefill then ["--enable-chunked-prefill"] else ["--no-enable-chunked-prefill"]) ++
    (if vr.vllmConfig.enablePrefixCaching then ["--enable-prefix-caching"] else ["--no-enable-prefix-caching"]) ++
    numberFlag "--max-model-len" vr.model.maxModelLen ++
    textFlag "--dtype" vr.model.dtype ++
    numberFlag "--tensor-parallel-size" vr.vllmConfig.tensorParallelSize ++
    numberFlag "--max-num-seqs" vr.model.maxNumSeqs ++
    textFlag "--gpu_memory_utilization" vr.vllmConfig.gpuMemoryUtilization ++
    numberFlag "--max_loras" vr.vllmConfig.maxLoras ++
    vr.vllmConfig.extraArgs ++
    (if vr.lmCacheConfig.enabled then ["--kv-transfer-config", kvTransferConfig vr.vllmConfig.v1] else [])

def lmCacheEnv (config : LMCacheConfig) : List EnvVar :=
  if config.enabled then
    [{ name := "LMCACHE_LOG_LEVEL", value := "DEBUG" }, { name := "LMCACHE_USE_EXPERIMENTAL", value := "True" },
      { name := "VLLM_RPC_TIMEOUT", value := "1000000" }] ++
    (if config.cpuOffloadingBufferSize = "" then [] else
      [{ name := "LMCACHE_LOCAL_CPU", value := "True" },
        { name := "LMCACHE_MAX_LOCAL_CPU_SIZE", value := config.cpuOffloadingBufferSize }]) ++
    (if config.diskOffloadingBufferSize = "" then [] else
      [{ name := "LMCACHE_LOCAL_DISK", value := "True" },
        { name := "LMCACHE_MAX_LOCAL_DISK_SIZE", value := config.diskOffloadingBufferSize }]) ++
    (if config.remoteURL = "" then [] else
      [{ name := "LMCACHE_REMOTE_URL", value := config.remoteURL },
        { name := "LMCACHE_REMOTE_SERDE", value := config.remoteSerde }])
  else []

def hfTokenEnv (model : ModelSpec) : List EnvVar :=
  if model.hfTokenSecret = "" then []
  else [{ name := "HF_TOKEN", valueFrom := some ⟨model.hfTokenSecret, model.hfTokenName⟩ }]

def buildEnv (vr : VLLMRuntime) : List EnvVar :=
  [{ name := "VLLM_USE_V1", value := if vr.vllmConfig.v1 then "1" else "0" }] ++
    (if vr.model.enableLoRA then [{ name := "VLLM_ALLOW_RUNTIME_LORA_UPDATING", value := "True" }] else []) ++
    lmCacheEnv vr.lmCacheConfig ++ vr.vllmConfig.env.map EnvSpec.var ++ hfTokenEnv vr.model

def orElse (text default : String) : String := if text = "" then default else text

def volumeName (vr : VLLMRuntime) : String := orElse vr.storageConfig.volumeName "pvc-storage"

def storageMount (vr : VLLMRuntime) (mountPath : String) : List VolumeMount :=
  if vr.storageConfig.enabled then [⟨volumeName vr, mountPath⟩] else []

section Generators

variable {Quantity : Type} (fmt : QuantityFormat Quantity)

def buildResources (spec : ResourceSpec) : Except Panic (ResourceRequirements Quantity) := do
  let r ← addResource fmt "cpu" spec.cpu noResources
  let r ← addResource fmt "memory" spec.memory r
  addResource fmt "nvidia.com/gpu" spec.gpu r

/-- The mount path of the sidecar counts only with storage. -/
def sidecarMountPath (vr : VLLMRuntime) : String :=
  if vr.storageConfig.enabled then orElse vr.sidecarConfig.mountPath "/data" else "/data"

def buildSidecarContainer (vr : VLLMRuntime) : Except Panic (Container Quantity) := do
  let sidecar := vr.sidecarConfig
  let resources ← buildResources fmt
    ⟨orElse sidecar.resources.cpu "0.5", orElse sidecar.resources.memory "128Mi", orElse sidecar.resources.gpu "0"⟩
  return {
    name := sidecar.name
    image := sidecar.image.reference
    imagePullPolicy := sidecar.image.policy
    command := sidecar.command
    args := sidecar.args
    env := [{ name := "PORT", value := "30090" },
      { name := "LORA_DOWNLOAD_BASE_DIR", value := sidecarMountPath vr ++ "/lora-adapters" }] ++
      sidecar.env.map EnvSpec.var
    resources := resources
    volumeMounts := storageMount vr (sidecarMountPath vr) }

def vllmContainer (vr : VLLMRuntime) (resources : ResourceRequirements Quantity) : Container Quantity :=
  { name := "vllm"
    image := vr.image.reference
    imagePullPolicy := vr.image.policy
    command := ["/opt/venv/bin/vllm", "serve"]
    args := buildArgs vr
    env := buildEnv vr
    ports := [⟨"http", vr.vllmConfig.port⟩]
    resources := resources
    volumeMounts := storageMount vr (orElse vr.storageConfig.mountPath "/data")
    readinessProbe := some (readinessProbe vr)
    startupProbe := some (startupProbe vr)
    livenessProbe := some (livenessProbe vr) }

def buildSidecars (vr : VLLMRuntime) : Except Panic (List (Container Quantity)) :=
  if vr.sidecarConfig.enabled then do
    let sidecar ← buildSidecarContainer fmt vr
    return [sidecar]
  else .ok []

def deploymentForVLLMRuntime (vr : VLLMRuntime) : Except Panic (Deployment Quantity) := do
  let resources ← buildResources fmt vr.resources
  let sidecars ← buildSidecars fmt vr
  return {
    name := vr.name
    namespaceName := vr.namespaceName
    replicas := some vr.replicas
    strategy := vr.deployStrategy
    matchLabels := objectLabels vr.name vr.labels
    templateLabels := objectLabels vr.name vr.labels
    imagePullSecrets := vr.image.pullSecrets
    volumes := if vr.storageConfig.enabled then [⟨volumeName vr, vr.name⟩] else []
    containers := vllmContainer vr resources :: sidecars }

/-- The last variable of a name wins. -/
def readLMCache (env : List EnvVar) : LMCacheConfig :=
  env.foldl (fun config e =>
    if e.name = "LMCACHE_USE_EXPERIMENTAL" then { config with enabled := e.value = "True" }
    else if e.name = "LMCACHE_MAX_LOCAL_CPU_SIZE" then { config with cpuOffloadingBufferSize := e.value }
    else if e.name = "LMCACHE_MAX_LOCAL_DISK_SIZE" then { config with diskOffloadingBufferSize := e.value }
    else if e.name = "LMCACHE_REMOTE_URL" then { config with remoteURL := e.value }
    else if e.name = "LMCACHE_REMOTE_SERDE" then { config with remoteSerde := e.value }
    else config) {}

variable [DecidableEq Quantity]

def deploymentNeedsUpdate (d : Deployment Quantity) (vr : VLLMRuntime) : Except Panic Bool := do
  let expected ← deploymentForVLLMRuntime fmt vr
  match d.replicas with
  | none => .error .nilPointer
  | some replicas =>
    if replicas ≠ vr.replicas then return true
    else
      match d.containers with
      | [] => .error .indexOutOfRange
      | container :: _ =>
        if vr.model.modelURL ≠ container.args.headD "" then return true
        else
          match container.ports with
          | [] => .error .indexOutOfRange
          | port :: _ =>
            if vr.vllmConfig.port ≠ port.containerPort then return true
            else
              match expected.containers with
              | [] => .error .indexOutOfRange
              | expectedContainer :: _ =>
                if expectedContainer.image ≠ container.image then return true
                else if expectedContainer.resources ≠ container.resources then return true
                else return decide (vr.lmCacheConfig ≠ readLMCache container.env)

def serviceForVLLMRuntime (vr : VLLMRuntime) : Service :=
  { name := vr.name
    namespaceName := vr.namespaceName
    type := "ClusterIP"
    selector := objectLabels vr.name vr.labels
    ports := [⟨"http", 80, .int vr.vllmConfig.port, "TCP"⟩] }

def serviceNeedsUpdate (svc : Service) (vr : VLLMRuntime) : Except Panic Bool :=
  match svc.ports with
  | [] => .error .indexOutOfRange
  | port :: _ => .ok (decide (vr.vllmConfig.port ≠ port.targetPort.intValue))

def storageSize (vr : VLLMRuntime) : String := orElse vr.storageConfig.size "10Gi"

/-- Any other text leaves the default. -/
def accessMode (vr : VLLMRuntime) : String :=
  if vr.storageConfig.accessMode = "ReadOnlyMany" then "ReadOnlyMany"
  else if vr.storageConfig.accessMode = "ReadWriteMany" then "ReadWriteMany"
  else "ReadWriteOnce"

def pvcForVLLMRuntime (vr : VLLMRuntime) : Except Panic (PersistentVolumeClaim Quantity) := do
  let size ← mustParse fmt (storageSize vr)
  return {
    name := vr.name
    namespaceName := vr.namespaceName
    labels := objectLabels vr.name vr.labels
    accessModes := [accessMode vr]
    requests := (∅ : ResourceList Quantity).insert "storage" size
    storageClassName :=
      if vr.storageConfig.storageClassName = "" then none else some vr.storageConfig.storageClassName }

/-- A map without the key gives the zero quantity. -/
def pvcNeedsUpdate (pvc : PersistentVolumeClaim Quantity) (vr : VLLMRuntime) : Bool :=
  storageSize vr ≠ fmt.text ((pvc.requests.lookup "storage").getD fmt.zero)

end Generators

section Reconciler

variable {Quantity : Type} [DecidableEq Quantity] (fmt : QuantityFormat Quantity)

/-- The objects of the resource's name: its service, its claim and its deployment. -/
abbrev Cluster (Quantity : Type) :=
  Option Service × Option (PersistentVolumeClaim Quantity) × Option (Deployment Quantity)

def serviceSlot (vr : VLLMRuntime) : Slot Service Panic :=
  ⟨.ok (serviceForVLLMRuntime vr), fun svc => serviceNeedsUpdate svc vr⟩

def pvcSlot (vr : VLLMRuntime) : Slot (PersistentVolumeClaim Quantity) Panic :=
  ⟨pvcForVLLMRuntime fmt vr, fun pvc => .ok (pvcNeedsUpdate fmt pvc vr)⟩

def deploymentSlot (vr : VLLMRuntime) : Slot (Deployment Quantity) Panic :=
  ⟨deploymentForVLLMRuntime fmt vr, fun d => deploymentNeedsUpdate fmt d vr⟩

/-- Each call returns after its first create or update. The status is written in the end and
is none of the objects. -/
def reconcile (vr : VLLMRuntime) : Pass (Cluster Quantity) Panic :=
  both (serviceSlot vr).pass
    (both (if vr.storageConfig.enabled then (pvcSlot fmt vr).pass else skip) (deploymentSlot fmt vr).pass)

end Reconciler

end ProductionStack.VLLMRuntimeController
