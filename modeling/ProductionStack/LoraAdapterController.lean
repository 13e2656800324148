import Mathlib.Data.List.Sort
import Mathlib.Data.String.Basic
import ProductionStack.Command
import ProductionStack.Dict

namespace ProductionStack.LoraAdapterController

open Command

/-- The API server accepts no namespace with a slash. -/
structure NamespacedName where
  namespaceName : String
  name : String
  noSlash : '/' ∉ namespaceName.toList
  deriving DecidableEq

theorem default_noSlash : '/' ∉ "default".toList := by decide

structure PodCondition where
  type : String
  status : String
  deriving DecidableEq, Repr

structure ContainerPort where
  name : String
  containerPort : Nat
  deriving DecidableEq, Repr

/-- Each container is the list of its ports. -/
structure Pod where
  labels : Dict String String
  conditions : List PodCondition
  podIP : String
  containers : List (List ContainerPort) := []

inductive SourceType
  | «local»
  | s3
  | http
  | huggingface
  | other (name : String)
  deriving DecidableEq, Repr

structure SecretRef where
  name : String
  key : String
  deriving DecidableEq, Repr

structure AdapterSource where
  adapterName : String
  adapterPath : String := ""
  credentialsSecretRef : Option SecretRef := none
  repository : Option String := none
  type : SourceType
  deriving DecidableEq, Repr

structure VLLMApiKeySecretRef where
  secretName : String
  secretKey : String
  deriving DecidableEq, Repr

structure Condition where
  type : String
  status : String
  lastTransitionTime : Int
  reason : String
  message : String
  deriving DecidableEq, Repr

structure LoadedAdapter where
  name : String
  path : String
  loadTime : Int
  podAssignments : NamespacedName
  status : String
  deriving DecidableEq

structure Status where
  conditions : List Condition := []
  loadedAdapters : List LoadedAdapter := []
  observedGeneration : Int := 0

structure LoraAdapter where
  namespaceName : String
  generation : Int := 1
  deletionTimestamp : Option Int := none
  finalizers : List String
  adapterSource : AdapterSource
  baseModel : String
  replicas : Option Int := none
  vllmApiKey : Option VLLMApiKeySecretRef := none
  status : Status := {}

def loraAdapterFinalizer : String := "loraadapter.production-stack.vllm.ai/finalizer"

/-- The engine of a pod: the adapters it has loaded, by name, with their paths. -/
structure Engine where
  baseModel : String
  adapters : Dict String String

inductive Request
  | models
  | download (modelId token localDir : String)
  | load (loraName loraPath : String)
  | unload (loraName : String)
  deriving DecidableEq, Repr

structure Sent where
  pod : NamespacedName
  endpoint : String
  authorization : String
  request : Request
  deriving DecidableEq

structure State where
  pods : Dict NamespacedName Pod
  engines : NamespacedName → Engine
  secrets : Dict (String × String) (Dict String String)
  adapter : Option LoraAdapter
  sent : List Sent := []

structure ModelCard where
  id : String
  root : String
  parent : Option String
  created : Int
  deriving DecidableEq, Repr

/-- A JSON object as the structures it is decoded into read it. -/
structure Payload where
  message : String := ""
  type : String := ""
  data : List ModelCard := []
  path : String := ""
  deriving DecidableEq, Repr

/-- A body that is no such object is `none`. -/
structure Response where
  status : Nat
  body : Option Payload
  deriving DecidableEq, Repr

/-- What a request to a pod is made for; the registrations are read once before and once after
the reconciliation. -/
inductive Purpose
  | models (round : Nat)
  | download
  | load
  | unload
  deriving DecidableEq, Repr

inductive Listing
  | registrations (round : Nat)
  | placement
  deriving DecidableEq, Repr

inductive Call
  | getAdapter (round : Nat)
  | addFinalizer
  | removeFinalizer
  | listPods (listing : Listing)
  | getPod (pod : NamespacedName) (purpose : Purpose)
  | getApiKey (pod : NamespacedName) (purpose : Purpose)
  | getCredentials (pod : NamespacedName)
  | updatePath (pod : NamespacedName)
  | getEventPod (pod : NamespacedName) (purpose : Purpose)
  | updateEventPod (pod : NamespacedName) (purpose : Purpose)
  | getLatest (round retry : Nat)
  | updateStatus (round retry : Nat)

/-- A write whose answer fails may have been made all the same. -/
inductive ApiReply
  | ok
  | notFound
  | conflict
  | failed (processed : Bool)
  deriving DecidableEq, Repr

structure ErrorBody where
  message : String
  type : String
  deriving DecidableEq, Repr

structure Refusal where
  status : Nat
  body : Option ErrorBody
  notOk : status ≠ 200

def Refusal.response (refusal : Refusal) : Response :=
  ⟨refusal.status, refusal.body.map (fun body => { message := body.message, type := body.type })⟩

/-- The engine answers for itself, or with a body that cannot be read; the exchange fails before or
after the engine has done what it was asked; or the request is refused and nothing is done. -/
inductive EngineReply
  | answered
  | garbled
  | lost (processed : Bool)
  | refused (refusal : Refusal)

/-- What the API server and the engines answer while one object is handled. Lists come in
the order of the cache and maps in that of the runtime, which are arbitrary. -/
structure Env where
  api : Call → ApiReply
  engine : NamespacedName → Purpose → EngineReply
  downloadPath : NamespacedName → String
  now : Int
  listOrder : Listing → List (NamespacedName × Pod) → List (NamespacedName × Pod)
  listOrder_perm : ∀ listing pods, (listOrder listing pods).Perm pods
  mapOrder : List LoadedAdapter → List LoadedAdapter
  mapOrder_perm : ∀ adapters, (mapOrder adapters).Perm adapters

abbrev M := Command State String

def contains (text part : String) : Bool :=
  (List.range (text.length + 1)).any (fun i => part.toList.isPrefixOf (text.toList.drop i))

def ApiReply.text : ApiReply → String
  | .ok => ""
  | .notFound => "not found"
  | .conflict => "the object has been modified"
  | .failed _ => "internal error"

/-- An object that is read and is not there is not found. -/
def get {α : Type} (reply : ApiReply) (object : State → Option α) : M α := do
  if reply = .ok then
    match object (← state) with
    | some a => return a
    | none => fail ApiReply.notFound.text
  else fail reply.text

/-- An object that is being deleted is gone with its last finalizer. -/
def stored (adapter : LoraAdapter) : Option LoraAdapter :=
  if adapter.deletionTimestamp.isSome && adapter.finalizers = [] then none else some adapter

def update (reply : ApiReply) (adapter : LoraAdapter) : M Unit :=
  match reply with
  | .ok => modify fun s => { s with adapter := stored adapter }
  | .failed true => do
      modify fun s => { s with adapter := stored adapter }
      fail reply.text
  | _ => fail reply.text

section Controller

variable (env : Env)

def getPodEndpoint (pod : NamespacedName) (purpose : Purpose) (path : String) (port : Option Nat) : M String := do
  let object ← mapError ("failed to get pod: " ++ ·) (get (env.api (.getPod pod purpose)) (·.pods.get? pod))
  if object.podIP = "" then fail ("pod " ++ pod.name ++ " has no IP address")
  else
    let podPort := port.getD (object.containers.foldl (fun podPort ports =>
      ((ports.find? (fun p => p.name = "container-port")).map (·.containerPort)).getD podPort) 8000)
    return "http://" ++ object.podIP ++ ":" ++ toString podPort ++ path

def getVLLMApiKey (pod : NamespacedName) (purpose : Purpose) (adapter : LoraAdapter) : M String :=
  match adapter.vllmApiKey with
  | none => return ""
  | some ref =>
    if ref.secretName ≠ "" && ref.secretKey ≠ "" then do
      let secret ← mapError ("failed to get secret: " ++ ·)
        (get (env.api (.getApiKey pod purpose)) (·.secrets.get? (adapter.namespaceName, ref.secretName)))
      match secret.get? ref.secretKey with
      | some apiKey => return apiKey
      | none => fail ("secret does not contain key " ++ ref.secretKey)
    else return ""

def modelCards (engine : Engine) : List ModelCard :=
  ⟨engine.baseModel, engine.baseModel, none, env.now⟩ ::
    engine.adapters.entries.map (fun a => ⟨a.1, a.2, some engine.baseModel, env.now⟩)

/-- What an engine does with a request, the sidecar's download included. -/
def respond (pod : NamespacedName) (engine : Engine) : Request → Response × Engine
  | .models => (⟨200, some { data := modelCards env engine }⟩, engine)
  | .download _ _ _ => (⟨200, some { path := env.downloadPath pod }⟩, engine)
  | .load name path =>
    if engine.adapters.contains name then
      (⟨400, some
        { message := "The lora adapter '" ++ name ++ "' has already been loaded."
          type := "InvalidUserInput" }⟩, engine)
    else (⟨200, none⟩, { engine with adapters := engine.adapters.set name path })
  | .unload name =>
    if engine.adapters.contains name then (⟨200, none⟩, { engine with adapters := engine.adapters.erase name })
    else (⟨404, some
      { message := "The lora adapter '" ++ name ++ "' cannot be found."
        type := "NotFoundError" }⟩, engine)

def process (pod : NamespacedName) (request : Request) (s : State) : State :=
  { s with engines := Function.update s.engines pod (respond env pod (s.engines pod) request).2 }

def exchange (purpose : Purpose) (sent : Sent) : M Response := do
  modify fun s => { s with sent := s.sent ++ [sent] }
  match env.engine sent.pod purpose with
  | .answered => do
      let before ← state
      modify (process env sent.pod sent.request)
      return (respond env sent.pod (before.engines sent.pod) sent.request).1
  | .garbled => do
      modify (process env sent.pod sent.request)
      return ⟨200, none⟩
  | .lost processed => do
      if processed then modify (process env sent.pod sent.request)
      fail "failed to send request: connection lost"
  | .refused refusal => return refusal.response

def alreadyLoaded (payload : Payload) : Bool :=
  payload.type = "InvalidUserInput" && contains payload.message "has already been loaded"

/-- The body of an answer that counts as a success. -/
def accept (response : Response) : Except String (Option Payload) :=
  if response.status = 400 then
    match response.body with
    | none => .error "failed to parse error response: invalid character"
    | some payload =>
      if alreadyLoaded payload then .ok response.body
      else .error ("unexpected status code: 400, body: " ++ payload.message)
  else if response.status ≠ 200 then
    .error ("unexpected status code: " ++ toString response.status ++ ", body: " ++
      ((response.body.map (·.message)).getD ""))
  else .ok response.body

def sendRequest (pod : NamespacedName) (purpose : Purpose) (endpoint : String) (request : Request)
    (adapter : LoraAdapter) : M (Option Payload) := do
  let apiKey ← mapError ("failed to get API key: " ++ ·) (getVLLMApiKey env pod purpose adapter)
  let authorization := if apiKey = "" then "" else "Bearer " ++ apiKey
  let response ← exchange env purpose ⟨pod, endpoint, authorization, request⟩
  match accept response with
  | .ok body => return body
  | .error e => fail e

/-- The annotation that is written is read nowhere. -/
def triggerPodEvent (pod : NamespacedName) (purpose : Purpose) : M Unit := do
  let _ ← get (env.api (.getEventPod pod purpose)) (·.pods.get? pod)
  if env.api (.updateEventPod pod purpose) = .ok then return ()
  else fail (env.api (.updateEventPod pod purpose)).text

def loadAdapter (pod : NamespacedName) (adapterPath : String) (adapter : LoraAdapter) : M Unit := do
  let endpoint ← getPodEndpoint env pod .load "/v1/load_lora_adapter" none
  let _ ← sendRequest env pod .load endpoint (.load adapter.adapterSource.adapterName adapterPath) adapter
  triggerPodEvent env pod .load

def unloadAdapter (pod : NamespacedName) (adapter : LoraAdapter) : M Unit := do
  let endpoint ← getPodEndpoint env pod .unload "/v1/unload_lora_adapter" none
  let _ ← sendRequest env pod .unload endpoint (.unload adapter.adapterSource.adapterName) adapter
  triggerPodEvent env pod .unload

def podReady (pod : Pod) : Bool := pod.conditions.any (fun c => c.type = "Ready" && c.status = "True")

def registrationsOf (adapter : LoraAdapter) (pod : NamespacedName) (models : List ModelCard) : List LoadedAdapter :=
  (models.filter (fun m => m.parent.isSome && m.id = adapter.adapterSource.adapterName)).map
    (fun m => ⟨m.id, m.root, m.created, pod, "Loaded"⟩)

/-- A pod that is not ready, cannot be reached or gives no list is skipped. -/
def visit (round : Nat) (adapter : LoraAdapter) (pod : NamespacedName × Pod) : M (List LoadedAdapter) := do
  if podReady pod.2 then
    match ← attempt (getPodEndpoint env pod.1 (.models round) "/v1/models" none) with
    | .error _ => return []
    | .ok endpoint =>
      match ← attempt (sendRequest env pod.1 (.models round) endpoint .models adapter) with
      | .error _ => return []
      | .ok none => return []
      | .ok (some modelList) => return registrationsOf adapter pod.1 modelList.data
  else return []

def listPods (listing : Listing) (selected : Pod → Bool) : M (List (NamespacedName × Pod)) := do
  if env.api (.listPods listing) = .ok then
    return (env.listOrder listing (← state).pods.entries).filter (fun pod => selected pod.2)
  else fail ("failed to list vLLM pods: " ++ (env.api (.listPods listing)).text)

def getAdapterRegistrations (round : Nat) (adapter : LoraAdapter) : M (List LoadedAdapter) := do
  let pods ← listPods env (.registrations round) (·.labels.contains "model")
  gather (visit env round adapter) pods

def numPods (replicas : Option Int) (valid : Nat) : Nat :=
  match replicas with
  | none => valid
  | some replicas => if 0 ≤ replicas then min replicas.toNat valid else valid

/-- No pod sorts before another of a smaller name; two of one name stay as they were listed. -/
def placements (replicas : Option Int) (validPods : List (NamespacedName × Pod)) : List NamespacedName :=
  ((validPods.insertionSort (fun p q => p.1.name ≤ q.1.name)).take (numPods replicas validPods.length)).map Prod.fst

def getOptimalPlacement (adapter : LoraAdapter) : M (List NamespacedName) := do
  let pods ← listPods env .placement (fun pod => pod.labels.get? "model" = some adapter.baseModel)
  return placements adapter.replicas (pods.filter (fun pod => podReady pod.2))

def key (pod : NamespacedName) : String := pod.namespaceName ++ "/" ++ pod.name

theorem key_injective : Function.Injective key := by
  intro p q h
  have hlists : p.namespaceName.toList ++ '/' :: p.name.toList = q.namespaceName.toList ++ '/' :: q.name.toList := by
    have htexts := congrArg String.toList h
    simpa [key] using htexts
  obtain ⟨hnamespace, hname⟩ := append_cons_inj p.noSlash q.noSlash hlists
  obtain ⟨pn, pm, hp⟩ := p
  obtain ⟨qn, qm, hq⟩ := q
  obtain rfl : pn = qn := String.toList_inj.mp hnamespace
  obtain rfl : pm = qm := String.toList_inj.mp hname
  rfl

def compareStates (currentRegistrations : List LoadedAdapter) (desiredPlacements : List NamespacedName) : Bool :=
  if currentRegistrations.length ≠ desiredPlacements.length then true
  else currentRegistrations.any (fun reg => key reg.podAssignments ∉ desiredPlacements.map key)

def downloadHuggingFaceAdapter (adapter : LoraAdapter) (pod : NamespacedName) : M LoraAdapter := do
  match adapter.adapterSource.repository with
  | none => fail "repository is required for huggingface adapter source"
  | some "" => fail "repository is required for huggingface adapter source"
  | some repository =>
    match adapter.adapterSource.credentialsSecretRef with
    | none => fail "invalid memory address or nil pointer dereference"
    | some ref => do
        let secret ← mapError ("failed to get secret: " ++ ·)
          (get (env.api (.getCredentials pod)) (·.secrets.get? (adapter.namespaceName, ref.name)))
        match secret.get? ref.key with
        | none => fail ("secret does not contain key " ++ ref.key)
        | some token => do
            let endpoint ← mapError ("failed to get pod endpoint: " ++ ·)
              (getPodEndpoint env pod .download "/model/download" (some 30090))
            let localDir := adapter.adapterSource.adapterName.map (fun c => if c = '/' then '-' else c)
            match ← mapError ("failed to download adapter: " ++ ·)
              (sendRequest env pod .download endpoint (.download repository token localDir) adapter) with
            | none => fail "failed to unmarshal response body: invalid character"
            | some body => do
                let downloaded :=
                  { adapter with adapterSource := { adapter.adapterSource with adapterPath := body.path } }
                mapError ("failed to update adapter path: " ++ ·) (update (env.api (.updatePath pod)) downloaded)
                return downloaded

def discoverAdapter (adapter : LoraAdapter) (pod : NamespacedName) : M LoraAdapter :=
  if adapter.adapterSource.adapterPath ≠ "" then return adapter
  else
    match adapter.adapterSource.type with
    | .local => fail "local adapter source requires AdapterPath to be set"
    | .s3 => fail "S3 adapter discovery not implemented yet"
    | .http => fail "HTTP adapter discovery not implemented yet"
    | .huggingface => downloadHuggingFaceAdapter env adapter pod
    | .other name => fail ("unsupported adapter source type: " ++ name)

/-- The object is threaded through the loop, since a download changes it. -/
def loadMissing (adapter : LoraAdapter) (currentMap : Dict String LoadedAdapter) :
    List NamespacedName → M LoraAdapter
  | [] => return adapter
  | pod :: pods =>
    if currentMap.contains (key pod) then loadMissing adapter currentMap pods
    else do
      let found ← mapError ("failed to discover adapter: " ++ ·) (discoverAdapter env adapter pod)
      mapError (("failed to load adapter on pod " ++ pod.name ++ ": ") ++ ·)
        (loadAdapter env pod found.adapterSource.adapterPath found)
      loadMissing found currentMap pods

def unload (adapter : LoraAdapter) (reg : LoadedAdapter) : M Unit :=
  mapError (("failed to unload adapter from pod " ++ reg.podAssignments.name ++ ": ") ++ ·)
    (unloadAdapter env reg.podAssignments adapter)

def reconcileToDesiredState (adapter : LoraAdapter) (currentRegistrations : List LoadedAdapter)
    (desiredPlacements : List NamespacedName) : M Unit := do
  let currentMap := Dict.ofList
    ((currentRegistrations.filter (fun reg => reg.name = adapter.adapterSource.adapterName)).map
      (fun reg => (key reg.podAssignments, reg)))
  let loaded ← loadMissing env adapter currentMap desiredPlacements
  forEach (fun reg => if key reg.podAssignments ∉ desiredPlacements.map key then unload env loaded reg else pure ())
    (env.mapOrder currentMap.values)

def fetchAdapter (reply : ApiReply) : M (Option LoraAdapter) := do
  match reply with
  | .ok => return (← state).adapter
  | .notFound => return none
  | .conflict => fail ApiReply.conflict.text
  | .failed processed => fail (ApiReply.failed processed).text

/-- A conflict is tried again. The change is `none` when there is nothing to write. -/
def writeStatus (round : Nat) (what : String) (change : LoraAdapter → Option Status) : List Nat → M LoraAdapter
  | [] => fail ("failed to update status with " ++ what ++ " after retries: " ++ ApiReply.conflict.text)
  | retry :: retries => do
      match ← mapError ("failed to get latest LoraAdapter: " ++ ·) (fetchAdapter (env.api (.getLatest round retry))) with
      | none => fail ("failed to get latest LoraAdapter: " ++ ApiReply.notFound.text)
      | some adapter =>
        match change adapter with
        | none => return adapter
        | some status =>
          match env.api (.updateStatus round retry) with
          | .ok => do
              modify fun s => { s with adapter := some { adapter with status := status } }
              return { adapter with status := status }
          | .conflict => writeStatus round what change retries
          | .notFound => fail ("failed to update status with " ++ what ++ ": " ++ ApiReply.notFound.text)
          | .failed processed => do
              if processed then modify fun s => { s with adapter := some { adapter with status := status } }
              fail ("failed to update status with " ++ what ++ ": " ++ (ApiReply.failed processed).text)

def registrationStatus (registrations : List LoadedAdapter) (adapter : LoraAdapter) : Option Status :=
  some
    { conditions := adapter.status.conditions.filter (fun c => c.type ≠ "WaitingForPods")
      loadedAdapters := registrations
      observedGeneration := adapter.generation }

def updateStatusWithRegistrations (round : Nat) (registrations : List LoadedAdapter) : M LoraAdapter :=
  writeStatus env round "current registrations" (registrationStatus registrations) [0, 1, 2]

def setCondition (condition : Condition) : List Condition → List Condition
  | [] => [condition]
  | c :: rest => if c.type = condition.type then condition :: rest else c :: setCondition condition rest

def waitingStatus (message : String) (adapter : LoraAdapter) : Option Status :=
  if adapter.status.conditions.any (fun c => c.type = "WaitingForPods" && c.status = "True" && c.message = message)
  then none
  else some
    { conditions := setCondition ⟨"WaitingForPods", "True", env.now, "NoReadyPods", message⟩ adapter.status.conditions
      loadedAdapters := []
      observedGeneration := adapter.generation }

def updateStatusWithWaitingState (message : String) : M LoraAdapter :=
  writeStatus env 1 "waiting state" (waitingStatus env message) [0, 1, 2]

def handleDeletion (adapter : LoraAdapter) : M Unit := do
  let currentRegistrations ← mapError ("failed to get current registrations: " ++ ·)
    (getAdapterRegistrations env 0 adapter)
  forEach (fun reg => if reg.name = adapter.adapterSource.adapterName then unload env adapter reg else pure ())
    currentRegistrations
  mapError ("failed to remove finalizer: " ++ ·)
    (update (env.api .removeFinalizer)
      { adapter with finalizers := adapter.finalizers.filter (· ≠ loraAdapterFinalizer) })

structure Result where
  requeue : Bool := false
  requeueAfter : Nat := 0
  deriving DecidableEq, Repr

def reconcilePlacement (adapter : LoraAdapter) : M Result := do
  let currentRegistrations ← getAdapterRegistrations env 0 adapter
  let adapter ← updateStatusWithRegistrations env 0 currentRegistrations
  let desiredPlacements ← getOptimalPlacement env adapter
  if desiredPlacements = [] then
    let _ ← updateStatusWithWaitingState env "Waiting for pods to become ready"
    return { requeueAfter := 60 }
  else if compareStates currentRegistrations desiredPlacements then
    reconcileToDesiredState env adapter currentRegistrations desiredPlacements
    match ← fetchAdapter (env.api (.getAdapter 1)) with
    | none => return {}
    | some latest =>
      let latestRegistrations ← getAdapterRegistrations env 1 latest
      let _ ← updateStatusWithRegistrations env 2 latestRegistrations
      return { requeueAfter := 60 }
  else return { requeueAfter := 60 }

def reconcile : M Result := do
  match ← fetchAdapter (env.api (.getAdapter 0)) with
  | none => return {}
  | some adapter =>
    if adapter.deletionTimestamp.isSome then
      handleDeletion env adapter
      return {}
    else if loraAdapterFinalizer ∈ adapter.finalizers then reconcilePlacement env adapter
    else
      update (env.api .addFinalizer) { adapter with finalizers := adapter.finalizers ++ [loraAdapterFinalizer] }
      return { requeue := true }

end Controller

end ProductionStack.LoraAdapterController
