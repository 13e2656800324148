import ProductionStack.KubeObjects
import ProductionStack.Quiescence

namespace ProductionStack.CacheServerController

open KubeObjects Quiescence

structure CacheServer where
  name : String
  namespaceName : String
  image : ImageSpec
  port : Int
  resources : ResourceSpec := {}
  replicas : Int

section Generators

variable {Quantity : Type} (fmt : QuantityFormat Quantity)

def cacheServerContainer (cs : CacheServer) (resources : ResourceRequirements Quantity) : Container Quantity :=
  { name := "cache-server"
    image := cs.image.reference
    imagePullPolicy := cs.image.policy
    command := ["lmcache_experimental_server", "0.0.0.0", toString cs.port]
    ports := [⟨"http", cs.port⟩]
    resources := resources }

/-- The labels of the resource, its pull secret and its strategy are not used. -/
def deploymentForCacheServer (cs : CacheServer) : Except Panic (Deployment Quantity) := do
  let resources ← cpuAndMemory fmt cs.resources
  return {
    name := cs.name
    namespaceName := cs.namespaceName
    replicas := some cs.replicas
    matchLabels := Dict.ofList [("app", cs.name)]
    templateLabels := Dict.ofList [("app", cs.name)]
    containers := [cacheServerContainer cs resources] }

variable [DecidableEq Quantity]

/-- The image is compared when there is a container, the resources are looked up all the same. -/
def deploymentNeedsUpdate (d : Deployment Quantity) (cs : CacheServer) : Except Panic Bool :=
  match d.replicas with
  | none => .error .nilPointer
  | some replicas =>
    if replicas ≠ cs.replicas then .ok true
    else do
      let expected ← deploymentForCacheServer fmt cs
      match expected.containers with
      | [] => .error .indexOutOfRange
      | expectedContainer :: _ =>
        if 0 < d.containers.length ∧ d.containers.head?.map (·.image) ≠ some expectedContainer.image then
          return true
        else
          match d.containers with
          | [] => .error .indexOutOfRange
          | container :: _ => return decide (expectedContainer.resources ≠ container.resources)

def deploymentSlot (cs : CacheServer) : Slot (Deployment Quantity) Panic :=
  ⟨deploymentForCacheServer fmt cs, fun d => deploymentNeedsUpdate fmt d cs⟩

end Generators

end ProductionStack.CacheServerController
