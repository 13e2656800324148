import ProductionStack.VLLMRuntimeQuiescence
import ProductionStack.VLLMRouterController
import ProductionStack.CacheServerController

namespace ProductionStack.DeploymentDrift

open KubeObjects Quiescence

variable {Quantity : Type}

def view (c : Container Quantity) :
    String × List String × List String × List EnvVar × List ContainerPort × ResourceRequirements Quantity :=
  (c.image, c.command, c.args, c.env, c.ports, c.resources)

def SamePods (d g : Deployment Quantity) : Prop :=
  d.replicas = g.replicas ∧ d.containers.map view = g.containers.map view

/-- A deployment that is left as it is runs what would be generated. -/
def Reflects (slot : Slot (Deployment Quantity) Panic) (d : Deployment Quantity) : Prop :=
  slot.stale d = .ok false → ∃ g, slot.make = .ok g ∧ SamePods d g

def ImageCompared (replicas : Int) (image : String) (resources : ResourceRequirements Quantity)
    (d : Deployment Quantity) : Prop :=
  d.replicas = some replicas ∧ ∃ c rest, d.containers = c :: rest ∧ image = c.image ∧ resources = c.resources

def RestAgrees (command args : List String) (env : List EnvVar) (ports : List ContainerPort)
    (others : List (Container Quantity)) (d : Deployment Quantity) : Prop :=
  ∃ c rest, d.containers = c :: rest ∧ c.command = command ∧ c.args = args ∧ c.env = env ∧ c.ports = ports ∧
    rest.map view = others.map view

theorem samePods_iff {d g : Deployment Quantity} {replicas : Int} {e : Container Quantity}
    {others : List (Container Quantity)} (hreplicas : g.replicas = some replicas) (hcontainers : g.containers = e :: others) :
    SamePods d g ↔
      ImageCompared replicas e.image e.resources d ∧ RestAgrees e.command e.args e.env e.ports others d := by
  rw [SamePods, ImageCompared, RestAgrees, hreplicas, hcontainers]
  cases d.containers with
  | nil => simp
  | cons c rest =>
    simp only [List.map_cons, List.cons.injEq, view, Prod.mk.injEq]
    constructor
    · rintro ⟨hd, ⟨himage, hcommand, hargs, henv, hports, hresources⟩, hrest⟩
      exact ⟨⟨hd, c, rest, ⟨rfl, rfl⟩, himage.symm, hresources.symm⟩,
        c, rest, ⟨rfl, rfl⟩, hcommand, hargs, henv, hports, hrest⟩
    · rintro ⟨⟨hd, _, _, ⟨rfl, rfl⟩, himage, hresources⟩, _, _, ⟨rfl, rfl⟩, hcommand, hargs, henv, hports, hrest⟩
      exact ⟨hd, ⟨himage.symm, hcommand, hargs, henv, hports, hresources.symm⟩, hrest⟩

/-- How a comparison goes: the deployment is left as it is when it has been compared with the one
that is generated, in its replicas, its image and its resources at least. -/
structure Compares (slot : Slot (Deployment Quantity) Panic) (replicas : Int)
    (Compared : Container Quantity → Deployment Quantity → Prop) : Prop where
  generated : ∀ g, slot.make = .ok g → g.replicas = some replicas
  fresh_iff : ∀ d, slot.stale d = .ok false ↔
    ∃ g e others, slot.make = .ok g ∧ g.containers = e :: others ∧ Compared e d
  image : ∀ g e others d, slot.make = .ok g → g.containers = e :: others → Compared e d →
    ImageCompared replicas e.image e.resources d

theorem Compares.reflects_iff {slot : Slot (Deployment Quantity) Panic} {replicas : Int}
    {Compared : Container Quantity → Deployment Quantity → Prop} (h : Compares slot replicas Compared)
    (d : Deployment Quantity) :
    Reflects slot d ↔
      ∀ g e others, slot.make = .ok g → g.containers = e :: others → Compared e d →
        RestAgrees e.command e.args e.env e.ports others d := by
  constructor
  · intro hreflects g e others hg hcontainers hcompared
    obtain ⟨g', hg', hsame⟩ := hreflects ((h.fresh_iff d).mpr ⟨g, e, others, hg, hcontainers, hcompared⟩)
    cases hg.symm.trans hg'
    exact ((samePods_iff (h.generated g hg) hcontainers).mp hsame).2
  · intro hrest hfresh
    obtain ⟨g, e, others, hg, hcontainers, hcompared⟩ := (h.fresh_iff d).mp hfresh
    exact ⟨g, hg, (samePods_iff (h.generated g hg) hcontainers).mpr
      ⟨h.image g e others d hg hcontainers hcompared, hrest g e others hg hcontainers hcompared⟩⟩

theorem replicas_then_image {replicas : Int} {make : Except Panic (Deployment Quantity)}
    {compare : Deployment Quantity → Except Panic Bool} {d : Deployment Quantity}
    (hcompare : ∀ g, compare g = .ok false ↔
      ∃ e others c rest, g.containers = e :: others ∧ d.containers = c :: rest ∧
        e.image = c.image ∧ e.resources = c.resources) :
    (match d.replicas with
      | none => Except.error Panic.nilPointer
      | some found => if found ≠ replicas then Except.ok true else make >>= compare) = .ok false ↔
      ∃ g e others, make = .ok g ∧ g.containers = e :: others ∧ ImageCompared replicas e.image e.resources d := by
  simp only [ImageCompared]
  cases d.replicas with
  | none => simp
  | some found =>
    rw [differs_eq_false, not_not, bind_eq_ok]
    constructor
    · rintro ⟨rfl, g, hg, hfresh⟩
      obtain ⟨e, others, c, rest, hcontainers, hd, hsame⟩ := (hcompare g).mp hfresh
      exact ⟨g, e, others, hg, hcontainers, rfl, c, rest, hd, hsame⟩
    · rintro ⟨g, e, others, hg, hcontainers, hreplicas, c, rest, hd, hsame⟩
      exact ⟨Option.some.inj hreplicas, g, hg, (hcompare g).mpr ⟨e, others, c, rest, hcontainers, hd, hsame⟩⟩

section Controllers

variable [DecidableEq Quantity] (fmt : QuantityFormat Quantity)

open VLLMRuntimeController in
theorem runtime_compares (vr : VLLMRuntime) :
    Compares (deploymentSlot fmt vr) vr.replicas (fun e d => Compared vr e.resources d) := by
  constructor
  · intro g hg
    obtain ⟨resources, sidecars, -, -, hreplicas, -⟩ := deploymentForVLLMRuntime_eq_ok hg
    exact hreplicas
  · intro d
    constructor
    · intro hfresh
      obtain ⟨g, hg, -⟩ := bind_eq_ok.mp hfresh
      obtain ⟨resources, sidecars, -, -, -, hcontainers⟩ := deploymentForVLLMRuntime_eq_ok hg
      exact ⟨g, _, sidecars, hg, hcontainers, (deploymentNeedsUpdate_of_ok hg hcontainers).1.mp hfresh⟩
    · rintro ⟨g, e, others, hg, hcontainers, hcompared⟩
      obtain ⟨resources, sidecars, -, -, -, hcontainers'⟩ := deploymentForVLLMRuntime_eq_ok hg
      cases hcontainers.symm.trans hcontainers'
      exact (deploymentNeedsUpdate_of_ok hg hcontainers).1.mpr hcompared
  · rintro g e others d hg hcontainers ⟨hreplicas, c, rest, hd, hcontainer⟩
    obtain ⟨resources, sidecars, -, -, -, hcontainers'⟩ := deploymentForVLLMRuntime_eq_ok hg
    cases hcontainers.symm.trans hcontainers'
    exact ⟨hreplicas, c, rest, hd, hcontainer.image, hcontainer.resources⟩

open VLLMRouterController in
theorem router_compares (router : VLLMRouter) :
    Compares (deploymentSlot fmt router) router.replicas (fun e d => ImageCompared router.replicas e.image e.resources d) := by
  constructor
  · intro g hg
    obtain ⟨resources, -, hg⟩ := bind_eq_ok.mp hg
    obtain ⟨args, -, hg⟩ := bind_eq_ok.mp hg
    cases hg
    rfl
  · intro d
    refine replicas_then_image (fun g => ?_)
    cases g.containers with
    | nil => simp
    | cons e others =>
      cases d.containers with
      | nil => simp
      | cons c rest =>
        simp only [pure, Except.pure]
        rw [differs_eq_false]
        simp
  · intro g e others d _ _ hcompared
    exact hcompared

open CacheServerController in
theorem cacheServer_compares (cs : CacheServer) :
    Compares (deploymentSlot fmt cs) cs.replicas (fun e d => ImageCompared cs.replicas e.image e.resources d) := by
  constructor
  · intro g hg
    obtain ⟨resources, -, hg⟩ := bind_eq_ok.mp hg
    cases hg
    rfl
  · intro d
    refine replicas_then_image (fun g => ?_)
    cases g.containers with
    | nil => simp
    | cons e others =>
      cases d.containers with
      | nil => simp
      | cons c rest =>
        simp only [pure, Except.pure]
        rw [differs_eq_false]
        simp [@eq_comm _ e.image]
  · intro g e others d _ _ hcompared
    exact hcompared

/-- What is not compared must agree with the spec by itself: the command, the arguments, the environment and the
ports of the first container, and every other container. -/
theorem reflects_spec_iff (vr : VLLMRuntimeController.VLLMRuntime) (router : VLLMRouterController.VLLMRouter)
    (cs : CacheServerController.CacheServer) (d : Deployment Quantity) :
    (Reflects (VLLMRuntimeController.deploymentSlot fmt vr) d ↔
      ∀ resources sidecars, VLLMRuntimeController.buildResources fmt vr.resources = .ok resources →
        VLLMRuntimeController.buildSidecars fmt vr = .ok sidecars → VLLMRuntimeController.Compared vr resources d →
          RestAgrees ["/opt/venv/bin/vllm", "serve"] (VLLMRuntimeController.buildArgs vr) (VLLMRuntimeController.buildEnv vr)
            [⟨"http", vr.vllmConfig.port⟩] sidecars d) ∧
    (Reflects (VLLMRouterController.deploymentSlot fmt router) d ↔
      ∀ resources args, cpuAndMemory fmt router.resources = .ok resources → VLLMRouterController.buildArgs router = .ok args →
        ImageCompared router.replicas router.image.reference resources d →
          RestAgrees [] args (VLLMRouterController.buildEnv router) [⟨"http", router.port⟩] [] d) ∧
    (Reflects (CacheServerController.deploymentSlot fmt cs) d ↔
      ∀ resources, cpuAndMemory fmt cs.resources = .ok resources →
        ImageCompared cs.replicas cs.image.reference resources d →
          RestAgrees ["lmcache_experimental_server", "0.0.0.0", toString cs.port] [] [] [⟨"http", cs.port⟩] [] d) := by
  rw [(runtime_compares fmt vr).reflects_iff, (router_compares fmt router).reflects_iff,
    (cacheServer_compares fmt cs).reflects_iff]
  refine ⟨⟨?_, ?_⟩, ⟨?_, ?_⟩, ⟨?_, ?_⟩⟩
  · intro h resources sidecars hresources hsidecars
    obtain ⟨g, hg, hcontainers⟩ : ∃ g, VLLMRuntimeController.deploymentForVLLMRuntime fmt vr = .ok g ∧
        g.containers = VLLMRuntimeController.vllmContainer vr resources :: sidecars := by
      rw [VLLMRuntimeController.deploymentForVLLMRuntime, hresources, hsidecars]
      exact ⟨_, rfl, rfl⟩
    exact h g _ sidecars hg hcontainers
  · intro h g e others hg hcontainers
    obtain ⟨resources, sidecars, hresources, hsidecars, -, hmade⟩ := VLLMRuntimeController.deploymentForVLLMRuntime_eq_ok hg
    cases hcontainers.symm.trans hmade
    exact h resources others hresources hsidecars
  · intro h resources args hresources hargs
    obtain ⟨g, hg, hcontainers⟩ : ∃ g, VLLMRouterController.deploymentForVLLMRouter fmt router = .ok g ∧
        g.containers = [VLLMRouterController.routerContainer router resources args] := by
      rw [VLLMRouterController.deploymentForVLLMRouter, hresources, hargs]
      exact ⟨_, rfl, rfl⟩
    exact h g _ [] hg hcontainers
  · intro h g e others hg hcontainers
    obtain ⟨resources, hresources, hg⟩ := bind_eq_ok.mp hg
    obtain ⟨args, hargs, hg⟩ := bind_eq_ok.mp hg
    cases hg
    cases hcontainers
    exact h resources args hresources hargs
  · intro h resources hresources
    obtain ⟨g, hg, hcontainers⟩ : ∃ g, CacheServerController.deploymentForCacheServer fmt cs = .ok g ∧
        g.containers = [CacheServerController.cacheServerContainer cs resources] := by
      rw [CacheServerController.deploymentForCacheServer, hresources]
      exact ⟨_, rfl, rfl⟩
    exact h g _ [] hg hcontainers
  · intro h g e others hg hcontainers
    obtain ⟨resources, hresources, hg⟩ := bind_eq_ok.mp hg
    cases hg
    cases hcontainers
    exact h resources hresources

end Controllers

section Ignored

open VLLMRuntimeController (VLLMRuntime textFormat llamaRuntime)
open VLLMRouterController (VLLMRouter)
open CacheServerController (CacheServer)

theorem not_reflects {slot : Slot (Deployment Quantity) Panic} {d g : Deployment Quantity}
    (hfresh : slot.stale d = .ok false) (hg : slot.make = .ok g)
    (hdiffer : d.containers.map (fun c => (c.command, c.args)) ≠ g.containers.map (fun c => (c.command, c.args))) :
    ¬Reflects slot d := by
  intro h
  obtain ⟨g', hg', -, hsame⟩ := h hfresh
  cases hg.symm.trans hg'
  have hstarted := congrArg (List.map (fun v => (v.2.1, v.2.2.1))) hsame
  rw [List.map_map, List.map_map] at hstarted
  exact hdiffer hstarted

def plainRuntime (maxModelLen : Int) : VLLMRuntime :=
  { llamaRuntime with lmCacheConfig := {}, model := { llamaRuntime.model with maxModelLen := maxModelLen } }

def plainRouter (routingLogic sessionKey : String) : VLLMRouter :=
  { name := "router"
    namespaceName := "default"
    replicas := 1
    serviceDiscovery := "k8s"
    k8sLabelSelector := "model=llama"
    routingLogic := routingLogic
    sessionKey := sessionKey
    port := 80
    image := { registry := "docker.io", name := "lmcache/lmstack-router" } }

def plainCacheServer (port : Int) : CacheServer :=
  { name := "cacheserver"
    namespaceName := "default"
    image := { registry := "docker.io", name := "lmcache/vllm-openai" }
    port := port
    replicas := 1 }

/-- A longer context, another routing logic, another port: the old deployment stays. -/
theorem spec_changes_ignored :
    (∃ d, VLLMRuntimeController.deploymentForVLLMRuntime textFormat (plainRuntime 0) = .ok d ∧
      ¬Reflects (VLLMRuntimeController.deploymentSlot textFormat (plainRuntime 4096)) d) ∧
    (∃ d, VLLMRouterController.deploymentForVLLMRouter textFormat (plainRouter "roundrobin" "") = .ok d ∧
      ¬Reflects (VLLMRouterController.deploymentSlot textFormat (plainRouter "session" "x-user-id")) d) ∧
    (∃ d, CacheServerController.deploymentForCacheServer textFormat (plainCacheServer 8000) = .ok d ∧
      ¬Reflects (CacheServerController.deploymentSlot textFormat (plainCacheServer 9000)) d) := by
  refine ⟨⟨_, rfl, ?_⟩, ⟨_, rfl, ?_⟩, ⟨_, rfl, ?_⟩⟩
  · exact not_reflects rfl rfl (by decide)
  · exact not_reflects rfl rfl (by decide)
  · exact not_reflects rfl rfl (by decide)

end Ignored

end ProductionStack.DeploymentDrift
