import ProductionStack.VLLMRuntimeController

namespace ProductionStack.VLLMRuntimeController

open KubeObjects Quiescence

def lastValue (name : String) (env : List EnvVar) : Option String :=
  env.foldl (fun last e => if e.name = name then some e.value else last) none

theorem lastValue_concat (name : String) (env : List EnvVar) (e : EnvVar) :
    lastValue name (env ++ [e]) = if e.name = name then some e.value else lastValue name env := by
  rw [lastValue, List.foldl_append]
  rfl

theorem lastValue_append (name : String) (xs ys : List EnvVar) :
    lastValue name (xs ++ ys) = (lastValue name ys).or (lastValue name xs) := by
  induction ys using List.reverseRecOn with
  | nil => simp [lastValue]
  | append_singleton ys e ih =>
    rw [← List.append_assoc, lastValue_concat, lastValue_concat, ih]
    split <;> simp

theorem lastValue_of_forall_ne {name : String} {env : List EnvVar} (h : ∀ e ∈ env, e.name ≠ name) :
    lastValue name env = none := by
  induction env using List.reverseRecOn with
  | nil => rfl
  | append_singleton env e ih =>
    rw [lastValue_concat, if_neg (h e (by simp)), ih (fun e' he' => h e' (List.mem_append_left _ he'))]

theorem readLMCache_eq (env : List EnvVar) :
    readLMCache env =
      { enabled := lastValue "LMCACHE_USE_EXPERIMENTAL" env = some "True"
        cpuOffloadingBufferSize := (lastValue "LMCACHE_MAX_LOCAL_CPU_SIZE" env).getD ""
        diskOffloadingBufferSize := (lastValue "LMCACHE_MAX_LOCAL_DISK_SIZE" env).getD ""
        remoteURL := (lastValue "LMCACHE_REMOTE_URL" env).getD ""
        remoteSerde := (lastValue "LMCACHE_REMOTE_SERDE" env).getD "" } := by
  induction env using List.reverseRecOn with
  | nil => rfl
  | append_singleton env e ih =>
    simp only [lastValue_concat]
    rw [readLMCache, List.foldl_append, ← readLMCache, ih, List.foldl_cons, List.foldl_nil]
    by_cases henabled : e.name = "LMCACHE_USE_EXPERIMENTAL"
    · simp [henabled]
    by_cases hcpu : e.name = "LMCACHE_MAX_LOCAL_CPU_SIZE"
    · simp [hcpu]
    by_cases hdisk : e.name = "LMCACHE_MAX_LOCAL_DISK_SIZE"
    · simp [hdisk]
    by_cases hurl : e.name = "LMCACHE_REMOTE_URL"
    · simp [hurl]
    by_cases hserde : e.name = "LMCACHE_REMOTE_SERDE"
    · simp [hserde]
    simp [henabled, hcpu, hdisk, hurl, hserde]

def userValue (vr : VLLMRuntime) (name : String) : Option String :=
  lastValue name (vr.vllmConfig.env.map EnvSpec.var)

/-- The names that the generated environment has besides LMCache's. -/
def ownNames : List String := ["VLLM_USE_V1", "VLLM_ALLOW_RUNTIME_LORA_UPDATING", "HF_TOKEN"]

theorem lastValue_buildEnv (vr : VLLMRuntime) {name : String} (h : name ∉ ownNames) :
    lastValue name (buildEnv vr) = (userValue vr name).or (lastValue name (lmCacheEnv vr.lmCacheConfig)) := by
  simp only [ownNames, List.mem_cons, List.not_mem_nil, or_false, not_or] at h
  obtain ⟨hv1, hlora, htoken⟩ := h
  have hhead : lastValue name ([{ name := "VLLM_USE_V1", value := if vr.vllmConfig.v1 then "1" else "0" }] ++
      (if vr.model.enableLoRA then [{ name := "VLLM_ALLOW_RUNTIME_LORA_UPDATING", value := "True" }] else [])) =
      none := by
    apply lastValue_of_forall_ne
    intro e he
    rcases List.mem_append.mp he with hfirst | hlast
    · exact (List.mem_singleton.mp hfirst) ▸ Ne.symm hv1
    · split at hlast
      · exact (List.mem_singleton.mp hlast) ▸ Ne.symm hlora
      · cases hlast
  have htail : lastValue name (hfTokenEnv vr.model) = none := by
    apply lastValue_of_forall_ne
    intro e he
    rw [hfTokenEnv] at he
    split at he
    · cases he
    · exact (List.mem_singleton.mp he) ▸ Ne.symm htoken
  rw [buildEnv, lastValue_append, lastValue_append, lastValue_append, hhead, htail, userValue]
  simp

theorem lastValue_lmCacheEnv (config : LMCacheConfig) :
    lastValue "LMCACHE_USE_EXPERIMENTAL" (lmCacheEnv config) = (if config.enabled then some "True" else none) ∧
      lastValue "LMCACHE_MAX_LOCAL_CPU_SIZE" (lmCacheEnv config) =
        (if config.enabled ∧ config.cpuOffloadingBufferSize ≠ "" then some config.cpuOffloadingBufferSize else none) ∧
      lastValue "LMCACHE_MAX_LOCAL_DISK_SIZE" (lmCacheEnv config) =
        (if config.enabled ∧ config.diskOffloadingBufferSize ≠ "" then some config.diskOffloadingBufferSize else none) ∧
      lastValue "LMCACHE_REMOTE_URL" (lmCacheEnv config) =
        (if config.enabled ∧ config.remoteURL ≠ "" then some config.remoteURL else none) ∧
      lastValue "LMCACHE_REMOTE_SERDE" (lmCacheEnv config) =
        (if config.enabled ∧ config.remoteURL ≠ "" then some config.remoteSerde else none) := by
  cases henabled : config.enabled with
  | false => simp [lmCacheEnv, henabled, lastValue]
  | true =>
    by_cases hcpu : config.cpuOffloadingBufferSize = "" <;>
      by_cases hdisk : config.diskOffloadingBufferSize = "" <;>
        by_cases hurl : config.remoteURL = "" <;>
          simp [lmCacheEnv, henabled, lastValue, hcpu, hdisk, hurl]

/-- A text of the spec comes back from the environment: a variable of the user's own says the
same, or there is none and the text is written, or there is nothing to write. -/
def TextReadsBack (user : Option String) (written : Prop) (text : String) : Prop :=
  (∀ value, user = some value → value = text) ∧ (user = none → text ≠ "" → written)

/-- The environment that is generated gives LMCache's part of the spec back. -/
structure ReadsBack (vr : VLLMRuntime) : Prop where
  enabled : ∀ value, userValue vr "LMCACHE_USE_EXPERIMENTAL" = some value →
    (value = "True" ↔ vr.lmCacheConfig.enabled = true)
  cpu : TextReadsBack (userValue vr "LMCACHE_MAX_LOCAL_CPU_SIZE") (vr.lmCacheConfig.enabled = true)
    vr.lmCacheConfig.cpuOffloadingBufferSize
  disk : TextReadsBack (userValue vr "LMCACHE_MAX_LOCAL_DISK_SIZE") (vr.lmCacheConfig.enabled = true)
    vr.lmCacheConfig.diskOffloadingBufferSize
  remoteURL : TextReadsBack (userValue vr "LMCACHE_REMOTE_URL") (vr.lmCacheConfig.enabled = true)
    vr.lmCacheConfig.remoteURL
  remoteSerde : TextReadsBack (userValue vr "LMCACHE_REMOTE_SERDE")
    (vr.lmCacheConfig.enabled = true ∧ vr.lmCacheConfig.remoteURL ≠ "") vr.lmCacheConfig.remoteSerde

theorem textReadsBack_iff {user : Option String} {written : Prop} [Decidable written] {text : String} :
    ((user.or (if written then some text else none)).getD "" = text) ↔ TextReadsBack user written text := by
  cases user with
  | some value => simp [TextReadsBack]
  | none =>
    by_cases hwritten : written
    · simp [TextReadsBack, hwritten]
    · simp [TextReadsBack, hwritten, eq_comm]

theorem textReadsBack_self {user : Option String} {enabled : Prop} {text : String} :
    TextReadsBack user (enabled ∧ text ≠ "") text ↔ TextReadsBack user enabled text := by
  constructor
  · rintro ⟨hvalue, hwritten⟩
    exact ⟨hvalue, fun hnone htext => (hwritten hnone htext).1⟩
  · rintro ⟨hvalue, hwritten⟩
    exact ⟨hvalue, fun hnone htext => ⟨hwritten hnone htext, htext⟩⟩

theorem readLMCache_buildEnv_iff (vr : VLLMRuntime) : readLMCache (buildEnv vr) = vr.lmCacheConfig ↔ ReadsBack vr := by
  obtain ⟨henabled, hcpu, hdisk, hurl, hserde⟩ := lastValue_lmCacheEnv vr.lmCacheConfig
  have hfields : readLMCache (buildEnv vr) = vr.lmCacheConfig ↔
      (decide (lastValue "LMCACHE_USE_EXPERIMENTAL" (buildEnv vr) = some "True") = vr.lmCacheConfig.enabled ∧
        (lastValue "LMCACHE_MAX_LOCAL_CPU_SIZE" (buildEnv vr)).getD "" = vr.lmCacheConfig.cpuOffloadingBufferSize ∧
        (lastValue "LMCACHE_MAX_LOCAL_DISK_SIZE" (buildEnv vr)).getD "" = vr.lmCacheConfig.diskOffloadingBufferSize ∧
        (lastValue "LMCACHE_REMOTE_URL" (buildEnv vr)).getD "" = vr.lmCacheConfig.remoteURL ∧
        (lastValue "LMCACHE_REMOTE_SERDE" (buildEnv vr)).getD "" = vr.lmCacheConfig.remoteSerde) := by
    rw [readLMCache_eq]
    obtain ⟨enabled, cpu, disk, url, serde⟩ := vr.lmCacheConfig
    exact LMCacheConfig.mk.injEq .. ▸ Iff.rfl
  rw [hfields, lastValue_buildEnv vr (by decide), lastValue_buildEnv vr (by decide), lastValue_buildEnv vr (by decide),
    lastValue_buildEnv vr (by decide), lastValue_buildEnv vr (by decide), henabled, hcpu, hdisk, hurl, hserde,
    textReadsBack_iff, textReadsBack_iff, textReadsBack_iff, textReadsBack_iff, textReadsBack_self,
    textReadsBack_self, textReadsBack_self]
  have hflag : decide ((userValue vr "LMCACHE_USE_EXPERIMENTAL").or
      (if vr.lmCacheConfig.enabled then some "True" else none) = some "True") = vr.lmCacheConfig.enabled ↔
      ∀ value, userValue vr "LMCACHE_USE_EXPERIMENTAL" = some value →
        (value = "True" ↔ vr.lmCacheConfig.enabled = true) := by
    cases userValue vr "LMCACHE_USE_EXPERIMENTAL" with
    | some value => cases vr.lmCacheConfig.enabled <;> simp
    | none => cases vr.lmCacheConfig.enabled <;> simp
  rw [hflag]
  exact ⟨fun ⟨h₁, h₂, h₃, h₄, h₅⟩ => ⟨h₁, h₂, h₃, h₄, h₅⟩, fun ⟨h₁, h₂, h₃, h₄, h₅⟩ => ⟨h₁, h₂, h₃, h₄, h₅⟩⟩

section Generated

variable {Quantity : Type} {fmt : QuantityFormat Quantity} {vr : VLLMRuntime}

structure Parses (fmt : QuantityFormat Quantity) (spec : ResourceSpec) : Prop where
  cpu : spec.cpu ≠ "" → (fmt.parse spec.cpu).isSome
  memory : spec.memory ≠ "" → (fmt.parse spec.memory).isSome
  gpu : spec.gpu ≠ "" → (fmt.parse spec.gpu).isSome

theorem buildResources_isOk {spec : ResourceSpec} : (∃ r, buildResources fmt spec = .ok r) ↔ Parses fmt spec := by
  constructor
  · rintro ⟨r, hr⟩
    obtain ⟨r₁, hcpu, hr⟩ := bind_eq_ok.mp hr
    obtain ⟨r₂, hmemory, hgpu⟩ := bind_eq_ok.mp hr
    exact ⟨addResource_isOk.mp ⟨r₁, hcpu⟩, addResource_isOk.mp ⟨r₂, hmemory⟩, addResource_isOk.mp ⟨r, hgpu⟩⟩
  · rintro ⟨hcpu, hmemory, hgpu⟩
    obtain ⟨r₁, hr₁⟩ := addResource_isOk.mpr hcpu
    obtain ⟨r₂, hr₂⟩ := addResource_isOk.mpr hmemory
    obtain ⟨r₃, hr₃⟩ := addResource_isOk.mpr hgpu
    exact ⟨r₃, bind_eq_ok.mpr ⟨r₁, hr₁, bind_eq_ok.mpr ⟨r₂, hr₂, hr₃⟩⟩⟩

theorem parses_orElse {spec : ResourceSpec} :
    Parses fmt ⟨orElse spec.cpu "0.5", orElse spec.memory "128Mi", orElse spec.gpu "0"⟩ ↔ Parses fmt spec := by
  have horElse : ∀ {text default : String}, (fmt.parse default).isSome → default ≠ "" →
      ((orElse text default ≠ "" → (fmt.parse (orElse text default)).isSome) ↔
        (text ≠ "" → (fmt.parse text).isSome)) := by
    intro text default hparse hdefault
    by_cases htext : text = ""
    · simp [orElse, htext, hparse]
    · simp [orElse, htext]
  have hzero : (fmt.parse "0").isSome := by
    obtain ⟨q, hq, -⟩ := fmt.parse_text fmt.zero
    rw [← fmt.text_zero, hq]
    rfl
  have hcpu := @horElse spec.cpu "0.5" fmt.half (by decide)
  have hmemory := @horElse spec.memory "128Mi" fmt.mebi (by decide)
  have hgpu := @horElse spec.gpu "0" hzero (by decide)
  constructor
  · rintro ⟨h₁, h₂, h₃⟩
    exact ⟨hcpu.mp h₁, hmemory.mp h₂, hgpu.mp h₃⟩
  · rintro ⟨h₁, h₂, h₃⟩
    exact ⟨hcpu.mpr h₁, hmemory.mpr h₂, hgpu.mpr h₃⟩

structure ResourcesParse (fmt : QuantityFormat Quantity) (vr : VLLMRuntime) : Prop where
  runtime : Parses fmt vr.resources
  sidecar : vr.sidecarConfig.enabled = true → Parses fmt vr.sidecarConfig.resources

theorem deploymentForVLLMRuntime_eq_ok {g : Deployment Quantity} (h : deploymentForVLLMRuntime fmt vr = .ok g) :
    ∃ resources sidecars, buildResources fmt vr.resources = .ok resources ∧ buildSidecars fmt vr = .ok sidecars ∧
      g.replicas = some vr.replicas ∧ g.containers = vllmContainer vr resources :: sidecars := by
  obtain ⟨resources, hresources, h⟩ := bind_eq_ok.mp h
  obtain ⟨sidecars, hsidecars, h⟩ := bind_eq_ok.mp h
  cases h
  exact ⟨resources, sidecars, hresources, hsidecars, rfl, rfl⟩

theorem buildSidecars_isOk :
    (∃ sidecars, buildSidecars fmt vr = .ok sidecars) ↔
      (vr.sidecarConfig.enabled = true → Parses fmt vr.sidecarConfig.resources) := by
  rw [buildSidecars]
  split
  next henabled =>
    rw [← parses_orElse, ← buildResources_isOk]
    constructor
    · rintro ⟨sidecars, h⟩ _
      obtain ⟨sidecar, hsidecar, -⟩ := bind_eq_ok.mp h
      obtain ⟨resources, hresources, -⟩ := bind_eq_ok.mp hsidecar
      exact ⟨resources, hresources⟩
    · intro h
      obtain ⟨resources, hresources⟩ := h henabled
      exact ⟨_, bind_eq_ok.mpr ⟨_, bind_eq_ok.mpr ⟨resources, hresources, rfl⟩, rfl⟩⟩
  next henabled => exact ⟨fun _ henabled' => absurd henabled' henabled, fun _ => ⟨[], rfl⟩⟩

theorem deploymentForVLLMRuntime_isOk : (∃ g, deploymentForVLLMRuntime fmt vr = .ok g) ↔ ResourcesParse fmt vr := by
  constructor
  · rintro ⟨g, hg⟩
    obtain ⟨resources, sidecars, hresources, hsidecars, -⟩ := deploymentForVLLMRuntime_eq_ok hg
    exact ⟨buildResources_isOk.mp ⟨resources, hresources⟩, buildSidecars_isOk.mp ⟨sidecars, hsidecars⟩⟩
  · rintro ⟨hruntime, hsidecar⟩
    obtain ⟨resources, hresources⟩ := buildResources_isOk.mpr hruntime
    obtain ⟨sidecars, hsidecars⟩ := buildSidecars_isOk.mpr hsidecar
    exact ⟨_, bind_eq_ok.mpr ⟨resources, hresources, bind_eq_ok.mpr ⟨sidecars, hsidecars, rfl⟩⟩⟩

theorem serviceNeedsUpdate_isOk {svc : Service} : (∃ stale, serviceNeedsUpdate svc vr = .ok stale) ↔ svc.ports ≠ [] := by
  rw [serviceNeedsUpdate]
  cases svc.ports with
  | nil => simp
  | cons port ports => simp [em]

theorem serviceNeedsUpdate_generated : serviceNeedsUpdate (serviceForVLLMRuntime vr) vr = .ok false := by
  simp [serviceNeedsUpdate, serviceForVLLMRuntime, IntOrString.intValue]

theorem serviceSlot_quiesces_iff {o : Option Service} :
    Quiesces (serviceSlot vr).pass o ↔ ∀ svc, o = some svc → svc.ports ≠ [] := by
  have hmade : ∃ made, (serviceSlot vr).make = .ok made ∧ (serviceSlot vr).stale made = .ok false :=
    ⟨_, rfl, serviceNeedsUpdate_generated⟩
  rw [Slot.quiesces_iff, and_iff_left (.inr hmade)]
  exact forall₂_congr fun svc _ => serviceNeedsUpdate_isOk

/-- The size is written as the API prints it. -/
def CanonicalSize (fmt : QuantityFormat Quantity) (vr : VLLMRuntime) : Prop :=
  ∃ q, fmt.text q = storageSize vr

theorem pvcNeedsUpdate_eq_false_iff {pvc : PersistentVolumeClaim Quantity} :
    pvcNeedsUpdate fmt pvc vr = false ↔ fmt.text ((pvc.requests.lookup "storage").getD fmt.zero) = storageSize vr := by
  rw [pvcNeedsUpdate, decide_eq_false_iff_not, not_not, eq_comm]

theorem pvcNeedsUpdate_generated_iff :
    (∃ pvc, pvcForVLLMRuntime fmt vr = .ok pvc ∧ pvcNeedsUpdate fmt pvc vr = false) ↔ CanonicalSize fmt vr := by
  constructor
  · rintro ⟨pvc, -, hfresh⟩
    exact ⟨_, pvcNeedsUpdate_eq_false_iff.mp hfresh⟩
  · rintro ⟨q, hq⟩
    obtain ⟨size, hparse, htext⟩ := fmt.parse_text q
    rw [hq] at hparse htext
    refine ⟨_, bind_eq_ok.mpr ⟨size, mustParse_eq_ok.mpr hparse, rfl⟩, pvcNeedsUpdate_eq_false_iff.mpr ?_⟩
    rw [Finmap.lookup_insert, Option.getD_some, htext]

theorem pvcSlot_quiesces_iff {o : Option (PersistentVolumeClaim Quantity)} :
    Quiesces (pvcSlot fmt vr).pass o ↔ CanonicalSize fmt vr := by
  rw [Slot.quiesces_iff, ← pvcNeedsUpdate_generated_iff]
  simp only [pvcSlot, Except.ok.injEq, exists_eq', implies_true, true_and, or_iff_right_iff_imp]
  rintro ⟨found, -, hfresh⟩
  exact pvcNeedsUpdate_generated_iff.mpr ⟨_, pvcNeedsUpdate_eq_false_iff.mp hfresh⟩

theorem pvcPass_quiesces_iff {o : Option (PersistentVolumeClaim Quantity)} :
    Quiesces (if vr.storageConfig.enabled then (pvcSlot fmt vr).pass else skip) o ↔
      (vr.storageConfig.enabled = true → CanonicalSize fmt vr) := by
  split
  next henabled => simp [pvcSlot_quiesces_iff, henabled]
  next henabled => simp [quiesces_skip, henabled]

variable [DecidableEq Quantity]

@[mk_iff]
structure ComparedContainer (vr : VLLMRuntime) (resources : ResourceRequirements Quantity)
    (c : Container Quantity) : Prop where
  modelURL : vr.model.modelURL = c.args.headD ""
  port : ∃ port ports, c.ports = port :: ports ∧ vr.vllmConfig.port = port.containerPort
  image : vr.image.reference = c.image
  resources : resources = c.resources
  lmCache : vr.lmCacheConfig = readLMCache c.env

@[mk_iff]
structure Compared (vr : VLLMRuntime) (resources : ResourceRequirements Quantity) (d : Deployment Quantity) : Prop where
  replicas : d.replicas = some vr.replicas
  container : ∃ c rest, d.containers = c :: rest ∧ ComparedContainer vr resources c

/-- The comparison comes to an end: it looks at no more than there is. -/
@[mk_iff]
structure Comparable (vr : VLLMRuntime) (d : Deployment Quantity) : Prop where
  replicas : d.replicas ≠ none
  containers : d.replicas = some vr.replicas → d.containers ≠ []
  ports : ∀ c rest, d.replicas = some vr.replicas → d.containers = c :: rest →
    vr.model.modelURL = c.args.headD "" → c.ports ≠ []

theorem deploymentNeedsUpdate_of_ok {g d : Deployment Quantity} {resources : ResourceRequirements Quantity}
    {sidecars : List (Container Quantity)} (hg : deploymentForVLLMRuntime fmt vr = .ok g)
    (hcontainers : g.containers = vllmContainer vr resources :: sidecars) :
    (deploymentNeedsUpdate fmt d vr = .ok false ↔ Compared vr resources d) ∧
      ((∃ stale, deploymentNeedsUpdate fmt d vr = .ok stale) ↔ Comparable vr d) := by
  rw [deploymentNeedsUpdate, hg, compared_iff, comparable_iff]
  simp only [bind, Except.bind, pure, Except.pure, hcontainers]
  cases d.replicas with
  | none => simp
  | some replicas =>
    rw [differs_eq_false, differs_isOk]
    cases d.containers with
    | nil => simp
    | cons c rest =>
      rw [differs_eq_false, differs_isOk]
      cases hports : c.ports with
      | nil => simp [comparedContainer_iff, hports]
      | cons port ports =>
        simp only [differs_eq_false, differs_isOk]
        simp [comparedContainer_iff, hports, vllmContainer, em]

theorem deploymentNeedsUpdate_generated_iff {g : Deployment Quantity} (hg : deploymentForVLLMRuntime fmt vr = .ok g) :
    deploymentNeedsUpdate fmt g vr = .ok false ↔ ReadsBack vr := by
  obtain ⟨resources, sidecars, -, -, hreplicas, hcontainers⟩ := deploymentForVLLMRuntime_eq_ok hg
  rw [(deploymentNeedsUpdate_of_ok hg hcontainers).1, ← readLMCache_buildEnv_iff, eq_comm]
  constructor
  · rintro ⟨-, c, rest, hc, hcompared⟩
    rw [hcontainers] at hc
    cases hc
    exact hcompared.lmCache
  · intro hlmCache
    exact ⟨hreplicas, _, sidecars, hcontainers, rfl, ⟨_, _, rfl, rfl⟩, rfl, rfl, hlmCache⟩

def Fresh (fmt : QuantityFormat Quantity) (vr : VLLMRuntime) (d : Deployment Quantity) : Prop :=
  ∃ resources, buildResources fmt vr.resources = .ok resources ∧ Compared vr resources d

theorem deploymentNeedsUpdate_eq_false_iff {d : Deployment Quantity} :
    deploymentNeedsUpdate fmt d vr = .ok false ↔ ResourcesParse fmt vr ∧ Fresh fmt vr d := by
  rw [← deploymentForVLLMRuntime_isOk]
  constructor
  · intro h
    obtain ⟨g, hg, -⟩ := bind_eq_ok.mp h
    obtain ⟨resources, sidecars, hresources, -, -, hcontainers⟩ := deploymentForVLLMRuntime_eq_ok hg
    exact ⟨⟨g, hg⟩, resources, hresources, (deploymentNeedsUpdate_of_ok hg hcontainers).1.mp h⟩
  · rintro ⟨⟨g, hg⟩, resources, hresources, hcompared⟩
    obtain ⟨resources', sidecars, hresources', -, -, hcontainers⟩ := deploymentForVLLMRuntime_eq_ok hg
    rw [hresources] at hresources'
    cases hresources'
    exact (deploymentNeedsUpdate_of_ok hg hcontainers).1.mpr hcompared

theorem deploymentSlot_quiesces_iff {o : Option (Deployment Quantity)} :
    Quiesces (deploymentSlot fmt vr).pass o ↔ ResourcesParse fmt vr ∧ (∀ d, o = some d → Comparable vr d) ∧
      ((∃ d, o = some d ∧ Fresh fmt vr d) ∨ ReadsBack vr) := by
  rw [Slot.quiesces_iff]
  by_cases hparse : ResourcesParse fmt vr
  · obtain ⟨g, hg⟩ := deploymentForVLLMRuntime_isOk.mpr hparse
    obtain ⟨resources, sidecars, -, -, -, hcontainers⟩ := deploymentForVLLMRuntime_eq_ok hg
    have hmade : (∃ made, (deploymentSlot fmt vr).make = .ok made ∧
        (deploymentSlot fmt vr).stale made = .ok false) ↔ ReadsBack vr := by
      simp only [deploymentSlot, hg, Except.ok.injEq, exists_eq_left']
      exact deploymentNeedsUpdate_generated_iff hg
    have hfound : ∀ d, (∃ stale, (deploymentSlot fmt vr).stale d = .ok stale) ↔ Comparable vr d :=
      fun d => (deploymentNeedsUpdate_of_ok hg hcontainers).2
    have hfresh : ∀ d, (deploymentSlot fmt vr).stale d = .ok false ↔ Fresh fmt vr d :=
      fun d => deploymentNeedsUpdate_eq_false_iff.trans (and_iff_right hparse)
    rw [hmade]
    simp only [hfound, hfresh, hparse, true_and]
  · -- Nothing is made, and no comparison gets past making what it expects.
    refine iff_of_false ?_ (fun h => hparse h.1)
    rintro ⟨-, ⟨d, -, hfresh⟩ | ⟨g, hg, -⟩⟩
    · exact hparse (deploymentNeedsUpdate_eq_false_iff.mp hfresh).1
    · exact hparse (deploymentForVLLMRuntime_isOk.mp ⟨g, hg⟩)

structure GeneratedFresh (fmt : QuantityFormat Quantity) (vr : VLLMRuntime) : Prop where
  service : serviceNeedsUpdate (serviceForVLLMRuntime vr) vr = .ok false
  pvc : vr.storageConfig.enabled = true →
    ∃ pvc, pvcForVLLMRuntime fmt vr = .ok pvc ∧ pvcNeedsUpdate fmt pvc vr = false
  deployment : ∃ g, deploymentForVLLMRuntime fmt vr = .ok g ∧ deploymentNeedsUpdate fmt g vr = .ok false

theorem generatedFresh_iff :
    GeneratedFresh fmt vr ↔
      (vr.storageConfig.enabled = true → CanonicalSize fmt vr) ∧ ResourcesParse fmt vr ∧ ReadsBack vr := by
  constructor
  · rintro ⟨-, hpvc, g, hg, hfresh⟩
    exact ⟨fun henabled => pvcNeedsUpdate_generated_iff.mp (hpvc henabled),
      deploymentForVLLMRuntime_isOk.mp ⟨g, hg⟩, (deploymentNeedsUpdate_generated_iff hg).mp hfresh⟩
  · rintro ⟨hsize, hparse, hback⟩
    obtain ⟨g, hg⟩ := deploymentForVLLMRuntime_isOk.mpr hparse
    exact ⟨serviceNeedsUpdate_generated, fun henabled => pvcNeedsUpdate_generated_iff.mpr (hsize henabled),
      g, hg, (deploymentNeedsUpdate_generated_iff hg).mpr hback⟩

/-- Calls of Reconcile come to rest when what is found can be compared, the texts of the spec are
quantities, the size is canonical, and the environment gives LMCache's part of the spec back (or
the deployment that is there already does). -/
theorem reconcile_quiesces_iff (fmt : QuantityFormat Quantity) (vr : VLLMRuntime) (cluster : Cluster Quantity) :
    (Quiesces (reconcile fmt vr) cluster ↔
      (∀ svc, cluster.1 = some svc → svc.ports ≠ []) ∧
      (vr.storageConfig.enabled = true → CanonicalSize fmt vr) ∧ ResourcesParse fmt vr ∧
      (∀ d, cluster.2.2 = some d → Comparable vr d) ∧
      ((∃ d, cluster.2.2 = some d ∧ Fresh fmt vr d) ∨ ReadsBack vr)) ∧
    (GeneratedFresh fmt vr ↔
      (vr.storageConfig.enabled = true → CanonicalSize fmt vr) ∧ ResourcesParse fmt vr ∧ ReadsBack vr) := by
  refine ⟨?_, generatedFresh_iff⟩
  rw [reconcile, quiesces_both_iff, quiesces_both_iff, serviceSlot_quiesces_iff, pvcPass_quiesces_iff,
    deploymentSlot_quiesces_iff]

end Generated

def textFormat : QuantityFormat String where
  parse := some
  text := id
  zero := "0"
  parse_text := fun q => ⟨q, rfl, rfl⟩
  text_zero := rfl
  half := rfl
  mebi := rfl

def llamaRuntime : VLLMRuntime :=
  { name := "llama"
    namespaceName := "default"
    model := { modelURL := "meta-llama/Llama-3.1-8B" }
    vllmConfig := { port := 8000 }
    lmCacheConfig := { enabled := false, cpuOffloadingBufferSize := "4Gi", diskOffloadingBufferSize := "8Gi" }
    replicas := 1
    image := { registry := "docker.io", name := "lmcache/vllm-openai:latest" } }

theorem not_readsBack_llamaRuntime : ¬ReadsBack llamaRuntime := by
  intro h
  exact absurd (h.cpu.2 rfl (by decide)) (by decide)

/-- From nothing, the deployment is created and then updated for ever. -/
theorem disabled_cache_never_quiesces :
    (∃ g, deploymentForVLLMRuntime textFormat llamaRuntime = .ok g ∧
      deploymentNeedsUpdate textFormat g llamaRuntime = .ok true) ∧
    ¬Quiesces (reconcile textFormat llamaRuntime) (none, none, none) := by
  constructor
  · exact ⟨_, rfl, rfl⟩
  · rw [reconcile, quiesces_both_iff, quiesces_both_iff, deploymentSlot_quiesces_iff]
    rintro ⟨-, -, -, -, ⟨d, hd, -⟩ | hback⟩
    · cases hd
    · exact not_readsBack_llamaRuntime hback

end ProductionStack.VLLMRuntimeController
