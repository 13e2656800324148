import ProductionStack.ConfigWatcher
import ProductionStack.Startup

namespace ProductionStack.UnchangedConfig

open Runs RouterConfig Reconfigure ConfigWatcher Startup

/-- Four fields of the dataclass are not copied and keep its defaults. -/
def fromArgs (args : Args) : DynamicRouterConfig where
  serviceDiscovery := args.serviceDiscovery.getD "None"
  staticBackends := args.staticBackends
  staticModels := args.staticModels
  staticModelTypes := args.staticModelTypes
  staticAliases := args.staticAliases
  k8sPort := args.k8sPort
  k8sNamespace := args.k8sNamespace
  k8sLabelSelector := args.k8sLabelSelector
  routingLogic := args.routingLogic.getD "None"
  sessionKey := args.sessionKey
  callbacks := args.callbacks

/-- The watcher as initialize_all leaves it. -/
def initWatcher (file : ConfigFile) (s : System) : Watcher := ⟨fromArgs (loadInitialConfig file), s⟩

def sameFile (file : ConfigFile) (envs : List Env) : List Round := envs.map (fun env => ⟨fromFile file, env⟩)

structure NeverReconfigures (file : ConfigFile) : Prop where
  equal : fromFile file = .ok (fromArgs (loadInitialConfig file))
  idle : ∀ s envs, final watchWorker (initWatcher file s) (sameFile file envs) = initWatcher file s

/-- The keys that from_args copies under another default are given, the ones it does not copy are not. -/
structure Mirrored (file : ConfigFile) : Prop where
  keys : file.startupOnly = {} ∧ file.otherKeys = []
  k8s : file.k8sPort ≠ none ∧ file.k8sNamespace ≠ none ∧ file.k8sLabelSelector ≠ none
  modelLabels : file.staticModelLabels.getD none = none
  healthChecks : file.staticBackendHealthChecks.getD (some false) = some false
  labels : NoLabels file

theorem toConfig_eq_fromArgs_iff {file : ConfigFile} {d r : String} (hd : file.serviceDiscovery = some (some d))
    (hr : file.routingLogic = some (some r)) :
    toConfig file d r = fromArgs (loadInitialConfig file) ↔
      (file.k8sPort ≠ none ∧ file.k8sNamespace ≠ none ∧ file.k8sLabelSelector ≠ none) ∧
        file.staticModelLabels.getD none = none ∧
        file.staticBackendHealthChecks.getD (some false) = some false ∧ NoLabels file := by
  simp only [toConfig, fromArgs, loadInitialConfig, DynamicRouterConfig.mk.injEq, hd, hr, Option.getD_some,
    entry_default_iff, NoLabels, true_and, and_true]
  tauto

theorem fromFile_eq_fromArgs_iff {file : ConfigFile} {d r : String} (hd : file.serviceDiscovery = some (some d))
    (hr : file.routingLogic = some (some r)) : fromFile file = .ok (fromArgs (loadInitialConfig file)) ↔ Mirrored file := by
  have hagree := toConfig_eq_fromArgs_iff hd hr
  simp only [fromFile, hd, hr, Option.getD_some]
  constructor
  · intro h
    split at h
    next hkeys =>
      obtain ⟨hk8s, hmodel, hhealth, hlabels⟩ := hagree.mp (Except.ok.inj h)
      exact ⟨hkeys, hk8s, hmodel, hhealth, hlabels⟩
    · cases h
  · intro h
    rw [if_pos h.keys, hagree.mpr ⟨h.k8s, h.modelLabels, h.healthChecks, h.labels⟩]

theorem watchWorker_equal {w : Watcher} {round : Round} (h : round.loaded = .ok w.currentConfig) :
    (watchWorker w round).2 = w := by
  simp [watchWorker, h]

theorem idle_of_equal {file : ConfigFile} (h : fromFile file = .ok (fromArgs (loadInitialConfig file))) (s : System)
    (envs : List Env) : final watchWorker (initWatcher file s) (sameFile file envs) = initWatcher file s := by
  induction envs with
  | nil => rfl
  | cons env envs ih =>
    have hround : (watchWorker (initWatcher file s) ⟨fromFile file, env⟩).2 = initWatcher file s :=
      watchWorker_equal h
    rw [sameFile, List.map_cons, final_cons, hround]
    exact ih

/-- The file from which the router starts is read back as what it was started with. -/
theorem never_reconfigures_iff (file : ConfigFile) (params : Params) (h : startup file = .ok params) :
    NeverReconfigures file ↔ Mirrored file := by
  obtain ⟨_, hvalid, -⟩ := bind_eq_ok.mp h
  obtain ⟨d, r, hd, hr⟩ := validateArgs_required hvalid
  rw [← fromFile_eq_fromArgs_iff hd hr]
  exact ⟨fun hnever => hnever.equal, fun hequal => ⟨hequal, idle_of_equal hequal⟩⟩

def completeFile : ConfigFile :=
  { serviceDiscovery := some (some "k8s")
    routingLogic := some (some "roundrobin")
    k8sPort := some (some 8000)
    k8sNamespace := some (some "default")
    k8sLabelSelector := some (some "app=vllm") }

theorem complete_file_never_reconfigures : NeverReconfigures completeFile :=
  (never_reconfigures_iff completeFile
    ⟨.k8sPodIp ⟨some "default", some 8000, some "app=vllm", none, none, some 0, some 10⟩, .roundRobin⟩ rfl).mpr
    ⟨⟨rfl, rfl⟩, by decide, rfl, rfl, rfl, rfl⟩

/-- The file of static backends says nothing of the Kubernetes keys, whose defaults differ. -/
theorem static_file_reconfigures :
    ¬ ∀ (file : ConfigFile) (params : Params), startup file = .ok params → NeverReconfigures file := by
  intro h
  have hnever := h staticFile ⟨.static ⟨["http://localhost:8000"], some ["llama"], none, none, none, some false,
    none, none⟩, .session "x-user-id"⟩ rfl
  have hport := congrArg DynamicRouterConfig.k8sPort (Except.ok.inj hnever.equal)
  cases hport

end ProductionStack.UnchangedConfig
