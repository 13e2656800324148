import Mathlib.Data.Rat.Defs
import ProductionStack.RouterConfig

namespace ProductionStack.Startup

open StaticLists RouterConfig

/-- A key of the file is absent, null, or has a value. -/
abbrev Entry (α : Type) := Option (Option α)

/-- The keys that only the command line knows, as far as they are read below. -/
structure StartupOnly where
  k8sServiceDiscoveryType : Entry String := none
  k8sWatcherTimeoutSeconds : Entry Int := none
  backendHealthCheckTimeoutSeconds : Entry Int := none
  lmcacheControllerPort : Entry Int := none
  kvAwareThreshold : Entry Int := none
  logStats : Entry Bool := none
  logStatsInterval : Entry Int := none
  engineStatsInterval : Entry Int := none
  requestStatsWindow : Entry Int := none
  sentryTracesSampleRate : Entry ℚ := none
  sentryProfileSessionSampleRate : Entry ℚ := none
  deriving DecidableEq

/-- A dynamic config file after reading, with the names of all its other keys. -/
structure ConfigFile where
  serviceDiscovery : Entry String := none
  routingLogic : Entry String := none
  staticBackends : Entry String := none
  staticModels : Entry String := none
  staticAliases : Entry String := none
  staticModelLabels : Entry String := none
  staticModelTypes : Entry String := none
  staticBackendHealthChecks : Entry Bool := none
  prefillModelLabels : Entry String := none
  decodeModelLabels : Entry String := none
  k8sPort : Entry Int := none
  k8sNamespace : Entry String := none
  k8sLabelSelector : Entry String := none
  sessionKey : Entry String := none
  callbacks : Entry String := none
  startupOnly : StartupOnly := {}
  otherKeys : List String := []
  deriving DecidableEq

structure Args where
  serviceDiscovery : Option String
  k8sServiceDiscoveryType : Option String
  staticBackends : Option String
  staticModels : Option String
  staticAliases : Option String
  staticModelTypes : Option String
  staticModelLabels : Option String
  staticBackendHealthChecks : Option Bool
  k8sPort : Option Int
  k8sNamespace : Option String
  k8sLabelSelector : Option String
  k8sWatcherTimeoutSeconds : Option Int
  backendHealthCheckTimeoutSeconds : Option Int
  routingLogic : Option String
  lmcacheControllerPort : Option Int
  sessionKey : Option String
  callbacks : Option String
  engineStatsInterval : Option Int
  requestStatsWindow : Option Int
  logStats : Option Bool
  logStatsInterval : Option Int
  sentryTracesSampleRate : Option ℚ
  sentryProfileSessionSampleRate : Option ℚ
  prefillModelLabels : Option String
  decodeModelLabels : Option String
  kvAwareThreshold : Option Int

def tenth : ℚ := ⟨1, 10, by decide, by decide⟩

def loadInitialConfig (file : ConfigFile) : Args where
  serviceDiscovery := file.serviceDiscovery.getD none
  k8sServiceDiscoveryType := file.startupOnly.k8sServiceDiscoveryType.getD none
  staticBackends := file.staticBackends.getD none
  staticModels := file.staticModels.getD none
  staticAliases := file.staticAliases.getD none
  staticModelTypes := file.staticModelTypes.getD none
  staticModelLabels := file.staticModelLabels.getD none
  staticBackendHealthChecks := file.staticBackendHealthChecks.getD (some false)
  k8sPort := file.k8sPort.getD (some 8000)
  k8sNamespace := file.k8sNamespace.getD (some "default")
  k8sLabelSelector := file.k8sLabelSelector.getD (some "")
  k8sWatcherTimeoutSeconds := file.startupOnly.k8sWatcherTimeoutSeconds.getD (some 0)
  backendHealthCheckTimeoutSeconds := file.startupOnly.backendHealthCheckTimeoutSeconds.getD (some 10)
  routingLogic := file.routingLogic.getD none
  lmcacheControllerPort := file.startupOnly.lmcacheControllerPort.getD (some 9000)
  sessionKey := file.sessionKey.getD none
  callbacks := file.callbacks.getD none
  engineStatsInterval := file.startupOnly.engineStatsInterval.getD (some 30)
  requestStatsWindow := file.startupOnly.requestStatsWindow.getD (some 60)
  logStats := file.startupOnly.logStats.getD (some false)
  logStatsInterval := file.startupOnly.logStatsInterval.getD (some 10)
  sentryTracesSampleRate := file.startupOnly.sentryTracesSampleRate.getD (some tenth)
  sentryProfileSessionSampleRate := file.startupOnly.sentryProfileSessionSampleRate.getD (some 1)
  prefillModelLabels := file.prefillModelLabels.getD none
  decodeModelLabels := file.decodeModelLabels.getD none
  kvAwareThreshold := file.startupOnly.kvAwareThreshold.getD (some 2000)

def modelTypes : List String :=
  ["chat", "completion", "embeddings", "rerank", "score", "transcription", "vision"]

def require (condition : Bool) (e : Exc) : Except Exc Unit := if condition then .ok () else .error e

def validateModelType (modelType : String) : Except Exc Unit :=
  require (modelType ∈ modelTypes) (.valueError ("The model type '" ++ modelType ++
    "' is not supported. Supported model types are '" ++ ",".intercalate modelTypes ++ "'"))

def validateStaticModelTypes : Option String → Except Exc Unit
  | none => .error (.valueError "Static model types must be provided when using the backend healthcheck.")
  | some types => (split ',' types).forM validateModelType

def verifyRequiredArgsProvided (args : Args) : Except Exc Unit := do
  require (truthy args.routingLogic).isSome (.systemExit 1)
  require (truthy args.serviceDiscovery).isSome (.systemExit 1)

def requirePositive (value : Option Int) (msg : String) : Except Exc Unit :=
  match value with
  | none => .error .typeError
  | some n => require (0 < n) (.valueError msg)

def requireRate (value : Option ℚ) (msg : String) : Except Exc Unit :=
  match value with
  | none => .error .typeError
  | some rate => require (0 ≤ rate && rate ≤ 1) (.valueError msg)

def validateStatic (args : Args) : Except Exc Unit := do
  require args.staticBackends.isSome
    (.valueError "Static backends must be provided when using static service discovery.")
  require args.staticModels.isSome
    (.valueError "Static models must be provided when using static service discovery.")
  if args.staticBackendHealthChecks = some true then validateStaticModelTypes args.staticModelTypes

def validateArgs (args : Args) : Except Exc Unit := do
  verifyRequiredArgsProvided args
  if args.serviceDiscovery = some "static" then validateStatic args
  require (!(args.serviceDiscovery = some "k8s" && args.k8sPort = none))
    (.valueError "K8s port must be provided when using K8s service discovery.")
  require (!(args.routingLogic = some "session" && args.sessionKey = none))
    (.valueError "Session key must be provided when using session routing logic.")
  if args.logStats = some true then
    requirePositive args.logStatsInterval "Log stats interval must be greater than 0."
  requirePositive args.engineStatsInterval "Engine stats interval must be greater than 0."
  requirePositive args.requestStatsWindow "Request stats window must be greater than 0."
  requireRate args.sentryTracesSampleRate "Sentry traces sample rate must be between 0.0 and 1.0."
  requireRate args.sentryProfileSessionSampleRate
    "Sentry profile session sample rate must be between 0.0 and 1.0."

def rawLabels (labels : Option String) : Option Labels := labels.map .raw

def startupStaticArgs (args : Args) (urls : List String) (aliases : Option (Dict String String)) : StaticArgs where
  urls := urls
  models := parseCommaSeparatedArgs args.staticModels
  aliases := aliases
  modelLabels := parseCommaSeparatedArgs (truthy args.staticModelLabels)
  modelTypes := parseCommaSeparatedArgs (truthy args.staticModelTypes)
  staticBackendHealthChecks := args.staticBackendHealthChecks
  prefillModelLabels := rawLabels args.prefillModelLabels
  decodeModelLabels := rawLabels args.decodeModelLabels

def startupK8sArgs (args : Args) : K8sArgs where
  namespaceName := args.k8sNamespace
  port := args.k8sPort
  labelSelector := args.k8sLabelSelector
  prefillModelLabels := rawLabels args.prefillModelLabels
  decodeModelLabels := rawLabels args.decodeModelLabels
  watcherTimeoutSeconds := args.k8sWatcherTimeoutSeconds
  healthCheckTimeoutSeconds := args.backendHealthCheckTimeoutSeconds

def startupDiscoveryArgs (args : Args) : Except Exc DiscoveryArgs :=
  if args.serviceDiscovery = some "static" then do
    let urls ← parseStaticUrls args.staticBackends
    let aliases ← parseAliases args.staticAliases
    return .static (startupStaticArgs args urls aliases)
  else if args.serviceDiscovery = some "k8s" then .ok (.k8s args.k8sServiceDiscoveryType (startupK8sArgs args))
  else .error (invalidServiceDiscovery (args.serviceDiscovery.getD "None"))

def startupKwargs (args : Args) : RoutingKwargs where
  sessionKey := args.sessionKey
  lmcacheControllerPort := args.lmcacheControllerPort
  prefillModelLabels := rawLabels args.prefillModelLabels
  decodeModelLabels := rawLabels args.decodeModelLabels
  kvAwareThreshold := args.kvAwareThreshold

structure Params where
  discovery : DiscoveryParams
  router : RouterParams

def routerFor (routingLogic : String) (kwargs : RoutingKwargs) : Except Exc RouterParams :=
  match RoutingLogic.ofString routingLogic with
  | none => .error (invalidRoutingLogic routingLogic)
  | some logic => routerParams kwargs logic

/-- Starting the router from the file, where the Kubernetes client finds its configuration. -/
def startup (file : ConfigFile) : Except Exc Params := do
  let args := loadInitialConfig file
  validateArgs args
  let discovery ← createServiceDiscovery (.ok ()) (← startupDiscoveryArgs args)
  let router ← routerFor (args.routingLogic.getD "None") (startupKwargs args)
  return ⟨discovery, router⟩

def toConfig (file : ConfigFile) (serviceDiscovery routingLogic : String) : DynamicRouterConfig where
  serviceDiscovery := serviceDiscovery
  routingLogic := routingLogic
  staticBackends := file.staticBackends.getD none
  staticModels := file.staticModels.getD none
  staticAliases := file.staticAliases.getD none
  staticModelLabels := file.staticModelLabels.getD none
  staticModelTypes := file.staticModelTypes.getD none
  staticBackendHealthChecks := file.staticBackendHealthChecks.getD (some false)
  prefillModelLabels := file.prefillModelLabels.getD none
  decodeModelLabels := file.decodeModelLabels.getD none
  k8sPort := file.k8sPort.getD none
  k8sNamespace := file.k8sNamespace.getD none
  k8sLabelSelector := file.k8sLabelSelector.getD none
  sessionKey := file.sessionKey.getD none
  callbacks := file.callbacks.getD none

/-- A key that is no field of the dataclass, or a missing required one, is a TypeError. -/
def fromFile (file : ConfigFile) : Except Exc DynamicRouterConfig :=
  match file.serviceDiscovery, file.routingLogic with
  | some serviceDiscovery, some routingLogic =>
    if file.startupOnly = {} ∧ file.otherKeys = [] then
      .ok (toConfig file (serviceDiscovery.getD "None") (routingLogic.getD "None"))
    else .error .typeError
  | _, _ => .error .typeError

def reload (file : ConfigFile) : Except Exc Params := do
  let config ← fromFile file
  let discovery ← createServiceDiscovery (.ok ()) (← reloadDiscoveryArgs config)
  let router ← routerFor config.routingLogic (reloadKwargs config)
  return ⟨discovery, router⟩

def NoLabels (file : ConfigFile) : Prop :=
  file.prefillModelLabels.getD none = none ∧ file.decodeModelLabels.getD none = none

structure Reloadable (file : ConfigFile) : Prop where
  keys : file.startupOnly = {} ∧ file.otherKeys = []
  labels : NoLabels file
  routing : file.routingLogic ≠ some (some "kvaware")
  static : file.serviceDiscovery = some (some "static") →
    file.staticModelTypes ≠ some (some "") ∧ file.staticModelLabels ≠ some (some "")
  k8s : file.serviceDiscovery = some (some "k8s") →
    file.k8sPort ≠ none ∧ file.k8sNamespace ≠ none ∧ file.k8sLabelSelector ≠ none

theorem require_ok {condition : Bool} {e : Exc} {u : Unit} (h : require condition e = .ok u) : condition = true := by
  cases condition with
  | true => rfl
  | false => cases h

theorem truthy_isSome {text : Option String} (h : (truthy text).isSome = true) : ∃ s, text = some s ∧ s ≠ "" := by
  rw [truthy.eq_def] at h
  split at h
  · cases h
  next hne =>
    obtain ⟨s, rfl⟩ := Option.isSome_iff_exists.mp h
    refine ⟨s, rfl, ?_⟩
    rintro rfl
    exact hne rfl

theorem entry_getD_none {α : Type} {entry : Entry α} {a : α} (h : entry.getD none = some a) : entry = some (some a) := by
  cases entry with
  | none => cases h
  | some value => exact congrArg some h

theorem validateArgs_required {file : ConfigFile} {u : Unit} (h : validateArgs (loadInitialConfig file) = .ok u) :
    ∃ d r, file.serviceDiscovery = some (some d) ∧ file.routingLogic = some (some r) := by
  obtain ⟨_, hrequired, -⟩ := bind_eq_ok.mp h
  obtain ⟨_, hrouting, hdiscovery⟩ := bind_eq_ok.mp hrequired
  obtain ⟨r, hr, -⟩ := truthy_isSome (require_ok hrouting)
  obtain ⟨d, hd, -⟩ := truthy_isSome (require_ok hdiscovery)
  exact ⟨d, r, entry_getD_none hd, entry_getD_none hr⟩

theorem splitTypes_eq_iff (text : Option String) :
    parseCommaSeparatedArgs text = parseCommaSeparatedArgs (truthy text) ↔ text ≠ some "" := by
  rw [truthy.eq_def]
  split
  · simp [parseCommaSeparatedArgs]
  next hne => simpa using hne

theorem labels_eq_iff (labels : Option String) : splitLabels labels = rawLabels labels ↔ labels = none := by
  cases labels <;> simp [splitLabels, rawLabels, parseCommaSeparatedArgs]

theorem create_static {args : StaticArgs} {params : DiscoveryParams}
    (h : createServiceDiscovery (.ok ()) (.static args) = .ok params) :
    params = .static args ∧ ∃ models, args.models = some models ∧ args.urls.length = models.length := by
  rw [createServiceDiscovery] at h
  split at h
  · cases h
  next models hmodels =>
    split at h
    next hlength =>
      cases h
      exact ⟨rfl, models, hmodels, hlength⟩
    · cases h

theorem create_static_of {args : StaticArgs} {models : List String} (hmodels : args.models = some models)
    (hlength : args.urls.length = models.length) : createServiceDiscovery (.ok ()) (.static args) = .ok (.static args) := by
  simp [createServiceDiscovery, hmodels, hlength]

theorem entry_default_iff {α : Type} (entry : Entry α) (a : α) : entry.getD none = entry.getD (some a) ↔ entry ≠ none := by
  cases entry <;> simp

theorem entry_getD_ne_iff {entry : Entry String} {a : String} : entry.getD none ≠ some a ↔ entry ≠ some (some a) := by
  cases entry <;> simp

theorem staticArgs_agree_iff (file : ConfigFile) (d r : String) (urls : List String) (aliases : Option (Dict String String)) :
    reloadStaticArgs (toConfig file d r) urls aliases =
        startupStaticArgs (loadInitialConfig file) urls aliases ↔
      NoLabels file ∧ file.staticModelTypes ≠ some (some "") ∧ file.staticModelLabels ≠ some (some "") := by
  simp only [reloadStaticArgs, startupStaticArgs, toConfig, loadInitialConfig, StaticArgs.mk.injEq,
    splitTypes_eq_iff, labels_eq_iff, entry_getD_ne_iff, NoLabels, true_and]
  tauto

theorem static_agrees {file : ConfigFile} (r : String) {args : DiscoveryArgs} {params : DiscoveryParams}
    (hfile : file.serviceDiscovery = some (some "static")) (hargs : startupDiscoveryArgs (loadInitialConfig file) = .ok args)
    (hcreate : createServiceDiscovery (.ok ()) args = .ok params) :
    reloadDiscoveryArgs (toConfig file "static" r) >>= createServiceDiscovery (.ok ()) = .ok params ↔
      NoLabels file ∧ file.staticModelTypes ≠ some (some "") ∧ file.staticModelLabels ≠ some (some "") := by
  have hstatic : (loadInitialConfig file).serviceDiscovery = some "static" := by
    simp [loadInitialConfig, hfile]
  rw [startupDiscoveryArgs, if_pos hstatic] at hargs
  obtain ⟨urls, hurls, hargs⟩ := bind_eq_ok.mp hargs
  obtain ⟨aliases, haliases, hargs⟩ := bind_eq_ok.mp hargs
  cases hargs
  obtain ⟨rfl, models, hmodels, hlength⟩ := create_static hcreate
  have hreload : reloadDiscoveryArgs (toConfig file "static" r) =
      .ok (.static (reloadStaticArgs (toConfig file "static" r) urls aliases)) := by
    have hd : (toConfig file "static" r).serviceDiscovery = "static" := rfl
    rw [reloadDiscoveryArgs, if_pos hd]
    exact bind_eq_ok.mpr ⟨urls, hurls, bind_eq_ok.mpr ⟨aliases, haliases, rfl⟩⟩
  have hcreated : createServiceDiscovery (.ok ())
      (.static (reloadStaticArgs (toConfig file "static" r) urls aliases)) =
      .ok (.static (reloadStaticArgs (toConfig file "static" r) urls aliases)) :=
    create_static_of hmodels hlength
  rw [← staticArgs_agree_iff file "static" r urls aliases, bind_eq_ok, hreload]
  simp only [Except.ok.injEq, exists_eq_left', hcreated, DiscoveryParams.static.injEq]

theorem k8sArgs_agree_iff {file : ConfigFile} (d r : String) (hkeys : file.startupOnly = {}) :
    reloadK8sArgs (toConfig file d r) = startupK8sArgs (loadInitialConfig file) ↔
      NoLabels file ∧ file.k8sPort ≠ none ∧ file.k8sNamespace ≠ none ∧ file.k8sLabelSelector ≠ none := by
  simp only [reloadK8sArgs, startupK8sArgs, toConfig, loadInitialConfig, K8sArgs.mk.injEq, hkeys,
    entry_default_iff, labels_eq_iff, Option.getD_none, NoLabels, and_true]
  tauto

theorem k8s_agrees {file : ConfigFile} (r : String) {args : DiscoveryArgs} {params : DiscoveryParams}
    (hkeys : file.startupOnly = {}) (hfile : file.serviceDiscovery = some (some "k8s"))
    (hargs : startupDiscoveryArgs (loadInitialConfig file) = .ok args)
    (hcreate : createServiceDiscovery (.ok ()) args = .ok params) :
    reloadDiscoveryArgs (toConfig file "k8s" r) >>= createServiceDiscovery (.ok ()) = .ok params ↔
      NoLabels file ∧ file.k8sPort ≠ none ∧ file.k8sNamespace ≠ none ∧ file.k8sLabelSelector ≠ none := by
  have hk8s : (loadInitialConfig file).serviceDiscovery = some "k8s" := by
    simp [loadInitialConfig, hfile]
  have htype : (loadInitialConfig file).k8sServiceDiscoveryType = none := by
    simp [loadInitialConfig, hkeys]
  have hreload : reloadDiscoveryArgs (toConfig file "k8s" r) >>= createServiceDiscovery (.ok ()) =
      .ok (.k8sPodIp (reloadK8sArgs (toConfig file "k8s" r))) := by
    have hd : (toConfig file "k8s" r).serviceDiscovery = "k8s" := rfl
    have hpodIp : normalizedType (some "pod-ip") ≠ "service-name" := by decide
    rw [reloadDiscoveryArgs, hd]
    exact congrArg Except.ok (if_neg hpodIp)
  rw [startupDiscoveryArgs, hk8s, htype] at hargs
  cases hargs
  cases hcreate
  rw [hreload, ← k8sArgs_agree_iff "k8s" r hkeys]
  simp [normalizedType]

theorem ofString_kvaware {routingLogic : String} (h : RoutingLogic.ofString routingLogic = some .kvaware) :
    routingLogic = "kvaware" := by
  rw [RoutingLogic.ofString.eq_def] at h
  split at h <;> simp_all

theorem router_agrees {file : ConfigFile} (d : String) {r : String} {params : RouterParams} (hkeys : file.startupOnly = {})
    (hlabels : NoLabels file) (hrouter : routerFor r (startupKwargs (loadInitialConfig file)) = .ok params) :
    routerFor r (reloadKwargs (toConfig file d r)) = .ok params ↔ r ≠ "kvaware" := by
  rw [routerFor] at hrouter ⊢
  cases hlogic : RoutingLogic.ofString r with
  | none =>
    rw [hlogic] at hrouter
    cases hrouter
  | some logic =>
    rw [hlogic] at hrouter
    by_cases hkv : logic = .kvaware
    · subst hkv
      cases hrouter
      simp [ofString_kvaware hlogic, routerParams, reloadKwargs, loadInitialConfig, hkeys, startupKwargs]
    · have hne : r ≠ "kvaware" := by
        rintro rfl
        cases hlogic
        exact hkv rfl
      simp only [hne, ne_eq, not_false_eq_true, iff_true]
      rw [← hrouter]
      cases logic with
      | kvaware => exact absurd rfl hkv
      | disaggregatedPrefill =>
        simp [routerParams, reloadKwargs, startupKwargs, loadInitialConfig, rawLabels, hlabels.1, hlabels.2]
      | _ => rfl

theorem startupDiscoveryArgs_kind {args : Args} {discoveryArgs : DiscoveryArgs}
    (h : startupDiscoveryArgs args = .ok discoveryArgs) :
    args.serviceDiscovery = some "static" ∨ args.serviceDiscovery = some "k8s" := by
  rw [startupDiscoveryArgs] at h
  split at h
  next hstatic => exact .inl hstatic
  · split at h
    next hk8s => exact .inr hk8s
    · cases h

theorem reload_ok_iff {file : ConfigFile} {d r : String} (hd : file.serviceDiscovery = some (some d))
    (hr : file.routingLogic = some (some r)) (params : Params) :
    reload file = .ok params ↔ (file.startupOnly = {} ∧ file.otherKeys = []) ∧
      reloadDiscoveryArgs (toConfig file d r) >>= createServiceDiscovery (.ok ()) = .ok params.discovery ∧
      routerFor r (reloadKwargs (toConfig file d r)) = .ok params.router := by
  constructor
  · intro h
    obtain ⟨config, hconfig, h⟩ := bind_eq_ok.mp h
    simp only [fromFile, hd, hr] at hconfig
    split at hconfig
    next hkeys =>
      cases hconfig
      obtain ⟨args, hargs, h⟩ := bind_eq_ok.mp h
      obtain ⟨discovery, hcreate, h⟩ := bind_eq_ok.mp h
      obtain ⟨router, hrouter, h⟩ := bind_eq_ok.mp h
      cases h
      exact ⟨hkeys, bind_eq_ok.mpr ⟨args, hargs, hcreate⟩, hrouter⟩
    · cases hconfig
  · rintro ⟨hkeys, hdiscovery, hrouter⟩
    obtain ⟨args, hargs, hcreate⟩ := bind_eq_ok.mp hdiscovery
    have hconfig : fromFile file = .ok (toConfig file d r) := by
      simp [fromFile, hd, hr, hkeys]
    exact bind_eq_ok.mpr ⟨_, hconfig, bind_eq_ok.mpr ⟨args, hargs, bind_eq_ok.mpr ⟨_, hcreate,
      bind_eq_ok.mpr ⟨_, hrouter, rfl⟩⟩⟩⟩

theorem reload_agrees_iff (file : ConfigFile) (params : Params) (h : startup file = .ok params) :
    reload file = .ok params ↔ Reloadable file := by
  obtain ⟨_, hvalid, h⟩ := bind_eq_ok.mp h
  obtain ⟨args, hargs, h⟩ := bind_eq_ok.mp h
  obtain ⟨discovery, hcreate, h⟩ := bind_eq_ok.mp h
  obtain ⟨router, hrouter, h⟩ := bind_eq_ok.mp h
  cases h
  obtain ⟨d, r, hd, hr⟩ := validateArgs_required hvalid
  have hlogic : (loadInitialConfig file).routingLogic.getD "None" = r := by
    simp [loadInitialConfig, hr]
  rw [hlogic] at hrouter
  rw [reload_ok_iff hd hr]
  rcases startupDiscoveryArgs_kind hargs with hkind | hkind
  · have hstatic := entry_getD_none hkind
    rw [hstatic] at hd
    cases hd
    rw [static_agrees r hstatic hargs hcreate]
    constructor
    · rintro ⟨hkeys, ⟨hlabels, htexts⟩, hroute⟩
      refine ⟨hkeys, hlabels, ?_, fun _ => htexts, ?_⟩
      · have hne := (router_agrees "static" hkeys.1 hlabels hrouter).mp hroute
        simpa [hr] using hne
      · simp [hstatic]
    · intro hre
      have hne : r ≠ "kvaware" := by
        simpa [hr] using hre.routing
      exact ⟨hre.keys, ⟨hre.labels, hre.static hstatic⟩,
        (router_agrees "static" hre.keys.1 hre.labels hrouter).mpr hne⟩
  · have hk8s := entry_getD_none hkind
    rw [hk8s] at hd
    cases hd
    constructor
    · rintro ⟨hkeys, hdiscovery, hroute⟩
      obtain ⟨hlabels, hgiven⟩ := (k8s_agrees r hkeys.1 hk8s hargs hcreate).mp hdiscovery
      refine ⟨hkeys, hlabels, ?_, ?_, fun _ => hgiven⟩
      · have hne := (router_agrees "k8s" hkeys.1 hlabels hrouter).mp hroute
        simpa [hr] using hne
      · simp [hk8s]
    · intro hre
      have hne : r ≠ "kvaware" := by
        simpa [hr] using hre.routing
      exact ⟨hre.keys, (k8s_agrees r hre.keys.1 hk8s hargs hcreate).mpr ⟨hre.labels, hre.k8s hk8s⟩,
        (router_agrees "k8s" hre.keys.1 hre.labels hrouter).mpr hne⟩

def staticFile : ConfigFile :=
  { serviceDiscovery := some (some "static")
    routingLogic := some (some "session")
    sessionKey := some (some "x-user-id")
    staticBackends := some (some "http://localhost:8000")
    staticModels := some (some "llama") }

theorem static_file_reloads :
    reload staticFile = .ok ⟨.static ⟨["http://localhost:8000"], some ["llama"], none, none, none, some false,
      none, none⟩, .session "x-user-id"⟩ :=
  (reload_agrees_iff staticFile _ rfl).mpr
    ⟨⟨rfl, rfl⟩, ⟨rfl, rfl⟩, by decide, fun _ => by decide, fun h => absurd h (by decide)⟩

/-- The file names the Kubernetes discovery and leaves the rest to the defaults. -/
theorem k8s_defaults_differ :
    ¬ ∀ (file : ConfigFile) (params : Params), startup file = .ok params → reload file = .ok params := by
  intro h
  have hreload := h { serviceDiscovery := some (some "k8s"), routingLogic := some (some "roundrobin") }
    ⟨.k8sPodIp ⟨some "default", some 8000, some "", none, none, some 0, some 10⟩, .roundRobin⟩ rfl
  cases hreload

end ProductionStack.Startup
