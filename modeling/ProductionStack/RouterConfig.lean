import ProductionStack.StaticLists

namespace ProductionStack.RouterConfig

open StaticLists

structure DynamicRouterConfig where
  serviceDiscovery : String
  routingLogic : String
  staticBackends : Option String := none
  staticModels : Option String := none
  staticAliases : Option String := none
  staticModelLabels : Option String := none
  staticModelTypes : Option String := none
  staticBackendHealthChecks : Option Bool := some false
  prefillModelLabels : Option String := none
  decodeModelLabels : Option String := none
  k8sPort : Option Int := none
  k8sNamespace : Option String := none
  k8sLabelSelector : Option String := none
  sessionKey : Option String := none
  callbacks : Option String := none
  deriving DecidableEq, Repr

/-- What a parameter for model labels is bound to: the whole text, or the list it was split into. -/
inductive Labels
  | raw (text : String)
  | split (labels : List String)
  deriving DecidableEq, Repr

structure StaticArgs where
  urls : List String
  models : Option (List String)
  aliases : Option (Dict String String)
  modelLabels : Option (List String)
  modelTypes : Option (List String)
  staticBackendHealthChecks : Option Bool
  prefillModelLabels : Option Labels
  decodeModelLabels : Option Labels

structure K8sArgs where
  namespaceName : Option String
  port : Option Int
  labelSelector : Option String
  prefillModelLabels : Option Labels
  decodeModelLabels : Option Labels
  watcherTimeoutSeconds : Option Int := some 0
  healthCheckTimeoutSeconds : Option Int := some 10

inductive DiscoveryArgs
  | static (args : StaticArgs)
  | k8s (k8sServiceDiscoveryType : Option String) (args : K8sArgs)

inductive DiscoveryParams
  | static (args : StaticArgs)
  | k8sPodIp (args : K8sArgs)
  | k8sServiceName (args : K8sArgs)

/-- str.isspace of a character. -/
def isSpace (c : Char) : Bool :=
  [(9, 13), (28, 32), (0x85, 0x85), (0xA0, 0xA0), (0x1680, 0x1680), (0x2000, 0x200A), (0x2028, 0x2029), (0x202F, 0x202F),
    (0x205F, 0x205F), (0x3000, 0x3000)].any (fun r => r.1 ≤ c.toNat && c.toNat ≤ r.2)

def strip (text : String) : String := .ofList ((text.toList.dropWhile isSpace).reverse.dropWhile isSpace).reverse

/-- Letters outside of ASCII are left as they are; none has a lower case made of letters that are compared. -/
def lower (text : String) : String := .ofList (text.toList.map Char.toLower)

def normalizedType : Option String → String
  | none => "pod-ip"
  | some text => if strip text = "" then "pod-ip" else lower (strip text)

/-- The Kubernetes classes load the cluster's client configuration first. -/
def createServiceDiscovery (loadKubeConfig : Except Exc Unit) : DiscoveryArgs → Except Exc DiscoveryParams
  | .static args =>
    match args.models with
    | none => .error .typeError
    | some models =>
      if args.urls.length = models.length then .ok (.static args)
      else .error (.assertionError "URLs and models should have the same length")
  | .k8s discoveryType args => do
      loadKubeConfig
      return if normalizedType discoveryType = "service-name" then .k8sServiceName args else .k8sPodIp args

def truthy : Option String → Option String
  | some "" => none
  | text => text

def parseAliases (staticAliases : Option String) : Except Exc (Option (Dict String String)) :=
  match truthy staticAliases with
  | some text => (parseStaticAliases text).map some
  | none => .ok none

def splitLabels (labels : Option String) : Option Labels := (parseCommaSeparatedArgs labels).map .split

inductive RoutingLogic
  | roundRobin
  | sessionBased
  | kvaware
  | prefixaware
  | disaggregatedPrefill
  deriving DecidableEq, Repr

def RoutingLogic.ofString : String → Option RoutingLogic
  | "roundrobin" => some .roundRobin
  | "session" => some .sessionBased
  | "kvaware" => some .kvaware
  | "prefixaware" => some .prefixaware
  | "disaggregated_prefill" => some .disaggregatedPrefill
  | _ => none

structure RoutingKwargs where
  sessionKey : Option String
  lmcacheControllerPort : Option Int := none
  prefillModelLabels : Option Labels := none
  decodeModelLabels : Option Labels := none
  kvAwareThreshold : Option Int := none
  deriving DecidableEq, Repr

inductive RouterParams
  | roundRobin
  | session (sessionKey : String)
  | kvaware (lmcacheControllerPort : Option Int) (sessionKey : Option String) (kvAwareThreshold : Option Int)
  | prefixAware
  | disaggregatedPrefill (prefillModelLabels decodeModelLabels : Option Labels)
  deriving DecidableEq, Repr

def sessionRouter : Option String → Except Exc RouterParams
  | none => .error (.valueError "SessionRouter must be initialized with a session_key")
  | some sessionKey => .ok (.session sessionKey)

def routerParams (kwargs : RoutingKwargs) : RoutingLogic → Except Exc RouterParams
  | .roundRobin => .ok .roundRobin
  | .sessionBased => sessionRouter kwargs.sessionKey
  | .kvaware => .ok (.kvaware kwargs.lmcacheControllerPort kwargs.sessionKey kwargs.kvAwareThreshold)
  | .prefixaware => .ok .prefixAware
  | .disaggregatedPrefill => .ok (.disaggregatedPrefill kwargs.prefillModelLabels kwargs.decodeModelLabels)

def invalidRoutingLogic (routingLogic : String) : Exc := .valueError ("Invalid routing logic " ++ routingLogic)

def invalidServiceDiscovery (serviceDiscovery : String) : Exc :=
  .valueError ("Invalid service discovery type: " ++ serviceDiscovery)

def reloadStaticArgs (config : DynamicRouterConfig) (urls : List String)
    (aliases : Option (Dict String String)) : StaticArgs where
  urls := urls
  models := parseCommaSeparatedArgs config.staticModels
  aliases := aliases
  modelLabels := parseCommaSeparatedArgs config.staticModelLabels
  modelTypes := parseCommaSeparatedArgs config.staticModelTypes
  staticBackendHealthChecks := config.staticBackendHealthChecks
  prefillModelLabels := splitLabels config.prefillModelLabels
  decodeModelLabels := splitLabels config.decodeModelLabels

def reloadK8sArgs (config : DynamicRouterConfig) : K8sArgs where
  namespaceName := config.k8sNamespace
  port := config.k8sPort
  labelSelector := config.k8sLabelSelector
  prefillModelLabels := splitLabels config.prefillModelLabels
  decodeModelLabels := splitLabels config.decodeModelLabels

def reloadDiscoveryArgs (config : DynamicRouterConfig) : Except Exc DiscoveryArgs :=
  if config.serviceDiscovery = "static" then do
    let urls ← parseStaticUrls config.staticBackends
    let aliases ← parseAliases config.staticAliases
    return .static (reloadStaticArgs config urls aliases)
  else if config.serviceDiscovery = "k8s" then .ok (.k8s (some "pod-ip") (reloadK8sArgs config))
  else .error (invalidServiceDiscovery config.serviceDiscovery)

def reloadKwargs (config : DynamicRouterConfig) : RoutingKwargs := { sessionKey := config.sessionKey }

end ProductionStack.RouterConfig
