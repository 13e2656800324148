import Mathlib.Data.List.Enum
import Mathlib.Logic.Embedding.Basic
import ProductionStack.ClientSessions
import ProductionStack.Startup

namespace ProductionStack.StaticDiscovery

open StaticLists RouterConfig Startup
open SleepRouting (labelled assignClients)
open ClientSessions (Role client)

variable {H : Type}

/-- A StaticServiceDiscovery with what its constructor has asserted. The ids of the engines are the
values of uuid4, one for each URL, and no two of them are the same. -/
structure StaticServiceDiscovery (H : Type) where
  urls : List String
  models : List String
  same_length : urls.length = models.length
  modelLabels : Option (List String)
  modelTypes : Option (List String)
  enginesId : List String
  ids_length : enginesId.length = urls.length
  ids_nodup : enginesId.Nodup
  addedTimestamp : Int
  unhealthyEndpointHashes : List H := []
  prefillModelLabels : Option Labels
  decodeModelLabels : Option Labels

theorem ids_length (uuid4 : Nat ↪ String) (urls : List String) :
    ((List.range urls.length).map uuid4).length = urls.length := by simp

theorem ids_nodup (uuid4 : Nat ↪ String) (urls : List String) : ((List.range urls.length).map uuid4).Nodup :=
  List.nodup_range.map uuid4.injective

def construct (args : StaticArgs) (models : List String) (h : args.urls.length = models.length) (uuid4 : Nat ↪ String)
    (time : Int) : StaticServiceDiscovery H where
  urls := args.urls
  models := models
  same_length := h
  modelLabels := args.modelLabels
  modelTypes := args.modelTypes
  enginesId := (List.range args.urls.length).map uuid4
  ids_length := ids_length uuid4 args.urls
  ids_nodup := ids_nodup uuid4 args.urls
  addedTimestamp := time
  prefillModelLabels := args.prefillModelLabels
  decodeModelLabels := args.decodeModelLabels

def init (args : StaticArgs) (uuid4 : Nat ↪ String) (time : Int) : Except Exc (StaticServiceDiscovery H) :=
  match args.models with
  | none => .error .typeError
  | some models =>
    if h : args.urls.length = models.length then .ok (construct args models h uuid4 time)
    else .error (.assertionError "URLs and models should have the same length")

namespace StaticServiceDiscovery

variable (md5 : String → H) (d : StaticServiceDiscovery H)

def getModelEndpointHash (url model : String) : H := md5 (url ++ model)

/-- The loop over the zipped lists, with the answer of each probe: what it has collected and how it ended. -/
def probeAll (probe : Nat → Except Exc Bool) :
    Nat → List String → List String → List String → List H × Except Exc Unit
  | i, url :: urls, model :: models, _ :: modelTypes =>
    match probe i with
    | .error e => ([], .error e)
    | .ok healthy =>
      let rest := probeAll probe (i + 1) urls models modelTypes
      (if healthy then rest.1 else getModelEndpointHash md5 url model :: rest.1, rest.2)
  | _, [], [], [] => ([], .ok ())
  | _, [], _ :: _, _ => ([], .error (.valueError "zip() argument 2 is longer than argument 1"))
  | _, [], [], _ :: _ => ([], .error (.valueError "zip() argument 3 is longer than arguments 1-2"))
  | _, _ :: _, [], _ => ([], .error (.valueError "zip() argument 2 is shorter than argument 1"))
  | _, _ :: _, _ :: _, [] => ([], .error (.valueError "zip() argument 3 is shorter than arguments 1-2"))

/-- A ValueError ends the loop, and what was collected before it is returned. -/
def getUnhealthyEndpointHashes (probe : Nat → Except Exc Bool) : Except Exc (List H) :=
  match d.modelTypes with
  | none => .error .typeError
  | some modelTypes =>
    match probeAll md5 probe 0 d.urls d.models modelTypes with
    | (hashes, .ok ()) => .ok hashes
    | (hashes, .error (.valueError _)) => .ok hashes
    | (_, .error e) => .error e

/-- One round of check_model_health; an exception is logged. -/
def checkModelHealth (probe : Nat → Except Exc Bool) : StaticServiceDiscovery H :=
  match d.getUnhealthyEndpointHashes md5 probe with
  | .ok hashes => { d with unhealthyEndpointHashes := hashes }
  | .error _ => d

def getModelInfo (model : String) (time : Int) : List (String × ModelInfo) :=
  [(model,
    { id := model, object := "model", created := time, ownedBy := "vllm", root := none, parent := none, isAdapter := false })]

/-- An empty list of labels counts as none; one that is too short is an IndexError. -/
def modelLabel (i : Nat) : Except Exc String :=
  match d.modelLabels with
  | none | some [] => .ok "default"
  | some labels =>
    match labels[i]? with
    | some label => .ok label
    | none => .error .indexError

def endpointInfo (time : Int) (i : Nat) (url model : String) : Except Exc EndpointInfo := do
  let label ← d.modelLabel i
  match d.enginesId[i]? with
  | none => .error .indexError
  | some id =>
    return {
      url, modelNames := [model], Id := id, addedTimestamp := d.addedTimestamp, modelLabel := some label, sleep := false
      modelInfo := getModelInfo model time }

def pairs : List (String × String) := d.urls.zip d.models

def excluded [DecidableEq H] (pair : String × String) : Bool :=
  d.unhealthyEndpointHashes.contains (getModelEndpointHash md5 pair.1 pair.2)

def getEndpointInfo [DecidableEq H] (time : Int) : Except Exc (List EndpointInfo) :=
  (d.pairs.zipIdx.filter (fun e => !d.excluded md5 e.1)).mapM (fun e => d.endpointInfo time e.2 e.1.1 e.1.2)

/-- The labels of the static endpoints are never None, so that looking for them raises nothing. -/
def initializeClientSessions [DecidableEq H] (time : Int) (app : SleepRouting.System) : Except Exc SleepRouting.System :=
  match d.prefillModelLabels, d.decodeModelLabels with
  | some prefillLabels, some decodeLabels => do
      let endpointInfos ← d.getEndpointInfo md5 time
      return assignClients prefillLabels decodeLabels endpointInfos app
  | _, _ => .ok app

section Endpoints

variable {md5 : String → H} {d : StaticServiceDiscovery H} {time : Int} {i : Nat} {url model : String} {e : EndpointInfo}

theorem endpointInfo_eq_ok (h : d.endpointInfo time i url model = .ok e) :
    d.enginesId[i]? = some e.Id ∧ ∃ label, d.modelLabel i = .ok label ∧ e.modelLabel = some label := by
  obtain ⟨label, hlabel, h⟩ := bind_eq_ok.mp h
  cases hid : d.enginesId[i]? with
  | none =>
    rw [hid] at h
    cases h
  | some id =>
    rw [hid] at h
    cases h
    exact ⟨rfl, label, hlabel, rfl⟩

theorem exists_endpointInfo (hi : i < d.urls.length) {label : String} (hlabel : d.modelLabel i = .ok label) :
    ∃ e, d.endpointInfo time i url model = .ok e := by
  rw [endpointInfo, hlabel, List.getElem?_eq_getElem (d.ids_length ▸ hi)]
  exact ⟨_, rfl⟩

theorem pairs_lt {pair : String × String} (h : d.pairs[i]? = some pair) : i < d.urls.length := by
  have hlt := (List.getElem?_eq_some_iff.mp h).1
  rw [pairs, List.length_zip, ← d.same_length, Nat.min_self] at hlt
  exact hlt

variable [DecidableEq H]

theorem mem_getEndpointInfo {infos : List EndpointInfo} (h : d.getEndpointInfo md5 time = .ok infos) (he : e ∈ infos) :
    ∃ (i : Nat) (pair : String × String), d.pairs[i]? = some pair ∧ d.excluded md5 pair = false ∧
      d.endpointInfo time i pair.1 pair.2 = .ok e := by
  have hinfo : (.ok e : Except Exc EndpointInfo) ∈ infos.map .ok := List.mem_map_of_mem he
  rw [← mapM_eq_ok.mp h] at hinfo
  obtain ⟨⟨pair, i⟩, hkept, hok⟩ := List.mem_map.mp hinfo
  obtain ⟨hpair, hexcluded⟩ := List.mem_filter.mp hkept
  exact ⟨i, pair, List.mk_mem_zipIdx_iff_getElem?.mp hpair, by simpa using hexcluded, hok⟩

theorem getEndpointInfo_mem {infos : List EndpointInfo} (h : d.getEndpointInfo md5 time = .ok infos)
    {pair : String × String} (hi : d.pairs[i]? = some pair) (hkept : d.excluded md5 pair = false) :
    ∃ e ∈ infos, d.endpointInfo time i pair.1 pair.2 = .ok e := by
  have hmem : (pair, i) ∈ d.pairs.zipIdx.filter (fun e => !d.excluded md5 e.1) :=
    List.mem_filter.mpr ⟨List.mk_mem_zipIdx_iff_getElem?.mpr hi, by simp [hkept]⟩
  have hinfo := mapM_eq_ok.mp h ▸ List.mem_map_of_mem hmem
  obtain ⟨e, he, hok⟩ := List.mem_map.mp hinfo
  exact ⟨e, he, hok.symm⟩

end Endpoints

section Health

variable {md5 : String → H} {d : StaticServiceDiscovery H} {healthy : Nat → Bool}

theorem probeAll_answered (healthy : Nat → Bool) (i : Nat) (urls models modelTypes : List String)
    (hmodels : urls.length = models.length) (htypes : modelTypes.length = urls.length) :
    probeAll md5 (fun j => .ok (healthy j)) i urls models modelTypes =
      ((((urls.zip models).zipIdx i).filter (fun e => !healthy e.2)).map
        (fun e => getModelEndpointHash md5 e.1.1 e.1.2), .ok ()) := by
  induction urls generalizing i models modelTypes with
  | nil =>
    obtain rfl := List.length_eq_zero_iff.mp hmodels.symm
    obtain rfl := List.length_eq_zero_iff.mp htypes
    rfl
  | cons url urls ih =>
    cases models with
    | nil => cases hmodels
    | cons model models =>
      cases modelTypes with
      | nil => cases htypes
      | cons modelType modelTypes =>
        rw [probeAll, ih (i + 1) models modelTypes (Nat.succ.inj hmodels) (Nat.succ.inj htypes)]
        cases hi : healthy i <;> simp [hi]

theorem checkModelHealth_eq {modelTypes : List String} (htypes : d.modelTypes = some modelTypes)
    (hlength : modelTypes.length = d.urls.length) (healthy : Nat → Bool) :
    d.checkModelHealth md5 (fun i => .ok (healthy i)) =
      { d with
        unhealthyEndpointHashes := (d.pairs.zipIdx.filter (fun e => !healthy e.2)).map
          (fun e => getModelEndpointHash md5 e.1.1 e.1.2) } := by
  simp only [checkModelHealth, getUnhealthyEndpointHashes, htypes, probeAll_answered healthy 0 d.urls d.models
    modelTypes d.same_length hlength]
  rfl

def Omits (d : StaticServiceDiscovery H) (infos : List EndpointInfo) (i : Nat) : Prop :=
  ∀ e ∈ infos, d.enginesId[i]? ≠ some e.Id

def Failed (d : StaticServiceDiscovery H) (healthy : Nat → Bool) (pair : String × String) : Prop :=
  ∃ i, d.pairs[i]? = some pair ∧ healthy i = false

variable [DecidableEq H]

theorem omits_iff {time : Int} {infos : List EndpointInfo} (h : d.getEndpointInfo md5 time = .ok infos) {i : Nat}
    {pair : String × String} (hi : d.pairs[i]? = some pair) : d.Omits infos i ↔ d.excluded md5 pair = true := by
  constructor
  · intro homits
    by_contra hnot
    obtain ⟨e, he, hok⟩ := getEndpointInfo_mem h hi (Bool.eq_false_iff.mpr hnot)
    exact homits e he (endpointInfo_eq_ok hok).1
  · intro hexcluded e he hid
    obtain ⟨j, other, hother, hkept, hok⟩ := mem_getEndpointInfo h he
    -- the ids tell the positions apart
    obtain rfl : i = j :=
      (List.getElem?_inj (d.ids_length ▸ pairs_lt hi) d.ids_nodup).mp (hid.trans (endpointInfo_eq_ok hok).1.symm)
    cases hi.symm.trans hother
    exact Bool.false_ne_true (hkept.symm.trans hexcluded)

theorem excluded_iff (hmd5 : Function.Injective md5) {modelTypes : List String} (htypes : d.modelTypes = some modelTypes)
    (hlength : modelTypes.length = d.urls.length) (pair : String × String) :
    (d.checkModelHealth md5 (fun i => .ok (healthy i))).excluded md5 pair = true ↔
      ∃ other, d.Failed healthy other ∧ other.1 ++ other.2 = pair.1 ++ pair.2 := by
  rw [checkModelHealth_eq htypes hlength, excluded, List.contains_iff_mem, List.mem_map]
  constructor
  · rintro ⟨⟨other, i⟩, hmem, hhash⟩
    obtain ⟨hother, hfailed⟩ := List.mem_filter.mp hmem
    exact ⟨other, ⟨i, List.mk_mem_zipIdx_iff_getElem?.mp hother, by simpa using hfailed⟩, hmd5 hhash⟩
  · rintro ⟨other, ⟨i, hother, hfailed⟩, htext⟩
    refine ⟨(other, i), List.mem_filter.mpr ⟨List.mk_mem_zipIdx_iff_getElem?.mpr hother, by simp [hfailed]⟩, ?_⟩
    exact congrArg md5 htext

/-- After a check in which every probe was answered, the endpoints that are left out are those whose pair
has failed exactly when no pair that has not failed reads, URL and model put together, like one that has. -/
theorem health_check_exact_iff (md5 : String → H) (hmd5 : Function.Injective md5) (d : StaticServiceDiscovery H)
    (modelTypes : List String) (htypes : d.modelTypes = some modelTypes) (hlength : modelTypes.length = d.urls.length)
    (healthy : Nat → Bool) (time : Int) (infos : List EndpointInfo)
    (hinfos : (d.checkModelHealth md5 (fun i => .ok (healthy i))).getEndpointInfo md5 time = .ok infos) :
    (∀ (i : Nat) pair, d.pairs[i]? = some pair → (d.Omits infos i ↔ d.Failed healthy pair)) ↔
      ∀ pair ∈ d.pairs, ∀ other, d.Failed healthy other → other.1 ++ other.2 = pair.1 ++ pair.2 →
        d.Failed healthy pair := by
  have homits : ∀ (i : Nat) pair, d.pairs[i]? = some pair →
      (d.Omits infos i ↔ ∃ other, d.Failed healthy other ∧ other.1 ++ other.2 = pair.1 ++ pair.2) := by
    intro i pair hi
    have hchecked : d.checkModelHealth md5 (fun i => .ok (healthy i)) = _ := checkModelHealth_eq htypes hlength healthy
    have hpair : (d.checkModelHealth md5 (fun i => .ok (healthy i))).pairs[i]? = some pair := by
      rw [hchecked]
      exact hi
    rw [← excluded_iff hmd5 htypes hlength, ← omits_iff hinfos hpair, hchecked]
    rfl
  constructor
  · intro h pair hpair other hfailed htext
    obtain ⟨i, hi⟩ := List.mem_iff_getElem?.mp hpair
    exact (h i pair hi).mp ((homits i pair hi).mpr ⟨other, hfailed, htext⟩)
  · intro h i pair hi
    rw [homits i pair hi]
    constructor
    · rintro ⟨other, hfailed, htext⟩
      exact h pair (List.mem_of_getElem? hi) other hfailed htext
    · intro hfailed
      exact ⟨pair, hfailed, rfl⟩

end Health

theorem two_ids_nodup : ["e0", "e1"].Nodup := by decide

def twoEndpoints (url model url' model' : String) : StaticServiceDiscovery String where
  urls := [url, url']
  models := [model, model']
  same_length := rfl
  modelLabels := none
  modelTypes := some ["chat", "chat"]
  enginesId := ["e0", "e1"]
  ids_length := rfl
  ids_nodup := two_ids_nodup
  addedTimestamp := 0
  prefillModelLabels := none
  decodeModelLabels := none

theorem health_check_exact_apart :
    ∃ infos, ((twoEndpoints "http://localhost:8000" "llama" "http://localhost:8001" "llama").checkModelHealth id
        (fun i => .ok (decide (i ≠ 0)))).getEndpointInfo id 0 = .ok infos ∧
      ((twoEndpoints "http://localhost:8000" "llama" "http://localhost:8001" "llama").Omits infos 0 ↔
        (twoEndpoints "http://localhost:8000" "llama" "http://localhost:8001" "llama").Failed (fun i => decide (i ≠ 0))
          ("http://localhost:8000", "llama")) := by
  refine ⟨_, rfl, ?_⟩
  refine (health_check_exact_iff id Function.injective_id _ ["chat", "chat"] rfl rfl _ 0 _ rfl).mpr ?_ 0
    ("http://localhost:8000", "llama") rfl
  rintro pair hpair other ⟨i, hother, hfailed⟩ htext
  obtain rfl : i = 0 := by simpa using hfailed
  cases hother
  rcases List.mem_cons.mp hpair with rfl | hpair
  · exact ⟨0, rfl, rfl⟩
  · cases List.mem_singleton.mp hpair
    exact absurd htext (by decide)

/-- The model /models/llama at one URL and /llama at the other: the second is left out with the first. -/
theorem healthy_endpoint_left_out :
    ¬ ∀ (md5 : String → String), Function.Injective md5 → ∀ (d : StaticServiceDiscovery String) (modelTypes : List String),
      d.modelTypes = some modelTypes → modelTypes.length = d.urls.length →
      ∀ (healthy : Nat → Bool) (time : Int) (infos : List EndpointInfo),
        (d.checkModelHealth md5 (fun i => .ok (healthy i))).getEndpointInfo md5 time = .ok infos →
        ∀ (i : Nat) pair, d.pairs[i]? = some pair → (d.Omits infos i ↔ d.Failed healthy pair) := by
  intro h
  have hiff := h id Function.injective_id
    (twoEndpoints "http://localhost:8000" "/models/llama" "http://localhost:8000/models" "/llama") ["chat", "chat"] rfl rfl
    (fun i => decide (i ≠ 0)) 0 [] (by decide) 1 ("http://localhost:8000/models", "/llama") rfl
  obtain ⟨i, hi, hfailed⟩ := hiff.mp (List.forall_mem_nil _)
  obtain rfl : i = 0 := by simpa using hfailed
  exact absurd hi (by decide)

end StaticServiceDiscovery

def startStatic (args : Args) (uuid4 : Nat ↪ String) (time : Int) : Except Exc (Option (StaticServiceDiscovery H)) := do
  validateArgs args
  match ← startupDiscoveryArgs args with
  | .static staticArgs => return some (← init staticArgs uuid4 time)
  | .k8s _ _ => return none

structure FromArgs (args : Args) (d : StaticServiceDiscovery H) : Prop where
  urls : parseStaticUrls args.staticBackends = .ok d.urls
  models : parseCommaSeparatedArgs args.staticModels = some d.models
  modelTypes : d.modelTypes = parseCommaSeparatedArgs (truthy args.staticModelTypes)
  prefillModelLabels : d.prefillModelLabels = rawLabels args.prefillModelLabels
  decodeModelLabels : d.decodeModelLabels = rawLabels args.decodeModelLabels

theorem init_eq_ok {args : StaticArgs} {uuid4 : Nat ↪ String} {time : Int} {d : StaticServiceDiscovery H} :
    init args uuid4 time = .ok d ↔
      ∃ (models : List String) (h : args.urls.length = models.length),
        args.models = some models ∧ d = construct args models h uuid4 time := by
  rw [init]
  cases hmodels : args.models with
  | none => simp
  | some models =>
    by_cases h : args.urls.length = models.length
    · simp [h, eq_comm]
    · simp [h]

theorem startStatic_eq_some {args : Args} {uuid4 : Nat ↪ String} {time : Int} {d : StaticServiceDiscovery H}
    (h : startStatic args uuid4 time = .ok (some d)) : FromArgs args d := by
  obtain ⟨-, -, h⟩ := bind_eq_ok.mp h
  obtain ⟨discovery, hdiscovery, h⟩ := bind_eq_ok.mp h
  rw [startupDiscoveryArgs] at hdiscovery
  split at hdiscovery
  · obtain ⟨urls, hurls, hdiscovery⟩ := bind_eq_ok.mp hdiscovery
    obtain ⟨aliases, -, hdiscovery⟩ := bind_eq_ok.mp hdiscovery
    cases hdiscovery
    obtain ⟨built, hinit, h⟩ := bind_eq_ok.mp h
    cases h
    obtain ⟨models, hlength, hmodels, rfl⟩ := init_eq_ok.mp hinit
    exact ⟨hurls, hmodels, rfl, rfl, rfl⟩
  · split at hdiscovery
    · cases hdiscovery
      cases h
    · cases hdiscovery

section Roles

variable {md5 : String → H} {P D : String}

def PartOf (label text : String) : Prop := label.toList <:+: text.toList

def Takes (P D : String) : Role → String → Prop
  | .prefill, label => PartOf label P
  | .decode, label => ¬PartOf label P ∧ PartOf label D

def roleText (P D : String) : Role → String
  | .prefill => P
  | .decode => D

/-- The label is one of the comma-separated labels of the role. -/
def Carries (P D : String) (role : Role) (e : EndpointInfo) : Prop :=
  ∃ label ∈ split ',' (roleText P D role), e.modelLabel = some label

/-- Each client is that of an endpoint with exactly one of the labels of its role, if there is one. -/
structure ExactRoles (P D : String) (endpoints : List EndpointInfo) (app : SleepRouting.System) : Prop where
  given : ∀ role, (∃ e ∈ endpoints, Carries P D role e) →
    ∃ e ∈ endpoints, Carries P D role e ∧ client app role = some e.url
  never : ∀ role url, client app role = some url → ∃ e ∈ endpoints, Carries P D role e ∧ e.url = url

variable {label : String} {endpoints : List EndpointInfo}

theorem assignClients_raw_cons {e : EndpointInfo} (hlabel : e.modelLabel = some label)
    (rest : List EndpointInfo) (app : SleepRouting.System) (role : Role) :
    ∃ app', assignClients (.raw P) (.raw D) (e :: rest) app = assignClients (.raw P) (.raw D) rest app' ∧
      (¬Takes P D role label ∧ client app' role = client app role ∨
        Takes P D role label ∧ client app' role = some e.url) := by
  by_cases hP : PartOf label P
  · refine ⟨{ app with prefillClient := some e.url }, ?_, ?_⟩
    · simp only [assignClients, hlabel, labelled, decide_eq_true (show label.toList <:+: P.toList from hP)]
    · cases role with
      | prefill => exact .inr ⟨hP, rfl⟩
      | decode => exact .inl ⟨fun h => h.1 hP, rfl⟩
  · have hnotP := decide_eq_false (show ¬label.toList <:+: P.toList from hP)
    by_cases hD : PartOf label D
    · refine ⟨{ app with decodeClient := some e.url }, ?_, ?_⟩
      · simp only [assignClients, hlabel, labelled, hnotP, decide_eq_true (show label.toList <:+: D.toList from hD)]
      · cases role with
        | prefill => exact .inl ⟨hP, rfl⟩
        | decode => exact .inr ⟨⟨hP, hD⟩, rfl⟩
    · refine ⟨app, ?_, .inl ⟨?_, rfl⟩⟩
      · simp only [assignClients, hlabel, labelled, hnotP, decide_eq_false (show ¬label.toList <:+: D.toList from hD)]
      · cases role with
        | prefill => exact hP
        | decode => exact fun h => hD h.2

theorem assignClients_takes
    (hlabels : ∀ e ∈ endpoints, ∃ label, e.modelLabel = some label) (app : SleepRouting.System) (role : Role) :
    ((∀ e ∈ endpoints, ∀ label, e.modelLabel = some label → ¬Takes P D role label) ∧
      client (assignClients (.raw P) (.raw D) endpoints app) role = client app role) ∨
    ∃ e ∈ endpoints, ∃ label, e.modelLabel = some label ∧ Takes P D role label ∧
      client (assignClients (.raw P) (.raw D) endpoints app) role = some e.url := by
  induction endpoints generalizing app with
  | nil => exact .inl ⟨List.forall_mem_nil _, rfl⟩
  | cons e rest ih =>
    obtain ⟨label, hlabel⟩ := hlabels e List.mem_cons_self
    obtain ⟨app', heq, hclient⟩ := assignClients_raw_cons (P := P) (D := D) hlabel rest app role
    rw [heq]
    rcases ih (fun o ho => hlabels o (List.mem_cons_of_mem e ho)) app' with ⟨hnone, hsame⟩ | ⟨o, ho, hfound⟩
    · rw [hsame]
      rcases hclient with ⟨hnot, hclient⟩ | ⟨htakes, hclient⟩
      · refine .inl ⟨?_, hclient⟩
        intro o ho l hl
        rcases List.mem_cons.mp ho with rfl | ho
        · cases hlabel.symm.trans hl
          exact hnot
        · exact hnone o ho l hl
      · exact .inr ⟨e, List.mem_cons_self, label, hlabel, htakes, hclient⟩
    · exact .inr ⟨o, List.mem_cons_of_mem e ho, hfound⟩

/-- The labels in use for which a part of a text is as good as a label of its list. -/
structure Unambiguous (P D : String) (labels : Set String) : Prop where
  prefill : ∀ label ∈ labels, PartOf label P → label ∈ split ',' P
  decode : ∀ label ∈ labels, ¬PartOf label P → PartOf label D → label ∈ split ',' D
  apart : ∀ label ∈ labels, label ∈ split ',' D → ¬PartOf label P

theorem takes_of_carries {labels : Set String} (h : Unambiguous P D labels) {role : Role}
    (hlabel : label ∈ labels) (hcarries : label ∈ split ',' (roleText P D role)) : Takes P D role label := by
  cases role with
  | prefill => exact isInfix_of_mem_split hcarries
  | decode => exact ⟨h.apart label hlabel hcarries, isInfix_of_mem_split hcarries⟩

theorem carries_of_takes {labels : Set String} (h : Unambiguous P D labels) {role : Role}
    (hlabel : label ∈ labels) (htakes : Takes P D role label) : label ∈ split ',' (roleText P D role) := by
  cases role with
  | prefill => exact h.prefill label hlabel htakes
  | decode => exact h.decode label hlabel htakes.1 htakes.2

theorem exactRoles_of_unambiguous {labels : Set String} (h : Unambiguous P D labels)
    (hlabels : ∀ e ∈ endpoints, ∃ label ∈ labels, e.modelLabel = some label) :
    ExactRoles P D endpoints (assignClients (.raw P) (.raw D) endpoints {}) := by
  have hsome : ∀ e ∈ endpoints, ∃ label, e.modelLabel = some label := by
    intro e he
    obtain ⟨label, -, hlabel⟩ := hlabels e he
    exact ⟨label, hlabel⟩
  have hin : ∀ e ∈ endpoints, ∀ label, e.modelLabel = some label → label ∈ labels := by
    intro e he label hlabel
    obtain ⟨l, hl, hlabel'⟩ := hlabels e he
    cases hlabel'.symm.trans hlabel
    exact hl
  constructor
  · rintro role ⟨e, he, label, hcarries, hlabel⟩
    rcases assignClients_takes (P := P) (D := D) hsome {} role with ⟨hnone, -⟩ | ⟨o, ho, l, hl, htakes, hclient⟩
    · exact absurd (takes_of_carries h (hin e he label hlabel) hcarries) (hnone e he label hlabel)
    · exact ⟨o, ho, ⟨l, carries_of_takes h (hin o ho l hl) htakes, hl⟩, hclient⟩
  · intro role url hurl
    rcases assignClients_takes (P := P) (D := D) hsome {} role with ⟨-, hsame⟩ | ⟨o, ho, l, hl, htakes, hclient⟩
    · rw [hsame] at hurl
      cases role <;> cases hurl
    · exact ⟨o, ho, ⟨l, carries_of_takes h (hin o ho l hl) htakes, hl⟩, Option.some.inj (hclient.symm.trans hurl)⟩

theorem unambiguous_of_exactRoles (hne : endpoints ≠ []) (hlabels : ∀ e ∈ endpoints, e.modelLabel = some label)
    (h : ExactRoles P D endpoints (assignClients (.raw P) (.raw D) endpoints {})) : Unambiguous P D {label} := by
  have hsome : ∀ e ∈ endpoints, ∃ label, e.modelLabel = some label := fun e he => ⟨label, hlabels e he⟩
  obtain ⟨e, he⟩ := List.exists_mem_of_ne_nil endpoints hne
  have hcarries : ∀ role, Takes P D role label → label ∈ split ',' (roleText P D role) := by
    intro role htakes
    rcases assignClients_takes (P := P) (D := D) hsome {} role with ⟨hnone, -⟩ | ⟨o, ho, l, hl, -, hclient⟩
    · exact absurd htakes (hnone e he label (hlabels e he))
    · obtain ⟨x, hx, ⟨k, hk, hlabel⟩, -⟩ := h.never role o.url hclient
      cases (hlabels x hx).symm.trans hlabel
      exact hk
  have htaken : ∀ role, label ∈ split ',' (roleText P D role) → Takes P D role label := by
    intro role hmem
    obtain ⟨o, ho, -, hclient⟩ := h.given role ⟨e, he, label, hmem, hlabels e he⟩
    rcases assignClients_takes (P := P) (D := D) hsome {} role with ⟨-, hsame⟩ | ⟨x, hx, l, hl, htakes, -⟩
    · rw [hsame] at hclient
      cases role <;> cases hclient
    · cases (hlabels x hx).symm.trans hl
      exact htakes
  constructor
  · rintro _ rfl hP
    exact hcarries .prefill hP
  · rintro _ rfl hP hD
    exact hcarries .decode ⟨hP, hD⟩
  · rintro _ rfl hmem
    exact (htaken .decode hmem).1

def labelledArgs (P D label : String) : Args := loadInitialConfig {
  serviceDiscovery := some (some "static"), routingLogic := some (some "disaggregated_prefill")
  staticBackends := some (some "http://localhost:8000,http://localhost:8001"), staticModels := some (some "llama,llama")
  staticModelLabels := some (some (label ++ "," ++ label))
  prefillModelLabels := some (some P), decodeModelLabels := some (some D) }

theorem truthy_eq_some {text : String} (h : text ≠ "") : truthy (some text) = some text := by
  rw [truthy]
  simpa using h

theorem exists_getEndpointInfo [DecidableEq H] (md5 : String → H) {d : StaticServiceDiscovery H} (time : Int)
    (hhashes : d.unhealthyEndpointHashes = []) (hlabel : ∀ i < d.urls.length, d.modelLabel i = .ok label) (hne : d.pairs ≠ []) :
    ∃ infos, d.getEndpointInfo md5 time = .ok infos ∧ infos ≠ [] ∧ ∀ e ∈ infos, e.modelLabel = some label := by
  have hkept : ∀ pair, d.excluded md5 pair = false := by
    intro pair
    simp [StaticServiceDiscovery.excluded, hhashes]
  obtain ⟨infos, hinfos⟩ : ∃ infos, d.getEndpointInfo md5 time = .ok infos := by
    apply exists_mapM_eq_ok
    rintro ⟨pair, i⟩ hmem
    have hi := StaticServiceDiscovery.pairs_lt (List.mk_mem_zipIdx_iff_getElem?.mp (List.mem_filter.mp hmem).1)
    exact StaticServiceDiscovery.exists_endpointInfo hi (hlabel i hi)
  refine ⟨infos, hinfos, ?_, ?_⟩
  · obtain ⟨pair, hpair⟩ := List.exists_mem_of_ne_nil _ hne
    obtain ⟨i, hi⟩ := List.mem_iff_getElem?.mp hpair
    obtain ⟨e, he, -⟩ := StaticServiceDiscovery.getEndpointInfo_mem hinfos hi (hkept pair)
    exact List.ne_nil_of_mem he
  · intro e he
    obtain ⟨i, pair, hi, -, hok⟩ := StaticServiceDiscovery.mem_getEndpointInfo hinfos he
    obtain ⟨-, l, hl, hmodel⟩ := StaticServiceDiscovery.endpointInfo_eq_ok hok
    rw [hlabel i (StaticServiceDiscovery.pairs_lt hi)] at hl
    cases hl
    exact hmodel

theorem startStatic_labelledArgs [DecidableEq H] (md5 : String → H) (P D : String) (h : ',' ∉ label.toList)
    (uuid4 : Nat ↪ String) (time : Int) :
    ∃ d, startStatic (labelledArgs P D label) uuid4 time = .ok (some d) ∧
      ∃ infos, d.getEndpointInfo md5 time = .ok infos ∧ infos ≠ [] ∧ ∀ e ∈ infos, e.modelLabel = some label := by
  have hvalid : validateArgs (labelledArgs P D label) = .ok () := rfl
  have hurls : parseStaticUrls (some "http://localhost:8000,http://localhost:8001") =
      .ok ["http://localhost:8000", "http://localhost:8001"] := by decide
  let args := startupStaticArgs (labelledArgs P D label) ["http://localhost:8000", "http://localhost:8001"] none
  have hdiscovery : startupDiscoveryArgs (labelledArgs P D label) = .ok (.static args) := by
    rw [startupDiscoveryArgs, if_pos (show (labelledArgs P D label).serviceDiscovery = some "static" from rfl)]
    exact bind_eq_ok.mpr ⟨_, hurls, rfl⟩
  have hlabels : args.modelLabels = some [label, label] := by
    have hne : label ++ "," ++ label ≠ "" := by simp
    change parseCommaSeparatedArgs (truthy (some (label ++ "," ++ label))) = _
    rw [truthy_eq_some hne, parseCommaSeparatedArgs, Option.map_some]
    exact congrArg some (split_two h h)
  let d : StaticServiceDiscovery H := construct args ["llama", "llama"] rfl uuid4 time
  refine ⟨d, ?_, ?_⟩
  · have hinit : init args uuid4 time = .ok d := init_eq_ok.mpr ⟨["llama", "llama"], rfl, rfl, rfl⟩
    rw [startStatic]
    exact bind_eq_ok.mpr ⟨(), hvalid, bind_eq_ok.mpr ⟨_, hdiscovery, bind_eq_ok.mpr ⟨d, hinit, rfl⟩⟩⟩
  · refine exists_getEndpointInfo md5 time rfl ?_ (List.cons_ne_nil _ _)
    intro i hi
    obtain rfl | rfl : i = 0 ∨ i = 1 := by
      have hlt : i < 2 := hi
      omega
    all_goals
      rw [StaticServiceDiscovery.modelLabel, show d.modelLabels = some [label, label] from hlabels]
      rfl

theorem initializeClientSessions_raw [DecidableEq H] {md5 : String → H} {d : StaticServiceDiscovery H} {time : Int}
    {infos : List EndpointInfo} (hP : d.prefillModelLabels = some (.raw P)) (hD : d.decodeModelLabels = some (.raw D))
    (hinfos : d.getEndpointInfo md5 time = .ok infos) (app : SleepRouting.System) :
    d.initializeClientSessions md5 time app = .ok (assignClients (.raw P) (.raw D) infos app) := by
  rw [StaticServiceDiscovery.initializeClientSessions, hP, hD]
  exact bind_eq_ok.mpr ⟨infos, hinfos, rfl⟩

theorem replicate_injective : Function.Injective (fun n : Nat => String.ofList (List.replicate n 'a')) := by
  intro m n h
  have hlength := congrArg List.length (String.ofList_injective h)
  simpa using hlength

def unary : Nat ↪ String := ⟨fun n => String.ofList (List.replicate n 'a'), replicate_injective⟩

/-- After a startup with these labels, the endpoints being labelled from this set, the clients have the
exact roles, whatever the endpoints are, exactly when the labels are unambiguous. -/
theorem roles_exact_iff [DecidableEq H] (md5 : String → H) (P D : String) (labels : Set String)
    (hlabels : ∀ label ∈ labels, ',' ∉ label.toList) :
    (∀ (args : Args) (uuid4 : Nat ↪ String) (time time' : Int) (d : StaticServiceDiscovery H) (hashes : List H)
        (infos : List EndpointInfo) (app : SleepRouting.System),
      args.prefillModelLabels = some P → args.decodeModelLabels = some D → startStatic args uuid4 time = .ok (some d) →
      { d with unhealthyEndpointHashes := hashes }.getEndpointInfo md5 time' = .ok infos →
      (∀ e ∈ infos, ∃ label ∈ labels, e.modelLabel = some label) →
      { d with unhealthyEndpointHashes := hashes }.initializeClientSessions md5 time' {} = .ok app →
      ExactRoles P D infos app) ↔
    Unambiguous P D labels := by
  constructor
  · intro h
    have hone : ∀ label ∈ labels, Unambiguous P D {label} := by
      intro label hlabel
      obtain ⟨d, hstart, infos, hinfos, hne, hall⟩ := startStatic_labelledArgs md5 P D (hlabels label hlabel) unary 0
      have hfrom := startStatic_eq_some hstart
      refine unambiguous_of_exactRoles hne hall ?_
      exact h _ unary 0 0 d d.unhealthyEndpointHashes infos _ rfl rfl hstart hinfos (fun e he => ⟨label, hlabel, hall e he⟩)
        (initializeClientSessions_raw hfrom.prefillModelLabels hfrom.decodeModelLabels hinfos {})
    constructor
    · exact fun label hlabel => (hone label hlabel).prefill label rfl
    · exact fun label hlabel => (hone label hlabel).decode label rfl
    · exact fun label hlabel => (hone label hlabel).apart label rfl
  · intro h args uuid4 time time' d hashes infos app hP hD hstart hinfos hin happ
    have hfrom := startStatic_eq_some hstart
    have hassigned := initializeClientSessions_raw (d := { d with unhealthyEndpointHashes := hashes })
      (hfrom.prefillModelLabels.trans (congrArg rawLabels hP)) (hfrom.decodeModelLabels.trans (congrArg rawLabels hD))
      hinfos {}
    cases hassigned.symm.trans happ
    exact exactRoles_of_unambiguous h hin

theorem roles_exact_plain :
    ∃ (d : StaticServiceDiscovery String) (infos : List EndpointInfo) (app : SleepRouting.System),
      startStatic (labelledArgs "prefill" "decode" "decode") unary 0 = .ok (some d) ∧
      d.getEndpointInfo id 0 = .ok infos ∧ infos ≠ [] ∧ d.initializeClientSessions id 0 {} = .ok app ∧
      ExactRoles "prefill" "decode" infos app := by
  obtain ⟨d, hstart, infos, hinfos, hne, hall⟩ :=
    startStatic_labelledArgs id "prefill" "decode" (show ',' ∉ "decode".toList by decide) unary 0
  have hfrom := startStatic_eq_some hstart
  have happ := initializeClientSessions_raw hfrom.prefillModelLabels hfrom.decodeModelLabels hinfos {}
  refine ⟨d, infos, _, hstart, hinfos, hne, happ, ?_⟩
  refine (roles_exact_iff id "prefill" "decode" {"decode"} ?_).mpr ?_ _ unary 0 0 d d.unhealthyEndpointHashes infos _
    rfl rfl hstart hinfos (fun e he => ⟨"decode", rfl, hall e he⟩) happ
  · rintro _ rfl
    decide
  · constructor <;> rintro _ rfl <;> unfold PartOf <;> decide

/-- The label prefill is a part of the only prefill label, prefill-large. -/
theorem part_of_label_taken :
    ¬ ∀ (P D : String) (args : Args) (uuid4 : Nat ↪ String) (time time' : Int) (d : StaticServiceDiscovery String)
        (infos : List EndpointInfo) (app : SleepRouting.System),
      args.prefillModelLabels = some P → args.decodeModelLabels = some D → startStatic args uuid4 time = .ok (some d) →
      d.getEndpointInfo id time' = .ok infos → d.initializeClientSessions id time' {} = .ok app →
      ExactRoles P D infos app := by
  intro h
  obtain ⟨d, hstart, infos, hinfos, hne, hall⟩ :=
    startStatic_labelledArgs id "prefill-large" "decode" (show ',' ∉ "prefill".toList by decide) unary 0
  have hfrom := startStatic_eq_some hstart
  have hexact := h "prefill-large" "decode" _ unary 0 0 d infos _ rfl rfl hstart hinfos
    (initializeClientSessions_raw hfrom.prefillModelLabels hfrom.decodeModelLabels hinfos {})
  have hmem := (unambiguous_of_exactRoles hne hall hexact).prefill "prefill" rfl (by unfold PartOf; decide)
  exact absurd hmem (by decide)

end Roles

end ProductionStack.StaticDiscovery
