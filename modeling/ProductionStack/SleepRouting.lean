import ProductionStack.PodDiscovery
import ProductionStack.RouterConfig

namespace ProductionStack.SleepRouting

open Runs ListWatch PodDiscovery RouterConfig

structure Config where
  settings : Settings
  disaggregated : Bool := false
  prefillModelLabels : Option Labels := none
  decodeModelLabels : Option Labels := none

/-- A request inside route_general_request that is not sent yet: the endpoints it was left
with and whether it named one of them, or the two legs of a disaggregated one. -/
inductive Request
  | general (endpoints : List EndpointInfo) (byId : Bool)
  | prefill
  | decode

inductive Endpoint
  | sleep
  | wakeUp
  deriving DecidableEq, Repr

structure Handler where
  endpoint : Endpoint
  engine : EndpointInfo

/-- The watcher thread stores what it found out some time after it asked. The engines that
do sleep and the ones whose /sleep was answered are kept by their URLs. -/
structure System where
  discovery : Discovery := initDiscovery
  watcher : Option Discovery := none
  prefillClient : Option String := none
  decodeClient : Option String := none
  requests : List Request := []
  handlers : List Handler := []
  sleeping : List String := []
  answered : List String := []

inductive Event
  | route (model : String) (id : Option String)
  | forward (i : Nat) (routed : String)
  | drop (i : Nat)
  | lookup (endpoint : Endpoint) (id : String)
  | post (i : Nat)
  | success (i : Nat)
  | failure (i : Nat)
  | observe (event : ListWatch.Event String PodObject) (replies : Replies)
  | store
  | initializeClientSessions

inductive Output
  | nothing
  | forwarded (url : String)
  deriving DecidableEq, Repr

def getEndpointInfo (s : System) : List EndpointInfo := s.discovery.availableEngines.values

def asked (model : String) (id : Option String) (e : EndpointInfo) : Bool :=
  model ∈ e.modelNames && (id = none || id = some "" || id = some e.Id)

def routable (s : System) (model : String) (id : Option String) : List EndpointInfo :=
  (getEndpointInfo s).filter (fun e => asked model id e && !e.sleep)

def route (cfg : Config) (s : System) (model : String) (id : Option String) : System :=
  if cfg.disaggregated then { s with requests := s.requests ++ [.prefill] }
  else if routable s model id = [] then s
  else { s with requests := s.requests ++ [.general (routable s model id) (id ≠ none && id ≠ some "")] }

def target (s : System) (routed : String) : Request → Option String
  | .general endpoints true => endpoints.head?.map (·.url)
  | .general _ false => some routed
  | .prefill => s.prefillClient
  | .decode => s.decodeClient

def remaining : Request → List Request
  | .prefill => [.decode]
  | _ => []

def forward (s : System) (i : Nat) (routed : String) : Output × System :=
  match s.requests[i]? with
  | none => (.nothing, s)
  | some request =>
    match target s routed request with
    | none => (.nothing, { s with requests := s.requests.eraseIdx i })
    | some url => (.forwarded url, { s with requests := s.requests.eraseIdx i ++ remaining request })

def lookup (s : System) (endpoint : Endpoint) (id : String) : System :=
  match (getEndpointInfo s).filter (fun e => e.Id = id) with
  | [] => s
  | engine :: _ => { s with handlers := s.handlers ++ [⟨endpoint, engine⟩] }

/-- The engine follows the request; a /wake_up counts from here on. -/
def post (s : System) (i : Nat) : System :=
  match s.handlers[i]? with
  | some ⟨.sleep, engine⟩ => { s with sleeping := engine.url :: s.sleeping }
  | some ⟨.wakeUp, engine⟩ =>
    { s with
      sleeping := s.sleeping.filter (· ≠ engine.url)
      answered := s.answered.filter (· ≠ engine.url) }
  | none => s

/-- Whether the label could be written makes no difference to the answer. -/
def success (s : System) (i : Nat) : System :=
  match s.handlers[i]? with
  | some ⟨.sleep, engine⟩ =>
    { s with handlers := s.handlers.eraseIdx i, answered := engine.url :: s.answered }
  | some ⟨.wakeUp, _⟩ => { s with handlers := s.handlers.eraseIdx i }
  | none => s

def observe (cfg : Config) (s : System) (event : ListWatch.Event String PodObject) (replies : Replies) : System :=
  match s.watcher with
  | some _ => s
  | none =>
    match watchEngines cfg.settings s.discovery event replies with
    | .ok discovery => { s with watcher := some discovery }
    | .error _ => s

def store (s : System) : System :=
  match s.watcher with
  | some discovery => { s with discovery := discovery, watcher := none }
  | none => s

/-- In a text that was not split, any part of it counts as a label, and looking for none is a TypeError. -/
def labelled : Labels → Option String → Except Exc Bool
  | .split labels, label => .ok (label.any (· ∈ labels))
  | .raw text, some label => .ok (label.toList <:+: text.toList)
  | .raw _, none => .error .typeError

/-- A later engine with the label replaces an earlier one. An exception ends the loop where it is. -/
def assignClients (prefillLabels decodeLabels : Labels) : List EndpointInfo → System → System
  | [], s => s
  | e :: rest, s =>
    match labelled prefillLabels e.modelLabel with
    | .error _ => s
    | .ok true => assignClients prefillLabels decodeLabels rest { s with prefillClient := some e.url }
    | .ok false =>
      match labelled decodeLabels e.modelLabel with
      | .error _ => s
      | .ok true => assignClients prefillLabels decodeLabels rest { s with decodeClient := some e.url }
      | .ok false => assignClients prefillLabels decodeLabels rest s

def initializeClientSessions (cfg : Config) (s : System) : System :=
  match cfg.prefillModelLabels, cfg.decodeModelLabels with
  | some prefillLabels, some decodeLabels => assignClients prefillLabels decodeLabels (getEndpointInfo s) s
  | _, _ => s

def step (cfg : Config) : Component System Event Output := fun s event =>
  match event with
  | .route model id => (.nothing, route cfg s model id)
  | .forward i routed => forward s i routed
  | .drop i => (.nothing, { s with requests := s.requests.eraseIdx i })
  | .lookup endpoint id => (.nothing, lookup s endpoint id)
  | .post i => (.nothing, post s i)
  | .success i => (.nothing, success s i)
  | .failure i => (.nothing, { s with handlers := s.handlers.eraseIdx i })
  | .observe event replies => (.nothing, observe cfg s event replies)
  | .store => (.nothing, store s)
  | .initializeClientSessions => (.nothing, initializeClientSessions cfg s)

/-- The engine asked by the watcher says whether it sleeps. -/
def Truthful (cfg : Config) (s : System) : Event → Prop
  | .observe event replies => ∀ ip, event.object.podIp = some ip →
      replies.isSleeping = some (decide (engineUrl cfg.settings ip ∈ s.sleeping))
  | _ => True

/-- Nothing is sent to an engine whose /sleep was answered and that no /wake_up was posted to since. -/
def NoTraffic (cfg : Config) (s : System) (event : Event) : Prop :=
  ∀ url, (step cfg s event).1 = .forwarded url → url ∉ s.answered

/-- The engines that a request may still be sent to. -/
def reach (s : System) : Request → List String
  | .general endpoints _ => urls endpoints
  | .prefill => s.prefillClient.toList ++ s.decodeClient.toList
  | .decode => s.decodeClient.toList

/-- Whether an engine may become a client of disaggregated requests. -/
def Labelled (cfg : Config) (e : EndpointInfo) : Prop :=
  ∃ labels, (cfg.prefillModelLabels = some labels ∨ cfg.decodeModelLabels = some labels) ∧
    labelled labels e.modelLabel = .ok true

/-- A request reads the endpoints only once the watcher has set the flags of the sleeping engines
that it asks for, a /sleep is answered only when no request under way may go to its engine,
and the router keeps to the endpoints it is given. The clients, which know no flag, are those of
engines that are not asleep when a disaggregated request comes in, or when they are assigned with
one under way. -/
def Settled (cfg : Config) (s : System) : Event → Prop
  | .route model id =>
    if cfg.disaggregated then ∀ url ∈ reach s .prefill, url ∉ s.answered
    else ∀ e ∈ getEndpointInfo s, asked model id e → e.url ∈ s.answered → e.sleep
  | .forward i routed => ∀ endpoints, s.requests[i]? = some (.general endpoints false) → routed ∈ urls endpoints
  | .success i => ∀ engine, s.handlers[i]? = some ⟨.sleep, engine⟩ →
      ∀ request ∈ s.requests, engine.url ∉ reach s request
  | .initializeClientSessions => .prefill ∈ s.requests ∨ .decode ∈ s.requests →
      ∀ e ∈ getEndpointInfo s, Labelled cfg e → e.url ∉ s.answered
  | _ => True

def Awake (s : System) : Prop := ∀ request ∈ s.requests, ∀ url ∈ reach s request, url ∉ s.answered

variable {s : System} {cfg : Config}

theorem mem_routable {model : String} {id : Option String} {e : EndpointInfo} :
    e ∈ routable s model id ↔ e ∈ getEndpointInfo s ∧ asked model id e ∧ e.sleep = false := by
  simp [routable, List.mem_filter]

theorem awake_of_subset {s s' : System} (h : Awake s)
    (hreach : ∀ request ∈ s'.requests, ∀ url ∈ reach s' request, ∃ old ∈ s.requests, url ∈ reach s old)
    (hanswered : ∀ url ∈ s'.answered, url ∈ s.answered) : Awake s' := by
  intro request hrequest url hurl hanswer
  obtain ⟨old, hold, hurl⟩ := hreach request hrequest url hurl
  exact h old hold url hurl (hanswered url hanswer)

theorem awake_added {request : Request} (h : Awake s) (hnew : ∀ url ∈ reach s request, url ∉ s.answered) :
    Awake { s with requests := s.requests ++ [request] } := by
  intro r hr
  rcases List.mem_append.mp hr with hold | hadded
  · exact h r hold
  · cases List.mem_singleton.mp hadded
    exact hnew

theorem awake_route {model : String} {id : Option String} (h : Awake s)
    (hsettled : Settled cfg s (.route model id)) : Awake (route cfg s model id) := by
  rw [Settled] at hsettled
  rw [route]
  split
  next hdisaggregated => exact awake_added h (by rwa [if_pos hdisaggregated] at hsettled)
  next hgeneral =>
    rw [if_neg hgeneral] at hsettled
    split
    · exact h
    · refine awake_added h ?_
      intro url hurl hanswer
      obtain ⟨e, he, rfl⟩ := mem_urls.mp hurl
      obtain ⟨hknown, hasked, hawake⟩ := mem_routable.mp he
      have hasleep := hsettled e hknown hasked hanswer
      rw [hawake] at hasleep
      cases hasleep

theorem awake_forward (h : Awake s) (i : Nat) (routed : String) : Awake (forward s i routed).2 := by
  have herased : Awake { s with requests := s.requests.eraseIdx i } :=
    awake_of_subset h (fun request hrequest url hurl => ⟨request, List.mem_of_mem_eraseIdx hrequest, hurl⟩) (fun _ hurl => hurl)
  cases hi : s.requests[i]? with
  | none =>
    simp only [forward, hi]
    exact h
  | some request =>
    cases htarget : target s routed request with
    | none =>
      simp only [forward, hi, htarget]
      exact herased
    | some url =>
      simp only [forward, hi, htarget]
      cases request with
      | prefill =>
        exact awake_added herased fun url hurl => h .prefill (List.mem_of_getElem? hi) url (List.mem_append_right _ hurl)
      | _ => simpa [remaining] using herased

theorem awake_success {i : Nat} (h : Awake s) (hsettled : Settled cfg s (.success i)) : Awake (success s i) := by
  rw [success]
  split
  next engine hi =>
    intro request hrequest url hurl hanswer
    rcases List.mem_cons.mp hanswer with rfl | hold
    · exact hsettled engine hi request hrequest hurl
    · exact h request hrequest url hurl hold
  · exact h
  · exact h

theorem awake_post (i : Nat) (h : Awake s) : Awake (post s i) := by
  rw [post]
  split
  · exact h
  · exact awake_of_subset h (fun r hr _ hurl => ⟨r, hr, hurl⟩) (fun url hurl => (List.mem_filter.mp hurl).1)
  · exact h

theorem assignClients_keeps {P : System → Prop} {prefillLabels decodeLabels : Labels} {endpoints : List EndpointInfo}
    (hprefill : ∀ s, ∀ e ∈ endpoints, labelled prefillLabels e.modelLabel = .ok true → P s →
      P { s with prefillClient := some e.url })
    (hdecode : ∀ s, ∀ e ∈ endpoints, labelled decodeLabels e.modelLabel = .ok true → P s →
      P { s with decodeClient := some e.url })
    (h : P s) : P (assignClients prefillLabels decodeLabels endpoints s) := by
  induction endpoints generalizing s with
  | nil => exact h
  | cons e rest ih =>
    have hrest {s : System} := @ih s (fun s e he => hprefill s e (.tail _ he)) (fun s e he => hdecode s e (.tail _ he))
    rw [assignClients]
    split
    · exact h
    next hlabel => exact hrest (hprefill s e (.head _) hlabel h)
    · split
      · exact h
      next hlabel => exact hrest (hdecode s e (.head _) hlabel h)
      · exact hrest h

theorem awake_assigned {e : EndpointInfo} (h : Awake s)
    (hawake : .prefill ∈ s.requests ∨ .decode ∈ s.requests → e.url ∉ s.answered) :
    Awake { s with prefillClient := some e.url } ∧ Awake { s with decodeClient := some e.url } := by
  constructor
  · intro request hrequest url hurl
    cases request with
    | prefill =>
      rcases List.mem_cons.mp hurl with rfl | hdecode
      · exact hawake (.inl hrequest)
      · exact h .prefill hrequest url (List.mem_append_right _ hdecode)
    | _ => exact h _ hrequest url hurl
  · intro request hrequest url hurl
    cases request with
    | general endpoints byId => exact h _ hrequest url hurl
    | prefill =>
      rcases List.mem_append.mp hurl with hprefill | hdecode
      · exact h .prefill hrequest url (List.mem_append_left _ hprefill)
      · cases List.mem_singleton.mp hdecode
        exact hawake (.inl hrequest)
    | decode =>
      cases List.mem_singleton.mp hurl
      exact hawake (.inr hrequest)

theorem awake_step (cfg : Config) (s : System) (event : Event) (h : Awake s) (hsettled : Settled cfg s event) :
    Awake (step cfg s event).2 := by
  cases event with
  | route model id => exact awake_route h hsettled
  | forward i routed => exact awake_forward h i routed
  | drop i =>
    exact awake_of_subset h (fun r hr _ hurl => ⟨r, List.mem_of_mem_eraseIdx hr, hurl⟩) (fun _ hurl => hurl)
  | lookup endpoint id =>
    simp only [step, lookup]
    split <;> exact h
  | post i => exact awake_post i h
  | success i => exact awake_success h hsettled
  | failure i => exact h
  | observe event replies =>
    simp only [step, observe]
    split
    · exact h
    · split <;> exact h
  | store =>
    simp only [step, store]
    split <;> exact h
  | initializeClientSessions =>
    simp only [step, initializeClientSessions]
    split
    next prefillLabels decodeLabels hprefill hdecode =>
      -- neither the requests nor the answers change meanwhile
      refine (assignClients_keeps (P := fun s' => s'.requests = s.requests ∧ s'.answered = s.answered ∧ Awake s') ?_ ?_
        ⟨rfl, rfl, h⟩).2.2
      · rintro s' e he hlabel ⟨hrequests, hanswered, hawake⟩
        refine ⟨hrequests, hanswered, (awake_assigned hawake ?_).1⟩
        rw [hrequests, hanswered]
        exact fun hunderWay => hsettled hunderWay e he ⟨prefillLabels, .inl hprefill, hlabel⟩
      · rintro s' e he hlabel ⟨hrequests, hanswered, hawake⟩
        refine ⟨hrequests, hanswered, (awake_assigned hawake ?_).2⟩
        rw [hrequests, hanswered]
        exact fun hunderWay => hsettled hunderWay e he ⟨decodeLabels, .inr hdecode, hlabel⟩
    · exact h

theorem forwarded_target {event : Event} {url : String} (h : (step cfg s event).1 = .forwarded url) :
    ∃ i routed request, event = .forward i routed ∧ s.requests[i]? = some request ∧
      target s routed request = some url := by
  cases event with
  | forward i routed =>
    simp only [step, forward] at h
    cases hi : s.requests[i]? with
    | none =>
      rw [hi] at h
      cases h
    | some request =>
      simp only [hi] at h
      cases htarget : target s routed request with
      | none =>
        rw [htarget] at h
        cases h
      | some url' =>
        rw [htarget] at h
        cases h
        exact ⟨i, routed, request, rfl, hi, htarget⟩
  | _ => cases h

theorem noTraffic_step {event : Event} (h : Awake s) (hsettled : Settled cfg s event) : NoTraffic cfg s event := by
  intro url hforwarded
  obtain ⟨i, routed, request, rfl, hi, htarget⟩ := forwarded_target hforwarded
  refine h request (List.mem_of_getElem? hi) url ?_
  cases request with
  | general endpoints byId =>
    cases byId with
    | true =>
      obtain ⟨e, he, rfl⟩ := Option.map_eq_some_iff.mp htarget
      exact mem_urls.mpr ⟨e, List.mem_of_head? he, rfl⟩
    | false =>
      obtain rfl : routed = url := Option.some.inj htarget
      exact hsettled endpoints hi
  | prefill => exact List.mem_append_left _ (Option.mem_toList.mpr htarget)
  | decode => exact Option.mem_toList.mpr htarget

theorem noTraffic_run {events : List Event} (h : Awake s)
    (hsettled : Along (step cfg) (Settled cfg) s events) : Along (step cfg) (NoTraffic cfg) s events := by
  induction events generalizing s with
  | nil => trivial
  | cons event events ih =>
    exact ⟨noTraffic_step h hsettled.1, ih (awake_step cfg s event h hsettled.1) hsettled.2⟩

theorem sleeping_engine_no_traffic (cfg : Config) (events : List Event)
    (h : Along (step cfg) (Settled cfg) {} events) : Along (step cfg) (NoTraffic cfg) {} events :=
  noTraffic_run (fun _ hrequest => by cases hrequest) h

theorem stale_read_forwarded {model : String} {e : EndpointInfo}
    (hcfg : cfg.disaggregated = false) (he : e ∈ routable s model none) (hanswer : e.url ∈ s.answered) :
    ¬ NoTraffic cfg (step cfg s (.route model none)).2 (.forward s.requests.length e.url) := by
  intro h
  have hread : (step cfg s (.route model none)).2 =
      { s with requests := s.requests ++ [.general (routable s model none) false] } := by
    have hne : routable s model none ≠ [] := List.ne_nil_of_mem he
    simp [step, route, hcfg, hne]
  rw [hread] at h
  refine h e.url ?_ hanswer
  simp [step, forward, target]

theorem prefill_client_forwarded {model url : String} {id : Option String} (hcfg : cfg.disaggregated = true)
    (hclient : s.prefillClient = some url) (hanswer : url ∈ s.answered) (routed : String) :
    ¬ NoTraffic cfg (step cfg s (.route model id)).2 (.forward s.requests.length routed) := by
  intro h
  have hread : (step cfg s (.route model id)).2 = { s with requests := s.requests ++ [.prefill] } := by
    simp [step, route, hcfg]
  rw [hread] at h
  refine h url ?_ hanswer
  simp [step, forward, target, hclient]

theorem refreshed_flag {event : ListWatch.Event String PodObject} {replies : Replies} (hkind : event.kind ≠ .deleted)
    (hserve : Serving (observed event replies)) (hmode : checkEngineSleepMode replies.pod = .ok true)
    (htruth : Truthful cfg s (.observe event replies)) (hidle : s.watcher = none) :
    ∃ e, (store (observe cfg s event replies)).discovery.availableEngines.get? event.key = some e ∧
      (e.sleep = true ↔ e.url ∈ s.sleeping) := by
  obtain ⟨ip, hip⟩ := hserve.ip
  have hreply := htruth ip hip
  simp only [observe, hidle, watchEngines_serving cfg.settings s.discovery hkind hip hserve, addEngine, hmode]
  refine ⟨_, Dict.get?_set_self _ _ _, ?_⟩
  simp [getEngineSleepStatus, hreply]

def sleepConfig : Config := { settings := defaultSettings }

def sleepReplies (asleep : Bool) : Replies :=
  { engineReplies with pod := .containers [⟨"vllm", none⟩], isSleeping := some asleep }

def putToSleep : List Event :=
  [.observe ⟨.added, "engine-0", enginePod true⟩ (sleepReplies false), .store, .lookup .sleep "engine-0",
    .post 0, .success 0]

/-- The watcher has asked the sleeping engine before the request reads the endpoints. -/
theorem refreshed_engine_no_traffic :
    Along (step sleepConfig) (NoTraffic sleepConfig) {}
      (putToSleep ++ [.observe ⟨.modified, "engine-0", enginePod true⟩ (sleepReplies true), .store,
        .route "llama" none]) := by
  apply sleeping_engine_no_traffic
  refine ⟨trivial, trivial, trivial, trivial, ?_, trivial, trivial, ?_, trivial⟩
  · intro engine _ request hrequest
    cases hrequest
  · intro e he _ _
    cases he with
    | head => rfl
    | tail _ hrest => cases hrest

/-- The request reads the endpoints between the answer to /sleep and the watcher's next event. -/
theorem sleeping_engine_gets_request :
    ¬ ∀ (cfg : Config) (events : List Event), Along (step cfg) (Truthful cfg) {} events →
      Along (step cfg) (NoTraffic cfg) {} events := by
  intro h
  have htruth : Along (step sleepConfig) (Truthful sleepConfig) {}
      (putToSleep ++ [.route "llama" none, .forward 0 "http://10.0.0.7:8000"]) := by
    refine ⟨?_, trivial, trivial, trivial, trivial, trivial, trivial, trivial⟩
    intro ip hip
    rfl
  obtain ⟨-, -, -, -, -, -, hforward, -⟩ := h sleepConfig _ htruth
  exact hforward "http://10.0.0.7:8000" rfl (List.mem_singleton.mpr rfl)

end ProductionStack.SleepRouting
