import ProductionStack.KnownModels
import ProductionStack.SleepRouting

namespace ProductionStack.ClientSessions

open Runs ListWatch PodDiscovery RouterConfig KnownModels
open SleepRouting (labelled assignClients assignClients_keeps initializeClientSessions getEndpointInfo)

structure Config where
  settings : Settings
  prefillModelLabels : Labels
  decodeModelLabels : Labels

def Config.routing (cfg : Config) : SleepRouting.Config where
  settings := cfg.settings
  disaggregated := true
  prefillModelLabels := some cfg.prefillModelLabels
  decodeModelLabels := some cfg.decodeModelLabels

/-- How far the lifespan of the app has come: it reads the engines, assigns the clients from what it
has read, and records the event loop after that. -/
inductive Phase
  | starting
  | initializing (endpointInfos : List EndpointInfo)
  | initialized
  | serving

structure Tracker where
  router : SleepRouting.System := {}
  phase : Phase := .starting

inductive Step
  | pod (event : Event String PodObject) (replies : Replies)
  | lifespan

/-- Without an event loop to run on, the coroutine is not started; the error is logged. -/
def connect (cfg : Config) : Phase → SleepRouting.System → SleepRouting.System
  | .serving, s => initializeClientSessions cfg.routing s
  | _, s => s

/-- Only an engine that is added has the clients assigned anew. -/
def podEvent (cfg : Config) (t : Tracker) (event : Event String PodObject) (replies : Replies) : Tracker :=
  match watchEngines cfg.settings t.router.discovery event replies with
  | .error _ => t
  | .ok d =>
    if adds event replies then { t with router := connect cfg t.phase { t.router with discovery := d } }
    else { t with router := { t.router with discovery := d } }

def lifespan (cfg : Config) (t : Tracker) : Tracker :=
  match t.phase with
  | .starting => { t with phase := .initializing (getEndpointInfo t.router) }
  | .initializing endpointInfos =>
    { router := assignClients cfg.prefillModelLabels cfg.decodeModelLabels endpointInfos t.router
      phase := .initialized }
  | .initialized => { t with phase := .serving }
  | .serving => t

def step (cfg : Config) : Component Tracker Step Unit := fun t i =>
  match i with
  | .pod event replies => ((), podEvent cfg t event replies)
  | .lifespan => ((), lifespan cfg t)

inductive Role
  | prefill
  | decode
  deriving DecidableEq, Repr

def client (s : SleepRouting.System) : Role → Option String
  | .prefill => s.prefillClient
  | .decode => s.decodeClient

def Config.labels (cfg : Config) : Role → Labels
  | .prefill => cfg.prefillModelLabels
  | .decode => cfg.decodeModelLabels

def carries (cfg : Config) (role : Role) (label : Option String) : Bool :=
  match labelled (cfg.labels role) label with
  | .ok found => found
  | .error _ => false

/-- The client of a role points to an available engine with a label of the role, if there is one. -/
def Follows (cfg : Config) (s : SleepRouting.System) : Prop :=
  ∀ role, (∃ e ∈ getEndpointInfo s, carries cfg role e.modelLabel = true) →
    ∃ e ∈ getEndpointInfo s, carries cfg role e.modelLabel = true ∧ client s role = some e.url

def Followed (cfg : Config) (t : Tracker) : Step → Prop
  | .pod event replies => Follows cfg (podEvent cfg t event replies).router
  | .lifespan => True

def stores (event : Event String PodObject) (replies : Replies) : Bool :=
  adds event replies && (checkEngineSleepMode replies.pod).isOk

def leaves (event : Event String PodObject) (replies : Replies) : Bool :=
  event.kind = .deleted || (event.kind = .modified && !adds event replies && event.object.podIp.isSome)

def others (s : SleepRouting.System) (engineName : String) : List EndpointInfo :=
  (s.discovery.availableEngines.erase engineName).values

/-- The client points to this engine and to no other one, though another one has a label of the role. -/
def Stranded (cfg : Config) (s : SleepRouting.System) (engineName : String) (role : Role) : Prop :=
  ∃ e, s.discovery.availableEngines.get? engineName = some e ∧ carries cfg role e.modelLabel = true ∧
    client s role = some e.url ∧ (∃ o ∈ others s engineName, carries cfg role o.modelLabel = true) ∧
    ∀ o ∈ others s engineName, carries cfg role o.modelLabel = true → o.url ≠ e.url

/-- An engine with a label comes only once the app is serving, and none goes that a client depends on. -/
def Spares (cfg : Config) (t : Tracker) : Step → Prop
  | .pod event replies =>
    (stores event replies = true → t.phase = .serving ∨
      ∀ role, carries cfg role (getModelLabel event.object) = false) ∧
    (leaves event replies = true → ∀ role, ¬ Stranded cfg t.router event.key role)
  | .lifespan => True

def Exclusive (cfg : Config) (label : Option String) : Prop :=
  ∃ isPrefill isDecode, labelled cfg.prefillModelLabels label = .ok isPrefill ∧
    labelled cfg.decodeModelLabels label = .ok isDecode ∧ (isPrefill && isDecode) = false

def OneRole (cfg : Config) : Step → Prop
  | .pod event replies => stores event replies = true → Exclusive cfg (getModelLabel event.object)
  | .lifespan => True

variable {s : SleepRouting.System} {e : EndpointInfo} {cfg : Config} {replies : Replies}
  {event : Event String PodObject} {t : Tracker}

theorem mem_others {name : String} : e ∈ others s name ↔ ∃ k, k ≠ name ∧ s.discovery.availableEngines.get? k = some e := by
  simp only [others, mem_values_iff, Dict.get?_erase]
  refine exists_congr (fun k => ?_)
  split_ifs with hk <;> simp [hk]

theorem mem_getEndpointInfo : e ∈ getEndpointInfo s ↔ ∃ k, s.discovery.availableEngines.get? k = some e := mem_values_iff

theorem mem_getEndpointInfo_cases (name : String)
    (h : e ∈ getEndpointInfo s) : s.discovery.availableEngines.get? name = some e ∨ e ∈ others s name := by
  obtain ⟨k, hget⟩ := mem_getEndpointInfo.mp h
  by_cases hk : k = name
  · exact .inl (hk ▸ hget)
  · exact .inr (mem_others.mpr ⟨k, hk, hget⟩)

theorem getEndpointInfo_of_others {name : String} (h : e ∈ others s name) : e ∈ getEndpointInfo s := by
  obtain ⟨k, -, hget⟩ := mem_others.mp h
  exact mem_getEndpointInfo.mpr ⟨k, hget⟩

theorem assignClients_discovery (prefillLabels decodeLabels : Labels) (endpoints : List EndpointInfo)
    (s : SleepRouting.System) : (assignClients prefillLabels decodeLabels endpoints s).discovery = s.discovery :=
  assignClients_keeps (P := fun s' => s'.discovery = s.discovery) (fun _ _ _ _ h => h) (fun _ _ _ _ h => h) rfl

theorem getEndpointInfo_initializeClientSessions (cfg : Config) (s : SleepRouting.System) :
    getEndpointInfo (initializeClientSessions cfg.routing s) = getEndpointInfo s := by
  simp only [getEndpointInfo, initializeClientSessions, Config.routing, assignClients_discovery]

theorem assignClients_cons (hrole : Exclusive cfg e.modelLabel) (rest : List EndpointInfo) (s : SleepRouting.System) :
    ∃ s', assignClients cfg.prefillModelLabels cfg.decodeModelLabels (e :: rest) s =
        assignClients cfg.prefillModelLabels cfg.decodeModelLabels rest s' ∧
      ∀ role, client s' role = if carries cfg role e.modelLabel then some e.url else client s role := by
  obtain ⟨isPrefill, isDecode, hprefill, hdecode, hone⟩ := hrole
  simp only [assignClients, hprefill, hdecode]
  cases isPrefill with
  | true =>
    cases hone
    refine ⟨_, rfl, ?_⟩
    rintro (_ | _) <;> simp [carries, Config.labels, hprefill, hdecode, client]
  | false =>
    cases isDecode with
    | true =>
      refine ⟨_, rfl, ?_⟩
      rintro (_ | _) <;> simp [carries, Config.labels, hprefill, hdecode, client]
    | false =>
      refine ⟨_, rfl, ?_⟩
      rintro (_ | _) <;> simp [carries, Config.labels, hprefill, hdecode]

theorem assignClients_client {endpoints : List EndpointInfo}
    (hrole : ∀ e ∈ endpoints, Exclusive cfg e.modelLabel) (s : SleepRouting.System) (role : Role) :
    ((∀ e ∈ endpoints, carries cfg role e.modelLabel = false) ∧
      client (assignClients cfg.prefillModelLabels cfg.decodeModelLabels endpoints s) role = client s role) ∨
    ∃ e ∈ endpoints, carries cfg role e.modelLabel = true ∧
      client (assignClients cfg.prefillModelLabels cfg.decodeModelLabels endpoints s) role = some e.url := by
  induction endpoints generalizing s with
  | nil => exact .inl ⟨by simp, rfl⟩
  | cons e rest ih =>
    obtain ⟨s', heq, hclient⟩ := assignClients_cons (hrole e List.mem_cons_self) rest s
    rw [heq]
    rcases ih (fun o ho => hrole o (List.mem_cons_of_mem e ho)) s' with ⟨hnone, hsame⟩ | ⟨o, ho, hcarries, hurl⟩
    · rw [hsame, hclient role]
      cases hcarries : carries cfg role e.modelLabel with
      | true => exact .inr ⟨e, List.mem_cons_self, hcarries, rfl⟩
      | false => exact .inl ⟨by simpa [hcarries] using hnone, rfl⟩
    · exact .inr ⟨o, List.mem_cons_of_mem e ho, hcarries, hurl⟩

theorem addEngine_stored {cfg : Settings} {d : Discovery} {name ip : String} {names : List String}
    {label : Option String} (hok : (checkEngineSleepMode replies.pod).isOk = true) :
    ∃ e known, addEngine cfg d name ip names label replies = .ok ⟨d.availableEngines.set name e, known⟩ ∧
      e.modelLabel = label := by
  rw [addEngine]
  cases hmode : checkEngineSleepMode replies.pod with
  | error err =>
    rw [hmode] at hok
    cases hok
  | ok mode => exact ⟨_, _, rfl, rfl⟩

theorem addEngine_raised {cfg : Settings} {d : Discovery} {name ip : String} {names : List String}
    {label : Option String} (hok : (checkEngineSleepMode replies.pod).isOk = false) :
    ∃ err, addEngine cfg d name ip names label replies = .error err := by
  rw [addEngine]
  cases hmode : checkEngineSleepMode replies.pod with
  | error err => exact ⟨err, rfl⟩
  | ok mode =>
    rw [hmode] at hok
    cases hok

theorem podEvent_stores (cfg : Config) (t : Tracker) (h : stores event replies = true) :
    ∃ e s, e.modelLabel = getModelLabel event.object ∧
      (∀ x, x ∈ getEndpointInfo s ↔ x = e ∨ x ∈ others t.router event.key) ∧
      (∀ role, client s role = client t.router role) ∧
      podEvent cfg t event replies = { t with router := connect cfg t.phase s } := by
  rw [stores, Bool.and_eq_true] at h
  obtain ⟨hadds, hok⟩ := h
  obtain ⟨hkind, hserve⟩ := adds_iff.mp hadds
  obtain ⟨ip, hip⟩ := hserve.ip
  obtain ⟨e, known, hstored, hlabel⟩ := addEngine_stored hok
  refine ⟨e, { t.router with discovery := ⟨t.router.discovery.availableEngines.set event.key e, known⟩ }, hlabel,
    ?_, by rintro (_ | _) <;> rfl, ?_⟩
  · intro x
    simp only [mem_getEndpointInfo, mem_others, Dict.get?_set]
    constructor
    · rintro ⟨k, hget⟩
      split_ifs at hget with hk
      · exact .inl (Option.some.inj hget).symm
      · exact .inr ⟨k, hk, hget⟩
    · rintro (rfl | ⟨k, hk, hget⟩)
      · exact ⟨event.key, if_pos rfl⟩
      · exact ⟨k, by rw [if_neg hk, hget]⟩
  · rw [podEvent, watchEngines_serving cfg.settings _ hkind hip hserve, hstored]
    simp [hadds]

theorem mem_deleteEngine {d : Discovery} {name : String}
    (h : d = if s.discovery.availableEngines.contains name then deleteEngine s.discovery name else s.discovery) :
    e ∈ d.availableEngines.values ↔ e ∈ others s name := by
  simp only [mem_values_iff, mem_others, h, deleteEngine_get?]
  refine exists_congr (fun k => ?_)
  split_ifs with hk <;> simp [hk]

theorem podEvent_leaves (cfg : Config) (t : Tracker) (h : leaves event replies = true) :
    (podEvent cfg t event replies).phase = t.phase ∧
      (∀ x, x ∈ getEndpointInfo (podEvent cfg t event replies).router ↔ x ∈ others t.router event.key) ∧
      ∀ role, client (podEvent cfg t event replies).router role = client t.router role := by
  simp only [leaves, Bool.or_eq_true, Bool.and_eq_true, decide_eq_true_eq, Bool.not_eq_true'] at h
  have hno : adds event replies = false := by
    rcases h with hkind | ⟨⟨-, hno⟩, -⟩
    · simp [adds, hkind]
    · exact hno
  have hgoes : event.kind = .deleted ∨ event.kind = .modified ∧ event.object.podIp.isSome :=
    h.imp id (fun hmodified => ⟨hmodified.1.1, hmodified.2⟩)
  rw [podEvent, watchEngines_not_adds cfg.settings _ hno]
  simp only [hno, hgoes, true_and]
  refine ⟨rfl, fun x => mem_deleteEngine rfl, ?_⟩
  rintro (_ | _) <;> rfl

theorem podEvent_other (cfg : Config) (t : Tracker) (hstores : stores event replies = false)
    (hleaves : leaves event replies = false) : podEvent cfg t event replies = t := by
  cases hadds : adds event replies with
  | true =>
    obtain ⟨hkind, hserve⟩ := adds_iff.mp hadds
    obtain ⟨ip, hip⟩ := hserve.ip
    rw [stores, hadds, Bool.true_and] at hstores
    obtain ⟨err, hraised⟩ := addEngine_raised hstores
    rw [podEvent, watchEngines_serving cfg.settings _ hkind hip hserve, hraised]
  | false =>
    simp only [leaves, hadds, Bool.not_false, Bool.and_true, Bool.or_eq_false_iff, Bool.and_eq_false_iff,
      decide_eq_false_iff_not] at hleaves
    have hstays : ¬ (event.kind = .deleted ∨ event.kind = .modified ∧ event.object.podIp.isSome) := by
      rintro (hkind | ⟨hkind, hip⟩)
      · exact hleaves.1 hkind
      · rcases hleaves.2 with hother | hnone
        · exact hother hkind
        · rw [hip] at hnone
          cases hnone
    simp [podEvent, watchEngines_not_adds cfg.settings _ hadds, hadds, hstays]

def Phase.endpointInfos : Phase → List EndpointInfo
  | .initializing endpointInfos => endpointInfos
  | _ => []

/-- The engines have one role at most and the clients follow them. Until the app is serving there is
neither a client nor an engine for one. -/
structure Tracked (cfg : Config) (t : Tracker) : Prop where
  oneRole : ∀ e ∈ getEndpointInfo t.router ++ t.phase.endpointInfos, Exclusive cfg e.modelLabel
  follows : Follows cfg t.router
  idle : t.phase ≠ .serving → ∀ role, client t.router role = none ∧
    ∀ e ∈ getEndpointInfo t.router ++ t.phase.endpointInfos, carries cfg role e.modelLabel = false

theorem follows_of_none (h : ∀ role, ∀ e ∈ getEndpointInfo s, carries cfg role e.modelLabel = false) : Follows cfg s := by
  rintro role ⟨e, he, hcarries⟩
  rw [h role e he] at hcarries
  cases hcarries

theorem follows_initializeClientSessions (hrole : ∀ e ∈ getEndpointInfo s, Exclusive cfg e.modelLabel) :
    Follows cfg (initializeClientSessions cfg.routing s) := by
  rintro role ⟨e, he, hcarries⟩
  rw [getEndpointInfo_initializeClientSessions] at he ⊢
  rcases assignClients_client hrole s role with ⟨hnone, -⟩ | hassigned
  · rw [hnone e he] at hcarries
    cases hcarries
  · exact hassigned

theorem follows_leaves_iff {s s' : SleepRouting.System} {name : String} (h : Follows cfg s)
    (hengines : ∀ x, x ∈ getEndpointInfo s' ↔ x ∈ others s name) (hclient : ∀ role, client s' role = client s role) :
    Follows cfg s' ↔ ∀ role, ¬ Stranded cfg s name role := by
  constructor
  · rintro hfollows role ⟨e, -, -, hpoints, ⟨o, ho, hcarries⟩, hother⟩
    obtain ⟨e', he', hcarries', hpoints'⟩ := hfollows role ⟨o, (hengines o).mpr ho, hcarries⟩
    rw [hclient, hpoints] at hpoints'
    exact hother e' ((hengines e').mp he') hcarries' (Option.some.inj hpoints').symm
  · rintro hspared role ⟨o, ho, hcarries⟩
    have ho := (hengines o).mp ho
    obtain ⟨e, he, hrole, hpoints⟩ := h role ⟨o, getEndpointInfo_of_others ho, hcarries⟩
    rcases mem_getEndpointInfo_cases name he with hget | he
    · have hspare : ∃ o ∈ others s name, carries cfg role o.modelLabel = true ∧ o.url = e.url := by
        by_contra hnone
        refine hspared role ⟨e, hget, hrole, hpoints, ⟨o, ho, hcarries⟩, ?_⟩
        exact fun o ho hcarries hurl => hnone ⟨o, ho, hcarries, hurl⟩
      obtain ⟨e', he', hcarries', hurl⟩ := hspare
      exact ⟨e', (hengines e').mpr he', hcarries', by rw [hclient, hpoints, hurl]⟩
    · exact ⟨e, (hengines e).mpr he, hrole, by rw [hclient, hpoints]⟩

theorem leaves_of_stores (h : stores event replies = true) : leaves event replies = false := by
  rw [stores, Bool.and_eq_true] at h
  simp [leaves, h.1, (adds_iff.mp h.1).1]

theorem oneRole_of_stored (ht : Tracked cfg t) (hstores : stores event replies = true)
    (hrole : OneRole cfg (.pod event replies)) (hlabel : e.modelLabel = getModelLabel event.object)
    (hengines : ∀ x, x ∈ getEndpointInfo s ↔ x = e ∨ x ∈ others t.router event.key) :
    ∀ x ∈ getEndpointInfo s, Exclusive cfg x.modelLabel := by
  intro x hx
  rcases (hengines x).mp hx with rfl | hx
  · exact hlabel ▸ hrole hstores
  · exact ht.oneRole x (List.mem_append_left _ (getEndpointInfo_of_others hx))

theorem followed_iff_of_stores
    (ht : Tracked cfg t) (hstores : stores event replies = true) (hrole : OneRole cfg (.pod event replies)) :
    Follows cfg (podEvent cfg t event replies).router ↔
      t.phase = .serving ∨ ∀ role, carries cfg role (getModelLabel event.object) = false := by
  obtain ⟨e, s, hlabel, hengines, hclient, heq⟩ := podEvent_stores cfg t hstores
  rw [heq]
  by_cases hphase : t.phase = .serving
  · refine iff_of_true ?_ (.inl hphase)
    rw [hphase]
    exact follows_initializeClientSessions (oneRole_of_stored ht hstores hrole hlabel hengines)
  · have hidle := ht.idle hphase
    have hconnect : connect cfg t.phase s = s := by
      cases hp : t.phase with
      | serving => exact absurd hp hphase
      | _ => rfl
    simp only [hconnect, hphase, false_or]
    constructor
    · intro hfollows role
      by_contra hcarries
      rw [Bool.not_eq_false, ← hlabel] at hcarries
      obtain ⟨e', -, -, hpoints⟩ := hfollows role ⟨e, (hengines e).mpr (.inl rfl), hcarries⟩
      rw [hclient, (hidle role).1] at hpoints
      cases hpoints
    · intro hnone
      apply follows_of_none
      intro role x hx
      rcases (hengines x).mp hx with rfl | hx
      · exact hlabel ▸ hnone role
      · exact (hidle role).2 x (List.mem_append_left _ (getEndpointInfo_of_others hx))

theorem followed_iff_spares {i : Step} (hrole : OneRole cfg i) (ht : Tracked cfg t) : Followed cfg t i ↔ Spares cfg t i := by
  cases i with
  | lifespan => exact Iff.rfl
  | pod event replies =>
    simp only [Followed, Spares]
    cases hstores : stores event replies with
    | true => simp [followed_iff_of_stores ht hstores hrole, leaves_of_stores hstores]
    | false =>
      cases hleaves : leaves event replies with
      | true =>
        obtain ⟨-, hengines, hclient⟩ := podEvent_leaves cfg t hleaves
        simp [follows_leaves_iff ht.follows hengines hclient]
      | false => simp [podEvent_other cfg t hstores hleaves, ht.follows]

theorem tracked_stores (ht : Tracked cfg t) (hstores : stores event replies = true) (hrole : OneRole cfg (.pod event replies))
    (hspares : Spares cfg t (.pod event replies)) : Tracked cfg (podEvent cfg t event replies) := by
  have hfollows := (followed_iff_of_stores ht hstores hrole).mpr (hspares.1 hstores)
  obtain ⟨e, s, hlabel, hengines, hclient, heq⟩ := podEvent_stores cfg t hstores
  have hone := oneRole_of_stored ht hstores hrole hlabel hengines
  rw [heq] at hfollows ⊢
  cases hphase : t.phase with
  | serving =>
    rw [hphase] at hfollows
    refine ⟨?_, hfollows, fun hno => absurd rfl hno⟩
    simpa [connect, getEndpointInfo_initializeClientSessions, Phase.endpointInfos] using hone
  | _ =>
    have hidle := ht.idle (by simp [hphase])
    have hone' := ht.oneRole
    have hnone := (hspares.1 hstores).resolve_left (by simp [hphase])
    rw [hphase] at hfollows hidle hone'
    refine ⟨?_, hfollows, fun _ role => ⟨(hclient role).trans (hidle role).1, ?_⟩⟩
    · intro x hx
      rcases List.mem_append.mp hx with hx | hx
      · exact hone x hx
      · exact hone' x (List.mem_append_right _ hx)
    · intro x hx
      rcases List.mem_append.mp hx with hx | hx
      · rcases (hengines x).mp hx with rfl | hx
        · exact hlabel ▸ hnone role
        · exact (hidle role).2 x (List.mem_append_left _ (getEndpointInfo_of_others hx))
      · exact (hidle role).2 x (List.mem_append_right _ hx)

theorem tracked_leaves (ht : Tracked cfg t) (hleaves : leaves event replies = true)
    (hspares : Spares cfg t (.pod event replies)) : Tracked cfg (podEvent cfg t event replies) := by
  obtain ⟨hphase, hengines, hclient⟩ := podEvent_leaves cfg t hleaves
  have hold : ∀ x ∈ getEndpointInfo (podEvent cfg t event replies).router ++
      (podEvent cfg t event replies).phase.endpointInfos, x ∈ getEndpointInfo t.router ++ t.phase.endpointInfos := by
    intro x hx
    rw [hphase] at hx
    refine List.mem_append.mpr ((List.mem_append.mp hx).imp ?_ id)
    exact fun hx => getEndpointInfo_of_others ((hengines x).mp hx)
  refine ⟨fun x hx => ht.oneRole x (hold x hx),
    (follows_leaves_iff ht.follows hengines hclient).mpr (hspares.2 hleaves), ?_⟩
  intro hidle role
  rw [hphase] at hidle
  exact ⟨(hclient role).trans (ht.idle hidle role).1, fun x hx => (ht.idle hidle role).2 x (hold x hx)⟩

theorem tracked_initializing {endpointInfos : List EndpointInfo} (ht : Tracked cfg ⟨s, .initializing endpointInfos⟩) :
    Tracked cfg ⟨assignClients cfg.prefillModelLabels cfg.decodeModelLabels endpointInfos s, .initialized⟩ := by
  have hidle := ht.idle (by simp)
  have hread : ∀ e ∈ endpointInfos, Exclusive cfg e.modelLabel :=
    fun e he => ht.oneRole e (List.mem_append_right _ he)
  have hclient : ∀ role, client (assignClients cfg.prefillModelLabels cfg.decodeModelLabels endpointInfos s)
      role = none := by
    intro role
    rcases assignClients_client hread s role with ⟨-, hsame⟩ | ⟨e, he, hcarries, -⟩
    · rw [hsame]
      exact (hidle role).1
    · rw [(hidle role).2 e (List.mem_append_right _ he)] at hcarries
      cases hcarries
  have hengines : ∀ e ∈ getEndpointInfo (assignClients cfg.prefillModelLabels cfg.decodeModelLabels endpointInfos s)
      ++ [], e ∈ getEndpointInfo s := by
    intro e he
    rwa [List.append_nil, getEndpointInfo, assignClients_discovery] at he
  have hnone : ∀ role, ∀ e ∈ getEndpointInfo s, carries cfg role e.modelLabel = false :=
    fun role e he => (hidle role).2 e (List.mem_append_left _ he)
  refine ⟨fun e he => ht.oneRole e (List.mem_append_left _ (hengines e he)), follows_of_none ?_, ?_⟩
  · exact fun role e he => hnone role e (hengines e (List.mem_append_left _ he))
  · exact fun _ role => ⟨hclient role, fun e he => hnone role e (hengines e he)⟩

theorem tracked_lifespan (ht : Tracked cfg t) : Tracked cfg (lifespan cfg t) := by
  obtain ⟨s, phase⟩ := t
  cases phase with
  | starting =>
    have hold : ∀ e ∈ getEndpointInfo s ++ getEndpointInfo s, e ∈ getEndpointInfo s ++ [] := by simp
    refine ⟨fun e he => ht.oneRole e (hold e he), ht.follows, fun _ role => ?_⟩
    obtain ⟨hclient, hnone⟩ := ht.idle (by simp) role
    exact ⟨hclient, fun e he => hnone e (hold e he)⟩
  | initializing endpointInfos => exact tracked_initializing ht
  | initialized => exact ⟨ht.oneRole, ht.follows, fun hno => absurd rfl hno⟩
  | serving => exact ht

theorem tracked_step {i : Step} (hrole : OneRole cfg i) (ht : Tracked cfg t)
    (hspares : Spares cfg t i) : Tracked cfg (step cfg t i).2 := by
  cases i with
  | lifespan => exact tracked_lifespan ht
  | pod event replies =>
    simp only [step]
    cases hstores : stores event replies with
    | true => exact tracked_stores ht hstores hrole hspares
    | false =>
      cases hleaves : leaves event replies with
      | true => exact tracked_leaves ht hleaves hspares
      | false => exact (podEvent_other cfg t hstores hleaves).symm ▸ ht

theorem tracked_init (cfg : Config) : Tracked cfg {} := by
  have hempty : ∀ e, e ∉ getEndpointInfo ({} : SleepRouting.System) := fun e he => List.not_mem_nil he
  have hnone : ∀ e, e ∉ getEndpointInfo ({} : SleepRouting.System) ++ [] := fun e he => List.not_mem_nil he
  refine ⟨fun e he => absurd he (hnone e), follows_of_none (fun _ e he => absurd he (hempty e)), ?_⟩
  exact fun _ role => ⟨by cases role <;> rfl, fun e he => absurd he (hnone e)⟩

/-- The clients follow the discovery after every event of exactly those runs in which engines with a label
come once the app is serving and none goes that a client depends on. -/
theorem clients_follow_iff (cfg : Config) (steps : List Step) (hrole : ∀ i ∈ steps, OneRole cfg i) :
    Along (step cfg) (Followed cfg) {} steps ↔ Along (step cfg) (Spares cfg) {} steps := by
  refine along_congr (I := Tracked cfg) ?_ ?_ (tracked_init cfg)
  · exact fun _ i hi ht => followed_iff_spares (hrole i hi) ht
  · exact fun _ i hi ht hspares => tracked_step (hrole i hi) ht hspares

def labelledPod (label ip : String) : PodObject where
  podIp := some ip
  containerStatuses := some [true]
  labels := some ⟨[("model", label)], by simp⟩

def twoRoles : Config := ⟨defaultSettings, .split ["prefill"], .split ["decode"]⟩

def secondPrefill : List Step :=
  [.lifespan, .lifespan, .lifespan,
    .pod ⟨.added, "prefill-0", labelledPod "prefill" "10.0.0.1"⟩ engineReplies,
    .pod ⟨.added, "decode-0", labelledPod "decode" "10.0.0.2"⟩ engineReplies,
    .pod ⟨.added, "prefill-1", labelledPod "prefill" "10.0.0.3"⟩ engineReplies]

def goes (engineName ip : String) : Step := .pod ⟨.deleted, engineName, labelledPod "prefill" ip⟩ engineReplies

theorem secondPrefill_oneRole (engineName ip : String) : ∀ i ∈ secondPrefill ++ [goes engineName ip],
    OneRole twoRoles i := by
  intro i hi
  simp only [secondPrefill, goes, List.cons_append, List.nil_append, List.mem_cons, List.not_mem_nil, or_false] at hi
  rcases hi with rfl | rfl | rfl | rfl | rfl | rfl | rfl
  all_goals first
    | trivial
    | exact fun _ => ⟨_, _, rfl, rfl, rfl⟩

/-- The first prefill engine goes, to which no client points any more. -/
theorem unused_engine_goes :
    Along (step twoRoles) (Followed twoRoles) {} (secondPrefill ++ [goes "prefill-0" "10.0.0.1"]) := by
  rw [clients_follow_iff twoRoles _ (secondPrefill_oneRole _ _)]
  refine ⟨trivial, trivial, trivial, ⟨fun _ => .inl rfl, nofun⟩, ⟨fun _ => .inl rfl, nofun⟩,
    ⟨fun _ => .inl rfl, nofun⟩, ⟨nofun, ?_⟩, trivial⟩
  rintro - role ⟨e, hget, -, hpoints, -⟩
  cases hget
  cases role <;> exact absurd hpoints (by decide)

/-- The second prefill engine goes. The client still points to it, though the first one is available. -/
theorem prefill_client_stale : ¬ ∀ (cfg : Config) (steps : List Step), Along (step cfg) (Followed cfg) {} steps := by
  intro h
  have hfollowed := (along_append _ _ _ _ _).mp (h twoRoles (secondPrefill ++ [goes "prefill-1" "10.0.0.3"]))
  obtain ⟨e, he, -, hpoints⟩ := hfollowed.2.1 .prefill ⟨_, List.mem_cons_self, by decide⟩
  have hstale : ∀ e ∈ getEndpointInfo (podEvent twoRoles (final (step twoRoles) {} secondPrefill)
      ⟨.deleted, "prefill-1", labelledPod "prefill" "10.0.0.3"⟩ engineReplies).router,
      some "http://10.0.0.3:8000" ≠ some e.url := by decide
  exact hstale e he hpoints

end ProductionStack.ClientSessions
