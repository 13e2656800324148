import Mathlib.Data.List.Basic
import ProductionStack.Endpoint
import ProductionStack.ListWatch

namespace ProductionStack.PodDiscovery

open Runs ListWatch

/-- A Pod as the watch delivers it; its name is the key of the event. -/
structure PodObject where
  podIp : Option String
  deletionTimestamp : Option String := none
  containerStatuses : Option (List Bool)
  labels : Option (Dict String String) := none

structure Container where
  name : String
  command : Option (List String)
  deriving DecidableEq, Repr

inductive PodReply
  | containers (containers : List Container)
  | apiException
  | otherError

/-- What the engine and the API server answer while one event is handled. A
request to the engine that fails in any way is `none`. -/
structure Replies where
  modelNames : Option (List String)
  modelInfo : Option (List (String × ModelInfo))
  pod : PodReply
  isSleeping : Option Bool
  now : Int

structure Settings where
  namespaceName : String
  port : String
  uuid5 : String → String

structure Discovery where
  availableEngines : Dict String EndpointInfo
  knownModels : List String

def initDiscovery : Discovery := ⟨.empty, []⟩

def checkPodReady : Option (List Bool) → Bool
  | none => false
  | some [] => false
  | some statuses => (statuses.filter (· = true)).length = statuses.length

def isPodTerminating (pod : PodObject) : Bool := pod.deletionTimestamp.isSome

def getEngineSleepStatus (replies : Replies) : Bool := replies.isSleeping.getD false

def checkEngineSleepMode : PodReply → Except Exc Bool
  | .containers containers =>
    match containers.find? (fun c => c.name = "vllm") with
    | some ⟨_, some (word :: words)⟩ => .ok ("--enable-sleep-mode" ∈ word :: words)
    | some _ => .ok true
    | none => .ok false
  | .apiException => .ok false
  | .otherError => .error .connectionError

def getModelNames (replies : Replies) : List String := replies.modelNames.getD []

def getModelInfo (replies : Replies) : List (String × ModelInfo) :=
  match replies.modelInfo with
  | some models => (Dict.ofList models).entries
  | none => []

def getModelLabel (pod : PodObject) : Option String := pod.labels.bind (·.get? "model")

def engineUrl (cfg : Settings) (engineIp : String) : String := "http://" ++ engineIp ++ ":" ++ cfg.port

def addEngine (cfg : Settings) (d : Discovery) (engineName engineIp : String) (modelNames : List String)
    (modelLabel : Option String) (replies : Replies) : Except Exc Discovery := do
  let sleepMode ← checkEngineSleepMode replies.pod
  let info : EndpointInfo :=
    { url := engineUrl cfg engineIp
      modelNames := modelNames
      addedTimestamp := replies.now
      Id := cfg.uuid5 engineName
      modelLabel := modelLabel
      sleep := if sleepMode then getEngineSleepStatus replies else false
      podName := some engineName
      namespaceName := some cfg.namespaceName
      modelInfo := getModelInfo replies }
  return ⟨d.availableEngines.set engineName info, d.knownModels ∪ modelNames⟩

def deleteEngine (d : Discovery) (engineName : String) : Discovery :=
  { d with availableEngines := d.availableEngines.erase engineName }

def onEngineUpdate (cfg : Settings) (d : Discovery) (engineName : String) (engineIp : Option String)
    (event : Kind) (isPodReady : Bool) (modelNames : List String) (modelLabel : Option String)
    (replies : Replies) : Except Exc Discovery :=
  match event, engineIp with
  | .added, none => .ok d
  | .added, some ip =>
    if !isPodReady then .ok d
    else if modelNames = [] then .ok d
    else addEngine cfg d engineName ip modelNames modelLabel replies
  | .deleted, _ =>
    if !d.availableEngines.contains engineName then .ok d else .ok (deleteEngine d engineName)
  | .modified, none => .ok d
  | .modified, some ip =>
    if isPodReady && modelNames ≠ [] then addEngine cfg d engineName ip modelNames modelLabel replies
    else if d.availableEngines.contains engineName then .ok (deleteEngine d engineName)
    else .ok d

def watchEngines (cfg : Settings) (d : Discovery) (event : Event String PodObject) (replies : Replies) :
    Except Exc Discovery :=
  if event.kind = .deleted then
    .ok (if d.availableEngines.contains event.key then deleteEngine d event.key else d)
  else
    let isContainerReady := checkPodReady event.object.containerStatuses
    let isPodReady := isContainerReady && !isPodTerminating event.object
    let modelNames := if isPodReady then getModelNames replies else []
    let modelLabel := if isPodReady then getModelLabel event.object else none
    onEngineUpdate cfg d event.key event.object.podIp event.kind isPodReady modelNames modelLabel replies

structure Observation where
  pod : PodObject
  modelNames : List String

def Observation.isPodReady (o : Observation) : Bool :=
  checkPodReady o.pod.containerStatuses && !isPodTerminating o.pod

structure Serving (o : Observation) : Prop where
  notTerminating : o.pod.deletionTimestamp = none
  ready : checkPodReady o.pod.containerStatuses = true
  ip : ∃ ip, o.pod.podIp = some ip
  models : o.modelNames ≠ []

def observed (event : Event String PodObject) (replies : Replies) : Observation :=
  ⟨event.object, getModelNames replies⟩

theorem serving_isPodReady {o : Observation} (h : Serving o) : o.isPodReady = true := by
  simp [Observation.isPodReady, isPodTerminating, h.notTerminating, h.ready]

theorem serving_of {o : Observation} {ip : String} (hready : o.isPodReady = true)
    (hip : o.pod.podIp = some ip) (hmodels : o.modelNames ≠ []) : Serving o := by
  simp only [Observation.isPodReady, isPodTerminating, Bool.and_eq_true, Bool.not_eq_true',
    Option.isSome_eq_false_iff, Option.isNone_iff_eq_none] at hready
  exact ⟨hready.2, hready.1, ⟨ip, hip⟩, hmodels⟩

variable {cfg : Settings} {names : List String} {replies : Replies} {event : Event String PodObject}

theorem addEngine_get? {d d' : Discovery} {name ip : String}
    {label : Option String} (h : addEngine cfg d name ip names label replies = .ok d') :
    ∃ info, d'.availableEngines = d.availableEngines.set name info ∧
      info.url = engineUrl cfg ip ∧ info.modelNames = names := by
  rw [addEngine] at h
  cases hmode : checkEngineSleepMode replies.pod with
  | error err =>
    rw [hmode] at h
    cases h
  | ok mode =>
    rw [hmode] at h
    cases h
    exact ⟨_, rfl, rfl, rfl⟩

theorem deleteEngine_get? (d : Discovery) (name k : String) :
    (if d.availableEngines.contains name then deleteEngine d name else d).availableEngines.get? k =
      if k = name then none else d.availableEngines.get? k := by
  split
  · exact Dict.get?_erase _ _ _
  next hno =>
    split
    next heq =>
      subst heq
      simpa [Dict.contains] using hno
    · rfl

theorem onEngineUpdate_serving (cfg : Settings) (d : Discovery) {name ip : String} {event : Kind} (hevent : event ≠ .deleted)
    (hnames : names ≠ []) (label : Option String) (replies : Replies) :
    onEngineUpdate cfg d name (some ip) event true names label replies =
      addEngine cfg d name ip names label replies := by
  cases event with
  | added => simp [onEngineUpdate, hnames]
  | modified => simp [onEngineUpdate, hnames]
  | deleted => exact absurd rfl hevent

theorem onEngineUpdate_added (cfg : Settings) (d : Discovery) (name : String) {engineIp : Option String} {ready : Bool}
    (h : engineIp = none ∨ ready = false ∨ names = []) (label : Option String) (replies : Replies) :
    onEngineUpdate cfg d name engineIp .added ready names label replies = .ok d := by
  rcases engineIp with _ | ip
  · rfl
  · rcases h with h | h | h
    · cases h
    · simp [onEngineUpdate, h]
    · simp [onEngineUpdate, h]

theorem onEngineUpdate_modified (cfg : Settings) (d : Discovery) (name ip : String) {ready : Bool}
    (h : ready = false ∨ names = []) (label : Option String) (replies : Replies) :
    onEngineUpdate cfg d name (some ip) .modified ready names label replies =
      .ok (if d.availableEngines.contains name then deleteEngine d name else d) := by
  rw [onEngineUpdate]
  have hbad : (ready && names ≠ []) = false := by
    rcases h with h | h <;> simp [h]
  rw [hbad]
  cases d.availableEngines.contains name <;> rfl

theorem watchEngines_serving (cfg : Settings) (d : Discovery) {ip : String} (hkind : event.kind ≠ .deleted)
    (hip : event.object.podIp = some ip) (hserve : Serving (observed event replies)) :
    watchEngines cfg d event replies =
      addEngine cfg d event.key ip (getModelNames replies) (getModelLabel event.object) replies := by
  have hready : (checkPodReady event.object.containerStatuses && !isPodTerminating event.object) = true :=
    serving_isPodReady hserve
  have hmodels : getModelNames replies ≠ [] := hserve.models
  rw [watchEngines, if_neg hkind]
  simp only [hready, if_true, hip]
  exact onEngineUpdate_serving cfg d hkind hmodels _ replies

theorem watchEngines_cases {d d' : Discovery} (h : watchEngines cfg d event replies = .ok d') :
    (event.kind = .deleted ∧
      ∀ k, d'.availableEngines.get? k = if k = event.key then none else d.availableEngines.get? k) ∨
    (event.kind ≠ .deleted ∧ Serving (observed event replies) ∧
      ∃ ip info, event.object.podIp = some ip ∧ info.url = engineUrl cfg ip ∧
        info.modelNames = getModelNames replies ∧
        d'.availableEngines = d.availableEngines.set event.key info) ∨
    (event.kind ≠ .deleted ∧ ¬ Serving (observed event replies) ∧
      (event.kind = .added ∨ event.object.podIp = none) ∧ d' = d) ∨
    (event.kind = .modified ∧ ¬ Serving (observed event replies) ∧ event.object.podIp ≠ none ∧
      ∀ k, d'.availableEngines.get? k = if k = event.key then none else d.availableEngines.get? k) := by
  obtain ⟨kind, name, pod⟩ := event
  by_cases hdel : kind = .deleted
  · subst hdel
    cases h
    exact .inl ⟨rfl, deleteEngine_get? d name⟩
  · by_cases hserve : Serving (observed ⟨kind, name, pod⟩ replies)
    · obtain ⟨ip, hip⟩ := hserve.ip
      rw [watchEngines_serving cfg d hdel hip hserve] at h
      obtain ⟨info, hset, hurl, hnames⟩ := addEngine_get? h
      exact .inr (.inl ⟨hdel, hserve, ip, info, hip, hurl, hnames, hset⟩)
    · simp only [watchEngines, hdel, if_false] at h
      rcases hip : pod.podIp with _ | ip
      · simp only [hip] at h
        have hsame : d' = d := by
          cases kind with
          | deleted => exact absurd rfl hdel
          | _ => exact (Except.ok.inj h).symm
        exact .inr (.inr (.inl ⟨hdel, hserve, .inr rfl, hsame⟩))
      · have hbad : (checkPodReady pod.containerStatuses && !isPodTerminating pod) = false ∨
            (if (checkPodReady pod.containerStatuses && !isPodTerminating pod) = true
              then getModelNames replies else []) = [] := by
          by_contra hgood
          simp only [not_or, Bool.not_eq_false] at hgood
          obtain ⟨hready, hnames⟩ := hgood
          rw [if_pos hready] at hnames
          exact hserve (serving_of hready hip hnames)
        simp only [hip] at h
        cases kind with
        | deleted => exact absurd rfl hdel
        | added =>
          rw [onEngineUpdate_added cfg d name (.inr hbad)] at h
          exact .inr (.inr (.inl ⟨hdel, hserve, .inl rfl, (Except.ok.inj h).symm⟩))
        | modified =>
          rw [onEngineUpdate_modified cfg d name ip hbad] at h
          refine .inr (.inr (.inr ⟨rfl, hserve, by simp, ?_⟩))
          rw [← Except.ok.inj h]
          exact deleteEngine_get? d name

structure Follower where
  discovery : Discovery
  lastSeen : Dict String Observation

def initFollower : Follower := ⟨initDiscovery, .empty⟩

/-- An exception while an event is handled ends the stream; the loop then opens a new one. -/
def follow (cfg : Settings) (f : Follower) (event : Event String PodObject) (replies : Replies) :
    Option Follower :=
  match watchEngines cfg f.discovery event replies with
  | .ok d => some ⟨d, if event.kind = .deleted then f.lastSeen.erase event.key
      else f.lastSeen.set event.key (observed event replies)⟩
  | .error _ => none

structure Settled (cfg : Settings) (pod : Option PodObject) (f : Follower) (name : String) : Prop where
  listed : (∃ info, f.discovery.availableEngines.get? name = some info) ↔
    pod ≠ none ∧ ∃ seen, f.lastSeen.get? name = some seen ∧ Serving seen
  stored : ∀ info, f.discovery.availableEngines.get? name = some info →
    ∃ seen ip, f.lastSeen.get? name = some seen ∧ seen.pod.podIp = some ip ∧
      info.url = engineUrl cfg ip ∧ info.modelNames = seen.modelNames
  current : ∀ object, pod = some object → ∃ seen, f.lastSeen.get? name = some seen ∧ seen.pod = object

/-- The early returns are not reached with an entry to drop, and a new stream
finds every entry's Pod. -/
def Safe (w : World String PodObject Follower) : Action String PodObject Replies → Prop
  | .deliver replies => ∀ event rest, w.server.pending = event :: rest → event.kind ≠ .deleted →
      ¬ Serving (observed event replies) → (event.kind = .added ∨ event.object.podIp = none) →
      w.follower.discovery.availableEngines.get? event.key = none
  | .reconnect => ∀ name, w.server.store.get? name = none →
      w.follower.discovery.availableEngines.get? name = none
  | _ => True

theorem follow_some {f f' : Follower} (h : follow cfg f event replies = some f') :
    watchEngines cfg f.discovery event replies = .ok f'.discovery ∧
      f'.lastSeen = if event.kind = .deleted then f.lastSeen.erase event.key
        else f.lastSeen.set event.key (observed event replies) := by
  rw [follow] at h
  split at h
  next d hd =>
    cases h
    exact ⟨hd, rfl⟩
  · cases h

theorem follow_other {f f' : Follower} (h : follow cfg f event replies = some f') {k : String} (hk : k ≠ event.key) :
    f'.discovery.availableEngines.get? k = f.discovery.availableEngines.get? k ∧
      f'.lastSeen.get? k = f.lastSeen.get? k := by
  obtain ⟨hd, hseen⟩ := follow_some h
  constructor
  · rcases watchEngines_cases hd with ⟨-, hget⟩ | ⟨-, -, ip, info, -, -, -, hset⟩ | ⟨-, -, -, hsame⟩ |
      ⟨-, -, -, hget⟩
    · rw [hget, if_neg hk]
    · rw [hset, Dict.get?_set_of_ne _ _ hk]
    · rw [hsame]
    · rw [hget, if_neg hk]
  · rw [hseen]
    split
    · rw [Dict.get?_erase, if_neg hk]
    · exact Dict.get?_set_of_ne _ _ hk

theorem settled_other {f : Follower} {f' : Follower} {pod : Option PodObject} {k : String}
    (h : follow cfg f event replies = some f') (hk : k ≠ event.key) (hs : Settled cfg pod f k) : Settled cfg pod f' k := by
  obtain ⟨hengines, hseen⟩ := follow_other h hk
  obtain ⟨hlisted, hstored, hcurrent⟩ := hs
  constructor
  · rw [hengines, hseen]
    exact hlisted
  · rw [hengines, hseen]
    exact hstored
  · rw [hseen]
    exact hcurrent

theorem settled_absent {f : Follower} {name : String}
    (h : f.discovery.availableEngines.get? name = none) : Settled cfg none f name := by
  constructor
  · simp [h]
  · simp [h]
  · intro object hobject
    cases hobject

theorem settled_unserved {f : Follower} {name : String} {seen : Observation}
    (h : f.discovery.availableEngines.get? name = none) (hseen : f.lastSeen.get? name = some seen)
    (hserve : ¬ Serving seen) : Settled cfg (some seen.pod) f name := by
  constructor
  · simp [h, hseen, hserve]
  · simp [h]
  · intro object hobject
    cases hobject
    exact ⟨seen, hseen, rfl⟩

theorem settled_serving {f : Follower} {name ip : String} {seen : Observation} {info : EndpointInfo}
    (h : f.discovery.availableEngines.get? name = some info) (hseen : f.lastSeen.get? name = some seen)
    (hserve : Serving seen) (hip : seen.pod.podIp = some ip) (hurl : info.url = engineUrl cfg ip)
    (hnames : info.modelNames = seen.modelNames) : Settled cfg (some seen.pod) f name := by
  constructor
  · simp [h, hseen, hserve]
  · intro stored hstored
    rw [h] at hstored
    cases hstored
    exact ⟨seen, ip, hseen, hip, hurl, hnames⟩
  · intro object hobject
    cases hobject
    exact ⟨seen, hseen, rfl⟩

theorem outcome_some (h : event.kind ≠ .deleted) (replies : Replies) : event.outcome = some (observed event replies).pod := by
  rw [Event.outcome]
  split
  · contradiction
  · rfl

theorem settled_self {w : World String PodObject Follower} {rest : List (Event String PodObject)} {f' : Follower}
    (hpending : w.server.pending = event :: rest) (hsafe : Safe w (.deliver replies))
    (h : follow cfg w.follower event replies = some f') : Settled cfg event.outcome f' event.key := by
  obtain ⟨hd, hseen⟩ := follow_some h
  rcases watchEngines_cases hd with ⟨hkind, hget⟩ | ⟨hkind, hserve, ip, info, hip, hurl, hnames, hset⟩ |
    ⟨hkind, hserve, hearly, hsame⟩ | ⟨hkind, hserve, -, hget⟩
  · have hout : event.outcome = none := by
      simp [Event.outcome, hkind]
    rw [hout]
    apply settled_absent
    rw [hget, if_pos rfl]
  · rw [if_neg hkind] at hseen
    rw [outcome_some hkind replies]
    refine settled_serving ?_ ?_ hserve hip hurl hnames
    · rw [hset, Dict.get?_set_self]
    · rw [hseen, Dict.get?_set_self]
  · rw [if_neg hkind] at hseen
    rw [outcome_some hkind replies]
    apply settled_unserved _ _ hserve
    · rw [hsame]
      exact hsafe event rest hpending hkind hserve hearly
    · rw [hseen, Dict.get?_set_self]
  · have hne : event.kind ≠ .deleted := by
      simp [hkind]
    rw [if_neg hne] at hseen
    rw [outcome_some hne replies]
    apply settled_unserved _ _ hserve
    · rw [hget, if_pos rfl]
    · rw [hseen, Dict.get?_set_self]

theorem discovery_converges (cfg : Settings) (cluster : Dict String PodObject)
    (actions : List (Action String PodObject Replies))
    (hsafe : Along (step (follow cfg)) Safe (init cluster initFollower) actions)
    (hup : (final (step (follow cfg)) (init cluster initFollower) actions).server.connected = true)
    (hdrained : (final (step (follow cfg)) (init cluster initFollower) actions).server.pending = []) (name : String) :
    Settled cfg ((final (step (follow cfg)) (init cluster initFollower) actions).server.store.get? name)
      (final (step (follow cfg)) (init cluster initFollower) actions).follower name := by
  have hfollows : Follows (Settled cfg) (final (step (follow cfg)) (init cluster initFollower) actions) :=
    converges settled_other settled_self (fun hw hnone => settled_absent (hw _ hnone)) hsafe
  apply hfollows.settled hup name
  rw [hdrained]
  simp

theorem unsafe_delivery_stale {f f' : Follower} (h : follow cfg f event replies = some f') (hkind : event.kind ≠ .deleted)
    (hserve : ¬ Serving (observed event replies)) (hearly : event.kind = .added ∨ event.object.podIp = none)
    {info : EndpointInfo} (hentry : f.discovery.availableEngines.get? event.key = some info) :
    ¬ Settled cfg event.outcome f' event.key := by
  intro hs
  obtain ⟨hd, hseen⟩ := follow_some h
  rw [if_neg hkind] at hseen
  have hsame : f'.discovery = f.discovery := by
    rcases watchEngines_cases hd with ⟨hdel, -⟩ | ⟨-, hyes, -⟩ | ⟨-, -, -, hsame⟩ | ⟨hmod, -, hip, -⟩
    · exact absurd hdel hkind
    · exact absurd hyes hserve
    · exact hsame
    · rcases hearly with hadd | hnone
      · rw [hmod] at hadd
        cases hadd
      · exact absurd hnone hip
  obtain ⟨-, seen, hget, hyes⟩ := hs.listed.mp ⟨info, by rw [hsame, hentry]⟩
  rw [hseen, Dict.get?_set_self] at hget
  cases hget
  exact hserve hyes

def defaultSettings : Settings := ⟨"default", "8000", id⟩

def enginePod (ready : Bool) : PodObject := { podIp := some "10.0.0.7", containerStatuses := some [ready] }

def engineReplies : Replies := ⟨some ["llama"], some [], .containers [], none, 0⟩

def engineCluster : Dict String PodObject := .ofList [("engine-0", enginePod true)]

/-- The engine stops being ready while the stream is down, so the next stream announces it as ADDED. -/
theorem unready_replay_stays_available :
    ¬ ∀ (cfg : Settings) (cluster : Dict String PodObject) (actions : List (Action String PodObject Replies)),
      (final (step (follow cfg)) (init cluster initFollower) actions).server.connected = true →
      (final (step (follow cfg)) (init cluster initFollower) actions).server.pending = [] →
      ∀ name, Settled cfg ((final (step (follow cfg)) (init cluster initFollower) actions).server.store.get? name)
        (final (step (follow cfg)) (init cluster initFollower) actions).follower name := by
  intro h
  have hs := h defaultSettings engineCluster
    [.reconnect, .deliver engineReplies, .disconnect, .change (.put "engine-0" (enginePod false)), .reconnect,
      .deliver engineReplies] rfl rfl "engine-0"
  obtain ⟨-, seen, hseen, hserve⟩ := hs.listed.mp ⟨_, rfl⟩
  cases hseen
  cases hserve.ready

theorem live_unready_dropped :
    Settled defaultSettings (some (enginePod false))
      (final (step (follow defaultSettings)) (init engineCluster initFollower)
        [.reconnect, .deliver engineReplies, .change (.put "engine-0" (enginePod false)),
          .deliver engineReplies]).follower "engine-0" := by
  refine discovery_converges defaultSettings engineCluster
    [.reconnect, .deliver engineReplies, .change (.put "engine-0" (enginePod false)), .deliver engineReplies]
    ⟨fun _ _ => rfl, ?_, trivial, ?_, trivial⟩ rfl rfl "engine-0"
  · intro event rest hpending _ hserve
    cases hpending
    exact absurd ⟨rfl, rfl, ⟨_, rfl⟩, by decide⟩ hserve
  · intro event rest hpending _ _ hearly
    cases hpending
    rcases hearly with hadd | hnone
    · cases hadd
    · cases hnone

end ProductionStack.PodDiscovery
