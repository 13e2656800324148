import ProductionStack.PodDiscovery

namespace ProductionStack.ServiceNameDiscovery

open Runs ListWatch
open PodDiscovery (Container Settings engineUrl)

structure ServiceObject where
  selector : Option (Dict String String)

inductive Raised
  | apiException
  | other (e : Exc)
  deriving DecidableEq, Repr

/-- What a call of the Kubernetes API comes to. -/
inductive Answer (α : Type)
  | returned (a : α)
  | raised (e : Raised)

abbrev Subsets := Option (List (Option (List String)))

/-- What the API server and the engine answer while one event is handled. A request to the engine that
fails in any way is `none`; the Pods that are listed depend on the text of the selector. -/
structure Replies where
  endpoints : Answer Subsets
  modelNames : Option (List String)
  modelInfo : Option (List (String × ModelInfo))
  service : Answer ServiceObject
  pods : String → Answer (List (List Container))
  isSleeping : Option Bool
  now : Int

def addressed : Option (List String) → Bool
  | some (_ :: _) => true
  | _ => false

def checkServiceReady : Answer Subsets → Except Raised Bool
  | .raised e => .error e
  | .returned none => .ok false
  | .returned (some subsets) => .ok (subsets.any addressed)

def getEngineSleepStatus (replies : Replies) : Bool := replies.isSleeping.getD false

def sleepModeFlag : String := "--enable-sleep-mode"

/-- The two nested loops: a container named vllm without a command cannot be iterated over. -/
def scanContainers : Bool → List Container → Except Raised Bool
  | enabled, [] => .ok enabled
  | enabled, c :: rest =>
    if c.name = "vllm" then
      match c.command with
      | none => .error (.other .typeError)
      | some args => scanContainers (enabled || decide (sleepModeFlag ∈ args)) rest
    else scanContainers enabled rest

def selectorText (selector : Dict String String) : String :=
  ",".intercalate (selector.entries.map (fun e => e.1 ++ "=" ++ e.2))

def podsSleepMode : Answer (List (List Container)) → Except Raised Bool
  | .raised .apiException => .ok false
  | .raised e => .error e
  | .returned [] => .ok false
  | .returned (containers :: _) => scanContainers false containers

def checkEngineSleepMode (replies : Replies) : Except Raised Bool :=
  match replies.service with
  | .raised .apiException => .ok false
  | .raised e => .error e
  | .returned ⟨none⟩ => .ok false
  | .returned ⟨some selector⟩ =>
    if selector.entries.isEmpty then .ok false else podsSleepMode (replies.pods (selectorText selector))

def getModelNames (replies : Replies) : List String := replies.modelNames.getD []

def getModelInfo (replies : Replies) : List (String × ModelInfo) :=
  match replies.modelInfo with
  | some models => (Dict.ofList models).entries
  | none => []

def getModelLabel (service : ServiceObject) : Option String := service.selector.bind (·.get? "model")

def endpointInfo (cfg : Settings) (engineName : String) (modelNames : List String) (modelLabel : Option String)
    (sleepMode : Bool) (replies : Replies) : EndpointInfo :=
  { url := engineUrl cfg engineName
    modelNames := modelNames
    addedTimestamp := replies.now
    Id := cfg.uuid5 engineName
    modelLabel := modelLabel
    sleep := if sleepMode then getEngineSleepStatus replies else false
    serviceName := some engineName
    namespaceName := some cfg.namespaceName
    modelInfo := getModelInfo replies }

def addEngine (cfg : Settings) (engines : Dict String EndpointInfo) (engineName : String) (modelNames : List String)
    (modelLabel : Option String) (replies : Replies) : Except Raised (Dict String EndpointInfo) := do
  let sleepMode ← checkEngineSleepMode replies
  return engines.set engineName (endpointInfo cfg engineName modelNames modelLabel sleepMode replies)

def deleteEngine (engines : Dict String EndpointInfo) (engineName : String) : Dict String EndpointInfo :=
  engines.erase engineName

def onEngineUpdate (cfg : Settings) (engines : Dict String EndpointInfo) (engineName : String) (event : Kind)
    (isServiceReady : Bool) (modelNames : List String) (modelLabel : Option String) (replies : Replies) :
    Except Raised (Dict String EndpointInfo) :=
  match event with
  | .added =>
    if engineName = "" then .ok engines
    else if !isServiceReady then .ok engines
    else if modelNames.isEmpty then .ok engines
    else addEngine cfg engines engineName modelNames modelLabel replies
  | .deleted =>
    if !engines.contains engineName then .ok engines else .ok (deleteEngine engines engineName)
  | .modified =>
    if engineName = "" then .ok engines
    else if isServiceReady && !modelNames.isEmpty then addEngine cfg engines engineName modelNames modelLabel replies
    else if engines.contains engineName then .ok (deleteEngine engines engineName)
    else .ok engines

def watchEngines (cfg : Settings) (engines : Dict String EndpointInfo) (event : Event String ServiceObject)
    (replies : Replies) : Except Raised (Dict String EndpointInfo) :=
  if event.kind = .deleted then
    .ok (if engines.contains event.key then deleteEngine engines event.key else engines)
  else do
    let isServiceReady ← checkServiceReady replies.endpoints
    let modelNames := if isServiceReady then getModelNames replies else []
    let modelLabel := if isServiceReady then getModelLabel event.object else none
    onEngineUpdate cfg engines event.key event.kind isServiceReady modelNames modelLabel replies

abbrev Engines := Watched String ServiceObject Replies EndpointInfo

def initEngines : Engines := ⟨.empty, .empty⟩

/-- An exception while an event is handled ends the stream; the loop then opens a new one. -/
def follow (cfg : Settings) (f : Engines) (event : Event String ServiceObject) (replies : Replies) : Option Engines :=
  match watchEngines cfg f.table event replies with
  | .ok engines => some ⟨engines, if event.kind = .deleted then f.seen.erase event.key
      else f.seen.set event.key (event.object, replies)⟩
  | .error _ => none

structure Serving (replies : Replies) : Prop where
  ready : checkServiceReady replies.endpoints = .ok true
  models : getModelNames replies ≠ []

/-- What handling an event comes to, whatever the table holds. -/
def judge (cfg : Settings) (event : Event String ServiceObject) (replies : Replies) : Option (Verdict EndpointInfo) :=
  if event.kind = .deleted then some .drop
  else
    match checkServiceReady replies.endpoints with
    | .error _ => none
    | .ok ready =>
      if event.key = "" then some .keep
      else if ready && !(getModelNames replies).isEmpty then
        match checkEngineSleepMode replies with
        | .error _ => none
        | .ok mode =>
          some (.put (endpointInfo cfg event.key (getModelNames replies) (getModelLabel event.object) mode replies))
      else if event.kind = .added then some .keep
      else some .drop

variable {event : Event String ServiceObject} {replies : Replies} {cfg : Settings}

theorem watchEngines_deleted (cfg : Settings) (engines : Dict String EndpointInfo) (h : event.kind = .deleted)
    (replies : Replies) : watchEngines cfg engines event replies = .ok (engines.erase event.key) := by
  rw [watchEngines, if_pos h]
  by_cases hin : engines.contains event.key = true
  · rw [if_pos hin]
    rfl
  · rw [if_neg hin, Dict.erase_of_contains_eq_false (by simpa using hin)]

theorem addEngine_eq (cfg : Settings) (engines : Dict String EndpointInfo) (name : String) (names : List String)
    (label : Option String) (replies : Replies) :
    addEngine cfg engines name names label replies =
      (checkEngineSleepMode replies).map
        (fun mode => engines.set name (endpointInfo cfg name names label mode replies)) := by
  rw [addEngine]
  cases checkEngineSleepMode replies <;> rfl

theorem onEngineUpdate_serving (cfg : Settings) (engines : Dict String EndpointInfo) {name : String} (hname : name ≠ "")
    {event : Kind} (hevent : event ≠ .deleted) {names : List String} (hnames : names.isEmpty = false)
    (label : Option String) (replies : Replies) :
    onEngineUpdate cfg engines name event true names label replies = addEngine cfg engines name names label replies := by
  cases event with
  | added => simp [onEngineUpdate, hname, hnames]
  | modified => simp [onEngineUpdate, hname, hnames]
  | deleted => exact absurd rfl hevent

theorem onEngineUpdate_unserved (cfg : Settings) (engines : Dict String EndpointInfo) {name : String} (hname : name ≠ "")
    {event : Kind} (hevent : event ≠ .deleted) {ready : Bool} {names : List String}
    (h : (ready && !names.isEmpty) = false) (label : Option String) (replies : Replies) :
    onEngineUpdate cfg engines name event ready names label replies =
      .ok (if event = .added then engines else engines.erase name) := by
  cases event with
  | deleted => exact absurd rfl hevent
  | added =>
    cases ready with
    | false => simp [onEngineUpdate]
    | true =>
      have hempty : names.isEmpty = true := by simpa using h
      simp [onEngineUpdate, hempty]
  | modified =>
    by_cases hin : engines.contains name = true
    · simp [onEngineUpdate, hname, h, hin, deleteEngine]
    · have hout : engines.contains name = false := by simpa using hin
      simp [onEngineUpdate, hname, h, hout, Dict.erase_of_contains_eq_false hout]

theorem watchEngines_eq_judge (cfg : Settings) (engines : Dict String EndpointInfo)
    (event : Event String ServiceObject) (replies : Replies) :
    (watchEngines cfg engines event replies).toOption =
      (judge cfg event replies).map (Verdict.apply event.key engines) := by
  obtain ⟨kind, name, service⟩ := event
  by_cases hdel : kind = .deleted
  · rw [watchEngines_deleted cfg engines hdel, judge, if_pos hdel]
    rfl
  · rw [watchEngines, judge, if_neg hdel, if_neg hdel]
    cases hready : checkServiceReady replies.endpoints with
    | error e => rfl
    | ok ready =>
      change (onEngineUpdate cfg engines name kind ready _ _ replies).toOption = _
      by_cases hname : name = ""
      · cases kind with
        | deleted => exact absurd rfl hdel
        | added => simp [onEngineUpdate, hname, Except.toOption, Verdict.apply]
        | modified => simp [onEngineUpdate, hname, Except.toOption, Verdict.apply]
      · by_cases hserve : (ready && !(getModelNames replies).isEmpty) = true
        · obtain ⟨rfl, hnames⟩ := Bool.and_eq_true_iff.mp hserve
          have hne : (getModelNames replies).isEmpty = false := by simpa using hnames
          rw [if_pos rfl, if_pos rfl, onEngineUpdate_serving cfg engines hname hdel hne, addEngine_eq]
          simp only [hname, if_false, hserve, if_true]
          cases checkEngineSleepMode replies <;> rfl
        · have hoff : (ready && !(if ready = true then getModelNames replies else []).isEmpty) = false := by
            cases ready with
            | false => rfl
            | true => simpa using hserve
          rw [onEngineUpdate_unserved cfg engines hname hdel hoff]
          simp only [hname, if_false, hserve]
          by_cases hadd : kind = .added
          · simp [hadd, Except.toOption, Verdict.apply]
          · simp [hadd, Except.toOption, Verdict.apply]

theorem follow_eq_observe (cfg : Settings) : follow cfg = observe (judge cfg) := by
  funext f event replies
  have h := watchEngines_eq_judge cfg f.table event replies
  rw [follow, observe]
  cases hwatch : watchEngines cfg f.table event replies with
  | error e =>
    rw [hwatch] at h
    rw [Option.map_eq_none_iff.mp h.symm]
    rfl
  | ok engines =>
    rw [hwatch] at h
    obtain ⟨verdict, hjudge, happly⟩ := Option.map_eq_some_iff.mp h.symm
    rw [hjudge, ← happly]
    rfl

/-- The table agrees with the cluster on one name: without a Service there is no engine, and with one
there is the engine that the last handled event about it found, if it found one. -/
structure Settled (cfg : Settings) (service : Option ServiceObject) (f : Engines) (name : String) : Prop where
  absent : service = none → f.table.get? name = none
  seen : ∀ object, service = some object → ∃ replies, f.seen.get? name = some (object, replies)
  serving : ∀ object replies, service = some object → f.seen.get? name = some (object, replies) → Serving replies →
    ∃ mode, checkEngineSleepMode replies = .ok mode ∧
      f.table.get? name = some (endpointInfo cfg name (getModelNames replies) (getModelLabel object) mode replies)
  unserved : ∀ object replies, service = some object → f.seen.get? name = some (object, replies) → ¬ Serving replies →
    f.table.get? name = none

/-- No early return is reached with an entry to drop, and a new stream finds every entry's Service. -/
def Safe (w : World String ServiceObject Engines) : Action String ServiceObject Replies → Prop
  | .deliver replies => ∀ event rest, w.server.pending = event :: rest →
      (event.key = "" ∨ event.kind = .added ∧ ¬ Serving replies) → w.follower.table.get? event.key = none
  | .reconnect => ∀ name, w.server.store.get? name = none → w.follower.table.get? name = none
  | _ => True

theorem serving_iff :
    Serving replies ↔ ∃ ready, checkServiceReady replies.endpoints = .ok ready ∧
      (ready && !(getModelNames replies).isEmpty) = true := by
  constructor
  · rintro ⟨hready, hmodels⟩
    exact ⟨true, hready, by simpa using hmodels⟩
  · rintro ⟨ready, hready, hboth⟩
    obtain ⟨rfl, hmodels⟩ := Bool.and_eq_true_iff.mp hboth
    exact ⟨hready, by simpa using hmodels⟩

theorem judge_cases
    {verdict : Verdict EndpointInfo} (h : judge cfg event replies = some verdict) (hkind : event.kind ≠ .deleted) :
    (event.key = "" ∧ verdict = .keep) ∨
    (event.key ≠ "" ∧ Serving replies ∧ ∃ mode, checkEngineSleepMode replies = .ok mode ∧
      verdict = .put (endpointInfo cfg event.key (getModelNames replies) (getModelLabel event.object) mode replies)) ∨
    (event.key ≠ "" ∧ ¬ Serving replies ∧ verdict = if event.kind = .added then .keep else .drop) := by
  rw [judge, if_neg hkind] at h
  cases hready : checkServiceReady replies.endpoints with
  | error e =>
    rw [hready] at h
    cases h
  | ok ready =>
    simp only [hready] at h
    by_cases hname : event.key = ""
    · rw [if_pos hname] at h
      exact .inl ⟨hname, (Option.some.inj h).symm⟩
    · rw [if_neg hname] at h
      by_cases hserve : (ready && !(getModelNames replies).isEmpty) = true
      · rw [if_pos hserve] at h
        cases hmode : checkEngineSleepMode replies with
        | error e =>
          rw [hmode] at h
          cases h
        | ok mode =>
          rw [hmode] at h
          exact .inr (.inl ⟨hname, serving_iff.mpr ⟨ready, hready, hserve⟩, mode, rfl, (Option.some.inj h).symm⟩)
      · have hnot : ¬ Serving replies := by
          intro hyes
          obtain ⟨ready', hready', hboth⟩ := serving_iff.mp hyes
          cases hready.symm.trans hready'
          exact hserve hboth
        rw [if_neg hserve] at h
        refine .inr (.inr ⟨hname, hnot, ?_⟩)
        by_cases hadd : event.kind = .added
        · rw [if_pos hadd] at h ⊢
          exact (Option.some.inj h).symm
        · rw [if_neg hadd] at h ⊢
          exact (Option.some.inj h).symm

theorem keepsNothing_of_safe {w : World String ServiceObject Engines}
    {action : Action String ServiceObject Replies} (h : Safe w action) : KeepsNothing (judge cfg) w action := by
  cases action with
  | change c => trivial
  | disconnect => trivial
  | reconnect => exact h
  | deliver replies =>
    intro event rest hpending hkeep
    apply h event rest hpending
    have hkind : event.kind ≠ .deleted := by
      intro hdel
      rw [judge, if_pos hdel] at hkeep
      cases hkeep
    rcases judge_cases hkeep hkind with ⟨hname, -⟩ | ⟨-, -, mode, -, hput⟩ | ⟨-, hserve, hverdict⟩
    · exact .inl hname
    · cases hput
    · by_cases hadd : event.kind = .added
      · exact .inr ⟨hadd, hserve⟩
      · rw [if_neg hadd] at hverdict
        cases hverdict

theorem settled_of_mirrors {service : Option ServiceObject} {f : Engines} {name : String}
    (hname : name ≠ "") (h : Mirrors (judge cfg) service f name) : Settled cfg service f name := by
  cases service with
  | none =>
    refine ⟨fun _ => h, ?_, ?_, ?_⟩
    · intro object ho
      cases ho
    · intro object replies ho
      cases ho
    · intro object replies ho
      cases ho
  | some object =>
    obtain ⟨kind, replies, verdict, hkind, hseen, hjudge, hentry⟩ := h
    have hverdict := judge_cases hjudge hkind
    refine ⟨?_, ?_, ?_, ?_⟩
    · intro ho
      cases ho
    · rintro o ⟨⟩
      exact ⟨replies, hseen⟩
    · rintro o r ⟨⟩ hr hserve
      cases hseen.symm.trans hr
      rcases hverdict with ⟨hempty, -⟩ | ⟨-, -, mode, hmode, rfl⟩ | ⟨-, hnot, -⟩
      · exact absurd hempty hname
      · exact ⟨mode, hmode, hentry⟩
      · exact absurd hserve hnot
    · rintro o r ⟨⟩ hr hserve
      cases hseen.symm.trans hr
      rcases hverdict with ⟨hempty, -⟩ | ⟨-, hyes, -⟩ | ⟨-, -, hdrop⟩
      · exact absurd hempty hname
      · exact absurd hyes hserve
      · rw [hentry, hdrop]
        split <;> rfl

/-- Once its stream is worked off, the table agrees with the cluster on every name. -/
theorem service_discovery_converges (cfg : Settings) (cluster : Dict String ServiceObject)
    (actions : List (Action String ServiceObject Replies))
    (hsafe : Along (step (follow cfg)) Safe (init cluster initEngines) actions)
    (hup : (final (step (follow cfg)) (init cluster initEngines) actions).server.connected = true)
    (hdrained : (final (step (follow cfg)) (init cluster initEngines) actions).server.pending = [])
    (name : String) (hname : name ≠ "") :
    Settled cfg ((final (step (follow cfg)) (init cluster initEngines) actions).server.store.get? name)
      (final (step (follow cfg)) (init cluster initEngines) actions).follower name := by
  have hdeleted : ∀ (e : Event String ServiceObject) (r : Replies), e.kind = .deleted → judge cfg e r = some .drop :=
    fun e r h => if_pos h
  rw [follow_eq_observe] at *
  have hkeeps : Along (step (observe (judge cfg))) (KeepsNothing (judge cfg)) (init cluster initEngines) actions :=
    along_mono (fun _ _ => keepsNothing_of_safe) hsafe
  apply settled_of_mirrors hname
  apply (table_converges hdeleted hkeeps).settled hup name
  rw [hdrained]
  exact List.forall_mem_nil _

def stackSettings : Settings := ⟨"default", "8000", id⟩

def engineService : ServiceObject := ⟨some (.ofList [("model", "llama")])⟩

def repliesWith (addresses : List String) (command : Option (List String)) : Replies where
  endpoints := .returned (some [some addresses])
  modelNames := some ["llama"]
  modelInfo := some []
  service := .returned engineService
  pods := fun _ => .returned [[⟨"vllm", command⟩]]
  isSleeping := none
  now := 0

theorem repliesWith_serving (command : Option (List String)) : Serving (repliesWith ["10.0.0.7"] command) :=
  ⟨rfl, List.cons_ne_nil _ _⟩

/-- The engine is found, and dropped when a change of its Service is handled while it has no address. -/
theorem unaddressed_service_dropped :
    Settled stackSettings (some engineService)
      (final (step (follow stackSettings)) (init (.ofList [("engine", engineService)]) initEngines)
        [.reconnect, .deliver (repliesWith ["10.0.0.7"] (some [])), .change (.put "engine" engineService),
          .deliver (repliesWith [] (some []))]).follower "engine" := by
  refine service_discovery_converges stackSettings (.ofList [("engine", engineService)])
    [.reconnect, .deliver (repliesWith ["10.0.0.7"] (some [])), .change (.put "engine" engineService),
      .deliver (repliesWith [] (some []))] ⟨fun _ _ => rfl, ?_, trivial, ?_, trivial⟩ rfl rfl "engine" (by decide)
  · intro event rest hpending _
    cases hpending
    rfl
  · intro event rest hpending hearly
    cases hpending
    rcases hearly with hname | ⟨hadded, -⟩
    · exact absurd hname (by decide)
    · cases hadded

inductive Raises (replies : Replies) : Prop
  | endpoints (e : Raised) (h : replies.endpoints = .raised e)
  | sleepMode (hserving : Serving replies) (e : Raised) (h : checkEngineSleepMode replies = .error e)

theorem scanContainers_raises_iff (enabled : Bool) {containers : List Container} :
    (∃ e, scanContainers enabled containers = .error e) ↔ ∃ c ∈ containers, c.name = "vllm" ∧ c.command = none := by
  induction containers generalizing enabled with
  | nil => simp [scanContainers]
  | cons c rest ih =>
    rw [scanContainers]
    by_cases hvllm : c.name = "vllm"
    · cases hcommand : c.command with
      | none =>
        rw [if_pos hvllm]
        exact iff_of_true ⟨_, rfl⟩ ⟨c, List.mem_cons_self, hvllm, hcommand⟩
      | some args =>
        rw [if_pos hvllm]
        simp only [ih, List.mem_cons, exists_eq_or_imp, hcommand, reduceCtorEq, and_false, false_or]
    · rw [if_neg hvllm]
      simp only [ih, List.mem_cons, exists_eq_or_imp, hvllm, false_and, false_or]

theorem raises_of_commandless (hserving : Serving replies) {selector : Dict String String}
    (hservice : replies.service = .returned ⟨some selector⟩) (hselector : selector.entries ≠ []) {containers : List Container}
    {others : List (List Container)} (hpods : replies.pods (selectorText selector) = .returned (containers :: others))
    {c : Container} (hmem : c ∈ containers) (hname : c.name = "vllm") (hcommand : c.command = none) : Raises replies := by
  obtain ⟨e, he⟩ := (scanContainers_raises_iff false).mpr ⟨c, hmem, hname, hcommand⟩
  refine .sleepMode hserving e ?_
  have hne : selector.entries.isEmpty = false := by simpa using hselector
  simp only [checkEngineSleepMode, hservice, hne, hpods, podsSleepMode]
  exact he

theorem judge_eq_none
    (hkind : event.kind ≠ .deleted) (hname : event.key ≠ "") (h : Raises replies) : judge cfg event replies = none := by
  rw [judge, if_neg hkind]
  cases h with
  | endpoints e hraised =>
    rw [hraised]
    rfl
  | sleepMode hserving e hraised =>
    have hmodels : (getModelNames replies).isEmpty = false := by simpa using hserving.models
    simp only [hserving.ready, hname, if_false, hmodels, hraised]
    rfl

/-- The Service stays in the cluster, and the handling of its announcement raises each time. -/
def KeepsRaising (blocker : String) (w : World String ServiceObject Engines) :
    Action String ServiceObject Replies → Prop
  | .deliver replies => ∀ event rest, w.server.pending = event :: rest → event.key = blocker → Raises replies
  | .change (.remove name) => name ≠ blocker
  | _ => True

theorem obstructs_of_keepsRaising {blocker : String} (hname : blocker ≠ "")
    {w : World String ServiceObject Engines} {action : Action String ServiceObject Replies}
    (h : KeepsRaising blocker w action) : Obstructs (observe (judge cfg)) blocker w action := by
  cases action with
  | change c =>
    cases c with
    | put name object => trivial
    | remove name => exact h
  | disconnect => trivial
  | reconnect => trivial
  | deliver replies =>
    rintro event rest hpending rfl hadded
    have hkind : event.kind ≠ .deleted := by simp [hadded]
    rw [observe, judge_eq_none hkind hname (h event rest hpending rfl)]
    rfl

theorem table_get?_of_observe {judge : Event String ServiceObject → Replies → Option (Verdict EndpointInfo)} {f f' : Engines}
    (h : observe judge f event replies = some f') {name : String} (hne : name ≠ event.key) :
    f'.table.get? name = f.table.get? name := by
  obtain ⟨verdict, -, htable, -⟩ := observe_eq_some h
  rw [htable]
  exact verdict.get?_apply_of_ne f.table hne

/-- Neither the Service whose handling raises nor any that the list at the start has behind it is ever among the
engines, however often the stream is opened again. -/
theorem services_behind_a_raising_one_stay_unknown (cfg : Settings) (cluster : Dict String ServiceObject)
    (blocker : String) (hblocker : blocker ≠ "") (before behind : List String)
    (hlisted : cluster.keys = before ++ blocker :: behind) (actions : List (Action String ServiceObject Replies))
    (hrun : Along (step (follow cfg)) (KeepsRaising blocker) (init cluster initEngines) actions)
    (name : String) (hname : name ∈ blocker :: behind) :
    (final (step (follow cfg)) (init cluster initEngines) actions).follower.table.get? name = none := by
  rw [follow_eq_observe] at *
  have hobstructs : Along (step (observe (judge cfg))) (Obstructs (observe (judge cfg)) blocker)
      (init cluster initEngines) actions :=
    along_mono (fun _ _ => obstructs_of_keepsRaising hblocker) hrun
  have hnodup : (before ++ blocker :: behind).Nodup := hlisted ▸ cluster.nodup
  refine blocked_run (I := fun f => f.table.get? name = none) ?_ rfl
    ⟨before, behind, hlisted, List.Subset.refl _⟩ hobstructs
  intro f event replies f' h hfront hnone
  have hne : name ≠ event.key := fun heq => List.disjoint_of_nodup_append hnodup hfront (heq ▸ hname)
  exact (table_get?_of_observe h hne).trans hnone

/-- The container of the first Service has no command of its own, so the second is never reached. -/
theorem second_service_unknown :
    (final (step (follow stackSettings))
      (init (.ofList [("gateway", engineService), ("engine", engineService)]) initEngines)
      [.reconnect, .deliver (repliesWith ["10.0.0.7"] none), .reconnect,
        .deliver (repliesWith ["10.0.0.7"] none)]).follower.table.get? "engine" = none := by
  have hraises : Raises (repliesWith ["10.0.0.7"] none) :=
    raises_of_commandless (repliesWith_serving none) rfl (List.cons_ne_nil _ _) rfl (List.mem_singleton_self _) rfl rfl
  exact services_behind_a_raising_one_stay_unknown stackSettings
    (.ofList [("gateway", engineService), ("engine", engineService)]) "gateway" (by decide) [] ["engine"] rfl
    [.reconnect, .deliver (repliesWith ["10.0.0.7"] none), .reconnect, .deliver (repliesWith ["10.0.0.7"] none)]
    ⟨trivial, fun _ _ _ _ => hraises, trivial, fun _ _ _ _ => hraises, trivial⟩ "engine" (by decide)

end ProductionStack.ServiceNameDiscovery
