import ProductionStack.Threads
import ProductionStack.UnchangedConfig

namespace ProductionStack.StartupRace

open Runs RouterConfig Reconfigure ConfigWatcher Startup UnchangedConfig

/-- A thread of the router; each access to the registry or to app.state is one action. -/
abbrev Task (α : Type) := Thread System Exc α

def className : RoutingLogic → String
  | .roundRobin => "RoundRobinRouter"
  | .sessionBased => "SessionRouter"
  | .kvaware => "KvawareRouter"
  | .prefixaware => "PrefixAwareRouter"
  | .disaggregatedPrefill => "DisaggregatedPrefillRouter"

def isRegistered (cls : RoutingLogic) : Task Bool := .atomic fun s => (.ok (s.instances.contains cls), s)

def registered (cls : RoutingLogic) : Task (Object RouterParams) := .atomic fun s =>
  match s.instances.get? cls with
  | some router => (.ok router, s)
  | none => (.error (.keyError (className cls)), s)

def register (cls : RoutingLogic) (router : Object RouterParams) : Task Unit := .atomic fun s =>
  (.ok (), { s with instances := s.instances.set cls router })

def unregister (cls : RoutingLogic) : Task Unit := .atomic fun s =>
  if s.instances.contains cls then (.ok (), { s with instances := s.instances.erase cls })
  else (.error (.keyError (className cls)), s)

def newObject (params : RouterParams) : Task (Object RouterParams) := .atomic fun s =>
  (.ok ⟨s.nextId, params⟩,
    { s with
      nextId := s.nextId + 1
      fresh := s.fresh_succ })

/-- What calling a router class does: the test, the construction with its assignment, and the final lookup
are accesses of their own. -/
def call (cls : RoutingLogic) (construct : Except Exc RouterParams) : Task (Object RouterParams) := do
  if ← isRegistered cls then registered cls
  else do
    let params ← Thread.ofExcept construct
    let router ← newObject params
    register cls router
    registered cls

def constructDefault (env : Env) : RoutingLogic → Except Exc RouterParams
  | .roundRobin => .ok .roundRobin
  | .sessionBased => sessionRouter none
  | .kvaware => .error .typeError
  | .prefixaware => env.importHashtrie.map (fun _ => .prefixAware)
  | .disaggregatedPrefill => .error .typeError

def close (env : Env) (cls : RoutingLogic) (router : Object RouterParams) : Task Unit :=
  match cls with
  | .kvaware => .atomic fun s =>
    match env.closeKvaware with
    | .error e => (.error e, s)
    | .ok () => (.ok (), { s with closed := insert router.id s.closed })
  | _ => pure ()

def cleanupClass (env : Env) (cls : RoutingLogic) : Task Unit := do
  if ← isRegistered cls then
    let router ← call cls (constructDefault env cls)
    close env cls router
    unregister cls
  else pure ()

def cleanupClasses (env : Env) : List RoutingLogic → Task Unit
  | [] => pure ()
  | cls :: rest => do
      cleanupClass env cls
      cleanupClasses env rest

def startKvManager (env : Env) (logic : RoutingLogic) (router : Object RouterParams) : Task (Object RouterParams) :=
  match logic with
  | .kvaware => Thread.ofExcept (env.startKvManager.map (fun _ => router))
  | _ => pure router

def initializeRoutingLogic (env : Env) (routingLogic : String) (kwargs : RoutingKwargs) :
    Task (Object RouterParams) :=
  match RoutingLogic.ofString routingLogic with
  | none => .fail (invalidRoutingLogic routingLogic)
  | some logic => do
      let router ← call logic (constructRouter env kwargs logic)
      startKvManager env logic router

def getRoutingLogic (env : Env) : List RoutingLogic → Task (Object RouterParams)
  | [] => .fail (.valueError "The global router has not been initialized")
  | cls :: rest => do
      if ← isRegistered cls then call cls (constructDefault env cls)
      else getRoutingLogic env rest

/-- What the watcher thread does with a configuration that has changed. -/
def reconfigureAll (env : Env) (config : DynamicRouterConfig) : Task Unit := do
  Thread.atomic (reconfigureServiceDiscovery env config)
  cleanupClasses env routerClasses
  let router ← initializeRoutingLogic env config.routingLogic (reloadKwargs config)
  Thread.atomic (setRouter router)
  Thread.atomic (reconfigureCallbacks env config)

def configureCustomCallbacks (env : Env) (location : String) : Task Unit := .atomic fun s =>
  match env.importInstance (callbackAt location) with
  | .error e => (.error e, s)
  | .ok () => (.ok (), { s with callbacks := some (callbackAt location) })

def initializeCallbacks (env : Env) (args : Args) : Task Unit :=
  match truthy args.callbacks with
  | none => pure ()
  | some location => configureCustomCallbacks env location

/-- What is left of initialize_all once the watcher thread runs. -/
def initializeAll (env : Env) (args : Args) : Task Unit := do
  initializeCallbacks env args
  let _ ← initializeRoutingLogic env (args.routingLogic.getD "None") (startupKwargs args)
  let router ← getRoutingLogic env routerClasses
  Thread.atomic (setRouter router)

structure Reload where
  config : DynamicRouterConfig
  task : Task Unit
  begun : Bool := false

structure Process where
  system : System
  currentConfig : DynamicRouterConfig
  startup : Task Unit
  begun : Bool := false
  reload : Option Reload := none

/-- One action of initialize_all or of a reload, or a poll of the config file by the idle watcher. -/
inductive Step
  | startup
  | poll (config : DynamicRouterConfig) (env : Env)
  | reload

def poll (p : Process) (config : DynamicRouterConfig) (env : Env) : Process :=
  match p.reload with
  | some _ => p
  | none => if config ≠ p.currentConfig then { p with reload := some { config, task := reconfigureAll env config } } else p

/-- The configuration becomes the current one in an action of its own, after the last one of the reload. -/
def advance (p : Process) (r : Reload) : Process :=
  match r.task with
  | .ret () => { p with currentConfig := r.config, reload := none }
  | .fail _ => { p with reload := none }
  | .act update next =>
    { p with
      system := update p.system
      reload := some { r with task := next p.system, begun := true } }

def step : Component Process Step Unit := fun p i => ((),
  match i with
  | .startup =>
    { p with
      system := (p.startup.step p.system).2
      startup := (p.startup.step p.system).1
      begun := true }
  | .poll config env => poll p config env
  | .reload =>
    match p.reload with
    | none => p
    | some r => advance p r)

def started (s : System) (env : Env) (args : Args) : Process where
  system := { s with instances := .empty, router := none }
  currentConfig := fromArgs args
  startup := initializeAll env args

/-- The registry has one router, of the class that the configuration selects, and app.state has the same. -/
def ForcedBy (config : DynamicRouterConfig) (s : System) : Prop :=
  ∃ logic router, RoutingLogic.ofString config.routingLogic = some logic ∧ s.router = some router ∧
    ∀ k, s.instances.get? k = if k = logic then some router else none

/-- Once startup has finished and no reload is in progress, one router is in force. -/
def OneInForce (p : Process) : Prop :=
  p.startup.returned = true → p.reload = none → ForcedBy p.currentConfig p.system

def Idle (p : Process) : Prop := ∀ r ∈ p.reload, r.begun = false

def Succeeds (p : Process) : Step → Prop
  | .reload => ∀ r ∈ p.reload, r.task.failed = false
  | _ => True

/-- No reload overlaps with the startup, and one before it has left a router of the class that startup selects. -/
def Apart (args : Args) (p : Process) : Step → Prop
  | .startup => p.begun = false → Idle p ∧
      RoutingLogic.ofString p.currentConfig.routingLogic = RoutingLogic.ofString (args.routingLogic.getD "None")
  | .reload => p.begun = false ∨ p.startup.returned = true
  | .poll _ _ => True

instance (p : Process) : Decidable (Idle p) := inferInstanceAs (Decidable (∀ r ∈ p.reload, r.begun = false))

instance (p : Process) : ∀ x, Decidable (Succeeds p x)
  | .reload => inferInstanceAs (Decidable (∀ r ∈ p.reload, r.task.failed = false))
  | .startup | .poll _ _ => .isTrue trivial

instance (args : Args) (p : Process) : ∀ x, Decidable (Apart args p x)
  | .startup => inferInstanceAs (Decidable (_ → _ ∧ _))
  | .reload => inferInstanceAs (Decidable (_ ∨ _))
  | .poll _ _ => .isTrue trivial

section Alone

variable (env : Env)

theorem alone_andThen {α β : Type} {t : Task α} {k : α → Task β} {c : Procedure α} {f : α → Procedure β} {s : System}
    (ht : t.alone s = c s) (hk : ∀ a s, (k a).alone s = f a s) : (t >>= k).alone s = andThen c f s := by
  simp only [Thread.alone_bind, ht, hk, andThen]
  rcases c s with ⟨_ | _, _⟩ <;> rfl

theorem alone_isRegistered (cls : RoutingLogic) (s : System) :
    (isRegistered cls).alone s = (.ok (s.instances.get? cls).isSome, s) := Thread.alone_atomic _ s

theorem alone_call (cls : RoutingLogic) (construct : Except Exc RouterParams) (s : System) :
    (call cls construct).alone s = instantiate cls construct s := by
  rw [call, Thread.alone_bind, alone_isRegistered]
  cases hget : s.instances.get? cls with
  | some router => simp [instantiate, registered, hget]
  | none =>
    cases construct with
    | error e => simp [instantiate, hget]
    | ok params => simp [instantiate, hget, newObject, register, registered]

theorem alone_cleanupClass (cls : RoutingLogic) (s : System) :
    (cleanupClass env cls).alone s = Reconfigure.cleanupClass env cls s := by
  rw [cleanupClass, Thread.alone_bind, alone_isRegistered]
  cases hget : s.instances.get? cls with
  | none => simp [Reconfigure.cleanupClass, hget]
  | some router =>
    have hcontains : s.instances.contains cls = true := by rw [Dict.contains, hget]; rfl
    cases cls with
    | kvaware =>
      cases hclose : env.closeKvaware <;>
        simp [Reconfigure.cleanupClass, hget, alone_call, instantiate, close, hclose, unregister, hcontains]
    | _ => simp [Reconfigure.cleanupClass, hget, alone_call, instantiate, close, unregister, hcontains]

theorem alone_cleanupClasses (classes : List RoutingLogic) (s : System) :
    (cleanupClasses env classes).alone s = Reconfigure.cleanupClasses env classes s := by
  induction classes generalizing s with
  | nil => rfl
  | cons cls rest ih => exact alone_andThen (alone_cleanupClass env cls s) (fun _ => ih)

theorem alone_initializeRoutingLogic (routingLogic : String) (kwargs : RoutingKwargs) (s : System) :
    (initializeRoutingLogic env routingLogic kwargs).alone s =
      Reconfigure.initializeRoutingLogic env routingLogic kwargs s := by
  rw [initializeRoutingLogic, Reconfigure.initializeRoutingLogic]
  cases RoutingLogic.ofString routingLogic with
  | none => rfl
  | some logic =>
    refine alone_andThen (alone_call logic _ s) (fun router s => ?_)
    cases logic with
    | kvaware => exact Thread.alone_ofExcept _ s
    | _ => rfl

/-- A reload that nothing interrupts is the one that was modelled as one step. -/
theorem alone_reconfigureAll (config : DynamicRouterConfig) (s : System) :
    (reconfigureAll env config).alone s = Reconfigure.reconfigureAll env config s := by
  rw [Reconfigure.reconfigureAll, reconfigureRoutingLogic, andThen_assoc, cleanupRoutingLogic]
  refine alone_andThen (Thread.alone_atomic _ s) (fun _ s => ?_)
  rw [andThen_assoc]
  refine alone_andThen (alone_cleanupClasses env routerClasses s) (fun _ s => ?_)
  refine alone_andThen (alone_initializeRoutingLogic env _ _ s) (fun router s => ?_)
  exact alone_andThen (Thread.alone_atomic _ s) (fun _ s => Thread.alone_atomic _ s)

theorem alone_getRoutingLogic {logic : RoutingLogic} {router : Object RouterParams} {s : System}
    (hget : ∀ k, s.instances.get? k = if k = logic then some router else none) {classes : List RoutingLogic}
    (hmem : logic ∈ classes) : (getRoutingLogic env classes).alone s = (.ok router, s) := by
  induction classes with
  | nil => cases hmem
  | cons cls rest ih =>
    rw [getRoutingLogic, Thread.alone_bind, alone_isRegistered, hget]
    by_cases hcls : cls = logic
    · simp [alone_call, instantiate, hget, hcls]
    · simpa [hcls] using ih (List.mem_of_ne_of_mem (Ne.symm hcls) hmem)

end Alone

section Forced

variable {env : Env}

/-- Nothing is registered that the configuration does not select. -/
def Clear (config : DynamicRouterConfig) (s : System) : Prop :=
  ∀ k, RoutingLogic.ofString config.routingLogic ≠ some k → s.instances.get? k = none

theorem ForcedBy.clear {config : DynamicRouterConfig} {s : System} (h : ForcedBy config s) : Clear config s := by
  obtain ⟨logic, router, hlogic, -, hget⟩ := h
  intro k hk
  rw [hget, if_neg]
  rintro rfl
  exact hk hlogic

theorem reload_forced {config : DynamicRouterConfig} {s s' : System}
    (h : (reconfigureAll env config).alone s = (.ok (), s')) : ForcedBy config s' := by
  rw [alone_reconfigureAll] at h
  obtain ⟨logic, router, hlogic, hrouter, hget, -⟩ := (reconfigureAll_describes h).router
  exact ⟨logic, router, hlogic, hrouter, hget⟩

theorem callbacks_instances {args : Args} {s s' : System} (h : (initializeCallbacks env args).alone s = (.ok (), s')) :
    s'.instances = s.instances := by
  rw [initializeCallbacks] at h
  cases hcallbacks : truthy args.callbacks with
  | none =>
    rw [hcallbacks] at h
    cases h
    rfl
  | some location =>
    simp only [hcallbacks, configureCustomCallbacks, Thread.alone_atomic] at h
    cases himport : env.importInstance (callbackAt location) with
    | error e =>
      rw [himport] at h
      cases h
    | ok u =>
      rw [himport] at h
      cases h
      rfl

theorem initialize_registers {routingLogic : String} {kwargs : RoutingKwargs} {logic : RoutingLogic}
    (hlogic : RoutingLogic.ofString routingLogic = some logic) {s s' : System} {router : Object RouterParams}
    (h : Reconfigure.initializeRoutingLogic env routingLogic kwargs s = (.ok router, s'))
    (hnone : ∀ k, k ≠ logic → s.instances.get? k = none) (k : RoutingLogic) :
    s'.instances.get? k = if k = logic then some router else none := by
  simp only [Reconfigure.initializeRoutingLogic, hlogic] at h
  obtain ⟨built, s₁, hinst, hstart⟩ := andThen_returns h
  obtain ⟨rfl, rfl⟩ := startRouter_returns hstart
  cases hget : s.instances.get? logic with
  | some existing =>
    simp only [instantiate, hget] at hinst
    cases hinst
    split
    next hk => rw [hk, hget]
    next hk => exact hnone k hk
  | none =>
    rcases instantiate_absent hget (constructRouter env kwargs logic) with ⟨params, s₂, -, hrun, hinstances⟩ | ⟨e, -, hrun⟩
    · rw [hrun] at hinst
      cases hinst
      rw [hinstances, Dict.get?_set]
      split
      · rfl
      next hk => exact hnone k hk
    · rw [hrun] at hinst
      cases hinst

theorem startup_forced {args : Args} {config : DynamicRouterConfig} {s s' : System}
    (h : (initializeAll env args).alone s = (.ok (), s'))
    (hsame : RoutingLogic.ofString config.routingLogic = RoutingLogic.ofString (args.routingLogic.getD "None"))
    (hclear : Clear config s) : ForcedBy config s' := by
  obtain ⟨_, s₁, hcallbacks, h⟩ := Thread.alone_bind_returns h
  obtain ⟨router, s₂, hinit, h⟩ := Thread.alone_bind_returns h
  rw [alone_initializeRoutingLogic] at hinit
  cases hlogic : RoutingLogic.ofString (args.routingLogic.getD "None") with
  | none =>
    simp only [Reconfigure.initializeRoutingLogic, hlogic] at hinit
    cases hinit
  | some logic =>
    have hselected := hsame.trans hlogic
    have hnone : ∀ k, k ≠ logic → s₁.instances.get? k = none := by
      intro k hk
      rw [callbacks_instances hcallbacks]
      exact hclear k (fun hk' => hk (Option.some.inj (hk'.symm.trans hselected)))
    have hget := initialize_registers hlogic hinit hnone
    have hmem : logic ∈ routerClasses := by cases logic <;> decide
    rw [Thread.alone_bind, alone_getRoutingLogic env hget hmem] at h
    cases h
    exact ⟨logic, router, hselected, rfl, hget⟩

theorem initializeAll_not_returned (env : Env) (args : Args) : (initializeAll env args).returned = false := by
  rw [initializeAll, initializeCallbacks]
  cases truthy args.callbacks with
  | some location => rfl
  | none =>
    change (initializeRoutingLogic env _ _ >>= _).returned = false
    rw [initializeRoutingLogic]
    cases RoutingLogic.ofString (args.routingLogic.getD "None") <;> rfl

end Forced

section Interleaving

variable {env : Env} {args : Args} {p : Process}

/-- What the steps keep. What a reload or the startup will come to if the other does not interrupt it is
known at each of its actions. -/
structure Ordered (env : Env) (args : Args) (p : Process) : Prop where
  waiting : p.begun = false → p.startup = initializeAll env args
  unbegun : ∀ r ∈ p.reload, r.begun = false → ∃ env, r.task = reconfigureAll env r.config
  reload : ∀ r ∈ p.reload, ∀ s, r.task.alone p.system = (.ok (), s) → ForcedBy r.config s
  clear : Idle p → p.begun = false → Clear p.currentConfig p.system
  startup : Idle p → p.begun = true → ∀ s, p.startup.alone p.system = (.ok (), s) → ForcedBy p.currentConfig s
  apart : ¬Idle p → p.begun = false ∨ p.startup.returned = true

theorem forall_reload_of_none {P : Reload → Prop} (h : p.reload = none) : ∀ r ∈ p.reload, P r := by
  intro r hr
  rw [h] at hr
  cases hr

theorem idle_of_none (h : p.reload = none) : Idle p := forall_reload_of_none h

theorem not_idle {r : Reload} (h : p.reload = some r) (hbegun : r.begun = true) : ¬Idle p := by
  intro hidle
  have hidle := hidle r h
  rw [hbegun] at hidle
  cases hidle

theorem ordered_started (s : System) (env : Env) (args : Args) : Ordered env args (started s env args) where
  waiting _ := rfl
  unbegun := forall_reload_of_none rfl
  reload := forall_reload_of_none rfl
  clear _ _ _ _ := rfl
  startup _ hbegun := by cases hbegun
  apart h := absurd (idle_of_none rfl) h

theorem ordered_startup (h : Ordered env args p) (hapart : Apart args p .startup) : Ordered env args (step p .startup).2 := by
  -- only a finished startup can be stepped while a reload is in progress
  have hfinished : ¬Idle p → p.startup.returned = true := by
    intro hbusy
    rcases h.apart hbusy with hbegun | hreturned
    · exact absurd (hapart hbegun).1 hbusy
    · exact hreturned
  refine ⟨?_, h.unbegun, ?_, ?_, ?_, ?_⟩
  · intro hbegun
    cases hbegun
  · intro r hr s hrun
    by_cases hidle : Idle p
    · obtain ⟨env', htask⟩ := h.unbegun r hr (hidle r hr)
      rw [htask] at hrun
      exact reload_forced hrun
    · refine h.reload r hr s ?_
      rwa [step, Thread.step_of_returned (hfinished hidle)] at hrun
  · intro _ hbegun
    cases hbegun
  · intro hidle _ s hrun
    have hrun : p.startup.alone p.system = (.ok (), s) := (Thread.alone_step p.startup p.system).symm.trans hrun
    cases hbegun : p.begun with
    | true => exact h.startup hidle hbegun s hrun
    | false =>
      rw [h.waiting hbegun] at hrun
      exact startup_forced hrun (hapart hbegun).2 (h.clear hidle hbegun)
  · intro hbusy
    have hreturned := hfinished hbusy
    rw [step, Thread.step_of_returned hreturned]
    exact .inr hreturned

theorem ordered_poll (h : Ordered env args p) (config : DynamicRouterConfig) (env' : Env) :
    Ordered env args (step p (.poll config env')).2 := by
  rw [step, poll]
  cases hreload : p.reload with
  | some r => exact h
  | none =>
    have hidle : Idle p := idle_of_none hreload
    dsimp only
    split
    · refine ⟨h.waiting, ?_, ?_, fun _ => h.clear hidle, fun _ => h.startup hidle, ?_⟩
      · rintro _ ⟨⟩ _
        exact ⟨env', rfl⟩
      · rintro _ ⟨⟩ s hrun
        exact reload_forced hrun
      · intro hbusy
        refine absurd ?_ hbusy
        rintro _ ⟨⟩
        rfl
    · exact h

theorem ordered_reload (h : Ordered env args p) (hapart : Apart args p .reload) (hsucceeds : Succeeds p .reload) :
    Ordered env args (step p .reload).2 := by
  rw [step]
  cases hreload : p.reload with
  | none => exact h
  | some r =>
    have hforced := h.reload r hreload
    dsimp only
    rw [advance]
    cases htask : r.task with
    | ret u =>
      have hforced : ForcedBy r.config p.system := hforced p.system (by rw [htask]; rfl)
      refine ⟨h.waiting, forall_reload_of_none rfl, forall_reload_of_none rfl, fun _ _ => hforced.clear, ?_,
        fun hbusy => absurd (idle_of_none rfl) hbusy⟩
      intro _ hbegun s hrun
      have hreturned : p.startup.returned = true := hapart.resolve_left (by simpa using hbegun)
      cases (Thread.alone_of_returned hreturned p.system).symm.trans hrun
      exact hforced
    | fail e =>
      have hfailed := hsucceeds r hreload
      rw [htask] at hfailed
      cases hfailed
    | act update next =>
      have hbusy : ¬Idle { p with system := update p.system, reload := some { r with task := next p.system, begun := true } } :=
        not_idle rfl rfl
      refine ⟨h.waiting, ?_, ?_, fun hidle => absurd hidle hbusy, fun hidle => absurd hidle hbusy, fun _ => hapart⟩
      · rintro _ ⟨⟩ hbegun
        cases hbegun
      · rintro _ ⟨⟩ s hrun
        refine hforced s ?_
        rw [htask]
        exact hrun

theorem ordered_step (x : Step) (h : Ordered env args p) (hapart : Apart args p x) (hsucceeds : Succeeds p x) :
    Ordered env args (step p x).2 := by
  cases x with
  | startup => exact ordered_startup h hapart
  | poll config env' => exact ordered_poll h config env'
  | reload => exact ordered_reload h hapart hsucceeds

theorem Ordered.oneInForce (h : Ordered env args p) : OneInForce p := by
  intro hreturned hnone
  have hidle : Idle p := idle_of_none hnone
  cases hbegun : p.begun with
  | false =>
    rw [h.waiting hbegun, initializeAll_not_returned] at hreturned
    cases hreturned
  | true => exact h.startup hidle hbegun p.system (Thread.alone_of_returned hreturned p.system)

/-- In every run in which no reload overlaps with the startup and each reload succeeds, one router is in
force whenever the startup has finished and no reload is in progress. -/
theorem one_router_in_force (s : System) (env : Env) (args : Args) (steps : List Step)
    (hapart : Along step (Apart args) (started s env args) steps) (hsucceeds : Along step Succeeds (started s env args) steps) :
    OneInForce (final step (started s env args) steps) :=
  Ordered.oneInForce (final_invariant (fun _ x h hC => ordered_step x h hC.1 hC.2) (ordered_started s env args)
    (along_and hapart hsucceeds))

def staticConfig : DynamicRouterConfig := toConfig staticFile "static" "session"

def staticStart : Process := started llamaSystem quietEnv (loadInitialConfig staticFile)

def reloadAfter : List Step := List.replicate 8 .startup ++ .poll staticConfig quietEnv :: List.replicate 16 .reload

theorem reload_after_startup :
    (final step staticStart reloadAfter).startup.returned = true ∧ (final step staticStart reloadAfter).reload.isNone = true ∧
      ForcedBy staticConfig (final step staticStart reloadAfter).system :=
  ⟨by decide +kernel, by decide +kernel,
    one_router_in_force llamaSystem quietEnv (loadInitialConfig staticFile) reloadAfter (by decide +kernel) (by decide +kernel)
      (by decide +kernel) rfl⟩

def reloadWithin : List Step :=
  List.replicate 7 .startup ++ .poll staticConfig quietEnv :: List.replicate 16 .reload ++ [.startup]

theorem ForcedBy.registered {config : DynamicRouterConfig} {s : System} (h : ForcedBy config s) (logic : RoutingLogic)
    (hlogic : RoutingLogic.ofString config.routingLogic = some logic) : s.instances.get? logic = s.router := by
  obtain ⟨logic', router, hlogic', hrouter, hget⟩ := h
  rw [hget, if_pos (Option.some.inj (hlogic.symm.trans hlogic')), hrouter]

theorem startup_restores_old_router :
    ¬ ∀ (s : System) (env : Env) (args : Args) (steps : List Step), Along step Succeeds (started s env args) steps →
      OneInForce (final step (started s env args) steps) := by
  intro h
  have hforced : ForcedBy _ (final step staticStart reloadWithin).system :=
    h llamaSystem quietEnv (loadInitialConfig staticFile) reloadWithin (by decide +kernel) (by decide +kernel) rfl
  have hsame := hforced.registered .sessionBased rfl
  have hids : ((final step staticStart reloadWithin).system.instances.get? .sessionBased).map Object.id ≠
      (final step staticStart reloadWithin).system.router.map Object.id := by decide +kernel
  exact hids (congrArg _ hsame)

end Interleaving

end ProductionStack.StartupRace
