import Mathlib.Data.Finset.Insert
import ProductionStack.RouterConfig

namespace ProductionStack.Reconfigure

open StaticLists RouterConfig

structure Object (P : Type) where
  id : Nat
  params : P

structure Callback where
  moduleName : String
  instanceName : String
  deriving DecidableEq, Repr

/-- The globals and the part of app.state that a reconfiguration replaces. Objects whose close
returned or was begun are in `closed`; a new object gets an id that none had before. -/
structure System where
  discovery : Option (Object DiscoveryParams)
  instances : Dict RoutingLogic (Object RouterParams)
  router : Option (Object RouterParams)
  callbacks : Option Callback
  closed : Finset Nat
  nextId : Nat
  fresh : ∀ o, discovery = some o → o.id < nextId

theorem System.fresh_succ (s : System) : ∀ o, s.discovery = some o → o.id < s.nextId + 1 :=
  fun o ho => Nat.lt_succ_of_lt (s.fresh o ho)

/-- What the calls that leave the modelled code do during one reconfiguration. -/
structure Env where
  loadKubeConfig : Except Exc Unit
  closeDiscovery : Except Exc Unit
  closeKvaware : Except Exc Unit
  constructKvManager : Except Exc Unit
  startKvManager : Except Exc Unit
  importHashtrie : Except Exc Unit
  importInstance : Callback → Except Exc Unit

/-- A procedure returns or raises, and keeps what it did to the state either way. -/
abbrev Procedure (α : Type) := System → Except Exc α × System

def andThen {α β : Type} (p : Procedure α) (q : α → Procedure β) : Procedure β := fun s =>
  match p s with
  | (.ok a, s') => q a s'
  | (.error e, s') => (.error e, s')

def newDiscovery (env : Env) (config : DynamicRouterConfig) : Except Exc DiscoveryParams := do
  createServiceDiscovery env.loadKubeConfig (← reloadDiscoveryArgs config)

/-- The new object is built before the running one is closed and replaced. -/
def reconfigureServiceDiscovery (env : Env) (config : DynamicRouterConfig) : Procedure Unit := fun s =>
  match reloadDiscoveryArgs config with
  | .error e => (.error e, s)
  | .ok args =>
    match s.discovery with
    | none => (.error (.valueError "Service discovery module not initialized"), s)
    | some running =>
      match createServiceDiscovery env.loadKubeConfig args with
      | .error e => (.error e, s)
      | .ok params =>
        match env.closeDiscovery with
        | .error e =>
          (.error e,
            { s with
              closed := insert running.id s.closed
              nextId := s.nextId + 1
              fresh := fun o ho => Nat.lt_succ_of_lt (s.fresh o ho) })
        | .ok () =>
          (.ok (),
            { s with
              discovery := some ⟨s.nextId, params⟩
              closed := insert running.id s.closed
              nextId := s.nextId + 1
              fresh := by
                intro o ho
                cases ho
                exact Nat.lt_succ_self _ })

def routerClasses : List RoutingLogic :=
  [.sessionBased, .roundRobin, .kvaware, .prefixaware, .disaggregatedPrefill]

/-- Only the KV-aware router has a close method. -/
def cleanupClass (env : Env) (cls : RoutingLogic) : Procedure Unit := fun s =>
  match s.instances.get? cls, cls with
  | none, _ => (.ok (), s)
  | some router, .kvaware =>
    match env.closeKvaware with
    | .error e => (.error e, s)
    | .ok () =>
      (.ok (), { s with closed := insert router.id s.closed, instances := s.instances.erase .kvaware })
  | some _, cls => (.ok (), { s with instances := s.instances.erase cls })

def cleanupClasses (env : Env) : List RoutingLogic → Procedure Unit
  | [] => fun s => (.ok (), s)
  | cls :: rest => andThen (cleanupClass env cls) (fun _ => cleanupClasses env rest)

def cleanupRoutingLogic (env : Env) : Procedure Unit := cleanupClasses env routerClasses

/-- A class that has its instance returns it without looking at the arguments. -/
def instantiate (cls : RoutingLogic) (construct : Except Exc RouterParams) : Procedure (Object RouterParams) :=
  fun s =>
    match s.instances.get? cls, construct with
    | some router, _ => (.ok router, s)
    | none, .error e => (.error e, s)
    | none, .ok params =>
      (.ok ⟨s.nextId, params⟩,
        { s with
          instances := s.instances.set cls ⟨s.nextId, params⟩
          nextId := s.nextId + 1
          fresh := fun o ho => Nat.lt_succ_of_lt (s.fresh o ho) })

def constructRouter (env : Env) (kwargs : RoutingKwargs) (logic : RoutingLogic) : Except Exc RouterParams := do
  match logic with
  | .kvaware => env.constructKvManager
  | .prefixaware => env.importHashtrie
  | _ => pure ()
  routerParams kwargs logic

def startRouter (env : Env) (logic : RoutingLogic) (router : Object RouterParams) :
    Procedure (Object RouterParams) := fun s =>
  match logic with
  | .kvaware => (env.startKvManager.map (fun _ => router), s)
  | _ => (.ok router, s)

def initializeRoutingLogic (env : Env) (routingLogic : String) (kwargs : RoutingKwargs) :
    Procedure (Object RouterParams) :=
  match RoutingLogic.ofString routingLogic with
  | none => fun s => (.error (invalidRoutingLogic routingLogic), s)
  | some logic => andThen (instantiate logic (constructRouter env kwargs logic)) (startRouter env logic)

def setRouter (router : Object RouterParams) : Procedure Unit := fun s => (.ok (), { s with router := some router })

def reconfigureRoutingLogic (env : Env) (config : DynamicRouterConfig) : Procedure Unit :=
  andThen
    (andThen (cleanupRoutingLogic env)
      (fun _ => initializeRoutingLogic env config.routingLogic (reloadKwargs config)))
    setRouter

def callbackAt (location : String) : Callback :=
  let parts := split '.' location
  ⟨".".intercalate parts.dropLast, parts.getLastD ""⟩

def reconfigureCallbacks (env : Env) (config : DynamicRouterConfig) : Procedure Unit := fun s =>
  match truthy config.callbacks with
  | none => (.ok (), { s with callbacks := none })
  | some location =>
    match env.importInstance (callbackAt location) with
    | .error e => (.error e, s)
    | .ok () => (.ok (), { s with callbacks := some (callbackAt location) })

/-- The batch API and the statistics have nothing to reconfigure. -/
def reconfigureAll (env : Env) (config : DynamicRouterConfig) : Procedure Unit :=
  andThen (reconfigureServiceDiscovery env config) (fun _ =>
    andThen (reconfigureRoutingLogic env config) (fun _ => reconfigureCallbacks env config))

structure Unchanged (s s' : System) : Prop where
  discovery : s'.discovery = s.discovery
  instances : s'.instances = s.instances
  router : s'.router = s.router
  callbacks : s'.callbacks = s.callbacks
  closed : s'.closed = s.closed

def AllOrNothing (env : Env) (config : DynamicRouterConfig) (s : System) : Prop :=
  ∀ e s', reconfigureAll env config s = (.error e, s') → Unchanged s s'

def RouterBuilds (env : Env) (config : DynamicRouterConfig) : Prop :=
  match RoutingLogic.ofString config.routingLogic with
  | none => False
  | some .sessionBased => config.sessionKey ≠ none
  | some .kvaware => env.constructKvManager = .ok () ∧ env.startKvManager = .ok ()
  | some .prefixaware => env.importHashtrie = .ok ()
  | some _ => True

structure RoutingAccepted (env : Env) (config : DynamicRouterConfig) (s : System) : Prop where
  closes : s.instances.get? .kvaware ≠ none → env.closeKvaware = .ok ()
  builds : RouterBuilds env config

def CallbacksAccepted (env : Env) (config : DynamicRouterConfig) : Prop :=
  ∀ location, truthy config.callbacks = some location → env.importInstance (callbackAt location) = .ok ()

def DiscoveryRejected (env : Env) (config : DynamicRouterConfig) (s : System) : Prop :=
  s.discovery = none ∨ ∀ params, newDiscovery env config ≠ .ok params

section Sequencing

variable {α β : Type} {p : Procedure α} {q : α → Procedure β}

theorem andThen_ok {s s' : System} {a : α} (h : p s = (.ok a, s')) : andThen p q s = q a s' := by
  simp [andThen, h]

theorem andThen_error {s s' : System} {e : Exc} (h : p s = (.error e, s')) : andThen p q s = (.error e, s') := by
  simp [andThen, h]

theorem andThen_returns {s s' : System} {b : β} (h : andThen p q s = (.ok b, s')) :
    ∃ a s₁, p s = (.ok a, s₁) ∧ q a s₁ = (.ok b, s') := by
  rcases hrun : p s with ⟨e | a, s₁⟩
  · rw [andThen_error hrun] at h
    cases h
  · rw [andThen_ok hrun] at h
    exact ⟨a, s₁, rfl, h⟩

theorem andThen_assoc {γ : Type} (r : β → Procedure γ) : andThen (andThen p q) r = andThen p (fun a => andThen (q a) r) := by
  funext s
  rcases hrun : p s with ⟨e | a, s'⟩
  · rw [andThen_error hrun, andThen_error (andThen_error hrun)]
  · rw [andThen_ok hrun]
    simp only [andThen, hrun]

theorem andThen_discovery (hp : ∀ s, (p s).2.discovery = s.discovery) (hq : ∀ a s, (q a s).2.discovery = s.discovery)
    (s : System) : (andThen p q s).2.discovery = s.discovery := by
  have hps := hp s
  rcases hrun : p s with ⟨_ | a, s'⟩
  · rw [andThen_error hrun]
    rwa [hrun] at hps
  · rw [andThen_ok hrun, hq]
    rwa [hrun] at hps

end Sequencing

theorem cleanupClass_cases (env : Env) (cls : RoutingLogic) (s : System) :
    (∃ s', cleanupClass env cls s = (.ok (), s') ∧ s'.discovery = s.discovery ∧
      (cls = .kvaware → s.instances.get? .kvaware ≠ none → env.closeKvaware = .ok ()) ∧
      ∀ k, s'.instances.get? k = if k = cls then none else s.instances.get? k) ∨
    (∃ e, cleanupClass env cls s = (.error e, s) ∧ cls = .kvaware ∧
      s.instances.get? .kvaware ≠ none ∧ env.closeKvaware = .error e) := by
  cases hget : s.instances.get? cls with
  | none =>
    refine .inl ⟨s, by simp [cleanupClass, hget], rfl, ?_, ?_⟩
    · rintro rfl hne
      exact absurd hget hne
    · intro k
      split
      next hk => rw [hk, hget]
      · rfl
  | some router =>
    by_cases hcls : cls = .kvaware
    · subst hcls
      cases hclose : env.closeKvaware with
      | error e => exact .inr ⟨e, by simp [cleanupClass, hget, hclose], rfl, by simp [hget], rfl⟩
      | ok u =>
        refine .inl ⟨{ s with closed := insert router.id s.closed, instances := s.instances.erase .kvaware },
          by simp [cleanupClass, hget, hclose], rfl, fun _ _ => rfl, ?_⟩
        intro k
        exact Dict.get?_erase _ _ _
    · refine .inl ⟨{ s with instances := s.instances.erase cls }, ?_, rfl, fun h => absurd h hcls, ?_⟩
      · cases cls <;> simp_all [cleanupClass]
      · intro k
        exact Dict.get?_erase _ _ _

theorem cleanupClasses_cases (env : Env) (classes : List RoutingLogic) (s : System) :
    (∃ s', cleanupClasses env classes s = (.ok (), s') ∧
      (.kvaware ∈ classes → s.instances.get? .kvaware ≠ none → env.closeKvaware = .ok ()) ∧
      ∀ k, s'.instances.get? k = if k ∈ classes then none else s.instances.get? k) ∨
    (∃ e s', cleanupClasses env classes s = (.error e, s') ∧ .kvaware ∈ classes ∧
      s.instances.get? .kvaware ≠ none ∧ env.closeKvaware = .error e) := by
  induction classes generalizing s with
  | nil => exact .inl ⟨s, rfl, by simp, by simp⟩
  | cons cls rest ih =>
    rcases cleanupClass_cases env cls s with ⟨s₁, hrun, -, hclose, hget⟩ | ⟨e, hrun, hcls, hne, hclose⟩
    · have hnext : cleanupClasses env (cls :: rest) s = cleanupClasses env rest s₁ := andThen_ok hrun
      rcases ih s₁ with ⟨s₂, hrest, hclose', hget'⟩ | ⟨e, s₂, hrest, hmem, hne, hclose'⟩
      · refine .inl ⟨s₂, hnext.trans hrest, ?_, ?_⟩
        · intro hmem hne
          by_cases hcls : cls = .kvaware
          · exact hclose hcls hne
          · have hrestmem : .kvaware ∈ rest := by
              rcases List.mem_cons.mp hmem with h | h
              · exact absurd h.symm hcls
              · exact h
            apply hclose' hrestmem
            rwa [hget, if_neg (fun h => hcls h.symm)]
        · intro k
          rw [hget', hget]
          by_cases hk : k = cls <;> by_cases hmem : k ∈ rest <;> simp [hk, hmem]
      · have hcls : RoutingLogic.kvaware ≠ cls := by
          intro h
          rw [hget, if_pos h] at hne
          exact hne rfl
        rw [hget, if_neg hcls] at hne
        exact .inr ⟨e, s₂, hnext.trans hrest, by simp [hmem], hne, hclose'⟩
    · exact .inr ⟨e, s, andThen_error hrun, by simp [hcls], hne, hclose⟩

theorem cleanupRoutingLogic_cases (env : Env) (s : System) :
    (∃ s', cleanupRoutingLogic env s = (.ok (), s') ∧
      (s.instances.get? .kvaware ≠ none → env.closeKvaware = .ok ()) ∧ ∀ k, s'.instances.get? k = none) ∨
    (∃ e s', cleanupRoutingLogic env s = (.error e, s') ∧
      s.instances.get? .kvaware ≠ none ∧ env.closeKvaware = .error e) := by
  have hall : ∀ k : RoutingLogic, k ∈ routerClasses := by
    intro k
    cases k <;> decide
  rcases cleanupClasses_cases env routerClasses s with ⟨s', hrun, hclose, hget⟩ | ⟨e, s', hrun, -, hne, hclose⟩
  · refine .inl ⟨s', hrun, hclose (hall _), ?_⟩
    intro k
    rw [hget, if_pos (hall k)]
  · exact .inr ⟨e, s', hrun, hne, hclose⟩

theorem instantiate_absent {cls : RoutingLogic} {s : System} (h : s.instances.get? cls = none)
    (construct : Except Exc RouterParams) :
    (∃ params s', construct = .ok params ∧ instantiate cls construct s = (.ok ⟨s.nextId, params⟩, s') ∧
      s'.instances = s.instances.set cls ⟨s.nextId, params⟩) ∨
    (∃ e, construct = .error e ∧ instantiate cls construct s = (.error e, s)) := by
  cases construct with
  | error e => exact .inr ⟨e, rfl, by simp [instantiate, h]⟩
  | ok params =>
    refine .inl ⟨params, (instantiate cls (.ok params) s).2, rfl, ?_, ?_⟩
    · simp [instantiate, h]
    · simp [instantiate, h]

theorem constructRouter_ok (env : Env) (kwargs : RoutingKwargs) (logic : RoutingLogic) :
    (∃ params, constructRouter env kwargs logic = .ok params) ↔
      (logic = .kvaware → env.constructKvManager = .ok ()) ∧
      (logic = .prefixaware → env.importHashtrie = .ok ()) ∧
      (logic = .sessionBased → kwargs.sessionKey ≠ none) := by
  cases logic with
  | roundRobin => simp [constructRouter, routerParams]
  | disaggregatedPrefill => simp [constructRouter, routerParams]
  | sessionBased =>
    cases hkey : kwargs.sessionKey <;>
      simp [constructRouter, routerParams, sessionRouter, hkey]
  | kvaware =>
    cases hkv : env.constructKvManager <;>
      simp [constructRouter, routerParams, hkv, bind, Except.bind]
  | prefixaware =>
    cases himport : env.importHashtrie <;>
      simp [constructRouter, routerParams, himport, bind, Except.bind]

theorem routerBuilds_iff (env : Env) (config : DynamicRouterConfig) :
    RouterBuilds env config ↔ ∃ logic, RoutingLogic.ofString config.routingLogic = some logic ∧
      (∃ params, constructRouter env (reloadKwargs config) logic = .ok params) ∧
      (logic = .kvaware → env.startKvManager = .ok ()) := by
  rw [RouterBuilds]
  cases RoutingLogic.ofString config.routingLogic with
  | none => simp
  | some logic =>
    simp only [constructRouter_ok, Option.some.injEq, exists_eq_left']
    cases logic <;> simp [reloadKwargs]

theorem initializeRoutingLogic_returns (env : Env) (config : DynamicRouterConfig) {s : System}
    (h : ∀ k, s.instances.get? k = none) :
    (∃ router s', initializeRoutingLogic env config.routingLogic (reloadKwargs config) s = (.ok router, s')) ↔
      RouterBuilds env config := by
  rw [routerBuilds_iff, initializeRoutingLogic]
  cases RoutingLogic.ofString config.routingLogic with
  | none => simp
  | some logic =>
    simp only [Option.some.injEq, exists_eq_left']
    rcases instantiate_absent (h logic) (constructRouter env (reloadKwargs config) logic) with
      ⟨params, s', hbuild, hrun, -⟩ | ⟨e, hbuild, hrun⟩
    · rw [andThen_ok hrun, hbuild]
      cases logic with
      | kvaware => cases hstart : env.startKvManager <;> simp [startRouter, hstart, Except.map]
      | _ => simp [startRouter]
    · rw [andThen_error hrun, hbuild]
      simp

theorem routing_returns_iff (env : Env) (config : DynamicRouterConfig) (s : System) :
    (∃ s', reconfigureRoutingLogic env config s = (.ok (), s')) ↔ RoutingAccepted env config s := by
  rcases cleanupRoutingLogic_cases env s with ⟨s₁, hclean, hclose, hget⟩ | ⟨e, s₁, hclean, hne, hclose⟩
  · have hinit := initializeRoutingLogic_returns env config hget
    have hrun := andThen_ok
      (q := fun _ => initializeRoutingLogic env config.routingLogic (reloadKwargs config)) hclean
    constructor
    · rintro ⟨s', hs'⟩
      refine ⟨hclose, hinit.mp ?_⟩
      rcases hbuilt : initializeRoutingLogic env config.routingLogic (reloadKwargs config) s₁ with ⟨e | router, s₂⟩
      · rw [reconfigureRoutingLogic, andThen_error (hrun.trans hbuilt)] at hs'
        cases hs'
      · exact ⟨router, s₂, rfl⟩
    · rintro ⟨-, hbuilds⟩
      obtain ⟨router, s₂, hbuilt⟩ := hinit.mpr hbuilds
      exact ⟨_, andThen_ok (hrun.trans hbuilt)⟩
  · have hrun := andThen_error
      (q := fun _ => initializeRoutingLogic env config.routingLogic (reloadKwargs config)) hclean
    constructor
    · rintro ⟨s', hs'⟩
      rw [reconfigureRoutingLogic, andThen_error hrun] at hs'
      cases hs'
    · rintro ⟨hcloses, -⟩
      rw [hcloses hne] at hclose
      cases hclose

theorem callbacks_returns_iff (env : Env) (config : DynamicRouterConfig) (s : System) :
    (∃ s', reconfigureCallbacks env config s = (.ok (), s')) ↔ CallbacksAccepted env config := by
  rw [CallbacksAccepted, reconfigureCallbacks]
  cases truthy config.callbacks with
  | none => simp
  | some location => cases himport : env.importInstance (callbackAt location) <;> simp [himport]

theorem cleanupClasses_discovery (env : Env) (classes : List RoutingLogic) (s : System) :
    (cleanupClasses env classes s).2.discovery = s.discovery := by
  induction classes generalizing s with
  | nil => rfl
  | cons cls rest ih =>
    apply andThen_discovery
    · intro s
      rcases cleanupClass_cases env cls s with ⟨s', hrun, hdisc, -⟩ | ⟨e, hrun, -⟩
      · rw [hrun, hdisc]
      · rw [hrun]
    · intro _ s
      exact ih s

theorem instantiate_discovery (cls : RoutingLogic) (construct : Except Exc RouterParams) (s : System) :
    (instantiate cls construct s).2.discovery = s.discovery := by
  cases hget : s.instances.get? cls <;> cases construct <;> simp [instantiate, hget]

theorem routing_discovery (env : Env) (config : DynamicRouterConfig) (s : System) :
    (reconfigureRoutingLogic env config s).2.discovery = s.discovery := by
  apply andThen_discovery
  · apply andThen_discovery
    · exact cleanupClasses_discovery env routerClasses
    · intro _ s
      rw [initializeRoutingLogic]
      cases RoutingLogic.ofString config.routingLogic with
      | none => rfl
      | some logic =>
        apply andThen_discovery
        · exact instantiate_discovery logic _
        · intro router s
          cases logic <;> rfl
  · intro router s
    rfl

theorem callbacks_discovery (env : Env) (config : DynamicRouterConfig) (s : System) :
    (reconfigureCallbacks env config s).2.discovery = s.discovery := by
  rw [reconfigureCallbacks]
  split
  · rfl
  · split <;> rfl

theorem discovery_cases (env : Env) (config : DynamicRouterConfig) (s : System) :
    (∃ e, reconfigureServiceDiscovery env config s = (.error e, s) ∧ DiscoveryRejected env config s) ∨
    (∃ running params, s.discovery = some running ∧ newDiscovery env config = .ok params ∧
      ((∃ e s', env.closeDiscovery = .error e ∧ reconfigureServiceDiscovery env config s = (.error e, s') ∧
          s'.discovery = s.discovery ∧ s'.instances = s.instances ∧ s'.router = s.router ∧
          s'.callbacks = s.callbacks ∧ s'.closed = insert running.id s.closed) ∨
        (∃ s', env.closeDiscovery = .ok () ∧ reconfigureServiceDiscovery env config s = (.ok (), s') ∧
          s'.discovery = some ⟨s.nextId, params⟩ ∧ s'.instances = s.instances))) := by
  cases hargs : reloadDiscoveryArgs config with
  | error e =>
    refine .inl ⟨e, by simp [reconfigureServiceDiscovery, hargs], .inr ?_⟩
    simp [newDiscovery, hargs, bind, Except.bind]
  | ok args =>
    cases hrunning : s.discovery with
    | none =>
      refine .inl ⟨.valueError "Service discovery module not initialized", ?_, .inl hrunning⟩
      simp only [reconfigureServiceDiscovery, hargs, hrunning]
    | some running =>
      cases hcreate : createServiceDiscovery env.loadKubeConfig args with
      | error e =>
        refine .inl ⟨e, by simp only [reconfigureServiceDiscovery, hargs, hrunning, hcreate], .inr ?_⟩
        simp [newDiscovery, hargs, hcreate, bind, Except.bind]
      | ok params =>
        refine .inr ⟨running, params, rfl, by simp [newDiscovery, hargs, hcreate, bind, Except.bind], ?_⟩
        cases hclose : env.closeDiscovery with
        | error e =>
          refine .inl ⟨e, (reconfigureServiceDiscovery env config s).2, rfl, ?_⟩
          simp [reconfigureServiceDiscovery, hargs, hrunning, hcreate, hclose]
        | ok u =>
          refine .inr ⟨(reconfigureServiceDiscovery env config s).2, rfl, ?_⟩
          simp [reconfigureServiceDiscovery, hargs, hrunning, hcreate, hclose]

theorem replaced_iff {env : Env} {config : DynamicRouterConfig} {s s₁ : System} {params : DiscoveryParams}
    (hrun : reconfigureServiceDiscovery env config s = (.ok (), s₁))
    (hdisc : s₁.discovery = some ⟨s.nextId, params⟩) (hinst : s₁.instances = s.instances) :
    AllOrNothing env config s ↔ RoutingAccepted env config s ∧ CallbacksAccepted env config := by
  have hnew : ∀ s', s'.discovery = s₁.discovery → ¬ Unchanged s s' := by
    intro s' hkeep hsame
    have hold := hsame.discovery.symm.trans (hkeep.trans hdisc)
    exact absurd (s.fresh _ hold) (Nat.lt_irrefl _)
  have hrouting : RoutingAccepted env config s₁ ↔ RoutingAccepted env config s := by
    constructor
    · rintro ⟨hcloses, hbuilds⟩
      exact ⟨by rwa [← hinst], hbuilds⟩
    · rintro ⟨hcloses, hbuilds⟩
      exact ⟨by rwa [hinst], hbuilds⟩
  have hall : reconfigureAll env config s =
      andThen (reconfigureRoutingLogic env config) (fun _ => reconfigureCallbacks env config) s₁ :=
    andThen_ok hrun
  have hkeep := routing_discovery env config s₁
  rw [← hrouting, ← routing_returns_iff, AllOrNothing, hall]
  rcases hroute : reconfigureRoutingLogic env config s₁ with ⟨e | u, s₂⟩
  · rw [andThen_error hroute]
    rw [hroute] at hkeep
    constructor
    · intro h
      exact absurd (h e s₂ rfl) (hnew s₂ hkeep)
    · rintro ⟨⟨s', hs'⟩, -⟩
      cases hs'
  · rw [andThen_ok hroute, ← callbacks_returns_iff env config s₂]
    rw [hroute] at hkeep
    have hkeep' := (callbacks_discovery env config s₂).trans hkeep
    rcases hcall : reconfigureCallbacks env config s₂ with ⟨e | u, s₃⟩
    · rw [hcall] at hkeep'
      constructor
      · intro h
        exact absurd (h e s₃ rfl) (hnew s₃ hkeep')
      · rintro ⟨-, s', hs'⟩
        cases hs'
    · constructor
      · intro _
        exact ⟨⟨s₂, rfl⟩, s₃, rfl⟩
      · intro _ e s' hs'
        cases hs'

theorem reconfigureAll_allOrNothing_iff (env : Env) (config : DynamicRouterConfig) (s : System) :
    AllOrNothing env config s ↔
      DiscoveryRejected env config s ∨
      (env.closeDiscovery ≠ .ok () ∧ ∃ running, s.discovery = some running ∧ running.id ∈ s.closed) ∨
      (env.closeDiscovery = .ok () ∧ RoutingAccepted env config s ∧ CallbacksAccepted env config) := by
  rcases discovery_cases env config s with ⟨e, hrun, hrejected⟩ | ⟨running, params, hrunning, hnew,
    ⟨e, s', hclose, hrun, hdisc, hinst, hrouter, hcallbacks, hclosed⟩ | ⟨s', hclose, hrun, hdisc, hinst⟩⟩
  · have hall : reconfigureAll env config s = (.error e, s) := andThen_error hrun
    simp only [hrejected, true_or, iff_true]
    intro e' s' hs'
    rw [hall] at hs'
    cases hs'
    exact ⟨rfl, rfl, rfl, rfl, rfl⟩
  · have hall : reconfigureAll env config s = (.error e, s') := andThen_error hrun
    have haccepted : ¬ DiscoveryRejected env config s := by
      simp [DiscoveryRejected, hrunning, hnew]
    simp only [haccepted, hclose, hrunning, false_or, reduceCtorEq, false_and, or_false, ne_eq,
      not_false_eq_true, true_and, Option.some.injEq, exists_eq_left']
    constructor
    · intro h
      have hsame := (h e s' hall).closed
      rw [hclosed, Finset.insert_eq_self] at hsame
      exact hsame
    · intro hmem e' s'' hs''
      rw [hall] at hs''
      cases hs''
      exact ⟨hdisc, hinst, hrouter, hcallbacks, hclosed.trans (Finset.insert_eq_self.mpr hmem)⟩
  · have haccepted : ¬ DiscoveryRejected env config s := by
      simp [DiscoveryRejected, hrunning, hnew]
    simp only [haccepted, hclose, false_or, ne_eq, not_true_eq_false, false_and, true_and]
    exact replaced_iff hrun hdisc hinst

def quietEnv : Env := ⟨.ok (), .ok (), .ok (), .ok (), .ok (), .ok (), fun _ => .ok ()⟩

def llamaConfig : DynamicRouterConfig :=
  { serviceDiscovery := "static"
    routingLogic := "roundrobin"
    staticBackends := some "http://localhost:8000"
    staticModels := some "llama" }

def llamaSystem : System :=
  { discovery := some ⟨0, .static ⟨["http://localhost:8000"], some ["llama"], none, none, none, some false, none, none⟩⟩
    instances := .ofList [(.roundRobin, ⟨1, .roundRobin⟩)]
    router := some ⟨1, .roundRobin⟩
    callbacks := none
    closed := ∅
    nextId := 2
    fresh := by
      intro o ho
      cases ho
      decide }

/-- The only change is to session routing, without its key. -/
theorem missing_session_key_half_changes :
    ¬ ∀ (env : Env) (config : DynamicRouterConfig) (s : System), AllOrNothing env config s := by
  intro h
  have hsame := h quietEnv { llamaConfig with routingLogic := "session" } llamaSystem
    (.valueError "SessionRouter must be initialized with a session_key") _ rfl
  cases hsame.discovery

end ProductionStack.Reconfigure
