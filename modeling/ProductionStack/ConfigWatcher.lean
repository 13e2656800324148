import ProductionStack.Reconfigure
import ProductionStack.Runs

namespace ProductionStack.ConfigWatcher

open Runs RouterConfig Reconfigure

structure Watcher where
  currentConfig : DynamicRouterConfig
  system : System

structure Round where
  loaded : Except Exc DynamicRouterConfig
  env : Env

/-- The configuration counts as current only once the reconfiguration returned. -/
def watchWorker : Component Watcher Round Unit := fun w round => ((),
  match round.loaded with
  | .error _ => w
  | .ok config =>
    if config ≠ w.currentConfig then
      match reconfigureAll round.env config w.system with
      | (.ok (), s) => ⟨config, s⟩
      | (.error _, s) => { w with system := s }
    else w)

structure Describes (config : DynamicRouterConfig) (s : System) : Prop where
  discovery : ∃ args running, reloadDiscoveryArgs config = .ok args ∧ s.discovery = some running ∧
    createServiceDiscovery (.ok ()) args = .ok running.params
  router : ∃ logic router, RoutingLogic.ofString config.routingLogic = some logic ∧ s.router = some router ∧
    (∀ k, s.instances.get? k = if k = logic then some router else none) ∧
    routerParams (reloadKwargs config) logic = .ok router.params
  callbacks : s.callbacks = (truthy config.callbacks).map callbackAt

theorem create_of_create {loadKubeConfig : Except Exc Unit} {args : DiscoveryArgs} {params : DiscoveryParams}
    (h : createServiceDiscovery loadKubeConfig args = .ok params) : createServiceDiscovery (.ok ()) args = .ok params := by
  cases args with
  | static args => exact h
  | k8s discoveryType args =>
    obtain ⟨u, rfl, hcreated⟩ := bind_eq_ok.mp h
    exact hcreated

theorem constructRouter_params {env : Env} {kwargs : RoutingKwargs} {logic : RoutingLogic} {params : RouterParams}
    (h : constructRouter env kwargs logic = .ok params) : routerParams kwargs logic = .ok params := by
  cases logic with
  | kvaware =>
    obtain ⟨u, -, hparams⟩ := bind_eq_ok.mp h
    exact hparams
  | prefixaware =>
    obtain ⟨u, -, hparams⟩ := bind_eq_ok.mp h
    exact hparams
  | _ => exact h

theorem startRouter_returns {env : Env} {logic : RoutingLogic} {router started : Object RouterParams}
    {s s' : System} (h : startRouter env logic router s = (.ok started, s')) : started = router ∧ s' = s := by
  cases logic with
  | kvaware =>
    cases hstart : env.startKvManager <;> simp_all [startRouter, Except.map]
  | _ =>
    cases h
    exact ⟨rfl, rfl⟩

theorem routing_describes {env : Env} {config : DynamicRouterConfig} {s s' : System}
    (h : reconfigureRoutingLogic env config s = (.ok (), s')) :
    ∃ logic router, RoutingLogic.ofString config.routingLogic = some logic ∧ s'.router = some router ∧
      (∀ k, s'.instances.get? k = if k = logic then some router else none) ∧
      routerParams (reloadKwargs config) logic = .ok router.params := by
  obtain ⟨router, s₂, hbuilt, hset⟩ := andThen_returns h
  obtain ⟨u, s₁, hclean, hinit⟩ := andThen_returns hbuilt
  have hempty : ∀ k, s₁.instances.get? k = none := by
    rcases cleanupRoutingLogic_cases env s with ⟨s₁', hrun, -, hget⟩ | ⟨e, s₁', hrun, -⟩
    · rw [hrun] at hclean
      cases hclean
      exact hget
    · rw [hrun] at hclean
      cases hclean
  rw [initializeRoutingLogic] at hinit
  cases hlogic : RoutingLogic.ofString config.routingLogic with
  | none =>
    rw [hlogic] at hinit
    cases hinit
  | some logic =>
    rw [hlogic] at hinit
    obtain ⟨built, s₃, hinst, hstart⟩ := andThen_returns hinit
    obtain ⟨rfl, rfl⟩ := startRouter_returns hstart
    cases hset
    rcases instantiate_absent (hempty logic) (constructRouter env (reloadKwargs config) logic) with
      ⟨params, s₃', hparams, hrun, hinstances⟩ | ⟨e, -, hrun⟩
    · rw [hrun] at hinst
      cases hinst
      refine ⟨logic, _, rfl, rfl, ?_, constructRouter_params hparams⟩
      intro k
      change s₂.instances.get? k = _
      rw [hinstances, Dict.get?_set, hempty]
    · rw [hrun] at hinst
      cases hinst

theorem callbacks_describes {env : Env} {config : DynamicRouterConfig} {s s' : System}
    (h : reconfigureCallbacks env config s = (.ok (), s')) :
    s' = { s with callbacks := (truthy config.callbacks).map callbackAt } := by
  rw [reconfigureCallbacks] at h
  cases hloc : truthy config.callbacks with
  | none =>
    rw [hloc] at h
    cases h
    rfl
  | some location =>
    rw [hloc] at h
    cases himport : env.importInstance (callbackAt location) with
    | error e =>
      simp only [himport] at h
      cases h
    | ok u =>
      simp only [himport] at h
      cases h
      rfl

theorem reconfigureAll_describes {env : Env} {config : DynamicRouterConfig} {s s' : System}
    (h : reconfigureAll env config s = (.ok (), s')) : Describes config s' := by
  obtain ⟨_, s₁, hdisc, hrest⟩ := andThen_returns h
  obtain ⟨_, s₂, hroute, hcall⟩ := andThen_returns hrest
  have hkeep := routing_discovery env config s₁
  rw [hroute] at hkeep
  have hcallbacks := callbacks_describes hcall
  have hrouter := routing_describes hroute
  rcases discovery_cases env config s with ⟨e, hrun, -⟩ | ⟨running, params, -, hnew,
    ⟨e, s₁', -, hrun, -⟩ | ⟨s₁', -, hrun, hreplaced, -⟩⟩
  · rw [hrun] at hdisc
    cases hdisc
  · rw [hrun] at hdisc
    cases hdisc
  · rw [hrun] at hdisc
    cases hdisc
    obtain ⟨args, hargs, hcreate⟩ := bind_eq_ok.mp hnew
    subst hcallbacks
    exact ⟨⟨args, _, hargs, hkeep.trans hreplaced, create_of_create hcreate⟩, hrouter, rfl⟩

end ProductionStack.ConfigWatcher
