import ProductionStack.Runs
import ProductionStack.VLLMRouterController
import ProductionStack.VLLMRuntimeQuiescence

namespace ProductionStack.RouterNamespace

open Runs KubeObjects Quiescence VLLMRouterController

structure ServiceAccount where
  name : String
  labels : Dict String String

structure PolicyRule where
  apiGroups : List String
  resources : List String
  verbs : List String
  deriving DecidableEq, Repr

structure Role where
  labels : Dict String String
  rules : List PolicyRule

structure RoleBinding where
  labels : Dict String String
  subjects : List (String × String)
  roleRef : String

/-- The objects of one namespace that the reconcilers of its VLLMRouters read and write. -/
structure Namespace (Quantity : Type) where
  serviceAccounts : Dict String ServiceAccount := .empty
  roles : Dict String Role := .empty
  roleBindings : Dict String RoleBinding := .empty
  services : Dict String Service := .empty
  deployments : Dict String (Deployment Quantity) := .empty

def stackLabels : Dict String String :=
  .ofList [("app.kubernetes.io/name", "production-stack"), ("app.kubernetes.io/managed-by", "kustomize")]

def serviceAccountForVLLMRouter (router : VLLMRouter) : ServiceAccount := ⟨router.serviceAccountName, stackLabels⟩

def roleForVLLMRouter : Role := ⟨stackLabels, [⟨[""], ["pods"], ["get", "list", "watch"]⟩]⟩

def roleBindingForVLLMRouter (router : VLLMRouter) : RoleBinding :=
  ⟨stackLabels, [("ServiceAccount", router.serviceAccountName)], "pod-viewer-role"⟩

def serviceForVLLMRouter (router : VLLMRouter) : Service :=
  { name := router.name
    namespaceName := router.namespaceName
    type := "ClusterIP"
    selector := objectLabels router.name router.labels
    ports := [⟨"http", 80, .int router.port, "TCP"⟩] }

/-- The server creates no object without a name. -/
inductive Failure
  | panic (p : Panic)
  | nameRequired

section Reconcile

variable {Quantity : Type} [DecidableEq Quantity] (fmt : QuantityFormat Quantity)

/-- What one Reconcile writes, if anything. All but the deployment is only ever created.
The API server is taken to store an object as it is sent, without defaults of its own. -/
def reconcile (router : VLLMRouter) (ns : Namespace Quantity) : Except Failure (Option (Namespace Quantity)) :=
  if ns.serviceAccounts.contains router.serviceAccountName = false then
    if router.serviceAccountName = "" then .error .nameRequired
    else
      .ok (some { ns with
        serviceAccounts := ns.serviceAccounts.set router.serviceAccountName (serviceAccountForVLLMRouter router) })
  else if ns.roles.contains "pod-viewer-role" = false then
    .ok (some { ns with roles := ns.roles.set "pod-viewer-role" roleForVLLMRouter })
  else if ns.roleBindings.contains "pod-viewer-binding" = false then
    .ok (some { ns with roleBindings := ns.roleBindings.set "pod-viewer-binding" (roleBindingForVLLMRouter router) })
  else if ns.services.contains router.name = false then
    .ok (some { ns with services := ns.services.set router.name (serviceForVLLMRouter router) })
  else
    match (deploymentSlot fmt router).pass (ns.deployments.get? router.name) with
    | .error p => .error (.panic p)
    | .ok (some (some made)) => .ok (some { ns with deployments := ns.deployments.set router.name made })
    | .ok _ => .ok none

inductive Outcome
  | wrote
  | quiet
  | failed
  deriving DecidableEq, Repr

/-- One pass for one of the routers; the next pass may be for any other. -/
def step : Component (Namespace Quantity) VLLMRouter Outcome := fun ns router =>
  match reconcile fmt router ns with
  | .ok (some ns') => (.wrote, ns')
  | .ok none => (.quiet, ns)
  | .error _ => (.failed, ns)

variable {fmt} {r x : VLLMRouter} {ns ns' : Namespace Quantity}

inductive Writes (fmt : QuantityFormat Quantity) (x : VLLMRouter) (ns : Namespace Quantity) : Namespace Quantity → Prop
  | serviceAccount (sa : ServiceAccount) (h : x.serviceAccountName ≠ "") :
      Writes fmt x ns { ns with serviceAccounts := ns.serviceAccounts.set x.serviceAccountName sa }
  | role (role : Role) : Writes fmt x ns { ns with roles := ns.roles.set "pod-viewer-role" role }
  | roleBinding (h : ns.roleBindings.get? "pod-viewer-binding" = none) : Writes fmt x ns { ns with
      roleBindings := ns.roleBindings.set "pod-viewer-binding" (roleBindingForVLLMRouter x) }
  | service (svc : Service) : Writes fmt x ns { ns with services := ns.services.set x.name svc }
  | deployment (made : Deployment Quantity) (h : deploymentForVLLMRouter fmt x = .ok made) :
      Writes fmt x ns { ns with deployments := ns.deployments.set x.name made }

theorem step_writes (fmt : QuantityFormat Quantity) (x : VLLMRouter) (ns : Namespace Quantity) :
    (step fmt ns x).2 = ns ∨ Writes fmt x ns (step fmt ns x).2 := by
  rw [step, reconcile]
  split_ifs with hsa hname hrole hbinding hsvc
  · exact .inl rfl
  · exact .inr (.serviceAccount _ hname)
  · exact .inr (.role _)
  · exact .inr (.roleBinding (Option.not_isSome_iff_eq_none.mp (Bool.eq_false_iff.mp hbinding)))
  · exact .inr (.service _)
  · rcases hpass : (deploymentSlot fmt x).pass (ns.deployments.get? x.name) with p | o
    · exact .inl rfl
    · obtain ⟨rfl, -⟩ | ⟨-, made, hmake, rfl⟩ := Slot.pass_cases hpass
      · exact .inl rfl
      · exact .inr (.deployment made hmake)

end Reconcile

section Convergence

variable {Quantity : Type} [DecidableEq Quantity] {fmt : QuantityFormat Quantity} {r x : VLLMRouter}
  {ns ns' : Namespace Quantity}

/-- The deployment that is there, if any, can be compared with the spec. -/
def Comparable (fmt : QuantityFormat Quantity) (r : VLLMRouter) (ns : Namespace Quantity) : Prop :=
  ∀ d, ns.deployments.get? r.name = some d → ∃ stale, deploymentNeedsUpdate fmt d r = .ok stale

def upToDate (fmt : QuantityFormat Quantity) (r : VLLMRouter) (ns : Namespace Quantity) : Bool :=
  match ns.deployments.get? r.name with
  | some d => match deploymentNeedsUpdate fmt d r with
    | .ok stale => !stale
    | .error _ => false
  | none => false

/-- How many of the five objects of the router have still to be written. -/
def todo (fmt : QuantityFormat Quantity) (r : VLLMRouter) (ns : Namespace Quantity) : Nat :=
  (!ns.serviceAccounts.contains r.serviceAccountName).toNat + (!ns.roles.contains "pod-viewer-role").toNat +
    (!ns.roleBindings.contains "pod-viewer-binding").toNat + (!ns.services.contains r.name).toNat +
    (!upToDate fmt r ns).toNat

theorem deploymentNeedsUpdate_generated {g : Deployment Quantity} (hg : deploymentForVLLMRouter fmt r = .ok g) :
    deploymentNeedsUpdate fmt g r = .ok false := by
  have hg' := hg
  simp only [deploymentForVLLMRouter, bind_eq_ok] at hg'
  obtain ⟨resources, -, args, -, hg'⟩ := hg'
  cases hg'
  simp only [deploymentNeedsUpdate, ne_eq, not_true, if_false, hg, bind, Except.bind]
  simp [pure, Except.pure]

theorem contains_set {V : Type} (d : Dict String V) (k j : String) (v : V) :
    (d.set k v).contains j = (decide (j = k) || d.contains j) := by
  by_cases h : j = k
  · simp [Dict.contains, h]
  · simp [Dict.contains, h, Dict.get?_set_of_ne]

theorem step_other (hx : x.name ≠ r.name) (hcomp : Comparable fmt r ns) :
    todo fmt r (step fmt ns x).2 ≤ todo fmt r ns ∧ Comparable fmt r (step fmt ns x).2 := by
  have hmono : ∀ a b : Bool, (!(a || b)).toNat ≤ (!b).toNat := by decide
  rcases step_writes fmt x ns with heq | hwrites
  · rw [heq]
    exact ⟨le_rfl, hcomp⟩
  · generalize (step fmt ns x).2 = ns' at hwrites
    cases hwrites with
    | serviceAccount sa _ =>
      refine ⟨?_, hcomp⟩
      have := hmono (decide (r.serviceAccountName = x.serviceAccountName)) (ns.serviceAccounts.contains r.serviceAccountName)
      simp only [todo, contains_set, upToDate]
      omega
    | role role =>
      refine ⟨?_, hcomp⟩
      simp only [todo, contains_set, upToDate, decide_true, Bool.true_or, Bool.not_true, Bool.toNat_false]
      omega
    | roleBinding h =>
      refine ⟨?_, hcomp⟩
      simp only [todo, contains_set, upToDate, decide_true, Bool.true_or, Bool.not_true, Bool.toNat_false]
      omega
    | service svc =>
      refine ⟨?_, hcomp⟩
      simp only [todo, contains_set, upToDate, decide_eq_false (Ne.symm hx), Bool.false_or]
      exact le_rfl
    | deployment made h =>
      have hget : (ns.deployments.set x.name made).get? r.name = ns.deployments.get? r.name :=
        Dict.get?_set_of_ne _ _ (Ne.symm hx)
      simp only [todo, upToDate, Comparable, hget]
      exact ⟨le_rfl, hcomp⟩

theorem upToDate_iff : upToDate fmt r ns = true ↔
    ∃ d, ns.deployments.get? r.name = some d ∧ deploymentNeedsUpdate fmt d r = .ok false := by
  rw [upToDate]
  cases hd : ns.deployments.get? r.name with
  | none => simp
  | some d => cases hok : deploymentNeedsUpdate fmt d r <;> simp [hok]

theorem todo_le_five (fmt : QuantityFormat Quantity) (r : VLLMRouter) (ns : Namespace Quantity) : todo fmt r ns ≤ 5 := by
  have hbit : ∀ b : Bool, (!b).toNat ≤ 1 := by decide
  exact Nat.add_le_add (Nat.add_le_add (Nat.add_le_add (Nat.add_le_add (hbit _) (hbit _)) (hbit _)) (hbit _)) (hbit _)

theorem step_own {g : Deployment Quantity} (hname : r.serviceAccountName ≠ "")
    (hg : deploymentForVLLMRouter fmt r = .ok g) (hcomp : Comparable fmt r ns) :
    (todo fmt r ns = 0 → step fmt ns r = (.quiet, ns)) ∧
      (todo fmt r ns ≠ 0 → todo fmt r (step fmt ns r).2 < todo fmt r ns) ∧ Comparable fmt r (step fmt ns r).2 := by
  have hstep : step fmt ns r = match reconcile fmt r ns with
      | .ok (some ns') => (.wrote, ns')
      | .ok none => (.quiet, ns)
      | .error _ => (.failed, ns) := rfl
  rw [reconcile] at hstep
  split_ifs at hstep with hsa hrole hbinding hsvc
  · rw [hstep]
    exact ⟨by simp [todo, hsa], by simp [todo, hsa, contains_set, upToDate], hcomp⟩
  · rw [hstep]
    exact ⟨by simp [todo, hrole], by simp [todo, hrole, contains_set, upToDate], hcomp⟩
  · rw [hstep]
    exact ⟨by simp [todo, hbinding], by simp [todo, hbinding, contains_set, upToDate], hcomp⟩
  · rw [hstep]
    exact ⟨by simp [todo, hsvc], by simp [todo, hsvc, contains_set, upToDate], hcomp⟩
  · simp only [Bool.not_eq_false] at hsa hrole hbinding hsvc
    cases hfresh : upToDate fmt r ns with
    | true =>
      obtain ⟨d, hd, hok⟩ := upToDate_iff.mp hfresh
      rw [hd, Slot.pass_fresh hok] at hstep
      rw [hstep]
      exact ⟨fun _ => rfl, fun h => absurd (by simp [todo, *]) h, hcomp⟩
    | false =>
      have hstale : ∀ d, ns.deployments.get? r.name = some d → deploymentNeedsUpdate fmt d r = .ok true := by
        intro d hd
        obtain ⟨stale, hok⟩ := hcomp d hd
        cases stale with
        | true => exact hok
        | false => exact absurd (upToDate_iff.mpr ⟨d, hd, hok⟩) (by simp [hfresh])
      rw [Slot.pass_makes hstale hg] at hstep
      rw [hstep]
      have hmade : upToDate fmt r { ns with deployments := ns.deployments.set r.name g } = true :=
        upToDate_iff.mpr ⟨g, Dict.get?_set_self _ _ _, deploymentNeedsUpdate_generated hg⟩
      refine ⟨by simp [todo, hfresh], fun _ => ?_, ?_⟩
      · simp [todo, hsa, hrole, hbinding, hsvc, hfresh, hmade]
      · intro d hd
        rw [Dict.get?_set_self] at hd
        cases hd
        exact ⟨false, deploymentNeedsUpdate_generated hg⟩

theorem todo_run {g : Deployment Quantity} (hname : r.serviceAccountName ≠ "") (hg : deploymentForVLLMRouter fmt r = .ok g)
    (hcomp : Comparable fmt r ns) {passes : List VLLMRouter} (hothers : ∀ x ∈ passes, x = r ∨ x.name ≠ r.name) :
    todo fmt r (final (step fmt) ns passes) ≤ todo fmt r ns - passes.countP (fun x => x.name = r.name) ∧
      Comparable fmt r (final (step fmt) ns passes) := by
  induction passes generalizing ns with
  | nil => exact ⟨le_rfl, hcomp⟩
  | cons x passes ih =>
    have hrest := fun y hy => hothers y (List.mem_cons_of_mem x hy)
    rw [final_cons, List.countP_cons]
    rcases hothers x List.mem_cons_self with rfl | hx
    · obtain ⟨hquiet, hless, hcomp'⟩ := step_own hname hg hcomp
      obtain ⟨hle, hcomp''⟩ := ih hcomp' hrest
      refine ⟨?_, hcomp''⟩
      rw [if_pos (by simp)]
      by_cases hzero : todo fmt x ns = 0
      · simp only [hquiet hzero] at hle ⊢
        omega
      · have := hless hzero
        omega
    · obtain ⟨hmono, hcomp'⟩ := step_other hx hcomp
      obtain ⟨hle, hcomp''⟩ := ih hcomp' hrest
      refine ⟨?_, hcomp''⟩
      rw [if_neg (by simpa using hx)]
      omega

/-- The next pass for the router writes nothing, and every object it needs is there. -/
structure Settled (fmt : QuantityFormat Quantity) (r : VLLMRouter) (ns : Namespace Quantity) : Prop where
  quiet : step fmt ns r = (.quiet, ns)
  serviceAccount : ns.serviceAccounts.contains r.serviceAccountName = true
  role : ns.roles.contains "pod-viewer-role" = true
  roleBinding : ns.roleBindings.contains "pod-viewer-binding" = true
  service : ns.services.contains r.name = true
  deployment : ∃ d, ns.deployments.get? r.name = some d ∧ deploymentNeedsUpdate fmt d r = .ok false

theorem settled_after_five {g : Deployment Quantity} (hname : r.serviceAccountName ≠ "")
    (hg : deploymentForVLLMRouter fmt r = .ok g) (hcomp : Comparable fmt r ns) {passes : List VLLMRouter}
    (hothers : ∀ x ∈ passes, x = r ∨ x.name ≠ r.name) (hpasses : 5 ≤ passes.countP (fun x => x.name = r.name)) :
    Settled fmt r (final (step fmt) ns passes) := by
  obtain ⟨hle, hcomp'⟩ := todo_run hname hg hcomp hothers
  have hzero : todo fmt r (final (step fmt) ns passes) = 0 := by
    have hfive := todo_le_five fmt r ns
    omega
  have hquiet := (step_own hname hg hcomp').1 hzero
  simp only [todo, Nat.add_eq_zero_iff, Bool.toNat_eq_zero, Bool.not_eq_false'] at hzero
  obtain ⟨⟨⟨⟨hsa, hrole⟩, hbinding⟩, hsvc⟩, hfresh⟩ := hzero
  exact ⟨hquiet, hsa, hrole, hbinding, hsvc, upToDate_iff.mp hfresh⟩

theorem writes_preserve (fmt : QuantityFormat Quantity) {I : Namespace Quantity → Prop}
    (hI : ∀ x ns ns', I ns → Writes fmt x ns ns' → I ns') (h : I ns) (passes : List VLLMRouter) :
    I (final (step fmt) ns passes) := by
  refine final_preserves (fun ns x hns => ?_) h passes
  rcases step_writes fmt x ns with heq | hwrites
  · rwa [heq]
  · exact hI x ns _ hns hwrites

theorem no_unnamed_account (fmt : QuantityFormat Quantity) (h : ns.serviceAccounts.contains "" = false)
    (passes : List VLLMRouter) : (final (step fmt) ns passes).serviceAccounts.contains "" = false := by
  refine writes_preserve fmt (I := fun ns => ns.serviceAccounts.contains "" = false) ?_ h passes
  intro x ns ns' hns hwrites
  cases hwrites with
  | serviceAccount sa hnamed =>
    rw [contains_set, decide_eq_false hnamed.symm, hns]
    rfl
  | _ => exact hns

def Bound (ns : Namespace Quantity) (account : String) : Prop :=
  ∃ b, ns.roleBindings.get? "pod-viewer-binding" = some b ∧ ("ServiceAccount", account) ∈ b.subjects

theorem roleBinding_stays (fmt : QuantityFormat Quantity) {b : RoleBinding}
    (h : ns.roleBindings.get? "pod-viewer-binding" = some b) (passes : List VLLMRouter) :
    (final (step fmt) ns passes).roleBindings.get? "pod-viewer-binding" = some b := by
  refine writes_preserve fmt (I := fun ns => ns.roleBindings.get? "pod-viewer-binding" = some b) ?_ h passes
  intro x ns ns' hb hwrites
  cases hwrites with
  | roleBinding hnone =>
    rw [hnone] at hb
    cases hb
  | _ => exact hb

omit [DecidableEq Quantity] in
theorem bound_of_binding {x : VLLMRouter} (h : ns.roleBindings.get? "pod-viewer-binding" = some (roleBindingForVLLMRouter x))
    (account : String) : Bound ns account ↔ account = x.serviceAccountName := by
  rw [Bound, h]
  simp [roleBindingForVLLMRouter]

theorem exists_binding_pass (fmt : QuantityFormat Quantity) (hnone : ns.roleBindings.get? "pod-viewer-binding" = none)
    {passes : List VLLMRouter} (hsome : (final (step fmt) ns passes).roleBindings.contains "pod-viewer-binding" = true) :
    ∃ first ∈ passes, (final (step fmt) ns passes).roleBindings.get? "pod-viewer-binding" =
      some (roleBindingForVLLMRouter first) := by
  induction passes generalizing ns with
  | nil => simp [Dict.contains, hnone] at hsome
  | cons x passes ih =>
    by_cases hstill : (step fmt ns x).2.roleBindings.get? "pod-viewer-binding" = none
    · obtain ⟨first, hmem, hbinding⟩ := ih hstill hsome
      exact ⟨first, List.mem_cons_of_mem x hmem, hbinding⟩
    · refine ⟨x, List.mem_cons_self, roleBinding_stays fmt ?_ passes⟩
      rcases step_writes fmt x ns with heq | hwrites
      · rw [heq] at hstill
        exact absurd hnone hstill
      · generalize (step fmt ns x).2 = ns' at hwrites hstill
        cases hwrites with
        | roleBinding h => exact Dict.get?_set_self _ _ _
        | _ => exact absurd hnone hstill

section Witness

open VLLMRuntimeController (textFormat)

def routerNamed (name account : String) : VLLMRouter :=
  { name, namespaceName := "default", replicas := 1, serviceDiscovery := "k8s", serviceAccountName := account, port := 80,
    image := { registry := "docker.io", name := "lmcache/lmstack-router" } }

def chatRouter : VLLMRouter := routerNamed "chat" "chat-router"

def codeRouter : VLLMRouter := routerNamed "code" "code-router"

end Witness

end Convergence

end ProductionStack.RouterNamespace
