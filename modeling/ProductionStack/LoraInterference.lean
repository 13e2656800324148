import ProductionStack.LoraPlacement

namespace ProductionStack.LoraAdapterController

open Command

inductive Turn
  | first
  | second
  deriving DecidableEq, Repr

def Turn.other : Turn → Turn
  | .first => .second
  | .second => .first

/-- Two objects over one cluster. The object of the state is the one that was reconciled last. -/
structure Cluster where
  state : State
  objects : Turn → Option LoraAdapter

def Cluster.view (c : Cluster) (t : Turn) : State := { c.state with adapter := c.objects t, sent := [] }

def Cluster.reconcile (env : Env) (t : Turn) (c : Cluster) : Cluster where
  state := (LoraAdapterController.reconcile env (c.view t)).2
  objects := Function.update c.objects t (LoraAdapterController.reconcile env (c.view t)).2.adapter

def turn (n : Nat) : Turn := if n % 2 = 0 then .first else .second

/-- The first Reconciles of both objects in turn, each with its own answers. -/
def alternate (envs : Nat → Env) (c : Cluster) : Nat → Cluster
  | 0 => c
  | n + 1 => (alternate envs c n).reconcile (envs n) (turn n)

/-- From some Reconcile on none loads or unloads anything. -/
def Rests (envs : Nat → Env) (c : Cluster) : Prop :=
  ∃ n, ∀ m, n ≤ m → ∀ x ∈ (alternate envs c (m + 1)).state.sent, x.request.changes = false

section Objects

variable (adapters : Turn → LoraAdapter)

def start (s : State) : Cluster := ⟨s, fun t => some (adapters t)⟩

/-- A Reconcile of the first object unloads nothing from the pods that are placed for the second one. -/
def Spares (env env' : Env) (s : State) : Prop :=
  ∀ desired, (getOptimalPlacement env' (adapters .second) s).1 = .ok desired →
    ∀ x ∈ ((start adapters s).reconcile env .first).state.sent, x.request.unloading = true → x.pod ∉ desired

/-- No pod that is placed for the second object has an adapter of the first one's name. -/
def Apart (env' : Env) (s : State) : Prop :=
  ∀ pod ∈ placement env' (adapters .second) s.pods,
    (s.engines pod).adapters.contains (adapters .first).adapterSource.adapterName = false

/-- The Reconcile is made with every call successful, for an object with a finalizer and somewhere to be placed. -/
structure Works (env : Env) (adapter : LoraAdapter) (s : State) : Prop where
  calls : CallsSucceed env adapter s
  finalizer : loraAdapterFinalizer ∈ adapter.finalizers
  placed : placement env adapter s.pods ≠ []
  ok : ∃ result, (reconcile env { s with adapter := some adapter, sent := [] }).1 = .ok result

/-- Every call succeeds in every Reconcile, and none returns an error. -/
structure Successful (envs : Nat → Env) (s : State) : Prop where
  calls : ∀ n t, CallsSucceed (envs n) (adapters t) s
  ok : ∀ n, ∃ result,
    (reconcile (envs n) ((alternate envs (start adapters s) n).view (turn n))).1 = .ok result

/-- The order in which the pods are listed does not matter to the placements. -/
def Stable (envs : Nat → Env) (pods : Dict NamespacedName Pod) : Prop :=
  ∀ n t pod, pod ∈ placement (envs n) (adapters t) pods ↔ pod ∈ placement (envs 0) (adapters t) pods

/-- The names differ, or one of the two has nowhere to be placed. -/
def Compatible (env : Env) (pods : Dict NamespacedName Pod) : Prop :=
  (adapters .first).adapterSource.adapterName ≠ (adapters .second).adapterSource.adapterName ∨
    ∃ t, placement env (adapters t) pods = []

end Objects

section Placement

variable {env env' : Env} {adapter adapter' : LoraAdapter} {s : State}

theorem getOptimalPlacement_eq_ok {desired : List NamespacedName} :
    (getOptimalPlacement env adapter s).1 = .ok desired ↔
      env.api (.listPods .placement) = .ok ∧ placement env adapter s.pods = desired := by
  rw [← getOptimalPlacementBy_stable]
  exact getOptimalPlacementBy_eq_ok

theorem mem_placement_model {pods : Dict NamespacedName Pod} {pod : NamespacedName} (h : pod ∈ placement env adapter pods) :
    ∃ object, pods.get? pod = some object ∧ object.labels.get? "model" = some adapter.baseModel := by
  rw [placement, placements] at h
  obtain ⟨entry, hentry, rfl⟩ := List.mem_map.mp h
  have hcandidate := ((List.perm_insertionSort _ _).mem_iff).mp (List.mem_of_mem_take hentry)
  simp only [candidates, List.mem_filter, (env.listOrder_perm _ _).mem_iff, decide_eq_true_eq] at hcandidate
  exact ⟨entry.2, pods.get?_of_mem hcandidate.1.1, hcandidate.1.2⟩

theorem placement_disjoint {pods : Dict NamespacedName Pod} (hbase : adapter.baseModel ≠ adapter'.baseModel)
    {pod : NamespacedName} (h : pod ∈ placement env adapter pods) : pod ∉ placement env' adapter' pods := by
  intro h'
  obtain ⟨object, hobject, hmodel⟩ := mem_placement_model h
  obtain ⟨object', hobject', hmodel'⟩ := mem_placement_model h'
  cases hobject.symm.trans hobject'
  exact hbase (Option.some.inj (hmodel.symm.trans hmodel'))

end Placement

section Frames

variable {adapters : Turn → LoraAdapter} {env env' : Env} {s : State}

theorem spares_of_apart (hlive : ∀ t, (adapters t).deletionTimestamp = none) (h : Apart adapters env' s) :
    Spares adapters env env' s := by
  intro desired hdesired x hx hunload hmem
  obtain ⟨-, rfl⟩ := getOptimalPlacement_eq_ok.mp hdesired
  have hacted := @reconcile_acted env ((start adapters s).view .first) _ rfl (hlive .first)
  rcases hacted.allowed x hx with hold | hallowed
  · cases hold
  · have hloaded := hallowed hunload
    rw [show (start adapters s).view .first = { s with adapter := some (adapters .first), sent := [] } from rfl]
      at hloaded
    rw [h x.pod hmem] at hloaded
    cases hloaded

theorem apart_of_spares (hbase : (adapters .first).baseModel ≠ (adapters .second).baseModel)
    (hlive : ∀ t, (adapters t).deletionTimestamp = none) (hlist : env'.api (.listPods .placement) = .ok)
    (hworks : Works env (adapters .first) s) (h : Spares adapters env env' s) : Apart adapters env' s := by
  intro pod hpod
  by_contra hloaded
  rw [Bool.not_eq_false] at hloaded
  have hcalls : CallsSucceed env (adapters .first) ((start adapters s).view .first) :=
    ⟨hworks.calls.api, hworks.calls.engine, hworks.calls.addressed, hworks.calls.apiKey⟩
  obtain ⟨result, hok⟩ := hworks.ok
  rcases hcalls.reconcile_cases rfl (hlive .first) hworks.finalizer with ⟨_, -, hplaced⟩ | ⟨e, herror, -⟩
  · have hacted := @reconcile_acted env ((start adapters s).view .first) _ rfl (hlive .first)
    rcases hacted.stays pod hloaded with hstill | ⟨x, hx, rfl, hunload⟩
    · have hserved : Served ((start adapters s).view .first) pod := mem_placement hpod
      have hready := (hserved.frame hplaced.frame).readyLoaded_iff.mpr hstill
      have hmem := (hplaced.placed hworks.placed pod).mp hready
      exact placement_disjoint hbase hmem hpod
    · exact h _ (getOptimalPlacement_eq_ok.mpr ⟨hlist, rfl⟩) x hx hunload hpod
  · cases hok.symm.trans herror

end Frames

theorem CallsSucceed.congr {env : Env} {a : LoraAdapter} {s s' : State} (h : CallsSucceed env a s)
    (hpods : s'.pods = s.pods) (hsecrets : s'.secrets = s.secrets) : CallsSucceed env a s' where
  api := h.api
  engine := h.engine
  addressed := hpods ▸ h.addressed
  apiKey := by
    intro pod purpose
    rw [hsecrets]
    exact h.apiKey pod purpose

/-- What two objects have in common when one has become the other: all but finalizers, path and status. -/
def Akin (secrets : Dict (String × String) (Dict String String)) (a a' : LoraAdapter) : Prop :=
  ∃ finalizers, Kept secrets { a with finalizers := finalizers } a'

section Akin

variable {secrets : Dict (String × String) (Dict String String)} {a a' : LoraAdapter}

theorem Akin.refl (a : LoraAdapter) : Akin secrets a a := ⟨a.finalizers, Kept.refl _ _⟩

theorem Akin.kept {a'' : LoraAdapter} (h : Akin secrets a a') (h' : Kept secrets a' a'') : Akin secrets a a'' := by
  obtain ⟨finalizers, hkept⟩ := h
  exact ⟨finalizers, hkept.trans h'⟩

theorem Akin.adopted (h : Akin secrets a a') (finalizers : List String) :
    Akin secrets a { a' with finalizers := finalizers } := by
  obtain ⟨_, hkept⟩ := h
  exact ⟨finalizers, hkept.adapterName, hkept.baseModel, hkept.replicas, hkept.vllmApiKey, hkept.namespaceName,
    hkept.deletionTimestamp, rfl, hkept.discoverable⟩

theorem Akin.adapterName (h : Akin secrets a a') : a'.adapterSource.adapterName = a.adapterSource.adapterName := by
  obtain ⟨_, hkept⟩ := h
  exact hkept.adapterName

theorem Akin.deletionTimestamp (h : Akin secrets a a') : a'.deletionTimestamp = a.deletionTimestamp := by
  obtain ⟨_, hkept⟩ := h
  exact hkept.deletionTimestamp

theorem Akin.discoverable (h : Akin secrets a a') :
    LoraAdapterController.discoverable secrets a' = LoraAdapterController.discoverable secrets a := by
  obtain ⟨_, hkept⟩ := h
  exact hkept.discoverable

theorem Akin.placement (h : Akin secrets a a') (env : Env) (pods : Dict NamespacedName Pod) :
    LoraAdapterController.placement env a' pods = LoraAdapterController.placement env a pods := by
  obtain ⟨_, hkept⟩ := h
  exact placement_congr hkept env pods

theorem Akin.calls {env : Env} {s : State} (h : Akin s.secrets a a') (hcalls : CallsSucceed env a s) :
    CallsSucceed env a' s := by
  obtain ⟨finalizers, hkept⟩ := h
  have hsame : CallsSucceed env { a with finalizers := finalizers } s :=
    ⟨hcalls.api, hcalls.engine, hcalls.addressed, hcalls.apiKey⟩
  exact hsame.kept hkept (Frame.refl s)

end Akin

section Turns

variable {adapters : Turn → LoraAdapter} {s : State} {c c' : Cluster} {t : Turn} {env : Env}

variable {a : LoraAdapter} {desired : List NamespacedName}

theorem reconcile_adopts (h : CallsSucceed env a s) (hobject : s.adapter = some a)
    (hdeletion : a.deletionTimestamp = none) (hmissing : loraAdapterFinalizer ∉ a.finalizers) :
    (∃ result, (reconcile env s).1 = .ok result) ∧ (reconcile env s).2 =
      { s with adapter := some { a with finalizers := a.finalizers ++ [loraAdapterFinalizer] } } := by
  have hrun : wp (reconcile env) (fun _ s' => s' =
      { s with adapter := some { a with finalizers := a.finalizers ++ [loraAdapterFinalizer] } })
      (fun _ _ => False) s := by
    simp only [reconcile, h.api, fetchAdapter, wp_bind, wp_state, wp_pure, hobject, hdeletion, Option.isSome_none,
      Bool.false_eq_true, if_false, hmissing, update, wp_modify]
    simp [stored]
  rcases wp_cases hrun with ⟨result, hok, hstate⟩ | ⟨_, -, hfalse⟩
  · exact ⟨⟨result, hok⟩, hstate⟩
  · exact hfalse.elim

/-- The cluster is the one of the start but for the engines, and the objects for what a Reconcile writes. -/
structure Ongoing (adapters : Turn → LoraAdapter) (s : State) (c : Cluster) : Prop where
  pods : c.state.pods = s.pods
  secrets : c.state.secrets = s.secrets
  objects : ∀ t, ∃ a, c.objects t = some a ∧ Akin s.secrets (adapters t) a

def Adopted (t : Turn) (c : Cluster) : Prop :=
  ∃ a, c.objects t = some a ∧ loraAdapterFinalizer ∈ a.finalizers

def AtRest (adapters : Turn → LoraAdapter) (desired : List NamespacedName) (t : Turn) (c : Cluster) : Prop :=
  desired = [] ∨ ∀ pod, ReadyLoaded c.state (adapters t).adapterSource.adapterName pod ↔ pod ∈ desired

/-- What a successful Reconcile of one of the objects has done. Without the finalizer it only adds it. -/
structure Taken (adapters : Turn → LoraAdapter) (s : State) (desired : List NamespacedName) (t : Turn)
    (c c' : Cluster) : Prop where
  ongoing : Ongoing adapters s c'
  adopted : Adopted t c'
  object : c'.objects t.other = c.objects t.other
  others : ∀ name, name ≠ (adapters t).adapterSource.adapterName →
    ∀ pod, ReadyLoaded c'.state name pod ↔ ReadyLoaded c.state name pod
  idle : desired = [] → c'.state.engines = c.state.engines
  quiet : AtRest adapters desired t c → ∀ x ∈ c'.state.sent, x.request.changes = false
  placed : Adopted t c → AtRest adapters desired t c'
  busy : Adopted t c →
    (∃ pod ∈ desired, ¬ ReadyLoaded c.state (adapters t).adapterSource.adapterName pod) →
    ∃ x ∈ c'.state.sent, x.request.changes = true

theorem Turn.other_ne (t : Turn) : t.other ≠ t := by
  cases t <;> decide

theorem Ongoing.start (adapters : Turn → LoraAdapter) (s : State) : Ongoing adapters s (start adapters s) :=
  ⟨rfl, rfl, fun t => ⟨adapters t, rfl, Akin.refl _⟩⟩

theorem Ongoing.reconcile (h : Ongoing adapters s c) (hakin : Akin s.secrets (adapters t) a)
    (hpods : (reconcile env (c.view t)).2.pods = c.state.pods)
    (hsecrets : (reconcile env (c.view t)).2.secrets = c.state.secrets)
    (hobject : (reconcile env (c.view t)).2.adapter = some a) : Ongoing adapters s (c.reconcile env t) where
  pods := hpods.trans h.pods
  secrets := hsecrets.trans h.secrets
  objects := by
    intro t'
    by_cases ht : t' = t
    · subst ht
      exact ⟨a, by simpa [Cluster.reconcile] using hobject, hakin⟩
    · obtain ⟨a', hobject', hakin'⟩ := h.objects t'
      exact ⟨a', by simpa [Cluster.reconcile, ht] using hobject', hakin'⟩

theorem readyLoaded_of_acted {name : String} {U : NamespacedName → Prop} {s s' : State} (h : Acted name U s s')
    {other : String} (hother : other ≠ name) (pod : NamespacedName) : ReadyLoaded s' other pod ↔ ReadyLoaded s other pod := by
  simp only [ReadyLoaded, h.frame.pods, Dict.contains, h.others pod other hother]

theorem Cluster.reconcile_object (c : Cluster) (env : Env) (t : Turn) :
    (c.reconcile env t).objects t.other = c.objects t.other := by
  simp [Cluster.reconcile, t.other_ne]

theorem Cluster.reconcile_others (hobject : c.objects t = some a) (hakin : Akin s.secrets (adapters t) a)
    (hlive : (adapters t).deletionTimestamp = none) (name : String) (hname : name ≠ (adapters t).adapterSource.adapterName)
    (pod : NamespacedName) : ReadyLoaded (c.reconcile env t).state name pod ↔ ReadyLoaded c.state name pod :=
  readyLoaded_of_acted (@reconcile_acted env (c.view t) a hobject (hakin.deletionTimestamp.trans hlive))
    (hakin.adapterName ▸ hname) pod

theorem taken_adopting (desired : List NamespacedName) (h : Ongoing adapters s c)
    (hobject : c.objects t = some a) (hakin : Akin s.secrets (adapters t) a)
    (hlive : (adapters t).deletionTimestamp = none) (hcalls : CallsSucceed env a (c.view t))
    (hmissing : loraAdapterFinalizer ∉ a.finalizers) : Taken adapters s desired t c (c.reconcile env t) := by
  have hstate := (reconcile_adopts hcalls hobject (hakin.deletionTimestamp.trans hlive) hmissing).2
  have hnotAdopted : ¬ Adopted t c := by
    rintro ⟨b, hb, hmem⟩
    cases hobject.symm.trans hb
    exact hmissing hmem
  have hsent : (c.reconcile env t).state.sent = [] := by
    rw [Cluster.reconcile, hstate]
    rfl
  have hengines : (c.reconcile env t).state.engines = c.state.engines := by
    rw [Cluster.reconcile, hstate]
    rfl
  refine ⟨h.reconcile (hakin.adopted (a.finalizers ++ [loraAdapterFinalizer])) ?_ ?_ ?_,
    ⟨{ a with finalizers := a.finalizers ++ [loraAdapterFinalizer] }, ?_, ?_⟩, c.reconcile_object env t,
    Cluster.reconcile_others hobject hakin hlive, fun _ => hengines, ?_, fun had => absurd had hnotAdopted,
    fun had => absurd had hnotAdopted⟩
  · rw [hstate]
    rfl
  · rw [hstate]
    rfl
  · rw [hstate]
  · simp [Cluster.reconcile, hstate]
  · simp
  · rw [hsent]
    intro _ x hx
    cases hx

theorem taken_placing (h : Ongoing adapters s c) (hobject : c.objects t = some a) (hakin : Akin s.secrets (adapters t) a)
    (hlive : (adapters t).deletionTimestamp = none)
    (hdesired : ∀ pod, pod ∈ placement env (adapters t) s.pods ↔ pod ∈ desired)
    (hfinalizer : loraAdapterFinalizer ∈ a.finalizers) (hplaced : Placed env a (c.view t) (c.reconcile env t).state) :
    Taken adapters s desired t c (c.reconcile env t) := by
  have hplacement : placement env a (c.view t).pods = placement env (adapters t) s.pods := by
    rw [hakin.placement, show (c.view t).pods = s.pods from h.pods]
  have hnil : placement env (adapters t) s.pods = [] ↔ desired = [] := by
    simp only [List.eq_nil_iff_forall_not_mem, hdesired]
  obtain ⟨a', hobject', hkept'⟩ := hplaced.object
  rw [show (c.view t).secrets = s.secrets from h.secrets] at hkept'
  have hready := hplaced.placed
  have hidle := hplaced.untouched
  have hquiet := hplaced.quiet
  have hbusy := hplaced.busy
  rw [Settled] at hquiet
  simp only [hplacement, hnil, hdesired, hakin.adapterName, ne_eq] at hready hidle hquiet hbusy
  refine ⟨h.reconcile (hakin.kept hkept') hplaced.frame.pods hplaced.frame.secrets hobject', ⟨a', ?_, ?_⟩,
    c.reconcile_object env t, Cluster.reconcile_others hobject hakin hlive, hidle, ?_, ?_, ?_⟩
  · simpa [Cluster.reconcile] using hobject'
  · rw [hkept'.finalizers]
    exact hfinalizer
  · intro hrest x hx
    exact (hquiet hrest x hx).resolve_left List.not_mem_nil
  · intro _
    by_cases hempty : desired = []
    · exact .inl hempty
    · exact .inr (hready hempty)
  · intro _ hlacking
    exact (hbusy hlacking).2

theorem taken_or_missing (h : Ongoing adapters s c) (hlive : (adapters t).deletionTimestamp = none)
    (hcalls : CallsSucceed env (adapters t) s) (hdesired : ∀ pod, pod ∈ placement env (adapters t) s.pods ↔ pod ∈ desired) :
    ((∃ result, (reconcile env (c.view t)).1 = .ok result) ∧ Taken adapters s desired t c (c.reconcile env t)) ∨
      ((∃ e, (reconcile env (c.view t)).1 = .error e) ∧ discoverable s.secrets (adapters t) = false) := by
  obtain ⟨a, hobject, hakin⟩ := h.objects t
  have hcalls' : CallsSucceed env a (c.view t) := (hakin.calls hcalls).congr h.pods h.secrets
  by_cases hfinalizer : loraAdapterFinalizer ∈ a.finalizers
  · rcases hcalls'.reconcile_cases hobject (hakin.deletionTimestamp.trans hlive) hfinalizer with
      ⟨result, hok, hplaced⟩ | ⟨e, herror, hmissing⟩
    · exact .inl ⟨⟨result, hok⟩, taken_placing h hobject hakin hlive hdesired hfinalizer hplaced⟩
    · refine .inr ⟨⟨e, herror⟩, ?_⟩
      have hnot := hmissing.missing
      rwa [show (c.view t).secrets = s.secrets from h.secrets, hakin.discoverable] at hnot
  · have hadopts := reconcile_adopts hcalls' hobject (hakin.deletionTimestamp.trans hlive) hfinalizer
    exact .inl ⟨hadopts.1, taken_adopting desired h hobject hakin hlive hcalls' hfinalizer⟩

theorem Taken.atRest_other {desired desired' : List NamespacedName} (h : Taken adapters s desired t c c')
    (hcompatible : (adapters t).adapterSource.adapterName ≠ (adapters t.other).adapterSource.adapterName ∨
      desired = [] ∨ desired' = [])
    (hongoing : Ongoing adapters s c) (hrest : AtRest adapters desired' t.other c) :
    AtRest adapters desired' t.other c' := by
  rcases hcompatible with hnames | hempty | hempty
  · refine hrest.imp id ?_
    intro hready pod
    rw [h.others _ hnames.symm pod, hready pod]
  · refine hrest.imp id ?_
    intro hready pod
    rw [← hready pod]
    simp only [ReadyLoaded, h.idle hempty, h.ongoing.pods, hongoing.pods]
  · exact .inl hempty

theorem Taken.adopted_of (h : Taken adapters s desired t c c') {t' : Turn} (hadopted : Adopted t' c) : Adopted t' c' := by
  by_cases ht : t' = t
  · exact ht ▸ h.adopted
  · obtain rfl : t' = t.other := by cases t <;> cases t' <;> simp_all [Turn.other]
    rw [Adopted, h.object]
    exact hadopted

end Turns

section Alternation

theorem turn_succ (n : Nat) : turn (n + 1) = (turn n).other := by
  rcases Nat.mod_two_eq_zero_or_one n with h | h <;> simp [turn, Nat.add_mod, h, Turn.other]

theorem turn_add_two (n : Nat) : turn (n + 2) = turn n := by
  simp [turn]

theorem eq_turn_or (n : Nat) (t : Turn) : t = turn n ∨ t = turn (n + 1) := by
  rw [turn_succ]
  cases t <;> cases turn n <;> simp [Turn.other]

variable {adapters : Turn → LoraAdapter} {s : State} {envs : Nat → Env}

theorem taken_run (hlive : ∀ t, (adapters t).deletionTimestamp = none) (hsuccess : Successful adapters envs s)
    (hstable : Stable adapters envs s.pods) (n : Nat) :
    Ongoing adapters s (alternate envs (start adapters s) n) ∧
      Taken adapters s (placement (envs 0) (adapters (turn n)) s.pods) (turn n) (alternate envs (start adapters s) n)
        (alternate envs (start adapters s) (n + 1)) := by
  have htaken : ∀ n, Ongoing adapters s (alternate envs (start adapters s) n) →
      Taken adapters s (placement (envs 0) (adapters (turn n)) s.pods) (turn n)
        (alternate envs (start adapters s) n) (alternate envs (start adapters s) (n + 1)) := by
    intro n hongoing
    rcases taken_or_missing hongoing (hlive _) (hsuccess.calls n _) (hstable n (turn n)) with
      ⟨-, htaken⟩ | ⟨⟨e, herror⟩, -⟩
    · exact htaken
    · obtain ⟨result, hok⟩ := hsuccess.ok n
      cases hok.symm.trans herror
  induction n with
  | zero => exact ⟨Ongoing.start adapters s, htaken 0 (Ongoing.start adapters s)⟩
  | succ n ih => exact ⟨ih.2.ongoing, htaken (n + 1) ih.2.ongoing⟩

section Run

variable (hlive : ∀ t, (adapters t).deletionTimestamp = none) (hsuccess : Successful adapters envs s)
  (hstable : Stable adapters envs s.pods)

include hlive hsuccess hstable

theorem adopted_run (n : Nat) (t : Turn) : Adopted t (alternate envs (start adapters s) (n + 2)) := by
  induction n with
  | zero =>
    have hfirst := (taken_run hlive hsuccess hstable 0).2
    have hsecond := (taken_run hlive hsuccess hstable 1).2
    rcases eq_turn_or 0 t with rfl | rfl
    · exact hsecond.adopted_of hfirst.adopted
    · exact hsecond.adopted
  | succ n ih => exact (taken_run hlive hsuccess hstable (n + 2)).2.adopted_of ih

theorem atRest_own (n : Nat) :
    AtRest adapters (placement (envs 0) (adapters (turn (n + 2))) s.pods) (turn (n + 2))
      (alternate envs (start adapters s) (n + 3)) :=
  (taken_run hlive hsuccess hstable (n + 2)).2.placed (adopted_run hlive hsuccess hstable n _)

omit hlive hsuccess hstable in
theorem Compatible.turn {env : Env} {pods : Dict NamespacedName Pod} (h : Compatible adapters env pods) (t : Turn) :
    (adapters t).adapterSource.adapterName ≠ (adapters t.other).adapterSource.adapterName ∨
      placement env (adapters t) pods = [] ∨ placement env (adapters t.other) pods = [] := by
  rcases h with hnames | ⟨t', hempty⟩
  · cases t with
    | first => exact .inl hnames
    | second => exact .inl hnames.symm
  · by_cases ht : t' = t
    · exact .inr (.inl (ht ▸ hempty))
    · obtain rfl : t' = t.other := by cases t <;> cases t' <;> simp_all [Turn.other]
      exact .inr (.inr hempty)

theorem rests_of_compatible (hcompatible : Compatible adapters (envs 0) s.pods) : Rests envs (start adapters s) := by
  refine ⟨4, ?_⟩
  intro m hm
  obtain ⟨n, rfl⟩ := Nat.exists_eq_add_of_le' hm
  obtain ⟨hongoing, htaken⟩ := taken_run hlive hsuccess hstable (n + 3)
  have hrest := atRest_own hlive hsuccess hstable n
  have hother : turn (n + 2) = (turn (n + 3)).other := by
    rw [← turn_succ]
    exact (turn_add_two (n + 2)).symm
  refine (taken_run hlive hsuccess hstable (n + 4)).2.quiet ?_
  rw [turn_succ (n + 3)]
  rw [hother] at hrest
  exact htaken.atRest_other (hcompatible.turn (turn (n + 3))) hongoing hrest

theorem compatible_of_rests (hbase : (adapters .first).baseModel ≠ (adapters .second).baseModel)
    (hrests : Rests envs (start adapters s)) : Compatible adapters (envs 0) s.pods := by
  by_contra hnot
  simp only [Compatible, not_or, not_not, not_exists] at hnot
  obtain ⟨hnames, hplaced⟩ := hnot
  obtain ⟨n, hquiet⟩ := hrests
  have htaken := (taken_run hlive hsuccess hstable (n + 3)).2
  have hready := (atRest_own hlive hsuccess hstable n).resolve_left (hplaced _)
  have hsame : (adapters (turn (n + 2))).adapterSource.adapterName =
      (adapters (turn (n + 3))).adapterSource.adapterName := by
    rw [turn_succ (n + 2)]
    cases turn (n + 2) with
    | first => exact hnames
    | second => exact hnames.symm
  have hbases : (adapters (turn (n + 3))).baseModel ≠ (adapters (turn (n + 2))).baseModel := by
    rw [turn_succ (n + 2)]
    cases turn (n + 2) with
    | first => exact hbase.symm
    | second => exact hbase
  obtain ⟨pod, hpod⟩ := List.exists_mem_of_ne_nil _ (hplaced (turn (n + 3)))
  have hlacks : ¬ ReadyLoaded (alternate envs (start adapters s) (n + 3)).state
      (adapters (turn (n + 3))).adapterSource.adapterName pod := by
    rw [← hsame, hready pod]
    exact placement_disjoint hbases hpod
  obtain ⟨x, hx, hchanges⟩ := htaken.busy (adopted_run hlive hsuccess hstable (n + 1) _) ⟨pod, hpod, hlacks⟩
  rw [hquiet (n + 3) (by omega) x hx] at hchanges
  cases hchanges

end Run

theorem successful_of_discoverable (hlive : ∀ t, (adapters t).deletionTimestamp = none)
    (hcalls : ∀ n t, CallsSucceed (envs n) (adapters t) s)
    (hfound : ∀ t, discoverable s.secrets (adapters t) = true) : Successful adapters envs s := by
  have hstep : ∀ n, Ongoing adapters s (alternate envs (start adapters s) n) →
      (∃ result, (reconcile (envs n) ((alternate envs (start adapters s) n).view (turn n))).1 = .ok result) ∧
        Ongoing adapters s (alternate envs (start adapters s) (n + 1)) := by
    intro n hongoing
    rcases taken_or_missing hongoing (hlive _) (hcalls n (turn n)) (fun _ => Iff.rfl) with
      ⟨hok, htaken⟩ | ⟨-, hmissing⟩
    · exact ⟨hok, htaken.ongoing⟩
    · rw [hfound] at hmissing
      cases hmissing
  have hongoing : ∀ n, Ongoing adapters s (alternate envs (start adapters s) n) := by
    intro n
    induction n with
    | zero => exact Ongoing.start adapters s
    | succ n ih => exact (hstep n ih).2
  exact ⟨hcalls, fun n => (hstep n (hongoing n)).1⟩

end Alternation

/-- Two objects for different base models: the first one unloads nothing from a pod that is placed for the second
one if no such pod has an adapter of its name, and only then when its Reconcile does its work. Reconciled in turn
they come to rest exactly if the names differ or one of them has nowhere to be placed. -/
theorem adapters_coexist (adapters : Turn → LoraAdapter) (hbase : (adapters .first).baseModel ≠ (adapters .second).baseModel)
    (hlive : ∀ t, (adapters t).deletionTimestamp = none) (s : State) :
    (∀ env env', Apart adapters env' s → Spares adapters env env' s) ∧
    (∀ env env', Works env (adapters .first) s → env'.api (.listPods .placement) = .ok →
      Spares adapters env env' s → Apart adapters env' s) ∧
    ∀ envs, Successful adapters envs s → Stable adapters envs s.pods →
      (Rests envs (start adapters s) ↔ Compatible adapters (envs 0) s.pods) := by
  refine ⟨?_, ?_, ?_⟩
  · exact fun env env' happart => spares_of_apart hlive happart
  · exact fun env env' hworks hlist hspares => apart_of_spares hbase hlive hlist hworks hspares
  · intro envs hsuccess hstable
    exact ⟨compatible_of_rests hlive hsuccess hstable hbase, rests_of_compatible hlive hsuccess hstable⟩

def twoAdapters (name name' : String) : Turn → LoraAdapter
  | .first => { sqlAdapter none none with
      adapterSource := { adapterName := name, adapterPath := "/adapters/sql", type := .local } }
  | .second => { sqlAdapter none none with
      adapterSource := { adapterName := name', adapterPath := "/adapters/chat", type := .local }
      baseModel := "qwen" }

def twoPods (name : String) : State where
  pods := .ofList [(vllmPod, llamaPod "True"),
    (sparePod, ⟨.ofList [("model", "qwen")], [⟨"Ready", "True"⟩], "10.0.0.8", []⟩)]
  engines := fun pod => if pod = sparePod then ⟨"qwen", .ofList [(name, "/adapters/chat")]⟩ else ⟨"llama", .empty⟩
  secrets := .empty
  adapter := none

theorem twoPods_successful (name name' loaded : String) :
    Successful (twoAdapters name name') (fun _ => calmEnv) (twoPods loaded) := by
  apply successful_of_discoverable
  · rintro (_ | _) <;> rfl
  · refine fun _ t => calm_callsSucceed (by cases t <;> rfl) ?_
    exact (by decide : ∀ e ∈ (twoPods "").pods.entries, e.2.podIP ≠ "")
  · rintro (_ | _) <;> rfl

/-- With different names both are placed and stay. -/
theorem named_apart_rest :
    Spares (twoAdapters "sql" "chat") calmEnv calmEnv (twoPods "chat") ∧
      Rests (fun _ => calmEnv) (start (twoAdapters "sql" "chat") (twoPods "chat")) := by
  have hcoexist := adapters_coexist (twoAdapters "sql" "chat") (by decide) (by rintro (_ | _) <;> rfl) (twoPods "chat")
  refine ⟨hcoexist.1 calmEnv calmEnv ?_, ?_⟩
  · intro pod hpod
    have hplaced : pod = sparePod := by
      have hlist : placement calmEnv (twoAdapters "sql" "chat" .second) (twoPods "chat").pods = [sparePod] := by decide
      rw [hlist] at hpod
      exact List.mem_singleton.mp hpod
    subst hplaced
    decide
  · exact (hcoexist.2.2 (fun _ => calmEnv) (twoPods_successful _ _ _) (fun _ _ _ => Iff.rfl)).mpr (.inl (by decide))

/-- Both are named sql. The first one's Reconcile unloads the second one's adapter from its pod, and with the
two in turn neither comes to rest. -/
theorem same_name_undone :
    (¬ ∀ (adapters : Turn → LoraAdapter) (env env' : Env) (s : State),
      (adapters .first).baseModel ≠ (adapters .second).baseModel → (∀ t, (adapters t).deletionTimestamp = none) →
      Spares adapters env env' s) ∧
    ¬ ∀ (adapters : Turn → LoraAdapter) (envs : Nat → Env) (s : State),
      (adapters .first).baseModel ≠ (adapters .second).baseModel → (∀ t, (adapters t).deletionTimestamp = none) →
      Successful adapters envs s → Stable adapters envs s.pods → Rests envs (start adapters s) := by
  have hbase : (twoAdapters "sql" "sql" .first).baseModel ≠ (twoAdapters "sql" "sql" .second).baseModel := by decide
  have hlive : ∀ t, (twoAdapters "sql" "sql" t).deletionTimestamp = none := by rintro (_ | _) <;> rfl
  constructor
  · intro h
    have hspares := h (twoAdapters "sql" "sql") calmEnv calmEnv (twoPods "sql") hbase hlive
    have hsent : ⟨sparePod, "http://10.0.0.8:8000/v1/unload_lora_adapter", "", .unload "sql"⟩ ∈
        ((start (twoAdapters "sql" "sql") (twoPods "sql")).reconcile calmEnv .first).state.sent := by
      decide +kernel
    exact hspares [sparePod] rfl _ hsent rfl (List.mem_singleton_self sparePod)
  · intro h
    have hstable : Stable (twoAdapters "sql" "sql") (fun _ => calmEnv) (twoPods "sql").pods := fun _ _ _ => Iff.rfl
    have hsuccess := twoPods_successful "sql" "sql" "sql"
    have hrests := h _ (fun _ => calmEnv) (twoPods "sql") hbase hlive hsuccess hstable
    rcases compatible_of_rests hlive hsuccess hstable hbase hrests with hnames | ⟨t, hempty⟩
    · exact hnames rfl
    · revert hempty
      cases t <;> decide

end ProductionStack.LoraAdapterController
