import ProductionStack.LoraConvergence

namespace ProductionStack.LoraAdapterController

open Command

/-- The API server with every write of a status refused. -/
def refusing (env : Env) : Env :=
  { env with
    api := fun call =>
      match call with
      | .updateStatus _ _ => .failed false
      | call => env.api call }

def conditions (s : State) : Option (List Condition) := s.adapter.map (·.status.conditions)

/-- A Reconcile that writes no status goes the same way when every such write is refused; and the conditions stay. -/
structure StaysQuiet (env : Env) (s : State) : Prop where
  unwritten : reconcile (refusing env) s = reconcile env s
  kept : conditions (reconcile env s).2 = conditions s

/-- The object has its finalizer, and no pod of its base model is ready. -/
structure Waiting (adapter : LoraAdapter) (s : State) : Prop where
  object : ∃ status, s.adapter = some { adapter with status := status }
  deletion : adapter.deletionTimestamp = none
  finalizer : loraAdapterFinalizer ∈ adapter.finalizers
  unready : ∀ pod object, s.pods.get? pod = some object → object.labels.get? "model" = some adapter.baseModel →
    podReady object = false

def waitingCondition (env : Env) : Condition :=
  ⟨"WaitingForPods", "True", env.now, "NoReadyPods", "Waiting for pods to become ready"⟩

section Step

variable {env : Env} {adapter : LoraAdapter} {s s' : State}

theorem writeStatus_writes {round : Nat} {what : String} {change : LoraAdapter → Option Status} {status : Status}
    (hobject : s.adapter = some adapter) (hchange : change adapter = some status) (retries : List Nat) :
    wp (writeStatus env round what change retries)
      (fun a s' => (∃ retry, env.api (.updateStatus round retry) = .ok) ∧ a = { adapter with status := status } ∧
        s' = { s with adapter := some a })
      (fun _ _ => True) s := by
  induction retries with
  | nil => trivial
  | cons retry retries ih =>
    rw [writeStatus, wp_bind, wp_mapError]
    cases hget : env.api (.getLatest round retry) with
    | ok =>
      simp only [fetchAdapter, wp_bind, wp_state, wp_pure, hobject, hchange]
      cases hupdate : env.api (.updateStatus round retry) with
      | ok => exact ⟨⟨retry, hupdate⟩, rfl, rfl⟩
      | notFound => trivial
      | conflict => exact ih
      | failed processed => cases processed <;> trivial
    | notFound => trivial
    | conflict => trivial
    | failed processed => trivial

theorem Waiting.placement_nil (h : Waiting adapter s) (env : Env) (status : Status) :
    placement env { adapter with status := status } s.pods = [] := by
  have hnone : candidates env { adapter with status := status } s.pods = [] := by
    rw [candidates, List.filter_eq_nil_iff]
    intro pod hpod
    rw [List.mem_filter, (env.listOrder_perm _ _).mem_iff, decide_eq_true_iff] at hpod
    rw [h.unready pod.1 pod.2 (s.pods.get?_of_mem hpod.1) hpod.2]
    exact Bool.false_ne_true
  rw [placement, hnone]
  simp [placements]

theorem Waiting.looked (h : Waiting adapter s) (hlooked : Looked s s') : Waiting adapter s' := by
  obtain ⟨sent, rfl, -⟩ := hlooked
  exact ⟨h.object, h.deletion, h.finalizer, h.unready⟩

theorem Waiting.written (h : Waiting adapter s) (status : Status) :
    Waiting adapter { s with adapter := some { adapter with status := status } } :=
  ⟨⟨status, rfl⟩, h.deletion, h.finalizer, h.unready⟩

theorem setCondition_of_absent {condition : Condition} {cs : List Condition} (h : ∀ c ∈ cs, c.type ≠ condition.type) :
    setCondition condition cs = cs ++ [condition] := by
  induction cs with
  | nil => rfl
  | cons c cs ih =>
    rw [List.forall_mem_cons] at h
    rw [setCondition, if_neg h.1, ih h.2, List.cons_append]

theorem waitingStatus_of_absent {adapter : LoraAdapter} (h : ∀ c ∈ adapter.status.conditions, c.type ≠ "WaitingForPods") :
    waitingStatus env "Waiting for pods to become ready" adapter =
      some
        { conditions := adapter.status.conditions ++ [waitingCondition env]
          loadedAdapters := []
          observedGeneration := adapter.generation } := by
  have hany : adapter.status.conditions.any (fun c => c.type = "WaitingForPods" && c.status = "True" &&
      c.message = "Waiting for pods to become ready") = false := by
    rw [List.any_eq_false]
    intro c hc
    simp [h c hc]
  rw [waitingStatus, hany, if_neg Bool.false_ne_true]
  have hset : setCondition (waitingCondition env) adapter.status.conditions = _ := setCondition_of_absent h
  rw [← hset]
  rfl

structure Reset (env : Env) (s' : State) : Prop where
  found : env.api (.getAdapter 0) = .ok
  written : ∃ retry, env.api (.updateStatus 0 retry) = .ok
  conditions : ∃ kept, conditions s' = some (kept ++ [waitingCondition env]) ∧ ∀ c ∈ kept, c.type ≠ "WaitingForPods"

theorem Waiting.reconcilePlacement_spec (h : Waiting adapter s) (hfound : env.api (.getAdapter 0) = .ok) {status : Status}
    (hobject : s.adapter = some { adapter with status := status }) :
    wp (reconcilePlacement env { adapter with status := status }) (fun _ s' => Waiting adapter s' ∧ Reset env s')
      (fun _ _ => True) s := by
  rw [reconcilePlacement, wp_bind]
  refine wp_mono (getAdapterRegistrations_spec 0 _ s) ?_ (fun _ _ _ => trivial)
  rintro regs s₁ ⟨-, -, hlooked⟩
  have hobject₁ := hlooked.object.trans hobject
  have h₁ := h.looked hlooked
  rw [wp_bind]
  refine wp_mono (writeStatus_writes hobject₁ rfl [0, 1, 2]) ?_ (fun _ _ _ => trivial)
  rintro a s₂ ⟨hwritten, rfl, rfl⟩
  have h₂ := h₁.written
    { conditions := status.conditions.filter (fun c => c.type ≠ "WaitingForPods")
      loadedAdapters := regs
      observedGeneration := adapter.generation }
  rw [wp_bind]
  refine wp_mono (getOptimalPlacement_spec _ _) ?_ (fun _ _ _ => trivial)
  rintro desired s₃ ⟨hdesired, rfl⟩
  rw [h₂.placement_nil] at hdesired
  have habsent : ∀ c ∈ status.conditions.filter (fun c => c.type ≠ "WaitingForPods"), c.type ≠ "WaitingForPods" :=
    fun c hc => of_decide_eq_true (List.mem_filter.mp hc).2
  rw [if_pos hdesired, wp_bind]
  refine wp_mono (writeStatus_writes rfl (waitingStatus_of_absent habsent) [0, 1, 2]) ?_ (fun _ _ _ => trivial)
  rintro a s₄ ⟨-, rfl, rfl⟩
  exact ⟨h₂.written _, hfound, hwritten, _, rfl, habsent⟩

theorem Waiting.reconcile_spec (h : Waiting adapter s) :
    wp (reconcile env)
      (fun _ s' => Waiting adapter s' ∧ ((env.api (.getAdapter 0) = .notFound ∧ s' = s) ∨ Reset env s'))
      (fun _ _ => True) s := by
  obtain ⟨status, hobject⟩ := h.object
  rw [reconcile, wp_bind]
  cases hfound : env.api (.getAdapter 0) with
  | notFound => exact ⟨h, .inl ⟨rfl, rfl⟩⟩
  | conflict => trivial
  | failed processed => trivial
  | ok =>
    simp only [fetchAdapter, wp_bind, wp_state, wp_pure, hobject, h.deletion, Option.isSome_none, Bool.false_eq_true,
      if_false, h.finalizer, if_true]
    refine wp_mono (h.reconcilePlacement_spec hfound hobject) ?_ (fun _ _ _ => trivial)
    rintro _ s' ⟨hwaiting, hreset⟩
    exact ⟨hwaiting, .inr hreset⟩

theorem Waiting.reconcile_cases (h : Waiting adapter s) {result : Result} (hok : (reconcile env s).1 = .ok result) :
    Waiting adapter (reconcile env s).2 ∧
      ((env.api (.getAdapter 0) = .notFound ∧ (reconcile env s).2 = s) ∨ Reset env (reconcile env s).2) := by
  rcases wp_cases (@Waiting.reconcile_spec env adapter s h) with ⟨_, -, hcases⟩ | ⟨e, herror, -⟩
  · exact hcases
  · rw [hok] at herror
    cases herror

theorem reconcile_of_notFound (h : env.api (.getAdapter 0) = .notFound) (s : State) : reconcile env s = (.ok {}, s) := by
  rw [reconcile, h]
  rfl

theorem Waiting.staysQuiet_iff (h : Waiting adapter s) {result : Result} (hok : (reconcile env s).1 = .ok result) :
    StaysQuiet env s ↔ env.api (.getAdapter 0) = .notFound := by
  constructor
  · intro hquiet
    rcases (h.reconcile_cases hok).2 with ⟨hnot, -⟩ | hreset
    · exact hnot
    · have hok' : (reconcile (refusing env) s).1 = .ok result := by rw [hquiet.unwritten, hok]
      rcases (h.reconcile_cases hok').2 with ⟨hnot, -⟩ | hreset'
      · exact hnot
      · obtain ⟨retry, hwritten⟩ := hreset'.written
        cases hwritten
  · intro hnot
    have hnot' : (refusing env).api (.getAdapter 0) = .notFound := hnot
    refine ⟨?_, ?_⟩
    · rw [reconcile_of_notFound hnot, reconcile_of_notFound hnot']
    · rw [reconcile_of_notFound hnot]

end Step

section Runs

variable {envs : Nat → Env} {adapter : LoraAdapter} {s : State}

def reconciled (envs : Nat → Env) (s : State) : Nat → State
  | 0 => s
  | k + 1 => (reconcile (envs k) (reconciled envs s k)).2

def Succeeds (envs : Nat → Env) (s : State) (k : Nat) : Prop :=
  ∃ result, (reconcile (envs k) (reconciled envs s k)).1 = .ok result

theorem Waiting.reconciled (h : Waiting adapter s) {n : Nat} (hsucceeds : ∀ k < n, Succeeds envs s k) :
    Waiting adapter (reconciled envs s n) := by
  induction n with
  | zero => exact h
  | succ n ih =>
    obtain ⟨result, hok⟩ := hsucceeds n (Nat.lt_succ_self n)
    exact ((ih (fun k hk => hsucceeds k (hk.trans (Nat.lt_succ_self n)))).reconcile_cases hok).1

/-- The first Reconcile sets the condition. Those after it stay quiet exactly when they do not find the object. -/
theorem waiting_quiet_iff (h : Waiting adapter s) (hfound : (envs 0).api (.getAdapter 0) = .ok) (n : Nat)
    (hsucceeds : ∀ k ≤ n, Succeeds envs s k) :
    (∃ kept, conditions (reconciled envs s 1) = some (kept ++ [waitingCondition (envs 0)])) ∧
      ((∀ k, 1 ≤ k → k ≤ n → StaysQuiet (envs k) (reconciled envs s k)) ↔
        ∀ k, 1 ≤ k → k ≤ n → (envs k).api (.getAdapter 0) = .notFound) := by
  constructor
  · obtain ⟨result, hok⟩ := hsucceeds 0 (Nat.zero_le n)
    rcases (h.reconcile_cases hok).2 with ⟨hnot, -⟩ | hreset
    · rw [hfound] at hnot
      cases hnot
    · obtain ⟨kept, hkept, -⟩ := hreset.conditions
      exact ⟨kept, hkept⟩
  · refine forall_congr' (fun k => imp_congr_right (fun _ => forall_congr' (fun hle => ?_)))
    obtain ⟨result, hok⟩ := hsucceeds k hle
    exact (h.reconciled (fun j hj => hsucceeds j (hj.le.trans hle))).staysQuiet_iff hok

end Runs

section Demo

def unreadyState : State :=
  { pods := .ofList [(vllmPod, llamaPod "False")]
    engines := fun _ => ⟨"llama", .empty⟩
    secrets := .empty
    adapter := some (sqlAdapter none none) }

def lateEnv : Env := { calmEnv with now := 60 }

def goneEnv : Env := { calmEnv with api := fun call => if call matches .getAdapter 0 then .notFound else .ok }

theorem unreadyState_waiting : Waiting (sqlAdapter none none) unreadyState := by
  refine ⟨⟨{}, rfl⟩, rfl, by decide, ?_⟩
  intro pod object hobject _
  have hpod : object = llamaPod "False" := by
    have hget : (Dict.set .empty vllmPod (llamaPod "False")).get? pod = some object := hobject
    rw [Dict.get?_set] at hget
    split at hget
    · exact (Option.some.inj hget).symm
    · cases hget
  rw [hpod]
  rfl

theorem waiting_quiet_gone :
    StaysQuiet goneEnv (reconciled (fun k => if k = 0 then calmEnv else goneEnv) unreadyState 1) := by
  have hsucceeds : ∀ k ≤ 1, Succeeds (fun k => if k = 0 then calmEnv else goneEnv) unreadyState k := by
    intro k hk
    rcases Nat.le_one_iff_eq_zero_or_eq_one.mp hk with rfl | rfl
    · exact ⟨_, rfl⟩
    · exact ⟨_, rfl⟩
  refine (waiting_quiet_iff unreadyState_waiting rfl 1 hsucceeds).2.mpr ?_ 1 le_rfl le_rfl
  intro k hpos hle
  cases Nat.le_antisymm hle hpos
  rfl

/-- A minute later the condition is taken away and comes back with the new time. -/
theorem waiting_rewritten :
    (reconcile calmEnv unreadyState).1 = .ok { requeueAfter := 60 } ∧
      conditions (reconcile calmEnv unreadyState).2 = some [waitingCondition calmEnv] ∧
      (reconcile lateEnv (reconcile calmEnv unreadyState).2).1 = .ok { requeueAfter := 60 } ∧
      conditions (reconcile lateEnv (reconcile calmEnv unreadyState).2).2 = some [waitingCondition lateEnv] ∧
      waitingCondition lateEnv ≠ waitingCondition calmEnv ∧
      ¬ StaysQuiet lateEnv (reconcile calmEnv unreadyState).2 := by
  have hfirst : conditions (reconcile calmEnv unreadyState).2 = some [waitingCondition calmEnv] := rfl
  have hsecond : conditions (reconcile lateEnv (reconcile calmEnv unreadyState).2).2 = some [waitingCondition lateEnv] := rfl
  have hdiffer : waitingCondition lateEnv ≠ waitingCondition calmEnv := by decide
  refine ⟨rfl, hfirst, rfl, hsecond, hdiffer, ?_⟩
  intro hquiet
  have hkept := hquiet.kept
  rw [hfirst, hsecond] at hkept
  exact hdiffer (List.cons.inj (Option.some.inj hkept)).1

end Demo

end ProductionStack.LoraAdapterController
