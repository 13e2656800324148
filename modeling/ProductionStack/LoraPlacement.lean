import ProductionStack.LoraDifference
import ProductionStack.Selection

namespace ProductionStack.LoraAdapterController

open Command Selection

def podName (pod : NamespacedName × Pod) : String := pod.1.name

def placementsBy (lib : Sorting podName) (replicas : Option Int) (validPods : List (NamespacedName × Pod)) :
    List NamespacedName :=
  ((lib.sort validPods).take (numPods replicas validPods.length)).map Prod.fst

theorem placementsBy_stable (replicas : Option Int) (validPods : List (NamespacedName × Pod)) :
    placementsBy (stable podName) replicas validPods = placements replicas validPods := rfl

def getOptimalPlacementBy (lib : Sorting podName) (env : Env) (adapter : LoraAdapter) : M (List NamespacedName) := do
  let pods ← listPods env .placement (fun pod => pod.labels.get? "model" = some adapter.baseModel)
  return placementsBy lib adapter.replicas (pods.filter (fun pod => podReady pod.2))

theorem getOptimalPlacementBy_stable (env : Env) (adapter : LoraAdapter) :
    getOptimalPlacementBy (stable podName) env adapter = getOptimalPlacement env adapter := rfl

section Placement

variable {lib : Sorting podName} {env : Env} {adapter : LoraAdapter} {s : State} {pods : Dict NamespacedName Pod}

theorem getOptimalPlacementBy_eq_ok {desired : List NamespacedName} :
    (getOptimalPlacementBy lib env adapter s).1 = .ok desired ↔
      env.api (.listPods .placement) = .ok ∧ placementsBy lib adapter.replicas (candidates env adapter s.pods) = desired := by
  by_cases hlist : env.api (.listPods .placement) = .ok
  · have hrun : (getOptimalPlacementBy lib env adapter s).1 =
        .ok (placementsBy lib adapter.replicas (candidates env adapter s.pods)) := by
      simp only [getOptimalPlacementBy, listPods, hlist, if_true]
      rfl
    simp [hrun, hlist]
  · have hrun : (getOptimalPlacementBy lib env adapter s).1 =
        .error ("failed to list vLLM pods: " ++ (env.api (.listPods .placement)).text) := by
      simp only [getOptimalPlacementBy, listPods, hlist, if_false]
      rfl
    simp [hrun, hlist]

def readyPods (adapter : LoraAdapter) (pods : Dict NamespacedName Pod) : List (NamespacedName × Pod) :=
  (pods.entries.filter (fun pod => pod.2.labels.get? "model" = some adapter.baseModel)).filter (fun pod => podReady pod.2)

theorem candidates_perm_readyPods : (candidates env adapter pods).Perm (readyPods adapter pods) :=
  ((env.listOrder_perm .placement pods.entries).filter _).filter _

theorem readyPods_names_nodup : ((readyPods adapter pods).map Prod.fst).Nodup :=
  pods.nodup.sublist ((List.filter_sublist.trans List.filter_sublist).map Prod.fst)

/-- The number of replicas does not cut through the pods of one name. -/
def NoTie (adapter : LoraAdapter) (pods : Dict NamespacedName Pod) : Prop :=
  ∀ replicas, adapter.replicas = some replicas → 0 ≤ replicas → ∀ pod ∈ readyPods adapter pods,
    replicas ≤ below podName (readyPods adapter pods) pod ∨ upTo podName (readyPods adapter pods) pod ≤ replicas

theorem numPods_cut_iff {replicas : Option Int} {below upTo valid : Nat} (hlt : below < upTo) (hle : upTo ≤ valid) :
    (numPods replicas valid ≤ below ∨ upTo ≤ numPods replicas valid) ↔
      ∀ given, replicas = some given → 0 ≤ given → given ≤ below ∨ upTo ≤ given := by
  cases replicas with
  | none => simp [numPods, hle]
  | some given =>
    by_cases hnonneg : 0 ≤ given
    · simp only [numPods, hnonneg, if_true, Option.some.injEq, forall_eq', true_imp_iff]
      omega
    · simp [numPods, hnonneg, hle]

theorem noTie_iff :
    NoTie adapter pods ↔ ∀ pod ∈ readyPods adapter pods,
      numPods adapter.replicas (readyPods adapter pods).length ≤ below podName (readyPods adapter pods) pod ∨
        upTo podName (readyPods adapter pods) pod ≤ numPods adapter.replicas (readyPods adapter pods).length := by
  constructor
  · intro h pod hpod
    exact (numPods_cut_iff (below_lt_upTo hpod) List.countP_le_length).mpr
      (fun replicas hreplicas hnonneg => h replicas hreplicas hnonneg pod hpod)
  · intro h replicas hreplicas hnonneg pod hpod
    exact (numPods_cut_iff (below_lt_upTo hpod) List.countP_le_length).mp (h pod hpod) replicas hreplicas hnonneg

/-- The placements of two runs on the same pods have the same members, whatever order the API server lists them in. -/
def OrderIrrelevant (adapter : LoraAdapter) (pods : Dict NamespacedName Pod) : Prop :=
  ∀ (lib : Sorting podName) (env env' : Env) (s s' : State), s.pods = pods → s'.pods = pods →
    ∀ desired desired', (getOptimalPlacementBy lib env adapter s).1 = .ok desired →
      (getOptimalPlacementBy lib env' adapter s').1 = .ok desired' →
      (∀ pod, pod ∈ desired ↔ pod ∈ desired') ∧
      ∀ current : List LoadedAdapter, (current.map (·.podAssignments)).Perm desired → compareStates current desired' = false

theorem placementsBy_nodup : (placementsBy lib adapter.replicas (candidates env adapter pods)).Nodup := by
  have hnodup := (((lib.perm _).trans (@candidates_perm_readyPods env adapter pods)).map Prod.fst).nodup_iff.mpr
    readyPods_names_nodup
  exact hnodup.sublist ((List.take_sublist _ _).map Prod.fst)

theorem mem_placementsBy_iff (h : NoTie adapter pods) (env' : Env) (pod : NamespacedName) :
    pod ∈ placementsBy lib adapter.replicas (candidates env adapter pods) ↔
      pod ∈ placementsBy lib adapter.replicas (candidates env' adapter pods) := by
  have hperm := @candidates_perm_readyPods env adapter pods
  have hperm' := @candidates_perm_readyPods env' adapter pods
  have hcut : ∀ pod ∈ candidates env adapter pods,
      numPods adapter.replicas (readyPods adapter pods).length ≤ below podName (candidates env adapter pods) pod ∨
        upTo podName (candidates env adapter pods) pod ≤ numPods adapter.replicas (readyPods adapter pods).length := by
    intro pod hpod
    rw [below_perm hperm, upTo_perm hperm]
    exact noTie_iff.mp h pod (hperm.mem_iff.mp hpod)
  rw [placementsBy, placementsBy, hperm.length_eq, hperm'.length_eq, List.mem_map, List.mem_map]
  refine exists_congr (fun entry => and_congr_left (fun _ => ?_))
  exact lib.mem_take_iff lib (hperm.trans hperm'.symm) hcut entry

theorem mem_placement_iff_of_all (env' : Env)
    (h : numPods adapter.replicas (candidates env adapter pods).length = (candidates env adapter pods).length)
    (pod : NamespacedName) : pod ∈ placement env adapter pods ↔ pod ∈ placement env' adapter pods := by
  rw [candidates_perm_readyPods.length_eq] at h
  refine @mem_placementsBy_iff (stable podName) env adapter pods (noTie_iff.mpr (fun other _ => .inr ?_)) env' pod
  rw [h]
  exact List.countP_le_length

def leading (pod : NamespacedName) (pods : List (NamespacedName × Pod)) : List (NamespacedName × Pod) :=
  pods.filter (fun p => p.1 = pod) ++ pods.filter (fun p => !(p.1 = pod))

def trailing (pod : NamespacedName) (pods : List (NamespacedName × Pod)) : List (NamespacedName × Pod) :=
  pods.filter (fun p => !(p.1 = pod)) ++ pods.filter (fun p => p.1 = pod)

theorem leading_perm (pod : NamespacedName) (pods : List (NamespacedName × Pod)) : (leading pod pods).Perm pods :=
  List.filter_append_perm _ pods

theorem trailing_perm (pod : NamespacedName) (pods : List (NamespacedName × Pod)) : (trailing pod pods).Perm pods :=
  List.perm_append_comm.trans (leading_perm pod pods)

theorem leading_filter (pod : NamespacedName) (p : NamespacedName × Pod → Bool) (pods : List (NamespacedName × Pod)) :
    (leading pod pods).filter p = leading pod (pods.filter p) := by
  rw [leading, leading, List.filter_append, List.filter_comm, List.filter_comm p (fun p => !(p.1 = pod))]

theorem trailing_filter (pod : NamespacedName) (p : NamespacedName × Pod → Bool) (pods : List (NamespacedName × Pod)) :
    (trailing pod pods).filter p = trailing pod (pods.filter p) := by
  rw [trailing, trailing, List.filter_append, List.filter_comm, List.filter_comm p (fun p => p.1 = pod)]

def leadingEnv (pod : NamespacedName) : Env :=
  { calmEnv with listOrder := fun _ pods => leading pod pods, listOrder_perm := fun _ pods => leading_perm pod pods }

def trailingEnv (pod : NamespacedName) : Env :=
  { calmEnv with listOrder := fun _ pods => trailing pod pods, listOrder_perm := fun _ pods => trailing_perm pod pods }

def others (adapter : LoraAdapter) (pods : Dict NamespacedName Pod) (pod : NamespacedName) : List (NamespacedName × Pod) :=
  (readyPods adapter pods).filter (fun p => !(p.1 = pod))

theorem readyPods_filter_key {pod : NamespacedName × Pod} (h : pod ∈ readyPods adapter pods) :
    (readyPods adapter pods).filter (fun p => p.1 = pod.1) = [pod] := by
  simp only [readyPods, List.mem_filter] at h
  have hget : pods.get? pod.1 = some pod.2 := pods.get?_of_mem h.1.1
  rw [readyPods, List.filter_comm, List.filter_comm _ _ pods.entries, pods.entries_filter_key, hget]
  simp [h.1.2, h.2]

theorem candidates_leading {pod : NamespacedName × Pod} (h : pod ∈ readyPods adapter pods) :
    candidates (leadingEnv pod.1) adapter pods = pod :: others adapter pods pod.1 := by
  have hmoved : candidates (leadingEnv pod.1) adapter pods = leading pod.1 (readyPods adapter pods) :=
    (congrArg (List.filter _) (leading_filter _ _ _)).trans (leading_filter _ _ _)
  rw [hmoved, leading, readyPods_filter_key h]
  rfl

theorem candidates_trailing {pod : NamespacedName × Pod} (h : pod ∈ readyPods adapter pods) :
    candidates (trailingEnv pod.1) adapter pods = others adapter pods pod.1 ++ [pod] := by
  have hmoved : candidates (trailingEnv pod.1) adapter pods = trailing pod.1 (readyPods adapter pods) :=
    (congrArg (List.filter _) (trailing_filter _ _ _)).trans (trailing_filter _ _ _)
  rw [hmoved, trailing, readyPods_filter_key h]
  rfl

/-- A pod whose name the cut goes through is taken when it is listed first, and not when it is listed last. -/
theorem tie_split {pod : NamespacedName × Pod} (hpod : pod ∈ readyPods adapter pods)
    (hbelow : below podName (readyPods adapter pods) pod < numPods adapter.replicas (readyPods adapter pods).length)
    (hupTo : numPods adapter.replicas (readyPods adapter pods).length < upTo podName (readyPods adapter pods) pod) :
    pod.1 ∈ placement (leadingEnv pod.1) adapter pods ∧ pod.1 ∉ placement (trailingEnv pod.1) adapter pods := by
  have hleading := @candidates_perm_readyPods (leadingEnv pod.1) adapter pods
  have htrailing := @candidates_perm_readyPods (trailingEnv pod.1) adapter pods
  have hperm : (readyPods adapter pods).Perm (pod :: others adapter pods pod.1) := by
    rw [← candidates_leading hpod]
    exact hleading.symm
  have hfirst : below podName (others adapter pods pod.1) pod = below podName (readyPods adapter pods) pod := by
    rw [below_perm hperm, below_cons_self]
  have hlast : upTo podName (others adapter pods pod.1) pod + 1 = upTo podName (readyPods adapter pods) pod := by
    rw [upTo_perm hperm, upTo_cons_self]
  have hnodup : (pod :: others adapter pods pod.1).Nodup :=
    hperm.nodup_iff.mp (List.Nodup.of_map Prod.fst readyPods_names_nodup)
  rw [List.nodup_cons] at hnodup
  constructor
  · rw [placement, ← placementsBy_stable, placementsBy, hleading.length_eq, candidates_leading hpod]
    exact List.mem_map_of_mem (stable_mem_take_of_first (by omega))
  · rw [placement, ← placementsBy_stable, placementsBy, htrailing.length_eq]
    intro hmem
    obtain ⟨other, hother, hname⟩ := List.mem_map.mp hmem
    have hready : other ∈ readyPods adapter pods :=
      htrailing.mem_iff.mp (((stable podName).perm _).mem_iff.mp (List.mem_of_mem_take hother))
    cases List.inj_on_of_nodup_map readyPods_names_nodup hready hpod hname
    rw [candidates_trailing hpod] at hother
    exact stable_not_mem_take_of_last hnodup.2 hnodup.1 (by omega) hother

/-- The order of the list does not matter exactly when the number of replicas does not cut through ready pods of one
name. -/
theorem placement_order_irrelevant_iff (adapter : LoraAdapter) (pods : Dict NamespacedName Pod) :
    OrderIrrelevant adapter pods ↔ NoTie adapter pods := by
  constructor
  · intro h
    rw [noTie_iff]
    intro pod hpod
    by_contra hcut
    rw [not_or, not_le, not_le] at hcut
    obtain ⟨hfirst, hlast⟩ := tie_split hpod hcut.1 hcut.2
    let s : State := { pods := pods, engines := fun _ => ⟨"", .empty⟩, secrets := .empty, adapter := none }
    have hsame := h (stable podName) (leadingEnv pod.1) (trailingEnv pod.1) s s rfl rfl _ _
      (getOptimalPlacementBy_eq_ok.mpr ⟨rfl, rfl⟩) (getOptimalPlacementBy_eq_ok.mpr ⟨rfl, rfl⟩)
    exact hlast ((hsame.1 pod.1).mp hfirst)
  · rintro h lib env env' s s' rfl hpods desired desired' hdesired hdesired'
    obtain ⟨-, rfl⟩ := getOptimalPlacementBy_eq_ok.mp hdesired
    obtain ⟨-, rfl⟩ := getOptimalPlacementBy_eq_ok.mp hdesired'
    rw [hpods]
    have hsame := @mem_placementsBy_iff lib env adapter s.pods h env'
    refine ⟨hsame, ?_⟩
    intro current hcurrent
    refine (compareStates_eq_false_iff_same (hcurrent.nodup_iff.mpr placementsBy_nodup) placementsBy_nodup).mpr ?_
    intro pod
    rw [hcurrent.mem_iff, hsame pod]

end Placement

section Tie

theorem staging_noSlash : '/' ∉ "staging".toList := by decide

def stagingPod : NamespacedName := ⟨"staging", "vllm-0", staging_noSlash⟩

def tiedPods : Dict NamespacedName Pod := .ofList [(vllmPod, llamaPod "True"), (stagingPod, llamaPod "True")]

/-- Of two ready pods of one name, the one that is listed first gets the only replica. -/
theorem placement_moved_by_order :
    placement calmEnv (sqlAdapter none (some 1)) tiedPods = [vllmPod] ∧
      placement (leadingEnv stagingPod) (sqlAdapter none (some 1)) tiedPods = [stagingPod] ∧
      compareStates [sqlOn vllmPod] [stagingPod] = true ∧ ¬ OrderIrrelevant (sqlAdapter none (some 1)) tiedPods := by
  have hfirst : placement calmEnv (sqlAdapter none (some 1)) tiedPods = [vllmPod] := by decide
  have hsecond : placement (leadingEnv stagingPod) (sqlAdapter none (some 1)) tiedPods = [stagingPod] := by decide
  refine ⟨hfirst, hsecond, by decide, ?_⟩
  intro h
  let s : State := { pods := tiedPods, engines := fun _ => ⟨"", .empty⟩, secrets := .empty, adapter := none }
  have hsame := h (stable podName) calmEnv (leadingEnv stagingPod) s s rfl rfl _ _
    (getOptimalPlacementBy_eq_ok.mpr ⟨rfl, hfirst⟩) (getOptimalPlacementBy_eq_ok.mpr ⟨rfl, hsecond⟩)
  exact absurd ((hsame.1 vllmPod).mp List.mem_cons_self) (by decide)

end Tie

end ProductionStack.LoraAdapterController
