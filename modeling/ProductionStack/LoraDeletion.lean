import ProductionStack.LoraCalls

namespace ProductionStack.LoraAdapterController

open Command

def HasFinalizer (s : State) : Prop :=
  ∃ adapter, s.adapter = some adapter ∧ loraAdapterFinalizer ∈ adapter.finalizers

def LoadedOn (s : State) (name : String) (pod : NamespacedName) : Prop :=
  s.pods.contains pod = true ∧ (s.engines pod).adapters.contains name = true

section Deletion

variable (env : Env) (adapter : LoraAdapter) (s : State)

/-- The finalizer goes only once no pod has the adapter, and stays with an error otherwise. -/
structure FinalizerSafe : Prop where
  cleaned : ¬ HasFinalizer (handleDeletion env adapter s).2 →
    ∀ pod, ¬ LoadedOn (handleDeletion env adapter s).2 adapter.adapterSource.adapterName pod
  failed : HasFinalizer (handleDeletion env adapter s).2 → ∃ e, (handleDeletion env adapter s).1 = .error e

/-- The pod has the model label, is ready, has an address, and answers with its list of models. -/
def Seen (pod : NamespacedName) : Prop :=
  ∃ object, s.pods.get? pod = some object ∧ object.labels.contains "model" = true ∧
    visible env 0 adapter s (pod, object) = true

def ApiReply.processed : ApiReply → Bool
  | .ok => true
  | .failed processed => processed
  | _ => false

/-- The pods are listed, every adapter that is seen is unloaded and the last write is made. -/
structure Released : Prop where
  listed : env.api (.listPods (.registrations 0)) = .ok
  unloaded : ∀ pod, Seen env adapter s pod → LoadedOn s adapter.adapterSource.adapterName pod →
    unloads env adapter s pod = true
  written : (env.api .removeFinalizer).processed = true

def unfinalized : LoraAdapter :=
  { adapter with finalizers := adapter.finalizers.filter (· ≠ loraAdapterFinalizer) }

structure Removed (s' : State) : Prop where
  object : s'.adapter = stored (unfinalized adapter)
  pods : s'.pods = s.pods
  cleared : ∀ pod, Seen env adapter s pod → LoadedOn s adapter.adapterSource.adapterName pod →
    (env.engine pod .unload).refuses = false →
    s'.engines pod = (s.engines pod).without adapter.adapterSource.adapterName
  kept : ∀ pod, (Seen env adapter s pod → LoadedOn s adapter.adapterSource.adapterName pod →
    (env.engine pod .unload).refuses = true) → s'.engines pod = s.engines pod

variable {env adapter s}

theorem mem_registrations_seen {reg : LoadedAdapter} (h : reg ∈ registrations env 0 adapter s) :
    Seen env adapter s reg.podAssignments ∧ LoadedOn s adapter.adapterSource.adapterName reg.podAssignments ∧
      reg.name = adapter.adapterSource.adapterName := by
  obtain ⟨object, path, hpod, hlabel, hvisible, hpath, hreg⟩ := mem_registrations.mp h
  refine ⟨⟨object, hpod, hlabel, hvisible⟩, ⟨?_, ?_⟩, ?_⟩
  · simp [Dict.contains, hpod]
  · simp [Dict.contains, hpath]
  · rw [hreg]
    rfl

theorem seen_registered {pod : NamespacedName} (hseen : Seen env adapter s pod)
    (hloaded : LoadedOn s adapter.adapterSource.adapterName pod) :
    ∃ reg ∈ registrations env 0 adapter s, reg.podAssignments = pod := by
  obtain ⟨object, hpod, hlabel, hvisible⟩ := hseen
  obtain ⟨path, hpath⟩ := Option.isSome_iff_exists.mp hloaded.2
  exact ⟨registration env adapter pod path,
    mem_registrations.mpr ⟨object, path, hpod, hlabel, hvisible, hpath, rfl⟩, rfl⟩

theorem update_spec (reply : ApiReply) (adapter : LoraAdapter) (s : State) :
    wp (update reply adapter)
      (fun _ s' => reply.processed = true ∧ s' = { s with adapter := stored adapter })
      (fun _ s' => (reply.processed = true ∧ s' = { s with adapter := stored adapter }) ∨
        (reply.processed = false ∧ s' = s)) s := by
  cases reply with
  | ok => exact ⟨rfl, rfl⟩
  | notFound => exact .inr ⟨rfl, rfl⟩
  | conflict => exact .inr ⟨rfl, rfl⟩
  | failed processed =>
    cases processed with
    | true => exact .inl ⟨rfl, rfl⟩
    | false => exact .inr ⟨rfl, rfl⟩

theorem removed_of_unloaded {s' s'' : State} (hlooked : Looked s s')
    (h : Unloaded env adapter (fun reg => reg.name = adapter.adapterSource.adapterName) s'
      (registrations env 0 adapter s) s'') :
    Removed env adapter s { s'' with adapter := stored (unfinalized adapter) } := by
  obtain ⟨sent, rfl, -⟩ := hlooked
  refine ⟨rfl, h.frame.pods, ?_, ?_⟩
  · intro pod hseen hloaded hrefuses
    obtain ⟨reg, hreg, rfl⟩ := seen_registered hseen hloaded
    exact h.cleared reg hreg (mem_registrations_seen hreg).2.2 hrefuses
  · intro pod hpod
    refine h.kept pod ?_
    rintro reg hreg - rfl
    obtain ⟨hseen, hloaded, -⟩ := mem_registrations_seen hreg
    exact hpod hseen hloaded

theorem handleDeletion_spec :
    wp (handleDeletion env adapter)
      (fun _ s' => Released env adapter s ∧ Removed env adapter s s')
      (fun _ s' => (Released env adapter s ∧ Removed env adapter s s') ∨
        (¬ Released env adapter s ∧ s'.adapter = s.adapter)) s := by
  rw [handleDeletion, wp_bind, wp_mapError]
  refine wp_mono (getAdapterRegistrations_spec 0 adapter s) ?_ ?_
  · rintro regs s' ⟨hlist, rfl, hlooked⟩
    have hengines : s'.engines = s.engines ∧ s'.adapter = s.adapter := by
      obtain ⟨sent, rfl, -⟩ := hlooked
      exact ⟨rfl, rfl⟩
    have hloaded : ∀ reg ∈ registrations env 0 adapter s,
        (s'.engines reg.podAssignments).adapters.contains adapter.adapterSource.adapterName = true := by
      intro reg hreg
      rw [hengines.1]
      exact (mem_registrations_seen hreg).2.1.2
    rw [wp_bind]
    refine wp_mono (forEach_unload_spec _ _ s' registrations_nodup hloaded) ?_ ?_
    · intro _ s'' hunloaded
      have hsucceeded : ∀ pod, Seen env adapter s pod → LoadedOn s adapter.adapterSource.adapterName pod →
          unloads env adapter s pod = true := by
        intro pod hseen hon
        obtain ⟨reg, hreg, rfl⟩ := seen_registered hseen hon
        rw [← unloads_congr hlooked.frame]
        exact hunloaded.succeeded reg hreg (mem_registrations_seen hreg).2.2
      have hremoved := removed_of_unloaded hlooked hunloaded
      rw [wp_mapError]
      refine wp_mono (update_spec (env.api .removeFinalizer) (unfinalized adapter) s'') ?_ ?_
      · rintro _ _ ⟨hwritten, rfl⟩
        exact ⟨⟨hlist, hsucceeded, hwritten⟩, hremoved⟩
      · rintro e _ (⟨hwritten, rfl⟩ | ⟨hwritten, rfl⟩)
        · exact .inl ⟨⟨hlist, hsucceeded, hwritten⟩, hremoved⟩
        · refine .inr ⟨?_, hunloaded.object.trans hengines.2⟩
          intro hreleased
          exact absurd (hwritten ▸ hreleased.written) Bool.false_ne_true
    · rintro e s'' ⟨-, hadapter, reg, hreg, -, hunloads⟩
      refine .inr ⟨?_, hadapter.trans hengines.2⟩
      intro hreleased
      obtain ⟨hseen, hon, -⟩ := mem_registrations_seen hreg
      have hshould := hreleased.unloaded _ hseen hon
      rw [unloads_congr hlooked.frame, hshould] at hunloads
      cases hunloads
  · rintro e s' ⟨hlist, rfl⟩
    exact .inr ⟨fun hreleased => hlist hreleased.listed, rfl⟩

theorem not_hasFinalizer_removed {s' : State} (h : Removed env adapter s s') : ¬ HasFinalizer s' := by
  rintro ⟨object, hobject, hfinalizer⟩
  rw [h.object, stored] at hobject
  split at hobject
  · cases hobject
  · cases hobject
    simp [unfinalized] at hfinalizer

theorem loadedOn_removed_iff {s' : State} (h : Removed env adapter s s') (pod : NamespacedName) :
    LoadedOn s' adapter.adapterSource.adapterName pod ↔ LoadedOn s adapter.adapterSource.adapterName pod ∧
      ¬ (Seen env adapter s pod ∧ (env.engine pod .unload).refuses = false) := by
  by_cases hgone : Seen env adapter s pod ∧ (env.engine pod .unload).refuses = false
  · constructor
    · rintro ⟨hpod, hloaded⟩
      by_cases hon : LoadedOn s adapter.adapterSource.adapterName pod
      · rw [h.cleared pod hgone.1 hon hgone.2] at hloaded
        simp [Engine.without, Dict.contains, Dict.get?_erase] at hloaded
      · rw [h.kept pod (fun _ hon' => absurd hon' hon)] at hloaded
        exact absurd ⟨h.pods ▸ hpod, hloaded⟩ hon
    · rintro ⟨-, hnot⟩
      exact absurd hgone hnot
  · have hkept : s'.engines pod = s.engines pod := by
      refine h.kept pod ?_
      intro hseen _
      by_contra hrefuses
      exact hgone ⟨hseen, by simpa using hrefuses⟩
    simp only [LoadedOn, h.pods, hkept, hgone, not_false_eq_true, and_true]

theorem handleDeletion_cases :
    (Released env adapter s ∧ Removed env adapter s (handleDeletion env adapter s).2) ∨
      (¬ Released env adapter s ∧ (handleDeletion env adapter s).2.adapter = s.adapter ∧
        ∃ e, (handleDeletion env adapter s).1 = .error e) := by
  rcases wp_cases (@handleDeletion_spec env adapter s) with ⟨_, -, hremoved⟩ | ⟨e, herror, hremoved | ⟨hreleased, hsame⟩⟩
  · exact .inl hremoved
  · exact .inl hremoved
  · exact .inr ⟨hreleased, hsame, e, herror⟩

theorem finalizer_released_iff (env : Env) (adapter : LoraAdapter) (s : State) (hadapter : s.adapter = some adapter)
    (hfinalizer : loraAdapterFinalizer ∈ adapter.finalizers) :
    FinalizerSafe env adapter s ↔
      (Released env adapter s → ∀ pod, LoadedOn s adapter.adapterSource.adapterName pod →
        Seen env adapter s pod ∧ (env.engine pod .unload).refuses = false) := by
  rcases @handleDeletion_cases env adapter s with ⟨hreleased, hremoved⟩ | ⟨hreleased, hsame, hfailed⟩
  · have hgone := not_hasFinalizer_removed hremoved
    constructor
    · intro hsafe _ pod hon
      by_contra hleft
      exact hsafe.cleaned hgone pod ((loadedOn_removed_iff hremoved pod).mpr ⟨hon, hleft⟩)
    · intro hseen
      refine ⟨?_, fun hhas => absurd hhas hgone⟩
      intro _ pod hon
      obtain ⟨hbefore, hleft⟩ := (loadedOn_removed_iff hremoved pod).mp hon
      exact hleft (hseen hreleased pod hbefore)
  · have hkept : HasFinalizer (handleDeletion env adapter s).2 := ⟨adapter, hsame.trans hadapter, hfinalizer⟩
    exact ⟨fun _ hreleased' => absurd hreleased' hreleased, fun _ => ⟨fun hno => absurd hkept hno, fun _ => hfailed⟩⟩

end Deletion

def calmEnv : Env where
  api := fun _ => .ok
  engine := fun _ _ => .answered
  downloadPath := fun _ => ""
  now := 0
  listOrder := fun _ pods => pods
  listOrder_perm := fun _ _ => List.Perm.refl _
  mapOrder := fun adapters => adapters
  mapOrder_perm := fun _ => List.Perm.refl _

def vllmPod : NamespacedName := ⟨"default", "vllm-0", default_noSlash⟩

def sparePod : NamespacedName := ⟨"default", "vllm-1", default_noSlash⟩

def llamaPod (ready : String) : Pod := ⟨.ofList [("model", "llama")], [⟨"Ready", ready⟩], "10.0.0.7", []⟩

def sqlAdapter (deletionTimestamp : Option Int) (replicas : Option Int) : LoraAdapter :=
  { namespaceName := "default"
    deletionTimestamp := deletionTimestamp
    finalizers := [loraAdapterFinalizer]
    adapterSource := { adapterName := "sql", adapterPath := "/adapters/sql", type := .local }
    baseModel := "llama"
    replicas := replicas }

def loadedState (ready : String) (adapter : LoraAdapter) : State :=
  { pods := .ofList [(vllmPod, llamaPod ready)]
    engines := fun _ => ⟨"llama", .ofList [("sql", "/adapters/sql")]⟩
    secrets := .empty
    adapter := some adapter }

def loadedOn (pod : NamespacedName) (adapter : LoraAdapter) : State :=
  { pods := .ofList [(vllmPod, llamaPod "True"), (sparePod, llamaPod "True")]
    engines := fun q => ⟨"llama", if q = pod then .ofList [("sql", "/adapters/sql")] else .empty⟩
    secrets := .empty
    adapter := some adapter }

theorem ready_pod_cleaned :
    FinalizerSafe calmEnv (sqlAdapter (some 1) none) (loadedState "True" (sqlAdapter (some 1) none)) := by
  refine (finalizer_released_iff calmEnv (sqlAdapter (some 1) none) _ rfl (by decide)).mpr ?_
  intro _ pod hon
  have hpod : pod = vllmPod := by
    by_contra hne
    have hnone : (loadedState "True" (sqlAdapter (some 1) none)).pods.get? pod = none := by
      change (Dict.set .empty vllmPod (llamaPod "True")).get? pod = none
      rw [Dict.get?_set_of_ne _ _ hne, Dict.get?_empty]
    simp [LoadedOn, Dict.contains, hnone] at hon
  subst hpod
  exact ⟨⟨llamaPod "True", rfl, rfl, rfl⟩, rfl⟩

/-- The pod that has the adapter is not ready and so is not asked; the object goes and the adapter stays. -/
theorem unready_pod_leaks :
    ¬ ∀ (env : Env) (adapter : LoraAdapter) (s : State), s.adapter = some adapter →
      loraAdapterFinalizer ∈ adapter.finalizers → FinalizerSafe env adapter s := by
  intro h
  have hsafe := h calmEnv (sqlAdapter (some 1) none) (loadedState "False" (sqlAdapter (some 1) none)) rfl (by decide)
  refine hsafe.cleaned ?_ vllmPod ⟨rfl, rfl⟩
  rintro ⟨adapter, hadapter, -⟩
  cases hadapter

end ProductionStack.LoraAdapterController
