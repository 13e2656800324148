import ProductionStack.LoraFrame

namespace ProductionStack.LoraAdapterController

open Command

inductive Action
  | load (loraName : String) (pod : NamespacedName)
  | unload (loraName : String) (pod : NamespacedName)
  deriving DecidableEq

def action (pod : NamespacedName) : Request → Option Action
  | .load loraName _ => some (.load loraName pod)
  | .unload loraName => some (.unload loraName pod)
  | _ => none

/-- The actions have been asked for in this order, and of all other requests only the allowed ones have been made. -/
structure Did (allowed : NamespacedName → Request → Prop) (done : List Action) (s s' : State) : Prop where
  frame : Frame s s'
  sent : ∃ new, s'.sent = s.sent ++ new ∧ new.filterMap (fun x => action x.pod x.request) = done ∧
    ∀ x ∈ new, action x.pod x.request = none → allowed x.pod x.request

section Doing

variable {allowed : NamespacedName → Request → Prop} {done done' : List Action} {s s' s'' : State}

theorem Did.refl (s : State) : Did allowed [] s s := ⟨Frame.refl s, [], (List.append_nil _).symm, rfl, by simp⟩

theorem Did.trans (h : Did allowed done s s') (h' : Did allowed done' s' s'') : Did allowed (done ++ done') s s'' := by
  obtain ⟨new, hnew, hdone, hallowed⟩ := h.sent
  obtain ⟨new', hnew', hdone', hallowed'⟩ := h'.sent
  refine ⟨h.frame.trans h'.frame, new ++ new', by rw [hnew', hnew, List.append_assoc], ?_, ?_⟩
  · rw [List.filterMap_append, hdone, hdone']
  · intro x hx
    rcases List.mem_append.mp hx with hx | hx
    · exact hallowed x hx
    · exact hallowed' x hx

theorem Did.mono {allowed' : NamespacedName → Request → Prop} (h : Did allowed done s s')
    (hmono : ∀ pod request, allowed pod request → allowed' pod request) : Did allowed' done s s' := by
  obtain ⟨new, hnew, hdone, hallowed⟩ := h.sent
  exact ⟨h.frame, new, hnew, hdone, fun x hx hnone => hmono _ _ (hallowed x hx hnone)⟩

theorem Did.written (h : Did allowed done s s') (object : Option LoraAdapter) :
    Did allowed done s { s' with adapter := object } :=
  ⟨⟨h.frame.pods, h.frame.secrets, h.frame.sent⟩, h.sent⟩

theorem Exchanged.did {pod : NamespacedName} {request : Request} {engine : Engine} (h : Exchanged s s' pod request engine)
    (hallowed : action pod request = none → allowed pod request) : Did allowed (action pod request).toList s s' := by
  have hframe := h.frame
  obtain ⟨endpoint, authorization, rfl⟩ := h
  refine ⟨hframe, _, rfl, ?_, ?_⟩
  · cases haction : action pod request <;> simp [haction]
  · intro x hx
    cases List.mem_singleton.mp hx
    exact hallowed

variable {env : Env}

theorem requestAndTrigger_did {pod : NamespacedName} (purpose : Purpose) (path : String) {request : Request}
    (adapter : LoraAdapter) (hallowed : action pod request = none → allowed pod request) (s : State) :
    wp (do
        let endpoint ← getPodEndpoint env pod purpose path none
        let _ ← sendRequest env pod purpose endpoint request adapter
        triggerPodEvent env pod purpose)
      (fun _ s' => Did allowed (action pod request).toList s s')
      (fun _ s' => ∃ done, done <+: (action pod request).toList ∧ Did allowed done s s') s := by
  refine wp_mono (requestAndTrigger_exchanged pod purpose path request adapter)
    (fun _ _ hexchanged => hexchanged.did hallowed) ?_
  rintro e s' (rfl | hexchanged)
  · exact ⟨[], List.nil_prefix, Did.refl _⟩
  · exact ⟨_, List.prefix_refl _, hexchanged.did hallowed⟩

theorem loadAdapter_did (pod : NamespacedName) (path : String) (adapter : LoraAdapter) (s : State) :
    wp (loadAdapter env pod path adapter)
      (fun _ s' => Did (fun _ _ => False) [.load adapter.adapterSource.adapterName pod] s s')
      (fun _ s' => ∃ done, done <+: [.load adapter.adapterSource.adapterName pod] ∧ Did (fun _ _ => False) done s s') s :=
  requestAndTrigger_did .load _ adapter (fun hnone => by cases hnone) s

theorem unloadAdapter_did (pod : NamespacedName) (adapter : LoraAdapter) (s : State) :
    wp (unloadAdapter env pod adapter)
      (fun _ s' => Did (fun _ _ => False) [.unload adapter.adapterSource.adapterName pod] s s')
      (fun _ s' => ∃ done, done <+: [.unload adapter.adapterSource.adapterName pod] ∧ Did (fun _ _ => False) done s s') s :=
  requestAndTrigger_did .unload _ adapter (fun hnone => by cases hnone) s

def Fetches (adapter : LoraAdapter) (pods : List NamespacedName) (pod : NamespacedName) (request : Request) : Prop :=
  adapter.adapterSource.adapterPath = "" ∧ pod ∈ pods ∧
    ∃ repository token localDir, request = .download repository token localDir

theorem downloadHuggingFaceAdapter_did {adapter : LoraAdapter} (hpath : adapter.adapterSource.adapterPath = "")
    (pod : NamespacedName) (s : State) :
    wp (downloadHuggingFaceAdapter env adapter pod)
      (fun a s' => a.adapterSource.adapterName = adapter.adapterSource.adapterName ∧ Did (Fetches adapter [pod]) [] s s')
      (fun _ s' => Did (Fetches adapter [pod]) [] s s') s := by
  refine downloadHuggingFaceAdapter_keeps (Did.refl s) ?_ (fun _ _ _ hdid => hdid.written _)
  intro repository token localDir s' hexchanged
  exact hexchanged.did (fun _ => ⟨hpath, List.mem_singleton_self pod, repository, token, localDir, rfl⟩)

theorem discoverAdapter_did (adapter : LoraAdapter) (pod : NamespacedName) (s : State) :
    wp (discoverAdapter env adapter pod)
      (fun a s' => a.adapterSource.adapterName = adapter.adapterSource.adapterName ∧
        (a.adapterSource.adapterPath = "" → adapter.adapterSource.adapterPath = "") ∧ Did (Fetches adapter [pod]) [] s s')
      (fun _ s' => Did (Fetches adapter [pod]) [] s s') s := by
  rw [discoverAdapter]
  split
  · exact ⟨rfl, fun hempty => hempty, Did.refl s⟩
  next hpath =>
    have hempty : adapter.adapterSource.adapterPath = "" := not_not.mp hpath
    cases adapter.adapterSource.type with
    | huggingface =>
      refine wp_mono (downloadHuggingFaceAdapter_did hempty pod s) ?_ (fun _ _ hdid => hdid)
      rintro a s' ⟨hname, hdid⟩
      exact ⟨hname, fun _ => hempty, hdid⟩
    | _ => exact Did.refl s

end Doing

section Loads

variable (env : Env) (name : String) (s s' : State) (pod : NamespacedName)

def Loads : Prop :=
  ∃ path a t t', a.adapterSource.adapterName = name ∧ Frame s t ∧ loadAdapter env pod path a t = (.ok (), t') ∧ Frame t' s'

/-- The run ended with a call that did not find the adapter for the pod or did not load it. -/
def LoadFails : Prop :=
  ∃ a t e, a.adapterSource.adapterName = name ∧ Frame s t ∧
    (discoverAdapter env a pod t = (.error e, s') ∨ ∃ path, loadAdapter env pod path a t = (.error e, s'))

/-- The run ended with a call that did not unload it. -/
def UnloadFails : Prop :=
  ∃ a t e, a.adapterSource.adapterName = name ∧ Frame s t ∧ unloadAdapter env pod a t = (.error e, s')

variable {env name s s' pod}

theorem Loads.frame {s₀ s₁ : State} (h : Loads env name s s' pod) (hbefore : Frame s₀ s) (hafter : Frame s' s₁) :
    Loads env name s₀ s₁ pod := by
  obtain ⟨path, a, t, t', hname, ht, hload, ht'⟩ := h
  exact ⟨path, a, t, t', hname, hbefore.trans ht, hload, ht'.trans hafter⟩

theorem LoadFails.frame {s₀ : State} (h : LoadFails env name s s' pod) (hbefore : Frame s₀ s) :
    LoadFails env name s₀ s' pod := by
  obtain ⟨a, t, e, hname, ht, hfails⟩ := h
  exact ⟨a, t, e, hname, hbefore.trans ht, hfails⟩

structure Through (env : Env) (adapter : LoraAdapter) (pods : List NamespacedName) (s s' : State) : Prop where
  did : Did (Fetches adapter pods) (pods.map (.load adapter.adapterSource.adapterName)) s s'
  each : ∀ pod ∈ pods, Loads env adapter.adapterSource.adapterName s s' pod

structure Stuck (env : Env) (adapter : LoraAdapter) (pods : List NamespacedName) (s s' : State) : Prop where
  did : ∃ done, done <+: pods.map (.load adapter.adapterSource.adapterName) ∧ Did (Fetches adapter pods) done s s'
  failed : ∃ pod ∈ pods, LoadFails env adapter.adapterSource.adapterName s s' pod

variable {adapter found : LoraAdapter} {pods : List NamespacedName} {s₁ s₂ s₃ : State}

theorem fetches_cons_of_rest (hpath : found.adapterSource.adapterPath = "" → adapter.adapterSource.adapterPath = "")
    (other : NamespacedName) (request : Request) (h : Fetches found pods other request) :
    Fetches adapter (pod :: pods) other request :=
  ⟨hpath h.1, .tail _ h.2.1, h.2.2⟩

theorem fetches_cons_of_head (other : NamespacedName) (request : Request) (h : Fetches adapter [pod] other request) :
    Fetches adapter (pod :: pods) other request :=
  ⟨h.1, List.mem_cons.mpr (.inl (List.mem_singleton.mp h.2.1)), h.2.2⟩

theorem Through.cons (hname : found.adapterSource.adapterName = adapter.adapterSource.adapterName)
    (hpath : found.adapterSource.adapterPath = "" → adapter.adapterSource.adapterPath = "")
    (hfirst : Did (Fetches adapter (pod :: pods)) [.load adapter.adapterSource.adapterName pod] s s₂)
    (hload : Loads env adapter.adapterSource.adapterName s s₂ pod) (hrest : Through env found pods s₂ s₃) :
    Through env adapter (pod :: pods) s s₃ := by
  have hdid := hrest.did.mono (@fetches_cons_of_rest pod _ _ pods hpath)
  have heach := hrest.each
  rw [hname] at hdid heach
  refine ⟨hfirst.trans hdid, ?_⟩
  intro other hother
  rcases List.mem_cons.mp hother with rfl | hother
  · exact hload.frame (Frame.refl s) hdid.frame
  · exact (heach other hother).frame hfirst.frame (Frame.refl s₃)

theorem Stuck.cons (hname : found.adapterSource.adapterName = adapter.adapterSource.adapterName)
    (hpath : found.adapterSource.adapterPath = "" → adapter.adapterSource.adapterPath = "")
    (hfirst : Did (Fetches adapter (pod :: pods)) [.load adapter.adapterSource.adapterName pod] s s₂)
    (hrest : Stuck env found pods s₂ s₃) : Stuck env adapter (pod :: pods) s s₃ := by
  obtain ⟨⟨done, hinitial, hdid⟩, other, hother, hfails⟩ := hrest
  rw [hname] at hinitial hfails
  exact ⟨⟨_ :: done, List.cons_prefix_cons.mpr ⟨rfl, hinitial⟩, hfirst.trans (hdid.mono (fetches_cons_of_rest hpath))⟩,
    other, .tail _ hother, hfails.frame hfirst.frame⟩

theorem loadMissing_did (adapter : LoraAdapter) (currentMap : Dict String LoadedAdapter) (pods : List NamespacedName)
    (s : State) :
    wp (loadMissing env adapter currentMap pods)
      (fun a s' => a.adapterSource.adapterName = adapter.adapterSource.adapterName ∧
        Through env adapter (pods.filter (fun pod => !currentMap.contains (key pod))) s s')
      (fun _ s' => Stuck env adapter (pods.filter (fun pod => !currentMap.contains (key pod))) s s') s := by
  induction pods generalizing adapter s with
  | nil => exact ⟨rfl, Did.refl s, by simp⟩
  | cons pod pods ih =>
    rw [loadMissing]
    split
    next hpresent =>
      rw [List.filter_cons_of_neg (by simp [hpresent])]
      exact ih adapter s
    next habsent =>
      rw [List.filter_cons_of_pos (by simpa using habsent), wp_bind, wp_mapError]
      refine wp_mono (wp_run (discoverAdapter_did adapter pod s)) ?_ ?_
      · rintro found s₁ ⟨-, hname, hpath, hfetched⟩
        have hfetched := hfetched.mono
          (@fetches_cons_of_head pod adapter (pods.filter (fun pod => !currentMap.contains (key pod))))
        rw [wp_bind, wp_mapError]
        refine wp_mono (wp_run (loadAdapter_did pod found.adapterSource.adapterPath found s₁)) ?_ ?_
        · rintro _ s₂ ⟨hrun, hloaded⟩
          have hfirst := hfetched.trans (hloaded.mono (fun _ _ hnone => hnone.elim))
          rw [List.nil_append, hname] at hfirst
          have hload : Loads env adapter.adapterSource.adapterName s s₂ pod :=
            ⟨_, found, s₁, s₂, hname, hfetched.frame, hrun, Frame.refl s₂⟩
          refine wp_mono (ih found s₂) ?_ (fun _ _ hstuck => hstuck.cons hname hpath hfirst)
          rintro a s₃ ⟨hname', hthrough⟩
          exact ⟨hname'.trans hname, hthrough.cons hname hpath hfirst hload⟩
        · rintro e s₂ ⟨hrun, done, hinitial, hdid⟩
          rw [hname] at hinitial
          exact ⟨⟨done, hinitial.trans (List.cons_prefix_cons.mpr ⟨rfl, List.nil_prefix⟩),
              hfetched.trans (hdid.mono (fun _ _ hnone => hnone.elim))⟩,
            pod, List.mem_cons_self, found, s₁, e, hname, hfetched.frame, .inr ⟨_, hrun⟩⟩
      · rintro e s₁ ⟨hrun, hfetched⟩
        exact ⟨⟨[], List.nil_prefix, hfetched.mono fetches_cons_of_head⟩,
          pod, List.mem_cons_self, adapter, s, e, rfl, Frame.refl s, .inl hrun⟩

end Loads

section Difference

def missing (current : List LoadedAdapter) (desired : List NamespacedName) : List NamespacedName :=
  desired.filter (fun pod => pod ∉ current.map (·.podAssignments))

def surplus (current : List LoadedAdapter) (desired : List NamespacedName) : List NamespacedName :=
  (current.map (·.podAssignments)).filter (fun pod => pod ∉ desired)

variable {env : Env} {adapter : LoraAdapter} {name : String} {s s' : State}

/-- No other request but the unloads of these pods has been made. -/
def Unloads (name : String) (pods : List NamespacedName) (s s' : State) : Prop :=
  Did (fun _ _ => False) (pods.map (.unload name)) s s'

theorem forEach_unload_did (hname : adapter.adapterSource.adapterName = name) (p : LoadedAdapter → Prop) [DecidablePred p]
    (regs : List LoadedAdapter) (s : State) :
    wp (forEach (fun reg => if p reg then unload env adapter reg else pure ()) regs)
      (fun _ s' => Unloads name ((regs.filter p).map (·.podAssignments)) s s')
      (fun _ s' => ∃ done, done <+: (regs.filter p).map (·.podAssignments) ∧ Unloads name done s s' ∧
        ∃ pod ∈ (regs.filter p).map (·.podAssignments), UnloadFails env name s s' pod) s := by
  refine wp_forEach (fun done s' => Unloads name ((done.filter p).map (·.podAssignments)) s s') regs ?_ (Did.refl s)
  intro done reg rest s' hregs hdone
  split
  next hp =>
    have hall : (regs.filter p).map (·.podAssignments) =
        (done.filter p).map (·.podAssignments) ++ reg.podAssignments :: (rest.filter p).map (·.podAssignments) := by
      rw [hregs, List.filter_append, List.filter_cons_of_pos (by simpa using hp), List.map_append, List.map_cons]
    rw [unload, wp_mapError]
    refine wp_mono (wp_run (unloadAdapter_did reg.podAssignments adapter s')) ?_ ?_
    · rintro _ s'' ⟨-, hdid⟩
      rw [hname] at hdid
      rw [Unloads, List.filter_append, List.filter_cons_of_pos (by simpa using hp), List.map_append, List.map_append]
      exact hdone.trans hdid
    · rintro e s'' ⟨hrun, asked, hinitial, hdid⟩
      rw [hname] at hinitial
      have hfails : UnloadFails env name s s'' reg.podAssignments := ⟨adapter, s', e, hname, hdone.frame, hrun⟩
      have hmem : reg.podAssignments ∈ (regs.filter p).map (·.podAssignments) := by simp [hall]
      rcases List.prefix_cons_iff.mp hinitial with rfl | ⟨rest', rfl, hrest'⟩
      · refine ⟨_, hall ▸ List.prefix_append _ _, ?_, reg.podAssignments, hmem, hfails⟩
        simpa [Unloads] using hdone.trans hdid
      · cases List.prefix_nil.mp hrest'
        refine ⟨(done.filter p).map (·.podAssignments) ++ [reg.podAssignments], ?_, ?_, reg.podAssignments, hmem, hfails⟩
        · rw [hall]
          exact (List.prefix_append_right_inj _).mpr (List.cons_prefix_cons.mpr ⟨rfl, List.nil_prefix⟩)
        · rw [Unloads, List.map_append]
          exact hdone.trans hdid
  next hp =>
    rw [wp_pure, Unloads, List.filter_append, List.filter_cons_of_neg (by simpa using hp), List.filter_nil, List.append_nil]
    exact hdone

variable {current : List LoadedAdapter} {desired : List NamespacedName}

/-- It loads what is missing and then unloads what is surplus, in some order. When it fails, it stopped among the loads, or
all of them had succeeded and it stopped among the unloads. -/
def Performs (env : Env) (adapter : LoraAdapter) (current : List LoadedAdapter) (desired : List NamespacedName)
    (s : State) : Prop :=
  wp (reconcileToDesiredState env adapter current desired)
    (fun _ s' => ∃ loaded order, Through env adapter (missing current desired) s loaded ∧
      order.Perm (surplus current desired) ∧ Unloads adapter.adapterSource.adapterName order loaded s')
    (fun _ s' => Stuck env adapter (missing current desired) s s' ∨
      ∃ loaded order done, Through env adapter (missing current desired) s loaded ∧
        order.Perm (surplus current desired) ∧ done <+: order ∧ Unloads adapter.adapterSource.adapterName done loaded s' ∧
        ∃ pod ∈ surplus current desired, UnloadFails env adapter.adapterSource.adapterName loaded s' pod) s

section Listed

variable (hnames : ∀ reg ∈ current, reg.name = adapter.adapterSource.adapterName)
  (hcurrent : (current.map (·.podAssignments)).Nodup)

theorem surplus_perm (desired : List NamespacedName) :
    (((env.mapOrder current).filter (fun reg => key reg.podAssignments ∉ desired.map key)).map (·.podAssignments)).Perm
      (surplus current desired) := by
  have hkeys : ∀ pod, key pod ∈ desired.map key ↔ pod ∈ desired := fun pod => List.mem_map_of_injective key_injective
  rw [surplus, List.filter_map]
  refine (((env.mapOrder_perm current).filter _).map _).trans (List.Perm.of_eq ?_)
  congr 1
  exact List.filter_congr (fun reg _ => by simp only [hkeys, Function.comp_apply])

include hnames hcurrent

theorem performs (s : State) : Performs env adapter current desired s := by
  have hmissing : desired.filter (fun pod => !(Dict.ofList
      ((current.filter (fun reg => reg.name = adapter.adapterSource.adapterName)).map
        (fun reg => (key reg.podAssignments, reg)))).contains (key pod)) = missing current desired := by
    refine List.filter_congr (fun pod _ => ?_)
    rw [Bool.eq_iff_iff, Bool.not_eq_true', ← Bool.not_eq_true, registrationMap_contains hnames hcurrent, decide_eq_true_iff]
  rw [Performs, reconcileToDesiredState, wp_bind]
  refine wp_mono (loadMissing_did adapter _ desired s) ?_ ?_
  · rintro a loaded ⟨hname, hthrough⟩
    rw [hmissing] at hthrough
    rw [registrationMap_values hnames hcurrent]
    refine wp_mono (forEach_unload_did hname _ _ loaded) ?_ ?_
    · intro _ s' hunloads
      exact ⟨loaded, _, hthrough, surplus_perm desired, hunloads⟩
    · rintro e s' ⟨done, hinitial, hunloads, pod, hpod, hfails⟩
      exact .inr ⟨loaded, _, done, hthrough, surplus_perm desired, hinitial, hunloads, pod,
        (surplus_perm desired).mem_iff.mp hpod, hfails⟩
  · intro e s' hstuck
    rw [hmissing] at hstuck
    exact .inl hstuck

/-- The comparison tells whether the pods are the same, and the reconciliation does what lies between them: each load and
each unload once, and every load before the first unload. It returns when every call succeeds. -/
theorem reconciliation_performs_difference (env : Env) (s : State) (hdesired : desired.Nodup) :
    (compareStates current desired = false ↔ ∀ pod, pod ∈ current.map (·.podAssignments) ↔ pod ∈ desired) ∧
      ((missing current desired).Nodup ∧ (surplus current desired).Nodup) ∧
      Performs env adapter current desired s ∧
      (CallsSucceed env adapter s → s.adapter = some adapter → adapter.deletionTimestamp = none →
        Current s adapter.adapterSource.adapterName current → (∀ pod ∈ desired, Served s pod) →
        discoverable s.secrets adapter = true → (reconcileToDesiredState env adapter current desired s).1 = .ok ()) := by
  refine ⟨compareStates_eq_false_iff_same hcurrent hdesired, ⟨hdesired.filter _, hcurrent.filter _⟩,
    performs hnames hcurrent s, ?_⟩
  intro h hobject hdeletion hregs hserved hfound
  rcases wp_cases (h.reconcileToDesiredState_spec hobject hdeletion hregs hdesired hserved) with
    ⟨_, hok, -⟩ | ⟨e, -, hnot, -⟩
  · exact hok
  · rw [hfound] at hnot
    cases hnot

end Listed

def sqlOn (pod : NamespacedName) : LoadedAdapter := ⟨"sql", "/adapters/sql", 0, pod, "Loaded"⟩

def spareState : State := loadedOn vllmPod (sqlAdapter none none)

theorem adapter_moved :
    compareStates [sqlOn vllmPod] [sparePod] = true ∧ missing [sqlOn vllmPod] [sparePod] = [sparePod] ∧
      surplus [sqlOn vllmPod] [sparePod] = [vllmPod] ∧
      Performs calmEnv (sqlAdapter none none) [sqlOn vllmPod] [sparePod] spareState ∧
      (reconcileToDesiredState calmEnv (sqlAdapter none none) [sqlOn vllmPod] [sparePod] spareState).1 = .ok () :=
  have hnames : ∀ reg ∈ [sqlOn vllmPod], reg.name = (sqlAdapter none none).adapterSource.adapterName := by decide
  ⟨by decide, by decide, by decide,
    (reconciliation_performs_difference hnames (by decide) calmEnv spareState (by decide)).2.2.1, rfl⟩

end Difference

end ProductionStack.LoraAdapterController
