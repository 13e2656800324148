import ProductionStack.LoraDeletion

namespace ProductionStack.LoraAdapterController

open Command

instance : IsTrans (NamespacedName × Pod) (fun p q => p.1.name ≤ q.1.name) := ⟨fun _ _ _ hpq hqr => le_trans hpq hqr⟩

instance : Std.Total (fun p q : NamespacedName × Pod => p.1.name ≤ q.1.name) := ⟨fun p q => le_total p.1.name q.1.name⟩

def Request.changes : Request → Bool
  | .load _ _ => true
  | .unload _ => true
  | _ => false

def ReadyLoaded (s : State) (name : String) (pod : NamespacedName) : Prop :=
  ∃ object, s.pods.get? pod = some object ∧ object.labels.contains "model" = true ∧ podReady object = true ∧
    (s.engines pod).adapters.contains name = true

section Placement

variable (env : Env) (adapter : LoraAdapter) (pods : Dict NamespacedName Pod)

def candidates : List (NamespacedName × Pod) :=
  ((env.listOrder .placement pods.entries).filter
    (fun pod => pod.2.labels.get? "model" = some adapter.baseModel)).filter (fun pod => podReady pod.2)

def placement : List NamespacedName := placements adapter.replicas (candidates env adapter pods)

variable {env adapter pods}

theorem candidates_perm (env' : Env) : (candidates env adapter pods).Perm (candidates env' adapter pods) :=
  (((env.listOrder_perm .placement pods.entries).trans
    (env'.listOrder_perm .placement pods.entries).symm).filter _).filter _

theorem mem_candidates {pod : NamespacedName × Pod} (h : pod ∈ candidates env adapter pods) :
    pods.get? pod.1 = some pod.2 ∧ pod.2.labels.contains "model" = true ∧ podReady pod.2 = true := by
  simp only [candidates, List.mem_filter, (env.listOrder_perm _ _).mem_iff, decide_eq_true_eq] at h
  exact ⟨pods.get?_of_mem h.1.1, by simp [Dict.contains, h.1.2], h.2⟩

theorem mem_placement {pod : NamespacedName} (h : pod ∈ placement env adapter pods) :
    ∃ object, pods.get? pod = some object ∧ object.labels.contains "model" = true ∧ podReady object = true := by
  rw [placement, placements] at h
  obtain ⟨entry, hentry, rfl⟩ := List.mem_map.mp h
  exact ⟨entry.2, mem_candidates (((List.perm_insertionSort _ _).mem_iff).mp (List.mem_of_mem_take hentry))⟩

theorem placement_nodup : (placement env adapter pods).Nodup := by
  have hentries : ((env.listOrder .placement pods.entries).map Prod.fst).Nodup :=
    ((env.listOrder_perm _ _).map Prod.fst).nodup_iff.mpr pods.nodup
  have hcandidates : ((candidates env adapter pods).map Prod.fst).Nodup :=
    hentries.sublist ((List.filter_sublist.trans List.filter_sublist).map Prod.fst)
  have hsorted := (((List.perm_insertionSort (fun p q : NamespacedName × Pod => p.1.name ≤ q.1.name)
    (candidates env adapter pods)).map Prod.fst).nodup_iff).mpr hcandidates
  exact hsorted.sublist ((List.take_sublist _ _).map Prod.fst)

theorem placement_length (env' : Env) : (placement env adapter pods).length = (placement env' adapter pods).length := by
  simp only [placement, placements, List.length_map, List.length_take, List.length_insertionSort,
    (candidates_perm env').length_eq]

theorem placement_eq_of_names (env' : Env)
    (h : ∀ p ∈ candidates env adapter pods, ∀ q ∈ candidates env adapter pods, p.1.name = q.1.name → p = q) :
    placement env adapter pods = placement env' adapter pods := by
  have hperm := @candidates_perm env adapter pods env'
  have hsort := List.perm_insertionSort (fun p q : NamespacedName × Pod => p.1.name ≤ q.1.name)
  have hsorted : (candidates env adapter pods).insertionSort (fun p q => p.1.name ≤ q.1.name) =
      (candidates env' adapter pods).insertionSort (fun p q => p.1.name ≤ q.1.name) := by
    apply List.Perm.eq_of_pairwise
    · intro p q hp hq hpq hqp
      exact h p ((hsort _).mem_iff.mp hp) q (hperm.mem_iff.mpr ((hsort _).mem_iff.mp hq)) (le_antisymm hpq hqp)
    · exact List.pairwise_insertionSort _ _
    · exact List.pairwise_insertionSort _ _
    · exact (hsort _).trans (hperm.trans (hsort _).symm)
  rw [placement, placements, hsorted, hperm.length_eq]
  rfl

end Placement

/-- The path is set or can be had by a download. -/
def discoverable (secrets : Dict (String × String) (Dict String String)) (adapter : LoraAdapter) : Bool :=
  adapter.adapterSource.adapterPath ≠ "" ||
    (adapter.adapterSource.type = .huggingface && adapter.adapterSource.repository.any (· ≠ "") &&
      adapter.adapterSource.credentialsSecretRef.any (fun ref =>
        (secrets.get? (adapter.namespaceName, ref.name)).any (·.contains ref.key)))

structure Kept (secrets : Dict (String × String) (Dict String String)) (a a' : LoraAdapter) : Prop where
  adapterName : a'.adapterSource.adapterName = a.adapterSource.adapterName
  baseModel : a'.baseModel = a.baseModel
  replicas : a'.replicas = a.replicas
  vllmApiKey : a'.vllmApiKey = a.vllmApiKey
  namespaceName : a'.namespaceName = a.namespaceName
  deletionTimestamp : a'.deletionTimestamp = a.deletionTimestamp
  finalizers : a'.finalizers = a.finalizers
  discoverable : discoverable secrets a' = discoverable secrets a

theorem Kept.refl (secrets : Dict (String × String) (Dict String String)) (a : LoraAdapter) : Kept secrets a a :=
  ⟨rfl, rfl, rfl, rfl, rfl, rfl, rfl, rfl⟩

theorem Kept.trans {secrets : Dict (String × String) (Dict String String)} {a b c : LoraAdapter}
    (h : Kept secrets a b) (h' : Kept secrets b c) : Kept secrets a c :=
  ⟨h'.adapterName.trans h.adapterName, h'.baseModel.trans h.baseModel, h'.replicas.trans h.replicas,
    h'.vllmApiKey.trans h.vllmApiKey, h'.namespaceName.trans h.namespaceName,
    h'.deletionTimestamp.trans h.deletionTimestamp, h'.finalizers.trans h.finalizers,
    h'.discoverable.trans h.discoverable⟩

theorem kept_status (secrets : Dict (String × String) (Dict String String)) (a : LoraAdapter) (status : Status) :
    Kept secrets a { a with status := status } :=
  ⟨rfl, rfl, rfl, rfl, rfl, rfl, rfl, rfl⟩

theorem placement_congr {secrets : Dict (String × String) (Dict String String)} {a a' : LoraAdapter} (h : Kept secrets a a')
    (env : Env) (pods : Dict NamespacedName Pod) : placement env a' pods = placement env a pods := by
  simp only [placement, candidates, h.baseModel, h.replicas]

/-- Every call to the API server and to an engine succeeds: one to an engine needs the address
of its pod and the key. -/
structure CallsSucceed (env : Env) (adapter : LoraAdapter) (s : State) : Prop where
  api : ∀ call, env.api call = .ok
  engine : ∀ pod purpose, env.engine pod purpose = .answered
  addressed : ∀ pod object, s.pods.get? pod = some object → object.labels.contains "model" = true →
    podReady object = true → object.podIP ≠ ""
  apiKey : ∀ pod purpose, apiKeyKnown env s.secrets pod purpose adapter = true

theorem calm_callsSucceed {adapter : LoraAdapter} {s : State} (hkey : adapter.vllmApiKey = none)
    (hpods : ∀ e ∈ s.pods.entries, e.2.podIP ≠ "") : CallsSucceed calmEnv adapter s where
  api := fun _ => rfl
  engine := fun _ _ => rfl
  addressed := fun _ _ hobject _ _ => hpods _ (Dict.mem_of_get? hobject)
  apiKey := fun pod purpose => by simp [apiKeyKnown, hkey]

theorem CallsSucceed.kept {env : Env} {a a' : LoraAdapter} {s s' : State} (h : CallsSucceed env a s)
    (hkept : Kept s.secrets a a') (hframe : Frame s s') : CallsSucceed env a' s' where
  api := h.api
  engine := h.engine
  addressed := hframe.pods ▸ h.addressed
  apiKey := by
    intro pod purpose
    have hkey := h.apiKey pod purpose
    simp only [apiKeyKnown, hkept.vllmApiKey, hkept.namespaceName, hframe.secrets] at hkey ⊢
    exact hkey

def Served (s : State) (pod : NamespacedName) : Prop :=
  ∃ object, s.pods.get? pod = some object ∧ object.labels.contains "model" = true ∧ podReady object = true

theorem Served.frame {s s' : State} {pod : NamespacedName} (h : Served s pod) (hframe : Frame s s') : Served s' pod := by
  rw [Served, hframe.pods]
  exact h

section Steps

variable {env : Env} {adapter : LoraAdapter} {s : State}

variable {pod : NamespacedName} {name : String} {regs : List LoadedAdapter} {desired : List NamespacedName}

theorem CallsSucceed.reachable (h : CallsSucceed env adapter s) (hpod : Served s pod)
    (purpose : Purpose) : reachable env s.pods pod purpose = true := by
  obtain ⟨object, hobject, hlabel, hready⟩ := hpod
  have hip := h.addressed pod object hobject hlabel hready
  simp [LoraAdapterController.reachable, h.api, hobject, hip]

theorem CallsSucceed.visible_iff (h : CallsSucceed env adapter s) (round : Nat) {object : Pod}
    (hobject : s.pods.get? pod = some object) (hlabel : object.labels.contains "model" = true) :
    visible env round adapter s (pod, object) = podReady object := by
  cases hready : podReady object with
  | false => simp [visible, hready]
  | true =>
    have hreach := h.reachable ⟨object, hobject, hlabel, hready⟩ (.models round)
    simp [visible, hready, hreach, h.apiKey, h.engine, EngineReply.lists]

theorem CallsSucceed.registered_iff (h : CallsSucceed env adapter s) (round : Nat) (pod : NamespacedName) :
    (∃ reg ∈ registrations env round adapter s, reg.podAssignments = pod) ↔
      ReadyLoaded s adapter.adapterSource.adapterName pod := by
  constructor
  · rintro ⟨reg, hreg, rfl⟩
    obtain ⟨object, path, hobject, hlabel, hvisible, hpath, -⟩ := mem_registrations.mp hreg
    rw [h.visible_iff round hobject hlabel] at hvisible
    exact ⟨object, hobject, hlabel, hvisible, by simp [Dict.contains, hpath]⟩
  · rintro ⟨object, hobject, hlabel, hready, hloaded⟩
    obtain ⟨path, hpath⟩ := Option.isSome_iff_exists.mp hloaded
    refine ⟨registration env adapter pod path, ?_, rfl⟩
    exact mem_registrations.mpr
      ⟨object, path, hobject, hlabel, (h.visible_iff round hobject hlabel).trans hready, hpath, rfl⟩

theorem CallsSucceed.sendRequest_spec (h : CallsSucceed env adapter s) (pod : NamespacedName) (purpose : Purpose)
    (endpoint : String) {request : Request} {body : Option Payload}
    (haccept : accept (respond env pod (s.engines pod) request).1 = .ok body) :
    wp (sendRequest env pod purpose endpoint request adapter)
      (fun body' s' => body' = body ∧ Exchanged s s' pod request (respond env pod (s.engines pod) request).2)
      (fun _ _ => False) s := by
  have houtcome : outcome env pod purpose request (s.engines pod) =
      (.ok body, (respond env pod (s.engines pod) request).2) := by
    rw [outcome, h.engine]
    exact congrArg (·, (respond env pod (s.engines pod) request).2) haccept
  refine wp_mono (LoraAdapterController.sendRequest_spec pod purpose endpoint request adapter s) ?_ ?_
  · rintro body' s' ⟨-, hbody, hexchanged⟩
    rw [houtcome] at hbody hexchanged
    exact ⟨(Except.ok.inj hbody).symm, hexchanged⟩
  · rintro e s' (⟨hkey, -⟩ | ⟨-, herror, -⟩)
    · rw [h.apiKey] at hkey
      cases hkey
    · rw [houtcome] at herror
      cases herror

theorem CallsSucceed.getPodEndpoint_spec (h : CallsSucceed env adapter s) (hpod : Served s pod)
    (purpose : Purpose) (path : String) (port : Option Nat) :
    wp (getPodEndpoint env pod purpose path port) (fun _ s' => s' = s) (fun _ _ => False) s := by
  refine wp_mono (LoraAdapterController.getPodEndpoint_spec pod purpose path port s) (fun _ _ hs => hs.2) ?_
  rintro e s' ⟨hreach, -⟩
  rw [h.reachable hpod] at hreach
  cases hreach

theorem CallsSucceed.triggerPodEvent_spec (h : CallsSucceed env adapter s) (hpod : Served s pod) (purpose : Purpose) :
    wp (triggerPodEvent env pod purpose) (fun _ s' => s' = s) (fun _ _ => False) s := by
  refine wp_mono (LoraAdapterController.triggerPodEvent_spec pod purpose s) (fun _ _ hs => hs.2) ?_
  rintro e s' ⟨hevent, -⟩
  exact hevent ⟨h.api _, contains_of_reachable (h.reachable hpod purpose), h.api _⟩

theorem CallsSucceed.loadAdapter_spec (h : CallsSucceed env adapter s) (hpod : Served s pod) (path : String)
    (hmissing : (s.engines pod).adapters.contains adapter.adapterSource.adapterName = false) :
    wp (loadAdapter env pod path adapter)
      (fun _ s' => Frame s s' ∧ s'.adapter = s.adapter ∧
        (∀ other, (s'.engines other).adapters.contains adapter.adapterSource.adapterName = true ↔
          (s.engines other).adapters.contains adapter.adapterSource.adapterName = true ∨ other = pod) ∧
        ∃ x ∈ s'.sent, x.request.changes = true)
      (fun _ _ => False) s := by
  have hrespond : respond env pod (s.engines pod) (.load adapter.adapterSource.adapterName path) =
      (⟨200, none⟩, { s.engines pod with
        adapters := (s.engines pod).adapters.set adapter.adapterSource.adapterName path }) := by
    simp [respond, hmissing]
  rw [loadAdapter]
  refine wp_bind_of_succeeds (h.getPodEndpoint_spec hpod .load _ none) ?_
  rintro endpoint s₀ hs₀
  rw [hs₀]
  have haccept : accept (respond env pod (s.engines pod) (.load adapter.adapterSource.adapterName path)).1 =
      .ok none := by
    rw [hrespond]
    rfl
  refine wp_bind_of_succeeds (h.sendRequest_spec pod .load endpoint haccept) ?_
  rintro _ s' ⟨rfl, hexchanged⟩
  have hframe := hexchanged.frame
  refine wp_mono ((h.kept (Kept.refl _ _) hframe).triggerPodEvent_spec
    (hpod.frame hframe) .load) ?_ (fun _ _ hfalse => hfalse)
  rintro _ _ rfl
  obtain ⟨_, authorization, rfl⟩ := hexchanged
  refine ⟨hframe, rfl, ?_, ⟨_, List.mem_append_right _ List.mem_cons_self, rfl⟩⟩
  intro other
  by_cases heq : other = pod
  · subst heq
    simp [hrespond, Dict.contains]
  · simp [heq]

theorem kept_path {secrets : Dict (String × String) (Dict String String)} (path : String)
    (htype : adapter.adapterSource.type = .huggingface) (hdiscoverable : discoverable secrets adapter = true)
    (hpath : adapter.adapterSource.adapterPath = "") :
    Kept secrets adapter { adapter with adapterSource := { adapter.adapterSource with adapterPath := path } } := by
  refine ⟨rfl, rfl, rfl, rfl, rfl, rfl, rfl, ?_⟩
  rw [hdiscoverable]
  simp only [discoverable, hpath, htype, ne_eq, not_true_eq_false, decide_false, Bool.false_or, decide_true,
    Bool.true_and] at hdiscoverable ⊢
  rw [hdiscoverable, Bool.or_true]

theorem CallsSucceed.downloadHuggingFaceAdapter_spec (h : CallsSucceed env adapter s)
    (hdeletion : adapter.deletionTimestamp = none)
    (htype : adapter.adapterSource.type = .huggingface) (hpath : adapter.adapterSource.adapterPath = "") (hpod : Served s pod) :
    wp (downloadHuggingFaceAdapter env adapter pod)
      (fun a s' => discoverable s.secrets adapter = true ∧ Kept s.secrets adapter a ∧ Frame s s' ∧
        s'.engines = s.engines ∧ s'.adapter = some a)
      (fun _ s' => discoverable s.secrets adapter = false ∧ s' = s) s := by
  rw [downloadHuggingFaceAdapter]
  split
  next hrepository => exact ⟨by simp [discoverable, hpath, hrepository], rfl⟩
  next hrepository => exact ⟨by simp [discoverable, hpath, hrepository], rfl⟩
  next repository hnonempty hrepository =>
    split
    next href => exact ⟨by simp [discoverable, hpath, href], rfl⟩
    next ref href =>
      rw [wp_bind, wp_mapError, wp_get, if_pos (h.api _)]
      cases hsecret : s.secrets.get? (adapter.namespaceName, ref.name) with
      | none => exact ⟨by simp [discoverable, hpath, href, hsecret], rfl⟩
      | some secret =>
        cases htoken : secret.get? ref.key with
        | none =>
          simp only [htoken, wp_fail, and_true]
          simp [discoverable, hpath, href, hsecret, Dict.contains, htoken]
        | some token =>
          have hfound : discoverable s.secrets adapter = true := by
            have hrepo : repository ≠ "" := hnonempty
            simp [discoverable, htype, hrepository, href, hsecret, Dict.contains, htoken, hrepo]
          simp only [htoken]
          refine wp_bind_of_succeeds (wp_mapError.mpr (h.getPodEndpoint_spec hpod .download _ (some 30090))) ?_
          rintro endpoint s₀ hs₀
          rw [hs₀]
          have haccept : accept (respond env pod (s.engines pod) (.download repository token
              (adapter.adapterSource.adapterName.map (fun c => if c = '/' then '-' else c)))).1 =
              .ok (some { path := env.downloadPath pod }) := rfl
          refine wp_bind_of_succeeds (wp_mapError.mpr (h.sendRequest_spec pod .download endpoint haccept)) ?_
          rintro body s' ⟨rfl, hexchanged⟩
          have hframe := hexchanged.frame
          simp only [h.api, update, wp_bind, wp_mapError, wp_modify, wp_pure]
          obtain ⟨_, _, rfl⟩ := hexchanged
          refine ⟨hfound, kept_path _ htype hfound hpath, ⟨hframe.pods, hframe.secrets, hframe.sent⟩,
            Function.update_eq_self pod s.engines, ?_⟩
          simp [stored, hdeletion]

theorem CallsSucceed.discoverAdapter_spec (h : CallsSucceed env adapter s) (hobject : s.adapter = some adapter)
    (hdeletion : adapter.deletionTimestamp = none) (hpod : Served s pod) :
    wp (discoverAdapter env adapter pod)
      (fun a s' => discoverable s.secrets adapter = true ∧ Kept s.secrets adapter a ∧ Frame s s' ∧
        s'.engines = s.engines ∧ s'.adapter = some a)
      (fun _ s' => discoverable s.secrets adapter = false ∧ s' = s) s := by
  rw [discoverAdapter]
  split
  next hpath => exact ⟨by simp [discoverable, hpath], Kept.refl _ _, Frame.refl s, rfl, hobject⟩
  next hpath =>
    have hempty : adapter.adapterSource.adapterPath = "" := not_not.mp hpath
    cases htype : adapter.adapterSource.type with
    | huggingface => exact h.downloadHuggingFaceAdapter_spec hdeletion htype hempty hpod
    | _ => exact ⟨by simp [discoverable, hempty, htype], rfl⟩

structure Brought (adapter : LoraAdapter) (s : State) (pods : List NamespacedName) (a : LoraAdapter) (s' : State) :
    Prop where
  kept : Kept s.secrets adapter a
  frame : Frame s s'
  object : s'.adapter = some a
  loaded : ∀ pod, (s'.engines pod).adapters.contains adapter.adapterSource.adapterName = true ↔
    (s.engines pod).adapters.contains adapter.adapterSource.adapterName = true ∨ pod ∈ pods
  busy : (∃ pod ∈ pods, (s.engines pod).adapters.contains adapter.adapterSource.adapterName = false) →
    discoverable s.secrets adapter = true ∧ ∃ x ∈ s'.sent, x.request.changes = true

theorem Brought.skip {pods : List NamespacedName} {a : LoraAdapter} {s' : State}
    (hhere : (s.engines pod).adapters.contains adapter.adapterSource.adapterName = true)
    (h : Brought adapter s pods a s') : Brought adapter s (pod :: pods) a s' where
  kept := h.kept
  frame := h.frame
  object := h.object
  loaded := by
    intro other
    rw [h.loaded other, List.mem_cons]
    constructor
    · rintro (hbefore | hmem)
      · exact .inl hbefore
      · exact .inr (.inr hmem)
    · rintro (hbefore | rfl | hmem)
      · exact .inl hbefore
      · exact .inl hhere
      · exact .inr hmem
  busy := by
    rintro ⟨other, hother, hlacks⟩
    rcases List.mem_cons.mp hother with rfl | hmem
    · rw [hhere] at hlacks
      cases hlacks
    · exact h.busy ⟨other, hmem, hlacks⟩

theorem Brought.cons {pods : List NamespacedName} {found a : LoraAdapter} {s₁ s₂ : State}
    (hlacks : (s.engines pod).adapters.contains adapter.adapterSource.adapterName = false)
    (hfirst : Brought adapter s [pod] found s₁) (hrest : Brought found s₁ pods a s₂) :
    Brought adapter s (pod :: pods) a s₂ where
  kept := hfirst.kept.trans (hfirst.frame.secrets ▸ hrest.kept)
  frame := hfirst.frame.trans hrest.frame
  object := hrest.object
  loaded := by
    intro other
    rw [← hfirst.kept.adapterName, hrest.loaded other, hfirst.kept.adapterName, hfirst.loaded other,
      List.mem_singleton, List.mem_cons, or_assoc]
  busy := by
    intro _
    obtain ⟨hfound, x, hx, hchanges⟩ := hfirst.busy ⟨pod, List.mem_singleton_self pod, hlacks⟩
    exact ⟨hfound, x, hrest.frame.sent.subset hx, hchanges⟩

theorem CallsSucceed.loadMissing_spec (h : CallsSucceed env adapter s) (hobject : s.adapter = some adapter)
    (hdeletion : adapter.deletionTimestamp = none) (currentMap : Dict String LoadedAdapter)
    (pods : List NamespacedName) (hnodup : pods.Nodup) (hserved : ∀ pod ∈ pods, Served s pod)
    (hmap : ∀ pod ∈ pods, currentMap.contains (key pod) =
      (s.engines pod).adapters.contains adapter.adapterSource.adapterName) :
    wp (loadMissing env adapter currentMap pods) (fun a s' => Brought adapter s pods a s')
      (fun _ s' => discoverable s.secrets adapter = false ∧ s' = s ∧
        ∃ pod ∈ pods, (s.engines pod).adapters.contains adapter.adapterSource.adapterName = false) s := by
  induction pods generalizing adapter s with
  | nil => exact ⟨Kept.refl _ _, Frame.refl s, hobject, by simp, by simp⟩
  | cons pod pods ih =>
    rw [loadMissing]
    rw [List.nodup_cons] at hnodup
    have hhere := hmap pod List.mem_cons_self
    split
    next hpresent =>
      rw [hpresent] at hhere
      refine wp_mono (ih h hobject hdeletion hnodup.2 (fun other hother => hserved other (.tail _ hother))
        (fun other hother => hmap other (.tail _ hother))) (fun a s' hbrought => hbrought.skip hhere.symm) ?_
      rintro e s' ⟨hnot, hsame, other, hother, hlacks⟩
      exact ⟨hnot, hsame, other, .tail _ hother, hlacks⟩
    next habsent =>
      have hlacks : (s.engines pod).adapters.contains adapter.adapterSource.adapterName = false := by
        rw [← hhere]
        simpa using habsent
      rw [wp_bind, wp_mapError]
      refine wp_mono (h.discoverAdapter_spec hobject hdeletion (hserved pod List.mem_cons_self)) ?_
        (fun e s' hnot => ⟨hnot.1, hnot.2, pod, List.mem_cons_self, hlacks⟩)
      rintro found s₁ ⟨hfound, hkept, hframe₁, hengines, hobject₁⟩
      have h₁ := h.kept hkept hframe₁
      have hlacks₁ : (s₁.engines pod).adapters.contains found.adapterSource.adapterName = false := by
        rw [hengines, hkept.adapterName]
        exact hlacks
      refine wp_bind_of_succeeds (wp_mapError.mpr
        (h₁.loadAdapter_spec ((hserved pod List.mem_cons_self).frame hframe₁) _ hlacks₁)) ?_
      rintro _ s₂ ⟨hframe₂, hobject₂, hloaded, hsent⟩
      rw [hkept.adapterName, hengines] at hloaded
      have hfirst : Brought adapter s [pod] found s₂ :=
        ⟨hkept, hframe₁.trans hframe₂, hobject₂.trans hobject₁, by simpa using hloaded, fun _ => ⟨hfound, hsent⟩⟩
      -- The pods that are left are as they were.
      have hrest : ∀ other ∈ pods, currentMap.contains (key other) =
          (s₂.engines other).adapters.contains found.adapterSource.adapterName := by
        intro other hother
        have hne : other ≠ pod := fun heq => hnodup.1 (heq ▸ hother)
        rw [hmap other (.tail _ hother), hkept.adapterName, Bool.eq_iff_iff, hloaded other]
        simp [hne]
      refine wp_mono (ih (h₁.kept (Kept.refl _ _) hframe₂) hfirst.object (hkept.deletionTimestamp.trans hdeletion)
        hnodup.2 (fun other hother => (hserved other (.tail _ hother)).frame hfirst.frame) hrest)
        (fun a s₃ hbrought => hfirst.cons hlacks hbrought) ?_
      rintro e s₃ ⟨hnot, -⟩
      rw [hfirst.frame.secrets, hkept.discoverable, hfound] at hnot
      cases hnot

structure Current (s : State) (name : String) (regs : List LoadedAdapter) : Prop where
  pods : ∀ pod, (∃ reg ∈ regs, reg.podAssignments = pod) ↔ ReadyLoaded s name pod
  names : ∀ reg ∈ regs, reg.name = name
  nodup : (regs.map (·.podAssignments)).Nodup

theorem CallsSucceed.current (h : CallsSucceed env adapter s) (round : Nat) :
    Current s adapter.adapterSource.adapterName (registrations env round adapter s) where
  pods := h.registered_iff round
  names := by
    intro reg hreg
    obtain ⟨_, _, _, _, _, _, hreg⟩ := mem_registrations.mp hreg
    rw [hreg]
    rfl
  nodup := registrations_nodup

theorem ReadyLoaded.served (h : ReadyLoaded s name pod) : Served s pod := by
  obtain ⟨object, hobject, hlabel, hready, -⟩ := h
  exact ⟨object, hobject, hlabel, hready⟩

theorem Served.readyLoaded_iff (h : Served s pod) :
    ReadyLoaded s name pod ↔ (s.engines pod).adapters.contains name = true := by
  obtain ⟨object, hobject, hlabel, hready⟩ := h
  constructor
  · rintro ⟨_, _, _, _, hloaded⟩
    exact hloaded
  · intro hloaded
    exact ⟨object, hobject, hlabel, hready, hloaded⟩

theorem readyLoaded_congr {s' : State} (hframe : Frame s s') (hengines : s'.engines = s.engines) (name : String)
    (pod : NamespacedName) : ReadyLoaded s' name pod ↔ ReadyLoaded s name pod := by
  simp only [ReadyLoaded, hframe.pods, hengines]

theorem CallsSucceed.unloads (h : CallsSucceed env adapter s) (hpod : Served s pod) : unloads env adapter s pod = true := by
  simp [LoraAdapterController.unloads, h.reachable hpod, h.apiKey, h.engine, h.api, EngineReply.succeeds]

theorem registrationMap_entries (hnames : ∀ reg ∈ regs, reg.name = name) (hnodup : (regs.map (·.podAssignments)).Nodup) :
    (Dict.ofList ((regs.filter (fun reg => reg.name = name)).map
      (fun reg => (key reg.podAssignments, reg)))).entries = regs.map (fun reg => (key reg.podAssignments, reg)) := by
  have hall : regs.filter (fun reg => reg.name = name) = regs :=
    List.filter_eq_self.mpr (fun reg hreg => by simpa using hnames reg hreg)
  rw [hall]
  apply Dict.entries_ofList
  rw [List.map_map]
  have hkeys := hnodup.map key_injective
  rwa [List.map_map] at hkeys

theorem registrationMap_values (hnames : ∀ reg ∈ regs, reg.name = name) (hnodup : (regs.map (·.podAssignments)).Nodup) :
    (Dict.ofList ((regs.filter (fun reg => reg.name = name)).map
      (fun reg => (key reg.podAssignments, reg)))).values = regs := by
  rw [Dict.values, registrationMap_entries hnames hnodup, List.map_map]
  exact List.map_id regs

theorem registrationMap_contains (hnames : ∀ reg ∈ regs, reg.name = name)
    (hnodup : (regs.map (·.podAssignments)).Nodup) (pod : NamespacedName) :
    (Dict.ofList ((regs.filter (fun reg => reg.name = name)).map
      (fun reg => (key reg.podAssignments, reg)))).contains (key pod) = true ↔ pod ∈ regs.map (·.podAssignments) := by
  have hkeys : regs.map (Prod.fst ∘ fun reg => (key reg.podAssignments, reg)) = (regs.map (·.podAssignments)).map key := by
    rw [List.map_map]
    rfl
  rw [Dict.contains_iff, registrationMap_entries hnames hnodup, List.map_map, hkeys]
  exact List.mem_map_of_injective key_injective

theorem Current.map_contains (h : Current s name regs) (hpod : Served s pod) :
    (Dict.ofList ((regs.filter (fun reg => reg.name = name)).map
      (fun reg => (key reg.podAssignments, reg)))).contains (key pod) = (s.engines pod).adapters.contains name := by
  rw [Bool.eq_iff_iff, ← hpod.readyLoaded_iff, ← h.pods pod, registrationMap_contains h.names h.nodup, List.mem_map]

theorem readyLoaded_reconciled
    {s₁ s₂ : State} (hcurrent : Current s name regs) (hserved : ∀ pod ∈ desired, Served s pod)
    (hframe : Frame s s₂)
    (hloaded : ∀ pod, (s₁.engines pod).adapters.contains name = true ↔
      (s.engines pod).adapters.contains name = true ∨ pod ∈ desired)
    (hcleared : ∀ reg ∈ regs, reg.podAssignments ∉ desired →
      (s₂.engines reg.podAssignments).adapters.contains name = false)
    (hkept : ∀ pod, (∀ reg ∈ regs, reg.podAssignments = pod → pod ∈ desired) → s₂.engines pod = s₁.engines pod)
    (pod : NamespacedName) : ReadyLoaded s₂ name pod ↔ pod ∈ desired := by
  constructor
  · intro hready
    by_contra hundesired
    obtain ⟨object, hobject, hlabel, hpodReady, hhas⟩ := hready
    have hserved : Served s pod := ⟨object, hframe.pods ▸ hobject, hlabel, hpodReady⟩
    by_cases hregistered : ∃ reg ∈ regs, reg.podAssignments = pod
    · obtain ⟨reg, hreg, rfl⟩ := hregistered
      rw [hcleared reg hreg hundesired] at hhas
      cases hhas
    · rw [hkept pod (fun reg hreg heq => absurd ⟨reg, hreg, heq⟩ hregistered), hloaded pod] at hhas
      rcases hhas with hbefore | hdesired
      · exact hregistered ((hcurrent.pods pod).mpr (hserved.readyLoaded_iff.mpr hbefore))
      · exact hundesired hdesired
  · intro hdesired
    have hsame := hkept pod (fun _ _ _ => hdesired)
    refine ((hserved pod hdesired).frame hframe).readyLoaded_iff.mpr ?_
    rw [hsame]
    exact (hloaded pod).mpr (.inr hdesired)

/-- The ready pods that have the adapter are the desired ones, and it could be found when one lacked it. -/
structure Reconciled (adapter : LoraAdapter) (s : State) (desired : List NamespacedName) (s' : State) : Prop where
  object : ∃ a, s'.adapter = some a ∧ Kept s.secrets adapter a
  frame : Frame s s'
  ready : ∀ pod, ReadyLoaded s' adapter.adapterSource.adapterName pod ↔ pod ∈ desired
  busy : (∃ pod ∈ desired, ¬ ReadyLoaded s adapter.adapterSource.adapterName pod) →
    discoverable s.secrets adapter = true ∧ ∃ x ∈ s'.sent, x.request.changes = true

theorem Brought.reconciled {regs regs' : List LoadedAdapter} {a : LoraAdapter} {s₁ s₂ : State}
    (h : CallsSucceed env adapter s) (hcurrent : Current s adapter.adapterSource.adapterName regs)
    (hserved : ∀ pod ∈ desired, Served s pod) (hperm : regs'.Perm regs) (hbrought : Brought adapter s desired a s₁)
    (hunloaded : Unloaded env a (fun reg => key reg.podAssignments ∉ desired.map key) s₁ regs' s₂) :
    Reconciled adapter s desired s₂ := by
  have hframe := hbrought.frame.trans hunloaded.frame
  have hdesired : ∀ pod, key pod ∈ desired.map key ↔ pod ∈ desired := by
    intro pod
    exact List.mem_map_of_injective key_injective
  refine ⟨⟨a, hunloaded.object.trans hbrought.object, hbrought.kept⟩, hframe, ?_, ?_⟩
  · apply readyLoaded_reconciled hcurrent hserved hframe hbrought.loaded
    · intro reg hreg hundesired
      have hcleared := hunloaded.cleared reg (hperm.mem_iff.mpr hreg)
        (fun hkey => hundesired ((hdesired _).mp hkey)) (by rw [h.engine]; rfl)
      rw [hcleared, hbrought.kept.adapterName]
      simp [Engine.without, Dict.contains, Dict.get?_erase]
    · intro pod hpod
      refine hunloaded.kept pod ?_
      rintro reg hreg hundesired rfl
      exact absurd ((hdesired _).mpr (hpod reg (hperm.mem_iff.mp hreg) rfl)) hundesired
  · rintro ⟨pod, hpod, hnot⟩
    rw [(hserved pod hpod).readyLoaded_iff, Bool.not_eq_true] at hnot
    obtain ⟨hfound, x, hx, hchanges⟩ := hbrought.busy ⟨pod, hpod, hnot⟩
    exact ⟨hfound, x, hunloaded.frame.sent.subset hx, hchanges⟩

theorem CallsSucceed.reconcileToDesiredState_spec (h : CallsSucceed env adapter s) (hobject : s.adapter = some adapter)
    (hdeletion : adapter.deletionTimestamp = none) (hcurrent : Current s adapter.adapterSource.adapterName regs)
    (hnodup : desired.Nodup) (hserved : ∀ pod ∈ desired, Served s pod) :
    wp (reconcileToDesiredState env adapter regs desired) (fun _ s' => Reconciled adapter s desired s')
      (fun _ s' => discoverable s.secrets adapter = false ∧ s' = s ∧
        ∃ pod ∈ desired, ¬ ReadyLoaded s adapter.adapterSource.adapterName pod) s := by
  rw [reconcileToDesiredState, wp_bind]
  refine wp_mono (h.loadMissing_spec hobject hdeletion _ desired hnodup hserved
    (fun pod hpod => hcurrent.map_contains (hserved pod hpod))) ?_ ?_
  · rintro a s₁ hbrought
    have hperm : (env.mapOrder regs).Perm regs := env.mapOrder_perm regs
    have hready : ∀ reg ∈ env.mapOrder regs, ReadyLoaded s adapter.adapterSource.adapterName reg.podAssignments :=
      fun reg hreg => (hcurrent.pods _).mp ⟨reg, hperm.mem_iff.mp hreg, rfl⟩
    have hloaded : ∀ reg ∈ env.mapOrder regs,
        (s₁.engines reg.podAssignments).adapters.contains a.adapterSource.adapterName = true := by
      intro reg hreg
      rw [hbrought.kept.adapterName]
      exact (hbrought.loaded _).mpr (.inl ((hready reg hreg).served.readyLoaded_iff.mp (hready reg hreg)))
    rw [registrationMap_values hcurrent.names hcurrent.nodup]
    refine wp_mono (forEach_unload_spec _ _ s₁ ((hperm.map _).nodup_iff.mpr hcurrent.nodup) hloaded)
      (fun _ s₂ hunloaded => hbrought.reconciled h hcurrent hserved hperm hunloaded) ?_
    rintro e s₂ ⟨-, -, reg, hreg, -, hunloads⟩
    rw [(h.kept hbrought.kept hbrought.frame).unloads ((hready reg hreg).served.frame hbrought.frame)] at hunloads
    cases hunloads
  · rintro e s' ⟨hnot, hsame, pod, hpod, hlacks⟩
    refine ⟨hnot, hsame, pod, hpod, ?_⟩
    rw [(hserved pod hpod).readyLoaded_iff, Bool.not_eq_true]
    exact hlacks

end Steps

end ProductionStack.LoraAdapterController
