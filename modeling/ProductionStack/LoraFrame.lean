import ProductionStack.LoraConvergence

namespace ProductionStack.LoraAdapterController

open Command

/-- The request changes nothing but the adapter of this name. -/
def Request.concerns (name : String) : Request → Prop
  | .load loraName _ => loraName = name
  | .unload loraName => loraName = name
  | _ => True

def Request.unloading : Request → Bool
  | .unload _ => true
  | _ => false

/-- What a reconciliation of an adapter of this name may have done: only pods of the given set were asked to
unload, every other adapter is where it was, and the adapter is gone only from pods that were asked. -/
structure Acted (name : String) (U : NamespacedName → Prop) (s s' : State) : Prop where
  frame : Frame s s'
  named : ∀ a, s'.adapter = some a → a.adapterSource.adapterName = name
  allowed : ∀ x ∈ s'.sent, x ∈ s.sent ∨ (x.request.unloading = true → U x.pod)
  others : ∀ pod other, other ≠ name →
    (s'.engines pod).adapters.get? other = (s.engines pod).adapters.get? other
  stays : ∀ pod, (s.engines pod).adapters.contains name = true → (s'.engines pod).adapters.contains name = true ∨
    ∃ x ∈ s'.sent, x.pod = pod ∧ x.request.unloading = true

section Engine

variable {env : Env} {pod : NamespacedName} {engine : Engine} {request : Request} {name : String}

theorem outcome_engine (purpose : Purpose) :
    (outcome env pod purpose request engine).2 = engine ∨
      (outcome env pod purpose request engine).2 = (respond env pod engine request).2 := by
  rw [outcome]
  cases env.engine pod purpose with
  | answered => exact .inr rfl
  | garbled => exact .inr rfl
  | lost processed =>
    cases processed with
    | true => exact .inr rfl
    | false => exact .inl rfl
  | refused refusal => exact .inl rfl

theorem respond_others (h : request.concerns name) {other : String} (hother : other ≠ name) :
    (respond env pod engine request).2.adapters.get? other = engine.adapters.get? other := by
  cases request with
  | models => rfl
  | download => rfl
  | load loraName path =>
    obtain rfl : loraName = name := h
    rw [respond]
    split
    · rfl
    · exact Dict.get?_set_of_ne _ _ hother
  | unload loraName =>
    obtain rfl : loraName = name := h
    rw [respond]
    split
    · exact (Dict.get?_erase _ _ _).trans (if_neg hother)
    · rfl

theorem respond_stays (h : request.unloading = false) (hloaded : engine.adapters.contains name = true) :
    (respond env pod engine request).2.adapters.contains name = true := by
  cases request with
  | models => exact hloaded
  | download => exact hloaded
  | unload => cases h
  | load loraName path =>
    rw [respond]
    split
    · exact hloaded
    · simp only [Dict.contains, Dict.get?_set] at hloaded ⊢
      split
      · rfl
      · exact hloaded

theorem outcome_others (h : request.concerns name) (purpose : Purpose) {other : String} (hother : other ≠ name) :
    (outcome env pod purpose request engine).2.adapters.get? other = engine.adapters.get? other := by
  rcases @outcome_engine env pod engine request purpose with hsame | hdone
  · rw [hsame]
  · rw [hdone, respond_others h hother]

theorem outcome_stays (h : request.unloading = false) (purpose : Purpose) (hloaded : engine.adapters.contains name = true) :
    (outcome env pod purpose request engine).2.adapters.contains name = true := by
  rcases @outcome_engine env pod engine request purpose with hsame | hdone
  · rwa [hsame]
  · rw [hdone]
    exact respond_stays h hloaded

end Engine

section Steps

variable {env : Env} {name : String} {U : NamespacedName → Prop} {s₀ s : State}

theorem Acted.refl (h : ∀ a, s.adapter = some a → a.adapterSource.adapterName = name) : Acted name U s s :=
  ⟨Frame.refl s, h, fun _ hx => .inl hx, fun _ _ _ => rfl, fun _ hloaded => .inl hloaded⟩

theorem Acted.looked {s' : State} (h : Acted name U s₀ s) (hlooked : Looked s s') : Acted name U s₀ s' := by
  obtain ⟨sent, rfl, hmodels⟩ := hlooked
  refine ⟨h.frame.trans ⟨rfl, rfl, List.prefix_append _ _⟩, h.named, ?_, h.others, ?_⟩
  · intro x hx
    rcases List.mem_append.mp hx with hold | hnew
    · exact h.allowed x hold
    · rw [hmodels x hnew]
      exact .inr nofun
  · intro pod hloaded
    refine (h.stays pod hloaded).imp id ?_
    rintro ⟨x, hx, hunload⟩
    exact ⟨x, List.mem_append_left _ hx, hunload⟩

theorem Acted.written (h : Acted name U s₀ s) {object : Option LoraAdapter}
    (hobject : ∀ a, object = some a → a.adapterSource.adapterName = name) : Acted name U s₀ { s with adapter := object } :=
  ⟨⟨h.frame.pods, h.frame.secrets, h.frame.sent⟩, hobject, h.allowed, h.others, h.stays⟩

theorem Acted.exchanged {s' : State} {pod : NamespacedName} {purpose : Purpose} {request : Request} (h : Acted name U s₀ s)
    (hconcerns : request.concerns name) (hU : request.unloading = true → U pod)
    (hexchanged : Exchanged s s' pod request (outcome env pod purpose request (s.engines pod)).2) : Acted name U s₀ s' := by
  have hframe := hexchanged.frame
  obtain ⟨endpoint, authorization, rfl⟩ := hexchanged
  refine ⟨h.frame.trans hframe, h.named, ?_, ?_, ?_⟩
  · intro x hx
    rcases List.mem_append.mp hx with hold | hnew
    · exact h.allowed x hold
    · cases List.mem_singleton.mp hnew
      exact .inr hU
  · intro other lora hlora
    rw [← h.others other lora hlora]
    by_cases heq : other = pod
    · subst heq
      simp only [Function.update_self, outcome_others hconcerns purpose hlora]
    · simp only [Function.update_of_ne heq]
  · intro other hloaded
    rcases h.stays other hloaded with hstill | ⟨x, hx, hunload⟩
    · by_cases heq : other = pod
      · subst heq
        cases hunloading : request.unloading with
        | true => exact .inr ⟨_, List.mem_append_right _ List.mem_cons_self, rfl, hunloading⟩
        | false =>
          simp only [Function.update_self]
          exact .inl (outcome_stays hunloading purpose hstill)
      · simp only [Function.update_of_ne heq]
        exact .inl hstill
    · exact .inr ⟨x, List.mem_append_left _ hx, hunload⟩

theorem getPodEndpoint_same (pod : NamespacedName) (purpose : Purpose) (path : String) (port : Option Nat) :
    wp (getPodEndpoint env pod purpose path port) (fun _ s' => s' = s) (fun _ s' => s' = s) s :=
  wp_mono (getPodEndpoint_spec pod purpose path port s) (fun _ _ h => h.2) (fun _ _ h => h.2)

theorem triggerPodEvent_same (pod : NamespacedName) (purpose : Purpose) :
    wp (triggerPodEvent env pod purpose) (fun _ s' => s' = s) (fun _ s' => s' = s) s :=
  wp_mono (triggerPodEvent_spec pod purpose s) (fun _ _ h => h.2) (fun _ _ h => h.2)

theorem sendRequest_exchanged (pod : NamespacedName) (purpose : Purpose) (endpoint : String) (request : Request)
    (adapter : LoraAdapter) :
    wp (sendRequest env pod purpose endpoint request adapter)
      (fun _ s' => Exchanged s s' pod request (outcome env pod purpose request (s.engines pod)).2)
      (fun _ s' => s' = s ∨ Exchanged s s' pod request (outcome env pod purpose request (s.engines pod)).2) s := by
  refine wp_mono (sendRequest_spec pod purpose endpoint request adapter s) (fun _ _ h => h.2.2) ?_
  rintro e s' (⟨-, hsame⟩ | ⟨-, -, hexchanged⟩)
  · exact .inl hsame
  · exact .inr hexchanged

theorem requestAndTrigger_exchanged (pod : NamespacedName) (purpose : Purpose) (path : String) (request : Request)
    (adapter : LoraAdapter) :
    wp (do
        let endpoint ← getPodEndpoint env pod purpose path none
        let _ ← sendRequest env pod purpose endpoint request adapter
        triggerPodEvent env pod purpose)
      (fun _ s' => Exchanged s s' pod request (outcome env pod purpose request (s.engines pod)).2)
      (fun _ s' => s' = s ∨ Exchanged s s' pod request (outcome env pod purpose request (s.engines pod)).2) s := by
  rw [wp_bind]
  refine wp_mono (getPodEndpoint_same pod purpose path none) ?_ (fun _ _ hsame => .inl hsame)
  rintro endpoint s' rfl
  rw [wp_bind]
  refine wp_mono (sendRequest_exchanged pod purpose endpoint request adapter) ?_ (fun _ _ hsent => hsent)
  intro _ s'' hexchanged
  exact wp_mono (triggerPodEvent_same pod purpose) (fun _ _ hsame => hsame ▸ hexchanged)
    (fun _ _ hsame => .inr (hsame ▸ hexchanged))

theorem requestAndTrigger_acted (h : Acted name U s₀ s) {pod : NamespacedName} (purpose : Purpose) (path : String)
    {request : Request} (adapter : LoraAdapter) (hconcerns : request.concerns name) (hU : request.unloading = true → U pod) :
    wp (do
        let endpoint ← getPodEndpoint env pod purpose path none
        let _ ← sendRequest env pod purpose endpoint request adapter
        triggerPodEvent env pod purpose)
      (fun _ s' => Acted name U s₀ s') (fun _ s' => Acted name U s₀ s') s := by
  refine wp_mono (requestAndTrigger_exchanged pod purpose path request adapter)
    (fun _ _ hexchanged => h.exchanged hconcerns hU hexchanged) ?_
  rintro e s' (rfl | hexchanged)
  · exact h
  · exact h.exchanged hconcerns hU hexchanged

variable {adapter : LoraAdapter}

theorem stored_named (h : adapter.adapterSource.adapterName = name) :
    ∀ a, stored adapter = some a → a.adapterSource.adapterName = name := by
  intro a ha
  rw [stored] at ha
  split at ha
  · cases ha
  · cases ha
    exact h

theorem update_keeps {I : State → Prop} (h : I s) (hwritten : I { s with adapter := stored adapter })
    (reply : ApiReply) : wp (update reply adapter) (fun _ s' => I s') (fun _ s' => I s') s := by
  refine wp_mono (update_spec reply adapter s) ?_ ?_
  · rintro _ _ ⟨-, rfl⟩
    exact hwritten
  · rintro _ _ (⟨-, rfl⟩ | ⟨-, rfl⟩)
    · exact hwritten
    · exact h

theorem downloadHuggingFaceAdapter_keeps {I : State → Prop} {pod : NamespacedName} (h : I s)
    (hsent : ∀ repository token localDir s', Exchanged s s' pod (.download repository token localDir)
      (outcome env pod .download (.download repository token localDir) (s.engines pod)).2 → I s')
    (hwritten : ∀ s' a, a.adapterSource.adapterName = adapter.adapterSource.adapterName → I s' →
      I { s' with adapter := stored a }) :
    wp (downloadHuggingFaceAdapter env adapter pod)
      (fun a s' => a.adapterSource.adapterName = adapter.adapterSource.adapterName ∧ I s') (fun _ s' => I s') s := by
  rw [downloadHuggingFaceAdapter]
  split
  · exact h
  · exact h
  · split
    · exact h
    next ref _ =>
      rw [wp_bind, wp_mapError, wp_get]
      split
      · cases s.secrets.get? (adapter.namespaceName, ref.name) with
        | none => exact h
        | some secret =>
          simp only
          split
          · exact h
          next token _ =>
            rw [wp_bind, wp_mapError]
            refine wp_mono (getPodEndpoint_same pod .download _ _) ?_ (fun _ _ hsame => hsame ▸ h)
            rintro endpoint s' rfl
            rw [wp_bind, wp_mapError]
            refine wp_mono (sendRequest_exchanged pod .download endpoint _ adapter) ?_ ?_
            · intro body s'' hexchanged
              have hnext := hsent _ _ _ s'' hexchanged
              cases body with
              | none => exact hnext
              | some payload =>
                rw [wp_bind, wp_mapError]
                refine wp_mono (update_keeps hnext ?_ _) (fun _ _ hdone => ⟨rfl, hdone⟩) (fun _ _ hdone => hdone)
                exact hwritten s'' _ rfl hnext
            · rintro e s'' (rfl | hexchanged)
              · exact h
              · exact hsent _ _ _ s'' hexchanged
      · exact h

theorem update_acted (h : Acted name U s₀ s) (reply : ApiReply) (hname : adapter.adapterSource.adapterName = name) :
    wp (update reply adapter) (fun _ s' => Acted name U s₀ s') (fun _ s' => Acted name U s₀ s') s :=
  update_keeps h (h.written (stored_named hname)) reply

theorem downloadHuggingFaceAdapter_acted (h : Acted name U s₀ s)
    (hname : adapter.adapterSource.adapterName = name) (pod : NamespacedName) :
    wp (downloadHuggingFaceAdapter env adapter pod)
      (fun a s' => a.adapterSource.adapterName = name ∧ Acted name U s₀ s') (fun _ s' => Acted name U s₀ s') s := by
  subst hname
  refine downloadHuggingFaceAdapter_keeps h ?_ (fun _ a ha hacted => hacted.written (stored_named ha))
  intro repository token localDir s' hexchanged
  have hconcerns : (Request.download repository token localDir).concerns adapter.adapterSource.adapterName := trivial
  exact h.exchanged hconcerns (fun hunloading => by cases hunloading) hexchanged

theorem discoverAdapter_acted (h : Acted name U s₀ s)
    (hname : adapter.adapterSource.adapterName = name) (pod : NamespacedName) :
    wp (discoverAdapter env adapter pod)
      (fun a s' => a.adapterSource.adapterName = name ∧ Acted name U s₀ s') (fun _ s' => Acted name U s₀ s') s := by
  rw [discoverAdapter]
  split
  · exact ⟨hname, h⟩
  · cases adapter.adapterSource.type with
    | huggingface => exact downloadHuggingFaceAdapter_acted h hname pod
    | _ => exact h

theorem loadMissing_acted (h : Acted name U s₀ s) (hname : adapter.adapterSource.adapterName = name)
    (currentMap : Dict String LoadedAdapter) (pods : List NamespacedName) :
    wp (loadMissing env adapter currentMap pods)
      (fun a s' => a.adapterSource.adapterName = name ∧ Acted name U s₀ s') (fun _ s' => Acted name U s₀ s') s := by
  induction pods generalizing adapter s with
  | nil => exact ⟨hname, h⟩
  | cons pod pods ih =>
    rw [loadMissing]
    split
    · exact ih h hname
    · rw [wp_bind, wp_mapError]
      refine wp_mono (discoverAdapter_acted h hname pod) ?_ (fun _ _ hacted => hacted)
      rintro found s' ⟨hfound, hacted⟩
      rw [wp_bind, wp_mapError, loadAdapter]
      refine wp_mono (requestAndTrigger_acted hacted .load _ found hfound (fun h => by cases h)) ?_ (fun _ _ hacted => hacted)
      intro _ s'' hacted
      exact ih hacted hfound

theorem unload_acted (h : Acted name U s₀ s)
    (hname : adapter.adapterSource.adapterName = name) {reg : LoadedAdapter} (hU : U reg.podAssignments) :
    wp (unload env adapter reg) (fun _ s' => Acted name U s₀ s') (fun _ s' => Acted name U s₀ s') s := by
  rw [unload, wp_mapError, unloadAdapter]
  exact requestAndTrigger_acted h .unload _ adapter hname (fun _ => hU)

theorem reconcileToDesiredState_acted (h : Acted name U s₀ s) (hname : adapter.adapterSource.adapterName = name)
    {regs : List LoadedAdapter} (desired : List NamespacedName) (hU : ∀ reg ∈ regs, U reg.podAssignments) :
    wp (reconcileToDesiredState env adapter regs desired) (fun _ s' => Acted name U s₀ s')
      (fun _ s' => Acted name U s₀ s') s := by
  rw [reconcileToDesiredState, wp_bind]
  refine wp_mono (loadMissing_acted h hname _ desired) ?_ (fun _ _ hacted => hacted)
  rintro loaded s' ⟨hloaded, hacted⟩
  refine wp_forEach (fun _ s' => Acted name U s₀ s') _ ?_ hacted
  intro done reg rest s'' hvalues hacted
  split
  · refine unload_acted hacted hloaded (hU reg ?_)
    have hmem := hvalues.symm ▸ (by simp : reg ∈ done ++ reg :: rest)
    obtain ⟨entry, hentry, rfl⟩ := List.mem_map.mp ((env.mapOrder_perm _).mem_iff.mp hmem)
    obtain ⟨reg', hreg', heq⟩ := List.mem_map.mp (Dict.mem_of_mem_ofList hentry)
    obtain rfl : reg' = entry.2 := congrArg Prod.snd heq
    exact (List.mem_filter.mp hreg').1
  · exact hacted

theorem writeStatus_acted (h : Acted name U s₀ s) (round : Nat) (what : String)
    (change : LoraAdapter → Option Status) (retries : List Nat) :
    wp (writeStatus env round what change retries)
      (fun a s' => a.adapterSource.adapterName = name ∧ Acted name U s₀ s') (fun _ s' => Acted name U s₀ s') s := by
  induction retries with
  | nil => exact h
  | cons retry retries ih =>
    rw [writeStatus, wp_bind, wp_mapError]
    cases hreply : env.api (.getLatest round retry) with
    | notFound => exact h
    | conflict => exact h
    | failed processed => exact h
    | ok =>
      simp only [fetchAdapter, wp_bind, wp_state, wp_pure]
      cases hobject : s.adapter with
      | none => exact h
      | some adapter =>
        have hname := h.named adapter hobject
        simp only
        split
        · exact ⟨hname, h⟩
        next status _ =>
          have hwritten : Acted name U s₀ { s with adapter := some { adapter with status := status } } := by
            apply h.written
            rintro a ⟨⟩
            exact hname
          cases env.api (.updateStatus round retry) with
          | ok => exact ⟨hname, hwritten⟩
          | conflict => exact ih
          | notFound => exact h
          | failed processed =>
            cases processed with
            | true => exact hwritten
            | false => exact h

theorem getAdapterRegistrations_acted (h : Acted name U s₀ s) (round : Nat) :
    wp (getAdapterRegistrations env round adapter)
      (fun regs s' => regs = registrations env round adapter s ∧ Acted name U s₀ s')
      (fun _ s' => Acted name U s₀ s') s := by
  refine wp_mono (getAdapterRegistrations_spec round adapter s) ?_ ?_
  · rintro regs s' ⟨-, hregs, hlooked⟩
    exact ⟨hregs, h.looked hlooked⟩
  · rintro e s' ⟨-, rfl⟩
    exact h

theorem getOptimalPlacement_same (adapter : LoraAdapter) :
    wp (getOptimalPlacement env adapter) (fun _ s' => s' = s) (fun _ s' => s' = s) s := by
  rw [getOptimalPlacement, wp_bind]
  exact wp_mono (listPods_spec _ _ s) (fun _ _ h => h.2.2) (fun _ _ h => h.2)

theorem refresh_acted (h : Acted name U s₀ s) :
    wp (do
        match ← fetchAdapter (env.api (.getAdapter 1)) with
        | none => return {}
        | some latest =>
          let latestRegistrations ← getAdapterRegistrations env 1 latest
          let _ ← updateStatusWithRegistrations env 2 latestRegistrations
          return ({ requeueAfter := 60 } : Result))
      (fun _ s' => Acted name U s₀ s') (fun _ s' => Acted name U s₀ s') s := by
  rw [wp_bind]
  cases env.api (.getAdapter 1) with
  | ok =>
    simp only [fetchAdapter, wp_bind, wp_state, wp_pure]
    cases s.adapter with
    | none => exact h
    | some latest =>
      rw [wp_bind]
      refine wp_mono (getAdapterRegistrations_acted h 1) ?_ (fun _ _ hacted => hacted)
      rintro regs s' ⟨-, hacted⟩
      rw [wp_bind]
      exact wp_mono (writeStatus_acted hacted 2 _ _ _) (fun _ _ hdone => hdone.2) (fun _ _ hdone => hdone)
  | _ => exact h

theorem reconcilePlacement_acted (h : Acted name U s₀ s) (hname : adapter.adapterSource.adapterName = name)
    (hU : ∀ pod, (s.engines pod).adapters.contains name = true → U pod) :
    wp (reconcilePlacement env adapter) (fun _ s' => Acted name U s₀ s') (fun _ s' => Acted name U s₀ s') s := by
  have hregs : ∀ reg ∈ registrations env 0 adapter s, U reg.podAssignments := by
    intro reg hreg
    obtain ⟨_, path, _, _, _, hpath, _⟩ := mem_registrations.mp hreg
    rw [hname] at hpath
    exact hU _ (by simp [Dict.contains, hpath])
  rw [reconcilePlacement, wp_bind]
  refine wp_mono (getAdapterRegistrations_acted h 0) ?_ (fun _ _ hacted => hacted)
  rintro regs s₁ ⟨rfl, hacted⟩
  rw [wp_bind]
  refine wp_mono (writeStatus_acted hacted 0 _ _ _) ?_ (fun _ _ hacted => hacted)
  rintro a s₂ ⟨ha, hacted⟩
  rw [wp_bind]
  refine wp_mono (getOptimalPlacement_same a) ?_ (fun _ _ hsame => hsame ▸ hacted)
  rintro desired s₃ rfl
  split
  · rw [wp_bind]
    exact wp_mono (writeStatus_acted hacted 1 _ _ _) (fun _ _ hdone => hdone.2) (fun _ _ hdone => hdone)
  · split
    · rw [wp_bind]
      refine wp_mono (reconcileToDesiredState_acted hacted ha desired hregs) ?_ (fun _ _ hacted => hacted)
      intro _ s₄ hacted
      exact refresh_acted hacted
    · exact hacted

theorem reconcile_acted (hobject : s.adapter = some adapter) (hdeletion : adapter.deletionTimestamp = none) :
    Acted adapter.adapterSource.adapterName
      (fun pod => (s.engines pod).adapters.contains adapter.adapterSource.adapterName = true) s (reconcile env s).2 := by
  have hstart : Acted adapter.adapterSource.adapterName
      (fun pod => (s.engines pod).adapters.contains adapter.adapterSource.adapterName = true) s s := by
    apply Acted.refl
    intro a ha
    cases hobject.symm.trans ha
    rfl
  suffices hrun : wp (reconcile env) (fun _ s' => Acted _ _ s s') (fun _ s' => Acted _ _ s s') s by
    rcases wp_cases hrun with ⟨_, -, hacted⟩ | ⟨_, -, hacted⟩ <;> exact hacted
  rw [reconcile, wp_bind]
  cases env.api (.getAdapter 0) with
  | ok =>
    simp only [fetchAdapter, wp_bind, wp_state, wp_pure, hobject, hdeletion, Option.isSome_none, Bool.false_eq_true,
      if_false]
    split
    · exact reconcilePlacement_acted hstart rfl (fun _ hloaded => hloaded)
    · rw [wp_bind]
      exact wp_mono (update_acted hstart _ rfl) (fun _ _ hacted => hacted) (fun _ _ hacted => hacted)
  | _ => exact hstart

end Steps

end ProductionStack.LoraAdapterController
