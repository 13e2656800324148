import Mathlib.Logic.Function.Basic
import ProductionStack.LoraAdapterController

namespace ProductionStack.LoraAdapterController

open Command

theorem wp_get {α : Type} {reply : ApiReply} {object : State → Option α} {Q : α → State → Prop}
    {E : String → State → Prop} {s : State} :
    wp (get reply object) Q E s ↔
      if reply = .ok then
        match object s with
        | some a => Q a s
        | none => E ApiReply.notFound.text s
      else E reply.text s := by
  rw [get]
  split
  · rw [wp_bind, wp_state]
    cases object s <;> rfl
  · rfl

section Specs

variable (env : Env)

def reachable (pods : Dict NamespacedName Pod) (pod : NamespacedName) (purpose : Purpose) : Bool :=
  env.api (.getPod pod purpose) = .ok && (pods.get? pod).any (fun object => object.podIP ≠ "")

def apiKeyKnown (secrets : Dict (String × String) (Dict String String)) (pod : NamespacedName) (purpose : Purpose)
    (adapter : LoraAdapter) : Bool :=
  adapter.vllmApiKey.all (fun ref => ref.secretName = "" || ref.secretKey = "" ||
    env.api (.getApiKey pod purpose) = .ok &&
      (secrets.get? (adapter.namespaceName, ref.secretName)).any (·.contains ref.secretKey))

def outcome (pod : NamespacedName) (purpose : Purpose) (request : Request) (engine : Engine) :
    Except String (Option Payload) × Engine :=
  match env.engine pod purpose with
  | .answered => (accept (respond env pod engine request).1, (respond env pod engine request).2)
  | .garbled => (.ok none, (respond env pod engine request).2)
  | .lost processed =>
    (.error "failed to send request: connection lost",
      if processed then (respond env pod engine request).2 else engine)
  | .refused refusal => (accept refusal.response, engine)

/-- The request has gone out once and the engine is the one after it. -/
def Exchanged (s s' : State) (pod : NamespacedName) (request : Request) (engine : Engine) : Prop :=
  ∃ endpoint authorization, s' =
    { s with
      sent := s.sent ++ [⟨pod, endpoint, authorization, request⟩]
      engines := Function.update s.engines pod engine }

variable {env}

variable (pod : NamespacedName)

theorem getPodEndpoint_spec (purpose : Purpose) (path : String) (port : Option Nat) (s : State) :
    wp (getPodEndpoint env pod purpose path port) (fun _ s' => reachable env s.pods pod purpose = true ∧ s' = s)
      (fun _ s' => reachable env s.pods pod purpose = false ∧ s' = s) s := by
  rw [getPodEndpoint, wp_bind, wp_mapError, wp_get]
  by_cases hreply : env.api (.getPod pod purpose) = .ok
  · rw [if_pos hreply]
    cases hpod : s.pods.get? pod with
    | none => simp [reachable, hpod]
    | some object =>
      by_cases hip : object.podIP = ""
      · simp [reachable, hpod, hip]
      · simp [reachable, hreply, hpod, hip]
  · rw [if_neg hreply]
    simp [reachable, hreply]

theorem getVLLMApiKey_spec (purpose : Purpose) (adapter : LoraAdapter) (s : State) :
    wp (getVLLMApiKey env pod purpose adapter)
      (fun _ s' => apiKeyKnown env s.secrets pod purpose adapter = true ∧ s' = s)
      (fun _ s' => apiKeyKnown env s.secrets pod purpose adapter = false ∧ s' = s) s := by
  rw [getVLLMApiKey]
  cases hkey : adapter.vllmApiKey with
  | none => simp [apiKeyKnown, hkey]
  | some ref =>
    by_cases hname : ref.secretName = ""
    · simp [apiKeyKnown, hkey, hname]
    by_cases hsecret : ref.secretKey = ""
    · simp [apiKeyKnown, hkey, hsecret]
    simp only [hname, hsecret, ne_eq, not_false_eq_true, decide_true, Bool.and_self, if_true, wp_bind,
      wp_mapError, wp_get]
    by_cases hreply : env.api (.getApiKey pod purpose) = .ok
    · rw [if_pos hreply]
      cases hfound : s.secrets.get? (adapter.namespaceName, ref.secretName) with
      | none => simp [apiKeyKnown, hkey, hname, hsecret, hfound]
      | some secret =>
        cases hvalue : secret.get? ref.secretKey with
        | none => simp [apiKeyKnown, hkey, hname, hsecret, hfound, Dict.contains, hvalue]
        | some apiKey => simp [apiKeyKnown, hkey, hreply, hfound, Dict.contains, hvalue]
    · rw [if_neg hreply]
      simp [apiKeyKnown, hkey, hname, hsecret, hreply]

theorem exchange_spec (purpose : Purpose) (sent : Sent) (s : State) :
    wp (exchange env purpose sent)
      (fun response s' => (outcome env sent.pod purpose sent.request (s.engines sent.pod)).1 = accept response ∧
        s' = { s with
          sent := s.sent ++ [sent]
          engines := Function.update s.engines sent.pod
            (outcome env sent.pod purpose sent.request (s.engines sent.pod)).2 })
      (fun e s' => (outcome env sent.pod purpose sent.request (s.engines sent.pod)).1 = .error e ∧
        s' = { s with
          sent := s.sent ++ [sent]
          engines := Function.update s.engines sent.pod
            (outcome env sent.pod purpose sent.request (s.engines sent.pod)).2 }) s := by
  rw [exchange, wp_bind, wp_modify]
  cases hreply : env.engine sent.pod purpose with
  | answered => simp [outcome, hreply, process]
  | garbled => simp [outcome, hreply, process, accept]
  | lost processed => cases processed <;> simp [outcome, hreply, process]
  | refused refusal => simp [outcome, hreply]

theorem sendRequest_spec (purpose : Purpose) (endpoint : String) (request : Request) (adapter : LoraAdapter) (s : State) :
    wp (sendRequest env pod purpose endpoint request adapter)
      (fun body s' => apiKeyKnown env s.secrets pod purpose adapter = true ∧
        (outcome env pod purpose request (s.engines pod)).1 = .ok body ∧
        Exchanged s s' pod request (outcome env pod purpose request (s.engines pod)).2)
      (fun e s' => (apiKeyKnown env s.secrets pod purpose adapter = false ∧ s' = s) ∨
        (apiKeyKnown env s.secrets pod purpose adapter = true ∧
          (outcome env pod purpose request (s.engines pod)).1 = .error e ∧
          Exchanged s s' pod request (outcome env pod purpose request (s.engines pod)).2)) s := by
  rw [sendRequest, wp_bind, wp_mapError]
  refine wp_mono (getVLLMApiKey_spec pod purpose adapter s) ?_ ?_
  · rintro apiKey s' ⟨hknown, rfl⟩
    rw [wp_bind]
    refine wp_mono (exchange_spec purpose ⟨pod, endpoint, if apiKey = "" then "" else "Bearer " ++ apiKey, request⟩ s')
      ?_ ?_
    · rintro response s'' ⟨houtcome, rfl⟩
      cases haccept : accept response with
      | ok body => exact ⟨hknown, houtcome.trans haccept, _, _, rfl⟩
      | error e => exact .inr ⟨hknown, houtcome.trans haccept, _, _, rfl⟩
    · rintro e s'' ⟨houtcome, rfl⟩
      exact .inr ⟨hknown, houtcome, _, _, rfl⟩
  · rintro e s' ⟨hunknown, rfl⟩
    exact .inl ⟨hunknown, rfl⟩

theorem triggerPodEvent_spec (purpose : Purpose) (s : State) :
    wp (triggerPodEvent env pod purpose)
      (fun _ s' => (env.api (.getEventPod pod purpose) = .ok ∧ s.pods.contains pod = true ∧
        env.api (.updateEventPod pod purpose) = .ok) ∧ s' = s)
      (fun _ s' => ¬ (env.api (.getEventPod pod purpose) = .ok ∧ s.pods.contains pod = true ∧
        env.api (.updateEventPod pod purpose) = .ok) ∧ s' = s) s := by
  rw [triggerPodEvent, wp_bind, wp_get]
  by_cases hget : env.api (.getEventPod pod purpose) = .ok
  · rw [if_pos hget]
    cases hpod : s.pods.get? pod with
    | none => simp [Dict.contains, hpod]
    | some object =>
      by_cases hupdate : env.api (.updateEventPod pod purpose) = .ok
      · simp [hget, hupdate, Dict.contains, hpod]
      · simp [hupdate]
  · rw [if_neg hget]
    simp [hget]

def Looked (s s' : State) : Prop :=
  ∃ sent, s' = { s with sent := s.sent ++ sent } ∧ ∀ x ∈ sent, x.request = .models

theorem looked_refl (s : State) : Looked s s := ⟨[], by rw [List.append_nil], by simp⟩

theorem Looked.trans {s s' s'' : State} (h : Looked s s') (h' : Looked s' s'') : Looked s s'' := by
  obtain ⟨sent, rfl, hsent⟩ := h
  obtain ⟨sent', rfl, hsent'⟩ := h'
  refine ⟨sent ++ sent', by simp, ?_⟩
  intro x hx
  rcases List.mem_append.mp hx with hx | hx
  · exact hsent x hx
  · exact hsent' x hx

theorem outcome_models_engine (purpose : Purpose) (engine : Engine) :
    (outcome env pod purpose .models engine).2 = engine := by
  rw [outcome]
  cases env.engine pod purpose with
  | lost processed => cases processed <;> rfl
  | _ => rfl

theorem looked_of_exchanged {s s' : State} {pod : NamespacedName} {purpose : Purpose}
    (h : Exchanged s s' pod .models (outcome env pod purpose .models (s.engines pod)).2) : Looked s s' := by
  obtain ⟨endpoint, authorization, rfl⟩ := h
  rw [outcome_models_engine, Function.update_eq_self]
  exact ⟨_, rfl, by simp⟩

end Specs

def EngineReply.lists : EngineReply → Bool
  | .answered => true
  | _ => false

section Registrations

variable (env : Env) (round : Nat) (adapter : LoraAdapter) (s : State)

def visible (pod : NamespacedName × Pod) : Bool :=
  podReady pod.2 && reachable env s.pods pod.1 (.models round) &&
    apiKeyKnown env s.secrets pod.1 (.models round) adapter && (env.engine pod.1 (.models round)).lists

def registration (pod : NamespacedName) (path : String) : LoadedAdapter :=
  ⟨adapter.adapterSource.adapterName, path, env.now, pod, "Loaded"⟩

def registered (pod : NamespacedName × Pod) : List LoadedAdapter :=
  if visible env round adapter s pod then
    (((s.engines pod.1).adapters.get? adapter.adapterSource.adapterName).map (registration env adapter pod.1)).toList
  else []

def registrations : List LoadedAdapter :=
  ((env.listOrder (.registrations round) s.pods.entries).filter (fun pod => pod.2.labels.contains "model")).flatMap
    (registered env round adapter s)

variable {env round adapter s}

theorem registrationsOf_modelCards (pod : NamespacedName) (engine : Engine) :
    registrationsOf adapter pod (modelCards env engine) =
      ((engine.adapters.get? adapter.adapterSource.adapterName).map (registration env adapter pod)).toList := by
  have hentries := engine.adapters.entries_filter_key adapter.adapterSource.adapterName
  have hsame : ((fun m : ModelCard => m.parent.isSome && decide (m.id = adapter.adapterSource.adapterName)) ∘
      fun a : String × String => (⟨a.1, a.2, some engine.baseModel, env.now⟩ : ModelCard)) =
      fun a => decide (a.1 = adapter.adapterSource.adapterName) := by
    funext a
    simp
  rw [registrationsOf, modelCards, List.filter_cons_of_neg (by simp), List.filter_map, List.map_map, hsame, hentries]
  cases engine.adapters.get? adapter.adapterSource.adapterName <;> rfl

def listedModels : Except String (Option Payload) → List ModelCard
  | .ok (some modelList) => modelList.data
  | _ => []

theorem accept_refusal_listedModels (refusal : Refusal) : listedModels (accept refusal.response) = [] := by
  cases haccept : accept refusal.response with
  | error e => rfl
  | ok body =>
    rw [accept] at haccept
    split at haccept
    · cases hbody : refusal.body with
      | none => simp [Refusal.response, hbody] at haccept
      | some errorBody =>
        simp only [Refusal.response, hbody, Option.map_some] at haccept
        split at haccept
        · cases haccept
          rfl
        · cases haccept
    next hstatus =>
      rw [if_pos (show refusal.response.status ≠ 200 from refusal.notOk)] at haccept
      cases haccept

theorem outcome_listedModels (pod : NamespacedName) (purpose : Purpose) (engine : Engine) :
    listedModels (outcome env pod purpose .models engine).1 =
      if (env.engine pod purpose).lists then modelCards env engine else [] := by
  rw [outcome]
  cases env.engine pod purpose with
  | refused refusal => exact accept_refusal_listedModels refusal
  | _ => rfl

theorem visit_spec (pod : NamespacedName × Pod) {s' : State} (h : Looked s s') :
    wp (visit env round adapter pod)
      (fun regs s'' => regs = registered env round adapter s pod ∧ Looked s s'') (fun _ _ => False) s' := by
  obtain ⟨sent, rfl, hsent⟩ := h
  have hlooked : Looked s { s with sent := s.sent ++ sent } := ⟨sent, rfl, hsent⟩
  have hskipped : visible env round adapter s pod = false → [] = registered env round adapter s pod := by
    intro hvisible
    simp [registered, hvisible]
  rw [visit]
  split
  next hready =>
    rw [wp_bind, wp_attempt]
    refine wp_mono (getPodEndpoint_spec pod.1 (.models round) "/v1/models" none _) ?_ ?_
    · rintro endpoint s' ⟨hreach, rfl⟩
      rw [wp_bind, wp_attempt]
      -- What is found in an answer is what its list of models says, which a failed one has not.
      have hfound : ∀ answer, answer = (outcome env pod.1 (.models round) .models (s.engines pod.1)).1 →
          apiKeyKnown env s.secrets pod.1 (.models round) adapter = true →
          registrationsOf adapter pod.1 (listedModels answer) = registered env round adapter s pod := by
        rintro answer rfl hkey
        have hreachable : reachable env s.pods pod.1 (.models round) = true := hreach
        rw [outcome_listedModels]
        simp only [registered, visible, hready, hreachable, hkey, Bool.and_self, Bool.true_and]
        split
        · exact registrationsOf_modelCards pod.1 (s.engines pod.1)
        · rfl
      refine wp_mono (sendRequest_spec pod.1 (.models round) endpoint .models adapter _) ?_ ?_
      · rintro body s' ⟨hkey, houtcome, hexchanged⟩
        have hregs := hfound (.ok body) houtcome.symm hkey
        have hnext := hlooked.trans (looked_of_exchanged hexchanged)
        cases body <;> exact ⟨hregs, hnext⟩
      · rintro e s' (⟨hkey, rfl⟩ | ⟨hkey, houtcome, hexchanged⟩)
        · have hunknown : apiKeyKnown env s.secrets pod.1 (.models round) adapter = false := hkey
          exact ⟨hskipped (by simp [visible, hunknown]), hlooked⟩
        · exact ⟨hfound (.error e) houtcome.symm hkey, hlooked.trans (looked_of_exchanged hexchanged)⟩
    · rintro e s' ⟨hreach, rfl⟩
      have hunreachable : reachable env s.pods pod.1 (.models round) = false := hreach
      exact ⟨hskipped (by simp [visible, hunreachable]), hlooked⟩
  next hready => exact ⟨hskipped (by simp [visible, hready]), hlooked⟩

theorem listPods_spec (listing : Listing) (selected : Pod → Bool) (s : State) :
    wp (listPods env listing selected)
      (fun pods s' => env.api (.listPods listing) = .ok ∧
        pods = (env.listOrder listing s.pods.entries).filter (fun pod => selected pod.2) ∧ s' = s)
      (fun _ s' => env.api (.listPods listing) ≠ .ok ∧ s' = s) s := by
  rw [listPods]
  split
  next hlist => exact ⟨hlist, rfl, rfl⟩
  next hlist => exact ⟨hlist, rfl⟩

theorem getAdapterRegistrations_spec (round : Nat) (adapter : LoraAdapter) (s : State) :
    wp (getAdapterRegistrations env round adapter)
      (fun regs s' => env.api (.listPods (.registrations round)) = .ok ∧
        regs = registrations env round adapter s ∧ Looked s s')
      (fun _ s' => env.api (.listPods (.registrations round)) ≠ .ok ∧ s' = s) s := by
  rw [getAdapterRegistrations, wp_bind]
  refine wp_mono (listPods_spec _ _ s) ?_ (fun _ _ h => h)
  rintro pods s' ⟨hlist, rfl, rfl⟩
  refine wp_mono (wp_gather _ (fun pod _ s'' hlooked => visit_spec pod hlooked) (looked_refl s')) ?_ ?_
  · rintro regs s'' ⟨rfl, hlooked⟩
    exact ⟨hlist, rfl, hlooked⟩
  · intro _ _ h
    exact h.elim

theorem mem_registrations {reg : LoadedAdapter} :
    reg ∈ registrations env round adapter s ↔ ∃ pod path, s.pods.get? reg.podAssignments = some pod ∧
      pod.labels.contains "model" = true ∧ visible env round adapter s (reg.podAssignments, pod) = true ∧
      (s.engines reg.podAssignments).adapters.get? adapter.adapterSource.adapterName = some path ∧
      reg = registration env adapter reg.podAssignments path := by
  simp only [registrations, List.mem_flatMap, List.mem_filter, (env.listOrder_perm _ _).mem_iff]
  constructor
  · rintro ⟨⟨name, pod⟩, ⟨hmem, hlabel⟩, hreg⟩
    rw [registered] at hreg
    split at hreg
    next hvisible =>
      obtain ⟨path, hpath, rfl⟩ := Option.map_eq_some_iff.mp (Option.mem_toList.mp hreg)
      exact ⟨pod, path, s.pods.get?_of_mem hmem, hlabel, hvisible, hpath, rfl⟩
    · cases hreg
  · rintro ⟨pod, path, hpod, hlabel, hvisible, hpath, hreg⟩
    refine ⟨(reg.podAssignments, pod), ⟨Dict.mem_of_get? hpod, hlabel⟩, ?_⟩
    rw [registered, if_pos hvisible, hpath, hreg]
    exact List.mem_singleton.mpr rfl

theorem registered_sublist (pods : List (NamespacedName × Pod)) :
    ((pods.flatMap (registered env round adapter s)).map (·.podAssignments)).Sublist (pods.map Prod.fst) := by
  induction pods with
  | nil => exact List.Sublist.refl []
  | cons pod pods ih =>
    rw [List.flatMap_cons, List.map_append, List.map_cons, registered]
    split
    · cases (s.engines pod.1).adapters.get? adapter.adapterSource.adapterName with
      | none => exact ih.cons pod.1
      | some path => exact ih.cons_cons pod.1
    · exact ih.cons pod.1

theorem registrations_nodup : ((registrations env round adapter s).map (·.podAssignments)).Nodup := by
  have hpods : ((env.listOrder (.registrations round) s.pods.entries).map Prod.fst).Nodup :=
    ((env.listOrder_perm _ _).map Prod.fst).nodup_iff.mpr s.pods.nodup
  exact hpods.sublist ((registered_sublist _).trans (List.Sublist.map Prod.fst List.filter_sublist))

end Registrations

structure Frame (s s' : State) : Prop where
  pods : s'.pods = s.pods
  secrets : s'.secrets = s.secrets
  sent : s.sent <+: s'.sent

theorem Frame.refl (s : State) : Frame s s := ⟨rfl, rfl, List.prefix_refl s.sent⟩

theorem Frame.trans {s s' s'' : State} (h : Frame s s') (h' : Frame s' s'') : Frame s s'' :=
  ⟨h'.pods.trans h.pods, h'.secrets.trans h.secrets, h.sent.trans h'.sent⟩

theorem Looked.frame {s s' : State} (h : Looked s s') : Frame s s' := by
  obtain ⟨sent, rfl, -⟩ := h
  exact ⟨rfl, rfl, List.prefix_append s.sent sent⟩

theorem Exchanged.frame {s s' : State} {pod : NamespacedName} {request : Request} {engine : Engine}
    (h : Exchanged s s' pod request engine) : Frame s s' := by
  obtain ⟨endpoint, authorization, rfl⟩ := h
  exact ⟨rfl, rfl, List.prefix_append s.sent _⟩

/-- Whether an answer to a request that the engine can meet counts as a success. -/
def EngineReply.succeeds : EngineReply → Bool
  | .answered => true
  | .garbled => true
  | .lost _ => false
  | .refused refusal => (accept refusal.response).isOk

def EngineReply.refuses : EngineReply → Bool
  | .refused _ => true
  | _ => false

def Engine.without (engine : Engine) (name : String) : Engine :=
  { engine with adapters := engine.adapters.erase name }

section Unload

variable (env : Env) (adapter : LoraAdapter)

def unloads (s : State) (pod : NamespacedName) : Bool :=
  reachable env s.pods pod .unload && apiKeyKnown env s.secrets pod .unload adapter &&
    (env.engine pod .unload).succeeds && env.api (.getEventPod pod .unload) = .ok &&
    env.api (.updateEventPod pod .unload) = .ok

variable {env adapter}

theorem contains_of_reachable {pods : Dict NamespacedName Pod} {pod : NamespacedName} {purpose : Purpose}
    (h : reachable env pods pod purpose = true) : pods.contains pod = true := by
  rw [reachable, Bool.and_eq_true] at h
  cases hpod : pods.get? pod with
  | none => simp [hpod] at h
  | some object => simp [Dict.contains, hpod]

theorem outcome_unload {engine : Engine} {name : String} (pod : NamespacedName) (purpose : Purpose)
    (h : engine.adapters.contains name = true) :
    (outcome env pod purpose (.unload name) engine).1.isOk = (env.engine pod purpose).succeeds ∧
      ((env.engine pod purpose).succeeds = true → (outcome env pod purpose (.unload name) engine).2 =
        if (env.engine pod purpose).refuses then engine else engine.without name) := by
  rw [outcome]
  cases env.engine pod purpose with
  | answered => simp [respond, h, accept, EngineReply.succeeds, EngineReply.refuses, Engine.without, Except.isOk,
      Except.toBool]
  | garbled => simp [respond, h, EngineReply.succeeds, EngineReply.refuses, Engine.without, Except.isOk, Except.toBool]
  | lost processed => simp [EngineReply.succeeds, Except.isOk, Except.toBool]
  | refused refusal => simp [EngineReply.succeeds, EngineReply.refuses]

theorem unload_spec {reg : LoadedAdapter} {s : State}
    (h : (s.engines reg.podAssignments).adapters.contains adapter.adapterSource.adapterName = true) :
    wp (unload env adapter reg)
      (fun _ s' => unloads env adapter s reg.podAssignments = true ∧ Frame s s' ∧ s'.adapter = s.adapter ∧
        s'.engines = Function.update s.engines reg.podAssignments
          (if (env.engine reg.podAssignments .unload).refuses then s.engines reg.podAssignments
            else (s.engines reg.podAssignments).without adapter.adapterSource.adapterName))
      (fun _ s' => unloads env adapter s reg.podAssignments = false ∧ Frame s s' ∧ s'.adapter = s.adapter) s := by
  obtain ⟨hok, hengine⟩ := @outcome_unload env _ _ reg.podAssignments .unload h
  rw [unload, wp_mapError, unloadAdapter, wp_bind]
  refine wp_mono (getPodEndpoint_spec reg.podAssignments .unload "/v1/unload_lora_adapter" none s) ?_ ?_
  · rintro endpoint s' ⟨hreach, rfl⟩
    rw [wp_bind]
    refine wp_mono (sendRequest_spec reg.podAssignments .unload endpoint _ adapter s') ?_ ?_
    · rintro body s'' ⟨hkey, houtcome, hexchanged⟩
      have hsucceeds : (env.engine reg.podAssignments .unload).succeeds = true := by
        rw [← hok, houtcome]
        rfl
      have hframe := hexchanged.frame
      obtain ⟨_, _, rfl⟩ := hexchanged
      refine wp_mono (triggerPodEvent_spec reg.podAssignments .unload _) ?_ ?_
      · rintro _ _ ⟨⟨hget, -, hupdate⟩, rfl⟩
        exact ⟨by simp [unloads, hreach, hkey, hsucceeds, hget, hupdate], hframe, rfl, by rw [hengine hsucceeds]⟩
      · rintro _ _ ⟨hevent, rfl⟩
        have hcontains := contains_of_reachable hreach
        refine ⟨?_, hframe, rfl⟩
        by_contra hunloads
        simp only [unloads, Bool.not_eq_false, Bool.and_eq_true, decide_eq_true_eq] at hunloads
        exact hevent ⟨hunloads.1.2, hcontains, hunloads.2⟩
    · rintro e s'' (⟨hkey, rfl⟩ | ⟨hkey, houtcome, hexchanged⟩)
      · exact ⟨by simp [unloads, hkey], Frame.refl _, rfl⟩
      · have hfails : (env.engine reg.podAssignments .unload).succeeds = false := by
          rw [← hok, houtcome]
          rfl
        have hframe := hexchanged.frame
        obtain ⟨_, _, rfl⟩ := hexchanged
        exact ⟨by simp [unloads, hfails], hframe, rfl⟩
  · rintro e s' ⟨hreach, rfl⟩
    exact ⟨by simp [unloads, hreach], Frame.refl _, rfl⟩

structure Unloaded (env : Env) (adapter : LoraAdapter) (p : LoadedAdapter → Prop) (s : State)
    (regs : List LoadedAdapter) (s' : State) : Prop where
  frame : Frame s s'
  object : s'.adapter = s.adapter
  succeeded : ∀ reg ∈ regs, p reg → unloads env adapter s reg.podAssignments = true
  cleared : ∀ reg ∈ regs, p reg → (env.engine reg.podAssignments .unload).refuses = false →
    s'.engines reg.podAssignments = (s.engines reg.podAssignments).without adapter.adapterSource.adapterName
  kept : ∀ pod, (∀ reg ∈ regs, p reg → reg.podAssignments = pod → (env.engine pod .unload).refuses = true) →
    s'.engines pod = s.engines pod

theorem unloads_congr {s s' : State} (h : Frame s s') (pod : NamespacedName) :
    unloads env adapter s' pod = unloads env adapter s pod := by
  simp only [unloads, h.pods, h.secrets]

section Unloaded

variable {p : LoadedAdapter → Prop} {s s' : State} {done : List LoadedAdapter} {reg : LoadedAdapter}

theorem Unloaded.skip (h : Unloaded env adapter p s done s') (hp : ¬ p reg) :
    Unloaded env adapter p s (done ++ [reg]) s' := by
  have hchosen : ∀ other ∈ done ++ [reg], p other → other ∈ done := by
    intro other hother hpother
    rcases List.mem_append.mp hother with hold | hnew
    · exact hold
    · cases List.mem_singleton.mp hnew
      exact absurd hpother hp
  exact ⟨h.frame, h.object, fun other hother hpother => h.succeeded other (hchosen other hother hpother) hpother,
    fun other hother hpother => h.cleared other (hchosen other hother hpother) hpother,
    fun pod hpod => h.kept pod (fun other hother => hpod other (List.mem_append_left _ hother))⟩

theorem Unloaded.concat {s'' : State} (h : Unloaded env adapter p s done s') (hp : p reg)
    (hfresh : ∀ other ∈ done, other.podAssignments ≠ reg.podAssignments)
    (hsame : s'.engines reg.podAssignments = s.engines reg.podAssignments)
    (hunloads : unloads env adapter s reg.podAssignments = true) (hframe : Frame s' s'')
    (hobject : s''.adapter = s'.adapter)
    (hengines : s''.engines = Function.update s'.engines reg.podAssignments
      (if (env.engine reg.podAssignments .unload).refuses then s'.engines reg.podAssignments
        else (s'.engines reg.podAssignments).without adapter.adapterSource.adapterName)) :
    Unloaded env adapter p s (done ++ [reg]) s'' where
  frame := h.frame.trans hframe
  object := hobject.trans h.object
  succeeded := by
    intro other hother hpother
    rcases List.mem_append.mp hother with hold | hnew
    · exact h.succeeded other hold hpother
    · cases List.mem_singleton.mp hnew
      exact hunloads
  cleared := by
    intro other hother hpother hrefuses
    rcases List.mem_append.mp hother with hold | hnew
    · rw [hengines, Function.update_of_ne (hfresh other hold)]
      exact h.cleared other hold hpother hrefuses
    · cases List.mem_singleton.mp hnew
      simp [hengines, hrefuses, hsame]
  kept := by
    intro pod hpod
    have hbefore := h.kept pod (fun other hother => hpod other (List.mem_append_left _ hother))
    rw [hengines]
    by_cases heq : pod = reg.podAssignments
    · subst heq
      simp [hpod reg (by simp) hp rfl, hsame]
    · rw [Function.update_of_ne heq, hbefore]

end Unloaded

theorem forEach_unload_spec (p : LoadedAdapter → Prop) [DecidablePred p] (regs : List LoadedAdapter) (s : State)
    (hnodup : (regs.map (·.podAssignments)).Nodup)
    (hloaded : ∀ reg ∈ regs, (s.engines reg.podAssignments).adapters.contains adapter.adapterSource.adapterName = true) :
    wp (forEach (fun reg => if p reg then unload env adapter reg else pure ()) regs)
      (fun _ s' => Unloaded env adapter p s regs s')
      (fun _ s' => Frame s s' ∧ s'.adapter = s.adapter ∧
        ∃ reg ∈ regs, p reg ∧ unloads env adapter s reg.podAssignments = false) s := by
  apply wp_forEach (fun done s' => Unloaded env adapter p s done s')
  · intro done reg rest s' hregs hdone
    have hmem : reg ∈ regs := by
      rw [hregs]
      simp
    have hfresh : ∀ other ∈ done, other.podAssignments ≠ reg.podAssignments := by
      rw [hregs, List.map_append, List.nodup_append] at hnodup
      intro other hother
      exact hnodup.2.2 _ (List.mem_map_of_mem hother) _ (by simp)
    have hsame : s'.engines reg.podAssignments = s.engines reg.podAssignments :=
      hdone.kept _ (fun other hother _ heq => absurd heq (hfresh other hother))
    split
    next hp =>
      refine wp_mono (unload_spec (hsame ▸ hloaded reg hmem)) ?_ ?_
      · rintro _ s'' ⟨hunloads, hframe, hobject, hengines⟩
        rw [unloads_congr hdone.frame] at hunloads
        exact hdone.concat hp hfresh hsame hunloads hframe hobject hengines
      · rintro _ s'' ⟨hunloads, hframe, hobject⟩
        rw [unloads_congr hdone.frame] at hunloads
        exact ⟨hdone.frame.trans hframe, hobject.trans hdone.object, reg, hmem, hp, hunloads⟩
    next hp => exact hdone.skip hp
  · exact ⟨Frame.refl s, rfl, by simp, by simp, fun _ _ => rfl⟩

end Unload

end ProductionStack.LoraAdapterController
