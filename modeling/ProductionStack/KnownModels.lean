import ProductionStack.PodDiscovery

namespace ProductionStack.KnownModels

open Runs ListWatch PodDiscovery

inductive Work
  | idle
  | describe (engineName : String) (modelInfo : List (String × ModelInfo)) (modelNames : List String)
  | connect (modelNames : List String)
  | record (modelNames : List String)

inductive Handler
  | began (model : String)
  | read (model : String) (endpoints : List EndpointInfo)
  | checked (model : String) (endpoints : List EndpointInfo) (modelEverExisted : Bool)
  | answered

inductive Answer
  | notFound
  | unavailable
  | routed (endpoints : List EndpointInfo)
  deriving DecidableEq, Repr

structure System where
  discovery : Discovery := initDiscovery
  watcher : Work := .idle
  handlers : List Handler := []

/-- A step of the watcher thread, a request that comes in, or a step of a handler. -/
inductive Step
  | observe (event : Event String PodObject) (replies : Replies)
  | watcher
  | request (model : String)
  | handler (id : Nat)

abbrev Output := Option (Nat × String × Answer)

def adds (event : Event String PodObject) (replies : Replies) : Bool :=
  event.kind ≠ .deleted && checkPodReady event.object.containerStatuses && !isPodTerminating event.object &&
    event.object.podIp.isSome && getModelNames replies ≠ []

/-- An event whose handling raises is logged. Of an engine that is added only the endpoint is stored here. -/
def observe (cfg : Settings) (s : System) (event : Event String PodObject) (replies : Replies) : System :=
  match s.watcher with
  | .idle =>
    match watchEngines cfg s.discovery event replies with
    | .error _ => s
    | .ok d =>
      if adds event replies then
        { s with
          discovery := { s.discovery with availableEngines := d.availableEngines }
          watcher := .describe event.key (getModelInfo replies) (getModelNames replies) }
      else { s with discovery := d }
  | _ => s

/-- Whatever becomes of the client sessions, the models are recorded after them. -/
def watcherStep (s : System) : System :=
  match s.watcher with
  | .idle => s
  | .describe name info names =>
    { s with
      discovery := { s.discovery with
        availableEngines := s.discovery.availableEngines.modify name (fun e => { e with modelInfo := info }) }
      watcher := .connect names }
  | .connect names => { s with watcher := .record names }
  | .record names =>
    { s with discovery := { s.discovery with knownModels := s.discovery.knownModels ∪ names }, watcher := .idle }

def serves (model : String) (e : EndpointInfo) : Bool := model ∈ e.modelNames && !e.sleep

def answer (model : String) (endpoints : List EndpointInfo) (modelEverExisted : Bool) : Answer :=
  if endpoints.filter (serves model) = [] then
    if modelEverExisted then .unavailable else .notFound
  else .routed (endpoints.filter (serves model))

def handlerStep (d : Discovery) : Handler → Handler × Option (String × Answer)
  | .began model => (.read model d.availableEngines.values, none)
  | .read model endpoints => (.checked model endpoints (model ∈ d.knownModels), none)
  | .checked model endpoints existed => (.answered, some (model, answer model endpoints existed))
  | .answered => (.answered, none)

def step (cfg : Settings) : Component System Step Output := fun s i =>
  match i with
  | .observe event replies => (none, observe cfg s event replies)
  | .watcher => (none, watcherStep s)
  | .request model => (none, { s with handlers := s.handlers ++ [.began model] })
  | .handler id =>
    match s.handlers[id]? with
    | none => (none, s)
    | some h =>
      ((handlerStep s.discovery h).2.map (fun out => (id, out.1, out.2)),
        { s with handlers := s.handlers.set id (handlerStep s.discovery h).1 })

variable {event : Event String PodObject} {replies : Replies} {s : System} {m : String}

theorem adds_iff : adds event replies = true ↔ event.kind ≠ .deleted ∧ Serving (observed event replies) := by
  constructor
  · intro h
    simp only [adds, Bool.and_eq_true, decide_eq_true_eq, Option.isSome_iff_exists] at h
    obtain ⟨⟨⟨⟨hkind, hready⟩, hterm⟩, ip, hip⟩, hnames⟩ := h
    refine ⟨hkind, serving_of ?_ hip hnames⟩
    rw [Observation.isPodReady, Bool.and_eq_true]
    exact ⟨hready, hterm⟩
  · rintro ⟨hkind, hserve⟩
    have hready := serving_isPodReady hserve
    obtain ⟨ip, hip⟩ := hserve.ip
    rw [Observation.isPodReady, Bool.and_eq_true] at hready
    simp only [adds, Bool.and_eq_true, decide_eq_true_eq, Option.isSome_iff_exists]
    exact ⟨⟨⟨⟨hkind, hready.1⟩, hready.2⟩, ip, hip⟩, hserve.models⟩

variable (cfg : Settings)

theorem watchEngines_not_adds (d : Discovery) (hno : adds event replies = false) :
    watchEngines cfg d event replies =
      .ok (if (event.kind = .deleted ∨ event.kind = .modified ∧ event.object.podIp.isSome) ∧
          d.availableEngines.contains event.key then deleteEngine d event.key else d) := by
  by_cases hkind : event.kind = .deleted
  · simp [watchEngines, hkind]
  · rw [watchEngines, if_neg hkind]
    have hbad : event.object.podIp = none ∨
        (checkPodReady event.object.containerStatuses && !isPodTerminating event.object) = false ∨
        (if (checkPodReady event.object.containerStatuses && !isPodTerminating event.object) = true
          then getModelNames replies else []) = [] := by
      by_contra hgood
      simp only [not_or, Bool.not_eq_false] at hgood
      obtain ⟨hip, hready, hnames⟩ := hgood
      obtain ⟨ip, hip⟩ := Option.ne_none_iff_exists'.mp hip
      rw [if_pos hready] at hnames
      have hadds := adds_iff.mpr ⟨hkind, serving_of hready hip hnames⟩
      rw [hno] at hadds
      cases hadds
    cases hevent : event.kind with
    | deleted => exact absurd hevent hkind
    | added =>
      dsimp only
      rw [onEngineUpdate_added cfg d event.key hbad]
      simp
    | modified =>
      cases hip : event.object.podIp with
      | none => simp [onEngineUpdate]
      | some ip =>
        dsimp only
        rw [onEngineUpdate_modified cfg d event.key ip (hbad.resolve_left (by simp [hip]))]
        simp

theorem watchEngines_of_not_adds {cfg : Settings} {d d' : Discovery} (h : watchEngines cfg d event replies = .ok d')
    (hno : adds event replies = false) : d' = d ∨ d' = deleteEngine d event.key := by
  rw [watchEngines_not_adds cfg d hno] at h
  rw [← Except.ok.inj h]
  split
  · exact .inr rfl
  · exact .inl rfl

theorem addEngine_eq {cfg : Settings} {d d' : Discovery} {name ip : String} {names : List String}
    {label : Option String} (h : addEngine cfg d name ip names label replies = .ok d') :
    ∃ e, e.modelInfo = getModelInfo replies ∧ d' = ⟨d.availableEngines.set name e, d.knownModels ∪ names⟩ := by
  rw [addEngine] at h
  obtain ⟨mode, -, hd⟩ := bind_eq_ok.mp h
  cases hd
  exact ⟨_, rfl, rfl⟩

/-- The steps of one event, with nothing between them, do what handling the event at once does. -/
theorem steps_refine_watchEngines {cfg : Settings} (hidle : s.watcher = .idle) {d : Discovery}
    (h : watchEngines cfg s.discovery event replies = .ok d) :
    (watcherStep (watcherStep (watcherStep (observe cfg s event replies)))).discovery.knownModels = d.knownModels ∧
    ∀ k, (watcherStep (watcherStep (watcherStep (observe cfg s event replies)))).discovery.availableEngines.get? k =
      d.availableEngines.get? k := by
  cases hadds : adds event replies with
  | false =>
    have hobserve : observe cfg s event replies = { s with discovery := d } := by simp [observe, hidle, h, hadds]
    rw [hobserve]
    simp [watcherStep, hidle]
  | true =>
    obtain ⟨hkind, hserve⟩ := adds_iff.mp hadds
    obtain ⟨ip, hip⟩ := hserve.ip
    have hadd := h
    rw [watchEngines_serving cfg s.discovery hkind hip hserve] at hadd
    obtain ⟨e, hinfo, rfl⟩ := addEngine_eq hadd
    have hobserve : observe cfg s event replies =
        { s with
          discovery := { s.discovery with availableEngines := s.discovery.availableEngines.set event.key e }
          watcher := .describe event.key (getModelInfo replies) (getModelNames replies) } := by
      simp [observe, hidle, h, hadds]
    rw [hobserve]
    refine ⟨rfl, ?_⟩
    intro k
    have hsame : { e with modelInfo := getModelInfo replies } = e := by rw [← hinfo]
    simp only [watcherStep, Dict.get?_modify, Dict.get?_set_self, Option.map_some, hsame]
    split_ifs with hk
    · rw [hk, Dict.get?_set_self]
    · rfl

def pending : Work → List String
  | .idle => []
  | .describe _ _ names => names
  | .connect names => names
  | .record names => names

/-- Every model of a stored endpoint is recorded, or is about to be. -/
def Tracked (s : System) : Prop :=
  ∀ k e, s.discovery.availableEngines.get? k = some e → ∀ m ∈ e.modelNames,
    m ∈ s.discovery.knownModels ∨ m ∈ pending s.watcher

/-- The model is recorded, or will be while an endpoint that serves it stays stored. -/
def Secured (m : String) (s : System) : Prop :=
  m ∈ s.discovery.knownModels ∨
    (m ∈ pending s.watcher ∧ ∃ k e, s.discovery.availableEngines.get? k = some e ∧ serves m e = true)

theorem observe_cases (s : System) (event : Event String PodObject) (replies : Replies) :
    observe cfg s event replies = s ∨
    (s.watcher = .idle ∧ observe cfg s event replies =
      { s with discovery := deleteEngine s.discovery event.key }) ∨
    (s.watcher = .idle ∧ ∃ e, e.modelNames = getModelNames replies ∧ observe cfg s event replies =
      { s with
        discovery := { s.discovery with availableEngines := s.discovery.availableEngines.set event.key e }
        watcher := .describe event.key (getModelInfo replies) (getModelNames replies) }) := by
  cases hwatcher : s.watcher with
  | describe name info names => exact .inl (by simp [observe, hwatcher])
  | connect names => exact .inl (by simp [observe, hwatcher])
  | record names => exact .inl (by simp [observe, hwatcher])
  | idle =>
    cases hwatch : watchEngines cfg s.discovery event replies with
    | error err => exact .inl (by simp [observe, hwatcher, hwatch])
    | ok d =>
      cases hadds : adds event replies with
      | false =>
        have hobserve : observe cfg s event replies = { s with discovery := d } := by
          simp [observe, hwatcher, hwatch, hadds]
        rcases watchEngines_of_not_adds hwatch hadds with rfl | rfl
        · exact .inl hobserve
        · exact .inr (.inl ⟨rfl, by rw [hobserve, hwatcher]⟩)
      | true =>
        obtain ⟨hkind, hserve⟩ := adds_iff.mp hadds
        obtain ⟨ip, hip⟩ := hserve.ip
        rw [watchEngines_serving cfg s.discovery hkind hip hserve] at hwatch
        obtain ⟨e, hset, -, hnames⟩ := addEngine_get? hwatch
        rw [← watchEngines_serving cfg s.discovery hkind hip hserve] at hwatch
        refine .inr (.inr ⟨rfl, e, hnames, ?_⟩)
        simp [observe, hwatcher, hwatch, hadds, hset]

theorem tracked_observe (h : Tracked s) (event : Event String PodObject)
    (replies : Replies) : Tracked (observe cfg s event replies) := by
  rcases observe_cases cfg s event replies with heq | ⟨hidle, heq⟩ | ⟨hidle, e, hnames, heq⟩
  · rw [heq]
    exact h
  · rw [heq]
    intro k e hget
    simp only [deleteEngine, Dict.get?_erase] at hget
    split_ifs at hget
    exact h k e hget
  · rw [heq]
    intro k e' hget m hm
    simp only [Dict.get?_set] at hget
    split_ifs at hget
    · cases hget
      exact .inr (hnames ▸ hm)
    · have hknown := h k e' hget m hm
      rw [hidle] at hknown
      exact .inl (hknown.resolve_right List.not_mem_nil)

theorem secured_observe (h : Secured m s)
    (event : Event String PodObject) (replies : Replies) : Secured m (observe cfg s event replies) := by
  rcases observe_cases cfg s event replies with heq | ⟨hidle, heq⟩ | ⟨hidle, e, hnames, heq⟩
  · rw [heq]
    exact h
  all_goals
    have hknown : m ∈ s.discovery.knownModels := by
      rw [Secured, hidle] at h
      exact h.resolve_right (fun hpending => List.not_mem_nil hpending.1)
    rw [heq]
    exact .inl hknown

theorem tracked_watcherStep (h : Tracked s) : Tracked (watcherStep s) := by
  cases hwatcher : s.watcher with
  | idle => simpa [watcherStep, hwatcher] using h
  | describe name info names =>
    intro k e hget m hm
    rw [Tracked, hwatcher] at h
    simp only [watcherStep, hwatcher, Dict.get?_modify] at hget ⊢
    split_ifs at hget with hk
    · obtain ⟨e', hget', rfl⟩ := Option.map_eq_some_iff.mp hget
      exact h name e' hget' m hm
    · exact h k e hget m hm
  | connect names =>
    intro k e hget m hm
    rw [Tracked, hwatcher] at h
    simp only [watcherStep, hwatcher] at hget ⊢
    exact h k e hget m hm
  | record names =>
    intro k e hget m hm
    rw [Tracked, hwatcher] at h
    simp only [watcherStep, hwatcher] at hget ⊢
    exact .inl (List.mem_union_iff.mpr (h k e hget m hm))

theorem secured_watcherStep (h : Secured m s) : Secured m (watcherStep s) := by
  cases hwatcher : s.watcher with
  | idle => simpa [watcherStep, hwatcher] using h
  | describe name info names =>
    rw [Secured, hwatcher] at h
    simp only [watcherStep, hwatcher]
    refine h.imp id ?_
    rintro ⟨hpending, k, e, hget, hserves⟩
    refine ⟨hpending, k, ?_⟩
    -- storing the model information once more keeps the names and the sleep flag
    by_cases hk : k = name
    · subst hk
      exact ⟨{ e with modelInfo := info }, by simp [Dict.get?_modify, hget], hserves⟩
    · exact ⟨e, by simp [Dict.get?_modify, hk, hget], hserves⟩
  | connect names =>
    rw [Secured, hwatcher] at h
    simp only [watcherStep, hwatcher]
    exact h
  | record names =>
    rw [Secured, hwatcher] at h
    simp only [watcherStep, hwatcher]
    exact .inl (List.mem_union_iff.mpr (h.imp id And.left))

def readFor (m : String) : Handler → List EndpointInfo
  | .read model endpoints => if model = m then endpoints else []
  | .checked model endpoints _ => if model = m then endpoints else []
  | _ => []

/-- A request that has read an endpoint of its model has read it from a state that secures the model. -/
structure Justified (s : System) : Prop where
  tracked : Tracked s
  read : ∀ h ∈ s.handlers, ∀ m, (∃ e ∈ readFor m h, serves m e = true) → Secured m s

/-- A request that will not be told that the model does not exist. -/
def Covered (m : String) (s : System) : Handler → Prop
  | .read model endpoints => model = m → m ∈ s.discovery.knownModels ∨ ∃ e ∈ endpoints, serves m e = true
  | .checked model endpoints existed => model = m → existed = true ∨ ∃ e ∈ endpoints, serves m e = true
  | _ => True

/-- The requests from number n on are covered. -/
structure Protected (m : String) (n : Nat) (s : System) : Prop where
  secured : Secured m s
  begun : n ≤ s.handlers.length
  covered : ∀ id h, n ≤ id → s.handlers[id]? = some h → Covered m s h

theorem mem_values_iff {d : Dict String EndpointInfo} {e : EndpointInfo} : e ∈ d.values ↔ ∃ k, d.get? k = some e := by
  rw [Dict.values, List.mem_map]
  constructor
  · rintro ⟨⟨k, e'⟩, hmem, rfl⟩
    exact ⟨k, d.get?_of_mem hmem⟩
  · rintro ⟨k, hget⟩
    exact ⟨(k, e), Dict.mem_of_get? hget, rfl⟩

theorem secured_of_stored (htracked : Tracked s) {e : EndpointInfo}
    (he : e ∈ s.discovery.availableEngines.values) (hserves : serves m e = true) : Secured m s := by
  obtain ⟨k, hget⟩ := mem_values_iff.mp he
  have hm : m ∈ e.modelNames := by
    simp only [serves, Bool.and_eq_true, decide_eq_true_eq] at hserves
    exact hserves.1
  exact (htracked k e hget m hm).imp id (fun hpending => ⟨hpending, k, e, hget, hserves⟩)

theorem observe_frame (s : System) (event : Event String PodObject) (replies : Replies) :
    (observe cfg s event replies).handlers = s.handlers ∧
      s.discovery.knownModels ⊆ (observe cfg s event replies).discovery.knownModels := by
  rcases observe_cases cfg s event replies with heq | ⟨-, heq⟩ | ⟨-, e, -, heq⟩
  all_goals
    rw [heq]
    exact ⟨rfl, List.Subset.refl _⟩

theorem watcherStep_frame (s : System) :
    (watcherStep s).handlers = s.handlers ∧ s.discovery.knownModels ⊆ (watcherStep s).discovery.knownModels := by
  cases hwatcher : s.watcher with
  | record names =>
    simp only [watcherStep, hwatcher]
    exact ⟨trivial, fun m hm => List.mem_union_iff.mpr (.inl hm)⟩
  | _ => simp [watcherStep, hwatcher]

theorem covered_mono {s s' : System} (hknown : s.discovery.knownModels ⊆ s'.discovery.knownModels)
    {h : Handler} (hc : Covered m s h) : Covered m s' h := by
  cases h with
  | read model endpoints => exact fun heq => (hc heq).imp (fun hm => hknown hm) id
  | _ => exact hc

theorem covered_handlerStep (hsecured : Secured m s) {h : Handler}
    (hc : Covered m s h) : Covered m s (handlerStep s.discovery h).1 := by
  cases h with
  | began model =>
    rintro -
    refine hsecured.imp id ?_
    rintro ⟨-, k, e, hget, hserves⟩
    exact ⟨e, mem_values_iff.mpr ⟨k, hget⟩, hserves⟩
  | read model endpoints =>
    rintro rfl
    exact (hc rfl).imp (fun hm => decide_eq_true hm) id
  | checked model endpoints existed => trivial
  | answered => trivial

theorem not_notFound_of_covered {h : Handler} (hc : Covered m s h) : (handlerStep s.discovery h).2 ≠ some (m, .notFound) := by
  cases h with
  | checked model endpoints existed =>
    intro hout
    simp only [handlerStep, Option.some.injEq, Prod.mk.injEq] at hout
    obtain ⟨rfl, hanswer⟩ := hout
    rw [answer] at hanswer
    split_ifs at hanswer with hnone hexisted
    rcases hc rfl with hyes | ⟨e, he, hserves⟩
    · exact hexisted hyes
    · have hmem := List.mem_filter.mpr ⟨he, hserves⟩
      rw [hnone] at hmem
      exact List.not_mem_nil hmem
  | _ => simp [handlerStep]

theorem secured_step (h : Secured m s) (i : Step) : Secured m (step cfg s i).2 := by
  cases i with
  | observe event replies => exact secured_observe cfg h event replies
  | watcher => exact secured_watcherStep h
  | request model => exact h
  | handler id =>
    simp only [step]
    cases s.handlers[id]? with
    | none => exact h
    | some handler => exact h

theorem justified_of_same_handlers {s s' : System} (hs : Justified s) (htracked : Tracked s')
    (hhandlers : s'.handlers = s.handlers) (hsecured : ∀ m, Secured m s → Secured m s') : Justified s' := by
  refine ⟨htracked, ?_⟩
  rw [hhandlers]
  exact fun h hh m hread => hsecured m (hs.read h hh m hread)

theorem justified_handlerStep (hs : Justified s) {h : Handler} (hh : h ∈ s.handlers) (m : String)
    (hread : ∃ e ∈ readFor m (handlerStep s.discovery h).1, serves m e = true) : Secured m s := by
  cases h with
  | began model =>
    obtain ⟨e, he, hserves⟩ := hread
    simp only [handlerStep, readFor] at he
    split_ifs at he
    · exact secured_of_stored hs.tracked he hserves
    · cases he
  | read model endpoints => exact hs.read _ hh m hread
  | checked model endpoints existed => simp [handlerStep, readFor] at hread
  | answered => simp [handlerStep, readFor] at hread

theorem justified_step (s : System) (i : Step) (hs : Justified s) : Justified (step cfg s i).2 := by
  cases i with
  | observe event replies =>
    exact justified_of_same_handlers hs (tracked_observe cfg hs.tracked event replies)
      (observe_frame cfg s event replies).1 (fun _ h => secured_observe cfg h event replies)
  | watcher =>
    exact justified_of_same_handlers hs (tracked_watcherStep hs.tracked) (watcherStep_frame s).1
      (fun _ h => secured_watcherStep h)
  | request model =>
    refine ⟨hs.tracked, ?_⟩
    intro h hh m hread
    rcases List.mem_append.mp hh with hh | hh
    · exact hs.read h hh m hread
    · rw [List.mem_singleton.mp hh] at hread
      simp [readFor] at hread
  | handler id =>
    simp only [step]
    cases hget : s.handlers[id]? with
    | none => exact hs
    | some h =>
      refine ⟨hs.tracked, ?_⟩
      intro h' hh' m hread
      rcases List.mem_or_eq_of_mem_set hh' with hold | rfl
      · exact hs.read h' hold m hread
      · exact justified_handlerStep hs (List.mem_of_getElem? hget) m hread

theorem protected_of_same_handlers {s s' : System} {n : Nat} (hs : Protected m n s)
    (hsecured : Secured m s') (hhandlers : s'.handlers = s.handlers)
    (hknown : s.discovery.knownModels ⊆ s'.discovery.knownModels) : Protected m n s' := by
  refine ⟨hsecured, hhandlers ▸ hs.begun, ?_⟩
  rw [hhandlers]
  exact fun id h hid hget => covered_mono hknown (hs.covered id h hid hget)

theorem protected_step {n : Nat} (s : System) (i : Step) (hs : Protected m n s) : Protected m n (step cfg s i).2 := by
  cases i with
  | observe event replies =>
    obtain ⟨hhandlers, hknown⟩ := observe_frame cfg s event replies
    exact protected_of_same_handlers hs (secured_observe cfg hs.secured event replies) hhandlers hknown
  | watcher =>
    obtain ⟨hhandlers, hknown⟩ := watcherStep_frame s
    exact protected_of_same_handlers hs (secured_watcherStep hs.secured) hhandlers hknown
  | request model =>
    refine ⟨hs.secured, ?_, ?_⟩
    · simp only [step, List.length_append]
      exact Nat.le_add_right_of_le hs.begun
    · intro id h hid hget
      simp only [step, List.getElem?_append] at hget
      split_ifs at hget
      · exact hs.covered id h hid hget
      · rw [List.mem_singleton.mp (List.mem_of_getElem? hget)]
        trivial
  | handler id =>
    simp only [step]
    cases hget : s.handlers[id]? with
    | none => exact hs
    | some h =>
      refine ⟨hs.secured, by simpa using hs.begun, ?_⟩
      intro id' h' hid' hget'
      rw [List.getElem?_set] at hget'
      split_ifs at hget' with heq
      · subst heq
        rw [← Option.some.inj hget']
        exact covered_handlerStep hs.secured (hs.covered id h hid' hget)
      · exact hs.covered id' h' hid' hget'

theorem output_of_step {cfg : Settings} {i : Step} {id : Nat} {reply : Answer} (hout : (step cfg s i).1 = some (id, m, reply)) :
    ∃ h, s.handlers[id]? = some h ∧ (handlerStep s.discovery h).2 = some (m, reply) := by
  cases i with
  | handler id' =>
    simp only [step] at hout
    cases hget : s.handlers[id']? with
    | none => simp [hget] at hout
    | some h =>
      simp only [hget, Option.map_eq_some_iff, Prod.mk.injEq] at hout
      obtain ⟨⟨model, reply⟩, hanswer, rfl, rfl, rfl⟩ := hout
      exact ⟨h, hget, hanswer⟩
  | _ => simp [step] at hout

theorem output_of_protected {n : Nat} (hs : Protected m n s) {id : Nat}
    (hid : n ≤ id) (i : Step) : (step cfg s i).1 ≠ some (id, m, .notFound) := by
  intro hout
  obtain ⟨h, hget, hanswer⟩ := output_of_step hout
  exact not_notFound_of_covered (hs.covered id h hid hget) hanswer

theorem secured_of_routed (hs : Justified s) {i : Step} {id : Nat}
    {endpoints : List EndpointInfo} (hout : (step cfg s i).1 = some (id, m, .routed endpoints)) : Secured m s := by
  obtain ⟨h, hget, hanswer⟩ := output_of_step hout
  cases h with
  | checked model' read existed =>
    simp only [handlerStep, Option.some.injEq, Prod.mk.injEq] at hanswer
    obtain ⟨rfl, hanswer⟩ := hanswer
    rw [answer] at hanswer
    split_ifs at hanswer with hnone
    obtain ⟨e, he⟩ := List.exists_mem_of_ne_nil _ hnone
    obtain ⟨hmem, hserves⟩ := List.mem_filter.mp he
    exact hs.read _ (List.mem_of_getElem? hget) _ ⟨e, by simpa [readFor] using hmem, hserves⟩
  | _ => simp [handlerStep] at hanswer

theorem justified_run (steps : List Step) : Justified (final (step cfg) {} steps) := by
  have hinit : Justified {} := ⟨fun k e hget => by simp [initDiscovery] at hget, by simp⟩
  exact final_invariant (C := fun _ _ => True) (fun s i hs _ => justified_step cfg s i hs) hinit
    (along_of_forall _ (fun _ _ _ _ => trivial))

/-- Once a request for a model was routed, no request that comes in later is told that there is
no such model. -/
theorem served_model_never_unknown (cfg : Settings) (before after : List Step) (i : Step) {id : Nat} {m : String}
    {endpoints : List EndpointInfo} (hserved : (step cfg (final (step cfg) {} before) i).1 = some (id, m, .routed endpoints)) :
    ∀ later, (final (step cfg) {} (before ++ [i])).handlers.length ≤ later →
      some (later, m, .notFound) ∉ outputs (step cfg) (final (step cfg) {} (before ++ [i])) after := by
  intro later hlater hmem
  have hsecured : Secured m (final (step cfg) {} (before ++ [i])) := by
    rw [final_append]
    exact secured_step cfg (secured_of_routed cfg (justified_run cfg before) hserved) i
  obtain ⟨pre, x, post, -, hout⟩ := mem_outputs _ hmem
  have hstart : Protected m (final (step cfg) {} (before ++ [i])).handlers.length
      (final (step cfg) {} (before ++ [i])) := by
    refine ⟨hsecured, Nat.le_refl _, ?_⟩
    intro id' h hid' hget
    exact absurd (List.getElem?_eq_none hid') (by simp [hget])
  have hreached := final_invariant (C := fun _ _ => True) (fun s i hs _ => protected_step cfg s i hs) hstart
    (along_of_forall _ (fun _ _ _ _ => trivial) : Along (step cfg) (fun _ _ => True) _ pre)
  exact output_of_protected cfg hreached hlater x hout.symm

def llamaPod : PodObject := { podIp := some "10.0.0.1", containerStatuses := some [true] }

def llamaReplies : Replies where
  modelNames := some ["llama"]
  modelInfo := none
  pod := .apiException
  isSleeping := none
  now := 0

def earlyRequest : List Step :=
  [.observe ⟨.added, "pod-0", llamaPod⟩ llamaReplies, .request "llama", .handler 0, .handler 0]

def podSettings : Settings := ⟨"default", "8000", id⟩

theorem early_request_secures :
    (∃ endpoints, (step podSettings (final (step podSettings) {} earlyRequest) (.handler 0)).1 =
      some (0, "llama", .routed endpoints)) ∧
    ∀ later after, 1 ≤ later → some (later, "llama", .notFound) ∉
      outputs (step podSettings) (final (step podSettings) {} (earlyRequest ++ [.handler 0])) after := by
  refine ⟨⟨_, rfl⟩, ?_⟩
  intro later after hlater
  exact served_model_never_unknown podSettings earlyRequest after (.handler 0) rfl later hlater

end ProductionStack.KnownModels
