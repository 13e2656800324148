import ProductionStack.YamlConfig

namespace ProductionStack.YamlConfig

open StaticLists RouterConfig Startup StaticDiscovery StaticServiceDiscovery

variable {H : Type} {md5 : String → H} {probe : Nat → Except Exc Bool}

/-- Of so many probes from a position on, each that is reached finds its backend healthy, or raises the ValueError
with which the loop ends. -/
def Quiet (probe : Nat → Except Exc Bool) (start count : Nat) : Prop :=
  ∀ k < count, (∀ j < k, ∃ healthy, probe (start + j) = .ok healthy) →
    probe (start + k) = .ok true ∨ ∃ message, probe (start + k) = .error (.valueError message)

/-- The loop has collected nothing, and how it ended is caught. -/
def Collected : List H × Except Exc Unit → Prop
  | (hashes, ended) => hashes = [] ∧ (ended = .ok () ∨ ∃ message, ended = .error (.valueError message))

theorem quiet_zero (start : Nat) : Quiet probe start 0 := by
  intro k hk
  omega

theorem quiet_succ {start count : Nat} :
    Quiet probe start (count + 1) ↔
      (∃ message, probe start = .error (.valueError message)) ∨ probe start = .ok true ∧ Quiet probe (start + 1) count := by
  constructor
  · intro h
    rcases h 0 (Nat.succ_pos count) (fun j hj => by omega) with hhealthy | hraised
    · refine .inr ⟨hhealthy, ?_⟩
      intro k hk hreached
      have hnext := h (k + 1) (by omega) ?_
      · rwa [← Nat.add_assoc, Nat.add_right_comm] at hnext
      · intro j hj
        cases j with
        | zero => exact ⟨true, hhealthy⟩
        | succ j =>
          have hbefore := hreached j (by omega)
          rwa [Nat.add_right_comm] at hbefore
    · exact .inl hraised
  · rintro (⟨message, hraised⟩ | ⟨hhealthy, hrest⟩) k hk hreached
    · cases k with
      | zero => exact .inr ⟨message, hraised⟩
      | succ k =>
        obtain ⟨healthy, hok⟩ := hreached 0 (by omega)
        rw [Nat.add_zero, hraised] at hok
        cases hok
    · cases k with
      | zero => exact .inl hhealthy
      | succ k =>
        have hnext := hrest k (by omega) ?_
        · rwa [Nat.add_right_comm] at hnext
        · intro j hj
          have hbefore := hreached (j + 1) (by omega)
          rwa [← Nat.add_assoc, Nat.add_right_comm] at hbefore

/-- By induction on the lists: the loop goes as far as the shortest of them. -/
theorem probeAll_collected_iff (start : Nat) (urls models modelTypes : List String) (h : urls.length = models.length) :
    Collected (probeAll md5 probe start urls models modelTypes) ↔ Quiet probe start (min urls.length modelTypes.length) := by
  induction urls generalizing start models modelTypes with
  | nil =>
    obtain rfl := List.length_eq_zero_iff.mp h.symm
    rw [List.length_nil, Nat.zero_min]
    refine iff_of_true ?_ (quiet_zero start)
    cases modelTypes with
    | nil => exact ⟨rfl, .inl rfl⟩
    | cons modelType modelTypes => exact ⟨rfl, .inr ⟨_, rfl⟩⟩
  | cons url urls ih =>
    cases models with
    | nil => cases h
    | cons model models =>
      cases modelTypes with
      | nil => exact iff_of_true ⟨rfl, .inr ⟨_, rfl⟩⟩ (quiet_zero start)
      | cons modelType modelTypes =>
        rw [List.length_cons, List.length_cons, Nat.succ_min_succ, quiet_succ, ← ih (start + 1) models modelTypes (Nat.succ.inj h),
          probeAll]
        cases hprobe : probe start with
        | error e => simp [Collected]
        | ok healthy =>
          cases healthy with
          | true => simp [Collected]
          | false => simp [Collected]

theorem getUnhealthyEndpointHashes_eq_nil {d : StaticServiceDiscovery H} :
    d.getUnhealthyEndpointHashes md5 probe = .ok [] ↔
      ∃ modelTypes, d.modelTypes = some modelTypes ∧ Collected (probeAll md5 probe 0 d.urls d.models modelTypes) := by
  rw [getUnhealthyEndpointHashes]
  cases d.modelTypes with
  | none => simp
  | some modelTypes =>
    simp only [Option.some.injEq, exists_eq_left']
    obtain ⟨hashes, ended⟩ := probeAll md5 probe 0 d.urls d.models modelTypes
    cases ended with
    | ok u => simp [Collected]
    | error e => cases e <;> simp [Collected]

def MissingType (models : Models) : Prop :=
  ∃ e ∈ models.entries, e.2.staticModelType = none ∧ e.2.staticBackends.getD [] ≠ []

theorem Encoded.modelTypes_eq_some {models : Models} {d : StaticServiceDiscovery H} (h : Encoded models d)
    {modelTypes : List String} :
    d.modelTypes = some modelTypes ↔ join (types models) ≠ "" ∧ modelTypes = split ',' (join (types models)) := by
  rw [h.typeList]
  by_cases hempty : join (types models) = ""
  · rw [hempty]
    simp [truthy]
  · rw [truthy_eq_some hempty, Option.map_some, Option.some.injEq]
    simp [hempty, eq_comm]

/-- Where a type is missing, nothing is reported exactly when there is some text of types, and no backend fails its probe
before one of the lists is at its end. -/
theorem missing_type_disables_iff (file : YamlFile) (models : Models) (h : file.staticModels = some (some models))
    (uuid4 : Nat ↪ String) (time : Int) (d : StaticServiceDiscovery H)
    (hstart : startStatic (loadInitialConfig (readAndProcessYamlConfigFile file)) uuid4 time = .ok (some d))
    (md5 : String → H) (probe : Nat → Except Exc Bool) :
    MissingType models →
      (d.getUnhealthyEndpointHashes md5 probe = .ok [] ↔
        join (types models) ≠ "" ∧ Quiet probe 0 (min d.urls.length (split ',' (join (types models))).length)) := by
  intro _
  have hencoded := encoded_of_start h hstart
  rw [getUnhealthyEndpointHashes_eq_nil]
  simp only [hencoded.modelTypes_eq_some]
  constructor
  · rintro ⟨modelTypes, ⟨hne, rfl⟩, hcollected⟩
    exact ⟨hne, (probeAll_collected_iff 0 d.urls d.models _ d.same_length).mp hcollected⟩
  · rintro ⟨hne, hquiet⟩
    exact ⟨_, ⟨hne, rfl⟩, (probeAll_collected_iff 0 d.urls d.models _ d.same_length).mpr hquiet⟩

section Examples

def untypedModels : Models :=
  .ofList [("embed", ⟨some ["http://localhost:8001"], none⟩), ("llama", ⟨some ["http://localhost:8002"], some "chat"⟩)]

def untypedFile : YamlFile where
  staticModels := some (some untypedModels)
  others := { serviceDiscovery := some (some "static"), routingLogic := some (some "roundrobin") }

theorem untypedModels_missing : MissingType untypedModels := ⟨("embed", _), List.mem_cons_self, rfl, List.cons_ne_nil _ _⟩

theorem missing_type_disables_healthy :
    ∃ d : StaticServiceDiscovery String,
      startStatic (loadInitialConfig (readAndProcessYamlConfigFile untypedFile)) unary 0 = .ok (some d) ∧
      MissingType untypedModels ∧ d.getUnhealthyEndpointHashes id (fun _ => .ok true) = .ok [] := by
  refine ⟨_, rfl, untypedModels_missing, ?_⟩
  refine (missing_type_disables_iff untypedFile untypedModels rfl unary 0 _ rfl id _ untypedModels_missing).mpr ⟨by decide, ?_⟩
  exact fun _ _ _ => .inl rfl

/-- The first backend is sent the request of the other model's type, and does not answer it. -/
theorem missing_type_misapplied :
    ¬ ∀ (file : YamlFile) (models : Models), file.staticModels = some (some models) → MissingType models →
      ∀ (uuid4 : Nat ↪ String) (time : Int) (d : StaticServiceDiscovery String),
        startStatic (loadInitialConfig (readAndProcessYamlConfigFile file)) uuid4 time = .ok (some d) →
        ∀ (md5 : String → String) (probe : Nat → Except Exc Bool), d.getUnhealthyEndpointHashes md5 probe = .ok [] := by
  intro h
  have hempty := h untypedFile untypedModels rfl untypedModels_missing unary 0 _ rfl id (fun _ => .ok false)
  have hhashes : (Except.ok ["http://localhost:8001embed"] : Except Exc (List String)) = .ok [] := hempty
  cases hhashes

end Examples

end ProductionStack.YamlConfig
