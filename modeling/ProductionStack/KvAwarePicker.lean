import ProductionStack.RoundRobinPicker

namespace ProductionStack.GatewayPickers

open LoraAdapterController Runs Rotation

section Controller

structure Lookup where
  instanceID : String
  tokens : Int64

inductive Reply (α : Type)
  | failed
  | response (statusCode : Nat) (data : Option α)

def Reply.decode {α : Type} : Reply α → Option α
  | .failed => none
  | .response statusCode data => if statusCode = 200 then data else none

def lookupInstance (reply : Reply Lookup) : Option Lookup := reply.decode

def queryInstance (reply : Reply String) : Option String := reply.decode

end Controller

section Pick

def isSpace (c : Char) : Bool :=
  c.toNat ∈ [0x09, 0x0A, 0x0B, 0x0C, 0x0D, 0x20, 0x85, 0xA0, 0x1680, 0x2028, 0x2029, 0x202F, 0x205F, 0x3000] ||
    (0x2000 ≤ c.toNat && c.toNat ≤ 0x200A)

/-- The number of fields that begin in a text, inside of a field or not. -/
def fieldCount : Bool → List Char → Nat
  | _, [] => 0
  | inside, c :: cs => if isSpace c then fieldCount false cs else (if inside then 0 else 1) + fieldCount true cs

structure KvAwarePicker where
  currentIndex : UInt64 := 0
  threshold : Int64
  instToPod : Dict String ScoredPod := .empty

def newKvAwarePicker (threshold : Int64) : KvAwarePicker := { threshold := threshold }

/-- A call, with what the controller replies to its lookup and to its query for each pod of the list. -/
structure Call where
  prompt : String
  scoredPods : Slice ScoredPod
  lookup : Reply Lookup
  query : Nat → Reply String

def matched (threshold : Int64) (call : Call) : Option String :=
  match lookupInstance call.lookup with
  | none => none
  | some ⟨inst, tokens⟩ =>
    if inst ≠ "" ∧ Int64.ofNat (fieldCount false call.prompt.toList) - threshold ≤ tokens then some inst else none

def answers (call : Call) : List (String × ScoredPod) :=
  call.scoredPods.elems.zipIdx.filterMap (fun pod =>
    match queryInstance (call.query pod.2) with
    | none => none
    | some iid => if iid ≠ "" then some (iid, pod.1) else none)

/-- The pods are asked for only when the instance is not known yet. -/
def learn (p : KvAwarePicker) (call : Call) (inst : String) : KvAwarePicker :=
  if p.instToPod.contains inst then p
  else { p with instToPod := (answers call).foldl (fun m e => m.set e.1 e.2) p.instToPod }

def fallBack (lib : SortSlice) (p : KvAwarePicker) (call : Call) : Except Panic (Option ScoredPod) × KvAwarePicker :=
  ((roundRobin lib p.currentIndex call.scoredPods).map some, { p with currentIndex := p.currentIndex + 1 })

def KvAwarePicker.pick (lib : SortSlice) : Component KvAwarePicker Call (Except Panic (Option ScoredPod)) := fun p call =>
  if call.scoredPods.elems = [] then (.ok none, p)
  else
    match matched p.threshold call with
    | none => fallBack lib p call
    | some inst =>
      let p := learn p call inst
      match p.instToPod.get? inst with
      | some target => (.ok (some target), p)
      | none => fallBack lib p call

end Pick

section Targets

variable {p : KvAwarePicker} {call : Call}

def podNames (call : Call) : List NamespacedName := call.scoredPods.elems.map ScoredPod.namespacedName

/-- The target, if there is one, denotes a pod of the call's own list. -/
def Listed (call : Call) (answer : Except Panic (Option ScoredPod)) : Prop :=
  ∀ target, answer = .ok (some target) → target.namespacedName ∈ podNames call

/-- If the matching instance is known already, then as a pod that is listed. -/
def Current (p : KvAwarePicker) (call : Call) : Prop :=
  ∀ inst target, call.scoredPods.elems ≠ [] → matched p.threshold call = some inst →
    p.instToPod.get? inst = some target → target.namespacedName ∈ podNames call

theorem podNames_of_mem {pod : ScoredPod} (h : pod ∈ call.scoredPods.elems) : pod.namespacedName ∈ podNames call :=
  List.mem_map_of_mem h

theorem mem_of_mem_answers {e : String × ScoredPod} (h : e ∈ answers call) : e.2 ∈ call.scoredPods.elems := by
  obtain ⟨pod, hpod, hask⟩ := List.mem_filterMap.mp h
  split at hask
  · cases hask
  · split at hask
    · cases hask
      exact List.fst_mem_of_mem_zipIdx hpod
    · cases hask

theorem learn_known {inst : String} {target : ScoredPod} (h : p.instToPod.get? inst = some target) :
    learn p call inst = p := by
  rw [learn, Dict.contains, h, if_pos (Option.isSome_some)]

theorem get?_learn {inst iid : String} {target : ScoredPod} (h : (learn p call inst).instToPod.get? iid = some target) :
    p.instToPod.get? iid = some target ∨ target ∈ call.scoredPods.elems := by
  rw [learn] at h
  split at h
  · exact .inl h
  · by_cases hmem : iid ∈ (answers call).map Prod.fst
    · obtain ⟨pod, hpod, hget⟩ := Dict.get?_foldl_set_of_mem (answers call) p.instToPod hmem
      obtain rfl : pod = target := Option.some.inj (hget.symm.trans h)
      exact .inr (mem_of_mem_answers hpod)
    · rw [Dict.get?_foldl_set_of_notMem _ _ hmem] at h
      exact .inl h

theorem roundRobin_mem (lib : SortSlice) {c : UInt64} {pods : Slice ScoredPod} {pod : ScoredPod}
    (h : roundRobin lib c pods = .ok pod) : pod ∈ pods.elems := by
  rw [roundRobin, Slice.index] at h
  split at h
  · split at h
    next x hx =>
      cases h
      exact (lib.perm pods).mem_iff.mp (List.mem_of_getElem? hx)
    · cases h
  · cases h

theorem fallBack_listed (lib : SortSlice) (p : KvAwarePicker) (call : Call) : Listed call (fallBack lib p call).1 := by
  intro target h
  obtain ⟨pod, hpod, hsome⟩ := map_eq_ok.mp h
  obtain rfl : pod = target := Option.some.inj hsome
  exact podNames_of_mem (roundRobin_mem lib hpod)

theorem pick_listed_iff (lib : SortSlice) (p : KvAwarePicker) (call : Call) :
    Listed call (p.pick lib call).1 ↔ Current p call := by
  rw [KvAwarePicker.pick]
  by_cases hnil : call.scoredPods.elems = []
  · rw [if_pos hnil]
    exact ⟨fun _ _ _ hne _ _ => absurd hnil hne, fun _ _ h => nomatch h⟩
  rw [if_neg hnil]
  cases hmatched : matched p.threshold call with
  | none =>
    refine ⟨fun _ _ _ _ hsome _ => ?_, fun _ => fallBack_listed lib p call⟩
    rw [hmatched] at hsome
    cases hsome
  | some inst =>
    dsimp only
    constructor
    · intro h iid target _ hsome hget
      rw [hmatched] at hsome
      obtain rfl : inst = iid := Option.some.inj hsome
      rw [learn_known hget, hget] at h
      exact h target rfl
    · intro hcurrent
      cases hget : (learn p call inst).instToPod.get? inst with
      | none => exact fallBack_listed lib _ call
      | some target =>
        intro chosen hchosen
        obtain rfl : target = chosen := Option.some.inj (Except.ok.inj hchosen)
        rcases get?_learn hget with hknown | hlisted
        · exact hcurrent inst target hnil hmatched hknown
        · exact podNames_of_mem hlisted

/-- The targets of a run of calls are all listed exactly when no call matches an instance that was
learnt from an earlier list as a pod that its own list does not have. -/
theorem targets_listed_iff (lib : SortSlice) (threshold : Int64) (calls : List Call) :
    List.Forall₂ Listed calls (outputs (KvAwarePicker.pick lib) (newKvAwarePicker threshold) calls) ↔
      Along (KvAwarePicker.pick lib) Current (newKvAwarePicker threshold) calls :=
  outputs_forall₂_iff (fun p call _ => pick_listed_iff lib p call) _

def podAt (name podIP : String) : ScoredPod := ⟨⟨"default", name, default_noSlash⟩, podIP⟩

def instanceCall (inst : String) (pod : ScoredPod) : Call where
  prompt := "hello"
  scoredPods := ⟨[pod], by rw [List.length_singleton]; decide⟩
  lookup := .response 200 (some ⟨inst, 1⟩)
  query _ := .response 200 (some inst)

/-- The instance moves to another pod, and its requests are still sent to the pod that is gone. -/
theorem gone_pod_targeted :
    outputs (KvAwarePicker.pick byName) (newKvAwarePicker 0)
        [instanceCall "engine-0" (podAt "a" "10.0.0.1"), instanceCall "engine-0" (podAt "b" "10.0.0.2")] =
      [.ok (some (podAt "a" "10.0.0.1")), .ok (some (podAt "a" "10.0.0.1"))] ∧
    (podAt "a" "10.0.0.1").namespacedName ∉ podNames (instanceCall "engine-0" (podAt "b" "10.0.0.2")) := by
  decide

end Targets

section Indices

/-- The index is one of the slice's, and the target one of its pods. -/
def InRange (c : UInt64) (pods : Slice ScoredPod) (answer : Except Panic (Option ScoredPod)) : Prop :=
  0 ≤ (nextIndex c pods.len).toInt ∧ (nextIndex c pods.len).toInt < pods.elems.length ∧
    ∃ pod ∈ pods.elems, answer = .ok (some pod)

def FallsBack (p : KvAwarePicker) (call : Call) : Prop :=
  ∀ inst, matched p.threshold call = some inst → (learn p call inst).instToPod.get? inst = none

theorem RoundRobinPicker.pick_eq (lib : SortSlice) (p : RoundRobinPicker) {pods : Slice ScoredPod} (hne : pods.elems ≠ []) :
    (p.pick lib pods).1 = (roundRobin lib p.currentIndex pods).map some := by
  rw [RoundRobinPicker.pick, if_neg hne]

theorem KvAwarePicker.pick_eq (lib : SortSlice) {p : KvAwarePicker} {call : Call} (hne : call.scoredPods.elems ≠ [])
    (h : FallsBack p call) : (p.pick lib call).1 = (roundRobin lib p.currentIndex call.scoredPods).map some := by
  rw [KvAwarePicker.pick, if_neg hne]
  cases hmatched : matched p.threshold call with
  | none => rfl
  | some inst =>
    have hindex : (learn p call inst).currentIndex = p.currentIndex := by
      rw [learn]
      split <;> rfl
    dsimp only
    rw [h inst hmatched]
    simp only [fallBack, hindex]

theorem inRange_iff (lib : SortSlice) (c : UInt64) {pods : Slice ScoredPod} (hne : pods.elems ≠ []) :
    InRange c pods ((roundRobin lib c pods).map some) ↔ Within pods.elems.length c.toNat := by
  rw [← roundRobin_ok_iff lib c hne]
  constructor
  · rintro ⟨-, -, pod, hpod, hok⟩
    obtain ⟨chosen, hchosen, hsome⟩ := map_eq_ok.mp hok
    obtain rfl : chosen = pod := Option.some.inj hsome
    exact ⟨chosen, hpod, hchosen⟩
  · rintro ⟨pod, hpod, hok⟩
    have hwithin := (roundRobin_ok_iff lib c hne).mp ⟨pod, hpod, hok⟩
    exact ⟨(nextIndex_nonneg_iff c pods).mpr hwithin, nextIndex_lt c pods hne, pod, hpod, by rw [hok]; rfl⟩

/-- The index of either picker is in range exactly when its counter is in the lower half of its
values, or short of the wrap-around by a multiple of the number of pods; n values of the counter in a
row choose each of n pods once exactly when all of them are in range. -/
theorem pickers_in_range_iff (lib : SortSlice) (c : UInt64) (pods : Slice ScoredPod) (hne : pods.elems ≠ []) :
    (InRange c pods (RoundRobinPicker.pick lib ⟨c⟩ pods).1 ↔ Within pods.elems.length c.toNat) ∧
    (∀ p call, p.currentIndex = c → call.scoredPods = pods → FallsBack p call →
      (InRange c pods (KvAwarePicker.pick lib p call).1 ↔ Within pods.elems.length c.toNat)) ∧
    ((names pods.elems).Nodup → c.toNat + pods.elems.length ≤ 2 ^ 64 →
      (∀ given : Nat → Slice ScoredPod, (∀ i, (given i).elems.Perm pods.elems) →
        (EachOnce pods (fun i => (RoundRobinPicker.pick lib ⟨c + UInt64.ofNat i⟩ (given i)).1) ↔
          ∀ i < pods.elems.length, Within pods.elems.length (c.toNat + i))) ∧
      (∀ (p : Nat → KvAwarePicker) (call : Nat → Call), (∀ i, (p i).currentIndex = c + UInt64.ofNat i) →
        (∀ i, (call i).scoredPods.elems.Perm pods.elems) → (∀ i, FallsBack (p i) (call i)) →
        (EachOnce pods (fun i => ((p i).pick lib (call i)).1) ↔
          ∀ i < pods.elems.length, Within pods.elems.length (c.toNat + i)))) := by
  have hpermuted : ∀ {s : Slice ScoredPod}, s.elems.Perm pods.elems → s.elems ≠ [] :=
    fun hperm hnil => hne (List.nil_perm.mp (hnil ▸ hperm))
  refine ⟨?_, ?_, ?_⟩
  · rw [RoundRobinPicker.pick_eq lib _ hne]
    exact inRange_iff lib c hne
  · rintro p call rfl rfl hfalls
    rw [KvAwarePicker.pick_eq lib hne hfalls]
    exact inRange_iff lib p.currentIndex hne
  · intro hnames hwrap
    constructor
    · intro given hgiven
      have hpick : (fun i => (RoundRobinPicker.pick lib ⟨c + UInt64.ofNat i⟩ (given i)).1) =
          fun i => (roundRobin lib (c + UInt64.ofNat i) (given i)).map some :=
        funext (fun i => RoundRobinPicker.pick_eq lib _ (hpermuted (hgiven i)))
      rw [hpick]
      exact eachOnce_iff lib hne hnames hwrap given hgiven
    · intro p call hindex hgiven hfalls
      have hpick : (fun i => ((p i).pick lib (call i)).1) =
          fun i => (roundRobin lib (c + UInt64.ofNat i) (call i).scoredPods).map some := by
        funext i
        rw [KvAwarePicker.pick_eq lib (hpermuted (hgiven i)) (hfalls i), hindex i]
      rw [hpick]
      exact eachOnce_iff lib hne hnames hwrap (fun i => (call i).scoredPods) hgiven

def threePods : Slice ScoredPod := ⟨[podAt "c" "10.0.0.3", podAt "a" "10.0.0.1", podAt "b" "10.0.0.2"], by decide⟩

theorem threePods_in_range : InRange 5 threePods (RoundRobinPicker.pick byName ⟨5⟩ threePods).1 :=
  (pickers_in_range_iff byName 5 threePods (by decide)).1.mpr (by decide)

def unansweredCall (pods : Slice ScoredPod) : Call where
  prompt := "hello"
  scoredPods := pods
  lookup := .failed
  query _ := .failed

/-- The first counter value of the upper half: the index is -2. -/
theorem upper_half_panics :
    (RoundRobinPicker.pick byName ⟨0x8000000000000000⟩ threePods).1 = .error (.indexOutOfRange (-2) 3) ∧
    (KvAwarePicker.pick byName { newKvAwarePicker 0 with currentIndex := 0x8000000000000000 }
      (unansweredCall threePods)).1 = .error (.indexOutOfRange (-2) 3) := by
  decide

end Indices

end ProductionStack.GatewayPickers
