import Mathlib.Data.List.Nodup
import ProductionStack.Basic
import ProductionStack.PdCell

namespace ProductionStack.PdGpuLauncher

open PdCell

structure GpuId where
  text : String
  plain : text.toList.all (fun c => c.isAlphanum || c == '-') = true
  deriving DecidableEq

/-- What the shell makes of an arithmetic expression. An expression that is wrong only fails, one with a name
that is not set ends the script. -/
inductive Evaluation
  | number (n : Int)
  | wrong
  | unbound
  deriving DecidableEq, Repr

/-- What the script finds in its container: the lines of a file at each second after its start, the ids of the
devices that nvidia-smi lists, and the values of the expressions that are more than a number. -/
structure Container where
  lines : String → Nat → List GpuId
  runtimeGpus : List GpuId
  evaluate : List Char → Evaluation

structure Launch where
  bin : String
  deviceIds : String
  selectedUuids : List GpuId
  cudaVisibleDevices : List GpuId
  args : List String

/-- A variable that is empty counts as unset. -/
def setVariable? (env : Dict String String) (name : String) : Option String :=
  match env.get? name with
  | some text => if text = "" then none else some text
  | none => none

def required (env : Dict String String) (name : String) : Except String String :=
  match setVariable? env name with
  | some text => .ok text
  | none => .error (name ++ " is required")

def gpuFile (env : Dict String String) : String := (setVariable? env "PD_GPU_FILE").getD "/var/run/pd-gpu/gpus"

def waitSeconds (env : Dict String String) : String := (setVariable? env "PD_GPU_WAIT_SECONDS").getD "300"

/-- The value of a text in an arithmetic expression: a leading zero makes a number octal. -/
def arithmetic (c : Container) (text : List Char) : Evaluation :=
  if text ≠ [] ∧ text.all Char.isDigit then
    if text.head? = some '0' then
      if text.all (fun c => '0' ≤ c && c ≤ '7') then .number (Nat.ofDigitChars 8 text 0) else .wrong
    else .number (Nat.ofDigitChars 10 text 0)
  else c.evaluate text

/-- An expansion ends the script if it cannot be evaluated. -/
def expand : Evaluation → Except String Int
  | .number n => .ok n
  | .wrong => .error "error in expression"
  | .unbound => .error "unbound variable"

/-- A condition only fails if it is wrong. -/
def condition : Evaluation → Except String (Option Int)
  | .number n => .ok (some n)
  | .wrong => .ok none
  | .unbound => .error "unbound variable"

def awaitFile (c : Container) (file : String) (deadline : Int) (seconds : Nat) : Except String (List GpuId) :=
  if c.lines file seconds ≠ [] then .ok (c.lines file seconds)
  else if deadline ≤ seconds then .error ("timed out waiting for " ++ file)
  else awaitFile c file deadline (seconds + 1)
termination_by (deadline - seconds).toNat

/-- A field that is empty at the end is not read. -/
def readFields (text : List Char) : List (List Char) :=
  let fields := text.splitOn ','
  if fields.getLast? = some [] then fields.dropLast else fields

def checkReserved : List GpuId → List GpuId → Except String Unit
  | _, [] => .ok ()
  | seen, gpu :: gpus =>
    if gpu.text = "" then .error "empty GPU id found in reservation map"
    else if gpu ∈ seen then .error ("duplicate GPU id in reservation map: " ++ gpu.text)
    else checkReserved (gpu :: seen) gpus

def checkVisible (runtime : List GpuId) : List GpuId → Except String Unit
  | [] => .ok ()
  | gpu :: gpus =>
    if gpu.text ≠ "" ∧ gpu ∈ runtime then checkVisible runtime gpus
    else .error ("reserved GPU is not visible in this engine container: " ++ gpu.text)

/-- The loop over the indices of the engine, with those seen and the ids selected so far. -/
def select (c : Container) (reserved : List GpuId) (expectedTotal : String) (total : Option Int) :
    List (List Char) → List (List Char) → List GpuId → Except String (List GpuId)
  | [], _, selected => .ok selected
  | field :: fields, seen, selected =>
    if field = [] ∨ field.all Char.isDigit = false then .error ("invalid GPU index: " ++ String.ofList field)
    else do
      let idx ← condition (arithmetic c field)
      if idx.any (fun idx => total.any (· ≤ idx)) then
        .error ("GPU index out of reservation range: " ++ String.ofList field ++ " / total=" ++ expectedTotal)
      else if field ∈ seen then .error ("duplicate GPU index: " ++ String.ofList field)
      else
        let subscript ← expand (arithmetic c field)
        match reserved[subscript.toNat]? with
        | none => .error "RESERVED_GPUS: unbound variable"
        | some gpu => select c reserved expectedTotal total fields (field :: seen) (selected ++ [gpu])

def launch (c : Container) (env : Dict String String) (args : List String) : Except String Launch := do
  let expectedTotal ← required env "PD_GPU_TOTAL"
  let engineGpuIdx ← required env "CNTR_GPU_IDX"
  let deadline ← expand (arithmetic c (waitSeconds env).toList)
  let reserved ← awaitFile c (gpuFile env) deadline 0
  let total ← condition (arithmetic c expectedTotal.toList)
  if total.any (fun total => total ≠ (reserved.length : Int)) then
    .error ("reservation count mismatch: expected=" ++ expectedTotal ++ " actual=" ++ Nat.repr reserved.length)
  else
    checkReserved [] reserved
    checkVisible c.runtimeGpus reserved
    let fields := readFields engineGpuIdx.toList
    if fields = [] then .error "CNTR_GPU_IDX is empty"
    else
      let selected ← select c reserved expectedTotal total fields [] []
      if args.any isDeviceIds then .error "--device-ids is chart-managed for MooncakeConnector"
      else
        return {
          bin := (setVariable? env "PD_VLLM_BIN").getD "vllm"
          deviceIds := engineGpuIdx
          selectedUuids := selected
          cudaVisibleDevices := reserved
          args := args }

theorem arithmetic_toDigits (c : Container) (n : Nat) : arithmetic c (Nat.toDigits 10 n) = .number n := by
  rw [arithmetic, if_pos ⟨Nat.toDigits_ne_nil, toDigits_all n⟩]
  by_cases hn : n = 0
  · subst hn
    rfl
  · rw [if_neg (head_toDigits_ne_zero (Nat.pos_of_ne_zero hn)), Nat.ofDigitChars_ten_toDigits]

def Awaited (c : Container) (env : Dict String String) (reserved : List GpuId) : Prop :=
  ∃ deadline, arithmetic c (waitSeconds env).toList = .number deadline ∧
    ∃ second ≤ deadline.toNat, c.lines (gpuFile env) second = reserved ∧
      ∀ earlier < second, c.lines (gpuFile env) earlier = []

theorem awaitFile_eq_ok {c : Container} {file : String} {deadline : Int} {reserved : List GpuId} {second : Nat}
    (hsecond : second ≤ deadline.toNat) (hlines : c.lines file second = reserved) (hne : reserved ≠ []) {start : Nat}
    (hstart : start ≤ second) (hearlier : ∀ t, start ≤ t → t < second → c.lines file t = []) :
    awaitFile c file deadline start = .ok reserved := by
  induction hk : second - start generalizing start with
  | zero =>
    obtain rfl : start = second := by omega
    rw [awaitFile, if_pos (hlines ▸ hne), hlines]
  | succ k ih =>
    rw [awaitFile, if_neg (not_not.mpr (hearlier start le_rfl (by omega))), if_neg (by omega)]
    exact ih (by omega) (fun t ht => hearlier t (by omega)) (by omega)

theorem readFields_joinIndices {indices : List Nat} (h : indices ≠ []) :
    readFields (ModelValues.joinIndices indices).toList = indices.map (Nat.toDigits 10) := by
  have hcomma : ∀ field ∈ indices.map (Nat.toDigits 10), ',' ∉ field := by
    intro field hfield hmem
    obtain ⟨n, -, rfl⟩ := List.mem_map.mp hfield
    have hdigit := Nat.isDigit_of_mem_toDigits (by decide) (by decide) hmem
    exact absurd hdigit (by decide)
  have hsplit : (ModelValues.joinIndices indices).toList.splitOn ',' = indices.map (Nat.toDigits 10) := by
    rw [ModelValues.joinIndices, String.toList_ofList]
    exact List.splitOn_intercalate ',' hcomma (by simpa using h)
  rw [readFields, hsplit, if_neg]
  intro hlast
  have hmem := List.mem_of_getLast? hlast
  obtain ⟨n, -, hn⟩ := List.mem_map.mp hmem
  exact Nat.toDigits_ne_nil hn

theorem checkReserved_eq_ok {seen gpus : List GpuId} (hnodup : gpus.Nodup) (hnew : ∀ gpu ∈ gpus, gpu ∉ seen)
    (hids : ∀ gpu ∈ gpus, gpu.text ≠ "") : checkReserved seen gpus = .ok () := by
  induction gpus generalizing seen with
  | nil => rfl
  | cons gpu gpus ih =>
    rw [List.nodup_cons] at hnodup
    rw [List.forall_mem_cons] at hnew hids
    rw [checkReserved, if_neg hids.1, if_neg hnew.1]
    apply ih hnodup.2 _ hids.2
    intro other hother hseen
    rcases List.mem_cons.mp hseen with rfl | hseen
    · exact hnodup.1 hother
    · exact hnew.2 other hother hseen

theorem checkVisible_eq_ok {runtime gpus : List GpuId} (hvisible : ∀ gpu ∈ gpus, gpu ∈ runtime)
    (hids : ∀ gpu ∈ gpus, gpu.text ≠ "") : checkVisible runtime gpus = .ok () := by
  induction gpus with
  | nil => rfl
  | cons gpu gpus ih =>
    rw [List.forall_mem_cons] at hvisible hids
    rw [checkVisible, if_pos ⟨hids.1, hvisible.1⟩]
    exact ih hvisible.2 hids.2

def uuidsAt (reserved : List GpuId) (indices : List Nat) : List GpuId := indices.filterMap (reserved[·]?)

theorem select_eq_ok (c : Container) (expectedTotal : String) (reserved : List GpuId) {indices : List Nat}
    {seen : List (List Char)} (selected : List GpuId) (hrange : ∀ idx ∈ indices, idx < reserved.length)
    (hnodup : indices.Nodup) (hnew : ∀ idx ∈ indices, Nat.toDigits 10 idx ∉ seen) :
    select c reserved expectedTotal (some reserved.length) (indices.map (Nat.toDigits 10)) seen selected =
      .ok (selected ++ uuidsAt reserved indices) := by
  induction indices generalizing seen selected with
  | nil => simp [select, uuidsAt]
  | cons idx indices ih =>
    rw [List.forall_mem_cons] at hrange hnew
    rw [List.nodup_cons] at hnodup
    have hvalid : ¬(Nat.toDigits 10 idx = [] ∨ (Nat.toDigits 10 idx).all Char.isDigit = false) := by
      simp [Nat.toDigits_ne_nil, toDigits_all]
    obtain ⟨gpu, hget⟩ : ∃ gpu, reserved[idx]? = some gpu := ⟨_, List.getElem?_eq_getElem hrange.1⟩
    have hrest : ∀ other ∈ indices, Nat.toDigits 10 other ∉ Nat.toDigits 10 idx :: seen := by
      intro other hother hseen
      rcases List.mem_cons.mp hseen with heq | hseen
      · exact hnodup.1 (toDigits_inj heq ▸ hother)
      · exact hnew.2 other hother hseen
    rw [List.map_cons, select, if_neg hvalid, arithmetic_toDigits]
    have hbelow : ¬((some (idx : Int)).any (fun idx => (some (reserved.length : Int)).any (· ≤ idx))) = true := by
      simpa using hrange.1
    simp only [condition, expand, bind, Except.bind]
    rw [if_neg hbelow, if_neg hnew.1, Int.toNat_natCast, hget]
    dsimp only
    rw [ih (selected ++ [gpu]) hrange.2 hnodup.2 hrest, List.append_assoc]
    simp [uuidsAt, hget]

theorem required_eq_ok {env : Dict String String} {name text : String} (hget : env.get? name = some text)
    (htext : text ≠ "") : required env name = .ok text := by
  simp [required, setVariable?, hget, htext]

theorem joinIndices_ne_empty {indices : List Nat} (h : indices ≠ []) : ModelValues.joinIndices indices ≠ "" := by
  intro hempty
  have hfields := readFields_joinIndices h
  rw [hempty] at hfields
  cases indices with
  | nil => exact h rfl
  | cons idx indices => simp [readFields] at hfields

theorem launch_eq_ok {c : Container} {env : Dict String String} {args : List String} {reserved : List GpuId}
    {indices : List Nat} (hfile : Awaited c env reserved) (htotal : env.get? "PD_GPU_TOTAL" = some (Nat.repr reserved.length))
    (hidx : env.get? "CNTR_GPU_IDX" = some (ModelValues.joinIndices indices)) (hnodup : reserved.Nodup)
    (hids : ∀ gpu ∈ reserved, gpu.text ≠ "") (hvisible : ∀ gpu ∈ reserved, gpu ∈ c.runtimeGpus) (hne : indices ≠ [])
    (hrange : ∀ idx ∈ indices, idx < reserved.length) (hdistinct : indices.Nodup) (hargs : args.any isDeviceIds = false) :
    launch c env args = .ok {
      bin := (setVariable? env "PD_VLLM_BIN").getD "vllm"
      deviceIds := ModelValues.joinIndices indices
      selectedUuids := uuidsAt reserved indices
      cudaVisibleDevices := reserved
      args := args } := by
  have hreserved : reserved ≠ [] := by
    intro hnil
    obtain ⟨idx, hmem⟩ := List.exists_mem_of_ne_nil indices hne
    simpa [hnil] using hrange idx hmem
  have hnumber : arithmetic c (Nat.repr reserved.length).toList = .number reserved.length := by
    rw [Nat.toList_repr, arithmetic_toDigits]
  obtain ⟨deadline, hdeadline, second, hsecond, hlines, hearlier⟩ := hfile
  have hawait := awaitFile_eq_ok hsecond hlines hreserved (Nat.zero_le second) (fun t _ => hearlier t)
  have hselect := select_eq_ok c (Nat.repr reserved.length) reserved [] hrange hdistinct (fun _ _ => List.not_mem_nil)
  have hfields : indices.map (Nat.toDigits 10) ≠ [] := by simpa using hne
  rw [launch, required_eq_ok htotal Nat.repr_ne_empty, required_eq_ok hidx (joinIndices_ne_empty hne), hdeadline]
  simp only [bind, Except.bind, expand, condition, hawait, hnumber, Option.any_some, ne_eq, not_true_eq_false, decide_false,
    Bool.false_eq_true, if_false, checkReserved_eq_ok hnodup (fun _ _ => List.not_mem_nil) hids, checkVisible_eq_ok hvisible hids,
    readFields_joinIndices hne, if_neg hfields, hselect, hargs, List.nil_append]
  rfl

section Cell

variable (v : ModelValues)

theorem flatMap_blocks (base count width : Nat) :
    (List.range count).flatMap (fun i => (List.range width).map (base + i * width + ·)) =
      List.range' base (count * width) := by
  induction count with
  | zero => simp
  | succ count ih =>
    rw [List.range_succ, List.flatMap_append, ih, List.flatMap_singleton, ← List.range'_eq_map_range,
      List.range'_append_1, Nat.succ_mul]

theorem flatMap_gpuIndices (huse : v.useGpuReservation = true) :
    (cell v).engines.flatMap Engine.gpuIndices = List.range v.gpuReservationTotal := by
  have hprefill : (phaseEngines v .prefill).flatMap Engine.gpuIndices =
      List.range' 0 ((v.count .prefill).toNat * (v.gpuCount .prefill).toNat) := by
    rw [← flatMap_blocks, phaseEngines, List.flatMap_map]
    simp [engine, ModelValues.gpuIndices, huse, ModelValues.gpuOffset]
  have hdecode : (phaseEngines v .decode).flatMap Engine.gpuIndices =
      List.range' ((v.count .prefill).toNat * (v.gpuCount .prefill).toNat)
        ((v.count .decode).toNat * (v.gpuCount .decode).toNat) := by
    rw [← flatMap_blocks, phaseEngines, List.flatMap_map]
    simp [engine, ModelValues.gpuIndices, huse, ModelValues.gpuOffset]
  rw [cell, List.flatMap_append, hprefill, hdecode, ModelValues.gpuReservationTotal, if_pos huse,
    List.range_eq_range']
  have happend := @List.range'_append_1 0 ((v.count .prefill).toNat * (v.gpuCount .prefill).toNat)
    ((v.count .decode).toNat * (v.gpuCount .decode).toNat)
  rwa [Nat.zero_add] at happend

theorem gpuIndices_ne_nil (hvalid : v.Valid) (huse : v.useGpuReservation = true) (p : Phase) (i : Nat) :
    v.gpuIndices p i ≠ [] := by
  have hpos := hvalid.gpuCount huse p
  rw [ModelValues.gpuIndices, if_pos huse]
  simp only [ne_eq, List.map_eq_nil_iff, List.range_eq_nil, Int.toNat_eq_zero]
  omega

theorem isDeviceIds_false {arg : String} (h : 'd' ∉ arg.toList) : isDeviceIds arg = false := by
  rw [isDeviceIds, Bool.or_eq_false_iff]
  constructor
  · simp only [decide_eq_false_iff_not]
    rintro rfl
    exact h (by decide)
  · rw [Bool.eq_false_iff]
    intro hinitial
    exact h ((List.isPrefixOf_iff_prefix.mp hinitial).subset (by decide))

theorem digits_isDeviceIds (n : Nat) : 'd' ∉ (toString n).toList := by
  intro hmem
  rw [Nat.toString_eq_repr, Nat.toList_repr] at hmem
  exact absurd (Nat.isDigit_of_mem_toDigits (by decide) (by decide) hmem) (by decide)

theorem port_isDeviceIds (port : Int) : isDeviceIds (toString port) = false := by
  apply isDeviceIds_false
  cases port with
  | ofNat n => exact digits_isDeviceIds n
  | negSucc n =>
    change 'd' ∉ ("-" ++ toString (n + 1)).toList
    rw [String.toList_append, List.mem_append, not_or]
    exact ⟨by decide, digits_isDeviceIds (n + 1)⟩

structure PlainTexts : Prop where
  profile : ∀ p, isDeviceIds ((v.phase p).profile.getD "") = false
  servedNames : ∀ names, v.servedModelNames = some names → ∀ name ∈ names, isDeviceIds name = false

theorem args_isDeviceIds (hvalid : v.Valid) (huse : v.useGpuReservation = true) (htexts : PlainTexts v)
    (p : Phase) (i : Nat) : (v.args p i).any isDeviceIds = false := by
  have hserved : v.servedNameArgs.any isDeviceIds = false := by
    rw [ModelValues.servedNameArgs]
    cases hnames : v.servedModelNames with
    | none => rfl
    | some names =>
      have hnone := htexts.servedNames names hnames
      simpa [show isDeviceIds "--served-model-name" = false by decide] using hnone
  have hconfig : isDeviceIds ("\x7b" ++ v.configFields ++ "\x7d") = false := by
    simp [isDeviceIds, String.ext_iff, List.isPrefixOf]
  have hextra : ((v.phase p).extraArgs).any isDeviceIds = false := by
    simpa using hvalid.extraArgs huse p
  simp only [ModelValues.args, List.any_append, List.any_cons, List.any_nil, port_isDeviceIds, htexts.profile p,
    hconfig, hserved, hextra, Bool.or_false]
  decide

theorem engine_mem {e : Engine} (he : e ∈ (cell v).engines) : ∃ p i, e = engine v p i := by
  rcases List.mem_append.mp he with he | he
  · obtain ⟨i, -, rfl⟩ := List.mem_map.mp he
    exact ⟨.prefill, i, rfl⟩
  · obtain ⟨i, -, rfl⟩ := List.mem_map.mp he
    exact ⟨.decode, i, rfl⟩

theorem gpuEnv_mem (huse : v.useGpuReservation = true) (p : Phase) (i : Nat) :
    ("PD_GPU_TOTAL", Nat.repr v.gpuReservationTotal) ∈ v.chartEnv p i ∧
      ("CNTR_GPU_IDX", ModelValues.joinIndices (v.gpuIndices p i)) ∈ v.chartEnv p i := by
  simp [ModelValues.chartEnv, ModelValues.gpuEnv, huse]

theorem engine_env (huse : v.useGpuReservation = true) {e : Engine} (he : e ∈ (cell v).engines) :
    e.env.get? "PD_GPU_TOTAL" = some (Nat.repr v.gpuReservationTotal) ∧
      e.env.get? "CNTR_GPU_IDX" = some (ModelValues.joinIndices e.gpuIndices) := by
  obtain ⟨p, i, rfl⟩ := engine_mem v he
  obtain ⟨htotal, hidx⟩ := gpuEnv_mem v huse p i
  exact ⟨v.get?_phaseEnvMap p i htotal, v.get?_phaseEnvMap p i hidx⟩

theorem engine_indices (huse : v.useGpuReservation = true) {e : Engine} (he : e ∈ (cell v).engines) :
    (∀ idx ∈ e.gpuIndices, idx < v.gpuReservationTotal) ∧ e.gpuIndices.Nodup := by
  have hall := flatMap_gpuIndices v huse
  constructor
  · intro idx hidx
    rw [← List.mem_range, ← hall]
    exact List.mem_flatMap.mpr ⟨e, he, hidx⟩
  · have hnodup : ((cell v).engines.flatMap Engine.gpuIndices).Nodup := by
      rw [hall]
      exact List.nodup_range
    exact (List.nodup_flatMap.mp hnodup).1 e he

theorem uuidsAt_range (reserved : List GpuId) : uuidsAt reserved (List.range reserved.length) = reserved := by
  induction reserved using List.reverseRecOn with
  | nil => rfl
  | append_singleton gpus gpu ih =>
    have hsame : (List.range gpus.length).filterMap ((gpus ++ [gpu])[·]?) = uuidsAt gpus (List.range gpus.length) := by
      apply List.filterMap_congr
      intro idx hidx
      exact List.getElem?_append_left (List.mem_range.mp hidx)
    rw [uuidsAt, List.length_append, List.length_singleton, List.range_succ, List.filterMap_append, hsame, ih]
    simp

theorem flatMap_uuidsAt (huse : v.useGpuReservation = true) {reserved : List GpuId}
    (hlength : reserved.length = v.gpuReservationTotal) :
    (cell v).engines.flatMap (fun e => uuidsAt reserved e.gpuIndices) = reserved := by
  have hcollect : (cell v).engines.flatMap (fun e => uuidsAt reserved e.gpuIndices) =
      uuidsAt reserved ((cell v).engines.flatMap Engine.gpuIndices) := by
    rw [uuidsAt, List.filterMap_flatMap]
    rfl
  rw [hcollect, flatMap_gpuIndices v huse, ← hlength, uuidsAt_range]

theorem engine_launch (hvalid : v.Valid) (huse : v.useGpuReservation = true) (htexts : PlainTexts v)
    {reserved : List GpuId} (hlength : reserved.length = v.gpuReservationTotal) (hnodup : reserved.Nodup)
    (hids : ∀ gpu ∈ reserved, gpu.text ≠ "") {e : Engine} (he : e ∈ (cell v).engines) {c : Container}
    (hfile : Awaited c e.env reserved) (hvisible : ∀ gpu ∈ reserved, gpu ∈ c.runtimeGpus) :
    ∃ started, launch c e.env e.args = .ok started ∧ started.selectedUuids = uuidsAt reserved e.gpuIndices := by
  obtain ⟨htotal, hidx⟩ := engine_env v huse he
  obtain ⟨hrange, hdistinct⟩ := engine_indices v huse he
  obtain ⟨p, i, rfl⟩ := engine_mem v he
  rw [← hlength] at htotal hrange
  exact ⟨_, launch_eq_ok hfile htotal hidx hnodup hids hvisible (gpuIndices_ne_nil v hvalid huse p i) hrange
    hdistinct (args_isDeviceIds v hvalid huse htexts p i), rfl⟩

/-- The indices of the engines partition the reservation, the script accepts the list of every
engine, and what the engines select partitions the map. -/
theorem gpus_partitioned {c : Cell} (hrender : render v = .ok c) (huse : v.useGpuReservation = true) (htexts : PlainTexts v) :
    (c.engines.Pairwise (fun e e' => e.gpuIndices.Disjoint e'.gpuIndices) ∧
      (∀ idx, (∃ e ∈ c.engines, idx ∈ e.gpuIndices) ↔ idx < c.gpuTotal) ∧
      ∀ e ∈ c.engines, e.env.get? "CNTR_GPU_IDX" = some (ModelValues.joinIndices e.gpuIndices) ∧
        e.env.get? "PD_GPU_TOTAL" = some (Nat.repr c.gpuTotal)) ∧
    ∀ (reserved : List GpuId) (containers : Engine → Container),
      reserved.length = c.gpuTotal → reserved.Nodup → (∀ gpu ∈ reserved, gpu.text ≠ "") →
      (∀ e ∈ c.engines, Awaited (containers e) e.env reserved ∧
        ∀ gpu ∈ reserved, gpu ∈ (containers e).runtimeGpus) →
      ∃ selected : Engine → List GpuId,
        (∀ e ∈ c.engines, ∃ started, launch (containers e) e.env e.args = .ok started ∧
          started.selectedUuids = selected e) ∧
        c.engines.Pairwise (fun e e' => (selected e).Disjoint (selected e')) ∧
        ∀ gpu, (∃ e ∈ c.engines, gpu ∈ selected e) ↔ gpu ∈ reserved := by
  obtain ⟨hval, rfl⟩ := render_eq_ok_iff.mp hrender
  have hvalid := v.valid_of_validate hval
  have hall := flatMap_gpuIndices v huse
  refine ⟨⟨?_, ?_, ?_⟩, ?_⟩
  · have hnodup : ((cell v).engines.flatMap Engine.gpuIndices).Nodup := hall ▸ List.nodup_range
    exact (List.nodup_flatMap.mp hnodup).2
  · intro idx
    rw [← List.mem_flatMap, hall]
    exact List.mem_range
  · intro e he
    exact (engine_env v huse he).symm
  · intro reserved containers hlength hnodup hids hcontainers
    have hselected := flatMap_uuidsAt v huse hlength
    refine ⟨fun e => uuidsAt reserved e.gpuIndices, ?_, ?_, ?_⟩
    · intro e he
      exact engine_launch v hvalid huse htexts hlength hnodup hids he (hcontainers e he).1 (hcontainers e he).2
    · rw [← hselected] at hnodup
      exact (List.nodup_flatMap.mp hnodup).2
    · intro gpu
      rw [← List.mem_flatMap, hselected]

end Cell

def sixGpus : List GpuId :=
  [⟨"GPU-8a1f", by decide⟩, ⟨"GPU-c03e", by decide⟩, ⟨"GPU-17b2", by decide⟩, ⟨"GPU-905d", by decide⟩,
    ⟨"GPU-e644", by decide⟩, ⟨"GPU-2fc9", by decide⟩]

def pairedModel : ModelValues :=
  { nixlModel with
    prefill := { nixlModel.prefill with count := some 2, requestGPU := some 2 }
    decode := { nixlModel.decode with requestGPU := some 2 } }

/-- The map is written in the third second. -/
def lateContainer : Container := ⟨fun _ second => if second < 3 then [] else sixGpus, sixGpus, fun _ => .wrong⟩

theorem pairedModel_plainTexts : PlainTexts pairedModel := by
  constructor
  · intro p
    cases p <;> decide
  · intro names hnames
    cases hnames

theorem pairedModel_partitioned :
    render pairedModel = .ok (cell pairedModel) ∧
    ∃ selected : Engine → List GpuId,
      (∀ e ∈ (cell pairedModel).engines, ∃ started,
        launch lateContainer e.env e.args = .ok started ∧ started.selectedUuids = selected e) ∧
      (cell pairedModel).engines.Pairwise (fun e e' => (selected e).Disjoint (selected e')) ∧
      ∀ gpu, (∃ e ∈ (cell pairedModel).engines, gpu ∈ selected e) ↔ gpu ∈ sixGpus := by
  have hrender : render pairedModel = .ok (cell pairedModel) := render_eq_ok_iff.mpr ⟨by decide, rfl⟩
  refine ⟨hrender, ?_⟩
  apply (gpus_partitioned pairedModel hrender (by decide) pairedModel_plainTexts).2 sixGpus (fun _ => lateContainer) rfl
    (by decide) (by decide)
  intro e he
  refine ⟨⟨300, ?_, 3, by decide, rfl, ?_⟩, fun _ h => h⟩
  · have hunset : ∀ e ∈ (cell pairedModel).engines, setVariable? e.env "PD_GPU_WAIT_SECONDS" = none := by decide
    rw [waitSeconds, hunset e he]
    rfl
  · intro earlier hearlier
    exact if_pos hearlier

end ProductionStack.PdGpuLauncher
