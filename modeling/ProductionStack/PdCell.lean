import Mathlib.Algebra.Group.Nat.Defs
import Mathlib.Data.List.Range
import ProductionStack.Dict

namespace ProductionStack.PdCell

/-- The template's default: a number that is missing or zero is replaced. -/
def orDefault (fallback : Int) (value : Option Int) : Int :=
  if value.getD 0 = 0 then fallback else value.getD 0

def orText (fallback : String) (value : Option String) : String :=
  if value.getD "" = "" then fallback else value.getD ""

/-- The template's numbers have 64 bits, and its add and mul go around. -/
def int64 (a : Int) : Int := a.bmod (2 ^ 64)

def add64 (a b : Int) : Int := (a + b).bmod (2 ^ 64)

def mul64 (a b : Int) : Int := (a * b).bmod (2 ^ 64)

def contains (part text : String) : Bool := text.toList.tails.any (part.toList.isPrefixOf ·)

structure PhaseValues where
  count : Option Int := none
  profile : Option String := none
  portBase : Option Int := none
  internalPortBase : Option Int := none
  internalPortStride : Option Int := none
  internalPortMode : Option String := none
  dpMasterPortBase : Option Int := none
  sideChannelPortBase : Option Int := none
  sideChannelPortStride : Option Int := none
  requestGPU : Option Int := none
  requestGPUType : Option String := none
  command : List String := []
  extraArgs : List String := []
  env : List (String × String) := []

/-- A key that is there with no value counts as zero. -/
structure RouterValues where
  port : Option Int := none
  prometheusPort : Option Int := none

structure KvTransferValues where
  connector : Option String := none
  bootstrapPortBase : Option Int := none
  abortRequestTimeout : Option Int := none
  nixlSideChannelEnabled : Option Bool := none
  sideChannelHost : Option String := none
  ucxTls : Option String := none
  ucxNetDevices : Option String := none

/-- One model of a cell: `env` is the environment common to all its engines, and `configFields`
what is between the braces of the transfer configuration of a phase. -/
structure ModelValues where
  name : String
  repository : String
  servedModelNames : Option (List String) := none
  env : List (String × String) := []
  configFields : String := ""
  prefill : PhaseValues
  decode : PhaseValues
  router : RouterValues := {}
  kvTransfer : KvTransferValues

inductive Phase
  | prefill
  | decode
  deriving DecidableEq, Repr

inductive InternalPortMode
  | vllm
  | dp
  | auto
  deriving DecidableEq, Repr

inductive RouterKvConnector
  | mooncake
  | nixl
  | moriio
  deriving DecidableEq, Repr

def Phase.label : Phase → String
  | .prefill => "prefill"
  | .decode => "decode"

def internalPortMode? (text : String) : Option InternalPortMode :=
  if text = "vllm" then some .vllm
  else if text = "dp" then some .dp
  else if text = "auto" then some .auto
  else none

def routerKvConnector? (connector : String) : Option RouterKvConnector :=
  if contains "Mooncake" connector then some .mooncake
  else if contains "Nixl" connector then some .nixl
  else if contains "Mori" connector || contains "MoRI" connector then some .moriio
  else none

def isDeviceIds (arg : String) : Bool := arg = "--device-ids" || "--device-ids=".toList.isPrefixOf arg.toList

namespace ModelValues

variable (v : ModelValues)

def phase : Phase → PhaseValues
  | .prefill => v.prefill
  | .decode => v.decode

def count (p : Phase) : Int := (v.phase p).count.getD 0

def gpuCount (p : Phase) : Int := (v.phase p).requestGPU.getD 0

def connector : String := v.kvTransfer.connector.getD ""

def isMooncakeConnector : Bool := v.connector = "MooncakeConnector"

def isNixlConnector : Bool := contains "Nixl" v.connector

def useGpuReservation : Bool := v.isMooncakeConnector || v.isNixlConnector

def modeText (p : Phase) : String := orText "vllm" (v.phase p).internalPortMode

def mode (p : Phase) : InternalPortMode := (internalPortMode? (v.modeText p)).getD .auto

def sideChannelStride (p : Phase) : Int := orDefault 1 (v.phase p).sideChannelPortStride

def nixlSideChannelEnabled : Bool :=
  v.kvTransfer.nixlSideChannelEnabled.getD
    (v.connector ∈ ["NixlConnector", "NixlPullConnector", "NixlPushConnector"])

def gpuType (p : Phase) : String := orText "nvidia.com/gpu" (v.phase p).requestGPUType

def commandAllowed (p : Phase) : Bool :=
  match (v.phase p).command with
  | [] => true
  | [_, sub] => sub = "serve"
  | _ => false

/-- What the template refuses of these fields, in its order. A check of the shared reservation holds when
there is none. Nothing else depends on the fields of the other checks: the tag, replicaCount, the
router's image and removed keys, hostPID, the names of volumes and mooncake_protocol. -/
def checks : List (Bool × String) :=
  [ (v.servedModelNames.all (fun names => names.all (· ≠ "")), "servedModelNames must not contain an empty name"),
    (v.servedModelNames ≠ some [], "servedModelNames must contain at least one name when explicitly configured"),
    (v.repository ≠ "", "repository is required"),
    (v.prefill.count.isSome, "prefill.count is required"),
    (v.decode.count.isSome, "decode.count is required"),
    (1 ≤ v.count .prefill, "prefill.count must be >= 1"),
    (1 ≤ v.count .decode, "decode.count must be >= 1"),
    (v.prefill.profile.getD "" ≠ "", "prefill.profile is required"),
    (v.decode.profile.getD "" ≠ "", "decode.profile is required"),
    (1 ≤ v.sideChannelStride .prefill, "prefill.sideChannelPortStride must be >= 1"),
    (1 ≤ v.sideChannelStride .decode, "decode.sideChannelPortStride must be >= 1"),
    ((internalPortMode? (v.modeText .prefill)).isSome, "prefill.internalPortMode must be vllm, dp, or auto"),
    ((internalPortMode? (v.modeText .decode)).isSome, "decode.internalPortMode must be vllm, dp, or auto"),
    (v.connector ≠ "", "models[].kvTransfer.connector is required"),
    (v.prefill.requestGPU.isSome, "prefill.requestGPU is required"),
    (v.decode.requestGPU.isSome, "decode.requestGPU is required"),
    (!v.useGpuReservation || v.gpuType .prefill = "nvidia.com/gpu",
      "shared GPU reservation requires requestGPUType=nvidia.com/gpu; MIG/time-slicing/shared GPU resources are not supported"),
    (!v.useGpuReservation || 1 ≤ v.gpuCount .prefill, "shared GPU reservation prefill.requestGPU must be >= 1"),
    (!v.useGpuReservation || 1 ≤ v.gpuCount .decode, "shared GPU reservation decode.requestGPU must be >= 1"),
    (!v.useGpuReservation || v.gpuType .prefill = v.gpuType .decode,
      "shared GPU reservation prefill/decode requestGPUType must match because one pod-local reservation owns the full GPU set"),
    (!v.useGpuReservation || v.prefill.extraArgs.all (!isDeviceIds ·),
      "prefill --device-ids is chart-managed for shared GPU reservation"),
    (!v.useGpuReservation || v.decode.extraArgs.all (!isDeviceIds ·),
      "decode --device-ids is chart-managed for shared GPU reservation"),
    (!v.useGpuReservation || v.commandAllowed .prefill,
      "shared GPU reservation prefill.command may only be [<vllm-binary>, serve]; the chart owns the GPU launcher"),
    (!v.useGpuReservation || v.commandAllowed .decode,
      "shared GPU reservation decode.command may only be [<vllm-binary>, serve]; the chart owns the GPU launcher"),
    (!v.isNixlConnector || v.kvTransfer.nixlSideChannelEnabled.getD true,
      "nixlSideChannelEnabled=false is invalid for a NIXL connector; each engine requires a unique NIXL side-channel endpoint"),
    ((routerKvConnector? v.connector).isSome,
      "connector " ++ v.connector ++ " is not supported by the fixed vllm-router P/D contract; " ++
        "supported router backends are nixl, mooncake, and moriio (engine-version compatibility still applies)") ]

def validate : Except String Unit :=
  match v.checks.find? (fun check => !check.1) with
  | some check => .error ("pdCellSpec model " ++ v.name ++ ": " ++ check.2)
  | none => .ok ()

theorem validate_eq_ok_iff : v.validate = .ok () ↔ ∀ check ∈ v.checks, check.1 = true := by
  rw [validate]
  cases hfind : v.checks.find? (fun check => !check.1) with
  | none => simpa using hfind
  | some check =>
    have hmem := List.mem_of_find?_eq_some hfind
    have hfalse := List.find?_eq_some_iff_append.mp hfind
    simp only [reduceCtorEq, false_iff, not_forall]
    exact ⟨check, hmem, by simpa using hfalse.1⟩

structure Valid : Prop where
  count : ∀ p, 1 ≤ v.count p
  gpuCount : v.useGpuReservation = true → ∀ p, 1 ≤ v.gpuCount p
  extraArgs : v.useGpuReservation = true → ∀ p, ∀ arg ∈ (v.phase p).extraArgs, isDeviceIds arg = false

theorem valid_of_validate (h : v.validate = .ok ()) : v.Valid := by
  simp only [validate_eq_ok_iff, checks, List.forall_mem_cons, decide_eq_true_eq, Bool.or_eq_true,
    Bool.not_eq_true', List.all_eq_true] at h
  obtain ⟨-, -, -, -, -, hpc, hdc, -, -, -, -, -, -, -, -, -, -, hpg, hdg, -, hpa, hda, -⟩ := h
  refine ⟨?_, ?_, ?_⟩
  · intro p
    cases p <;> assumption
  · intro huse p
    cases p
    · exact hpg.resolve_left (by simp [huse])
    · exact hdg.resolve_left (by simp [huse])
  · intro huse p
    cases p
    · exact hpa.resolve_left (by simp [huse])
    · exact hda.resolve_left (by simp [huse])

variable (p : Phase) (i : Nat)

def portBase : Int :=
  match p with
  | .prefill => orDefault 8101 v.prefill.portBase
  | .decode => orDefault 8201 v.decode.portBase

def internalPortBase : Int :=
  match p with
  | .prefill => orDefault 20000 v.prefill.internalPortBase
  | .decode => orDefault 30000 v.decode.internalPortBase

def internalPortStride : Int := orDefault 100 (v.phase p).internalPortStride

def dpMasterPortBase : Int :=
  match p with
  | .prefill => orDefault 24000 v.prefill.dpMasterPortBase
  | .decode => orDefault 34000 v.decode.dpMasterPortBase

def sideChannelPortBase : Int :=
  match p with
  | .prefill => orDefault 5600 v.prefill.sideChannelPortBase
  | .decode => orDefault 5700 v.decode.sideChannelPortBase

def bootstrapPortBase : Int := orDefault 9001 v.kvTransfer.bootstrapPortBase

def routerPort : Int := int64 (orDefault 8000 v.router.port)

def routerPrometheusPort : Int := int64 (v.router.prometheusPort.getD 29000)

def routerKvConnector : RouterKvConnector := (routerKvConnector? v.connector).getD .moriio

def enginePort : Int := add64 (v.portBase p) i

/-- The variable that gives an engine its internal port, in the modes that have one. -/
def internalPort : Option (String × Int) :=
  match v.mode p with
  | .vllm => some ("VLLM_PORT", add64 (v.internalPortBase p) (mul64 (v.internalPortStride p) i))
  | .dp => some ("VLLM_DP_MASTER_PORT", add64 (v.dpMasterPortBase p) i)
  | .auto => none

def sideChannelPort : Option Int :=
  if v.nixlSideChannelEnabled then some (add64 (v.sideChannelPortBase p) (mul64 (v.sideChannelStride p) i))
  else none

/-- Only the prefill engines are told a bootstrap port. -/
def bootstrapPort : Option Int :=
  match p with
  | .prefill => if v.routerKvConnector = .mooncake then some (add64 v.bootstrapPortBase i) else none
  | .decode => none

/-- Every index below the total is written out, so these sums are far from 64 bits. -/
def gpuReservationTotal : Nat :=
  if v.useGpuReservation then
    (v.count .prefill).toNat * (v.gpuCount .prefill).toNat + (v.count .decode).toNat * (v.gpuCount .decode).toNat
  else 0

def gpuOffset : Nat :=
  match p with
  | .prefill => i * (v.gpuCount .prefill).toNat
  | .decode => (v.count .prefill).toNat * (v.gpuCount .prefill).toNat + i * (v.gpuCount .decode).toNat

def gpuIndices : List Nat :=
  if v.useGpuReservation then (List.range (v.gpuCount p).toNat).map (v.gpuOffset p i + ·) else []

def defaultBin : String := if v.repository = "lmcache/vllm-openai" then "/opt/venv/bin/vllm" else "vllm"

def vllmBin : String := (v.phase p).command.headD v.defaultBin

def joinIndices (indices : List Nat) : String :=
  String.ofList ([','].intercalate (indices.map (Nat.toDigits 10)))

def internalEnv : List (String × String) := (v.internalPort p i).toList.map (fun e => (e.1, toString e.2))

def setUnlessEmpty (name : String) (value : Option String) : List (String × String) :=
  if value.getD "" = "" then [] else [(name, value.getD "")]

def sideChannelEnv : List (String × String) :=
  match v.sideChannelPort p i with
  | none => []
  | some port =>
    [("VLLM_NIXL_SIDE_CHANNEL_PORT", toString port),
      ("VLLM_NIXL_SIDE_CHANNEL_HOST", orText "localhost" v.kvTransfer.sideChannelHost)] ++
    (setUnlessEmpty "UCX_TLS" v.kvTransfer.ucxTls ++ setUnlessEmpty "UCX_NET_DEVICES" v.kvTransfer.ucxNetDevices)

def mooncakeEnv : List (String × String) :=
  (v.bootstrapPort p i).toList.map (fun port => ("VLLM_MOONCAKE_BOOTSTRAP_PORT", toString port)) ++
  (if v.routerKvConnector = .mooncake then
    [("VLLM_MOONCAKE_ABORT_REQUEST_TIMEOUT", toString (orDefault 600 v.kvTransfer.abortRequestTimeout))] else [])

def gpuEnv : List (String × String) :=
  if v.useGpuReservation then
    [("NVIDIA_VISIBLE_DEVICES", "all"), ("PD_GPU_TOTAL", Nat.repr v.gpuReservationTotal),
      ("CNTR_GPU_IDX", joinIndices (v.gpuIndices p i)), ("PD_VLLM_BIN", v.vllmBin p)]
  else []

/-- What the chart sets after the variables of the user. -/
def chartEnv : List (String × String) :=
  v.internalEnv p i ++ v.sideChannelEnv p i ++ v.mooncakeEnv p i ++ v.gpuEnv p i ++
    [("PROMETHEUS_MULTIPROC_DIR", "/tmp")]

def phaseEnvMap : Dict String String :=
  (v.chartEnv p i).foldl (fun env e => env.set e.1 e.2) (Dict.ofList (v.env ++ (v.phase p).env))

def command : List String :=
  if v.useGpuReservation then ["/bin/bash", "/opt/pd-cell-gpu/launch-vllm.sh"]
  else if (v.phase p).command = [] then [v.defaultBin, "serve"]
  else (v.phase p).command

def servedNameArgs : List String :=
  match v.servedModelNames with
  | none => []
  | some names => "--served-model-name" :: names.eraseDups

def args : List String :=
  ["--host", "0.0.0.0", "--port", toString (v.enginePort p i), "--config", (v.phase p).profile.getD ""] ++
  v.servedNameArgs ++ ["--kv-transfer-config", "\x7b" ++ v.configFields ++ "\x7d"] ++ (v.phase p).extraArgs

theorem setUnlessEmpty_keys (name : String) (value : Option String) :
    ((setUnlessEmpty name value).map Prod.fst).Sublist [name] := by
  rw [setUnlessEmpty]
  split_ifs <;> simp

theorem chartEnv_nodup : ((v.chartEnv p i).map Prod.fst).Nodup := by
  have hinternal : ((v.internalEnv p i).map Prod.fst).Sublist ["VLLM_PORT", "VLLM_DP_MASTER_PORT"] := by
    rw [internalEnv, internalPort]
    cases v.mode p <;> simp
  have hside : ((v.sideChannelEnv p i).map Prod.fst).Sublist
      ["VLLM_NIXL_SIDE_CHANNEL_PORT", "VLLM_NIXL_SIDE_CHANNEL_HOST", "UCX_TLS", "UCX_NET_DEVICES"] := by
    rw [sideChannelEnv]
    cases v.sideChannelPort p i with
    | none => simp
    | some port =>
      simp only [List.map_append]
      exact (List.Sublist.refl ["VLLM_NIXL_SIDE_CHANNEL_PORT", "VLLM_NIXL_SIDE_CHANNEL_HOST"]).append
        ((setUnlessEmpty_keys "UCX_TLS" _).append (setUnlessEmpty_keys "UCX_NET_DEVICES" _))
  have hmooncake : ((v.mooncakeEnv p i).map Prod.fst).Sublist
      ["VLLM_MOONCAKE_BOOTSTRAP_PORT", "VLLM_MOONCAKE_ABORT_REQUEST_TIMEOUT"] := by
    rw [mooncakeEnv]
    cases v.bootstrapPort p i <;> split_ifs <;> simp
  have hgpu : ((v.gpuEnv p i).map Prod.fst).Sublist
      ["NVIDIA_VISIBLE_DEVICES", "PD_GPU_TOTAL", "CNTR_GPU_IDX", "PD_VLLM_BIN"] := by
    rw [gpuEnv]
    split_ifs <;> simp
  simp only [chartEnv, List.map_append]
  refine List.Nodup.sublist ((((hinternal.append hside).append hmooncake).append hgpu).append
    (List.Sublist.refl ["PROMETHEUS_MULTIPROC_DIR"])) ?_
  decide

theorem get?_phaseEnvMap {name text : String} (h : (name, text) ∈ v.chartEnv p i) :
    (v.phaseEnvMap p i).get? name = some text := by
  have hchart := (⟨v.chartEnv p i, v.chartEnv_nodup p i⟩ : Dict String String).get?_of_mem h
  rw [Dict.get?] at hchart
  rw [phaseEnvMap, Dict.get?_foldl_set_entries _ (v.chartEnv_nodup p i), hchart]
  rfl

end ModelValues

structure Engine where
  phase : Phase
  index : Nat
  command : List String
  args : List String
  env : Dict String String
  httpPort : Int
  internalPort : Option Int
  sideChannelPort : Option Int
  bootstrapPort : Option Int
  gpuIndices : List Nat

def Engine.ports (e : Engine) : List Int :=
  e.httpPort :: (e.bootstrapPort.toList ++ e.sideChannelPort.toList ++ e.internalPort.toList)

structure Cell where
  routerPort : Int
  prometheusPort : Option Int
  gpuTotal : Nat
  engines : List Engine

/-- All containers of the pod are in one network namespace. -/
def Cell.ports (c : Cell) : List Int :=
  c.routerPort :: (c.prometheusPort.toList ++ c.engines.flatMap Engine.ports)

def engine (v : ModelValues) (p : Phase) (i : Nat) : Engine where
  phase := p
  index := i
  command := v.command p
  args := v.args p i
  env := v.phaseEnvMap p i
  httpPort := v.enginePort p i
  internalPort := (v.internalPort p i).map Prod.snd
  sideChannelPort := v.sideChannelPort p i
  bootstrapPort := v.bootstrapPort p i
  gpuIndices := v.gpuIndices p i

def phaseEngines (v : ModelValues) (p : Phase) : List Engine := (List.range (v.count p).toNat).map (engine v p)

def cell (v : ModelValues) : Cell where
  routerPort := v.routerPort
  prometheusPort := if 0 < v.routerPrometheusPort then some v.routerPrometheusPort else none
  gpuTotal := v.gpuReservationTotal
  engines := phaseEngines v .prefill ++ phaseEngines v .decode

def render (v : ModelValues) : Except String Cell :=
  match v.validate with
  | .error text => .error text
  | .ok () => .ok (cell v)

theorem render_eq_ok_iff {v : ModelValues} {c : Cell} : render v = .ok c ↔ v.validate = .ok () ∧ c = cell v := by
  rw [render]
  cases hval : v.validate with
  | error text => simp
  | ok _ => simp [eq_comm]

def nixlModel : ModelValues where
  name := "llama"
  repository := "vllm/vllm-openai"
  prefill := { count := some 1, profile := some "/profiles/prefill.yaml", requestGPU := some 1 }
  decode := { count := some 1, profile := some "/profiles/decode.yaml", requestGPU := some 1 }
  kvTransfer := { connector := some "NixlConnector" }

theorem render_nixlModel : render nixlModel = .ok (cell nixlModel) :=
  render_eq_ok_iff.mpr ⟨by decide, rfl⟩

end ProductionStack.PdCell
