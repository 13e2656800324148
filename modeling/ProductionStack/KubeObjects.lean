import Mathlib.Data.Finmap
import ProductionStack.Basic
import ProductionStack.Dict

namespace ProductionStack.KubeObjects

inductive Panic
  | mustParse (text : String)
  | indexOutOfRange
  | nilPointer
  | message (text : String)
  deriving DecidableEq, Repr

theorem differs_eq_false {differs : Prop} [Decidable differs] {rest : Except Panic Bool} :
    (if differs then .ok true else rest) = .ok false ↔ ¬differs ∧ rest = .ok false := by
  by_cases h : differs <;> simp [h]

theorem differs_isOk {differs : Prop} [Decidable differs] {rest : Except Panic Bool} :
    (∃ stale, (if differs then .ok true else rest) = .ok stale) ↔ (¬differs → ∃ stale, rest = .ok stale) := by
  by_cases h : differs <;> simp [h]

/-- resource.Quantity: `text` is the canonical form. One number has several representations,
and parsing the text of one of them may give another. -/
structure QuantityFormat (Quantity : Type) where
  parse : String → Option Quantity
  text : Quantity → String
  zero : Quantity
  parse_text : ∀ q, ∃ q', parse (text q) = some q' ∧ text q' = text q
  text_zero : text zero = "0"
  half : (parse "0.5").isSome
  mebi : (parse "128Mi").isSome

structure SecretKeySelector where
  name : String
  key : String
  deriving DecidableEq, Repr

structure EnvVar where
  name : String
  value : String := ""
  valueFrom : Option SecretKeySelector := none
  deriving DecidableEq, Repr

structure ContainerPort where
  name : String
  containerPort : Int
  deriving DecidableEq, Repr

structure VolumeMount where
  name : String
  mountPath : String
  deriving DecidableEq, Repr

structure Volume where
  name : String
  claimName : String
  deriving DecidableEq, Repr

structure Probe where
  path : String
  port : Int
  scheme : String := ""
  initialDelaySeconds : Nat
  periodSeconds : Nat
  timeoutSeconds : Nat := 0
  successThreshold : Nat := 0
  failureThreshold : Nat
  deriving DecidableEq, Repr

structure NodeSelectorRequirement where
  key : String
  operator : String
  values : List String
  deriving DecidableEq, Repr

structure NodeSelectorTerm where
  matchExpressions : List NodeSelectorRequirement
  matchFields : List NodeSelectorRequirement
  deriving DecidableEq, Repr

inductive IntOrString
  | int (value : Int)
  | string (text : String)
  deriving DecidableEq, Repr

def digits : List Char → Option Nat
  | [] => none
  | cs => cs.foldl (fun n c => if c.isDigit then n.map (fun n => 10 * n + (c.toNat - 48)) else none) (some 0)

/-- strconv.Atoi with the error dropped. -/
def atoi (text : String) : Int :=
  match text.toList with
  | '-' :: cs => -(((digits cs).getD 0 : Nat) : Int)
  | '+' :: cs => ((digits cs).getD 0 : Nat)
  | cs => ((digits cs).getD 0 : Nat)

def IntOrString.intValue : IntOrString → Int
  | .int value => value
  | .string text => atoi text

structure ServicePort where
  name : String
  port : Int
  targetPort : IntOrString
  protocol : String
  deriving DecidableEq, Repr

structure Service where
  name : String
  namespaceName : String
  type : String
  selector : Dict String String
  ports : List ServicePort

section Objects

variable (Quantity : Type)

/-- A map: two of them with the same entries are equal. -/
abbrev ResourceList := Finmap (fun _ : String => Quantity)

/-- A map that is nil differs from an empty one. -/
structure ResourceRequirements where
  requests : Option (ResourceList Quantity)
  limits : Option (ResourceList Quantity)
  deriving DecidableEq

structure Container where
  name : String
  image : String
  imagePullPolicy : String
  command : List String := []
  args : List String := []
  env : List EnvVar := []
  ports : List ContainerPort := []
  resources : ResourceRequirements Quantity
  volumeMounts : List VolumeMount := []
  readinessProbe : Option Probe := none
  startupProbe : Option Probe := none
  livenessProbe : Option Probe := none

structure Deployment where
  name : String
  namespaceName : String
  replicas : Option Int
  strategy : String := ""
  matchLabels : Dict String String
  templateLabels : Dict String String
  serviceAccountName : String := ""
  imagePullSecrets : List String := []
  volumes : List Volume := []
  nodeSelectorTerms : Option (List NodeSelectorTerm) := none
  containers : List (Container Quantity)

structure PersistentVolumeClaim where
  name : String
  namespaceName : String
  labels : Dict String String
  accessModes : List String
  requests : ResourceList Quantity
  storageClassName : Option String := none

end Objects

structure ResourceSpec where
  cpu : String := ""
  memory : String := ""
  gpu : String := ""
  deriving DecidableEq, Repr

structure ImageSpec where
  registry : String
  name : String
  pullPolicy : String := ""
  pullSecretName : String := ""
  deriving DecidableEq, Repr

structure EnvSpec where
  name : String
  value : String
  deriving DecidableEq, Repr

def EnvSpec.var (e : EnvSpec) : EnvVar := { name := e.name, value := e.value }

def ImageSpec.reference (image : ImageSpec) : String := image.registry ++ "/" ++ image.name

def ImageSpec.policy (image : ImageSpec) : String :=
  if image.pullPolicy = "" then "IfNotPresent" else image.pullPolicy

def ImageSpec.pullSecrets (image : ImageSpec) : List String :=
  if image.pullSecretName = "" then [] else [image.pullSecretName]

def textFlag (flag value : String) : List String := if value = "" then [] else [flag, value]

def objectLabels (name : String) (labels : Dict String String) : Dict String String :=
  labels.entries.foldl (fun ls e => ls.set e.1 e.2) (Dict.ofList [("app", name)])

theorem get?_objectLabels (name : String) (labels : Dict String String) (key : String) :
    (objectLabels name labels).get? key = (labels.get? key).or (if key = "app" then some name else none) := by
  have happ : (Dict.ofList [("app", name)]).get? key = if key = "app" then some name else none := by
    rw [Dict.ofList, List.foldl_cons, List.foldl_nil, Dict.get?_set, Dict.get?_empty]
  rw [objectLabels, Dict.get?_foldl_set_entries _ labels.nodup, happ]
  rfl

section Quantities

variable {Quantity : Type} (fmt : QuantityFormat Quantity)

def mustParse (text : String) : Except Panic Quantity :=
  match fmt.parse text with
  | some q => .ok q
  | none => .error (.mustParse text)

def noResources : ResourceRequirements Quantity := ⟨some ∅, some ∅⟩

def addResource (name text : String) (r : ResourceRequirements Quantity) :
    Except Panic (ResourceRequirements Quantity) :=
  if text = "" then .ok r
  else do
    let q ← mustParse fmt text
    return ⟨r.requests.map (·.insert name q), r.limits.map (·.insert name q)⟩

/-- The router and the cache server have no GPUs. -/
def cpuAndMemory (spec : ResourceSpec) : Except Panic (ResourceRequirements Quantity) := do
  let r ← addResource fmt "cpu" spec.cpu noResources
  addResource fmt "memory" spec.memory r

variable {fmt}

theorem mustParse_eq_ok {text : String} {q : Quantity} : mustParse fmt text = .ok q ↔ fmt.parse text = some q := by
  rw [mustParse]
  cases fmt.parse text <;> simp

theorem addResource_isOk {name text : String} {r : ResourceRequirements Quantity} :
    (∃ r', addResource fmt name text r = .ok r') ↔ (text ≠ "" → (fmt.parse text).isSome) := by
  rw [addResource]
  by_cases htext : text = ""
  · simp [htext]
  · simp only [htext, if_false, ne_eq, not_false_eq_true, true_implies, mustParse]
    cases fmt.parse text with
    | none => simp [bind, Except.bind]
    | some q => simp [bind, Except.bind, pure, Except.pure]

end Quantities

end ProductionStack.KubeObjects
