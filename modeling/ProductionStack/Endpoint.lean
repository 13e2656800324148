import ProductionStack.Basic
import ProductionStack.Dict

namespace ProductionStack

/-- The exceptions the modelled functions raise, with the message the source gives them. -/
inductive Exc
  | zeroDivisionError
  | indexError
  | keyError (key : String)
  | typeError
  | attributeError
  | nameError
  | valueError (msg : String)
  | assertionError (msg : String)
  | importError
  | connectionError
  | overflowError
  | systemExit (code : Int)
  deriving DecidableEq, Repr

structure ModelInfo where
  id : String
  object : String
  created : Int
  ownedBy : String
  root : Option String
  parent : Option String
  isAdapter : Bool
  deriving DecidableEq, Repr

structure EndpointInfo where
  url : String
  modelNames : List String
  Id : String
  addedTimestamp : Int
  modelLabel : Option String
  sleep : Bool
  podName : Option String := none
  serviceName : Option String := none
  namespaceName : Option String := none
  modelInfo : List (String × ModelInfo) := []
  deriving DecidableEq, Repr

def urls (endpoints : List EndpointInfo) : List String := endpoints.map (·.url)

@[simp] theorem mem_urls {endpoints : List EndpointInfo} {url : String} :
    url ∈ urls endpoints ↔ ∃ e ∈ endpoints, e.url = url := List.mem_map

@[simp] theorem urls_eq_nil {endpoints : List EndpointInfo} : urls endpoints = [] ↔ endpoints = [] :=
  List.map_eq_nil_iff

end ProductionStack
