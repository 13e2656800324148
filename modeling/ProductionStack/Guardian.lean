import Mathlib.Data.List.Sort
import Mathlib.Data.List.Dedup
import Mathlib.Data.String.Basic
import ProductionStack.Dict
import ProductionStack.Runs

namespace ProductionStack.Guardian

open Runs

structure Terminated where
  containerID : Option String := none
  exitCode : Int
  signal : Option Int := none
  reason : Option String := none
  message : Option String := none
  startedAt : Option String := none
  finishedAt : Option String := none
  deriving DecidableEq, Repr

structure Waiting where
  reason : Option String := none
  message : Option String := none
  deriving DecidableEq, Repr

structure ContainerState where
  terminated : Option Terminated := none
  waiting : Option Waiting := none
  deriving DecidableEq, Repr

structure ContainerStatus where
  name : String
  ready : Option Bool := none
  restartCount : Option Nat := none
  state : ContainerState := {}
  lastState : ContainerState := {}
  deriving DecidableEq, Repr

structure Pod where
  uid : Option String
  containerStatuses : List ContainerStatus

/-- The environment of one guardian container. The targets are a set, and a
process without any exits before its first poll. -/
structure Config where
  podUid : String
  targets : List String
  targets_nodup : targets.Nodup
  targets_ne_nil : targets ≠ []
  deleteGraceSeconds : Int := 5

def parseTargets (env : String) : List String :=
  (((env.toList.splitOn ',').map String.ofList).filter (· ≠ "")).dedup

def Config.ofEnv (podUid env : String) (deleteGraceSeconds : Int) : Option Config :=
  if h : parseTargets env ≠ [] then
    some ⟨podUid, parseTargets env, List.nodup_dedup _, h, deleteGraceSeconds⟩
  else none

def sorted (names : List String) : List String := names.insertionSort (· ≤ ·)

inductive TerminationSource
  | state
  | lastState
  deriving DecidableEq, Repr

structure Signature where
  restartCount : Nat
  terminated : Option Terminated
  waiting : Option Waiting
  deriving DecidableEq, Repr

structure DeleteOptions where
  gracePeriodSeconds : Int
  uidPrecondition : String
  deriving DecidableEq, Repr

inductive Reason
  | restartedBeforeReady (counts : List (String × Nat))
  | disappeared (missing : List String)
  | restarted (name : String) (baseline restartCount : Nat)
  deriving DecidableEq, Repr

/-- The requests to the API server other than the poll itself, and the audit events. -/
inductive Action
  | containerFailureDetected (container : String) (signature : Signature) (source : Option TerminationSource)
  | captureLogs (container : String) (previous : Bool)
  | captureEvents
  | recycleRequested (reason : Reason) (triggerContainer : String)
  | deletePod (options : DeleteOptions)
  | podDeleteAccepted
  | podAlreadyDeleted
  | podDeleteFailed (code : Nat)
  | guardianArmed (baseline : List (String × Nat))
  | podMissingFromApi
  | podUidChanged (observed : Option String)
  deriving DecidableEq, Repr

inductive Poll
  | pod (pod : Pod)
  | httpError (code : Nat)
  | error

inductive DeleteReply
  | accepted
  | httpError (code : Nat)
  | error

/-- What the API server answers in one iteration of the loop; the reply to a
DELETE matters only if one is requested. -/
structure Input where
  poll : Poll
  deleteReply : DeleteReply

inductive Mode
  | watching (baseline : Option (Dict String Nat))
  | recycling
  | exited
  | crashed

structure Process where
  mode : Mode
  observedFailures : Dict String Signature

def start : Process := ⟨.watching none, .empty⟩

def statuses (pod : Pod) : Dict String ContainerStatus :=
  .ofList (pod.containerStatuses.map (fun s => (s.name, s)))

def isReady (current : Dict String ContainerStatus) (name : String) : Bool :=
  ((current.get? name).bind (·.ready)).getD false

def restartCount (current : Dict String ContainerStatus) (name : String) : Nat :=
  ((current.get? name).bind (·.restartCount)).getD 0

def terminationDetails (status : ContainerStatus) : Option TerminationSource × Option Terminated :=
  match status.state.terminated, status.lastState.terminated with
  | some t, _ => (some .state, some t)
  | none, some t => (some .lastState, some t)
  | none, none => (none, none)

def signatureOf (status : ContainerStatus) : Signature :=
  let terminated := (terminationDetails status).2
  ⟨status.restartCount.getD 0, terminated, if terminated.isSome then none else status.state.waiting⟩

def isFailure (status : ContainerStatus) : Bool :=
  (terminationDetails status).2.isSome || status.restartCount.getD 0 ≠ 0 ||
    (status.state.waiting.bind (·.reason)) = some "CrashLoopBackOff"

def newFailures (observed : Dict String Signature) :
    List ContainerStatus → List ContainerStatus × Dict String Signature
  | [] => ([], observed)
  | status :: rest =>
    if isFailure status && observed.get? status.name ≠ some (signatureOf status) then
      let (failures, observed) := newFailures (observed.set status.name (signatureOf status)) rest
      (status :: failures, observed)
    else newFailures observed rest

/-- A currently terminated instance still has current logs; after a restart
the previous instance is the one that failed. -/
def diagnoseFailures (cfg : Config) (observed : Dict String Signature) (pod : Pod) :
    List Action × Dict String Signature :=
  let current := (statuses pod).values.insertionSort (fun a b => a.name ≤ b.name)
  let (failures, observed) := newFailures observed (current.filter (fun s => s.name ∈ cfg.targets))
  (failures.map (fun s => .containerFailureDetected s.name (signatureOf s) (terminationDetails s).1) ++
    failures.map (fun s => .captureLogs s.name ((terminationDetails s).1 ≠ some .state)) ++
    (if failures = [] then [] else [.captureEvents]), observed)

/-- This function does not return to the loop: it sleeps for ever or raises. -/
def deleteSelf (cfg : Config) (observed : Dict String Signature) (reason : Reason) (pod : Pod)
    (triggerContainer : String) (reply : DeleteReply) : List Action × Process :=
  let (diagnosed, observed) := diagnoseFailures cfg observed pod
  let requested := diagnosed ++ [.recycleRequested reason triggerContainer,
    .deletePod ⟨cfg.deleteGraceSeconds, cfg.podUid⟩]
  match reply with
  | .accepted => (requested ++ [.podDeleteAccepted], ⟨.recycling, observed⟩)
  | .httpError 404 => (requested ++ [.podAlreadyDeleted], ⟨.recycling, observed⟩)
  | .httpError code => (requested ++ [.podDeleteFailed code], ⟨.crashed, observed⟩)
  | .error => (requested, ⟨.crashed, observed⟩)

def missing (cfg : Config) (current : Dict String ContainerStatus) : List String :=
  sorted (cfg.targets.filter (fun name => !current.contains name))

def notReady (cfg : Config) (current : Dict String ContainerStatus) : List String :=
  sorted (cfg.targets.filter (fun name => !isReady current name))

def restartedBeforeReady (cfg : Config) (current : Dict String ContainerStatus) : List (String × Nat) :=
  ((sorted cfg.targets).filter (fun name => restartCount current name > 0)).map
    (fun name => (name, restartCount current name))

def observe (cfg : Config) (baseline : Option (Dict String Nat)) (observed : Dict String Signature)
    (pod : Pod) (reply : DeleteReply) : List Action × Process :=
  let current := statuses pod
  let (diagnosed, observed) := diagnoseFailures cfg observed pod
  let (actions, process) := match baseline with
    | none =>
      if missing cfg current ≠ [] then ([], ⟨.watching none, observed⟩)
      else if notReady cfg current ≠ [] then ([], ⟨.watching none, observed⟩)
      else
        match restartedBeforeReady cfg current with
        | trigger :: rest =>
          deleteSelf cfg observed (.restartedBeforeReady (trigger :: rest)) pod trigger.1 reply
        | [] =>
          let baseline := cfg.targets.map (fun name => (name, restartCount current name))
          ([.guardianArmed baseline], ⟨.watching (some (.ofList baseline)), observed⟩)
    | some baseline =>
      match missing cfg current with
      | name :: rest => deleteSelf cfg observed (.disappeared (name :: rest)) pod name reply
      | [] =>
        match (sorted cfg.targets).find? (fun name => restartCount current name > baseline.getD name 0) with
        | some name =>
          deleteSelf cfg observed (.restarted name (baseline.getD name 0) (restartCount current name))
            pod name reply
        | none => ([], ⟨.watching (some baseline), observed⟩)
  (diagnosed ++ actions, process)

/-- One iteration of the loop. A process that sleeps, exited or crashed does not poll any more. -/
def iterate (cfg : Config) : Component Process Input (List Action) := fun process input =>
  match process.mode, input.poll with
  | .watching _, .httpError 404 => ([.podMissingFromApi], { process with mode := .exited })
  | .watching baseline, .pod pod =>
    if pod.uid ≠ some cfg.podUid then ([.podUidChanged pod.uid], { process with mode := .exited })
    else observe cfg baseline process.observedFailures pod input.deleteReply
  | _, _ => ([], process)

end ProductionStack.Guardian
