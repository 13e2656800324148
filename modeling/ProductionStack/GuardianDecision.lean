import Mathlib.Data.List.Induction
import ProductionStack.Guardian

namespace ProductionStack.GuardianDecision

open Runs Guardian

def AllReady (cfg : Config) (pod : Pod) : Prop :=
  ∀ t ∈ cfg.targets, ∃ s, (statuses pod).get? t = some s ∧ s.ready = some true

def SomeMissing (cfg : Config) (pod : Pod) : Prop := ∃ t ∈ cfg.targets, (statuses pod).get? t = none

def SomeRestarted (cfg : Config) (pod : Pod) : Prop := ∃ t ∈ cfg.targets, 0 < restartCount (statuses pod) t

def RequestsDelete (actions : List Action) : Prop := ∃ options, .deletePod options ∈ actions

def isDelete : Action → Bool
  | .deletePod _ => true
  | _ => false

theorem any_isDelete {actions : List Action} : actions.any isDelete = true ↔ RequestsDelete actions := by
  rw [List.any_eq_true]
  constructor
  · rintro ⟨action, hmem, hdelete⟩
    cases action with
    | deletePod options => exact ⟨options, hmem⟩
    | _ => cases hdelete
  · rintro ⟨options, hmem⟩
    exact ⟨_, hmem, rfl⟩

instance (actions : List Action) : Decidable (RequestsDelete actions) := decidable_of_iff _ any_isDelete

def Settles (actions : List Action) : Prop := .podDeleteAccepted ∈ actions ∨ .podAlreadyDeleted ∈ actions

def Stopped (mode : Mode) : Prop := mode = .recycling ∨ mode = .crashed

def ZeroBaseline (cfg : Config) (baseline : Dict String Nat) : Prop :=
  ∀ t ∈ cfg.targets, baseline.get? t = some 0

theorem sorted_eq_nil {names : List String} : sorted names = [] ↔ names = [] := by
  rw [sorted, ← List.length_eq_zero_iff, List.length_insertionSort, List.length_eq_zero_iff]

theorem mem_sorted {names : List String} {name : String} : name ∈ sorted names ↔ name ∈ names :=
  (List.perm_insertionSort _ names).mem_iff

variable {cfg : Config} {process : Process} {pre : List Observation}

theorem missing_eq_nil {pod : Pod} : missing cfg (statuses pod) = [] ↔ ¬ SomeMissing cfg pod := by
  simp only [missing, sorted_eq_nil, List.filter_eq_nil_iff, SomeMissing, Dict.contains, not_exists, not_and]
  refine forall_congr' fun t => forall_congr' fun _ => ?_
  cases (statuses pod).get? t <;> simp

theorem allReady_iff {pod : Pod} : AllReady cfg pod ↔ ¬ SomeMissing cfg pod ∧ notReady cfg (statuses pod) = [] := by
  simp only [notReady, sorted_eq_nil, List.filter_eq_nil_iff, SomeMissing, not_exists, not_and, AllReady,
    isReady]
  rw [← forall₂_and]
  refine forall_congr' fun t => forall_congr' fun _ => ?_
  cases (statuses pod).get? t with
  | none => simp
  | some s => cases hs : s.ready <;> simp [hs]

theorem restartedBeforeReady_eq_nil {pod : Pod} : restartedBeforeReady cfg (statuses pod) = [] ↔ ¬ SomeRestarted cfg pod := by
  simp only [restartedBeforeReady, List.map_eq_nil_iff, List.filter_eq_nil_iff, mem_sorted, SomeRestarted,
    not_exists, not_and, gt_iff_lt, decide_eq_true_eq]

theorem diagnoseFailures_no_delete (cfg : Config) (observed : Dict String Signature) (pod : Pod) :
    ¬ RequestsDelete (diagnoseFailures cfg observed pod).1 := by
  rintro ⟨options, h⟩
  simp only [diagnoseFailures, List.mem_append, List.mem_map] at h
  rcases h with (⟨s, -, h⟩ | ⟨s, -, h⟩) | h
  · cases h
  · cases h
  · split at h <;> simp at h

theorem requestsDelete_append {xs ys : List Action} : RequestsDelete (xs ++ ys) ↔ RequestsDelete xs ∨ RequestsDelete ys := by
  simp only [RequestsDelete, List.mem_append, exists_or]

theorem deleteSelf_requests (cfg : Config) (observed : Dict String Signature) (reason : Reason) (pod : Pod) (trigger : String)
    (reply : DeleteReply) : RequestsDelete (deleteSelf cfg observed reason pod trigger reply).1 := by
  refine ⟨⟨cfg.deleteGraceSeconds, cfg.podUid⟩, ?_⟩
  simp only [deleteSelf]
  split <;> simp

theorem deleteSelf_stopped (cfg : Config) (observed : Dict String Signature) (reason : Reason) (pod : Pod) (trigger : String)
    (reply : DeleteReply) : Stopped (deleteSelf cfg observed reason pod trigger reply).2.mode := by
  simp only [deleteSelf]
  split
  · exact .inl rfl
  · exact .inl rfl
  · exact .inr rfl
  · exact .inr rfl

theorem observe_unarmed (cfg : Config) (observed : Dict String Signature) (pod : Pod) (reply : DeleteReply) :
    (¬ AllReady cfg pod ∧ ¬ RequestsDelete (observe cfg none observed pod reply).1 ∧
      (observe cfg none observed pod reply).2.mode = .watching none) ∨
    (AllReady cfg pod ∧ SomeRestarted cfg pod ∧ RequestsDelete (observe cfg none observed pod reply).1 ∧
      Stopped (observe cfg none observed pod reply).2.mode) ∨
    (AllReady cfg pod ∧ ¬ SomeRestarted cfg pod ∧ ¬ RequestsDelete (observe cfg none observed pod reply).1 ∧
      ∃ baseline, (observe cfg none observed pod reply).2.mode = .watching (some baseline) ∧
        ZeroBaseline cfg baseline) := by
  have hdiag := diagnoseFailures_no_delete cfg observed pod
  simp only [observe, requestsDelete_append, hdiag, false_or]
  by_cases hmiss : missing cfg (statuses pod) = []
  · by_cases hready : notReady cfg (statuses pod) = []
    · have hall := allReady_iff.mpr ⟨missing_eq_nil.mp hmiss, hready⟩
      simp only [hmiss, hready, ne_eq, not_true_eq_false, if_false, hall, true_and, false_and, false_or]
      cases hre : restartedBeforeReady cfg (statuses pod) with
      | nil =>
        have hnone := restartedBeforeReady_eq_nil.mp hre
        refine .inr ⟨hnone, by simp [RequestsDelete], _, rfl, ?_⟩
        intro t ht
        rw [Dict.get?_ofList_map, if_pos ht]
        have hz : ¬ 0 < restartCount (statuses pod) t := fun h => hnone ⟨t, ht, h⟩
        exact congrArg some (Nat.eq_zero_of_not_pos hz)
      | cons trigger rest =>
        have hsome : SomeRestarted cfg pod := by
          by_contra h
          rw [restartedBeforeReady_eq_nil.mpr h] at hre
          cases hre
        exact .inl ⟨hsome, deleteSelf_requests _ _ _ _ _ _, deleteSelf_stopped _ _ _ _ _ _⟩
    · have hall : ¬ AllReady cfg pod := fun h => hready (allReady_iff.mp h).2
      simp [hmiss, hready, hall, RequestsDelete]
  · have hall : ¬ AllReady cfg pod := fun h => hmiss (missing_eq_nil.mpr (allReady_iff.mp h).1)
    simp [hmiss, hall, RequestsDelete]

theorem observe_armed (cfg : Config) {baseline : Dict String Nat} (hb : ZeroBaseline cfg baseline)
    (observed : Dict String Signature) (pod : Pod) (reply : DeleteReply) :
    ((SomeMissing cfg pod ∨ SomeRestarted cfg pod) ∧
      RequestsDelete (observe cfg (some baseline) observed pod reply).1 ∧
      Stopped (observe cfg (some baseline) observed pod reply).2.mode) ∨
    (¬ (SomeMissing cfg pod ∨ SomeRestarted cfg pod) ∧
      ¬ RequestsDelete (observe cfg (some baseline) observed pod reply).1 ∧
      (observe cfg (some baseline) observed pod reply).2.mode = .watching (some baseline)) := by
  have hdiag := diagnoseFailures_no_delete cfg observed pod
  simp only [observe, requestsDelete_append, hdiag, false_or]
  cases hmiss : missing cfg (statuses pod) with
  | cons name rest =>
    have hsome : SomeMissing cfg pod := by
      by_contra h
      rw [missing_eq_nil.mpr h] at hmiss
      cases hmiss
    exact .inl ⟨.inl hsome, deleteSelf_requests _ _ _ _ _ _, deleteSelf_stopped _ _ _ _ _ _⟩
  | nil =>
    have hnone := missing_eq_nil.mp hmiss
    dsimp only
    cases hfind : (sorted cfg.targets).find?
        (fun name => decide (restartCount (statuses pod) name > baseline.getD name 0)) with
    | some name =>
      have hmem := mem_sorted.mp (List.mem_of_find?_eq_some hfind)
      have hgt := List.find?_some hfind
      rw [decide_eq_true_eq] at hgt
      exact .inl ⟨.inr ⟨name, hmem, Nat.zero_lt_of_lt hgt⟩, deleteSelf_requests _ _ _ _ _ _,
        deleteSelf_stopped _ _ _ _ _ _⟩
    | none =>
      refine .inr ⟨?_, by simp [RequestsDelete], rfl⟩
      rintro (h | ⟨t, ht, hpos⟩)
      · exact hnone h
      · have hle := List.find?_eq_none.mp hfind t (mem_sorted.mpr ht)
        rw [decide_eq_true_eq, Dict.getD, hb t ht] at hle
        exact hle hpos

theorem deleteSelf_options {observed : Dict String Signature} {reason : Reason} {pod : Pod}
    {trigger : String} {reply : DeleteReply} {options : DeleteOptions}
    (h : .deletePod options ∈ (deleteSelf cfg observed reason pod trigger reply).1) :
    options = ⟨cfg.deleteGraceSeconds, cfg.podUid⟩ := by
  have hno : .deletePod options ∉ (diagnoseFailures cfg observed pod).1 :=
    fun hd => diagnoseFailures_no_delete cfg observed pod ⟨options, hd⟩
  simp only [deleteSelf] at h
  split at h <;> simpa [hno] using h

theorem iterate_options {input : Input} {options : DeleteOptions} (h : .deletePod options ∈ (iterate cfg process input).1) :
    options = ⟨cfg.deleteGraceSeconds, cfg.podUid⟩ := by
  rw [iterate] at h
  split at h
  · simp at h
  next baseline pod hmode hpoll =>
    split at h
    · simp at h
    · have hno : .deletePod options ∉ (diagnoseFailures cfg process.observedFailures pod).1 :=
        fun hd => diagnoseFailures_no_delete _ _ _ ⟨options, hd⟩
      simp only [observe, List.mem_append, hno, false_or] at h
      split at h
      · split at h
        · simp at h
        · split at h
          · simp at h
          · split at h
            · exact deleteSelf_options h
            · simp at h
      · split at h
        · exact deleteSelf_options h
        · split at h
          · exact deleteSelf_options h
          · simp at h
  · simp at h

structure Observation where
  containerStatuses : List ContainerStatus
  deleteReply : DeleteReply

def Observation.pod (cfg : Config) (o : Observation) : Pod := ⟨some cfg.podUid, o.containerStatuses⟩

def Observation.input (cfg : Config) (o : Observation) : Input := ⟨.pod (o.pod cfg), o.deleteReply⟩

def step (cfg : Config) : Component Process Observation (List Action) :=
  fun process o => iterate cfg process (o.input cfg)

/-- Some earlier observation was fully Ready without any restart. -/
def ArmedBefore (cfg : Config) (pre : List Observation) : Prop :=
  ∃ o ∈ pre, AllReady cfg (o.pod cfg) ∧ ¬ SomeRestarted cfg (o.pod cfg)

def Decided (cfg : Config) (pre : List Observation) : Prop :=
  ∃ actions ∈ outputs (step cfg) start pre, RequestsDelete actions

theorem step_watching (cfg : Config) {baseline : Option (Dict String Nat)} (h : process.mode = .watching baseline)
    (o : Observation) : step cfg process o = observe cfg baseline process.observedFailures (o.pod cfg) o.deleteReply := by
  simp [step, iterate, Observation.input, Observation.pod, h]

theorem step_stopped (cfg : Config) (h : Stopped process.mode) (o : Observation) : step cfg process o = ([], process) := by
  rcases h with h | h <;> simp [step, iterate, Observation.input, h]

theorem armedBefore_snoc (cfg : Config) (pre : List Observation) (o : Observation) :
    ArmedBefore cfg (pre ++ [o]) ↔
      ArmedBefore cfg pre ∨ (AllReady cfg (o.pod cfg) ∧ ¬ SomeRestarted cfg (o.pod cfg)) := by
  simp only [ArmedBefore, List.mem_append, List.mem_singleton, or_and_right, exists_or, exists_eq_left]

theorem decided_snoc (cfg : Config) (pre : List Observation) (o : Observation) :
    Decided cfg (pre ++ [o]) ↔
      Decided cfg pre ∨ RequestsDelete (step cfg (final (step cfg) start pre) o).1 := by
  simp only [Decided, outputs_append, outputs_cons, outputs_nil, List.mem_append, List.mem_singleton,
    or_and_right, exists_or, exists_eq_left]

/-- The mode of the process says whether it decided to recycle, and if not, whether it is armed. -/
structure Tracks (cfg : Config) (pre : List Observation) (mode : Mode) : Prop where
  decided : Decided cfg pre → Stopped mode
  armed : ¬ Decided cfg pre → ArmedBefore cfg pre →
    ∃ baseline, mode = .watching (some baseline) ∧ ZeroBaseline cfg baseline
  unarmed : ¬ Decided cfg pre → ¬ ArmedBefore cfg pre → mode = .watching none

theorem tracks_of_decided {mode : Mode} (hd : Decided cfg pre) (hstop : Stopped mode) : Tracks cfg pre mode :=
  ⟨fun _ => hstop, fun hn => absurd hd hn, fun hn => absurd hd hn⟩

theorem tracks_of_armed {mode : Mode} (hd : ¬ Decided cfg pre) (ha : ArmedBefore cfg pre) {baseline : Dict String Nat}
    (hmode : mode = .watching (some baseline)) (hzero : ZeroBaseline cfg baseline) : Tracks cfg pre mode :=
  ⟨fun h => absurd h hd, fun _ _ => ⟨baseline, hmode, hzero⟩, fun _ hn => absurd ha hn⟩

theorem tracks_of_unarmed {mode : Mode} (hd : ¬ Decided cfg pre)
    (ha : ¬ ArmedBefore cfg pre) (hmode : mode = .watching none) : Tracks cfg pre mode :=
  ⟨fun h => absurd h hd, fun _ h => absurd h ha, fun _ _ => hmode⟩

theorem tracks_step (h : Tracks cfg pre (final (step cfg) start pre).mode) (o : Observation) :
    (RequestsDelete (step cfg (final (step cfg) start pre) o).1 ↔ ¬ Decided cfg pre ∧
      ((¬ ArmedBefore cfg pre ∧ AllReady cfg (o.pod cfg) ∧ SomeRestarted cfg (o.pod cfg)) ∨
        (ArmedBefore cfg pre ∧ (SomeMissing cfg (o.pod cfg) ∨ SomeRestarted cfg (o.pod cfg))))) ∧
    Tracks cfg (pre ++ [o]) (step cfg (final (step cfg) start pre) o).2.mode := by
  have hdecided := decided_snoc cfg pre o
  have harmed := armedBefore_snoc cfg pre o
  by_cases hd : Decided cfg pre
  · have hstop := h.decided hd
    rw [step_stopped cfg hstop] at hdecided ⊢
    exact ⟨by simp [RequestsDelete, hd], tracks_of_decided (hdecided.mpr (.inl hd)) hstop⟩
  · by_cases ha : ArmedBefore cfg pre
    · obtain ⟨baseline, hmode, hb⟩ := h.armed hd ha
      rw [step_watching cfg hmode] at hdecided ⊢
      rcases observe_armed cfg hb (final (step cfg) start pre).observedFailures (o.pod cfg) o.deleteReply with
        ⟨hcond, hreq, hstop⟩ | ⟨hcond, hreq, hnext⟩
      · exact ⟨by simp [hreq, hd, ha, hcond], tracks_of_decided (hdecided.mpr (.inr hreq)) hstop⟩
      · refine ⟨by simp [hreq, hd, ha, hcond], tracks_of_armed ?_ (harmed.mpr (.inl ha)) hnext hb⟩
        simp [hdecided, hd, hreq]
    · have hmode := h.unarmed hd ha
      rw [step_watching cfg hmode] at hdecided ⊢
      rcases observe_unarmed cfg (final (step cfg) start pre).observedFailures (o.pod cfg) o.deleteReply with
        ⟨hall, hreq, hnext⟩ | ⟨hall, hre, hreq, hstop⟩ | ⟨hall, hre, hreq, baseline, hnext, hb⟩
      · refine ⟨by simp [hreq, ha, hall], tracks_of_unarmed ?_ ?_ hnext⟩
        · simp [hdecided, hd, hreq]
        · simp [harmed, ha, hall]
      · exact ⟨by simp [hreq, hd, ha, hall, hre], tracks_of_decided (hdecided.mpr (.inr hreq)) hstop⟩
      · refine ⟨by simp [hreq, ha, hre], tracks_of_armed ?_ (harmed.mpr (.inr ⟨hall, hre⟩)) hnext hb⟩
        simp [hdecided, hd, hreq]

theorem tracks_run (cfg : Config) (pre : List Observation) : Tracks cfg pre (final (step cfg) start pre).mode := by
  induction pre using List.reverseRecOn with
  | nil =>
    apply tracks_of_unarmed _ _ rfl
    · rintro ⟨actions, hmem, -⟩
      cases hmem
    · rintro ⟨o, hmem, -⟩
      cases hmem
  | append_singleton pre o ih =>
    rw [final_append]
    exact (tracks_step ih o).2

theorem tracks_baseline {mode : Mode} (h : Tracks cfg pre mode) {baseline : Dict String Nat}
    (hmode : mode = .watching (some baseline)) : ¬ Decided cfg pre ∧ ArmedBefore cfg pre ∧ ZeroBaseline cfg baseline := by
  have hd : ¬ Decided cfg pre := by
    intro hd
    rcases h.decided hd with hstop | hstop <;> simp [hmode] at hstop
  have ha : ArmedBefore cfg pre := by
    by_contra ha
    have hun := h.unarmed hd ha
    rw [hmode] at hun
    cases hun
  obtain ⟨recorded, hrecorded, hzero⟩ := h.armed hd ha
  rw [hmode] at hrecorded
  cases hrecorded
  exact ⟨hd, ha, hzero⟩

def Ended (mode : Mode) : Prop := ∀ baseline, mode ≠ .watching baseline

theorem iterate_ended (cfg : Config) (h : Ended process.mode) (input : Input) :
    iterate cfg process input = ([], process) := by
  rw [iterate]
  split
  next hmode _ => exact absurd hmode (h _)
  next hmode _ => exact absurd hmode (h _)
  next => rfl

theorem ended_outputs (cfg : Config) (h : Ended process.mode) (inputs : List Input) :
    ∀ actions ∈ outputs (iterate cfg) process inputs, actions = [] := by
  induction inputs with
  | nil => simp
  | cons input inputs ih =>
    intro actions hmem
    rw [outputs_cons, iterate_ended cfg h, List.mem_cons] at hmem
    rcases hmem with rfl | hmem
    · rfl
    · exact ih actions hmem

theorem foreign_uid_ends (cfg : Config) (process : Process) {pod : Pod} (reply : DeleteReply)
    (huid : pod.uid ≠ some cfg.podUid) :
    ¬ RequestsDelete (iterate cfg process ⟨.pod pod, reply⟩).1 ∧
      Ended (iterate cfg process ⟨.pod pod, reply⟩).2.mode := by
  rcases process with ⟨_ | _ | _ | _, observed⟩ <;>
    simp [iterate, huid, RequestsDelete, Ended]

theorem recycle_decision (cfg : Config) (pre : List Observation) (o : Observation) :
    (RequestsDelete (step cfg (final (step cfg) start pre) o).1 ↔ ¬ Decided cfg pre ∧
      ((¬ ArmedBefore cfg pre ∧ AllReady cfg (o.pod cfg) ∧ SomeRestarted cfg (o.pod cfg)) ∨
        (ArmedBefore cfg pre ∧ (SomeMissing cfg (o.pod cfg) ∨ SomeRestarted cfg (o.pod cfg))))) ∧
    (∀ options, .deletePod options ∈ (step cfg (final (step cfg) start pre) o).1 →
      options.uidPrecondition = cfg.podUid) ∧
    (RequestsDelete (step cfg (final (step cfg) start pre) o).1 →
      ∃ o' ∈ pre ++ [o], AllReady cfg (o'.pod cfg)) ∧
    (∀ baseline, (final (step cfg) start pre).mode = .watching (some baseline) →
      ∀ t ∈ cfg.targets, baseline.get? t = some 0) ∧
    ((∃ baseline, (final (step cfg) start pre).mode = .watching (some baseline)) ↔
      ArmedBefore cfg pre ∧ ¬ Decided cfg pre) ∧
    (∀ pod reply later, pod.uid ≠ some cfg.podUid →
      ∀ actions ∈ outputs (iterate cfg) (final (step cfg) start pre) (⟨.pod pod, reply⟩ :: later),
        ¬ RequestsDelete actions) := by
  have htracks := tracks_run cfg pre
  have hiff := (tracks_step htracks o).1
  refine ⟨hiff, ?_, ?_, ?_, ⟨?_, ?_⟩, ?_⟩
  · intro options hmem
    rw [iterate_options hmem]
  · intro hreq
    obtain ⟨-, ⟨-, hall, -⟩ | ⟨⟨o', hmem, hall, -⟩, -⟩⟩ := hiff.mp hreq
    · exact ⟨o, by simp, hall⟩
    · exact ⟨o', by simp [hmem], hall⟩
  · intro baseline hmode
    exact (tracks_baseline htracks hmode).2.2
  · rintro ⟨baseline, hmode⟩
    obtain ⟨hd, ha, -⟩ := tracks_baseline htracks hmode
    exact ⟨ha, hd⟩
  · rintro ⟨ha, hd⟩
    obtain ⟨baseline, hmode, -⟩ := htracks.armed hd ha
    exact ⟨baseline, hmode⟩
  · intro pod reply later huid actions hmem
    obtain ⟨hno, hended⟩ := foreign_uid_ends cfg (final (step cfg) start pre) reply huid
    rw [outputs_cons, List.mem_cons] at hmem
    rcases hmem with rfl | hmem
    · exact hno
    · rw [ended_outputs cfg hended later actions hmem]
      simp [RequestsDelete]

end ProductionStack.GuardianDecision
