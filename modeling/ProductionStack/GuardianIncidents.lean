import ProductionStack.Changes
import ProductionStack.Guardian

namespace ProductionStack.Guardian

open Changes

structure Record where
  containerID : Option String
  finishedAt : Option String
  deriving DecidableEq, Repr

def Terminated.record (t : Terminated) : Record := ⟨t.containerID, t.finishedAt⟩

def Signature.shows (record : Record) (signature : Signature) : Bool :=
  signature.terminated.map Terminated.record = some record

def diagnosed (cfg : Config) (observed : Dict String Signature) : List Pod → List Action
  | [] => []
  | pod :: pods => (diagnoseFailures cfg observed pod).1 ++ diagnosed cfg (diagnoseFailures cfg observed pod).2 pods

def reports (name : String) (record : Record) : Action → Bool
  | .containerFailureDetected container signature _ => container = name && signature.shows record
  | _ => false

def incidents (cfg : Config) (name : String) (pods : List Pod) (record : Record) : Nat :=
  (diagnosed cfg start.observedFailures pods).countP (reports name record)

def statusesOf (name : String) (pods : List Pod) : List ContainerStatus :=
  pods.filterMap (fun pod => (statuses pod).get? name)

def signaturesOf (name : String) (current : List ContainerStatus) : List Signature :=
  ((current.filter (fun s => s.name = name)).filter isFailure).map signatureOf

def shown (name : String) (pods : List Pod) : List Signature := ((statusesOf name pods).filter isFailure).map signatureOf

section Call

variable {name : String} {observed : Dict String Signature} {status : ContainerStatus} {rest : List ContainerStatus}

theorem newFailures_cons_new (hfailure : isFailure status = true) (hnew : observed.get? status.name ≠ some (signatureOf status)) :
    newFailures observed (status :: rest) =
      (status :: (newFailures (observed.set status.name (signatureOf status)) rest).1,
        (newFailures (observed.set status.name (signatureOf status)) rest).2) := by
  rw [newFailures, if_pos (by simp [hfailure, hnew])]

theorem newFailures_cons_old (h : isFailure status = false ∨ observed.get? status.name = some (signatureOf status)) :
    newFailures observed (status :: rest) = newFailures observed rest := by
  rw [newFailures, if_neg]
  rcases h with h | h <;> simp [h]

theorem signaturesOf_cons_failure (hname : status.name = name) (hfailure : isFailure status = true) :
    signaturesOf name (status :: rest) = signatureOf status :: signaturesOf name rest := by
  rw [signaturesOf, List.filter_cons_of_pos (by simpa using hname), List.filter_cons_of_pos hfailure, List.map_cons]
  rfl

theorem signaturesOf_cons_other (h : status.name ≠ name ∨ isFailure status = false) :
    signaturesOf name (status :: rest) = signaturesOf name rest := by
  rw [signaturesOf, List.filter_cons]
  split
  next hname =>
    have hfailure : isFailure status = false := h.resolve_left (fun hne => hne (of_decide_eq_true hname))
    rw [List.filter_cons_of_neg (by simp [hfailure])]
    rfl
  next => rfl

theorem newFailures_changes (name : String) (observed : Dict String Signature) (current : List ContainerStatus) :
    ((newFailures observed current).1.filter (fun s => s.name = name)).map signatureOf =
        changes (observed.get? name) (signaturesOf name current) ∧
      (newFailures observed current).2.get? name = (signaturesOf name current).getLast?.or (observed.get? name) := by
  induction current generalizing observed with
  | nil => exact ⟨rfl, rfl⟩
  | cons status rest ih =>
    by_cases hold : isFailure status = false ∨ observed.get? status.name = some (signatureOf status)
    · rw [newFailures_cons_old hold, (ih observed).1, (ih observed).2]
      by_cases hname : status.name = name
      · rcases hold with hfailure | hsame
        · rw [signaturesOf_cons_other (.inr hfailure)]
          exact ⟨rfl, rfl⟩
        · cases hfailure : isFailure status with
          | false =>
            rw [signaturesOf_cons_other (.inr hfailure)]
            exact ⟨rfl, rfl⟩
          | true =>
            rw [hname] at hsame
            rw [signaturesOf_cons_failure hname hfailure, hsame, changes_self, List.getLast?_cons]
            refine ⟨rfl, ?_⟩
            cases (signaturesOf name rest).getLast? <;> rfl
      · rw [signaturesOf_cons_other (.inl hname)]
        exact ⟨rfl, rfl⟩
    · rw [not_or, Bool.not_eq_false] at hold
      rw [newFailures_cons_new hold.1 hold.2]
      by_cases hname : status.name = name
      · rw [hname] at hold
        rw [signaturesOf_cons_failure hname hold.1, changes_of_ne hold.2, List.filter_cons_of_pos (by simpa using hname),
          List.map_cons, (ih _).1, (ih _).2, hname, Dict.get?_set_self, List.getLast?_cons]
        refine ⟨rfl, ?_⟩
        cases (signaturesOf name rest).getLast? <;> rfl
      · rw [signaturesOf_cons_other (.inl hname), List.filter_cons_of_neg (by simpa using hname), (ih _).1, (ih _).2,
          Dict.get?_set_of_ne _ _ (Ne.symm hname)]
        exact ⟨rfl, rfl⟩

theorem values_filter_name (pod : Pod) (name : String) :
    (statuses pod).values.filter (fun s => s.name = name) = ((statuses pod).get? name).toList := by
  have hkeys : ∀ e ∈ (statuses pod).entries, e.1 = e.2.name := by
    intro e he
    obtain ⟨status, -, heq⟩ := List.mem_map.mp (Dict.mem_of_mem_ofList he)
    rw [← congrArg Prod.fst heq, ← congrArg Prod.snd heq]
  have hfilter : (statuses pod).entries.filter (fun e => e.2.name = name) = (statuses pod).entries.filter (fun e => e.1 = name) :=
    List.filter_congr (fun e he => by rw [hkeys e he])
  rw [Dict.values, List.filter_map, Function.comp_def, hfilter, (statuses pod).entries_filter_key]
  cases (statuses pod).get? name <;> rfl

theorem eq_toList_of_perm {α : Type} {l : List α} {o : Option α} (h : l.Perm o.toList) : l = o.toList := by
  cases o with
  | none => exact List.perm_nil.mp h
  | some a => exact List.perm_singleton.mp h

def targeted (cfg : Config) (pod : Pod) : List ContainerStatus :=
  ((statuses pod).values.insertionSort (fun a b => a.name ≤ b.name)).filter (fun s => s.name ∈ cfg.targets)

theorem signaturesOf_targeted {cfg : Config} (hname : name ∈ cfg.targets) (pod : Pod) :
    signaturesOf name (targeted cfg pod) = (((statuses pod).get? name).toList.filter isFailure).map signatureOf := by
  have hone : (targeted cfg pod).filter (fun s => s.name = name) = ((statuses pod).get? name).toList := by
    apply eq_toList_of_perm
    rw [← values_filter_name, targeted, List.filter_filter]
    have hsame : ∀ s : ContainerStatus, (decide (s.name = name) && decide (s.name ∈ cfg.targets)) = decide (s.name = name) := by
      intro s
      by_cases hs : s.name = name
      · simp [hs, hname]
      · simp [hs]
    simp only [hsame]
    exact (List.perm_insertionSort _ _).filter _
  rw [signaturesOf, hone]

theorem countP_reports (name : String) (record : Record) (failures : List ContainerStatus) (last : List Action)
    (hlast : ∀ a ∈ last, reports name record a = false) :
    (failures.map (fun s => Action.containerFailureDetected s.name (signatureOf s) (terminationDetails s).1) ++
        failures.map (fun s => Action.captureLogs s.name ((terminationDetails s).1 ≠ some .state)) ++ last).countP
        (reports name record) =
      ((failures.filter (fun s => s.name = name)).map signatureOf).countP (Signature.shows record) := by
  have hlogs : (failures.map (fun s => Action.captureLogs s.name ((terminationDetails s).1 ≠ some .state))).countP
      (reports name record) = 0 := by
    rw [List.countP_map]
    exact List.countP_eq_zero.mpr (fun s _ => Bool.false_ne_true)
  have hrest : last.countP (reports name record) = 0 := List.countP_eq_zero.mpr (fun a ha => by simp [hlast a ha])
  rw [List.countP_append, List.countP_append, hlogs, hrest, Nat.add_zero, List.countP_map, List.countP_map,
    List.countP_filter]
  refine List.countP_congr (fun s _ => ?_)
  simp [reports, Bool.and_comm]

variable {cfg : Config}

theorem diagnoseFailures_changes (hname : name ∈ cfg.targets) (observed : Dict String Signature) (pod : Pod) (record : Record) :
    (diagnoseFailures cfg observed pod).1.countP (reports name record) =
        (changes (observed.get? name) ((((statuses pod).get? name).toList.filter isFailure).map signatureOf)).countP
          (Signature.shows record) ∧
      (diagnoseFailures cfg observed pod).2.get? name =
        ((((statuses pod).get? name).toList.filter isFailure).map signatureOf).getLast?.or (observed.get? name) := by
  obtain ⟨hchanges, hobserved⟩ := newFailures_changes name observed (targeted cfg pod)
  rw [signaturesOf_targeted hname] at hchanges hobserved
  refine ⟨?_, hobserved⟩
  rw [← hchanges]
  refine countP_reports name record _ _ ?_
  intro a ha
  split at ha
  · cases ha
  · cases List.mem_singleton.mp ha
    rfl

theorem diagnosed_changes (hname : name ∈ cfg.targets) (observed : Dict String Signature) (pods : List Pod) (record : Record) :
    (diagnosed cfg observed pods).countP (reports name record) =
      (changes (observed.get? name) (shown name pods)).countP (Signature.shows record) := by
  induction pods generalizing observed with
  | nil => rfl
  | cons pod pods ih =>
    obtain ⟨hcall, hobserved⟩ := diagnoseFailures_changes hname observed pod record
    have hshown : shown name (pod :: pods) =
        (((statuses pod).get? name).toList.filter isFailure).map signatureOf ++ shown name pods := by
      rw [shown, shown, statusesOf, List.filterMap_cons]
      cases (statuses pod).get? name with
      | none => rfl
      | some status => cases hfailure : isFailure status <;> simp [hfailure, statusesOf]
    rw [diagnosed, List.countP_append, hcall, ih, hobserved, hshown, changes_append, List.countP_append]

end Call

section Incidents

def ContainerState.ended (state : ContainerState) (record : Record) : Prop :=
  state.terminated.map Terminated.record = some record

def ContainerStatus.has (status : ContainerStatus) (record : Record) : Prop :=
  status.state.ended record ∨ status.lastState.ended record

/-- The record is first seen under state.terminated and later under lastState.terminated, with a restart between. -/
def Moved (name : String) (pods : List Pod) (record : Record) : Prop :=
  ∃ before ended after restarted, statusesOf name pods = before ++ ended :: after ∧ (∀ s ∈ before, ¬ s.has record) ∧
    ended.state.ended record ∧ restarted ∈ after ∧ restarted.lastState.ended record ∧
    ended.restartCount.getD 0 < restarted.restartCount.getD 0

structure OneIncidentEach (cfg : Config) (name : String) (pods : List Pod) : Prop where
  moved : ∀ record, Moved name pods record → incidents cfg name pods record = 1
  reported : ∀ record, (∃ s ∈ statusesOf name pods, s.has record) → 1 ≤ incidents cfg name pods record

/-- Under lastState a record counts only while there is none under state. -/
def ContainerStatus.displays (status : ContainerStatus) (record : Record) : Prop :=
  status.state.ended record ∨ status.state.terminated = none ∧ status.lastState.ended record

/-- The polls that display the record do so with one restart count and the same fields, and so does every failing one
between two of them. -/
structure DisplayedAlike (name : String) (pods : List Pod) (record : Record) : Prop where
  same : ∀ a ∈ statusesOf name pods, ∀ b ∈ statusesOf name pods, a.displays record → b.displays record →
    a.restartCount.getD 0 = b.restartCount.getD 0 ∧ (terminationDetails a).2 = (terminationDetails b).2
  between : ∀ a b c, [a, b, c].Sublist (statusesOf name pods) → a.displays record → c.displays record →
    isFailure b = true → b.displays record

variable {cfg : Config} {name : String} {pods : List Pod} {record : Record}

theorem start_unobserved (name : String) (record : Record) : ∀ signature, start.observedFailures.get? name = some signature →
    Signature.shows record signature = false := by
  intro signature h
  cases h

theorem shows_signatureOf {status : ContainerStatus} : (signatureOf status).shows record = true ↔ status.displays record := by
  cases hstate : status.state.terminated <;> cases hlast : status.lastState.terminated <;>
    simp [Signature.shows, signatureOf, terminationDetails, ContainerStatus.displays, ContainerState.ended, hstate, hlast]

theorem isSome_of_displays {status : ContainerStatus} (h : status.displays record) :
    (terminationDetails status).2.isSome = true := by
  obtain ⟨t, ht, -⟩ := Option.map_eq_some_iff.mp (of_decide_eq_true (shows_signatureOf.mpr h))
  exact Option.isSome_of_eq_some ht

theorem isFailure_of_displays {status : ContainerStatus} (h : status.displays record) : isFailure status = true := by
  rw [isFailure, isSome_of_displays h, Bool.true_or, Bool.true_or]

theorem mem_shown {signature : Signature} :
    signature ∈ shown name pods ↔ ∃ s ∈ statusesOf name pods, isFailure s = true ∧ signatureOf s = signature := by
  simp [shown, and_assoc]

theorem exists_shows_iff : (∃ signature ∈ shown name pods, signature.shows record = true) ↔
    ∃ s ∈ statusesOf name pods, s.displays record := by
  constructor
  · rintro ⟨_, hmem, hshows⟩
    obtain ⟨s, hs, -, rfl⟩ := mem_shown.mp hmem
    exact ⟨s, hs, shows_signatureOf.mp hshows⟩
  · rintro ⟨s, hs, hdisplays⟩
    exact ⟨_, mem_shown.mpr ⟨s, hs, isFailure_of_displays hdisplays, rfl⟩, shows_signatureOf.mpr hdisplays⟩

theorem signatureOf_eq_iff {a b : ContainerStatus} (ha : a.displays record) (hb : b.displays record) :
    signatureOf a = signatureOf b ↔
      a.restartCount.getD 0 = b.restartCount.getD 0 ∧ (terminationDetails a).2 = (terminationDetails b).2 := by
  simp [signatureOf, isSome_of_displays ha, isSome_of_displays hb]

theorem oneRun_shown_iff (hsome : ∃ s ∈ statusesOf name pods, s.displays record) :
    OneRun (Signature.shows record) (shown name pods) ↔ DisplayedAlike name pods record := by
  have hmem : ∀ s ∈ statusesOf name pods, s.displays record → signatureOf s ∈ shown name pods :=
    fun s hs hdisplays => mem_shown.mpr ⟨s, hs, isFailure_of_displays hdisplays, rfl⟩
  constructor
  · intro h
    refine ⟨fun a ha b hb hda hdb => (signatureOf_eq_iff hda hdb).mp ?_, fun a b c hsub hda hdc hfailure => ?_⟩
    · exact h.same _ (hmem a ha hda) _ (hmem b hb hdb) (shows_signatureOf.mpr hda) (shows_signatureOf.mpr hdb)
    · have hfilter := hsub.filter isFailure
      simp only [List.filter_cons, isFailure_of_displays hda, hfailure, isFailure_of_displays hdc, if_true, List.filter_nil]
        at hfilter
      exact shows_signatureOf.mp
        (h.between _ _ _ (hfilter.map signatureOf) (shows_signatureOf.mpr hda) (shows_signatureOf.mpr hdc))
  · intro h
    refine ⟨exists_shows_iff.mpr hsome, fun x hx y hy hpx hpy => ?_, fun x y z hsub hpx hpz => ?_⟩
    · obtain ⟨a, ha, -, rfl⟩ := mem_shown.mp hx
      obtain ⟨b, hb, -, rfl⟩ := mem_shown.mp hy
      have hda := shows_signatureOf.mp hpx
      have hdb := shows_signatureOf.mp hpy
      exact (signatureOf_eq_iff hda hdb).mpr (h.same a ha b hb hda hdb)
    · obtain ⟨l, hl, heq⟩ := List.sublist_map_iff.mp hsub
      obtain ⟨a, b, c, rfl⟩ := List.length_eq_three.mp (by simpa using congrArg List.length heq.symm : l.length = 3)
      cases heq
      have hfailure : isFailure b = true := (List.mem_filter.mp (hl.subset (by simp))).2
      exact shows_signatureOf.mpr (h.between a b c (hl.trans List.filter_sublist) (shows_signatureOf.mp hpx)
        (shows_signatureOf.mp hpz) hfailure)

theorem incidents_eq_one_iff (hname : name ∈ cfg.targets) (hsome : ∃ s ∈ statusesOf name pods, s.displays record) :
    incidents cfg name pods record = 1 ↔ DisplayedAlike name pods record := by
  rw [incidents, diagnosed_changes hname, countP_changes_eq_one_iff (start_unobserved name record), oneRun_shown_iff hsome]

theorem incidents_pos_iff (hname : name ∈ cfg.targets) :
    1 ≤ incidents cfg name pods record ↔ ∃ s ∈ statusesOf name pods, s.displays record := by
  have hzero := countP_changes_eq_zero_iff (start_unobserved name record) (shown name pods)
  rw [incidents, diagnosed_changes hname, Nat.one_le_iff_ne_zero, ne_eq, hzero, ← exists_shows_iff]
  simp

theorem Moved.displays (h : Moved name pods record) : ∃ s ∈ statusesOf name pods, s.displays record := by
  obtain ⟨before, ended, after, -, hsplit, -, hended, -⟩ := h
  exact ⟨ended, by simp [hsplit], .inl hended⟩

/-- Each termination is one incident exactly when the polls that display a record which moves display it alike, and every
record is displayed by some poll. -/
theorem one_incident_each_iff (hname : name ∈ cfg.targets) (pods : List Pod) :
    OneIncidentEach cfg name pods ↔
      (∀ record, Moved name pods record → DisplayedAlike name pods record) ∧
        ∀ record, (∃ s ∈ statusesOf name pods, s.has record) → ∃ s ∈ statusesOf name pods, s.displays record := by
  constructor
  · rintro ⟨hmoved, hreported⟩
    exact ⟨fun record h => (incidents_eq_one_iff hname h.displays).mp (hmoved record h),
      fun record h => (incidents_pos_iff hname).mp (hreported record h)⟩
  · rintro ⟨hmoved, hreported⟩
    exact ⟨fun record h => (incidents_eq_one_iff hname h.displays).mpr (hmoved record h),
      fun record h => (incidents_pos_iff hname).mpr (hreported record h)⟩

end Incidents

section Polls

theorem decode_nodup : ["decode-0"].Nodup := by decide

theorem decode_ne_nil : ["decode-0"] ≠ [] := by decide

def decodeCell : Config := ⟨"uid", ["decode-0"], decode_nodup, decode_ne_nil, 5⟩

def ended (containerID finishedAt : String) : Terminated :=
  { containerID := some containerID, exitCode := 137, finishedAt := some finishedAt }

def firstEnd : Terminated := ended "containerd://a" "2024-01-01T00:00:00Z"

def secondEnd : Terminated := ended "containerd://b" "2024-01-01T00:01:00Z"

def decodeStatus (restartCount : Nat) (terminated last : Option Terminated) : ContainerStatus :=
  { name := "decode-0", restartCount := some restartCount, state := { terminated := terminated }
    lastState := { terminated := last } }

def decodePoll (restartCount : Nat) (terminated last : Option Terminated) : Pod :=
  ⟨some "uid", [decodeStatus restartCount terminated last]⟩

/-- The container has ended again before the next poll. -/
theorem one_incident_each_crash_loop :
    OneIncidentEach decodeCell "decode-0" [decodePoll 0 (some firstEnd) none, decodePoll 1 (some secondEnd) (some firstEnd)] := by
  let polls := [decodeStatus 0 (some firstEnd) none, decodeStatus 1 (some secondEnd) (some firstEnd)]
  have hpolls : statusesOf "decode-0" [decodePoll 0 (some firstEnd) none, decodePoll 1 (some secondEnd) (some firstEnd)] =
    polls := by decide
  have hdisplays : ∀ record, ∀ s ∈ polls, s.displays record → s.state.ended record := by
    rintro record s hs (hstate | ⟨hnone, -⟩)
    · exact hstate
    · rcases List.mem_pair.mp hs with rfl | rfl <;> cases hnone
  refine (one_incident_each_iff (by decide) _).mpr ⟨fun record _ => ⟨?_, ?_⟩, ?_⟩ <;> rw [hpolls]
  · intro a ha b hb hda hdb
    have hsame := (hdisplays record a ha hda).trans (hdisplays record b hb hdb).symm
    rcases List.mem_pair.mp ha with rfl | rfl <;> rcases List.mem_pair.mp hb with rfl | rfl
    · exact ⟨rfl, rfl⟩
    · exact absurd hsame (by decide)
    · exact absurd hsame (by decide)
    · exact ⟨rfl, rfl⟩
  · intro a b c hsub
    exact absurd hsub.length_le (Nat.not_succ_le_self 2)
  · rintro record ⟨s, hs, hhas⟩
    rcases List.mem_pair.mp hs with rfl | rfl
    · rcases hhas with hstate | hlast
      · exact ⟨_, hs, .inl hstate⟩
      · cases hlast
    · rcases hhas with hstate | hlast
      · exact ⟨_, hs, .inl hstate⟩
      · exact ⟨decodeStatus 0 (some firstEnd) none, by decide, .inl hlast⟩

/-- The container runs again at the next poll. -/
theorem restart_reported_twice :
    Moved "decode-0" [decodePoll 0 (some firstEnd) none, decodePoll 1 none (some firstEnd)] firstEnd.record ∧
      incidents decodeCell "decode-0" [decodePoll 0 (some firstEnd) none, decodePoll 1 none (some firstEnd)] firstEnd.record = 2 ∧
      ¬ OneIncidentEach decodeCell "decode-0" [decodePoll 0 (some firstEnd) none, decodePoll 1 none (some firstEnd)] := by
  have hmoved : Moved "decode-0" [decodePoll 0 (some firstEnd) none, decodePoll 1 none (some firstEnd)] firstEnd.record :=
    ⟨[], decodeStatus 0 (some firstEnd) none, [decodeStatus 1 none (some firstEnd)],
      decodeStatus 1 none (some firstEnd), by decide, List.forall_mem_nil _, rfl, List.mem_cons_self, rfl, by decide⟩
  have htwice : incidents decodeCell "decode-0" [decodePoll 0 (some firstEnd) none, decodePoll 1 none (some firstEnd)]
      firstEnd.record = 2 := by decide
  refine ⟨hmoved, htwice, ?_⟩
  intro h
  have hone := h.moved _ hmoved
  rw [htwice] at hone
  cases hone

end Polls

end ProductionStack.Guardian
