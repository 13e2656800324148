import ProductionStack.GuardianDecision

namespace ProductionStack.GuardianRestart

open Runs Guardian GuardianDecision

/-- The guardian container over its process generations: the kubelet may start
a new process at any time, and nothing of the old one's memory survives. -/
inductive Event
  | poll (input : Input)
  | restart

def container (cfg : Config) : Component Process Event (List Action)
  | process, .poll input => iterate cfg process input
  | _, .restart => ([], start)

def Polling (mode : Mode) : Prop := ∃ baseline, mode = .watching baseline

def ArmedAtZero (cfg : Config) (mode : Mode) : Prop :=
  ∀ baseline, mode = .watching (some baseline) → ZeroBaseline cfg baseline

def Unarmed (mode : Mode) : Prop := ∀ baseline, mode ≠ .watching (some baseline)

theorem stopped_unarmed {mode : Mode} (h : Stopped mode) : Unarmed mode := by
  intro baseline hmode
  rcases h with h | h <;> simp [hmode] at h

variable (cfg : Config)

theorem container_watching {process : Process} {baseline : Option (Dict String Nat)}
    (h : process.mode = .watching baseline) (q : Observation) :
    container cfg process (.poll (q.input cfg)) =
      observe cfg baseline process.observedFailures (q.pod cfg) q.deleteReply :=
  step_watching cfg h q

theorem iterate_cases (process : Process) (input : Input) :
    (iterate cfg process input).2.mode = process.mode ∨ (iterate cfg process input).2.mode = .exited ∨
      ∃ baseline, ∃ q : Observation, process.mode = .watching baseline ∧ input = q.input cfg := by
  rcases process with ⟨baseline | _ | _ | _, observed⟩
  · rcases input with ⟨⟨uid, containerStatuses⟩ | code | _, reply⟩
    · by_cases huid : uid = some cfg.podUid
      · subst huid
        exact .inr (.inr ⟨baseline, ⟨containerStatuses, reply⟩, rfl, rfl⟩)
      · exact .inr (.inl (by simp [iterate, huid]))
    · by_cases hcode : code = 404
      · subst hcode
        exact .inr (.inl rfl)
      · refine .inl ?_
        rw [iterate]
        split <;> simp_all
    · exact .inl rfl
  · exact .inl rfl
  · exact .inl rfl
  · exact .inl rfl

theorem container_mode {process : Process} (h : ArmedAtZero cfg process.mode) (event : Event) :
    (container cfg process event).2.mode = process.mode ∨ Unarmed (container cfg process event).2.mode ∨
      ∃ baseline, ∃ q : Observation, event = .poll (q.input cfg) ∧
        AllReady cfg (q.pod cfg) ∧ ¬ SomeRestarted cfg (q.pod cfg) ∧
        (container cfg process event).2.mode = .watching (some baseline) ∧ ZeroBaseline cfg baseline := by
  cases event with
  | restart =>
    refine .inr (.inl ?_)
    intro baseline hmode
    cases hmode
  | poll input =>
    rcases iterate_cases cfg process input with hmode | hmode | ⟨baseline, q, hmode, rfl⟩
    · exact .inl hmode
    · refine .inr (.inl ?_)
      intro baseline hwatch
      rw [container, hmode] at hwatch
      cases hwatch
    · rw [container_watching cfg hmode, hmode]
      cases baseline with
      | none =>
        rcases observe_unarmed cfg process.observedFailures (q.pod cfg) q.deleteReply with
          ⟨-, -, hnext⟩ | ⟨-, -, -, hstop⟩ | ⟨hall, hno, -, recorded, hnext, hzero⟩
        · exact .inl hnext
        · exact .inr (.inl (stopped_unarmed hstop))
        · exact .inr (.inr ⟨recorded, q, rfl, hall, hno, hnext, hzero⟩)
      | some recorded =>
        rcases observe_armed cfg (h recorded hmode) process.observedFailures (q.pod cfg)
          q.deleteReply with ⟨-, -, hstop⟩ | ⟨-, -, hnext⟩
        · exact .inr (.inl (stopped_unarmed hstop))
        · exact .inl hnext

theorem armedAtZero_step {process : Process} (h : ArmedAtZero cfg process.mode)
    (event : Event) : ArmedAtZero cfg (container cfg process event).2.mode := by
  rcases container_mode cfg h event with hmode | hun | ⟨recorded, q, -, -, -, hmode, hzero⟩
  · rwa [hmode]
  · exact fun baseline hwatch => absurd hwatch (hun baseline)
  · intro baseline hwatch
    rw [hmode] at hwatch
    cases hwatch
    exact hzero

theorem armedAtZero_run (events : List Event) : ArmedAtZero cfg (final (container cfg) start events).mode := by
  refine final_invariant (C := fun _ _ => True) (I := fun p : Process => ArmedAtZero cfg p.mode)
    (fun process event h _ => armedAtZero_step cfg h event) ?_ (along_of_forall_mem (by simp) _)
  intro baseline hmode
  cases hmode

def RestartVisible (cfg : Config) (event : Event) : Prop :=
  ∀ q : Observation, event = .poll (q.input cfg) → AllReady cfg (q.pod cfg) → SomeRestarted cfg (q.pod cfg)

theorem unarmed_step {process : Process} (h : Unarmed process.mode) {event : Event}
    (hevent : RestartVisible cfg event) : Unarmed (container cfg process event).2.mode := by
  have hzero : ArmedAtZero cfg process.mode := fun baseline hmode => absurd hmode (h baseline)
  rcases container_mode cfg hzero event with hmode | hun | ⟨recorded, q, hq, hall, hno, -⟩
  · rwa [hmode]
  · exact hun
  · exact absurd (hevent q hq hall) hno

theorem unarmed_run {process : Process} (h : Unarmed process.mode) {events : List Event}
    (hevents : ∀ event ∈ events, RestartVisible cfg event) : Unarmed (final (container cfg) process events).mode :=
  final_invariant (I := fun p : Process => Unarmed p.mode)
    (fun _ _ hp hevent => unarmed_step cfg hp hevent) h (along_of_forall_mem hevents _)

theorem poll_decides {process : Process} (hzero : ArmedAtZero cfg process.mode)
    (hpoll : Polling process.mode) (p : Observation) :
    (AllReady cfg (p.pod cfg) ∧ SomeRestarted cfg (p.pod cfg) →
      RequestsDelete (container cfg process (.poll (p.input cfg))).1) ∧
    (Unarmed process.mode → RequestsDelete (container cfg process (.poll (p.input cfg))).1 →
      AllReady cfg (p.pod cfg)) := by
  obtain ⟨baseline, hmode⟩ := hpoll
  rw [container_watching cfg hmode]
  cases baseline with
  | none =>
    rcases observe_unarmed cfg process.observedFailures (p.pod cfg) p.deleteReply with
      ⟨hall, hreq, -⟩ | ⟨hall, -, hreq, -⟩ | ⟨hall, hno, -⟩
    · exact ⟨fun h => absurd h.1 hall, fun _ h => absurd h hreq⟩
    · exact ⟨fun _ => hreq, fun _ _ => hall⟩
    · exact ⟨fun h => absurd h.2 hno, fun _ _ => hall⟩
  | some recorded =>
    refine ⟨?_, fun hun => absurd hmode (hun recorded)⟩
    rintro ⟨-, hre⟩
    rcases observe_armed cfg (hzero recorded hmode) process.observedFailures (p.pod cfg)
      p.deleteReply with ⟨-, hreq, -⟩ | ⟨hcond, -⟩
    · exact hreq
    · exact absurd (.inr hre) hcond

theorem request_stops {process : Process} (hzero : ArmedAtZero cfg process.mode) {o : Observation}
    (hreq : RequestsDelete (container cfg process (.poll (o.input cfg))).1) :
    Stopped (container cfg process (.poll (o.input cfg))).2.mode := by
  have hnil : ¬ RequestsDelete [] := by simp [RequestsDelete]
  by_cases hpoll : Polling process.mode
  · obtain ⟨baseline, hmode⟩ := hpoll
    rw [container_watching cfg hmode] at hreq ⊢
    cases baseline with
    | none =>
      rcases observe_unarmed cfg process.observedFailures (o.pod cfg) o.deleteReply with
        ⟨-, hno, -⟩ | ⟨-, -, -, hstop⟩ | ⟨-, -, hno, -⟩
      · exact absurd hreq hno
      · exact hstop
      · exact absurd hreq hno
    | some recorded =>
      rcases observe_armed cfg (hzero recorded hmode) process.observedFailures (o.pod cfg)
        o.deleteReply with ⟨-, -, hstop⟩ | ⟨-, hno, -⟩
      · exact hstop
      · exact absurd hreq hno
  · have hended : Ended process.mode := fun baseline hmode => hpoll ⟨baseline, hmode⟩
    rw [container, iterate_ended cfg hended] at hreq
    exact absurd hreq hnil

/-- A recycle requested at `o` is requested again, by whichever process polls later: a new one
waits until every target is Ready, and then decides from the restart counts it sees. -/
theorem recycle_requested_again (cfg : Config) (pre : List Event) (o : Observation) (mid : List Event) (p : Observation)
    (hreq : RequestsDelete (container cfg (final (container cfg) start pre) (.poll (o.input cfg))).1)
    (hpoll : Polling (final (container cfg) start (pre ++ .poll (o.input cfg) :: mid)).mode) :
    (AllReady cfg (p.pod cfg) ∧ SomeRestarted cfg (p.pod cfg) →
      RequestsDelete (container cfg (final (container cfg) start (pre ++ .poll (o.input cfg) :: mid))
        (.poll (p.input cfg))).1) ∧
    ((∀ event ∈ mid, RestartVisible cfg event) →
      RequestsDelete (container cfg (final (container cfg) start (pre ++ .poll (o.input cfg) :: mid))
        (.poll (p.input cfg))).1 → AllReady cfg (p.pod cfg)) := by
  have hzero := armedAtZero_run cfg (pre ++ .poll (o.input cfg) :: mid)
  obtain ⟨hagain, honly⟩ := poll_decides cfg hzero hpoll p
  refine ⟨hagain, ?_⟩
  intro hmid
  apply honly
  rw [final_append]
  apply unarmed_run cfg _ hmid
  exact stopped_unarmed (request_stops cfg (armedAtZero_run cfg pre) hreq)

def decodeGuardian : Config := ⟨"uid-1", ["decode-0"], by decide, by decide, 5⟩

def decodeSeen (ready : Bool) (restarts : Nat) (reply : DeleteReply) : Observation :=
  ⟨[{ name := "decode-0", ready := some ready, restartCount := some restarts }], reply⟩

/-- The DELETE after a restart is answered 500, and the decode container is not Ready again yet when the
new guardian process polls: it waits. -/
theorem restarted_guardian_waits :
    ¬ ∀ (cfg : Config) (pre : List Event) (o : Observation) (mid : List Event) (p : Observation),
      RequestsDelete (container cfg (final (container cfg) start pre) (.poll (o.input cfg))).1 →
      (∀ actions ∈ outputs (container cfg) start (pre ++ .poll (o.input cfg) :: mid), ¬ Settles actions) →
      Polling (final (container cfg) start (pre ++ .poll (o.input cfg) :: mid)).mode →
      RequestsDelete (container cfg (final (container cfg) start (pre ++ .poll (o.input cfg) :: mid))
        (.poll (p.input cfg))).1 := by
  intro h
  have hlost := h decodeGuardian [.poll ((decodeSeen true 0 .accepted).input decodeGuardian)]
    (decodeSeen false 1 (.httpError 500)) [.restart] (decodeSeen false 1 .accepted)
    (by decide) (by unfold Settles; decide) ⟨none, rfl⟩
  exact absurd hlost (by decide)

theorem restarted_guardian_requests_again :
    RequestsDelete (container decodeGuardian (final (container decodeGuardian) start
      ([.poll ((decodeSeen true 0 .accepted).input decodeGuardian)] ++
        .poll ((decodeSeen false 1 (.httpError 500)).input decodeGuardian) ::
          [.restart, .poll ((decodeSeen false 1 .accepted).input decodeGuardian)]))
      (.poll ((decodeSeen true 1 .accepted).input decodeGuardian))).1 := by
  refine (recycle_requested_again decodeGuardian
    [.poll ((decodeSeen true 0 .accepted).input decodeGuardian)] (decodeSeen false 1 (.httpError 500))
    [.restart, .poll ((decodeSeen false 1 .accepted).input decodeGuardian)] (decodeSeen true 1 .accepted)
    (by decide) ⟨none, rfl⟩).1 ⟨?_, ?_⟩
  · intro t ht
    rw [List.mem_singleton.mp ht]
    exact ⟨_, rfl, rfl⟩
  · exact ⟨"decode-0", by decide, by decide⟩

end ProductionStack.GuardianRestart
