import ProductionStack.LoraReconcile

namespace ProductionStack.LoraAdapterController

open Command

def Quiet (s s' : State) : Prop := ∀ x ∈ s'.sent, x ∈ s.sent ∨ x.request.changes = false

theorem Looked.quiet {s s' : State} (h : Looked s s') : Quiet s s' := by
  obtain ⟨sent, rfl, hmodels⟩ := h
  intro x hx
  rcases List.mem_append.mp hx with hold | hnew
  · exact .inl hold
  · exact .inr (by rw [hmodels x hnew]; rfl)

theorem compareStates_eq_false_iff_same {regs : List LoadedAdapter} {desired : List NamespacedName}
    (hregs : (regs.map (·.podAssignments)).Nodup) (hnodup : desired.Nodup) :
    compareStates regs desired = false ↔ ∀ pod, pod ∈ regs.map (·.podAssignments) ↔ pod ∈ desired := by
  have hkeys : ∀ pod, key pod ∈ desired.map key ↔ pod ∈ desired :=
    fun pod => List.mem_map_of_injective key_injective
  constructor
  · intro hcompare pod
    rw [compareStates] at hcompare
    split at hcompare
    · cases hcompare
    next hlength =>
      have hsubset : regs.map (·.podAssignments) ⊆ desired := by
        intro other hother
        obtain ⟨reg, hreg, rfl⟩ := List.mem_map.mp hother
        have hkey := List.any_eq_false.mp hcompare reg hreg
        simpa [hkeys] using hkey
      have hperm : (regs.map (·.podAssignments)).Perm desired := by
        apply (List.subperm_of_subset hregs hsubset).perm_of_length_le
        rw [List.length_map]
        exact (not_not.mp hlength).ge
      exact hperm.mem_iff
  · intro hsame
    have hperm : (regs.map (·.podAssignments)).Perm desired := (List.perm_ext_iff_of_nodup hregs hnodup).mpr hsame
    have hlength : regs.length = desired.length := by
      rw [← hperm.length_eq, List.length_map]
    rw [compareStates, if_neg (not_not.mpr hlength), List.any_eq_false]
    intro reg hreg
    have hdesired := hperm.mem_iff.mp (List.mem_map_of_mem hreg)
    simpa [hkeys] using hdesired

theorem compareStates_eq_false_iff {s : State} {name : String} {regs : List LoadedAdapter}
    {desired : List NamespacedName} (hcurrent : Current s name regs) (hnodup : desired.Nodup) :
    compareStates regs desired = false ↔ ∀ pod, ReadyLoaded s name pod ↔ pod ∈ desired := by
  rw [compareStates_eq_false_iff_same hcurrent.nodup hnodup]
  refine forall_congr' (fun pod => ?_)
  rw [← hcurrent.pods pod, List.mem_map]

section Run

variable {env : Env} {adapter : LoraAdapter} {s : State}

theorem CallsSucceed.writeStatus_spec (h : CallsSucceed env adapter s) (hobject : s.adapter = some adapter)
    (round : Nat) (what : String) (change : LoraAdapter → Option Status) (retries : List Nat) :
    wp (writeStatus env round what change (0 :: retries))
      (fun a s' => Kept s.secrets adapter a ∧ s' = { s with adapter := some a }) (fun _ _ => False) s := by
  have hself : s = { s with adapter := some adapter } := by rw [← hobject]
  simp only [writeStatus, h.api, fetchAdapter, wp_bind, wp_mapError, wp_state, wp_pure, hobject]
  cases change adapter with
  | none => exact ⟨Kept.refl _ _, hself⟩
  | some status => exact ⟨kept_status _ _ status, rfl⟩

theorem CallsSucceed.getAdapterRegistrations_spec (h : CallsSucceed env adapter s) (round : Nat) :
    wp (getAdapterRegistrations env round adapter)
      (fun regs s' => regs = registrations env round adapter s ∧ Looked s s') (fun _ _ => False) s :=
  wp_mono (LoraAdapterController.getAdapterRegistrations_spec round adapter s) (fun _ _ hregs => hregs.2)
    (fun _ _ herror => herror.1 (h.api _))

theorem getOptimalPlacement_spec (adapter : LoraAdapter) (s : State) :
    wp (getOptimalPlacement env adapter) (fun desired s' => desired = placement env adapter s.pods ∧ s' = s)
      (fun _ s' => env.api (.listPods .placement) ≠ .ok ∧ s' = s) s := by
  rw [getOptimalPlacement, wp_bind]
  refine wp_mono (listPods_spec _ _ s) ?_ (fun _ _ herror => herror)
  rintro pods s' ⟨-, rfl, rfl⟩
  exact ⟨rfl, rfl⟩

theorem CallsSucceed.getOptimalPlacement_spec (h : CallsSucceed env adapter s) :
    wp (getOptimalPlacement env adapter) (fun desired s' => desired = placement env adapter s.pods ∧ s' = s)
      (fun _ _ => False) s :=
  wp_mono (LoraAdapterController.getOptimalPlacement_spec adapter s) (fun _ _ hdesired => hdesired)
    (fun _ _ herror => herror.1 (h.api _))

/-- The adapter is nowhere to be placed or where it is placed already. -/
def Settled (env : Env) (adapter : LoraAdapter) (s : State) : Prop :=
  placement env adapter s.pods = [] ∨
    ∀ pod, ReadyLoaded s adapter.adapterSource.adapterName pod ↔ pod ∈ placement env adapter s.pods

/-- The adapter is on the placed pods; nothing is loaded or unloaded when it was before, and it could
be found when it was not. -/
structure Placed (env : Env) (adapter : LoraAdapter) (s s' : State) : Prop where
  frame : Frame s s'
  object : ∃ a, s'.adapter = some a ∧ Kept s.secrets adapter a
  placed : placement env adapter s.pods ≠ [] →
    ∀ pod, ReadyLoaded s' adapter.adapterSource.adapterName pod ↔ pod ∈ placement env adapter s.pods
  untouched : placement env adapter s.pods = [] → s'.engines = s.engines
  quiet : Settled env adapter s → Quiet s s'
  busy : (∃ pod ∈ placement env adapter s.pods, ¬ ReadyLoaded s adapter.adapterSource.adapterName pod) →
    discoverable s.secrets adapter = true ∧ ∃ x ∈ s'.sent, x.request.changes = true

structure Undiscovered (env : Env) (adapter : LoraAdapter) (s s' : State) : Prop where
  missing : discoverable s.secrets adapter = false
  lacking : ∃ pod ∈ placement env adapter s.pods, ¬ ReadyLoaded s adapter.adapterSource.adapterName pod
  quiet : Quiet s s'

structure Noted (adapter : LoraAdapter) (s : State) (a : LoraAdapter) (s' : State) : Prop where
  kept : Kept s.secrets adapter a
  object : s'.adapter = some a
  frame : Frame s s'
  engines : s'.engines = s.engines
  quiet : Quiet s s'

theorem Looked.object {s' : State} (h : Looked s s') : s'.adapter = s.adapter := by
  obtain ⟨sent, rfl, -⟩ := h
  rfl

theorem Looked.noted {s' : State} {a : LoraAdapter} (h : Looked s s') (hkept : Kept s.secrets adapter a) :
    Noted adapter s a { s' with adapter := some a } := by
  have hframe := h.frame
  have hquiet := h.quiet
  obtain ⟨sent, rfl, -⟩ := h
  exact ⟨hkept, rfl, ⟨hframe.pods, hframe.secrets, hframe.sent⟩, rfl, hquiet⟩

theorem Noted.written {s' : State} {a a' : LoraAdapter} (h : Noted adapter s a s') (hkept : Kept s.secrets a a') :
    Noted adapter s a' { s' with adapter := some a' } :=
  ⟨h.kept.trans hkept, rfl, ⟨h.frame.pods, h.frame.secrets, h.frame.sent⟩, h.engines, h.quiet⟩

theorem Noted.placed {s' : State} {a : LoraAdapter} (h : Noted adapter s a s') (hsettled : Settled env adapter s) :
    Placed env adapter s s' where
  frame := h.frame
  object := ⟨a, h.object, h.kept⟩
  placed := by
    intro hnonempty pod
    rw [readyLoaded_congr h.frame h.engines]
    exact hsettled.resolve_left hnonempty pod
  untouched := fun _ => h.engines
  quiet := fun _ => h.quiet
  busy := by
    rintro ⟨pod, hpod, hlacks⟩
    rcases hsettled with hempty | hsame
    · rw [hempty] at hpod
      cases hpod
    · exact absurd ((hsame pod).mpr hpod) hlacks

theorem Reconciled.after_noted {s₁ s₂ : State} {a : LoraAdapter} {desired : List NamespacedName}
    (hnoted : Noted adapter s a s₁) (h : Reconciled a s₁ desired s₂) : Reconciled adapter s desired s₂ := by
  obtain ⟨a', hobject, hkept⟩ := h.object
  have hready := h.ready
  have hbusy := h.busy
  rw [hnoted.kept.adapterName] at hready hbusy
  rw [hnoted.frame.secrets] at hkept hbusy
  rw [hnoted.kept.discoverable] at hbusy
  refine ⟨⟨a', hobject, hnoted.kept.trans hkept⟩, hnoted.frame.trans h.frame, hready, ?_⟩
  rintro ⟨pod, hpod, hlacks⟩
  exact hbusy ⟨pod, hpod, fun hready' => hlacks ((readyLoaded_congr hnoted.frame hnoted.engines _ _).mp hready')⟩

theorem Reconciled.noted {s₁ s₂ : State} {a a' : LoraAdapter} {desired : List NamespacedName}
    (h : Reconciled adapter s desired s₁) (hobject : s₁.adapter = some a) (hnoted : Noted a s₁ a' s₂) :
    Reconciled adapter s desired s₂ := by
  obtain ⟨b, hobject', hkept⟩ := h.object
  cases hobject.symm.trans hobject'
  refine ⟨⟨a', hnoted.object, hkept.trans (h.frame.secrets ▸ hnoted.kept)⟩, h.frame.trans hnoted.frame, ?_, ?_⟩
  · intro pod
    rw [readyLoaded_congr hnoted.frame hnoted.engines, h.ready pod]
  · intro hlacking
    obtain ⟨hfound, x, hx, hchanges⟩ := h.busy hlacking
    exact ⟨hfound, x, hnoted.frame.sent.subset hx, hchanges⟩

theorem Reconciled.placed {s' : State} (h : Reconciled adapter s (placement env adapter s.pods) s')
    (hunsettled : ¬ Settled env adapter s) : Placed env adapter s s' where
  frame := h.frame
  object := h.object
  placed := fun _ => h.ready
  untouched := fun hempty => absurd (.inl hempty) hunsettled
  quiet := fun hsettled => absurd hsettled hunsettled
  busy := h.busy

theorem Current.congr {s' : State} {name : String} {regs : List LoadedAdapter} (h : Current s name regs)
    (hframe : Frame s s') (hengines : s'.engines = s.engines) : Current s' name regs where
  pods := by
    intro pod
    rw [readyLoaded_congr hframe hengines, h.pods]
  names := h.names
  nodup := h.nodup

theorem CallsSucceed.refresh_spec (h : CallsSucceed env adapter s) (hobject : s.adapter = some adapter) :
    wp (do
        match ← fetchAdapter (env.api (.getAdapter 1)) with
        | none => return {}
        | some latest =>
          let latestRegistrations ← getAdapterRegistrations env 1 latest
          let _ ← updateStatusWithRegistrations env 2 latestRegistrations
          return ({ requeueAfter := 60 } : Result))
      (fun _ s' => ∃ a, Noted adapter s a s') (fun _ _ => False) s := by
  simp only [h.api, fetchAdapter, wp_bind, wp_state, wp_pure, hobject]
  refine wp_mono (h.getAdapterRegistrations_spec 1) ?_ (fun _ _ hfalse => hfalse)
  rintro regs s₁ ⟨-, hlooked⟩
  refine wp_mono ((h.kept (Kept.refl _ _) hlooked.frame).writeStatus_spec (hlooked.object.trans hobject) 2 _ _ _) ?_
    (fun _ _ hfalse => hfalse)
  rintro a _ ⟨hkept, rfl⟩
  rw [hlooked.frame.secrets] at hkept
  exact ⟨a, hlooked.noted hkept⟩

theorem CallsSucceed.reconcilePlacement_spec (h : CallsSucceed env adapter s) (hobject : s.adapter = some adapter)
    (hdeletion : adapter.deletionTimestamp = none) :
    wp (reconcilePlacement env adapter) (fun _ s' => Placed env adapter s s')
      (fun _ s' => Undiscovered env adapter s s') s := by
  rw [reconcilePlacement]
  refine wp_bind_of_succeeds (h.getAdapterRegistrations_spec 0) ?_
  rintro regs s₁ ⟨rfl, hlooked⟩
  refine wp_bind_of_succeeds
    ((h.kept (Kept.refl _ _) hlooked.frame).writeStatus_spec (hlooked.object.trans hobject) 0 _ _ _) ?_
  rintro a s₂ ⟨hkept, hs₂⟩
  rw [hlooked.frame.secrets] at hkept
  have hnoted : Noted adapter s a s₂ := hs₂ ▸ hlooked.noted hkept
  have h₂ := h.kept hkept hnoted.frame
  refine wp_bind_of_succeeds h₂.getOptimalPlacement_spec ?_
  rintro desired s₃ ⟨hdesired, hs₃⟩
  rw [placement_congr hkept, hnoted.frame.pods] at hdesired
  rw [hs₃, hdesired]
  have hcompared := compareStates_eq_false_iff (h.current 0) (@placement_nodup env adapter s.pods)
  split
  next hempty =>
    refine wp_bind_of_succeeds (h₂.writeStatus_spec hnoted.object 1 _ _ _) ?_
    rintro a' s₄ ⟨hkept', rfl⟩
    rw [hnoted.frame.secrets] at hkept'
    exact (hnoted.written hkept').placed (.inl hempty)
  next hnonempty =>
    split
    next hcompare =>
      have hunsettled : ¬ Settled env adapter s := by
        rintro (hempty | hsame)
        · exact hnonempty hempty
        · rw [hcompared.mpr hsame] at hcompare
          cases hcompare
      rw [wp_bind]
      refine wp_mono (h₂.reconcileToDesiredState_spec hnoted.object (hkept.deletionTimestamp.trans hdeletion)
        (hkept.adapterName.symm ▸ (h.current 0).congr hnoted.frame hnoted.engines) placement_nodup
        (fun pod hpod => Served.frame (mem_placement hpod) hnoted.frame)) ?_ ?_
      · rintro _ s₄ hreconciled
        obtain ⟨a₄, hobject₄, hkept₄⟩ := hreconciled.object
        refine wp_mono ((h₂.kept hkept₄ hreconciled.frame).refresh_spec hobject₄) ?_ (fun _ _ hfalse => hfalse.elim)
        rintro _ s₅ ⟨a₅, hnoted₅⟩
        exact ((hreconciled.after_noted hnoted).noted hobject₄ hnoted₅).placed hunsettled
      · rintro e s₄ ⟨hmissing, rfl, pod, hpod, hlacks⟩
        rw [hnoted.frame.secrets, hkept.discoverable] at hmissing
        rw [hkept.adapterName, readyLoaded_congr hnoted.frame hnoted.engines] at hlacks
        exact ⟨hmissing, ⟨pod, hpod, hlacks⟩, hnoted.quiet⟩
    next hcompare => exact hnoted.placed (.inr (hcompared.mp (Bool.eq_false_of_not_eq_true hcompare)))

theorem CallsSucceed.reconcile_spec (h : CallsSucceed env adapter s) (hobject : s.adapter = some adapter)
    (hdeletion : adapter.deletionTimestamp = none) (hfinalizer : loraAdapterFinalizer ∈ adapter.finalizers) :
    wp (reconcile env) (fun _ s' => Placed env adapter s s') (fun _ s' => Undiscovered env adapter s s') s := by
  simp only [reconcile, h.api, fetchAdapter, wp_bind, wp_state, wp_pure, hobject, hdeletion, Option.isSome_none,
    Bool.false_eq_true, if_false, hfinalizer, if_true]
  exact h.reconcilePlacement_spec hobject hdeletion

theorem CallsSucceed.reconcile_cases (h : CallsSucceed env adapter s) (hobject : s.adapter = some adapter)
    (hdeletion : adapter.deletionTimestamp = none) (hfinalizer : loraAdapterFinalizer ∈ adapter.finalizers) :
    (∃ result, (reconcile env s).1 = .ok result ∧ Placed env adapter s (reconcile env s).2) ∨
      (∃ e, (reconcile env s).1 = .error e ∧ Undiscovered env adapter s (reconcile env s).2) :=
  wp_cases (h.reconcile_spec hobject hdeletion hfinalizer)

end Run

/-- Once a run is through, the ready pods that have the adapter are the placed ones, and the
next run, whose lists may come in another order, loads and unloads nothing. -/
def Converges (env env' : Env) (adapter : LoraAdapter) (s : State) : Prop :=
  ∀ result s' desired, reconcile env s = (.ok result, s') → (getOptimalPlacement env adapter s).1 = .ok desired →
    (∀ pod, ReadyLoaded s' adapter.adapterSource.adapterName pod ↔ pod ∈ desired) ∧
      ∀ x ∈ (reconcile env' { s' with sent := [] }).2.sent, x.request.changes = false

section Convergence

variable {env env' : Env} {adapter : LoraAdapter} {s s' : State}

theorem CallsSucceed.getOptimalPlacement_eq (h : CallsSucceed env adapter s) :
    (getOptimalPlacement env adapter s).1 = .ok (placement env adapter s.pods) := by
  rcases wp_cases h.getOptimalPlacement_spec with ⟨desired, hok, rfl, -⟩ | ⟨_, -, hfalse⟩
  · exact hok
  · exact hfalse.elim

theorem placement_same_of_subset (h : ∀ pod ∈ placement env' adapter s.pods, pod ∈ placement env adapter s.pods)
    (pod : NamespacedName) : pod ∈ placement env adapter s.pods ↔ pod ∈ placement env' adapter s.pods := by
  have hperm : (placement env' adapter s.pods).Perm (placement env adapter s.pods) :=
    (List.subperm_of_subset placement_nodup h).perm_of_length_le (placement_length env').le
  exact hperm.mem_iff.symm

theorem Placed.second (h' : CallsSucceed env' adapter s) (hdeletion : adapter.deletionTimestamp = none)
    (hfinalizer : loraAdapterFinalizer ∈ adapter.finalizers) (hplaced : Placed env adapter s s') :
    ((placement env' adapter s.pods = [] ∨ ∀ pod, ReadyLoaded s' adapter.adapterSource.adapterName pod ↔
        pod ∈ placement env' adapter s.pods) →
      ∀ x ∈ (reconcile env' { s' with sent := [] }).2.sent, x.request.changes = false) ∧
    ((∃ pod ∈ placement env' adapter s.pods, ¬ ReadyLoaded s' adapter.adapterSource.adapterName pod) →
      ((∀ x ∈ (reconcile env' { s' with sent := [] }).2.sent, x.request.changes = false) ↔
        discoverable s.secrets adapter = false)) := by
  obtain ⟨a, hobject, hkept⟩ := hplaced.object
  have hsucceed := h'.kept hkept hplaced.frame
  have h'' : CallsSucceed env' a { s' with sent := [] } :=
    ⟨hsucceed.api, hsucceed.engine, hsucceed.addressed, hsucceed.apiKey⟩
  have hplacement : placement env' a s'.pods = placement env' adapter s.pods := by
    rw [placement_congr hkept, hplaced.frame.pods]
  have hfound : discoverable s'.secrets a = discoverable s.secrets adapter := by
    rw [hplaced.frame.secrets, hkept.discoverable]
  have hsilent : ∀ u, Quiet { s' with sent := [] } u → ∀ x ∈ u.sent, x.request.changes = false := by
    intro u hquiet x hx
    rcases hquiet x hx with hold | hnew
    · cases hold
    · exact hnew
  have hcases := h''.reconcile_cases hobject (hkept.deletionTimestamp.trans hdeletion)
    (hkept.finalizers.symm ▸ hfinalizer)
  rcases hcases with ⟨_, -, hsecond⟩ | ⟨_, -, hsecond⟩
  · have hquiet := hsecond.quiet
    have hbusy := hsecond.busy
    rw [Settled, hplacement, hkept.adapterName] at hquiet
    rw [hplacement, hkept.adapterName, hfound] at hbusy
    refine ⟨fun hsame => hsilent _ (hquiet hsame), ?_⟩
    intro hlacking
    obtain ⟨hdiscoverable, x, hx, hchanges⟩ := hbusy hlacking
    constructor
    · intro hnone
      rw [hnone x hx] at hchanges
      cases hchanges
    · intro hnot
      rw [hdiscoverable] at hnot
      cases hnot
  · have hnot := hsecond.missing
    rw [hfound] at hnot
    exact ⟨fun _ => hsilent _ hsecond.quiet, fun _ => ⟨fun _ => hnot, fun _ => hsilent _ hsecond.quiet⟩⟩

theorem Placed.second_quiet_iff (h' : CallsSucceed env' adapter s) (hdeletion : adapter.deletionTimestamp = none)
    (hfinalizer : loraAdapterFinalizer ∈ adapter.finalizers) (hplaced : Placed env adapter s s')
    (hready : ∀ pod, ReadyLoaded s' adapter.adapterSource.adapterName pod ↔ pod ∈ placement env adapter s.pods) :
    (∀ x ∈ (reconcile env' { s' with sent := [] }).2.sent, x.request.changes = false) ↔
      (∀ pod, pod ∈ placement env adapter s.pods ↔ pod ∈ placement env' adapter s.pods) ∨
        discoverable s.secrets adapter = false := by
  obtain ⟨hquiet, hlacking⟩ := hplaced.second h' hdeletion hfinalizer
  by_cases hsubset : ∀ pod ∈ placement env' adapter s.pods, pod ∈ placement env adapter s.pods
  · have hsame := placement_same_of_subset hsubset
    refine iff_of_true (hquiet (.inr ?_)) (.inl hsame)
    intro pod
    rw [hready pod, hsame pod]
  · have hdiffer : ¬ ∀ pod, pod ∈ placement env adapter s.pods ↔ pod ∈ placement env' adapter s.pods :=
      fun hsame => hsubset (fun pod hpod => (hsame pod).mpr hpod)
    push Not at hsubset
    obtain ⟨pod, hpod, hnotMem⟩ := hsubset
    rw [hlacking ⟨pod, hpod, fun hhas => hnotMem ((hready pod).mp hhas)⟩, or_iff_right hdiffer]

theorem Placed.ready (hplaced : Placed env adapter s s')
    (hnone : placement env adapter s.pods = [] → ∀ pod, ¬ ReadyLoaded s adapter.adapterSource.adapterName pod)
    (pod : NamespacedName) : ReadyLoaded s' adapter.adapterSource.adapterName pod ↔ pod ∈ placement env adapter s.pods := by
  by_cases hplacement : placement env adapter s.pods = []
  · rw [readyLoaded_congr hplaced.frame (hplaced.untouched hplacement), hplacement]
    exact ⟨fun hready => absurd hready (hnone hplacement pod), fun hmem => absurd hmem List.not_mem_nil⟩
  · exact hplaced.placed hplacement pod

theorem reconcile_converges_iff (env env' : Env) (adapter : LoraAdapter) (s : State) (hobject : s.adapter = some adapter)
    (hdeletion : adapter.deletionTimestamp = none) (hfinalizer : loraAdapterFinalizer ∈ adapter.finalizers)
    (h : CallsSucceed env adapter s) (h' : CallsSucceed env' adapter s) :
    Converges env env' adapter s ↔
      (placement env adapter s.pods = [] → ∀ pod, ¬ ReadyLoaded s adapter.adapterSource.adapterName pod) ∧
        ((∀ pod, pod ∈ placement env adapter s.pods ↔ pod ∈ placement env' adapter s.pods) ∨
          discoverable s.secrets adapter = false) := by
  have hdesired := h.getOptimalPlacement_eq
  rcases h.reconcile_cases hobject hdeletion hfinalizer with ⟨result, hok, hplaced⟩ | ⟨e, herror, hundiscovered⟩
  · have hrun : reconcile env s = (.ok result, (reconcile env s).2) := Prod.ext hok rfl
    constructor
    · intro hconverges
      obtain ⟨hready, hquiet⟩ := hconverges result _ _ hrun hdesired
      refine ⟨?_, (hplaced.second_quiet_iff h' hdeletion hfinalizer hready).mp hquiet⟩
      intro hnone pod hloaded
      have hstill := (readyLoaded_congr hplaced.frame (hplaced.untouched hnone) _ pod).mpr hloaded
      have hmem := (hready pod).mp hstill
      rw [hnone] at hmem
      cases hmem
    · rintro ⟨hnone, hstable⟩ result' s' desired hrun' hdesired'
      obtain rfl := Except.ok.inj (hdesired.symm.trans hdesired')
      obtain ⟨-, rfl⟩ := Prod.mk.inj (hrun.symm.trans hrun')
      have hready := hplaced.ready hnone
      exact ⟨hready, (hplaced.second_quiet_iff h' hdeletion hfinalizer hready).mpr hstable⟩
  · -- A first run that fails promises nothing, and the adapter cannot be found.
    constructor
    · intro _
      refine ⟨?_, .inr hundiscovered.missing⟩
      intro hnone
      obtain ⟨pod, hpod, -⟩ := hundiscovered.lacking
      rw [hnone] at hpod
      cases hpod
    · rintro - result s' desired hrun -
      rw [hrun] at herror
      cases herror

end Convergence

/-- One replica is wanted on two pods: the adapter is loaded on the first and unloaded from the second. -/
theorem placed_adapter_converges :
    ((reconcile calmEnv (loadedOn sparePod (sqlAdapter none (some 1)))).2.sent.filter (·.request.changes)).map (·.pod) =
        [vllmPod, sparePod] ∧
      Converges calmEnv calmEnv (sqlAdapter none (some 1)) (loadedOn sparePod (sqlAdapter none (some 1))) := by
  refine ⟨by decide, ?_⟩
  have hsucceed : CallsSucceed calmEnv (sqlAdapter none (some 1)) (loadedOn sparePod (sqlAdapter none (some 1))) :=
    calm_callsSucceed rfl (by decide)
  refine (reconcile_converges_iff calmEnv calmEnv _ _ rfl rfl (by decide) hsucceed hsucceed).mpr ⟨?_, .inl fun _ => Iff.rfl⟩
  intro hempty
  cases hempty

/-- With no replicas wanted nothing is unloaded. -/
theorem zero_replicas_stay_loaded :
    ¬ ∀ (env env' : Env) (adapter : LoraAdapter) (s : State), s.adapter = some adapter →
      adapter.deletionTimestamp = none → loraAdapterFinalizer ∈ adapter.finalizers → CallsSucceed env adapter s →
      CallsSucceed env' adapter s → Converges env env' adapter s := by
  intro h
  have hsucceed : CallsSucceed calmEnv (sqlAdapter none (some 0)) (loadedState "True" (sqlAdapter none (some 0))) :=
    calm_callsSucceed rfl (by decide)
  have hconverges := h calmEnv calmEnv _ _ rfl rfl (by decide) hsucceed hsucceed
  obtain ⟨hsame, -⟩ := hconverges { requeueAfter := 60 } _ [] rfl rfl
  have hmem := (hsame vllmPod).mp ⟨llamaPod "True", rfl, rfl, rfl, rfl⟩
  cases hmem

end ProductionStack.LoraAdapterController
