import Mathlib.Data.List.Perm.Basic
import ProductionStack.PdCell
import ProductionStack.Progressions

namespace ProductionStack.PdCellPorts

open PdCell Progressions Progression

section Cell

variable (v : ModelValues) (p : Phase)

def bootstrapPorts : List Progression :=
  match p with
  | .prefill => if v.routerKvConnector = .mooncake then [⟨v.bootstrapPortBase, 1, (v.count .prefill).toNat⟩] else []
  | .decode => []

def sideChannelPorts : List Progression :=
  if v.nixlSideChannelEnabled then [⟨v.sideChannelPortBase p, v.sideChannelStride p, (v.count p).toNat⟩] else []

def internalPorts : List Progression :=
  match v.mode p with
  | .vllm => [⟨v.internalPortBase p, v.internalPortStride p, (v.count p).toNat⟩]
  | .dp => [⟨v.dpMasterPortBase p, 1, (v.count p).toNat⟩]
  | .auto => []

def phasePorts : List Progression :=
  ⟨v.portBase p, 1, (v.count p).toNat⟩ :: (bootstrapPorts v p ++ sideChannelPorts v p ++ internalPorts v p)

def prometheusPorts : List Progression :=
  if 0 < v.routerPrometheusPort then [⟨v.routerPrometheusPort, 1, 1⟩] else []

/-- The ports of a cell by their purpose: a base, a stride and a number of engines each. -/
def portRuns : List Progression :=
  ⟨v.routerPort, 1, 1⟩ :: (prometheusPorts v ++ (phasePorts v .prefill ++ phasePorts v .decode))

theorem flatMap_run (base : Int) (n : Nat) :
    (List.range n).flatMap (fun i : Nat => [add64 base i]) = terms (2 ^ 64) ⟨base, 1, n⟩ := by
  rw [← List.map_eq_flatMap, terms]
  simp only [term, Int.one_mul, add64]

theorem flatMap_stride (base stride : Int) (n : Nat) :
    (List.range n).flatMap (fun i : Nat => [add64 base (mul64 stride i)]) = terms (2 ^ 64) ⟨base, stride, n⟩ := by
  rw [← List.map_eq_flatMap, terms]
  simp only [term, add64, mul64, Int.add_bmod_bmod]

theorem flatMap_bootstrapPort :
    (List.range (v.count p).toNat).flatMap (fun i => (v.bootstrapPort p i).toList) =
      (bootstrapPorts v p).flatMap (terms (2 ^ 64)) := by
  cases p with
  | decode => simp [ModelValues.bootstrapPort, bootstrapPorts]
  | prefill =>
    simp only [ModelValues.bootstrapPort, bootstrapPorts]
    split_ifs
    · rw [List.flatMap_singleton]
      exact flatMap_run v.bootstrapPortBase _
    · simp

theorem flatMap_sideChannelPort :
    (List.range (v.count p).toNat).flatMap (fun i => (v.sideChannelPort p i).toList) =
      (sideChannelPorts v p).flatMap (terms (2 ^ 64)) := by
  simp only [ModelValues.sideChannelPort, sideChannelPorts]
  split_ifs
  · rw [List.flatMap_singleton]
    exact flatMap_stride (v.sideChannelPortBase p) (v.sideChannelStride p) _
  · simp

theorem flatMap_internalPort :
    (List.range (v.count p).toNat).flatMap (fun i => ((v.internalPort p i).map Prod.snd).toList) =
      (internalPorts v p).flatMap (terms (2 ^ 64)) := by
  simp only [ModelValues.internalPort, internalPorts]
  cases v.mode p with
  | vllm =>
    rw [List.flatMap_singleton]
    exact flatMap_stride (v.internalPortBase p) (v.internalPortStride p) _
  | dp =>
    rw [List.flatMap_singleton]
    exact flatMap_run (v.dpMasterPortBase p) _
  | auto => simp

theorem phaseEngines_ports : ((phaseEngines v p).flatMap Engine.ports).Perm ((phasePorts v p).flatMap (terms (2 ^ 64))) := by
  have hshape : (phaseEngines v p).flatMap Engine.ports =
      (List.range (v.count p).toNat).flatMap (fun i => [v.enginePort p i] ++ ((v.bootstrapPort p i).toList ++
        (v.sideChannelPort p i).toList ++ ((v.internalPort p i).map Prod.snd).toList)) := by
    rw [phaseEngines, List.flatMap_map]
    rfl
  rw [hshape, phasePorts, List.flatMap_cons, List.flatMap_append, List.flatMap_append, ← flatMap_bootstrapPort,
    ← flatMap_sideChannelPort, ← flatMap_internalPort, ← flatMap_run]
  refine (List.flatMap_append_perm _ _ _).symm.trans (List.Perm.append_left _ ?_)
  refine (List.flatMap_append_perm _ _ _).symm.trans (List.Perm.append_right _ ?_)
  exact (List.flatMap_append_perm _ _ _).symm

theorem single_port (port : Int) (h : int64 port = port) : terms (2 ^ 64) ⟨port, 1, 1⟩ = [port] := by
  have hterm : term ⟨port, 1, 1⟩ 0 = port := Int.add_zero port
  rw [terms, List.range_one, List.map_singleton, hterm, ← int64, h]

theorem cell_ports : (cell v).ports.Perm ((portRuns v).flatMap (terms (2 ^ 64))) := by
  have hrouter : terms (2 ^ 64) ⟨v.routerPort, 1, 1⟩ = [v.routerPort] := single_port _ Int.bmod_bmod
  have hprometheus : (prometheusPorts v).flatMap (terms (2 ^ 64)) = (cell v).prometheusPort.toList := by
    simp only [prometheusPorts, cell]
    split_ifs
    · rw [List.flatMap_singleton, single_port v.routerPrometheusPort Int.bmod_bmod]
      rfl
    · rfl
  rw [Cell.ports, portRuns, List.flatMap_cons, List.flatMap_append, List.flatMap_append, hrouter, hprometheus]
  refine List.Perm.cons _ (List.Perm.append_left _ ?_)
  rw [cell, List.flatMap_append]
  exact (phaseEngines_ports v .prefill).append (phaseEngines_ports v .decode)

theorem orDefault_ne_zero {fallback : Int} (h : fallback ≠ 0) (value : Option Int) : orDefault fallback value ≠ 0 := by
  rw [orDefault]
  split_ifs with hzero
  · exact h
  · exact hzero

theorem phasePorts_stride : ∀ q ∈ phasePorts v p, q.stride ≠ 0 := by
  intro q hq
  simp only [phasePorts, List.mem_cons, List.mem_append] at hq
  rcases hq with rfl | (hq | hq) | hq
  · exact Int.one_ne_zero
  · cases p with
    | decode => simp [bootstrapPorts] at hq
    | prefill =>
      simp only [bootstrapPorts, List.mem_ite_nil_right, List.mem_singleton] at hq
      rw [hq.2]
      exact Int.one_ne_zero
  · simp only [sideChannelPorts, List.mem_ite_nil_right, List.mem_singleton] at hq
    rw [hq.2]
    exact orDefault_ne_zero Int.one_ne_zero _
  · cases hmode : v.mode p with
    | auto => simp [internalPorts, hmode] at hq
    | vllm =>
      simp only [internalPorts, hmode, List.mem_singleton] at hq
      rw [hq]
      exact orDefault_ne_zero (by decide) _
    | dp =>
      simp only [internalPorts, hmode, List.mem_singleton] at hq
      rw [hq]
      exact Int.one_ne_zero

theorem portRuns_stride : ∀ q ∈ portRuns v, q.stride ≠ 0 := by
  intro q hq
  simp only [portRuns, List.mem_cons, List.mem_append, prometheusPorts, List.mem_ite_nil_right,
    List.not_mem_nil, or_false] at hq
  rcases hq with rfl | ⟨-, rfl⟩ | hq | hq
  · exact Int.one_ne_zero
  · exact Int.one_ne_zero
  · exact phasePorts_stride v .prefill q hq
  · exact phasePorts_stride v .decode q hq

/-- A condition on bases, strides and counts: no run of ports comes back to a port it had, and no
two of them meet: their distance is no multiple of the strides' greatest common divisor, or what
both can reach of its multiples is an empty interval. -/
structure PortsApart : Prop where
  periods : ∀ q ∈ portRuns v, q.count ≤ q.period (2 ^ 64)
  apart : (portRuns v).Pairwise (Apart (2 ^ 64))

theorem ports_distinct_iff {c : Cell} (hrender : render v = .ok c) : c.ports.Nodup ↔ PortsApart v := by
  obtain ⟨-, rfl⟩ := render_eq_ok_iff.mp hrender
  rw [(cell_ports v).nodup_iff, flatMap_terms_nodup_iff (by decide) (portRuns_stride v)]
  exact ⟨fun h => ⟨h.1, h.2⟩, fun h => ⟨h.periods, h.apart⟩⟩

instance : Decidable (PortsApart v) :=
  decidable_of_iff ((∀ q ∈ portRuns v, q.count ≤ q.period (2 ^ 64)) ∧ (portRuns v).Pairwise (Apart (2 ^ 64)))
    ⟨fun h => ⟨h.1, h.2⟩, fun h => ⟨h.periods, h.apart⟩⟩

end Cell

theorem nixlModel_ports_distinct : render nixlModel = .ok (cell nixlModel) ∧ (cell nixlModel).ports.Nodup :=
  ⟨render_nixlModel, (ports_distinct_iff nixlModel render_nixlModel).mpr (by decide +kernel)⟩

def stridedModel : ModelValues :=
  { nixlModel with prefill := { nixlModel.prefill with count := some 6, sideChannelPortStride := some 20 } }

theorem strided_ports_collide :
    render stridedModel = .ok (cell stridedModel) ∧
    (engine stridedModel .prefill 5).sideChannelPort = some 5700 ∧
    (engine stridedModel .decode 0).sideChannelPort = some 5700 ∧
    ¬(cell stridedModel).ports.Nodup := by
  refine ⟨render_eq_ok_iff.mpr ⟨by decide, rfl⟩, by decide, by decide, by decide⟩

end ProductionStack.PdCellPorts
