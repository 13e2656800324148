import ProductionStack.LoraAdapterController
import ProductionStack.Rotation
import ProductionStack.Runs

namespace ProductionStack.GatewayPickers

open LoraAdapterController Runs Rotation

section Slices

/-- A slice: its length is an int. -/
structure Slice (α : Type) where
  elems : List α
  length_lt : elems.length < 2 ^ 63

inductive Panic
  | indexOutOfRange (index : Int64) (length : Nat)
  deriving DecidableEq, Repr

variable {α : Type}

def Slice.len (s : Slice α) : Int64 := Int64.ofNat s.elems.length

def Slice.index (s : Slice α) (i : Int64) : Except Panic α :=
  if 0 ≤ i.toInt then
    match s.elems[i.toInt.toNat]? with
    | some x => .ok x
    | none => .error (.indexOutOfRange i s.elems.length)
  else .error (.indexOutOfRange i s.elems.length)

theorem Slice.toInt_len (s : Slice α) : s.len.toInt = s.elems.length := Int64.toInt_ofNat_of_lt s.length_lt

theorem Slice.index_of_nonneg (s : Slice α) {i : Int64} {j : Nat} (hi : i.toInt = j) (hj : j < s.elems.length) :
    s.index i = .ok s.elems[j] := by
  rw [Slice.index, hi, if_pos (Int.natCast_nonneg j), Int.toNat_natCast, List.getElem?_eq_getElem hj]

theorem Slice.index_of_neg (s : Slice α) {i : Int64} (hi : i.toInt < 0) :
    s.index i = .error (.indexOutOfRange i s.elems.length) := by
  rw [Slice.index, if_neg (by omega)]

end Slices

section Pods

structure ScoredPod where
  namespacedName : NamespacedName
  podIP : String
  deriving DecidableEq

def names (pods : List ScoredPod) : List String := pods.map (fun pod => key pod.namespacedName)

/-- sort.Slice by name: pods of the same name may come out in any order. -/
structure SortSlice where
  sort : Slice ScoredPod → Slice ScoredPod
  perm : ∀ s, (sort s).elems.Perm s.elems
  sorted : ∀ s, (sort s).elems.Pairwise (fun p q => key p.namespacedName ≤ key q.namespacedName)

def byName : SortSlice where
  sort s := ⟨s.elems.insertionSort (fun p q => key p.namespacedName ≤ key q.namespacedName), by
    rw [List.length_insertionSort]
    exact s.length_lt⟩
  perm s := List.perm_insertionSort _ s.elems
  sorted s := List.pairwise_insertionSort _ s.elems

theorem SortSlice.sort_eq (lib : SortSlice) {s s' : Slice ScoredPod} (hnames : (names s.elems).Nodup)
    (h : s'.elems.Perm s.elems) : (lib.sort s').elems = (lib.sort s).elems := by
  have hperm : (lib.sort s').elems.Perm (lib.sort s).elems := (lib.perm s').trans (h.trans (lib.perm s).symm)
  refine List.Perm.eq_of_pairwise ?_ (lib.sorted s') (lib.sorted s) hperm
  intro p q hp hq hpq hqp
  have hps : p ∈ s.elems := h.mem_iff.mp ((lib.perm s').mem_iff.mp hp)
  have hqs : q ∈ s.elems := (lib.perm s).mem_iff.mp hq
  exact List.inj_on_of_nodup_map hnames hps hqs (le_antisymm hpq hqp)

end Pods

section RoundRobin

/-- The value before atomic.AddUint64 added to it, as an int, modulo the length. -/
def nextIndex (currentIndex : UInt64) (len : Int64) : Int64 := (currentIndex + 1 - 1).toInt64 % len

def roundRobin (lib : SortSlice) (currentIndex : UInt64) (scoredPods : Slice ScoredPod) : Except Panic ScoredPod :=
  (lib.sort scoredPods).index (nextIndex currentIndex scoredPods.len)

structure RoundRobinPicker where
  currentIndex : UInt64 := 0

/-- The target of the result: there is none when there are no pods. -/
def RoundRobinPicker.pick (lib : SortSlice) :
    Component RoundRobinPicker (Slice ScoredPod) (Except Panic (Option ScoredPod)) := fun p scoredPods =>
  if scoredPods.elems = [] then (.ok none, p)
  else ((roundRobin lib p.currentIndex scoredPods).map some, { currentIndex := p.currentIndex + 1 })

theorem toInt_toInt64 (c : UInt64) :
    c.toInt64.toInt = if c.toNat < 2 ^ 63 then (c.toNat : Int) else (c.toNat : Int) - 2 ^ 64 := by
  have h : c.toInt64.toInt = c.toBitVec.toInt := rfl
  have hn : c.toBitVec.toNat = c.toNat := rfl
  rw [h, BitVec.toInt_eq_toNat_cond, hn]
  split <;> split <;> omega

def Within (n v : Nat) : Prop := v < 2 ^ 63 ∨ n ∣ 2 ^ 64 - v

instance (n v : Nat) : Decidable (Within n v) := inferInstanceAs (Decidable (_ ∨ _))

variable {α : Type}

theorem nextIndex_eq (c : UInt64) (s : Slice α) :
    (nextIndex c s.len).toInt =
      if c.toNat < 2 ^ 63 then ((c.toNat % s.elems.length : Nat) : Int)
      else -((2 ^ 64 - c.toNat) % s.elems.length : Nat) := by
  rw [nextIndex, UInt64.add_sub_cancel, Int64.toInt_mod, toInt_toInt64, s.toInt_len]
  split
  · exact Int.ofNat_tmod _ _ |>.symm
  · have hlt := c.toNat_lt
    have hneg : (c.toNat : Int) - 2 ^ 64 = -((2 ^ 64 - c.toNat : Nat) : Int) := by omega
    rw [hneg, Int.neg_tmod, ← Int.ofNat_tmod]

theorem nextIndex_nonneg_iff (c : UInt64) (s : Slice α) : 0 ≤ (nextIndex c s.len).toInt ↔ Within s.elems.length c.toNat := by
  rw [nextIndex_eq, Within]
  split
  next h => exact ⟨fun _ => .inl h, fun _ => Int.natCast_nonneg _⟩
  next h =>
    rw [Nat.dvd_iff_mod_eq_zero]
    omega

theorem nextIndex_lt (c : UInt64) (s : Slice α) (hne : s.elems ≠ []) : (nextIndex c s.len).toInt < s.elems.length := by
  have hpos := List.length_pos_iff.mpr hne
  have hlower := Nat.mod_lt c.toNat hpos
  rw [nextIndex_eq]
  split <;> omega

theorem length_sort (lib : SortSlice) (s : Slice ScoredPod) : (lib.sort s).elems.length = s.elems.length :=
  (lib.perm s).length_eq

theorem roundRobin_of_index (lib : SortSlice) {c : UInt64} {pods : Slice ScoredPod} {j : Nat}
    (hj : (nextIndex c pods.len).toInt = j) (hlt : j < (lib.sort pods).elems.length) :
    roundRobin lib c pods = .ok (lib.sort pods).elems[j] :=
  (lib.sort pods).index_of_nonneg hj hlt

theorem roundRobin_ok_iff (lib : SortSlice) (c : UInt64) {pods : Slice ScoredPod} (hne : pods.elems ≠ []) :
    (∃ pod ∈ pods.elems, roundRobin lib c pods = .ok pod) ↔ Within pods.elems.length c.toNat := by
  rw [← nextIndex_nonneg_iff]
  constructor
  · rintro ⟨pod, -, hok⟩
    by_contra hneg
    rw [roundRobin, Slice.index_of_neg _ (by omega)] at hok
    cases hok
  · intro hnonneg
    have hlt := nextIndex_lt c pods hne
    obtain ⟨j, hj⟩ := Int.eq_ofNat_of_zero_le hnonneg
    have hjlt : j < (lib.sort pods).elems.length := by
      rw [length_sort]
      omega
    exact ⟨_, (lib.perm pods).mem_iff.mp (List.getElem_mem hjlt), roundRobin_of_index lib hj hjlt⟩

theorem within_upper_mod {n c i : Nat} (h : ∀ i < n, Within n (c + i)) (hwrap : c + n ≤ 2 ^ 64) (hi : i < n)
    (hupper : 2 ^ 63 ≤ c + i) : (2 ^ 64 - (c + i)) % n = 0 ∧ (c + i) % n = 0 := by
  have hdvd : ∀ j < n, 2 ^ 63 ≤ c + j → n ∣ 2 ^ 64 - (c + j) := fun j hj hge => (h j hj).resolve_left (by omega)
  refine ⟨Nat.mod_eq_zero_of_dvd (hdvd i hi hupper), ?_⟩
  rcases Nat.lt_or_ge 1 n with hn | hn
  · have hsucc : ∀ j, j + 1 < n → ¬ 2 ^ 63 ≤ c + j := by
      intro j hj hge
      have hdiff := Nat.dvd_sub (hdvd j (by omega) hge) (hdvd (j + 1) hj (by omega))
      have hone : 2 ^ 64 - (c + j) - (2 ^ 64 - (c + (j + 1))) = 1 := by omega
      rw [hone] at hdiff
      exact absurd (Nat.le_of_dvd Nat.one_pos hdiff) (by omega)
    have hfirst : c + i = 2 ^ 63 := by
      have hlast : ¬ i + 1 < n := fun hlt => hsucc i hlt hupper
      have hbefore := hsucc (i - 1) (by omega)
      omega
    have hhalf := hdvd i hi hupper
    rw [hfirst] at hhalf ⊢
    exact Nat.mod_eq_zero_of_dvd hhalf
  · obtain rfl : n = 1 := by omega
    exact Nat.mod_one _

theorem nextIndex_window {c d : UInt64} {s : Slice α} {i : Nat} (hi : i < s.elems.length)
    (h : ∀ i < s.elems.length, Within s.elems.length (c.toNat + i)) (hwrap : c.toNat + s.elems.length ≤ 2 ^ 64)
    (hd : d.toNat = c.toNat + i) : (nextIndex d s.len).toInt = ((c.toNat + i) % s.elems.length : Nat) := by
  rw [nextIndex_eq, hd]
  split
  · rfl
  next hupper =>
    obtain ⟨hdist, hmod⟩ := within_upper_mod h hwrap hi (by omega)
    rw [hdist, hmod]
    rfl

/-- What a counter chooses at its n values from c on, each pod of the n once. -/
def EachOnce (pods : Slice ScoredPod) (choose : Nat → Except Panic (Option ScoredPod)) : Prop :=
  ∀ pod ∈ pods.elems, ((List.range pods.elems.length).map choose).count (.ok (some pod)) = 1

theorem nodup_of_names {pods : List ScoredPod} (h : (names pods).Nodup) : pods.Nodup := List.Nodup.of_map _ h

theorem counter_toNat {c : UInt64} {n i : Nat} (hi : i < n) (hwrap : c.toNat + n ≤ 2 ^ 64) :
    (c + UInt64.ofNat i).toNat = c.toNat + i := by
  have hlt := c.toNat_lt
  rw [UInt64.toNat_add, UInt64.toNat_ofNat', Nat.mod_eq_of_lt (a := i) (by omega), Nat.mod_eq_of_lt (by omega)]

theorem EachOnce.chosen {pods : Slice ScoredPod} {choose : Nat → Except Panic (Option ScoredPod)} (h : EachOnce pods choose)
    (hnodup : pods.elems.Nodup) {i : Nat} (hi : i < pods.elems.length) : ∃ pod ∈ pods.elems, choose i = .ok (some pod) := by
  have htargets : (pods.elems.map (fun pod => (Except.ok (some pod) : Except Panic (Option ScoredPod)))).Nodup := by
    refine hnodup.map ?_
    intro p q hpq
    exact Option.some.inj (Except.ok.inj hpq)
  have hsubset : pods.elems.map (fun pod => (Except.ok (some pod) : Except Panic (Option ScoredPod))) ⊆
      (List.range pods.elems.length).map choose := by
    intro answer hanswer
    obtain ⟨pod, hpod, rfl⟩ := List.mem_map.mp hanswer
    have hcount := h pod hpod
    exact List.count_pos_iff.mp (by omega)
  have hperm := (List.subperm_of_subset htargets hsubset).perm_of_length_le (by simp)
  obtain ⟨pod, hpod, heq⟩ := List.mem_map.mp (hperm.mem_iff.mpr (List.mem_map_of_mem (List.mem_range.mpr hi)))
  exact ⟨pod, hpod, heq.symm⟩

theorem eachOnce_of_turns {pods : Slice ScoredPod} {sorted : List ScoredPod} (hperm : sorted.Perm pods.elems)
    (hnodup : pods.elems.Nodup) (start : Nat) {choose : Nat → Except Panic (Option ScoredPod)}
    (h : ∀ i < pods.elems.length, choose i = .ok sorted[(start + i) % pods.elems.length]?) : EachOnce pods choose := by
  intro pod hpod
  obtain ⟨j, hj, rfl⟩ := List.getElem_of_mem (hperm.mem_iff.mpr hpod)
  have hpos : 0 < pods.elems.length := List.length_pos_of_mem hpod
  have hrun : (List.range pods.elems.length).map choose =
      (turns pods.elems.length start pods.elems.length).map (fun j => .ok sorted[j]?) := by
    rw [turns, List.map_map, List.range'_eq_map_range, List.map_map]
    exact List.map_congr_left (fun i hi => h i (List.mem_range.mp hi))
  have hinj : ∀ i ∈ turns pods.elems.length start pods.elems.length,
      (Except.ok sorted[i]? : Except Panic (Option ScoredPod)) = .ok sorted[j]? → i = j := by
    intro i hi heq
    have hlt : i < sorted.length := by
      rw [hperm.length_eq]
      exact Finset.mem_range.mp (mem_turns_lt hpos hi)
    rw [List.getElem?_eq_getElem hlt, List.getElem?_eq_getElem hj] at heq
    exact (hperm.nodup_iff.mpr hnodup).getElem_inj_iff.mp (Option.some.inj (Except.ok.inj heq))
  rw [hrun, ← List.getElem?_eq_getElem hj, count_map hinj]
  exact count_turns_round _ (hperm.length_eq ▸ hj)

theorem roundRobin_window (lib : SortSlice) {c d : UInt64} {pods given : Slice ScoredPod} (hnames : (names pods.elems).Nodup)
    (hgiven : given.elems.Perm pods.elems) (hwithin : ∀ i < pods.elems.length, Within pods.elems.length (c.toNat + i))
    (hwrap : c.toNat + pods.elems.length ≤ 2 ^ 64) {i : Nat} (hi : i < pods.elems.length) (hd : d.toNat = c.toNat + i) :
    (roundRobin lib d given).map some = .ok (lib.sort pods).elems[(c.toNat + i) % pods.elems.length]? := by
  rw [← hgiven.length_eq] at hwithin hwrap hi ⊢
  have hlt : (c.toNat + i) % given.elems.length < (lib.sort given).elems.length := by
    rw [length_sort]
    exact Nat.mod_lt _ (Nat.zero_lt_of_lt hi)
  rw [roundRobin_of_index lib (nextIndex_window hi hwithin hwrap hd) hlt, ← lib.sort_eq hnames hgiven,
    List.getElem?_eq_getElem hlt]
  rfl

theorem eachOnce_iff (lib : SortSlice) {c : UInt64} {pods : Slice ScoredPod} (hne : pods.elems ≠ [])
    (hnames : (names pods.elems).Nodup) (hwrap : c.toNat + pods.elems.length ≤ 2 ^ 64)
    (given : Nat → Slice ScoredPod) (hgiven : ∀ i, (given i).elems.Perm pods.elems) :
    EachOnce pods (fun i => (roundRobin lib (c + UInt64.ofNat i) (given i)).map some) ↔
      ∀ i < pods.elems.length, Within pods.elems.length (c.toNat + i) := by
  have hnodup := nodup_of_names hnames
  constructor
  · intro honce i hi
    obtain ⟨pod, hpod, heq⟩ := honce.chosen hnodup hi
    obtain ⟨chosen, hok, hsome⟩ := map_eq_ok.mp heq
    obtain rfl : chosen = pod := Option.some.inj hsome
    have hne' : (given i).elems ≠ [] := fun hnil => hne (List.nil_perm.mp (hnil ▸ hgiven i))
    have hwithin := (roundRobin_ok_iff lib (c + UInt64.ofNat i) hne').mp ⟨chosen, (hgiven i).mem_iff.mpr hpod, hok⟩
    rwa [(hgiven i).length_eq, counter_toNat hi hwrap] at hwithin
  · intro hwithin
    refine eachOnce_of_turns (lib.perm pods) hnodup c.toNat (fun i hi => ?_)
    exact roundRobin_window lib hnames (hgiven i) hwithin hwrap hi (counter_toNat hi hwrap)

end RoundRobin

end ProductionStack.GatewayPickers
