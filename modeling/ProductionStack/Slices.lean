import Mathlib.Data.List.Infix
import Mathlib.Data.PNat.Basic

namespace ProductionStack.Slices

variable {α : Type} (c : ℕ+)

/-- The successive slices of c elements, the last one possibly shorter. -/
def slices (l : List α) : List (List α) :=
  (List.range' 0 ((l.length + c - 1) / c) c).map (fun i => (l.drop i).take c)

theorem slices_nil : slices c ([] : List α) = [] := by
  have hpos := c.pos
  have hcount : (([] : List α).length + (c : Nat) - 1) / c = 0 := Nat.div_eq_of_lt (by rw [List.length_nil]; omega)
  rw [slices, hcount]
  rfl

theorem slices_of_ne_nil {l : List α} (h : l ≠ []) : slices c l = l.take c :: slices c (l.drop c) := by
  have hpos := c.pos
  have hlength := List.length_pos_iff.mpr h
  have hcount : (l.length + (c : Nat) - 1) / c = ((l.drop c).length + (c : Nat) - 1) / c + 1 := by
    rw [List.length_drop, ← Nat.add_div_right _ hpos]
    rcases Nat.le_total l.length c with hle | hle
    · rw [Nat.div_eq_of_lt_le (k := 1) (by omega) (by omega)]
      rw [Nat.div_eq_of_lt_le (k := 1) (by omega) (by omega)]
    · congr 1
      omega
  rw [slices, hcount, List.range'_succ, List.map_cons, List.drop_zero, slices]
  congr 1
  rw [Nat.zero_add, ← Nat.add_zero (c : Nat), ← List.map_add_range', List.map_map, Nat.add_zero]
  refine List.map_congr_left (fun i _ => ?_)
  rw [Function.comp_apply, List.drop_drop]

theorem flatten_take_slices (l : List α) (k : Nat) : ((slices c l).take k).flatten = l.take (c * k) := by
  induction k generalizing l with
  | zero => simp
  | succ k ih =>
    by_cases h : l = []
    · simp [h, slices_nil]
    · rw [slices_of_ne_nil c h, List.take_succ_cons, List.flatten_cons, ih, Nat.mul_succ, Nat.add_comm, List.take_add]

variable {c} {l m : List α}

theorem length_slices_le {k : Nat} : (slices c l).length ≤ k ↔ l.length ≤ c * k := by
  rw [slices, List.length_map, List.length_range']
  have hpos := c.pos
  rw [← Nat.lt_succ_iff, Nat.div_lt_iff_lt_mul hpos, Nat.succ_mul, Nat.mul_comm k]
  omega

theorem mul_le_length {k : Nat} (h : k < (slices c l).length) : c * k ≤ l.length := by
  rw [← not_le, length_slices_le] at h
  omega

theorem mul_length_slices_le : c * (slices c l).length ≤ l.length ↔ (c : Nat) ∣ l.length := by
  have hcover : l.length ≤ c * (slices c l).length := length_slices_le.mp le_rfl
  constructor
  · intro h
    exact ⟨_, Nat.le_antisymm hcover h⟩
  · rintro ⟨k, hk⟩
    have hlength : (slices c l).length ≤ k := length_slices_le.mpr hk.le
    rw [hk]
    exact Nat.mul_le_mul_left _ hlength

theorem take_eq_of_take_slices {k : Nat} (h : (slices c l).take k = (slices c m).take k) :
    l.take (c * k) = m.take (c * k) := by
  rw [← flatten_take_slices, ← flatten_take_slices, h]

theorem eq_of_slices_isPrefix (hpre : slices c l <+: slices c m) (hshort : ¬(c : Nat) ∣ l.length) : l = m := by
  have hcover : l.length ≤ c * (slices c l).length := length_slices_le.mp le_rfl
  have hlt : l.length < c * (slices c l).length := lt_of_not_ge (fun h => hshort (mul_length_slices_le.mp h))
  have htake : m.take (c * (slices c l).length) = l := by
    have hslices : (slices c l).take (slices c l).length = (slices c m).take (slices c l).length := by
      rw [List.take_length]
      exact List.prefix_iff_eq_take.mp hpre
    exact (take_eq_of_take_slices hslices).symm.trans (List.take_of_length_le hcover)
  have hm : m.length ≤ c * (slices c l).length := by
    have hlength := congrArg List.length htake
    rw [List.length_take] at hlength
    omega
  rw [← htake, List.take_of_length_le hm]

end ProductionStack.Slices
