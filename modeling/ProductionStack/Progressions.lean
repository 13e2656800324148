import Mathlib.Data.Int.GCD
import Mathlib.Data.Int.Range
import Mathlib.Data.List.Nodup
import Mathlib.Data.List.Range
import Mathlib.Data.Nat.GCD.Basic
import Mathlib.Tactic.Linarith
import Mathlib.Tactic.Ring

namespace ProductionStack.Progressions

/-- Finitely many terms of an arithmetic progression. -/
structure Progression where
  base : Int
  stride : Int
  count : Nat
  deriving DecidableEq, Repr

namespace Progression

def term (q : Progression) (i : Nat) : Int := q.base + q.stride * i

section Modulus

variable (N : Nat)

def terms (q : Progression) : List Int := (List.range q.count).map (fun i => (q.term i).bmod N)

/-- The same numbers, the least first. -/
def ascending (q : Progression) : Progression :=
  if q.stride < 0 then ⟨q.term (q.count - 1), -q.stride, q.count⟩ else q

/-- The numbers s * i and t * j + d meet for some i < m and j < n: the greatest common divisor of
the strides divides the distance, and the parameters of the solutions in the bounds, on
the line through the one that Bézout's coefficients give, are an interval that is not empty. -/
def Meet (s t : Int) (m n : Nat) (d : Int) : Prop :=
  let g : Int := Int.gcd s t
  let i := d / g * Int.gcdA s t
  let j := -(d / g * Int.gcdB s t)
  g ∣ d ∧ max (-(i / (t / g))) (-(j / (s / g))) ≤ min ((m - 1 - i) / (t / g)) ((n - 1 - j) / (s / g))

instance (s t : Int) (m n : Nat) (d : Int) : Decidable (Meet s t m n d) := instDecidableAnd

/-- Two progressions do not meet, however often one of them goes around more than the other. -/
def Apart (q r : Progression) : Prop :=
  let q := q.ascending
  let r := r.ascending
  ∀ k, -((r.base - q.base + (r.count - 1) * r.stride) / N) ≤ k → k ≤ ((q.count - 1) * q.stride - (r.base - q.base)) / N →
    ¬Meet q.stride r.stride q.count r.count (r.base - q.base + k * N)

instance (q r : Progression) : Decidable (Apart N q r) := Int.decidableLELE _ _ _

def period (q : Progression) : Nat := N / Nat.gcd q.stride.natAbs N

variable {N}

theorem bmod_eq_bmod_iff {a b : Int} : a.bmod N = b.bmod N ↔ (N : Int) ∣ a - b := by
  rw [Int.bmod_eq_bmod_iff_bmod_sub_eq_zero, Int.dvd_iff_bmod_eq_zero]

theorem mem_terms {q : Progression} {x : Int} : x ∈ q.terms N ↔ ∃ i < q.count, (q.term i).bmod N = x := by
  simp [terms]

theorem terms_disjoint_iff {q r : Progression} :
    (q.terms N).Disjoint (r.terms N) ↔ ∀ i < q.count, ∀ j < r.count, ¬(N : Int) ∣ q.term i - r.term j := by
  constructor
  · intro h i hi j hj hdvd
    exact h (mem_terms.mpr ⟨i, hi, rfl⟩) (mem_terms.mpr ⟨j, hj, (bmod_eq_bmod_iff.mpr hdvd).symm⟩)
  · intro h x hq hr
    obtain ⟨i, hi, rfl⟩ := mem_terms.mp hq
    obtain ⟨j, hj, heq⟩ := mem_terms.mp hr
    exact h i hi j hj (bmod_eq_bmod_iff.mp heq.symm)

theorem term_ascending {q : Progression} {i : Nat} (hi : i < q.count) :
    q.ascending.term i = q.term (if q.stride < 0 then q.count - 1 - i else i) := by
  rw [ascending]
  split_ifs with hneg
  · have hlast : ((q.count - 1 - i : Nat) : Int) = ((q.count - 1 : Nat) : Int) - i := by omega
    simp only [term, hlast]
    ring
  · rfl

theorem count_ascending (q : Progression) : q.ascending.count = q.count := by
  rw [ascending]
  split_ifs <;> rfl

theorem stride_ascending {q : Progression} (h : q.stride ≠ 0) : 0 < q.ascending.stride := by
  rw [ascending]
  split_ifs with hneg
  · exact Int.neg_pos_of_neg hneg
  · omega

theorem mem_terms_ascending {q : Progression} {x : Int} : x ∈ q.ascending.terms N ↔ x ∈ q.terms N := by
  simp only [mem_terms, count_ascending]
  constructor
  · rintro ⟨i, hi, rfl⟩
    rw [term_ascending hi]
    exact ⟨_, by split_ifs <;> omega, rfl⟩
  · rintro ⟨i, hi, rfl⟩
    refine ⟨if q.stride < 0 then q.count - 1 - i else i, by split_ifs <;> omega, ?_⟩
    rw [term_ascending (by split_ifs <;> omega)]
    congr 2
    split_ifs <;> omega

section Line

variable {σ τ a b : Int}

/-- With Bézout's coefficients the solutions of a linear equation lie on a line. -/
theorem solution_iff (hone : σ * a + τ * b = 1) {e i j : Int} :
    σ * i - τ * j = e ↔ ∃ z, i = e * a + z * τ ∧ j = -(e * b) + z * σ := by
  constructor
  · rintro rfl
    refine ⟨i * b + j * a, ?_, ?_⟩
    · calc i = i * (σ * a + τ * b) := by rw [hone, mul_one]
        _ = (σ * i - τ * j) * a + (i * b + j * a) * τ := by ring
    · calc j = j * (σ * a + τ * b) := by rw [hone, mul_one]
        _ = -((σ * i - τ * j) * b) + (i * b + j * a) * σ := by ring
  · rintro ⟨z, rfl, rfl⟩
    calc σ * (e * a + z * τ) - τ * (-(e * b) + z * σ) = e * (σ * a + τ * b) := by ring
      _ = e := by rw [hone, mul_one]

theorem bounds_iff (hτ : 0 < τ) (x z m : Int) : 0 ≤ x + z * τ ∧ x + z * τ < m ↔ -(x / τ) ≤ z ∧ z ≤ (m - 1 - x) / τ := by
  rw [neg_le, Int.le_ediv_iff_mul_le hτ, Int.le_ediv_iff_mul_le hτ, neg_mul]
  constructor
  · rintro ⟨hlow, hhigh⟩
    exact ⟨by linarith, by linarith⟩
  · rintro ⟨hlow, hhigh⟩
    exact ⟨by linarith, by linarith⟩

theorem exists_in_bounds_iff (hσ : 0 < σ) (hτ : 0 < τ) (x y m n : Int) :
    (∃ z, (0 ≤ x + z * τ ∧ x + z * τ < m) ∧ 0 ≤ y + z * σ ∧ y + z * σ < n) ↔
      max (-(x / τ)) (-(y / σ)) ≤ min ((m - 1 - x) / τ) ((n - 1 - y) / σ) := by
  simp only [bounds_iff hτ, bounds_iff hσ]
  constructor
  · rintro ⟨z, ⟨hxz, hzx⟩, hyz, hzy⟩
    exact (max_le hxz hyz).trans (le_min hzx hzy)
  · intro h
    obtain ⟨hx, hy⟩ := le_min_iff.mp h
    exact ⟨_, ⟨le_max_left _ _, hx⟩, le_max_right _ _, hy⟩

end Line

theorem exists_lt_iff (m : Nat) (P : Int → Prop) : (∃ i : Nat, i < m ∧ P i) ↔ ∃ i : Int, (0 ≤ i ∧ i < m) ∧ P i := by
  constructor
  · rintro ⟨i, hi, h⟩
    exact ⟨i, by omega, h⟩
  · rintro ⟨i, hi, h⟩
    obtain ⟨k, rfl⟩ := Int.eq_ofNat_of_zero_le hi.1
    exact ⟨k, by omega, h⟩

theorem meet_iff {s t : Int} (hs : 0 < s) (ht : 0 < t) (m n : Nat) (d : Int) :
    Meet s t m n d ↔ ∃ i < m, ∃ j < n, s * (i : Nat) - t * (j : Nat) = d := by
  have hg : (0 : Int) < Int.gcd s t := by exact_mod_cast Int.gcd_pos_of_ne_zero_left t hs.ne'
  obtain ⟨σ, hσ⟩ : (Int.gcd s t : Int) ∣ s := Int.gcd_dvd_left ..
  obtain ⟨τ, hτ⟩ : (Int.gcd s t : Int) ∣ t := Int.gcd_dvd_right ..
  have hσpos : 0 < σ := (mul_pos_iff_of_pos_left hg).mp (hσ ▸ hs)
  have hτpos : 0 < τ := (mul_pos_iff_of_pos_left hg).mp (hτ ▸ ht)
  have hone : σ * Int.gcdA s t + τ * Int.gcdB s t = 1 := by
    apply mul_left_cancel₀ hg.ne'
    rw [mul_add, ← mul_assoc, ← mul_assoc, ← hσ, ← hτ, ← Int.gcd_eq_gcd_ab, mul_one]
  have hdist (i j : Int) : s * i - t * j = Int.gcd s t * (σ * i - τ * j) := by
    rw [mul_sub, ← mul_assoc, ← mul_assoc, ← hσ, ← hτ]
  have hints : (∃ i < m, ∃ j < n, s * (i : Nat) - t * (j : Nat) = d) ↔
      ∃ i : Int, (0 ≤ i ∧ i < m) ∧ ∃ j : Int, (0 ≤ j ∧ j < n) ∧ Int.gcd s t * (σ * i - τ * j) = d := by
    simp only [← hdist]
    rw [exists_lt_iff m (fun i => ∃ j < n, s * i - t * (j : Nat) = d)]
    exact exists_congr (fun i => and_congr_right' (exists_lt_iff n (fun j => s * i - t * j = d)))
  rw [hints, Meet, Int.ediv_eq_of_eq_mul_right hg.ne' hσ, Int.ediv_eq_of_eq_mul_right hg.ne' hτ]
  constructor
  · rintro ⟨⟨e, rfl⟩, hle⟩
    rw [Int.mul_ediv_cancel_left e hg.ne', ← exists_in_bounds_iff hσpos hτpos] at hle
    obtain ⟨z, hi, hj⟩ := hle
    exact ⟨_, hi, _, hj, by rw [(solution_iff hone).mpr ⟨z, rfl, rfl⟩]⟩
  · rintro ⟨i, hi, j, hj, rfl⟩
    refine ⟨⟨_, rfl⟩, ?_⟩
    rw [Int.mul_ediv_cancel_left _ hg.ne', ← exists_in_bounds_iff hσpos hτpos]
    obtain ⟨z, hzi, hzj⟩ := (solution_iff hone).mp (rfl : σ * i - τ * j = _)
    exact ⟨z, by rwa [← hzi], by rwa [← hzj]⟩

theorem dvd_term_sub_iff {q r : Progression} {i j : Nat} :
    (N : Int) ∣ q.term i - r.term j ↔ ∃ k : Int, q.stride * i - r.stride * j = r.base - q.base + k * N := by
  rw [dvd_iff_exists_eq_mul_left]
  refine exists_congr (fun k => ?_)
  rw [term, term]
  constructor <;> intro h <;> linarith

theorem apart_iff (hN : 0 < N) {q r : Progression} (hq : q.stride ≠ 0) (hr : r.stride ≠ 0) :
    Apart N q r ↔ (q.terms N).Disjoint (r.terms N) := by
  have hdisjoint : (q.terms N).Disjoint (r.terms N) ↔ (q.ascending.terms N).Disjoint (r.ascending.terms N) := by
    simp only [List.Disjoint, mem_terms_ascending]
  rw [hdisjoint, terms_disjoint_iff, Apart]
  have hs := stride_ascending hq
  have ht := stride_ascending hr
  generalize q.ascending = q at hs
  generalize r.ascending = r at ht
  have hNpos : (0 : Int) < N := by exact_mod_cast hN
  simp only [meet_iff hs ht]
  constructor
  · intro h i hi j hj hdvd
    obtain ⟨k, hk⟩ := dvd_term_sub_iff.mp hdvd
    refine h k ?_ ?_ ⟨i, hi, j, hj, hk⟩
    · rw [neg_le, Int.le_ediv_iff_mul_le hNpos]
      nlinarith
    · rw [Int.le_ediv_iff_mul_le hNpos]
      nlinarith
  · rintro h k - - ⟨i, hi, j, hj, hk⟩
    exact h i hi j hj (dvd_term_sub_iff.mpr ⟨k, hk⟩)

theorem dvd_mul_iff_period_dvd (hN : 0 < N) (q : Progression) (d : Nat) : (N : Int) ∣ q.stride * d ↔ q.period N ∣ d := by
  have hg : 0 < Nat.gcd q.stride.natAbs N := Nat.gcd_pos_of_pos_right _ hN
  have hcop : Nat.Coprime (N / Nat.gcd q.stride.natAbs N) (q.stride.natAbs / Nat.gcd q.stride.natAbs N) :=
    (Nat.coprime_div_gcd_div_gcd hg).symm
  rw [← Int.natAbs_dvd_natAbs, Int.natAbs_mul, Int.natAbs_natCast, period]
  constructor
  · intro h
    apply hcop.dvd_of_dvd_mul_left
    rw [← Nat.mul_dvd_mul_iff_left hg, ← Nat.mul_assoc, Nat.mul_div_cancel' (Nat.gcd_dvd_right _ _),
      Nat.mul_div_cancel' (Nat.gcd_dvd_left _ _)]
    exact h
  · intro h
    have hmul := Nat.mul_dvd_mul_left (Nat.gcd q.stride.natAbs N) h
    rw [Nat.mul_div_cancel' (Nat.gcd_dvd_right _ _)] at hmul
    exact hmul.trans (Nat.mul_dvd_mul_right (Nat.gcd_dvd_left _ _) d)

theorem period_pos (hN : 0 < N) (q : Progression) : 0 < q.period N :=
  Nat.div_pos (Nat.gcd_le_right _ hN) (Nat.gcd_pos_of_pos_right _ hN)

theorem terms_nodup_iff (hN : 0 < N) (q : Progression) : (q.terms N).Nodup ↔ q.count ≤ q.period N := by
  have hdiff (i j : Nat) : q.term j - q.term i = q.stride * ((j : Int) - i) := by
    rw [term, term, Int.mul_sub]
    omega
  rw [terms, List.nodup_map_iff_inj_on List.nodup_range]
  constructor
  · intro hinj
    by_contra hlt
    have hperiod := period_pos hN q
    have hmeet : (q.term (q.period N)).bmod N = (q.term 0).bmod N := by
      rw [bmod_eq_bmod_iff, hdiff]
      simpa using (dvd_mul_iff_period_dvd hN q (q.period N)).mpr (Nat.dvd_refl _)
    have hzero := hinj (q.period N) (List.mem_range.mpr (by omega)) 0 (List.mem_range.mpr (by omega)) hmeet
    omega
  · intro hle i hi j hj heq
    rw [List.mem_range] at hi hj
    -- both orders of the two indices lead to the same contradiction
    have hclose (i j : Nat) (hij : i < j) (hj : j < q.count) : ¬(N : Int) ∣ q.term j - q.term i := by
      intro hdvd
      rw [hdiff, show ((j : Int) - i) = ((j - i : Nat) : Int) by omega, dvd_mul_iff_period_dvd hN] at hdvd
      have hper := Nat.le_of_dvd (by omega) hdvd
      omega
    rcases Nat.lt_trichotomy i j with hlt | rfl | hlt
    · exact absurd (bmod_eq_bmod_iff.mp heq.symm) (hclose i j hlt hj)
    · rfl
    · exact absurd (bmod_eq_bmod_iff.mp heq) (hclose j i hlt hi)

/-- Progressions that do not stand still have no term in common and none twice. -/
theorem flatMap_terms_nodup_iff (hN : 0 < N) {qs : List Progression} (hne : ∀ q ∈ qs, q.stride ≠ 0) :
    (qs.flatMap (terms N)).Nodup ↔ (∀ q ∈ qs, q.count ≤ q.period N) ∧ qs.Pairwise (Apart N) := by
  have hpair : qs.Pairwise (fun q r => (q.terms N).Disjoint (r.terms N)) ↔ qs.Pairwise (Apart N) := by
    apply List.Pairwise.iff_of_mem
    intro q r hq hr
    exact (apart_iff hN (hne q hq) (hne r hr)).symm
  rw [List.nodup_flatMap]
  exact and_congr (forall₂_congr (fun q _ => terms_nodup_iff hN q)) hpair

end Modulus

end Progression

end ProductionStack.Progressions
