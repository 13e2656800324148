import Mathlib.Algebra.BigOperators.Group.Finset.Basic
import Mathlib.Algebra.Order.BigOperators.Group.Finset
import Mathlib.Data.Int.CardIntervalMod
import Mathlib.Data.List.Nodup
import Mathlib.Data.List.Range
import Mathlib.Order.Interval.Finset.Nat

namespace ProductionStack.Rotation

section Counting

variable {α : Type} [DecidableEq α] {s : Finset α} {xs : List α}

/-- No choice is taken more than once more often than another. -/
def Even (s : Finset α) (xs : List α) : Prop := ∀ a ∈ s, ∀ b ∈ s, xs.count a ≤ xs.count b + 1

theorem sum_count (hxs : ∀ x ∈ xs, x ∈ s) : ∑ a ∈ s, xs.count a = xs.length := by
  have h := Multiset.sum_count_eq_card (s := s) (m := (xs : Multiset α)) (by simpa using hxs)
  simpa using h

theorem count_eq_one (hxs : ∀ x ∈ xs, x ∈ s) (hnodup : xs.Nodup) (hlength : xs.length = s.card)
    {a : α} (ha : a ∈ s) : xs.count a = 1 := by
  have hsubset : xs.toFinset ⊆ s := by
    intro x hx
    exact hxs x (List.mem_toFinset.mp hx)
  have hcard : s.card ≤ xs.toFinset.card := by
    rw [List.toFinset_card_of_nodup hnodup, hlength]
  have hall := Finset.eq_of_subset_of_card_le hsubset hcard
  rw [← hall, List.mem_toFinset] at ha
  exact List.count_eq_one_of_mem hnodup ha

theorem exists_not_mem_of_length_lt (hlength : xs.length < s.card) : ∃ a ∈ s, a ∉ xs := by
  have hcard : xs.toFinset.card < s.card := xs.toFinset_card_le.trans_lt hlength
  obtain ⟨a, ha, hnot⟩ := Finset.exists_mem_notMem_of_card_lt_card hcard
  exact ⟨a, ha, fun h => hnot (List.mem_toFinset.mpr h)⟩

theorem count_eq_of_even {j : Nat} (hxs : ∀ x ∈ xs, x ∈ s) (heven : Even s xs)
    (hlength : xs.length = j * s.card) {a : α} (ha : a ∈ s) : xs.count a = j := by
  have hsum : ∑ b ∈ s, xs.count b = ∑ _b ∈ s, j := by
    rw [sum_count hxs, hlength, Finset.sum_const, Nat.nsmul_eq_mul, Nat.mul_comm]
  rcases Nat.lt_trichotomy (xs.count a) j with hlt | heq | hgt
  · have hle : ∀ b ∈ s, xs.count b ≤ j := fun b hb => (heven b hb a ha).trans hlt
    exact absurd hsum (Finset.sum_lt_sum hle ⟨a, ha, hlt⟩).ne
  · exact heq
  · have hle : ∀ b ∈ s, j ≤ xs.count b := by
      intro b hb
      have := heven a ha b hb
      omega
    exact absurd hsum (Finset.sum_lt_sum hle ⟨a, ha, hgt⟩).ne'

theorem count_map {β : Type} [DecidableEq β] {f : β → α} {ys : List β} {b : β} (hf : ∀ y ∈ ys, f y = f b → y = b) :
    (ys.map f).count (f b) = ys.count b := by
  rw [List.count_eq_countP, List.countP_map, List.count_eq_countP]
  refine List.countP_congr ?_
  intro y hy
  simp only [Function.comp_apply, beq_iff_eq]
  exact ⟨hf y hy, congrArg f⟩

end Counting

section Rounds

variable {α : Type} {k : Nat} {xs : List α}

def round (k : Nat) (xs : List α) (j : Nat) : List α := (xs.drop (j * k)).take k

/-- No round takes a choice twice. -/
def Spread (k : Nat) (xs : List α) : Prop := ∀ j, (round k xs j).Nodup

theorem mem_of_mem_round {j : Nat} {x : α} (h : x ∈ round k xs j) : x ∈ xs :=
  List.mem_of_mem_drop (List.mem_of_mem_take h)

theorem take_rounds (xs : List α) {r : Nat} (hr : r ≤ k) (j : Nat) :
    xs.take (j * k + r) = xs.take (j * k) ++ (round k xs j).take r := by
  rw [List.take_add, round, List.take_take, Nat.min_eq_left hr]

theorem length_round {j : Nat} (h : (j + 1) * k ≤ xs.length) : (round k xs j).length = k := by
  rw [Nat.add_mul, Nat.one_mul] at h
  rw [round, List.length_take, List.length_drop]
  omega

variable [DecidableEq α] {s : Finset α}

theorem count_take_rounds (hxs : ∀ x ∈ xs, x ∈ s) (hspread : Spread s.card xs) (j : Nat)
    (hj : j * s.card ≤ xs.length) {a : α} (ha : a ∈ s) : (xs.take (j * s.card)).count a = j := by
  induction j with
  | zero => simp
  | succ j ih =>
    have hone : (round s.card xs j).count a = 1 :=
      count_eq_one (fun x hx => hxs x (mem_of_mem_round hx)) (hspread j) (length_round hj) ha
    have hbefore : j * s.card ≤ xs.length := (Nat.mul_le_mul_right _ (Nat.le_succ j)).trans hj
    have hround : (round s.card xs j).take s.card = round s.card xs j := by
      rw [round, List.take_take, Nat.min_self]
    rw [Nat.add_mul, Nat.one_mul, take_rounds xs (Nat.le_refl _), hround, List.count_append, ih hbefore, hone]

theorem even_of_spread (hxs : ∀ x ∈ xs, x ∈ s) (hspread : Spread s.card xs) (n : Nat) : Even s (xs.take n) := by
  wlog hn : n ≤ xs.length generalizing n
  · have hall := this xs.length (Nat.le_refl _)
    rwa [List.take_of_length_le (by omega), ← List.take_length (l := xs)]
  intro a ha b hb
  have hpos : 0 < s.card := Finset.card_pos.mpr ⟨a, ha⟩
  have hdm : n / s.card * s.card + n % s.card = n := Nat.div_add_mod' n s.card
  have hround := take_rounds xs (Nat.mod_lt n hpos).le (n / s.card)
  rw [hdm] at hround
  have hwhole : n / s.card * s.card ≤ xs.length := (Nat.div_mul_le_self n s.card).trans hn
  have hrest : ((round s.card xs (n / s.card)).take (n % s.card)).count a ≤ 1 :=
    List.nodup_iff_count_le_one.mp ((hspread _).sublist (List.take_sublist _ _)) a
  rw [hround, List.count_append, List.count_append, count_take_rounds hxs hspread _ hwhole ha,
    count_take_rounds hxs hspread _ hwhole hb]
  omega

theorem round_take_nodup (hxs : ∀ x ∈ xs, x ∈ s) (heven : ∀ n, Even s (xs.take n)) {j : Nat}
    (hj : j * s.card ≤ xs.length) (r : Nat) (hr : r ≤ s.card) : ((round s.card xs j).take r).Nodup := by
  induction r with
  | zero => simp
  | succ r ih =>
    have hnodup := ih (Nat.le_of_succ_le hr)
    rw [List.take_add_one]
    cases hx : (round s.card xs j)[r]? with
    | none => simpa using hnodup
    | some x =>
      have hmem : x ∈ s := hxs x (mem_of_mem_round (List.mem_of_getElem? hx))
      rw [Option.toList_some, List.nodup_append]
      refine ⟨hnodup, List.nodup_singleton x, ?_⟩
      intro y hy z hz hyz
      rw [List.mem_singleton] at hz
      subst hyz hz
      -- x is taken again while some choice is not yet taken in this round
      have hlength : ((round s.card xs j).take r).length < s.card := (List.length_take_le _ _).trans_lt hr
      obtain ⟨b, hb, hnot⟩ := exists_not_mem_of_length_lt hlength
      have hwhole : ∀ a ∈ s, (xs.take (j * s.card)).count a = j := by
        intro a ha
        refine count_eq_of_even (fun x hx => hxs x (List.mem_of_mem_take hx)) (heven _) ?_ ha
        rw [List.length_take, Nat.min_eq_left hj]
      have hne : b ≠ y := fun h => hnot (h ▸ hy)
      have h := heven (j * s.card + (r + 1)) y hmem b hb
      rw [take_rounds xs hr, List.take_add_one, hx, Option.toList_some, List.count_append, List.count_append,
        List.count_append, List.count_append, hwhole y hmem, hwhole b hb, List.count_eq_zero.mpr hnot,
        List.count_singleton_self, List.count_singleton, if_neg (by simpa using hne.symm)] at h
      have hpos := List.count_pos_iff.mpr hy
      omega

theorem even_take_iff_spread (hxs : ∀ x ∈ xs, x ∈ s) : (∀ n, Even s (xs.take n)) ↔ Spread s.card xs := by
  constructor
  · intro heven j
    rcases Nat.le_total (j * s.card) xs.length with hj | hj
    · have h := round_take_nodup hxs heven hj s.card (Nat.le_refl _)
      rwa [round, List.take_take, Nat.min_self] at h
    · rw [round, List.drop_of_length_le hj]
      simp
  · exact even_of_spread hxs

end Rounds

section Turns

variable {k : Nat}

/-- What n consecutive values of a counter leave modulo k. -/
def turns (k start n : Nat) : List Nat := (List.range' start n).map (· % k)

theorem length_turns (k start n : Nat) : (turns k start n).length = n := by simp [turns]

theorem mem_turns_lt (hk : 0 < k) {start n i : Nat} (h : i ∈ turns k start n) : i ∈ Finset.range k := by
  obtain ⟨m, -, rfl⟩ := List.mem_map.mp h
  exact Finset.mem_range.mpr (Nat.mod_lt m hk)

theorem nodup_turns (start : Nat) {n : Nat} (hn : n ≤ k) : (turns k start n).Nodup := by
  refine List.Nodup.map_on ?_ List.nodup_range'
  intro a ha b hb hab
  rw [List.mem_range'_1] at ha hb
  refine Nat.mod_injOn_Ico start k ?_ ?_ hab
  · rw [Finset.mem_coe, Finset.mem_Ico]
    omega
  · rw [Finset.mem_coe, Finset.mem_Ico]
    omega

theorem drop_turns (start n m : Nat) : (turns k start n).drop m = turns k (start + m) (n - m) := by
  rw [turns, ← List.map_drop, List.drop_range', Nat.mul_one, turns]

theorem take_turns (start : Nat) {n m : Nat} (h : m ≤ n) : (turns k start n).take m = turns k start m := by
  rw [turns, ← List.map_take, List.take_range'_of_length_ge h, turns]

theorem spread_turns (start n : Nat) : Spread k (turns k start n) := by
  intro j
  rw [round, drop_turns]
  rcases Nat.le_total k (n - j * k) with h | h
  · rw [take_turns _ h]
    exact nodup_turns _ (Nat.le_refl k)
  · rw [List.take_of_length_le (by rwa [length_turns])]
    exact nodup_turns _ h

theorem count_turns_round (start : Nat) {i : Nat} (hi : i < k) : (turns k start k).count i = 1 := by
  have hk : 0 < k := Nat.zero_lt_of_lt hi
  exact count_eq_one (fun x hx => mem_turns_lt hk hx) (nodup_turns start (Nat.le_refl k))
    (by rw [length_turns, Finset.card_range]) (Finset.mem_range.mpr hi)

theorem count_turns (start n : Nat) {i : Nat} (hi : i < k) :
    (turns k start n).count i = n / k ∨ (turns k start n).count i = (n + k - 1) / k := by
  have hk : 0 < k := Nat.zero_lt_of_lt hi
  have hxs : ∀ x ∈ turns k start n, x ∈ Finset.range k := fun x hx => mem_turns_lt hk hx
  have hspread : Spread (Finset.range k).card (turns k start n) := by
    rw [Finset.card_range]
    exact spread_turns start n
  have hdm : n / k * k + n % k = n := Nat.div_add_mod' n k
  have hwhole : n / k * k ≤ n := Nat.div_mul_le_self n k
  have hsplit := take_rounds (turns k start n) (Nat.mod_lt n hk).le (n / k)
  rw [hdm, List.take_of_length_le (length_turns k start n).le] at hsplit
  have hcount : ((turns k start n).take (n / k * k)).count i = n / k := by
    have h := count_take_rounds hxs hspread (n / k) (by rwa [Finset.card_range, length_turns])
      (Finset.mem_range.mpr hi)
    rwa [Finset.card_range] at h
  have hrest : ((round k (turns k start n) (n / k)).take (n % k)).count i ≤ 1 :=
    List.nodup_iff_count_le_one.mp ((spread_turns start n _).sublist (List.take_sublist _ _)) i
  have hzero : n % k = 0 → ((round k (turns k start n) (n / k)).take (n % k)).count i = 0 := by
    intro h
    rw [h, List.take_zero, List.count_nil]
  have hceil : n % k ≠ 0 → (n + k - 1) / k = n / k + 1 := by
    intro h
    have hsum : n + k - 1 = (n % k - 1) + (n / k + 1) * k := by
      rw [Nat.add_mul, Nat.one_mul]
      omega
    rw [hsum, Nat.add_mul_div_right _ _ hk, Nat.div_eq_of_lt (by have := Nat.mod_lt n hk; omega), Nat.zero_add]
  rw [hsplit, List.count_append, hcount]
  by_cases h : n % k = 0
  · exact .inl (by rw [hzero h, Nat.add_zero])
  · rw [hceil h]
    omega

theorem turns_succ (start n : Nat) : turns k start (n + 1) = start % k :: turns k (start + 1) n := by
  rw [turns, List.range'_succ, List.map_cons, turns]

theorem turns_concat (start n : Nat) : turns k start (n + 1) = turns k start n ++ [(start + n) % k] := by
  rw [turns, List.range'_concat, Nat.one_mul, List.map_append, List.map_singleton, turns]

theorem count_turns_zero (n : Nat) {i : Nat} (hi : i < k) : (turns k 0 n).count i = n / k + if i < n % k then 1 else 0 := by
  have hcount : (turns k 0 n).count i = n.count (· ≡ i [MOD k]) := by
    induction n with
    | zero => rfl
    | succ n ih =>
      rw [turns_concat, List.count_append, ih, Nat.count_succ, Nat.zero_add, List.count_singleton]
      simp only [Nat.ModEq, Nat.mod_eq_of_lt hi, beq_iff_eq]
  rw [hcount, Nat.count_modEq_card _ (Nat.zero_lt_of_lt hi), Nat.mod_eq_of_lt hi]

end Turns

end ProductionStack.Rotation
